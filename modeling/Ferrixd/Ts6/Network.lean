import Mathlib.Data.Set.Disjoint
import Ferrixd.Ts6.Aliases

/-! # The UIDs of a network

Users of TS6 servers keep their UIDs.  A client of a native server has a number behind the SID of its server,
which may look like a UID of TS6 by itself; otherwise it gets an alias.  The aliases take it that the first three
characters of a UID are its SID. -/

namespace Ferrixd

/-- The SID of a UID. -/
def origin (uid : String) : String :=
  String.ofList (uid.toList.take 3)

/-- The SIDs of the TS6 servers and those of the native ones. -/
structure Sids (ts6 ferrix : Set String) : Prop where
  valid : ∀ sid ∈ ts6, validSid sid = true
  three : ∀ sid ∈ ferrix, sid.toList.length = 3
  disjoint : Disjoint ts6 ferrix

/-- The UIDs in use. -/
inductive NetworkUid (ts6 ferrix : Set String) : String → Prop where
  | native {sid uid : String} (known : sid ∈ ts6) (valid : validUid uid = true)
      (own : startsWith uid sid = true) : NetworkUid ts6 ferrix uid
  | client {sid : String} (known : sid ∈ ferrix) (id : UInt64) : NetworkUid ts6 ferrix (sid ++ printU64 id)

/-- A UID that gets an alias when it is asked for. -/
def needsAlias (uid : String) : Bool :=
  representable uid && !validUid uid

/-- How many aliases it takes to answer for these UIDs. -/
def allocations (uids : List String) : Nat :=
  (uids.filter needsAlias).dedup.length

theorem length_validSid {sid : String} (valid : validSid sid = true) : sid.toList.length = 3 := by
  obtain ⟨size, bytes⟩ := validSid_bytes valid
  rw [← length_utf8_ascii fun b member => (isTs6Char_plain (bytes b member)).1, size]

theorem origin_append {sid : String} (three : sid.toList.length = 3) (rest : String) : origin (sid ++ rest) = sid := by
  rw [origin, String.toList_append, ← three, List.take_left, String.ofList_toList]

theorem Sids.origin {ts6 ferrix : Set String} (sids : Sids ts6 ferrix) {sid uid : String}
    (known : sid ∈ ts6 ∪ ferrix) (own : startsWith uid sid = true) : Ferrixd.origin uid = sid := by
  obtain ⟨rest, rfl⟩ := startsWith_iff.mp own
  rcases known with isTs6 | isFerrix
  · exact origin_append (length_validSid (sids.valid sid isTs6)) rest
  · exact origin_append (sids.three sid isFerrix) rest

/-- An alias goes on with a letter after the SID. -/
theorem encodeId_lead (n : UInt64) : ∃ c rest, (encodeId n).toList = c :: rest ∧ c.isDigit = false := by
  refine ⟨_, _, String.toList_ofList, ?_⟩
  have letters : (List.range 26).all (fun index => !(aliasAlphabet.getD index 'A').isDigit) = true := by rfl
  have checked := List.all_eq_true.mp letters (n.toNat / 36 ^ 5 % 26) (List.mem_range.mpr (Nat.mod_lt _ (by decide)))
  rwa [Bool.not_eq_true'] at checked

/-- No numbered UID is an alias. -/
theorem alias_ne_client {sid sid' : String} (three : sid.toList.length = 3) (three' : sid'.toList.length = 3)
    (n id : UInt64) : sid ++ encodeId n ≠ sid' ++ printU64 id := by
  intro same
  have chars := congrArg String.toList same
  rw [String.toList_append, String.toList_append] at chars
  have ids := (List.append_inj chars (by rw [three, three'])).2
  obtain ⟨c, rest, lead, letter⟩ := encodeId_lead n
  have digit := printU64_digits id c (by rw [← ids, lead]; exact List.mem_cons_self)
  rw [letter] at digit
  cases digit

namespace UidMapper

/-- A request changes nothing, or makes an alias for a UID that has none. -/
theorem toTs6_cases (mapper : UidMapper) (uid : String) :
    (mapper.toTs6 uid).2 = mapper ∨
      (needsAlias uid = true ∧ mapper.aliases.lookup uid = none ∧
        (mapper.toTs6 uid).2 = {
          aliases := mapper.aliases.insert uid (origin uid ++ encodeId mapper.next)
          originals := mapper.originals.insert (origin uid ++ encodeId mapper.next) uid
          next := mapper.next + 1 }) := by
  rw [toTs6]
  split
  · exact .inl rfl
  · rename_i invalid
    cases unknown : mapper.aliases.lookup uid with
    | some ts6Uid => exact .inl rfl
    | none =>
      dsimp only
      split
      · rename_i valid
        refine .inr ⟨?_, rfl, rfl⟩
        rw [Bool.not_eq_true] at invalid
        rw [needsAlias, representable, valid, invalid]
        rfl
      · exact .inl rfl

/-- The aliases are numbered from 0, one for each of the wanted UIDs at most, and both tables say the same. -/
structure Numbered (mapper : UidMapper) (wanted : List String) : Prop where
  faithful : mapper.Faithful
  back : ∀ ts6Uid uid, mapper.originals.lookup ts6Uid = some uid → mapper.aliases.lookup uid = some ts6Uid
  shape : ∀ uid ts6Uid, mapper.aliases.lookup uid = some ts6Uid → ∃ id, ts6Uid = origin uid ++ encodeId id
  count : mapper.next.toNat = mapper.aliases.keys.length
  wanted : ∀ uid ∈ mapper.aliases, needsAlias uid = true ∧ uid ∈ wanted

theorem numbered_new (wanted : List String) : Numbered {} wanted where
  faithful := ⟨fun _ _ known => (by cases known), fun _ member => absurd member (AList.notMem_empty _)⟩
  back _ _ known := by cases known
  shape _ _ known := by cases known
  count := rfl
  wanted _ member := absurd member (AList.notMem_empty _)

variable {mapper : UidMapper} {wanted : List String}

/-- Different UIDs with an alias are counted among the allocations. -/
theorem Numbered.keys_le (numbered : mapper.Numbered wanted) {more : List String}
    (distinct : (more ++ mapper.aliases.keys).Nodup)
    (further : ∀ uid ∈ more, needsAlias uid = true ∧ uid ∈ wanted) :
    (more ++ mapper.aliases.keys).length ≤ allocations wanted := by
  refine (distinct.subperm fun uid member => ?_).length_le
  rw [List.mem_dedup, List.mem_filter]
  rcases List.mem_append.mp member with new | known
  · exact (further uid new).symm
  · exact (numbered.wanted uid (AList.mem_keys.mpr known)).symm

theorem Numbered.toTs6 (numbered : mapper.Numbered wanted) (few : allocations wanted ≤ aliasCount) {uid : String}
    (asked : uid ∈ wanted) : (mapper.toTs6 uid).2.Numbered wanted := by
  obtain same | ⟨needs, unknown, made⟩ := mapper.toTs6_cases uid
  · rw [same]
    exact numbered
  -- the next number is still below the count after which they repeat
  have absent : uid ∉ mapper.aliases := AList.lookup_eq_none.mp unknown
  have room : mapper.next.toNat + 1 ≤ allocations wanted := by
    have distinct : ([uid] ++ mapper.aliases.keys).Nodup :=
      List.nodup_cons.mpr ⟨fun member => absent (AList.mem_keys.mpr member), mapper.aliases.keys_nodup⟩
    have counted := numbered.keys_le distinct fun other member => by
      rw [List.mem_singleton.mp member]
      exact ⟨needs, asked⟩
    rw [List.length_append, List.length_singleton, ← numbered.count] at counted
    omega
  have faithful := numbered.faithful.toTs6 (by omega) uid
  -- whoever had the new alias before would share it now
  have fresh : origin uid ++ encodeId mapper.next ∉ mapper.originals := by
    intro member
    obtain ⟨other, found⟩ := Option.isSome_iff_exists.mp (AList.lookup_isSome.mpr member)
    have later := faithful.made other _ (by
      rw [made, AList.lookup_insert_ne]
      · exact numbered.back _ other found
      · rintro rfl
        rw [numbered.back _ other found] at unknown
        cases unknown)
    rw [made, AList.lookup_insert] at later
    cases later
    rw [numbered.back _ _ found] at unknown
    cases unknown
  rw [made] at faithful ⊢
  constructor
  case faithful => exact faithful
  case back =>
    intro ts6Uid other found
    dsimp only at found ⊢
    by_cases here : ts6Uid = origin uid ++ encodeId mapper.next
    · rw [here, AList.lookup_insert] at found
      cases found
      rw [here, AList.lookup_insert]
    · rw [AList.lookup_insert_ne here] at found
      have stored := numbered.back ts6Uid other found
      have apart : other ≠ uid := by
        rintro rfl
        rw [unknown] at stored
        cases stored
      rw [AList.lookup_insert_ne apart]
      exact stored
  case shape =>
    intro other ts6Uid found
    dsimp only at found
    by_cases here : other = uid
    · rw [here, AList.lookup_insert] at found
      cases found
      exact ⟨mapper.next, by rw [here]⟩
    · rw [AList.lookup_insert_ne here] at found
      exact numbered.shape other ts6Uid found
  case count =>
    have count : aliasCount = 26 * 36 ^ 5 := rfl
    have one : (1 : UInt64).toNat = 1 := rfl
    dsimp only
    rw [AList.keys_insert, List.length_cons, List.erase_of_not_mem fun member => absent (AList.mem_keys.mpr member),
      ← numbered.count, UInt64.toNat_add, one]
    omega
  case wanted =>
    intro other member
    rcases AList.mem_insert _ |>.mp member with rfl | known
    · exact ⟨needs, asked⟩
    · exact numbered.wanted other known

theorem numbered_asked {uids : List String} (few : allocations uids ≤ aliasCount) : (asked {} uids).Numbered uids :=
  foldl_invariant (I := fun mapper : UidMapper => mapper.Numbered uids) _ uids
    (fun _ _ member numbered => numbered.toTs6 few member) {} (numbered_new uids)

/-! ## The identifiers of a network -/

section Network

variable {ts6 ferrix : Set String}

/-- A UID that looks like one of TS6 is no alias. -/
theorem Numbered.native_apart (numbered : mapper.Numbered wanted) (sids : Sids ts6 ferrix)
    (network : ∀ uid ∈ wanted, NetworkUid ts6 ferrix uid) {uid other : String} (used : NetworkUid ts6 ferrix uid)
    (valid : validUid uid = true) : mapper.aliases.lookup other ≠ some uid := by
  intro isAlias
  obtain ⟨needs, isWanted⟩ := numbered.wanted other (AList.lookup_isSome.mp (by rw [isAlias]; rfl))
  obtain ⟨id, shape⟩ := numbered.shape other uid isAlias
  rw [needsAlias, Bool.and_eq_true, Bool.not_eq_true'] at needs
  have three : (origin other).toList.length = 3 := length_validSid needs.1
  cases network other isWanted with
  | native _ otherValid _ =>
    rw [needs.2] at otherValid
    cases otherValid
  | @client sid isFerrix number =>
    rw [origin_append (sids.three sid isFerrix)] at shape three
    cases used with
    | @native sid' _ isTs6 _ own =>
      -- it would have the SID of a native server
      have same := sids.origin (.inl isTs6) own
      rw [shape, origin_append three] at same
      rw [← same] at isTs6
      exact Set.disjoint_left.mp sids.disjoint isTs6 isFerrix
    | @client sid' isFerrix' number' =>
      exact alias_ne_client three (sids.three sid' isFerrix') id number' shape.symm

theorem Numbered.toFerrix_identifier (numbered : mapper.Numbered wanted) (sids : Sids ts6 ferrix)
    (network : ∀ uid ∈ wanted, NetworkUid ts6 ferrix uid) {uid ts6Uid : String} (used : uid ∈ wanted)
    (known : mapper.identifier uid = some ts6Uid) : mapper.toFerrix ts6Uid = uid := by
  rw [identifier] at known
  split at known
  · rename_i valid
    cases known
    rw [toFerrix]
    cases found : mapper.originals.lookup uid with
    | none => rfl
    | some other => exact absurd (numbered.back uid other found) (numbered.native_apart sids network (network uid used) valid)
  · rw [toFerrix, numbered.faithful.made uid ts6Uid known]
    rfl

theorem Numbered.identifier_shape (numbered : mapper.Numbered wanted) (sids : Sids ts6 ferrix) {uid ts6Uid : String}
    (known : mapper.identifier uid = some ts6Uid) :
    validUid ts6Uid = true ∧ ∀ sid ∈ ts6 ∪ ferrix, startsWith uid sid = true → startsWith ts6Uid sid = true := by
  rw [identifier] at known
  split at known
  · rename_i valid
    cases known
    exact ⟨valid, fun _ _ own => own⟩
  · obtain ⟨id, rfl⟩ := numbered.shape uid ts6Uid known
    obtain ⟨needs, -⟩ := numbered.wanted uid (AList.lookup_isSome.mp (by rw [known]; rfl))
    rw [needsAlias, Bool.and_eq_true] at needs
    refine ⟨validUid_alias needs.1 id, fun sid isSid own => ?_⟩
    rw [sids.origin isSid own]
    exact startsWith_iff.mpr ⟨_, rfl⟩

/-- The answer to a request is the identifier from then on. -/
theorem asked_stable (before after : List String) (uid : String) :
    ((asked {} before).toTs6 uid).1 = (asked {} (before ++ uid :: after)).identifier uid := by
  have sound := sound_new.asked before
  have final := sound_new.asked (before ++ uid :: after)
  rw [asked_append] at final ⊢
  cases known : representable uid with
  | true =>
    obtain ⟨ts6Uid, answer, -⟩ := sound.toTs6_some known
    rw [answer]
    refine (asked_extends ((asked {} before).toTs6 uid).2 after uid ts6Uid ?_).symm
    rw [identifier_toTs6, answer]
  | false =>
    rw [sound.toTs6_none known]
    cases found : ((asked {} before).asked (uid :: after)).identifier uid with
    | none => rfl
    | some ts6Uid =>
      rw [identifier] at found
      split at found
      · rename_i valid
        rw [validUid, show validSid (String.ofList (uid.toList.take 3)) = false from known, Bool.and_false,
          Bool.false_and] at valid
        cases valid
      · rw [(final.aliases uid ts6Uid found).2] at known
        cases known

/-- While the aliases do not repeat, the UIDs of a network keep their identifiers, each has the shape of TS6 and
the SID of its UID, leads back to it, and is nobody else's. -/
theorem asked_network (sids : Sids ts6 ferrix) {uids : List String}
    (network : ∀ uid ∈ uids, NetworkUid ts6 ferrix uid) (few : allocations uids < aliasCount) :
    let mapper := asked {} uids
    (∀ before uid after, uids = before ++ uid :: after →
      ((asked {} before).toTs6 uid).1 = mapper.identifier uid) ∧
    (∀ uid ∈ uids, ∀ ts6Uid, mapper.identifier uid = some ts6Uid →
      (validUid ts6Uid = true ∧ ∀ sid ∈ ts6 ∪ ferrix, startsWith uid sid = true → startsWith ts6Uid sid = true) ∧
      mapper.toFerrix ts6Uid = uid ∧
      ∀ other ∈ uids, mapper.identifier other = some ts6Uid → other = uid) ∧
    ∀ uid ∈ uids, validSid (origin uid) = true → ∃ ts6Uid, mapper.identifier uid = some ts6Uid := by
  have numbered := numbered_asked few.le
  refine ⟨?_, ?_, ?_⟩
  · rintro before uid after rfl
    exact asked_stable before after uid
  · intro uid used ts6Uid known
    have back := numbered.toFerrix_identifier sids network used known
    refine ⟨numbered.identifier_shape sids known, back, fun other isUsed same => ?_⟩
    rw [← back, numbered.toFerrix_identifier sids network isUsed same]
  · intro uid used valid
    obtain ⟨ts6Uid, found, -⟩ := sound_new.asked_identifier valid used
    exact ⟨ts6Uid, found⟩

/-- Two clients of a native server, one of whom has a UID like those of TS6, and a user of a TS6 server. -/
theorem asked_network_three :
    (asked {} ["1AA7", "1AA123456", "00AAAAAAA"]).identifier "1AA7" = some "1AAAAAAAA" ∧
      (asked {} ["1AA7", "1AA123456", "00AAAAAAA"]).toFerrix "1AAAAAAAA" = "1AA7" := by
  have sids : Sids {"00A"} {"1AA"} := by
    refine ⟨?_, ?_, ?_⟩
    · rintro sid rfl
      decide
    · rintro sid rfl
      decide
    · rw [Set.disjoint_singleton]
      decide
  have network : ∀ uid ∈ ["1AA7", "1AA123456", "00AAAAAAA"], NetworkUid {"00A"} {"1AA"} uid := by
    intro uid member
    simp only [List.mem_cons, List.not_mem_nil, or_false] at member
    rcases member with rfl | rfl | rfl
    · exact .client (Set.mem_singleton "1AA") 7
    · exact .client (Set.mem_singleton "1AA") 123456
    · exact .native (Set.mem_singleton "00A") (by decide) (by decide)
  have known : (asked {} ["1AA7", "1AA123456", "00AAAAAAA"]).identifier "1AA7" = some "1AAAAAAAA" := by decide +kernel
  have all := asked_network sids network (by decide +kernel)
  exact ⟨known, (all.2.1 "1AA7" (by decide) _ known).2.1⟩

/-- A client of a native server with a short SID gets an alias that is the UID of somebody behind a TS6 server. -/
theorem short_sid_shared :
    (validSid "212" = true ∧ Disjoint ({"212"} : Set String) {"2"}) ∧
      (∀ uid ∈ ["2123", "212AAAAAA"], NetworkUid {"212"} {"2"} uid) ∧
      allocations ["2123", "212AAAAAA"] < aliasCount ∧
      (asked {} ["2123", "212AAAAAA"]).identifier "2123" = some "212AAAAAA" ∧
      (asked {} ["2123", "212AAAAAA"]).identifier "212AAAAAA" = some "212AAAAAA" := by
  refine ⟨⟨by decide, ?_⟩, ?_, by decide +kernel, by decide +kernel, by decide +kernel⟩
  · rw [Set.disjoint_singleton]
    decide
  · intro uid member
    simp only [List.mem_cons, List.not_mem_nil, or_false] at member
    rcases member with rfl | rfl
    · exact .client (Set.mem_singleton "2") 123
    · exact .native (Set.mem_singleton "212") (by decide) (by decide)

end Network

end UidMapper

end Ferrixd
