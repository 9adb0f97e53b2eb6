import Ferrixd.Data.Machine
import Ferrixd.Frame
import Ferrixd.Ts6.Grammar

/-! # Aliases

The identifier of a UID is the same from its first use on, and has the shape that TS6 asks for. -/

namespace Ferrixd

/-- The TS6 identifier of a UID, if it has one by now. -/
def UidMapper.identifier (mapper : UidMapper) (uid : String) : Option String :=
  if validUid uid then some uid else mapper.aliases.lookup uid

/-! ## Aliases stay -/

namespace UidMapper

/-- The identifiers of one mapper are those of another. -/
def Extends (mapper later : UidMapper) : Prop :=
  ∀ uid ts6Uid, mapper.identifier uid = some ts6Uid → later.identifier uid = some ts6Uid

theorem Extends.refl (mapper : UidMapper) : mapper.Extends mapper := fun _ _ known => known

theorem Extends.trans {first second third : UidMapper} (left : first.Extends second) (right : second.Extends third) :
    first.Extends third :=
  fun uid ts6Uid known => right uid ts6Uid (left uid ts6Uid known)

theorem identifier_toTs6 (mapper : UidMapper) (uid : String) :
    (mapper.toTs6 uid).2.identifier uid = (mapper.toTs6 uid).1 := by
  rw [toTs6]
  split
  · rename_i valid
    rw [identifier, if_pos valid]
  · rename_i invalid
    cases known : mapper.aliases.lookup uid with
    | some ts6Uid => rw [identifier, if_neg invalid, known]
    | none =>
      dsimp only
      split
      · rw [identifier, if_neg invalid, AList.lookup_insert]
      · rw [identifier, if_neg invalid, known]

theorem toTs6_extends (mapper : UidMapper) (uid : String) : mapper.Extends (mapper.toTs6 uid).2 := by
  rw [toTs6]
  split
  · exact .refl mapper
  · cases known : mapper.aliases.lookup uid with
    | some ts6Uid => exact .refl mapper
    | none =>
      dsimp only
      split
      · intro other ts6Uid before
        rw [identifier] at before ⊢
        split at before
        · rename_i valid
          rwa [if_pos valid]
        · rename_i invalid
          have apart : other ≠ uid := by
            rintro rfl
            rw [known] at before
            cases before
          rw [if_neg invalid, AList.lookup_insert_ne apart]
          exact before
      · exact .refl mapper

end UidMapper

/-! ## Their shape -/

/-- Text of letters and digits: none of the signs of the grammar. -/
structure Ts6Word (text : String) : Prop where
  nonempty : text.toList ≠ []
  plain : ∀ c ∈ text.toList, isWhitespace c = false ∧
    ∀ sign ∈ ['\x00', '\r', '\n', ' ', '!', '+', ':', '@'], c ≠ sign

theorem isTs6Char_plain {b : UInt8} (ts6 : isTs6Char b = true) :
    b < 0x80 ∧ isWhitespace (Char.ofNat b.toNat) = false ∧
      ∀ sign ∈ ['\x00', '\r', '\n', ' ', '!', '+', ':', '@'], Char.ofNat b.toNat ≠ sign := by
  have range : (65 ≤ b.toNat ∧ b.toNat ≤ 90) ∨ (48 ≤ b.toNat ∧ b.toNat ≤ 57) := by
    simpa only [isTs6Char, Protocol.isAsciiDigit, Bool.or_eq_true, Bool.and_eq_true, decide_eq_true_eq,
      UInt8.le_iff_toNat_le, UInt8.reduceToNat] using ts6
  -- both ranges lie between the signs, which are below `0` or `:` and `@`
  have plain : (List.range 91).all (fun code => !((65 ≤ code && code ≤ 90) || (48 ≤ code && code ≤ 57)) ||
      (!isWhitespace (Char.ofNat code) &&
        ['\x00', '\r', '\n', ' ', '!', '+', ':', '@'].all fun sign => Char.ofNat code != sign)) = true := by
    rfl
  have checked := List.all_eq_true.mp plain b.toNat (List.mem_range.mpr (by omega))
  simp only [Bool.or_eq_true, Bool.not_eq_true', Bool.or_eq_false_iff, Bool.and_eq_false_iff, decide_eq_false_iff_not,
    Bool.and_eq_true, List.all_eq_true, bne_iff_ne] at checked
  refine ⟨UInt8.lt_iff_toNat_lt.mpr (by simp only [UInt8.reduceToNat]; omega), ?_⟩
  rcases checked with outside | inside
  · omega
  · exact inside

theorem length_utf8_ascii {text : String} (ascii : ∀ b ∈ utf8 text, b < 0x80) :
    (utf8 text).length = text.toList.length := by
  rw [utf8_eq] at ascii ⊢
  generalize text.toList = chars at ascii ⊢
  induction chars with
  | nil => rfl
  | cons c rest ih =>
    rw [List.flatMap_cons] at ascii ⊢
    obtain ⟨b, more, encoded⟩ := List.exists_cons_of_ne_nil (utf8EncodeChar_ne_nil c)
    have first : b ∈ String.utf8EncodeChar c := encoded ▸ List.mem_cons_self
    obtain ⟨single, -⟩ := utf8EncodeChar_ascii first (ascii b (List.mem_append_left _ first))
    rw [List.length_append, ih fun other member => ascii other (List.mem_append_right _ member), single]
    simp [Nat.add_comm]

theorem validSid_bytes {sid : String} (valid : validSid sid = true) :
    (utf8 sid).length = 3 ∧ ∀ b ∈ utf8 sid, isTs6Char b = true := by
  rw [validSid] at valid
  split at valid
  · rename_i first second third shape
    simp only [Bool.and_eq_true] at valid
    rw [shape]
    refine ⟨rfl, fun b member => ?_⟩
    simp only [List.mem_cons, List.not_mem_nil, or_false] at member
    rcases member with rfl | rfl | rfl
    · simp [isTs6Char, valid.1.1]
    · exact valid.1.2
    · exact valid.2
  · cases valid

namespace Ts6Word

variable {text : String}

theorem ne (word : Ts6Word text) {c : Char} (member : c ∈ text.toList) {sign : Char}
    (listed : sign ∈ ['\x00', '\r', '\n', ' ', '!', '+', ':', '@']) : c ≠ sign :=
  (word.plain c member).2 sign listed

theorem middle (word : Ts6Word text) : Middle text := by
  refine ⟨word.nonempty, fun c member => ?_, fun lead => ?_⟩
  · exact ⟨word.ne member (by decide), word.ne member (by decide), word.ne member (by decide),
      word.ne member (by decide)⟩
  · exact word.ne (List.mem_of_mem_head? lead) (by decide) rfl

end Ts6Word

theorem length_base36 (value count : Nat) : (base36 value count).length = count := by
  induction count generalizing value with
  | zero => rfl
  | succ count ih => rw [base36, List.length_append, ih, List.length_singleton]

theorem getD_aliasAlphabet (index : Nat) : aliasAlphabet.getD index 'A' ∈ aliasAlphabet := by
  rw [List.getD_eq_getElem?_getD]
  cases found : aliasAlphabet[index]? with
  | none => decide
  | some c => exact List.mem_of_getElem? found

theorem mem_base36 (value count : Nat) : ∀ c ∈ base36 value count, c ∈ aliasAlphabet := by
  induction count generalizing value with
  | zero => exact fun c member => absurd member List.not_mem_nil
  | succ count ih =>
    intro c member
    rw [base36] at member
    rcases List.mem_append.mp member with member | member
    · exact ih _ c member
    · rw [List.mem_singleton.mp member]
      exact getD_aliasAlphabet _

theorem encodeId_bytes (n : UInt64) :
    (utf8 (encodeId n)).length = 6 ∧ ∀ b ∈ utf8 (encodeId n), isTs6Char b = true := by
  have letters : ∀ c ∈ (encodeId n).toList, c ∈ aliasAlphabet := by
    intro c member
    rw [encodeId, String.toList_ofList] at member
    rcases List.mem_cons.mp member with rfl | member
    · exact getD_aliasAlphabet _
    · exact mem_base36 _ _ c member
  have encoded : aliasAlphabet.all (fun c => (String.utf8EncodeChar c).all isTs6Char) = true := by rfl
  have bytes : ∀ b ∈ utf8 (encodeId n), isTs6Char b = true := by
    intro b member
    rw [utf8_eq, List.mem_flatMap] at member
    obtain ⟨c, inText, isByte⟩ := member
    exact List.all_eq_true.mp (List.all_eq_true.mp encoded c (letters c inText)) b isByte
  refine ⟨?_, bytes⟩
  rw [length_utf8_ascii fun b member => (isTs6Char_plain (bytes b member)).1, encodeId, String.toList_ofList,
    List.length_cons, length_base36]

/-- An alias has the shape of a UID of TS6. -/
theorem validUid_alias {sid : String} (valid : validSid sid = true) (n : UInt64) :
    validUid (sid ++ encodeId n) = true := by
  obtain ⟨sidSize, sidBytes⟩ := validSid_bytes valid
  obtain ⟨idSize, idBytes⟩ := encodeId_bytes n
  have three : sid.toList.length = 3 := by
    rw [← length_utf8_ascii fun b member => (isTs6Char_plain (sidBytes b member)).1, sidSize]
  have lead : String.ofList ((sid ++ encodeId n).toList.take 3) = sid := by
    rw [String.toList_append, ← three, List.take_left, String.ofList_toList]
  have rest : (utf8 (sid ++ encodeId n)).drop 3 = utf8 (encodeId n) := by
    rw [utf8_append, ← sidSize, List.drop_left]
  rw [validUid, lead, valid, rest, utf8_append, List.length_append, sidSize, idSize,
    List.all_eq_true.mpr idBytes]
  rfl

/-! ## The mapper of a link -/

/-- TS6 has identifiers for the users of the server of a UID. -/
def representable (uid : String) : Bool :=
  validSid (String.ofList (uid.toList.take 3))

namespace UidMapper

/-- A mapper that was asked for identifiers, one after the other. -/
def asked (mapper : UidMapper) (uids : List String) : UidMapper :=
  uids.foldl (fun mapper uid => (mapper.toTs6 uid).2) mapper

/-- Aliases have the shape of TS6, and stand for UIDs that do not. -/
structure Sound (mapper : UidMapper) : Prop where
  aliases : ∀ uid ts6Uid, mapper.aliases.lookup uid = some ts6Uid → validUid ts6Uid = true ∧ representable uid = true
  originals : ∀ ts6Uid uid, mapper.originals.lookup ts6Uid = some uid → validUid ts6Uid = true ∧ validUid uid = false

variable {mapper : UidMapper}

theorem sound_new : Sound {} where
  aliases _ _ known := by cases known
  originals _ _ known := by cases known

theorem Sound.toTs6 (sound : mapper.Sound) (uid : String) : (mapper.toTs6 uid).2.Sound := by
  rw [UidMapper.toTs6]
  split
  · exact sound
  · rename_i invalid
    split
    · exact sound
    · dsimp only
      split
      · rename_i valid
        -- an alias is a valid UID, and is made for invalid ones only
        have shape := validUid_alias valid mapper.next
        constructor
        · intro other ts6Uid known
          by_cases same : other = uid
          · rw [same, AList.lookup_insert] at known
            cases known
            rw [same]
            exact ⟨shape, valid⟩
          · rw [AList.lookup_insert_ne same] at known
            exact sound.aliases other ts6Uid known
        · intro ts6Uid other known
          by_cases same : ts6Uid = String.ofList (uid.toList.take 3) ++ encodeId mapper.next
          · rw [same, AList.lookup_insert] at known
            cases known
            exact ⟨same ▸ shape, by simpa using invalid⟩
          · rw [AList.lookup_insert_ne same] at known
            exact sound.originals ts6Uid other known
      · exact sound

theorem Sound.asked (sound : mapper.Sound) (uids : List String) : (mapper.asked uids).Sound :=
  foldl_invariant (I := Sound) _ uids (fun _ uid _ later => later.toTs6 uid) mapper sound

theorem asked_extends (mapper : UidMapper) (uids : List String) : mapper.Extends (mapper.asked uids) :=
  foldl_invariant (I := fun later : UidMapper => mapper.Extends later) _ uids
    (fun later uid _ known => known.trans (later.toTs6_extends uid)) mapper (.refl mapper)

/-- Whoever is representable has an identifier once it was asked for. -/
theorem Sound.toTs6_some (sound : mapper.Sound) {uid : String} (known : representable uid = true) :
    ∃ ts6Uid, (mapper.toTs6 uid).1 = some ts6Uid ∧ validUid ts6Uid = true := by
  rw [UidMapper.toTs6]
  split
  · rename_i valid
    exact ⟨uid, rfl, valid⟩
  · split
    · rename_i ts6Uid found
      exact ⟨ts6Uid, rfl, (sound.aliases uid ts6Uid found).1⟩
    · dsimp only
      rw [representable] at known
      rw [if_pos known]
      exact ⟨_, rfl, validUid_alias known _⟩

theorem Sound.toTs6_none (sound : mapper.Sound) {uid : String} (unknown : representable uid = false) :
    mapper.toTs6 uid = (none, mapper) := by
  have invalid : validUid uid = false := by
    have lead : validSid (String.ofList (uid.toList.take 3)) = false := unknown
    rw [validUid, lead, Bool.and_false, Bool.false_and]
  rw [UidMapper.toTs6, invalid, if_neg Bool.false_ne_true]
  split
  · rename_i ts6Uid found
    rw [(sound.aliases uid ts6Uid found).2] at unknown
    cases unknown
  · dsimp only
    rw [representable] at unknown
    rw [unknown, if_neg Bool.false_ne_true]

theorem asked_append (mapper : UidMapper) (left right : List String) :
    mapper.asked (left ++ right) = (mapper.asked left).asked right :=
  List.foldl_append

theorem Sound.asked_identifier (sound : mapper.Sound) {uid : String} (known : representable uid = true)
    {uids : List String} (member : uid ∈ uids) :
    ∃ ts6Uid, (mapper.asked uids).identifier uid = some ts6Uid ∧ validUid ts6Uid = true := by
  obtain ⟨before, after, rfl⟩ := List.append_of_mem member
  obtain ⟨ts6Uid, found, shape⟩ := (sound.asked before).toTs6_some known
  refine ⟨ts6Uid, ?_, shape⟩
  rw [asked_append]
  refine asked_extends ((mapper.asked before).toTs6 uid).2 after uid ts6Uid ?_
  rw [identifier_toTs6, found]

/-- The identifier of a UID stands for nobody else. -/
def Stands (mapper : UidMapper) (uid : String) : Prop :=
  ∃ ts6Uid, mapper.identifier uid = some ts6Uid ∧ mapper.toFerrix ts6Uid = uid

end UidMapper

/-! ## Aliases are apart -/

/-- How many aliases there are before they repeat. -/
def aliasCount : Nat := 26 * 36 ^ 5

theorem getD_aliasAlphabet_inj {left right : Nat} (small : left < 36) (small' : right < 36)
    (same : aliasAlphabet.getD left 'A' = aliasAlphabet.getD right 'A') : left = right := by
  have apart : (List.range 36).all (fun left => (List.range 36).all fun right =>
      left == right || aliasAlphabet.getD left 'A' != aliasAlphabet.getD right 'A') = true := by rfl
  have checked := List.all_eq_true.mp (List.all_eq_true.mp apart left (List.mem_range.mpr small)) right
    (List.mem_range.mpr small')
  simp only [Bool.or_eq_true, beq_iff_eq, bne_iff_ne] at checked
  exact checked.resolve_right fun differ => differ same

theorem base36_inj {left right count : Nat} (same : base36 left count = base36 right count) :
    left % 36 ^ count = right % 36 ^ count := by
  induction count generalizing left right with
  | zero => simp [Nat.mod_one]
  | succ count ih =>
    rw [base36, base36] at same
    obtain ⟨high, low⟩ := List.append_inj' same rfl
    have digits := getD_aliasAlphabet_inj (Nat.mod_lt _ (by decide)) (Nat.mod_lt _ (by decide)) (List.cons.inj low).1
    rw [pow_succ', Nat.mod_mul, Nat.mod_mul, digits, ih high]

theorem encodeId_inj {left right : UInt64} (small : left.toNat < aliasCount) (small' : right.toNat < aliasCount)
    (same : encodeId left = encodeId right) : left = right := by
  rw [encodeId, encodeId, String.ofList_inj] at same
  obtain ⟨lead, rest⟩ := List.cons.inj same
  have count : aliasCount = 26 * 36 ^ 5 := rfl
  have letters := getD_aliasAlphabet_inj
    (lt_trans (Nat.mod_lt _ (by decide)) (by decide)) (lt_trans (Nat.mod_lt _ (by decide)) (by decide)) lead
  have digits := base36_inj rest
  rw [Nat.mod_mod, Nat.mod_mod] at digits
  rw [Nat.mod_eq_of_lt (by omega), Nat.mod_eq_of_lt (by omega)] at letters
  refine UInt64.toNat_inj.mp ?_
  rw [← Nat.div_add_mod left.toNat (36 ^ 5), ← Nat.div_add_mod right.toNat (36 ^ 5), letters, digits]

theorem alias_inj {sid sid' : String} (valid : validSid sid = true) (valid' : validSid sid' = true)
    {left right : UInt64} (small : left.toNat < aliasCount) (small' : right.toNat < aliasCount)
    (same : sid ++ encodeId left = sid' ++ encodeId right) : left = right := by
  have three : ∀ {sid : String}, validSid sid = true → sid.toList.length = 3 := by
    intro sid valid
    obtain ⟨sidSize, sidBytes⟩ := validSid_bytes valid
    rw [← length_utf8_ascii fun b member => (isTs6Char_plain (sidBytes b member)).1, sidSize]
  have chars := congrArg String.toList same
  rw [String.toList_append, String.toList_append] at chars
  have ids := (List.append_inj chars (by rw [three valid, three valid'])).2
  exact encodeId_inj small small' (String.toList_inj.mp ids)

namespace UidMapper

/-- Every alias leads back to the UID that it was made for. -/
structure Faithful (mapper : UidMapper) : Prop where
  made : ∀ uid ts6Uid, mapper.aliases.lookup uid = some ts6Uid → mapper.originals.lookup ts6Uid = some uid
  counted : ∀ ts6Uid ∈ mapper.originals, ∃ sid id, validSid sid = true ∧ id < mapper.next ∧ ts6Uid = sid ++ encodeId id

theorem next_toTs6 (mapper : UidMapper) (uid : String) (bound : mapper.next.toNat < aliasCount) :
    (mapper.toTs6 uid).2.next.toNat ≤ mapper.next.toNat + 1 := by
  have count : aliasCount = 26 * 36 ^ 5 := rfl
  rw [toTs6]
  split
  · exact Nat.le_succ _
  · split
    · exact Nat.le_succ _
    · dsimp only
      split
      · rw [UInt64.toNat_add]
        have one : (1 : UInt64).toNat = 1 := rfl
        omega
      · exact Nat.le_succ _

theorem Faithful.toTs6 {mapper : UidMapper} (faithful : mapper.Faithful) (bound : mapper.next.toNat < aliasCount)
    (uid : String) : (mapper.toTs6 uid).2.Faithful := by
  rw [UidMapper.toTs6]
  split
  · exact faithful
  · split
    · exact faithful
    · rename_i unknown
      dsimp only
      split
      · rename_i valid
        have step : (mapper.next + 1).toNat = mapper.next.toNat + 1 := by
          have count : aliasCount = 26 * 36 ^ 5 := rfl
          have one : (1 : UInt64).toNat = 1 := rfl
          rw [UInt64.toNat_add]
          omega
        -- aliases are numbered, and as long as the numbers last no two are the same
        have fresh : String.ofList (uid.toList.take 3) ++ encodeId mapper.next ∉ mapper.originals := by
          intro member
          obtain ⟨sid, id, sidValid, earlier, same⟩ := faithful.counted _ member
          have below := UInt64.lt_iff_toNat_lt.mp earlier
          have again := alias_inj valid sidValid bound (lt_trans below bound) same
          rw [again] at earlier
          exact absurd earlier (UInt64.lt_irrefl _)
        constructor
        · intro other ts6Uid known
          dsimp only at known ⊢
          by_cases same : other = uid
          · subst same
            rw [AList.lookup_insert] at known
            cases known
            rw [AList.lookup_insert]
          · rw [AList.lookup_insert_ne same] at known
            have before := faithful.made other ts6Uid known
            have apart : ts6Uid ≠ String.ofList (uid.toList.take 3) ++ encodeId mapper.next := by
              rintro rfl
              exact fresh (AList.lookup_isSome.mp (by rw [before]; rfl))
            rw [AList.lookup_insert_ne apart]
            exact before
        · intro ts6Uid member
          dsimp only at member ⊢
          rcases AList.mem_insert _ |>.mp member with rfl | member
          · exact ⟨_, mapper.next, valid, UInt64.lt_iff_toNat_lt.mpr (by omega), rfl⟩
          · obtain ⟨sid, id, sidValid, earlier, same⟩ := faithful.counted ts6Uid member
            have below := UInt64.lt_iff_toNat_lt.mp earlier
            exact ⟨sid, id, sidValid, UInt64.lt_iff_toNat_lt.mpr (by omega), same⟩
      · exact faithful

theorem faithful_asked {mapper : UidMapper} (faithful : mapper.Faithful) (uids : List String)
    (bound : mapper.next.toNat + uids.length ≤ aliasCount) : (mapper.asked uids).Faithful := by
  induction uids generalizing mapper with
  | nil => exact faithful
  | cons uid rest ih =>
    rw [List.length_cons] at bound
    have next := mapper.next_toTs6 uid (by omega)
    have rest_bound : (mapper.toTs6 uid).2.next.toNat + rest.length ≤ aliasCount := by omega
    exact ih (faithful.toTs6 (by omega) uid) rest_bound

/-- Until the aliases repeat, a UID that is not one of TS6 has an identifier of its own. -/
theorem stands_asked {uids : List String} (bound : uids.length ≤ aliasCount) {uid : String} (member : uid ∈ uids)
    (known : representable uid = true) (foreign : validUid uid = false) : (asked {} uids).Stands uid := by
  have new : Faithful {} := ⟨fun _ _ known => (by cases known), fun _ member => absurd member (AList.notMem_empty _)⟩
  have faithful : (asked {} uids).Faithful := by
    refine faithful_asked new uids ?_
    change 0 + uids.length ≤ aliasCount
    omega
  obtain ⟨ts6Uid, found, -⟩ := sound_new.asked_identifier known member
  refine ⟨ts6Uid, found, ?_⟩
  rw [identifier, foreign, if_neg Bool.false_ne_true] at found
  rw [toFerrix, faithful.made uid ts6Uid found]
  rfl

end UidMapper

end Ferrixd
