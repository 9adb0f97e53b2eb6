import Ferrixd.Command.Metadata
import Ferrixd.Data.Machine

/-! # Metadata that is acknowledged

A value that a client is told has been set is there when it asks for it, unless it is under a new key and there
are too many keys already. -/

namespace Ferrixd

/-! ## The map -/

/-- A value is not dropped: it is taken away, it replaces another, or there is room for it. -/
theorem lookup_applyMetadata (map : Table String String) (key : String) (value : Option String) :
    (applyMetadata map key value).lookup key = value ↔
      ¬ (value.isSome = true ∧ key ∉ map ∧ maxMetadataKeys ≤ map.keys.length) := by
  cases value with
  | none =>
    rw [applyMetadata, AList.lookup_erase]
    exact iff_of_true rfl fun full => absurd full.1 Bool.false_ne_true
  | some value =>
    rw [applyMetadata]
    split
    · rename_i room
      rw [AList.lookup_insert]
      refine iff_of_true rfl fun full => ?_
      exact room.elim (Nat.not_lt_of_le full.2.2) full.2.1
    · rename_i full
      rw [not_or, Nat.not_lt] at full
      refine iff_of_false (fun found => ?_) fun kept => kept ⟨rfl, full.2, full.1⟩
      rw [AList.lookup_eq_none.mpr full.2] at found
      cases found

theorem length_applyMetadata {map : Table String String} (small : map.keys.length ≤ maxMetadataKeys) (key : String)
    (value : Option String) : (applyMetadata map key value).keys.length ≤ maxMetadataKeys := by
  cases value with
  | none => exact (Table.length_keys_erase map key).trans small
  | some value =>
    rw [applyMetadata]
    split
    · rename_i room
      rw [Table.length_keys_insert]
      split
      · rename_i absent
        exact room.resolve_right (AList.lookup_eq_none.mp absent)
      · exact small
    · exact small

/-! ## The command -/

namespace Annotated

variable {m : Annotated} {id : UInt64} {target key : String} {value : Option String}

/-- The metadata that a client may change. -/
def writable (m : Annotated) (id : UInt64) (target : String) : Option (Table String String) :=
  if m.isSelfTarget id target then some (m.clients id)
  else if isValidChannel target && m.operates id target then some (m.channels (m.server.fold target))
  else none

theorem isSelfTarget_congr {next : Annotated} (same : next.server.toTables = m.server.toTables) :
    next.isSelfTarget id target = m.isSelfTarget id target := by
  rw [isSelfTarget, isSelfTarget, same]

theorem metadataSnapshot_congr {next : Annotated} (same : next.server.toTables = m.server.toTables)
    (clients : next.clients = m.clients) (channels : next.channels = m.channels) :
    next.metadataSnapshot id target = m.metadataSnapshot id target := by
  rw [metadataSnapshot, metadataSnapshot, isSelfTarget_congr same, same, clients, channels]

theorem snapshot_self (own : m.isSelfTarget id target = true) : m.metadataSnapshot id target = some (m.clients id) := by
  rw [metadataSnapshot, if_pos own]

theorem snapshot_channel (other : m.isSelfTarget id target = false) (isChannel : isValidChannel target = true)
    (operator : m.operates id target = true) :
    m.metadataSnapshot id target = some (m.channels (m.server.fold target)) := by
  obtain ⟨channel, found, _⟩ := (Option.any_eq_true _ _).mp operator
  rw [metadataSnapshot, if_neg (Bool.eq_false_iff.mp other), if_pos isChannel, found]
  rfl

/-- A change is made to what may be changed, and seen. -/
theorem changeMetadata_spec (m : Annotated) (id : UInt64) (target : String)
    (change : Table String String → Table String String) :
    (m.writable id target = none ∧ m.changeMetadata id target change = none) ∨
      ∃ map next, m.writable id target = some map ∧ m.changeMetadata id target change = some next ∧
        next.metadataSnapshot id target = some (change map) := by
  rw [writable, changeMetadata]
  cases own : m.isSelfTarget id target with
  | true =>
    refine .inr ⟨_, _, rfl, rfl, ?_⟩
    refine (snapshot_self ?_).trans (congrArg some (if_pos rfl))
    exact own
  | false =>
    rw [if_neg Bool.false_ne_true, if_neg Bool.false_ne_true]
    cases allowed : isValidChannel target && m.operates id target with
    | false => exact .inl ⟨rfl, rfl⟩
    | true =>
      obtain ⟨isChannel, operator⟩ := Bool.and_eq_true_iff.mp allowed
      refine .inr ⟨_, _, rfl, rfl, ?_⟩
      refine (snapshot_channel ?_ isChannel ?_).trans (congrArg some (if_pos rfl))
      · exact own
      · exact operator

/-- No client and no channel has more keys than the limit. -/
def Bounded (m : Annotated) : Prop :=
  (∀ id, (m.clients id).keys.length ≤ maxMetadataKeys) ∧ ∀ folded, (m.channels folded).keys.length ≤ maxMetadataKeys

theorem Bounded.change {change : Table String String → Table String String} {next : Annotated} (bounded : m.Bounded)
    (small : ∀ map : Table String String, map.keys.length ≤ maxMetadataKeys →
      (change map).keys.length ≤ maxMetadataKeys)
    (changed : m.changeMetadata id target change = some next) : next.Bounded := by
  rw [changeMetadata] at changed
  split at changed
  · cases changed
    refine ⟨fun other => ?_, bounded.2⟩
    dsimp only
    split
    · exact small _ (bounded.1 id)
    · exact bounded.1 other
  split at changed
  · cases changed
    refine ⟨bounded.1, fun name => ?_⟩
    dsimp only
    split
    · exact small _ (bounded.2 _)
    · exact bounded.2 name
  · cases changed

theorem Bounded.subscribe (bounded : m.Bounded) (id : UInt64) (keys : List String) :
    (Annotated.subscribe id keys m).1.Bounded := by
  induction keys generalizing m with
  | nil => exact bounded
  | cons key keys ih =>
    rw [Annotated.subscribe]
    split
    · exact ih bounded
    split
    · exact bounded
    · refine ih (m := { m with subs := _ }) bounded

/-- A command keeps to the limit. -/
theorem Bounded.cmdMetadata (bounded : m.Bounded) (id : UInt64) (params : List String) :
    (m.cmdMetadata id params).1.Bounded := by
  -- only setting a value can lengthen a list, and checks its bound
  unfold Annotated.cmdMetadata
  split
  · rename_i target sub rest
    split
    · split <;> exact bounded
    · split <;> exact bounded
    · split
      · exact bounded
      · dsimp only
        split
        · exact bounded
        split
        · exact bounded
        split
        · exact bounded
        · rename_i set
          exact bounded.change (fun map small => length_applyMetadata small _ _) set
    · dsimp only
      split
      · exact bounded
      · rename_i cleared
        exact bounded.change (fun _ _ => Nat.zero_le _) cleared
    · split
      · exact bounded
      · exact bounded.subscribe id rest
    · split <;> exact bounded
    · exact bounded
    · exact bounded
  · exact bounded

/-! ## What is acknowledged -/

theorem answer_toTables (m : Annotated) (id : UInt64) (s : Server) (reply : MetadataReply) :
    (m.answer id s reply).toTables = s.toTables := by
  cases reply with
  | announce target key value =>
    rw [answer, announceMetadata]
    split
    · rfl
    · exact Server.sendAll_toTables _ _ _
  | fail code context text => exact Server.fail_toTables _ _ _ _ _ _
  | _ => exact Server.numeric_toTables _ _ _ _ _

/-- Sending the replies changes nothing that is stored. -/
theorem metadata_snapshot (m : Annotated) (id : UInt64) (params : List String) (target : String) :
    (m.metadata id params).metadataSnapshot id target =
      (m.cmdMetadata id params).1.metadataSnapshot id target := by
  refine metadataSnapshot_congr ?_ rfl rfl
  exact foldl_invariant (I := fun s : Server => s.toTables = (m.cmdMetadata id params).1.server.toTables) _ _
    (fun s reply _ same => (answer_toTables _ id s reply).trans same) _ rfl

theorem Bounded.metadata (bounded : m.Bounded) (id : UInt64) (params : List String) :
    (m.metadata id params).Bounded :=
  bounded.cmdMetadata id params

/-- The value that `SET` asks for. -/
def asked (more : List String) : Option String :=
  more.head?.filter fun value => value ≠ ""

/-- What reading a value is answered with. -/
def reading (target key : String) : Option String → MetadataReply
  | some value => .keyValue target key (some value)
  | none => .fail "KEY_NOT_SET" [target, key] "Key not set"

theorem cmdMetadata_set (m : Annotated) (id : UInt64) (target : String) {sub : String} (key : String)
    (more : List String) (set : asciiUpper sub = "SET") :
    m.cmdMetadata id (target :: sub :: key :: more) =
      if !validMetadataKey key then (m, [.fail "KEY_INVALID" [target, key] "Invalid key"])
      else if (asked more).any fun value => maxMetadataValueLen < value.utf8ByteSize then
        (m, [.fail "VALUE_INVALID" [target, key] "Value too long"])
      else
        match m.metadataSet id target key (asked more) with
        | none => (m, [.fail "KEY_NO_PERMISSION" [target, key] "Permission denied"])
        | some m => (m, [.keyValue target key (asked more), .announce target key (asked more)]) := by
  simp only [cmdMetadata, set]
  rfl

theorem cmdMetadata_get (m : Annotated) (id : UInt64) (target key : String) :
    (m.cmdMetadata id [target, "GET", key]).2 = match m.metadataSnapshot id target with
      | none => [.fail "INVALID_TARGET" [target] "No such target"]
      | some map => [reading target key (map.lookup key)] := by
  have get : asciiUpper "GET" = "GET" := by decide
  simp only [cmdMetadata, get]
  cases m.metadataSnapshot id target with
  | none => rfl
  | some map =>
    dsimp only [List.map, getKey]
    cases map.lookup key with
    | none => rfl
    | some value => rfl

/-- The change is permitted, and not to a map that has too many keys already. -/
def Overfull (m : Annotated) (id : UInt64) (target key : String) (value : Option String) : Prop :=
  validMetadataKey key = true ∧ ∃ map, m.writable id target = some map ∧
    (∃ text, value = some text ∧ text.utf8ByteSize ≤ maxMetadataValueLen) ∧
    key ∉ map ∧ maxMetadataKeys ≤ map.keys.length

/-- The reply to a `SET` is true: what is acknowledged is read back, and what is not stored is refused. -/
structure Honest (m : Annotated) (id : UInt64) (target sub key : String) (more : List String) : Prop where
  acknowledged : .keyValue target key (asked more) ∈ (m.cmdMetadata id (target :: sub :: key :: more)).2 →
    ((m.metadata id (target :: sub :: key :: more)).cmdMetadata id [target, "GET", key]).2 =
      [reading target key (asked more)]
  refused : ((m.metadata id (target :: sub :: key :: more)).metadataSnapshot id target).map (·.lookup key) ≠
      some (asked more) →
    ∃ code context text, (m.cmdMetadata id (target :: sub :: key :: more)).2 = [.fail code context text]

/-- A reply to `SET` is true exactly if the map is not overfull. -/
theorem honest_iff (m : Annotated) (id : UInt64) (target : String) {sub : String} (key : String)
    (more : List String) (set : asciiUpper sub = "SET") :
    m.Honest id target sub key more ↔ ¬ m.Overfull id target key (asked more) := by
  have command := cmdMetadata_set m id target key more set
  have refusal (code : String) (context : List String) (text : String)
      (same : m.cmdMetadata id (target :: sub :: key :: more) = (m, [.fail code context text])) :
      m.Honest id target sub key more := by
    constructor
    · intro acknowledged
      rw [same, List.mem_singleton] at acknowledged
      cases acknowledged
    · exact fun _ => ⟨code, context, text, congrArg Prod.snd same⟩
  -- the checks in their order: the key, the length, the permission, and at last the number of keys
  cases valid : validMetadataKey key with
  | false =>
    rw [valid, Bool.not_false, if_pos rfl] at command
    exact iff_of_true (refusal _ _ _ command) fun full => absurd (valid.symm.trans full.1) Bool.false_ne_true
  | true =>
    rw [valid, Bool.not_true, if_neg Bool.false_ne_true] at command
    split at command
    · rename_i long
      refine iff_of_true (refusal _ _ _ command) fun ⟨_, _, _, ⟨text, same, short⟩, _⟩ => ?_
      rw [same, Option.any_some, decide_eq_true_iff] at long
      exact Nat.not_le_of_lt long short
    · rename_i short
      rcases changeMetadata_spec m id target fun map => applyMetadata map key (asked more) with
        ⟨forbidden, unchanged⟩ | ⟨map, next, permitted, changed, seen⟩
      · rw [metadataSet, unchanged] at command
        refine iff_of_true (refusal _ _ _ command) fun ⟨_, _, permitted, _⟩ => ?_
        rw [forbidden] at permitted
        cases permitted
      · rw [metadataSet, changed] at command
        have snapshot := metadata_snapshot m id (target :: sub :: key :: more) target
        rw [command, seen] at snapshot
        have stored := lookup_applyMetadata map key (asked more)
        -- all checks have passed, and only a new key in a full map is dropped without a word
        have overfull : m.Overfull id target key (asked more) ↔
            (asked more).isSome = true ∧ key ∉ map ∧ maxMetadataKeys ≤ map.keys.length := by
          rw [Overfull, permitted]
          cases value : asked more with
          | none => simp
          | some text =>
            rw [value, Option.any_some, decide_eq_true_iff, Nat.not_lt] at short
            simp [valid, short]
        rw [overfull, ← stored]
        constructor
        · intro honest
          by_contra dropped
          obtain ⟨code, context, text, failed⟩ := honest.refused (by
            rw [snapshot, Option.map_some, ne_eq, Option.some.injEq]
            exact dropped)
          rw [command] at failed
          cases failed
        · intro kept
          constructor
          · intro _
            rw [cmdMetadata_get, snapshot]
            exact congrArg (fun value => [reading target key value]) kept
          · intro dropped
            rw [snapshot, Option.map_some, kept] at dropped
            exact absurd rfl dropped

end Annotated

/-! ## Runs -/

/-- A client's command, and everything else in between. -/
inductive MetadataCall where
  | metadata (id : UInt64) (params : List String)
  | elsewhere

namespace MetadataCall

/-- Metadata goes away with its client or channel, and moves with a channel that is renamed. -/
def Performs (m next : Annotated) : MetadataCall → Prop
  | metadata id params => next = m.metadata id params
  | elsewhere => (∀ id, next.clients id = ∅ ∨ next.clients id = m.clients id) ∧
      ∀ folded, next.channels folded = ∅ ∨ ∃ earlier, next.channels folded = m.channels earlier

/-- Nobody has metadata at the start. -/
def machine : Machine Annotated MetadataCall where
  start m := (∀ id, m.clients id = ∅) ∧ ∀ folded, m.channels folded = ∅
  step m call next := call.Performs m next

theorem run_bounded {m : Annotated} (run : machine.Reachable m) : m.Bounded := by
  refine run.invariant (I := Annotated.Bounded) ?_ ?_
  · intro m ⟨noClients, noChannels⟩
    constructor
    · intro id
      rw [noClients id]
      exact Nat.zero_le _
    · intro folded
      rw [noChannels folded]
      exact Nat.zero_le _
  · intro m call next bounded _ performed
    cases call with
    | metadata id params =>
      have same : next = m.metadata id params := performed
      rw [same]
      exact bounded.metadata id params
    | elsewhere =>
      -- elsewhere clients and channels go, or channels are filed anew
      obtain ⟨clients, channels⟩ := performed
      constructor
      · intro id
        rcases clients id with gone | kept
        · rw [gone]
          exact Nat.zero_le _
        · rw [kept]
          exact bounded.1 id
      · intro folded
        rcases channels folded with gone | ⟨earlier, kept⟩
        · rw [gone]
          exact Nat.zero_le _
        · rw [kept]
          exact bounded.2 earlier

/-- In every run no map has more than 20 keys, and every reply to a `SET` is true exactly if the map it is for is
not overfull. -/
theorem runs_metadata {m : Annotated} (run : machine.Reachable m) :
    ((∀ id, (m.clients id).keys.length ≤ maxMetadataKeys) ∧
      ∀ folded, (m.channels folded).keys.length ≤ maxMetadataKeys) ∧
    ∀ id target sub key more, asciiUpper sub = "SET" →
      (m.Honest id target sub key more ↔ ¬ m.Overfull id target key (Annotated.asked more)) :=
  ⟨run_bounded run, fun id target _ key more set => m.honest_iff id target key more set⟩

/-- A server with one client, `alice`, who has no metadata. -/
def bare : Annotated :=
  ⟨((Server.alpha.connect "host.example").cmdNick 1 "alice").completeRegistration 1 "cloak.example",
    fun _ => ∅, fun _ => ∅, fun _ => []⟩

theorem bare_start : machine.Reachable bare :=
  .start ⟨fun _ => rfl, fun _ => rfl⟩

theorem runs_metadata_bare :
    bare.Honest 1 "*" "set" "color" ["red"] ↔ ¬ bare.Overfull 1 "*" "color" (Annotated.asked ["red"]) :=
  (runs_metadata bare_start).2 1 "*" "set" "color" ["red"] (by decide)

/-- Set keys of one's own, one after the other. -/
def setEach (m : Annotated) (keys : List String) : Annotated :=
  keys.foldl (fun m key => m.metadata 1 ["*", "SET", key, "on"]) m

theorem setEach_run {m : Annotated} (run : machine.Reachable m) (keys : List String) :
    machine.Reachable (setEach m keys) := by
  induction keys generalizing m with
  | nil => exact run
  | cons key rest ih => exact ih (.step (e := .metadata 1 ["*", "SET", key, "on"]) run trivial rfl)

theorem setEach_clients (m : Annotated) {keys : List String} (valid : ∀ key ∈ keys, validMetadataKey key = true) :
    (setEach m keys).clients 1 = keys.foldl (fun map key => applyMetadata map key (some "on")) (m.clients 1) := by
  induction keys generalizing m with
  | nil => rfl
  | cons key rest ih =>
    have set : (m.metadata 1 ["*", "SET", key, "on"]).clients 1 = applyMetadata (m.clients 1) key (some "on") := by
      have command := @Annotated.cmdMetadata_set m 1 "*" "SET" key ["on"] (by decide)
      rw [valid key List.mem_cons_self] at command
      change (m.cmdMetadata 1 ["*", "SET", key, "on"]).1.clients 1 = _
      rw [command]
      rfl
    rw [List.foldl_cons, ← set]
    exact ih _ fun other later => valid other (List.mem_cons_of_mem key later)

/-- As many keys as there is room for. -/
def manyKeys : List String :=
  (List.range 20).map fun n => "k" ++ toString n

/-- The 21st key is acknowledged and not stored. -/
theorem acknowledged_dropped : ¬ ∀ m, machine.Reachable m → ∀ id target sub key more, asciiUpper sub = "SET" →
    m.Honest id target sub key more := by
  intro honest
  have reached := setEach_run bare_start manyKeys
  have told := honest _ reached 1 "*" "SET" "extra" ["on"] (by decide)
  rw [Annotated.honest_iff _ _ _ _ _ (by decide)] at told
  refine told ⟨by decide, _, if_pos ?_, ⟨"on", rfl, by decide⟩, ?_⟩
  · rfl
  rw [setEach_clients bare (by decide +kernel)]
  decide +kernel

end MetadataCall

end Ferrixd
