import Ferrixd.Data.Weight
import Ferrixd.Text

/-! # The key-value store of a plugin

A plugin keeps its state in a bounded store that the host manages and writes to a file now and then. -/

namespace Ferrixd

def maxKvKeys : Nat := 256
def maxKvKeyBytes : Nat := 128
def maxKvValueBytes : Nat := 8192
def maxKvTotalBytes : Nat := 64 * 1024

/-- Minimum interval between two flushes. -/
def kvFlushIntervalMs : Nat := 2000

/-- The plugin's bounded key-value store. -/
structure KvStore where
  map : Table String Bytes
  /-- Sum of key and value lengths, kept in lockstep with `map`. -/
  total : Nat
  path : Option String
  dirty : Bool
  lastFlushMs : UInt64

namespace KvStore

variable (kv : KvStore)

/-- Delete a key. -/
def remove (key : String) : KvStore :=
  match kv.map.lookup key with
  | some old =>
    { kv with map := kv.map.erase key, total := kv.total - (key.utf8ByteSize + old.length), dirty := true }
  | none => kv

/-- The length of the value under a key, 0 where there is none. -/
def oldLen (key : String) : Nat :=
  ((kv.map.lookup key).map List.length).getD 0

/-- What the running total becomes when a value is put in. -/
def newTotal (key : String) (value : Bytes) : Nat :=
  kv.total - kv.oldLen key + value.length + (if kv.oldLen key = 0 then key.utf8ByteSize else 0)

/-- Insert, replace or, with an empty value, delete; `false` when a bound would be exceeded. -/
def set (key : String) (value : Bytes) : KvStore × Bool :=
  if key = "" ∨ maxKvKeyBytes < key.utf8ByteSize ∨ maxKvValueBytes < value.length then (kv, false)
  else if value = [] then (kv.remove key, true)
  else if maxKvTotalBytes < kv.newTotal key value then (kv, false)
  else if kv.oldLen key = 0 ∧ maxKvKeys ≤ kv.map.keys.length then (kv, false)
  else ({ kv with map := kv.map.insert key value, total := kv.newTotal key value, dirty := true }, true)

/-- A flush is due: there is something to write, a file to write it to, and enough time has passed. -/
def flushDue (now : UInt64) : Bool :=
  kv.dirty && kv.path.isSome && !(now.toNat - kv.lastFlushMs.toNat < kvFlushIntervalMs)

/-- Write the store to its file if a flush is due; `written` says whether the file system lets it. -/
def flushIfDue (now : UInt64) (written : Bool) : KvStore :=
  if kv.flushDue now && written then { kv with dirty := false, lastFlushMs := now } else kv

/-- The bytes an entry counts for. -/
def entryBytes (key : String) (value : Bytes) : Nat :=
  key.utf8ByteSize + value.length

/-- The running total is right, and no value is empty. -/
structure Sound : Prop where
  total : kv.total = kv.map.weight entryBytes
  nonempty : ∀ key value, kv.map.lookup key = some value → value ≠ []

variable {kv}

theorem Sound.remove (sound : kv.Sound) (key : String) : (kv.remove key).Sound := by
  rw [KvStore.remove]
  split
  · rename_i old found
    constructor
    · change kv.total - entryBytes key old = _
      rw [sound.total, Table.weight_erase found, Nat.add_sub_cancel_left]
    · intro other value stored
      rw [Table.lookup_erase_if] at stored
      split at stored
      · cases stored
      · exact sound.nonempty other value stored
  · exact sound

theorem Sound.newTotal (sound : kv.Sound) (key : String) (value : Bytes) :
    kv.newTotal key value = Table.weight entryBytes (kv.map.insert key value) := by
  rw [KvStore.newTotal, KvStore.oldLen, sound.total, Table.weight_insert]
  cases found : kv.map.lookup key with
  | none =>
    rw [Table.weight_erase_of_notMem (AList.lookup_eq_none.mp found)]
    simp only [Option.map_none, Option.getD_none, if_true, entryBytes]
    omega
  | some old =>
    have present : old.length ≠ 0 := fun zero => sound.nonempty key old found (List.length_eq_zero_iff.mp zero)
    rw [Table.weight_erase found]
    simp only [Option.map_some, Option.getD_some, if_neg present, entryBytes]
    omega

/-- A write is refused, deletes, or stores. -/
theorem set_cases (key : String) (value : Bytes) :
    kv.set key value = (kv, false) ∨ (value = [] ∧ kv.set key value = (kv.remove key, true)) ∨
      (value ≠ [] ∧ kv.set key value =
        ({ kv with map := kv.map.insert key value, total := kv.newTotal key value, dirty := true }, true)) := by
  rw [KvStore.set]
  split
  · exact .inl rfl
  split
  · rename_i empty
    exact .inr (.inl ⟨empty, rfl⟩)
  rename_i full
  split
  · exact .inl rfl
  split
  · exact .inl rfl
  · exact .inr (.inr ⟨full, rfl⟩)

theorem Sound.set (sound : kv.Sound) (key : String) (value : Bytes) : (kv.set key value).1.Sound := by
  obtain refused | ⟨-, deleted⟩ | ⟨full, stored⟩ := @set_cases kv key value
  · rw [refused]
    exact sound
  · rw [deleted]
    exact sound.remove key
  · rw [stored]
    refine ⟨sound.newTotal key value, ?_⟩
    intro other present found
    rw [Table.lookup_insert_if] at found
    split at found
    · cases found
      exact full
    · exact sound.nonempty other present found

theorem Sound.flushIfDue (sound : kv.Sound) (now : UInt64) (written : Bool) : (kv.flushIfDue now written).Sound := by
  rw [KvStore.flushIfDue]
  split
  · exact ⟨sound.total, sound.nonempty⟩
  · exact sound

theorem lookup_remove (key other : String) :
    (kv.remove key).map.lookup other = if other = key then none else kv.map.lookup other := by
  rw [remove]
  split
  · exact Table.lookup_erase_if _ _ _
  · rename_i absent
    split
    · rename_i same
      rw [same, absent]
    · rfl

/-- What a key holds once a value has been stored under it. -/
def stored (value : Bytes) : Option Bytes :=
  if value = [] then none else some value

theorem set_refused {key : String} {value : Bytes} (refused : (kv.set key value).2 = false) :
    (kv.set key value).1 = kv := by
  obtain same | ⟨-, same⟩ | ⟨-, same⟩ := @set_cases kv key value
  · rw [same]
  · rw [same] at refused
    cases refused
  · rw [same] at refused
    cases refused

theorem lookup_set {key : String} {value : Bytes} (accepted : (kv.set key value).2 = true) (other : String) :
    (kv.set key value).1.map.lookup other = if other = key then stored value else kv.map.lookup other := by
  obtain same | ⟨empty, same⟩ | ⟨full, same⟩ := @set_cases kv key value
  · rw [same] at accepted
    cases accepted
  · rw [same, stored, if_pos empty]
    exact lookup_remove key other
  · rw [same, stored, if_neg full]
    exact Table.lookup_insert_if _ _ _ _

@[simp] theorem path_set (key : String) (value : Bytes) : (kv.set key value).1.path = kv.path := by
  obtain same | ⟨-, same⟩ | ⟨-, same⟩ := @set_cases kv key value
  · rw [same]
  · rw [same, remove]
    split <;> rfl
  · rw [same]

@[simp] theorem lastFlushMs_set (key : String) (value : Bytes) :
    (kv.set key value).1.lastFlushMs = kv.lastFlushMs := by
  obtain same | ⟨-, same⟩ | ⟨-, same⟩ := @set_cases kv key value
  · rw [same]
  · rw [same, remove]
    split <;> rfl
  · rw [same]

/-- An accepted write, unless it deletes a key that is absent, is remembered until the next flush. -/
theorem dirty_set (key : String) (value : Bytes) :
    (kv.set key value).1.dirty =
      (kv.dirty || ((kv.set key value).2 && (!value.isEmpty || (kv.map.lookup key).isSome))) := by
  obtain same | ⟨empty, same⟩ | ⟨full, same⟩ := @set_cases kv key value
  · rw [same, Bool.false_and, Bool.or_false]
  · rw [same, remove, empty]
    split
    · rename_i old found
      simp [found]
    · rename_i absent
      simp [absent]
  · rw [same]
    simp [full]

/-! ## Runs of writes -/

/-- The store after a run of writes. -/
def setAll (kv : KvStore) (writes : List (String × Bytes)) : KvStore :=
  writes.foldl (fun kv write => (kv.set write.1 write.2).1) kv

theorem setAll_append (kv : KvStore) (writes more : List (String × Bytes)) :
    kv.setAll (writes ++ more) = (kv.setAll writes).setAll more :=
  List.foldl_append

/-- The writes of a run that the store accepts. -/
def accepted : KvStore → List (String × Bytes) → List (String × Bytes)
  | _, [] => []
  | kv, write :: writes =>
    if (kv.set write.1 write.2).2 then write :: accepted (kv.set write.1 write.2).1 writes
    else accepted kv writes

/-- The last value that a run of writes has for a key. -/
def lastWrite (writes : List (String × Bytes)) (key : String) : Option Bytes :=
  ((writes.filter fun write => write.1 == key).getLast?).map Prod.snd

/-- Whatever a run of writes does to a key, it leaves it with the value it had. -/
def Restores (kv : KvStore) (writes : List (String × Bytes)) : Prop :=
  ∀ key value, lastWrite (kv.accepted writes) key = some value → stored value = kv.map.lookup key

theorem lastWrite_cons (write : String × Bytes) (writes : List (String × Bytes)) (key : String) :
    lastWrite (write :: writes) key = (lastWrite writes key).or (if key = write.1 then some write.2 else none) := by
  rw [lastWrite, lastWrite, List.filter_cons]
  by_cases same : key = write.1
  · rw [if_pos same, if_pos (beq_iff_eq.mpr same.symm), List.getLast?_cons]
    cases (writes.filter fun write => write.1 == key).getLast? <;> rfl
  · rw [if_neg same, if_neg fun equal => same (beq_iff_eq.mp equal).symm, Option.or_none]

/-- After a run a key holds what the last accepted write to it left, or else what it held. -/
theorem lookup_setAll (writes : List (String × Bytes)) (kv : KvStore) (key : String) :
    (kv.setAll writes).map.lookup key =
      ((lastWrite (kv.accepted writes) key).map stored).getD (kv.map.lookup key) := by
  induction writes generalizing kv with
  | nil => rfl
  | cons write writes ih =>
    rw [setAll, List.foldl_cons, ← setAll, accepted]
    cases taken : (kv.set write.1 write.2).2 with
    | false => rw [if_neg Bool.false_ne_true, set_refused taken, ih]
    | true =>
      rw [if_pos rfl, ih, lastWrite_cons, lookup_set taken]
      cases lastWrite ((kv.set write.1 write.2).1.accepted writes) key with
      | some value => rfl
      | none =>
        rw [Option.none_or]
        by_cases same : key = write.1
        · rw [if_pos same, if_pos same]
          rfl
        · rw [if_neg same, if_neg same, Option.map_none, Option.getD_none]

/-- A run leaves the store as it was exactly when it restores every key. -/
theorem setAll_same_iff {writes : List (String × Bytes)} :
    (∀ key, (kv.setAll writes).map.lookup key = kv.map.lookup key) ↔ kv.Restores writes := by
  constructor
  · intro same key value last
    rw [← same key, lookup_setAll, last]
    rfl
  · intro restores key
    rw [lookup_setAll]
    cases last : lastWrite (kv.accepted writes) key with
    | none => rfl
    | some value => exact restores key value last

theorem Sound.setAll (sound : kv.Sound) (writes : List (String × Bytes)) : (kv.setAll writes).Sound := by
  induction writes generalizing kv with
  | nil => exact sound
  | cons write writes ih => exact ih (sound.set write.1 write.2)

/-- Stores that hold the same count the same. -/
theorem Sound.total_congr {other : KvStore} (sound : kv.Sound) (sound' : other.Sound)
    (same : ∀ key, other.map.lookup key = kv.map.lookup key) : other.total = kv.total := by
  rw [sound.total, sound'.total, Table.weight_congr same]

end KvStore

end Ferrixd
