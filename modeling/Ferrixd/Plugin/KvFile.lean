import Ferrixd.Data.Base64
import Ferrixd.Plugin.KvStore

/-! # The file of a key-value store

The store never outgrows its bounds, so its file can be read back in whatever order it was written. -/

namespace Ferrixd

/-- A line that `\n` ends; a `\r` before it goes too. -/
def endedLine : List Char → String
  | '\r' :: line => String.ofList line.reverse
  | line => String.ofList line.reverse

/-- The lines of a text, after those characters of the current one, which are kept in reverse. -/
def linesFrom (line : List Char) : List Char → List String
  | [] => if line = [] then [] else [String.ofList line.reverse]
  | c :: rest => if c = '\n' then endedLine line :: linesFrom [] rest else linesFrom (c :: line) rest

def lines (text : String) : List String :=
  linesFrom [] text.toList

namespace KvStore

/-- A store that nothing has been written to. -/
def fresh (path : Option String) : KvStore where
  map := ∅
  total := 0
  path := path
  dirty := false
  lastFlushMs := 0

section File

variable (encode : Bytes → String) (decode : String → Option Bytes)

/-- The line of an entry, without its end. -/
def entryLine (entry : String × Bytes) : String :=
  encode (utf8 entry.1) ++ " " ++ encode entry.2

/-- What a flush writes when it walks the map in this order. -/
def flushText (order : List (String × Bytes)) : String :=
  String.join (order.map fun entry => entryLine encode entry ++ "\n")

def loadLine (kv : KvStore) (line : String) : KvStore :=
  match splitOnce line ' ' with
  | none => kv
  | some (k64, v64) =>
    match decode k64, decode v64 with
    | some key, some value => (fromUtf8? key).elim kv fun key => (kv.set key value).1
    | _, _ => kv

/-- Read the file, if there is one that can be read.  What violates the bounds is skipped. -/
def load (kv : KvStore) (contents : Option String) : KvStore :=
  if kv.path = none then kv
  else contents.elim kv fun contents => { (lines contents).foldl (loadLine decode) kv with dirty := false }

end File

/-! ## Bounds -/

variable {kv : KvStore}

/-- The entries of a map. -/
def entries (kv : KvStore) : List (String × Bytes) :=
  kv.map.entries.map fun entry => (entry.1, entry.2)

/-- A key and a value that can be stored. -/
structure Storable (key : String) (value : Bytes) : Prop where
  named : key ≠ ""
  short : key.utf8ByteSize ≤ maxKvKeyBytes
  full : value ≠ []
  small : value.length ≤ maxKvValueBytes

/-- The store is sound and within its bounds. -/
structure Bounded (kv : KvStore) : Prop where
  sound : kv.Sound
  total : kv.total ≤ maxKvTotalBytes
  count : kv.map.keys.length ≤ maxKvKeys
  storable : ∀ key value, kv.map.lookup key = some value → Storable key value

theorem Sound.oldLen_eq_zero (sound : kv.Sound) (key : String) : kv.oldLen key = 0 ↔ kv.map.lookup key = none := by
  rw [oldLen]
  cases found : kv.map.lookup key with
  | none => simp
  | some old =>
    simp only [Option.map_some, Option.getD_some, reduceCtorEq, iff_false, List.length_eq_zero_iff]
    exact sound.nonempty key old found

/-- What a write that stores has been checked for. -/
theorem set_stored {key : String} {value : Bytes} (full : value ≠ []) (accepted : (kv.set key value).2 = true) :
    Storable key value ∧ kv.newTotal key value ≤ maxKvTotalBytes ∧
      (kv.oldLen key = 0 → kv.map.keys.length < maxKvKeys) := by
  rw [set] at accepted
  split at accepted
  · cases accepted
  rename_i valid
  split at accepted
  · cases accepted
  rename_i fits
  split at accepted
  · cases accepted
  rename_i room
  rw [not_or, not_or] at valid
  exact ⟨⟨valid.1, Nat.le_of_not_lt valid.2.1, full, Nat.le_of_not_lt valid.2.2⟩, Nat.le_of_not_lt fits,
    fun absent => Nat.lt_of_not_le fun crowded => room ⟨absent, crowded⟩⟩

theorem Bounded.remove (bounded : kv.Bounded) (key : String) : (kv.remove key).Bounded := by
  refine ⟨bounded.sound.remove key, ?_, ?_, ?_⟩
  · rw [KvStore.remove]
    split
    · exact (Nat.sub_le _ _).trans bounded.total
    · exact bounded.total
  · rw [KvStore.remove]
    split
    · exact (Table.length_keys_erase _ key).trans bounded.count
    · exact bounded.count
  · intro other value found
    rw [lookup_remove] at found
    split at found
    · cases found
    · exact bounded.storable other value found

theorem Bounded.set (bounded : kv.Bounded) (key : String) (value : Bytes) : (kv.set key value).1.Bounded := by
  obtain refused | ⟨-, deleted⟩ | ⟨full, stored⟩ := @set_cases kv key value
  · rw [refused]
    exact bounded
  · rw [deleted]
    exact bounded.remove key
  · -- what is stored has passed the checks of `set`
    obtain ⟨storable, fits, room⟩ := set_stored full (congrArg Prod.snd stored)
    refine ⟨bounded.sound.set key value, ?_, ?_, ?_⟩
    · rw [stored]
      exact fits
    · rw [stored]
      change (AList.insert key value kv.map).keys.length ≤ maxKvKeys
      rw [Table.length_keys_insert]
      have count := bounded.count
      split
      · rename_i absent
        exact room ((bounded.sound.oldLen_eq_zero key).mpr absent)
      · exact count
    · intro other present found
      rw [stored] at found
      rw [Table.lookup_insert_if] at found
      split at found
      · rename_i same
        cases found
        rw [same]
        exact storable
      · exact bounded.storable other present found

theorem Bounded.setAll (bounded : kv.Bounded) (writes : List (String × Bytes)) : (kv.setAll writes).Bounded := by
  induction writes generalizing kv with
  | nil => exact bounded
  | cons write writes ih => exact ih (bounded.set write.1 write.2)

theorem bounded_fresh (path : Option String) : (fresh path).Bounded where
  sound := ⟨rfl, nofun⟩
  total := Nat.zero_le _
  count := Nat.zero_le _
  storable := nofun

/-! ## Entries put into another store -/

/-- What would exceed no bound is stored. -/
theorem set_fits {key : String} {value : Bytes} (sound : kv.Sound) (storable : Storable key value)
    (absent : kv.map.lookup key = none) (fits : kv.total + entryBytes key value ≤ maxKvTotalBytes)
    (room : kv.map.keys.length < maxKvKeys) :
    kv.set key value = ({ kv with
      map := kv.map.insert key value, total := kv.total + entryBytes key value, dirty := true }, true) := by
  have unset := (sound.oldLen_eq_zero key).mpr absent
  have total : kv.newTotal key value = kv.total + entryBytes key value := by
    rw [newTotal, unset, if_pos rfl, entryBytes]
    omega
  have valid : ¬ (key = "" ∨ maxKvKeyBytes < key.utf8ByteSize ∨ maxKvValueBytes < value.length) := by
    rw [not_or, not_or]
    exact ⟨storable.named, Nat.not_lt_of_le storable.short, Nat.not_lt_of_le storable.small⟩
  rw [set, if_neg valid, if_neg storable.full, total, if_neg (Nat.not_lt_of_le fits),
    if_neg fun crowded => Nat.not_lt_of_le crowded.2 room]

/-- Entries that fit together are all stored, whatever their order. -/
theorem setAll_fits {order : List (String × Bytes)} (sound : kv.Sound) (distinct : (order.map Prod.fst).Nodup)
    (storable : ∀ entry ∈ order, Storable entry.1 entry.2)
    (absent : ∀ entry ∈ order, kv.map.lookup entry.1 = none)
    (fits : kv.total + (order.map fun entry => entryBytes entry.1 entry.2).sum ≤ maxKvTotalBytes)
    (room : kv.map.keys.length + order.length ≤ maxKvKeys) :
    (∀ entry ∈ order, (kv.setAll order).map.lookup entry.1 = some entry.2) ∧
      ∀ key, key ∉ order.map Prod.fst → (kv.setAll order).map.lookup key = kv.map.lookup key := by
  induction order generalizing kv with
  | nil => exact ⟨nofun, fun _ _ => rfl⟩
  | cons entry rest ih =>
    obtain ⟨key, value⟩ := entry
    simp only [List.map_cons, List.sum_cons] at fits
    rw [List.map_cons, List.nodup_cons] at distinct
    rw [List.length_cons] at room
    have unset : kv.map.lookup key = none := absent _ List.mem_cons_self
    -- each entry finds room, as the sums over all of them do
    have allowed : Storable key value := storable _ List.mem_cons_self
    have taken := set_fits sound allowed unset (by omega) (by omega)
    have held := lookup_set (congrArg Prod.snd taken)
    have total : (kv.set key value).1.total = kv.total + entryBytes key value := by rw [taken]
    have count : (kv.set key value).1.map.keys.length = kv.map.keys.length + 1 := by
      rw [taken]
      change (AList.insert key value kv.map).keys.length = _
      rw [Table.length_keys_insert, if_pos unset]
    have others : ∀ entry ∈ rest, (kv.set key value).1.map.lookup entry.1 = none := by
      intro other member
      rw [held, if_neg fun same : other.1 = key => distinct.1 (List.mem_map.mpr ⟨other, member, same⟩)]
      exact absent other (List.mem_cons_of_mem _ member)
    obtain ⟨stored, kept⟩ := ih (sound.set key value) distinct.2
      (fun other member => storable other (List.mem_cons_of_mem _ member)) others
      (by rw [total, Nat.add_assoc]; exact fits) (by omega)
    refine ⟨fun other member => ?_, fun other missing => ?_⟩
    · rcases List.mem_cons.mp member with rfl | member
      · rw [setAll, List.foldl_cons, ← setAll, kept key distinct.1, held, if_pos rfl, KvStore.stored,
          if_neg allowed.full]
      · exact stored other member
    · rw [List.map_cons, List.mem_cons, not_or] at missing
      rw [setAll, List.foldl_cons, ← setAll, kept other missing.2, held, if_neg missing.1]

/-! ## Writing and reading back -/

theorem linesFrom_line {text : List Char} (clean : ∀ c ∈ text, c ≠ '\n') (line rest : List Char) :
    linesFrom line (text ++ '\n' :: rest) = endedLine (text.reverse ++ line) :: linesFrom [] rest := by
  induction text generalizing line with
  | nil => rw [List.nil_append, linesFrom, if_pos rfl, List.reverse_nil, List.nil_append]
  | cons c text ih =>
    rw [List.cons_append, linesFrom, if_neg (clean c List.mem_cons_self),
      ih fun other member => clean other (List.mem_cons_of_mem _ member), List.reverse_cons, List.append_assoc]
    rfl

theorem endedLine_of_clean {text : List Char} (clean : ∀ c ∈ text, c ≠ '\r') :
    endedLine text.reverse = String.ofList text := by
  rw [endedLine]
  · rw [List.reverse_reverse]
  · intro line ends
    refine clean '\r' ?_ rfl
    rw [← List.mem_reverse, ends]
    exact List.mem_cons_self

variable {encode : Bytes → String} {decode : String → Option Bytes}

theorem entryLine_clean (engine : Base64.Standard encode decode) (entry : String × Bytes) :
    ∀ c ∈ (entryLine encode entry).toList, c ≠ '\n' ∧ c ≠ '\r' := by
  intro c member
  have written (data : Bytes) (digit : c ∈ (encode data).toList) : c ≠ '\n' ∧ c ≠ '\r' := by
    constructor <;> rintro rfl
    · exact engine.notMem (by decide) (by decide) data digit
    · exact engine.notMem (by decide) (by decide) data digit
  rw [entryLine, String.toList_append, String.toList_append, List.mem_append, List.mem_append] at member
  rcases member with (key | space) | value
  · exact written _ key
  · rw [List.mem_singleton.mp space]
    decide
  · exact written _ value

/-- Every entry is a line of its own. -/
theorem lines_flushText (engine : Base64.Standard encode decode) (order : List (String × Bytes)) :
    lines (flushText encode order) = order.map (entryLine encode) := by
  induction order with
  | nil => rfl
  | cons entry rest ih =>
    have clean := entryLine_clean engine entry
    have chars : (flushText encode (entry :: rest)).toList =
        (entryLine encode entry).toList ++ '\n' :: (flushText encode rest).toList := by
      rw [flushText, List.map_cons, String.join_cons, ← flushText, String.toList_append, String.toList_append,
        List.append_assoc]
      rfl
    rw [lines, chars, linesFrom_line fun c member => (clean c member).1, ← lines, ih, List.append_nil,
      endedLine_of_clean fun c member => (clean c member).2, String.ofList_toList, List.map_cons]

theorem loadLine_entryLine (engine : Base64.Standard encode decode) (kv : KvStore) (entry : String × Bytes) :
    kv.loadLine decode (entryLine encode entry) = (kv.set entry.1 entry.2).1 := by
  have parts : splitOnce (entryLine encode entry) ' ' = some (encode (utf8 entry.1), encode entry.2) :=
    splitOnce_at (engine.notMem (by decide) (by decide) _)
  simp only [loadLine, parts, engine.roundTrip, fromUtf8?_utf8, Option.elim_some]

/-- What a flush wrote is put in again, in the order it was written. -/
theorem load_flushText (engine : Base64.Standard encode decode) (path : String) (order : List (String × Bytes)) :
    (fresh (some path)).load decode (some (flushText encode order)) =
      { (fresh (some path)).setAll order with dirty := false } := by
  rw [load, if_neg (show (fresh (some path)).path ≠ none from Option.some_ne_none path), Option.elim_some,
    lines_flushText engine, List.foldl_map, setAll]
  simp only [loadLine_entryLine engine]

/-- A store within its bounds is the same after it has been written, in any order, and read back. -/
theorem Bounded.reloaded (bounded : kv.Bounded) (engine : Base64.Standard encode decode) (path : String)
    {order : List (String × Bytes)} (listed : order.Perm kv.entries) (key : String) :
    ((fresh (some path)).load decode (some (flushText encode order))).map.lookup key = kv.map.lookup key := by
  have member (entry : String × Bytes) : entry ∈ order ↔ kv.map.lookup entry.1 = some entry.2 := by
    rw [listed.mem_iff, entries, List.mem_map, ← Table.mem_entries_iff]
    constructor
    · rintro ⟨stored, inMap, rfl⟩
      exact inMap
    · exact fun inMap => ⟨⟨entry.1, entry.2⟩, inMap, rfl⟩
  have names : (order.map Prod.fst).Perm kv.map.keys := by
    refine (listed.map Prod.fst).trans (List.Perm.of_eq ?_)
    rw [entries, List.map_map]
    rfl
  have total : (order.map fun entry => entryBytes entry.1 entry.2).sum = kv.total := by
    rw [((listed.map fun entry => entryBytes entry.1 entry.2).sum_nat), bounded.sound.total, entries, List.map_map,
      Table.weight]
    rfl
  have count : order.length = kv.map.keys.length := by
    rw [← names.length_eq, List.length_map]
  rw [load_flushText engine]
  -- whatever the order of the lines, no entry is refused
  obtain ⟨stored, absent⟩ := setAll_fits (bounded_fresh (some path)).sound
    (names.nodup_iff.mpr kv.map.nodupKeys)
    (fun entry inOrder => bounded.storable _ _ ((member entry).mp inOrder)) (fun _ _ => rfl)
    (by rw [total]; exact (Nat.zero_add _).trans_le bounded.total)
    (by rw [count]; exact (Nat.zero_add _).trans_le bounded.count)
  cases found : kv.map.lookup key with
  | some value => exact stored (key, value) ((member (key, value)).mpr found)
  | none =>
    refine absent key fun inOrder => ?_
    exact AList.lookup_eq_none.mp found (names.mem_iff.mp inOrder)

/-- Whatever is written to an empty store, the store keeps to its bounds and its count, a write that is refused
changes nothing, and the store can be read back from its file. -/
theorem written_bounded_reloaded (engine : Base64.Standard encode decode) (path : Option String)
    (writes : List (String × Bytes)) :
    let kv := (fresh path).setAll writes
    kv.total = (kv.entries.map fun entry => entry.1.utf8ByteSize + entry.2.length).sum ∧
      kv.total ≤ maxKvTotalBytes ∧ kv.map.keys.length ≤ maxKvKeys ∧
      (∀ key value, (kv.set key value).2 = false → (kv.set key value).1 = kv) ∧
      ∀ file, ∀ order, order.Perm kv.entries → ∀ key,
        ((fresh (some file)).load decode (some (flushText encode order))).map.lookup key = kv.map.lookup key := by
  have bounded := (bounded_fresh path).setAll writes
  refine ⟨?_, bounded.total, bounded.count, fun _ _ => set_refused, fun file _ listed => bounded.reloaded engine file listed⟩
  rw [bounded.sound.total, entries, List.map_map]
  rfl

theorem written_bounded_reloaded_twice :
    let kv := (fresh none).setAll [("greeting", [104, 105]), ("seen", [49])]
    kv.total = (kv.entries.map fun entry => entry.1.utf8ByteSize + entry.2.length).sum ∧
      kv.total ≤ maxKvTotalBytes ∧ kv.map.keys.length ≤ maxKvKeys ∧
      (∀ key value, (kv.set key value).2 = false → (kv.set key value).1 = kv) ∧
      ∀ file, ∀ order, order.Perm kv.entries → ∀ key,
        ((fresh (some file)).load Base64.decode (some (flushText Base64.encode order))).map.lookup key =
          kv.map.lookup key :=
  written_bounded_reloaded Base64.standard none [("greeting", [104, 105]), ("seen", [49])]

end KvStore

end Ferrixd
