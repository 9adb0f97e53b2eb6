import Mathlib.Data.List.AList

/-! # Finite tables

Hash maps as association lists without duplicate keys.  A lookup does not see the
order of the entries; an iteration visits them in list order, so a statement about
every table covers every order in which a hash map may be walked. -/

namespace Ferrixd

universe u v w

/-- A finite map from `κ` to `ν`. -/
abbrev Table (κ : Type u) (ν : Type v) := AList (fun _ : κ => ν)

namespace Table

variable {κ : Type u} {ν : Type v} {μ : Type w}

/-- The stored values, in iteration order. -/
def values (table : Table κ ν) : List ν :=
  table.entries.map fun entry => entry.2

/-- Keep the entries on which `keep` holds. -/
def retain (keep : κ → ν → Bool) (table : Table κ ν) : Table κ ν :=
  ⟨table.entries.filter fun entry => keep entry.1 entry.2,
    table.nodupKeys.sublist List.filter_sublist⟩

/-- Rewrite every value in place. -/
def mapVal (change : κ → ν → μ) (table : Table κ ν) : Table κ μ :=
  ⟨table.entries.map fun entry => ⟨entry.1, change entry.1 entry.2⟩, by
    have nodup := table.nodupKeys
    rw [List.NodupKeys, List.keys] at nodup ⊢
    simpa [List.map_map, Function.comp_def] using nodup⟩

/-- The first value, in iteration order, on which `test` holds. -/
def findVal? (test : ν → Bool) (table : Table κ ν) : Option ν :=
  table.values.find? test

@[simp] theorem keys_mapVal (change : κ → ν → μ) (table : Table κ ν) :
    (table.mapVal change).keys = table.keys := by
  simp [mapVal, AList.keys, List.keys, Function.comp_def]

section Lookup

variable [DecidableEq κ]

/-- Rewrite the value at `key`, if there is one. -/
def modify (key : κ) (change : ν → ν) (table : Table κ ν) : Table κ ν :=
  table.mapVal fun other value => if other = key then change value else value

theorem lookup_insert_if (key other : κ) (value : ν) (table : Table κ ν) :
    (table.insert key value).lookup other = if other = key then some value else table.lookup other := by
  by_cases same : other = key
  · subst same
    simp
  · simp [same, AList.lookup_insert_ne]

theorem lookup_erase_if (key other : κ) (table : Table κ ν) :
    (table.erase key).lookup other = if other = key then none else table.lookup other := by
  by_cases same : other = key
  · subst same
    simp
  · simp [same, AList.lookup_erase_ne]

/-- A value that moves leaves nothing where it was. -/
theorem lookup_moved_old {old new : κ} (apart : new ≠ old) (value : ν) (table : Table κ ν) :
    ((table.erase old).insert new value).lookup old = none := by
  rw [AList.lookup_insert_ne apart.symm, AList.lookup_erase]

theorem lookup_moved_other {old new other : κ} (notNew : other ≠ new) (notOld : other ≠ old) (value : ν)
    (table : Table κ ν) : ((table.erase old).insert new value).lookup other = table.lookup other := by
  rw [AList.lookup_insert_ne notNew, AList.lookup_erase_ne notOld]

theorem mem_entries_iff {key : κ} {value : ν} {table : Table κ ν} :
    ⟨key, value⟩ ∈ table.entries ↔ table.lookup key = some value := by
  rw [← Option.mem_def, AList.mem_lookup_iff]

theorem mem_values_iff {value : ν} {table : Table κ ν} :
    value ∈ table.values ↔ ∃ key, table.lookup key = some value := by
  simp only [values, List.mem_map, ← mem_entries_iff]
  constructor
  · rintro ⟨⟨key, stored⟩, found, rfl⟩
    exact ⟨key, found⟩
  · rintro ⟨key, found⟩
    exact ⟨⟨key, value⟩, found, rfl⟩

@[simp] theorem lookup_retain (keep : κ → ν → Bool) (table : Table κ ν) (key : κ) :
    (table.retain keep).lookup key = (table.lookup key).filter (keep key) := by
  apply Option.ext
  intro value
  rw [← mem_entries_iff, retain, List.mem_filter, mem_entries_iff, Option.filter_eq_some_iff]

@[simp] theorem lookup_mapVal (change : κ → ν → μ) (table : Table κ ν) (key : κ) :
    (table.mapVal change).lookup key = (table.lookup key).map (change key) := by
  apply Option.ext
  intro value
  rw [← mem_entries_iff, mapVal, List.mem_map, Option.map_eq_some_iff]
  constructor
  · rintro ⟨⟨other, stored⟩, found, same⟩
    cases same
    exact ⟨stored, mem_entries_iff.mp found, rfl⟩
  · rintro ⟨stored, found, rfl⟩
    exact ⟨⟨key, stored⟩, mem_entries_iff.mpr found, rfl⟩

theorem lookup_modify (key other : κ) (change : ν → ν) (table : Table κ ν) :
    (table.modify key change).lookup other =
      if other = key then (table.lookup other).map change else table.lookup other := by
  rw [modify, lookup_mapVal]
  split <;> simp

@[simp] theorem keys_modify (key : κ) (change : ν → ν) (table : Table κ ν) :
    (table.modify key change).keys = table.keys :=
  keys_mapVal _ _

theorem mem_modify {key other : κ} {change : ν → ν} {table : Table κ ν} :
    other ∈ table.modify key change ↔ other ∈ table := by
  rw [AList.mem_keys, keys_modify, AList.mem_keys]

/-- Rewriting a value to itself changes nothing. -/
theorem modify_eq_self {key : κ} {change : ν → ν} {table : Table κ ν}
    (fixed : ∀ value, table.lookup key = some value → change value = value) :
    table.modify key change = table := by
  apply AList.ext
  rw [modify, mapVal]
  refine (List.map_congr_left fun entry member => ?_).trans (List.map_id _)
  obtain ⟨other, value⟩ := entry
  by_cases same : other = key
  · subst same
    simp [fixed value (mem_entries_iff.mp member)]
  · simp [same]

theorem modify_of_notMem {key : κ} {change : ν → ν} {table : Table κ ν} (absent : key ∉ table) :
    table.modify key change = table := by
  refine modify_eq_self fun value found => ?_
  rw [AList.lookup_eq_none.mpr absent] at found
  cases found

theorem modify_modify (key : κ) (first second : ν → ν) (table : Table κ ν) :
    (table.modify key first).modify key second = table.modify key fun value => second (first value) := by
  apply AList.ext
  simp only [modify, mapVal, List.map_map]
  refine List.map_congr_left fun entry _ => ?_
  by_cases same : entry.1 = key <;> simp [same]

theorem modify_insert (key : κ) (value : ν) (change : ν → ν) (table : Table κ ν) :
    Table.modify key change (table.insert key value) = table.insert key (change value) := by
  apply AList.ext
  simp only [modify, mapVal, AList.entries_insert, List.map_cons, if_true]
  refine congrArg _ ((List.map_congr_left fun entry member => ?_).trans (List.map_id _))
  have other : ¬ entry.1 = key := by
    intro same
    have kept := List.mem_keys_of_mem member
    rw [same] at kept
    exact List.notMem_keys_kerase key table.nodupKeys kept
  simp [other]

theorem modify_congr {key : κ} {first second : ν → ν} {table : Table κ ν}
    (agree : ∀ value, table.lookup key = some value → first value = second value) :
    table.modify key first = table.modify key second := by
  apply AList.ext
  simp only [modify, mapVal]
  refine List.map_congr_left fun entry member => ?_
  obtain ⟨other, value⟩ := entry
  by_cases same : other = key
  · subst same
    simp [agree value (mem_entries_iff.mp member)]
  · simp [same]

theorem erase_of_notMem {key : κ} {table : Table κ ν} (absent : key ∉ table) :
    table.erase key = table :=
  AList.ext (List.kerase_of_notMem_keys absent)

theorem erase_erase_self (key : κ) (table : Table κ ν) :
    (table.erase key).erase key = table.erase key := by
  refine erase_of_notMem fun member => ?_
  exact (AList.mem_erase.mp member).1 rfl

theorem insert_erase_self (key : κ) (value : ν) (table : Table κ ν) :
    (table.erase key).insert key value = table.insert key value := by
  apply AList.ext
  rw [AList.entries_insert, AList.entries_insert]
  exact congrArg _ (congrArg AList.entries (erase_erase_self key table))

/-- Writing the entries of a table into another one. -/
theorem lookup_foldl_insert (table base : Table κ ν) (key : κ) :
    (table.entries.foldl (fun table entry => table.insert entry.1 entry.2) base).lookup key =
      (table.lookup key).or (base.lookup key) := by
  obtain ⟨entries, nodup⟩ := table
  show (entries.foldl (fun table entry => table.insert entry.1 entry.2) base).lookup key =
    (entries.dlookup key).or (base.lookup key)
  induction entries generalizing base with
  | nil => rfl
  | cons entry entries ih =>
    obtain ⟨first, rest⟩ := List.nodupKeys_cons.mp nodup
    rw [List.foldl_cons, ih _ rest, lookup_insert_if]
    by_cases here : key = entry.1
    · subst here
      rw [if_pos rfl, List.dlookup_eq_none.mpr first, List.dlookup_cons_eq]
      rfl
    · rw [if_neg here, List.dlookup_cons_ne _ _ here]

theorem findVal?_some {test : ν → Bool} {table : Table κ ν} {value : ν}
    (found : table.findVal? test = some value) :
    test value = true ∧ ∃ key, table.lookup key = some value :=
  ⟨List.find?_some found, mem_values_iff.mp (List.mem_of_find?_eq_some found)⟩

theorem findVal?_none {test : ν → Bool} {table : Table κ ν} :
    table.findVal? test = none ↔ ∀ key value, table.lookup key = some value → test value = false := by
  rw [findVal?, List.find?_eq_none]
  constructor
  · intro absent key value found
    simpa using absent value (mem_values_iff.mpr ⟨key, found⟩)
  · intro absent value member
    obtain ⟨key, found⟩ := mem_values_iff.mp member
    simpa using absent key value found

theorem isEmpty_iff {table : Table κ ν} :
    table.entries.isEmpty = true ↔ ∀ key, table.lookup key = none := by
  rw [List.isEmpty_iff]
  constructor
  · intro empty key
    rw [AList.lookup, empty, List.dlookup_nil]
  · intro absent
    refine List.eq_nil_iff_forall_not_mem.mpr fun entry member => ?_
    have found : table.lookup entry.1 = some entry.2 := mem_entries_iff.mp member
    rw [absent] at found
    cases found

end Lookup

end Table

end Ferrixd
