import Ferrixd.Data.Table
import Mathlib.Algebra.GroupWithZero.Nat

/-! # The weight of a table

What the entries of a table weigh together, where each weighs something of its own.  The weight depends on what
the table holds and not on the order it is walked in. -/

namespace Ferrixd.Table

universe u v

variable {κ : Type u} {ν : Type v} [DecidableEq κ] (measure : κ → ν → Nat)

/-- The sum over all entries. -/
def weight (table : Table κ ν) : Nat :=
  (table.entries.map fun entry => measure entry.1 entry.2).sum

variable {measure}

theorem perm_of_lookup {first second : Table κ ν} (same : ∀ key, first.lookup key = second.lookup key) :
    first.entries.Perm second.entries := by
  apply List.lookup_ext first.nodupKeys second.nodupKeys
  intro key value
  exact Eq.to_iff (congrArg (value ∈ ·) (same key))

theorem weight_congr {first second : Table κ ν} (same : ∀ key, first.lookup key = second.lookup key) :
    first.weight measure = second.weight measure :=
  ((perm_of_lookup same).map _).sum_nat

theorem weight_insert_of_notMem {key : κ} (value : ν) {table : Table κ ν} (absent : key ∉ table) :
    Table.weight measure (table.insert key value) = measure key value + table.weight measure := by
  rw [weight, AList.entries_insert, List.kerase_of_notMem_keys absent, List.map_cons, List.sum_cons]
  rfl

/-- A table that holds a value weighs what it weighs without it, and the weight of the value. -/
theorem weight_held {key : κ} {value : ν} {first second : Table κ ν}
    (held : ∀ other, second.lookup other = if other = key then some value else first.lookup other) :
    second.weight measure = measure key value + Table.weight measure (first.erase key) := by
  have apart : key ∉ first.erase key := by
    rw [AList.mem_erase]
    exact fun member => member.1 rfl
  rw [← weight_insert_of_notMem value apart]
  apply weight_congr
  intro other
  rw [held, lookup_insert_if, lookup_erase_if]
  split <;> rfl

/-- An entry taken out takes its own weight with it. -/
theorem weight_erase {key : κ} {value : ν} {table : Table κ ν} (found : table.lookup key = some value) :
    table.weight measure = measure key value + Table.weight measure (table.erase key) := by
  refine weight_held fun other => ?_
  split
  · rename_i same
    rw [same, found]
  · rfl

/-- Putting a value in adds its weight and takes that of the value it replaces. -/
theorem weight_insert (key : κ) (value : ν) (table : Table κ ν) :
    Table.weight measure (table.insert key value) =
      measure key value + Table.weight measure (table.erase key) :=
  weight_held fun other => lookup_insert_if key other value table

theorem weight_erase_of_notMem {key : κ} {table : Table κ ν} (absent : key ∉ table) :
    Table.weight measure (table.erase key) = table.weight measure := by
  rw [Table.erase_of_notMem absent]

/-! ## How many keys there are -/

omit [DecidableEq κ] in
theorem length_keys (table : Table κ ν) : table.keys.length = table.weight fun _ _ => 1 := by
  rw [weight, List.map_const', List.sum_replicate_nat, Nat.mul_one]
  exact List.length_map _

theorem length_keys_insert (table : Table κ ν) (key : κ) (value : ν) :
    (AList.insert key value table).keys.length =
      table.keys.length + if table.lookup key = none then 1 else 0 := by
  rw [length_keys, length_keys, weight_insert]
  cases found : table.lookup key with
  | none => rw [weight_erase_of_notMem (AList.lookup_eq_none.mp found), if_pos rfl, Nat.add_comm]
  | some old => rw [weight_erase found, if_neg (Option.some_ne_none old), Nat.add_zero]

theorem length_keys_erase (table : Table κ ν) (key : κ) : (AList.erase key table).keys.length ≤ table.keys.length := by
  rw [AList.keys_erase]
  exact List.length_erase_le

end Ferrixd.Table
