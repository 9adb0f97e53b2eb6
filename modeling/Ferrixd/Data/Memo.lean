import Mathlib.Init

/-! # Results kept by key

A function is evaluated once for each key.  Where it depends on its argument only through the key, what is kept is
what it would give. -/

namespace Ferrixd.Memo

universe u v w

variable {α : Type u} {κ : Type v} {β : Type w} [DecidableEq κ] (key : α → κ) (f : α → β)

/-- The result for an argument, which is kept if it is new. -/
def consult (cache : List (κ × β)) (a : α) : β × List (κ × β) :=
  match cache.find? fun entry => decide (entry.1 = key a) with
  | some entry => (entry.2, cache)
  | none => (f a, cache ++ [(key a, f a)])

/-- Every result that is kept is one of the function. -/
def Faithful (cache : List (κ × β)) : Prop :=
  ∀ entry ∈ cache, ∃ a, entry = (key a, f a)

variable {key f}

theorem Faithful.consult {cache : List (κ × β)} (faithful : Faithful key f cache) (a : α) :
    Faithful key f (consult key f cache a).2 := by
  rw [Memo.consult]
  split
  · exact faithful
  · intro entry member
    rcases List.mem_append.mp member with kept | new
    · exact faithful entry kept
    · exact ⟨a, List.mem_singleton.mp new⟩

/-- What is found is what the function gives. -/
theorem Faithful.consult_eq {cache : List (κ × β)} (faithful : Faithful key f cache)
    (factors : ∀ a b, key a = key b → f a = f b) (a : α) : (Memo.consult key f cache a).1 = f a := by
  rw [Memo.consult]
  split
  · rename_i entry found
    obtain ⟨b, rfl⟩ := faithful entry (List.mem_of_find?_eq_some found)
    have same := List.find?_some found
    exact factors b a (of_decide_eq_true same)
  · rfl

end Ferrixd.Memo
