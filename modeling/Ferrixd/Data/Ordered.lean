import Mathlib.Data.List.Basic

/-! # Ordered lists

Lists that a test cuts in two, lists that begin like their own tails, and what a stable sort does to a part of a list. -/

namespace Ferrixd

/-! ## Partitioned lists -/

section Partition

variable {α : Type} {test : α → Bool} {items : List α}

/-- No item that fails a test stands before one that passes it. -/
def Partitioned (test : α → Bool) (items : List α) : Prop :=
  items.Pairwise fun earlier later => test later = true → test earlier = true

theorem Partitioned.takeWhile (partitioned : Partitioned test items) : items.takeWhile test = items.filter test := by
  induction items with
  | nil => rfl
  | cons item items ih =>
    obtain ⟨first, rest⟩ := List.pairwise_cons.mp partitioned
    cases passes : test item with
    | true => rw [List.takeWhile_cons_of_pos passes, List.filter_cons_of_pos passes, ih rest]
    | false =>
      have fails : ¬ test item = true := by rw [passes]; exact Bool.false_ne_true
      rw [List.takeWhile_cons_of_neg fails, List.filter_cons_of_neg fails, eq_comm, List.filter_eq_nil_iff]
      intro other member later
      exact fails (first other member later)

/-- The items that pass are followed by the ones that fail. -/
theorem Partitioned.append (partitioned : Partitioned test items) :
    items.filter test ++ items.filter (fun item => !test item) = items := by
  induction items with
  | nil => rfl
  | cons item items ih =>
    obtain ⟨first, rest⟩ := List.pairwise_cons.mp partitioned
    cases passes : test item with
    | true =>
      have passesNot : ¬ (!test item) = true := by rw [passes]; exact Bool.false_ne_true
      rw [List.filter_cons_of_pos passes, List.filter_cons_of_neg (p := fun item => !test item) passesNot,
        List.cons_append, ih rest]
    | false =>
      have fails : ¬ test item = true := by rw [passes]; exact Bool.false_ne_true
      have none : (item :: items).filter test = [] := by
        rw [← partitioned.takeWhile, List.takeWhile_cons_of_neg fails]
      have all : (item :: items).filter (fun item => !test item) = item :: items := by
        rw [List.filter_eq_self]
        intro other member
        rw [Bool.not_eq_true', ← Bool.not_eq_true]
        exact List.filter_eq_nil_iff.mp none other member
      rw [none, all, List.nil_append]

end Partition

/-! ## Copies -/

theorem take_shorter {α : Type} {items : List α} {n : Nat} {copy : α} (copies : items.take (n + 1) = List.replicate (n + 1) copy) :
    items.take n = List.replicate n copy := by
  have shorter := congrArg (List.take n) copies
  rwa [List.take_take, Nat.min_eq_left (Nat.le_succ n), List.take_replicate, Nat.min_eq_left (Nat.le_succ n)] at shorter

/-- A list begins like its own tail only with copies of one item. -/
theorem take_tail_iff {α : Type} (item : α) (items : List α) (limit : Nat) :
    items.take (limit + 1) = (item :: items).take (limit + 1) ↔
      ∃ copy, (item :: items).take (limit + 2) = List.replicate (limit + 2) copy := by
  constructor
  · intro same
    induction limit generalizing item items with
    | zero =>
      rw [List.take_succ_cons, List.take_zero] at same
      -- a list equal to its own tail repeats its first element
      cases items with
      | nil => cases same
      | cons next items =>
        obtain ⟨rfl, -⟩ := List.cons.inj same
        exact ⟨next, rfl⟩
    | succ limit ih =>
      cases items with
      | nil => cases same
      | cons next items =>
        rw [List.take_succ_cons, List.take_succ_cons] at same
        obtain ⟨rfl, begins⟩ := List.cons.inj same
        obtain ⟨copy, copies⟩ := ih next items begins
        have first : next = copy := by
          rw [List.take_succ_cons, List.replicate_succ] at copies
          exact (List.cons.inj copies).1
        exact ⟨copy, by rw [List.take_succ_cons, copies, first]; rfl⟩
  · rintro ⟨copy, copies⟩
    rw [take_shorter copies]
    rw [List.take_succ_cons, List.replicate_succ] at copies
    exact (List.cons.inj copies).2

/-! ## Stable sorting -/

/-- A list is cut in two by a test in one way only. -/
theorem append_eq_of_test {α : Type} {test : α → Bool} {front back front' back' : List α}
    (same : front ++ back = front' ++ back') (pass : ∀ item ∈ front, test item = true)
    (fail : ∀ item ∈ back, test item = false) (pass' : ∀ item ∈ front', test item = true)
    (fail' : ∀ item ∈ back', test item = false) : front = front' ∧ back = back' := by
  have fronts := congrArg (List.filter test) same
  have none : back.filter test = [] := List.filter_eq_nil_iff.mpr fun item member => by simp [fail item member]
  have none' : back'.filter test = [] := List.filter_eq_nil_iff.mpr fun item member => by simp [fail' item member]
  rw [List.filter_append, List.filter_append, none, none', List.filter_eq_self.mpr pass, List.filter_eq_self.mpr pass',
    List.append_nil, List.append_nil] at fronts
  subst fronts
  exact ⟨rfl, List.append_cancel_left same⟩

/-- Sorting keeps the order of equal items, so it does not matter whether items are left out before or after. -/
theorem filter_mergeSort {α : Type} {le : α → α → Bool} (trans : ∀ a b c, le a b = true → le b c = true → le a c = true)
    (total : ∀ a b, (le a b || le b a) = true) (test : α → Bool) (items : List α) :
    (items.mergeSort le).filter test = (items.filter test).mergeSort le := by
  induction items with
  | nil => rw [List.mergeSort_nil, List.filter_nil, List.mergeSort_nil]
  | cons item items ih =>
    obtain ⟨front, back, sorted, rest, before⟩ := List.mergeSort_cons trans total item items
    have ordered := List.pairwise_mergeSort trans total (item :: items)
    rw [rest, List.filter_append] at ih
    rw [sorted] at ordered ⊢
    rw [List.filter_append]
    cases passes : test item with
    | false =>
      have fails : ¬ test item = true := by rw [passes]; exact Bool.false_ne_true
      rw [List.filter_cons_of_neg fails, List.filter_cons_of_neg fails, ih]
    | true =>
      obtain ⟨front', back', sorted', rest', before'⟩ := List.mergeSort_cons trans total item (items.filter test)
      have ordered' := List.pairwise_mergeSort trans total (item :: items.filter test)
      rw [rest'] at ih
      rw [sorted'] at ordered'
      have after := (List.pairwise_cons.mp (List.pairwise_append.mp ordered).2.1).1
      have after' := (List.pairwise_cons.mp (List.pairwise_append.mp ordered').2.1).1
      -- both fronts are the items that come before this one
      obtain ⟨fronts, backs⟩ := @append_eq_of_test _ (fun other => !le item other) _ _ _ _ ih
        (fun other member => before other (List.mem_filter.mp member).1)
        (fun other member => by rw [after other (List.mem_filter.mp member).1]; rfl)
        before' (fun other member => by rw [after' other member]; rfl)
      rw [List.filter_cons_of_pos passes, List.filter_cons_of_pos passes, sorted', fronts, backs]

/-- The first items that pass are among the first items just when these all pass or no later one does. -/
theorem filter_take_iff {α : Type} (test : α → Bool) (items : List α) (limit : Nat) :
    (items.take limit).filter test = (items.filter test).take limit ↔
      (∀ item ∈ items.take limit, test item = true) ∨ ∀ item ∈ items.drop limit, test item = false := by
  have split : items.filter test = (items.take limit).filter test ++ (items.drop limit).filter test := by
    rw [← List.filter_append, List.take_append_drop]
  have short := List.length_filter_le test (items.take limit)
  have length := List.length_take_le limit items
  have none : (items.drop limit).filter test = [] ↔ ∀ item ∈ items.drop limit, test item = false := by
    rw [List.filter_eq_nil_iff]
    simp only [Bool.not_eq_true]
  -- what is filtered first fills up from the items after the limit
  rw [split, List.take_append, List.take_of_length_le (Nat.le_trans short length), ← none, List.self_eq_append_right,
    List.take_eq_nil_iff]
  constructor
  · rintro (full | empty)
    · -- nothing of the first items was left out
      have all : ((items.take limit).filter test).length = (items.take limit).length := by omega
      exact .inl (List.length_filter_eq_length_iff.mp all)
    · exact .inr empty
  · rintro (all | empty)
    · rw [List.filter_eq_self.mpr all, List.length_take]
      by_cases enough : limit ≤ items.length
      · exact .inl (by omega)
      · rw [List.drop_eq_nil_of_le (by omega)]
        exact .inr rfl
    · exact .inr empty

end Ferrixd
