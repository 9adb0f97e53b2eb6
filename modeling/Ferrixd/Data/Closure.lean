import Ferrixd.Data.Loop
import Mathlib.Data.List.Basic
import Mathlib.Logic.Relation

/-! # What is reachable along a list of edges

Round after round, the targets of edges that leave the part already seen are added to it. -/

namespace Ferrixd

universe u v

variable {α : Type u} {ι : Type v} [DecidableEq α] {source target : ι → α} {edges : List ι}

/-- The targets one edge away from `seen` and not in it. -/
def frontier (source target : ι → α) (edges : List ι) (seen : List α) : List α :=
  (edges.filter fun edge => source edge ∈ seen ∧ target edge ∉ seen).map target

/-- Add the frontier until it is empty, at most `rounds` times. -/
def saturate (source target : ι → α) (edges : List ι) : Nat → List α → List α
  | 0, seen => seen
  | rounds + 1, seen =>
    let more := frontier source target edges seen
    if more.isEmpty then seen else saturate source target edges rounds (seen ++ more)

/-- The turn of the loop that adds the frontier until there is none. -/
def grow (source target : ι → α) (edges : List ι) (seen : List α) : List α ⊕ List α :=
  let more := frontier source target edges seen
  if more.isEmpty then .inr seen else .inl (seen ++ more)

theorem mem_frontier {seen : List α} {x : α} :
    x ∈ frontier source target edges seen ↔
      ∃ edge ∈ edges, source edge ∈ seen ∧ target edge = x ∧ x ∉ seen := by
  simp only [frontier, List.mem_map, List.mem_filter, decide_eq_true_eq]
  constructor
  · intro ⟨edge, ⟨member, leaves, fresh⟩, same⟩
    subst same
    exact ⟨edge, member, leaves, rfl, fresh⟩
  · intro ⟨edge, member, leaves, same, fresh⟩
    subst same
    exact ⟨edge, ⟨member, leaves, fresh⟩, rfl⟩

theorem subset_saturate (rounds : Nat) (seen : List α) :
    seen ⊆ saturate source target edges rounds seen := by
  induction rounds generalizing seen with
  | zero => exact List.Subset.refl _
  | succ rounds ih =>
    rw [saturate]
    split
    · exact List.Subset.refl _
    · exact List.Subset.trans (List.subset_append_left _ _) (ih _)

/-- One step along an edge. -/
def EdgeStep (source target : ι → α) (edges : List ι) (a b : α) : Prop :=
  ∃ edge ∈ edges, source edge = a ∧ target edge = b

/-- Everything added is reachable from what was seen. -/
theorem reachable_of_mem_saturate {rounds : Nat} {seen : List α} {x : α}
    (member : x ∈ saturate source target edges rounds seen) :
    ∃ root ∈ seen, Relation.ReflTransGen (EdgeStep source target edges) root x := by
  induction rounds generalizing seen with
  | zero => exact ⟨x, member, .refl⟩
  | succ rounds ih =>
    rw [saturate] at member
    split at member
    · exact ⟨x, member, .refl⟩
    · obtain ⟨middle, seenMiddle, path⟩ := ih member
      cases List.mem_append.mp seenMiddle with
      | inl old => exact ⟨middle, old, path⟩
      | inr new =>
        obtain ⟨edge, isEdge, leaves, arrives, -⟩ := mem_frontier.mp new
        exact ⟨source edge, leaves, .head ⟨edge, isEdge, rfl, arrives⟩ path⟩

/-- The edges whose target is still unseen. -/
def unseen (target : ι → α) (edges : List ι) (seen : List α) : List ι :=
  edges.filter fun edge => target edge ∉ seen

theorem unseen_shrinks {seen : List α} (more : frontier source target edges seen ≠ []) :
    (unseen target edges (seen ++ frontier source target edges seen)).length <
      (unseen target edges seen).length := by
  obtain ⟨x, member⟩ := List.exists_mem_of_ne_nil _ more
  obtain ⟨edge, isEdge, -, arrives, fresh⟩ := mem_frontier.mp member
  have sublist : (unseen target edges (seen ++ frontier source target edges seen)).Sublist
      (unseen target edges seen) := by
    refine List.monotone_filter_right _ fun other kept => ?_
    simp only [List.mem_append, not_or, decide_eq_true_eq] at kept ⊢
    exact kept.1
  refine Nat.lt_of_le_of_ne sublist.length_le fun same => ?_
  -- were no edge lost, the edge behind `x` would still have an unseen target
  have inside : edge ∈ unseen target edges seen := by
    rw [unseen, List.mem_filter, arrives]
    exact ⟨isEdge, by simpa using fresh⟩
  rw [← sublist.eq_of_length same, unseen, List.mem_filter, arrives] at inside
  simp [member] at inside

/-- With as many rounds as there are edges, nothing is left to add. -/
theorem frontier_saturate {rounds : Nat} {seen : List α}
    (enough : (unseen target edges seen).length ≤ rounds) :
    frontier source target edges (saturate source target edges rounds seen) = [] := by
  induction rounds generalizing seen with
  | zero =>
    rw [saturate, List.eq_nil_iff_forall_not_mem]
    intro x member
    obtain ⟨edge, isEdge, -, arrives, fresh⟩ := mem_frontier.mp member
    have none : unseen target edges seen = [] := List.length_eq_zero_iff.mp (Nat.le_zero.mp enough)
    have inside : edge ∈ unseen target edges seen := by
      rw [unseen, List.mem_filter, arrives]
      exact ⟨isEdge, by simpa using fresh⟩
    rw [none] at inside
    cases inside
  | succ rounds ih =>
    rw [saturate]
    split
    · rename_i empty
      exact List.isEmpty_iff.mp empty
    · rename_i more
      have shrinks := unseen_shrinks fun nil => more (List.isEmpty_iff.mpr nil)
      exact ih (by omega)

/-- Saturation computes what is reachable. -/
theorem mem_saturate_iff {seen : List α} {x : α} :
    x ∈ saturate source target edges edges.length seen ↔
      ∃ root ∈ seen, Relation.ReflTransGen (EdgeStep source target edges) root x := by
  refine ⟨reachable_of_mem_saturate, ?_⟩
  intro ⟨root, inSeen, path⟩
  induction path with
  | refl => exact subset_saturate _ _ inSeen
  | tail _ step ih =>
    obtain ⟨edge, isEdge, rfl, rfl⟩ := step
    have closed : frontier source target edges (saturate source target edges edges.length seen) = [] :=
      frontier_saturate (List.length_filter_le _ _)
    by_contra fresh
    have added := mem_frontier.mpr ⟨edge, isEdge, ih, rfl, fresh⟩
    rw [closed] at added
    cases added

/-- What saturation computes is the least set that contains `seen` and is closed under the
edges. -/
theorem mem_saturate_iff_least {seen : List α} {x : α} :
    x ∈ saturate source target edges edges.length seen ↔
      ∀ closed : α → Prop, (∀ y ∈ seen, closed y) →
        (∀ edge ∈ edges, closed (source edge) → closed (target edge)) → closed x := by
  rw [mem_saturate_iff]
  constructor
  · intro ⟨root, inSeen, path⟩ closed base step
    induction path with
    | refl => exact base root inSeen
    | tail _ edge ih =>
      obtain ⟨edge, isEdge, rfl, rfl⟩ := edge
      exact step edge isEdge ih
  · intro least
    refine least (fun y => ∃ root ∈ seen, Relation.ReflTransGen (EdgeStep source target edges) root y)
      (fun y inSeen => ⟨y, inSeen, .refl⟩) ?_
    intro edge isEdge ⟨root, inSeen, path⟩
    exact ⟨root, inSeen, path.tail ⟨edge, isEdge, rfl, rfl⟩⟩

/-- With enough rounds, saturation is what the loop ends with. -/
theorem loop_saturate {rounds : Nat} {seen : List α}
    (enough : (unseen target edges seen).length ≤ rounds) :
    Loop (grow source target edges) seen (saturate source target edges rounds seen) := by
  induction rounds generalizing seen with
  | zero =>
    have none : frontier source target edges (saturate source target edges 0 seen) = [] :=
      frontier_saturate enough
    rw [saturate] at none ⊢
    exact .leave (by rw [grow, none]; rfl)
  | succ rounds ih =>
    rw [saturate]
    split
    · rename_i none
      exact .leave (by rw [grow]; exact if_pos none)
    · rename_i more
      have shrinks := unseen_shrinks fun nil => more (List.isEmpty_iff.mpr nil)
      exact .turn (by rw [grow]; exact if_neg more) (ih (by omega))

end Ferrixd
