import Ferrixd.Data.Forest

/-! # Copies of a value in a forest

One vertex owns a value and every other one keeps a copy of it.  The owner tells its neighbours
of each change, and whoever is told applies the change and tells its other neighbours.  The
wires keep the order, so that a copy is always the owner's value of some moments ago. -/

namespace Ferrixd

universe u

variable {V : Type u} {S M : Type} {graph : SimpleGraph V} {apply : S → M → Option S} {owner here next far : V}
  {value value' : V → S} {wire wire' : V → V → List M}

/-- What is still on the wire brings each copy to the one before it, and nothing travels back. -/
structure Following (graph : SimpleGraph V) (apply : S → M → Option S) (owner : V) (value : V → S)
    (wire : V → V → List M) : Prop where
  behind : ∀ here next, Behind graph next here owner →
    (wire here next).foldlM apply (value next) = some (value here)
  quiet : ∀ here next, ¬ Behind graph next here owner → wire here next = []

namespace Following

/-- Before anything is sent, all copies are the same. -/
theorem start {first : S} (same : ∀ here, value here = first) (empty : ∀ here next, wire here next = []) :
    Following graph apply owner value wire where
  behind here next _ := by rw [empty, same, same]; rfl
  quiet here next _ := empty here next

/-- What arrives travels away from the owner. -/
theorem outward (following : Following graph apply owner value wire) {message : M} {rest : List M}
    (waiting : wire here next = message :: rest) : Behind graph next here owner := by
  by_contra inward
  rw [following.quiet here next inward] at waiting
  cases waiting

/-- What arrives can be applied. -/
theorem applies (following : Following graph apply owner value wire) {message : M} {rest : List M}
    (waiting : wire here next = message :: rest) :
    ∃ later, apply (value next) message = some later ∧ rest.foldlM apply later = some (value here) := by
  have brings := following.behind here next (following.outward waiting)
  rw [waiting, List.foldlM_cons, Option.bind_eq_bind, Option.bind_eq_some_iff] at brings
  exact brings

/-- The owner changes its value and tells its neighbours. -/
theorem change (following : Following graph apply owner value wire) {messages : List M}
    (changes : messages.foldlM apply (value owner) = some (value' owner))
    (kept : ∀ other, other ≠ owner → value' other = value other)
    (told : ∀ next, graph.Adj owner next → wire' owner next = wire owner next ++ messages)
    (untold : ∀ here next, ¬ (here = owner ∧ graph.Adj here next) → wire' here next = wire here next) :
    Following graph apply owner value' wire' where
  behind := by
    intro here next behind
    have before := following.behind here next behind
    rw [kept next behind.ne.symm]
    by_cases own : here = owner
    · subst own
      rw [told next behind.adj.symm, List.foldlM_append, before]
      exact changes
    · rw [untold here next fun both => own both.1, kept here own, before]
  quiet := by
    intro here next behind
    rw [untold here next fun both => behind (both.1 ▸ behind_self both.2.symm)]
    exact following.quiet here next behind

/-- A change that is none for a copy need not be passed on. -/
theorem drop (following : Following graph apply owner value wire) {message : M} {rest : List M}
    (waiting : wire here next = message :: rest) (applied : apply (value next) message = some (value next))
    (taken : wire' here next = rest)
    (untold : ∀ sender receiver, ¬ (sender = here ∧ receiver = next) →
      wire' sender receiver = wire sender receiver) : Following graph apply owner value wire' := by
  obtain ⟨later, applied', brings⟩ := following.applies waiting
  rw [applied, Option.some.injEq] at applied'
  subst applied'
  constructor
  · intro sender receiver behind
    by_cases incoming : sender = here ∧ receiver = next
    · obtain ⟨rfl, rfl⟩ := incoming
      rw [taken, brings]
    · rw [untold sender receiver incoming, following.behind sender receiver behind]
  · intro sender receiver behind
    by_cases incoming : sender = here ∧ receiver = next
    · obtain ⟨rfl, rfl⟩ := incoming
      exact absurd (following.outward waiting) behind
    · rw [untold sender receiver incoming, following.quiet sender receiver behind]

section Acyclic

variable (acyclic : graph.IsAcyclic)
include acyclic

/-- Whoever is told applies the change and tells its other neighbours. -/
theorem pass (following : Following graph apply owner value wire) {message : M} {rest : List M} {later : S}
    (waiting : wire here next = message :: rest) (applied : apply (value next) message = some later)
    (changed : value' next = later) (kept : ∀ other, other ≠ next → value' other = value other)
    (taken : wire' here next = rest)
    (told : ∀ far, graph.Adj next far → far ≠ here → wire' next far = wire next far ++ [message])
    (untold : ∀ sender receiver, ¬ (sender = here ∧ receiver = next) →
      ¬ (sender = next ∧ graph.Adj next receiver ∧ receiver ≠ here) →
      wire' sender receiver = wire sender receiver) :
    Following graph apply owner value' wire' := by
  have outward := following.outward waiting
  obtain ⟨_, applied', brings⟩ := following.applies waiting
  rw [applied, Option.some.injEq] at applied'
  subst applied'
  have apart := outward.adj.ne
  constructor
  · intro sender receiver behind
    have before := following.behind sender receiver behind
    by_cases incoming : sender = here ∧ receiver = next
    · obtain ⟨rfl, rfl⟩ := incoming
      rw [taken, changed, kept sender (Ne.symm apart), brings]
    · by_cases onward : sender = next ∧ graph.Adj next receiver ∧ receiver ≠ here
      · obtain ⟨rfl, edge, back⟩ := onward
        rw [told receiver edge back, List.foldlM_append, kept receiver edge.ne', before, changed]
        simpa using applied
      · rw [untold sender receiver incoming onward]
        -- only the copy of `next` changed, and it is told of changes from `here` alone
        have notNext : receiver ≠ next := by
          intro same
          subst same
          exact incoming ⟨behind.unique acyclic outward, rfl⟩
        have notSender : sender ≠ next := by
          intro same
          subst same
          refine onward ⟨rfl, behind.adj.symm, fun same => ?_⟩
          subst same
          exact behind.not_back acyclic outward
        rw [kept receiver notNext, kept sender notSender, before]
  · intro sender receiver behind
    have before := following.quiet sender receiver behind
    by_cases incoming : sender = here ∧ receiver = next
    · obtain ⟨rfl, rfl⟩ := incoming
      exact absurd outward behind
    · by_cases onward : sender = next ∧ graph.Adj next receiver ∧ receiver ≠ here
      · obtain ⟨rfl, edge, back⟩ := onward
        exact absurd (outward.extend acyclic edge.symm (Ne.symm back)) behind
      · rw [untold sender receiver incoming onward, before]

/-- When nothing is on the wire, every copy is the owner's value. -/
theorem settled (following : Following graph apply owner value wire) (empty : ∀ here next, wire here next = [])
    (reachable : graph.Reachable far owner) : value far = value owner := by
  -- by induction on the way to the owner
  induction steps : graph.dist far owner using Nat.strong_induction_on generalizing far with
  | h distance ih =>
    by_cases own : owner = far
    · rw [own]
    · obtain ⟨closer, behind⟩ := exists_behind reachable own
      have same := following.behind closer far behind
      rw [empty] at same
      have reach : graph.Reachable closer owner := behind.adj.symm.reachable.trans reachable
      rw [Option.some.inj same]
      exact ih _ (steps ▸ behind.closer acyclic) reach rfl

end Acyclic

end Following

end Ferrixd
