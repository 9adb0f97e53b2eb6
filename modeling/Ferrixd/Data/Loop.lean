import Mathlib.Init

/-! # Loops

A loop as the code has it: a turn goes on with another state or leaves with a result.  `Loop`
relates a state to the result a loop leaves with from there, and to nothing when it never does. -/

namespace Ferrixd

universe u v

variable {σ : Type u} {ρ : Type v} {body : σ → σ ⊕ ρ} {state : σ} {result : ρ}

/-- The loop with this body, entered in this state, ends with this result. -/
inductive Loop (body : σ → σ ⊕ ρ) : σ → ρ → Prop where
  | leave {state : σ} {result : ρ} (left : body state = .inr result) : Loop body state result
  | turn {state next : σ} {result : ρ} (goes : body state = .inl next)
      (rest : Loop body next result) : Loop body state result

namespace Loop

/-- A loop has one result. -/
theorem deterministic {other : ρ} (run : Loop body state result) (again : Loop body state other) :
    result = other := by
  induction run with
  | leave left =>
    cases again with
    | leave otherLeft =>
      rw [left] at otherLeft
      exact Sum.inr.inj otherLeft
    | turn goes _ =>
      rw [left] at goes
      cases goes
  | turn goes _ ih =>
    cases again with
    | leave left =>
      rw [goes] at left
      cases left
    | turn otherGoes rest =>
      rw [goes] at otherGoes
      rw [← Sum.inl.inj otherGoes] at rest
      exact ih rest

/-- The rule of invariants: what every turn keeps holds when the loop leaves. -/
theorem spec {I : σ → Prop} {P : ρ → Prop}
    (kept : ∀ state next, I state → body state = .inl next → I next)
    (left : ∀ state result, I state → body state = .inr result → P result)
    (run : Loop body state result) (holds : I state) : P result := by
  induction run with
  | leave exit => exact left _ _ holds exit
  | turn goes _ ih => exact ih (kept _ _ holds goes)

end Loop

end Ferrixd
