import Mathlib.Init

/-! # Runs of a transition system

A machine has a set of start states and labelled steps.  A run may be restricted to
the steps that satisfy a guard; the unrestricted runs are those with the guard `True`. -/

namespace Ferrixd

universe u v

/-- A labelled transition system. -/
structure Machine (σ : Type u) (ε : Type v) where
  start : σ → Prop
  step : σ → ε → σ → Prop

namespace Machine

variable {σ : Type u} {ε : Type v} {machine : Machine σ ε} {guard : σ → ε → Prop}

/-- The states reached by runs all of whose steps satisfy `guard`. -/
inductive GuardedRun (machine : Machine σ ε) (guard : σ → ε → Prop) : σ → Prop where
  | start {state : σ} (initial : machine.start state) : GuardedRun machine guard state
  | step {state next : σ} {e : ε} (run : GuardedRun machine guard state)
      (allowed : guard state e) (taken : machine.step state e next) :
      GuardedRun machine guard next

/-- The states reached by any run. -/
def Reachable (machine : Machine σ ε) : σ → Prop :=
  machine.GuardedRun fun _ _ => True

/-- What holds of every start state and is kept by every guarded step holds of every
state a guarded run reaches. -/
theorem GuardedRun.invariant {I : σ → Prop}
    (initial : ∀ state, machine.start state → I state)
    (preserved : ∀ state event next, I state → guard state event →
      machine.step state event next → I next)
    {state : σ} (run : machine.GuardedRun guard state) : I state := by
  induction run with
  | start isStart => exact initial _ isStart
  | step _ allowed taken ih => exact preserved _ _ _ ih allowed taken

/-- The states reached by any run, with the labels of its steps in order. -/
inductive Traced (machine : Machine σ ε) : List ε → σ → Prop where
  | start {state : σ} (initial : machine.start state) : Traced machine [] state
  | step {events : List ε} {state next : σ} {e : ε} (run : Traced machine events state)
      (taken : machine.step state e next) : Traced machine (events ++ [e]) next

/-- What holds at every start, and after a step of the run up to it, holds of every run. -/
theorem Traced.invariant {I : List ε → σ → Prop}
    (initial : ∀ state, machine.start state → I [] state)
    (preserved : ∀ events state event next, I events state →
      machine.step state event next → I (events ++ [event]) next)
    {events : List ε} {state : σ} (run : machine.Traced events state) : I events state := by
  induction run with
  | start isStart => exact initial _ isStart
  | step _ taken ih => exact preserved _ _ _ _ ih taken

theorem GuardedRun.weaken {weaker : σ → ε → Prop}
    (implied : ∀ state event, guard state event → weaker state event)
    {state : σ} (run : machine.GuardedRun guard state) : machine.GuardedRun weaker state := by
  induction run with
  | start isStart => exact .start isStart
  | step _ allowed taken ih => exact .step ih (implied _ _ allowed) taken

theorem GuardedRun.reachable {state : σ} (run : machine.GuardedRun guard state) :
    machine.Reachable state :=
  run.weaken fun _ _ _ => trivial

end Machine

/-- A fold keeps whatever every application of its step function keeps. -/
theorem foldl_invariant {α : Type u} {σ : Type v} {I : σ → Prop} (step : σ → α → σ)
    (items : List α) (preserved : ∀ state, ∀ item ∈ items, I state → I (step state item))
    (state : σ) (holds : I state) : I (items.foldl step state) := by
  induction items generalizing state with
  | nil => exact holds
  | cons item rest ih =>
    refine ih (fun later other member => preserved later other (List.mem_cons_of_mem _ member)) _ ?_
    exact preserved state item List.mem_cons_self holds

end Ferrixd
