import Mathlib.Data.List.Basic

/-! # Loops that stop at a failure

A loop body that may fail, run on a state that keeps whatever was done before the failure.  What such a
loop leaves behind is what the items before the first failing one gave. -/

namespace Ferrixd

universe u v w x

/-- A computation that may fail, together with what it draws from a source. -/
abbrev Draw (ε : Type u) (δ : Type v) (α : Type v) : Type (max u v) :=
  δ → Except ε (α × δ)

section Survey

variable {α : Type w} {β δ : Type v} {ε : Type u}

/-- What the items give up to the first that fails, and that failure, if there is one. -/
def survey (resolve : α → Draw ε δ β) : List α → δ → List β × Except ε δ
  | [], source => ([], .ok source)
  | item :: items, source =>
    match resolve item source with
    | .error failure => ([], .error failure)
    | .ok (given, source) => (given :: (survey resolve items source).1, (survey resolve items source).2)

variable {resolve : α → Draw ε δ β}

theorem survey_cons_ok {item : α} {source rest : δ} {given : β} (items : List α)
    (resolved : resolve item source = .ok (given, rest)) :
    survey resolve (item :: items) source = (given :: (survey resolve items rest).1, (survey resolve items rest).2) := by
  simp only [survey, resolved]

theorem survey_cons_error {item : α} {source : δ} {failure : ε} (items : List α)
    (resolved : resolve item source = .error failure) :
    survey resolve (item :: items) source = ([], .error failure) := by
  simp only [survey, resolved]

/-- What an item gives, whatever the source held. -/
def Gives (resolve : α → Draw ε δ β) (item : α) (given : β) : Prop :=
  ∃ source rest, resolve item source = .ok (given, rest)

/-- Where every item is usable, each has given its own. -/
theorem survey_gives {items : List α} {source rest : δ} {given : List β}
    (surveyed : survey resolve items source = (given, .ok rest)) : List.Forall₂ (Gives resolve) items given := by
  induction items generalizing source given with
  | nil =>
    cases surveyed
    exact .nil
  | cons item items ih =>
    cases resolved : resolve item source with
    | error failure =>
      rw [survey_cons_error items resolved] at surveyed
      cases surveyed
    | ok result =>
      obtain ⟨first, next⟩ := result
      rw [survey_cons_ok items resolved] at surveyed
      obtain ⟨rfl, ended⟩ := Prod.mk.inj surveyed
      exact .cons ⟨source, next, resolved⟩ (ih (Prod.ext rfl ended))

end Survey

section Loop

variable {α : Type w} {β δ : Type v} {ε τ : Type u}

/-- The loop body does what `resolve` says: `inv done source state` relates what the items so far have given
to the state they have left, and a failing item adds nothing to it. -/
structure StepFollows (step : α → EStateM ε τ PUnit) (resolve : α → Draw ε δ β) (inv : List β → δ → τ → Prop)
    (item : α) : Prop where
  ok : ∀ {done source state given rest}, inv done source state → resolve item source = .ok (given, rest) →
    ∃ state', step item state = .ok ⟨⟩ state' ∧ inv (done ++ [given]) rest state'
  error : ∀ {done source state failure}, inv done source state → resolve item source = .error failure →
    ∃ rest state', step item state = .error failure state' ∧ inv done rest state'

variable {step : α → EStateM ε τ PUnit} {resolve : α → Draw ε δ β} {inv : List β → δ → τ → Prop}

/-- A loop that runs through. -/
theorem forM_ok {items : List α} (follows : ∀ item ∈ items, StepFollows step resolve inv item)
    {done given : List β} {source rest : δ} {state : τ} (start : inv done source state)
    (surveyed : survey resolve items source = (given, .ok rest)) :
    ∃ state', items.forM step state = .ok ⟨⟩ state' ∧ inv (done ++ given) rest state' := by
  induction items generalizing done given source state with
  | nil =>
    cases surveyed
    exact ⟨state, rfl, by rwa [List.append_nil]⟩
  | cons item items ih =>
    cases resolved : resolve item source with
    | error failure =>
      rw [survey_cons_error items resolved] at surveyed
      cases surveyed
    | ok result =>
      obtain ⟨first, next⟩ := result
      rw [survey_cons_ok items resolved] at surveyed
      obtain ⟨rfl, ended⟩ := Prod.mk.inj surveyed
      obtain ⟨middle, stepped, held⟩ := (follows item List.mem_cons_self).ok start resolved
      obtain ⟨final, ran, kept⟩ := ih (fun other member => follows other (List.mem_cons_of_mem _ member)) held
        (Prod.ext rfl ended)
      refine ⟨final, ?_, ?_⟩
      · simp only [List.forM, bind, EStateM.bind, stepped, ran]
      · rwa [List.append_assoc, List.singleton_append] at kept

/-- A loop that stops: the items before the failing one have left their trace. -/
theorem forM_error {items : List α} (follows : ∀ item ∈ items, StepFollows step resolve inv item)
    {done given : List β} {source : δ} {failure : ε} {state : τ} (start : inv done source state)
    (surveyed : survey resolve items source = (given, .error failure)) :
    ∃ rest state', items.forM step state = .error failure state' ∧ inv (done ++ given) rest state' := by
  induction items generalizing done given source state with
  | nil => cases surveyed
  | cons item items ih =>
    cases resolved : resolve item source with
    | error stop =>
      rw [survey_cons_error items resolved] at surveyed
      cases surveyed
      obtain ⟨rest, final, stopped, held⟩ := (follows item List.mem_cons_self).error start resolved
      refine ⟨rest, final, ?_, by rwa [List.append_nil]⟩
      simp only [List.forM, bind, EStateM.bind, stopped]
    | ok result =>
      obtain ⟨first, next⟩ := result
      rw [survey_cons_ok items resolved] at surveyed
      obtain ⟨rfl, ended⟩ := Prod.mk.inj surveyed
      obtain ⟨middle, stepped, held⟩ := (follows item List.mem_cons_self).ok start resolved
      obtain ⟨rest, final, ran, kept⟩ := ih (fun other member => follows other (List.mem_cons_of_mem _ member)) held
        (Prod.ext rfl ended)
      refine ⟨rest, final, ?_, ?_⟩
      · simp only [List.forM, bind, EStateM.bind, stepped, ran]
      · rwa [List.append_assoc, List.singleton_append] at kept

end Loop

end Ferrixd
