import Ferrixd.State.Modes
import Ferrixd.Ts6.Aliases

/-! # Aligned mode arguments

A mode string and its arguments are two lists, and each side of the bridge has its own idea of which flags take an
argument. -/

namespace Ferrixd

/-! ## Flags with their arguments -/

/-- The flags that have an argument between servers of this kind. -/
def takesArgument (letter : Char) (adding : Bool) : Bool :=
  letter = 'o' || letter = 'v' || letter = 'b' || letter = 'e' || letter = 'I' ||
    (adding && (letter = 'k' || letter = 'l'))

/-- The flags of a mode string, each with the argument it is read with. -/
def alignedModes : List Char → Bool → List String → List (Char × Bool × Option String)
  | [], _, _ => []
  | c :: flags, adding, args =>
    if c = '+' then alignedModes flags true args
    else if c = '-' then alignedModes flags false args
    else if takesArgument c adding then (c, adding, args.head?) :: alignedModes flags adding args.tail
    else (c, adding, none) :: alignedModes flags adding args

/-- The arguments that name users. -/
def statusArgs : List Char → Bool → List String → List String
  | [], _, _ => []
  | c :: flags, adding, args =>
    if c = '+' then statusArgs flags true args
    else if c = '-' then statusArgs flags false args
    else if takesArgument c adding then
      (if c = 'o' ∨ c = 'v' then args.head?.toList else []) ++ statusArgs flags adding args.tail
    else statusArgs flags adding args

/-- What a letter does to the arguments on one side of the bridge and on the other. -/
inductive Letter : Char → Bool → Prop where
  | plus (adding : Bool) : Letter '+' adding
  | minus (adding : Bool) : Letter '-' adding
  | unkey : Letter 'k' false
  | argument {c : Char} {adding : Bool} (plus : c ≠ '+') (minus : c ≠ '-') (takes : takesArgument c adding = true) :
      Letter c adding
  | plain {c : Char} {adding : Bool} (plus : c ≠ '+') (minus : c ≠ '-') (takes : takesArgument c adding = false)
      (key : c ≠ 'k') : Letter c adding

theorem letter (c : Char) (adding : Bool) : Letter c adding := by
  by_cases plus : c = '+'
  · subst plus
    exact .plus adding
  · by_cases minus : c = '-'
    · subst minus
      exact .minus adding
    · cases takes : takesArgument c adding with
      | true => exact .argument plus minus takes
      | false =>
        by_cases key : c = 'k'
        · subst key
          cases adding with
          | true => cases takes
          | false => exact .unkey
        · exact .plain plus minus takes key

/-! ## Translating with a function -/

/-- The arguments on the other side, where `name` translates those that name users. -/
def translated (key : Bool) (name : String → String) (flags : List Char) (adding : Bool) (args : List String) :
    List String :=
  (translateModeArgs key (fun uid (_ : Unit) => (some (name uid), ())) flags adding args ()).1

section Equations

variable {σ : Type} {key : Bool} {mapUid : String → σ → Option String × σ} {flags : List Char} {adding : Bool}
  {args : List String} {state : σ} {c : Char} {name : String → String}

end Equations

/-! ## There and back -/

section Steps

variable {c : Char} {adding : Bool} {flags : List Char} {args : List String}

theorem alignedModes_argument (plus : c ≠ '+') (minus : c ≠ '-') (takes : takesArgument c adding = true) :
    alignedModes (c :: flags) adding args = (c, adding, args.head?) :: alignedModes flags adding args.tail := by
  rw [alignedModes, if_neg plus, if_neg minus, if_pos takes]

theorem alignedModes_plain (plus : c ≠ '+') (minus : c ≠ '-') (takes : takesArgument c adding = false) :
    alignedModes (c :: flags) adding args = (c, adding, none) :: alignedModes flags adding args := by
  rw [alignedModes, if_neg plus, if_neg minus, takes, if_neg Bool.false_ne_true]

end Steps

/-- What one flag does with its argument. -/
def alignedStep (resolve : Char → Bool → String → Option ModeStep) : Char × Bool × Option String → List ModeStep
  | (c, adding, arg) =>
    if c = 'o' ∨ c = 'v' then (arg.bind (resolve c adding)).toList
    else if c = 'k' then if adding then (arg.map fun key => .key true (some key)).toList else [.key false none]
    else if c = 'l' then
      if adding then ((arg.bind parseU64).map fun limit => .limit true (some limit)).toList else [.limit false none]
    else if c = 'b' ∨ c = 'e' ∨ c = 'I' then (arg.map fun mask => .list c adding mask).toList
    else if boolModes.any fun mode => mode.letter = c then [.bool c adding]
    else []

/-- A server takes each flag with the argument that it is aligned with. -/
theorem modeSteps_aligned (resolve : Char → Bool → String → Option ModeStep) (flags : List Char) (adding : Bool)
    (args : List String) :
    modeSteps resolve flags adding args = (alignedModes flags adding args).flatMap (alignedStep resolve) := by
  induction flags generalizing adding args with
  | nil => rfl
  | cons c flags ih =>
    cases letter c adding with
    | plus => exact ih true args
    | minus => exact ih false args
    -- a key is removed without an argument
    | unkey =>
      rw [alignedModes_plain (by decide) (by decide) rfl, List.flatMap_cons, ← ih]
      rfl
    | argument plus minus takes =>
      rw [alignedModes_argument plus minus takes, List.flatMap_cons, ← ih, modeSteps.eq_def]
      dsimp only
      rw [if_neg plus, if_neg minus]
      split
      · rename_i status
        cases args <;> simp [alignedStep, status]
      · rename_i notStatus
        split
        · rename_i isKey
          subst isKey
          cases adding with
          | true => cases args <;> rfl
          | false => cases takes
        · rename_i notKey
          split
          · rename_i isLimit
            subst isLimit
            cases adding with
            | true => cases args <;> rfl
            | false => cases takes
          · rename_i notLimit
            have isList : c = 'b' ∨ c = 'e' ∨ c = 'I' := by
              simp only [takesArgument, Bool.or_eq_true, decide_eq_true_eq, Bool.and_eq_true] at takes
              tauto
            rw [if_pos isList]
            cases args <;> simp [alignedStep, notStatus, notKey, notLimit, isList]
    | plain plus minus takes notKey =>
      rw [alignedModes_plain plus minus takes, List.flatMap_cons, ← ih, modeSteps.eq_def]
      simp only [takesArgument, Bool.or_eq_false_iff, decide_eq_false_iff_not, Bool.and_eq_false_iff] at takes
      obtain ⟨⟨⟨⟨⟨notOp, notVoice⟩, notBan⟩, notExcept⟩, notInvex⟩, unset⟩ := takes
      have notStatus : ¬ (c = 'o' ∨ c = 'v') := by tauto
      have notList : ¬ (c = 'b' ∨ c = 'e' ∨ c = 'I') := by tauto
      dsimp only
      rw [if_neg plus, if_neg minus, if_neg notStatus, if_neg notKey]
      by_cases limit : c = 'l'
      · have off : adding = false := by tauto
        subst limit off
        rfl
      · rw [if_neg limit, if_neg notList, alignedStep, if_neg notStatus, if_neg notKey, if_neg limit, if_neg notList]
        split <;> rfl

/-! ## With the aliases of a link -/

namespace UidMapper

/-- What a UID is called in a line. -/
def named (mapper : UidMapper) (uid : String) : String :=
  (mapper.identifier uid).getD uid

end UidMapper

end Ferrixd
