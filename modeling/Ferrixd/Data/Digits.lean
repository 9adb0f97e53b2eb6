import Mathlib.Data.List.Basic
import Mathlib.Tactic.IntervalCases

/-! # Digits

A number written with the digits of a base. -/

namespace Ferrixd

/-- Every character of a written number is a digit of its base. -/
theorem mem_toDigits {base n : Nat} (several : 1 < base) {c : Char} (member : c ∈ Nat.toDigits base n) :
    ∃ digit < base, c = Nat.digitChar digit := by
  induction n using Nat.strongRecOn with
  | ind n ih =>
    rw [Nat.toDigits_eq_if several] at member
    split at member
    · rename_i small
      exact ⟨n, small, List.mem_singleton.mp member⟩
    · rename_i large
      rcases List.mem_append.mp member with front | last
      · exact ih (n / base) (Nat.div_lt_self (by omega) several) front
      · exact ⟨n % base, Nat.mod_lt n (by omega), List.mem_singleton.mp last⟩

/-- The value of a digit, a letter in either case. -/
def digitValue (base : Nat) (c : Char) : Option Nat :=
  let value :=
    if '0' ≤ c ∧ c ≤ '9' then some (c.toNat - '0'.toNat)
    else if 'a' ≤ c ∧ c ≤ 'z' then some (c.toNat - 'a'.toNat + 10)
    else if 'A' ≤ c ∧ c ≤ 'Z' then some (c.toNat - 'A'.toNat + 10)
    else none
  value.filter fun value => value < base

/-- The number that digits write. -/
def parseDigits (base : Nat) (digits : List Char) : Option Nat :=
  digits.foldlM (fun sofar c => (digitValue base c).map fun value => base * sofar + value) 0

theorem digitValue_digitChar {digit : Nat} (small : digit < 16) :
    digitValue 16 (Nat.digitChar digit) = some digit := by
  interval_cases digit <;> decide

theorem parseDigits_append (base : Nat) (digits : List Char) (last : Char) :
    parseDigits base (digits ++ [last]) =
      (parseDigits base digits).bind fun sofar => (digitValue base last).map fun value => base * sofar + value := by
  rw [parseDigits, List.foldlM_append]
  cases parsed : parseDigits base digits with
  | none =>
    rw [parseDigits] at parsed
    rw [parsed]
    rfl
  | some sofar =>
    rw [parseDigits] at parsed
    rw [parsed]
    simp

/-- A number written in hexadecimal digits is read back. -/
theorem parseDigits_toDigits (n : Nat) : parseDigits 16 (Nat.toDigits 16 n) = some n := by
  induction n using Nat.strongRecOn with
  | ind n ih =>
    rw [Nat.toDigits_eq_if (by omega)]
    split
    · rename_i small
      simp [parseDigits, digitValue_digitChar small]
    · rename_i large
      have whole := Nat.div_add_mod n 16
      rw [parseDigits_append, ih (n / 16) (Nat.div_lt_self (by omega) (by omega)),
        digitValue_digitChar (Nat.mod_lt n (by omega))]
      simp only [Option.bind_some, Option.map_some, whole]

theorem parseDigits_zeros (count : Nat) (digits : List Char) :
    parseDigits 16 (List.replicate count '0' ++ digits) = parseDigits 16 digits := by
  induction count with
  | zero => rfl
  | succ count ih =>
    rw [List.replicate_succ, List.cons_append, ← ih]
    rfl

/-! ## Decimal digits as text -/

theorem isDigit_bounds {c : Char} (digit : c.isDigit = true) : 48 ≤ c.toNat ∧ c.toNat ≤ 57 :=
  Char.isDigit_iff_toNat.mp digit

theorem ofDigitChars_cons_weight (c : Char) (digits : List Char) :
    Nat.ofDigitChars 10 (c :: digits) 0 = 10 ^ digits.length * (c.toNat - '0'.toNat) + Nat.ofDigitChars 10 digits 0 := by
  rw [Nat.ofDigitChars_cons, Nat.ofDigitChars_eq_ofDigitChars_zero, Nat.mul_zero, Nat.zero_add]

theorem ofDigitChars_lt {digits : List Char} (all : ∀ c ∈ digits, c.isDigit = true) :
    Nat.ofDigitChars 10 digits 0 < 10 ^ digits.length := by
  induction digits with
  | nil => exact Nat.one_pos
  | cons c digits ih =>
    have rest := ih fun other member => all other (List.mem_cons_of_mem _ member)
    have digit := isDigit_bounds (all c (List.mem_cons_self ..))
    have zero : '0'.toNat = 48 := rfl
    have first : 10 ^ digits.length * (c.toNat - '0'.toNat) ≤ 10 ^ digits.length * 9 :=
      Nat.mul_le_mul_left _ (by omega)
    rw [ofDigitChars_cons_weight, List.length_cons, Nat.pow_succ]
    omega

/-- Of two texts with the same number of digits, that of the smaller number comes first. -/
theorem digits_lt {left right : List Char} (same : left.length = right.length)
    (leftDigits : ∀ c ∈ left, c.isDigit = true) (rightDigits : ∀ c ∈ right, c.isDigit = true)
    (less : Nat.ofDigitChars 10 left 0 < Nat.ofDigitChars 10 right 0) :
    List.Lex (fun a b => a.toNat < b.toNat) left right := by
  induction left generalizing right with
  | nil =>
    rw [List.length_nil] at same
    rw [List.eq_nil_of_length_eq_zero same.symm] at less
    exact absurd less (lt_irrefl _)
  | cons x left ih =>
    cases right with
    | nil => cases same
    | cons y right =>
      rw [ofDigitChars_cons_weight, ofDigitChars_cons_weight] at less
      have length : left.length = right.length := Nat.succ.inj same
      have leftRest := fun c member => leftDigits c (List.mem_cons_of_mem _ member)
      have rightRest := fun c member => rightDigits c (List.mem_cons_of_mem _ member)
      have bound := ofDigitChars_lt rightRest
      rw [← length] at bound less
      rcases lt_trichotomy x.toNat y.toNat with first | equal | second
      · exact .rel first
      · obtain rfl := Char.toNat_inj.mp equal
        exact .cons (ih length leftRest rightRest (Nat.lt_of_add_lt_add_left less))
      · -- a greater first digit outweighs everything after it
        have lower := (isDigit_bounds (rightDigits y (List.mem_cons_self ..))).1
        have zero : '0'.toNat = 48 := rfl
        have greater : y.toNat - '0'.toNat + 1 ≤ x.toNat - '0'.toNat := by omega
        have weight := Nat.mul_le_mul_left (10 ^ left.length) greater
        rw [Nat.mul_add, Nat.mul_one] at weight
        omega

end Ferrixd
