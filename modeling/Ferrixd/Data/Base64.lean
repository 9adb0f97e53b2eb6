import Mathlib.Data.List.Basic
import Mathlib.Tactic.NormNum

/-! # Base64

The standard alphabet, with padding.  A text is read only if it is the one that is written for its bytes. -/

namespace Ferrixd.Base64

/-- The digits, by value. -/
def alphabet : List Char :=
  "ABCDEFGHIJKLMNOPQRSTUVWXYZabcdefghijklmnopqrstuvwxyz0123456789+/".toList

def digit (value : Nat) : Char :=
  alphabet.getD value 'A'

def value? (c : Char) : Option Nat :=
  alphabet.idxOf? c

/-- Four characters for every three bytes. -/
def encodeChars : List UInt8 → List Char
  | [] => []
  | [a] => [digit (a.toNat / 4), digit (a.toNat % 4 * 16), '=', '=']
  | [a, b] => [digit (a.toNat / 4), digit (a.toNat % 4 * 16 + b.toNat / 16), digit (b.toNat % 16 * 4), '=']
  | a :: b :: c :: rest =>
    digit (a.toNat / 4) :: digit (a.toNat % 4 * 16 + b.toNat / 16) :: digit (b.toNat % 16 * 4 + c.toNat / 64) ::
      digit (c.toNat % 64) :: encodeChars rest

/-- The bytes of two, three or four digits; the bits that are left over are 0. -/
def decodeChars : List Char → Option (List UInt8)
  | [] => some []
  | w :: x :: y :: z :: rest => do
    let w ← value? w
    let x ← value? x
    let first := UInt8.ofNat (w * 4 + x / 16)
    -- padding is for the last group only
    if z = '=' ∧ rest = [] then
      if y = '=' then
        if x % 16 = 0 then some [first] else none
      else
        let y ← value? y
        if y % 4 = 0 then some [first, UInt8.ofNat (x % 16 * 16 + y / 4)] else none
    else
      let y ← value? y
      let z ← value? z
      let rest ← decodeChars rest
      return first :: UInt8.ofNat (x % 16 * 16 + y / 4) :: UInt8.ofNat (y % 4 * 64 + z) :: rest
  | _ => none

def encode (data : List UInt8) : String :=
  String.ofList (encodeChars data)

def decode (text : String) : Option (List UInt8) :=
  decodeChars text.toList

/-! ## Digits -/

theorem digit_lawful {value : Nat} (small : value < 64) :
    value? (digit value) = some value ∧ digit value ∈ alphabet ∧ digit value ≠ '=' := by
  have checked : (List.range 64).all (fun value => value? (digit value) == some value &&
      alphabet.contains (digit value) && digit value != '=') = true := by rfl
  have here := List.all_eq_true.mp checked value (List.mem_range.mpr small)
  simpa only [Bool.and_eq_true, beq_iff_eq, List.contains_iff_mem, bne_iff_ne, and_assoc] using here

theorem value?_digit {value : Nat} (small : value < 64) : value? (digit value) = some value :=
  (digit_lawful small).1

theorem digit_mem {value : Nat} (small : value < 64) : digit value ∈ alphabet :=
  (digit_lawful small).2.1

theorem digit_ne {value : Nat} (small : value < 64) : digit value ≠ '=' :=
  (digit_lawful small).2.2

theorem ofNat_eq {value : Nat} {b : UInt8} (same : value = b.toNat) : UInt8.ofNat value = b := by
  rw [same, UInt8.ofNat_toNat]

/-! ## What is written can be read -/

theorem decodeChars_encodeChars (data : List UInt8) : decodeChars (encodeChars data) = some data := by
  induction data using encodeChars.induct with
  | case1 => rfl
  | case2 a =>
    have bound := a.toNat_lt
    have low : a.toNat % 4 * 16 < 64 := by omega
    have aligned : a.toNat % 4 * 16 % 16 = 0 := by omega
    simp only [encodeChars, decodeChars, value?_digit (by omega : a.toNat / 4 < 64), value?_digit low,
      Option.bind_eq_bind, Option.bind_some, aligned, and_self, if_true]
    rw [ofNat_eq (by omega : a.toNat / 4 * 4 + a.toNat % 4 * 16 / 16 = a.toNat)]
  | case3 a b =>
    have boundA := a.toNat_lt
    have boundB := b.toNat_lt
    have middle : a.toNat % 4 * 16 + b.toNat / 16 < 64 := by omega
    have low : b.toNat % 16 * 4 < 64 := by omega
    have aligned : b.toNat % 16 * 4 % 4 = 0 := by omega
    simp only [encodeChars, decodeChars, value?_digit (by omega : a.toNat / 4 < 64), value?_digit middle,
      value?_digit low, Option.bind_eq_bind, Option.bind_some, aligned, and_self, if_true, if_neg (digit_ne low)]
    rw [ofNat_eq (by omega : a.toNat / 4 * 4 + (a.toNat % 4 * 16 + b.toNat / 16) / 16 = a.toNat),
      ofNat_eq (by omega : (a.toNat % 4 * 16 + b.toNat / 16) % 16 * 16 + b.toNat % 16 * 4 / 4 = b.toNat)]
  | case4 a b c rest ih =>
    have boundA := a.toNat_lt
    have boundB := b.toNat_lt
    have boundC := c.toNat_lt
    have second : a.toNat % 4 * 16 + b.toNat / 16 < 64 := by omega
    have third : b.toNat % 16 * 4 + c.toNat / 64 < 64 := by omega
    have low : c.toNat % 64 < 64 := by omega
    -- a full group never ends in padding
    have unpadded : ¬ (digit (c.toNat % 64) = '=' ∧ encodeChars rest = []) := fun padded => digit_ne low padded.1
    simp only [encodeChars, decodeChars, value?_digit (by omega : a.toNat / 4 < 64), value?_digit second,
      value?_digit third, value?_digit low, Option.bind_eq_bind, Option.bind_some, if_neg unpadded, ih, Option.pure_def]
    rw [ofNat_eq (by omega : a.toNat / 4 * 4 + (a.toNat % 4 * 16 + b.toNat / 16) / 16 = a.toNat),
      ofNat_eq (by omega : (a.toNat % 4 * 16 + b.toNat / 16) % 16 * 16 + (b.toNat % 16 * 4 + c.toNat / 64) / 4 = b.toNat),
      ofNat_eq (by omega : (b.toNat % 16 * 4 + c.toNat / 64) % 4 * 64 + c.toNat % 64 = c.toNat)]

theorem mem_encodeChars (data : List UInt8) : ∀ c ∈ encodeChars data, c ∈ alphabet ∨ c = '=' := by
  induction data using encodeChars.induct with
  | case1 => exact fun c member => absurd member List.not_mem_nil
  | case2 a =>
    have bound := a.toNat_lt
    simp only [encodeChars, List.forall_mem_cons]
    exact ⟨.inl (digit_mem (by omega)), .inl (digit_mem (by omega)), .inr trivial, .inr trivial, nofun⟩
  | case3 a b =>
    have boundA := a.toNat_lt
    have boundB := b.toNat_lt
    simp only [encodeChars, List.forall_mem_cons]
    exact ⟨.inl (digit_mem (by omega)), .inl (digit_mem (by omega)), .inl (digit_mem (by omega)), .inr trivial, nofun⟩
  | case4 a b c rest ih =>
    have boundA := a.toNat_lt
    have boundB := b.toNat_lt
    have boundC := c.toNat_lt
    simp only [encodeChars, List.forall_mem_cons]
    exact ⟨.inl (digit_mem (by omega)), .inl (digit_mem (by omega)), .inl (digit_mem (by omega)),
      .inl (digit_mem (by omega)), ih⟩

theorem length_encodeChars (data : List UInt8) : (encodeChars data).length = 4 * ((data.length + 2) / 3) := by
  induction data using encodeChars.induct with
  | case1 => rfl
  | case2 a => simp only [encodeChars, List.length_cons, List.length_nil]
  | case3 a b => simp only [encodeChars, List.length_cons, List.length_nil]
  | case4 a b c rest ih =>
    simp only [encodeChars, List.length_cons, ih]
    omega

/-! ## Engines -/

/-- What is relied on of a base64 engine for the standard alphabet. -/
structure Standard (encode : List UInt8 → String) (decode : String → Option (List UInt8)) : Prop where
  roundTrip : ∀ data, decode (encode data) = some data
  digits : ∀ data, ∀ c ∈ (encode data).toList, c ∈ alphabet ∨ c = '='
  length : ∀ data, (encode data).toList.length = 4 * ((data.length + 2) / 3)

theorem standard : Standard encode decode where
  roundTrip data := by rw [decode, encode, String.toList_ofList, decodeChars_encodeChars]
  digits data := by
    rw [encode, String.toList_ofList]
    exact mem_encodeChars data
  length data := by rw [encode, String.toList_ofList, length_encodeChars]

namespace Standard

variable {encode : List UInt8 → String} {decode : String → Option (List UInt8)}

/-- No other character is written. -/
theorem notMem (engine : Standard encode decode) {c : Char} (foreign : c ∉ alphabet) (notPadding : c ≠ '=')
    (data : List UInt8) : c ∉ (encode data).toList := by
  intro member
  exact (engine.digits data c member).elim foreign notPadding

theorem ascii (engine : Standard encode decode) (data : List UInt8) : ∀ c ∈ (encode data).toList, c.val < 128 := by
  have plain : (('=' :: alphabet).all fun c => decide (c.val < 128)) = true := by rfl
  intro c member
  have listed : c ∈ '=' :: alphabet := by
    rw [List.mem_cons, or_comm]
    exact engine.digits data c member
  exact of_decide_eq_true (List.all_eq_true.mp plain c listed)

end Standard

end Ferrixd.Base64
