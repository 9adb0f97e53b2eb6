import Mathlib.Algebra.Group.Nat.Defs
import Mathlib.Data.List.Basic

/-! # Numbers as bytes

A number as so many bytes, the most significant first. -/

namespace Ferrixd

/-- The number that some bytes are. -/
def ofBigEndian (bytes : List UInt8) : Nat :=
  bytes.foldl (fun value byte => value * 256 + byte.toNat) 0

/-- A number in so many bytes. -/
def bigEndian : Nat → Nat → List UInt8
  | 0, _ => []
  | count + 1, value => UInt8.ofNat (value / 256 ^ count) :: bigEndian count value

@[simp] theorem length_bigEndian (count value : Nat) : (bigEndian count value).length = count := by
  induction count with
  | zero => rfl
  | succ count ih => rw [bigEndian, List.length_cons, ih]

theorem foldl_bigEndian (count value above : Nat) :
    (bigEndian count value).foldl (fun value byte => value * 256 + byte.toNat) above =
      above * 256 ^ count + value % 256 ^ count := by
  induction count generalizing above with
  | zero => simp [bigEndian, Nat.mod_one]
  | succ count ih =>
    have digit : (UInt8.ofNat (value / 256 ^ count)).toNat = value / 256 ^ count % 256 := rfl
    rw [bigEndian, List.foldl_cons, ih, digit, Nat.pow_succ, Nat.mod_mul, Nat.add_mul, Nat.mul_assoc,
      Nat.mul_comm 256, Nat.mul_comm (value / 256 ^ count % 256)]
    omega

/-- A number that fits into the bytes is read back. -/
theorem ofBigEndian_bigEndian {count value : Nat} (fits : value < 256 ^ count) :
    ofBigEndian (bigEndian count value) = value := by
  rw [ofBigEndian, foldl_bigEndian, Nat.zero_mul, Nat.zero_add, Nat.mod_eq_of_lt fits]

end Ferrixd
