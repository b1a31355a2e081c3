import Mathlib.Data.Nat.Bitwise

/-! Big-endian byte strings of a fixed size, and the bitwise operations that
act on the digits of a number as arithmetic does. -/

set_option autoImplicit false

namespace Nexus.Lib.BigEndian

/-- The last `size` bytes of `value`. -/
def toBytes : Nat → Nat → List UInt8
  | 0, _ => []
  | size + 1, value => UInt8.ofNat (value / 256 ^ size) :: toBytes size value

def ofBytes (bytes : List UInt8) : Nat :=
  bytes.foldl (fun value byte => value * 256 + byte.toNat) 0

@[simp] theorem length_toBytes (size value : Nat) : (toBytes size value).length = size := by
  induction size with
  | zero => rfl
  | succ size ih => simp only [toBytes, List.length_cons, ih]

/-- Bits that do not overlap add up. -/
theorem or_of_disjoint {high : Nat} (low width : Nat) (small : low < 2 ^ width)
    (aligned : 2 ^ width ∣ high) : high ||| low = high + low := by
  obtain ⟨quotient, rfl⟩ := aligned
  exact (Nat.two_pow_add_eq_or_of_lt small quotient).symm

/-- A fact about every byte may be checked on the 256 numbers. -/
theorem forall_byte {fact : UInt8 → Prop} (checked : ∀ n < 256, fact (UInt8.ofNat n))
    (byte : UInt8) : fact byte := by
  have listed := checked byte.toNat byte.toNat_lt
  rwa [UInt8.ofNat_toNat] at listed

end Nexus.Lib.BigEndian
