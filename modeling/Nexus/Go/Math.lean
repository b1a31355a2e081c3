import Mathlib.Algebra.Group.Nat.Defs

/-! Go's `math.Pow10`, a `float64` being a `Float`, and the conversion of a
`float64` to `uint32`. -/

set_option autoImplicit false

namespace Nexus.Go

namespace Math

def inf (sign : Int) : Float :=
  if 0 ≤ sign then Float.ofBits 0x7FF0000000000000 else Float.ofBits 0xFFF0000000000000

def pow10tab (i : Nat) : Float := Float.ofScientific 1 false i

def pow10postab32 (i : Nat) : Float := Float.ofScientific 1 false (32 * i)

def pow10negtab32 (i : Nat) : Float := Float.ofScientific 1 true (32 * i)

def pow10 (n : Int) : Float :=
  if 0 ≤ n ∧ n ≤ 308 then pow10postab32 (n.toNat / 32) * pow10tab (n.toNat % 32)
  else if -323 ≤ n ∧ n ≤ 0 then pow10negtab32 ((-n).toNat / 32) / pow10tab ((-n).toNat % 32)
  else if 0 < n then inf 1
  else 0.0

end Math

/-- Code for amd64 converts to `int64`, where what does not fit becomes the
least number, and keeps the lower half. -/
def uint32OfFloat64 (f : Float) : UInt32 :=
  let wide :=
    if -9223372036854775808.0 ≤ f ∧ f < 9223372036854775808.0 then f.toModel.toInt64
    else Int64.minValue
  wide.toUInt64.toUInt32

/-- A power of ten up to `1e9` is held exactly and fits: converting it back
yields the same `float64`. -/
theorem uint32OfFloat64_pow10 {n : Nat} (small : n ≤ 9) :
    (uint32OfFloat64 (Math.pow10 n)).toNat = 10 ^ n ∧
      (uint32OfFloat64 (Math.pow10 n)).toFloat = Math.pow10 n := by
  have checked : ∀ n : Nat, n ≤ 9 → (uint32OfFloat64 (Math.pow10 n)).toNat = 10 ^ n ∧
      (uint32OfFloat64 (Math.pow10 n)).toFloat = Math.pow10 n := by
    decide +kernel
  exact checked n small

theorem uint32OfFloat64_pow10_ne_zero {n : Nat} (small : n ≤ 9) :
    uint32OfFloat64 (Math.pow10 n) ≠ 0 := by
  intro zero
  have power := (uint32OfFloat64_pow10 small).1
  rw [zero] at power
  exact absurd power.symm (Nat.ne_of_gt (Nat.pow_pos (by decide)))

end Nexus.Go
