import Nexus.Lib.BigEndian
import Mathlib.Data.Nat.Digits.Defs

/-! Counter-based one-time codes: dynamic truncation of a 20-byte message
authentication code to 31 bits and its last decimal digits, as natural-number
arithmetic. The authentication code itself is a parameter. -/

set_option autoImplicit false

namespace Nexus.Lib.OneTimeCode

open Nexus.Lib.BigEndian

def offset (mac : Vector UInt8 20) : Nat := (mac.toList.getLastD 0).toNat % 16

def selected (mac : Vector UInt8 20) : List UInt8 := (mac.toList.drop (offset mac)).take 4

def truncation (mac : Vector UInt8 20) : Nat := ofBytes (selected mac) % 2 ^ 31

/-- The last `width` decimal digits of a number, with leading zeros. -/
def digits (width value : Nat) : List Char :=
  let decimal := Nat.toDigits 10 (value % 10 ^ width)
  List.replicate (width - decimal.length) '0' ++ decimal

section
variable (mac : List UInt8 → List UInt8 → Vector UInt8 20)

def code (key : List UInt8) (counter width : Nat) : String :=
  String.ofList (digits width (truncation (mac key (toBytes 8 counter))))

end

/-- A text of `width` decimal digits that denotes `value`. -/
structure IsNumeral (text : String) (width value : Nat) : Prop where
  length : text.length = width
  decimal : ∀ c ∈ text.toList, c.isDigit = true
  denotes : Nat.ofDigitChars 10 text.toList 0 = value

theorem offset_eq (mac : Vector UInt8 20) :
    (mac.toList.getLastD 0 &&& 0x0F).toNat = offset mac := by
  rw [UInt8.toNat_and]
  exact Nat.and_two_pow_sub_one_eq_mod _ 4

theorem offset_lt (mac : Vector UInt8 20) : offset mac < 16 := Nat.mod_lt _ (by decide)

/-- The dynamic offset leaves four bytes. -/
theorem length_selected (mac : Vector UInt8 20) : (selected mac).length = 4 := by
  have bounded := offset_lt mac
  simp only [selected, List.length_take, List.length_drop, Vector.length_toList]
  omega

theorem length_digits {width : Nat} (positive : 0 < width) (value : Nat) :
    (digits width value).length = width := by
  have fits : value % 10 ^ width < 10 ^ width := Nat.mod_lt _ (Nat.pow_pos (by decide))
  have narrow := (Nat.length_toDigits_le_iff (by decide : 1 < 10) positive).mpr fits
  simp only [digits, List.length_append, List.length_replicate]
  omega

theorem digits_isDigit {width value : Nat} {c : Char} (member : c ∈ digits width value) :
    c.isDigit = true := by
  rcases List.mem_append.mp member with padding | decimal
  · rw [List.eq_of_mem_replicate padding]
    rfl
  · exact Nat.isDigit_of_mem_toDigits (by decide) (by decide) decimal

theorem ascii_of_mem_digits {width value : Nat} {c : Char} (member : c ∈ digits width value) :
    c.toNat < 0x80 := by
  have digit := digits_isDigit member
  simp only [Char.isDigit, Bool.and_eq_true, decide_eq_true_eq, UInt32.le_iff_toNat_le] at digit
  exact Nat.lt_of_le_of_lt digit.2 (by decide)

/-- Leading zeros do not change the number. -/
theorem ofDigitChars_digits (width value : Nat) :
    Nat.ofDigitChars 10 (digits width value) 0 = value % 10 ^ width := by
  rw [digits, Nat.ofDigitChars_append, Nat.ofDigitChars_replicate_zero, Nat.mul_zero,
    Nat.ofDigitChars_ten_toDigits]

theorem length_code (mac : List UInt8 → List UInt8 → Vector UInt8 20) (key : List UInt8)
    (counter : Nat) {width : Nat} (positive : 0 < width) :
    (code mac key counter width).length = width := by
  rw [code, String.length_ofList, length_digits positive]

theorem isNumeral_code (mac : List UInt8 → List UInt8 → Vector UInt8 20) (key : List UInt8)
    (counter : Nat) {width : Nat} (positive : 0 < width) :
    IsNumeral (code mac key counter width) width
      (truncation (mac key (toBytes 8 counter)) % 10 ^ width) where
  length := length_code mac key counter positive
  decimal := by
    intro c member
    rw [code, String.toList_ofList] at member
    exact digits_isDigit member
  denotes := by rw [code, String.toList_ofList, ofDigitChars_digits]

end Nexus.Lib.OneTimeCode
