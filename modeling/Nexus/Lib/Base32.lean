import Mathlib.Data.List.Forall2
import Nexus.Lib.BigEndian

/-! Base32 text and the bytes it stands for: quanta of eight symbols, the last
one possibly padded, each five bytes in base 32. The alphabet and the padding
symbol are parameters. -/

set_option autoImplicit false

namespace Nexus.Lib.Base32

open Nexus.Lib.BigEndian

def accumulate (acc : Nat) (values : List Nat) : Nat :=
  values.foldl (fun number value => number * 32 + value) acc

/-- How many symbols of the last quantum may be padding. -/
def legalPadding : List Nat := [0, 1, 3, 4, 6]

/-- The bytes of a quantum that lacks `padding` symbols. -/
def quantumBytes (padding : Nat) (values : List Nat) : List UInt8 :=
  (toBytes 5 (accumulate 0 values * 32 ^ padding)).take ((43 - 5 * padding) / 8)

variable (alphabet : UInt8 → Option Nat) (pad : UInt8)

abbrev Valued : List UInt8 → List Nat → Prop :=
  List.Forall₂ fun symbol value => alphabet symbol = some value

inductive Decodes : List UInt8 → List UInt8 → Prop where
  | last {symbols : List UInt8} {values : List Nat} {padding : Nat} :
      Valued alphabet symbols values → symbols.length + padding = 8 →
      padding ∈ legalPadding →
      Decodes (symbols ++ List.replicate padding pad) (quantumBytes padding values)
  | more {quantum : List UInt8} {values : List Nat} {rest bytes : List UInt8} :
      Valued alphabet quantum values → quantum.length = 8 → Decodes rest bytes →
      Decodes (quantum ++ rest) (quantumBytes 0 values ++ bytes)

variable {alphabet pad}

theorem quantumBytes_full (values : List Nat) :
    quantumBytes 0 values = toBytes 5 (accumulate 0 values) := by
  rw [quantumBytes, Nat.pow_zero, Nat.mul_one]
  exact List.take_of_length_le (by rw [length_toBytes])

theorem accumulate_zeros (acc : Nat) (values : List Nat) (padding : Nat) :
    accumulate acc (values ++ List.replicate padding 0) = accumulate acc values * 32 ^ padding := by
  induction padding with
  | zero => simp [accumulate]
  | succ padding ih =>
      have shifted : accumulate acc (values ++ List.replicate (padding + 1) 0) =
          accumulate acc (values ++ List.replicate padding 0) * 32 + 0 := by
        rw [List.replicate_succ', ← List.append_assoc]
        exact List.foldl_append
      rw [shifted, ih, Nat.add_zero, Nat.mul_assoc, Nat.pow_succ]

theorem Decodes.whole {src bytes : List UInt8} (decodes : Decodes alphabet pad src bytes) :
    ∃ quanta, src.length = 8 * (quanta + 1) := by
  induction decodes with
  | last valued counted legal =>
      refine ⟨0, ?_⟩
      rw [List.length_append, List.length_replicate, counted]
  | more valued full decodes ih =>
      obtain ⟨quanta, counted⟩ := ih
      refine ⟨quanta + 1, ?_⟩
      rw [List.length_append, full, counted]
      omega

theorem Valued.ne_pad (unused : alphabet pad = none) {symbols : List UInt8} {values : List Nat}
    (valued : Valued alphabet symbols values) {symbol : UInt8} (member : symbol ∈ symbols) :
    symbol ≠ pad := by
  induction valued with
  | nil => cases member
  | @cons head value symbols values named _ ih =>
      rcases List.mem_cons.mp member with rfl | later
      · rintro rfl
        rw [unused] at named
        cases named
      · exact ih later

end Nexus.Lib.Base32
