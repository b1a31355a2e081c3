import Nexus.Lib.Base64

/-! Strings of JavaScript, which are lists of UTF-16 code units, and the global
function `atob`. It makes a string of bytes, one unit for each, and ignores both
white space and missing padding. -/

set_option autoImplicit false

namespace Nexus.JavaScript

open Nexus.Lib

def codeUnits (c : Char) : List ℕ :=
  if c.toNat < 0x10000 then [c.toNat]
  else [0xD800 + (c.toNat - 0x10000) / 0x400, 0xDC00 + (c.toNat - 0x10000) % 0x400]

def ofString (s : String) : List ℕ := s.toList.flatMap codeUnits

def isAsciiWhitespace (unit : ℕ) : Bool :=
  unit == 0x09 || unit == 0x0A || unit == 0x0C || unit == 0x0D || unit == 0x20

def base64Alphabet : List ℕ :=
  ("ABCDEFGHIJKLMNOPQRSTUVWXYZabcdefghijklmnopqrstuvwxyz0123456789+/".toList).map Char.toNat

def base64Value (unit : ℕ) : Option ℕ := base64Alphabet.idxOf? unit

def padding : ℕ := '='.toNat

/-- One or two padding units at the end are dropped. -/
def dropPadding (data : List ℕ) : List ℕ :=
  if data.getLast? = some padding then
    if data.dropLast.getLast? = some padding then data.dropLast.dropLast else data.dropLast
  else data

def atob (data : List ℕ) : Option (List ℕ) :=
  let compact := data.filter fun unit => !isAsciiWhitespace unit
  let body := if compact.length % 4 = 0 then dropPadding compact else compact
  if body.length % 4 = 1 then none
  else
    match body.mapM base64Value with
    | none => none
    | some values => some ((Base64.octets values).map UInt8.toNat)

theorem codeUnits_ascii {c : Char} (ascii : c.toNat < 0x80) : codeUnits c = [c.toNat] :=
  if_pos (Nat.lt_trans ascii (by decide))

theorem ofString_ascii {cs : List Char} (ascii : ∀ c ∈ cs, c.toNat < 0x80) :
    ofString (String.ofList cs) = cs.map Char.toNat := by
  unfold ofString
  rw [String.toList_ofList]
  induction cs with
  | nil => rfl
  | cons c cs ih =>
      rw [List.forall_mem_cons] at ascii
      rw [List.flatMap_cons, codeUnits_ascii ascii.1, ih ascii.2]
      rfl

/-! ## Data without white space and padding -/

theorem dropPadding_eq {data : List ℕ} (unpadded : padding ∉ data) : dropPadding data = data := by
  unfold dropPadding
  refine if_neg ?_
  intro last
  exact unpadded (List.mem_of_getLast? last)

theorem atob_eq {data : List ℕ} (clean : ∀ unit ∈ data, isAsciiWhitespace unit = false)
    (unpadded : padding ∉ data) (whole : data.length % 4 ≠ 1) :
    atob data = (data.mapM base64Value).map fun values =>
      (Base64.octets values).map UInt8.toNat := by
  have compact : (data.filter fun unit => !isAsciiWhitespace unit) = data := by
    rw [List.filter_eq_self]
    intro unit listed
    rw [clean unit listed]
    rfl
  simp only [atob, compact, dropPadding_eq unpadded, ite_self, if_neg whole]
  cases data.mapM base64Value with
  | none => rfl
  | some values => rfl

end Nexus.JavaScript
