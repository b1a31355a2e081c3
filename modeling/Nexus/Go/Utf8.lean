import Mathlib.Data.Nat.Notation

/-! How Go reads bytes as characters: a byte that begins no character becomes
the replacement character, and reading goes on behind it. -/

set_option autoImplicit false

namespace Nexus.Go

def runeError : Char := Char.ofNat 0xFFFD

/-- `utf8.DecodeRune` again and again, first skipping the bytes of a character
that has been read. -/
def decodeRunes : ℕ → List UInt8 → List Char
  | _, [] => []
  | skipped + 1, _ :: rest => decodeRunes skipped rest
  | 0, byte :: rest =>
      match (byte :: rest).toByteArray.utf8DecodeChar? 0 with
      | some c => c :: decodeRunes (c.utf8Size - 1) rest
      | none => runeError :: decodeRunes 0 rest

def runes (bytes : List UInt8) : List Char := decodeRunes 0 bytes

theorem decodeRunes_skip (skipped rest : List UInt8) :
    decodeRunes skipped.length (skipped ++ rest) = decodeRunes 0 rest := by
  induction skipped with
  | nil => rfl
  | cons byte skipped ih => exact ih

theorem runes_utf8EncodeChar (c : Char) (rest : List UInt8) :
    runes (String.utf8EncodeChar c ++ rest) = c :: runes rest := by
  have length := String.length_utf8EncodeChar c
  have decoded : (String.utf8EncodeChar c ++ rest).toByteArray.utf8DecodeChar? 0 = some c := by
    rw [List.toByteArray_append]
    exact ByteArray.utf8DecodeChar?_utf8EncodeChar_append
  cases shape : String.utf8EncodeChar c with
  | nil => exact absurd shape String.utf8EncodeChar_ne_nil
  | cons byte bytes =>
      rw [shape, List.length_cons] at length
      rw [shape, List.cons_append] at decoded
      have size : c.utf8Size - 1 = bytes.length := by omega
      have skipped := decodeRunes_skip bytes rest
      rw [← size] at skipped
      rw [List.cons_append, runes, decodeRunes, decoded]
      exact congrArg (c :: ·) skipped

theorem runes_encoded (cs : List Char) : runes (cs.flatMap String.utf8EncodeChar) = cs := by
  induction cs with
  | nil => rfl
  | cons c cs ih => rw [List.flatMap_cons, runes_utf8EncodeChar, ih]

end Nexus.Go
