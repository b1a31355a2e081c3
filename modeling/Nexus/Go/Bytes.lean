import Nexus.Go.Strings

/-! The bytes of a string, which is what conversion to `[]byte` yields, the
string a slice of ASCII bytes converts to, and slicing. -/

set_option autoImplicit false

namespace Nexus.Go

def bytes (s : String) : List UInt8 := s.toUTF8.data.toList

def Ascii (cs : List Char) : Prop := ∀ c ∈ cs, c.toNat < 0x80

def asciiByte (c : Char) : UInt8 := c.val.toUInt8

def stringOfBytes (src : List UInt8) : String :=
  String.ofList (src.map fun byte => Char.ofNat byte.toNat)

/-- `s[low:high]`, with `none` where it panics. Go bounds `high` by the capacity,
which is at least the length used here. -/
def slice {α : Type} (s : List α) (low high : Nat) : Option (List α) :=
  if low ≤ high ∧ high ≤ s.length then some ((s.drop low).take (high - low)) else none

theorem bytes_append (s t : String) : bytes (s ++ t) = bytes s ++ bytes t := by
  unfold bytes
  rw [String.toUTF8_eq_toByteArray, String.toByteArray_append, ByteArray.data_append,
    Array.toList_append]
  rfl

theorem utf8Size_ascii {c : Char} (ascii : c.toNat < 0x80) : c.utf8Size = 1 := by
  rw [Char.utf8Size_eq_one_iff, UInt32.le_iff_toNat_le]
  exact Nat.le_of_lt_succ ascii

/-- An ASCII string has one byte for each character. -/
theorem bytes_ofList {cs : List Char} (ascii : Ascii cs) :
    bytes (String.ofList cs) = cs.map asciiByte := by
  unfold bytes
  rw [String.toUTF8_eq_toByteArray, String.toByteArray_ofList]
  induction cs with
  | nil => rfl
  | cons c cs ih =>
      have single := utf8Size_ascii (ascii c List.mem_cons_self)
      have rest := ih fun other member => ascii other (List.mem_cons_of_mem c member)
      rw [List.utf8Encode_cons, List.utf8Encode_singleton, ByteArray.data_append,
        Array.toList_append, rest, List.data_toByteArray,
        String.utf8EncodeChar_eq_singleton single]
      rfl

theorem len_ofList {cs : List Char} (ascii : Ascii cs) : len (String.ofList cs) = cs.length := by
  have size : (bytes (String.ofList cs)).length = len (String.ofList cs) := rfl
  rw [← size, bytes_ofList ascii, List.length_map]

theorem toNat_asciiChar {byte : UInt8} (ascii : byte < 0x80) :
    (Char.ofNat byte.toNat).toNat = byte.toNat := by
  have valid : byte.toNat.isValidChar := .inl (by
    have small : byte.toNat < 0x80 := ascii
    omega)
  rw [Char.ofNat, dif_pos valid]
  rfl

theorem toNat_asciiByte {c : Char} (ascii : c.toNat < 0x80) : (asciiByte c).toNat = c.toNat := by
  rw [asciiByte, UInt32.toNat_toUInt8]
  exact Nat.mod_eq_of_lt (Nat.lt_trans ascii (by decide))

theorem asciiByte_asciiChar {byte : UInt8} (ascii : byte < 0x80) :
    asciiByte (Char.ofNat byte.toNat) = byte := by
  apply UInt8.toNat_inj.mp
  have value : (Char.ofNat byte.toNat).val.toNat = byte.toNat := toNat_asciiChar ascii
  rw [asciiByte, UInt32.toNat_toUInt8, value]
  exact Nat.mod_eq_of_lt byte.toNat_lt

theorem bytes_stringOfBytes {src : List UInt8} (ascii : ∀ byte ∈ src, byte < 0x80) :
    bytes (stringOfBytes src) = src := by
  unfold stringOfBytes
  rw [bytes_ofList]
  · rw [List.map_map]
    refine (List.map_congr_left ?_).trans (List.map_id src)
    intro byte listed
    exact asciiByte_asciiChar (ascii byte listed)
  · intro c member
    obtain ⟨byte, listed, rfl⟩ := List.mem_map.mp member
    rw [toNat_asciiChar (ascii byte listed)]
    exact ascii byte listed

end Nexus.Go
