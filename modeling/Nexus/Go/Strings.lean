import Mathlib.Data.List.DropRight
import Mathlib.Data.List.TakeDrop
import Mathlib.Data.String.Basic

/-! The parts of Go's `strings` and `unicode` packages the server calls, under
their own names. A Go string holding UTF-8 is a Lean `String`; `len` counts its
bytes. `isSpace` lists the code points with property White_Space. `splitN`
takes a separator of one rune and a limit of at least 0. The case tables above
the ASCII range are data of package `unicode` and stay a parameter. -/

set_option autoImplicit false

namespace Nexus.Go

def len (s : String) : Nat := s.utf8ByteSize

/-- A character takes a byte or more. -/
theorem length_le_len (s : String) : s.length ≤ len s := by
  have bytes : ∀ cs : List Char, cs.length ≤ String.utf8Len cs := by
    intro cs
    induction cs with
    | nil => exact Nat.le_refl 0
    | cons c cs ih =>
        rw [List.length_cons, String.utf8Len_cons]
        have positive := c.utf8Size_pos
        omega
  rw [len, ← String.utf8Len_toList, ← String.length_toList]
  exact bytes s.toList

def isSpace (c : Char) : Bool :=
  let r := c.toNat
  (0x09 ≤ r && r ≤ 0x0D) || r == 0x20 || r == 0x85 || r == 0xA0 ||
    r == 0x1680 || (0x2000 ≤ r && r ≤ 0x200A) || r == 0x2028 || r == 0x2029 ||
    r == 0x202F || r == 0x205F || r == 0x3000

private def trim (cs : List Char) : List Char :=
  (cs.dropWhile isSpace).rdropWhile isSpace

def trimSpace (s : String) : String := String.ofList (trim s.toList)

theorem toList_trimSpace (s : String) :
    (trimSpace s).toList = (s.toList.dropWhile isSpace).rdropWhile isSpace :=
  String.toList_ofList

private theorem dropWhile_trim (cs : List Char) :
    (trim cs).dropWhile isSpace = trim cs := by
  cases trimmed : trim cs with
  | nil => rfl
  | cons head rest =>
      have front := List.head?_dropWhile_not isSpace cs
      obtain ⟨removed, split⟩ := List.rdropWhile_prefix isSpace (l := cs.dropWhile isSpace)
      have whole : head :: (rest ++ removed) = cs.dropWhile isSpace := by
        rw [← split]
        change _ = trim cs ++ removed
        rw [trimmed, List.cons_append]
      rw [← whole] at front
      have kept : isSpace head = false := front
      rw [List.dropWhile_cons_of_neg (by simp [kept])]

private theorem trim_trim (cs : List Char) : trim (trim cs) = trim cs := by
  rw [trim, dropWhile_trim]
  exact List.rdropWhile_idempotent isSpace _

@[simp] theorem trimSpace_trimSpace (s : String) :
    trimSpace (trimSpace s) = trimSpace s := by
  simp only [trimSpace, String.toList_ofList, trim_trim]

example : trimSpace " alice\n" = "alice" := by decide

structure UnicodeTables where
  toUpper : Char → Char
  toLower : Char → Char

private def mapRunes (table : Char → Char) (ascii : Char → Char) (s : String) : String :=
  String.ofList (s.toList.map fun c => if c.toNat < 0x80 then ascii c else table c)

def toUpper (tables : UnicodeTables) (s : String) : String :=
  mapRunes tables.toUpper Char.toUpper s

def toLower (tables : UnicodeTables) (s : String) : String :=
  mapRunes tables.toLower Char.toLower s

theorem toList_toUpper (tables : UnicodeTables) {s : String}
    (ascii : ∀ c ∈ s.toList, c.toNat < 0x80) :
    (toUpper tables s).toList = s.toList.map Char.toUpper := by
  rw [toUpper, mapRunes, String.toList_ofList]
  apply List.map_congr_left
  intro c member
  exact if_pos (ascii c member)

-- Besides the ASCII letters only the Kelvin sign and the long s fold onto an
-- ASCII letter, so folding is exact for comparisons against an ASCII string.
def foldRune (c : Char) : Char :=
  if c.toNat = 0x212A then 'k' else if c.toNat = 0x17F then 's' else c.toLower

def equalFold (s ascii : String) : Bool :=
  s.toList.map foldRune == ascii.toList.map foldRune

private def splitRunes (sep : Char) : Nat → List Char → List (List Char)
  | 0, _ => []
  | 1, cs => [cs]
  | n + 2, cs =>
      match cs.span (· != sep) with
      | (whole, []) => [whole]
      | (front, _ :: rest) => front :: splitRunes sep (n + 1) rest

def splitN (s : String) (sep : Char) (n : Nat) : List String :=
  (splitRunes sep n s.toList).map String.ofList

theorem splitN_two {s : String} {sep : Char} {front back : List Char} (clean : sep ∉ front)
    (shape : s.toList = front ++ sep :: back) :
    splitN s sep 2 = [String.ofList front, String.ofList back] := by
  have kept : ∀ c ∈ front, (c != sep) = true := by
    intro c member
    exact bne_iff_ne.mpr fun same => clean (same ▸ member)
  have span : (front ++ sep :: back).span (· != sep) = (front, sep :: back) := by
    rw [List.span_eq_takeWhile_dropWhile, List.takeWhile_append_of_pos kept,
      List.dropWhile_append_of_pos kept, List.takeWhile_cons_of_neg (by simp),
      List.dropWhile_cons_of_neg (by simp), List.append_nil]
  rw [splitN, shape, splitRunes, span]
  rfl

end Nexus.Go
