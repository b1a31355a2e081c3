import Mathlib.Data.List.DropRight

/-! What the scripts use of Python: the exceptions raised, `str`, and
`hmac.compare_digest`. A `str` without surrogates is a Lean `String`. The texts
of exceptions that carry no message of the scripts are left out. Upper case
above the ASCII range, where one character may become several, is a parameter. -/

set_option autoImplicit false

namespace Nexus.Python

inductive Raised where
  | valueError (text : String)
  | binasciiError (text : String)
  | structError
  | typeError
  | zeroDivisionError
  deriving DecidableEq

structure CaseTables where
  upper : Char → List Char

def upper (tables : CaseTables) (s : String) : String :=
  String.ofList (s.toList.flatMap fun c =>
    if c.toNat < 0x80 then [c.toUpper] else tables.upper c)

def isSpace (c : Char) : Bool :=
  let r := c.toNat
  (0x09 ≤ r && r ≤ 0x0D) || (0x1C ≤ r && r ≤ 0x20) || r == 0x85 || r == 0xA0 ||
    r == 0x1680 || (0x2000 ≤ r && r ≤ 0x200A) || r == 0x2028 || r == 0x2029 ||
    r == 0x202F || r == 0x205F || r == 0x3000

def strip (s : String) : String :=
  String.ofList ((s.toList.dropWhile isSpace).rdropWhile isSpace)

def isAscii (s : String) : Bool := s.toList.all fun c => c.toNat < 0x80

/-- `str.zfill`, for a string without a sign. -/
def zfill (s : String) (width : Nat) : String :=
  String.ofList (List.replicate (width - s.length) '0' ++ s.toList)

/-- `str` of an integer from 0 on. -/
def str (n : Nat) : String := String.ofList (Nat.toDigits 10 n)

def compareDigest (a b : String) : Except Raised Bool :=
  if isAscii a && isAscii b then .ok (a == b) else .error .typeError

end Nexus.Python
