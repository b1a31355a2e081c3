import Mathlib.Data.Nat.Notation

/-! How `json.Marshal` writes strings, string maps and flat structs. It escapes
what HTML could misread and the two line separators of JavaScript, besides what
JSON demands. Maps are lists in the order of their keys, the empty list being
nil, and structs are lists in the order of their fields. -/

set_option autoImplicit false

namespace Nexus.Go.JsonText

def quote : Char := Char.ofNat 0x22

def backslash : Char := Char.ofNat 0x5C

def hexDigit (value : Nat) : Char :=
  ['0', '1', '2', '3', '4', '5', '6', '7', '8', '9', 'a', 'b', 'c', 'd', 'e', 'f'].getD value '0'

def unicodeEscape (code : Nat) : List Char :=
  [backslash, 'u', hexDigit (code / 0x1000 % 16), hexDigit (code / 0x100 % 16),
    hexDigit (code / 0x10 % 16), hexDigit (code % 16)]

/-- The letter of the short escape of a character, if it has one. -/
def shortEscape (c : Char) : Option Char :=
  if c = backslash ∨ c = quote then some c
  else if c.toNat = 0x08 then some 'b'
  else if c.toNat = 0x0C then some 'f'
  else if c.toNat = 0x0A then some 'n'
  else if c.toNat = 0x0D then some 'r'
  else if c.toNat = 0x09 then some 't'
  else none

def escape (c : Char) : List Char :=
  match shortEscape c with
  | some letter => [backslash, letter]
  | none =>
      if c.toNat < 0x20 ∨ c = '<' ∨ c = '>' ∨ c = '&' ∨ c.toNat = 0x2028 ∨ c.toNat = 0x2029 then
        unicodeEscape c.toNat
      else [c]

def appendString (text : String) : List Char :=
  quote :: text.toList.flatMap escape ++ [quote]

def appendMember (member : String × String) : List Char :=
  appendString member.1 ++ ':' :: appendString member.2

def appendMembers : List (String × String) → List Char
  | [] => []
  | [member] => appendMember member
  | member :: members => appendMember member ++ ',' :: appendMembers members

def marshal (map : List (String × String)) : String :=
  if map = [] then "null" else String.ofList ('{' :: appendMembers map ++ ['}'])

/-! ## Structs -/

inductive Scalar where
  | str (value : String)
  | int (value : Int)
  deriving DecidableEq

def appendInt (value : Int) : List Char :=
  if value < 0 then '-' :: Nat.toDigits 10 value.natAbs else Nat.toDigits 10 value.natAbs

def appendScalar : Scalar → List Char
  | .str value => appendString value
  | .int value => appendInt value

def appendField (field : String × Scalar) : List Char :=
  appendString field.1 ++ ':' :: appendScalar field.2

def appendFields : List (String × Scalar) → List Char
  | [] => []
  | [field] => appendField field
  | field :: fields => appendField field ++ ',' :: appendFields fields

def marshalStruct (fields : List (String × Scalar)) : String :=
  String.ofList ('{' :: appendFields fields ++ ['}'])

end Nexus.Go.JsonText
