import Nexus.JavaScript.Json
import Nexus.JavaScript.Utf16
import Nexus.Go.JsonText

/-! `JSON.stringify` of a flat object, and the bytes `fetch` sends for a string.
Numbers are integers that a double holds exactly, together with their neighbours:
JavaScript writes them digit by digit. -/

set_option autoImplicit false

namespace Nexus.JavaScript

/-- `Number.MAX_SAFE_INTEGER` -/
def maxSafeInteger : ℕ := 9007199254740991

/-- A number for which `Number.isSafeInteger` holds. -/
structure SafeInteger where
  val : Int
  safe : val.natAbs ≤ maxSafeInteger

/-- `Number::toString` -/
def SafeInteger.digits (number : SafeInteger) : List Char := Go.JsonText.appendInt number.val

/-- A value of a flat object. -/
inductive Member where
  | string (units : List ℕ)
  | boolean (value : Bool)
  | integer (value : SafeInteger)

namespace Json

def escapeUnit (unit : ℕ) : List ℕ := (Go.JsonText.unicodeEscape unit).map Char.toNat

/-- `UTF16EncodeCodePoint` -/
def encodePoint (point : ℕ) : List ℕ :=
  if point < 0x10000 then [point]
  else [0xD800 + (point - 0x10000) / 0x400, 0xDC00 + (point - 0x10000) % 0x400]

/-- The letter of the short escape of a code point, if it has one. -/
def escapeLetter (point : ℕ) : Option ℕ :=
  if point = quote ∨ point = backslash then some point
  else if point = 0x08 then some 'b'.toNat
  else if point = 0x09 then some 't'.toNat
  else if point = 0x0A then some 'n'.toNat
  else if point = 0x0C then some 'f'.toNat
  else if point = 0x0D then some 'r'.toNat
  else none

def quotePoint (point : ℕ) : List ℕ :=
  match escapeLetter point with
  | some letter => [backslash, letter]
  | none =>
      if point < 0x20 || isSurrogate point then escapeUnit point else encodePoint point

section
variable (render : ℕ → List ℕ)

/-- `QuoteJSONString`, for any way of writing a code point. -/
def quoteString (units : List ℕ) : List ℕ := quote :: (points units).flatMap render ++ [quote]

def stringifyMember : Member → List ℕ
  | .string units => quoteString render units
  | .boolean value => ofString (if value then "true" else "false")
  | .integer value => value.digits.map Char.toNat

def stringifyProperty (property : String × Member) : List ℕ :=
  quoteString render (ofString property.1) ++ ':'.toNat :: stringifyMember render property.2

def stringifyProperties : List (String × Member) → List ℕ
  | [] => []
  | [property] => stringifyProperty render property
  | property :: next :: properties =>
      stringifyProperty render property ++ ','.toNat :: stringifyProperties (next :: properties)

def stringifyObject (properties : List (String × Member)) : List ℕ :=
  '{'.toNat :: stringifyProperties render properties ++ ['}'.toNat]

end

def stringify (properties : List (String × Member)) : List ℕ :=
  stringifyObject quotePoint properties

end Json

/-- A string as the body of a request: UTF-8, without lone surrogates. -/
def toBytes (units : List ℕ) : List UInt8 := (scalars units).flatMap String.utf8EncodeChar

end Nexus.JavaScript
