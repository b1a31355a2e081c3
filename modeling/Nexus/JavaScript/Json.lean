import Nexus.JavaScript.Strings

/-! `JSON.parse` without a reviver. A value that is a number is kept as its
literal, since which double it denotes is a matter of floating point. Each level
of nesting takes two units of fuel, and a text has fewer levels than units. -/

set_option autoImplicit false

namespace Nexus.JavaScript.Json

inductive Value where
  | null
  | boolean (value : Bool)
  /-- It stands for the double nearest to its literal, which is the literal itself for
  whole numbers from -(2^53 - 1) to 2^53 - 1. -/
  | number (literal : List ℕ)
  | string (units : List ℕ)
  | array (items : List Value)
  | object (members : List (List ℕ × Value))

def quote : ℕ := 0x22

def backslash : ℕ := 0x5C

def isSpace (unit : ℕ) : Bool := unit == 0x09 || unit == 0x0A || unit == 0x0D || unit == 0x20

def skipSpace (text : List ℕ) : List ℕ := text.dropWhile isSpace

/-! ## Strings -/

def hexValue (unit : ℕ) : Option ℕ :=
  if '0'.toNat ≤ unit ∧ unit ≤ '9'.toNat then some (unit - '0'.toNat)
  else if 'a'.toNat ≤ unit ∧ unit ≤ 'f'.toNat then some (unit - 'a'.toNat + 10)
  else if 'A'.toNat ≤ unit ∧ unit ≤ 'F'.toNat then some (unit - 'A'.toNat + 10)
  else none

def unescape (letter : ℕ) : Option ℕ :=
  if letter = quote ∨ letter = backslash ∨ letter = '/'.toNat then some letter
  else if letter = 'b'.toNat then some 0x08
  else if letter = 'f'.toNat then some 0x0C
  else if letter = 'n'.toNat then some 0x0A
  else if letter = 'r'.toNat then some 0x0D
  else if letter = 't'.toNat then some 0x09
  else none

def unescapeUnicode (first second third fourth : ℕ) : Option ℕ :=
  match hexValue first, hexValue second, hexValue third, hexValue fourth with
  | some a, some b, some c, some d => some (((a * 16 + b) * 16 + c) * 16 + d)
  | _, _, _, _ => none

/-- The units of a string after its opening quote, and the text after it. -/
def lexString : List ℕ → Option (List ℕ × List ℕ)
  | [] => none
  | unit :: rest =>
      if unit = quote then some ([], rest)
      else if unit = backslash then
        match rest with
        | [] => none
        | letter :: rest =>
            if letter = 'u'.toNat then
              match rest with
              | first :: second :: third :: fourth :: rest =>
                  match unescapeUnicode first second third fourth with
                  | none => none
                  | some unit => (lexString rest).map fun lexed => (unit :: lexed.1, lexed.2)
              | _ => none
            else
              match unescape letter with
              | none => none
              | some unit => (lexString rest).map fun lexed => (unit :: lexed.1, lexed.2)
      else if unit < 0x20 then none
      else (lexString rest).map fun lexed => (unit :: lexed.1, lexed.2)

/-! ## Numbers -/

def isDigit (unit : ℕ) : Bool := decide ('0'.toNat ≤ unit) && decide (unit ≤ '9'.toNat)

/-- One digit or more. -/
def lexDigits (text : List ℕ) : Option (List ℕ × List ℕ) :=
  let digits := text.takeWhile isDigit
  if digits = [] then none else some (digits, text.dropWhile isDigit)

def lexInteger : List ℕ → Option (List ℕ × List ℕ)
  | [] => none
  | unit :: rest => if unit = '0'.toNat then some ([unit], rest) else lexDigits (unit :: rest)

def lexFraction : List ℕ → Option (List ℕ × List ℕ)
  | [] => some ([], [])
  | unit :: rest =>
      if unit = '.'.toNat then (lexDigits rest).map fun lexed => (unit :: lexed.1, lexed.2)
      else some ([], unit :: rest)

def lexSign : List ℕ → List ℕ × List ℕ
  | [] => ([], [])
  | unit :: rest =>
      if unit = '+'.toNat ∨ unit = '-'.toNat then ([unit], rest) else ([], unit :: rest)

def lexExponent : List ℕ → Option (List ℕ × List ℕ)
  | [] => some ([], [])
  | unit :: rest =>
      if unit = 'e'.toNat ∨ unit = 'E'.toNat then
        let (sign, rest) := lexSign rest
        (lexDigits rest).map fun lexed => (unit :: sign ++ lexed.1, lexed.2)
      else some ([], unit :: rest)

def lexMinus : List ℕ → List ℕ × List ℕ
  | [] => ([], [])
  | unit :: rest => if unit = '-'.toNat then ([unit], rest) else ([], unit :: rest)

def lexNumber (text : List ℕ) : Option (List ℕ × List ℕ) :=
  let (minus, text) := lexMinus text
  match lexInteger text with
  | none => none
  | some (integer, text) =>
      match lexFraction text with
      | none => none
      | some (fraction, text) =>
          (lexExponent text).map fun lexed => (minus ++ integer ++ fraction ++ lexed.1, lexed.2)

/-! ## Values -/

def lexWord (word : String) (value : Value) (text : List ℕ) : Option (Value × List ℕ) :=
  let units := ofString word
  if units.isPrefixOf text then some (value, text.drop units.length) else none

def parseScalar (text : List ℕ) : Option (Value × List ℕ) :=
  match text with
  | [] => none
  | unit :: rest =>
      if unit = quote then
        (lexString rest).map fun lexed => (.string lexed.1, lexed.2)
      else if unit = 't'.toNat then lexWord "true" (.boolean true) text
      else if unit = 'f'.toNat then lexWord "false" (.boolean false) text
      else if unit = 'n'.toNat then lexWord "null" .null text
      else (lexNumber text).map fun lexed => (.number lexed.1, lexed.2)

/-- A repeated key keeps its place and takes the later value. -/
def setMember (key : List ℕ) (value : Value) :
    List (List ℕ × Value) → List (List ℕ × Value)
  | [] => [(key, value)]
  | member :: members =>
      if member.1 = key then (key, value) :: members
      else member :: setMember key value members

/-- A key and its colon. -/
def lexKey (text : List ℕ) : Option (List ℕ × List ℕ) :=
  match skipSpace text with
  | [] => none
  | unit :: rest =>
      if unit = quote then
        match lexString rest with
        | none => none
        | some (key, rest) =>
            match skipSpace rest with
            | [] => none
            | unit :: rest => if unit = ':'.toNat then some (key, rest) else none
      else none

mutual

def parseValue : ℕ → List ℕ → Option (Value × List ℕ)
  | 0, _ => none
  | fuel + 1, text =>
      match skipSpace text with
      | [] => none
      | unit :: rest =>
          if unit = '['.toNat then
            match skipSpace rest with
            | [] => none
            | next :: after =>
                if next = ']'.toNat then some (.array [], after) else parseItems fuel [] rest
          else if unit = '{'.toNat then
            match skipSpace rest with
            | [] => none
            | next :: after =>
                if next = '}'.toNat then some (.object [], after) else parseMembers fuel [] rest
          else parseScalar (unit :: rest)

/-- The items after those read before. -/
def parseItems : ℕ → List Value → List ℕ → Option (Value × List ℕ)
  | 0, _, _ => none
  | fuel + 1, items, text =>
      match parseValue fuel text with
      | none => none
      | some (item, rest) =>
          match skipSpace rest with
          | [] => none
          | unit :: rest =>
              if unit = ','.toNat then parseItems fuel (items ++ [item]) rest
              else if unit = ']'.toNat then some (.array (items ++ [item]), rest)
              else none

/-- The members after those read before. -/
def parseMembers : ℕ → List (List ℕ × Value) → List ℕ → Option (Value × List ℕ)
  | 0, _, _ => none
  | fuel + 1, members, text =>
      match lexKey text with
      | none => none
      | some (key, rest) =>
          match parseValue fuel rest with
          | none => none
          | some (value, rest) =>
              match skipSpace rest with
              | [] => none
              | unit :: rest =>
                  if unit = ','.toNat then parseMembers fuel (setMember key value members) rest
                  else if unit = '}'.toNat then some (.object (setMember key value members), rest)
                  else none

end

def parse (text : List ℕ) : Option Value :=
  match parseValue (2 * text.length) text with
  | none => none
  | some (value, rest) => if skipSpace rest = [] then some value else none

end Nexus.JavaScript.Json
