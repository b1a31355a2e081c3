import Mathlib.Data.List.Induction
import Nexus.Go.JsonText

/-! The input function of type JSONB on what `json.Marshal` makes of a string
map: `null`, or a flat object of strings without white space between tokens.
JSONB has no way to hold the character NUL. Go writes no surrogate escapes, and
here they are refused like unpaired ones. -/

set_option autoImplicit false

namespace Nexus.Postgres

open Nexus.Go.JsonText

inductive JsonbError where
  | invalidTextRepresentation
  | untranslatableCharacter
  deriving DecidableEq

/-- A JSONB value, as far as audit metadata goes. -/
inductive Jsonb where
  | null
  | object (members : List (String × String))
  deriving DecidableEq

def hexValue (c : Char) : Option Nat :=
  if '0' ≤ c ∧ c ≤ '9' then some (c.toNat - '0'.toNat)
  else if 'a' ≤ c ∧ c ≤ 'f' then some (c.toNat - 'a'.toNat + 10)
  else if 'A' ≤ c ∧ c ≤ 'F' then some (c.toNat - 'A'.toNat + 10)
  else none

def unescape (letter : Char) : Option Char :=
  if letter = quote ∨ letter = backslash ∨ letter = '/' then some letter
  else if letter = 'b' then some (Char.ofNat 0x08)
  else if letter = 'f' then some (Char.ofNat 0x0C)
  else if letter = 'n' then some (Char.ofNat 0x0A)
  else if letter = 'r' then some (Char.ofNat 0x0D)
  else if letter = 't' then some (Char.ofNat 0x09)
  else none

def unescapeUnicode (first second third fourth : Char) : Except JsonbError Char :=
  match hexValue first, hexValue second, hexValue third, hexValue fourth with
  | some a, some b, some c, some d =>
      let code := ((a * 16 + b) * 16 + c) * 16 + d
      if code = 0 then .error .untranslatableCharacter
      else if 0xD800 ≤ code ∧ code < 0xE000 then .error .invalidTextRepresentation
      else .ok (Char.ofNat code)
  | _, _, _, _ => .error .invalidTextRepresentation

/-- The characters of a string after its opening quote, and the rest. -/
def lexString : List Char → Except JsonbError (List Char × List Char)
  | [] => .error .invalidTextRepresentation
  | c :: rest =>
      if c = quote then .ok ([], rest)
      else if c = backslash then
        match rest with
        | 'u' :: first :: second :: third :: fourth :: rest =>
            match unescapeUnicode first second third fourth with
            | .error err => .error err
            | .ok c => (lexString rest).map fun lexed => (c :: lexed.1, lexed.2)
        | letter :: rest =>
            match unescape letter with
            | none => .error .invalidTextRepresentation
            | some c => (lexString rest).map fun lexed => (c :: lexed.1, lexed.2)
        | [] => .error .invalidTextRepresentation
      else if c.toNat < 0x20 then .error .invalidTextRepresentation
      else (lexString rest).map fun lexed => (c :: lexed.1, lexed.2)

def parseString : List Char → Except JsonbError (String × List Char)
  | [] => .error .invalidTextRepresentation
  | c :: rest =>
      if c = quote then (lexString rest).map fun lexed => (String.ofList lexed.1, lexed.2)
      else .error .invalidTextRepresentation

def parseMember (text : List Char) : Except JsonbError ((String × String) × List Char) :=
  match parseString text with
  | .ok (key, ':' :: rest) => (parseString rest).map fun parsed => ((key, parsed.1), parsed.2)
  | .ok _ => .error .invalidTextRepresentation
  | .error err => .error err

/-- The members of an object up to its closing brace. Each takes a unit of fuel,
and a text has fewer of them than characters. -/
def parseMembers : Nat → List Char → Except JsonbError (List (String × String))
  | 0, _ => .error .invalidTextRepresentation
  | fuel + 1, text =>
      match parseMember text with
      | .error err => .error err
      | .ok (member, ',' :: rest) => (parseMembers fuel rest).map (member :: ·)
      | .ok (member, ['}']) => .ok [member]
      | .ok _ => .error .invalidTextRepresentation

def jsonb (text : String) : Except JsonbError Jsonb :=
  match text.toList with
  | ['n', 'u', 'l', 'l'] => .ok .null
  | ['{', '}'] => .ok (.object [])
  | '{' :: rest => (parseMembers rest.length rest).map .object
  | _ => .error .invalidTextRepresentation

end Nexus.Postgres
