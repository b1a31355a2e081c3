import Nexus.Go.Http
import Nexus.Go.Strings
import Nexus.Go.Utf8
import Nexus.JavaScript.Json
import Nexus.JavaScript.Utf16

/-! `json.NewDecoder(r.Body).Decode` into a struct. Only the first value of the
body is read. Its grammar is that of `JSON.parse`, here on code points, but
nesting is limited and an object keeps every member. A name that no field has
is looked for without regard to case, unknown members are skipped, `null` leaves
a field alone and a later member replaces an earlier one. Any value of another
type makes decoding fail, whatever the fields have been set to. Scanning takes
fuel as `JSON.parse` does. -/

set_option autoImplicit false

namespace Nexus.Go

open JavaScript (toText)
open JavaScript.Json (Value quote skipSpace lexKey parseScalar)

/-! ## Scanning -/

def maxNestingDepth : ℕ := 10000

mutual

/-- `depth` levels may still be opened. -/
def scanValue : ℕ → ℕ → List ℕ → Option (Value × List ℕ)
  | 0, _, _ => none
  | fuel + 1, depth, text =>
      match skipSpace text with
      | [] => none
      | unit :: rest =>
          if unit = '['.toNat then
            match depth, skipSpace rest with
            | 0, _ => none
            | _, [] => none
            | depth + 1, next :: after =>
                if next = ']'.toNat then some (.array [], after) else scanItems fuel depth [] rest
          else if unit = '{'.toNat then
            match depth, skipSpace rest with
            | 0, _ => none
            | _, [] => none
            | depth + 1, next :: after =>
                if next = '}'.toNat then some (.object [], after)
                else scanMembers fuel depth [] rest
          else parseScalar (unit :: rest)

/-- The items after those read before. -/
def scanItems : ℕ → ℕ → List Value → List ℕ → Option (Value × List ℕ)
  | 0, _, _, _ => none
  | fuel + 1, depth, items, text =>
      match scanValue fuel depth text with
      | none => none
      | some (item, rest) =>
          match skipSpace rest with
          | [] => none
          | unit :: rest =>
              if unit = ','.toNat then scanItems fuel depth (items ++ [item]) rest
              else if unit = ']'.toNat then some (.array (items ++ [item]), rest)
              else none

/-- The members after those read before. -/
def scanMembers : ℕ → ℕ → List (List ℕ × Value) → List ℕ → Option (Value × List ℕ)
  | 0, _, _, _ => none
  | fuel + 1, depth, members, text =>
      match lexKey text with
      | none => none
      | some (key, rest) =>
          match scanValue fuel depth rest with
          | none => none
          | some (value, rest) =>
              match skipSpace rest with
              | [] => none
              | unit :: rest =>
                  if unit = ','.toNat then
                    scanMembers fuel depth (members ++ [(key, value)]) rest
                  else if unit = '}'.toNat then some (.object (members ++ [(key, value)]), rest)
                  else none

end

def scan (text : List ℕ) : Option (Value × List ℕ) :=
  scanValue (2 * text.length) maxNestingDepth text

/-! ## Structs -/

/-- A field of a struct: the name in its tag, and how a value is stored in it. -/
structure StructField (S : Type) where
  name : String
  store : Value → S → Option S

variable {S : Type}

def textField (name : String) (put : String → S → S) : StructField S where
  name := name
  store
    | .string units, s => some (put (toText units) s)
    | .null, s => some s
    | _, _ => none

def boolField (name : String) (put : Bool → S → S) : StructField S where
  name := name
  store
    | .boolean value, s => some (put value s)
    | .null, s => some s
    | _, _ => none

/-- A field of type `int`, which takes numbers without fraction and exponent
only. -/
def intField (name : String) (put : Int → S → S) : StructField S where
  name := name
  store
    | .number literal, s =>
        (atoi (String.ofList (literal.map Char.ofNat))).map fun value => put value.toInt s
    | .null, s => some s
    | _, _ => none

def findField (fields : List (StructField S)) (key : String) : Option (StructField S) :=
  (fields.find? fun field => field.name == key).or
    (fields.find? fun field => equalFold key field.name)

def storeMember (fields : List (StructField S)) (s : S) (member : List ℕ × Value) : Option S :=
  match findField fields (toText member.1) with
  | none => some s
  | some field => field.store member.2 s

def unmarshal (fields : List (StructField S)) (zero : S) : Value → Option S
  | .object members => members.foldlM (storeMember fields) zero
  | .null => some zero
  | _ => none

/-! ## Bodies -/

def isNull : Value → Bool
  | .null => true
  | _ => false

/-- What reading a body yields, and whether an error ends it. -/
structure Reader where
  content : List UInt8
  fails : Bool := false

/-- `http.MaxBytesReader` -/
def Reader.maxBytes (limit : ℕ) (r : Reader) : Reader :=
  if limit < r.content.length then { content := r.content.take limit, fails := true } else r

/-- Only the end of the body shows that `null` goes no further. -/
def decode (fields : List (StructField S)) (zero : S) (r : Reader) : Option S :=
  match scan ((runes r.content).map Char.toNat) with
  | none => none
  | some (value, rest) =>
      if isNull value && rest.isEmpty && r.fails then none
      else unmarshal fields zero value

end Nexus.Go
