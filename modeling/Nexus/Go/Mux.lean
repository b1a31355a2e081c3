import Nexus.Go.Bytes
import Nexus.Go.Utf8
import Nexus.Lib.Uri

/-! `http.ServeMux` since Go 1.22, for patterns of a method and a path whose
segments are literals and single wildcards, and the parts of `net/url` that
handlers use. Patterns that agree on a request are those of one path, so the
order of registration does not matter. -/

set_option autoImplicit false

namespace Nexus.Go

open Nexus.Lib

/-! ## Escapes -/

/-- `url.unescape`: `none` is an error. In a query a plus sign is a space. -/
def unescape (query : Bool) : List UInt8 → Option (List UInt8)
  | [] => some []
  | a :: rest =>
      if a = 0x25 then
        match rest with
        | high :: low :: rest =>
            match Uri.hexValue high, Uri.hexValue low with
            | some x, some y => (unescape query rest).map fun decoded => (16 * x + y) :: decoded
            | _, _ => none
        | _ => none
      else
        (unescape query rest).map fun decoded =>
          (if query && a == 0x2B then 0x20 else a) :: decoded

/-- The bytes as a string. Those that are not UTF-8 become the replacement
character, which no identifier and no number contains. -/
def ofBytes (src : List UInt8) : String := String.ofList (runes src)

/-- A segment that does not decode stands for itself. -/
def pathUnescape (segment : String) : String :=
  match unescape false (bytes segment) with
  | some decoded => ofBytes decoded
  | none => segment

def queryUnescape (text : String) : Option String := (unescape true (bytes text)).map ofBytes

/-! ## Paths -/

/-- What `path.Clean` keeps of the segments of a rooted path. -/
def cleanSegments (segments : List (List Char)) : List (List Char) :=
  segments.foldl (fun kept segment =>
    if segment = [] ∨ segment = ['.'] then kept
    else if segment = ['.', '.'] then kept.dropLast
    else kept ++ [segment]) []

def cleanPath (path : String) : String :=
  let rooted := if path.toList.head? = some '/' then path.toList else '/' :: path.toList
  let kept := cleanSegments (rooted.splitOn '/')
  let cleaned := '/' :: ['/'].intercalate kept
  String.ofList (if kept ≠ [] ∧ rooted.getLast? = some '/' then cleaned ++ ['/'] else cleaned)

/-- A slash at the end is a segment of its own. -/
def pathSegments : List (List Char) → List String
  | [] => []
  | [[]] => ["/"]
  | segment :: segments => pathUnescape (String.ofList segment) :: pathSegments segments

/-- The decoded segments of a path, each of which follows a slash. -/
def segments (path : String) : List String := pathSegments (path.toList.splitOn '/').tail

/-! ## Patterns -/

inductive Segment where
  | literal (text : String)
  | wildcard (name : String)

structure Pattern where
  method : String
  path : List Segment

/-- The values of the wildcards, if the path matches. -/
def matchPath : List Segment → List String → Option (List (String × String))
  | [], [] => some []
  | .literal text :: pattern, segment :: path =>
      if segment = text then matchPath pattern path else none
  | .wildcard name :: pattern, segment :: path =>
      if segment = "/" then none
      else (matchPath pattern path).map fun values => (name, segment) :: values
  | _, _ => none

variable {Handler : Type}

/-- The handler of a path under one method. -/
def matchMethod (patterns : List (Pattern × Handler)) (method : String) (path : List String) :
    Option (Handler × List (String × String)) :=
  patterns.findSome? fun registered =>
    if registered.1.method = method then
      (matchPath registered.1.path path).map fun values => (registered.2, values)
    else none

/-- A request for the head alone may be answered by a handler for `GET`. -/
def matchRequest (patterns : List (Pattern × Handler)) (method : String) (path : List String) :
    Option (Handler × List (String × String)) :=
  (matchMethod patterns method path).or
    (if method = "HEAD" then matchMethod patterns "GET" path else none)

/-- The methods that the path has a handler for, in order. -/
def matchingMethods (patterns : List (Pattern × Handler)) (path : List String) : List String :=
  ["DELETE", "GET", "HEAD", "POST"].filter fun method =>
    (matchRequest patterns method path).isSome

inductive Dispatch (Handler : Type) where
  | redirect (path : String)
  | handler (handler : Handler) (values : List (String × String))
  | methodNotAllowed (allowed : List String)
  | notFound

/-- `mux.findHandler`. No pattern ends in a slash, so that a path is never
redirected to the same with one. -/
def findHandler (patterns : List (Pattern × Handler)) (method escapedPath : String) :
    Dispatch Handler :=
  let path := if method = "CONNECT" then escapedPath else cleanPath escapedPath
  if path ≠ escapedPath then .redirect path
  else
    match matchRequest patterns method (segments path) with
    | some (handler, values) => .handler handler values
    | none =>
        match matchingMethods patterns (segments path) with
        | [] => .notFound
        | allowed => .methodNotAllowed allowed

/-! ## Queries -/

/-- One setting of a query: those with a semicolon, without a name or with a
wrong escape are left out. -/
def parseSetting (setting : List Char) : Option (String × String) :=
  if ';' ∈ setting ∨ setting = [] then none
  else
    match queryUnescape (String.ofList (Uri.upTo '=' setting)),
      queryUnescape (String.ofList (Uri.after '=' setting)) with
    | some name, some value => some (name, value)
    | _, _ => none

/-- `r.URL.Query().Get(name)`: the first value, or the empty string. -/
def queryGet (rawQuery name : String) : String :=
  match ((rawQuery.toList.splitOn '&').filterMap parseSetting).find? fun setting =>
    setting.1 == name with
  | some setting => setting.2
  | none => ""

/-! ## Redirects -/

def escapeByte (byte : UInt8) : List Char :=
  ['%', (Nat.digitChar (byte.toNat / 16)).toUpper, (Nat.digitChar (byte.toNat % 16)).toUpper]

/-- Whether `url.escape` keeps a byte of a path. -/
def keptInPath (byte : UInt8) : Bool :=
  let c := Char.ofNat byte.toNat
  byte < 0x80 && (c.isAlphanum || "-_.~$&+,/:;=@".toList.contains c)

def escapePath (path : String) : List Char :=
  (bytes path).flatMap fun byte =>
    if keptInPath byte then [Char.ofNat byte.toNat] else escapeByte byte

def hexEscapeNonASCII (text : String) : List Char :=
  text.toList.flatMap fun c =>
    if c.toNat < 0x80 then [c]
    else (String.utf8EncodeChar c).flatMap fun byte =>
      '%' :: Nat.toDigits 16 byte.toNat

/-- The URL of a path that is escaped already, and so is escaped twice. -/
def urlString (path rawQuery : String) : String :=
  String.ofList (escapePath path) ++ (if rawQuery = "" then "" else "?" ++ rawQuery)

def htmlEscape (text : String) : String :=
  String.ofList (text.toList.flatMap fun c =>
    if c = '&' then "&amp;".toList
    else if c = '<' then "&lt;".toList
    else if c = '>' then "&gt;".toList
    else if c = Char.ofNat 0x22 then "&#34;".toList
    else if c = Char.ofNat 0x27 then "&#39;".toList
    else [c])

end Nexus.Go
