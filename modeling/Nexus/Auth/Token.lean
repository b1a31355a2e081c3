import Nexus.Auth.Service
import Nexus.Go.Base64
import Nexus.Go.JsonText

/-! The text of a token. Package `jwt` joins three segments with dots, each in
unpadded URL Base64, and the second one is the claims as JSON in UTF-8. Dates
are whole seconds, its default precision. The third segment is the HMAC of the
other two, which are compared as they stand, whereas any text that decodes to
the HMAC is accepted for it. -/

set_option autoImplicit false

namespace Nexus.Auth

open Nexus.Go Nexus.Go.JsonText

def stringField (name value : String) : List (String × Scalar) :=
  if value = "" then [] else [(name, .str value)]

def dateField (name : String) : Option Time → List (String × Scalar)
  | none => []
  | some date => [(name, .int (Time.unix (Time.truncate date)))]

/-- Registered claims are tagged `omitempty`. -/
def Claims.fields (claims : Claims) : List (String × Scalar) :=
  [("user_id", .str claims.userID), ("username", .str claims.username),
    ("role", .str claims.role)] ++
    stringField "iss" claims.issuer ++ dateField "exp" claims.expiresAt ++
    dateField "nbf" claims.notBefore ++ dateField "iat" claims.issuedAt ++
    stringField "jti" claims.id

def Claims.json (claims : Claims) : String := marshalStruct claims.fields

def compact (header payload signature : List UInt8) : String :=
  String.ofList (Base64.rawURLEncode header ++ '.' :: (Base64.rawURLEncode payload ++
    '.' :: Base64.rawURLEncode signature))

/-- The library signs the claims in this form, with some header and some
signature. -/
def Jwt.Compact (jwt : Jwt) : Prop :=
  ∀ claims key token, jwt.signedString .hs256 claims key = .ok token →
    ∃ header signature, token = compact header (bytes claims.json) signature

/-! ## Reading -/

/-- What a token carries: the text that its HMAC is computed over, and the HMAC. -/
structure Segments where
  signingString : String
  signature : List UInt8
  deriving DecidableEq

def segments (token : String) : Option Segments :=
  match token.toList.splitOn '.' with
  | [header, payload, signature] =>
      (Base64.rawURLDecode signature).map fun mac =>
        { signingString := String.ofList (header ++ '.' :: payload), signature := mac }
  | _ => none

/-- The library reads header and claims off the signing string, and verifies an
HMAC by computing it again. -/
structure Jwt.Segmented (jwt : Jwt) (hmac : SigningMethod → Key → String → List UInt8) :
    Prop where
  parses : ∀ token other read same, segments token = some read → segments other = some same →
    read.signingString = same.signingString →
    jwt.parseUnverified token = jwt.parseUnverified other
  verifies : ∀ method key token, method.isHMAC = true →
    (jwt.verify method key token = true ↔ ∃ read, segments token = some read ∧
      read.signature = hmac method key read.signingString)

/-- Both tokens carry the same signed text, whatever HMAC each has beside it. -/
def SameContent (token other : String) : Prop :=
  ∃ read same, segments token = some read ∧ segments other = some same ∧
    read.signingString = same.signingString

/-- Both tokens carry the same signed text and the same HMAC, however each is
spelled. -/
def SameSegments (token other : String) : Prop :=
  ∃ read, segments token = some read ∧ segments other = some read

end Nexus.Auth
