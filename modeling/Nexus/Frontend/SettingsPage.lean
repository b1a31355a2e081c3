import Nexus.Frontend.ApiClient
import Nexus.JavaScript.Json

/-! The settings page, as far as it decodes the payload of the session token. A
failure of `atob` or `JSON.parse` is caught and leaves `null`. -/

set_option autoImplicit false

namespace Nexus.Frontend

open Nexus.JavaScript

def decodedPayload (token : Option Token) : Option Json.Value :=
  match token with
  | none => none
  | some token =>
      let parts := (ofString token.text).splitOn '.'.toNat
      if parts.length = 3 then (atob (parts.getD 1 [])).bind Json.parse else none

end Nexus.Frontend
