import Nexus.Frontend.ApiCalls
import Nexus.JavaScript.EncodeProperties
import Nexus.JavaScript.Operators

/-! How the promise of a call ends. The answer to a call is not redirected. -/

set_option autoImplicit false

namespace Nexus.Frontend

open Nexus.Go Nexus.JavaScript Nexus.JavaScript.Json

inductive Settled where
  | resolved (data : Value)
  | refused (message : Value) -- what the client throws an `Error` with
  | broken -- an error of `fetch` or of `response.json()`

/-- `response.ok` -/
def ok (status : ℕ) : Bool := 200 ≤ status && status ≤ 299

def errorMessage (data : Value) (status : ℕ) : Value :=
  either (data.property "error") (either (data.property "message")
    (.string (ofString ("Request failed with status " ++ toString status))))

/-- `ApiClient.request` from its response on, and `checkHealth`, which looks at
no status. Without a response `fetch` rejects. -/
def ApiCall.settle (call : ApiCall) (response : Option Response) : Settled :=
  match response with
  | none => .broken
  | some response =>
      let parsed := responseJson response.body
      match call with
      | .checkHealth =>
          match parsed with
          | some data => .resolved data
          | none => .broken
      | _ =>
          let data := parsed.getD .null
          if ok response.status then .resolved data
          else .refused (errorMessage data response.status)

end Nexus.Frontend
