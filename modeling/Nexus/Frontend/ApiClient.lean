import Nexus.Users.Model

/-! The API client of the browser, with the copy of the session token it keeps
in `sessionStorage`. An empty token is falsy to the client, and the server
issues none, so tokens are nonempty and a missing one is `null`. -/

set_option autoImplicit false

namespace Nexus.Frontend

structure Token where
  text : String
  nonempty : text ≠ ""
  deriving DecidableEq

structure ApiClient where
  token : Option Token
  sessionStorage : Option Token -- the item nexus_auth_token
  deriving DecidableEq

def ApiClient.constructor (sessionStorage : Option Token) : ApiClient where
  token := sessionStorage
  sessionStorage := sessionStorage

def ApiClient.setToken (_ : ApiClient) (token : Option Token) : ApiClient where
  token := token
  sessionStorage := token

def ApiClient.getToken (api : ApiClient) : Option Token := api.token

/-- The token in the `Authorization` header of a request that starts now. -/
def ApiClient.authorization (api : ApiClient) : Option Token := api.token

end Nexus.Frontend
