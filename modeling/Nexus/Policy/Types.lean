import Nexus.Users.Model

/-! Access policies, the requests they judge and the results they give. A
decision is an arbitrary string of which the engine knows three. The policy
application and role `"*"` stand for any, and a maximal risk score of 0 is not
enforced. -/

set_option autoImplicit false
set_option linter.dupNamespace false

namespace Nexus.Policy

open Nexus.Users

abbrev Decision := String

def decisionAllow : Decision := "ALLOW"
def decisionDeny : Decision := "DENY"
def decisionRequireMFA : Decision := "REQUIRE_MFA"

structure Request where
  userID : String := ""
  role : Role
  application : String
  deviceTrusted : Bool := false
  mfaVerified : Bool := false
  riskScore : Int := 0
  ipAddress : String := ""
  deriving DecidableEq

structure Result where
  decision : Decision
  reason : String
  policyID : String := ""
  deriving DecidableEq

structure Policy where
  id : String := ""
  name : String
  role : Role
  application : String
  requireMFA : Bool
  requireTrusted : Bool
  maxRiskScore : Int
  decision : Decision
  enabled : Bool
  deriving DecidableEq

end Nexus.Policy
