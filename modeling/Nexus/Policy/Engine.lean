import Nexus.Policy.Types

/-! The policy engine, function by function. Identifiers drawn by `uuid.New`
and orders of iteration are arguments. `Policy.applies` holds the conditions of
the first loop of `Evaluate` and `Policy.objection` is one round of its second
loop: the result a policy returns early, or `none` when the loop goes on. -/

set_option autoImplicit false
set_option linter.dupNamespace false

namespace Nexus.Policy

open Nexus.Lib Nexus.Go Nexus.Users

structure Engine where
  policies : GoMap String Policy

def seedDefaults (first second third : String) : List Policy :=
  [ { id := first
      name := "Developer AWS Console Access"
      role := roleDeveloper
      application := "aws-console"
      requireMFA := true
      requireTrusted := true
      maxRiskScore := 70
      decision := decisionAllow
      enabled := true },
    { id := second
      name := "Admin Full Access"
      role := roleAdmin
      application := "*"
      requireMFA := true
      requireTrusted := false
      maxRiskScore := 50
      decision := decisionAllow
      enabled := true },
    { id := third
      name := "Viewer Read-Only"
      role := roleViewer
      application := "*"
      requireMFA := false
      requireTrusted := false
      maxRiskScore := 0
      decision := decisionAllow
      enabled := true } ]

def newEngine (first second third : String) : Engine where
  policies := (seedDefaults first second third).foldl
    (fun policies p => policies.insert p.id p) ∅

def Policy.applies (p : Policy) (req : Request) : Bool :=
  if !p.enabled then false
  else if p.role != req.role && p.role != "*" then false
  else if p.application != "*" && p.application != req.application then false
  else true

def Policy.exceedsRisk (p : Policy) (req : Request) : Bool :=
  decide (p.maxRiskScore > 0) && decide (req.riskScore > p.maxRiskScore)

def Policy.distrustsDevice (p : Policy) (req : Request) : Bool :=
  p.requireTrusted && !req.deviceTrusted

def Policy.wantsMFA (p : Policy) (req : Request) : Bool :=
  p.requireMFA && !req.mfaVerified

def Policy.objection (p : Policy) (req : Request) : Option Result :=
  if p.exceedsRisk req then
    some {
      decision := decisionDeny
      reason := s!"risk score {req.riskScore} exceeds policy maximum of {p.maxRiskScore}"
      policyID := p.id }
  else if p.distrustsDevice req then
    some {
      decision := decisionDeny
      reason := "trusted device required by policy"
      policyID := p.id }
  else if p.wantsMFA req then
    some {
      decision := decisionRequireMFA
      reason := "MFA verification required by policy"
      policyID := p.id }
  else if p.decision == decisionDeny then
    some {
      decision := decisionDeny
      reason := s!"policy '{p.name}' explicitly denies access"
      policyID := p.id }
  else none

def noPolicy (req : Request) : Result where
  decision := decisionDeny
  reason := s!"no policy grants role '{req.role}' access to '{req.application}'"

def granted : Result where
  decision := decisionAllow
  reason := "access granted by policy"

def evaluateMatching (req : Request) : List Policy → Result
  | [] => granted
  | p :: rest =>
      match p.objection req with
      | some result => result
      | none => evaluateMatching req rest

def Engine.evaluate (e : Engine) (order : e.policies.Order) (req : Request) : Result :=
  match order.values.filter (·.applies req) with
  | [] => noPolicy req
  | matching => evaluateMatching req matching

def Engine.createPolicy (e : Engine) (newID : String) (p : Policy) : Engine × Policy :=
  let stored := { p with id := newID }
  ({ e with policies := e.policies.insert newID stored }, stored)

def Engine.listPolicies (e : Engine) (order : e.policies.Order) : List Policy :=
  order.values

def Engine.getPolicy (e : Engine) (id : String) : Except String Policy :=
  match e.policies.lookup id with
  | none => .error s!"policy not found: {id}"
  | some p => .ok p

def Engine.updatePolicy (e : Engine) (p : Policy) : Engine × Except String Policy :=
  match e.policies.lookup p.id with
  | none => (e, .error s!"policy not found: {p.id}")
  | some _ => ({ e with policies := e.policies.insert p.id p }, .ok p)

def Engine.deletePolicy (e : Engine) (id : String) : Engine × Except String Unit :=
  match e.policies.lookup id with
  | none => (e, .error s!"policy not found: {id}")
  | some _ => ({ e with policies := e.policies.erase id }, .ok ())

end Nexus.Policy
