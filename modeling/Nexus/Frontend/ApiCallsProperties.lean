import Nexus.Frontend.ApiCalls
import Nexus.Go.MuxProperties
import Nexus.JavaScript.StringifyProperties
import Nexus.Server.FrontDoorProperties

/-! Every call of the API client arrives at its handler with its arguments: the
body that JavaScript writes is the request that Go decodes, and the path and the
query are those that the router reads. -/

set_option autoImplicit false

namespace Nexus.Frontend

open Nexus.Go Nexus.Auth Nexus.Policy Nexus.Server Nexus.JavaScript Nexus.JavaScript.Json

/-! ## Members -/

/-- The integers of the server. -/
def IsInt (value : ℤ) : Prop := Int64.minValue.toInt ≤ value ∧ value ≤ Int64.maxValue.toInt

theorem atoi_appendInt {value : ℤ} (fits : IsInt value) :
    atoi (String.ofList (((JsonText.appendInt value).map Char.toNat).map Char.ofNat)) =
      some (Int64.ofInt value) := by
  have same : ((JsonText.appendInt value).map Char.toNat).map Char.ofNat =
      (if value < 0 then ['-'] else []) ++ Nat.toDigits 10 value.natAbs := by
    rw [List.map_map, JsonText.appendInt]
    have back : Char.ofNat ∘ Char.toNat = id := funext Char.ofNat_toNat
    rw [back, List.map_id]
    split <;> rfl
  have read := atoi_decimal (decide (value < 0)) value.natAbs
  simp only [decide_eq_true_eq] at read
  have whole : (if value < 0 then -1 else 1) * (value.natAbs : ℤ) = value := by
    split <;> omega
  rw [same, read, whole]
  exact if_pos fits

theorem isInt_safe (value : SafeInteger) : IsInt value.val := by
  have least : Int64.minValue.toInt = -2 ^ 63 := by decide
  have most : Int64.maxValue.toInt = 2 ^ 63 - 1 := by decide
  have safe : value.val.natAbs ≤ 9007199254740991 := value.safe
  rw [IsInt, least, most]
  omega

theorem toInt_ofInt {value : ℤ} (fits : IsInt value) : (Int64.ofInt value).toInt = value := by
  have least : Int64.minValue.toInt = -2 ^ 63 := by decide
  have most : Int64.maxValue.toInt = 2 ^ 63 - 1 := by decide
  rw [IsInt, least, most] at fits
  exact Int64.toInt_ofInt_of_le fits.1 (by omega)

section
variable {S : Type}

theorem storeMember_readProperty (fields : List (StructField S)) (s : S) (name : String)
    (member : Member) :
    storeMember fields s (readProperty (name, member)) =
      (match findField fields name with
       | none => some s
       | some field => field.store (readMember member) s) := by
  cases found : findField fields name with
  | none => simp only [readProperty, storeMember, toText_points, toText_ofString, found]
  | some field => simp only [readProperty, storeMember, toText_points, toText_ofString, found]

theorem textField_name (name : String) (put : String → S → S) :
    (textField name put).name = name := rfl

theorem boolField_name (name : String) (put : Bool → S → S) :
    (boolField name put).name = name := rfl

theorem intField_name (name : String) (put : Int → S → S) :
    (intField name put).name = name := rfl

theorem store_string (name : String) (put : String → S → S) (units : List ℕ) (s : S) :
    (textField name put).store (readMember (.string units)) s = some (put (toText units) s) := by
  rw [readMember, textField]
  simp only [toText_points]

theorem store_boolean (name : String) (put : Bool → S → S) (value : Bool) (s : S) :
    (boolField name put).store (readMember (.boolean value)) s = some (put value s) := rfl

theorem store_integer (name : String) (put : Int → S → S) (value : SafeInteger) (s : S) :
    (intField name put).store (readMember (.integer value)) s = some (put value.val s) := by
  rw [readMember, intField]
  simp only [atoi_appendInt (isInt_safe value), Option.map_some,
    toInt_ofInt (isInt_safe value)]

end

/-! ## Bodies -/

/-- What arrives as it was sent. -/
def Fits : Member → Prop
  | .string units => IsString units
  | .boolean _ | .integer _ => True

/-- The server reads the whole body and finds every member in it. -/
structure Sendable (members : List (String × Member)) : Prop where
  fit : ∀ property ∈ members, Fits property.2
  short : (toBytes (stringify members)).length ≤ 1 <<< 20

theorem Sendable.strings {members : List (String × Member)} (sendable : Sendable members) :
    StringsIn members := by
  intro property listed units shape
  have fits := sendable.fit property listed
  rwa [shape] at fits

/-- A body as the router gets it. -/
def received (members : List (String × Member)) : Reader :=
  Reader.maxBytes (1 <<< 20) { content := toBytes (stringify members) }

theorem decode_received {S : Type} {members : List (String × Member)}
    (sendable : Sendable members) (nonempty : members ≠ []) (fields : List (StructField S))
    (zero : S) :
    decode fields zero (received members) =
      (members.map readProperty).foldlM (storeMember fields) zero :=
  decode_stringify sendable.strings nonempty sendable.short fields zero

theorem registerRequest_received {username password role : List ℕ}
    (sendable : Sendable [("username", .string username), ("password", .string password),
      ("role", .string role)]) :
    registerRequest (received [("username", .string username), ("password", .string password),
      ("role", .string role)]) =
      some { username := toText username, password := toText password, role := toText role } := by
  rw [registerRequest, decode_received sendable (by simp)]
  simp [storeMember_readProperty, findField, textField_name, store_string]

theorem loginRequest_received {username password : List ℕ}
    (sendable : Sendable [("username", .string username), ("password", .string password)]) :
    loginRequest (received [("username", .string username), ("password", .string password)]) =
      some { username := toText username, password := toText password } := by
  rw [loginRequest, decode_received sendable (by simp)]
  simp [storeMember_readProperty, findField, textField_name, store_string]

theorem mfaVerifyRequest_received {code : List ℕ} (sendable : Sendable [("code", .string code)]) :
    mfaVerifyRequest (received [("code", .string code)]) = some { code := toText code } := by
  rw [mfaVerifyRequest, decode_received sendable (by simp)]
  simp [storeMember_readProperty, findField, textField_name, store_string]

theorem createPolicyRequest_received {policy : PolicyDraft} (sendable : Sendable policy.members) :
    createPolicyRequest (received policy.members) = some {
      name := toText policy.name
      role := toText policy.role
      application := toText policy.application
      requireMFA := policy.requireMFA
      requireTrusted := policy.requireTrustedDevice
      maxRiskScore := policy.maxRiskScore.val
      decision := toText policy.decision
      enabled := policy.enabled } := by
  rw [createPolicyRequest, decode_received sendable (by simp [PolicyDraft.members])]
  simp [PolicyDraft.members, storeMember_readProperty, findField, textField_name, boolField_name,
    intField_name, store_string, store_boolean, store_integer]

theorem accessCheckRequest_received {req : AccessCheck} (sendable : Sendable req.members) :
    accessCheckRequest (received req.members) = some {
      application := toText req.application
      deviceTrusted := req.deviceTrusted
      mfaVerified := req.mfaVerified
      riskScore := req.riskScore.val } := by
  rw [accessCheckRequest, decode_received sendable (by simp [AccessCheck.members])]
  simp [AccessCheck.members, storeMember_readProperty, findField, textField_name, boolField_name,
    intField_name, store_string, store_boolean, store_integer]

/-! ## URLs -/

def ApiCall.words : ApiCall → List String
  | .register _ _ _ => ["api", "v1", "auth", "register"]
  | .login _ _ => ["api", "v1", "auth", "login"]
  | .getMe => ["api", "v1", "auth", "me"]
  | .getAdminOnly => ["api", "v1", "admin-only"]
  | .getUserOrAdmin => ["api", "v1", "user-or-admin"]
  | .listUsers => ["api", "v1", "users"]
  | .listPolicies | .createPolicy _ => ["api", "v1", "policies"]
  | .deletePolicy id => ["api", "v1", "policies", id.text]
  | .checkAccess _ => ["api", "v1", "access", "check"]
  | .setupMFA => ["api", "v1", "mfa", "setup"]
  | .verifyMFA _ => ["api", "v1", "mfa", "verify"]
  | .listAuditLogs _ _ => ["api", "v1", "audit"]
  | .checkHealth => ["health"]

theorem ApiCall.path_eq (call : ApiCall) : call.path = pathOf call.words := by
  cases call with
  | deletePolicy id =>
      apply String.toList_inj.mp
      simp [path, apiBase, pathOf, words, List.intercalate_cons_cons]
  | _ =>
      dsimp only [path, words]
      decide

theorem ApiCall.plain_words (call : ApiCall) : ∀ word ∈ call.words, Plain word := by
  cases call with
  | deletePolicy id =>
      have plain : Plain id.text := {
        nonempty := id.nonempty
        chars := fun c member => by
          rcases id.plain c member with word | rfl
          · simp [plainChar, word]
          · decide }
      simp only [words, List.forall_mem_cons]
      exact ⟨by decide, by decide, by decide, plain, List.forall_mem_nil _⟩
  | _ =>
      dsimp only [words]
      exact List.all_iff_forall_prop.mp (by decide)

theorem plain_numeral (number : SafeInteger) : Plain (numeral number) where
  nonempty := by
    intro empty
    have digits := congrArg String.toList empty
    rw [numeral, String.toList_ofList] at digits
    obtain ⟨unit, others, shape, _⟩ := appendInt_head number.val
    rw [SafeInteger.digits] at digits
    rw [digits] at shape
    cases shape
  chars := by
    intro c member
    rw [numeral, String.toList_ofList] at member
    have plain : ∀ c : Char, isDigit c.toNat = true → plainChar c = true := by
      intro c between
      have digit : c.isDigit = true := between
      simp [plainChar, Char.isAlphanum, digit]
    exact forall_appendInt (by decide) plain number.val c member

theorem query_listAuditLogs (page pageSize : SafeInteger) :
    (ApiCall.listAuditLogs page pageSize).query =
      queryOf [("page", numeral page), ("page_size", numeral pageSize)] := by
  apply String.toList_inj.mp
  simp [ApiCall.query, queryOf, List.intercalate_cons_cons]

theorem queryGet_listAuditLogs (page pageSize : SafeInteger) :
    queryGet (ApiCall.listAuditLogs page pageSize).query "page" = numeral page ∧
      queryGet (ApiCall.listAuditLogs page pageSize).query "page_size" = numeral pageSize := by
  have plain : ∀ setting ∈ [("page", numeral page), ("page_size", numeral pageSize)],
      Plain setting.1 ∧ Plain setting.2 := by
    simp only [List.forall_mem_cons]
    exact ⟨⟨by decide, plain_numeral page⟩, ⟨by decide, plain_numeral pageSize⟩,
      List.forall_mem_nil _⟩
  rw [query_listAuditLogs, queryGet, queryGet, settings_queryOf (List.cons_ne_nil _ _) plain]
  exact ⟨rfl, rfl⟩

/-! ## Calls -/

/-- The body of the call, if it has one, arrives whole. -/
def ApiCall.Sendable (call : ApiCall) : Prop :=
  ∀ members, call.options.body = some members → Frontend.Sendable members

/-- Any text may be registered with that fits the limit of the body. -/
theorem ApiCall.sendable_register {username password role : String}
    (short : (ApiCall.register (ofString username) (ofString password)
      (ofString role)).options.bytes.length ≤ 1 <<< 20) :
    (ApiCall.register (ofString username) (ofString password) (ofString role)).Sendable := by
  rintro members ⟨⟩
  refine ⟨?_, short⟩
  simp only [List.forall_mem_cons]
  exact ⟨ofString_isString _, ofString_isString _, ofString_isString _, List.forall_mem_nil _⟩

theorem ApiCall.sendable_login {username password : String}
    (short : (ApiCall.login (ofString username) (ofString password)).options.bytes.length ≤
      1 <<< 20) :
    (ApiCall.login (ofString username) (ofString password)).Sendable := by
  rintro members ⟨⟩
  refine ⟨?_, short⟩
  simp only [List.forall_mem_cons]
  exact ⟨ofString_isString _, ofString_isString _, List.forall_mem_nil _⟩

/-- What the router finds for a call. -/
theorem ApiCall.matched {call : ApiCall} (sendable : call.Sendable) :
    ∃ endpoint values,
      matchRequest endpoints call.options.method call.words = some (endpoint, values) ∧
        ∀ r : Middleware.Request, r.rawQuery = call.query →
          (∀ members, call.options.body = some members → r.body = received members) →
          endpoint r values = call.route := by
  cases call with
  | register username password role =>
      refine ⟨_, _, rfl, fun r _ body => ?_⟩
      have arrived := body _ rfl
      dsimp only
      rw [arrived, registerRequest_received (sendable _ rfl)]
      rfl
  | login username password =>
      refine ⟨_, _, rfl, fun r _ body => ?_⟩
      have arrived := body _ rfl
      dsimp only
      rw [arrived, loginRequest_received (sendable _ rfl)]
      rfl
  | verifyMFA code =>
      refine ⟨_, _, rfl, fun r _ body => ?_⟩
      have arrived := body _ rfl
      dsimp only
      rw [arrived, mfaVerifyRequest_received (sendable _ rfl)]
      rfl
  | createPolicy policy =>
      refine ⟨_, _, rfl, fun r _ body => ?_⟩
      have arrived := body _ rfl
      dsimp only
      rw [arrived, createPolicyRequest_received (sendable _ rfl)]
      rfl
  | checkAccess req =>
      refine ⟨_, _, rfl, fun r _ body => ?_⟩
      have arrived := body _ rfl
      dsimp only
      rw [arrived, accessCheckRequest_received (sendable _ rfl)]
      rfl
  | listAuditLogs page pageSize =>
      refine ⟨_, _, rfl, fun r query _ => ?_⟩
      obtain ⟨pageRead, sizeRead⟩ := queryGet_listAuditLogs page pageSize
      dsimp only
      rw [query, pageRead, sizeRead]
      rfl
  | deletePolicy id =>
      have notSlash : id.text ≠ "/" := by
        intro slash
        have plain := id.plain '/' (by simp [slash])
        exact absurd plain (by decide)
      refine ⟨fun _ values => .deletePolicy (pathValue values "id"), [("id", id.text)], ?_, ?_⟩
      · simp [matchRequest, matchMethod, endpoints, apiPath, matchPath, options, words, notSlash]
      · exact fun _ _ _ => rfl
  | _ => exact ⟨_, _, rfl, fun _ _ _ => rfl⟩

theorem ApiCall.method_ne (call : ApiCall) : call.options.method ≠ "OPTIONS" := by
  cases call <;> simp [options]

theorem ApiClient.requestURI_ne (api : ApiClient) (network : Network) (call : ApiCall) :
    (api.request network call).requestURI ≠ "*" := by
  intro star
  have head : ∀ rest : String, (call.path ++ rest).toList.head? = some '/' := by
    intro rest
    rw [call.path_eq, String.toList_append, pathOf, String.toList_ofList]
    rfl
  have first : (api.request network call).requestURI.toList.head? = some '/' := by
    simp only [ApiClient.request]
    split
    · simpa using head ""
    · exact head _
  rw [star] at first
  exact absurd first (by decide)

/-- A token that survives the header. -/
theorem extractBearerToken_bearer {r : HttpRequest} {token : String} (nonempty : token ≠ "")
    (trimmed : trimSpace token = token) (header : r.authorization = "Bearer " ++ token) :
    extractBearerToken r = some token := by
  have split : splitN ("Bearer " ++ token) ' ' 2 = ["Bearer", token] := by
    have clean : ' ' ∉ "Bearer".toList := by decide
    have shape : ("Bearer " ++ token).toList = "Bearer".toList ++ ' ' :: token.toList := by simp
    simpa using splitN_two clean shape
  have present : "Bearer " ++ token ≠ "" := by
    intro empty
    have lengths := congrArg String.toList empty
    simp at lengths
  have scheme : equalFold "Bearer" "Bearer" = true := by decide
  simp only [extractBearerToken, header, present, if_false, split, scheme, trimmed, nonempty]
  rfl

/-- Every call of the client arrives at its handler with its arguments. -/
theorem api_call_arrives (api : ApiClient) (network : Network) (env : Env) {call : ApiCall}
    (sendable : call.Sendable) :
    ({ env := env, request := api.request network call } : Arriving).incoming = some {
      env := env
      request := {
        authorization := api.bearer call
        remoteAddr := network.remoteAddr
        userAgent := network.userAgent }
      route := call.route } := by
  obtain ⟨endpoint, values, matched, reads⟩ := call.matched sendable
  have found : findHandler endpoints (api.request network call).method
      (api.request network call).path = .handler endpoint values := by
    have path : (api.request network call).path = pathOf call.words := call.path_eq
    rw [path]
    refine findHandler_pathOf call.plain_words ?_ matched
    cases call <;> exact List.cons_ne_nil _ _
  have ordinary : ¬ ((api.request network call).method = "OPTIONS" ∨
      (api.request network call).requestURI = "*") :=
    not_or.mpr ⟨call.method_ne, api.requestURI_ne network call⟩
  have body : ∀ members, call.options.body = some members →
      (api.request network call).body.maxBytes (1 <<< 20) = received members := by
    intro members shape
    simp only [ApiClient.request, RequestInit.bytes, shape]
    rfl
  simp only [Arriving.incoming, if_neg ordinary, found]
  rw [reads _ rfl body]
  rfl

end Nexus.Frontend
