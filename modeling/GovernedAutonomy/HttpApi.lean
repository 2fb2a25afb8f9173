import GovernedAutonomy.Platform
import GovernedAutonomy.VersionedRegistry
import GovernedAutonomy.Python.Characters
import GovernedAutonomy.Python.Pattern
import GovernedAutonomy.Python.Segments

namespace GovernedAutonomy

open Python

def Role.value : Role → Str
  | .platformAdmin => lit "platform_admin"
  | .policyAdmin => lit "policy_admin"
  | .operator => lit "operator"
  | .auditor => lit "auditor"
  | .approver => lit "approver"
  | .servicePrincipal => lit "service_principal"

structure OperatorApiKey where
  operatorId : Str
  keyId : Str

-- what _authenticated leaves on the request: gas_operator_id, gas_roles and so on
structure RequestAttributes where
  operatorId : Option Str := none
  operatorKeyId : Option Str := none
  roles : List Str := []
  runtimeIdentity : Option RuntimeIdentity := none
  sessionAuthenticated : Bool := false

namespace RequestAttributes

variable (attributes : RequestAttributes)

def held : List Str :=
  match attributes.runtimeIdentity with
  | some identity => identity.roles
  | none => attributes.roles

-- platform_admin, or one of the roles a table asks for
def Holds (required : List Role) : Prop :=
  Role.platformAdmin.value ∈ attributes.held ∨ ∃ role ∈ required, role.value ∈ attributes.held

instance (required : List Role) : Decidable (attributes.Holds required) :=
  inferInstanceAs (Decidable (_ ∨ _))

def actorId : Str :=
  match attributes.operatorId with
  | some operatorId =>
      match attributes.operatorKeyId with
      | some (p :: keyId) => lit "api-key:" ++ operatorId ++ lit ":" ++ (p :: keyId)
      | _ => lit "api-key:" ++ operatorId
  | none =>
      match attributes.runtimeIdentity.bind RuntimeIdentity.actorId with
      | some (p :: actorId) => p :: actorId
      | _ => lit "shared-token"

end RequestAttributes

structure HttpRequest where
  command : Str
  -- urlsplit(self.path).path
  route : Str
  -- what the rate limiter answers for the client's address
  allowed : Bool := true
  requestId : Str := []
  authorization : Str := []
  origin : Str := []
  contentLength : Str := "0"
  sessionToken : Option Str := none
  -- what _read_json makes of the body
  body : Result PyDict := .ok []

-- an operation of the service, the registry or a store, as a POST handler calls it
inductive Operation where
  | certifyReplayAnchor (payload : PyDict)
  | createReplayAnchor (actorId : Str)
  | prepareProposal (payload : PyDict)
  | submitProposal (payload : PyDict) (actorId : Str)
  | prepareApproval (proposalId : Str) (approverKeyId : PyVal)
  | submitApproval (proposalId : Str) (payload : PyDict) (actorId : Str)
  | activateProposal (proposalId actorId : Str)
  | publish (policy : PyVal) (actorId : Str)
  | activateVersion (policyId version : Str) (reason expectedRevision : PyVal) (actorId : Str)
  | rollbackVersion (policyId version : Str) (reason expectedRevision : PyVal) (actorId : Str)
  | deprecateVersion (policyId version : Str)
  | revokeVersion (policyId version : Str)
  | assignRole (principalId role assignedBy tenant : Str)
  | prepareTrustAdd (payload : PyDict)
  | submitTrustAdd (payload : PyDict) (actorId : Str)
  | prepareTrustRevoke (keyId : Str) (payload : PyDict)
  | submitTrustRevoke (keyId : Str) (payload : PyDict) (actorId : Str)
  | createOperatorKey (payload : PyDict) (actorId : Str)
  | revokeOperatorKey (keyId actorId : Str)
  | submitJob (payload : PyDict) (actorId : Str)
  | authorize (call : RouteCall)
  | execute (artifact : PyVal)
  | revokeBrowserSession

-- how a POST ends: answered, or with a call of an operation
inductive Handled where
  | sent (status : Nat) (error : Str)
  -- an except clause answers with the text of the exception
  | caught (status : Nat) (e : Exc)
  | dropped (e : Exc)
  | reached (operation : Operation)

structure AuthenticatedAPI where
  bearerToken : Option Str := none
  operatorToken : Option Str := none
  oidcOnly : Bool := false
  -- validate and from_external_identity, given the bearer credential and the request's id
  oidcValidator : Option (Str → Str → Option RuntimeIdentity) := none
  operatorKeyStore : Option (Str → Result (Option OperatorApiKey)) := none
  oidcSessions : Option (Str → Result (Option RuntimeIdentity)) := none
  enrichIdentity : RuntimeIdentity → Result (Option RuntimeIdentity) := fun identity =>
    .ok (some identity)
  -- the scheme and the host of the sign-in client's redirect_uri
  redirectOrigin : Option Str := none
  versionedPolicyRegistry : Bool := false
  policyRegistrySigner : Bool := false
  identityStore : Bool := false
  jobStore : Bool := false

namespace AuthenticatedAPI

def oneOf (routes : List String) (route : Str) : Bool := routes.any (fun text => lit text = route)

def adminGetRoles (route : Str) : List Role :=
  if oneOf ["/admin", "/admin/app.js", "/admin/app.css"] route then
    [.policyAdmin, .operator, .auditor, .approver]
  else if route = lit "/admin/policies" then [.policyAdmin, .operator, .auditor]
  else if startsWith route "/admin/policy-registry/" then [.policyAdmin, .auditor]
  else if route = lit "/admin/proposals" then [.policyAdmin, .approver, .auditor]
  else if route = lit "/admin/trust" then [.platformAdmin, .auditor]
  else if route = lit "/admin/operator-keys" then [.platformAdmin]
  else if startsWith route "/admin/jobs/" then [.operator, .auditor]
  else if oneOf ["/admin/governance-log", "/admin/metrics", "/admin/control-room"] route then
    [.policyAdmin, .operator, .auditor, .approver]
  else if oneOf ["/admin/identities/role-assignments", "/admin/identities/service-principals",
      "/admin/identities/events"] route then [.platformAdmin]
  else []

def adminPostRoles (route : Str) : List Role :=
  if oneOf ["/admin/proposals/prepare", "/admin/proposals"] route then [.policyAdmin]
  else if oneOf ["/admin/policy-registry/publish", "/admin/policy-registry/activate",
      "/admin/policy-registry/rollback", "/admin/policy-registry/deprecate",
      "/admin/policy-registry/revoke"] route then [.policyAdmin]
  else if Segments.between "/admin/proposals/" "/activate" route then [.policyAdmin]
  else if Segments.between "/admin/proposals/" "/prepare-approval" route ||
      Segments.between "/admin/proposals/" "/approve" route then [.approver]
  else if startsWith route "/admin/trust/keys" then [.platformAdmin]
  else if route = lit "/admin/operator-keys" ∨
      Segments.between "/admin/operator-keys/" "/revoke" route = true then [.platformAdmin]
  else if route = lit "/admin/identities/role-assignments" then [.platformAdmin]
  else if route = lit "/admin/replay/anchor" then [.platformAdmin]
  else if route = lit "/admin/jobs" then [.operator]
  else []

def adminRequiredRoles (method : String) (route : Str) : List Role :=
  if method = "GET" then adminGetRoles route
  else if method ≠ "POST" then []
  else adminPostRoles route

def apiRequiredRoles (method : String) (route : Str) : List Role :=
  if method = "GET" ∧ oneOf ["/audit", "/api/v1/audit", "/audit/replay"] route = true then
    [.auditor]
  else if method = "POST" ∧ route = lit "/audit/replay/certify" then [.auditor]
  else if method = "POST" ∧
      oneOf ["/authorize", "/execute", "/api/v1/authorize", "/api/v1/execute"] route = true then
    [.operator]
  else []

-- hmac.compare_digest, which refuses text that is not ASCII
def compareDigest (a b : Str) : Result Bool :=
  if (a ++ b).all (fun p => decide (p.val < 128)) then .ok (decide (a = b))
  else .error (.builtin .typeError)

-- the credential of an Authorization header whose scheme is bearer, in any case
def bearerCredential (supplied : Str) : Option Str :=
  let scheme := supplied.takeWhile (· ≠ ofChar ' ')
  match supplied.drop scheme.length with
  | [] => none
  | _ :: credential =>
      if scheme.map lowerAscii = lit "bearer" then some (stripped credential)
      else none

variable (api : AuthenticatedAPI) (request : HttpRequest)

def healthProbeAuthorized : Result Bool :=
  if request.command = lit "GET" ∧
      oneOf ["/health", "/livez", "/readyz", "/startupz"] request.route = true then
    match api.bearerToken with
    | some token => compareDigest request.authorization (lit "Bearer " ++ token)
    | none => .ok false
  else .ok false

def operatorKey (bearer : Str) : Result (Option OperatorApiKey) :=
  if api.oidcValidator.isNone ∧ api.oidcOnly = false ∧ bearer ≠ [] then
    match api.operatorKeyStore with
    | some authenticate => authenticate bearer
    | none => .ok none
  else .ok none

def matchesOperator : Result Bool :=
  match api.operatorToken with
  | some token => compareDigest request.authorization (lit "Bearer " ++ token)
  | none => .ok false

def sharedToken : Result Bool :=
  match api.bearerToken with
  | some (p :: token) => do
      if ← api.matchesOperator request then .ok true
      else if ← compareDigest request.authorization (lit "Bearer " ++ p :: token) then .ok true
      else compareDigest request.authorization (p :: token)
  | _ => api.matchesOperator request

def anonymous (granted : Bool) : Option RequestAttributes := if granted then some {} else none

def identified (session : Bool) (identity : RuntimeIdentity) :
    Result (Option RequestAttributes) := do
  let enriched ← api.enrichIdentity identity
  .ok (enriched.map
    (fun identity => { runtimeIdentity := some identity, sessionAuthenticated := session }))

def browserSession : Result (Option RuntimeIdentity) :=
  match api.oidcSessions, request.sessionToken with
  | some getSession, some token => getSession token
  | _, _ => .ok none

def authenticated : Result (Option RequestAttributes) := do
  let bearer := (bearerCredential request.authorization).getD []
  match ← api.operatorKey bearer with
  | some key =>
      .ok (if startsWith request.route "/admin" then
        some { operatorId := some key.operatorId, operatorKeyId := some key.keyId,
               roles := [Role.operator.value] }
        else none)
  | none =>
      match api.oidcValidator, bearer with
      | some validate, p :: bearer =>
          match validate (p :: bearer) request.requestId with
          | some identity => api.identified false identity
          | none => anonymous <$> api.healthProbeAuthorized request
      | _, _ =>
          match ← api.browserSession request with
          | some identity =>
              api.identified true { identity with requestId := some request.requestId }
          | none =>
              if api.oidcOnly then anonymous <$> api.healthProbeAuthorized request
              else anonymous <$> api.sharedToken request

def presentsOperatorToken : Result Bool :=
  match api.operatorToken, bearerCredential request.authorization with
  | some token, some credential =>
      if api.oidcValidator.isNone ∧ api.oidcOnly = false then compareDigest credential token
      else .ok false
  | _, _ => .ok false

def adminAuthorized (attributes : RequestAttributes) (method : String) (route : Str) :
    Result Bool :=
  match adminRequiredRoles method route with
  | [] => .ok false
  | required => do
      if ← api.presentsOperatorToken request then .ok true
      else .ok (decide (attributes.Holds required))

def isNamed (value : Option Str) : Bool := (value.getD []) ≠ []

-- POST /authorize and /execute take an identity with a subject, a tenant and an issuer
def isAttributed (identity : RuntimeIdentity) : Bool :=
  isNamed identity.subject && isNamed identity.tenantId && isNamed identity.issuer &&
    isNamed identity.identitySource

def apiAuthorized (attributes : RequestAttributes) (method : String) (route : Str) : Bool :=
  match apiRequiredRoles method route with
  | [] => true
  | required =>
      match attributes.runtimeIdentity with
      | none => api.oidcValidator.isNone && !api.oidcOnly
      | some identity =>
          if method = "POST" ∧
              oneOf ["/authorize", "/execute", "/api/v1/authorize", "/api/v1/execute"] route =
                true ∧ isAttributed identity = false then false
          else decide (attributes.Holds required)

def sessionOriginAllowed : Result Bool :=
  match api.redirectOrigin with
  | none => .ok false
  | some expected =>
      if request.origin = [] then .ok false else compareDigest request.origin expected

def isKeyError : Exc → Bool
  | .builtin .keyError => true
  | .custom cls _ _ _ => cls == "KeyError"
  | _ => false

-- RecursionError is a RuntimeError
def isRuntimeError : Exc → Bool
  | .builtin .recursionError => true
  | .custom cls _ _ _ => cls == "RuntimeError"
  | _ => false

def isAuthorizationError : Exc → Bool
  | .custom cls _ _ _ => cls == "AuthorizationError"
  | _ => false

-- the try statement of a handler: what its except clauses do, None where they let it through
def attempt (clauses : Exc → Option Handled) : Result Handled → Handled
  | .ok handled => handled
  | .error e => (clauses e).getD (.dropped e)

def workflowErrors (e : Exc) : Option Handled :=
  if isKeyError e then some (.caught 404 e)
  else if e.isTypeError || e.isValueError then some (.caught 400 e)
  else none

def operatorKeyErrors (e : Exc) : Option Handled :=
  (workflowErrors e).or (match e with
    | .custom "sqlite3.Error" _ _ _ => some (.sent 503 "operator key store unavailable")
    | _ => none)

def registryErrors (e : Exc) : Option Handled :=
  if isKeyError e || isRuntimeError e || e.isTypeError || e.isValueError then
    some (.caught 400 e)
  else none

def storeErrors (e : Exc) : Option Handled :=
  if isKeyError e || e.isTypeError || e.isValueError then some (.caught 400 e) else none

def anchorErrors (e : Exc) : Option Handled :=
  if e.isTypeError || e.isValueError then some (.sent 400 "invalid replay anchor request")
  else if isRuntimeError e then some (.caught 503 e)
  else none

def certifyErrors (e : Exc) : Option Handled :=
  if e.isValueError then some (.sent 400 "invalid replay anchor")
  else if isRuntimeError e then some (.caught 503 e)
  else none

def serviceErrors (e : Exc) : Option Handled :=
  if isAuthorizationError e || isKeyError e || e.isTypeError || e.isValueError then
    some (.sent 400 "invalid request")
  else none

def notFound : Handled := .sent 404 "not found"

-- route[len(start):].strip("/"), split at the slashes, without the empty parts
def partsAfter (start : String) (route : Str) : List Str :=
  Segments.parts (Segments.strip (route.drop (lit start).length))

open AuthorizeRoute (item)

def adminProposalsPost (actorId route : Str) : Handled :=
  attempt workflowErrors (
    if route = lit "/admin/proposals/prepare" then do
      let payload ← request.body
      .ok (.reached (.prepareProposal payload))
    else if route = lit "/admin/proposals" then do
      let payload ← request.body
      .ok (.reached (.submitProposal payload actorId))
    else
      match partsAfter "/admin/proposals" route with
      | [proposalId, operation] =>
          if operation = lit "prepare-approval" then do
            let payload ← request.body
            let approverKeyId ← item payload "approver_key_id"
            .ok (.reached (.prepareApproval proposalId approverKeyId))
          else if operation = lit "approve" then do
            let payload ← request.body
            .ok (.reached (.submitApproval proposalId payload actorId))
          else if operation = lit "activate" then
            .ok (.reached (.activateProposal proposalId actorId))
          else .ok notFound
      | _ => .ok notFound)

def adminTrustPost (actorId route : Str) : Handled :=
  attempt workflowErrors (
    if route = lit "/admin/trust/keys/prepare" then do
      let payload ← request.body
      .ok (.reached (.prepareTrustAdd payload))
    else if route = lit "/admin/trust/keys" then do
      let payload ← request.body
      .ok (.reached (.submitTrustAdd payload actorId))
    else
      match partsAfter "/admin/trust/keys" route with
      | [keyId, operation, step] =>
          if operation = lit "revoke" ∧ step = lit "prepare" then do
            let payload ← request.body
            .ok (.reached (.prepareTrustRevoke keyId payload))
          else .ok notFound
      | [keyId, operation] =>
          if operation = lit "revoke" then do
            let payload ← request.body
            .ok (.reached (.submitTrustRevoke keyId payload actorId))
          else .ok notFound
      | _ => .ok notFound)

def adminOperatorKeysPost (actorId route : Str) : Handled :=
  attempt operatorKeyErrors (
    if route = lit "/admin/operator-keys" then do
      let payload ← request.body
      .ok (.reached (.createOperatorKey payload actorId))
    else
      match partsAfter "/admin/operator-keys" route with
      | [keyId, operation] =>
          if operation = lit "revoke" then .ok (.reached (.revokeOperatorKey keyId actorId))
          else .ok notFound
      | _ => .ok notFound)

def versionOperation (payload : PyDict) (actorId route policyId version : Str) :
    Result Handled :=
  if route = lit "/admin/policy-registry/activate" then do
    let reason ← item payload "reason"
    .ok (.reached (.activateVersion policyId version reason (payload.getD "expected_revision")
      actorId))
  else if route = lit "/admin/policy-registry/rollback" then do
    let reason ← item payload "reason"
    .ok (.reached (.rollbackVersion policyId version reason (payload.getD "expected_revision")
      actorId))
  else if route = lit "/admin/policy-registry/deprecate" then
    .ok (.reached (.deprecateVersion policyId version))
  else if route = lit "/admin/policy-registry/revoke" then
    .ok (.reached (.revokeVersion policyId version))
  else .ok notFound

def policyRegistryPost (actorId route : Str) : Handled :=
  if api.versionedPolicyRegistry = false then
    .sent 503 "versioned policy registry is not configured"
  else attempt registryErrors (do
    let payload ← request.body
    if route = lit "/admin/policy-registry/publish" then do
      raiseIf (api.policyRegistrySigner = false)
        (.custom "RuntimeError" false (lit "policy registry signer is not configured") .none)
      let policy ← item payload "policy"
      .ok (.reached (.publish policy actorId))
    else
      match ← item payload "policy_id", ← item payload "version" with
      | .str policyId, .str version => versionOperation payload actorId route policyId version
      | _, _ => .error (.valueError "policy_id and version must be strings"))

def roleAssignmentPost (attributes : RequestAttributes) : Handled :=
  if api.identityStore = false then .sent 503 "identity store is not configured"
  else attempt storeErrors (do
    let payload ← request.body
    match ← item payload "principal_id", ← item payload "role" with
    | .str principalId, .str role =>
        match attributes.runtimeIdentity.bind RuntimeIdentity.tenantId with
        | some (p :: tenant) =>
            .ok (.reached (.assignRole principalId role attributes.actorId (p :: tenant)))
        | _ => .error (.valueError "authenticated tenant is required for role assignment")
    | _, _ => .error (.valueError "principal_id and role must be strings"))

def adminJobsPost (actorId : Str) : Handled :=
  if api.jobStore = false then .sent 503 "job queue is not configured"
  else attempt storeErrors (do
    let payload ← request.body
    .ok (.reached (.submitJob payload actorId)))

def replayAnchorPost (actorId : Str) : Handled :=
  attempt anchorErrors (do
    let payload ← request.body
    raiseIf (payload ≠ []) (.valueError "replay anchor requests must be empty")
    .ok (.reached (.createReplayAnchor actorId)))

def certifyPost : Handled :=
  attempt certifyErrors (do
    let payload ← request.body
    .ok (.reached (.certifyReplayAnchor payload)))

def servicePost (P : Primitives) (attributes : RequestAttributes) (route : Str) : Handled :=
  attempt serviceErrors (do
    let payload ← request.body
    if oneOf ["/authorize", "/api/v1/authorize"] route then do
      let call ← AuthorizeRoute.serviceCall P attributes.runtimeIdentity payload
      .ok (.reached (.authorize call))
    else if oneOf ["/execute", "/api/v1/execute"] route then do
      let artifact ← item payload "artifact"
      .ok (.reached (.execute artifact))
    else .ok notFound)

-- do_POST once the caller may call the route
def dispatch (P : Primitives) (attributes : RequestAttributes) : Handled :=
  let route := request.route
  let actorId := attributes.actorId
  if route = lit "/audit/replay/certify" then certifyPost request
  else if route = lit "/admin/replay/anchor" then replayAnchorPost request actorId
  else if startsWith route "/admin/proposals" then adminProposalsPost request actorId route
  else if startsWith route "/admin/policy-registry" then
    api.policyRegistryPost request actorId route
  else if route = lit "/admin/identities/role-assignments" then
    api.roleAssignmentPost request attributes
  else if startsWith route "/admin/trust/keys" then adminTrustPost request actorId route
  else if startsWith route "/admin/operator-keys" then
    if api.operatorKeyStore.isNone then
      .sent 503 "operator API key management is not configured"
    else adminOperatorKeysPost request actorId route
  else if route = lit "/admin/jobs" then api.adminJobsPost request actorId
  else servicePost request P attributes route

def logout (attributes : RequestAttributes) : Result Handled :=
  if attributes.sessionAuthenticated = false then .ok (.sent 401 "browser session required")
  else do
    if ← api.sessionOriginAllowed request then
      if request.contentLength ≠ lit "0" then .ok (.sent 400 "logout request must be empty")
      else .ok (.reached .revokeBrowserSession)
    else .ok (.sent 403 "invalid request origin")

def foreignOrigin (attributes : RequestAttributes) : Result Bool :=
  if attributes.sessionAuthenticated then not <$> api.sessionOriginAllowed request else .ok false

def adminRefused (attributes : RequestAttributes) : Result Bool :=
  if startsWith request.route "/admin" then
    not <$> api.adminAuthorized request attributes "POST" request.route
  else .ok false

-- do_POST for a caller it has authenticated
def authorizedPost (P : Primitives) (attributes : RequestAttributes) : Result Handled :=
  if request.route = lit "/auth/logout" then api.logout request attributes
  else do
    if ← api.foreignOrigin request attributes then .ok (.sent 403 "invalid request origin")
    else if ← api.adminRefused request attributes then
      .ok (.sent 403 "role authorization required")
    else if api.apiAuthorized attributes "POST" request.route = false then
      .ok (.sent 403 "role authorization required")
    else .ok (api.dispatch request P attributes)

def authenticationErrors : Exc → Option Handled
  | .custom "sqlite3.Error" _ _ _ => some (.sent 503 "authentication backend unavailable")
  | _ => none

def doPost (P : Primitives) : Handled :=
  if request.allowed = false then .sent 429 "rate limit exceeded"
  else
    match api.authenticated request with
    | .error e => (authenticationErrors e).getD (.dropped e)
    | .ok none => .sent 401 "unauthorized"
    | .ok (some attributes) =>
        match api.authorizedPost request P attributes with
        | .ok handled => handled
        | .error e => .dropped e

end AuthenticatedAPI

end GovernedAutonomy
