import GovernedAutonomy.Service

namespace GovernedAutonomy

open Python

structure RuntimeIdentity where
  environment : Str := "dev"
  tenantId : Option Str := none
  actorId : Option Str := none
  requestId : Option Str := none
  source : Option Str := none
  principalId : Option Str := none
  roles : List Str := []
  scope : List (Str × PyVal) := []
  subject : Option Str := none
  name : Option Str := none
  email : Option Str := none
  groups : List Str := []
  issuer : Option Str := none
  identitySource : Option Str := none
  servicePrincipal : Bool := false
  identityType : Str := "human"

namespace RuntimeIdentity

variable (identity : RuntimeIdentity)

def strClaim : Option Str → Option PyVal := Option.map .str

def listClaim (values : List Str) : Option PyVal :=
  if values.isEmpty then none else some (strList values)

-- what context() writes under each name, in its order
def claims : List (String × Option PyVal) :=
  [("tenant_id", strClaim identity.tenantId), ("actor_id", strClaim identity.actorId),
    ("environment", some (.str identity.environment)),
    ("request_id", strClaim identity.requestId), ("source", strClaim identity.source),
    ("principal_id", strClaim identity.principalId), ("roles", listClaim identity.roles),
    ("subject", strClaim identity.subject), ("name", strClaim identity.name),
    ("email", strClaim identity.email), ("groups", listClaim identity.groups),
    ("issuer", strClaim identity.issuer), ("identity_source", strClaim identity.identitySource),
    ("service_principal", if identity.servicePrincipal then some (.bool true) else none),
    ("identity_type",
      if identity.identityType = lit "human" then none else some (.str identity.identityType))]

def scopeDict : PyDict := Dict.update [] (identity.scope.map (fun m => (.str m.1, m.2)))

def writeClaim (context : PyDict) (claim : String × Option PyVal) : PyDict :=
  match claim.2 with
  | some value => context.set (lit claim.1) value
  | none => context

def context : PyDict := identity.claims.foldl writeClaim identity.scopeDict

end RuntimeIdentity

def requestContext (request : PyDict) : Result PyDict :=
  match request.get "context" with
  | none => .ok []
  | some (.dict context) => .ok context
  | some _ => .error (.builtin .typeError)

structure ServicePrincipal where
  principalId : Str
  tenantId : Option Str := none
  allowedActions : List Str := []
  allowedEnvironments : List Str := []
  allowedSources : List Str := []
  scope : List Str := []

structure ServicePrincipalRegistry where
  principals : List (Str × ServicePrincipal) := []

def isOneOf (allowed : List Str) (value : PyVal) : Bool :=
  allowed.any (fun text => value.eq (.str text))

def refuseWith (before : String) (value : PyVal) (after : Str) (P : Primitives) : Result Unit := do
  let text ← P.repr value
  .error (.valueError (lit before ++ text ++ after))

namespace ServicePrincipalRegistry

variable (P : Primitives) (registry : ServicePrincipalRegistry)

def getPrincipal (principalId : Str) : Result ServicePrincipal :=
  match Dict.get registry.principals principalId with
  | some principal => .ok principal
  | none => .error (.valueError (lit "unknown service principal: " ++ P.reprStr principalId))

def checkTenant (principalId : Str) (principal : ServicePrincipal) (identity : RuntimeIdentity) :
    Result Unit :=
  match principal.tenantId, identity.tenantId with
  | some expected, some tenant =>
      raiseIf (expected ≠ tenant) (.valueError (lit "principal tenant mismatch for principal " ++
        P.reprStr principalId ++ lit ": " ++ P.reprStr expected ++ lit " != " ++
        P.reprStr tenant))
  | some _, none => .error (.valueError
      (lit "runtime identity is missing tenant_id for this service principal"))
  | none, _ => .ok ()

-- an empty list of allowed values allows every value
def checkAllowed (allowed : List Str) (name : String) (value : PyVal) (refusal : String)
    (principalId : Str) : Result Unit :=
  if allowed.isEmpty || isOneOf allowed value then .ok ()
  else refuseWith name value (lit refusal ++ P.reprStr principalId) P

def checkGiven (allowed : List Str) (name : String) (value : PyVal) (refusal : String)
    (principalId : Str) : Result Unit :=
  match value with
  | .none => .ok ()
  | value => checkAllowed P allowed name value refusal principalId

def checkScope (principal : ServicePrincipal) (context : PyDict) : Result Unit :=
  let missing := principal.scope.filter (fun key => !context.has key)
  if missing.isEmpty then .ok ()
  else refuseWith "service principal requires scope keys: " (strList missing) [] P

def validateRuntime (identity : RuntimeIdentity) (action : PyVal) (context : PyDict) :
    Result Unit :=
  match identity.principalId with
  | none => .error (.valueError
      (lit "principal_id is required when a service-principal registry is configured"))
  | some principalId => do
      let principal ← registry.getPrincipal P principalId
      checkTenant P principalId principal identity
      checkGiven P principal.allowedActions "action " action " is not allowed for principal "
        principalId
      checkAllowed P principal.allowedEnvironments "environment "
        ((context.get "environment").getD (.str identity.environment))
        " is not permitted for principal " principalId
      checkGiven P principal.allowedSources "source "
        ((context.get "source").getD (optStr identity.source))
        " is not permitted for principal " principalId
      checkScope P principal context

end ServicePrincipalRegistry

structure PlatformDeploymentPolicy where
  allowedEnvironments : List Str := ["dev", "staging", "prod"]
  allowedSources : List Str := ["internal", "api", "worker", "scheduled", "manual"]
  requireRequestId : Bool := true
  requireActorId : Bool := false
  requireTenant : Bool := false
  requiredRoles : List Str := []
  maxContextEntries : ℤ := 32
  meshRequiredActions : List Str := []
  meshRequiredEnvironments : List Str := []
  meshRequiredSources : List Str := []
  minMeshInputs : ℤ := 0

namespace PlatformDeploymentPolicy

variable (P : Primitives) (deployment : PlatformDeploymentPolicy)

def checkEnvironment (environment : PyVal) : Result Unit :=
  if isOneOf deployment.allowedEnvironments environment then .ok ()
  else refuseWith "environment is not allowed for this runtime: " environment [] P

def checkRequired (required : Bool) (value : PyVal) (name : String) : Result Unit :=
  raiseIf (required = true ∧ value.truthy = false)
    (.valueError (lit (name ++ " is required for this runtime configuration")))

def sourceAllowed (allowed : List Str) : PyVal → Result Bool
  | .str source => .ok (allowed.any (fun text =>
      decide (source = text) || (text ++ lit "-").isPrefixOf source))
  | _ => if allowed.isEmpty then .ok false else .error (.builtin .attributeError)

def checkSource (source : PyVal) : Result Unit :=
  match source with
  | .none => .ok ()
  | source => do
      let allowed ← sourceAllowed deployment.allowedSources source
      if allowed then .ok ()
      else refuseWith "source is not allowed for this runtime: " source [] P

def checkRoles (identity : RuntimeIdentity) : Result Unit :=
  let missing := deployment.requiredRoles.filter (fun role => !identity.roles.contains role)
  if missing.isEmpty then .ok ()
  else refuseWith "identity is missing required roles: " (strList missing) [] P

def checkMeshCount (required : List Str) (value : PyVal) (refusal : String)
    (inputs : List GovernanceInput) : Result Unit :=
  if isOneOf required value = true ∧ (inputs.length : ℤ) < max 1 deployment.minMeshInputs then
    refuseWith refusal value [] P
  else .ok ()

def checkMeshSources (inputs : List GovernanceInput) : Result Unit :=
  let missing := deployment.meshRequiredSources.filter
    (fun source => !(inputs.map GovernanceInput.sourceId).contains source)
  raiseIf (missing ≠ []) (.valueError
    (lit "mesh source requirements are not satisfied: " ++ joined ", " missing))

def validateRuntime (identity : RuntimeIdentity) (context : PyDict) (action : PyVal)
    (inputs : List GovernanceInput) : Result Unit := do
  let environment := (context.get "environment").getD (.str identity.environment)
  deployment.checkEnvironment P environment
  checkRequired deployment.requireTenant
    ((context.get "tenant_id").getD (optStr identity.tenantId)) "tenant_id"
  checkRequired deployment.requireActorId
    ((context.get "actor_id").getD (optStr identity.actorId)) "actor_id"
  checkRequired deployment.requireRequestId
    ((context.get "request_id").getD (optStr identity.requestId)) "request_id"
  deployment.checkSource P ((context.get "source").getD (optStr identity.source))
  deployment.checkRoles P identity
  deployment.checkMeshCount P deployment.meshRequiredActions action
    "mesh_inputs are required for action " inputs
  deployment.checkMeshCount P deployment.meshRequiredEnvironments environment
    "mesh_inputs are required in environment " inputs
  deployment.checkMeshSources inputs
  raiseIf (deployment.maxContextEntries < context.length)
    (.valueError (lit "runtime context exceeds the allowed size"))

end PlatformDeploymentPolicy

structure GovernancePlatform where
  service : GovernedService
  identity : RuntimeIdentity
  deploymentPolicy : PlatformDeploymentPolicy := {}
  principalRegistry : Option ServicePrincipalRegistry := none

namespace GovernancePlatform

variable (P : Primitives) (platform : GovernancePlatform)

def withContext (request context : PyDict) : PyDict := request.set "context" (.dict context)

def effectiveRequest (request context : PyDict) : Result PyDict := do
  let requested ← requestContext request
  .ok (withContext request
    (Dict.update (Dict.update requested context) platform.identity.context))

def validatePrincipal (action : PyVal) (context : PyDict) : Result Unit :=
  match platform.principalRegistry with
  | none => .ok ()
  | some registry => registry.validateRuntime P platform.identity action context

def validateRuntime (request : PyDict) (meshInputs : List GovernanceInput) : Result Unit := do
  let context ← requestContext request
  platform.validatePrincipal P (request.getD "action") context
  platform.deploymentPolicy.validateRuntime P platform.identity context (request.getD "action")
    meshInputs

-- everything authorize does before the issuer is called, and the call it makes
def issuerCall (request : PyDict) (policyId : Str) (ttlSeconds : ℤ)
    (approvals : Option (List ApprovalArg)) (context : PyDict)
    (meshInputs : List GovernanceInput) : Result AuthorizeCall := do
  let effective ← platform.effectiveRequest request context
  platform.validateRuntime P effective meshInputs
  platform.service.issuerCall P effective (.str policyId) ttlSeconds approvals meshInputs

def authorize (log : ReplayLog) (now : ℤ) (nonce : Str) (request : PyDict) (policyId : Str)
    (ttlSeconds : ℤ) (approvals : Option (List ApprovalArg)) (context : PyDict)
    (meshInputs : List GovernanceInput) : Authorization :=
  match platform.issuerCall P request policyId ttlSeconds approvals context meshInputs with
  | .error e => ⟨log, .error e⟩
  | .ok call => platform.service.attachedIssuer.authorize P log now nonce call

end GovernancePlatform

-- the arguments that the authorize route passes to the service
structure RouteCall where
  request : PyDict
  policyId : PyVal
  ttlSeconds : PyVal
  approvals : PyVal
  meshInputs : Option (List GovernanceInput)

namespace AuthorizeRoute

variable (P : Primitives)

def item (payload : PyDict) (key : Str) : Result PyVal :=
  match payload.get key with
  | some value => .ok value
  | none => .error (.builtin .keyError)

def readInputs (payload : PyDict) : Result (Option (List GovernanceInput)) :=
  match payload.getD "mesh_inputs" with
  | .none => .ok none
  | value => do
      let items ← GovernanceMesh.iterate value
      let inputs ← ExecutionBoundary.rebuildInputs P items
      .ok (some inputs)

def readRequest (payload : PyDict) : Result PyDict := do
  match ← item payload "request" with
  | .dict request => .ok request
  | _ => .error (.builtin .typeError)

def boundRequest (identity : Option RuntimeIdentity) (request : PyDict) : Result PyDict :=
  match identity with
  | none => .ok request
  | some identity => do
      let supplied ← requestContext request
      .ok (GovernancePlatform.withContext request (Dict.update supplied identity.context))

def serviceCall (identity : Option RuntimeIdentity) (payload : PyDict) : Result RouteCall := do
  let meshInputs ← readInputs P payload
  let request ← readRequest payload
  let request ← boundRequest identity request
  let policyId ← item payload "policy_id"
  .ok ⟨request, policyId, (payload.get "ttl_seconds").getD (.int 300), payload.getD "approvals",
    meshInputs⟩

end AuthorizeRoute

end GovernedAutonomy
