import GovernedAutonomy.Engine
import GovernedAutonomy.Issuer

namespace GovernedAutonomy

open Python

structure GovernedService where
  issuer : AuthorizationIssuer
  boundary : ExecutionBoundary
  policies : PolicyRegistry
  actions : List (Str × (PyDict → HandlerOutcome))
  meshSourceRegistry : Option GovernanceSourceRegistry := none

-- the uuid and the clock reading that one governance event takes from outside
structure GovernanceStamp where
  uuid : Str
  recordedAt : Str

namespace GovernedService

variable (P : Primitives) (service : GovernedService)

def governanceFrameId (uuid : Str) : Str := lit "governance:" ++ uuid

def governanceEvent (event subjectId actorId recordedAt : Str) : PyDict :=
  PyDict.ofFields
    [("type", .str "governance"), ("event", .str event), ("subject_id", .str subjectId),
      ("actor_id", .str actorId), ("recorded_at", .str recordedAt)]

def recordGovernanceEvent (log : ReplayLog) (stamp : GovernanceStamp)
    (event subjectId actorId : Str) : Result ReplayLog := do
  let (log, _) ← log.append P (governanceFrameId stamp.uuid)
    (governanceEvent event subjectId actorId stamp.recordedAt)
  .ok log

-- the call of the issuer that a call of the service comes to
def issuerCall (request : PyDict) (policyId : PyVal) (ttlSeconds : ℤ)
    (approvals : Option (List ApprovalArg)) (meshInputs : List GovernanceInput) :
    Result AuthorizeCall := do
  match ← service.policies.getPolicy policyId with
  | none => do
      let text ← P.str policyId
      .error (authorizationError (lit "unknown policy: " ++ text))
  | some policy => .ok { request, policy, ttlSeconds, approvals, meshInputs }

-- an issuer without a source registry of its own is given the service's
def attachedIssuer : AuthorizationIssuer :=
  { service.issuer with
    meshSourceRegistry := service.issuer.meshSourceRegistry.or service.meshSourceRegistry }

def authorize (log : ReplayLog) (now : ℤ) (nonce : Str) (request : PyDict) (policyId : PyVal)
    (ttlSeconds : ℤ) (approvals : Option (List ApprovalArg)) (meshInputs : List GovernanceInput) :
    Authorization :=
  match service.issuerCall P request policyId ttlSeconds approvals meshInputs with
  | .error e => ⟨log, .error e⟩
  | .ok call => service.attachedIssuer.authorize P log now nonce call

def handler (artifact : Artifact) : Result (PyDict → HandlerOutcome) :=
  match artifact.actionRequest.getD "action" with
  | .str name =>
      match Dict.get service.actions name with
      | none => .error (authorizationError (lit "unknown executable action: " ++ name))
      | some action => .ok action
  | _ => .error (authorizationError (lit "unknown executable action: None"))

def execute (log : ReplayLog) (now : ℤ) (artifact : Artifact) : ExecutionBoundary.Execution :=
  match service.handler artifact with
  | .error e => ⟨log, false, .error e⟩
  | .ok action => service.boundary.execute P log now artifact action

end GovernedService

end GovernedAutonomy
