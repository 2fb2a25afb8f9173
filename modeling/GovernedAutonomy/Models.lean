import GovernedAutonomy.Trust

namespace GovernedAutonomy

open Python

def authorizationError (message : Str) : Exc := .custom "AuthorizationError" false message .none

def policyDeniedError (message : Str) (decision : PyDict) : Exc :=
  .custom "PolicyDeniedError" false message (.dict decision)

def governanceMeshError (message : Str) : Exc := .custom "GovernanceMeshError" true message .none

variable (P : Primitives)

def optStr : Option Str → PyVal
  | some s => .str s
  | none => .none

structure SignedApproval where
  action : Str
  requestDigest : Str
  decisionDigest : Str
  issuerKeyId : Str
  signature : Str
  actorId : Option Str
  context : PyDict

namespace SignedApproval

def unsignedPayload (a : SignedApproval) : Result String :=
  canonicalJson P (.dict (PyDict.ofFields
    [("action", .str a.action), ("request_digest", .str a.requestDigest),
      ("decision_digest", .str a.decisionDigest), ("issuer_key_id", .str a.issuerKeyId),
      ("actor_id", optStr a.actorId), ("context", .dict a.context)]))

def verify (a : SignedApproval) (publicKey : PublicKey) : Result Bool := do
  let payload ← a.unsignedPayload P
  .ok (verifySignature P publicKey payload a.signature)

def withoutApprovals (request : PyDict) : PyDict := Dict.erase request (.str (lit "approvals"))

def matchesRequest (a : SignedApproval) (request : PyDict) (decision : Option PyDict) :
    Result Bool := do
  let action ← P.str (request.getD "action")
  if a.action ≠ action then .ok false
  else
    let digest ← canonicalDigest P (.dict (withoutApprovals request))
    if a.requestDigest ≠ digest then .ok false
    else
      match decision with
      | none => .ok true
      | some decision => do
          let digest ← canonicalDigest P (.dict decision)
          .ok (decide (a.decisionDigest = digest))

def requiredKeys : List String :=
  ["action", "request_digest", "decision_digest", "issuer_key_id", "signature"]

def nonEmptyStr (value : PyDict) (key : String) (message : String) : Result Str :=
  match value.getD (lit key) with
  | .str (c :: s) => .ok (c :: s)
  | _ => .error (.valueError (lit message))

def optionalActor (value : PyDict) : Result (Option Str) :=
  match value.getD "actor_id" with
  | .none => .ok none
  | .str (c :: s) => .ok (some (c :: s))
  | _ => .error (.valueError
      (lit "signed approval actor_id must be a non-empty string when present"))

def optionalContext (value : PyDict) : Result PyDict :=
  match value.get "context" with
  | none => .ok []
  | some (.dict context) => .ok context
  | some _ => .error (.valueError (lit "signed approval context must be an object when present"))

def fromDict (value : PyDict) : Result SignedApproval := do
  raiseIf (value.hasOnly (requiredKeys ++ ["actor_id", "context"]) = false)
    (.valueError (lit "signed approval has an invalid schema"))
  raiseIf (value.hasAll requiredKeys = false)
    (.valueError (lit "signed approval is missing required fields"))
  let action ← nonEmptyStr value "action" "signed approval action must be a non-empty string"
  let requestDigest ← nonEmptyStr value "request_digest"
    "signed approval request_digest must be a non-empty string"
  let decisionDigest ← nonEmptyStr value "decision_digest"
    "signed approval decision_digest must be a non-empty string"
  let issuerKeyId ← nonEmptyStr value "issuer_key_id"
    "signed approval issuer_key_id must be a non-empty string"
  let signature ← nonEmptyStr value "signature"
    "signed approval signature must be a non-empty string"
  let actorId ← optionalActor value
  let context ← optionalContext value
  .ok ⟨action, requestDigest, decisionDigest, issuerKeyId, signature, actorId, context⟩

def toDict (a : SignedApproval) : PyDict :=
  let payload : PyDict := PyDict.ofFields
    [("action", .str a.action), ("request_digest", .str a.requestDigest),
      ("decision_digest", .str a.decisionDigest), ("issuer_key_id", .str a.issuerKeyId),
      ("signature", .str a.signature)]
  let payload := match a.actorId with
    | some actor => payload.set "actor_id" (.str actor)
    | none => payload
  if a.context.isEmpty then payload else payload.set "context" (.dict a.context)

end SignedApproval

-- expires_at is what the clock and the ttl of the caller add up to, a NaN among the rest
structure GovernanceAuthorizationArtifact where
  actionRequest : PyDict
  decision : PyDict
  expiresAt : PyVal
  nonce : Str
  replayFrameRef : Str
  issuerKeyId : Str
  signature : Str

namespace GovernanceAuthorizationArtifact

def unsignedDict (a : GovernanceAuthorizationArtifact) : PyVal :=
  .dict (PyDict.ofFields
    [("action_request", .dict a.actionRequest), ("decision", .dict a.decision),
      ("expires_at", a.expiresAt), ("nonce", .str a.nonce),
      ("replay_frame_ref", .str a.replayFrameRef), ("issuer_key_id", .str a.issuerKeyId)])

def unsignedPayload (a : GovernanceAuthorizationArtifact) : Result String :=
  canonicalJson P a.unsignedDict

def issue (actionRequest decision : PyDict) (expiresAt : PyVal) (nonce replayFrameRef : Str)
    (issuer : Signer) : Result GovernanceAuthorizationArtifact := do
  let unsigned : GovernanceAuthorizationArtifact :=
    ⟨actionRequest, decision, expiresAt, nonce, replayFrameRef, issuer.keyId, []⟩
  let payload ← unsigned.unsignedPayload P
  .ok { unsigned with signature := issuer.sign payload }

def toDict (a : GovernanceAuthorizationArtifact) : PyDict :=
  PyDict.ofFields
    [("action_request", .dict a.actionRequest), ("decision", .dict a.decision),
      ("expires_at", a.expiresAt), ("nonce", .str a.nonce),
      ("replay_frame_ref", .str a.replayFrameRef), ("issuer_key_id", .str a.issuerKeyId),
      ("signature", .str a.signature)]

end GovernanceAuthorizationArtifact

end GovernedAutonomy
