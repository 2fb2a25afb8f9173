import GovernedAutonomy.Mesh

namespace GovernedAutonomy

open Python

inductive ApprovalArg where
  | signed (approval : SignedApproval)
  | object (value : PyDict)
  | other

structure AuthorizeCall where
  request : PyDict
  policy : Policy
  ttlSeconds : ℤ := 300
  approvals : Option (List ApprovalArg) := none
  meshInputs : List GovernanceInput := []

-- a mesh given to the issuer, and whether it writes to the issuer's own log or to none
structure IssuerMesh where
  mesh : GovernanceMesh
  recorded : Bool

structure AuthorizationIssuer where
  issuer : Signer
  arbiter : DeterministicArbiter := {}
  mesh : Option IssuerMesh := none
  meshSourceRegistry : Option GovernanceSourceRegistry := none

structure Authorization where
  log : ReplayLog
  result : Result GovernanceAuthorizationArtifact

namespace Decision

def denied (decision : Decision) (code : Str) (reasons : List Str) : Decision :=
  { decision with
    allow := false
    reasonCodes := decision.reasonCodes ++ [code]
    reasons := decision.reasons ++ reasons }

def signedDict (decision : Decision) (meshDigest : Option Str) : PyDict :=
  match meshDigest with
  | none => decision.toDict
  | some digest => decision.toDict.set "mesh_preflight_digest" (.str digest)

def deniedError (decision : Decision) (meshDigest : Option Str) : Exc :=
  policyDeniedError
    (lit "policy denied authorization: " ++ joined "; " decision.reasons ++ lit " [" ++
      joined "," decision.reasonCodes ++ lit "]")
    (decision.signedDict meshDigest)

end Decision

namespace AuthorizationIssuer

variable (P : Primitives) (issuer : AuthorizationIssuer)

def serialize : ApprovalArg → Result PyVal
  | .signed approval => .ok (.dict approval.toDict)
  | .object value => .ok (.dict value)
  | .other => .error (.valueError
      (lit "approvals must be SignedApproval instances or objects"))

def effectiveRequest (request : PyDict) (approvals : Option (List ApprovalArg)) : Result PyDict :=
  match approvals with
  | none => .ok request
  | some approvals => do
      let serialized ← approvals.mapM serialize
      match request.getD "approvals" with
      | .none => .ok (request.set "approvals" (.list serialized))
      | .list existing => .ok (request.set "approvals" (.list (existing ++ serialized)))
      | .tuple existing => .ok (request.set "approvals" (.list (existing ++ serialized)))
      | _ => .error (.valueError (lit "request approvals must be a list when present"))

def actionText (request : PyDict) : Result (Option Str) :=
  match request.getD "action" with
  | .none => .ok none
  | action => do
      let text ← P.str action
      .ok (some text)

def environmentOf (request : PyDict) : PyVal :=
  match request.getD "context" with
  | .dict context => PyDict.getD context "environment"
  | _ => .none

def reprAction : Option Str → Str
  | some action => P.reprStr action
  | none => lit "None"

-- the reason and code of the first mesh requirement of the policy that is not met
def meshShortfall (action : Option Str) (request : PyDict) (policy : Policy)
    (inputs : List GovernanceInput) : Option Finding :=
  let requiredCount := (action.bind (Dict.get policy.requiredMeshInputs)).getD 0
  let requiredSources := (action.bind (Dict.get policy.requiredMeshSources)).getD []
  let active := action.any (fun a => policy.meshRequiredActions.contains a) ||
    policy.meshRequiredEnvironments.any (fun e => (environmentOf request).eq (.str e))
  let missing := requiredSources.filter
    (fun source => !(inputs.map GovernanceInput.sourceId).contains source)
  let inputsRequired := Finding.of (lit "mesh inputs required for action " ++ reprAction P action)
    "mesh_inputs_required"
  if active = false ∧ requiredCount = 0 ∧ requiredSources = [] then none
  else if active = true ∧ inputs.isEmpty then some inputsRequired
  else if inputs.length < requiredCount then some inputsRequired
  else if missing.isEmpty then none
  else some (.of (lit "mesh source requirements unmet: " ++ joined ", " missing)
    "mesh_sources_missing")

def arbitrate (request : PyDict) (call : AuthorizeCall) : Result Decision := do
  let action ← actionText P request
  match meshShortfall P action request call.policy call.meshInputs with
  | some finding => do
      let decision ← issuer.arbiter.decide P request call.policy
      .error ((decision.denied finding.code [finding.reason]).deniedError none)
  | none => issuer.arbiter.decide P request call.policy

-- everything authorize does before it may write to the log
def admission (call : AuthorizeCall) : Result (PyDict × Decision) := do
  raiseIf (call.ttlSeconds ≤ 0) (.valueError (lit "ttl_seconds must be positive"))
  raiseIf (call.policy.maxTtlSeconds < call.ttlSeconds)
    (.valueError (lit "ttl_seconds exceeds policy maximum"))
  let request ← effectiveRequest call.request call.approvals
  let decision ← issuer.arbitrate P request call
  .ok (request, decision)

def effectiveMesh : IssuerMesh :=
  issuer.mesh.getD ⟨{ sourceRegistry := issuer.meshSourceRegistry }, true⟩

def meshPreflight (log : ReplayLog) (request : PyDict) (inputs : List GovernanceInput) :
    Result (ReplayLog × Option GovernancePreflightDecision) :=
  match inputs with
  | [] => .ok (log, none)
  | inputs => do
      let requestDigest ← canonicalDigest P (.dict request)
      if issuer.effectiveMesh.recorded then do
        let (log, decision) ← issuer.effectiveMesh.mesh.preflight P log inputs requestDigest none
        .ok (log, some decision)
      else do
        let preflight ← issuer.effectiveMesh.mesh.evaluate P inputs requestDigest none
        .ok (log, some preflight.decision)

def ruled (decision : Decision) (mesh : Option GovernancePreflightDecision) : Decision :=
  match mesh with
  | none => decision
  | some mesh =>
      if mesh.allow then decision else decision.denied (lit "governance_mesh_denied") mesh.reasons

def authorizationFrameId (nonce : Str) : Str := lit "authorization:" ++ nonce

def deniedEvent (nonce : Str) (request decision : PyDict) : PyDict :=
  PyDict.ofFields
    [("type", .str "authorization"), ("nonce", .str nonce), ("request", .dict request),
      ("decision", .dict decision), ("issued", .bool false)]

def meshEvidence (request : PyDict) (inputs : List GovernanceInput)
    (mesh : Option GovernancePreflightDecision) : Result (List (String × PyVal)) :=
  match mesh with
  | none => .ok []
  | some mesh => do
      let requestDigest ← canonicalDigest P (.dict request)
      let items ← inputs.mapM (GovernanceInput.toDict P)
      .ok [("mesh_preflight_digest", .str mesh.digest),
        ("mesh_request_digest", .str requestDigest), ("mesh_inputs", .list (items.map .dict))]

def issuedEvent (unsigned : GovernanceAuthorizationArtifact) (inputs : List GovernanceInput)
    (mesh : Option GovernancePreflightDecision) : Result PyDict := do
  let payload ← unsigned.unsignedPayload P
  let evidence ← meshEvidence P unsigned.actionRequest inputs mesh
  .ok (PyDict.ofFields
    ([("type", .str "authorization"), ("nonce", .str unsigned.nonce),
      ("artifact_payload", .str (decode payload)), ("decision", .dict unsigned.decision),
      ("issued", .bool true)] ++ evidence))

def refuse (log : ReplayLog) (nonce : Str) (request : PyDict) (decision : Decision)
    (meshDigest : Option Str) : Authorization :=
  match log.append P (authorizationFrameId nonce)
      (deniedEvent nonce request (decision.signedDict meshDigest)) with
  | .error e => ⟨log, .error e⟩
  | .ok (log, _) => ⟨log, .error (decision.deniedError meshDigest)⟩

def grant (signer : Signer) (log : ReplayLog) (unsigned : GovernanceAuthorizationArtifact)
    (inputs : List GovernanceInput) (mesh : Option GovernancePreflightDecision) : Authorization :=
  match issuedEvent P unsigned inputs mesh with
  | .error e => ⟨log, .error e⟩
  | .ok event =>
      match log.append P (authorizationFrameId unsigned.nonce) event with
      | .error e => ⟨log, .error e⟩
      | .ok (log, _) =>
          ⟨log, GovernanceAuthorizationArtifact.issue P unsigned.actionRequest unsigned.decision
            unsigned.expiresAt unsigned.nonce unsigned.replayFrameRef signer⟩

-- the audited outcome of a request that arbitration and the mesh have ruled on
def settle (log : ReplayLog) (now : ℤ) (nonce : Str) (call : AuthorizeCall) (request : PyDict)
    (decision : Decision) (mesh : Option GovernancePreflightDecision) : Authorization :=
  let decision := ruled decision mesh
  let meshDigest := mesh.map GovernancePreflightDecision.digest
  if decision.allow then
    grant P issuer.issuer log
      ⟨request, decision.signedDict meshDigest, .int (now + call.ttlSeconds), nonce,
        authorizationFrameId nonce, issuer.issuer.keyId, []⟩ call.meshInputs mesh
  else refuse P log nonce request decision meshDigest

def authorize (log : ReplayLog) (now : ℤ) (nonce : Str) (call : AuthorizeCall) : Authorization :=
  match issuer.admission P call with
  | .error e => ⟨log, .error e⟩
  | .ok (request, decision) =>
      match issuer.meshPreflight P log request call.meshInputs with
      | .error e => ⟨log, .error e⟩
      | .ok (log, mesh) => issuer.settle P log now nonce call request decision mesh

def isFailedExecution (event : PyDict) : Bool :=
  (PyDict.getD event "type").eq (.str "execution") && (PyDict.getD event "status").eq (.str "failed")

def checkFailed (log : ReplayLog) (failedNonce : Str) : Result Unit := do
  raiseIf (failedNonce = []) (.valueError (lit "failed_nonce must not be empty"))
  let events ← log.eventsForNonce P failedNonce
  raiseIf (events.any isFailedExecution = false)
    (authorizationError (lit "compensation requires an audited failed execution"))

def authorizeCompensation (log : ReplayLog) (now : ℤ) (nonce failedNonce : Str) (request : PyDict)
    (policy : Policy) (ttlSeconds : ℤ) : Authorization :=
  match checkFailed P log failedNonce with
  | .error e => ⟨log, .error e⟩
  | .ok _ => issuer.authorize P log now nonce
      { request := request.set "compensation_for" (.str failedNonce), policy, ttlSeconds }

section Specification

variable {P issuer} {log : ReplayLog} {now : ℤ} {nonce : Str} {call : AuthorizeCall}

variable (P issuer call) in
-- the frame that authorize appends for its mesh preflight, when it makes one that is recorded
def preflightEntry : Result (Option (Str × PyDict)) := do
  let (request, _) ← issuer.admission P call
  if call.meshInputs.isEmpty || !issuer.effectiveMesh.recorded then .ok none
  else do
    let requestDigest ← canonicalDigest P (.dict request)
    let preflight ← issuer.effectiveMesh.mesh.evaluate P call.meshInputs requestDigest none
    .ok (some (GovernanceMesh.frameRef preflight,
      GovernanceMesh.preflightEvent requestDigest preflight))

structure AuthorizationEntry (nonce : Str) (entry : Str × PyDict) : Prop where
  frameId : entry.1 = authorizationFrameId nonce
  kind : PyDict.getD entry.2 "type" = .str "authorization"
  nonce : PyDict.getD entry.2 "nonce" = .str nonce

variable (P issuer log nonce call) in
-- all that authorize may do to the log, whatever it returns or raises
structure Writes (log' : ReplayLog) (preflights authorizations : List (Str × PyDict)) : Prop where
  appended : log.appendAll P (preflights ++ authorizations) = .ok log'
  preflight : preflights = [] ∨ ∃ entry, issuer.preflightEntry P call = .ok (some entry) ∧
    preflights = [entry]
  authorization : authorizations = [] ∨ ∃ entry, AuthorizationEntry nonce entry ∧
    authorizations = [entry]

theorem appendAll_singleton {log log' : ReplayLog} {frame : ReplayFrame} {frameId : Str}
    {event : PyDict} (h : log.append P frameId event = .ok (log', frame)) :
    log.appendAll P [(frameId, event)] = .ok log' :=
  (ReplayLog.appendAll_cons P).mpr ⟨log', frame, h, rfl⟩

theorem meshPreflight_writes {log' : ReplayLog} {request : PyDict} {decision : Decision}
    {mesh : Option GovernancePreflightDecision}
    (hadmission : issuer.admission P call = .ok (request, decision))
    (h : issuer.meshPreflight P log request call.meshInputs = .ok (log', mesh)) :
    Writes P issuer log nonce call log' [] [] ∨
      ∃ entry, Writes P issuer log nonce call log' [entry] [] := by
  unfold meshPreflight at h
  split at h
  · obtain ⟨rfl, -⟩ := Prod.mk.inj (Except.ok.inj h)
    exact Or.inl ⟨rfl, Or.inl rfl, Or.inl rfl⟩
  · rename_i hinputs
    have hsome : call.meshInputs.isEmpty = false := by
      cases hcall : call.meshInputs with
      | nil => exact absurd hcall hinputs
      | cons input inputs => rfl
    obtain ⟨requestDigest, hdigest, h⟩ := bind_eq_ok.mp h
    split at h
    · rename_i hrecorded
      simp only [GovernanceMesh.preflight, bind_eq_ok] at h
      obtain ⟨result, ⟨preflight, hevaluate, ⟨log'', frame⟩, happend, hresult⟩, h⟩ := h
      obtain rfl := Except.ok.inj hresult
      obtain ⟨rfl, -⟩ := Prod.mk.inj (Except.ok.inj h)
      refine Or.inr ⟨_, ⟨appendAll_singleton happend, Or.inr ⟨_, ?_, rfl⟩, Or.inl rfl⟩⟩
      refine bind_eq_ok.mpr ⟨_, hadmission, ?_⟩
      simp only [hsome, hrecorded, Bool.not_true, Bool.or_self, Bool.false_eq_true, if_false,
        bind_eq_ok]
      exact ⟨requestDigest, hdigest, preflight, hevaluate, rfl⟩
    · obtain ⟨preflight, -, h⟩ := bind_eq_ok.mp h
      obtain ⟨rfl, -⟩ := Prod.mk.inj (Except.ok.inj h)
      exact Or.inl ⟨rfl, Or.inl rfl, Or.inl rfl⟩

theorem issuedEvent_entry {unsigned : GovernanceAuthorizationArtifact}
    {inputs : List GovernanceInput} {mesh : Option GovernancePreflightDecision} {event : PyDict}
    (h : issuedEvent P unsigned inputs mesh = .ok event) :
    AuthorizationEntry unsigned.nonce (authorizationFrameId unsigned.nonce, event) := by
  simp only [issuedEvent, bind_eq_ok] at h
  obtain ⟨payload, -, evidence, -, h⟩ := h
  obtain rfl := Except.ok.inj h
  exact ⟨rfl, by simp [PyDict.getD], by simp [PyDict.getD]⟩

theorem deniedEvent_entry {request decision : PyDict} :
    AuthorizationEntry nonce (authorizationFrameId nonce, deniedEvent nonce request decision) :=
  ⟨rfl, by simp [deniedEvent, PyDict.getD], by simp [deniedEvent, PyDict.getD]⟩

theorem refuse_log {request : PyDict} {decision : Decision} {meshDigest : Option Str} :
    (refuse P log nonce request decision meshDigest).log = log ∨
      ∃ entry, AuthorizationEntry nonce entry ∧
        log.appendAll P [entry] = .ok (refuse P log nonce request decision meshDigest).log := by
  unfold refuse
  cases happend : log.append P (authorizationFrameId nonce)
      (deniedEvent nonce request (decision.signedDict meshDigest)) with
  | error e => exact Or.inl rfl
  | ok result => exact Or.inr ⟨_, deniedEvent_entry, appendAll_singleton happend⟩

theorem grant_log {signer : Signer} {unsigned : GovernanceAuthorizationArtifact}
    {inputs : List GovernanceInput} {mesh : Option GovernancePreflightDecision} :
    (grant P signer log unsigned inputs mesh).log = log ∨
      ∃ entry, AuthorizationEntry unsigned.nonce entry ∧
        log.appendAll P [entry] = .ok (grant P signer log unsigned inputs mesh).log := by
  unfold grant
  cases hevent : issuedEvent P unsigned inputs mesh with
  | error e => exact Or.inl rfl
  | ok event =>
      cases happend : log.append P (authorizationFrameId unsigned.nonce) event with
      | error e => simp [happend]
      | ok result =>
          simp only [happend]
          exact Or.inr ⟨_, issuedEvent_entry hevent, appendAll_singleton happend⟩

theorem settle_log {request : PyDict} {decision : Decision}
    {mesh : Option GovernancePreflightDecision} :
    (issuer.settle P log now nonce call request decision mesh).log = log ∨
      ∃ entry, AuthorizationEntry nonce entry ∧
        log.appendAll P [entry] =
          .ok (issuer.settle P log now nonce call request decision mesh).log := by
  simp only [settle]
  split
  · exact grant_log
  · exact refuse_log

theorem Writes.conclude {middle log' : ReplayLog} {preflights : List (Str × PyDict)}
    (h : Writes P issuer log nonce call middle preflights [])
    (hlog : log' = middle ∨ ∃ entry, AuthorizationEntry nonce entry ∧
      middle.appendAll P [entry] = .ok log') :
    ∃ authorizations, Writes P issuer log nonce call log' preflights authorizations := by
  rcases hlog with rfl | ⟨entry, hentry, happend⟩
  · exact ⟨[], h⟩
  · have hmiddle := h.appended
    rw [List.append_nil] at hmiddle
    exact ⟨[entry], (ReplayLog.appendAll_append P).mpr ⟨middle, hmiddle, happend⟩, h.preflight,
      Or.inr ⟨entry, hentry, rfl⟩⟩

theorem authorize_writes : ∃ preflights authorizations,
    Writes P issuer log nonce call (issuer.authorize P log now nonce call).log preflights
      authorizations := by
  unfold authorize
  cases hadmission : issuer.admission P call with
  | error e => exact ⟨[], [], rfl, Or.inl rfl, Or.inl rfl⟩
  | ok admitted =>
      obtain ⟨request, decision⟩ := admitted
      cases hmesh : issuer.meshPreflight P log request call.meshInputs with
      | error e =>
          simp only [hmesh]
          exact ⟨[], [], rfl, Or.inl rfl, Or.inl rfl⟩
      | ok result =>
          obtain ⟨middle, mesh⟩ := result
          simp only [hmesh]
          have hpreflight : Writes P issuer log nonce call middle [] [] ∨
              ∃ entry, Writes P issuer log nonce call middle [entry] [] :=
            meshPreflight_writes hadmission hmesh
          rcases hpreflight with hwrites | ⟨entry, hwrites⟩
          · exact ⟨[], hwrites.conclude settle_log⟩
          · exact ⟨[entry], hwrites.conclude settle_log⟩

end Specification

end AuthorizationIssuer

end GovernedAutonomy
