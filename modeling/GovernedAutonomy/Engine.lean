import GovernedAutonomy.Mesh
import GovernedAutonomy.Python.Ordering

namespace GovernedAutonomy

open Python

abbrev Artifact := GovernanceAuthorizationArtifact

structure ExecutionBoundary where
  keySource : KeySource
  policyRegistry : Option PolicyRegistry := none
  arbiter : DeterministicArbiter := {}

inductive HandlerOutcome where
  | returned (result : PyVal)
  | raised (errorType : String) (text : Result Str)

def HandlerOutcome.isReturn : HandlerOutcome → Bool
  | .returned _ => true
  | .raised _ _ => false

def deny {α : Type} (message : String) : Result α := .error (authorizationError (lit message))

def denyIf (c : Prop) [Decidable c] (message : String) : Result Unit :=
  raiseIf c (authorizationError (lit message))

@[simp]
theorem denyIf_eq_ok {c : Prop} [Decidable c] {message : String} {u : Unit} :
    denyIf c message = .ok u ↔ ¬ c := raiseIf_eq_ok

namespace ExecutionBoundary

variable (P : Primitives) (boundary : ExecutionBoundary)

def evidenceKeys : List String := ["mesh_preflight_digest", "mesh_request_digest", "mesh_inputs"]

def rebuildInputs : List PyVal → Result (List GovernanceInput)
  | [] => .ok []
  | item :: items => do
      let input ← GovernanceInput.fromDict P item
      let rest ← rebuildInputs items
      .ok (input :: rest)

def isMeshFailure (e : Exc) : Bool := e.isTypeError || e.isValueError

def reconstruct (rawInputs : List PyVal) (requestDigest : Str) :
    Result GovernancePreflightDecision :=
  reraise isMeshFailure (authorizationError (lit "mesh evidence is invalid")) (do
    let inputs ← rebuildInputs P rawInputs
    let preflight ← ({} : GovernanceMesh).evaluate P inputs requestDigest none
    .ok preflight.decision)

def checkReconstruction (artifact : Artifact) (frame : ReplayFrame) (digest : Str) :
    Result Unit := do
  denyIf (PyDict.hasAll frame.event evidenceKeys = false) "mesh evidence is incomplete"
  denyIf ((PyDict.getD frame.event "mesh_preflight_digest").eq (.str digest) = false)
    "mesh evidence digest does not match signed decision"
  let requestDigest ← canonicalDigest P (.dict artifact.actionRequest)
  denyIf ((PyDict.getD frame.event "mesh_request_digest").eq (.str requestDigest) = false)
    "mesh evidence does not match the authorized request"
  match PyDict.getD frame.event "mesh_inputs" with
  | .list (raw :: rawInputs) => do
      let decision ← reconstruct P (raw :: rawInputs) requestDigest
      denyIf (decision.allow = false ∨ decision.digest ≠ digest)
        "mesh evidence does not reconstruct to the signed digest"
      let expected ← ReplayFrame.create P frame.frameId frame.previousHash frame.event
      denyIf (expected.frameHash ≠ frame.frameHash)
        "mesh authorization replay evidence is tampered"
  | _ => deny "mesh evidence inputs are malformed"

def validateMeshEvidence (artifact : Artifact) (frame : ReplayFrame) : Result Unit :=
  match artifact.decision.getD "mesh_preflight_digest" with
  | .none =>
      denyIf (evidenceKeys.any (fun key => PyDict.has frame.event (lit key)) = true)
        "mesh evidence is present without a signed mesh digest"
  | .str (c :: digest) => checkReconstruction P artifact frame (c :: digest)
  | _ => deny "mesh preflight digest is malformed"

def checkSignature (artifact : Artifact) : Result Unit :=
  match boundary.keySource.resolve artifact.issuerKeyId with
  | none => deny "GAA signature is invalid or issuer is unknown"
  | some key => do
      let payload ← artifact.unsignedPayload P
      denyIf (verifySignature P key payload artifact.signature = false)
        "GAA signature is invalid or issuer is unknown"

def checkExpiry (now : ℤ) (artifact : Artifact) : Result Unit := do
  let expired ← artifact.expiresAt.compareNumber (fun x => decide (x ≤ intValue now))
  denyIf (expired = true) "GAA is expired"

def checkUnused (log : ReplayLog) (artifact : Artifact) : Result Unit :=
  denyIf (log.nonceUsed artifact.nonce = true) "GAA nonce has already been used"

def checkFrame (log : ReplayLog) (artifact : Artifact) : Result Unit :=
  match log.getFrame artifact.replayFrameRef with
  | none => deny "authorization replay frame is missing"
  | some frame => do
      denyIf ((PyDict.getD frame.event "type").eq (.str "authorization") = false)
        "authorization replay frame is missing"
      denyIf ((PyDict.getD frame.event "nonce").eq (.str artifact.nonce) = false)
        "nonce does not match authorization frame"
      let payload ← artifact.unsignedPayload P
      denyIf ((PyDict.getD frame.event "artifact_payload").eq (.str (decode payload)) = false)
        "authorization frame does not match GAA"
      validateMeshEvidence P artifact frame
      match artifact.decision.getD "allow" with
      | .bool true => .ok ()
      | _ => deny "policy decision does not allow execution"

def violation (decision : Decision) : Str :=
  lit "action request violates policy constraints: " ++ joined "; " decision.reasons ++
    lit " [" ++ joined "," decision.reasonCodes ++ lit "]"

def digestMismatch (expected : PyVal) (digest : Result Str) : Result Bool :=
  match expected with
  | .none => .ok false
  | expected => do
      let current ← digest
      .ok (!expected.eq (.str current))

def checkPolicy (artifact : Artifact) : Result Unit :=
  match boundary.policyRegistry with
  | none => .ok ()
  | some registry => do
      match ← registry.getPolicy (artifact.decision.getD "policy") with
      | none => deny "GAA policy is not registered"
      | some policy => do
          let mismatch ← digestMismatch (artifact.decision.getD "policy_digest") (policy.digest P)
          denyIf (mismatch = true) "GAA policy digest does not match registry"
          let decision ← boundary.arbiter.decide P artifact.actionRequest policy
          raiseIf (decision.allow = false) (authorizationError (violation decision))

def checkAction (artifact : Artifact) : Result Unit :=
  match artifact.decision.getD "allowed_actions" with
  | .list actions =>
      denyIf (actions.any (fun a => a.eq (artifact.actionRequest.getD "action")) = false)
        "requested action is outside policy constraints"
  | _ => deny "requested action is outside policy constraints"

-- the checks of _validate, in the order it makes them
inductive Check where
  | signature
  | expiry
  | unused
  | frame
  | policy
  | action
deriving DecidableEq, Repr

def Check.all : List Check := [.signature, .expiry, .unused, .frame, .policy, .action]

def Check.run (log : ReplayLog) (now : ℤ) (artifact : Artifact) : Check → Result Unit
  | .signature => checkSignature P boundary artifact
  | .expiry => checkExpiry now artifact
  | .unused => checkUnused log artifact
  | .frame => checkFrame P log artifact
  | .policy => checkPolicy P boundary artifact
  | .action => checkAction artifact

def validate (log : ReplayLog) (now : ℤ) (artifact : Artifact) : Result Unit :=
  Check.all.forM (Check.run P boundary log now artifact)

-- the fields of the dict _result_audit returns
def resultAudit (result : PyVal) : Result (List (String × PyVal)) :=
  match canonicalJson P result with
  | .error e =>
      if e.isTypeError || e.isValueError then
        .ok [("result_omitted", .bool true), ("result_omission_reason", .str "not-json")]
      else .error e
  | .ok encoded =>
      .ok ([("result_digest", .str (hexdigest P encoded)),
          ("result_bytes", .int encoded.utf8ByteSize)] ++
        (if encoded.utf8ByteSize ≤ 4096 then [("result", result)]
        else [("result_omitted", .bool true), ("result_omission_reason", .str "size-limit")]))

def outcomeFields : HandlerOutcome → Result (List (String × PyVal))
  | .returned result => resultAudit P result
  | .raised errorType text => do
      let error ← text
      .ok [("error_type", .str (lit errorType)), ("error", .str (error.take 512))]

def statusOf : HandlerOutcome → String
  | .returned _ => "completed"
  | .raised _ _ => "failed"

def executionEvent (artifact : Artifact) (outcome : HandlerOutcome) : Result PyDict := do
  let fields ← outcomeFields P outcome
  .ok (PyDict.ofFields
    ([("type", .str "execution"), ("nonce", .str artifact.nonce),
      ("authorization_frame_ref", .str artifact.replayFrameRef),
      ("policy", artifact.decision.getD "policy"), ("status", .str (lit (statusOf outcome)))] ++
      fields))

def executionFrameId (artifact : Artifact) : Str := lit "execution:" ++ artifact.nonce

def claim (log : ReplayLog) (artifact : Artifact) : Result ReplayLog :=
  reraise Exc.isValueError (authorizationError (lit "GAA nonce has already been used"))
    (log.claimNonce artifact.nonce)

def record (log : ReplayLog) (artifact : Artifact) (outcome : HandlerOutcome) :
    Result ReplayLog := do
  let event ← executionEvent P artifact outcome
  let (log, _) ← log.append P (executionFrameId artifact) event
  .ok log

structure Execution where
  log : ReplayLog
  invoked : Bool
  result : Result PyVal

def reported : HandlerOutcome → Result PyVal
  | .returned result => .ok result
  | .raised errorType text => .error (.custom errorType false (text.toOption.getD []) .none)

-- one uninterrupted call: validate, claim the nonce, run the handler, append the outcome
def execute (log : ReplayLog) (now : ℤ) (artifact : Artifact)
    (action : PyDict → HandlerOutcome) : Execution :=
  match validate P boundary log now artifact with
  | .error e => ⟨log, false, .error e⟩
  | .ok _ =>
      match claim log artifact with
      | .error e => ⟨log, false, .error e⟩
      | .ok claimed =>
          let outcome := action artifact.actionRequest
          match record P claimed artifact outcome with
          | .error e => ⟨claimed, true, .error e⟩
          | .ok recorded => ⟨recorded, true, reported outcome⟩

section Specification

variable {P boundary} {log : ReplayLog} {now : ℤ} {artifact : Artifact}

theorem checkSignature_eq_ok :
    checkSignature P boundary artifact = .ok () ↔
      ∃ key payload, boundary.keySource.Trusted artifact.issuerKeyId key ∧
        artifact.unsignedPayload P = .ok payload ∧
          verifySignature P key payload artifact.signature = true := by
  unfold checkSignature
  cases hkey : boundary.keySource.resolve artifact.issuerKeyId with
  | none =>
      simp only [deny, reduceCtorEq, false_iff, not_exists, not_and]
      intro key payload htrusted
      rw [← KeySource.resolve_eq_some, hkey] at htrusted
      cases htrusted
  | some key =>
      simp only [bind_eq_ok, denyIf_eq_ok, Bool.not_eq_false]
      constructor
      · rintro ⟨payload, hpayload, hsig⟩
        exact ⟨key, payload, KeySource.resolve_eq_some.mp hkey, hpayload, hsig⟩
      · rintro ⟨key', payload, htrusted, hpayload, hsig⟩
        rw [← KeySource.resolve_eq_some, hkey] at htrusted
        obtain rfl := Option.some.inj htrusted
        exact ⟨payload, hpayload, hsig⟩

variable (now artifact) in
-- clock() < expires_at
def Unexpired : Prop :=
  ∃ x, artifact.expiresAt.number? = some x ∧ intValue now < x

theorem checkExpiry_eq_ok :
    checkExpiry now artifact = .ok () ↔ Unexpired now artifact ∨ artifact.expiresAt = .float .nan := by
  simp only [checkExpiry, bind_eq_ok, denyIf_eq_ok, PyVal.compareNumber_eq_ok, Unexpired]
  cases hvalue : artifact.expiresAt.number? with
  | none =>
      constructor
      · rintro ⟨_, ⟨hnumber, -⟩, -⟩
        exact .inr ((PyVal.number?_eq_none hnumber).mp hvalue)
      · rintro (⟨x, hx, -⟩ | hnan)
        · cases hx
        · exact ⟨false, ⟨by rw [hnan]; rfl, rfl⟩, by simp⟩
  | some x =>
      have hnumber := PyVal.isNumber_of_number? hvalue
      have hnan : artifact.expiresAt ≠ .float .nan := by
        intro h
        rw [h] at hvalue
        cases hvalue
      simp [hnumber, hnan]

theorem unexpired_of_int {e : ℤ} (h : artifact.expiresAt = .int e) :
    Unexpired now artifact ↔ now < e := by
  rw [Unexpired, h]
  simp [PyVal.number?, PyVal.intValue_lt]

theorem checkExpiry_of_int {e : ℤ} (h : artifact.expiresAt = .int e) :
    checkExpiry now artifact = .ok () ↔ now < e := by
  rw [checkExpiry_eq_ok, unexpired_of_int h, h]
  simp

theorem checkUnused_eq_ok :
    checkUnused log artifact = .ok () ↔ log.nonceUsed artifact.nonce = false := by
  rw [checkUnused, denyIf_eq_ok, Bool.not_eq_true]

variable (P artifact) in
structure AuthorizedBy (frame : ReplayFrame) : Prop where
  kind : PyDict.getD frame.event "type" = .str "authorization"
  nonce : PyDict.getD frame.event "nonce" = .str artifact.nonce
  payload : ∃ payload, artifact.unsignedPayload P = .ok payload ∧
    PyDict.getD frame.event "artifact_payload" = .str (decode payload)
  mesh : validateMeshEvidence P artifact frame = .ok ()
  allowed : artifact.decision.getD "allow" = .bool true

theorem checkFrame_eq_ok :
    checkFrame P log artifact = .ok () ↔
      ∃ frame, log.getFrame artifact.replayFrameRef = some frame ∧
        AuthorizedBy P artifact frame := by
  unfold checkFrame
  cases log.getFrame artifact.replayFrameRef with
  | none => simp [deny]
  | some frame =>
      simp only [bind_eq_ok, denyIf_eq_ok, Bool.not_eq_false, PyVal.eq_str_right,
        Option.some.injEq, exists_eq_left']
      constructor
      · rintro ⟨-, hkind, -, hnonce, payload, hpayload, -, hevent, ⟨⟩, hmesh, hallow⟩
        refine ⟨hkind, hnonce, ⟨payload, hpayload, hevent⟩, hmesh, ?_⟩
        split at hallow
        · assumption
        · cases hallow
      · rintro ⟨hkind, hnonce, ⟨payload, hpayload, hevent⟩, hmesh, hallow⟩
        refine ⟨(), hkind, (), hnonce, payload, hpayload, (), hevent, (), hmesh, ?_⟩
        rw [hallow]

variable (P artifact) in
def MeshReconstructs (frame : ReplayFrame) : Prop :=
  artifact.decision.getD "mesh_preflight_digest" = .none ∨
    ∃ digest rawInputs requestDigest decision,
      artifact.decision.getD "mesh_preflight_digest" = .str digest ∧
      PyDict.getD frame.event "mesh_inputs" = .list rawInputs ∧
      canonicalDigest P (.dict artifact.actionRequest) = .ok requestDigest ∧
      reconstruct P rawInputs requestDigest = .ok decision ∧
      decision.allow = true ∧ decision.digest = digest

theorem meshReconstructs_of_validate {frame : ReplayFrame}
    (h : validateMeshEvidence P artifact frame = .ok ()) : MeshReconstructs P artifact frame := by
  unfold validateMeshEvidence at h
  split at h
  · rename_i hnone
    exact Or.inl hnone
  · rename_i c digest hdigest
    simp only [checkReconstruction, bind_eq_ok, denyIf_eq_ok] at h
    obtain ⟨-, -, -, -, requestDigest, hrequest, -, -, h⟩ := h
    split at h
    · rename_i raw rawInputs hinputs
      simp only [bind_eq_ok, denyIf_eq_ok, not_or, Bool.not_eq_false, not_not] at h
      obtain ⟨decision, hdecision, -, hmatch, -⟩ := h
      exact Or.inr ⟨c :: digest, raw :: rawInputs, requestDigest, decision, hdigest, hinputs,
        hrequest, hdecision, hmatch.1, hmatch.2⟩
    · cases h
  · cases h

theorem validateMeshEvidence_of_none {frame : ReplayFrame}
    (hdigest : artifact.decision.getD "mesh_preflight_digest" = .none)
    (hevent : ∀ key ∈ evidenceKeys, PyDict.has frame.event (lit key) = false) :
    validateMeshEvidence P artifact frame = .ok () := by
  rw [validateMeshEvidence, hdigest]
  refine denyIf_eq_ok.mpr ?_
  rw [List.any_eq_true]
  rintro ⟨key, hkey, hhas⟩
  rw [hevent key hkey] at hhas
  cases hhas

variable (P boundary artifact) in
structure PolicyAllows (registry : PolicyRegistry) : Prop where
  registered : ∃ policyId policy, artifact.decision.getD "policy" = .str policyId ∧
    Dict.get registry.policies policyId = some policy ∧
    digestMismatch (artifact.decision.getD "policy_digest") (policy.digest P) = .ok false ∧
    ∃ decision, boundary.arbiter.decide P artifact.actionRequest policy = .ok decision ∧
      decision.allow = true

theorem lookup_eq_some {V : Type} {d : List (Str × V)} {key : PyVal} {v : V} :
    lookup d key = .ok (some v) ↔ ∃ s, key = .str s ∧ Dict.get d s = some v := by
  unfold lookup
  split
  · rename_i s
    simp
  · rename_i h
    constructor
    · intro hlookup
      split at hlookup <;> cases hlookup
    · rintro ⟨s, rfl, -⟩
      exact absurd rfl (h s)

theorem checkPolicy_eq_ok :
    checkPolicy P boundary artifact = .ok () ↔
      ∀ registry, boundary.policyRegistry = some registry →
        PolicyAllows P boundary artifact registry := by
  unfold checkPolicy
  cases boundary.policyRegistry with
  | none => simp
  | some registry =>
      simp only [Option.some.injEq, forall_eq', bind_eq_ok]
      constructor
      · rintro ⟨found, hfound, h⟩
        cases found with
        | none => cases h
        | some policy =>
            simp only [bind_eq_ok, denyIf_eq_ok, raiseIf_eq_ok, Bool.not_eq_true,
              Bool.not_eq_false] at h
            obtain ⟨mismatch, hmismatch, -, rfl, decision, hdecision, hallow⟩ := h
            obtain ⟨policyId, hid, hpolicy⟩ := lookup_eq_some.mp hfound
            exact ⟨policyId, policy, hid, hpolicy, hmismatch, decision, hdecision, hallow⟩
      · rintro ⟨policyId, policy, hid, hpolicy, hmismatch, decision, hdecision, hallow⟩
        refine ⟨some policy, lookup_eq_some.mpr ⟨policyId, hid, hpolicy⟩, ?_⟩
        simp only [bind_eq_ok, denyIf_eq_ok, raiseIf_eq_ok, Bool.not_eq_true, Bool.not_eq_false]
        exact ⟨false, hmismatch, (), rfl, decision, hdecision, hallow⟩

theorem checkAction_eq_ok :
    checkAction artifact = .ok () ↔
      ∃ actions, artifact.decision.getD "allowed_actions" = .list actions ∧
        ∃ a ∈ actions, a.eq (artifact.actionRequest.getD "action") = true := by
  unfold checkAction
  split
  · rename_i actions hactions
    simp [hactions]
  · rename_i h
    simp only [deny, reduceCtorEq, false_iff, not_exists, not_and]
    intro actions hactions
    exact absurd hactions (h actions)

variable (P boundary log now artifact) in
def Check.Holds : Check → Prop
  | .signature => ∃ key payload, boundary.keySource.Trusted artifact.issuerKeyId key ∧
      artifact.unsignedPayload P = .ok payload ∧
        verifySignature P key payload artifact.signature = true
  | .expiry => Unexpired now artifact
  | .unused => log.nonceUsed artifact.nonce = false
  | .frame => ∃ frame ∈ log.frames, frame.frameId = artifact.replayFrameRef ∧
      AuthorizedBy P artifact frame ∧ MeshReconstructs P artifact frame
  | .policy => ∀ registry, boundary.policyRegistry = some registry →
      PolicyAllows P boundary artifact registry
  | .action => ∃ actions, artifact.decision.getD "allowed_actions" = .list actions ∧
      ∃ a ∈ actions, a.eq (artifact.actionRequest.getD "action") = true

theorem getFrame_eq_some {frameId : Str} {frame : ReplayFrame}
    (h : log.getFrame frameId = some frame) : frame ∈ log.frames ∧ frame.frameId = frameId :=
  ⟨List.mem_of_find?_eq_some h, by simpa using List.find?_some h⟩

-- a NaN is no later than the clock, and no earlier either
theorem Check.holds_of_run {check : Check} (h : check.run P boundary log now artifact = .ok ())
    (hexpires : artifact.expiresAt ≠ .float .nan) :
    check.Holds P boundary log now artifact := by
  cases check with
  | signature => exact checkSignature_eq_ok.mp h
  | expiry => exact (checkExpiry_eq_ok.mp h).resolve_right hexpires
  | unused => exact checkUnused_eq_ok.mp h
  | frame =>
      obtain ⟨frame, hframe, hauth⟩ := checkFrame_eq_ok.mp h
      obtain ⟨hmem, hid⟩ := getFrame_eq_some hframe
      exact ⟨frame, hmem, hid, hauth, meshReconstructs_of_validate hauth.mesh⟩
  | policy => exact checkPolicy_eq_ok.mp h
  | action => exact checkAction_eq_ok.mp h

theorem validate_eq_ok :
    validate P boundary log now artifact = .ok () ↔
      ∀ check : Check, check.run P boundary log now artifact = .ok () := by
  rw [validate, forM_eq_ok]
  refine ⟨fun h check => h check ?_, fun h check _ => h check⟩
  cases check <;> decide

theorem claim_eq_ok {log log' : ReplayLog} {artifact : Artifact} :
    claim log artifact = .ok log' ↔ log.nonceUsed artifact.nonce = false ∧
      log' = { log with usedNonces := artifact.nonce :: log.usedNonces } := by
  rw [claim, reraise_eq_ok, ReplayLog.claimNonce]
  split
  · rename_i hused
    simp [hused]
  · rename_i hunused
    rw [Bool.not_eq_true] at hunused
    simp [hunused, eq_comm]

def claimed (log : ReplayLog) (artifact : Artifact) : ReplayLog :=
  { log with usedNonces := artifact.nonce :: log.usedNonces }

theorem claim_of_validate (h : validate P boundary log now artifact = .ok ()) :
    claim log artifact = .ok (claimed log artifact) :=
  claim_eq_ok.mpr ⟨checkUnused_eq_ok.mp (validate_eq_ok.mp h .unused), rfl⟩

theorem execute_of_validate {action : PyDict → HandlerOutcome}
    (h : validate P boundary log now artifact = .ok ()) :
    execute P boundary log now artifact action =
      match record P (claimed log artifact) artifact (action artifact.actionRequest) with
      | .error e => ⟨claimed log artifact, true, .error e⟩
      | .ok recorded => ⟨recorded, true, reported (action artifact.actionRequest)⟩ := by
  rw [execute, h]
  simp only [claim_of_validate h]

theorem execute_invoked {action : PyDict → HandlerOutcome} :
    (execute P boundary log now artifact action).invoked = true ↔
      validate P boundary log now artifact = .ok () := by
  cases h : validate P boundary log now artifact with
  | error e => simp [execute, h]
  | ok u =>
      rw [execute_of_validate h]
      cases record P (claimed log artifact) artifact (action artifact.actionRequest) <;> simp

end Specification

end ExecutionBoundary

end GovernedAutonomy
