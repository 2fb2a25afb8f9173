import GovernedAutonomy.Engine

namespace GovernedAutonomy

open Python

namespace Demo

variable (P : Primitives)

def request : PyDict := PyDict.ofFields
  [("action", .str "send_email"), ("recipient", .str "user@example.com"), ("body", .str "Hello")]

def decision : PyDict := PyDict.ofFields
  [("allow", .bool true), ("allowed_actions", .list [.str "send_email"]), ("policy", .str "demo-v1")]

def frameId (nonce : Str) : Str := lit "authorization:" ++ nonce

def unsigned (issuer : Signer) (expiresAt : PyVal) (nonce : Str) : Artifact :=
  ⟨request, decision, expiresAt, nonce, frameId nonce, issuer.keyId, []⟩

def signed (issuer : Signer) (expiresAt : PyVal) (nonce : Str) (payload : String) : Artifact :=
  ⟨request, decision, expiresAt, nonce, frameId nonce, issuer.keyId, issuer.sign payload⟩

def event (nonce : Str) (payload : String) : PyDict := PyDict.ofFields
  [("type", .str "authorization"), ("nonce", .str nonce),
    ("artifact_payload", .str (decode payload))]

-- main up to the call of the barrier: audit the authorization, then sign the artifact
def authorize (log : ReplayLog) (issuer : Signer) (expiresAt : PyVal) (nonce : Str) :
    Result (ReplayLog × Artifact) := do
  let payload ← (unsigned issuer expiresAt nonce).unsignedPayload P
  let (log, frame) ← log.append P (frameId nonce) (event nonce payload)
  let artifact ← GovernanceAuthorizationArtifact.issue P request decision
    expiresAt nonce frame.frameId issuer
  .ok (log, artifact)

@[simp]
theorem signed_decision (issuer : Signer) (expiresAt : PyVal) (nonce : Str) (payload : String) :
    (signed issuer expiresAt nonce payload).decision = decision := rfl

@[simp]
theorem signed_actionRequest (issuer : Signer) (expiresAt : PyVal) (nonce : Str) (payload : String) :
    (signed issuer expiresAt nonce payload).actionRequest = request := rfl

@[simp]
theorem signed_nonce (issuer : Signer) (expiresAt : PyVal) (nonce : Str) (payload : String) :
    (signed issuer expiresAt nonce payload).nonce = nonce := rfl

variable {P} {log log' : ReplayLog} {issuer : Signer} {expiresAt : PyVal}
  {nonce : Str} {artifact : Artifact}

theorem authorize_eq_ok (h : authorize P log issuer expiresAt nonce = .ok (log', artifact)) :
    ∃ payload frame, (unsigned issuer expiresAt nonce).unsignedPayload P = .ok payload ∧
      log.append P (frameId nonce) (event nonce payload) = .ok (log', frame) ∧
      artifact = signed issuer expiresAt nonce payload := by
  simp only [authorize, bind_eq_ok] at h
  obtain ⟨payload, hpayload, ⟨log'', frame⟩, happend, a, hissue, h⟩ := h
  obtain ⟨rfl, rfl⟩ := Prod.mk.inj (Except.ok.inj h)
  refine ⟨payload, frame, hpayload, happend, ?_⟩
  have hid := ((ReplayFrame.create_eq_ok P).mp ((ReplayLog.append_eq_ok P).mp happend).1).1
  rw [hid] at hissue
  simp only [GovernanceAuthorizationArtifact.issue, bind_eq_ok] at hissue
  obtain ⟨payload', hpayload', hissue⟩ := hissue
  have hsame : payload' = payload := Except.ok.inj (hpayload'.symm.trans hpayload)
  rw [← Except.ok.inj hissue, hsame]
  rfl

theorem authorize_isOk (hlog : log.Linked P) (hdepth : 4 ≤ P.recursionLimit)
    (hnonce : Json.Clean nonce) (hkey : Json.Clean issuer.keyId)
    (hexpiry : expiresAt.Encodable (P.recursionLimit - 1)) :
    ∃ log' artifact, authorize P log issuer expiresAt nonce = .ok (log', artifact) := by
  have hid : Json.Clean (frameId nonce) := Json.clean_append (Json.clean_lit _) hnonce
  have hpayload : ∃ payload, (unsigned issuer expiresAt nonce).unsignedPayload P = .ok payload := by
    rw [GovernanceAuthorizationArtifact.unsignedPayload, canonicalJson_isOk,
      GovernanceAuthorizationArtifact.unsignedDict, PyVal.encodable_ofFields]
    simp only [List.forall_mem_cons, PyVal.encodable_str, unsigned, request, decision,
      PyVal.encodable_ofFields, PyVal.encodable_bool, PyVal.encodable_list]
    simp only [hnonce, hid, hkey, hexpiry, Json.clean_lit, List.not_mem_nil, IsEmpty.forall_iff,
      implies_true, and_true, true_and]
    omega
  obtain ⟨payload, hpayload⟩ := hpayload
  have hframe : ∃ frame, ReplayFrame.create P (frameId nonce) log.headHash (event nonce payload) =
      .ok frame := by
    refine (ReplayFrame.create_isOk P).mpr ⟨by omega, hid, ReplayLog.clean_headHash P hlog, ?_⟩
    rw [event, PyVal.encodable_ofFields]
    simp only [List.forall_mem_cons, PyVal.encodable_str]
    exact ⟨by omega, Json.clean_lit _, hnonce, Json.clean_lit _, by simp⟩
  obtain ⟨frame, hcreate⟩ := hframe
  have hframeId := ((ReplayFrame.create_eq_ok P).mp hcreate).1
  have happend := (ReplayLog.append_eq_ok P).mpr ⟨hcreate, rfl⟩
  refine ⟨{ log with frames := log.frames ++ [frame] }, signed issuer expiresAt nonce payload, ?_⟩
  simp only [authorize, bind_eq_ok]
  refine ⟨payload, hpayload, _, happend, _, ?_, rfl⟩
  rw [hframeId]
  exact bind_eq_ok.mpr ⟨payload, hpayload, rfl⟩

theorem authorizedBy (h : authorize P log issuer expiresAt nonce = .ok (log', artifact)) :
    ∃ frame, log'.frames = log.frames ++ [frame] ∧ frame.frameId = frameId nonce ∧
      ExecutionBoundary.AuthorizedBy P artifact frame := by
  obtain ⟨payload, frame, hpayload, happend, rfl⟩ := authorize_eq_ok h
  obtain ⟨hcreate, rfl⟩ := (ReplayLog.append_eq_ok P).mp happend
  obtain ⟨hid, -, hevent, -⟩ := (ReplayFrame.create_eq_ok P).mp hcreate
  refine ⟨frame, rfl, hid, ?_, ?_, ⟨payload, hpayload, ?_⟩, ?_, ?_⟩
  · simp [hevent, event, PyDict.getD]
  · simp [hevent, event, PyDict.getD]
  · simp [hevent, event, PyDict.getD]
  · refine ExecutionBoundary.validateMeshEvidence_of_none ?_ ?_
    · simp [decision, PyDict.getD]
    · intro key hkey
      simp only [ExecutionBoundary.evidenceKeys, List.mem_cons, List.not_mem_nil, or_false] at hkey
      rw [hevent]
      rcases hkey with rfl | rfl | rfl
      · simp [event, PyDict.has]
      · simp [event, PyDict.has]
      · simp [event, PyDict.has]
  · simp [decision, PyDict.getD]

-- the demo's artifact passes a boundary that trusts the issuer and whose registry allows it
theorem validates (h : authorize P log issuer expiresAt nonce = .ok (log', artifact))
    (boundary : ExecutionBoundary) (key : PublicKey) (later : ℤ)
    (htrusted : boundary.keySource.Trusted issuer.keyId key)
    (hverifies : ∀ payload, verifySignature P key payload (issuer.sign payload) = true)
    (hpolicy : ExecutionBoundary.checkPolicy P boundary artifact = .ok ())
    (hlater : ExecutionBoundary.checkExpiry later artifact = .ok ())
    (hunused : nonce ∉ log.usedNonces) (hnew : ∀ frame ∈ log.frames, frame.frameId ≠ frameId nonce) :
    ExecutionBoundary.validate P boundary log' later artifact = .ok () := by
  obtain ⟨frame, hframes, hid, hauth⟩ := authorizedBy h
  obtain ⟨payload, frame', hpayload, happend, rfl⟩ := authorize_eq_ok h
  obtain ⟨-, rfl⟩ := (ReplayLog.append_eq_ok P).mp happend
  rw [ExecutionBoundary.validate_eq_ok]
  intro check
  cases check with
  | signature =>
      exact ExecutionBoundary.checkSignature_eq_ok.mpr
        ⟨key, payload, htrusted, hpayload, hverifies payload⟩
  | expiry => exact hlater
  | unused =>
      refine ExecutionBoundary.checkUnused_eq_ok.mpr ?_
      simpa [ReplayLog.nonceUsed] using hunused
  | frame =>
      refine ExecutionBoundary.checkFrame_eq_ok.mpr ⟨frame, ?_, hauth⟩
      have hnone : log.frames.find? (fun f => decide (f.frameId = frameId nonce)) = none := by
        rw [List.find?_eq_none]
        intro f hf
        simpa using hnew f hf
      simp only [ReplayLog.getFrame] at hframes ⊢
      rw [hframes, List.find?_append, show (signed issuer expiresAt nonce payload).replayFrameRef =
        frameId nonce from rfl, hnone]
      simp [hid]
  | policy => exact hpolicy
  | action =>
      have haction : ExecutionBoundary.checkAction (signed issuer expiresAt nonce payload) = .ok () := by
        refine ExecutionBoundary.checkAction_eq_ok.mpr
          ⟨[.str "send_email"], ?_, .str "send_email", List.mem_cons_self, ?_⟩
        · simp [decision, PyDict.getD]
        · simp [request, PyDict.getD, PyVal.eq]
      exact haction

def signer : Signer := ⟨"issuer-1", fun _ => "c2ln"⟩

def publicKey : PublicKey := ⟨[1]⟩

def boundary : ExecutionBoundary where
  keySource := .issuerKeys [("issuer-1", publicKey)]

theorem signer_verifies (payload : String) :
    verifySignature referencePrimitives publicKey payload (signer.sign payload) = true := by
  have hdecodes : (b64decode (signer.sign payload)).toOption.isSome = true :=
    show (b64decode "c2ln").toOption.isSome = true by decide +kernel
  unfold verifySignature
  cases hraw : b64decode (signer.sign payload) with
  | error e =>
      rw [hraw] at hdecodes
      cases hdecodes
  | ok raw => rfl

def startUntil (expiresAt : PyVal) : Result (ReplayLog × Artifact) :=
  authorize referencePrimitives {} signer expiresAt "n-1"

def start : Result (ReplayLog × Artifact) := startUntil (.int 300)

theorem startUntil_validates {log : ReplayLog} {artifact : Artifact} {expiresAt : PyVal}
    (h : startUntil expiresAt = .ok (log, artifact))
    (hlater : ExecutionBoundary.checkExpiry 0 artifact = .ok ()) :
    ExecutionBoundary.validate referencePrimitives boundary log 0 artifact = .ok () :=
  validates h boundary publicKey 0 rfl signer_verifies rfl hlater (by simp) (by simp)

theorem start_unexpired {log : ReplayLog} {artifact : Artifact} (h : start = .ok (log, artifact)) :
    ExecutionBoundary.checkExpiry 0 artifact = .ok () := by
  obtain ⟨payload, frame, -, -, rfl⟩ := authorize_eq_ok h
  exact (ExecutionBoundary.checkExpiry_of_int rfl).mpr (by decide)

theorem start_validates {log : ReplayLog} {artifact : Artifact} (h : start = .ok (log, artifact)) :
    ExecutionBoundary.validate referencePrimitives boundary log 0 artifact = .ok () :=
  startUntil_validates h (start_unexpired h)

def policy : Policy where
  policyId := "demo-v1"
  allowedActions := ["send_email"]
  requiredFields := []
  exactFields := []

theorem startUntil_isOk {expiresAt : PyVal}
    (h : expiresAt.Encodable (referencePrimitives.recursionLimit - 1)) :
    ∃ log artifact, startUntil expiresAt = .ok (log, artifact) :=
  authorize_isOk trivial (by decide) (Json.clean_lit _) (Json.clean_lit _) h

theorem start_isOk : ∃ log artifact, start = .ok (log, artifact) :=
  startUntil_isOk (PyVal.encodable_int.mpr (by decide))

end Demo

end GovernedAutonomy
