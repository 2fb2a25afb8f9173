import GovernedAutonomy.Engine
import GovernedAutonomy.Issuer

namespace GovernedAutonomy

open Python

namespace AuthorizationIssuer

variable {P : Primitives} {issuer : AuthorizationIssuer} {log log' : ReplayLog} {now later : ℤ}
  {nonce : Str} {call : AuthorizeCall} {artifact : Artifact} {payload : String}

-- the event of a grant that no mesh was consulted for
def grantedEvent (unsigned : Artifact) (payload : String) : PyDict :=
  PyDict.ofFields
    [("type", .str "authorization"), ("nonce", .str unsigned.nonce),
      ("artifact_payload", .str (decode payload)), ("decision", .dict unsigned.decision),
      ("issued", .bool true)]

theorem refuse_ne_ok {request : PyDict} {denied : Decision} {meshDigest : Option Str} :
    (refuse P log nonce request denied meshDigest).result ≠ .ok artifact := by
  unfold refuse
  split
  · simp
  · simp

theorem nesting_decision (decision : Decision) : (PyVal.dict decision.toDict).nesting ≤ 2 := by
  have hlist : ∀ ss, (strList ss).nesting ≤ 1 := by
    intro ss
    rw [strList, PyVal.nesting_list_le, List.forall_mem_map]
    exact ⟨Nat.one_pos, fun _ _ => Nat.le_refl 0⟩
  rw [PyVal.nesting_dict_le, Decision.toDict, PyDict.ofFields, List.forall_mem_map]
  simp [hlist, PyVal.nesting]

theorem copyable_grantedEvent {decision : Decision} (hlimit : 3 ≤ P.copyLimit)
    (h : artifact.decision = decision.toDict) : P.Copyable (grantedEvent artifact payload) := by
  have hdecision := nesting_decision decision
  rw [Interpreter.Copyable, PyVal.nesting_dict_le, grantedEvent, PyDict.ofFields,
    List.forall_mem_map, h]
  have hdeep : (PyVal.dict decision.toDict).nesting ≤ P.copyLimit - 1 := by omega
  simp only [List.forall_mem_cons, PyVal.nesting.eq_def (.str _), PyVal.nesting.eq_def (.bool _),
    hdeep, Nat.zero_le, List.not_mem_nil, IsEmpty.forall_iff, implies_true, and_self, and_true]
  omega

theorem clean_nonce (h : artifact.unsignedPayload P = .ok payload) :
    Json.Clean artifact.nonce := by
  have hencodable := (canonicalJson_isOk P).mp ⟨payload, h⟩
  rw [GovernanceAuthorizationArtifact.unsignedDict, PyVal.encodable_ofFields] at hencodable
  simp only [List.forall_mem_cons, PyVal.encodable_str] at hencodable
  exact hencodable.2.2.2.2.1

theorem grantedEvent_isOk (hlog : log.Linked P) (hnonce : Json.Clean artifact.nonce)
    (hdecision : (PyVal.dict artifact.decision).Encodable (P.recursionLimit - 2)) :
    ∃ frame, ReplayFrame.create P (authorizationFrameId artifact.nonce) log.headHash
      (grantedEvent artifact payload) = .ok frame := by
  have hdepth := (PyVal.encodable_dict.mp hdecision).1
  have hid : Json.Clean (authorizationFrameId artifact.nonce) :=
    Json.clean_append (Json.clean_lit _) hnonce
  refine (ReplayFrame.create_isOk P).mpr ⟨by omega, hid, ReplayLog.clean_headHash P hlog, ?_⟩
  rw [grantedEvent, PyVal.encodable_ofFields, show P.recursionLimit - 1 - 1 =
    P.recursionLimit - 2 by omega]
  simp only [List.forall_mem_cons, PyVal.encodable_str, PyVal.encodable_bool]
  exact ⟨by omega, Json.clean_lit _, hnonce, Json.clean_lit _, hdecision, trivial, by simp⟩

theorem grant_isOk (signer : Signer) (hlog : log.Linked P)
    (hpayload : artifact.unsignedPayload P = .ok payload)
    (hdecision : (PyVal.dict artifact.decision).Encodable (P.recursionLimit - 2))
    (hkey : artifact.issuerKeyId = signer.keyId) :
    ∃ log' frame, log.append P (authorizationFrameId artifact.nonce)
        (grantedEvent artifact payload) = .ok (log', frame) ∧
      grant P signer log artifact [] none =
        ⟨log', .ok { artifact with signature := signer.sign payload }⟩ := by
  obtain ⟨frame, hcreate⟩ := grantedEvent_isOk hlog (clean_nonce hpayload) hdecision
  have happend := (ReplayLog.append_eq_ok P).mpr ⟨hcreate, rfl⟩
  have hevent : issuedEvent P artifact [] none = .ok (grantedEvent artifact payload) := by
    rw [issuedEvent, hpayload]
    rfl
  have hissue : GovernanceAuthorizationArtifact.issue P artifact.actionRequest artifact.decision
      artifact.expiresAt artifact.nonce artifact.replayFrameRef signer =
        .ok { artifact with signature := signer.sign payload } := by
    have hunsigned : GovernanceAuthorizationArtifact.unsignedPayload P
        ⟨artifact.actionRequest, artifact.decision, artifact.expiresAt, artifact.nonce,
          artifact.replayFrameRef, signer.keyId, []⟩ = .ok payload := by
      rw [← hkey]
      exact hpayload
    rw [GovernanceAuthorizationArtifact.issue, hunsigned, ← hkey]
    rfl
  refine ⟨_, frame, happend, ?_⟩
  rw [grant, hevent]
  simp only [happend, hissue]

-- what authorize signs for a request that it has ruled on without a mesh
def granted (issuer : AuthorizationIssuer) (now : ℤ) (nonce : Str) (call : AuthorizeCall)
    (request : PyDict) (decision : Decision) : Artifact :=
  ⟨request, decision.signedDict none, .int (now + call.ttlSeconds), nonce,
    authorizationFrameId nonce, issuer.issuer.keyId, []⟩

-- authorize goes through: the request is allowed, and what is to be signed can be audited
structure Grantable (P : Primitives) (issuer : AuthorizationIssuer) (now : ℤ) (nonce : Str)
    (call : AuthorizeCall) (request : PyDict) (decision : Decision) (payload : String) : Prop where
  admitted : issuer.admission P call = .ok (request, decision)
  allowed : decision.allow = true
  inputs : call.meshInputs = []
  payload : (issuer.granted now nonce call request decision).unsignedPayload P = .ok payload
  decision : (PyVal.dict decision.toDict).Encodable (P.recursionLimit - 2)

def isGrantable (P : Primitives) (issuer : AuthorizationIssuer) (now : ℤ) (nonce : Str)
    (call : AuthorizeCall) : Bool :=
  (issuer.admission P call).toOption.any (fun admitted =>
    admitted.2.allow && (call.meshInputs.isEmpty &&
      (((issuer.granted now nonce call admitted.1 admitted.2).unsignedPayload P).toOption.isSome &&
        (canonicalJson { P with recursionLimit := P.recursionLimit - 2 }
          (.dict admitted.2.toDict)).toOption.isSome)))

theorem exists_of_isGrantable (h : isGrantable P issuer now nonce call = true) :
    ∃ request decision payload, Grantable P issuer now nonce call request decision payload := by
  obtain ⟨⟨request, decision⟩, hadmission, h⟩ := isOk_of_any h
  simp only [Bool.and_eq_true, List.isEmpty_iff] at h
  obtain ⟨hallow, hinputs, hpayload, hdecision⟩ := h
  obtain ⟨payload, hpayload⟩ := exists_of_toOption hpayload
  have hencodable := (canonicalJson_isOk _).mp (exists_of_toOption hdecision)
  exact ⟨request, decision, payload, hadmission, hallow, hinputs, hpayload, hencodable⟩

theorem authorize_of_grantable {request : PyDict} {decision : Decision} (hlog : log.Linked P)
    (h : Grantable P issuer now nonce call request decision payload) :
    ∃ log' frame, log.append P (authorizationFrameId nonce)
        (grantedEvent (issuer.granted now nonce call request decision) payload) =
          .ok (log', frame) ∧
      issuer.authorize P log now nonce call =
        ⟨log', .ok { issuer.granted now nonce call request decision with
          signature := issuer.issuer.sign payload }⟩ := by
  obtain ⟨log', frame, happend, hgrant⟩ :=
    grant_isOk issuer.issuer hlog h.payload h.decision rfl
  refine ⟨log', frame, happend, ?_⟩
  simp only [authorize, h.admitted, h.inputs, meshPreflight, settle, ruled, h.allowed, if_true,
    Option.map_none]
  exact hgrant

theorem arbitrate_eq_ok {request : PyDict} {decision : Decision}
    (h : issuer.arbitrate P request call = .ok decision) :
    issuer.arbiter.decide P request call.policy = .ok decision := by
  obtain ⟨action, -, h⟩ := bind_eq_ok.mp h
  split at h
  · obtain ⟨denied, -, h⟩ := bind_eq_ok.mp h
    cases h
  · exact h

theorem admission_eq_ok {request : PyDict} {decision : Decision}
    (h : issuer.admission P call = .ok (request, decision)) :
    effectiveRequest call.request call.approvals = .ok request ∧
      issuer.arbiter.decide P request call.policy = .ok decision := by
  simp only [admission, bind_eq_ok] at h
  obtain ⟨-, -, -, -, request', hrequest, decision', harbitrate, hpair⟩ := h
  obtain ⟨rfl, rfl⟩ := Prod.mk.inj (Except.ok.inj hpair)
  exact ⟨hrequest, arbitrate_eq_ok harbitrate⟩

theorem decide_fields {arbiter : DeterministicArbiter} {request : PyDict} {policy : Policy}
    {decision : Decision} (h : arbiter.decide P request policy = .ok decision) :
    decision.policy = policy.policyId ∧ decision.allowedActions = policy.allowedActions ∧
      policy.digest P = .ok decision.policyDigest ∧ (decision.allow = true →
        DeterministicArbiter.isAllowed policy (request.getD "action") = true) := by
  simp only [DeterministicArbiter.decide, bind_eq_ok] at h
  obtain ⟨bytes, -, constraints, -, required, -, quorum, -, digest, hdigest, h⟩ := h
  obtain rfl := Except.ok.inj h
  refine ⟨rfl, rfl, hdigest, ?_⟩
  intro hallow
  exact (Bool.and_eq_true_iff.mp hallow).1

variable {boundary : ExecutionBoundary} {request : PyDict} {decision : Decision}

-- the mesh adds one member to what the policy decided
theorem signedDict_getD (decision : Decision) (meshDigest : Option Str) {name : String}
    (hname : name ≠ "mesh_preflight_digest") :
    (decision.signedDict meshDigest).getD (lit name) = decision.toDict.getD (lit name) := by
  cases meshDigest with
  | none => rfl
  | some digest =>
      rw [Decision.signedDict, PyDict.getD, PyDict.get_set,
        if_neg (by rw [lit_inj]; exact hname.symm), PyDict.getD]

theorem checkAction_granted {arbiter : DeterministicArbiter} {meshDigest : Option Str}
    (hrequest : artifact.actionRequest = request)
    (hdecision : artifact.decision = decision.signedDict meshDigest)
    (hdecide : arbiter.decide P request call.policy = .ok decision)
    (hallow : decision.allow = true) : ExecutionBoundary.checkAction artifact = .ok () := by
  obtain ⟨-, hactions, -, hallowed⟩ := decide_fields hdecide
  obtain ⟨a, hmem, ha⟩ := List.any_eq_true.mp (hallowed hallow)
  refine ExecutionBoundary.checkAction_eq_ok.mpr
    ⟨decision.allowedActions.map .str, ?_, .str a, ?_, ?_⟩
  · rw [hdecision, signedDict_getD decision meshDigest (by decide)]
    simp [Decision.toDict, PyDict.getD, strList]
  · rw [hactions]
    exact List.mem_map_of_mem hmem
  · rw [hrequest]
    exact PyVal.eq_str_left.mpr (PyVal.eq_str_right.mp ha)

theorem checkPolicy_granted {registry : PolicyRegistry} {meshDigest : Option Str}
    (hrequest : artifact.actionRequest = request)
    (hdecision : artifact.decision = decision.signedDict meshDigest)
    (hregistry : boundary.policyRegistry = some registry)
    (hpolicy : Dict.get registry.policies call.policy.policyId = some call.policy)
    (hdecide : boundary.arbiter.decide P request call.policy = .ok decision)
    (hallow : decision.allow = true) :
    ExecutionBoundary.checkPolicy P boundary artifact = .ok () := by
  obtain ⟨hid, -, hdigest, -⟩ := decide_fields hdecide
  refine ExecutionBoundary.checkPolicy_eq_ok.mpr ?_
  intro registry' hregistry'
  rw [hregistry] at hregistry'
  obtain rfl := Option.some.inj hregistry'
  refine ⟨call.policy.policyId, call.policy, ?_, hpolicy, ?_, decision, hrequest ▸ hdecide, hallow⟩
  · rw [hdecision, signedDict_getD decision meshDigest (by decide)]
    simp [Decision.toDict, PyDict.getD, hid]
  · rw [hdecision, signedDict_getD decision meshDigest (by decide)]
    simp [Decision.toDict, PyDict.getD, ExecutionBoundary.digestMismatch, hdigest, PyVal.eq, bind,
      Except.bind]

theorem authorizedBy_granted {frame : ReplayFrame} {previousHash : Str} (signature : Str)
    (hpayload : (issuer.granted now nonce call request decision).unsignedPayload P = .ok payload)
    (hcreate : ReplayFrame.create P (authorizationFrameId nonce) previousHash
      (grantedEvent (issuer.granted now nonce call request decision) payload) = .ok frame)
    (hallow : decision.allow = true) :
    frame.frameId = authorizationFrameId nonce ∧ ExecutionBoundary.AuthorizedBy P
      { issuer.granted now nonce call request decision with signature := signature } frame := by
  obtain ⟨hid, -, hevent, -⟩ := (ReplayFrame.create_eq_ok P).mp hcreate
  refine ⟨hid, ?_, ?_, ⟨payload, hpayload, ?_⟩, ?_, ?_⟩
  · simp [hevent, grantedEvent, PyDict.getD]
  · simp [hevent, grantedEvent, PyDict.getD, granted]
  · simp [hevent, grantedEvent, PyDict.getD]
  · refine ExecutionBoundary.validateMeshEvidence_of_none ?_ ?_
    · simp [granted, Decision.signedDict, Decision.toDict, PyDict.getD]
    · intro key hkey
      simp only [ExecutionBoundary.evidenceKeys, List.mem_cons, List.not_mem_nil, or_false] at hkey
      rw [hevent]
      rcases hkey with rfl | rfl | rfl
      · simp [grantedEvent, PyDict.has]
      · simp [grantedEvent, PyDict.has]
      · simp [grantedEvent, PyDict.has]
  · simp [granted, Decision.signedDict, Decision.toDict, PyDict.getD, hallow]

theorem getFrame_appended {frame : ReplayFrame} {frameId : Str}
    (hnew : ∀ f ∈ log.frames, f.frameId ≠ frameId) (hid : frame.frameId = frameId) :
    ReplayLog.getFrame { log with frames := log.frames ++ [frame] } frameId = some frame := by
  have hnone : log.frames.find? (fun f => decide (f.frameId = frameId)) = none := by
    rw [List.find?_eq_none]
    intro f hf
    simpa using hnew f hf
  rw [ReplayLog.getFrame, List.find?_append, hnone]
  simp [hid]

-- a boundary that trusts the issuer's key and holds the policy that it ruled by
structure Accepts (P : Primitives) (issuer : AuthorizationIssuer) (boundary : ExecutionBoundary)
    (policy : Policy) : Prop where
  arbiter : boundary.arbiter = issuer.arbiter
  trusted : ∃ key, boundary.keySource.Trusted issuer.issuer.keyId key ∧
    ∀ payload, verifySignature P key payload (issuer.issuer.sign payload) = true
  registered : ∃ registry, boundary.policyRegistry = some registry ∧
    Dict.get registry.policies policy.policyId = some policy

-- it takes what has just been granted, under a nonce that the log does not know
theorem validates_granted {frame : ReplayFrame}
    (h : Grantable P issuer now nonce call request decision payload)
    (haccepts : Accepts P issuer boundary call.policy)
    (happend : log.append P (authorizationFrameId nonce)
      (grantedEvent (issuer.granted now nonce call request decision) payload) = .ok (log', frame))
    (hlater : later < now + call.ttlSeconds) (hunused : nonce ∉ log.usedNonces)
    (hnew : ∀ f ∈ log.frames, f.frameId ≠ authorizationFrameId nonce) :
    ExecutionBoundary.validate P boundary log' later
      { issuer.granted now nonce call request decision with
        signature := issuer.issuer.sign payload } = .ok () := by
  obtain ⟨hcreate, rfl⟩ := (ReplayLog.append_eq_ok P).mp happend
  obtain ⟨hid, hauth⟩ :=
    authorizedBy_granted (issuer.issuer.sign payload) h.payload hcreate h.allowed
  obtain ⟨key, htrusted, hverifies⟩ := haccepts.trusted
  obtain ⟨registry, hregistry, hpolicy⟩ := haccepts.registered
  have hdecide := (admission_eq_ok h.admitted).2
  rw [ExecutionBoundary.validate_eq_ok]
  intro check
  cases check with
  | signature =>
      exact ExecutionBoundary.checkSignature_eq_ok.mpr
        ⟨key, payload, htrusted, h.payload, hverifies payload⟩
  | expiry => exact (ExecutionBoundary.checkExpiry_of_int rfl).mpr hlater
  | unused =>
      refine ExecutionBoundary.checkUnused_eq_ok.mpr ?_
      simpa [ReplayLog.nonceUsed, granted] using hunused
  | frame => exact ExecutionBoundary.checkFrame_eq_ok.mpr ⟨frame, getFrame_appended hnew hid, hauth⟩
  | policy =>
      exact checkPolicy_granted rfl (show _ = decision.signedDict none from rfl) hregistry hpolicy
        (haccepts.arbiter ▸ hdecide) h.allowed
  | action =>
      exact checkAction_granted rfl (show _ = decision.signedDict none from rfl) hdecide h.allowed

end AuthorizationIssuer

end GovernedAutonomy
