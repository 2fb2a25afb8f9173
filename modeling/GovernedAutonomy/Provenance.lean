import GovernedAutonomy.Bootstrap
import GovernedAutonomy.Demo
import GovernedAutonomy.Lifetime
import GovernedAutonomy.Preflight

namespace GovernedAutonomy

open Python

namespace GovernanceMesh

variable {P : Primitives}

-- an input signed under the key that a registry resolves for its source
def SignedUnder (P : Primitives) (registry : GovernanceSourceRegistry) (item : GovernanceInput) :
    Prop :=
  ∃ key signature payload, registry.resolve item.sourceId = some key ∧
    item.sourceSignature = some signature ∧ item.attestationPayload P = .ok payload ∧
    verifySignature P key payload signature = true

theorem attestation_registry {registry : GovernanceSourceRegistry} {item : GovernanceInput} :
    ({ sourceRegistry := some registry } : GovernanceMesh).verifySourceAttestation P item =
      .ok () ↔ SignedUnder P registry item := by
  unfold SignedUnder
  rw [verifySourceAttestation, if_neg (by simp), attestationKey]
  simp only
  cases registry.resolve item.sourceId with
  | none => simp
  | some key =>
      cases item.sourceSignature with
      | none => simp
      | some signature => simp [bind_eq_ok]

end GovernanceMesh

namespace AuthorizationIssuer

variable {P : Primitives} {issuer : AuthorizationIssuer} {log : ReplayLog} {now : ℤ} {nonce : Str}
  {ttl : PyVal} {call : AuthorizeCall} {raw : Artifact}

-- what a policy asks of the mesh for one action and request
structure MeshRequirement where
  active : Bool
  count : ℤ
  sources : List Str

def meshRequirement (action : Option Str) (request : PyDict) (policy : Policy) : MeshRequirement where
  active := action.any (fun a => policy.meshRequiredActions.contains a) ||
    policy.meshRequiredEnvironments.any (fun e => (environmentOf request).eq (.str e))
  count := (action.bind (Dict.get policy.requiredMeshInputs)).getD 0
  sources := (action.bind (Dict.get policy.requiredMeshSources)).getD []

def MeshRequirement.Required (requirement : MeshRequirement) : Prop :=
  requirement.active = true ∨ 0 < requirement.count ∨ requirement.sources ≠ []

theorem meets_of_no_shortfall {action : Option Str} {request : PyDict} {policy : Policy}
    {inputs : List GovernanceInput} (h : meshShortfall P action request policy inputs = none)
    (hrequired : (meshRequirement action request policy).Required) :
    ((meshRequirement action request policy).active = true → inputs ≠ []) ∧
      (meshRequirement action request policy).count ≤ inputs.length ∧
      ∀ source ∈ (meshRequirement action request policy).sources,
        source ∈ inputs.map GovernanceInput.sourceId := by
  have hsome : ¬ ((meshRequirement action request policy).active = false ∧
      (meshRequirement action request policy).count = 0 ∧
        (meshRequirement action request policy).sources = []) := by
    rintro ⟨hactive, hcount, hsources⟩
    rcases hrequired with h | h | h
    · rw [hactive] at h
      cases h
    · exact absurd hcount h.ne'
    · exact h hsources
  unfold meshShortfall at h
  simp only at h
  split at h
  · rename_i hnone
    exact absurd hnone hsome
  · split at h
    · cases h
    · rename_i hinputs
      split at h
      · cases h
      · rename_i hcount
        split at h
        · rename_i hmissing
          refine ⟨fun hactive hnil => hinputs ⟨hactive, by rw [hnil]; rfl⟩, not_lt.mp hcount, ?_⟩
          intro source hsource
          have hfiltered := List.filter_eq_nil_iff.mp (List.isEmpty_iff.mp hmissing) source hsource
          simpa using hfiltered
        · cases h

theorem arbitrate_of_met {request : PyDict} {action : Option Str}
    (haction : actionText P request = .ok action)
    (hshortfall : meshShortfall P action request call.policy call.meshInputs = none) :
    issuer.arbitrate P request call = issuer.arbiter.decide P request call.policy := by
  simp only [arbitrate, haction, bind, Except.bind, hshortfall]

-- what a call has passed when it returns a GAA
theorem passed_of_authorizeRaw (h : (issuer.authorizeRaw P log now nonce ttl call).result = .ok raw) :
    ∃ request action decision middle mesh, effectiveRequest call.request call.approvals =
        .ok request ∧ actionText P request = .ok action ∧
      meshShortfall P action request call.policy call.meshInputs = none ∧
      issuer.meshPreflight P log request call.meshInputs = .ok (middle, mesh) ∧
      (ruled decision mesh).allow = true := by
  unfold authorizeRaw at h
  split at h
  · cases h
  · rename_i request decision hadmission
    simp only [admissionRaw, bind_eq_ok] at hadmission
    obtain ⟨u, -, request', hrequest, decision', harbitrate, hpair⟩ := hadmission
    obtain ⟨rfl, rfl⟩ := Prod.mk.inj (Except.ok.inj hpair)
    obtain ⟨action, haction, harbitrate⟩ := bind_eq_ok.mp harbitrate
    have hshortfall : meshShortfall P action request' call.policy call.meshInputs = none := by
      cases hshortfall : meshShortfall P action request' call.policy call.meshInputs with
      | none => rfl
      | some finding =>
          rw [hshortfall] at harbitrate
          obtain ⟨denied, -, harbitrate⟩ := bind_eq_ok.mp harbitrate
          cases harbitrate
    split at h
    · cases h
    · rename_i middle mesh hmesh
      simp only [settleRaw] at h
      split at h
      · rename_i hallow
        exact ⟨request', action, decision', middle, mesh, hrequest, haction, hshortfall, hmesh, hallow⟩
      · exact absurd h refuse_ne_ok

-- with inputs to consult, it is the mesh of the issuer that has allowed them
theorem allowed_of_meshPreflight {request : PyDict} {inputs : List GovernanceInput}
    {decision : Decision} {middle : ReplayLog} {mesh : Option GovernancePreflightDecision}
    (hinputs : inputs ≠ []) (h : issuer.meshPreflight P log request inputs = .ok (middle, mesh))
    (hallow : (ruled decision mesh).allow = true) :
    ∃ requestDigest preflight, issuer.effectiveMesh.mesh.evaluate P inputs requestDigest none =
      .ok preflight ∧ preflight.decision.allow = true := by
  have hruled : ∀ m, mesh = some m → m.allow = true := by
    rintro m rfl
    simp only [ruled] at hallow
    split at hallow
    · assumption
    · cases hallow
  unfold meshPreflight at h
  split at h
  · exact absurd rfl hinputs
  · obtain ⟨requestDigest, -, h⟩ := bind_eq_ok.mp h
    split at h
    · simp only [GovernanceMesh.preflight, bind_eq_ok] at h
      obtain ⟨result, ⟨preflight, hevaluate, appended, -, hresult⟩, h⟩ := h
      obtain rfl := Except.ok.inj hresult
      obtain ⟨-, rfl⟩ := Prod.mk.inj (Except.ok.inj h)
      have hallowed := hruled _ rfl
      exact ⟨requestDigest, preflight, hevaluate, hallowed⟩
    · obtain ⟨preflight, hevaluate, h⟩ := bind_eq_ok.mp h
      obtain ⟨-, rfl⟩ := Prod.mk.inj (Except.ok.inj h)
      exact ⟨requestDigest, preflight, hevaluate, hruled _ rfl⟩

-- an allowed request whose inputs the mesh allows, and what is to be audited can be written
structure Consulted (P : Primitives) (issuer : AuthorizationIssuer) (nonce : Str) (ttl : PyVal)
    (call : AuthorizeCall) (request : PyDict) (decision : Decision) (requestDigest : Str)
    (preflight : GovernanceMesh.Preflight) (items : List PyDict) : Prop where
  admitted : issuer.admissionRaw P ttl call = .ok (request, decision)
  allowed : decision.allow = true
  recorded : issuer.effectiveMesh.recorded = true
  consulted : call.meshInputs ≠ []
  requested : canonicalDigest P (.dict request) = .ok requestDigest
  evaluated : issuer.effectiveMesh.mesh.evaluate P call.meshInputs requestDigest none =
    .ok preflight
  agreed : preflight.decision.allow = true
  unsigned : (PyVal.dict preflight.unsigned).Encodable (P.recursionLimit - 2)
  decision : (PyVal.dict decision.toDict).Encodable (P.recursionLimit - 2)
  asked : (PyVal.dict request).Encodable (P.recursionLimit - 1)
  itemised : call.meshInputs.mapM (GovernanceInput.toDict P) = .ok items
  written : ∀ item ∈ items, (PyVal.dict item).Encodable (P.recursionLimit - 3)
  nonce : Json.Clean nonce
  keyId : Json.Clean issuer.issuer.keyId

section Consulted

variable {request : PyDict} {decision : Decision} {requestDigest : Str}
  {preflight : GovernanceMesh.Preflight} {items : List PyDict}

theorem Consulted.depth (h : Consulted P issuer nonce ttl call request decision requestDigest
    preflight items) : 3 ≤ P.recursionLimit := by
  have hdepth := (PyVal.encodable_dict.mp h.unsigned).1
  omega

theorem Consulted.digests (h : Consulted P issuer nonce ttl call request decision requestDigest
    preflight items) : Json.Clean requestDigest ∧ Json.Clean preflight.decision.digest ∧
      preflight.decision.replayFrameRef = none := by
  obtain ⟨-, -, outcome, hevaluated⟩ := GovernanceMesh.evaluate_eq_ok.mp h.evaluated
  refine ⟨(canonicalDigest_eq_ok h.requested).2, (canonicalDigest_eq_ok hevaluated.digest).2, ?_⟩
  rw [hevaluated.decision]

theorem Consulted.meshPreflight (h : Consulted P issuer nonce ttl call request decision
    requestDigest preflight items) (hlog : log.Linked P) :
    ∃ middle mesh, issuer.meshPreflight P log request call.meshInputs = .ok (middle, some mesh) ∧
      mesh.allow = true ∧ mesh.digest = preflight.decision.digest ∧ middle.Linked P := by
  obtain ⟨hrequest, hdigest, href⟩ := h.digests
  have hdepth := h.depth
  have hframe : Json.Clean (GovernanceMesh.frameRef preflight) := by
    rw [GovernanceMesh.frameRef, href]
    exact Json.clean_append (Json.clean_lit _) hdigest
  have hcreate : ∃ frame, ReplayFrame.create P (GovernanceMesh.frameRef preflight) log.headHash
      (GovernanceMesh.preflightEvent requestDigest preflight) = .ok frame := by
    rw [ReplayFrame.create_isOk]
    refine ⟨by omega, hframe, ReplayLog.clean_headHash P hlog, ?_⟩
    rw [GovernanceMesh.preflightEvent, PyVal.encodable_ofFields,
      show P.recursionLimit - 1 - 1 = P.recursionLimit - 2 by omega]
    simp only [List.forall_mem_cons, PyVal.encodable_str]
    exact ⟨by omega, Json.clean_lit _, hrequest, hdigest, h.unsigned, by simp⟩
  obtain ⟨⟨middle, frame⟩, happend⟩ := (ReplayLog.append_isOk P).mpr hcreate
  refine ⟨middle, { preflight.decision with
    replayFrameRef := some (GovernanceMesh.frameRef preflight) }, ?_, h.agreed, rfl,
    ReplayLog.linked_append P hlog happend⟩
  have hevaluated := h.evaluated
  have hconsulted := h.consulted
  unfold AuthorizationIssuer.meshPreflight
  split
  · rename_i hnone
    exact absurd hnone hconsulted
  · rw [h.requested, h.recorded]
    simp only [bind, Except.bind, if_true, GovernanceMesh.preflight, hevaluated, happend]

theorem Consulted.evidence (h : Consulted P issuer nonce ttl call request decision requestDigest
    preflight items) {mesh : GovernancePreflightDecision} (hmesh : Json.Clean mesh.digest) :
    ∃ evidence, meshEvidence P request call.meshInputs (some mesh) = .ok evidence ∧
      ∀ m ∈ evidence, m.2.Encodable (P.recursionLimit - 2) := by
  have hdepth := h.depth
  refine ⟨_, by rw [meshEvidence, h.requested, h.itemised]; rfl, ?_⟩
  simp only [List.forall_mem_cons, PyVal.encodable_str]
  refine ⟨hmesh, h.digests.1, ?_, by simp⟩
  rw [PyVal.encodable_list]
  refine ⟨by omega, fun v hv => ?_⟩
  obtain ⟨item, hitem, rfl⟩ := List.mem_map.mp hv
  rw [show P.recursionLimit - 2 - 1 = P.recursionLimit - 3 by omega]
  exact h.written item hitem

theorem signedDict_encodable {digest : Str} {depth : Nat}
    (h : (PyVal.dict decision.toDict).Encodable depth) (hdigest : Json.Clean digest) :
    (PyVal.dict (decision.signedDict (some digest))).Encodable depth := by
  rw [Decision.signedDict, Decision.toDict, PyVal.set_ofFields (by simp),
    PyVal.encodable_ofFields]
  rw [Decision.toDict, PyVal.encodable_ofFields] at h
  refine ⟨h.1, List.forall_mem_append.mpr ⟨h.2, ?_⟩⟩
  rw [List.forall_mem_singleton]
  exact PyVal.encodable_str.mpr hdigest

theorem issued_of_consulted (h : Consulted P issuer nonce ttl call request decision requestDigest
    preflight items) (hlog : log.Linked P) {expiresAt : PyVal}
    (hadded : addTime now ttl = .ok expiresAt)
    (hexpires : expiresAt.Encodable (P.recursionLimit - 1)) :
    ∃ raw, (issuer.authorizeRaw P log now nonce ttl call).result = .ok raw := by
  obtain ⟨middle, mesh, hmesh, hallow, hsame, hmiddle⟩ := h.meshPreflight hlog
  obtain ⟨-, hdigest, -⟩ := h.digests
  obtain ⟨evidence, hevidence, hmembers⟩ := h.evidence (hsame ▸ hdigest)
  have hdepth := h.depth
  have hdecision := signedDict_encodable h.decision (hsame ▸ hdigest)
  have hframe : Json.Clean (authorizationFrameId nonce) :=
    Json.clean_append (Json.clean_lit _) h.nonce
  obtain ⟨payload, hpayload⟩ : ∃ payload, GovernanceAuthorizationArtifact.unsignedPayload P ⟨request,
      decision.signedDict (some mesh.digest), expiresAt, nonce, authorizationFrameId nonce,
      issuer.issuer.keyId, []⟩ = .ok payload := by
    refine (canonicalJson_isOk P).mpr ?_
    rw [GovernanceAuthorizationArtifact.unsignedDict, PyVal.encodable_ofFields]
    simp only [List.forall_mem_cons, PyVal.encodable_str]
    exact ⟨by omega, h.asked, hdecision.mono (by omega), hexpires, h.nonce, hframe, h.keyId, by simp⟩
  have hcreate : ∃ frame, ReplayFrame.create P (authorizationFrameId nonce) middle.headHash
      (PyDict.ofFields
        ([("type", .str "authorization"), ("nonce", .str nonce),
          ("artifact_payload", .str (decode payload)),
          ("decision", .dict (decision.signedDict (some mesh.digest))),
          ("issued", .bool true)] ++ evidence)) = .ok frame := by
    rw [ReplayFrame.create_isOk]
    refine ⟨by omega, hframe, ReplayLog.clean_headHash P hmiddle, ?_⟩
    rw [PyVal.encodable_ofFields, show P.recursionLimit - 1 - 1 = P.recursionLimit - 2 by omega]
    refine ⟨by omega, List.forall_mem_append.mpr ⟨?_, hmembers⟩⟩
    simp only [List.forall_mem_cons, PyVal.encodable_str, PyVal.encodable_bool]
    exact ⟨Json.clean_lit _, h.nonce, Json.clean_lit _, hdecision, trivial, by simp⟩
  obtain ⟨⟨recorded, frame⟩, happend⟩ := (ReplayLog.append_isOk P).mpr hcreate
  rw [authorizeRaw, h.admitted]
  simp only [hmesh, settleRaw, ruled, hallow, h.allowed, if_true, hadded, Option.map_some, grant,
    issuedEvent, hpayload, hevidence, bind, Except.bind, happend]
  exact ⟨_, by rw [GovernanceAuthorizationArtifact.issue, hpayload]; rfl⟩

end Consulted

end AuthorizationIssuer

namespace GovernedService

variable {P : Primitives} {service : GovernedService}

-- authorize over a ttl of any type, as the route passes it on
def authorizeRaw (P : Primitives) (service : GovernedService) (log : ReplayLog) (now : ℤ)
    (nonce : Str) (request : PyDict) (policyId ttl : PyVal)
    (approvals : Option (List ApprovalArg)) (meshInputs : List GovernanceInput) :
    Authorization :=
  match service.issuerCall P request policyId 300 approvals meshInputs with
  | .error e => ⟨log, .error e⟩
  | .ok call => service.attachedIssuer.authorizeRaw P log now nonce ttl call

-- the promise of a mesh requirement: enough sources, each signed for, and agreed on allowing
structure SignedProvenance (P : Primitives) (trusted : Option GovernanceSourceRegistry)
    (requirement : AuthorizationIssuer.MeshRequirement) (inputs : List GovernanceInput) :
    Prop where
  nonempty : inputs ≠ []
  count : requirement.count ≤ (inputs.map GovernanceInput.sourceId).dedup.length
  sources : ∀ source ∈ requirement.sources, source ∈ inputs.map GovernanceInput.sourceId
  signed : ∀ item ∈ inputs, ∃ registry, trusted = some registry ∧
    GovernanceMesh.SignedUnder P registry item
  agreed : Function.Injective P.sha256 → ∀ item, GovernanceMesh.IsTop inputs item →
    item.allow = true

theorem provenance_of_issued (hmesh : service.issuer.mesh = none) {log : ReplayLog} {now : ℤ}
    {nonce : Str} {ttl : PyVal} {call : AuthorizeCall} {raw : Artifact}
    (hissued : (service.attachedIssuer.authorizeRaw P log now nonce ttl call).result = .ok raw)
    {request : PyDict} {action : Option Str}
    (hrequest : AuthorizationIssuer.effectiveRequest call.request call.approvals = .ok request)
    (haction : AuthorizationIssuer.actionText P request = .ok action)
    (hrequired : (AuthorizationIssuer.meshRequirement action request call.policy).Required) :
    SignedProvenance P service.attachedIssuer.meshSourceRegistry
        (AuthorizationIssuer.meshRequirement action request call.policy) call.meshInputs ↔
      service.attachedIssuer.meshSourceRegistry.isSome = true := by
  obtain ⟨request', action', decision, middle, mesh, hrequest', haction', hshortfall, hpreflight,
    hallow⟩ := AuthorizationIssuer.passed_of_authorizeRaw hissued
  obtain rfl := Except.ok.inj (hrequest.symm.trans hrequest')
  obtain rfl := Except.ok.inj (haction.symm.trans haction')
  obtain ⟨hactive, hcount, hsources⟩ :=
    AuthorizationIssuer.meets_of_no_shortfall hshortfall hrequired
  have hne : call.meshInputs ≠ [] := by
    intro hnil
    rw [hnil] at hcount hsources hactive
    rcases hrequired with h | h | h
    · exact hactive h rfl
    · exact absurd hcount (not_le.mpr h)
    · obtain ⟨source, hsource⟩ := List.exists_mem_of_ne_nil _ h
      cases hsources source hsource
  obtain ⟨requestDigest, preflight, hevaluate, hallowed⟩ :=
    AuthorizationIssuer.allowed_of_meshPreflight hne hpreflight hallow
  have heffective : service.attachedIssuer.effectiveMesh.mesh =
      { sourceRegistry := service.attachedIssuer.meshSourceRegistry } := by
    rw [AuthorizationIssuer.effectiveMesh, show service.attachedIssuer.mesh = none from hmesh]
    rfl
  rw [heffective] at hevaluate
  obtain ⟨-, hattested, outcome, hevaluated⟩ := GovernanceMesh.evaluate_eq_ok.mp hevaluate
  constructor
  · intro hprovenance
    obtain ⟨item, hitem⟩ := List.exists_mem_of_ne_nil _ hne
    obtain ⟨registry, htrusted, -⟩ := hprovenance.signed item hitem
    rw [htrusted]
    rfl
  · intro hconfigured
    obtain ⟨registry, htrusted⟩ := Option.isSome_iff_exists.mp hconfigured
    rw [htrusted] at hattested
    refine ⟨hne, ?_, hsources, fun item hitem => ⟨registry, htrusted, ?_⟩, fun hsha item hitem => ?_⟩
    · rw [hevaluated.distinct.dedup, List.length_map]
      exact hcount
    · exact GovernanceMesh.attestation_registry.mp (hattested item hitem)
    · exact ((GovernanceMesh.verdict_of_evaluate hsha hevaluate).allow_iff.mp hallowed).2 item hitem

-- a mesh requirement means signed provenance where, and only where, a source registry is configured
theorem signed_provenance_iff (P : Primitives) (service : GovernedService)
    (hbuilt : Bootstrap.Built service) (log : ReplayLog) (now : ℤ) (nonce : Str)
    (request : PyDict) (policyId ttl : PyVal) (approvals : Option (List ApprovalArg))
    (meshInputs : List GovernanceInput) (raw : Artifact)
    (hissued : (service.authorizeRaw P log now nonce request policyId ttl approvals
      meshInputs).result = .ok raw)
    (policy : Policy) (hpolicy : service.policies.getPolicy policyId = .ok (some policy))
    (effective : PyDict) (action : Option Str)
    (hrequest : AuthorizationIssuer.effectiveRequest request approvals = .ok effective)
    (haction : AuthorizationIssuer.actionText P effective = .ok action)
    (hrequired : (AuthorizationIssuer.meshRequirement action effective policy).Required) :
    SignedProvenance P service.attachedIssuer.meshSourceRegistry
        (AuthorizationIssuer.meshRequirement action effective policy) meshInputs ↔
      service.attachedIssuer.meshSourceRegistry.isSome = true := by
  have hcall : service.issuerCall P request policyId 300 approvals meshInputs =
      .ok { request, policy, ttlSeconds := 300, approvals, meshInputs } := by
    rw [issuerCall, hpolicy]
    rfl
  rw [authorizeRaw, hcall] at hissued
  exact provenance_of_issued hbuilt.mesh hissued hrequest haction hrequired

def requiring : Policy :=
  { AuthorizationIssuer.lifetimeCall.policy with
    requiredMeshInputs := [("read", 1)]
    meshRequiredActions := ["read"] }

def signedInput : GovernanceInput :=
  { GovernanceMesh.urgent with
    sourceSignature := some "c2ln"
    signatureNonEmpty := by decide }

def issuerStore : TrustStore := ⟨[("issuer-1", Demo.publicKey)], [], by simp⟩

def sourceRegistry : GovernanceSourceRegistry := { keys := [("a", Demo.publicKey)] }

-- the production composition once a policy that requires the mesh is in force
def production (registry : Option GovernanceSourceRegistry) : GovernedService :=
  ((Bootstrap.composed Demo.signer issuerStore none).withPolicies
    { policies := [("p", requiring)] }).attachRegistry registry

theorem production_built (registry : Option GovernanceSourceRegistry) :
    Bootstrap.Built (production registry) := by
  have hruntime : Bootstrap.buildRuntimeService (.postgres issuerStore) Demo.signer
      Demo.publicKey = .ok (Bootstrap.composed Demo.signer issuerStore none) := rfl
  exact .platform registry (.policies _ (.runtime hruntime))

def readRequest : PyDict := PyDict.ofFields [("action", .str "read")]

def readCall (inputs : List GovernanceInput) : AuthorizeCall :=
  { request := readRequest, policy := requiring, meshInputs := inputs }

theorem requiring_required :
    (AuthorizationIssuer.meshRequirement (some "read") readRequest requiring).Required :=
  Or.inl (by decide)

-- whether canonical JSON can be made of a value as deep as some levels below the limit
def isEncodable (levels : Nat) (value : PyVal) : Bool :=
  (canonicalJson { sizePrimitives with recursionLimit := sizePrimitives.recursionLimit - levels }
    value).toOption.isSome

theorem encodable_of_isEncodable (levels : Nat) {value : PyVal}
    (h : isEncodable levels value = true) :
    value.Encodable (sizePrimitives.recursionLimit - levels) :=
  (canonicalJson_isOk _).mp (exists_of_toOption h)

theorem readRequest_decided : ∃ decision,
    ({} : DeterministicArbiter).decide sizePrimitives readRequest requiring = .ok decision ∧
      decision.allow = true ∧
      (PyVal.dict decision.toDict).Encodable (sizePrimitives.recursionLimit - 2) := by
  obtain ⟨decision, hdecision, hchecked⟩ := isOk_of_any
    (show (({} : DeterministicArbiter).decide sizePrimitives readRequest
      requiring).toOption.any (fun decision => decision.allow &&
        isEncodable 2 (.dict decision.toDict)) = true by decide +kernel)
  rw [Bool.and_eq_true] at hchecked
  exact ⟨decision, hdecision, hchecked.1, encodable_of_isEncodable _ hchecked.2⟩

theorem urgent_evaluated : ∃ requestDigest preflight,
    canonicalDigest sizePrimitives (.dict readRequest) = .ok requestDigest ∧
      ({} : GovernanceMesh).evaluate sizePrimitives [GovernanceMesh.urgent] requestDigest none =
        .ok preflight ∧ preflight.decision.allow = true ∧
      (PyVal.dict preflight.unsigned).Encodable (sizePrimitives.recursionLimit - 2) := by
  obtain ⟨requestDigest, hdigest, hchecked⟩ := isOk_of_any
    (show (canonicalDigest sizePrimitives (.dict readRequest)).toOption.any (fun requestDigest =>
      (({} : GovernanceMesh).evaluate sizePrimitives [GovernanceMesh.urgent] requestDigest
        none).toOption.any (fun preflight => preflight.decision.allow &&
          isEncodable 2 (.dict preflight.unsigned))) = true by decide +kernel)
  obtain ⟨preflight, hpreflight, hchecked⟩ := isOk_of_any hchecked
  rw [Bool.and_eq_true] at hchecked
  exact ⟨requestDigest, preflight, hdigest, hpreflight, hchecked.1,
    encodable_of_isEncodable _ hchecked.2⟩

-- an input that differs from the urgent one in its signature only
theorem production_issues (registry : Option GovernanceSourceRegistry) (item : GovernanceInput)
    (hsame : GovernanceMesh.SameRating sizePrimitives GovernanceMesh.urgent item)
    (hattested : ({ sourceRegistry := registry } : GovernanceMesh).verifySourceAttestation
      sizePrimitives item = .ok ())
    (hwritten : (item.toDict sizePrimitives).toOption.any (fun d => isEncodable 3 (.dict d)) = true) :
    ∃ raw, ((production registry).authorizeRaw sizePrimitives {} 0 "n" readRequest (.str "p")
      (.int 300) none [item]).result = .ok raw := by
  obtain ⟨decision, hdecision, hallowed, hencodable⟩ := readRequest_decided
  obtain ⟨requestDigest, preflight, hdigest, hevaluate, hagreed, hunsigned⟩ := urgent_evaluated
  obtain ⟨d, hd, hwritten⟩ := isOk_of_any hwritten
  have hsources : [GovernanceMesh.urgent].map GovernanceInput.sourceId =
      [item].map GovernanceInput.sourceId := by simp [hsame.sourceId]
  have hshortfall : AuthorizationIssuer.meshShortfall sizePrimitives (some (lit "read"))
      readRequest requiring [item] = none := by
    have hurgent : AuthorizationIssuer.meshShortfall sizePrimitives (some (lit "read"))
        readRequest requiring [GovernanceMesh.urgent] = none := by decide
    rw [← hurgent, AuthorizationIssuer.meshShortfall, AuthorizationIssuer.meshShortfall, hsources]
    rfl
  have hissuer : (production registry).attachedIssuer =
      { issuer := Demo.signer, meshSourceRegistry := registry } := by
    cases registry <;> rfl
  have hevaluated : ({ sourceRegistry := registry } : GovernanceMesh).evaluate sizePrimitives [item]
      requestDigest none = .ok preflight := by
    have huntrusted : ({} : GovernanceMesh).evaluate sizePrimitives [item] requestDigest none =
        .ok preflight := by
      rw [← GovernanceMesh.evaluate_congr (.cons hsame .nil)]
      exact hevaluate
    obtain ⟨hne, -, outcome, houtcome⟩ := GovernanceMesh.evaluate_eq_ok.mp huntrusted
    refine GovernanceMesh.evaluate_eq_ok.mpr ⟨hne, ?_, outcome, houtcome⟩
    rw [List.forall_mem_singleton]
    exact hattested
  have hconsulted : AuthorizationIssuer.Consulted sizePrimitives
      { issuer := Demo.signer, meshSourceRegistry := registry } "n" (.int 300)
      (readCall [item]) readRequest decision requestDigest preflight [d] :=
    { admitted := by
        have harbitrate : AuthorizationIssuer.arbitrate sizePrimitives
            { issuer := Demo.signer, meshSourceRegistry := registry } readRequest
            (readCall [item]) = .ok decision := by
          exact (AuthorizationIssuer.arbitrate_of_met rfl hshortfall).trans hdecision
        simp only [AuthorizationIssuer.admissionRaw, bind_eq_ok]
        exact ⟨(), rfl, readRequest, rfl, decision, harbitrate, rfl⟩
      allowed := hallowed
      recorded := rfl
      consulted := List.cons_ne_nil _ _
      requested := hdigest
      evaluated := hevaluated
      agreed := hagreed
      unsigned := hunsigned
      decision := hencodable
      asked := encodable_of_isEncodable 1 (by decide)
      itemised := by
        rw [show (readCall [item]).meshInputs = [item] from rfl, List.mapM_cons, hd]
        rfl
      written := by
        rw [List.forall_mem_singleton]
        exact encodable_of_isEncodable _ hwritten
      nonce := Json.clean_lit _
      keyId := Json.clean_lit _ }
  have hlinked : ReplayLog.Linked sizePrimitives {} := trivial
  obtain ⟨raw, hraw⟩ := AuthorizationIssuer.issued_of_consulted hconsulted hlinked
    (show addTime 0 (.int 300) = .ok (.int 300) from rfl) (PyVal.encodable_int.mpr (by decide))
  refine ⟨raw, ?_⟩
  have hcall : (production registry).issuerCall sizePrimitives readRequest (.str "p") 300 none
      [item] = .ok (readCall [item]) := by
    cases registry <;> rfl
  rw [authorizeRaw, hcall]
  simp only [hissuer]
  exact hraw

theorem signedInput_signed : ({ sourceRegistry := some sourceRegistry } :
    GovernanceMesh).verifySourceAttestation sizePrimitives signedInput = .ok () := by
  obtain ⟨payload, hpayload⟩ := exists_of_toOption
    (show (signedInput.attestationPayload sizePrimitives).toOption.isSome = true by decide)
  exact GovernanceMesh.attestation_registry.mpr
    ⟨Demo.publicKey, "c2ln", payload, by decide, rfl, hpayload, verifySignature_size _ _⟩

theorem signed_provenance_iff_registered : SignedProvenance sizePrimitives (some sourceRegistry)
    (AuthorizationIssuer.meshRequirement (some "read") readRequest requiring) [signedInput] := by
  obtain ⟨raw, hissued⟩ := production_issues (some sourceRegistry) signedInput
    ⟨rfl, rfl, rfl, rfl, rfl, rfl⟩
    signedInput_signed (by decide)
  exact (signed_provenance_iff sizePrimitives _ (production_built _) {} 0 "n" readRequest (.str "p")
    (.int 300) none [signedInput] raw hissued requiring rfl readRequest (some "read") rfl rfl
      requiring_required).mpr rfl

theorem unsigned_provenance : ∃ raw,
    ((production none).authorizeRaw sizePrimitives {} 0 "n" readRequest (.str "p") (.int 300) none
      [GovernanceMesh.urgent]).result = .ok raw ∧
    ¬ SignedProvenance sizePrimitives (production none).attachedIssuer.meshSourceRegistry
      (AuthorizationIssuer.meshRequirement (some "read") readRequest requiring)
      [GovernanceMesh.urgent] := by
  obtain ⟨raw, hissued⟩ := production_issues none GovernanceMesh.urgent (.refl _)
    rfl (by decide)
  refine ⟨raw, hissued, fun hprovenance => ?_⟩
  obtain ⟨registry, htrusted, -⟩ := hprovenance.signed GovernanceMesh.urgent List.mem_cons_self
  cases htrusted

end GovernedService

end GovernedAutonomy
