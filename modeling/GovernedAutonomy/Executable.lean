import GovernedAutonomy.Demo
import GovernedAutonomy.Evidence
import GovernedAutonomy.Issued
import GovernedAutonomy.Rearbitration
import GovernedAutonomy.Reload
import GovernedAutonomy.Transport

namespace GovernedAutonomy

open Python
open PyVal hiding none

namespace GovernanceAuthorizationArtifact

variable {P : Primitives} {artifact decoded : Artifact}

-- a GAA before and after it has gone through JSON
structure Alike (artifact decoded : Artifact) : Prop where
  actionRequest : PyVal.Alike (.dict artifact.actionRequest) (.dict decoded.actionRequest)
  decision : PyVal.Alike (.dict artifact.decision) (.dict decoded.decision)
  expiresAt : ∃ e : ℤ, artifact.expiresAt = .int e ∧ decoded.expiresAt = .int e
  nonce : artifact.nonce = decoded.nonce
  replayFrameRef : artifact.replayFrameRef = decoded.replayFrameRef
  issuerKeyId : artifact.issuerKeyId = decoded.issuerKeyId
  signature : artifact.signature = decoded.signature

theorem Alike.unsignedDict (h : Alike artifact decoded) :
    PyVal.Alike artifact.unsignedDict decoded.unsignedDict := by
  refine alike_ofFields (by simp) ?_
  obtain ⟨e, hsent, hread⟩ := h.expiresAt
  rw [hsent, hread, ← h.nonce, ← h.replayFrameRef, ← h.issuerKeyId]
  exact .cons ⟨rfl, h.actionRequest⟩ (.cons ⟨rfl, h.decision⟩ (.cons ⟨rfl, alike_int _⟩
    (.cons ⟨rfl, alike_str _⟩ (.cons ⟨rfl, alike_str _⟩ (.cons ⟨rfl, alike_str _⟩ .nil)))))

theorem Alike.unsignedPayload (h : Alike artifact decoded) {payload : String}
    (hpayload : artifact.unsignedPayload P = .ok payload) :
    decoded.unsignedPayload P = .ok payload :=
  canonicalJson_alike h.unsignedDict hpayload

theorem isJson_toDict {e : ℤ} (hrequest : (PyVal.dict artifact.actionRequest).IsJson)
    (hdecision : (PyVal.dict artifact.decision).IsJson) (hexpires : artifact.expiresAt = .int e) :
    (PyVal.dict artifact.toDict).IsJson := by
  refine isJson_ofFields (by simp) ?_
  simp only [List.forall_mem_cons, List.not_mem_nil, false_implies, implies_true, and_true,
    hexpires]
  exact ⟨hrequest, hdecision, trivial, trivial, trivial, trivial, trivial⟩

theorem encodable_toDict {payload : String} (hpayload : artifact.unsignedPayload P = .ok payload)
    (hsignature : Json.Clean artifact.signature) :
    (PyVal.dict artifact.toDict).Encodable P.recursionLimit := by
  have hunsigned := (canonicalJson_isOk P).mp ⟨payload, hpayload⟩
  rw [GovernanceAuthorizationArtifact.unsignedDict, encodable_ofFields] at hunsigned
  rw [toDict, encodable_ofFields]
  simp only [List.forall_mem_cons, encodable_str] at hunsigned ⊢
  obtain ⟨hpos, hrequest, hdecision, hexpires, hnonce, href, hkey, -⟩ := hunsigned
  exact ⟨hpos, hrequest, hdecision, hexpires, hnonce, href, hkey, hsignature, by simp⟩

theorem fromDict_alike {d : PyDict} {e : ℤ} (h : PyVal.Alike (.dict artifact.toDict) (.dict d))
    (hint : artifact.expiresAt = .int e) (ha : Addressed artifact) :
    ∃ decoded, fromDict (.dict d) = .ok decoded ∧ Alike artifact decoded := by
  have hcarries : Carries artifact.toDict artifact := carries_toDict
  have hrequest := h.getD "action_request"
  have hdecision := h.getD "decision"
  have hexpires := h.getD "expires_at"
  have htext : ∀ {name : String} {s : Str}, artifact.toDict.getD (lit name) = .str s →
      d.getD (lit name) = .str s := by
    intro name s hs
    have hname := h.getD (lit name)
    rw [hs] at hname
    exact hname.str
  rw [hcarries.actionRequest] at hrequest
  rw [hcarries.decision] at hdecision
  rw [hcarries.expiresAt, hint] at hexpires
  obtain ⟨request', hrequest', hrequestAlike⟩ := hrequest.dict
  obtain ⟨decision', hdecision', hdecisionAlike⟩ := hdecision.dict
  have hexpires' : d.getD "expires_at" = .int e := by
    rcases hexpires.cases with heq | ⟨xs, ys, hxs, -⟩ | ⟨c, c', hc, -⟩
    · exact heq.symm
    · cases hxs
    · cases hc
  refine ⟨⟨request', decision', .int e, artifact.nonce, artifact.replayFrameRef,
    artifact.issuerKeyId, artifact.signature⟩, fromDict_eq_ok ⟨?_, ?_, hrequest', hdecision',
      hexpires', htext hcarries.nonce, htext hcarries.replayFrameRef, htext hcarries.issuerKeyId,
      htext hcarries.signature⟩ rfl
        ⟨ha.nonce, ha.replayFrameRef, ha.issuerKeyId, ha.signature⟩, ?_⟩
  · rw [← h.hasOnly]
    exact hcarries.only
  · rw [← h.hasAll]
    exact hcarries.all
  · exact ⟨hrequestAlike, hdecisionAlike, ⟨e, hint, rfl⟩, rfl, rfl, rfl, rfl⟩

-- the text of a signed GAA is read back, up to the order of the keys in it
theorem fromJson_toJson {payload : String} {e : ℤ}
    (hrequest : (PyVal.dict artifact.actionRequest).IsJson)
    (hdecision : (PyVal.dict artifact.decision).IsJson) (hexpires : artifact.expiresAt = .int e)
    (hpayload : artifact.unsignedPayload P = .ok payload)
    (hsignature : Json.Clean artifact.signature) (ha : Addressed artifact) :
    ∃ text decoded, toJson P artifact = .ok text ∧ fromJson P text = .ok decoded ∧
      Alike artifact decoded := by
  have hjson := isJson_toDict hrequest hdecision hexpires
  obtain ⟨t, ht, hclean⟩ := encodable_toDict hpayload hsignature
  have hread : (ofTree t).toTree P.recursionLimit = .ok t :=
    toTree_ofTree (toTree_readable ht) (toTree_ascending hjson.strKeyed ht)
  have halike := PyVal.Alike.of_toTree hjson (ofTree_isJson t) ht hread
  obtain ⟨d, hd, hdict⟩ := halike.dict
  obtain ⟨decoded, hdecoded, hsame⟩ := fromDict_alike hdict hexpires ha
  refine ⟨t.render SQLiteReplayLog.rowStyle, decoded, ReplayFrame.dumps_of_toTree (le_refl _) ht,
    ?_, hsame⟩
  rw [fromJson, ReplayFrame.loads_render rfl (le_refl _) ht hclean, hd]
  exact hdecoded

theorem ne_nil_of_textField_ok {d : PyDict} {name : String} {s : Str}
    (h : textField d name = .ok s) : s ≠ [] := by
  unfold textField at h
  split at h
  · rw [← Except.ok.inj h]
    simp
  · cases h

-- what a GAA is made of once it has been JSON
theorem fromJson_decoded {text : Str} (h : fromJson P text = .ok decoded) :
    (PyVal.dict decoded.actionRequest).IsJson ∧ decoded.issuerKeyId ≠ [] := by
  obtain ⟨value, hvalue, h⟩ := bind_eq_ok.mp h
  have hjson : value.IsJson := by
    rw [reraise_eq_ok] at hvalue
    unfold Interpreter.loads at hvalue
    split at hvalue
    · rw [← Except.ok.inj hvalue]
      exact ofTree_isJson _
    · cases hvalue
    · cases hvalue
    · cases hvalue
  unfold fromDict at h
  split at h
  · split at h
    · simp only [readFields, bind_eq_ok] at h
      obtain ⟨request, hrequest, decision, -, expiresAt, -, nonce, -, frameRef, -, keyId, hkeyId,
        signature, -, h⟩ := h
      rw [← Except.ok.inj h]
      refine ⟨?_, ne_nil_of_textField_ok hkeyId⟩
      rename_i d _
      have hfield := isJson_getD hjson "action_request"
      unfold objectField at hrequest
      split at hrequest
      · rename_i hget
        rw [hget] at hfield
        exact Except.ok.inj hrequest ▸ hfield
      · cases hrequest
    · cases h
  · cases h

end GovernanceAuthorizationArtifact

namespace ExecutionBoundary

variable {P : Primitives} {boundary : ExecutionBoundary} {log : ReplayLog} {now : ℤ}
  {artifact decoded : Artifact}

theorem validateMeshEvidence_alike (h : GovernanceAuthorizationArtifact.Alike artifact decoded)
    {frame : ReplayFrame} (hmesh : validateMeshEvidence P artifact frame = .ok ()) :
    validateMeshEvidence P decoded frame = .ok () := by
  unfold validateMeshEvidence at hmesh ⊢
  rcases (h.decision.getD "mesh_preflight_digest").cases with
    heq | ⟨xs, ys, hxs, -⟩ | ⟨c, c', hc, -⟩
  · rw [← heq]
    split at hmesh
    · exact hmesh
    · simp only [checkReconstruction, bind_eq_ok, denyIf_eq_ok] at hmesh ⊢
      obtain ⟨u, hcomplete, u', hdigest, requestDigest, hrequest, hrest⟩ := hmesh
      exact ⟨u, hcomplete, u', hdigest, requestDigest,
        canonicalDigest_alike h.actionRequest hrequest, hrest⟩
    · cases hmesh
  · rw [hxs] at hmesh
    cases hmesh
  · rw [hc] at hmesh
    cases hmesh

-- the evidence in a frame leads to the mesh decision that the artifact names
structure Supported (P : Primitives) (artifact : Artifact) (frame : ReplayFrame)
    (digest requestDigest : Str) (rawInputs : List PyVal) : Prop where
  named : artifact.decision.getD "mesh_preflight_digest" = .str digest
  nonEmpty : digest ≠ []
  complete : PyDict.hasAll frame.event evidenceKeys = true
  heldDigest : PyDict.getD frame.event "mesh_preflight_digest" = .str digest
  heldRequest : PyDict.getD frame.event "mesh_request_digest" = .str requestDigest
  request : canonicalDigest P (.dict artifact.actionRequest) = .ok requestDigest
  inputs : PyDict.getD frame.event "mesh_inputs" = .list rawInputs
  consulted : rawInputs ≠ []
  decision : ∃ decision, reconstruct P rawInputs requestDigest = .ok decision ∧
    decision.allow = true ∧ decision.digest = digest
  seals : ReplayFrame.create P frame.frameId frame.previousHash frame.event = .ok frame

theorem validateMeshEvidence_of_supported {frame : ReplayFrame} {digest requestDigest : Str}
    {rawInputs : List PyVal} (h : Supported P artifact frame digest requestDigest rawInputs) :
    validateMeshEvidence P artifact frame = .ok () := by
  obtain ⟨decision, hdecision, hallow, hsame⟩ := h.decision
  obtain ⟨c, cs, rfl⟩ := List.exists_cons_of_ne_nil h.nonEmpty
  obtain ⟨raw, raws, rfl⟩ := List.exists_cons_of_ne_nil h.consulted
  simp only [validateMeshEvidence, h.named, checkReconstruction, h.inputs, bind_eq_ok, denyIf_eq_ok]
  refine ⟨(), by simp [h.complete], (), by simp [h.heldDigest, PyVal.eq], requestDigest, h.request,
    (), by simp [h.heldRequest, PyVal.eq], decision, hdecision, (), ?_, frame, h.seals, by simp⟩
  simp [hallow, hsame]

theorem AuthorizedBy.alike (h : GovernanceAuthorizationArtifact.Alike artifact decoded)
    {frame : ReplayFrame} (hauth : AuthorizedBy P artifact frame) : AuthorizedBy P decoded frame := by
  obtain ⟨payload, hpayload, hevent⟩ := hauth.payload
  refine ⟨hauth.kind, h.nonce ▸ hauth.nonce, ⟨payload, h.unsignedPayload hpayload, hevent⟩,
    validateMeshEvidence_alike h hauth.mesh, ?_⟩
  have hallow := h.decision.getD "allow"
  rw [hauth.allowed] at hallow
  rcases hallow.cases with heq | ⟨xs, ys, hxs, -⟩ | ⟨c, c', hc, -⟩
  · exact heq.symm
  · cases hxs
  · cases hc

theorem digestMismatch_alike {v w : PyVal} (h : Alike v w) (digest : Result Str) :
    digestMismatch v digest = digestMismatch w digest := by
  unfold digestMismatch
  rcases h.cases with rfl | ⟨xs, ys, rfl, rfl, -⟩ | ⟨c, c', rfl, rfl, -⟩
  · rfl
  · simp only [h.eq]
  · simp only [h.eq]

theorem PolicyAllows.alike (h : GovernanceAuthorizationArtifact.Alike artifact decoded)
    {registry : PolicyRegistry} (hpolicy : PolicyAllows P boundary artifact registry) :
    PolicyAllows P boundary decoded registry := by
  obtain ⟨policyId, policy, hid, hget, hdigest, decision, hdecide, hallow⟩ := hpolicy.registered
  have hname := h.decision.getD "policy"
  rw [hid] at hname
  -- an allowed action is a string, which has no keys to be put in another order
  obtain ⟨-, -, -, hallowed⟩ := AuthorizationIssuer.decide_fields hdecide
  obtain ⟨a, -, ha⟩ := List.any_eq_true.mp (hallowed hallow)
  have haction := h.actionRequest.getD "action"
  rw [eq_str_right.mp ha] at haction
  refine ⟨policyId, policy, hname.str, hget, ?_, decision, ?_, hallow⟩
  · rw [← digestMismatch_alike (h.decision.getD "policy_digest")]
    exact hdigest
  · refine DeterministicArbiter.decide_alike h.actionRequest ?_ hdecide
    rw [eq_str_right.mp ha, haction.str]

theorem checkAction_alike (h : GovernanceAuthorizationArtifact.Alike artifact decoded)
    (haction : ∃ a, artifact.actionRequest.getD "action" = .str a)
    (hcheck : checkAction artifact = .ok ()) : checkAction decoded = .ok () := by
  obtain ⟨a, haction⟩ := haction
  obtain ⟨actions, hactions, v, hv, hva⟩ := checkAction_eq_ok.mp hcheck
  have hlist := h.decision.getD "allowed_actions"
  have hsame := h.actionRequest.getD "action"
  rw [hactions] at hlist
  rw [haction] at hsame hva
  obtain ⟨actions', hactions', hitems⟩ := hlist.list
  obtain ⟨v', hv', hvv'⟩ := exists_of_forall₂_left hitems hv
  refine checkAction_eq_ok.mpr ⟨actions', hactions', v', hv', ?_⟩
  rw [hsame.str, ← hvv'.eq]
  exact hva

-- a boundary takes a GAA that has gone through JSON as it takes the one that was sent
theorem validate_alike (h : GovernanceAuthorizationArtifact.Alike artifact decoded)
    (haction : ∃ a, artifact.actionRequest.getD "action" = .str a)
    (hvalid : validate P boundary log now artifact = .ok ()) :
    validate P boundary log now decoded = .ok () := by
  rw [validate_eq_ok] at hvalid ⊢
  intro check
  have hcheck := hvalid check
  cases check with
  | signature =>
      obtain ⟨key, payload, htrusted, hpayload, hverifies⟩ := checkSignature_eq_ok.mp hcheck
      exact checkSignature_eq_ok.mpr ⟨key, payload, h.issuerKeyId ▸ htrusted,
        h.unsignedPayload hpayload, h.signature ▸ hverifies⟩
  | expiry =>
      obtain ⟨e, hsent, hread⟩ := h.expiresAt
      exact (checkExpiry_of_int hread).mpr ((checkExpiry_of_int hsent).mp hcheck)
  | unused => exact checkUnused_eq_ok.mpr (h.nonce ▸ checkUnused_eq_ok.mp hcheck)
  | frame =>
      obtain ⟨frame, hframe, hauth⟩ := checkFrame_eq_ok.mp hcheck
      exact checkFrame_eq_ok.mpr ⟨frame, h.replayFrameRef ▸ hframe, hauth.alike h⟩
  | policy =>
      refine checkPolicy_eq_ok.mpr ?_
      intro registry hregistry
      exact (checkPolicy_eq_ok.mp hcheck registry hregistry).alike h
  | action => exact checkAction_alike h haction hcheck

end ExecutionBoundary

namespace AuthorizationIssuer

variable {P : Primitives} {issuer : AuthorizationIssuer} {log log' : ReplayLog} {now later : ℤ}
  {nonce : Str} {call : AuthorizeCall} {artifact : Artifact} {boundary : ExecutionBoundary}

-- what authorize signs, with or without a mesh
def drafted (issuer : AuthorizationIssuer) (now : ℤ) (nonce : Str) (call : AuthorizeCall)
    (request : PyDict) (decision : Decision) (mesh : Option GovernancePreflightDecision) :
    Artifact :=
  ⟨request, decision.signedDict (mesh.map GovernancePreflightDecision.digest),
    .int (now + call.ttlSeconds), nonce, authorizationFrameId nonce, issuer.issuer.keyId, []⟩

-- a call of authorize that has returned a GAA, with all that it computed on the way
structure Issuance (P : Primitives) (issuer : AuthorizationIssuer) (log : ReplayLog) (now : ℤ)
    (nonce : Str) (call : AuthorizeCall) where
  request : PyDict
  decision : Decision
  middle : ReplayLog
  mesh : Option GovernancePreflightDecision
  payload : String
  evidence : List (String × PyVal)
  recorded : ReplayLog
  frame : ReplayFrame
  admitted : issuer.admission P call = .ok (request, decision)
  preflight : issuer.meshPreflight P log request call.meshInputs = .ok (middle, mesh)
  allowed : decision.allow = true
  meshAllowed : ∀ m, mesh = some m → m.allow = true
  drafts : (issuer.drafted now nonce call request decision mesh).unsignedPayload P = .ok payload
  supports : meshEvidence P request call.meshInputs mesh = .ok evidence
  appended : middle.append P (authorizationFrameId nonce) (PyDict.ofFields
    ([("type", .str "authorization"), ("nonce", .str nonce),
      ("artifact_payload", .str (decode payload)),
      ("decision", .dict (issuer.drafted now nonce call request decision mesh).decision),
      ("issued", .bool true)] ++ evidence)) = .ok (recorded, frame)

def Issuance.signed (g : Issuance P issuer log now nonce call) : Artifact :=
  { issuer.drafted now nonce call g.request g.decision g.mesh with
    signature := issuer.issuer.sign g.payload }

theorem ruled_of_allow {decision : Decision} {mesh : Option GovernancePreflightDecision}
    (h : (ruled decision mesh).allow = true) :
    ruled decision mesh = decision ∧ ∀ m, mesh = some m → m.allow = true := by
  cases mesh with
  | none => exact ⟨rfl, by simp⟩
  | some m =>
      simp only [ruled] at h ⊢
      split at h
      · rename_i hallow
        rw [if_pos hallow]
        refine ⟨rfl, ?_⟩
        rintro _ ⟨⟩
        exact hallow
      · cases h

theorem exists_issuance (h : issuer.authorize P log now nonce call = ⟨log', .ok artifact⟩) :
    ∃ g : Issuance P issuer log now nonce call, g.recorded = log' ∧ g.signed = artifact := by
  unfold authorize at h
  cases hadmission : issuer.admission P call with
  | error e =>
      rw [hadmission] at h
      cases h
  | ok admitted =>
      obtain ⟨request, decision⟩ := admitted
      simp only [hadmission] at h
      split at h
      · cases h
      · rename_i middle mesh hmesh
        simp only [settle] at h
        split at h
        · rename_i hallow
          obtain ⟨hruled, hmeshAllowed⟩ := ruled_of_allow hallow
          rw [hruled] at h hallow
          unfold grant at h
          split at h
          · cases h
          · rename_i event hevent
            simp only [issuedEvent, bind_eq_ok] at hevent
            obtain ⟨payload, hpayload, evidence, hevidence, hevent⟩ := hevent
            obtain rfl := Except.ok.inj hevent
            split at h
            · cases h
            · rename_i recorded frame happend
              rw [Authorization.mk.injEq] at h
              obtain ⟨hlog, hissue⟩ := h
              obtain ⟨payload', hpayload', hissue⟩ := bind_eq_ok.mp hissue
              obtain rfl := Except.ok.inj (hpayload.symm.trans hpayload')
              exact ⟨⟨request, decision, middle, mesh, payload, evidence, recorded, frame,
                hadmission, hmesh, hallow, hmeshAllowed, hpayload, hevidence, happend⟩, hlog,
                Except.ok.inj hissue⟩
        · exact absurd (congrArg Authorization.result h) refuse_ne_ok

theorem frameRef_ne {preflight : GovernanceMesh.Preflight}
    (h : preflight.decision.replayFrameRef = none) :
    GovernanceMesh.frameRef preflight ≠ authorizationFrameId nonce := by
  rw [GovernanceMesh.frameRef, h]
  intro heq
  have hhead := congrArg List.head? heq
  simp [authorizationFrameId, lit] at hhead
  revert hhead
  decide

-- what a preflight returns and what it leaves in the log
structure Preflighted (P : Primitives) (log middle : ReplayLog) (request : PyDict)
    (inputs : List GovernanceInput) (m : GovernancePreflightDecision) : Prop where
  consulted : inputs ≠ []
  evaluated : ∃ mesh requestDigest preflight, canonicalDigest P (.dict request) = .ok requestDigest ∧
    GovernanceMesh.evaluate P mesh inputs requestDigest none = .ok preflight ∧
      m.digest = preflight.decision.digest ∧ m.allow = preflight.decision.allow
  frames : middle.frames = log.frames ∨ ∃ frame preflight, middle.frames = log.frames ++ [frame] ∧
    frame.frameId = GovernanceMesh.frameRef preflight ∧ preflight.decision.replayFrameRef = none

theorem meshPreflight_cases {request : PyDict} {inputs : List GovernanceInput} {middle : ReplayLog}
    {mesh : Option GovernancePreflightDecision}
    (h : issuer.meshPreflight P log request inputs = .ok (middle, mesh)) :
    (mesh = none ∧ middle = log) ∨
      ∃ m, mesh = some m ∧ Preflighted P log middle request inputs m := by
  cases inputs with
  | nil =>
      obtain ⟨rfl, rfl⟩ := Prod.mk.inj (Except.ok.inj h)
      exact Or.inl ⟨rfl, rfl⟩
  | cons input inputs =>
      obtain ⟨requestDigest, hrequest, h⟩ := bind_eq_ok.mp h
      split at h
      · simp only [GovernanceMesh.preflight, bind_eq_ok] at h
        obtain ⟨result, ⟨preflight, hevaluate, ⟨log'', frame⟩, happend, hresult⟩, h⟩ := h
        obtain rfl := Except.ok.inj hresult
        obtain ⟨rfl, rfl⟩ := Prod.mk.inj (Except.ok.inj h)
        obtain ⟨hcreate, rfl⟩ := (ReplayLog.append_eq_ok P).mp happend
        refine Or.inr ⟨_, rfl, by simp, ⟨_, requestDigest, preflight, hrequest, hevaluate, rfl,
          rfl⟩, Or.inr ⟨frame, preflight, rfl, ((ReplayFrame.create_eq_ok P).mp hcreate).1, ?_⟩⟩
        exact (GovernanceMesh.evaluate_inputs hevaluate).2.1
      · obtain ⟨preflight, hevaluate, h⟩ := bind_eq_ok.mp h
        obtain ⟨rfl, rfl⟩ := Prod.mk.inj (Except.ok.inj h)
        exact Or.inr ⟨_, rfl, by simp, ⟨_, requestDigest, preflight, hrequest, hevaluate, rfl,
          rfl⟩, Or.inl rfl⟩

namespace Issuance

variable (g : Issuance P issuer log now nonce call)

theorem created : ∃ previousHash, ReplayFrame.create P (authorizationFrameId nonce) previousHash
    (PyDict.ofFields ([("type", .str "authorization"), ("nonce", .str nonce),
      ("artifact_payload", .str (decode g.payload)),
      ("decision", .dict (issuer.drafted now nonce call g.request g.decision g.mesh).decision),
      ("issued", .bool true)] ++ g.evidence)) = .ok g.frame :=
  ⟨_, ((ReplayLog.append_eq_ok P).mp g.appended).1⟩

theorem frameId : g.frame.frameId = authorizationFrameId nonce := by
  obtain ⟨previousHash, hcreate⟩ := g.created
  exact ((ReplayFrame.create_eq_ok P).mp hcreate).1

theorem event : g.frame.event =
    PyDict.ofFields ([("type", .str "authorization"), ("nonce", .str nonce),
      ("artifact_payload", .str (decode g.payload)),
      ("decision", .dict (issuer.drafted now nonce call g.request g.decision g.mesh).decision),
      ("issued", .bool true)] ++ g.evidence) := by
  obtain ⟨previousHash, hcreate⟩ := g.created
  exact ((ReplayFrame.create_eq_ok P).mp hcreate).2.2.1

-- a frame under a fresh id is what the log goes on giving out for it
theorem getFrame {later : ReplayLog} (hnew : ∀ f ∈ log.frames, f.frameId ≠ authorizationFrameId nonce)
    (hgrows : g.recorded.frames <+: later.frames) :
    later.getFrame (authorizationFrameId nonce) = some g.frame := by
  have hmiddle : ∀ f ∈ g.middle.frames, f.frameId ≠ authorizationFrameId nonce := by
    rcases meshPreflight_cases g.preflight with ⟨-, hlog⟩ | ⟨m, -, hm⟩
    · rw [hlog]
      exact hnew
    · rcases hm.frames with hframes | ⟨frame, preflight, hframes, hid, href⟩
      · rw [hframes]
        exact hnew
      · rw [hframes, List.forall_mem_append, List.forall_mem_singleton]
        exact ⟨hnew, hid ▸ frameRef_ne href⟩
  obtain ⟨-, hrecorded⟩ := (ReplayLog.append_eq_ok P).mp g.appended
  obtain ⟨more, hmore⟩ := hgrows
  have hfound := getFrame_appended hmiddle g.frameId
  rw [← hrecorded] at hfound
  rw [ReplayLog.getFrame, ← hmore, List.find?_append]
  rw [ReplayLog.getFrame] at hfound
  rw [hfound]
  rfl

theorem signedDict_digest (decision : Decision) (meshDigest : Option Str) :
    (decision.signedDict meshDigest).getD "mesh_preflight_digest" =
      GovernanceMesh.optStrVal meshDigest := by
  cases meshDigest with
  | none => simp [Decision.signedDict, Decision.toDict, PyDict.getD, GovernanceMesh.optStrVal]
  | some digest =>
      rw [Decision.signedDict, PyDict.getD, PyDict.get_set, if_pos rfl]
      rfl

theorem payload_signed : g.signed.unsignedPayload P = .ok g.payload := g.drafts

theorem validateMeshEvidence_signed :
    ExecutionBoundary.validateMeshEvidence P g.signed g.frame = .ok () := by
  have hdigest : g.signed.decision.getD "mesh_preflight_digest" =
      GovernanceMesh.optStrVal (g.mesh.map GovernancePreflightDecision.digest) :=
    signedDict_digest g.decision _
  have hsupports := g.supports
  rcases meshPreflight_cases g.preflight with ⟨hmesh, -⟩ | ⟨m, hmesh, hm⟩
  · rw [hmesh] at hdigest hsupports
    refine ExecutionBoundary.validateMeshEvidence_of_none hdigest ?_
    intro key hkey
    simp only [ExecutionBoundary.evidenceKeys, List.mem_cons, List.not_mem_nil, or_false] at hkey
    rw [g.event, ← Except.ok.inj hsupports]
    rcases hkey with rfl | rfl | rfl
    · simp [PyDict.has]
    · simp [PyDict.has]
    · simp [PyDict.has]
  · rw [hmesh] at hdigest hsupports
    simp only [meshEvidence, bind_eq_ok] at hsupports
    obtain ⟨requestDigest, hrequest, items, hitems, hevidence⟩ := hsupports
    obtain ⟨mesh, requestDigest', preflight, hrequest', hevaluate, hsame, hallow⟩ := hm.evaluated
    obtain rfl := Except.ok.inj (hrequest.symm.trans hrequest')
    have hne := (GovernanceMesh.evaluate_inputs hevaluate).2.2
    obtain ⟨previousHash, hcreate⟩ := g.created
    have hprevious := ((ReplayFrame.create_eq_ok P).mp hcreate).2.1
    have hsupported : ExecutionBoundary.Supported P g.signed g.frame m.digest requestDigest
        (items.map PyVal.dict) := by
      refine ⟨hdigest, hsame ▸ hne, ?_, ?_, ?_, hrequest, ?_, ?_,
        ⟨preflight.decision, ExecutionBoundary.reconstruct_toDict hitems hevaluate, ?_, hsame.symm⟩,
        ?_⟩
      · rw [g.event, ← Except.ok.inj hevidence]
        simp [PyDict.hasAll, PyDict.has, ExecutionBoundary.evidenceKeys]
      · rw [g.event, ← Except.ok.inj hevidence]
        simp [PyDict.getD]
      · rw [g.event, ← Except.ok.inj hevidence]
        simp [PyDict.getD]
      · rw [g.event, ← Except.ok.inj hevidence]
        simp [PyDict.getD]
      · simpa using GovernanceInput.toDict_ne_nil hitems hm.consulted
      · rw [← hallow]
        exact g.meshAllowed m hmesh
      · rw [g.frameId, hprevious, g.event]
        exact hcreate
    exact ExecutionBoundary.validateMeshEvidence_of_supported hsupported

theorem authorizedBy_signed : ExecutionBoundary.AuthorizedBy P g.signed g.frame := by
  refine ⟨?_, ?_, ⟨g.payload, g.payload_signed, ?_⟩, g.validateMeshEvidence_signed, ?_⟩
  · rw [g.event]
    simp [PyDict.getD]
  · rw [g.event]
    simp [PyDict.getD, signed, drafted]
  · rw [g.event]
    simp [PyDict.getD]
  · have hallow : g.signed.decision.getD "allow" = g.decision.toDict.getD "allow" :=
      signedDict_getD g.decision _ (by decide)
    rw [hallow]
    simp [Decision.toDict, PyDict.getD, g.allowed]

theorem decided : effectiveRequest call.request call.approvals = .ok g.request ∧
    issuer.arbiter.decide P g.request call.policy = .ok g.decision :=
  admission_eq_ok g.admitted

-- the boundary takes it as it was built
theorem validate_signed {later : ReplayLog} {time : ℤ} (haccepts : Accepts P issuer boundary call.policy)
    (hnew : ∀ f ∈ log.frames, f.frameId ≠ authorizationFrameId nonce)
    (hgrows : g.recorded.frames <+: later.frames) (hunused : nonce ∉ later.usedNonces)
    (htime : time < now + call.ttlSeconds) :
    ExecutionBoundary.validate P boundary later time g.signed = .ok () := by
  obtain ⟨key, htrusted, hverifies⟩ := haccepts.trusted
  obtain ⟨registry, hregistry, hpolicy⟩ := haccepts.registered
  have hdecide := g.decided.2
  rw [ExecutionBoundary.validate_eq_ok]
  intro check
  cases check with
  | signature =>
      exact ExecutionBoundary.checkSignature_eq_ok.mpr
        ⟨key, g.payload, htrusted, g.payload_signed, hverifies g.payload⟩
  | expiry => exact (ExecutionBoundary.checkExpiry_of_int rfl).mpr htime
  | unused =>
      refine ExecutionBoundary.checkUnused_eq_ok.mpr ?_
      simpa [ReplayLog.nonceUsed, signed, drafted] using hunused
  | frame =>
      exact ExecutionBoundary.checkFrame_eq_ok.mpr
        ⟨g.frame, g.getFrame hnew hgrows, g.authorizedBy_signed⟩
  | policy =>
      exact checkPolicy_granted rfl rfl hregistry hpolicy (haccepts.arbiter ▸ hdecide) g.allowed
  | action => exact checkAction_granted rfl rfl hdecide g.allowed

end Issuance

-- the request and the approvals of a call are made of what JSON can write
structure IsJson (call : AuthorizeCall) : Prop where
  request : (PyVal.dict call.request).IsJson
  approvals : ∀ approvals, call.approvals = some approvals → ∀ a ∈ approvals, ∀ v,
    serialize a = .ok v → v.IsJson

theorem effectiveRequest_isJson {request : PyDict} (hcall : IsJson call)
    (h : effectiveRequest call.request call.approvals = .ok request) :
    (PyVal.dict request).IsJson := by
  unfold effectiveRequest at h
  split at h
  · rw [← Except.ok.inj h]
    exact hcall.request
  · rename_i approvals happrovals
    obtain ⟨serialized, hserialized, h⟩ := bind_eq_ok.mp h
    have hitems : ∀ v ∈ serialized, v.IsJson := by
      intro v hv
      obtain ⟨a, ha, hva⟩ := mem_of_mapM_eq_ok hserialized hv
      exact hcall.approvals approvals happrovals a ha v hva
    have hexisting := isJson_getD hcall.request "approvals"
    split at h
    · rw [← Except.ok.inj h]
      exact isJson_set hcall.request (isJsonItems_iff.mpr hitems)
    · rename_i existing hlist
      rw [hlist] at hexisting
      rw [← Except.ok.inj h]
      refine isJson_set hcall.request (isJsonItems_iff.mpr ?_)
      rw [List.forall_mem_append]
      exact ⟨isJsonItems_iff.mp hexisting, hitems⟩
    · rename_i existing htuple
      rw [htuple] at hexisting
      cases hexisting
    · cases h

theorem isJson_strList (xs : List Str) : (strList xs).IsJson := by
  refine isJsonItems_iff.mpr ?_
  intro v hv
  obtain ⟨s, -, rfl⟩ := List.mem_map.mp hv
  trivial

theorem signedDict_isJson (decision : Decision) (meshDigest : Option Str) :
    (PyVal.dict (decision.signedDict meshDigest)).IsJson := by
  have hbase : (PyVal.dict decision.toDict).IsJson := by
    refine isJson_ofFields (by simp) ?_
    simp only [List.forall_mem_cons, List.not_mem_nil, false_implies, implies_true, and_true]
    exact ⟨trivial, isJson_strList _, trivial, trivial, isJson_strList _, isJson_strList _, trivial⟩
  cases meshDigest with
  | none => exact hbase
  | some digest => exact isJson_set hbase trivial

-- what is not ASCII is no base64, and a surrogate is not ASCII
theorem clean_of_verifySignature {key : PublicKey} {payload : String} {signature : Str}
    (h : verifySignature P key payload signature = true) : Json.Clean signature := by
  unfold verifySignature at h
  split at h
  · rename_i raw hraw
    simp only [b64decode] at hraw
    split at hraw
    · rename_i hascii
      rw [List.all_append, Bool.and_eq_true, List.all_eq_true] at hascii
      intro p hp
      have hlt := of_decide_eq_true (hascii.1 p hp)
      exact decide_eq_false (by omega)
    · cases hraw
  · cases h

-- the text of a GAA is read back as one that the boundary takes, while it is neither claimed nor
-- expired
def Executable (P : Primitives) (boundary : ExecutionBoundary) (issued : ReplayLog)
    (artifact : Artifact) : Prop :=
  ∃ text decoded, GovernanceAuthorizationArtifact.toJson P artifact = .ok text ∧
    GovernanceAuthorizationArtifact.fromJson P text = .ok decoded ∧
      ∀ (later : ReplayLog) (time : ℤ), issued.frames <+: later.frames →
        artifact.nonce ∉ later.usedNonces → ExecutionBoundary.Unexpired time artifact →
          ExecutionBoundary.validate P boundary later time decoded = .ok ()

-- a nonce that no call of authorize has used
structure Fresh (log : ReplayLog) (nonce : Str) : Prop where
  nonEmpty : nonce ≠ []
  new : ∀ f ∈ log.frames, f.frameId ≠ authorizationFrameId nonce

theorem Issuance.action_text (g : Issuance P issuer log now nonce call) :
    ∃ a, g.request.getD "action" = .str a := by
  obtain ⟨-, -, -, hallowed⟩ := decide_fields g.decided.2
  obtain ⟨a, -, ha⟩ := List.any_eq_true.mp (hallowed g.allowed)
  exact ⟨a, eq_str_right.mp ha⟩

theorem issued_executable (hcall : IsJson call) (hfresh : Fresh log nonce)
    (hkey : issuer.issuer.keyId ≠ []) (hsigner : ∀ payload, issuer.issuer.sign payload ≠ [])
    (haccepts : Accepts P issuer boundary call.policy)
    (h : issuer.authorize P log now nonce call = ⟨log', .ok artifact⟩) :
    Executable P boundary log' artifact := by
  obtain ⟨g, rfl, rfl⟩ := exists_issuance h
  obtain ⟨key, -, hverifies⟩ := haccepts.trusted
  have haddressed : GovernanceAuthorizationArtifact.Addressed g.signed :=
    ⟨hfresh.nonEmpty, List.append_ne_nil_of_left_ne_nil (by decide) nonce, hkey,
      hsigner g.payload⟩
  obtain ⟨text, decoded, htext, hread, halike⟩ := GovernanceAuthorizationArtifact.fromJson_toJson
    (effectiveRequest_isJson hcall g.decided.1) (signedDict_isJson g.decision _) rfl g.payload_signed
    (clean_of_verifySignature (hverifies g.payload)) haddressed
  refine ⟨text, decoded, htext, hread, ?_⟩
  intro later time hgrows hunused htime
  exact ExecutionBoundary.validate_alike halike g.action_text
    (g.validate_signed haccepts hfresh.new hgrows hunused
      ((ExecutionBoundary.unexpired_of_int rfl).mp htime))

def transportCall : AuthorizeCall where
  request := PyDict.ofFields [("action", .str "send_email")]
  policy := Demo.policy
  ttlSeconds := 1

def sharedRegistry : PolicyRegistry := { policies := [("demo-v1", Demo.policy)] }

def sharedBoundary : ExecutionBoundary :=
  { Demo.boundary with policyRegistry := some sharedRegistry }

theorem shared_accepts :
    Accepts sizePrimitives { issuer := Demo.signer } sharedBoundary Demo.policy where
  arbiter := rfl
  trusted := ⟨Demo.publicKey, rfl, fun payload => verifySignature_size _ payload⟩
  registered := ⟨sharedRegistry, rfl, rfl⟩

theorem demo_signs (payload : String) : Demo.signer.sign payload ≠ [] := by
  show lit "c2ln" ≠ []
  decide

theorem transportCall_isJson : IsJson transportCall where
  request := isJson_ofFields (by simp) (by simp [PyVal.IsJson])
  approvals := by rintro approvals ⟨⟩

theorem linked_empty : ({} : ReplayLog).Linked P := trivial

theorem fresh_empty : Fresh {} "n-1" := ⟨by decide, by simp⟩

theorem issued_executable_read : ∃ log artifact,
    AuthorizationIssuer.authorize sizePrimitives { issuer := Demo.signer } {} 0 "n-1" transportCall =
      ⟨log, .ok artifact⟩ ∧
    Executable sizePrimitives sharedBoundary log artifact := by
  have hgrantable : isGrantable sizePrimitives { issuer := Demo.signer } 0 "n-1" transportCall = true := by
    decide +kernel
  obtain ⟨request, decision, payload, hgrantable⟩ := exists_of_isGrantable hgrantable
  obtain ⟨log', frame, -, hauthorize⟩ := authorize_of_grantable linked_empty hgrantable
  exact ⟨log', _, hauthorize, issued_executable transportCall_isJson fresh_empty (by decide)
    demo_signs shared_accepts hauthorize⟩

-- an issuer whose key goes by the empty id, which a map of keys can hold
def anonymousSigner : Signer := { Demo.signer with keyId := [] }

def anonymousBoundary : ExecutionBoundary where
  keySource := .issuerKeys [([], Demo.publicKey)]
  policyRegistry := some sharedRegistry

theorem anonymous_accepts :
    Accepts sizePrimitives { issuer := anonymousSigner } anonymousBoundary Demo.policy where
  arbiter := rfl
  trusted := ⟨Demo.publicKey, rfl, fun payload => verifySignature_size _ payload⟩
  registered := ⟨sharedRegistry, rfl, rfl⟩

-- an approval with numbers for keys, which are sorted in another order once they are text
def numberedCall : AuthorizeCall :=
  { transportCall with
    approvals := some [.object [(.int 9, .str "a"), (.int 10, .str "b")]] }

def numberedRequest : PyDict := PyDict.ofFields
  [("action", .str "send_email"),
    ("approvals", .list [.dict [(.int 9, .str "a"), (.int 10, .str "b")]])]

theorem numberedRequest_unsorted : ((PyVal.dict numberedRequest).toTree 99).toOption.all
    (fun j => decide (¬ j.Ascending)) = true := by
  decide +kernel

theorem anonymous_not_executable {e : ℤ} (hexpires : artifact.expiresAt = .int e)
    (hunused : artifact.nonce ∉ log.usedNonces) : ¬ Executable P anonymousBoundary log artifact := by
  intro h
  obtain ⟨text, decoded, -, hread, hvalid⟩ := h
  obtain ⟨-, hkey⟩ := GovernanceAuthorizationArtifact.fromJson_decoded hread
  have hchecks := ExecutionBoundary.validate_eq_ok.mp
    (hvalid log (e - 1) (List.prefix_refl _) hunused
      ((ExecutionBoundary.unexpired_of_int hexpires).mpr (by omega))) .signature
  obtain ⟨key, -, htrusted, -⟩ := ExecutionBoundary.checkSignature_eq_ok.mp hchecks
  have hget : Dict.get [(([] : Str), Demo.publicKey)] decoded.issuerKeyId = some key := htrusted
  rw [Dict.get_cons, if_neg (by simpa using hkey.symm)] at hget
  cases hget

-- the payload in the log was written with the keys of the request in ascending order
theorem Executable.ascending {issued : ReplayLog} {payload : String} {e : ℤ}
    (h : Executable P boundary issued artifact) (hexpires : artifact.expiresAt = .int e)
    (hunused : artifact.nonce ∉ issued.usedNonces)
    (hframes : ∀ f ∈ issued.frames, PyDict.getD f.event "artifact_payload" = .str (decode payload))
    (hpayload : artifact.unsignedPayload P = .ok payload) :
    ∃ j, (PyVal.dict artifact.actionRequest).toTree (P.recursionLimit - 1) = .ok j ∧
      j.Ascending := by
  obtain ⟨text, decoded, -, hread, hvalid⟩ := h
  obtain ⟨hjson, -⟩ := GovernanceAuthorizationArtifact.fromJson_decoded hread
  have hchecks := ExecutionBoundary.validate_eq_ok.mp
    (hvalid issued (e - 1) (List.prefix_refl _) hunused
      ((ExecutionBoundary.unexpired_of_int hexpires).mpr (by omega))) .frame
  obtain ⟨found, hfound, hauth⟩ := ExecutionBoundary.checkFrame_eq_ok.mp hchecks
  obtain ⟨payload', hpayload', hevent⟩ := hauth.payload
  have hsame := hframes found (ExecutionBoundary.getFrame_eq_some hfound).1
  rw [hevent] at hsame
  obtain rfl : payload' = payload := lit_inj.mp (PyVal.str.inj hsame)
  obtain ⟨t, ht, -⟩ := (canonicalJson_eq_ok P).mp hpayload
  obtain ⟨u, hu, -⟩ := (canonicalJson_eq_ok P).mp hpayload'
  obtain rfl := canonicalJson_injective P ht hu hpayload hpayload'
  obtain ⟨w, j, hw, hj, hwj⟩ := mem_of_same_tree isStr_ofFields isStr_ofFields ht hu
    List.mem_cons_self
  refine ⟨j, hj, ?_⟩
  have hrequest : w = .dict decoded.actionRequest := by
    simpa [PyDict.ofFields, lit_inj] using hw
  rw [hrequest] at hwj
  exact toTree_ascending hjson.strKeyed hwj

theorem issued_not_executable :
    (¬ ∀ (P : Primitives) (issuer : AuthorizationIssuer) (boundary : ExecutionBoundary)
      (log log' : ReplayLog) (now : ℤ) (nonce : Str) (call : AuthorizeCall) (artifact : Artifact),
      IsJson call → Fresh log nonce → (∀ payload, issuer.issuer.sign payload ≠ []) →
        Accepts P issuer boundary call.policy →
          issuer.authorize P log now nonce call = ⟨log', .ok artifact⟩ →
            Executable P boundary log' artifact) ∧
    ¬ ∀ (P : Primitives) (issuer : AuthorizationIssuer) (boundary : ExecutionBoundary)
      (log log' : ReplayLog) (now : ℤ) (nonce : Str) (call : AuthorizeCall) (artifact : Artifact),
      (PyVal.dict call.request).IsJson → Fresh log nonce → issuer.issuer.keyId ≠ [] →
        (∀ payload, issuer.issuer.sign payload ≠ []) → Accepts P issuer boundary call.policy →
          issuer.authorize P log now nonce call = ⟨log', .ok artifact⟩ →
            Executable P boundary log' artifact := by
  constructor
  · intro h
    have hgrantable : isGrantable sizePrimitives { issuer := anonymousSigner } 0 "n-1" transportCall =
        true := by decide +kernel
    obtain ⟨request, decision, payload, hgrantable⟩ := exists_of_isGrantable hgrantable
    obtain ⟨log', frame, happend, hauthorize⟩ := authorize_of_grantable linked_empty hgrantable
    have hexecutable := h sizePrimitives _ anonymousBoundary {} log' 0 "n-1" transportCall _
      transportCall_isJson fresh_empty demo_signs anonymous_accepts hauthorize
    obtain ⟨-, rfl⟩ := (ReplayLog.append_eq_ok _).mp happend
    exact anonymous_not_executable rfl (by simp) hexecutable
  · intro h
    have hgrantable : isGrantable sizePrimitives { issuer := Demo.signer } 0 "n-1" numberedCall =
        true := by decide +kernel
    obtain ⟨request, decision, payload, hgrantable⟩ := exists_of_isGrantable hgrantable
    obtain ⟨log', frame, happend, hauthorize⟩ := authorize_of_grantable linked_empty hgrantable
    have hexecutable := h sizePrimitives _ sharedBoundary {} log' 0 "n-1" numberedCall _
      transportCall_isJson.request fresh_empty (by decide) demo_signs shared_accepts hauthorize
    obtain ⟨hcreate, rfl⟩ := (ReplayLog.append_eq_ok _).mp happend
    obtain ⟨-, -, hevent, -⟩ := (ReplayFrame.create_eq_ok _).mp hcreate
    obtain ⟨j, hj, hascending⟩ := hexecutable.ascending rfl (by simp)
      (by simp [hevent, grantedEvent, PyDict.getD]) hgrantable.payload
    have hrequest : request = numberedRequest :=
      (Except.ok.inj (admission_eq_ok hgrantable.admitted).1).symm
    have hunsorted := numberedRequest_unsorted
    have hj : (PyVal.dict request).toTree 99 = .ok j := hj
    rw [← hrequest, hj] at hunsorted
    exact absurd hascending (of_decide_eq_true hunsorted)

end AuthorizationIssuer

end GovernedAutonomy
