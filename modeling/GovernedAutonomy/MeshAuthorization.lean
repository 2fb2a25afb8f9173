import GovernedAutonomy.AuthorizeOutcomes
import GovernedAutonomy.PreflightOutcomes

namespace GovernedAutonomy

open Python

namespace GovernanceInput

variable {P : Primitives} {item : GovernanceInput}

-- what goes to the log of an input can be written so many levels deep
structure Loggable (item : GovernanceInput) (depth : Nat) : Prop where
  room : 0 < depth
  writable : item.Writable (depth - 1)
  signature : ∀ s, item.sourceSignature = some s → Json.Clean s

theorem encodable_fields {digest : Str} (hdigest : Json.Clean digest) {depth : Nat}
    {rest : List (String × PyVal)} :
    (PyVal.dict (PyDict.ofFields (([("source_id", .str item.sourceId),
      ("decision", .dict item.decision), ("weight", .int item.weight),
      ("priority", .int item.priority), ("metadata", .dict (item.metadata.getD [])),
      ("decision_digest", .str digest)] : List (String × PyVal)) ++ rest))).Encodable depth ↔
      0 < depth ∧ item.Writable (depth - 1) ∧ ∀ m ∈ rest, m.2.Encodable (depth - 1) := by
  rw [PyVal.encodable_ofFields, List.forall_mem_append]
  simp only [List.forall_mem_cons, PyVal.encodable_str, PyVal.encodable_int, List.not_mem_nil,
    IsEmpty.forall_iff, implies_true, and_true]
  refine and_congr_right fun _ => and_congr_left fun _ => ⟨?_, ?_⟩
  · rintro ⟨hsource, hdecision, hweight, hpriority, hmetadata, -⟩
    exact ⟨hsource, hdecision, hweight, hpriority, hmetadata⟩
  · intro h
    exact ⟨h.sourceId, h.decision, h.weight, h.priority, h.metadata, hdigest⟩

theorem encodable_toDict {d : PyDict} (h : item.toDict P = .ok d) {depth : Nat} :
    (PyVal.dict d).Encodable depth ↔ item.Loggable depth := by
  obtain ⟨digest, hdigest, h⟩ := bind_eq_ok.mp h
  obtain ⟨bytes, -, hbytes⟩ := bind_eq_ok.mp hdigest
  obtain rfl := Except.ok.inj hbytes
  have hclean : Json.Clean (hexdigest P bytes) := clean_hexdigest bytes
  cases hsignature : item.sourceSignature with
  | none =>
    rw [hsignature] at h
    obtain rfl := Except.ok.inj h
    have hall := @encodable_fields item _ hclean depth []
    rw [List.append_nil] at hall
    rw [hall]
    constructor
    · rintro ⟨hroom, hwritable, -⟩
      exact ⟨hroom, hwritable, by simp [hsignature]⟩
    · intro hloggable
      exact ⟨hloggable.room, hloggable.writable, by simp⟩
  | some signature =>
    rw [hsignature] at h
    obtain rfl := Except.ok.inj h
    rw [PyDict.ofFields, PyDict.ofFields, ← List.map_append, ← PyDict.ofFields,
      encodable_fields hclean]
    simp only [List.forall_mem_singleton, PyVal.encodable_str]
    constructor
    · rintro ⟨hroom, hwritable, hclean⟩
      exact ⟨hroom, hwritable, fun s hs => Option.some.inj (hsignature.symm.trans hs) ▸ hclean⟩
    · intro hloggable
      exact ⟨hloggable.room, hloggable.writable, hloggable.signature _ hsignature⟩

theorem toDict_isOk {digest : Str} (h : item.digest P = .ok digest) :
    ∃ d, item.toDict P = .ok d := by
  rw [toDict, h]
  cases item.sourceSignature with
  | none => exact ⟨_, rfl⟩
  | some signature => exact ⟨_, rfl⟩

theorem toDicts_isOk {inputs : List GovernanceInput}
    (h : ∀ item ∈ inputs, ∃ digest, item.digest P = .ok digest) :
    ∃ items, inputs.mapM (toDict P) = .ok items := by
  induction inputs with
  | nil => exact ⟨[], rfl⟩
  | cons item inputs ih =>
    obtain ⟨⟨digest, hdigest⟩, hrest⟩ := List.forall_mem_cons.mp h
    obtain ⟨d, hd⟩ := toDict_isOk hdigest
    obtain ⟨items, hitems⟩ := ih hrest
    exact ⟨d :: items, by rw [List.mapM_cons, hd, hitems]; rfl⟩

theorem encodable_toDicts {inputs : List GovernanceInput} {items : List PyDict}
    (h : inputs.mapM (toDict P) = .ok items) {depth : Nat} :
    (∀ d ∈ items, (PyVal.dict d).Encodable depth) ↔ ∀ item ∈ inputs, item.Loggable depth := by
  induction inputs generalizing items with
  | nil =>
    obtain rfl := Except.ok.inj h
    exact iff_of_true (by simp) (by simp)
  | cons item inputs ih =>
    simp only [List.mapM_cons, bind_eq_ok] at h
    obtain ⟨d, hd, rest, hrest, h⟩ := h
    obtain rfl := Except.ok.inj h
    rw [List.forall_mem_cons, List.forall_mem_cons, encodable_toDict hd, ih hrest]

end GovernanceInput

theorem Decision.Spelled.signed_iff {decision : Decision} (h : decision.Spelled) {digest : Str}
    (hdigest : Json.Clean digest) {depth : Nat} :
    (PyVal.dict (decision.signedDict (some digest))).Encodable depth ↔ 2 ≤ depth := by
  rw [← h.encodable_iff, Decision.signedDict, Decision.toDict,
    PyVal.set_ofFields (by simp) (.str digest), PyVal.encodable_ofFields, PyVal.encodable_ofFields,
    List.forall_mem_append, List.forall_mem_singleton]
  exact and_congr_right fun _ => and_iff_left (PyVal.encodable_str.mpr hdigest)

theorem Decision.Spelled.denied {decision : Decision} (h : decision.Spelled) {code : Str}
    (hcode : Json.Clean code) {reasons : List Str} (hreasons : ∀ r ∈ reasons, Json.Clean r) :
    (decision.denied code reasons).Spelled where
  allowedActions := h.allowedActions
  policy := h.policy
  policyDigest := h.policyDigest
  reasons := List.forall_mem_append.mpr ⟨h.reasons, hreasons⟩
  reasonCodes := List.forall_mem_append.mpr ⟨h.reasonCodes, List.forall_mem_singleton.mpr hcode⟩
  requestDigest := h.requestDigest

namespace AuthorizationIssuer

variable {P : Primitives} {issuer : AuthorizationIssuer} {log : ReplayLog} {now : ℤ} {nonce : Str}
  {call : AuthorizeCall} {request : PyDict} {decision : Decision}
  {m : GovernancePreflightDecision} {inputs : List GovernanceInput}

section Granting

def supportedEvent (nonce : Str) (payload : String) (decision : PyDict)
    (digest requestDigest : Str) (items : List PyDict) : PyDict :=
  PyDict.ofFields ([("type", .str "authorization"), ("nonce", .str nonce),
    ("artifact_payload", .str (decode payload)), ("decision", .dict decision),
    ("issued", .bool true)] ++ ([("mesh_preflight_digest", .str digest),
      ("mesh_request_digest", .str requestDigest), ("mesh_inputs", .list (items.map .dict))] :
        List (String × PyVal)))

theorem supportedEvent_isOk (hlog : log.Linked P) (hnonce : Json.Clean nonce)
    (hspelled : decision.Spelled) {digest requestDigest : Str} (hdigest : Json.Clean digest)
    (hrequest : Json.Clean requestDigest) {items : List PyDict}
    (hitems : inputs.mapM (GovernanceInput.toDict P) = .ok items) {payload : String} :
    (∃ frame, ReplayFrame.create P (authorizationFrameId nonce) log.headHash (supportedEvent nonce
      payload (decision.signedDict (some digest)) digest requestDigest items) = .ok frame) ↔
      4 ≤ P.recursionLimit ∧ ∀ item ∈ inputs, item.Loggable (P.recursionLimit - 3) := by
  rw [ReplayFrame.create_isOk, supportedEvent, PyVal.encodable_ofFields, List.forall_mem_append,
    ← GovernanceInput.encodable_toDicts hitems,
    show P.recursionLimit - 1 - 1 = P.recursionLimit - 2 by omega]
  simp only [List.forall_mem_cons, PyVal.encodable_str, PyVal.encodable_bool,
    hspelled.signed_iff hdigest, PyVal.encodable_list, List.forall_mem_map,
    show P.recursionLimit - 2 - 1 = P.recursionLimit - 3 by omega]
  constructor
  · rintro ⟨-, -, -, -, ⟨-, -, -, hroom, -⟩, -, -, ⟨-, hall⟩, -⟩
    exact ⟨by omega, hall⟩
  · rintro ⟨hroom, hall⟩
    exact ⟨by omega, Json.clean_append (Json.clean_lit _) hnonce, ReplayLog.clean_headHash P hlog,
      by omega, ⟨Json.clean_lit _, hnonce, Json.clean_lit _, by omega, trivial, by simp⟩, hdigest,
      hrequest, ⟨by omega, hall⟩, by simp⟩

theorem drafted_isOk (hnonce : Json.Clean nonce) (hspelled : decision.Spelled)
    (hdigest : Json.Clean m.digest) :
    (∃ payload, (issuer.drafted now nonce call request decision
      (some m)).unsignedPayload P = .ok payload) ↔
        3 ≤ P.recursionLimit ∧ (PyVal.dict request).Encodable (P.recursionLimit - 1) ∧
          (digits (now + call.ttlSeconds).natAbs).length ≤ maxStrDigits ∧
            Json.Clean issuer.issuer.keyId := by
  rw [unsignedPayload_isOk]
  simp only [drafted, Option.map_some, hspelled.signed_iff hdigest, PyVal.encodable_int]
  constructor
  · rintro ⟨-, hencodable, hroom, hexpiry, -, -, hkey⟩
    exact ⟨by omega, hencodable, hexpiry, hkey⟩
  · rintro ⟨hroom, hencodable, hexpiry, hkey⟩
    exact ⟨by omega, hencodable, by omega, hexpiry, hnonce,
      Json.clean_append (Json.clean_lit _) hnonce, hkey⟩

theorem issuedEvent_drafted {requestDigest : Str}
    (hrequest : canonicalDigest P (.dict request) = .ok requestDigest) {items : List PyDict}
    (hitems : inputs.mapM (GovernanceInput.toDict P) = .ok items) {event : PyDict} :
    issuedEvent P (issuer.drafted now nonce call request decision (some m)) inputs (some m) =
      .ok event ↔ ∃ payload, (issuer.drafted now nonce call request decision
        (some m)).unsignedPayload P = .ok payload ∧ event = supportedEvent nonce payload
          (decision.signedDict (some m.digest)) m.digest requestDigest items := by
  have hevidence : meshEvidence P request inputs (some m) = .ok
      [("mesh_preflight_digest", .str m.digest), ("mesh_request_digest", .str requestDigest),
        ("mesh_inputs", .list (items.map .dict))] := by
    rw [meshEvidence, hrequest, hitems]
    rfl
  simp only [issuedEvent, bind_eq_ok]
  constructor
  · rintro ⟨payload, hok, evidence, hall, h⟩
    obtain rfl := Except.ok.inj (hevidence.symm.trans hall)
    exact ⟨payload, hok, (Except.ok.inj h).symm⟩
  · rintro ⟨payload, hok, rfl⟩
    exact ⟨payload, hok, _, hevidence, rfl⟩

-- a GAA for inputs that the mesh allows is issued exactly when all that it logs can be written
theorem resolved_grant_mesh (hlog : log.Linked P) (hnonce : Json.Clean nonce)
    (hspelled : decision.Spelled) (hdigest : Json.Clean m.digest)
    (hdigests : ∀ item ∈ inputs, ∃ digest, item.digest P = .ok digest) {requestDigest : Str}
    (hrequest : canonicalDigest P (.dict request) = .ok requestDigest) :
    Resolved (grant P issuer.issuer log
      (issuer.drafted now nonce call request decision (some m)) inputs (some m)).result ↔
      4 ≤ P.recursionLimit ∧ (PyVal.dict request).Encodable (P.recursionLimit - 1) ∧
        (digits (now + call.ttlSeconds).natAbs).length ≤ maxStrDigits ∧
          Json.Clean issuer.issuer.keyId ∧
            ∀ item ∈ inputs, item.Loggable (P.recursionLimit - 3) := by
  obtain ⟨items, hitems⟩ := GovernanceInput.toDicts_isOk hdigests
  have hevent : ∀ payload, (∃ frame, ReplayFrame.create P (authorizationFrameId nonce) log.headHash
      (supportedEvent nonce payload (decision.signedDict (some m.digest)) m.digest requestDigest
        items) = .ok frame) ↔
      4 ≤ P.recursionLimit ∧ ∀ item ∈ inputs, item.Loggable (P.recursionLimit - 3) := fun _ =>
    supportedEvent_isOk hlog hnonce hspelled hdigest (canonicalDigest_eq_ok hrequest).2 hitems
  constructor
  · intro hresolved
    cases hresult : (grant P issuer.issuer log (issuer.drafted now nonce call request decision
        (some m)) inputs (some m)).result with
    | error e => exact absurd hresolved (not_resolved_of_plain hresult
        (onlyRaises_notDenied (onlyRaises_grant _ _ _ _)))
    | ok artifact =>
      unfold grant at hresult
      split at hresult
      · cases hresult
      · rename_i event hok
        split at hresult
        · cases hresult
        · rename_i log' frame happend
          obtain ⟨payload, hsigned, rfl⟩ := (issuedEvent_drafted hrequest hitems).mp hok
          obtain ⟨hcreate, -⟩ := (ReplayLog.append_eq_ok P).mp happend
          obtain ⟨hroom, hall⟩ := (hevent payload).mp ⟨frame, hcreate⟩
          obtain ⟨-, hencodable, hexpiry, hkey⟩ :=
            (drafted_isOk hnonce hspelled hdigest).mp ⟨payload, hsigned⟩
          exact ⟨hroom, hencodable, hexpiry, hkey, hall⟩
  · rintro ⟨hroom, hencodable, hexpiry, hkey, hall⟩
    have hdrafted : ∃ payload, (issuer.drafted now nonce call request decision
        (some m)).unsignedPayload P = .ok payload :=
      (drafted_isOk hnonce hspelled hdigest).mpr ⟨by omega, hencodable, hexpiry, hkey⟩
    obtain ⟨payload, hsigned⟩ := hdrafted
    obtain ⟨frame, hcreate⟩ := (hevent payload).mpr ⟨hroom, hall⟩
    have happend := (ReplayLog.append_eq_ok P).mpr ⟨hcreate, rfl⟩
    have hissue : GovernanceAuthorizationArtifact.issue P request
        (decision.signedDict (some m.digest)) (.int (now + call.ttlSeconds)) nonce
          (authorizationFrameId nonce) issuer.issuer = .ok { issuer.drafted now nonce call request
            decision (some m) with signature := issuer.issuer.sign payload } := by
      rw [GovernanceAuthorizationArtifact.issue]
      exact bind_eq_ok.mpr ⟨payload, hsigned, rfl⟩
    rw [grant, (issuedEvent_drafted hrequest hitems).mpr ⟨payload, hsigned, rfl⟩]
    simp only [drafted, Option.map_some, happend, hissue]
    trivial

end Granting

section Stage

variable {requestDigest : Str}

-- preflight as authorize makes it, with what its mesh writes to
theorem meshPreflight_eq (hne : inputs ≠ [])
    (hrequest : canonicalDigest P (.dict request) = .ok requestDigest) :
    issuer.meshPreflight P log request inputs =
      if issuer.effectiveMesh.recorded then
        (issuer.effectiveMesh.mesh.preflight P log inputs requestDigest none).map
          (fun made => (made.1, some made.2))
      else (issuer.effectiveMesh.mesh.evaluate P inputs requestDigest none).map
        (fun preflight => (log, some preflight.decision)) := by
  cases inputs with
  | nil => exact absurd rfl hne
  | cons item inputs =>
    simp only [meshPreflight, hrequest, bind, Except.bind]
    split
    · cases issuer.effectiveMesh.mesh.preflight P log (item :: inputs) requestDigest none <;> rfl
    · cases issuer.effectiveMesh.mesh.evaluate P (item :: inputs) requestDigest none <;> rfl

theorem onlyRaises_map {α β : Type} {p : Exc → Bool} {x : Result α} {f : α → β} :
    OnlyRaises p (x.map f) ↔ OnlyRaises p x := by
  cases x with
  | ok a => exact iff_of_true (onlyRaises_ok _) (onlyRaises_ok _)
  | error e => exact ⟨fun h e' he' => h e' (by rw [Except.error.inj he']; rfl),
      fun h e' he' => h e' (by rw [Except.error.inj he'])⟩

theorem onlyMesh_meshPreflight (hlog : log.Linked P) (hne : inputs ≠ [])
    (hdigests : ∀ item ∈ inputs, item.digest P = .ok (GovernanceMesh.rate P item).2)
    (hrequest : canonicalDigest P (.dict request) = .ok requestDigest) :
    OnlyRaises isMeshError (issuer.meshPreflight P log request inputs) ↔
      issuer.effectiveMesh.mesh.Composed P inputs requestDigest issuer.effectiveMesh.recorded := by
  rw [meshPreflight_eq hne hrequest]
  cases issuer.effectiveMesh.recorded with
  | true =>
    rw [if_pos rfl, onlyRaises_map]
    exact GovernanceMesh.onlyMesh_preflight hdigests hlog
  | false =>
    rw [if_neg Bool.false_ne_true, onlyRaises_map]
    exact GovernanceMesh.onlyMesh_evaluate hdigests

end Stage

end AuthorizationIssuer

namespace GovernanceMesh

variable {P : Primitives} {mesh : GovernanceMesh} {inputs : List GovernanceInput}
  {requestDigest : Str} {preflight : Preflight}

variable (P inputs) in
-- the top inputs agree, and the first input of their group allows
def Favours : Prop :=
  ¬ Contested (inputs.map (rate P)) ∧ ∀ lead, lead? P inputs = some lead → lead.allow = true

theorem favours_of_outcome (hne : inputs ≠ []) {outcome : Outcome}
    (h : outcomeOf P (inputs.map (rate P)) = .ok outcome) :
    outcome.allow = true ↔ Favours P inputs := by
  by_cases hcontested : Contested (inputs.map (rate P))
  · have hrated : inputs.map (rate P) ≠ [] := by rwa [ne_eq, List.map_eq_nil_iff]
    obtain rfl := Except.ok.inj ((outcomeOf_contested hrated hcontested).symm.trans h)
    exact iff_of_false Bool.false_ne_true fun hfavours => hfavours.1 hcontested
  · obtain ⟨lead, -, hfirst, houtcome⟩ := outcomeOf_lead hne hcontested
    obtain ⟨reasons, -, rfl⟩ := map_eq_ok.mp (houtcome.symm.trans h)
    constructor
    · intro hallow
      refine ⟨hcontested, fun other hother => ?_⟩
      obtain rfl := Option.some.inj (hfirst.symm.trans hother)
      exact hallow
    · intro hfavours
      exact hfavours.2 lead hfirst

structure Ruling (P : Primitives) (inputs : List GovernanceInput) (m : GovernancePreflightDecision) :
    Prop where
  allow : m.allow = true ↔ Favours P inputs
  digest : Json.Clean m.digest
  reasons : ∀ r ∈ m.reasons, Json.Clean r

theorem ruling_of_evaluate (hdigests : ∀ item ∈ inputs, item.digest P = .ok (rate P item).2)
    (h : mesh.evaluate P inputs requestDigest none = .ok preflight) :
    Ruling P inputs preflight.decision := by
  obtain ⟨-, -, outcome, hevaluated⟩ := evaluate_eq_ok.mp h
  have hdigest := hevaluated.digest
  rw [hevaluated.decision]
  exact ⟨favours_of_outcome hevaluated.nonempty hevaluated.agreed,
    (canonicalDigest_eq_ok hdigest).2,
    (outcome_spelled hdigests hevaluated.nonempty hevaluated.agreed).1.reasons⟩

end GovernanceMesh

namespace AuthorizationIssuer

variable {P : Primitives} {issuer : AuthorizationIssuer} {log log' : ReplayLog} {now : ℤ}
  {nonce : Str} {call : AuthorizeCall} {request : PyDict} {decision : Decision}
  {inputs : List GovernanceInput} {requestDigest : Str}

section Settling

variable (P issuer now call request) in
-- what authorize logs and signs once the mesh has ruled can be written
structure Audited : Prop where
  room : 4 ≤ P.recursionLimit
  granted : issuer.arbiter.Permits P request call.policy →
    GovernanceMesh.Favours P call.meshInputs →
      (PyVal.dict request).Encodable (P.recursionLimit - 1) ∧
        (digits (now + call.ttlSeconds).natAbs).length ≤ maxStrDigits ∧
          Json.Clean issuer.issuer.keyId ∧
            ∀ item ∈ call.meshInputs, item.Loggable (P.recursionLimit - 3)
  denied : ¬ (issuer.arbiter.Permits P request call.policy ∧
    GovernanceMesh.Favours P call.meshInputs) →
      (PyVal.dict request).Encodable (P.recursionLimit - 2)

theorem resolved_settle_mesh (hlog : log.Linked P) (hnonce : Json.Clean nonce)
    (hspelled : decision.Spelled)
    (hallow : decision.allow = true ↔ issuer.arbiter.Permits P request call.policy)
    {m : GovernancePreflightDecision} (hruling : GovernanceMesh.Ruling P call.meshInputs m)
    (hdigests : ∀ item ∈ call.meshInputs, ∃ digest, item.digest P = .ok digest)
    (hrequest : canonicalDigest P (.dict request) = .ok requestDigest) :
    Resolved (issuer.settle P log now nonce call request decision (some m)).result ↔
      Audited P issuer now call request := by
  have hboth : (ruled decision (some m)).allow = true ↔
      issuer.arbiter.Permits P request call.policy ∧
        GovernanceMesh.Favours P call.meshInputs := by
    rw [← hallow, ← hruling.allow]
    simp only [ruled]
    split
    · rename_i hm
      exact (and_iff_left hm).symm
    · rename_i hm
      exact iff_of_false Bool.false_ne_true fun h => hm h.2
  simp only [settle, Option.map_some]
  by_cases hgranted : (ruled decision (some m)).allow = true
  · rw [if_pos hgranted, (ruled_of_allow hgranted).1]
    obtain ⟨hpermits, hfavours⟩ := hboth.mp hgranted
    refine (resolved_grant_mesh hlog hnonce hspelled hruling.digest hdigests hrequest).trans ?_
    constructor
    · rintro ⟨hroom, hall⟩
      exact ⟨hroom, fun _ _ => hall, fun hnot => absurd ⟨hpermits, hfavours⟩ hnot⟩
    · intro haudited
      exact ⟨haudited.room, haudited.granted hpermits hfavours⟩
  · have hruled : (ruled decision (some m)).Spelled := by
      simp only [ruled]
      split
      · exact hspelled
      · exact hspelled.denied (Json.clean_lit _) hruling.reasons
    rw [if_neg hgranted, resolved_refuse hlog hnonce (hruled.signed_iff hruling.digest)]
    constructor
    · rintro ⟨hroom, hdenied⟩
      exact ⟨hroom, fun hp hf => absurd (hboth.mpr ⟨hp, hf⟩) hgranted, fun _ => hdenied⟩
    · intro haudited
      exact ⟨haudited.room, haudited.denied fun h => hgranted (hboth.mpr h)⟩

theorem meshPreflight_ruling (hlog : log.Linked P) (hne : inputs ≠ [])
    (hdigests : ∀ item ∈ inputs, item.digest P = .ok (GovernanceMesh.rate P item).2)
    (hrequest : canonicalDigest P (.dict request) = .ok requestDigest)
    {mesh : Option GovernancePreflightDecision}
    (h : issuer.meshPreflight P log request inputs = .ok (log', mesh)) :
    log'.Linked P ∧ (∃ m, mesh = some m ∧ GovernanceMesh.Ruling P inputs m) ∧
      issuer.effectiveMesh.mesh.Verified P inputs ∧
        (inputs.map GovernanceInput.sourceId).Nodup := by
  rw [meshPreflight_eq hne hrequest] at h
  split at h
  · obtain ⟨made, hmade, hpair⟩ := map_eq_ok.mp h
    obtain ⟨rfl, rfl⟩ := Prod.mk.inj hpair
    simp only [GovernanceMesh.preflight, bind_eq_ok] at hmade
    obtain ⟨preflight, hevaluate, ⟨log'', frame⟩, happend, hmade⟩ := hmade
    obtain rfl := Except.ok.inj hmade
    have hruling := GovernanceMesh.ruling_of_evaluate hdigests hevaluate
    obtain ⟨-, -, hverified, hdistinct, -⟩ :=
      (GovernanceMesh.evaluate_isOk hdigests).mp ⟨preflight, hevaluate⟩
    exact ⟨ReplayLog.linked_append P hlog happend,
      ⟨_, rfl, ⟨hruling.allow, hruling.digest, hruling.reasons⟩⟩, hverified, hdistinct⟩
  · obtain ⟨preflight, hevaluate, hpair⟩ := map_eq_ok.mp h
    obtain ⟨rfl, rfl⟩ := Prod.mk.inj hpair
    obtain ⟨-, -, hverified, hdistinct, -⟩ :=
      (GovernanceMesh.evaluate_isOk hdigests).mp ⟨preflight, hevaluate⟩
    exact ⟨hlog, ⟨_, rfl, GovernanceMesh.ruling_of_evaluate hdigests hevaluate⟩, hverified,
      hdistinct⟩

theorem meshPreflight_isOk (hlog : log.Linked P) (hne : inputs ≠ [])
    (hdigests : ∀ item ∈ inputs, item.digest P = .ok (GovernanceMesh.rate P item).2)
    (hrequest : canonicalDigest P (.dict request) = .ok requestDigest)
    (hdigest : requestDigest ≠ [])
    (hcomposed : issuer.effectiveMesh.mesh.Composed P inputs requestDigest
      issuer.effectiveMesh.recorded)
    (hverified : issuer.effectiveMesh.mesh.Verified P inputs)
    (hdistinct : (inputs.map GovernanceInput.sourceId).Nodup) :
    ∃ result, issuer.meshPreflight P log request inputs = .ok result := by
  have hconclusive := (hcomposed hdigest hne).2 hverified hdistinct
  rw [meshPreflight_eq hne hrequest]
  split
  · rename_i hrecorded
    rw [if_pos hrecorded] at hconclusive
    obtain ⟨preflight, hevaluate⟩ := (GovernanceMesh.evaluate_isOk hdigests).mpr
      ⟨hdigest, hne, hverified, hdistinct, hconclusive.mono (Nat.sub_le _ _)⟩
    obtain ⟨⟨log', frame⟩, happend⟩ :=
      (GovernanceMesh.recorded_isOk hdigests hlog hevaluate).mpr hconclusive
    rw [GovernanceMesh.preflight, hevaluate]
    simp only [bind, Except.bind, happend]
    exact ⟨_, rfl⟩
  · rename_i hrecorded
    rw [if_neg hrecorded] at hconclusive
    obtain ⟨preflight, hevaluate⟩ := (GovernanceMesh.evaluate_isOk hdigests).mpr
      ⟨hdigest, hne, hverified, hdistinct, hconclusive⟩
    rw [hevaluate]
    exact ⟨_, rfl⟩

end Settling

section Statement

-- an artifact, the denial that carries its decision, or the error of the mesh
def Left : Result Artifact → Prop
  | .ok _ => True
  | .error e => (denial? e).isSome = true ∨ isMeshError e = true

theorem left_iff_resolved {result : Result Artifact}
    (h : OnlyRaises (fun e => !isMeshError e) result) : Left result ↔ Resolved result := by
  cases result with
  | ok artifact => exact Iff.rfl
  | error e =>
    have hnot : isMeshError e = false := by simpa using h e rfl
    rw [Left, Resolved, hnot]
    exact or_iff_left Bool.false_ne_true

theorem notMesh_of_plain {α : Type} {x : Result α} (h : OnlyRaises Exc.isPlain x) :
    OnlyRaises (fun e => !isMeshError e) x := by
  refine h.mono fun e he => ?_
  cases e with
  | custom cls _ _ _ => cases he
  | _ => rfl

theorem notMesh_settle {mesh : Option GovernancePreflightDecision} :
    OnlyRaises (fun e => !isMeshError e)
      (issuer.settle P log now nonce call request decision mesh).result := by
  simp only [settle]
  split
  · exact notMesh_of_plain (onlyRaises_grant _ _ _ _)
  · unfold refuse
    split
    · rename_i e happend
      exact onlyRaises_error
        (notMesh_of_plain (ReplayLog.onlyRaises_append _ _ _) e happend)
    · exact onlyRaises_error rfl

theorem left_of_error {e : Exc} (h : OnlyRaises notDenied (.error e : Result Artifact)) :
    Left (.error e) ↔ isMeshError e = true := by
  have hnot := h e rfl
  rw [notDenied, Option.isNone_iff_eq_none] at hnot
  rw [Left, hnot]
  exact or_iff_right Bool.false_ne_true

theorem authorize_left_iff (hlog : log.Linked P) (hnonce : Json.Clean nonce)
    (hadmission : issuer.admission P call = .ok (request, decision)) (hne : call.meshInputs ≠ [])
    (hdigests : ∀ item ∈ call.meshInputs, item.digest P = .ok (GovernanceMesh.rate P item).2) :
    ∃ requestDigest, canonicalDigest P (.dict request) = .ok requestDigest ∧
      (Left (issuer.authorize P log now nonce call).result ↔
        issuer.effectiveMesh.mesh.Composed P call.meshInputs requestDigest
            issuer.effectiveMesh.recorded ∧
          (issuer.effectiveMesh.mesh.Verified P call.meshInputs →
            (call.meshInputs.map GovernanceInput.sourceId).Nodup →
              Audited P issuer now call request)) := by
  obtain ⟨-, hdecide⟩ := admission_eq_ok hadmission
  have hcomputable := DeterministicArbiter.computable_of_decide hdecide
  obtain ⟨decision', hdecide', hspelled, hallow⟩ :=
    DeterministicArbiter.decide_spec issuer.arbiter hcomputable
  obtain rfl := Except.ok.inj (hdecide.symm.trans hdecide')
  obtain ⟨requestDigest, hrequest⟩ := (canonicalDigest_isOk P).mpr hcomputable.canonical
  have hdigest := (canonicalDigest_eq_ok hrequest).1
  have hstage : OnlyRaises isMeshError (issuer.meshPreflight P log request call.meshInputs) ↔ _ :=
    onlyMesh_meshPreflight hlog hne hdigests hrequest
  refine ⟨requestDigest, hrequest, ?_⟩
  rw [← hstage]
  have hsettled : ∀ {log' : ReplayLog} {mesh : Option GovernancePreflightDecision},
      issuer.meshPreflight P log request call.meshInputs = .ok (log', mesh) →
        (Left (issuer.settle P log' now nonce call request decision mesh).result ↔
          Audited P issuer now call request) := by
    intro log' mesh hok
    obtain ⟨hlinked, ⟨m, rfl, hruling⟩, -, -⟩ := meshPreflight_ruling hlog hne hdigests hrequest hok
    rw [left_iff_resolved notMesh_settle]
    exact resolved_settle_mesh hlinked hnonce hspelled hallow hruling
      (fun item hitem => ⟨_, hdigests item hitem⟩) hrequest
  simp only [authorize, hadmission]
  cases hmesh : issuer.meshPreflight P log request call.meshInputs with
  | error e =>
    have hdenied : OnlyRaises notDenied (.error e : Result Artifact) := by
      intro e' he'
      obtain rfl := Except.error.inj he'
      exact onlyRaises_meshPreflight request call.meshInputs _ hmesh
    simp only [left_of_error hdenied]
    constructor
    · intro hyes
      have honly : OnlyRaises isMeshError (issuer.meshPreflight P log request call.meshInputs) := by
        rw [hmesh]
        exact onlyRaises_error hyes
      refine ⟨hmesh ▸ honly, fun hverified hdistinct => ?_⟩
      obtain ⟨result, hok⟩ := meshPreflight_isOk hlog hne hdigests hrequest hdigest
        (hstage.mp honly) hverified hdistinct
      rw [hmesh] at hok
      cases hok
    · rintro ⟨honly, -⟩
      exact honly e rfl
  | ok made =>
    obtain ⟨log', mesh⟩ := made
    obtain ⟨-, -, hverified, hdistinct⟩ := meshPreflight_ruling hlog hne hdigests hrequest hmesh
    simp only [hsettled hmesh]
    constructor
    · intro haudited
      exact ⟨onlyRaises_ok _, fun _ _ => haudited⟩
    · rintro ⟨-, haudited⟩
      exact haudited hverified hdistinct

end Statement

end AuthorizationIssuer

section Accepted

variable {P : Primitives} {inputs : List GovernanceInput}

theorem digest_of_accepted {item : GovernanceInput} {value : PyVal}
    (h : GovernanceInput.fromDict P value = .ok item) :
    item.digest P = .ok (GovernanceMesh.rate P item).2 := by
  cases value with
  | dict d =>
    simp only [GovernanceInput.fromDict, bind_eq_ok] at h
    obtain ⟨-, -, made, -, digest, hdigest, -, -, h⟩ := h
    obtain rfl := Except.ok.inj h
    rw [GovernanceMesh.rate, hdigest]
    rfl
  | _ => cases h

-- what preflight, authorize and the barrier make of accepted inputs
theorem accepted_inputs_settled_iff (P : Primitives) (inputs : List GovernanceInput)
    (haccepted : ∀ item ∈ inputs, ∃ value, GovernanceInput.fromDict P value = .ok item) :
    (∀ (mesh : GovernanceMesh) (log : Option ReplayLog) (requestDigest : Str),
      (∀ l, log = some l → l.Linked P) →
        (OnlyRaises isMeshError (mesh.preflightWith P log inputs requestDigest none) ↔
          mesh.Composed P inputs requestDigest log.isSome)) ∧
    (∀ (issuer : AuthorizationIssuer) (log : ReplayLog) (now : ℤ) (nonce : Str)
      (call : AuthorizeCall) (request : PyDict) (decision : Decision),
      call.meshInputs = inputs → inputs ≠ [] → log.Linked P → Json.Clean nonce →
        issuer.admission P call = .ok (request, decision) →
          ∃ requestDigest, canonicalDigest P (.dict request) = .ok requestDigest ∧
            (AuthorizationIssuer.Left (issuer.authorize P log now nonce call).result ↔
              issuer.effectiveMesh.mesh.Composed P inputs requestDigest
                  issuer.effectiveMesh.recorded ∧
                (issuer.effectiveMesh.mesh.Verified P inputs →
                  (inputs.map GovernanceInput.sourceId).Nodup →
                    AuthorizationIssuer.Audited P issuer now call request))) ∧
    (∃ items, inputs.mapM (GovernanceInput.toDict P) = .ok items ∧
      ExecutionBoundary.rebuildInputs P (items.map .dict) =
        .ok (inputs.map GovernanceInput.rebuilt)) := by
  have hdigests : ∀ item ∈ inputs, item.digest P = .ok (GovernanceMesh.rate P item).2 := by
    intro item hitem
    obtain ⟨value, hvalue⟩ := haccepted item hitem
    exact digest_of_accepted hvalue
  refine ⟨fun mesh log requestDigest hlog => GovernanceMesh.onlyMesh_preflightWith hdigests hlog,
    ?_, ?_⟩
  · rintro issuer log now nonce call request decision rfl hne hlog hnonce hadmission
    exact AuthorizationIssuer.authorize_left_iff hlog hnonce hadmission hne hdigests
  · obtain ⟨items, hitems⟩ :=
      GovernanceInput.toDicts_isOk fun item hitem => ⟨_, hdigests item hitem⟩
    exact ⟨items, hitems, ExecutionBoundary.rebuildInputs_toDict hitems⟩

def remarking (reasons : PyVal) : GovernanceInput where
  sourceId := "a"
  decision := PyDict.ofFields [("allow", .bool true), ("reasons", reasons)]
  weight := 1
  priority := 0
  metadata := some []
  sourceSignature := none
  allow := true
  sourceNonEmpty := List.cons_ne_nil _ _
  weightPos := Int.one_pos
  priorityNonneg := le_rfl
  decided := rfl
  signatureNonEmpty := GovernanceMesh.unsigned_nonEmpty

theorem accepted_of_toDict {item : GovernanceInput} (hsame : item.rebuilt = item)
    (h : (item.toDict sizePrimitives).toOption.isSome = true) :
    ∃ value, GovernanceInput.fromDict sizePrimitives value = .ok item := by
  obtain ⟨d, hd⟩ := exists_of_toOption h
  exact ⟨.dict d, (GovernanceInput.fromDict_toDict hd).trans (congrArg _ hsame)⟩

def opposing : GovernanceInput := { GovernanceMesh.heavy with metadata := some [] }

def twoInputs : List GovernanceInput := [remarking .none, opposing]

def twoInputCall : AuthorizeCall :=
  { AuthorizationIssuer.lifetimeCall with meshInputs := twoInputs }

-- the three parts at two inputs, for a mesh of its own, an issuer and the barrier
theorem accepted_inputs_settled_two :
    (OnlyRaises isMeshError
        (({} : GovernanceMesh).preflightWith sizePrimitives none twoInputs "r" none) ↔
      ({} : GovernanceMesh).Composed sizePrimitives twoInputs "r" false) ∧
    (∃ request requestDigest,
      AuthorizationIssuer.Left
          (AuthorizationIssuer.lifetimeIssuer.authorize sizePrimitives {} 0 "n"
            twoInputCall).result ↔
        ({} : GovernanceMesh).Composed sizePrimitives twoInputs requestDigest true ∧
          (({} : GovernanceMesh).Verified sizePrimitives twoInputs →
            (twoInputs.map GovernanceInput.sourceId).Nodup →
              AuthorizationIssuer.Audited sizePrimitives AuthorizationIssuer.lifetimeIssuer 0
                twoInputCall request)) ∧
    ∃ items, twoInputs.mapM (GovernanceInput.toDict sizePrimitives) = .ok items ∧
      ExecutionBoundary.rebuildInputs sizePrimitives (items.map .dict) =
        .ok (twoInputs.map GovernanceInput.rebuilt) := by
  obtain ⟨hpreflight, hauthorize, hbarrier⟩ :=
    accepted_inputs_settled_iff sizePrimitives twoInputs (by
      rw [twoInputs, List.forall_mem_cons, List.forall_mem_singleton]
      exact ⟨accepted_of_toDict rfl (by decide +kernel), accepted_of_toDict rfl (by decide +kernel)⟩)
  obtain ⟨⟨request, decision⟩, hadmission⟩ := exists_of_toOption
    (show (AuthorizationIssuer.lifetimeIssuer.admission sizePrimitives
      twoInputCall).toOption.isSome = true by decide +kernel)
  obtain ⟨requestDigest, -, hleft⟩ := hauthorize AuthorizationIssuer.lifetimeIssuer {} 0 "n"
    twoInputCall request decision rfl (List.cons_ne_nil _ _) trivial (Json.clean_lit _) hadmission
  exact ⟨hpreflight {} none "r" (by simp), ⟨request, requestDigest, hleft⟩, hbarrier⟩

-- the validator looks at no more of a decision than its allow
theorem accepted_inputs_not_settled :
    ¬ ∀ (P : Primitives) (mesh : GovernanceMesh) (inputs : List GovernanceInput)
      (requestDigest : Str),
      (∀ item ∈ inputs, ∃ value, GovernanceInput.fromDict P value = .ok item) →
        OnlyRaises isMeshError (mesh.preflightWith P none inputs requestDigest none) := by
  intro h
  have honly := h sizePrimitives {} [remarking (.int 5)] "r" (by
    intro item hitem
    rw [List.mem_singleton.mp hitem]
    exact accepted_of_toDict rfl (by decide +kernel))
  have herror : ∃ e, ({} : GovernanceMesh).preflightWith sizePrimitives none [remarking (.int 5)] "r"
      none = .error e ∧ isMeshError e = false := by
    refine ⟨.builtin .typeError, ?_, rfl⟩
    rfl
  obtain ⟨e, he, hnot⟩ := herror
  have hyes := honly e he
  rw [hnot] at hyes
  cases hyes

end Accepted

end GovernedAutonomy
