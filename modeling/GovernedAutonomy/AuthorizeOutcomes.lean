import GovernedAutonomy.Constraints
import GovernedAutonomy.Denial
import GovernedAutonomy.Python.Numerals

namespace GovernedAutonomy

open Python

section Entries

variable {V : Type} {action : PyVal}

theorem entryOf_eq_some {d : List (Str × V)} {v : V} (h : entryOf d action = some v) :
    ∃ name, action = .str name ∧ (name, v) ∈ d := by
  cases action with
  | str name =>
      obtain ⟨key, hmem, hkey⟩ := Dict.get_eq_some h
      exact ⟨key, congrArg PyVal.str ((Exact.same_iff _ _).mp hkey).symm, hmem⟩
  | _ => cases h

theorem mem_applicable {d : List (Str × List V)} {v : V} (h : v ∈ applicable d action) :
    ∃ m ∈ d, v ∈ m.2 := by
  rw [applicable] at h
  cases hentry : entryOf d action with
  | none =>
      rw [hentry] at h
      cases h
  | some vs =>
      rw [hentry] at h
      obtain ⟨name, -, hmem⟩ := entryOf_eq_some hentry
      exact ⟨(name, vs), hmem, h⟩

end Entries

namespace Policy

-- what a decision spells out of a policy
structure Spelled (policy : Policy) : Prop where
  policyId : Json.Clean policy.policyId
  allowedActions : ∀ a ∈ policy.allowedActions, Json.Clean a
  requiredFields : ∀ m ∈ policy.requiredFields, ∀ name ∈ m.2, Json.Clean name
  exactFields : ∀ m ∈ policy.exactFields, ∀ entry ∈ m.2, Json.Clean entry.1
  maxNumericFields : ∀ m ∈ policy.maxNumericFields, ∀ entry ∈ m.2, Json.Clean entry.1
  requiredContext : ∀ name ∈ policy.requiredContext, Json.Clean name
  exactContext : ∀ entry ∈ policy.exactContext, Json.Clean entry.1
  requiredApprovals : ∀ m ∈ policy.requiredApprovals, Json.Clean m.1 ∧
    (digits m.2.natAbs).length ≤ maxStrDigits

theorem spelled_of_toDict {policy : Policy} {depth : Nat}
    (h : (PyVal.dict policy.toDict).Encodable depth) : policy.Spelled := by
  have hentry : ∀ (name : String) {value : PyVal}, (PyKey.str (lit name), value) ∈ policy.toDict →
      value.Encodable (depth - 1) := fun _ _ hmem => h.of_mem hmem
  have hnested : ∀ (name : String) {V : Type} (f : V → PyVal) {d : List (Str × V)},
      (PyKey.str (lit name), strDict f (sortedItems d)) ∈ policy.toDict →
        ∀ m ∈ d, Json.Clean m.1 ∧ (f m.2).Encodable (depth - 1 - 1) := by
    intro name V f d hmem m hm
    exact (encodable_strDict.mp (hentry name hmem)).2 m ((List.mem_insertionSort _).mpr hm)
  refine ⟨?_, ?_, ?_, ?_, ?_, ?_, ?_, ?_⟩
  · exact PyVal.encodable_str.mp (hentry "policy_id" (by simp [toDict, PyDict.ofFields]))
  · exact (encodable_strList.mp (hentry "allowed_actions"
      (by simp [toDict, PyDict.ofFields]))).2
  · intro m hm
    exact (encodable_strList.mp (hnested "required_fields" strList
      (by simp [toDict, PyDict.ofFields]) m hm).2).2
  · intro m hm entry hentry
    exact ((encodable_strDict.mp (hnested "exact_fields" (strDict id)
      (by simp [toDict, PyDict.ofFields]) m hm).2).2 entry hentry).1
  · intro m hm entry hmem
    have hsome : policy.maxNumericFields.isEmpty = false := by
      cases hlimits : policy.maxNumericFields with
      | nil =>
          rw [hlimits] at hm
          cases hm
      | cons m ms => rfl
    exact ((encodable_strDict.mp (hnested "max_numeric_fields"
      (fun fields => strDict Number.toVal (sortedItems fields))
      (by simp [toDict, PyDict.ofFields, hsome]) m hm).2).2 entry
        ((List.mem_insertionSort _).mpr hmem)).1
  · exact (encodable_strList.mp (hentry "required_context"
      (by simp [toDict, PyDict.ofFields]))).2
  · intro entry hmem
    exact ((encodable_strDict (f := id).mp (hentry "exact_context"
      (by simp [toDict, PyDict.ofFields]))).2 entry hmem).1
  · intro m hm
    obtain ⟨hname, hcount⟩ := hnested "required_approvals" .int
      (by simp [toDict, PyDict.ofFields]) m hm
    exact ⟨hname, PyVal.encodable_int.mp hcount⟩

theorem Spelled.finding {policy : Policy} (h : policy.Spelled) {action : PyVal} {c : Constraint}
    (hc : c ∈ policy.constraintsFor action) :
    Json.Clean (DeterministicArbiter.Tested.finding c).reason := by
  simp only [constraintsFor, List.mem_append, List.mem_map, List.mem_cons] at hc
  cases c with
  | field name =>
      have hmem : name ∈ applicable policy.requiredFields action := by simpa using hc
      obtain ⟨m, hm, hname⟩ := mem_applicable hmem
      exact Json.clean_append (Json.clean_lit _) (h.requiredFields m hm name hname)
  | exactField name expected =>
      have hmem : (name, expected) ∈ applicable policy.exactFields action := by simpa using hc
      obtain ⟨m, hm, hentry⟩ := mem_applicable hmem
      exact Json.clean_append (Json.clean_lit _) (h.exactFields m hm _ hentry)
  | numericField name maximum =>
      have hmem : (name, maximum) ∈ applicable policy.maxNumericFields action := by simpa using hc
      obtain ⟨m, hm, hentry⟩ := mem_applicable hmem
      exact Json.clean_append (Json.clean_lit _) (h.maxNumericFields m hm _ hentry)
  | contextField name =>
      have hmem : name ∈ policy.requiredContext := by simpa using hc
      exact Json.clean_append (Json.clean_lit _) (h.requiredContext name hmem)
  | exactContext name expected =>
      have hmem : (name, expected) ∈ policy.exactContext := by simpa using hc
      exact Json.clean_append (Json.clean_lit _) (h.exactContext _ hmem)
  | size maximum => exact Json.clean_lit _
  | contextShape => exact Json.clean_lit _
  | action allowed => exact Json.clean_lit _

end Policy

namespace Decision

structure Spelled (decision : Decision) : Prop where
  allowedActions : ∀ a ∈ decision.allowedActions, Json.Clean a
  policy : Json.Clean decision.policy
  policyDigest : Json.Clean decision.policyDigest
  reasons : ∀ r ∈ decision.reasons, Json.Clean r
  reasonCodes : ∀ c ∈ decision.reasonCodes, Json.Clean c
  requestDigest : Json.Clean decision.requestDigest

-- a decision holds lists
theorem Spelled.encodable_iff {decision : Decision} (h : decision.Spelled) {depth : Nat} :
    (PyVal.dict decision.toDict).Encodable depth ↔ 2 ≤ depth := by
  rw [toDict, PyVal.encodable_ofFields]
  simp only [List.forall_mem_cons, encodable_strList, PyVal.encodable_str, PyVal.encodable_bool]
  constructor
  · rintro ⟨hpos, -, ⟨hlist, -⟩, -⟩
    omega
  · intro hdepth
    have hlist : 0 < depth - 1 := by omega
    exact ⟨by omega, trivial, ⟨hlist, h.allowedActions⟩, h.policy, h.policyDigest,
      ⟨hlist, h.reasons⟩, ⟨hlist, h.reasonCodes⟩, h.requestDigest, by simp⟩

end Decision

namespace DeterministicArbiter

section Statement

variable (P : Primitives) (arbiter : DeterministicArbiter) (request : PyDict) (policy : Policy)

-- by the counter that the request carries, or else by its signed approvals
def HasQuorum (required : ℤ) : Prop :=
  match effectiveCounter request with
  | some count => required ≤ count
  | none => SignedBy P arbiter request required

-- nothing stands against the request
structure Permits : Prop where
  constraints : ∀ c ∈ policy.constraintsFor (request.getD "action"),
    Tested.passes P request c = true
  quorum : ∀ required, entryOf policy.requiredApprovals (request.getD "action") = some required →
    0 < required → HasQuorum P arbiter request required

end Statement

section Deciding

variable {P : Primitives} {arbiter : DeterministicArbiter} {request : PyDict} {policy : Policy}

theorem counter?_digits {d : PyDict} {depth : Nat} {n : ℤ}
    (h : (PyVal.dict d).Encodable depth) (hn : counter? d = some n) :
    (digits n.natAbs).length ≤ maxStrDigits := by
  have hentry : ∀ {name : Str}, d.getD name = .int n →
      (digits n.natAbs).length ≤ maxStrDigits := by
    intro name hname
    cases hget : d.get name with
    | none =>
        rw [PyDict.getD_of_get_none hget] at hname
        cases hname
    | some v =>
        rw [PyDict.getD_of_get hget] at hname
        subst hname
        exact PyVal.encodable_int.mp (h.of_get hget)
  unfold counter? at hn
  split at hn
  · rename_i hcount
    obtain rfl := Option.some.inj hn
    exact hentry hcount
  · rename_i hcount _
    obtain rfl := Option.some.inj hn
    exact hentry hcount
  · cases hn

theorem effectiveCounter_digits {n : ℤ} (h : (PyVal.dict request).Encodable P.recursionLimit)
    (hn : effectiveCounter request = some n) : (digits n.natAbs).length ≤ maxStrDigits := by
  rw [effectiveCounter, Option.or_eq_some_iff] at hn
  rcases hn with hn | ⟨-, hn⟩
  · exact counter?_digits h hn
  · exact counter?_digits (contextOf_encodable h) hn

theorem digits_of_lt {count required : ℤ} (hcount : 0 ≤ count) (hlt : count < required)
    (h : (digits required.natAbs).length ≤ maxStrDigits) :
    (digits count.natAbs).length ≤ maxStrDigits := by
  have hpos : 0 < maxStrDigits := by decide
  rw [digits_length_le_iff hpos] at h ⊢
  omega

theorem clean_intText {i : ℤ} {text : Str} (h : intText i = .ok text) : Json.Clean text := by
  unfold intText at h
  split at h
  · cases h
  · obtain rfl := Except.ok.inj h
    intro p hp
    exact Json.not_surrogate_of_printable (printable_intRepr i p hp)

-- the count of a quorum that is missed can be put in words, for it is below what is required
theorem quorumFindings_spec (arbiter : DeterministicArbiter)
    (h : (PyVal.dict request).Encodable P.recursionLimit) {name : Str}
    (haction : request.getD "action" = .str name) (hname : Json.Clean name) {required : ℤ}
    (hpos : 0 < required) (hdigits : (digits required.natAbs).length ≤ maxStrDigits) :
    ∃ found, arbiter.quorumFindings P request required = .ok found ∧
      (found = [] ↔ HasQuorum P arbiter request required) ∧
      ∀ f ∈ found, Json.Clean f.reason ∧ Json.Clean f.code := by
  obtain ⟨ks, hnodup, hmem, hcount⟩ := approvalCount_spec arbiter h
  have hquorum : HasQuorum P arbiter request required ↔
      required ≤ (effectiveCounter request).getD ks.length := by
    rw [HasQuorum]
    cases effectiveCounter request with
    | some count => rfl
    | none => exact signedBy_iff hnodup hmem
  rw [quorumFindings, if_pos hpos, hcount, hquorum]
  by_cases hlt : (effectiveCounter request).getD ks.length < required
  · have hcounted : (digits ((effectiveCounter request).getD ks.length).natAbs).length ≤
        maxStrDigits := by
      cases hcounter : effectiveCounter request with
      | some count => exact effectiveCounter_digits h hcounter
      | none =>
          rw [hcounter] at hlt
          exact digits_of_lt (Int.natCast_nonneg _) hlt hdigits
    obtain ⟨countText, hcountText⟩ := PyVal.intText_isOk.mpr hcounted
    obtain ⟨requiredText, hrequiredText⟩ := PyVal.intText_isOk.mpr hdigits
    have htext : P.str (.str name) = .ok name := rfl
    refine ⟨[.of (lit "approval quorum not met for action " ++ name ++ lit ": " ++ countText ++
      lit " < " ++ requiredText) "approval_quorum_not_met"], ?_, ?_, ?_⟩
    · simp only [bind, Except.bind, if_pos hlt, haction, htext, hcountText, hrequiredText]
    · simpa using hlt
    · intro f hf
      obtain rfl := List.mem_singleton.mp hf
      have hcountClean := clean_intText hcountText
      have hrequiredClean := clean_intText hrequiredText
      exact ⟨Json.clean_append (Json.clean_append (Json.clean_append (Json.clean_append
        (Json.clean_append (Json.clean_lit _) hname) (Json.clean_lit _)) hcountClean)
          (Json.clean_lit _)) hrequiredClean, Json.clean_lit _⟩
  · refine ⟨[], ?_, by simpa using hlt, by simp⟩
    simp only [bind, Except.bind, if_neg hlt]

theorem quorum_spec (arbiter : DeterministicArbiter) (h : Computable P request policy) :
    ∃ found, arbiter.quorumFindings P request
        ((entryOf policy.requiredApprovals (request.getD "action")).getD 0) = .ok found ∧
      (found = [] ↔ ∀ required, entryOf policy.requiredApprovals (request.getD "action") =
        some required → 0 < required → HasQuorum P arbiter request required) ∧
      ∀ f ∈ found, Json.Clean f.reason ∧ Json.Clean f.code := by
  cases hentry : entryOf policy.requiredApprovals (request.getD "action") with
  | none => exact ⟨[], quorumFindings_eq le_rfl, by simp, by simp⟩
  | some required =>
      by_cases hpos : 0 < required
      · obtain ⟨name, haction, hmem⟩ := entryOf_eq_some hentry
        obtain ⟨hname, hdigits⟩ :=
          (Policy.spelled_of_toDict h.digestible).requiredApprovals _ hmem
        obtain ⟨found, hfound, hquorum, hclean⟩ :=
          quorumFindings_spec arbiter h.canonical haction hname hpos hdigits
        refine ⟨found, hfound, hquorum.trans ?_, hclean⟩
        constructor
        · rintro hhas _ ⟨⟩ -
          exact hhas
        · intro hhas
          exact hhas required rfl hpos
      · refine ⟨[], quorumFindings_eq (not_lt.mp hpos), ?_, by simp⟩
        refine iff_of_true rfl ?_
        rintro _ ⟨⟩ hpos'
        exact absurd hpos' hpos

theorem decide_spec (arbiter : DeterministicArbiter) (h : Computable P request policy) :
    ∃ decision, arbiter.decide P request policy = .ok decision ∧ decision.Spelled ∧
      (decision.allow = true ↔ Permits P arbiter request policy) := by
  obtain ⟨requestBytes, hbytes⟩ := (canonicalJson_isOk P).mpr h.canonical
  obtain ⟨policyDigest, hdigest⟩ := (canonicalDigest_isOk P).mpr h.digestible
  obtain ⟨quorum, hquorum, hmet, hcleanQuorum⟩ := quorum_spec arbiter h
  have hspelled := Policy.spelled_of_toDict h.digestible
  have hdecide : arbiter.decide P request policy = .ok (verdict P policy request requestBytes
      (Tested.findings P request (policy.constraintsFor (request.getD "action")) ++ quorum)
      policyDigest) := by
    rw [decide_of_testable arbiter hbytes h.hashable h.representable, hquorum, Policy.digest,
      hdigest]
    rfl
  have hclean : ∀ f ∈ Tested.findings P request
      (policy.constraintsFor (request.getD "action")) ++ quorum,
      Json.Clean f.reason ∧ Json.Clean f.code := by
    intro f hf
    rcases List.mem_append.mp hf with hf | hf
    · obtain ⟨c, hc, rfl⟩ := List.mem_map.mp hf
      refine ⟨hspelled.finding (List.mem_filter.mp hc).1, ?_⟩
      rw [Tested.finding_code]
      exact Json.clean_lit _
    · exact hcleanQuorum f hf
  refine ⟨_, hdecide, ⟨hspelled.allowedActions, hspelled.policyId, ?_, ?_, ?_, ?_⟩, ?_⟩
  · exact (canonicalDigest_eq_ok hdigest).2
  · exact List.forall_mem_map.mpr fun f hf => (hclean f hf).1
  · exact List.forall_mem_map.mpr fun f hf => (hclean f hf).2
  · exact clean_hexdigest requestBytes
  · have hfindings : (verdict P policy request requestBytes
        (Tested.findings P request (policy.constraintsFor (request.getD "action")))
        policyDigest).allow = true ↔ _ := allow_verdict requestBytes policyDigest
    rw [List.filter_eq_nil_iff] at hfindings
    simp only [verdict, Bool.and_eq_true, List.isEmpty_iff, List.append_eq_nil_iff,
      Bool.not_eq_true', Bool.not_eq_false] at hfindings ⊢
    rw [← and_assoc, hfindings, hmet]
    exact ⟨fun h => ⟨h.1, h.2⟩, fun h => ⟨h.constraints, h.quorum⟩⟩

end Deciding

end DeterministicArbiter

namespace AuthorizationIssuer

section Statement

variable (P : Primitives) (issuer : AuthorizationIssuer) (log : ReplayLog) (now : ℤ) (nonce : Str)
  (call : AuthorizeCall)

-- an artifact, or the denial that carries its decision
def Resolved : Result Artifact → Prop
  | .ok _ => True
  | .error e => (denial? e).isSome = true

structure Answers : Prop where
  decides : ∃ decision, issuer.arbiter.decide P call.request call.policy = .ok decision
  authorizes : Resolved (issuer.authorize P log now nonce call).result

-- a call with nothing but a request, and with a lifetime that the policy has room for
structure Bare : Prop where
  positive : 0 < call.ttlSeconds
  bounded : call.ttlSeconds ≤ call.policy.maxTtlSeconds
  approvals : call.approvals = none
  meshInputs : call.meshInputs = []

-- the request stands one level deep in what is signed, and two levels deep in what is logged
structure Auditable : Prop where
  room : 4 ≤ P.recursionLimit
  granted : issuer.arbiter.Permits P call.request call.policy →
    (PyVal.dict call.request).Encodable (P.recursionLimit - 1) ∧
      (digits (now + call.ttlSeconds).natAbs).length ≤ maxStrDigits ∧
      Json.Clean issuer.issuer.keyId
  denied : ¬ issuer.arbiter.Permits P call.request call.policy →
    (PyVal.dict call.request).Encodable (P.recursionLimit - 2)

end Statement

section Outcomes

variable {P : Primitives} {issuer : AuthorizationIssuer} {log : ReplayLog} {now : ℤ} {nonce : Str}
  {call : AuthorizeCall}

theorem not_resolved_of_plain {result : Result Artifact} {e : Exc} (h : result = .error e)
    (hplain : OnlyRaises notDenied result) : ¬ Resolved result := by
  intro hresolved
  have hnot := hplain e h
  rw [h, Resolved] at hresolved
  rw [notDenied, Option.isNone_iff_eq_none] at hnot
  rw [hnot] at hresolved
  cases hresolved

theorem authorize_of_shortfall (h : Bare call) {decision : Decision}
    (hdecide : issuer.arbiter.decide P call.request call.policy = .ok decision)
    {action : Option Str} (haction : actionText P call.request = .ok action) {finding : Finding}
    (hshort : meshShortfall P action call.request call.policy call.meshInputs = some finding) :
    Resolved (issuer.authorize P log now nonce call).result := by
  have hadmission : issuer.admission P call =
      .error ((decision.denied finding.code [finding.reason]).deniedError none) := by
    rw [admission, raiseIf_of_not (not_le.mpr h.positive), raiseIf_of_not (not_lt.mpr h.bounded),
      h.approvals]
    simp only [effectiveRequest, arbitrate, haction, hshort, hdecide, bind, Except.bind]
  rw [authorize, hadmission]
  rfl

theorem authorize_of_decided (h : Bare call) {decision : Decision}
    (hdecide : issuer.arbiter.decide P call.request call.policy = .ok decision)
    (hmeets : MeetsMeshRequirements P call) : issuer.authorize P log now nonce call =
      issuer.settle P log now nonce call call.request decision none := by
  obtain ⟨request, action, hrequest, haction, hnone⟩ := hmeets
  rw [h.approvals] at hrequest
  obtain rfl := Except.ok.inj hrequest
  have hadmission : issuer.admission P call = .ok (call.request, decision) := by
    rw [admission, raiseIf_of_not (not_le.mpr h.positive), raiseIf_of_not (not_lt.mpr h.bounded),
      h.approvals]
    simp only [effectiveRequest, arbitrate, haction, hnone, hdecide, bind, Except.bind]
  rw [authorize, hadmission, h.meshInputs]
  rfl

theorem resolved_refuse (hlog : log.Linked P) (hnonce : Json.Clean nonce) {request : PyDict}
    {decision : Decision} {meshDigest : Option Str}
    (hsigned : ∀ {depth : Nat},
      (PyVal.dict (decision.signedDict meshDigest)).Encodable depth ↔ 2 ≤ depth) :
    Resolved (refuse P log nonce request decision meshDigest).result ↔
      4 ≤ P.recursionLimit ∧ (PyVal.dict request).Encodable (P.recursionLimit - 2) := by
  have hframe : (∃ frame, ReplayFrame.create P (authorizationFrameId nonce) log.headHash
      (deniedEvent nonce request (decision.signedDict meshDigest)) = .ok frame) ↔
        4 ≤ P.recursionLimit ∧ (PyVal.dict request).Encodable (P.recursionLimit - 2) := by
    rw [ReplayFrame.create_isOk, deniedEvent, PyVal.encodable_ofFields,
      show P.recursionLimit - 1 - 1 = P.recursionLimit - 2 by omega]
    simp only [List.forall_mem_cons, PyVal.encodable_str, PyVal.encodable_bool, hsigned]
    constructor
    · rintro ⟨-, -, -, -, -, -, hrequest, hdepth, -⟩
      exact ⟨by omega, hrequest⟩
    · rintro ⟨hroom, hrequest⟩
      exact ⟨by omega, Json.clean_append (Json.clean_lit _) hnonce,
        ReplayLog.clean_headHash P hlog, by omega, Json.clean_lit _, hnonce, hrequest, by omega,
        trivial, by simp⟩
  rw [← hframe]
  constructor
  · intro hresolved
    unfold refuse at hresolved
    split at hresolved
    · rename_i e happend
      refine absurd hresolved (not_resolved_of_plain rfl ?_)
      intro e' he'
      obtain rfl := Except.error.inj he'
      exact onlyRaises_notDenied (ReplayLog.onlyRaises_append _ _ _) _ happend
    · rename_i log' frame happend
      exact ⟨frame, ((ReplayLog.append_eq_ok P).mp happend).1⟩
  · rintro ⟨frame, hcreate⟩
    have happend := (ReplayLog.append_eq_ok P).mpr ⟨hcreate, rfl⟩
    rw [refuse, happend]
    rfl

theorem unsignedPayload_isOk {artifact : Artifact} :
    (∃ payload, artifact.unsignedPayload P = .ok payload) ↔
      0 < P.recursionLimit ∧ (PyVal.dict artifact.actionRequest).Encodable (P.recursionLimit - 1) ∧
        (PyVal.dict artifact.decision).Encodable (P.recursionLimit - 1) ∧
        artifact.expiresAt.Encodable (P.recursionLimit - 1) ∧ Json.Clean artifact.nonce ∧
        Json.Clean artifact.replayFrameRef ∧ Json.Clean artifact.issuerKeyId := by
  rw [GovernanceAuthorizationArtifact.unsignedPayload, canonicalJson_isOk,
    GovernanceAuthorizationArtifact.unsignedDict, PyVal.encodable_ofFields]
  simp only [List.forall_mem_cons, PyVal.encodable_str, List.not_mem_nil, IsEmpty.forall_iff,
    implies_true, and_true]

theorem resolved_grant (hlog : log.Linked P) (hnonce : Json.Clean nonce)
    {decision : Decision} (hspelled : decision.Spelled) :
    Resolved (grant P issuer.issuer log
      (issuer.granted now nonce call call.request decision) [] none).result ↔
      4 ≤ P.recursionLimit ∧ (PyVal.dict call.request).Encodable (P.recursionLimit - 1) ∧
        (digits (now + call.ttlSeconds).natAbs).length ≤ maxStrDigits ∧
        Json.Clean issuer.issuer.keyId := by
  constructor
  · intro hresolved
    cases hresult : (grant P issuer.issuer log
        (issuer.granted now nonce call call.request decision) [] none).result with
    | error e => exact absurd hresolved (not_resolved_of_plain hresult
        (onlyRaises_notDenied (onlyRaises_grant _ _ _ _)))
    | ok artifact =>
        unfold grant at hresult
        split at hresult
        · cases hresult
        · rename_i event hevent
          split at hresult
          · cases hresult
          · rename_i log' frame happend
            obtain ⟨payload, hpayload, hevent⟩ := bind_eq_ok.mp hevent
            obtain ⟨evidence, hevidence, hevent⟩ := bind_eq_ok.mp hevent
            obtain rfl := Except.ok.inj hevidence
            obtain rfl := Except.ok.inj hevent
            obtain ⟨-, hrequest, -, hexpiry, -, -, hkey⟩ := unsignedPayload_isOk.mp ⟨_, hpayload⟩
            obtain ⟨hcreate, -⟩ := (ReplayLog.append_eq_ok P).mp happend
            obtain ⟨-, -, -, hframe⟩ := (ReplayFrame.create_isOk P).mp ⟨_, hcreate⟩
            have hdecision : (PyVal.dict decision.toDict).Encodable (P.recursionLimit - 1 - 1) :=
              (PyVal.encodable_ofFields.mp hframe).2 ("decision", .dict decision.toDict)
                (by simp [granted, Decision.signedDict])
            have hdepth := hspelled.encodable_iff.mp hdecision
            exact ⟨by omega, hrequest, PyVal.encodable_int.mp hexpiry, hkey⟩
  · rintro ⟨hroom, hrequest, hexpiry, hkey⟩
    have hpayload : ∃ payload, (issuer.granted now nonce call call.request
        decision).unsignedPayload P = .ok payload :=
      unsignedPayload_isOk.mpr ⟨by omega, hrequest, hspelled.encodable_iff.mpr (by omega),
        PyVal.encodable_int.mpr hexpiry, hnonce, Json.clean_append (Json.clean_lit _) hnonce, hkey⟩
    obtain ⟨payload, hpayload⟩ := hpayload
    obtain ⟨log', frame, -, hgrant⟩ := grant_isOk issuer.issuer hlog hpayload
      (hspelled.encodable_iff.mpr (by omega)) rfl
    rw [hgrant]
    trivial

theorem resolved_settle (hlog : log.Linked P) (hnonce : Json.Clean nonce) (h : Bare call)
    {decision : Decision} (hspelled : decision.Spelled)
    (hallow : decision.allow = true ↔ issuer.arbiter.Permits P call.request call.policy) :
    Resolved (issuer.settle P log now nonce call call.request decision none).result ↔
      Auditable P issuer now call := by
  simp only [settle, ruled, Option.map_none, h.meshInputs]
  by_cases hpermits : issuer.arbiter.Permits P call.request call.policy
  · rw [if_pos (hallow.mpr hpermits)]
    refine (resolved_grant hlog hnonce hspelled).trans ?_
    constructor
    · rintro ⟨hroom, hgranted⟩
      exact ⟨hroom, fun _ => hgranted, fun hnot => absurd hpermits hnot⟩
    · intro hauditable
      exact ⟨hauditable.room, hauditable.granted hpermits⟩
  · rw [if_neg (fun hallowed => hpermits (hallow.mp hallowed)),
      resolved_refuse hlog hnonce hspelled.encodable_iff]
    constructor
    · rintro ⟨hroom, hdenied⟩
      exact ⟨hroom, fun hyes => absurd hyes hpermits, fun _ => hdenied⟩
    · intro hauditable
      exact ⟨hauditable.room, hauditable.denied hpermits⟩

theorem answers_iff (hlog : log.Linked P) (hnonce : Json.Clean nonce) (h : Bare call) :
    Answers P issuer log now nonce call ↔
      DeterministicArbiter.Computable P call.request call.policy ∧
        (MeetsMeshRequirements P call → Auditable P issuer now call) := by
  constructor
  · rintro ⟨⟨decision, hdecide⟩, hresolved⟩
    have hcomputable := DeterministicArbiter.computable_of_decide hdecide
    refine ⟨hcomputable, fun hmeets => ?_⟩
    obtain ⟨decision', hdecide', hspelled, hallow⟩ :=
      DeterministicArbiter.decide_spec issuer.arbiter hcomputable
    rw [authorize_of_decided h hdecide' hmeets, resolved_settle hlog hnonce h hspelled hallow]
      at hresolved
    exact hresolved
  · rintro ⟨hcomputable, hauditable⟩
    obtain ⟨decision, hdecide, hspelled, hallow⟩ :=
      DeterministicArbiter.decide_spec issuer.arbiter hcomputable
    refine ⟨⟨decision, hdecide⟩, ?_⟩
    by_cases hmeets : MeetsMeshRequirements P call
    · rw [authorize_of_decided h hdecide hmeets, resolved_settle hlog hnonce h hspelled hallow]
      exact hauditable hmeets
    · obtain ⟨text, htext⟩ :=
        DeterministicArbiter.str_isOk_of_encodable hcomputable.canonical "action"
      have haction : ∃ action, actionText P call.request = .ok action := by
        unfold actionText
        split
        · exact ⟨none, rfl⟩
        · exact ⟨some text, by rw [htext]; rfl⟩
      obtain ⟨action, haction⟩ := haction
      cases hshort : meshShortfall P action call.request call.policy call.meshInputs with
      | none => exact absurd ⟨call.request, action, by rw [h.approvals]; rfl, haction, hshort⟩ hmeets
      | some finding => exact authorize_of_shortfall h hdecide haction hshort

def bareCall (action : PyVal) : AuthorizeCall :=
  { lifetimeCall with request := PyDict.ofFields [("action", action)] }

theorem bareCall_bare (action : PyVal) : Bare (bareCall action) :=
  ⟨show (0 : ℤ) < lifetimeCall.ttlSeconds by decide,
    show lifetimeCall.ttlSeconds ≤ lifetimeCall.policy.maxTtlSeconds by decide, rfl, rfl⟩

theorem answers_iff_read : Answers sizePrimitives lifetimeIssuer {} 0 "n" (bareCall (.str "read")) ↔
    DeterministicArbiter.Computable sizePrimitives (bareCall (.str "read")).request
        (bareCall (.str "read")).policy ∧
      (MeetsMeshRequirements sizePrimitives (bareCall (.str "read")) →
        Auditable sizePrimitives lifetimeIssuer 0 (bareCall (.str "read"))) :=
  answers_iff trivial (Json.clean_lit _) (bareCall_bare _)

-- a list cannot be looked up among the actions
theorem list_action_raises : Bare (bareCall (.list [])) ∧
    ¬ Answers sizePrimitives lifetimeIssuer {} 0 "n" (bareCall (.list [])) := by
  refine ⟨bareCall_bare _, ?_⟩
  rintro ⟨⟨decision, hdecide⟩, -⟩
  have hhashable := (DeterministicArbiter.computable_of_decide hdecide).hashable
  cases hhashable

end Outcomes

end AuthorizationIssuer

end GovernedAutonomy
