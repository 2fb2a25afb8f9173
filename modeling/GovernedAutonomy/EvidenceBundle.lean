import GovernedAutonomy.Compliance
import GovernedAutonomy.PolicyRoundTrip
import GovernedAutonomy.Protocol.Groups
import GovernedAutonomy.Reconstruction
import GovernedAutonomy.Service

namespace GovernedAutonomy

open Python Protocol

-- a call of a governed service, or a governance event that it records
inductive ServiceMove
  | call (step : GovernedStep)
  | record (stamp : GovernanceStamp) (event subjectId actorId : Str)

namespace ServiceMove

variable (P : Primitives)

def perform (log : ReplayLog) : ServiceMove → ReplayLog
  | .call step => step.perform P log
  | .record stamp event subjectId actorId =>
      match GovernedService.recordGovernanceEvent P log stamp event subjectId actorId with
      | .error _ => log
      | .ok log => log

def fact (log : ReplayLog) : ServiceMove → Option AuditFact
  | .call step => step.fact P log
  | .record _ _ _ _ => none

def facts : ReplayLog → List ServiceMove → List AuditFact
  | _, [] => []
  | log, move :: moves => (fact P log move).toList ++ facts (perform P log move) moves

end ServiceMove

namespace ReplayLog

-- the fields that the events of one kind leave out
structure Plain (event : PyDict) : Prop where
  issued : (authorizationRecord event).issued = true →
    (authorizationRecord event).request = .none
  denied : (authorizationRecord event).issued = false →
    (authorizationRecord event).artifactPayload = .none
  policyId : (executionRecord event).policyId = .none

def PlainTrail (log : ReplayLog) : Prop :=
  ∀ frame ∈ log.frames, isAudit frame.event = true → Plain frame.event

variable {P : Primitives} {log log' : ReplayLog}

theorem plain_deniedEvent {nonce : Str} {request decision : PyDict} :
    Plain (AuthorizationIssuer.deniedEvent nonce request decision) := by
  constructor
  · simp [AuthorizationIssuer.deniedEvent, authorizationRecord, PyVal.truthy]
  · simp [AuthorizationIssuer.deniedEvent, authorizationRecord, PyDict.getD]
  · simp [AuthorizationIssuer.deniedEvent, executionRecord, PyDict.getD]

theorem plain_issuedEvent {unsigned : Artifact} {inputs : List GovernanceInput}
    {mesh : Option GovernancePreflightDecision} {event : PyDict}
    (h : AuthorizationIssuer.issuedEvent P unsigned inputs mesh = .ok event) : Plain event := by
  simp only [AuthorizationIssuer.issuedEvent, bind_eq_ok] at h
  obtain ⟨payload, -, evidence, hevidence, h⟩ := h
  obtain rfl := Except.ok.inj h
  cases mesh with
  | none =>
      obtain rfl := Except.ok.inj hevidence
      constructor
      · simp [authorizationRecord, PyDict.getD]
      · simp [authorizationRecord, PyVal.truthy]
      · simp [executionRecord, PyDict.getD]
  | some decision =>
      simp only [AuthorizationIssuer.meshEvidence, bind_eq_ok] at hevidence
      obtain ⟨requestDigest, -, items, -, hevidence⟩ := hevidence
      obtain rfl := Except.ok.inj hevidence
      constructor
      · simp [authorizationRecord, PyDict.getD]
      · simp [authorizationRecord, PyVal.truthy]
      · simp [executionRecord, PyDict.getD]

theorem outcomeFields_names {outcome : HandlerOutcome} {fields : List (String × PyVal)}
    (h : ExecutionBoundary.outcomeFields P outcome = .ok fields) :
    ∀ field ∈ fields, field.1 ∉ ["issued", "request", "artifact_payload", "policy_id"] := by
  cases outcome with
  | returned result =>
      simp only [ExecutionBoundary.outcomeFields, ExecutionBoundary.resultAudit] at h
      split at h
      · split at h
        · obtain rfl := Except.ok.inj h
          decide +revert
        · cases h
      · obtain rfl := Except.ok.inj h
        split
        · simp
        · simp
  | raised errorType text =>
      obtain ⟨error, -, h⟩ := bind_eq_ok.mp h
      obtain rfl := Except.ok.inj h
      simp

theorem get_ofFields_none {fields : List (String × PyVal)} {name : String}
    (h : ∀ field ∈ fields, field.1 ≠ name) : (PyDict.ofFields fields).get (lit name) = none := by
  induction fields with
  | nil => rfl
  | cons field fields ih =>
      obtain ⟨hfield, hrest⟩ := List.forall_mem_cons.mp h
      rw [PyDict.get_ofFields_cons, if_neg hfield]
      exact ih hrest

theorem plain_executionEvent {artifact : Artifact} {outcome : HandlerOutcome} {event : PyDict}
    (h : ExecutionBoundary.executionEvent P artifact outcome = .ok event) : Plain event := by
  obtain ⟨fields, hfields, h⟩ := bind_eq_ok.mp h
  obtain rfl := Except.ok.inj h
  have hnames := outcomeFields_names hfields
  have hnone : ∀ name ∈ ["issued", "request", "artifact_payload", "policy_id"],
      (PyDict.ofFields fields).get (lit name) = none := by
    intro name hname
    apply get_ofFields_none
    rintro field hfield rfl
    exact hnames field hfield hname
  have hissued := hnone "issued" (by simp)
  have hpayload := hnone "artifact_payload" (by simp)
  have hpolicy := hnone "policy_id" (by simp)
  constructor
  · simp [authorizationRecord, hissued, PyVal.truthy]
  · simp [authorizationRecord, PyDict.getD, hpayload]
  · simp [executionRecord, PyDict.getD, hpolicy]

theorem PlainTrail.append {frames : List ReplayFrame} (h : log.PlainTrail)
    (hframes : log'.frames = log.frames ++ frames)
    (hplain : ∀ frame ∈ frames, isAudit frame.event = true → Plain frame.event) :
    log'.PlainTrail := by
  intro frame hframe
  rw [hframes, List.mem_append] at hframe
  rcases hframe with hframe | hframe
  · exact h frame hframe
  · exact hplain frame hframe

theorem isAudit_of_kind {event : PyDict} {name : String}
    (h : event.getD "type" = .str (lit name)) :
    isAudit event = decide (name = "authorization" ∨ name = "execution") := by
  rw [isAudit, hasType_eq h, hasType_eq h, Bool.decide_or]

theorem PlainTrail.settle {issuer : AuthorizationIssuer} {now : ℤ} {nonce : Str}
    {call : AuthorizeCall} {request : PyDict} {decision : Decision}
    {mesh : Option GovernancePreflightDecision} (h : log.PlainTrail) :
    (issuer.settle P log now nonce call request decision mesh).log.PlainTrail := by
  simp only [AuthorizationIssuer.settle]
  split
  · rcases @grant_cases P log issuer.issuer ⟨request, (AuthorizationIssuer.ruled decision
        mesh).signedDict (mesh.map GovernancePreflightDecision.digest), .int (now + call.ttlSeconds), nonce,
        AuthorizationIssuer.authorizationFrameId nonce, issuer.issuer.keyId, []⟩ call.meshInputs mesh
        rfl with ⟨hlog, -⟩ | ⟨frame, signature, hframes, hevent, -⟩
    · rw [hlog]
      exact h
    · exact h.append hframes (List.forall_mem_singleton.mpr fun _ => plain_issuedEvent hevent)
  · obtain ⟨-, hlog | ⟨frame, hframes, hevent⟩⟩ := @refuse_cases P log nonce request
      (AuthorizationIssuer.ruled decision mesh) (mesh.map GovernancePreflightDecision.digest)
    · rw [hlog]
      exact h
    · apply h.append hframes
      rw [List.forall_mem_singleton, hevent]
      exact fun _ => plain_deniedEvent

theorem PlainTrail.authorize {issuer : AuthorizationIssuer} {now : ℤ} {nonce : Str}
    {call : AuthorizeCall} (h : log.PlainTrail) :
    (issuer.authorize P log now nonce call).log.PlainTrail := by
  unfold AuthorizationIssuer.authorize
  cases issuer.admission P call with
  | error e => exact h
  | ok admitted =>
      obtain ⟨request, decision⟩ := admitted
      cases hmesh : issuer.meshPreflight P log request call.meshInputs with
      | error e =>
          simp only [hmesh]
          exact h
      | ok result =>
          obtain ⟨middle, mesh⟩ := result
          obtain ⟨preflights, hmiddle, hkinds⟩ := preflight_frames hmesh
          simp only [hmesh]
          apply PlainTrail.settle
          apply h.append hmiddle
          intro frame hframe haudit
          rw [@isAudit_of_kind _ "governance_preflight" (hkinds frame hframe)] at haudit
          cases haudit

theorem PlainTrail.execute {boundary : ExecutionBoundary} {now : ℤ} {artifact : Artifact}
    {action : PyDict → HandlerOutcome} (h : log.PlainTrail) :
    (boundary.execute P log now artifact action).log.PlainTrail := by
  cases hvalid : ExecutionBoundary.validate P boundary log now artifact with
  | error e =>
      simp only [ExecutionBoundary.execute, hvalid]
      exact h
  | ok u =>
      rw [ExecutionBoundary.execute_of_validate hvalid]
      cases hrecord : ExecutionBoundary.record P (ExecutionBoundary.claimed log artifact) artifact
          (action artifact.actionRequest) with
      | error e => exact h
      | ok recorded =>
          simp only [ExecutionBoundary.record, bind_eq_ok] at hrecord
          obtain ⟨event, hevent, ⟨log', frame⟩, happend, hlog⟩ := hrecord
          obtain rfl := Except.ok.inj hlog
          obtain ⟨hcreate, rfl⟩ := (append_eq_ok P).mp happend
          obtain ⟨-, -, rfl, -⟩ := (ReplayFrame.create_eq_ok P).mp hcreate
          exact h.append rfl (List.forall_mem_singleton.mpr fun _ => plain_executionEvent hevent)

end ReplayLog

namespace ServiceMove

variable {P : Primitives} {log : ReplayLog}

-- a governance event is in no audit trail
theorem record_cases (stamp : GovernanceStamp) (event subjectId actorId : Str) :
    perform P log (.record stamp event subjectId actorId) = log ∨
      ∃ frame, (perform P log (.record stamp event subjectId actorId)).frames =
          log.frames ++ [frame] ∧ PyDict.getD frame.event "type" = .str (lit "governance") ∧
        log.append P (GovernedService.governanceFrameId stamp.uuid) frame.event =
          .ok (perform P log (.record stamp event subjectId actorId), frame) := by
  rw [perform]
  cases hrecord : GovernedService.recordGovernanceEvent P log stamp event subjectId actorId with
  | error e => exact Or.inl rfl
  | ok log' =>
      obtain ⟨⟨log'', frame⟩, happend, h⟩ := bind_eq_ok.mp hrecord
      obtain rfl := Except.ok.inj h
      obtain ⟨hcreate, hlog⟩ := (ReplayLog.append_eq_ok P).mp happend
      obtain ⟨-, -, hevent, -⟩ := (ReplayFrame.create_eq_ok P).mp hcreate
      refine Or.inr ⟨frame, by rw [hlog], ?_, hevent ▸ happend⟩
      rw [hevent]
      simp [GovernedService.governanceEvent, PyDict.getD]

theorem plain_perform (h : log.PlainTrail) (move : ServiceMove) :
    (perform P log move).PlainTrail := by
  cases move with
  | call step =>
      cases step with
      | authorize issuer now nonce call => exact h.authorize
      | execute boundary now artifact action => exact h.execute
  | record stamp event subjectId actorId =>
      rcases @record_cases P log stamp event subjectId actorId with hsame |
        ⟨frame, hframes, hkind, -⟩
      · rw [hsame]
        exact h
      · apply h.append hframes
        rw [List.forall_mem_singleton, ReplayLog.isAudit_of_kind hkind]
        intro haudit
        cases haudit

theorem sound_perform (h : log.Sound P) (move : ServiceMove) : (perform P log move).Sound P := by
  cases move with
  | call step => exact GovernedStep.sound_perform h step
  | record stamp event subjectId actorId =>
      rcases @record_cases P log stamp event subjectId actorId with hsame |
        ⟨frame, -, hkind, happend⟩
      · rw [hsame]
        exact h
      · exact h.use (.append happend (by rw [hkind]; simp))

theorem trail_perform (move : ServiceMove) :
    ∃ events, (perform P log move).auditTrail = log.auditTrail ++ events ∧
      List.Forall₂ (AuditFact.Shown P) events (fact P log move).toList := by
  cases move with
  | call step => exact GovernedStep.trail_perform step
  | record stamp event subjectId actorId =>
      refine ⟨[], ?_, .nil⟩
      rcases @record_cases P log stamp event subjectId actorId with hsame | ⟨frame, hframes, hkind, -⟩
      · rw [hsame, List.append_nil]
      · have haudit : ReplayLog.isAudit frame.event = false := by
          rw [ReplayLog.isAudit_of_kind hkind]
          rfl
        rw [ReplayLog.auditTrail, hframes, List.map_append, List.filter_append, List.map_singleton,
          List.filter_singleton, haudit]
        rfl

theorem trail_run (moves : List ServiceMove) :
    ∃ events, (Calls.run (perform P) log moves).auditTrail = log.auditTrail ++ events ∧
      List.Forall₂ (AuditFact.Shown P) events (facts P log moves) := by
  induction moves generalizing log with
  | nil => exact ⟨[], by simp, .nil⟩
  | cons move moves ih =>
      obtain ⟨events, htrail, hshown⟩ := @trail_perform P log move
      obtain ⟨events', htrail', hshown'⟩ := @ih (perform P log move)
      refine ⟨events ++ events', ?_, List.rel_append hshown hshown'⟩
      rw [Calls.run_cons, htrail', htrail, List.append_assoc]

end ServiceMove

-- what a ruling puts into the evidence: the request of a denial, the payload of a GAA
inductive Disclosed
  | denied (decision request : PyDict)
  | granted (decision : PyDict) (payload : Option Str)

namespace Ruling

variable (P : Primitives) (ruling : Ruling)

def payload (artifact : Artifact) : Option Str := (artifact.unsignedPayload P).toOption.map decode

def disclosed : Disclosed :=
  match ruling.artifact with
  | none => .denied (withoutDigests ruling.decision) ruling.request
  | some artifact => .granted (withoutDigests ruling.decision) (payload P artifact)

def record : AuthorizationRecord :=
  match ruling.artifact with
  | none => ⟨false, .dict ruling.request, .dict ruling.decision, .none⟩
  | some artifact => ⟨true, .none, .dict ruling.decision, GovernanceMesh.optStrVal (payload P artifact)⟩

end Ruling

namespace HandlerOutcome

variable (P : Primitives) (outcome : HandlerOutcome)

-- what a handler run puts into the evidence: how it ended, its result and its error text
def disclosed : Bool × PyVal × PyVal :=
  (outcome.isReturn, ExecutionRecord.toldResult P outcome, ExecutionRecord.toldError outcome)

def record : ExecutionRecord where
  status := .str (lit (ExecutionBoundary.statusOf outcome))
  result := ExecutionRecord.toldResult P outcome
  error := ExecutionRecord.toldError outcome
  policyId := .none

end HandlerOutcome

namespace DecisionRecord

structure Plain (record : DecisionRecord) : Prop where
  issued : ∀ a, record.authorization = some a → a.issued = true → a.request = .none
  denied : ∀ a, record.authorization = some a → a.issued = false → a.artifactPayload = .none
  policyId : ∀ e, record.execution = some e → e.policyId = .none

def Told (record : DecisionRecord) : Prop := record.authorization ≠ none ∨ record.execution ≠ none

def ofParts : Option AuthorizationRecord → Option ExecutionRecord → Option DecisionRecord
  | none, none => none
  | authorization, execution => some ⟨authorization, execution⟩

variable {a a' : Option AuthorizationRecord} {e e' : Option ExecutionRecord}

theorem ofParts_inj : ofParts a e = ofParts a' e' ↔ a = a' ∧ e = e' := by
  cases a <;> cases e <;> cases a' <;> cases e' <;> simp [ofParts]

theorem map_masked_ofParts :
    (ofParts a e).map masked = ofParts (a.map AuthorizationRecord.masked) e := by
  cases a <;> cases e <;> rfl

theorem ofParts_of_told {record : DecisionRecord} (h : record.Told) :
    ofParts record.authorization record.execution = some record := by
  obtain ⟨authorization, execution⟩ := record
  cases authorization with
  | some a => rfl
  | none =>
      cases execution with
      | some e => rfl
      | none => simp [Told] at h

theorem plain_default : ({} : DecisionRecord).Plain := ⟨by simp, by simp, by simp⟩

end DecisionRecord

namespace ReplayLog

variable {P : Primitives} {decisions decisions' : Decisions} {facts facts' : List AuditFact}
  {event : PyDict} {fact : AuditFact}

def PlainDecisions (decisions : Decisions) : Prop :=
  ∀ m ∈ decisions, m.1 ≠ [] ∧ m.2.Plain ∧ m.2.Told

theorem plain_withEvent {record : DecisionRecord} (hrecord : record.Plain) (hevent : Plain event) :
    (withEvent record event).Plain ∧ (withEvent record event).Told := by
  rw [withEvent]
  split
  · refine ⟨⟨?_, ?_, hrecord.policyId⟩, Or.inl (by simp)⟩
    · intro a ha
      obtain rfl := Option.some.inj ha
      exact hevent.issued
    · intro a ha
      obtain rfl := Option.some.inj ha
      exact hevent.denied
  · refine ⟨⟨hrecord.issued, hrecord.denied, ?_⟩, Or.inr (by simp)⟩
    intro e he
    obtain rfl := Option.some.inj he
    exact hevent.policyId

theorem PlainDecisions.plain_get (h : PlainDecisions decisions) (nonce : Str) :
    ((Dict.get decisions nonce).getD {}).Plain := by
  cases hget : Dict.get decisions nonce with
  | none => exact DecisionRecord.plain_default
  | some record => exact (h _ (Dict.mem_of_get hget)).2.1

theorem PlainDecisions.note (h : PlainDecisions decisions) (hshown : AuditFact.Shown P event fact)
    (hevent : Plain event) (hnote : noteDecision P decisions event = .ok decisions') :
    PlainDecisions decisions' := by
  have hkind : (hasType "authorization" event || hasType "execution" event) = true := by
    cases hshown with
    | ruled hkind _ _ => simp [hasType_eq hkind]
    | ran hkind _ _ => simp [hasType_eq hkind]
  rw [noteDecision_eq hkind (shown_nonce hshown)] at hnote
  obtain rfl := Except.ok.inj hnote
  split
  · exact h
  · rename_i hne
    intro m hm
    rcases Dict.mem_set hm with hm | ⟨hrecord, hkey⟩
    · exact h m hm
    · rw [hrecord]
      refine ⟨?_, plain_withEvent (h.plain_get fact.nonce) hevent⟩
      rcases hkey with hkey | ⟨record, hold⟩
      · rw [hkey]
        exact hne
      · exact (h _ hold).1

theorem PlainDecisions.fold {events : List PyDict}
    (hshown : List.Forall₂ (AuditFact.Shown P) events facts) (hevents : ∀ event ∈ events, Plain event)
    (h : PlainDecisions decisions)
    (hfold : events.foldlM (noteDecision P) decisions = .ok decisions') :
    PlainDecisions decisions' := by
  induction hshown generalizing decisions with
  | nil =>
      obtain rfl := Except.ok.inj hfold
      exact h
  | @cons event fact events facts hhead _ ih =>
      obtain ⟨hevent, hrest⟩ := List.forall_mem_cons.mp hevents
      obtain ⟨middle, hnote, hfold⟩ := bind_eq_ok.mp hfold
      exact ih hrest (h.note hhead hevent hnote) hfold

theorem get_eq_ofParts (h : PlainDecisions decisions) (nonce : Str) :
    Dict.get decisions nonce =
      DecisionRecord.ofParts (authorizationOf decisions nonce) (executionOf decisions nonce) := by
  rw [authorizationOf, executionOf]
  cases hget : Dict.get decisions nonce with
  | none => rfl
  | some record => exact (DecisionRecord.ofParts_of_told (h _ (Dict.mem_of_get hget)).2.2).symm

theorem get_nil_of_plain (h : PlainDecisions decisions) : Dict.get decisions ([] : Str) = none := by
  cases hget : Dict.get decisions ([] : Str) with
  | none => rfl
  | some record => exact absurd rfl (h _ (Dict.mem_of_get hget)).1

theorem record_of_tells {record : AuthorizationRecord} {ruling : Ruling}
    (htells : record.Tells P ruling) (hissued : record.issued = true → record.request = .none)
    (hdenied : record.issued = false → record.artifactPayload = .none) :
    record = ruling.record P := by
  obtain ⟨issued, request, decision, artifactPayload⟩ := record
  have hflag : issued = ruling.artifact.isSome := htells.issued
  have hdecision : decision = .dict ruling.decision := htells.decision
  cases hartifact : ruling.artifact with
  | none =>
      rw [hartifact] at hflag
      have hrequest : request = .dict ruling.request := htells.denied hartifact
      have hpayload : artifactPayload = .none := hdenied hflag
      simp only [Ruling.record, hartifact, hflag, hrequest, hdecision, hpayload, Option.isSome_none]
  | some artifact =>
      rw [hartifact] at hflag
      have hrequest : request = .none := hissued hflag
      obtain ⟨-, -, -, payload, hpayload, htold⟩ := htells.granted artifact hartifact
      have htold : artifactPayload = .str (decode payload) := htold
      simp only [Ruling.record, hartifact, hflag, hrequest, hdecision, htold, Option.isSome_some,
        Ruling.payload, hpayload, Except.toOption, Option.map_some,
        GovernanceMesh.optStrVal]

theorem eq_map_of_rel {α β : Type} {r : α → β → Prop} {f : β → α} {a : Option α} {b : Option β}
    (h : Option.Rel r a b) (heq : ∀ x y, a = some x → r x y → x = f y) : a = b.map f := by
  cases h with
  | none => rfl
  | @some x y hxy => rw [Option.map_some, ← heq x y rfl hxy]

theorem PlainDecisions.plain_of_bind (h : PlainDecisions decisions) {nonce : Str} {α : Type}
    {part : DecisionRecord → Option α} {a : α}
    (hpart : (Dict.get decisions nonce).bind part = some a) :
    ∃ record : DecisionRecord, record.Plain ∧ part record = some a := by
  obtain ⟨record, hget, hrecord⟩ := Option.bind_eq_some_iff.mp hpart
  exact ⟨record, (h _ (Dict.mem_of_get hget)).2.1, hrecord⟩

theorem authorizationOf_eq (h : PlainDecisions decisions) (hdescribes : Describes P decisions facts)
    {nonce : Str} (hnonce : nonce ≠ []) : authorizationOf decisions nonce =
      (AuditFact.lastRuling facts nonce).map (Ruling.record P) := by
  apply eq_map_of_rel (hdescribes.authorization nonce hnonce)
  intro record ruling hrecord htells
  obtain ⟨whole, hplain, hpart⟩ := h.plain_of_bind hrecord
  exact record_of_tells htells (hplain.issued record hpart) (hplain.denied record hpart)

theorem executionOf_eq (h : PlainDecisions decisions) (hdescribes : Describes P decisions facts)
    {nonce : Str} (hnonce : nonce ≠ []) : executionOf decisions nonce =
      (AuditFact.lastRun facts nonce).map (HandlerOutcome.record P) := by
  apply eq_map_of_rel (hdescribes.execution nonce hnonce)
  intro record outcome hrecord htells
  obtain ⟨whole, hplain, hpart⟩ := h.plain_of_bind hrecord
  have hpolicy := hplain.policyId record hpart
  obtain ⟨status, result, error, policyId⟩ := record
  obtain ⟨rfl, rfl, rfl⟩ := htells
  obtain rfl : policyId = .none := hpolicy
  rfl

-- what the trail of a run is rebuilt to
structure Rebuilt (P : Primitives) (facts : List AuditFact) (decisions : Decisions) : Prop where
  sorted : ∃ d, Dict.Distinct d ∧ decisions = sortedItems d
  plain : PlainDecisions decisions
  describes : Describes P decisions facts

theorem rebuilt_of_trail {log : ReplayLog} (hlog : log.PlainTrail) (hcopied : log.Copied P)
    (h : List.Forall₂ (AuditFact.Shown P) log.auditTrail facts) :
    ∃ summary, log.auditSummary P = .ok summary ∧ Rebuilt P facts summary.decisions := by
  obtain ⟨d, hfold, hdistinct, -⟩ := describes_nil.fold h List.Pairwise.nil
  obtain ⟨decisions, hreads⟩ := reads_of_trail h
  obtain ⟨summary, hsummary⟩ := hreads.summarized.mpr hcopied
  obtain ⟨rfl, -⟩ := hreads.counts summary hsummary
  have hsorted : summary.decisions = sortedItems d := by
    have hdecisions := hreads.reconstructed
    rw [reconstructDecisions, foldlM_trail] at hdecisions
    obtain ⟨d', hfold', hd⟩ := bind_eq_ok.mp hdecisions
    obtain rfl := Except.ok.inj (hfold.symm.trans hfold')
    exact (Except.ok.inj hd).symm
  have hplain : PlainDecisions d := by
    apply PlainDecisions.fold h ?_ (by simp [PlainDecisions]) hfold
    intro event hevent
    obtain ⟨hmem, haudit⟩ := List.mem_filter.mp hevent
    obtain ⟨frame, hframe, rfl⟩ := List.mem_map.mp hmem
    exact hlog frame hframe haudit
  refine ⟨summary, hsummary, ⟨d, hdistinct, hsorted⟩, ?_, hreads.describes⟩
  intro m hm
  rw [hsorted] at hm
  exact hplain m (mem_sortedItems.mp hm)

-- of each nonce, the two runs disclose the same
structure SameDisclosure (P : Primitives) (facts facts' : List AuditFact) : Prop where
  rulings : ∀ nonce ≠ [], (AuditFact.lastRuling facts nonce).map (Ruling.disclosed P) =
    (AuditFact.lastRuling facts' nonce).map (Ruling.disclosed P)
  runs : ∀ nonce ≠ [], (AuditFact.lastRun facts nonce).map (HandlerOutcome.disclosed P) =
    (AuditFact.lastRun facts' nonce).map (HandlerOutcome.disclosed P)

theorem map_eq_map_congr {α β γ : Type} {f : α → β} {g : α → γ}
    (h : ∀ x y, f x = f y ↔ g x = g y) (a b : Option α) :
    a.map f = b.map f ↔ a.map g = b.map g := by
  cases a <;> cases b <;> simp [h]

theorem optStrVal_inj {a b : Option Str} :
    GovernanceMesh.optStrVal a = GovernanceMesh.optStrVal b ↔ a = b := by
  cases a <;> cases b <;> simp [GovernanceMesh.optStrVal]

theorem masked_record_eq_iff (r r' : Ruling) :
    (r.record P).masked = (r'.record P).masked ↔ r.disclosed P = r'.disclosed P := by
  cases h : r.artifact with
  | none =>
      cases h' : r'.artifact with
      | none =>
          simp [Ruling.record, Ruling.disclosed, h, h', AuthorizationRecord.masked,
            AuthorizationRecord.maskedDecision, and_comm]
      | some artifact' =>
          simp [Ruling.record, Ruling.disclosed, h, h', AuthorizationRecord.masked]
  | some artifact =>
      cases h' : r'.artifact with
      | none => simp [Ruling.record, Ruling.disclosed, h, h', AuthorizationRecord.masked]
      | some artifact' =>
          simp [Ruling.record, Ruling.disclosed, h, h', AuthorizationRecord.masked,
            AuthorizationRecord.maskedDecision, optStrVal_inj]

theorem statusOf_inj {outcome outcome' : HandlerOutcome} :
    ExecutionBoundary.statusOf outcome = ExecutionBoundary.statusOf outcome' ↔
      outcome.isReturn = outcome'.isReturn := by
  cases outcome <;> cases outcome' <;>
    simp [ExecutionBoundary.statusOf, HandlerOutcome.isReturn]

theorem run_record_eq_iff (outcome outcome' : HandlerOutcome) :
    outcome.record P = outcome'.record P ↔ outcome.disclosed P = outcome'.disclosed P := by
  simp [HandlerOutcome.record, HandlerOutcome.disclosed, lit_inj, statusOf_inj]

theorem Rebuilt.masked_eq_iff (h : Rebuilt P facts decisions) (h' : Rebuilt P facts' decisions') :
    decisions.map (fun m => (m.1, m.2.masked)) = decisions'.map (fun m => (m.1, m.2.masked)) ↔
      SameDisclosure P facts facts' := by
  have hget : ∀ nonce, (Dict.get decisions nonce).map DecisionRecord.masked =
      (Dict.get decisions' nonce).map DecisionRecord.masked ↔
        (authorizationOf decisions nonce).map AuthorizationRecord.masked =
            (authorizationOf decisions' nonce).map AuthorizationRecord.masked ∧
          executionOf decisions nonce = executionOf decisions' nonce := by
    intro nonce
    rw [get_eq_ofParts h.plain, get_eq_ofParts h'.plain, DecisionRecord.map_masked_ofParts,
      DecisionRecord.map_masked_ofParts, DecisionRecord.ofParts_inj]
  have hnonce : ∀ nonce ≠ [], ((Dict.get decisions nonce).map DecisionRecord.masked =
      (Dict.get decisions' nonce).map DecisionRecord.masked ↔
        (AuditFact.lastRuling facts nonce).map (Ruling.disclosed P) =
            (AuditFact.lastRuling facts' nonce).map (Ruling.disclosed P) ∧
          (AuditFact.lastRun facts nonce).map (HandlerOutcome.disclosed P) =
            (AuditFact.lastRun facts' nonce).map (HandlerOutcome.disclosed P)) := by
    intro nonce hne
    rw [hget, authorizationOf_eq h.plain h.describes hne,
      authorizationOf_eq h'.plain h'.describes hne, executionOf_eq h.plain h.describes hne,
      executionOf_eq h'.plain h'.describes hne, Option.map_map, Option.map_map]
    exact and_congr (map_eq_map_congr masked_record_eq_iff _ _)
      (map_eq_map_congr run_record_eq_iff _ _)
  obtain ⟨d, hd, rfl⟩ := h.sorted
  obtain ⟨d', hd', rfl⟩ := h'.sorted
  rw [map_sortedItems_eq_iff _ hd hd']
  constructor
  · intro hall
    exact ⟨fun nonce hne => ((hnonce nonce hne).mp (hall nonce)).1,
      fun nonce hne => ((hnonce nonce hne).mp (hall nonce)).2⟩
  · intro hsame nonce
    by_cases hne : nonce = []
    · rw [hne, get_nil_of_plain h.plain, get_nil_of_plain h'.plain]
    · exact (hnonce nonce hne).mpr ⟨hsame.rulings nonce hne, hsame.runs nonce hne⟩

-- the type, the nonce and the status of an event
def outline (event : PyDict) : PyVal × PyVal × PyVal :=
  (event.getD "type", event.getD "nonce", event.getD "status")

def outlines (log : ReplayLog) : List (PyVal × PyVal × PyVal) :=
  (log.frames.map ReplayFrame.event).map outline

def SameEvents (log log' : ReplayLog) : Prop := log.outlines = log'.outlines

variable {log log' : ReplayLog}

theorem map_filter_outline {events events' : List PyDict} (h : events.map outline = events'.map outline)
    (p : PyVal × PyVal × PyVal → Bool) :
    (events.filter (p ∘ outline)).map outline = (events'.filter (p ∘ outline)).map outline := by
  rw [← List.filter_map, ← List.filter_map, h]

theorem length_of_outline {events events' : List PyDict}
    (h : events.map outline = events'.map outline) : events.length = events'.length := by
  have hlength := congrArg List.length h
  rwa [List.length_map, List.length_map] at hlength

theorem SameEvents.auditEvents (h : SameEvents log log') (name : String) :
    (log.auditEvents name).map outline = (log'.auditEvents name).map outline :=
  map_filter_outline h (fun o => o.1.eq (.str (lit name)) && o.2.1.truthy)

theorem SameEvents.summary (h : SameEvents log log') {summary summary' : AuditSummary}
    (hsummary : log.auditSummary P = .ok summary) (hsummary' : log'.auditSummary P = .ok summary') :
    { summary with decisions := [] } = { summary' with decisions := [] } := by
  have hframes : log.frames.length = log'.frames.length := by
    have hlength := length_of_outline h
    rwa [List.length_map, List.length_map] at hlength
  have hexecution := h.auditEvents "execution"
  have hauthorization := h.auditEvents "authorization"
  have hstatus : ∀ name : String, ((log.auditEvents "execution").filter (hasStatus name)).length =
      ((log'.auditEvents "execution").filter (hasStatus name)).length := fun name =>
    length_of_outline (map_filter_outline hexecution (fun o => o.2.2.eq (.str (lit name))))
  have hnonces : ∀ events : List PyDict, events.mapM (fun event => P.str (event.getD "nonce")) =
      (events.map outline).mapM (fun o => P.str o.2.1) := by
    intro events
    rw [List.mapM_map]
    rfl
  obtain ⟨-, decisions, -, hsummary⟩ := auditSummary_eq_ok_iff.mp hsummary
  obtain ⟨nonces, hmapM, hsummary⟩ := bind_eq_ok.mp hsummary
  obtain ⟨-, decisions', -, hsummary'⟩ := auditSummary_eq_ok_iff.mp hsummary'
  obtain ⟨nonces', hmapM', hsummary'⟩ := bind_eq_ok.mp hsummary'
  rw [hnonces, List.map_append, hauthorization, hexecution, ← List.map_append, ← hnonces] at hmapM
  obtain rfl := Except.ok.inj (hmapM.symm.trans hmapM')
  obtain rfl := Except.ok.inj hsummary
  obtain rfl := Except.ok.inj hsummary'
  simp only [hframes, length_of_outline hexecution, length_of_outline hauthorization, hstatus]

-- a frame id comes up as often again in the one log as in the other
def SameRepeats (log log' : ReplayLog) : Prop :=
  ∀ frameId, log.frameIds.count frameId - 1 = log'.frameIds.count frameId - 1

theorem count_sortedStrs (ss : List Str) (s : Str) : (sortedStrs ss).count s = ss.count s :=
  (List.perm_insertionSort _ ss).count_eq s

theorem sameRepeats_iff : SameRepeats log log' ↔
    sortedStrs (duplicatesFrom [] log.frames) = sortedStrs (duplicatesFrom [] log'.frames) := by
  have hcount : ∀ (log : ReplayLog) (frameId : Str),
      (sortedStrs (duplicatesFrom [] log.frames)).count frameId =
        log.frameIds.count frameId - 1 := by
    intro log frameId
    rw [count_sortedStrs, count_duplicatesFrom, if_neg (by simp), frameIds]
  constructor
  · intro h
    have hperm : (duplicatesFrom [] log.frames).Perm (duplicatesFrom [] log'.frames) := by
      rw [List.perm_iff_count]
      intro frameId
      rw [← count_sortedStrs (duplicatesFrom [] log.frames), hcount,
        ← count_sortedStrs (duplicatesFrom [] log'.frames), hcount]
      exact h frameId
    exact insertionSort_perm id (fun _ _ => Iff.rfl) hperm fun _ _ _ _ h => h
  · intro h frameId
    rw [← hcount, ← hcount, h]

theorem isEmpty_sortedStrs (ss : List Str) : (sortedStrs ss).isEmpty = ss.isEmpty := by
  rw [Bool.eq_iff_iff, List.isEmpty_iff_length_eq_zero, List.isEmpty_iff_length_eq_zero, sortedStrs,
    List.length_insertionSort]

end ReplayLog

namespace ComplianceAuditor

variable {P : Primitives} {auditor auditor' : ComplianceAuditor} {generatedAt generatedAt' : Str}
  {bundle : EvidenceBundle} {summary summary' : AuditSummary}

-- the integrity report of a linked log
def linkedReport (log : ReplayLog) (replayDigest : Str) : IntegrityReport :=
  ⟨(ReplayLog.duplicatesFrom [] log.frames).isEmpty, log.frames.length, log.headHash, replayDigest,
    sortedStrs (ReplayLog.duplicatesFrom [] log.frames), none⟩

def bundleOf (auditor : ComplianceAuditor) (generatedAt : Str) (report : IntegrityReport)
    (summary : AuditSummary) (policyDigests : List (Str × Str)) : EvidenceBundle where
  generatedAt := generatedAt
  replayIntegrity := report
  auditSummary := summary
  trustStore := auditor.trustStore.toDict
  policyDigests := policyDigests
  controls := (soc2Iso27001 report auditor.trustStore.toDict auditor.policies).map
    ComplianceEvaluation.toControl

theorem evidenceBundle_eq_ok (hlog : auditor.replayLog.Linked P)
    (hsummary : auditor.replayLog.auditSummary P = .ok summary) :
    auditor.evidenceBundle P generatedAt = .ok bundle ↔ ∃ replayDigest policyDigests,
      canonicalDigest P auditor.replayLog.contents = .ok replayDigest ∧
        auditor.policyDigests P = .ok policyDigests ∧
        bundle = auditor.bundleOf generatedAt (linkedReport auditor.replayLog replayDigest) summary
          policyDigests := by
  simp only [evidenceBundle, evaluateSoc2Iso27001, bind_eq_ok]
  constructor
  · rintro ⟨report, hreport, summary', hsummary', digests, hdigests, controls,
      ⟨report', hreport', hcontrols⟩, h⟩
    obtain rfl := Except.ok.inj (hsummary.symm.trans hsummary')
    obtain rfl := Except.ok.inj (hreport.symm.trans hreport')
    obtain rfl := Except.ok.inj hcontrols
    obtain ⟨replayDigest, hdigest, rfl⟩ := (ReplayLog.verifyIntegrity_of_linked hlog).mp hreport
    exact ⟨replayDigest, digests, hdigest, hdigests, (Except.ok.inj h).symm⟩
  · rintro ⟨replayDigest, digests, hdigest, hdigests, rfl⟩
    have hreport := (ReplayLog.verifyIntegrity_of_linked hlog).mpr ⟨replayDigest, hdigest, rfl⟩
    exact ⟨_, hreport, summary, hsummary, digests, hdigests, _, ⟨_, hreport, rfl⟩, rfl⟩

theorem copied_of_evidenceBundle (h : auditor.evidenceBundle P generatedAt = .ok bundle) :
    auditor.replayLog.Copied P := by
  obtain ⟨report, -, h⟩ := bind_eq_ok.mp h
  obtain ⟨summary, hsummary, -⟩ := bind_eq_ok.mp h
  exact (ReplayLog.auditSummary_eq_ok_iff.mp hsummary).1

theorem soc2Iso27001_congr {report report' : IntegrityReport} (h : report.ok = report'.ok)
    (trust : PyDict) (policies : List Policy) :
    (soc2Iso27001 report trust policies).map ComplianceEvaluation.toControl =
      (soc2Iso27001 report' trust policies).map ComplianceEvaluation.toControl := by
  simp only [soc2Iso27001, List.map_cons, List.map_nil, ComplianceEvaluation.toControl, h]

-- what two bundles over logs with the same sequence of events may differ in
theorem masked_eq_iff {log log' : ReplayLog} {store : TrustStore}
    {registry : Option PolicyRegistry} {replayDigest replayDigest' : Str}
    {policyDigests : List (Str × Str)} (hsame : log.SameEvents log')
    (hsummary : log.auditSummary P = .ok summary) (hsummary' : log'.auditSummary P = .ok summary') :
    (bundleOf ⟨log, store, registry⟩ generatedAt (linkedReport log replayDigest) summary
        policyDigests).masked =
      (bundleOf ⟨log', store, registry⟩ generatedAt' (linkedReport log' replayDigest') summary'
        policyDigests).masked ↔
    log.SameRepeats log' ∧ summary.decisions.map (fun m => (m.1, m.2.masked)) =
      summary'.decisions.map (fun m => (m.1, m.2.masked)) := by
  rw [ReplayLog.sameRepeats_iff]
  have hrest := hsame.summary hsummary hsummary'
  constructor
  · intro h
    have hreports := congrArg (fun b => b.replayIntegrity.duplicateFrameIds) h
    have hdecisions := congrArg (fun b => b.auditSummary.decisions) h
    exact ⟨hreports, hdecisions⟩
  · rintro ⟨hrepeats, hdecisions⟩
    have hok : (linkedReport log replayDigest).ok = (linkedReport log' replayDigest').ok := by
      rw [linkedReport, linkedReport, ← ReplayLog.isEmpty_sortedStrs, hrepeats,
        ReplayLog.isEmpty_sortedStrs]
    have hframes : log.frames.length = log'.frames.length := by
      have hlength := ReplayLog.length_of_outline hsame
      rwa [List.length_map, List.length_map] at hlength
    have hreport : (linkedReport log replayDigest).masked =
        (linkedReport log' replayDigest').masked := by
      simp only [IntegrityReport.masked, IntegrityReport.mk.injEq, true_and]
      exact ⟨hok, hframes, hrepeats, rfl⟩
    have hmasked : summary.masked = summary'.masked := by
      have hparts := AuditSummary.mk.inj hrest
      rw [AuditSummary.masked, AuditSummary.masked, hdecisions, hparts.1, hparts.2.1, hparts.2.2.1,
        hparts.2.2.2.1, hparts.2.2.2.2.1, hparts.2.2.2.2.2.1]
    simp only [EvidenceBundle.masked, bundleOf, hreport, hmasked,
      soc2Iso27001_congr hok store.toDict, policies]

theorem policyDigests_isOk : (∃ digests, auditor.policyDigests P = .ok digests) ↔
    ∀ registry, auditor.policyRegistry = some registry → ∀ m ∈ registry.policies,
      ∃ digest, m.2.digest P = .ok digest := by
  cases h : auditor.policyRegistry with
  | none => simp [policyDigests, h]
  | some registry =>
      simp only [policyDigests, h, PolicyRegistry.digests]
      constructor
      · rintro ⟨digests, hdigests⟩ registry' hregistry m hm
        obtain rfl := Option.some.inj hregistry
        obtain ⟨item, -, hitem⟩ := of_mapM_eq_ok hdigests (mem_sortedItems.mpr hm)
        obtain ⟨digest, hdigest, -⟩ := bind_eq_ok.mp hitem
        exact ⟨digest, hdigest⟩
      · intro hall
        apply ReplayLog.mapM_isOk
        intro m hm
        obtain ⟨digest, hdigest⟩ := hall registry rfl m (mem_sortedItems.mp hm)
        exact ⟨(m.1, digest), bind_eq_ok.mpr ⟨digest, hdigest, rfl⟩⟩

end ComplianceAuditor

-- the log and the registered policies are within the reach of the canonical encoder, and the
-- events that the summary copies within that of deepcopy
structure Bundleable (P : Primitives) (registry : Option PolicyRegistry) (log : ReplayLog) :
    Prop where
  contents : log.contents.Encodable P.recursionLimit
  copied : log.Copied P
  policies : ∀ policies, registry = some policies → ∀ m ∈ policies.policies,
    ∃ digest, m.2.digest P = .ok digest

-- both bundles can be made, and they agree up to the timestamp, the hashes and the digests
def BundlesAgree (P : Primitives) (store : TrustStore) (registry : Option PolicyRegistry)
    (log log' : ReplayLog) (generatedAt generatedAt' : Str) : Prop :=
  ∃ bundle bundle',
    ComplianceAuditor.evidenceBundle P ⟨log, store, registry⟩ generatedAt = .ok bundle ∧
    ComplianceAuditor.evidenceBundle P ⟨log', store, registry⟩ generatedAt' = .ok bundle' ∧
    bundle.masked = bundle'.masked

namespace ServiceMove

section Runs

variable (P : Primitives)

theorem plain_run (moves : List ServiceMove) : (Calls.run (perform P) {} moves).PlainTrail :=
  Calls.always (A := ReplayLog.PlainTrail) (fun _ move hlog => plain_perform hlog move) moves
    (by simp [ReplayLog.PlainTrail])

theorem sound_run (moves : List ServiceMove) : (Calls.run (perform P) {} moves).Sound P :=
  Calls.always (A := ReplayLog.Sound P) (fun _ move hlog => sound_perform hlog move) moves
    ReplayLog.sound_empty

theorem rebuilt_run (moves : List ServiceMove)
    (hcopied : (Calls.run (perform P) {} moves).Copied P) :
    ∃ summary, (Calls.run (perform P) {} moves).auditSummary P = .ok summary ∧
      ReplayLog.Rebuilt P (facts P {} moves) summary.decisions := by
  obtain ⟨events, htrail, hshown⟩ := @trail_run P {} moves
  rw [show ({} : ReplayLog).auditTrail = [] from rfl, List.nil_append] at htrail
  exact ReplayLog.rebuilt_of_trail (plain_run P moves) hcopied (htrail ▸ hshown)

variable {P} {store : TrustStore} {registry : Option PolicyRegistry} {moves moves' : List ServiceMove}
  {generatedAt generatedAt' : Str}

theorem disclosed_of_agree
    (hsame : (Calls.run (perform P) {} moves).SameEvents (Calls.run (perform P) {} moves'))
    (h : BundlesAgree P store registry (Calls.run (perform P) {} moves)
      (Calls.run (perform P) {} moves') generatedAt generatedAt') :
    Bundleable P registry (Calls.run (perform P) {} moves) ∧
      Bundleable P registry (Calls.run (perform P) {} moves') ∧
      (Calls.run (perform P) {} moves).SameRepeats (Calls.run (perform P) {} moves') ∧
      ReplayLog.SameDisclosure P (facts P {} moves) (facts P {} moves') := by
  obtain ⟨bundle, bundle', hbundle, hbundle', hmasked⟩ := h
  have hcopied := ComplianceAuditor.copied_of_evidenceBundle hbundle
  have hcopied' := ComplianceAuditor.copied_of_evidenceBundle hbundle'
  obtain ⟨summary, hsummary, hrebuilt⟩ := rebuilt_run P moves hcopied
  obtain ⟨summary', hsummary', hrebuilt'⟩ := rebuilt_run P moves' hcopied'
  obtain ⟨replayDigest, digests, hdigest, hdigests, rfl⟩ :=
    (ComplianceAuditor.evidenceBundle_eq_ok (sound_run P moves).linked hsummary).mp hbundle
  obtain ⟨replayDigest', digests', hdigest', hdigests', rfl⟩ :=
    (ComplianceAuditor.evidenceBundle_eq_ok (sound_run P moves').linked hsummary').mp hbundle'
  obtain rfl : digests = digests' := Except.ok.inj (hdigests.symm.trans hdigests')
  obtain ⟨hrepeats, hdecisions⟩ :=
    (ComplianceAuditor.masked_eq_iff hsame hsummary hsummary').mp hmasked
  have hpolicies := ComplianceAuditor.policyDigests_isOk.mp ⟨digests, hdigests⟩
  exact ⟨⟨(canonicalDigest_isOk P).mp ⟨_, hdigest⟩, hcopied, hpolicies⟩,
    ⟨(canonicalDigest_isOk P).mp ⟨_, hdigest'⟩, hcopied', hpolicies⟩, hrepeats,
    (hrebuilt.masked_eq_iff hrebuilt').mp hdecisions⟩

theorem bundles_agree_iff (P : Primitives) (store : TrustStore) (registry : Option PolicyRegistry)
    (moves moves' : List ServiceMove) (generatedAt generatedAt' : Str)
    (hsame : (Calls.run (perform P) {} moves).SameEvents (Calls.run (perform P) {} moves')) :
    BundlesAgree P store registry (Calls.run (perform P) {} moves)
        (Calls.run (perform P) {} moves') generatedAt generatedAt' ↔
      Bundleable P registry (Calls.run (perform P) {} moves) ∧
        Bundleable P registry (Calls.run (perform P) {} moves') ∧
        (Calls.run (perform P) {} moves).SameRepeats (Calls.run (perform P) {} moves') ∧
        ReplayLog.SameDisclosure P (facts P {} moves) (facts P {} moves') := by
  constructor
  · exact disclosed_of_agree hsame
  · rintro ⟨hbundle, hbundle', hrepeats, hdisclosure⟩
    obtain ⟨summary, hsummary, hrebuilt⟩ := rebuilt_run P moves hbundle.copied
    obtain ⟨summary', hsummary', hrebuilt'⟩ := rebuilt_run P moves' hbundle'.copied
    obtain ⟨digests, hdigests⟩ := (@ComplianceAuditor.policyDigests_isOk P
      ⟨Calls.run (perform P) {} moves, store, registry⟩).mpr hbundle.policies
    obtain ⟨replayDigest, hdigest⟩ := (canonicalDigest_isOk P).mpr hbundle.contents
    obtain ⟨replayDigest', hdigest'⟩ := (canonicalDigest_isOk P).mpr hbundle'.contents
    refine ⟨_, _, (ComplianceAuditor.evidenceBundle_eq_ok (sound_run P moves).linked hsummary).mpr
      ⟨replayDigest, digests, hdigest, hdigests, rfl⟩,
      (ComplianceAuditor.evidenceBundle_eq_ok (sound_run P moves').linked hsummary').mpr
        ⟨replayDigest', digests, hdigest', hdigests, rfl⟩, ?_⟩
    exact (ComplianceAuditor.masked_eq_iff hsame hsummary hsummary').mpr
      ⟨hrepeats, (hrebuilt.masked_eq_iff hrebuilt').mpr hdisclosure⟩

-- a handler that returns a flag
def flagged (flag : Bool) : HandlerOutcome := .returned (.bool flag)

theorem flagged_auditable (flag : Bool) :
    ExecutionBoundary.Auditable sizePrimitives (flagged flag) := by
  have hjson : canonicalJson sizePrimitives (.bool flag) =
      .ok (if flag then "true" else "false") := by
    cases flag <;> rfl
  have hsmall : (if flag then "true" else "false").utf8ByteSize ≤ 4096 := by
    cases flag <;> decide
  simp only [flagged, ExecutionBoundary.Auditable, ExecutionBoundary.AuditableResult, hjson,
    if_pos hsmall, PyVal.encodable_bool]

theorem flagged_disclosed (flag : Bool) :
    (flagged flag).disclosed sizePrimitives = (true, .bool flag, .none) := by
  cases flag <;> rfl

-- an authorize, and an execute of its GAA with a handler that returns the flag
def flaggedMoves (artifact : Artifact) (flag : Bool) : List ServiceMove :=
  [.call (.authorize AuthorizationIssuer.lifetimeIssuer 0 "n" AuthorizationIssuer.lifetimeCall),
    .call (.execute GovernedStep.auditedBoundary 0 artifact (fun _ => flagged flag))]

theorem flagged_run : ∃ (log : ReplayLog) (artifact : Artifact), ∀ flag,
    ReplayLog.outlines (Calls.run (perform sizePrimitives) {} (flaggedMoves artifact flag)) =
        log.outlines ++ [(.str (lit "execution"), .str (lit "n"), .str (lit "completed"))] ∧
      AuditFact.lastRun (facts sizePrimitives {} (flaggedMoves artifact flag)) "n" =
        some (flagged flag) := by
  obtain ⟨log, artifact, hperform, hsound, hvalid, hnonce, -⟩ := GovernedStep.authorized_run
  refine ⟨log, artifact, ?_⟩
  intro flag
  obtain ⟨recorded, hrecord⟩ := (ExecutionBoundary.record_isOk
    (ExecutionBoundary.sealable_of_validate hsound hvalid)).mpr (flagged_auditable flag)
  obtain ⟨frame, -, hframe, -, hlog⟩ := ExecutionBoundary.record_eq_ok hrecord
  have hran : GovernedStep.auditedBoundary.ran sizePrimitives log 0 artifact
      (fun _ => flagged flag) = some (flagged flag) :=
    (GovernedStep.ran_iff_auditable hsound (ExecutionBoundary.execute_invoked.mpr hvalid)).mpr
      (flagged_auditable flag)
  constructor
  · have hrun : Calls.run (perform sizePrimitives) {} (flaggedMoves artifact flag) = recorded := by
      rw [flaggedMoves, Calls.run_cons, perform, hperform, Calls.run_cons, Calls.run_nil, perform,
        GovernedStep.perform, ExecutionBoundary.execute_of_validate hvalid]
      simp only [hrecord]
    rw [hrun, hlog, ReplayLog.outlines, List.map_append, List.map_append, List.map_singleton,
      List.map_singleton, ReplayLog.outline, hframe.kind, hframe.nonce, hframe.status, hnonce]
    rfl
  · have hfact : GovernedStep.fact sizePrimitives log (.execute GovernedStep.auditedBoundary 0
        artifact (fun _ => flagged flag)) = some (.ran artifact.nonce (flagged flag)) := by
      rw [GovernedStep.fact, hran, Option.map_some]
    rw [flaggedMoves, facts, facts, facts, perform, hperform, List.append_nil, fact, fact, hfact,
      Option.toList_some, ReplayLog.lastRun_snoc, AuditFact.runOf, if_pos hnonce, Option.some_or]

theorem bundles_agree_iff_flagged : ∃ artifact,
    flaggedMoves artifact true ≠ flaggedMoves artifact false ∧
    (BundlesAgree sizePrimitives ⟨[], [], by simp⟩ none
        (Calls.run (perform sizePrimitives) {} (flaggedMoves artifact true))
        (Calls.run (perform sizePrimitives) {} (flaggedMoves artifact false)) "1" "2" ↔
      Bundleable sizePrimitives none
          (Calls.run (perform sizePrimitives) {} (flaggedMoves artifact true)) ∧
        Bundleable sizePrimitives none
          (Calls.run (perform sizePrimitives) {} (flaggedMoves artifact false)) ∧
        ReplayLog.SameRepeats
          (Calls.run (perform sizePrimitives) {} (flaggedMoves artifact true))
          (Calls.run (perform sizePrimitives) {} (flaggedMoves artifact false)) ∧
        ReplayLog.SameDisclosure sizePrimitives
          (facts sizePrimitives {} (flaggedMoves artifact true))
          (facts sizePrimitives {} (flaggedMoves artifact false))) := by
  obtain ⟨log, artifact, hrun⟩ := flagged_run
  refine ⟨artifact, ?_, bundles_agree_iff sizePrimitives _ none _ _ "1" "2"
    ((hrun true).1.trans (hrun false).1.symm)⟩
  intro hsame
  have hlast := (hrun true).2
  rw [hsame, (hrun false).2] at hlast
  cases hlast

-- requests that differ at most in the values of other fields than action and context
structure SameFields (request request' : PyDict) : Prop where
  names : request.map Prod.fst = request'.map Prod.fst
  action : request.getD "action" = request'.getD "action"
  context : request.getD "context" = request'.getD "context"

-- calls that differ at most in such requests, and in what their handlers do
inductive Alike : ServiceMove → ServiceMove → Prop
  | authorize {issuer : AuthorizationIssuer} {now : ℤ} {nonce : Str} {call : AuthorizeCall}
      {request : PyDict} (h : SameFields call.request request) :
      Alike (.call (.authorize issuer now nonce call))
        (.call (.authorize issuer now nonce { call with request := request }))
  | execute {boundary : ExecutionBoundary} {now : ℤ} {artifact artifact' : Artifact}
      {action action' : PyDict → HandlerOutcome}
      (hrequest : SameFields artifact.actionRequest artifact'.actionRequest)
      (hnonce : artifact.nonce = artifact'.nonce) :
      Alike (.call (.execute boundary now artifact action))
        (.call (.execute boundary now artifact' action'))
  | record {stamp : GovernanceStamp} {event subjectId actorId : Str} :
      Alike (.record stamp event subjectId actorId) (.record stamp event subjectId actorId)

theorem result_disclosed : ¬ ∀ (P : Primitives) (store : TrustStore)
    (registry : Option PolicyRegistry) (moves moves' : List ServiceMove)
    (generatedAt generatedAt' : Str), List.Forall₂ Alike moves moves' →
      (Calls.run (perform P) {} moves).SameEvents (Calls.run (perform P) {} moves') →
      BundlesAgree P store registry (Calls.run (perform P) {} moves)
        (Calls.run (perform P) {} moves') generatedAt generatedAt' := by
  intro h
  obtain ⟨log, artifact, hrun⟩ := flagged_run
  have hsame : ReplayLog.SameEvents
      (Calls.run (perform sizePrimitives) {} (flaggedMoves artifact true))
      (Calls.run (perform sizePrimitives) {} (flaggedMoves artifact false)) :=
    (hrun true).1.trans (hrun false).1.symm
  have halike : List.Forall₂ Alike (flaggedMoves artifact true) (flaggedMoves artifact false) :=
    .cons (.authorize ⟨rfl, rfl, rfl⟩) (.cons (.execute ⟨rfl, rfl, rfl⟩ rfl) .nil)
  obtain ⟨-, -, -, hdisclosure⟩ := disclosed_of_agree hsame
    (h sizePrimitives ⟨[], [], by simp⟩ none _ _ "1" "2" halike hsame)
  have hruns := hdisclosure.runs "n" (by decide)
  rw [(hrun true).2, (hrun false).2, Option.map_some, Option.map_some, flagged_disclosed,
    flagged_disclosed] at hruns
  cases hruns

end Runs

end ServiceMove

end GovernedAutonomy
