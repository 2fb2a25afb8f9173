import GovernedAutonomy.Demo
import GovernedAutonomy.Issuer
import Mathlib.Data.Nat.Digits.Defs

namespace GovernedAutonomy

open Python

namespace ReplayLog

variable (P : Primitives)

-- the chain is whole and every audited execution has spent its nonce
structure Sound (log : ReplayLog) : Prop where
  linked : log.Linked P
  spent : ∀ nonce, log.executionsOf nonce ≠ [] → log.nonceUsed nonce = true

theorem executionsOf_append {log log' : ReplayLog} {frames : List ReplayFrame} {nonce : Str}
    (h : log'.frames = log.frames ++ frames) :
    log'.executionsOf nonce = log.executionsOf nonce ++ frames.filter (isExecutionOf nonce) := by
  rw [executionsOf, h, List.filter_append]
  rfl

-- the events of a nonce can be copied
def CopiedFor (log : ReplayLog) (nonce : Str) : Prop :=
  ∀ frame ∈ log.frames, PyDict.getD frame.event "nonce" = .str nonce → P.Copyable frame.event

variable {P} in
theorem checkFailed_eq_ok {log : ReplayLog} {nonce : Str} :
    AuthorizationIssuer.checkFailed P log nonce = .ok () ↔ nonce ≠ [] ∧ log.CopiedFor P nonce ∧
      ∃ frame ∈ log.executionsOf nonce, PyDict.getD frame.event "status" = .str "failed" := by
  unfold AuthorizationIssuer.checkFailed eventsForNonce
  simp only [bind_eq_ok, raiseIf_eq_ok, Interpreter.mapM_deepcopy_eq_ok, Bool.not_eq_false,
    List.any_eq_true, List.mem_filter, List.mem_map, AuthorizationIssuer.isFailedExecution,
    Bool.and_eq_true, PyVal.eq_str_right, executionsOf, isExecutionOf_iff]
  constructor
  · rintro ⟨-, hnonce, _, ⟨-, -, hcopied, rfl⟩, event, hevent, hkind, hstatus⟩
    obtain ⟨hevent, hof⟩ := List.mem_filter.mp hevent
    obtain ⟨frame, hframe, rfl⟩ := List.mem_map.mp hevent
    refine ⟨hnonce, ?_, frame, ⟨hframe, hkind, PyVal.eq_str_right.mp hof⟩, hstatus⟩
    exact fun frame hframe hof => hcopied _ ⟨⟨frame, hframe, rfl⟩, hof⟩
  · rintro ⟨hnonce, hcopied, frame, ⟨hframe, hkind, hof⟩, hstatus⟩
    refine ⟨(), hnonce, _, ⟨(), hnonce, ?_, rfl⟩, frame.event, ?_, hkind, hstatus⟩
    · rintro event ⟨⟨frame, hframe, rfl⟩, hof⟩
      exact hcopied frame hframe hof
    · exact List.mem_filter.mpr ⟨List.mem_map.mpr ⟨frame, hframe, rfl⟩, PyVal.eq_str_right.mpr hof⟩

end ReplayLog

namespace ExecutionBoundary

variable (P : Primitives)

structure Audited (log : ReplayLog) (artifact : Artifact) (outcome : HandlerOutcome) : Prop where
  frame : ∃ frame, log.executionsOf artifact.nonce = [frame] ∧
    PyDict.getD frame.event "status" = .str (lit (statusOf outcome))
  compensation : AuthorizationIssuer.checkFailed P log artifact.nonce = .ok () ↔
    outcome.isReturn = false

-- what events_for_nonce copies once a failure is recorded
structure Readable (log : ReplayLog) (artifact : Artifact) : Prop where
  earlier : log.CopiedFor P artifact.nonce
  failure : (artifact.decision.getD "policy").nesting < P.copyLimit

-- a small result is written out in the frame, two containers further down than it was measured
def AuditableResult (result : PyVal) : Prop :=
  match canonicalJson P result with
  | .error e => e.isTypeError = true ∨ e.isValueError = true
  | .ok bytes =>
      if bytes.utf8ByteSize ≤ 4096 then result.Encodable (P.recursionLimit - 2)
      else (digits bytes.utf8ByteSize).length ≤ maxStrDigits

def Auditable : HandlerOutcome → Prop
  | .returned result => AuditableResult P result
  | .raised _ text => ∃ s, text = .ok s ∧ Json.Clean (s.take 512)

variable {P} {boundary : ExecutionBoundary} {log log' : ReplayLog} {now : ℤ} {artifact : Artifact}
  {outcome : HandlerOutcome}

variable (P log artifact) in
-- what goes into the frame besides the outcome
structure Sealable : Prop where
  depth : 1 < P.recursionLimit
  head : Json.Clean log.headHash
  nonce : Json.Clean artifact.nonce
  frameRef : Json.Clean artifact.replayFrameRef
  policy : (artifact.decision.getD "policy").Encodable (P.recursionLimit - 2)

theorem sealable_of_payload {payload : String} (hlog : log.Linked P)
    (h : artifact.unsignedPayload P = .ok payload) : Sealable P log artifact := by
  have hencodable := (canonicalJson_isOk P).mp ⟨payload, h⟩
  rw [GovernanceAuthorizationArtifact.unsignedDict, PyVal.encodable_ofFields] at hencodable
  simp only [List.forall_mem_cons, PyVal.encodable_str] at hencodable
  obtain ⟨-, -, hdecision, -, hnonce, href, -⟩ := hencodable
  refine ⟨?_, ReplayLog.clean_headHash P hlog, hnonce, href, ?_⟩
  · have := (PyVal.encodable_dict.mp hdecision).1
    omega
  · cases hget : artifact.decision.get "policy" with
    | none =>
        rw [PyDict.getD_of_get_none hget]
        exact PyVal.encodable_none
    | some policy =>
        rw [PyDict.getD_of_get hget]
        exact hdecision.of_get hget

theorem create_ofFields_isOk (h : Sealable P log artifact) {fields : List (String × PyVal)} :
    (∃ frame, ReplayFrame.create P (executionFrameId artifact) log.headHash
        (PyDict.ofFields fields) = .ok frame) ↔
      ∀ m ∈ fields, m.2.Encodable (P.recursionLimit - 2) := by
  obtain ⟨hdepth, hhead, hnonce, -, -⟩ := h
  rw [ReplayFrame.create_isOk, PyVal.encodable_ofFields]
  have hid : Json.Clean (executionFrameId artifact) := Json.clean_append (Json.clean_lit _) hnonce
  constructor
  · rintro ⟨-, -, -, -, h⟩
    exact h
  · intro h
    exact ⟨by omega, hid, hhead, by omega, h⟩

theorem digits_small {n : Nat} (h : n ≤ 4096) : (digits n).length ≤ maxStrDigits := by
  have hlen := Nat.toDigits_length 10 n 4 (by decide) (by omega)
  rw [digits, List.length_map]
  exact le_trans hlen (by decide)

theorem outcomeFields_isOk :
    (∃ fields, outcomeFields P outcome = .ok fields ∧
      ∀ m ∈ fields, m.2.Encodable (P.recursionLimit - 2)) ↔ Auditable P outcome := by
  cases outcome with
  | raised errorType text =>
      cases text with
      | error e => simp [outcomeFields, Auditable, bind, Except.bind]
      | ok s =>
          simp only [outcomeFields, Auditable, bind, Except.bind, Except.ok.injEq, exists_eq_left',
            List.forall_mem_cons, PyVal.encodable_str]
          exact ⟨fun h => h.2.1, fun h => ⟨Json.clean_lit _, h, by simp⟩⟩
  | returned result =>
      simp only [outcomeFields, resultAudit, Auditable, AuditableResult]
      cases canonicalJson P result with
      | error e =>
          simp only [Bool.or_eq_true]
          split
          · rename_i hcaught
            simp only [Except.ok.injEq, exists_eq_left', List.forall_mem_cons, PyVal.encodable_bool,
              PyVal.encodable_str, hcaught, iff_true]
            exact ⟨trivial, Json.clean_lit _, by simp⟩
          · rename_i hraised
            simp [hraised]
      | ok bytes =>
          have hdigest : Json.Clean (hexdigest P bytes) := clean_hexdigest bytes
          simp only [Except.ok.injEq, exists_eq_left', List.forall_mem_append,
            List.forall_mem_cons, PyVal.encodable_str, PyVal.encodable_int, Int.natAbs_natCast]
          split
          · rename_i hsmall
            simp [hdigest, digits_small hsmall]
          · simp only [List.forall_mem_cons, PyVal.encodable_bool, PyVal.encodable_str]
            exact ⟨fun h => h.1.2.1, fun h => ⟨⟨hdigest, h, by simp⟩, trivial, Json.clean_lit _, by simp⟩⟩

theorem record_isOk (h : Sealable P log artifact) :
    (∃ log', record P log artifact outcome = .ok log') ↔ Auditable P outcome := by
  have hbase : ∀ m ∈ [("type", PyVal.str "execution"), ("nonce", .str artifact.nonce),
      ("authorization_frame_ref", .str artifact.replayFrameRef),
      ("policy", artifact.decision.getD "policy"), ("status", .str (lit (statusOf outcome)))],
      m.2.Encodable (P.recursionLimit - 2) := by
    simp only [List.forall_mem_cons, List.not_mem_nil, IsEmpty.forall_iff,
      implies_true, and_true, PyVal.encodable_str]
    exact ⟨Json.clean_lit _, h.nonce, h.frameRef, h.policy, Json.clean_lit _⟩
  rw [← outcomeFields_isOk]
  constructor
  · rintro ⟨log', hrecord⟩
    simp only [record, executionEvent, bind_eq_ok] at hrecord
    obtain ⟨event, ⟨fields, hfields, hevent⟩, ⟨log'', frame⟩, happend, -⟩ := hrecord
    obtain rfl := Except.ok.inj hevent
    have hframe := (ReplayLog.append_eq_ok P).mp happend
    have hall := (create_ofFields_isOk h).mp ⟨frame, hframe.1⟩
    exact ⟨fields, hfields, fun m hm => hall m (List.mem_append_right _ hm)⟩
  · rintro ⟨fields, hfields, hall⟩
    obtain ⟨frame, hframe⟩ := (create_ofFields_isOk h).mpr
      (List.forall_mem_append.mpr ⟨hbase, hall⟩)
    refine ⟨{ log with frames := log.frames ++ [frame] }, ?_⟩
    simp only [record, executionEvent, bind_eq_ok]
    exact ⟨_, ⟨fields, hfields, rfl⟩, (_, frame), (ReplayLog.append_eq_ok P).mpr ⟨hframe, rfl⟩, rfl⟩

-- the frame that record appends
structure ExecutionFrame (artifact : Artifact) (outcome : HandlerOutcome) (frame : ReplayFrame) :
    Prop where
  frameId : frame.frameId = executionFrameId artifact
  kind : PyDict.getD frame.event "type" = .str "execution"
  nonce : PyDict.getD frame.event "nonce" = .str artifact.nonce
  status : PyDict.getD frame.event "status" = .str (lit (statusOf outcome))

theorem record_eq_ok (h : record P log artifact outcome = .ok log') :
    ∃ frame, ReplayFrame.create P (executionFrameId artifact) log.headHash frame.event = .ok frame ∧
      ExecutionFrame artifact outcome frame ∧
      executionEvent P artifact outcome = .ok frame.event ∧
      log' = { log with frames := log.frames ++ [frame] } := by
  simp only [record, bind_eq_ok] at h
  obtain ⟨event, hexecution, ⟨log'', frame⟩, happend, h⟩ := h
  obtain rfl := Except.ok.inj h
  obtain ⟨fields, -, hevent⟩ := bind_eq_ok.mp hexecution
  obtain ⟨hcreate, hlog⟩ := (ReplayLog.append_eq_ok P).mp happend
  obtain ⟨hid, -, hframe, -⟩ := (ReplayFrame.create_eq_ok P).mp hcreate
  have hfields := hframe.trans (Except.ok.inj hevent).symm
  refine ⟨frame, hframe ▸ hcreate, ⟨hid, ?_, ?_, ?_⟩, hframe ▸ hexecution, hlog⟩
  · simp [hfields, PyDict.getD]
  · simp [hfields, PyDict.getD]
  · simp [hfields, PyDict.getD]

theorem isExecutionOf_frame {frame : ReplayFrame} (h : ExecutionFrame artifact outcome frame)
    (nonce : Str) : ReplayLog.isExecutionOf nonce frame = decide (artifact.nonce = nonce) := by
  rw [Bool.eq_iff_iff, ReplayLog.isExecutionOf_iff, h.kind, h.nonce]
  simp

end ExecutionBoundary

namespace ReplayLog

variable {P : Primitives}

theorem Sound.snoc {log log' : ReplayLog} {frame : ReplayFrame} (h : log.Sound P)
    (hframes : log'.frames = log.frames ++ [frame]) (hused : log'.usedNonces = log.usedNonces)
    (hlinked : log'.Linked P)
    (hspent : ∀ nonce, isExecutionOf nonce frame = true → log.nonceUsed nonce = true) :
    log'.Sound P := by
  refine ⟨hlinked, ?_⟩
  intro nonce hne
  rw [nonceUsed, hused, ← nonceUsed]
  cases hof : isExecutionOf nonce frame with
  | true => exact hspent nonce hof
  | false =>
      refine h.spent nonce ?_
      rw [executionsOf_append hframes] at hne
      simpa [hof] using hne

theorem Sound.claimed {log : ReplayLog} (h : log.Sound P) (artifact : Artifact) :
    (ExecutionBoundary.claimed log artifact).Sound P := by
  refine ⟨h.linked, ?_⟩
  intro nonce hne
  have := h.spent nonce hne
  simp only [nonceUsed, List.contains_iff_mem] at this ⊢
  exact List.mem_cons_of_mem _ this

theorem Sound.record {log log' : ReplayLog} {artifact : Artifact} {outcome : HandlerOutcome}
    (h : log.Sound P) (hused : log.nonceUsed artifact.nonce = true)
    (hrecord : ExecutionBoundary.record P log artifact outcome = .ok log') : log'.Sound P := by
  obtain ⟨frame, hcreate, hframe, -, rfl⟩ := ExecutionBoundary.record_eq_ok hrecord
  refine h.snoc rfl rfl ?_ ?_
  · exact (HashChain.linked_snoc _ _).mpr ⟨h.linked, ReplayFrame.seals_of_create P hcreate⟩
  · intro nonce hof
    rw [ExecutionBoundary.isExecutionOf_frame hframe, decide_eq_true_eq] at hof
    rwa [← hof]

variable (P) in
-- everything that can be done to a log while its process lives
inductive Use : ReplayLog → ReplayLog → Prop
  | append {log log' : ReplayLog} {frameId : Str} {event : PyDict} {frame : ReplayFrame}
      (h : log.append P frameId event = .ok (log', frame))
      (hkind : PyDict.getD event "type" ≠ .str "execution") : Use log log'
  | claim {log log' : ReplayLog} {nonce : Str} (h : log.claimNonce nonce = .ok log') : Use log log'
  | execute {log : ReplayLog} {boundary : ExecutionBoundary} {now : ℤ} {artifact : Artifact}
      {action : PyDict → HandlerOutcome} :
      Use log (ExecutionBoundary.execute P boundary log now artifact action).log

theorem Sound.use {log log' : ReplayLog} (h : log.Sound P) (hs : Use P log log') :
    log'.Sound P := by
  cases hs with
  | @append _ frameId event frame happend hkind =>
      obtain ⟨hcreate, rfl⟩ := (append_eq_ok P).mp happend
      obtain ⟨-, -, hevent, -⟩ := (ReplayFrame.create_eq_ok P).mp hcreate
      refine h.snoc rfl rfl (linked_append P h.linked happend) ?_
      intro nonce hof
      rw [isExecutionOf_iff, hevent] at hof
      exact absurd hof.1 hkind
  | claim hclaim =>
      unfold claimNonce at hclaim
      split at hclaim
      · cases hclaim
      · obtain rfl := Except.ok.inj hclaim
        refine ⟨h.linked, ?_⟩
        intro nonce hne
        have := h.spent nonce hne
        simp only [nonceUsed, List.contains_iff_mem] at this ⊢
        exact List.mem_cons_of_mem _ this
  | @execute boundary now artifact action =>
      cases hvalid : ExecutionBoundary.validate P boundary log now artifact with
      | error e =>
          rw [ExecutionBoundary.execute, hvalid]
          exact h
      | ok u =>
          rw [ExecutionBoundary.execute_of_validate hvalid]
          cases hrecord : ExecutionBoundary.record P (ExecutionBoundary.claimed log artifact)
              artifact (action artifact.actionRequest) with
          | error e => exact h.claimed artifact
          | ok recorded =>
              exact (h.claimed artifact).record (by simp [ExecutionBoundary.claimed, nonceUsed])
                hrecord

theorem sound_empty : ({} : ReplayLog).Sound P := ⟨trivial, fun _ h => absurd rfl h⟩

end ReplayLog

namespace ExecutionBoundary

variable {P : Primitives} {boundary : ExecutionBoundary} {log log' : ReplayLog} {now : ℤ}
  {artifact : Artifact} {outcome : HandlerOutcome}

theorem executionsOf_claimed (hlog : log.Sound P)
    (hvalid : validate P boundary log now artifact = .ok ()) :
    (claimed log artifact).executionsOf artifact.nonce = [] := by
  by_contra hne
  have hunused := checkUnused_eq_ok.mp (validate_eq_ok.mp hvalid .unused)
  rw [hlog.spent artifact.nonce hne] at hunused
  cases hunused

theorem sealable_of_validate (hlog : log.Sound P)
    (hvalid : validate P boundary log now artifact = .ok ()) :
    Sealable P (claimed log artifact) artifact := by
  obtain ⟨-, payload, -, hpayload, -⟩ :=
    checkSignature_eq_ok.mp (validate_eq_ok.mp hvalid .signature)
  exact sealable_of_payload (hlog.claimed artifact).linked hpayload

-- a failure is nested as deeply as the policy that its event names
theorem copyable_failure {event : PyDict} (hraised : outcome.isReturn = false)
    (h : executionEvent P artifact outcome = .ok event) :
    P.Copyable event ↔ (artifact.decision.getD "policy").nesting < P.copyLimit := by
  cases outcome with
  | returned result => cases hraised
  | raised errorType text =>
      obtain ⟨fields, hfields, h⟩ := bind_eq_ok.mp h
      obtain ⟨error, -, hfields⟩ := bind_eq_ok.mp hfields
      obtain rfl := Except.ok.inj hfields
      obtain rfl := Except.ok.inj h
      rw [Interpreter.Copyable, PyVal.nesting_dict_le, PyDict.ofFields, List.forall_mem_map]
      simp only [List.forall_mem_append, List.forall_mem_cons, PyVal.nesting, List.not_mem_nil,
        IsEmpty.forall_iff, implies_true, and_true, Nat.zero_le, true_and]
      omega

theorem readable_claimed : Readable P (claimed log artifact) artifact ↔ Readable P log artifact :=
  ⟨fun h => ⟨h.earlier, h.failure⟩, fun h => ⟨h.earlier, h.failure⟩⟩

theorem copiedFor_record {frame : ReplayFrame} (hraised : outcome.isReturn = false)
    (hframe : ExecutionFrame artifact outcome frame)
    (hevent : executionEvent P artifact outcome = .ok frame.event) :
    ReplayLog.CopiedFor P { log with frames := log.frames ++ [frame] } artifact.nonce ↔
      Readable P log artifact := by
  rw [ReplayLog.CopiedFor, List.forall_mem_append, List.forall_mem_singleton, hframe.nonce,
    copyable_failure hraised hevent]
  exact ⟨fun h => ⟨h.1, h.2 rfl⟩, fun h => ⟨h.earlier, fun _ => h.failure⟩⟩

theorem audited_record (hnone : log.executionsOf artifact.nonce = [])
    (h : record P log artifact outcome = .ok log') :
    Audited P log' artifact outcome ↔
      (outcome.isReturn = false → artifact.nonce ≠ [] ∧ Readable P log artifact) := by
  obtain ⟨frame, -, hframe, hevent, rfl⟩ := record_eq_ok h
  have hexecutions : ReplayLog.executionsOf { log with frames := log.frames ++ [frame] }
      artifact.nonce = [frame] := by
    rw [ReplayLog.executionsOf_append rfl, hnone]
    simp [isExecutionOf_frame hframe]
  have hfailed : AuthorizationIssuer.checkFailed P { log with frames := log.frames ++ [frame] }
      artifact.nonce = .ok () ↔
        (artifact.nonce ≠ [] ∧ Readable P log artifact) ∧ outcome.isReturn = false := by
    rw [ReplayLog.checkFailed_eq_ok, hexecutions]
    simp only [List.mem_singleton, exists_eq_left, hframe.status]
    cases outcome with
    | returned result => simp [statusOf, HandlerOutcome.isReturn]
    | raised errorType text =>
        rw [copiedFor_record rfl hframe hevent]
        simp [statusOf, HandlerOutcome.isReturn]
  constructor
  · intro haudited hreturn
    exact (hfailed.mp (haudited.compensation.mpr hreturn)).1
  · intro hreadable
    refine ⟨⟨frame, hexecutions, hframe.status⟩, ?_⟩
    rw [hfailed]
    exact ⟨fun hc => hc.2, fun hreturn => ⟨hreadable hreturn, hreturn⟩⟩

theorem not_audited_of_error {action : PyDict → HandlerOutcome} (hlog : log.Sound P)
    (hvalid : validate P boundary log now artifact = .ok ())
    (h : ¬ Auditable P (action artifact.actionRequest)) :
    ¬ Audited P (execute P boundary log now artifact action).log artifact
      (action artifact.actionRequest) := by
  rw [execute_of_validate hvalid]
  cases hrecord : record P (claimed log artifact) artifact (action artifact.actionRequest) with
  | ok recorded => exact absurd ((record_isOk (sealable_of_validate hlog hvalid)).mp ⟨_, hrecord⟩) h
  | error e =>
      rintro ⟨⟨frame, hexecutions, -⟩, -⟩
      rw [executionsOf_claimed hlog hvalid] at hexecutions
      cases hexecutions

theorem demo_sound (hstart : Demo.start = .ok (log, artifact)) : log.Sound referencePrimitives := by
  obtain ⟨payload, frame, -, happend, -⟩ := Demo.authorize_eq_ok hstart
  exact ReplayLog.sound_empty.use (.append happend (by simp [Demo.event, PyDict.getD]))

theorem outcome_audited_iff {action : PyDict → HandlerOutcome} (hlog : log.Sound P)
    (hinvoked : (execute P boundary log now artifact action).invoked = true) :
    Audited P (execute P boundary log now artifact action).log artifact
        (action artifact.actionRequest) ↔
      Auditable P (action artifact.actionRequest) ∧
        ((action artifact.actionRequest).isReturn = false →
          artifact.nonce ≠ [] ∧ Readable P log artifact) := by
  have hvalid := execute_invoked.mp hinvoked
  by_cases hauditable : Auditable P (action artifact.actionRequest)
  · obtain ⟨recorded, hrecord⟩ :=
      (record_isOk (sealable_of_validate hlog hvalid)).mpr hauditable
    rw [execute_of_validate hvalid]
    simp only [hrecord, audited_record (executionsOf_claimed hlog hvalid) hrecord,
      readable_claimed, hauditable, true_and]
  · simp only [not_audited_of_error hlog hvalid hauditable, hauditable, false_and]

-- a handler that fails, whose nonce can be compensated
theorem outcome_audited_iff_demo : ∃ log artifact,
    (execute referencePrimitives Demo.boundary log 0 artifact
        (fun _ => .raised "ValueError" (.ok (lit "boom")))).invoked = true ∧
      (Audited referencePrimitives (execute referencePrimitives Demo.boundary log 0 artifact
          (fun _ => .raised "ValueError" (.ok (lit "boom")))).log artifact
            (.raised "ValueError" (.ok (lit "boom"))) ↔
        Auditable referencePrimitives (.raised "ValueError" (.ok (lit "boom"))) ∧
          (HandlerOutcome.isReturn (.raised "ValueError" (.ok (lit "boom"))) = false →
            artifact.nonce ≠ [] ∧ Readable referencePrimitives log artifact)) := by
  obtain ⟨log, artifact, hstart⟩ := Demo.start_isOk
  have hinvoked : (execute referencePrimitives Demo.boundary log 0 artifact
      (fun _ => .raised "ValueError" (.ok (lit "boom")))).invoked = true :=
    execute_invoked.mpr (Demo.start_validates hstart)
  exact ⟨log, artifact, hinvoked, outcome_audited_iff (demo_sound hstart) hinvoked⟩

def loneSurrogate : CodePoint := ⟨0xD800, by decide⟩

theorem outcome_unaudited :
    ¬ ∀ (P : Primitives) (boundary : ExecutionBoundary) (log : ReplayLog) (now : ℤ)
      (artifact : Artifact) (action : PyDict → HandlerOutcome), log.Sound P →
        (execute P boundary log now artifact action).invoked = true →
          Audited P (execute P boundary log now artifact action).log artifact
            (action artifact.actionRequest) := by
  intro h
  obtain ⟨log, artifact, hstart⟩ := Demo.start_isOk
  have hvalid := Demo.start_validates hstart
  have haudited := h referencePrimitives Demo.boundary log 0 artifact
    (fun _ => .raised "ValueError" (.ok [loneSurrogate])) (demo_sound hstart)
    (execute_invoked.mpr hvalid)
  refine not_audited_of_error (demo_sound hstart) hvalid ?_ haudited
  rintro ⟨s, hs, hclean⟩
  obtain rfl := Except.ok.inj hs
  exact absurd (hclean loneSurrogate (by decide)) (by decide)

end ExecutionBoundary

end GovernedAutonomy
