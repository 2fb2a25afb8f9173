import GovernedAutonomy.Replay

namespace GovernedAutonomy

open Python

structure AuthorizationRecord where
  issued : Bool
  request : PyVal
  decision : PyVal
  artifactPayload : PyVal

structure ExecutionRecord where
  status : PyVal
  result : PyVal
  error : PyVal
  policyId : PyVal

structure DecisionRecord where
  authorization : Option AuthorizationRecord := none
  execution : Option ExecutionRecord := none

structure AuditSummary where
  frameCount : Nat
  authorizationCount : Nat
  executionCount : Nat
  successCount : Nat
  failureCount : Nat
  nonces : List Str
  decisions : List (Str × DecisionRecord)

abbrev Decisions := List (Str × DecisionRecord)

namespace ReplayLog

variable (P : Primitives)

def hasType (name : String) (event : PyDict) : Bool := (event.getD "type").eq (.str (lit name))

def hasStatus (name : String) (event : PyDict) : Bool := (event.getD "status").eq (.str (lit name))

def authorizationRecord (event : PyDict) : AuthorizationRecord where
  issued := ((event.get "issued").getD (.bool false)).truthy
  request := event.getD "request"
  decision := event.getD "decision"
  artifactPayload := event.getD "artifact_payload"

def executionRecord (event : PyDict) : ExecutionRecord where
  status := event.getD "status"
  result := event.getD "result"
  error := event.getD "error"
  policyId := event.getD "policy_id"

def withEvent (record : DecisionRecord) (event : PyDict) : DecisionRecord :=
  if hasType "authorization" event then { record with authorization := authorizationRecord event }
  else { record with execution := executionRecord event }

-- whether reconstruct_decisions looks at the event at all
def isDecision (event : PyDict) : Bool :=
  (hasType "authorization" event || hasType "execution" event) && (event.getD "nonce").truthy

def noteDecision (decisions : Decisions) (event : PyDict) : Result Decisions :=
  if isDecision event then do
    let nonce ← P.str (event.getD "nonce")
    .ok (Dict.set decisions nonce (withEvent ((Dict.get decisions nonce).getD {}) event))
  else .ok decisions

def reconstructDecisions (log : ReplayLog) : Result Decisions := do
  let decisions ← (log.frames.map ReplayFrame.event).foldlM (noteDecision P) []
  .ok (sortedItems decisions)

def isAudit (event : PyDict) : Bool := hasType "authorization" event || hasType "execution" event

def auditTrail (log : ReplayLog) : List PyDict := (log.frames.map ReplayFrame.event).filter isAudit

def hasNonce (event : PyDict) : Bool := (event.getD "nonce").truthy

def summarize (log : ReplayLog) (decisions : Decisions) (authorizations executions : List PyDict) :
    Result AuditSummary := do
  let nonces ← (authorizations ++ executions).mapM (fun event => P.str (event.getD "nonce"))
  .ok
    { frameCount := log.frames.length
      authorizationCount := authorizations.length
      executionCount := executions.length
      successCount := (executions.filter (hasStatus "completed")).length
      failureCount := (executions.filter (hasStatus "failed")).length
      nonces := sortedStrs nonces
      decisions := decisions }

def auditSummary (log : ReplayLog) : Result AuditSummary := do
  let decisions ← log.reconstructDecisions P
  let authorizations ← log.events P (some (lit "authorization"))
  let executions ← log.events P (some (lit "execution"))
  log.summarize P decisions (authorizations.filter hasNonce) (executions.filter hasNonce)

-- the events of a kind that name a nonce
def auditEvents (log : ReplayLog) (name : String) : List PyDict :=
  (log.frames.map ReplayFrame.event).filter (fun event => hasType name event && hasNonce event)

-- every audit event can be copied
def Copied (log : ReplayLog) : Prop := ∀ event ∈ log.auditTrail, P.Copyable event

variable {P} {log : ReplayLog}

theorem events_eq_ok {name : String} {read : List PyDict} (hname : lit name ≠ []) :
    log.events P (some (lit name)) = .ok read ↔
      (∀ event ∈ (log.frames.map ReplayFrame.event).filter (hasType name), P.Copyable event) ∧
        (log.frames.map ReplayFrame.event).filter (hasType name) = read := by
  simp only [events, bind_eq_ok, raiseIf_eq_ok, Option.some.injEq, hname, not_false_eq_true,
    true_and, exists_const, Interpreter.mapM_deepcopy_eq_ok, Option.all_some]
  rfl

theorem copied_iff : log.Copied P ↔
    (∀ event ∈ (log.frames.map ReplayFrame.event).filter (hasType "authorization"),
        P.Copyable event) ∧
      ∀ event ∈ (log.frames.map ReplayFrame.event).filter (hasType "execution"),
        P.Copyable event := by
  simp only [Copied, auditTrail, isAudit, List.mem_filter, Bool.or_eq_true, and_imp]
  constructor
  · intro h
    exact ⟨fun event hmem hkind => h event hmem (.inl hkind),
      fun event hmem hkind => h event hmem (.inr hkind)⟩
  · rintro ⟨hauthorization, hexecution⟩ event hmem (hkind | hkind)
    · exact hauthorization event hmem hkind
    · exact hexecution event hmem hkind

theorem auditSummary_eq_ok_iff {summary : AuditSummary} :
    log.auditSummary P = .ok summary ↔ log.Copied P ∧ ∃ decisions,
      log.reconstructDecisions P = .ok decisions ∧
        log.summarize P decisions (log.auditEvents "authorization")
          (log.auditEvents "execution") = .ok summary := by
  have hfilter : ∀ name, ((log.frames.map ReplayFrame.event).filter (hasType name)).filter
      hasNonce = log.auditEvents name := by
    intro name
    rw [List.filter_filter, auditEvents]
    exact List.filter_congr fun event _ => Bool.and_comm _ _
  simp only [auditSummary, bind_eq_ok, events_eq_ok (show lit "authorization" ≠ [] by decide),
    events_eq_ok (show lit "execution" ≠ [] by decide), copied_iff]
  constructor
  · rintro ⟨decisions, hdecisions, _, ⟨hauthorization, rfl⟩, _, ⟨hexecution, rfl⟩, h⟩
    rw [hfilter, hfilter] at h
    exact ⟨⟨hauthorization, hexecution⟩, decisions, hdecisions, h⟩
  · rintro ⟨⟨hauthorization, hexecution⟩, decisions, hdecisions, h⟩
    rw [← hfilter, ← hfilter] at h
    exact ⟨decisions, hdecisions, _, ⟨hauthorization, rfl⟩, _, ⟨hexecution, rfl⟩, h⟩

end ReplayLog

end GovernedAutonomy
