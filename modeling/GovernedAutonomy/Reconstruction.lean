import GovernedAutonomy.Audit
import GovernedAutonomy.Lifetime
import GovernedAutonomy.Outcome
import GovernedAutonomy.Protocol.Calls
import GovernedAutonomy.Python.Reordered

namespace GovernedAutonomy

open Python Protocol

-- what a call of authorize decided, and the GAA that it returned
structure Ruling where
  nonce : Str
  request : PyDict
  decision : PyDict
  artifact : Option Artifact

inductive AuditFact
  | ruled (ruling : Ruling)
  | ran (nonce : Str) (outcome : HandlerOutcome)

inductive GovernedStep
  | authorize (issuer : AuthorizationIssuer) (now : ℤ) (nonce : Str) (call : AuthorizeCall)
  | execute (boundary : ExecutionBoundary) (now : ℤ) (artifact : Artifact)
      (action : PyDict → HandlerOutcome)

namespace AuthorizationIssuer

variable (P : Primitives) (issuer : AuthorizationIssuer)

-- the ruling of a call whose audit frame went into the log
def ruling (log : ReplayLog) (now : ℤ) (nonce : Str) (call : AuthorizeCall) : Option Ruling :=
  match issuer.admission P call with
  | .error _ => none
  | .ok (request, decision) =>
      match issuer.meshPreflight P log request call.meshInputs with
      | .error _ => none
      | .ok (preflighted, mesh) =>
          let authorization := issuer.authorize P log now nonce call
          if preflighted.frames.length < authorization.log.frames.length then
            some ⟨nonce, request,
              (ruled decision mesh).signedDict (mesh.map GovernancePreflightDecision.digest),
              authorization.result.toOption⟩
          else none

end AuthorizationIssuer

namespace ExecutionBoundary

-- the handler run of a call whose audit frame went into the log
def ran (P : Primitives) (boundary : ExecutionBoundary) (log : ReplayLog) (now : ℤ)
    (artifact : Artifact) (action : PyDict → HandlerOutcome) : Option HandlerOutcome :=
  if log.frames.length < (execute P boundary log now artifact action).log.frames.length then
    some (action artifact.actionRequest)
  else none

end ExecutionBoundary

variable (P : Primitives)

namespace AuthorizationRecord

-- the record of an issued GAA carries its payload, and that of a denial its request
structure Tells (record : AuthorizationRecord) (ruling : Ruling) : Prop where
  issued : record.issued = ruling.artifact.isSome
  decision : record.decision = .dict ruling.decision
  denied : ruling.artifact = none → record.request = .dict ruling.request
  granted : ∀ artifact, ruling.artifact = some artifact →
    artifact.actionRequest = ruling.request ∧ artifact.decision = ruling.decision ∧
      artifact.nonce = ruling.nonce ∧ ∃ payload, artifact.unsignedPayload P = .ok payload ∧
        record.artifactPayload = .str (decode payload)

end AuthorizationRecord

namespace ExecutionRecord

-- results up to 4096 bytes of JSON, and the first 512 characters of an error
def toldResult : HandlerOutcome → PyVal
  | .returned result =>
      match canonicalJson P result with
      | .ok encoded => if encoded.utf8ByteSize ≤ 4096 then result else .none
      | .error _ => .none
  | .raised _ _ => .none

def toldError : HandlerOutcome → PyVal
  | .returned _ => .none
  | .raised _ text => (text.toOption.map (fun s => PyVal.str (s.take 512))).getD .none

structure Tells (record : ExecutionRecord) (outcome : HandlerOutcome) : Prop where
  status : record.status = .str (lit (ExecutionBoundary.statusOf outcome))
  result : record.result = toldResult P outcome
  error : record.error = toldError outcome

end ExecutionRecord

namespace AuditFact

-- an audit event that says what happened
inductive Shown : PyDict → AuditFact → Prop
  | ruled {event : PyDict} {ruling : Ruling} (hkind : event.getD "type" = .str "authorization")
      (hnonce : event.getD "nonce" = .str ruling.nonce)
      (htells : (ReplayLog.authorizationRecord event).Tells P ruling) : Shown event (.ruled ruling)
  | ran {event : PyDict} {nonce : Str} {outcome : HandlerOutcome}
      (hkind : event.getD "type" = .str "execution") (hnonce : event.getD "nonce" = .str nonce)
      (htells : (ReplayLog.executionRecord event).Tells P outcome) :
      Shown event (.ran nonce outcome)

end AuditFact

section Writers

variable {P} {log : ReplayLog} {now : ℤ} {artifact : Artifact} {outcome : HandlerOutcome}
  {event : PyDict}

theorem toldResult_of_audit {result : PyVal} {fields : List (String × PyVal)}
    (h : ExecutionBoundary.resultAudit P result = .ok fields) :
    ((PyDict.ofFields fields).get "result").getD .none =
        ExecutionRecord.toldResult P (.returned result) ∧
      (PyDict.ofFields fields).get "error" = none := by
  unfold ExecutionBoundary.resultAudit at h
  unfold ExecutionRecord.toldResult
  split at h
  · rename_i e hjson
    split at h
    · obtain rfl := Except.ok.inj h
      simp [hjson]
    · cases h
  · rename_i encoded hjson
    obtain rfl := Except.ok.inj h
    by_cases hsmall : encoded.utf8ByteSize ≤ 4096
    · simp [hjson, hsmall]
    · simp [hjson, hsmall]

theorem told_of_outcomeFields {fields : List (String × PyVal)}
    (h : ExecutionBoundary.outcomeFields P outcome = .ok fields) :
    (PyDict.ofFields fields).getD "result" = ExecutionRecord.toldResult P outcome ∧
      (PyDict.ofFields fields).getD "error" = ExecutionRecord.toldError outcome := by
  cases outcome with
  | returned result =>
      obtain ⟨hresult, herror⟩ := toldResult_of_audit h
      exact ⟨hresult, PyDict.getD_of_get_none herror⟩
  | raised errorType text =>
      obtain ⟨s, rfl, h⟩ := bind_eq_ok.mp h
      obtain rfl := Except.ok.inj h
      constructor
      · simp [PyDict.getD, ExecutionRecord.toldResult]
      · simp [PyDict.getD, ExecutionRecord.toldError, Except.toOption]

theorem shown_of_executionEvent
    (h : ExecutionBoundary.executionEvent P artifact outcome = .ok event) :
    AuditFact.Shown P event (.ran artifact.nonce outcome) := by
  obtain ⟨fields, hfields, h⟩ := bind_eq_ok.mp h
  obtain rfl := Except.ok.inj h
  obtain ⟨hresult, herror⟩ := told_of_outcomeFields hfields
  refine .ran ?_ ?_ ⟨?_, ?_, ?_⟩
  · simp [PyDict.getD]
  · simp [PyDict.getD]
  · simp [ReplayLog.executionRecord, PyDict.getD]
  · rw [← hresult]
    simp [ReplayLog.executionRecord, PyDict.getD]
  · rw [← herror]
    simp [ReplayLog.executionRecord, PyDict.getD]

-- an execute that appends a frame, and one that does not
theorem ran_cases {boundary : ExecutionBoundary} {action : PyDict → HandlerOutcome} :
    (ExecutionBoundary.ran P boundary log now artifact action = none ∧
      (ExecutionBoundary.execute P boundary log now artifact action).log.frames = log.frames) ∨
    ∃ frame, ExecutionBoundary.ran P boundary log now artifact action =
        some (action artifact.actionRequest) ∧
      (ExecutionBoundary.execute P boundary log now artifact action).log.frames =
        log.frames ++ [frame] ∧
      AuditFact.Shown P frame.event (.ran artifact.nonce (action artifact.actionRequest)) := by
  cases hvalid : ExecutionBoundary.validate P boundary log now artifact with
  | error e => simp [ExecutionBoundary.ran, ExecutionBoundary.execute, hvalid]
  | ok u =>
      have hexecute :=
        @ExecutionBoundary.execute_of_validate P boundary log now artifact action hvalid
      cases hrecord : ExecutionBoundary.record P (ExecutionBoundary.claimed log artifact) artifact
          (action artifact.actionRequest) with
      | error e =>
          rw [hrecord] at hexecute
          left
          rw [ExecutionBoundary.ran, hexecute]
          exact ⟨if_neg (lt_irrefl _), rfl⟩
      | ok recorded =>
          rw [hrecord] at hexecute
          simp only [ExecutionBoundary.record, bind_eq_ok] at hrecord
          obtain ⟨event, hevent, ⟨log', frame⟩, happend, hlog⟩ := hrecord
          obtain rfl := Except.ok.inj hlog
          obtain ⟨hcreate, rfl⟩ := (ReplayLog.append_eq_ok P).mp happend
          obtain ⟨-, -, rfl, -⟩ := (ReplayFrame.create_eq_ok P).mp hcreate
          right
          refine ⟨frame, ?_, ?_, shown_of_executionEvent hevent⟩
          · rw [ExecutionBoundary.ran, hexecute]
            simp [ExecutionBoundary.claimed]
          · rw [hexecute]
            rfl

variable {issuer : AuthorizationIssuer} {nonce : Str} {call : AuthorizeCall}

theorem shown_of_deniedEvent {request decision : PyDict} :
    AuditFact.Shown P (AuthorizationIssuer.deniedEvent nonce request decision)
      (.ruled ⟨nonce, request, decision, none⟩) := by
  refine .ruled ?_ ?_ ⟨?_, ?_, ?_, ?_⟩
  · simp [AuthorizationIssuer.deniedEvent, PyDict.getD]
  · simp [AuthorizationIssuer.deniedEvent, PyDict.getD]
  · simp [AuthorizationIssuer.deniedEvent, ReplayLog.authorizationRecord, PyVal.truthy]
  · simp [AuthorizationIssuer.deniedEvent, ReplayLog.authorizationRecord, PyDict.getD]
  · simp [AuthorizationIssuer.deniedEvent, ReplayLog.authorizationRecord, PyDict.getD]
  · simp

theorem shown_of_issuedEvent {unsigned : Artifact} {inputs : List GovernanceInput}
    {mesh : Option GovernancePreflightDecision} (signature : Str)
    (h : AuthorizationIssuer.issuedEvent P unsigned inputs mesh = .ok event) :
    AuditFact.Shown P event (.ruled ⟨unsigned.nonce, unsigned.actionRequest, unsigned.decision,
      some { unsigned with signature := signature }⟩) := by
  simp only [AuthorizationIssuer.issuedEvent, bind_eq_ok] at h
  obtain ⟨payload, hpayload, evidence, -, h⟩ := h
  obtain rfl := Except.ok.inj h
  refine .ruled ?_ ?_ ⟨?_, ?_, ?_, ?_⟩
  · simp [PyDict.getD]
  · simp [PyDict.getD]
  · simp [ReplayLog.authorizationRecord, PyVal.truthy]
  · simp [ReplayLog.authorizationRecord, PyDict.getD]
  · simp
  · rintro artifact hartifact
    obtain rfl := Option.some.inj hartifact
    refine ⟨rfl, rfl, rfl, payload, hpayload, ?_⟩
    simp [ReplayLog.authorizationRecord, PyDict.getD]

theorem refuse_cases {request : PyDict} {decision : Decision} {meshDigest : Option Str} :
    (AuthorizationIssuer.refuse P log nonce request decision meshDigest).result.toOption = none ∧
      ((AuthorizationIssuer.refuse P log nonce request decision meshDigest).log = log ∨
        ∃ frame, (AuthorizationIssuer.refuse P log nonce request decision meshDigest).log.frames =
            log.frames ++ [frame] ∧
          frame.event =
            AuthorizationIssuer.deniedEvent nonce request (decision.signedDict meshDigest)) := by
  unfold AuthorizationIssuer.refuse
  split
  · exact ⟨rfl, Or.inl rfl⟩
  · rename_i log' frame happend
    obtain ⟨hcreate, rfl⟩ := (ReplayLog.append_eq_ok P).mp happend
    exact ⟨rfl, Or.inr ⟨frame, rfl, ((ReplayFrame.create_eq_ok P).mp hcreate).2.2.1⟩⟩

theorem grant_cases {signer : Signer} {unsigned : Artifact} {inputs : List GovernanceInput}
    {mesh : Option GovernancePreflightDecision} (hkey : unsigned.issuerKeyId = signer.keyId) :
    ((AuthorizationIssuer.grant P signer log unsigned inputs mesh).log = log ∧
      (AuthorizationIssuer.grant P signer log unsigned inputs mesh).result.toOption = none) ∨
    ∃ frame signature, (AuthorizationIssuer.grant P signer log unsigned inputs mesh).log.frames =
        log.frames ++ [frame] ∧
      AuthorizationIssuer.issuedEvent P unsigned inputs mesh = .ok frame.event ∧
      (AuthorizationIssuer.grant P signer log unsigned inputs mesh).result =
        .ok { unsigned with signature := signature } := by
  unfold AuthorizationIssuer.grant
  cases hevent : AuthorizationIssuer.issuedEvent P unsigned inputs mesh with
  | error e => exact Or.inl ⟨rfl, rfl⟩
  | ok event =>
      cases happend : log.append P (AuthorizationIssuer.authorizationFrameId unsigned.nonce)
          event with
      | error e => exact Or.inl (by simp [happend, Except.toOption])
      | ok result =>
          obtain ⟨log', frame⟩ := result
          obtain ⟨hcreate, rfl⟩ := (ReplayLog.append_eq_ok P).mp happend
          obtain ⟨-, -, rfl, -⟩ := (ReplayFrame.create_eq_ok P).mp hcreate
          obtain ⟨payload, hpayload, -⟩ := bind_eq_ok.mp hevent
          have hissue : GovernanceAuthorizationArtifact.issue P unsigned.actionRequest
              unsigned.decision unsigned.expiresAt unsigned.nonce unsigned.replayFrameRef signer =
                .ok { unsigned with signature := signer.sign payload } := by
            have hunsigned : GovernanceAuthorizationArtifact.unsignedPayload P
                ⟨unsigned.actionRequest, unsigned.decision, unsigned.expiresAt, unsigned.nonce,
                  unsigned.replayFrameRef, signer.keyId, []⟩ = .ok payload := by
              rw [← hkey]
              exact hpayload
            rw [GovernanceAuthorizationArtifact.issue, hunsigned, ← hkey]
            rfl
          right
          simp only [happend, hissue]
          exact ⟨frame, _, rfl, rfl, rfl⟩

-- a settlement that appends its frame, and one that neither appends nor returns a GAA
theorem settle_cases {request : PyDict} {decision : Decision}
    {mesh : Option GovernancePreflightDecision} :
    ((issuer.settle P log now nonce call request decision mesh).log = log ∧
      (issuer.settle P log now nonce call request decision mesh).result.toOption = none) ∨
    ∃ frame, (issuer.settle P log now nonce call request decision mesh).log.frames =
        log.frames ++ [frame] ∧
      AuditFact.Shown P frame.event (.ruled ⟨nonce, request,
        (AuthorizationIssuer.ruled decision mesh).signedDict
          (mesh.map GovernancePreflightDecision.digest),
        (issuer.settle P log now nonce call request decision mesh).result.toOption⟩) := by
  simp only [AuthorizationIssuer.settle]
  split
  · rcases @grant_cases P log issuer.issuer ⟨request, (AuthorizationIssuer.ruled decision
        mesh).signedDict (mesh.map GovernancePreflightDecision.digest), .int (now + call.ttlSeconds), nonce,
        AuthorizationIssuer.authorizationFrameId nonce, issuer.issuer.keyId, []⟩ call.meshInputs mesh
        rfl with hnone | ⟨frame, signature, hframes, hevent, hresult⟩
    · exact Or.inl hnone
    · right
      refine ⟨frame, hframes, ?_⟩
      rw [hresult]
      exact shown_of_issuedEvent signature hevent
  · obtain ⟨hresult, hlog | ⟨frame, hframes, hevent⟩⟩ := @refuse_cases P log nonce request
      (AuthorizationIssuer.ruled decision mesh) (mesh.map GovernancePreflightDecision.digest)
    · exact Or.inl ⟨hlog, hresult⟩
    · right
      refine ⟨frame, hframes, ?_⟩
      rw [hresult, hevent]
      exact shown_of_deniedEvent

theorem preflight_frames {log' : ReplayLog} {request : PyDict} {inputs : List GovernanceInput}
    {mesh : Option GovernancePreflightDecision}
    (h : issuer.meshPreflight P log request inputs = .ok (log', mesh)) :
    ∃ frames, log'.frames = log.frames ++ frames ∧
      ∀ frame ∈ frames, PyDict.getD frame.event "type" = .str "governance_preflight" := by
  unfold AuthorizationIssuer.meshPreflight at h
  split at h
  · obtain ⟨rfl, -⟩ := Prod.mk.inj (Except.ok.inj h)
    exact ⟨[], by simp, by simp⟩
  · obtain ⟨requestDigest, -, h⟩ := bind_eq_ok.mp h
    split at h
    · simp only [GovernanceMesh.preflight, bind_eq_ok] at h
      obtain ⟨result, ⟨preflight, -, ⟨log'', frame⟩, happend, hresult⟩, h⟩ := h
      obtain rfl := Except.ok.inj hresult
      obtain ⟨rfl, -⟩ := Prod.mk.inj (Except.ok.inj h)
      obtain ⟨hcreate, rfl⟩ := (ReplayLog.append_eq_ok P).mp happend
      refine ⟨[frame], rfl, ?_⟩
      rw [List.forall_mem_singleton, ((ReplayFrame.create_eq_ok P).mp hcreate).2.2.1]
      simp [GovernanceMesh.preflightEvent, PyDict.getD]
    · obtain ⟨preflight, -, h⟩ := bind_eq_ok.mp h
      obtain ⟨rfl, -⟩ := Prod.mk.inj (Except.ok.inj h)
      exact ⟨[], by simp, by simp⟩

-- what authorize appends: at most a preflight frame, and the frame of its ruling
theorem ruling_cases : ∃ preflights frames,
    (issuer.authorize P log now nonce call).log.frames = log.frames ++ preflights ++ frames ∧
    (∀ frame ∈ preflights, PyDict.getD frame.event "type" = .str "governance_preflight") ∧
    List.Forall₂ (fun frame fact => AuditFact.Shown P (ReplayFrame.event frame) fact) frames
      ((issuer.ruling P log now nonce call).map AuditFact.ruled).toList := by
  unfold AuthorizationIssuer.ruling AuthorizationIssuer.authorize
  cases hadmission : issuer.admission P call with
  | error e => exact ⟨[], [], by simp, by simp, .nil⟩
  | ok admitted =>
      obtain ⟨request, decision⟩ := admitted
      cases hmesh : issuer.meshPreflight P log request call.meshInputs with
      | error e =>
          simp only [hmesh]
          exact ⟨[], [], by simp, by simp, .nil⟩
      | ok result =>
          obtain ⟨middle, mesh⟩ := result
          obtain ⟨preflights, hmiddle, hkinds⟩ := preflight_frames hmesh
          simp only [hmesh]
          rcases @settle_cases P middle now issuer nonce call request decision mesh with
            ⟨hlog, hresult⟩ | ⟨frame, hframes, hshown⟩
          · refine ⟨preflights, [], ?_, hkinds, ?_⟩
            · rw [hlog, hmiddle, List.append_nil]
            · rw [hlog, if_neg (lt_irrefl _)]
              exact .nil
          · refine ⟨preflights, [frame], ?_, hkinds, ?_⟩
            · rw [hframes, hmiddle]
            · rw [if_pos (by simp [hframes])]
              exact .cons hshown .nil

-- a GAA that a call has returned is in the audit trail
theorem ruling_of_issued (h : (issuer.authorize P log now nonce call).result = .ok artifact) :
    ∃ ruling, issuer.ruling P log now nonce call = some ruling ∧
      ruling.artifact = some artifact := by
  unfold AuthorizationIssuer.authorize at h
  unfold AuthorizationIssuer.ruling AuthorizationIssuer.authorize
  cases hadmission : issuer.admission P call with
  | error e =>
      rw [hadmission] at h
      cases h
  | ok admitted =>
      obtain ⟨request, decision⟩ := admitted
      simp only [hadmission] at h ⊢
      cases hmesh : issuer.meshPreflight P log request call.meshInputs with
      | error e =>
          rw [hmesh] at h
          cases h
      | ok result =>
          obtain ⟨middle, mesh⟩ := result
          simp only [hmesh] at h ⊢
          rcases @settle_cases P middle now issuer nonce call request decision mesh with
            ⟨-, hresult⟩ | ⟨frame, hframes, -⟩
          · rw [h] at hresult
            cases hresult
          · refine ⟨_, if_pos (by simp [hframes]), ?_⟩
            rw [h]
            rfl

-- a denial is in the audit trail whenever its frame can be built
theorem ruling_of_denied {request : PyDict} {decision : Decision} {middle : ReplayLog}
    {mesh : Option GovernancePreflightDecision}
    (hadmission : issuer.admission P call = .ok (request, decision))
    (hmesh : issuer.meshPreflight P log request call.meshInputs = .ok (middle, mesh))
    (hdenied : (AuthorizationIssuer.ruled decision mesh).allow = false) :
    (issuer.ruling P log now nonce call).isSome = true ↔
      ∃ frame, ReplayFrame.create P (AuthorizationIssuer.authorizationFrameId nonce)
        middle.headHash (AuthorizationIssuer.deniedEvent nonce request
          ((AuthorizationIssuer.ruled decision mesh).signedDict
            (mesh.map GovernancePreflightDecision.digest))) = .ok frame := by
  have hauthorize : (issuer.authorize P log now nonce call).log =
      (AuthorizationIssuer.refuse P middle nonce request (AuthorizationIssuer.ruled decision mesh)
        (mesh.map GovernancePreflightDecision.digest)).log := by
    simp only [AuthorizationIssuer.authorize, hadmission, hmesh, AuthorizationIssuer.settle, hdenied,
      Bool.false_eq_true, if_false]
  simp only [AuthorizationIssuer.ruling, hadmission, hmesh, hauthorize, AuthorizationIssuer.refuse]
  rw [← ReplayLog.append_isOk]
  split
  · rename_i e happend
    simp [happend]
  · rename_i log' frame happend
    obtain ⟨-, rfl⟩ := (ReplayLog.append_eq_ok P).mp happend
    simp [happend]

end Writers

namespace AuditFact

def nonce : AuditFact → Str
  | .ruled ruling => ruling.nonce
  | .ran nonce _ => nonce

def rulingOn (nonce : Str) : AuditFact → Option Ruling
  | .ruled ruling => if ruling.nonce = nonce then some ruling else none
  | .ran _ _ => none

def runOf (nonce : Str) : AuditFact → Option HandlerOutcome
  | .ruled _ => none
  | .ran nonce' outcome => if nonce' = nonce then some outcome else none

def lastRuling (facts : List AuditFact) (nonce : Str) : Option Ruling :=
  (facts.filterMap (rulingOn nonce)).getLast?

def lastRun (facts : List AuditFact) (nonce : Str) : Option HandlerOutcome :=
  (facts.filterMap (runOf nonce)).getLast?

def isRuling (fact : AuditFact) : Bool :=
  match fact with
  | .ruled ruling => decide (ruling.nonce ≠ [])
  | .ran _ _ => false

def isRun (test : HandlerOutcome → Bool) (fact : AuditFact) : Bool :=
  match fact with
  | .ruled _ => false
  | .ran nonce outcome => decide (nonce ≠ []) && test outcome

end AuditFact

namespace ReplayLog

def authorizationOf (decisions : Decisions) (nonce : Str) : Option AuthorizationRecord :=
  (Dict.get decisions nonce).bind DecisionRecord.authorization

def executionOf (decisions : Decisions) (nonce : Str) : Option ExecutionRecord :=
  (Dict.get decisions nonce).bind DecisionRecord.execution

-- the reconstruction says of each nonce what the last calls on it did
structure Describes (decisions : Decisions) (facts : List AuditFact) : Prop where
  authorization : ∀ nonce ≠ [], Option.Rel (AuthorizationRecord.Tells P)
    (authorizationOf decisions nonce) (AuditFact.lastRuling facts nonce)
  execution : ∀ nonce ≠ [], Option.Rel (ExecutionRecord.Tells P)
    (executionOf decisions nonce) (AuditFact.lastRun facts nonce)

section Readers

variable {P} {decisions : Decisions} {facts : List AuditFact} {event : PyDict} {fact : AuditFact}

theorem lastRuling_snoc (facts : List AuditFact) (fact : AuditFact) (nonce : Str) :
    AuditFact.lastRuling (facts ++ [fact]) nonce =
      (AuditFact.rulingOn nonce fact).or (AuditFact.lastRuling facts nonce) := by
  rw [AuditFact.lastRuling, List.filterMap_append]
  cases h : AuditFact.rulingOn nonce fact with
  | none => simp [h, AuditFact.lastRuling]
  | some ruling => simp [h]

theorem lastRun_snoc (facts : List AuditFact) (fact : AuditFact) (nonce : Str) :
    AuditFact.lastRun (facts ++ [fact]) nonce =
      (AuditFact.runOf nonce fact).or (AuditFact.lastRun facts nonce) := by
  rw [AuditFact.lastRun, List.filterMap_append]
  cases h : AuditFact.runOf nonce fact with
  | none => simp [h, AuditFact.lastRun]
  | some outcome => simp [h]

theorem hasType_eq {name : String} (h : event.getD "type" = .str (lit name)) (other : String) :
    hasType other event = decide (name = other) := by
  rw [Bool.eq_iff_iff, hasType, PyVal.eq_str_right, h, decide_eq_true_eq, PyVal.str.injEq, lit_inj]

theorem noteDecision_eq {nonce : Str}
    (hkind : (hasType "authorization" event || hasType "execution" event) = true)
    (hnonce : event.getD "nonce" = .str nonce) :
    noteDecision P decisions event = .ok (if nonce = [] then decisions
      else Dict.set decisions nonce (withEvent ((Dict.get decisions nonce).getD {}) event)) := by
  rw [noteDecision, isDecision, hkind, hnonce, Bool.true_and]
  by_cases hempty : nonce = []
  · simp [PyVal.truthy, hempty]
  · simp only [PyVal.truthy, hempty, not_false_eq_true, decide_true, if_true, Interpreter.str, bind,
      Except.bind, if_false, ne_eq]

theorem rulingOn_of_ne {nonce : Str} (h : fact.nonce ≠ nonce) :
    AuditFact.rulingOn nonce fact = none := by
  cases fact with
  | ruled ruling => exact if_neg h
  | ran n outcome => rfl

theorem runOf_of_ne {nonce : Str} (h : fact.nonce ≠ nonce) : AuditFact.runOf nonce fact = none := by
  cases fact with
  | ruled ruling => rfl
  | ran n outcome => exact if_neg h

theorem Describes.skip (h : Describes P decisions facts) (hempty : fact.nonce = []) :
    Describes P decisions (facts ++ [fact]) := by
  constructor
  · intro nonce hnonce
    rw [lastRuling_snoc, rulingOn_of_ne (by rw [hempty]; exact hnonce.symm)]
    exact h.authorization nonce hnonce
  · intro nonce hnonce
    rw [lastRun_snoc, runOf_of_ne (by rw [hempty]; exact hnonce.symm)]
    exact h.execution nonce hnonce

theorem Describes.set {record : DecisionRecord} (h : Describes P decisions facts)
    (hauthorization : Option.Rel (AuthorizationRecord.Tells P) record.authorization
      ((AuditFact.rulingOn fact.nonce fact).or (AuditFact.lastRuling facts fact.nonce)))
    (hexecution : Option.Rel (ExecutionRecord.Tells P) record.execution
      ((AuditFact.runOf fact.nonce fact).or (AuditFact.lastRun facts fact.nonce))) :
    Describes P (Dict.set decisions fact.nonce record) (facts ++ [fact]) := by
  constructor
  · intro nonce hnonce
    rw [lastRuling_snoc, authorizationOf, Dict.get_set_eq]
    by_cases hsame : fact.nonce = nonce
    · rw [if_pos hsame, ← hsame]
      exact hauthorization
    · rw [if_neg hsame, rulingOn_of_ne hsame]
      exact h.authorization nonce hnonce
  · intro nonce hnonce
    rw [lastRun_snoc, executionOf, Dict.get_set_eq]
    by_cases hsame : fact.nonce = nonce
    · rw [if_pos hsame, ← hsame]
      exact hexecution
    · rw [if_neg hsame, runOf_of_ne hsame]
      exact h.execution nonce hnonce

-- an event that shows a fact leaves the reconstruction right about that fact too
theorem Describes.note (h : Describes P decisions facts) (hdistinct : Dict.Distinct decisions)
    (hshown : AuditFact.Shown P event fact) :
    ∃ decisions', noteDecision P decisions event = .ok decisions' ∧ Dict.Distinct decisions' ∧
      Describes P decisions' (facts ++ [fact]) := by
  cases hshown with
  | @ruled ruling hkind hnonce htells =>
      have hauthorization : hasType "authorization" event = true := by simp [hasType_eq hkind]
      rw [noteDecision_eq (by rw [hauthorization, Bool.true_or]) hnonce]
      refine ⟨_, rfl, ?_, ?_⟩
      · split
        · exact hdistinct
        · exact Dict.distinct_set hdistinct _ _
      · split
        · rename_i hempty
          exact h.skip hempty
        · rename_i hne
          refine @Describes.set P decisions facts (.ruled ruling) _ h ?_ ?_
          · simp only [withEvent, hauthorization, if_true, AuditFact.rulingOn, AuditFact.nonce,
              Option.some_or]
            exact .some htells
          · have hbefore := h.execution ruling.nonce hne
            simp only [withEvent, hauthorization, if_true, AuditFact.runOf, AuditFact.nonce,
              Option.none_or]
            rw [executionOf] at hbefore
            cases hget : Dict.get decisions ruling.nonce with
            | none =>
                rw [hget] at hbefore
                exact hbefore
            | some record =>
                rw [hget] at hbefore
                exact hbefore
  | @ran nonce outcome hkind hnonce htells =>
      have hauthorization : hasType "authorization" event = false := by simp [hasType_eq hkind]
      have hexecution : hasType "execution" event = true := by simp [hasType_eq hkind]
      rw [noteDecision_eq (by rw [hexecution, Bool.or_true]) hnonce]
      refine ⟨_, rfl, ?_, ?_⟩
      · split
        · exact hdistinct
        · exact Dict.distinct_set hdistinct _ _
      · split
        · rename_i hempty
          exact h.skip hempty
        · rename_i hne
          refine @Describes.set P decisions facts (.ran nonce outcome) _ h ?_ ?_
          · have hbefore := h.authorization nonce hne
            simp only [withEvent, hauthorization, Bool.false_eq_true, if_false, AuditFact.rulingOn,
              AuditFact.nonce, Option.none_or]
            rw [authorizationOf] at hbefore
            cases hget : Dict.get decisions nonce with
            | none =>
                rw [hget] at hbefore
                exact hbefore
            | some record =>
                rw [hget] at hbefore
                exact hbefore
          · simp only [withEvent, hauthorization, Bool.false_eq_true, if_false, AuditFact.runOf,
              AuditFact.nonce, if_true, Option.some_or]
            exact .some htells

theorem foldlM_trail (events : List PyDict) (decisions : Decisions) :
    events.foldlM (noteDecision P) decisions =
      (events.filter isAudit).foldlM (noteDecision P) decisions := by
  induction events generalizing decisions with
  | nil => rfl
  | cons event events ih =>
      cases haudit : isAudit event with
      | true =>
          rw [List.filter_cons_of_pos haudit, List.foldlM_cons, List.foldlM_cons]
          exact bind_congr fun decisions' => ih decisions'
      | false =>
          have hskip : noteDecision P decisions event = .ok decisions := by
            rw [noteDecision, isDecision, show (hasType "authorization" event ||
              hasType "execution" event) = false from haudit, Bool.false_and]
            rfl
          rw [List.filter_cons_of_neg (by simp [haudit]), List.foldlM_cons, hskip]
          exact ih decisions

theorem Describes.fold {events : List PyDict} {facts' : List AuditFact}
    (hshown : List.Forall₂ (AuditFact.Shown P) events facts') (h : Describes P decisions facts)
    (hdistinct : Dict.Distinct decisions) :
    ∃ decisions', events.foldlM (noteDecision P) decisions = .ok decisions' ∧
      Dict.Distinct decisions' ∧ Describes P decisions' (facts ++ facts') := by
  induction hshown generalizing decisions facts with
  | nil =>
      rw [List.append_nil]
      exact ⟨decisions, rfl, hdistinct, h⟩
  | @cons event fact events facts' hhead _ ih =>
      obtain ⟨middle, hnote, hmiddle, hdescribes⟩ := h.note hdistinct hhead
      obtain ⟨decisions', hfold, hdistinct', hdescribes'⟩ := ih hdescribes hmiddle
      refine ⟨decisions', ?_, hdistinct', ?_⟩
      · rw [List.foldlM_cons, hnote]
        exact hfold
      · rwa [List.append_assoc, List.singleton_append] at hdescribes'

theorem describes_nil : Describes P [] [] := ⟨fun _ _ => .none, fun _ _ => .none⟩

theorem reconstruct_eq_ok {log : ReplayLog}
    (h : List.Forall₂ (AuditFact.Shown P) log.auditTrail facts) :
    ∃ decisions, log.reconstructDecisions P = .ok decisions ∧ Describes P decisions facts := by
  obtain ⟨decisions, hfold, hdistinct, hdescribes⟩ := describes_nil.fold h List.Pairwise.nil
  rw [List.nil_append] at hdescribes
  have hperm : decisions.Perm (sortedItems decisions) := (List.perm_insertionSort _ _).symm
  refine ⟨sortedItems decisions, ?_, ?_, ?_⟩
  · rw [reconstructDecisions, foldlM_trail]
    exact bind_eq_ok.mpr ⟨decisions, hfold, rfl⟩
  · intro nonce hnonce
    rw [authorizationOf, ← Dict.get_perm hdistinct hperm]
    exact hdescribes.authorization nonce hnonce
  · intro nonce hnonce
    rw [executionOf, ← Dict.get_perm hdistinct hperm]
    exact hdescribes.execution nonce hnonce

theorem exists_of_forall₂ {α β : Type} {r : α → β → Prop} {xs : List α} {ys : List β}
    (h : List.Forall₂ r xs ys) {x : α} (hx : x ∈ xs) : ∃ y, r x y := by
  induction h with
  | nil => cases hx
  | @cons x' y' xs ys hxy _ ih =>
      rcases List.mem_cons.mp hx with rfl | hx
      · exact ⟨y', hxy⟩
      · exact ih hx

theorem length_filter_of_forall₂ {α β : Type} {r : α → β → Prop} {p : α → Bool} {q : β → Bool}
    {xs : List α} {ys : List β} (h : List.Forall₂ r xs ys) (hpq : ∀ x y, r x y → p x = q y) :
    (xs.filter p).length = (ys.filter q).length := by
  induction h with
  | nil => rfl
  | @cons x y xs ys hxy _ ih =>
      rw [List.filter_cons, List.filter_cons, hpq x y hxy]
      split
      · rw [List.length_cons, List.length_cons, ih]
      · exact ih

theorem mapM_isOk {α β : Type} {f : α → Result β} {xs : List α} (h : ∀ x ∈ xs, ∃ y, f x = .ok y) :
    ∃ ys, xs.mapM f = .ok ys := by
  induction xs with
  | nil => exact ⟨[], rfl⟩
  | cons x xs ih =>
      obtain ⟨⟨y, hy⟩, hrest⟩ := List.forall_mem_cons.mp h
      obtain ⟨ys, hys⟩ := ih hrest
      refine ⟨y :: ys, ?_⟩
      rw [List.mapM_cons, hy, hys]
      rfl

theorem auditEvents_trail (log : ReplayLog) {name : String}
    (h : name = "authorization" ∨ name = "execution") :
    log.auditEvents name = log.auditTrail.filter
      (fun event => hasType name event && hasNonce event) := by
  rw [auditEvents, auditTrail, List.filter_filter]
  refine List.filter_congr ?_
  intro event _
  rcases h with rfl | rfl
  · cases hkind : hasType "authorization" event <;> simp [isAudit, hkind]
  · cases hkind : hasType "execution" event <;> simp [isAudit, hkind]

theorem shown_nonce (h : AuditFact.Shown P event fact) :
    event.getD "nonce" = .str fact.nonce := by
  cases h with
  | ruled _ hnonce _ => exact hnonce
  | ran _ hnonce _ => exact hnonce

theorem truthy_str {s : Str} : (PyVal.str s).truthy = true ↔ s ≠ [] := decide_eq_true_iff

theorem shown_authorization (h : AuditFact.Shown P event fact) :
    (hasType "authorization" event && hasNonce event) = fact.isRuling := by
  rw [hasNonce, shown_nonce h, Bool.eq_iff_iff]
  cases h with
  | ruled hkind _ _ => simp [hasType_eq hkind, truthy_str, AuditFact.isRuling, AuditFact.nonce]
  | ran hkind _ _ => simp [hasType_eq hkind, AuditFact.isRuling]

theorem shown_execution (h : AuditFact.Shown P event fact) :
    (hasType "execution" event && hasNonce event) = fact.isRun (fun _ => true) := by
  rw [hasNonce, shown_nonce h, Bool.eq_iff_iff]
  cases h with
  | ruled hkind _ _ => simp [hasType_eq hkind, AuditFact.isRun]
  | ran hkind _ _ => simp [hasType_eq hkind, truthy_str, AuditFact.isRun, AuditFact.nonce]

theorem shown_status {name : String} {test : HandlerOutcome → Bool}
    (htest : ∀ outcome, decide (ExecutionBoundary.statusOf outcome = name) = test outcome)
    (h : AuditFact.Shown P event fact) :
    (hasStatus name event && (hasType "execution" event && hasNonce event)) =
      fact.isRun test := by
  rw [shown_execution h]
  cases h with
  | ruled hkind _ _ => simp [AuditFact.isRun]
  | @ran nonce outcome _ _ htells =>
      have hstatus : hasStatus name event = test outcome := by
        rw [← htest outcome, Bool.eq_iff_iff, hasStatus, PyVal.eq_str_right, decide_eq_true_eq,
          show event.getD "status" = _ from htells.status, PyVal.str.injEq, lit_inj]
      rw [hstatus, AuditFact.isRun, AuditFact.isRun, Bool.and_true, Bool.and_comm]

-- the counts of the summary, from the facts that the trail shows
structure Counts (summary : AuditSummary) (log : ReplayLog) (facts : List AuditFact) : Prop where
  frames : summary.frameCount = log.frames.length
  authorizations : summary.authorizationCount = (facts.filter AuditFact.isRuling).length
  executions : summary.executionCount = (facts.filter (AuditFact.isRun fun _ => true)).length
  successes : summary.successCount =
    (facts.filter (AuditFact.isRun HandlerOutcome.isReturn)).length
  failures : summary.failureCount =
    (facts.filter (AuditFact.isRun fun outcome => !outcome.isReturn)).length

theorem exists_nonces {log : ReplayLog}
    (h : List.Forall₂ (AuditFact.Shown P) log.auditTrail facts) :
    ∃ nonces, (log.auditEvents "authorization" ++ log.auditEvents "execution").mapM
      (fun event => P.str (PyDict.getD event "nonce")) = .ok nonces := by
  refine mapM_isOk ?_
  intro event hevent
  have htrail : event ∈ log.auditTrail := by
    rw [auditEvents_trail log (Or.inl rfl), auditEvents_trail log (Or.inr rfl),
      List.mem_append] at hevent
    rcases hevent with hevent | hevent
    · exact List.mem_of_mem_filter hevent
    · exact List.mem_of_mem_filter hevent
  obtain ⟨fact, hshown⟩ := exists_of_forall₂ h htrail
  rw [shown_nonce hshown]
  exact ⟨_, rfl⟩

theorem counts_of_summarize {log : ReplayLog} {decisions : Decisions} {summary : AuditSummary}
    (h : List.Forall₂ (AuditFact.Shown P) log.auditTrail facts)
    (hsummary : log.summarize P decisions (log.auditEvents "authorization")
      (log.auditEvents "execution") = .ok summary) :
    summary.decisions = decisions ∧ Counts summary log facts := by
  have hauthorization := auditEvents_trail log (Or.inl rfl)
  have hexecution := auditEvents_trail log (Or.inr rfl)
  obtain ⟨nonces, -, hsummary⟩ := bind_eq_ok.mp hsummary
  obtain rfl := Except.ok.inj hsummary
  refine ⟨rfl, rfl, ?_, ?_, ?_, ?_⟩
  · show (log.auditEvents "authorization").length = _
    rw [hauthorization]
    exact length_filter_of_forall₂ h fun _ _ => shown_authorization
  · show (log.auditEvents "execution").length = _
    rw [hexecution]
    exact length_filter_of_forall₂ h fun _ _ => shown_execution
  · show ((log.auditEvents "execution").filter (hasStatus "completed")).length = _
    rw [hexecution, List.filter_filter]
    have htest : ∀ outcome, decide (ExecutionBoundary.statusOf outcome = "completed") =
        outcome.isReturn := by
      intro outcome
      cases outcome <;> simp [ExecutionBoundary.statusOf, HandlerOutcome.isReturn]
    exact length_filter_of_forall₂ h fun _ _ => shown_status htest
  · show ((log.auditEvents "execution").filter (hasStatus "failed")).length = _
    rw [hexecution, List.filter_filter]
    have htest : ∀ outcome, decide (ExecutionBoundary.statusOf outcome = "failed") =
        !outcome.isReturn := by
      intro outcome
      cases outcome <;> simp [ExecutionBoundary.statusOf, HandlerOutcome.isReturn]
    exact length_filter_of_forall₂ h fun _ _ => shown_status htest

variable (P) in
-- what the two readers of the log tell about the facts of its trail
structure Reads (log : ReplayLog) (facts : List AuditFact) (decisions : Decisions) : Prop where
  reconstructed : log.reconstructDecisions P = .ok decisions
  describes : Describes P decisions facts
  summarized : (∃ summary, log.auditSummary P = .ok summary) ↔ log.Copied P
  counts : ∀ summary, log.auditSummary P = .ok summary →
    summary.decisions = decisions ∧ Counts summary log facts

theorem reads_of_trail {log : ReplayLog}
    (h : List.Forall₂ (AuditFact.Shown P) log.auditTrail facts) :
    ∃ decisions, Reads P log facts decisions := by
  obtain ⟨decisions, hdecisions, hdescribes⟩ := reconstruct_eq_ok h
  refine ⟨decisions, hdecisions, hdescribes, ?_, ?_⟩
  · constructor
    · rintro ⟨summary, hsummary⟩
      exact (auditSummary_eq_ok_iff.mp hsummary).1
    · intro hcopied
      obtain ⟨nonces, hnonces⟩ := exists_nonces h
      exact ⟨_, auditSummary_eq_ok_iff.mpr
        ⟨hcopied, decisions, hdecisions, bind_eq_ok.mpr ⟨nonces, hnonces, rfl⟩⟩⟩
  · intro summary hsummary
    obtain ⟨-, decisions', hdecisions', hsummary⟩ := auditSummary_eq_ok_iff.mp hsummary
    obtain rfl := Except.ok.inj (hdecisions.symm.trans hdecisions')
    exact counts_of_summarize h hsummary

end Readers

end ReplayLog

namespace GovernedStep

def perform (log : ReplayLog) : GovernedStep → ReplayLog
  | .authorize issuer now nonce call => (issuer.authorize P log now nonce call).log
  | .execute boundary now artifact action => (boundary.execute P log now artifact action).log

def fact (log : ReplayLog) : GovernedStep → Option AuditFact
  | .authorize issuer now nonce call => (issuer.ruling P log now nonce call).map .ruled
  | .execute boundary now artifact action =>
      (boundary.ran P log now artifact action).map (.ran artifact.nonce)

-- what the calls of a run did, in order
def facts : ReplayLog → List GovernedStep → List AuditFact
  | _, [] => []
  | log, step :: steps => (fact P log step).toList ++ facts (perform P log step) steps

variable {P} {log : ReplayLog}

theorem trail_of_frames {log' : ReplayLog} {others frames : List ReplayFrame}
    {facts : List AuditFact} (hframes : log'.frames = log.frames ++ others ++ frames)
    (hothers : ∀ frame ∈ others, PyDict.getD frame.event "type" = .str "governance_preflight")
    (hshown : List.Forall₂ (fun frame fact => AuditFact.Shown P (ReplayFrame.event frame) fact)
      frames facts) :
    ∃ events, log'.auditTrail = log.auditTrail ++ events ∧
      List.Forall₂ (AuditFact.Shown P) events facts := by
  refine ⟨frames.map ReplayFrame.event, ?_, List.forall₂_map_left_iff.mpr hshown⟩
  have hskipped : (others.map ReplayFrame.event).filter ReplayLog.isAudit = [] := by
    rw [List.filter_eq_nil_iff]
    intro event hevent
    obtain ⟨frame, hframe, rfl⟩ := List.mem_map.mp hevent
    have hkind : PyDict.getD frame.event "type" = .str (lit "governance_preflight") :=
      hothers frame hframe
    simp [ReplayLog.isAudit, ReplayLog.hasType_eq hkind]
  have hkept : (frames.map ReplayFrame.event).filter ReplayLog.isAudit =
      frames.map ReplayFrame.event := by
    rw [List.filter_eq_self]
    intro event hevent
    obtain ⟨frame, hframe, rfl⟩ := List.mem_map.mp hevent
    obtain ⟨fact, hfact⟩ := ReplayLog.exists_of_forall₂ hshown hframe
    cases hfact with
    | ruled hkind _ _ => simp [ReplayLog.isAudit, ReplayLog.hasType_eq hkind]
    | ran hkind _ _ => simp [ReplayLog.isAudit, ReplayLog.hasType_eq hkind]
  rw [ReplayLog.auditTrail, hframes, List.map_append, List.map_append, List.filter_append,
    List.filter_append, hskipped, hkept, List.append_nil]
  rfl

theorem trail_perform (step : GovernedStep) :
    ∃ events, (perform P log step).auditTrail = log.auditTrail ++ events ∧
      List.Forall₂ (AuditFact.Shown P) events (fact P log step).toList := by
  cases step with
  | authorize issuer now nonce call =>
      obtain ⟨preflights, frames, hframes, hpreflights, hshown⟩ :=
        @ruling_cases P log now issuer nonce call
      exact trail_of_frames hframes hpreflights hshown
  | execute boundary now artifact action =>
      rcases @ran_cases P log now artifact boundary action with ⟨hran, hframes⟩ |
        ⟨frame, hran, hframes, hshown⟩
      · rw [fact, hran]
        have hsame : (perform P log (.execute boundary now artifact action)).frames =
            log.frames ++ [] ++ [] := by
          rw [perform, hframes, List.append_nil, List.append_nil]
        exact trail_of_frames hsame (by simp) .nil
      · rw [fact, hran]
        have hsnoc : (perform P log (.execute boundary now artifact action)).frames =
            log.frames ++ [] ++ [frame] := by
          rw [perform, hframes, List.append_nil]
        exact trail_of_frames hsnoc (by simp) (.cons hshown .nil)

theorem trail_run (steps : List GovernedStep) :
    ∃ events, (Calls.run (perform P) log steps).auditTrail = log.auditTrail ++ events ∧
      List.Forall₂ (AuditFact.Shown P) events (facts P log steps) := by
  induction steps generalizing log with
  | nil => exact ⟨[], by simp, .nil⟩
  | cons step steps ih =>
      obtain ⟨events, htrail, hshown⟩ := @trail_perform P log step
      obtain ⟨events', htrail', hshown'⟩ := @ih (perform P log step)
      refine ⟨events ++ events', ?_, List.rel_append hshown hshown'⟩
      rw [Calls.run_cons, htrail', htrail, List.append_assoc]

variable (P) in
-- no call goes missing: what keeps a fact out of the trail is an audit frame that cannot be built
def Accounted (log : ReplayLog) (step : GovernedStep) : Prop :=
  match step with
  | .authorize issuer now nonce call =>
      (∀ artifact, (issuer.authorize P log now nonce call).result = .ok artifact →
        ∃ ruling, fact P log step = some (.ruled ruling) ∧ ruling.artifact = some artifact) ∧
      ∀ request decision middle mesh, issuer.admission P call = .ok (request, decision) →
        issuer.meshPreflight P log request call.meshInputs = .ok (middle, mesh) →
        (AuthorizationIssuer.ruled decision mesh).allow = false →
        ((fact P log step).isSome = true ↔
          ∃ frame, ReplayFrame.create P (AuthorizationIssuer.authorizationFrameId nonce)
            middle.headHash (AuthorizationIssuer.deniedEvent nonce request
              ((AuthorizationIssuer.ruled decision mesh).signedDict
                (mesh.map GovernancePreflightDecision.digest))) = .ok frame)
  | .execute boundary now artifact action =>
      (boundary.execute P log now artifact action).invoked = true →
        (fact P log step = some (.ran artifact.nonce (action artifact.actionRequest)) ↔
          ExecutionBoundary.Auditable P (action artifact.actionRequest))

theorem ran_iff_auditable {boundary : ExecutionBoundary} {now : ℤ} {artifact : Artifact}
    {action : PyDict → HandlerOutcome} (hlog : log.Sound P)
    (h : (boundary.execute P log now artifact action).invoked = true) :
    boundary.ran P log now artifact action = some (action artifact.actionRequest) ↔
      ExecutionBoundary.Auditable P (action artifact.actionRequest) := by
  have hvalid := ExecutionBoundary.execute_invoked.mp h
  have hsealable := ExecutionBoundary.sealable_of_validate hlog hvalid
  rw [← ExecutionBoundary.record_isOk hsealable, ExecutionBoundary.ran,
    ExecutionBoundary.execute_of_validate hvalid]
  cases hrecord : ExecutionBoundary.record P (ExecutionBoundary.claimed log artifact) artifact
      (action artifact.actionRequest) with
  | error e => simp [ExecutionBoundary.claimed]
  | ok recorded =>
      obtain ⟨frame, -, -, -, rfl⟩ := ExecutionBoundary.record_eq_ok hrecord
      simp [ExecutionBoundary.claimed]

theorem accounted (hlog : log.Sound P) (step : GovernedStep) : Accounted P log step := by
  cases step with
  | authorize issuer now nonce call =>
      constructor
      · intro artifact hissued
        obtain ⟨ruling, hruling, hartifact⟩ := ruling_of_issued hissued
        exact ⟨ruling, by rw [fact, hruling, Option.map_some], hartifact⟩
      · intro request decision middle mesh hadmission hmesh hdenied
        rw [fact, Option.isSome_map]
        exact ruling_of_denied hadmission hmesh hdenied
  | execute boundary now artifact action =>
      intro hinvoked
      rw [← ran_iff_auditable hlog hinvoked, fact]
      cases boundary.ran P log now artifact action with
      | none => simp
      | some outcome => simp

theorem sound_appendAll {log' : ReplayLog} {entries : List (Str × PyDict)} (h : log.Sound P)
    (hkinds : ∀ entry ∈ entries, PyDict.getD entry.2 "type" ≠ .str "execution")
    (happend : log.appendAll P entries = .ok log') : log'.Sound P := by
  induction entries generalizing log with
  | nil => exact Except.ok.inj happend ▸ h
  | cons entry entries ih =>
      obtain ⟨hhead, hrest⟩ := List.forall_mem_cons.mp hkinds
      obtain ⟨middle, frame, hfirst, happend⟩ := (ReplayLog.appendAll_cons P).mp happend
      exact ih (h.use (.append hfirst hhead)) hrest happend

theorem preflightEntry_kind {issuer : AuthorizationIssuer} {call : AuthorizeCall}
    {entry : Str × PyDict} (h : issuer.preflightEntry P call = .ok (some entry)) :
    PyDict.getD entry.2 "type" = .str "governance_preflight" := by
  obtain ⟨⟨request, decision⟩, -, h⟩ := bind_eq_ok.mp h
  simp only at h
  split at h
  · cases h
  · obtain ⟨requestDigest, -, h⟩ := bind_eq_ok.mp h
    obtain ⟨preflight, -, h⟩ := bind_eq_ok.mp h
    obtain rfl := Option.some.inj (Except.ok.inj h)
    simp [GovernanceMesh.preflightEvent, PyDict.getD]

theorem writes_kinds {issuer : AuthorizationIssuer} {nonce : Str} {call : AuthorizeCall}
    {log' : ReplayLog} {preflights authorizations : List (Str × PyDict)}
    (h : AuthorizationIssuer.Writes P issuer log nonce call log' preflights authorizations) :
    ∀ entry ∈ preflights ++ authorizations, PyDict.getD entry.2 "type" ≠ .str "execution" := by
  rw [List.forall_mem_append]
  constructor
  · rcases h.preflight with rfl | ⟨entry, hentry, rfl⟩
    · simp
    · rw [List.forall_mem_singleton, preflightEntry_kind hentry]
      simp
  · rcases h.authorization with rfl | ⟨entry, hentry, rfl⟩
    · simp
    · rw [List.forall_mem_singleton, hentry.kind]
      simp

theorem sound_perform (h : log.Sound P) (step : GovernedStep) : (perform P log step).Sound P := by
  cases step with
  | authorize issuer now nonce call =>
      obtain ⟨preflights, authorizations, hwrites⟩ :=
        @AuthorizationIssuer.authorize_writes P issuer log now nonce call
      exact sound_appendAll h (writes_kinds hwrites) hwrites.appended
  | execute boundary now artifact action => exact h.use .execute

def auditedBoundary : ExecutionBoundary :=
  { Demo.boundary with
    policyRegistry := some { policies := [("p", AuthorizationIssuer.lifetimeCall.policy)] } }

theorem auditedBoundary_accepts : AuthorizationIssuer.Accepts sizePrimitives
    AuthorizationIssuer.lifetimeIssuer auditedBoundary AuthorizationIssuer.lifetimeCall.policy where
  arbiter := rfl
  trusted := ⟨Demo.publicKey, rfl, fun payload => verifySignature_size _ payload⟩
  registered := ⟨_, rfl, rfl⟩

-- what a handler returns that JSON cannot hold
def unwritten : HandlerOutcome := .returned (.object 0)

-- an authorize after which its GAA passes every check of the boundary
theorem authorized_run : ∃ log artifact,
    perform sizePrimitives {} (.authorize AuthorizationIssuer.lifetimeIssuer 0 "n"
      AuthorizationIssuer.lifetimeCall) = log ∧
    log.Sound sizePrimitives ∧
    auditedBoundary.validate sizePrimitives log 0 artifact = .ok () ∧
    artifact.nonce = lit "n" ∧ ExecutionBoundary.Readable sizePrimitives log artifact := by
  obtain ⟨request, decision, payload, hgrantable⟩ := AuthorizationIssuer.lifetime_grantable
  have hempty : ReplayLog.Linked sizePrimitives {} := trivial
  obtain ⟨log, frame, happend, hauthorize⟩ :=
    AuthorizationIssuer.authorize_of_grantable hempty hgrantable
  have hperform : perform sizePrimitives {} (.authorize AuthorizationIssuer.lifetimeIssuer 0 "n"
      AuthorizationIssuer.lifetimeCall) = log := by
    rw [perform, hauthorize]
  refine ⟨log, { AuthorizationIssuer.lifetimeIssuer.granted 0 "n" AuthorizationIssuer.lifetimeCall
    request decision with signature := AuthorizationIssuer.lifetimeIssuer.issuer.sign payload },
    hperform, ?_, ?_, rfl, ?_, ?_⟩
  · exact hperform ▸ sound_perform ReplayLog.sound_empty _
  · exact AuthorizationIssuer.validates_granted hgrantable auditedBoundary_accepts happend
      (by decide) (by simp) (by simp)
  · obtain ⟨hcreate, rfl⟩ := (ReplayLog.append_eq_ok _).mp happend
    obtain ⟨-, -, hevent, -⟩ := (ReplayFrame.create_eq_ok _).mp hcreate
    refine List.forall_mem_singleton.mpr fun _ => ?_
    rw [hevent]
    exact AuthorizationIssuer.copyable_grantedEvent (by decide) rfl
  · simp [AuthorizationIssuer.granted, Decision.signedDict, Decision.toDict, PyDict.getD,
      PyVal.nesting, sizePrimitives, referencePrimitives]

end GovernedStep

end GovernedAutonomy
