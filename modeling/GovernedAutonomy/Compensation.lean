import GovernedAutonomy.Binding
import GovernedAutonomy.Reconstruction

namespace GovernedAutonomy

open Python Protocol

namespace ReplayLog

variable {P : Primitives} {log log' : ReplayLog}

-- the nonce was executed, and all that its executions did was to fail
structure FailedOnly (log : ReplayLog) (nonce : Str) : Prop where
  failed : ∃ frame ∈ log.executionsOf nonce, PyDict.getD frame.event "status" = .str "failed"
  uncompleted : ∀ frame ∈ log.executionsOf nonce,
    PyDict.getD frame.event "status" ≠ .str "completed"

structure ExecutesOnce (P : Primitives) (log : ReplayLog) : Prop where
  sound : log.Sound P
  once : ∀ nonce, (log.executionsOf nonce).length ≤ 1

theorem executesOnce_empty : ExecutesOnce P {} := ⟨sound_empty, fun _ => Nat.zero_le 1⟩

theorem ExecutesOnce.failedOnly (h : ExecutesOnce P log) {nonce : Str}
    (hfailed : AuthorizationIssuer.checkFailed P log nonce = .ok ()) : log.FailedOnly nonce := by
  obtain ⟨-, -, frame, hframe, hstatus⟩ := checkFailed_eq_ok.mp hfailed
  refine ⟨⟨frame, hframe, hstatus⟩, ?_⟩
  obtain ⟨only, honly⟩ := List.length_eq_one_iff.mp
    (le_antisymm (h.once nonce) (List.length_pos_of_mem hframe))
  intro other hother
  rw [honly, List.mem_singleton] at hframe hother
  rw [hother, ← hframe, hstatus]
  simp

theorem executionsOf_appendAll {entries : List (Str × PyDict)}
    (hkinds : ∀ entry ∈ entries, PyDict.getD entry.2 "type" ≠ .str "execution")
    (h : log.appendAll P entries = .ok log') (nonce : Str) :
    log'.executionsOf nonce = log.executionsOf nonce := by
  induction entries generalizing log with
  | nil => rw [Except.ok.inj h]
  | cons entry entries ih =>
      obtain ⟨hhead, hrest⟩ := List.forall_mem_cons.mp hkinds
      obtain ⟨middle, frame, hfirst, happend⟩ := (appendAll_cons P).mp h
      rw [ih hrest happend]
      obtain ⟨hcreate, rfl⟩ := (append_eq_ok P).mp hfirst
      obtain ⟨-, -, hevent, -⟩ := (ReplayFrame.create_eq_ok P).mp hcreate
      have hother : isExecutionOf nonce frame = false := by
        rw [Bool.eq_false_iff, ne_eq, isExecutionOf_iff, hevent]
        exact fun hof => hhead hof.1
      rw [executionsOf_append rfl]
      simp [hother]

theorem ExecutesOnce.execute (h : ExecutesOnce P log) {boundary : ExecutionBoundary} {now : ℤ}
    {artifact : Artifact} {action : PyDict → HandlerOutcome} (nonce : Str) :
    ((boundary.execute P log now artifact action).log.executionsOf nonce).length ≤ 1 := by
  cases hvalid : boundary.validate P log now artifact with
  | error e =>
      rw [ExecutionBoundary.execute, hvalid]
      exact h.once nonce
  | ok u =>
      rw [ExecutionBoundary.execute_of_validate hvalid]
      cases hrecord : ExecutionBoundary.record P (ExecutionBoundary.claimed log artifact) artifact
          (action artifact.actionRequest) with
      | error e => exact h.once nonce
      | ok recorded =>
          obtain ⟨frame, -, hframe, -, hrecorded⟩ := ExecutionBoundary.record_eq_ok hrecord
          have hframes : recorded.frames =
              (ExecutionBoundary.claimed log artifact).frames ++ [frame] := by rw [hrecorded]
          rw [executionsOf_append hframes, List.filter_singleton,
            ExecutionBoundary.isExecutionOf_frame hframe]
          by_cases hnonce : artifact.nonce = nonce
          · rw [← hnonce, ExecutionBoundary.executionsOf_claimed h.sound hvalid]
            simp
          · rw [decide_eq_false hnonce, cond_false, List.append_nil]
            exact h.once nonce

end ReplayLog

-- a call of the issuer or of the boundary on one log
inductive CompensationMove
  | plain (step : GovernedStep)
  | compensate (issuer : AuthorizationIssuer) (now : ℤ) (nonce failedNonce : Str)
      (request : PyDict) (policy : Policy) (ttlSeconds : ℤ)

namespace CompensationMove

variable (P : Primitives)

def perform (log : ReplayLog) : CompensationMove → ReplayLog
  | .plain step => step.perform P log
  | .compensate issuer now nonce failedNonce request policy ttlSeconds =>
      (issuer.authorizeCompensation P log now nonce failedNonce request policy ttlSeconds).log

def issues (log : ReplayLog) : CompensationMove → Option Artifact
  | .plain (.authorize issuer now nonce call) =>
      (issuer.authorize P log now nonce call).result.toOption
  | .plain (.execute _ _ _ _) => none
  | .compensate issuer now nonce failedNonce request policy ttlSeconds =>
      (issuer.authorizeCompensation P log now nonce failedNonce request policy
        ttlSeconds).result.toOption

end CompensationMove

-- a request that compensates for a nonce does so for a failed execution of it
def Compensates (log : ReplayLog) (request : PyDict) : Prop :=
  ∀ value, request.get "compensation_for" = some value →
    ∃ nonce, value = .str nonce ∧ log.FailedOnly nonce

namespace CompensationMove

variable {P : Primitives} {log : ReplayLog}

-- authorize is given no compensation that authorize_compensation would refuse
def Audited (log : ReplayLog) : CompensationMove → Prop
  | .plain (.authorize _ _ _ call) => Compensates log call.request
  | _ => True

def Provenanced (P : Primitives) (log : ReplayLog) (move : CompensationMove) : Prop :=
  ∀ gaa, move.issues P log = some gaa → Compensates log gaa.actionRequest

theorem authorizeCompensation_of_failed {issuer : AuthorizationIssuer} {now : ℤ}
    {nonce failedNonce : Str} {request : PyDict} {policy : Policy} {ttlSeconds : ℤ}
    (h : AuthorizationIssuer.checkFailed P log failedNonce = .ok ()) :
    issuer.authorizeCompensation P log now nonce failedNonce request policy ttlSeconds =
      issuer.authorize P log now nonce
        { request := request.set "compensation_for" (.str failedNonce), policy, ttlSeconds } := by
  rw [AuthorizationIssuer.authorizeCompensation, h]

theorem authorizeCompensation_cases (issuer : AuthorizationIssuer) (now : ℤ)
    (nonce failedNonce : Str) (request : PyDict) (policy : Policy) (ttlSeconds : ℤ) :
    (∃ e, issuer.authorizeCompensation P log now nonce failedNonce request policy ttlSeconds =
      ⟨log, .error e⟩) ∨
    AuthorizationIssuer.checkFailed P log failedNonce = .ok () ∧
      issuer.authorizeCompensation P log now nonce failedNonce request policy ttlSeconds =
        issuer.authorize P log now nonce
          { request := request.set "compensation_for" (.str failedNonce), policy, ttlSeconds } := by
  cases hfailed : AuthorizationIssuer.checkFailed P log failedNonce with
  | error e =>
      refine Or.inl ⟨e, ?_⟩
      rw [AuthorizationIssuer.authorizeCompensation, hfailed]
  | ok u => exact Or.inr ⟨rfl, authorizeCompensation_of_failed hfailed⟩

theorem executesOnce_authorize (h : log.ExecutesOnce P) (issuer : AuthorizationIssuer) (now : ℤ)
    (nonce : Str) (call : AuthorizeCall) :
    (issuer.authorize P log now nonce call).log.ExecutesOnce P := by
  refine ⟨GovernedStep.sound_perform h.sound (.authorize issuer now nonce call), ?_⟩
  intro other
  obtain ⟨preflights, authorizations, hwrites⟩ :=
    @AuthorizationIssuer.authorize_writes P issuer log now nonce call
  rw [ReplayLog.executionsOf_appendAll (GovernedStep.writes_kinds hwrites) hwrites.appended]
  exact h.once other

theorem executesOnce_perform (h : log.ExecutesOnce P) (move : CompensationMove) :
    (move.perform P log).ExecutesOnce P := by
  cases move with
  | plain step =>
      cases step with
      | authorize issuer now nonce call => exact executesOnce_authorize h issuer now nonce call
      | execute boundary now artifact action =>
          exact ⟨GovernedStep.sound_perform h.sound (.execute boundary now artifact action),
            fun _ => h.execute _⟩
  | compensate issuer now nonce failedNonce request policy ttlSeconds =>
      rw [perform]
      rcases authorizeCompensation_cases issuer now nonce failedNonce request policy ttlSeconds
        with ⟨e, hrefused⟩ | ⟨-, hauthorized⟩
      · rw [hrefused]
        exact h
      · rw [hauthorized]
        exact executesOnce_authorize h _ _ _ _

theorem executesOnce_run (moves : List CompensationMove) :
    (Calls.run (perform P) {} moves).ExecutesOnce P :=
  List.foldlRecOn moves (perform P) ReplayLog.executesOnce_empty
    (fun _ hlog move _ => executesOnce_perform hlog move)

theorem get_of_authorized {issuer : AuthorizationIssuer} {now : ℤ} {nonce : Str}
    {call : AuthorizeCall} {gaa : Artifact}
    (h : (issuer.authorize P log now nonce call).result.toOption = some gaa) :
    gaa.actionRequest.get "compensation_for" = call.request.get "compensation_for" :=
  AuthorizationIssuer.effectiveRequest_get (by simp)
    (AuthorizationIssuer.authorizes_of_result (eq_ok_of_toOption h)).request

-- what authorize issues compensates for whatever its request says
theorem compensates_iff {issuer : AuthorizationIssuer} {now : ℤ} {nonce : Str}
    {call : AuthorizeCall} {gaa : Artifact}
    (h : (CompensationMove.plain (.authorize issuer now nonce call)).issues P log = some gaa) :
    Compensates log gaa.actionRequest ↔ Compensates log call.request := by
  rw [Compensates, get_of_authorized h, Compensates]

theorem provenanced_of_audited (hlog : log.ExecutesOnce P) {move : CompensationMove}
    (h : move.Audited log) : move.Provenanced P log := by
  intro gaa hissued
  cases move with
  | plain step =>
      cases step with
      | authorize issuer now nonce call => exact (compensates_iff hissued).mpr h
      | execute boundary now artifact action => cases hissued
  | compensate issuer now nonce failedNonce request policy ttlSeconds =>
      rw [issues] at hissued
      rcases authorizeCompensation_cases issuer now nonce failedNonce request policy ttlSeconds
        with ⟨e, hrefused⟩ | ⟨hfailed, hauthorized⟩
      · rw [hrefused] at hissued
        cases hissued
      · rw [hauthorized] at hissued
        intro value hvalue
        rw [get_of_authorized hissued, PyDict.get_set, if_pos rfl] at hvalue
        exact ⟨failedNonce, (Option.some.inj hvalue).symm, hlog.failedOnly hfailed⟩

-- every GAA of the run compensates, if it does, for an execution that has only failed
def FollowFailures (P : Primitives) (moves : List CompensationMove) : Prop :=
  ∀ before move after, moves = before ++ move :: after → ∀ gaa,
    move.issues P (Calls.run (perform P) {} before) = some gaa →
      Compensates (Calls.run (perform P) {} before) gaa.actionRequest

theorem compensations_follow_failures {moves : List CompensationMove}
    (h : Calls.Each (perform P) Audited {} moves) : FollowFailures P moves := by
  have heach : Calls.Each (perform P) (Provenanced P) {} moves :=
    h.imp (fun _ _ hlog => provenanced_of_audited hlog)
      (fun _ move hlog _ => executesOnce_perform hlog move) ReplayLog.executesOnce_empty
  exact Calls.each_iff.mp heach

section Runs

def undoCall (nonce : Str) : AuthorizeCall :=
  { AuthorizationIssuer.lifetimeCall with
    request := PyDict.set AuthorizationIssuer.lifetimeCall.request "compensation_for"
      (.str nonce) }

theorem undo_grantable : ∃ request decision payload,
    AuthorizationIssuer.Grantable sizePrimitives AuthorizationIssuer.lifetimeIssuer 0 "n-2"
      (undoCall "n") request decision payload :=
  AuthorizationIssuer.exists_of_isGrantable (by decide +kernel)

def failing : PyDict → HandlerOutcome := fun _ => .raised "ValueError" (.ok [])

-- an authorize whose GAA is then executed with a handler that fails
theorem failed_run : ∃ artifact log,
    Calls.run (perform sizePrimitives) {}
      [.plain (.authorize AuthorizationIssuer.lifetimeIssuer 0 "n"
        AuthorizationIssuer.lifetimeCall),
        .plain (.execute GovernedStep.auditedBoundary 0 artifact failing)] = log ∧
      AuthorizationIssuer.checkFailed sizePrimitives log "n" = .ok () := by
  obtain ⟨log, artifact, hperform, hsound, hvalid, hnonce, hreadable⟩ :=
    GovernedStep.authorized_run
  have hauditable : ExecutionBoundary.Auditable sizePrimitives (failing artifact.actionRequest) :=
    ⟨[], rfl, fun _ hp => absurd hp (by simp)⟩
  obtain ⟨recorded, hrecord⟩ := (ExecutionBoundary.record_isOk
    (ExecutionBoundary.sealable_of_validate hsound hvalid)).mpr hauditable
  refine ⟨artifact, recorded, ?_, ?_⟩
  · rw [Calls.run_cons, perform, hperform, Calls.run_cons, Calls.run_nil, perform,
      GovernedStep.perform, ExecutionBoundary.execute_of_validate hvalid]
    simp only [hrecord]
  · have haudited := (ExecutionBoundary.audited_record
      (ExecutionBoundary.executionsOf_claimed hsound hvalid) hrecord).mpr
        (fun _ => ⟨by rw [hnonce]; decide, ExecutionBoundary.readable_claimed.mpr hreadable⟩)
    rw [← hnonce]
    exact haudited.compensation.mpr rfl

-- authorize grants the undo of nonce n on every linked log
theorem undo_authorized {log : ReplayLog} (hlog : log.Linked sizePrimitives) : ∃ gaa,
    (AuthorizationIssuer.lifetimeIssuer.authorize sizePrimitives log 0 "n-2"
      (undoCall "n")).result.toOption = some gaa ∧
    gaa.actionRequest.get "compensation_for" = some (.str "n") := by
  obtain ⟨request, decision, payload, hgrantable⟩ := undo_grantable
  obtain ⟨log', frame, -, hauthorize⟩ :=
    AuthorizationIssuer.authorize_of_grantable hlog hgrantable
  have hissued := congrArg (fun outcome => outcome.result.toOption) hauthorize
  refine ⟨_, hissued, ?_⟩
  have hundo : (undoCall "n").request.get "compensation_for" = some (.str "n") := by
    rw [undoCall, PyDict.get_set, if_pos rfl]
  exact (get_of_authorized hissued).trans hundo

theorem compensations_follow_failures_demo : ∃ moves,
    FollowFailures sizePrimitives moves ∧
      ∃ before move gaa, moves = before ++ [move] ∧
        move.issues sizePrimitives (Calls.run (perform sizePrimitives) {} before) = some gaa ∧
        gaa.actionRequest.get "compensation_for" = some (.str "n") := by
  obtain ⟨artifact, log, hrun, hfailed⟩ := failed_run
  have hfirst : Compensates {} AuthorizationIssuer.lifetimeCall.request := by
    intro value hvalue
    have hnone : AuthorizationIssuer.lifetimeCall.request.get "compensation_for" = none := by
      decide
    rw [hnone] at hvalue
    cases hvalue
  have hlinked : log.Linked sizePrimitives := hrun ▸ (executesOnce_run _).sound.linked
  obtain ⟨gaa, hissued, hcompensates⟩ := undo_authorized hlinked
  refine ⟨_, @compensations_follow_failures sizePrimitives [.plain (.authorize
      AuthorizationIssuer.lifetimeIssuer 0 "n" AuthorizationIssuer.lifetimeCall),
    .plain (.execute GovernedStep.auditedBoundary 0 artifact failing),
    .compensate AuthorizationIssuer.lifetimeIssuer 0 "n-2" "n"
      AuthorizationIssuer.lifetimeCall.request AuthorizationIssuer.lifetimeCall.policy
      AuthorizationIssuer.lifetimeCall.ttlSeconds] ⟨hfirst, trivial, trivial, trivial⟩,
    [_, _], _, gaa, rfl, ?_, hcompensates⟩
  rw [hrun, issues, authorizeCompensation_of_failed hfailed]
  exact hissued

theorem compensation_forged :
    ¬ ∀ (P : Primitives) (moves : List CompensationMove), FollowFailures P moves := by
  intro h
  have hempty : ReplayLog.Linked sizePrimitives {} := trivial
  obtain ⟨gaa, hissued, hcompensates⟩ := undo_authorized hempty
  obtain ⟨nonce, -, hfailed⟩ := h sizePrimitives [.plain (.authorize
    AuthorizationIssuer.lifetimeIssuer 0 "n-2" (undoCall "n"))] [] _ [] rfl gaa hissued _
    hcompensates
  obtain ⟨frame, hframe, -⟩ := hfailed.failed
  cases hframe

end Runs

end CompensationMove

end GovernedAutonomy
