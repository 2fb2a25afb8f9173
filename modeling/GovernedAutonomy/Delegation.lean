import GovernedAutonomy.Outcome
import GovernedAutonomy.Provenance

namespace GovernedAutonomy

open Python

structure A2ATaskDelegation where
  delegatorId : Str
  recipientId : Str
  taskId : Str
  action : Str
  payload : PyDict
  gaa : Artifact
  signature : Str

namespace A2ATaskDelegation

variable (P : Primitives)

def unsignedDict (delegation : A2ATaskDelegation) : PyDict :=
  PyDict.ofFields
    [("action", .str delegation.action), ("delegator_id", .str delegation.delegatorId),
      ("gaa_nonce", .str delegation.gaa.nonce), ("payload", .dict delegation.payload),
      ("recipient_id", .str delegation.recipientId), ("task_id", .str delegation.taskId)]

def unsignedPayload (delegation : A2ATaskDelegation) : Result String :=
  canonicalJson P (.dict delegation.unsignedDict)

def create (delegator : Signer) (recipientId taskId action : Str) (payload : PyDict)
    (gaa : Artifact) : Result A2ATaskDelegation := do
  raiseIf (recipientId = []) (.valueError (lit "recipient_id must be a non-empty string"))
  raiseIf (taskId = []) (.valueError (lit "task_id must be a non-empty string"))
  raiseIf (action = []) (.valueError (lit "action must be a non-empty string"))
  let unsigned : A2ATaskDelegation :=
    ⟨delegator.keyId, recipientId, taskId, action, payload, gaa, []⟩
  let bytes ← unsigned.unsignedPayload P
  .ok { unsigned with signature := delegator.sign bytes }

def verify (delegation : A2ATaskDelegation) (delegatorPublicKey : PublicKey) : Result Bool := do
  let bytes ← delegation.unsignedPayload P
  .ok (verifySignature P delegatorPublicKey bytes delegation.signature)

end A2ATaskDelegation

structure A2AGuard where
  recipientId : Str
  trustStore : TrustStore
  boundary : ExecutionBoundary

-- one delegation received: the log it leaves, and the request its handler was called with
structure Receipt where
  log : ReplayLog
  received : Option PyDict
  result : Result PyVal

namespace A2AGuard

variable (P : Primitives) (guard : A2AGuard)

def checkRecipient (delegation : A2ATaskDelegation) : Result Unit :=
  raiseIf (delegation.recipientId ≠ guard.recipientId) (authorizationError
    (lit "delegation recipient mismatch: intended for " ++ P.reprStr delegation.recipientId ++
      lit ", received by " ++ P.reprStr guard.recipientId))

def checkDelegator (delegation : A2ATaskDelegation) : Result Unit :=
  match guard.trustStore.resolve delegation.delegatorId with
  | none => .error (authorizationError
      (lit "unknown or revoked delegator key: " ++ P.reprStr delegation.delegatorId))
  | some delegatorKey => do
      let verified ← delegation.verify P delegatorKey
      denyIf (verified = false) "invalid delegator signature on A2A delegation envelope"

def checkAction (delegation : A2ATaskDelegation) : Result Unit :=
  let gaaAction := delegation.gaa.actionRequest.getD "action"
  if gaaAction.eq (.str delegation.action) then .ok ()
  else do
    let text ← P.repr gaaAction
    .error (authorizationError (lit "action mismatch between delegation (" ++
      P.reprStr delegation.action ++ lit ") and GAA (" ++ text ++ lit ")"))

def check (delegation : A2ATaskDelegation) : Result Unit := do
  guard.checkRecipient P delegation
  guard.checkDelegator P delegation
  checkAction P delegation

def receiveAndExecute (log : ReplayLog) (now : ℤ) (delegation : A2ATaskDelegation)
    (handler : PyDict → HandlerOutcome) : Receipt :=
  match guard.check P delegation with
  | .error e => ⟨log, none, .error e⟩
  | .ok _ =>
      let execution := guard.boundary.execute P log now delegation.gaa handler
      ⟨execution.log, if execution.invoked then some delegation.gaa.actionRequest else none,
        execution.result⟩

end A2AGuard

-- what Python's containers take for one value: the same object, or an equal one
def SameValue (v w : PyVal) : Prop := v = w ∨ v.eq w = true

-- every field of one dict is in the other, with the same value
def Covers (request fields : PyDict) : Prop :=
  ∀ m ∈ fields, ∃ v, Dict.get request m.1 = some v ∧ SameValue v m.2

namespace A2AGuard

variable {P : Primitives} {guard : A2AGuard} {delegation : A2ATaskDelegation} {request : PyDict}
  {log : ReplayLog} {now : ℤ} {handler : PyDict → HandlerOutcome}

theorem checkDelegator_eq_ok : guard.checkDelegator P delegation = .ok () ↔
    guard.trustStore.Signs P delegation.delegatorId (delegation.unsignedPayload P)
      delegation.signature := by
  rw [← TrustStore.verifies_eq_ok, TrustStore.verifies, checkDelegator]
  cases guard.trustStore.resolve delegation.delegatorId with
  | none => simp
  | some key =>
      cases hbytes : delegation.unsignedPayload P with
      | error e => simp [A2ATaskDelegation.verify, hbytes, bind, Except.bind]
      | ok bytes => simp [A2ATaskDelegation.verify, hbytes, bind, Except.bind]

theorem checkAction_eq_ok : checkAction P delegation = .ok () ↔
    delegation.gaa.actionRequest.getD "action" = .str delegation.action := by
  rw [← PyVal.eq_str_right, checkAction]
  split
  · rename_i hequal
    simp [hequal]
  · rename_i hdiffers
    simp [hdiffers, bind_eq_ok]

theorem check_eq_ok : guard.check P delegation = .ok () ↔
    delegation.recipientId = guard.recipientId ∧
      guard.trustStore.Signs P delegation.delegatorId (delegation.unsignedPayload P)
        delegation.signature ∧
      delegation.gaa.actionRequest.getD "action" = .str delegation.action := by
  rw [← checkDelegator_eq_ok, ← checkAction_eq_ok (P := P)]
  simp only [check, bind_eq_ok, checkRecipient, raiseIf_eq_ok, ne_eq, not_not]
  exact ⟨fun ⟨_, hr, _, hd, ha⟩ => ⟨hr, hd, ha⟩, fun ⟨hr, hd, ha⟩ => ⟨(), hr, (), hd, ha⟩⟩

theorem received_eq_some :
    (guard.receiveAndExecute P log now delegation handler).received = some request ↔
      guard.check P delegation = .ok () ∧
        guard.boundary.validate P log now delegation.gaa = .ok () ∧
          request = delegation.gaa.actionRequest := by
  unfold receiveAndExecute
  cases hcheck : guard.check P delegation with
  | error e => simp
  | ok u =>
      simp only [Option.ite_none_right_eq_some, Option.some.injEq,
        ExecutionBoundary.execute_invoked, true_and, eq_comm (a := request)]

-- the handler runs what the delegator has signed for this recipient
structure Bound (P : Primitives) (guard : A2AGuard) (delegation : A2ATaskDelegation)
    (request : PyDict) : Prop where
  addressed : delegation.recipientId = guard.recipientId
  signed : guard.trustStore.Signs P delegation.delegatorId (delegation.unsignedPayload P)
    delegation.signature
  action : request.getD "action" = .str delegation.action
  payload : Covers request delegation.payload

-- nothing compares the signed payload with the request that the GAA authorizes
theorem delegation_bound_iff
    (h : (guard.receiveAndExecute P log now delegation handler).received = some request) :
    guard.Bound P delegation request ↔
      Covers delegation.gaa.actionRequest delegation.payload := by
  obtain ⟨hcheck, -, rfl⟩ := received_eq_some.mp h
  obtain ⟨hrecipient, hsigned, haction⟩ := check_eq_ok.mp hcheck
  exact ⟨Bound.payload, fun hpayload => ⟨hrecipient, hsigned, haction, hpayload⟩⟩

end A2AGuard

section Substituted

def workerGuard : A2AGuard := ⟨"worker-1", GovernedService.issuerStore, Demo.boundary⟩

-- the delegator signs for one mailbox, and hands over a GAA
def mailTask (gaa : Artifact) (recipient : String) : A2ATaskDelegation :=
  ⟨"issuer-1", "worker-1", "task-1", "send_email",
    PyDict.ofFields [("recipient", .str recipient)], gaa, "c2ln"⟩

theorem Demo.clean_nonce {log : ReplayLog} {gaa : Artifact} (h : Demo.start = .ok (log, gaa)) :
    Json.Clean gaa.nonce := by
  obtain ⟨payload, frame, -, -, hsigned⟩ := Demo.authorize_eq_ok h
  rw [hsigned]
  exact Json.clean_lit _

theorem mailTask_payload {gaa : Artifact} (hnonce : Json.Clean gaa.nonce) (recipient : String) :
    ∃ bytes, (mailTask gaa recipient).unsignedPayload referencePrimitives = .ok bytes := by
  rw [A2ATaskDelegation.unsignedPayload, canonicalJson_isOk, A2ATaskDelegation.unsignedDict,
    PyVal.encodable_ofFields]
  simp only [List.forall_mem_cons, PyVal.encodable_str, mailTask, PyVal.encodable_ofFields,
    hnonce, Json.clean_lit, List.not_mem_nil, IsEmpty.forall_iff, implies_true, and_true,
    true_and]
  decide

theorem mailTask_created {gaa : Artifact} (hnonce : Json.Clean gaa.nonce) (recipient : String) :
    A2ATaskDelegation.create referencePrimitives Demo.signer "worker-1" "task-1" "send_email"
      (PyDict.ofFields [("recipient", .str recipient)]) gaa = .ok (mailTask gaa recipient) := by
  obtain ⟨bytes, hbytes⟩ := mailTask_payload hnonce recipient
  have hunsigned : A2ATaskDelegation.unsignedPayload referencePrimitives
      { mailTask gaa recipient with signature := [] } = .ok bytes := hbytes
  simp only [A2ATaskDelegation.create, bind_eq_ok, raiseIf_eq_ok]
  exact ⟨(), by decide, (), by decide, (), by decide, bytes, hunsigned, rfl⟩

-- both envelopes pass every check of the guard
theorem mailTask_received {log : ReplayLog} {gaa : Artifact}
    (hstart : Demo.start = .ok (log, gaa)) (recipient : String) :
    (workerGuard.receiveAndExecute referencePrimitives log 0 (mailTask gaa recipient)
      (fun _ => .returned .none)).received = some Demo.request := by
  obtain ⟨payload, frame, -, -, hsigned⟩ := Demo.authorize_eq_ok hstart
  have hrequest : gaa.actionRequest = Demo.request := by rw [hsigned]; rfl
  obtain ⟨bytes, hbytes⟩ := mailTask_payload (Demo.clean_nonce hstart) recipient
  have hkey : GovernedService.issuerStore.Trusted "issuer-1" Demo.publicKey :=
    TrustStore.resolve_eq_some.mp rfl
  refine A2AGuard.received_eq_some.mpr ⟨A2AGuard.check_eq_ok.mpr ⟨rfl, ?_, ?_⟩,
    Demo.start_validates hstart, hrequest.symm⟩
  · exact ⟨Demo.publicKey, bytes, hkey, hbytes, Demo.signer_verifies bytes⟩
  · have haction : (mailTask gaa recipient).gaa.actionRequest = Demo.request := hrequest
    rw [haction]
    simp [Demo.request, PyDict.getD, mailTask]

theorem delegation_bound_iff_demo : ∃ log gaa,
    (workerGuard.receiveAndExecute referencePrimitives log 0 (mailTask gaa "user@example.com")
        (fun _ => .returned .none)).received = some Demo.request ∧
      (workerGuard.Bound referencePrimitives (mailTask gaa "user@example.com") Demo.request ↔
        Covers gaa.actionRequest (PyDict.ofFields [("recipient", .str "user@example.com")])) := by
  obtain ⟨log, gaa, hstart⟩ := Demo.start_isOk
  have hreceived := mailTask_received hstart "user@example.com"
  exact ⟨log, gaa, hreceived, A2AGuard.delegation_bound_iff hreceived⟩

-- the worker mails an address that the envelope does not name
theorem delegation_unbound :
    ¬ ∀ (P : Primitives) (delegator : Signer) (recipientId taskId action : Str) (payload : PyDict)
      (gaa : Artifact) (delegation : A2ATaskDelegation),
      A2ATaskDelegation.create P delegator recipientId taskId action payload gaa =
          .ok delegation →
        ∀ (guard : A2AGuard) (log : ReplayLog) (now : ℤ) (handler : PyDict → HandlerOutcome)
          (request : PyDict),
          (guard.receiveAndExecute P log now delegation handler).received = some request →
            guard.Bound P delegation request := by
  intro h
  obtain ⟨log, gaa, hstart⟩ := Demo.start_isOk
  have hbound := h referencePrimitives Demo.signer _ _ _ _ gaa _
    (mailTask_created (Demo.clean_nonce hstart) "other@example.com") workerGuard log 0
    (fun _ => .returned .none) Demo.request (mailTask_received hstart "other@example.com")
  obtain ⟨v, hv, hsame⟩ := hbound.payload (.str "recipient", .str "other@example.com")
    List.mem_cons_self
  have hrecipient : Dict.get Demo.request (.str "recipient") =
      some (.str "user@example.com") := by
    change PyDict.get Demo.request "recipient" = _
    simp [Demo.request]
  rw [hrecipient] at hv
  obtain rfl := Option.some.inj hv
  rcases hsame with hequal | hequal
  · simp at hequal
  · simp [PyVal.eq] at hequal

end Substituted

end GovernedAutonomy
