import GovernedAutonomy.Activation
import GovernedAutonomy.ActivationHistory
import GovernedAutonomy.KeyLifecycle
import GovernedAutonomy.Protocol.Ledger
import GovernedAutonomy.Service

namespace GovernedAutonomy

open Python Protocol

-- what one admin call meets: the stamp of its governance event, what the storage of the registry
-- and the file of the trust store raise, and what storing the frame raises, with the frame in the
-- log or without
structure AdminGiven where
  stamp : GovernanceStamp
  storage : Circumstances
  trustSave : Option Exc := none
  append : Option (Bool × Exc) := none

-- what the admin calls of a service work on; the trust store is the one of the manager
structure AdminState where
  manager : PolicyChangeManager
  trustHooks : AuditHooks := {}
  registry : VersionedPolicyRegistry
  log : ReplayLog

inductive AdminOperation where
  | propose (newPolicy : Policy) (proposer : Signer) (rationale : Str) (proposalId : Option Str)
  | proposeSigned (newPolicy : Policy) (proposerKeyId signature rationale : Str)
      (proposalId : Option Str)
  | approve (proposalId : Str) (approver : Signer)
  | approveSigned (proposalId approverKeyId signature : Str)
  | activateProposal (proposalId : Str)
  | submitTrustAdd (keyId publicKeyB64 requestedByKeyId signature : Str)
  | submitTrustRevoke (keyId requestedByKeyId signature : Str)
  | publish (policy : PyVal) (signer : Option PolicySigner)
  | activateVersion (policyId version reason : Str) (expectedRevision : Option ℤ)
  | rollbackVersion (policyId version reason : Str) (expectedRevision : Option ℤ)
  | deprecateVersion (policyId version : Str)
  | revokeVersion (policyId version : Str)

structure AdminRequest where
  operation : AdminOperation
  actorId : Str
  given : AdminGiven

structure GovernanceEntry where
  event : PyVal
  subjectId : PyVal
  actorId : PyVal

def GovernanceEntry.of (event subjectId actorId : Str) : GovernanceEntry :=
  ⟨.str event, .str subjectId, .str actorId⟩

namespace ReplayLog

def isGovernance (event : PyDict) : Bool := (event.getD "type").eq (.str (lit "governance"))

def governanceEntry (event : PyDict) : GovernanceEntry :=
  ⟨event.getD "event", event.getD "subject_id", event.getD "actor_id"⟩

-- governance_log
def governanceLog (log : ReplayLog) : List GovernanceEntry :=
  ((log.frames.map ReplayFrame.event).filter isGovernance).map governanceEntry

end ReplayLog

def AuditHooks.runAuditHook (hooks : AuditHooks) (event subjectId : Str) : Result Unit :=
  match hooks.auditHook with
  | some hook => hook event subjectId
  | none => .ok ()

namespace AdminState

variable (P : Primitives) (L : Libraries) (state : AdminState) (given : AdminGiven)

def recordGovernanceEvent (event subjectId actorId : Str) : AdminState × Result Unit :=
  match GovernedService.recordGovernanceEvent P state.log given.stamp event subjectId actorId with
  | .error e => (state, .error e)
  | .ok log =>
      match given.append with
      | none => ({ state with log := log }, .ok ())
      | some (true, e) => ({ state with log := log }, .error e)
      | some (false, e) => (state, .error e)

-- a manager that has no actor hook of its own is given the hook of the service
def audit (hooks : AuditHooks) (event subjectId actorId : Str) : AdminState × Result Unit :=
  match hooks.runAuditHook event subjectId with
  | .error e => (state, .error e)
  | .ok () =>
      match hooks.actorAuditHook with
      | some hook => (state, hook event subjectId actorId)
      | none => state.recordGovernanceEvent P given event subjectId actorId

def registerNewProposal (actorId : Str) :
    Result PolicyChangeProposal → AdminState × Result Unit
  | .error e => (state, .error e)
  | .ok proposal =>
      { state with manager := state.manager.put proposal.proposalId proposal }.audit P given
        state.manager.hooks "policy.proposed" proposal.proposalId actorId

def recordApproval (proposalId actorId : Str) :
    Result (PolicyChangeProposal × PolicyApproval) → AdminState × Result Unit
  | .error e => (state, .error e)
  | .ok (proposal, approval) =>
      { state with manager := state.manager.put proposalId (proposal.approvedBy approval) }.audit P
        given state.manager.hooks "policy.approved" proposalId actorId

def activateProposal (proposalId actorId : Str) : AdminState × Result Unit :=
  match state.manager.admitActivation P proposalId with
  | .error e => (state, .error e)
  | .ok (proposal, registry) =>
      { state with
        manager := { state.manager with registry := registry }.put proposalId
          { proposal with status := .activated } }.audit P given state.manager.hooks
            "policy.activated" proposalId actorId

-- the store has changed before its file is written
def concludeTrust (event keyId actorId : Str) : Result TrustStore → AdminState × Result Unit
  | .error e => (state, .error e)
  | .ok store =>
      let changed := { state with manager := { state.manager with trustStore := store } }
      match given.trustSave with
      | some e => (changed, .error e)
      | none => changed.audit P given state.trustHooks event keyId actorId

def submitTrustAdd (request : TrustChangeRequest) (actorId : Str) : AdminState × Result Unit :=
  state.concludeTrust P given "trust.key_added" request.keyId actorId
    (TrustChangeManager.addKey P state.manager.trustStore request)

def submitTrustRevoke (request : TrustChangeRequest) (actorId : Str) :
    AdminState × Result Unit :=
  state.concludeTrust P given "trust.key_revoked" request.keyId actorId
    (TrustChangeManager.revokeKey P state.manager.trustStore request)

def atVersion (policyId version : Str) : Str := policyId ++ lit "@" ++ version

def publish (policy : PyVal) (signer : Option PolicySigner) (actorId : Str) :
    AdminState × Result Unit :=
  match signer with
  | none => (state, .error (.custom "RuntimeError" false
      (lit "policy registry signer is not configured") .none))
  | some signer =>
      match state.registry.publish P L given.storage policy signer none with
      | (registry, .error e) => ({ state with registry := registry }, .error e)
      | (registry, .ok (.stored record)) =>
          { state with registry := registry }.recordGovernanceEvent P given
            "policy_registry.published" (atVersion record.id record.version) actorId
      | (registry, .ok _) => ({ state with registry := registry }, .ok ())

-- activate and rollback
def selectVersion (actorId : Str) :
    VersionedPolicyRegistry × Result PolicyAnswer → AdminState × Result Unit
  | (registry, .error e) => ({ state with registry := registry }, .error e)
  | (registry, .ok (.event event)) =>
      { state with registry := registry }.recordGovernanceEvent P given
        (lit "policy_registry." ++ event.operation)
        (atVersion event.policyId event.selectedVersion) actorId
  | (registry, .ok _) => ({ state with registry := registry }, .ok ())

-- deprecate and revoke answer without a governance event
def answerLifecycle :
    VersionedPolicyRegistry × Result PolicyAnswer → AdminState × Result Unit
  | (registry, .error e) => ({ state with registry := registry }, .error e)
  | (registry, .ok _) => ({ state with registry := registry }, .ok ())

def selection (policyId version reason actorId : Str) (expectedRevision : Option ℤ) :
    ActivationRequest where
  policyId := policyId
  version := version
  requestedBy := actorId
  reason := reason
  expectedRevision := expectedRevision

def perform (request : AdminRequest) : AdminState × Result Unit :=
  match request.operation with
  | .propose newPolicy proposer rationale proposalId =>
      state.registerNewProposal P request.given request.actorId
        (state.manager.draftProposal P newPolicy proposer rationale proposalId)
  | .proposeSigned newPolicy proposerKeyId signature rationale proposalId =>
      state.registerNewProposal P request.given request.actorId
        (state.manager.draftProposalSigned P newPolicy proposerKeyId signature rationale proposalId)
  | .approve proposalId approver =>
      state.recordApproval P request.given proposalId request.actorId
        (state.manager.draftApproval P proposalId approver)
  | .approveSigned proposalId approverKeyId signature =>
      state.recordApproval P request.given proposalId request.actorId
        (state.manager.draftApprovalSigned P proposalId approverKeyId signature)
  | .activateProposal proposalId =>
      state.activateProposal P request.given proposalId request.actorId
  | .submitTrustAdd keyId publicKeyB64 requestedByKeyId signature =>
      state.submitTrustAdd P request.given ⟨.add, keyId, publicKeyB64, requestedByKeyId, signature⟩
        request.actorId
  | .submitTrustRevoke keyId requestedByKeyId signature =>
      state.submitTrustRevoke P request.given ⟨.revoke, keyId, [], requestedByKeyId, signature⟩
        request.actorId
  | .publish policy signer => state.publish P L request.given policy signer request.actorId
  | .activateVersion policyId version reason expectedRevision =>
      state.selectVersion P request.given request.actorId
        (state.registry.activate P request.given.storage
          (selection policyId version reason request.actorId expectedRevision))
  | .rollbackVersion policyId version reason expectedRevision =>
      state.selectVersion P request.given request.actorId
        (state.registry.rollback P request.given.storage
          (selection policyId version reason request.actorId expectedRevision))
  | .deprecateVersion policyId version =>
      state.answerLifecycle
        (state.registry.deprecateVersion P request.given.storage policyId version none)
  | .revokeVersion policyId version =>
      state.answerLifecycle (state.registry.revoke P request.given.storage policyId version none)

-- the governance event that an operation calls for, with its subject
def eventOf : AdminOperation → Str
  | .propose _ _ _ _ | .proposeSigned _ _ _ _ _ => "policy.proposed"
  | .approve _ _ | .approveSigned _ _ _ => "policy.approved"
  | .activateProposal _ => "policy.activated"
  | .submitTrustAdd _ _ _ _ => "trust.key_added"
  | .submitTrustRevoke _ _ _ => "trust.key_revoked"
  | .publish _ _ => "policy_registry.published"
  | .activateVersion _ _ _ _ => "policy_registry.activate"
  | .rollbackVersion _ _ _ _ => "policy_registry.rollback"
  | .deprecateVersion _ _ => "policy_registry.deprecate"
  | .revokeVersion _ _ => "policy_registry.revoke"

def proposalIdOf (newPolicy : Policy) (proposalId : Option Str) : Str :=
  ((state.manager.proposalIdAndDigest P newPolicy proposalId).toOption.map Prod.fst).getD []

def versionOf (given : Circumstances) (policy : PyVal) (signer : Option PolicySigner) : Str :=
  ((newStored P L policy signer none given.now).toOption.map
    (fun stored => atVersion stored.id stored.version)).getD []

def subjectOf (given : AdminGiven) : AdminOperation → Str
  | .propose newPolicy _ _ proposalId => state.proposalIdOf P newPolicy proposalId
  | .proposeSigned newPolicy _ _ _ proposalId => state.proposalIdOf P newPolicy proposalId
  | .approve proposalId _ | .approveSigned proposalId _ _ => proposalId
  | .activateProposal proposalId => proposalId
  | .submitTrustAdd keyId _ _ _ => keyId
  | .submitTrustRevoke keyId _ _ => keyId
  | .publish policy signer => versionOf P L given.storage policy signer
  | .activateVersion policyId version _ _ => atVersion policyId version
  | .rollbackVersion policyId version _ _ => atVersion policyId version
  | .deprecateVersion policyId version => atVersion policyId version
  | .revokeVersion policyId version => atVersion policyId version

-- the governance log as the ledger of the proposals, the keys and the two registries
def ledger : Protocol.Ledger AdminState AdminRequest (PolicyChangeManager × VersionedPolicyRegistry)
    GovernanceEntry where
  step state request := (state.perform P L request).1
  managed state := (state.manager, state.registry)
  entries state := state.log.governanceLog
  entry state request := .of (eventOf request.operation)
    (state.subjectOf P L request.given request.operation) request.actorId

-- the frame of the operation's event can be built, and the log keeps it
structure Recorded (request : AdminRequest) : Prop where
  built : ∃ frame, ReplayFrame.create P
    (GovernedService.governanceFrameId request.given.stamp.uuid) state.log.headHash
    (GovernedService.governanceEvent (eventOf request.operation)
      (state.subjectOf P L request.given request.operation) request.actorId
      request.given.stamp.recordedAt) = .ok frame
  kept : ∀ e, request.given.append ≠ some (false, e)

-- the manager has the hook of the service, and its other hook does not raise
structure Audited (hooks : AuditHooks) (request : AdminRequest) : Prop where
  heard : hooks.runAuditHook (eventOf request.operation)
    (state.subjectOf P L request.given request.operation) = .ok ()
  attached : hooks.actorAuditHook = none
  recorded : state.Recorded P L request

-- an operation that passes its checks is followed through to its frame, or changes nothing
def Faultless (request : AdminRequest) : Prop :=
  match request.operation with
  | .propose newPolicy proposer rationale proposalId =>
      (∃ proposal, state.manager.draftProposal P newPolicy proposer rationale proposalId =
        .ok proposal) → state.Audited P L state.manager.hooks request
  | .proposeSigned newPolicy proposerKeyId signature rationale proposalId =>
      (∃ proposal, state.manager.draftProposalSigned P newPolicy proposerKeyId signature rationale
        proposalId = .ok proposal) → state.Audited P L state.manager.hooks request
  | .approve proposalId approver =>
      (∃ approved, state.manager.draftApproval P proposalId approver = .ok approved) →
        state.Audited P L state.manager.hooks request
  | .approveSigned proposalId approverKeyId signature =>
      (∃ approved, state.manager.draftApprovalSigned P proposalId approverKeyId signature =
        .ok approved) → state.Audited P L state.manager.hooks request
  | .activateProposal proposalId =>
      (∃ admitted, state.manager.admitActivation P proposalId = .ok admitted) →
        state.Audited P L state.manager.hooks request
  | .submitTrustAdd keyId publicKeyB64 requestedByKeyId signature =>
      (∃ store, TrustChangeManager.addKey P state.manager.trustStore
        ⟨.add, keyId, publicKeyB64, requestedByKeyId, signature⟩ = .ok store) →
          request.given.trustSave = none ∧ state.Audited P L state.trustHooks request
  | .submitTrustRevoke keyId requestedByKeyId signature =>
      (∃ store, TrustChangeManager.revokeKey P state.manager.trustStore
        ⟨.revoke, keyId, [], requestedByKeyId, signature⟩ = .ok store) →
          (keyId ∉ state.manager.trustStore.revoked ↔
            request.given.trustSave = none ∧ state.Audited P L state.trustHooks request)
  | .publish policy signer =>
      (∃ signer' stored, signer = some signer' ∧
        state.registry.admitPublication P L request.given.storage policy signer' none =
          .ok stored) →
        (∃ e, request.given.storage.put = some (false, e)) ∨
          request.given.storage.put = none ∧ request.given.storage.saveState = none ∧
            state.Recorded P L request
  | .activateVersion policyId version reason expectedRevision
  | .rollbackVersion policyId version reason expectedRevision =>
      state.registry.Admissible P request.given.storage
        (selection policyId version reason request.actorId expectedRevision) →
          request.given.storage.saveState = none ∧ state.Recorded P L request
  | .deprecateVersion policyId version =>
      state.registry.admitDeprecation P request.given.storage policyId version none = .ok () →
        Dict.get state.registry.states (policyId, version) = some .deprecated
  | .revokeVersion policyId version =>
      state.registry.admitRevocation P request.given.storage policyId version none = .ok () →
        Dict.get state.registry.states (policyId, version) = some .revoked ∧
          state.registry.previousVersion policyId ≠ some version

end AdminState

namespace AdminState

variable {P : Primitives} {L : Libraries} {state changed : AdminState} {request : AdminRequest}
  {hooks : AuditHooks} {event subjectId actorId : Str}

def managed (state : AdminState) : PolicyChangeManager × VersionedPolicyRegistry :=
  (state.manager, state.registry)

theorem governanceLog_append {log log' : ReplayLog} {frameId recordedAt : Str} {frame : ReplayFrame}
    (h : log.append P frameId (GovernedService.governanceEvent event subjectId actorId recordedAt) =
      .ok (log', frame)) :
    log'.governanceLog = log.governanceLog ++ [.of event subjectId actorId] := by
  obtain ⟨hcreate, rfl⟩ := (ReplayLog.append_eq_ok P).mp h
  obtain ⟨-, -, hevent, -⟩ := (ReplayFrame.create_eq_ok P).mp hcreate
  have hkind : ReplayLog.isGovernance frame.event = true := by
    rw [hevent, ReplayLog.isGovernance, PyVal.eq_str_right]
    simp [GovernedService.governanceEvent, PyDict.getD]
  rw [ReplayLog.governanceLog, List.map_append, List.filter_append, List.map_append,
    List.map_singleton, List.filter_singleton, hkind, hevent]
  simp [ReplayLog.governanceLog, ReplayLog.governanceEntry, GovernanceEntry.of,
    GovernedService.governanceEvent, PyDict.getD]

theorem recordGovernanceEvent_managed (given : AdminGiven) :
    (state.recordGovernanceEvent P given event subjectId actorId).1.managed = state.managed := by
  unfold recordGovernanceEvent
  split
  · rfl
  · split
    · rfl
    · rfl
    · rfl

theorem audit_managed (given : AdminGiven) :
    (state.audit P given hooks event subjectId actorId).1.managed = state.managed := by
  unfold audit
  split
  · rfl
  · split
    · rfl
    · exact recordGovernanceEvent_managed given

theorem recordGovernanceEvent_of_recorded (hlog : changed.log = state.log)
    (h : state.Recorded P L request) :
    (changed.recordGovernanceEvent P request.given (eventOf request.operation)
      (state.subjectOf P L request.given request.operation) request.actorId).1.log.governanceLog =
        state.log.governanceLog ++ [.of (eventOf request.operation)
          (state.subjectOf P L request.given request.operation) request.actorId] := by
  obtain ⟨⟨frame, hframe⟩, hkept⟩ := h
  have happend := (ReplayLog.append_eq_ok P).mpr ⟨hframe, rfl⟩
  have hrecord : GovernedService.recordGovernanceEvent P changed.log request.given.stamp
      (eventOf request.operation) (state.subjectOf P L request.given request.operation)
      request.actorId = .ok { state.log with frames := state.log.frames ++ [frame] } := by
    rw [hlog]
    exact bind_eq_ok.mpr ⟨_, happend, rfl⟩
  simp only [recordGovernanceEvent, hrecord]
  cases hraised : request.given.append with
  | none => exact governanceLog_append happend
  | some raised =>
      obtain ⟨written, e⟩ := raised
      cases written with
      | true => exact governanceLog_append happend
      | false => exact absurd hraised (hkept e)

theorem recordGovernanceEvent_of_not_recorded (hlog : changed.log = state.log)
    (h : ¬ state.Recorded P L request) :
    (changed.recordGovernanceEvent P request.given (eventOf request.operation)
      (state.subjectOf P L request.given request.operation) request.actorId).1.log.governanceLog =
        state.log.governanceLog := by
  rw [← hlog]
  unfold recordGovernanceEvent
  split
  · rfl
  · rename_i log hrecord
    obtain ⟨⟨log', frame⟩, happend, -⟩ := bind_eq_ok.mp hrecord
    obtain ⟨hframe, -⟩ := (ReplayLog.append_eq_ok P).mp happend
    split
    · rename_i hquiet
      exact absurd ⟨⟨frame, hlog ▸ hframe⟩, by simp [hquiet]⟩ h
    · rename_i e hraised
      exact absurd ⟨⟨frame, hlog ▸ hframe⟩, by simp [hraised]⟩ h
    · rfl

theorem audit_of_audited (hlog : changed.log = state.log) (h : state.Audited P L hooks request) :
    (changed.audit P request.given hooks (eventOf request.operation)
      (state.subjectOf P L request.given request.operation) request.actorId).1.log.governanceLog =
        state.log.governanceLog ++ [.of (eventOf request.operation)
          (state.subjectOf P L request.given request.operation) request.actorId] := by
  simp only [audit, h.heard, h.attached]
  exact recordGovernanceEvent_of_recorded hlog h.recorded

theorem audit_of_not_audited (hlog : changed.log = state.log)
    (h : ¬ state.Audited P L hooks request) :
    (changed.audit P request.given hooks (eventOf request.operation)
      (state.subjectOf P L request.given request.operation) request.actorId).1.log.governanceLog =
        state.log.governanceLog := by
  unfold audit
  split
  · rw [hlog]
  · rename_i hheard
    split
    · rw [hlog]
    · rename_i hattached
      exact recordGovernanceEvent_of_not_recorded hlog
        (fun hrecorded => h ⟨hheard, hattached, hrecorded⟩)

-- the change is made and then audited
theorem keeps_audited (state changed : AdminState)
    (hperform : (state.perform P L request).1 = (changed.audit P request.given hooks
      (eventOf request.operation) (state.subjectOf P L request.given request.operation)
      request.actorId).1) (hlog : changed.log = state.log) :
    (ledger P L).Keeps state request ↔
      (changed.managed ≠ state.managed ↔ state.Audited P L hooks request) := by
  have heffective : (ledger P L).Effective state request ↔ changed.managed ≠ state.managed := by
    show ((state.perform P L request).1.managed ≠ state.managed) ↔ _
    rw [hperform, audit_managed]
  by_cases haudited : state.Audited P L hooks request
  · rw [iff_true_right haudited, ← heffective]
    apply Protocol.Ledger.keeps_of_entered
    show (state.perform P L request).1.log.governanceLog = _
    rw [hperform]
    exact audit_of_audited hlog haudited
  · rw [iff_false_right haudited, ← heffective]
    apply Protocol.Ledger.keeps_of_same
    show (state.perform P L request).1.log.governanceLog = _
    rw [hperform]
    exact audit_of_not_audited hlog haudited

theorem keeps_recorded (state changed : AdminState)
    (hperform : (state.perform P L request).1 = (changed.recordGovernanceEvent P request.given
      (eventOf request.operation) (state.subjectOf P L request.given request.operation)
      request.actorId).1) (hlog : changed.log = state.log) :
    (ledger P L).Keeps state request ↔
      (changed.managed ≠ state.managed ↔ state.Recorded P L request) := by
  have heffective : (ledger P L).Effective state request ↔ changed.managed ≠ state.managed := by
    show ((state.perform P L request).1.managed ≠ state.managed) ↔ _
    rw [hperform, recordGovernanceEvent_managed]
  by_cases hrecorded : state.Recorded P L request
  · rw [iff_true_right hrecorded, ← heffective]
    apply Protocol.Ledger.keeps_of_entered
    show (state.perform P L request).1.log.governanceLog = _
    rw [hperform]
    exact recordGovernanceEvent_of_recorded hlog hrecorded
  · rw [iff_false_right hrecorded, ← heffective]
    apply Protocol.Ledger.keeps_of_same
    show (state.perform P L request).1.log.governanceLog = _
    rw [hperform]
    exact recordGovernanceEvent_of_not_recorded hlog hrecorded

-- nothing is written to the log
theorem keeps_silent (state changed : AdminState)
    (hperform : (state.perform P L request).1 = changed) (hlog : changed.log = state.log) :
    (ledger P L).Keeps state request ↔ changed.managed = state.managed := by
  have hsame : (ledger P L).entries ((ledger P L).step state request) =
      (ledger P L).entries state := by
    show (state.perform P L request).1.log.governanceLog = state.log.governanceLog
    rw [hperform, hlog]
  rw [Protocol.Ledger.keeps_of_same hsame, ← not_ne_iff]
  show ¬ ((state.perform P L request).1.managed ≠ state.managed) ↔ _
  rw [hperform]

theorem keeps_refused (hperform : (state.perform P L request).1 = state) :
    (ledger P L).Keeps state request :=
  (keeps_silent state state hperform rfl).mpr rfl

end AdminState

namespace PolicyChangeManager

variable {P : Primitives} {manager : PolicyChangeManager} {proposal : PolicyChangeProposal}
  {approval : PolicyApproval} {proposalId : Str}

theorem put_ne (h : Dict.get manager.proposals proposalId ≠ some proposal) :
    manager.put proposalId proposal ≠ manager := by
  intro hsame
  have hget := congrArg (fun m => Dict.get m.proposals proposalId) hsame
  simp only [put, Dict.get_set_eq, if_true] at hget
  exact h hget.symm

-- a drafted proposal has the resolved id, and there is none of that id yet
structure Drafted (P : Primitives) (manager : PolicyChangeManager) (newPolicy : Policy)
    (given : Option Str) (proposal : PolicyChangeProposal) : Prop where
  resolved : ∃ digest, manager.proposalIdAndDigest P newPolicy given =
    .ok (proposal.proposalId, digest)
  new : Dict.get manager.proposals proposal.proposalId = none

theorem get_none_of_has {proposals : List (Str × PolicyChangeProposal)}
    (h : Dict.has proposals proposalId = false) : Dict.get proposals proposalId = none := by
  rwa [Dict.has, Option.isSome_eq_false_iff, Option.isNone_iff_eq_none] at h

theorem drafted_of_draftProposal {newPolicy : Policy} {proposer : Signer} {rationale : Str}
    {given : Option Str}
    (h : manager.draftProposal P newPolicy proposer rationale given = .ok proposal) :
    Drafted P manager newPolicy given proposal := by
  simp only [draftProposal, PolicyChangeProposal.propose, bind_eq_ok, Except.ok.injEq] at h
  obtain ⟨-, -, ⟨resolvedId, digest⟩, hid, issued, ⟨payload, -, rfl⟩, hcheck⟩ := h
  obtain ⟨rfl, hnew⟩ := new_of_checkProposal hcheck
  exact ⟨⟨digest, hid⟩, get_none_of_has hnew⟩

theorem drafted_of_draftProposalSigned {newPolicy : Policy}
    {proposerKeyId signature rationale : Str} {given : Option Str}
    (h : manager.draftProposalSigned P newPolicy proposerKeyId signature rationale given =
      .ok proposal) : Drafted P manager newPolicy given proposal := by
  simp only [draftProposalSigned, bind_eq_ok] at h
  obtain ⟨-, -, ⟨resolvedId, digest⟩, hid, hcheck⟩ := h
  obtain ⟨rfl, hnew⟩ := new_of_checkProposal hcheck
  exact ⟨⟨digest, hid⟩, get_none_of_has hnew⟩

theorem approvedBy_ne (proposal : PolicyChangeProposal) (approval : PolicyApproval) :
    proposal.approvedBy approval ≠ proposal := by
  intro hsame
  have hlength := congrArg (fun p => p.approvals.length) hsame
  simp [PolicyChangeProposal.approvedBy, List.length_insertionSort] at hlength

theorem put_approved_ne (h : Approves P manager proposalId proposal approval) :
    manager.put proposalId (proposal.approvedBy approval) ≠ manager := by
  apply put_ne
  rw [h.registered]
  intro hsame
  exact approvedBy_ne proposal approval (Option.some.inj hsame).symm

end PolicyChangeManager

namespace AdminState

variable {P : Primitives} {L : Libraries} {state : AdminState} {request : AdminRequest}

theorem manager_ne {manager : PolicyChangeManager} (h : manager ≠ state.manager) :
    { state with manager := manager }.managed ≠ state.managed :=
  fun hsame => h (congrArg Prod.fst hsame)

theorem registry_eq_iff {registry : VersionedPolicyRegistry} :
    { state with registry := registry }.managed = state.managed ↔ registry = state.registry := by
  constructor
  · exact congrArg Prod.snd
  · rintro rfl
    rfl

theorem keeps_register {newPolicy : Policy} {proposalId : Option Str}
    {draft : Result PolicyChangeProposal}
    (hperform : state.perform P L request =
      state.registerNewProposal P request.given request.actorId draft)
    (hevent : eventOf request.operation = lit "policy.proposed")
    (hsubject : state.subjectOf P L request.given request.operation =
      state.proposalIdOf P newPolicy proposalId)
    (hdraft : ∀ proposal, draft = .ok proposal →
      state.manager.Drafted P newPolicy proposalId proposal) :
    (ledger P L).Keeps state request ↔
      ((∃ proposal, draft = .ok proposal) → state.Audited P L state.manager.hooks request) := by
  cases draft with
  | error e =>
      refine iff_of_true (keeps_refused (by rw [hperform]; rfl)) ?_
      rintro ⟨proposal, hproposal⟩
      cases hproposal
  | ok proposal =>
      obtain ⟨⟨digest, hid⟩, hnew⟩ := hdraft proposal rfl
      have hproposalId : state.subjectOf P L request.given request.operation =
          proposal.proposalId := by
        rw [hsubject, proposalIdOf, hid]
        rfl
      have hchanged : state.manager.put proposal.proposalId proposal ≠ state.manager :=
        PolicyChangeManager.put_ne (by simp [hnew])
      rw [keeps_audited state
        { state with manager := state.manager.put proposal.proposalId proposal }
        (by rw [hperform, hevent, hproposalId]; rfl) rfl, iff_true_left (manager_ne hchanged)]
      exact ⟨fun h _ => h, fun h => h ⟨proposal, rfl⟩⟩

theorem keeps_approval {proposalId : Str} {draft : Result (PolicyChangeProposal × PolicyApproval)}
    (hperform : state.perform P L request =
      state.recordApproval P request.given proposalId request.actorId draft)
    (hevent : eventOf request.operation = lit "policy.approved")
    (hsubject : state.subjectOf P L request.given request.operation = proposalId)
    (hdraft : ∀ proposal approval, draft = .ok (proposal, approval) →
      PolicyChangeManager.Approves P state.manager proposalId proposal approval) :
    (ledger P L).Keeps state request ↔
      ((∃ approved, draft = .ok approved) → state.Audited P L state.manager.hooks request) := by
  cases draft with
  | error e =>
      refine iff_of_true (keeps_refused (by rw [hperform]; rfl)) ?_
      rintro ⟨approved, happroved⟩
      cases happroved
  | ok approved =>
      obtain ⟨proposal, approval⟩ := approved
      have hchanged := PolicyChangeManager.put_approved_ne (hdraft proposal approval rfl)
      rw [keeps_audited state
        { state with manager := state.manager.put proposalId (proposal.approvedBy approval) }
        (by rw [hperform, hevent, hsubject]; rfl) rfl, iff_true_left (manager_ne hchanged)]
      exact ⟨fun h _ => h, fun h => h ⟨_, rfl⟩⟩

theorem keeps_activateProposal {proposalId : Str}
    (hoperation : request.operation = .activateProposal proposalId) :
    (ledger P L).Keeps state request ↔
      ((∃ admitted, state.manager.admitActivation P proposalId = .ok admitted) →
        state.Audited P L state.manager.hooks request) := by
  have hperform : state.perform P L request =
      state.activateProposal P request.given proposalId request.actorId := by
    rw [perform, hoperation]
  have hevent : eventOf request.operation = lit "policy.activated" := by rw [hoperation, eventOf]
  have hsubject : state.subjectOf P L request.given request.operation = proposalId := by
    rw [hoperation, subjectOf]
  rw [activateProposal] at hperform
  cases hpassed : state.manager.admitActivation P proposalId with
  | error e =>
      rw [hpassed] at hperform
      refine iff_of_true (keeps_refused (by rw [hperform])) ?_
      rintro ⟨admitted, hadmitted⟩
      cases hadmitted
  | ok admitted =>
      obtain ⟨proposal, registry⟩ := admitted
      rw [hpassed] at hperform
      obtain ⟨hget, hpending, -⟩ := PolicyChangeManager.admitActivation_eq_ok.mp hpassed
      have hchanged : ∀ manager : PolicyChangeManager, Dict.get manager.proposals proposalId =
          some { proposal with status := .activated } → manager ≠ state.manager := by
        rintro manager hfound rfl
        rw [hget] at hfound
        have hstatus := congrArg PolicyChangeProposal.status (Option.some.inj hfound)
        rw [hpending] at hstatus
        cases hstatus
      rw [keeps_audited state { state with
          manager := { state.manager with registry := registry }.put proposalId
            { proposal with status := .activated } } (by rw [hperform, hevent, hsubject]) rfl,
        iff_true_left (manager_ne (hchanged _ (by
          rw [PolicyChangeManager.put, Dict.get_set_eq, if_pos rfl])))]
      exact ⟨fun h _ => h, fun h => h ⟨_, rfl⟩⟩

theorem keeps_trust (state : AdminState) {draft : Result TrustStore}
    (hperform : state.perform P L request = state.concludeTrust P request.given
      (eventOf request.operation) (state.subjectOf P L request.given request.operation)
      request.actorId draft) :
    (ledger P L).Keeps state request ↔ ∀ store, draft = .ok store →
      (store ≠ state.manager.trustStore ↔
        request.given.trustSave = none ∧ state.Audited P L state.trustHooks request) := by
  cases draft with
  | error e =>
      refine iff_of_true (keeps_refused (by rw [hperform]; rfl)) ?_
      intro store hstore
      cases hstore
  | ok store =>
      have hstore : { state with manager := { state.manager with trustStore := store } }.managed ≠
          state.managed ↔ store ≠ state.manager.trustStore := by
        apply not_congr
        constructor
        · intro hsame
          exact congrArg (fun m => m.1.trustStore) hsame
        · rintro rfl
          rfl
      simp only [Except.ok.injEq, forall_eq']
      rw [concludeTrust] at hperform
      cases hsave : request.given.trustSave with
      | some e =>
          simp only [hsave] at hperform
          rw [keeps_silent state _ (congrArg Prod.fst hperform) rfl, ← not_ne_iff, hstore]
          simp
      | none =>
          simp only [hsave] at hperform
          rw [keeps_audited state _ (congrArg Prod.fst hperform) rfl, hstore]
          simp

theorem keeps_trustAdd {keyId publicKeyB64 requestedByKeyId signature : Str}
    (hoperation : request.operation =
      .submitTrustAdd keyId publicKeyB64 requestedByKeyId signature) :
    (ledger P L).Keeps state request ↔ ((∃ store, TrustChangeManager.addKey P
      state.manager.trustStore ⟨.add, keyId, publicKeyB64, requestedByKeyId, signature⟩ =
        .ok store) →
      request.given.trustSave = none ∧ state.Audited P L state.trustHooks request) := by
  rw [keeps_trust state (by rw [perform, hoperation]; rfl), forall_exists_index]
  apply forall_congr'
  intro store
  apply imp_congr_right
  intro hadd
  obtain ⟨-, key, -, hadd⟩ := TrustChangeManager.addKey_eq_ok.mp hadd
  apply iff_true_left
  rintro rfl
  have hbefore := TrustStore.resolve_before_add hadd
  rw [TrustStore.resolve_add hadd] at hbefore
  cases hbefore

theorem keeps_trustRevoke {keyId requestedByKeyId signature : Str}
    (hoperation : request.operation = .submitTrustRevoke keyId requestedByKeyId signature) :
    (ledger P L).Keeps state request ↔ ((∃ store, TrustChangeManager.revokeKey P
      state.manager.trustStore ⟨.revoke, keyId, [], requestedByKeyId, signature⟩ = .ok store) →
      (keyId ∉ state.manager.trustStore.revoked ↔
        request.given.trustSave = none ∧ state.Audited P L state.trustHooks request)) := by
  rw [keeps_trust state (by rw [perform, hoperation]; rfl), forall_exists_index]
  apply forall_congr'
  intro store
  apply imp_congr_right
  intro hrevoke
  obtain ⟨-, hrevoke⟩ := TrustChangeManager.revokeKey_eq_ok.mp hrevoke
  apply iff_congr ?_ Iff.rfl
  apply not_congr
  constructor
  · rintro rfl
    exact (TrustStore.mem_revoked_of_revoke hrevoke).mpr (Or.inl rfl)
  · intro hrevoked
    obtain ⟨hkeys, hsame⟩ := TrustStore.revoke_eq_ok hrevoke
    rw [if_pos hrevoked] at hsame
    exact TrustStore.eq_of_keys hkeys hsame

theorem registry_ne {registry : VersionedPolicyRegistry} (h : registry ≠ state.registry) :
    { state with registry := registry }.managed ≠ state.managed :=
  fun hsame => h (registry_eq_iff.mp hsame)

theorem admitted_publication {registry : VersionedPolicyRegistry} {given : Circumstances}
    {policy : PyVal} {signer : PolicySigner} {stored : StoredPolicy}
    (h : registry.admitPublication P L given policy signer none = .ok stored) :
    newStored P L policy (some signer) none given.now = .ok stored ∧
      Dict.get registry.storage (stored.id, stored.version) = none := by
  obtain ⟨stored', hstored, h⟩ := bind_eq_ok.mp h
  obtain ⟨existing, hexisting, h⟩ := bind_eq_ok.mp h
  obtain ⟨checked, hfresh, h⟩ := bind_eq_ok.mp h
  obtain ⟨result, -, h⟩ := bind_eq_ok.mp h
  obtain ⟨valid, -, h⟩ := bind_eq_ok.mp h
  obtain rfl := Except.ok.inj h
  refine ⟨hstored, ?_⟩
  rw [← VersionedPolicyRegistry.find_eq_ok hexisting]
  simpa using hfresh

theorem keeps_publish {policy : PyVal} {signer : Option PolicySigner}
    (hoperation : request.operation = .publish policy signer) :
    (ledger P L).Keeps state request ↔
      ((∃ signer' stored, signer = some signer' ∧
        state.registry.admitPublication P L request.given.storage policy signer' none =
          .ok stored) →
        (∃ e, request.given.storage.put = some (false, e)) ∨
          request.given.storage.put = none ∧ request.given.storage.saveState = none ∧
            state.Recorded P L request) := by
  have hperform : state.perform P L request =
      state.publish P L request.given policy signer request.actorId := by
    rw [perform, hoperation]
  cases signer with
  | none =>
      refine iff_of_true (keeps_refused (by rw [hperform]; rfl)) ?_
      rintro ⟨signer', stored, hnone, -⟩
      cases hnone
  | some signer =>
      cases hpassed :
          state.registry.admitPublication P L request.given.storage policy signer none with
      | error e =>
          refine iff_of_true (keeps_refused ?_) ?_
          · rw [hperform]
            simp only [publish, VersionedPolicyRegistry.publish, hpassed]
          · rintro ⟨signer', stored, hsigner, hstored⟩
            obtain rfl := Option.some.inj hsigner
            rw [hpassed] at hstored
            cases hstored
      | ok stored =>
          obtain ⟨hstored, hfresh⟩ := admitted_publication hpassed
          have hchanged : ∀ registry : VersionedPolicyRegistry,
              Dict.get registry.storage (stored.id, stored.version) = some stored →
                registry ≠ state.registry := by
            rintro registry hget rfl
            rw [hfresh] at hget
            cases hget
          have hset : Dict.get (Dict.set state.registry.storage (stored.id, stored.version) stored)
              (stored.id, stored.version) = some stored := by
            rw [Dict.get_set_eq, if_pos rfl]
          have hsubject : state.subjectOf P L request.given request.operation =
              atVersion stored.id stored.version := by
            rw [hoperation, subjectOf, versionOf, hstored]
            rfl
          have hevent : eventOf request.operation = lit "policy_registry.published" := by
            rw [hoperation, eventOf]
          have hpublish : state.registry.publish P L request.given.storage policy signer none =
              state.registry.insert request.given.storage stored := by
            rw [VersionedPolicyRegistry.publish, hpassed]
          rw [imp_iff_right ⟨signer, stored, rfl, hpassed⟩]
          simp only [publish, hpublish, VersionedPolicyRegistry.insert] at hperform
          cases hput : request.given.storage.put with
          | some raised =>
              obtain ⟨written, e⟩ := raised
              cases written with
              | false =>
                  simp only [hput] at hperform
                  exact iff_of_true (keeps_refused (congrArg Prod.fst hperform)) (Or.inl ⟨e, rfl⟩)
              | true =>
                  simp only [hput] at hperform
                  rw [keeps_silent state _ (congrArg Prod.fst hperform) rfl]
                  refine iff_of_false (registry_ne (hchanged _ hset)) ?_
                  rintro (⟨e', he⟩ | ⟨hnone, -⟩)
                  · cases he
                  · cases hnone
          | none =>
              cases hsave : request.given.storage.saveState with
              | some e =>
                  simp only [hput, hsave, VersionedPolicyRegistry.save] at hperform
                  rw [keeps_silent state _ (congrArg Prod.fst hperform) rfl]
                  refine iff_of_false (registry_ne (hchanged _ hset)) ?_
                  rintro (⟨e', he⟩ | ⟨-, hnone, -⟩)
                  · cases he
                  · cases hnone
              | none =>
                  simp only [hput, hsave, VersionedPolicyRegistry.save, ← hsubject, ← hevent]
                    at hperform
                  rw [keeps_recorded state _ (congrArg Prod.fst hperform) rfl,
                    iff_true_left (registry_ne (hchanged _ hset))]
                  simp

theorem select_ne (registry : VersionedPolicyRegistry) (event : PolicyActivationEvent) :
    registry.select event ≠ registry := by
  intro hsame
  have hlength := congrArg (fun r => (r.activationHistory event.policyId).length) hsame
  simp [VersionedPolicyRegistry.select, VersionedPolicyRegistry.activationHistory,
    Dict.get_set_eq] at hlength

theorem keeps_select {activation : ActivationRequest}
    (hperform : state.perform P L request = state.selectVersion P request.given request.actorId
      (state.registry.activate P request.given.storage activation))
    (hevent : eventOf request.operation = lit "policy_registry." ++ activation.operation)
    (hsubject : state.subjectOf P L request.given request.operation =
      atVersion activation.policyId activation.version) :
    (ledger P L).Keeps state request ↔
      (state.registry.Admissible P request.given.storage activation →
        request.given.storage.saveState = none ∧ state.Recorded P L request) := by
  rw [VersionedPolicyRegistry.activate] at hperform
  cases hpassed : state.registry.admitActivation P request.given.storage activation with
  | error e =>
      rw [hpassed] at hperform
      refine iff_of_true (keeps_refused (congrArg Prod.fst hperform)) ?_
      intro hadmissible
      rw [VersionedPolicyRegistry.admitActivation_eq_ok.mpr ⟨hadmissible, rfl⟩] at hpassed
      cases hpassed
  | ok event =>
      rw [hpassed] at hperform
      obtain ⟨hadmissible, rfl⟩ := VersionedPolicyRegistry.admitActivation_eq_ok.mp hpassed
      rw [imp_iff_right hadmissible]
      have hchanged := registry_ne (select_ne state.registry
        (state.registry.event request.given.storage activation))
      cases hsave : request.given.storage.saveState with
      | some e =>
          simp only [hsave, VersionedPolicyRegistry.save] at hperform
          rw [keeps_silent state _ (congrArg Prod.fst hperform) rfl]
          exact iff_of_false hchanged (by simp)
      | none =>
          simp only [hsave, VersionedPolicyRegistry.save] at hperform
          rw [keeps_recorded state
            { state with
              registry := state.registry.select
                (state.registry.event request.given.storage activation) }
            (by rw [hperform, hevent, hsubject]; rfl) rfl, iff_true_left hchanged]
          simp

theorem answerLifecycle_fst (answer : VersionedPolicyRegistry × Result PolicyAnswer) :
    (state.answerLifecycle answer).1 = { state with registry := answer.1 } := by
  obtain ⟨registry, answer⟩ := answer
  cases answer with
  | error e => rfl
  | ok answer => rfl

theorem keeps_lifecycle {answer : VersionedPolicyRegistry × Result PolicyAnswer}
    (hperform : state.perform P L request = state.answerLifecycle answer) :
    (ledger P L).Keeps state request ↔ answer.1 = state.registry := by
  rw [keeps_silent state { state with registry := answer.1 }
    (by rw [hperform, answerLifecycle_fst]) rfl]
  exact registry_eq_iff

-- a revoked version that was active before leaves its place, and a later revision
theorem withdraw_eq_self {registry : VersionedPolicyRegistry} {policyId version : Str} :
    registry.withdraw policyId version = registry ↔
      Dict.get registry.states (policyId, version) = some .revoked ∧
        registry.previousVersion policyId ≠ some version := by
  rw [← Dict.set_eq_self]
  constructor
  · intro hsame
    refine ⟨congrArg VersionedPolicyRegistry.states hsame, fun hprevious => ?_⟩
    obtain ⟨⟨selected, revision⟩, hactive, rfl⟩ := Option.map_eq_some_iff.mp hprevious
    have hplace := congrArg (fun r => Dict.get r.active policyId) hsame
    simp [VersionedPolicyRegistry.withdraw, hactive, Dict.get_set_eq] at hplace
  · rintro ⟨hstates, hprevious⟩
    rw [VersionedPolicyRegistry.withdraw, hstates]
    cases hactive : Dict.get registry.active policyId with
    | none => rfl
    | some selected =>
        have hother : selected.1 ≠ version := by
          rintro rfl
          exact hprevious (by rw [VersionedPolicyRegistry.previousVersion, hactive]; rfl)
        simp only [if_neg hother]

theorem admissible_rollback {registry : VersionedPolicyRegistry} {given : Circumstances}
    {activation : ActivationRequest} :
    registry.Admissible P given { activation with operation := lit "rollback" } ↔
      registry.Admissible P given activation :=
  ⟨fun h => { h with }, fun h => { h with }⟩

theorem keeps_deprecate {policyId version : Str}
    (hoperation : request.operation = .deprecateVersion policyId version) :
    (ledger P L).Keeps state request ↔
      (state.registry.admitDeprecation P request.given.storage policyId version none = .ok () →
        Dict.get state.registry.states (policyId, version) = some .deprecated) := by
  have hperform : state.perform P L request = state.answerLifecycle
      (state.registry.deprecateVersion P request.given.storage policyId version none) := by
    rw [perform, hoperation]
  rw [keeps_lifecycle hperform, VersionedPolicyRegistry.deprecateVersion]
  cases hpassed :
      state.registry.admitDeprecation P request.given.storage policyId version none with
  | error e => exact iff_of_true rfl (by rintro ⟨⟩)
  | ok u =>
      rw [imp_iff_right rfl, VersionedPolicyRegistry.save_fst, ← Dict.set_eq_self]
      exact ⟨congrArg VersionedPolicyRegistry.states, fun h => by rw [h]⟩

theorem keeps_revoke {policyId version : Str}
    (hoperation : request.operation = .revokeVersion policyId version) :
    (ledger P L).Keeps state request ↔
      (state.registry.admitRevocation P request.given.storage policyId version none = .ok () →
        Dict.get state.registry.states (policyId, version) = some .revoked ∧
          state.registry.previousVersion policyId ≠ some version) := by
  have hperform : state.perform P L request = state.answerLifecycle
      (state.registry.revoke P request.given.storage policyId version none) := by
    rw [perform, hoperation]
  rw [keeps_lifecycle hperform, VersionedPolicyRegistry.revoke]
  cases hpassed :
      state.registry.admitRevocation P request.given.storage policyId version none with
  | error e => exact iff_of_true rfl (by rintro ⟨⟩)
  | ok u =>
      rw [imp_iff_right rfl, VersionedPolicyRegistry.save_fst]
      exact withdraw_eq_self

theorem keeps_iff : (ledger P L).Keeps state request ↔ state.Faultless P L request := by
  rw [Faultless]
  cases hoperation : request.operation with
  | propose newPolicy proposer rationale proposalId =>
      exact keeps_register (by rw [perform, hoperation]) (by rw [hoperation, eventOf])
        (by rw [hoperation, subjectOf])
        (fun _ => PolicyChangeManager.drafted_of_draftProposal)
  | proposeSigned newPolicy proposerKeyId signature rationale proposalId =>
      exact keeps_register (by rw [perform, hoperation]) (by rw [hoperation, eventOf])
        (by rw [hoperation, subjectOf])
        (fun _ => PolicyChangeManager.drafted_of_draftProposalSigned)
  | approve proposalId approver =>
      exact keeps_approval (by rw [perform, hoperation]) (by rw [hoperation, eventOf])
        (by rw [hoperation, subjectOf])
        (fun _ _ h => (PolicyChangeManager.approves_of_draftApproval h).1)
  | approveSigned proposalId approverKeyId signature =>
      exact keeps_approval (by rw [perform, hoperation]) (by rw [hoperation, eventOf])
        (by rw [hoperation, subjectOf])
        (fun _ _ h => (PolicyChangeManager.approves_of_draftApprovalSigned h).1)
  | activateProposal proposalId => exact keeps_activateProposal hoperation
  | submitTrustAdd keyId publicKeyB64 requestedByKeyId signature =>
      exact keeps_trustAdd hoperation
  | submitTrustRevoke keyId requestedByKeyId signature => exact keeps_trustRevoke hoperation
  | publish policy signer => exact keeps_publish hoperation
  | activateVersion policyId version reason expectedRevision =>
      exact keeps_select (by rw [perform, hoperation])
        (by rw [hoperation, eventOf]; rfl) (by rw [hoperation, subjectOf]; rfl)
  | rollbackVersion policyId version reason expectedRevision =>
      refine (keeps_select (by rw [perform, hoperation]; rfl)
        (by rw [hoperation, eventOf]; rfl) (by rw [hoperation, subjectOf]; rfl)).trans ?_
      rw [admissible_rollback]
  | deprecateVersion policyId version => exact keeps_deprecate hoperation
  | revokeVersion policyId version => exact keeps_revoke hoperation

theorem governance_log_complete_iff (P : Primitives) (L : Libraries) (state : AdminState)
    (requests : List AdminRequest) :
    (ledger P L).Complete state requests ↔
      Calls.Each (ledger P L).step (Faultless P L) state requests := by
  rw [Protocol.Ledger.complete_iff]
  exact Calls.each_congr (A := fun _ => True) (fun _ _ _ => keeps_iff) (fun _ _ _ _ => trivial)
    trivial

end AdminState

section Silence

open VersionedPolicyRegistry (trusting draftPolicy draftSigner)

namespace AdminState

def unmanaged : AdminState where
  manager := Review.manager {}
  registry := VersionedPolicyRegistry.emptyStorage.opened
  log := {}

def asked (operation : AdminOperation) : AdminRequest where
  operation := operation
  actorId := lit "ops"
  given := { stamp := ⟨lit "0", trusting.now⟩, storage := trusting }

-- a version is published, with its frame, and then revoked
def silenced : List AdminRequest :=
  [asked (.publish (draftPolicy "1.0.0") (some draftSigner)),
    asked (.revokeVersion (lit "p1") (lit "1.0.0"))]

theorem revoked_in_silence : ¬ ∀ (P : Primitives) (L : Libraries) (state : AdminState)
    (requests : List AdminRequest), (ledger P L).Complete state requests := by
  intro h
  obtain ⟨-, hkeeps, -⟩ := Protocol.Ledger.complete_iff.mp
    (h sizePrimitives flatLibraries unmanaged silenced)
  rw [keeps_revoke rfl] at hkeeps
  have hpassed : ((((ledger sizePrimitives flatLibraries).step unmanaged
      (asked (.publish (draftPolicy "1.0.0") (some draftSigner)))).registry.admitRevocation
        sizePrimitives trusting (lit "p1") (lit "1.0.0") none).toOption).any
          (fun _ => true) = true := by
    decide +kernel
  obtain ⟨u, hu, -⟩ := isOk_of_any hpassed
  obtain ⟨hrevoked, -⟩ := hkeeps hu
  revert hrevoked
  decide +kernel

end AdminState

end Silence

end GovernedAutonomy
