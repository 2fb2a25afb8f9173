import Mathlib.Data.List.Dedup
import GovernedAutonomy.Drift
import GovernedAutonomy.PolicyChange

namespace GovernedAutonomy

open Python Protocol

namespace PolicyChangeProposal

variable {proposal : PolicyChangeProposal}

-- what no later call takes back: the signed fields stay and approvals are only added
structure Extends (proposal proposal' : PolicyChangeProposal) : Prop where
  proposalId : proposal'.proposalId = proposal.proposalId
  policyId : proposal'.policyId = proposal.policyId
  proposedPolicy : proposal'.proposedPolicy = proposal.proposedPolicy
  proposedByKeyId : proposal'.proposedByKeyId = proposal.proposedByKeyId
  approvals : ∀ approval ∈ proposal.approvals, approval ∈ proposal'.approvals

theorem Extends.refl (proposal : PolicyChangeProposal) : Extends proposal proposal :=
  ⟨rfl, rfl, rfl, rfl, fun _ h => h⟩

theorem Extends.trans {proposal' proposal'' : PolicyChangeProposal} (h : Extends proposal proposal')
    (h' : Extends proposal' proposal'') : Extends proposal proposal'' where
  proposalId := h'.proposalId.trans h.proposalId
  policyId := h'.policyId.trans h.policyId
  proposedPolicy := h'.proposedPolicy.trans h.proposedPolicy
  proposedByKeyId := h'.proposedByKeyId.trans h.proposedByKeyId
  approvals := fun approval hmem => h'.approvals approval (h.approvals approval hmem)

theorem mem_approvedBy {approval approval' : PolicyApproval} :
    approval' ∈ (proposal.approvedBy approval).approvals ↔
      approval' ∈ proposal.approvals ∨ approval' = approval := by
  simp [approvedBy, List.mem_insertionSort]

theorem le_approvalCount {approvers : List Str} (hnodup : approvers.Nodup)
    (h : ∀ approver ∈ approvers, ∃ approval ∈ proposal.approvals,
      approval.approverKeyId = approver) : approvers.length ≤ proposal.approvalCount := by
  refine Int.ofNat_le.mpr (List.subperm_of_subset hnodup ?_).length_le
  intro approver hmem
  obtain ⟨approval, hrecorded, hid⟩ := h approver hmem
  exact List.mem_dedup.mpr (List.mem_map.mpr ⟨approval, hrecorded, hid⟩)

theorem extends_approvedBy (proposal : PolicyChangeProposal) (approval : PolicyApproval) :
    Extends proposal (proposal.approvedBy approval) :=
  ⟨rfl, rfl, rfl, rfl, fun _ h => mem_approvedBy.mpr (Or.inl h)⟩

end PolicyChangeProposal

namespace PolicyChangeManager

variable {P : Primitives} {manager : PolicyChangeManager} {proposal : PolicyChangeProposal}
  {approval : PolicyApproval} {proposalId : Str}

theorem pendingProposal_eq_ok {message : String} :
    manager.pendingProposal proposalId message = .ok proposal ↔
      Dict.get manager.proposals proposalId = some proposal ∧ proposal.status = .pending := by
  unfold pendingProposal
  cases hget : Dict.get manager.proposals proposalId with
  | none => simp
  | some found =>
      by_cases hstatus : found.status = .pending
      · simp only [hstatus, ne_eq, not_true_eq_false, if_false, Except.ok.injEq, Option.some.injEq]
        exact ⟨fun h => ⟨h, h ▸ hstatus⟩, fun h => h.1⟩
      · simp only [hstatus, ne_eq, not_false_eq_true, if_true, reduceCtorEq, Option.some.injEq,
          false_iff, not_and]
        rintro rfl
        exact hstatus

-- a recorded approval was checked against the proposal and the store of that moment
structure Approves (P : Primitives) (manager : PolicyChangeManager) (proposalId : Str)
    (proposal : PolicyChangeProposal) (approval : PolicyApproval) : Prop where
  registered : Dict.get manager.proposals proposalId = some proposal
  pending : proposal.status = .pending
  duties : manager.enforceSeparationOfDuties = true →
    approval.approverKeyId ≠ proposal.proposedByKeyId
  proposalId : approval.proposalId = proposal.proposalId
  policyDigest : proposal.proposedPolicy.digest P = .ok approval.policyDigest
  verified : approval.verify P manager.trustStore = .ok true

theorem checkApproval_eq_ok {approval' : PolicyApproval} :
    manager.checkApproval P approval = .ok approval' ↔
      approval' = approval ∧ approval.verify P manager.trustStore = .ok true := by
  simp only [checkApproval, bind_eq_ok, raiseIf_eq_ok, Bool.not_eq_false, Except.ok.injEq]
  constructor
  · rintro ⟨verified, hverified, -, rfl, rfl⟩
    exact ⟨rfl, hverified⟩
  · rintro ⟨rfl, hverified⟩
    exact ⟨true, hverified, (), rfl, rfl⟩

theorem approves_of_draftApproval {approver : Signer}
    (h : manager.draftApproval P proposalId approver = .ok (proposal, approval)) :
    Approves P manager proposalId proposal approval ∧ approval.approverKeyId = approver.keyId := by
  simp only [draftApproval, PolicyApproval.issue, checkDuties, bind_eq_ok, raiseIf_eq_ok,
    Except.ok.injEq, Prod.mk.injEq] at h
  obtain ⟨found, hfound, -, hduties, -, -, digest, hdigest, issued, ⟨payload, -, rfl⟩, checked,
    hchecked, rfl, rfl⟩ := h
  obtain ⟨rfl, hverified⟩ := checkApproval_eq_ok.mp hchecked
  obtain ⟨hget, hpending⟩ := pendingProposal_eq_ok.mp hfound
  exact ⟨⟨hget, hpending, fun henforced hsame => hduties ⟨henforced, hsame⟩, rfl, hdigest,
    hverified⟩, rfl⟩

theorem approves_of_draftApprovalSigned {approverKeyId signature : Str}
    (h : manager.draftApprovalSigned P proposalId approverKeyId signature =
      .ok (proposal, approval)) :
    Approves P manager proposalId proposal approval ∧ approval.approverKeyId = approverKeyId := by
  simp only [draftApprovalSigned, checkDuties, bind_eq_ok, raiseIf_eq_ok, Except.ok.injEq,
    Prod.mk.injEq] at h
  obtain ⟨found, hfound, -, hduties, -, -, -, -, digest, hdigest, checked, hchecked, rfl, rfl⟩ := h
  obtain ⟨rfl, hverified⟩ := checkApproval_eq_ok.mp hchecked
  obtain ⟨hget, hpending⟩ := pendingProposal_eq_ok.mp hfound
  exact ⟨⟨hget, hpending, fun henforced hsame => hduties ⟨henforced, hsame⟩, rfl, hdigest,
    hverified⟩, rfl⟩

theorem new_of_checkProposal {proposal' : PolicyChangeProposal}
    (h : manager.checkProposal P proposal' = .ok proposal) :
    proposal = proposal' ∧ Dict.has manager.proposals proposal'.proposalId = false := by
  simp only [checkProposal, bind_eq_ok, raiseIf_eq_ok, Bool.not_eq_true, Except.ok.injEq] at h
  obtain ⟨verified, -, -, -, -, hnew, rfl⟩ := h
  exact ⟨rfl, hnew⟩

theorem draftProposal_isOk {newPolicy : Policy} {proposer : Signer} {rationale : Str}
    {given : Option Str} {key : PublicKey} (resolvedId digest : Str)
    (htrusted : manager.trustStore.resolve proposer.keyId = some key)
    (hid : manager.proposalIdAndDigest P newPolicy given = .ok (resolvedId, digest))
    (hissued : PolicyChangeProposal.propose P resolvedId newPolicy proposer rationale digest =
      .ok proposal)
    (hverified : proposal.verify P manager.trustStore = .ok true)
    (hnew : Dict.has manager.proposals proposal.proposalId = false) :
    manager.draftProposal P newPolicy proposer rationale given = .ok proposal := by
  simp [draftProposal, checkProposal, htrusted, hid, hissued, hverified, hnew, raiseIf, bind,
    Except.bind]

theorem draftApproval_isOk {approver : Signer} {key : PublicKey} (digest : Str)
    (hget : Dict.get manager.proposals proposalId = some proposal)
    (hpending : proposal.status = .pending) (hother : approver.keyId ≠ proposal.proposedByKeyId)
    (htrusted : manager.trustStore.resolve approver.keyId = some key)
    (hdigest : proposal.proposedPolicy.digest P = .ok digest)
    (hissued : PolicyApproval.issue P proposal.proposalId proposal.policyId digest approver =
      .ok approval)
    (hverified : approval.verify P manager.trustStore = .ok true) :
    manager.draftApproval P proposalId approver = .ok (proposal, approval) := by
  have hfound : manager.pendingProposal proposalId "proposal is no longer pending" = .ok proposal :=
    pendingProposal_eq_ok.mpr ⟨hget, hpending⟩
  simp [draftApproval, checkDuties, checkApproval, hfound, hother, htrusted, hdigest, hissued,
    hverified, raiseIf, bind, Except.bind]

-- what a call may do to the proposals: enter a new one, or extend one that is there
inductive Put (manager : PolicyChangeManager) : Str → PolicyChangeProposal → Prop
  | new {proposal : PolicyChangeProposal}
      (hnew : Dict.has manager.proposals proposal.proposalId = false)
      (hpolicy : proposal.policyId = proposal.proposedPolicy.policyId) :
      Put manager proposal.proposalId proposal
  | update {proposalId : Str} {proposal proposal' : PolicyChangeProposal}
      (hget : Dict.get manager.proposals proposalId = some proposal)
      (h : proposal.Extends proposal') : Put manager proposalId proposal'

theorem put_of_draftProposal {newPolicy : Policy} {proposer : Signer} {rationale : Str}
    {given : Option Str}
    (h : manager.draftProposal P newPolicy proposer rationale given = .ok proposal) :
    Put manager proposal.proposalId proposal := by
  simp only [draftProposal, PolicyChangeProposal.propose, bind_eq_ok, Except.ok.injEq] at h
  obtain ⟨-, -, ⟨resolvedId, digest⟩, -, issued, ⟨payload, -, rfl⟩, hcheck⟩ := h
  obtain ⟨rfl, hnew⟩ := new_of_checkProposal hcheck
  exact .new hnew rfl

theorem put_of_draftProposalSigned {newPolicy : Policy} {proposerKeyId signature rationale : Str}
    {given : Option Str}
    (h : manager.draftProposalSigned P newPolicy proposerKeyId signature rationale given =
      .ok proposal) :
    Put manager proposal.proposalId proposal := by
  simp only [draftProposalSigned, bind_eq_ok] at h
  obtain ⟨-, -, ⟨resolvedId, digest⟩, -, hcheck⟩ := h
  obtain ⟨rfl, hnew⟩ := new_of_checkProposal hcheck
  exact .new hnew rfl

theorem admitActivation_eq_ok {registry : PolicyRegistry} :
    manager.admitActivation P proposalId = .ok (proposal, registry) ↔
      Dict.get manager.proposals proposalId = some proposal ∧ proposal.status = .pending ∧
        proposal.verify P manager.trustStore = .ok true ∧
          manager.requiredApprovals ≤ proposal.approvalCount ∧
            manager.registry.register P proposal.proposedPolicy = .ok registry := by
  simp only [admitActivation, bind_eq_ok, raiseIf_eq_ok, Bool.not_eq_false, not_lt,
    Except.ok.injEq, Prod.mk.injEq]
  constructor
  · rintro ⟨found, hfound, verified, hverified, -, rfl, -, hquorum, registry', hregister, rfl, rfl⟩
    obtain ⟨hget, hpending⟩ := pendingProposal_eq_ok.mp hfound
    exact ⟨hget, hpending, hverified, hquorum, hregister⟩
  · rintro ⟨hget, hpending, hverified, hquorum, hregister⟩
    exact ⟨proposal, pendingProposal_eq_ok.mpr ⟨hget, hpending⟩, true, hverified, (), rfl, (),
      hquorum, registry, hregister, rfl, rfl⟩

theorem registerNewProposal_fst {actorId : Str} {draft : Result PolicyChangeProposal}
    (hput : ∀ proposal, draft = .ok proposal → Put manager proposal.proposalId proposal) :
    (manager.registerNewProposal actorId draft).1 = manager ∨
      ∃ proposalId proposal, Put manager proposalId proposal ∧
        (manager.registerNewProposal actorId draft).1 = manager.put proposalId proposal := by
  cases draft with
  | error e => exact Or.inl rfl
  | ok proposal => exact Or.inr ⟨_, _, hput proposal rfl, rfl⟩

theorem record_fst {actorId : Str} {draft : Result (PolicyChangeProposal × PolicyApproval)}
    (happroves : ∀ proposal approval, draft = .ok (proposal, approval) →
      Approves P manager proposalId proposal approval) :
    (manager.record proposalId actorId draft).1 = manager ∨
      ∃ proposalId' proposal, Put manager proposalId' proposal ∧
        (manager.record proposalId actorId draft).1 = manager.put proposalId' proposal := by
  cases draft with
  | error e => exact Or.inl rfl
  | ok recorded =>
      exact Or.inr ⟨_, _, .update (happroves _ _ rfl).registered
        (PolicyChangeProposal.extends_approvedBy _ _), rfl⟩

theorem activate_fst (manager : PolicyChangeManager) (proposalId actorId : Str) :
    (manager.activate P proposalId actorId).1 = manager ∨
      ∃ proposal registry, manager.admitActivation P proposalId = .ok (proposal, registry) ∧
        (manager.activate P proposalId actorId).1 =
          { manager with registry := registry }.put proposalId
            { proposal with status := .activated } := by
  unfold activate
  cases hadmission : manager.admitActivation P proposalId with
  | error e => exact Or.inl rfl
  | ok admitted => exact Or.inr ⟨_, _, rfl, rfl⟩

theorem step_cases (manager : PolicyChangeManager) (call : AdminCall) :
    ∃ registry trustStore,
      manager.step P call = { manager with registry := registry, trustStore := trustStore } ∨
        ∃ proposalId proposal, Put manager proposalId proposal ∧
          manager.step P call =
            { manager with registry := registry, trustStore := trustStore }.put proposalId
              proposal := by
  cases call with
  | propose newPolicy proposer rationale given actorId =>
      exact ⟨manager.registry, manager.trustStore,
        registerNewProposal_fst (fun proposal h => put_of_draftProposal h)⟩
  | proposeSigned newPolicy proposerKeyId signature rationale given actorId =>
      exact ⟨manager.registry, manager.trustStore,
        registerNewProposal_fst (fun proposal h => put_of_draftProposalSigned h)⟩
  | approve proposalId approver actorId =>
      exact ⟨manager.registry, manager.trustStore,
        record_fst (fun proposal approval h => (approves_of_draftApproval h).1)⟩
  | approveSigned proposalId approverKeyId signature actorId =>
      exact ⟨manager.registry, manager.trustStore,
        record_fst (fun proposal approval h => (approves_of_draftApprovalSigned h).1)⟩
  | activate proposalId actorId =>
      rcases activate_fst manager proposalId actorId with h | ⟨proposal, registry, hadmission, h⟩
      · exact ⟨manager.registry, manager.trustStore, Or.inl h⟩
      · exact ⟨registry, manager.trustStore, Or.inr ⟨proposalId,
          { proposal with status := .activated }, .update (admitActivation_eq_ok.mp hadmission).1
            ⟨rfl, rfl, rfl, rfl, fun _ hmem => hmem⟩, h⟩⟩
  | addKey keyId publicKey => exact ⟨manager.registry, _, Or.inl rfl⟩
  | revokeKey keyId => exact ⟨manager.registry, _, Or.inl rfl⟩
  | register policy => exact ⟨_, manager.trustStore, Or.inl rfl⟩
  | registerSigned manifest trustStore => exact ⟨_, manager.trustStore, Or.inl rfl⟩

theorem step_proposals (manager : PolicyChangeManager) (call : AdminCall) :
    (manager.step P call).proposals = manager.proposals ∨
      ∃ proposalId proposal, Put manager proposalId proposal ∧
        (manager.step P call).proposals = Dict.set manager.proposals proposalId proposal := by
  obtain ⟨registry, trustStore, h | ⟨proposalId, proposal, hput, h⟩⟩ :=
    step_cases (P := P) manager call
  · exact Or.inl (by rw [h])
  · exact Or.inr ⟨proposalId, proposal, hput, by rw [h]; rfl⟩

theorem duties_step (manager : PolicyChangeManager) (call : AdminCall) :
    (manager.step P call).enforceSeparationOfDuties = manager.enforceSeparationOfDuties := by
  obtain ⟨registry, trustStore, h | ⟨proposalId, proposal, -, h⟩⟩ :=
    step_cases (P := P) manager call
  · rw [h]
  · rw [h]
    rfl

theorem extends_step {call : AdminCall} (h : ∃ proposal',
      Dict.get manager.proposals proposalId = some proposal' ∧ proposal.Extends proposal') :
    ∃ proposal', Dict.get (manager.step P call).proposals proposalId = some proposal' ∧
      proposal.Extends proposal' := by
  obtain ⟨held, hget, hextends⟩ := h
  rcases step_proposals (P := P) manager call with hstep | ⟨putId, put, hput, hstep⟩
  · exact ⟨held, by rw [hstep, hget], hextends⟩
  · rw [hstep, Dict.get_set_eq]
    by_cases hid : putId = proposalId
    · subst hid
      simp only [if_true, Option.some.injEq, exists_eq_left']
      cases hput with
      | new hnew =>
          rw [Dict.has, hget] at hnew
          cases hnew
      | update hfound hupdate =>
          rw [hget] at hfound
          obtain rfl := Option.some.inj hfound
          exact hextends.trans hupdate
    · rw [if_neg hid]
      exact ⟨held, hget, hextends⟩

-- proposals stand under their own id and carry the id of the policy they propose
def OwnIds (manager : PolicyChangeManager) : Prop :=
  ∀ proposalId proposal, Dict.get manager.proposals proposalId = some proposal →
    proposal.proposalId = proposalId ∧ proposal.policyId = proposal.proposedPolicy.policyId

theorem ownIds_step {call : AdminCall} (h : manager.OwnIds) : (manager.step P call).OwnIds := by
  intro proposalId proposal hget
  rcases step_proposals (P := P) manager call with hstep | ⟨putId, put, hput, hstep⟩
  · exact h proposalId proposal (hstep ▸ hget)
  · rw [hstep, Dict.get_set_eq] at hget
    by_cases hid : putId = proposalId
    · subst hid
      simp only [if_true, Option.some.injEq] at hget
      subst hget
      cases hput with
      | new hnew hpolicy => exact ⟨rfl, hpolicy⟩
      | update hfound hupdate =>
          obtain ⟨hid, hpolicy⟩ := h _ _ hfound
          exact ⟨hupdate.proposalId.trans hid,
            hupdate.policyId.trans (hpolicy.trans (by rw [hupdate.proposedPolicy]))⟩
    · rw [if_neg hid] at hget
      exact h proposalId proposal hget

-- an approving call that the manager records, with the approval it records
inductive Records (P : Primitives) (manager : PolicyChangeManager) :
    AdminCall → Str → PolicyApproval → Prop
  | approve {proposalId actorId : Str} {approver : Signer} {proposal : PolicyChangeProposal}
      {approval : PolicyApproval}
      (h : manager.draftApproval P proposalId approver = .ok (proposal, approval)) :
      Records P manager (.approve proposalId approver actorId) proposalId approval
  | approveSigned {proposalId approverKeyId signature actorId : Str}
      {proposal : PolicyChangeProposal} {approval : PolicyApproval}
      (h : manager.draftApprovalSigned P proposalId approverKeyId signature =
        .ok (proposal, approval)) :
      Records P manager (.approveSigned proposalId approverKeyId signature actorId) proposalId
        approval

theorem records_step {call : AdminCall} (h : Records P manager call proposalId approval) :
    ∃ proposal, Approves P manager proposalId proposal approval ∧
      Dict.get (manager.step P call).proposals proposalId =
        some (proposal.approvedBy approval) := by
  cases h with
  | @approve _ actorId approver proposal _ h =>
      refine ⟨proposal, (approves_of_draftApproval h).1, ?_⟩
      simp [step, PolicyChangeManager.approve, h, record, put, Dict.get_set]
  | @approveSigned _ approverKeyId signature actorId proposal _ h =>
      refine ⟨proposal, (approves_of_draftApprovalSigned h).1, ?_⟩
      simp [step, PolicyChangeManager.approveSigned, h, record, put, Dict.get_set]

-- an approver stands by a proposal while its id resolves to the key it approved with
def StandsBy (P : Primitives) (manager : PolicyChangeManager) (calls : List AdminCall)
    (proposalId approverKeyId : Str) : Prop :=
  ∃ before call after approval, calls = before ++ call :: after ∧
    Records P (Calls.run (step P) manager before) call proposalId approval ∧
      approval.approverKeyId = approverKeyId ∧
        (Calls.run (step P) manager calls).trustStore.resolve approverKeyId =
          (Calls.run (step P) manager before).trustStore.resolve approverKeyId

def QuorumStands (P : Primitives) (manager : PolicyChangeManager) (calls : List AdminCall)
    (proposalId : Str) : Prop :=
  ∃ approvers : List Str, approvers.Nodup ∧
    (Calls.run (step P) manager calls).requiredApprovals ≤ approvers.length ∧
      ∀ approver ∈ approvers, StandsBy P manager calls proposalId approver

end PolicyChangeManager

namespace Review

open PolicyChangeManager

variable (P : Primitives) (registry : PolicyRegistry) (newPolicy : Policy)

def keyHolder (keyId : Str) : Signer := ⟨keyId, fun _ => "c2ln"⟩

def store : TrustStore := ⟨[("alice", ⟨[1]⟩), ("bob", ⟨[2]⟩), ("carol", ⟨[3]⟩)], [], by simp⟩

def manager : PolicyChangeManager := { registry := registry, trustStore := store }

def approving (approver : Str) : AdminCall := .approve "p-1" (keyHolder approver) "system"

def proposing : AdminCall :=
  .propose newPolicy (keyHolder "alice") "reason" (some (lit "p-1")) "system"

def calls : List AdminCall := [proposing newPolicy, approving "bob", approving "carol"]

def unsigned (current : Str) : PolicyChangeProposal :=
  { proposalId := "p-1"
    policyId := newPolicy.policyId
    currentPolicyDigest := current
    proposedPolicy := newPolicy
    proposedByKeyId := "alice"
    rationale := "reason" }

def proposal (current : Str) : PolicyChangeProposal :=
  { unsigned newPolicy current with signature := "c2ln" }

def approval (digest approver : Str) : PolicyApproval :=
  ⟨"p-1", newPolicy.policyId, digest, approver, "c2ln"⟩

-- what the interpreter and the keys must do for a review to go through
structure Ready (current digest : Str) : Prop where
  registered : registry.currentDigest P newPolicy.policyId = .ok current
  digests : newPolicy.digest P = .ok digest
  proposes : ∃ bytes, (unsigned newPolicy current).unsignedPayload P = .ok bytes
  approves : ∀ approver ∈ [lit "bob", lit "carol"],
    ∃ bytes, (approval newPolicy digest approver).unsignedPayload P = .ok bytes
  signs : ∀ key payload, verifySignature P key payload "c2ln" = true

variable {P registry newPolicy} {current digest : Str}

theorem resolve_alice : store.resolve "alice" = some ⟨[1]⟩ := by decide

theorem proposal_verifies (h : Ready P registry newPolicy current digest) :
    (proposal newPolicy current).verify P store = .ok true := by
  obtain ⟨bytes, hbytes⟩ := h.proposes
  exact TrustStore.verifies_eq_ok.mpr
    ⟨⟨[1]⟩, bytes, TrustStore.resolve_eq_some.mp resolve_alice, hbytes, h.signs _ _⟩

theorem draft_proposal (h : Ready P registry newPolicy current digest) :
    (manager registry).draftProposal P newPolicy (keyHolder "alice") "reason"
      (some (lit "p-1")) = .ok (proposal newPolicy current) := by
  obtain ⟨bytes, hbytes⟩ := h.proposes
  refine draftProposal_isOk (lit "p-1") current resolve_alice ?_
    (bind_eq_ok.mpr ⟨bytes, hbytes, rfl⟩) (proposal_verifies h) rfl
  simp only [proposalIdAndDigest, manager, h.registered, bind, Except.bind]
  rfl

theorem step_proposing (h : Ready P registry newPolicy current digest) :
    (manager registry).step P (proposing newPolicy) =
      (manager registry).put "p-1" (proposal newPolicy current) := by
  simp only [step, proposing, propose, draft_proposal h, registerNewProposal]
  rfl

theorem draft_approval {approver : Str} {key : PublicKey} {held : PolicyChangeProposal}
    (h : Ready P registry newPolicy current digest)
    (happrover : approver ∈ [lit "bob", lit "carol"]) (hkey : store.resolve approver = some key)
    (hheld : (proposal newPolicy current).Extends held) (hpending : held.status = .pending) :
    ((manager registry).put "p-1" held).draftApproval P "p-1" (keyHolder approver) =
      .ok (held, approval newPolicy digest approver) := by
  obtain ⟨bytes, hbytes⟩ := h.approves approver happrover
  refine draftApproval_isOk digest (by simp [put, Dict.get_set]) hpending ?_ hkey ?_ ?_ ?_
  · rw [hheld.proposedByKeyId]
    rintro rfl
    simp [proposal, unsigned] at happrover
  · rw [hheld.proposedPolicy]
    exact h.digests
  · rw [hheld.proposalId, hheld.policyId]
    exact bind_eq_ok.mpr ⟨bytes, hbytes, rfl⟩
  · exact TrustStore.verifies_eq_ok.mpr
      ⟨key, bytes, TrustStore.resolve_eq_some.mp hkey, hbytes, h.signs _ _⟩

theorem step_approving {approver : Str} {key : PublicKey} {held : PolicyChangeProposal}
    (h : Ready P registry newPolicy current digest)
    (happrover : approver ∈ [lit "bob", lit "carol"]) (hkey : store.resolve approver = some key)
    (hheld : (proposal newPolicy current).Extends held) (hpending : held.status = .pending) :
    ((manager registry).put "p-1" held).step P (approving approver) =
      (manager registry).put "p-1" (held.approvedBy (approval newPolicy digest approver)) := by
  simp only [step, approving, approve, draft_approval h happrover hkey hheld hpending, record]
  simp [put, manager, Dict.set]

def approvedOnce (newPolicy : Policy) (current digest : Str) : PolicyChangeProposal :=
  (proposal newPolicy current).approvedBy (approval newPolicy digest "bob")

def approvedTwice (newPolicy : Policy) (current digest : Str) : PolicyChangeProposal :=
  (approvedOnce newPolicy current digest).approvedBy (approval newPolicy digest "carol")

theorem resolve_bob : store.resolve "bob" = some ⟨[2]⟩ := by decide

theorem resolve_carol : store.resolve "carol" = some ⟨[3]⟩ := by decide

theorem extends_approvedOnce (newPolicy : Policy) (current digest : Str) :
    (proposal newPolicy current).Extends (approvedOnce newPolicy current digest) :=
  PolicyChangeProposal.extends_approvedBy _ _

theorem run_proposing (h : Ready P registry newPolicy current digest) :
    Calls.run (step P) (manager registry) [proposing newPolicy] =
      (manager registry).put "p-1" (proposal newPolicy current) := step_proposing h

theorem run_approvedOnce (h : Ready P registry newPolicy current digest) :
    Calls.run (step P) (manager registry) [proposing newPolicy, approving "bob"] =
      (manager registry).put "p-1" (approvedOnce newPolicy current digest) := by
  rw [Calls.run_cons, step_proposing h]
  exact step_approving h (by simp) resolve_bob (.refl _) rfl

theorem run_calls (h : Ready P registry newPolicy current digest) :
    Calls.run (step P) (manager registry) (calls newPolicy) =
      (manager registry).put "p-1" (approvedTwice newPolicy current digest) := by
  have hsplit : calls newPolicy = [proposing newPolicy, approving "bob"] ++ [approving "carol"] := rfl
  rw [hsplit, Calls.run_append, run_approvedOnce h]
  exact step_approving h (by simp) resolve_carol (extends_approvedOnce _ _ _) rfl

theorem mem_approvedTwice {recorded : PolicyApproval} :
    recorded ∈ (approvedTwice newPolicy current digest).approvals ↔
      recorded = approval newPolicy digest "bob" ∨ recorded = approval newPolicy digest "carol" := by
  simp [approvedTwice, approvedOnce, proposal, unsigned, PolicyChangeProposal.mem_approvedBy]

theorem two_le_approvalCount (newPolicy : Policy) (current digest : Str) :
    2 ≤ (approvedTwice newPolicy current digest).approvalCount := by
  refine PolicyChangeProposal.le_approvalCount
    (show [lit "bob", lit "carol"].Nodup by simp) ?_
  intro approver hmem
  refine ⟨approval newPolicy digest approver, mem_approvedTwice.mpr ?_, rfl⟩
  rcases List.mem_cons.mp hmem with rfl | hmem
  · exact Or.inl rfl
  · exact Or.inr (by rw [List.mem_singleton.mp hmem])

theorem ready (hregistered : registry.currentDigest P newPolicy.policyId = .ok current)
    (hdigest : newPolicy.digest P = .ok digest)
    (hproposal : ∃ bytes, (unsigned newPolicy current).unsignedPayload P = .ok bytes)
    (hid : Json.Clean newPolicy.policyId) (hlimit : 0 < P.recursionLimit)
    (hsigns : ∀ key payload, verifySignature P key payload "c2ln" = true) :
    Ready P registry newPolicy current digest where
  registered := hregistered
  digests := hdigest
  proposes := hproposal
  approves := by
    intro approver hmem
    have hclean : Json.Clean digest := (canonicalDigest_eq_ok hdigest).2
    have happrover : Json.Clean approver := by
      rcases List.mem_cons.mp hmem with rfl | hmem
      · exact Json.clean_lit _
      · rw [List.mem_singleton.mp hmem]
        exact Json.clean_lit _
    refine (canonicalJson_isOk P).mpr (PyVal.encodable_ofFields.mpr ⟨hlimit, ?_⟩)
    simp only [List.forall_mem_cons, List.not_mem_nil, IsEmpty.forall_iff, implies_true, and_true,
      PyVal.encodable_str]
    exact ⟨Json.clean_lit _, hid, hclean, happrover⟩
  signs := hsigns

theorem admits (h : Ready P registry newPolicy current digest) {registry' : PolicyRegistry}
    (hregister : registry.register P newPolicy = .ok registry') :
    (Calls.run (step P) (manager registry) (calls newPolicy)).admitActivation P "p-1" =
      .ok (approvedTwice newPolicy current digest, registry') := by
  rw [run_calls h, admitActivation_eq_ok]
  exact ⟨by simp [put, Dict.get_set], rfl, proposal_verifies h,
    two_le_approvalCount newPolicy current digest, hregister⟩

theorem activates (h : Ready P registry newPolicy current digest) {registry' : PolicyRegistry}
    (hregister : registry.register P newPolicy = .ok registry') :
    ((Calls.run (step P) (manager registry) (calls newPolicy)).activate P "p-1" "system").2 =
      .ok newPolicy := by
  simp only [activate, admits h hregister]
  rw [run_calls h]
  rfl

theorem quorumStands (h : Ready P registry newPolicy current digest) :
    QuorumStands P (manager registry) (calls newPolicy) "p-1" := by
  refine ⟨[lit "bob", lit "carol"], by simp, ?_, ?_⟩
  · rw [run_calls h]
    exact le_refl (2 : ℤ)
  · intro approver hmem
    unfold StandsBy
    rw [run_calls h]
    rcases List.mem_cons.mp hmem with rfl | hmem
    · have hrecords : Records P (Calls.run (step P) (manager registry) [proposing newPolicy])
          (approving "bob") "p-1" (approval newPolicy digest "bob") := by
        rw [run_proposing h]
        exact .approve (draft_approval h (by simp) resolve_bob (.refl _) rfl)
      exact ⟨_, _, [approving "carol"], _, rfl, hrecords, rfl, by rw [run_proposing h]; rfl⟩
    · obtain rfl := List.mem_singleton.mp hmem
      have hrecords : Records P
          (Calls.run (step P) (manager registry) [proposing newPolicy, approving "bob"])
          (approving "carol") "p-1" (approval newPolicy digest "carol") := by
        rw [run_approvedOnce h]
        exact .approve (draft_approval h (by simp) resolve_carol (extends_approvedOnce _ _ _) rfl)
      exact ⟨_, _, [], _, rfl, hrecords, rfl, by rw [run_approvedOnce h]; rfl⟩

def revokedStore : TrustStore :=
  keep (keep store (store.revoke "bob")) ((keep store (store.revoke "bob")).revoke "carol")

theorem run_revoked (h : Ready P registry newPolicy current digest) :
    Calls.run (step P) (manager registry)
        (calls newPolicy ++ [.revokeKey "bob", .revokeKey "carol"]) =
      { (manager registry).put "p-1" (approvedTwice newPolicy current digest) with
        trustStore := revokedStore } := by
  rw [Calls.run_append, run_calls h]
  rfl

theorem revokedStore_resolve : revokedStore.resolve "alice" = some ⟨[1]⟩ ∧
    revokedStore.resolve "bob" = none ∧ revokedStore.resolve "carol" = none := by
  decide

theorem activates_revoked (h : Ready P registry newPolicy current digest)
    {registry' : PolicyRegistry} (hregister : registry.register P newPolicy = .ok registry') :
    ((Calls.run (step P) (manager registry)
        (calls newPolicy ++ [.revokeKey "bob", .revokeKey "carol"])).activate P "p-1" "system").2 =
      .ok newPolicy := by
  rw [run_revoked h]
  have hverified : (approvedTwice newPolicy current digest).verify P revokedStore = .ok true :=
    (TrustStore.verifies_congr
      (show revokedStore.resolve _ = store.resolve _ from
        revokedStore_resolve.1.trans resolve_alice.symm)).trans (proposal_verifies h)
  have hadmission : admitActivation P
      { (manager registry).put "p-1" (approvedTwice newPolicy current digest) with
        trustStore := revokedStore } "p-1" =
      .ok (approvedTwice newPolicy current digest, registry') :=
    admitActivation_eq_ok.mpr ⟨by simp [put, Dict.get_set], rfl, hverified,
      two_le_approvalCount newPolicy current digest, hregister⟩
  simp only [activate, hadmission]
  rfl

theorem ready_demo : ∃ digest, Ready sizePrimitives {} Demo.policy [] digest := by
  obtain ⟨digest, hdigest⟩ := exists_of_toOption
    (show (Demo.policy.digest sizePrimitives).toOption.isSome = true by decide +kernel)
  exact ⟨digest, ready rfl hdigest (exists_of_toOption (by decide +kernel)) (Json.clean_lit _)
    (by decide) verifySignature_size⟩

end Review

namespace PolicyChangeManager

variable {P : Primitives} {manager : PolicyChangeManager} {proposal : PolicyChangeProposal}
  {approval : PolicyApproval} {proposalId : Str}

-- an approver counts now: another key than the proposer, trusted, its signature covers the change
structure Counts (P : Primitives) (manager : PolicyChangeManager) (proposalId : Str)
    (proposal : PolicyChangeProposal) (approver : Str) (approval : PolicyApproval) : Prop where
  recorded : approval ∈ proposal.approvals
  named : approval.approverKeyId = approver
  duties : manager.enforceSeparationOfDuties = true → approver ≠ proposal.proposedByKeyId
  proposalId : approval.proposalId = proposalId
  policyDigest : proposal.proposedPolicy.digest P = .ok approval.policyDigest
  signed : manager.trustStore.Signs P approver (approval.unsignedPayload P) approval.signature

def Authorized (P : Primitives) (manager : PolicyChangeManager) (proposalId : Str) : Prop :=
  ∃ proposal, Dict.get manager.proposals proposalId = some proposal ∧
    manager.trustStore.Signs P proposal.proposedByKeyId (proposal.unsignedPayload P)
      proposal.signature ∧
      ∃ approvers : List Str, approvers.Nodup ∧
        manager.requiredApprovals ≤ approvers.length ∧
          ∀ approver ∈ approvers, ∃ approval, Counts P manager proposalId proposal approver approval

theorem admitted_of_activate {actorId : Str} {policy : Policy}
    (h : (manager.activate P proposalId actorId).2 = .ok policy) :
    ∃ proposal registry, manager.admitActivation P proposalId = .ok (proposal, registry) := by
  unfold activate at h
  cases hadmission : manager.admitActivation P proposalId with
  | error e =>
      rw [hadmission] at h
      cases h
  | ok admitted => exact ⟨_, _, rfl⟩

theorem ownIds_run (hfresh : manager.proposals = []) (calls : List AdminCall) :
    (Calls.run (step P) manager calls).OwnIds := by
  refine Calls.always (A := OwnIds) (fun _ _ h => ownIds_step h) calls ?_
  intro proposalId proposal hget
  rw [hfresh] at hget
  cases hget

theorem duties_run (manager : PolicyChangeManager) (calls : List AdminCall) :
    (Calls.run (step P) manager calls).enforceSeparationOfDuties =
      manager.enforceSeparationOfDuties :=
  Calls.always (A := fun m => m.enforceSeparationOfDuties = manager.enforceSeparationOfDuties)
    (fun m call h => (duties_step m call).trans h) calls rfl

theorem extends_run (hget : Dict.get manager.proposals proposalId = some proposal)
    (calls : List AdminCall) :
    ∃ proposal', Dict.get (Calls.run (step P) manager calls).proposals proposalId =
      some proposal' ∧ proposal.Extends proposal' :=
  Calls.always (A := fun m : PolicyChangeManager => ∃ proposal', Dict.get m.proposals proposalId = some proposal' ∧
    proposal.Extends proposal') (fun _ _ h => extends_step h) calls ⟨proposal, hget, .refl proposal⟩

theorem counts_of_standsBy {calls : List AdminCall} {approver : Str}
    (hfresh : manager.proposals = [])
    (hget : Dict.get (Calls.run (step P) manager calls).proposals proposalId = some proposal)
    (h : StandsBy P manager calls proposalId approver) :
    ∃ approval, Counts P (Calls.run (step P) manager calls) proposalId proposal approver
      approval := by
  obtain ⟨before, call, after, approval, rfl, hrecords, rfl, hresolve⟩ := h
  obtain ⟨proposal₀, happroves, hrecorded⟩ := records_step hrecords
  have hids := ownIds_run (P := P) hfresh before proposalId proposal₀ happroves.registered
  obtain ⟨proposal', hget', hextends⟩ := extends_run (P := P) hrecorded after
  rw [← Calls.run_cons, ← Calls.run_append, hget] at hget'
  obtain rfl := Option.some.inj hget'
  refine ⟨approval, ⟨?_, rfl, ?_, happroves.proposalId.trans hids.1, ?_, ?_⟩⟩
  · exact hextends.approvals _ (PolicyChangeProposal.mem_approvedBy.mpr (Or.inr rfl))
  · intro henforced
    rw [hextends.proposedByKeyId]
    rw [Calls.run_append, duties_run] at henforced
    exact happroves.duties henforced
  · rw [hextends.proposedPolicy]
    exact happroves.policyDigest
  · rw [← TrustStore.verifies_eq_ok, TrustStore.verifies_congr hresolve]
    exact happroves.verified

theorem activation_authority {calls : List AdminCall} {actorId : Str} {policy : Policy}
    (hfresh : manager.proposals = [])
    (hactivate : ((Calls.run (step P) manager calls).activate P proposalId actorId).2 = .ok policy)
    (hquorum : QuorumStands P manager calls proposalId) :
    Authorized P (Calls.run (step P) manager calls) proposalId := by
  obtain ⟨proposal, registry, hadmission⟩ := admitted_of_activate hactivate
  obtain ⟨hget, -, hverified, -, -⟩ := admitActivation_eq_ok.mp hadmission
  obtain ⟨approvers, hnodup, hlength, hstand⟩ := hquorum
  exact ⟨proposal, hget, TrustStore.verifies_eq_ok.mp hverified, approvers, hnodup, hlength,
    fun approver hmem => counts_of_standsBy hfresh hget (hstand approver hmem)⟩

theorem activation_authority_review : ∃ policy,
    ((Calls.run (step sizePrimitives) (Review.manager {}) (Review.calls Demo.policy)).activate
        sizePrimitives "p-1" "system").2 = .ok policy ∧
      Authorized sizePrimitives
        (Calls.run (step sizePrimitives) (Review.manager {}) (Review.calls Demo.policy)) "p-1" := by
  obtain ⟨digest, hready⟩ := Review.ready_demo
  have hpolicy := Review.activates hready rfl
  exact ⟨_, hpolicy, activation_authority rfl hpolicy (Review.quorumStands hready)⟩

theorem Review.not_authorized_revoked {P : Primitives} {registry : PolicyRegistry}
    {newPolicy : Policy} {current digest : Str}
    (h : Review.Ready P registry newPolicy current digest) :
    ¬ Authorized P (Calls.run (step P) (Review.manager registry)
      (Review.calls newPolicy ++ [.revokeKey "bob", .revokeKey "carol"])) "p-1" := by
  rw [Review.run_revoked h]
  rintro ⟨proposal, hget, -, approvers, -, hlength, hcounts⟩
  have hheld : Review.approvedTwice newPolicy current digest = proposal := by
    simpa [put, Dict.get_set] using hget
  subst hheld
  cases approvers with
  | nil => exact absurd (show (2 : ℤ) ≤ 0 from hlength) (by decide)
  | cons approver approvers =>
      obtain ⟨approval, hrecorded, rfl, -, -, -, hsigned⟩ := hcounts approver List.mem_cons_self
      obtain ⟨key, hkey⟩ := hsigned.trusted
      obtain ⟨-, hbob, hcarol⟩ := Review.revokedStore_resolve
      rcases Review.mem_approvedTwice.mp hrecorded with rfl | rfl
      · exact absurd (hbob.symm.trans hkey) (by simp)
      · exact absurd (hcarol.symm.trans hkey) (by simp)

-- both approvers are revoked after they approved, and their approvals are counted all the same
theorem policy_activated_without_quorum :
    ¬ ∀ (P : Primitives) (manager : PolicyChangeManager) (calls : List AdminCall)
      (proposalId actorId : Str) (policy : Policy), manager.proposals = [] →
        ((Calls.run (step P) manager calls).activate P proposalId actorId).2 = .ok policy →
          Authorized P (Calls.run (step P) manager calls) proposalId := by
  intro h
  obtain ⟨digest, hready⟩ := Review.ready_demo
  have hactivates := Review.activates_revoked hready rfl
  exact Review.not_authorized_revoked hready (h _ _ _ _ _ _ rfl hactivates)

end PolicyChangeManager

end GovernedAutonomy
