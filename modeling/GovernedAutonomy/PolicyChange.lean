import GovernedAutonomy.TrustChange

namespace GovernedAutonomy

open Python Protocol

structure PolicyApproval where
  proposalId : Str
  policyId : Str
  policyDigest : Str
  approverKeyId : Str
  signature : Str

namespace PolicyApproval

variable (P : Primitives)

def unsignedPayload (approval : PolicyApproval) : Result String :=
  canonicalJson P (.dict (PyDict.ofFields
    [("proposal_id", .str approval.proposalId), ("policy_id", .str approval.policyId),
      ("policy_digest", .str approval.policyDigest),
      ("approver_key_id", .str approval.approverKeyId)]))

def issue (proposalId policyId policyDigest : Str) (approver : Signer) :
    Result PolicyApproval := do
  let unsigned : PolicyApproval := ⟨proposalId, policyId, policyDigest, approver.keyId, []⟩
  let payload ← unsigned.unsignedPayload P
  .ok { unsigned with signature := approver.sign payload }

def verify (approval : PolicyApproval) (store : TrustStore) : Result Bool :=
  store.verifies P approval.approverKeyId (approval.unsignedPayload P) approval.signature

end PolicyApproval

inductive ProposalStatus where
  | pending
  | activated
deriving DecidableEq

def ProposalStatus.text : ProposalStatus → Str
  | .pending => "pending"
  | .activated => "activated"

structure PolicyChangeProposal where
  proposalId : Str
  policyId : Str
  currentPolicyDigest : Str
  proposedPolicy : Policy
  proposedByKeyId : Str
  rationale : Str
  status : ProposalStatus := .pending
  signature : Str := []
  approvals : List PolicyApproval := []

namespace PolicyChangeProposal

variable (P : Primitives)

def unsignedPayload (proposal : PolicyChangeProposal) : Result String :=
  canonicalJson P (.dict (PyDict.ofFields
    [("proposal_id", .str proposal.proposalId), ("policy_id", .str proposal.policyId),
      ("current_policy_digest", .str proposal.currentPolicyDigest),
      ("proposed_policy", .dict proposal.proposedPolicy.toDict),
      ("proposed_by_key_id", .str proposal.proposedByKeyId),
      ("rationale", .str proposal.rationale), ("status", .str proposal.status.text)]))

def propose (proposalId : Str) (policy : Policy) (proposer : Signer)
    (rationale currentPolicyDigest : Str) : Result PolicyChangeProposal := do
  let payload : PolicyChangeProposal :=
    { proposalId := proposalId
      policyId := policy.policyId
      currentPolicyDigest := currentPolicyDigest
      proposedPolicy := policy
      proposedByKeyId := proposer.keyId
      rationale := rationale }
  let bytes ← payload.unsignedPayload P
  .ok { payload with signature := proposer.sign bytes }

def verify (proposal : PolicyChangeProposal) (store : TrustStore) : Result Bool :=
  store.verifies P proposal.proposedByKeyId (proposal.unsignedPayload P) proposal.signature

def approvers (proposal : PolicyChangeProposal) : List Str :=
  (proposal.approvals.map PolicyApproval.approverKeyId).dedup

def approvalCount (proposal : PolicyChangeProposal) : ℤ := proposal.approvers.length

def approvedBy (proposal : PolicyChangeProposal) (approval : PolicyApproval) :
    PolicyChangeProposal :=
  { proposal with
    approvals := (proposal.approvals ++ [approval]).insertionSort
      (fun a b => a.approverKeyId ≤ b.approverKeyId) }

end PolicyChangeProposal

-- the digest of the policy registered under an id, empty when there is none
def PolicyRegistry.currentDigest (P : Primitives) (registry : PolicyRegistry) (policyId : Str) :
    Result Str :=
  match Dict.get registry.policies policyId with
  | some existing => existing.digest P
  | none => .ok []

structure PolicyChangeManager where
  registry : PolicyRegistry
  trustStore : TrustStore
  requiredApprovals : ℤ := 2
  enforceSeparationOfDuties : Bool := true
  hooks : AuditHooks := {}
  proposals : List (Str × PolicyChangeProposal) := []
  positive : 0 < requiredApprovals := by decide

namespace PolicyChangeManager

variable (P : Primitives) (manager : PolicyChangeManager)

def proposalIdAndDigest (newPolicy : Policy) (proposalId : Option Str) : Result (Str × Str) := do
  let currentDigest ← manager.registry.currentDigest P newPolicy.policyId
  let resolvedId := match proposalId with
    | some (c :: s) => c :: s
    | _ => lit "policy-proposal:" ++ newPolicy.policyId ++ lit ":" ++
        (if currentDigest = [] then lit "new" else currentDigest)
  .ok (resolvedId, currentDigest)

def checkProposal (proposal : PolicyChangeProposal) : Result PolicyChangeProposal := do
  let verified ← proposal.verify P manager.trustStore
  raiseIf (verified = false) (.valueError (lit "proposal signature is invalid"))
  raiseIf (Dict.has manager.proposals proposal.proposalId = true)
    (.valueError (lit "proposal already exists: " ++ proposal.proposalId))
  .ok proposal

def draftProposal (newPolicy : Policy) (proposer : Signer) (rationale : Str)
    (proposalId : Option Str) : Result PolicyChangeProposal := do
  raiseIf (manager.trustStore.resolve proposer.keyId = none)
    (.valueError (lit "proposer key is not trusted"))
  let (resolvedId, currentDigest) ← manager.proposalIdAndDigest P newPolicy proposalId
  let proposal ← PolicyChangeProposal.propose P resolvedId newPolicy proposer rationale
    currentDigest
  manager.checkProposal P proposal

def draftProposalSigned (newPolicy : Policy) (proposerKeyId signature rationale : Str)
    (proposalId : Option Str) : Result PolicyChangeProposal := do
  raiseIf (manager.trustStore.resolve proposerKeyId = none)
    (.valueError (lit "proposer key is not trusted"))
  let (resolvedId, currentDigest) ← manager.proposalIdAndDigest P newPolicy proposalId
  manager.checkProposal P
    { proposalId := resolvedId
      policyId := newPolicy.policyId
      currentPolicyDigest := currentDigest
      proposedPolicy := newPolicy
      proposedByKeyId := proposerKeyId
      rationale := rationale
      signature := signature }

def put (proposalId : Str) (proposal : PolicyChangeProposal) : PolicyChangeManager :=
  { manager with proposals := Dict.set manager.proposals proposalId proposal }

def registerNewProposal (actorId : Str) :
    Result PolicyChangeProposal → PolicyChangeManager × Result PolicyChangeProposal
  | .error e => (manager, .error e)
  | .ok proposal => (manager.put proposal.proposalId proposal, do
      manager.hooks.audit "policy.proposed" proposal.proposalId actorId
      .ok proposal)

def propose (newPolicy : Policy) (proposer : Signer) (rationale : Str) (proposalId : Option Str)
    (actorId : Str) : PolicyChangeManager × Result PolicyChangeProposal :=
  manager.registerNewProposal actorId
    (manager.draftProposal P newPolicy proposer rationale proposalId)

def proposeSigned (newPolicy : Policy) (proposerKeyId signature rationale : Str)
    (proposalId : Option Str) (actorId : Str) :
    PolicyChangeManager × Result PolicyChangeProposal :=
  manager.registerNewProposal actorId
    (manager.draftProposalSigned P newPolicy proposerKeyId signature rationale proposalId)

def pendingProposal (proposalId : Str) (message : String) : Result PolicyChangeProposal :=
  match Dict.get manager.proposals proposalId with
  | none => .error (.builtin .keyError)
  | some proposal =>
      if proposal.status ≠ .pending then .error (.valueError (lit message)) else .ok proposal

def checkDuties (proposal : PolicyChangeProposal) (approverKeyId : Str) : Result Unit :=
  raiseIf (manager.enforceSeparationOfDuties = true ∧ approverKeyId = proposal.proposedByKeyId)
    (.valueError (lit "proposer cannot approve the same policy change"))

def checkApproval (approval : PolicyApproval) : Result PolicyApproval := do
  let verified ← approval.verify P manager.trustStore
  raiseIf (verified = false) (.valueError (lit "approval signature is invalid"))
  .ok approval

def draftApproval (proposalId : Str) (approver : Signer) :
    Result (PolicyChangeProposal × PolicyApproval) := do
  let proposal ← manager.pendingProposal proposalId "proposal is no longer pending"
  manager.checkDuties proposal approver.keyId
  raiseIf (manager.trustStore.resolve approver.keyId = none)
    (.valueError (lit "approver key is not trusted"))
  let digest ← proposal.proposedPolicy.digest P
  let approval ← PolicyApproval.issue P proposal.proposalId proposal.policyId digest approver
  let approval ← manager.checkApproval P approval
  .ok (proposal, approval)

def draftApprovalSigned (proposalId approverKeyId signature : Str) :
    Result (PolicyChangeProposal × PolicyApproval) := do
  let proposal ← manager.pendingProposal proposalId "proposal is no longer pending"
  manager.checkDuties proposal approverKeyId
  raiseIf (approverKeyId ∈ proposal.approvers)
    (.valueError (lit "this key has already approved the proposal"))
  raiseIf (manager.trustStore.resolve approverKeyId = none)
    (.valueError (lit "approver key is not trusted"))
  let digest ← proposal.proposedPolicy.digest P
  let approval ← manager.checkApproval P
    ⟨proposal.proposalId, proposal.policyId, digest, approverKeyId, signature⟩
  .ok (proposal, approval)

def record (proposalId actorId : Str) : Result (PolicyChangeProposal × PolicyApproval) →
    PolicyChangeManager × Result PolicyChangeProposal
  | .error e => (manager, .error e)
  | .ok (proposal, approval) => (manager.put proposalId (proposal.approvedBy approval), do
      manager.hooks.audit "policy.approved" proposalId actorId
      .ok (proposal.approvedBy approval))

def approve (proposalId : Str) (approver : Signer) (actorId : Str) :
    PolicyChangeManager × Result PolicyChangeProposal :=
  manager.record proposalId actorId (manager.draftApproval P proposalId approver)

def approveSigned (proposalId approverKeyId signature actorId : Str) :
    PolicyChangeManager × Result PolicyChangeProposal :=
  manager.record proposalId actorId
    (manager.draftApprovalSigned P proposalId approverKeyId signature)

def admitActivation (proposalId : Str) : Result (PolicyChangeProposal × PolicyRegistry) := do
  let proposal ← manager.pendingProposal proposalId "proposal is not pending"
  let verified ← proposal.verify P manager.trustStore
  raiseIf (verified = false) (.valueError (lit "proposal signature is invalid"))
  raiseIf (proposal.approvalCount < manager.requiredApprovals)
    (.valueError (lit "approval quorum not met"))
  let registry ← manager.registry.register P proposal.proposedPolicy
  .ok (proposal, registry)

def activate (proposalId actorId : Str) : PolicyChangeManager × Result Policy :=
  match manager.admitActivation P proposalId with
  | .error e => (manager, .error e)
  | .ok (proposal, registry) =>
      ({ manager with registry := registry }.put proposalId
          { proposal with status := .activated }, do
        manager.hooks.audit "policy.activated" proposalId actorId
        .ok proposal.proposedPolicy)

end PolicyChangeManager

-- the calls on a manager, and what other components do to its trust store and registry
inductive AdminCall where
  | propose (newPolicy : Policy) (proposer : Signer) (rationale : Str) (proposalId : Option Str)
      (actorId : Str)
  | proposeSigned (newPolicy : Policy) (proposerKeyId signature rationale : Str)
      (proposalId : Option Str) (actorId : Str)
  | approve (proposalId : Str) (approver : Signer) (actorId : Str)
  | approveSigned (proposalId approverKeyId signature actorId : Str)
  | activate (proposalId actorId : Str)
  | addKey (keyId : Str) (publicKey : PublicKey)
  | revokeKey (keyId : Str)
  | register (policy : Policy)
  | registerSigned (manifest : SignedPolicyManifest) (trustStore : Option TrustStore)

namespace PolicyChangeManager

variable (P : Primitives)

def keep {α : Type} (a : α) (x : Result α) : α := x.toOption.getD a

def step (manager : PolicyChangeManager) : AdminCall → PolicyChangeManager
  | .propose newPolicy proposer rationale proposalId actorId =>
      (manager.propose P newPolicy proposer rationale proposalId actorId).1
  | .proposeSigned newPolicy proposerKeyId signature rationale proposalId actorId =>
      (manager.proposeSigned P newPolicy proposerKeyId signature rationale proposalId actorId).1
  | .approve proposalId approver actorId => (manager.approve P proposalId approver actorId).1
  | .approveSigned proposalId approverKeyId signature actorId =>
      (manager.approveSigned P proposalId approverKeyId signature actorId).1
  | .activate proposalId actorId => (manager.activate P proposalId actorId).1
  | .addKey keyId publicKey =>
      { manager with trustStore := keep manager.trustStore (manager.trustStore.add keyId publicKey) }
  | .revokeKey keyId =>
      { manager with trustStore := keep manager.trustStore (manager.trustStore.revoke keyId) }
  | .register policy =>
      { manager with registry := keep manager.registry (manager.registry.register P policy) }
  | .registerSigned manifest trustStore =>
      { manager with
        registry := keep manager.registry (manager.registry.registerSigned P manifest trustStore) }

end PolicyChangeManager

end GovernedAutonomy
