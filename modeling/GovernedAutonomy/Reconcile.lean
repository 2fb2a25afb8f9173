import GovernedAutonomy.Protocol.Batch
import GovernedAutonomy.RawRegistry

namespace GovernedAutonomy

open Python

structure Conflict where
  policyId : Str
  localDigest : Str
  remoteDigest : Str

inductive ReconciliationStatus
  | identical
  | conflict
  | adopted
  deriving DecidableEq

structure ReconciliationResult where
  status : ReconciliationStatus
  importedPolicyIds : List Str := []
  conflicts : List Conflict := []
  metadata : PyDict := []

-- what the loop does with an entry that it does not reject
inductive EntryOutcome
  | known
  | conflict (conflict : Conflict)
  | imported (policyId : Str)

def EntryOutcome.conflict? : EntryOutcome → Option Conflict
  | .conflict c => some c
  | _ => none

def EntryOutcome.imported? : EntryOutcome → Option Str
  | .imported policyId => some policyId
  | _ => none

def federationErrorOn (before : String) (policyId : Str) (after : String) : Exc :=
  .custom "FederationError" true (lit before ++ policyId ++ lit after) .none

-- equality of two dicts of strings
def sameDict (d e : List (Str × Str)) : Prop :=
  (∀ m ∈ d, Dict.get e m.1 = some m.2) ∧ ∀ m ∈ e, Dict.get d m.1 = some m.2

instance (d e : List (Str × Str)) : Decidable (sameDict d e) :=
  inferInstanceAs (Decidable (_ ∧ _))

structure GovernanceReconciler where
  localOrg : Str
  registry : RawRegistry
  trustStore : TrustStore
  organizationKeys : List (Str × Str)
  maxEventAgeSeconds : ℤ := 3600
  seenNonces : List (Str × Str) := []

namespace RegistrySnapshot

variable (P : Primitives) (snapshot : RegistrySnapshot)

def remoteDigest (policyId : Str) : Result Str :=
  match Dict.get snapshot.policyDigests policyId with
  | some digest => .ok digest
  | none => .error (.builtin .keyError)

-- the policy that an entry holds, with the digest that the snapshot gives for it
def remotePolicy (m : Str × PyVal) : Result Str := do
  let remoteDigest ← snapshot.remoteDigest m.1
  let entry ← dictOf (.builtin .attributeError) m.2
  let remotePolicy ← dictOf (federationError "remote policy entry is invalid")
    ((entry.get "policy").getD .none)
  let parsed ← RawPolicy.ofValue (.dict remotePolicy)
  let digest ← parsed.digest P
  raiseIf (digest ≠ remoteDigest) (federationErrorOn "remote policy digest mismatch: " m.1 "")
  .ok remoteDigest

def remoteManifest (store : TrustStore) (m : Str × PyVal) (remoteDigest : Str) :
    Result RawManifest := do
  let entry ← dictOf (.builtin .attributeError) m.2
  raiseIf (entry.has "signature" = false) (federationErrorOn "unknown policy " m.1 " is not signed")
  let manifest ← RawManifest.ofValue m.2
  let digest ← manifest.policy.digest P
  let invalid := federationErrorOn "unknown policy " m.1 " has invalid manifest signature"
  raiseIf (digest ≠ remoteDigest) invalid
  let verified ← manifest.verify P store
  raiseIf (verified = false) invalid
  .ok manifest

def reconcileEntry (store : TrustStore) (registry : RawRegistry) (m : Str × PyVal) :
    Result (RawRegistry × EntryOutcome) := do
  let remoteDigest ← snapshot.remotePolicy P m
  let existing ← registry.getPolicy (.str m.1)
  match existing with
  | some existing => do
      let localDigest ← existing.digest P
      .ok (registry, if localDigest ≠ remoteDigest then .conflict ⟨m.1, localDigest, remoteDigest⟩
        else .known)
  | none => do
      let manifest ← remoteManifest P store m remoteDigest
      let registry ← registry.registerSigned P manifest (some store)
      .ok (registry, .imported m.1)

def reconcileEntries (store : TrustStore) : RawRegistry → List Conflict → List Str →
    List (Str × PyVal) → RawRegistry × Result (List Conflict × List Str)
  | registry, conflicts, imports, [] => (registry, .ok (conflicts, imports))
  | registry, conflicts, imports, m :: ms =>
      match snapshot.reconcileEntry P store registry m with
      | .error e => (registry, .error e)
      | .ok (registry, .known) => reconcileEntries store registry conflicts imports ms
      | .ok (registry, .conflict conflict) =>
          reconcileEntries store registry (conflicts ++ [conflict]) imports ms
      | .ok (registry, .imported policyId) =>
          reconcileEntries store registry conflicts (imports ++ [policyId]) ms

end RegistrySnapshot

namespace GovernanceReconciler

variable (P : Primitives) (reconciler : GovernanceReconciler) (now : ℤ)
  (envelope : GovernanceSyncEnvelope)

def replayKey : Str × Str := (envelope.event.sourceOrg, envelope.event.nonce)

-- the checks that come before the nonce is consumed
def admission : Result Unit := do
  raiseIf (Dict.get reconciler.organizationKeys envelope.event.sourceOrg ≠
      some envelope.event.signerKeyId)
    (federationError "sync event source organization is unknown or signer is not registered")
  raiseIf (envelope.event.targetOrg ≠ reconciler.localOrg)
    (federationError "sync event target organization does not match local organization")
  raiseIf (replayKey envelope ∈ reconciler.seenNonces)
    (federationError "sync event nonce has already been consumed")
  envelope.verify P reconciler.trustStore (some now) reconciler.maxEventAgeSeconds
  raiseIf (¬ sameDict envelope.event.policyDigests envelope.snapshot.policyDigests)
    (federationError "sync event policy digests do not match snapshot")

def snapshotFields : PyDict := PyDict.ofFields
  [("snapshot_digest", .str envelope.snapshot.snapshotDigest)]

def sourceFields : PyDict := PyDict.ofFields [("source_org", .str envelope.event.sourceOrg)]

def conclude (conflicts : List Conflict) (imports : List Str) : ReconciliationResult :=
  if conflicts ≠ [] then ⟨.conflict, imports, conflicts, sourceFields envelope⟩
  else ⟨.adopted, sortedStrs imports, [], sourceFields envelope ++ snapshotFields envelope⟩

def consumed : GovernanceReconciler :=
  { reconciler with seenNonces := replayKey envelope :: reconciler.seenNonces }

-- what happens once the nonce is consumed
def reconcileSnapshot : RawRegistry × Result ReconciliationResult :=
  match reconciler.registry.snapshotDigest P envelope.snapshot.version with
  | .error e => (reconciler.registry, .error e)
  | .ok held =>
      if held = envelope.snapshot.snapshotDigest then
        (reconciler.registry, .ok ⟨.identical, [], [], snapshotFields envelope⟩)
      else
        match envelope.snapshot.reconcileEntries P reconciler.trustStore reconciler.registry [] []
            envelope.snapshot.policies with
        | (registry, .error e) => (registry, .error e)
        | (registry, .ok (conflicts, imports)) => (registry, .ok (conclude envelope conflicts imports))

def reconcile : GovernanceReconciler × Result ReconciliationResult :=
  match reconciler.admission P now envelope with
  | .error e => (reconciler, .error e)
  | .ok () =>
      let (registry, result) := reconciler.reconcileSnapshot P envelope
      ({ reconciler.consumed envelope with registry := registry }, result)

end GovernanceReconciler

end GovernedAutonomy
