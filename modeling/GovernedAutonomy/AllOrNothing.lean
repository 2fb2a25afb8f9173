import GovernedAutonomy.Entries

namespace GovernedAutonomy

open Python Protocol

namespace RawRegistry

variable {P : Primitives} {registry registry' registry'' : RawRegistry}
  {manifest : RawManifest}

-- no policy disappears and no version goes back
def Later (registry registry' : RawRegistry) : Prop :=
  ∀ policyId, Dict.has registry.policies policyId = true →
    Dict.has registry'.policies policyId = true ∧
      registry.version policyId ≤ registry'.version policyId

theorem Later.refl (registry : RawRegistry) : Later registry registry :=
  fun _ h => ⟨h, le_refl _⟩

theorem Later.trans (h : Later registry registry') (h' : Later registry' registry'') :
    Later registry registry'' := by
  intro policyId hhas
  obtain ⟨hhas', hle⟩ := h policyId hhas
  obtain ⟨hhas'', hle'⟩ := h' policyId hhas'
  exact ⟨hhas'', le_trans hle hle'⟩

theorem Adopts.has (h : Adopts P registry registry' manifest) (policyId : PyVal) :
    Dict.has registry'.policies policyId =
      (Keyed.same manifest.policy.policyId policyId || Dict.has registry.policies policyId) := by
  rw [h.policies, Dict.has_set]

theorem Adopts.version (h : Adopts P registry registry' manifest) (policyId : PyVal) :
    registry'.version policyId =
      if Keyed.same manifest.policy.policyId policyId = true then manifest.version
      else registry.version policyId := by
  rw [RawRegistry.version, h.versions]
  split
  · rfl
  · rfl

theorem later_of_accepted (h : Accepted P registry registry' manifest) :
    Later registry registry' := by
  cases h with
  | unknown hget hadopt =>
      have hadopts := adopts_of_adopt hadopt
      intro policyId hhas
      have hother : ¬ Keyed.same manifest.policy.policyId policyId = true := by
        intro hsame
        rw [Dict.has, ← Dict.get_congr _ hsame, hget] at hhas
        cases hhas
      rw [hadopts.has, hadopts.version, if_neg hother, hhas, Bool.or_true]
      exact ⟨rfl, le_refl _⟩
  | newer hget hversion hadopt =>
      have hadopts := adopts_of_adopt hadopt
      intro policyId hhas
      rw [hadopts.has, hadopts.version, hhas, Bool.or_true]
      refine ⟨rfl, ?_⟩
      split
      · rename_i hid
        exact version_congr hid ▸ le_of_lt hversion
      · exact le_refl _
  | idempotent hget hversion hsame heq =>
      rw [heq]
      exact Later.refl registry

def Holds (registry : RawRegistry) (manifest : RawManifest) : Prop :=
  Dict.has registry.policies manifest.policy.policyId = true ∧
    registry.version manifest.policy.policyId = manifest.version

end RawRegistry

namespace RegistrySnapshot

variable {P : Primitives} {snapshot : RegistrySnapshot} {store : TrustStore}
  {registry registry' : RawRegistry} {m : Str × PyVal} {outcome : EntryOutcome}

-- the entry can be accepted only without effect: its key is registered, or the policy that its
-- manifest holds is, at the manifest's version
def Inert (registry : RawRegistry) (m : Str × PyVal) : Prop :=
  Dict.has registry.policies (.str m.1) = true ∨
    ∃ manifest, RawManifest.ofValue m.2 = .ok manifest ∧ registry.Holds manifest

-- the checks of an entry, for a key that is registered and for one that is not
structure Passes (P : Primitives) (snapshot : RegistrySnapshot) (store : TrustStore)
    (registry : RawRegistry) (m : Str × PyVal) (digest : Str) : Prop where
  readable : Readable P snapshot m digest
  registered : ∀ existing, Dict.get registry.policies (.str m.1) = some existing →
    ∃ held, existing.digest P = .ok held
  unknown : Dict.get registry.policies (.str m.1) = none →
    ∃ manifest, Importable P store m digest manifest ∧ manifest.policy.policyId.hashable = true ∧
      ∀ current, Dict.get registry.policies manifest.policy.policyId = some current →
        current.SameDigest P manifest.policy ∧
          registry.version manifest.policy.policyId ≤ manifest.version

theorem later_of_entryStep (h : EntryStep P snapshot store registry m registry' outcome) :
    RawRegistry.Later registry registry' := by
  cases h with
  | known => exact RawRegistry.Later.refl registry
  | conflict => exact RawRegistry.Later.refl registry
  | imported hread hget himport haccepted => exact RawRegistry.later_of_accepted haccepted

-- the registry that the entries lead to, none of them being rejected
def Reaches (P : Primitives) (snapshot : RegistrySnapshot) (store : TrustStore)
    (registry : RawRegistry) (ms : List (Str × PyVal)) (registry' : RawRegistry) : Prop :=
  ∃ os, Batch.Leads (snapshot.reconcileEntry P store) registry ms os registry'

-- an entry that is rejected where it is reached has only inert entries before it
def Orderly (P : Primitives) (snapshot : RegistrySnapshot) (store : TrustStore)
    (registry : RawRegistry) : Prop :=
  ∀ before m after registry', snapshot.policies = before ++ m :: after →
    Reaches P snapshot store registry before registry' →
    (¬ ∃ digest, Passes P snapshot store registry' m digest) →
    ∀ m' ∈ before, Inert registry m'

end RegistrySnapshot

namespace GovernanceReconciler

variable {P : Primitives} {reconciler : GovernanceReconciler} {now : ℤ}
  {envelope : GovernanceSyncEnvelope}

-- the envelope gets past every check, and the local snapshot has another digest
structure Admitted (P : Primitives) (reconciler : GovernanceReconciler) (now : ℤ)
    (envelope : GovernanceSyncEnvelope) : Prop where
  checked : reconciler.admission P now envelope = .ok ()
  differs : ∃ held, reconciler.registry.snapshotDigest P envelope.snapshot.version = .ok held ∧
    held ≠ envelope.snapshot.snapshotDigest

-- the entries of the snapshot as they are taken from the local registry
def batch (P : Primitives) (reconciler : GovernanceReconciler) (envelope : GovernanceSyncEnvelope) :
    RawRegistry × Result (List EntryOutcome) :=
  Batch.run (envelope.snapshot.reconcileEntry P reconciler.trustStore) reconciler.registry
    envelope.snapshot.policies

theorem reconcile_of_admitted (h : Admitted P reconciler now envelope) :
    reconciler.reconcile P now envelope =
      ({ reconciler.consumed envelope with registry := (reconciler.batch P envelope).1 },
        (reconciler.batch P envelope).2.map (fun os => conclude envelope
          (os.filterMap EntryOutcome.conflict?) (os.filterMap EntryOutcome.imported?))) := by
  obtain ⟨held, hheld, hdiffers⟩ := h.differs
  simp only [reconcile, h.checked, reconcileSnapshot, hheld, if_neg hdiffers,
    RegistrySnapshot.reconcileEntries_eq, batch]
  cases Batch.run (envelope.snapshot.reconcileEntry P reconciler.trustStore) reconciler.registry
      envelope.snapshot.policies with
  | mk registry result => cases result <;> simp [Except.map]

theorem registry_of_not_admitted (h : ¬ Admitted P reconciler now envelope) :
    (reconciler.reconcile P now envelope).1.registry = reconciler.registry := by
  unfold reconcile
  cases hchecked : reconciler.admission P now envelope with
  | error e => rfl
  | ok u =>
      simp only [reconcileSnapshot]
      cases hheld : reconciler.registry.snapshotDigest P envelope.snapshot.version with
      | error e => rfl
      | ok held =>
          have hsame : held = envelope.snapshot.snapshotDigest := by
            by_contra hdiffers
            exact h ⟨hchecked, held, hheld, hdiffers⟩
          simp only [if_pos hsame]

def demoReconciler : GovernanceReconciler :=
  { localOrg := "org-a", registry := {}, trustStore := PolicyRegistry.aliceStore
    organizationKeys := [("org-b", "alice")] }

-- the demo policy as a signed entry under a key of the sender's choice
def demoEntry (policyId : Str) : Str × PyVal :=
  (policyId, .dict (PolicyRegistry.signedByAlice Demo.policy 1).toDict)

def demoEnvelope (policies : List (Str × PyVal)) (digests : List (Str × Str)) :
    GovernanceSyncEnvelope where
  event := ⟨"policy_update", "org-b", "org-a", "remote", digests, 100, "n-1", "alice", "c2ln"⟩
  snapshot := ⟨"org-b", .int 1, policies, digests, "remote"⟩
  signature := "c2ln"

def signedDemo : RawManifest := (PolicyRegistry.signedByAlice Demo.policy 1).raw

theorem verifySignature_reference (key : PublicKey) (payload : String) :
    verifySignature referencePrimitives key payload "c2ln" = true := by
  obtain ⟨raw, hraw⟩ := exists_of_toOption
    (show (b64decode "c2ln").toOption.isSome = true by decide)
  simp only [verifySignature, hraw]
  rfl

theorem signs_alice {message : Result String} (h : ∃ payload, message = .ok payload) :
    PolicyRegistry.aliceStore.Signs referencePrimitives (lit "alice") message (lit "c2ln") := by
  obtain ⟨payload, rfl⟩ := h
  exact ⟨⟨[1]⟩, payload, TrustStore.resolve_eq_some.mp (by decide), rfl,
    verifySignature_reference _ _⟩

theorem verified_demo : signedDemo.Verified referencePrimitives PolicyRegistry.aliceStore :=
  ⟨by decide, signs_alice (exists_of_toOption
    (show (signedDemo.unsignedPayload referencePrimitives).toOption.isSome = true by
      decide +kernel))⟩

theorem signed_encodable :
    (PyVal.dict (PolicyRegistry.signedByAlice Demo.policy 1).toDict).Encodable 10 := by
  refine (canonicalJson_isOk { referencePrimitives with recursionLimit := 10 }).mp
    (exists_of_toOption ?_)
  decide +kernel

theorem exists_demo_digest : ∃ digest, Demo.policy.raw.digest referencePrimitives = .ok digest := by
  have hpolicy : (PyVal.dict Demo.policy.toDict).Encodable 9 :=
    signed_encodable.of_get (show PyDict.get _ (lit "policy") = some _ by
      simp [SignedPolicyManifest.toDict, PolicyRegistry.signedByAlice])
  rw [Policy.raw_digest]
  exact (canonicalDigest_isOk referencePrimitives).mpr (hpolicy.mono (by decide))

section Filed

variable {policies : List (Str × PyVal)} {digests : List (Str × Str)} {policyId digest : Str}
  {snapshot : RegistrySnapshot}

theorem demoEntry_encodable {depth : Nat} (hdepth : 10 ≤ depth) :
    (demoEntry policyId).2.Encodable depth := signed_encodable.mono hdepth

theorem digests_encodable {depth : Nat} (hdepth : 0 < depth)
    (hdigests : ∀ m ∈ digests, Json.Clean m.1 ∧ Json.Clean m.2) :
    (strDict PyVal.str (sortedItems digests)).Encodable depth := by
  rw [encodable_strDict]
  refine ⟨hdepth, fun m hm => ?_⟩
  rw [PyVal.encodable_str]
  exact hdigests m ((List.mem_insertionSort _).mp hm)

theorem snapshot_encodable {depth : Nat} (hdepth : 50 ≤ depth)
    (hdigests : ∀ m ∈ digests, Json.Clean m.1 ∧ Json.Clean m.2)
    (hpolicies : ∀ m ∈ policies, Json.Clean m.1 ∧ m.2.Encodable 20) :
    (PyVal.dict (demoEnvelope policies digests).snapshot.toDict).Encodable depth := by
  rw [RegistrySnapshot.toDict, RegistrySnapshot.unsignedDict, PyVal.set_ofFields (by simp),
    PyVal.encodable_ofFields]
  simp only [List.forall_mem_append, List.forall_mem_cons, List.not_mem_nil, IsEmpty.forall_iff,
    implies_true, and_true, PyVal.encodable_str]
  refine ⟨by omega, ⟨Json.clean_lit _, PyVal.encodable_int.mpr (by decide), ?_,
    digests_encodable (by omega) hdigests⟩, Json.clean_lit _⟩
  refine encodable_strDict.mpr ⟨by omega, fun m hm => ?_⟩
  obtain ⟨hclean, hentry⟩ := hpolicies m ((List.mem_insertionSort _).mp hm)
  exact ⟨hclean, hentry.mono (by omega)⟩

theorem event_encodable {depth : Nat} (hdepth : 2 < depth)
    (hdigests : ∀ m ∈ digests, Json.Clean m.1 ∧ Json.Clean m.2) :
    (PyVal.dict (demoEnvelope policies digests).event.unsignedDict).Encodable depth ∧
      (PyVal.dict (demoEnvelope policies digests).event.toDict).Encodable depth := by
  rw [SignedSyncEvent.toDict, SignedSyncEvent.unsignedDict, PyVal.set_ofFields (by simp),
    PyVal.encodable_ofFields, PyVal.encodable_ofFields]
  simp only [List.forall_mem_append, List.forall_mem_cons, List.not_mem_nil, IsEmpty.forall_iff,
    implies_true, and_true, PyVal.encodable_str, PyVal.encodable_int]
  have hdigests := @digests_encodable digests (depth - 1) (by omega) hdigests
  have hissued : (digits (demoEnvelope policies digests).event.issuedAt.natAbs).length ≤
      maxStrDigits := by
    simp only [demoEnvelope]
    decide
  have hpos : 0 < depth := by omega
  exact ⟨⟨hpos, Json.clean_lit _, Json.clean_lit _, Json.clean_lit _, Json.clean_lit _, hdigests,
      hissued, Json.clean_lit _, Json.clean_lit _⟩,
    ⟨hpos, ⟨Json.clean_lit _, Json.clean_lit _, Json.clean_lit _, Json.clean_lit _, hdigests,
      hissued, Json.clean_lit _, Json.clean_lit _⟩, Json.clean_lit _⟩⟩

theorem admission_demo (hdistinct : Dict.Distinct digests)
    (hdigests : ∀ m ∈ digests, Json.Clean m.1 ∧ Json.Clean m.2)
    (hpolicies : ∀ m ∈ policies, Json.Clean m.1 ∧ m.2.Encodable 20) :
    demoReconciler.admission referencePrimitives 100 (demoEnvelope policies digests) = .ok () := by
  have hevent : PolicyRegistry.aliceStore.Signs referencePrimitives (lit "alice")
      ((demoEnvelope policies digests).event.unsignedPayload referencePrimitives) (lit "c2ln") :=
    signs_alice ((canonicalJson_isOk _).mpr (event_encodable (by decide) hdigests).1)
  have henvelope : PolicyRegistry.aliceStore.Signs referencePrimitives (lit "alice")
      ((demoEnvelope policies digests).unsignedPayload referencePrimitives) (lit "c2ln") := by
    refine signs_alice ((canonicalJson_isOk _).mpr
      (PyVal.encodable_ofFields.mpr ⟨by decide, ?_⟩))
    simp only [List.forall_mem_cons, List.not_mem_nil, IsEmpty.forall_iff, implies_true, and_true]
    exact ⟨(event_encodable (by decide) hdigests).2,
      snapshot_encodable (by decide) hdigests hpolicies⟩
  have hsame : sameDict digests digests := by
    constructor <;>
      exact fun m hm => Dict.get_of_mem hdistinct hm (by rw [same_list, decide_eq_true rfl])
  simp only [admission, GovernanceSyncEnvelope.verify, SignedSyncEvent.verify, bind_eq_ok,
    raiseIf_eq_ok, not_not, Bool.not_eq_false]
  exact ⟨(), rfl, (), rfl, (), List.not_mem_nil, (),
    ⟨(), ⟨(), by simp [demoEnvelope], (), by simp [demoEnvelope], (), by simp [demoEnvelope, demoReconciler], true, TrustStore.verifies_eq_ok.mpr hevent,
      rfl⟩, (), by simp [demoEnvelope], true, TrustStore.verifies_eq_ok.mpr henvelope, rfl⟩, hsame⟩

theorem importable_demo (hdigest : Demo.policy.raw.digest referencePrimitives = .ok digest)
    (policyId : Str) :
    RegistrySnapshot.Importable referencePrimitives PolicyRegistry.aliceStore (demoEntry policyId)
      digest signedDemo :=
  ⟨rfl, hdigest, verified_demo⟩

theorem readable_demo (hdigest : Demo.policy.raw.digest referencePrimitives = .ok digest)
    (h : Dict.get snapshot.policyDigests policyId = some digest) :
    RegistrySnapshot.Readable referencePrimitives snapshot (demoEntry policyId) digest := by
  refine ⟨h, _, Demo.policy.toDict, Demo.policy.raw, rfl, ?_, rfl, hdigest⟩
  simp [SignedPolicyManifest.toDict, PolicyRegistry.signedByAlice]

theorem entryStep_demo (hdigest : Demo.policy.raw.digest referencePrimitives = .ok digest)
    (h : Dict.get snapshot.policyDigests policyId = some digest) :
    ∃ registry', RegistrySnapshot.EntryStep referencePrimitives snapshot PolicyRegistry.aliceStore
        {} (demoEntry policyId) registry' (.imported policyId) ∧
      RawRegistry.Adopts referencePrimitives {} registry' signedDemo := by
  obtain ⟨registry', hadopt⟩ : ∃ registry', RawRegistry.adopt referencePrimitives {} signedDemo =
      .ok registry' := RawRegistry.adopt_isOk.mpr ⟨rfl, by simp [Dict.get]⟩
  exact ⟨registry', .imported (readable_demo hdigest h) rfl (importable_demo hdigest policyId)
    (.unknown rfl hadopt), RawRegistry.adopts_of_adopt hadopt⟩

theorem snapshotDigest_empty (P : Primitives) (version : PyVal) :
    ({} : RawRegistry).snapshotDigest P version = canonicalDigest P (.dict (PyDict.ofFields
      [("version", version), ("policies", .dict []), ("policy_digests", .dict [])])) := rfl

-- the digest of the empty registry is hexadecimal, and the one that the envelope carries is not
theorem differs_demo (policies : List (Str × PyVal)) (digests : List (Str × Str)) :
    ∃ held, demoReconciler.registry.snapshotDigest referencePrimitives
        (demoEnvelope policies digests).snapshot.version = .ok held ∧
      held ≠ (demoEnvelope policies digests).snapshot.snapshotDigest := by
  have hempty : (PyVal.dict (PyDict.ofFields [("version", .int 1), ("policies", .dict []),
      ("policy_digests", .dict [])])).Encodable referencePrimitives.recursionLimit := by
    refine PyVal.encodable_ofFields.mpr ⟨by decide, ?_⟩
    have hnone : (PyVal.dict []).Encodable (referencePrimitives.recursionLimit - 1) :=
      PyVal.encodable_dict.mpr ⟨by decide, by simp [SortableKeys], by simp⟩
    simp only [List.forall_mem_cons, List.not_mem_nil, IsEmpty.forall_iff, implies_true, and_true]
    exact ⟨PyVal.encodable_int.mpr (by decide), hnone, hnone⟩
  obtain ⟨held, hheld⟩ := (canonicalDigest_isOk referencePrimitives).mpr hempty
  refine ⟨held, (snapshotDigest_empty referencePrimitives (.int 1)).trans hheld, ?_⟩
  rintro rfl
  obtain ⟨bytes, -, hbytes⟩ := bind_eq_ok.mp hheld
  have htext : (referencePrimitives.sha256 bytes).text = "remote" :=
    lit_inj.mp (Except.ok.inj hbytes)
  have hhex := (referencePrimitives.sha256 bytes).hex
  rw [htext] at hhex
  exact absurd hhex (by decide)

end Filed

end GovernanceReconciler

end GovernedAutonomy
