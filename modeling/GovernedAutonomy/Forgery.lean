import GovernedAutonomy.Protocol.Calls
import GovernedAutonomy.Truthful

namespace GovernedAutonomy

open Python Protocol

namespace RawRegistry

variable {P : Primitives} {start registry registry' : RawRegistry} {store : TrustStore}
  {manifest : RawManifest}

-- a policy that was not registered at the start has come with a manifest that verifies
def SignedSince (P : Primitives) (store : TrustStore) (start registry : RawRegistry) : Prop :=
  ∀ policyId policy, Dict.has start.policies policyId = false →
    Dict.get registry.policies policyId = some policy →
      ∃ manifest, Dict.get registry.signedManifests policyId = some manifest ∧
        manifest.policy = policy ∧ Keyed.same policy.policyId policyId = true ∧ manifest.Verified P store

theorem SignedSince.refl (start : RawRegistry) : SignedSince P store start start := by
  intro policyId policy hunknown hget
  rw [Dict.has, hget] at hunknown
  cases hunknown

theorem SignedSince.adopts (h : SignedSince P store start registry)
    (hverified : manifest.Verified P store) (hadopts : Adopts P registry registry' manifest) :
    SignedSince P store start registry' := by
  intro policyId policy hunknown hget
  rw [hadopts.policies, Dict.get_set] at hget
  rw [hadopts.signedManifests, Dict.get_set]
  by_cases hid : Keyed.same manifest.policy.policyId policyId = true
  · rw [if_pos hid] at hget ⊢
    obtain rfl := Option.some.inj hget
    exact ⟨manifest, rfl, rfl, hid, hverified⟩
  · rw [if_neg hid] at hget ⊢
    exact h policyId policy hunknown hget

theorem SignedSince.accepted (h : SignedSince P store start registry)
    (hverified : manifest.Verified P store) (haccepted : Accepted P registry registry' manifest) :
    SignedSince P store start registry' := by
  cases haccepted with
  | unknown hget hadopt => exact h.adopts hverified (adopts_of_adopt hadopt)
  | newer hget hversion hadopt => exact h.adopts hverified (adopts_of_adopt hadopt)
  | idempotent hget hversion hsame heq => exact heq ▸ h

end RawRegistry

theorem RegistrySnapshot.signedSince_of_leads {P : Primitives} {snapshot : RegistrySnapshot}
    {store : TrustStore} {registry registry' : RawRegistry} {ms : List (Str × PyVal)}
    {os : List EntryOutcome}
    (h : Batch.Leads (snapshot.reconcileEntry P store) registry ms os registry') :
    RawRegistry.SignedSince P store registry registry' := by
  refine h.rule (R := fun middle middle' => RawRegistry.SignedSince P store registry middle →
    RawRegistry.SignedSince P store registry middle') (fun _ h => h)
    (fun _ _ _ h h' hmiddle => h' (h hmiddle)) ?_ (.refl registry)
  intro middle m middle' outcome hstep hmiddle
  cases reconcileEntry_eq_ok.mp hstep with
  | known => exact hmiddle
  | conflict => exact hmiddle
  | imported hread hget himport haccepted => exact hmiddle.accepted himport.verified haccepted

namespace GovernanceReconciler

variable {P : Primitives} {reconciler : GovernanceReconciler} {now : ℤ}
  {envelope : GovernanceSyncEnvelope}

-- addressed to the local organization, and signed by the key of the source organization
structure Authentic (P : Primitives) (reconciler : GovernanceReconciler)
    (envelope : GovernanceSyncEnvelope) : Prop where
  addressed : envelope.event.targetOrg = reconciler.localOrg
  registered : Dict.get reconciler.organizationKeys envelope.event.sourceOrg =
    some envelope.event.signerKeyId
  event : reconciler.trustStore.Signs P envelope.event.signerKeyId
    (envelope.event.unsignedPayload P) envelope.event.signature
  signed : reconciler.trustStore.Signs P envelope.event.signerKeyId
    (envelope.unsignedPayload P) envelope.signature

theorem admission_ok (h : reconciler.admission P now envelope = .ok ()) :
    Authentic P reconciler envelope ∧ replayKey envelope ∉ reconciler.seenNonces := by
  simp only [admission, GovernanceSyncEnvelope.verify, SignedSyncEvent.verify, bind_eq_ok,
    raiseIf_eq_ok, not_not, Bool.not_eq_false] at h
  obtain ⟨-, hregistered, -, haddressed, -, hfresh, -, ⟨-, ⟨-, -, -, -, -, -, verified, hevent, rfl⟩,
    -, -, verified', hsigned, rfl⟩, -⟩ := h
  exact ⟨⟨haddressed, hregistered, TrustStore.verifies_eq_ok.mp hevent,
    TrustStore.verifies_eq_ok.mp hsigned⟩, hfresh⟩

theorem reconcile_checked (h : reconciler.admission P now envelope = .ok ()) :
    (reconciler.reconcile P now envelope).1 =
      { reconciler.consumed envelope with
        registry := (reconciler.reconcile P now envelope).1.registry } := by
  rw [reconcile, h]

theorem exists_leads_of_reconcile (P : Primitives) (reconciler : GovernanceReconciler) (now : ℤ)
    (envelope : GovernanceSyncEnvelope) :
    ∃ ms os, Batch.Leads (envelope.snapshot.reconcileEntry P reconciler.trustStore)
      reconciler.registry ms os (reconciler.reconcile P now envelope).1.registry := by
  by_cases hadmitted : Admitted P reconciler now envelope
  · rw [reconcile_of_admitted hadmitted]
    exact Batch.exists_leads _ _ _
  · rw [registry_of_not_admitted hadmitted]
    exact ⟨[], [], .nil _⟩

theorem effect_of_reconcile
    (h : (reconciler.reconcile P now envelope).1 ≠ reconciler) :
    Authentic P reconciler envelope ∧ replayKey envelope ∉ reconciler.seenNonces ∧
      replayKey envelope ∈ (reconciler.reconcile P now envelope).1.seenNonces := by
  cases hchecked : reconciler.admission P now envelope with
  | error e => exact absurd (by rw [reconcile, hchecked]) h
  | ok u =>
      obtain ⟨hauthentic, hfresh⟩ := admission_ok hchecked
      refine ⟨hauthentic, hfresh, ?_⟩
      rw [reconcile_checked hchecked]
      exact List.mem_cons_self

-- what one call does to the registry, and when it does anything at all
structure Unforged (P : Primitives) (reconciler : GovernanceReconciler) (now : ℤ)
    (envelope : GovernanceSyncEnvelope) : Prop where
  kept : RawRegistry.KeepsDigests P reconciler.registry
    (reconciler.reconcile P now envelope).1.registry
  added : RawRegistry.SignedSince P reconciler.trustStore reconciler.registry
    (reconciler.reconcile P now envelope).1.registry
  authentic : (reconciler.reconcile P now envelope).1 ≠ reconciler →
    Authentic P reconciler envelope

theorem unforged (P : Primitives) (reconciler : GovernanceReconciler) (now : ℤ)
    (envelope : GovernanceSyncEnvelope) : Unforged P reconciler now envelope := by
  obtain ⟨ms, os, hleads⟩ := exists_leads_of_reconcile P reconciler now envelope
  exact ⟨RegistrySnapshot.keepsDigests_of_leads hleads,
    RegistrySnapshot.signedSince_of_leads hleads, fun h => (effect_of_reconcile h).1⟩

-- the trust store is shared: between two calls others add and revoke keys in it
inductive FederationCall
  | reconcile (now : ℤ) (envelope : GovernanceSyncEnvelope)
  | trust (trustStore : TrustStore)

def step (P : Primitives) (reconciler : GovernanceReconciler) :
    FederationCall → GovernanceReconciler
  | .reconcile now envelope => (reconciler.reconcile P now envelope).1
  | .trust trustStore => { reconciler with trustStore := trustStore }

theorem seenNonces_step (call : FederationCall) {key : Str × Str}
    (h : key ∈ reconciler.seenNonces) : key ∈ (step P reconciler call).seenNonces := by
  cases call with
  | trust trustStore => exact h
  | reconcile now envelope =>
      rw [step]
      cases hchecked : reconciler.admission P now envelope with
      | error e => rwa [reconcile, hchecked]
      | ok u =>
          rw [reconcile_checked hchecked]
          exact List.mem_cons_of_mem _ h

structure NeverForges (P : Primitives) (start : GovernanceReconciler) (calls : List FederationCall) :
    Prop where
  unforged : ∀ before now envelope after, calls = before ++ .reconcile now envelope :: after →
    Unforged P (Calls.run (step P) start before) now envelope
  once : ∀ before now envelope between now' envelope' after,
    calls = before ++ .reconcile now envelope :: between ++ .reconcile now' envelope' :: after →
    replayKey envelope' = replayKey envelope →
    Calls.Effective (step P) (Calls.run (step P) start before) (.reconcile now envelope) →
    ¬ Calls.Effective (step P)
      (Calls.run (step P) start (before ++ .reconcile now envelope :: between))
      (.reconcile now' envelope')

theorem federation_never_forges (P : Primitives) (start : GovernanceReconciler)
    (calls : List FederationCall) : NeverForges P start calls := by
  constructor
  · intro before now envelope after _
    exact unforged P _ now envelope
  · intro before now envelope between now' envelope' after _ hsame heffective
    have hadmits : Calls.Each (step P) (fun _ _ => True) start
        (before ++ .reconcile now envelope :: between ++ .reconcile now' envelope' :: after) :=
      Calls.each_iff.mpr (fun _ _ _ _ => trivial)
    have hspends : ∀ reconciler, True →
        Calls.Effective (step P) reconciler (.reconcile now envelope) →
          replayKey envelope ∈ (step P reconciler (.reconcile now envelope)).seenNonces :=
      fun _ _ heffective => (effect_of_reconcile heffective).2.2
    have hidle : ∀ reconciler : GovernanceReconciler, True →
        replayKey envelope ∈ reconciler.seenNonces →
          ¬ Calls.Effective (step P) reconciler (.reconcile now' envelope') :=
      fun _ _ hseen heffective => (effect_of_reconcile heffective).2.1 (hsame ▸ hseen)
    exact Calls.effective_once (A := fun reconciler => replayKey envelope ∈ reconciler.seenNonces)
      hspends (fun _ call _ hseen => seenNonces_step call hseen) hidle hadmits heffective

end GovernanceReconciler

end GovernedAutonomy
