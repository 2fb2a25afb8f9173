import GovernedAutonomy.Drift

namespace GovernedAutonomy

open Python

namespace SignedPolicyManifest

variable {P : Primitives} {manifest : SignedPolicyManifest} {store : TrustStore}

structure Verified (P : Primitives) (manifest : SignedPolicyManifest) (store : TrustStore) :
    Prop where
  positive : 0 < manifest.version
  signed : store.Signs P manifest.issuerKeyId (manifest.unsignedPayload P) manifest.signature

theorem verify_eq_ok : manifest.verify P store = .ok true ↔ manifest.Verified P store := by
  have hsplit : manifest.verify P store = if manifest.version ≤ 0 then .ok false
      else store.verifies P manifest.issuerKeyId (manifest.unsignedPayload P)
        manifest.signature := rfl
  rw [hsplit]
  split
  · rename_i hversion
    constructor
    · intro h
      cases h
    · intro h
      exact absurd h.positive (not_lt.mpr hversion)
  · rename_i hversion
    rw [TrustStore.verifies_eq_ok]
    exact ⟨fun h => ⟨not_le.mp hversion, h⟩, Verified.signed⟩

end SignedPolicyManifest

def Policy.SameDigest (P : Primitives) (policy policy' : Policy) : Prop :=
  ∃ digest, policy.digest P = .ok digest ∧ policy'.digest P = .ok digest

namespace PolicyRegistry

variable {P : Primitives} {registry registry' : PolicyRegistry} {policy : Policy}
  {manifest : SignedPolicyManifest} {trustStore : Option TrustStore}

-- every registered policy has a version, and nothing else has
def Versioned (registry : PolicyRegistry) : Prop :=
  ∀ policyId, Dict.has registry.policies policyId = Dict.has registry.versions policyId

def Verifies (P : Primitives) (registry : PolicyRegistry) (manifest : SignedPolicyManifest)
    (trustStore : Option TrustStore) : Prop :=
  ∃ store, trustStore.or registry.trustStore = some store ∧ manifest.Verified P store

theorem register_eq_ok : registry.register P policy = .ok registry' ↔
    (∀ existing, Dict.get registry.policies policy.policyId = some existing →
      existing.SameDigest P policy) ∧
      registry' =
        { registry with
          policies := Dict.set registry.policies policy.policyId policy
          versions := if Dict.has registry.versions policy.policyId then registry.versions
            else Dict.set registry.versions policy.policyId 1 } := by
  unfold register
  cases hget : Dict.get registry.policies policy.policyId with
  | none =>
      simp only [reduceCtorEq, IsEmpty.forall_iff, implies_true, true_and]
      exact ⟨fun h => (Except.ok.inj h).symm, fun h => congrArg Except.ok h.symm⟩
  | some existing =>
      simp only [bind_eq_ok, raiseIf_eq_ok, not_not, Except.ok.injEq, Option.some.injEq,
        forall_eq']
      constructor
      · rintro ⟨current, hcurrent, offered, hoffered, -, rfl, h⟩
        exact ⟨⟨current, hcurrent, hoffered⟩, h.symm⟩
      · rintro ⟨⟨digest, hcurrent, hoffered⟩, h⟩
        exact ⟨digest, hcurrent, digest, hoffered, (), rfl, h.symm⟩

-- what adopting a manifest leaves in the registry
structure Adopts (P : Primitives) (registry registry' : PolicyRegistry)
    (manifest : SignedPolicyManifest) : Prop where
  same : ∀ existing, Dict.get registry.policies manifest.policy.policyId = some existing →
    existing.SameDigest P manifest.policy
  policies : registry'.policies =
    Dict.set registry.policies manifest.policy.policyId manifest.policy
  versions : ∀ policyId, Dict.get registry'.versions policyId =
    if manifest.policy.policyId = policyId then some manifest.version
      else Dict.get registry.versions policyId
  signedManifests : registry'.signedManifests =
    Dict.set registry.signedManifests manifest.policy.policyId manifest

theorem adopts_of_adopt (h : registry.adopt P manifest = .ok registry') :
    Adopts P registry registry' manifest := by
  obtain ⟨middle, hmiddle, h⟩ := bind_eq_ok.mp h
  obtain rfl := Except.ok.inj h
  obtain ⟨hsame, rfl⟩ := register_eq_ok.mp hmiddle
  refine ⟨hsame, rfl, ?_, rfl⟩
  intro policyId
  simp only [Dict.get_set_eq]
  by_cases hid : manifest.policy.policyId = policyId
  · rw [if_pos hid, if_pos hid]
  · rw [if_neg hid, if_neg hid]
    split
    · rfl
    · rw [Dict.get_set_eq, if_neg hid]

theorem adopt_isOk : (∃ registry', registry.adopt P manifest = .ok registry') ↔
    ∀ existing, Dict.get registry.policies manifest.policy.policyId = some existing →
      existing.SameDigest P manifest.policy := by
  constructor
  · rintro ⟨registry', h⟩
    exact (adopts_of_adopt h).same
  · intro h
    exact ⟨_, bind_eq_ok.mpr ⟨_, register_eq_ok.mpr ⟨h, rfl⟩, rfl⟩⟩

-- the three ways an accepted manifest can stand to what is registered under its id
inductive Accepted (P : Primitives) (registry registry' : PolicyRegistry)
    (manifest : SignedPolicyManifest) : Prop
  | unknown (hget : Dict.get registry.policies manifest.policy.policyId = none)
      (h : registry.adopt P manifest = .ok registry')
  | newer {current : Policy}
      (hget : Dict.get registry.policies manifest.policy.policyId = some current)
      (hversion :
        (Dict.get registry.versions manifest.policy.policyId).getD 0 < manifest.version)
      (h : registry.adopt P manifest = .ok registry')
  | idempotent {current : Policy}
      (hget : Dict.get registry.policies manifest.policy.policyId = some current)
      (hversion :
        manifest.version = (Dict.get registry.versions manifest.policy.policyId).getD 0)
      (hsame : current.SameDigest P manifest.policy) (h : registry' = registry)

theorem registerSigned_eq_ok : registry.registerSigned P manifest trustStore = .ok registry' ↔
    Verifies P registry manifest trustStore ∧ Accepted P registry registry' manifest := by
  unfold registerSigned Verifies
  cases hstore : trustStore.or registry.trustStore with
  | none => simp
  | some store =>
      simp only [Option.some.injEq, exists_eq_left']
      rw [← SignedPolicyManifest.verify_eq_ok]
      simp only [bind_eq_ok, raiseIf_eq_ok, Bool.not_eq_false]
      constructor
      · rintro ⟨verified, hverified, -, rfl, h⟩
        refine ⟨hverified, ?_⟩
        cases hget : Dict.get registry.policies manifest.policy.policyId with
        | none =>
            rw [hget] at h
            exact .unknown hget h
        | some current =>
            rw [hget] at h
            simp only at h
            split at h
            · split at h
              · rename_i hversion
                simp only [bind_eq_ok] at h
                obtain ⟨held, hheld, offered, hoffered, h⟩ := h
                split at h
                · rename_i hsame
                  exact .idempotent hget hversion ⟨held, hheld, hsame ▸ hoffered⟩
                    (Except.ok.inj h).symm
                · cases h
              · cases h
            · rename_i hversion
              exact .newer hget (not_le.mp hversion) h
      · rintro ⟨hverified, haccepted⟩
        refine ⟨true, hverified, (), rfl, ?_⟩
        cases haccepted with
        | unknown hget h => simpa only [hget] using h
        | newer hget hversion h => simpa only [hget, if_neg (not_le.mpr hversion)] using h
        | idempotent hget hversion hsame h =>
            obtain ⟨digest, hheld, hoffered⟩ := hsame
            simp only [hget, if_pos (le_of_eq hversion), if_pos hversion]
            exact bind_eq_ok.mpr ⟨digest, hheld, bind_eq_ok.mpr ⟨digest, hoffered, by rw [if_pos rfl, h]⟩⟩

def version (registry : PolicyRegistry) (policyId : Str) : ℤ :=
  (Dict.get registry.versions policyId).getD 0

theorem registerSigned_isOk :
    (∃ registry', registry.registerSigned P manifest trustStore = .ok registry') ↔
      Verifies P registry manifest trustStore ∧
        ∀ current, Dict.get registry.policies manifest.policy.policyId = some current →
          current.SameDigest P manifest.policy ∧
            registry.version manifest.policy.policyId ≤ manifest.version := by
  simp only [registerSigned_eq_ok, exists_and_left]
  refine and_congr_right fun _ => ?_
  constructor
  · rintro ⟨registry', haccepted⟩ current hget
    cases haccepted with
    | unknown hnone =>
        rw [hnone] at hget
        cases hget
    | newer _ hversion h => exact ⟨(adopts_of_adopt h).same current hget, le_of_lt hversion⟩
    | idempotent hsome hversion hsame =>
        rw [hsome] at hget
        exact ⟨Option.some.inj hget ▸ hsame, le_of_eq hversion.symm⟩
  · intro h
    cases hget : Dict.get registry.policies manifest.policy.policyId with
    | none =>
        obtain ⟨registry', hadopt⟩ : ∃ registry', registry.adopt P manifest = .ok registry' :=
          adopt_isOk.mpr (by simp [hget])
        exact ⟨registry', .unknown hget hadopt⟩
    | some current =>
        obtain ⟨hsame, hversion⟩ := h current hget
        rcases lt_or_eq_of_le hversion with hlt | heq
        · obtain ⟨registry', hadopt⟩ : ∃ registry', registry.adopt P manifest = .ok registry' :=
            adopt_isOk.mpr (by simpa [hget] using hsame)
          exact ⟨registry', .newer hget hlt hadopt⟩
        · exact ⟨registry, .idempotent hget heq.symm hsame rfl⟩

theorem versioned_change (hversioned : registry.Versioned) (h : Change P registry registry') :
    registry'.Versioned := by
  have hadopted : ∀ manifest, Adopts P registry registry' manifest → registry'.Versioned := by
    intro manifest hadopts policyId
    rw [hadopts.policies, Dict.has_set_eq, hversioned policyId, Dict.has, Dict.has,
      hadopts.versions]
    by_cases hid : manifest.policy.policyId = policyId
    · simp [hid]
    · simp [hid]
  cases h with
  | @register policy h =>
      obtain ⟨-, rfl⟩ := register_eq_ok.mp h
      intro policyId
      simp only [Dict.has_set_eq, hversioned policyId]
      split
      · rename_i hhas
        by_cases hid : policy.policyId = policyId
        · rw [← hid, hhas, Bool.or_true]
        · rw [decide_eq_false hid, Bool.false_or]
      · rw [Dict.has_set_eq]
  | registerSigned h =>
      obtain ⟨-, haccepted⟩ := registerSigned_eq_ok.mp h
      cases haccepted with
      | unknown _ h => exact hadopted _ (adopts_of_adopt h)
      | newer _ _ h => exact hadopted _ (adopts_of_adopt h)
      | idempotent _ _ _ h => rwa [h]

theorem versioned_run (hversioned : registry.Versioned)
    (h : Relation.ReflTransGen (Change P) registry registry') : registry'.Versioned := by
  induction h with
  | refl => exact hversioned
  | tail _ hstep ih => exact versioned_change ih hstep

theorem version_change {policyId : Str} {v : ℤ} (hversioned : registry.Versioned)
    (hget : Dict.get registry.versions policyId = some v) (h : Change P registry registry') :
    ∃ v', Dict.get registry'.versions policyId = some v' ∧ v ≤ v' := by
  cases h with
  | @register policy h =>
      obtain ⟨-, rfl⟩ := register_eq_ok.mp h
      refine ⟨v, ?_, le_refl v⟩
      simp only
      split
      · exact hget
      · rename_i hhas
        rw [Dict.get_set_eq, if_neg ?_, hget]
        rintro rfl
        exact hhas (by rw [Dict.has, hget, Option.isSome_some])
  | @registerSigned manifest trustStore h =>
      obtain ⟨-, haccepted⟩ := registerSigned_eq_ok.mp h
      cases haccepted with
      | unknown hnone h =>
          refine ⟨v, ?_, le_refl v⟩
          rw [(adopts_of_adopt h).versions, if_neg ?_, hget]
          rintro rfl
          have hhas := hversioned manifest.policy.policyId
          rw [Dict.has, Dict.has, hnone, hget] at hhas
          cases hhas
      | newer _ hversion h =>
          rw [(adopts_of_adopt h).versions]
          split
          · rename_i hid
            refine ⟨manifest.version, rfl, ?_⟩
            rw [hid, hget, Option.getD_some] at hversion
            exact le_of_lt hversion
          · exact ⟨v, hget, le_refl v⟩
      | idempotent _ _ _ h => exact ⟨v, h ▸ hget, le_refl v⟩

theorem version_run {policyId : Str} {v : ℤ} (hversioned : registry.Versioned)
    (hget : Dict.get registry.versions policyId = some v)
    (h : Relation.ReflTransGen (Change P) registry registry') :
    ∃ v', Dict.get registry'.versions policyId = some v' ∧ v ≤ v' := by
  induction h with
  | refl => exact ⟨v, hget, le_refl v⟩
  | tail hrun hstep ih =>
      obtain ⟨middle, hmiddle, hle⟩ := ih
      obtain ⟨v', hv', hle'⟩ := version_change (versioned_run hversioned hrun) hmiddle hstep
      exact ⟨v', hv', le_trans hle hle'⟩

-- register_signed as a call on the registry: what it holds afterwards, and whether it raised
def submitSigned (P : Primitives) (registry : PolicyRegistry) (manifest : SignedPolicyManifest)
    (trustStore : Option TrustStore) : PolicyRegistry × Result Unit :=
  match registry.registerSigned P manifest trustStore with
  | .ok registry' => (registry', .ok ())
  | .error e => (registry, .error e)

def Newer (registry : PolicyRegistry) (manifest : SignedPolicyManifest) : Prop :=
  registry.version manifest.policy.policyId < manifest.version

structure VersionSemantics (P : Primitives) (registry : PolicyRegistry)
    (manifest : SignedPolicyManifest) (trustStore : Option TrustStore) : Prop where
  accepts : (registry.submitSigned P manifest trustStore).2 = .ok () ↔
    Verifies P registry manifest trustStore ∧
      ∀ current, Dict.get registry.policies manifest.policy.policyId = some current →
        Newer registry manifest ∨ current.SameDigest P manifest.policy
  newer : (registry.submitSigned P manifest trustStore).2 = .ok () → Newer registry manifest →
    (registry.submitSigned P manifest trustStore).1.getPolicy (.str manifest.policy.policyId) =
        .ok (some manifest.policy) ∧
      (registry.submitSigned P manifest trustStore).1.version manifest.policy.policyId =
        manifest.version
  rejected : ∀ e, (registry.submitSigned P manifest trustStore).2 = .error e →
    (registry.submitSigned P manifest trustStore).1 = registry
  monotone : ∀ registry', Relation.ReflTransGen (Change P) registry registry' →
    ∀ policyId v, Dict.get registry.versions policyId = some v →
      ∃ v', Dict.get registry'.versions policyId = some v' ∧ v ≤ v'

-- a newer version with other content is turned away, and so is an older one with the same
def Misjudged (P : Primitives) (registry : PolicyRegistry) (manifest : SignedPolicyManifest)
    (trustStore : Option TrustStore) : Prop :=
  Verifies P registry manifest trustStore ∧
    ∃ current, Dict.get registry.policies manifest.policy.policyId = some current ∧
      (Newer registry manifest ∧ ¬ current.SameDigest P manifest.policy ∨
        manifest.version < registry.version manifest.policy.policyId ∧
          current.SameDigest P manifest.policy)

theorem submitSigned_isOk : (registry.submitSigned P manifest trustStore).2 = .ok () ↔
    ∃ registry', registry.registerSigned P manifest trustStore = .ok registry' := by
  unfold submitSigned
  cases registry.registerSigned P manifest trustStore with
  | error e => simp
  | ok registry' => simp

theorem accepts_iff : ((registry.submitSigned P manifest trustStore).2 = .ok () ↔
    Verifies P registry manifest trustStore ∧
      ∀ current, Dict.get registry.policies manifest.policy.policyId = some current →
        Newer registry manifest ∨ current.SameDigest P manifest.policy) ↔
    ¬ Misjudged P registry manifest trustStore := by
  rw [submitSigned_isOk, registerSigned_isOk, and_congr_right_iff]
  unfold Misjudged Newer
  cases hget : Dict.get registry.policies manifest.policy.policyId with
  | none => simp
  | some current =>
      simp only [Option.some.injEq, forall_eq', exists_eq_left']
      rcases lt_trichotomy (registry.version manifest.policy.policyId) manifest.version with
        hlt | heq | hgt
      · simp [hlt, le_of_lt hlt, not_lt_of_gt hlt]
      · simp [heq]
      · simp [hgt, not_le.mpr hgt, not_lt_of_gt hgt]

theorem newer_of_accepted (haccepted : (registry.submitSigned P manifest trustStore).2 = .ok ())
    (hnewer : Newer registry manifest) :
    (registry.submitSigned P manifest trustStore).1.getPolicy (.str manifest.policy.policyId) =
        .ok (some manifest.policy) ∧
      (registry.submitSigned P manifest trustStore).1.version manifest.policy.policyId =
        manifest.version := by
  obtain ⟨registry', h⟩ := submitSigned_isOk.mp haccepted
  have hadopts : Adopts P registry registry' manifest := by
    cases (registerSigned_eq_ok.mp h).2 with
    | unknown _ h => exact adopts_of_adopt h
    | newer _ _ h => exact adopts_of_adopt h
    | idempotent _ hversion => exact absurd hversion (ne_of_gt hnewer)
  simp only [submitSigned, h]
  constructor
  · simp [getPolicy, lookup, hadopts.policies, Dict.get_set]
  · simp [version, hadopts.versions]

theorem rejected_unchanged {e : Exc} (h : (registry.submitSigned P manifest trustStore).2 = .error e) :
    (registry.submitSigned P manifest trustStore).1 = registry := by
  unfold submitSigned at h ⊢
  cases hsigned : registry.registerSigned P manifest trustStore with
  | error e => rfl
  | ok registry' =>
      rw [hsigned] at h
      cases h

-- the run starts from an empty registry or from one that was read back
theorem manifest_version_semantics_iff {start : PolicyRegistry} (hstart : start.Versioned)
    (hrun : Relation.ReflTransGen (Change P) start registry) :
    VersionSemantics P registry manifest trustStore ↔
      ¬ Misjudged P registry manifest trustStore := by
  rw [← accepts_iff]
  constructor
  · exact VersionSemantics.accepts
  · intro haccepts
    exact
      { accepts := haccepts
        newer := newer_of_accepted
        rejected := fun _ => rejected_unchanged
        monotone := fun _ hlater _ _ hget => version_run (versioned_run hstart hrun) hget hlater }

end PolicyRegistry

-- the demo policy with a second action, proposed where the demo policy is registered
def widerPolicy : Policy := { Demo.policy with allowedActions := ["read_email", "send_email"] }

def demoRegistry : PolicyRegistry :=
  { policies := [("demo-v1", Demo.policy)], versions := [("demo-v1", 1)] }

theorem demo_digest : Demo.policy.digest sizePrimitives = .ok (lit "208") :=
  eq_ok_of_toOption (by decide +kernel)

theorem wider_digest : widerPolicy.digest sizePrimitives = .ok (lit "221") :=
  eq_ok_of_toOption (by decide +kernel)

namespace PolicyRegistry

theorem versioned_empty : Versioned {} := fun _ => rfl

theorem demoRegistry_reached : Relation.ReflTransGen (Change sizePrimitives) {} demoRegistry :=
  .single (@Change.register _ _ _ Demo.policy rfl)

def aliceStore : TrustStore := ⟨[("alice", ⟨[1]⟩)], [], by simp⟩

def signedByAlice (policy : Policy) (version : ℤ) : SignedPolicyManifest :=
  ⟨policy, version, "alice", "c2ln"⟩

theorem demoRegistry_get {version : ℤ} {policy : Policy} (h : policy.policyId = lit "demo-v1") :
    Dict.get demoRegistry.policies (signedByAlice policy version).policy.policyId =
      some Demo.policy := by
  simp [demoRegistry, signedByAlice, h, Dict.get]

theorem demoRegistry_version {version : ℤ} {policy : Policy} (h : policy.policyId = lit "demo-v1") :
    demoRegistry.version (signedByAlice policy version).policy.policyId = 1 := by
  simp [PolicyRegistry.version, demoRegistry, signedByAlice, h, Dict.get]

theorem manifest_version_semantics_iff_demo :
    VersionSemantics sizePrimitives demoRegistry (signedByAlice Demo.policy 2) (some aliceStore) := by
  refine (manifest_version_semantics_iff versioned_empty demoRegistry_reached).mpr ?_
  rintro ⟨-, current, hget, ⟨-, hdiffers⟩ | ⟨holder, -⟩⟩
  · rw [demoRegistry_get rfl] at hget
    exact hdiffers (Option.some.inj hget ▸ ⟨_, demo_digest, demo_digest⟩)
  · rw [demoRegistry_version rfl] at holder
    exact absurd holder (by simp [signedByAlice])

theorem verified_wider : (signedByAlice widerPolicy 2).Verified sizePrimitives aliceStore := by
  obtain ⟨payload, hpayload⟩ := exists_of_toOption
    (show ((signedByAlice widerPolicy 2).unsignedPayload sizePrimitives).toOption.isSome = true by
      decide +kernel)
  exact ⟨by simp [signedByAlice], ⟨[1]⟩, payload,
    TrustStore.resolve_eq_some.mp (by decide), hpayload, verifySignature_size _ _⟩

-- version 2 of a policy with other content than version 1 is what a newer version is for
theorem manifest_versions_misjudged :
    ¬ ∀ (P : Primitives) (start registry : PolicyRegistry) (manifest : SignedPolicyManifest)
      (trustStore : Option TrustStore), start.Versioned →
        Relation.ReflTransGen (Change P) start registry →
          VersionSemantics P registry manifest trustStore := by
  intro h
  have hsemantics := h sizePrimitives {} demoRegistry (signedByAlice widerPolicy 2)
    (some aliceStore) versioned_empty demoRegistry_reached
  refine accepts_iff.mp hsemantics.accepts
    ⟨⟨aliceStore, rfl, verified_wider⟩, Demo.policy, demoRegistry_get rfl, Or.inl ⟨?_, ?_⟩⟩
  · rw [Newer, demoRegistry_version rfl]
    simp [signedByAlice]
  · rintro ⟨digest, hdemo, hwider⟩
    rw [demo_digest] at hdemo
    obtain rfl := Except.ok.inj hdemo
    rw [show (signedByAlice widerPolicy 2).policy = widerPolicy from rfl, wider_digest,
      Except.ok.injEq, lit_inj] at hwider
    exact absurd hwider (by decide)

end PolicyRegistry

end GovernedAutonomy
