import GovernedAutonomy.Demo

namespace GovernedAutonomy

open Python

namespace PolicyRegistry

variable (P : Primitives)

inductive Change : PolicyRegistry → PolicyRegistry → Prop
  | register {registry registry' : PolicyRegistry} {policy : Policy}
      (h : registry.register P policy = .ok registry') : Change registry registry'
  | registerSigned {registry registry' : PolicyRegistry} {manifest : SignedPolicyManifest}
      {trustStore : Option TrustStore}
      (h : registry.registerSigned P manifest trustStore = .ok registry') :
      Change registry registry'

def Reachable (registry : PolicyRegistry) : Prop :=
  ∃ trustStore, Relation.ReflTransGen (Change P) { trustStore := trustStore } registry

-- a registration stores a policy under its own id, where no other digest may stand
structure Stores (registry registry' : PolicyRegistry) (policy : Policy) : Prop where
  policies : registry'.policies = Dict.set registry.policies policy.policyId policy
  digest : ∀ existing, Dict.get registry.policies policy.policyId = some existing →
    ∃ digest, existing.digest P = .ok digest ∧ policy.digest P = .ok digest

theorem register_stores {registry registry' : PolicyRegistry} {policy : Policy}
    (h : registry.register P policy = .ok registry') : Stores P registry registry' policy := by
  unfold register at h
  cases hget : Dict.get registry.policies policy.policyId with
  | none =>
      rw [hget] at h
      obtain ⟨-, -, h⟩ := bind_eq_ok.mp h
      obtain rfl := Except.ok.inj h
      refine ⟨rfl, ?_⟩
      intro existing hexisting
      rw [hget] at hexisting
      cases hexisting
  | some existing =>
      rw [hget] at h
      simp only [bind_eq_ok, raiseIf_eq_ok, not_not] at h
      obtain ⟨current, hcurrent, offered, hoffered, -, hsame, h⟩ := h
      obtain rfl := Except.ok.inj h
      refine ⟨rfl, ?_⟩
      intro existing' hexisting
      rw [hget] at hexisting
      obtain rfl := Option.some.inj hexisting
      exact ⟨current, hcurrent, hsame ▸ hoffered⟩

theorem adopt_stores {registry registry' : PolicyRegistry} {manifest : SignedPolicyManifest}
    (h : registry.adopt P manifest = .ok registry') :
    Stores P registry registry' manifest.policy := by
  obtain ⟨middle, hmiddle, h⟩ := bind_eq_ok.mp h
  obtain rfl := Except.ok.inj h
  obtain ⟨hpolicies, hdigest⟩ := register_stores P hmiddle
  exact ⟨hpolicies, hdigest⟩

theorem change_cases {registry registry' : PolicyRegistry} (h : Change P registry registry') :
    registry' = registry ∨ ∃ policy, Stores P registry registry' policy := by
  cases h with
  | register h => exact Or.inr ⟨_, register_stores P h⟩
  | registerSigned h =>
      unfold registerSigned at h
      split at h
      · cases h
      · simp only [bind_eq_ok] at h
        obtain ⟨verified, -, -, -, h⟩ := h
        split at h
        · split at h
          · split at h
            · simp only [bind_eq_ok] at h
              obtain ⟨held, -, offered, -, h⟩ := h
              split at h
              · exact Or.inl (Except.ok.inj h).symm
              · cases h
            · cases h
          · exact Or.inr ⟨_, adopt_stores P h⟩
        · exact Or.inr ⟨_, adopt_stores P h⟩

theorem Stores.get {registry registry' : PolicyRegistry} {policy : Policy}
    (h : Stores P registry registry' policy) (policyId : Str) :
    Dict.get registry'.policies policyId =
      if policy.policyId = policyId then some policy else Dict.get registry.policies policyId := by
  rw [h.policies, Dict.get_set_eq]

def OwnIds (registry : PolicyRegistry) : Prop :=
  ∀ policyId policy, Dict.get registry.policies policyId = some policy →
    policy.policyId = policyId

theorem ownIds_change {registry registry' : PolicyRegistry} (hids : registry.OwnIds)
    (h : Change P registry registry') : registry'.OwnIds := by
  rcases change_cases P h with rfl | ⟨policy, hstores⟩
  · exact hids
  · intro policyId found hfound
    rw [hstores.get] at hfound
    split at hfound
    · rename_i hid
      rwa [← Option.some.inj hfound]
    · exact hids policyId found hfound

theorem ownIds_of_reachable {registry : PolicyRegistry} (h : registry.Reachable P) :
    registry.OwnIds := by
  obtain ⟨trustStore, hrun⟩ := h
  induction hrun with
  | refl =>
      intro policyId policy hget
      cases hget
  | tail _ hstep ih => exact ownIds_change P ih hstep

theorem digest_change {registry registry' : PolicyRegistry} {policyId : Str} {policy : Policy}
    {digest : Str} (hget : Dict.get registry.policies policyId = some policy)
    (hdigest : policy.digest P = .ok digest) (h : Change P registry registry') :
    ∃ policy', Dict.get registry'.policies policyId = some policy' ∧
      policy'.digest P = .ok digest := by
  rcases change_cases P h with rfl | ⟨stored, hstores⟩
  · exact ⟨policy, hget, hdigest⟩
  · rw [hstores.get]
    split
    · rename_i hid
      obtain ⟨digest', hexisting, hstored⟩ := hstores.digest policy (hid ▸ hget)
      rw [hdigest] at hexisting
      obtain rfl := Except.ok.inj hexisting
      exact ⟨stored, rfl, hstored⟩
    · exact ⟨policy, hget, hdigest⟩

-- a policy id keeps its digest for as long as the registry lives
theorem digest_forever {registry registry' : PolicyRegistry} {policyId : Str} {policy : Policy}
    {digest : Str} (hget : Dict.get registry.policies policyId = some policy)
    (hdigest : policy.digest P = .ok digest)
    (h : Relation.ReflTransGen (Change P) registry registry') :
    ∃ policy', Dict.get registry'.policies policyId = some policy' ∧
      policy'.digest P = .ok digest := by
  induction h with
  | refl => exact ⟨policy, hget, hdigest⟩
  | tail _ hstep ih =>
      obtain ⟨middle, hmiddle, hmiddleDigest⟩ := ih
      exact digest_change P hmiddle hmiddleDigest hstep

end PolicyRegistry

namespace ExecutionBoundary

variable (P : Primitives)

def DigestBound (registry : PolicyRegistry) (artifact : Artifact) : Prop :=
  ∃ policyId policy digest, artifact.decision.getD "policy" = .str policyId ∧
    Dict.get registry.policies policyId = some policy ∧ policy.policyId = policyId ∧
    policy.digest P = .ok digest ∧ artifact.decision.get "policy_digest" = some (.str digest)

variable {P} {boundary : ExecutionBoundary} {registry : PolicyRegistry} {log : ReplayLog} {now : ℤ}
  {artifact : Artifact}

theorem digestMismatch_eq_false {expected : PyVal} {digest : Result Str}
    (h : digestMismatch expected digest = .ok false) (hexpected : expected ≠ .none) :
    ∃ current, digest = .ok current ∧ expected = .str current := by
  unfold digestMismatch at h
  split at h
  · exact absurd rfl hexpected
  · obtain ⟨current, hcurrent, h⟩ := bind_eq_ok.mp h
    have hsame : expected.eq (.str current) = true := by simpa using h
    exact ⟨current, hcurrent, PyVal.eq_str_right.mp hsame⟩

theorem get_of_getD {d : PyDict} {name : Str} {v : PyVal} (h : d.getD name = v) (hv : v ≠ .none) :
    d.get name = some v := by
  cases hget : d.get name with
  | none =>
      rw [PyDict.getD_of_get_none hget] at h
      exact absurd h.symm hv
  | some w =>
      rw [PyDict.getD_of_get hget] at h
      rw [h]

theorem digestBound_forever {registry' : PolicyRegistry} (hreachable : registry.Reachable P)
    (hrun : Relation.ReflTransGen (PolicyRegistry.Change P) registry registry')
    (h : DigestBound P registry artifact) : DigestBound P registry' artifact := by
  obtain ⟨policyId, policy, digest, hid, hget, -, hdigest, hexpected⟩ := h
  obtain ⟨policy', hget', hdigest'⟩ := PolicyRegistry.digest_forever P hget hdigest hrun
  obtain ⟨trustStore, hbefore⟩ := hreachable
  exact ⟨policyId, policy', digest, hid, hget',
    PolicyRegistry.ownIds_of_reachable P ⟨trustStore, hbefore.trans hrun⟩ policyId policy' hget',
    hdigest', hexpected⟩

theorem demo_registry : ∃ registry, Relation.ReflTransGen (PolicyRegistry.Change referencePrimitives)
    {} registry ∧ Dict.get registry.policies "demo-v1" = some Demo.policy :=
  ⟨_, .single (.register (show PolicyRegistry.register referencePrimitives {} Demo.policy = .ok _ from rfl)),
    rfl⟩

theorem demo_arbitration :
    (DeterministicArbiter.decide referencePrimitives {} Demo.request Demo.policy).toOption.any
      Decision.allow = true := by
  decide +kernel

def demoBoundary (registry : PolicyRegistry) : ExecutionBoundary :=
  { Demo.boundary with policyRegistry := some registry }

-- a signed decision without a policy_digest passes whatever the registry holds by that name
theorem demo_checkPolicy {log : ReplayLog} {artifact : Artifact} {registry : PolicyRegistry}
    (hstart : Demo.start = .ok (log, artifact))
    (hget : Dict.get registry.policies "demo-v1" = some Demo.policy) :
    checkPolicy referencePrimitives (demoBoundary registry) artifact = .ok () := by
  obtain ⟨payload, frame, -, -, rfl⟩ := Demo.authorize_eq_ok hstart
  refine checkPolicy_eq_ok.mpr ?_
  intro registry' hregistry
  obtain rfl := Option.some.inj hregistry
  have hallow := demo_arbitration
  cases hd : DeterministicArbiter.decide referencePrimitives {} Demo.request Demo.policy with
  | error e =>
      rw [hd] at hallow
      cases hallow
  | ok decision =>
      rw [hd] at hallow
      refine ⟨"demo-v1", Demo.policy, ?_, hget, ?_, decision, hd, hallow⟩
      · simp [Demo.decision, PyDict.getD]
      · simp [Demo.decision, PyDict.getD, digestMismatch]

theorem demo_invoked (action : PyDict → HandlerOutcome) : ∃ registry log artifact,
    Relation.ReflTransGen (PolicyRegistry.Change referencePrimitives) {} registry ∧
      artifact.decision = Demo.decision ∧
      (execute referencePrimitives (demoBoundary registry) log 0 artifact action).invoked = true := by
  obtain ⟨registry, hreachable, hget⟩ := demo_registry
  obtain ⟨log, artifact, hstart⟩ := Demo.start_isOk
  have hvalid := Demo.validates hstart (demoBoundary registry) Demo.publicKey 0 rfl
    Demo.signer_verifies (demo_checkPolicy hstart hget) (Demo.start_unexpired hstart) (by simp)
    (by simp)
  obtain ⟨payload, frame, -, -, rfl⟩ := Demo.authorize_eq_ok hstart
  exact ⟨registry, log, _, hreachable, rfl, execute_invoked.mpr hvalid⟩

theorem policy_digest_bound_iff {action : PyDict → HandlerOutcome}
    (hregistry : boundary.policyRegistry = some registry) (hreachable : registry.Reachable P)
    (hinvoked : (execute P boundary log now artifact action).invoked = true) :
    DigestBound P registry artifact ↔ artifact.decision.getD "policy_digest" ≠ .none := by
  constructor
  · rintro ⟨policyId, policy, digest, -, -, -, -, hdigest⟩
    rw [PyDict.getD_of_get hdigest]
    simp
  · intro hpresent
    have hcheck := validate_eq_ok.mp (execute_invoked.mp hinvoked) .policy
    obtain ⟨policyId, policy, hid, hpolicy, hmismatch, -⟩ :=
      (checkPolicy_eq_ok.mp hcheck registry hregistry).registered
    obtain ⟨digest, hdigest, hexpected⟩ := digestMismatch_eq_false hmismatch hpresent
    exact ⟨policyId, policy, digest, hid, hpolicy,
      PolicyRegistry.ownIds_of_reachable P hreachable policyId policy hpolicy, hdigest,
      get_of_getD hexpected (by simp)⟩

theorem policy_digest_bound_iff_demo : ∃ registry log artifact,
    (execute referencePrimitives (demoBoundary registry) log 0 artifact
        (fun _ => .returned .none)).invoked = true ∧
      (DigestBound referencePrimitives registry artifact ↔
        artifact.decision.getD "policy_digest" ≠ .none) := by
  obtain ⟨registry, log, artifact, hrun, -, hinvoked⟩ := demo_invoked (fun _ => .returned .none)
  exact ⟨registry, log, artifact, hinvoked, policy_digest_bound_iff rfl ⟨none, hrun⟩ hinvoked⟩

theorem policy_drift :
    ¬ ∀ (P : Primitives) (boundary : ExecutionBoundary) (registry : PolicyRegistry)
      (log : ReplayLog) (now : ℤ) (artifact : Artifact) (action : PyDict → HandlerOutcome),
      registry.Reachable P → boundary.policyRegistry = some registry →
        (execute P boundary log now artifact action).invoked = true →
          DigestBound P registry artifact := by
  intro h
  obtain ⟨registry, log, artifact, hrun, hdecision, hinvoked⟩ :=
    demo_invoked (fun _ => .returned .none)
  obtain ⟨-, -, digest, -, -, -, -, hdigest⟩ :=
    h referencePrimitives _ registry log 0 artifact _ ⟨none, hrun⟩ rfl hinvoked
  rw [hdecision] at hdigest
  simp [Demo.decision] at hdigest

end ExecutionBoundary

end GovernedAutonomy
