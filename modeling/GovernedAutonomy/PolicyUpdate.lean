import GovernedAutonomy.Activation
import GovernedAutonomy.Versions

namespace GovernedAutonomy

open Python Protocol

theorem PolicyRegistry.register_isOk_iff (P : Primitives) {registry : PolicyRegistry}
    {policy : Policy} {current : Str}
    (hcurrent : registry.currentDigest P policy.policyId = .ok current) :
    (∃ registry', registry.register P policy = .ok registry') ↔
      current = [] ∨ policy.digest P = .ok current := by
  unfold currentDigest at hcurrent
  simp only [register_eq_ok, exists_and_left, exists_eq, and_true]
  cases hget : Dict.get registry.policies policy.policyId with
  | none =>
      rw [hget] at hcurrent
      exact iff_of_true (by simp) (Or.inl (Except.ok.inj hcurrent).symm)
  | some existing =>
      rw [hget] at hcurrent
      change existing.digest P = .ok current at hcurrent
      have hnonempty : current ≠ [] := (canonicalDigest_eq_ok hcurrent).1
      simp only [hnonempty, false_or, Option.some.injEq, forall_eq', Policy.SameDigest, hcurrent,
        Except.ok.injEq, exists_eq_left']

namespace PolicyChangeManager

variable {P : Primitives} {manager : PolicyChangeManager} {proposal : PolicyChangeProposal}
  {proposalId : Str}

structure TakesEffect (P : Primitives) (manager : PolicyChangeManager) (proposalId actorId : Str)
    (proposal : PolicyChangeProposal) : Prop where
  succeeds : (manager.activate P proposalId actorId).2 = .ok proposal.proposedPolicy
  registered : Dict.get (manager.activate P proposalId actorId).1.registry.policies
    proposal.policyId = some proposal.proposedPolicy
  others : ∀ policyId ≠ proposal.policyId,
    Dict.get (manager.activate P proposalId actorId).1.registry.policies policyId =
      Dict.get manager.registry.policies policyId
  activated : Dict.get (manager.activate P proposalId actorId).1.proposals proposalId =
    some { proposal with status := .activated }

theorem takesEffect_iff {actorId : Str}
    (hget : Dict.get manager.proposals proposalId = some proposal)
    (hpending : proposal.status = .pending)
    (hverified : proposal.verify P manager.trustStore = .ok true)
    (hquorum : manager.requiredApprovals ≤ proposal.approvalCount)
    (hpolicy : proposal.policyId = proposal.proposedPolicy.policyId) :
    TakesEffect P manager proposalId actorId proposal ↔
      (∃ registry, manager.registry.register P proposal.proposedPolicy = .ok registry) ∧
        manager.hooks.audit "policy.activated" proposalId actorId = .ok () := by
  constructor
  · rintro ⟨hsucceeds, -, -, -⟩
    obtain ⟨proposal', registry, hadmission⟩ := admitted_of_activate hsucceeds
    obtain ⟨hget', -, -, -, hregister⟩ := admitActivation_eq_ok.mp hadmission
    rw [hget] at hget'
    obtain rfl := Option.some.inj hget'
    simp only [activate, hadmission, bind_eq_ok] at hsucceeds
    obtain ⟨⟨⟩, haudit, -⟩ := hsucceeds
    exact ⟨⟨registry, hregister⟩, haudit⟩
  · rintro ⟨⟨registry, hregister⟩, haudit⟩
    have hadmission := admitActivation_eq_ok.mpr ⟨hget, hpending, hverified, hquorum, hregister⟩
    have hstores := PolicyRegistry.register_stores P hregister
    constructor
    · simp [activate, hadmission, haudit, bind, Except.bind]
    · simp [activate, hadmission, put, hstores.get, hpolicy]
    · intro policyId hother
      simp [activate, hadmission, put, hstores.get, ← hpolicy, Ne.symm hother]
    · simp [activate, hadmission, put, Dict.get_set]

theorem activation_takes_effect_iff {calls : List AdminCall} {actorId : Str}
    (hfresh : manager.proposals = [])
    (hget : Dict.get (Calls.run (step P) manager calls).proposals proposalId = some proposal)
    (hpending : proposal.status = .pending)
    (hverified : proposal.verify P (Calls.run (step P) manager calls).trustStore = .ok true)
    (hquorum : (Calls.run (step P) manager calls).requiredApprovals ≤ proposal.approvalCount)
    (hcurrent : (Calls.run (step P) manager calls).registry.currentDigest P proposal.policyId =
      .ok proposal.currentPolicyDigest) :
    TakesEffect P (Calls.run (step P) manager calls) proposalId actorId proposal ↔
      (proposal.currentPolicyDigest = [] ∨
        proposal.proposedPolicy.digest P = .ok proposal.currentPolicyDigest) ∧
        (Calls.run (step P) manager calls).hooks.audit "policy.activated" proposalId actorId =
          .ok () := by
  have hpolicy := (ownIds_run (P := P) hfresh calls proposalId proposal hget).2
  rw [takesEffect_iff hget hpending hverified hquorum hpolicy,
    PolicyRegistry.register_isOk_iff P (hpolicy ▸ hcurrent)]

theorem activation_takes_effect_iff_review : ∃ proposal : PolicyChangeProposal,
    proposal.proposedPolicy = Demo.policy ∧
      TakesEffect sizePrimitives (Calls.run (step sizePrimitives) (Review.manager {})
        (Review.calls Demo.policy)) "p-1" "system" proposal := by
  obtain ⟨digest, hready⟩ := Review.ready_demo
  refine ⟨Review.approvedTwice Demo.policy [] digest, rfl,
    (activation_takes_effect_iff rfl ?_ rfl ?_ ?_ ?_).mpr ⟨Or.inl rfl, ?_⟩⟩
  · rw [Review.run_calls hready]
    simp [put, Dict.get_set]
  · rw [Review.run_calls hready]
    exact Review.proposal_verifies hready
  · rw [Review.run_calls hready]
    exact Review.two_le_approvalCount _ _ _
  · rw [Review.run_calls hready]
    rfl
  · rw [Review.run_calls hready]
    rfl

theorem takesEffect_review {registry : PolicyRegistry} {newPolicy : Policy} {current digest : Str}
    (h : Review.Ready P registry newPolicy current digest) :
    TakesEffect P (Calls.run (step P) (Review.manager registry) (Review.calls newPolicy)) "p-1"
        "system" (Review.approvedTwice newPolicy current digest) ↔
      ∃ registry', registry.register P newPolicy = .ok registry' := by
  rw [Review.run_calls h, takesEffect_iff (by simp [put, Dict.get_set]) rfl
    (Review.proposal_verifies h) (Review.two_le_approvalCount _ _ _) rfl]
  exact and_iff_left rfl

theorem demoRegistry_currentDigest :
    demoRegistry.currentDigest sizePrimitives widerPolicy.policyId = .ok (lit "208") := by
  simp [PolicyRegistry.currentDigest, demoRegistry, widerPolicy, Demo.policy, Dict.get]
  exact demo_digest

theorem ready_wider : Review.Ready sizePrimitives demoRegistry widerPolicy "208" "221" :=
  Review.ready demoRegistry_currentDigest wider_digest (exists_of_toOption (by decide +kernel))
    (Json.clean_lit _) (by decide) verifySignature_size

theorem not_takesEffect_wider : ¬ TakesEffect sizePrimitives
    (Calls.run (step sizePrimitives) (Review.manager demoRegistry) (Review.calls widerPolicy))
      "p-1" "system" (Review.approvedTwice widerPolicy "208" "221") := by
  rw [takesEffect_review ready_wider, PolicyRegistry.register_isOk_iff _ demoRegistry_currentDigest,
    wider_digest, Except.ok.injEq, lit_inj]
  simp [lit]

theorem policy_update_refused :
    ¬ ∀ (P : Primitives) (manager : PolicyChangeManager) (calls : List AdminCall)
      (proposalId actorId : Str) (proposal : PolicyChangeProposal), manager.proposals = [] →
        manager.hooks = {} →
        Dict.get (Calls.run (step P) manager calls).proposals proposalId = some proposal →
          proposal.status = .pending →
            proposal.verify P (Calls.run (step P) manager calls).trustStore = .ok true →
              (Calls.run (step P) manager calls).requiredApprovals ≤ proposal.approvalCount →
                (Calls.run (step P) manager calls).registry.currentDigest P proposal.policyId =
                    .ok proposal.currentPolicyDigest →
                  TakesEffect P (Calls.run (step P) manager calls) proposalId actorId proposal := by
  intro h
  refine not_takesEffect_wider (h sizePrimitives _ _ "p-1" "system" _ rfl rfl ?_ rfl ?_ ?_ ?_)
  · rw [Review.run_calls ready_wider]
    simp [put, Dict.get_set]
  · rw [Review.run_calls ready_wider]
    exact Review.proposal_verifies ready_wider
  · rw [Review.run_calls ready_wider]
    exact Review.two_le_approvalCount _ _ _
  · rw [Review.run_calls ready_wider]
    exact demoRegistry_currentDigest

end PolicyChangeManager

end GovernedAutonomy
