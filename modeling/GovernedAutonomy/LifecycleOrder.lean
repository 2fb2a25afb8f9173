import GovernedAutonomy.LifecycleMoves
import GovernedAutonomy.Protocol.Calls

namespace GovernedAutonomy

open Python Protocol

namespace VersionedPolicyRegistry

variable {P : Primitives} {L : Libraries} {registry registry' : VersionedPolicyRegistry}
  {given : Circumstances} {request : ActivationRequest} {turn : RegistryTurn}
  {policyId version : Str}

-- the version the active pointer names; revoke leaves an empty one there
def selected (registry : VersionedPolicyRegistry) (policyId : Str) : Option Str :=
  (registry.previousVersion policyId).filter (fun version => version ≠ [])

theorem selected_eq_some :
    registry.selected policyId = some version ↔
      registry.previousVersion policyId = some version ∧ version ≠ [] := by
  rw [selected, Option.filter_eq_some_iff, decide_eq_true_eq]

section Effects

theorem state_set (registry : VersionedPolicyRegistry) (key : Str × Str)
    (lifecycle : PolicyLifecycle) (policyId version : Str) :
    state { registry with states := Dict.set registry.states key lifecycle } policyId version =
      if key = (policyId, version) then lifecycle else registry.state policyId version := by
  rw [state, Dict.get_set_eq]
  split <;> rfl

theorem state_select (registry : VersionedPolicyRegistry) (event : PolicyActivationEvent)
    (policyId version : Str) : (registry.select event).state policyId version =
      if (event.policyId, event.selectedVersion) = (policyId, version) then .active
      else if event.policyId = policyId ∧ event.previousVersion = some version then .published
      else registry.state policyId version := by
  unfold select state
  simp only [Dict.get_set_eq]
  split
  · rfl
  · cases event.previousVersion with
    | none => simp
    | some previous =>
        simp only [Dict.get_set_eq, Prod.mk.injEq, Option.some.injEq]
        split <;> rfl

theorem has_select (registry : VersionedPolicyRegistry) (event : PolicyActivationEvent)
    (policyId version : Str) :
    Dict.has (registry.select event).states (policyId, version) = true ↔
      (event.policyId, event.selectedVersion) = (policyId, version) ∨
        (event.policyId = policyId ∧ event.previousVersion = some version) ∨
          Dict.has registry.states (policyId, version) = true := by
  unfold select
  cases event.previousVersion with
  | none => simp only [Dict.has_set_eq, Bool.or_eq_true, decide_eq_true_eq, reduceCtorEq, and_false,
      false_or]
  | some previous => simp only [Dict.has_set_eq, Bool.or_eq_true, decide_eq_true_eq, Prod.mk.injEq,
      Option.some.injEq]

theorem slot_select (registry : VersionedPolicyRegistry) (event : PolicyActivationEvent)
    (policyId : Str) : Dict.get (registry.select event).active policyId =
      if event.policyId = policyId then some (event.selectedVersion, event.revision)
      else Dict.get registry.active policyId :=
  Dict.get_set_eq _ _ _ _

theorem history_select (registry : VersionedPolicyRegistry) (event : PolicyActivationEvent)
    (policyId : Str) : (registry.select event).activationHistory policyId =
      if event.policyId = policyId then registry.activationHistory event.policyId ++ [event]
      else registry.activationHistory policyId := by
  rw [activationHistory, select, Dict.get_set_eq]
  split <;> rfl

theorem slot_withdraw (registry : VersionedPolicyRegistry) (policyId version policyId' : Str) :
    Dict.get (registry.withdraw policyId version).active policyId' =
      if policyId = policyId' ∧ registry.previousVersion policyId = some version then
        some ([], registry.activeRevision policyId + 1)
      else Dict.get registry.active policyId' := by
  unfold withdraw previousVersion activeRevision
  cases hslot : Dict.get registry.active policyId with
  | none => simp
  | some slot =>
      obtain ⟨selected, revision⟩ := slot
      simp only [Option.map_some, Option.some.injEq, Option.getD_some]
      by_cases hselected : selected = version
      · simp only [hselected, if_true, Dict.get_set_eq, and_true]
      · simp only [hselected, if_false, and_false]

theorem activeRevision_select (registry : VersionedPolicyRegistry) (event : PolicyActivationEvent)
    (policyId : Str) : (registry.select event).activeRevision policyId =
      if event.policyId = policyId then event.revision else registry.activeRevision policyId := by
  rw [activeRevision, slot_select]
  split <;> rfl

theorem activeRevision_withdraw (registry : VersionedPolicyRegistry)
    (policyId version policyId' : Str) :
    (registry.withdraw policyId version).activeRevision policyId' =
      if policyId = policyId' ∧ registry.previousVersion policyId = some version then
        registry.activeRevision policyId + 1
      else registry.activeRevision policyId' := by
  rw [activeRevision, slot_withdraw]
  split <;> rfl

theorem selected_select (registry : VersionedPolicyRegistry) (event : PolicyActivationEvent)
    (policyId : Str) (hnamed : event.selectedVersion ≠ []) :
    (registry.select event).selected policyId =
      if event.policyId = policyId then some event.selectedVersion
      else registry.selected policyId := by
  rw [selected, previousVersion, slot_select]
  split
  · simp [hnamed]
  · rfl

theorem selected_withdraw (registry : VersionedPolicyRegistry) (policyId version policyId' : Str) :
    (registry.withdraw policyId version).selected policyId' =
      if policyId = policyId' ∧ registry.previousVersion policyId = some version then none
      else registry.selected policyId' := by
  rw [selected, previousVersion, slot_withdraw]
  split
  · rfl
  · rfl

end Effects

-- what every reachable registry satisfies
structure Ordered (registry : VersionedPolicyRegistry) : Prop where
  single : ∀ policyId version,
    registry.state policyId version = .active ↔ registry.selected policyId = some version
  named : ∀ policyId version, Dict.has registry.storage (policyId, version) = true → version ≠ []
  unnamed : ∀ policyId, registry.state policyId [] = .published
  stored : ∀ policyId version, version ≠ [] →
    Dict.has registry.states (policyId, version) = true →
      Dict.has registry.storage (policyId, version) = true
  history : ∀ policyId,
    (registry.activationHistory policyId).Pairwise (fun e e' => e.revision < e'.revision) ∧
      ∀ event ∈ registry.activationHistory policyId,
        event.revision ≤ registry.activeRevision policyId

section Invariant

theorem ordered_opened (storage : PolicyStorage) : Ordered storage.opened where
  single policyId version := by simp [PolicyStorage.opened, state, selected, previousVersion]
  named policyId version h := by
    obtain ⟨stored, hget⟩ := Option.isSome_iff_exists.mp h
    exact storage.named _ (Dict.mem_of_get hget)
  unnamed policyId := rfl
  stored policyId version _ h := by cases h
  history policyId := ⟨List.Pairwise.nil, by simp [PolicyStorage.opened, activationHistory]⟩

theorem has_of_active (h : registry.state policyId version = .active) :
    Dict.has registry.states (policyId, version) = true := by
  cases hget : Dict.get registry.states (policyId, version) with
  | none =>
      rw [state, hget] at h
      cases h
  | some lifecycle => rw [Dict.has, hget, Option.isSome_some]

theorem known_of_admissible (h : registry.Admissible P given request) :
    Dict.has registry.storage (request.policyId, request.version) = true := by
  obtain ⟨stored, hfound, -⟩ := h.verified
  rw [Dict.has, ← find_eq_ok hfound, Option.isSome_some]

theorem Ordered.published_of_admissible (h : registry.Ordered)
    (hadmissible : registry.Admissible P given request) :
    registry.state request.policyId request.version = .published := by
  refine hadmissible.state.resolve_right fun hactive => hadmissible.other ?_
  exact (selected_eq_some.mp ((h.single _ _).mp hactive)).1

theorem Ordered.published_of_fresh (h : registry.Ordered) (hnamed : version ≠ [])
    (hfresh : Dict.get registry.storage (policyId, version) = none) :
    registry.state policyId version = .published := by
  cases hget : Dict.get registry.states (policyId, version) with
  | none => rw [state, hget, Option.getD_none]
  | some lifecycle =>
      have hhas := h.stored policyId version hnamed (by rw [Dict.has, hget, Option.isSome_some])
      rw [Dict.has, hfresh] at hhas
      cases hhas

theorem Ordered.storage_set (h : registry.Ordered) (stored : StoredPolicy)
    (hnamed : version ≠ []) : Ordered
      { registry with storage := Dict.set registry.storage (policyId, version) stored } where
  single := h.single
  named policyId' version' hhas := by
    rw [Dict.has_set_eq, Bool.or_eq_true, decide_eq_true_eq] at hhas
    rcases hhas with heq | hhas
    · exact (Prod.mk.inj heq).2 ▸ hnamed
    · exact h.named policyId' version' hhas
  unnamed := h.unnamed
  stored policyId' version' hne hhas := by
    rw [Dict.has_set_eq, h.stored policyId' version' hne hhas, Bool.or_true]
  history := h.history

-- a state other than ACTIVE is given to a version that is not active
theorem Ordered.states_set (h : registry.Ordered) {lifecycle : PolicyLifecycle}
    (hknown : Dict.has registry.storage (policyId, version) = true)
    (hinactive : registry.state policyId version ≠ .active) (hlifecycle : lifecycle ≠ .active) :
    Ordered { registry with
      states := Dict.set registry.states (policyId, version) lifecycle } where
  single policyId' version' := by
    rw [state_set]
    split
    · rename_i heq
      obtain ⟨rfl, rfl⟩ := Prod.mk.inj heq
      exact iff_of_false hlifecycle fun hselected => hinactive ((h.single _ _).mpr hselected)
    · exact h.single policyId' version'
  named := h.named
  unnamed policyId' := by
    rw [state_set, if_neg (fun heq => h.named _ _ hknown (Prod.mk.inj heq).2)]
    exact h.unnamed policyId'
  stored policyId' version' hne hhas := by
    rw [Dict.has_set_eq, Bool.or_eq_true, decide_eq_true_eq] at hhas
    rcases hhas with heq | hhas
    · exact heq ▸ hknown
    · exact h.stored policyId' version' hne hhas
  history := h.history

theorem Ordered.select (h : registry.Ordered) (hadmissible : registry.Admissible P given request) :
    Ordered (registry.select (registry.event given request)) := by
  have hknown := known_of_admissible hadmissible
  have hnamed : (registry.event given request).selectedVersion ≠ [] := h.named _ _ hknown
  constructor
  · intro policyId version
    rw [state_select, selected_select _ _ _ hnamed]
    by_cases hid : (registry.event given request).policyId = policyId
    · subst hid
      by_cases hversion : (registry.event given request).selectedVersion = version
      · simp [hversion]
      · have hprevious := h.single (registry.event given request).policyId version
        rw [selected_eq_some] at hprevious
        simp only [Prod.mk.injEq, hversion, and_false, if_false, true_and, if_true,
          Option.some.injEq, iff_false]
        split
        · simp
        · rename_i hother
          exact fun hactive => hother (hprevious.mp hactive).1
    · simp only [Prod.mk.injEq, hid, false_and, if_false]
      exact h.single policyId version
  · exact h.named
  · intro policyId
    rw [state_select, if_neg (fun heq => hnamed (Prod.mk.inj heq).2)]
    split
    · rfl
    · exact h.unnamed policyId
  · intro policyId version hne hhas
    rcases (has_select _ _ _ _).mp hhas with heq | ⟨rfl, hprevious⟩ | hhas
    · exact heq ▸ hknown
    · have hactive := (h.single request.policyId version).mpr
        (selected_eq_some.mpr ⟨hprevious, hne⟩)
      exact h.stored _ version hne (has_of_active hactive)
    · exact h.stored policyId version hne hhas
  · intro policyId
    obtain ⟨hpairwise, hbound⟩ := h.history policyId
    rw [history_select, activeRevision_select]
    split
    · rename_i hid
      subst hid
      refine ⟨List.pairwise_append.mpr ⟨hpairwise, List.pairwise_singleton _ _, ?_⟩, ?_⟩
      · intro event hevent last hlast
        rw [List.mem_singleton] at hlast
        subst hlast
        exact Int.lt_add_one_of_le (hbound event hevent)
      · intro event hevent
        rcases List.mem_append.mp hevent with hevent | hevent
        · exact le_of_lt (Int.lt_add_one_of_le (hbound event hevent))
        · exact le_of_eq (congrArg PolicyActivationEvent.revision (List.mem_singleton.mp hevent))
    · exact ⟨hpairwise, hbound⟩

theorem state_withdraw (registry : VersionedPolicyRegistry)
    (policyId version policyId' version' : Str) :
    (registry.withdraw policyId version).state policyId' version' =
      if (policyId, version) = (policyId', version') then .revoked
      else registry.state policyId' version' :=
  state_set registry (policyId, version) .revoked policyId' version'

theorem history_withdraw (registry : VersionedPolicyRegistry) (policyId version policyId' : Str) :
    (registry.withdraw policyId version).activationHistory policyId' =
      registry.activationHistory policyId' := rfl

theorem le_activeRevision_withdraw (registry : VersionedPolicyRegistry)
    (policyId version policyId' : Str) : registry.activeRevision policyId' ≤
      (registry.withdraw policyId version).activeRevision policyId' := by
  rw [activeRevision_withdraw]
  split
  · rename_i h
    exact h.1 ▸ le_of_lt (Int.lt_succ _)
  · exact le_refl _

theorem Ordered.withdraw (h : registry.Ordered)
    (hknown : Dict.has registry.storage (policyId, version) = true) :
    Ordered (registry.withdraw policyId version) where
  single policyId' version' := by
    rw [state_withdraw, selected_withdraw]
    have hsingle := h.single policyId' version'
    by_cases hkey : (policyId, version) = (policyId', version')
    · obtain ⟨rfl, rfl⟩ := Prod.mk.inj hkey
      rw [if_pos rfl]
      refine iff_of_false (by simp) fun hselected => ?_
      split at hselected
      · cases hselected
      · rename_i hother
        exact hother ⟨rfl, (selected_eq_some.mp hselected).1⟩
    · rw [if_neg hkey, hsingle]
      split
      · rename_i hwithdrawn
        obtain ⟨rfl, hprevious⟩ := hwithdrawn
        refine iff_of_false (fun hselected => ?_) (by simp)
        have hsame := (selected_eq_some.mp hselected).1
        rw [hprevious] at hsame
        exact hkey (by rw [Option.some.inj hsame])
      · exact Iff.rfl
  named := h.named
  unnamed policyId' := by
    rw [state_withdraw, if_neg (fun heq => h.named _ _ hknown (Prod.mk.inj heq).2)]
    exact h.unnamed policyId'
  stored policyId' version' hne hhas := by
    have hhas : Dict.has (Dict.set registry.states (policyId, version) .revoked)
        (policyId', version') = true := hhas
    rw [Dict.has_set_eq, Bool.or_eq_true, decide_eq_true_eq] at hhas
    rcases hhas with heq | hhas
    · exact heq ▸ hknown
    · exact h.stored policyId' version' hne hhas
  history policyId' := by
    obtain ⟨hpairwise, hbound⟩ := h.history policyId'
    rw [history_withdraw]
    exact ⟨hpairwise, fun event hevent =>
      (hbound event hevent).trans (le_activeRevision_withdraw _ _ _ _)⟩

theorem Ordered.moves (h : registry.Ordered) (hmoves : Moves P turn registry registry') :
    registry'.Ordered := by
  cases hmoves with
  | same => exact h
  | stored stored fresh named => exact h.storage_set stored named
  | registered stored fresh named =>
      refine (h.storage_set stored named).states_set ?_ ?_ (by simp)
      · rw [Dict.has_set_eq, decide_eq_true rfl, Bool.true_or]
      · change registry.state stored.id stored.version ≠ .active
        rw [h.published_of_fresh named fresh]
        simp
  | selected given operation request hturn hrequest admissible => exact h.select admissible
  | deprecated policyId version known inactive unrevoked =>
      exact h.states_set known inactive (by simp)
  | withdrawn policyId version known => exact h.withdraw known
  | altered policyId version stored known => exact h.storage_set stored (h.named _ _ known)

end Invariant

section Turns

theorem activeRevision_moves (h : Moves P turn registry registry') (policyId : Str) :
    registry.activeRevision policyId ≤ registry'.activeRevision policyId := by
  cases h with
  | selected given operation request hturn hrequest admissible =>
      rw [activeRevision_select]
      split
      · rename_i hid
        exact hid ▸ le_of_lt (Int.lt_succ _)
      · exact le_refl _
  | withdrawn policyId' version => exact le_activeRevision_withdraw _ _ _ _
  | _ => exact le_refl _

theorem revoked_moves (hordered : registry.Ordered) (h : Moves P turn registry registry')
    (hrevoked : registry.state policyId version = .revoked) :
    registry'.state policyId version = .revoked := by
  cases h with
  | same => exact hrevoked
  | stored stored fresh named => exact hrevoked
  | registered stored fresh named =>
      have hset := state_set { registry with
        storage := Dict.set registry.storage (stored.id, stored.version) stored }
        (stored.id, stored.version) .published policyId version
      refine hset.trans ?_
      rw [if_neg]
      · exact hrevoked
      · intro heq
        obtain ⟨rfl, rfl⟩ := Prod.mk.inj heq
        rw [hordered.published_of_fresh named fresh] at hrevoked
        cases hrevoked
  | selected given operation request hturn hrequest admissible =>
      rw [state_select, if_neg, if_neg]
      · exact hrevoked
      · rintro ⟨rfl, hprevious⟩
        have hactive : registry.state request.policyId version ≠ .revoked := by
          by_cases hnamed : version = []
          · rw [hnamed, hordered.unnamed]
            simp
          · rw [(hordered.single _ _).mpr (selected_eq_some.mpr ⟨hprevious, hnamed⟩)]
            simp
        exact hactive hrevoked
      · intro heq
        obtain ⟨rfl, rfl⟩ := Prod.mk.inj heq
        have hpublished := hordered.published_of_admissible admissible
        rw [show registry.state request.policyId request.version = .revoked from hrevoked]
          at hpublished
        cases hpublished
  | deprecated policyId' version' known inactive unrevoked =>
      rw [state_set, if_neg]
      · exact hrevoked
      · intro heq
        obtain ⟨rfl, rfl⟩ := Prod.mk.inj heq
        exact unrevoked hrevoked
  | withdrawn policyId' version' known =>
      rw [state_withdraw, hrevoked]
      split <;> rfl
  | altered policyId' version' stored known => exact hrevoked

-- the turn appends an event to the history of its policy
def Activates (registry registry' : VersionedPolicyRegistry) (event : PolicyActivationEvent) :
    Prop :=
  registry'.activationHistory event.policyId =
    registry.activationHistory event.policyId ++ [event]

theorem not_activates {event : PolicyActivationEvent}
    (h : registry'.activationHistory event.policyId =
      registry.activationHistory event.policyId) : ¬ Activates registry registry' event := by
  intro hactivates
  rw [Activates, h] at hactivates
  simp at hactivates

theorem of_activates {event : PolicyActivationEvent} (h : Moves P turn registry registry')
    (hactivates : Activates registry registry' event) : ∃ given operation request,
      turn = .call given operation ∧ operation.activation? = some request ∧
        registry.Admissible P given request ∧ event = registry.event given request ∧
          registry' = registry.select event := by
  cases h with
  | selected given operation request hturn hrequest admissible =>
      refine ⟨given, operation, request, hturn, hrequest, admissible, ?_⟩
      have hhistory := hactivates
      rw [Activates, history_select] at hhistory
      split at hhistory
      · rename_i hid
        rw [hid, List.append_cancel_left_eq, List.singleton_inj] at hhistory
        exact ⟨hhistory.symm, by rw [hhistory]⟩
      · simp at hhistory
  | _ => exact absurd hactivates (not_activates rfl)

theorem promoted_moves (h : Moves P turn registry registry')
    (hactive : registry'.state policyId version = .active)
    (hinactive : registry.state policyId version ≠ .active) :
    ∃ event, event.policyId = policyId ∧ event.selectedVersion = version ∧
      Activates registry registry' event := by
  have hset {lifecycle : PolicyLifecycle} {key : Str × Str} (hlifecycle : lifecycle ≠ .active)
      (hstate : state { registry with states := Dict.set registry.states key lifecycle }
        policyId version = .active) : False := by
    rw [state_set] at hstate
    split at hstate
    · exact hlifecycle hstate
    · exact hinactive hstate
  cases h with
  | same => exact absurd hactive hinactive
  | stored stored fresh named => exact absurd hactive hinactive
  | registered stored fresh named => exact (hset (by simp) hactive).elim
  | selected given operation request hturn hrequest admissible =>
      rw [state_select] at hactive
      split at hactive
      · rename_i hkey
        obtain ⟨hid, hversion⟩ := Prod.mk.inj hkey
        refine ⟨registry.event given request, hid, hversion, ?_⟩
        rw [Activates, history_select, if_pos rfl]
      · split at hactive
        · cases hactive
        · exact absurd hactive hinactive
  | deprecated policyId' version' known inactive unrevoked => exact (hset (by simp) hactive).elim
  | withdrawn policyId' version' known => exact (hset (by simp) hactive).elim
  | altered policyId' version' stored known => exact absurd hactive hinactive

theorem withdrawn_moves (hordered : registry.Ordered) (h : Moves P turn registry registry')
    (hactive : registry.state policyId version = .active)
    (hrevoked : registry'.state policyId version = .revoked) :
    registry.activeRevision policyId < registry'.activeRevision policyId := by
  have hset {lifecycle : PolicyLifecycle} {key : Str × Str} (hlifecycle : lifecycle ≠ .revoked)
      (hstate : state { registry with states := Dict.set registry.states key lifecycle }
        policyId version = .revoked) : False := by
    rw [state_set] at hstate
    split at hstate
    · exact hlifecycle hstate
    · rw [hactive] at hstate
      cases hstate
  have hsame (hstate : registry.state policyId version = .revoked) : False := by
    rw [hactive] at hstate
    cases hstate
  cases h with
  | same => exact (hsame hrevoked).elim
  | stored stored fresh named => exact (hsame hrevoked).elim
  | registered stored fresh named => exact (hset (by simp) hrevoked).elim
  | selected given operation request hturn hrequest admissible =>
      rw [state_select] at hrevoked
      split at hrevoked
      · cases hrevoked
      · split at hrevoked
        · cases hrevoked
        · exact (hsame hrevoked).elim
  | deprecated policyId' version' known inactive unrevoked => exact (hset (by simp) hrevoked).elim
  | withdrawn policyId' version' known =>
      rw [state_withdraw] at hrevoked
      split at hrevoked
      · rename_i hkey
        obtain ⟨rfl, rfl⟩ := Prod.mk.inj hkey
        have hprevious := (selected_eq_some.mp ((hordered.single _ _).mp hactive)).1
        rw [activeRevision_withdraw, if_pos ⟨rfl, hprevious⟩]
        exact Int.lt_succ _
      · exact (hsame hrevoked).elim
  | altered policyId' version' stored known => exact (hsame hrevoked).elim

theorem recorded_moves (h : Moves P turn registry registry') (policyId : Str) :
    registry'.activationHistory policyId = registry.activationHistory policyId ∨
      ∃ event, event.policyId = policyId ∧ Activates registry registry' event := by
  cases h with
  | selected given operation request hturn hrequest admissible =>
      rw [history_select]
      by_cases hid : (registry.event given request).policyId = policyId
      · refine Or.inr ⟨registry.event given request, hid, ?_⟩
        rw [Activates, history_select, if_pos rfl]
      · rw [if_neg hid]
        exact Or.inl rfl
  | _ => exact Or.inl rfl

-- what one turn keeps
structure TurnKept (P : Primitives) (turn : RegistryTurn)
    (registry registry' : VersionedPolicyRegistry) : Prop where
  revoked : ∀ policyId version, registry.state policyId version = .revoked →
    registry'.state policyId version = .revoked
  promoted : ∀ policyId version, registry'.state policyId version = .active →
    registry.state policyId version ≠ .active →
      ∃ event, event.policyId = policyId ∧ event.selectedVersion = version ∧
        Activates registry registry' event
  published : ∀ event, Activates registry registry' event →
    registry.state event.policyId event.selectedVersion = .published
  verified : ∀ event, Activates registry registry' event → ∃ given operation stored,
    turn = .call given operation ∧
      Dict.get registry.storage (event.policyId, event.selectedVersion) = some stored ∧
        stored.Verified P given.verifier
  activated : ∀ event, Activates registry registry' event →
    event.revision = registry'.activeRevision event.policyId ∧
      registry.activeRevision event.policyId < registry'.activeRevision event.policyId
  withdrawn : ∀ policyId version, registry.state policyId version = .active →
    registry'.state policyId version = .revoked →
      registry.activeRevision policyId < registry'.activeRevision policyId
  monotone : ∀ policyId, registry.activeRevision policyId ≤ registry'.activeRevision policyId
  recorded : ∀ policyId,
    registry'.activationHistory policyId = registry.activationHistory policyId ∨
      ∃ event, event.policyId = policyId ∧ Activates registry registry' event

theorem turnKept_moves (hordered : registry.Ordered) (h : Moves P turn registry registry') :
    TurnKept P turn registry registry' where
  revoked _ _ := revoked_moves hordered h
  promoted _ _ := promoted_moves h
  published event hactivates := by
    obtain ⟨given, operation, request, -, -, hadmissible, rfl, -⟩ := of_activates h hactivates
    exact hordered.published_of_admissible hadmissible
  verified event hactivates := by
    obtain ⟨given, operation, request, hturn, -, hadmissible, rfl, -⟩ := of_activates h hactivates
    obtain ⟨stored, hfound, hverified⟩ := hadmissible.verified
    exact ⟨given, operation, stored, hturn, (find_eq_ok hfound).symm, hverified⟩
  activated event hactivates := by
    obtain ⟨given, operation, request, -, -, -, rfl, rfl⟩ := of_activates h hactivates
    rw [activeRevision_select, if_pos rfl]
    exact ⟨rfl, Int.lt_succ _⟩
  withdrawn _ _ := withdrawn_moves hordered h
  monotone := activeRevision_moves h
  recorded := recorded_moves h

end Turns

section Runs

variable (P L)

def run (storage : PolicyStorage) (turns : List RegistryTurn) : VersionedPolicyRegistry :=
  Calls.run (take P L) storage.opened turns

variable {P L} {storage : PolicyStorage}

theorem ordered_run (turns : List RegistryTurn) : (run P L storage turns).Ordered :=
  Calls.always (fun registry turn h => h.moves (take_moves registry turn)) turns
    (ordered_opened storage)

theorem perform_activation {operation : PolicyOperation}
    (hrequest : operation.activation? = some request) :
    registry.perform P L given operation = registry.activate P given request := by
  cases operation with
  | activate request' =>
      obtain rfl := Option.some.inj hrequest
      rfl
  | rollback request' =>
      obtain rfl := Option.some.inj hrequest
      rfl
  | _ => cases hrequest

-- an activation or a rollback of the policy under the expected revision
def Swaps (operation : PolicyOperation) (policyId : Str) (revision : ℤ) : Prop :=
  ∃ request, operation.activation? = some request ∧ request.policyId = policyId ∧
    request.expectedRevision = some revision

-- it changes the registry or returns an event
def Succeeds (P : Primitives) (L : Libraries) (registry : VersionedPolicyRegistry)
    (given : Circumstances) (operation : PolicyOperation) : Prop :=
  (registry.perform P L given operation).1 ≠ registry ∨
    ∃ answer, (registry.perform P L given operation).2 = .ok answer

theorem succeeds_swap {operation : PolicyOperation} {revision : ℤ}
    (hswaps : Swaps operation policyId revision)
    (h : Succeeds P L registry given operation) :
    registry.activeRevision policyId = revision ∧
      (registry.perform P L given operation).1.activeRevision policyId = revision + 1 := by
  obtain ⟨request, hrequest, rfl, hexpected⟩ := hswaps
  rw [Succeeds, perform_activation hrequest] at h
  rw [perform_activation hrequest]
  rcases activate_fst (P := P) registry given request with ⟨hadmissible, hselect⟩ | ⟨-, e, hsame⟩
  · have hrevision := hadmissible.expected revision hexpected
    have hid : (registry.event given request).policyId = request.policyId := rfl
    rw [hselect, activeRevision_select, if_pos hid, hrevision]
    exact ⟨rfl, rfl⟩
  · rw [hsame] at h
    rcases h with h | ⟨answer, h⟩
    · exact absurd rfl h
    · cases h

structure LifecycleKept (P : Primitives) (L : Libraries) (storage : PolicyStorage)
    (turns : List RegistryTurn) : Prop where
  single : ∀ before after, turns = before ++ after → ∀ policyId version,
    (run P L storage before).state policyId version = .active ↔
      (run P L storage before).selected policyId = some version
  turn : ∀ before turn after, turns = before ++ turn :: after →
    TurnKept P turn (run P L storage before) (run P L storage (before ++ [turn]))
  increasing : ∀ before after, turns = before ++ after → ∀ policyId,
    ((run P L storage before).activationHistory policyId).Pairwise
      (fun event event' => event.revision < event'.revision)
  once : ∀ before given operation between given' operation' after policyId revision,
    turns = before ++ .call given operation :: between ++ .call given' operation' :: after →
      Swaps operation policyId revision → Swaps operation' policyId revision →
        Succeeds P L (run P L storage before) given operation →
          ¬ Succeeds P L (run P L storage (before ++ .call given operation :: between)) given'
            operation'

theorem versioned_lifecycle_kept (P : Primitives) (L : Libraries) (storage : PolicyStorage)
    (turns : List RegistryTurn) : LifecycleKept P L storage turns where
  single before _ _ := (ordered_run before).single
  turn before turn _ _ := by
    rw [run, run, Calls.run_append]
    exact turnKept_moves (ordered_run before) (take_moves _ turn)
  increasing before _ _ policyId := ((ordered_run before).history policyId).1
  once before given operation between given' operation' after policyId revision _ hswaps hswaps'
      hsucceeds hsucceeds' := by
    have hspent := (succeeds_swap hswaps hsucceeds).2
    have hheld := (succeeds_swap hswaps' hsucceeds').1
    rw [run, Calls.run_append, Calls.run_cons] at hheld
    have hkeeps : ∀ (registry : VersionedPolicyRegistry) (turn : RegistryTurn),
        revision < registry.activeRevision policyId →
          revision < (registry.take P L turn).activeRevision policyId := fun registry turn hlt =>
      lt_of_lt_of_le hlt (activeRevision_moves (take_moves registry turn) policyId)
    have hlater := Calls.always hkeeps between (hspent ▸ Int.lt_succ revision)
    exact absurd hheld (ne_of_gt hlater)

end Runs

end VersionedPolicyRegistry

end GovernedAutonomy
