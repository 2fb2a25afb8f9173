import GovernedAutonomy.LifecycleOrder

namespace GovernedAutonomy

open Python Protocol

namespace VersionedPolicyRegistry

variable {P : Primitives} {L : Libraries} {registry registry' : VersionedPolicyRegistry}
  {given : Circumstances} {request : ActivationRequest} {turn : RegistryTurn}
  {policyId version : Str} {pointer selected : Option Str} {events : List PolicyActivationEvent}
  {event : PolicyActivationEvent}

section Replay

variable (registry)

-- the events do not say when a version was revoked, the states say that it was
def standing (policyId : Str) (pointer : Option Str) : Option Str :=
  pointer.filter fun version => registry.state policyId version ≠ .revoked

def resume (policyId : Str) (pointer : Option Str) (event : PolicyActivationEvent) :
    Option (Option Str) :=
  if event.previousVersion = pointer ∨ event.previousVersion = registry.standing policyId pointer
  then some (some event.selectedVersion)
  else none

def retrace (policyId : Str) (events : List PolicyActivationEvent) : Option (Option Str) :=
  events.foldlM (registry.resume policyId) none

-- the version that an audit of the history ends at, if each event starts where the one before
-- it ended
def replay (policyId : Str) : Option (Option Str) :=
  (registry.retrace policyId (registry.activationHistory policyId)).map
    (registry.standing policyId)

variable {registry}

theorem standing_eq_some : registry.standing policyId pointer = some version ↔
    pointer = some version ∧ registry.state policyId version ≠ .revoked := by
  rw [standing, Option.filter_eq_some_iff, decide_eq_true_eq]

theorem standing_of_revoked (h : registry.state policyId version = .revoked) :
    registry.standing policyId (some version) = none := by
  rw [standing, Option.filter_some, h]
  rfl

theorem standing_standing (hrevoked : ∀ version, registry.state policyId version = .revoked →
      registry'.state policyId version = .revoked) (pointer : Option Str) :
    registry'.standing policyId (registry.standing policyId pointer) =
      registry'.standing policyId pointer := by
  apply Option.ext
  intro version
  rw [standing_eq_some, standing_eq_some, standing_eq_some]
  constructor
  · rintro ⟨⟨hpointer, -⟩, hstanding⟩
    exact ⟨hpointer, hstanding⟩
  · rintro ⟨hpointer, hstanding⟩
    exact ⟨⟨hpointer, fun h => hstanding (hrevoked version h)⟩, hstanding⟩

theorem resume_eq_some : registry.resume policyId pointer event = some selected ↔
    (event.previousVersion = pointer ∨
      event.previousVersion = registry.standing policyId pointer) ∧
        some event.selectedVersion = selected := by
  unfold resume
  split
  · rename_i h
    rw [Option.some.injEq, and_iff_right h]
  · rename_i h
    exact iff_of_false (by simp) fun hresumed => h hresumed.1

theorem resume_mono (hrevoked : ∀ version, registry.state policyId version = .revoked →
      registry'.state policyId version = .revoked)
    (h : registry.resume policyId pointer event = some selected) :
    registry'.resume policyId pointer event = some selected := by
  rw [resume_eq_some] at h ⊢
  refine ⟨?_, h.2⟩
  rcases h.1 with hprevious | hprevious
  · exact Or.inl hprevious
  · cases pointer with
    | none => exact Or.inl hprevious
    | some version =>
        by_cases hstate : registry.state policyId version = .revoked
        · rw [standing_of_revoked hstate] at hprevious
          exact Or.inr (hprevious.trans (standing_of_revoked (hrevoked version hstate)).symm)
        · exact Or.inl (hprevious.trans (standing_eq_some.mpr ⟨rfl, hstate⟩))

theorem retrace_append (events : List PolicyActivationEvent) (event : PolicyActivationEvent) :
    registry.retrace policyId (events ++ [event]) =
      (registry.retrace policyId events).bind
        (fun pointer => registry.resume policyId pointer event) := by
  rw [retrace, List.foldlM_append]
  refine congrArg (Option.bind _) (funext fun pointer => ?_)
  rw [List.foldlM_cons]
  exact bind_pure _

theorem retrace_mono (hrevoked : ∀ version, registry.state policyId version = .revoked →
      registry'.state policyId version = .revoked) (events : List PolicyActivationEvent) :
    ∀ {pointer}, registry.retrace policyId events = some pointer →
      registry'.retrace policyId events = some pointer := by
  induction events using List.reverseRecOn with
  | nil => exact fun h => h
  | append_singleton events event ih =>
      intro pointer h
      rw [retrace_append, Option.bind_eq_some_iff] at h ⊢
      obtain ⟨between, hbetween, hresume⟩ := h
      exact ⟨between, ih hbetween, resume_mono hrevoked hresume⟩

end Replay

-- previous_version names the version that was active, if one was
def Replaces (registry : VersionedPolicyRegistry) (event : PolicyActivationEvent) : Prop :=
  (event.previousVersion = none ∧
    ∀ version, registry.state event.policyId version ≠ .active) ∨
  ∃ previous, event.previousVersion = some previous ∧
    registry.state event.policyId previous = .active

-- an activation finds an active version, or is the first one of its policy
def Continued (P : Primitives) (registry : VersionedPolicyRegistry) (turn : RegistryTurn) : Prop :=
  ∀ given operation request, turn = .call given operation →
    operation.activation? = some request → registry.Admissible P given request →
      registry.activationHistory request.policyId = [] ∨
        ∃ version, registry.state request.policyId version = .active

section Steps

-- a policy has a slot from its first activation on
def Begun (registry : VersionedPolicyRegistry) : Prop :=
  ∀ policyId, registry.activationHistory policyId = [] ↔
    registry.previousVersion policyId = none

theorem begun_opened (storage : PolicyStorage) : Begun storage.opened := fun _ =>
  iff_of_true rfl rfl

theorem Begun.moves (hbegun : registry.Begun) (h : Moves P turn registry registry') :
    registry'.Begun := by
  intro policyId
  cases h with
  | selected given operation request hturn hrequest admissible =>
      rw [history_select, previousVersion, slot_select]
      split
      · simp
      · exact hbegun policyId
  | withdrawn policyId' version' known =>
      rw [history_withdraw, previousVersion, slot_withdraw]
      split
      · rename_i hslot
        obtain ⟨rfl, hprevious⟩ := hslot
        rw [hbegun, hprevious]
        simp
      · exact hbegun policyId
  | _ => exact hbegun policyId

theorem retained_moves (hordered : registry.Ordered) (h : Moves P turn registry registry')
    (hhistory : registry'.activationHistory policyId = registry.activationHistory policyId)
    (hactive : registry.state policyId version = .active) :
    registry'.state policyId version = .active ∨ registry'.state policyId version = .revoked := by
  cases h with
  | same => exact Or.inl hactive
  | stored stored fresh named => exact Or.inl hactive
  | registered stored fresh named =>
      have hother : (stored.id, stored.version) ≠ (policyId, version) := by
        intro heq
        obtain ⟨rfl, rfl⟩ := Prod.mk.inj heq
        rw [hordered.published_of_fresh named fresh] at hactive
        cases hactive
      have hset := state_set { registry with
        storage := Dict.set registry.storage (stored.id, stored.version) stored }
        (stored.id, stored.version) .published policyId version
      rw [if_neg hother] at hset
      exact Or.inl (hset.trans hactive)
  | selected given operation request hturn hrequest admissible =>
      have hother : (registry.event given request).policyId ≠ policyId := by
        intro hid
        rw [history_select, if_pos hid, hid] at hhistory
        simp at hhistory
      refine Or.inl ?_
      rw [state_select, if_neg (fun heq => hother (Prod.mk.inj heq).1),
        if_neg (fun hreleased => hother hreleased.1)]
      exact hactive
  | deprecated policyId' version' known inactive unrevoked =>
      refine Or.inl ?_
      rw [state_set, if_neg]
      · exact hactive
      · intro heq
        obtain ⟨rfl, rfl⟩ := Prod.mk.inj heq
        exact inactive hactive
  | withdrawn policyId' version' known =>
      rw [state_withdraw]
      split
      · exact Or.inr rfl
      · exact Or.inl hactive
  | altered policyId' version' stored known => exact Or.inl hactive

theorem selected_of_retained (hordered : registry.Ordered) (h : Moves P turn registry registry')
    (hhistory : registry'.activationHistory policyId = registry.activationHistory policyId) :
    registry'.selected policyId = registry'.standing policyId (registry.selected policyId) := by
  apply Option.ext
  intro version
  rw [standing_eq_some, ← (hordered.moves h).single, ← hordered.single]
  constructor
  · intro hactive
    refine ⟨?_, by simp [hactive]⟩
    by_contra hinactive
    obtain ⟨event, rfl, -, hactivates⟩ := promoted_moves h hactive hinactive
    exact not_activates hhistory hactivates
  · rintro ⟨hactive, hstanding⟩
    exact (retained_moves hordered h hhistory hactive).resolve_right hstanding

theorem replay_of_retained (hordered : registry.Ordered) (h : Moves P turn registry registry')
    (hhistory : registry'.activationHistory policyId = registry.activationHistory policyId)
    (hreplay : registry.replay policyId = some (registry.selected policyId)) :
    registry'.replay policyId = some (registry'.selected policyId) := by
  have hrevoked : ∀ version, registry.state policyId version = .revoked →
      registry'.state policyId version = .revoked := fun _ => revoked_moves hordered h
  obtain ⟨pointer, hpointer, hselected⟩ := Option.map_eq_some_iff.mp hreplay
  rw [replay, hhistory, retrace_mono hrevoked _ hpointer, Option.map_some,
    selected_of_retained hordered h hhistory, ← hselected, standing_standing hrevoked]

-- where the policy has an active version, the audit is at it before the event
theorem retrace_of_continued (hordered : registry.Ordered) (hbegun : registry.Begun)
    (hcontinued : registry.activationHistory policyId = [] ∨
      ∃ version, registry.state policyId version = .active)
    (hreplay : registry.replay policyId = some (registry.selected policyId)) :
    registry.retrace policyId (registry.activationHistory policyId) =
      some (registry.previousVersion policyId) := by
  rcases hcontinued with hempty | ⟨version, hactive⟩
  · rw [hempty, (hbegun policyId).mp hempty]
    rfl
  · have hselected := (hordered.single policyId version).mp hactive
    obtain ⟨pointer, hpointer, hstanding⟩ := Option.map_eq_some_iff.mp hreplay
    rw [hselected] at hstanding
    rw [hpointer, (standing_eq_some.mp hstanding).1, (selected_eq_some.mp hselected).1]

theorem replay_of_selected (hordered : registry.Ordered) (hbegun : registry.Begun)
    (h : Moves P turn registry registry') (hactivates : Activates registry registry' event)
    (hcontinued : registry.activationHistory event.policyId = [] ∨
      ∃ version, registry.state event.policyId version = .active)
    (hreplay : registry.replay event.policyId = some (registry.selected event.policyId)) :
    registry'.replay event.policyId = some (registry'.selected event.policyId) := by
  have hrevoked : ∀ version, registry.state event.policyId version = .revoked →
      registry'.state event.policyId version = .revoked := fun _ => revoked_moves hordered h
  have hretrace := retrace_mono hrevoked _
    (retrace_of_continued hordered hbegun hcontinued hreplay)
  have hordered' := hordered.moves h
  obtain ⟨given, operation, request, -, -, hadmissible, rfl, rfl⟩ := of_activates h hactivates
  have hnamed := hordered.named _ _ (known_of_admissible hadmissible)
  have hselected := selected_select registry (registry.event given request)
    (registry.event given request).policyId hnamed
  rw [if_pos rfl] at hselected
  have hactive := (hordered'.single _ _).mpr hselected
  have hresume : (registry.select (registry.event given request)).resume
      (registry.event given request).policyId
      (registry.previousVersion (registry.event given request).policyId)
      (registry.event given request) = some (some (registry.event given request).selectedVersion) :=
    resume_eq_some.mpr ⟨Or.inl rfl, rfl⟩
  rw [replay, hactivates, retrace_append, hretrace, Option.bind_some, hresume, Option.map_some,
    hselected]
  exact congrArg some (standing_eq_some.mpr ⟨rfl, by simp [hactive]⟩)

theorem not_entered_moves (hordered : registry.Ordered) (h : Moves P turn registry registry')
    (hreleased : ∀ event, Activates registry registry' event → event.previousVersion ≠ some [])
    (hentered : ∀ policyId, Dict.has registry.states (policyId, []) = false) (policyId : Str) :
    Dict.has registry'.states (policyId, []) = false := by
  have hset {key : Str × Str} {lifecycle : PolicyLifecycle} (hnamed : key.2 ≠ []) :
      Dict.has (Dict.set registry.states key lifecycle) (policyId, []) = false := by
    rw [Dict.has_set_eq, hentered, Bool.or_false, decide_eq_false_iff_not]
    rintro rfl
    exact hnamed rfl
  cases h with
  | same => exact hentered policyId
  | stored stored fresh named => exact hentered policyId
  | registered stored fresh named => exact hset named
  | selected given operation request hturn hrequest admissible =>
      have hactivates : Activates registry (registry.select (registry.event given request))
          (registry.event given request) := by
        rw [Activates, history_select, if_pos rfl]
      rw [Bool.eq_false_iff]
      intro hhas
      rcases (has_select _ _ _ _).mp hhas with heq | ⟨-, hprevious⟩ | hhas
      · exact hordered.named _ _ (known_of_admissible admissible) (Prod.mk.inj heq).2
      · exact hreleased _ hactivates hprevious
      · rw [hentered] at hhas
        cases hhas
  | deprecated policyId' version' known inactive unrevoked => exact hset (hordered.named _ _ known)
  | withdrawn policyId' version' known => exact hset (hordered.named _ _ known)
  | altered policyId' version' stored known => exact hentered policyId

theorem replaces_of_continued (hordered : registry.Ordered) (hbegun : registry.Begun)
    (hcontinued : registry.Continued P turn) (h : Moves P turn registry registry')
    (hactivates : Activates registry registry' event) : Replaces registry event := by
  obtain ⟨given, operation, request, hturn, hrequest, hadmissible, rfl, -⟩ :=
    of_activates h hactivates
  rcases hcontinued given operation request hturn hrequest hadmissible with
    hempty | ⟨version, hactive⟩
  · have hprevious : (registry.event given request).previousVersion = none :=
      (hbegun request.policyId).mp hempty
    refine Or.inl ⟨hprevious, fun version hactive => ?_⟩
    have hselected := (selected_eq_some.mp ((hordered.single _ _).mp hactive)).1
    cases hprevious.symm.trans hselected
  · exact Or.inr ⟨version, (selected_eq_some.mp ((hordered.single _ _).mp hactive)).1, hactive⟩

theorem Replaces.named (hordered : registry.Ordered) (h : Replaces registry event) :
    event.previousVersion ≠ some [] := by
  intro hunnamed
  rcases h with ⟨hprevious, -⟩ | ⟨previous, hprevious, hactive⟩
  · rw [hprevious] at hunnamed
    cases hunnamed
  · rw [hprevious] at hunnamed
    obtain rfl := Option.some.inj hunnamed
    rw [hordered.unnamed] at hactive
    cases hactive

end Steps

section Runs

-- what a registry satisfies as long as every activation continues
structure Audited (registry : VersionedPolicyRegistry) : Prop where
  ordered : registry.Ordered
  begun : registry.Begun
  unnamed : ∀ policyId, Dict.has registry.states (policyId, []) = false
  replayed : ∀ policyId, registry.replay policyId = some (registry.selected policyId)

theorem audited_opened (storage : PolicyStorage) : Audited storage.opened where
  ordered := ordered_opened storage
  begun := begun_opened storage
  unnamed _ := rfl
  replayed _ := rfl

theorem Audited.moves (haudited : registry.Audited) (hcontinued : registry.Continued P turn)
    (h : Moves P turn registry registry') : registry'.Audited where
  ordered := haudited.ordered.moves h
  begun := haudited.begun.moves h
  unnamed := not_entered_moves haudited.ordered h (fun event hactivates =>
    (replaces_of_continued haudited.ordered haudited.begun hcontinued h hactivates).named
      haudited.ordered) haudited.unnamed
  replayed policyId := by
    rcases recorded_moves h policyId with hhistory | ⟨event, rfl, hactivates⟩
    · exact replay_of_retained haudited.ordered h hhistory (haudited.replayed policyId)
    · refine replay_of_selected haudited.ordered haudited.begun h hactivates ?_
        (haudited.replayed _)
      obtain ⟨given, operation, request, hturn, hrequest, hadmissible, rfl, -⟩ :=
        of_activates h hactivates
      exact hcontinued given operation request hturn hrequest hadmissible

theorem Audited.entered (h : registry.Audited)
    (hhas : Dict.has registry.states (policyId, version) = true) :
    Dict.has registry.storage (policyId, version) = true := by
  refine h.ordered.stored policyId version ?_ hhas
  rintro rfl
  rw [h.unnamed] at hhas
  cases hhas

theorem activates_of_admissible {operation : PolicyOperation}
    (hrequest : operation.activation? = some request)
    (hadmissible : registry.Admissible P given request) :
    Activates registry (registry.take P L (.call given operation))
      (registry.event given request) := by
  rw [take, perform_activation hrequest]
  rcases activate_fst (P := P) registry given request with ⟨-, hselect⟩ | ⟨hrefused, -⟩
  · rw [hselect, Activates, history_select, if_pos rfl]
  · exact absurd hadmissible hrefused

theorem begun_run {storage : PolicyStorage} (turns : List RegistryTurn) :
    (run P L storage turns).Begun :=
  Calls.always (fun registry turn hbegun => hbegun.moves (take_moves (P := P) (L := L) registry turn))
    turns (begun_opened storage)

structure NoPhantoms (P : Primitives) (L : Libraries) (storage : PolicyStorage)
    (turns : List RegistryTurn) : Prop where
  entered : ∀ before after, turns = before ++ after → ∀ policyId version,
    Dict.has (run P L storage before).states (policyId, version) = true →
      Dict.has (run P L storage before).storage (policyId, version) = true
  previous : ∀ before turn after, turns = before ++ turn :: after → ∀ event,
    Activates (run P L storage before) (run P L storage (before ++ [turn])) event →
      Replaces (run P L storage before) event
  replayed : ∀ before after, turns = before ++ after → ∀ policyId,
    (run P L storage before).replay policyId =
      some ((run P L storage before).selected policyId)

theorem no_phantoms_iff {P : Primitives} {L : Libraries} {storage : PolicyStorage}
    {turns : List RegistryTurn} : NoPhantoms P L storage turns ↔
      Calls.Each (take P L) (Continued P) storage.opened turns := by
  constructor
  · intro h
    rw [Calls.each_iff]
    rintro before turn after hturns given operation request rfl hrequest hadmissible
    have hactivates := activates_of_admissible (L := L) hrequest hadmissible
    have hnext : run P L storage (before ++ [.call given operation]) =
        (run P L storage before).take P L (.call given operation) := Calls.run_append _ _ _
    rw [← run, ← hnext] at hactivates
    rcases h.previous before _ after hturns _ hactivates with ⟨hprevious, -⟩ | ⟨previous, -, hactive⟩
    · exact Or.inl ((begun_run before request.policyId).mpr hprevious)
    · exact Or.inr ⟨previous, hactive⟩
  · intro h
    have haudited : ∀ before after, turns = before ++ after → (run P L storage before).Audited := by
      rintro before after rfl
      exact Calls.stable (fun registry turn hcontinued haudited =>
        haudited.moves hcontinued (take_moves registry turn)) (Calls.each_append.mp h).1
          (audited_opened storage)
    refine ⟨fun before after hturns policyId version => (haudited before after hturns).entered, ?_,
      fun before after hturns => (haudited before after hturns).replayed⟩
    intro before turn after hturns event hactivates
    have hprefix := haudited before (turn :: after) hturns
    rw [run, run, Calls.run_append] at hactivates
    exact replaces_of_continued hprefix.ordered hprefix.begun
      (Calls.each_iff.mp h before turn after hturns) (take_moves _ turn) hactivates

end Runs

end VersionedPolicyRegistry

section Reselection

def nonEmptyText : PyVal → Bool
  | .str (_ :: _) => true
  | _ => false

-- it accepts the objects that have an id and a version and only non-empty strings
def flatErrors : PyVal → Result (List Str)
  | .dict d =>
      if PyDict.has d "id" = true ∧ PyDict.has d "version" = true ∧
          d.all (fun m => nonEmptyText m.2) = true then .ok []
      else .ok [lit "is not a flat policy"]
  | _ => .ok [lit "is not of type 'object'"]

theorem exists_of_nonEmptyText {value : PyVal} (h : nonEmptyText value = true) :
    ∃ c s, value = .str (c :: s) := by
  cases value with
  | str s =>
      cases s with
      | nil => cases h
      | cons c s => exact ⟨c, s, rfl⟩
  | _ => cases h

theorem flat_members {d : PyDict} (h : flatErrors (.dict d) = .ok []) :
    PyDict.has d "id" = true ∧ PyDict.has d "version" = true ∧
      ∀ m ∈ d, ∃ c s, m.2 = .str (c :: s) := by
  unfold flatErrors at h
  simp only at h
  split at h
  · rename_i hflat
    exact ⟨hflat.1, hflat.2.1, fun m hm =>
      exists_of_nonEmptyText (List.all_eq_true.mp hflat.2.2 m hm)⟩
  · simp at h

theorem flat_identified (d : PyDict) (h : flatErrors (.dict d) = .ok []) :
    PyDict.has d "id" = true ∧ ∀ m ∈ d, m.1 = .str (lit "id") → ∃ s, m.2 = .str s := by
  refine ⟨(flat_members h).1, fun m hm _ => ?_⟩
  obtain ⟨c, s, hstr⟩ := (flat_members h).2.2 m hm
  exact ⟨c :: s, hstr⟩

theorem flat_versioned (d : PyDict) (h : flatErrors (.dict d) = .ok []) :
    PyDict.has d "version" = true ∧
      ∀ m ∈ d, m.1 = .str (lit "version") → ∃ c s, m.2 = .str (c :: s) :=
  ⟨(flat_members h).2.1, fun m hm _ => (flat_members h).2.2 m hm⟩

def flatLibraries : Libraries where
  iterErrors := flatErrors
  fromisoformat _ := some (some 0)
  identified := flat_identified
  versioned := flat_versioned

namespace VersionedPolicyRegistry

def draftPolicy (version : String) : PyVal := .dict (PyDict.ofFields
  [("id", .str (lit "p1")), ("name", .str (lit "n")), ("version", .str (lit version)),
    ("description", .str (lit "d"))])

def draftSigner : PolicySigner where
  keyId := lit "authority"
  sign _ := .ok (lit "c2ln")

def trusting : Circumstances where
  verifier := some fun _ _ _ _ => .ok true
  now := lit "2026-01-01T00:00:00+00:00"

def selection (version : String) : PolicyOperation := .activate
  { policyId := lit "p1"
    version := lit version
    requestedBy := lit "ops"
    reason := lit "rollout" }

-- the active version is revoked and the other one selected
def reselected : List RegistryTurn :=
  [.call trusting (.publish (draftPolicy "1.0.0") draftSigner none),
    .call trusting (.publish (draftPolicy "1.1.0") draftSigner none),
    .call trusting (selection "1.0.0"),
    .call trusting (.revoke (lit "p1") (lit "1.0.0") none),
    .call trusting (selection "1.1.0")]

def emptyStorage : PolicyStorage := ⟨[], List.forall_mem_nil _⟩

theorem phantom_version : ¬ ∀ (P : Primitives) (L : Libraries) (storage : PolicyStorage)
    (turns : List RegistryTurn), NoPhantoms P L storage turns := by
  intro h
  have hstates : Dict.has (run sizePrimitives flatLibraries emptyStorage reselected).states
      (lit "p1", []) = true := by decide +kernel
  have hstorage : Dict.has (run sizePrimitives flatLibraries emptyStorage reselected).storage
      (lit "p1", []) = false := by decide +kernel
  have hentered := (h sizePrimitives flatLibraries emptyStorage reselected).entered reselected []
    (List.append_nil _).symm _ _ hstates
  rw [hstorage] at hentered
  cases hentered

end VersionedPolicyRegistry

end Reselection

end GovernedAutonomy
