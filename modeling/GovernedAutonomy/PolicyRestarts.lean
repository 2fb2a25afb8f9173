import GovernedAutonomy.PolicyStateFile

namespace GovernedAutonomy

open Python PolicyDocument Protocol

inductive PolicyQuery where
  | get (policyId version : Str)
  | verify (policyId version : Str)
  | lifecycle (policyId version : Str)
  | listLifecycle (policyId : Str) (listed : Result (List Str))
  | getActive (policyId : Str)
  | activeRevision (policyId : Str)
  | activationHistory (policyId : Str)

inductive RegistryReply where
  | answered (answer : PolicyAnswer)
  | stored (stored : StoredPolicy)
  | verified (result : PolicyVerificationResult)
  | lifecycle (lifecycle : PolicyLifecycle)
  | lifecycles (lifecycles : List (Str × PolicyLifecycle))
  | revision (revision : ℤ)
  | history (events : List PolicyActivationEvent)
  | reopened

namespace VersionedPolicyRegistry

section Queries

variable (P : Primitives) (registry : VersionedPolicyRegistry) (given : Circumstances)

def verify (policyId version : Str) : Result PolicyVerificationResult := do
  let found ← registry.find given policyId version
  match found with
  | none => .error (policyNotFound policyId version)
  | some stored => verification P given.verifier stored

-- of the versions that list_versions has listed
def listLifecycle (policyId : Str) (listed : Result (List Str)) :
    Result (List (Str × PolicyLifecycle)) := do
  let versions ← listed
  versions.mapM fun version => do
    let lifecycle ← registry.lifecycle P given policyId version
    .ok (version, lifecycle)

def getActive (policyId : Str) : Result StoredPolicy :=
  match Dict.get registry.active policyId with
  | none => .error (.custom "PolicyNotFoundError" false
      (lit "no active policy version for " ++ policyId) .none)
  | some (version, _) => do
      let lifecycle ← registry.lifecycle P given policyId version
      raiseIf (lifecycle ≠ .active) (policyError "PolicyLifecycleError"
        (lit "active policy " ++ policyId ++ lit "@" ++ version ++ lit " is not usable"))
      let verification ← registry.verify P given policyId version
      raiseIf (verification.valid = false)
        (policyError "PolicySignatureError" (joined "; " verification.errors))
      registry.get P given policyId version

def ask : PolicyQuery → Result RegistryReply
  | .get policyId version => (registry.get P given policyId version).map .stored
  | .verify policyId version => (registry.verify P given policyId version).map .verified
  | .lifecycle policyId version => (registry.lifecycle P given policyId version).map .lifecycle
  | .listLifecycle policyId listed =>
      (registry.listLifecycle P given policyId listed).map .lifecycles
  | .getActive policyId => (registry.getActive P given policyId).map .stored
  | .activeRevision policyId => .ok (.revision (registry.activeRevision policyId))
  | .activationHistory policyId => .ok (.history (registry.activationHistory policyId))

end Queries

end VersionedPolicyRegistry

-- a process, and the lifecycle file under the root of its FilePolicyStorage; the records under
-- the root are the storage of the registry, and no object keeps a copy of them
structure RegistryProcess where
  registry : VersionedPolicyRegistry
  stateFile : Option String := none

inductive ProcessTurn where
  | call (given : Circumstances) (operation : PolicyOperation)
  | ask (given : Circumstances) (query : PolicyQuery)
  | restart

namespace RegistryProcess

section Steps

variable (P : Primitives) (L : Libraries) (process : RegistryProcess) (given : Circumstances)

-- a register that finds its record returns before the state is saved
def finds (registry : VersionedPolicyRegistry) : PolicyOperation → Bool
  | .register policy =>
      match registry.admitRegistration P L given policy with
      | .ok (_, found) => found.isSome
      | .error _ => false
  | _ => false

def withSave (fault : Option Exc) : Circumstances := { given with saveState := fault }

-- the maps as they are when _save_state is called, if it is
def changed (operation : PolicyOperation) : VersionedPolicyRegistry :=
  (process.registry.perform P L (withSave given none) operation).1

-- the file system may fail, and canonical_json refuses what it cannot encode
def saveFault (changed : VersionedPolicyRegistry) : Option Exc :=
  match given.saveState, changed.saveText P with
  | some e, _ => some e
  | none, .error e => some e
  | none, .ok _ => none

def outcome (operation : PolicyOperation) : VersionedPolicyRegistry × Result PolicyAnswer :=
  process.registry.perform P L
    (withSave given (saveFault P given (process.changed P L given operation))) operation

def saves (operation : PolicyOperation) : Bool :=
  (process.outcome P L given operation).2.toOption.isSome &&
    !finds P L given process.registry operation

-- the file is replaced by a temporary one that holds the whole text
def call (operation : PolicyOperation) : RegistryProcess × Result PolicyAnswer :=
  ({ registry := (process.outcome P L given operation).1
     stateFile :=
       if process.saves P L given operation = true then
         ((process.changed P L given operation).saveText P).toOption
       else process.stateFile },
    (process.outcome P L given operation).2)

def restart : RegistryProcess × Result RegistryReply :=
  match VersionedPolicyRegistry.loadState P process.registry.storage process.stateFile with
  | .error e => (process, .error e)
  | .ok registry => ({ process with registry }, .ok .reopened)

def serve (process : RegistryProcess) : ProcessTurn → RegistryProcess × Result RegistryReply
  | .call given operation =>
      ((process.call P L given operation).1,
        (process.call P L given operation).2.map .answered)
  | .ask given query => (process, process.registry.ask P given query)
  | .restart => process.restart P

end Steps

end RegistryProcess

namespace VersionedPolicyRegistry

section Alike

variable {P : Primitives} {L : Libraries} {a b : VersionedPolicyRegistry} {given : Circumstances}
  {policyId version : Str}

theorem Same.find (h : a.Same b) :
    a.find given policyId version = b.find given policyId version := by
  rw [VersionedPolicyRegistry.find, VersionedPolicyRegistry.find, h.storage]

theorem Same.get (h : a.Same b) :
    a.get P given policyId version = b.get P given policyId version := by
  rw [VersionedPolicyRegistry.get, VersionedPolicyRegistry.get, h.find]

theorem Same.state (h : a.Same b) : a.state policyId version = b.state policyId version := by
  rw [VersionedPolicyRegistry.state, VersionedPolicyRegistry.state, h.states]

theorem Same.activeRevision (h : a.Same b) :
    a.activeRevision policyId = b.activeRevision policyId := by
  rw [VersionedPolicyRegistry.activeRevision, VersionedPolicyRegistry.activeRevision, h.active]

theorem Same.previousVersion (h : a.Same b) :
    a.previousVersion policyId = b.previousVersion policyId := by
  rw [VersionedPolicyRegistry.previousVersion, VersionedPolicyRegistry.previousVersion, h.active]

theorem Same.activationHistory (h : a.Same b) :
    a.activationHistory policyId = b.activationHistory policyId := by
  rw [VersionedPolicyRegistry.activationHistory, VersionedPolicyRegistry.activationHistory,
    h.history]

theorem Same.lifecycle (h : a.Same b) :
    a.lifecycle P given policyId version = b.lifecycle P given policyId version := by
  rw [VersionedPolicyRegistry.lifecycle, VersionedPolicyRegistry.lifecycle, h.get, h.state]

theorem Same.verify (h : a.Same b) :
    a.verify P given policyId version = b.verify P given policyId version := by
  rw [VersionedPolicyRegistry.verify, VersionedPolicyRegistry.verify, h.find]

theorem Same.getActive (h : a.Same b) :
    a.getActive P given policyId = b.getActive P given policyId := by
  rw [VersionedPolicyRegistry.getActive, VersionedPolicyRegistry.getActive, h.active]
  split
  · rfl
  · rw [h.lifecycle, h.verify, h.get]

theorem Same.ask (h : a.Same b) (query : PolicyQuery) :
    a.ask P given query = b.ask P given query := by
  cases query with
  | get policyId version => rw [VersionedPolicyRegistry.ask, VersionedPolicyRegistry.ask, h.get]
  | verify policyId version =>
      rw [VersionedPolicyRegistry.ask, VersionedPolicyRegistry.ask, h.verify]
  | lifecycle policyId version =>
      rw [VersionedPolicyRegistry.ask, VersionedPolicyRegistry.ask, h.lifecycle]
  | listLifecycle policyId listed =>
      simp only [VersionedPolicyRegistry.ask, listLifecycle, h.lifecycle]
  | getActive policyId =>
      rw [VersionedPolicyRegistry.ask, VersionedPolicyRegistry.ask, h.getActive]
  | activeRevision policyId =>
      rw [VersionedPolicyRegistry.ask, VersionedPolicyRegistry.ask, h.activeRevision]
  | activationHistory policyId =>
      rw [VersionedPolicyRegistry.ask, VersionedPolicyRegistry.ask, h.activationHistory]

theorem Same.states_set (h : a.Same b) (key : Str × Str) (lifecycle : PolicyLifecycle) :
    Same { a with states := Dict.set a.states key lifecycle }
      { b with states := Dict.set b.states key lifecycle } where
  storage := h.storage
  states key' := by rw [Dict.get_set_eq, Dict.get_set_eq, h.states]
  active := h.active
  history := h.history

theorem Same.select (h : a.Same b) (event : PolicyActivationEvent) :
    (a.select event).Same (b.select event) where
  storage := h.storage
  states key := by
    rw [VersionedPolicyRegistry.select, VersionedPolicyRegistry.select]
    rw [Dict.get_set_eq, Dict.get_set_eq]
    split
    · rfl
    · cases event.previousVersion with
      | none => exact h.states key
      | some previous => exact (h.states_set (event.policyId, previous) .published).states key
  active policyId := by
    rw [VersionedPolicyRegistry.select, VersionedPolicyRegistry.select, Dict.get_set_eq,
      Dict.get_set_eq, h.active]
  history policyId := by
    rw [VersionedPolicyRegistry.select, VersionedPolicyRegistry.select, Dict.get_set_eq,
      Dict.get_set_eq, h.history, h.activationHistory]

theorem Same.withdraw (h : a.Same b) (policyId version : Str) :
    (a.withdraw policyId version).Same (b.withdraw policyId version) where
  storage := h.storage
  states key := (h.states_set (policyId, version) .revoked).states key
  active policyId' := by
    rw [VersionedPolicyRegistry.withdraw, VersionedPolicyRegistry.withdraw, h.active policyId]
    split
    · split
      · rw [Dict.get_set_eq, Dict.get_set_eq, h.active]
      · exact h.active policyId'
    · exact h.active policyId'
  history := h.history

theorem Same.event (h : a.Same b) (request : ActivationRequest) :
    a.event given request = b.event given request := by
  rw [VersionedPolicyRegistry.event, VersionedPolicyRegistry.event, h.previousVersion,
    h.activeRevision]

-- two outcomes that no caller can tell apart now or later
structure Likewise {α : Type} (x y : VersionedPolicyRegistry × Result α) : Prop where
  answer : x.2 = y.2
  registry : x.1.Same y.1

theorem Same.save {α : Type} (h : a.Same b) (answer : α) :
    Likewise (a.save given answer) (b.save given answer) := by
  rw [VersionedPolicyRegistry.save, VersionedPolicyRegistry.save]
  split
  · exact ⟨rfl, h⟩
  · exact ⟨rfl, h⟩

theorem Same.insert (h : a.Same b) (stored : StoredPolicy) :
    Likewise (a.insert given stored) (b.insert given stored) := by
  have hwritten : Same
      { a with storage := Dict.set a.storage (stored.id, stored.version) stored }
      { b with storage := Dict.set b.storage (stored.id, stored.version) stored } :=
    ⟨by rw [h.storage], h.states, h.active, h.history⟩
  rw [VersionedPolicyRegistry.insert, VersionedPolicyRegistry.insert]
  split
  · exact ⟨rfl, hwritten⟩
  · exact ⟨rfl, h⟩
  · exact (hwritten.states_set (stored.id, stored.version) .published).save _

theorem Same.admitRegistration (h : a.Same b) (policy : PyVal) :
    a.admitRegistration P L given policy = b.admitRegistration P L given policy := by
  simp only [VersionedPolicyRegistry.admitRegistration, h.find]

theorem Same.admitActivation (h : a.Same b) (request : ActivationRequest) :
    a.admitActivation P given request = b.admitActivation P given request := by
  simp only [VersionedPolicyRegistry.admitActivation, checkRevision, h.get, h.state,
    h.activeRevision, h.previousVersion, h.event]

theorem Same.activate (h : a.Same b) (request : ActivationRequest) :
    Likewise (a.activate P given request) (b.activate P given request) := by
  rw [VersionedPolicyRegistry.activate, VersionedPolicyRegistry.activate, h.admitActivation]
  split
  · exact ⟨rfl, h⟩
  · exact (h.select _).save _

theorem Same.perform (h : a.Same b) (operation : PolicyOperation) :
    Likewise (a.perform P L given operation) (b.perform P L given operation) := by
  cases operation with
  | register policy =>
      simp only [VersionedPolicyRegistry.perform, register, h.admitRegistration]
      split
      · exact ⟨rfl, h⟩
      · exact ⟨rfl, h⟩
      · exact h.insert _
  | publish policy signer signedAt =>
      simp only [VersionedPolicyRegistry.perform, publish, admitPublication, h.find]
      split
      · exact ⟨rfl, h⟩
      · exact h.insert _
  | activate request => exact h.activate request
  | rollback request => exact h.activate _
  | deprecateVersion policyId version identity =>
      simp only [VersionedPolicyRegistry.perform, deprecateVersion, admitDeprecation, h.lifecycle]
      split
      · exact ⟨rfl, h⟩
      · exact (h.states_set (policyId, version) .deprecated).save _
  | revoke policyId version identity =>
      simp only [VersionedPolicyRegistry.perform, revoke, admitRevocation, h.get]
      split
      · exact ⟨rfl, h⟩
      · exact (h.withdraw policyId version).save _

end Alike

end VersionedPolicyRegistry

namespace RegistryProcess

section Courses

variable {P : Primitives} {L : Libraries} {process : RegistryProcess} {given : Circumstances}
  {registry : VersionedPolicyRegistry}

theorem save_withSave {α : Type} (registry : VersionedPolicyRegistry) (given : Circumstances)
    (fault : Option Exc) (answer : α) : registry.save (withSave given fault) answer =
      (registry, match fault with | some e => .error e | none => .ok answer) := by
  cases fault <;> rfl

-- a call ends before _save_state, with the maps as they were, or it reaches _save_state
inductive Course (P : Primitives) (L : Libraries) (registry : VersionedPolicyRegistry)
    (given : Circumstances) (operation : PolicyOperation) : Prop where
  | early (storage : List ((Str × Str) × StoredPolicy)) (answer : Result PolicyAnswer)
      (ends : ∀ fault, registry.perform P L (withSave given fault) operation =
        ({ registry with storage }, answer))
      (refused : (∃ e, answer = .error e) ∨ finds P L given registry operation = true)
  | saving (changed : VersionedPolicyRegistry) (answer : PolicyAnswer)
      (ends : ∀ fault, registry.perform P L (withSave given fault) operation =
        (changed, match fault with | some e => .error e | none => .ok answer))
      (unfound : finds P L given registry operation = false)

theorem course_insert {operation : PolicyOperation} (stored : StoredPolicy)
    (hends : ∀ fault, registry.perform P L (withSave given fault) operation =
      registry.insert (withSave given fault) stored)
    (hfinds : finds P L given registry operation = false) :
    Course P L registry given operation := by
  cases hput : given.put with
  | some failure =>
      obtain ⟨written, e⟩ := failure
      cases written with
      | true =>
          refine .early (Dict.set registry.storage (stored.id, stored.version) stored) (.error e)
            (fun fault => ?_) (.inl ⟨e, rfl⟩)
          have hput' : (withSave given fault).put = some (true, e) := hput
          rw [hends, VersionedPolicyRegistry.insert, hput']
      | false =>
          refine .early registry.storage (.error e) (fun fault => ?_) (.inl ⟨e, rfl⟩)
          have hput' : (withSave given fault).put = some (false, e) := hput
          rw [hends, VersionedPolicyRegistry.insert, hput']
  | none =>
      let changed : VersionedPolicyRegistry :=
        { registry with
          storage := Dict.set registry.storage (stored.id, stored.version) stored
          states := Dict.set registry.states (stored.id, stored.version) .published }
      refine .saving changed (.stored stored) (fun fault => ?_) hfinds
      have hput' : (withSave given fault).put = none := hput
      rw [hends, VersionedPolicyRegistry.insert, hput']
      exact save_withSave _ _ _ _

theorem course (registry : VersionedPolicyRegistry) (given : Circumstances)
    (operation : PolicyOperation) : Course P L registry given operation := by
  have hrefused : ∀ e : Exc, (∀ fault, registry.perform P L (withSave given fault) operation =
      (registry, .error e)) → Course P L registry given operation := fun e h =>
    .early registry.storage (.error e) h (.inl ⟨e, rfl⟩)
  have hactivate : ∀ request : ActivationRequest, finds P L given registry operation = false →
      (∀ fault, registry.perform P L (withSave given fault) operation =
        registry.activate P (withSave given fault) request) →
      Course P L registry given operation := by
    intro request hfinds hends
    cases hadmit : registry.admitActivation P given request with
    | error e =>
        refine hrefused e (fun fault => ?_)
        have hadmit' : registry.admitActivation P (withSave given fault) request = .error e :=
          hadmit
        rw [hends, VersionedPolicyRegistry.activate, hadmit']
    | ok event =>
        refine .saving (registry.select event) (.event event) (fun fault => ?_) hfinds
        have hadmit' : registry.admitActivation P (withSave given fault) request = .ok event :=
          hadmit
        rw [hends, VersionedPolicyRegistry.activate, hadmit']
        exact save_withSave _ _ _ _
  cases operation with
  | register policy =>
      cases hadmit : registry.admitRegistration P L given policy with
      | error e =>
          refine hrefused e (fun fault => ?_)
          have hadmit' : registry.admitRegistration P L (withSave given fault) policy = .error e :=
            hadmit
          rw [VersionedPolicyRegistry.perform, VersionedPolicyRegistry.register, hadmit']
      | ok admitted =>
          obtain ⟨stored, found⟩ := admitted
          have hadmit' : ∀ fault, registry.admitRegistration P L (withSave given fault) policy =
              .ok (stored, found) := fun _ => hadmit
          cases found with
          | some existing =>
              refine .early registry.storage (.ok (.stored existing)) (fun fault => ?_) (.inr ?_)
              · rw [VersionedPolicyRegistry.perform, VersionedPolicyRegistry.register, hadmit']
              · rw [finds, hadmit]
                rfl
          | none =>
              refine course_insert stored (fun fault => ?_) ?_
              · rw [VersionedPolicyRegistry.perform, VersionedPolicyRegistry.register, hadmit']
              · rw [finds, hadmit]
                rfl
  | publish policy signer signedAt =>
      cases hadmit : registry.admitPublication P L given policy signer signedAt with
      | error e =>
          refine hrefused e (fun fault => ?_)
          have hadmit' : registry.admitPublication P L (withSave given fault) policy signer
              signedAt = .error e := hadmit
          rw [VersionedPolicyRegistry.perform, VersionedPolicyRegistry.publish, hadmit']
      | ok stored =>
          refine course_insert stored (fun fault => ?_) rfl
          have hadmit' : registry.admitPublication P L (withSave given fault) policy signer
              signedAt = .ok stored := hadmit
          rw [VersionedPolicyRegistry.perform, VersionedPolicyRegistry.publish, hadmit']
  | activate request => exact hactivate request rfl fun _ => rfl
  | rollback request =>
      exact hactivate { request with operation := lit "rollback" } rfl fun _ => rfl
  | deprecateVersion policyId version identity =>
      cases hadmit : registry.admitDeprecation P given policyId version identity with
      | error e =>
          refine hrefused e (fun fault => ?_)
          have hadmit' : registry.admitDeprecation P (withSave given fault) policyId version
              identity = .error e := hadmit
          rw [VersionedPolicyRegistry.perform, VersionedPolicyRegistry.deprecateVersion, hadmit']
      | ok admitted =>
          refine .saving
            { registry with states := Dict.set registry.states (policyId, version) .deprecated }
            .done (fun fault => ?_) rfl
          have hadmit' : registry.admitDeprecation P (withSave given fault) policyId version
              identity = .ok () := hadmit
          rw [VersionedPolicyRegistry.perform, VersionedPolicyRegistry.deprecateVersion, hadmit']
          exact save_withSave _ _ _ _
  | revoke policyId version identity =>
      cases hadmit : registry.admitRevocation P given policyId version identity with
      | error e =>
          refine hrefused e (fun fault => ?_)
          have hadmit' : registry.admitRevocation P (withSave given fault) policyId version
              identity = .error e := hadmit
          rw [VersionedPolicyRegistry.perform, VersionedPolicyRegistry.revoke, hadmit']
      | ok admitted =>
          refine .saving (registry.withdraw policyId version) .done (fun fault => ?_) rfl
          have hadmit' : registry.admitRevocation P (withSave given fault) policyId version
              identity = .ok () := hadmit
          rw [VersionedPolicyRegistry.perform, VersionedPolicyRegistry.revoke, hadmit']
          exact save_withSave _ _ _ _

end Courses

end RegistryProcess

namespace VersionedPolicyRegistry

section Soundness

variable {P : Primitives} {registry registry' : VersionedPolicyRegistry} {turn : RegistryTurn}

theorem Sound.activeRevision (h : registry.Sound) (policyId : Str) :
    0 ≤ registry.activeRevision policyId := by
  rw [VersionedPolicyRegistry.activeRevision]
  cases hget : Dict.get registry.active policyId with
  | none => exact le_refl _
  | some slot => exact h.revisions _ (Dict.mem_of_get hget)

theorem Sound.slot_set (h : registry.Sound) {policyId selected : Str} {revision : ℤ}
    (hrevision : 0 ≤ revision) : Dict.Distinct (Dict.set registry.active policyId
      (selected, revision)) ∧
      ∀ m ∈ Dict.set registry.active policyId (selected, revision), 0 ≤ m.2.2 := by
  refine ⟨Dict.distinct_set h.active _ _, fun m hm => ?_⟩
  rcases Dict.mem_set_exact hm with hm | rfl
  · exact h.revisions m hm
  · exact hrevision

theorem Sound.select (h : registry.Sound) (event : PolicyActivationEvent)
    (hrevision : 0 ≤ event.revision) : (registry.select event).Sound := by
  have hslot : Dict.Distinct (registry.select event).active ∧
      ∀ m ∈ (registry.select event).active, 0 ≤ m.2.2 := h.slot_set hrevision
  refine ⟨Dict.distinct_set ?_ _ _, hslot.1, Dict.distinct_set h.history _ _, hslot.2⟩
  cases event.previousVersion with
  | none => exact h.states
  | some previous => exact Dict.distinct_set h.states _ _

theorem Sound.withdraw (h : registry.Sound) (policyId version : Str) :
    (registry.withdraw policyId version).Sound := by
  have hactive : Dict.Distinct (registry.withdraw policyId version).active ∧
      ∀ m ∈ (registry.withdraw policyId version).active, 0 ≤ m.2.2 := by
    rw [VersionedPolicyRegistry.withdraw]
    simp only
    split
    · next selected revision hget =>
        split
        · exact h.slot_set (Int.le_add_one (h.revisions _ (Dict.mem_of_get hget)))
        · exact ⟨h.active, h.revisions⟩
    · exact ⟨h.active, h.revisions⟩
  exact ⟨Dict.distinct_set h.states _ _, hactive.1, h.history, hactive.2⟩

theorem Sound.moves (h : registry.Sound) (hmoves : Moves P turn registry registry') :
    registry'.Sound := by
  cases hmoves with
  | same => exact h
  | stored stored fresh named => exact ⟨h.states, h.active, h.history, h.revisions⟩
  | registered stored fresh named =>
      exact ⟨Dict.distinct_set h.states _ _, h.active, h.history, h.revisions⟩
  | selected given operation request hturn hrequest admissible =>
      exact h.select _ (Int.le_add_one (h.activeRevision request.policyId))
  | deprecated policyId version known inactive unrevoked =>
      exact ⟨Dict.distinct_set h.states _ _, h.active, h.history, h.revisions⟩
  | withdrawn policyId version known => exact h.withdraw policyId version
  | altered policyId version stored known => exact ⟨h.states, h.active, h.history, h.revisions⟩

theorem sound_opened (storage : PolicyStorage) : storage.opened.Sound :=
  ⟨.nil, .nil, .nil, List.forall_mem_nil _⟩

theorem revision_of_readSlot {x : PyKey × PyVal} {m : Str × (Str × ℤ)}
    (h : readSlot x = .ok m) : 0 ≤ m.2.2 := by
  simp only [readSlot, bind_eq_ok] at h
  obtain ⟨policyId, -, slot, -, _, -, h⟩ := h
  split at h
  · split at h
    · cases h
    · next hrevision =>
        obtain rfl := Except.ok.inj h
        exact not_lt.mp hrevision
  · cases h

theorem sound_of_loadState {storage : List ((Str × Str) × StoredPolicy)} {file : Option String}
    (h : loadState P storage file = .ok registry) : registry.Sound := by
  have hempty : ({ storage } : VersionedPolicyRegistry).Sound :=
    ⟨.nil, .nil, .nil, List.forall_mem_nil _⟩
  cases file with
  | none => exact Except.ok.inj h ▸ hempty
  | some text =>
      simp only [loadState, bind_eq_ok] at h
      obtain ⟨payload, -, d, -, h⟩ := h
      split at h
      · exact Except.ok.inj h ▸ hempty
      · simp only [reraise_eq_ok, readState, bind_eq_ok] at h
        obtain ⟨_, -, _, -, _, -, nested, -, slots, hslots, events, -, h⟩ := h
        obtain rfl := Except.ok.inj h
        refine ⟨Dict.distinct_update .nil _, Dict.distinct_update .nil _,
          Dict.distinct_update .nil _, fun m hm => ?_⟩
        rcases Dict.mem_update_exact hm with hm | hm
        · cases hm
        · obtain ⟨x, -, hx⟩ := mem_of_mapM_eq_ok hslots hm
          exact revision_of_readSlot hx

end Soundness

end VersionedPolicyRegistry

namespace RegistryProcess

variable (P : Primitives) (L : Libraries)

def opened (storage : PolicyStorage) : RegistryProcess := { registry := storage.opened }

def run (process : RegistryProcess) (turns : List ProcessTurn) : RegistryProcess :=
  Calls.run (Observe.step (serve P L)) process turns

-- a call that has changed the maps and then could not save them
def Loses (process : RegistryProcess) : ProcessTurn → Prop
  | .call given operation =>
      finds P L given process.registry operation = false ∧
        (∃ answer, (process.registry.perform P L (withSave given none) operation).2 = .ok answer) ∧
          ∃ e, (process.call P L given operation).2 = .error e
  | _ => False

def Keeps (process : RegistryProcess) (turn : ProcessTurn) : Prop := ¬ Loses P L process turn

def savesTurn (process : RegistryProcess) : ProcessTurn → Bool
  | .call given operation => process.saves P L given operation
  | _ => false

-- the maps as they were when the state was saved last
def lastSaved (saved : VersionedPolicyRegistry) (process : RegistryProcess) :
    List ProcessTurn → VersionedPolicyRegistry
  | [] => saved
  | turn :: turns =>
      lastSaved
        (if process.savesTurn P L turn = true then (serve P L process turn).1.registry else saved)
        (serve P L process turn).1 turns

def isRestart : ProcessTurn → Bool
  | .restart => true
  | _ => false

-- what the callers of all the processes are told, one after the other
def answers (process : RegistryProcess) : List ProcessTurn → List (Result RegistryReply)
  | [] => []
  | turn :: turns =>
      if isRestart turn = true then answers (serve P L process turn).1 turns
      else (serve P L process turn).2 :: answers (serve P L process turn).1 turns

structure RestartExact (storage : PolicyStorage) (turns : List ProcessTurn) : Prop where
  restored : ∃ reread,
    VersionedPolicyRegistry.loadState P (run P L (opened storage) turns).registry.storage
      (run P L (opened storage) turns).stateFile = .ok reread ∧
    VersionedPolicyRegistry.Same
      { lastSaved P L {} (opened storage) turns with
        storage := (run P L (opened storage) turns).registry.storage } reread
  indistinct : Calls.Each (Observe.step (serve P L)) (Keeps P L) (opened storage) turns →
    ∀ later, Observe.run (serve P L) (run P L (opened storage) turns) later =
      Observe.run (serve P L) (run P L (opened storage) (turns ++ [.restart])) later
  invisible : Calls.Each (Observe.step (serve P L)) (Keeps P L) (opened storage) turns →
    answers P L (opened storage) turns =
      answers P L (opened storage) (turns.filter fun turn => !isRestart turn)

section Runs

variable {P L} {process process' : RegistryProcess} {given : Circumstances}
  {operation : PolicyOperation} {saved : VersionedPolicyRegistry} {turns : List ProcessTurn}

-- the three ways a call ends: before the save, after it, or because of it
inductive Called (P : Primitives) (L : Libraries) (process : RegistryProcess)
    (given : Circumstances) (operation : PolicyOperation) : Prop where
  | early (storage : List ((Str × Str) × StoredPolicy))
      (registry : (process.call P L given operation).1.registry = { process.registry with storage })
      (file : (process.call P L given operation).1.stateFile = process.stateFile)
      (unsaved : process.saves P L given operation = false)
  | saved (text : String)
      (encoded : (process.call P L given operation).1.registry.saveText P = .ok text)
      (file : (process.call P L given operation).1.stateFile = some text)
      (saves : process.saves P L given operation = true)
  | failed (file : (process.call P L given operation).1.stateFile = process.stateFile)
      (unsaved : process.saves P L given operation = false)
      (loses : Loses P L process (.call given operation))

theorem saveFault_eq_none {changed : VersionedPolicyRegistry}
    (h : saveFault P given changed = none) : ∃ text, changed.saveText P = .ok text := by
  rw [saveFault] at h
  split at h
  · cases h
  · cases h
  · next text _ htext => exact ⟨text, htext⟩

theorem called (process : RegistryProcess) (given : Circumstances) (operation : PolicyOperation) :
    Called P L process given operation := by
  cases course process.registry given operation with
  | early storage answer ends refused =>
      have houtcome : process.outcome P L given operation =
          ({ process.registry with storage }, answer) := ends _
      have hunsaved : process.saves P L given operation = false := by
        rw [saves, houtcome]
        rcases refused with ⟨e, rfl⟩ | hfinds
        · rfl
        · rw [hfinds]
          simp
      refine .early storage ?_ ?_ hunsaved
      · rw [call, houtcome]
      · rw [call, hunsaved]
        rfl
  | saving changed answer ends unfound =>
      have hchanged : process.changed P L given operation = changed := by
        rw [RegistryProcess.changed, ends]
      have houtcome : process.outcome P L given operation =
          (changed, match saveFault P given changed with
            | some e => .error e
            | none => .ok answer) := by
        rw [outcome, hchanged]
        exact ends _
      cases hfault : saveFault P given changed with
      | some e =>
          rw [hfault] at houtcome
          have hunsaved : process.saves P L given operation = false := by
            rw [saves, houtcome]
            rfl
          refine .failed ?_ hunsaved ⟨unfound, ⟨answer, ?_⟩, e, ?_⟩
          · rw [call, hunsaved]
            rfl
          · rw [ends]
          · rw [call, houtcome]
      | none =>
          rw [hfault] at houtcome
          have hsaves : process.saves P L given operation = true := by
            rw [saves, houtcome, unfound]
            rfl
          obtain ⟨text, htext⟩ := saveFault_eq_none hfault
          refine .saved text ?_ ?_ hsaves
          · rw [call, houtcome]
            exact htext
          · rw [call, hsaves, hchanged, htext]
            rfl

theorem sound_call (h : process.registry.Sound) :
    (process.call P L given operation).1.registry.Sound := by
  have hmoves := VersionedPolicyRegistry.take_moves (P := P) (L := L) process.registry
    (.call (withSave given (saveFault P given (process.changed P L given operation))) operation)
  exact h.moves hmoves

theorem sound_serve (h : process.registry.Sound) (turn : ProcessTurn) :
    (serve P L process turn).1.registry.Sound := by
  cases turn with
  | call given operation => exact sound_call h
  | ask given query => exact h
  | restart =>
      rw [serve, restart]
      split
      · exact h
      · next registry hload => exact VersionedPolicyRegistry.sound_of_loadState hload

theorem loadState_storage {storage : List ((Str × Str) × StoredPolicy)}
    {file : Option String} {registry : VersionedPolicyRegistry}
    (h : VersionedPolicyRegistry.loadState P storage file = .ok registry)
    (storage' : List ((Str × Str) × StoredPolicy)) :
    registry.storage = storage ∧ VersionedPolicyRegistry.loadState P storage' file =
      .ok { registry with storage := storage' } := by
  cases file with
  | none =>
      obtain rfl := Except.ok.inj h
      exact ⟨rfl, rfl⟩
  | some text =>
      simp only [VersionedPolicyRegistry.loadState, bind_eq_ok] at h ⊢
      obtain ⟨payload, hpayload, d, hd, h⟩ := h
      split at h
      · next hempty =>
          obtain rfl := Except.ok.inj h
          exact ⟨rfl, payload, hpayload, d, hd, if_pos hempty⟩
      · next hempty =>
          simp only [reraise_eq_ok, VersionedPolicyRegistry.readState, bind_eq_ok] at h
          obtain ⟨states, hstates, active, hactive, history, hhistory, nested, hnested, slots,
            hslots, events, hevents, h⟩ := h
          obtain rfl := Except.ok.inj h
          refine ⟨rfl, payload, hpayload, d, hd, ?_⟩
          rw [if_neg hempty]
          simp only [reraise_eq_ok, VersionedPolicyRegistry.readState, bind_eq_ok]
          exact ⟨states, hstates, active, hactive, history, hhistory, nested, hnested, slots,
            hslots, events, hevents, rfl⟩

-- what the next process reads: these maps, and the records as they are now
def Restores (P : Primitives) (saved : VersionedPolicyRegistry) (process : RegistryProcess) :
    Prop :=
  ∃ reread, VersionedPolicyRegistry.loadState P process.registry.storage process.stateFile =
    .ok reread ∧
      VersionedPolicyRegistry.Same { saved with storage := process.registry.storage } reread

theorem Restores.of_file (h : Restores P saved process)
    (hfile : process'.stateFile = process.stateFile) : Restores P saved process' := by
  obtain ⟨reread, hload, hsame⟩ := h
  obtain ⟨-, hload'⟩ := loadState_storage hload process'.registry.storage
  exact ⟨{ reread with storage := process'.registry.storage }, hfile ▸ hload', rfl, hsame.states,
    hsame.active, hsame.history⟩

theorem restores_saved {text : String} (h : process.registry.Sound)
    (htext : process.registry.saveText P = .ok text) (hfile : process.stateFile = some text) :
    Restores P process.registry process := by
  obtain ⟨reread, hload, hsame, -⟩ := VersionedPolicyRegistry.loadState_saveText h htext
  exact ⟨reread, hfile ▸ hload, hsame⟩

theorem restores_serve (hsound : process.registry.Sound) (h : Restores P saved process)
    (turn : ProcessTurn) : Restores P
      (if process.savesTurn P L turn = true then (serve P L process turn).1.registry else saved)
      (serve P L process turn).1 := by
  cases turn with
  | call given operation =>
      rw [savesTurn]
      cases called (P := P) (L := L) process given operation with
      | early storage registry file unsaved =>
          rw [unsaved]
          exact h.of_file file
      | saved text encoded file saves =>
          rw [if_pos saves]
          exact restores_saved (sound_call hsound) encoded file
      | failed file unsaved loses =>
          rw [unsaved]
          exact h.of_file file
  | ask given query => exact h
  | restart =>
      obtain ⟨reread, hload, hsame⟩ := h
      obtain ⟨hstorage, -⟩ := loadState_storage hload []
      have hunsaved : process.savesTurn P L .restart = false := rfl
      have hserve : serve P L process .restart = ({ process with registry := reread },
          .ok .reopened) := by
        rw [serve, restart, hload]
      rw [hunsaved, hserve]
      refine ⟨reread, ?_, rfl, hsame.states, hsame.active, hsame.history⟩
      exact hstorage.symm ▸ hload

theorem restores_run (hsound : process.registry.Sound) (h : Restores P saved process)
    (turns : List ProcessTurn) :
    Restores P (lastSaved P L saved process turns) (run P L process turns) := by
  induction turns generalizing saved process with
  | nil => exact h
  | cons turn turns ih => exact ih (sound_serve hsound turn) (restores_serve hsound h turn)

-- two processes over the same root that hold the same maps
structure Alike (s t : RegistryProcess) : Prop where
  registry : s.registry.Same t.registry
  file : s.stateFile = t.stateFile
  left : s.registry.Sound
  right : t.registry.Sound

theorem Alike.trans {middle : RegistryProcess} (h : Alike process middle)
    (h' : Alike middle process') : Alike process process' :=
  ⟨h.registry.trans h'.registry, h.file.trans h'.file, h.left, h'.right⟩

theorem Alike.symm (h : Alike process process') : Alike process' process :=
  ⟨h.registry.symm, h.file.symm, h.right, h.left⟩

theorem Alike.saveText (h : Alike process process') (given : Circumstances)
    (operation : PolicyOperation) : (process.changed P L given operation).saveText P =
      (process'.changed P L given operation).saveText P := by
  have hsound : ∀ {process : RegistryProcess}, process.registry.Sound →
      (process.changed P L given operation).Sound := fun {process} hsound =>
    hsound.moves (VersionedPolicyRegistry.take_moves (P := P) (L := L) process.registry
      (.call (withSave given none) operation))
  exact VersionedPolicyRegistry.saveText_eq (hsound h.left) (hsound h.right)
    (h.registry.perform operation).registry

theorem Alike.call (h : Alike process process') (given : Circumstances)
    (operation : PolicyOperation) :
    (process.call P L given operation).2 = (process'.call P L given operation).2 ∧
      Alike (process.call P L given operation).1 (process'.call P L given operation).1 := by
  have htext := h.saveText (P := P) (L := L) given operation
  have houtcome : VersionedPolicyRegistry.Likewise (process.outcome P L given operation)
      (process'.outcome P L given operation) := by
    rw [outcome, outcome, saveFault, saveFault, htext]
    exact h.registry.perform operation
  have hfinds : finds P L given process.registry operation =
      finds P L given process'.registry operation := by
    cases operation with
    | register policy => rw [finds, finds, h.registry.admitRegistration]
    | _ => rfl
  have hsaves : process.saves P L given operation = process'.saves P L given operation := by
    rw [saves, saves, houtcome.answer, hfinds]
  refine ⟨houtcome.answer, houtcome.registry, ?_, sound_call h.left, sound_call h.right⟩
  rw [RegistryProcess.call, RegistryProcess.call, hsaves, htext, h.file]

theorem Alike.serve (h : Alike process process') (turn : ProcessTurn) :
    Observe.Agrees (serve P L) (serve P L) Alike process process' turn := by
  cases turn with
  | call given operation =>
      obtain ⟨hanswer, hcall⟩ := h.call (P := P) (L := L) given operation
      exact ⟨congrArg (Except.map RegistryReply.answered) hanswer, hcall⟩
  | ask given query => exact ⟨h.registry.ask query, h⟩
  | restart =>
      have hload : VersionedPolicyRegistry.loadState P process.registry.storage process.stateFile =
          VersionedPolicyRegistry.loadState P process'.registry.storage process'.stateFile := by
        rw [h.registry.storage, h.file]
      refine ⟨?_, ?_⟩
      · simp only [RegistryProcess.serve, restart, hload]
        split <;> rfl
      · simp only [Observe.step, RegistryProcess.serve, restart, hload]
        split
        · exact h
        · next registry hread =>
            have hsound := VersionedPolicyRegistry.sound_of_loadState hread
            exact ⟨.refl registry, h.file, hsound, hsound⟩

-- the maps of the process are those that the next process would read
structure Current (P : Primitives) (process : RegistryProcess) : Prop where
  sound : process.registry.Sound
  restores : Restores P process.registry process

theorem Current.restart (h : Current P process) :
    ∃ reread, serve P L process .restart = (reread, .ok .reopened) ∧ Alike process reread ∧
      Current P reread := by
  obtain ⟨registry, hload, hsame⟩ := h.restores
  obtain ⟨hstorage, -⟩ := loadState_storage hload []
  have hsound := VersionedPolicyRegistry.sound_of_loadState hload
  refine ⟨{ process with registry }, ?_, ⟨hsame, rfl, h.sound, hsound⟩, hsound, ?_⟩
  · rw [RegistryProcess.serve, RegistryProcess.restart, hload]
  · exact ⟨registry, hstorage.symm ▸ hload, .refl registry⟩

theorem Current.serve (h : Current P process) {turn : ProcessTurn}
    (hkeeps : Keeps P L process turn) : Current P (serve P L process turn).1 := by
  cases turn with
  | call given operation =>
      refine ⟨sound_call h.sound, ?_⟩
      cases called (P := P) (L := L) process given operation with
      | early storage registry file unsaved =>
          have hrestores : Restores P process.registry (process.call P L given operation).1 :=
            h.restores.of_file file
          obtain ⟨reread, hload, hsame⟩ := hrestores
          refine ⟨reread, hload, hsame.storage, fun key => ?_, fun policyId => ?_,
            fun policyId => ?_⟩
          · exact (congrArg (fun r => Dict.get r.states key) registry).trans (hsame.states key)
          · exact (congrArg (fun r => Dict.get r.active policyId) registry).trans
              (hsame.active policyId)
          · exact (congrArg (fun r => Dict.get r.history policyId) registry).trans
              (hsame.history policyId)
      | saved text encoded file saves => exact restores_saved (sound_call h.sound) encoded file
      | failed file unsaved loses => exact absurd loses hkeeps
  | ask given query => exact h
  | restart =>
      obtain ⟨reread, hserve, -, hcurrent⟩ := h.restart (L := L)
      rw [hserve]
      exact hcurrent

theorem current_opened (storage : PolicyStorage) : Current P (opened storage) :=
  ⟨VersionedPolicyRegistry.sound_opened storage, _, rfl, .refl _⟩

theorem answers_restarted (h : Alike process process') (hcurrent : Current P process)
    (hkeeps : Calls.Each (Observe.step (RegistryProcess.serve P L)) (Keeps P L) process turns) :
    answers P L process turns =
      answers P L process' (turns.filter fun turn => !isRestart turn) := by
  induction turns generalizing process process' with
  | nil => rfl
  | cons turn turns ih =>
      obtain ⟨hturn, hturns⟩ := hkeeps
      have hnext := hcurrent.serve hturn
      by_cases hrestart : isRestart turn = true
      · obtain rfl : turn = .restart := by cases turn <;> first | rfl | cases hrestart
        obtain ⟨reread, hserve, halike, -⟩ := hcurrent.restart (L := L)
        rw [Observe.step, hserve] at hturns
        rw [hserve] at hnext
        rw [answers, if_pos hrestart, hserve, List.filter_cons_of_neg (by simp [isRestart])]
        exact ih (halike.symm.trans h) hnext hturns
      · have hagrees := h.serve (P := P) (L := L) turn
        rw [List.filter_cons_of_pos (by simpa using hrestart), answers, answers,
          if_neg hrestart, if_neg hrestart, hagrees.answer]
        exact congrArg _ (ih hagrees.related hnext hturns)

theorem registry_restarts (P : Primitives) (L : Libraries) (storage : PolicyStorage)
    (turns : List ProcessTurn) : RestartExact P L storage turns where
  restored := by
    have hrestores : Restores P {} (opened storage) := ⟨_, rfl, .refl _⟩
    exact restores_run (VersionedPolicyRegistry.sound_opened storage) hrestores turns
  indistinct := by
    intro hkeeps later
    have hcurrent : Current P (run P L (opened storage) turns) :=
      Calls.stable (fun process turn hturn hcurrent => hcurrent.serve hturn) hkeeps
        (current_opened storage)
    obtain ⟨reread, hserve, halike, -⟩ := hcurrent.restart (L := L)
    have hrun : run P L (opened storage) (turns ++ [.restart]) = reread := by
      rw [run, Calls.run_append]
      exact congrArg Prod.fst hserve
    rw [hrun]
    have heach : Calls.Each (Observe.step (serve P L)) (fun _ _ => True)
        (run P L (opened storage) turns) later := Calls.each_of fun _ _ => trivial
    exact Observe.run_eq (fun s t turn h _ => h.serve turn) heach halike
  invisible := by
    intro hkeeps
    have hsound := VersionedPolicyRegistry.sound_opened storage
    exact answers_restarted ⟨.refl _, rfl, hsound, hsound⟩ (current_opened storage) hkeeps

end Runs

end RegistryProcess

end GovernedAutonomy
