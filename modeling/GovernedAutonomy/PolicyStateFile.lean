import GovernedAutonomy.LifecycleOrder
import GovernedAutonomy.PolicyReload
import GovernedAutonomy.Protocol.Observe
import GovernedAutonomy.Python.Written

namespace GovernedAutonomy

open Python PolicyDocument Protocol

-- asdict(event)
def PolicyActivationEvent.toDict (event : PolicyActivationEvent) : PyDict := PyDict.ofFields
  [("policy_id", .str event.policyId), ("previous_version", optStr event.previousVersion),
    ("selected_version", .str event.selectedVersion), ("requested_by", .str event.requestedBy),
    ("reason", .str event.reason), ("timestamp", .str event.timestamp),
    ("revision", .int event.revision), ("operation", .str event.operation)]

namespace PolicyActivationEvent

def fields : List String :=
  ["policy_id", "previous_version", "selected_version", "requested_by", "reason", "timestamp",
    "revision", "operation"]

def optionalStr : PyVal → Result (Option Str)
  | .none => .ok none
  | value => do
      let s ← declaredStr value
      .ok (some s)

-- PolicyActivationEvent(**event), of values of the declared types
def ofKeywords (d : PyDict) : Result PolicyActivationEvent := do
  raiseIf (PyDict.hasAll d fields = false ∨ PyDict.hasOnly d fields = false) (.builtin .typeError)
  let policyId ← member d "policy_id"
  let previousVersion ← optionalStr (d.getD (lit "previous_version"))
  let selectedVersion ← member d "selected_version"
  let requestedBy ← member d "requested_by"
  let reason ← member d "reason"
  let timestamp ← member d "timestamp"
  let revision ← declaredInt (d.getD (lit "revision"))
  let operation ← member d "operation"
  .ok { policyId, previousVersion, selectedVersion, requestedBy, reason, timestamp, revision,
        operation }

end PolicyActivationEvent

abbrev LifecycleStates := List ((Str × Str) × PolicyLifecycle)

namespace VersionedPolicyRegistry

section Saving

variable (P : Primitives) (registry : VersionedPolicyRegistry)

-- states.setdefault(policy_id, {})[version] = state.value
def nest (nested : List (Str × List (Str × PolicyLifecycle)))
    (entry : (Str × Str) × PolicyLifecycle) : List (Str × List (Str × PolicyLifecycle)) :=
  Dict.set nested entry.1.1
    (Dict.set ((Dict.get nested entry.1.1).getD []) entry.1.2 entry.2)

def nestedStates : List (Str × List (Str × PolicyLifecycle)) := registry.states.foldl nest []

def savedLifecycle (lifecycle : PolicyLifecycle) : PyVal := .str lifecycle.text

def savedVersions : List (Str × PolicyLifecycle) → PyVal := strDict savedLifecycle

def savedSlot (slot : Str × ℤ) : PyVal :=
  .dict (PyDict.ofFields [("version", .str slot.1), ("revision", .int slot.2)])

def savedEvents (events : List PolicyActivationEvent) : PyVal :=
  .list (events.map fun event => .dict event.toDict)

def savedFields : List (String × PyVal) :=
  [("states", strDict savedVersions registry.nestedStates),
    ("active", strDict savedSlot registry.active),
    ("history", strDict savedEvents registry.history)]

def savedState : PyVal := .dict (PyDict.ofFields registry.savedFields)

def saveText : Result String := canonicalJson P registry.savedState

end Saving

section Loading

def invalidState (message : String) : Exc := .valueError (lit message)

-- the text of an enumeration's ValueError is not kept by the error that replaces it
def readLifecycle : PyVal → Result PolicyLifecycle
  | .str s =>
      match [.draft, .published, .active, .deprecated, .revoked].find?
        fun lifecycle : PolicyLifecycle => lifecycle.text = s with
      | some lifecycle => .ok lifecycle
      | none => .error (invalidState "not a valid PolicyLifecycle")
  | _ => .error (invalidState "not a valid PolicyLifecycle")

-- the keys of an object that json.loads has read are strings
def keyText (message : String) : PyKey → Result Str
  | .str s => .ok s
  | _ => .error (invalidState message)

def readVersions (m : PyKey × PyVal) : Result (Str × List (Str × PolicyLifecycle)) := do
  let policyId ← keyText "invalid lifecycle state" m.1
  let versions ← dictOf (invalidState "invalid lifecycle state") m.2
  let versions ← versions.mapM fun n => do
    let version ← keyText "invalid lifecycle state" n.1
    let lifecycle ← readLifecycle n.2
    .ok (version, lifecycle)
  .ok (policyId, versions)

-- self._states[(policy_id, version)] = PolicyLifecycle(value)
def unnested (nested : List (Str × List (Str × PolicyLifecycle))) : LifecycleStates :=
  nested.flatMap fun m => m.2.map fun n => ((m.1, n.1), n.2)

-- isinstance(revision, int), which holds of a bool
def revision? : PyVal → Option ℤ
  | .int i => some i
  | .bool b => some b.toNat
  | _ => none

def readSlot (m : PyKey × PyVal) : Result (Str × (Str × ℤ)) := do
  let policyId ← keyText "invalid active state" m.1
  let slot ← dictOf (invalidState "invalid active state") m.2
  raiseIf (PyDict.hasAll slot ["version", "revision"] = false) (.builtin .keyError)
  match slot.getD (lit "version"), revision? (slot.getD (lit "revision")) with
  | .str version, some revision =>
      if revision < 0 then .error (invalidState "invalid active revision")
      else .ok (policyId, (version, revision))
  | _, _ => .error (invalidState "invalid active revision")

-- an event that is no object is passed over
def readEvents : List PyVal → Result (List PolicyActivationEvent)
  | [] => .ok []
  | .dict d :: events => do
      let event ← PolicyActivationEvent.ofKeywords d
      let rest ← readEvents events
      .ok (event :: rest)
  | _ :: events => readEvents events

def readHistory (m : PyKey × PyVal) : Result (Str × List PolicyActivationEvent) := do
  let policyId ← keyText "invalid activation history" m.1
  match m.2 with
  | .list events => do
      let read ← readEvents events
      .ok (policyId, read)
  | _ => .error (invalidState "invalid activation history")

def readState (storage : List ((Str × Str) × StoredPolicy)) (payload : PyDict) :
    Result VersionedPolicyRegistry := do
  let states ← dictOf (invalidState "invalid lifecycle state")
    (fieldOr payload "states" (.dict []))
  let active ← dictOf (invalidState "invalid lifecycle state")
    (fieldOr payload "active" (.dict []))
  let history ← dictOf (invalidState "invalid lifecycle state")
    (fieldOr payload "history" (.dict []))
  let states ← states.mapM readVersions
  let active ← active.mapM readSlot
  let history ← history.mapM readHistory
  .ok { storage
        states := Dict.update [] (unnested states)
        active := Dict.update [] active
        history := Dict.update [] history }

def isUnsafe : Exc → Bool
  | .builtin .jsonDecodeError => true
  | _ => false

def isMalformed : Exc → Bool
  | .builtin .keyError => true
  | e => e.isTypeError || e.isValueError

variable (P : Primitives)

-- FilePolicyStorage.load_state and the part of __init__ that reads what it returns
def loadState (storage : List ((Str × Str) × StoredPolicy)) (file : Option String) :
    Result VersionedPolicyRegistry :=
  match file with
  | none => .ok { storage }
  | some text => do
      let payload ← reraise isUnsafe
        (policyError "PolicyIntegrityError"
          (lit "policy lifecycle state could not be loaded safely"))
        (P.loads (decode text))
      let payload ← dictOf
        (policyError "PolicyIntegrityError" (lit "policy lifecycle state must be an object"))
        payload
      if payload.isEmpty = true then
        .ok { storage }
      else
        reraise isMalformed
          (policyError "PolicyIntegrityError" (lit "policy lifecycle state is malformed"))
          (readState storage payload)

end Loading

end VersionedPolicyRegistry

section Reading

variable {V W : Type} {f : V → PyVal} {d : List (Str × V)}

theorem mapM_forall₂ {α β : Type} {g : α → Result β} {Q : α → β → Prop} {xs : List α}
    (h : ∀ x ∈ xs, ∃ y, g x = .ok y ∧ Q x y) : ∃ ys, xs.mapM g = .ok ys ∧ List.Forall₂ Q xs ys := by
  induction xs with
  | nil => exact ⟨[], rfl, .nil⟩
  | cons x xs ih =>
      obtain ⟨⟨y, hy, hxy⟩, hxs⟩ := List.forall_mem_cons.mp h
      obtain ⟨ys, hys, hall⟩ := ih hxs
      refine ⟨y :: ys, ?_, .cons hxy hall⟩
      simp only [List.mapM_cons, bind_eq_ok]
      exact ⟨y, hy, ys, hys, rfl⟩

-- a dictionary that is read back entry by entry
theorem mapM_of_alike {R : V → W → Prop} {g : PyKey × PyVal → Result (Str × W)} {ms : PyDict}
    (h : PyVal.Alike (strDict f d) (.dict ms))
    (hg : ∀ m ∈ d, ∀ x, PyVal.Alike (f m.2) x →
      ∃ w, g (.str m.1, x) = .ok (m.1, w) ∧ R m.2 w) :
    ∃ e, ms.mapM g = .ok e ∧ Dict.Distinct e ∧ Dict.Match R d e := by
  have hd : Dict.Distinct d := (List.pairwise_map.mp h.left.2.1).imp fun {a b} hab => by
    rw [same_str] at hab
    rw [same_list]
    exact hab
  have hread : ∀ n ∈ ms, ∃ y : Str × W, g n = .ok y ∧
      (n.1 = .str y.1 ∧ ∃ v, Dict.get d y.1 = some v ∧ R v y.2) := by
    rintro ⟨k, x⟩ hn
    obtain ⟨s, rfl⟩ := PyVal.exists_str (h.right.1 _ hn)
    obtain ⟨y, hy, hxy⟩ := h.same.1.back h.right.2.1 h.same.2 hn
    obtain ⟨m, hm, heq⟩ := List.mem_map.mp hy
    obtain ⟨hkey, rfl⟩ := Prod.mk.inj heq
    obtain rfl := PyKey.str.inj hkey
    have halike : PyVal.Alike (f m.2) x := ⟨PyVal.isJsonMembers_iff.mp h.left.2.2 _ hy,
      PyVal.isJsonMembers_iff.mp h.right.2.2 _ hn, hxy⟩
    obtain ⟨w, hw, hR⟩ := hg m hm x halike
    exact ⟨(m.1, w), hw, rfl, m.2, (Dict.mem_iff_get hd).mp hm, hR⟩
  obtain ⟨e, he, hall⟩ := mapM_forall₂ hread
  have hdistinct : Dict.Distinct e := by
    have hms := h.right.2.1
    clear he hread h hg
    induction hall with
    | nil => exact .nil
    | @cons n y ns ys hhead hrest ih =>
        obtain ⟨hn, hns⟩ := List.pairwise_cons.mp hms
        refine List.pairwise_cons.mpr ⟨fun z hz => ?_, ih hns⟩
        obtain ⟨m, hm, hmz⟩ := exists_of_forall₂_left hrest.flip hz
        have hsame := hn m hm
        rw [hhead.1, hmz.1, same_str] at hsame
        rw [same_list]
        exact hsame
  refine ⟨e, he, hdistinct, ?_, ?_⟩
  · intro k v hv
    obtain ⟨x, hx, -⟩ := h.get_some k (by rw [get_items, hv]; rfl)
    obtain ⟨y, hy, hny, v', hv', hR⟩ := exists_of_forall₂_left hall (mem_of_get_str hx)
    obtain rfl := PyKey.str.inj hny
    rw [hv] at hv'
    obtain rfl := Option.some.inj hv'
    exact ⟨y.2, (Dict.mem_iff_get hdistinct).mp hy, hR⟩
  · intro k w hw
    obtain ⟨n, -, -, v, hv, hR⟩ := exists_of_forall₂_left hall.flip (Dict.mem_of_get hw)
    exact ⟨v, hv, hR⟩

end Reading

section Nesting

variable {nested : List (Str × List (Str × PolicyLifecycle))} {states entries : LifecycleStates}
  {policyId version : Str}

namespace VersionedPolicyRegistry

-- the states that a nested form stands for
structure Nests (nested : List (Str × List (Str × PolicyLifecycle))) (states : LifecycleStates) :
    Prop where
  entry : ∀ policyId version,
    (Dict.get nested policyId).bind (fun versions => Dict.get versions version) =
      Dict.get states (policyId, version)
  inhabited : ∀ policyId versions, Dict.get nested policyId = some versions →
    ∃ version, (Dict.get versions version).isSome = true
  distinct : Dict.Distinct nested
  inner : ∀ m ∈ nested, Dict.Distinct m.2

theorem nests_nil : Nests [] [] where
  entry _ _ := rfl
  inhabited _ _ h := by cases h
  distinct := .nil
  inner := List.forall_mem_nil _

theorem Nests.nest (h : Nests nested states) (entry : (Str × Str) × PolicyLifecycle) :
    Nests (nest nested entry) (Dict.set states entry.1 entry.2) := by
  obtain ⟨⟨policyId, version⟩, lifecycle⟩ := entry
  have hinner : Dict.Distinct ((Dict.get nested policyId).getD []) := by
    cases hget : Dict.get nested policyId with
    | none => exact .nil
    | some versions => exact h.inner _ (Dict.mem_of_get hget)
  refine ⟨fun policyId' version' => ?_, fun policyId' versions hget => ?_,
    Dict.distinct_set h.distinct _ _, fun m hm => ?_⟩
  · have hentry := h.entry policyId version'
    rw [VersionedPolicyRegistry.nest, Dict.get_set_eq, Dict.get_set_eq]
    by_cases hid : policyId = policyId'
    · subst hid
      rw [if_pos rfl, Option.bind_some, Dict.get_set_eq]
      by_cases hversion : version = version'
      · subst hversion
        rw [if_pos rfl, if_pos rfl]
      · rw [if_neg hversion, if_neg fun hkey => hversion (Prod.mk.inj hkey).2, ← hentry]
        cases Dict.get nested policyId with
        | none => rfl
        | some versions => rfl
    · rw [if_neg hid, if_neg fun hkey => hid (Prod.mk.inj hkey).1]
      exact h.entry policyId' version'
  · rw [VersionedPolicyRegistry.nest, Dict.get_set_eq] at hget
    split at hget
    · obtain rfl := Option.some.inj hget
      exact ⟨version, by rw [Dict.get_set_eq, if_pos rfl]; rfl⟩
    · exact h.inhabited policyId' versions hget
  · rcases Dict.mem_set_exact hm with hm | rfl
    · exact h.inner m hm
    · exact Dict.distinct_set hinner _ _

theorem Nests.foldl (h : Nests nested states) :
    Nests (entries.foldl VersionedPolicyRegistry.nest nested) (Dict.update states entries) := by
  induction entries generalizing nested states with
  | nil => exact h
  | cons entry entries ih => exact ih (h.nest entry)

theorem nests_nestedStates {registry : VersionedPolicyRegistry}
    (hd : Dict.Distinct registry.states) : Nests registry.nestedStates registry.states := by
  have h : Nests registry.nestedStates (Dict.update [] registry.states) := nests_nil.foldl
  rwa [Dict.update_nil_of_distinct hd] at h

theorem mem_unnested {lifecycle : PolicyLifecycle} :
    ((policyId, version), lifecycle) ∈ unnested nested ↔
      ∃ versions, (policyId, versions) ∈ nested ∧ (version, lifecycle) ∈ versions := by
  simp only [unnested, List.mem_flatMap, List.mem_map]
  constructor
  · rintro ⟨⟨policyId', versions⟩, hm, ⟨version', lifecycle'⟩, hn, heq⟩
    obtain ⟨hkey, rfl⟩ := Prod.mk.inj heq
    obtain ⟨rfl, rfl⟩ := Prod.mk.inj hkey
    exact ⟨versions, hm, hn⟩
  · rintro ⟨versions, hm, hn⟩
    exact ⟨_, hm, _, hn, rfl⟩

theorem distinct_unnested (hd : Dict.Distinct nested) (hinner : ∀ m ∈ nested, Dict.Distinct m.2) :
    Dict.Distinct (unnested nested) := by
  have hne : ∀ {a b : (Str × Str) × PolicyLifecycle}, a.1 ≠ b.1 → Keyed.same a.1 b.1 = false :=
    fun h => decide_eq_false h
  refine List.pairwise_flatMap.mpr ⟨fun m hm => ?_, hd.imp fun {a b} hab x hx y hy => ?_⟩
  · refine List.pairwise_map.mpr ((hinner m hm).imp fun {a b} hab => hne fun heq => ?_)
    rw [same_list, decide_eq_false_iff_not] at hab
    exact hab (Prod.mk.inj heq).2
  · obtain ⟨n, -, rfl⟩ := List.mem_map.mp hx
    obtain ⟨n', -, rfl⟩ := List.mem_map.mp hy
    refine hne fun heq => ?_
    rw [same_list, decide_eq_false_iff_not] at hab
    exact hab (Prod.mk.inj heq).1

theorem nests_unnested (hd : Dict.Distinct nested) (hinner : ∀ m ∈ nested, Dict.Distinct m.2)
    (policyId version : Str) :
    Dict.get (Dict.update [] (unnested nested)) (policyId, version) =
      (Dict.get nested policyId).bind (fun versions => Dict.get versions version) := by
  have hdistinct := distinct_unnested hd hinner
  rw [Dict.update_nil_of_distinct hdistinct]
  refine Option.ext fun lifecycle => ?_
  rw [← Dict.mem_iff_get hdistinct, mem_unnested, Option.bind_eq_some_iff]
  refine exists_congr fun versions => ?_
  rw [Dict.mem_iff_get hd]
  refine and_congr_right fun hget => ?_
  exact Dict.mem_iff_get (hinner _ (Dict.mem_of_get hget))

end VersionedPolicyRegistry

end Nesting

section Rereading

namespace PolicyActivationEvent

variable {event : PolicyActivationEvent} {x : PyVal} {d e : PyDict} {name : String} {s : Str}

theorem hasAll_toDict (event : PolicyActivationEvent) :
    PyDict.hasAll event.toDict fields = true := by
  simp [PyDict.hasAll, PyDict.has, toDict, fields]

theorem hasOnly_toDict (event : PolicyActivationEvent) :
    PyDict.hasOnly event.toDict fields = true :=
  PyVal.hasOnly_ofFields.mpr (by simp [fields])

theorem member_of_alike (h : PyVal.Alike (.dict d) (.dict e))
    (hs : PyDict.get d (lit name) = some (.str s)) : member e name = .ok s := by
  obtain ⟨w, hw, halike⟩ := h.get_some (lit name) hs
  have hmember : PyDict.get e name = some w := hw
  rw [member, hmember, halike.str]
  rfl

theorem optionalStr_of_alike {s : Option Str} (h : PyVal.Alike (optStr s) x) :
    optionalStr x = .ok s := by
  cases s with
  | none =>
      rw [eq_of_alike h (by simp [optStr]) (by simp [optStr])]
      rfl
  | some s =>
      rw [PyVal.Alike.str h]
      rfl

theorem ofKeywords_of_alike (h : PyVal.Alike (.dict event.toDict) (.dict d)) :
    ofKeywords d = .ok event := by
  have hnames : raiseIf (PyDict.hasAll d fields = false ∨ PyDict.hasOnly d fields = false)
      (.builtin .typeError) = .ok () := by
    refine raiseIf_of_not (fun hnot => ?_) _
    rw [← h.hasAll, ← h.hasOnly, hasAll_toDict, hasOnly_toDict] at hnot
    simp at hnot
  have hprevious : optionalStr (PyDict.getD d (lit "previous_version")) =
      .ok event.previousVersion := by
    have halike := h.getD (lit "previous_version")
    rw [PyDict.getD_of_get (v := optStr event.previousVersion) (by simp [toDict])] at halike
    exact optionalStr_of_alike halike
  have hrevision : PyDict.getD d (lit "revision") = .int event.revision := by
    have halike := h.getD (lit "revision")
    rw [PyDict.getD_of_get (v := .int event.revision) (by simp [toDict])] at halike
    exact eq_of_alike_int halike
  have hid : member d "policy_id" = .ok event.policyId := member_of_alike h (by simp [toDict])
  have hselected : member d "selected_version" = .ok event.selectedVersion :=
    member_of_alike h (by simp [toDict])
  have hrequested : member d "requested_by" = .ok event.requestedBy :=
    member_of_alike h (by simp [toDict])
  have hreason : member d "reason" = .ok event.reason := member_of_alike h (by simp [toDict])
  have htimestamp : member d "timestamp" = .ok event.timestamp :=
    member_of_alike h (by simp [toDict])
  have hoperation : member d "operation" = .ok event.operation :=
    member_of_alike h (by simp [toDict])
  rw [ofKeywords, hnames, hprevious, hrevision, hid, hselected, hrequested, hreason, htimestamp,
    hoperation]
  rfl

theorem isJson_toDict (event : PolicyActivationEvent) : (PyVal.dict event.toDict).IsJson := by
  refine PyVal.isJson_ofFields (by simp) ?_
  intro m hm
  simp only [List.mem_cons, List.not_mem_nil, or_false] at hm
  rcases hm with rfl | rfl | rfl | rfl | rfl | rfl | rfl | rfl
  · trivial
  · cases event.previousVersion <;> trivial
  all_goals trivial

end PolicyActivationEvent

namespace VersionedPolicyRegistry

variable {x : PyVal} {policyId : Str}

theorem readLifecycle_text (lifecycle : PolicyLifecycle) :
    readLifecycle (.str lifecycle.text) = .ok lifecycle := by
  cases lifecycle <;> rfl

theorem readVersions_of_alike {versions : List (Str × PolicyLifecycle)}
    (h : PyVal.Alike (savedVersions versions) x) :
    ∃ w, readVersions (.str policyId, x) = .ok (policyId, w) ∧ Dict.Distinct w ∧
      Dict.Match Eq versions w := by
  obtain ⟨ms, rfl, hms⟩ := h.dict
  obtain ⟨w, hw, hdistinct, hmatch⟩ := mapM_of_alike (R := Eq)
    (g := fun n => do
      let version ← keyText "invalid lifecycle state" n.1
      let lifecycle ← readLifecycle n.2
      .ok (version, lifecycle)) hms fun m _ y hy => by
        rw [PyVal.Alike.str hy, keyText, readLifecycle_text]
        exact ⟨m.2, rfl, rfl⟩
  refine ⟨w, ?_, hdistinct, hmatch⟩
  simp only [readVersions, keyText, dictOf, bind_eq_ok]
  exact ⟨policyId, rfl, ms, rfl, w, hw, rfl⟩

theorem readSlot_of_alike {slot : Str × ℤ} (hrevision : 0 ≤ slot.2)
    (h : PyVal.Alike (savedSlot slot) x) :
    readSlot (.str policyId, x) = .ok (policyId, slot) := by
  obtain ⟨ms, rfl, hms⟩ := h.dict
  have hall : PyDict.hasAll ms ["version", "revision"] = true := by
    rw [← hms.hasAll]
    simp [PyDict.hasAll, PyDict.has]
  have hversion : PyDict.getD ms (lit "version") = .str slot.1 := by
    have halike := hms.getD (lit "version")
    rw [PyDict.getD_of_get (v := .str slot.1) (by simp)] at halike
    exact halike.str
  have hint : PyDict.getD ms (lit "revision") = .int slot.2 := by
    have halike := hms.getD (lit "revision")
    rw [PyDict.getD_of_get (v := .int slot.2) (by simp)] at halike
    exact eq_of_alike_int halike
  have hread : readSlot (.str policyId, .dict ms) = (do
      raiseIf (PyDict.hasAll ms ["version", "revision"] = false) (.builtin .keyError)
      match PyDict.getD ms (lit "version"), revision? (PyDict.getD ms (lit "revision")) with
      | .str version, some revision =>
          if revision < 0 then .error (invalidState "invalid active revision")
          else .ok (policyId, (version, revision))
      | _, _ => .error (invalidState "invalid active revision")) := rfl
  rw [hread, raiseIf_of_not (by simp [hall]), hversion, hint]
  exact if_neg (not_lt.mpr hrevision)

theorem readEvents_of_alike {events : List PolicyActivationEvent} {xs : List PyVal}
    (h : List.Forall₂ PyVal.Alike (events.map fun event => .dict event.toDict) xs) :
    readEvents xs = .ok events := by
  induction events generalizing xs with
  | nil =>
      cases h
      rfl
  | cons event events ih =>
      cases h with
      | cons hhead htail =>
          obtain ⟨d, rfl, hd⟩ := PyVal.Alike.dict hhead
          rw [readEvents, PolicyActivationEvent.ofKeywords_of_alike hd, ih htail]
          rfl

theorem readHistory_of_alike {events : List PolicyActivationEvent}
    (h : PyVal.Alike (savedEvents events) x) :
    readHistory (.str policyId, x) = .ok (policyId, events) := by
  obtain ⟨ys, rfl, hys⟩ := h.list
  simp only [readHistory, keyText, readEvents_of_alike hys, bind_eq_ok]
  exact ⟨policyId, rfl, events, rfl, rfl⟩

end VersionedPolicyRegistry

end Rereading

namespace VersionedPolicyRegistry

-- the same entries, in whatever order
structure Same (a b : VersionedPolicyRegistry) : Prop where
  storage : a.storage = b.storage
  states : ∀ key, Dict.get a.states key = Dict.get b.states key
  active : ∀ policyId, Dict.get a.active policyId = Dict.get b.active policyId
  history : ∀ policyId, Dict.get a.history policyId = Dict.get b.history policyId

-- the maps are dictionaries, and a revision counts activations
structure Sound (registry : VersionedPolicyRegistry) : Prop where
  states : Dict.Distinct registry.states
  active : Dict.Distinct registry.active
  history : Dict.Distinct registry.history
  revisions : ∀ m ∈ registry.active, 0 ≤ m.2.2

section Files

variable {P : Primitives} {a b registry : VersionedPolicyRegistry} {text : String}

theorem Same.refl (registry : VersionedPolicyRegistry) : registry.Same registry :=
  ⟨rfl, fun _ => rfl, fun _ => rfl, fun _ => rfl⟩

theorem Same.symm (h : a.Same b) : b.Same a :=
  ⟨h.storage.symm, fun key => (h.states key).symm, fun policyId => (h.active policyId).symm,
    fun policyId => (h.history policyId).symm⟩

theorem Same.trans {c : VersionedPolicyRegistry} (h : a.Same b) (h' : b.Same c) : a.Same c :=
  ⟨h.storage.trans h'.storage, fun key => (h.states key).trans (h'.states key),
    fun policyId => (h.active policyId).trans (h'.active policyId),
    fun policyId => (h.history policyId).trans (h'.history policyId)⟩

theorem match_nestedStates (ha : a.Sound) (hb : b.Sound) (h : a.Same b) :
    Dict.Match (Dict.Match Eq) a.nestedStates b.nestedStates := by
  have hforth : ∀ {a b : VersionedPolicyRegistry}, a.Sound → b.Sound → a.Same b →
      ∀ policyId versions, Dict.get a.nestedStates policyId = some versions →
        ∃ versions', Dict.get b.nestedStates policyId = some versions' ∧
          Dict.Match Eq versions versions' := by
    intro a b ha hb h policyId versions hget
    have hnests := nests_nestedStates ha.states
    have hnests' := nests_nestedStates hb.states
    have hentry : ∀ version, Dict.get versions version = Dict.get b.states (policyId, version) := by
      intro version
      rw [← h.states, ← hnests.entry, hget, Option.bind_some]
    obtain ⟨version, hversion⟩ := hnests.inhabited policyId versions hget
    rw [hentry, ← hnests'.entry] at hversion
    cases hget' : Dict.get b.nestedStates policyId with
    | none =>
        rw [hget'] at hversion
        cases hversion
    | some versions' =>
        refine ⟨versions', rfl, Dict.match_eq.mpr fun version => ?_⟩
        rw [hentry, ← hnests'.entry, hget', Option.bind_some]
  refine ⟨hforth ha hb h, fun policyId versions' hget => ?_⟩
  obtain ⟨versions, hversions, hmatch⟩ := hforth hb ha h.symm policyId versions' hget
  exact ⟨versions, hversions, Dict.match_eq.mpr fun version =>
    (Dict.match_eq.mp hmatch version).symm⟩

theorem isJson_savedVersions {versions : List (Str × PolicyLifecycle)}
    (hd : Dict.Distinct versions) : (savedVersions versions).IsJson :=
  isJson_strDict hd fun _ _ => trivial

theorem isJson_savedSlot (slot : Str × ℤ) : (savedSlot slot).IsJson :=
  PyVal.isJson_ofFields (by simp) (by simp [PyVal.IsJson])

theorem isJson_savedEvents (events : List PolicyActivationEvent) : (savedEvents events).IsJson := by
  refine PyVal.isJsonItems_iff.mpr fun x hx => ?_
  obtain ⟨event, -, rfl⟩ := List.mem_map.mp hx
  exact PolicyActivationEvent.isJson_toDict event

theorem isJson_nestedStates (h : registry.Sound) :
    (strDict savedVersions registry.nestedStates).IsJson := by
  have hnests := nests_nestedStates h.states
  exact isJson_strDict hnests.distinct fun m hm => isJson_savedVersions (hnests.inner m hm)

theorem isJson_savedState (h : registry.Sound) : registry.savedState.IsJson := by
  refine PyVal.isJson_ofFields (by simp [savedFields]) fun m hm => ?_
  simp only [savedFields, List.mem_cons, List.not_mem_nil, or_false] at hm
  rcases hm with rfl | rfl | rfl
  · exact isJson_nestedStates h
  · exact isJson_strDict h.active fun m _ => isJson_savedSlot m.2
  · exact isJson_strDict h.history fun m _ => isJson_savedEvents m.2

theorem alike_savedVersions {versions versions' : List (Str × PolicyLifecycle)}
    (hd : Dict.Distinct versions) (hd' : Dict.Distinct versions')
    (h : Dict.Match Eq versions versions') :
    PyVal.Alike (savedVersions versions) (savedVersions versions') :=
  alike_strDict h (isJson_savedVersions hd) (isJson_savedVersions hd') fun _ _ hvw =>
    hvw ▸ PyVal.alike_str _

theorem alike_savedState (ha : a.Sound) (hb : b.Sound) (h : a.Same b) :
    PyVal.Alike a.savedState b.savedState := by
  have hnests := nests_nestedStates ha.states
  have hnests' := nests_nestedStates hb.states
  refine PyVal.alike_ofFields (by simp [savedFields]) (.cons ⟨rfl, ?_⟩ (.cons ⟨rfl, ?_⟩
    (.cons ⟨rfl, ?_⟩ .nil)))
  · refine PyVal.alike_dict (isJson_nestedStates ha) (isJson_nestedStates hb) fun policyId => ?_
    rw [get_items, get_items]
    have hmatch := match_nestedStates ha hb h
    cases hget : Dict.get a.nestedStates policyId with
    | none =>
        cases hget' : Dict.get b.nestedStates policyId with
        | none => exact .inl ⟨rfl, rfl⟩
        | some versions' =>
            obtain ⟨versions, hversions, -⟩ := hmatch.back _ _ hget'
            rw [hget] at hversions
            cases hversions
    | some versions =>
        obtain ⟨versions', hget', hversions⟩ := hmatch.forth _ _ hget
        rw [hget']
        refine .inr ⟨_, _, rfl, rfl, alike_savedVersions ?_ ?_ hversions⟩
        · exact hnests.inner _ (Dict.mem_of_get hget)
        · exact hnests'.inner _ (Dict.mem_of_get hget')
  · exact alike_strDict (Dict.match_eq.mpr h.active)
      (isJson_strDict ha.active fun m _ => isJson_savedSlot m.2)
      (isJson_strDict hb.active fun m _ => isJson_savedSlot m.2)
      fun v _ hvw => hvw ▸ PyVal.alike_refl (isJson_savedSlot v)
  · exact alike_strDict (Dict.match_eq.mpr h.history)
      (isJson_strDict ha.history fun m _ => isJson_savedEvents m.2)
      (isJson_strDict hb.history fun m _ => isJson_savedEvents m.2)
      fun v _ hvw => hvw ▸ PyVal.alike_refl (isJson_savedEvents v)

theorem saveText_eq (ha : a.Sound) (hb : b.Sound) (h : a.Same b) :
    a.saveText P = b.saveText P := by
  rw [saveText, saveText, canonicalJson, canonicalJson, Interpreter.dumps, Interpreter.dumps,
    (alike_savedState ha hb h).toTree_eq]

theorem fieldOr_of_alike {d e : PyDict} {name : String} {v : PyVal}
    (h : PyVal.Alike (.dict d) (.dict e)) (hv : PyDict.get d (lit name) = some v)
    (absent : PyVal) : PyVal.Alike v (fieldOr e name absent) := by
  obtain ⟨w, hw, halike⟩ := h.get_some (lit name) hv
  have hget : PyDict.get e name = some w := hw
  rw [fieldOr, hget]
  exact halike

theorem readState_of_alike {d : PyDict} (h : registry.Sound)
    (hd : PyVal.Alike registry.savedState (.dict d)) :
    ∃ reread, readState registry.storage d = .ok reread ∧ registry.Same reread ∧
      reread.Sound := by
  have hnests := nests_nestedStates h.states
  have hfield : ∀ {name : String} {v : PyVal},
      PyDict.get (PyDict.ofFields registry.savedFields) (lit name) = some v →
        PyVal.Alike v (fieldOr d name (.dict [])) := fun hv => fieldOr_of_alike hd hv _
  have hstatesField : PyVal.Alike (strDict savedVersions registry.nestedStates)
      (fieldOr d "states" (.dict [])) := hfield (by simp [savedFields])
  have hactiveField : PyVal.Alike (strDict savedSlot registry.active)
      (fieldOr d "active" (.dict [])) := hfield (by simp [savedFields])
  have hhistoryField : PyVal.Alike (strDict savedEvents registry.history)
      (fieldOr d "history" (.dict [])) := hfield (by simp [savedFields])
  obtain ⟨states, hstates, hstatesAlike⟩ := hstatesField.dict
  obtain ⟨active, hactive, hactiveAlike⟩ := hactiveField.dict
  obtain ⟨history, hhistory, hhistoryAlike⟩ := hhistoryField.dict
  obtain ⟨nested, hnested, hnestedDistinct, hnestedMatch⟩ := mapM_of_alike
    (R := fun v w => Dict.Distinct w ∧ Dict.Match Eq v w) (g := readVersions) hstatesAlike
    fun m _ x hx => readVersions_of_alike hx
  obtain ⟨slots, hslots, hslotsDistinct, hslotsMatch⟩ := mapM_of_alike (R := Eq) (g := readSlot)
    hactiveAlike fun m hm x hx => ⟨m.2, readSlot_of_alike (h.revisions m hm) hx, rfl⟩
  obtain ⟨events, hevents, heventsDistinct, heventsMatch⟩ := mapM_of_alike (R := Eq)
    (g := readHistory) hhistoryAlike fun m _ x hx => ⟨m.2, readHistory_of_alike hx, rfl⟩
  have hinner : ∀ m ∈ nested, Dict.Distinct m.2 := by
    intro m hm
    obtain ⟨versions, -, hdistinct, -⟩ :=
      hnestedMatch.back _ _ ((Dict.mem_iff_get hnestedDistinct).mp hm)
    exact hdistinct
  refine ⟨{ storage := registry.storage, states := Dict.update [] (unnested nested),
            active := Dict.update [] slots, history := Dict.update [] events }, ?_, ?_, ?_⟩
  · rw [readState, hstates, hactive, hhistory]
    simp only [dictOf, bind_eq_ok]
    exact ⟨states, rfl, active, rfl, history, rfl, nested, hnested, slots, hslots, events, hevents,
      rfl⟩
  · refine ⟨rfl, ?_, fun policyId => ?_, fun policyId => ?_⟩
    · rintro ⟨policyId, version⟩
      rw [nests_unnested hnestedDistinct hinner, ← hnests.entry]
      cases hget : Dict.get registry.nestedStates policyId with
      | none =>
          cases hget' : Dict.get nested policyId with
          | none => rfl
          | some versions' =>
              obtain ⟨versions, hversions, -⟩ := hnestedMatch.back _ _ hget'
              rw [hget] at hversions
              cases hversions
      | some versions =>
          obtain ⟨versions', hget', -, hversions⟩ := hnestedMatch.forth _ _ hget
          rw [hget', Option.bind_some, Option.bind_some, Dict.match_eq.mp hversions]
    · rw [Dict.update_nil_of_distinct hslotsDistinct, Dict.match_eq.mp hslotsMatch]
    · rw [Dict.update_nil_of_distinct heventsDistinct, Dict.match_eq.mp heventsMatch]
  · refine ⟨Dict.distinct_update .nil _, Dict.distinct_update .nil _, Dict.distinct_update .nil _,
      fun m hm => ?_⟩
    rw [Dict.update_nil_of_distinct hslotsDistinct] at hm
    obtain ⟨slot, hslot, rfl⟩ := hslotsMatch.back _ _ ((Dict.mem_iff_get hslotsDistinct).mp hm)
    exact h.revisions _ (Dict.mem_of_get hslot)

-- what one process saves is what the next one starts with
theorem loadState_saveText (h : registry.Sound) (htext : registry.saveText P = .ok text) :
    ∃ reread, loadState P registry.storage (some text) = .ok reread ∧ registry.Same reread ∧
      reread.Sound := by
  obtain ⟨t, ht, hloads⟩ := loads_canonicalJson htext
  have halike := PyVal.alike_ofTree (isJson_savedState h) ht
  obtain ⟨d, hd, hdict⟩ := halike.dict
  obtain ⟨reread, hread, hsame, hsound⟩ := readState_of_alike h hdict
  refine ⟨reread, ?_, hsame, hsound⟩
  have hlength : d.isEmpty = false := by
    rw [List.isEmpty_eq_false_iff, ← List.length_pos_iff, ← hdict.length]
    simp [PyDict.ofFields, savedFields]
  rw [loadState, hloads, hd]
  simp only [bind_eq_ok, reraise_eq_ok, dictOf]
  refine ⟨.dict d, rfl, d, rfl, ?_⟩
  rw [hlength]
  exact reraise_eq_ok.mpr hread

end Files

end VersionedPolicyRegistry

end GovernedAutonomy
