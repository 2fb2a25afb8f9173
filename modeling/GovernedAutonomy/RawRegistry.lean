import GovernedAutonomy.RawReading

namespace GovernedAutonomy

open Python

-- a PolicyRegistry of policies as they were read, filed under ids of whatever type they have
structure RawRegistry where
  policies : List (PyVal × RawPolicy) := []
  versions : List (PyVal × ℤ) := []
  signedManifests : List (PyVal × RawManifest) := []
  trustStore : Option TrustStore := none

namespace RawRegistry

variable (P : Primitives)

def getPolicy (registry : RawRegistry) (policyId : PyVal) : Result (Option RawPolicy) :=
  PyVal.find registry.policies policyId

-- what is registered under the id has to be the same policy
def checkExisting (policy : RawPolicy) : Option RawPolicy → Result Unit
  | some existing => do
      let current ← existing.digest P
      let offered ← policy.digest P
      if current = offered then .ok ()
      else do
        let name ← P.str policy.policyId
        .error (.valueError (lit "policy ID is already registered: " ++ name))
  | none => .ok ()

def register (registry : RawRegistry) (policy : RawPolicy) : Result RawRegistry := do
  let existing ← registry.getPolicy policy.policyId
  checkExisting P policy existing
  .ok
    { registry with
      policies := Dict.set registry.policies policy.policyId policy
      versions := if Dict.has registry.versions policy.policyId then registry.versions
        else Dict.set registry.versions policy.policyId 1 }

def adopt (registry : RawRegistry) (manifest : RawManifest) : Result RawRegistry := do
  let registry ← registry.register P manifest.policy
  .ok
    { registry with
      signedManifests := Dict.set registry.signedManifests manifest.policy.policyId manifest
      versions := Dict.set registry.versions manifest.policy.policyId manifest.version }

def version (registry : RawRegistry) (policyId : PyVal) : ℤ :=
  (Dict.get registry.versions policyId).getD 0

def registerSigned (registry : RawRegistry) (manifest : RawManifest)
    (trustStore : Option TrustStore) : Result RawRegistry := do
  match trustStore.or registry.trustStore with
  | none => .error (.valueError
      (lit "a trust store is required to validate a signed policy manifest"))
  | some store => do
      let verified ← manifest.verify P store
      raiseIf (verified = false)
        (.valueError (lit "policy manifest signature is invalid or untrusted"))
      let version := registry.version manifest.policy.policyId
      match ← registry.getPolicy manifest.policy.policyId with
      | some current =>
          if manifest.version ≤ version then
            if manifest.version = version then do
              let held ← current.digest P
              let offered ← manifest.policy.digest P
              if held = offered then .ok registry
              else .error (.valueError
                (lit "policy manifest version is stale or conflicting"))
            else .error (.valueError
              (lit "policy manifest version is stale or conflicting"))
          else registry.adopt P manifest
      | none => registry.adopt P manifest

-- sorted(self._policies.items()): no two keys are equal, so it is the keys that are compared
def listed (registry : RawRegistry) : Result (List (PyVal × RawPolicy)) :=
  PyVal.sortedByKey Prod.fst registry.policies

-- an entry of to_dict()["policies"] with its entry["policy"]["policy_id"]
def entry (registry : RawRegistry) (m : PyVal × RawPolicy) : PyVal × PyVal :=
  match Dict.get registry.signedManifests m.1 with
  | some manifest => (manifest.policy.policyId, .dict manifest.toDict)
  | none => (m.2.policyId, .dict (PyDict.ofFields
      [("policy", .dict m.2.toDict), ("version", .int ((Dict.get registry.versions m.1).getD 1))]))

def toDict (registry : RawRegistry) : Result PyDict := do
  let items ← registry.listed
  .ok (PyDict.ofFields [("policies", .list (items.map (fun m => (registry.entry m).2)))])

def digests (registry : RawRegistry) : Result (List (PyVal × Str)) := do
  let items ← registry.listed
  items.mapM (fun m => do
    let digest ← m.2.digest P
    .ok (m.1, digest))

-- {key: d[key] for key in sorted(d)}
def keyed {V : Type} (f : V → PyVal) (d : List (PyVal × V)) : Result PyVal := do
  let items ← PyVal.sortedByKey Prod.fst d
  .ok (.dict (items.map (fun m => (m.1.toKey, f m.2))))

-- the snapshot_digest of RegistrySnapshot.from_registry
def snapshotDigest (registry : RawRegistry) (version : PyVal) : Result Str := do
  let items ← registry.listed
  let policies ← (items.map registry.entry).foldlM (fun d m => PyVal.store d m.1 m.2) []
  let digests ← registry.digests P
  let policies ← keyed id policies
  let digests ← keyed .str digests
  canonicalDigest P (.dict (PyDict.ofFields
    [("version", version), ("policies", policies), ("policy_digests", digests)]))

end RawRegistry

namespace RawManifest

variable {P : Primitives} {manifest : RawManifest} {store : TrustStore}

structure Verified (P : Primitives) (manifest : RawManifest) (store : TrustStore) : Prop where
  positive : 0 < manifest.version
  signed : store.Signs P manifest.issuerKeyId (manifest.unsignedPayload P) manifest.signature

theorem verify_eq_ok : manifest.verify P store = .ok true ↔ manifest.Verified P store := by
  have hsplit : manifest.verify P store = if manifest.version ≤ 0 then .ok false
      else store.verifies P manifest.issuerKeyId (manifest.unsignedPayload P)
        manifest.signature := rfl
  rw [hsplit]
  split
  · rename_i hversion
    constructor
    · intro h
      cases h
    · intro h
      exact absurd h.positive (not_lt.mpr hversion)
  · rename_i hversion
    rw [TrustStore.verifies_eq_ok]
    exact ⟨fun h => ⟨not_le.mp hversion, h⟩, Verified.signed⟩

end RawManifest

def RawPolicy.SameDigest (P : Primitives) (policy policy' : RawPolicy) : Prop :=
  ∃ digest, policy.digest P = .ok digest ∧ policy'.digest P = .ok digest

namespace RawRegistry

variable {P : Primitives} {registry registry' : RawRegistry} {policy : RawPolicy}
  {manifest : RawManifest} {trustStore : Option TrustStore}

-- every registered policy has a version, and nothing else has
def Versioned (registry : RawRegistry) : Prop :=
  ∀ policyId, Dict.has registry.policies policyId = Dict.has registry.versions policyId

def Verifies (P : Primitives) (registry : RawRegistry) (manifest : RawManifest)
    (trustStore : Option TrustStore) : Prop :=
  ∃ store, trustStore.or registry.trustStore = some store ∧ manifest.Verified P store

theorem checkExisting_eq_ok {o : Option RawPolicy} : checkExisting P policy o = .ok () ↔
    ∀ existing, o = some existing → existing.SameDigest P policy := by
  cases o with
  | none => simp [checkExisting]
  | some existing =>
      simp only [checkExisting, bind_eq_ok, Option.some.injEq, forall_eq']
      constructor
      · rintro ⟨current, hcurrent, offered, hoffered, h⟩
        split at h
        · rename_i hsame
          exact ⟨current, hcurrent, hsame ▸ hoffered⟩
        · obtain ⟨name, -, h⟩ := bind_eq_ok.mp h
          cases h
      · rintro ⟨digest, hcurrent, hoffered⟩
        exact ⟨digest, hcurrent, digest, hoffered, if_pos rfl⟩

theorem register_eq_ok : registry.register P policy = .ok registry' ↔
    policy.policyId.hashable = true ∧
      (∀ existing, Dict.get registry.policies policy.policyId = some existing →
        existing.SameDigest P policy) ∧
      registry' =
        { registry with
          policies := Dict.set registry.policies policy.policyId policy
          versions := if Dict.has registry.versions policy.policyId then registry.versions
            else Dict.set registry.versions policy.policyId 1 } := by
  simp only [register, getPolicy, bind_eq_ok, PyVal.find_eq_ok]
  constructor
  · rintro ⟨o, ⟨hhashable, rfl⟩, ⟨⟩, hchecked, h⟩
    exact ⟨hhashable, checkExisting_eq_ok.mp hchecked, (Except.ok.inj h).symm⟩
  · rintro ⟨hhashable, hsame, h⟩
    exact ⟨_, ⟨hhashable, rfl⟩, (), checkExisting_eq_ok.mpr hsame, congrArg Except.ok h.symm⟩

-- what adopting a manifest leaves in the registry
structure Adopts (P : Primitives) (registry registry' : RawRegistry) (manifest : RawManifest) :
    Prop where
  hashable : manifest.policy.policyId.hashable = true
  same : ∀ existing, Dict.get registry.policies manifest.policy.policyId = some existing →
    existing.SameDigest P manifest.policy
  policies : registry'.policies =
    Dict.set registry.policies manifest.policy.policyId manifest.policy
  versions : ∀ policyId, Dict.get registry'.versions policyId =
    if Keyed.same manifest.policy.policyId policyId = true then some manifest.version
      else Dict.get registry.versions policyId
  signedManifests : registry'.signedManifests =
    Dict.set registry.signedManifests manifest.policy.policyId manifest

theorem adopts_of_adopt (h : registry.adopt P manifest = .ok registry') :
    Adopts P registry registry' manifest := by
  obtain ⟨middle, hmiddle, h⟩ := bind_eq_ok.mp h
  obtain rfl := Except.ok.inj h
  obtain ⟨hhashable, hsame, rfl⟩ := register_eq_ok.mp hmiddle
  refine ⟨hhashable, hsame, rfl, ?_, rfl⟩
  intro policyId
  simp only [Dict.get_set]
  by_cases hid : Keyed.same manifest.policy.policyId policyId = true
  · rw [if_pos hid, if_pos hid]
  · rw [if_neg hid, if_neg hid]
    split
    · rfl
    · rw [Dict.get_set, if_neg hid]

theorem Adopts.same_self (h : Adopts P registry registry' manifest) :
    Keyed.same manifest.policy.policyId manifest.policy.policyId = true :=
  PyVal.same_self.trans h.hashable

theorem version_congr {policyId policyId' : PyVal} (h : Keyed.same policyId policyId' = true) :
    registry.version policyId = registry.version policyId' := by
  rw [version, version, Dict.get_congr _ h]

theorem adopt_isOk : (∃ registry', registry.adopt P manifest = .ok registry') ↔
    manifest.policy.policyId.hashable = true ∧
      ∀ existing, Dict.get registry.policies manifest.policy.policyId = some existing →
        existing.SameDigest P manifest.policy := by
  constructor
  · rintro ⟨registry', h⟩
    exact ⟨(adopts_of_adopt h).hashable, (adopts_of_adopt h).same⟩
  · rintro ⟨hhashable, hsame⟩
    exact ⟨_, bind_eq_ok.mpr ⟨_, register_eq_ok.mpr ⟨hhashable, hsame, rfl⟩, rfl⟩⟩

-- the three ways an accepted manifest can stand to what is registered under its id
inductive Accepted (P : Primitives) (registry registry' : RawRegistry) (manifest : RawManifest) :
    Prop
  | unknown (hget : Dict.get registry.policies manifest.policy.policyId = none)
      (h : registry.adopt P manifest = .ok registry')
  | newer {current : RawPolicy}
      (hget : Dict.get registry.policies manifest.policy.policyId = some current)
      (hversion : registry.version manifest.policy.policyId < manifest.version)
      (h : registry.adopt P manifest = .ok registry')
  | idempotent {current : RawPolicy}
      (hget : Dict.get registry.policies manifest.policy.policyId = some current)
      (hversion : manifest.version = registry.version manifest.policy.policyId)
      (hsame : current.SameDigest P manifest.policy) (h : registry' = registry)

theorem Accepted.hashable (h : Accepted P registry registry' manifest) :
    manifest.policy.policyId.hashable = true := by
  cases h with
  | unknown _ h => exact (adopts_of_adopt h).hashable
  | newer hget => exact PyVal.hashable_of_get hget
  | idempotent hget => exact PyVal.hashable_of_get hget

theorem registerSigned_eq_ok : registry.registerSigned P manifest trustStore = .ok registry' ↔
    Verifies P registry manifest trustStore ∧ Accepted P registry registry' manifest := by
  unfold registerSigned Verifies
  cases hstore : trustStore.or registry.trustStore with
  | none => simp
  | some store =>
      simp only [Option.some.injEq, exists_eq_left']
      rw [← RawManifest.verify_eq_ok]
      simp only [getPolicy, bind_eq_ok, raiseIf_eq_ok, Bool.not_eq_false, PyVal.find_eq_ok]
      constructor
      · rintro ⟨verified, hverified, -, rfl, o, ⟨-, rfl⟩, h⟩
        refine ⟨hverified, ?_⟩
        cases hget : Dict.get registry.policies manifest.policy.policyId with
        | none =>
            rw [hget] at h
            exact .unknown hget h
        | some current =>
            rw [hget] at h
            simp only at h
            split at h
            · split at h
              · rename_i hversion
                simp only [bind_eq_ok] at h
                obtain ⟨held, hheld, offered, hoffered, h⟩ := h
                split at h
                · rename_i hsame
                  exact .idempotent hget hversion ⟨held, hheld, hsame ▸ hoffered⟩
                    (Except.ok.inj h).symm
                · cases h
              · cases h
            · rename_i hversion
              exact .newer hget (not_le.mp hversion) h
      · rintro ⟨hverified, haccepted⟩
        refine ⟨true, hverified, (), rfl, _, ⟨haccepted.hashable, rfl⟩, ?_⟩
        cases haccepted with
        | unknown hget h => simpa only [hget] using h
        | newer hget hversion h => simpa only [hget, if_neg (not_le.mpr hversion)] using h
        | idempotent hget hversion hsame h =>
            obtain ⟨digest, hheld, hoffered⟩ := hsame
            simp only [hget, if_pos (le_of_eq hversion), if_pos hversion]
            exact bind_eq_ok.mpr ⟨digest, hheld, bind_eq_ok.mpr ⟨digest, hoffered, by rw [if_pos rfl, h]⟩⟩

theorem registerSigned_isOk :
    (∃ registry', registry.registerSigned P manifest trustStore = .ok registry') ↔
      Verifies P registry manifest trustStore ∧ manifest.policy.policyId.hashable = true ∧
        ∀ current, Dict.get registry.policies manifest.policy.policyId = some current →
          current.SameDigest P manifest.policy ∧
            registry.version manifest.policy.policyId ≤ manifest.version := by
  simp only [registerSigned_eq_ok, exists_and_left]
  refine and_congr_right fun _ => ?_
  constructor
  · rintro ⟨registry', haccepted⟩
    refine ⟨haccepted.hashable, ?_⟩
    intro current hget
    cases haccepted with
    | unknown hnone =>
        rw [hnone] at hget
        cases hget
    | newer _ hversion h => exact ⟨(adopts_of_adopt h).same current hget, le_of_lt hversion⟩
    | idempotent hsome hversion hsame =>
        rw [hsome] at hget
        exact ⟨Option.some.inj hget ▸ hsame, le_of_eq hversion.symm⟩
  · rintro ⟨hhashable, h⟩
    cases hget : Dict.get registry.policies manifest.policy.policyId with
    | none =>
        obtain ⟨registry', hadopt⟩ : ∃ registry', registry.adopt P manifest = .ok registry' :=
          adopt_isOk.mpr ⟨hhashable, by simp [hget]⟩
        exact ⟨registry', .unknown hget hadopt⟩
    | some current =>
        obtain ⟨hsame, hversion⟩ := h current hget
        rcases lt_or_eq_of_le hversion with hlt | heq
        · obtain ⟨registry', hadopt⟩ : ∃ registry', registry.adopt P manifest = .ok registry' :=
            adopt_isOk.mpr ⟨hhashable, by simpa [hget] using hsame⟩
          exact ⟨registry', .newer hget hlt hadopt⟩
        · exact ⟨registry, .idempotent hget heq.symm hsame rfl⟩

theorem exists_accepted {store : TrustStore} (hverified : manifest.Verified P store) :
    (∃ registry', Accepted P registry registry' manifest) ↔
      manifest.policy.policyId.hashable = true ∧
        ∀ current, Dict.get registry.policies manifest.policy.policyId = some current →
          current.SameDigest P manifest.policy ∧
            registry.version manifest.policy.policyId ≤ manifest.version := by
  have hverifies : Verifies P registry manifest (some store) := ⟨store, rfl, hverified⟩
  have hsigned := @registerSigned_isOk P registry manifest (some store)
  simp only [registerSigned_eq_ok, hverifies, true_and] at hsigned
  exact hsigned

end RawRegistry

namespace PolicyRegistry

section Named

variable {V W : Type} (f : V → W) (d : List (Str × V))

-- a dict whose keys are strings, with its values taken as they could be read
def named (d : List (Str × V)) : List (PyVal × W) := d.map (fun m => (.str m.1, f m.2))

theorem named_cons (m : Str × V) : named f (m :: d) = (.str m.1, f m.2) :: named f d := rfl

theorem get_named (k : Str) : Dict.get (named f d) (.str k) = (Dict.get d k).map f := by
  induction d with
  | nil => rfl
  | cons m d ih =>
      rw [named_cons, Dict.get_cons, Dict.get_cons, PyVal.same_str_str, same_list, ih]
      split <;> rfl

theorem has_named (k : Str) : Dict.has (named f d) (.str k) = Dict.has d k := by
  rw [Dict.has, get_named, Option.isSome_map, Dict.has]

theorem set_named (k : Str) (v : V) :
    Dict.set (named f d) (.str k) (f v) = named f (Dict.set d k v) := by
  induction d with
  | nil => rfl
  | cons m d ih =>
      rw [named_cons, Dict.set, Dict.set, PyVal.same_str_str, same_list, ih]
      split <;> rfl

theorem sortedByKey_named : PyVal.sortedByKey Prod.fst (named f d) =
    .ok (named f (sortedItems d)) :=
  @PyVal.sortedByKey_map _ _ _ _ Prod.fst (fun m : Str × V => (PyVal.str m.1, f m.2)) Prod.fst
    (PyVal.ranks_str Prod.fst) d

theorem store_named (e : List (Str × V)) :
    (named f e).foldlM (fun d m => PyVal.store d m.1 m.2) (named f d) =
      .ok (named f (Dict.update d e)) := by
  induction e generalizing d with
  | nil => rfl
  | cons m e ih =>
      rw [named_cons, List.foldlM_cons, PyVal.store_str, set_named]
      exact ih _

end Named

variable (P : Primitives) (registry : PolicyRegistry)

def raw : RawRegistry where
  policies := named Policy.raw registry.policies
  versions := named id registry.versions
  signedManifests := named SignedPolicyManifest.raw registry.signedManifests
  trustStore := registry.trustStore

theorem version_raw (policyId : Str) : registry.raw.version (.str policyId) =
    (Dict.get registry.versions policyId).getD 0 := by
  rw [RawRegistry.version, raw, get_named, Option.map_id, id]

-- a registry of policies of the declared types does what the registry of raw ones does
theorem register_raw (policy : Policy) :
    registry.raw.register P policy.raw = (registry.register P policy).map raw := by
  have hget : registry.raw.getPolicy policy.raw.policyId =
      .ok ((Dict.get registry.policies policy.policyId).map Policy.raw) :=
    congrArg Except.ok (get_named _ _ _)
  have hversions : (if Dict.has registry.raw.versions policy.raw.policyId = true then
      registry.raw.versions else Dict.set registry.raw.versions policy.raw.policyId 1) =
        named id (if Dict.has registry.versions policy.policyId = true then registry.versions
          else Dict.set registry.versions policy.policyId 1) := by
    have hhas : Dict.has registry.raw.versions policy.raw.policyId =
        Dict.has registry.versions policy.policyId := has_named id _ _
    by_cases h : Dict.has registry.versions policy.policyId = true
    · rw [if_pos (hhas.trans h), if_pos h]
      rfl
    · rw [if_neg (hhas ▸ h), if_neg h]
      exact set_named id _ _ _
  have hpolicies : Dict.set registry.raw.policies policy.raw.policyId policy.raw =
      named Policy.raw (Dict.set registry.policies policy.policyId policy) := set_named _ _ _ _
  rw [RawRegistry.register, PolicyRegistry.register, hget]
  cases Dict.get registry.policies policy.policyId with
  | none =>
      simp only [RawRegistry.checkExisting, Option.map_none, bind, Except.bind, hversions, hpolicies]
      rfl
  | some existing =>
      have htext : P.str policy.raw.policyId = .ok policy.policyId := rfl
      simp only [RawRegistry.checkExisting, Option.map_some, Policy.raw_digest, htext, hversions,
        hpolicies, bind, Except.bind]
      cases existing.digest P with
      | error e => rfl
      | ok current =>
          cases policy.digest P with
          | error e => rfl
          | ok offered =>
              by_cases hsame : current = offered
              · simp only [if_pos hsame, raiseIf, if_neg (not_not.mpr hsame)]
                rfl
              · simp only [if_neg hsame, raiseIf, if_pos hsame]
                rfl

theorem adopt_raw (manifest : SignedPolicyManifest) :
    registry.raw.adopt P manifest.raw = (registry.adopt P manifest).map raw := by
  rw [RawRegistry.adopt, adopt]
  have hregister : registry.raw.register P manifest.raw.policy =
      (registry.register P manifest.policy).map raw := register_raw P registry manifest.policy
  rw [hregister]
  cases registry.register P manifest.policy with
  | error e => rfl
  | ok middle =>
      have hsigned : Dict.set middle.raw.signedManifests manifest.raw.policy.policyId manifest.raw =
          named SignedPolicyManifest.raw
            (Dict.set middle.signedManifests manifest.policy.policyId manifest) := set_named _ _ _ _
      have hversions : Dict.set middle.raw.versions manifest.raw.policy.policyId
          manifest.raw.version =
            named id (Dict.set middle.versions manifest.policy.policyId manifest.version) :=
        set_named id _ _ _
      simp only [Except.map, bind, Except.bind, hsigned, hversions]
      rfl

theorem registerSigned_raw (manifest : SignedPolicyManifest) (trustStore : Option TrustStore) :
    registry.raw.registerSigned P manifest.raw trustStore =
      (registry.registerSigned P manifest trustStore).map raw := by
  have hget : registry.raw.getPolicy manifest.raw.policy.policyId =
      .ok ((Dict.get registry.policies manifest.policy.policyId).map Policy.raw) :=
    congrArg Except.ok (get_named _ _ _)
  have hversion : registry.raw.version manifest.raw.policy.policyId =
      (Dict.get registry.versions manifest.policy.policyId).getD 0 := version_raw registry _
  have hdigest : manifest.raw.policy.digest P = manifest.policy.digest P :=
    Policy.raw_digest P manifest.policy
  have hoffered : manifest.raw.version = manifest.version := rfl
  have hstore : registry.raw.trustStore = registry.trustStore := rfl
  rw [RawRegistry.registerSigned, registerSigned, hstore]
  cases trustStore.or registry.trustStore with
  | none => rfl
  | some store =>
      simp only [SignedPolicyManifest.raw_verify, hget, hversion, adopt_raw]
      cases manifest.verify P store with
      | error e => rfl
      | ok verified =>
          cases verified with
          | false => rfl
          | true =>
              simp only [bind, Except.bind, raiseIf, Bool.true_eq_false, if_false]
              cases Dict.get registry.policies manifest.policy.policyId with
              | none => rfl
              | some current =>
                  simp only [Option.map_some, Policy.raw_digest, hdigest, hoffered]
                  split_ifs with hle heq
                  · cases current.digest P with
                    | error e => rfl
                    | ok held =>
                        cases manifest.policy.digest P with
                        | error e => rfl
                        | ok offered =>
                            by_cases hsame : held = offered
                            · simp only [if_pos hsame]
                              rfl
                            · simp only [if_neg hsame]
                              rfl
                  · rfl
                  · rfl

theorem keyed_named {V : Type} (f : V → PyVal) (d : List (Str × V)) :
    RawRegistry.keyed f (named id d) = .ok (strDict f (sortedItems d)) := by
  rw [RawRegistry.keyed, sortedByKey_named]
  simp only [bind, Except.bind, named, strDict, List.map_map, Function.comp_def, id, PyVal.toKey]

theorem entry_raw (m : Str × Policy) : registry.raw.entry (.str m.1, m.2.raw) =
    (.str (registry.entry m).1, (registry.entry m).2) := by
  have hsigned : Dict.get registry.raw.signedManifests (.str m.1) =
      (Dict.get registry.signedManifests m.1).map SignedPolicyManifest.raw := get_named _ _ _
  have hversions : Dict.get registry.raw.versions (.str m.1) =
      (Dict.get registry.versions m.1).map id := get_named _ _ _
  rw [RawRegistry.entry, PolicyRegistry.entry, hsigned]
  cases Dict.get registry.signedManifests m.1 with
  | some manifest =>
      simp only [Option.map_some, SignedPolicyManifest.raw_toDict]
      rfl
  | none =>
      simp only [Option.map_none, Policy.raw_toDict, hversions, Option.map_id, id]
      rfl

theorem mapM_named {f : PyVal × RawPolicy → Result (PyVal × Str)}
    {g : Str × Policy → Result (Str × Str)}
    (h : ∀ m, f (.str m.1, m.2.raw) = (g m).map (fun d => (.str d.1, d.2)))
    (items : List (Str × Policy)) :
    (named Policy.raw items).mapM f = (items.mapM g).map (named id) := by
  induction items with
  | nil => rfl
  | cons m items ih =>
      rw [named_cons, List.mapM_cons, List.mapM_cons, ih, h]
      cases g m with
      | error e => rfl
      | ok d => cases items.mapM g <;> rfl

theorem digests_raw : registry.raw.digests P = (registry.digests P).map (named id) := by
  rw [RawRegistry.digests, RawRegistry.listed, digests]
  simp only [raw, sortedByKey_named]
  refine mapM_named (fun m => ?_) _
  rw [Policy.raw_digest]
  cases m.2.digest P <;> rfl

-- both take the same digest of the same snapshot
theorem snapshotDigest_raw (sourceOrg : Str) (version : PyVal) :
    registry.raw.snapshotDigest P version =
      (RegistrySnapshot.fromRegistry P registry sourceOrg version).map
        RegistrySnapshot.snapshotDigest := by
  have hlisted : registry.raw.listed = .ok (named Policy.raw (sortedItems registry.policies)) :=
    sortedByKey_named _ _
  have hentries : (named Policy.raw (sortedItems registry.policies)).map registry.raw.entry =
      named id ((sortedItems registry.policies).map registry.entry) := by
    rw [named, named, List.map_map, List.map_map]
    exact List.map_congr_left fun m _ => entry_raw registry m
  have hstored : (named id ((sortedItems registry.policies).map registry.entry)).foldlM
      (fun d m => PyVal.store d m.1 m.2) [] =
        .ok (named id (Dict.update [] ((sortedItems registry.policies).map registry.entry))) :=
    store_named id [] _
  rw [RawRegistry.snapshotDigest, RegistrySnapshot.fromRegistry, hlisted]
  simp only [bind, Except.bind, hentries, hstored, digests_raw]
  cases registry.digests P with
  | error e => rfl
  | ok digests =>
      simp only [Except.map, keyed_named, RegistrySnapshot.contents]
      cases canonicalDigest P _ <;> rfl

end PolicyRegistry

end GovernedAutonomy
