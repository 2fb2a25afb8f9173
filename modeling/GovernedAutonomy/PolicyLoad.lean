import GovernedAutonomy.RawRegistry

namespace GovernedAutonomy

open Python

-- a policy is told apart by its digest, and by what to_dict gives where it has none
def RawPolicy.content (P : Primitives) (policy : RawPolicy) : Str ⊕ PyDict :=
  match policy.digest P with
  | .ok digest => .inl digest
  | .error _ => .inr policy.toDict

namespace RawPolicy

variable {P : Primitives} {policy policy' other : RawPolicy}

theorem content_of_digest {digest : Str} (h : policy.digest P = .ok digest) :
    policy.content P = .inl digest := by
  rw [content, h]

theorem digest_of_content (h : policy.content P = policy'.content P) :
    policy.digest P = policy'.digest P := by
  have hdict : policy.toDict = policy'.toDict → policy.digest P = policy'.digest P := by
    intro h
    rw [digest, digest, h]
  unfold content at h
  split at h <;> split at h
  · rename_i hdigest _ _ hdigest'
    rw [hdigest, hdigest', Sum.inl.inj h]
  · cases h
  · cases h
  · exact hdict (Sum.inr.inj h)

theorem content_of_sameDigest (h : policy.SameDigest P policy') :
    policy.content P = policy'.content P := by
  obtain ⟨digest, hdigest, hdigest'⟩ := h
  rw [content_of_digest hdigest, content_of_digest hdigest']

theorem sameDigest_congr (h : policy.content P = policy'.content P) :
    policy.SameDigest P other ↔ policy'.SameDigest P other := by
  rw [SameDigest, SameDigest, digest_of_content h]

theorem sorted_content (P : Primitives) (policy : RawPolicy) :
    policy.sorted.content P = policy.content P := by
  rw [content, content, sorted_digest, sorted_toDict]

end RawPolicy

def RawManifest.record (P : Primitives) (manifest : RawManifest) :
    (Str ⊕ PyDict) × ℤ × Str × Str :=
  (manifest.policy.content P, manifest.version, manifest.issuerKeyId, manifest.signature)

-- an entry of the "policies" list of a snapshot, decoded
inductive RegistryEntry where
  | signed (manifest : RawManifest)
  | plain (policy : RawPolicy) (version : ℤ)

namespace RegistryEntry

def policy : RegistryEntry → RawPolicy
  | .signed manifest => manifest.policy
  | .plain policy _ => policy

def version : RegistryEntry → ℤ
  | .signed manifest => manifest.version
  | .plain _ version => version

def policyId (entry : RegistryEntry) : PyVal := entry.policy.policyId

def positiveVersion (value : PyVal) : Result ℤ :=
  let invalid := .valueError (lit "policy registry version must be a positive integer")
  match value with
  | .int version => if version ≤ 0 then .error invalid else .ok version
  | _ => .error invalid

def read (value : PyVal) : Result RegistryEntry := do
  let invalid := .valueError (lit "policy registry has an invalid entry schema")
  let d ← dictOf invalid value
  if PyDict.has d "signature" = true then
    let manifest ← RawManifest.ofValue (.dict d)
    .ok (.signed manifest)
  else
    raiseIf (d.hasOnly ["policy", "version"] = false ∨ d.hasAll ["policy", "version"] = false)
      invalid
    let policy ← RawPolicy.ofValue (d.getD "policy")
    let version ← positiveVersion (d.getD "version")
    .ok (.plain policy version)

theorem read_signed {manifest : RawManifest} (hvalid : manifest.policy.Valid)
    (hissuer : manifest.issuerKeyId ≠ []) (hsignature : manifest.signature ≠ []) :
    read (.dict manifest.toDict) = .ok (.signed manifest.sorted) := by
  have hhas : PyDict.has manifest.toDict "signature" = true := by
    simp [PyDict.has, RawManifest.toDict]
  simp only [read, dictOf, bind, Except.bind, if_pos hhas,
    RawManifest.ofValue_toDict hvalid hissuer hsignature]

theorem named_of_read {manifest : RawManifest} {entry : RegistryEntry}
    (h : read (.dict manifest.toDict) = .ok entry) :
    manifest.issuerKeyId ≠ [] ∧ manifest.signature ≠ [] := by
  have hhas : PyDict.has manifest.toDict "signature" = true := by
    simp [PyDict.has, RawManifest.toDict]
  simp only [read, dictOf, bind, Except.bind, if_pos hhas] at h
  cases hread : RawManifest.ofValue (.dict manifest.toDict) with
  | error e =>
      rw [hread] at h
      cases h
  | ok manifest' => exact RawManifest.named_of_ofValue_toDict hread

theorem read_plain {policy : RawPolicy} {version : ℤ} (hvalid : policy.Valid)
    (hversion : 0 < version) :
    read (.dict (PyDict.ofFields [("policy", .dict policy.toDict), ("version", .int version)])) =
      .ok (.plain policy.sorted version) := by
  have hhas (a b : PyVal) :
      ¬ PyDict.has (PyDict.ofFields [("policy", a), ("version", b)]) "signature" = true := by
    simp [PyDict.has]
  have hschema (a b : PyVal) :
      ¬ (PyDict.hasOnly (PyDict.ofFields [("policy", a), ("version", b)]) ["policy", "version"] =
        false ∨ PyDict.hasAll (PyDict.ofFields [("policy", a), ("version", b)])
          ["policy", "version"] = false) := by
    rw [not_or, Bool.not_eq_false, Bool.not_eq_false]
    constructor
    · simp [PyDict.hasOnly, PyDict.ofFields]
    · simp [PyDict.hasAll, PyDict.has]
  have hpolicy (a b : PyVal) :
      PyDict.getD (PyDict.ofFields [("policy", a), ("version", b)]) "policy" = a :=
    PyDict.getD_of_get (by simp)
  have hvalue (a b : PyVal) :
      PyDict.getD (PyDict.ofFields [("policy", a), ("version", b)]) "version" = b :=
    PyDict.getD_of_get (by simp)
  simp only [read, dictOf, bind, Except.bind, if_neg (hhas _ _), raiseIf_of_not (hschema _ _),
    hpolicy, hvalue, RawPolicy.ofValue_toDict hvalid, positiveVersion,
    if_neg (not_le.mpr hversion)]

-- what a decoded entry says of its policy and of its version
theorem valid_of_read {value : PyVal} {entry : RegistryEntry} (h : read value = .ok entry) :
    entry.policy.Valid ∧ ∀ policy version, entry = .plain policy version → 0 < version := by
  simp only [read, bind_eq_ok] at h
  obtain ⟨d, -, h⟩ := h
  split at h
  · simp only [bind_eq_ok] at h
    obtain ⟨manifest, hmanifest, h⟩ := h
    obtain rfl := Except.ok.inj h
    exact ⟨(RawManifest.valid_of_ofValue hmanifest).1, fun _ _ hentry => by cases hentry⟩
  · simp only [bind_eq_ok] at h
    obtain ⟨-, -, policy, hpolicy, version, hversion, h⟩ := h
    obtain rfl := Except.ok.inj h
    refine ⟨RawPolicy.valid_of_ofValue hpolicy, fun policy' version' hentry => ?_⟩
    obtain ⟨-, rfl⟩ := RegistryEntry.plain.inj hentry
    unfold positiveVersion at hversion
    split at hversion
    · split at hversion
      · cases hversion
      · rename_i hle
        obtain rfl := Except.ok.inj hversion
        exact not_le.mp hle
    · cases hversion

end RegistryEntry

namespace RawRegistry

variable (P : Primitives)

-- registry._policies[policy.policy_id] = policy, and the version beside it
def put (registry : RawRegistry) (policy : RawPolicy) (version : ℤ) : Result RawRegistry := do
  let policies ← PyVal.store registry.policies policy.policyId policy
  let versions ← PyVal.store registry.versions policy.policyId version
  .ok { registry with policies, versions }

def checkPersisted (trustStore : Option TrustStore) (manifest : RawManifest) :
    Result Unit :=
  match trustStore with
  | none => .ok ()
  | some store => do
      let verified ← manifest.verify P store
      raiseIf (verified = false)
        (.valueError (lit "persisted policy manifest signature is invalid or untrusted"))

-- what from_dict makes of an entry: a manifest goes through register_signed
def enter (trustStore : Option TrustStore) (registry : RawRegistry) :
    RegistryEntry → Result RawRegistry
  | .signed manifest => do
      checkPersisted P trustStore manifest
      registry.registerSigned P manifest trustStore
  | .plain policy version => registry.put policy version

-- what _load makes of it: a manifest replaces what there is
def overwrite (trustStore : Option TrustStore) (registry : RawRegistry) :
    RegistryEntry → Result RawRegistry
  | .signed manifest => do
      checkPersisted P trustStore manifest
      let signedManifests ← PyVal.store registry.signedManifests manifest.policy.policyId manifest
      put { registry with signedManifests } manifest.policy manifest.version
  | .plain policy version => registry.put policy version

def entriesOf (message : String) (value : PyVal) : Result (List PyVal) := do
  let invalid := .valueError (lit message)
  let d ← dictOf invalid value
  raiseIf (d.hasOnly ["policies"] = false ∨ d.hasAll ["policies"] = false) invalid
  match d.getD "policies" with
  | .list entries => .ok entries
  | _ => .error (.valueError (lit "policy registry entries must be a list"))

def readEach (step : RawRegistry → RegistryEntry → Result RawRegistry)
    (registry : RawRegistry) (values : List PyVal) : Result RawRegistry :=
  values.foldlM (fun registry value => do
    let entry ← RegistryEntry.read value
    step registry entry) registry

def fromDict (value : PyVal) (trustStore : Option TrustStore) : Result RawRegistry := do
  let values ← entriesOf "policy registry snapshot has an invalid schema" value
  readEach (enter P trustStore) { trustStore } values

def notLoaded : Exc → Bool
  | .builtin .jsonDecodeError => true
  | .custom cls _ _ _ => cls = "OSError"
  | _ => false

-- PolicyRegistry(path, trust_store) for a file that exists; contents is what json.loads of
-- the text read from it gives
def load (contents : Result PyVal) (trustStore : Option TrustStore) : Result RawRegistry := do
  let payload ← reraise notLoaded
    (.valueError (lit "policy registry could not be loaded safely")) contents
  let values ← entriesOf "policy registry has an invalid schema" payload
  readEach (overwrite P trustStore) { trustStore } values

end RawRegistry

-- what the entries of one policy id leave: the last of them, the last manifest, and the last
-- manifest that had no earlier entry of its id to follow or raised the version of it
structure Trail where
  last : Option RegistryEntry := none
  signed : Option RawManifest := none
  kept : Option RawManifest := none

namespace Trail

def advances (trail : Trail) (manifest : RawManifest) : Bool :=
  trail.last.all (fun entry => entry.version < manifest.version)

def note (trail : Trail) : RegistryEntry → Trail
  | .signed manifest =>
      { last := some (.signed manifest)
        signed := some manifest
        kept := if trail.advances manifest = true then some manifest else trail.kept }
  | .plain policy version => { trail with last := some (.plain policy version) }

def of (entries : List RegistryEntry) (policyId : PyVal) : Trail :=
  (entries.filter (fun entry => Keyed.same entry.policyId policyId)).foldl note {}

@[simp]
theorem of_nil (policyId : PyVal) : of [] policyId = {} := rfl

theorem of_snoc (entries : List RegistryEntry) (entry : RegistryEntry) (policyId : PyVal) :
    of (entries ++ [entry]) policyId =
      if Keyed.same entry.policyId policyId = true then (of entries policyId).note entry
      else of entries policyId := by
  rw [of, List.filter_append, List.foldl_append, ← of, List.filter_singleton]
  by_cases hid : Keyed.same entry.policyId policyId = true <;> simp [hid]

@[simp]
theorem note_last (trail : Trail) (entry : RegistryEntry) : (trail.note entry).last = some entry := by
  cases entry <;> rfl

theorem of_congr {policyId policyId' : PyVal} (entries : List RegistryEntry)
    (h : Keyed.same policyId policyId' = true) : of entries policyId = of entries policyId' := by
  rw [of, of]
  refine congrArg _ (List.filter_congr fun entry _ => ?_)
  rw [same_comm, same_congr h, same_comm]

theorem of_eq_empty {entries : List RegistryEntry} {policyId : PyVal}
    (h : ∀ entry ∈ entries, Keyed.same entry.policyId policyId = false) :
    of entries policyId = {} := by
  rw [of, List.filter_eq_nil_iff.mpr (by simpa using h), List.foldl_nil]

theorem of_eq_note {entries : List RegistryEntry} {entry : RegistryEntry}
    (hdistinct : entries.Pairwise (fun a b => Keyed.same a.policyId b.policyId = false))
    (hmem : entry ∈ entries) (hhashable : entry.policyId.hashable = true) :
    of entries entry.policyId = ({} : Trail).note entry := by
  induction entries using List.reverseRecOn with
  | nil => cases hmem
  | append_singleton entries last ih =>
      obtain ⟨hentries, -, hapart⟩ := List.pairwise_append.mp hdistinct
      have hfresh : ∀ other ∈ entries, Keyed.same other.policyId last.policyId = false :=
        fun other hother => hapart other hother last (List.mem_singleton.mpr rfl)
      rw [of_snoc]
      rcases List.mem_append.mp hmem with hmem | hmem
      · have hlast := hfresh entry hmem
        rw [same_comm] at hlast
        rw [hlast, if_neg Bool.false_ne_true, ih hentries hmem]
      · obtain rfl := List.mem_singleton.mp hmem
        rw [if_pos (PyVal.same_self.trans hhashable), of_eq_empty hfresh]

end Trail

namespace RegistryEntry

-- the policies of the entries under their ids, a later one in the place of an earlier one
def filed (entries : List RegistryEntry) : List (PyVal × RawPolicy) :=
  Dict.update [] (entries.map (fun entry => (entry.policyId, entry.policy)))

theorem filed_snoc (entries : List RegistryEntry) (entry : RegistryEntry) :
    filed (entries ++ [entry]) = Dict.set (filed entries) entry.policyId entry.policy := by
  rw [filed, Dict.update, List.map_append, List.foldl_append]
  rfl

variable (P : Primitives)

-- a manifest is entered under a trust store that verifies it
def Backed (trustStore : Option TrustStore) (manifest : RawManifest) : Prop :=
  ∃ store, trustStore = some store ∧ manifest.Verified P store

def Precedes (trail : Trail) (manifest : RawManifest) : Prop :=
  ∀ entry, trail.last = some entry →
    entry.policy.SameDigest P manifest.policy ∧ entry.version ≤ manifest.version

-- every manifest has the digest of the entry of its id before it, and no lower version
def Successive (entries : List RegistryEntry) : Prop :=
  ∀ before manifest after, entries = before ++ .signed manifest :: after →
    Precedes P (Trail.of before manifest.policy.policyId) manifest

variable {P}

theorem successive_nil : Successive P [] := by
  intro before manifest after h
  simp at h

theorem successive_snoc {entries : List RegistryEntry} {entry : RegistryEntry} :
    Successive P (entries ++ [entry]) ↔ Successive P entries ∧
      ∀ manifest, entry = .signed manifest →
        Precedes P (Trail.of entries manifest.policy.policyId) manifest := by
  constructor
  · intro h
    refine ⟨fun before manifest after hentries => ?_, fun manifest hentry => ?_⟩
    · exact h before manifest (after ++ [entry]) (by simp [hentries])
    · exact h entries manifest [] (by rw [hentry])
  · rintro ⟨h, hlast⟩ before manifest after hentries
    rcases List.eq_nil_or_concat after with rfl | ⟨after', last, rfl⟩
    · obtain ⟨rfl, hentry⟩ := List.append_inj' hentries rfl
      exact hlast manifest (List.singleton_inj.mp hentry)
    · refine h before manifest after' ?_
      rw [List.concat_eq_append, ← List.cons_append, ← List.append_assoc] at hentries
      exact (List.append_inj' hentries rfl).1

end RegistryEntry

namespace RawRegistry

variable {P : Primitives} {trustStore : Option TrustStore} {registry registry' : RawRegistry}
  {entries : List RegistryEntry} {entry : RegistryEntry}

theorem readEach_eq_ok {step : RawRegistry → RegistryEntry → Result RawRegistry}
    {values : List PyVal} : readEach step registry values = .ok registry' ↔
      ∃ entries, values.mapM RegistryEntry.read = .ok entries ∧
        entries.foldlM step registry = .ok registry' := by
  induction values generalizing registry with
  | nil =>
      constructor
      · intro h
        exact ⟨[], rfl, h⟩
      · rintro ⟨entries, hentries, h⟩
        obtain rfl := Except.ok.inj hentries
        exact h
  | cons value values ih =>
      have hcons : readEach step registry (value :: values) =
          ((RegistryEntry.read value >>= step registry) >>= fun r => readEach step r values) := rfl
      rw [hcons, bind_eq_ok]
      simp only [ih, List.mapM_cons, bind_eq_ok]
      constructor
      · rintro ⟨middle, ⟨entry, hentry, hstep⟩, entries, hentries, h⟩
        refine ⟨entry :: entries, ⟨entry, hentry, entries, hentries, rfl⟩, ?_⟩
        rw [List.foldlM_cons, bind_eq_ok]
        exact ⟨middle, hstep, h⟩
      · rintro ⟨all, ⟨entry, hentry, entries, hentries, hall⟩, h⟩
        obtain rfl := Except.ok.inj hall
        rw [List.foldlM_cons, bind_eq_ok] at h
        obtain ⟨middle, hstep, h⟩ := h
        exact ⟨middle, ⟨entry, hentry, hstep⟩, entries, hentries, h⟩

theorem foldlM_snoc {step : RawRegistry → RegistryEntry → Result RawRegistry} :
    (entries ++ [entry]).foldlM step registry = .ok registry' ↔
      ∃ middle, entries.foldlM step registry = .ok middle ∧ step middle entry = .ok registry' := by
  rw [List.foldlM_append, bind_eq_ok]
  simp

-- what a registry holds after the entries, where kept says which manifest of a trail stays
structure Reads (P : Primitives) (kept : Trail → Option RawManifest)
    (entries : List RegistryEntry) (registry : RawRegistry) : Prop where
  policies : ∀ policyId, (Dict.get registry.policies policyId).map (RawPolicy.content P) =
    (Trail.of entries policyId).last.map (fun entry => entry.policy.content P)
  versions : ∀ policyId, Dict.get registry.versions policyId =
    (Trail.of entries policyId).last.map RegistryEntry.version
  signedManifests : ∀ policyId, Dict.get registry.signedManifests policyId =
    kept (Trail.of entries policyId)
  keys : registry.policies.map Prod.fst = (RegistryEntry.filed entries).map Prod.fst

theorem reads_nil {kept : Trail → Option RawManifest} (hkept : kept {} = none) :
    Reads P kept [] { trustStore := trustStore } where
  policies _ := rfl
  versions _ := rfl
  signedManifests _ := hkept.symm
  keys := rfl

end RawRegistry

end GovernedAutonomy
