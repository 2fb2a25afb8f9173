import GovernedAutonomy.Loaders
import GovernedAutonomy.Protocol.Calls

namespace GovernedAutonomy

open Python RegistryEntry GovernanceReconciler

theorem RawManifest.sameDigest_self {P : Primitives} {manifest : RawManifest}
    {store : TrustStore} (h : manifest.Verified P store) :
    manifest.policy.SameDigest P manifest.policy := by
  obtain ⟨key, payload, -, hpayload, -⟩ := h.signed
  have hencodable := (canonicalJson_isOk P).mp ⟨payload, hpayload⟩
  have hpolicy : (PyVal.dict manifest.policy.toDict).Encodable (P.recursionLimit - 1) :=
    hencodable.of_get (show PyDict.get _ (lit "policy") = some _ by simp)
  obtain ⟨digest, hdigest⟩ := (canonicalDigest_isOk P).mpr (hpolicy.mono (Nat.sub_le _ _))
  exact ⟨digest, hdigest, hdigest⟩

-- a call gets policies that __post_init__ has passed
inductive RegistryCall where
  | register (policy : RawPolicy) (h : policy.Valid)
  | registerSigned (manifest : RawManifest) (h : manifest.policy.Valid)
      (trustStore : Option TrustStore)
  | fromDict (value : PyVal)
  | load (contents : Result PyVal)

namespace RawRegistry

variable (P : Primitives) (trustStore store : Option TrustStore) (registry : RawRegistry)

def perform : RegistryCall → Result RawRegistry
  | .register policy _ => registry.register P policy
  | .registerSigned manifest _ trustStore => registry.registerSigned P manifest trustStore
  | .fromDict value => fromDict P value trustStore
  | .load contents => load P contents trustStore

-- a call that raises leaves the registry that was there
def step (call : RegistryCall) : RawRegistry :=
  match registry.perform P trustStore call with
  | .ok registry' => registry'
  | .error _ => registry

def Reports (policyId : PyVal) (manifest : RawManifest) : Prop :=
  ∃ policy, Dict.get registry.policies policyId = some policy ∧
    policy.SameDigest P manifest.policy ∧
    Dict.get registry.versions policyId = some manifest.version

structure Coherent : Prop where
  signedManifests : ∀ policyId manifest,
    Dict.get registry.signedManifests policyId = some manifest →
      registry.Reports P policyId manifest
  versions : ∀ policyId, Dict.has registry.policies policyId = true →
    Dict.has registry.versions policyId = true
  reloads : ∃ d registry', registry.toDict = .ok d ∧
    fromDict P (.dict d) store = .ok registry' ∧ SameContents P registry registry'

-- a manifest that from_dict takes back under the trust store
structure Restorable (manifest : RawManifest) : Prop where
  issuerKeyId : manifest.issuerKeyId ≠ []
  signature : manifest.signature ≠ []
  backed : Backed P store manifest

-- the last entry of the id has the digest and the version of a manifest that stays
structure Lasting (entries : List RegistryEntry) (policyId : PyVal)
    (manifest : RawManifest) : Prop where
  restorable : Restorable P store manifest
  last : ∃ entry, (Trail.of entries policyId).last = some entry ∧
    entry.policy.SameDigest P manifest.policy ∧ entry.version = manifest.version

-- the manifests that the entries leave last, and their ids can be sorted
structure Lasts (kept : Trail → Option RawManifest) (entries : List RegistryEntry) : Prop where
  manifests : ∀ policyId manifest, kept (Trail.of entries policyId) = some manifest →
    Lasting P store entries policyId manifest
  sortable : PyVal.Sortable ((filed entries).map Prod.fst)

def Admits : RegistryCall → Prop
  | .register policy _ => policy.policyId.hashable = true →
      PyVal.Sortable ((Dict.set registry.policies policy.policyId policy).map Prod.fst)
  | .registerSigned manifest _ trustStore =>
      Verifies P registry manifest trustStore → manifest.policy.policyId.hashable = true →
        (∀ current, Dict.get registry.policies manifest.policy.policyId = some current →
          current.SameDigest P manifest.policy ∧
            registry.version manifest.policy.policyId < manifest.version) →
          Restorable P store manifest ∧ PyVal.Sortable
            ((Dict.set registry.policies manifest.policy.policyId manifest.policy).map Prod.fst)
  | .fromDict value => ∀ entries, Decodes value entries → Enters P trustStore entries →
      Lasts P store Trail.kept entries
  | .load contents => ∀ value entries, contents = .ok value → Decodes value entries →
      Passes P trustStore entries → Lasts P store Trail.signed entries

-- what holds of every registry, whatever the payloads were
structure Sound : Prop where
  policies : ∀ policyId policy, Dict.get registry.policies policyId = some policy →
    policy.Valid ∧ Keyed.same policy.policyId policyId = true
  signedManifests : ∀ policyId manifest,
    Dict.get registry.signedManifests policyId = some manifest →
      manifest.policy.Valid ∧ Keyed.same manifest.policy.policyId policyId = true
  versioned : registry.Versioned
  positive : ∀ policyId version, Dict.get registry.signedManifests policyId = none →
    Dict.get registry.versions policyId = some version → 0 < version
  distinct : Dict.Distinct registry.policies
  hashable : ∀ m ∈ registry.policies, m.1.hashable = true

structure Holding : Prop where
  manifests : ∀ policyId manifest, Dict.get registry.signedManifests policyId = some manifest →
    registry.Reports P policyId manifest ∧ Restorable P store manifest
  sortable : PyVal.Sortable (registry.policies.map Prod.fst)

section Soundness

variable {P : Primitives} {trustStore store : Option TrustStore}
  {registry registry' : RawRegistry} {manifest : RawManifest}

theorem sound_empty : Sound { trustStore := trustStore } where
  policies _ _ h := by cases h
  signedManifests _ _ h := by cases h
  versioned _ := rfl
  positive _ _ _ h := by cases h
  distinct := List.Pairwise.nil
  hashable _ h := by cases h

theorem hashable_set {V : Type} {d : List (PyVal × V)} {key : PyVal} {v : V}
    (h : ∀ m ∈ d, m.1.hashable = true) (hkey : key.hashable = true) :
    ∀ m ∈ Dict.set d key v, m.1.hashable = true := by
  intro m hm
  rcases Dict.mem_set hm with hm | ⟨-, hm | ⟨w, hw⟩⟩
  · exact h m hm
  · rwa [hm]
  · exact h (m.1, w) hw

theorem Versioned.register {policy : RawPolicy} (h : registry.Versioned)
    (hregister : registry.register P policy = .ok registry') : registry'.Versioned := by
  obtain ⟨-, -, rfl⟩ := register_eq_ok.mp hregister
  intro policyId
  simp only [Dict.has_set]
  split
  · rename_i hhas
    cases hid : Keyed.same policy.policyId policyId with
    | false => rw [Bool.false_or, h policyId]
    | true => rw [Bool.true_or, Dict.has, ← Dict.get_congr _ hid, ← Dict.has, hhas]
  · rw [Dict.has_set, h policyId]

theorem Sound.register {policy : RawPolicy} (h : registry.Sound) (hvalid : policy.Valid)
    (hregister : registry.register P policy = .ok registry') : registry'.Sound := by
  have hversioned : registry'.Versioned := h.versioned.register hregister
  obtain ⟨hhashable, -, rfl⟩ := register_eq_ok.mp hregister
  refine ⟨fun policyId policy' hget => ?_, h.signedManifests, hversioned, ?_,
    Dict.distinct_set h.distinct _ _, hashable_set h.hashable hhashable⟩
  · rw [Dict.get_set] at hget
    split at hget
    · rename_i hid
      exact Option.some.inj hget ▸ ⟨hvalid, hid⟩
    · exact h.policies policyId policy' hget
  · intro policyId version hsigned hget
    simp only at hget
    split at hget
    · exact h.positive policyId version hsigned hget
    · rw [Dict.get_set] at hget
      split at hget
      · exact Option.some.inj hget ▸ Int.one_pos
      · exact h.positive policyId version hsigned hget

theorem Sound.put {policy : RawPolicy} {version : ℤ} (h : registry.Sound) (hvalid : policy.Valid)
    (hversion : 0 < version) (hput : registry.put policy version = .ok registry') :
    registry'.Sound := by
  obtain ⟨hhashable, rfl⟩ := put_eq_ok.mp hput
  refine ⟨fun policyId policy' hget => ?_, h.signedManifests, fun policyId => ?_, ?_,
    Dict.distinct_set h.distinct _ _, hashable_set h.hashable hhashable⟩
  · rw [Dict.get_set] at hget
    split at hget
    · rename_i hid
      exact Option.some.inj hget ▸ ⟨hvalid, hid⟩
    · exact h.policies policyId policy' hget
  · simp only [Dict.has_set, h.versioned policyId]
  · intro policyId version' hsigned hget
    rw [Dict.get_set] at hget
    split at hget
    · exact Option.some.inj hget ▸ hversion
    · exact h.positive policyId version' hsigned hget

theorem Sound.replaced (h : registry.Sound) (hvalid : manifest.policy.Valid)
    (hhashable : manifest.policy.policyId.hashable = true)
    (hpolicies : registry'.policies =
      Dict.set registry.policies manifest.policy.policyId manifest.policy)
    (hversions : ∀ policyId, Dict.get registry'.versions policyId =
      if Keyed.same manifest.policy.policyId policyId = true then some manifest.version
      else Dict.get registry.versions policyId)
    (hsigned : registry'.signedManifests =
      Dict.set registry.signedManifests manifest.policy.policyId manifest) : registry'.Sound := by
  refine ⟨fun policyId policy hget => ?_, fun policyId manifest' hget => ?_, fun policyId => ?_,
    fun policyId version hnone hget => ?_, hpolicies ▸ Dict.distinct_set h.distinct _ _,
    hpolicies ▸ hashable_set h.hashable hhashable⟩
  · rw [hpolicies, Dict.get_set] at hget
    split at hget
    · rename_i hid
      exact Option.some.inj hget ▸ ⟨hvalid, hid⟩
    · exact h.policies policyId policy hget
  · rw [hsigned, Dict.get_set] at hget
    split at hget
    · rename_i hid
      exact Option.some.inj hget ▸ ⟨hvalid, hid⟩
    · exact h.signedManifests policyId manifest' hget
  · rw [hpolicies, Dict.has_set, h.versioned policyId, Dict.has, Dict.has, hversions]
    split
    · rename_i hid
      simp [hid]
    · rename_i hid
      simp [hid]
  · rw [hsigned, Dict.get_set] at hnone
    rw [hversions] at hget
    split at hnone
    · cases hnone
    · rename_i hid
      rw [if_neg hid] at hget
      exact h.positive policyId version hnone hget

theorem Sound.accepted (h : registry.Sound) (hvalid : manifest.policy.Valid)
    (haccepted : Accepted P registry registry' manifest) : registry'.Sound := by
  have hadopted (hadopts : Adopts P registry registry' manifest) : registry'.Sound :=
    h.replaced hvalid hadopts.hashable hadopts.policies hadopts.versions hadopts.signedManifests
  cases haccepted with
  | unknown _ hadopt => exact hadopted (adopts_of_adopt hadopt)
  | newer _ _ hadopt => exact hadopted (adopts_of_adopt hadopt)
  | idempotent _ _ _ heq => exact heq ▸ h

theorem foldlM_keeps {A : RawRegistry → Prop} {entries : List RegistryEntry}
    {step : RawRegistry → RegistryEntry → Result RawRegistry}
    (hstep : ∀ registry entry registry', entry ∈ entries → A registry →
      step registry entry = .ok registry' → A registry')
    (hstart : A registry) (h : entries.foldlM step registry = .ok registry') : A registry' := by
  induction entries generalizing registry with
  | nil => exact Except.ok.inj h ▸ hstart
  | cons entry entries ih =>
      rw [List.foldlM_cons, bind_eq_ok] at h
      obtain ⟨middle, hmiddle, hrest⟩ := h
      have hkeeps := hstep registry entry middle List.mem_cons_self hstart hmiddle
      exact ih (fun r e r' he => hstep r e r' (List.mem_cons_of_mem entry he)) hkeeps hrest

theorem valid_of_decodes {value : PyVal} {entries : List RegistryEntry}
    (h : Decodes value entries) {entry : RegistryEntry} (hmem : entry ∈ entries) :
    entry.policy.Valid ∧ ∀ policy version, entry = .plain policy version → 0 < version := by
  obtain ⟨d, values, -, -, -, -, hread⟩ := h
  obtain ⟨value, -, hvalue⟩ := mem_of_mapM_eq_ok hread hmem
  exact valid_of_read hvalue

theorem sound_fromDict {value : PyVal} (h : fromDict P value trustStore = .ok registry) :
    registry.Sound := by
  obtain ⟨entries, hdecodes, hentered⟩ := fromDict_eq_ok.mp h
  refine foldlM_keeps (fun registry entry registry' hmem hsound hentry => ?_) sound_empty hentered
  obtain ⟨hvalid, hversion⟩ := valid_of_decodes hdecodes hmem
  cases entry with
  | plain policy version =>
      exact hsound.put hvalid (hversion policy version rfl) hentry
  | signed manifest =>
      obtain ⟨checked, -, hsigned⟩ := bind_eq_ok.mp hentry
      exact hsound.accepted hvalid (registerSigned_eq_ok.mp hsigned).2

theorem contents_of_load {contents : Result PyVal}
    (h : load P contents trustStore = .ok registry) : ∃ value, contents = .ok value := by
  obtain ⟨value, hvalue, -⟩ := bind_eq_ok.mp h
  exact ⟨value, reraise_eq_ok.mp hvalue⟩

theorem sound_load {contents : Result PyVal} (h : load P contents trustStore = .ok registry) :
    registry.Sound := by
  obtain ⟨value, rfl⟩ := contents_of_load h
  obtain ⟨entries, hdecodes, hwritten⟩ := load_eq_ok.mp h
  refine foldlM_keeps (fun registry entry registry' hmem hsound hentry => ?_) sound_empty hwritten
  obtain ⟨hvalid, hversion⟩ := valid_of_decodes hdecodes hmem
  cases entry with
  | plain policy version =>
      exact hsound.put hvalid (hversion policy version rfl) hentry
  | signed manifest =>
      obtain ⟨-, hhashable, rfl⟩ := overwrite_signed_eq_ok.mp hentry
      exact hsound.replaced hvalid hhashable rfl (fun policyId => Dict.get_set _ _ _ _) rfl

theorem sound_step {call : RegistryCall} (h : registry.Sound) :
    (registry.step P trustStore call).Sound := by
  unfold step
  split
  · rename_i registry' hperform
    cases call with
    | register policy hvalid => exact h.register hvalid hperform
    | registerSigned manifest hvalid =>
        exact h.accepted hvalid (registerSigned_eq_ok.mp hperform).2
    | fromDict value => exact sound_fromDict hperform
    | load contents => exact sound_load hperform
  · exact h

end Soundness

section Reloading

variable {P : Primitives} {trustStore store : Option TrustStore}
  {registry registry' : RawRegistry} {manifest : RawManifest} {policyId : PyVal}
  {items : List (PyVal × RawPolicy)}

theorem Sound.get_of_mem (h : registry.Sound) {m : PyVal × RawPolicy}
    (hmem : m ∈ registry.policies) : Dict.get registry.policies m.1 = some m.2 :=
  Dict.get_of_mem h.distinct hmem (PyVal.same_self.trans (h.hashable m hmem))

theorem Sound.exists_version (h : registry.Sound) {policy : RawPolicy}
    (hget : Dict.get registry.policies policyId = some policy) :
    ∃ version, Dict.get registry.versions policyId = some version := by
  have hhas := h.versioned policyId
  rw [Dict.has, Dict.has, hget] at hhas
  exact Option.isSome_iff_exists.mp hhas.symm

theorem mem_of_listed (hitems : registry.listed = .ok items) {m : PyVal × RawPolicy} :
    m ∈ items ↔ m ∈ registry.policies :=
  (PyVal.sortedByKey_perm hitems).mem_iff

-- the entry that to_dict writes for a registered policy, as it is read back
def written (registry : RawRegistry) (m : PyVal × RawPolicy) : RegistryEntry :=
  match Dict.get registry.signedManifests m.1 with
  | some manifest => .signed manifest.sorted
  | none => .plain m.2.sorted ((Dict.get registry.versions m.1).getD 1)

theorem written_policyId (h : registry.Sound) {m : PyVal × RawPolicy}
    (hmem : m ∈ registry.policies) :
    Keyed.same (registry.written m).policyId m.1 = true := by
  unfold written
  split
  · rename_i manifest hsigned
    exact (h.signedManifests _ _ hsigned).2
  · exact (h.policies _ _ (h.get_of_mem hmem)).2

theorem read_written (h : registry.Sound) (hholding : registry.Holding P store)
    {m : PyVal × RawPolicy} (hmem : m ∈ registry.policies) :
    RegistryEntry.read (registry.entry m).2 = .ok (registry.written m) := by
  unfold entry written
  cases hsigned : Dict.get registry.signedManifests m.1 with
  | some manifest =>
      obtain ⟨-, hrestorable⟩ := hholding.manifests m.1 manifest hsigned
      exact read_signed (h.signedManifests _ _ hsigned).1 hrestorable.issuerKeyId
        hrestorable.signature
  | none =>
      obtain ⟨version, hversion⟩ := h.exists_version (h.get_of_mem hmem)
      simp only [hversion, Option.getD_some]
      exact read_plain (h.policies _ _ (h.get_of_mem hmem)).1 (h.positive _ _ hsigned hversion)

def entries (registry : RawRegistry) (items : List (PyVal × RawPolicy)) : List RegistryEntry :=
  items.map registry.written

theorem toDict_listed (hitems : registry.listed = .ok items) : registry.toDict =
    .ok (PyDict.ofFields [("policies", .list (items.map (fun m => (registry.entry m).2)))]) := by
  rw [toDict, hitems]
  rfl

theorem listed_of_toDict {d : PyDict} (h : registry.toDict = .ok d) : ∃ items,
    registry.listed = .ok items ∧
      d = PyDict.ofFields [("policies", .list (items.map (fun m => (registry.entry m).2)))] := by
  obtain ⟨items, hitems, h⟩ := bind_eq_ok.mp h
  exact ⟨items, hitems, (Except.ok.inj h).symm⟩

theorem decodes_toDict (h : registry.Sound) (hholding : registry.Holding P store)
    (hitems : registry.listed = .ok items) :
    Decodes (.dict (PyDict.ofFields
      [("policies", .list (items.map (fun m => (registry.entry m).2)))])) (registry.entries items) :=
  decodes_snapshot (mapM_map_eq_ok fun _ hm =>
    read_written h hholding ((mem_of_listed hitems).mp hm))

theorem pairwise_entries (h : registry.Sound) (hitems : registry.listed = .ok items) :
    (registry.entries items).Pairwise (fun a b => Keyed.same a.policyId b.policyId = false) := by
  have hdistinct : Dict.Distinct items :=
    (PyVal.sortedByKey_perm hitems).symm.pairwise h.distinct (fun hab => by rwa [same_comm])
  refine List.pairwise_map.mpr (List.Pairwise.imp_of_mem ?_ hdistinct)
  intro m m' hm hm' hne
  have hid := written_policyId h ((mem_of_listed hitems).mp hm)
  have hid' := written_policyId h ((mem_of_listed hitems).mp hm')
  rw [same_congr hid, same_comm, same_congr hid', same_comm, hne]

theorem signed_of_mem_entries {manifest : RawManifest}
    (hmem : .signed manifest ∈ registry.entries items) : ∃ policyId manifest',
      Dict.get registry.signedManifests policyId = some manifest' ∧
        manifest = manifest'.sorted := by
  obtain ⟨m, -, hwritten⟩ := List.mem_map.mp hmem
  unfold written at hwritten
  split at hwritten
  · rename_i manifest' hsigned
    exact ⟨m.1, manifest', hsigned, (RegistryEntry.signed.inj hwritten).symm⟩
  · cases hwritten

theorem backed_sorted :
    Backed P store manifest.sorted ↔ Backed P store manifest := by
  simp only [Backed, ← RawManifest.verify_eq_ok, RawManifest.sorted_verify]

theorem sorted_record (P : Primitives) (manifest : RawManifest) :
    manifest.sorted.record P = manifest.record P := by
  simp only [RawManifest.record, RawManifest.sorted, RawPolicy.sorted_content]

-- one entry for an id has no entry of its id to follow
theorem successive_of_pairwise {entries : List RegistryEntry}
    (h : entries.Pairwise (fun a b => Keyed.same a.policyId b.policyId = false)) :
    Successive P entries := by
  intro before manifest after hentries entry hlast
  have hempty : Trail.of before manifest.policy.policyId = {} := by
    refine Trail.of_eq_empty fun other hother => ?_
    rw [hentries] at h
    exact (List.pairwise_append.mp h).2.2 other hother (.signed manifest) List.mem_cons_self
  rw [hempty] at hlast
  cases hlast

theorem enters_entries (h : registry.Sound) (hholding : registry.Holding P store)
    (hitems : registry.listed = .ok items) : Enters P store (registry.entries items) := by
  refine ⟨fun entry hmem => ?_, fun manifest hmem => ?_,
    successive_of_pairwise (pairwise_entries h hitems)⟩
  · obtain ⟨m, hm, rfl⟩ := List.mem_map.mp hmem
    exact (PyVal.hashable_of_same (written_policyId h ((mem_of_listed hitems).mp hm))).1
  · obtain ⟨policyId, manifest', hsigned, rfl⟩ := signed_of_mem_entries hmem
    exact backed_sorted.mpr (hholding.manifests policyId manifest' hsigned).2.backed

theorem trail_entries (h : registry.Sound) (hitems : registry.listed = .ok items)
    {m : PyVal × RawPolicy} (hmem : m ∈ registry.policies)
    (hid : Keyed.same m.1 policyId = true) :
    Trail.of (registry.entries items) policyId = ({} : Trail).note (registry.written m) := by
  have hwritten : registry.written m ∈ registry.entries items :=
    List.mem_map_of_mem ((mem_of_listed hitems).mpr hmem)
  have hsame := written_policyId h hmem
  rw [← Trail.of_congr _ (Keyed.same_trans hsame hid)]
  exact Trail.of_eq_note (pairwise_entries h hitems) hwritten (PyVal.hashable_of_same hsame).1

theorem trail_entries_none (h : registry.Sound) (hitems : registry.listed = .ok items)
    (hget : Dict.get registry.policies policyId = none) :
    Trail.of (registry.entries items) policyId = {} := by
  refine Trail.of_eq_empty fun entry hentry => ?_
  obtain ⟨m, hm, rfl⟩ := List.mem_map.mp hentry
  have hmem := (mem_of_listed hitems).mp hm
  rw [same_congr (written_policyId h hmem)]
  exact Dict.get_eq_none.mp hget m hmem

theorem sameContents_of_reads (h : registry.Sound) (hholding : registry.Holding P store)
    (hitems : registry.listed = .ok items)
    (hreads : Reads P Trail.kept (registry.entries items) registry') :
    SameContents P registry registry' := by
  have hid : ∀ policyId,
      (Dict.get registry.policies policyId).map (RawPolicy.content P) =
        (Dict.get registry'.policies policyId).map (RawPolicy.content P) ∧
      Dict.get registry.versions policyId = Dict.get registry'.versions policyId ∧
      (Dict.get registry.signedManifests policyId).map (RawManifest.record P) =
        (Dict.get registry'.signedManifests policyId).map (RawManifest.record P) := by
    intro policyId
    rw [hreads.policies, hreads.versions, hreads.signedManifests]
    cases hget : Dict.get registry.policies policyId with
    | none =>
        rw [trail_entries_none h hitems hget]
        refine ⟨rfl, ?_, ?_⟩
        · have hhas := h.versioned policyId
          rw [Dict.has, Dict.has, hget] at hhas
          simpa using hhas.symm
        · cases hsigned : Dict.get registry.signedManifests policyId with
          | none => rfl
          | some manifest =>
              obtain ⟨⟨policy, hpolicy, -⟩, -⟩ := hholding.manifests policyId manifest hsigned
              rw [hget] at hpolicy
              cases hpolicy
    | some policy =>
        obtain ⟨key, hmem, hsame⟩ := Dict.get_eq_some hget
        rw [trail_entries h hitems hmem hsame, written, Dict.get_congr registry.signedManifests hsame,
          Dict.get_congr registry.versions hsame]
        cases hsigned : Dict.get registry.signedManifests policyId with
        | none =>
            obtain ⟨version, hversion⟩ := h.exists_version hget
            rw [hversion]
            exact ⟨congrArg some (RawPolicy.sorted_content P policy).symm, rfl, rfl⟩
        | some manifest =>
            obtain ⟨⟨policy', hpolicy, hdigest, hversion⟩, -⟩ :=
              hholding.manifests policyId manifest hsigned
            obtain rfl := Option.some.inj (hget.symm.trans hpolicy)
            refine ⟨congrArg some ?_, hversion, congrArg some (sorted_record P manifest).symm⟩
            exact (RawPolicy.content_of_sameDigest hdigest).trans
              (RawPolicy.sorted_content P manifest.policy).symm
  exact ⟨fun policyId => (hid policyId).1, fun policyId => (hid policyId).2.1,
    fun policyId => (hid policyId).2.2⟩

theorem restorable_of_reloads (h : registry.Sound)
    (hsigned : Dict.get registry.signedManifests policyId = some manifest) {policy : RawPolicy}
    (hpolicy : Dict.get registry.policies policyId = some policy) {d : PyDict}
    (hd : registry.toDict = .ok d) (hreload : fromDict P (.dict d) store = .ok registry') :
    Restorable P store manifest := by
  obtain ⟨items, hitems, rfl⟩ := listed_of_toDict hd
  obtain ⟨entries, hdecodes, -⟩ := fromDict_eq_ok.mp hreload
  obtain ⟨henters, -⟩ := fromDict_reads hdecodes hreload
  obtain ⟨d, values, hd, -, -, hvalues, hread⟩ := hdecodes
  obtain rfl := PyVal.dict.inj hd
  have hlist (value : PyVal) :
      PyDict.getD (PyDict.ofFields [("policies", value)]) (lit "policies") = value :=
    PyDict.getD_of_get (by simp)
  rw [hlist] at hvalues
  obtain rfl := PyVal.list.inj hvalues
  obtain ⟨key, hmem, hsame⟩ := Dict.get_eq_some hpolicy
  have hentry : (registry.entry (key, policy)).2 = .dict manifest.toDict := by
    simp only [RawRegistry.entry, Dict.get_congr registry.signedManifests hsame, hsigned]
  obtain ⟨entry, hentries, hmanifest⟩ := of_mapM_eq_ok hread
    (List.mem_map_of_mem ((mem_of_listed hitems).mpr hmem))
  rw [hentry] at hmanifest
  obtain ⟨hissuer, hsignature⟩ := named_of_read hmanifest
  rw [read_signed (h.signedManifests _ _ hsigned).1 hissuer hsignature] at hmanifest
  obtain rfl := Except.ok.inj hmanifest
  exact ⟨hissuer, hsignature, backed_sorted.mp (henters.backed _ hentries)⟩

theorem coherent_iff (h : registry.Sound) :
    registry.Coherent P store ↔ registry.Holding P store := by
  constructor
  · intro hcoherent
    obtain ⟨d, registry', hd, hreload, -⟩ := hcoherent.reloads
    obtain ⟨items, hitems, -⟩ := listed_of_toDict hd
    refine ⟨fun policyId manifest hsigned => ?_, PyVal.sortable_iff.mpr ⟨items, hitems⟩⟩
    have hreports := hcoherent.signedManifests policyId manifest hsigned
    obtain ⟨policy, hpolicy, -⟩ := id hreports
    exact ⟨hreports, restorable_of_reloads h hsigned hpolicy hd hreload⟩
  · intro hholding
    obtain ⟨items, hitems⟩ : ∃ items, registry.listed = .ok items :=
      PyVal.sortable_iff.mp hholding.sortable
    obtain ⟨registry', hreload⟩ := fromDict_of_enters (decodes_toDict h hholding hitems)
      (enters_entries h hholding hitems)
    obtain ⟨-, hreads⟩ := fromDict_reads (decodes_toDict h hholding hitems) hreload
    exact
      { signedManifests := fun policyId manifest hsigned =>
          (hholding.manifests policyId manifest hsigned).1
        versions := fun policyId hhas => h.versioned policyId ▸ hhas
        reloads := ⟨_, registry', toDict_listed hitems, hreload,
          sameContents_of_reads h hholding hitems hreads⟩ }

end Reloading

section Steps

variable {P : Primitives} {trustStore store : Option TrustStore}
  {registry registry' : RawRegistry} {manifest : RawManifest}

theorem Reports.frame {policyId : PyVal} (h : registry.Reports P policyId manifest)
    (hpolicies : Dict.get registry'.policies policyId = Dict.get registry.policies policyId)
    (hversions : Dict.get registry'.versions policyId = Dict.get registry.versions policyId) :
    registry'.Reports P policyId manifest := by
  rwa [Reports, hpolicies, hversions]

theorem holding_registered {policy : RawPolicy} (h : registry.Holding P store)
    (hregister : registry.register P policy = .ok registry') :
    registry'.Holding P store ↔
      PyVal.Sortable ((Dict.set registry.policies policy.policyId policy).map Prod.fst) := by
  obtain ⟨-, hsame, rfl⟩ := register_eq_ok.mp hregister
  refine ⟨fun hholding => hholding.sortable, fun hsortable => ⟨?_, hsortable⟩⟩
  intro policyId manifest hsigned
  obtain ⟨hreports, hrestorable⟩ := h.manifests policyId manifest hsigned
  refine ⟨?_, hrestorable⟩
  by_cases hid : Keyed.same policy.policyId policyId = true
  · obtain ⟨existing, hexisting, ⟨digest, hdigest, hmanifest⟩, hversion⟩ := hreports
    obtain ⟨digest', hdigest', hoffered⟩ := hsame existing ((Dict.get_congr _ hid).trans hexisting)
    rw [hdigest] at hdigest'
    obtain rfl := Except.ok.inj hdigest'
    have hhas : Dict.has registry.versions policy.policyId = true := by
      rw [Dict.has, Dict.get_congr _ hid, hversion, Option.isSome_some]
    refine ⟨policy, ?_, ⟨digest, hoffered, hmanifest⟩, ?_⟩
    · rw [Dict.get_set, if_pos hid]
    · simpa only [if_pos hhas] using hversion
  · refine hreports.frame ?_ ?_
    · rw [Dict.get_set, if_neg hid]
    · simp only
      split
      · rfl
      · rw [Dict.get_set, if_neg hid]

theorem holding_register {policy : RawPolicy} {hvalid : policy.Valid}
    (h : registry.Holding P store) :
    (registry.step P trustStore (.register policy hvalid)).Holding P store ↔
      registry.Admits P trustStore store (.register policy hvalid) := by
  unfold step
  split
  · rename_i registry' hperform
    rw [holding_registered h hperform, Admits, imp_iff_right (register_eq_ok.mp hperform).1]
  · rename_i e hperform
    refine iff_of_true h fun hhashable => ?_
    cases hget : Dict.get registry.policies policy.policyId with
    | none =>
        obtain ⟨registry', hregister⟩ : ∃ registry', registry.register P policy = .ok registry' :=
          ⟨_, register_eq_ok.mpr ⟨hhashable, by simp [hget], rfl⟩⟩
        rw [perform, hregister] at hperform
        cases hperform
    | some existing =>
        rw [Dict.keys_set_of_has (by rw [Dict.has, hget, Option.isSome_some])]
        exact h.sortable

theorem holding_adopts (h : registry.Holding P store)
    (hadopts : Adopts P registry registry' manifest)
    (hsame : manifest.policy.SameDigest P manifest.policy) :
    registry'.Holding P store ↔ Restorable P store manifest ∧ PyVal.Sortable
      ((Dict.set registry.policies manifest.policy.policyId manifest.policy).map Prod.fst) := by
  constructor
  · intro hholding
    refine ⟨(hholding.manifests manifest.policy.policyId manifest ?_).2,
      hadopts.policies ▸ hholding.sortable⟩
    rw [hadopts.signedManifests, Dict.get_set, if_pos hadopts.same_self]
  · rintro ⟨hrestorable, hsortable⟩
    refine ⟨fun policyId manifest' hsigned => ?_, hadopts.policies ▸ hsortable⟩
    rw [hadopts.signedManifests, Dict.get_set] at hsigned
    split at hsigned
    · rename_i hid
      obtain rfl := Option.some.inj hsigned
      refine ⟨⟨manifest.policy, ?_, hsame, ?_⟩, hrestorable⟩
      · rw [hadopts.policies, Dict.get_set, if_pos hid]
      · rw [hadopts.versions, if_pos hid]
    · rename_i hid
      obtain ⟨hreports, hrestorable'⟩ := h.manifests policyId manifest' hsigned
      refine ⟨hreports.frame ?_ ?_, hrestorable'⟩
      · rw [hadopts.policies, Dict.get_set, if_neg hid]
      · rw [hadopts.versions, if_neg hid]

theorem holding_registerSigned {hvalid : manifest.policy.Valid} {given : Option TrustStore}
    (h : registry.Holding P store) :
    (registry.step P trustStore (.registerSigned manifest hvalid given)).Holding P store ↔
      registry.Admits P trustStore store (.registerSigned manifest hvalid given) := by
  unfold step
  split
  · rename_i registry' hperform
    obtain ⟨hverifies, haccepted⟩ := registerSigned_eq_ok.mp hperform
    obtain ⟨used, hused, hverified⟩ := id hverifies
    have hsame := RawManifest.sameDigest_self hverified
    rw [Admits, imp_iff_right hverifies, imp_iff_right haccepted.hashable]
    cases haccepted with
    | unknown hget hadopt =>
        rw [holding_adopts h (adopts_of_adopt hadopt) hsame, imp_iff_right]
        intro current hcurrent
        rw [hget] at hcurrent
        cases hcurrent
    | newer hget hversion hadopt =>
        rw [holding_adopts h (adopts_of_adopt hadopt) hsame, imp_iff_right]
        exact fun current hcurrent => ⟨(adopts_of_adopt hadopt).same current hcurrent, hversion⟩
    | idempotent hget hversion hsame heq =>
        rw [heq]
        refine iff_of_true h fun hnewer => ?_
        exact absurd hversion (ne_of_gt (hnewer _ hget).2)
  · rename_i e hperform
    refine iff_of_true h fun hverifies hhashable hnewer => ?_
    obtain ⟨registry', hregistry'⟩ := registerSigned_isOk.mpr
      ⟨hverifies, hhashable, fun current hget => (hnewer current hget).imp_right le_of_lt⟩
    rw [perform, hregistry'] at hperform
    cases hperform

-- the manifests a payload leaves are those of the trails of its entries
theorem Reads.holding_iff {kept : Trail → Option RawManifest}
    {entries : List RegistryEntry} (h : Reads P kept entries registry) :
    registry.Holding P store ↔ Lasts P store kept entries := by
  have hreports (policyId : PyVal) (manifest : RawManifest) :
      registry.Reports P policyId manifest ↔
        ∃ entry, (Trail.of entries policyId).last = some entry ∧
          entry.policy.SameDigest P manifest.policy ∧ entry.version = manifest.version := by
    rw [Reports, h.versions]
    constructor
    · rintro ⟨policy, hget, hsame, hversion⟩
      obtain ⟨entry, hlast, hcontent, -⟩ := h.last_some hget
      rw [hlast, Option.map_some, Option.some.injEq] at hversion
      exact ⟨entry, hlast, (RawPolicy.sameDigest_congr hcontent).mpr hsame, hversion⟩
    · rintro ⟨entry, hlast, hsame, hversion⟩
      cases hget : Dict.get registry.policies policyId with
      | none =>
          rw [h.last_none.mp hget] at hlast
          cases hlast
      | some policy =>
          obtain ⟨entry', hlast', hcontent, -⟩ := h.last_some hget
          obtain rfl := Option.some.inj (hlast.symm.trans hlast')
          refine ⟨policy, rfl, (RawPolicy.sameDigest_congr hcontent).mp hsame, ?_⟩
          rw [hlast, Option.map_some, hversion]
  constructor
  · intro hholding
    refine ⟨fun policyId manifest hkept => ?_, h.keys ▸ hholding.sortable⟩
    obtain ⟨hlast, hrestorable⟩ :=
      hholding.manifests policyId manifest ((h.signedManifests policyId).trans hkept)
    exact ⟨hrestorable, (hreports policyId manifest).mp hlast⟩
  · intro hlasts
    refine ⟨fun policyId manifest hsigned => ?_, h.keys ▸ hlasts.sortable⟩
    obtain ⟨hrestorable, hlast⟩ :=
      hlasts.manifests policyId manifest ((h.signedManifests policyId).symm.trans hsigned)
    exact ⟨(hreports policyId manifest).mpr hlast, hrestorable⟩

theorem holding_step {call : RegistryCall} (h : registry.Holding P store) :
    (registry.step P trustStore call).Holding P store ↔
      registry.Admits P trustStore store call := by
  cases call with
  | register policy hvalid => exact holding_register h
  | registerSigned manifest hvalid given => exact holding_registerSigned h
  | fromDict value =>
      unfold step
      split
      · rename_i registry' hperform
        obtain ⟨entries, hdecodes, -⟩ := fromDict_eq_ok.mp hperform
        obtain ⟨henters, hreads⟩ := fromDict_reads hdecodes hperform
        rw [hreads.holding_iff]
        refine ⟨fun hlasts entries' hdecodes' _ => ?_, fun hadmits => hadmits _ hdecodes henters⟩
        rwa [hdecodes'.unique hdecodes]
      · rename_i e hperform
        refine iff_of_true h fun entries hdecodes henters => ?_
        obtain ⟨registry', hregistry'⟩ := fromDict_of_enters hdecodes henters
        rw [perform, hregistry'] at hperform
        cases hperform
  | load contents =>
      unfold step
      split
      · rename_i registry' hperform
        obtain ⟨value, rfl⟩ := contents_of_load hperform
        obtain ⟨entries, hdecodes, -⟩ := load_eq_ok.mp hperform
        obtain ⟨hpasses, hreads⟩ := load_reads hdecodes hperform
        rw [hreads.holding_iff]
        refine ⟨fun hlasts value' entries' hvalue hdecodes' _ => ?_,
          fun hadmits => hadmits _ _ rfl hdecodes hpasses⟩
        obtain rfl := Except.ok.inj hvalue
        rwa [hdecodes'.unique hdecodes]
      · rename_i e hperform
        refine iff_of_true h fun value entries hvalue hdecodes hpasses => ?_
        obtain ⟨registry', hregistry'⟩ := load_of_passes hdecodes hpasses
        rw [perform, hvalue, hregistry'] at hperform
        cases hperform

end Steps

section Coherence

open Protocol

variable {P : Primitives} {trustStore store : Option TrustStore}

theorem sound_run (calls : List RegistryCall) :
    (Calls.run (step P trustStore) { trustStore := trustStore } calls).Sound :=
  Calls.always (fun _ _ => sound_step) calls sound_empty

theorem registry_coherent_iff {calls : List RegistryCall} :
    (∀ before after, calls = before ++ after →
      (Calls.run (step P trustStore) { trustStore := trustStore } before).Coherent P store) ↔
    Calls.Each (step P trustStore) (Admits P trustStore store) { trustStore := trustStore }
      calls := by
  have hstart : Holding P store { trustStore := trustStore } :=
    ⟨nofun, [], rfl⟩
  rw [← Calls.always_iff (A := Holding P store) (fun _ _ => holding_step) hstart]
  refine forall_congr' fun before => forall_congr' fun after => imp_congr_right fun _ => ?_
  exact coherent_iff (sound_run before)

def signedWider : RawManifest := (PolicyRegistry.signedByAlice widerPolicy 2).raw

theorem verified_signedWider :
    signedWider.Verified referencePrimitives PolicyRegistry.aliceStore :=
  ⟨by decide, signs_alice (exists_of_toOption
    (show (signedWider.unsignedPayload referencePrimitives).toOption.isSome = true by
      decide +kernel))⟩

theorem wider_valid : signedWider.policy.Valid := by
  obtain ⟨policy, hpolicy⟩ := exists_of_toOption
    (show widerPolicy.postInit.toOption.isSome = true by decide)
  exact (Policy.valid_of_postInit hpolicy).raw

-- a signed manifest with an unsigned entry of a later version behind it
def mixedSnapshot : PyVal := .dict (PyDict.ofFields
  [("policies", .list [.dict signedWider.toDict,
    .dict (PyDict.ofFields [("policy", .dict Demo.policy.raw.toDict), ("version", .int 3)])])])

def mixedEntries : List RegistryEntry :=
  [.signed signedWider.sorted, .plain Demo.policy.raw.sorted 3]

theorem decodes_mixedSnapshot : Decodes mixedSnapshot mixedEntries := by
  have hsigned : RegistryEntry.read (.dict signedWider.toDict) = .ok (.signed signedWider.sorted) :=
    RegistryEntry.read_signed wider_valid (show lit "alice" ≠ [] by decide)
      (show lit "c2ln" ≠ [] by decide)
  have hplain := RegistryEntry.read_plain demo_valid (show (0 : ℤ) < 3 by decide)
  refine decodes_snapshot ?_
  rw [List.mapM_cons, hsigned, List.mapM_cons, hplain]
  rfl

theorem enters_mixedSnapshot :
    Enters referencePrimitives (some PolicyRegistry.aliceStore) mixedEntries := by
  have hbacked : Backed referencePrimitives (some PolicyRegistry.aliceStore) signedWider.sorted :=
    backed_sorted.mpr ⟨PolicyRegistry.aliceStore, rfl, verified_signedWider⟩
  refine (@enters_snoc _ _ [.signed signedWider.sorted] _).mpr ⟨?_, rfl, by simp⟩
  refine (@enters_snoc _ _ [] _).mpr ⟨⟨by simp, by simp, successive_nil⟩, rfl, fun manifest heq => ?_⟩
  obtain rfl := RegistryEntry.signed.inj heq
  exact ⟨hbacked, fun entry hlast => by cases hlast⟩

theorem trail_mixedEntries : Trail.of mixedEntries (.str "demo-v1") =
    { last := some (.plain Demo.policy.raw.sorted 3), signed := some signedWider.sorted
      kept := some signedWider.sorted } := by
  have hid : signedWider.sorted.policy.policyId = .str "demo-v1" := rfl
  have hplain : Demo.policy.raw.sorted.policyId = .str "demo-v1" := rfl
  simp [Trail.of, mixedEntries, RegistryEntry.policyId, RegistryEntry.policy, hid, hplain,
    Trail.note, Trail.advances]

-- from_dict leaves version 3 of the policy beside the signed manifest of version 2
theorem registry_incoherent : ¬ ∀ (P : Primitives) (trustStore : Option TrustStore)
    (calls : List RegistryCall),
    (Calls.run (step P trustStore) { trustStore := trustStore } calls).Coherent P trustStore := by
  intro h
  have hrun : Calls.Each (step referencePrimitives (some PolicyRegistry.aliceStore))
      (Admits referencePrimitives (some PolicyRegistry.aliceStore)
        (some PolicyRegistry.aliceStore)) { trustStore := some PolicyRegistry.aliceStore }
      [.fromDict mixedSnapshot] :=
    registry_coherent_iff.mp
      fun before _ _ => h referencePrimitives (some PolicyRegistry.aliceStore) before
  obtain ⟨hadmits, -⟩ := hrun
  obtain ⟨entry, hlast, -, hversion⟩ := ((hadmits _ decodes_mixedSnapshot
    enters_mixedSnapshot).manifests (.str "demo-v1") signedWider.sorted
      (by rw [trail_mixedEntries])).last
  rw [trail_mixedEntries] at hlast
  obtain rfl : RegistryEntry.plain Demo.policy.raw.sorted 3 = entry := Option.some.inj hlast
  exact absurd hversion (by decide)

end Coherence

end RawRegistry

end GovernedAutonomy
