import GovernedAutonomy.PolicyRoundTrip
import GovernedAutonomy.VersionNames

namespace GovernedAutonomy

open Python SemanticVersion VersionPattern

-- the records of memory are in the order of their publication; the names in the directory of a
-- policy are in the order in which the file system gives them
inductive VersionStorage where
  | inMemory (data : List ((Str × Str) × StoredPolicy))
  | files (directory : Str → Option (List Str)) (read : List Str → Result (Option StoredPolicy))

namespace VersionStorage

variable (P : Primitives) (T : DecimalTable)

def get (storage : VersionStorage) (policyId version : Str) : Result (Option StoredPolicy) :=
  match storage with
  | .inMemory data => .ok (Dict.get data (policyId, version))
  | .files _ read => do
      let path ← FilePolicyStorage.path T policyId version
      read path

def versions (storage : VersionStorage) (policyId : Str) : List Str :=
  match storage with
  | .inMemory data => (data.filter (fun entry => entry.1.1 = policyId)).map (fun entry => entry.1.2)
  | .files directory _ =>
      match directory policyId with
      | none => []
      | some names => FilePolicyStorage.versions T policyId names

variable (storage : VersionStorage) (verifier : Option PolicyVerifier) (policyId : Str)

-- VersionedPolicyRegistry.get
def getVerified (version : Str) : Result StoredPolicy := do
  let found ← storage.get T policyId version
  match found with
  | none => .error (policyNotFound policyId version)
  | some stored => do
      let verification ← verification P verifier stored
      raiseIf (verification.digestValid = false)
        (policyError "PolicyIntegrityError" (joined "; " verification.errors))
      .ok stored

def keyed (version : Str) : Result (PyVal × Str) := do
  let key ← semverKey P T digitLimit version
  .ok (key, version)

def listVersions : Result (List Str) := do
  let keyed ← (storage.versions T policyId).mapM (keyed P T)
  let sorted ← PyVal.sortedByKey Prod.fst keyed
  .ok (sorted.map Prod.snd)

def latest : Result StoredPolicy := do
  let versions ← storage.listVersions P T policyId
  match versions.getLast? with
  | none => .error (.custom "PolicyNotFoundError" false policyId .none)
  | some version => storage.getVerified P T verifier policyId version

-- the storage has these records of the policy, in some order
structure Holds (names : List Str) (record : Str → StoredPolicy) : Prop where
  versions : (storage.versions T policyId).Perm names
  get : ∀ version ∈ names, storage.get T policyId version = .ok (some (record version))

end VersionStorage

def HasKey (P : Primitives) (T : DecimalTable) (s : Str) : Prop :=
  ∃ key, semverKey P T digitLimit s = .ok key

-- neither version is below the other
def SamePrecedence (P : Primitives) (T : DecimalTable) (s t : Str) : Prop :=
  ∃ key key', semverKey P T digitLimit s = .ok key ∧ semverKey P T digitLimit t = .ok key' ∧
    key.eq key' = true

namespace VersionStorage

section Listing

variable {P : Primitives} {T : DecimalTable} {storage : VersionStorage} {policyId : Str}
  {names : List Str} {record : Str → StoredPolicy} {version : Str → SemanticVersion}

theorem exists_version : ∃ version : Str → SemanticVersion, ∀ s, HasKey P T s →
    semverKey P T digitLimit s = .ok ((version s).key T) := by
  have hread : ∀ s, HasKey P T s → ∃ v : SemanticVersion,
      semverKey P T digitLimit s = .ok (v.key T) := by
    rintro s ⟨key, hkey⟩
    have haccepts := (VersionNames.semverKey_ok.mp ⟨key, hkey⟩).1
    obtain ⟨v, hv, rest, hrest, rfl⟩ := (VersionNames.accepts_version reads_build).mp haccepts
    exact ⟨v, (semverKey_text hv hrest).mpr ⟨((semverKey_text hv hrest).mp hkey).1, rfl⟩⟩
  have : Nonempty SemanticVersion := ⟨⟨[], [], [], [], []⟩⟩
  choose! version hversion using hread
  exact ⟨version, hversion⟩

theorem listVersions_eq (hversion : ∀ s, HasKey P T s →
      semverKey P T digitLimit s = .ok ((version s).key T))
    (hkeys : ∀ s ∈ storage.versions T policyId, HasKey P T s) :
    storage.listVersions P T policyId = .ok ((storage.versions T policyId).insertionSort
      (fun s t => (version s).rank T ≤ (version t).rank T)) := by
  have hkeyed : (storage.versions T policyId).mapM (keyed P T) =
      .ok ((storage.versions T policyId).map (fun s => ((version s).key T, s))) := by
    have hone : ∀ s ∈ storage.versions T policyId,
        keyed P T (id s) = .ok ((version s).key T, s) := by
      intro s hs
      rw [id, keyed, hversion s (hkeys s hs)]
      rfl
    simpa only [List.map_id] using mapM_map_eq_ok hone
  have hsorted : PyVal.sortedByKey Prod.fst
      ((storage.versions T policyId).map (fun s => ((version s).key T, s))) =
        .ok (((storage.versions T policyId).insertionSort
          (fun s t => (version s).rank T ≤ (version t).rank T)).map
            (fun s => ((version s).key T, s))) :=
    PyVal.sortedByKey_map (f := fun s => ((version s).key T, s)) (ranks_key.comp version) _
  simp only [listVersions, hkeyed, hsorted, bind, Except.bind, List.map_map, Function.comp_def,
    List.map_id']

-- a listing that returns has read the key of every version
theorem hasKey_of_listVersions {sorted : List Str}
    (h : storage.listVersions P T policyId = .ok sorted) :
    ∀ s ∈ storage.versions T policyId, HasKey P T s := by
  obtain ⟨entries, hkeyed, -⟩ := bind_eq_ok.mp h
  intro s hs
  obtain ⟨entry, -, hentry⟩ := of_mapM_eq_ok hkeyed hs
  obtain ⟨key, hkey, -⟩ := bind_eq_ok.mp hentry
  exact ⟨key, hkey⟩

theorem Holds.keys (h : storage.Holds T policyId names record)
    (hkeys : ∀ s ∈ names, HasKey P T s) : ∀ s ∈ storage.versions T policyId, HasKey P T s :=
  fun s hs => hkeys s (h.versions.mem_iff.mp hs)

-- the storage of memory after the versions were published in this order
def published (policyId : Str) (names : List Str) (record : Str → StoredPolicy) : VersionStorage :=
  .inMemory (names.map (fun version => ((policyId, version), record version)))

theorem get_published {others : List Str} {s : Str} (hs : s ∈ others) :
    (published policyId others record).get T policyId s = .ok (some (record s)) := by
  show Except.ok _ = _
  congr 1
  induction others with
  | nil => cases hs
  | cons other others ih =>
      by_cases h : other = s
      · subst h
        simp [Dict.get, Keyed.same]
      · have hmem := (List.mem_cons.mp hs).resolve_left (Ne.symm h)
        rw [← ih hmem]
        simp [Dict.get, Keyed.same, h]

theorem holds_published {others : List Str} (hperm : others.Perm names) :
    (published policyId others record).Holds T policyId names record where
  versions := by
    have hversions : (published policyId others record).versions T policyId = others := by
      simp [published, versions, List.filter_map, Function.comp_def]
    rw [hversions]
    exact hperm
  get version hversion := get_published (hperm.mem_iff.mpr hversion)

theorem samePrecedence_keys {s t : Str} {key key' : PyVal}
    (hs : semverKey P T digitLimit s = .ok key) (ht : semverKey P T digitLimit t = .ok key') : SamePrecedence P T s t ↔ key.eq key' = true := by
  constructor
  · rintro ⟨k, k', hk, hk', heq⟩
    obtain rfl := Except.ok.inj (hs.symm.trans hk)
    obtain rfl := Except.ok.inj (ht.symm.trans hk')
    exact heq
  · intro heq
    exact ⟨key, key', hs, ht, heq⟩

theorem Holds.getVerified {storage' : VersionStorage} {verifier : Option PolicyVerifier}
    (h : storage.Holds T policyId names record) (h' : storage'.Holds T policyId names record)
    {s : Str} (hs : s ∈ names) :
    storage.getVerified P T verifier policyId s = storage'.getVerified P T verifier policyId s := by
  rw [VersionStorage.getVerified, VersionStorage.getVerified, h.get s hs, h'.get s hs]

theorem Holds.latest {storage' : VersionStorage} {verifier : Option PolicyVerifier}
    (h : storage.Holds T policyId names record) (h' : storage'.Holds T policyId names record)
    (hlist : storage.listVersions P T policyId = storage'.listVersions P T policyId)
    (hmem : ∀ sorted, storage'.listVersions P T policyId = .ok sorted → ∀ s ∈ sorted, s ∈ names) :
    storage.latest P T verifier policyId = storage'.latest P T verifier policyId := by
  rw [VersionStorage.latest, VersionStorage.latest, hlist]
  cases hsorted : storage'.listVersions P T policyId with
  | error e => rfl
  | ok sorted =>
      simp only [bind, Except.bind]
      cases hlast : sorted.getLast? with
      | none => rfl
      | some s => exact h.getVerified h' (hmem sorted hsorted s (List.mem_of_mem_getLast? hlast))

variable {verifier : Option PolicyVerifier}

-- two storages give one listing, and one latest record
structure SameListing (P : Primitives) (T : DecimalTable) (verifier : Option PolicyVerifier)
    (policyId : Str) (storage storage' : VersionStorage) : Prop where
  listed : ∃ sorted, storage.listVersions P T policyId = .ok sorted ∧
    storage'.listVersions P T policyId = .ok sorted
  latest : storage.latest P T verifier policyId = storage'.latest P T verifier policyId

theorem same_listing_iff (hnodup : names.Nodup) :
    (∀ storage storage' : VersionStorage, storage.Holds T policyId names record →
      storage'.Holds T policyId names record →
        SameListing P T verifier policyId storage storage') ↔
      (∀ s ∈ names, HasKey P T s) ∧
        ∀ s ∈ names, ∀ t ∈ names, SamePrecedence P T s t → s = t := by
  obtain ⟨version, hversion⟩ := exists_version (P := P) (T := T)
  have hkeyless : (∀ storage storage' : VersionStorage, storage.Holds T policyId names record →
      storage'.Holds T policyId names record →
        SameListing P T verifier policyId storage storage') → ∀ s ∈ names, HasKey P T s := by
    intro h s hs
    have hholds : (published policyId names record).Holds T policyId names record :=
      holds_published (.refl _)
    obtain ⟨sorted, hlist, -⟩ := (h _ _ hholds hholds).listed
    exact hasKey_of_listVersions hlist s (hholds.versions.mem_iff.mpr hs)
  refine (and_iff_right_of_imp hkeyless).symm.trans (and_congr_right fun hkeys => ?_)
  have hsame : (∀ s ∈ names, ∀ t ∈ names, SamePrecedence P T s t → s = t) ↔
      ∀ s ∈ names, ∀ t ∈ names, (version s).rank T = (version t).rank T → s = t := by
    refine forall₂_congr fun s hs => forall₂_congr fun t ht => ?_
    rw [samePrecedence_keys (hversion s (hkeys s hs)) (hversion t (hkeys t ht)),
      (ranks_key (version s) (version t)).2]
  rw [hsame, ← insertionSort_perm_iff hnodup]
  constructor
  · intro h others others' hperm hperm'
    have hholds : (published policyId others record).Holds T policyId names record :=
      holds_published hperm
    have hholds' : (published policyId others' record).Holds T policyId names record :=
      holds_published hperm'
    obtain ⟨sorted, hlist, hlist'⟩ := (h _ _ hholds hholds').listed
    rw [listVersions_eq hversion (hholds.keys hkeys)] at hlist
    rw [listVersions_eq hversion (hholds'.keys hkeys), ← hlist] at hlist'
    simpa [published, versions, List.filter_map, Function.comp_def, eq_comm] using hlist'
  · intro h storage storage' hholds hholds'
    have hsorted := h _ _ hholds.versions hholds'.versions
    have hlist : storage.listVersions P T policyId = storage'.listVersions P T policyId := by
      rw [listVersions_eq hversion (hholds.keys hkeys),
        listVersions_eq hversion (hholds'.keys hkeys), hsorted]
    refine ⟨⟨_, hlist.trans (listVersions_eq hversion (hholds'.keys hkeys)),
      listVersions_eq hversion (hholds'.keys hkeys)⟩,
      hholds.latest hholds' hlist fun sorted hread s hs => ?_⟩
    rw [listVersions_eq hversion (hholds'.keys hkeys)] at hread
    obtain rfl := Except.ok.inj hread
    exact hholds'.versions.mem_iff.mp ((List.mem_insertionSort _).mp hs)

end Listing

-- the listing and the latest record are those of the set of versions just where each version has
-- a key and no two of them have one precedence; of SemVer versions all have keys whose numbers int()
-- takes, and those that differ in build metadata only have one precedence
theorem listing_iff (P : Primitives) (T : DecimalTable) (verifier : Option PolicyVerifier)
    (policyId : Str) (names : List Str) (record : Str → StoredPolicy) (hnodup : names.Nodup) :
    ((∀ storage storage' : VersionStorage, storage.Holds T policyId names record →
      storage'.Holds T policyId names record →
        SameListing P T verifier policyId storage storage') ↔
      (∀ s ∈ names, HasKey P T s) ∧
        ∀ s ∈ names, ∀ t ∈ names, SamePrecedence P T s t → s = t) ∧
      ∀ v w : SemanticVersion, v.Valid → w.Valid →
        (HasKey P T v.text ↔ v.Within T digitLimit) ∧
          (SamePrecedence P T v.text w.text ↔
            v.Within T digitLimit ∧ w.Within T digitLimit ∧ v.SameButBuild w) := by
  refine ⟨same_listing_iff hnodup, fun v w hv hw => ⟨?_, ?_⟩⟩
  · simp only [HasKey, semverKey_valid hv, exists_and_left, exists_eq', and_true]
  · simp only [SamePrecedence, semverKey_valid hv, semverKey_valid hw]
    constructor
    · rintro ⟨_, _, ⟨hwithin, rfl⟩, ⟨hwithin', rfl⟩, heq⟩
      exact ⟨hwithin, hwithin', (key_eq hv hw).mp heq⟩
    · rintro ⟨hwithin, hwithin', hsame⟩
      exact ⟨_, _, ⟨hwithin, rfl⟩, ⟨hwithin', rfl⟩, (key_eq hv hw).mpr hsame⟩

def builtOne (build : String) : SemanticVersion where
  major := lit "1"
  minor := lit "0"
  patch := lit "0"
  build := [lit build]

theorem valid_builtOne (build : String) (h : IsIdentifier (lit build)) : (builtOne build).Valid where
  major := whole_digits 1
  minor := whole_digits 0
  patch := whole_digits 0
  prerelease := fun s hs => by cases hs
  build := by
    intro s hs
    obtain rfl : s = lit build := by simpa [builtOne] using hs
    exact h

def builds : List Str := [lit "1.0.0+a", lit "1.0.0+b"]

theorem nodup_builds : builds.Nodup := by decide

theorem within_builtOne (build : String) : (builtOne build).Within asciiDecimals digitLimit := by
  have hone : (lit "1").length ≤ maxStrDigits := by decide
  have hzero : (lit "0").length ≤ maxStrDigits := by decide
  intro s hs n hn
  obtain rfl := Option.some.inj hn
  simp only [numbers, builtOne, List.filter_nil, List.mem_cons, List.not_mem_nil, or_false] at hs
  rcases hs with rfl | rfl | rfl
  · exact hone
  · exact hzero
  · exact hzero

theorem valid_builds : (builtOne "a").Valid ∧ (builtOne "b").Valid :=
  ⟨valid_builtOne "a" ⟨by decide, List.all_eq_true.mp (by decide)⟩,
    valid_builtOne "b" ⟨by decide, List.all_eq_true.mp (by decide)⟩⟩

def plainRecord (version : Str) : StoredPolicy := ⟨lit "p1", version, [], [], lit "1.0", none⟩

theorem listing_iff_builds :
    ((∀ storage storage' : VersionStorage,
      storage.Holds asciiDecimals (lit "p1") builds plainRecord →
      storage'.Holds asciiDecimals (lit "p1") builds plainRecord →
        SameListing sizePrimitives asciiDecimals none (lit "p1") storage storage') ↔
      (∀ s ∈ builds, HasKey sizePrimitives asciiDecimals s) ∧
        ∀ s ∈ builds, ∀ t ∈ builds, SamePrecedence sizePrimitives asciiDecimals s t → s = t) ∧
      ∀ v w : SemanticVersion, v.Valid → w.Valid →
        (HasKey sizePrimitives asciiDecimals v.text ↔ v.Within asciiDecimals digitLimit) ∧
          (SamePrecedence sizePrimitives asciiDecimals v.text w.text ↔
            v.Within asciiDecimals digitLimit ∧ w.Within asciiDecimals digitLimit ∧
              v.SameButBuild w) :=
  listing_iff sizePrimitives asciiDecimals none (lit "p1") builds plainRecord nodup_builds

theorem samePrecedence_builds : SamePrecedence sizePrimitives asciiDecimals (builtOne "a").text
    (builtOne "b").text := by
  obtain ⟨ha, hb⟩ := valid_builds
  exact ⟨_, _, (semverKey_valid ha).mpr ⟨within_builtOne "a", rfl⟩,
    (semverKey_valid hb).mpr ⟨within_builtOne "b", rfl⟩, (key_eq ha hb).mpr ⟨rfl, rfl, rfl, rfl⟩⟩

theorem accepts_builds : ∀ s ∈ builds, accepts (semverRe asciiDecimals) s = true := by
  intro s hs
  refine VersionNames.accepts_or_loose.mpr (Or.inl ?_)
  obtain rfl | rfl : s = lit "1.0.0+a" ∨ s = lit "1.0.0+b" := by simpa [builds] using hs
  · exact ⟨builtOne "a", valid_builds.1, rfl⟩
  · exact ⟨builtOne "b", valid_builds.2, rfl⟩

-- two builds of one version come in the order of their publication
theorem builds_listed_as_published : ¬ ∀ (names : List Str) (record : Str → StoredPolicy),
    names.Nodup → (∀ s ∈ names, accepts (semverRe asciiDecimals) s = true) →
      ∀ storage storage' : VersionStorage, storage.Holds asciiDecimals (lit "p1") names record →
        storage'.Holds asciiDecimals (lit "p1") names record →
          SameListing sizePrimitives asciiDecimals none (lit "p1") storage storage' := by
  intro h
  have hsame := ((same_listing_iff nodup_builds).mp
    (h builds plainRecord nodup_builds accepts_builds)).2
  exact absurd (hsame _ (by simp [builds]; left; rfl) _ (by simp [builds]; right; rfl)
    samePrecedence_builds) (by decide)

end VersionStorage

end GovernedAutonomy
