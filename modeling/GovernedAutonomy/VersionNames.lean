import GovernedAutonomy.ActivationHistory
import GovernedAutonomy.SemVer

namespace GovernedAutonomy

open Python SemanticVersion VersionPattern

-- [a-z0-9][a-z0-9._-]{0,127} in full
def IsPolicyId (s : Str) : Prop :=
  ∃ p rest, s = p :: rest ∧ isIdStart p = true ∧ rest.length ≤ 127 ∧ ∀ q ∈ rest, isIdChar q = true

def IsVersion (s : Str) : Prop := ∃ v : SemanticVersion, v.Valid ∧ v.text = s

namespace FilePolicyStorage

variable (T : DecimalTable)

-- the parts of the path below the root
def path (policyId version : Str) : Result (List Str) := do
  raiseIf (accepts idRe policyId = false ∨ accepts (semverRe T) version = false)
    (.valueError (lit "invalid policy id or version"))
  .ok [policyId, version ++ lit ".json"]

-- the stem of a name that ends in .json
def stem (name : Str) : Str :=
  if name.length ≤ 5 then name else name.take (name.length - 5)

-- what the names in the directory of the policy say
def versions (policyId : Str) (names : List Str) : List Str :=
  if accepts idRe policyId = true then
    ((names.filter (lit ".json").isSuffixOf).map stem).filter (accepts (semverRe T))
  else []

end FilePolicyStorage

-- the keyword pattern of the packaged schema, on the two names
def schemaId (s : Str) : Bool := accepts idRe s

def schemaVersion (T : DecimalTable) (s : Str) : Bool := accepts (schemaSemver T) s

-- what a policy without errors has as the text of a required member
def Libraries.Asks (L : Libraries) (name : String) (A : Str → Bool) : Prop :=
  ∀ d, L.iterErrors (.dict d) = .ok [] → PyDict.has d (lit name) = true ∧
    ∀ m ∈ d, m.1 = .str (lit name) → ∃ s, m.2 = .str s ∧ A s = true

section Content

variable {P : Primitives} {L : Libraries}

theorem canonicalPolicy_member {policy : PyVal} {content : PyDict} {name : String}
    {A : Str → Bool} {s : Str} (hA : L.Asks name A)
    (hcontent : canonicalPolicy P L policy = .ok content) (hs : member content name = .ok s) :
    A s = true := by
  simp only [canonicalPolicy, validatePolicy, bind_eq_ok, raiseIf_eq_ok, not_not] at hcontent
  obtain ⟨-, ⟨d, hd, -, -, -, -, errors, herrors, rfl⟩, encoded, hencoded, value, hvalue, hdict⟩ :=
    hcontent
  obtain rfl : policy = .dict d := by
    cases policy <;> simp [dictOf] at hd
    exact congrArg PyVal.dict hd
  obtain ⟨t, ht, hloads⟩ := loads_canonicalJson hencoded
  rw [hloads] at hvalue
  obtain rfl := Except.ok.inj hvalue
  obtain ⟨hhas, hentries⟩ := hA d herrors
  have htree : PyVal.ofTree t = .dict content := by
    cases hof : PyVal.ofTree t <;> rw [hof] at hdict <;> simp [dictOf] at hdict
    exact congrArg PyVal.dict hdict
  unfold member at hs
  cases hget : PyDict.get content (lit name) with
  | none =>
      rw [hget] at hs
      cases hs
  | some value =>
      rw [hget] at hs
      obtain ⟨m, hm, hkey, j, hj, rfl⟩ := entry_of_reread hhas ht htree hget
      obtain ⟨text, htext, hA⟩ := hentries m hm hkey
      rw [htext] at hj
      obtain rfl : Json.str text = j := by simpa [PyVal.toTree] using hj
      obtain rfl : text = s := by simpa [PyVal.ofTree, declaredStr] using hs
      exact hA

theorem newStored_names {policy : PyVal} {signer : Option PolicySigner} {signedAt : Option Str}
    {now : Str} {stored : StoredPolicy}
    (h : newStored P L policy signer signedAt now = .ok stored) : ∃ content,
      canonicalPolicy P L policy = .ok content ∧ member content "id" = .ok stored.id ∧
        member content "version" = .ok stored.version := by
  unfold newStored at h
  obtain ⟨content, hcontent, h⟩ := bind_eq_ok.mp h
  obtain ⟨id, hid, h⟩ := bind_eq_ok.mp h
  obtain ⟨version, hversion, h⟩ := bind_eq_ok.mp h
  obtain ⟨contentHash, -, h⟩ := bind_eq_ok.mp h
  cases signer with
  | none =>
      obtain rfl := Except.ok.inj h
      exact ⟨content, hcontent, hid, hversion⟩
  | some signer =>
      simp only at h
      obtain ⟨checked, -, h⟩ := bind_eq_ok.mp h
      obtain ⟨named, -, h⟩ := bind_eq_ok.mp h
      obtain ⟨algorithm, -, h⟩ := bind_eq_ok.mp h
      obtain ⟨payload, -, h⟩ := bind_eq_ok.mp h
      obtain ⟨signed, -, h⟩ := bind_eq_ok.mp h
      rw [← Except.ok.inj h]
      exact ⟨content, hcontent, hid, hversion⟩

end Content

namespace VersionNames

section Grammars

variable {T : DecimalTable} {s : Str} {build : Regex} {extra : Str → Regex.Groups}

theorem accepts_iff {r : Regex} : accepts r s = true ↔
    ∃ found text rest, s = text ++ rest ∧ Regex.Reads r found text rest := by
  rw [accepts, Regex.head]
  constructor
  · intro h
    obtain ⟨⟨found, rest⟩, hm⟩ := Option.isSome_iff_exists.mp h
    obtain ⟨text, htext, hreads⟩ := Regex.mem_run.mp (List.mem_of_mem_head? hm)
    exact ⟨found, text, rest, htext, hreads⟩
  · rintro ⟨found, text, rest, htext, hreads⟩
    have hmem := Regex.mem_run.mpr ⟨text, htext, hreads⟩
    refine Option.isSome_iff_ne_none.mpr fun hnone => ?_
    rw [List.head?_eq_none_iff.mp hnone] at hmem
    cases hmem

theorem accepts_version (hbuild : ∀ found text rest, Regex.Reads build found text rest ↔
    found = extra text ∧ ∃ parts : List Str, parts ≠ [] ∧ text = joined "." parts ∧
      ∀ part ∈ parts, IsIdentifier part) :
    accepts (versionPattern T build) s = true ↔ ∃ v : SemanticVersion, v.Spelled T.isDecimal ∧
      ∃ rest, Ended rest ∧ s = v.text ++ rest := by
  rw [accepts_iff]
  simp only [reads_version hbuild]
  constructor
  · rintro ⟨_, _, rest, rfl, v, hv, rfl, rfl, hrest⟩
    exact ⟨v, hv, rest, hrest, rfl⟩
  · rintro ⟨v, hv, rest, hrest, rfl⟩
    exact ⟨_, _, rest, rfl, v, hv, rfl, rfl, hrest⟩

theorem reads_groupedBuild (found : Regex.Groups) (text rest : Str) :
    Regex.Reads (.group 5 buildIdentifiers) found text rest ↔ found = [(5, text)] ∧
      ∃ parts : List Str, parts ≠ [] ∧ text = joined "." parts ∧
        ∀ part ∈ parts, IsIdentifier part := by
  rw [Regex.Reads]
  simp only [reads_build]
  constructor
  · rintro ⟨_, rfl, rfl, hparts⟩
    exact ⟨rfl, hparts⟩
  · rintro ⟨rfl, hparts⟩
    exact ⟨[], rfl, rfl, hparts⟩

theorem accepts_schemaSemver : accepts (schemaSemver T) s = accepts (semverRe T) s :=
  Bool.eq_iff_iff.mpr ((accepts_version reads_groupedBuild).trans (accepts_version reads_build).symm)

theorem accepts_id : accepts idRe s = true ↔ ∃ t, IsPolicyId t ∧ ∃ rest, Ended rest ∧
    s = t ++ rest := by
  rw [accepts_iff]
  constructor
  · rintro ⟨_, _, rest, rfl, _, _, _, _, rfl, rfl, hstart, _, _, _, _, rfl, rfl, hchars, _, _, _, _,
      rfl, rfl, ⟨rfl, rfl, hend⟩, rfl, rfl⟩
    obtain ⟨rfl, p, rfl, hp⟩ := (Regex.plain_one _ _ _ _).mp hstart
    obtain ⟨rfl, hle, hall⟩ := (Regex.plain_upTo _ _ _ _ _).mp hchars
    exact ⟨_, ⟨p, _, rfl, hp, hle, hall⟩, rest, by simpa [Ended] using hend, by simp⟩
  · rintro ⟨_, ⟨p, chars, rfl, hp, hle, hall⟩, rest, hrest, rfl⟩
    refine ⟨[], p :: chars, rest, rfl, [], [], [p], chars, rfl, rfl,
      (Regex.plain_one _ _ _ _).mpr ⟨rfl, p, rfl, hp⟩, [], [], chars, [], rfl,
      (List.append_nil _).symm, (Regex.plain_upTo _ _ _ _ _).mpr ⟨rfl, hle, hall⟩, [], [], [], [],
      rfl, rfl, ⟨rfl, rfl, by simpa [Ended] using hrest⟩, rfl, rfl⟩

end Grammars

-- what the grammars take besides: a line end after the name, and digits that are not of ASCII
def LooseVersion (T : DecimalTable) (s : Str) : Prop :=
  ∃ v : SemanticVersion, v.Spelled T.isDecimal ∧ (s = v.text ++ [ofChar '\n'] ∨
    s = v.text ∧ ∃ p ∈ s, T.isDecimal p = true ∧ isDigit p = false)

-- a number of more digits than int() takes
def Oversized (T : DecimalTable) (s : Str) : Prop :=
  ∃ v : SemanticVersion, v.Spelled T.isDecimal ∧ ∃ rest, Ended rest ∧ s = v.text ++ rest ∧
    ¬ v.Within T digitLimit

def LooseId (s : Str) : Prop := ∃ t, IsPolicyId t ∧ s = t ++ [ofChar '\n']

-- every check takes a name where it is a version, or a policy id
structure Agrees (P : Primitives) (T : DecimalTable) (s : Str) : Prop where
  key : (∃ key, semverKey P T digitLimit s = .ok key) ↔ IsVersion s
  pathVersion : ∀ policyId, IsPolicyId policyId →
    ((∃ path, FilePolicyStorage.path T policyId s = .ok path) ↔ IsVersion s)
  pathId : ∀ version, IsVersion version →
    ((∃ path, FilePolicyStorage.path T s version = .ok path) ↔ IsPolicyId s)
  schemaVersion : schemaVersion T s = true ↔ IsVersion s
  schemaId : schemaId s = true ↔ IsPolicyId s

-- the build metadata of an accepted version
def buildOf (T : DecimalTable) (s : Str) : Option Str :=
  (Regex.head (schemaSemver T) s).bind fun m => Regex.textOf m.1 5

section Agreement

variable {P : Primitives} {T : DecimalTable} {s t : Str} {v : SemanticVersion}

theorem mem_joined_of_mem {parts : List Str} {p : CodePoint} (hs : s ∈ parts) (hp : p ∈ s) :
    p ∈ joined "." parts := by
  cases parts with
  | nil => cases hs
  | cons part parts =>
      rw [joined_cons]
      rcases List.mem_cons.mp hs with rfl | hs
      · exact List.mem_append_left _ hp
      · exact List.mem_append_right _ (List.mem_flatten.mpr
          ⟨_, List.mem_map_of_mem hs, List.mem_append_right _ hp⟩)

theorem spelled_of_text (hv : v.Spelled T.isDecimal)
    (h : ∀ p ∈ v.text, T.isDecimal p = true → isDigit p = true) : v.Spelled isDigit := by
  have hnumber : ∀ {s : Str}, NumberText T.isDecimal s → (∀ p ∈ s, p ∈ v.text) →
      NumberText isDigit s := by
    rintro s (hzero | ⟨p, rest, rfl, hp, hrest⟩) hmem
    · exact Or.inl hzero
    · exact Or.inr ⟨p, rest, rfl, hp, fun q hq =>
        h q (hmem q (List.mem_cons_of_mem _ hq)) (hrest q hq)⟩
  have hpre : ∀ s ∈ v.prerelease, ∀ p ∈ s, p ∈ v.text := by
    intro s hs p hp
    have hne : v.prerelease ≠ [] := List.ne_nil_of_mem hs
    have hjoined : p ∈ joined "." v.prerelease := mem_joined_of_mem hs hp
    simp [text, suffix, hne, hjoined]
  refine ⟨hnumber hv.major ?_, hnumber hv.minor ?_, hnumber hv.patch ?_, ?_, hv.build⟩
  · intro p hp
    simp [text, hp]
  · intro p hp
    simp [text, hp]
  · intro p hp
    simp [text, hp]
  · intro s hs
    rcases hv.prerelease s hs with hs' | ⟨front, p, rest, rfl, hfront, hp, hrest⟩
    · exact Or.inl (hnumber hs' (hpre s hs))
    · exact Or.inr ⟨front, p, rest, rfl, fun q hq =>
        h q (hpre _ hs q (List.mem_append_left _ hq)) (hfront q hq), hp, hrest⟩

theorem ascii_of_identifier (h : IsIdentifier s) : ∀ p ∈ s, p.val < 128 := by
  intro p hp
  have hchar := h.2 p hp
  simp only [isIdentifierChar, isDigit, isLetter, Bool.or_eq_true, decide_eq_true_eq] at hchar
  omega

theorem ascii_of_suffix {mark : Char} {parts : List Str} (hmark : (ofChar mark).val < 128)
    (h : ∀ part ∈ parts, IsIdentifier part) : ∀ p ∈ suffix mark parts, p.val < 128 := by
  intro p hp
  unfold suffix at hp
  split at hp
  · cases hp
  · rcases List.mem_cons.mp hp with rfl | hp
    · exact hmark
    · rcases mem_joined hp with rfl | ⟨part, hpart, hp⟩
      · decide
      · exact ascii_of_identifier (h part hpart) p hp

theorem ascii_of_valid (hv : v.Valid) : ∀ p ∈ v.text, p.val < 128 := by
  have hwhole : ∀ {s : Str}, Whole s → ∀ p ∈ s, p.val < 128 :=
    fun h p hp => ascii_of_isDigit (h.1 p hp)
  have hdot : (ofChar '.').val < 128 := by decide
  rw [text]
  refine List.forall_mem_append.mpr ⟨hwhole hv.major, List.forall_mem_cons.mpr ⟨hdot, ?_⟩⟩
  refine List.forall_mem_append.mpr ⟨hwhole hv.minor, List.forall_mem_cons.mpr ⟨hdot, ?_⟩⟩
  refine List.forall_mem_append.mpr ⟨hwhole hv.patch, List.forall_mem_append.mpr ⟨?_, ?_⟩⟩
  · exact ascii_of_suffix (by decide) fun part hpart => (hv.prerelease part hpart).1
  · exact ascii_of_suffix (by decide) hv.build

theorem accepts_or_loose : accepts (semverRe T) s = true ↔ IsVersion s ∨ LooseVersion T s := by
  have hascii : ∀ p, isDigit p = true → T.isDecimal p = true := fun _ => isDecimal_of_isDigit
  rw [semverRe, accepts_version reads_build]
  constructor
  · rintro ⟨v, hv, rest, rfl | rfl, rfl⟩
    · rw [List.append_nil]
      by_cases h : ∀ p ∈ v.text, T.isDecimal p = true → isDigit p = true
      · exact Or.inl ⟨v, (spelled_of_text hv h).valid, rfl⟩
      · push Not at h
        obtain ⟨p, hp, hdecimal, hdigit⟩ := h
        exact Or.inr ⟨v, hv, Or.inr ⟨rfl, p, hp, hdecimal, by simpa using hdigit⟩⟩
    · exact Or.inr ⟨v, hv, Or.inl rfl⟩
  · rintro (⟨v, hv, rfl⟩ | ⟨v, hv, rfl | ⟨rfl, -⟩⟩)
    · exact ⟨v, hv.spelled hascii, [], Or.inl rfl, (List.append_nil _).symm⟩
    · exact ⟨v, hv, _, Or.inr rfl, rfl⟩
    · exact ⟨v, hv, [], Or.inl rfl, (List.append_nil _).symm⟩

theorem not_version_of_loose (h : LooseVersion T s) : ¬ IsVersion s := by
  have hascii : ∀ p, isDigit p = true → T.isDecimal p = true := fun _ => isDecimal_of_isDigit
  rintro ⟨w, hw, rfl⟩
  obtain ⟨v, hv, heq | ⟨heq, p, hp, hdecimal, hdigit⟩⟩ := h
  · rw [← List.append_nil w.text] at heq
    exact absurd (text_inj (hw.spelled hascii) hv (Or.inl rfl) (Or.inr rfl) heq).2
      (List.cons_ne_nil _ _).symm
  · rw [isDecimal_ascii (ascii_of_valid hw p hp), hdigit] at hdecimal
    cases hdecimal

theorem accepts_or_looseId : accepts idRe s = true ↔ IsPolicyId s ∨ LooseId s := by
  rw [accepts_id]
  constructor
  · rintro ⟨t, ht, rest, rfl | rfl, rfl⟩
    · exact Or.inl (by rwa [List.append_nil])
    · exact Or.inr ⟨t, ht, rfl⟩
  · rintro (h | ⟨t, ht, rfl⟩)
    · exact ⟨s, h, [], Or.inl rfl, (List.append_nil _).symm⟩
    · exact ⟨t, ht, _, Or.inr rfl, rfl⟩

theorem not_id_of_loose (h : LooseId s) : ¬ IsPolicyId s := by
  rintro ⟨p, rest, rfl, hp, -, hrest⟩
  obtain ⟨t, -, heq⟩ := h
  have hmem : ofChar '\n' ∈ p :: rest := heq ▸ List.mem_append_right _ (List.mem_singleton_self _)
  rcases List.mem_cons.mp hmem with rfl | hmem
  · cases hp
  · exact absurd (hrest _ hmem) (by decide)

theorem path_ok : (∃ path, FilePolicyStorage.path T s t = .ok path) ↔
    accepts idRe s = true ∧ accepts (semverRe T) t = true := by
  unfold FilePolicyStorage.path
  constructor
  · rintro ⟨path, hpath⟩
    obtain ⟨_, hraise, -⟩ := bind_eq_ok.mp hpath
    simpa using raiseIf_eq_ok.mp hraise
  · rintro ⟨hid, hversion⟩
    exact ⟨_, by rw [raiseIf_of_not (by simp [hid, hversion])]; rfl⟩

theorem semverKey_ok : (∃ key, semverKey P T digitLimit s = .ok key) ↔
    accepts (semverRe T) s = true ∧ ¬ Oversized T s := by
  constructor
  · rintro ⟨key, hkey⟩
    have haccepts : accepts (semverRe T) s = true := by
      rw [accepts]
      unfold semverKey at hkey
      cases hhead : Regex.head (semverRe T) s with
      | none =>
          rw [hhead] at hkey
          cases hkey
      | some m => rfl
    refine ⟨haccepts, ?_⟩
    rintro ⟨v, hv, rest, hrest, rfl, hover⟩
    exact hover ((semverKey_text hv hrest).mp hkey).1
  · rintro ⟨haccepts, hsized⟩
    obtain ⟨v, hv, rest, hrest, rfl⟩ := (accepts_version reads_build).mp haccepts
    have hwithin : v.Within T digitLimit := by
      by_contra hover
      exact hsized ⟨v, hv, rest, hrest, rfl, hover⟩
    exact ⟨v.key T, (semverKey_text hv hrest).mpr ⟨hwithin, rfl⟩⟩

theorem agrees_iff : Agrees P T s ↔ ¬ LooseVersion T s ∧ ¬ Oversized T s ∧ ¬ LooseId s := by
  have hone : IsVersion (lit "1.0.0") :=
    ⟨⟨lit "1", lit "0", lit "0", [], []⟩,
      ⟨whole_digits 1, whole_digits 0, whole_digits 0, by simp, by simp⟩, rfl⟩
  constructor
  · intro h
    have hversion : accepts (semverRe T) s = true → IsVersion s := by
      intro haccepts
      rw [← accepts_schemaSemver] at haccepts
      exact h.schemaVersion.mp haccepts
    refine ⟨fun hloose => ?_, fun hover => ?_, fun hloose => ?_⟩
    · exact not_version_of_loose hloose (hversion (accepts_or_loose.mpr (Or.inr hloose)))
    · obtain ⟨v, hv, rest, hrest, heq, -⟩ := id hover
      have haccepts := (accepts_version reads_build).mpr ⟨v, hv, rest, hrest, heq⟩
      exact (semverKey_ok.mp (h.key.mpr (hversion haccepts))).2 hover
    · exact not_id_of_loose hloose (h.schemaId.mp (accepts_or_looseId.mpr (Or.inr hloose)))
  · rintro ⟨hversion, hsized, hid⟩
    have haccepts : accepts (semverRe T) s = true ↔ IsVersion s := by
      rw [accepts_or_loose, or_iff_left hversion]
    have hacceptsId : accepts idRe s = true ↔ IsPolicyId s := by
      rw [accepts_or_looseId, or_iff_left hid]
    refine ⟨?_, ?_, ?_, ?_, hacceptsId⟩
    · rw [semverKey_ok, and_iff_left hsized, haccepts]
    · intro policyId hpolicyId
      rw [path_ok, and_iff_right (accepts_or_looseId.mpr (Or.inl hpolicyId)), haccepts]
    · intro version hversion
      rw [path_ok, and_iff_left (accepts_or_loose.mpr (Or.inl hversion)), hacceptsId]
    · rw [schemaVersion, accepts_schemaSemver, haccepts]

theorem buildOf_text (hv : v.Valid) :
    buildOf T v.text = if v.build = [] then none else some (joined "." v.build) := by
  have hhead := head_version reads_groupedBuild (hv.spelled fun _ => isDecimal_of_isDigit (T := T))
    (show Ended [] from Or.inl rfl)
  rw [List.append_nil] at hhead
  rw [buildOf, schemaSemver, hhead]
  by_cases hpre : v.prerelease = [] <;> by_cases hbuild : v.build = [] <;>
    simp [Regex.textOf, groups, hpre, hbuild]

theorem build_inj {w : SemanticVersion} (hv : v.Valid) (hw : w.Valid)
    (h : buildOf T v.text = buildOf T w.text) : v.build = w.build := by
  rw [buildOf_text hv, buildOf_text hw] at h
  have hdots : ∀ {v : SemanticVersion}, v.Valid → ∀ part ∈ v.build, ofChar '.' ∉ part := by
    intro v hv part hpart hmem
    have hend := (hv.build part hpart).isEnd _ hmem
    cases hend
  by_cases hnil : v.build = [] <;> by_cases hnil' : w.build = [] <;>
    simp only [hnil, hnil', if_true, if_false, reduceCtorEq, Option.some.injEq] at h ⊢
  rw [← splitOn_joined hnil (hdots hv), h, splitOn_joined hnil' (hdots hw)]

theorem distinct (hs : IsVersion s) (ht : IsVersion t) {key key' : PyVal}
    (hkey : semverKey P T digitLimit s = .ok key) (hkey' : semverKey P T digitLimit t = .ok key')
    (heq : key.eq key' = true) (hbuild : buildOf T s = buildOf T t) : s = t := by
  obtain ⟨v, hv, rfl⟩ := hs
  obtain ⟨w, hw, rfl⟩ := ht
  obtain ⟨-, rfl⟩ := (semverKey_valid hv).mp hkey
  obtain ⟨-, rfl⟩ := (semverKey_valid hw).mp hkey'
  obtain ⟨hmajor, hminor, hpatch, hpre⟩ := (key_eq hv hw).mp heq
  have hmeta := build_inj hv hw hbuild
  cases v
  cases w
  simp_all

theorem mem_versions (hid : accepts idRe s = true) (hversion : accepts (semverRe T) t = true)
    {names : List Str} (hmem : t ++ lit ".json" ∈ names) :
    t ∈ FilePolicyStorage.versions T s names := by
  have hne : t ≠ [] := by
    rintro rfl
    obtain ⟨v, hv, rest, -, heq⟩ := (accepts_version reads_build).mp hversion
    have hmajor := hv.major.ne_nil
    simp [text, hmajor] at heq
  have hstem : FilePolicyStorage.stem (t ++ lit ".json") = t := by
    have hlength : (t ++ lit ".json").length = t.length + 5 := List.length_append
    have hpos := List.length_pos_iff.mpr hne
    rw [FilePolicyStorage.stem, hlength, if_neg (by omega), Nat.add_sub_cancel, List.take_left]
  rw [FilePolicyStorage.versions, if_pos hid]
  refine List.mem_filter.mpr ⟨List.mem_map.mpr ⟨_, List.mem_filter.mpr ⟨hmem, ?_⟩, hstem⟩, hversion⟩
  rw [List.isSuffixOf_iff_suffix]
  exact List.suffix_append _ _

end Agreement

-- the checks take the names of the grammars, but for the loose and the oversized ones; among the
-- others names stand for different versions; and what is published has a path, is found there, and
-- has a key unless it is oversized
theorem names_agree_iff (P : Primitives) (T : DecimalTable) (L : Libraries)
    (hid : L.Asks "id" schemaId) (hversion : L.Asks "version" (schemaVersion T)) :
    (∀ s, Agrees P T s ↔ ¬ LooseVersion T s ∧ ¬ Oversized T s ∧ ¬ LooseId s) ∧
      (∀ s t key key', ¬ LooseVersion T s → ¬ LooseVersion T t →
        semverKey P T digitLimit s = .ok key → semverKey P T digitLimit t = .ok key' →
          key.eq key' = true → buildOf T s = buildOf T t → s = t) ∧
      ∀ (registry : VersionedPolicyRegistry) given policy signer signedAt answer,
        (registry.publish P L given policy signer signedAt).2 = .ok answer → ∃ stored path,
          answer = .stored stored ∧
            FilePolicyStorage.path T stored.id stored.version = .ok path ∧
            ((∃ key, semverKey P T digitLimit stored.version = .ok key) ↔
              ¬ Oversized T stored.version) ∧
            ∀ names, stored.version ++ lit ".json" ∈ names →
              stored.version ∈ FilePolicyStorage.versions T stored.id names := by
  refine ⟨fun s => agrees_iff, ?_, ?_⟩
  · intro s t key key' hs ht hkey hkey' heq hbuild
    have his : ∀ {s : Str} {key : PyVal}, ¬ LooseVersion T s →
        semverKey P T digitLimit s = .ok key → IsVersion s := by
      intro s key hs hkey
      exact (accepts_or_loose.mp (semverKey_ok.mp ⟨key, hkey⟩).1).resolve_right hs
    exact distinct (his hs hkey) (his ht hkey') hkey hkey' heq hbuild
  · intro registry given policy signer signedAt answer h
    unfold VersionedPolicyRegistry.publish at h
    split at h
    · cases h
    · rename_i stored hadmit
      obtain ⟨made, hmade, hadmit⟩ := bind_eq_ok.mp hadmit
      obtain ⟨_, -, hadmit⟩ := bind_eq_ok.mp hadmit
      obtain ⟨_, -, hadmit⟩ := bind_eq_ok.mp hadmit
      obtain ⟨_, -, hadmit⟩ := bind_eq_ok.mp hadmit
      obtain ⟨_, -, hadmit⟩ := bind_eq_ok.mp hadmit
      obtain rfl := Except.ok.inj hadmit
      obtain ⟨content, hcontent, hmember, hmember'⟩ := newStored_names hmade
      have hid' : accepts idRe made.id = true := canonicalPolicy_member hid hcontent hmember
      have hversion' := canonicalPolicy_member hversion hcontent hmember'
      rw [schemaVersion, accepts_schemaSemver] at hversion'
      obtain ⟨path, hpath⟩ := path_ok.mpr ⟨hid', hversion'⟩
      have hanswer : answer = .stored made := by
        unfold VersionedPolicyRegistry.insert VersionedPolicyRegistry.save at h
        split at h
        · cases h
        · cases h
        · split at h
          · cases h
          · exact (Except.ok.inj h).symm
      exact ⟨made, path, hanswer, hpath, semverKey_ok.trans (and_iff_right hversion'),
        fun names => mem_versions hid' hversion'⟩

-- whether an entry of this key is a text of the grammar
def namedBy (name : String) (A : Str → Bool) (m : PyKey × PyVal) : Bool :=
  match m with
  | (key, .str s) => decide (key ≠ .str (lit name)) || A s
  | (key, _) => decide (key ≠ .str (lit name))

def patternErrors (T : DecimalTable) : PyVal → Result (List Str)
  | .dict d =>
      if d.all (namedBy "id" schemaId) = true ∧ d.all (namedBy "version" (schemaVersion T)) = true
      then flatErrors (.dict d) else .ok [lit "does not match"]
  | value => flatErrors value

theorem of_namedBy {name : String} {A : Str → Bool} {m : PyKey × PyVal}
    (h : namedBy name A m = true) (hkey : m.1 = .str (lit name)) : ∃ s, m.2 = .str s ∧ A s = true := by
  obtain ⟨key, value⟩ := m
  obtain rfl : key = .str (lit name) := hkey
  cases value with
  | str s => exact ⟨s, rfl, by simpa [namedBy] using h⟩
  | _ => simp [namedBy] at h

theorem of_patternErrors {T : DecimalTable} {d : PyDict}
    (h : patternErrors T (.dict d) = .ok []) : flatErrors (.dict d) = .ok [] ∧
      d.all (namedBy "id" schemaId) = true ∧ d.all (namedBy "version" (schemaVersion T)) = true := by
  simp only [patternErrors] at h
  split at h
  · rename_i hnamed
    exact ⟨h, hnamed⟩
  · simp at h

theorem pattern_identified (T : DecimalTable) (d : PyDict)
    (h : patternErrors T (.dict d) = .ok []) :
    PyDict.has d "id" = true ∧ ∀ m ∈ d, m.1 = .str (lit "id") → ∃ s, m.2 = .str s :=
  flat_identified d (of_patternErrors h).1

theorem pattern_versioned (T : DecimalTable) (d : PyDict)
    (h : patternErrors T (.dict d) = .ok []) : PyDict.has d "version" = true ∧
      ∀ m ∈ d, m.1 = .str (lit "version") → ∃ c s, m.2 = .str (c :: s) :=
  flat_versioned d (of_patternErrors h).1

-- a schema that asks for non-empty strings, and for the two names by their patterns
def patternLibraries (T : DecimalTable) : Libraries where
  iterErrors := patternErrors T
  fromisoformat _ := some (some 0)
  identified := pattern_identified T
  versioned := pattern_versioned T

theorem asks_id (T : DecimalTable) : (patternLibraries T).Asks "id" schemaId := by
  intro d h
  obtain ⟨hflat, hid, -⟩ := of_patternErrors h
  exact ⟨(flat_identified d hflat).1, fun m hm hkey => of_namedBy (List.all_eq_true.mp hid m hm) hkey⟩

theorem asks_version (T : DecimalTable) :
    (patternLibraries T).Asks "version" (schemaVersion T) := by
  intro d h
  obtain ⟨hflat, -, hversion⟩ := of_patternErrors h
  exact ⟨(flat_versioned d hflat).1, fun m hm hkey =>
    of_namedBy (List.all_eq_true.mp hversion m hm) hkey⟩

theorem names_agree_iff_newline :
    (Agrees sizePrimitives asciiDecimals (lit "1.0.0\n") ↔
      ¬ LooseVersion asciiDecimals (lit "1.0.0\n") ∧ ¬ Oversized asciiDecimals (lit "1.0.0\n") ∧
        ¬ LooseId (lit "1.0.0\n")) :=
  (names_agree_iff sizePrimitives asciiDecimals (patternLibraries asciiDecimals)
    (asks_id asciiDecimals) (asks_version asciiDecimals)).1 _

theorem trailing_newline_accepted :
    ¬ ∀ s, Agrees sizePrimitives asciiDecimals s := by
  intro h
  have hloose : LooseVersion asciiDecimals (lit "1.0.0\n") :=
    ⟨⟨lit "1", lit "0", lit "0", [], []⟩,
      ⟨Or.inr ⟨_, _, rfl, rfl, by simp⟩, Or.inl rfl, Or.inl rfl, by simp, by simp⟩, Or.inl rfl⟩
  exact (agrees_iff.mp (h _)).1 hloose

end VersionNames

end GovernedAutonomy
