import GovernedAutonomy.Policy
import GovernedAutonomy.Python.Characters
import GovernedAutonomy.Python.Numerals
import GovernedAutonomy.Python.Ordering
import GovernedAutonomy.Python.Regex

namespace GovernedAutonomy

open Python

-- a version string by its parts; build metadata and pre-release are empty where they are left out
structure SemanticVersion where
  major : Str
  minor : Str
  patch : Str
  prerelease : List Str := []
  build : List Str := []

namespace SemanticVersion

def isLetter (p : CodePoint) : Bool :=
  decide ((97 ≤ p.val ∧ p.val ≤ 122) ∨ (65 ≤ p.val ∧ p.val ≤ 90) ∨ p.val = 45)

-- [0-9a-zA-Z-]
def isIdentifierChar (p : CodePoint) : Bool := isDigit p || isLetter p

def suffix (mark : Char) (parts : List Str) : Str :=
  if parts = [] then [] else ofChar mark :: joined "." parts

def text (v : SemanticVersion) : Str :=
  v.major ++ ofChar '.' :: (v.minor ++ ofChar '.' :: (v.patch ++ (suffix '-' v.prerelease ++
    suffix '+' v.build)))

-- a build identifier of SemVer 2.0.0
def IsIdentifier (s : Str) : Prop := s ≠ [] ∧ ∀ p ∈ s, isIdentifierChar p = true

-- items 2, 9 and 10: numbers have no leading zeros, in a pre-release neither
structure Valid (v : SemanticVersion) : Prop where
  major : Whole v.major
  minor : Whole v.minor
  patch : Whole v.patch
  prerelease : ∀ s ∈ v.prerelease, IsIdentifier s ∧ (AllDigits s → Whole s)
  build : ∀ s ∈ v.build, IsIdentifier s

-- item 11.4: numbers by value and below all others, which are in the order of their characters
def IdentifierPrecedes (s t : Str) : Prop :=
  (AllDigits s ∧ AllDigits t ∧ digitsValue s < digitsValue t) ∨ (AllDigits s ∧ ¬ AllDigits t) ∨
    (¬ AllDigits s ∧ ¬ AllDigits t ∧ s < t)

-- a release is above its pre-releases, and of two of these the first difference decides, or else
-- the length
def PrereleasePrecedes (v w : SemanticVersion) : Prop :=
  v.prerelease ≠ [] ∧ (w.prerelease = [] ∨ List.Lex IdentifierPrecedes v.prerelease w.prerelease)

-- item 11: build metadata does not count
def Precedes (v w : SemanticVersion) : Prop :=
  digitsValue v.major < digitsValue w.major ∨ digitsValue v.major = digitsValue w.major ∧
    (digitsValue v.minor < digitsValue w.minor ∨ digitsValue v.minor = digitsValue w.minor ∧
      (digitsValue v.patch < digitsValue w.patch ∨ digitsValue v.patch = digitsValue w.patch ∧
        PrereleasePrecedes v w))

def SameButBuild (v w : SemanticVersion) : Prop :=
  v.major = w.major ∧ v.minor = w.minor ∧ v.patch = w.patch ∧ v.prerelease = w.prerelease

end SemanticVersion

-- the grammar as the registry writes it down
namespace VersionPattern

open Regex

def isPositive (p : CodePoint) : Bool := decide (49 ≤ p.val ∧ p.val ≤ 57)

def mark (c : Char) : Regex := one (· = ofChar c)

def optional (r : Regex) : Regex := alt r empty

-- r(?:\.r)*
def dotted (r : Regex) : Regex := seq r (star (seq (mark '.') r))

variable (T : DecimalTable)

-- 0|[1-9]\d*
def number : Regex := alt (mark '0') (seq (one isPositive) (many 0 T.isDecimal))

-- 0|[1-9]\d*|\d*[a-zA-Z-][0-9a-zA-Z-]*
def prereleaseIdentifier : Regex :=
  alt (number T) (seqs [many 0 T.isDecimal, one SemanticVersion.isLetter,
    many 0 SemanticVersion.isIdentifierChar])

def buildIdentifiers : Regex := dotted (many 1 SemanticVersion.isIdentifierChar)

def versionPattern (build : Regex) : Regex :=
  seqs [group 1 (number T), mark '.', group 2 (number T), mark '.', group 3 (number T),
    optional (seq (mark '-') (group 4 (dotted (prereleaseIdentifier T)))),
    optional (seq (mark '+') build), finish]

-- _SEMVER_RE
def semverRe : Regex := versionPattern T buildIdentifiers

-- $defs/semver of policy.schema.json, which has a group more
def schemaSemver : Regex := versionPattern T (group 5 buildIdentifiers)

def isIdStart (p : CodePoint) : Bool := isDigit p || decide (97 ≤ p.val ∧ p.val ≤ 122)

def isIdChar (p : CodePoint) : Bool :=
  isIdStart p || p = ofChar '.' || p = ofChar '_' || p = ofChar '-'

-- _ID_RE, and the pattern of an id in policy.schema.json
def idRe : Regex := seqs [one isIdStart, upTo 127 isIdChar, finish]

-- re.match; re.search too, for a pattern that starts with ^
def accepts (r : Regex) (s : Str) : Bool := (Regex.head r s).isSome

end VersionPattern

section Keys

variable (P : Primitives) (T : DecimalTable)

-- int() of decimal digits, of which there is a limit to the number or none
def intOfDigits (limit : Option Nat) (s : Str) : Result ℤ := do
  raiseIf (limit.any (fun n => decide (n < s.length)) = true) intTooLong
  .ok (T.number s)

-- sys.get_int_max_str_digits(), unless a process has lifted the limit
def digitLimit : Option Nat := some maxStrDigits

variable (limit : Option Nat)

def identifierKey (part : Str) : Result PyVal :=
  if T.isdigit part = true then do
    let i ← intOfDigits T limit part
    .ok (.tuple [.int 0, .int i, .str []])
  else .ok (.tuple [.int 1, .int 0, .str part])

def preKey : Option Str → Result PyVal
  | none => .ok (.tuple [.int 1])
  | some pre => do
      let parts ← (pre.splitOn (ofChar '.')).mapM (identifierKey T limit)
      .ok (.tuple [.int 0, .tuple parts])

def semverKey (version : Str) : Result PyVal :=
  match Regex.head (VersionPattern.semverRe T) version with
  | none => .error (.valueError (lit "invalid semantic version: " ++ P.reprStr version))
  | some (groups, _) => do
      let number (i : Nat) : Result ℤ := intOfDigits T limit ((Regex.textOf groups i).getD [])
      let pre ← preKey T limit (Regex.textOf groups 4)
      let major ← number 1
      let minor ← number 2
      let patch ← number 3
      .ok (.tuple [.int major, .int minor, .int patch, pre])

end Keys

theorem joined_cons (sep : String) (s : Str) (ss : List Str) :
    joined sep (s :: ss) = s ++ (ss.map (lit sep ++ ·)).flatten := by
  induction ss generalizing s with
  | nil => simp [joined]
  | cons t ss ih =>
      show s ++ lit sep ++ joined sep (t :: ss) = _
      rw [ih, List.map_cons, List.flatten_cons]
      simp only [List.append_assoc]

namespace SemanticVersion

-- a number of the pattern, over the digits that it takes
def NumberText (digit : CodePoint → Bool) (s : Str) : Prop :=
  s = lit "0" ∨ ∃ p rest, s = p :: rest ∧ VersionPattern.isPositive p = true ∧
    ∀ q ∈ rest, digit q = true

def MixedText (digit : CodePoint → Bool) (s : Str) : Prop :=
  ∃ front p rest, s = front ++ p :: rest ∧ (∀ q ∈ front, digit q = true) ∧ isLetter p = true ∧
    ∀ q ∈ rest, isIdentifierChar q = true

def PrereleaseText (digit : CodePoint → Bool) (s : Str) : Prop :=
  NumberText digit s ∨ MixedText digit s

-- a version as the pattern reads it
structure Spelled (digit : CodePoint → Bool) (v : SemanticVersion) : Prop where
  major : NumberText digit v.major
  minor : NumberText digit v.minor
  patch : NumberText digit v.patch
  prerelease : ∀ s ∈ v.prerelease, PrereleaseText digit s
  build : ∀ s ∈ v.build, IsIdentifier s

theorem NumberText.ne_nil {digit : CodePoint → Bool} {s : Str} (h : NumberText digit s) :
    s ≠ [] := by
  rcases h with rfl | ⟨p, rest, rfl, -⟩
  · exact List.cons_ne_nil _ _
  · exact List.cons_ne_nil _ _

theorem PrereleaseText.ne_nil {digit : CodePoint → Bool} {s : Str} (h : PrereleaseText digit s) :
    s ≠ [] := by
  rcases h with h | ⟨front, p, rest, rfl, -⟩
  · exact h.ne_nil
  · exact List.append_ne_nil_of_right_ne_nil _ (List.cons_ne_nil _ _)

-- the groups of a match, where those of the build are extra
def groups (extra : Str → Regex.Groups) (v : SemanticVersion) : Regex.Groups :=
  (1, v.major) :: (2, v.minor) :: (3, v.patch) ::
    ((if v.prerelease = [] then [] else [(4, joined "." v.prerelease)]) ++
      if v.build = [] then [] else extra (joined "." v.build))

end SemanticVersion

namespace VersionPattern

open Regex SemanticVersion

variable {T : DecimalTable} {r build : Regex} {A : Str → Prop} {found : Regex.Groups}
  {text rest : Str}

theorem plain_mark (c : Char) : Plain (mark c) (fun text => text = [ofChar c]) :=
  (plain_one _).congr fun text => by simp

theorem plain_number : Plain (number T) (NumberText T.isDecimal) := by
  refine ((plain_mark '0').alt ((plain_one _).seq (plain_many 0 _))).congr fun text => ?_
  refine or_congr Iff.rfl ?_
  constructor
  · rintro ⟨_, rest, rfl, ⟨p, rfl, hp⟩, -, hrest⟩
    exact ⟨p, rest, rfl, hp, hrest⟩
  · rintro ⟨p, rest, rfl, hp, hrest⟩
    exact ⟨[p], rest, rfl, ⟨p, rfl, hp⟩, Nat.zero_le _, hrest⟩

theorem plain_prerelease : Plain (prereleaseIdentifier T) (PrereleaseText T.isDecimal) := by
  refine (plain_number.alt ((plain_many 0 _).seq ((plain_one _).seq ((plain_many 0 _).seq
    plain_empty)))).congr fun text => ?_
  refine or_congr Iff.rfl ?_
  constructor
  · rintro ⟨front, _, rfl, ⟨-, hfront⟩, _, _, rfl, ⟨p, rfl, hp⟩, rest, _, rfl, ⟨-, hrest⟩, rfl⟩
    exact ⟨front, p, rest, by simp, hfront, hp, hrest⟩
  · rintro ⟨front, p, rest, rfl, hfront, hp, hrest⟩
    exact ⟨front, p :: rest, rfl, ⟨Nat.zero_le _, hfront⟩, [p], rest, rfl, ⟨p, rfl, hp⟩, rest, [],
      by simp, ⟨Nat.zero_le _, hrest⟩, rfl⟩

theorem plain_dotted (h : Plain r A) : Plain (dotted r) (fun text =>
    ∃ parts : List Str, parts ≠ [] ∧ text = joined "." parts ∧ ∀ part ∈ parts, A part) := by
  have hstar := ((plain_mark '.').seq h).star (by
    rintro text ⟨_, part, rfl, rfl, -⟩
    exact List.cons_ne_nil _ _)
  refine (h.seq hstar).congr fun text => ?_
  constructor
  · rintro ⟨first, _, rfl, hfirst, pieces, rfl, hpieces⟩
    choose! dots parts hpiece using hpieces
    refine ⟨first :: pieces.map parts, List.cons_ne_nil _ _, ?_, ?_⟩
    · have hdotted : ∀ piece ∈ pieces, lit "." ++ parts piece = piece := by
        intro piece hmem
        obtain ⟨heq, hdot, -⟩ := hpiece piece hmem
        rw [hdot] at heq
        exact heq.symm
      rw [joined_cons, List.map_map, Function.comp_def, List.map_congr_left hdotted, List.map_id']
    · refine List.forall_mem_cons.mpr ⟨hfirst, List.forall_mem_map.mpr fun piece hmem => ?_⟩
      exact (hpiece piece hmem).2.2
  · rintro ⟨parts, hne, rfl, hparts⟩
    obtain ⟨first, others, rfl⟩ := List.exists_cons_of_ne_nil hne
    obtain ⟨hfirst, hothers⟩ := List.forall_mem_cons.mp hparts
    refine ⟨first, _, joined_cons _ _ _, hfirst, others.map (lit "." ++ ·), rfl, ?_⟩
    exact List.forall_mem_map.mpr fun part hpart => ⟨lit ".", part, rfl, rfl, hothers part hpart⟩

theorem reads_optional : Reads (optional r) found text rest ↔
    Reads r found text rest ∨ found = [] ∧ text = [] := Iff.rfl

-- a part of the version that may be left out
theorem reads_suffix {c : Char} {extra : Str → Regex.Groups}
    (h : ∀ found text rest, Reads r found text rest ↔ found = extra text ∧
      ∃ parts : List Str, parts ≠ [] ∧ text = joined "." parts ∧ ∀ part ∈ parts, A part) :
    Reads (optional (seq (mark c) r)) found text rest ↔ ∃ parts : List Str,
      (∀ part ∈ parts, A part) ∧ text = suffix c parts ∧
        found = if parts = [] then [] else extra (joined "." parts) := by
  rw [reads_optional]
  constructor
  · rintro (⟨first, second, _, _, rfl, rfl, hmark, hread⟩ | ⟨rfl, rfl⟩)
    · obtain ⟨rfl, rfl⟩ := (plain_mark c _ _ _).mp hmark
      obtain ⟨rfl, parts, hne, rfl, hparts⟩ := (h _ _ _).mp hread
      refine ⟨parts, hparts, ?_, ?_⟩
      · rw [suffix, if_neg hne]
        rfl
      · rw [if_neg hne]
        rfl
    · exact ⟨[], by simp, rfl, rfl⟩
  · rintro ⟨parts, hparts, rfl, rfl⟩
    by_cases hne : parts = []
    · subst hne
      exact Or.inr ⟨rfl, rfl⟩
    · rw [if_neg hne, suffix, if_neg hne]
      exact Or.inl ⟨[], _, [ofChar c], _, rfl, rfl, (plain_mark c _ _ _).mpr ⟨rfl, rfl⟩,
        (h _ _ _).mpr ⟨rfl, parts, hne, rfl, hparts⟩⟩

theorem reads_version {extra : Str → Regex.Groups}
    (hbuild : ∀ found text rest, Reads build found text rest ↔ found = extra text ∧
      ∃ parts : List Str, parts ≠ [] ∧ text = joined "." parts ∧
        ∀ part ∈ parts, IsIdentifier part) :
    Reads (versionPattern T build) found text rest ↔ ∃ v : SemanticVersion,
      v.Spelled T.isDecimal ∧ text = v.text ∧ found = v.groups extra ∧
        (rest = [] ∨ rest = [ofChar '\n']) := by
  have hpre : ∀ found text rest, Reads (group 4 (dotted (prereleaseIdentifier T))) found text rest ↔
      found = [(4, text)] ∧ ∃ parts : List Str, parts ≠ [] ∧ text = joined "." parts ∧
        ∀ part ∈ parts, PrereleaseText T.isDecimal part := by
    intro found text rest
    rw [Reads]
    simp only [plain_dotted plain_prerelease _ _ _]
    constructor
    · rintro ⟨_, rfl, rfl, hparts⟩
      exact ⟨rfl, hparts⟩
    · rintro ⟨rfl, hparts⟩
      exact ⟨[], rfl, rfl, hparts⟩
  constructor
  · rintro ⟨_, _, _, _, rfl, rfl, ⟨_, rfl, hmajor⟩, _, _, _, _, rfl, rfl, hdot, _, _, _, _, rfl, rfl,
      ⟨_, rfl, hminor⟩, _, _, _, _, rfl, rfl, hdot', _, _, _, _, rfl, rfl, ⟨_, rfl, hpatch⟩, _, _,
      _, _, rfl, rfl, hprerelease, _, _, _, _, rfl, rfl, hmeta, _, _, _, _, rfl, rfl,
      ⟨rfl, rfl, hend⟩, rfl, rfl⟩
    obtain ⟨rfl, hmajor'⟩ := (plain_number _ _ _).mp hmajor
    obtain ⟨rfl, hminor'⟩ := (plain_number _ _ _).mp hminor
    obtain ⟨rfl, hpatch'⟩ := (plain_number _ _ _).mp hpatch
    obtain ⟨rfl, rfl⟩ := (plain_mark _ _ _ _).mp hdot
    obtain ⟨rfl, rfl⟩ := (plain_mark _ _ _ _).mp hdot'
    obtain ⟨prerelease, hprerelease', rfl, rfl⟩ := (reads_suffix hpre).mp hprerelease
    obtain ⟨parts, hparts, rfl, rfl⟩ := (reads_suffix hbuild).mp hmeta
    refine ⟨⟨_, _, _, prerelease, parts⟩, ⟨hmajor', hminor', hpatch', hprerelease', hparts⟩,
      ?_, ?_, hend⟩
    · simp [SemanticVersion.text]
    · simp [SemanticVersion.groups]
  · rintro ⟨v, hv, rfl, rfl, hend⟩
    refine ⟨[(1, v.major)], _, v.major, _, rfl, rfl,
      ⟨[], rfl, (plain_number _ _ _).mpr ⟨rfl, hv.major⟩⟩, [], _, [ofChar '.'], _, rfl, rfl,
      (plain_mark _ _ _ _).mpr ⟨rfl, rfl⟩, [(2, v.minor)], _, v.minor, _, rfl, rfl,
      ⟨[], rfl, (plain_number _ _ _).mpr ⟨rfl, hv.minor⟩⟩, [], _, [ofChar '.'], _, rfl, rfl,
      (plain_mark _ _ _ _).mpr ⟨rfl, rfl⟩, [(3, v.patch)], _, v.patch, _, rfl, rfl,
      ⟨[], rfl, (plain_number _ _ _).mpr ⟨rfl, hv.patch⟩⟩, _, _, _, _, rfl, rfl,
      (reads_suffix hpre).mpr ⟨v.prerelease, hv.prerelease, rfl, rfl⟩, _, [], _, [],
      (List.append_nil _).symm, (List.append_nil _).symm,
      (reads_suffix hbuild).mpr ⟨v.build, hv.build, rfl, rfl⟩, [], [], [], [], rfl, rfl,
      ⟨rfl, rfl, by simpa using hend⟩, rfl, rfl⟩

end VersionPattern

theorem splitOn_joined {parts : List Str} (hne : parts ≠ [])
    (h : ∀ part ∈ parts, ofChar '.' ∉ part) :
    (joined "." parts).splitOn (ofChar '.') = parts := by
  induction parts with
  | nil => exact absurd rfl hne
  | cons part parts ih =>
      obtain ⟨hpart, hparts⟩ := List.forall_mem_cons.mp h
      cases parts with
      | nil => exact List.splitOn_eq_singleton hpart
      | cons next parts =>
          have hjoined : joined "." (part :: next :: parts) =
              part ++ ofChar '.' :: joined "." (next :: parts) := by
            show part ++ lit "." ++ joined "." (next :: parts) = _
            rw [List.append_assoc]
            rfl
          rw [hjoined, List.splitOn_append_cons_self_of_not_mem hpart,
            ih (List.cons_ne_nil _ _) hparts]

theorem mem_joined {parts : List Str} {p : CodePoint} (h : p ∈ joined "." parts) :
    p = ofChar '.' ∨ ∃ part ∈ parts, p ∈ part := by
  cases parts with
  | nil => cases h
  | cons part parts =>
      rw [joined_cons] at h
      rcases List.mem_append.mp h with h | h
      · exact Or.inr ⟨part, List.mem_cons_self, h⟩
      · obtain ⟨piece, hpiece, hp⟩ := List.mem_flatten.mp h
        obtain ⟨other, hother, rfl⟩ := List.mem_map.mp hpiece
        rcases List.mem_append.mp hp with hp | hp
        · exact Or.inl (List.mem_singleton.mp hp)
        · exact Or.inr ⟨other, List.mem_cons_of_mem _ hother, hp⟩

-- where two texts of one class of characters stop, if what follows starts with another class
theorem append_inj_of_class {p : CodePoint → Bool} {text text' rest rest' : Str}
    (htext : ∀ c ∈ text, p c = true) (htext' : ∀ c ∈ text', p c = true)
    (hrest : ∀ c, rest.head? = some c → p c = false)
    (hrest' : ∀ c, rest'.head? = some c → p c = false) (h : text ++ rest = text' ++ rest') :
    text = text' ∧ rest = rest' := by
  have hstops : ∀ {s : Str}, (∀ c, s.head? = some c → p c = false) → s.takeWhile p = [] := by
    intro s hs
    cases s with
    | nil => rfl
    | cons c s => rw [List.takeWhile_cons_of_neg (by simp [hs c rfl])]
  have hwhile := congrArg (List.takeWhile p) h
  rw [List.takeWhile_append_of_pos htext, List.takeWhile_append_of_pos htext', hstops hrest,
    hstops hrest', List.append_nil, List.append_nil] at hwhile
  subst hwhile
  exact ⟨rfl, List.append_cancel_left h⟩

namespace SemanticVersion

variable {T : DecimalTable} {v w : SemanticVersion} {s : Str} {p : CodePoint}

theorem isDecimal_ne {c : Char} (hp : T.isDecimal p = true) (hc : isDigit (ofChar c) = false)
    (hascii : (ofChar c).val < 128) : p ≠ ofChar c := by
  rintro rfl
  rw [isDecimal_ascii hascii, hc] at hp
  cases hp

theorem NumberText.isDecimal (h : NumberText T.isDecimal s) : ∀ p ∈ s, T.isDecimal p = true := by
  rcases h with rfl | ⟨p, rest, rfl, hp, hrest⟩
  · intro p hp
    obtain rfl := List.mem_singleton.mp hp
    exact isDecimal_of_isDigit (by decide)
  · refine List.forall_mem_cons.mpr ⟨isDecimal_of_isDigit ?_, hrest⟩
    simp only [VersionPattern.isPositive, isDigit, decide_eq_true_eq] at hp ⊢
    omega

-- the characters that end a part of the version
def isEnd (p : CodePoint) : Bool := p = ofChar '.' || p = ofChar '+' || p = ofChar '\n'

theorem isEnd_isDecimal (h : T.isDecimal p = true) : isEnd p = false := by
  have hdot := isDecimal_ne (c := '.') h (by decide) (by decide)
  have hplus := isDecimal_ne (c := '+') h (by decide) (by decide)
  have hline := isDecimal_ne (c := '\n') h (by decide) (by decide)
  simp [isEnd, hdot, hplus, hline]

theorem isEnd_identifierChar (h : isIdentifierChar p = true) : isEnd p = false := by
  rw [isIdentifierChar, Bool.or_eq_true] at h
  rcases h with h | h
  · exact isEnd_isDecimal (T := asciiDecimals) (isDecimal_of_isDigit h)
  · have hne : ∀ c : Char, isLetter (ofChar c) = false → p ≠ ofChar c := by
      rintro c hc rfl
      rw [hc] at h
      cases h
    simp [isEnd, hne '.' (by decide), hne '+' (by decide), hne '\n' (by decide)]

theorem PrereleaseText.isEnd (h : PrereleaseText T.isDecimal s) :
    ∀ p ∈ s, SemanticVersion.isEnd p = false := by
  rcases h with h | ⟨front, p, rest, rfl, hfront, hp, hrest⟩
  · exact fun p hp => isEnd_isDecimal (h.isDecimal p hp)
  · refine List.forall_mem_append.mpr ⟨fun q hq => isEnd_isDecimal (hfront q hq), ?_⟩
    refine List.forall_mem_cons.mpr ⟨isEnd_identifierChar ?_, fun q hq =>
      isEnd_identifierChar (hrest q hq)⟩
    rw [isIdentifierChar, hp, Bool.or_true]

theorem IsIdentifier.isEnd (h : IsIdentifier s) : ∀ p ∈ s, SemanticVersion.isEnd p = false :=
  fun p hp => isEnd_identifierChar (h.2 p hp)

-- a suffix and what follows it are told apart by the characters that end a part
theorem suffix_inj {mark : Char} {parts parts' : List Str} {rest rest' : Str} {q : CodePoint → Bool}
    (hparts : ∀ part ∈ parts, ∀ p ∈ part, isEnd p = false)
    (hparts' : ∀ part ∈ parts', ∀ p ∈ part, isEnd p = false)
    (hq : ∀ p, isEnd p = false ∨ p = ofChar '.' → q p = true)
    (hrest : ∀ p, rest.head? = some p → q p = false ∧ p ≠ ofChar mark)
    (hrest' : ∀ p, rest'.head? = some p → q p = false ∧ p ≠ ofChar mark)
    (h : suffix mark parts ++ rest = suffix mark parts' ++ rest') :
    parts = parts' ∧ rest = rest' := by
  have hdots : ∀ {parts : List Str}, (∀ part ∈ parts, ∀ p ∈ part, isEnd p = false) →
      ∀ part ∈ parts, ofChar '.' ∉ part := by
    intro parts h part hpart hmem
    have hend := h part hpart _ hmem
    cases hend
  have hclass : ∀ {parts : List Str}, (∀ part ∈ parts, ∀ p ∈ part, isEnd p = false) →
      ∀ p ∈ joined "." parts, q p = true := by
    intro parts h p hp
    rcases mem_joined hp with rfl | ⟨part, hpart, hp⟩
    · exact hq _ (Or.inr rfl)
    · exact hq _ (Or.inl (h part hpart p hp))
  unfold suffix at h
  by_cases hnil : parts = []
  · by_cases hnil' : parts' = []
    · rw [if_pos hnil, if_pos hnil'] at h
      exact ⟨hnil.trans hnil'.symm, h⟩
    · rw [if_pos hnil, if_neg hnil'] at h
      have hhead : rest.head? = some (ofChar mark) := by
        rw [← List.nil_append rest, h]
        rfl
      exact absurd rfl (hrest _ hhead).2
  · by_cases hnil' : parts' = []
    · rw [if_neg hnil, if_pos hnil'] at h
      have hhead : rest'.head? = some (ofChar mark) := by
        rw [← List.nil_append rest', ← h]
        rfl
      exact absurd rfl (hrest' _ hhead).2
    · rw [if_neg hnil, if_neg hnil', List.cons_append, List.cons_append] at h
      obtain ⟨hjoined, hsame⟩ := append_inj_of_class (hclass hparts) (hclass hparts')
        (fun p hp => (hrest p hp).1) (fun p hp => (hrest' p hp).1) (List.cons.inj h).2
      refine ⟨?_, hsame⟩
      rw [← splitOn_joined hnil (hdots hparts), hjoined, splitOn_joined hnil' (hdots hparts')]

def Ended (rest : Str) : Prop := rest = [] ∨ rest = [ofChar '\n']

theorem head_ended {rest : Str} (h : Ended rest) (hp : rest.head? = some p) : p = ofChar '\n' := by
  rcases h with rfl | rfl
  · cases hp
  · exact (Option.some.inj hp).symm

theorem head_suffix {mark : Char} {parts : List Str} {rest : Str}
    (hp : (suffix mark parts ++ rest).head? = some p) : p = ofChar mark ∨ rest.head? = some p := by
  unfold suffix at hp
  split at hp
  · exact Or.inr hp
  · exact Or.inl (Option.some.inj hp).symm

theorem text_inj (hv : v.Spelled T.isDecimal) (hw : w.Spelled T.isDecimal) {rest rest' : Str}
    (hrest : Ended rest) (hrest' : Ended rest') (h : v.text ++ rest = w.text ++ rest') :
    v = w ∧ rest = rest' := by
  have hdot : ∀ {s : Str} {p : CodePoint}, (ofChar '.' :: s).head? = some p →
      T.isDecimal p = false := by
    intro s p hp
    obtain rfl := Option.some.inj hp
    rw [isDecimal_ascii (by decide)]
    decide
  have htail : ∀ {v : SemanticVersion} {rest : Str}, Ended rest → ∀ p,
      (suffix '-' v.prerelease ++ (suffix '+' v.build ++ rest)).head? = some p →
        T.isDecimal p = false := by
    intro v rest hrest p hp
    rcases head_suffix hp with rfl | hp
    · rw [isDecimal_ascii (by decide)]
      decide
    · rcases head_suffix hp with rfl | hp
      · rw [isDecimal_ascii (by decide)]
        decide
      · rw [head_ended hrest hp, isDecimal_ascii (by decide)]
        decide
  have hbuild : ∀ {v : SemanticVersion} {rest : Str}, Ended rest → ∀ p,
      (suffix '+' v.build ++ rest).head? = some p → (!(p = ofChar '+' || p = ofChar '\n')) = false ∧
        p ≠ ofChar '-' := by
    intro v rest hrest p hp
    rcases head_suffix hp with rfl | hp
    · decide
    · rw [head_ended hrest hp]
      decide
  simp only [text, List.append_assoc, List.cons_append] at h
  obtain ⟨hmajor, h⟩ := append_inj_of_class hv.major.isDecimal hw.major.isDecimal
    (fun _ => hdot) (fun _ => hdot) h
  obtain ⟨hminor, h⟩ := append_inj_of_class hv.minor.isDecimal hw.minor.isDecimal
    (fun _ => hdot) (fun _ => hdot) (List.cons.inj h).2
  obtain ⟨hpatch, h⟩ := append_inj_of_class hv.patch.isDecimal hw.patch.isDecimal
    (htail hrest) (htail hrest') (List.cons.inj h).2
  have hinner : ∀ p, isEnd p = false ∨ p = ofChar '.' →
      (!(p = ofChar '+' || p = ofChar '\n')) = true ∧ (!(decide (p = ofChar '\n'))) = true := by
    rintro p (hp | rfl)
    · simp only [isEnd, Bool.or_eq_false_iff] at hp
      simp [hp.2, hp.1.2]
    · decide
  have hline : ∀ {rest : Str}, Ended rest → ∀ p, rest.head? = some p →
      (!(decide (p = ofChar '\n'))) = false ∧ p ≠ ofChar '+' := by
    intro rest hrest p hp
    rw [head_ended hrest hp]
    decide
  obtain ⟨hprerelease, h⟩ := suffix_inj (fun s hs => (hv.prerelease s hs).isEnd)
    (fun s hs => (hw.prerelease s hs).isEnd) (fun p hp => (hinner p hp).1) (hbuild hrest)
    (hbuild hrest') h
  obtain ⟨hmeta, h⟩ := suffix_inj (fun s hs => (hv.build s hs).isEnd)
    (fun s hs => (hw.build s hs).isEnd) (fun p hp => (hinner p hp).2) (hline hrest)
    (hline hrest') h
  refine ⟨?_, h⟩
  cases v
  cases w
  simp_all

end SemanticVersion

namespace SemanticVersion

section Spelling

variable {digit : CodePoint → Bool} {s : Str} {v : SemanticVersion}

theorem numberText_of_whole (hdigit : ∀ p, isDigit p = true → digit p = true) (h : Whole s) :
    NumberText digit s := by
  obtain ⟨hall, hne, hzero⟩ := h
  obtain ⟨p, rest, rfl⟩ := List.exists_cons_of_ne_nil hne
  obtain ⟨hp, hrest⟩ := List.forall_mem_cons.mp hall
  by_cases h0 : p = ofChar '0'
  · subst h0
    exact Or.inl (hzero rfl)
  · refine Or.inr ⟨p, rest, rfl, ?_, fun q hq => hdigit q (hrest q hq)⟩
    have hval : p.val ≠ 48 := fun hval => h0 (Fin.ext hval)
    simp only [VersionPattern.isPositive, isDigit, decide_eq_true_eq] at hp ⊢
    omega

theorem whole_of_numberText (h : NumberText isDigit s) : Whole s := by
  rcases h with rfl | ⟨p, rest, rfl, hp, hrest⟩
  · exact whole_digits 0
  · simp only [VersionPattern.isPositive, decide_eq_true_eq] at hp
    refine ⟨List.forall_mem_cons.mpr ⟨?_, hrest⟩, List.cons_ne_nil _ _, ?_⟩
    · simp only [isDigit, decide_eq_true_eq]
      omega
    · intro hzero
      obtain rfl := Option.some.inj hzero
      exact absurd hp (by decide)

theorem mixedText_of_identifier (hdigit : ∀ p, isDigit p = true → digit p = true)
    (h : IsIdentifier s) (hmixed : ¬ AllDigits s) : MixedText digit s := by
  have hrest : ∀ p ∈ s.dropWhile isDigit, isIdentifierChar p = true :=
    fun p hp => h.2 p ((List.dropWhile_suffix _).subset hp)
  cases hdrop : s.dropWhile isDigit with
  | nil => exact absurd (List.dropWhile_eq_nil_iff.mp hdrop) hmixed
  | cons p rest =>
      rw [hdrop] at hrest
      obtain ⟨hp, hrest⟩ := List.forall_mem_cons.mp hrest
      have hstop : isDigit p = false := by
        have hne : s.dropWhile isDigit ≠ [] := by
          rw [hdrop]
          exact List.cons_ne_nil _ _
        have hhead := List.head_dropWhile_not isDigit hne
        simpa only [hdrop, List.head_cons] using hhead
      rw [isIdentifierChar, hstop, Bool.false_or] at hp
      refine ⟨s.takeWhile isDigit, p, rest, ?_, ?_, hp, hrest⟩
      · rw [← hdrop, List.takeWhile_append_dropWhile]
      · exact fun q hq => hdigit q (List.mem_takeWhile_imp hq)

theorem identifier_of_prereleaseText (h : PrereleaseText isDigit s) :
    IsIdentifier s ∧ (AllDigits s → Whole s) := by
  refine ⟨⟨h.ne_nil, ?_⟩, ?_⟩
  · intro p hp
    rw [isIdentifierChar, Bool.or_eq_true]
    rcases h with h | ⟨front, q, rest, rfl, hfront, hq, hrest⟩
    · exact Or.inl ((whole_of_numberText h).1 p hp)
    · rcases List.mem_append.mp hp with hp | hp
      · exact Or.inl (hfront p hp)
      · rcases List.mem_cons.mp hp with rfl | hp
        · exact Or.inr hq
        · have hchar := hrest p hp
          rwa [isIdentifierChar, Bool.or_eq_true] at hchar
  · intro hall
    rcases h with h | ⟨front, q, rest, rfl, -, hq, -⟩
    · exact whole_of_numberText h
    · have hdigit := hall q (by simp)
      simp only [isDigit, isLetter, decide_eq_true_eq] at hdigit hq
      omega

theorem Valid.spelled (hdigit : ∀ p, isDigit p = true → digit p = true) (h : v.Valid) :
    v.Spelled digit where
  major := numberText_of_whole hdigit h.major
  minor := numberText_of_whole hdigit h.minor
  patch := numberText_of_whole hdigit h.patch
  prerelease := by
    intro s hs
    obtain ⟨hidentifier, hwhole⟩ := h.prerelease s hs
    by_cases hall : AllDigits s
    · exact Or.inl (numberText_of_whole hdigit (hwhole hall))
    · exact Or.inr (mixedText_of_identifier hdigit hidentifier hall)
  build := h.build

theorem Spelled.valid (h : v.Spelled isDigit) : v.Valid where
  major := whole_of_numberText h.major
  minor := whole_of_numberText h.minor
  patch := whole_of_numberText h.patch
  prerelease := fun s hs => identifier_of_prereleaseText (h.prerelease s hs)
  build := h.build

end Spelling

section Key

variable (P : Primitives) (T : DecimalTable)

def identifierEntry (part : Str) : PyVal :=
  if T.isdigit part = true then .tuple [.int 0, .int (T.number part), .str []]
  else .tuple [.int 1, .int 0, .str part]

def prereleaseKey (parts : List Str) : PyVal :=
  if parts = [] then .tuple [.int 1]
  else .tuple [.int 0, .tuple (parts.map (identifierEntry T))]

-- the key of a version, part by part
def key (v : SemanticVersion) : PyVal :=
  .tuple [.int (T.number v.major), .int (T.number v.minor), .int (T.number v.patch),
    prereleaseKey T v.prerelease]

-- the parts that int() reads
def numbers (v : SemanticVersion) : List Str :=
  v.major :: v.minor :: v.patch :: v.prerelease.filter T.isdigit

def Within (limit : Option Nat) (v : SemanticVersion) : Prop :=
  ∀ s ∈ v.numbers T, ∀ n ∈ limit, s.length ≤ n

-- what the keys stand for: numbers come before texts, and a release after its pre-releases
def identifierRank (part : Str) : ℕ ×ₗ ℕ ×ₗ Str :=
  if T.isdigit part = true then toLex (0, toLex (T.number part, []))
  else toLex (1, toLex (0, part))

def prereleaseRank (parts : List Str) : ℕ ×ₗ List (ℕ ×ₗ ℕ ×ₗ Str) :=
  toLex (if parts = [] then 1 else 0, parts.map (identifierRank T))

def rank (v : SemanticVersion) : ℕ ×ₗ ℕ ×ₗ ℕ ×ₗ ℕ ×ₗ List (ℕ ×ₗ ℕ ×ₗ Str) :=
  toLex (T.number v.major, toLex (T.number v.minor, toLex (T.number v.patch,
    prereleaseRank T v.prerelease)))

variable {P T} {v w : SemanticVersion} {s t : Str}

theorem textOf_groups (v : SemanticVersion) : Regex.textOf (v.groups fun _ => []) 1 = some v.major ∧
    Regex.textOf (v.groups fun _ => []) 2 = some v.minor ∧
    Regex.textOf (v.groups fun _ => []) 3 = some v.patch ∧
    Regex.textOf (v.groups fun _ => []) 4 =
      if v.prerelease = [] then none else some (joined "." v.prerelease) := by
  refine ⟨rfl, rfl, rfl, ?_⟩
  by_cases h : v.prerelease = [] <;> simp [Regex.textOf, groups, h]

theorem reads_build (found : Regex.Groups) (text rest : Str) :
    Regex.Reads VersionPattern.buildIdentifiers found text rest ↔ found = [] ∧
      ∃ parts : List Str, parts ≠ [] ∧ text = joined "." parts ∧
        ∀ part ∈ parts, IsIdentifier part := by
  refine VersionPattern.plain_dotted ((Regex.plain_many 1 _).congr fun part => ?_) found text rest
  rw [IsIdentifier, ← List.length_pos_iff]
  exact Iff.rfl

theorem head_version {build : Regex} {extra : Str → Regex.Groups}
    (hbuild : ∀ found text rest, Regex.Reads build found text rest ↔ found = extra text ∧
      ∃ parts : List Str, parts ≠ [] ∧ text = joined "." parts ∧
        ∀ part ∈ parts, IsIdentifier part) (hv : v.Spelled T.isDecimal) {rest : Str}
    (hrest : Ended rest) :
    Regex.head (VersionPattern.versionPattern T build) (v.text ++ rest) =
      some (v.groups extra, rest) := by
  have hmem : (v.groups extra, rest) ∈
      Regex.run (VersionPattern.versionPattern T build) (v.text ++ rest) :=
    Regex.mem_run.mpr ⟨v.text, rfl, (VersionPattern.reads_version hbuild).mpr
      ⟨v, hv, rfl, rfl, hrest⟩⟩
  have hall : ∀ m ∈ Regex.run (VersionPattern.versionPattern T build) (v.text ++ rest),
      m = (v.groups extra, rest) := by
    rintro ⟨found, rest'⟩ hfound
    obtain ⟨_, htext, hreads⟩ := Regex.mem_run.mp hfound
    obtain ⟨w, hw, rfl, rfl, hrest'⟩ := (VersionPattern.reads_version hbuild).mp hreads
    obtain ⟨rfl, rfl⟩ := text_inj hv hw hrest hrest' htext
    rfl
  rw [Regex.head]
  cases hrun : Regex.run (VersionPattern.versionPattern T build) (v.text ++ rest) with
  | nil =>
      rw [hrun] at hmem
      cases hmem
  | cons m ms => rw [List.head?_cons, hall m (hrun ▸ List.mem_cons_self)]

theorem intOfDigits_eq_ok {limit : Option Nat} {i : ℤ} :
    intOfDigits T limit s = .ok i ↔ (∀ n ∈ limit, s.length ≤ n) ∧ (T.number s : ℤ) = i := by
  simp only [intOfDigits, bind_eq_ok, raiseIf_eq_ok, Except.ok.injEq]
  cases limit <;> simp

theorem identifierKey_eq_ok {limit : Option Nat} {entry : PyVal} :
    identifierKey T limit s = .ok entry ↔
      (T.isdigit s = true → ∀ n ∈ limit, s.length ≤ n) ∧ identifierEntry T s = entry := by
  unfold identifierKey identifierEntry
  split
  · next h =>
      simp only [bind_eq_ok, intOfDigits_eq_ok, Except.ok.injEq, h, forall_true_left]
      constructor
      · rintro ⟨i, ⟨hfits, rfl⟩, hentry⟩
        exact ⟨hfits, hentry⟩
      · rintro ⟨hfits, hentry⟩
        exact ⟨_, ⟨hfits, rfl⟩, hentry⟩
  · next h => simp [h]

theorem identifierKeys_eq_ok {limit : Option Nat} {parts : List Str} {entries : List PyVal} :
    parts.mapM (identifierKey T limit) = .ok entries ↔
      (∀ s ∈ parts.filter T.isdigit, ∀ n ∈ limit, s.length ≤ n) ∧
        parts.map (identifierEntry T) = entries := by
  induction parts generalizing entries with
  | nil => simp [pure, Except.pure]
  | cons part parts ih =>
      simp only [List.mapM_cons, bind_eq_ok, identifierKey_eq_ok, ih, List.filter_cons,
        List.map_cons, pure, Except.pure, Except.ok.injEq]
      constructor
      · rintro ⟨_, ⟨hpart, rfl⟩, _, ⟨hparts, rfl⟩, rfl⟩
        refine ⟨?_, rfl⟩
        split
        · next h => exact List.forall_mem_cons.mpr ⟨hpart h, hparts⟩
        · exact hparts
      · rintro ⟨hall, rfl⟩
        refine ⟨_, ⟨fun h => ?_, rfl⟩, _, ⟨fun t ht => hall t ?_, rfl⟩, rfl⟩
        · rw [if_pos h] at hall
          exact (List.forall_mem_cons.mp hall).1
        · split
          · exact List.mem_cons_of_mem _ ht
          · exact ht

theorem preKey_eq_ok {limit : Option Nat} {pre : PyVal} (hv : v.Spelled T.isDecimal) :
    preKey T limit (if v.prerelease = [] then none else some (joined "." v.prerelease)) = .ok pre ↔
      (∀ s ∈ v.prerelease.filter T.isdigit, ∀ n ∈ limit, s.length ≤ n) ∧
        prereleaseKey T v.prerelease = pre := by
  by_cases h : v.prerelease = []
  · rw [if_pos h, h, preKey, prereleaseKey, if_pos rfl]
    simp
  · have hdots : ∀ part ∈ v.prerelease, ofChar '.' ∉ part := by
      intro part hpart hmem
      have hend := (hv.prerelease part hpart).isEnd _ hmem
      cases hend
    rw [if_neg h, preKey, splitOn_joined h hdots, prereleaseKey, if_neg h]
    simp only [bind_eq_ok, identifierKeys_eq_ok, Except.ok.injEq]
    constructor
    · rintro ⟨_, ⟨hfits, rfl⟩, rfl⟩
      exact ⟨hfits, rfl⟩
    · rintro ⟨hfits, rfl⟩
      exact ⟨_, ⟨hfits, rfl⟩, rfl⟩

-- a version has its key where each of its numbers is within the limit
theorem semverKey_text {limit : Option Nat} {key : PyVal} (hv : v.Spelled T.isDecimal) {rest : Str}
    (hrest : Ended rest) :
    semverKey P T limit (v.text ++ rest) = .ok key ↔ v.Within T limit ∧ v.key T = key := by
  obtain ⟨hmajor, hminor, hpatch, hpre⟩ := textOf_groups v
  rw [semverKey, VersionPattern.semverRe, head_version reads_build hv hrest]
  simp only [hmajor, hminor, hpatch, hpre, Option.getD_some, bind_eq_ok, preKey_eq_ok hv,
    intOfDigits_eq_ok, Except.ok.injEq, Within, numbers, List.forall_mem_cons, SemanticVersion.key]
  constructor
  · rintro ⟨_, ⟨hparts, rfl⟩, _, ⟨hmajor, rfl⟩, _, ⟨hminor, rfl⟩, _, ⟨hpatch, rfl⟩, rfl⟩
    exact ⟨⟨hmajor, hminor, hpatch, hparts⟩, rfl⟩
  · rintro ⟨⟨hmajor, hminor, hpatch, hparts⟩, rfl⟩
    exact ⟨_, ⟨hparts, rfl⟩, _, ⟨hmajor, rfl⟩, _, ⟨hminor, rfl⟩, _, ⟨hpatch, rfl⟩, rfl⟩

theorem semverKey_valid {limit : Option Nat} {key : PyVal} (hv : v.Valid) :
    semverKey P T limit v.text = .ok key ↔ v.Within T limit ∧ v.key T = key := by
  have hspelled : v.Spelled T.isDecimal := hv.spelled fun _ => isDecimal_of_isDigit
  have hkey : semverKey P T limit (v.text ++ []) = .ok key ↔ v.Within T limit ∧ v.key T = key :=
    semverKey_text hspelled (Or.inl rfl)
  rwa [List.append_nil] at hkey

-- without a limit every version has its key
theorem semverKey_unbounded (hv : v.Valid) : semverKey P T none v.text = .ok (v.key T) :=
  (semverKey_valid hv).mpr ⟨fun _ _ _ hn => (by cases hn), rfl⟩

theorem isdigit_identifier (h : IsIdentifier s) : T.isdigit s = true ↔ AllDigits s := by
  have hascii : ∀ p ∈ s, (T.isDecimal p || T.special p) = isDigit p := by
    intro p hp
    have hchar := h.2 p hp
    simp only [isIdentifierChar, isDigit, isLetter, Bool.or_eq_true, decide_eq_true_eq] at hchar
    have hlt : p.val < 128 := by omega
    rw [isDecimal_ascii hlt, T.special_ascii p hlt, Bool.or_false]
  rw [DecimalTable.isdigit, Bool.and_eq_true, List.all_eq_true]
  constructor
  · rintro ⟨-, hall⟩ p hp
    rw [← hascii p hp]
    exact hall p hp
  · intro hall
    refine ⟨by simpa using h.1, fun p hp => ?_⟩
    rw [hascii p hp]
    exact hall p hp

theorem ranks_identifier : PyVal.Ranks (identifierEntry T) (identifierRank T) := by
  have htriple := (((PyVal.ranks_nat fun r : ℕ ×ₗ ℕ ×ₗ Str => (ofLex r).1).cons
    ((PyVal.ranks_nat fun r : ℕ ×ₗ ℕ ×ₗ Str => (ofLex (ofLex r).2).1).cons
      (PyVal.ranks_str fun r : ℕ ×ₗ ℕ ×ₗ Str => (ofLex (ofLex r).2).2).singleton)).tuple).comp
    (identifierRank T)
  have hkey : ∀ part, identifierEntry T part = .tuple [.int (ofLex (identifierRank T part)).1,
      .int (ofLex (ofLex (identifierRank T part)).2).1,
      .str (ofLex (ofLex (identifierRank T part)).2).2] := by
    intro part
    unfold identifierEntry identifierRank
    split <;> rfl
  intro s t
  rw [hkey s, hkey t]
  exact htriple s t

-- what follows the flag: nothing at all for a release
theorem ranks_parts : PyVal.RanksItems
    (fun parts : List Str => if parts = [] then [] else [.tuple (parts.map (identifierEntry T))])
    (fun parts => parts.map (identifierRank T)) := by
  intro parts parts'
  cases parts with
  | nil =>
      cases parts' with
      | nil => exact ⟨PyVal.tells_nil.congr (by simp), by simp [PyVal.eqItems]⟩
      | cons part parts' =>
          exact ⟨⟨true, by simp [PyVal.lessItems], by simp⟩, by simp [PyVal.eqItems]⟩
  | cons part parts =>
      cases parts' with
      | nil => exact ⟨⟨false, by simp [PyVal.lessItems], by simp⟩, by simp [PyVal.eqItems]⟩
      | cons part' parts' =>
          simp only [reduceCtorEq, if_false]
          exact ranks_identifier.map.tuple.singleton (part :: parts) (part' :: parts')

theorem ranks_prerelease : PyVal.Ranks (prereleaseKey T) (prereleaseRank T) := by
  have hflag := ((PyVal.ranks_nat fun parts : List Str => if parts = [] then 1 else 0).cons
    (ranks_parts (T := T))).tuple
  have hkey : ∀ parts, prereleaseKey T parts = .tuple (.int ((if parts = [] then 1 else 0 : ℕ) : ℤ) ::
      if parts = [] then [] else [.tuple (parts.map (identifierEntry T))]) := by
    intro parts
    unfold prereleaseKey
    split <;> rfl
  intro parts parts'
  rw [hkey parts, hkey parts']
  exact hflag parts parts'

theorem ranks_key : PyVal.Ranks (key T) (rank T) :=
  ((PyVal.ranks_nat _).cons ((PyVal.ranks_nat _).cons ((PyVal.ranks_nat _).cons
    (ranks_prerelease.comp prerelease).singleton))).tuple

theorem identifierRank_number (h : IsIdentifier s) (hall : AllDigits s) :
    identifierRank T s = toLex (0, toLex (digitsValue s, [])) := by
  rw [identifierRank, if_pos ((isdigit_identifier h).mpr hall), number_eq_digitsValue hall]

theorem identifierRank_text (h : IsIdentifier s) (hall : ¬ AllDigits s) :
    identifierRank T s = toLex (1, toLex (0, s)) := by
  rw [identifierRank, if_neg fun hdigit => hall ((isdigit_identifier h).mp hdigit)]

theorem identifierRank_lt (hs : IsIdentifier s) (ht : IsIdentifier t) :
    identifierRank T s < identifierRank T t ↔ IdentifierPrecedes s t := by
  by_cases hall : AllDigits s
  · by_cases hall' : AllDigits t
    · rw [identifierRank_number hs hall, identifierRank_number ht hall']
      simp [IdentifierPrecedes, hall, hall', Prod.Lex.toLex_lt_toLex]
    · rw [identifierRank_number hs hall, identifierRank_text ht hall']
      simp [IdentifierPrecedes, hall, hall', Prod.Lex.toLex_lt_toLex]
  · by_cases hall' : AllDigits t
    · rw [identifierRank_text hs hall, identifierRank_number ht hall']
      simp [IdentifierPrecedes, hall, hall', Prod.Lex.toLex_lt_toLex]
    · rw [identifierRank_text hs hall, identifierRank_text ht hall']
      simp [IdentifierPrecedes, hall, hall', Prod.Lex.toLex_lt_toLex]

theorem identifierRank_inj (hs : IsIdentifier s ∧ (AllDigits s → Whole s))
    (ht : IsIdentifier t ∧ (AllDigits t → Whole t)) :
    identifierRank T s = identifierRank T t ↔ s = t := by
  refine ⟨fun h => ?_, fun h => h ▸ rfl⟩
  by_cases hall : AllDigits s
  · by_cases hall' : AllDigits t
    · rw [identifierRank_number hs.1 hall, identifierRank_number ht.1 hall'] at h
      exact (digitsValue_inj (hs.2 hall) (ht.2 hall')).mp (by simpa using h)
    · rw [identifierRank_number hs.1 hall, identifierRank_text ht.1 hall'] at h
      simp at h
  · by_cases hall' : AllDigits t
    · rw [identifierRank_text hs.1 hall, identifierRank_number ht.1 hall'] at h
      simp at h
    · rw [identifierRank_text hs.1 hall, identifierRank_text ht.1 hall'] at h
      simpa using h

theorem identifierRanks_inj {ss ts : List Str}
    (hs : ∀ s ∈ ss, IsIdentifier s ∧ (AllDigits s → Whole s))
    (ht : ∀ t ∈ ts, IsIdentifier t ∧ (AllDigits t → Whole t)) :
    ss.map (identifierRank T) = ts.map (identifierRank T) ↔ ss = ts := by
  induction ss generalizing ts with
  | nil => cases ts <;> simp
  | cons s ss ih =>
      cases ts with
      | nil => simp
      | cons t ts =>
          obtain ⟨hs, hss⟩ := List.forall_mem_cons.mp hs
          obtain ⟨ht, hts⟩ := List.forall_mem_cons.mp ht
          rw [List.map_cons, List.map_cons, List.cons.injEq, identifierRank_inj hs ht, ih hss hts,
            List.cons.injEq]

theorem identifierRanks_lt {ss ts : List Str}
    (hs : ∀ s ∈ ss, IsIdentifier s ∧ (AllDigits s → Whole s))
    (ht : ∀ t ∈ ts, IsIdentifier t ∧ (AllDigits t → Whole t)) :
    ss.map (identifierRank T) < ts.map (identifierRank T) ↔ List.Lex IdentifierPrecedes ss ts := by
  induction ss generalizing ts with
  | nil => cases ts <;> simp
  | cons s ss ih =>
      cases ts with
      | nil => simp
      | cons t ts =>
          obtain ⟨hs, hss⟩ := List.forall_mem_cons.mp hs
          obtain ⟨ht, hts⟩ := List.forall_mem_cons.mp ht
          rw [List.map_cons, List.map_cons, List.cons_lt_cons_iff, identifierRank_lt hs.1 ht.1,
            identifierRank_inj hs ht, ih hss hts, List.cons_lex_cons_iff]

theorem prereleaseRank_lt (hv : v.Valid) (hw : w.Valid) :
    prereleaseRank T v.prerelease < prereleaseRank T w.prerelease ↔ PrereleasePrecedes v w := by
  rw [prereleaseRank, prereleaseRank, Prod.Lex.toLex_lt_toLex, PrereleasePrecedes]
  by_cases hnil : v.prerelease = []
  · by_cases hnil' : w.prerelease = [] <;> simp [hnil, hnil']
  · by_cases hnil' : w.prerelease = []
    · simp [hnil, hnil']
    · simp [hnil, hnil', identifierRanks_lt hv.prerelease hw.prerelease]

theorem prereleaseRank_inj (hv : v.Valid) (hw : w.Valid) :
    prereleaseRank T v.prerelease = prereleaseRank T w.prerelease ↔
      v.prerelease = w.prerelease := by
  refine ⟨fun h => ?_, fun h => h ▸ rfl⟩
  rw [prereleaseRank, prereleaseRank, toLex_inj, Prod.mk.injEq] at h
  exact (identifierRanks_inj hv.prerelease hw.prerelease).mp h.2

theorem rank_lt (hv : v.Valid) (hw : w.Valid) : v.rank T < w.rank T ↔ v.Precedes w := by
  simp only [rank, Prod.Lex.toLex_lt_toLex, prereleaseRank_lt hv hw,
    number_eq_digitsValue hv.major.1, number_eq_digitsValue hw.major.1,
    number_eq_digitsValue hv.minor.1, number_eq_digitsValue hw.minor.1,
    number_eq_digitsValue hv.patch.1, number_eq_digitsValue hw.patch.1]
  exact Iff.rfl

theorem rank_eq (hv : v.Valid) (hw : w.Valid) : v.rank T = w.rank T ↔ v.SameButBuild w := by
  simp only [rank, toLex_inj, Prod.mk.injEq, prereleaseRank_inj hv hw,
    number_eq_digitsValue hv.major.1, number_eq_digitsValue hw.major.1,
    number_eq_digitsValue hv.minor.1, number_eq_digitsValue hw.minor.1,
    number_eq_digitsValue hv.patch.1, number_eq_digitsValue hw.patch.1,
    digitsValue_inj hv.major hw.major, digitsValue_inj hv.minor hw.minor,
    digitsValue_inj hv.patch hw.patch]
  exact Iff.rfl

theorem key_less (hv : v.Valid) (hw : w.Valid) :
    PyVal.Tells ((v.key T).less (w.key T)) (v.Precedes w) :=
  (ranks_key v w).1.congr (rank_lt hv hw)

theorem key_eq (hv : v.Valid) (hw : w.Valid) :
    (v.key T).eq (w.key T) = true ↔ v.SameButBuild w :=
  (ranks_key v w).2.trans (rank_eq hv hw)

end Key

-- the keys of versions are in the order that SemVer gives the versions, where int() has no limit
theorem semver_precedence (P : Primitives) (T : DecimalTable) {v w : SemanticVersion}
    (hv : v.Valid) (hw : w.Valid) : ∃ key key', semverKey P T none v.text = .ok key ∧
      semverKey P T none w.text = .ok key' ∧ PyVal.Tells (key.less key') (v.Precedes w) ∧
      (key.eq key' = true ↔ v.SameButBuild w) := by
  exact ⟨v.key T, w.key T, semverKey_unbounded hv, semverKey_unbounded hw, key_less hv hw, key_eq hv hw⟩

def alphaOne : SemanticVersion where
  major := lit "1"
  minor := lit "0"
  patch := lit "0"
  prerelease := [lit "alpha", lit "1"]

def releaseOne : SemanticVersion where
  major := lit "1"
  minor := lit "0"
  patch := lit "0"
  build := [lit "sha"]

theorem valid_alphaOne : alphaOne.Valid where
  major := whole_digits 1
  minor := whole_digits 0
  patch := whole_digits 0
  prerelease := by
    intro s hs
    obtain rfl | rfl : s = lit "alpha" ∨ s = lit "1" := by simpa [alphaOne] using hs
    · exact ⟨⟨by decide, List.all_eq_true.mp (by decide)⟩, fun h =>
        absurd (h (ofChar 'a') (by decide)) (by decide)⟩
    · exact ⟨⟨by decide, List.all_eq_true.mp (by decide)⟩, fun _ => whole_digits 1⟩
  build := fun s hs => by cases hs

theorem valid_releaseOne : releaseOne.Valid where
  major := whole_digits 1
  minor := whole_digits 0
  patch := whole_digits 0
  prerelease := fun s hs => by cases hs
  build := by
    intro s hs
    obtain rfl : s = lit "sha" := by simpa [releaseOne] using hs
    exact ⟨by decide, List.all_eq_true.mp (by decide)⟩

theorem semver_precedence_alphaOne : ∃ key key',
    semverKey sizePrimitives asciiDecimals none (lit "1.0.0-alpha.1") = .ok key ∧
      semverKey sizePrimitives asciiDecimals none (lit "1.0.0+sha") = .ok key' ∧
      PyVal.Tells (key.less key') (alphaOne.Precedes releaseOne) ∧
      (key.eq key' = true ↔ alphaOne.SameButBuild releaseOne) :=
  semver_precedence sizePrimitives asciiDecimals valid_alphaOne valid_releaseOne

end SemanticVersion

end GovernedAutonomy
