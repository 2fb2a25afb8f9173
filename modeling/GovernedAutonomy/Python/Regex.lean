import GovernedAutonomy.Python.Text
import Mathlib.Data.List.Basic
import Mathlib.Data.List.TakeWhile

namespace Python

-- patterns of re, whose loops are greedy
inductive Regex where
  | empty
  | one (p : CodePoint → Bool)
  | many (least : Nat) (p : CodePoint → Bool)
  | upTo (most : Nat) (p : CodePoint → Bool)
  | seq (r t : Regex)
  | alt (r t : Regex)
  | star (r : Regex)
  | group (i : Nat) (r : Regex)
  | finish

namespace Regex

abbrev Groups := List (Nat × Str)

-- the lengths that a greedy loop tries, the longest first
def lengths (least : Nat) : Nat → List Nat
  | 0 => if least = 0 then [0] else []
  | k + 1 => if least ≤ k + 1 then (k + 1) :: lengths least k else []

-- a loop over a pattern, which stops where the pattern reads nothing; the groups of a later turn
-- take the place of those of an earlier one
def turns (step : Str → List (Groups × Str)) : Nat → Str → List (Groups × Str)
  | 0, s => [([], s)]
  | n + 1, s =>
      (step s).flatMap (fun m =>
        if m.2.length < s.length then (turns step n m.2).map (fun m' => (m'.1 ++ m.1, m'.2))
        else []) ++ [([], s)]

-- all ways to match from here on, in the order in which re tries them, with what is left over
def run : Regex → Str → List (Groups × Str)
  | .empty, s => [([], s)]
  | .one _, [] => []
  | .one p, c :: s => if p c then [([], s)] else []
  | .many least p, s => (lengths least (s.takeWhile p).length).map (fun k => ([], s.drop k))
  | .upTo most p, s =>
      (lengths 0 (min most (s.takeWhile p).length)).map (fun k => ([], s.drop k))
  | .seq r t, s =>
      (run r s).flatMap (fun m => (run t m.2).map (fun m' => (m.1 ++ m'.1, m'.2)))
  | .alt r t, s => run r s ++ run t s
  | .star r, s => turns (run r) s.length s
  | .group i r, s =>
      (run r s).map (fun m => ((i, s.take (s.length - m.2.length)) :: m.1, m.2))
  -- $ also stands before a newline that ends the text
  | .finish, s => if s = [] ∨ s = [ofChar '\n'] then [([], s)] else []

-- re.match
def head (r : Regex) (s : Str) : Option (Groups × Str) := (run r s).head?

-- the text of a group, where the group took part in the match
def textOf (groups : Groups) (i : Nat) : Option Str := (groups.find? (fun m => m.1 = i)).map Prod.snd

-- re.finditer: matches from left to right, each search going on where the last match ended; skip
-- counts what is left of that match
def scan (r : Regex) : Nat → Str → List Groups
  | _, [] => []
  | skip + 1, _ :: s => scan r skip s
  | 0, c :: s =>
      match head r (c :: s) with
      | some (groups, rest) => groups :: scan r (s.length - rest.length) s
      | none => scan r 0 s

def finditer (r : Regex) (s : Str) : List Groups := scan r 0 s

-- re.search
def search (r : Regex) (s : Str) : Option Groups := (finditer r s).head?

def literally (same : CodePoint → CodePoint → Bool) (s : String) : Regex :=
  s.toList.foldr (fun c r => .seq (.one (same (ofChar c))) r) .empty

def seqs (rs : List Regex) : Regex := rs.foldr .seq .empty

-- re.split
def splitScan (r : Regex) : Nat → Str → List Str
  | _, [] => [[]]
  | skip + 1, _ :: s => splitScan r skip s
  | 0, c :: s =>
      match head r (c :: s) with
      | some (_, rest) => [] :: splitScan r (s.length - rest.length) s
      | none =>
          match splitScan r 0 s with
          | part :: parts => (c :: part) :: parts
          | [] => [[c]]

def split (r : Regex) (s : Str) : List Str := splitScan r 0 s

section Loops

variable {r t : Regex} {p : CodePoint → Bool} {s : Str}

end Loops

section Reading

-- the turns of a loop, with what each of them reads
inductive Turns (R : Groups → Str → Str → Prop) : Groups → Str → Str → Prop
  | stop (rest : Str) : Turns R [] [] rest
  | turn {groups groups' : Groups} {text text' rest : Str} (hread : R groups text (text' ++ rest))
      (htext : text ≠ []) (hturns : Turns R groups' text' rest) :
      Turns R (groups' ++ groups) (text ++ text') rest

-- what a pattern reads, with what it leaves, whichever way is tried first
def Reads : Regex → Groups → Str → Str → Prop
  | .empty, groups, text, _ => groups = [] ∧ text = []
  | .one p, groups, text, _ => groups = [] ∧ ∃ c, text = [c] ∧ p c = true
  | .many least p, groups, text, _ => groups = [] ∧ least ≤ text.length ∧ ∀ c ∈ text, p c = true
  | .upTo most p, groups, text, _ => groups = [] ∧ text.length ≤ most ∧ ∀ c ∈ text, p c = true
  | .seq r t, groups, text, rest => ∃ first second text' text'', groups = first ++ second ∧
      text = text' ++ text'' ∧ Reads r first text' (text'' ++ rest) ∧ Reads t second text'' rest
  | .alt r t, groups, text, rest => Reads r groups text rest ∨ Reads t groups text rest
  | .star r, groups, text, rest => Turns (Reads r) groups text rest
  | .group i r, groups, text, rest => ∃ inner, groups = (i, text) :: inner ∧
      Reads r inner text rest
  | .finish, groups, text, rest => groups = [] ∧ text = [] ∧ (rest = [] ∨ rest = [ofChar '\n'])

variable {p : CodePoint → Bool} {groups : Groups} {text rest s : Str}

theorem mem_lengths {least n k : Nat} : k ∈ lengths least n ↔ least ≤ k ∧ k ≤ n := by
  induction n with
  | zero =>
      unfold lengths
      split
      · rw [List.mem_singleton]
        omega
      · simp only [List.not_mem_nil, false_iff]
        omega
  | succ n ih =>
      unfold lengths
      split
      · rw [List.mem_cons, ih]
        omega
      · simp only [List.not_mem_nil, false_iff]
        omega

-- the ways a class of characters can be read
theorem exists_prefix {k : Nat} : (k ≤ (s.takeWhile p).length ∧ s.drop k = rest) ↔
    ∃ text, s = text ++ rest ∧ text.length = k ∧ ∀ c ∈ text, p c = true := by
  constructor
  · rintro ⟨hk, rfl⟩
    have hprefix := (List.takeWhile_prefix p : s.takeWhile p <+: s)
    refine ⟨s.take k, (List.take_append_drop k s).symm, ?_, ?_⟩
    · rw [List.length_take]
      exact min_eq_left (hk.trans hprefix.length_le)
    · intro c hc
      have htake : s.take k = (s.takeWhile p).take k := by
        conv_lhs => rw [← List.takeWhile_append_dropWhile (p := p) (l := s)]
        rw [List.take_append_of_le_length hk]
      rw [htake] at hc
      exact List.mem_takeWhile_imp (List.mem_of_mem_take hc)
  · rintro ⟨text, rfl, rfl, htext⟩
    refine ⟨?_, List.drop_left⟩
    rw [List.takeWhile_append_of_pos htext, List.length_append]
    exact Nat.le_add_right _ _

theorem mem_turns {step : Str → List (Groups × Str)} {R : Groups → Str → Str → Prop}
    (hstep : ∀ groups rest s, (groups, rest) ∈ step s ↔ ∃ text, s = text ++ rest ∧
      R groups text rest) {n : Nat} (h : s.length ≤ n) :
    (groups, rest) ∈ turns step n s ↔ ∃ text, s = text ++ rest ∧ Turns R groups text rest := by
  have hstop : ∀ {groups : Groups} {rest s : Str}, (groups, rest) = (([] : Groups), s) →
      ∃ text, s = text ++ rest ∧ Turns R groups text rest := by
    intro groups rest s heq
    obtain ⟨rfl, rfl⟩ := Prod.mk.inj heq
    exact ⟨[], rfl, .stop _⟩
  induction n generalizing groups rest s with
  | zero =>
      rw [turns, List.mem_singleton]
      refine ⟨hstop, ?_⟩
      rintro ⟨text, rfl, hturns⟩
      obtain ⟨htext, hrest⟩ := List.append_eq_nil_iff.mp
        (List.eq_nil_of_length_eq_zero (Nat.le_zero.mp h))
      cases hturns with
      | stop => rw [hrest, List.append_nil]
      | turn _ hne _ => exact absurd (List.append_eq_nil_iff.mp htext).1 hne
  | succ n ih =>
      rw [turns, List.mem_append, List.mem_flatMap, List.mem_singleton]
      constructor
      · rintro (⟨⟨first, rest'⟩, hfirst, hmem⟩ | hmem)
        · split at hmem
          · rename_i hless
            obtain ⟨⟨later, rest''⟩, hlater, heq⟩ := List.mem_map.mp hmem
            obtain ⟨rfl, rfl⟩ := Prod.mk.inj heq
            obtain ⟨text, rfl, hread⟩ := (hstep _ _ _).mp hfirst
            have hrest : rest'.length ≤ n := by
              rw [List.length_append] at hless h
              exact Nat.le_of_lt_succ (lt_of_lt_of_le hless h)
            obtain ⟨text', rfl, hturns⟩ := (ih hrest).mp hlater
            refine ⟨text ++ text', (List.append_assoc ..).symm, .turn hread ?_ hturns⟩
            rintro rfl
            exact absurd hless (by simp)
          · cases hmem
        · exact hstop hmem
      · rintro ⟨text, rfl, hturns⟩
        cases hturns with
        | stop => exact Or.inr rfl
        | @turn first later text text' _ hread hne hturns =>
            left
            have hlength : 0 < text.length := List.length_pos_iff.mpr hne
            refine ⟨(first, text' ++ rest), (hstep _ _ _).mpr ⟨text, List.append_assoc .., hread⟩, ?_⟩
            simp only [List.length_append] at h ⊢
            rw [if_pos (by omega)]
            refine List.mem_map.mpr ⟨(later, rest), (ih ?_).mpr ⟨text', rfl, hturns⟩, rfl⟩
            rw [List.length_append]
            omega

theorem mem_run {r : Regex} : (groups, rest) ∈ run r s ↔
    ∃ text, s = text ++ rest ∧ Reads r groups text rest := by
  induction r generalizing groups rest s with
  | empty =>
      rw [run, List.mem_singleton, Prod.mk.injEq]
      constructor
      · rintro ⟨rfl, rfl⟩
        exact ⟨[], rfl, rfl, rfl⟩
      · rintro ⟨text, rfl, rfl, rfl⟩
        exact ⟨rfl, rfl⟩
  | one p =>
      constructor
      · intro h
        cases s with
        | nil => cases h
        | cons c s =>
            rw [run] at h
            split at h
            · rename_i hc
              obtain ⟨rfl, rfl⟩ := Prod.mk.inj (List.mem_singleton.mp h)
              exact ⟨[c], rfl, rfl, c, rfl, hc⟩
            · cases h
      · rintro ⟨text, rfl, rfl, c, rfl, hc⟩
        rw [List.singleton_append, run, if_pos hc]
        exact List.mem_singleton_self _
  | many least p =>
      simp only [run, List.mem_map, mem_lengths, Prod.mk.injEq]
      constructor
      · rintro ⟨k, ⟨hleast, hk⟩, rfl, hrest⟩
        obtain ⟨text, hs, rfl, htext⟩ := exists_prefix.mp ⟨hk, hrest⟩
        exact ⟨text, hs, rfl, hleast, htext⟩
      · rintro ⟨text, hs, rfl, hleast, htext⟩
        obtain ⟨hk, hrest⟩ := exists_prefix.mpr ⟨text, hs, rfl, htext⟩
        exact ⟨text.length, ⟨hleast, hk⟩, rfl, hrest⟩
  | upTo most p =>
      simp only [run, List.mem_map, mem_lengths, Prod.mk.injEq, Nat.le_min]
      constructor
      · rintro ⟨k, ⟨-, hmost, hk⟩, rfl, hrest⟩
        obtain ⟨text, hs, rfl, htext⟩ := exists_prefix.mp ⟨hk, hrest⟩
        exact ⟨text, hs, rfl, hmost, htext⟩
      · rintro ⟨text, hs, rfl, hmost, htext⟩
        obtain ⟨hk, hrest⟩ := exists_prefix.mpr ⟨text, hs, rfl, htext⟩
        exact ⟨text.length, ⟨Nat.zero_le _, hmost, hk⟩, rfl, hrest⟩
  | seq r t ihr iht =>
      simp only [run, List.mem_flatMap, List.mem_map, Prod.exists, Prod.mk.injEq]
      constructor
      · rintro ⟨first, rest', hfirst, second, rest'', hsecond, rfl, rfl⟩
        obtain ⟨text, rfl, hr⟩ := ihr.mp hfirst
        obtain ⟨text', rfl, ht⟩ := iht.mp hsecond
        exact ⟨text ++ text', (List.append_assoc ..).symm, first, second, text, text', rfl, rfl,
          hr, ht⟩
      · rintro ⟨text, rfl, first, second, text, text', rfl, rfl, hr, ht⟩
        exact ⟨first, text' ++ rest, ihr.mpr ⟨text, List.append_assoc .., hr⟩, second, rest,
          iht.mpr ⟨text', rfl, ht⟩, rfl, rfl⟩
  | alt r t ihr iht =>
      rw [run, List.mem_append, ihr, iht]
      constructor
      · rintro (⟨text, hs, hr⟩ | ⟨text, hs, ht⟩)
        · exact ⟨text, hs, Or.inl hr⟩
        · exact ⟨text, hs, Or.inr ht⟩
      · rintro ⟨text, hs, hr | ht⟩
        · exact Or.inl ⟨text, hs, hr⟩
        · exact Or.inr ⟨text, hs, ht⟩
  | star r ih =>
      rw [run]
      exact mem_turns (fun groups rest s => ih) le_rfl
  | group i r ih =>
      simp only [run, List.mem_map, Prod.exists, Prod.mk.injEq]
      constructor
      · rintro ⟨inner, rest', hinner, rfl, rfl⟩
        obtain ⟨text, rfl, hr⟩ := ih.mp hinner
        refine ⟨text, rfl, inner, ?_, hr⟩
        simp
      · rintro ⟨text, rfl, inner, rfl, hr⟩
        refine ⟨inner, rest, ih.mpr ⟨text, rfl, hr⟩, ?_, rfl⟩
        simp
  | finish =>
      constructor
      · intro h
        rw [run] at h
        split at h
        · rename_i hend
          obtain ⟨rfl, rfl⟩ := Prod.mk.inj (List.mem_singleton.mp h)
          exact ⟨[], rfl, rfl, rfl, hend⟩
        · cases h
      · rintro ⟨text, rfl, rfl, rfl, hend⟩
        rw [run, List.nil_append, if_pos hend]
        exact List.mem_singleton_self _

end Reading

section Plain

-- a pattern without groups that reads just the texts of A, wherever it stands
def Plain (r : Regex) (A : Str → Prop) : Prop :=
  ∀ groups text rest, Reads r groups text rest ↔ groups = [] ∧ A text

variable {r t : Regex} {A B : Str → Prop}

theorem plain_one (p : CodePoint → Bool) : Plain (.one p) (fun text => ∃ c, text = [c] ∧ p c = true) :=
  fun _ _ _ => Iff.rfl

theorem plain_many (least : Nat) (p : CodePoint → Bool) :
    Plain (.many least p) (fun text => least ≤ text.length ∧ ∀ c ∈ text, p c = true) :=
  fun _ _ _ => Iff.rfl

theorem plain_upTo (most : Nat) (p : CodePoint → Bool) :
    Plain (.upTo most p) (fun text => text.length ≤ most ∧ ∀ c ∈ text, p c = true) :=
  fun _ _ _ => Iff.rfl

theorem plain_empty : Plain .empty (fun text => text = []) := fun _ _ _ => Iff.rfl

theorem Plain.congr (h : Plain r A) (hAB : ∀ text, A text ↔ B text) : Plain r B := by
  intro groups text rest
  rw [h, hAB]

theorem Plain.seq (hr : Plain r A) (ht : Plain t B) : Plain (.seq r t)
    (fun text => ∃ first second, text = first ++ second ∧ A first ∧ B second) := by
  intro groups text rest
  simp only [Reads, hr _ _ _, ht _ _ _]
  constructor
  · rintro ⟨_, _, first, second, rfl, rfl, ⟨rfl, hfirst⟩, rfl, hsecond⟩
    exact ⟨rfl, first, second, rfl, hfirst, hsecond⟩
  · rintro ⟨rfl, first, second, rfl, hfirst, hsecond⟩
    exact ⟨[], [], first, second, rfl, rfl, ⟨rfl, hfirst⟩, rfl, hsecond⟩

theorem Plain.alt (hr : Plain r A) (ht : Plain t B) :
    Plain (.alt r t) (fun text => A text ∨ B text) := by
  intro groups text rest
  simp only [Reads, hr _ _ _, ht _ _ _, and_or_left]

theorem Plain.star (hr : Plain r A) (hne : ∀ text, A text → text ≠ []) : Plain (.star r)
    (fun text => ∃ parts : List Str, text = parts.flatten ∧ ∀ part ∈ parts, A part) := by
  intro groups text rest
  constructor
  · intro h
    rw [Reads] at h
    induction h with
    | stop rest => exact ⟨rfl, [], rfl, by simp⟩
    | @turn first later text text' rest hread hne hturns ih =>
        obtain ⟨rfl, htext⟩ := (hr _ _ _).mp hread
        obtain ⟨rfl, parts, rfl, hparts⟩ := ih
        exact ⟨rfl, text :: parts, rfl, List.forall_mem_cons.mpr ⟨htext, hparts⟩⟩
  · rintro ⟨rfl, parts, rfl, hparts⟩
    rw [Reads]
    induction parts with
    | nil => exact .stop _
    | cons part parts ih =>
        obtain ⟨hpart, hrest⟩ := List.forall_mem_cons.mp hparts
        rw [List.flatten_cons]
        exact .turn ((hr _ _ _).mpr ⟨rfl, hpart⟩) (hne part hpart) (ih hrest)

end Plain

end Regex

end Python
