import GovernedAutonomy.Worker
import Mathlib.Data.List.Infix

namespace GovernedAutonomy

open Python

namespace Redaction

-- a character of a text, with its position in the container's output where it comes from there
abbrev Cell := CodePoint × Option Nat

def IsRaw (c : Cell) : Prop := c.2.isSome = true

instance (c : Cell) : Decidable (IsRaw c) := inferInstanceAs (Decidable (_ = _))

def text (cells : List Cell) : Str := cells.map Prod.fst

def number : Nat → Str → List Cell
  | _, [] => []
  | i, p :: s => (p, some i) :: number (i + 1) s

def marker : List Cell := (lit "[REDACTED]").map (fun p => (p, none))

-- ContainerSandbox.replaceFrom on characters that remember their positions
def replaceFrom (old : Str) : Nat → List Cell → List Cell
  | _, [] => []
  | n + 1, _ :: cells => replaceFrom old n cells
  | 0, c :: cells =>
      if old.isPrefixOf (text (c :: cells)) then
        marker ++ replaceFrom old (old.length - 1) cells
      else c :: replaceFrom old 0 cells

-- the characters its matches cover
def picked (old : Str) : Nat → List Cell → List Cell
  | _, [] => []
  | n + 1, c :: cells => c :: picked old n cells
  | 0, c :: cells =>
      if old.isPrefixOf (text (c :: cells)) then c :: picked old (old.length - 1) cells
      else picked old 0 cells

def values (secrets : List (Str × Str)) : List Str :=
  (secrets.map Prod.snd).filter (fun value => value ≠ [])

def redact (values : List Str) (cells : List Cell) : List Cell :=
  values.foldl (fun cells value => replaceFrom value 0 cells) cells

def delivered (secrets : List (Str × Str)) (raw : Str) : List Cell :=
  (redact (values secrets) (number 0 raw)).take 4096

section Text

variable {old : Str} {n : Nat} {cells : List Cell} {c : Cell}

@[simp] theorem text_nil : text [] = [] := rfl

@[simp] theorem text_cons : text (c :: cells) = c.1 :: text cells := rfl

theorem text_append (xs ys : List Cell) : text (xs ++ ys) = text xs ++ text ys :=
  List.map_append

theorem text_number (i : Nat) (s : Str) : text (number i s) = s := by
  induction s generalizing i with
  | nil => rfl
  | cons p s ih => rw [number, text_cons, ih]

theorem text_marker : text marker = lit "[REDACTED]" := by
  rw [text, marker, List.map_map]
  exact List.map_id _

theorem text_replaceFrom (old : Str) (n : Nat) (cells : List Cell) :
    text (replaceFrom old n cells) =
      ContainerSandbox.replaceFrom old (lit "[REDACTED]") n (text cells) := by
  induction cells generalizing n with
  | nil => cases n <;> rfl
  | cons c cells ih =>
    cases n with
    | succ n => exact ih n
    | zero =>
      rw [replaceFrom, text_cons, ContainerSandbox.replaceFrom]
      split
      · rw [text_append, text_marker, ih]
      · rw [text_cons, ih]

theorem text_redact (secrets : List (Str × Str)) (cells : List Cell) :
    text (redact (values secrets) cells) = ContainerSandbox.redact secrets (text cells) := by
  induction secrets generalizing cells with
  | nil => rfl
  | cons secret secrets ih =>
    rw [ContainerSandbox.redact, List.foldl_cons, ← ContainerSandbox.redact]
    by_cases hempty : secret.2 = []
    · rw [if_pos hempty, ← ih]
      simp [values, hempty]
    · rw [if_neg hempty, ← text_replaceFrom, ← ih]
      simp [values, hempty, redact]

theorem text_delivered (secrets : List (Str × Str)) (raw : Str) :
    text (delivered secrets raw) = (ContainerSandbox.redact secrets raw).take 4096 := by
  rw [delivered, text, List.map_take, ← text, text_redact, text_number]

end Text

section Step

variable {old : Str} {n : Nat} {cells seg : List Cell} {c : Cell}

theorem not_raw_marker : ∀ c ∈ marker, ¬ IsRaw c := by
  intro c hc
  obtain ⟨p, -, rfl⟩ := List.mem_map.mp hc
  exact Bool.false_ne_true

theorem filter_marker : marker.filter (fun c => IsRaw c) = [] := by
  rw [List.filter_eq_nil_iff]
  intro c hc
  simpa using not_raw_marker c hc

-- what an iteration covers and what it copies is what was there
theorem perm_picked (old : Str) (n : Nat) (cells : List Cell) :
    ((picked old n cells ++ replaceFrom old n cells).filter (fun c => IsRaw c)).Perm
      (cells.filter (fun c => IsRaw c)) := by
  induction cells generalizing n with
  | nil => cases n <;> exact .nil
  | cons c cells ih =>
    cases n with
    | succ n =>
      rw [picked, replaceFrom, List.cons_append, List.filter_cons, List.filter_cons]
      split
      · exact (ih n).cons c
      · exact ih n
    | zero =>
      rw [picked, replaceFrom]
      split
      · have hdrop : (c :: picked old (old.length - 1) cells ++
            (marker ++ replaceFrom old (old.length - 1) cells)).filter (fun c => IsRaw c) =
              (c :: (picked old (old.length - 1) cells ++
                replaceFrom old (old.length - 1) cells)).filter (fun c => IsRaw c) := by
          simp only [List.cons_append, List.filter_cons, List.filter_append, filter_marker,
            List.nil_append]
        rw [hdrop, List.filter_cons, List.filter_cons]
        split
        · exact (ih _).cons c
        · exact ih _
      · have hmove : (picked old 0 cells ++ c :: replaceFrom old 0 cells).Perm
            (c :: (picked old 0 cells ++ replaceFrom old 0 cells)) := List.perm_middle
        refine (hmove.filter (fun c => IsRaw c)).trans ?_
        rw [List.filter_cons, List.filter_cons]
        split
        · exact (ih 0).cons c
        · exact ih 0

def Distinct (cells : List Cell) : Prop := (cells.filter (fun c => IsRaw c)).Nodup

theorem Distinct.replaceFrom (h : Distinct cells) (old : Str) (n : Nat) :
    Distinct (replaceFrom old n cells) := by
  have hall := (perm_picked old n cells).nodup_iff.mpr h
  rw [List.filter_append] at hall
  exact hall.of_append_right

theorem mem_replaceFrom (h : Distinct cells) (hraw : IsRaw c) :
    c ∈ replaceFrom old n cells ↔ c ∈ cells ∧ c ∉ picked old n cells := by
  have hall := (perm_picked old n cells).nodup_iff.mpr h
  have hmem := (perm_picked old n cells).mem_iff (a := c)
  rw [List.filter_append, List.nodup_append] at hall
  simp only [List.mem_filter, List.mem_append, hraw, decide_true, and_true] at hmem
  have hdisjoint : c ∈ picked old n cells → c ∉ replaceFrom old n cells := fun hp hr =>
    hall.2.2 c (List.mem_filter.mpr ⟨hp, by simpa using hraw⟩) c
      (List.mem_filter.mpr ⟨hr, by simpa using hraw⟩) rfl
  constructor
  · intro hr
    exact ⟨hmem.mp (Or.inr hr), fun hp => hdisjoint hp hr⟩
  · rintro ⟨hc, hp⟩
    exact (hmem.mpr hc).resolve_left hp

theorem prefix_replaceFrom (hseg : seg <+: cells)
    (hout : ∀ d ∈ seg, d ∉ picked old n cells) : seg <+: replaceFrom old n cells := by
  induction cells generalizing seg n with
  | nil => exact (List.prefix_nil.mp hseg) ▸ List.nil_prefix
  | cons c cells ih =>
    cases seg with
    | nil => exact List.nil_prefix
    | cons d seg =>
      obtain ⟨rfl, hrest⟩ := List.cons_prefix_cons.mp hseg
      cases n with
      | succ n => exact absurd List.mem_cons_self (hout d List.mem_cons_self)
      | zero =>
        rw [picked] at hout
        rw [replaceFrom]
        split at hout
        · exact absurd List.mem_cons_self (hout d List.mem_cons_self)
        · rename_i hno
          rw [if_neg hno, List.cons_prefix_cons]
          exact ⟨rfl, ih hrest fun e he => hout e (List.mem_cons_of_mem d he)⟩

-- what no match touches stands as before
theorem infix_replaceFrom (hseg : seg <:+: cells)
    (hout : ∀ d ∈ seg, d ∉ picked old n cells) : seg <:+: replaceFrom old n cells := by
  induction cells generalizing n with
  | nil => exact (List.infix_nil.mp hseg) ▸ List.nil_infix
  | cons c cells ih =>
    rcases List.infix_cons_iff.mp hseg with hprefix | hinfix
    · exact (prefix_replaceFrom hprefix hout).isInfix
    · cases n with
      | succ n => exact ih hinfix fun d hd hp => hout d hd (List.mem_cons_of_mem c hp)
      | zero =>
        rw [picked] at hout
        rw [replaceFrom]
        split at hout
        · rename_i hyes
          rw [if_pos hyes]
          exact List.infix_append_of_infix_right
            (ih hinfix fun d hd hp => hout d hd (List.mem_cons_of_mem c hp))
        · rename_i hno
          rw [if_neg hno]
          exact List.infix_cons (ih hinfix hout)

theorem infix_of_append {xs ys : List Cell} (hxs : ∀ c ∈ xs, ¬ IsRaw c)
    (hraw : ∀ c ∈ seg, IsRaw c) (h : seg <:+: xs ++ ys) : seg <:+: ys := by
  induction xs with
  | nil => exact h
  | cons x xs ih =>
    rcases List.infix_cons_iff.mp h with hprefix | hinfix
    · cases seg with
      | nil => exact List.nil_infix
      | cons d seg =>
        obtain ⟨rfl, -⟩ := List.cons_prefix_cons.mp hprefix
        exact absurd (hraw d List.mem_cons_self) (hxs d List.mem_cons_self)
    · exact ih (fun c hc => hxs c (List.mem_cons_of_mem x hc)) hinfix

theorem prefix_of_replaceFrom (hraw : ∀ c ∈ seg, IsRaw c)
    (h : seg <+: replaceFrom old 0 cells) : seg <+: cells := by
  induction cells generalizing seg with
  | nil => exact h
  | cons c cells ih =>
    cases seg with
    | nil => exact List.nil_prefix
    | cons d seg =>
      rw [replaceFrom] at h
      split at h
      · obtain ⟨rfl, -⟩ := List.cons_prefix_cons.mp h
        exact absurd (hraw _ List.mem_cons_self) (not_raw_marker _ List.mem_cons_self)
      · obtain ⟨rfl, hrest⟩ := List.cons_prefix_cons.mp h
        exact List.cons_prefix_cons.mpr
          ⟨rfl, ih (fun e he => hraw e (List.mem_cons_of_mem d he)) hrest⟩

-- nothing of the container's output is brought together by a replacement
theorem infix_of_replaceFrom (hraw : ∀ c ∈ seg, IsRaw c)
    (h : seg <:+: replaceFrom old n cells) : seg <:+: cells := by
  induction cells generalizing n with
  | nil => cases n <;> exact h
  | cons c cells ih =>
    cases n with
    | succ n => exact List.infix_cons (ih h)
    | zero =>
      rw [replaceFrom] at h
      split at h
      · exact List.infix_cons (ih (infix_of_append not_raw_marker hraw h))
      · rcases List.infix_cons_iff.mp h with hprefix | hinfix
        · cases seg with
          | nil => exact List.nil_infix
          | cons d seg =>
            obtain ⟨rfl, hseg⟩ := List.cons_prefix_cons.mp hprefix
            exact (List.cons_prefix_cons.mpr ⟨rfl, prefix_of_replaceFrom
              (fun e he => hraw e (List.mem_cons_of_mem d he)) hseg⟩).isInfix
        · exact List.infix_cons (ih hinfix)

theorem not_infix_replaceFrom (hraw : ∀ c ∈ seg, IsRaw c) (htext : text seg = old)
    (hold : old ≠ []) : ¬ seg <:+: replaceFrom old n cells := by
  have hne : seg ≠ [] := by
    rintro rfl
    exact hold htext.symm
  induction cells generalizing n with
  | nil =>
    intro h
    refine hne (List.infix_nil.mp ?_)
    cases n <;> exact h
  | cons c cells ih =>
    cases n with
    | succ n => exact ih
    | zero =>
      intro h
      rw [replaceFrom] at h
      split at h
      · exact ih (infix_of_append not_raw_marker hraw h)
      · rename_i hno
        rcases List.infix_cons_iff.mp h with hprefix | hinfix
        · obtain ⟨d, seg, rfl⟩ := List.exists_cons_of_ne_nil hne
          obtain ⟨rfl, hseg⟩ := List.cons_prefix_cons.mp hprefix
          have hbefore : d :: seg <+: d :: cells := List.cons_prefix_cons.mpr
            ⟨rfl, prefix_of_replaceFrom (fun e he => hraw e (List.mem_cons_of_mem d he)) hseg⟩
          exact hno (List.isPrefixOf_iff_prefix.mpr (htext ▸ hbefore.map Prod.fst))
        · exact ih hinfix

-- at its own turn no occurrence of a value is passed over
theorem exists_picked (hraw : ∀ c ∈ seg, IsRaw c) (htext : text seg = old) (hold : old ≠ [])
    (hseg : seg <:+: cells) : ∃ d ∈ seg, d ∈ picked old 0 cells := by
  by_contra hnone
  refine not_infix_replaceFrom hraw htext hold (n := 0) (infix_replaceFrom hseg ?_)
  intro d hd hp
  exact hnone ⟨d, hd, hp⟩

theorem mem_picked_of_take (h : c ∈ cells.take n) : c ∈ picked old n cells := by
  induction cells generalizing n with
  | nil => rw [List.take_nil] at h; cases h
  | cons d cells ih =>
    cases n with
    | zero => cases h
    | succ n =>
      rw [List.take_succ_cons, List.mem_cons] at h
      exact List.mem_cons.mpr (h.imp_right ih)

theorem match_of_mem_picked (hold : old ≠ []) (h : c ∈ picked old n cells) :
    c ∈ cells.take n ∨ ∃ found, found <:+: cells ∧ text found = old ∧ c ∈ found ∧
      ∀ d ∈ found, d ∈ picked old n cells := by
  induction cells generalizing n with
  | nil => cases n <;> cases h
  | cons d cells ih =>
    cases n with
    | succ n =>
      rcases List.mem_cons.mp h with rfl | h
      · exact Or.inl List.mem_cons_self
      · rcases ih h with htake | ⟨found, hfound, htext, hc, hall⟩
        · exact Or.inl (List.mem_cons_of_mem d htake)
        · exact Or.inr ⟨found, List.infix_cons hfound, htext, hc,
            fun e he => List.mem_cons_of_mem d (hall e he)⟩
    | zero =>
      refine Or.inr ?_
      rw [picked] at h ⊢
      split at h
      · rename_i hyes
        rw [if_pos hyes]
        have hprefix := List.isPrefixOf_iff_prefix.mp hyes
        have hlength : old.length - 1 + 1 = old.length :=
          Nat.sub_add_cancel (List.length_pos_of_ne_nil hold)
        have hfirst : d :: cells.take (old.length - 1) <:+: d :: cells :=
          (List.cons_prefix_cons.mpr ⟨rfl, List.take_prefix _ _⟩).isInfix
        have htext : text (d :: cells.take (old.length - 1)) = old := by
          rw [← List.take_succ_cons, hlength, text, List.map_take, ← text]
          exact (List.prefix_iff_eq_take.mp hprefix).symm
        have hcovered : ∀ e ∈ d :: cells.take (old.length - 1),
            e ∈ d :: picked old (old.length - 1) cells := by
          intro e he
          exact List.mem_cons.mpr ((List.mem_cons.mp he).imp_right mem_picked_of_take)
        rcases List.mem_cons.mp h with rfl | h
        · exact ⟨_, hfirst, htext, List.mem_cons_self, hcovered⟩
        · rcases ih h with htake | ⟨found, hfound, hsame, hc, hall⟩
          · exact ⟨_, hfirst, htext, List.mem_cons_of_mem d htake, hcovered⟩
          · exact ⟨found, List.infix_cons hfound, hsame, hc,
              fun e he => List.mem_cons_of_mem d (hall e he)⟩
      · rename_i hno
        rw [if_neg hno]
        rcases ih h with htake | ⟨found, hfound, hsame, hc, hall⟩
        · cases htake
        · exact ⟨found, List.infix_cons hfound, hsame, hc, hall⟩

end Step

structure Occurs (values : List Str) (seg cells : List Cell) : Prop where
  inside : seg <:+: cells
  raw : ∀ c ∈ seg, IsRaw c
  value : text seg ∈ values

-- whenever a value's matches cut an occurrence, what they leave of it lies in occurrences of
-- values still to come, which they do not touch
def Mended (old : Str) (later : List Str) (cells : List Cell) : Prop :=
  ∀ seg, Occurs (old :: later) seg cells → (∃ d ∈ seg, d ∈ picked old 0 cells) →
    ∀ c ∈ seg, c ∉ picked old 0 cells →
      ∃ kept, Occurs later kept cells ∧ c ∈ kept ∧ ∀ d ∈ kept, d ∉ picked old 0 cells

def MendedRun : List Str → List Cell → Prop
  | [], _ => True
  | old :: later, cells => Mended old later cells ∧ MendedRun later (replaceFrom old 0 cells)

def Hidden (values : List Str) (cells : List Cell) : Prop :=
  ∀ seg, Occurs values seg cells → ∀ c ∈ seg, c ∉ redact values cells

def Apart (value : Str) : Prop := ∀ p ∈ value, p ∉ lit "[REDACTED]"

def Marked (cells : List Cell) : Prop := ∀ c ∈ cells, ¬ IsRaw c → c.1 ∈ lit "[REDACTED]"

section Run

variable {old : Str} {later vs : List Str} {cells seg : List Cell} {c : Cell}

theorem Occurs.mem (h : Occurs vs seg cells) (hc : c ∈ seg) : c ∈ cells := h.inside.subset hc

theorem Occurs.before (h : Occurs vs seg (replaceFrom old 0 cells)) : Occurs vs seg cells :=
  ⟨infix_of_replaceFrom h.raw h.inside, h.raw, h.value⟩

theorem Occurs.untouched (h : Occurs vs seg cells) (hout : ∀ d ∈ seg, d ∉ picked old 0 cells) :
    Occurs vs seg (replaceFrom old 0 cells) :=
  ⟨infix_replaceFrom h.inside hout, h.raw, h.value⟩

theorem Occurs.cons (h : Occurs later seg cells) : Occurs (old :: later) seg cells :=
  ⟨h.inside, h.raw, List.mem_cons_of_mem old h.value⟩

theorem mem_of_redact (hd : Distinct cells) (hraw : IsRaw c) (h : c ∈ redact vs cells) :
    c ∈ cells := by
  induction vs generalizing cells with
  | nil => exact h
  | cons old later ih => exact ((mem_replaceFrom hd hraw).mp (ih (hd.replaceFrom old 0) h)).1

theorem hidden_of_mended (hvs : ∀ v ∈ vs, v ≠ []) (hd : Distinct cells)
    (h : MendedRun vs cells) : Hidden vs cells := by
  induction vs generalizing cells with
  | nil =>
    intro seg hseg
    exact absurd hseg.value List.not_mem_nil
  | cons old later ih =>
    intro seg hseg c hc hleft
    have hhidden := ih (fun v hv => hvs v (List.mem_cons_of_mem old hv)) (hd.replaceFrom old 0) h.2
    have hcopied : c ∈ replaceFrom old 0 cells :=
      mem_of_redact (hd.replaceFrom old 0) (hseg.raw c hc) hleft
    have hnot := ((mem_replaceFrom hd (hseg.raw c hc)).mp hcopied).2
    by_cases htouched : ∃ d ∈ seg, d ∈ picked old 0 cells
    · obtain ⟨kept, hkept, hck, hout⟩ := h.1 seg hseg htouched c hc hnot
      exact hhidden kept (hkept.untouched hout) c hck hleft
    · have hout : ∀ d ∈ seg, d ∉ picked old 0 cells := fun d hds hp => htouched ⟨d, hds, hp⟩
      rcases List.mem_cons.mp hseg.value with hown | hlater
      · exact htouched (exists_picked hseg.raw hown (hvs old List.mem_cons_self) hseg.inside)
      · have hstands : Occurs later seg (replaceFrom old 0 cells) :=
          ⟨infix_replaceFrom hseg.inside hout, hseg.raw, hlater⟩
        exact hhidden seg hstands c hc hleft

theorem Marked.replaceFrom (h : Marked cells) (old : Str) (n : Nat) :
    Marked (replaceFrom old n cells) := by
  induction cells generalizing n with
  | nil => cases n <;> exact h
  | cons c cells ih =>
    have hrest : Marked cells := fun d hd => h d (List.mem_cons_of_mem c hd)
    cases n with
    | succ n => exact ih hrest n
    | zero =>
      rw [Redaction.replaceFrom]
      split
      · intro d hd _
        rcases List.mem_append.mp hd with hmark | hd
        · obtain ⟨p, hp, rfl⟩ := List.mem_map.mp hmark
          exact hp
        · exact ih hrest _ d hd ‹_›
      · intro d hd hraw
        rcases List.mem_cons.mp hd with rfl | hd
        · exact h d List.mem_cons_self hraw
        · exact ih hrest 0 d hd hraw

theorem occurs_of_picked (hm : Marked cells) (hold : old ≠ []) (hapart : Apart old)
    (h : c ∈ picked old 0 cells) :
    ∃ found, Occurs [old] found cells ∧ c ∈ found ∧ ∀ d ∈ found, d ∈ picked old 0 cells := by
  rcases match_of_mem_picked hold h with htake | ⟨found, hfound, htext, hc, hall⟩
  · cases htake
  · refine ⟨found, ⟨hfound, fun d hd => ?_, List.mem_singleton.mpr htext⟩, hc, hall⟩
    by_contra hraw
    have hin : d.1 ∈ old := htext ▸ List.mem_map_of_mem hd
    exact hapart d.1 hin (hm d (hfound.subset hd) hraw)

-- what a later iteration takes away stands in the text until then as a whole occurrence
theorem occurs_of_redacted (hvs : ∀ v ∈ vs, v ≠ [] ∧ Apart v) (hd : Distinct cells)
    (hm : Marked cells) (hraw : IsRaw c) (hc : c ∈ cells) (h : c ∉ redact vs cells) :
    ∃ found, Occurs vs found cells ∧ c ∈ found := by
  induction vs generalizing cells with
  | nil => exact absurd hc h
  | cons old later ih =>
    obtain ⟨hold, hapart⟩ := hvs old List.mem_cons_self
    by_cases hp : c ∈ picked old 0 cells
    · obtain ⟨found, hfound, hcf, -⟩ := occurs_of_picked hm hold hapart hp
      refine ⟨found, ⟨hfound.inside, hfound.raw, ?_⟩, hcf⟩
      exact List.mem_cons.mpr (Or.inl (List.mem_singleton.mp hfound.value))
    · obtain ⟨found, hfound, hcf⟩ := ih (fun v hv => hvs v (List.mem_cons_of_mem old hv))
        (hd.replaceFrom old 0) (hm.replaceFrom old 0) ((mem_replaceFrom hd hraw).mpr ⟨hc, hp⟩) h
      exact ⟨found, hfound.before.cons, hcf⟩

theorem mended_of_hidden (hvs : ∀ v ∈ vs, v ≠ [] ∧ Apart v) (hd : Distinct cells)
    (hm : Marked cells) (h : Hidden vs cells) : MendedRun vs cells := by
  induction vs generalizing cells with
  | nil => trivial
  | cons old later ih =>
    have hlater : ∀ v ∈ later, v ≠ [] ∧ Apart v := fun v hv => hvs v (List.mem_cons_of_mem old hv)
    constructor
    · intro seg hseg _ c hc hnot
      have hraw := hseg.raw c hc
      have hcopied := (mem_replaceFrom (n := 0) hd hraw).mpr ⟨hseg.mem hc, hnot⟩
      obtain ⟨kept, hkept, hck⟩ := occurs_of_redacted hlater (hd.replaceFrom old 0)
        (hm.replaceFrom old 0) hraw hcopied (h seg hseg c hc)
      refine ⟨kept, hkept.before, hck, fun d hdk => ?_⟩
      exact ((mem_replaceFrom hd (hkept.raw d hdk)).mp (hkept.mem hdk)).2
    · refine ih hlater (hd.replaceFrom old 0) (hm.replaceFrom old 0) ?_
      intro seg hseg c hc
      exact h seg hseg.before.cons c hc

-- an occurrence that overlaps one of an earlier value, or another of its own, lies inside it
def Nested : List Str → List Cell → Prop
  | [], _ => True
  | old :: later, cells =>
      (∀ found seg, Occurs [old] found cells → Occurs (old :: later) seg cells →
        (∃ d ∈ seg, d ∈ found) → seg ⊆ found) ∧ Nested later cells

theorem Nested.replaceFrom (h : Nested vs cells) (old : Str) :
    Nested vs (replaceFrom old 0 cells) := by
  induction vs with
  | nil => trivial
  | cons v later ih =>
    refine ⟨?_, ih h.2⟩
    intro found seg hfound hseg
    exact h.1 found seg hfound.before hseg.before

theorem mended_of_nested (hvs : ∀ v ∈ vs, v ≠ [] ∧ Apart v) (hm : Marked cells)
    (h : Nested vs cells) : MendedRun vs cells := by
  induction vs generalizing cells with
  | nil => trivial
  | cons old later ih =>
    obtain ⟨hold, hapart⟩ := hvs old List.mem_cons_self
    refine ⟨?_, ih (fun v hv => hvs v (List.mem_cons_of_mem old hv)) (hm.replaceFrom old 0)
      (h.2.replaceFrom old)⟩
    rintro seg hseg ⟨d, hd, hp⟩ c hc hnot
    obtain ⟨found, hfound, hdf, hall⟩ := occurs_of_picked hm hold hapart hp
    exact absurd (hall c (h.1 found seg hfound hseg ⟨d, hd, hdf⟩ hc)) hnot

end Run

section Numbering

variable {i k : Nat} {s t : Str} {cells seg : List Cell} {c d : Cell}

theorem number_eq (i : Nat) (s : Str) :
    (number i s).map Prod.snd = (List.range' i s.length).map some := by
  induction s generalizing i with
  | nil => rfl
  | cons p s ih => rw [number, List.map_cons, ih, List.length_cons, List.range'_succ, List.map_cons]

theorem isRaw_number (h : c ∈ number i s) : IsRaw c := by
  have hin := List.mem_map_of_mem (f := Prod.snd) h
  rw [number_eq] at hin
  obtain ⟨k, -, hk⟩ := List.mem_map.mp hin
  rw [IsRaw, ← hk, Option.isSome_some]

theorem nodup_number (i : Nat) (s : Str) : ((number i s).map Prod.snd).Nodup := by
  rw [number_eq]
  exact (List.nodup_range').map (Option.some_injective _)

theorem distinct_number (i : Nat) (s : Str) : Distinct (number i s) :=
  (List.Nodup.of_map _ (nodup_number i s)).filter _

theorem marked_number (i : Nat) (s : Str) : Marked (number i s) :=
  fun _ hc hraw => absurd (isRaw_number hc) hraw

theorem eq_of_position (hc : c ∈ number i s) (hd : d ∈ number i s) (h : c.2 = d.2) : c = d :=
  List.inj_on_of_nodup_map (nodup_number i s) hc hd h

theorem exists_mem_number : (∃ c ∈ number i s, c.2 = some k) ↔ i ≤ k ∧ k < i + s.length := by
  have hmem : (some k ∈ (number i s).map Prod.snd) ↔ i ≤ k ∧ k < i + s.length := by
    rw [number_eq, List.mem_map]
    simp only [Option.some.injEq, exists_eq_right, List.mem_range'_1]
  rw [← hmem, List.mem_map]

theorem take_number (n i : Nat) (s : Str) : (number i s).take n = number i (s.take n) := by
  induction s generalizing i n with
  | nil => cases n <;> rfl
  | cons p s ih =>
    cases n with
    | zero => rfl
    | succ n => rw [number, List.take_succ_cons, List.take_succ_cons, number, ih]

theorem drop_number (n i : Nat) (s : Str) : (number i s).drop n = number (i + n) (s.drop n) := by
  induction s generalizing i n with
  | nil => cases n <;> rfl
  | cons p s ih =>
    cases n with
    | zero => rfl
    | succ n =>
      rw [number, List.drop_succ_cons, List.drop_succ_cons, ih, Nat.add_right_comm, Nat.add_assoc]

theorem infix_number : seg <:+: number 0 s ↔ ∃ n t, seg = number n t ∧ t <+: s.drop n := by
  constructor
  · rintro ⟨pre, post, h⟩
    have hdrop : seg ++ post = number pre.length (s.drop pre.length) := by
      have hafter := congrArg (List.drop pre.length) h
      rw [List.append_assoc, List.drop_left, drop_number, Nat.zero_add] at hafter
      exact hafter
    refine ⟨pre.length, (s.drop pre.length).take seg.length, ?_, List.take_prefix _ _⟩
    have htake := congrArg (List.take seg.length) hdrop
    rw [List.take_left, take_number] at htake
    exact htake
  · rintro ⟨n, t, rfl, ht⟩
    have hprefix : number n t <+: (number 0 s).drop n := by
      rw [drop_number, Nat.zero_add, List.prefix_iff_eq_take.mp ht, ← take_number]
      exact List.take_prefix _ _
    exact hprefix.isInfix.trans (List.drop_suffix n _).isInfix

end Numbering

-- the position lies inside an occurrence of a value that is not empty
def Covered (secrets : List (Str × Str)) (raw : Str) (position : Nat) : Prop :=
  ∃ start, ∃ value ∈ values secrets, value <+: raw.drop start ∧
    start ≤ position ∧ position < start + value.length

def Unseen (secrets : List (Str × Str)) (raw : Str) : Prop :=
  ∀ c ∈ delivered secrets raw, ∀ position, c.2 = some position → ¬ Covered secrets raw position

section Delivery

variable {secrets : List (Str × Str)} {raw : Str} {position : Nat}

theorem mem_values {value : Str} :
    value ∈ values secrets ↔ value ∈ secrets.map Prod.snd ∧ value ≠ [] := by
  rw [values, List.mem_filter, decide_eq_true_iff]

theorem covered_iff : Covered secrets raw position ↔
    ∃ seg, Occurs (values secrets) seg (number 0 raw) ∧ ∃ c ∈ seg, c.2 = some position := by
  constructor
  · rintro ⟨start, value, hvalue, hprefix, hle, hlt⟩
    refine ⟨number start value, ⟨infix_number.mpr ⟨start, value, rfl, hprefix⟩,
      fun c => isRaw_number, (text_number start value).symm ▸ hvalue⟩, ?_⟩
    exact exists_mem_number.mpr ⟨hle, hlt⟩
  · rintro ⟨seg, hseg, hposition⟩
    obtain ⟨start, value, rfl, hprefix⟩ := infix_number.mp hseg.inside
    have hvalue := hseg.value
    rw [text_number] at hvalue
    obtain ⟨hle, hlt⟩ := exists_mem_number.mp hposition
    exact ⟨start, value, hvalue, hprefix, hle, hlt⟩

theorem unseen_of_hidden (h : Hidden (values secrets) (number 0 raw)) : Unseen secrets raw := by
  intro c hc position hposition hcovered
  obtain ⟨seg, hseg, d, hd, hsame⟩ := covered_iff.mp hcovered
  have hleft : c ∈ redact (values secrets) (number 0 raw) := List.mem_of_mem_take hc
  have hraw : IsRaw c := by rw [IsRaw, hposition, Option.isSome_some]
  have hin := mem_of_redact (distinct_number 0 raw) hraw hleft
  have heq : c = d := eq_of_position hin (hseg.mem hd) (hposition.trans hsame.symm)
  exact h seg hseg c (heq ▸ hd) hleft

theorem hidden_of_unseen (hfits : (ContainerSandbox.redact secrets raw).length ≤ 4096)
    (h : Unseen secrets raw) : Hidden (values secrets) (number 0 raw) := by
  intro seg hseg c hc hleft
  have hall : delivered secrets raw = redact (values secrets) (number 0 raw) := by
    refine List.take_of_length_le ?_
    rw [← text_number 0 raw, ← text_redact, text, List.length_map] at hfits
    exact hfits
  obtain ⟨position, hposition⟩ := Option.isSome_iff_exists.mp (hseg.raw c hc)
  exact h c (hall ▸ hleft) position hposition (covered_iff.mpr ⟨seg, hseg, c, hc, hposition⟩)

end Delivery

-- no character of an occurrence of a value is delivered when every occurrence an iteration cuts
-- is made up for by later ones; where the text is delivered whole, only then
theorem output_keeps_no_secret (secrets : List (Str × Str)) (raw : Str) (returncode : ℤ) :
    ContainerSandbox.report secrets (.completed returncode raw) =
        .ok ⟨returncode, text (delivered secrets raw)⟩ ∧
      (MendedRun (values secrets) (number 0 raw) → Unseen secrets raw) ∧
      ((∀ value ∈ secrets.map Prod.snd, Apart value) →
        (ContainerSandbox.redact secrets raw).length ≤ 4096 →
          (Unseen secrets raw ↔ MendedRun (values secrets) (number 0 raw))) := by
  have henough : MendedRun (values secrets) (number 0 raw) → Unseen secrets raw := by
    intro h
    refine unseen_of_hidden (hidden_of_mended (fun v hv => ?_) (distinct_number 0 raw) h)
    exact (mem_values.mp hv).2
  refine ⟨?_, henough, ?_⟩
  · rw [ContainerSandbox.report, text_delivered]
  · intro hapart hfits
    refine ⟨fun h => ?_, henough⟩
    refine mended_of_hidden (fun v hv => ?_) (distinct_number 0 raw) (marked_number 0 raw)
      (hidden_of_unseen hfits h)
    obtain ⟨hin, hne⟩ := mem_values.mp hv
    exact ⟨hne, hapart v hin⟩

-- what the values and the output themselves have to be
theorem unseen_of_nested {secrets : List (Str × Str)} {raw : Str}
    (hapart : ∀ value ∈ secrets.map Prod.snd, Apart value)
    (h : Nested (values secrets) (number 0 raw)) : Unseen secrets raw := by
  have hvs : ∀ v ∈ values secrets, v ≠ [] ∧ Apart v := fun v hv =>
    ⟨(mem_values.mp hv).2, hapart v (mem_values.mp hv).1⟩
  exact unseen_of_hidden (hidden_of_mended (fun v hv => (hvs v hv).1) (distinct_number 0 raw)
    (mended_of_nested hvs (marked_number 0 raw) h))

-- a value that lies inside another and comes before it
theorem output_keeps_a_secret : ¬ ∀ secrets raw, Unseen secrets raw := by
  intro h
  refine h [(lit "PIN", lit "b"), (lit "TOKEN", lit "abc")] (lit "abc") (97, some 0)
    (by decide) 0 rfl ?_
  exact ⟨0, lit "abc", by decide, by decide, by decide, by decide⟩

end Redaction

end GovernedAutonomy
