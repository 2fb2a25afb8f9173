import Mathlib.Data.List.Nodup

set_option linter.unusedSectionVars false

namespace Protocol

-- a row, with the connection whose open transaction has inserted it
structure Inserted (I A : Type*) where
  value : A
  writer : Option I

-- a table in insertion order, and the lock that a transaction holds until its end
structure Guarded (I A : Type*) where
  rows : List (Inserted I A) := []
  holder : Option I := none

namespace Guarded

variable {I A : Type*} [DecidableEq I] (t : Guarded I A) (i : I)

def values : List A := t.rows.map Inserted.value

def committed : List A := (t.rows.filter (fun row => row.writer = none)).map Inserted.value

-- what a statement on the connection reads
def seen : List A :=
  (t.rows.filter (fun row => row.writer = none ∨ row.writer = some i)).map Inserted.value

def IsFree : Prop := t.holder = none ∨ t.holder = some i

instance : Decidable (t.IsFree i) := inferInstanceAs (Decidable (_ ∨ _))

def acquire : Guarded I A := { t with holder := some i }

def release : Option I := if t.holder = some i then none else t.holder

def insert (a : A) : Guarded I A := { t with rows := t.rows ++ [⟨a, some i⟩] }

def settle (row : Inserted I A) : Inserted I A :=
  if row.writer = some i then { row with writer := none } else row

def commit : Guarded I A := ⟨t.rows.map (settle i), t.release i⟩

def rollback : Guarded I A := ⟨t.rows.filter (fun row => row.writer ≠ some i), t.release i⟩

-- only the holder of the lock has rows that are not committed
def Guards : Prop := ∀ row ∈ t.rows, ∀ i, row.writer = some i → t.holder = some i

variable {t i} {j : I} {a : A}

@[simp]
theorem settle_value (row : Inserted I A) : (settle i row).value = row.value := by
  unfold settle
  split <;> rfl

theorem settle_of_ne {row : Inserted I A} (h : row.writer ≠ some i) : settle i row = row := if_neg h

@[simp]
theorem release_eq_some : t.release i = some j ↔ t.holder = some j ∧ i ≠ j := by
  unfold release
  split
  · rename_i h
    simp [h]
  · rename_i h
    constructor
    · rintro hj
      refine ⟨hj, ?_⟩
      rintro rfl
      exact h hj
    · exact And.left

theorem mem_committed : a ∈ t.committed ↔ (⟨a, none⟩ : Inserted I A) ∈ t.rows := by
  simp only [committed, List.mem_map, List.mem_filter, decide_eq_true_eq]
  constructor
  · rintro ⟨⟨b, writer⟩, ⟨hrow, rfl⟩, rfl⟩
    exact hrow
  · intro h
    exact ⟨_, ⟨h, rfl⟩, rfl⟩

theorem committed_sublist : t.committed.Sublist t.values := List.filter_sublist.map _

@[simp]
theorem values_acquire : (t.acquire i).values = t.values := rfl

@[simp]
theorem committed_acquire : (t.acquire i).committed = t.committed := rfl

@[simp]
theorem values_insert : (t.insert i a).values = t.values ++ [a] := by simp [values, insert]

@[simp]
theorem committed_insert : (t.insert i a).committed = t.committed := by
  simp [committed, insert, List.filter_append]

@[simp]
theorem values_commit : (t.commit i).values = t.values := by
  simp only [values, commit, List.map_map]
  exact List.map_congr_left fun row _ => settle_value row

@[simp]
theorem committed_rollback : (t.rollback i).committed = t.committed := by
  simp only [committed, rollback, List.filter_filter]
  congr 2
  funext row
  cases row.writer <;> simp

theorem values_rollback_sublist : (t.rollback i).values.Sublist t.values :=
  List.filter_sublist.map _

theorem mem_committed_commit (h : a ∈ t.committed) : a ∈ (t.commit i).committed := by
  rw [mem_committed] at h ⊢
  exact List.mem_map.mpr ⟨_, h, settle_of_ne nofun⟩

theorem mem_committed_commit_of_inserted (h : (⟨a, some i⟩ : Inserted I A) ∈ t.rows) :
    a ∈ (t.commit i).committed :=
  mem_committed.mpr (List.mem_map.mpr ⟨_, h, if_pos rfl⟩)

theorem inserted_commit (hne : i ≠ j) (h : (⟨a, some j⟩ : Inserted I A) ∈ t.rows) :
    (⟨a, some j⟩ : Inserted I A) ∈ (t.commit i).rows :=
  List.mem_map.mpr ⟨_, h, settle_of_ne (by simpa using hne.symm)⟩

theorem inserted_rollback (hne : i ≠ j) (h : (⟨a, some j⟩ : Inserted I A) ∈ t.rows) :
    (⟨a, some j⟩ : Inserted I A) ∈ (t.rollback i).rows :=
  List.mem_filter.mpr ⟨h, by simpa using hne.symm⟩

theorem inserted_insert : (⟨a, some i⟩ : Inserted I A) ∈ (t.insert i a).rows := by simp [insert]

theorem nodup_insert {B : Type*} (key : A → B) (hnodup : (t.values.map key).Nodup)
    (hfresh : key a ∉ t.values.map key) : ((t.insert i a).values.map key).Nodup := by
  rw [values_insert, List.map_append, List.nodup_append]
  refine ⟨hnodup, List.nodup_singleton _, ?_⟩
  rintro b hfirst _ hsecond rfl
  obtain rfl := List.mem_singleton.mp hsecond
  exact hfresh hfirst

-- a value that is in the table once cannot be committed and still open
theorem not_mem_committed {B : Type*} (key : A → B) (hnodup : (t.values.map key).Nodup)
    (h : (⟨a, some i⟩ : Inserted I A) ∈ t.rows) : a ∉ t.committed := by
  intro hcommitted
  have hrows : (t.rows.map (key ∘ Inserted.value)).Nodup := by rwa [values, List.map_map] at hnodup
  have hsame := List.inj_on_of_nodup_map hrows h (mem_committed.mp hcommitted) rfl
  cases hsame

namespace Guards

theorem empty : (⟨[], none⟩ : Guarded I A).Guards := nofun

theorem acquire (h : t.Guards) (hfree : t.IsFree i) : (t.acquire i).Guards := by
  intro row hrow j hj
  have hholder := h row hrow j hj
  rcases hfree with hnone | hsome
  · rw [hnone] at hholder
    cases hholder
  · rw [hsome] at hholder
    exact hholder

theorem insert (h : t.Guards) (hi : t.holder = some i) : (t.insert i a).Guards := by
  intro row hrow j hj
  rcases List.mem_append.mp hrow with hrow | hrow
  · exact h row hrow j hj
  · obtain rfl := List.mem_singleton.mp hrow
    exact hi.trans hj

theorem commit (h : t.Guards) : (t.commit i).Guards := by
  intro row hrow j hj
  obtain ⟨row', hrow', rfl⟩ := List.mem_map.mp hrow
  by_cases hi : row'.writer = some i
  · rw [settle, if_pos hi] at hj
    cases hj
  · rw [settle_of_ne hi] at hj
    refine release_eq_some.mpr ⟨h row' hrow' j hj, ?_⟩
    rintro rfl
    exact hi hj

theorem rollback (h : t.Guards) : (t.rollback i).Guards := by
  intro row hrow j hj
  obtain ⟨hrow, hi⟩ := List.mem_filter.mp hrow
  refine release_eq_some.mpr ⟨h row hrow j hj, ?_⟩
  rintro rfl
  exact of_decide_eq_true hi hj

theorem writer_ne (h : t.Guards) (hi : t.holder ≠ some i) :
    ∀ row ∈ t.rows, row.writer ≠ some i :=
  fun row hrow hwriter => hi (h row hrow i hwriter)

theorem writer_of_holder (h : t.Guards) (hi : t.holder = some i) :
    ∀ row ∈ t.rows, row.writer = none ∨ row.writer = some i := by
  intro row hrow
  cases hwriter : row.writer with
  | none => exact Or.inl rfl
  | some j => exact Or.inr ((h row hrow j hwriter).symm.trans hi)

theorem seen_eq (h : t.Guards) (hi : t.holder = some i) : t.seen i = t.values := by
  rw [seen, values, List.filter_eq_self.mpr]
  intro row hrow
  exact decide_eq_true (h.writer_of_holder hi row hrow)

theorem committed_commit (h : t.Guards) (hi : t.holder = some i) :
    (t.commit i).committed = t.values := by
  rw [← values_commit (t := t) (i := i), committed, values, List.filter_eq_self.mpr]
  intro row hrow
  obtain ⟨row', hrow', rfl⟩ := List.mem_map.mp hrow
  refine decide_eq_true ?_
  rcases h.writer_of_holder hi row' hrow' with hnone | hsome
  · rw [settle_of_ne (by simp [hnone])]
    exact hnone
  · rw [settle, if_pos hsome]

theorem values_rollback (h : t.Guards) (hi : t.holder = some i) :
    (t.rollback i).values = t.committed := by
  rw [values, committed, Guarded.rollback]
  congr 1
  refine List.filter_congr fun row hrow => ?_
  rcases h.writer_of_holder hi row hrow with hnone | hsome
  · simp [hnone]
  · simp [hsome]

-- a transaction without the lock has nothing to commit
theorem commit_eq (h : t.Guards) (hi : t.holder ≠ some i) : t.commit i = t := by
  rw [Guarded.commit, List.map_congr_left fun row hrow => settle_of_ne (h.writer_ne hi row hrow),
    release, if_neg hi, List.map_id']

theorem rollback_eq (h : t.Guards) (hi : t.holder ≠ some i) : t.rollback i = t := by
  rw [Guarded.rollback, release, if_neg hi, List.filter_eq_self.mpr]
  intro row hrow
  exact decide_eq_true (h.writer_ne hi row hrow)

end Guards

-- what another connection's step leaves to the connection
structure Beside (j : I) (t t' : Guarded I A) : Prop where
  holder : t.holder = some j → t'.holder = some j ∧ t'.values = t.values
  inserted : ∀ a, (⟨a, some j⟩ : Inserted I A) ∈ t.rows → (⟨a, some j⟩ : Inserted I A) ∈ t'.rows

namespace Beside

theorem refl (t : Guarded I A) : Beside j t t := ⟨fun h => ⟨h, rfl⟩, fun _ h => h⟩

theorem acquire (hne : i ≠ j) (hfree : t.IsFree i) : Beside j t (t.acquire i) := by
  refine ⟨?_, fun _ h => h⟩
  intro hj
  rcases hfree with hnone | hsome
  · rw [hnone] at hj
    cases hj
  · exact absurd (Option.some.inj (hsome.symm.trans hj)) hne

theorem insert (hne : i ≠ j) (hi : t.holder = some i) : Beside j t (t.insert i a) := by
  refine ⟨?_, fun _ h => List.mem_append_left _ h⟩
  intro hj
  exact absurd (Option.some.inj (hi.symm.trans hj)) hne

theorem commit (hne : i ≠ j) : Beside j t (t.commit i) := by
  refine ⟨?_, ?_⟩
  · intro hj
    exact ⟨release_eq_some.mpr ⟨hj, hne⟩, values_commit⟩
  · exact fun _ => inserted_commit hne

theorem rollback (h : t.Guards) (hne : i ≠ j) : Beside j t (t.rollback i) := by
  refine ⟨?_, ?_⟩
  · intro hj
    refine ⟨release_eq_some.mpr ⟨hj, hne⟩, ?_⟩
    rw [h.rollback_eq (by simpa [hj] using hne.symm)]
  · exact fun _ => inserted_rollback hne

end Beside

-- a step of one connection on a table whose rows are unique, whoever holds the lock
structure Steps (i : I) (t t' : Guarded I A) : Prop where
  nodup : t.values.Nodup → t'.values.Nodup
  inserted : ∀ j a, i ≠ j → (⟨a, some j⟩ : Inserted I A) ∈ t.rows →
    (⟨a, some j⟩ : Inserted I A) ∈ t'.rows
  committed : ∀ a ∈ t.committed, a ∈ t'.committed

namespace Steps

theorem refl (t : Guarded I A) : Steps i t t := ⟨id, fun _ _ _ h => h, fun _ h => h⟩

theorem acquire : Steps i t (t.acquire i) := ⟨id, fun _ _ _ h => h, fun _ h => h⟩

theorem insert (hfresh : a ∉ t.values) : Steps i t (t.insert i a) := by
  refine ⟨?_, fun _ _ _ h => List.mem_append_left _ h, ?_⟩
  · intro h
    rw [← List.map_id (t.insert i a).values]
    exact nodup_insert id (by rwa [List.map_id]) (by rwa [List.map_id])
  · intro b hb
    rwa [committed_insert]

theorem commit : Steps i t (t.commit i) := by
  refine ⟨?_, fun _ _ => inserted_commit, fun _ => mem_committed_commit⟩
  intro h
  rwa [values_commit]

theorem rollback : Steps i t (t.rollback i) := by
  refine ⟨fun h => h.sublist values_rollback_sublist, fun _ _ => inserted_rollback, ?_⟩
  intro a ha
  rwa [committed_rollback]

end Steps

end Guarded

end Protocol
