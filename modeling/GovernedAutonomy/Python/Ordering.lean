import GovernedAutonomy.Python.Exception
import Mathlib.Data.List.Lex
import Mathlib.Data.List.Sort
import Mathlib.Data.Prod.Lex

namespace Python

namespace PyVal

def isNumber : PyVal → Bool
  | .int _ => true
  | .bool _ => true
  | .float _ => true
  | _ => false

-- a comparison with a number: false for a NaN, and an error for what is not a number
def compareNumber (v : PyVal) (test : PyFloat.Extended → Bool) : Result Bool :=
  if v.isNumber then .ok (v.number?.any test) else .error (.builtin .typeError)

@[simp]
theorem compareNumber_eq_ok {v : PyVal} {test : PyFloat.Extended → Bool} {b : Bool} :
    v.compareNumber test = .ok b ↔ v.isNumber = true ∧ v.number?.any test = b := by
  rw [compareNumber]
  split_ifs with h <;> simp [h]

theorem isNumber_of_number? {v : PyVal} {x : PyFloat.Extended} (h : v.number? = some x) :
    v.isNumber = true := by
  cases v <;> first | rfl | cases h

theorem number?_eq_none {v : PyVal} (hv : v.isNumber = true) :
    v.number? = Option.none ↔ v = .float .nan := by
  cases v with
  | float f =>
      cases f with
      | inf neg => cases neg <;> simp [number?, PyFloat.value?]
      | _ => simp [number?, PyFloat.value?]
  | int i => simp [number?]
  | bool b => simp [number?]
  | _ => cases hv

-- nothing is below a NaN or above one
def lessNumber (v w : PyVal) : Bool :=
  match v.number?, w.number? with
  | some x, some y => decide (x < y)
  | _, _ => false

mutual
-- v < w; two sequences compare as the first items of theirs that are not equal
def less : PyVal → PyVal → Result Bool
  | .str s, .str t => .ok (decide (s < t))
  | .list xs, .list ys => lessItems xs ys
  | .tuple xs, .tuple ys => lessItems xs ys
  | v, w =>
      if (v.isNumber && w.isNumber) = true then .ok (lessNumber v w)
      else .error (.builtin .typeError)

def lessItems : List PyVal → List PyVal → Result Bool
  | _, [] => .ok false
  | [], _ :: _ => .ok true
  | x :: xs, y :: ys => if x.eq y = true then lessItems xs ys else less x y
end

-- the only error of a comparison
theorem less_eq_error_of_number {v w : PyVal} {e : Exc}
    (h : (if (v.isNumber && w.isNumber) = true then Except.ok (lessNumber v w)
      else .error (.builtin .typeError)) = .error e) : e = .builtin .typeError := by
  split at h
  · cases h
  · exact (Except.error.inj h).symm

mutual
theorem less_eq_error : ∀ {v w : PyVal} {e : Exc}, less v w = .error e → e = .builtin .typeError
  | v, w, e, h => by
      unfold less at h
      split at h
      · cases h
      · exact lessItems_eq_error h
      · exact lessItems_eq_error h
      · exact less_eq_error_of_number h

theorem lessItems_eq_error : ∀ {xs ys : List PyVal} {e : Exc},
    lessItems xs ys = .error e → e = .builtin .typeError
  | _, [], _, h => by
      rw [lessItems] at h
      cases h
  | [], _ :: _, _, h => by
      rw [lessItems] at h
      cases h
  | x :: xs, y :: ys, _, h => by
      rw [lessItems] at h
      split at h
      · exact lessItems_eq_error h
      · exact less_eq_error h
end

-- a comparison that does not raise and is true just where A holds
def Tells (x : Result Bool) (A : Prop) : Prop := ∃ b, x = .ok b ∧ (b = true ↔ A)

section Tells

variable {A B : Prop}

theorem Tells.congr {x : Result Bool} (h : Tells x A) (hAB : A ↔ B) : Tells x B := by
  obtain ⟨b, hb, hA⟩ := h
  exact ⟨b, hb, hA.trans hAB⟩

theorem tells_str (s t : Str) : Tells (less (.str s) (.str t)) (s < t) :=
  ⟨_, by rw [less], decide_eq_true_iff⟩

theorem intValue_lt {i j : ℤ} : intValue i < intValue j ↔ i < j := by
  rw [intValue, intValue, WithBot.coe_lt_coe, WithTop.coe_lt_coe, Int.cast_lt]

theorem intValue_le {i j : ℤ} : intValue i ≤ intValue j ↔ i ≤ j := by
  rw [intValue, intValue, WithBot.coe_le_coe, WithTop.coe_le_coe, Int.cast_le]

theorem tells_int (i j : ℤ) : Tells (less (.int i) (.int j)) (i < j) := by
  refine ⟨lessNumber (.int i) (.int j), by simp [less, isNumber], ?_⟩
  rw [lessNumber, number?, number?, decide_eq_true_iff, intValue_lt]

theorem eq_int_int {i j : ℤ} : (PyVal.int i).eq (.int j) = true ↔ i = j := by
  rw [eq, numEq, number?, number?]
  simp [intValue]

theorem tells_tuple {xs ys : List PyVal} (h : Tells (lessItems xs ys) A) :
    Tells (less (.tuple xs) (.tuple ys)) A := by
  rwa [less]

theorem eq_tuple_tuple {xs ys : List PyVal} :
    (PyVal.tuple xs).eq (.tuple ys) = eqItems xs ys := by
  rw [eq]

theorem tells_cons {C : Prop} {x y : PyVal} {xs ys : List PyVal} (hhead : Tells (less x y) A)
    (heq : x.eq y = true ↔ C) (htail : Tells (lessItems xs ys) B) :
    Tells (lessItems (x :: xs) (y :: ys)) (¬ C ∧ A ∨ C ∧ B) := by
  rw [lessItems]
  split
  · rename_i h
    exact htail.congr (by simp [heq.mp h])
  · rename_i h
    have hC : ¬ C := fun hC => h (heq.mpr hC)
    exact hhead.congr (by simp [hC])

theorem tells_nil : Tells (lessItems [] []) False := ⟨false, by rw [lessItems], by simp⟩

end Tells

section Ranks

variable {α β γ : Type} [LinearOrder β] [LinearOrder γ]

-- values that compare as what they stand for does
def Ranks (key : α → PyVal) (rank : α → β) : Prop :=
  ∀ a b, Tells (less (key a) (key b)) (rank a < rank b) ∧
    ((key a).eq (key b) = true ↔ rank a = rank b)

def RanksItems (keys : α → List PyVal) (rank : α → β) : Prop :=
  ∀ a b, Tells (lessItems (keys a) (keys b)) (rank a < rank b) ∧
    (eqItems (keys a) (keys b) = true ↔ rank a = rank b)

variable {key : α → PyVal} {keys : α → List PyVal} {rank : α → β} {ranks : α → γ}

theorem Ranks.comp {δ : Type} (h : Ranks key rank) (f : δ → α) :
    Ranks (fun d => key (f d)) (fun d => rank (f d)) :=
  fun a b => h (f a) (f b)

theorem ranks_nat (f : α → ℕ) : Ranks (fun a => .int (f a)) f := by
  intro a b
  exact ⟨(tells_int (f a) (f b)).congr Nat.cast_lt, eq_int_int.trans Int.natCast_inj⟩

theorem ranks_str (f : α → Str) : Ranks (fun a => .str (f a)) f := by
  intro a b
  refine ⟨tells_str (f a) (f b), ?_⟩
  rw [eq_str_left, str.injEq]
  exact eq_comm

theorem RanksItems.tuple (h : RanksItems keys rank) : Ranks (fun a => .tuple (keys a)) rank := by
  intro a b
  obtain ⟨hless, heq⟩ := h a b
  exact ⟨tells_tuple hless, by rwa [eq_tuple_tuple]⟩

-- the first items that differ decide
theorem tells_lex {A : Prop} {x y : β} {v w : PyVal} {vs ws : List PyVal}
    (h : Tells (less v w) (x < y) ∧ (v.eq w = true ↔ x = y)) (hs : Tells (lessItems vs ws) A) :
    Tells (lessItems (v :: vs) (w :: ws)) (x < y ∨ x = y ∧ A) := by
  refine (tells_cons h.1 h.2 hs).congr (or_congr_left ?_)
  exact ⟨fun hlt => hlt.2, fun hlt => ⟨hlt.ne, hlt⟩⟩

theorem Ranks.singleton (h : Ranks key rank) : RanksItems (fun a => [key a]) rank := by
  intro a b
  constructor
  · exact (tells_lex (h a b) tells_nil).congr (by simp)
  · rw [eqItems, eqItems, Bool.and_true, (h a b).2]

theorem Ranks.cons (h : Ranks key rank) (hs : RanksItems keys ranks) :
    RanksItems (fun a => key a :: keys a) (fun a => toLex (rank a, ranks a)) := by
  intro a b
  constructor
  · refine (tells_lex (h a b) (hs a b).1).congr ?_
    simp only [Prod.Lex.toLex_lt_toLex]
  · rw [eqItems, Bool.and_eq_true, (h a b).2, (hs a b).2, toLex_inj, Prod.mk.injEq]

theorem Ranks.map (h : Ranks key rank) :
    RanksItems (fun as : List α => as.map key) (fun as => as.map rank) := by
  intro as
  induction as with
  | nil =>
      intro bs
      cases bs with
      | nil => exact ⟨tells_nil.congr (by simp), by simp [eqItems]⟩
      | cons b bs => exact ⟨⟨true, by simp [lessItems], by simp⟩, by simp [eqItems]⟩
  | cons a as ih =>
      intro bs
      cases bs with
      | nil => exact ⟨⟨false, by simp [lessItems], by simp⟩, by simp [eqItems]⟩
      | cons b bs =>
          simp only [List.map_cons]
          constructor
          · exact (tells_lex (h a b) (ih bs).1).congr List.cons_lt_cons_iff.symm
          · rw [eqItems, Bool.and_eq_true, (h a b).2, (ih bs).2, List.cons.injEq]

end Ranks

section Sorting

variable {α β γ : Type} [LinearOrder β]

-- x comes before those that are not below it
def insertByKey (key : α → PyVal) (x : α) : List α → Result (List α)
  | [] => .ok [x]
  | y :: ys => do
      let below ← (key y).less (key x)
      if below = true then do
        let rest ← insertByKey key x ys
        .ok (y :: rest)
      else .ok (x :: y :: ys)

-- sorted(xs, key=key)
def sortedByKey (key : α → PyVal) : List α → Result (List α)
  | [] => .ok []
  | x :: xs => do
      let rest ← sortedByKey key xs
      insertByKey key x rest

variable {key : γ → PyVal} {f : α → γ} {rank : α → β}

theorem insertByKey_perm {x : γ} {ys zs : List γ} (h : insertByKey key x ys = .ok zs) :
    zs.Perm (x :: ys) := by
  induction ys generalizing zs with
  | nil => exact Except.ok.inj h ▸ .refl _
  | cons y ys ih =>
      obtain ⟨below, -, h⟩ := bind_eq_ok.mp h
      split at h
      · obtain ⟨rest, hrest, h⟩ := bind_eq_ok.mp h
        obtain rfl := Except.ok.inj h
        exact ((ih hrest).cons y).trans (.swap x y ys)
      · exact Except.ok.inj h ▸ .refl _

theorem sortedByKey_perm {xs zs : List γ} (h : sortedByKey key xs = .ok zs) : zs.Perm xs := by
  induction xs generalizing zs with
  | nil => exact Except.ok.inj h ▸ .refl _
  | cons x xs ih =>
      obtain ⟨rest, hrest, h⟩ := bind_eq_ok.mp h
      exact (insertByKey_perm h).trans ((ih hrest).cons x)

theorem insertByKey_map (h : Ranks (fun a => key (f a)) rank) (x : α) (ys : List α) :
    insertByKey key (f x) (ys.map f) =
      .ok ((ys.orderedInsert (fun a b => rank a ≤ rank b) x).map f) := by
  induction ys with
  | nil => rfl
  | cons y ys ih =>
      obtain ⟨below, hbelow, htells⟩ := (h y x).1
      simp only [List.map_cons, insertByKey, hbelow, List.orderedInsert, bind, Except.bind, ih]
      by_cases hlt : rank y < rank x
      · rw [if_neg (not_le.mpr hlt), if_pos (htells.mpr hlt), List.map_cons]
      · rw [if_pos (not_lt.mp hlt), if_neg fun hb => hlt (htells.mp hb), List.map_cons,
          List.map_cons]

theorem sortedByKey_map (h : Ranks (fun a => key (f a)) rank) (xs : List α) :
    sortedByKey key (xs.map f) =
      .ok ((xs.insertionSort (fun a b => rank a ≤ rank b)).map f) := by
  induction xs with
  | nil => rfl
  | cons x xs ih =>
      simp only [List.map_cons, sortedByKey, ih, bind, Except.bind]
      rw [insertByKey_map h, List.insertionSort_cons]

end Sorting

end PyVal

section Sorting

variable {α β : Type} [LinearOrder β] {rank : α → β} {xs : List α}

theorem not_sublist_swap {a b : α} (hnodup : xs.Nodup) (hab : [a, b].Sublist xs) :
    ¬ [b, a].Sublist xs := by
  intro hba
  obtain ⟨front, back, rfl, ha, hb⟩ := List.cons_sublist_iff.mp hab
  have hdisjoint := List.disjoint_of_nodup_append hnodup
  obtain ⟨first, second, hsplit, hfirst, hsecond⟩ := List.sublist_append_iff.mp hba
  cases first with
  | nil =>
      rw [List.nil_append] at hsplit
      subst hsplit
      exact hdisjoint ha (hsecond.subset (by simp))
  | cons c first =>
      obtain rfl : b = c := (List.cons.inj hsplit).1
      exact hdisjoint (hfirst.subset List.mem_cons_self) (List.singleton_sublist.mp hb)

-- a stable sort forgets the order it was given only where no two items rank the same
theorem insertionSort_perm_iff (hnodup : xs.Nodup) :
    (∀ ys zs : List α, ys.Perm xs → zs.Perm xs →
      ys.insertionSort (fun a b => rank a ≤ rank b) =
        zs.insertionSort (fun a b => rank a ≤ rank b)) ↔
      ∀ a ∈ xs, ∀ b ∈ xs, rank a = rank b → a = b := by
  have : IsTrans α fun a b => rank a ≤ rank b := ⟨fun _ _ _ => le_trans⟩
  have : Std.Total fun a b : α => rank a ≤ rank b := ⟨fun a b => le_total (rank a) (rank b)⟩
  constructor
  · intro h a ha b hb hrank
    by_contra hne
    classical
    obtain ⟨rest, hrest⟩ : ∃ rest, (a :: b :: rest).Perm xs := by
      have hb' : b ∈ xs.erase a := (List.mem_erase_of_ne (Ne.symm hne)).mpr hb
      exact ⟨(xs.erase a).erase b, ((List.perm_cons_erase hb').symm.cons a).trans
        (List.perm_cons_erase ha).symm⟩
    have hsame := h _ _ hrest ((List.Perm.swap a b rest).trans hrest)
    have hab : [a, b].Sublist ((a :: b :: rest).insertionSort fun a b => rank a ≤ rank b) :=
      List.pair_sublist_insertionSort hrank.le
        ((List.nil_sublist rest).cons_cons b |>.cons_cons a)
    have hba : [b, a].Sublist ((b :: a :: rest).insertionSort fun a b => rank a ≤ rank b) :=
      List.pair_sublist_insertionSort hrank.ge
        ((List.nil_sublist rest).cons_cons a |>.cons_cons b)
    rw [← hsame] at hba
    have hsorted : ((a :: b :: rest).insertionSort fun a b => rank a ≤ rank b).Nodup :=
      (List.perm_insertionSort _ _).nodup_iff.mpr (hrest.nodup_iff.mpr hnodup)
    exact not_sublist_swap hsorted hab hba
  · intro h ys zs hys hzs
    have hperm := ((List.perm_insertionSort (fun a b => rank a ≤ rank b) ys).trans
      (hys.trans hzs.symm)).trans (List.perm_insertionSort (fun a b => rank a ≤ rank b) zs).symm
    refine List.Perm.eq_of_pairwise ?_ (List.pairwise_insertionSort _ ys)
      (List.pairwise_insertionSort _ zs) hperm
    intro a b ha hb hab hba
    have hmem : ∀ {ys : List α}, ys.Perm xs → ∀ a ∈ ys.insertionSort (fun a b => rank a ≤ rank b),
        a ∈ xs := fun hperm a ha => hperm.mem_iff.mp ((List.mem_insertionSort _).mp ha)
    exact h a (hmem hys a ha) b (hmem hzs b hb) (le_antisymm hab hba)

end Sorting

end Python
