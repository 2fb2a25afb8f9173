import GovernedAutonomy.Python.Strings

namespace Python

-- no lone surrogates side by side that the reader of JSON would join
def Unpaired : Str → Prop
  | h :: l :: s => (isHigh h = true → isLow l = false) ∧ Unpaired (l :: s)
  | _ => True

theorem unpaired_cons {p : CodePoint} {s : Str} (hs : Unpaired s)
    (hp : ∀ q, s.head? = some q → isHigh p = true → isLow q = false) : Unpaired (p :: s) := by
  cases s with
  | nil => trivial
  | cons q s => exact ⟨hp q rfl, hs⟩

theorem joinUnits_val {h l : CodePoint} (hh : isHigh h = true) (hl : isLow l = true) :
    0x10000 ≤ (joinUnits h l).val := by
  rw [isHigh, decide_eq_true_iff] at hh
  rw [isLow, decide_eq_true_iff] at hl
  have hval : (joinUnits h l).val = 0x10000 + (h.val - 0xD800) * 0x400 + (l.val - 0xDC00) :=
    Nat.mod_eq_of_lt (by omega)
  omega

theorem isHigh_of_le {p : CodePoint} (h : 0x10000 ≤ p.val) : isHigh p = false := by
  rw [isHigh, decide_eq_false_iff_not]
  omega

theorem isLow_of_le {p : CodePoint} (h : 0x10000 ≤ p.val) : isLow p = false := by
  rw [isLow, decide_eq_false_iff_not]
  omega

theorem head_joinPairs {l q : CodePoint} {b : Bool} {us : List (CodePoint × Bool)}
    (h : (joinPairs ((l, b) :: us)).head? = some q) : q = l ∨ isLow q = false := by
  cases us with
  | nil => exact Or.inl (Option.some.inj h).symm
  | cons u us =>
      obtain ⟨m, c⟩ := u
      rw [joinPairs] at h
      split at h
      · rename_i hjoin
        simp only [Bool.and_eq_true] at hjoin
        rw [← Option.some.inj h]
        exact Or.inr (isLow_of_le (joinUnits_val hjoin.1.2 hjoin.2))
      · exact Or.inl (Option.some.inj h).symm

-- surrogates that are read side by side were not both written as escapes
theorem unpaired_joinPairs {us : List (CodePoint × Bool)}
    (h : ∀ u ∈ us, u.2 = false → isSurrogate u.1 = false) : Unpaired (joinPairs us) := by
  induction us using joinPairs.induct with
  | case1 => trivial
  | case2 p b => trivial
  | case3 p a l b us hjoin ih =>
      rw [joinPairs, if_pos hjoin]
      simp only [Bool.and_eq_true] at hjoin
      refine unpaired_cons (ih fun u hu => h u (by simp [hu])) fun q _ hhigh => ?_
      rw [isHigh_of_le (joinUnits_val hjoin.1.2 hjoin.2)] at hhigh
      cases hhigh
  | case4 p a l b us hjoin ih =>
      rw [joinPairs, if_neg hjoin]
      refine unpaired_cons (ih fun u hu => h u (List.mem_cons_of_mem _ hu)) fun q hq hhigh => ?_
      rcases head_joinPairs hq with rfl | hlow
      · have hp := h (p, a) List.mem_cons_self
        have hl := h (q, b) (by simp)
        simp only [Bool.and_eq_true, not_and, Bool.not_eq_true] at hjoin
        simp only [isSurrogate, isHigh, isLow, decide_eq_true_eq, decide_eq_false_iff_not] at *
        cases a
        · have := hp rfl
          omega
        · cases b
          · have := hl rfl
            omega
          · exact hjoin ⟨⟨rfl, rfl⟩, hhigh⟩
      · exact hlow

-- the ASCII style writes every surrogate as an escape
theorem unitsOf_raw {p q : CodePoint} (h : (q, false) ∈ unitsOf true p) :
    isSurrogate q = false := by
  rw [isSurrogate, decide_eq_false_iff_not]
  unfold unitsOf at h
  split at h
  · obtain rfl := (Prod.mk.inj (List.mem_singleton.mp h)).1
    omega
  · split at h
    · simp at h
    · split at h
      · split at h <;> simp at h
      · obtain rfl := (Prod.mk.inj (List.mem_singleton.mp h)).1
        rename_i hascii
        simp only [true_and, not_lt] at hascii
        omega

theorem unpaired_heard (s : Str) : Unpaired (heard true s) := by
  refine unpaired_joinPairs fun u hu hraw => ?_
  obtain ⟨p, -, hp⟩ := List.mem_flatMap.mp hu
  obtain ⟨q, raw⟩ := u
  obtain rfl : raw = false := hraw
  exact unitsOf_raw hp

theorem unitsOf_surrogate {p : CodePoint} (h : isSurrogate p = true) :
    unitsOf true p = [(p, true)] := by
  rw [isSurrogate, decide_eq_true_iff] at h
  rw [unitsOf, if_neg (by omega), if_neg (by omega), if_pos ⟨rfl, by omega⟩, if_pos (by omega)]

theorem head_unitsOf {q : CodePoint} (h : isLow q = false) :
    ∃ u b us, unitsOf true q = (u, b) :: us ∧ isLow u = false := by
  unfold unitsOf
  split
  · exact ⟨q, false, [], rfl, h⟩
  · split
    · exact ⟨q, true, [], rfl, h⟩
    · split
      · split
        · exact ⟨q, true, [], rfl, h⟩
        · refine ⟨_, true, _, rfl, ?_⟩
          have hq := q.isLt
          have hval : (Fin.ofNat 0x110000 (highUnit q.val)).val = highUnit q.val :=
            Nat.mod_eq_of_lt (by unfold highUnit; omega)
          rw [isLow, hval, decide_eq_false_iff_not]
          unfold highUnit
          omega
      · exact ⟨q, false, [], rfl, h⟩

theorem heard_cons {p : CodePoint} {s : Str}
    (h : ∀ q, s.head? = some q → isHigh p = true → isLow q = false) :
    heard true (p :: s) = p :: heard true s := by
  rw [heard, heard, List.flatMap_cons]
  by_cases hsurrogate : isSurrogate p = true
  · rw [unitsOf_surrogate hsurrogate, List.singleton_append]
    by_cases hhigh : isHigh p = true
    · cases s with
      | nil => rfl
      | cons q s =>
          obtain ⟨u, b, us, hunits, hlow⟩ := head_unitsOf (h q rfl hhigh)
          rw [List.flatMap_cons, hunits, List.cons_append, joinPairs, if_neg (by simp [hlow])]
    · exact joinPairs_cons (Or.inr (by simpa using hhigh)) _
  · exact joinPairs_unitsOf (fun _ => by simpa using hsurrogate) _

theorem heard_eq_iff {s : Str} : heard true s = s ↔ Unpaired s := by
  refine ⟨fun h => h ▸ unpaired_heard s, fun h => ?_⟩
  induction s with
  | nil => rfl
  | cons p s ih =>
      cases s with
      | nil => exact heard_cons (by simp)
      | cons q s =>
          obtain ⟨hpair, hrest⟩ := h
          rw [heard_cons (by simpa using hpair), ih hrest]

end Python
