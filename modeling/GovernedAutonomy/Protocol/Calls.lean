import Mathlib.Data.List.Basic

namespace Protocol

namespace Calls

variable {S R : Type*}

def run (step : S → R → S) (s : S) (rs : List R) : S := rs.foldl step s

-- every call of a run is made in a state that admits it
def Each (step : S → R → S) (ok : S → R → Prop) : S → List R → Prop
  | _, [] => True
  | s, r :: rs => ok s r ∧ Each step ok (step s r) rs

def decideEach (step : S → R → S) (ok : S → R → Prop) [∀ s r, Decidable (ok s r)] :
    ∀ s rs, Decidable (Each step ok s rs)
  | _, [] => .isTrue trivial
  | s, r :: rs =>
      have := decideEach step ok (step s r) rs
      inferInstanceAs (Decidable (_ ∧ _))

instance (step : S → R → S) (ok : S → R → Prop) [∀ s r, Decidable (ok s r)] (s : S) (rs : List R) :
    Decidable (Each step ok s rs) := decideEach step ok s rs

def Effective (step : S → R → S) (s : S) (r : R) : Prop := step s r ≠ s

variable {step : S → R → S} {ok : S → R → Prop}

@[simp]
theorem run_nil (s : S) : run step s [] = s := rfl

@[simp]
theorem run_cons (s : S) (r : R) (rs : List R) : run step s (r :: rs) = run step (step s r) rs := rfl

@[simp]
theorem run_append (s : S) (rs rs' : List R) :
    run step s (rs ++ rs') = run step (run step s rs) rs' := List.foldl_append

theorem each_append {s : S} {rs rs' : List R} :
    Each step ok s (rs ++ rs') ↔ Each step ok s rs ∧ Each step ok (run step s rs) rs' := by
  induction rs generalizing s with
  | nil => simp [Each]
  | cons r rs ih => simp only [List.cons_append, Each, ih, run_cons, and_assoc]

-- a log that its events are written to, where each may say what the ones before it allow
theorem run_log (before rs : List R) : run (fun log r => log ++ [r]) before rs = before ++ rs := by
  induction rs generalizing before with
  | nil => simp
  | cons r rs ih => rw [run_cons, ih, List.append_assoc, List.singleton_append]

theorem each_concat {ok : List R → R → Prop} {rs : List R} {r : R} :
    Each (fun log r => log ++ [r]) ok [] (rs ++ [r]) ↔
      Each (fun log r => log ++ [r]) ok [] rs ∧ ok rs r := by
  rw [each_append, run_log, List.nil_append]
  exact and_congr_right fun _ => and_iff_left trivial

theorem each_iff {s : S} {rs : List R} :
    Each step ok s rs ↔ ∀ before r after, rs = before ++ r :: after → ok (run step s before) r := by
  constructor
  · rintro h before r after rfl
    exact (each_append.mp h).2.1
  · intro h
    induction rs generalizing s with
    | nil => trivial
    | cons r rs ih =>
        refine ⟨h [] r rs rfl, ih ?_⟩
        intro before r' after hrs
        exact h (r :: before) r' after (by rw [hrs, List.cons_append])

theorem each_of {s : S} {rs : List R} (h : ∀ s r, ok s r) : Each step ok s rs := by
  induction rs generalizing s with
  | nil => trivial
  | cons r rs ih => exact ⟨h s r, ih⟩

theorem Each.and {ok' : S → R → Prop} {s : S} {rs : List R} (h : Each step ok s rs)
    (h' : Each step ok' s rs) : Each step (fun s r => ok s r ∧ ok' s r) s rs := by
  induction rs generalizing s with
  | nil => trivial
  | cons r rs ih => exact ⟨⟨h.1, h'.1⟩, ih h.2 h'.2⟩

theorem Each.imp {A : S → Prop} {ok' : S → R → Prop} (himp : ∀ s r, A s → ok s r → ok' s r)
    (hstep : ∀ s r, A s → ok s r → A (step s r)) {s : S} {rs : List R} (h : Each step ok s rs)
    (hs : A s) : Each step ok' s rs := by
  induction rs generalizing s with
  | nil => trivial
  | cons r rs ih => exact ⟨himp s r hs h.1, ih h.2 (hstep s r hs h.1)⟩

theorem stable {A : S → Prop} (hstep : ∀ s r, ok s r → A s → A (step s r)) {s : S} {rs : List R}
    (h : Each step ok s rs) (hs : A s) : A (run step s rs) := by
  induction rs generalizing s with
  | nil => exact hs
  | cons r rs ih => exact ih h.2 (hstep s r h.1 hs)

theorem always {A : S → Prop} (hstep : ∀ s r, A s → A (step s r)) {s : S} (rs : List R)
    (hs : A s) : A (run step s rs) := by
  induction rs generalizing s with
  | nil => exact hs
  | cons r rs ih => exact ih (hstep s r hs)

-- two conditions on calls that agree as long as the second one holds admit the same runs
theorem each_congr {A : S → Prop} {ok' : S → R → Prop}
    (hiff : ∀ s r, A s → (ok' s r ↔ ok s r)) (hstep : ∀ s r, A s → ok s r → A (step s r)) {s : S}
    {rs : List R} (hs : A s) : Each step ok' s rs ↔ Each step ok s rs := by
  induction rs generalizing s with
  | nil => exact Iff.rfl
  | cons r rs ih =>
      rw [Each, Each, hiff s r hs]
      exact and_congr_right fun hr => ih (hstep s r hs hr)

-- where a call keeps what it should exactly when it is admitted, so does a run of proper calls
theorem always_iff_of {I A : S → Prop} {proper : S → R → Prop}
    (hinv : ∀ s r, I s → proper s r → I (step s r))
    (hstep : ∀ s r, I s → proper s r → A s → (A (step s r) ↔ ok s r)) {s : S} {rs : List R}
    (h : Each step proper s rs) (hI : I s) (hs : A s) :
    (∀ before after, rs = before ++ after → A (run step s before)) ↔ Each step ok s rs := by
  induction rs generalizing s with
  | nil =>
      refine iff_of_true ?_ trivial
      intro before after hrs
      obtain ⟨rfl, -⟩ := List.append_eq_nil_iff.mp hrs.symm
      exact hs
  | cons r rs ih =>
      obtain ⟨hproper, hrest⟩ := h
      have hI' := hinv s r hI hproper
      constructor
      · intro h
        have hr : A (step s r) := h [r] rs rfl
        refine ⟨(hstep s r hI hproper hs).mp hr, (ih hrest hI' hr).mp fun before after hrs => ?_⟩
        exact h (r :: before) after (by rw [hrs, List.cons_append])
      · rintro ⟨hok, hafter⟩ before after hrs
        cases before with
        | nil => exact hs
        | cons r' before =>
            obtain ⟨rfl, htail⟩ := List.cons.inj hrs
            have hr := (hstep s r hI hproper hs).mpr hok
            exact (ih hrest hI' hr).mpr hafter before after htail

theorem always_iff {A : S → Prop} (hstep : ∀ s r, A s → (A (step s r) ↔ ok s r)) {s : S}
    {rs : List R} (hs : A s) :
    (∀ before after, rs = before ++ after → A (run step s before)) ↔ Each step ok s rs :=
  always_iff_of (I := fun _ => True) (fun _ _ _ _ => trivial) (fun s r _ (_ : True) => hstep s r)
    (each_of fun _ _ => trivial) trivial hs

-- what the first of two calls spends, nothing restores and the second one needs
theorem effective_once {A : S → Prop} {r r' : R}
    (hspends : ∀ s, ok s r → Effective step s r → A (step s r))
    (hkeeps : ∀ s q, ok s q → A s → A (step s q))
    (hidle : ∀ s, ok s r' → A s → ¬ Effective step s r') {s : S} {before between after : List R}
    (h : Each step ok s (before ++ r :: between ++ r' :: after))
    (heffective : Effective step (run step s before) r) :
    ¬ Effective step (run step s (before ++ r :: between)) r' := by
  obtain ⟨hfirst, hsecond, -⟩ := each_append.mp h
  obtain ⟨-, hr, hbetween⟩ := each_append.mp hfirst
  refine hidle _ hsecond ?_
  rw [run_append, run_cons]
  exact stable hkeeps hbetween (hspends _ hr heffective)

end Calls

end Protocol
