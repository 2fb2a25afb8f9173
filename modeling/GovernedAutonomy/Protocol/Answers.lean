import GovernedAutonomy.Protocol.Calls
import Mathlib.Data.List.Induction

namespace Protocol

namespace Calls

variable {S R A : Type*}

-- a server takes its calls one after the other, and answers each
def after (serve : S → R → S × A) (s : S) (rs : List R) : S :=
  run (fun s r => (serve s r).1) s rs

-- one of the calls had its answer in the course of a run
def Happened (serve : S → R → S × A) (s : S) (rs : List R) (E : R → A → Prop) : Prop :=
  ∃ before r later, rs = before ++ r :: later ∧ E r (serve (after serve s before) r).2

variable {serve : S → R → S × A} {s : S} {rs : List R} {r : R} {E : R → A → Prop}

@[simp]
theorem after_nil : after serve s [] = s := rfl

@[simp]
theorem after_concat : after serve s (rs ++ [r]) = (serve (after serve s rs) r).1 := by
  rw [after, run_append]
  rfl

@[simp]
theorem not_happened_nil : ¬ Happened serve s [] E := by
  rintro ⟨before, r, later, h, -⟩
  cases before <;> cases h

theorem happened_concat : Happened serve s (rs ++ [r]) E ↔
    Happened serve s rs E ∨ E r (serve (after serve s rs) r).2 := by
  constructor
  · rintro ⟨before, q, later, h, hq⟩
    rcases List.eq_nil_or_concat later with rfl | ⟨later, last, rfl⟩
    · obtain ⟨rfl, hr⟩ := List.append_inj' h rfl
      obtain rfl := List.singleton_inj.mp hr
      exact .inr hq
    · rw [List.concat_eq_append, ← List.cons_append, ← List.append_assoc] at h
      obtain ⟨rfl, -⟩ := List.append_inj' h rfl
      exact .inl ⟨before, q, later, rfl, hq⟩
  · rintro (⟨before, q, later, rfl, hq⟩ | hr)
    · refine ⟨before, q, later ++ [r], ?_, hq⟩
      rw [List.append_assoc, List.cons_append]
    · exact ⟨rs, r, [], rfl, hr⟩

-- what a relation between the calls so far and the state keeps, call by call
theorem reflects {I : List R → S → Prop} (h : I [] s)
    (hstep : ∀ rs r, I rs (after serve s rs) → I (rs ++ [r]) (serve (after serve s rs) r).1)
    (rs : List R) : I rs (after serve s rs) := by
  induction rs using List.reverseRecOn with
  | nil => exact h
  | append_singleton rs r ih =>
      rw [after_concat]
      exact hstep rs r ih

end Calls

end Protocol
