import GovernedAutonomy.Protocol.Calls

namespace Protocol

-- a system that enters what its calls change in a ledger; an entry is what a call asks for
structure Ledger (S R M E : Type*) where
  step : S → R → S
  managed : S → M
  entries : S → List E
  entry : S → R → E

namespace Ledger

variable {S R M E : Type*} (L : Ledger S R M E)

def Effective (s : S) (r : R) : Prop := L.managed (L.step s r) ≠ L.managed s

open Classical in
noncomputable def due (s : S) (r : R) : List E := if L.Effective s r then [L.entry s r] else []

-- the entries of the calls that took effect, in order
noncomputable def owed : S → List R → List E
  | _, [] => []
  | s, r :: rs => L.due s r ++ owed (L.step s r) rs

def Keeps (s : S) (r : R) : Prop := L.entries (L.step s r) = L.entries s ++ L.due s r

def Complete (s : S) (rs : List R) : Prop :=
  ∀ before after, rs = before ++ after →
    L.entries (Calls.run L.step s before) = L.entries s ++ L.owed s before

variable {L} {s : S} {r : R} {rs : List R}

theorem due_of_effective (h : L.Effective s r) : L.due s r = [L.entry s r] := if_pos h

theorem due_of_idle (h : ¬ L.Effective s r) : L.due s r = [] := if_neg h

theorem owed_append (rs' : List R) :
    L.owed s (rs ++ rs') = L.owed s rs ++ L.owed (Calls.run L.step s rs) rs' := by
  induction rs generalizing s with
  | nil => rfl
  | cons r rs ih =>
      rw [List.cons_append, owed, owed, ih, List.append_assoc]
      rfl

theorem complete_of_keeps (h : Calls.Each L.step L.Keeps s rs) :
    L.entries (Calls.run L.step s rs) = L.entries s ++ L.owed s rs := by
  induction rs generalizing s with
  | nil => rw [Calls.run_nil, owed, List.append_nil]
  | cons r rs ih => rw [Calls.run_cons, ih h.2, h.1, owed, List.append_assoc]

theorem complete_iff : L.Complete s rs ↔ Calls.Each L.step L.Keeps s rs := by
  rw [Calls.each_iff]
  constructor
  · rintro h before r after rfl
    have hbefore := h before (r :: after) rfl
    have hstep := h (before ++ [r]) after (by simp)
    rw [owed_append, Calls.run_append, Calls.run_cons, Calls.run_nil, ← List.append_assoc,
      ← hbefore, owed, owed, List.append_nil] at hstep
    exact hstep
  · rintro h before after rfl
    apply complete_of_keeps
    rw [Calls.each_iff]
    rintro before' r after' rfl
    exact h before' r (after' ++ after) (by simp)

-- a call keeps the ledger when it enters something just if it takes effect
theorem keeps_of_entered (h : L.entries (L.step s r) = L.entries s ++ [L.entry s r]) :
    L.Keeps s r ↔ L.Effective s r := by
  rw [Keeps, h]
  by_cases heffective : L.Effective s r
  · simp [due_of_effective heffective, heffective]
  · simp [due_of_idle heffective, heffective]

theorem keeps_of_same (h : L.entries (L.step s r) = L.entries s) :
    L.Keeps s r ↔ ¬ L.Effective s r := by
  rw [Keeps, h]
  by_cases heffective : L.Effective s r
  · simp [due_of_effective heffective, heffective]
  · simp [due_of_idle heffective, heffective]

end Ledger

end Protocol
