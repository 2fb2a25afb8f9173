import Mathlib.Data.List.Basic

namespace Protocol

namespace Batch

variable {S I O E : Type*}

-- the items are taken one by one, and what they did stays when a later one fails
def run (step : S → I → Except E (S × O)) : S → List I → S × Except E (List O)
  | s, [] => (s, .ok [])
  | s, i :: is =>
      match step s i with
      | .error e => (s, .error e)
      | .ok (s', o) =>
          match run step s' is with
          | (last, .error e) => (last, .error e)
          | (last, .ok os) => (last, .ok (o :: os))

inductive Leads (step : S → I → Except E (S × O)) : S → List I → List O → S → Prop
  | nil (s : S) : Leads step s [] [] s
  | cons {s middle last : S} {i : I} {is : List I} {o : O} {os : List O}
      (hstep : step s i = .ok (middle, o)) (hrest : Leads step middle is os last) :
      Leads step s (i :: is) (o :: os) last

-- an item that fails where it is reached has only idle items before it
def Orderly (step : S → I → Except E (S × O)) (idle : S → I → Prop) (s : S) (is : List I) : Prop :=
  ∀ before i after os middle e, is = before ++ i :: after → Leads step s before os middle →
    step middle i = .error e → ∀ j ∈ before, idle s j

variable {step : S → I → Except E (S × O)}

theorem run_eq_ok {s last : S} {is : List I} {os : List O} :
    run step s is = (last, .ok os) ↔ Leads step s is os last := by
  constructor
  · intro h
    induction is generalizing s os with
    | nil =>
        obtain ⟨rfl, hos⟩ := Prod.mk.inj h
        obtain rfl := Except.ok.inj hos
        exact .nil s
    | cons i is ih =>
        rw [run] at h
        split at h
        · cases h
        · rename_i middle o hstep
          split at h
          · cases h
          · rename_i last' os' hrun
            obtain ⟨rfl, hos⟩ := Prod.mk.inj h
            obtain rfl := Except.ok.inj hos
            exact .cons hstep (ih hrun)
  · intro h
    induction h with
    | nil s => rfl
    | cons hstep hrest ih => rw [run, hstep]; simp only [ih]

theorem run_eq_error {s last : S} {is : List I} {e : E} :
    run step s is = (last, .error e) ↔ ∃ before i after os,
      is = before ++ i :: after ∧ Leads step s before os last ∧ step last i = .error e := by
  constructor
  · intro h
    induction is generalizing s with
    | nil => cases h
    | cons i is ih =>
        rw [run] at h
        split at h
        · rename_i e' hstep
          obtain ⟨rfl, he⟩ := Prod.mk.inj h
          obtain rfl := Except.error.inj he
          exact ⟨[], i, is, [], rfl, .nil _, hstep⟩
        · rename_i middle o hstep
          split at h
          · rename_i last' e' hrun
            obtain ⟨rfl, he⟩ := Prod.mk.inj h
            obtain rfl := Except.error.inj he
            obtain ⟨before, j, after, os, rfl, hleads, hfails⟩ := ih hrun
            exact ⟨i :: before, j, after, o :: os, rfl, .cons hstep hleads, hfails⟩
          · cases h
  · rintro ⟨before, i, after, os, rfl, hleads, hfails⟩
    induction hleads with
    | nil s => rw [List.nil_append, run, hfails]
    | cons hstep hrest ih =>
        rw [List.cons_append, run, hstep]
        simp only [ih hfails]

theorem exists_leads (step : S → I → Except E (S × O)) (s : S) (is : List I) :
    ∃ before os, Leads step s before os (run step s is).1 := by
  cases hrun : (run step s is).2 with
  | ok os => exact ⟨is, os, run_eq_ok.mp (by rw [← hrun])⟩
  | error e =>
      obtain ⟨before, i, after, os, -, hleads, -⟩ :=
        run_eq_error.mp (show run step s is = ((run step s is).1, .error e) by rw [← hrun])
      exact ⟨before, os, hleads⟩

-- a relation that every step establishes and that composes holds along a batch
theorem Leads.rule {R : S → S → Prop} (hrefl : ∀ s, R s s)
    (htrans : ∀ s s' s'', R s s' → R s' s'' → R s s'')
    (hstep : ∀ s i s' o, step s i = .ok (s', o) → R s s') {s last : S} {is : List I} {os : List O}
    (h : Leads step s is os last) : R s last := by
  induction h with
  | nil s => exact hrefl s
  | cons hfirst hrest ih => exact htrans _ _ _ (hstep _ _ _ _ hfirst) ih

end Batch

end Protocol
