import GovernedAutonomy.Python.Dumps

namespace Python

namespace PyVal

mutual
-- how many containers lie around the innermost value
def nesting : PyVal → Nat
  | .list xs => nestingItems xs + 1
  | .tuple xs => nestingItems xs + 1
  | .dict ms => nestingEntries ms + 1
  | _ => 0

def nestingItems : List PyVal → Nat
  | [] => 0
  | x :: xs => max (nesting x) (nestingItems xs)

def nestingEntries : List (PyKey × PyVal) → Nat
  | [] => 0
  | (_, v) :: ms => max (nesting v) (nestingEntries ms)
end

theorem nesting_list_le {xs : List PyVal} {depth : Nat} :
    (PyVal.list xs).nesting ≤ depth ↔ 0 < depth ∧ ∀ x ∈ xs, x.nesting ≤ depth - 1 := by
  have hitems : ∀ n, nestingItems xs ≤ n ↔ ∀ x ∈ xs, x.nesting ≤ n := by
    intro n
    induction xs with
    | nil => simp [nestingItems]
    | cons x xs ih => rw [nestingItems, max_le_iff, ih, List.forall_mem_cons]
  rw [nesting, ← hitems]
  omega

theorem nesting_dict_le {ms : PyDict} {depth : Nat} :
    (PyVal.dict ms).nesting ≤ depth ↔ 0 < depth ∧ ∀ m ∈ ms, m.2.nesting ≤ depth - 1 := by
  have hentries : ∀ n, nestingEntries ms ≤ n ↔ ∀ m ∈ ms, m.2.nesting ≤ n := by
    intro n
    induction ms with
    | nil => simp [nestingEntries]
    | cons m ms ih => rw [nestingEntries, max_le_iff, ih, List.forall_mem_cons]
  rw [nesting, ← hentries]
  omega

end PyVal

namespace Interpreter

variable (I : Interpreter)

-- what copy.deepcopy gets through before the stack is full
def Copyable (d : PyDict) : Prop := (PyVal.dict d).nesting ≤ I.copyLimit

instance (d : PyDict) : Decidable (I.Copyable d) := inferInstanceAs (Decidable (_ ≤ _))

-- copy.deepcopy
def deepcopy (d : PyDict) : Result PyDict :=
  if I.Copyable d then .ok d else .error (.builtin .recursionError)

variable {I}

@[simp]
theorem deepcopy_eq_ok {d copied : PyDict} :
    I.deepcopy d = .ok copied ↔ I.Copyable d ∧ d = copied := by
  rw [deepcopy]
  split_ifs with h <;> simp [h]

theorem mapM_deepcopy_eq_ok {ds copied : List PyDict} :
    ds.mapM I.deepcopy = .ok copied ↔ (∀ d ∈ ds, I.Copyable d) ∧ ds = copied := by
  induction ds generalizing copied with
  | nil => simp [pure, Except.pure]
  | cons d ds ih =>
      simp only [List.mapM_cons, bind_eq_ok, deepcopy_eq_ok, ih, List.forall_mem_cons]
      constructor
      · rintro ⟨_, ⟨hd, rfl⟩, _, ⟨hds, rfl⟩, h⟩
        exact ⟨⟨hd, hds⟩, Except.ok.inj h⟩
      · rintro ⟨⟨hd, hds⟩, rfl⟩
        exact ⟨d, ⟨hd, rfl⟩, ds, ⟨hds, rfl⟩, rfl⟩

end Interpreter

end Python
