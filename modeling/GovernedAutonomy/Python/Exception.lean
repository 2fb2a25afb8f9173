import GovernedAutonomy.Python.Value

namespace Python

inductive Builtin where
  | typeError
  | keyError
  | attributeError
  | overflowError
  | recursionError
  | unicodeEncodeError
  | jsonDecodeError
  | integrityError
deriving DecidableEq, Repr

-- raised either by the interpreter or by a raise statement, which gives its text
inductive Exc where
  | builtin (b : Builtin)
  | valueError (message : Str)
  | custom (cls : String) (isValueError : Bool) (message : Str) (payload : PyVal)

namespace Exc

def isTypeError : Exc → Bool
  | .builtin .typeError => true
  | _ => false

def isValueError : Exc → Bool
  | .builtin .unicodeEncodeError => true
  | .builtin .jsonDecodeError => true
  | .valueError _ => true
  | .custom _ v _ _ => v
  | _ => false

end Exc

abbrev Result (α : Type) := Except Exc α

theorem bind_eq_ok {ε α β : Type} {x : Except ε α} {f : α → Except ε β} {b : β} :
    (x >>= f) = .ok b ↔ ∃ a, x = .ok a ∧ f a = .ok b := by
  cases x with
  | error e => simp [bind, Except.bind]
  | ok a => simp [bind, Except.bind]

theorem bind_eq_error {ε α β : Type} {x : Except ε α} {f : α → Except ε β} {e : ε} :
    (x >>= f) = .error e ↔ x = .error e ∨ ∃ a, x = .ok a ∧ f a = .error e := by
  cases x with
  | error e' => simp [bind, Except.bind]
  | ok a => simp [bind, Except.bind]

theorem map_eq_ok {ε α β : Type} {x : Except ε α} {f : α → β} {b : β} :
    x.map f = .ok b ↔ ∃ a, x = .ok a ∧ f a = b := by
  cases x with
  | error e => simp [Except.map]
  | ok a => simp [Except.map]

theorem forM_eq_ok {ε α : Type} {f : α → Except ε Unit} {xs : List α} :
    xs.forM f = .ok () ↔ ∀ x ∈ xs, f x = .ok () := by
  induction xs with
  | nil => simp [List.forM, pure, Except.pure]
  | cons x xs ih =>
      rw [List.forM, bind_eq_ok, List.forall_mem_cons, ← ih]
      exact ⟨fun ⟨_, hx, h⟩ => ⟨hx, h⟩, fun ⟨hx, h⟩ => ⟨(), hx, h⟩⟩

theorem mem_of_mapM_eq_ok {ε α β : Type} {f : α → Except ε β} {xs : List α} {ys : List β}
    (h : xs.mapM f = .ok ys) {y : β} (hy : y ∈ ys) : ∃ x ∈ xs, f x = .ok y := by
  induction xs generalizing ys with
  | nil =>
      obtain rfl := Except.ok.inj h
      cases hy
  | cons x xs ih =>
      simp only [List.mapM_cons, bind_eq_ok] at h
      obtain ⟨z, hz, zs, hzs, h⟩ := h
      obtain rfl := Except.ok.inj h
      rcases List.mem_cons.mp hy with rfl | hy
      · exact ⟨x, List.mem_cons_self, hz⟩
      · obtain ⟨x', hx, hy⟩ := ih hzs hy
        exact ⟨x', List.mem_cons_of_mem x hx, hy⟩

theorem exists_of_toOption {α : Type} {x : Result α} (h : x.toOption.isSome = true) :
    ∃ a, x = .ok a := by
  cases x with
  | error e => cases h
  | ok a => exact ⟨a, rfl⟩

theorem eq_ok_of_toOption {α : Type} {x : Result α} {a : α} (h : x.toOption = some a) :
    x = .ok a := by
  cases x with
  | error e => cases h
  | ok b => exact congrArg Except.ok (Option.some.inj h)

theorem isOk_of_any {α : Type} {x : Result α} {p : α → Bool} (h : x.toOption.any p = true) :
    ∃ a, x = .ok a ∧ p a = true := by
  cases x with
  | error e => cases h
  | ok a => exact ⟨a, rfl, h⟩

def raiseIf (c : Prop) [Decidable c] (e : Exc) : Result Unit := if c then .error e else .ok ()

@[simp]
theorem raiseIf_eq_ok {c : Prop} [Decidable c] {e : Exc} {u : Unit} :
    raiseIf c e = .ok u ↔ ¬ c := by
  unfold raiseIf
  split
  · rename_i h
    simp [h]
  · rename_i h
    simp [h]

theorem raiseIf_of_not {c : Prop} [Decidable c] (h : ¬ c) (e : Exc) : raiseIf c e = .ok () :=
  if_neg h

-- except clauses: a matching exception is replaced by the one the handler raises
def reraise {α : Type} (caught : Exc → Bool) (e' : Exc) (x : Result α) : Result α :=
  match x with
  | .ok a => .ok a
  | .error e => .error (if caught e then e' else e)

@[simp]
theorem reraise_eq_ok {α : Type} {caught : Exc → Bool} {e' : Exc} {x : Result α} {a : α} :
    reraise caught e' x = .ok a ↔ x = .ok a := by
  cases x with
  | error e => simp [reraise]
  | ok b => simp [reraise]

def orElse {α : Type} (caught : Exc → Bool) (x : Result α) (y : Result α) : Result α :=
  match x with
  | .ok a => .ok a
  | .error e => if caught e then y else .error e

def OnlyRaises {α : Type} (p : Exc → Bool) (x : Result α) : Prop := ∀ e, x = .error e → p e = true

section OnlyRaises

variable {α β : Type} {p : Exc → Bool}

theorem onlyRaises_ok (a : α) : OnlyRaises p (.ok a) := by
  intro e h
  cases h

theorem onlyRaises_error {e : Exc} (h : p e = true) : OnlyRaises p (.error e : Result α) := by
  intro e' he
  cases he
  exact h

theorem onlyRaises_raiseIf {c : Prop} [Decidable c] {e : Exc} (h : p e = true) :
    OnlyRaises p (raiseIf c e) := by
  unfold raiseIf
  split
  · exact onlyRaises_error h
  · exact onlyRaises_ok ()

theorem OnlyRaises.bind {x : Result α} {f : α → Result β} (hx : OnlyRaises p x)
    (hf : ∀ a, OnlyRaises p (f a)) : OnlyRaises p (x >>= f) := by
  intro e h
  rcases bind_eq_error.mp h with h | ⟨a, -, h⟩
  · exact hx e h
  · exact hf a e h

end OnlyRaises

end Python
