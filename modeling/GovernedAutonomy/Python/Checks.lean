import GovernedAutonomy.Python.Exception

namespace Python

-- what one check comes to: it lets the value pass, turns it down in the declared way, or raises
-- something else
inductive Check where
  | passes
  | rejects
  | escapes
deriving DecidableEq

namespace Check

def andThen : Check → Check → Check
  | .passes, c => c
  | c, _ => c

-- the first check that does not pass decides
def all : List Check → Check
  | [] => .passes
  | c :: cs => c.andThen (all cs)

def orReject (b : Bool) : Check := if b then .passes else .rejects

def orEscape (b : Bool) : Check := if b then .passes else .escapes

theorem all_append (cs cs' : List Check) : all (cs ++ cs') = (all cs).andThen (all cs') := by
  induction cs with
  | nil => rfl
  | cons c cs ih =>
      rw [List.cons_append, all, all, ih]
      cases c <;> rfl

end Check

-- a computation that ends as the check says: with the value, or with an exception of either kind
def Ends {α : Type} (declared : Exc → Bool) (r : Result α) (value : α) : Check → Prop
  | .passes => r = .ok value
  | .rejects => ∃ e, r = .error e ∧ declared e = true
  | .escapes => ∃ e, r = .error e ∧ declared e = false

section Ends

variable {α β : Type} {declared : Exc → Bool} {r : Result α} {a : α} {c : Check}

theorem Ends.bind {f : α → Result β} {b : β} {c' : Check} (h : Ends declared r a c)
    (h' : Ends declared (f a) b c') : Ends declared (r >>= f) b (c.andThen c') := by
  cases c with
  | passes =>
      rw [show r = .ok a from h]
      exact h'
  | rejects | escapes =>
      obtain ⟨e, he, hdeclared⟩ := h
      exact ⟨e, by rw [he]; rfl, hdeclared⟩

theorem Ends.map {b : β} {f : α → β} (h : Ends declared r a c) (hb : f a = b) :
    Ends declared (do let x ← r; .ok (f x)) b c := by
  cases c with
  | passes =>
      rw [show r = .ok a from h, ← hb]
      rfl
  | rejects | escapes =>
      obtain ⟨e, he, hdeclared⟩ := h
      exact ⟨e, by rw [he]; rfl, hdeclared⟩

end Ends

end Python
