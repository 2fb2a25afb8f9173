import GovernedAutonomy.Python.Encodable

namespace Python

namespace Exc

-- raised by the interpreter or as a plain ValueError, not as a class of the program's own
def isPlain : Exc → Bool
  | .custom _ _ _ _ => false
  | _ => true

end Exc

section Plain

variable {α β : Type}

theorem OnlyRaises.bind_of_ok {p : Exc → Bool} {x : Result α} {f : α → Result β}
    (hx : OnlyRaises p x) (hf : ∀ a, x = .ok a → OnlyRaises p (f a)) :
    OnlyRaises p (x >>= f) := by
  intro e h
  rcases bind_eq_error.mp h with h | ⟨a, ha, h⟩
  · exact hx e h
  · exact hf a ha e h

theorem onlyRaises_of_isOk {p : Exc → Bool} {x : Result α} (h : ∃ a, x = .ok a) :
    OnlyRaises p x := by
  obtain ⟨a, rfl⟩ := h
  exact onlyRaises_ok a

theorem OnlyRaises.mono {p q : Exc → Bool} {x : Result α} (hx : OnlyRaises p x)
    (h : ∀ e, p e = true → q e = true) : OnlyRaises q x :=
  fun e he => h e (hx e he)

theorem onlyRaises_reraise {caught p : Exc → Bool} {e' : Exc} {x : Result α}
    (he' : p e' = true) (hx : OnlyRaises caught x) : OnlyRaises p (reraise caught e' x) := by
  cases x with
  | error e =>
      rw [reraise, if_pos (hx e rfl)]
      exact onlyRaises_error he'
  | ok a => exact onlyRaises_ok a

theorem onlyRaises_foldlM {p : Exc → Bool} {f : α → β → Result α}
    (hf : ∀ a b, OnlyRaises p (f a b)) (xs : List β) : ∀ a, OnlyRaises p (xs.foldlM f a) := by
  induction xs with
  | nil =>
      intro a
      exact onlyRaises_ok a
  | cons x xs ih =>
      intro a
      rw [List.foldlM_cons]
      exact (hf a x).bind ih

theorem foldlM_invariant {f : α → β → Result α} {I : List β → α → Prop}
    (hstep : ∀ seen a x a', I seen a → f a x = .ok a' → I (seen ++ [x]) a') (xs : List β) :
    ∀ {seen a a'}, I seen a → xs.foldlM f a = .ok a' → I (seen ++ xs) a' := by
  induction xs with
  | nil =>
      intro seen a a' ha h
      cases h
      rwa [List.append_nil]
  | cons x xs ih =>
      intro seen a a' ha h
      rw [List.foldlM_cons, bind_eq_ok] at h
      obtain ⟨b, hb, h⟩ := h
      rw [List.append_cons]
      exact ih (hstep seen a x b ha hb) h

theorem onlyRaises_intText (i : ℤ) : OnlyRaises Exc.isPlain (intText i) := by
  unfold intText
  split
  · exact onlyRaises_error rfl
  · exact onlyRaises_ok _

theorem onlyRaises_text (k : PyKey) : OnlyRaises Exc.isPlain k.text := by
  cases k with
  | int i => exact onlyRaises_intText i
  | other id => exact onlyRaises_error rfl
  | _ => exact onlyRaises_ok _

theorem onlyRaises_collect {es : List (PyKey × Result Json)}
    (h : ∀ m ∈ es, OnlyRaises Exc.isPlain m.2) : OnlyRaises Exc.isPlain (collect es) := by
  induction es with
  | nil => exact onlyRaises_ok _
  | cons m es ih =>
      obtain ⟨k, r⟩ := m
      exact (onlyRaises_text k).bind fun _ => (h (k, r) List.mem_cons_self).bind fun _ =>
        (ih fun n hn => h n (List.mem_cons_of_mem _ hn)).bind fun _ => onlyRaises_ok _

theorem onlyRaises_sortEntries (es : List (PyKey × Result Json)) :
    OnlyRaises Exc.isPlain (sortEntries es) := by
  unfold sortEntries
  split
  · exact onlyRaises_ok _
  · exact onlyRaises_error rfl

theorem mem_sortEntries {es es' : List (PyKey × Result Json)} (h : sortEntries es = .ok es')
    {m : PyKey × Result Json} (hm : m ∈ es') : m ∈ es := by
  unfold sortEntries at h
  split at h
  · obtain rfl := Except.ok.inj h
    exact (List.mem_insertionSort _).mp hm
  · cases h

namespace PyVal

theorem onlyRaises_toTreeItems {depth : Nat} {xs : List PyVal}
    (h : ∀ x ∈ xs, OnlyRaises Exc.isPlain (x.toTree depth)) :
    OnlyRaises Exc.isPlain (toTreeItems depth xs) := by
  induction xs with
  | nil => exact onlyRaises_ok _
  | cons x xs ih =>
      exact (h x List.mem_cons_self).bind fun _ =>
        (ih fun y hy => h y (List.mem_cons_of_mem _ hy)).bind fun _ => onlyRaises_ok _

theorem mem_toTreeEntries {depth : Nat} {ms : List (PyKey × PyVal)} {e : PyKey × Result Json}
    (h : e ∈ toTreeEntries depth ms) : ∃ m ∈ ms, e.2 = m.2.toTree depth := by
  induction ms with
  | nil => cases h
  | cons m ms ih =>
      obtain ⟨k, v⟩ := m
      rcases List.mem_cons.mp h with rfl | h
      · exact ⟨(k, v), List.mem_cons_self, rfl⟩
      · obtain ⟨n, hn, he⟩ := ih h
        exact ⟨n, List.mem_cons_of_mem _ hn, he⟩

theorem onlyRaises_toTree {v : PyVal} : ∀ {depth : Nat},
    OnlyRaises Exc.isPlain (v.toTree depth) := by
  induction v using induct with
  | none | bool b | float f | str s =>
      intro depth
      simp only [toTree]
      exact onlyRaises_ok _
  | int i =>
      intro depth
      simp only [toTree]
      exact (onlyRaises_intText i).bind fun _ => onlyRaises_ok _
  | list xs ih | tuple xs ih =>
      intro depth
      cases depth with
      | zero =>
          simp only [toTree]
          exact onlyRaises_error rfl
      | succ depth =>
          simp only [toTree]
          exact (onlyRaises_toTreeItems fun x hx => ih x hx).bind fun _ => onlyRaises_ok _
  | dict ms ih =>
      intro depth
      cases depth with
      | zero =>
          simp only [toTree]
          exact onlyRaises_error rfl
      | succ depth =>
          simp only [toTree]
          refine (onlyRaises_sortEntries _).bind_of_ok fun es hes => ?_
          refine (onlyRaises_collect fun e he => ?_).bind fun _ => onlyRaises_ok _
          obtain ⟨m, hm, hem⟩ := mem_toTreeEntries (mem_sortEntries hes he)
          rw [hem]
          exact ih m hm
  | object id =>
      intro depth
      simp only [toTree]
      exact onlyRaises_error rfl
  | cycle =>
      intro depth
      cases depth <;> simp only [toTree] <;> exact onlyRaises_error rfl

end PyVal

end Plain

end Python
