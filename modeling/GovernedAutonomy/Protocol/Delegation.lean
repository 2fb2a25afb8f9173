import Mathlib.Data.List.Induction

namespace Protocol

-- a log of acts: what an act gives, what the act rests on, and which acts need rest on nothing
structure Delegation (E X : Type*) where
  gives : E → X → Prop
  rooted : E → Prop
  restsOn : E → X → Prop

namespace Delegation

variable {E X : Type*} (D : Delegation E X)

-- what was given by a chain of acts, each of which rests on one before it
inductive Derived : List E → X → Prop
  | root {before after : List E} {e : E} {x : X} (hgives : D.gives e x) (hrooted : D.rooted e) :
      Derived (before ++ e :: after) x
  | link {before after : List E} {e : E} {x y : X} (hgives : D.gives e x) (hrests : D.restsOn e y)
      (hbefore : Derived before y) : Derived (before ++ e :: after) x

def Given (log : List E) (x : X) : Prop := ∃ e ∈ log, D.gives e x

-- an act that gives something need rest on nothing, or rests on what was given before it
def Founded (log : List E) : Prop :=
  ∀ before e after x, log = before ++ e :: after → D.gives e x →
    D.rooted e ∨ ∃ y, D.restsOn e y ∧ D.Given before y

variable {D} {log log' : List E} {e : E} {x : X}

-- where an entry stands in a log with one more
theorem concat_eq_middle {before after : List E} {e' : E} (h : log ++ [e] = before ++ e' :: after) :
    log = before ∧ e = e' ∨ ∃ after', log = before ++ e' :: after' := by
  rcases List.eq_nil_or_concat after with rfl | ⟨after, last, rfl⟩
  · obtain ⟨rfl, he⟩ := List.append_inj' h rfl
    exact .inl ⟨rfl, List.singleton_inj.mp he⟩
  · rw [List.concat_eq_append, ← List.cons_append, ← List.append_assoc] at h
    exact .inr ⟨after, (List.append_inj' h rfl).1⟩

theorem Derived.append (h : D.Derived log x) (more : List E) : D.Derived (log ++ more) x := by
  cases h with
  | root hgives hrooted =>
      rw [List.append_assoc, List.cons_append]
      exact .root hgives hrooted
  | link hgives hrests hbefore =>
      rw [List.append_assoc, List.cons_append]
      exact .link hgives hrests hbefore

theorem Given.append (h : D.Given log x) (more : List E) : D.Given (log ++ more) x := by
  obtain ⟨e, he, hgives⟩ := h
  exact ⟨e, List.mem_append_left more he, hgives⟩

theorem given_concat : D.Given (log ++ [e]) x ↔ D.Given log x ∨ D.gives e x := by
  simp only [Given, List.mem_append, List.mem_singleton, or_and_right, exists_or, exists_eq_left]

theorem founded_nil : D.Founded [] := by
  intro before e after x h
  cases before <;> cases h

theorem founded_concat : D.Founded (log ++ [e]) ↔ D.Founded log ∧
    ∀ x, D.gives e x → D.rooted e ∨ ∃ y, D.restsOn e y ∧ D.Given log y := by
  constructor
  · intro h
    refine ⟨?_, fun x => h log e [] x rfl⟩
    rintro before e' after x rfl
    exact h before e' (after ++ [e]) x (by simp)
  · rintro ⟨hlog, hlast⟩ before e' after x heq
    rcases concat_eq_middle heq with ⟨rfl, rfl⟩ | ⟨after', heq⟩
    · exact hlast x
    · exact hlog before e' after' x heq

-- with every act founded, what is given has a chain back to an act that rests on nothing
theorem derived_of_given (h : D.Founded log) (hgiven : D.Given log x) : D.Derived log x := by
  induction log using List.reverseRecOn generalizing x with
  | nil =>
      obtain ⟨e, he, -⟩ := hgiven
      cases he
  | append_singleton log e ih =>
      obtain ⟨hlog, hlast⟩ := founded_concat.mp h
      rcases given_concat.mp hgiven with hgiven | hgives
      · exact (ih hlog hgiven).append [e]
      · rcases hlast x hgives with hrooted | ⟨y, hrests, hbefore⟩
        · exact .root hgives hrooted
        · exact .link hgives hrests (ih hlog hbefore)

-- a chain stays in the domain in which it begins
theorem Derived.exists_root {Δ : Type*} (domain : X → Δ)
    (hdomain : ∀ e x y, D.gives e x → D.restsOn e y → domain y = domain x) (h : D.Derived log x) :
    ∃ e ∈ log, D.rooted e ∧ ∃ y, D.gives e y ∧ domain y = domain x := by
  induction h with
  | root hgives hrooted => exact ⟨_, by simp, hrooted, _, hgives, rfl⟩
  | link hgives hrests _ ih =>
      obtain ⟨e, he, hrooted, y, hy, hsame⟩ := ih
      refine ⟨e, List.mem_append_left _ he, hrooted, y, hy, ?_⟩
      exact hsame.trans (hdomain _ _ _ hgives hrests)

end Delegation

end Protocol
