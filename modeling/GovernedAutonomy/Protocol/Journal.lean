import GovernedAutonomy.Protocol.Calls

namespace Protocol

namespace Journal

variable {S R O E : Type*}

def step (append : S → R → S × Except E O) (s : S) (r : R) : S := (append s r).1

def Raises (append : S → R → S × Except E O) (s : S) (r : R) : Prop :=
  ∃ e, (append s r).2 = .error e

def Returns (append : S → R → S × Except E O) (s : S) (r : R) : Prop :=
  ∃ o, (append s r).2 = .ok o

-- an append that raises leaves no trace, and every later one that returns can be recovered from
structure FailsCleanly (append : S → R → S × Except E O) (same : S → S → Prop)
    (recovers : S → Prop) (s : S) (rs : List R) : Prop where
  atomic : ∀ before r after, rs = before ++ r :: after →
    Raises append (Calls.run (step append) s before) r →
    same (Calls.run (step append) s before) (Calls.run (step append) s (before ++ [r]))
  later : ∀ before r between r' after, rs = before ++ r :: between ++ r' :: after →
    Raises append (Calls.run (step append) s before) r →
    Returns append (Calls.run (step append) s (before ++ r :: between)) r' →
    recovers (Calls.run (step append) s (before ++ r :: between ++ [r']))

variable {append : S → R → S × Except E O} {same : S → S → Prop} {recovers A : S → Prop}
  {ok : S → R → Prop}

theorem failsCleanly (hstep : ∀ s r, ok s r → A s → A (step append s r))
    (hsame : ∀ s r, ok s r → A s → Raises append s r → same s (step append s r))
    (hrecovers : ∀ s, A s → recovers s) {s : S} {rs : List R}
    (h : Calls.Each (step append) ok s rs) (hs : A s) : FailsCleanly append same recovers s rs := by
  constructor
  · rintro before r after rfl hraises
    obtain ⟨hbefore, hr, -⟩ := Calls.each_append.mp h
    rw [Calls.run_append]
    exact hsame _ r hr (Calls.stable hstep hbefore hs) hraises
  · rintro before r between r' after rfl - -
    obtain ⟨hfirst, hr', -⟩ := Calls.each_append.mp h
    rw [Calls.run_append]
    exact hrecovers _ (hstep _ r' hr' (Calls.stable hstep hfirst hs))

end Journal

end Protocol
