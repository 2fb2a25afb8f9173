import Mathlib.Data.List.Basic

namespace Protocol

variable {S : Type*}

-- a run with its whole past, the current state first
inductive Trace (init : S → Prop) (step : S → S → Prop) : List S → Prop
  | start {s : S} (h : init s) : Trace init step [s]
  | next {s s' : S} {past : List S} (h : Trace init step (s :: past)) (hs : step s s') :
      Trace init step (s' :: s :: past)

namespace Trace

variable {init : S → Prop} {step : S → S → Prop}

theorem rule {I : S → List S → Prop} (hinit : ∀ s, init s → I s [])
    (hstep : ∀ s past s', Trace init step (s :: past) → I s past → step s s' → I s' (s :: past))
    {s : S} {past : List S} (h : Trace init step (s :: past)) : I s past := by
  generalize hrun : s :: past = run at h
  induction h generalizing s past with
  | start h =>
      obtain ⟨rfl, rfl⟩ := List.cons.inj hrun
      exact hinit s h
  | next h hs ih =>
      obtain ⟨rfl, rfl⟩ := List.cons.inj hrun
      exact hstep _ _ _ h (ih rfl) hs

theorem invariant {I : S → Prop} (hinit : ∀ s, init s → I s)
    (hstep : ∀ s s', I s → step s s' → I s') {s : S} {past : List S}
    (h : Trace init step (s :: past)) : I s :=
  rule (I := fun s _ => I s) hinit (fun s _ s' _ => hstep s s') h

-- what no step undoes holds from the moment it first held
theorem stable {A : S → Prop} (hstep : ∀ s s', A s → step s s' → A s') {s : S}
    {past : List S} (h : Trace init step (s :: past)) : ∀ v ∈ past, A v → A s := by
  refine rule (I := fun s past => ∀ v ∈ past, A v → A s) ?_ ?_ h
  · intro s _ v hv
    cases hv
  · intro s past s' _ ih hs v hv hA
    rcases List.mem_cons.mp hv with rfl | hv
    · exact hstep v s' hA hs
    · exact hstep s s' (ih v hv hA) hs

end Trace

end Protocol
