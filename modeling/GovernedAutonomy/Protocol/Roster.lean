import Mathlib.Data.List.Basic

namespace Protocol

namespace Roster

variable {A B : Type*} {before after : List A} {a a' : A}

theorem filterMap_middle (f : A → Option B) (before after : List A) (a : A) :
    (before ++ a :: after).filterMap f =
      before.filterMap f ++ ((f a).toList ++ after.filterMap f) := by
  rw [List.filterMap_append, List.filterMap_cons]
  cases f a <;> rfl

theorem filterMap_replace {f : A → Option B} (h : f a' = f a) :
    (before ++ a' :: after).filterMap f = (before ++ a :: after).filterMap f := by
  rw [filterMap_middle, filterMap_middle, h]

theorem filterMap_some {f : A → Option B} {b : B} (h : f a = some b) :
    (before ++ a :: after).filterMap f = before.filterMap f ++ b :: after.filterMap f := by
  rw [filterMap_middle, h]
  rfl

theorem forall_replace {Q Q' : A → Prop} (h : ∀ b ∈ before ++ a :: after, Q b)
    (hkeep : ∀ b, Q b → Q' b) (hnew : Q a → Q' a') : ∀ b ∈ before ++ a' :: after, Q' b := by
  rw [List.forall_mem_append, List.forall_mem_cons] at h ⊢
  obtain ⟨hbefore, ha, hafter⟩ := h
  exact ⟨fun b hb => hkeep b (hbefore b hb), hnew ha, fun b hb => hkeep b (hafter b hb)⟩

end Roster

end Protocol
