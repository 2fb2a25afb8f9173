import Mathlib.Algebra.Order.Group.Unbundled.Basic
import Mathlib.Algebra.Order.Monoid.Defs
import Mathlib.Data.List.Basic
import Mathlib.Data.List.Induction

namespace Protocol

namespace SlidingWindow

variable {α : Type*} [AddCommGroup α] [LinearOrder α]

-- the stamps of the window that ends now, and has no room for what is as old as it is long
def recent (window now : α) (stamps : List α) : List α :=
  stamps.filter (fun stamp => decide (now - stamp < window))

-- each stamp was let in while its own window had room
def Spaced (limit : ℕ) (window : α) (stamps : List α) : Prop :=
  ∀ before stamp after, stamps = before ++ stamp :: after →
    (recent window stamp before).length < limit

variable {limit : ℕ} {window now later stamp : α} {stamps : List α}

@[simp]
theorem recent_nil : recent window now [] = [] := rfl

theorem recent_append (stamps stamps' : List α) :
    recent window now (stamps ++ stamps') = recent window now stamps ++ recent window now stamps' :=
  List.filter_append ..

-- what left the window does not come back
theorem recent_recent [IsOrderedAddMonoid α] (h : now ≤ later) (stamps : List α) :
    recent window later (recent window now stamps) = recent window later stamps := by
  rw [recent, recent, recent, List.filter_filter]
  refine List.filter_congr fun t _ => ?_
  rw [← Bool.decide_and, decide_eq_decide]
  constructor
  · exact And.left
  · intro hlater
    exact ⟨hlater, lt_of_le_of_lt (sub_le_sub_right h t) hlater⟩

theorem spaced_nil : Spaced limit window [] := by
  intro before stamp after h
  cases before <;> cases h

theorem spaced_concat : Spaced limit window (stamps ++ [stamp]) ↔
    Spaced limit window stamps ∧ (recent window stamp stamps).length < limit := by
  constructor
  · intro h
    refine ⟨fun before t after hsplit => ?_, h stamps stamp [] rfl⟩
    exact h before t (after ++ [stamp]) (by rw [hsplit, List.append_assoc, List.cons_append])
  · rintro ⟨hspaced, hroom⟩ before t after hsplit
    rcases List.eq_nil_or_concat after with rfl | ⟨after, last, rfl⟩
    · obtain ⟨rfl, hlast⟩ := List.append_inj' hsplit rfl
      obtain rfl := List.singleton_inj.mp hlast
      exact hroom
    · rw [List.concat_eq_append, ← List.cons_append, ← List.append_assoc] at hsplit
      exact hspaced before t after (List.append_inj' hsplit rfl).1

-- no more than the limit in any stretch that is shorter than the window
theorem Spaced.length_le (h : Spaced limit window stamps) (hsorted : stamps.Pairwise (· ≤ ·))
    {inside : α → Bool}
    (hinside : ∀ s t, inside s = true → inside t = true → t - s < window) :
    (stamps.filter inside).length ≤ limit := by
  induction stamps using List.reverseRecOn with
  | nil => exact Nat.zero_le limit
  | append_singleton stamps t ih =>
      obtain ⟨hspaced, hroom⟩ := spaced_concat.mp h
      obtain ⟨hstamps, -, -⟩ := List.pairwise_append.mp hsorted
      rw [List.filter_append]
      cases ht : inside t with
      | false =>
          rw [List.filter_cons_of_neg (by simp [ht]), List.filter_nil, List.append_nil]
          exact ih hspaced hstamps
      | true =>
          have hsub : (stamps.filter inside).length ≤ (recent window t stamps).length := by
            apply List.Sublist.length_le
            apply List.monotone_filter_right
            intro s hs
            exact decide_eq_true (hinside s t hs ht)
          rw [List.filter_cons_of_pos ht, List.filter_nil, List.length_append,
            List.length_singleton]
          omega

end SlidingWindow

end Protocol
