import GovernedAutonomy.Protocol.Calls
import Mathlib.Data.List.Nodup
import Mathlib.Order.Lattice

namespace Protocol

-- a register of used tickets that forgets a ticket once it is due; a call takes up its ticket
-- before that, and uses it later
structure Tickets (ι κ T : Type*) where
  clock : T
  register : List (κ × T) := []
  held : ι → Option (κ × T) := fun _ => none
  used : List (κ × T) := []

namespace Tickets

variable {ι κ T : Type*} [DecidableEq ι] [LinearOrder T]

inductive Move (ι κ T : Type*)
  | tick (now : T)
  | take (i : ι) (ticket : κ × T)
  | drop (i : ι)
  | purge (now : T)
  | use (i : ι) (ticket : κ × T)

def live (register : List (κ × T)) (now : T) : List (κ × T) :=
  register.filter (fun m => decide (now < m.2))

def step (s : Tickets ι κ T) : Move ι κ T → Tickets ι κ T
  | .tick now => { s with clock := now }
  | .take i ticket => { s with held := Function.update s.held i (some ticket) }
  | .drop i => { s with held := Function.update s.held i none }
  | .purge now => { s with register := live s.register now }
  | .use i ticket =>
      { s with
        register := s.register ++ [ticket]
        held := Function.update s.held i none
        used := s.used ++ [ticket] }

-- a ticket is taken up before it is due, used where its key is free, and not forgotten while it
-- is held
def Allowed (s : Tickets ι κ T) : Move ι κ T → Prop
  | .tick now => s.clock ≤ now
  | .take _ ticket => s.clock < ticket.2
  | .drop _ => True
  | .purge now => now ≤ s.clock ∧ ∀ m ∈ s.register, m.2 ≤ now → ∀ i, s.held i ≠ some m
  | .use i ticket => s.held i = some ticket ∧ ∀ m ∈ s.register, m.1 ≠ ticket.1

-- a used ticket is on the register, or it is due and nobody holds it
structure Sound (s : Tickets ι κ T) : Prop where
  once : s.used.Nodup
  kept : ∀ ticket ∈ s.used, ticket ∈ s.register ∨
    ticket.2 ≤ s.clock ∧ ∀ i, s.held i ≠ some ticket

variable {s : Tickets ι κ T} {i : ι} {ticket : κ × T} {now : T}

theorem mem_live {register : List (κ × T)} {m : κ × T} :
    m ∈ live register now ↔ m ∈ register ∧ now < m.2 := by
  rw [live, List.mem_filter, decide_eq_true_iff]

omit [LinearOrder T] in
theorem held_drop {j : ι} {m : κ × T} (h : s.held j ≠ some m) :
    Function.update s.held i none j ≠ some m := by
  by_cases hij : j = i
  · rw [hij, Function.update_self]
    simp
  · rwa [Function.update_of_ne hij]

namespace Sound

theorem tick (h : s.Sound) (hnow : s.clock ≤ now) : (s.step (.tick now)).Sound where
  once := h.once
  kept m hm := (h.kept m hm).imp_right (And.imp_left (fun hdue => hdue.trans hnow))

theorem take (h : s.Sound) (hearly : s.clock < ticket.2) : (s.step (.take i ticket)).Sound where
  once := h.once
  kept m hm := by
    apply (h.kept m hm).imp_right
    rintro ⟨hdue, hfree⟩
    refine ⟨hdue, fun j => ?_⟩
    show Function.update s.held i (some ticket) j ≠ some m
    by_cases hij : j = i
    · rw [hij, Function.update_self]
      intro hsame
      obtain rfl := Option.some.inj hsame
      exact absurd hearly (not_lt.mpr hdue)
    · rw [Function.update_of_ne hij]
      exact hfree j

theorem drop (h : s.Sound) : (s.step (.drop i)).Sound where
  once := h.once
  kept m hm := (h.kept m hm).imp_right (And.imp_right (fun hfree j => held_drop (hfree j)))

theorem purge (h : s.Sound) (hnow : now ≤ s.clock)
    (hspared : ∀ m ∈ s.register, m.2 ≤ now → ∀ i, s.held i ≠ some m) :
    (s.step (.purge now)).Sound where
  once := h.once
  kept m hm := by
    rcases h.kept m hm with hregister | hover
    · rcases lt_or_ge now m.2 with hlive | hdue
      · exact Or.inl (mem_live.mpr ⟨hregister, hlive⟩)
      · exact Or.inr ⟨hdue.trans hnow, hspared m hregister hdue⟩
    · exact Or.inr hover

theorem use (h : s.Sound) (hheld : s.held i = some ticket)
    (hfree : ∀ m ∈ s.register, m.1 ≠ ticket.1) : (s.step (.use i ticket)).Sound where
  once := by
    refine List.nodup_append.mpr ⟨h.once, List.nodup_singleton ticket, ?_⟩
    intro m hm n hn
    obtain rfl := List.mem_singleton.mp hn
    rintro rfl
    rcases h.kept m hm with hregister | ⟨-, hnobody⟩
    · exact hfree m hregister rfl
    · exact hnobody i hheld
  kept m hm := by
    rcases List.mem_append.mp hm with hm | hm
    · rcases h.kept m hm with hregister | ⟨hdue, hnobody⟩
      · exact Or.inl (List.mem_append_left _ hregister)
      · exact Or.inr ⟨hdue, fun j => held_drop (hnobody j)⟩
    · exact Or.inl (List.mem_append_right _ hm)

end Sound

theorem sound_step {move : Move ι κ T} (hallowed : s.Allowed move) (h : s.Sound) :
    (s.step move).Sound := by
  cases move with
  | tick now => exact h.tick hallowed
  | take i ticket => exact h.take hallowed
  | drop i => exact h.drop
  | purge now => exact h.purge hallowed.1 hallowed.2
  | use i ticket => exact h.use hallowed.1 hallowed.2

theorem sound_run {moves : List (Move ι κ T)} (hallowed : Calls.Each step Allowed s moves)
    (h : s.Sound) : (Calls.run step s moves).Sound :=
  Calls.stable (fun _ _ => sound_step) hallowed h

omit [DecidableEq ι] in
theorem sound_of_unused (h : s.used = []) : s.Sound where
  once := h ▸ List.nodup_nil
  kept m hm := by
    rw [h] at hm
    cases hm

end Tickets

end Protocol
