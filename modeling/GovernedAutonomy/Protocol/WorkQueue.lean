import GovernedAutonomy.Protocol.Calls
import Mathlib.Logic.Function.Basic
import Mathlib.Algebra.Order.Ring.Int

set_option linter.unusedSectionVars false

namespace Protocol

namespace WorkQueue

variable {J ω : Type*}

inductive Stage
  | waiting
  | held
  | done
  | dead
  deriving DecidableEq

-- count is the number of times that the task was taken
structure Task where
  stage : Stage
  count : ℤ
  budget : ℤ

structure Claim (J : Type*) where
  job : J
  count : ℤ
  delivered : Bool

inductive Event (J : Type*)
  | delivered (j : J)
  | released (j : J)
  | lapsed (j : J)

structure State (J ω : Type*) where
  task : J → Option Task
  claim : ω → Option (Claim J)
  log : List (Event J)

inductive Action (J ω : Type*)
  | insert (j : J) (budget : ℤ)
  | take (i : ω) (j : J)
  | deliver (i : ω)
  | finish (i : ω)
  | putBack (i : ω)
  | leave (i : ω)

namespace Task

def taken (t : Task) : Task := { t with stage := .held, count := t.count + 1 }

def finished (t : Task) : Task := if t.stage = .held then { t with stage := .done } else t

def Spent (t : Task) : Prop := t.budget ≤ t.count

instance (t : Task) : Decidable t.Spent := inferInstanceAs (Decidable (_ ≤ _))

def returned (t : Task) : Task := { t with stage := if t.Spent then .dead else .waiting }

def Closed (t : Task) : Prop := t.stage = .done ∨ t.stage = .dead

@[simp]
theorem count_finished (t : Task) : t.finished.count = t.count := by
  unfold finished
  split <;> rfl

@[simp]
theorem budget_finished (t : Task) : t.finished.budget = t.budget := by
  unfold finished
  split <;> rfl

theorem stage_finished (t : Task) : t.finished.stage = .waiting ↔ t.stage = .waiting := by
  unfold finished
  split
  · rename_i h
    simp [h]
  · rfl

@[simp]
theorem count_returned (t : Task) : t.returned.count = t.count := rfl

@[simp]
theorem budget_returned (t : Task) : t.returned.budget = t.budget := rfl

theorem stage_returned (t : Task) : t.returned.stage = .waiting ↔ ¬ t.Spent := by
  unfold returned
  by_cases h : t.Spent <;> simp [h]

end Task

-- the task was delivered, and neither released nor lapsed since
def Out (j : J) : List (Event J) → Prop
  | [] => False
  | .delivered k :: log => k = j ∨ Out j log
  | .released k :: log => k ≠ j ∧ Out j log
  | .lapsed k :: log => k ≠ j ∧ Out j log

def Exclusive : List (Event J) → Prop
  | [] => True
  | .delivered k :: log => ¬ Out k log ∧ Exclusive log
  | .released _ :: log => Exclusive log
  | .lapsed _ :: log => Exclusive log

theorem out_append {j : J} {recent log : List (Event J)} (hreleased : .released j ∉ recent)
    (hlapsed : .lapsed j ∉ recent) (h : Out j log) : Out j (recent ++ log) := by
  induction recent with
  | nil => exact h
  | cons e recent ih =>
      have ih := ih (fun hr => hreleased (List.mem_cons_of_mem _ hr))
        (fun hl => hlapsed (List.mem_cons_of_mem _ hl))
      cases e with
      | delivered k => exact Or.inr ih
      | released k =>
          refine ⟨?_, ih⟩
          rintro rfl
          exact hreleased List.mem_cons_self
      | lapsed k =>
          refine ⟨?_, ih⟩
          rintro rfl
          exact hlapsed List.mem_cons_self

theorem Exclusive.tail {e : Event J} {log : List (Event J)} (h : Exclusive (e :: log)) :
    Exclusive log := by
  cases e with
  | delivered k => exact h.2
  | released k => exact h
  | lapsed k => exact h

-- two deliveries of one task have a release or a lapse between them
theorem Exclusive.between {recent between earlier : List (Event J)} {j : J}
    (h : Exclusive (recent ++ .delivered j :: (between ++ .delivered j :: earlier))) :
    .released j ∈ between ∨ .lapsed j ∈ between := by
  induction recent with
  | nil =>
      by_contra hnone
      obtain ⟨hreleased, hlapsed⟩ := not_or.mp hnone
      exact h.1 (out_append hreleased hlapsed (Or.inl rfl))
  | cons e recent ih => exact ih h.tail

namespace State

variable (s : State J ω)

def Current (c : Claim J) : Prop := ∃ t, s.task c.job = some t ∧ c.count = t.count

def Holds (c : Claim J) : Prop := ∃ t, s.task c.job = some t ∧ c.count = t.count ∧ t.stage = .held

section Actions

variable [DecidableEq J] [DecidableEq ω]

def release (i : ω) : State J ω := { s with claim := Function.update s.claim i none }

def change (j : J) (t : Task) : State J ω := { s with task := Function.update s.task j (some t) }

def take (i : ω) (j : J) (t : Task) : State J ω where
  task := Function.update s.task j (some t.taken)
  claim := Function.update s.claim i (some ⟨j, t.count + 1, false⟩)
  log := if t.stage = .held then .lapsed j :: s.log else s.log

def deliver (i : ω) (c : Claim J) : State J ω where
  task := s.task
  claim := Function.update s.claim i (some { c with delivered := true })
  log := .delivered c.job :: s.log

def putBack (i : ω) (j : J) (t : Task) : State J ω where
  task := Function.update s.task j (some t.returned)
  claim := Function.update s.claim i none
  log := if t.Spent then s.log else .released j :: s.log

variable {s} {i : ω} {j k : J} {t : Task} {c : Claim J}

@[simp]
theorem task_change_self : (s.change j t).task j = some t := Function.update_self ..

theorem task_change_of_ne (h : k ≠ j) : (s.change j t).task k = s.task k :=
  Function.update_of_ne h ..

@[simp]
theorem task_take_self : (s.take i j t).task j = some t.taken := Function.update_self ..

theorem task_take_of_ne (h : k ≠ j) : (s.take i j t).task k = s.task k :=
  Function.update_of_ne h ..

@[simp]
theorem task_putBack_self : (s.putBack i j t).task j = some t.returned := Function.update_self ..

theorem task_putBack_of_ne (h : k ≠ j) : (s.putBack i j t).task k = s.task k :=
  Function.update_of_ne h ..

end Actions

end State

open State

variable [DecidableEq J] [DecidableEq ω]

def apply (s : State J ω) : Action J ω → State J ω
  | .insert j budget => s.change j ⟨.waiting, 0, budget⟩
  | .take i j =>
      match s.task j with
      | none => s
      | some t => s.take i j t
  | .deliver i =>
      match s.claim i with
      | none => s
      | some c => s.deliver i c
  | .finish i =>
      match s.claim i with
      | none => s
      | some c =>
          match s.task c.job with
          | none => s.release i
          | some t => (s.change c.job t.finished).release i
  | .putBack i =>
      match s.claim i with
      | none => s
      | some c =>
          match s.task c.job with
          | none => s.release i
          | some t => s.putBack i c.job t
  | .leave i => s.release i

def Legal (s : State J ω) : Action J ω → Prop
  | .insert j budget => s.task j = none ∧ 0 < budget
  | .take _ j => ∃ t, s.task j = some t ∧ (t.stage = .waiting ∨ t.stage = .held)
  | .deliver i => ∃ c, s.claim i = some c ∧ c.delivered = false ∧ s.Holds c
  | _ => True

structure Sound (s : State J ω) : Prop where
  claims : ∀ i c, s.claim i = some c → ∃ t, s.task c.job = some t ∧ c.count ≤ t.count
  unique : ∀ i k c d, s.claim i = some c → s.claim k = some d → c.job = d.job →
    c.count = d.count → i = k
  out : ∀ j, Out j s.log → ∃ t, s.task j = some t ∧ t.stage ≠ .waiting
  pending : ∀ i c, s.claim i = some c → c.delivered = false → s.Current c → ¬ Out c.job s.log
  exclusive : Exclusive s.log

theorem claim_of_release {s : State J ω} {i k : ω} {c : Claim J}
    (h : Function.update s.claim i none k = some c) : k ≠ i ∧ s.claim k = some c := by
  by_cases hk : k = i
  · rw [hk, Function.update_self] at h
    cases h
  · rw [Function.update_of_ne hk] at h
    exact ⟨hk, h⟩

theorem claim_of_update {f : ω → Option (Claim J)} {i k : ω} {c d : Claim J}
    (h : Function.update f i (some d) k = some c) : (k = i ∧ c = d) ∨ (k ≠ i ∧ f k = some c) := by
  by_cases hk : k = i
  · rw [hk, Function.update_self] at h
    exact Or.inl ⟨hk, (Option.some.inj h).symm⟩
  · rw [Function.update_of_ne hk] at h
    exact Or.inr ⟨hk, h⟩

variable {s : State J ω} {i : ω} {j : J} {t : Task} {c : Claim J}

namespace Sound

theorem release (h : Sound s) (i : ω) : Sound (s.release i) where
  claims := fun k c hc => h.claims k c (claim_of_release hc).2
  unique := fun k l c d hc hd =>
    h.unique k l c d (claim_of_release hc).2 (claim_of_release hd).2
  out := h.out
  pending := fun k c hc => h.pending k c (claim_of_release hc).2
  exclusive := h.exclusive

theorem current_change {t' : Task} (ht : s.task j = some t) (hcount : t'.count = t.count) :
    (s.change j t').Current c ↔ s.Current c := by
  unfold State.Current
  by_cases hj : c.job = j
  · rw [hj, task_change_self, ht]
    simp [hcount]
  · rw [task_change_of_ne hj]

theorem change {t' : Task} (h : Sound s) (ht : s.task j = some t) (hcount : t'.count = t.count)
    (hstage : t'.stage = .waiting → t.stage = .waiting) : Sound (s.change j t') where
  claims := by
    intro i c hc
    obtain ⟨u, hu, hle⟩ := h.claims i c hc
    by_cases hj : c.job = j
    · rw [hj, ht] at hu
      obtain rfl := Option.some.inj hu
      exact ⟨t', by rw [hj, task_change_self], by omega⟩
    · exact ⟨u, by rwa [task_change_of_ne hj], hle⟩
  unique := h.unique
  out := by
    intro k hk
    obtain ⟨u, hu, hwaiting⟩ := h.out k hk
    by_cases hj : k = j
    · rw [hj, ht] at hu
      obtain rfl := Option.some.inj hu
      exact ⟨t', by rw [hj, task_change_self], fun hw => hwaiting (hstage hw)⟩
    · exact ⟨u, by rwa [task_change_of_ne hj], hwaiting⟩
  pending := fun i c hc hd hcurrent => h.pending i c hc hd ((current_change ht hcount).mp hcurrent)
  exclusive := h.exclusive

theorem insert (h : Sound s) (hfresh : s.task j = none) (t : Task) : Sound (s.change j t) := by
  have hne : ∀ {k : J} {u : Task}, s.task k = some u → k ≠ j := by
    rintro k u hu rfl
    rw [hfresh] at hu
    cases hu
  refine ⟨?_, h.unique, ?_, ?_, h.exclusive⟩
  · intro i c hc
    obtain ⟨u, hu, hle⟩ := h.claims i c hc
    exact ⟨u, by rwa [task_change_of_ne (hne hu)], hle⟩
  · intro k hk
    obtain ⟨u, hu, hwaiting⟩ := h.out k hk
    exact ⟨u, by rwa [task_change_of_ne (hne hu)], hwaiting⟩
  · intro i c hc hd hcurrent
    obtain ⟨u, hu, -⟩ := h.claims i c hc
    refine h.pending i c hc hd ?_
    unfold State.Current at hcurrent ⊢
    rwa [task_change_of_ne (hne hu)] at hcurrent

-- the new claim is the only one with its number, and the task is not out
theorem take (h : Sound s) (ht : s.task j = some t) (hstage : t.stage = .waiting ∨ t.stage = .held) :
    Sound (s.take i j t) := by
  have hout : ∀ k, Out k (s.take i j t).log → k ≠ j ∧ Out k s.log := by
    intro k hk
    unfold State.take at hk
    split at hk
    · exact ⟨hk.1.symm, hk.2⟩
    · rename_i hheld
      refine ⟨?_, hk⟩
      rintro rfl
      obtain ⟨u, hu, hwaiting⟩ := h.out k hk
      rw [ht] at hu
      obtain rfl := Option.some.inj hu
      exact hstage.elim hwaiting hheld
  have hold : ∀ k c, s.claim k = some c → c.job = j → c.count < t.count + 1 := by
    intro k c hc hj
    obtain ⟨u, hu, hle⟩ := h.claims k c hc
    rw [hj, ht] at hu
    obtain rfl := Option.some.inj hu
    omega
  have hclaim : ∀ {k c}, (s.take i j t).claim k = some c →
      (k = i ∧ c = ⟨j, t.count + 1, false⟩) ∨ (k ≠ i ∧ s.claim k = some c) := claim_of_update
  refine ⟨?_, ?_, ?_, ?_, ?_⟩
  · intro k c hc
    rcases hclaim hc with ⟨-, rfl⟩ | ⟨-, hc⟩
    · exact ⟨t.taken, task_take_self, le_refl _⟩
    · by_cases hj : c.job = j
      · exact ⟨t.taken, by rw [hj, task_take_self], (hold k c hc hj).le⟩
      · obtain ⟨u, hu, hle⟩ := h.claims k c hc
        exact ⟨u, by rwa [task_take_of_ne hj], hle⟩
  · intro k l c d hc hd hjob hcount
    rcases hclaim hc with ⟨rfl, rfl⟩ | ⟨-, hc'⟩ <;> rcases hclaim hd with ⟨rfl, rfl⟩ | ⟨-, hd'⟩
    · rfl
    · exact absurd (hold l d hd' hjob.symm) (by rw [← hcount]; exact lt_irrefl _)
    · exact absurd (hold k c hc' hjob) (by rw [hcount]; exact lt_irrefl _)
    · exact h.unique k l c d hc' hd' hjob hcount
  · intro k hk
    obtain ⟨hj, hk⟩ := hout k hk
    obtain ⟨u, hu, hwaiting⟩ := h.out k hk
    exact ⟨u, by rwa [task_take_of_ne hj], hwaiting⟩
  · intro k c hc hdelivered hcurrent hk
    obtain ⟨hj, hk⟩ := hout _ hk
    rcases hclaim hc with ⟨-, rfl⟩ | ⟨-, hc⟩
    · exact hj rfl
    · refine h.pending k c hc hdelivered ?_ hk
      obtain ⟨u, hu, hcount⟩ := hcurrent
      exact ⟨u, by rwa [task_take_of_ne hj] at hu, hcount⟩
  · unfold State.take
    split
    · exact h.exclusive
    · exact h.exclusive

theorem deliver (h : Sound s) (hc : s.claim i = some c) (hpending : c.delivered = false)
    (hholds : s.Holds c) : Sound (s.deliver i c) := by
  obtain ⟨t, ht, hcount, hheld⟩ := hholds
  have hclaim : ∀ {k d}, (s.deliver i c).claim k = some d →
      (k = i ∧ d = { c with delivered := true }) ∨ (k ≠ i ∧ s.claim k = some d) :=
    claim_of_update
  refine ⟨?_, ?_, ?_, ?_, ⟨h.pending i c hc hpending ⟨t, ht, hcount⟩, h.exclusive⟩⟩
  · intro k d hd
    rcases hclaim hd with ⟨-, rfl⟩ | ⟨-, hd⟩
    · exact h.claims i c hc
    · exact h.claims k d hd
  · intro k l d e hd he hjob hcount
    rcases hclaim hd with ⟨rfl, rfl⟩ | ⟨-, hd'⟩ <;> rcases hclaim he with ⟨rfl, rfl⟩ | ⟨-, he'⟩
    · rfl
    · exact h.unique k l c e hc he' hjob hcount
    · exact h.unique k l d c hd' hc hjob hcount
    · exact h.unique k l d e hd' he' hjob hcount
  · intro k hk
    rcases hk with rfl | hk
    · exact ⟨t, ht, by simp [hheld]⟩
    · exact h.out k hk
  · intro k d hd hdelivered hcurrent hk
    rcases hclaim hd with ⟨-, rfl⟩ | ⟨hne, hd⟩
    · cases hdelivered
    · rcases hk with hjob | hk
      · obtain ⟨u, hu, hcount'⟩ := hcurrent
        rw [State.deliver, ← hjob, ht] at hu
        obtain rfl := Option.some.inj hu
        exact hne (h.unique k i d c hd hc hjob.symm (hcount'.trans hcount.symm))
      · exact h.pending k d hd hdelivered hcurrent hk

theorem putBack (h : Sound s) (i : ω) (ht : s.task j = some t) : Sound (s.putBack i j t) := by
  by_cases hspent : t.Spent
  · have hlog : s.putBack i j t = (s.change j t.returned).release i := by
      rw [State.putBack, if_pos hspent]
      rfl
    rw [hlog]
    refine (h.change ht (Task.count_returned t) ?_).release i
    intro hwaiting
    exact absurd hspent ((Task.stage_returned t).mp hwaiting)
  · have hout : ∀ k, Out k (s.putBack i j t).log → k ≠ j ∧ Out k s.log := by
      intro k hk
      rw [State.putBack, if_neg hspent] at hk
      exact ⟨hk.1.symm, hk.2⟩
    refine ⟨?_, ?_, ?_, ?_, ?_⟩
    · intro k c hc
      obtain ⟨u, hu, hle⟩ := h.claims k c (claim_of_release hc).2
      by_cases hj : c.job = j
      · rw [hj, ht] at hu
        obtain rfl := Option.some.inj hu
        exact ⟨t.returned, by rw [hj, task_putBack_self], hle⟩
      · exact ⟨u, by rwa [task_putBack_of_ne hj], hle⟩
    · intro k l c d hc hd
      exact h.unique k l c d (claim_of_release hc).2 (claim_of_release hd).2
    · intro k hk
      obtain ⟨hj, hk⟩ := hout k hk
      obtain ⟨u, hu, hwaiting⟩ := h.out k hk
      exact ⟨u, by rwa [task_putBack_of_ne hj], hwaiting⟩
    · intro k c hc hdelivered hcurrent hk
      obtain ⟨hj, hk⟩ := hout _ hk
      refine h.pending k c (claim_of_release hc).2 hdelivered ?_ hk
      obtain ⟨u, hu, hcount⟩ := hcurrent
      exact ⟨u, by rwa [task_putBack_of_ne hj] at hu, hcount⟩
    · rw [State.putBack, if_neg hspent]
      exact h.exclusive

end Sound

-- what a legal action does to a sound state
inductive Outcome (s : State J ω) : Action J ω → State J ω → Prop
  | insert {j : J} {budget : ℤ} (hfresh : s.task j = none) (hbudget : 0 < budget) :
      Outcome s (.insert j budget) (s.change j ⟨.waiting, 0, budget⟩)
  | take {i : ω} {j : J} {t : Task} (ht : s.task j = some t)
      (hstage : t.stage = .waiting ∨ t.stage = .held) : Outcome s (.take i j) (s.take i j t)
  | deliver {i : ω} {c : Claim J} (hc : s.claim i = some c) (hpending : c.delivered = false)
      (hholds : s.Holds c) : Outcome s (.deliver i) (s.deliver i c)
  | finish {i : ω} {c : Claim J} {t : Task} (hc : s.claim i = some c) (ht : s.task c.job = some t) :
      Outcome s (.finish i) ((s.change c.job t.finished).release i)
  | putBack {i : ω} {c : Claim J} {t : Task} (hc : s.claim i = some c)
      (ht : s.task c.job = some t) : Outcome s (.putBack i) (s.putBack i c.job t)
  | leave {i : ω} : Outcome s (.leave i) (s.release i)
  | idle {a : Action J ω} : Outcome s a s

theorem Sound.outcome (h : Sound s) {a : Action J ω} (ha : Legal s a) :
    Outcome s a (apply s a) := by
  cases a with
  | insert j budget => exact .insert ha.1 ha.2
  | take i j =>
      obtain ⟨t, ht, hstage⟩ := ha
      simp only [WorkQueue.apply, ht]
      exact .take ht hstage
  | deliver i =>
      obtain ⟨c, hc, hpending, hholds⟩ := ha
      simp only [WorkQueue.apply, hc]
      exact .deliver hc hpending hholds
  | finish i =>
      simp only [WorkQueue.apply]
      cases hc : s.claim i with
      | none => exact .idle
      | some c =>
          obtain ⟨t, ht, -⟩ := h.claims i c hc
          simp only [ht]
          exact .finish hc ht
  | putBack i =>
      simp only [WorkQueue.apply]
      cases hc : s.claim i with
      | none => exact .idle
      | some c =>
          obtain ⟨t, ht, -⟩ := h.claims i c hc
          simp only [ht]
          exact .putBack hc ht
  | leave i => exact .leave

variable {a : Action J ω} {s' : State J ω}

theorem Sound.step (h : Sound s) (hs : Outcome s a s') : Sound s' := by
  cases hs with
  | insert hfresh _ => exact h.insert hfresh _
  | take ht hstage => exact h.take ht hstage
  | deliver hc hpending hholds => exact h.deliver hc hpending hholds
  | @finish i c t hc ht => exact (h.change ht t.count_finished t.stage_finished.mp).release i
  | @putBack i c t hc ht => exact h.putBack i ht
  | @leave i => exact h.release i
  | idle => exact h

-- what a worker does under a claim finds the task where the claim has put it
def Fenced (s : State J ω) : Action J ω → Prop
  | .finish i => ∀ c, s.claim i = some c → s.Current c
  | .putBack i => ∀ c, s.claim i = some c → s.Current c
  | _ => True

def Attended (s : State J ω) : Prop :=
  ∀ i c, s.claim i = some c → s.Current c → s.Holds c

-- no task is taken from another worker
def Patient (s : State J ω) : Action J ω → Prop
  | .take _ j => ∀ t, s.task j = some t → t.stage = .waiting
  | _ => True

def Steady (s : State J ω) : Prop := ∀ i c, s.claim i = some c → s.Holds c

def Frugal (s : State J ω) : Action J ω → Prop
  | .take _ j => ∀ t, s.task j = some t → ¬ t.Spent
  | _ => True

theorem Steady.attended (h : Steady s) : Attended s := fun i c hc _ => h i c hc

theorem State.Holds.current (h : s.Holds c) : s.Current c := by
  obtain ⟨t, ht, hcount, -⟩ := h
  exact ⟨t, ht, hcount⟩

theorem Sound.elsewhere {k : ω} {d : Claim J} (h : Sound s) (hc : s.claim i = some c)
    (hcurrent : s.Current c) (hk : k ≠ i) (hd : s.claim k = some d) (hcurrent' : s.Current d) :
    d.job ≠ c.job := by
  intro hjob
  obtain ⟨t, ht, hcount⟩ := hcurrent
  obtain ⟨u, hu, hcount'⟩ := hcurrent'
  rw [hjob, ht] at hu
  obtain rfl := Option.some.inj hu
  exact hk (h.unique k i d c hd hc hjob (hcount'.trans hcount.symm))

theorem holds_congr {s' : State J ω} (h : s'.task c.job = s.task c.job) :
    s'.Holds c ↔ s.Holds c := by
  unfold State.Holds
  rw [h]

theorem current_congr {s' : State J ω} (h : s'.task c.job = s.task c.job) :
    s'.Current c ↔ s.Current c := by
  unfold State.Current
  rw [h]

theorem holds_take : (s.take i j t).Holds ⟨j, t.count + 1, false⟩ := ⟨t.taken, task_take_self, rfl, rfl⟩

-- the number of a new claim is above those of the older ones
theorem not_current_take {k : ω} (h : Sound s) (ht : s.task j = some t) (hc : s.claim k = some c)
    (hcurrent : (s.take i j t).Current c) : c.job ≠ j := by
  intro hj
  obtain ⟨u, hu, hcount⟩ := hcurrent
  obtain ⟨v, hv, hle⟩ := h.claims k c hc
  rw [hj, task_take_self] at hu
  rw [hj, ht] at hv
  obtain rfl := Option.some.inj hu
  obtain rfl := Option.some.inj hv
  have hnew : t.taken.count = t.count + 1 := rfl
  omega

namespace Attended

theorem insert (h : Attended s) (hs : Sound s) (hfresh : s.task j = none) (t : Task) :
    Attended (s.change j t) := by
  intro i c hc hcurrent
  obtain ⟨u, hu, -⟩ := hs.claims i c hc
  have hj : c.job ≠ j := by
    rintro rfl
    rw [hfresh] at hu
    cases hu
  rw [holds_congr (task_change_of_ne hj)]
  exact h i c hc ((current_congr (task_change_of_ne hj)).mp hcurrent)

theorem take (h : Attended s) (hs : Sound s) (ht : s.task j = some t) : Attended (s.take i j t) := by
  intro k c hc hcurrent
  rcases claim_of_update hc with ⟨-, rfl⟩ | ⟨-, hc⟩
  · exact holds_take
  · have hj := not_current_take hs ht hc hcurrent
    rw [holds_congr (task_take_of_ne hj)]
    exact h k c hc ((current_congr (task_take_of_ne hj)).mp hcurrent)

theorem deliver (h : Attended s) (hc : s.claim i = some c) : Attended (s.deliver i c) := by
  intro k d hd hcurrent
  rcases claim_of_update hd with ⟨-, rfl⟩ | ⟨-, hd⟩
  · exact h i c hc hcurrent
  · exact h k d hd hcurrent

-- the task that a worker gives up is under no other current claim
theorem resolve {s' : State J ω} (h : Attended s) (hs : Sound s) (hc : s.claim i = some c)
    (hcurrent : s.Current c) (htask : ∀ j ≠ c.job, s'.task j = s.task j)
    (hcount : ∀ t, s.task c.job = some t → ∃ t', s'.task c.job = some t' ∧ t'.count = t.count)
    (hclaim : s'.claim = Function.update s.claim i none) : Attended s' := by
  intro k d hd hcurrent'
  rw [hclaim] at hd
  obtain ⟨hk, hd⟩ := claim_of_release hd
  have hold : s.Current d := by
    by_cases hj : d.job = c.job
    · obtain ⟨t, ht, -⟩ := hs.claims k d hd
      obtain ⟨t', ht', heq⟩ := hcount t (hj ▸ ht)
      obtain ⟨u, hu, hnum⟩ := hcurrent'
      rw [hj, ht'] at hu
      obtain rfl := Option.some.inj hu
      exact ⟨t, ht, hnum.trans heq⟩
    · exact (current_congr (htask _ hj)).mp hcurrent'
  have hj := hs.elsewhere hc hcurrent hk hd hold
  rw [holds_congr (htask _ hj)]
  exact h k d hd hold

theorem step (h : Attended s) (hs : Sound s) (hstep : Outcome s a s') (hfenced : Fenced s a) :
    Attended s' := by
  cases hstep with
  | insert hfresh _ => exact h.insert hs hfresh _
  | take ht _ => exact h.take hs ht
  | deliver hc _ _ => exact h.deliver hc
  | @finish i c t hc ht =>
      refine h.resolve hs hc (hfenced c hc) (fun j hj => task_change_of_ne hj) ?_ rfl
      intro u hu
      rw [ht] at hu
      obtain rfl := Option.some.inj hu
      exact ⟨t.finished, task_change_self, t.count_finished⟩
  | @putBack i c t hc ht =>
      refine h.resolve hs hc (hfenced c hc) (fun j hj => task_putBack_of_ne hj) ?_ rfl
      intro u hu
      rw [ht] at hu
      obtain rfl := Option.some.inj hu
      exact ⟨t.returned, task_putBack_self, t.count_returned⟩
  | leave => exact fun k c hc => h k c (claim_of_release hc).2
  | idle => exact h

end Attended

-- without lapses no claim ever loses its task
theorem Steady.fenced (h : Steady s) : Fenced s a := by
  cases a with
  | finish i => exact fun c hc => (h i c hc).current
  | putBack i => exact fun c hc => (h i c hc).current
  | _ => trivial

namespace Steady

theorem insert (h : Steady s) (hfresh : s.task j = none) (t : Task) : Steady (s.change j t) := by
  intro i c hc
  obtain ⟨u, hu, -⟩ := h i c hc
  refine (holds_congr (task_change_of_ne ?_)).mpr (h i c hc)
  rintro rfl
  rw [hfresh] at hu
  cases hu

theorem take (h : Steady s) (ht : s.task j = some t) (hstage : t.stage = .waiting) :
    Steady (s.take i j t) := by
  intro k c hc
  rcases claim_of_update hc with ⟨-, rfl⟩ | ⟨-, hc⟩
  · exact holds_take
  · obtain ⟨u, hu, -, hheld⟩ := h k c hc
    refine (holds_congr (task_take_of_ne ?_)).mpr (h k c hc)
    rintro rfl
    rw [ht] at hu
    obtain rfl := Option.some.inj hu
    rw [hstage] at hheld
    cases hheld

theorem resolve {s' : State J ω} (h : Steady s) (hs : Sound s) (hc : s.claim i = some c)
    (htask : ∀ j ≠ c.job, s'.task j = s.task j)
    (hclaim : s'.claim = Function.update s.claim i none) : Steady s' := by
  intro k d hd
  rw [hclaim] at hd
  obtain ⟨hk, hd⟩ := claim_of_release hd
  have hj := hs.elsewhere hc (h i c hc).current hk hd (h k d hd).current
  exact (holds_congr (htask _ hj)).mpr (h k d hd)

theorem step (h : Steady s) (hs : Sound s) (hstep : Outcome s a s') (hpatient : Patient s a) :
    Steady s' := by
  cases hstep with
  | insert hfresh _ => exact h.insert hfresh _
  | @take i j t ht _ => exact h.take ht (hpatient t ht)
  | @deliver i c hc _ _ =>
      intro k d hd
      rcases claim_of_update hd with ⟨-, rfl⟩ | ⟨-, hd⟩
      · exact h i c hc
      · exact h k d hd
  | finish hc ht => exact h.resolve hs hc (fun j hj => task_change_of_ne hj) rfl
  | putBack hc ht => exact h.resolve hs hc (fun j hj => task_putBack_of_ne hj) rfl
  | leave => exact fun k c hc => h k c (claim_of_release hc).2
  | idle => exact h

end Steady

def Bounded (s : State J ω) : Prop :=
  ∀ j t, s.task j = some t → t.count ≤ t.budget ∧ (t.stage = .waiting → ¬ t.Spent)

theorem Bounded.change (h : Bounded s) (hcount : t.count ≤ t.budget)
    (hstage : t.stage = .waiting → ¬ t.Spent) {s' : State J ω}
    (htask : s'.task = (s.change j t).task) : Bounded s' := by
  intro k u hu
  rw [htask] at hu
  by_cases hk : k = j
  · rw [hk, task_change_self] at hu
    obtain rfl := Option.some.inj hu
    exact ⟨hcount, hstage⟩
  · rw [task_change_of_ne hk] at hu
    exact h k u hu

theorem Bounded.step (h : Bounded s) (hstep : Outcome s a s') (hfrugal : Frugal s a) :
    Bounded s' := by
  cases hstep with
  | insert _ hbudget => exact h.change hbudget.le (fun _ => not_le_of_gt hbudget) rfl
  | @take i j t ht _ =>
      have hspent : t.count < t.budget := lt_of_not_ge (hfrugal t ht)
      exact h.change (t := t.taken) (Int.add_one_le_of_lt hspent) nofun rfl
  | @finish i c t hc ht =>
      obtain ⟨hcount, hstage⟩ := h c.job t ht
      refine h.change (t := t.finished) (by simpa using hcount) ?_ rfl
      intro hwaiting
      simpa [Task.Spent] using hstage (t.stage_finished.mp hwaiting)
  | @putBack i c t hc ht =>
      obtain ⟨hcount, -⟩ := h c.job t ht
      exact h.change (t := t.returned) hcount t.stage_returned.mp rfl
  | deliver | leave | idle => exact h

-- what is logged from one state to a later one delivers the task to nobody
def Quiet (j : J) (s s' : State J ω) : Prop :=
  ∃ recent, s'.log = recent ++ s.log ∧ .delivered j ∉ recent

theorem Quiet.refl (j : J) (s : State J ω) : Quiet j s s := ⟨[], rfl, List.not_mem_nil⟩

theorem Quiet.trans {s₁ s₂ s₃ : State J ω} (h : Quiet j s₁ s₂) (h' : Quiet j s₂ s₃) :
    Quiet j s₁ s₃ := by
  obtain ⟨first, hfirst, hquiet⟩ := h
  obtain ⟨second, hsecond, hquiet'⟩ := h'
  refine ⟨second ++ first, by rw [hsecond, hfirst, List.append_assoc], ?_⟩
  exact List.not_mem_append hquiet' hquiet

theorem quiet_step (hstep : Outcome s a s')
    (h : ∀ i c, a = .deliver i → s.claim i = some c → c.job ≠ j) : Quiet j s s' := by
  cases hstep with
  | @take i k t ht _ =>
      by_cases hheld : t.stage = .held
      · exact ⟨[.lapsed k], by simp [State.take, hheld], by simp⟩
      · exact ⟨[], by simp [State.take, hheld], by simp⟩
  | @deliver i c hc _ _ => exact ⟨[.delivered c.job], rfl, by simpa using (h i c rfl hc).symm⟩
  | @putBack i c t hc ht =>
      by_cases hspent : t.Spent
      · exact ⟨[], by simp [State.putBack, hspent], by simp⟩
      · exact ⟨[.released c.job], by simp [State.putBack, hspent], by simp⟩
  | insert | finish | leave | idle => exact .refl j s

-- under a current claim nobody is at a closed task
theorem Attended.ne_of_closed (h : Attended s) (ht : s.task j = some t) (hclosed : t.Closed)
    (hc : s.claim i = some c) (hcurrent : s.Current c) : j ≠ c.job := by
  rintro rfl
  obtain ⟨u, hu, -, hheld⟩ := h i c hc hcurrent
  rw [ht] at hu
  obtain rfl := Option.some.inj hu
  rcases hclosed with hdone | hdead
  · rw [hdone] at hheld
    cases hheld
  · rw [hdead] at hheld
    cases hheld

theorem ne_of_open {k : J} {u : Task} (ht : s.task j = some t) (hclosed : t.Closed)
    (hu : s.task k = some u) (hopen : u.stage = .waiting ∨ u.stage = .held) : j ≠ k := by
  rintro rfl
  rw [ht] at hu
  obtain rfl := Option.some.inj hu
  rcases hclosed with hdone | hdead
  · simp [hdone] at hopen
  · simp [hdead] at hopen

theorem ne_of_fresh {k : J} (ht : s.task j = some t) (hk : s.task k = none) : j ≠ k := by
  rintro rfl
  rw [hk] at ht
  cases ht

theorem Attended.closed (h : Attended s) (hlegal : Legal s a) (hstep : Outcome s a s')
    (hfenced : Fenced s a) (ht : s.task j = some t) (hclosed : t.Closed) : s'.task j = some t ∧ Quiet j s s' := by
  constructor
  · cases hstep with
    | insert hfresh _ => exact (task_change_of_ne (ne_of_fresh ht hfresh)).trans ht
    | take hu hopen => exact (task_take_of_ne (ne_of_open ht hclosed hu hopen)).trans ht
    | @finish i c u hc hu =>
        exact (task_change_of_ne (h.ne_of_closed ht hclosed hc (hfenced c hc))).trans ht
    | @putBack i c u hc hu =>
        exact (task_putBack_of_ne (h.ne_of_closed ht hclosed hc (hfenced c hc))).trans ht
    | deliver | leave | idle => exact ht
  · refine quiet_step hstep ?_
    rintro i c rfl hc
    obtain ⟨d, hd, -, hholds⟩ := hlegal
    rw [hc] at hd
    obtain rfl := Option.some.inj hd
    exact (h.ne_of_closed ht hclosed hc hholds.current).symm

-- the budget is used up, and every worker that took the task has it
structure Over (j : J) (s : State J ω) : Prop where
  spent : ∃ t, s.task j = some t ∧ t.Spent
  delivered : ∀ i c, s.claim i = some c → c.job = j → c.delivered = true

theorem Over.of_task {s' : State J ω} {k : J} {t' : Task} (h : Over j s)
    (ht : s.task k = some t) (hspent : t.Spent → t'.Spent) (htask : s'.task = (s.change k t').task)
    (hclaim : s'.claim = Function.update s.claim i none) : Over j s' := by
  obtain ⟨⟨u, hu, hover⟩, hdelivered⟩ := h
  constructor
  · rw [htask]
    by_cases hk : j = k
    · rw [hk, ht] at hu
      obtain rfl := Option.some.inj hu
      exact ⟨t', by rw [hk, task_change_self], hspent hover⟩
    · exact ⟨u, by rwa [task_change_of_ne hk], hover⟩
  · intro l c hc
    rw [hclaim] at hc
    exact hdelivered l c (claim_of_release hc).2

theorem Over.step (h : Over j s) (hstep : Outcome s a s') (hfrugal : Frugal s a) :
    Over j s' := by
  obtain ⟨⟨t, ht, hspent⟩, hdelivered⟩ := h
  cases hstep with
  | insert hfresh _ =>
      exact ⟨⟨t, (task_change_of_ne (ne_of_fresh ht hfresh)).trans ht, hspent⟩, hdelivered⟩
  | @take i k u hu _ =>
      have hk : j ≠ k := by
        rintro rfl
        exact hfrugal t ht hspent
      refine ⟨⟨t, (task_take_of_ne hk).trans ht, hspent⟩, ?_⟩
      intro l c hc hjob
      rcases claim_of_update hc with ⟨-, rfl⟩ | ⟨-, hc⟩
      · exact absurd hjob.symm hk
      · exact hdelivered l c hc hjob
  | deliver hc _ _ =>
      refine ⟨⟨t, ht, hspent⟩, ?_⟩
      intro l d hd hjob
      rcases claim_of_update hd with ⟨-, rfl⟩ | ⟨-, hd⟩
      · rfl
      · exact hdelivered l d hd hjob
  | @finish i c u hc hu =>
      have hfinished : u.Spent → u.finished.Spent := by simp [Task.Spent]
      exact Over.of_task ⟨⟨t, ht, hspent⟩, hdelivered⟩ hu hfinished rfl rfl
  | @putBack i c u hc hu =>
      have hreturned : u.Spent → u.returned.Spent := id
      exact Over.of_task ⟨⟨t, ht, hspent⟩, hdelivered⟩ hu hreturned rfl rfl
  | leave => exact ⟨⟨t, ht, hspent⟩, fun l d hd => hdelivered l d (claim_of_release hd).2⟩
  | idle => exact ⟨⟨t, ht, hspent⟩, hdelivered⟩

theorem Over.quiet (h : Over j s) (hlegal : Legal s a) (hstep : Outcome s a s') : Quiet j s s' := by
  refine quiet_step hstep ?_
  rintro i c rfl hc hjob
  obtain ⟨d, hd, hpending, -⟩ := hlegal
  rw [hc] at hd
  obtain rfl := Option.some.inj hd
  rw [h.delivered i c hc hjob] at hpending
  cases hpending

section Runs

variable {actions : List (Action J ω)}

theorem Sound.run (h : Sound s) (hlegal : Calls.Each apply Legal s actions) :
    Sound (Calls.run apply s actions) :=
  Calls.stable (fun _ _ ha hs => hs.step (hs.outcome ha)) hlegal h

theorem Steady.run (hs : Sound s) (h : Steady s)
    (hactions : Calls.Each WorkQueue.apply (fun s a => Legal s a ∧ Patient s a) s actions) :
    Steady (Calls.run WorkQueue.apply s actions) := by
  refine (Calls.stable (A := fun s => Sound s ∧ Steady s) ?_ hactions ⟨hs, h⟩).2
  rintro s a ⟨hlegal, hpatient⟩ ⟨hs, h⟩
  exact ⟨hs.step (hs.outcome hlegal), h.step hs (hs.outcome hlegal) hpatient⟩

theorem Attended.run (hs : Sound s) (h : Attended s)
    (hactions : Calls.Each WorkQueue.apply (fun s a => Legal s a ∧ Fenced s a) s actions) :
    Attended (Calls.run WorkQueue.apply s actions) := by
  refine (Calls.stable (A := fun s => Sound s ∧ Attended s) ?_ hactions ⟨hs, h⟩).2
  rintro s a ⟨hlegal, hfenced⟩ ⟨hs, h⟩
  exact ⟨hs.step (hs.outcome hlegal), h.step hs (hs.outcome hlegal) hfenced⟩

theorem Attended.closed_run (hs : Sound s) (h : Attended s)
    (hactions : Calls.Each WorkQueue.apply (fun s a => Legal s a ∧ Fenced s a) s actions)
    (ht : s.task j = some t) (hclosed : t.Closed) :
    (Calls.run WorkQueue.apply s actions).task j = some t ∧
      Quiet j s (Calls.run WorkQueue.apply s actions) := by
  refine (Calls.stable (A := fun s' => Sound s' ∧ Attended s' ∧ s'.task j = some t ∧ Quiet j s s')
    ?_ hactions ⟨hs, h, ht, .refl j s⟩).2.2
  rintro s' a ⟨hlegal, hfenced⟩ ⟨hs, h, ht, hquiet⟩
  have hstep := hs.outcome hlegal
  obtain ⟨htask, hquiet'⟩ := h.closed hlegal hstep hfenced ht hclosed
  exact ⟨hs.step hstep, h.step hs hstep hfenced, htask, hquiet.trans hquiet'⟩

theorem Bounded.run (hs : Sound s) (h : Bounded s)
    (hactions : Calls.Each WorkQueue.apply (fun s a => Legal s a ∧ Frugal s a) s actions) :
    Bounded (Calls.run WorkQueue.apply s actions) := by
  refine (Calls.stable (A := fun s => Sound s ∧ Bounded s) ?_ hactions ⟨hs, h⟩).2
  rintro s a ⟨hlegal, hfrugal⟩ ⟨hs, h⟩
  exact ⟨hs.step (hs.outcome hlegal), h.step (hs.outcome hlegal) hfrugal⟩

theorem Over.run (hs : Sound s) (h : Over j s)
    (hactions : Calls.Each WorkQueue.apply (fun s a => Legal s a ∧ Frugal s a) s actions) :
    Over j (Calls.run WorkQueue.apply s actions) ∧
      Quiet j s (Calls.run WorkQueue.apply s actions) := by
  refine (Calls.stable (A := fun s' => Sound s' ∧ Over j s' ∧ Quiet j s s') ?_ hactions
    ⟨hs, h, .refl j s⟩).2
  rintro s' a ⟨hlegal, hfrugal⟩ ⟨hs, h, hquiet⟩
  have hstep := hs.outcome hlegal
  exact ⟨hs.step hstep, h.step hstep hfrugal, hquiet.trans (h.quiet hlegal hstep)⟩

theorem Steady.fenced_run (hs : Sound s) (h : Steady s)
    (hactions : Calls.Each WorkQueue.apply (fun s a => Legal s a ∧ Patient s a) s actions) :
    Calls.Each WorkQueue.apply (fun s a => Legal s a ∧ Fenced s a) s actions := by
  refine hactions.imp (A := fun s => Sound s ∧ Steady s) ?_ ?_ ⟨hs, h⟩
  · rintro s a ⟨-, h⟩ ⟨hlegal, -⟩
    exact ⟨hlegal, h.fenced⟩
  · rintro s a ⟨hs, h⟩ ⟨hlegal, hpatient⟩
    exact ⟨hs.step (hs.outcome hlegal), h.step hs (hs.outcome hlegal) hpatient⟩

theorem Bounded.frugal (h : Bounded s) (hpatient : Patient s a) : Frugal s a := by
  cases a with
  | take i j => exact fun t ht => (h j t ht).2 (hpatient t ht)
  | _ => trivial

theorem Bounded.frugal_run (hs : Sound s) (h : Bounded s)
    (hactions : Calls.Each WorkQueue.apply (fun s a => Legal s a ∧ Patient s a) s actions) :
    Calls.Each WorkQueue.apply (fun s a => Legal s a ∧ Frugal s a) s actions := by
  refine hactions.imp (A := fun s => Sound s ∧ Bounded s) ?_ ?_ ⟨hs, h⟩
  · rintro s a ⟨-, h⟩ ⟨hlegal, hpatient⟩
    exact ⟨hlegal, h.frugal hpatient⟩
  · rintro s a ⟨hs, h⟩ ⟨hlegal, hpatient⟩
    exact ⟨hs.step (hs.outcome hlegal), h.step (hs.outcome hlegal) (h.frugal hpatient)⟩

end Runs

end WorkQueue

end Protocol
