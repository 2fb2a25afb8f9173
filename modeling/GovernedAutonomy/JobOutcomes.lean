import GovernedAutonomy.PostgresDelivery
import GovernedAutonomy.SQLiteDelivery

namespace GovernedAutonomy

open Python Protocol
open WorkQueue (Sound Attended Bounded Steady Over Legal Fenced Frugal Patient)

set_option linter.unusedSectionVars false

variable {ω M : Type} [DecidableEq ω]

def JobRow.Settled (row : JobRow) : Prop := row.status = .succeeded ∨ row.status = .deadLetter

def JobPhase.attempt (phase : JobPhase) : Option (Str × ℤ) :=
  phase.claim.map (fun c => (c.job, c.count))

namespace JobWorld

-- since the first state no claim has returned the job
def Quiet (jobId : Str) (w w' : JobWorld ω) : Prop :=
  ∃ recent, w'.log = recent ++ w.log ∧ .returned jobId ∉ recent

-- the last attempt has failed, or nobody is at it any more
def Ended (w : JobWorld ω) (row : JobRow) : Prop :=
  row.maxAttempts ≤ row.attempts ∧ (row.status = .deadLetter ∨
    row.status = .running ∧ ∀ i, (w.phase i).attempt ≠ some (row.jobId, row.attempts))

variable (step : JobWorld ω → ω × M → JobWorld ω) (calls : List (ω × M))

structure Final (ends : M → Bool) : Prop where
  settled : ∀ before after, calls = before ++ after →
    ∀ row ∈ (Calls.run step {} before).table.rows, row.Settled →
      (∃ row' ∈ (Calls.run step {} calls).table.rows, row'.jobId = row.jobId ∧
        row'.status = row.status ∧ row'.attempts = row.attempts) ∧
      Quiet row.jobId (Calls.run step {} before) (Calls.run step {} calls)
  fenced : ∀ before i move after, calls = before ++ (i, move) :: after → ends move = true →
    (step (Calls.run step {} before) (i, move)).table ≠ (Calls.run step {} before).table →
      ∃ row ∈ (Calls.run step {} before).table.rows, row.status = .running ∧
        ((Calls.run step {} before).phase i).attempt = some (row.jobId, row.attempts)

structure WithinBudget : Prop where
  bound : ∀ row ∈ (Calls.run step {} calls).table.rows, row.attempts ≤ row.maxAttempts
  ended : ∀ before after, calls = before ++ after →
    ∀ row ∈ (Calls.run step {} before).table.rows, (Calls.run step {} before).Ended row →
      Quiet row.jobId (Calls.run step {} before) (Calls.run step {} calls)

-- the log has its last event first
def Exclusive : Prop :=
  ∀ recent between earlier jobId, (Calls.run step {} calls).log =
    recent ++ .returned jobId :: (between ++ .returned jobId :: earlier) →
      .released jobId ∈ between ∨ .expired jobId ∈ between

variable {step} {w w' : JobWorld ω}

theorem quiet_of_view {jobId : Str} (hlog : ∃ recent, w'.log = recent ++ w.log)
    (h : WorkQueue.Quiet jobId w.view w'.view) : Quiet jobId w w' := by
  obtain ⟨recent, hlog⟩ := hlog
  obtain ⟨seen, hseen, hquiet⟩ := h
  refine ⟨recent, hlog, ?_⟩
  intro hmem
  have hsame : recent.filterMap JobEvent.delivery = seen := by
    simp only [view, hlog, List.filterMap_append] at hseen
    exact List.append_cancel_right hseen
  exact hquiet (hsame ▸ List.mem_filterMap.mpr ⟨_, hmem, rfl⟩)

theorem mem_of_delivery {jobId : Str} {events : List JobEvent} :
    (.released jobId ∈ events.filterMap JobEvent.delivery → .released jobId ∈ events) ∧
      (.lapsed jobId ∈ events.filterMap JobEvent.delivery → .expired jobId ∈ events) := by
  constructor
  all_goals intro h
  all_goals obtain ⟨e, he, heq⟩ := List.mem_filterMap.mp h
  all_goals cases e <;> simp_all [JobEvent.delivery]

theorem exclusive_of_sound (h : Sound (Calls.run step {} calls).view) : Exclusive step calls := by
  intro recent between earlier jobId hlog
  have hview : (Calls.run step {} calls).view.log = recent.filterMap JobEvent.delivery ++
      .delivered jobId :: (between.filterMap JobEvent.delivery ++
        .delivered jobId :: earlier.filterMap JobEvent.delivery) := by
    rw [view, hlog]
    simp [JobEvent.delivery, List.filterMap_append]
  have hexclusive := h.exclusive
  rw [hview] at hexclusive
  exact hexclusive.between.imp mem_of_delivery.1 mem_of_delivery.2

-- each step of the store is a run of fair actions on the abstract queue
structure Refines (step : JobWorld ω → ω × M → JobWorld ω) (ok : JobWorld ω → ω × M → Prop)
    (inv : JobWorld ω → Prop) (fair : WorkQueue.State Str ω → WorkQueue.Action Str ω → Prop) :
    Prop where
  start : inv {}
  sound : ∀ w, inv w → Sound w.view
  next : ∀ w call, inv w → ok w call → inv (step w call) ∧ ∃ actions,
    (step w call).view = Calls.run WorkQueue.apply w.view actions ∧
      Calls.Each WorkQueue.apply (fun s a => Legal s a ∧ fair s a) w.view actions
  log : ∀ w call, ∃ events, (step w call).log = events ++ w.log

namespace Refines

variable {ok : JobWorld ω → ω × M → Prop} {inv : JobWorld ω → Prop}
  {fair : WorkQueue.State Str ω → WorkQueue.Action Str ω → Prop} {calls}

theorem run (h : Refines step ok inv fair) (hw : inv w) (hcalls : Calls.Each step ok w calls) :
    inv (Calls.run step w calls) :=
  Calls.stable (fun w call hok hw => (h.next w call hw hok).1) hcalls hw

theorem log_run (h : Refines step ok inv fair) :
    ∃ recent, (Calls.run step w calls).log = recent ++ w.log := by
  refine Calls.always (A := fun w' : JobWorld ω => ∃ recent, w'.log = recent ++ w.log) ?_ calls ⟨[], rfl⟩
  rintro w' call ⟨recent, hrecent⟩
  obtain ⟨events, hevents⟩ := h.log w' call
  exact ⟨events ++ recent, by rw [hevents, hrecent, List.append_assoc]⟩

-- what every fair run of the abstract queue keeps, the store keeps
theorem stable (h : Refines step ok inv fair) {A : WorkQueue.State Str ω → Prop}
    (hA : ∀ s actions, Sound s →
      Calls.Each WorkQueue.apply (fun s a => Legal s a ∧ fair s a) s actions → A s →
        A (Calls.run WorkQueue.apply s actions))
    (hw : inv w) (hcalls : Calls.Each step ok w calls) (hstart : A w.view) :
    A (Calls.run step w calls).view := by
  refine (Calls.stable (A := fun w => inv w ∧ A w.view) ?_ hcalls ⟨hw, hstart⟩).2
  rintro w call hok ⟨hw, hstart⟩
  obtain ⟨hnext, actions, hview, hactions⟩ := h.next w call hw hok
  exact ⟨hnext, hview ▸ hA w.view actions (h.sound w hw) hactions hstart⟩

theorem settled (h : Refines step ok inv Fenced) (hattended : ∀ w, inv w → Attended w.view)
    (hw : inv w) (hcalls : Calls.Each step ok w calls) {row : JobRow} (hrow : row ∈ w.table.rows)
    (hsettled : row.Settled) :
    (∃ row' ∈ (Calls.run step w calls).table.rows, row'.jobId = row.jobId ∧
        row'.status = row.status ∧ row'.attempts = row.attempts) ∧
      Quiet row.jobId w (Calls.run step w calls) := by
  have hclosed : row.task.Closed := by
    refine hsettled.imp ?_ ?_
    all_goals intro hstatus
    all_goals simp [JobRow.task, hstatus, JobStatus.stage]
  obtain ⟨-, htask, hquiet⟩ := h.stable (A := fun s => Attended s ∧
      s.task row.jobId = some row.task ∧ WorkQueue.Quiet row.jobId w.view s) (by
    rintro s actions hs hactions ⟨hs', htask, hquiet⟩
    obtain ⟨htask', hquiet'⟩ := hs'.closed_run hs hactions htask hclosed
    exact ⟨hs'.run hs hactions, htask', hquiet.trans hquiet'⟩) hw hcalls
    ⟨hattended w hw, task_of_find (JobTable.find_of_mem hrow), .refl _ _⟩
  obtain ⟨row', hfind, hsame⟩ := exists_find htask
  refine ⟨⟨row', JobTable.mem_of_find hfind, JobTable.jobId_of_find hfind, ?_, ?_⟩,
    quiet_of_view h.log_run hquiet⟩
  · exact JobStatus.stage_injective (congrArg WorkQueue.Task.stage hsame)
  · exact congrArg WorkQueue.Task.count hsame

theorem withinBudget (h : Refines step ok inv Frugal) (hbounded : ∀ w, inv w → Bounded w.view)
    (hover : ∀ w, inv w → ∀ row ∈ w.table.rows, w.Ended row → Over row.jobId w.view)
    (hcalls : Calls.Each step ok {} calls) : WithinBudget step calls := by
  constructor
  · intro row hrow
    have hfind := JobTable.find_of_mem hrow
    exact (hbounded _ (h.run h.start hcalls) _ _ (task_of_find hfind)).1
  · rintro before after rfl row hrow hended
    obtain ⟨hbefore, hafter⟩ := Calls.each_append.mp hcalls
    have hinv := h.run h.start hbefore
    rw [Calls.run_append]
    refine quiet_of_view h.log_run (h.stable (A := fun s => Over row.jobId s ∧
      WorkQueue.Quiet row.jobId (Calls.run step {} before).view s) ?_ hinv hafter
      ⟨hover _ hinv row hrow hended, .refl _ _⟩).2
    rintro s actions hs hactions ⟨hs', hquiet⟩
    obtain ⟨hover', hquiet'⟩ := hs'.run hs hactions
    exact ⟨hover', hquiet.trans hquiet'⟩

theorem final (h : Refines step ok inv Fenced) (hattended : ∀ w, inv w → Attended w.view)
    {ends : M → Bool}
    (hends : ∀ w i move, inv w → ok w (i, move) → ends move = true →
      (step w (i, move)).table ≠ w.table → ∃ row ∈ w.table.rows, row.status = .running ∧
        (w.phase i).attempt = some (row.jobId, row.attempts))
    (hcalls : Calls.Each step ok {} calls) : Final step calls ends := by
  constructor
  · rintro before after rfl row hrow hsettled
    obtain ⟨hbefore, hafter⟩ := Calls.each_append.mp hcalls
    rw [Calls.run_append]
    exact h.settled hattended (h.run h.start hbefore) hafter hrow hsettled
  · rintro before i move after rfl hmove hchanged
    obtain ⟨hbefore, hok, -⟩ := Calls.each_append.mp hcalls
    exact hends _ i move (h.run h.start hbefore) hok hmove hchanged

end Refines

theorem sound_start : Sound (view ({} : JobWorld ω)) where
  claims := nofun
  unique := nofun
  out := nofun
  pending := nofun
  exclusive := trivial

-- a running row under the worker's number is the worker's own
theorem own_row {i : ω} {c : WorkQueue.Claim Str} (hc : w.view.claim i = some c)
    (hholds : w.view.Holds c) : ∃ row ∈ w.table.rows, row.status = .running ∧
      (w.phase i).attempt = some (row.jobId, row.attempts) := by
  obtain ⟨t, ht, hcount, hheld⟩ := hholds
  obtain ⟨row, hfind, rfl⟩ := exists_find ht
  refine ⟨row, JobTable.mem_of_find hfind, JobStatus.stage_injective hheld, ?_⟩
  have hclaim : (w.phase i).claim = some c := hc
  rw [JobPhase.attempt, hclaim, Option.map_some, hcount, JobTable.jobId_of_find hfind]
  rfl

theorem steady_start : Steady (view ({} : JobWorld ω)) := nofun

theorem bounded_start : Bounded (view ({} : JobWorld ω)) := nofun

end JobWorld

open JobWorld (Refines Final WithinBudget Exclusive)

namespace SQLiteJobStore

variable {P : Primitives} {w : JobWorld ω} {calls : List (ω × Move)}

-- the writes of complete and fail
def ends : Move → Bool
  | .complete => true
  | .failUpdate _ _ _ => true
  | _ => false

theorem ready_start : Ready ({} : JobWorld ω) := ⟨JobWorld.sound_start, JobWorld.steady_start, fun _ => trivial⟩

theorem refines_fenced : Refines (step P) Uncontended (Ready (ω := ω)) Fenced where
  start := ready_start
  sound := fun _ h => h.sound
  next := by
    intro w call h hok
    obtain ⟨actions, hview, hlegal, hpatient⟩ := simulates (P := P) h call hok
    exact ⟨h.step hok, actions, hview, h.steady.fenced_run h.sound (hlegal.and hpatient)⟩
  log := fun _ _ => ⟨_, rfl⟩

theorem refines_frugal :
    Refines (step P) Uncontended (fun w : JobWorld ω => Ready w ∧ Bounded w.view) Frugal where
  start := ⟨ready_start, JobWorld.bounded_start⟩
  sound := fun _ h => h.1.sound
  next := by
    rintro w call ⟨h, hbounded⟩ hok
    obtain ⟨actions, hview, hlegal, hpatient⟩ := simulates (P := P) h call hok
    have hfrugal := hbounded.frugal_run h.sound (hlegal.and hpatient)
    exact ⟨⟨h.step hok, hview ▸ hbounded.run h.sound hfrugal⟩, actions, hview, hfrugal⟩
  log := fun _ _ => ⟨_, rfl⟩

theorem own_claim (h : Ready w) {i : ω} {move : Move} (hends : ends move = true)
    (hchanged : (step P w (i, move)).table ≠ w.table) : ∃ c, w.view.claim i = some c := by
  have htracked := h.tracked i
  cases move with
  | complete =>
      cases hphase : w.phase i with
      | holding jobId attempt =>
          rw [hphase] at htracked
          obtain ⟨n, rfl⟩ := Option.isSome_iff_exists.mp htracked
          exact ⟨_, JobWorld.claim_of_phase hphase⟩
      | _ => exact absurd (by simp [step, JobWorld.step, hphase, act]) hchanged
  | failUpdate error now retryDelay =>
      cases hphase : w.phase i with
      | failing jobId attempt status =>
          rw [hphase] at htracked
          obtain ⟨n, row, rfl, -⟩ := htracked
          exact ⟨_, JobWorld.claim_of_phase hphase⟩
      | _ => exact absurd (by simp [step, JobWorld.step, hphase, act]) hchanged
  | _ => cases hends

theorem final (hcalls : Calls.Each (step P) Uncontended {} calls) :
    Final (step P) calls ends := by
  refine refines_fenced.final (fun _ h => h.steady.attended) ?_ hcalls
  intro w i move h _ hends hchanged
  obtain ⟨c, hc⟩ := own_claim h hends hchanged
  exact JobWorld.own_row hc (h.steady i c hc)

theorem over_of_ended (h : Ready w) {row : JobRow} (hrow : row ∈ w.table.rows)
    (hended : w.Ended row) : Over row.jobId w.view := by
  obtain ⟨hspent, hended⟩ := hended
  have hfind := JobTable.find_of_mem hrow
  refine ⟨⟨row.task, JobWorld.task_of_find hfind, hspent⟩, ?_⟩
  intro i c hc hjob
  obtain ⟨t, ht, hcount, hheld⟩ := h.steady i c hc
  rw [hjob, JobWorld.task_of_find hfind] at ht
  obtain rfl := Option.some.inj ht
  rcases hended with hdead | ⟨-, hnobody⟩
  · simp [JobRow.task, hdead, JobStatus.stage] at hheld
  · refine absurd ?_ (hnobody i)
    have hclaim : (w.phase i).claim = some c := hc
    rw [JobPhase.attempt, hclaim, Option.map_some, hjob, hcount]
    rfl

theorem withinBudget (hcalls : Calls.Each (step P) Uncontended {} calls) :
    WithinBudget (step P) calls :=
  refines_frugal.withinBudget (fun _ h => h.2) (fun _ h _ hrow => over_of_ended h.1 hrow) hcalls

theorem exclusive (hcalls : Calls.Each (step P) Uncontended {} calls) :
    Exclusive (step P) calls :=
  JobWorld.exclusive_of_sound calls (refines_fenced.run ready_start hcalls).sound

end SQLiteJobStore

namespace PostgresJobStore

variable {P : Primitives} {server : PostgresServer} {leaseSeconds : ℚ} {w : JobWorld ω}
  {calls : List (ω × Move)}

def ends : Move → Bool
  | .complete => true
  | .fail _ _ _ => true
  | _ => false

theorem refines_any : Refines (step P server leaseSeconds) (fun _ _ => True)
    (fun w : JobWorld ω => Sound w.view) (fun _ _ => True) where
  start := JobWorld.sound_start
  sound := fun _ h => h
  next := by
    intro w call h _
    obtain ⟨actions, hview, hlegal, -⟩ :
        ∃ actions, Simulated P server leaseSeconds w call actions := simulates call
    exact ⟨hview ▸ h.run hlegal, actions, hview, hlegal.and (Calls.each_of fun _ _ => trivial)⟩
  log := fun _ _ => ⟨_, rfl⟩

theorem exclusive : Exclusive (step P server leaseSeconds) calls :=
  JobWorld.exclusive_of_sound calls
    (refines_any.run JobWorld.sound_start (Calls.each_of fun _ _ => trivial))

theorem refines_fenced : Refines (step P server leaseSeconds) InTime
    (fun w : JobWorld ω => Sound w.view ∧ Attended w.view) Fenced where
  start := ⟨JobWorld.sound_start, JobWorld.steady_start.attended⟩
  sound := fun _ h => h.1
  next := by
    rintro w call ⟨hs, h⟩ hok
    obtain ⟨actions, hview, hlegal, hfenced, -⟩ :
        ∃ actions, Simulated P server leaseSeconds w call actions := simulates call
    have hfair := hlegal.and (hfenced hok)
    exact ⟨⟨hview ▸ hs.run hlegal, hview ▸ h.run hs hfair⟩, actions, hview, hfair⟩
  log := fun _ _ => ⟨_, rfl⟩

-- complete and fail write only what the worker's own claim has left current
theorem own_claim {i : ω} {move : Move} (hs : Sound w.view) (hok : InTime w (i, move))
    (hends : ends move = true) (hchanged : (step P server leaseSeconds w (i, move)).table ≠ w.table) :
    ∃ c, w.view.claim i = some c ∧ w.view.Current c := by
  cases move with
  | complete =>
      cases hphase : w.phase i with
      | holding jobId attempt =>
          cases attempt with
          | none => exact absurd (by simp [step, JobWorld.step, hphase, act]) hchanged
          | some attempt =>
              refine ⟨⟨jobId, attempt, true⟩, JobWorld.claim_of_phase hphase, ?_⟩
              by_contra hstale
              refine hchanged ?_
              simp only [step, JobWorld.step, hphase, act, complete]
              refine JobTable.update_eq_self fun row hfind => ?_
              refine decide_eq_false fun hrunning => hstale ?_
              exact JobWorld.current_of_find hfind (hok.complete hphase hfind hrunning)
      | _ => exact absurd (by simp [step, JobWorld.step, hphase, act]) hchanged
  | fail error now retryDelay =>
      cases hphase : w.phase i with
      | holding jobId attempt =>
          cases attempt with
          | none => exact absurd (by simp [step, JobWorld.step, hphase, act]) hchanged
          | some attempt =>
              have hclaim : w.view.claim i = some ⟨jobId, attempt, true⟩ :=
                JobWorld.claim_of_phase hphase
              obtain ⟨t, ht, -⟩ := hs.claims i _ hclaim
              obtain ⟨row, hfind, -⟩ := JobWorld.exists_find ht
              exact ⟨_, hclaim, JobWorld.current_of_find hfind (hok.fail hphase hfind)⟩
      | _ => exact absurd (by simp [step, JobWorld.step, hphase, act]) hchanged
  | _ => cases hends

theorem final (hcalls : Calls.Each (step P server leaseSeconds) InTime {} calls) :
    Final (step P server leaseSeconds) calls ends := by
  refine refines_fenced.final (fun _ h => h.2) ?_ hcalls
  rintro w i move ⟨hs, h⟩ hok hends hchanged
  obtain ⟨c, hc, hcurrent⟩ := own_claim hs hok hends hchanged
  exact JobWorld.own_row hc (h i c hc hcurrent)

-- a claim is one statement, so no worker is between it and the delivery
def Delivered (w : JobWorld ω) : Prop :=
  ∀ i c, w.view.claim i = some c → c.delivered = true

theorem delivered_act {t : JobTable} {phase : JobPhase} {move : Move} {c : WorkQueue.Claim Str}
    (h : ∀ c, phase.claim = some c → c.delivered = true)
    (hc : (act P server leaseSeconds t phase move).phase.claim = some c) : c.delivered = true := by
  revert hc
  unfold act
  split
  · unfold claim
    split
    · rintro ⟨⟩
    · dsimp only
      split
      · rintro ⟨⟩
      · intro hc
        obtain rfl := Option.some.inj hc
        rfl
  · rintro ⟨⟩
  · unfold fail
    split <;> rintro ⟨⟩
  · rintro ⟨⟩
  · unfold enqueueInsert
    repeat' split
    all_goals rintro ⟨⟩
  · unfold enqueueSelect
    split <;> rintro ⟨⟩
  · rintro ⟨⟩
  · exact h c

theorem Delivered.step (h : Delivered w) (call : ω × Move) :
    Delivered (step P server leaseSeconds w call) := by
  obtain ⟨i, move⟩ := call
  intro k c hc
  rw [PostgresJobStore.step, JobWorld.view_step] at hc
  change Function.update w.view.claim i _ k = some c at hc
  by_cases hk : k = i
  · rw [hk, Function.update_self] at hc
    exact delivered_act (h i) hc
  · rw [Function.update_of_ne hk] at hc
    exact h k c hc

theorem refines_frugal : Refines (step P server leaseSeconds) WithinAttempts
    (fun w : JobWorld ω => Sound w.view ∧ Bounded w.view ∧ Delivered w) Frugal where
  start := ⟨JobWorld.sound_start, JobWorld.bounded_start, nofun⟩
  sound := fun _ h => h.1
  next := by
    rintro w call ⟨hs, h, hdelivered⟩ hok
    obtain ⟨actions, hview, hlegal, -, hfrugal⟩ :
        ∃ actions, Simulated P server leaseSeconds w call actions := simulates call
    have hfair := hlegal.and (hfrugal h hok)
    refine ⟨⟨hview ▸ hs.run hlegal, hview ▸ h.run hs hfair, hdelivered.step call⟩, actions, hview,
      hfair⟩
  log := fun _ _ => ⟨_, rfl⟩

theorem withinBudget (hcalls : Calls.Each (step P server leaseSeconds) WithinAttempts {} calls) :
    WithinBudget (step P server leaseSeconds) calls := by
  refine refines_frugal.withinBudget (fun _ h => h.2.1) ?_ hcalls
  rintro w ⟨-, -, hdelivered⟩ row hrow ⟨hspent, -⟩
  have hfind := JobTable.find_of_mem hrow
  exact ⟨⟨row.task, JobWorld.task_of_find hfind, hspent⟩, fun i c hc _ => hdelivered i c hc⟩

end PostgresJobStore

namespace JobWorld

variable {step : JobWorld ω → ω × M → JobWorld ω} {calls : List (ω × M)}

def statuses (w : JobWorld ω) : List JobStatus := w.table.rows.map JobRow.status

theorem not_final {before after : List (ω × M)} {ends : M → Bool}
    (hbefore : .succeeded ∈ (Calls.run step {} before).statuses)
    (hafter : .succeeded ∉ (Calls.run step {} (before ++ after)).statuses) :
    ¬ Final step (before ++ after) ends := by
  intro h
  obtain ⟨row, hrow, hstatus⟩ := List.mem_map.mp hbefore
  obtain ⟨⟨row', hrow', -, hstatus', -⟩, -⟩ := h.settled before after rfl row hrow (Or.inl hstatus)
  exact hafter (List.mem_map.mpr ⟨row', hrow', hstatus'.trans hstatus⟩)

theorem not_withinBudget
    (h : (Calls.run step {} calls).table.rows.all
      (fun row => decide (row.attempts ≤ row.maxAttempts)) = false) : ¬ WithinBudget step calls := by
  intro hwithin
  have hall : (Calls.run step {} calls).table.rows.all
      (fun row => decide (row.attempts ≤ row.maxAttempts)) = true :=
    List.all_eq_true.mpr fun row hrow => decide_eq_true (hwithin.bound row hrow)
  rw [h] at hall
  cases hall

def isReturn (jobId : Str) : JobEvent → Bool
  | .returned k => decide (k = jobId)
  | _ => false

theorem eq_of_isReturn {jobId : Str} {e : JobEvent} (h : isReturn jobId e = true) :
    e = .returned jobId := by
  cases e with
  | returned k => rw [of_decide_eq_true h]
  | _ => cases h

theorem not_exclusive {jobId : Str} {rest : List Bool}
    (h : (Calls.run step {} calls).log.map (isReturn jobId) = true :: true :: rest) :
    ¬ Exclusive step calls := by
  obtain ⟨e, log, hlog, he, hrest⟩ := List.map_eq_cons_iff.mp h
  obtain ⟨e', earlier, hlog', he', -⟩ := List.map_eq_cons_iff.mp hrest
  obtain rfl := eq_of_isReturn he
  obtain rfl := eq_of_isReturn he'
  intro hexclusive
  have hbetween := hexclusive [] [] earlier jobId (by rw [hlog, hlog', List.nil_append, List.nil_append])
  rcases hbetween with hreleased | hexpired
  · cases hreleased
  · cases hexpired

end JobWorld

def smallJob (maxAttempts : ℤ) : EnqueueCall := ⟨[], lit "key", maxAttempts, 0⟩

namespace SQLiteJobStore

def enqueued (maxAttempts : ℤ) : List (Bool × Move) :=
  [(false, .enqueueSelect (smallJob maxAttempts)), (false, .enqueueInsert (lit "job") 0),
    (false, .enqueueGet)]

-- two workers have selected the job before the first of them marks it
def contended (maxAttempts : ℤ) : List (Bool × Move) :=
  enqueued maxAttempts ++
    [(false, .claimSelect 0), (true, .claimSelect 0), (false, .claimUpdate), (true, .claimUpdate)]

def failed (i : Bool) : List (Bool × Move) :=
  [(i, .failGet), (i, .failUpdate (lit "ValueError") 0 0), (i, .report)]

def claimed (i : Bool) : List (Bool × Move) :=
  [(i, .claimSelect 0), (i, .claimUpdate), (i, .claimGet)]

def completed : List (Bool × Move) :=
  enqueued 1 ++ claimed false ++ [(false, .complete), (false, .report)]

-- the first worker gives the job back, and the second one takes it up
def handedOver : List (Bool × Move) :=
  enqueued 3 ++ claimed false ++ failed false ++ claimed true ++ [(true, .complete), (true, .report)]

end SQLiteJobStore

namespace PostgresJobStore

def enqueued (maxAttempts : ℤ) : List (Bool × Move) :=
  [(false, .enqueueInsert (smallJob maxAttempts) (lit "job") 0), (false, .enqueueSelect)]

-- the lease of the first worker runs out before it is done
def reclaimed (maxAttempts : ℤ) : List (Bool × Move) :=
  enqueued maxAttempts ++ [(false, .claim 0 []), (true, .claim 400 [])]

def completed : List (Bool × Move) :=
  reclaimed 2 ++ [(false, .crash), (true, .complete), (true, .report)]

end PostgresJobStore

theorem job_outcomes_final (P : Primitives) (server : PostgresServer) (leaseSeconds : ℚ) :
    (∀ calls : List (ω × SQLiteJobStore.Move),
      Calls.Each (SQLiteJobStore.step P) SQLiteJobStore.Uncontended {} calls →
        Final (SQLiteJobStore.step P) calls SQLiteJobStore.ends) ∧
    ∀ calls : List (ω × PostgresJobStore.Move),
      Calls.Each (PostgresJobStore.step P server leaseSeconds) PostgresJobStore.InTime {} calls →
        Final (PostgresJobStore.step P server leaseSeconds) calls PostgresJobStore.ends :=
  ⟨fun _ h => SQLiteJobStore.final h, fun _ h => PostgresJobStore.final h⟩

theorem job_outcomes_final_completed :
    Final (SQLiteJobStore.step referencePrimitives) SQLiteJobStore.completed SQLiteJobStore.ends ∧
      Final (PostgresJobStore.step referencePrimitives ⟨some⟩ 300) PostgresJobStore.completed
        PostgresJobStore.ends := by
  constructor
  · exact (job_outcomes_final referencePrimitives ⟨some⟩ 300).1 _ (by decide +kernel)
  · exact (job_outcomes_final referencePrimitives ⟨some⟩ 300).2 _ (by decide +kernel)

theorem job_outcomes_final_stale :
    (¬ ∀ (P : Primitives) (calls : List (Bool × SQLiteJobStore.Move)),
      Final (SQLiteJobStore.step P) calls SQLiteJobStore.ends) ∧
    ¬ ∀ (P : Primitives) (server : PostgresServer) (leaseSeconds : ℚ)
      (calls : List (Bool × PostgresJobStore.Move)),
        Final (PostgresJobStore.step P server leaseSeconds) calls PostgresJobStore.ends := by
  constructor
  · intro h
    refine JobWorld.not_final ?_ ?_ (h referencePrimitives (SQLiteJobStore.contended 3 ++
      [(false, .claimGet), (true, .claimGet), (false, .complete)] ++ SQLiteJobStore.failed true))
    · decide +kernel
    · decide +kernel
  · intro h
    refine JobWorld.not_final ?_ ?_ (h referencePrimitives ⟨some⟩ 300
      (PostgresJobStore.reclaimed 3 ++ [(true, .complete)] ++ [(false, .fail (lit "ValueError") 500 1)]))
    · decide +kernel
    · decide +kernel

theorem job_retries_bounded (P : Primitives) (server : PostgresServer) (leaseSeconds : ℚ) :
    (∀ calls : List (ω × SQLiteJobStore.Move),
      Calls.Each (SQLiteJobStore.step P) SQLiteJobStore.Uncontended {} calls →
        WithinBudget (SQLiteJobStore.step P) calls) ∧
    ∀ calls : List (ω × PostgresJobStore.Move),
      Calls.Each (PostgresJobStore.step P server leaseSeconds) PostgresJobStore.WithinAttempts {}
          calls → WithinBudget (PostgresJobStore.step P server leaseSeconds) calls :=
  ⟨fun _ h => SQLiteJobStore.withinBudget h, fun _ h => PostgresJobStore.withinBudget h⟩

theorem job_retries_bounded_completed :
    WithinBudget (SQLiteJobStore.step referencePrimitives) SQLiteJobStore.completed ∧
      WithinBudget (PostgresJobStore.step referencePrimitives ⟨some⟩ 300) PostgresJobStore.completed := by
  constructor
  · exact (job_retries_bounded referencePrimitives ⟨some⟩ 300).1 _ (by decide +kernel)
  · exact (job_retries_bounded referencePrimitives ⟨some⟩ 300).2 _ (by decide +kernel)

theorem job_retries_bounded_reclaimed :
    (¬ ∀ (P : Primitives) (calls : List (Bool × SQLiteJobStore.Move)),
      WithinBudget (SQLiteJobStore.step P) calls) ∧
    ¬ ∀ (P : Primitives) (server : PostgresServer) (leaseSeconds : ℚ)
      (calls : List (Bool × PostgresJobStore.Move)),
        WithinBudget (PostgresJobStore.step P server leaseSeconds) calls := by
  constructor
  · intro h
    refine JobWorld.not_withinBudget ?_ (h referencePrimitives (SQLiteJobStore.contended 2 ++
      [(false, .claimGet), (true, .claimGet), (true, .failGet)] ++ SQLiteJobStore.failed false ++
      SQLiteJobStore.claimed false ++ [(true, .failUpdate (lit "ValueError") 0 0), (true, .report)] ++
      SQLiteJobStore.claimed true))
    decide +kernel
  · intro h
    refine JobWorld.not_withinBudget ?_ (h referencePrimitives ⟨some⟩ 300 (PostgresJobStore.reclaimed 1))
    decide +kernel

theorem job_delivery_exclusive (P : Primitives) (server : PostgresServer) (leaseSeconds : ℚ) :
    (∀ calls : List (ω × SQLiteJobStore.Move),
      Calls.Each (SQLiteJobStore.step P) SQLiteJobStore.Uncontended {} calls →
        Exclusive (SQLiteJobStore.step P) calls) ∧
    ∀ calls : List (ω × PostgresJobStore.Move),
      Exclusive (PostgresJobStore.step P server leaseSeconds) calls :=
  ⟨fun _ h => SQLiteJobStore.exclusive h, fun _ => PostgresJobStore.exclusive⟩

theorem job_delivery_exclusive_handedOver :
    Exclusive (SQLiteJobStore.step referencePrimitives) SQLiteJobStore.handedOver ∧
      (Calls.run (SQLiteJobStore.step referencePrimitives) {} SQLiteJobStore.handedOver).log.map
        (JobWorld.isReturn (lit "job")) = [true, false, true, false] := by
  constructor
  · exact (job_delivery_exclusive referencePrimitives ⟨some⟩ 300).1 _ (by decide +kernel)
  · decide +kernel

theorem job_delivery_exclusive_contended :
    ¬ ((∀ (P : Primitives) (calls : List (Bool × SQLiteJobStore.Move)),
        Exclusive (SQLiteJobStore.step P) calls) ∧
      ∀ (P : Primitives) (server : PostgresServer) (leaseSeconds : ℚ)
        (calls : List (Bool × PostgresJobStore.Move)),
          Exclusive (PostgresJobStore.step P server leaseSeconds) calls) := by
  rintro ⟨h, -⟩
  have hreturns : (Calls.run (SQLiteJobStore.step referencePrimitives) {}
      (SQLiteJobStore.contended 3 ++ [(false, .claimGet), (true, .claimGet)])).log.map
        (JobWorld.isReturn (lit "job")) = [true, true, false] := by decide +kernel
  exact JobWorld.not_exclusive hreturns (h referencePrimitives _)

end GovernedAutonomy
