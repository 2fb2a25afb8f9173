import GovernedAutonomy.JobDelivery

namespace GovernedAutonomy

open Python Protocol

set_option linter.unusedSectionVars false

variable {ω : Type} [DecidableEq ω]

namespace SQLiteJobStore

variable (P : Primitives)

def step (w : JobWorld ω) (call : ω × Move) : JobWorld ω := w.step (act P) call

-- no other claim took the job between the SELECT and the UPDATE
def Uncontended (w : JobWorld ω) (call : ω × Move) : Prop :=
  (match w.phase call.1, call.2 with
  | .selected jobId, .claimUpdate => (w.table.find jobId).any (isStatus .queued)
  | _, _ => true) = true

instance (w : JobWorld ω) (call : ω × Move) : Decidable (Uncontended w call) :=
  inferInstanceAs (Decidable (_ = _))

theorem Uncontended.queued {w : JobWorld ω} {i : ω} {jobId : Str}
    (h : Uncontended w (i, .claimUpdate)) (hphase : w.phase i = .selected jobId) :
    ∃ row, w.table.find jobId = some row ∧ row.status = .queued := by
  simpa [Uncontended, hphase, isStatus, Option.any_eq_true] using h

-- the worker's own UPDATE counted, and what fail has decided is still right
def Tracked (t : JobTable) : JobPhase → Prop
  | .marked _ attempt => attempt.isSome
  | .holding _ attempt => attempt.isSome
  | .failing jobId attempt status => ∃ n row, attempt = some n ∧ t.find jobId = some row ∧
      status = retryStatus n row.maxAttempts
  | .missing call => 0 < call.maxAttempts
  | _ => True

variable {P} {w : JobWorld ω} {i : ω}

open WorkQueue (Sound Steady Legal Patient)

structure Ready (w : JobWorld ω) : Prop where
  sound : Sound w.view
  steady : Steady w.view
  tracked : ∀ i, Tracked w.table (w.phase i)

structure Simulated (P : Primitives) (w : JobWorld ω) (call : ω × Move)
    (actions : List (WorkQueue.Action Str ω)) : Prop where
  view : (step P w call).view = Calls.run WorkQueue.apply w.view actions
  legal : Calls.Each WorkQueue.apply Legal w.view actions
  patient : Calls.Each WorkQueue.apply Patient w.view actions

theorem simulated_nil {call : ω × Move} (h : (step P w call).view = w.view) :
    Simulated P w call [] := ⟨h, trivial, trivial⟩

theorem simulated_leave {move : Move}
    (h : (step P w (i, move)).view = WorkQueue.apply w.view (.leave i)) :
    Simulated P w (i, move) [.leave i] := ⟨h, ⟨trivial, trivial⟩, trivial, trivial⟩

theorem simulates_nothing {phase : JobPhase} {move : Move} (hphase : w.phase i = phase)
    (hact : act P w.table phase move = ⟨w.table, phase, []⟩) :
    ∃ actions, Simulated P w (i, move) actions := by
  rw [← hphase] at hact
  exact ⟨[], simulated_nil (JobWorld.view_of_act hact rfl rfl rfl)⟩

theorem find_of_get {t : JobTable} {jobId : Str} {job : Job} (h : get P t jobId = .ok job) :
    ∃ row, t.find jobId = some row ∧ row.job P = .ok job := by
  unfold get at h
  cases hfind : t.find jobId with
  | none => simp [hfind] at h
  | some row =>
      rw [hfind] at h
      exact ⟨row, rfl, h⟩

variable {jobId : Str} {attempt : Option ℤ}

theorem simulates_claimSelect (now : ℚ) (hphase : w.phase i = .idle) :
    ∃ actions, Simulated P w (i, .claimSelect now) actions := by
  have hact : act P w.table (w.phase i) (.claimSelect now) = claimSelect w.table now := by
    rw [hphase]
    rfl
  refine ⟨[], simulated_nil (JobWorld.view_of_act hact ?_ ?_ ?_)⟩
  all_goals cases hnext : w.table.next (available now)
  all_goals simp [claimSelect, hnext, hphase, JobPhase.claim]

theorem simulates_claimUpdate (hphase : w.phase i = .selected jobId)
    (huncontended : Uncontended w (i, .claimUpdate)) :
    ∃ actions, Simulated P w (i, .claimUpdate) actions := by
  have hact : act P w.table (w.phase i) .claimUpdate = claimUpdate w.table jobId := by
    rw [hphase]
    rfl
  obtain ⟨row, hfind, hqueued⟩ := huncontended.queued hphase
  have hwaiting : row.task.stage = .waiting := by simp [JobRow.task, hqueued, JobStatus.stage]
  have htask : (JobTable.setWhere jobId (isStatus .queued) markRunning row).task =
      row.task.taken := by
    rw [JobTable.setWhere, if_pos (by simp [JobTable.jobId_of_find hfind, isStatus, hqueued])]
    rfl
  refine ⟨[.take i jobId], ?_, ⟨⟨_, JobWorld.task_of_find hfind, Or.inl hwaiting⟩, trivial⟩, ?_,
    trivial⟩
  · rw [step, JobWorld.view_step, hact]
    simp only [claimUpdate, JobTable.tasks_update hfind, htask, hfind, Option.filter_some, isStatus,
      hqueued, decide_true, if_true, Option.map_some, JobPhase.claim, List.filterMap_nil,
      List.nil_append]
    simp only [Calls.run_cons, Calls.run_nil, WorkQueue.apply, JobWorld.task_of_find hfind,
      WorkQueue.State.take, hwaiting, reduceCtorEq, if_false]
    rfl
  · intro t ht
    rw [JobWorld.task_of_find hfind] at ht
    obtain rfl := Option.some.inj ht
    exact hwaiting

theorem simulates_claimGet (h : Ready w) (hphase : w.phase i = .marked jobId attempt) :
    ∃ actions, Simulated P w (i, .claimGet) actions := by
  have hact : act P w.table (w.phase i) .claimGet = claimGet P w.table jobId attempt := by
    rw [hphase]
    rfl
  obtain ⟨n, rfl⟩ : ∃ n, attempt = some n := by
    have htracked := h.tracked i
    rw [hphase] at htracked
    exact Option.isSome_iff_exists.mp htracked
  have hclaim : w.view.claim i = some ⟨jobId, n, false⟩ := JobWorld.claim_of_phase hphase
  cases hget : get P w.table jobId with
  | error e =>
      refine ⟨_, simulated_leave (JobWorld.view_leave hact ?_ ?_ ?_)⟩
      all_goals simp [claimGet, hget, JobPhase.claim]
  | ok job =>
      obtain ⟨row, hfind, hjob⟩ := find_of_get hget
      have hid : job.jobId = jobId := (JobRow.job_eq_ok hjob).1.trans (JobTable.jobId_of_find hfind)
      refine ⟨[.deliver i], ?_, ⟨⟨_, hclaim, rfl, h.steady i _ hclaim⟩, trivial⟩, trivial, trivial⟩
      rw [step, JobWorld.view_step, hact]
      simp only [claimGet, hget, hid, JobPhase.claim, JobEvent.delivery, List.filterMap_cons,
        List.filterMap_nil, Calls.run_cons, Calls.run_nil, WorkQueue.apply, hclaim]
      rfl

theorem simulates_complete (h : Ready w) (hphase : w.phase i = .holding jobId attempt) :
    ∃ actions, Simulated P w (i, .complete) actions := by
  have hact : act P w.table (w.phase i) .complete = complete w.table jobId := by
    rw [hphase]
    rfl
  obtain ⟨n, rfl⟩ : ∃ n, attempt = some n := by
    have htracked := h.tracked i
    rw [hphase] at htracked
    exact Option.isSome_iff_exists.mp htracked
  have hclaim : w.view.claim i = some ⟨jobId, n, true⟩ := JobWorld.claim_of_phase hphase
  obtain ⟨t, ht, -, hheld⟩ := h.steady i _ hclaim
  obtain ⟨row, hfind, rfl⟩ := JobWorld.exists_find ht
  have hrunning : row.status = .running := JobStatus.stage_injective hheld
  refine ⟨[.finish i], ?_, ⟨trivial, trivial⟩, trivial, trivial⟩
  exact JobWorld.view_finish hact rfl rfl hclaim hfind hrunning rfl rfl

theorem simulates_failGet (hphase : w.phase i = .holding jobId attempt) :
    ∃ actions, Simulated P w (i, .failGet) actions := by
  have hact : act P w.table (w.phase i) .failGet = failGet P w.table jobId attempt := by
    rw [hphase]
    rfl
  cases hget : get P w.table jobId with
  | error e =>
      refine ⟨_, simulated_leave (JobWorld.view_leave hact ?_ ?_ ?_)⟩
      all_goals simp [failGet, hget, JobPhase.claim]
  | ok job =>
      refine ⟨[], simulated_nil (JobWorld.view_of_act hact ?_ ?_ ?_)⟩
      · simp [failGet, hget]
      · cases attempt <;> simp [failGet, hget, hphase, JobPhase.claim]
      · simp [failGet, hget]

theorem simulates_failUpdate (h : Ready w) {status : JobStatus} (error : Str) (now retryDelay : ℚ)
    (hphase : w.phase i = .failing jobId attempt status) :
    ∃ actions, Simulated P w (i, .failUpdate error now retryDelay) actions := by
  have hact : act P w.table (w.phase i) (.failUpdate error now retryDelay) =
      failUpdate w.table jobId status error (now + retryDelay) := by
    rw [hphase]
    rfl
  obtain ⟨n, row, rfl, hfind, hstatus⟩ : ∃ n row, attempt = some n ∧
      w.table.find jobId = some row ∧ status = retryStatus n row.maxAttempts := by
    have htracked := h.tracked i
    rwa [hphase] at htracked
  have hclaim : w.view.claim i = some ⟨jobId, n, true⟩ := JobWorld.claim_of_phase hphase
  obtain ⟨t, ht, hcount, -⟩ := h.steady i _ hclaim
  rw [JobWorld.task_of_find hfind] at ht
  obtain rfl := Option.some.inj ht
  have hcurrent : n = row.attempts := hcount
  rw [hcurrent] at hstatus
  by_cases hencode : (encode (shortError error)).isNone = true
  · refine ⟨_, simulated_leave (JobWorld.view_leave hact ?_ ?_ ?_)⟩
    all_goals rw [failUpdate, if_pos hencode]
    all_goals rfl
  have hset : ((markFailed status (shortError error) (now + retryDelay)).set row).task =
      row.task.returned := by
    have hstage := JobWorld.stage_retryStatus row
    simp only [markFailed, hstatus, JobRow.task, WorkQueue.Task.returned] at hstage ⊢
    rw [hstage]
  refine ⟨[.putBack i], JobWorld.view_putBack hact ?_ hset hclaim hfind ?_ ?_,
    ⟨trivial, trivial⟩, trivial, trivial⟩
  · rw [failUpdate, if_neg hencode]
  · rw [failUpdate, if_neg hencode]
    rfl
  · rw [failUpdate, if_neg hencode, hstatus]
    exact JobWorld.events_retried row

theorem enqueueSelect_silent (t : JobTable) (call : EnqueueCall) :
    (enqueueSelect P t call).table = t ∧
      ((enqueueSelect P t call).phase = .idle ∨
        call.check = .ok () ∧ (enqueueSelect P t call).phase = .missing call) ∧
      (enqueueSelect P t call).events.filterMap JobEvent.delivery = [] := by
  unfold enqueueSelect
  cases hcheck : call.check with
  | error e => exact ⟨rfl, Or.inl rfl, rfl⟩
  | ok _ =>
      simp only
      split
      · exact ⟨rfl, Or.inl rfl, rfl⟩
      · cases t.findKey call.idempotencyKey with
        | none => simp
        | some row => cases hjob : row.job P <;> simp [hjob, JobEvent.delivery]

theorem simulates_enqueueSelect (call : EnqueueCall) (hphase : w.phase i = .idle) :
    ∃ actions, Simulated P w (i, .enqueueSelect call) actions := by
  have hact : act P w.table (w.phase i) (.enqueueSelect call) = enqueueSelect P w.table call := by
    rw [hphase]
    rfl
  obtain ⟨htable, hselect, hevents⟩ := enqueueSelect_silent (P := P) w.table call
  refine ⟨[], simulated_nil (JobWorld.view_of_act hact htable ?_ hevents)⟩
  rcases hselect with hidle | ⟨-, hmissing⟩
  · rw [hidle, hphase]
  · rw [hmissing, hphase]
    rfl

theorem row_of_insertedRow {call : EnqueueCall} {jobId : Str} {now : ℚ} {row : JobRow}
    (h : insertedRow P call jobId now = .ok row) :
    ∃ payload, P.dumps jobStyle (.dict call.payload) = .ok payload ∧
      row = call.row jobId payload now := by
  simp only [insertedRow, bind_eq_ok] at h
  obtain ⟨payload, hpayload, -, -, h⟩ := h
  exact ⟨payload, hpayload, (Except.ok.inj h).symm⟩

theorem simulates_enqueueInsert (h : Ready w) {call : EnqueueCall} (jobId : Str) (now : ℚ)
    (hphase : w.phase i = .missing call) :
    ∃ actions, Simulated P w (i, .enqueueInsert jobId now) actions := by
  have hact : act P w.table (w.phase i) (.enqueueInsert jobId now) =
      enqueueInsert P w.table call jobId now := by
    rw [hphase]
    rfl
  have hidle : (w.phase i).claim = none := by
    rw [hphase]
    rfl
  cases hrow : insertedRow P call jobId now with
  | error e =>
      refine ⟨[], simulated_nil (JobWorld.view_of_act hact ?_ ?_ ?_)⟩
      all_goals simp [enqueueInsert, hrow, hphase, JobPhase.claim, JobEvent.delivery]
  | ok row =>
      obtain ⟨payload, -, rfl⟩ := row_of_insertedRow hrow
      by_cases hfresh : w.table.Fresh (call.row jobId payload now)
      · have hinsert : enqueueInsert P w.table call jobId now =
            ⟨w.table.insert _ hfresh, .inserted call jobId, []⟩ := by
          simp only [enqueueInsert, hrow]
          rw [dif_pos hfresh]
        have hbudget : 0 < call.maxAttempts := by
          have htracked := h.tracked i
          rwa [hphase] at htracked
        refine ⟨[.insert jobId call.maxAttempts], ?_,
          ⟨⟨JobWorld.task_none hfresh.1, hbudget⟩, trivial⟩, trivial, trivial⟩
        exact JobWorld.view_insert hfresh (hact.trans hinsert) rfl rfl rfl rfl hidle rfl
      · refine ⟨[], simulated_nil (JobWorld.view_of_act hact ?_ ?_ ?_)⟩
        all_goals simp only [enqueueInsert, hrow]
        all_goals rw [dif_neg hfresh]
        all_goals simp [hphase, JobPhase.claim, JobEvent.delivery]

theorem simulates_enqueueGet {call : EnqueueCall} (hphase : w.phase i = .inserted call jobId) :
    ∃ actions, Simulated P w (i, .enqueueGet) actions := by
  have hact : act P w.table (w.phase i) .enqueueGet = enqueueGet P w.table call jobId := by
    rw [hphase]
    rfl
  refine ⟨[], simulated_nil (JobWorld.view_of_act hact ?_ ?_ ?_)⟩
  all_goals cases hget : get P w.table jobId
  all_goals simp [enqueueGet, hget, hphase, JobPhase.claim, JobEvent.delivery]

theorem simulates (h : Ready w) (call : ω × Move) (huncontended : Uncontended w call) :
    ∃ actions, Simulated P w call actions := by
  obtain ⟨i, move⟩ := call
  cases move with
  | claimSelect now =>
      cases hphase : w.phase i with
      | idle => exact simulates_claimSelect now hphase
      | _ => exact simulates_nothing hphase rfl
  | claimUpdate =>
      cases hphase : w.phase i with
      | selected jobId => exact simulates_claimUpdate hphase huncontended
      | _ => exact simulates_nothing hphase rfl
  | claimGet =>
      cases hphase : w.phase i with
      | marked jobId attempt => exact simulates_claimGet h hphase
      | _ => exact simulates_nothing hphase rfl
  | complete =>
      cases hphase : w.phase i with
      | holding jobId attempt => exact simulates_complete h hphase
      | _ => exact simulates_nothing hphase rfl
  | failGet =>
      cases hphase : w.phase i with
      | holding jobId attempt => exact simulates_failGet hphase
      | _ => exact simulates_nothing hphase rfl
  | failUpdate error now retryDelay =>
      cases hphase : w.phase i with
      | failing jobId attempt status => exact simulates_failUpdate h error now retryDelay hphase
      | _ => exact simulates_nothing hphase rfl
  | report =>
      cases hphase : w.phase i with
      | reporting jobId =>
          have hact : act P w.table (w.phase i) .report = ⟨w.table, .idle, []⟩ := by
            rw [hphase]
            rfl
          exact ⟨_, simulated_leave (JobWorld.view_leave hact rfl rfl rfl)⟩
      | _ => exact simulates_nothing hphase rfl
  | enqueueSelect call =>
      cases hphase : w.phase i with
      | idle => exact simulates_enqueueSelect call hphase
      | _ => exact simulates_nothing hphase rfl
  | enqueueInsert jobId now =>
      cases hphase : w.phase i with
      | missing call => exact simulates_enqueueInsert h jobId now hphase
      | _ => exact simulates_nothing hphase rfl
  | enqueueGet =>
      cases hphase : w.phase i with
      | inserted call jobId => exact simulates_enqueueGet hphase
      | _ => exact simulates_nothing hphase rfl
  | crash =>
      have hact : act P w.table (w.phase i) .crash = ⟨w.table, .idle, []⟩ := by
        cases w.phase i <;> rfl
      exact ⟨_, simulated_leave (JobWorld.view_leave hact rfl rfl rfl)⟩

-- the call whose INSERT the move is
def inserting : JobPhase → Move → Option EnqueueCall
  | .missing call, .enqueueInsert _ _ => some call
  | _, _ => none

structure Inserts (P : Primitives) (phase : JobPhase) (move : Move) (row : JobRow)
    (call : EnqueueCall) : Prop where
  inserting : inserting phase move = some call
  idempotencyKey : row.idempotencyKey = call.idempotencyKey
  payload : P.dumps jobStyle (.dict call.payload) = .ok row.payload

theorem written_act (t : JobTable) (phase : JobPhase) (move : Move) :
    t.Written (fun row => ∃ call, Inserts P phase move row call) (act P t phase move).table := by
  unfold act
  split
  · unfold claimSelect
    split <;> exact .same
  · exact .update
  · unfold claimGet
    split <;> exact .same
  · exact .update
  · unfold failGet
    split <;> exact .same
  · unfold failUpdate
    split
    · exact .same
    · exact .update
  · exact .same
  · rw [(enqueueSelect_silent t _).1]
    exact .same
  · unfold enqueueInsert
    split
    · exact .same
    · rename_i hrow
      obtain ⟨payload, hpayload, rfl⟩ := row_of_insertedRow hrow
      split
      · rename_i hfresh
        exact .insert hfresh ⟨_, rfl, rfl, hpayload⟩
      · exact .same
  · unfold enqueueGet
    split <;> exact .same
  · exact .same
  · exact .same

theorem Tracked.of_written {t t' : JobTable} {new : JobRow → Prop} {phase : JobPhase}
    (h : Tracked t phase) (hwritten : t.Written new t') : Tracked t' phase := by
  cases phase with
  | failing jobId attempt status =>
      obtain ⟨n, row, hattempt, hfind, hstatus⟩ := h
      obtain ⟨row', hfind', hmax⟩ := hwritten.find hfind
      exact ⟨n, row', hattempt, hfind', hmax ▸ hstatus⟩
  | _ => exact h

theorem tracked_failGet (hphase : w.phase i = .holding jobId attempt)
    (h : Tracked w.table (.holding jobId attempt)) (hsteady : Steady w.view) :
    Tracked (failGet P w.table jobId attempt).table (failGet P w.table jobId attempt).phase := by
  obtain ⟨n, rfl⟩ := Option.isSome_iff_exists.mp h
  unfold failGet
  cases hget : get P w.table jobId with
  | error e => trivial
  | ok job =>
      obtain ⟨row, hfind, hjob⟩ := find_of_get hget
      obtain ⟨-, hattempts, hmax⟩ := JobRow.job_eq_ok hjob
      have hclaim : w.view.claim i = some ⟨jobId, n, true⟩ := JobWorld.claim_of_phase hphase
      obtain ⟨t, ht, hcount, -⟩ := hsteady i _ hclaim
      rw [JobWorld.task_of_find hfind] at ht
      obtain rfl := Option.some.inj ht
      have hcurrent : n = row.attempts := hcount
      exact ⟨n, row, rfl, hfind, by rw [hattempts, hmax, hcurrent]⟩

theorem tracked_act {phase : JobPhase} {move : Move} (hphase : w.phase i = phase)
    (h : Tracked w.table phase) (hsteady : Steady w.view)
    (huncontended : Uncontended w (i, move)) :
    Tracked (act P w.table phase move).table (act P w.table phase move).phase := by
  unfold act
  split
  · unfold claimSelect
    split <;> trivial
  · obtain ⟨row, hfind, hqueued⟩ := huncontended.queued hphase
    simp [claimUpdate, Tracked, hfind, isStatus, hqueued]
  · unfold claimGet
    split
    · trivial
    · exact h
  · trivial
  · exact tracked_failGet hphase h hsteady
  · unfold failUpdate
    split <;> trivial
  · trivial
  · obtain ⟨-, hidle | ⟨hcheck, hmissing⟩, -⟩ := enqueueSelect_silent (P := P) w.table ‹_›
    · rw [hidle]
      trivial
    · rw [hmissing]
      exact EnqueueCall.maxAttempts_of_check _ hcheck
  · unfold enqueueInsert
    split
    · trivial
    · split <;> trivial
  · unfold enqueueGet
    split <;> trivial
  · trivial
  · exact h

theorem Ready.step (h : Ready w) {call : ω × Move} (huncontended : Uncontended w call) :
    Ready (step P w call) := by
  obtain ⟨actions, hview, hlegal, hpatient⟩ := simulates (P := P) h call huncontended
  refine ⟨?_, ?_, ?_⟩
  · rw [hview]
    exact h.sound.run hlegal
  · rw [hview]
    exact h.steady.run h.sound (hlegal.and hpatient)
  · intro k
    obtain ⟨i, move⟩ := call
    simp only [SQLiteJobStore.step, JobWorld.step]
    by_cases hk : k = i
    · rw [hk, Function.update_self]
      exact tracked_act rfl (h.tracked i) h.steady huncontended
    · rw [Function.update_of_ne hk]
      exact (h.tracked k).of_written (written_act (P := P) _ _ _)

end SQLiteJobStore

end GovernedAutonomy
