import GovernedAutonomy.JobDelivery
import GovernedAutonomy.PostgresJobs

namespace GovernedAutonomy

open Python Protocol

set_option linter.unusedSectionVars false

variable {ω : Type} [DecidableEq ω]

namespace PostgresJobStore

variable (P : Primitives) (server : PostgresServer) (leaseSeconds : ℚ)

def step (w : JobWorld ω) (call : ω × Move) : JobWorld ω :=
  w.step (act P server leaseSeconds) call

-- since the caller's claim the job was not claimed again
def InTime (w : JobWorld ω) (call : ω × Move) : Prop :=
  (match w.phase call.1, call.2 with
  | .holding jobId (some attempt), .complete =>
      (w.table.find jobId).all (fun row => decide (row.status = .running → row.attempts = attempt))
  | .holding jobId (some attempt), .fail _ _ _ =>
      (w.table.find jobId).all (fun row => decide (row.attempts = attempt))
  | _, _ => true) = true

-- a lease that has run out was not that of the last attempt
def WithinAttempts (w : JobWorld ω) (call : ω × Move) : Prop :=
  (match w.phase call.1, call.2 with
  | .idle, .claim now skipped => (w.table.next (claimable now skipped)).all
      (fun row => decide (row.status = .running → row.attempts < row.maxAttempts))
  | _, _ => true) = true

instance (w : JobWorld ω) (call : ω × Move) : Decidable (InTime w call) :=
  inferInstanceAs (Decidable (_ = _))

instance (w : JobWorld ω) (call : ω × Move) : Decidable (WithinAttempts w call) :=
  inferInstanceAs (Decidable (_ = _))

section Conditions

variable {w : JobWorld ω} {i : ω} {jobId : Str} {attempt : ℤ} {row : JobRow}

theorem InTime.complete (h : InTime w (i, .complete)) (hphase : w.phase i = .holding jobId (some attempt))
    (hfind : w.table.find jobId = some row) (hrunning : row.status = .running) :
    row.attempts = attempt := by
  simp only [InTime, hphase, Option.all_eq_true, decide_eq_true_eq] at h
  exact h row hfind hrunning

theorem InTime.fail {error : Str} {now retryDelay : ℚ} (h : InTime w (i, .fail error now retryDelay))
    (hphase : w.phase i = .holding jobId (some attempt)) (hfind : w.table.find jobId = some row) :
    row.attempts = attempt := by
  simp only [InTime, hphase, Option.all_eq_true, decide_eq_true_eq] at h
  exact h row hfind

theorem WithinAttempts.claim {now : ℚ} {skipped : List Str} (h : WithinAttempts w (i, .claim now skipped))
    (hphase : w.phase i = .idle) (hnext : w.table.next (claimable now skipped) = some row)
    (hrunning : row.status = .running) : row.attempts < row.maxAttempts := by
  simp only [WithinAttempts, hphase, Option.all_eq_true, decide_eq_true_eq] at h
  exact h row hnext hrunning

end Conditions

variable {P server leaseSeconds} {w : JobWorld ω} {i : ω}

open WorkQueue (Sound Bounded Legal Fenced Frugal)

structure Simulated (P : Primitives) (server : PostgresServer) (leaseSeconds : ℚ) (w : JobWorld ω)
    (call : ω × Move) (actions : List (WorkQueue.Action Str ω)) : Prop where
  view : (step P server leaseSeconds w call).view = Calls.run WorkQueue.apply w.view actions
  legal : Calls.Each WorkQueue.apply Legal w.view actions
  fenced : InTime w call → Calls.Each WorkQueue.apply Fenced w.view actions
  frugal : Bounded w.view → WithinAttempts w call → Calls.Each WorkQueue.apply Frugal w.view actions

theorem simulated_nil {call : ω × Move}
    (h : (step P server leaseSeconds w call).view = w.view) :
    Simulated P server leaseSeconds w call [] :=
  ⟨h, trivial, fun _ => trivial, fun _ _ => trivial⟩

theorem simulated_leave {move : Move}
    (h : (step P server leaseSeconds w (i, move)).view = WorkQueue.apply w.view (.leave i)) :
    Simulated P server leaseSeconds w (i, move) [.leave i] :=
  ⟨h, ⟨trivial, trivial⟩, fun _ => ⟨trivial, trivial⟩, fun _ _ => ⟨trivial, trivial⟩⟩

theorem stage_of_claimable {now : ℚ} {skipped : List Str} {row : JobRow}
    (h : claimable now skipped row = true) : row.status = .queued ∨ row.status = .running := by
  simp only [claimable, SQLiteJobStore.available, leaseOver, isStatus, Bool.and_eq_true,
    Bool.or_eq_true, decide_eq_true_eq] at h
  rcases h.1 with hqueued | hrunning
  · exact Or.inl hqueued.1
  · exact Or.inr hrunning.1

theorem tasks_taken {t : JobTable} {row : JobRow} {lease : ℚ} (h : t.find row.jobId = some row) :
    (t.update row.jobId (fun _ => true) (markRunning lease)).tasks =
      Function.update t.tasks row.jobId (some row.task.taken) := by
  rw [JobTable.tasks_update h]
  simp [JobTable.setWhere, markRunning, JobRow.task, JobStatus.stage, WorkQueue.Task.taken]

theorem events_expired {row : JobRow} :
    (if row.status = .running then [JobEvent.expired row.jobId] else []).filterMap
        JobEvent.delivery =
      if row.task.stage = .held then [.lapsed row.jobId] else [] := by
  cases hstatus : row.status <;> simp [JobRow.task, hstatus, JobStatus.stage, JobEvent.delivery]

section Claim

variable {now : ℚ} {skipped : List Str} {row : JobRow}

theorem view_claim_error {e : Exc}
    (hact : act P server leaseSeconds w.table (w.phase i) (.claim now skipped) =
      claim P leaseSeconds w.table now skipped)
    (hnext : w.table.next (claimable now skipped) = some row)
    (hjob : ((markRunning (now + leaseSeconds)).set row).job P = .error e) :
    (step P server leaseSeconds w (i, .claim now skipped)).view =
      Calls.run WorkQueue.apply w.view [.take i row.jobId, .leave i] := by
  have hfind := JobTable.find_of_mem (JobTable.mem_of_next hnext).1
  rw [step, JobWorld.view_step, hact]
  simp only [claim, hnext, hjob, tasks_taken hfind, events_expired]
  simp only [Calls.run_cons, Calls.run_nil, WorkQueue.apply, JobWorld.task_of_find hfind,
    WorkQueue.State.take, WorkQueue.State.release, Function.update_idem]
  congr 1
  split <;> rfl

theorem view_claim_ok {job : Job}
    (hact : act P server leaseSeconds w.table (w.phase i) (.claim now skipped) =
      claim P leaseSeconds w.table now skipped)
    (hnext : w.table.next (claimable now skipped) = some row)
    (hjob : ((markRunning (now + leaseSeconds)).set row).job P = .ok job) :
    (step P server leaseSeconds w (i, .claim now skipped)).view =
      Calls.run WorkQueue.apply w.view [.take i row.jobId, .deliver i] := by
  have hfind := JobTable.find_of_mem (JobTable.mem_of_next hnext).1
  obtain ⟨-, hattempts, -⟩ := JobRow.job_eq_ok hjob
  rw [step, JobWorld.view_step, hact]
  simp only [claim, hnext, hjob, tasks_taken hfind]
  simp only [List.filterMap_cons, JobEvent.delivery, events_expired, JobPhase.claim, hattempts]
  simp only [Calls.run_cons, Calls.run_nil, WorkQueue.apply, JobWorld.task_of_find hfind,
    WorkQueue.State.take, WorkQueue.State.deliver, Function.update_self, Function.update_idem]
  congr 1
  split <;> rfl

theorem frugal_take (hnext : w.table.next (claimable now skipped) = some row)
    (hphase : w.phase i = .idle) (hbounded : Bounded w.view)
    (hwithin : WithinAttempts w (i, .claim now skipped)) :
    Frugal w.view (.take i row.jobId) := by
  have hfind := JobTable.find_of_mem (JobTable.mem_of_next hnext).1
  intro t ht
  rw [JobWorld.task_of_find hfind] at ht
  obtain rfl := Option.some.inj ht
  rcases stage_of_claimable (JobTable.mem_of_next hnext).2 with hqueued | hrunning
  · refine (hbounded _ _ (JobWorld.task_of_find hfind)).2 ?_
    simp [JobRow.task, hqueued, JobStatus.stage]
  · exact not_le_of_gt (hwithin.claim hphase hnext hrunning)

theorem simulates_claim (hphase : w.phase i = .idle) :
    ∃ actions, Simulated P server leaseSeconds w (i, .claim now skipped) actions := by
  have hact : act P server leaseSeconds w.table (w.phase i) (.claim now skipped) =
      claim P leaseSeconds w.table now skipped := by
    rw [hphase]
    rfl
  cases hnext : w.table.next (claimable now skipped) with
  | none =>
      refine ⟨[], simulated_nil (JobWorld.view_of_act hact ?_ ?_ ?_)⟩
      all_goals simp [claim, hnext, hphase]
  | some row =>
      have hfind := JobTable.find_of_mem (JobTable.mem_of_next hnext).1
      have htake : Legal w.view (.take i row.jobId) := by
        refine ⟨row.task, JobWorld.task_of_find hfind, ?_⟩
        rcases stage_of_claimable (JobTable.mem_of_next hnext).2 with hqueued | hrunning
        · simp [JobRow.task, hqueued, JobStatus.stage]
        · simp [JobRow.task, hrunning, JobStatus.stage]
      cases hjob : ((markRunning (now + leaseSeconds)).set row).job P with
      | error e =>
          refine ⟨_, view_claim_error hact hnext hjob, ⟨htake, trivial, trivial⟩,
            fun _ => ⟨trivial, trivial, trivial⟩, fun hbounded hwithin => ?_⟩
          exact ⟨frugal_take hnext hphase hbounded hwithin, trivial, trivial⟩
      | ok job =>
          have hdeliver : Legal (WorkQueue.apply w.view (.take i row.jobId)) (.deliver i) := by
            simp only [WorkQueue.apply, JobWorld.task_of_find hfind]
            exact ⟨_, Function.update_self .., rfl, WorkQueue.holds_take⟩
          refine ⟨_, view_claim_ok hact hnext hjob, ⟨htake, hdeliver, trivial⟩,
            fun _ => ⟨trivial, trivial, trivial⟩, fun hbounded hwithin => ?_⟩
          exact ⟨frugal_take hnext hphase hbounded hwithin, trivial, trivial⟩

end Claim

section Outcome

variable {jobId : Str} {attempt : ℤ}

theorem simulates_complete (hphase : w.phase i = .holding jobId (some attempt)) :
    ∃ actions, Simulated P server leaseSeconds w (i, .complete) actions := by
  have hact : act P server leaseSeconds w.table (w.phase i) .complete = complete w.table jobId := by
    rw [hphase]
    rfl
  have hclaim : w.view.claim i = some ⟨jobId, attempt, true⟩ := JobWorld.claim_of_phase hphase
  by_cases hrunning : ∃ row, w.table.find jobId = some row ∧ row.status = .running
  · obtain ⟨row, hfind, hrunning⟩ := hrunning
    refine ⟨[.finish i], ?_, ⟨trivial, trivial⟩, fun hintime => ⟨?_, trivial⟩,
      fun _ _ => ⟨trivial, trivial⟩⟩
    · exact JobWorld.view_finish hact rfl rfl hclaim hfind hrunning rfl rfl
    · intro c hc
      rw [hclaim] at hc
      obtain rfl := Option.some.inj hc
      exact JobWorld.current_of_find hfind (hintime.complete hphase hfind hrunning)
  · refine ⟨[.leave i], simulated_leave (JobWorld.view_unchanged hact rfl ?_ rfl rfl)⟩
    exact fun row hfind hstatus => hrunning ⟨row, hfind, hstatus⟩

theorem simulates_fail (error : Str) (now retryDelay : ℚ)
    (hphase : w.phase i = .holding jobId (some attempt)) :
    ∃ actions, Simulated P server leaseSeconds w (i, .fail error now retryDelay) actions := by
  have hact : act P server leaseSeconds w.table (w.phase i) (.fail error now retryDelay) =
      fail w.table jobId error (now + retryDelay) := by
    rw [hphase]
    rfl
  have hclaim : w.view.claim i = some ⟨jobId, attempt, true⟩ := JobWorld.claim_of_phase hphase
  by_cases htext : isText (shortError error) = false
  · refine ⟨_, simulated_leave (JobWorld.view_leave hact ?_ ?_ ?_)⟩
    all_goals simp [fail, htext, JobPhase.claim]
  cases hfind : w.table.find jobId with
  | none =>
      refine ⟨_, simulated_leave ?_⟩
      rw [step, JobWorld.view_step, hact]
      simp only [fail, if_neg htext, JobTable.tasks_update_of_none hfind, JobTable.find_update, hfind]
      rfl
  | some row =>
      have hset : ((markFailed (shortError error) (now + retryDelay)).set row).task =
          row.task.returned := by
        have hstage := JobWorld.stage_retryStatus row
        simp only [markFailed, JobRow.task, WorkQueue.Task.returned] at hstage ⊢
        rw [hstage]
      have hmarked : (JobTable.setWhere jobId (fun _ => true)
          (markFailed (shortError error) (now + retryDelay)) row) =
            (markFailed (shortError error) (now + retryDelay)).set row :=
        if_pos ⟨JobTable.jobId_of_find hfind, rfl⟩
      refine ⟨[.putBack i], ?_, ⟨trivial, trivial⟩, fun hintime => ⟨?_, trivial⟩,
        fun _ _ => ⟨trivial, trivial⟩⟩
      · refine JobWorld.view_putBack hact ?_ hset hclaim hfind ?_ ?_
        · rw [fail, if_neg htext]
        · rw [fail, if_neg htext]
          rfl
        · simp only [fail, if_neg htext, JobTable.find_update, hfind, Option.map_some, hmarked]
          simp only [markFailed, Option.any_some, isStatus, decide_eq_true_eq]
          exact JobWorld.events_retried row
      · intro c hc
        rw [hclaim] at hc
        obtain rfl := Option.some.inj hc
        exact JobWorld.current_of_find hfind (hintime.fail hphase hfind)

end Outcome

theorem row_of_insertedRow {call : EnqueueCall} {jobId : Str} {now : ℚ} {row : JobRow}
    (h : insertedRow P server call jobId now = .ok row) :
    ∃ payload stored, P.dumps jobStyle (.dict call.payload) = .ok payload ∧
      server.jsonbText payload = some stored ∧ row = call.row jobId stored now := by
  simp only [insertedRow, bind_eq_ok] at h
  obtain ⟨payload, hpayload, h⟩ := h
  cases hstored : server.jsonbText payload with
  | none => simp [hstored] at h
  | some stored =>
      simp only [hstored, bind_eq_ok] at h
      obtain ⟨-, -, h⟩ := h
      exact ⟨payload, stored, hpayload, hstored, (Except.ok.inj h).symm⟩

theorem simulates_enqueueInsert (call : EnqueueCall) (jobId : Str) (now : ℚ)
    (hphase : w.phase i = .idle) :
    ∃ actions, Simulated P server leaseSeconds w (i, .enqueueInsert call jobId now) actions := by
  have hact : act P server leaseSeconds w.table (w.phase i) (.enqueueInsert call jobId now) =
      enqueueInsert P server w.table call jobId now := by
    rw [hphase]
    rfl
  cases hcheck : call.check with
  | error e =>
      refine ⟨[], simulated_nil (JobWorld.view_of_act hact ?_ ?_ ?_)⟩
      all_goals simp [enqueueInsert, hcheck, hphase, JobEvent.delivery]
  | ok u =>
      cases hrow : insertedRow P server call jobId now with
      | error e =>
          refine ⟨[], simulated_nil (JobWorld.view_of_act hact ?_ ?_ ?_)⟩
          all_goals simp [enqueueInsert, hcheck, hrow, hphase, JobEvent.delivery]
      | ok row =>
          obtain ⟨-, stored, -, -, rfl⟩ := row_of_insertedRow hrow
          by_cases htaken : call.idempotencyKey ∈ w.table.rows.map JobRow.idempotencyKey
          · refine ⟨[], simulated_nil (JobWorld.view_of_act hact ?_ ?_ ?_)⟩
            all_goals simp only [enqueueInsert, hcheck, hrow]
            all_goals simp [EnqueueCall.row, htaken, hphase, JobPhase.claim]
          by_cases hfresh : w.table.Fresh (call.row jobId stored now)
          · have hinsert : enqueueInsert P server w.table call jobId now =
                ⟨w.table.insert _ hfresh, .inserted call jobId, []⟩ := by
              simp only [enqueueInsert, hcheck, hrow]
              rw [if_neg (by exact htaken), dif_pos hfresh]
            refine ⟨[.insert jobId call.maxAttempts], ?_, ⟨⟨?_, ?_⟩, trivial⟩,
              fun _ => ⟨trivial, trivial⟩, fun _ _ => ⟨trivial, trivial⟩⟩
            · have hidle : (w.phase i).claim = none := by
                rw [hphase]
                rfl
              exact JobWorld.view_insert hfresh (hact.trans hinsert) rfl rfl rfl rfl hidle rfl
            · exact JobWorld.task_none hfresh.1
            · exact call.maxAttempts_of_check hcheck
          · refine ⟨[], simulated_nil (JobWorld.view_of_act hact ?_ ?_ ?_)⟩
            all_goals simp only [enqueueInsert, hcheck, hrow]
            all_goals rw [if_neg (by exact htaken), dif_neg hfresh]
            all_goals simp [hphase, JobPhase.claim, JobEvent.delivery]

theorem simulates_nothing {phase : JobPhase} {move : Move} (hphase : w.phase i = phase)
    (hact : act P server leaseSeconds w.table phase move = ⟨w.table, phase, []⟩) :
    ∃ actions, Simulated P server leaseSeconds w (i, move) actions := by
  rw [← hphase] at hact
  exact ⟨[], simulated_nil (JobWorld.view_of_act hact rfl rfl rfl)⟩

theorem simulates_enqueueSelect {call : EnqueueCall} {jobId : Str}
    (hphase : w.phase i = .inserted call jobId) :
    ∃ actions, Simulated P server leaseSeconds w (i, .enqueueSelect) actions := by
  have hact : act P server leaseSeconds w.table (w.phase i) .enqueueSelect =
      enqueueSelect P w.table call := by
    rw [hphase]
    rfl
  refine ⟨[], simulated_nil (JobWorld.view_of_act hact ?_ ?_ ?_)⟩
  all_goals cases hread : readJob P (w.table.findKey call.idempotencyKey)
  all_goals simp [enqueueSelect, hread, hphase, JobPhase.claim, JobEvent.delivery]

theorem simulates_crash : ∃ actions, Simulated P server leaseSeconds w (i, .crash) actions := by
  have hact : act P server leaseSeconds w.table (w.phase i) .crash = ⟨w.table, .idle, []⟩ := by
    cases w.phase i with
    | holding jobId attempt => cases attempt <;> rfl
    | _ => rfl
  exact ⟨_, simulated_leave (JobWorld.view_leave hact rfl rfl rfl)⟩

theorem simulates (call : ω × Move) : ∃ actions, Simulated P server leaseSeconds w call actions := by
  obtain ⟨i, move⟩ := call
  cases move with
  | claim now skipped =>
      cases hphase : w.phase i with
      | idle => exact simulates_claim hphase
      | _ => exact simulates_nothing hphase (by simp [act])
  | complete =>
      cases hphase : w.phase i with
      | holding jobId attempt =>
          cases attempt with
          | none => exact simulates_nothing hphase rfl
          | some attempt => exact simulates_complete hphase
      | _ => exact simulates_nothing hphase (by simp [act])
  | fail error now retryDelay =>
      cases hphase : w.phase i with
      | holding jobId attempt =>
          cases attempt with
          | none => exact simulates_nothing hphase rfl
          | some attempt => exact simulates_fail error now retryDelay hphase
      | _ => exact simulates_nothing hphase (by simp [act])
  | report =>
      cases hphase : w.phase i with
      | reporting jobId =>
          have hact : act P server leaseSeconds w.table (w.phase i) .report =
              ⟨w.table, .idle, []⟩ := by
            rw [hphase]
            rfl
          exact ⟨_, simulated_leave (JobWorld.view_leave hact rfl rfl rfl)⟩
      | _ => exact simulates_nothing hphase (by simp [act])
  | enqueueInsert call jobId now =>
      cases hphase : w.phase i with
      | idle => exact simulates_enqueueInsert call jobId now hphase
      | _ => exact simulates_nothing hphase (by simp [act])
  | enqueueSelect =>
      cases hphase : w.phase i with
      | inserted call jobId => exact simulates_enqueueSelect hphase
      | _ => exact simulates_nothing hphase (by simp [act])
  | crash => exact simulates_crash

def inserting : JobPhase → Move → Option EnqueueCall
  | .idle, .enqueueInsert call _ _ => some call
  | _, _ => none

structure Inserts (P : Primitives) (server : PostgresServer) (phase : JobPhase) (move : Move)
    (row : JobRow) (call : EnqueueCall) : Prop where
  inserting : inserting phase move = some call
  idempotencyKey : row.idempotencyKey = call.idempotencyKey
  payload : ∃ payload, P.dumps jobStyle (.dict call.payload) = .ok payload ∧
    server.jsonbText payload = some row.payload

theorem written_act (t : JobTable) (phase : JobPhase) (move : Move) :
    t.Written (fun row => ∃ call, Inserts P server phase move row call)
      (act P server leaseSeconds t phase move).table := by
  unfold act
  split
  · unfold claim
    split
    · exact .same
    · dsimp only
      split <;> exact .update
  · exact .update
  · unfold fail
    split
    · exact .same
    · exact .update
  · exact .same
  · unfold enqueueInsert
    split
    · exact .same
    · split
      · exact .same
      · rename_i hrow
        obtain ⟨payload, stored, hpayload, hstored, rfl⟩ := row_of_insertedRow hrow
        split
        · exact .same
        · split
          · rename_i hfresh
            exact .insert hfresh ⟨_, rfl, rfl, payload, hpayload, hstored⟩
          · exact .same
  · unfold enqueueSelect
    split <;> exact .same
  · exact .same
  · exact .same

end PostgresJobStore

end GovernedAutonomy
