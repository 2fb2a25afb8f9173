import GovernedAutonomy.Jobs

namespace GovernedAutonomy

open Python Protocol

set_option linter.unusedSectionVars false

namespace JobTable

variable {t : JobTable} {row : JobRow} {jobId k : Str} {guard : JobRow → Bool} {u : RowUpdate}

@[simp]
theorem jobId_setWhere : (setWhere jobId guard u row).jobId = row.jobId := by
  unfold setWhere
  split
  · exact u.jobId row
  · rfl

@[simp]
theorem maxAttempts_setWhere : (setWhere jobId guard u row).maxAttempts = row.maxAttempts := by
  unfold setWhere
  split
  · exact u.maxAttempts row
  · rfl

theorem jobId_of_find (h : t.find jobId = some row) : row.jobId = jobId := by
  have hfound := List.find?_some h
  exact of_decide_eq_true hfound

theorem mem_of_find (h : t.find jobId = some row) : row ∈ t.rows := List.mem_of_find?_eq_some h

theorem find_of_mem (h : row ∈ t.rows) : t.find row.jobId = some row := by
  obtain ⟨found, hfound⟩ : ∃ found, t.find row.jobId = some found :=
    Option.isSome_iff_exists.mp (List.find?_isSome.mpr ⟨row, h, decide_eq_true rfl⟩)
  have hsame : found = row :=
    List.inj_on_of_nodup_map t.primaryKey (mem_of_find hfound) h (jobId_of_find hfound)
  rw [hfound, hsame]

theorem find_update : (t.update jobId guard u).find k = (t.find k).map (setWhere jobId guard u) := by
  simp only [find, update, List.find?_map]
  congr 2
  funext row
  simp

theorem find_insert {h : t.Fresh row} :
    (t.insert row h).find k = if k = row.jobId then some row else t.find k := by
  simp only [find, insert, List.find?_append]
  split
  · rename_i hk
    subst hk
    have hnone : t.rows.find? (fun r => decide (r.jobId = row.jobId)) = none := by
      rw [List.find?_eq_none]
      intro r hr hsame
      exact h.1 (of_decide_eq_true hsame ▸ List.mem_map_of_mem hr)
    rw [hnone]
    simp
  · rename_i hk
    simp [Ne.symm hk]

theorem find_insert_self (h : t.Fresh row) : (t.insert row h).find row.jobId = some row := by
  rw [find_insert, if_pos rfl]

theorem update_eq_self (h : ∀ row, t.find jobId = some row → guard row = false) :
    t.update jobId guard u = t := by
  have hrows : ∀ row ∈ t.rows, setWhere jobId guard u row = id row := by
    intro row hrow
    refine if_neg ?_
    rintro ⟨rfl, hguard⟩
    rw [h row (find_of_mem hrow)] at hguard
    cases hguard
  cases t with
  | mk rows primaryKey uniqueKey =>
      simp only [update, mk.injEq]
      exact (List.map_congr_left hrows).trans (List.map_id rows)

theorem mem_of_next {eligible : JobRow → Bool} (h : t.next eligible = some row) :
    row ∈ t.rows ∧ eligible row = true := by
  have hmem := List.mem_of_head? h
  rw [List.mem_insertionSort] at hmem
  exact List.mem_filter.mp hmem

end JobTable

-- what one step can make of the table, where it inserts only rows that are new
inductive JobTable.Written (t : JobTable) (new : JobRow → Prop) : JobTable → Prop
  | same : Written t new t
  | update {jobId : Str} {guard : JobRow → Bool} {u : RowUpdate} :
      Written t new (t.update jobId guard u)
  | insert {row : JobRow} (h : t.Fresh row) (hnew : new row) : Written t new (t.insert row h)

theorem JobTable.Written.find {t t' : JobTable} {new : JobRow → Prop} (h : t.Written new t')
    {jobId : Str} {row : JobRow}
    (hfind : t.find jobId = some row) :
    ∃ row', t'.find jobId = some row' ∧ row'.maxAttempts = row.maxAttempts := by
  cases h with
  | same => exact ⟨row, hfind, rfl⟩
  | update => exact ⟨_, by rw [find_update, hfind, Option.map_some], maxAttempts_setWhere⟩
  | @insert fresh hfresh _ =>
      refine ⟨row, ?_, rfl⟩
      rw [find_insert, if_neg, hfind]
      rintro rfl
      exact hfresh.1 (List.mem_map.mpr ⟨row, mem_of_find hfind, jobId_of_find hfind⟩)

def JobStatus.stage : JobStatus → WorkQueue.Stage
  | .queued => .waiting
  | .running => .held
  | .succeeded => .done
  | .deadLetter => .dead

theorem JobStatus.stage_injective : Function.Injective JobStatus.stage := by
  intro a b h
  cases a <;> cases b <;> first | rfl | cases h

def JobRow.task (row : JobRow) : WorkQueue.Task := ⟨row.status.stage, row.attempts, row.maxAttempts⟩

def JobTable.tasks (t : JobTable) (jobId : Str) : Option WorkQueue.Task :=
  (t.find jobId).map JobRow.task

def JobPhase.claim : JobPhase → Option (WorkQueue.Claim Str)
  | .marked jobId (some attempt) => some ⟨jobId, attempt, false⟩
  | .holding jobId (some attempt) => some ⟨jobId, attempt, true⟩
  | .failing jobId (some attempt) _ => some ⟨jobId, attempt, true⟩
  | _ => none

def JobEvent.delivery : JobEvent → Option (WorkQueue.Event Str)
  | .returned jobId => some (.delivered jobId)
  | .released jobId => some (.released jobId)
  | .expired jobId => some (.lapsed jobId)
  | _ => none

namespace JobTable

variable {t : JobTable} {row : JobRow} {jobId : Str} {guard : JobRow → Bool} {u : RowUpdate}

theorem tasks_update (h : t.find jobId = some row) : (t.update jobId guard u).tasks =
    Function.update t.tasks jobId (some (setWhere jobId guard u row).task) := by
  funext k
  by_cases hk : k = jobId
  · rw [hk, Function.update_self, tasks, find_update, h]
    rfl
  · rw [Function.update_of_ne hk, tasks, tasks, find_update]
    cases hfind : t.find k with
    | none => rfl
    | some found =>
        have hne : found.jobId ≠ jobId := fun heq => hk ((jobId_of_find hfind).symm.trans heq)
        simp [setWhere, hne]

theorem tasks_update_of_none (h : t.find jobId = none) : (t.update jobId guard u).tasks = t.tasks := by
  funext k
  rw [tasks, tasks, find_update]
  cases hfind : t.find k with
  | none => rfl
  | some found =>
      have hne : found.jobId ≠ jobId := by
        rintro rfl
        rw [jobId_of_find hfind, hfind] at h
        cases h
      simp [setWhere, hne]

theorem tasks_insert {h : t.Fresh row} :
    (t.insert row h).tasks = Function.update t.tasks row.jobId (some row.task) := by
  funext k
  rw [tasks, find_insert, Function.update_apply]
  split <;> rfl

end JobTable

theorem JobRow.job_eq_ok {P : Primitives} {row : JobRow} {job : Job} (h : row.job P = .ok job) :
    job.jobId = row.jobId ∧ job.attempts = row.attempts ∧ job.maxAttempts = row.maxAttempts := by
  simp only [JobRow.job, bind_eq_ok] at h
  obtain ⟨payload, -, h⟩ := h
  obtain rfl := Except.ok.inj h
  exact ⟨rfl, rfl, rfl⟩

namespace JobWorld

variable {ω M : Type}

def view (w : JobWorld ω) : WorkQueue.State Str ω where
  task := w.table.tasks
  claim := fun i => (w.phase i).claim
  log := w.log.filterMap JobEvent.delivery

variable {w : JobWorld ω} {i : ω} {m : M}

theorem task_none {jobId : Str} (h : jobId ∉ w.table.rows.map JobRow.jobId) :
    w.view.task jobId = none := by
  cases hfind : w.table.find jobId with
  | none => simp [view, JobTable.tasks, hfind]
  | some row =>
      refine absurd (List.mem_map.mpr ⟨row, JobTable.mem_of_find hfind, ?_⟩) h
      exact JobTable.jobId_of_find hfind

theorem task_of_find {jobId : Str} {row : JobRow} (h : w.table.find jobId = some row) :
    w.view.task jobId = some row.task := by simp [view, JobTable.tasks, h]

theorem exists_find {jobId : Str} {t : WorkQueue.Task} (h : w.view.task jobId = some t) :
    ∃ row, w.table.find jobId = some row ∧ row.task = t := by
  simpa [view, JobTable.tasks] using h

variable [DecidableEq ω] {act : JobTable → JobPhase → M → JobOutcome}

theorem view_step : (w.step act (i, m)).view =
    ⟨(act w.table (w.phase i) m).table.tasks,
      Function.update w.view.claim i (act w.table (w.phase i) m).phase.claim,
      (act w.table (w.phase i) m).events.filterMap JobEvent.delivery ++ w.view.log⟩ := by
  simp only [view, step, List.filterMap_append]
  congr 1
  funext k
  by_cases hk : k = i
  · rw [hk, Function.update_self, Function.update_self]
  · rw [Function.update_of_ne hk, Function.update_of_ne hk]

variable {o : JobOutcome}

theorem update_claim (h : (w.phase i).claim = none) :
    Function.update w.view.claim i none = w.view.claim := by
  rw [← h]
  exact Function.update_eq_self i w.view.claim

theorem view_of_act (ho : act w.table (w.phase i) m = o) (htable : o.table = w.table)
    (hclaim : o.phase.claim = (w.phase i).claim)
    (hevents : o.events.filterMap JobEvent.delivery = []) : (w.step act (i, m)).view = w.view := by
  rw [view_step, ho, htable, hclaim, hevents]
  simp only [List.nil_append]
  congr 1
  exact Function.update_eq_self i w.view.claim

theorem view_leave (ho : act w.table (w.phase i) m = o) (htable : o.table = w.table)
    (hclaim : o.phase.claim = none) (hevents : o.events.filterMap JobEvent.delivery = []) :
    (w.step act (i, m)).view = WorkQueue.apply w.view (.leave i) := by
  rw [view_step, ho, htable, hclaim, hevents]
  rfl

theorem view_insert {row : JobRow} (h : w.table.Fresh row) (ho : act w.table (w.phase i) m = o)
    (htable : o.table = w.table.insert row h) (hqueued : row.status = .queued)
    (hattempts : row.attempts = 0) (hclaim : o.phase.claim = none) (hold : (w.phase i).claim = none)
    (hevents : o.events.filterMap JobEvent.delivery = []) : (w.step act (i, m)).view =
      WorkQueue.apply w.view (.insert row.jobId row.maxAttempts) := by
  have htask : row.task = ⟨.waiting, 0, row.maxAttempts⟩ := by
    simp [JobRow.task, hqueued, hattempts, JobStatus.stage]
  rw [view_step, ho, htable, hclaim, hevents, update_claim hold, JobTable.tasks_insert, htask]
  rfl

end JobWorld

namespace JobWorld

variable {ω : Type} [DecidableEq ω] {w : JobWorld ω} {i : ω} {jobId : Str} {row : JobRow}

theorem tasks_unchanged {guard : JobRow → Bool} {u : RowUpdate}
    (h : ∀ row, w.table.find jobId = some row → guard row = false) :
    (w.table.update jobId guard u).tasks = w.table.tasks := by
  cases hfind : w.table.find jobId with
  | none => exact JobTable.tasks_update_of_none hfind
  | some row =>
      rw [JobTable.tasks_update hfind, JobTable.setWhere, if_neg (by simp [h row hfind])]
      refine Function.update_eq_self_iff.mpr ?_
      rw [JobTable.tasks, hfind]
      rfl

theorem stage_retryStatus (row : JobRow) :
    (retryStatus row.attempts row.maxAttempts).stage = row.task.returned.stage := by
  unfold retryStatus WorkQueue.Task.returned WorkQueue.Task.Spent JobRow.task
  by_cases h : row.attempts < row.maxAttempts
  · simp [h, not_le_of_gt h, JobStatus.stage]
  · simp [h, le_of_not_gt h, JobStatus.stage]

theorem claim_of_phase {phase : JobPhase} (h : w.phase i = phase) :
    w.view.claim i = phase.claim := by
  rw [← h]
  rfl

theorem events_retried (row : JobRow) :
    (if retryStatus row.attempts row.maxAttempts = .queued then
        [JobEvent.released jobId] else []).filterMap JobEvent.delivery =
      if row.task.Spent then [] else [.released jobId] := by
  simp only [retryStatus, WorkQueue.Task.Spent, JobRow.task]
  by_cases h : row.attempts < row.maxAttempts
  · simp [h, not_le_of_gt h, JobEvent.delivery]
  · simp [h, le_of_not_gt h]

section Settle

variable {M : Type} {act : JobTable → JobPhase → M → JobOutcome} {m : M} {o : JobOutcome}
  {u : RowUpdate} {attempt : ℤ} {delivered : Bool}

theorem view_finish (ho : act w.table (w.phase i) m = o)
    (htable : o.table = w.table.update jobId (isStatus .running) u)
    (hset : (u.set row).task = { row.task with stage := .done })
    (hclaim : w.view.claim i = some ⟨jobId, attempt, delivered⟩)
    (hfind : w.table.find jobId = some row) (hrunning : row.status = .running)
    (hphase : o.phase.claim = none) (hevents : o.events.filterMap JobEvent.delivery = []) :
    (w.step act (i, m)).view = WorkQueue.apply w.view (.finish i) := by
  have htask : (JobTable.setWhere jobId (isStatus .running) u row).task = row.task.finished := by
    have hheld : row.task.stage = .held := by simp [JobRow.task, hrunning, JobStatus.stage]
    rw [JobTable.setWhere, if_pos (by simp [JobTable.jobId_of_find hfind, isStatus, hrunning]), hset,
      WorkQueue.Task.finished, if_pos hheld]
  rw [view_step, ho, htable, hphase, hevents, JobTable.tasks_update hfind, htask]
  simp only [WorkQueue.apply, hclaim, task_of_find hfind]
  rfl

theorem view_unchanged (ho : act w.table (w.phase i) m = o)
    (htable : o.table = w.table.update jobId (isStatus .running) u)
    (hidle : ∀ row, w.table.find jobId = some row → row.status ≠ .running)
    (hphase : o.phase.claim = none) (hevents : o.events.filterMap JobEvent.delivery = []) :
    (w.step act (i, m)).view = WorkQueue.apply w.view (.leave i) := by
  have htasks : (w.table.update jobId (isStatus .running) u).tasks = w.table.tasks :=
    tasks_unchanged fun row hfind => decide_eq_false (hidle row hfind)
  rw [view_step, ho, htable, hphase, hevents, htasks]
  rfl

theorem view_putBack (ho : act w.table (w.phase i) m = o)
    (htable : o.table = w.table.update jobId (fun _ => true) u)
    (hset : (u.set row).task = row.task.returned)
    (hclaim : w.view.claim i = some ⟨jobId, attempt, delivered⟩)
    (hfind : w.table.find jobId = some row) (hphase : o.phase.claim = none)
    (hevents : o.events.filterMap JobEvent.delivery =
      if row.task.Spent then [] else [.released jobId]) :
    (w.step act (i, m)).view = WorkQueue.apply w.view (.putBack i) := by
  have htask : (JobTable.setWhere jobId (fun _ => true) u row).task = row.task.returned := by
    rw [JobTable.setWhere, if_pos (by simp [JobTable.jobId_of_find hfind]), hset]
  rw [view_step, ho, htable, hphase, hevents, JobTable.tasks_update hfind, htask]
  simp only [WorkQueue.apply, hclaim, task_of_find hfind, WorkQueue.State.putBack]
  congr 1
  split <;> rfl

end Settle

theorem current_of_find {attempt : ℤ} {delivered : Bool} (hfind : w.table.find jobId = some row)
    (h : row.attempts = attempt) : w.view.Current ⟨jobId, attempt, delivered⟩ :=
  ⟨row.task, task_of_find hfind, h.symm⟩

end JobWorld

theorem EnqueueCall.maxAttempts_of_check (call : EnqueueCall) {u : Unit} (h : call.check = .ok u) :
    0 < call.maxAttempts := by
  simp only [EnqueueCall.check, raiseIf_eq_ok, not_or, not_le] at h
  exact h.2

end GovernedAutonomy
