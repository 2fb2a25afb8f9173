import GovernedAutonomy.PostgresJobs
import GovernedAutonomy.SQLiteDelivery
import GovernedAutonomy.Worker

namespace GovernedAutonomy

open Python

-- type(exc).__name__, and which of the classes of run_once's except clause it is of
structure Raised where
  name : Str
  isValueError : Bool := false
  isRuntimeError : Bool := false
  isTimeoutError : Bool := false
  isOSError : Bool := false

def Raised.caught (e : Raised) : Bool :=
  e.isValueError || e.isRuntimeError || e.isTimeoutError || e.isOSError

namespace Raised

def builtinName : Builtin → String
  | .typeError => "TypeError"
  | .keyError => "KeyError"
  | .attributeError => "AttributeError"
  | .overflowError => "OverflowError"
  | .recursionError => "RecursionError"
  | .unicodeEncodeError => "UnicodeEncodeError"
  | .jsonDecodeError => "JSONDecodeError"
  | .integrityError => "IntegrityError"

def className : Exc → String
  | .builtin b => builtinName b
  | .valueError _ => "ValueError"
  | .custom cls _ _ _ => cls

def ofExc (e : Exc) : Raised where
  name := lit (className e)
  isValueError := e.isValueError
  isRuntimeError := ["RecursionError", "RuntimeError", "JobStoreError"].contains (className e)
  isTimeoutError := decide (className e = "TimeoutError")
  isOSError := ["OSError", "TimeoutError"].contains (className e)

end Raised

-- a job store, with what it keeps and what it does to the job of a call
structure JobStore (σ : Type) where
  stored : σ → Str → Option Job
  claim : σ → σ × Except Raised (Option Job)
  complete : σ → Str → σ × Except Raised Unit
  fail : σ → Str → Str → ℚ → σ × Except Raised Unit
  get : σ → Str → σ × Except Raised Job
  claimed : ∀ {s s' job}, claim s = (s', .ok (some job)) →
    stored s' job.jobId = some job ∧ job.status = .running
  completed : ∀ {s s' job}, complete s job.jobId = (s', .ok ()) → stored s job.jobId = some job →
    job.status = .running → stored s' job.jobId = some { job with status := .succeeded }
  not_completed : ∀ {s s' jobId e}, complete s jobId = (s', .error e) →
    stored s' jobId = stored s jobId
  failed : ∀ {s s' job error retryDelay}, fail s job.jobId error retryDelay = (s', .ok ()) →
    stored s job.jobId = some job → ∃ availableAt, stored s' job.jobId = some { job with
      status := retryStatus job.attempts job.maxAttempts
      lastError := some (shortError error)
      availableAt := availableAt }
  not_failed : ∀ {s s' jobId error retryDelay e},
    fail s jobId error retryDelay = (s', .error e) → stored s' jobId = stored s jobId
  got : ∀ {s s' jobId job}, get s jobId = (s', .ok job) → stored s jobId = some job
  get_stored : ∀ s jobId, stored (get s jobId).1 = stored s

abbrev Handler := PyVal → Except Raised Unit

abbrev Compensation := Job → Raised → Except Raised Unit

structure Ran (σ : Type) where
  store : σ
  compensated : List Job
  result : Except Raised (Option Job)

namespace JobStore

variable {σ : Type} (store : JobStore σ) (handler : Handler) (compensation : Option Compensation)
  (retryDelay : ℚ)

def report (s : σ) (job : Job) (compensated : List Job) : Ran σ :=
  let (s, result) := store.get s job.jobId
  ⟨s, compensated, result.map some⟩

-- what follows on fail: the job is read, and compensated if it is now a dead letter
def compensate (s : σ) (job : Job) (e : Raised) : Ran σ :=
  match store.get s job.jobId with
  | (s, .error e) => ⟨s, [], .error e⟩
  | (s, .ok current) =>
      match current.status, compensation with
      | .deadLetter, some compensation =>
          match compensation job e with
          | .error e => ⟨s, [job], .error e⟩
          | .ok _ => store.report s job [job]
      | _, _ => store.report s job []

def attempt (s : σ) (job : Job) : Ran σ :=
  match handler job.payload with
  | .ok _ =>
      match store.complete s job.jobId with
      | (s, .error e) => ⟨s, [], .error e⟩
      | (s, .ok _) => store.report s job []
  | .error e =>
      if e.caught then
        match store.fail s job.jobId e.name retryDelay with
        | (s, .error e) => ⟨s, [], .error e⟩
        | (s, .ok _) => store.compensate compensation s job e
      else ⟨s, [], .error e⟩

def runOnce (s : σ) : Ran σ :=
  match store.claim s with
  | (s, .error e) => ⟨s, [], .error e⟩
  | (s, .ok none) => ⟨s, [], .ok none⟩
  | (s, .ok (some job)) => store.attempt handler compensation retryDelay s job

section Statement

def settledAs : Except Raised Unit → JobStatus → Prop
  | .ok _, status => status = .succeeded
  | .error _, status => status = .queued ∨ status = .deadLetter

-- how a run leaves the job that it has claimed
def Settles (s : σ) (job : Job) : Prop :=
  let ran := store.runOnce handler compensation retryDelay s
  ∃ final, store.stored ran.store job.jobId = some final ∧ final.status ≠ .running ∧
    settledAs (handler job.payload) final.status ∧
    ran.compensated = if compensation.isSome ∧ final.status = .deadLetter then [job] else []

-- s is the store after the claim
def Handled (s : σ) (job : Job) : Prop :=
  match handler job.payload with
  | .ok _ => (store.complete s job.jobId).2 = .ok ()
  | .error e =>
      e.caught = true ∧ (store.fail s job.jobId e.name retryDelay).2 = .ok () ∧
        (compensation.isSome = true → job.maxAttempts ≤ job.attempts → ∃ current,
          (store.get (store.fail s job.jobId e.name retryDelay).1 job.jobId).2 = .ok current)

end Statement

section Settling

variable {store handler compensation retryDelay} {s s' : σ} {job final : Job} {e : Raised}

@[simp]
theorem stored_report (s : σ) (job : Job) (compensated : List Job) :
    store.stored (store.report s job compensated).store = store.stored s :=
  store.get_stored s job.jobId

theorem compensated_report (s : σ) (job : Job) (compensated : List Job) :
    (store.report s job compensated).compensated = compensated := rfl

@[simp]
theorem stored_compensate (s : σ) (job : Job) (e : Raised) :
    store.stored (store.compensate compensation s job e).store = store.stored s := by
  have hget := store.get_stored s job.jobId
  rw [compensate]
  split
  · rename_i h
    rwa [h] at hget
  · rename_i h
    rw [h] at hget
    split
    · split
      · exact hget
      · rw [stored_report, hget]
    · rw [stored_report, hget]

theorem compensated_of_due (hfinal : store.stored s job.jobId = some final)
    (hget : compensation.isSome = true → final.status = .deadLetter →
      ∃ current, (store.get s job.jobId).2 = .ok current) :
    (store.compensate compensation s job e).compensated =
      if compensation.isSome ∧ final.status = .deadLetter then [job] else [] := by
  rw [compensate]
  split
  · rename_i h
    refine (if_neg ?_).symm
    rintro ⟨hsome, hdead⟩
    obtain ⟨current, hcurrent⟩ := hget hsome hdead
    rw [h] at hcurrent
    cases hcurrent
  · rename_i current h
    have hcurrent := store.got h
    rw [hfinal] at hcurrent
    obtain rfl := Option.some.inj hcurrent
    split
    · rename_i hdead
      rw [if_pos ⟨rfl, hdead⟩]
      split
      · rfl
      · rfl
    · rename_i hother
      refine (if_neg ?_).symm
      rintro ⟨hsome, hdead⟩
      obtain ⟨compensation, rfl⟩ := Option.isSome_iff_exists.mp hsome
      exact hother compensation hdead rfl

theorem not_compensated (hget : (store.get s job.jobId).2 = .error e) {e' : Raised} :
    (store.compensate compensation s job e').compensated = [] := by
  rw [compensate]
  split
  · rfl
  · rename_i h
    rw [h] at hget
    cases hget

theorem runOnce_of_claim (hclaim : store.claim s = (s', .ok (some job))) :
    store.runOnce handler compensation retryDelay s =
      store.attempt handler compensation retryDelay s' job := by
  rw [runOnce, hclaim]

theorem not_settles_of_running (hstored : store.stored
      (store.runOnce handler compensation retryDelay s).store job.jobId = some job)
    (hrunning : job.status = .running) : ¬ store.Settles handler compensation retryDelay s job := by
  rintro ⟨final, hfinal, hsettled, -⟩
  rw [hstored] at hfinal
  obtain rfl := Option.some.inj hfinal
  exact hsettled hrunning

theorem settles_returned_iff (hclaim : store.claim s = (s', .ok (some job)))
    (hreturned : handler job.payload = .ok ()) :
    store.Settles handler compensation retryDelay s job ↔
      (store.complete s' job.jobId).2 = .ok () := by
  obtain ⟨hstored, hrunning⟩ := store.claimed hclaim
  have hrun : store.runOnce handler compensation retryDelay s =
      store.attempt handler compensation retryDelay s' job := runOnce_of_claim hclaim
  simp only [attempt, hreturned] at hrun
  cases hcomplete : store.complete s' job.jobId with
  | mk s'' result =>
      rw [hcomplete] at hrun
      cases result with
      | error e =>
          refine iff_of_false (not_settles_of_running ?_ hrunning) (by rintro ⟨⟩)
          rw [hrun]
          exact (store.not_completed hcomplete).trans hstored
      | ok u =>
          refine iff_of_true ?_ rfl
          refine ⟨{ job with status := .succeeded }, ?_, by simp, ?_, ?_⟩
          · rw [hrun, stored_report]
            exact store.completed hcomplete hstored hrunning
          · rw [hreturned]
            rfl
          · rw [hrun]
            simp [compensated_report]

theorem retryStatus_settled (attempts maxAttempts : ℤ) :
    retryStatus attempts maxAttempts = .queued ∨ retryStatus attempts maxAttempts = .deadLetter := by
  rw [retryStatus]
  split_ifs
  · exact .inl rfl
  · exact .inr rfl

theorem retryStatus_dead {attempts maxAttempts : ℤ} :
    retryStatus attempts maxAttempts = .deadLetter ↔ maxAttempts ≤ attempts := by
  rw [retryStatus]
  split_ifs with h
  · simp [h]
  · simpa using h

theorem settles_caught_iff (hclaim : store.claim s = (s', .ok (some job)))
    (hraised : handler job.payload = .error e) (hcaught : e.caught = true) :
    store.Settles handler compensation retryDelay s job ↔
      (store.fail s' job.jobId e.name retryDelay).2 = .ok () ∧
        (compensation.isSome = true → job.maxAttempts ≤ job.attempts → ∃ current,
          (store.get (store.fail s' job.jobId e.name retryDelay).1 job.jobId).2 = .ok current) := by
  obtain ⟨hstored, hrunning⟩ := store.claimed hclaim
  have hrun : store.runOnce handler compensation retryDelay s =
      store.attempt handler compensation retryDelay s' job := runOnce_of_claim hclaim
  simp only [attempt, hraised, hcaught, if_true] at hrun
  cases hfail : store.fail s' job.jobId e.name retryDelay with
  | mk s'' result =>
      rw [hfail] at hrun
      cases result with
      | error e' =>
          refine iff_of_false (not_settles_of_running ?_ hrunning) (by rintro ⟨⟨⟩, -⟩)
          rw [hrun]
          exact (store.not_failed hfail).trans hstored
      | ok u =>
          obtain ⟨availableAt, hfinal⟩ := store.failed hfail hstored
          rw [Settles, hrun, stored_compensate]
          simp only [hfinal, hraised, settledAs, true_and]
          constructor
          · rintro ⟨final, hsame, -, -, hcalls⟩ hsome hdue
            obtain rfl := Option.some.inj hsame
            rw [if_pos ⟨hsome, retryStatus_dead.mpr hdue⟩] at hcalls
            cases hget : (store.get s'' job.jobId).2 with
            | error e' =>
                rw [not_compensated hget] at hcalls
                cases hcalls
            | ok current => exact ⟨current, rfl⟩
          · intro hget
            refine ⟨_, rfl, ?_, retryStatus_settled _ _, ?_⟩
            · rcases retryStatus_settled job.attempts job.maxAttempts with h | h
              · simp [h]
              · simp [h]
            · exact compensated_of_due hfinal fun hsome hdead => hget hsome (retryStatus_dead.mp hdead)

theorem not_settles_escaped (hclaim : store.claim s = (s', .ok (some job)))
    (hraised : handler job.payload = .error e) (hescaped : e.caught = false) :
    ¬ store.Settles handler compensation retryDelay s job := by
  obtain ⟨hstored, hrunning⟩ := store.claimed hclaim
  refine not_settles_of_running ?_ hrunning
  rw [runOnce_of_claim hclaim, attempt, hraised]
  simp only [hescaped, Bool.false_eq_true, if_false]
  exact hstored

theorem run_once_settles_iff (hclaim : store.claim s = (s', .ok (some job))) :
    store.Settles handler compensation retryDelay s job ↔
      store.Handled handler compensation retryDelay s' job := by
  rw [Handled]
  cases hhandler : handler job.payload with
  | ok u => exact settles_returned_iff hclaim hhandler
  | error e =>
      dsimp only
      cases hcaught : e.caught with
      | false =>
          refine iff_of_false (not_settles_escaped hclaim hhandler hcaught) ?_
          rintro ⟨⟨⟩, -⟩
      | true =>
          rw [settles_caught_iff hclaim hhandler hcaught]
          simp only [true_and]

end Settling

end JobStore

def raisedAs {α : Type} (result : Result α) : Except Raised α := result.mapError Raised.ofExc

theorem raisedAs_eq_ok {α : Type} {result : Result α} {a : α} :
    raisedAs result = .ok a ↔ result = .ok a := by
  cases result with
  | error e => simp [raisedAs, Except.mapError]
  | ok b => simp [raisedAs, Except.mapError]

section Tables

variable (P : Primitives)

def JobTable.stored (t : JobTable) (jobId : Str) : Option Job :=
  (SQLiteJobStore.get P t jobId).toOption

def JobTable.read (t : JobTable) (jobId : Str) : JobTable × Except Raised Job :=
  (t, raisedAs (SQLiteJobStore.get P t jobId))

namespace SQLiteJobStore

-- the three statements of claim, with nobody else at the table
def claimOnce (now : ℚ) (t : JobTable) : JobTable × Except Raised (Option Job) :=
  match t.next (available now) with
  | none => (t, .ok none)
  | some row =>
      let taken := (claimUpdate t row.jobId).table
      (taken, (raisedAs (get P taken row.jobId)).map some)

def completeOnce (t : JobTable) (jobId : Str) : JobTable × Except Raised Unit :=
  ((complete t jobId).table, .ok ())

def failOnce (now : ℚ) (t : JobTable) (jobId error : Str) (retryDelay : ℚ) :
    JobTable × Except Raised Unit :=
  match get P t jobId with
  | .error e => (t, .error (.ofExc e))
  | .ok job =>
      if (encode (shortError error)).isNone then (t, .error (.ofExc (.builtin .unicodeEncodeError)))
      else
        ((failUpdate t jobId (retryStatus job.attempts job.maxAttempts) error
          (now + retryDelay)).table, .ok ())

end SQLiteJobStore

namespace PostgresJobStore

variable (leaseSeconds : ℚ)

def claimOnce (now : ℚ) (skipped : List Str) (t : JobTable) :
    JobTable × Except Raised (Option Job) :=
  match t.next (claimable now skipped) with
  | none => (t, .ok none)
  | some row =>
      let update := markRunning (now + leaseSeconds)
      (t.update row.jobId (fun _ => true) update, (raisedAs ((update.set row).job P)).map some)

def completeOnce (t : JobTable) (jobId : Str) : JobTable × Except Raised Unit :=
  ((complete t jobId).table, .ok ())

def failOnce (now : ℚ) (t : JobTable) (jobId error : Str) (retryDelay : ℚ) :
    JobTable × Except Raised Unit :=
  if isText (shortError error) = false then (t, .error (.ofExc jobStoreError))
  else ((fail t jobId error (now + retryDelay)).table, .ok ())

end PostgresJobStore

end Tables

section Stores

variable {P : Primitives} {t t' : JobTable} {job : Job} {jobId : Str} {row : JobRow}

theorem JobTable.stored_eq_some :
    t.stored P jobId = some job ↔ ∃ row, t.find jobId = some row ∧ row.job P = .ok job := by
  constructor
  · intro h
    exact SQLiteJobStore.find_of_get (eq_ok_of_toOption h)
  · rintro ⟨row, hfind, hjob⟩
    rw [stored, SQLiteJobStore.get, hfind]
    dsimp only
    rw [hjob]
    rfl

theorem JobTable.stored_update {guard : JobRow → Bool} {update : RowUpdate}
    (hfind : t.find jobId = some row) (hguard : guard row = true)
    (hjob : (update.set row).job P = .ok job) :
    (t.update jobId guard update).stored P jobId = some job := by
  rw [stored_eq_some]
  refine ⟨update.set row, ?_, hjob⟩
  rw [find_update, hfind, Option.map_some, setWhere, if_pos ⟨jobId_of_find hfind, hguard⟩]

-- what an UPDATE of a status, an error and a time leaves of the job of a row
theorem JobRow.job_restated {row' : JobRow} (hjob : row.job P = .ok job)
    (hkept : row'.jobId = row.jobId ∧ row'.idempotencyKey = row.idempotencyKey ∧
      row'.payload = row.payload ∧ row'.attempts = row.attempts ∧
        row'.maxAttempts = row.maxAttempts) :
    row'.job P = .ok { job with
      status := row'.status
      lastError := row'.lastError
      availableAt := row'.availableAt } := by
  obtain ⟨hid, hkey, hpayload, hattempts, hmax⟩ := hkept
  simp only [JobRow.job, bind_eq_ok] at hjob ⊢
  obtain ⟨payload, hloads, hjob⟩ := hjob
  cases hjob
  exact ⟨payload, hpayload ▸ hloads, by rw [hid, hkey, hattempts, hmax]⟩

theorem JobRow.status_of_job (hjob : row.job P = .ok job) : job.status = row.status := by
  simp only [JobRow.job, bind_eq_ok] at hjob
  obtain ⟨payload, -, hjob⟩ := hjob
  cases hjob
  rfl

theorem JobRow.kept_of_job (hjob : row.job P = .ok job) :
    job.lastError = row.lastError ∧ job.availableAt = row.availableAt := by
  simp only [JobRow.job, bind_eq_ok] at hjob
  obtain ⟨payload, -, hjob⟩ := hjob
  cases hjob
  exact ⟨rfl, rfl⟩

theorem stored_read : (t.read P jobId).1.stored P = t.stored P := rfl

theorem got_read {s' : JobTable} (h : t.read P jobId = (s', .ok job)) :
    t.stored P jobId = some job := by
  have hget := raisedAs_eq_ok.mp (congrArg Prod.snd h)
  rw [JobTable.stored, hget]
  rfl

-- the job of a row that has been marked as a success
theorem stored_succeeded {update : RowUpdate} (hstored : t.stored P jobId = some job)
    (hrunning : job.status = .running)
    (hkept : ∀ row, (update.set row).attempts = row.attempts ∧
      (update.set row).lastError = row.lastError ∧
      (update.set row).availableAt = row.availableAt ∧ (update.set row).status = .succeeded) :
    (t.update jobId (isStatus .running) update).stored P jobId =
      some { job with status := .succeeded } := by
  obtain ⟨row, hfind, hjob⟩ := JobTable.stored_eq_some.mp hstored
  obtain ⟨hattempts, herror, htime, hstatus⟩ := hkept row
  have hguard : isStatus .running row = true :=
    decide_eq_true ((JobRow.status_of_job hjob).symm.trans hrunning)
  refine JobTable.stored_update hfind hguard ?_
  rw [JobRow.job_restated hjob ⟨update.jobId row, update.idempotencyKey row, update.payload row,
    hattempts, update.maxAttempts row⟩, hstatus, herror, htime, ← (JobRow.kept_of_job hjob).1,
    ← (JobRow.kept_of_job hjob).2]

theorem stored_failed {update : RowUpdate} {status : JobStatus} {error : Str} {availableAt : ℚ}
    (hstored : t.stored P jobId = some job)
    (hset : ∀ row, row.job P = .ok job → (update.set row).attempts = row.attempts ∧
      (update.set row).lastError = some error ∧ (update.set row).availableAt = availableAt ∧
      (update.set row).status = status) :
    (t.update jobId (fun _ => true) update).stored P jobId = some { job with
      status := status
      lastError := some error
      availableAt := availableAt } := by
  obtain ⟨row, hfind, hjob⟩ := JobTable.stored_eq_some.mp hstored
  obtain ⟨hattempts, herror, htime, hstatus⟩ := hset row hjob
  refine JobTable.stored_update hfind rfl ?_
  rw [JobRow.job_restated hjob ⟨update.jobId row, update.idempotencyKey row, update.payload row,
    hattempts, update.maxAttempts row⟩, hstatus, herror, htime]

end Stores

section Instances

variable {P : Primitives}

namespace SQLiteJobStore

theorem claimed_claimOnce {now : ℚ} {t t' : JobTable} {job : Job}
    (h : claimOnce P now t = (t', .ok (some job))) :
    t'.stored P job.jobId = some job ∧ job.status = .running := by
  rw [claimOnce] at h
  split at h
  · cases h
  · rename_i row hnext
    obtain ⟨rfl, hresult⟩ := Prod.mk.inj h
    obtain ⟨job', hget, hsame⟩ := map_eq_ok.mp hresult
    obtain rfl := Option.some.inj hsame
    have hget' := raisedAs_eq_ok.mp hget
    obtain ⟨hmem, heligible⟩ := JobTable.mem_of_next hnext
    have hqueued : isStatus .queued row = true := (Bool.and_eq_true_iff.mp heligible).1
    obtain ⟨row', hfind', hjob⟩ := find_of_get hget'
    have hrow' : row' = markRunning.set row := by
      rw [claimUpdate, JobTable.find_update, JobTable.find_of_mem hmem, Option.map_some,
        JobTable.setWhere, if_pos ⟨rfl, hqueued⟩] at hfind'
      exact (Option.some.inj hfind').symm
    have hid : job'.jobId = row.jobId := by
      rw [(JobRow.job_eq_ok hjob).1, hrow']
      rfl
    constructor
    · rw [hid, JobTable.stored, hget']
      rfl
    · rw [JobRow.status_of_job hjob, hrow']
      rfl

theorem completed_completeOnce {t t' : JobTable} {job : Job}
    (h : completeOnce t job.jobId = (t', .ok ())) (hstored : t.stored P job.jobId = some job)
    (hrunning : job.status = .running) :
    t'.stored P job.jobId = some { job with status := .succeeded } := by
  obtain rfl := congrArg Prod.fst h
  exact stored_succeeded hstored hrunning fun row => ⟨rfl, rfl, rfl, rfl⟩

theorem not_completed_completeOnce {t t' : JobTable} {jobId : Str} {e : Raised}
    (h : completeOnce t jobId = (t', .error e)) : t'.stored P jobId = t.stored P jobId := by
  cases congrArg Prod.snd h

theorem failed_failOnce {now : ℚ} {t t' : JobTable} {job : Job} {error : Str} {retryDelay : ℚ}
    (h : failOnce P now t job.jobId error retryDelay = (t', .ok ()))
    (hstored : t.stored P job.jobId = some job) :
    ∃ availableAt, t'.stored P job.jobId = some { job with
      status := retryStatus job.attempts job.maxAttempts
      lastError := some (shortError error)
      availableAt := availableAt } := by
  have hget : get P t job.jobId = .ok job := eq_ok_of_toOption hstored
  rw [failOnce, hget] at h
  dsimp only at h
  split_ifs at h with hclean
  · cases congrArg Prod.snd h
  · obtain rfl := congrArg Prod.fst h
    refine ⟨now + retryDelay, ?_⟩
    rw [failUpdate, if_neg hclean]
    exact stored_failed hstored fun row _ => ⟨rfl, rfl, rfl, rfl⟩

theorem not_failed_failOnce {now : ℚ} {t t' : JobTable} {jobId error : Str} {retryDelay : ℚ}
    {e : Raised} (h : failOnce P now t jobId error retryDelay = (t', .error e)) :
    t'.stored P jobId = t.stored P jobId := by
  rw [failOnce] at h
  split at h
  · obtain rfl := congrArg Prod.fst h
    rfl
  · split_ifs at h
    · obtain rfl := congrArg Prod.fst h
      rfl
    · cases congrArg Prod.snd h

-- claim reads the clock, and so does fail
def store (P : Primitives) (claimedAt failedAt : ℚ) : JobStore JobTable where
  stored t jobId := t.stored P jobId
  claim := claimOnce P claimedAt
  complete := completeOnce
  fail := failOnce P failedAt
  get t jobId := t.read P jobId
  claimed := claimed_claimOnce
  completed := completed_completeOnce
  not_completed := not_completed_completeOnce
  failed := failed_failOnce
  not_failed := not_failed_failOnce
  got := got_read
  get_stored _ _ := stored_read

end SQLiteJobStore

namespace PostgresJobStore

theorem claimed_claimOnce {leaseSeconds now : ℚ} {skipped : List Str} {t t' : JobTable} {job : Job}
    (h : claimOnce P leaseSeconds now skipped t = (t', .ok (some job))) :
    t'.stored P job.jobId = some job ∧ job.status = .running := by
  rw [claimOnce] at h
  split at h
  · cases h
  · rename_i row hnext
    obtain ⟨rfl, hresult⟩ := Prod.mk.inj h
    obtain ⟨job', hjob, hsame⟩ := map_eq_ok.mp hresult
    obtain rfl := Option.some.inj hsame
    have hjob' := raisedAs_eq_ok.mp hjob
    have hid : job'.jobId = row.jobId := (JobRow.job_eq_ok hjob').1
    constructor
    · rw [hid]
      exact JobTable.stored_update (JobTable.find_of_mem (JobTable.mem_of_next hnext).1) rfl hjob'
    · exact JobRow.status_of_job hjob'

theorem completed_completeOnce {t t' : JobTable} {job : Job}
    (h : completeOnce t job.jobId = (t', .ok ())) (hstored : t.stored P job.jobId = some job)
    (hrunning : job.status = .running) :
    t'.stored P job.jobId = some { job with status := .succeeded } := by
  obtain rfl := congrArg Prod.fst h
  exact stored_succeeded hstored hrunning fun row => ⟨rfl, rfl, rfl, rfl⟩

theorem not_completed_completeOnce {t t' : JobTable} {jobId : Str} {e : Raised}
    (h : completeOnce t jobId = (t', .error e)) : t'.stored P jobId = t.stored P jobId := by
  cases congrArg Prod.snd h

theorem failed_failOnce {now : ℚ} {t t' : JobTable} {job : Job} {error : Str} {retryDelay : ℚ}
    (h : failOnce now t job.jobId error retryDelay = (t', .ok ()))
    (hstored : t.stored P job.jobId = some job) :
    ∃ availableAt, t'.stored P job.jobId = some { job with
      status := retryStatus job.attempts job.maxAttempts
      lastError := some (shortError error)
      availableAt := availableAt } := by
  rw [failOnce] at h
  split_ifs at h with htext
  · cases congrArg Prod.snd h
  · obtain rfl := congrArg Prod.fst h
    refine ⟨now + retryDelay, ?_⟩
    rw [fail, if_neg htext]
    refine stored_failed hstored fun row hjob => ⟨rfl, rfl, rfl, ?_⟩
    obtain ⟨-, hattempts, hmax⟩ := JobRow.job_eq_ok hjob
    rw [hattempts, hmax]
    rfl

theorem not_failed_failOnce {now : ℚ} {t t' : JobTable} {jobId error : Str} {retryDelay : ℚ}
    {e : Raised} (h : failOnce now t jobId error retryDelay = (t', .error e)) :
    t'.stored P jobId = t.stored P jobId := by
  rw [failOnce] at h
  split_ifs at h
  · obtain rfl := congrArg Prod.fst h
    rfl
  · cases congrArg Prod.snd h

def store (P : Primitives) (leaseSeconds claimedAt failedAt : ℚ) (skipped : List Str) :
    JobStore JobTable where
  stored t jobId := t.stored P jobId
  claim := claimOnce P leaseSeconds claimedAt skipped
  complete := completeOnce
  fail := failOnce failedAt
  get t jobId := t.read P jobId
  claimed := claimed_claimOnce
  completed := completed_completeOnce
  not_completed := not_completed_completeOnce
  failed := failed_failOnce
  not_failed := not_failed_failOnce
  got := got_read
  get_stored _ _ := stored_read

end PostgresJobStore

end Instances

-- a store whose statements raise only for texts that it cannot keep
structure JobStore.Dependable {σ : Type} (store : JobStore σ) (writable : Str → Prop) : Prop where
  completes : ∀ s jobId, (store.complete s jobId).2 = .ok ()
  fails : ∀ s job error retryDelay, store.stored s job.jobId = some job → writable error →
    (store.fail s job.jobId error retryDelay).2 = .ok ()
  gets : ∀ s jobId job, store.stored s jobId = some job → (store.get s jobId).2 = .ok job

section Dependable

variable {P : Primitives}

theorem JobStore.Dependable.handled_iff {σ : Type} {store : JobStore σ} {writable : Str → Prop}
    (h : store.Dependable writable) {handler : Handler} {compensation : Option Compensation}
    {retryDelay : ℚ} {s s' : σ} {job : Job} (hclaim : store.claim s = (s', .ok (some job)))
    (hnames : ∀ e, handler job.payload = .error e → writable e.name) :
    store.Handled handler compensation retryDelay s' job ↔
      ∀ e, handler job.payload = .error e → e.caught = true := by
  have hstored := (store.claimed hclaim).1
  rw [Handled]
  cases hhandler : handler job.payload with
  | ok u => simp [h.completes s' job.jobId]
  | error e =>
      have hfails := h.fails s' job e.name retryDelay hstored (hnames e hhandler)
      obtain ⟨availableAt, hfinal⟩ := store.failed (Prod.ext rfl hfails) hstored
      have hgets := h.gets _ _ _ hfinal
      dsimp only at hgets ⊢
      simp only [hfails, hgets, Except.error.injEq, forall_eq', Except.ok.injEq,
        exists_eq', implies_true, and_true]

theorem gets_read {t : JobTable} {jobId : Str} {job : Job} (h : t.stored P jobId = some job) :
    (t.read P jobId).2 = .ok job := raisedAs_eq_ok.mpr (eq_ok_of_toOption h)

theorem SQLiteJobStore.store_dependable (claimedAt failedAt : ℚ) :
    (store P claimedAt failedAt).Dependable (fun s => (encode (shortError s)).isSome = true) where
  completes _ _ := rfl
  fails t job error retryDelay hstored hwritable := by
    have hget : get P t job.jobId = .ok job := eq_ok_of_toOption hstored
    have hclean : ¬ (encode (shortError error)).isNone = true := by
      rw [Option.isNone_iff_eq_none, ← Option.not_isSome_iff_eq_none, not_not]
      exact hwritable
    show (failOnce P failedAt t job.jobId error retryDelay).2 = .ok ()
    rw [failOnce, hget]
    dsimp only
    rw [if_neg hclean]
  gets _ _ _ := gets_read

theorem PostgresJobStore.store_dependable (leaseSeconds claimedAt failedAt : ℚ)
    (skipped : List Str) : (store P leaseSeconds claimedAt failedAt skipped).Dependable
      (fun s => isText (shortError s) = true) where
  completes _ _ := rfl
  fails t job error retryDelay _ hwritable := by
    show (failOnce failedAt t job.jobId error retryDelay).2 = .ok ()
    rw [failOnce, if_neg (by rw [hwritable]; rintro ⟨⟩)]
  gets _ _ _ := gets_read

end Dependable

namespace WorkerRuntime

variable (P : Primitives) (worker : WorkerRuntime) (log : ReplayLog) (now : ℤ)
  (runner : RunnerCall → RunnerOutcome)

def handler : Handler := fun payload => raisedAs (worker.handle P log now runner payload).result

-- the worker has no compensation
def processOnce {σ : Type} (store : JobStore σ) (retryDelay : ℚ) (s : σ) : Ran σ :=
  store.runOnce (worker.handler P log now runner) none retryDelay s

variable {P worker log now runner} {payload : PyVal} {e : Raised}

-- whatever the authorizer raises, run_once catches
theorem refused_caught {refusal : Exc}
    (hrefused : (WorkerMain.authorize P worker.service log now payload).spec = .error refusal) :
    ∃ e, worker.handler P log now runner payload = .error e ∧ e.caught = true := by
  refine ⟨.ofExc (runtimeError "job not authorized"), ?_, by decide⟩
  rw [handler, handle, hrefused]
  rfl

end WorkerRuntime

section LeftRunning

def queuedRow : JobRow where
  jobId := "j"
  idempotencyKey := "k"
  payload := lit "\x7b\x7d"
  status := .queued
  attempts := 0
  maxAttempts := 3
  availableAt := 0

theorem queuedRow_fresh : JobTable.empty.Fresh queuedRow := by decide

def oneJob : JobTable := JobTable.empty.insert queuedRow queuedRow_fresh

def claimedJob : Job where
  jobId := "j"
  idempotencyKey := "k"
  payload := .dict []
  status := .running
  attempts := 1
  maxAttempts := 3
  availableAt := 0
  lastError := none

abbrev localStore : JobStore JobTable := SQLiteJobStore.store sizePrimitives 1 1

theorem oneJob_claimed : localStore.claim oneJob =
    ((SQLiteJobStore.claimUpdate oneJob "j").table, .ok (some claimedJob)) := by
  rfl

theorem run_once_settles_returned :
    localStore.Settles (fun _ => .ok ()) none 1 oneJob claimedJob ↔
      localStore.Handled (fun _ => .ok ()) none 1 (SQLiteJobStore.claimUpdate oneJob "j").table
        claimedJob :=
  JobStore.run_once_settles_iff oneJob_claimed

-- a handler that looks up a field the payload has not got
def missingField : Handler := fun _ => .error (.ofExc (.builtin .keyError))

theorem key_error_left_running : ∃ t job, localStore.claim oneJob = (t, .ok (some job)) ∧
    ¬ localStore.Settles missingField none 1 oneJob job :=
  ⟨_, _, oneJob_claimed, JobStore.not_settles_escaped oneJob_claimed rfl (by decide)⟩

end LeftRunning

end GovernedAutonomy
