import GovernedAutonomy.Faults
import GovernedAutonomy.Jobs

namespace GovernedAutonomy

open Python Protocol

namespace PostgresJobStore

inductive Move
  -- the rows that other claims have locked are skipped
  | claim (now : ℚ) (skipped : List Str)
  | complete
  | fail (error : Str) (now retryDelay : ℚ)
  | report
  | enqueueInsert (call : EnqueueCall) (jobId : Str) (now : ℚ)
  | enqueueSelect
  -- the thread dies, or a statement is rolled back
  | crash

def jobStoreError : Exc :=
  .custom "JobStoreError" false (lit "PostgreSQL job store operation failed") .none

def leaseOver (now : ℚ) (row : JobRow) : Bool :=
  isStatus .running row && row.leaseExpiresAt.any (fun lease => decide (lease ≤ now))

def claimable (now : ℚ) (skipped : List Str) (row : JobRow) : Bool :=
  (SQLiteJobStore.available now row || leaseOver now row) && !skipped.contains row.jobId

def markRunning (lease : ℚ) : RowUpdate where
  set row := { row with
    status := .running, attempts := row.attempts + 1, leaseExpiresAt := some lease }
  jobId _ := rfl
  idempotencyKey _ := rfl
  payload _ := rfl
  maxAttempts _ := rfl

def markSucceeded : RowUpdate where
  set row := { row with status := .succeeded, leaseExpiresAt := none }
  jobId _ := rfl
  idempotencyKey _ := rfl
  payload _ := rfl
  maxAttempts _ := rfl

def markFailed (error : Str) (availableAt : ℚ) : RowUpdate where
  set row := { row with
    status := retryStatus row.attempts row.maxAttempts, lastError := some error,
    availableAt := availableAt, leaseExpiresAt := none }
  jobId _ := rfl
  idempotencyKey _ := rfl
  payload _ := rfl
  maxAttempts _ := rfl

-- a text column takes no lone surrogate and no NUL
def isText (s : Str) : Bool := (encode s).isSome && !s.contains 0

variable (P : Primitives) (server : PostgresServer) (leaseSeconds : ℚ)

-- one statement selects, locks and updates the row, and returns what it has written
def claim (t : JobTable) (now : ℚ) (skipped : List Str) : JobOutcome :=
  match t.next (claimable now skipped) with
  | none => ⟨t, .idle, []⟩
  | some row =>
      let update := markRunning (now + leaseSeconds)
      let taken := t.update row.jobId (fun _ => true) update
      let expired := if row.status = .running then [.expired row.jobId] else []
      match (update.set row).job P with
      | .error _ => ⟨taken, .idle, expired⟩
      | .ok job =>
          ⟨taken, .holding row.jobId (some job.attempts), .returned row.jobId :: expired⟩

def complete (t : JobTable) (jobId : Str) : JobOutcome where
  table := t.update jobId (isStatus .running) markSucceeded
  phase := .reporting jobId

def fail (t : JobTable) (jobId : Str) (error : Str) (availableAt : ℚ) : JobOutcome :=
  if isText (shortError error) = false then ⟨t, .idle, []⟩
  else
    let failed := t.update jobId (fun _ => true) (markFailed (shortError error) availableAt)
    ⟨failed, .reporting jobId,
      if (failed.find jobId).any (isStatus .queued) then [.released jobId] else []⟩

-- an INTEGER of PostgreSQL has 32 bits
def insertedRow (call : EnqueueCall) (jobId : Str) (now : ℚ) : Result JobRow := do
  let payload ← P.dumps jobStyle (.dict call.payload)
  match server.jsonbText payload with
  | none => .error jobStoreError
  | some stored =>
      raiseIf (isText call.idempotencyKey = false ∨ 2 ^ 31 ≤ call.maxAttempts) jobStoreError
      .ok (call.row jobId stored now)

-- the INSERT does nothing where the key is taken
def enqueueInsert (t : JobTable) (call : EnqueueCall) (jobId : Str) (now : ℚ) : JobOutcome :=
  match call.check with
  | .error e => ⟨t, .idle, [.raised call e]⟩
  | .ok _ =>
      match insertedRow P server call jobId now with
      | .error e => ⟨t, .idle, [.raised call e]⟩
      | .ok row =>
          if row.idempotencyKey ∈ t.rows.map JobRow.idempotencyKey then
            ⟨t, .inserted call jobId, []⟩
          else if h : t.Fresh row then ⟨t.insert row h, .inserted call jobId, []⟩
          else ⟨t, .idle, [.raised call jobStoreError]⟩

def readJob : Option JobRow → Result Job
  | none => .error (.builtin .typeError)
  | some row => row.job P

def enqueueSelect (t : JobTable) (call : EnqueueCall) : JobOutcome :=
  match readJob P (t.findKey call.idempotencyKey) with
  | .error e => ⟨t, .idle, [.raised call e]⟩
  | .ok job => ⟨t, .idle, [.enqueued call job]⟩

def act (t : JobTable) : JobPhase → Move → JobOutcome
  | .idle, .claim now skipped => claim P leaseSeconds t now skipped
  | .holding jobId (some _), .complete => complete t jobId
  | .holding jobId (some _), .fail error now retryDelay => fail t jobId error (now + retryDelay)
  | .reporting _, .report => ⟨t, .idle, []⟩
  | .idle, .enqueueInsert call jobId now => enqueueInsert P server t call jobId now
  | .inserted call _, .enqueueSelect => enqueueSelect P t call
  | _, .crash => ⟨t, .idle, []⟩
  | phase, _ => ⟨t, phase, []⟩

end PostgresJobStore

end GovernedAutonomy
