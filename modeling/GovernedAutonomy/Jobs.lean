import GovernedAutonomy.Canonical
import GovernedAutonomy.Protocol.WorkQueue
import Mathlib.Data.List.Sort
import Mathlib.Data.Rat.Defs

namespace GovernedAutonomy

open Python Protocol

inductive JobStatus
  | queued
  | running
  | succeeded
  | deadLetter
  deriving DecidableEq, Repr

-- a row of the table jobs; only PostgreSQL has the column lease_expires_at
structure JobRow where
  jobId : Str
  idempotencyKey : Str
  payload : Str
  status : JobStatus
  attempts : ℤ
  maxAttempts : ℤ
  availableAt : ℚ
  lastError : Option Str := none
  leaseExpiresAt : Option ℚ := none

structure Job where
  jobId : Str
  idempotencyKey : Str
  payload : PyVal
  status : JobStatus
  attempts : ℤ
  maxAttempts : ℤ
  availableAt : ℚ
  lastError : Option Str

def JobRow.job (P : Primitives) (row : JobRow) : Result Job := do
  let payload ← P.loads row.payload
  .ok ⟨row.jobId, row.idempotencyKey, payload, row.status, row.attempts, row.maxAttempts,
    row.availableAt, row.lastError⟩

-- the SET clause of an UPDATE, which leaves alone what enqueue has written
structure RowUpdate where
  set : JobRow → JobRow
  jobId : ∀ row, (set row).jobId = row.jobId
  idempotencyKey : ∀ row, (set row).idempotencyKey = row.idempotencyKey
  payload : ∀ row, (set row).payload = row.payload
  maxAttempts : ∀ row, (set row).maxAttempts = row.maxAttempts

structure JobTable where
  rows : List JobRow
  primaryKey : (rows.map JobRow.jobId).Nodup
  uniqueKey : (rows.map JobRow.idempotencyKey).Nodup

namespace JobTable

def empty : JobTable := ⟨[], List.nodup_nil, List.nodup_nil⟩

variable (t : JobTable)

def find (jobId : Str) : Option JobRow := t.rows.find? (fun row => decide (row.jobId = jobId))

def findKey (idempotencyKey : Str) : Option JobRow :=
  t.rows.find? (fun row => decide (row.idempotencyKey = idempotencyKey))

def setWhere (jobId : Str) (guard : JobRow → Bool) (update : RowUpdate) (row : JobRow) : JobRow :=
  if row.jobId = jobId ∧ guard row = true then update.set row else row

theorem map_setWhere {B : Type} (f : JobRow → B) (jobId : Str) (guard : JobRow → Bool)
    (update : RowUpdate) (rows : List JobRow) (h : ∀ row, f (update.set row) = f row) :
    (rows.map (setWhere jobId guard update)).map f = rows.map f := by
  rw [List.map_map]
  refine List.map_congr_left fun row _ => ?_
  simp only [Function.comp_apply, setWhere]
  split
  · exact h row
  · rfl

-- UPDATE jobs SET .. WHERE job_id = .. AND ..
def update (jobId : Str) (guard : JobRow → Bool) (update : RowUpdate) : JobTable where
  rows := t.rows.map (setWhere jobId guard update)
  primaryKey := (map_setWhere _ jobId guard update t.rows update.jobId).symm ▸ t.primaryKey
  uniqueKey := (map_setWhere _ jobId guard update t.rows update.idempotencyKey).symm ▸ t.uniqueKey

theorem nodup_map_concat {B : Type} {f : JobRow → B} {rows : List JobRow} {row : JobRow}
    (h : (rows.map f).Nodup) (hfresh : f row ∉ rows.map f) : ((rows ++ [row]).map f).Nodup := by
  rw [List.map_append, List.map_singleton]
  exact h.append (List.nodup_singleton _) (List.disjoint_singleton.mpr hfresh)

def Fresh (row : JobRow) : Prop :=
  row.jobId ∉ t.rows.map JobRow.jobId ∧ row.idempotencyKey ∉ t.rows.map JobRow.idempotencyKey

instance (row : JobRow) : Decidable (t.Fresh row) := inferInstanceAs (Decidable (_ ∧ _))

def insert (row : JobRow) (h : t.Fresh row) : JobTable where
  rows := t.rows ++ [row]
  primaryKey := nodup_map_concat t.primaryKey h.1
  uniqueKey := nodup_map_concat t.uniqueKey h.2

def earlier (a b : JobRow) : Prop :=
  a.availableAt < b.availableAt ∨ (a.availableAt = b.availableAt ∧ a.jobId ≤ b.jobId)

instance (a b : JobRow) : Decidable (earlier a b) := inferInstanceAs (Decidable (_ ∨ _))

-- ORDER BY available_at, job_id LIMIT 1
def next (eligible : JobRow → Bool) : Option JobRow :=
  ((t.rows.filter eligible).insertionSort earlier).head?

end JobTable

structure EnqueueCall where
  payload : PyDict
  idempotencyKey : Str
  maxAttempts : ℤ := 3
  delaySeconds : ℚ := 0

-- where a thread is in claim, run_once or enqueue; an attempt is the number of its own claim
inductive JobPhase
  | idle
  | selected (jobId : Str)
  | marked (jobId : Str) (attempt : Option ℤ)
  | holding (jobId : Str) (attempt : Option ℤ)
  | failing (jobId : Str) (attempt : Option ℤ) (status : JobStatus)
  | reporting (jobId : Str)
  | missing (call : EnqueueCall)
  | inserted (call : EnqueueCall) (jobId : Str)

inductive JobEvent
  -- a claim returned the job, fail put it back, a claim found its lease expired
  | returned (jobId : Str)
  | released (jobId : Str)
  | expired (jobId : Str)
  | enqueued (call : EnqueueCall) (job : Job)
  | raised (call : EnqueueCall) (e : Exc)

structure JobOutcome where
  table : JobTable
  phase : JobPhase
  events : List JobEvent := []

-- threads over one database; a write and its commit are one step, as nobody sees or
-- writes the rows in between
structure JobWorld (ω : Type) where
  table : JobTable := .empty
  phase : ω → JobPhase := fun _ => .idle
  log : List JobEvent := []

def JobWorld.step {ω M : Type} [DecidableEq ω] (act : JobTable → JobPhase → M → JobOutcome)
    (w : JobWorld ω) (call : ω × M) : JobWorld ω :=
  let outcome := act w.table (w.phase call.1) call.2
  ⟨outcome.table, Function.update w.phase call.1 outcome.phase, outcome.events ++ w.log⟩

def EnqueueCall.check (call : EnqueueCall) : Result Unit :=
  raiseIf (call.idempotencyKey = [] ∨ call.maxAttempts ≤ 0)
    (.valueError (lit "idempotency_key and positive max_attempts are required"))

def jobStyle : Style := ⟨true, true⟩

def EnqueueCall.row (call : EnqueueCall) (jobId payload : Str) (now : ℚ) : JobRow where
  jobId := jobId
  idempotencyKey := call.idempotencyKey
  payload := payload
  status := .queued
  attempts := 0
  maxAttempts := call.maxAttempts
  availableAt := now + call.delaySeconds

def isStatus (status : JobStatus) (row : JobRow) : Bool := decide (row.status = status)

-- error[:512]
def shortError (error : Str) : Str := error.take 512

def retryStatus (attempts maxAttempts : ℤ) : JobStatus :=
  if attempts < maxAttempts then .queued else .deadLetter

namespace SQLiteJobStore

inductive Move
  | claimSelect (now : ℚ)
  | claimUpdate
  | claimGet
  | complete
  | failGet
  | failUpdate (error : Str) (now retryDelay : ℚ)
  | report
  | enqueueSelect (call : EnqueueCall)
  | enqueueInsert (jobId : Str) (now : ℚ)
  | enqueueGet
  -- the thread dies, or a statement raises without effect
  | crash

def available (now : ℚ) (row : JobRow) : Bool :=
  isStatus .queued row && decide (row.availableAt ≤ now)

def markRunning : RowUpdate where
  set row := { row with status := .running, attempts := row.attempts + 1 }
  jobId _ := rfl
  idempotencyKey _ := rfl
  payload _ := rfl
  maxAttempts _ := rfl

def markSucceeded : RowUpdate where
  set row := { row with status := .succeeded }
  jobId _ := rfl
  idempotencyKey _ := rfl
  payload _ := rfl
  maxAttempts _ := rfl

def markFailed (status : JobStatus) (error : Str) (availableAt : ℚ) : RowUpdate where
  set row := { row with status := status, lastError := some error, availableAt := availableAt }
  jobId _ := rfl
  idempotencyKey _ := rfl
  payload _ := rfl
  maxAttempts _ := rfl

variable (P : Primitives)

def claimSelect (t : JobTable) (now : ℚ) : JobOutcome :=
  match t.next (available now) with
  | none => ⟨t, .idle, []⟩
  | some row => ⟨t, .selected row.jobId, []⟩

-- the number of rows that the UPDATE has changed is not looked at
def claimUpdate (t : JobTable) (jobId : Str) : JobOutcome where
  table := t.update jobId (isStatus .queued) markRunning
  phase := .marked jobId (((t.find jobId).filter (isStatus .queued)).map (fun row => row.attempts + 1))

def get (t : JobTable) (jobId : Str) : Result Job :=
  match t.find jobId with
  | none => .error (.builtin .keyError)
  | some row => row.job P

def claimGet (t : JobTable) (jobId : Str) (attempt : Option ℤ) : JobOutcome :=
  match get P t jobId with
  | .error _ => ⟨t, .idle, []⟩
  | .ok job => ⟨t, .holding job.jobId attempt, [.returned job.jobId]⟩

def complete (t : JobTable) (jobId : Str) : JobOutcome where
  table := t.update jobId (isStatus .running) markSucceeded
  phase := .reporting jobId

def failGet (t : JobTable) (jobId : Str) (attempt : Option ℤ) : JobOutcome :=
  match get P t jobId with
  | .error _ => ⟨t, .idle, []⟩
  | .ok job => ⟨t, .failing jobId attempt (retryStatus job.attempts job.maxAttempts), []⟩

def failUpdate (t : JobTable) (jobId : Str) (status : JobStatus) (error : Str) (availableAt : ℚ) :
    JobOutcome :=
  if (encode (shortError error)).isNone then ⟨t, .idle, []⟩
  else
    ⟨t.update jobId (fun _ => true) (markFailed status (shortError error) availableAt),
      .reporting jobId, if status = .queued then [.released jobId] else []⟩

def enqueueSelect (t : JobTable) (call : EnqueueCall) : JobOutcome :=
  match call.check with
  | .error e => ⟨t, .idle, [.raised call e]⟩
  | .ok _ =>
      if (encode call.idempotencyKey).isNone then
        ⟨t, .idle, [.raised call (.builtin .unicodeEncodeError)]⟩
      else
        match t.findKey call.idempotencyKey with
        | none => ⟨t, .missing call, []⟩
        | some row =>
            match row.job P with
            | .error e => ⟨t, .idle, [.raised call e]⟩
            | .ok job => ⟨t, .idle, [.enqueued call job]⟩

-- an INTEGER of SQLite has 64 bits
def insertedRow (call : EnqueueCall) (jobId : Str) (now : ℚ) : Result JobRow := do
  let payload ← P.dumps jobStyle (.dict call.payload)
  raiseIf (2 ^ 63 ≤ call.maxAttempts) (.builtin .overflowError)
  .ok (call.row jobId payload now)

def enqueueInsert (t : JobTable) (call : EnqueueCall) (jobId : Str) (now : ℚ) : JobOutcome :=
  match insertedRow P call jobId now with
  | .error e => ⟨t, .idle, [.raised call e]⟩
  | .ok row =>
      if h : t.Fresh row then ⟨t.insert row h, .inserted call jobId, []⟩
      else ⟨t, .idle, [.raised call (.builtin .integrityError)]⟩

def enqueueGet (t : JobTable) (call : EnqueueCall) (jobId : Str) : JobOutcome :=
  match get P t jobId with
  | .error e => ⟨t, .idle, [.raised call e]⟩
  | .ok job => ⟨t, .idle, [.enqueued call job]⟩

def act (t : JobTable) : JobPhase → Move → JobOutcome
  | .idle, .claimSelect now => claimSelect t now
  | .selected jobId, .claimUpdate => claimUpdate t jobId
  | .marked jobId attempt, .claimGet => claimGet P t jobId attempt
  | .holding jobId _, .complete => complete t jobId
  | .holding jobId attempt, .failGet => failGet P t jobId attempt
  | .failing jobId _ status, .failUpdate error now retryDelay =>
      failUpdate t jobId status error (now + retryDelay)
  | .reporting _, .report => ⟨t, .idle, []⟩
  | .idle, .enqueueSelect call => enqueueSelect P t call
  | .missing call, .enqueueInsert jobId now => enqueueInsert P t call jobId now
  | .inserted call jobId, .enqueueGet => enqueueGet P t call jobId
  | _, .crash => ⟨t, .idle, []⟩
  | phase, _ => ⟨t, phase, []⟩

end SQLiteJobStore

end GovernedAutonomy
