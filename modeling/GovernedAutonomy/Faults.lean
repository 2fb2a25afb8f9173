import GovernedAutonomy.Storage

namespace GovernedAutonomy

open Python

def osError : Exc := .custom "OSError" false [] .none

def operationalError : Exc := .custom "OperationalError" false [] .none

-- one call of append: its arguments, and the point at which the environment makes it fail
structure AppendCall (Fault : Type) where
  frameId : Str
  event : PyDict
  fault : Option Fault := none

-- what happens to a log over the lifetimes of its processes
inductive LogCall (Fault : Type)
  | append (call : AppendCall Fault)
  | reopen

inductive FileFault
  | makeDirectory
  | openFile
  -- the part of the line that reaches the file before write or close raises
  | writeLine (written : Nat)

namespace FileReplayLog

variable (P : Primitives)

def appendWith (file : FileReplayLog) (call : AppendCall FileFault) :
    FileReplayLog × Result ReplayFrame :=
  match file.log.append P call.frameId call.event with
  | .error e => (file, .error e)
  | .ok (log, frame) =>
      match call.fault with
      | some .makeDirectory => (⟨log, file.text⟩, .error osError)
      | some .openFile => (⟨log, file.text⟩, .error osError)
      | fault =>
          match frameLine P frame with
          | .error e => (⟨log, file.text⟩, .error e)
          | .ok line =>
              match fault with
              | some (.writeLine written) =>
                  (⟨log, file.text ++ line.take written⟩, .error osError)
              | _ => (⟨log, file.text ++ line⟩, .ok frame)

def perform (file : FileReplayLog) : LogCall FileFault → FileReplayLog × Result Unit
  | .append call =>
      let (file', result) := file.appendWith P call
      (file', result.map (fun _ => ()))
  | .reopen =>
      match loadJsonl P file.text with
      | .error e => (file, .error e)
      | .ok file' => (file', .ok ())

end FileReplayLog

-- an error after which SQLite has undone the transaction by itself, or has not
inductive SQLiteFault
  | execute (undone : Bool)
  | commit (undone : Bool)

-- the log, what is committed, and what the connection's open transaction would commit
structure SQLiteConnection where
  db : SQLiteReplayLog := {}
  transaction : Option Tables := none

namespace SQLiteConnection

variable (P : Primitives)

def appendWith (connection : SQLiteConnection) (call : AppendCall SQLiteFault) :
    SQLiteConnection × Result ReplayFrame :=
  match ReplayFrame.create P call.frameId connection.db.log.headHash call.event with
  | .error e => (connection, .error e)
  | .ok frame =>
      match SQLiteReplayLog.frameRow P frame with
      | .error e => (connection, .error e)
      | .ok row =>
          let view := connection.transaction.getD connection.db.tables
          match call.fault with
          | some (.execute undone) =>
              ({ connection with transaction := if undone then none else some view },
                .error operationalError)
          | fault =>
              match SQLiteReplayLog.insertFrame view row with
              -- the only error of the insertion is the IntegrityError that is rolled back
              | .error _ => ({ connection with transaction := none },
                  .error (.valueError (lit "replay frame already exists: " ++ call.frameId)))
              | .ok tables =>
                  match fault with
                  | some (.commit undone) =>
                      ({ connection with transaction := if undone then none else some tables },
                        .error operationalError)
                  | _ =>
                      (⟨⟨{ connection.db.log with
                          frames := connection.db.log.frames ++ [frame] }, tables⟩, none⟩, .ok frame)

-- an open transaction vanishes with the connection that it belongs to
def perform (connection : SQLiteConnection) : LogCall SQLiteFault → SQLiteConnection × Result Unit
  | .append call =>
      let (connection', result) := connection.appendWith P call
      (connection', result.map (fun _ => ()))
  | .reopen =>
      match SQLiteReplayLog.reopen P connection.db.tables with
      | .error e => (connection, .error e)
      | .ok db => (⟨db, none⟩, .ok ())

end SQLiteConnection

-- the text of frame_json::text for a document that the jsonb column is given
structure PostgresServer where
  jsonbText : Str → Option Str

-- an error that costs the connection ends its transaction too
inductive PostgresFault
  | lock (dropped : Bool)
  | frames (dropped : Bool)
  | nonces (dropped : Bool)
  | insert
  | commit

-- in a transaction append holds the advisory lock
inductive Session
  | idle
  | inTransaction
  | aborted
  deriving DecidableEq

structure PostgresReplayLog where
  log : ReplayLog := {}
  tables : Tables := {}
  session : Session := .idle

namespace PostgresReplayLog

variable (P : Primitives) (server : PostgresServer)

def uniqueViolation : Exc := .custom "UniqueViolation" false [] .none

def dataError : Exc := .custom "DataError" false [] .none

def failedSession (dropped : Bool) : Session := if dropped then .idle else .aborted

def insertFrame (tables : Tables) (frame : ReplayFrame) : Result Tables := do
  let frameJson ← P.dumps SQLiteReplayLog.rowStyle (.dict frame.event)
  match server.jsonbText frameJson with
  | none => .error dataError
  | some stored => do
      raiseIf (tables.replayFrames.any (fun row => decide (row.frameId = frame.frameId)) = true)
        uniqueViolation
      .ok { tables with replayFrames := tables.replayFrames ++
        [⟨frame.frameId, frame.previousHash, stored, frame.frameHash⟩] }

-- from the frame to the commit, where every exception is rolled back
def storeFrame (db : PostgresReplayLog) (frame : ReplayFrame) (fault : Option PostgresFault) :
    PostgresReplayLog × Result ReplayFrame :=
  match insertFrame P server db.tables frame with
  | .error e => ({ db with session := .idle }, .error e)
  | .ok tables =>
      match fault with
      | some .insert => ({ db with session := .idle }, .error operationalError)
      | some .commit => ({ db with session := .idle }, .error operationalError)
      | _ => (⟨{ db.log with frames := db.log.frames ++ [frame] }, tables, .idle⟩, .ok frame)

def appendFrame (db : PostgresReplayLog) (call : AppendCall PostgresFault) :
    PostgresReplayLog × Result ReplayFrame :=
  match ReplayFrame.create P call.frameId db.log.headHash call.event with
  | .error e => ({ db with session := .inTransaction }, .error e)
  | .ok frame => db.storeFrame P server frame call.fault

-- _refresh, whose errors nothing rolls back, and the rest of the append
def refreshed (db : PostgresReplayLog) (call : AppendCall PostgresFault) :
    PostgresReplayLog × Result ReplayFrame :=
  match call.fault with
  | some (.frames dropped) => ({ db with session := failedSession dropped }, .error operationalError)
  | fault =>
      match SQLiteReplayLog.readRows P db.tables.replayFrames with
      | .error e => ({ db with session := .inTransaction }, .error e)
      | .ok frames =>
          match fault with
          | some (.nonces dropped) =>
              ({ db with log := { db.log with frames := frames }, session := failedSession dropped },
                .error operationalError)
          | _ => appendFrame P server { db with log := ⟨frames, db.tables.consumedNonces⟩ } call

def appendWith (db : PostgresReplayLog) (call : AppendCall PostgresFault) :
    PostgresReplayLog × Result ReplayFrame :=
  match db.session, call.fault with
  | .aborted, _ => (db, .error operationalError)
  | _, some (.lock dropped) => ({ db with session := failedSession dropped }, .error operationalError)
  | _, _ => refreshed P server db call

def connect (tables : Tables) : Result PostgresReplayLog := do
  let frames ← SQLiteReplayLog.readRows P tables.replayFrames
  let log : ReplayLog := ⟨frames, tables.consumedNonces⟩
  let valid ← log.verifyChain P
  raiseIf (valid = false)
    (.valueError (lit "PostgreSQL replay log contains an invalid hash chain"))
  .ok ⟨log, tables, .idle⟩

def perform (db : PostgresReplayLog) : LogCall PostgresFault → PostgresReplayLog × Result Unit
  | .append call =>
      let (db', result) := db.appendWith P server call
      (db', result.map (fun _ => ()))
  | .reopen =>
      match connect P db.tables with
      | .error e => (db, .error e)
      | .ok db' => (db', .ok ())

end PostgresReplayLog

end GovernedAutonomy
