import GovernedAutonomy.Python.Lines
import GovernedAutonomy.Replay

namespace GovernedAutonomy

open Python

-- a replay log with a path, and the text its file holds
structure FileReplayLog where
  log : ReplayLog := {}
  text : Str := []

namespace FileReplayLog

variable (P : Primitives)

def lineStyle : Style := ⟨true, true⟩

def frameLine (frame : ReplayFrame) : Result Str := do
  let text ← P.dumps lineStyle (.dict frame.toDict)
  .ok (text ++ lit "\n")

def append (file : FileReplayLog) (frameId : Str) (event : PyDict) :
    Result (FileReplayLog × ReplayFrame) := do
  let (log, frame) ← file.log.append P frameId event
  let line ← frameLine P frame
  .ok (⟨log, file.text ++ line⟩, frame)

def appendAll (file : FileReplayLog) : List (Str × PyDict) → Result FileReplayLog
  | [] => .ok file
  | (frameId, event) :: entries => do
      let (file, _) ← file.append P frameId event
      appendAll file entries

def atLine (text : String) (number : Nat) : Exc := .valueError (lit text ++ digits number)

def frameField (payload : PyVal) (name : String) : Result PyVal :=
  match payload with
  | .dict d =>
      match PyDict.get d name with
      | some v => .ok v
      | none => .error (.builtin .keyError)
  | _ => .error (.builtin .typeError)

def isMalformed : Exc → Bool
  | .builtin .keyError => true
  | .builtin .typeError => true
  | .builtin .jsonDecodeError => true
  | _ => false

structure RawFrame where
  frameId : PyVal
  previousHash : PyVal
  event : PyVal
  frameHash : PyVal

def readFrame (number : Nat) (line : Str) : Result RawFrame :=
  reraise isMalformed (atLine "invalid replay frame at line " number) (do
    let payload ← P.loads line
    let frameId ← frameField payload "frame_id"
    let previousHash ← frameField payload "previous_hash"
    let event ← frameField payload "event"
    let frameHash ← frameField payload "frame_hash"
    .ok ⟨frameId, previousHash, event, frameHash⟩)

-- used nonces are compared with strings only, so a nonce of another type leaves no trace
def spend (log : ReplayLog) (event : PyDict) : Result ReplayLog :=
  if (event.getD "type").eq (.str "execution") then
    match event.get "nonce" with
    | none => .error (.builtin .keyError)
    | some (.str nonce) => .ok { log with usedNonces := nonce :: log.usedNonces }
    | some nonce => if nonce.hashable then .ok log else .error (.builtin .typeError)
  else .ok log

def loadLine (number : Nat) (log : ReplayLog) (line : Str) : Result ReplayLog := do
  let frame ← readFrame P number line
  let expected ← canonicalDigest P
    (ReplayFrame.rawBody frame.frameId frame.previousHash frame.event)
  raiseIf (frame.frameHash.eq (.str expected) = false) (atLine "invalid frame hash at line " number)
  raiseIf (frame.previousHash.eq (.str log.headHash) = false)
    (atLine "broken replay chain at line " number)
  match frame.frameId, frame.event with
  | .str frameId, .dict event =>
      spend { log with frames := log.frames ++ [⟨frameId, log.headHash, event, expected⟩] } event
  | .str _, _ => .error (.builtin .attributeError)
  -- a frame id of another type than the dataclass declares
  | _, _ => .error (.builtin .typeError)

def loadLines (number : Nat) (log : ReplayLog) : List Str → Result ReplayLog
  | [] => .ok log
  | line :: lines => do
      let log ← loadLine P number log line
      loadLines (number + 1) log lines

def loadJsonl (text : Str) : Result FileReplayLog := do
  let log ← loadLines P 1 {} (splitLines text)
  .ok ⟨log, text⟩

end FileReplayLog

structure FrameRow where
  frameId : Str
  previousHash : Str
  eventJson : Str
  frameHash : Str

-- the two tables, with what is committed in them
structure Tables where
  replayFrames : List FrameRow := []
  consumedNonces : List Str := []

structure SQLiteReplayLog where
  log : ReplayLog := {}
  tables : Tables := {}

namespace SQLiteReplayLog

variable (P : Primitives)

def rowStyle : Style := ⟨true, false⟩

def readRow (row : FrameRow) : Result ReplayFrame := do
  let event ← P.loads row.eventJson
  match event with
  | .dict event => .ok ⟨row.frameId, row.previousHash, event, row.frameHash⟩
  -- an event of another type than the dataclass declares
  | _ => .error (.builtin .typeError)

def readRows : List FrameRow → Result (List ReplayFrame)
  | [] => .ok []
  | row :: rows => do
      let frame ← readRow P row
      let frames ← readRows rows
      .ok (frame :: frames)

def reopen (tables : Tables) : Result SQLiteReplayLog := do
  let frames ← readRows P tables.replayFrames
  let log : ReplayLog := ⟨frames, tables.consumedNonces⟩
  let valid ← log.verifyChain P
  raiseIf (valid = false)
    (.valueError (lit "SQLite replay log contains an invalid hash chain"))
  .ok ⟨log, tables⟩

-- frame ids and frame hashes are unique in their table
def insertFrame (tables : Tables) (row : FrameRow) : Result Tables :=
  if tables.replayFrames.any (fun r => decide (r.frameId = row.frameId ∨ r.frameHash = row.frameHash))
  then .error (.builtin .integrityError)
  else .ok { tables with replayFrames := tables.replayFrames ++ [row] }

def insertNonce (tables : Tables) (nonce : Str) : Result Tables :=
  if (encode nonce).isNone then .error (.builtin .unicodeEncodeError)
  else if tables.consumedNonces.contains nonce then .error (.builtin .integrityError)
  else .ok { tables with consumedNonces := nonce :: tables.consumedNonces }

def isIntegrityError : Exc → Bool
  | .builtin .integrityError => true
  | _ => false

def frameRow (frame : ReplayFrame) : Result FrameRow := do
  let eventJson ← P.dumps rowStyle (.dict frame.event)
  .ok ⟨frame.frameId, frame.previousHash, eventJson, frame.frameHash⟩

def append (db : SQLiteReplayLog) (frameId : Str) (event : PyDict) :
    Result (SQLiteReplayLog × ReplayFrame) := do
  let frame ← ReplayFrame.create P frameId db.log.headHash event
  let tables ← reraise isIntegrityError
    (.valueError (lit "replay frame already exists: " ++ frameId)) (do
      let row ← frameRow P frame
      insertFrame db.tables row)
  .ok (⟨{ db.log with frames := db.log.frames ++ [frame] }, tables⟩, frame)

def appendAll (db : SQLiteReplayLog) : List (Str × PyDict) → Result SQLiteReplayLog
  | [] => .ok db
  | (frameId, event) :: entries => do
      let (db, _) ← db.append P frameId event
      appendAll db entries

def claimNonce (db : SQLiteReplayLog) (nonce : Str) : Result SQLiteReplayLog := do
  let tables ← reraise isIntegrityError (.valueError (lit "nonce already consumed: " ++ nonce))
    (insertNonce db.tables nonce)
  .ok ⟨{ db.log with usedNonces := nonce :: db.log.usedNonces }, tables⟩

end SQLiteReplayLog

end GovernedAutonomy
