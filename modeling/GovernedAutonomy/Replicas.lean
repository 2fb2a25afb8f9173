import GovernedAutonomy.Atomicity
import GovernedAutonomy.Protocol.Transactions
import GovernedAutonomy.SharedFile

namespace GovernedAutonomy

open Python Protocol

-- the connection of a replica: a failed transaction takes nothing but its end
inductive ConnectionStatus
  | usable
  | aborted
  | dropped
  deriving DecidableEq

inductive PostgresCall
  | append (frameId : Str) (event : PyDict)
  | claimNonce (nonce : Str)
  | get (frameId : Str)
  | nonceUsed (nonce : Str)
  | verifyIntegrity

-- the database step that a replica is at
inductive Phase
  | idle
  | appendLock (frameId : Str) (event : PyDict)
  | appendFrames (frameId : Str) (event : PyDict)
  | appendNonces (frameId : Str) (event : PyDict)
  | appendInsert (frame : ReplayFrame)
  | appendCommit (frame : ReplayFrame)
  | claimLock (nonce : Str)
  | claimInsert (nonce : Str)
  | claimCommit (nonce : Str)
  | readFrames
  | readNonces
  | rollback

namespace Phase

-- what follows an exception: the INSERT, the COMMIT and a claim are rolled back, the rest is not
def raised : Phase → Phase
  | .appendInsert _ => .rollback
  | .appendCommit _ => .rollback
  | .claimLock _ => .rollback
  | .claimInsert _ => .rollback
  | .claimCommit _ => .rollback
  | _ => .idle

-- from the lock of an append to its INSERT
def isLocked : Phase → Bool
  | .appendFrames _ _ => true
  | .appendNonces _ _ => true
  | .appendInsert _ => true
  | _ => false

def isInserted : Phase → Bool
  | .appendCommit _ => true
  | _ => false

end Phase

structure Replica where
  log : ReplayLog := {}
  connection : ConnectionStatus := .usable
  phase : Phase := .idle

-- one database, and the PostgresReplayLog objects that are connected to it
structure Cluster (ι : Type) where
  frames : Guarded ι FrameRow := {}
  nonces : Guarded ι Str := {}
  replicas : ι → Replica := fun _ => {}
  -- the calls of append and of claim_nonce that have returned
  returned : List ReplayFrame := []
  claimed : List Str := []

namespace Cluster

variable {ι : Type} [DecidableEq ι] (P : Primitives) (server : PostgresServer) (c : Cluster ι)
  (i : ι)

def tables : Tables := ⟨c.frames.committed, c.nonces.committed⟩

def setReplica (replica : Replica) : Cluster ι :=
  { c with replicas := Function.update c.replicas i replica }

def goTo (phase : Phase) : Cluster ι := c.setReplica i { c.replicas i with phase := phase }

def setConnection (status : ConnectionStatus) : Cluster ι :=
  c.setReplica i { c.replicas i with connection := status }

def discard : Cluster ι :=
  { c with frames := c.frames.rollback i, nonces := c.nonces.rollback i }

-- a statement that fails
def abort : Cluster ι := (c.discard i).setConnection i .aborted

def drop : Cluster ι := (c.discard i).setConnection i .dropped

def rollback : Cluster ι :=
  match (c.replicas i).connection with
  | .dropped => c
  | _ => (c.discard i).setConnection i .usable

-- the COMMIT of an aborted transaction is a ROLLBACK that raises nothing
def commit : Cluster ι :=
  match (c.replicas i).connection with
  | .usable => { c with frames := c.frames.commit i, nonces := c.nonces.commit i }
  | .aborted => (c.discard i).setConnection i .usable
  | .dropped => c

def insertRow (frame : ReplayFrame) (stored : Str) : Cluster ι :=
  if frame.frameId ∈ (c.frames.seen i).map FrameRow.frameId then (c.abort i).goTo i .rollback
  -- the row of an open transaction makes the INSERT wait
  else if frame.frameId ∈ c.frames.values.map FrameRow.frameId then c
  else
    let row : FrameRow := ⟨frame.frameId, frame.previousHash, stored, frame.frameHash⟩
    { c with frames := c.frames.insert i row }.goTo i (.appendCommit frame)

def insertFrame (frame : ReplayFrame) : Cluster ι :=
  match P.dumps SQLiteReplayLog.rowStyle (.dict frame.event) with
  | .error _ => c.goTo i .rollback
  | .ok text =>
      match server.jsonbText text with
      | none => (c.abort i).goTo i .rollback
      | some stored => c.insertRow i frame stored

def insertNonce (nonce : Str) : Cluster ι :=
  if nonce ∈ c.nonces.seen i then (c.abort i).goTo i .rollback
  else if nonce ∈ c.nonces.values then c
  else { c with nonces := c.nonces.insert i nonce }.goTo i (.claimCommit nonce)

-- the two SELECTs of _refresh
def selectFrames (phase : Phase) : Cluster ι :=
  match SQLiteReplayLog.readRows P (c.frames.seen i) with
  | .error _ => c.goTo i .idle
  | .ok frames =>
      let replica := c.replicas i
      c.setReplica i { replica with log := { replica.log with frames := frames }, phase := phase }

def selectNonces (phase : Phase) : Cluster ι :=
  let replica := c.replicas i
  c.setReplica i
    { replica with log := { replica.log with usedNonces := c.nonces.seen i }, phase := phase }

-- from the second SELECT to the INSERT there is no step of the database
def sealFrame (frameId : Str) (event : PyDict) : Phase :=
  match ReplayFrame.create P frameId (c.replicas i).log.headHash event with
  | .error _ => .idle
  | .ok frame => .appendInsert frame

def execute : Phase → Cluster ι
  | .appendLock frameId event =>
      if c.frames.IsFree i then
        { c with frames := c.frames.acquire i }.goTo i (.appendFrames frameId event)
      else c
  | .appendFrames frameId event => c.selectFrames P i (.appendNonces frameId event)
  | .appendNonces frameId event => c.selectNonces i (c.sealFrame P i frameId event)
  | .appendInsert frame => c.insertFrame P server i frame
  | .claimLock nonce =>
      if c.nonces.IsFree i then
        { c with nonces := c.nonces.acquire i }.goTo i (.claimInsert nonce)
      else c
  | .claimInsert nonce => c.insertNonce i nonce
  | .readFrames => c.selectFrames P i .readNonces
  | .readNonces => c.selectNonces i .idle
  | _ => c

def returnFrame (frame : ReplayFrame) : Cluster ι :=
  let replica := c.replicas i
  { c with returned := frame :: c.returned }.setReplica i
    { replica with
      log := { replica.log with frames := replica.log.frames ++ [frame] }, phase := .idle }

def returnNonce (nonce : Str) : Cluster ι :=
  let replica := c.replicas i
  { c with claimed := nonce :: c.claimed }.setReplica i
    { replica with
      log := { replica.log with usedNonces := nonce :: replica.log.usedNonces }, phase := .idle }

def advance : Cluster ι :=
  match (c.replicas i).phase with
  | .rollback => (c.rollback i).goTo i .idle
  | .appendCommit frame =>
      if (c.replicas i).connection = .dropped then c.goTo i .rollback
      else (c.commit i).returnFrame i frame
  | .claimCommit nonce =>
      if (c.replicas i).connection = .dropped then c.goTo i .rollback
      else (c.commit i).returnNonce i nonce
  | phase =>
      if (c.replicas i).connection = .usable then c.execute P server i phase
      else c.goTo i phase.raised

-- the lock of a replica lets one call in at a time
def accept (call : PostgresCall) : Cluster ι :=
  match (c.replicas i).phase, call with
  | .idle, .append frameId event => c.goTo i (.appendLock frameId event)
  | .idle, .claimNonce nonce => if nonce = [] then c else c.goTo i (.claimLock nonce)
  | .idle, _ => c.goTo i .readFrames
  | _, _ => c

end Cluster

inductive ClusterMove (ι : Type)
  | call (i : ι) (call : PostgresCall)
  | advance (i : ι)
  -- the statement that the replica is at raises
  | fail (i : ι)
  | drop (i : ι)
  -- the connection is lost when the COMMIT is done and not answered
  | commitAndDrop (i : ι)

namespace Cluster

variable {ι : Type} [DecidableEq ι] (P : Primitives) (server : PostgresServer)

def step (c : Cluster ι) : ClusterMove ι → Cluster ι
  | .call i call => c.accept i call
  | .advance i => c.advance P server i
  | .fail i =>
      match (c.replicas i).phase, (c.replicas i).connection with
      | .idle, _ => c
      | phase, .usable => (c.abort i).goTo i phase.raised
      | _, _ => c
  | .drop i => c.drop i
  | .commitAndDrop i =>
      match (c.replicas i).phase, (c.replicas i).connection with
      | .appendCommit _, .usable => ((c.commit i).drop i).goTo i .rollback
      | .claimCommit _, .usable => ((c.commit i).drop i).goTo i .rollback
      | _, _ => c

end Cluster

end GovernedAutonomy
