import GovernedAutonomy.Audit
import GovernedAutonomy.History
import GovernedAutonomy.Protocol.Observe

namespace GovernedAutonomy

open Python Protocol

-- the methods that a subclass leaves as they are
inductive LogQuery
  | get (frameId : Str)
  | nonceUsed (nonce : Str)
  | verifyChain
  | verifyIntegrity
  | auditSummary

inductive LogMethod
  | append (frameId : Str) (event : PyDict)
  | claimNonce (nonce : Str)
  | markNonce (nonce : Str)
  | query (q : LogQuery)

inductive Answer
  | done
  | frame (frame : ReplayFrame)
  | found (frame : Option ReplayFrame)
  | used (used : Bool)
  | valid (valid : Bool)
  | integrity (report : IntegrityReport)
  | summary (summary : AuditSummary)

-- a call that raises leaves the state as it is
def served {S : Type} (s : S) : Result (S × Answer) → S × Result Answer
  | .error e => (s, .error e)
  | .ok (s', answer) => (s', .ok answer)

namespace ReplayLog

variable (P : Primitives)

def ask (log : ReplayLog) : LogQuery → Result Answer
  | .get frameId => .ok (.found (log.getFrame frameId))
  | .nonceUsed nonce => .ok (.used (log.nonceUsed nonce))
  | .verifyChain => do
      let valid ← log.verifyChain P
      .ok (.valid valid)
  | .verifyIntegrity => do
      let report ← log.verifyIntegrity P
      .ok (.integrity report)
  | .auditSummary => do
      let summary ← log.auditSummary P
      .ok (.summary summary)

def appendCall (log : ReplayLog) (frameId : Str) (event : PyDict) : Result (ReplayLog × Answer) := do
  let (log, frame) ← log.append P frameId event
  .ok (log, .frame frame)

def claimCall (log : ReplayLog) (nonce : Str) : Result (ReplayLog × Answer) := do
  let log ← log.claimNonce nonce
  .ok (log, .done)

def serve (log : ReplayLog) : LogMethod → ReplayLog × Result Answer
  | .append frameId event => served log (log.appendCall P frameId event)
  | .claimNonce nonce => served log (log.claimCall nonce)
  | .markNonce nonce => served log (log.claimCall nonce)
  | .query q => (log, log.ask P q)

end ReplayLog

namespace SQLiteReplayLog

variable (P : Primitives)

def appendCall (db : SQLiteReplayLog) (frameId : Str) (event : PyDict) :
    Result (SQLiteReplayLog × Answer) := do
  let (db, frame) ← db.append P frameId event
  .ok (db, .frame frame)

def claimCall (db : SQLiteReplayLog) (nonce : Str) : Result (SQLiteReplayLog × Answer) := do
  let db ← db.claimNonce nonce
  .ok (db, .done)

def serve (db : SQLiteReplayLog) : LogMethod → SQLiteReplayLog × Result Answer
  | .append frameId event => served db (db.appendCall P frameId event)
  | .claimNonce nonce => served db (db.claimCall nonce)
  | .markNonce nonce => served db (db.claimCall nonce)
  | .query q => (db, db.log.ask P q)

end SQLiteReplayLog

namespace Backends

variable (P : Primitives)

-- a caller sees which calls return, and what they return
def observed {S : Type} (serve : S → LogMethod → S × Result Answer) (s : S) (call : LogMethod) :
    S × Option Answer :=
  ((serve s call).1, (serve s call).2.toOption)

-- a fresh frame id for every frame that can be built, and nonces that are valid UTF-8
def Portable (log : ReplayLog) : LogMethod → Prop
  | .append frameId event =>
      (∃ frame, ReplayFrame.create P frameId log.headHash event = .ok frame) →
        ∀ frame ∈ log.frames, frame.frameId ≠ frameId
  | .claimNonce nonce => (encode nonce).isSome = true
  | .markNonce nonce => (encode nonce).isSome = true
  | .query _ => True

structure Shadows (log : ReplayLog) (db : SQLiteReplayLog) : Prop where
  cached : db.log = log
  mirrors : db.Mirrors (P := P)
  consumed : db.tables.consumedNonces = log.usedNonces
  encoded : ∀ nonce ∈ log.usedNonces, (encode nonce).isSome = true

variable {P} {log : ReplayLog} {db : SQLiteReplayLog} {frameId : Str} {event : PyDict}
  {frame : ReplayFrame} {nonce : Str}

theorem shadows_empty : Shadows P {} {} :=
  ⟨rfl, SQLiteReplayLog.mirrors_empty, rfl, by simp⟩

theorem row_stamp {row : FrameRow} (h : SQLiteReplayLog.frameRow P frame = .ok row) :
    row.frameId = frame.frameId ∧ row.frameHash = frame.frameHash := by
  obtain ⟨text, -, h⟩ := bind_eq_ok.mp h
  obtain rfl := Except.ok.inj h
  exact ⟨rfl, rfl⟩

theorem rows_stamps {frames : List ReplayFrame} {rows : List FrameRow}
    (h : List.Forall₂ (SQLiteReplayLog.Row (P := P)) frames rows) :
    rows.map (fun row => (row.frameId, row.frameHash)) =
      frames.map (fun frame => (frame.frameId, frame.frameHash)) := by
  induction h with
  | nil => rfl
  | cons hhead _ ih =>
      obtain ⟨hid, hhash⟩ := row_stamp hhead.written
      rw [List.map_cons, List.map_cons, ih, hid, hhash]

-- two frames with one hash have one id, so the table's two unique columns agree
theorem insertFrame_of_fresh (hsha : Function.Injective P.sha256) {row : FrameRow}
    {previousHash : Str} (hdb : db.Mirrors (P := P))
    (hseals : ReplayFrame.Seals P previousHash frame)
    (hrow : SQLiteReplayLog.frameRow P frame = .ok row)
    (hfresh : ∀ f ∈ db.log.frames, f.frameId ≠ frame.frameId) :
    SQLiteReplayLog.insertFrame db.tables row =
      .ok { db.tables with replayFrames := db.tables.replayFrames ++ [row] } := by
  obtain ⟨hid, hhash⟩ := row_stamp hrow
  rw [SQLiteReplayLog.insertFrame, if_neg]
  rw [List.any_eq_true]
  rintro ⟨stored, hstored, hclash⟩
  have hkey : (stored.frameId, stored.frameHash) ∈
      db.log.frames.map (fun frame => (frame.frameId, frame.frameHash)) := by
    rw [← rows_stamps hdb.rows]
    exact List.mem_map_of_mem hstored
  obtain ⟨f, hf, hstamp⟩ := List.mem_map.mp hkey
  obtain ⟨hfid, hfhash⟩ := Prod.mk.inj hstamp
  obtain ⟨_, hfseals⟩ := HashChain.seals_of_mem _ _ hdb.linked hf
  rw [decide_eq_true_eq, ← hfid, ← hfhash, hid, hhash] at hclash
  rcases hclash with hsame | hsame
  · exact hfresh f hf hsame
  · exact hfresh f hf (ReplayFrame.sameJson_of_frameHash hsha hfseals hseals hsame).2.frameId

theorem insertFrame_of_stored {row : FrameRow} (hdb : db.Mirrors (P := P))
    (hrow : SQLiteReplayLog.frameRow P frame = .ok row) {f : ReplayFrame} (hf : f ∈ db.log.frames)
    (hid : f.frameId = frame.frameId) :
    SQLiteReplayLog.insertFrame db.tables row = .error (.builtin .integrityError) := by
  have hkey : (f.frameId, f.frameHash) ∈
      db.tables.replayFrames.map (fun row => (row.frameId, row.frameHash)) := by
    rw [rows_stamps hdb.rows]
    exact List.mem_map_of_mem (f := fun frame => (frame.frameId, frame.frameHash)) hf
  obtain ⟨stored, hstored, hstamp⟩ := List.mem_map.mp hkey
  rw [SQLiteReplayLog.insertFrame, if_pos]
  rw [List.any_eq_true]
  refine ⟨stored, hstored, decide_eq_true (Or.inl ?_)⟩
  rw [(Prod.mk.inj hstamp).1, hid, (row_stamp hrow).1]

theorem append_of_fresh (hsha : Function.Injective P.sha256) (hdb : db.Mirrors (P := P))
    (hcreate : ReplayFrame.create P frameId db.log.headHash event = .ok frame)
    (hfresh : ∀ f ∈ db.log.frames, f.frameId ≠ frameId) :
    ∃ row, db.append P frameId event = .ok
      (⟨{ db.log with frames := db.log.frames ++ [frame] },
        { db.tables with replayFrames := db.tables.replayFrames ++ [row] }⟩, frame) := by
  have hseals := ReplayFrame.seals_of_create P hcreate
  obtain ⟨hid, -⟩ := (ReplayFrame.create_eq_ok P).mp hcreate
  obtain ⟨row, hrow⟩ := SQLiteReplayLog.exists_row hseals
  have hinsert := insertFrame_of_fresh hsha hdb hseals hrow.written (by rwa [hid])
  refine ⟨row, ?_⟩
  simp only [SQLiteReplayLog.append, bind_eq_ok, reraise_eq_ok]
  exact ⟨frame, hcreate, _, ⟨row, hrow.written, hinsert⟩, rfl⟩

theorem append_of_stored (hdb : db.Mirrors (P := P)) {f : ReplayFrame} (hf : f ∈ db.log.frames)
    (hid : f.frameId = frameId) {result : SQLiteReplayLog × ReplayFrame} :
    db.append P frameId event ≠ .ok result := by
  intro h
  simp only [SQLiteReplayLog.append, bind_eq_ok, reraise_eq_ok] at h
  obtain ⟨frame, hcreate, tables, ⟨row, hrow, hinsert⟩, -⟩ := h
  have hframe := ((ReplayFrame.create_eq_ok P).mp hcreate).1
  rw [insertFrame_of_stored hdb hrow hf (by rw [hid, hframe])] at hinsert
  cases hinsert

theorem append_create_error {e : Exc}
    (h : ReplayFrame.create P frameId db.log.headHash event = .error e) :
    db.append P frameId event = .error e ∧ db.log.append P frameId event = .error e := by
  constructor
  · rw [SQLiteReplayLog.append, h]
    rfl
  · rw [ReplayLog.append, h]
    rfl

variable (P) in
abbrev Agrees (log : ReplayLog) (db : SQLiteReplayLog) (call : LogMethod) : Prop :=
  Observe.Agrees (observed (ReplayLog.serve P)) (observed (SQLiteReplayLog.serve P)) (Shadows P) log
    db call

theorem append_agrees (hsha : Function.Injective P.sha256) (h : Shadows P log db)
    (hportable : Portable P log (.append frameId event)) :
    Agrees P log db (.append frameId event) := by
  obtain ⟨rfl, hmirrors, hconsumed, hencoded⟩ := h
  cases hcreate : ReplayFrame.create P frameId db.log.headHash event with
  | error e =>
      obtain ⟨hsqlite, hmemory⟩ := append_create_error hcreate
      refine ⟨?_, ?_⟩
      · simp only [observed, ReplayLog.serve, SQLiteReplayLog.serve, ReplayLog.appendCall,
          SQLiteReplayLog.appendCall, hsqlite, hmemory, bind, Except.bind, served]
      · simp only [Observe.step, observed, ReplayLog.serve, SQLiteReplayLog.serve,
          ReplayLog.appendCall, SQLiteReplayLog.appendCall, hsqlite, hmemory, bind, Except.bind,
          served]
        exact ⟨rfl, hmirrors, hconsumed, hencoded⟩
  | ok frame =>
      obtain ⟨row, hsqlite⟩ := append_of_fresh hsha hmirrors hcreate (hportable ⟨frame, hcreate⟩)
      have hmemory := (ReplayLog.append_eq_ok P).mpr ⟨hcreate, rfl⟩
      refine ⟨?_, ?_⟩
      · simp only [observed, ReplayLog.serve, SQLiteReplayLog.serve, ReplayLog.appendCall,
          SQLiteReplayLog.appendCall, hsqlite, hmemory, bind, Except.bind, served]
      · simp only [Observe.step, observed, ReplayLog.serve, SQLiteReplayLog.serve,
          ReplayLog.appendCall, SQLiteReplayLog.appendCall, hsqlite, hmemory, bind, Except.bind,
          served]
        exact ⟨rfl, hmirrors.append hsqlite, hconsumed, hencoded⟩

theorem append_differs (h : Shadows P log db) (hportable : ¬ Portable P log (.append frameId event)) :
    (observed (ReplayLog.serve P) log (.append frameId event)).2 ≠
      (observed (SQLiteReplayLog.serve P) db (.append frameId event)).2 := by
  obtain ⟨rfl, hmirrors, -, -⟩ := h
  simp only [Portable, not_forall, not_not] at hportable
  obtain ⟨⟨frame, hcreate⟩, f, hf, hid⟩ := hportable
  have hmemory := (ReplayLog.append_eq_ok P).mpr ⟨hcreate, rfl⟩
  cases happend : db.append P frameId event with
  | ok result => exact absurd happend (append_of_stored hmirrors hf hid)
  | error e =>
      simp [observed, ReplayLog.serve, SQLiteReplayLog.serve, ReplayLog.appendCall,
        SQLiteReplayLog.appendCall, hmemory, happend, bind, Except.bind, served, Except.toOption]

def claimedIn (db : SQLiteReplayLog) (nonce : Str) : SQLiteReplayLog :=
  ⟨{ db.log with usedNonces := nonce :: db.log.usedNonces },
    { db.tables with consumedNonces := nonce :: db.tables.consumedNonces }⟩

theorem claimNonce_unused (hconsumed : db.tables.consumedNonces = db.log.usedNonces)
    (hencode : (encode nonce).isSome = true) (hunused : db.log.nonceUsed nonce = false) :
    db.claimNonce nonce = .ok (claimedIn db nonce) := by
  have hinsert : SQLiteReplayLog.insertNonce db.tables nonce =
      .ok { db.tables with consumedNonces := nonce :: db.tables.consumedNonces } := by
    have hsome : (encode nonce).isNone = false := by
      rw [Option.isNone_eq_false_iff]
      exact hencode
    rw [SQLiteReplayLog.insertNonce, hsome, hconsumed, show db.log.usedNonces.contains nonce =
      false from hunused]
    rfl
  rw [SQLiteReplayLog.claimNonce, hinsert]
  rfl

theorem claimNonce_used (hconsumed : db.tables.consumedNonces = db.log.usedNonces)
    (hused : db.log.nonceUsed nonce = true) {db' : SQLiteReplayLog} :
    db.claimNonce nonce ≠ .ok db' := by
  intro h
  simp only [SQLiteReplayLog.claimNonce, bind_eq_ok, reraise_eq_ok, SQLiteReplayLog.insertNonce,
    hconsumed, show db.log.usedNonces.contains nonce = true from hused] at h
  obtain ⟨tables, htables, -⟩ := h
  split at htables
  · cases htables
  · cases htables

theorem claimNonce_surrogate (hencode : (encode nonce).isSome = false) {db' : SQLiteReplayLog} :
    db.claimNonce nonce ≠ .ok db' := by
  intro h
  have hnone : (encode nonce).isNone = true := by
    rw [Option.isNone_iff_eq_none]
    exact Option.isSome_eq_false_iff.mp hencode |> Option.isNone_iff_eq_none.mp
  simp only [SQLiteReplayLog.claimNonce, bind_eq_ok, reraise_eq_ok, SQLiteReplayLog.insertNonce,
    hnone, if_true] at h
  obtain ⟨tables, htables, -⟩ := h
  cases htables

theorem claim_agrees (h : Shadows P log db) (hencode : (encode nonce).isSome = true) :
    Agrees P log db (.claimNonce nonce) := by
  obtain ⟨rfl, hmirrors, hconsumed, hencoded⟩ := h
  cases hused : db.log.nonceUsed nonce with
  | true =>
      have hmemory : db.log.claimNonce nonce =
          .error (.valueError (lit "nonce already consumed: " ++ nonce)) := by
        rw [ReplayLog.claimNonce, if_pos hused]
      cases hsqlite : db.claimNonce nonce with
      | ok db' => exact absurd hsqlite (claimNonce_used hconsumed hused)
      | error e =>
          refine ⟨?_, ?_⟩
          · simp [observed, ReplayLog.serve, SQLiteReplayLog.serve, ReplayLog.claimCall,
              SQLiteReplayLog.claimCall, hmemory, hsqlite, bind, Except.bind, served,
              Except.toOption]
          · simp only [Observe.step, observed, ReplayLog.serve, SQLiteReplayLog.serve,
              ReplayLog.claimCall, SQLiteReplayLog.claimCall, hmemory, hsqlite, bind, Except.bind,
              served]
            exact ⟨rfl, hmirrors, hconsumed, hencoded⟩
  | false =>
      have hsqlite := claimNonce_unused hconsumed hencode hused
      have hmemory : db.log.claimNonce nonce = .ok (claimedIn db nonce).log := by
        rw [ReplayLog.claimNonce, if_neg (by simp [hused])]
        rfl
      refine ⟨?_, ?_⟩
      · simp only [observed, ReplayLog.serve, SQLiteReplayLog.serve, ReplayLog.claimCall,
          SQLiteReplayLog.claimCall, hmemory, hsqlite, bind, Except.bind, served]
      · simp only [Observe.step, observed, ReplayLog.serve, SQLiteReplayLog.serve,
          ReplayLog.claimCall, SQLiteReplayLog.claimCall, hmemory, hsqlite, bind, Except.bind,
          served]
        refine ⟨rfl, ⟨hmirrors.linked, hmirrors.rows⟩, ?_, ?_⟩
        · simp only [claimedIn, hconsumed]
        · exact List.forall_mem_cons.mpr ⟨hencode, hencoded⟩

theorem claim_differs (h : Shadows P log db) (hencode : ¬ (encode nonce).isSome = true) :
    (observed (ReplayLog.serve P) log (.claimNonce nonce)).2 ≠
      (observed (SQLiteReplayLog.serve P) db (.claimNonce nonce)).2 := by
  obtain ⟨rfl, -, -, hencoded⟩ := h
  have hunused : ¬ db.log.nonceUsed nonce = true := by
    intro hused
    exact hencode (hencoded nonce (List.contains_iff_mem.mp hused))
  have hmemory : db.log.claimNonce nonce = .ok (claimedIn db nonce).log := by
    rw [ReplayLog.claimNonce, if_neg hunused]
    rfl
  cases hsqlite : db.claimNonce nonce with
  | ok db' => exact absurd hsqlite (claimNonce_surrogate (Bool.eq_false_iff.mpr hencode))
  | error e =>
      simp [observed, ReplayLog.serve, SQLiteReplayLog.serve, ReplayLog.claimCall,
        SQLiteReplayLog.claimCall, hmemory, hsqlite, bind, Except.bind, served, Except.toOption]

theorem query_agrees (h : Shadows P log db) (q : LogQuery) : Agrees P log db (.query q) := by
  obtain ⟨rfl, hmirrors, hconsumed, hencoded⟩ := h
  exact ⟨rfl, rfl, hmirrors, hconsumed, hencoded⟩

theorem agrees (hsha : Function.Injective P.sha256) (call : LogMethod) (h : Shadows P log db)
    (hportable : Portable P log call) : Agrees P log db call := by
  cases call with
  | append frameId event => exact append_agrees hsha h hportable
  | claimNonce nonce => exact claim_agrees h hportable
  | markNonce nonce =>
      have hclaim := claim_agrees h hportable
      exact ⟨hclaim.answer, hclaim.related⟩
  | query q => exact query_agrees h q

theorem differs (call : LogMethod) (h : Shadows P log db) (hportable : ¬ Portable P log call) :
    (observed (ReplayLog.serve P) log call).2 ≠ (observed (SQLiteReplayLog.serve P) db call).2 := by
  cases call with
  | append frameId event => exact append_differs h hportable
  | claimNonce nonce => exact claim_differs h hportable
  | markNonce nonce => exact claim_differs h hportable
  | query q => exact absurd trivial hportable

-- the in-memory log and the SQLite log, each through the same calls from empty
theorem sqlite_refines_iff (hsha : Function.Injective P.sha256) (calls : List LogMethod) :
    Observe.run (observed (ReplayLog.serve P)) {} calls =
        Observe.run (observed (SQLiteReplayLog.serve P)) {} calls ↔
      Calls.Each (Observe.step (observed (ReplayLog.serve P))) (Portable P) {} calls :=
  Observe.run_eq_iff (fun _ _ call h hportable => agrees hsha call h hportable)
    (fun _ _ call h hportable => differs call h hportable) shadows_empty

def twice : List LogMethod := [.append "audit-1" [], .append "audit-1" []]

theorem create_audit (frameId : String) {previousHash : Str} (hclean : Json.Clean previousHash) :
    ∃ frame, ReplayFrame.create referencePrimitives (lit frameId) previousHash [] = .ok frame := by
  refine (ReplayFrame.create_isOk _).mpr ⟨by decide, Json.clean_lit _, hclean, ?_⟩
  rw [show ([] : PyDict) = PyDict.ofFields [] from rfl, PyVal.encodable_ofFields]
  exact ⟨by decide, by simp⟩

-- two frames, a nonce that is claimed twice, and questions in between
def mixed : List LogMethod :=
  [.append "audit-1" [], .claimNonce "n-1", .query (.nonceUsed "n-1"), .append "audit-2" [],
    .markNonce "n-1", .query .verifyChain, .query .auditSummary]

theorem sqlite_refines_iff_mixed :
    Observe.run (observed (ReplayLog.serve referencePrimitives)) {} mixed =
      Observe.run (observed (SQLiteReplayLog.serve referencePrimitives)) {} mixed := by
  refine (sqlite_refines_iff referencePrimitives_sha256_injective _).mpr ⟨?_, rfl, trivial, ?_,
    rfl, trivial, trivial, trivial⟩
  · intro _ frame hframe
    cases hframe
  · intro _
    decide +kernel

theorem step_append {log' : ReplayLog} (h : log.append P frameId event = .ok (log', frame)) :
    Observe.step (observed (ReplayLog.serve P)) log (.append frameId event) = log' := by
  simp only [Observe.step, observed, ReplayLog.serve, ReplayLog.appendCall, h, bind, Except.bind,
    served]

theorem twice_not_portable :
    ¬ Calls.Each (Observe.step (observed (ReplayLog.serve referencePrimitives)))
      (Portable referencePrimitives) {} twice := by
  rintro ⟨-, hsecond, -⟩
  have hempty : Json.Clean (ReplayLog.headHash {}) := by simp [Json.Clean, ReplayLog.headHash]
  obtain ⟨frame, hcreate⟩ := create_audit "audit-1" hempty
  have hfirst := (ReplayLog.append_eq_ok referencePrimitives).mpr ⟨hcreate, rfl⟩
  rw [step_append hfirst] at hsecond
  obtain ⟨hid, -⟩ := (ReplayFrame.create_eq_ok _).mp hcreate
  have hclean : Json.Clean (ReplayLog.headHash ⟨[frame], []⟩) :=
    ReplayFrame.clean_frameHash _ hcreate
  exact hsecond (create_audit "audit-1" hclean) frame (List.mem_singleton.mpr rfl) hid

theorem sqlite_refines_twice :
    ¬ ∀ (P : Primitives) (calls : List LogMethod),
      Observe.run (observed (ReplayLog.serve P)) {} calls =
        Observe.run (observed (SQLiteReplayLog.serve P)) {} calls := by
  intro h
  exact twice_not_portable ((sqlite_refines_iff referencePrimitives_sha256_injective _).mp
    (h referencePrimitives twice))

end Backends

end GovernedAutonomy
