import GovernedAutonomy.Faults
import GovernedAutonomy.Protocol.Journal
import GovernedAutonomy.Reload

namespace GovernedAutonomy

open Python Protocol

namespace ReplayFrame

variable {P : Primitives} {frame frame' : ReplayFrame} {frames frames' : List ReplayFrame}
  {previousHash : Str}

-- the same frame, with an event that is written to JSON in the same way
structure SameFrame (P : Primitives) (frame frame' : ReplayFrame) : Prop where
  stamp : frame.stamp = frame'.stamp
  event : (PyVal.dict frame.event).toTree (P.recursionLimit - 1) =
    (PyVal.dict frame'.event).toTree (P.recursionLimit - 1)

theorem SameFrame.frameHash (h : SameFrame P frame frame') : frame.frameHash = frame'.frameHash :=
  congrArg (fun stamp => stamp.2.2) h.stamp

theorem SameFrame.seals (h : SameFrame P frame frame') (hseals : Seals P previousHash frame') :
    Seals P previousHash frame := by
  obtain ⟨hid, hprev, -⟩ := Prod.mk.inj h.stamp |>.imp id Prod.mk.inj
  obtain ⟨d, ms, hacc⟩ := accepted_of_create hseals
  obtain ⟨-, hprevious, -, hdigest⟩ := (create_eq_ok P).mp hseals
  refine (create_eq_ok P).mpr ⟨rfl, hprev.trans hprevious, rfl, ?_⟩
  rw [h.frameHash, ← hdigest]
  refine canonicalDigest_congr ?_
  have htree := h.event
  rw [hacc.limit, Nat.add_sub_cancel, hacc.tree] at htree
  rw [hacc.bodyTree, hacc.limit, hid]
  exact toTree_body.mpr ⟨_, htree, rfl⟩

theorem linked_same (h : List.Forall₂ (SameFrame P) frames frames')
    (hlinked : HashChain.Linked (Seals P) ReplayFrame.frameHash previousHash frames') :
    HashChain.Linked (Seals P) ReplayFrame.frameHash previousHash frames := by
  induction h generalizing previousHash with
  | nil => trivial
  | cons hframe hframes ih =>
      obtain ⟨hseals, hrest⟩ := hlinked
      exact ⟨hframe.seals hseals, ih (hframe.frameHash ▸ hrest)⟩

theorem tip_same (h : List.Forall₂ (SameFrame P) frames frames') :
    HashChain.tip ReplayFrame.frameHash previousHash frames =
      HashChain.tip ReplayFrame.frameHash previousHash frames' := by
  induction h generalizing previousHash with
  | nil => rfl
  | cons hframe hframes ih =>
      rw [HashChain.tip_cons, HashChain.tip_cons, hframe.frameHash]
      exact ih

theorem SameFrame.rereadEvent (h : SameFrame P frame frame')
    (hseals : Seals P previousHash frame') :
    rereadEvent P frame.event = rereadEvent P frame'.event := by
  obtain ⟨d, ms, hacc⟩ := accepted_of_create hseals
  have htree := h.event
  rw [hacc.limit, Nat.add_sub_cancel, hacc.tree] at htree
  rw [ReplayFrame.rereadEvent, ReplayFrame.rereadEvent, hacc.limit, Nat.add_sub_cancel, htree,
    hacc.tree]

theorem same_reread (hseals : Seals P previousHash frame) (hstable : Stable P frame.event) :
    SameFrame P (reread P frame) frame := by
  obtain ⟨d, ms, hacc⟩ := accepted_of_create hseals
  refine ⟨rfl, ?_⟩
  rw [reread, hacc.rereadEvent, hacc.limit, Nat.add_sub_cancel, hacc.tree]
  exact PyVal.toTree_ofTree (PyVal.toTree_readable hacc.tree) (hacc.stable_iff.mp hstable)

theorem SameFrame.toDict (h : SameFrame P frame frame') (hseals : Seals P previousHash frame') :
    P.dumps FileReplayLog.lineStyle (.dict frame.toDict) =
      P.dumps FileReplayLog.lineStyle (.dict frame'.toDict) := by
  obtain ⟨hid, hprev, hhash⟩ := Prod.mk.inj h.stamp |>.imp id Prod.mk.inj
  obtain ⟨d, ms, hacc⟩ := accepted_of_create hseals
  have htree := h.event
  rw [hacc.limit, Nat.add_sub_cancel, hacc.tree] at htree
  have hframe : (PyVal.dict frame.toDict).toTree P.recursionLimit =
      .ok (frameTree frame (.obj ms)) := by
    rw [hacc.limit]
    exact toTree_toDict.mpr ⟨_, htree, rfl⟩
  rw [dumps_of_toTree (le_refl _) hframe,
    dumps_of_toTree (le_refl _) (toTree_frame hseals hacc).1, frameTree, frameTree, hid, hprev,
    hhash]

end ReplayFrame

-- the id and the event of a call that a frame can be built from
def Sealable (P : Primitives) {Fault : Type} (call : AppendCall Fault) : Prop :=
  0 < P.recursionLimit ∧ Json.Clean call.frameId ∧
    (PyVal.dict call.event).Encodable (P.recursionLimit - 1)

-- a frame hash is clean text, so that the log has no say in it
theorem ReplayLog.sealable_iff {P : Primitives} {Fault : Type} {call : AppendCall Fault}
    {log : ReplayLog} (h : log.Linked P) : Sealable P call ↔
      ∃ frame, ReplayFrame.create P call.frameId log.headHash call.event = .ok frame := by
  rw [ReplayFrame.create_isOk, Sealable]
  constructor
  · rintro ⟨hpos, hid, hevent⟩
    exact ⟨hpos, hid, clean_headHash P h, hevent⟩
  · rintro ⟨hpos, hid, -, hevent⟩
    exact ⟨hpos, hid, hevent⟩

namespace FileReplayLog

variable {P : Primitives} {file : FileReplayLog} {call : AppendCall FileFault}

-- the event comes back from its line, with a nonce where load_jsonl asks for one
def ReadsBack (P : Primitives) (event : PyDict) : Prop :=
  ReplayFrame.Stable P event ∧ CarriesNonce (ReplayFrame.rereadEvent P event)

structure Sound (P : Primitives) (file : FileReplayLog) : Prop where
  mirrors : file.Mirrors (P := P)
  readsBack : ∀ frame ∈ file.log.frames, ReadsBack P frame.event

def Recovers (P : Primitives) (file : FileReplayLog) : Prop :=
  ∃ file', loadJsonl P file.text = .ok file' ∧ file'.log.verifyChain P = .ok true

-- nothing fails once the frame is built
structure Harmless (P : Primitives) (call : AppendCall FileFault) : Prop where
  point : call.fault ≠ none → ¬ Sealable P call
  readsBack : ReadsBack P call.event

theorem sound_empty : ({} : FileReplayLog).Sound P := ⟨mirrors_empty, by simp⟩

theorem Sound.recovers (h : file.Sound P) : file.Recovers P := by
  have hlinked := ReplayFrame.linked_reread h.mirrors.linked fun frame hframe =>
    (h.readsBack frame hframe).1
  obtain ⟨file', hfile'⟩ := (loadJsonl_isOk h.mirrors).mpr
    ⟨hlinked, fun frame hframe => (h.readsBack frame hframe).2⟩
  obtain ⟨-, hframes, -⟩ := loadJsonl_eq_ok h.mirrors hfile'
  exact ⟨file', hfile', (ReplayLog.reloaded_of_linked hframes hlinked).valid⟩

-- a call that does not fail on the way is an append of the log and of the file
theorem appendWith_cases (hlinked : file.log.Linked P) (hcall : Harmless P call) :
    (∃ e, file.appendWith P call = (file, .error e)) ∨
      ∃ file' frame, file.append P call.frameId call.event = .ok (file', frame) ∧
        file.appendWith P call = (file', .ok frame) := by
  unfold appendWith
  cases happend : file.log.append P call.frameId call.event with
  | error e => exact Or.inl ⟨e, rfl⟩
  | ok appended =>
      obtain ⟨log, frame⟩ := appended
      obtain ⟨hcreate, -⟩ := (ReplayLog.append_eq_ok P).mp happend
      have hfault : call.fault = none := by
        by_contra hfault
        exact hcall.point hfault ((ReplayLog.sealable_iff hlinked).mpr ⟨frame, hcreate⟩)
      obtain ⟨text, hline⟩ := exists_line (ReplayFrame.seals_of_create P hcreate)
      refine Or.inr ⟨⟨log, file.text ++ (text ++ lit "\n")⟩, frame, ?_, ?_⟩
      · exact bind_eq_ok.mpr ⟨_, happend, bind_eq_ok.mpr ⟨_, hline.written, rfl⟩⟩
      · simp only [hfault, hline.written]

theorem Sound.append {file' : FileReplayLog} {frameId : Str} {event : PyDict}
    {frame : ReplayFrame} (h : file.Sound P) (hevent : ReadsBack P event)
    (happend : file.append P frameId event = .ok (file', frame)) : file'.Sound P := by
  refine ⟨h.mirrors.append happend, ?_⟩
  obtain ⟨line, hlog, -⟩ := append_eq_ok happend
  obtain ⟨hcreate, hframes⟩ := (ReplayLog.append_eq_ok P).mp hlog
  obtain ⟨-, -, rfl, -⟩ := (ReplayFrame.create_eq_ok P).mp hcreate
  rw [hframes, List.forall_mem_append]
  exact ⟨h.readsBack, List.forall_mem_singleton.mpr hevent⟩

theorem line_same {frame frame' : ReplayFrame} {previousHash text : Str}
    (hsame : ReplayFrame.SameFrame P frame frame')
    (hseals : ReplayFrame.Seals P previousHash frame') (h : Line (P := P) frame' text) :
    Line (P := P) frame text := by
  obtain ⟨hid, hprev, hhash⟩ := Prod.mk.inj hsame.stamp |>.imp id Prod.mk.inj
  refine ⟨?_, h.printable, ?_⟩
  · rw [frameLine, hsame.toDict hseals]
    exact h.written
  · rw [h.read, ReplayFrame.rereadFields, ReplayFrame.rereadFields, hsame.rereadEvent hseals, hid,
      hprev, hhash]

theorem lines_reread {frames : List ReplayFrame} {texts : List Str} {previousHash : Str}
    (hlinked : HashChain.Linked (ReplayFrame.Seals P) ReplayFrame.frameHash previousHash frames)
    (hstable : ∀ frame ∈ frames, ReplayFrame.Stable P frame.event)
    (h : List.Forall₂ (Line (P := P)) frames texts) :
    List.Forall₂ (Line (P := P)) (frames.map (ReplayFrame.reread P)) texts := by
  induction h generalizing previousHash with
  | nil => exact .nil
  | cons hline _ ih =>
      obtain ⟨hseals, hlinked⟩ := hlinked
      obtain ⟨hhead, hstable⟩ := List.forall_mem_cons.mp hstable
      exact .cons (line_same (ReplayFrame.same_reread hseals hhead) hseals hline) (ih hlinked hstable)

theorem Sound.reopen {file' : FileReplayLog} (h : file.Sound P)
    (hload : loadJsonl P file.text = .ok file') : file'.Sound P := by
  have hstable : ∀ frame ∈ file.log.frames, ReplayFrame.Stable P frame.event :=
    fun frame hframe => (h.readsBack frame hframe).1
  obtain ⟨htext, hframes, -⟩ := loadJsonl_eq_ok h.mirrors hload
  obtain ⟨hlinked, texts, hlines, hwritten⟩ := h.mirrors
  refine ⟨⟨?_, texts, ?_, htext.trans hwritten⟩, ?_⟩
  · rw [ReplayLog.Linked, hframes]
    exact ReplayFrame.linked_reread hlinked hstable
  · rw [hframes]
    exact lines_reread hlinked hstable hlines
  · rw [hframes, List.forall_mem_map]
    intro frame hframe
    obtain ⟨previousHash, hseals⟩ := HashChain.seals_of_mem _ _ hlinked hframe
    have hsame := ReplayFrame.same_reread hseals (hstable frame hframe)
    refine ⟨?_, ?_⟩
    · intro t ht
      rw [hsame.event] at ht
      exact hstable frame hframe t ht
    · rw [hsame.rereadEvent hseals]
      exact (h.readsBack frame hframe).2

def Admits (P : Primitives) (_ : FileReplayLog) : LogCall FileFault → Prop
  | .append call => Harmless P call
  | .reopen => True

theorem perform_cases {call : LogCall FileFault} (h : file.Sound P) (hcall : Admits P file call) :
    (∃ e, file.perform P call = (file, .error e)) ∨
      ∃ file', file.perform P call = (file', .ok ()) ∧ file'.Sound P := by
  cases call with
  | append call =>
      rcases appendWith_cases h.mirrors.linked hcall with ⟨e, hraises⟩ | ⟨file', frame, happend, hreturns⟩
      · exact Or.inl ⟨e, by simp only [perform, hraises, Except.map]⟩
      · exact Or.inr ⟨file', by simp only [perform, hreturns, Except.map], h.append hcall.readsBack happend⟩
  | reopen =>
      cases hload : loadJsonl P file.text with
      | error e => exact Or.inl ⟨e, by simp only [perform, hload]⟩
      | ok file' => exact Or.inr ⟨file', by simp only [perform, hload], h.reopen hload⟩

theorem failsCleanly {calls : List (LogCall FileFault)}
    (hcalls : Calls.Each (Journal.step (perform P)) (Admits P) {} calls) :
    Journal.FailsCleanly (perform P) Eq (Recovers P) {} calls := by
  refine Journal.failsCleanly (A := Sound P) ?_ ?_ (fun _ h => h.recovers) hcalls sound_empty
  · intro file call hcall h
    rcases perform_cases h hcall with ⟨e, hraises⟩ | ⟨file', hreturns, hfile'⟩
    · rwa [Journal.step, hraises]
    · rwa [Journal.step, hreturns]
  · rintro file call hcall h ⟨e, he⟩
    rcases perform_cases h hcall with ⟨e', hraises⟩ | ⟨file', hreturns, -⟩
    · rw [Journal.step, hraises]
    · rw [hreturns] at he
      cases he

end FileReplayLog

namespace SQLiteConnection

variable {P : Primitives} {connection : SQLiteConnection} {call : AppendCall SQLiteFault}

structure Sound (P : Primitives) (connection : SQLiteConnection) : Prop where
  mirrors : connection.db.Mirrors (P := P)
  closed : connection.transaction = none
  readsBack : ∀ frame ∈ connection.db.log.frames, ReplayFrame.Stable P frame.event

def Recovers (P : Primitives) (connection : SQLiteConnection) : Prop :=
  ∃ db, SQLiteReplayLog.reopen P connection.db.tables = .ok db ∧ db.log.verifyChain P = .ok true

-- frames, tables and no open transaction
def Same (connection connection' : SQLiteConnection) : Prop :=
  connection'.db = connection.db ∧ connection'.transaction = none

-- where the statement or the commit is reached and fails, SQLite undoes the transaction itself
structure Harmless (P : Primitives) (connection : SQLiteConnection)
    (call : AppendCall SQLiteFault) : Prop where
  execute : Sealable P call → call.fault ≠ some (.execute false)
  commit : Sealable P call →
    (∀ row ∈ connection.db.tables.replayFrames, row.frameId ≠ call.frameId) →
    call.fault ≠ some (.commit false)
  readsBack : ReplayFrame.Stable P call.event

theorem sound_empty : ({} : SQLiteConnection).Sound P :=
  ⟨SQLiteReplayLog.mirrors_empty, rfl, by simp⟩

theorem Sound.recovers (h : connection.Sound P) : connection.Recovers P := by
  have hlinked := ReplayFrame.linked_reread h.mirrors.linked h.readsBack
  exact ⟨_, (SQLiteReplayLog.reopen_eq_ok h.mirrors).mpr ⟨hlinked, rfl⟩,
    (ReplayLog.reloaded_of_linked rfl hlinked).valid⟩

theorem fresh_of_insertFrame {frameId previousHash : Str} {event : PyDict} {frame : ReplayFrame}
    {row : FrameRow} {tables tables' : Tables}
    (hcreate : ReplayFrame.create P frameId previousHash event = .ok frame)
    (hrow : SQLiteReplayLog.frameRow P frame = .ok row)
    (hinsert : SQLiteReplayLog.insertFrame tables row = .ok tables') :
    ∀ r ∈ tables.replayFrames, r.frameId ≠ frameId := by
  obtain ⟨hid, -⟩ := (ReplayFrame.create_eq_ok P).mp hcreate
  obtain ⟨text, -, h⟩ := bind_eq_ok.mp hrow
  obtain rfl := Except.ok.inj h
  rw [SQLiteReplayLog.insertFrame] at hinsert
  split at hinsert
  · cases hinsert
  · rename_i hfresh
    intro r hr hsame
    refine hfresh (List.any_eq_true.mpr ⟨r, hr, decide_eq_true (Or.inl ?_)⟩)
    rw [hsame, ← hid]

theorem appendWith_cases (hlinked : connection.db.log.Linked P)
    (hclosed : connection.transaction = none) (hcall : Harmless P connection call) :
    (∃ e, connection.appendWith P call = (connection, .error e)) ∨
      ∃ db frame, connection.db.append P call.frameId call.event = .ok (db, frame) ∧
        connection.appendWith P call = (⟨db, none⟩, .ok frame) := by
  have hsame : { connection with transaction := none } = connection := by rw [← hclosed]
  unfold appendWith
  cases hcreate : ReplayFrame.create P call.frameId connection.db.log.headHash call.event with
  | error e => exact Or.inl ⟨e, rfl⟩
  | ok frame =>
      obtain ⟨row, hrow⟩ := SQLiteReplayLog.exists_row (ReplayFrame.seals_of_create P hcreate)
      have hsealable := (ReplayLog.sealable_iff hlinked).mpr ⟨frame, hcreate⟩
      have hexecute := hcall.execute hsealable
      simp only [hrow.written, hclosed, Option.getD_none]
      cases hinsert : SQLiteReplayLog.insertFrame connection.db.tables row with
      | error e =>
          left
          split
          · rename_i undone hfault
            cases undone with
            | true => exact ⟨_, congrArg (·, _) hsame⟩
            | false => exact absurd hfault hexecute
          · exact ⟨_, congrArg (·, _) hsame⟩
      | ok tables =>
          have happend : connection.db.append P call.frameId call.event =
              .ok (⟨{ connection.db.log with
                frames := connection.db.log.frames ++ [frame] }, tables⟩, frame) := by
            refine bind_eq_ok.mpr ⟨frame, hcreate, bind_eq_ok.mpr ⟨tables, ?_, rfl⟩⟩
            exact reraise_eq_ok.mpr (bind_eq_ok.mpr ⟨row, hrow.written, hinsert⟩)
          have hcommit := hcall.commit hsealable (fresh_of_insertFrame hcreate hrow.written hinsert)
          cases hfault : call.fault with
          | none => exact Or.inr ⟨_, _, happend, rfl⟩
          | some fault =>
              left
              cases fault with
              | execute undone =>
                  cases undone with
                  | true => exact ⟨_, congrArg (·, _) hsame⟩
                  | false => exact absurd hfault hexecute
              | commit undone =>
                  cases undone with
                  | true => exact ⟨_, congrArg (·, _) hsame⟩
                  | false => exact absurd hfault hcommit

theorem Sound.append {db : SQLiteReplayLog} {frameId : Str} {event : PyDict} {frame : ReplayFrame}
    (h : connection.Sound P) (hevent : ReplayFrame.Stable P event)
    (happend : connection.db.append P frameId event = .ok (db, frame)) :
    (⟨db, none⟩ : SQLiteConnection).Sound P := by
  refine ⟨h.mirrors.append happend, rfl, ?_⟩
  obtain ⟨hcreate, hframes⟩ :=
    (ReplayLog.append_eq_ok P).mp (SQLiteReplayLog.append_eq_ok happend).1
  obtain ⟨-, -, rfl, -⟩ := (ReplayFrame.create_eq_ok P).mp hcreate
  rw [hframes, List.forall_mem_append]
  exact ⟨h.readsBack, List.forall_mem_singleton.mpr hevent⟩

theorem row_same {frame frame' : ReplayFrame} {previousHash : Str} {row : FrameRow}
    (hsame : ReplayFrame.SameFrame P frame frame')
    (hseals : ReplayFrame.Seals P previousHash frame') (h : SQLiteReplayLog.Row (P := P) frame' row) :
    SQLiteReplayLog.Row (P := P) frame row := by
  obtain ⟨hid, hprev, hhash⟩ := Prod.mk.inj hsame.stamp |>.imp id Prod.mk.inj
  have hwritten := h.written
  obtain ⟨d, ms, hacc⟩ := ReplayFrame.accepted_of_create hseals
  have hd : d ≤ P.recursionLimit := by have := hacc.limit; omega
  have htree := hsame.event
  rw [hacc.limit, Nat.add_sub_cancel, hacc.tree] at htree
  refine ⟨?_, ?_⟩
  · rw [SQLiteReplayLog.frameRow, ReplayFrame.dumps_of_toTree hd htree, hid, hprev, hhash]
    rwa [SQLiteReplayLog.frameRow, ReplayFrame.dumps_of_toTree hd hacc.tree] at hwritten
  · rw [h.read, ReplayFrame.reread, ReplayFrame.reread, hsame.rereadEvent hseals]
    exact congrArg Except.ok (by rw [hid, hprev, hhash])

theorem rows_reread {frames : List ReplayFrame} {rows : List FrameRow} {previousHash : Str}
    (hlinked : HashChain.Linked (ReplayFrame.Seals P) ReplayFrame.frameHash previousHash frames)
    (hstable : ∀ frame ∈ frames, ReplayFrame.Stable P frame.event)
    (h : List.Forall₂ (SQLiteReplayLog.Row (P := P)) frames rows) :
    List.Forall₂ (SQLiteReplayLog.Row (P := P)) (frames.map (ReplayFrame.reread P)) rows := by
  induction h generalizing previousHash with
  | nil => exact .nil
  | cons hrow _ ih =>
      obtain ⟨hseals, hlinked⟩ := hlinked
      obtain ⟨hhead, hstable⟩ := List.forall_mem_cons.mp hstable
      exact .cons (row_same (ReplayFrame.same_reread hseals hhead) hseals hrow) (ih hlinked hstable)

theorem Sound.reopen {db : SQLiteReplayLog} (h : connection.Sound P)
    (hreopen : SQLiteReplayLog.reopen P connection.db.tables = .ok db) :
    (⟨db, none⟩ : SQLiteConnection).Sound P := by
  obtain ⟨hlinked, rfl⟩ := (SQLiteReplayLog.reopen_eq_ok h.mirrors).mp hreopen
  refine ⟨⟨hlinked, rows_reread h.mirrors.linked h.readsBack h.mirrors.rows⟩, rfl, ?_⟩
  rw [List.forall_mem_map]
  intro frame hframe t ht
  obtain ⟨previousHash, hseals⟩ := HashChain.seals_of_mem _ _ h.mirrors.linked hframe
  rw [(ReplayFrame.same_reread hseals (h.readsBack frame hframe)).event] at ht
  exact h.readsBack frame hframe t ht

def Admits (P : Primitives) (connection : SQLiteConnection) : LogCall SQLiteFault → Prop
  | .append call => Harmless P connection call
  | .reopen => True

theorem perform_cases {call : LogCall SQLiteFault} (h : connection.Sound P)
    (hcall : Admits P connection call) :
    (∃ e, connection.perform P call = (connection, .error e)) ∨
      ∃ connection', connection.perform P call = (connection', .ok ()) ∧
        connection'.Sound P := by
  cases call with
  | append call =>
      rcases appendWith_cases h.mirrors.linked h.closed hcall with ⟨e, hraises⟩ | ⟨db, frame, happend, hreturns⟩
      · exact Or.inl ⟨e, by simp only [perform, hraises, Except.map]⟩
      · exact Or.inr ⟨⟨db, none⟩, by simp only [perform, hreturns, Except.map], h.append hcall.readsBack happend⟩
  | reopen =>
      cases hreopen : SQLiteReplayLog.reopen P connection.db.tables with
      | error e => exact Or.inl ⟨e, by simp only [perform, hreopen]⟩
      | ok db => exact Or.inr ⟨⟨db, none⟩, by simp only [perform, hreopen], h.reopen hreopen⟩

theorem failsCleanly {calls : List (LogCall SQLiteFault)}
    (hcalls : Calls.Each (Journal.step (perform P)) (Admits P) {} calls) :
    Journal.FailsCleanly (perform P) Same (Recovers P) {} calls := by
  refine Journal.failsCleanly (A := Sound P) ?_ ?_ (fun _ h => h.recovers) hcalls sound_empty
  · intro connection call hcall h
    rcases perform_cases h hcall with ⟨e, hraises⟩ | ⟨connection', hreturns, hconnection'⟩
    · rwa [Journal.step, hraises]
    · rwa [Journal.step, hreturns]
  · rintro connection call hcall h ⟨e, he⟩
    rcases perform_cases h hcall with ⟨e', hraises⟩ | ⟨connection', hreturns, -⟩
    · rw [Journal.step, hraises]
      exact ⟨rfl, h.closed⟩
    · rw [hreturns] at he
      cases he

end SQLiteConnection

namespace PostgresReplayLog

variable {P : Primitives} {server : PostgresServer} {db : PostgresReplayLog}
  {call : AppendCall PostgresFault}

-- the jsonb column gives back the JSON document that it was given
def Keeps (P : Primitives) (server : PostgresServer) (event : PyDict) : Prop :=
  ∀ text stored, P.dumps SQLiteReplayLog.rowStyle (.dict event) = .ok text →
    server.jsonbText text = some stored → ∃ event', P.loads stored = .ok (.dict event') ∧
      (PyVal.dict event').toTree (P.recursionLimit - 1) =
        (PyVal.dict event).toTree (P.recursionLimit - 1)

structure Row (P : Primitives) (frame : ReplayFrame) (row : FrameRow) : Prop where
  stamp : (row.frameId, row.previousHash, row.frameHash) = frame.stamp
  read : ∃ event', P.loads row.eventJson = .ok (.dict event') ∧
    (PyVal.dict event').toTree (P.recursionLimit - 1) =
      (PyVal.dict frame.event).toTree (P.recursionLimit - 1)

structure Sound (P : Primitives) (db : PostgresReplayLog) : Prop where
  linked : db.log.Linked P
  rows : List.Forall₂ (Row P) db.log.frames db.tables.replayFrames
  idle : db.session = .idle

def Recovers (P : Primitives) (db : PostgresReplayLog) : Prop :=
  ∃ db', connect P db.tables = .ok db' ∧ db'.log.verifyChain P = .ok true

structure Same (P : Primitives) (db db' : PostgresReplayLog) : Prop where
  frames : List.Forall₂ (ReplayFrame.SameFrame P) db'.log.frames db.log.frames
  tables : db'.tables = db.tables
  idle : db'.session = .idle

def isLost : PostgresFault → Bool
  | .lock false => true
  | .frames false => true
  | .nonces false => true
  | _ => false

def isDropped : PostgresFault → Bool
  | .lock true => true
  | .frames true => true
  | .nonces true => true
  | _ => false

-- between the lock and the INSERT nothing fails but the connection, and the frame can be built
structure Harmless (P : Primitives) (server : PostgresServer)
    (call : AppendCall PostgresFault) : Prop where
  point : call.fault.any isLost = false
  sealable : call.fault.any isDropped = false → Sealable P call
  keeps : Keeps P server call.event

theorem sound_empty : ({} : PostgresReplayLog).Sound P := ⟨trivial, .nil, rfl⟩

theorem readRows_rows {frames : List ReplayFrame} {rows : List FrameRow}
    (h : List.Forall₂ (Row P) frames rows) :
    ∃ frames', SQLiteReplayLog.readRows P rows = .ok frames' ∧
      List.Forall₂ (ReplayFrame.SameFrame P) frames' frames ∧
      List.Forall₂ (Row P) frames' rows := by
  induction h with
  | nil => exact ⟨[], rfl, .nil, .nil⟩
  | @cons frame row frames rows hrow hrows ih =>
      obtain ⟨frames', hread, hsame, hkept⟩ := ih
      obtain ⟨event, hevent, htree⟩ := hrow.read
      refine ⟨⟨row.frameId, row.previousHash, event, row.frameHash⟩ :: frames', ?_,
        .cons ⟨hrow.stamp, htree⟩ hsame, .cons ⟨rfl, event, hevent, rfl⟩ hkept⟩
      simp only [SQLiteReplayLog.readRows, SQLiteReplayLog.readRow, hevent, hread, bind,
        Except.bind]

-- what a refresh makes of a log that mirrors its rows
theorem Sound.refreshed (h : db.Sound P) :
    ∃ frames', SQLiteReplayLog.readRows P db.tables.replayFrames = .ok frames' ∧
      List.Forall₂ (ReplayFrame.SameFrame P) frames' db.log.frames ∧
      ∀ nonces, (⟨⟨frames', nonces⟩, db.tables, .idle⟩ : PostgresReplayLog).Sound P := by
  obtain ⟨frames', hread, hsame, hrows⟩ := readRows_rows h.rows
  exact ⟨frames', hread, hsame, fun _ => ⟨ReplayFrame.linked_same hsame h.linked, hrows, rfl⟩⟩

theorem Sound.recovers (h : db.Sound P) : db.Recovers P := by
  obtain ⟨frames', hread, -, hsound⟩ := h.refreshed
  have hvalid := (ReplayLog.verifyChain_eq_true P).mpr (hsound db.tables.consumedNonces).linked
  refine ⟨⟨⟨frames', db.tables.consumedNonces⟩, db.tables, .idle⟩, ?_, hvalid⟩
  exact bind_eq_ok.mpr ⟨frames', hread, bind_eq_ok.mpr ⟨true, hvalid,
    bind_eq_ok.mpr ⟨(), raiseIf_of_not (by simp) _, rfl⟩⟩⟩

theorem insertFrame_row {tables tables' : Tables} {frame : ReplayFrame}
    (hkeeps : Keeps P server frame.event)
    (h : insertFrame P server tables frame = .ok tables') :
    ∃ row, Row P frame row ∧
      tables' = { tables with replayFrames := tables.replayFrames ++ [row] } := by
  obtain ⟨text, htext, h⟩ := bind_eq_ok.mp h
  cases hstored : server.jsonbText text with
  | none =>
      rw [hstored] at h
      cases h
  | some stored =>
      simp only [hstored, bind_eq_ok] at h
      obtain ⟨-, -, h⟩ := h
      obtain rfl := Except.ok.inj h
      exact ⟨_, ⟨rfl, hkeeps text stored htext hstored⟩, rfl⟩

-- a sound log stays sound when the frame is stored, and is as it was when it is not
theorem storeFrame_cases {frame : ReplayFrame} (fault : Option PostgresFault) (h : db.Sound P)
    (hseals : ReplayFrame.Seals P db.log.headHash frame) (hkeeps : Keeps P server frame.event) :
    (∃ e, db.storeFrame P server frame fault = (db, .error e)) ∨
      ∃ db', db.storeFrame P server frame fault = (db', .ok frame) ∧ db'.Sound P := by
  have hidle : { db with session := Session.idle } = db := by rw [← h.idle]
  unfold storeFrame
  cases hinsert : insertFrame P server db.tables frame with
  | error e => exact Or.inl ⟨e, congrArg (·, _) hidle⟩
  | ok tables =>
      obtain ⟨row, hrow, rfl⟩ := insertFrame_row hkeeps hinsert
      have hstored : (⟨{ db.log with frames := db.log.frames ++ [frame] },
          { db.tables with replayFrames := db.tables.replayFrames ++ [row] }, .idle⟩ :
            PostgresReplayLog).Sound P :=
        ⟨(HashChain.linked_snoc _ _).mpr ⟨h.linked, hseals⟩,
          List.rel_append h.rows (.cons hrow .nil), rfl⟩
      cases fault with
      | none => exact Or.inr ⟨_, rfl, hstored⟩
      | some fault =>
          cases fault with
          | insert => exact Or.inl ⟨_, congrArg (·, _) hidle⟩
          | commit => exact Or.inl ⟨_, congrArg (·, _) hidle⟩
          | _ => exact Or.inr ⟨_, rfl, hstored⟩

theorem same_refl (h : db.Sound P) : Same P db db :=
  ⟨List.forall₂_same.mpr fun _ _ => ⟨rfl, rfl⟩, rfl, h.idle⟩

theorem appendWith_cases (h : db.Sound P) (hcall : Harmless P server call) :
    (∃ db' e, db.appendWith P server call = (db', .error e) ∧ db'.Sound P ∧ Same P db db') ∨
      ∃ db' frame, db.appendWith P server call = (db', .ok frame) ∧ db'.Sound P := by
  have hidle : { db with session := Session.idle } = db := by rw [← h.idle]
  obtain ⟨frames', hread, hsame, hsound⟩ := h.refreshed
  have hstored : call.fault.any isDropped = false → ∀ nonces,
      (∃ db' e, appendFrame P server ⟨⟨frames', nonces⟩, db.tables, db.session⟩ call =
          (db', .error e) ∧ db'.Sound P ∧ Same P db db') ∨
        ∃ db' frame, appendFrame P server ⟨⟨frames', nonces⟩, db.tables, db.session⟩ call =
          (db', .ok frame) ∧ db'.Sound P := by
    intro hdropped nonces
    obtain ⟨frame, hcreate⟩ := (ReplayLog.sealable_iff h.linked).mp (hcall.sealable hdropped)
    obtain ⟨-, -, hevent, -⟩ := (ReplayFrame.create_eq_ok P).mp hcreate
    have hhead : ReplayLog.headHash ⟨frames', nonces⟩ = db.log.headHash := ReplayFrame.tip_same hsame
    rw [h.idle, appendFrame, hhead, hcreate]
    have hseals : ReplayFrame.Seals P (ReplayLog.headHash ⟨frames', nonces⟩) frame := by
      rw [hhead]
      exact ReplayFrame.seals_of_create P hcreate
    rcases storeFrame_cases call.fault (hsound nonces) hseals (hevent ▸ hcall.keeps) with
      ⟨e, hraises⟩ | ⟨db', hreturns, hdb'⟩
    · exact Or.inl ⟨_, e, hraises, hsound nonces, hsame, rfl, rfl⟩
    · exact Or.inr ⟨db', frame, hreturns, hdb'⟩
  have hpoint := hcall.point
  unfold appendWith refreshed
  rw [hread, h.idle]
  cases hfault : call.fault with
  | none => simpa only [h.idle] using hstored (by rw [hfault]; rfl) db.tables.consumedNonces
  | some fault =>
      rw [hfault, Option.any_some] at hpoint
      cases fault with
      | lock dropped =>
          cases dropped with
          | false => cases hpoint
          | true =>
              exact Or.inl ⟨db, operationalError, congrArg (·, _) hidle, h, same_refl h⟩
      | frames dropped =>
          cases dropped with
          | false => cases hpoint
          | true =>
              exact Or.inl ⟨db, operationalError, congrArg (·, _) hidle, h, same_refl h⟩
      | nonces dropped =>
          cases dropped with
          | false => cases hpoint
          | true =>
              exact Or.inl ⟨_, operationalError, rfl, hsound db.log.usedNonces, hsame, rfl, rfl⟩
      | insert => simpa only [h.idle] using hstored (by rw [hfault]; rfl) db.tables.consumedNonces
      | commit => simpa only [h.idle] using hstored (by rw [hfault]; rfl) db.tables.consumedNonces

theorem Sound.reopen {db' : PostgresReplayLog} (h : db.Sound P)
    (hconnect : connect P db.tables = .ok db') : db'.Sound P := by
  obtain ⟨frames', hread, -, hsound⟩ := h.refreshed
  simp only [connect, hread, bind_eq_ok, Except.ok.injEq, exists_eq_left'] at hconnect
  obtain ⟨valid, -, -, -, rfl⟩ := hconnect
  exact hsound db.tables.consumedNonces

def Admits (P : Primitives) (server : PostgresServer) (_ : PostgresReplayLog) :
    LogCall PostgresFault → Prop
  | .append call => Harmless P server call
  | .reopen => True

theorem perform_cases {call : LogCall PostgresFault} (h : db.Sound P)
    (hcall : Admits P server db call) :
    (∃ db' e, db.perform P server call = (db', .error e) ∧ db'.Sound P ∧ Same P db db') ∨
      ∃ db', db.perform P server call = (db', .ok ()) ∧ db'.Sound P := by
  cases call with
  | append call =>
      rcases appendWith_cases h hcall with
        ⟨db', e, hraises, hdb', hsame⟩ | ⟨db', frame, hreturns, hdb'⟩
      · exact Or.inl ⟨db', e, by simp only [perform, hraises, Except.map], hdb', hsame⟩
      · exact Or.inr ⟨db', by simp only [perform, hreturns, Except.map], hdb'⟩
  | reopen =>
      cases hconnect : connect P db.tables with
      | error e => exact Or.inl ⟨db, e, by simp only [perform, hconnect], h, same_refl h⟩
      | ok db' => exact Or.inr ⟨db', by simp only [perform, hconnect], h.reopen hconnect⟩

theorem failsCleanly {calls : List (LogCall PostgresFault)}
    (hcalls : Calls.Each (Journal.step (perform P server)) (Admits P server) {} calls) :
    Journal.FailsCleanly (perform P server) (Same P) (Recovers P) {} calls := by
  refine Journal.failsCleanly (A := Sound P) ?_ ?_ (fun _ h => h.recovers) hcalls sound_empty
  · intro db call hcall h
    rcases perform_cases h hcall with ⟨db', e, hraises, hdb', -⟩ | ⟨db', hreturns, hdb'⟩
    · rwa [Journal.step, hraises]
    · rwa [Journal.step, hreturns]
  · rintro db call hcall h ⟨e, he⟩
    rcases perform_cases h hcall with ⟨db', e', hraises, -, hsame⟩ | ⟨db', hreturns, -⟩
    · rwa [Journal.step, hraises]
    · rw [hreturns] at he
      cases he

end PostgresReplayLog

namespace ReplayLog

-- the three backends, each over a run of appends and restarts that starts with an empty log
theorem append_fails_cleanly (P : Primitives) (server : PostgresServer) :
    (∀ calls, Calls.Each (Journal.step (FileReplayLog.perform P)) (FileReplayLog.Admits P) {} calls →
      Journal.FailsCleanly (FileReplayLog.perform P) Eq (FileReplayLog.Recovers P) {} calls) ∧
    (∀ calls, Calls.Each (Journal.step (SQLiteConnection.perform P)) (SQLiteConnection.Admits P) {}
        calls →
      Journal.FailsCleanly (SQLiteConnection.perform P) SQLiteConnection.Same
        (SQLiteConnection.Recovers P) {} calls) ∧
    ∀ calls, Calls.Each (Journal.step (PostgresReplayLog.perform P server))
        (PostgresReplayLog.Admits P server) {} calls →
      Journal.FailsCleanly (PostgresReplayLog.perform P server) (PostgresReplayLog.Same P)
        (PostgresReplayLog.Recovers P) {} calls :=
  ⟨fun _ => FileReplayLog.failsCleanly, fun _ => SQLiteConnection.failsCleanly,
    fun _ => PostgresReplayLog.failsCleanly⟩

-- a server that gives the text back as it got it keeps every stable event
theorem keeps_of_stable {P : Primitives} {frame : ReplayFrame} {previousHash : Str}
    (hseals : ReplayFrame.Seals P previousHash frame)
    (hstable : ReplayFrame.Stable P frame.event) :
    PostgresReplayLog.Keeps P ⟨some⟩ frame.event := by
  intro text stored htext hstored
  obtain rfl := Option.some.inj hstored
  obtain ⟨d, ms, hacc⟩ := ReplayFrame.accepted_of_create hseals
  have hd : d ≤ P.recursionLimit := by have := hacc.limit; omega
  rw [ReplayFrame.dumps_of_toTree hd hacc.tree] at htext
  obtain rfl := Except.ok.inj htext
  refine ⟨ReplayFrame.rereadEvent P frame.event, ?_, (ReplayFrame.same_reread hseals hstable).event⟩
  rw [hacc.rereadEvent]
  exact ReplayFrame.loads_render rfl hd hacc.tree hacc.clean

theorem stable_empty : ReplayFrame.Stable referencePrimitives [] :=
  ReplayFrame.stable_of_strKeyed _ (by simp [PyVal.StrKeyed, PyVal.StrKeyedMembers, Dict.Distinct])

theorem readsBack_empty : FileReplayLog.ReadsBack referencePrimitives [] := by
  have hlength : (ReplayFrame.rereadEvent referencePrimitives []).length = 0 := by decide
  refine ⟨stable_empty, ?_⟩
  rw [List.length_eq_zero_iff.mp hlength]
  intro h
  cases h

theorem create_empty :
    ∃ frame, ReplayFrame.create referencePrimitives "f-1" [] [] = .ok frame :=
  exists_of_toOption (by decide)

theorem sealable_empty {Fault : Type} (fault : Option Fault) :
    Sealable referencePrimitives ⟨"f-1", [], fault⟩ := by
  obtain ⟨hpos, hid, -, hevent⟩ := (ReplayFrame.create_isOk _).mp create_empty
  exact ⟨hpos, hid, hevent⟩

theorem keeps_nil {P : Primitives}
    (h : ∃ frame, ReplayFrame.create P "f-1" [] [] = .ok frame) :
    PostgresReplayLog.Keeps P ⟨some⟩ [] := by
  have hstable : ReplayFrame.Stable P [] :=
    ReplayFrame.stable_of_strKeyed P (by simp [PyVal.StrKeyed, PyVal.StrKeyedMembers, Dict.Distinct])
  obtain ⟨frame, hcreate⟩ := h
  obtain ⟨-, -, hevent, -⟩ := (ReplayFrame.create_eq_ok P).mp hcreate
  have hkeeps := keeps_of_stable (ReplayFrame.seals_of_create P hcreate)
  rw [hevent] at hkeeps
  exact hkeeps hstable

theorem keeps_empty : PostgresReplayLog.Keeps referencePrimitives ⟨some⟩ [] := keeps_nil create_empty

theorem append_fails_cleanly_demo :
    Journal.FailsCleanly (FileReplayLog.perform referencePrimitives) Eq
        (FileReplayLog.Recovers referencePrimitives) {}
        [.append ⟨[⟨0xD800, by decide⟩], [], some .openFile⟩, .append ⟨"f-1", [], none⟩, .reopen] ∧
      Journal.FailsCleanly (SQLiteConnection.perform referencePrimitives) SQLiteConnection.Same
        (SQLiteConnection.Recovers referencePrimitives) {}
        [.append ⟨"f-1", [], some (.commit true)⟩, .append ⟨"f-1", [], none⟩, .reopen] ∧
      Journal.FailsCleanly (PostgresReplayLog.perform referencePrimitives ⟨some⟩)
        (PostgresReplayLog.Same referencePrimitives)
        (PostgresReplayLog.Recovers referencePrimitives) {}
        [.append ⟨"f-1", [], some .insert⟩, .append ⟨"f-1", [], none⟩, .reopen] := by
  obtain ⟨hfile, hsqlite, hpostgres⟩ := append_fails_cleanly referencePrimitives ⟨some⟩
  refine ⟨hfile _ ⟨⟨?_, readsBack_empty⟩, ⟨nofun, readsBack_empty⟩, trivial, trivial⟩,
    hsqlite _ ⟨⟨nofun, nofun, stable_empty⟩, ⟨nofun, nofun, stable_empty⟩, trivial, trivial⟩,
    hpostgres _ ⟨⟨rfl, fun _ => sealable_empty _, keeps_empty⟩,
      ⟨rfl, fun _ => sealable_empty _, keeps_empty⟩, trivial, trivial⟩⟩
  rintro - ⟨-, hclean, -⟩
  exact absurd (hclean ⟨0xD800, by decide⟩ (by decide)) (by decide)

theorem raises_of_toOption {S R : Type} {append : S → R → S × Result Unit} {s : S} {r : R}
    (h : (append s r).2.toOption.isNone = true) : Journal.Raises append s r := by
  rw [Journal.Raises]
  cases hresult : (append s r).2 with
  | error e => exact ⟨e, rfl⟩
  | ok o =>
      rw [hresult] at h
      cases h

-- a file that cannot be opened, a commit that fails and an event that cannot be encoded
theorem append_leaves_traces :
    (¬ ∀ (P : Primitives) (calls : List (LogCall FileFault)),
      Journal.FailsCleanly (FileReplayLog.perform P) Eq (FileReplayLog.Recovers P) {} calls) ∧
    (¬ ∀ (P : Primitives) (calls : List (LogCall SQLiteFault)),
      Journal.FailsCleanly (SQLiteConnection.perform P) SQLiteConnection.Same
        (SQLiteConnection.Recovers P) {} calls) ∧
    ¬ ∀ (P : Primitives) (server : PostgresServer) (calls : List (LogCall PostgresFault)),
      Journal.FailsCleanly (PostgresReplayLog.perform P server) (PostgresReplayLog.Same P)
        (PostgresReplayLog.Recovers P) {} calls := by
  refine ⟨?_, ?_, ?_⟩
  · intro h
    have hsame := (h referencePrimitives [.append ⟨"f-1", [], some .openFile⟩]).atomic [] _ [] rfl
      (raises_of_toOption (by decide))
    have hframes : (Calls.run (Journal.step (FileReplayLog.perform referencePrimitives)) {}
      [.append ⟨"f-1", [], some .openFile⟩]).log.frames.length = 1 := by decide +kernel
    rw [List.nil_append] at hsame
    rw [← hsame] at hframes
    cases hframes
  · intro h
    have hsame := (h referencePrimitives [.append ⟨"f-1", [], some (.commit false)⟩]).atomic [] _ []
      rfl (raises_of_toOption (by decide +kernel))
    have htransaction : (Calls.run (Journal.step (SQLiteConnection.perform referencePrimitives)) {}
      [.append ⟨"f-1", [], some (.commit false)⟩]).transaction.isSome = true := by decide +kernel
    rw [List.nil_append] at hsame
    rw [hsame.2] at htransaction
    cases htransaction
  · intro h
    have hsame := (h referencePrimitives ⟨some⟩ [.append ⟨"f-1", [(.str "x", .object 0)], none⟩]).atomic
      [] _ [] rfl (raises_of_toOption (by decide))
    have hsession : (Calls.run (Journal.step (PostgresReplayLog.perform referencePrimitives ⟨some⟩))
      {} [.append ⟨"f-1", [(.str "x", .object 0)], none⟩]).session = .inTransaction := by decide
    rw [List.nil_append] at hsame
    rw [hsame.idle] at hsession
    cases hsession

end ReplayLog

end GovernedAutonomy
