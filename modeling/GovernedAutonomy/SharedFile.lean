import GovernedAutonomy.Backends

namespace GovernedAutonomy

open Python Protocol

-- one database file, and the SQLiteReplayLog objects that processes have opened on it
structure SharedFile (ι : Type) where
  tables : Tables := {}
  logs : ι → ReplayLog := fun _ => {}
  -- the calls of claim_nonce that have returned
  claims : List (ι × Str) := []

inductive FileCall
  | reopen
  | append (frameId : Str) (event : PyDict)
  | claimNonce (nonce : Str)

namespace SharedFile

variable {ι : Type} (P : Primitives)

def opened (file : SharedFile ι) (i : ι) : SQLiteReplayLog := ⟨file.logs i, file.tables⟩

-- the stored frames are one chain, so the file can be opened
def Chained (file : SharedFile ι) : Prop := ∃ db, SQLiteReplayLog.reopen P file.tables = .ok db

-- the object has seen the last frame that the file holds
def Current (file : SharedFile ι) (i : ι) : Prop :=
  (file.logs i).headHash = HashChain.tip FrameRow.frameHash [] file.tables.replayFrames

def Admits (file : SharedFile ι) (call : ι × FileCall) : Prop :=
  match call.2 with
  | .append _ event => file.Current call.1 ∧ ReplayFrame.Stable P event
  | _ => True

-- every row of consumed_nonces is there by one claim that returned
structure ClaimedOnce (file : SharedFile ι) : Prop where
  consumed : file.claims.map Prod.snd = file.tables.consumedNonces
  once : (file.claims.map Prod.snd).Nodup

variable {P} {file : SharedFile ι} {i : ι} {call : ι × FileCall} {frameId : Str} {event : PyDict}

variable (P file) in
-- the history that the file holds: each frame seals the one before it, and survives the reload
def History (frames : List ReplayFrame) : Prop :=
  (⟨⟨frames, []⟩, file.tables⟩ : SQLiteReplayLog).Mirrors (P := P) ∧
    ∀ frame ∈ frames, ReplayFrame.Stable P frame.event

theorem reopen_isOk {tables : Tables} {frames : List ReplayFrame}
    (h : List.Forall₂ (SQLiteReplayLog.Row (P := P)) frames tables.replayFrames) :
    (∃ db, SQLiteReplayLog.reopen P tables = .ok db) ↔
      HashChain.Linked (ReplayFrame.Seals P) ReplayFrame.frameHash []
        (frames.map (ReplayFrame.reread P)) := by
  simp only [SQLiteReplayLog.reopen, SQLiteReplayLog.readRows_eq h, bind_eq_ok, Except.ok.injEq,
    exists_eq_left', raiseIf_eq_ok, Bool.not_eq_false]
  constructor
  · rintro ⟨db, valid, hvalid, -, rfl, -⟩
    exact (ReplayLog.verifyChain_eq_true P).mp hvalid
  · intro hlinked
    exact ⟨_, true, (ReplayLog.verifyChain_eq_true P).mpr hlinked, (), rfl, rfl⟩

theorem chained_of_history {frames : List ReplayFrame} (h : History P file frames) :
    file.Chained P :=
  (reopen_isOk h.1.rows).mpr (ReplayFrame.linked_reread h.1.linked h.2)

theorem History.length_eq {frames : List ReplayFrame} (h : History P file frames) :
    file.tables.replayFrames.length = frames.length := h.1.rows.length_eq.symm

theorem tip_rows {frames : List ReplayFrame} {rows : List FrameRow}
    (h : List.Forall₂ (SQLiteReplayLog.Row (P := P)) frames rows) (head : Str) :
    HashChain.tip FrameRow.frameHash head rows = HashChain.tip ReplayFrame.frameHash head frames := by
  induction h generalizing head with
  | nil => rfl
  | cons hrow _ ih =>
      rw [HashChain.tip_cons, HashChain.tip_cons, ih, (Backends.row_stamp hrow.written).2]

theorem current_iff {frames : List ReplayFrame} (h : History P file frames) :
    file.Current i ↔ (file.logs i).headHash = HashChain.tip ReplayFrame.frameHash [] frames := by
  rw [Current, tip_rows h.1.rows]

theorem append_tables {db db' : SQLiteReplayLog} {frame : ReplayFrame}
    (h : db.append P frameId event = .ok (db', frame)) :
    db'.tables.consumedNonces = db.tables.consumedNonces := by
  obtain ⟨-, row, -, htables⟩ := SQLiteReplayLog.append_eq_ok h
  rw [htables]

theorem claimNonce_eq_ok {db db' : SQLiteReplayLog} {nonce : Str}
    (h : db.claimNonce nonce = .ok db') : nonce ∉ db.tables.consumedNonces ∧
      db'.tables = { db.tables with consumedNonces := nonce :: db.tables.consumedNonces } := by
  simp only [SQLiteReplayLog.claimNonce, bind_eq_ok, reraise_eq_ok,
    SQLiteReplayLog.insertNonce] at h
  obtain ⟨tables, htables, h⟩ := h
  obtain rfl := Except.ok.inj h
  split at htables
  · cases htables
  · split at htables
    · cases htables
    · rename_i hnew
      refine ⟨?_, (Except.ok.inj htables).symm⟩
      rwa [List.contains_iff_mem] at hnew

-- the row that an append has put into the table
theorem append_row {db db' : SQLiteReplayLog} {frame : ReplayFrame}
    (h : db.append P frameId event = .ok (db', frame)) :
    ∃ row, SQLiteReplayLog.Row (P := P) frame row ∧
      ReplayFrame.Seals P db.log.headHash frame ∧ frame.event = event ∧
      db'.tables = { db.tables with replayFrames := db.tables.replayFrames ++ [row] } := by
  obtain ⟨hlog, row, hrow, htables⟩ := SQLiteReplayLog.append_eq_ok h
  obtain ⟨hcreate, -⟩ := (ReplayLog.append_eq_ok P).mp hlog
  have hseals := ReplayFrame.seals_of_create P hcreate
  obtain ⟨row', hwritten⟩ := SQLiteReplayLog.exists_row hseals
  obtain rfl := Except.ok.inj (hwritten.written.symm.trans hrow)
  exact ⟨row', hwritten, hseals, ((ReplayFrame.create_eq_ok P).mp hcreate).2.2.1, htables⟩

theorem rows_snoc {frames : List ReplayFrame} {db : SQLiteReplayLog} {frame : ReplayFrame}
    {row : FrameRow} (h : History P file frames) (hrow : SQLiteReplayLog.Row (P := P) frame row)
    (htables : db.tables =
      { file.tables with replayFrames := file.tables.replayFrames ++ [row] }) :
    List.Forall₂ (SQLiteReplayLog.Row (P := P)) (frames ++ [frame]) db.tables.replayFrames := by
  rw [htables]
  exact List.rel_append h.1.rows (.cons hrow .nil)

-- the unique columns let a fresh frame in, whatever its writer has seen
theorem append_of_history (hsha : Function.Injective P.sha256) {frames : List ReplayFrame}
    {frame : ReplayFrame} (h : History P file frames)
    (hcreate : ReplayFrame.create P frameId (file.logs i).headHash event = .ok frame)
    (hfresh : ∀ f ∈ frames, f.frameId ≠ frameId) :
    ∃ db, (file.opened i).append P frameId event = .ok (db, frame) := by
  have hseals := ReplayFrame.seals_of_create P hcreate
  obtain ⟨hid, -⟩ := (ReplayFrame.create_eq_ok P).mp hcreate
  obtain ⟨row, hrow⟩ := SQLiteReplayLog.exists_row hseals
  have hinsert : SQLiteReplayLog.insertFrame file.tables row =
      .ok { file.tables with replayFrames := file.tables.replayFrames ++ [row] } :=
    Backends.insertFrame_of_fresh hsha h.1 hseals hrow.written (by rwa [hid])
  refine ⟨⟨{ file.logs i with frames := (file.logs i).frames ++ [frame] },
    { file.tables with replayFrames := file.tables.replayFrames ++ [row] }⟩, ?_⟩
  simp only [SQLiteReplayLog.append, bind_eq_ok, reraise_eq_ok]
  exact ⟨frame, hcreate, _, ⟨row, hrow.written, hinsert⟩, rfl⟩

variable [DecidableEq ι]

def put (file : SharedFile ι) (i : ι) (db : SQLiteReplayLog) : SharedFile ι :=
  { file with tables := db.tables, logs := Function.update file.logs i db.log }

variable (P) in
def perform (file : SharedFile ι) (call : ι × FileCall) : SharedFile ι :=
  match call.2 with
  | .reopen =>
      match SQLiteReplayLog.reopen P file.tables with
      | .error _ => file
      | .ok db => file.put call.1 db
  | .append frameId event =>
      match (file.opened call.1).append P frameId event with
      | .error _ => file
      | .ok (db, _) => file.put call.1 db
  | .claimNonce nonce =>
      match (file.opened call.1).claimNonce nonce with
      | .error _ => file
      | .ok db => { file.put call.1 db with claims := (call.1, nonce) :: file.claims }

theorem ClaimedOnce.perform (h : file.ClaimedOnce) : (file.perform P call).ClaimedOnce := by
  obtain ⟨hconsumed, honce⟩ := h
  obtain ⟨i, call⟩ := call
  cases call with
  | reopen =>
      simp only [SharedFile.perform]
      cases hreopen : SQLiteReplayLog.reopen P file.tables with
      | error e => exact ⟨hconsumed, honce⟩
      | ok db =>
          have htables : db.tables = file.tables := by
            simp only [SQLiteReplayLog.reopen, bind_eq_ok] at hreopen
            obtain ⟨_, _, _, _, _, _, hdb⟩ := hreopen
            rw [← Except.ok.inj hdb]
          exact ⟨hconsumed.trans (congrArg Tables.consumedNonces htables.symm), honce⟩
  | append frameId event =>
      simp only [SharedFile.perform]
      cases happend : (file.opened i).append P frameId event with
      | error e => exact ⟨hconsumed, honce⟩
      | ok result =>
          obtain ⟨db, frame⟩ := result
          exact ⟨hconsumed.trans (append_tables happend).symm, honce⟩
  | claimNonce nonce =>
      simp only [SharedFile.perform]
      cases hclaim : (file.opened i).claimNonce nonce with
      | error e => exact ⟨hconsumed, honce⟩
      | ok db =>
          obtain ⟨hnew, htables⟩ := claimNonce_eq_ok hclaim
          refine ⟨?_, ?_⟩
          · simp only [put, htables, List.map_cons, hconsumed, opened]
          · rw [List.map_cons, List.nodup_cons, hconsumed]
            exact ⟨hnew, hconsumed ▸ honce⟩

theorem History.append {frames : List ReplayFrame} {db : SQLiteReplayLog} {frame : ReplayFrame}
    (h : History P file frames) (hcurrent : file.Current i)
    (hstable : ReplayFrame.Stable P event)
    (happend : (file.opened i).append P frameId event = .ok (db, frame)) :
    History P (file.put i db) (frames ++ [frame]) := by
  obtain ⟨row, hrow, hseals, rfl, htables⟩ := append_row happend
  have hhead : (file.opened i).log.headHash = HashChain.tip ReplayFrame.frameHash [] frames :=
    (current_iff h).mp hcurrent
  rw [hhead] at hseals
  refine ⟨⟨?_, rows_snoc h hrow htables⟩, ?_⟩
  · exact (HashChain.linked_snoc _ _).mpr ⟨h.1.linked, hseals⟩
  · exact List.forall_mem_append.mpr ⟨h.2, List.forall_mem_singleton.mpr hstable⟩

-- after an append the file holds one chain only if its writer had seen the last frame
theorem append_chained_iff (hsha : Function.Injective P.sha256) {frames : List ReplayFrame}
    {db : SQLiteReplayLog} {frame : ReplayFrame} (h : History P file frames)
    (happend : (file.opened i).append P frameId event = .ok (db, frame)) :
    (file.put i db).Chained P ↔ file.Current i ∧ ReplayFrame.Stable P event := by
  constructor
  · intro hchained
    obtain ⟨row, hrow, hseals, rfl, htables⟩ := append_row happend
    have hlinked := (reopen_isOk (rows_snoc h hrow htables)).mp hchained
    rw [List.map_append, List.map_singleton] at hlinked
    obtain ⟨-, hreread⟩ := (HashChain.linked_snoc _ _).mp hlinked
    have hhashes : ∀ f, (ReplayFrame.reread P f).frameHash = f.frameHash := fun _ => rfl
    rw [HashChain.tip_map ReplayFrame.frameHash hhashes] at hreread
    obtain ⟨-, hprev, -⟩ := (ReplayFrame.create_eq_ok P).mp hseals
    obtain ⟨-, hprev', -⟩ := (ReplayFrame.create_eq_ok P).mp hreread
    have hhead : (file.logs i).headHash = HashChain.tip ReplayFrame.frameHash [] frames :=
      hprev.symm.trans hprev'
    refine ⟨(current_iff h).mpr hhead, ?_⟩
    rw [← hhead] at hreread
    exact ReplayFrame.stable_of_create hsha hseals hreread rfl
  · rintro ⟨hcurrent, hstable⟩
    exact chained_of_history (h.append hcurrent hstable happend)

theorem History.claim {frames : List ReplayFrame} {nonce : Str}
    (h : History P file frames) :
    History P (file.perform P (i, .claimNonce nonce)) frames := by
  simp only [SharedFile.perform]
  cases hclaim : (file.opened i).claimNonce nonce with
  | error e => exact h
  | ok db =>
      obtain ⟨-, htables⟩ := claimNonce_eq_ok hclaim
      refine ⟨⟨h.1.linked, ?_⟩, h.2⟩
      simp only [put, htables]
      exact h.1.rows

theorem headHash_reread (frames : List ReplayFrame) (used : List Str) :
    ReplayLog.headHash ⟨frames.map (ReplayFrame.reread P), used⟩ =
      HashChain.tip ReplayFrame.frameHash [] frames :=
  HashChain.tip_map (f := ReplayFrame.reread P) ReplayFrame.frameHash (fun _ => rfl) _ _

-- an object that has just read the file again has seen its last frame
theorem History.reopen {frames : List ReplayFrame}
    (h : History P file frames) :
    History P (file.perform P (i, .reopen)) frames ∧ (file.perform P (i, .reopen)).Current i := by
  obtain ⟨db, hreopen⟩ := chained_of_history h
  obtain ⟨-, hdb⟩ := (SQLiteReplayLog.reopen_eq_ok h.1).mp hreopen
  have hstep : file.perform P (i, .reopen) = file.put i db := by
    simp only [SharedFile.perform, hreopen]
  have hkept : History P (file.put i db) frames := by
    refine ⟨⟨h.1.linked, ?_⟩, h.2⟩
    rw [hdb]
    exact h.1.rows
  rw [hstep]
  refine ⟨hkept, (current_iff hkept).mpr ?_⟩
  have hlogs : (file.put i db).logs i = db.log := Function.update_self _ _ _
  rw [hlogs, hdb]
  exact headHash_reread frames _

theorem History.perform {frames : List ReplayFrame} (h : History P file frames)
    (hadmits : Admits P file call) : ∃ frames', History P (file.perform P call) frames' := by
  obtain ⟨i, call⟩ := call
  cases call with
  | reopen => exact ⟨frames, h.reopen.1⟩
  | append frameId event =>
      simp only [SharedFile.perform]
      cases happend : (file.opened i).append P frameId event with
      | error e => exact ⟨frames, h⟩
      | ok result =>
          obtain ⟨db, frame⟩ := result
          exact ⟨frames ++ [frame], h.append hadmits.1 hadmits.2 happend⟩
  | claimNonce nonce => exact ⟨frames, h.claim⟩

theorem history_run {calls : List (ι × FileCall)}
    (h : Calls.Each (SharedFile.perform P) (Admits P) {} calls) :
    ∃ frames, History P (Calls.run (SharedFile.perform P) {} calls) frames := by
  refine Calls.stable (A := fun file => ∃ frames, History P file frames) ?_ h
    ⟨[], ⟨trivial, .nil⟩, by simp⟩
  rintro file call hadmits ⟨frames, hframes⟩
  exact hframes.perform hadmits

theorem claimedOnce_run (calls : List (ι × FileCall)) :
    (Calls.run (SharedFile.perform P) {} calls).ClaimedOnce :=
  Calls.always (fun _ _ h => h.perform) calls ⟨rfl, List.nodup_nil⟩

theorem shared_file_iff (hsha : Function.Injective P.sha256) (calls : List (ι × FileCall)) :
    (Calls.run (SharedFile.perform P) {} calls).ClaimedOnce ∧
    (Calls.Each (SharedFile.perform P) (Admits P) {} calls →
      (Calls.run (SharedFile.perform P) {} calls).Chained P ∧
      ∀ i frameId event db frame,
        ((Calls.run (SharedFile.perform P) {} calls).opened i).append P frameId event =
          .ok (db, frame) →
        ((Calls.run (SharedFile.perform P) {} (calls ++ [(i, .append frameId event)])).Chained P ↔
          Admits P (Calls.run (SharedFile.perform P) {} calls) (i, .append frameId event))) := by
  refine ⟨claimedOnce_run calls, ?_⟩
  intro hcalls
  obtain ⟨frames, hframes⟩ := history_run hcalls
  refine ⟨chained_of_history hframes, ?_⟩
  intro i frameId event db frame happend
  have hstep : Calls.run (SharedFile.perform P) {} (calls ++ [(i, .append frameId event)]) =
      (Calls.run (SharedFile.perform P) {} calls).put i db := by
    rw [Calls.run_append, Calls.run_cons, Calls.run_nil]
    simp only [SharedFile.perform, happend]
  rw [hstep]
  exact append_chained_iff hsha hframes happend

def firstWrite : List (Bool × FileCall) := [(false, .append "audit-1" [])]

theorem stable_nil : ReplayFrame.Stable referencePrimitives [] := by
  refine ReplayFrame.stable_of_strKeyed _ ?_
  rw [PyVal.StrKeyed, PyVal.StrKeyedMembers]
  exact ⟨by simp, List.Pairwise.nil, trivial⟩

theorem first_admitted :
    Calls.Each (SharedFile.perform referencePrimitives) (Admits referencePrimitives)
      ({} : SharedFile Bool) firstWrite :=
  ⟨⟨rfl, stable_nil⟩, trivial⟩

-- the next frame of an object that is up to date
theorem appended_empty {frames : List ReplayFrame} {file : SharedFile Bool} {i : Bool}
    {frameId : String} {ids : List Str}
    (h : History referencePrimitives file frames) (hcurrent : file.Current i)
    (hids : frames.map ReplayFrame.frameId = ids) (hfresh : lit frameId ∉ ids) :
    ∃ frames', frames'.map ReplayFrame.frameId = ids ++ [lit frameId] ∧
      History referencePrimitives (file.perform referencePrimitives (i, .append frameId []))
        frames' := by
  have hhead : (file.logs i).headHash = HashChain.tip ReplayFrame.frameHash [] frames :=
    (current_iff h).mp hcurrent
  have hclean : Json.Clean (file.logs i).headHash := by
    rw [hhead]
    exact ReplayLog.clean_headHash _ h.1.linked
  obtain ⟨frame, hcreate⟩ := Backends.create_audit frameId hclean
  have hfreshFrames : ∀ f ∈ frames, f.frameId ≠ lit frameId := by
    intro f hf heq
    exact hfresh (hids ▸ List.mem_map.mpr ⟨f, hf, heq⟩)
  obtain ⟨db, happend⟩ :=
    append_of_history referencePrimitives_sha256_injective h hcreate hfreshFrames
  have hstep : file.perform referencePrimitives (i, .append frameId []) = file.put i db := by
    simp only [perform, happend]
  refine ⟨frames ++ [frame], ?_, hstep ▸ h.append hcurrent stable_nil happend⟩
  rw [List.map_append, hids, List.map_singleton, ((ReplayFrame.create_eq_ok _).mp hcreate).1]

-- the object reads the file again before it appends
def turn (i : Bool) (frameId : String) : List (Bool × FileCall) :=
  [(i, .claimNonce "n-1"), (i, .reopen), (i, .append frameId [])]

def turns : List (Bool × FileCall) :=
  turn false "audit-1" ++ (turn true "audit-2" ++ turn false "audit-3")

theorem turn_admitted (i : Bool) (frameId : String) {frames : List ReplayFrame}
    {file : SharedFile Bool} {ids : List Str}
    (h : History referencePrimitives file frames) (hids : frames.map ReplayFrame.frameId = ids)
    (hfresh : lit frameId ∉ ids) :
    Calls.Each (SharedFile.perform referencePrimitives) (Admits referencePrimitives) file
        (turn i frameId) ∧
      ∃ frames', frames'.map ReplayFrame.frameId = ids ++ [lit frameId] ∧
        History referencePrimitives
          (Calls.run (SharedFile.perform referencePrimitives) file (turn i frameId)) frames' := by
  have hclaimed : History referencePrimitives
      (file.perform referencePrimitives (i, .claimNonce "n-1")) frames := h.claim
  obtain ⟨hreopened, hcurrent⟩ := hclaimed.reopen (i := i)
  exact ⟨⟨trivial, trivial, ⟨hcurrent, stable_nil⟩, trivial⟩,
    appended_empty hreopened hcurrent hids hfresh⟩

theorem turns_admitted :
    Calls.Each (SharedFile.perform referencePrimitives) (Admits referencePrimitives) {} turns ∧
      (Calls.run (SharedFile.perform referencePrimitives) {} turns).tables.replayFrames.length =
        3 := by
  have hstart : History referencePrimitives ({} : SharedFile Bool) [] := ⟨⟨trivial, .nil⟩, by simp⟩
  obtain ⟨hfirst, frames, hids, h⟩ := turn_admitted false "audit-1" hstart rfl
    (by simp)
  obtain ⟨hsecond, frames, hids, h⟩ := turn_admitted true "audit-2" h hids
    (by decide)
  obtain ⟨hthird, frames, hids, h⟩ := turn_admitted false "audit-3" h hids
    (by decide)
  refine ⟨Calls.each_append.mpr ⟨hfirst, Calls.each_append.mpr ⟨hsecond, hthird⟩⟩, ?_⟩
  rw [turns, Calls.run_append, Calls.run_append, h.length_eq]
  simpa using congrArg List.length hids

theorem shared_file_iff_turns :
    (Calls.run (SharedFile.perform referencePrimitives) ({} : SharedFile Bool) turns).Chained
        referencePrimitives ∧
      (Calls.run (SharedFile.perform referencePrimitives) {} turns).tables.replayFrames.length =
        3 :=
  ⟨((shared_file_iff referencePrimitives_sha256_injective _).2 turns_admitted.1).1,
    turns_admitted.2⟩

theorem run_firstWrite {db : SQLiteReplayLog} {frame : ReplayFrame}
    (h : (({} : SharedFile Bool).opened false).append referencePrimitives "audit-1" [] =
      .ok (db, frame)) :
    Calls.run (SharedFile.perform referencePrimitives) {} firstWrite =
      SharedFile.put ({} : SharedFile Bool) false db := by
  rw [firstWrite, Calls.run_cons, Calls.run_nil, SharedFile.perform]
  simp only [h]

theorem shared_file_two_writers :
    ¬ ∀ (P : Primitives) (calls : List (Bool × FileCall)),
      (Calls.run (SharedFile.perform P) {} calls).Chained P ∧
        (Calls.run (SharedFile.perform P) {} calls).ClaimedOnce := by
  intro h
  have hempty : Json.Clean (ReplayLog.headHash {}) := by simp [Json.Clean, ReplayLog.headHash]
  obtain ⟨frame, hcreate⟩ := Backends.create_audit "audit-1" hempty
  obtain ⟨frame', hcreate'⟩ := Backends.create_audit "audit-2" hempty
  have hstart : History referencePrimitives ({} : SharedFile Bool) [] := ⟨⟨trivial, .nil⟩, by simp⟩
  obtain ⟨db, hfirst⟩ := append_of_history (i := false) referencePrimitives_sha256_injective hstart
    hcreate (by simp)
  have hhistory := hstart.append rfl stable_nil hfirst
  -- the second object was opened before the first frame and has not read it
  have hunread : (SharedFile.put ({} : SharedFile Bool) false db).logs true = {} := by
    simp [put]
  have hother : ∀ f ∈ [] ++ [frame], f.frameId ≠ lit "audit-2" := by
    rw [List.nil_append, List.forall_mem_singleton, ((ReplayFrame.create_eq_ok _).mp hcreate).1]
    decide
  have hcreated : ReplayFrame.create referencePrimitives "audit-2"
      ((SharedFile.put ({} : SharedFile Bool) false db).logs true).headHash [] = .ok frame' := by
    rw [hunread]
    exact hcreate'
  obtain ⟨db', hsecond⟩ :=
    append_of_history referencePrimitives_sha256_injective hhistory hcreated hother
  have hiff := ((shared_file_iff referencePrimitives_sha256_injective firstWrite).2
    first_admitted).2 true "audit-2" [] db' frame'
  rw [run_firstWrite hfirst] at hiff
  obtain ⟨hchained, -⟩ := h referencePrimitives (firstWrite ++ [(true, .append "audit-2" [])])
  have hadmitted := (hiff hsecond).mp hchained
  have hread : (SharedFile.put ({} : SharedFile Bool) false db).Current true := hadmitted.1
  have hhead := (current_iff hhistory).mp hread
  rw [hunread] at hhead
  exact ReplayFrame.frameHash_ne_nil (ReplayFrame.seals_of_create _ hcreate) hhead.symm

end SharedFile

end GovernedAutonomy
