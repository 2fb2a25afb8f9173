import GovernedAutonomy.PostgresDelivery
import GovernedAutonomy.SQLiteDelivery
import GovernedAutonomy.Python.Documents

namespace GovernedAutonomy

open Python Protocol

set_option linter.unusedSectionVars false

-- what json.dumps has written, json.loads reads
theorem exists_loads {I : Interpreter} {sty : Style} {v : PyVal} {text : Str}
    (h : I.dumps sty v = .ok text) : ∃ v', I.loads text = .ok v' := by
  simp only [Interpreter.dumps, bind_eq_ok] at h
  obtain ⟨t, ht, h⟩ := h
  obtain rfl := Except.ok.inj h
  have hparse := Json.parseDocument_renderWith_hear sty reprFormat (PyVal.toTree_readable ht)
  rw [Json.renderWith_repr] at hparse
  exact ⟨_, by rw [Interpreter.loads, hparse]⟩

variable {ω M : Type} [DecidableEq ω]

-- the columns that an INSERT writes for good
def JobRow.Same (row row' : JobRow) : Prop :=
  row'.jobId = row.jobId ∧ row'.idempotencyKey = row.idempotencyKey ∧ row'.payload = row.payload

namespace JobTable

variable {t t' : JobTable} {row row' : JobRow} {new : JobRow → Prop}

theorem same_setWhere {jobId : Str} {guard : JobRow → Bool} {u : RowUpdate} :
    row.Same (setWhere jobId guard u row) := by
  unfold setWhere
  split
  · exact ⟨u.jobId row, u.idempotencyKey row, u.payload row⟩
  · exact ⟨rfl, rfl, rfl⟩

theorem Written.kept (h : t.Written new t') (hrow : row ∈ t.rows) :
    ∃ row' ∈ t'.rows, row.Same row' := by
  cases h with
  | same => exact ⟨row, hrow, rfl, rfl, rfl⟩
  | update => exact ⟨_, List.mem_map_of_mem hrow, same_setWhere⟩
  | insert h hnew => exact ⟨row, List.mem_append_left _ hrow, rfl, rfl, rfl⟩

theorem Written.cases (h : t.Written new t') (hrow : row' ∈ t'.rows) :
    (∃ row ∈ t.rows, row.Same row') ∨ new row' := by
  cases h with
  | same => exact Or.inl ⟨row', hrow, rfl, rfl, rfl⟩
  | update =>
      obtain ⟨row, hmem, rfl⟩ := List.mem_map.mp hrow
      exact Or.inl ⟨row, hmem, same_setWhere⟩
  | insert h hnew =>
      rcases List.mem_append.mp hrow with hrow | hrow
      · exact Or.inl ⟨row', hrow, rfl, rfl, rfl⟩
      · obtain rfl := List.mem_singleton.mp hrow
        exact Or.inr hnew

theorem eq_of_key (hrow : row ∈ t.rows) (hrow' : row' ∈ t.rows)
    (h : row.idempotencyKey = row'.idempotencyKey) : row = row' :=
  List.inj_on_of_nodup_map t.uniqueKey hrow hrow' h

theorem mem_of_findKey {key : Str} (h : t.findKey key = some row) :
    row ∈ t.rows ∧ row.idempotencyKey = key := by
  have hfound := List.find?_some h
  exact ⟨List.mem_of_find?_eq_some h, of_decide_eq_true hfound⟩

theorem exists_findKey (hrow : row ∈ t.rows) : ∃ row', t.findKey row.idempotencyKey = some row' :=
  Option.isSome_iff_exists.mp (List.find?_isSome.mpr ⟨row, hrow, decide_eq_true rfl⟩)

end JobTable

theorem JobRow.Same.trans {a b c : JobRow} (h : a.Same b) (h' : b.Same c) : a.Same c :=
  ⟨h'.1.trans h.1, h'.2.1.trans h.2.1, h'.2.2.trans h.2.2⟩

namespace JobWorld

-- the job that a call returned, and the row of its key
structure Returns (P : Primitives) (row : JobRow) (call : EnqueueCall) (job : Job) : Prop where
  key : row.idempotencyKey = call.idempotencyKey
  jobId : job.jobId = row.jobId
  idempotencyKey : job.idempotencyKey = call.idempotencyKey
  payload : P.loads row.payload = .ok job.payload

-- a key has one row for good, written by one call; all calls return it, and raise only where
-- they would raise alone
structure Idempotent (step : JobWorld ω → ω × M → JobWorld ω) (P : Primitives)
    (inserts : JobPhase → M → JobRow → EnqueueCall → Prop) (alone : EnqueueCall → Exc → Prop)
    (calls : List (ω × M)) : Prop where
  one : ∀ row ∈ (Calls.run step {} calls).table.rows,
    ∀ row' ∈ (Calls.run step {} calls).table.rows,
      row.idempotencyKey = row'.idempotencyKey → row = row'
  kept : ∀ before after, calls = before ++ after →
    ∀ row ∈ (Calls.run step {} before).table.rows,
      ∃ row' ∈ (Calls.run step {} calls).table.rows, row.Same row'
  inserted : ∀ before i move after, calls = before ++ (i, move) :: after →
    ∀ row ∈ (Calls.run step {} (before ++ [(i, move)])).table.rows,
      (∃ old ∈ (Calls.run step {} before).table.rows, old.Same row) ∨
        ∃ call, inserts ((Calls.run step {} before).phase i) move row call
  returned : ∀ call job, .enqueued call job ∈ (Calls.run step {} calls).log →
    ∃ row ∈ (Calls.run step {} calls).table.rows, Returns P row call job
  raised : ∀ call e, .raised call e ∈ (Calls.run step {} calls).log → alone call e

variable (P : Primitives) (alone : EnqueueCall → Exc → Prop)
  (phaseOk : JobTable → JobPhase → Prop)

def EventOk (t : JobTable) : JobEvent → Prop
  | .enqueued call job => ∃ row ∈ t.rows, Returns P row call job
  | .raised call e => alone call e
  | _ => True

structure Consistent (w : JobWorld ω) : Prop where
  readable : ∀ row ∈ w.table.rows, ∃ v, P.loads row.payload = .ok v
  events : ∀ e ∈ w.log, EventOk P alone w.table e
  phases : ∀ i, phaseOk w.table (w.phase i)

variable {P alone phaseOk}

theorem EventOk.of_written {t t' : JobTable} {new : JobRow → Prop} {e : JobEvent}
    (h : EventOk P alone t e) (hwritten : t.Written new t') : EventOk P alone t' e := by
  cases e with
  | enqueued call job =>
      obtain ⟨row, hrow, hkey, hid, hkey', hpayload⟩ := h
      obtain ⟨row', hrow', hsame⟩ := hwritten.kept hrow
      refine ⟨row', hrow', hsame.2.1.trans hkey, hid.trans hsame.1.symm, hkey', ?_⟩
      rw [hsame.2.2, hpayload]
  | _ => exact h

-- what a store has to show of its steps
structure Submits (P : Primitives) (act : JobTable → JobPhase → M → JobOutcome)
    (ok : JobWorld ω → ω × M → Prop) (inserts : JobPhase → M → JobRow → EnqueueCall → Prop)
    (alone : EnqueueCall → Exc → Prop) (phaseOk : JobTable → JobPhase → Prop) : Prop where
  idle : ∀ t, phaseOk t .idle
  kept : ∀ (t : JobTable) new t' phase, t.Written new t' → phaseOk t phase → phaseOk t' phase
  written : ∀ (t : JobTable) phase move,
    t.Written (fun row => ∃ call, inserts phase move row call) (act t phase move).table
  readable : ∀ phase move row call, inserts phase move row call → ∃ v, P.loads row.payload = .ok v
  events : ∀ (w : JobWorld ω) i move, Consistent P alone phaseOk w → ok w (i, move) →
    ∀ e ∈ (act w.table (w.phase i) move).events,
      EventOk P alone (act w.table (w.phase i) move).table e
  phase : ∀ (w : JobWorld ω) i move, Consistent P alone phaseOk w → ok w (i, move) →
    phaseOk (act w.table (w.phase i) move).table (act w.table (w.phase i) move).phase

namespace Submits

variable {act : JobTable → JobPhase → M → JobOutcome} {ok : JobWorld ω → ω × M → Prop}
  {inserts : JobPhase → M → JobRow → EnqueueCall → Prop} {w : JobWorld ω} {calls : List (ω × M)}

theorem step (h : Submits P act ok inserts alone phaseOk) (hw : Consistent P alone phaseOk w)
    {call : ω × M} (hok : ok w call) : Consistent P alone phaseOk (w.step act call) := by
  obtain ⟨i, move⟩ := call
  have hwritten := h.written w.table (w.phase i) move
  refine ⟨?_, ?_, ?_⟩
  · intro row' hrow'
    rcases hwritten.cases hrow' with ⟨row, hrow, hsame⟩ | ⟨call, hinserts⟩
    · rw [hsame.2.2]
      exact hw.readable row hrow
    · exact h.readable _ _ row' call hinserts
  · intro e he
    rcases List.mem_append.mp he with he | he
    · exact h.events w i move hw hok e he
    · exact (hw.events e he).of_written hwritten
  · intro k
    simp only [JobWorld.step]
    by_cases hk : k = i
    · rw [hk, Function.update_self]
      exact h.phase w i move hw hok
    · rw [Function.update_of_ne hk]
      exact h.kept _ _ _ _ hwritten (hw.phases k)

theorem run (h : Submits P act ok inserts alone phaseOk)
    (hcalls : Calls.Each (JobWorld.step act) ok {} calls) :
    Consistent P alone phaseOk (Calls.run (JobWorld.step act) {} calls) := by
  have hstart : Consistent P alone phaseOk ({} : JobWorld ω) :=
    ⟨nofun, nofun, fun _ => h.idle _⟩
  exact Calls.stable (A := fun w => Consistent P alone phaseOk w)
    (fun _ _ hok hw => h.step hw hok) hcalls hstart

theorem kept_run (h : Submits P act ok inserts alone phaseOk) {row : JobRow}
    (hrow : row ∈ w.table.rows) (calls : List (ω × M)) :
    ∃ row' ∈ (Calls.run (JobWorld.step act) w calls).table.rows, row.Same row' := by
  refine Calls.always (A := fun w' : JobWorld ω => ∃ row' ∈ w'.table.rows, row.Same row') ?_ calls
    ⟨row, hrow, rfl, rfl, rfl⟩
  rintro w' ⟨i, move⟩ ⟨row', hrow', hsame⟩
  obtain ⟨row'', hrow'', hsame'⟩ := (h.written w'.table (w'.phase i) move).kept hrow'
  exact ⟨row'', hrow'', hsame.trans hsame'⟩

theorem idempotent (h : Submits P act ok inserts alone phaseOk)
    (hcalls : Calls.Each (JobWorld.step act) ok {} calls) :
    Idempotent (JobWorld.step act) P inserts alone calls where
  one := fun row hrow row' hrow' hkey => JobTable.eq_of_key hrow hrow' hkey
  kept := by
    rintro before after rfl row hrow
    rw [Calls.run_append]
    exact h.kept_run hrow after
  inserted := by
    rintro before i move after rfl row hrow
    rw [Calls.run_append, Calls.run_cons, Calls.run_nil] at hrow
    exact (h.written _ _ _).cases hrow
  returned := fun call job hevent => (h.run hcalls).events _ hevent
  raised := fun call e hevent => (h.run hcalls).events _ hevent

end Submits

end JobWorld

open JobWorld (EventOk Returns Consistent Submits Idempotent)

theorem JobWorld.returns_of_job {P : Primitives} {row : JobRow} {call : EnqueueCall} {job : Job}
    (hkey : row.idempotencyKey = call.idempotencyKey) (hjob : row.job P = .ok job) :
    Returns P row call job := by
  simp only [JobRow.job, bind_eq_ok] at hjob
  obtain ⟨payload, hpayload, hjob⟩ := hjob
  obtain rfl := Except.ok.inj hjob
  exact ⟨hkey, rfl, hkey, hpayload⟩

theorem JobRow.job_isOk {P : Primitives} {row : JobRow} (h : ∃ v, P.loads row.payload = .ok v) :
    ∃ job, row.job P = .ok job := by
  obtain ⟨v, hv⟩ := h
  exact ⟨_, by rw [JobRow.job, hv]; rfl⟩

namespace SQLiteJobStore

variable {P : Primitives}

-- no other call has inserted the key since the SELECT, and uuid4 has drawn a new id
def Unraced (w : JobWorld ω) (call : ω × Move) : Prop :=
  (match w.phase call.1, call.2 with
  | .missing call, .enqueueInsert jobId _ =>
      decide (jobId ∉ w.table.rows.map JobRow.jobId) &&
        decide (call.idempotencyKey ∉ w.table.rows.map JobRow.idempotencyKey)
  | _, _ => true) = true

def NewId (w : JobWorld ω) (call : ω × Move) : Prop :=
  (match call.2 with
  | .enqueueInsert jobId _ => decide (jobId ∉ w.table.rows.map JobRow.jobId)
  | _ => true) = true

instance (w : JobWorld ω) (call : ω × Move) : Decidable (Unraced w call) :=
  inferInstanceAs (Decidable (_ = _))

instance (w : JobWorld ω) (call : ω × Move) : Decidable (NewId w call) :=
  inferInstanceAs (Decidable (_ = _))

variable (P) in
-- the call raises this on an empty table, with no other thread
def Alone (call : EnqueueCall) (e : Exc) : Prop :=
  ∀ jobId now, .raised call e ∈ (Calls.run (step P) ({} : JobWorld Unit)
    [((), .enqueueSelect call), ((), .enqueueInsert jobId now), ((), .enqueueGet)]).log

def PhaseOk (t : JobTable) : JobPhase → Prop
  | .missing call => call.check = .ok () ∧ (encode call.idempotencyKey).isNone = false
  | .inserted call jobId =>
      ∃ row, t.find jobId = some row ∧ row.idempotencyKey = call.idempotencyKey
  | _ => True

theorem alone_check {call : EnqueueCall} {e : Exc} (h : call.check = .error e) : Alone P call e := by
  intro jobId now
  simp [Calls.run, step, JobWorld.step, act, enqueueSelect, h]

theorem alone_encode {call : EnqueueCall} (hcheck : call.check = .ok ())
    (h : (encode call.idempotencyKey).isNone = true) :
    Alone P call (.builtin .unicodeEncodeError) := by
  intro jobId now
  simp [Calls.run, step, JobWorld.step, act, enqueueSelect, hcheck, h]

theorem insertedRow_error {call : EnqueueCall} {jobId : Str} {now : ℚ} {e : Exc}
    (h : insertedRow P call jobId now = .error e) (jobId' : Str) (now' : ℚ) :
    insertedRow P call jobId' now' = .error e := by
  unfold insertedRow at h ⊢
  rcases bind_eq_error.mp h with h | ⟨payload, hpayload, h⟩
  · rw [h]
    rfl
  · refine bind_eq_error.mpr (Or.inr ⟨payload, hpayload, ?_⟩)
    rcases bind_eq_error.mp h with h | ⟨u, -, h⟩
    · rw [h]
      rfl
    · cases h

theorem alone_insert {call : EnqueueCall} {jobId : Str} {now : ℚ} {e : Exc}
    (hcheck : call.check = .ok ()) (hencode : (encode call.idempotencyKey).isNone = false)
    (h : insertedRow P call jobId now = .error e) : Alone P call e := by
  intro jobId' now'
  have hrow := insertedRow_error h jobId' now'
  simp [Calls.run, step, JobWorld.step, act, enqueueSelect, hcheck, hencode, JobTable.findKey,
    JobTable.empty, enqueueInsert, hrow]

theorem find_of_written {t t' : JobTable} {new : JobRow → Prop} {jobId : Str} {row : JobRow}
    (h : t.Written new t') (hfind : t.find jobId = some row) :
    ∃ row', t'.find jobId = some row' ∧ row'.idempotencyKey = row.idempotencyKey := by
  obtain ⟨row', hrow', hsame⟩ := h.kept (JobTable.mem_of_find hfind)
  have hid : row'.jobId = jobId := hsame.1.trans (JobTable.jobId_of_find hfind)
  exact ⟨row', hid ▸ JobTable.find_of_mem hrow', hsame.2.1⟩

variable {w : JobWorld ω}

theorem submits_enqueueSelect (hw : Consistent P (Alone P) PhaseOk w) (call : EnqueueCall) :
    (∀ e ∈ (enqueueSelect P w.table call).events,
      EventOk P (Alone P) (enqueueSelect P w.table call).table e) ∧
    PhaseOk (enqueueSelect P w.table call).table (enqueueSelect P w.table call).phase := by
  unfold enqueueSelect
  cases hcheck : call.check with
  | error e => exact ⟨List.forall_mem_singleton.mpr (alone_check hcheck), trivial⟩
  | ok u =>
      simp only
      by_cases hencode : (encode call.idempotencyKey).isNone = true
      · rw [if_pos hencode]
        exact ⟨List.forall_mem_singleton.mpr (alone_encode hcheck hencode), trivial⟩
      · rw [if_neg hencode]
        cases hfind : w.table.findKey call.idempotencyKey with
        | none => exact ⟨List.forall_mem_nil _, hcheck, eq_false_of_ne_true hencode⟩
        | some row =>
            obtain ⟨hrow, hkey⟩ := JobTable.mem_of_findKey hfind
            obtain ⟨job, hjob⟩ := JobRow.job_isOk (hw.readable row hrow)
            simp only [hjob]
            exact ⟨List.forall_mem_singleton.mpr ⟨row, hrow, JobWorld.returns_of_job hkey hjob⟩, trivial⟩

theorem submits_enqueueInsert {call : EnqueueCall} {i : ω}
    (hw : Consistent P (Alone P) PhaseOk w) (hphase : w.phase i = .missing call) (jobId : Str) (now : ℚ)
    (hunraced : Unraced w (i, .enqueueInsert jobId now)) :
    (∀ e ∈ (enqueueInsert P w.table call jobId now).events,
      EventOk P (Alone P) (enqueueInsert P w.table call jobId now).table e) ∧
    PhaseOk (enqueueInsert P w.table call jobId now).table
      (enqueueInsert P w.table call jobId now).phase := by
  obtain ⟨hcheck, hencode⟩ : call.check = .ok () ∧ (encode call.idempotencyKey).isNone = false := by
    have hok := hw.phases i
    rwa [hphase] at hok
  unfold enqueueInsert
  cases hrow : insertedRow P call jobId now with
  | error e => exact ⟨List.forall_mem_singleton.mpr (alone_insert hcheck hencode hrow), trivial⟩
  | ok row =>
      obtain ⟨payload, -, rfl⟩ := row_of_insertedRow hrow
      have hfresh : w.table.Fresh (call.row jobId payload now) := by
        simp only [Unraced, hphase, Bool.and_eq_true, decide_eq_true_eq] at hunraced
        exact hunraced
      simp only
      rw [dif_pos hfresh]
      exact ⟨List.forall_mem_nil _, call.row jobId payload now, JobTable.find_insert_self hfresh, rfl⟩

theorem submits_enqueueGet {call : EnqueueCall} {jobId : Str} {i : ω}
    (hw : Consistent P (Alone P) PhaseOk w) (hphase : w.phase i = .inserted call jobId) :
    (∀ e ∈ (enqueueGet P w.table call jobId).events,
      EventOk P (Alone P) (enqueueGet P w.table call jobId).table e) ∧
    PhaseOk (enqueueGet P w.table call jobId).table (enqueueGet P w.table call jobId).phase := by
  obtain ⟨row, hfind, hkey⟩ : ∃ row, w.table.find jobId = some row ∧
      row.idempotencyKey = call.idempotencyKey := by
    have hok := hw.phases i
    rwa [hphase] at hok
  have hrow := JobTable.mem_of_find hfind
  obtain ⟨job, hjob⟩ := JobRow.job_isOk (hw.readable row hrow)
  simp only [enqueueGet, get, hfind, hjob]
  exact ⟨List.forall_mem_singleton.mpr ⟨row, hrow, JobWorld.returns_of_job hkey hjob⟩, trivial⟩

theorem submits_act (hw : Consistent P (Alone P) PhaseOk w) {i : ω} {move : Move}
    (hunraced : Unraced w (i, move)) :
    (∀ e ∈ (act P w.table (w.phase i) move).events,
      EventOk P (Alone P) (act P w.table (w.phase i) move).table e) ∧
    PhaseOk (act P w.table (w.phase i) move).table (act P w.table (w.phase i) move).phase := by
  have hold := hw.phases i
  generalize hphase : w.phase i = phase at hold
  unfold act
  split
  · unfold claimSelect
    split <;> exact ⟨List.forall_mem_nil _, trivial⟩
  · exact ⟨List.forall_mem_nil _, trivial⟩
  · unfold claimGet
    split
    · exact ⟨List.forall_mem_nil _, trivial⟩
    · exact ⟨List.forall_mem_singleton.mpr trivial, trivial⟩
  · exact ⟨List.forall_mem_nil _, trivial⟩
  · unfold failGet
    split <;> exact ⟨List.forall_mem_nil _, trivial⟩
  · unfold failUpdate
    split
    · exact ⟨List.forall_mem_nil _, trivial⟩
    · split
      · exact ⟨List.forall_mem_singleton.mpr trivial, trivial⟩
      · exact ⟨List.forall_mem_nil _, trivial⟩
  · exact ⟨List.forall_mem_nil _, trivial⟩
  · exact submits_enqueueSelect hw _
  · exact submits_enqueueInsert hw hphase _ _ hunraced
  · exact submits_enqueueGet hw hphase
  · exact ⟨List.forall_mem_nil _, trivial⟩
  · exact ⟨List.forall_mem_nil _, hold⟩

theorem submits : Submits P (act P) (Unraced : JobWorld ω → ω × Move → Prop) (Inserts P) (Alone P)
    PhaseOk where
  idle := fun _ => trivial
  kept := by
    intro t new t' phase hwritten h
    cases phase with
    | inserted call jobId =>
        obtain ⟨row, hfind, hkey⟩ := h
        obtain ⟨row', hfind', hkey'⟩ := find_of_written hwritten hfind
        exact ⟨row', hfind', hkey'.trans hkey⟩
    | _ => exact h
  written := written_act
  readable := fun _ _ _ _ h => exists_loads h.payload
  events := fun _ _ _ hw hok => (submits_act hw hok).1
  phase := fun _ _ _ hw hok => (submits_act hw hok).2

theorem idempotent {calls : List (ω × Move)} (hcalls : Calls.Each (step P) Unraced {} calls) :
    Idempotent (step P) P (Inserts P) (Alone P) calls :=
  submits.idempotent hcalls

end SQLiteJobStore

namespace PostgresJobStore

variable {P : Primitives} {server : PostgresServer} {leaseSeconds : ℚ}

def NewId (w : JobWorld ω) (call : ω × Move) : Prop :=
  (match call.2 with
  | .enqueueInsert _ jobId _ => decide (jobId ∉ w.table.rows.map JobRow.jobId)
  | _ => true) = true

instance (w : JobWorld ω) (call : ω × Move) : Decidable (NewId w call) :=
  inferInstanceAs (Decidable (_ = _))

variable (P server leaseSeconds) in
def Alone (call : EnqueueCall) (e : Exc) : Prop :=
  ∀ jobId now, .raised call e ∈ (Calls.run (step P server leaseSeconds) ({} : JobWorld Unit)
    [((), .enqueueInsert call jobId now), ((), .enqueueSelect)]).log

def PhaseOk (t : JobTable) : JobPhase → Prop
  | .inserted call _ => ∃ row ∈ t.rows, row.idempotencyKey = call.idempotencyKey
  | _ => True

-- json.loads reads the text of a jsonb column that was given a text of json.dumps
def ReadsBack (P : Primitives) (server : PostgresServer) : Prop :=
  ∀ (payload : PyDict) (text stored : Str), P.dumps jobStyle (.dict payload) = .ok text →
    server.jsonbText text = some stored → ∃ v, P.loads stored = .ok v

theorem alone_check {call : EnqueueCall} {e : Exc} (h : call.check = .error e) :
    Alone P server leaseSeconds call e := by
  intro jobId now
  simp [Calls.run, step, JobWorld.step, act, enqueueInsert, h]

theorem insertedRow_error {call : EnqueueCall} {jobId : Str} {now : ℚ} {e : Exc}
    (h : insertedRow P server call jobId now = .error e) (jobId' : Str) (now' : ℚ) :
    insertedRow P server call jobId' now' = .error e := by
  unfold insertedRow at h ⊢
  rcases bind_eq_error.mp h with h | ⟨payload, hpayload, h⟩
  · rw [h]
    rfl
  · refine bind_eq_error.mpr (Or.inr ⟨payload, hpayload, ?_⟩)
    cases hstored : server.jsonbText payload with
    | none => simpa only [hstored] using h
    | some stored =>
        simp only [hstored] at h ⊢
        rcases bind_eq_error.mp h with h | ⟨u, -, h⟩
        · rw [h]
          rfl
        · cases h

theorem alone_insert {call : EnqueueCall} {jobId : Str} {now : ℚ} {e : Exc} {u : Unit}
    (hcheck : call.check = .ok u) (h : insertedRow P server call jobId now = .error e) :
    Alone P server leaseSeconds call e := by
  intro jobId' now'
  have hrow := insertedRow_error h jobId' now'
  simp [Calls.run, step, JobWorld.step, act, enqueueInsert, hcheck, hrow]

variable {w : JobWorld ω}

theorem submits_enqueueInsert (call : EnqueueCall) (jobId : Str) (now : ℚ)
    (hnew : jobId ∉ w.table.rows.map JobRow.jobId) :
    (∀ e ∈ (enqueueInsert P server w.table call jobId now).events,
      EventOk P (Alone P server leaseSeconds) (enqueueInsert P server w.table call jobId now).table
        e) ∧
    PhaseOk (enqueueInsert P server w.table call jobId now).table
      (enqueueInsert P server w.table call jobId now).phase := by
  unfold enqueueInsert
  cases hcheck : call.check with
  | error e => exact ⟨List.forall_mem_singleton.mpr (alone_check hcheck), trivial⟩
  | ok u =>
      cases hrow : insertedRow P server call jobId now with
      | error e => exact ⟨List.forall_mem_singleton.mpr (alone_insert hcheck hrow), trivial⟩
      | ok row =>
          obtain ⟨-, stored, -, -, rfl⟩ := row_of_insertedRow hrow
          by_cases htaken : call.idempotencyKey ∈ w.table.rows.map JobRow.idempotencyKey
          · simp only
            rw [if_pos (by exact htaken)]
            refine ⟨List.forall_mem_nil _, ?_⟩
            obtain ⟨row, hrow, hkey⟩ := List.mem_map.mp htaken
            exact ⟨row, hrow, hkey⟩
          · have hfresh : w.table.Fresh (call.row jobId stored now) := ⟨hnew, htaken⟩
            simp only
            rw [if_neg (by exact htaken), dif_pos hfresh]
            exact ⟨List.forall_mem_nil _, _, List.mem_append_right _ (List.mem_singleton_self _), rfl⟩

theorem submits_enqueueSelect {call : EnqueueCall} {jobId : Str} {i : ω}
    (hw : Consistent P (Alone P server leaseSeconds) PhaseOk w)
    (hphase : w.phase i = .inserted call jobId) :
    (∀ e ∈ (enqueueSelect P w.table call).events,
      EventOk P (Alone P server leaseSeconds) (enqueueSelect P w.table call).table e) ∧
    PhaseOk (enqueueSelect P w.table call).table (enqueueSelect P w.table call).phase := by
  obtain ⟨row, hrow, hkey⟩ : ∃ row ∈ w.table.rows, row.idempotencyKey = call.idempotencyKey := by
    have hok := hw.phases i
    rwa [hphase] at hok
  obtain ⟨found, hfind⟩ := JobTable.exists_findKey hrow
  rw [hkey] at hfind
  obtain ⟨hfound, hkey⟩ := JobTable.mem_of_findKey hfind
  obtain ⟨job, hjob⟩ := JobRow.job_isOk (hw.readable found hfound)
  simp only [enqueueSelect, hfind, readJob, hjob]
  exact ⟨List.forall_mem_singleton.mpr ⟨found, hfound, JobWorld.returns_of_job hkey hjob⟩, trivial⟩

theorem submits_claim (t : JobTable) (now : ℚ) (skipped : List Str) :
    (∀ e ∈ (claim P leaseSeconds t now skipped).events, EventOk P (Alone P server leaseSeconds)
      (claim P leaseSeconds t now skipped).table e) ∧
    PhaseOk (claim P leaseSeconds t now skipped).table (claim P leaseSeconds t now skipped).phase := by
  unfold claim
  cases t.next (claimable now skipped) with
  | none => exact ⟨List.forall_mem_nil _, trivial⟩
  | some row =>
      have hexpired : ∀ t : JobTable,
          ∀ e ∈ (if row.status = .running then [JobEvent.expired row.jobId] else []),
            EventOk P (Alone P server leaseSeconds) t e := by
        intro t
        split
        · exact List.forall_mem_singleton.mpr trivial
        · exact List.forall_mem_nil _
      dsimp only
      split
      · exact ⟨hexpired _, trivial⟩
      · exact ⟨List.forall_mem_cons.mpr ⟨trivial, hexpired _⟩, trivial⟩

theorem submits_act (hw : Consistent P (Alone P server leaseSeconds) PhaseOk w) {i : ω}
    {move : Move} (hnew : NewId w (i, move)) :
    (∀ e ∈ (act P server leaseSeconds w.table (w.phase i) move).events,
      EventOk P (Alone P server leaseSeconds)
        (act P server leaseSeconds w.table (w.phase i) move).table e) ∧
    PhaseOk (act P server leaseSeconds w.table (w.phase i) move).table
      (act P server leaseSeconds w.table (w.phase i) move).phase := by
  have hold := hw.phases i
  generalize hphase : w.phase i = phase at hold
  unfold act
  split
  · exact submits_claim _ _ _
  · exact ⟨List.forall_mem_nil _, trivial⟩
  · unfold fail
    split
    · exact ⟨List.forall_mem_nil _, trivial⟩
    · dsimp only
      split
      · exact ⟨List.forall_mem_singleton.mpr trivial, trivial⟩
      · exact ⟨List.forall_mem_nil _, trivial⟩
  · exact ⟨List.forall_mem_nil _, trivial⟩
  · exact submits_enqueueInsert _ _ _ (of_decide_eq_true hnew)
  · exact submits_enqueueSelect hw hphase
  · exact ⟨List.forall_mem_nil _, trivial⟩
  · exact ⟨List.forall_mem_nil _, hold⟩

theorem submits (hreads : ReadsBack P server) :
    Submits P (act P server leaseSeconds) (NewId : JobWorld ω → ω × Move → Prop) (Inserts P server)
      (Alone P server leaseSeconds) PhaseOk where
  idle := fun _ => trivial
  kept := by
    intro t new t' phase hwritten h
    cases phase with
    | inserted call jobId =>
        obtain ⟨row, hrow, hkey⟩ := h
        obtain ⟨row', hrow', hsame⟩ := hwritten.kept hrow
        exact ⟨row', hrow', hsame.2.1.trans hkey⟩
    | _ => exact h
  written := written_act
  readable := by
    rintro phase move row call ⟨-, -, text, htext, hstored⟩
    exact hreads call.payload text row.payload htext hstored
  events := fun _ _ _ hw hok => (submits_act hw hok).1
  phase := fun _ _ _ hw hok => (submits_act hw hok).2

theorem idempotent (hreads : ReadsBack P server) {calls : List (ω × Move)}
    (hcalls : Calls.Each (step P server leaseSeconds) NewId {} calls) :
    Idempotent (step P server leaseSeconds) P (Inserts P server) (Alone P server leaseSeconds)
      calls :=
  (submits hreads).idempotent hcalls

end PostgresJobStore

end GovernedAutonomy
