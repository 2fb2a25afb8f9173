import GovernedAutonomy.Policy
import GovernedAutonomy.Protocol.HashChain
import GovernedAutonomy.Python.Copy

namespace GovernedAutonomy

open Python

structure ReplayFrame where
  frameId : Str
  previousHash : Str
  event : PyDict
  frameHash : Str

namespace ReplayFrame

variable (P : Primitives)

def rawBody (frameId previousHash event : PyVal) : PyVal :=
  .dict (PyDict.ofFields [("frame_id", frameId), ("previous_hash", previousHash), ("event", event)])

def body (frameId previousHash : Str) (event : PyDict) : PyVal :=
  rawBody (.str frameId) (.str previousHash) (.dict event)

def create (frameId previousHash : Str) (event : PyDict) : Result ReplayFrame := do
  let frameHash ← canonicalDigest P (body frameId previousHash event)
  .ok ⟨frameId, previousHash, event, frameHash⟩

def toDict (frame : ReplayFrame) : PyDict :=
  PyDict.ofFields
    [("frame_id", .str frame.frameId), ("previous_hash", .str frame.previousHash),
      ("event", .dict frame.event), ("frame_hash", .str frame.frameHash)]

-- what is in a frame besides its two hashes
def entry (frame : ReplayFrame) : Str × PyDict := (frame.frameId, frame.event)

def Seals (previousHash : Str) (frame : ReplayFrame) : Prop :=
  create P frame.frameId previousHash frame.event = .ok frame

theorem create_eq_ok {frameId previousHash : Str} {event : PyDict} {frame : ReplayFrame} :
    create P frameId previousHash event = .ok frame ↔
      frame.frameId = frameId ∧ frame.previousHash = previousHash ∧ frame.event = event ∧
        canonicalDigest P (body frameId previousHash event) = .ok frame.frameHash := by
  rw [create, bind_eq_ok]
  constructor
  · rintro ⟨frameHash, hdigest, h⟩
    obtain rfl := Except.ok.inj h
    exact ⟨rfl, rfl, rfl, hdigest⟩
  · rintro ⟨rfl, rfl, rfl, hdigest⟩
    exact ⟨_, hdigest, rfl⟩

theorem seals_of_create {frameId previousHash : Str} {event : PyDict} {frame : ReplayFrame}
    (h : create P frameId previousHash event = .ok frame) : Seals P previousHash frame := by
  obtain ⟨hid, -, hevent, -⟩ := (create_eq_ok P).mp h
  rw [Seals, hid, hevent]
  exact h

theorem create_isOk {frameId previousHash : Str} {event : PyDict} :
    (∃ frame, create P frameId previousHash event = .ok frame) ↔
      0 < P.recursionLimit ∧ Json.Clean frameId ∧ Json.Clean previousHash ∧
        (PyVal.dict event).Encodable (P.recursionLimit - 1) := by
  have hbody : (∃ frame, create P frameId previousHash event = .ok frame) ↔
      (body frameId previousHash event).Encodable P.recursionLimit := by
    rw [← canonicalDigest_isOk]
    constructor
    · rintro ⟨frame, h⟩
      exact ⟨_, ((create_eq_ok P).mp h).2.2.2⟩
    · rintro ⟨digest, h⟩
      exact ⟨⟨frameId, previousHash, event, digest⟩, (create_eq_ok P).mpr ⟨rfl, rfl, rfl, h⟩⟩
  rw [hbody, body, rawBody, PyVal.encodable_ofFields]
  simp only [List.forall_mem_cons, List.not_mem_nil, IsEmpty.forall_iff, implies_true, and_true,
    PyVal.encodable_str]

theorem clean_frameHash {frameId previousHash : Str} {event : PyDict} {frame : ReplayFrame}
    (h : create P frameId previousHash event = .ok frame) : Json.Clean frame.frameHash := by
  obtain ⟨-, -, -, hdigest⟩ := (create_eq_ok P).mp h
  exact (canonicalDigest_eq_ok hdigest).2

end ReplayFrame

structure ReplayLog where
  frames : List ReplayFrame := []
  usedNonces : List Str := []

structure IntegrityReport where
  ok : Bool
  frameCount : Nat
  headHash : Str
  replayDigest : Str
  duplicateFrameIds : List Str
  firstError : Option (Nat × Str × String)

namespace ReplayLog

variable (P : Primitives)

def headHash (log : ReplayLog) : Str := HashChain.tip ReplayFrame.frameHash [] log.frames

def append (log : ReplayLog) (frameId : Str) (event : PyDict) :
    Result (ReplayLog × ReplayFrame) := do
  let frame ← ReplayFrame.create P frameId log.headHash event
  .ok ({ log with frames := log.frames ++ [frame] }, frame)

def appendAll (log : ReplayLog) : List (Str × PyDict) → Result ReplayLog
  | [] => .ok log
  | (frameId, event) :: entries => do
      let (log, _) ← log.append P frameId event
      appendAll log entries

def getFrame (log : ReplayLog) (frameId : Str) : Option ReplayFrame :=
  log.frames.find? (fun frame => frame.frameId = frameId)

def nonceUsed (log : ReplayLog) (nonce : Str) : Bool := log.usedNonces.contains nonce

def claimNonce (log : ReplayLog) (nonce : Str) : Result ReplayLog :=
  if log.nonceUsed nonce then .error (.valueError (lit "nonce already consumed: " ++ nonce))
  else .ok { log with usedNonces := nonce :: log.usedNonces }

def events (log : ReplayLog) (eventType : Option Str) : Result (List PyDict) := do
  raiseIf (eventType = some []) (.valueError (lit "event_type must not be empty"))
  ((log.frames.map ReplayFrame.event).filter (fun event =>
    eventType.all (fun name => (PyDict.getD event "type").eq (.str name)))).mapM P.deepcopy

def eventsForNonce (log : ReplayLog) (nonce : Str) : Result (List PyDict) := do
  raiseIf (nonce = []) (.valueError (lit "nonce must not be empty"))
  ((log.frames.map ReplayFrame.event).filter
    (fun event => (PyDict.getD event "nonce").eq (.str nonce))).mapM P.deepcopy

def isExecutionOf (nonce : Str) (frame : ReplayFrame) : Bool :=
  (PyDict.getD frame.event "type").eq (.str "execution") &&
    (PyDict.getD frame.event "nonce").eq (.str nonce)

def executionsOf (log : ReplayLog) (nonce : Str) : List ReplayFrame :=
  log.frames.filter (isExecutionOf nonce)

def verifyFrom : Str → List ReplayFrame → Result Bool
  | _, [] => .ok true
  | previousHash, frame :: frames => do
      let expected ← ReplayFrame.create P frame.frameId previousHash frame.event
      if frame.previousHash ≠ previousHash ∨ frame.frameHash ≠ expected.frameHash then .ok false
      else verifyFrom frame.frameHash frames

def verifyChain (log : ReplayLog) : Result Bool := verifyFrom P [] log.frames

def firstErrorFrom (index : Nat) : Str → List ReplayFrame → Result (Option (Nat × Str × String))
  | _, [] => .ok none
  | previousHash, frame :: frames => do
      let expected ← ReplayFrame.create P frame.frameId previousHash frame.event
      let rest ← firstErrorFrom (index + 1) frame.frameHash frames
      .ok
        (if frame.previousHash ≠ previousHash then
          some (index, frame.frameId, "previous_hash_mismatch")
        else if frame.frameHash ≠ expected.frameHash then
          some (index, frame.frameId, "frame_hash_mismatch")
        else rest)

def duplicatesFrom (seen : List Str) : List ReplayFrame → List Str
  | [] => []
  | frame :: frames =>
      (if frame.frameId ∈ seen then [frame.frameId] else []) ++
        duplicatesFrom (frame.frameId :: seen) frames

def contents (log : ReplayLog) : PyVal := .list (log.frames.map (fun frame => .dict frame.toDict))

def verifyIntegrity (log : ReplayLog) : Result IntegrityReport := do
  let firstError ← firstErrorFrom P 0 [] log.frames
  let replayDigest ← canonicalDigest P log.contents
  let duplicates := duplicatesFrom [] log.frames
  .ok
    { ok := firstError.isNone && duplicates.isEmpty
      frameCount := log.frames.length
      headHash := log.headHash
      replayDigest := replayDigest
      duplicateFrameIds := sortedStrs duplicates
      firstError := firstError }

def Linked (log : ReplayLog) : Prop :=
  HashChain.Linked (ReplayFrame.Seals P) ReplayFrame.frameHash [] log.frames

theorem isExecutionOf_iff {nonce : Str} {frame : ReplayFrame} :
    isExecutionOf nonce frame = true ↔ PyDict.getD frame.event "type" = .str "execution" ∧
      PyDict.getD frame.event "nonce" = .str nonce := by
  rw [isExecutionOf, Bool.and_eq_true, PyVal.eq_str_right, PyVal.eq_str_right]

theorem append_eq_ok {log log' : ReplayLog} {frameId : Str} {event : PyDict}
    {frame : ReplayFrame} :
    log.append P frameId event = .ok (log', frame) ↔
      ReplayFrame.create P frameId log.headHash event = .ok frame ∧
        log' = { log with frames := log.frames ++ [frame] } := by
  rw [append, bind_eq_ok]
  constructor
  · rintro ⟨frame', hframe, h⟩
    obtain ⟨h₁, rfl⟩ := Prod.mk.inj (Except.ok.inj h)
    exact ⟨hframe, h₁.symm⟩
  · rintro ⟨hframe, rfl⟩
    exact ⟨frame, hframe, rfl⟩

theorem linked_append {log log' : ReplayLog} {frameId : Str} {event : PyDict}
    {frame : ReplayFrame} (hlog : log.Linked P)
    (h : log.append P frameId event = .ok (log', frame)) : log'.Linked P := by
  obtain ⟨hcreate, rfl⟩ := (append_eq_ok P).mp h
  exact (HashChain.linked_snoc _ _).mpr ⟨hlog, ReplayFrame.seals_of_create P hcreate⟩

theorem clean_headHash {log : ReplayLog} (h : log.Linked P) : Json.Clean log.headHash := by
  obtain ⟨frames, used⟩ := log
  cases frames using List.reverseRecOn with
  | nil => simp [headHash, Json.Clean]
  | append_singleton frames frame =>
      rw [headHash, HashChain.tip_snoc]
      exact ReplayFrame.clean_frameHash P ((HashChain.linked_snoc _ _).mp h).2

theorem append_isOk {log : ReplayLog} {frameId : Str} {event : PyDict} :
    (∃ result, log.append P frameId event = .ok result) ↔
      ∃ frame, ReplayFrame.create P frameId log.headHash event = .ok frame := by
  constructor
  · rintro ⟨⟨log', frame⟩, h⟩
    exact ⟨frame, ((append_eq_ok P).mp h).1⟩
  · rintro ⟨frame, h⟩
    exact ⟨(_, frame), (append_eq_ok P).mpr ⟨h, rfl⟩⟩

theorem appendAll_cons {log log' : ReplayLog} {frameId : Str} {event : PyDict}
    {entries : List (Str × PyDict)} :
    log.appendAll P ((frameId, event) :: entries) = .ok log' ↔
      ∃ middle frame, log.append P frameId event = .ok (middle, frame) ∧
        middle.appendAll P entries = .ok log' := by
  rw [appendAll, bind_eq_ok]
  constructor
  · rintro ⟨⟨middle, frame⟩, happend, h⟩
    exact ⟨middle, frame, happend, h⟩
  · rintro ⟨middle, frame, happend, h⟩
    exact ⟨(middle, frame), happend, h⟩

theorem appendAll_append {log log' : ReplayLog} {entries entries' : List (Str × PyDict)} :
    log.appendAll P (entries ++ entries') = .ok log' ↔
      ∃ middle, log.appendAll P entries = .ok middle ∧
        middle.appendAll P entries' = .ok log' := by
  induction entries generalizing log with
  | nil => simp [appendAll]
  | cons entry entries ih =>
      obtain ⟨frameId, event⟩ := entry
      simp only [List.cons_append, appendAll_cons, ih]
      constructor
      · rintro ⟨first, frame, happend, middle, hmiddle, h⟩
        exact ⟨middle, ⟨first, frame, happend, hmiddle⟩, h⟩
      · rintro ⟨middle, ⟨first, frame, happend, hmiddle⟩, h⟩
        exact ⟨first, frame, happend, middle, hmiddle, h⟩

theorem appendAll_entries {log log' : ReplayLog} {entries : List (Str × PyDict)}
    (h : log.appendAll P entries = .ok log') :
    log'.usedNonces = log.usedNonces ∧ ∃ frames, log'.frames = log.frames ++ frames ∧
      frames.map ReplayFrame.entry = entries := by
  induction entries generalizing log with
  | nil =>
      obtain rfl := Except.ok.inj h
      exact ⟨rfl, [], by simp, rfl⟩
  | cons entry entries ih =>
      obtain ⟨middle, frame, happend, h⟩ := (appendAll_cons P).mp h
      obtain ⟨hcreate, rfl⟩ := (append_eq_ok P).mp happend
      obtain ⟨hid, -, hevent, -⟩ := (ReplayFrame.create_eq_ok P).mp hcreate
      obtain ⟨hused, frames, hframes, hentries⟩ := ih h
      refine ⟨hused, frame :: frames, by simp [hframes], ?_⟩
      rw [List.map_cons, hentries, ReplayFrame.entry, hid, hevent]

theorem verifyFrom_eq_true {previousHash : Str} {frames : List ReplayFrame} :
    verifyFrom P previousHash frames = .ok true ↔
      HashChain.Linked (ReplayFrame.Seals P) ReplayFrame.frameHash previousHash frames := by
  induction frames generalizing previousHash with
  | nil => simp [verifyFrom, HashChain.Linked]
  | cons frame frames ih =>
      rw [verifyFrom, bind_eq_ok, HashChain.Linked, ← ih]
      constructor
      · rintro ⟨expected, hexpected, h⟩
        split at h
        · cases h
        · rename_i hne
          simp only [not_or, not_not] at hne
          obtain ⟨-, -, -, hdigest⟩ := (ReplayFrame.create_eq_ok P).mp hexpected
          exact ⟨(ReplayFrame.create_eq_ok P).mpr ⟨rfl, hne.1, rfl, hne.2 ▸ hdigest⟩, h⟩
      · rintro ⟨hseals, h⟩
        have hprev := ((ReplayFrame.create_eq_ok P).mp hseals).2.1
        exact ⟨frame, hseals, by rw [if_neg (by simp [hprev])]; exact h⟩

theorem verifyChain_eq_true {log : ReplayLog} : log.verifyChain P = .ok true ↔ log.Linked P :=
  verifyFrom_eq_true P

theorem firstErrorFrom_eq_none {index : Nat} {previousHash : Str} {frames : List ReplayFrame} :
    firstErrorFrom P index previousHash frames = .ok none ↔
      HashChain.Linked (ReplayFrame.Seals P) ReplayFrame.frameHash previousHash frames := by
  induction frames generalizing index previousHash with
  | nil => simp [firstErrorFrom, HashChain.Linked]
  | cons frame frames ih =>
      simp only [firstErrorFrom, bind_eq_ok, HashChain.Linked]
      rw [← @ih (index + 1)]
      constructor
      · rintro ⟨expected, hexpected, rest, hrest, h⟩
        split at h
        · cases h
        · split at h
          · cases h
          · rename_i hprev hhash
            rw [not_not] at hprev hhash
            obtain ⟨-, -, -, hdigest⟩ := (ReplayFrame.create_eq_ok P).mp hexpected
            obtain rfl := Except.ok.inj h
            exact ⟨(ReplayFrame.create_eq_ok P).mpr ⟨rfl, hprev, rfl, hhash ▸ hdigest⟩, hrest⟩
      · rintro ⟨hseals, hrest⟩
        have hprev := ((ReplayFrame.create_eq_ok P).mp hseals).2.1
        refine ⟨frame, hseals, none, hrest, ?_⟩
        rw [if_neg (by simp [hprev]), if_neg (by simp)]

theorem duplicatesFrom_eq_nil {seen : List Str} {frames : List ReplayFrame} :
    duplicatesFrom seen frames = [] ↔
      (frames.map ReplayFrame.frameId).Nodup ∧ ∀ frame ∈ frames, frame.frameId ∉ seen := by
  induction frames generalizing seen with
  | nil => simp [duplicatesFrom]
  | cons frame frames ih =>
      rw [duplicatesFrom, List.append_eq_nil_iff, ih, List.map_cons, List.nodup_cons,
        List.forall_mem_cons]
      have hhead : (if frame.frameId ∈ seen then [frame.frameId] else []) = [] ↔
          frame.frameId ∉ seen := by
        split
        · rename_i h
          simp [h]
        · rename_i h
          simp [h]
      rw [hhead]
      constructor
      · rintro ⟨hseen, hnodup, hrest⟩
        refine ⟨⟨?_, hnodup⟩, hseen, fun f hf hmem => hrest f hf (List.mem_cons_of_mem _ hmem)⟩
        intro hmem
        obtain ⟨f, hf, hid⟩ := List.mem_map.mp hmem
        exact hrest f hf (hid ▸ List.mem_cons_self)
      · rintro ⟨⟨hnot, hnodup⟩, hseen, hrest⟩
        refine ⟨hseen, hnodup, ?_⟩
        intro f hf hmem
        rcases List.mem_cons.mp hmem with hid | hmem
        · exact hnot (List.mem_map.mpr ⟨f, hf, hid⟩)
        · exact hrest f hf hmem

end ReplayLog

end GovernedAutonomy
