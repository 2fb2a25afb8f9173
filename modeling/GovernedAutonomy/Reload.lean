import GovernedAutonomy.Storage

namespace GovernedAutonomy

open Python

namespace ReplayFrame

def bodyTree (frameId previousHash : Str) (event : Json) : Json :=
  .obj [("event", event), ("frame_id", .str frameId), ("previous_hash", .str previousHash)]

def frameTree (frame : ReplayFrame) (event : Json) : Json :=
  .obj [("event", event), ("frame_hash", .str frame.frameHash), ("frame_id", .str frame.frameId),
    ("previous_hash", .str frame.previousHash)]

section Order

variable {α : Type}

theorem event_lt_frame_hash : lit "event" < lit "frame_hash" := by decide

theorem frame_hash_lt_frame_id : lit "frame_hash" < lit "frame_id" := by decide +kernel

theorem frame_id_lt_previous_hash : lit "frame_id" < lit "previous_hash" := by decide +kernel

theorem sortEntries_body (a b c : α) :
    sortEntries [(.str "frame_id", a), (.str "previous_hash", b), (.str "event", c)] =
      .ok [(.str "event", c), (.str "frame_id", a), (.str "previous_hash", b)] := by
  have h₁ := lt_trans event_lt_frame_hash frame_hash_lt_frame_id
  have h₂ := frame_id_lt_previous_hash
  simp [sortEntries, PyKey.isStr, List.insertionSort, List.orderedInsert, keyLe_str, not_le.mpr h₁,
    le_of_lt h₂, not_le.mpr (lt_trans h₁ h₂)]

theorem sortEntries_toDict (a b c d : α) :
    sortEntries [(.str "frame_id", a), (.str "previous_hash", b), (.str "event", c),
        (.str "frame_hash", d)] =
      .ok [(.str "event", c), (.str "frame_hash", d), (.str "frame_id", a),
        (.str "previous_hash", b)] := by
  have h₁ := event_lt_frame_hash
  have h₂ := frame_hash_lt_frame_id
  have h₃ := frame_id_lt_previous_hash
  simp [sortEntries, PyKey.isStr, List.insertionSort, List.orderedInsert, keyLe_str, le_of_lt h₁,
    not_le.mpr h₂, le_of_lt h₃, not_le.mpr (lt_trans h₂ h₃), not_le.mpr (lt_trans h₁ h₂),
    not_le.mpr (lt_trans h₁ (lt_trans h₂ h₃))]

end Order

theorem toTree_str (d : Nat) (s : Str) : (PyVal.str s).toTree d = .ok (.str s) := by
  rw [PyVal.toTree]

theorem toTree_body {d : Nat} {frameId previousHash : Str} {event : PyDict} {t : Json} :
    (body frameId previousHash event).toTree (d + 1) = .ok t ↔
      ∃ e, (PyVal.dict event).toTree d = .ok e ∧ t = bodyTree frameId previousHash e := by
  rw [body, rawBody, PyVal.toTree]
  simp only [PyDict.ofFields, List.map_cons, List.map_nil, PyVal.toTreeEntries_eq_map, toTree_str,
    sortEntries_body, collect, PyKey.text, bind_eq_ok, Except.ok.injEq, exists_eq_left',
    exists_exists_and_eq_and, bodyTree]
  exact exists_congr fun e => and_congr_right fun _ => eq_comm

theorem toTree_toDict {d : Nat} {frame : ReplayFrame} {t : Json} :
    (PyVal.dict frame.toDict).toTree (d + 1) = .ok t ↔
      ∃ e, (PyVal.dict frame.event).toTree d = .ok e ∧ t = frameTree frame e := by
  rw [toDict, PyVal.toTree]
  simp only [PyDict.ofFields, List.map_cons, List.map_nil, PyVal.toTreeEntries_eq_map, toTree_str,
    sortEntries_toDict, collect, PyKey.text, bind_eq_ok, Except.ok.injEq, exists_eq_left',
    exists_exists_and_eq_and, frameTree]
  exact exists_congr fun e => and_congr_right fun _ => eq_comm

variable (P : Primitives)

-- the event as it comes back from the text written for it
def rereadEvent (event : PyDict) : PyDict :=
  match (PyVal.dict event).toTree (P.recursionLimit - 1) with
  | .ok (.obj ms) => Dict.update [] (PyVal.ofTreeMembers ms)
  | _ => event

def reread (frame : ReplayFrame) : ReplayFrame :=
  { frame with event := rereadEvent P frame.event }

-- what tells frames apart in the chain
def stamp (frame : ReplayFrame) : Str × Str × Str :=
  (frame.frameId, frame.previousHash, frame.frameHash)

@[simp]
theorem stamp_reread (frame : ReplayFrame) : (reread P frame).stamp = frame.stamp := rfl

-- every object of the written event has its keys in strictly ascending order
def Stable (event : PyDict) : Prop :=
  ∀ t, (PyVal.dict event).toTree (P.recursionLimit - 1) = .ok t → t.Ascending

theorem stable_of_strKeyed {event : PyDict} (h : (PyVal.dict event).StrKeyed) : Stable P event :=
  fun _ ht => PyVal.toTree_ascending h ht

variable {P}

structure Accepted (frameId previousHash : Str) (event : PyDict) (d : Nat)
    (ms : List (Str × Json)) : Prop where
  limit : P.recursionLimit = d + 1
  tree : (PyVal.dict event).toTree d = .ok (.obj ms)
  clean : (Json.obj ms).EachStr Json.Clean
  frameId : Json.Clean frameId
  previousHash : Json.Clean previousHash

theorem accepted_of_create {frameId previousHash : Str} {event : PyDict} {frame : ReplayFrame}
    (h : create P frameId previousHash event = .ok frame) :
    ∃ d ms, Accepted (P := P) frameId previousHash event d ms := by
  obtain ⟨hpos, hid, hprev, t, ht, hclean⟩ := (create_isOk P).mp ⟨frame, h⟩
  obtain ⟨d, hd⟩ := Nat.exists_eq_add_one_of_ne_zero (Nat.ne_of_gt hpos)
  rw [hd, Nat.add_sub_cancel] at ht
  obtain ⟨-, -, ms, -, rfl, -, -⟩ := PyVal.toTree_dict ht
  exact ⟨d, ms, hd, ht, hclean, hid, hprev⟩

section Accepted

variable {frameId previousHash : Str} {event : PyDict} {d : Nat} {ms : List (Str × Json)}

theorem Accepted.rereadEvent (h : Accepted (P := P) frameId previousHash event d ms) :
    PyVal.dict (rereadEvent P event) = .ofTree (.obj ms) := by
  have hd : P.recursionLimit - 1 = d := by rw [h.limit, Nat.add_sub_cancel]
  rw [ReplayFrame.rereadEvent, hd, h.tree, PyVal.ofTree]

theorem Accepted.stable_iff (h : Accepted (P := P) frameId previousHash event d ms) :
    Stable P event ↔ (Json.obj ms).Ascending := by
  have hd : P.recursionLimit - 1 = d := by rw [h.limit, Nat.add_sub_cancel]
  rw [Stable, hd, h.tree]
  exact ⟨fun hall => hall _ rfl, fun hasc t ht => Except.ok.inj ht ▸ hasc⟩

theorem Accepted.bodyTree (h : Accepted (P := P) frameId previousHash event d ms) :
    (body frameId previousHash event).toTree P.recursionLimit =
      .ok (bodyTree frameId previousHash (.obj ms)) := by
  rw [h.limit]
  exact toTree_body.mpr ⟨_, h.tree, rfl⟩

theorem canonicalDigest_congr {v w : PyVal}
    (h : v.toTree P.recursionLimit = w.toTree P.recursionLimit) :
    canonicalDigest P v = canonicalDigest P w := by
  rw [canonicalDigest, canonicalDigest, canonicalJson, canonicalJson, Interpreter.dumps,
    Interpreter.dumps, h]

-- re-encoding what was read back gives the recorded hash for an event that is stable, and only then
theorem create_reread {frame : ReplayFrame} (h : create P frameId previousHash event = .ok frame)
    (hstable : Stable P event) :
    create P frameId previousHash (rereadEvent P event) = .ok (reread P frame) := by
  obtain ⟨d, ms, hacc⟩ := accepted_of_create h
  obtain ⟨hid, hprev, hevent, hdigest⟩ := (create_eq_ok P).mp h
  refine (create_eq_ok P).mpr ⟨hid, hprev, by rw [reread, hevent], ?_⟩
  rw [show (reread P frame).frameHash = frame.frameHash from rfl, ← hdigest]
  refine canonicalDigest_congr ?_
  rw [hacc.bodyTree, hacc.limit]
  refine toTree_body.mpr ⟨_, ?_, rfl⟩
  rw [hacc.rereadEvent]
  exact PyVal.toTree_ofTree (PyVal.toTree_readable hacc.tree) (hacc.stable_iff.mp hstable)

theorem stable_of_create (hsha : Function.Injective P.sha256) {frame frame' : ReplayFrame}
    (h : create P frameId previousHash event = .ok frame)
    (h' : create P frameId previousHash (rereadEvent P event) = .ok frame')
    (hhash : frame'.frameHash = frame.frameHash) : Stable P event := by
  obtain ⟨d, ms, hacc⟩ := accepted_of_create h
  obtain ⟨d', ms', hacc'⟩ := accepted_of_create h'
  obtain ⟨-, -, -, hdigest⟩ := (create_eq_ok P).mp h
  obtain ⟨-, -, -, hdigest'⟩ := (create_eq_ok P).mp h'
  obtain ⟨bytes, hbytes, hhex⟩ := bind_eq_ok.mp hdigest
  obtain ⟨bytes', hbytes', hhex'⟩ := bind_eq_ok.mp hdigest'
  have hsame : bytes' = bytes := by
    refine hexdigest_injective hsha ?_
    rw [Except.ok.inj hhex, Except.ok.inj hhex', hhash]
  rw [hsame] at hbytes'
  have htrees := canonicalJson_injective P hacc.bodyTree hacc'.bodyTree hbytes hbytes'
  have hms : ms = ms' := by simpa [ReplayFrame.bodyTree] using htrees
  have hd : d' = d := by have := hacc.limit.symm.trans hacc'.limit; omega
  have htree := hacc'.tree
  rw [← hms, hd, hacc.rereadEvent] at htree
  exact hacc.stable_iff.mpr ((PyVal.toTree_ofTree_iff (PyVal.toTree_readable hacc.tree)).mp htree)

theorem linked_reread {previousHash : Str} {frames : List ReplayFrame}
    (h : HashChain.Linked (Seals P) frameHash previousHash frames)
    (hstable : ∀ frame ∈ frames, Stable P frame.event) :
    HashChain.Linked (Seals P) frameHash previousHash (frames.map (reread P)) := by
  induction frames generalizing previousHash with
  | nil => trivial
  | cons frame frames ih =>
      obtain ⟨hseals, hlinked⟩ := h
      obtain ⟨hhead, htail⟩ := List.forall_mem_cons.mp hstable
      exact ⟨create_reread hseals hhead, ih hlinked htail⟩

theorem stable_of_linked (hsha : Function.Injective P.sha256) {previousHash : Str}
    {frames : List ReplayFrame} (h : HashChain.Linked (Seals P) frameHash previousHash frames)
    (h' : HashChain.Linked (Seals P) frameHash previousHash (frames.map (reread P))) :
    ∀ frame ∈ frames, Stable P frame.event := by
  induction frames generalizing previousHash with
  | nil => simp
  | cons frame frames ih =>
      exact List.forall_mem_cons.mpr
        ⟨stable_of_create hsha h.1 h'.1 rfl, ih h.2 h'.2⟩

-- the object on one line of the file, read back
def rereadFields (frame : ReplayFrame) : PyDict :=
  PyDict.ofFields
    [("event", .dict (rereadEvent P frame.event)), ("frame_hash", .str frame.frameHash),
      ("frame_id", .str frame.frameId), ("previous_hash", .str frame.previousHash)]

theorem toTree_frame {frame : ReplayFrame} (hseals : Seals P previousHash frame)
    (hacc : Accepted (P := P) frame.frameId previousHash frame.event d ms) :
    (PyVal.dict frame.toDict).toTree P.recursionLimit = .ok (frameTree frame (.obj ms)) ∧
      (frameTree frame (.obj ms)).EachStr Json.Clean := by
  have hprev := ((create_eq_ok P).mp hseals).2.1
  have hhash := clean_frameHash P hseals
  have hkey : ∀ s : String, Json.Clean (lit s) := fun s p hp => not_isSurrogate_of_mem_lit hp
  refine ⟨?_, ?_⟩
  · rw [hacc.limit]
    exact toTree_toDict.mpr ⟨_, hacc.tree, rfl⟩
  · simp only [frameTree, Json.EachStr, Json.EachStrMembers]
    exact ⟨hkey _, hacc.clean, hkey _, hhash, hkey _, hacc.frameId, hkey _,
      hprev ▸ hacc.previousHash, trivial⟩

theorem ofTree_frame {frame : ReplayFrame}
    (hacc : Accepted (P := P) frame.frameId previousHash frame.event d ms) :
    PyVal.ofTree (frameTree frame (.obj ms)) = .dict (rereadFields (P := P) frame) := by
  have hkeys : [(lit "event", Json.obj ms), ("frame_hash", .str frame.frameHash),
      ("frame_id", .str frame.frameId), ("previous_hash", .str frame.previousHash)].Pairwise
        (fun a b => a.1 < b.1) := by
    have h₁ := event_lt_frame_hash
    have h₂ := frame_hash_lt_frame_id
    have h₃ := frame_id_lt_previous_hash
    simp [h₁, h₂, h₃, lt_trans h₁ h₂, lt_trans h₂ h₃, lt_trans h₁ (lt_trans h₂ h₃)]
  rw [frameTree, PyVal.ofTree, Dict.update_nil_of_distinct (PyVal.distinct_ofTreeMembers hkeys),
    rereadFields, hacc.rereadEvent]
  simp only [PyVal.ofTreeMembers, PyVal.ofTree, PyDict.ofFields, List.map_cons, List.map_nil]

theorem loads_render {sty : Style} (hsty : sty.ascii = true) {t : Json} {v : PyVal} {n : Nat}
    (hn : n ≤ P.recursionLimit) (ht : v.toTree n = .ok t) (hclean : t.EachStr Json.Clean) :
    P.loads (t.render sty) = .ok (.ofTree t) := by
  have hreadable : t.Readable sty.ascii P.recursionLimit := by
    rw [hsty]
    exact Json.readable_ascii (PyVal.toTree_readable (PyVal.toTree_mono ht hn)) hclean
  rw [Interpreter.loads, Json.parseDocument_render sty hreadable]

theorem dumps_of_toTree {sty : Style} {t : Json} {v : PyVal} {n : Nat}
    (hn : n ≤ P.recursionLimit) (ht : v.toTree n = .ok t) : P.dumps sty v = .ok (t.render sty) := by
  rw [Interpreter.dumps, PyVal.toTree_mono ht hn]
  rfl

end Accepted

end ReplayFrame

namespace FileReplayLog

variable {P : Primitives}

-- the text of a line: it is one line of printable text that reads back field by field
structure Line (frame : ReplayFrame) (text : Str) : Prop where
  written : frameLine P frame = .ok (text ++ lit "\n")
  printable : ∀ p ∈ text, Printable p
  read : P.loads text = .ok (.dict (ReplayFrame.rereadFields (P := P) frame))

theorem exists_line {frame : ReplayFrame} {previousHash : Str}
    (h : ReplayFrame.Seals P previousHash frame) : ∃ text, Line (P := P) frame text := by
  obtain ⟨d, ms, hacc⟩ := ReplayFrame.accepted_of_create h
  obtain ⟨htree, hclean⟩ := ReplayFrame.toTree_frame h hacc
  refine ⟨(ReplayFrame.frameTree frame (.obj ms)).render lineStyle, ?_, ?_, ?_⟩
  · rw [frameLine, ReplayFrame.dumps_of_toTree (le_refl _) htree]
    rfl
  · exact Json.render_printable rfl _
  · rw [ReplayFrame.loads_render rfl (le_refl _) htree hclean, ReplayFrame.ofTree_frame hacc]

theorem readFrame_line {frame : ReplayFrame} {text : Str} (h : Line (P := P) frame text)
    (number : Nat) :
    readFrame P number text = .ok ⟨.str frame.frameId, .str frame.previousHash,
      .dict (ReplayFrame.rereadEvent P frame.event), .str frame.frameHash⟩ := by
  rw [readFrame, reraise_eq_ok, h.read]
  simp [frameField, ReplayFrame.rereadFields, bind, Except.bind]

-- an execution event must name its nonce, by something that can be a member of a set
def CarriesNonce (event : PyDict) : Prop :=
  event.getD "type" = .str "execution" →
    ∃ nonce, event.get "nonce" = some nonce ∧ nonce.hashable = true

theorem ite_isOk {α : Type} {c : Prop} [Decidable c] {a : α} {e : Exc} :
    (∃ b, (if c then (.ok a : Result α) else .error e) = .ok b) ↔ c := by
  by_cases h : c
  · simp [h]
  · simp [h]

theorem spend_isOk {log : ReplayLog} {event : PyDict} :
    (∃ log', spend log event = .ok log') ↔ CarriesNonce event := by
  unfold spend CarriesNonce
  by_cases hkind : event.getD "type" = .str "execution"
  · rw [if_pos (PyVal.eq_str_right.mpr hkind)]
    cases hnonce : event.get "nonce" with
    | none => simp [hkind]
    | some nonce =>
        cases nonce with
        | str s => simp [PyVal.hashable]
        | _ =>
            simp only [ite_isOk, hkind, forall_const, Option.some.injEq, exists_eq_left']
  · rw [if_neg (fun h => hkind (PyVal.eq_str_right.mp h))]
    simp [hkind]

theorem spend_eq_ok {log log' : ReplayLog} {event : PyDict} (h : spend log event = .ok log') :
    log'.frames = log.frames ∧ ∀ n, n ∈ log'.usedNonces ↔ n ∈ log.usedNonces ∨
      event.getD "type" = .str "execution" ∧ event.getD "nonce" = .str n := by
  unfold spend at h
  split at h
  · rename_i hkind
    have hkind := PyVal.eq_str_right.mp hkind
    split at h
    · cases h
    · rename_i nonce hnonce
      obtain rfl := Except.ok.inj h
      refine ⟨rfl, ?_⟩
      intro n
      rw [PyDict.getD_of_get hnonce]
      simp [hkind, or_comm, eq_comm]
    · rename_i nonce hother hnonce
      split at h
      · obtain rfl := Except.ok.inj h
        refine ⟨rfl, ?_⟩
        intro n
        rw [PyDict.getD_of_get hnonce]
        have hne : nonce ≠ .str n := fun heq => hother n heq
        simp [hne]
      · cases h
  · rename_i hkind
    obtain rfl := Except.ok.inj h
    refine ⟨rfl, ?_⟩
    intro n
    have hne : event.getD "type" ≠ .str "execution" :=
      fun heq => hkind (PyVal.eq_str_right.mpr heq)
    simp [hne]

theorem loadLine_eq_ok {log log' : ReplayLog} {frame : ReplayFrame} {text : Str} (number : Nat)
    (hseals : ReplayFrame.Seals P log.headHash frame) (hline : Line (P := P) frame text) :
    loadLine P number log text = .ok log' ↔
      ReplayFrame.Seals P log.headHash (ReplayFrame.reread P frame) ∧
        spend { log with frames := log.frames ++ [ReplayFrame.reread P frame] }
          (ReplayFrame.rereadEvent P frame.event) = .ok log' := by
  have hprev := ((ReplayFrame.create_eq_ok P).mp hseals).2.1
  simp only [loadLine, readFrame_line hline, bind_eq_ok, raiseIf_eq_ok, Except.ok.injEq,
    exists_eq_left', Bool.not_eq_false, PyVal.eq_str_right, PyVal.str.injEq]
  constructor
  · rintro ⟨expected, hexpected, -, hhash, -, -, h⟩
    obtain rfl := hhash
    refine ⟨(ReplayFrame.create_eq_ok P).mpr ⟨rfl, hprev, rfl, ?_⟩, ?_⟩
    · rwa [hprev] at hexpected
    · rwa [← hprev] at h
  · rintro ⟨hsealed, h⟩
    obtain ⟨-, -, -, hdigest⟩ := (ReplayFrame.create_eq_ok P).mp hsealed
    rw [← hprev] at hdigest
    refine ⟨frame.frameHash, hdigest, (), rfl, (), hprev, ?_⟩
    rwa [← hprev]

theorem loadLines_isOk {log : ReplayLog} {frames : List ReplayFrame} {texts : List Str}
    (number : Nat) (hlines : List.Forall₂ (Line (P := P)) frames texts)
    (hlinked : HashChain.Linked (ReplayFrame.Seals P) ReplayFrame.frameHash log.headHash frames) :
    (∃ log', loadLines P number log texts = .ok log') ↔
      HashChain.Linked (ReplayFrame.Seals P) ReplayFrame.frameHash log.headHash
          (frames.map (ReplayFrame.reread P)) ∧
        ∀ frame ∈ frames, CarriesNonce (ReplayFrame.rereadEvent P frame.event) := by
  induction hlines generalizing number log with
  | nil => simp [loadLines, HashChain.Linked]
  | @cons frame text frames texts hline hlines ih =>
      obtain ⟨hseals, hrest⟩ := hlinked
      rw [List.map_cons, HashChain.Linked, List.forall_mem_cons]
      have hhead : ∀ middle, loadLine P number log text = .ok middle →
          middle.headHash = frame.frameHash := by
        intro middle hmiddle
        obtain ⟨-, hspend⟩ := (loadLine_eq_ok number hseals hline).mp hmiddle
        rw [ReplayLog.headHash, (spend_eq_ok hspend).1, HashChain.tip_snoc]
        rfl
      constructor
      · rintro ⟨log', h⟩
        obtain ⟨middle, hmiddle, h⟩ := bind_eq_ok.mp h
        obtain ⟨hsealed, hspend⟩ := (loadLine_eq_ok number hseals hline).mp hmiddle
        have hnext := hhead middle hmiddle
        obtain ⟨hlinked, hcarries⟩ :=
          (ih (number + 1) (by rwa [hnext])).mp ⟨log', h⟩
        rw [hnext] at hlinked
        exact ⟨⟨hsealed, hlinked⟩, spend_isOk.mp ⟨middle, hspend⟩, hcarries⟩
      · rintro ⟨⟨hsealed, hlinked⟩, hcarry, hcarries⟩
        obtain ⟨middle, hspend⟩ := spend_isOk.mpr hcarry
        have hmiddle := (loadLine_eq_ok number hseals hline).mpr ⟨hsealed, hspend⟩
        have hnext := hhead middle hmiddle
        obtain ⟨log', h⟩ : ∃ log', loadLines P (number + 1) middle texts = .ok log' :=
          (ih (number + 1) (by rwa [hnext])).mpr ⟨by rwa [hnext], hcarries⟩
        exact ⟨log', bind_eq_ok.mpr ⟨middle, hmiddle, h⟩⟩

theorem loadLines_eq_ok {log log' : ReplayLog} {frames : List ReplayFrame} {texts : List Str}
    (number : Nat) (hlines : List.Forall₂ (Line (P := P)) frames texts)
    (hlinked : HashChain.Linked (ReplayFrame.Seals P) ReplayFrame.frameHash log.headHash frames)
    (h : loadLines P number log texts = .ok log') :
    log'.frames = log.frames ++ frames.map (ReplayFrame.reread P) ∧
      ∀ n, n ∈ log'.usedNonces ↔ n ∈ log.usedNonces ∨
        ∃ frame ∈ frames, ReplayLog.isExecutionOf n (ReplayFrame.reread P frame) = true := by
  induction hlines generalizing number log with
  | nil =>
      obtain rfl := Except.ok.inj h
      simp
  | @cons frame text frames texts hline hlines ih =>
      obtain ⟨hseals, hrest⟩ := hlinked
      obtain ⟨middle, hmiddle, h⟩ := bind_eq_ok.mp h
      obtain ⟨-, hspend⟩ := (loadLine_eq_ok number hseals hline).mp hmiddle
      obtain ⟨hframes, hused⟩ := spend_eq_ok hspend
      have hnext : middle.headHash = frame.frameHash := by
        rw [ReplayLog.headHash, hframes, HashChain.tip_snoc]
        rfl
      obtain ⟨hframes', hused'⟩ := ih (number + 1) (by rwa [hnext]) h
      refine ⟨by rw [hframes', hframes, List.map_cons, List.append_assoc]; rfl, ?_⟩
      intro n
      rw [hused', hused]
      simp only [List.mem_cons, exists_eq_or_imp, ReplayLog.isExecutionOf_iff, or_assoc,
        ReplayFrame.reread]

-- the file holds a line for every frame of the log
structure Mirrors (file : FileReplayLog) : Prop where
  linked : file.log.Linked P
  lines : ∃ texts, List.Forall₂ (Line (P := P)) file.log.frames texts ∧
    file.text = texts.flatMap (fun text => text ++ lit "\n")

theorem lines_printable {frames : List ReplayFrame} {texts : List Str}
    (h : List.Forall₂ (Line (P := P)) frames texts) : ∀ text ∈ texts, ∀ p ∈ text, Printable p := by
  induction h with
  | nil => simp
  | cons hline _ ih => exact List.forall_mem_cons.mpr ⟨hline.printable, ih⟩

theorem Mirrors.split {file : FileReplayLog} (h : file.Mirrors (P := P)) :
    ∃ texts, List.Forall₂ (Line (P := P)) file.log.frames texts ∧ splitLines file.text = texts := by
  obtain ⟨-, texts, hlines, htext⟩ := h
  exact ⟨texts, hlines, by rw [htext, splitLines_unlines (lines_printable hlines)]⟩

theorem loadJsonl_isOk {file : FileReplayLog} (h : file.Mirrors (P := P)) :
    (∃ file', loadJsonl P file.text = .ok file') ↔
      HashChain.Linked (ReplayFrame.Seals P) ReplayFrame.frameHash []
          (file.log.frames.map (ReplayFrame.reread P)) ∧
        ∀ frame ∈ file.log.frames, CarriesNonce (ReplayFrame.rereadEvent P frame.event) := by
  obtain ⟨texts, hlines, hsplit⟩ := h.split
  refine Iff.trans ?_ (@loadLines_isOk P {} _ _ 1 hlines h.linked)
  simp only [loadJsonl, hsplit, bind_eq_ok]
  exact ⟨fun ⟨_, log, hlog, _⟩ => ⟨log, hlog⟩, fun ⟨log, hlog⟩ => ⟨_, log, hlog, rfl⟩⟩

theorem loadJsonl_eq_ok {file file' : FileReplayLog} (h : file.Mirrors (P := P))
    (hload : loadJsonl P file.text = .ok file') :
    file'.text = file.text ∧ file'.log.frames = file.log.frames.map (ReplayFrame.reread P) ∧
      ∀ n, n ∈ file'.log.usedNonces ↔ ∃ frame ∈ file.log.frames,
        ReplayLog.isExecutionOf n (ReplayFrame.reread P frame) = true := by
  obtain ⟨texts, hlines, hsplit⟩ := h.split
  simp only [loadJsonl, hsplit, bind_eq_ok] at hload
  obtain ⟨log, hlog, hload⟩ := hload
  obtain rfl := Except.ok.inj hload
  obtain ⟨hframes, hused⟩ := @loadLines_eq_ok P {} _ _ _ 1 hlines h.linked hlog
  exact ⟨rfl, hframes, fun n => by simp [hused n]⟩

theorem mirrors_empty : ({} : FileReplayLog).Mirrors (P := P) := ⟨trivial, [], .nil, rfl⟩

theorem append_eq_ok {file file' : FileReplayLog} {frameId : Str} {event : PyDict}
    {frame : ReplayFrame} (h : file.append P frameId event = .ok (file', frame)) :
    ∃ line, file.log.append P frameId event = .ok (file'.log, frame) ∧
      frameLine P frame = .ok line ∧ file'.text = file.text ++ line := by
  simp only [append, bind_eq_ok] at h
  obtain ⟨⟨log, frame'⟩, happend, line, hline, h⟩ := h
  obtain ⟨rfl, rfl⟩ := Prod.mk.inj (Except.ok.inj h)
  exact ⟨line, happend, hline, rfl⟩

theorem Mirrors.append {file file' : FileReplayLog} {frameId : Str} {event : PyDict}
    {frame : ReplayFrame} (hfile : file.Mirrors (P := P))
    (h : file.append P frameId event = .ok (file', frame)) : file'.Mirrors (P := P) := by
  obtain ⟨line, happend, hline, htext⟩ := append_eq_ok h
  obtain ⟨hlinked, texts, hlines, hfiletext⟩ := hfile
  obtain ⟨hcreate, hlog⟩ := (ReplayLog.append_eq_ok P).mp happend
  obtain ⟨text, hwritten⟩ := exists_line (ReplayFrame.seals_of_create P hcreate)
  have hsame := hwritten.written.symm.trans hline
  obtain rfl := Except.ok.inj hsame
  refine ⟨ReplayLog.linked_append P hlinked happend, texts ++ [text], ?_, ?_⟩
  · rw [hlog]
    exact List.rel_append hlines (.cons hwritten .nil)
  · rw [htext, hfiletext, List.flatMap_append]
    simp

theorem Mirrors.appendAll {file file' : FileReplayLog} {entries : List (Str × PyDict)}
    (hfile : file.Mirrors (P := P)) (h : file.appendAll P entries = .ok file') :
    file'.Mirrors (P := P) ∧ file.log.appendAll P entries = .ok file'.log := by
  induction entries generalizing file with
  | nil =>
      obtain rfl := Except.ok.inj h
      exact ⟨hfile, rfl⟩
  | cons entry entries ih =>
      obtain ⟨frameId, event⟩ := entry
      obtain ⟨⟨middle, frame⟩, happend, h⟩ := bind_eq_ok.mp h
      obtain ⟨hmirrors, hrest⟩ := ih (hfile.append happend) h
      obtain ⟨line, hlog, -⟩ := append_eq_ok happend
      exact ⟨hmirrors, (ReplayLog.appendAll_cons P).mpr ⟨middle.log, frame, hlog, hrest⟩⟩

end FileReplayLog

namespace SQLiteReplayLog

variable {P : Primitives}

structure Row (frame : ReplayFrame) (row : FrameRow) : Prop where
  written : frameRow P frame = .ok row
  read : readRow P row = .ok (ReplayFrame.reread P frame)

theorem exists_row {frame : ReplayFrame} {previousHash : Str}
    (h : ReplayFrame.Seals P previousHash frame) : ∃ row, Row (P := P) frame row := by
  obtain ⟨d, ms, hacc⟩ := ReplayFrame.accepted_of_create h
  have hd : d ≤ P.recursionLimit := by have := hacc.limit; omega
  refine ⟨⟨frame.frameId, frame.previousHash, (Json.obj ms).render rowStyle, frame.frameHash⟩,
    ?_, ?_⟩
  · rw [frameRow, ReplayFrame.dumps_of_toTree hd hacc.tree]
    rfl
  · rw [readRow, ReplayFrame.loads_render rfl hd hacc.tree hacc.clean, ← hacc.rereadEvent]
    rfl

structure Mirrors (db : SQLiteReplayLog) : Prop where
  linked : db.log.Linked P
  rows : List.Forall₂ (Row (P := P)) db.log.frames db.tables.replayFrames

theorem mirrors_empty : ({} : SQLiteReplayLog).Mirrors (P := P) := ⟨trivial, .nil⟩

theorem insertFrame_eq_ok {tables tables' : Tables} {row : FrameRow}
    (h : insertFrame tables row = .ok tables') :
    tables' = { tables with replayFrames := tables.replayFrames ++ [row] } := by
  unfold insertFrame at h
  split at h
  · cases h
  · exact (Except.ok.inj h).symm

theorem append_eq_ok {db db' : SQLiteReplayLog} {frameId : Str} {event : PyDict}
    {frame : ReplayFrame} (h : db.append P frameId event = .ok (db', frame)) :
    db.log.append P frameId event = .ok (db'.log, frame) ∧ ∃ row, frameRow P frame = .ok row ∧
      db'.tables = { db.tables with replayFrames := db.tables.replayFrames ++ [row] } := by
  simp only [append, bind_eq_ok, reraise_eq_ok] at h
  obtain ⟨frame', hcreate, tables, ⟨row, hrow, hinsert⟩, h⟩ := h
  obtain ⟨rfl, rfl⟩ := Prod.mk.inj (Except.ok.inj h)
  exact ⟨(ReplayLog.append_eq_ok P).mpr ⟨hcreate, rfl⟩, row, hrow, insertFrame_eq_ok hinsert⟩

theorem Mirrors.append {db db' : SQLiteReplayLog} {frameId : Str} {event : PyDict}
    {frame : ReplayFrame} (hdb : db.Mirrors (P := P))
    (h : db.append P frameId event = .ok (db', frame)) : db'.Mirrors (P := P) := by
  obtain ⟨happend, row, hrow, htables⟩ := append_eq_ok h
  obtain ⟨hcreate, hlog⟩ := (ReplayLog.append_eq_ok P).mp happend
  obtain ⟨row', hwritten⟩ := exists_row (ReplayFrame.seals_of_create P hcreate)
  obtain rfl := Except.ok.inj (hwritten.written.symm.trans hrow)
  refine ⟨ReplayLog.linked_append P hdb.linked happend, ?_⟩
  rw [hlog, htables]
  exact List.rel_append hdb.rows (.cons hwritten .nil)

theorem Mirrors.appendAll {db db' : SQLiteReplayLog} {entries : List (Str × PyDict)}
    (hdb : db.Mirrors (P := P)) (h : db.appendAll P entries = .ok db') :
    db'.Mirrors (P := P) ∧ db.log.appendAll P entries = .ok db'.log := by
  induction entries generalizing db with
  | nil =>
      obtain rfl := Except.ok.inj h
      exact ⟨hdb, rfl⟩
  | cons entry entries ih =>
      obtain ⟨frameId, event⟩ := entry
      obtain ⟨⟨middle, frame⟩, happend, h⟩ := bind_eq_ok.mp h
      obtain ⟨hmirrors, hrest⟩ := ih (hdb.append happend) h
      exact ⟨hmirrors, (ReplayLog.appendAll_cons P).mpr
        ⟨middle.log, frame, (append_eq_ok happend).1, hrest⟩⟩

theorem readRows_eq {frames : List ReplayFrame} {rows : List FrameRow}
    (h : List.Forall₂ (Row (P := P)) frames rows) :
    readRows P rows = .ok (frames.map (ReplayFrame.reread P)) := by
  induction h with
  | nil => rfl
  | cons hrow _ ih =>
      rw [readRows, hrow.read, ih]
      rfl

theorem reopen_eq_ok {db db' : SQLiteReplayLog} (h : db.Mirrors (P := P)) :
    reopen P db.tables = .ok db' ↔
      HashChain.Linked (ReplayFrame.Seals P) ReplayFrame.frameHash []
          (db.log.frames.map (ReplayFrame.reread P)) ∧
        db' = ⟨⟨db.log.frames.map (ReplayFrame.reread P), db.tables.consumedNonces⟩,
          db.tables⟩ := by
  simp only [reopen, readRows_eq h.rows, bind_eq_ok, Except.ok.injEq, exists_eq_left',
    raiseIf_eq_ok, Bool.not_eq_false]
  constructor
  · rintro ⟨valid, hvalid, -, rfl, rfl⟩
    exact ⟨(ReplayLog.verifyChain_eq_true P).mp hvalid, rfl⟩
  · rintro ⟨hlinked, rfl⟩
    exact ⟨true, (ReplayLog.verifyChain_eq_true P).mpr hlinked, (), rfl, rfl⟩

end SQLiteReplayLog

namespace ReplayLog

variable (P : Primitives)

structure Reloaded (log log' : ReplayLog) : Prop where
  valid : log'.verifyChain P = .ok true
  stamps : log'.frames.map ReplayFrame.stamp = log.frames.map ReplayFrame.stamp

variable {P}

theorem reloaded_of_linked {log log' : ReplayLog}
    (hframes : log'.frames = log.frames.map (ReplayFrame.reread P))
    (hlinked : HashChain.Linked (ReplayFrame.Seals P) ReplayFrame.frameHash []
      (log.frames.map (ReplayFrame.reread P))) : Reloaded P log log' := by
  refine ⟨(verifyChain_eq_true P).mpr ?_, ?_⟩
  · rwa [Linked, hframes]
  · rw [hframes, List.map_map]
    rfl

theorem jsonl_reloads_iff (hsha : Function.Injective P.sha256) {file : FileReplayLog}
    (h : file.Mirrors (P := P)) :
    (∃ file', FileReplayLog.loadJsonl P file.text = .ok file' ∧ Reloaded P file.log file'.log) ↔
      ∀ frame ∈ file.log.frames, ReplayFrame.Stable P frame.event ∧
        FileReplayLog.CarriesNonce (ReplayFrame.rereadEvent P frame.event) := by
  have hload := FileReplayLog.loadJsonl_isOk h
  constructor
  · rintro ⟨file', hfile', -⟩
    obtain ⟨hlinked, hcarries⟩ := hload.mp ⟨file', hfile'⟩
    have hstable := ReplayFrame.stable_of_linked hsha h.linked hlinked
    exact fun frame hframe => ⟨hstable frame hframe, hcarries frame hframe⟩
  · intro hall
    have hlinked := ReplayFrame.linked_reread h.linked fun frame hframe => (hall frame hframe).1
    obtain ⟨file', hfile'⟩ := hload.mpr ⟨hlinked, fun frame hframe => (hall frame hframe).2⟩
    obtain ⟨-, hframes, -⟩ := FileReplayLog.loadJsonl_eq_ok h hfile'
    exact ⟨file', hfile', reloaded_of_linked hframes hlinked⟩

theorem sqlite_reloads_iff (hsha : Function.Injective P.sha256) {db : SQLiteReplayLog}
    (h : db.Mirrors (P := P)) :
    (∃ db', SQLiteReplayLog.reopen P db.tables = .ok db' ∧ Reloaded P db.log db'.log) ↔
      ∀ frame ∈ db.log.frames, ReplayFrame.Stable P frame.event := by
  constructor
  · rintro ⟨db', hdb', -⟩
    exact ReplayFrame.stable_of_linked hsha h.linked ((SQLiteReplayLog.reopen_eq_ok h).mp hdb').1
  · intro hall
    have hlinked := ReplayFrame.linked_reread h.linked hall
    exact ⟨_, (SQLiteReplayLog.reopen_eq_ok h).mpr ⟨hlinked, rfl⟩,
      reloaded_of_linked rfl hlinked⟩

theorem forall_frames_iff {log : ReplayLog} {entries : List (Str × PyDict)} {Q : PyDict → Prop}
    (h : ({} : ReplayLog).appendAll P entries = .ok log) :
    (∀ frame ∈ log.frames, Q frame.event) ↔ ∀ entry ∈ entries, Q entry.2 := by
  obtain ⟨-, frames, hframes, hentries⟩ := appendAll_entries P h
  have hframes : log.frames = frames := hframes
  rw [hframes, ← hentries, List.forall_mem_map]
  rfl

theorem reload_round_trip_iff (hsha : Function.Injective P.sha256)
    (entries : List (Str × PyDict)) :
    (∀ file, FileReplayLog.appendAll P {} entries = .ok file →
      ((∃ file', FileReplayLog.loadJsonl P file.text = .ok file' ∧
          Reloaded P file.log file'.log) ↔
        ∀ entry ∈ entries, ReplayFrame.Stable P entry.2 ∧
          FileReplayLog.CarriesNonce (ReplayFrame.rereadEvent P entry.2))) ∧
    ∀ db, SQLiteReplayLog.appendAll P {} entries = .ok db →
      ((∃ db', SQLiteReplayLog.reopen P db.tables = .ok db' ∧ Reloaded P db.log db'.log) ↔
        ∀ entry ∈ entries, ReplayFrame.Stable P entry.2) := by
  constructor
  · intro file hfile
    obtain ⟨hmirrors, hlog⟩ := FileReplayLog.mirrors_empty.appendAll hfile
    rw [jsonl_reloads_iff hsha hmirrors]
    exact forall_frames_iff (Q := fun event => ReplayFrame.Stable P event ∧
      FileReplayLog.CarriesNonce (ReplayFrame.rereadEvent P event)) hlog
  · intro db hdb
    obtain ⟨hmirrors, hlog⟩ := SQLiteReplayLog.mirrors_empty.appendAll hdb
    rw [sqlite_reloads_iff hsha hmirrors]
    exact forall_frames_iff hlog

-- what execute records when a handler returns the dict with keys 2 and 10
def intKeyed : List (Str × PyDict) :=
  [("execution:n-1", PyDict.ofFields
    [("type", .str "execution"), ("nonce", .str "n-1"), ("status", .str "completed"),
      ("result", .dict [(.int 2, .str "two"), (.int 10, .str "ten")])])]

theorem intKeyed_file :
    (FileReplayLog.appendAll referencePrimitives {} intKeyed).toOption.any (fun _ => true) =
      true := by
  decide +kernel

theorem intKeyed_rows :
    (SQLiteReplayLog.appendAll referencePrimitives {} intKeyed).toOption.any (fun _ => true) =
      true := by
  decide +kernel

theorem intKeyed_unsorted :
    intKeyed.all (fun entry => ((PyVal.dict entry.2).toTree 99).toOption.any
      (fun t => decide (¬ t.Ascending))) = true := by
  decide

theorem reload_round_trip_iff_intKeyed :
    (∃ file, FileReplayLog.appendAll referencePrimitives {} intKeyed = .ok file ∧
      ((∃ file', FileReplayLog.loadJsonl referencePrimitives file.text = .ok file' ∧
          Reloaded referencePrimitives file.log file'.log) ↔
        ∀ entry ∈ intKeyed, ReplayFrame.Stable referencePrimitives entry.2 ∧
          FileReplayLog.CarriesNonce (ReplayFrame.rereadEvent referencePrimitives entry.2))) ∧
    ∃ db, SQLiteReplayLog.appendAll referencePrimitives {} intKeyed = .ok db ∧
      ((∃ db', SQLiteReplayLog.reopen referencePrimitives db.tables = .ok db' ∧
          Reloaded referencePrimitives db.log db'.log) ↔
        ∀ entry ∈ intKeyed, ReplayFrame.Stable referencePrimitives entry.2) := by
  obtain ⟨file, hfile, -⟩ := isOk_of_any intKeyed_file
  obtain ⟨db, hdb, -⟩ := isOk_of_any intKeyed_rows
  obtain ⟨hjsonl, hsqlite⟩ :=
    reload_round_trip_iff referencePrimitives_sha256_injective intKeyed
  exact ⟨⟨file, hfile, hjsonl file hfile⟩, db, hdb, hsqlite db hdb⟩

theorem intKeyed_unstable :
    ¬ ∀ entry ∈ intKeyed, ReplayFrame.Stable referencePrimitives entry.2 := by
  intro h
  obtain ⟨t, ht, hunsorted⟩ := isOk_of_any
    (List.all_eq_true.mp intKeyed_unsorted _ (List.mem_singleton.mpr rfl))
  exact of_decide_eq_true hunsorted (h _ (List.mem_singleton.mpr rfl) t ht)

theorem reload_round_trip_fails :
    ¬ ((∀ (P : Primitives) (entries : List (Str × PyDict)) (file : FileReplayLog),
        FileReplayLog.appendAll P {} entries = .ok file →
          ∃ file', FileReplayLog.loadJsonl P file.text = .ok file' ∧
            Reloaded P file.log file'.log) ∧
      ∀ (P : Primitives) (entries : List (Str × PyDict)) (db : SQLiteReplayLog),
        SQLiteReplayLog.appendAll P {} entries = .ok db →
          ∃ db', SQLiteReplayLog.reopen P db.tables = .ok db' ∧ Reloaded P db.log db'.log) := by
  rintro ⟨-, h⟩
  obtain ⟨db, hdb, -⟩ := isOk_of_any intKeyed_rows
  obtain ⟨hmirrors, hlog⟩ := SQLiteReplayLog.mirrors_empty.appendAll hdb
  have hstable := (sqlite_reloads_iff referencePrimitives_sha256_injective hmirrors).mp
    (h referencePrimitives intKeyed db hdb)
  exact intKeyed_unstable ((forall_frames_iff hlog).mp hstable)

end ReplayLog

end GovernedAutonomy
