import GovernedAutonomy.Anchor
import GovernedAutonomy.Demo
import GovernedAutonomy.Python.Same
import GovernedAutonomy.Reload

namespace GovernedAutonomy

open Python

namespace ReplayFrame

variable {P : Primitives} {frame frame' : ReplayFrame} {previousHash previousHash' : Str}

-- one frame, up to the order of the keys in its event
structure Same (frame frame' : ReplayFrame) : Prop where
  frameId : frame.frameId = frame'.frameId
  previousHash : frame.previousHash = frame'.previousHash
  frameHash : frame.frameHash = frame'.frameHash
  event : PyVal.Same (.dict frame.event) (.dict frame'.event)

-- frames that no JSON text tells apart
structure SameJson (P : Primitives) (frame frame' : ReplayFrame) : Prop where
  frameId : frame.frameId = frame'.frameId
  previousHash : frame.previousHash = frame'.previousHash
  frameHash : frame.frameHash = frame'.frameHash
  event : canonicalJson P (.dict frame.event) = canonicalJson P (.dict frame'.event)

theorem frameHash_ne_nil (h : Seals P previousHash frame) : frame.frameHash ≠ [] := by
  obtain ⟨-, -, -, hdigest⟩ := (create_eq_ok P).mp h
  exact (canonicalDigest_eq_ok hdigest).1

theorem canonicalJson_of_toTree {v w : PyVal}
    (h : v.toTree P.recursionLimit = w.toTree P.recursionLimit) :
    canonicalJson P v = canonicalJson P w := by
  rw [canonicalJson, canonicalJson, Interpreter.dumps, Interpreter.dumps, h]

theorem Same.sameJson_iff (hjson : (PyVal.dict frame.event).IsJson)
    (hjson' : (PyVal.dict frame'.event).IsJson) (h : Seals P previousHash frame) :
    SameJson P frame frame' ↔ Same frame frame' := by
  obtain ⟨d, ms, hacc⟩ := accepted_of_create h
  have htree := PyVal.toTree_mono hacc.tree (show d ≤ P.recursionLimit by rw [hacc.limit]; omega)
  constructor
  · rintro ⟨hid, hprev, hhash, hevent⟩
    refine ⟨hid, hprev, hhash, ?_⟩
    obtain ⟨bytes, hbytes⟩ := (canonicalJson_isOk P).mpr ⟨_, htree, hacc.clean⟩
    obtain ⟨t, ht, -⟩ := (canonicalJson_eq_ok P).mp (hevent.symm.trans hbytes)
    have hsame := canonicalJson_injective P htree ht hbytes (hevent.symm.trans hbytes)
    exact .of_toTree hjson hjson' htree (hsame ▸ ht)
  · rintro ⟨hid, hprev, hhash, hevent⟩
    refine ⟨hid, hprev, hhash, canonicalJson_of_toTree ?_⟩
    rw [htree, hevent.toTree hjson hjson' htree]

-- what a frame hash says about two frames that carry it
theorem sameJson_of_frameHash (hsha : Function.Injective P.sha256)
    (h : Seals P previousHash frame) (h' : Seals P previousHash' frame')
    (hhash : frame.frameHash = frame'.frameHash) :
    previousHash = previousHash' ∧ SameJson P frame frame' := by
  obtain ⟨d, ms, hacc⟩ := accepted_of_create h
  obtain ⟨d', ms', hacc'⟩ := accepted_of_create h'
  obtain ⟨-, hprev, -, hdigest⟩ := (create_eq_ok P).mp h
  obtain ⟨-, hprev', -, hdigest'⟩ := (create_eq_ok P).mp h'
  rw [← hhash] at hdigest'
  obtain ⟨t, ht, ht'⟩ := canonicalDigest_injective hsha hdigest hdigest'
  obtain rfl := Except.ok.inj (hacc.bodyTree.symm.trans ht)
  have hbodies := Except.ok.inj (hacc'.bodyTree.symm.trans ht')
  simp only [ReplayFrame.bodyTree, Json.obj.injEq, List.cons.injEq, Prod.mk.injEq, Json.str.injEq,
    true_and, and_true] at hbodies
  obtain ⟨hevents, hids, hprevs⟩ := hbodies
  have hd : d' = d := by have := hacc.limit.symm.trans hacc'.limit; omega
  refine ⟨hprevs.symm, hids.symm, by rw [hprev, hprev', hprevs], hhash, ?_⟩
  refine canonicalJson_of_toTree ?_
  have htree := hacc'.tree
  rw [hevents, hd] at htree
  have hle : d ≤ P.recursionLimit := by rw [hacc.limit]; omega
  rw [PyVal.toTree_mono hacc.tree hle, PyVal.toTree_mono htree hle]

theorem SameJson.toTree_event (h : SameJson P frame frame') (hseals : Seals P previousHash frame)
    {d : Nat} (hd : d ≤ P.recursionLimit) {e : Json}
    (he : (PyVal.dict frame.event).toTree d = .ok e) :
    (PyVal.dict frame'.event).toTree d = .ok e := by
  obtain ⟨-, -, -, hencodable⟩ := (create_isOk P).mp ⟨frame, hseals⟩
  obtain ⟨bytes, hbytes⟩ := (canonicalJson_isOk P).mpr (hencodable.mono (Nat.sub_le _ 1))
  obtain ⟨t, ht, -⟩ := (canonicalJson_eq_ok P).mp (h.event.symm.trans hbytes)
  have hlimit := PyVal.toTree_mono he hd
  obtain rfl := canonicalJson_injective P hlimit ht hbytes (h.event.symm.trans hbytes)
  exact PyVal.toTree_lower ht (PyVal.toTree_readable he)

theorem SameJson.seals (h : SameJson P frame frame') (hseals : Seals P previousHash frame) :
    Seals P previousHash frame' := by
  obtain ⟨d, ms, hacc⟩ := accepted_of_create hseals
  obtain ⟨-, hprev, -, hdigest⟩ := (create_eq_ok P).mp hseals
  have hevent := h.toTree_event hseals (show d ≤ P.recursionLimit by rw [hacc.limit]; omega)
    hacc.tree
  refine (create_eq_ok P).mpr ⟨rfl, h.previousHash ▸ hprev, rfl, ?_⟩
  rw [← h.frameHash, ← hdigest, ← h.frameId]
  refine canonicalDigest_congr ?_
  rw [hacc.bodyTree, hacc.limit]
  exact toTree_body.mpr ⟨_, hevent, rfl⟩

theorem SameJson.toTree_toDict (h : SameJson P frame frame') (hseals : Seals P previousHash frame)
    {d : Nat} (hd : d ≤ P.recursionLimit) {t : Json}
    (ht : (PyVal.dict frame.toDict).toTree d = .ok t) :
    (PyVal.dict frame'.toDict).toTree d = .ok t := by
  obtain ⟨c, -, -, rfl, -, -, -⟩ := PyVal.toTree_dict ht
  obtain ⟨e, he, rfl⟩ := ReplayFrame.toTree_toDict.mp ht
  refine ReplayFrame.toTree_toDict.mpr ⟨e, h.toTree_event hseals (by omega) he, ?_⟩
  rw [frameTree, frameTree, h.frameId, h.frameHash, h.previousHash]

end ReplayFrame

namespace ReplayLog

variable {P : Primitives} {log log' : ReplayLog}

def JsonEvents (log : ReplayLog) : Prop :=
  ∀ frame ∈ log.frames, (PyVal.dict frame.event).IsJson

def SameFrames (log log' : ReplayLog) : Prop := List.Forall₂ ReplayFrame.Same log.frames log'.frames

def SameJson (P : Primitives) (log log' : ReplayLog) : Prop :=
  List.Forall₂ (ReplayFrame.SameJson P) log.frames log'.frames

theorem sameJson_iff (hjson : log.JsonEvents) (hjson' : log'.JsonEvents) (h : log.Linked P) :
    SameJson P log log' ↔ SameFrames log log' := by
  have hall : ∀ frame ∈ log.frames, ∀ frame' ∈ log'.frames,
      (ReplayFrame.SameJson P frame frame' ↔ ReplayFrame.Same frame frame') := by
    intro frame hframe frame' hframe'
    obtain ⟨previousHash, hseals⟩ := HashChain.seals_of_mem _ _ h hframe
    exact ReplayFrame.Same.sameJson_iff (hjson frame hframe) (hjson' frame' hframe') hseals
  constructor
  · intro h
    exact forall₂_imp_of_mem h (fun f hf f' hf' => (hall f hf f' hf').mp)
  · intro h
    exact forall₂_imp_of_mem h (fun f hf f' hf' => (hall f hf f' hf').mpr)

theorem sameJson_of_headHash (hsha : Function.Injective P.sha256) (hlog : log.Linked P)
    (hlog' : log'.Linked P) (hhead : log.headHash = log'.headHash) : SameJson P log log' := by
  refine HashChain.linked_determined (ReplayFrame.Seals P) ReplayFrame.frameHash ?_ ?_ hlog hlog'
    hhead
  · intro previousHash frame hseals
    exact ReplayFrame.frameHash_ne_nil hseals
  · intro frame _ frame' _ previousHash previousHash' hseals hseals' hhash
    exact ReplayFrame.sameJson_of_frameHash hsha hseals hseals' hhash

theorem head_binds_history (hsha : Function.Injective P.sha256) (hjson : log.JsonEvents)
    (hjson' : log'.JsonEvents) (hchain : log.verifyChain P = .ok true)
    (hchain' : log'.verifyChain P = .ok true) (hhead : log.headHash = log'.headHash) :
    log.frames.length = log'.frames.length ∧ SameFrames log log' := by
  have hlog := (verifyChain_eq_true P).mp hchain
  have hlog' := (verifyChain_eq_true P).mp hchain'
  have hsame := (sameJson_iff hjson hjson' hlog).mp (sameJson_of_headHash hsha hlog hlog' hhead)
  exact ⟨hsame.length_eq, hsame⟩

theorem linked_of_sameJson {previousHash : Str} {frames frames' : List ReplayFrame}
    (h : List.Forall₂ (ReplayFrame.SameJson P) frames frames')
    (hlinked : HashChain.Linked (ReplayFrame.Seals P) ReplayFrame.frameHash previousHash frames) :
    HashChain.Linked (ReplayFrame.Seals P) ReplayFrame.frameHash previousHash frames' := by
  induction h generalizing previousHash with
  | nil => trivial
  | cons hhead _ ih =>
      obtain ⟨hseals, hrest⟩ := hlinked
      exact ⟨hhead.seals hseals, ih (hhead.frameHash ▸ hrest)⟩

theorem toTreeItems_of_sameJson {d : Nat} (hd : d ≤ P.recursionLimit) {previousHash : Str}
    {frames frames' : List ReplayFrame} (h : List.Forall₂ (ReplayFrame.SameJson P) frames frames')
    (hlinked : HashChain.Linked (ReplayFrame.Seals P) ReplayFrame.frameHash previousHash frames)
    {js : List Json}
    (hjs : PyVal.toTreeItems d (frames.map (fun frame => .dict frame.toDict)) = .ok js) :
    PyVal.toTreeItems d (frames'.map (fun frame => .dict frame.toDict)) = .ok js := by
  induction h generalizing previousHash js with
  | nil => exact hjs
  | cons hhead _ ih =>
      obtain ⟨hseals, hrest⟩ := hlinked
      simp only [List.map_cons, PyVal.toTreeItems, bind_eq_ok] at hjs ⊢
      obtain ⟨j, hj, rest, htail, hjs⟩ := hjs
      exact ⟨j, hhead.toTree_toDict hseals hd hj, rest, ih hrest htail, hjs⟩

theorem frameIds_of_sameJson {frames frames' : List ReplayFrame}
    (h : List.Forall₂ (ReplayFrame.SameJson P) frames frames') :
    frames'.map ReplayFrame.frameId = frames.map ReplayFrame.frameId := by
  induction h with
  | nil => rfl
  | cons hhead _ ih => rw [List.map_cons, List.map_cons, ih, hhead.frameId]

theorem headHash_of_sameJson {previousHash : Str} {frames frames' : List ReplayFrame}
    (h : List.Forall₂ (ReplayFrame.SameJson P) frames frames') :
    HashChain.tip ReplayFrame.frameHash previousHash frames' =
      HashChain.tip ReplayFrame.frameHash previousHash frames := by
  induction h generalizing previousHash with
  | nil => rfl
  | cons hhead _ ih => rw [HashChain.tip_cons, HashChain.tip_cons, ← hhead.frameHash, ih]

-- integrity evidence is a function of the JSON text of the frames
theorem verifyIntegrity_of_sameJson (h : SameJson P log log') {report : IntegrityReport}
    (hreport : log.verifyIntegrity P = .ok report) (hok : report.ok = true) :
    ∃ report', log'.verifyIntegrity P = .ok report' ∧ report'.ok = true ∧
      report'.replayDigest = report.replayDigest ∧ report'.headHash = report.headHash ∧
        report'.frameCount = report.frameCount := by
  obtain ⟨hlinked, hdistinct, hencodable⟩ := integral_iff.mp ⟨report, hreport, hok⟩
  obtain ⟨t, ht, hclean⟩ := hencodable
  have htree : log'.contents.toTree P.recursionLimit = .ok t := by
    obtain ⟨d, js, hd, rfl, hjs⟩ := PyVal.toTree_items _ (Or.inl rfl) ht
    have hitems := toTreeItems_of_sameJson (show d ≤ P.recursionLimit by omega) h hlinked hjs
    rw [contents, hd]
    simp only [PyVal.toTree, hitems]
    rfl
  have hintegral : Integral P log' :=
    ⟨linked_of_sameJson h hlinked, (frameIds_of_sameJson h).symm ▸ hdistinct, t, htree, hclean⟩
  obtain ⟨report', hreport', hok'⟩ := integral_iff.mpr hintegral
  obtain ⟨hdigest, hhead, hcount⟩ := verifyIntegrity_eq_ok hreport
  obtain ⟨hdigest', hhead', hcount'⟩ := verifyIntegrity_eq_ok hreport'
  have hsame := ReplayFrame.canonicalDigest_congr (P := P) (ht.trans htree.symm)
  refine ⟨report', hreport', hok', ?_, ?_, ?_⟩
  · exact Except.ok.inj (hdigest'.symm.trans (hsame.symm.trans hdigest))
  · rw [hhead, hhead']
    exact headHash_of_sameJson h
  · rw [hcount, hcount', h.length_eq]

theorem certifies_iff_sameJson (hsha : Function.Injective P.sha256) {signer : Signer}
    {anchor : AuditAnchor} (hcreate : log.createAnchor P signer = .ok anchor)
    {publicKey : PublicKey} :
    log'.verifyAnchor P anchor publicKey = .ok true ↔
      anchor.verify P publicKey = .ok true ∧ SameJson P log log' := by
  obtain ⟨report, payload, hreport, hok, rfl, -⟩ := createAnchor_eq_ok hcreate
  rw [verifyAnchor_eq_true]
  constructor
  · rintro ⟨report', hreport', hok', hverified, -, hhead, -⟩
    refine ⟨hverified, ?_⟩
    have hlinked := (integral_iff.mp ⟨report, hreport, hok⟩).linked
    have hlinked' := (integral_iff.mp ⟨report', hreport', hok'⟩).linked
    refine sameJson_of_headHash hsha hlinked hlinked' ?_
    rw [← (verifyIntegrity_eq_ok hreport).2.1, ← (verifyIntegrity_eq_ok hreport').2.1]
    exact hhead
  · rintro ⟨hverified, hsame⟩
    obtain ⟨report', hreport', hok', hdigest, hhead, hcount⟩ :=
      verifyIntegrity_of_sameJson hsame hreport hok
    exact ⟨report', hreport', hok', hverified, hdigest.symm, hhead.symm,
      congrArg Nat.cast hcount.symm⟩

theorem createAnchor_isOk {signer : Signer} (h : Integral P log)
    (hkey : Json.Clean signer.keyId) (hcount : (digits log.frames.length).length ≤ maxStrDigits) :
    ∃ anchor, log.createAnchor P signer = .ok anchor := by
  obtain ⟨report, hreport, hok⟩ := integral_iff.mpr h
  obtain ⟨hdigest, hhead, hlength⟩ := verifyIntegrity_eq_ok hreport
  have hpos : 0 < P.recursionLimit := (PyVal.encodable_list.mp h.encodable).1
  have hencodable : (PyVal.dict (AuditAnchor.unsignedPayload
      ⟨report.replayDigest, report.headHash, report.frameCount, signer.keyId, []⟩)).Encodable
        P.recursionLimit := by
    rw [AuditAnchor.unsignedPayload, PyVal.encodable_ofFields]
    simp only [List.forall_mem_cons, List.not_mem_nil, IsEmpty.forall_iff, implies_true, and_true,
      PyVal.encodable_str, PyVal.encodable_int, Int.natAbs_natCast]
    exact ⟨hpos, (canonicalDigest_eq_ok hdigest).2, hhead ▸ clean_headHash P h.linked,
      hlength ▸ hcount, hkey⟩
  obtain ⟨payload, hpayload⟩ := (canonicalJson_isOk P).mpr hencodable
  have hsign : signAuditAnchor P report signer = .ok ⟨report.replayDigest, report.headHash,
      report.frameCount, signer.keyId, signer.sign payload⟩ := by
    rw [signAuditAnchor, raiseIf_of_not (by simp [hok])]
    exact bind_eq_ok.mpr ⟨(), rfl, bind_eq_ok.mpr ⟨payload, hpayload, rfl⟩⟩
  exact ⟨_, bind_eq_ok.mpr ⟨report, hreport, hsign⟩⟩

theorem anchor_certifies_iff (hsha : Function.Injective P.sha256) {signer : Signer}
    {anchor : AuditAnchor} (hcreate : log.createAnchor P signer = .ok anchor) :
    AuditAnchor.fromDict anchor.toDict = .ok anchor ∧
      ∀ (log' : ReplayLog) (publicKey : PublicKey),
        (log'.verifyAnchor P anchor publicKey = .ok true ↔
          anchor.verify P publicKey = .ok true ∧ SameJson P log log') ∧
        (log.JsonEvents → log'.JsonEvents →
          (log'.verifyAnchor P anchor publicKey = .ok true ↔
            anchor.verify P publicKey = .ok true ∧ SameFrames log log')) := by
  have hcount : 0 ≤ anchor.frameCount := by
    obtain ⟨report, payload, -, -, rfl, -⟩ := createAnchor_eq_ok hcreate
    exact Int.natCast_nonneg _
  refine ⟨AuditAnchor.fromDict_toDict hcount, ?_⟩
  intro log' publicKey
  refine ⟨certifies_iff_sameJson hsha hcreate, ?_⟩
  intro hjson hjson'
  obtain ⟨report, -, hreport, hok, -, -⟩ := createAnchor_eq_ok hcreate
  rw [certifies_iff_sameJson hsha hcreate,
    sameJson_iff hjson hjson' (integral_iff.mp ⟨report, hreport, hok⟩).linked]

section Rewritten

def listEvent : PyDict := PyDict.ofFields [("b", .list [.bool true]), ("a", .none)]

def reorderedEvent : PyDict := PyDict.ofFields [("a", .none), ("b", .list [.bool true])]

def tupleEvent : PyDict := PyDict.ofFields [("b", .tuple [.bool true]), ("a", .none)]

def twoFrames (event : PyDict) (first second : Str) : ReplayLog :=
  ⟨[⟨"f-1", [], event, first⟩, ⟨"f-2", first, event, second⟩], []⟩

theorem listEvent_encodable {depth : Nat} (h : 1 < depth) :
    (PyVal.dict listEvent).Encodable depth := by
  rw [listEvent, PyVal.encodable_ofFields]
  simp only [List.forall_mem_cons, List.not_mem_nil, IsEmpty.forall_iff, implies_true, and_true,
    PyVal.encodable_list, PyVal.encodable_bool, PyVal.encodable_none]
  omega

theorem listEvent_sealed (frameId : String) {previousHash : Str} (hprev : Json.Clean previousHash) :
    ∃ frameHash, Json.Clean frameHash ∧
      ReplayFrame.Seals referencePrimitives previousHash
        ⟨lit frameId, previousHash, listEvent, frameHash⟩ := by
  obtain ⟨frame, hcreate⟩ : ∃ frame,
      ReplayFrame.create referencePrimitives (lit frameId) previousHash listEvent = .ok frame :=
    (ReplayFrame.create_isOk referencePrimitives).mpr
      ⟨by decide, Json.clean_lit _, hprev, listEvent_encodable (by decide)⟩
  obtain ⟨hid, hprevious, hframe, -⟩ := (ReplayFrame.create_eq_ok _).mp hcreate
  have hseals := ReplayFrame.seals_of_create _ hcreate
  have hsame : frame = ⟨lit frameId, previousHash, listEvent, frame.frameHash⟩ := by
    rw [← hid, ← hprevious, ← hframe]
  rw [hsame] at hseals
  exact ⟨frame.frameHash, ReplayFrame.clean_frameHash _ hcreate, hseals⟩

theorem twoFrames_integral : ∃ first second,
    Integral referencePrimitives (twoFrames listEvent first second) := by
  have hempty : Json.Clean ([] : Str) := by simp [Json.Clean]
  obtain ⟨first, hfirst, hseals⟩ := listEvent_sealed "f-1" hempty
  obtain ⟨second, hsecond, hseals'⟩ := listEvent_sealed "f-2" hfirst
  have hids : lit "f-1" ≠ lit "f-2" := by decide
  refine ⟨first, second, ⟨hseals, hseals', trivial⟩, by simp [twoFrames, hids], ?_⟩
  rw [contents, PyVal.encodable_list]
  simp only [twoFrames, List.map_cons, List.map_nil, List.forall_mem_cons, List.not_mem_nil,
    IsEmpty.forall_iff, implies_true, and_true, ReplayFrame.toDict, PyVal.encodable_ofFields,
    PyVal.encodable_str]
  exact ⟨by decide,
    ⟨by decide, Json.clean_lit _, hempty, listEvent_encodable (by decide), hfirst⟩,
    ⟨by decide, Json.clean_lit _, hfirst, listEvent_encodable (by decide), hsecond⟩⟩

theorem twoFrames_sameJson (event : PyDict) (first second : Str)
    (h : (PyVal.dict listEvent).toTree 100 = (PyVal.dict event).toTree 100) :
    SameJson referencePrimitives (twoFrames listEvent first second)
      (twoFrames event first second) :=
  .cons ⟨rfl, rfl, rfl, ReplayFrame.canonicalJson_of_toTree h⟩
    (.cons ⟨rfl, rfl, rfl, ReplayFrame.canonicalJson_of_toTree h⟩ .nil)

theorem twoFrames_jsonEvents {event : PyDict} (first second : Str)
    (h : (PyVal.dict event).IsJson) : (twoFrames event first second).JsonEvents := by
  intro frame hframe
  simp only [twoFrames, List.mem_cons, List.not_mem_nil, or_false] at hframe
  rcases hframe with rfl | rfl
  · exact h
  · exact h

theorem listEvent_isJson : (PyVal.dict listEvent).IsJson := by
  refine ⟨PyVal.isStr_ofFields, ?_, ?_⟩
  · simp [listEvent, PyDict.ofFields, Dict.Distinct]
  · simp [listEvent, PyDict.ofFields, PyVal.IsJsonMembers, PyVal.IsJson, PyVal.IsJsonItems]

theorem reorderedEvent_isJson : (PyVal.dict reorderedEvent).IsJson := by
  refine ⟨PyVal.isStr_ofFields, ?_, ?_⟩
  · simp [reorderedEvent, PyDict.ofFields, Dict.Distinct]
  · simp [reorderedEvent, PyDict.ofFields, PyVal.IsJsonMembers, PyVal.IsJson, PyVal.IsJsonItems]

theorem reordered_run : ∃ first second, ∃ log log' : ReplayLog,
    log = twoFrames listEvent first second ∧ log' = twoFrames reorderedEvent first second ∧
    log.JsonEvents ∧ log'.JsonEvents ∧
    log.verifyChain referencePrimitives = .ok true ∧
      log'.verifyChain referencePrimitives = .ok true ∧ log.headHash = log'.headHash ∧
        Integral referencePrimitives log := by
  obtain ⟨first, second, hintegral⟩ := twoFrames_integral
  have hsame := twoFrames_sameJson reorderedEvent first second rfl
  exact ⟨first, second, _, _, rfl, rfl, twoFrames_jsonEvents first second listEvent_isJson,
    twoFrames_jsonEvents first second reorderedEvent_isJson,
    (verifyChain_eq_true _).mpr hintegral.linked,
    (verifyChain_eq_true _).mpr (linked_of_sameJson hsame hintegral.linked),
    (headHash_of_sameJson hsame).symm, hintegral⟩

theorem head_binds_history_reordered : ∃ log log' : ReplayLog,
    log.headHash = log'.headHash ∧ log.frames.length = 2 ∧
      log.frames.length = log'.frames.length ∧ SameFrames log log' := by
  obtain ⟨first, second, log, log', rfl, rfl, hjson, hjson', hchain, hchain', hhead, -⟩ :=
    reordered_run
  exact ⟨_, _, hhead, rfl, head_binds_history referencePrimitives_sha256_injective hjson hjson'
    hchain hchain' hhead⟩

theorem demo_anchor {log : ReplayLog} (h : Integral referencePrimitives log)
    (hcount : (digits log.frames.length).length ≤ maxStrDigits) :
    ∃ anchor, log.createAnchor referencePrimitives Demo.signer = .ok anchor ∧
      anchor.verify referencePrimitives Demo.publicKey = .ok true := by
  obtain ⟨anchor, hanchor⟩ := @createAnchor_isOk _ _ Demo.signer h (Json.clean_lit _) hcount
  have hself := verifyAnchor_of_createAnchor hanchor Demo.signer_verifies
  obtain ⟨-, -, -, hverified, -⟩ := verifyAnchor_eq_true.mp hself
  exact ⟨anchor, hanchor, hverified⟩

theorem anchor_certifies_iff_reordered : ∃ (log log' : ReplayLog) (anchor : AuditAnchor),
    log.createAnchor referencePrimitives Demo.signer = .ok anchor ∧
      AuditAnchor.fromDict anchor.toDict = .ok anchor ∧ log.JsonEvents ∧ log'.JsonEvents ∧
        (log'.verifyAnchor referencePrimitives anchor Demo.publicKey = .ok true ↔
          anchor.verify referencePrimitives Demo.publicKey = .ok true ∧ SameFrames log log') := by
  obtain ⟨first, second, hintegral⟩ := twoFrames_integral
  obtain ⟨anchor, hanchor, -⟩ := demo_anchor hintegral
    (show (digits 2).length ≤ maxStrDigits by decide)
  obtain ⟨hdict, hcertifies⟩ := anchor_certifies_iff referencePrimitives_sha256_injective hanchor
  have hjson := twoFrames_jsonEvents first second listEvent_isJson
  have hjson' := twoFrames_jsonEvents first second reorderedEvent_isJson
  exact ⟨_, twoFrames reorderedEvent first second, anchor, hanchor, hdict, hjson, hjson',
    (hcertifies _ Demo.publicKey).2 hjson hjson'⟩

-- a list and a tuple are written as the same JSON
theorem anchor_certifies_rewritten :
    ¬ ∀ (P : Primitives), Function.Injective P.sha256 →
      ∀ (log log' : ReplayLog) (signer : Signer) (anchor : AuditAnchor) (publicKey : PublicKey),
        log.createAnchor P signer = .ok anchor →
          (log'.verifyAnchor P anchor publicKey = .ok true ↔
            anchor.verify P publicKey = .ok true ∧ SameFrames log log') := by
  intro h
  obtain ⟨first, second, hintegral⟩ := twoFrames_integral
  obtain ⟨anchor, hanchor, hverified⟩ := demo_anchor hintegral
    (show (digits 2).length ≤ maxStrDigits by decide)
  have hjson := twoFrames_sameJson tupleEvent first second rfl
  have hcertified := (certifies_iff_sameJson referencePrimitives_sha256_injective hanchor).mpr
    ⟨hverified, hjson⟩
  obtain ⟨-, hsame⟩ := (h referencePrimitives referencePrimitives_sha256_injective _ _ Demo.signer
    anchor Demo.publicKey hanchor).mp hcertified
  have hevent := (List.forall₂_cons.mp hsame).1.event
  obtain ⟨w, hw, hlist⟩ := PyVal.sameMembers_iff.mp hevent.1 (.str (lit "b"), .list [.bool true])
    List.mem_cons_self
  have hget : Dict.get tupleEvent (.str (lit "b")) = some (.tuple [.bool true]) :=
    PyDict.get_ofFields_cons "b" "b" _ _
  obtain rfl := Option.some.inj (hget.symm.trans hw)
  exact hlist

end Rewritten

end ReplayLog

end GovernedAutonomy
