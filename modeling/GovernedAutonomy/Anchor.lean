import GovernedAutonomy.Replay

namespace GovernedAutonomy

open Python

structure AuditAnchor where
  replayDigest : Str
  headHash : Str
  frameCount : ℤ
  signerKeyId : Str
  signature : Str

namespace AuditAnchor

variable (P : Primitives)

def unsignedPayload (a : AuditAnchor) : PyDict :=
  PyDict.ofFields
    [("replay_digest", .str a.replayDigest), ("head_hash", .str a.headHash),
      ("frame_count", .int a.frameCount), ("signer_key_id", .str a.signerKeyId)]

def toDict (a : AuditAnchor) : PyDict :=
  a.unsignedPayload ++ PyDict.ofFields [("signature", .str a.signature)]

def invalidFields {α : Type} : Result α :=
  .error (.valueError (lit "audit anchor fields are invalid"))

def fromDict (payload : PyDict) : Result AuditAnchor := do
  raiseIf (payload.hasAll ["replay_digest", "head_hash", "frame_count", "signer_key_id",
      "signature"] = false) (.valueError (lit "audit anchor is missing required fields"))
  match payload.getD "replay_digest", payload.getD "head_hash", payload.getD "frame_count",
      payload.getD "signer_key_id", payload.getD "signature" with
  | .str replayDigest, .str headHash, .int frameCount, .str signerKeyId, .str signature =>
      if frameCount < 0 then invalidFields
      else .ok ⟨replayDigest, headHash, frameCount, signerKeyId, signature⟩
  | _, _, _, _, _ => invalidFields

def verify (a : AuditAnchor) (publicKey : PublicKey) : Result Bool := do
  let payload ← canonicalJson P (.dict a.unsignedPayload)
  .ok (verifySignature P publicKey payload a.signature)

theorem fromDict_toDict {a : AuditAnchor} (h : 0 ≤ a.frameCount) : fromDict a.toDict = .ok a := by
  have hfields : a.toDict = PyDict.ofFields
      [("replay_digest", .str a.replayDigest), ("head_hash", .str a.headHash),
        ("frame_count", .int a.frameCount), ("signer_key_id", .str a.signerKeyId),
        ("signature", .str a.signature)] := rfl
  have hall : PyDict.hasAll a.toDict ["replay_digest", "head_hash", "frame_count",
      "signer_key_id", "signature"] = true := by
    simp [hfields, PyDict.hasAll, PyDict.has]
  have hcount : ¬ a.frameCount < 0 := not_lt.mpr h
  rw [fromDict, raiseIf_of_not (by simp [hall])]
  simp [hfields, PyDict.getD, hcount, bind, Except.bind]

end AuditAnchor

def signAuditAnchor (P : Primitives) (integrity : IntegrityReport) (signer : Signer) :
    Result AuditAnchor := do
  raiseIf (integrity.ok = false) (.valueError (lit "cannot anchor an invalid replay log"))
  let unsigned : AuditAnchor :=
    ⟨integrity.replayDigest, integrity.headHash, integrity.frameCount, signer.keyId, []⟩
  let payload ← canonicalJson P (.dict unsigned.unsignedPayload)
  .ok { unsigned with signature := signer.sign payload }

structure Certification where
  certified : Bool
  integrity : IntegrityReport
  signerKeyId : Str

namespace ReplayLog

variable (P : Primitives)

def createAnchor (log : ReplayLog) (signer : Signer) : Result AuditAnchor := do
  let integrity ← log.verifyIntegrity P
  signAuditAnchor P integrity signer

-- the signature is looked at for a log that is in order only
def certifyAnchor (log : ReplayLog) (anchor : AuditAnchor) (publicKey : PublicKey) :
    Result Certification := do
  let integrity ← log.verifyIntegrity P
  let verified ← (if integrity.ok then anchor.verify P publicKey else .ok false)
  .ok
    { certified := verified &&
        decide (anchor.replayDigest = integrity.replayDigest ∧
          anchor.headHash = integrity.headHash ∧ anchor.frameCount = integrity.frameCount)
      integrity := integrity
      signerKeyId := anchor.signerKeyId }

def verifyAnchor (log : ReplayLog) (anchor : AuditAnchor) (publicKey : PublicKey) :
    Result Bool := do
  let certification ← log.certifyAnchor P anchor publicKey
  .ok certification.certified

variable {P}

-- what makes verify_integrity return a report that is in order
structure Integral (P : Primitives) (log : ReplayLog) : Prop where
  linked : log.Linked P
  distinct : (log.frames.map ReplayFrame.frameId).Nodup
  encodable : log.contents.Encodable P.recursionLimit

theorem verifyIntegrity_eq_ok {log : ReplayLog} {report : IntegrityReport}
    (h : log.verifyIntegrity P = .ok report) :
    canonicalDigest P log.contents = .ok report.replayDigest ∧ report.headHash = log.headHash ∧
      report.frameCount = log.frames.length := by
  obtain ⟨firstError, -, digest, hdigest, h⟩ := by simpa only [verifyIntegrity, bind_eq_ok] using h
  obtain rfl := Except.ok.inj h
  exact ⟨hdigest, rfl, rfl⟩

theorem integral_iff {log : ReplayLog} :
    (∃ report, log.verifyIntegrity P = .ok report ∧ report.ok = true) ↔ Integral P log := by
  constructor
  · rintro ⟨report, h, hok⟩
    simp only [verifyIntegrity, bind_eq_ok] at h
    obtain ⟨firstError, hfirst, digest, hdigest, h⟩ := h
    obtain rfl := Except.ok.inj h
    obtain ⟨hnone, hdup⟩ := Bool.and_eq_true_iff.mp hok
    obtain rfl := Option.isNone_iff_eq_none.mp hnone
    refine ⟨(firstErrorFrom_eq_none P).mp hfirst, ?_, (canonicalDigest_isOk P).mp ⟨_, hdigest⟩⟩
    exact (duplicatesFrom_eq_nil.mp (List.isEmpty_iff.mp hdup)).1
  · rintro ⟨hlinked, hdistinct, hencodable⟩
    obtain ⟨digest, hdigest⟩ := (canonicalDigest_isOk P).mpr hencodable
    have hfirst : firstErrorFrom P 0 [] log.frames = .ok none :=
      (firstErrorFrom_eq_none P).mpr hlinked
    have hdup : duplicatesFrom [] log.frames = [] :=
      duplicatesFrom_eq_nil.mpr ⟨hdistinct, by simp⟩
    refine ⟨_, bind_eq_ok.mpr ⟨_, hfirst, bind_eq_ok.mpr ⟨_, hdigest, rfl⟩⟩, ?_⟩
    rw [hdup]
    rfl

theorem Integral.mono {log log' : ReplayLog} (h : Integral P log)
    (hpre : log'.frames <+: log.frames) : Integral P log' := by
  refine ⟨HashChain.linked_of_prefix _ _ hpre h.linked, ?_, ?_⟩
  · exact h.distinct.sublist (hpre.sublist.map _)
  · obtain ⟨hpos, hframes⟩ := PyVal.encodable_list.mp h.encodable
    refine PyVal.encodable_list.mpr ⟨hpos, ?_⟩
    intro x hx
    exact hframes x (List.map_subset _ hpre.subset hx)

theorem createAnchor_eq_ok {log : ReplayLog} {signer : Signer} {anchor : AuditAnchor}
    (h : log.createAnchor P signer = .ok anchor) :
    ∃ report payload, log.verifyIntegrity P = .ok report ∧ report.ok = true ∧
      anchor = ⟨report.replayDigest, report.headHash, report.frameCount, signer.keyId,
        signer.sign payload⟩ ∧
      canonicalJson P (.dict anchor.unsignedPayload) = .ok payload := by
  simp only [createAnchor, signAuditAnchor, bind_eq_ok, raiseIf_eq_ok, Bool.not_eq_false] at h
  obtain ⟨report, hreport, -, hok, payload, hpayload, h⟩ := h
  obtain rfl := Except.ok.inj h
  exact ⟨report, payload, hreport, hok, rfl, hpayload⟩

theorem verifyAnchor_eq_true {log : ReplayLog} {anchor : AuditAnchor} {publicKey : PublicKey} :
    log.verifyAnchor P anchor publicKey = .ok true ↔
      ∃ report, log.verifyIntegrity P = .ok report ∧ report.ok = true ∧
        anchor.verify P publicKey = .ok true ∧ anchor.replayDigest = report.replayDigest ∧
          anchor.headHash = report.headHash ∧ anchor.frameCount = report.frameCount := by
  simp only [verifyAnchor, certifyAnchor, bind_eq_ok]
  constructor
  · rintro ⟨certification, ⟨report, hreport, verified, hverified, h⟩, hcertified⟩
    obtain rfl := Except.ok.inj h
    obtain ⟨hsigned, hsame⟩ := Bool.and_eq_true_iff.mp (Except.ok.inj hcertified)
    obtain rfl := hsigned
    by_cases hok : report.ok = true
    · rw [if_pos hok] at hverified
      exact ⟨report, hreport, hok, hverified, of_decide_eq_true hsame⟩
    · rw [if_neg hok] at hverified
      cases hverified
  · rintro ⟨report, hreport, hok, hverified, hsame⟩
    refine ⟨_, ⟨report, hreport, true, ?_, rfl⟩, ?_⟩
    · rw [if_pos hok, hverified]
    · exact congrArg Except.ok (Bool.and_eq_true_iff.mpr ⟨rfl, decide_eq_true hsame⟩)

-- an anchor certifies the log that it was created for
theorem verifyAnchor_of_createAnchor {log : ReplayLog} {signer : Signer} {anchor : AuditAnchor}
    {publicKey : PublicKey} (h : log.createAnchor P signer = .ok anchor)
    (hverifies : ∀ payload, verifySignature P publicKey payload (signer.sign payload) = true) :
    log.verifyAnchor P anchor publicKey = .ok true := by
  obtain ⟨report, payload, hreport, hok, rfl, hpayload⟩ := createAnchor_eq_ok h
  refine verifyAnchor_eq_true.mpr ⟨report, hreport, hok, ?_, rfl, rfl, rfl⟩
  rw [AuditAnchor.verify, hpayload]
  exact congrArg Except.ok (hverifies payload)

-- and no log of another length
theorem length_of_verifyAnchor {log log' : ReplayLog} {signer : Signer} {anchor : AuditAnchor}
    {publicKey : PublicKey} (h : log.createAnchor P signer = .ok anchor)
    (hverify : log'.verifyAnchor P anchor publicKey = .ok true) :
    log'.frames.length = log.frames.length := by
  obtain ⟨report, payload, hreport, -, rfl, -⟩ := createAnchor_eq_ok h
  obtain ⟨report', hreport', -, -, -, -, hcount⟩ := verifyAnchor_eq_true.mp hverify
  rw [← (verifyIntegrity_eq_ok hreport).2.2, ← (verifyIntegrity_eq_ok hreport').2.2]
  exact (Nat.cast_inj.mp hcount).symm

end ReplayLog

end GovernedAutonomy
