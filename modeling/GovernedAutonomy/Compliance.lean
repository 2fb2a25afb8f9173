import GovernedAutonomy.Audit
import GovernedAutonomy.Federation
import GovernedAutonomy.TrustChange
import GovernedAutonomy.Python.Render

namespace GovernedAutonomy

open Python

structure ComplianceEvaluation where
  framework : String
  controlId : String
  title : String
  status : String
  details : Str

structure ComplianceAuditor where
  replayLog : ReplayLog
  trustStore : TrustStore
  policyRegistry : Option PolicyRegistry := none

structure EvidenceBundle where
  generatedAt : Str
  replayIntegrity : IntegrityReport
  auditSummary : AuditSummary
  trustStore : PyDict
  policyDigests : List (Str × Str)
  controls : List PyDict

namespace PolicyRegistry

def policyList (registry : PolicyRegistry) : List Policy :=
  (sortedItems registry.policies).map Prod.snd

end PolicyRegistry

namespace ComplianceEvaluation

def toControl (result : ComplianceEvaluation) : PyDict := PyDict.ofFields
  [("framework", .str (lit result.framework)), ("control_id", .str (lit result.controlId)),
    ("status", .str (lit result.status)), ("title", .str (lit result.title))]

end ComplianceEvaluation

namespace ComplianceAuditor

variable (P : Primitives) (auditor : ComplianceAuditor)

def policies : List Policy :=
  match auditor.policyRegistry with
  | some registry => registry.policyList
  | none => []

def soc2Iso27001 (integrity : IntegrityReport) (trust : PyDict) (policies : List Policy) :
    List ComplianceEvaluation :=
  [{ framework := "SOC 2"
     controlId := "CC7.2"
     title := "System Monitoring and Audit Evidence"
     status := if integrity.ok then "PASS" else "FAIL"
     details :=
       if integrity.ok then
         lit "Hash-chained replay evidence verified at " ++ digits integrity.frameCount ++
           lit " frames."
       else lit "Replay evidence integrity validation failed." },
   { framework := "ISO/IEC 27001:2022"
     controlId := "A.8.15"
     title := "Logging"
     status := if integrity.ok then "PASS" else "FAIL"
     details := "Replay evidence is available for independent retention and review." },
   { framework := "ISO/IEC 27001:2022"
     controlId := "A.5.18"
     title := "Access Rights"
     status := if (trust.getD "keys").truthy then "PASS" else "WARNING"
     details := "Trust-key inventory is included in the evidence bundle." },
   { framework := "SOC 2"
     controlId := "CC6.1"
     title := "Logical Access Controls"
     status := if policies.isEmpty then "WARNING" else "PASS"
     details := "Policy inventory is included in the evidence bundle." }]

def evaluateSoc2Iso27001 : Result (List ComplianceEvaluation) := do
  let integrity ← auditor.replayLog.verifyIntegrity P
  .ok (soc2Iso27001 integrity auditor.trustStore.toDict auditor.policies)

def policyDigests : Result (List (Str × Str)) :=
  match auditor.policyRegistry with
  | some registry => registry.digests P
  | none => .ok []

def evidenceBundle (generatedAt : Str) : Result EvidenceBundle := do
  let integrity ← auditor.replayLog.verifyIntegrity P
  let auditSummary ← auditor.replayLog.auditSummary P
  let policyDigests ← auditor.policyDigests P
  let controls ← auditor.evaluateSoc2Iso27001 P
  .ok
    { generatedAt := generatedAt
      replayIntegrity := integrity
      auditSummary := auditSummary
      trustStore := auditor.trustStore.toDict
      policyDigests := policyDigests
      controls := controls.map ComplianceEvaluation.toControl }

end ComplianceAuditor

-- the digests that a decision carries
def digestKeys : List String := ["policy_digest", "request_digest", "mesh_preflight_digest"]

def withoutDigests (decision : PyDict) : PyDict :=
  decision.map (fun m =>
    if digestKeys.any (fun name => Keyed.same m.1 (.str (lit name))) then (m.1, .none) else m)

def IntegrityReport.masked (report : IntegrityReport) : IntegrityReport :=
  { report with headHash := [], replayDigest := [] }

namespace AuthorizationRecord

def maskedDecision : PyVal → PyVal
  | .dict decision => .dict (withoutDigests decision)
  | value => value

def masked (record : AuthorizationRecord) : AuthorizationRecord :=
  { record with decision := maskedDecision record.decision }

end AuthorizationRecord

def DecisionRecord.masked (record : DecisionRecord) : DecisionRecord :=
  { record with authorization := record.authorization.map AuthorizationRecord.masked }

def AuditSummary.masked (summary : AuditSummary) : AuditSummary :=
  { summary with decisions := summary.decisions.map (fun m => (m.1, m.2.masked)) }

-- a bundle without its timestamp, its hashes and its digests
def EvidenceBundle.masked (bundle : EvidenceBundle) : EvidenceBundle :=
  { bundle with
    generatedAt := []
    replayIntegrity := bundle.replayIntegrity.masked
    auditSummary := bundle.auditSummary.masked
    policyDigests := bundle.policyDigests.map (fun m => (m.1, [])) }

namespace ReplayLog

variable {P : Primitives} {log log' : ReplayLog}

theorem verifyIntegrity_of_linked (hlog : log.Linked P) {report : IntegrityReport} :
    log.verifyIntegrity P = .ok report ↔ ∃ replayDigest,
      canonicalDigest P log.contents = .ok replayDigest ∧
        report = ⟨(duplicatesFrom [] log.frames).isEmpty, log.frames.length, log.headHash,
          replayDigest, sortedStrs (duplicatesFrom [] log.frames), none⟩ := by
  have hfirst : firstErrorFrom P 0 [] log.frames = .ok none := (firstErrorFrom_eq_none P).mpr hlog
  rw [verifyIntegrity, hfirst]
  simp only [bind_eq_ok]
  constructor
  · rintro ⟨_, hnone, replayDigest, hdigest, h⟩
    obtain rfl := Except.ok.inj hnone
    exact ⟨replayDigest, hdigest, (Except.ok.inj h).symm⟩
  · rintro ⟨replayDigest, hdigest, rfl⟩
    exact ⟨none, rfl, replayDigest, hdigest, rfl⟩

def frameIds (log : ReplayLog) : List Str := log.frames.map ReplayFrame.frameId

theorem count_duplicatesFrom (seen : List Str) (frames : List ReplayFrame) (frameId : Str) :
    (duplicatesFrom seen frames).count frameId =
      (frames.map ReplayFrame.frameId).count frameId - (if frameId ∈ seen then 0 else 1) := by
  induction frames generalizing seen with
  | nil => simp [duplicatesFrom]
  | cons frame frames ih =>
      rw [duplicatesFrom, List.count_append, ih, List.map_cons, List.count_cons]
      by_cases hsame : frame.frameId = frameId
      · subst hsame
        by_cases hseen : frame.frameId ∈ seen
        · simp only [if_pos hseen, List.count_singleton_self, List.mem_cons_self, if_true,
            beq_self_eq_true]
          omega
        · simp only [if_neg hseen, List.count_nil, List.mem_cons_self, if_true, beq_self_eq_true]
          omega
      · have hmem : frameId ∈ frame.frameId :: seen ↔ frameId ∈ seen := by
          rw [List.mem_cons, or_iff_right (Ne.symm hsame)]
        have hother : (frame.frameId == frameId) = false := beq_eq_false_iff_ne.mpr hsame
        have hnone : (if frame.frameId ∈ seen then [frame.frameId] else []).count frameId = 0 := by
          split
          · rw [List.count_singleton, hother]
            rfl
          · rfl
        rw [hnone, if_congr hmem rfl rfl, hother, if_neg Bool.false_ne_true, Nat.zero_add,
          Nat.add_zero]

end ReplayLog

end GovernedAutonomy
