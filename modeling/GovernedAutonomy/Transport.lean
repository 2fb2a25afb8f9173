import GovernedAutonomy.Engine
import GovernedAutonomy.Storage

namespace GovernedAutonomy

open Python

namespace GovernanceAuthorizationArtifact

variable (P : Primitives)

def transportKeys : List String :=
  ["action_request", "decision", "expires_at", "nonce", "replay_frame_ref", "issuer_key_id",
    "signature"]

def objectField (value : PyDict) (name : String) : Result PyDict :=
  match value.getD (lit name) with
  | .dict d => .ok d
  | _ => .error (.valueError (lit (name ++ " must be an object")))

def integerField (value : PyDict) (name : String) : Result ℤ :=
  match value.getD (lit name) with
  | .int n => .ok n
  | _ => .error (.valueError (lit (name ++ " must be an integer")))

def textField (value : PyDict) (name : String) : Result Str :=
  match value.getD (lit name) with
  | .str (c :: s) => .ok (c :: s)
  | _ => .error (.valueError (lit (name ++ " must be a non-empty string")))

def readFields (d : PyDict) : Result Artifact := do
  let actionRequest ← objectField d "action_request"
  let decision ← objectField d "decision"
  let expiresAt ← integerField d "expires_at"
  let nonce ← textField d "nonce"
  let replayFrameRef ← textField d "replay_frame_ref"
  let issuerKeyId ← textField d "issuer_key_id"
  let signature ← textField d "signature"
  .ok ⟨actionRequest, decision, .int expiresAt, nonce, replayFrameRef, issuerKeyId, signature⟩

def fromDict (value : PyVal) : Result Artifact :=
  match value with
  | .dict d =>
      if PyDict.hasOnly d transportKeys = true ∧ PyDict.hasAll d transportKeys = true then readFields d
      else .error (.valueError (lit "GAA must contain exactly the required fields"))
  | _ => .error (.valueError (lit "GAA must contain exactly the required fields"))

def toJson (artifact : Artifact) : Result Str :=
  P.dumps SQLiteReplayLog.rowStyle (.dict artifact.toDict)

def isMalformedJson : Exc → Bool
  | .builtin .jsonDecodeError => true
  | _ => false

def fromJson (text : Str) : Result Artifact := do
  let payload ← reraise isMalformedJson (.valueError (lit "GAA JSON is invalid")) (P.loads text)
  fromDict payload

section Specification

variable {artifact : Artifact} {d : PyDict}

-- the transport form of an artifact
structure Carries (d : PyDict) (artifact : Artifact) : Prop where
  only : d.hasOnly transportKeys = true
  all : d.hasAll transportKeys = true
  actionRequest : d.getD "action_request" = .dict artifact.actionRequest
  decision : d.getD "decision" = .dict artifact.decision
  expiresAt : d.getD "expires_at" = artifact.expiresAt
  nonce : d.getD "nonce" = .str artifact.nonce
  replayFrameRef : d.getD "replay_frame_ref" = .str artifact.replayFrameRef
  issuerKeyId : d.getD "issuer_key_id" = .str artifact.issuerKeyId
  signature : d.getD "signature" = .str artifact.signature

-- the text fields that from_dict wants to be non-empty
structure Addressed (artifact : Artifact) : Prop where
  nonce : artifact.nonce ≠ []
  replayFrameRef : artifact.replayFrameRef ≠ []
  issuerKeyId : artifact.issuerKeyId ≠ []
  signature : artifact.signature ≠ []

theorem textField_eq_ok {name : String} {s : Str} (h : d.getD (lit name) = .str s) (hs : s ≠ []) :
    textField d name = .ok s := by
  rw [textField, h]
  cases s with
  | nil => exact absurd rfl hs
  | cons c s => rfl

theorem fromDict_eq_ok {e : ℤ} (h : Carries d artifact) (hexpires : artifact.expiresAt = .int e)
    (ha : Addressed artifact) : fromDict (.dict d) = .ok artifact := by
  have hread : integerField d "expires_at" = .ok e := by
    rw [integerField, h.expiresAt, hexpires]
  simp only [fromDict, h.only, h.all, and_self, if_true, readFields, objectField, h.actionRequest,
    h.decision, hread, textField_eq_ok h.nonce ha.nonce,
    textField_eq_ok h.replayFrameRef ha.replayFrameRef,
    textField_eq_ok h.issuerKeyId ha.issuerKeyId, textField_eq_ok h.signature ha.signature]
  change Except.ok (ε := Exc) { artifact with expiresAt := .int e } = .ok artifact
  rw [← hexpires]

-- whatever comes through the transport expires at a whole number of seconds
theorem fromDict_expiresAt {value : PyVal} (h : fromDict value = .ok artifact) :
    ∃ e, artifact.expiresAt = .int e := by
  unfold fromDict at h
  split at h
  · split at h
    · simp only [readFields, bind_eq_ok] at h
      obtain ⟨request, -, decision, -, e, -, nonce, -, frameRef, -, keyId, -, signature, -, h⟩ := h
      obtain rfl := Except.ok.inj h
      exact ⟨e, rfl⟩
    · cases h
  · cases h

theorem fromJson_expiresAt {P : Primitives} {text : Str} (h : fromJson P text = .ok artifact) :
    ∃ e, artifact.expiresAt = .int e := by
  obtain ⟨payload, -, hread⟩ := bind_eq_ok.mp h
  exact fromDict_expiresAt hread

theorem carries_toDict : Carries artifact.toDict artifact := by
  refine ⟨?_, ?_, ?_, ?_, ?_, ?_, ?_, ?_, ?_⟩
  · simp [toDict, PyDict.hasOnly, transportKeys, PyDict.ofFields]
  · simp [toDict, PyDict.hasAll, PyDict.has, transportKeys]
  all_goals simp [toDict, PyDict.getD]

end Specification

end GovernanceAuthorizationArtifact

end GovernedAutonomy
