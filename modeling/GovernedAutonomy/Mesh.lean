import GovernedAutonomy.Replay

namespace GovernedAutonomy

open Python

structure GovernanceInput where
  sourceId : Str
  decision : PyDict
  weight : ℤ
  priority : ℤ
  metadata : Option PyDict
  sourceSignature : Option Str
  allow : Bool
  sourceNonEmpty : sourceId ≠ []
  weightPos : 0 < weight
  priorityNonneg : 0 ≤ priority
  decided : decision.get "allow" = some (.bool allow)
  signatureNonEmpty : sourceSignature ≠ some []

def meshReject {α : Type} (message : String) : Result α := .error (governanceMeshError (lit message))

namespace GovernanceInput

variable (P : Primitives)

def sourceIdOf (sourceId : PyVal) : Result {s : Str // s ≠ []} :=
  match sourceId with
  | .str (c :: s) => .ok ⟨c :: s, by simp⟩
  | _ => meshReject "source_id must be a non-empty string"

def decisionOf (decision : PyVal) : Result PyDict :=
  match decision with
  | .dict (m :: d) =>
      match canonicalJson P (.dict (m :: d)) with
      | .ok _ => .ok (m :: d)
      | .error e =>
          if e.isTypeError || e.isValueError then
            meshReject "decision must contain canonical JSON values"
          else .error e
  | _ => meshReject "decision must be a non-empty mapping"

def weightOf (weight : PyVal) : Result {n : ℤ // 0 < n} :=
  match weight with
  | .int n => if h : 0 < n then .ok ⟨n, h⟩ else meshReject "weight must be a positive integer"
  | _ => meshReject "weight must be a positive integer"

def priorityOf (priority : PyVal) : Result {n : ℤ // 0 ≤ n} :=
  match priority with
  | .int n =>
      if h : 0 ≤ n then .ok ⟨n, h⟩ else meshReject "priority must be a non-negative integer"
  | _ => meshReject "priority must be a non-negative integer"

def metadataOf (metadata : PyVal) : Result (Option PyDict) :=
  match metadata with
  | .none => .ok none
  | .dict d => .ok (some d)
  | _ => meshReject "metadata must be a mapping when present"

def allowOf (decision : PyDict) : Result {b : Bool // decision.get "allow" = some (.bool b)} :=
  match decision.get "allow" with
  | some (.bool b) => .ok ⟨b, rfl⟩
  | _ => meshReject "decision.allow must be a boolean"

def sourceSignatureOf (signature : PyVal) : Result {s : Option Str // s ≠ some []} :=
  match signature with
  | .none => .ok ⟨none, by simp⟩
  | .str (c :: s) => .ok ⟨some (c :: s), by simp⟩
  | _ => meshReject "source_signature must be a non-empty string when present"

def postInit (sourceId decision weight priority metadata sourceSignature : PyVal) :
    Result GovernanceInput := do
  let sourceId ← sourceIdOf sourceId
  let decision ← decisionOf P decision
  let weight ← weightOf weight
  let priority ← priorityOf priority
  let metadata ← metadataOf metadata
  let allow ← allowOf decision
  let sourceSignature ← sourceSignatureOf sourceSignature
  .ok
    { sourceId := sourceId.1, decision := decision, weight := weight.1, priority := priority.1
      metadata := metadata, sourceSignature := sourceSignature.1, allow := allow.1
      sourceNonEmpty := sourceId.2, weightPos := weight.2, priorityNonneg := priority.2
      decided := allow.2, signatureNonEmpty := sourceSignature.2 }

def digest (item : GovernanceInput) : Result Str := canonicalDigest P (.dict item.decision)

def attestationPayload (item : GovernanceInput) : Result String :=
  canonicalJson P (.dict (PyDict.ofFields
    [("source_id", .str item.sourceId), ("decision", .dict item.decision),
      ("weight", .int item.weight), ("priority", .int item.priority),
      ("metadata", .dict (item.metadata.getD []))]))

def toDict (item : GovernanceInput) : Result PyDict := do
  let decisionDigest ← item.digest P
  let value := PyDict.ofFields
    [("source_id", .str item.sourceId), ("decision", .dict item.decision),
      ("weight", .int item.weight), ("priority", .int item.priority),
      ("metadata", .dict (item.metadata.getD [])), ("decision_digest", .str decisionDigest)]
  match item.sourceSignature with
  | none => .ok value
  | some signature => .ok (value ++ PyDict.ofFields [("source_signature", .str signature)])

def inputKeys : List String :=
  ["source_id", "decision", "weight", "priority", "metadata", "decision_digest"]

def fromDict (value : PyVal) : Result GovernanceInput := do
  match value with
  | .dict d => do
      raiseIf (¬ (PyDict.hasOnly d (inputKeys ++ ["source_signature"]) = true ∧
          PyDict.hasAll d inputKeys = true))
        (governanceMeshError (lit "governance input has an invalid schema"))
      let item ← postInit P (PyDict.getD d "source_id") (PyDict.getD d "decision")
        (PyDict.getD d "weight") (PyDict.getD d "priority") (PyDict.getD d "metadata")
        (PyDict.getD d "source_signature")
      let decisionDigest ← item.digest P
      raiseIf ((PyDict.getD d "decision_digest").eq (.str decisionDigest) = false)
        (governanceMeshError (lit "governance input digest does not match evidence"))
      .ok item
  | _ => meshReject "governance input must be an object"

end GovernanceInput

structure GovernancePreflightDecision where
  allow : Bool
  status : String
  selectedDigest : Option Str
  selectedSourceIds : List Str
  inputDigests : List (Str × Str)
  conflicts : List PyDict
  reasons : List Str
  digest : Str
  replayFrameRef : Option Str

structure GovernanceSourceRegistry where
  trustStore : Option TrustStore := none
  keys : List (Str × PublicKey) := []
  revoked : List Str := []

def GovernanceSourceRegistry.resolve (registry : GovernanceSourceRegistry) (sourceId : Str) :
    Option PublicKey :=
  if sourceId ∈ registry.revoked then none
  else (registry.trustStore.bind (fun store => store.resolve sourceId)).or
    (Dict.get registry.keys sourceId)

structure GovernanceMesh where
  trustedSources : List (Str × PublicKey) := []
  trustStore : Option TrustStore := none
  sourceRegistry : Option GovernanceSourceRegistry := none

-- one input together with the digest of its decision
abbrev Rated := GovernanceInput × Str

namespace GovernanceMesh

variable (P : Primitives) (mesh : GovernanceMesh)

def attestationKey (sourceId : Str) : Option PublicKey :=
  match mesh.sourceRegistry, mesh.trustStore with
  | some registry, _ => registry.resolve sourceId
  | none, some store => store.resolve sourceId
  | none, none => Dict.get mesh.trustedSources sourceId

def verifySourceAttestation (item : GovernanceInput) : Result Unit :=
  if mesh.trustedSources.isEmpty && mesh.trustStore.isNone && mesh.sourceRegistry.isNone then .ok ()
  else
    let invalid : Exc := governanceMeshError
      (lit "governance source attestation is invalid: " ++ item.sourceId)
    match mesh.attestationKey item.sourceId, item.sourceSignature with
    | some key, some signature => do
        let payload ← item.attestationPayload P
        raiseIf (verifySignature P key payload signature = false) invalid
    | _, _ => .error invalid

def topPriority (inputs : List Rated) : ℤ :=
  inputs.foldl (fun top item => max top item.1.priority) 0

def bySource (inputs : List Rated) : List Rated :=
  inputs.insertionSort (fun a b => a.1.sourceId ≤ b.1.sourceId)

def conflictsOf (top : ℤ) (topInputs : List Rated) : List PyDict :=
  (bySource topInputs).flatMap (fun source =>
    ((bySource topInputs).filter (fun other =>
      source.1.sourceId < other.1.sourceId ∧ source.2 ≠ other.2)).map (fun other =>
        PyDict.ofFields
          [("source_ids", strList [source.1.sourceId, other.1.sourceId]),
            ("left_digest", .str source.2), ("right_digest", .str other.2),
            ("left_allow", .bool source.1.allow), ("right_allow", .bool other.1.allow),
            ("priority", .int top)]))

def groupsOf (inputs : List Rated) : List (Str × List Rated) :=
  inputs.foldl (fun groups item =>
    Dict.set groups item.2 ((Dict.get groups item.2).getD [] ++ [item])) []

def weightOf (members : List Rated) : ℤ := (members.map (fun item => item.1.weight)).sum

-- sort key: highest priority first, then heaviest, then smallest digest
def ranksBefore (a b : Str × List Rated) : Bool :=
  let pa := topPriority a.2
  let pb := topPriority b.2
  let wa := weightOf a.2
  let wb := weightOf b.2
  decide (pb < pa) || (decide (pa = pb) &&
    (decide (wb < wa) || (decide (wa = wb) && decide (a.1 ≤ b.1))))

def winner? (inputs : List Rated) : Option (Str × List Rated) :=
  ((groupsOf inputs).insertionSort (fun a b => ranksBefore a b = true)).head?

def iterate (value : PyVal) : Result (List PyVal) :=
  match value with
  | .list xs => .ok xs
  | .tuple xs => .ok xs
  | .str s => .ok (s.map (fun p => .str [p]))
  | .dict ms => .ok (ms.map (fun m => match m.1 with
      | .str s => .str s
      | .int i => .int i
      | .bool b => .bool b
      | .float f => .float f
      | .none => .none
      | .other id => .object id))
  | _ => .error (.builtin .typeError)

def strAll : List PyVal → Result (List Str)
  | [] => .ok []
  | v :: vs => do
      let s ← P.str v
      let rest ← strAll vs
      .ok (s :: rest)

def reasonsOf (decision : PyDict) : Result (List Str) := do
  let values ← iterate ((decision.get "reasons").getD (.tuple []))
  strAll P values

def optStrVal : Option Str → PyVal
  | some s => .str s
  | none => .none

structure Outcome where
  allow : Bool
  status : String
  reasons : List Str
  selectedDigest : Option Str
  selectedSourceIds : List Str

def outcomeOf (inputs : List Rated) : Result Outcome := do
  let top := topPriority inputs
  let topInputs := inputs.filter (fun item => item.1.priority = top)
  match winner? inputs with
  | none => .error (.builtin .keyError)
  | some (_, []) => .error (.builtin .keyError)
  | some (digest, lead :: members) =>
      if 1 < (topInputs.map Prod.snd).dedup.length then
        .ok ⟨false, "conflict",
          [lit "highest-priority governance sources provide conflicting decisions"], none, []⟩
      else do
        let reasons ← reasonsOf P lead.1.decision
        .ok ⟨lead.1.allow, if lead.1.allow then "allow" else "deny", reasons, some digest,
          sortedStrs ((lead :: members).map (fun item => item.1.sourceId))⟩

def rateAll : List GovernanceInput → Result (List Rated)
  | [] => .ok []
  | item :: items => do
      let digest ← item.digest P
      let rest ← rateAll items
      .ok ((item, digest) :: rest)

def unsignedDict (requestDigest : Str) (replayFrameRef : Option Str) (outcome : Outcome)
    (inputDigests : List (Str × Str)) (conflicts : List PyDict) : PyDict :=
  PyDict.ofFields
    [("request_digest", .str requestDigest), ("allow", .bool outcome.allow),
      ("status", .str (lit outcome.status)),
      ("selected_digest", optStrVal outcome.selectedDigest),
      ("selected_source_ids", strList outcome.selectedSourceIds),
      ("input_digests", strDict .str inputDigests),
      ("conflicts", .list (conflicts.map .dict)), ("reasons", strList outcome.reasons),
      ("replay_frame_ref", optStrVal replayFrameRef)]

structure Preflight where
  decision : GovernancePreflightDecision
  unsigned : PyDict

-- preflight up to the point where a replay log, if there is one, records it
def evaluate (inputs : List GovernanceInput) (requestDigest : Str)
    (replayFrameRef : Option Str) : Result Preflight := do
  raiseIf (requestDigest = []) (governanceMeshError (lit "request_digest must be a non-empty string"))
  raiseIf (inputs = []) (governanceMeshError (lit "at least one governance input is required"))
  inputs.forM (mesh.verifySourceAttestation P)
  raiseIf (¬ (inputs.map GovernanceInput.sourceId).Nodup)
    (governanceMeshError (lit "source IDs must be unique per preflight"))
  let rated ← rateAll P inputs
  let top := topPriority rated
  let inputDigests := (bySource rated).map (fun item => (item.1.sourceId, item.2))
  let conflicts := conflictsOf top (rated.filter (fun item => item.1.priority = top))
  let outcome ← outcomeOf P rated
  let unsigned := unsignedDict requestDigest replayFrameRef outcome inputDigests conflicts
  let digest ← canonicalDigest P (.dict unsigned)
  .ok
    { decision :=
        { allow := outcome.allow, status := outcome.status
          selectedDigest := outcome.selectedDigest
          selectedSourceIds := outcome.selectedSourceIds, inputDigests := inputDigests
          conflicts := conflicts, reasons := outcome.reasons, digest := digest
          replayFrameRef := replayFrameRef }
      unsigned := unsigned }

def frameRef (preflight : Preflight) : Str :=
  match preflight.decision.replayFrameRef with
  | some (c :: ref) => c :: ref
  | _ => lit "mesh-" ++ preflight.decision.digest

def preflightEvent (requestDigest : Str) (preflight : Preflight) : PyDict :=
  PyDict.ofFields
    [("type", .str "governance_preflight"), ("request_digest", .str requestDigest),
      ("decision_digest", .str preflight.decision.digest), ("decision", .dict preflight.unsigned)]

-- preflight over a replay log
def preflight (log : ReplayLog) (inputs : List GovernanceInput) (requestDigest : Str)
    (replayFrameRef : Option Str) : Result (ReplayLog × GovernancePreflightDecision) := do
  let result ← mesh.evaluate P inputs requestDigest replayFrameRef
  let (log, _) ← log.append P (frameRef result) (preflightEvent requestDigest result)
  .ok (log, { result.decision with replayFrameRef := some (frameRef result) })

end GovernanceMesh

end GovernedAutonomy
