import GovernedAutonomy.Models

namespace GovernedAutonomy

open Python

inductive Number where
  | int (i : ℤ)
  | float (f : PyFloat)

namespace Number

def toVal : Number → PyVal
  | .int i => .int i
  | .float f => .float f

def value? : Number → Option PyFloat.Extended
  | .int i => some (intValue i)
  | .float f => f.value?

-- math.isfinite converts an integer to a double first, which may overflow
def isFinite : Number → Result Bool
  | .int i =>
      if (nearestDouble (i.natAbs : ℚ)).isNone then .error (.builtin .overflowError) else .ok true
  | .float f => .ok f.isFinite

def gt (a b : Number) : Bool :=
  match a.value?, b.value? with
  | some x, some y => decide (y < x)
  | _, _ => false

end Number

def sortedStrs (ss : List Str) : List Str := ss.insertionSort (· ≤ ·)

def sortedItems {V : Type} (d : List (Str × V)) : List (Str × V) :=
  d.insertionSort (fun a b => a.1 ≤ b.1)

def joined (sep : String) : List Str → Str
  | [] => []
  | [s] => s
  | s :: ss => s ++ lit sep ++ joined sep ss

def strList (ss : List Str) : PyVal := .list (ss.map .str)

def strDict {V : Type} (f : V → PyVal) (d : List (Str × V)) : PyVal :=
  .dict (d.map (fun m => (.str m.1, f m.2)))

theorem encodable_strList {depth : Nat} {ss : List Str} :
    (strList ss).Encodable depth ↔ 0 < depth ∧ ∀ s ∈ ss, Json.Clean s := by
  rw [strList, PyVal.encodable_list]
  simp only [List.forall_mem_map, PyVal.encodable_str]

theorem encodable_strDict {V : Type} {depth : Nat} {f : V → PyVal} {d : List (Str × V)} :
    (strDict f d).Encodable depth ↔
      0 < depth ∧ ∀ m ∈ d, Json.Clean m.1 ∧ (f m.2).Encodable (depth - 1) := by
  rw [strDict, PyVal.encodable_dict, and_iff_right (PyVal.sortableKeys_str d f)]
  simp only [List.forall_mem_map, WritableKey, PyKey.text, Except.ok.injEq, exists_eq_left']

structure Policy where
  policyId : Str
  allowedActions : List Str
  requiredFields : List (Str × List Str)
  exactFields : List (Str × List (Str × PyVal))
  requiredContext : List Str := []
  exactContext : List (Str × PyVal) := []
  maxRequestBytes : ℤ := 64 * 1024
  maxTtlSeconds : ℤ := 300
  requiredApprovals : List (Str × ℤ) := []
  maxNumericFields : List (Str × List (Str × Number)) := []
  requiredMeshInputs : List (Str × ℤ) := []
  requiredMeshSources : List (Str × List Str) := []
  meshRequiredActions : List Str := []
  meshRequiredEnvironments : List Str := []

namespace Policy

def reject (bad : Bool) (message : String) : Result Unit :=
  raiseIf (bad = true) (.valueError (lit message))

def anyEmpty (ss : List Str) : Bool := ss.any (fun s => s.isEmpty)

def checkNumericFields : List (Str × List (Str × Number)) → Result Unit
  | [] => .ok ()
  | (action, fields) :: rest => do
      reject action.isEmpty "max_numeric_fields must map action names to field limits"
      let bad ← fields.mapM (fun m => do
        if m.1.isEmpty then .ok true
        else
          let finite ← m.2.isFinite
          .ok (!finite))
      reject (bad.any id) "numeric field limits must use finite numbers"
      checkNumericFields rest

def postInit (p : Policy) : Result Policy := do
  reject p.policyId.isEmpty "policy_id must not be empty"
  reject (p.maxRequestBytes ≤ 0) "max_request_bytes must be positive"
  reject (p.maxTtlSeconds ≤ 0) "max_ttl_seconds must be positive"
  reject (anyEmpty p.allowedActions) "allowed_actions must contain non-empty strings"
  reject (sortedStrs p.allowedActions ≠ p.allowedActions)
    "allowed_actions must be sorted for deterministic output"
  reject (sortedStrs p.requiredContext ≠ p.requiredContext)
    "required_context must be sorted for deterministic output"
  reject (anyEmpty p.requiredContext) "required_context must contain non-empty strings"
  p.requiredFields.forM (fun m => do
    reject m.1.isEmpty "required_fields action names must be non-empty strings"
    reject (anyEmpty m.2) "required_fields must contain non-empty strings")
  p.exactFields.forM (fun m =>
    reject m.1.isEmpty "exact_fields action names must be non-empty strings")
  p.requiredApprovals.forM (fun m => do
    reject m.1.isEmpty "required_approvals action names must be non-empty strings"
    reject (m.2 < 0) "required_approvals must use non-negative integers")
  checkNumericFields p.maxNumericFields
  p.requiredMeshInputs.forM (fun m => do
    reject m.1.isEmpty "required_mesh_inputs action names must be non-empty strings"
    reject (m.2 < 0) "required_mesh_inputs must use non-negative integers")
  p.requiredMeshSources.forM (fun m => do
    reject m.1.isEmpty "required_mesh_sources action names must be non-empty strings"
    reject (anyEmpty m.2) "required_mesh_sources must contain only non-empty source IDs")
  reject (anyEmpty p.meshRequiredActions) "mesh_required_actions must contain non-empty strings"
  reject (sortedStrs p.meshRequiredActions ≠ p.meshRequiredActions)
    "mesh_required_actions must be sorted for deterministic output"
  reject (anyEmpty p.meshRequiredEnvironments)
    "mesh_required_environments must contain non-empty strings"
  reject (sortedStrs p.meshRequiredEnvironments ≠ p.meshRequiredEnvironments)
    "mesh_required_environments must be sorted for deterministic output"
  .ok p

def toDict (p : Policy) : PyDict :=
  let base := PyDict.ofFields
    [("policy_id", .str p.policyId), ("allowed_actions", strList p.allowedActions),
      ("required_fields", strDict strList (sortedItems p.requiredFields)),
      ("exact_fields", strDict (strDict id) (sortedItems p.exactFields)),
      ("required_context", strList p.requiredContext),
      ("exact_context", strDict id p.exactContext),
      ("max_request_bytes", .int p.maxRequestBytes), ("max_ttl_seconds", .int p.maxTtlSeconds),
      ("required_approvals", strDict .int (sortedItems p.requiredApprovals))]
  let optional (present : Bool) (name : String) (value : PyVal) : PyDict :=
    if present then [(.str (lit name), value)] else []
  base ++
    optional (!p.maxNumericFields.isEmpty) "max_numeric_fields"
      (strDict (fun fields => strDict Number.toVal (sortedItems fields))
        (sortedItems p.maxNumericFields)) ++
    optional (!p.requiredMeshInputs.isEmpty) "required_mesh_inputs"
      (strDict .int (sortedItems p.requiredMeshInputs)) ++
    optional (!p.requiredMeshSources.isEmpty) "required_mesh_sources"
      (strDict strList (sortedItems p.requiredMeshSources)) ++
    optional (!p.meshRequiredActions.isEmpty) "mesh_required_actions"
      (strList p.meshRequiredActions) ++
    optional (!p.meshRequiredEnvironments.isEmpty) "mesh_required_environments"
      (strList p.meshRequiredEnvironments)

def digest (P : Primitives) (p : Policy) : Result Str := canonicalDigest P (.dict p.toDict)

end Policy

-- d.get(key) for a dict with string keys and any key: hashing the key may raise
def lookup {V : Type} (d : List (Str × V)) (key : PyVal) : Result (Option V) :=
  match key with
  | .str s => .ok (Dict.get d s)
  | key => if key.hashable then .ok none else .error (.builtin .typeError)

structure Decision where
  allow : Bool
  allowedActions : List Str
  policy : Str
  policyDigest : Str
  reasons : List Str
  reasonCodes : List Str
  requestDigest : Str

def Decision.toDict (d : Decision) : PyDict :=
  PyDict.ofFields
    [("allow", .bool d.allow), ("allowed_actions", strList d.allowedActions),
      ("policy", .str d.policy), ("policy_digest", .str d.policyDigest),
      ("reasons", strList d.reasons), ("reason_codes", strList d.reasonCodes),
      ("request_digest", .str d.requestDigest)]

structure DeterministicArbiter where
  issuerKeys : List (Str × PublicKey) := []
  trustStore : Option TrustStore := none

structure Finding where
  reason : Str
  code : Str

def Finding.of (reason : Str) (code : String) : Finding := ⟨reason, lit code⟩

namespace DeterministicArbiter

variable (P : Primitives) (arbiter : DeterministicArbiter)

def resolvePublicKey (keyId : Str) : Option PublicKey :=
  match arbiter.trustStore with
  | some store => store.resolve keyId
  | none => Dict.get arbiter.issuerKeys keyId

def counter? (container : PyDict) : Option ℤ :=
  match container.getD "approval_count", container.getD "approvals_count" with
  | .int n, _ => some n
  | _, .int n => some n
  | _, _ => none

def approvalsOf (container : PyDict) : List PyVal :=
  match container.getD "approvals" with
  | .list xs => xs
  | .tuple xs => xs
  | _ => []

-- the key id under which one entry of an approvals list counts, if it does
def approver? (request : PyDict) (approval : PyVal) : Result (Option Str) :=
  match approval with
  | .dict d =>
      if PyDict.has d "issuer_key_id" && PyDict.has d "signature" then
        match SignedApproval.fromDict d with
        | .error e => if e.isValueError then .ok none else .error e
        | .ok candidate =>
            match arbiter.resolvePublicKey candidate.issuerKeyId with
            | none => .ok none
            | some publicKey => do
                let verified ← candidate.verify P publicKey
                if verified then
                  let bound ← candidate.matchesRequest P request none
                  .ok (if bound then some candidate.issuerKeyId else none)
                else .ok none
      else .ok none
  | _ => .ok none

def addApprovers (request : PyDict) : List PyVal → List Str → Result (List Str)
  | [], approvers => .ok approvers
  | approval :: approvals, approvers => do
      let signer ← arbiter.approver? P request approval
      addApprovers request approvals
        (match signer with
          | some k => if k ∈ approvers then approvers else approvers ++ [k]
          | none => approvers)

def approvalCount (request context : PyDict) : Result ℤ :=
  match counter? request with
  | some n => .ok n
  | none => do
      let approvers ← arbiter.addApprovers P request (approvalsOf request) []
      match counter? context with
      | some n => .ok n
      | none => do
          let approvers ← arbiter.addApprovers P request (approvalsOf context) approvers
          .ok approvers.length

def numericExceeds (value : PyVal) (maximum : Number) : Result Bool := do
  match value with
  | .int i => do
      let finite ← (Number.int i).isFinite
      .ok (!finite || (Number.int i).gt maximum)
  | .float f => do
      let finite ← (Number.float f).isFinite
      .ok (!finite || (Number.float f).gt maximum)
  | _ => .ok true

def numericFindings (request : PyDict) : List (Str × Number) → Result (List Finding)
  | [] => .ok []
  | (name, maximum) :: rest => do
      let exceeds ← numericExceeds (request.getD name) maximum
      let findings ← numericFindings request rest
      .ok ((if exceeds then
          [.of (lit "numeric field exceeds policy maximum: " ++ name) "numeric_limit_exceeded"]
        else []) ++ findings)

def missingFindings (d : PyDict) (text code : String) (names : List Str) : List Finding :=
  (names.filter (fun name => !d.has name)).map (fun name => .of (lit text ++ name) code)

def mismatchFindings (d : PyDict) (text code : String) (expected : List (Str × PyVal)) :
    List Finding :=
  (expected.filter (fun m => !(d.getD m.1).eq m.2)).map (fun m => .of (lit text ++ m.1) code)

def contextOf (request : PyDict) : PyDict × List Finding :=
  match request.get "context" with
  | none => ([], [])
  | some (.dict context) => (context, [])
  | some _ => ([], [.of (lit "context must be an object") "invalid_context"])

def quorumFindings (request : PyDict) (required : ℤ) : Result (List Finding) :=
  if 0 < required then do
    let count ← arbiter.approvalCount P request (contextOf request).1
    if count < required then do
      let action ← P.str (request.getD "action")
      let countText ← intText count
      let requiredText ← intText required
      .ok [.of (lit "approval quorum not met for action " ++ action ++ lit ": " ++ countText ++
        lit " < " ++ requiredText) "approval_quorum_not_met"]
    else .ok []
  else .ok []

def isAllowed (policy : Policy) (action : PyVal) : Bool :=
  policy.allowedActions.any (fun a => action.eq (.str a))

def constraintFindings (request : PyDict) (policy : Policy) (requestBytes : String) :
    Result (List Finding) := do
  let action := request.getD "action"
  let (context, shape) := contextOf request
  let required ← lookup policy.requiredFields action
  let exact ← lookup policy.exactFields action
  let limits ← lookup policy.maxNumericFields action
  let numeric ← numericFindings request (limits.getD [])
  .ok
    ((if policy.maxRequestBytes < requestBytes.utf8ByteSize then
        [.of (lit "request exceeds policy size limit") "request_too_large"] else []) ++
      shape ++
      (if isAllowed policy action then []
        else [.of (lit "action is not allowed by policy") "action_not_allowed"]) ++
      missingFindings request "required field is missing: " "required_field_missing"
        (required.getD []) ++
      mismatchFindings request "field does not match policy: " "field_mismatch"
        (exact.getD []) ++
      numeric ++
      missingFindings context "required context is missing: " "required_context_missing"
        policy.requiredContext ++
      mismatchFindings context "context does not match policy: " "context_mismatch"
        policy.exactContext)

def requiredApprovalsFor (policy : Policy) (request : PyDict) : Result ℤ := do
  let required ← lookup policy.requiredApprovals (request.getD "action")
  .ok (required.getD 0)

def verdict (policy : Policy) (request : PyDict) (requestBytes : String) (found : List Finding)
    (policyDigest : Str) : Decision where
  allow := isAllowed policy (request.getD "action") && found.isEmpty
  allowedActions := policy.allowedActions
  policy := policy.policyId
  policyDigest := policyDigest
  reasons := found.map Finding.reason
  reasonCodes := found.map Finding.code
  requestDigest := hexdigest P requestBytes

def decide (request : PyDict) (policy : Policy) : Result Decision := do
  let requestBytes ← canonicalJson P (.dict request)
  let constraints ← constraintFindings request policy requestBytes
  let required ← requiredApprovalsFor policy request
  let quorum ← arbiter.quorumFindings P request required
  let policyDigest ← policy.digest P
  .ok (verdict P policy request requestBytes (constraints ++ quorum) policyDigest)

end DeterministicArbiter

structure SignedPolicyManifest where
  policy : Policy
  version : ℤ
  issuerKeyId : Str
  signature : Str

namespace SignedPolicyManifest

variable (P : Primitives)

def unsignedPayload (m : SignedPolicyManifest) : Result String :=
  canonicalJson P (.dict (PyDict.ofFields
    [("policy", .dict m.policy.toDict), ("version", .int m.version),
      ("issuer_key_id", .str m.issuerKeyId)]))

def verify (m : SignedPolicyManifest) (trustStore : TrustStore) : Result Bool :=
  if m.version ≤ 0 then .ok false
  else
    match trustStore.resolve m.issuerKeyId with
    | none => .ok false
    | some key => do
        let payload ← m.unsignedPayload P
        .ok (verifySignature P key payload m.signature)

end SignedPolicyManifest

structure PolicyRegistry where
  policies : List (Str × Policy) := []
  versions : List (Str × ℤ) := []
  signedManifests : List (Str × SignedPolicyManifest) := []
  trustStore : Option TrustStore := none

namespace PolicyRegistry

variable (P : Primitives)

def getPolicy (registry : PolicyRegistry) (policyId : PyVal) : Result (Option Policy) :=
  lookup registry.policies policyId

def register (registry : PolicyRegistry) (policy : Policy) : Result PolicyRegistry := do
  match Dict.get registry.policies policy.policyId with
  | some existing => do
      let current ← existing.digest P
      let offered ← policy.digest P
      raiseIf (current ≠ offered)
        (.valueError (lit "policy ID is already registered: " ++ policy.policyId))
  | none => .ok ()
  .ok
    { registry with
      policies := Dict.set registry.policies policy.policyId policy
      versions := if Dict.has registry.versions policy.policyId then registry.versions
        else Dict.set registry.versions policy.policyId 1 }

def adopt (registry : PolicyRegistry) (manifest : SignedPolicyManifest) :
    Result PolicyRegistry := do
  let registry ← registry.register P manifest.policy
  .ok
    { registry with
      signedManifests := Dict.set registry.signedManifests manifest.policy.policyId manifest
      versions := Dict.set registry.versions manifest.policy.policyId manifest.version }

def registerSigned (registry : PolicyRegistry) (manifest : SignedPolicyManifest)
    (trustStore : Option TrustStore) : Result PolicyRegistry := do
  match trustStore.or registry.trustStore with
  | none => .error (.valueError
      (lit "a trust store is required to validate a signed policy manifest"))
  | some store => do
      let verified ← manifest.verify P store
      raiseIf (verified = false)
        (.valueError (lit "policy manifest signature is invalid or untrusted"))
      let version := (Dict.get registry.versions manifest.policy.policyId).getD 0
      match Dict.get registry.policies manifest.policy.policyId with
      | some current =>
          if manifest.version ≤ version then
            if manifest.version = version then do
              let held ← current.digest P
              let offered ← manifest.policy.digest P
              if held = offered then .ok registry
              else .error (.valueError
                (lit "policy manifest version is stale or conflicting"))
            else .error (.valueError
              (lit "policy manifest version is stale or conflicting"))
          else registry.adopt P manifest
      | none => registry.adopt P manifest

end PolicyRegistry

end GovernedAutonomy
