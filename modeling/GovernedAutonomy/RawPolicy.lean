import GovernedAutonomy.PolicyDocument
import GovernedAutonomy.Python.Keys

namespace GovernedAutonomy

open Python PolicyDocument

-- a policy as policy_from_dict builds it, with fields of whatever type the manifest gave them
structure RawPolicy where
  policyId : PyVal
  allowedActions : List PyVal
  requiredFields : List (PyKey × List PyVal)
  exactFields : PyDict
  requiredContext : List PyVal
  exactContext : PyDict
  maxRequestBytes : PyVal
  maxTtlSeconds : PyVal
  requiredApprovals : PyDict
  maxNumericFields : PyDict
  requiredMeshInputs : PyDict
  requiredMeshSources : List (PyKey × List PyVal)
  meshRequiredActions : List PyVal
  meshRequiredEnvironments : List PyVal

namespace RawPolicy

open Policy (reject)

def positive (message : String) (value : PyVal) : Result Unit := do
  let bad ← value.compareNumber (fun x => decide (x ≤ intValue 0))
  reject bad message

def isName : PyVal → Bool
  | .str s => !s.isEmpty
  | _ => false

def names (message : String) (xs : List PyVal) : Result Unit :=
  reject (xs.any (fun x => !isName x)) message

-- tuple(sorted(xs)) != xs
def unsorted (xs : List PyVal) : Result Bool := do
  let ys ← PyVal.sortedByKey id xs
  .ok (!PyVal.eqItems ys xs)

theorem unsorted_strs (ss : List Str) :
    unsorted (ss.map .str) = .ok (decide (sortedStrs ss ≠ ss)) := by
  have hranks : PyVal.Ranks PyVal.str id := PyVal.ranks_str id
  have hsorted : PyVal.sortedByKey id (ss.map PyVal.str) = .ok ((sortedStrs ss).map .str) :=
    @PyVal.sortedByKey_map _ _ _ _ id PyVal.str id hranks ss
  have hsame : PyVal.eqItems ((sortedStrs ss).map .str) (ss.map .str) =
      decide (sortedStrs ss = ss) := by
    rw [Bool.eq_iff_iff, decide_eq_true_iff]
    simpa using (hranks.map (sortedStrs ss) ss).2
  rw [unsorted, hsorted]
  exact congrArg Except.ok (by rw [hsame, decide_not])

def inOrder (message : String) (xs : List PyVal) : Result Unit := do
  let bad ← unsorted xs
  reject bad message

def actionNamed (message : String) (action : PyKey) : Result Unit :=
  reject (!isName (keyVal action)) message

def exactObject : PyVal → Result Unit
  | .dict _ => .ok ()
  | _ => .error (.valueError (lit "exact_fields constraints must be objects"))

def contextDict : PyVal → Result PyDict
  | .none => .ok []
  | value => dictOf (.valueError (lit "exact_context must be an object")) value

def count (message : String) : PyVal → Result Unit
  | .int i => reject (i < 0) message
  | _ => .error (.valueError (lit message))

def checkFields (m : PyKey × List PyVal) : Result Unit := do
  actionNamed "required_fields action names must be non-empty strings" m.1
  names "required_fields must contain non-empty strings" m.2

def checkExact (m : PyKey × PyVal) : Result Unit := do
  actionNamed "exact_fields action names must be non-empty strings" m.1
  exactObject m.2

def checkApprovals (m : PyKey × PyVal) : Result Unit := do
  actionNamed "required_approvals action names must be non-empty strings" m.1
  count "required_approvals must use non-negative integers" m.2

def checkInputs (m : PyKey × PyVal) : Result Unit := do
  actionNamed "required_mesh_inputs action names must be non-empty strings" m.1
  count "required_mesh_inputs must use non-negative integers" m.2

def checkSources (m : PyKey × List PyVal) : Result Unit := do
  actionNamed "required_mesh_sources action names must be non-empty strings" m.1
  names "required_mesh_sources must contain only non-empty source IDs" m.2

def checkLimit (m : PyKey × PyVal) : Result Unit := do
  let message := "numeric field limits must use finite numbers"
  actionNamed message m.1
  match m.2 with
  | .int i => do
      let finite ← (Number.int i).isFinite
      reject (!finite) message
  | .float f => do
      let finite ← (Number.float f).isFinite
      reject (!finite) message
  | _ => .error (.valueError (lit message))

def checkLimits (m : PyKey × PyVal) : Result Unit := do
  let message := "max_numeric_fields must map action names to field limits"
  actionNamed message m.1
  let fields ← dictOf (.valueError (lit message)) m.2
  fields.forM checkLimit

-- Policy(...).__post_init__, in its order
def postInit (d : PyDict) (allowedActions requiredContext : List PyVal)
    (requiredFields requiredMeshSources : List (PyKey × List PyVal))
    (meshRequiredActions meshRequiredEnvironments : List PyVal) : Result RawPolicy := do
  reject (!(d.getD "policy_id").truthy) "policy_id must not be empty"
  positive "max_request_bytes must be positive" (d.getD "max_request_bytes")
  positive "max_ttl_seconds must be positive" (d.getD "max_ttl_seconds")
  names "allowed_actions must contain non-empty strings" allowedActions
  inOrder "allowed_actions must be sorted for deterministic output" allowedActions
  inOrder "required_context must be sorted for deterministic output" requiredContext
  names "required_context must contain non-empty strings" requiredContext
  requiredFields.forM checkFields
  let exactFields ← itemsOf (d.getD "exact_fields")
  exactFields.forM checkExact
  let exactContext ← contextDict (d.getD "exact_context")
  let requiredApprovals ← itemsOf (fieldOr d "required_approvals" (.dict []))
  requiredApprovals.forM checkApprovals
  let maxNumericFields ← itemsOf (fieldOr d "max_numeric_fields" (.dict []))
  maxNumericFields.forM checkLimits
  let requiredMeshInputs ← itemsOf (fieldOr d "required_mesh_inputs" (.dict []))
  requiredMeshInputs.forM checkInputs
  requiredMeshSources.forM checkSources
  names "mesh_required_actions must contain non-empty strings" meshRequiredActions
  inOrder "mesh_required_actions must be sorted for deterministic output"
    meshRequiredActions
  names "mesh_required_environments must contain non-empty strings" meshRequiredEnvironments
  inOrder "mesh_required_environments must be sorted for deterministic output"
    meshRequiredEnvironments
  .ok
    { policyId := d.getD "policy_id"
      allowedActions, requiredFields, exactFields, requiredContext, exactContext
      maxRequestBytes := d.getD "max_request_bytes"
      maxTtlSeconds := d.getD "max_ttl_seconds"
      requiredApprovals, maxNumericFields, requiredMeshInputs, requiredMeshSources,
      meshRequiredActions, meshRequiredEnvironments }

def ofValue (value : PyVal) : Result RawPolicy := do
  let d ← dictOf (.valueError (lit "policy must be an object")) value
  raiseIf (d.hasOnly (required ++ optional) = false ∨ d.hasAll required = false)
    (.valueError (lit "policy manifest has an invalid schema"))
  let allowedActions ← tupleOf (d.getD "allowed_actions")
  let requiredFields ← tuplesOf (d.getD "required_fields")
  let requiredContext ← tupleOf (d.getD "required_context")
  let requiredMeshSources ← tuplesOf (fieldOr d "required_mesh_sources" (.dict []))
  let meshRequiredActions ← tupleOf (fieldOr d "mesh_required_actions" (.tuple []))
  let meshRequiredEnvironments ← tupleOf (fieldOr d "mesh_required_environments" (.tuple []))
  postInit d allowedActions requiredContext requiredFields requiredMeshSources
    meshRequiredActions meshRequiredEnvironments

def nameOf : PyKey → Str
  | .str s => s
  | _ => []

-- dict(sorted(d.items())): the keys of a constructed policy's dicts are strings
def sortedEntries {V : Type} (d : List (PyKey × V)) : List (PyKey × V) :=
  d.insertionSort (fun a b => nameOf a.1 ≤ nameOf b.1)

def sortedDict : PyVal → PyVal
  | .dict d => .dict (sortedEntries d)
  | value => value

def mapped {V : Type} (f : V → PyVal) (d : List (PyKey × V)) : PyVal :=
  .dict ((sortedEntries d).map (fun m => (m.1, f m.2)))

def toDict (p : RawPolicy) : PyDict :=
  let base := PyDict.ofFields
    [("policy_id", p.policyId), ("allowed_actions", .list p.allowedActions),
      ("required_fields", mapped .list p.requiredFields),
      ("exact_fields", mapped id p.exactFields),
      ("required_context", .list p.requiredContext),
      ("exact_context", .dict p.exactContext),
      ("max_request_bytes", p.maxRequestBytes), ("max_ttl_seconds", p.maxTtlSeconds),
      ("required_approvals", mapped id p.requiredApprovals)]
  let optional (present : Bool) (name : String) (value : PyVal) : PyDict :=
    if present then [(.str (lit name), value)] else []
  base ++
    optional (!p.maxNumericFields.isEmpty) "max_numeric_fields"
      (mapped sortedDict p.maxNumericFields) ++
    optional (!p.requiredMeshInputs.isEmpty) "required_mesh_inputs"
      (mapped id p.requiredMeshInputs) ++
    optional (!p.requiredMeshSources.isEmpty) "required_mesh_sources"
      (mapped .list p.requiredMeshSources) ++
    optional (!p.meshRequiredActions.isEmpty) "mesh_required_actions"
      (.list p.meshRequiredActions) ++
    optional (!p.meshRequiredEnvironments.isEmpty) "mesh_required_environments"
      (.list p.meshRequiredEnvironments)

def digest (P : Primitives) (p : RawPolicy) : Result Str := canonicalDigest P (.dict p.toDict)

end RawPolicy

-- a SignedPolicyManifest around a policy as it was read
structure RawManifest where
  policy : RawPolicy
  version : ℤ
  issuerKeyId : Str
  signature : Str

namespace RawManifest

variable (P : Primitives)

def unsignedPayload (m : RawManifest) : Result String :=
  canonicalJson P (.dict (PyDict.ofFields
    [("policy", .dict m.policy.toDict), ("version", .int m.version),
      ("issuer_key_id", .str m.issuerKeyId)]))

def verify (m : RawManifest) (trustStore : TrustStore) : Result Bool :=
  if m.version ≤ 0 then .ok false
  else
    match trustStore.resolve m.issuerKeyId with
    | none => .ok false
    | some key => do
        let payload ← m.unsignedPayload P
        .ok (verifySignature P key payload m.signature)

def toDict (m : RawManifest) : PyDict := PyDict.ofFields
  [("policy", .dict m.policy.toDict), ("version", .int m.version),
    ("issuer_key_id", .str m.issuerKeyId), ("signature", .str m.signature)]

def ofValue (value : PyVal) : Result RawManifest := do
  let invalid := .valueError (lit "policy manifest has an invalid schema")
  let d ← dictOf invalid value
  raiseIf (d.hasOnly manifestKeys = false ∨ d.hasAll manifestKeys = false) invalid
  let version ← manifestVersion (d.getD "version")
  let issuerKeyId ← nonEmptyStr "manifest issuer_key_id must be a non-empty string"
    (d.getD "issuer_key_id")
  let signature ← nonEmptyStr "manifest signature must be a non-empty string" (d.getD "signature")
  let policy ← RawPolicy.ofValue (d.getD "policy")
  .ok ⟨policy, version, issuerKeyId, signature⟩

end RawManifest

end GovernedAutonomy
