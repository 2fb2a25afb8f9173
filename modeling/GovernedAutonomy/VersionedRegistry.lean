import GovernedAutonomy.PolicyDocument
import GovernedAutonomy.Python.Lookup

namespace GovernedAutonomy

open Python

inductive PolicyLifecycle where
  | draft
  | published
  | active
  | deprecated
  | revoked
deriving DecidableEq, Repr

def PolicyLifecycle.text : PolicyLifecycle → Str
  | .draft => lit "DRAFT"
  | .published => lit "PUBLISHED"
  | .active => lit "ACTIVE"
  | .deprecated => lit "DEPRECATED"
  | .revoked => lit "REVOKED"

inductive Role where
  | platformAdmin
  | policyAdmin
  | operator
  | auditor
  | approver
  | servicePrincipal
deriving DecidableEq, Repr

-- require_roles(identity, (Role.POLICY_ADMIN,)) on the roles of the identity, if one is given
def requirePolicyAdmin (identity : Option (List Role)) : Result Unit :=
  match identity with
  | none => .ok ()
  | some roles => raiseIf (.platformAdmin ∉ roles ∧ .policyAdmin ∉ roles)
      (.custom "PermissionError" false
        (lit "access denied; required roles: ['policy_admin']") .none)

structure PolicySignature where
  signerId : Str
  algorithm : Str
  signature : Str
  signedAt : Str

structure StoredPolicy where
  id : Str
  version : Str
  contentHash : Str
  policy : PyDict
  schemaVersion : Str := lit "1.0"
  signature : Option PolicySignature := none

structure PolicyActivationEvent where
  policyId : Str
  previousVersion : Option Str
  selectedVersion : Str
  requestedBy : Str
  reason : Str
  timestamp : Str
  revision : ℤ
  operation : Str

structure PolicyVerificationResult where
  policyId : Str
  version : Str
  valid : Bool
  digestValid : Bool
  signatureValid : Bool
  errors : List Str

structure PolicySigner where
  keyId : Str
  algorithm : Str := lit "ed25519"
  sign : String → Result Str

abbrev PolicyVerifier := Str → Str → String → Str → Result Bool

-- the libraries the registry calls: jsonschema over the packaged schema, which gives the
-- messages of the errors in the order of their paths, and datetime.fromisoformat, which gives
-- the UTC offset of an aware timestamp. The schema asks for a string id and a semantic version
structure Libraries where
  iterErrors : PyVal → Result (List Str)
  fromisoformat : Str → Option (Option ℤ)
  identified : ∀ d, iterErrors (.dict d) = .ok [] → PyDict.has d "id" = true ∧
    ∀ m ∈ d, m.1 = .str (lit "id") → ∃ s, m.2 = .str s
  versioned : ∀ d, iterErrors (.dict d) = .ok [] → PyDict.has d "version" = true ∧
    ∀ m ∈ d, m.1 = .str (lit "version") → ∃ c s, m.2 = .str (c :: s)

def policyError (cls : String) (message : Str) : Exc := .custom cls true message .none

-- PolicyNotFoundError is a KeyError
def policyNotFound (policyId version : Str) : Exc :=
  .custom "PolicyNotFoundError" false (policyId ++ lit "@" ++ version) .none

def maxPolicyBytes : Nat := 1024 * 1024

section Content

variable (P : Primitives) (L : Libraries)

def validatePolicy (policy : PyVal) : Result Unit := do
  let _ ← dictOf (policyError "PolicyValidationError" (lit "policy must be an object")) policy
  let encoded ← reraise (fun e => e.isTypeError || e.isValueError)
    (policyError "PolicyValidationError" (lit "policy is not canonical JSON serializable"))
    (canonicalJson P policy)
  raiseIf (maxPolicyBytes < encoded.utf8ByteSize)
    (policyError "PolicyValidationError" (lit "policy exceeds 1048576 byte limit"))
  let errors ← L.iterErrors policy
  raiseIf (errors ≠ []) (policyError "PolicyValidationError" (joined "; " errors))

def canonicalPolicy (policy : PyVal) : Result PyDict := do
  validatePolicy P L policy
  let encoded ← canonicalJson P policy
  let content ← P.loads (decode encoded)
  dictOf (policyError "PolicyValidationError" (lit "policy must be an object")) content

def member (d : PyDict) (name : String) : Result Str :=
  match d.get name with
  | none => .error (.builtin .keyError)
  | some value => declaredStr value

def StoredPolicy.signedPayload (stored : StoredPolicy) : Result String :=
  match stored.signature with
  | none =>
      .error (policyError "PolicySignatureError" (lit "policy has no publication signature"))
  | some signature => canonicalJson P (.dict (PyDict.ofFields
      [("content_digest", .str stored.contentHash), ("policy", .dict stored.policy),
        ("policy_id", .str stored.id), ("schema_version", .str stored.schemaVersion),
        ("signature_algorithm", .str signature.algorithm), ("signed_at", .str signature.signedAt),
        ("signer_id", .str signature.signerId), ("version", .str stored.version)]))

def signatureAlgorithm (signer : PolicySigner) : Result Str :=
  if signer.algorithm = lit "ed25519" then .ok signer.algorithm
  else do
    let shown ← P.repr (.str signer.algorithm)
    .error (policyError "PolicySignatureError"
      (lit "unsupported policy signature algorithm: " ++ shown))

def signedAtUtc (timestamp : Str) : Result Unit :=
  match L.fromisoformat timestamp with
  | none => .error (policyError "PolicySignatureError"
      (lit "signed_at must be an ISO-8601 UTC timestamp"))
  | some offset => raiseIf (offset ≠ some 0)
      (policyError "PolicySignatureError" (lit "signed_at must use the UTC timezone"))

def newStored (policy : PyVal) (signer : Option PolicySigner) (signedAt : Option Str)
    (now : Str) : Result StoredPolicy := do
  let content ← canonicalPolicy P L policy
  let id ← member content "id"
  let version ← member content "version"
  let contentHash ← canonicalDigest P (.dict content)
  let unsigned : StoredPolicy := { id, version, contentHash, policy := content }
  match signer with
  | none => .ok unsigned
  | some signer => do
      let timestamp := match signedAt with
        | some (c :: s) => c :: s
        | _ => now
      signedAtUtc L timestamp
      raiseIf (signer.keyId = [])
        (policyError "PolicySignatureError" (lit "policy signer identity must not be empty"))
      let algorithm ← signatureAlgorithm P signer
      let signature : PolicySignature := ⟨signer.keyId, algorithm, [], timestamp⟩
      let payload ← { unsigned with signature := some signature }.signedPayload P
      let signed ← signer.sign payload
      .ok { unsigned with signature := some { signature with signature := signed } }

-- except (TypeError, ValueError), which reads as False
def falseIfRaised (x : Result Bool) : Result Bool :=
  match x with
  | .ok b => .ok b
  | .error e => if (e.isTypeError || e.isValueError) = true then .ok false else .error e

def digestValid (stored : StoredPolicy) : Result Bool :=
  falseIfRaised (do
    let digest ← canonicalDigest P (.dict stored.policy)
    .ok (decide (digest = stored.contentHash) && decide (stored.schemaVersion = lit "1.0")))

def signatureCheck (verifier : Option PolicyVerifier) (stored : StoredPolicy) :
    Result (Bool × List Str) :=
  match stored.signature, verifier with
  | none, _ => .ok (false, [lit "missing_signature"])
  | some _, none => .ok (false, [lit "no_signature_verifier_configured"])
  | some signature, some verify =>
      if signature.algorithm ≠ lit "ed25519" then
        .ok (false, [lit "unsupported_signature_algorithm"])
      else do
        let signatureValid ← falseIfRaised (do
          let payload ← stored.signedPayload P
          verify signature.signerId signature.algorithm payload signature.signature)
        .ok (signatureValid, if signatureValid = true then [] else [lit "signature_invalid"])

def verification (verifier : Option PolicyVerifier) (stored : StoredPolicy) :
    Result PolicyVerificationResult := do
  let digestValid ← digestValid P stored
  let (signatureValid, errors) ← signatureCheck P verifier stored
  .ok
    { policyId := stored.id
      version := stored.version
      valid := digestValid && signatureValid
      digestValid := digestValid
      signatureValid := signatureValid
      errors :=
        (if stored.schemaVersion = lit "1.0" then []
          else [lit "unsupported_record_schema_version"]) ++
        (if digestValid = true then [] else [lit "content_digest_mismatch"]) ++ errors }

end Content

instance {α β : Type} [DecidableEq α] [DecidableEq β] : Keyed (List α × List β) where
  same a b := decide (a = b)
  same_symm h := by simpa using (of_decide_eq_true h).symm
  same_trans h h' := by simpa using (of_decide_eq_true h).trans (of_decide_eq_true h')

structure VersionedPolicyRegistry where
  storage : List ((Str × Str) × StoredPolicy) := []
  states : List ((Str × Str) × PolicyLifecycle) := []
  active : List (Str × (Str × ℤ)) := []
  history : List (Str × List PolicyActivationEvent) := []

-- what a call meets: the verifier, the clock, and what the storage raises; put may raise with
-- the record written or without
structure Circumstances where
  verifier : Option PolicyVerifier
  now : Str
  get : Option Exc := none
  put : Option (Bool × Exc) := none
  saveState : Option Exc := none

structure ActivationRequest where
  policyId : Str
  version : Str
  requestedBy : Str
  reason : Str
  expectedRevision : Option ℤ := none
  identity : Option (List Role) := none
  operation : Str := lit "activate"

inductive PolicyOperation where
  | register (policy : PyVal)
  | publish (policy : PyVal) (signer : PolicySigner) (signedAt : Option Str)
  | activate (request : ActivationRequest)
  | rollback (request : ActivationRequest)
  | deprecateVersion (policyId version : Str) (identity : Option (List Role))
  | revoke (policyId version : Str) (identity : Option (List Role))

inductive PolicyAnswer where
  | stored (stored : StoredPolicy)
  | event (event : PolicyActivationEvent)
  | done

namespace VersionedPolicyRegistry

variable (P : Primitives) (L : Libraries) (registry : VersionedPolicyRegistry)
  (given : Circumstances)

def state (policyId version : Str) : PolicyLifecycle :=
  (Dict.get registry.states (policyId, version)).getD .published

def activeRevision (policyId : Str) : ℤ :=
  ((Dict.get registry.active policyId).map Prod.snd).getD 0

def activationHistory (policyId : Str) : List PolicyActivationEvent :=
  (Dict.get registry.history policyId).getD []

-- self._storage.get(policy_id, version)
def find (policyId version : Str) : Result (Option StoredPolicy) :=
  match given.get with
  | some e => .error e
  | none => .ok (Dict.get registry.storage (policyId, version))

def get (policyId version : Str) : Result StoredPolicy := do
  let found ← registry.find given policyId version
  match found with
  | none => .error (policyNotFound policyId version)
  | some stored => do
      let verification ← verification P given.verifier stored
      raiseIf (verification.digestValid = false)
        (policyError "PolicyIntegrityError" (joined "; " verification.errors))
      .ok stored

def lifecycle (policyId version : Str) : Result PolicyLifecycle := do
  let _ ← registry.get P given policyId version
  .ok (registry.state policyId version)

def save {α : Type} (answer : α) : VersionedPolicyRegistry × Result α :=
  match given.saveState with
  | some e => (registry, .error e)
  | none => (registry, .ok answer)

def insert (stored : StoredPolicy) : VersionedPolicyRegistry × Result PolicyAnswer :=
  let written :=
    { registry with storage := Dict.set registry.storage (stored.id, stored.version) stored }
  match given.put with
  | some (true, e) => (written, .error e)
  | some (false, e) => (registry, .error e)
  | none =>
      { written with
        states := Dict.set registry.states (stored.id, stored.version) .published }.save given
          (.stored stored)

def admitRegistration (policy : PyVal) : Result (StoredPolicy × Option StoredPolicy) := do
  let stored ← newStored P L policy none none given.now
  let existing ← registry.find given stored.id stored.version
  raiseIf (existing.any (fun existing => existing.contentHash ≠ stored.contentHash) = true)
    (policyError "PolicyImmutabilityError" (lit "policy " ++ stored.id ++ lit "@" ++
      stored.version ++ lit " already exists with different content"))
  .ok (stored, existing)

def register (policy : PyVal) : VersionedPolicyRegistry × Result PolicyAnswer :=
  match registry.admitRegistration P L given policy with
  | .error e => (registry, .error e)
  | .ok (_, some existing) => (registry, .ok (.stored existing))
  | .ok (stored, none) => registry.insert given stored

def admitPublication (policy : PyVal) (signer : PolicySigner) (signedAt : Option Str) :
    Result StoredPolicy := do
  let stored ← newStored P L policy (some signer) signedAt given.now
  let existing ← registry.find given stored.id stored.version
  raiseIf (existing.isSome = true)
    (policyError "PolicyImmutabilityError" (lit "policy " ++ stored.id ++ lit "@" ++
      stored.version ++ lit " is already published"))
  let verification ← verification P given.verifier stored
  raiseIf (verification.valid = false)
    (policyError "PolicySignatureError" (joined "; " verification.errors))
  .ok stored

def publish (policy : PyVal) (signer : PolicySigner) (signedAt : Option Str) :
    VersionedPolicyRegistry × Result PolicyAnswer :=
  match registry.admitPublication P L given policy signer signedAt with
  | .error e => (registry, .error e)
  | .ok stored => registry.insert given stored

def checkRevision (policyId : Str) (expectedRevision : Option ℤ) : Result Unit :=
  match expectedRevision with
  | none => .ok ()
  | some expected =>
      if expected = registry.activeRevision policyId then .ok ()
      else do
        let expected ← intText expected
        let current ← intText (registry.activeRevision policyId)
        .error (policyError "PolicyActivationConflictError" (lit "expected revision " ++ expected ++
          lit ", current revision is " ++ current))

def previousVersion (policyId : Str) : Option Str :=
  (Dict.get registry.active policyId).map Prod.fst

def event (request : ActivationRequest) : PolicyActivationEvent where
  policyId := request.policyId
  previousVersion := registry.previousVersion request.policyId
  selectedVersion := request.version
  requestedBy := request.requestedBy
  reason := request.reason
  timestamp := given.now
  revision := registry.activeRevision request.policyId + 1
  operation := request.operation

def admitActivation (request : ActivationRequest) : Result PolicyActivationEvent := do
  requirePolicyAdmin request.identity
  raiseIf (request.requestedBy = [] ∨ request.reason = [])
    (policyError "PolicyLifecycleError" (lit "requested_by and reason are required"))
  let stored ← registry.get P given request.policyId request.version
  let verification ← verification P given.verifier stored
  raiseIf (verification.valid = false)
    (policyError "PolicySignatureError" (joined "; " verification.errors))
  let state := registry.state request.policyId request.version
  raiseIf (state ≠ .published ∧ state ≠ .active)
    (policyError "PolicyLifecycleError" (lit "policy " ++ request.policyId ++ lit "@" ++
      request.version ++ lit " cannot be activated from " ++ state.text))
  registry.checkRevision request.policyId request.expectedRevision
  raiseIf (registry.previousVersion request.policyId = some request.version)
    (policyError "PolicyLifecycleError" (lit "policy " ++ request.policyId ++ lit "@" ++
      request.version ++ lit " is already active"))
  .ok (registry.event given request)

-- the changes of activate, whose event says what they are
def select (event : PolicyActivationEvent) : VersionedPolicyRegistry :=
  let released := match event.previousVersion with
    | some previous => Dict.set registry.states (event.policyId, previous) .published
    | none => registry.states
  { registry with
    states := Dict.set released (event.policyId, event.selectedVersion) .active
    active := Dict.set registry.active event.policyId (event.selectedVersion, event.revision)
    history := Dict.set registry.history event.policyId
      (registry.activationHistory event.policyId ++ [event]) }

def activate (request : ActivationRequest) : VersionedPolicyRegistry × Result PolicyAnswer :=
  match registry.admitActivation P given request with
  | .error e => (registry, .error e)
  | .ok event => (registry.select event).save given (.event event)

def rollback (request : ActivationRequest) : VersionedPolicyRegistry × Result PolicyAnswer :=
  registry.activate P given { request with operation := lit "rollback" }

def admitDeprecation (policyId version : Str) (identity : Option (List Role)) : Result Unit := do
  requirePolicyAdmin identity
  let state ← registry.lifecycle P given policyId version
  raiseIf (state = .active)
    (policyError "PolicyLifecycleError" (lit "an active policy version cannot be deprecated"))
  raiseIf (state = .revoked)
    (policyError "PolicyLifecycleError" (lit "a revoked policy version cannot be deprecated"))

def deprecateVersion (policyId version : Str) (identity : Option (List Role)) :
    VersionedPolicyRegistry × Result PolicyAnswer :=
  match registry.admitDeprecation P given policyId version identity with
  | .error e => (registry, .error e)
  | .ok () =>
      { registry with
        states := Dict.set registry.states (policyId, version) .deprecated }.save given .done

def admitRevocation (policyId version : Str) (identity : Option (List Role)) : Result Unit := do
  requirePolicyAdmin identity
  let _ ← registry.get P given policyId version

-- the version that was active leaves an empty version in its place
def withdraw (policyId version : Str) : VersionedPolicyRegistry :=
  { registry with
    states := Dict.set registry.states (policyId, version) .revoked
    active := match Dict.get registry.active policyId with
      | some (selected, revision) =>
          if selected = version then Dict.set registry.active policyId ([], revision + 1)
          else registry.active
      | none => registry.active }

def revoke (policyId version : Str) (identity : Option (List Role)) :
    VersionedPolicyRegistry × Result PolicyAnswer :=
  match registry.admitRevocation P given policyId version identity with
  | .error e => (registry, .error e)
  | .ok () => (registry.withdraw policyId version).save given .done

def perform : PolicyOperation → VersionedPolicyRegistry × Result PolicyAnswer
  | .register policy => registry.register P L given policy
  | .publish policy signer signedAt => registry.publish P L given policy signer signedAt
  | .activate request => registry.activate P given request
  | .rollback request => registry.rollback P given request
  | .deprecateVersion policyId version identity =>
      registry.deprecateVersion P given policyId version identity
  | .revoke policyId version identity => registry.revoke P given policyId version identity

end VersionedPolicyRegistry

-- the lock lets one call at a time change the registry; between two of them the content of a
-- stored record may be altered
inductive RegistryTurn where
  | call (given : Circumstances) (operation : PolicyOperation)
  | altered (policyId version : Str) (stored : StoredPolicy)

namespace VersionedPolicyRegistry

variable (P : Primitives) (L : Libraries)

def take (registry : VersionedPolicyRegistry) : RegistryTurn → VersionedPolicyRegistry
  | .call given operation => (registry.perform P L given operation).1
  | .altered policyId version stored =>
      if Dict.has registry.storage (policyId, version) = true then
        { registry with storage := Dict.set registry.storage (policyId, version) stored }
      else registry

end VersionedPolicyRegistry

-- a storage a registry is opened over; it need not be empty
structure PolicyStorage where
  records : List ((Str × Str) × StoredPolicy) := []
  named : ∀ m ∈ records, m.1.2 ≠ []

def PolicyStorage.opened (storage : PolicyStorage) : VersionedPolicyRegistry :=
  { storage := storage.records }

end GovernedAutonomy
