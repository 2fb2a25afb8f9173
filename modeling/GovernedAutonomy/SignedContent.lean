import GovernedAutonomy.Anchor
import GovernedAutonomy.Delegation
import GovernedAutonomy.Federation
import GovernedAutonomy.PolicyChange
import GovernedAutonomy.Python.Written
import GovernedAutonomy.Rearbitration
import GovernedAutonomy.VersionedRegistry

namespace GovernedAutonomy

open Python

inductive SignedKind where
  | artifact
  | approval
  | meshInput
  | delegation
  | anchor
  | manifest
  | policyApproval
  | policyProposal
  | trustChange
  | syncEvent
  | syncEnvelope
  | storedPolicy
deriving DecidableEq

def SignedKind.names : SignedKind → List String
  | .artifact => ["action_request", "decision", "expires_at", "nonce", "replay_frame_ref",
      "issuer_key_id"]
  | .approval => ["action", "request_digest", "decision_digest", "issuer_key_id", "actor_id",
      "context"]
  | .meshInput => ["source_id", "decision", "weight", "priority", "metadata"]
  | .delegation => ["action", "delegator_id", "gaa_nonce", "payload", "recipient_id", "task_id"]
  | .anchor => ["replay_digest", "head_hash", "frame_count", "signer_key_id"]
  | .manifest => ["policy", "version", "issuer_key_id"]
  | .policyApproval => ["proposal_id", "policy_id", "policy_digest", "approver_key_id"]
  | .policyProposal => ["proposal_id", "policy_id", "current_policy_digest", "proposed_policy",
      "proposed_by_key_id", "rationale", "status"]
  | .trustChange => ["action", "key_id", "public_key_b64", "requested_by_key_id"]
  | .syncEvent => ["event_type", "source_org", "target_org", "snapshot_digest", "policy_digests",
      "issued_at", "nonce", "signer_key_id"]
  | .syncEnvelope => ["event", "snapshot"]
  | .storedPolicy => ["content_digest", "policy", "policy_id", "schema_version",
      "signature_algorithm", "signed_at", "signer_id", "version"]

-- everything of the protocol that carries a signature over its canonical JSON
inductive SignedStructure where
  | artifact (a : GovernanceAuthorizationArtifact)
  | approval (a : SignedApproval)
  | meshInput (item : GovernanceInput)
  | delegation (task : A2ATaskDelegation)
  | anchor (a : AuditAnchor)
  | manifest (m : SignedPolicyManifest)
  | policyApproval (a : PolicyApproval)
  | policyProposal (proposal : PolicyChangeProposal)
  | trustChange (request : TrustChangeRequest)
  | syncEvent (event : SignedSyncEvent)
  | syncEnvelope (envelope : GovernanceSyncEnvelope)
  | storedPolicy (stored : StoredPolicy) (signature : PolicySignature)

namespace SignedStructure

def kind : SignedStructure → SignedKind
  | .artifact _ => .artifact
  | .approval _ => .approval
  | .meshInput _ => .meshInput
  | .delegation _ => .delegation
  | .anchor _ => .anchor
  | .manifest _ => .manifest
  | .policyApproval _ => .policyApproval
  | .policyProposal _ => .policyProposal
  | .trustChange _ => .trustChange
  | .syncEvent _ => .syncEvent
  | .syncEnvelope _ => .syncEnvelope
  | .storedPolicy _ _ => .storedPolicy

-- what the signature is made over
def payload (P : Primitives) : SignedStructure → Result String
  | .artifact a => a.unsignedPayload P
  | .approval a => a.unsignedPayload P
  | .meshInput item => item.attestationPayload P
  | .delegation task => task.unsignedPayload P
  | .anchor a => canonicalJson P (.dict a.unsignedPayload)
  | .manifest m => m.unsignedPayload P
  | .policyApproval a => a.unsignedPayload P
  | .policyProposal proposal => proposal.unsignedPayload P
  | .trustChange request => request.unsignedPayload P
  | .syncEvent event => event.unsignedPayload P
  | .syncEnvelope envelope => envelope.unsignedPayload P
  | .storedPolicy stored signature => { stored with signature := some signature }.signedPayload P

-- the signed content, field by field
def fields : SignedStructure → List (String × PyVal)
  | .artifact a =>
      [("action_request", .dict a.actionRequest), ("decision", .dict a.decision),
        ("expires_at", a.expiresAt), ("nonce", .str a.nonce),
        ("replay_frame_ref", .str a.replayFrameRef), ("issuer_key_id", .str a.issuerKeyId)]
  | .approval a =>
      [("action", .str a.action), ("request_digest", .str a.requestDigest),
        ("decision_digest", .str a.decisionDigest), ("issuer_key_id", .str a.issuerKeyId),
        ("actor_id", optStr a.actorId), ("context", .dict a.context)]
  | .meshInput item =>
      [("source_id", .str item.sourceId), ("decision", .dict item.decision),
        ("weight", .int item.weight), ("priority", .int item.priority),
        ("metadata", .dict (item.metadata.getD []))]
  | .delegation task =>
      [("action", .str task.action), ("delegator_id", .str task.delegatorId),
        ("gaa_nonce", .str task.gaa.nonce), ("payload", .dict task.payload),
        ("recipient_id", .str task.recipientId), ("task_id", .str task.taskId)]
  | .anchor a =>
      [("replay_digest", .str a.replayDigest), ("head_hash", .str a.headHash),
        ("frame_count", .int a.frameCount), ("signer_key_id", .str a.signerKeyId)]
  | .manifest m =>
      [("policy", .dict m.policy.toDict), ("version", .int m.version),
        ("issuer_key_id", .str m.issuerKeyId)]
  | .policyApproval a =>
      [("proposal_id", .str a.proposalId), ("policy_id", .str a.policyId),
        ("policy_digest", .str a.policyDigest),
        ("approver_key_id", .str a.approverKeyId)]
  | .policyProposal proposal =>
      [("proposal_id", .str proposal.proposalId), ("policy_id", .str proposal.policyId),
        ("current_policy_digest", .str proposal.currentPolicyDigest),
        ("proposed_policy", .dict proposal.proposedPolicy.toDict),
        ("proposed_by_key_id", .str proposal.proposedByKeyId),
        ("rationale", .str proposal.rationale), ("status", .str proposal.status.text)]
  | .trustChange request =>
      [("action", .str request.action.text), ("key_id", .str request.keyId),
        ("public_key_b64", .str request.publicKeyB64),
        ("requested_by_key_id", .str request.requestedByKeyId)]
  | .syncEvent event =>
      [("event_type", .str event.eventType), ("source_org", .str event.sourceOrg),
        ("target_org", .str event.targetOrg), ("snapshot_digest", .str event.snapshotDigest),
        ("policy_digests", strDict .str (sortedItems event.policyDigests)),
        ("issued_at", .int event.issuedAt), ("nonce", .str event.nonce),
        ("signer_key_id", .str event.signerKeyId)]
  | .syncEnvelope envelope =>
      [("event", .dict envelope.event.toDict), ("snapshot", .dict envelope.snapshot.toDict)]
  | .storedPolicy stored signature =>
      [("content_digest", .str stored.contentHash), ("policy", .dict stored.policy),
        ("policy_id", .str stored.id), ("schema_version", .str stored.schemaVersion),
        ("signature_algorithm", .str signature.algorithm), ("signed_at", .str signature.signedAt),
        ("signer_id", .str signature.signerId), ("version", .str stored.version)]

def JsonFields (s : SignedStructure) : Prop := ∀ m ∈ s.fields, m.2.IsJson

-- the same fields, up to the order of the members of the objects in them
def SameFields (s t : SignedStructure) : Prop :=
  List.Forall₂ (fun a b => a.1 = b.1 ∧ PyVal.Alike a.2 b.2) s.fields t.fields

theorem payload_eq (P : Primitives) (s : SignedStructure) :
    s.payload P = canonicalJson P (.dict (PyDict.ofFields s.fields)) := by
  cases s <;> rfl

theorem fields_names (s : SignedStructure) : s.fields.map Prod.fst = s.kind.names := by
  cases s <;> rfl

theorem nodup_names (kind : SignedKind) : kind.names.Nodup := by
  cases kind <;> decide

def kinds : List SignedKind :=
  [.artifact, .approval, .meshInput, .delegation, .anchor, .manifest, .policyApproval,
    .policyProposal, .trustChange, .syncEvent, .syncEnvelope, .storedPolicy]

theorem mem_kinds (kind : SignedKind) : kind ∈ kinds := by
  cases kind <;> decide

-- no two kinds sign objects of the same names
theorem kind_of_names {kind kind' : SignedKind} (h : kind.names ⊆ kind'.names)
    (h' : kind'.names ⊆ kind.names) : kind = kind' := by
  have hall : ∀ kind ∈ kinds, ∀ kind' ∈ kinds, kind.names ⊆ kind'.names →
      kind'.names ⊆ kind.names → kind = kind' := by
    decide +kernel
  exact hall kind (mem_kinds kind) kind' (mem_kinds kind') h h'

theorem alike_fields_iff {s t : SignedStructure} :
    PyVal.Alike (.dict (PyDict.ofFields s.fields)) (.dict (PyDict.ofFields t.fields)) ↔
      s.kind = t.kind ∧ s.SameFields t := by
  have hnodup : ∀ s : SignedStructure, (s.fields.map Prod.fst).Nodup := by
    intro s
    rw [fields_names]
    exact nodup_names s.kind
  constructor
  · intro h
    have hnames : ∀ {s t : SignedStructure},
        PyVal.Alike (.dict (PyDict.ofFields s.fields)) (.dict (PyDict.ofFields t.fields)) →
          s.kind.names ⊆ t.kind.names := by
      intro s t h name hname
      have honly : (PyDict.ofFields t.fields).hasOnly t.kind.names = true := by
        rw [PyVal.hasOnly_ofFields, ← fields_names]
        exact fun m hm => List.mem_map_of_mem hm
      rw [← h.hasOnly, PyVal.hasOnly_ofFields] at honly
      rw [← fields_names] at hname
      obtain ⟨m, hm, rfl⟩ := List.mem_map.mp hname
      exact honly m hm
    have hkind := kind_of_names (hnames h) (hnames h.symm)
    refine ⟨hkind, (PyVal.alike_ofFields_iff (hnodup s) ?_).mp h⟩
    rw [fields_names, fields_names, hkind]
  · rintro ⟨-, h⟩
    exact PyVal.alike_ofFields (hnodup s) h

theorem isJson_fields {s : SignedStructure} (h : s.JsonFields) :
    (PyVal.dict (PyDict.ofFields s.fields)).IsJson := by
  refine PyVal.isJson_ofFields ?_ h
  rw [fields_names]
  exact nodup_names s.kind

end SignedStructure

section Faithful

variable {P : Primitives} {v w : PyVal} {bytes bytes' : String}

theorem canonicalJson_eq_iff (hv : v.IsJson) (hw : w.IsJson) (h : canonicalJson P v = .ok bytes)
    (h' : canonicalJson P w = .ok bytes') : bytes = bytes' ↔ v.Alike w := by
  constructor
  · rintro rfl
    obtain ⟨t, ht, -⟩ := (canonicalJson_eq_ok P).mp h
    obtain ⟨u, hu, -⟩ := (canonicalJson_eq_ok P).mp h'
    obtain rfl := canonicalJson_injective P ht hu h h'
    exact .of_toTree hv hw ht hu
  · intro halike
    have hsame := canonicalJson_alike halike h
    rw [h'] at hsame
    exact (Except.ok.inj hsame).symm

theorem canonicalDigest_eq_iff (hsha : Function.Injective P.sha256) (hv : v.IsJson)
    (hw : w.IsJson) {digest digest' : Str} (h : canonicalDigest P v = .ok digest)
    (h' : canonicalDigest P w = .ok digest') : digest = digest' ↔ v.Alike w := by
  obtain ⟨bytes, hbytes, hdigest⟩ := bind_eq_ok.mp h
  obtain ⟨bytes', hbytes', hdigest'⟩ := bind_eq_ok.mp h'
  rw [← canonicalJson_eq_iff hv hw hbytes hbytes', ← Except.ok.inj hdigest,
    ← Except.ok.inj hdigest']
  exact ⟨hexdigest_injective hsha, fun heq => heq ▸ rfl⟩

theorem reads_back (hv : v.IsJson) (h : canonicalJson P v = .ok bytes) :
    ∃ read, P.loads (decode bytes) = .ok read ∧ v.Alike read ∧
      (v.Finite → read.eq v = true) := by
  obtain ⟨t, ht, hloads⟩ := loads_canonicalJson h
  have halike := PyVal.alike_ofTree hv ht
  exact ⟨.ofTree t, hloads, halike, halike.eq_self⟩

end Faithful

-- canonical JSON stands for the value it was made from, up to the order of the members of objects
structure Faithful (P : Primitives) : Prop where
  written : ∀ v : PyVal, v.IsJson →
    ((∃ bytes, canonicalJson P v = .ok bytes) ↔ v.Writable P.recursionLimit)
  injective : ∀ (v w : PyVal) (bytes bytes' : String), v.IsJson → w.IsJson →
    canonicalJson P v = .ok bytes → canonicalJson P w = .ok bytes' →
      (bytes = bytes' ↔ v.Alike w)
  decodable : ∀ (v : PyVal) (bytes : String), v.IsJson → canonicalJson P v = .ok bytes →
    ∃ read, P.loads (decode bytes) = .ok read ∧ v.Alike read ∧ (v.Finite → read.eq v = true)
  digests : Function.Injective P.sha256 → ∀ (v w : PyVal) (digest digest' : Str), v.IsJson →
    w.IsJson → canonicalDigest P v = .ok digest → canonicalDigest P w = .ok digest' →
      (digest = digest' ↔ v.Alike w)
  payloads : ∀ (s t : SignedStructure) (bytes bytes' : String), s.JsonFields → t.JsonFields →
    s.payload P = .ok bytes → t.payload P = .ok bytes' →
      (bytes = bytes' ↔ s.kind = t.kind ∧ s.SameFields t)

theorem canonical_json_faithful (P : Primitives) : Faithful P where
  written v hv := by rw [canonicalJson_isOk, PyVal.encodable_iff_writable hv]
  injective _ _ _ _ hv hw h h' := canonicalJson_eq_iff hv hw h h'
  decodable _ _ hv h := reads_back hv h
  digests hsha _ _ _ _ hv hw h h' := canonicalDigest_eq_iff hsha hv hw h h'
  payloads s t bytes bytes' hs ht h h' := by
    rw [SignedStructure.payload_eq] at h h'
    rw [canonicalJson_eq_iff (SignedStructure.isJson_fields hs) (SignedStructure.isJson_fields ht)
      h h', SignedStructure.alike_fields_iff]

end GovernedAutonomy
