import GovernedAutonomy.Versions

namespace GovernedAutonomy

open Python

-- FederationError is a ValueError
def federationError (message : String) : Exc := .custom "FederationError" true (lit message) .none

def SignedPolicyManifest.toDict (manifest : SignedPolicyManifest) : PyDict := PyDict.ofFields
  [("policy", .dict manifest.policy.toDict), ("version", .int manifest.version),
    ("issuer_key_id", .str manifest.issuerKeyId), ("signature", .str manifest.signature)]

namespace PolicyRegistry

-- an entry of to_dict()["policies"] with its entry["policy"]["policy_id"]
def entry (registry : PolicyRegistry) (m : Str × Policy) : Str × PyVal :=
  match Dict.get registry.signedManifests m.1 with
  | some manifest => (manifest.policy.policyId, .dict manifest.toDict)
  | none => (m.2.policyId, .dict (PyDict.ofFields
      [("policy", .dict m.2.toDict), ("version", .int ((Dict.get registry.versions m.1).getD 1))]))

def digests (P : Primitives) (registry : PolicyRegistry) : Result (List (Str × Str)) :=
  (sortedItems registry.policies).mapM (fun m => do
    let digest ← m.2.digest P
    .ok (m.1, digest))

end PolicyRegistry

def dictOf (otherwise : Exc) : PyVal → Result PyDict
  | .dict d => .ok d
  | _ => .error otherwise

def declaredStr : PyVal → Result Str
  | .str s => .ok s
  | _ => .error (.builtin .typeError)

-- the entries of a dict whose keys are declared to be strings
def strItems (d : PyDict) : Result (List (Str × PyVal)) :=
  d.mapM (fun m =>
    match m.1 with
    | .str s => .ok (s, m.2)
    | _ => .error (.builtin .typeError))

def strMembers (d : PyDict) : Result (List (Str × Str)) := do
  let items ← strItems d
  items.mapM (fun m => do
    let s ← declaredStr m.2
    .ok (m.1, s))

structure SignedSyncEvent where
  eventType : Str
  sourceOrg : Str
  targetOrg : Str
  snapshotDigest : Str
  policyDigests : List (Str × Str)
  issuedAt : ℤ
  nonce : Str
  signerKeyId : Str
  signature : Str

namespace SignedSyncEvent

variable (P : Primitives)

def unsignedDict (event : SignedSyncEvent) : PyDict := PyDict.ofFields
  [("event_type", .str event.eventType), ("source_org", .str event.sourceOrg),
    ("target_org", .str event.targetOrg), ("snapshot_digest", .str event.snapshotDigest),
    ("policy_digests", strDict .str (sortedItems event.policyDigests)),
    ("issued_at", .int event.issuedAt), ("nonce", .str event.nonce),
    ("signer_key_id", .str event.signerKeyId)]

def unsignedPayload (event : SignedSyncEvent) : Result String :=
  canonicalJson P (.dict event.unsignedDict)

def toDict (event : SignedSyncEvent) : PyDict :=
  event.unsignedDict.set "signature" (.str event.signature)

def issue (eventType sourceOrg targetOrg snapshotDigest : Str) (policyDigests : List (Str × Str))
    (nonce : Str) (signer : Signer) (issuedAt : Option ℤ) (now : ℤ) : Result SignedSyncEvent := do
  raiseIf (eventType = [] ∨ sourceOrg = [] ∨ targetOrg = [] ∨ snapshotDigest = [] ∨ nonce = [])
    (.valueError (lit "event type, organizations, snapshot digest, and nonce are required"))
  let unsigned : SignedSyncEvent :=
    ⟨eventType, sourceOrg, targetOrg, snapshotDigest, sortedItems policyDigests, issuedAt.getD now,
      nonce, signer.keyId, []⟩
  let payload ← unsigned.unsignedPayload P
  .ok { unsigned with signature := signer.sign payload }

def requiredKeys : List String :=
  ["event_type", "source_org", "target_org", "snapshot_digest", "policy_digests", "issued_at",
    "nonce", "signer_key_id", "signature"]

def stringField (value : PyDict) (key : String) : Result Str :=
  match value.getD (lit key) with
  | .str (c :: s) => .ok (c :: s)
  | _ => .error (federationError "sync event contains invalid string fields")

def issuedAtField (value : PyDict) : Result ℤ :=
  match value.getD "issued_at" with
  | .int i => .ok i
  | _ => .error (federationError "sync event issued_at must be an integer")

def fromDict (value : PyVal) : Result SignedSyncEvent := do
  let invalid := federationError "sync event has an invalid schema"
  let invalidDigests := federationError "sync event policy digests are invalid"
  let d ← dictOf invalid value
  raiseIf (d.hasOnly requiredKeys = false ∨ d.hasAll requiredKeys = false) invalid
  let eventType ← stringField d "event_type"
  let sourceOrg ← stringField d "source_org"
  let targetOrg ← stringField d "target_org"
  let snapshotDigest ← stringField d "snapshot_digest"
  let nonce ← stringField d "nonce"
  let signerKeyId ← stringField d "signer_key_id"
  let signature ← stringField d "signature"
  let issuedAt ← issuedAtField d
  let digests ← dictOf invalidDigests (d.getD "policy_digests")
  let policyDigests ← reraise (fun _ => true) invalidDigests (strMembers digests)
  .ok ⟨eventType, sourceOrg, targetOrg, snapshotDigest, sortedItems policyDigests, issuedAt,
    nonce, signerKeyId, signature⟩

def verify (event : SignedSyncEvent) (store : TrustStore) (now : Option ℤ) (maxAgeSeconds : ℤ) :
    Result Unit := do
  raiseIf (event.eventType ≠ lit "policy_update" ∧ event.eventType ≠ lit "registry_update")
    (federationError "unsupported sync event type")
  raiseIf (event.issuedAt ≤ 0 ∨ now.any (fun t => decide (t + 30 < event.issuedAt)) = true)
    (federationError "sync event timestamp is invalid")
  raiseIf (now.any (fun t => decide (maxAgeSeconds < t - event.issuedAt)) = true)
    (federationError "sync event is stale")
  let verified ← store.verifies P event.signerKeyId (event.unsignedPayload P) event.signature
  raiseIf (verified = false) (federationError "sync event signature is invalid or untrusted")

end SignedSyncEvent

structure RegistrySnapshot where
  sourceOrg : Str
  version : PyVal
  policies : List (Str × PyVal)
  policyDigests : List (Str × Str)
  snapshotDigest : Str

namespace RegistrySnapshot

variable (P : Primitives)

def unsignedDict (snapshot : RegistrySnapshot) : PyDict := PyDict.ofFields
  [("source_org", .str snapshot.sourceOrg), ("version", snapshot.version),
    ("policies", strDict id (sortedItems snapshot.policies)),
    ("policy_digests", strDict .str (sortedItems snapshot.policyDigests))]

def toDict (snapshot : RegistrySnapshot) : PyDict :=
  snapshot.unsignedDict.set "snapshot_digest" (.str snapshot.snapshotDigest)

-- what from_registry digests: the fields without the source organization
def contents (version : PyVal) (policies : List (Str × PyVal)) (digests : List (Str × Str)) :
    PyDict := PyDict.ofFields
  [("version", version), ("policies", strDict id (sortedItems policies)),
    ("policy_digests", strDict .str (sortedItems digests))]

def fromRegistry (registry : PolicyRegistry) (sourceOrg : Str) (version : PyVal) :
    Result RegistrySnapshot := do
  let policies := Dict.update [] ((sortedItems registry.policies).map registry.entry)
  let digests ← registry.digests P
  let snapshotDigest ← canonicalDigest P (.dict (contents version policies digests))
  .ok ⟨sourceOrg, version, policies, digests, snapshotDigest⟩

def requiredKeys : List String :=
  ["source_org", "version", "policies", "policy_digests", "snapshot_digest"]

def sameKeys {V W : Type} (d : List (Str × V)) (e : List (Str × W)) : Prop :=
  (∀ m ∈ d, Dict.has e m.1 = true) ∧ ∀ m ∈ e, Dict.has d m.1 = true

instance {V W : Type} (d : List (Str × V)) (e : List (Str × W)) : Decidable (sameKeys d e) :=
  inferInstanceAs (Decidable (_ ∧ _))

def checkEntry (m : Str × PyVal) : Result Unit := do
  let unstable := federationError "registry snapshot contains an unstable policy ID"
  let entry ← dictOf unstable m.2
  let policy ← dictOf (.builtin .attributeError) ((entry.get "policy").getD (.dict []))
  raiseIf ((policy.getD "policy_id").eq (.str m.1) = false) unstable

def fromDict (value : PyVal) : Result RegistrySnapshot := do
  let invalid := federationError "registry snapshot has an invalid schema"
  let d ← dictOf invalid value
  raiseIf (d.hasOnly requiredKeys = false ∨ d.hasAll requiredKeys = false) invalid
  let policyDict ← dictOf invalid (d.getD "policies")
  let digestDict ← dictOf invalid (d.getD "policy_digests")
  let policies ← strItems policyDict
  let policyDigests ← strMembers digestDict
  let sourceOrg ← declaredStr (d.getD "source_org")
  let snapshotDigest ← declaredStr (d.getD "snapshot_digest")
  let candidate : RegistrySnapshot :=
    ⟨sourceOrg, d.getD "version", policies, policyDigests, snapshotDigest⟩
  let expected ← canonicalDigest P (.dict candidate.unsignedDict)
  raiseIf (expected ≠ candidate.snapshotDigest)
    (federationError "registry snapshot digest does not match contents")
  raiseIf (¬ sameKeys policies policyDigests)
    (federationError "registry snapshot policy IDs and digests differ")
  policies.forM checkEntry
  .ok candidate

end RegistrySnapshot

structure GovernanceSyncEnvelope where
  event : SignedSyncEvent
  snapshot : RegistrySnapshot
  signature : Str

namespace GovernanceSyncEnvelope

variable (P : Primitives)

def unsignedPayload (envelope : GovernanceSyncEnvelope) : Result String :=
  canonicalJson P (.dict (PyDict.ofFields
    [("event", .dict envelope.event.toDict), ("snapshot", .dict envelope.snapshot.toDict)]))

def toDict (envelope : GovernanceSyncEnvelope) : PyDict := PyDict.ofFields
  [("event", .dict envelope.event.toDict), ("snapshot", .dict envelope.snapshot.toDict),
    ("signature", .str envelope.signature)]

def issue (event : SignedSyncEvent) (snapshot : RegistrySnapshot) (signer : Signer) :
    Result GovernanceSyncEnvelope := do
  let unsigned : GovernanceSyncEnvelope := ⟨event, snapshot, []⟩
  let payload ← unsigned.unsignedPayload P
  .ok { unsigned with signature := signer.sign payload }

def requiredKeys : List String := ["event", "snapshot", "signature"]

def signatureField (value : PyDict) : Result Str :=
  match value.getD "signature" with
  | .str (c :: s) => .ok (c :: s)
  | _ => .error (federationError "sync envelope signature is required")

def fromDict (value : PyVal) : Result GovernanceSyncEnvelope := do
  let invalid := federationError "sync envelope has an invalid schema"
  let d ← dictOf invalid value
  raiseIf (d.hasOnly requiredKeys = false ∨ d.hasAll requiredKeys = false) invalid
  let signature ← signatureField d
  let event ← SignedSyncEvent.fromDict (d.getD "event")
  let snapshot ← RegistrySnapshot.fromDict P (d.getD "snapshot")
  .ok ⟨event, snapshot, signature⟩

def verify (envelope : GovernanceSyncEnvelope) (store : TrustStore) (now : Option ℤ)
    (maxAgeSeconds : ℤ) : Result Unit := do
  envelope.event.verify P store now maxAgeSeconds
  raiseIf (envelope.event.sourceOrg ≠ envelope.snapshot.sourceOrg ∨
      envelope.event.snapshotDigest ≠ envelope.snapshot.snapshotDigest)
    (federationError "sync event does not bind the supplied snapshot")
  let verified ← store.verifies P envelope.event.signerKeyId (envelope.unsignedPayload P)
    envelope.signature
  raiseIf (verified = false) (federationError "sync envelope signature is invalid or untrusted")

end GovernanceSyncEnvelope

namespace RegistrySnapshot

variable {P : Primitives} {snapshot : RegistrySnapshot}

theorem fromDict_digest {value : PyVal} (h : fromDict P value = .ok snapshot) :
    canonicalDigest P (.dict snapshot.unsignedDict) = .ok snapshot.snapshotDigest ∧
      ∃ d : PyDict, value = .dict d ∧ d.getD "snapshot_digest" = .str snapshot.snapshotDigest := by
  simp only [fromDict, bind_eq_ok, raiseIf_eq_ok, not_not] at h
  obtain ⟨d, hd, -, -, policyDict, -, digestDict, -, policies, -, policyDigests, -, sourceOrg, -,
    snapshotDigest, hdigest, expected, hexpected, -, hsame, -, -, -, -, h⟩ := h
  obtain rfl := Except.ok.inj h
  refine ⟨hsame ▸ hexpected, d, ?_, ?_⟩
  · cases value with
    | dict d' => exact congrArg PyVal.dict (Except.ok.inj hd)
    | _ => cases hd
  · cases hv : d.getD "snapshot_digest" with
    | str s =>
        rw [hv] at hdigest
        exact congrArg PyVal.str (Except.ok.inj hdigest)
    | _ =>
        rw [hv] at hdigest
        cases hdigest

theorem fromRegistry_digest {registry : PolicyRegistry} {sourceOrg : Str} {version : PyVal}
    (h : fromRegistry P registry sourceOrg version = .ok snapshot) :
    canonicalDigest P (.dict (contents snapshot.version snapshot.policies snapshot.policyDigests)) =
      .ok snapshot.snapshotDigest := by
  simp only [fromRegistry, bind_eq_ok] at h
  obtain ⟨digests, -, snapshotDigest, hdigest, h⟩ := h
  obtain rfl := Except.ok.inj h
  exact hdigest

-- the decoder digests the source organization, the encoder does not
theorem digests_differ (hsha : Function.Injective P.sha256) {version : PyVal}
    {policies : List (Str × PyVal)} {digests : List (Str × Str)} {digest : Str}
    (hdecoder : canonicalDigest P (.dict snapshot.unsignedDict) = .ok digest) :
    canonicalDigest P (.dict (contents version policies digests)) ≠ .ok digest := by
  intro hencoder
  obtain ⟨t, ht, ht'⟩ := canonicalDigest_injective hsha hdecoder hencoder
  obtain ⟨w, j, hmem, -, -⟩ := PyVal.mem_of_same_tree PyVal.isStr_ofFields PyVal.isStr_ofFields ht
    ht' (s := lit "source_org") (v := .str snapshot.sourceOrg) List.mem_cons_self
  simp [PyDict.ofFields] at hmem

theorem fromDict_issued_raises (hsha : Function.Injective P.sha256) {registry : PolicyRegistry}
    {sourceOrg : Str} {version : PyVal}
    (h : fromRegistry P registry sourceOrg version = .ok snapshot) (decoded : RegistrySnapshot) :
    fromDict P (.dict snapshot.toDict) ≠ .ok decoded := by
  intro hdecoded
  obtain ⟨hdecoder, d, hd, hdigest⟩ := fromDict_digest hdecoded
  obtain rfl := PyVal.dict.inj hd
  have hcarried : snapshot.toDict.getD "snapshot_digest" = .str snapshot.snapshotDigest :=
    PyDict.getD_of_get (by rw [toDict, PyDict.get_set, if_pos rfl])
  rw [hcarried] at hdigest
  rw [← PyVal.str.inj hdigest] at hdecoder
  exact digests_differ hsha hdecoder (fromRegistry_digest h)

end RegistrySnapshot

namespace GovernanceSyncEnvelope

variable {P : Primitives} {envelope : GovernanceSyncEnvelope}

def Survives (P : Primitives) (envelope : GovernanceSyncEnvelope) : Prop :=
  ∃ decoded, fromDict P (.dict envelope.toDict) = .ok decoded ∧ decoded = envelope ∧
    ∀ store now maxAgeSeconds, envelope.verify P store now maxAgeSeconds = .ok () →
      decoded.verify P store now maxAgeSeconds = .ok ()

theorem fromDict_snapshot {decoded : GovernanceSyncEnvelope}
    (h : fromDict P (.dict envelope.toDict) = .ok decoded) :
    RegistrySnapshot.fromDict P (.dict envelope.snapshot.toDict) = .ok decoded.snapshot := by
  simp only [fromDict, dictOf, bind_eq_ok] at h
  obtain ⟨d, hd, -, -, signature, -, event, -, snapshot, hsnapshot, h⟩ := h
  obtain rfl := Except.ok.inj h
  obtain rfl := Except.ok.inj hd
  have hcarried : envelope.toDict.getD "snapshot" = .dict envelope.snapshot.toDict :=
    PyDict.getD_of_get (by simp [toDict])
  rwa [hcarried] at hsnapshot

theorem Survives.snapshot (h : Survives P envelope) :
    ∃ decoded, RegistrySnapshot.fromDict P (.dict envelope.snapshot.toDict) = .ok decoded := by
  obtain ⟨decoded, hdecoded, -, -⟩ := h
  exact ⟨decoded.snapshot, fromDict_snapshot hdecoded⟩

theorem issue_snapshot {event : SignedSyncEvent} {snapshot : RegistrySnapshot} {signer : Signer}
    (h : issue P event snapshot signer = .ok envelope) : envelope.snapshot = snapshot := by
  obtain ⟨payload, -, h⟩ := bind_eq_ok.mp h
  rw [← Except.ok.inj h]

-- the snapshot of a registry, an event that binds it, and the envelope around the two
structure Issued (P : Primitives) (registry : PolicyRegistry) (version : ℤ)
    (snapshot : RegistrySnapshot) (event : SignedSyncEvent) (envelope : GovernanceSyncEnvelope) :
    Prop where
  taken : ∃ sourceOrg,
    RegistrySnapshot.fromRegistry P registry sourceOrg (.int version) = .ok snapshot
  announced : ∃ eventType targetOrg nonce signer issuedAt now,
    SignedSyncEvent.issue P eventType snapshot.sourceOrg targetOrg snapshot.snapshotDigest
      snapshot.policyDigests nonce signer issuedAt now = .ok event
  enclosed : ∃ signer, issue P event snapshot signer = .ok envelope

-- no envelope that carries the snapshot of a registry can be decoded again
theorem envelope_never_survives {registry : PolicyRegistry} {version : ℤ}
    {snapshot : RegistrySnapshot} {event : SignedSyncEvent} (hsha : Function.Injective P.sha256)
    (h : Issued P registry version snapshot event envelope) : ¬ Survives P envelope := by
  intro hsurvives
  obtain ⟨sourceOrg, hsnapshot⟩ := h.taken
  obtain ⟨signer, henvelope⟩ := h.enclosed
  obtain ⟨decoded, hdecoded⟩ := hsurvives.snapshot
  rw [issue_snapshot henvelope] at hdecoded
  exact RegistrySnapshot.fromDict_issued_raises hsha hsnapshot decoded hdecoded

def orgSigner : Signer := ⟨"org-key", fun _ => "c2ln"⟩

def sharedRegistry : PolicyRegistry where
  policies := [("demo-v1", Demo.policy)]
  versions := [("demo-v1", 1)]

def sharedEntry : PyVal :=
  .dict (PyDict.ofFields [("policy", .dict Demo.policy.toDict), ("version", .int 1)])

def sharedSnapshot (policyDigest digest : Str) : RegistrySnapshot :=
  ⟨"org-b", .int 1, [("demo-v1", sharedEntry)], [("demo-v1", policyDigest)], digest⟩

def sharedEvent (policyDigest digest : Str) : SignedSyncEvent :=
  ⟨"registry_update", "org-b", "org-a", digest, [("demo-v1", policyDigest)], 100, "n-1", "org-key",
    "c2ln"⟩

section Shared

variable {policyDigest digest : Str} (depth : Nat)

theorem sharedEntry_encodable (hdepth : 10 ≤ depth) : sharedEntry.Encodable depth := by
  have hten : sharedEntry.Encodable 10 := by
    refine (canonicalJson_isOk { referencePrimitives with recursionLimit := 10 }).mp
      (exists_of_toOption ?_)
    decide +kernel
  exact hten.mono hdepth

theorem sharedDigests_encodable (hpolicy : Json.Clean policyDigest) (hdepth : 0 < depth) :
    (strDict PyVal.str (sortedItems [(lit "demo-v1", policyDigest)])).Encodable depth := by
  rw [encodable_strDict]
  simp [sortedItems, hdepth, hpolicy, Json.clean_lit]

theorem sharedEvent_encodable (hpolicy : Json.Clean policyDigest) (hclean : Json.Clean digest)
    (hdepth : 2 < depth) :
    (PyVal.dict (sharedEvent policyDigest digest).unsignedDict).Encodable depth ∧
      (PyVal.dict (sharedEvent policyDigest digest).toDict).Encodable depth := by
  rw [SignedSyncEvent.toDict, SignedSyncEvent.unsignedDict, PyVal.set_ofFields (by simp),
    PyVal.encodable_ofFields, PyVal.encodable_ofFields]
  simp only [List.forall_mem_append, List.forall_mem_cons, List.not_mem_nil, IsEmpty.forall_iff,
    implies_true, and_true, PyVal.encodable_str, PyVal.encodable_int]
  have hpos : 0 < depth := by omega
  have hdigests := sharedDigests_encodable (depth - 1) hpolicy (by omega)
  have hissued : (digits (sharedEvent policyDigest digest).issuedAt.natAbs).length ≤
      maxStrDigits := by
    simp only [sharedEvent]
    decide
  have hfields : Json.Clean (sharedEvent policyDigest digest).eventType ∧
      Json.Clean (sharedEvent policyDigest digest).sourceOrg ∧
        Json.Clean (sharedEvent policyDigest digest).targetOrg ∧
          Json.Clean (sharedEvent policyDigest digest).snapshotDigest :=
    ⟨Json.clean_lit _, Json.clean_lit _, Json.clean_lit _, hclean⟩
  obtain ⟨htype, hsource, htarget, hdigest⟩ := hfields
  exact ⟨⟨hpos, htype, hsource, htarget, hdigest, hdigests, hissued, Json.clean_lit _,
      Json.clean_lit _⟩,
    ⟨hpos, ⟨htype, hsource, htarget, hdigest, hdigests, hissued, Json.clean_lit _,
      Json.clean_lit _⟩, Json.clean_lit _⟩⟩

theorem sharedPolicies_encodable (hdepth : 20 ≤ depth) :
    (strDict id (sortedItems [(lit "demo-v1", sharedEntry)])).Encodable depth := by
  rw [encodable_strDict]
  simp [sortedItems, Json.clean_lit, sharedEntry_encodable (depth - 1) (by omega)]
  omega

theorem sharedContents_encodable (hpolicy : Json.Clean policyDigest) (hdepth : 50 ≤ depth) :
    (PyVal.dict (RegistrySnapshot.contents (.int 1) [("demo-v1", sharedEntry)]
      [("demo-v1", policyDigest)])).Encodable depth := by
  rw [RegistrySnapshot.contents, PyVal.encodable_ofFields]
  simp only [List.forall_mem_cons, List.not_mem_nil, IsEmpty.forall_iff, implies_true, and_true]
  exact ⟨by omega, PyVal.encodable_int.mpr (by decide),
    sharedPolicies_encodable (depth - 1) (by omega),
    sharedDigests_encodable (depth - 1) hpolicy (by omega)⟩

theorem sharedSnapshot_encodable (hpolicy : Json.Clean policyDigest) (hclean : Json.Clean digest)
    (hdepth : 50 ≤ depth) :
    (PyVal.dict (sharedSnapshot policyDigest digest).toDict).Encodable depth := by
  rw [RegistrySnapshot.toDict, RegistrySnapshot.unsignedDict, PyVal.set_ofFields (by simp),
    PyVal.encodable_ofFields]
  simp only [List.forall_mem_append, List.forall_mem_cons, List.not_mem_nil, IsEmpty.forall_iff,
    implies_true, and_true, PyVal.encodable_str]
  exact ⟨by omega, ⟨Json.clean_lit _, PyVal.encodable_int.mpr (by decide),
    sharedPolicies_encodable (depth - 1) (by omega),
    sharedDigests_encodable (depth - 1) hpolicy (by omega)⟩, hclean⟩

end Shared

theorem issued_shared : ∃ envelope policyDigest digest,
    Issued referencePrimitives sharedRegistry 1 (sharedSnapshot policyDigest digest)
      (sharedEvent policyDigest digest) envelope := by
  obtain ⟨policyDigest, hpolicyDigest⟩ := exists_of_toOption
    (show (Demo.policy.digest referencePrimitives).toOption.isSome = true by decide +kernel)
  have hpolicy : Json.Clean policyDigest := (canonicalDigest_eq_ok hpolicyDigest).2
  obtain ⟨digest, hdigest⟩ := (canonicalDigest_isOk referencePrimitives).mpr
    (sharedContents_encodable 100 hpolicy (by omega))
  obtain ⟨hnonempty, hclean⟩ := canonicalDigest_eq_ok hdigest
  obtain ⟨hunsigned, -⟩ := sharedEvent_encodable 100 hpolicy hclean (by decide)
  obtain ⟨-, hevent⟩ := sharedEvent_encodable 99 hpolicy hclean (by decide)
  obtain ⟨payload, hpayload⟩ := (canonicalJson_isOk referencePrimitives).mpr hunsigned
  obtain ⟨bytes, hbytes⟩ : ∃ bytes, (GovernanceSyncEnvelope.mk (sharedEvent policyDigest digest)
      (sharedSnapshot policyDigest digest) []).unsignedPayload referencePrimitives =
        .ok bytes := by
    refine (canonicalJson_isOk _).mpr (PyVal.encodable_ofFields.mpr ⟨by decide, ?_⟩)
    simp only [List.forall_mem_cons, List.not_mem_nil, IsEmpty.forall_iff, implies_true, and_true]
    exact ⟨hevent, sharedSnapshot_encodable 99 hpolicy hclean (by decide)⟩
  have htaken : RegistrySnapshot.fromRegistry referencePrimitives sharedRegistry "org-b" (.int 1) =
      .ok (sharedSnapshot policyDigest digest) := by
    have hdigests : sharedRegistry.digests referencePrimitives =
        .ok [(lit "demo-v1", policyDigest)] := by
      simp [PolicyRegistry.digests, sharedRegistry, sortedItems, hpolicyDigest, bind, Except.bind,
        pure, Except.pure]
    exact bind_eq_ok.mpr ⟨_, hdigests, bind_eq_ok.mpr ⟨digest, hdigest, rfl⟩⟩
  have hannounced : SignedSyncEvent.issue referencePrimitives "registry_update" "org-b" "org-a"
      digest [("demo-v1", policyDigest)] "n-1" orgSigner (some 100) 0 =
        .ok (sharedEvent policyDigest digest) := by
    refine bind_eq_ok.mpr ⟨(), ?_, bind_eq_ok.mpr ⟨payload, hpayload, rfl⟩⟩
    rw [raiseIf_eq_ok]
    simp [lit, hnonempty]
  exact ⟨⟨sharedEvent policyDigest digest, sharedSnapshot policyDigest digest, "c2ln"⟩,
    policyDigest, digest,
    { taken := ⟨"org-b", htaken⟩
      announced := ⟨"registry_update", "org-a", "n-1", orgSigner, some 100, 0, hannounced⟩
      enclosed := ⟨orgSigner, bind_eq_ok.mpr ⟨bytes, hbytes, rfl⟩⟩ }⟩

theorem envelope_never_survives_shared : ∃ envelope snapshot event,
    Issued referencePrimitives sharedRegistry 1 snapshot event envelope ∧
      ¬ Survives referencePrimitives envelope := by
  obtain ⟨envelope, policyDigest, digest, hissued⟩ := issued_shared
  exact ⟨envelope, _, _, hissued,
    envelope_never_survives referencePrimitives_sha256_injective hissued⟩

theorem envelope_lost_in_transport :
    ¬ ∀ (P : Primitives) (registry : PolicyRegistry) (version : ℤ) (snapshot : RegistrySnapshot)
      (event : SignedSyncEvent) (envelope : GovernanceSyncEnvelope),
      Issued P registry version snapshot event envelope → Survives P envelope := by
  intro h
  obtain ⟨envelope, policyDigest, digest, hissued⟩ := issued_shared
  obtain ⟨decoded, hdecoded⟩ := (h _ _ _ _ _ _ hissued).snapshot
  obtain ⟨sourceOrg, hsnapshot⟩ := hissued.taken
  obtain ⟨signer, henvelope⟩ := hissued.enclosed
  rw [issue_snapshot henvelope] at hdecoded
  exact RegistrySnapshot.fromDict_issued_raises referencePrimitives_sha256_injective hsnapshot
    decoded hdecoded

end GovernanceSyncEnvelope

end GovernedAutonomy
