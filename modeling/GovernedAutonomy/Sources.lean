import GovernedAutonomy.Faults
import GovernedAutonomy.Provenance
import GovernedAutonomy.TrustChange

namespace GovernedAutonomy

open Python Protocol

-- an Ed25519PublicKey object, or any other value given for one
inductive KeyArgument where
  | key (publicKey : PublicKey)
  | value (v : PyVal)

def coercePublicKey : KeyArgument → Result PublicKey
  | .key publicKey => .ok publicKey
  | .value (.str s) =>
      reraise (fun _ => true)
        (governanceMeshError (lit "public_key string is not valid base64 Ed25519 bytes"))
        (do
          let raw ← b64decode s
          fromPublicBytes raw)
  | .value _ =>
      meshReject "public_key must be an Ed25519 public key or a base64-encoded string"

def keyOf : PyVal → Result PyKey
  | .none => .ok .none
  | .bool b => .ok (.bool b)
  | .int i => .ok (.int i)
  | .float f => .ok (.float f)
  | .str s => .ok (.str s)
  | .object id => .ok (.other id)
  | _ => .error (.builtin .typeError)

-- an element of the sequence that dict() is given, with its place there
def pairOf (m : PyVal × Nat) : Result (PyKey × PyVal) := do
  match ← GovernanceMesh.iterate m.1 with
  | [k, v] => do
      let k ← keyOf k
      .ok (k, v)
  | values => .error (.valueError (lit "dictionary update sequence element #" ++ intRepr m.2 ++
      lit " has length " ++ intRepr values.length ++ lit "; 2 is required"))

-- dict(value or {})
def mappingOf (value : PyVal) : Result PyDict :=
  if value.truthy then
    match value with
    | .dict d => .ok d
    | value => do
        let items ← GovernanceMesh.iterate value
        let pairs ← items.zipIdx.mapM pairOf
        .ok (Dict.update [] pairs)
  else .ok []

-- what a GovernanceSourceRegistry holds besides its trust store and its path
structure SourceRecords where
  keys : List (Str × PublicKey) := []
  metadata : List (Str × PyDict) := []
  revoked : List Str := []

namespace SourceRecords

variable (records : SourceRecords)

def registry (store : TrustStore) : GovernanceSourceRegistry :=
  { trustStore := some store, keys := records.keys, revoked := records.revoked }

def register (sourceId : PyVal) (publicKey : KeyArgument) (metadata : PyDict) :
    Result SourceRecords := do
  let sourceId ← GovernanceInput.sourceIdOf sourceId
  match publicKey with
  | .value .none => meshReject "public_key must not be null"
  | publicKey => do
      let key ← coercePublicKey publicKey
      .ok
        { keys := Dict.set records.keys sourceId.1 key
          metadata := Dict.set records.metadata sourceId.1 metadata
          revoked := records.revoked.filter (fun s => s ≠ sourceId.1) }

def revoke (sourceId : Str) : Result SourceRecords :=
  if Dict.has records.keys sourceId then
    .ok { records with
      revoked := if sourceId ∈ records.revoked then records.revoked
        else sourceId :: records.revoked }
  else .error (governanceMeshError (lit "unknown governance source: " ++ sourceId))

def sourceDict (m : Str × PublicKey) : PyVal :=
  .dict (PyDict.ofFields
    [("public_key", .str (b64encode m.2.raw)),
      ("metadata", .dict ((Dict.get records.metadata m.1).getD []))])

def toDict : PyDict :=
  PyDict.ofFields
    [("sources", .dict ((sortedItems records.keys).map (fun m => (.str m.1, records.sourceDict m)))),
      ("revoked", strList (sortedStrs records.revoked))]

def readSource (records : SourceRecords) (m : PyKey × PyVal) : Result SourceRecords :=
  match m.1, m.2 with
  | .str (c :: s), .dict entry =>
      match PyDict.getD entry "public_key" with
      | .none => .error (governanceMeshError
          (lit "source " ++ c :: s ++ lit " is missing a public key"))
      | publicKey => do
          let key ← reraise (fun _ => true)
            (governanceMeshError (lit "source " ++ c :: s ++ lit " has an invalid public key"))
            (coercePublicKey (.value publicKey))
          let metadata ← mappingOf ((PyDict.get entry "metadata").getD (.dict []))
          records.register (.str (c :: s)) (.key key) metadata
  | .str (_ :: _), _ => meshReject "source registry source metadata must be an object"
  | _, _ => meshReject "source registry contains an invalid source ID"

def readRevoked (records : SourceRecords) : PyVal → Result SourceRecords
  | .str (c :: s) => records.revoke (c :: s)
  | _ => meshReject "source registry contains an invalid revoked source ID"

def fromDict (value : PyVal) : Result SourceRecords :=
  match value with
  | .dict d => do
      raiseIf (PyDict.hasAll d ["sources", "revoked"] = false)
        (governanceMeshError (lit "source registry has an invalid schema"))
      match PyDict.getD d "sources", PyDict.getD d "revoked" with
      | .dict sources, .list revoked => do
          let records ← sources.foldlM readSource {}
          revoked.foldlM readRevoked records
      | .dict _, _ => meshReject "source registry revoked must be a list"
      | _, _ => meshReject "source registry sources must be an object"
  | _ => meshReject "source registry must be an object"

-- the exceptions that _load turns into its own
def isUnsafe (e : Exc) : Bool :=
  e.isTypeError || e.isValueError || (match e with | .custom cls _ _ _ => cls = "OSError" | _ => false)

-- _load of a file whose text, where it could be read, is given
def load (P : Primitives) (text : Option Str) : Result SourceRecords :=
  reraise isUnsafe (governanceMeshError (lit "source registry could not be loaded safely"))
    (match text with
      | none => .error osError
      | some text => do
          let payload ← P.loads text
          fromDict payload)

end SourceRecords

-- a registry, its backing trust store, and its file if it has a path
structure SourceWorld where
  store : TrustStore
  records : SourceRecords := {}
  persistent : Bool := true
  file : Option Str := none

inductive SourceStep where
  | register (sourceId : PyVal) (publicKey : KeyArgument) (metadata : PyDict) (writable : Bool)
  | revoke (sourceId : Str) (writable : Bool)
  | save (writable : Bool)
  | load
  | replaceFile (text : Option Str)
  | trustAdd (keyId : Str) (publicKey : PublicKey)
  | trustRevoke (keyId : Str)

namespace SourceWorld

variable (P : Primitives) (world : SourceWorld)

def registry : GovernanceSourceRegistry := world.records.registry world.store

def mesh : GovernanceMesh := { sourceRegistry := some world.registry }

def save (writable : Bool) : SourceWorld × Result Unit :=
  if world.persistent = false then (world, .ok ())
  else
    match canonicalJson P (.dict world.records.toDict) with
    | .error e => (world, .error e)
    | .ok bytes =>
        if writable then ({ world with file := some (decode bytes) }, .ok ())
        else (world, .error osError)

-- a call that raises in _save has changed the records already
def change (result : Result SourceRecords) (writable : Bool) : SourceWorld × Result Unit :=
  match result with
  | .error e => (world, .error e)
  | .ok records => save P { world with records := records } writable

def trust (result : Result TrustStore) : SourceWorld × Result Unit :=
  match result with
  | .error e => (world, .error e)
  | .ok store => ({ world with store := store }, .ok ())

def perform : SourceStep → SourceWorld × Result Unit
  | .register sourceId publicKey metadata writable =>
      world.change P (world.records.register sourceId publicKey metadata) writable
  | .revoke sourceId writable => world.change P (world.records.revoke sourceId) writable
  | .save writable => world.save P writable
  | .load =>
      if world.persistent = false then (world, .error (.builtin .attributeError))
      else
        match SourceRecords.load P world.file with
        | .error e => (world, .error e)
        | .ok records => ({ world with records := records }, .ok ())
  | .replaceFile text => ({ world with file := text }, .ok ())
  | .trustAdd keyId publicKey => world.trust (world.store.add keyId publicKey)
  | .trustRevoke keyId => world.trust (world.store.revoke keyId)

def step (world : SourceWorld) (s : SourceStep) : SourceWorld := (world.perform P s).1

-- a source revoked in either store is resolved to no key, and no preflight takes its inputs
def Final : Prop :=
  ∀ id, id ∈ world.store.revoked ∨ id ∈ world.records.revoked →
    world.registry.resolve id = none ∧
      ∀ inputs item, item ∈ inputs → item.sourceId = id → ∀ requestDigest replayFrameRef preflight,
        world.mesh.evaluate P inputs requestDigest replayFrameRef ≠ .ok preflight

-- the registry has a key of its own for a source that it has not revoked
def Live (records : SourceRecords) (id : Str) : Prop :=
  Dict.has records.keys id = true ∧ id ∉ records.revoked

-- what a step must not do: leave a live key of a source that the trust store has revoked
def Respects : SourceStep → Prop
  | .register sourceId publicKey metadata _ => ∀ id, sourceId = .str id →
      id ∈ world.store.revoked → ∃ e, world.records.register sourceId publicKey metadata = .error e
  | .trustRevoke keyId => Dict.has world.store.keys keyId = true → ¬ Live world.records keyId
  | .load => world.persistent = true → ∀ records, SourceRecords.load P world.file = .ok records →
      ∀ id ∈ world.store.revoked, ¬ Live records id
  | _ => True

variable {P world}

theorem live_iff {records : SourceRecords} {id : Str} :
    Live records id ↔ ∃ key, Dict.get records.keys id = some key ∧ id ∉ records.revoked := by
  rw [Live, Dict.has, Option.isSome_iff_exists]
  exact exists_and_right.symm

theorem resolve_of_store_revoked {id : Str} (h : id ∈ world.store.revoked) :
    world.registry.resolve id = none ↔ ¬ Live world.records id := by
  have hstore : world.store.resolve id = none := if_pos h
  rw [live_iff, registry, SourceRecords.registry, GovernanceSourceRegistry.resolve]
  by_cases hrevoked : id ∈ world.records.revoked
  · simp [hrevoked]
  · simp [hrevoked, hstore, Option.eq_none_iff_forall_ne_some]

theorem rejected_of_unresolved {id : Str} (h : world.registry.resolve id = none)
    {inputs : List GovernanceInput} {item : GovernanceInput} (hitem : item ∈ inputs)
    (hid : item.sourceId = id) (requestDigest : Str) (replayFrameRef : Option Str)
    (preflight : GovernanceMesh.Preflight) :
    world.mesh.evaluate P inputs requestDigest replayFrameRef ≠ .ok preflight := by
  intro hevaluate
  obtain ⟨-, hattested, -⟩ := GovernanceMesh.evaluate_eq_ok.mp hevaluate
  obtain ⟨key, signature, payload, hkey, -⟩ :=
    GovernanceMesh.attestation_registry.mp (hattested item hitem)
  rw [hid, h] at hkey
  cases hkey

theorem final_iff : Final P world ↔ ∀ id ∈ world.store.revoked, ¬ Live world.records id := by
  constructor
  · intro h id hid
    exact (resolve_of_store_revoked hid).mp (h id (Or.inl hid)).1
  · intro h id hid
    have hresolve : world.registry.resolve id = none := by
      rcases hid with hid | hid
      · exact (resolve_of_store_revoked hid).mpr (h id hid)
      · exact if_pos hid
    exact ⟨hresolve, fun inputs item hitem hsource => rejected_of_unresolved hresolve hitem hsource⟩

@[simp]
theorem save_store (writable : Bool) : (world.save P writable).1.store = world.store := by
  unfold save
  split
  · rfl
  · split
    · rfl
    · split <;> rfl

@[simp]
theorem save_records (writable : Bool) : (world.save P writable).1.records = world.records := by
  unfold save
  split
  · rfl
  · split
    · rfl
    · split <;> rfl

-- registering a source makes its key live, and no other
theorem live_register {records records' : SourceRecords} {sourceId : PyVal}
    {publicKey : KeyArgument} {metadata : PyDict}
    (h : records.register sourceId publicKey metadata = .ok records') :
    ∃ id, sourceId = .str id ∧ ∀ s, Live records' s ↔ s = id ∨ Live records s := by
  obtain ⟨⟨id, hne⟩, hid, h⟩ := bind_eq_ok.mp h
  have hsource : sourceId = .str id := by
    unfold GovernanceInput.sourceIdOf at hid
    split at hid
    · rw [Subtype.mk.inj (Except.ok.inj hid)]
    · cases hid
  have hkey : ∃ key, records' =
      { keys := Dict.set records.keys id key
        metadata := Dict.set records.metadata id metadata
        revoked := records.revoked.filter (fun s => s ≠ id) } := by
    split at h
    · cases h
    · obtain ⟨key, -, h⟩ := bind_eq_ok.mp h
      exact ⟨key, (Except.ok.inj h).symm⟩
  obtain ⟨key, rfl⟩ := hkey
  refine ⟨id, hsource, fun s => ?_⟩
  rw [Live, Live, Dict.has_set_eq, Bool.or_eq_true, decide_eq_true_eq, List.mem_filter]
  by_cases hs : s = id
  · simp [hs]
  · simp [hs, Ne.symm hs]

theorem live_revoke {records records' : SourceRecords} {sourceId : Str}
    (h : records.revoke sourceId = .ok records') {s : Str} (hlive : Live records' s) :
    Live records s := by
  unfold SourceRecords.revoke at h
  split at h
  · obtain rfl := Except.ok.inj h
    refine ⟨hlive.1, fun hmem => hlive.2 ?_⟩
    simp only
    split
    · exact hmem
    · exact List.mem_cons_of_mem _ hmem
  · cases h

theorem final_congr {world' : SourceWorld} (hstore : world'.store = world.store)
    (hrecords : world'.records = world.records) (h : Final P world) : Final P world' := by
  rw [final_iff] at h ⊢
  rw [hstore, hrecords]
  exact h

theorem final_register {sourceId : PyVal} {publicKey : KeyArgument} {metadata : PyDict}
    {writable : Bool} (h : Final P world) :
    Final P (world.step P (.register sourceId publicKey metadata writable)) ↔
      world.Respects P (.register sourceId publicKey metadata writable) := by
  have hlive := final_iff.mp h
  simp only [step, perform, change]
  cases hregister : world.records.register sourceId publicKey metadata with
  | error e => exact iff_of_true h fun _ _ _ => ⟨e, hregister⟩
  | ok records =>
      obtain ⟨id, rfl, hsame⟩ := live_register hregister
      simp only [final_iff, save_store, save_records]
      constructor
      · intro hfinal s hs hrevoked
        obtain rfl := PyVal.str.inj hs
        exact absurd ((hsame id).mpr (Or.inl rfl)) (hfinal id hrevoked)
      · intro hrespects s hrevoked hs
        rcases (hsame s).mp hs with rfl | hs
        · obtain ⟨e, he⟩ := hrespects s rfl hrevoked
          rw [hregister] at he
          cases he
        · exact hlive s hrevoked hs

theorem final_revoke {sourceId : Str} {writable : Bool} (h : Final P world) :
    Final P (world.step P (.revoke sourceId writable)) := by
  simp only [step, perform, change]
  cases hrevoke : world.records.revoke sourceId with
  | error e => exact h
  | ok records =>
      simp only [final_iff, save_store, save_records]
      exact fun s hrevoked hs => final_iff.mp h s hrevoked (live_revoke hrevoke hs)

theorem final_load (h : Final P world) :
    Final P (world.step P .load) ↔ world.Respects P .load := by
  rw [step, perform, Respects]
  split
  · rename_i hpath
    refine iff_of_true h fun hpersistent => ?_
    rw [hpath] at hpersistent
    cases hpersistent
  · rename_i hpath
    rw [Bool.not_eq_false] at hpath
    cases hload : SourceRecords.load P world.file with
    | error e =>
        refine iff_of_true h fun _ records hrecords => ?_
        cases hrecords
    | ok records =>
        simp only [final_iff]
        constructor
        · rintro hfinal - records' hrecords
          obtain rfl := Except.ok.inj hrecords
          exact hfinal
        · intro hrespects
          exact hrespects hpath records rfl

theorem final_trustAdd {keyId : Str} {publicKey : PublicKey} (h : Final P world) :
    Final P (world.step P (.trustAdd keyId publicKey)) := by
  simp only [step, perform, trust]
  cases hadd : world.store.add keyId publicKey with
  | error e => exact h
  | ok store =>
      obtain ⟨-, -, -, hrevoked⟩ := TrustStore.add_eq_ok hadd
      rw [final_iff]
      intro id hid
      simp only [hrevoked] at hid
      exact final_iff.mp h id (List.mem_of_mem_filter hid)

theorem final_trustRevoke {keyId : Str} (h : Final P world) :
    Final P (world.step P (.trustRevoke keyId)) ↔ world.Respects P (.trustRevoke keyId) := by
  simp only [step, perform, trust, Respects]
  cases hrevoke : world.store.revoke keyId with
  | error e =>
      refine iff_of_true h fun hknown => ?_
      rw [TrustStore.revoke, dif_pos hknown] at hrevoke
      cases hrevoke
  | ok store =>
      simp only [final_iff, TrustStore.mem_revoked_of_revoke hrevoke]
      constructor
      · intro hfinal _
        exact hfinal keyId (Or.inl rfl)
      · rintro hrespects id (rfl | hid)
        · exact hrespects (TrustStore.known_of_revoke hrevoke)
        · exact final_iff.mp h id hid

theorem final_step (world : SourceWorld) (s : SourceStep) (h : Final P world) :
    Final P (world.step P s) ↔ world.Respects P s := by
  cases s with
  | register sourceId publicKey metadata writable => exact final_register h
  | revoke sourceId writable => exact iff_of_true (final_revoke h) trivial
  | save writable =>
      exact iff_of_true (final_congr (save_store writable) (save_records writable) h) trivial
  | load => exact final_load h
  | replaceFile text => exact iff_of_true (final_congr rfl rfl h) trivial
  | trustAdd keyId publicKey => exact iff_of_true (final_trustAdd h) trivial
  | trustRevoke keyId => exact final_trustRevoke h

-- revocation stays final exactly as long as no step leaves a live key under a revoked source
theorem revocation_final (P : Primitives) (store : TrustStore) (persistent : Bool)
    (file : Option Str) (steps : List SourceStep) :
    (∀ before after, steps = before ++ after →
      Final P (Calls.run (step P) ⟨store, {}, persistent, file⟩ before)) ↔
    Calls.Each (step P) (Respects P) ⟨store, {}, persistent, file⟩ steps := by
  refine Calls.always_iff final_step (final_iff.mpr ?_)
  rintro id - ⟨hhas, -⟩
  cases hhas

-- the registry still has the key of a source that the trust store has revoked
theorem revocation_outlived : ¬ Final sizePrimitives (Calls.run (step sizePrimitives)
    ⟨TrustStore.empty, {}, true, none⟩
    [.trustAdd "s" ⟨List.replicate 32 1⟩,
      .register (.str "s") (.key ⟨List.replicate 32 2⟩) [] true, .trustRevoke "s"]) := by
  intro h
  have hresolve := (h "s" (Or.inl (by decide +kernel))).1
  revert hresolve
  decide +kernel

end SourceWorld

end GovernedAutonomy
