import GovernedAutonomy.PolicyStateFile
import GovernedAutonomy.VersionNames

namespace GovernedAutonomy

open Python PolicyDocument Protocol

deriving instance DecidableEq for PolicySignature

-- asdict(signature)
def PolicySignature.toDict (signature : PolicySignature) : PyDict := PyDict.ofFields
  [("signer_id", .str signature.signerId), ("algorithm", .str signature.algorithm),
    ("signature", .str signature.signature), ("signed_at", .str signature.signedAt)]

def optionalSignature : Option PolicySignature → PyVal
  | some signature => .dict signature.toDict
  | none => .none

namespace StoredPolicy

def recordFields (stored : StoredPolicy) : List (String × PyVal) :=
  [("content_hash", .str stored.contentHash), ("policy", .dict stored.policy),
    ("schema_version", .str stored.schemaVersion),
    ("signature", optionalSignature stored.signature)]

def recordText (P : Primitives) (stored : StoredPolicy) : Result String :=
  canonicalJson P (.dict (PyDict.ofFields stored.recordFields))

def key (stored : StoredPolicy) : Str × Str := (stored.id, stored.version)

-- existing != stored, of the dataclasses
def eq (a b : StoredPolicy) : Bool :=
  decide (a.id = b.id) && decide (a.version = b.version) &&
    decide (a.contentHash = b.contentHash) && (PyVal.dict a.policy).eq (.dict b.policy) &&
      decide (a.schemaVersion = b.schemaVersion) && decide (a.signature = b.signature)

end StoredPolicy

namespace FilePolicyStorage

variable (P : Primitives)

def maxPolicyRecordBytes : Nat := maxPolicyBytes + 8192

def readSignature : PyVal → Result (Option PolicySignature)
  | .dict d => do
      let signerId ← member d "signer_id"
      let algorithm ← member d "algorithm"
      let signature ← member d "signature"
      let signedAt ← member d "signed_at"
      .ok (some ⟨signerId, algorithm, signature, signedAt⟩)
  | _ => .ok none

def policyOf (record : PyDict) : Result PyDict :=
  match PyDict.get record (lit "policy") with
  | none => .error (.builtin .keyError)
  | some value => dictOf (.builtin .typeError) value

-- of values of the declared types
def readFields (policyId version : Str) (record : PyDict) : Result StoredPolicy := do
  let signature ← readSignature (PyDict.getD record (lit "signature"))
  let contentHash ← member record "content_hash"
  let policy ← policyOf record
  let schemaVersion ← declaredStr (fieldOr record "schema_version" (.str (lit "1.0")))
  .ok { id := policyId, version, contentHash, policy, schemaVersion, signature }

def isMalformed : Exc → Bool
  | .builtin .keyError => true
  | e => e.isTypeError || e.isValueError

def integrityError (message : String) (policyId version : Str) : Exc :=
  policyError "PolicyIntegrityError" (lit message ++ policyId ++ lit "@" ++ version)

-- what get makes of the bytes of a record file
def readRecord (policyId version : Str) (text : String) : Result StoredPolicy := do
  raiseIf (maxPolicyRecordBytes < text.utf8ByteSize)
    (integrityError "stored policy record exceeds size limit: " policyId version)
  reraise isMalformed (integrityError "stored policy record is malformed: " policyId version) (do
    let value ← P.loads (decode text)
    let record ← dictOf (.builtin .attributeError) value
    readFields policyId version record)

end FilePolicyStorage

namespace FilePolicyStorage

section RoundTrip

variable {P : Primitives} {stored : StoredPolicy} {text : String} {d : PyDict}

-- the same record, with the keys of its policy in the order of the file
structure Rereads (stored reread : StoredPolicy) : Prop where
  record : reread = { stored with policy := reread.policy }
  policy : PyVal.Alike (.dict stored.policy) (.dict reread.policy)

theorem isJson_optionalSignature (signature : Option PolicySignature) :
    (optionalSignature signature).IsJson := by
  cases signature with
  | none => trivial
  | some signature => exact PyVal.isJson_ofFields (by simp) (by simp [PyVal.IsJson])

theorem isJson_recordFields (h : (PyVal.dict stored.policy).IsJson) :
    (PyVal.dict (PyDict.ofFields stored.recordFields)).IsJson := by
  refine PyVal.isJson_ofFields (by simp [StoredPolicy.recordFields]) fun m hm => ?_
  simp only [StoredPolicy.recordFields, List.mem_cons, List.not_mem_nil, or_false] at hm
  rcases hm with rfl | rfl | rfl | rfl
  · trivial
  · exact h
  · trivial
  · exact isJson_optionalSignature stored.signature

theorem readSignature_of_alike {signature : Option PolicySignature} {x : PyVal}
    (h : PyVal.Alike (optionalSignature signature) x) : readSignature x = .ok signature := by
  cases signature with
  | none =>
      rw [eq_of_alike h (by simp [optionalSignature]) (by simp [optionalSignature])]
      rfl
  | some signature =>
      obtain ⟨d, rfl, hd⟩ := PyVal.Alike.dict h
      have hmember : ∀ {name : String} {s : Str},
          PyDict.get signature.toDict (lit name) = some (.str s) → member d name = .ok s :=
        fun hs => PolicyActivationEvent.member_of_alike hd hs
      have hsigner : member d "signer_id" = .ok signature.signerId :=
        hmember (by simp [PolicySignature.toDict])
      have halgorithm : member d "algorithm" = .ok signature.algorithm :=
        hmember (by simp [PolicySignature.toDict])
      have hsignature : member d "signature" = .ok signature.signature :=
        hmember (by simp [PolicySignature.toDict])
      have hsigned : member d "signed_at" = .ok signature.signedAt :=
        hmember (by simp [PolicySignature.toDict])
      rw [readSignature, hsigner, halgorithm, hsignature, hsigned]
      rfl

theorem readFields_of_alike
    (hd : PyVal.Alike (.dict (PyDict.ofFields stored.recordFields)) (.dict d)) :
    ∃ reread, readFields stored.id stored.version d = .ok reread ∧ Rereads stored reread := by
  have hfield : ∀ {name : String} {v : PyVal},
      PyDict.get (PyDict.ofFields stored.recordFields) (lit name) = some v →
        ∃ w, PyDict.get d (lit name) = some w ∧ PyVal.Alike v w := fun {name v} hv =>
    hd.get_some (lit name) hv
  obtain ⟨signature, hsignature, hsignatureAlike⟩ : ∃ w, PyDict.get d (lit "signature") = some w ∧
      PyVal.Alike (optionalSignature stored.signature) w :=
    hfield (by simp [StoredPolicy.recordFields])
  obtain ⟨policy, hpolicy, hpolicyAlike⟩ : ∃ w, PyDict.get d (lit "policy") = some w ∧
      PyVal.Alike (.dict stored.policy) w := hfield (by simp [StoredPolicy.recordFields])
  obtain ⟨schema, hschema, hschemaAlike⟩ : ∃ w, PyDict.get d (lit "schema_version") = some w ∧
      PyVal.Alike (.str stored.schemaVersion) w := hfield (by simp [StoredPolicy.recordFields])
  have hhash : member d "content_hash" = .ok stored.contentHash :=
    PolicyActivationEvent.member_of_alike hd (by simp [StoredPolicy.recordFields])
  obtain ⟨content, rfl, hcontent⟩ := hpolicyAlike.dict
  have hpolicyOf : policyOf d = .ok content := by
    rw [policyOf, hpolicy]
    rfl
  have hschemaOf : fieldOr d "schema_version" (.str (lit "1.0")) = .str stored.schemaVersion := by
    have hget : PyDict.get d "schema_version" = some schema := hschema
    rw [fieldOr, hget, Option.getD_some, hschemaAlike.str]
  refine ⟨{ stored with policy := content }, ?_, rfl, hcontent⟩
  rw [readFields, PyDict.getD_of_get hsignature, readSignature_of_alike hsignatureAlike, hhash,
    hpolicyOf, hschemaOf]
  rfl

-- what put writes, get reads
theorem readRecord_recordText (hjson : (PyVal.dict stored.policy).IsJson)
    (htext : stored.recordText P = .ok text)
    (hsize : text.utf8ByteSize ≤ maxPolicyRecordBytes) :
    ∃ reread, readRecord P stored.id stored.version text = .ok reread ∧ Rereads stored reread := by
  obtain ⟨t, ht, hloads⟩ := loads_canonicalJson htext
  have halike := PyVal.alike_ofTree (isJson_recordFields hjson) ht
  obtain ⟨d, hd, hdict⟩ := halike.dict
  obtain ⟨reread, hread, hrereads⟩ := readFields_of_alike hdict
  refine ⟨reread, ?_, hrereads⟩
  rw [readRecord, raiseIf_of_not (not_lt.mpr hsize), hloads, hd]
  exact reraise_eq_ok.mpr hread

theorem key_of_readRecord {policyId version : Str} {reread : StoredPolicy}
    (h : readRecord P policyId version text = .ok reread) : reread.key = (policyId, version) := by
  simp only [readRecord, readFields, bind_eq_ok, reraise_eq_ok] at h
  obtain ⟨_, -, _, -, _, -, _, -, _, -, _, -, _, -, h⟩ := h
  obtain rfl := Except.ok.inj h
  rfl

theorem isJson_newStored {L : Libraries} {policy : PyVal} {signer : Option PolicySigner}
    {signedAt : Option Str} {now : Str}
    (h : newStored P L policy signer signedAt now = .ok stored) :
    (PyVal.dict stored.policy).IsJson := by
  unfold newStored at h
  obtain ⟨content, hcontent, h⟩ := bind_eq_ok.mp h
  obtain ⟨id, -, h⟩ := bind_eq_ok.mp h
  obtain ⟨version, -, h⟩ := bind_eq_ok.mp h
  obtain ⟨contentHash, -, h⟩ := bind_eq_ok.mp h
  have hjson : (PyVal.dict content).IsJson := by
    simp only [canonicalPolicy, bind_eq_ok] at hcontent
    obtain ⟨-, -, encoded, hencoded, value, hvalue, hdict⟩ := hcontent
    obtain ⟨t, -, hloads⟩ := loads_canonicalJson hencoded
    rw [hloads] at hvalue
    obtain rfl := Except.ok.inj hvalue
    have hof : PyVal.ofTree t = .dict content := by
      cases hof : PyVal.ofTree t <;> rw [hof] at hdict <;> simp [dictOf] at hdict
      exact congrArg PyVal.dict hdict
    exact hof ▸ PyVal.ofTree_isJson t
  cases signer with
  | none =>
      obtain rfl := Except.ok.inj h
      exact hjson
  | some signer =>
      simp only at h
      obtain ⟨checked, -, h⟩ := bind_eq_ok.mp h
      obtain ⟨named, -, h⟩ := bind_eq_ok.mp h
      obtain ⟨algorithm, -, h⟩ := bind_eq_ok.mp h
      obtain ⟨payload, -, h⟩ := bind_eq_ok.mp h
      obtain ⟨signed, -, h⟩ := bind_eq_ok.mp h
      rw [← Except.ok.inj h]
      exact hjson

end RoundTrip

end FilePolicyStorage

-- what a storage.get is for
inductive LookupFor where
  | get (policyId version : Str)
  | register (stored : StoredPolicy)
  | publish (stored : StoredPolicy)
  -- the name existed when put came to link it
  | compare (stored : StoredPolicy) (temporary : ℕ)

def LookupFor.key : LookupFor → Str × Str
  | .get policyId version => (policyId, version)
  | .register stored => stored.key
  | .publish stored => stored.key
  | .compare stored _ => stored.key

-- the file system operation that a call has come to
inductive StorageStage where
  | idle
  | finding (lookup : LookupFor)
  | reading (lookup : LookupFor)
  | creating (stored : StoredPolicy)
  | writing (stored : StoredPolicy) (temporary : ℕ)
  | linking (stored : StoredPolicy) (temporary : ℕ)
  | unlinking (temporary : ℕ) (stored : Option StoredPolicy)
  | saving (stored : StoredPolicy)

inductive StorageCall where
  | get (policyId version : Str)
  | register (policy : PyVal)
  | publish (policy : PyVal) (signer : PolicySigner) (signedAt : Option Str)

inductive StorageEvent where
  | got (stored : StoredPolicy)
  | returned (stored : StoredPolicy)

-- the directory under the root, which the registries of several processes work in; the names
-- that mkstemp gives out are never given out again, and no lookup reads them
structure RecordRoot (ι : Type) where
  records : List ((Str × Str) × String) := []
  temporaries : ℕ → Option String := fun _ => none
  fresh : ℕ := 0
  stage : ι → StorageStage := fun _ => .idle
  trace : List StorageEvent := []

inductive RootMove (ι : Type) where
  | call (i : ι) (now : Str) (call : StorageCall)
  | step (i : ι) (verifier : Option PolicyVerifier) (fault : Option Exc)
  -- the temporary file grows
  | write (i : ι) (part : String)
  | crash (i : ι)

def RootMove.client {ι : Type} : RootMove ι → ι
  | .call i _ _ => i
  | .step i _ _ => i
  | .write i _ => i
  | .crash i => i

namespace RecordRoot

variable {ι : Type} [DecidableEq ι] (P : Primitives) (L : Libraries) (T : DecimalTable)
  (root : RecordRoot ι) (i : ι)

def goTo (stage : StorageStage) : RecordRoot ι :=
  { root with stage := Function.update root.stage i stage }

def log (event : StorageEvent) : RecordRoot ι := { root with trace := root.trace ++ [event] }

def setTemporary (n : ℕ) (content : Option String) : RecordRoot ι :=
  { root with temporaries := Function.update root.temporaries n content }

def accept (now : Str) (call : StorageCall) : RecordRoot ι :=
  match root.stage i, call with
  | .idle, .get policyId version => root.goTo i (.finding (.get policyId version))
  | .idle, .register policy =>
      match newStored P L policy none none now with
      | .error _ => root
      | .ok stored => root.goTo i (.finding (.register stored))
  | .idle, .publish policy signer signedAt =>
      match newStored P L policy (some signer) signedAt now with
      | .error _ => root
      | .ok stored => root.goTo i (.finding (.publish stored))
  | _, _ => root

-- the lookup raises
def refuse : LookupFor → RecordRoot ι
  | .compare _ temporary => root.goTo i (.unlinking temporary none)
  | _ => root.goTo i .idle

def absent (verifier : Option PolicyVerifier) : LookupFor → RecordRoot ι
  | .get _ _ => root.goTo i .idle
  | .register stored => root.goTo i (.creating stored)
  | .publish stored =>
      match verification P verifier stored with
      | .ok result =>
          if result.valid = true then root.goTo i (.creating stored) else root.goTo i .idle
      | .error _ => root.goTo i .idle
  | .compare _ temporary => root.goTo i (.unlinking temporary none)

def found (verifier : Option PolicyVerifier) (existing : StoredPolicy) : LookupFor → RecordRoot ι
  | .get _ _ =>
      match verification P verifier existing with
      | .ok result =>
          if result.digestValid = true then (root.log (.got existing)).goTo i .idle
          else root.goTo i .idle
      | .error _ => root.goTo i .idle
  | .register stored =>
      if existing.contentHash = stored.contentHash then
        (root.log (.returned existing)).goTo i .idle
      else root.goTo i .idle
  | .publish _ => root.goTo i .idle
  | .compare stored temporary =>
      root.goTo i (.unlinking temporary (if existing.eq stored = true then some stored else none))

def find (lookup : LookupFor) (verifier : Option PolicyVerifier) (fault : Option Exc) :
    RecordRoot ι :=
  match FilePolicyStorage.path T lookup.key.1 lookup.key.2, fault with
  | .ok _, none =>
      if Dict.has root.records lookup.key = true then root.goTo i (.reading lookup)
      else root.absent P i verifier lookup
  | _, _ => root.refuse i lookup

def read (lookup : LookupFor) (verifier : Option PolicyVerifier) (fault : Option Exc) :
    RecordRoot ι :=
  match Dict.get root.records lookup.key, fault with
  | some text, none =>
      match FilePolicyStorage.readRecord P lookup.key.1 lookup.key.2 text with
      | .ok existing => root.found P i verifier existing lookup
      | .error _ => root.refuse i lookup
  | _, _ => root.refuse i lookup

def create (stored : StoredPolicy) (fault : Option Exc) : RecordRoot ι :=
  match FilePolicyStorage.path T stored.id stored.version, fault with
  | .ok _, none =>
      ({ root with fresh := root.fresh + 1 }.setTemporary root.fresh (some "")).goTo i
        (.writing stored root.fresh)
  | _, _ => root.goTo i .idle

def complete (stored : StoredPolicy) (temporary : ℕ) (fault : Option Exc) : RecordRoot ι :=
  match stored.recordText P, fault with
  | .ok text, none => (root.setTemporary temporary (some text)).goTo i (.linking stored temporary)
  | _, _ => root.goTo i (.unlinking temporary none)

-- os.link makes the name or finds it there
def link (stored : StoredPolicy) (temporary : ℕ) (fault : Option Exc) : RecordRoot ι :=
  match root.temporaries temporary, fault with
  | some text, none =>
      if Dict.has root.records stored.key = true then
        root.goTo i (.finding (.compare stored temporary))
      else
        { root with records := Dict.set root.records stored.key text }.goTo i
          (.unlinking temporary (some stored))
  | _, _ => root.goTo i (.unlinking temporary none)

def unlink (temporary : ℕ) (stored : Option StoredPolicy) (fault : Option Exc) : RecordRoot ι :=
  match stored, fault with
  | some stored, none => (root.setTemporary temporary none).goTo i (.saving stored)
  | none, none => (root.setTemporary temporary none).goTo i .idle
  | _, some _ => root.goTo i .idle

def save (stored : StoredPolicy) (fault : Option Exc) : RecordRoot ι :=
  match fault with
  | none => (root.log (.returned stored)).goTo i .idle
  | some _ => root.goTo i .idle

def advance (verifier : Option PolicyVerifier) (fault : Option Exc) : RecordRoot ι :=
  match root.stage i with
  | .idle => root
  | .finding lookup => root.find P T i lookup verifier fault
  | .reading lookup => root.read P i lookup verifier fault
  | .creating stored => root.create T i stored fault
  | .writing stored temporary => root.complete P i stored temporary fault
  | .linking stored temporary => root.link i stored temporary fault
  | .unlinking temporary stored => root.unlink i temporary stored fault
  | .saving stored => root.save i stored fault

def step : RootMove ι → RecordRoot ι
  | .call i now call => root.accept P L i now call
  | .step i verifier fault => root.advance P T i verifier fault
  | .write i part =>
      match root.stage i with
      | .writing _ temporary => root.setTemporary temporary (some part)
      | _ => root
  | .crash i => root.goTo i .idle

def run (moves : List (RootMove ι)) : RecordRoot ι := Calls.run (step P L T) root moves

end RecordRoot

namespace StoredPolicy

-- one record: the policies are the same up to the order of their keys, or equal values
structure SameContent (a b : StoredPolicy) : Prop where
  key : a.key = b.key
  contentHash : a.contentHash = b.contentHash
  schemaVersion : a.schemaVersion = b.schemaVersion
  signature : a.signature = b.signature
  policy : PyVal.Alike (.dict b.policy) (.dict a.policy) ∨
    (PyVal.dict a.policy).eq (.dict b.policy) = true

theorem sameContent_of_eq {a b : StoredPolicy} (h : a.eq b = true) : SameContent a b := by
  simp only [StoredPolicy.eq, Bool.and_eq_true, decide_eq_true_eq] at h
  obtain ⟨⟨⟨⟨⟨hid, hversion⟩, hhash⟩, hpolicy⟩, hschema⟩, hsignature⟩ := h
  exact ⟨Prod.ext hid hversion, hhash, hschema, hsignature, .inr hpolicy⟩

end StoredPolicy

namespace FilePolicyStorage

variable {P : Primitives} {policyId version : Str} {text : String} {stored reread : StoredPolicy}

theorem Rereads.sameContent (h : Rereads stored reread) : reread.SameContent stored := by
  obtain ⟨hrecord, hpolicy⟩ := h
  have hkey : reread.key = stored.key := by rw [hrecord, StoredPolicy.key, StoredPolicy.key]
  have hhash : reread.contentHash = stored.contentHash := by rw [hrecord]
  have hschema : reread.schemaVersion = stored.schemaVersion := by rw [hrecord]
  have hsignature : reread.signature = stored.signature := by rw [hrecord]
  exact ⟨hkey, hhash, hschema, hsignature, .inl hpolicy⟩

theorem isJson_readRecord (h : readRecord P policyId version text = .ok stored) :
    (PyVal.dict stored.policy).IsJson := by
  simp only [readRecord, readFields, bind_eq_ok, reraise_eq_ok] at h
  obtain ⟨_, -, value, hvalue, record, hrecord, signature, -, contentHash, -, policy, hpolicy,
    schemaVersion, -, h⟩ := h
  obtain rfl := Except.ok.inj h
  have hjson : value.IsJson := by
    rw [Interpreter.loads] at hvalue
    split at hvalue
    · obtain rfl := Except.ok.inj hvalue
      exact PyVal.ofTree_isJson _
    all_goals cases hvalue
  obtain rfl : value = .dict record := by
    cases value <;> simp [dictOf] at hrecord
    exact congrArg PyVal.dict hrecord
  rw [policyOf] at hpolicy
  split at hpolicy
  · cases hpolicy
  · next value hget =>
      obtain rfl : value = .dict policy := by
        cases value <;> simp [dictOf] at hpolicy
        exact congrArg PyVal.dict hpolicy
      exact PyVal.isJsonMembers_iff.mp hjson.2.2 _ (mem_of_get_str hget)

theorem sameContent_refl (h : readRecord P policyId version text = .ok stored) :
    stored.SameContent stored :=
  ⟨rfl, rfl, rfl, rfl, .inl (PyVal.alike_refl (isJson_readRecord h))⟩

end FilePolicyStorage

namespace StorageStage

-- the temporary file that a call has still to remove
def temporary? : StorageStage → Option ℕ
  | .finding (.compare _ temporary) => some temporary
  | .reading (.compare _ temporary) => some temporary
  | .writing _ temporary => some temporary
  | .linking _ temporary => some temporary
  | .unlinking temporary _ => some temporary
  | _ => none

end StorageStage

namespace RecordRoot

section Invariant

variable {ι : Type} {P : Primitives} {L : Libraries} {T : DecimalTable}
  {root root' : RecordRoot ι} {i j : ι} {stored existing : StoredPolicy} {stage : StorageStage}
  {n : ℕ} {asked : StoredPolicy → Prop}

-- a call that is taken up with the record that it makes of its arguments
def TakesUp (P : Primitives) (L : Libraries) (root : RecordRoot ι) (move : RootMove ι)
    (stored : StoredPolicy) : Prop :=
  match move with
  | .call i now (.register policy) =>
      root.stage i = .idle ∧ newStored P L policy none none now = .ok stored
  | .call i now (.publish policy signer signedAt) =>
      root.stage i = .idle ∧ newStored P L policy (some signer) signedAt now = .ok stored
  | _ => False

theorem isJson_of_takesUp {move : RootMove ι} (h : TakesUp P L root move stored) :
    (PyVal.dict stored.policy).IsJson := by
  rw [TakesUp.eq_def] at h
  split at h
  · exact FilePolicyStorage.isJson_newStored h.2
  · exact FilePolicyStorage.isJson_newStored h.2
  · exact h.elim

-- the file of the record holds it
def Filed (P : Primitives) (asked : StoredPolicy → Prop) (root : RecordRoot ι)
    (stored : StoredPolicy) : Prop :=
  ∃ text, Dict.get root.records stored.key = some text ∧
    ((stored.recordText P = .ok text ∧ asked stored) ∨
      ∃ existing, FilePolicyStorage.readRecord P stored.id stored.version text = .ok existing ∧
        existing.SameContent stored)

def Shows (P : Primitives) (asked : StoredPolicy → Prop) (root : RecordRoot ι) :
    StorageEvent → Prop
  | .got stored => ∃ text, Dict.get root.records stored.key = some text ∧
      FilePolicyStorage.readRecord P stored.id stored.version text = .ok stored
  | .returned stored => Filed P asked root stored

-- the record that a call carries with it is one that was asked for
def CarriedBy (asked : StoredPolicy → Prop) : LookupFor → Prop
  | .get _ _ => True
  | .register stored => asked stored
  | .publish stored => asked stored
  | .compare _ _ => True

def Carries (P : Primitives) (asked : StoredPolicy → Prop) (root : RecordRoot ι) :
    StorageStage → Prop
  | .idle => True
  | .finding lookup => CarriedBy asked lookup
  | .reading lookup => CarriedBy asked lookup
  | .creating stored => asked stored
  | .writing stored _ => asked stored
  | .linking stored temporary => asked stored ∧
      ∀ text, root.temporaries temporary = some text → stored.recordText P = .ok text
  | .unlinking _ (some stored) => Filed P asked root stored
  | .unlinking _ none => True
  | .saving stored => Filed P asked root stored

structure Settled (P : Primitives) (asked : StoredPolicy → Prop) (root : RecordRoot ι) :
    Prop where
  whole : ∀ key text, Dict.get root.records key = some text →
    ∃ stored, stored.key = key ∧ stored.recordText P = .ok text ∧ asked stored
  stages : ∀ i, Carries P asked root (root.stage i)
  owned : ∀ i n, (root.stage i).temporary? = some n → n < root.fresh
  apart : ∀ i j n, (root.stage i).temporary? = some n → (root.stage j).temporary? = some n → i = j
  trace : ∀ event ∈ root.trace, Shows P asked root event

-- what one operation of a call leaves alone, and what it has to show for what it changes
structure Advances (P : Primitives) (asked : StoredPolicy → Prop) (root : RecordRoot ι) (i : ι)
    (root' : RecordRoot ι) : Prop where
  kept : ∀ key text, Dict.get root.records key = some text →
    Dict.get root'.records key = some text
  whole : ∀ key text, Dict.get root'.records key = some text →
    ∃ stored, stored.key = key ∧ stored.recordText P = .ok text ∧ asked stored
  others : ∀ j, j ≠ i → root'.stage j = root.stage j
  temporaries : ∀ j n, j ≠ i → (root.stage j).temporary? = some n →
    root'.temporaries n = root.temporaries n
  fresh : root.fresh ≤ root'.fresh
  carries : Carries P asked root' (root'.stage i)
  owned : ∀ n, (root'.stage i).temporary? = some n → n < root'.fresh ∧
    ∀ j, j ≠ i → (root.stage j).temporary? ≠ some n
  trace : ∀ event ∈ root'.trace, event ∈ root.trace ∨ Shows P asked root' event

theorem Filed.mono (h : Filed P asked root stored) (hkept : ∀ key text,
    Dict.get root.records key = some text → Dict.get root'.records key = some text) :
    Filed P asked root' stored := by
  obtain ⟨text, htext, hfiled⟩ := h
  exact ⟨text, hkept _ _ htext, hfiled⟩

theorem Shows.mono {event : StorageEvent} (h : Shows P asked root event) (hkept : ∀ key text,
    Dict.get root.records key = some text → Dict.get root'.records key = some text) :
    Shows P asked root' event := by
  cases event with
  | got stored =>
      obtain ⟨text, htext, hread⟩ := h
      exact ⟨text, hkept _ _ htext, hread⟩
  | returned stored => exact Filed.mono h hkept

theorem Carries.mono (h : Carries P asked root stage) (hkept : ∀ key text,
    Dict.get root.records key = some text → Dict.get root'.records key = some text)
    (htemporaries : ∀ n, stage.temporary? = some n → root'.temporaries n = root.temporaries n) :
    Carries P asked root' stage := by
  cases stage with
  | linking stored temporary =>
      refine ⟨h.1, fun text htext => h.2 text ?_⟩
      rwa [htemporaries temporary rfl] at htext
  | unlinking temporary stored =>
      cases stored with
      | none => trivial
      | some stored => exact Filed.mono h hkept
  | saving stored => exact Filed.mono h hkept
  | _ => exact h

theorem Settled.advances (h : Settled P asked root) (ha : Advances P asked root i root') : Settled P asked root' where
  whole := ha.whole
  stages j := by
    by_cases hj : j = i
    · exact hj ▸ ha.carries
    · rw [ha.others j hj]
      exact (h.stages j).mono ha.kept fun n hn => ha.temporaries j n hj hn
  owned j n hn := by
    by_cases hj : j = i
    · exact (ha.owned n (hj ▸ hn)).1
    · rw [ha.others j hj] at hn
      exact (h.owned j n hn).trans_le ha.fresh
  apart j k n hj hk := by
    by_cases hji : j = i
    · by_cases hki : k = i
      · rw [hji, hki]
      · rw [ha.others k hki] at hk
        exact absurd hk ((ha.owned n (hji ▸ hj)).2 k hki)
    · rw [ha.others j hji] at hj
      by_cases hki : k = i
      · exact absurd hj ((ha.owned n (hki ▸ hk)).2 j hji)
      · rw [ha.others k hki] at hk
        exact h.apart j k n hj hk
  trace event hevent := by
    rcases ha.trace event hevent with hold | hshows
    · exact (h.trace event hold).mono ha.kept
    · exact hshows

theorem Settled.apart_from (h : Settled P asked root) (hn : (root.stage i).temporary? = some n) :
    n < root.fresh ∧ ∀ j, j ≠ i → (root.stage j).temporary? ≠ some n :=
  ⟨h.owned i n hn, fun j hj hjn => hj (h.apart j i n hjn hn)⟩

theorem advances_self (h : Settled P asked root) (i : ι) : Advances P asked root i root where
  kept _ _ htext := htext
  whole := h.whole
  others _ _ := rfl
  temporaries _ _ _ _ := rfl
  fresh := le_refl _
  carries := h.stages i
  owned _ hn := h.apart_from hn
  trace _ hevent := .inl hevent

theorem advances_write (h : Settled P asked root) {part : String}
    (hstage : root.stage i = .writing stored n) :
    Advances P asked root i (root.setTemporary n (some part)) := by
  have hn : (root.stage i).temporary? = some n := by rw [hstage]; rfl
  have hcarries := h.stages i
  refine ⟨fun _ _ htext => htext, h.whole, fun _ _ => rfl, ?_, le_refl _, ?_,
    fun m hm => h.apart_from hm, fun _ hevent => .inl hevent⟩
  · intro j m hj hm
    have hne : m ≠ n := fun heq => (h.apart_from hn).2 j hj (heq ▸ hm)
    exact Function.update_of_ne hne _ _
  · have hsame : (root.setTemporary n (some part)).stage i = .writing stored n := hstage
    rw [hstage] at hcarries
    rw [hsame]
    exact hcarries

theorem settled_empty : Settled P asked ({} : RecordRoot ι) where
  whole _ _ htext := by cases htext
  stages _ := trivial
  owned _ _ hn := by cases hn
  apart _ _ _ hn := by cases hn
  trace _ hevent := by cases hevent

end Invariant

section Steps

variable {ι : Type} [DecidableEq ι] {P : Primitives} {L : Libraries} {T : DecimalTable}
  {root root' : RecordRoot ι} {i : ι} {stored existing : StoredPolicy} {stage : StorageStage}
  {lookup : LookupFor} {verifier : Option PolicyVerifier} {fault : Option Exc} {n : ℕ}
  {asked : StoredPolicy → Prop}

theorem goTo_stage (root : RecordRoot ι) (i : ι) (stage : StorageStage) :
    (root.goTo i stage).stage i = stage := Function.update_self _ _ _

theorem goTo_others {j : ι} (hj : j ≠ i) (root : RecordRoot ι) (stage : StorageStage) :
    (root.goTo i stage).stage j = root.stage j := Function.update_of_ne hj _ _

-- an operation that changes no file
theorem advances_goTo (h : Settled P asked root) (hcarries : Carries P asked root stage)
    (htemporary : ∀ n, stage.temporary? = some n → (root.stage i).temporary? = some n) :
    Advances P asked root i (root.goTo i stage) where
  kept _ _ htext := htext
  whole := h.whole
  others _ hj := goTo_others hj root stage
  temporaries _ _ _ _ := rfl
  fresh := le_refl _
  carries := by
    rw [goTo_stage]
    exact hcarries.mono (fun _ _ htext => htext) fun _ _ => rfl
  owned n hn := by
    rw [goTo_stage] at hn
    exact h.apart_from (htemporary n hn)
  trace _ hevent := .inl hevent

theorem advances_idle (h : Settled P asked root) : Advances P asked root i (root.goTo i .idle) :=
  advances_goTo h trivial fun _ hn => by cases hn

-- a call that ends with an answer
theorem advances_log (h : Settled P asked root) {event : StorageEvent} (hshows : Shows P asked root event) :
    Advances P asked root i ((root.log event).goTo i .idle) where
  kept _ _ htext := htext
  whole := h.whole
  others _ hj := goTo_others hj (root.log event) .idle
  temporaries _ _ _ _ := rfl
  fresh := le_refl _
  carries := by
    rw [goTo_stage]
    trivial
  owned n hn := by
    rw [goTo_stage] at hn
    cases hn
  trace e hevent := by
    rcases List.mem_append.mp hevent with hold | hnew
    · exact .inl hold
    · obtain rfl := List.mem_singleton.mp hnew
      exact .inr (hshows.mono fun _ _ htext => htext)

-- an operation that changes the temporary file of its own call
theorem advances_setTemporary (h : Settled P asked root) {content : Option String}
    (hn : (root.stage i).temporary? = some n)
    (hcarries : Carries P asked (root.setTemporary n content) stage)
    (htemporary : ∀ m, stage.temporary? = some m → m = n) :
    Advances P asked root i ((root.setTemporary n content).goTo i stage) where
  kept _ _ htext := htext
  whole := h.whole
  others _ hj := goTo_others hj (root.setTemporary n content) stage
  temporaries j m hj hm := by
    have hne : m ≠ n := fun heq => (h.apart_from hn).2 j hj (heq ▸ hm)
    exact Function.update_of_ne hne _ _
  fresh := le_refl _
  carries := by
    rw [goTo_stage]
    exact hcarries.mono (fun _ _ htext => htext) fun _ _ => rfl
  owned m hm := by
    rw [goTo_stage] at hm
    obtain rfl := htemporary m hm
    exact h.apart_from hn
  trace _ hevent := .inl hevent

theorem advances_refuse (h : Settled P asked root) (hat : (root.stage i).temporary? =
    (StorageStage.finding lookup).temporary?) : Advances P asked root i (root.refuse i lookup) := by
  cases lookup with
  | compare stored temporary =>
      refine advances_goTo h trivial fun n hn => ?_
      rw [hat]
      exact hn
  | _ => exact advances_idle h

theorem advances_absent (h : Settled P asked root) (hcarried : CarriedBy asked lookup)
    (hat : (root.stage i).temporary? = (StorageStage.finding lookup).temporary?) :
    Advances P asked root i (root.absent P i verifier lookup) := by
  have hcreating : ∀ {stored}, asked stored →
      Advances P asked root i (root.goTo i (.creating stored)) :=
    fun hstored => advances_goTo h hstored fun _ hn => by cases hn
  cases lookup with
  | get policyId version => exact advances_idle h
  | register stored => exact hcreating hcarried
  | publish stored =>
      rw [absent]
      split
      · split
        · exact hcreating hcarried
        · exact advances_idle h
      · exact advances_idle h
  | compare stored temporary =>
      refine advances_goTo h trivial fun n hn => ?_
      rw [hat]
      exact hn

theorem advances_found (h : Settled P asked root) {text : String}
    (hat : (root.stage i).temporary? = (StorageStage.finding lookup).temporary?)
    (htext : Dict.get root.records lookup.key = some text)
    (hread : FilePolicyStorage.readRecord P lookup.key.1 lookup.key.2 text = .ok existing) :
    Advances P asked root i (root.found P i verifier existing lookup) := by
  have hkey : existing.key = lookup.key := FilePolicyStorage.key_of_readRecord hread
  have hid : existing.id = lookup.key.1 := congrArg Prod.fst hkey
  have hversion : existing.version = lookup.key.2 := congrArg Prod.snd hkey
  rw [← hid, ← hversion] at hread
  rw [← hkey] at htext
  cases lookup with
  | get policyId version =>
      rw [found]
      split
      · split
        · exact advances_log h ⟨text, htext, hread⟩
        · exact advances_idle h
      · exact advances_idle h
  | register stored =>
      rw [found]
      split
      · exact advances_log h ⟨text, htext, .inr ⟨existing, hread,
          FilePolicyStorage.sameContent_refl hread⟩⟩
      · exact advances_idle h
  | publish stored => exact advances_idle h
  | compare stored temporary =>
      refine advances_goTo h ?_ fun n hn => ?_
      · split
        · next heq =>
            have hsame := StoredPolicy.sameContent_of_eq heq
            have hid : existing.id = stored.id := congrArg Prod.fst hsame.key
            have hversion : existing.version = stored.version := congrArg Prod.snd hsame.key
            exact ⟨text, hsame.key ▸ htext, .inr ⟨existing, hid ▸ hversion ▸ hread, hsame⟩⟩
        · trivial
      · rw [hat]
        exact hn

theorem advances_find (h : Settled P asked root) (hstage : root.stage i = .finding lookup) :
    Advances P asked root i (root.find P T i lookup verifier fault) := by
  have hcarries := h.stages i
  have hat : (root.stage i).temporary? = (StorageStage.finding lookup).temporary? := by
    rw [hstage]
  rw [hstage] at hcarries
  rw [find.eq_def]
  split
  · split
    · refine advances_goTo h hcarries fun n hn => ?_
      rw [hat]
      cases lookup <;> exact hn
    · exact advances_absent h hcarries hat
  · exact advances_refuse h hat

theorem advances_read (h : Settled P asked root) (hstage : root.stage i = .reading lookup) :
    Advances P asked root i (root.read P i lookup verifier fault) := by
  have hat : (root.stage i).temporary? = (StorageStage.finding lookup).temporary? := by
    rw [hstage]
    cases lookup <;> rfl
  rw [RecordRoot.read.eq_def]
  split
  · next text htext =>
      split
      · next existing hread => exact advances_found h hat htext hread
      · exact advances_refuse h hat
  · exact advances_refuse h hat

theorem advances_create (h : Settled P asked root) (hstage : root.stage i = .creating stored) :
    Advances P asked root i (root.create T i stored fault) := by
  have hcarries := h.stages i
  rw [hstage] at hcarries
  rw [create.eq_def]
  split
  · refine ⟨fun _ _ htext => htext, h.whole, fun j hj => goTo_others hj _ _, ?_, Nat.le_succ _, ?_,
      ?_, fun _ hevent => .inl hevent⟩
    · intro j n hj hn
      exact Function.update_of_ne (h.owned j n hn).ne _ _
    · rw [goTo_stage]
      exact hcarries
    · intro n hn
      rw [goTo_stage] at hn
      obtain rfl := Option.some.inj hn
      exact ⟨Nat.lt_succ_self _, fun j _ hj => absurd (h.owned j _ hj) (lt_irrefl _)⟩
  · exact advances_idle h

theorem advances_unlinking (h : Settled P asked root) (hn : (root.stage i).temporary? = some n) :
    Advances P asked root i (root.goTo i (.unlinking n none)) :=
  advances_goTo h trivial fun _ hm => Option.some.inj hm ▸ hn

theorem advances_complete (h : Settled P asked root) (hstage : root.stage i = .writing stored n) :
    Advances P asked root i (root.complete P i stored n fault) := by
  have hcarries := h.stages i
  rw [hstage] at hcarries
  have hn : (root.stage i).temporary? = some n := by rw [hstage]; rfl
  rw [complete.eq_def]
  split
  · next text htext =>
      refine advances_setTemporary h hn ⟨hcarries, fun content hcontent => ?_⟩
        fun m hm => (Option.some.inj hm).symm
      have hself : (root.setTemporary n (some text)).temporaries n = some text :=
        Function.update_self _ _ _
      rw [hself] at hcontent
      exact Option.some.inj hcontent ▸ htext
  · exact advances_unlinking h hn

theorem advances_link (h : Settled P asked root) (hstage : root.stage i = .linking stored n) :
    Advances P asked root i (root.link i stored n fault) := by
  have hcarries := h.stages i
  rw [hstage] at hcarries
  have hn : (root.stage i).temporary? = some n := by rw [hstage]; rfl
  rw [link.eq_def]
  split
  · next text htext =>
      have hrecord := hcarries.2 text htext
      split
      · refine advances_goTo h trivial fun m hm => ?_
        rw [hn]
        exact hm
      · next hfree =>
          have hget : ∀ key, Dict.get (Dict.set root.records stored.key text) key =
              if stored.key = key then some text else Dict.get root.records key :=
            fun key => Dict.get_set_eq _ _ _ _
          have hkept : ∀ key content, Dict.get root.records key = some content →
              Dict.get (Dict.set root.records stored.key text) key = some content := by
            intro key content hcontent
            rw [hget, if_neg]
            · exact hcontent
            · rintro rfl
              exact hfree (Option.isSome_iff_exists.mpr ⟨content, hcontent⟩)
          refine ⟨hkept, ?_, fun j hj => goTo_others hj _ _, fun _ _ _ _ => rfl, le_refl _, ?_, ?_,
            fun _ hevent => .inl hevent⟩
          · intro key content hcontent
            have hcontent := (hget key).symm.trans hcontent
            split at hcontent
            · next hkey =>
                obtain rfl := Option.some.inj hcontent
                exact ⟨stored, hkey, hrecord, hcarries.1⟩
            · exact h.whole key content hcontent
          · rw [goTo_stage]
            exact ⟨text, (hget _).trans (if_pos rfl), .inl ⟨hrecord, hcarries.1⟩⟩
          · intro m hm
            rw [goTo_stage] at hm
            exact h.apart_from (Option.some.inj hm ▸ hn)
  · exact advances_unlinking h hn

theorem advances_unlink {linked : Option StoredPolicy} (h : Settled P asked root)
    (hstage : root.stage i = .unlinking n linked) :
    Advances P asked root i (root.unlink i n linked fault) := by
  have hcarries := h.stages i
  rw [hstage] at hcarries
  have hn : (root.stage i).temporary? = some n := by rw [hstage]; rfl
  rw [unlink.eq_def]
  split
  · exact advances_setTemporary h hn hcarries fun m hm => by cases hm
  · exact advances_setTemporary h hn trivial fun m hm => by cases hm
  · exact advances_idle h

theorem advances_advance (h : Settled P asked root) (i : ι) (verifier : Option PolicyVerifier)
    (fault : Option Exc) : Advances P asked root i (root.advance P T i verifier fault) := by
  rw [advance]
  cases hstage : root.stage i with
  | idle => exact advances_self h i
  | finding lookup => exact advances_find h hstage
  | reading lookup => exact advances_read h hstage
  | creating stored => exact advances_create h hstage
  | writing stored temporary => exact advances_complete h hstage
  | linking stored temporary => exact advances_link h hstage
  | unlinking temporary stored => exact advances_unlink h hstage
  | saving stored =>
      have hcarries := h.stages i
      rw [hstage] at hcarries
      simp only [save]
      split
      · exact advances_log h hcarries
      · exact advances_idle h

theorem advances_accept (h : Settled P asked root) (i : ι) (now : Str) (call : StorageCall)
    (hasked : ∀ stored, TakesUp P L root (.call i now call) stored → asked stored) :
    Advances P asked root i (root.accept P L i now call) := by
  rw [accept.eq_def]
  split
  · exact advances_goTo h trivial fun _ hn => by cases hn
  · next hstage =>
      split
      · exact advances_self h i
      · next stored hstored =>
          have hcarried : asked stored := hasked stored ⟨hstage, hstored⟩
          exact advances_goTo h hcarried fun _ hn => by cases hn
  · next hstage =>
      split
      · exact advances_self h i
      · next stored hstored =>
          have hcarried : asked stored := hasked stored ⟨hstage, hstored⟩
          exact advances_goTo h hcarried fun _ hn => by cases hn
  · exact advances_self h i

-- the records of a move are among those asked for
def Asks (P : Primitives) (L : Libraries) (asked : StoredPolicy → Prop) (root : RecordRoot ι)
    (move : RootMove ι) : Prop := ∀ stored, TakesUp P L root move stored → asked stored

theorem advances_step (h : Settled P asked root) {move : RootMove ι}
    (hasked : Asks P L asked root move) :
    Advances P asked root move.client (root.step P L T move) := by
  cases move with
  | call i now call => exact advances_accept h i now call hasked
  | step i verifier fault => exact advances_advance h i verifier fault
  | write i part =>
      rw [step.eq_def]
      simp only
      split
      · next stored temporary hstage => exact advances_write h hstage
      · exact advances_self h i
  | crash i => exact advances_idle h

theorem settled_run (h : Settled P asked root) {moves : List (RootMove ι)}
    (hasked : Calls.Each (step P L T) (Asks P L asked) root moves) :
    Settled P asked (root.run P L T moves) :=
  Calls.stable (fun _ _ hmove hroot => hroot.advances (advances_step hroot hmove)) hasked h

theorem kept_run (h : Settled P asked root) {moves : List (RootMove ι)}
    (hasked : Calls.Each (step P L T) (Asks P L asked) root moves) {key : Str × Str}
    {text : String} (htext : Dict.get root.records key = some text) :
    Dict.get (root.run P L T moves).records key = some text := by
  induction moves generalizing root with
  | nil => exact htext
  | cons move moves ih =>
      have hadvances := advances_step (T := T) h hasked.1
      exact ih (h.advances hadvances) hasked.2 (hadvances.kept _ _ htext)

-- a call of the run made the record
def AskedBy (P : Primitives) (L : Libraries) (T : DecimalTable) (moves : List (RootMove ι))
    (stored : StoredPolicy) : Prop :=
  ∃ before move after, moves = before ++ move :: after ∧
    TakesUp P L (run P L T ({} : RecordRoot ι) before) move stored

theorem asks_askedBy (moves : List (RootMove ι)) :
    Calls.Each (step P L T) (Asks P L (AskedBy P L T moves)) {} moves :=
  Calls.each_iff.mpr fun before move after hmoves _ hstored =>
    ⟨before, move, after, hmoves, hstored⟩

theorem AskedBy.isJson {moves : List (RootMove ι)} (h : AskedBy P L T moves stored) :
    (PyVal.dict stored.policy).IsJson := by
  obtain ⟨_, _, _, -, htaken⟩ := h
  exact isJson_of_takesUp htaken

structure WriteOnce (P : Primitives) (L : Libraries) (T : DecimalTable)
    (moves : List (RootMove ι)) : Prop where
  kept : ∀ before after, moves = before ++ after → ∀ key text,
    Dict.get (run P L T ({} : RecordRoot ι) before).records key = some text →
      Dict.get (run P L T ({} : RecordRoot ι) moves).records key = some text
  whole : ∀ policyId version text,
    Dict.get (run P L T ({} : RecordRoot ι) moves).records (policyId, version) = some text →
      ∃ stored, stored.key = (policyId, version) ∧ AskedBy P L T moves stored ∧
        stored.recordText P = .ok text ∧
        (text.utf8ByteSize ≤ FilePolicyStorage.maxPolicyRecordBytes → ∃ reread,
          FilePolicyStorage.readRecord P policyId version text = .ok reread ∧
            reread.SameContent stored)
  agree : ∀ stored stored', .got stored ∈ (run P L T ({} : RecordRoot ι) moves).trace →
    .got stored' ∈ (run P L T ({} : RecordRoot ι) moves).trace → stored.key = stored'.key →
      stored = stored'
  returned : ∀ stored, .returned stored ∈ (run P L T ({} : RecordRoot ι) moves).trace →
    ∃ text, Dict.get (run P L T ({} : RecordRoot ι) moves).records stored.key = some text ∧
      (text.utf8ByteSize ≤ FilePolicyStorage.maxPolicyRecordBytes → ∃ reread,
        FilePolicyStorage.readRecord P stored.id stored.version text = .ok reread ∧
          reread.SameContent stored)
  got : ∀ stored, .got stored ∈ (run P L T ({} : RecordRoot ι) moves).trace →
    ∃ text, Dict.get (run P L T ({} : RecordRoot ι) moves).records stored.key = some text ∧
      FilePolicyStorage.readRecord P stored.id stored.version text = .ok stored

theorem records_written_once (P : Primitives) (L : Libraries) (T : DecimalTable)
    (moves : List (RootMove ι)) : WriteOnce P L T moves := by
  have hsettled : Settled P (AskedBy P L T moves) (run P L T ({} : RecordRoot ι) moves) :=
    settled_run settled_empty (asks_askedBy moves)
  refine ⟨?_, ?_, ?_, ?_, fun stored hgot => hsettled.trace _ hgot⟩
  · rintro before after rfl key text htext
    obtain ⟨hbefore, hafter⟩ := Calls.each_append.mp (asks_askedBy (before ++ after))
    rw [run, Calls.run_append]
    exact kept_run (settled_run settled_empty hbefore) hafter htext
  · intro policyId version text htext
    obtain ⟨stored, hkey, hrecord, hcarried⟩ := hsettled.whole _ _ htext
    refine ⟨stored, hkey, hcarried, hrecord, fun hsize => ?_⟩
    obtain ⟨rfl, rfl⟩ := Prod.mk.inj hkey
    obtain ⟨reread, hread, hrereads⟩ :=
      FilePolicyStorage.readRecord_recordText hcarried.isJson hrecord hsize
    exact ⟨reread, hread, hrereads.sameContent⟩
  · intro stored stored' hgot hgot' hkey
    obtain ⟨text, htext, hread⟩ := hsettled.trace _ hgot
    obtain ⟨text', htext', hread'⟩ := hsettled.trace _ hgot'
    obtain ⟨hid, hversion⟩ := Prod.mk.inj hkey
    rw [hkey, htext'] at htext
    obtain rfl := Option.some.inj htext
    rw [hid, hversion, hread'] at hread
    exact (Except.ok.inj hread).symm
  · intro stored hreturned
    obtain ⟨text, htext, hfiled⟩ := hsettled.trace _ hreturned
    refine ⟨text, htext, fun hsize => ?_⟩
    rcases hfiled with ⟨hrecord, hcarried⟩ | ⟨existing, hread, hsame⟩
    · obtain ⟨reread, hread, hrereads⟩ :=
        FilePolicyStorage.readRecord_recordText hcarried.isJson hrecord hsize
      exact ⟨reread, hread, hrereads.sameContent⟩
    · exact ⟨existing, hread, hsame⟩

end Steps

end RecordRoot

end GovernedAutonomy
