import GovernedAutonomy.Policy
import GovernedAutonomy.Protocol.Calls

namespace GovernedAutonomy

open Python Protocol

def fromPublicBytes (raw : List UInt8) : Result PublicKey :=
  if raw.length = 32 then .ok ⟨raw⟩
  else .error (.valueError (lit "An Ed25519 public key is 32 bytes long"))

def TrustStore.toDict (store : TrustStore) : PyDict := PyDict.ofFields
  [("keys", strDict (fun key : PublicKey => .str (b64encode key.raw)) (sortedItems store.keys)),
    ("revoked", strList (sortedStrs store.revoked))]

structure AuditHooks where
  auditHook : Option (Str → Str → Result Unit) := none
  actorAuditHook : Option (Str → Str → Str → Result Unit) := none

def AuditHooks.audit (hooks : AuditHooks) (event subjectId actorId : Str) : Result Unit := do
  match hooks.auditHook with
  | some hook => hook event subjectId
  | none => .ok ()
  match hooks.actorAuditHook with
  | some hook => hook event subjectId actorId
  | none => .ok ()

inductive TrustAction where
  | add
  | revoke
deriving DecidableEq

def TrustAction.text : TrustAction → Str
  | .add => "add"
  | .revoke => "revoke"

structure TrustChangeRequest where
  action : TrustAction
  keyId : Str
  publicKeyB64 : Str
  requestedByKeyId : Str
  signature : Str := []

namespace TrustChangeRequest

variable (P : Primitives)

def unsignedPayload (request : TrustChangeRequest) : Result String :=
  canonicalJson P (.dict (PyDict.ofFields
    [("action", .str request.action.text), ("key_id", .str request.keyId),
      ("public_key_b64", .str request.publicKeyB64),
      ("requested_by_key_id", .str request.requestedByKeyId)]))

def verify (request : TrustChangeRequest) (store : TrustStore) : Result Bool :=
  store.verifies P request.requestedByKeyId (request.unsignedPayload P) request.signature

def draft (request : TrustChangeRequest) : TrustChangeRequest := { request with signature := [] }

def publicKey (request : TrustChangeRequest) : Result PublicKey := do
  let raw ← b64decode request.publicKeyB64
  fromPublicBytes raw

end TrustChangeRequest

inductive TrustCall where
  | submitAdd (keyId publicKeyB64 requestedByKeyId signature actorId : Str)
  | submitRevoke (keyId requestedByKeyId signature actorId : Str)

def TrustCall.request : TrustCall → TrustChangeRequest
  | .submitAdd keyId publicKeyB64 requestedByKeyId signature _ =>
      ⟨.add, keyId, publicKeyB64, requestedByKeyId, signature⟩
  | .submitRevoke keyId requestedByKeyId signature _ =>
      ⟨.revoke, keyId, [], requestedByKeyId, signature⟩

namespace TrustChangeManager

variable (P : Primitives) (hooks : AuditHooks)

def addKey (store : TrustStore) (request : TrustChangeRequest) : Result TrustStore := do
  let verified ← request.verify P store
  raiseIf (verified = false) (.valueError (lit "trust change signature is invalid"))
  let key ← reraise (fun e => e.isValueError || e.isTypeError)
    (.valueError (lit "public_key_b64 is not a valid Ed25519 public key")) request.publicKey
  store.add request.keyId key

def revokeKey (store : TrustStore) (request : TrustChangeRequest) : Result TrustStore := do
  let verified ← request.verify P store
  raiseIf (verified = false) (.valueError (lit "trust change signature is invalid"))
  store.revoke request.keyId

-- the store keeps the change even when an audit hook raises after it
def conclude (store : TrustStore) (event keyId actorId : Str) :
    Result TrustStore → TrustStore × Result PyDict
  | .error e => (store, .error e)
  | .ok store' => (store', do
      hooks.audit event keyId actorId
      .ok store'.toDict)

def submit (store : TrustStore) (call : TrustCall) : TrustStore × Result PyDict :=
  match call with
  | .submitAdd keyId _ _ _ actorId =>
      conclude hooks store "trust.key_added" keyId actorId (addKey P store call.request)
  | .submitRevoke keyId _ _ actorId =>
      conclude hooks store "trust.key_revoked" keyId actorId (revokeKey P store call.request)

def step (store : TrustStore) (call : TrustCall) : TrustStore := (submit P hooks store call).1

-- an accepted request to add a key id that is revoked at this moment
structure Revives (store : TrustStore) (request : TrustChangeRequest) : Prop where
  add : request.action = .add
  named : request.keyId ≠ []
  revoked : request.keyId ∈ store.revoked
  verified : request.verify P store = .ok true
  key : ∃ key, request.publicKey = .ok key

def Spent (store : TrustStore) (request : TrustChangeRequest) : Prop :=
  match request.action with
  | .add => Dict.has store.keys request.keyId = true
  | .revoke => request.keyId ∈ store.revoked

variable {P hooks} {store store' : TrustStore} {request : TrustChangeRequest} {call : TrustCall}

theorem addKey_eq_ok : addKey P store request = .ok store' ↔
    request.verify P store = .ok true ∧
      ∃ key, request.publicKey = .ok key ∧ store.add request.keyId key = .ok store' := by
  simp only [addKey, bind_eq_ok, raiseIf_eq_ok, reraise_eq_ok, Bool.not_eq_false]
  constructor
  · rintro ⟨verified, hverify, -, rfl, key, hkey, hadd⟩
    exact ⟨hverify, key, hkey, hadd⟩
  · rintro ⟨hverify, key, hkey, hadd⟩
    exact ⟨true, hverify, (), rfl, key, hkey, hadd⟩

theorem revokeKey_eq_ok : revokeKey P store request = .ok store' ↔
    request.verify P store = .ok true ∧ store.revoke request.keyId = .ok store' := by
  simp only [revokeKey, bind_eq_ok, raiseIf_eq_ok, Bool.not_eq_false]
  constructor
  · rintro ⟨verified, hverify, -, rfl, hrevoke⟩
    exact ⟨hverify, hrevoke⟩
  · rintro ⟨hverify, hrevoke⟩
    exact ⟨true, hverify, (), rfl, hrevoke⟩

theorem conclude_fst (hooks : AuditHooks) (store : TrustStore) (event keyId actorId : Str)
    (change : Result TrustStore) :
    (conclude hooks store event keyId actorId change).1 = store ∨
      change = .ok (conclude hooks store event keyId actorId change).1 := by
  cases change with
  | error e => exact Or.inl rfl
  | ok store' => exact Or.inr rfl

theorem step_cases (P : Primitives) (hooks : AuditHooks) (store : TrustStore) (call : TrustCall) :
    step P hooks store call = store ∨
      (call.request.action = .add ∧ addKey P store call.request = .ok (step P hooks store call)) ∨
      (call.request.action = .revoke ∧
        revokeKey P store call.request = .ok (step P hooks store call)) := by
  cases call with
  | submitAdd keyId publicKeyB64 requestedByKeyId signature actorId =>
      rcases conclude_fst hooks store "trust.key_added" keyId actorId
        (addKey P store (TrustCall.request
          (.submitAdd keyId publicKeyB64 requestedByKeyId signature actorId))) with h | h
      · exact Or.inl h
      · exact Or.inr (Or.inl ⟨rfl, h⟩)
  | submitRevoke keyId requestedByKeyId signature actorId =>
      rcases conclude_fst hooks store "trust.key_revoked" keyId actorId
        (revokeKey P store (TrustCall.request
          (.submitRevoke keyId requestedByKeyId signature actorId))) with h | h
      · exact Or.inl h
      · exact Or.inr (Or.inr ⟨rfl, h⟩)

theorem has_step {keyId : Str} (h : Dict.has store.keys keyId = true) :
    Dict.has (step P hooks store call).keys keyId = true := by
  rcases step_cases P hooks store call with hstep | ⟨-, hstep⟩ | ⟨-, hstep⟩
  · rwa [hstep]
  · obtain ⟨-, key, -, hadd⟩ := addKey_eq_ok.mp hstep
    obtain ⟨-, -, hkeys, -⟩ := TrustStore.add_eq_ok hadd
    rw [hkeys, Dict.has_set_eq, h, Bool.or_true]
  · obtain ⟨-, hrevoke⟩ := revokeKey_eq_ok.mp hstep
    rwa [(TrustStore.revoke_eq_ok hrevoke).1]

theorem revoked_step {keyId : Str} (hadmits : ¬ Revives P store call.request)
    (h : keyId ∈ store.revoked) : keyId ∈ (step P hooks store call).revoked := by
  rcases step_cases P hooks store call with hstep | ⟨haction, hstep⟩ | ⟨-, hstep⟩
  · rwa [hstep]
  · obtain ⟨hverify, key, hkey, hadd⟩ := addKey_eq_ok.mp hstep
    obtain ⟨hid, -, -, hrevoked⟩ := TrustStore.add_eq_ok hadd
    rw [hrevoked, List.mem_filter]
    refine ⟨h, decide_eq_true ?_⟩
    rintro rfl
    exact hadmits ⟨haction, hid, h, hverify, key, hkey⟩
  · obtain ⟨-, hrevoke⟩ := revokeKey_eq_ok.mp hstep
    exact (TrustStore.mem_revoked_of_revoke hrevoke).mpr (Or.inr h)

theorem spent_step (request : TrustChangeRequest) (hadmits : ¬ Revives P store call.request)
    (h : Spent store request) : Spent (step P hooks store call) request := by
  unfold Spent at h ⊢
  cases haction : request.action with
  | add =>
      simp only [haction] at h
      exact has_step h
  | revoke =>
      simp only [haction] at h
      exact revoked_step hadmits h

theorem spent_of_effective (h : Calls.Effective (step P hooks) store call) :
    Spent (step P hooks store call) call.request := by
  unfold Spent
  rcases step_cases P hooks store call with
    hstep | ⟨haction, hstep⟩ | ⟨haction, hstep⟩
  · exact absurd hstep h
  · obtain ⟨-, key, -, hadd⟩ := addKey_eq_ok.mp hstep
    obtain ⟨-, -, hkeys, -⟩ := TrustStore.add_eq_ok hadd
    simp only [haction]
    rw [hkeys, Dict.has_set_eq, decide_eq_true rfl, Bool.true_or]
  · obtain ⟨-, hrevoke⟩ := revokeKey_eq_ok.mp hstep
    simp only [haction]
    exact (TrustStore.mem_revoked_of_revoke hrevoke).mpr (Or.inl rfl)

theorem not_effective_of_spent (hadmits : ¬ Revives P store call.request)
    (h : Spent store call.request) : ¬ Calls.Effective (step P hooks) store call := by
  unfold Spent at h
  refine not_not.mpr ?_
  rcases step_cases P hooks store call with
    hstep | ⟨haction, hstep⟩ | ⟨haction, hstep⟩
  · exact hstep
  · obtain ⟨hverify, key, hkey, hadd⟩ := addKey_eq_ok.mp hstep
    obtain ⟨hid, hrevoked, -, -⟩ := TrustStore.add_eq_ok hadd
    simp only [haction] at h
    exact absurd ⟨haction, hid, hrevoked h, hverify, key, hkey⟩ hadmits
  · obtain ⟨-, hrevoke⟩ := revokeKey_eq_ok.mp hstep
    obtain ⟨hkeys, hrevoked⟩ := TrustStore.revoke_eq_ok hrevoke
    simp only [haction] at h
    rw [if_pos h] at hrevoked
    exact TrustStore.eq_of_keys hkeys hrevoked

theorem resolve_of_revives (hooks : AuditHooks) (h : Revives P store call.request) :
    ∃ key, (step P hooks store call).resolve call.request.keyId = some key := by
  obtain ⟨haction, hid, hrevoked, hverify, key, hkey⟩ := h
  obtain ⟨store', hadd⟩ := TrustStore.add_isOk key hid (fun _ => hrevoked)
  have hadded : addKey P store call.request = .ok store' :=
    addKey_eq_ok.mpr ⟨hverify, key, hkey, hadd⟩
  cases call with
  | submitAdd keyId publicKeyB64 requestedByKeyId signature actorId =>
      refine ⟨key, ?_⟩
      simp only [step, submit, hadded, conclude]
      exact TrustStore.resolve_add hadd
  | submitRevoke keyId requestedByKeyId signature actorId => cases haction

variable (P hooks)

-- all signatures exist before the run: whatever is submitted is one of them, any number of times
structure NotReplayable (store : TrustStore) (calls : List TrustCall) : Prop where
  once : ∀ before first between second after,
    calls = before ++ first :: between ++ second :: after →
      first.request.draft = second.request.draft →
        Calls.Effective (step P hooks) (Calls.run (step P hooks) store before) first →
          ¬ Calls.Effective (step P hooks)
            (Calls.run (step P hooks) store (before ++ first :: between)) second
  revoked : ∀ before between after keyId, calls = before ++ between ++ after →
    keyId ∈ (Calls.run (step P hooks) store before).revoked →
      (Calls.run (step P hooks) store (before ++ between)).resolve keyId = none

variable {P hooks}

theorem spent_congr {request' : TrustChangeRequest} (h : request.draft = request'.draft)
    (hspent : Spent store request) : Spent store request' := by
  cases request
  cases request'
  simp only [TrustChangeRequest.draft, TrustChangeRequest.mk.injEq] at h
  obtain ⟨rfl, rfl, -⟩ := h
  exact hspent

theorem trust_changes_not_replayable_iff (P : Primitives) (hooks : AuditHooks) (store : TrustStore)
    (calls : List TrustCall) :
    NotReplayable P hooks store calls ↔
      ∀ before call after, calls = before ++ call :: after →
        ¬ Revives P (Calls.run (step P hooks) store before) call.request := by
  constructor
  · intro h before call after hcalls hrevives
    obtain ⟨key, hkey⟩ := resolve_of_revives hooks hrevives
    have hnone := h.revoked before [call] after call.request.keyId
      (by rw [hcalls, List.append_assoc, List.singleton_append]) hrevives.revoked
    rw [Calls.run_append, Calls.run_cons, Calls.run_nil, hkey] at hnone
    cases hnone
  · intro h
    have hadmits : Calls.Each (step P hooks) (fun store call => ¬ Revives P store call.request)
        store calls := Calls.each_iff.mpr h
    constructor
    · rintro before first between second after rfl hsame heffective
      refine Calls.effective_once (A := fun store => Spent store first.request)
        (fun store _ heffective => spent_of_effective heffective)
        (fun store call hcall hspent => spent_step first.request hcall hspent) ?_ hadmits heffective
      intro store hcall hspent
      exact not_effective_of_spent hcall (spent_congr hsame hspent)
    · rintro before between after keyId rfl hrevoked
      obtain ⟨hadmits, -⟩ := Calls.each_append.mp hadmits
      have hbetween := (Calls.each_append.mp hadmits).2
      have hstays := Calls.stable (A := fun store => keyId ∈ store.revoked)
        (fun store call hcall hrevoked => revoked_step hcall hrevoked) hbetween hrevoked
      rw [Calls.run_append, TrustStore.resolve, if_pos hstays]

def adminStore : TrustStore := ⟨[("admin", ⟨[1]⟩)], [], by simp⟩

def addReviewer : TrustCall :=
  .submitAdd "reviewer" (List.replicate 43 (ofChar 'A')) "admin" "c2ln" "system"

def revokeReviewer : TrustCall := .submitRevoke "reviewer" "admin" "c2ln" "system"

-- the add request is signed once, and submitted again after the revocation
theorem trust_change_replayed :
    ¬ ∀ (P : Primitives) (hooks : AuditHooks) (store : TrustStore) (calls : List TrustCall),
      NotReplayable P hooks store calls := by
  intro h
  have hreplay := (h referencePrimitives {} adminStore
    [addReviewer, revokeReviewer, addReviewer]).revoked [addReviewer, revokeReviewer]
      [addReviewer] [] "reviewer" rfl (by decide +kernel)
  have hresolves : ((Calls.run (step referencePrimitives {}) adminStore
    ([addReviewer, revokeReviewer] ++ [addReviewer])).resolve "reviewer").isSome = true := by
    decide +kernel
  rw [hreplay] at hresolves
  cases hresolves

end TrustChangeManager

end GovernedAutonomy
