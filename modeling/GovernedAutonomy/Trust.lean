import GovernedAutonomy.Canonical

namespace GovernedAutonomy

open Python

structure TrustStore where
  keys : List (Str × PublicKey)
  revoked : List Str
  revokedKnown : ∀ k ∈ revoked, Dict.has keys k = true

namespace TrustStore

def empty : TrustStore := ⟨[], [], by simp⟩

def add (store : TrustStore) (keyId : Str) (publicKey : PublicKey) : Result TrustStore :=
  if keyId = [] then .error (.valueError (lit "key_id must not be empty"))
  else if Dict.has store.keys keyId = true ∧ keyId ∉ store.revoked then
    .error (.valueError (lit "issuer key already exists: " ++ keyId))
  else
    .ok
      { keys := Dict.set store.keys keyId publicKey
        revoked := store.revoked.filter (fun k => k ≠ keyId)
        revokedKnown := by
          intro k hk
          rw [Dict.has_set_eq, store.revokedKnown k (List.mem_of_mem_filter hk), Bool.or_true] }

def revoke (store : TrustStore) (keyId : Str) : Result TrustStore :=
  if h : Dict.has store.keys keyId = true then
    .ok
      { store with
        revoked := if keyId ∈ store.revoked then store.revoked else keyId :: store.revoked
        revokedKnown := by
          intro k hk
          split at hk
          · exact store.revokedKnown k hk
          · rcases List.mem_cons.mp hk with rfl | hk
            · exact h
            · exact store.revokedKnown k hk }
  else .error (.builtin .keyError)

def resolve (store : TrustStore) (keyId : Str) : Option PublicKey :=
  if keyId ∈ store.revoked then none else Dict.get store.keys keyId

def Trusted (store : TrustStore) (keyId : Str) (key : PublicKey) : Prop :=
  Dict.get store.keys keyId = some key ∧ keyId ∉ store.revoked

theorem resolve_eq_some {store : TrustStore} {keyId : Str} {key : PublicKey} :
    store.resolve keyId = some key ↔ store.Trusted keyId key := by
  unfold resolve Trusted
  split
  · rename_i h
    simp [h]
  · rename_i h
    simp [h]

theorem add_eq_ok {store store' : TrustStore} {keyId : Str} {key : PublicKey}
    (h : store.add keyId key = .ok store') :
    keyId ≠ [] ∧ (Dict.has store.keys keyId = true → keyId ∈ store.revoked) ∧
      store'.keys = Dict.set store.keys keyId key ∧
      store'.revoked = store.revoked.filter (fun k => k ≠ keyId) := by
  unfold add at h
  split at h
  · cases h
  · rename_i hid
    split at h
    · cases h
    · rename_i hknown
      obtain rfl := Except.ok.inj h
      exact ⟨hid, fun hhas => not_not.mp (fun hrevoked => hknown ⟨hhas, hrevoked⟩), rfl, rfl⟩

theorem resolve_add {store store' : TrustStore} {keyId : Str} {key : PublicKey}
    (h : store.add keyId key = .ok store') : store'.resolve keyId = some key := by
  obtain ⟨-, -, hkeys, hrevoked⟩ := add_eq_ok h
  rw [resolve, if_neg (by simp [hrevoked]), hkeys, Dict.get_set_eq, if_pos rfl]

theorem add_isOk {store : TrustStore} {keyId : Str} (key : PublicKey) (hid : keyId ≠ [])
    (hfree : Dict.has store.keys keyId = true → keyId ∈ store.revoked) :
    ∃ store', store.add keyId key = .ok store' := by
  unfold add
  rw [if_neg hid, if_neg (by rintro ⟨hhas, hrevoked⟩; exact hrevoked (hfree hhas))]
  exact ⟨_, rfl⟩

theorem revoke_eq_ok {store store' : TrustStore} {keyId : Str}
    (h : store.revoke keyId = .ok store') :
    store'.keys = store.keys ∧
      store'.revoked = if keyId ∈ store.revoked then store.revoked else keyId :: store.revoked := by
  unfold revoke at h
  split at h
  · obtain rfl := Except.ok.inj h
    exact ⟨rfl, rfl⟩
  · cases h

theorem known_of_revoke {store store' : TrustStore} {keyId : Str}
    (h : store.revoke keyId = .ok store') : Dict.has store.keys keyId = true := by
  unfold revoke at h
  split at h
  · assumption
  · cases h

theorem mem_revoked_of_revoke {store store' : TrustStore} {keyId id : Str}
    (h : store.revoke keyId = .ok store') :
    id ∈ store'.revoked ↔ id = keyId ∨ id ∈ store.revoked := by
  rw [(revoke_eq_ok h).2]
  split
  · rename_i hold
    refine ⟨Or.inr, fun hid => hid.elim (fun heq => ?_) (fun hid => hid)⟩
    exact heq ▸ hold
  · exact List.mem_cons

theorem eq_of_keys {store store' : TrustStore} (hkeys : store'.keys = store.keys)
    (hrevoked : store'.revoked = store.revoked) : store' = store := by
  cases store
  cases store'
  simp_all

section Signatures

variable (P : Primitives) (store : TrustStore) (keyId : Str) (payload : Result String)
  (signature : Str)

-- the verify method of every signed object: the payload is built for a trusted key only
def verifies : Result Bool :=
  match store.resolve keyId with
  | none => .ok false
  | some key => do
      let bytes ← payload
      .ok (verifySignature P key bytes signature)

def Signs : Prop :=
  ∃ key bytes, store.Trusted keyId key ∧ payload = .ok bytes ∧
    verifySignature P key bytes signature = true

variable {P store keyId payload signature}

theorem verifies_eq_ok :
    store.verifies P keyId payload signature = .ok true ↔ store.Signs P keyId payload signature := by
  unfold verifies Signs
  cases hkey : store.resolve keyId with
  | none =>
      constructor
      · intro h
        cases h
      · rintro ⟨key, -, htrusted, -⟩
        rw [resolve_eq_some.mpr htrusted] at hkey
        cases hkey
  | some key =>
      simp only [bind_eq_ok, Except.ok.injEq]
      constructor
      · rintro ⟨bytes, hpayload, hsigned⟩
        exact ⟨key, bytes, resolve_eq_some.mp hkey, hpayload, hsigned⟩
      · rintro ⟨key', bytes, htrusted, hpayload, hsigned⟩
        rw [resolve_eq_some.mpr htrusted] at hkey
        obtain rfl := Option.some.inj hkey
        exact ⟨bytes, hpayload, hsigned⟩

theorem verifies_congr {store' : TrustStore} (h : store.resolve keyId = store'.resolve keyId) :
    store.verifies P keyId payload signature = store'.verifies P keyId payload signature := by
  unfold verifies
  rw [h]

theorem Signs.trusted (h : store.Signs P keyId payload signature) :
    ∃ key, store.resolve keyId = some key := by
  obtain ⟨key, -, htrusted, -⟩ := h
  exact ⟨key, resolve_eq_some.mpr htrusted⟩

end Signatures

end TrustStore

inductive KeySource where
  | issuerKeys (keys : List (Str × PublicKey))
  | trustStore (store : TrustStore)

namespace KeySource

def resolve : KeySource → Str → Option PublicKey
  | .issuerKeys keys, keyId => Dict.get keys keyId
  | .trustStore store, keyId => store.resolve keyId

-- a key map has no revocation, a trust store does
def Trusted : KeySource → Str → PublicKey → Prop
  | .issuerKeys keys, keyId, key => Dict.get keys keyId = some key
  | .trustStore store, keyId, key => store.Trusted keyId key

theorem resolve_eq_some {source : KeySource} {keyId : Str} {key : PublicKey} :
    source.resolve keyId = some key ↔ source.Trusted keyId key := by
  cases source with
  | issuerKeys keys => rfl
  | trustStore store => exact TrustStore.resolve_eq_some

end KeySource

structure Signer where
  keyId : Str
  sign : String → Str

end GovernedAutonomy
