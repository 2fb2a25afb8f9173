import GovernedAutonomy.Faults
import GovernedAutonomy.TrustChange

namespace GovernedAutonomy

open Python Protocol

inductive KeyStatus where
  | active
  | rotated
  | revoked
deriving DecidableEq

structure KeyRecord where
  keyId : Str
  provider : Str
  status : KeyStatus
  createdAt : PyFloat
  revokedAt : Option PyFloat := none

-- the statement at which a call raises; the trust store is saved after its change in memory
inductive KeyFault where
  | select
  | save
  | write (fault : SQLiteFault)
  | reread

inductive RotateFault where
  | select
  | register (fault : KeyFault)
  | write (fault : SQLiteFault)

inductive KeyCall where
  | register (keyId provider : Str) (publicKey : List UInt8) (now : PyFloat)
      (fault : Option KeyFault)
  | rotate (oldKeyId newKeyId provider : Str) (newPublicKey : List UInt8) (now : PyFloat)
      (fault : Option RotateFault)
  | revoke (keyId : Str) (now : PyFloat) (fault : Option KeyFault)

def KeyFault.inWrite : Option KeyFault → Option SQLiteFault
  | some (.write fault) => some fault
  | _ => none

def RotateFault.inRegister : Option RotateFault → Option KeyFault
  | some (.register fault) => some fault
  | _ => none

def RotateFault.inWrite : Option RotateFault → Option SQLiteFault
  | some (.write fault) => some fault
  | _ => none

-- the trust store, the committed rows, and what the open transaction would commit
structure KeyLifecycleManager where
  trustStore : TrustStore := TrustStore.empty
  table : List KeyRecord := []
  transaction : Option (List KeyRecord) := none

namespace TrustStore

variable {store store' : TrustStore} {keyId : Str}

theorem resolve_of_add {key : PublicKey} (h : store.add keyId key = .ok store') (id : Str) :
    store'.resolve id = if keyId = id then some key else store.resolve id := by
  split
  · rename_i hid
    rw [← hid, resolve_add h]
  · rename_i hid
    obtain ⟨-, -, hkeys, hrevoked⟩ := add_eq_ok h
    simp [resolve, hkeys, hrevoked, Dict.get_set, hid, Ne.symm hid]

theorem resolve_before_add {key : PublicKey} (h : store.add keyId key = .ok store') :
    store.resolve keyId = none := by
  obtain ⟨-, hfree, -, -⟩ := add_eq_ok h
  unfold resolve
  split
  · rfl
  · rename_i hrevoked
    rw [← Option.not_isSome_iff_eq_none]
    exact fun hhas => hrevoked (hfree hhas)

theorem resolve_of_revoke (h : store.revoke keyId = .ok store') (id : Str) :
    store'.resolve id = if keyId = id then none else store.resolve id := by
  rw [resolve, resolve, (revoke_eq_ok h).1]
  by_cases hid : keyId = id
  · rw [if_pos hid, if_pos ((mem_revoked_of_revoke h).mpr (Or.inl hid.symm))]
  · rw [if_neg hid]
    refine if_congr ((mem_revoked_of_revoke h).trans ?_) rfl rfl
    exact or_iff_right (Ne.symm hid)

end TrustStore

namespace KeyLifecycleManager

variable (manager : KeyLifecycleManager)

def rows : List KeyRecord := manager.transaction.getD manager.table

def bindText (s : Str) : Result Unit :=
  raiseIf ((encode s).isNone = true) (.builtin .unicodeEncodeError)

def row (keyId : Str) : Result (Option KeyRecord) := do
  bindText keyId
  .ok (manager.rows.find? (fun row => row.keyId = keyId))

def get (keyId : Str) : Result KeyRecord := do
  match ← manager.row keyId with
  | none => .error (.builtin .keyError)
  | some row => .ok row

def insert (record : KeyRecord) (rows : List KeyRecord) : Result (List KeyRecord) := do
  bindText record.keyId
  bindText record.provider
  raiseIf (rows.any (fun row => row.keyId = record.keyId) = true) (.builtin .integrityError)
  .ok (rows ++ [record])

def update (keyId : Str) (change : KeyRecord → KeyRecord) (rows : List KeyRecord) :
    Result (List KeyRecord) := do
  bindText keyId
  .ok (rows.map (fun row => if row.keyId = keyId then change row else row))

-- a statement that writes, and its commit
def write (statement : List KeyRecord → Result (List KeyRecord)) (fault : Option SQLiteFault) :
    KeyLifecycleManager × Result Unit :=
  match fault, statement manager.rows with
  | some (.execute undone), _ =>
      ({ manager with transaction := if undone then none else some manager.rows },
        .error operationalError)
  | _, .error e => ({ manager with transaction := some manager.rows }, .error e)
  | some (.commit undone), .ok rows =>
      ({ manager with transaction := if undone then none else some rows }, .error operationalError)
  | none, .ok rows => ({ manager with table := rows, transaction := none }, .ok ())

def trust (change : Result TrustStore) (fault : Option KeyFault) :
    KeyLifecycleManager × Result Unit :=
  match change, fault with
  | .error e, _ => (manager, .error e)
  | .ok store, some .save => ({ manager with trustStore := store }, .error osError)
  | .ok store, _ => ({ manager with trustStore := store }, .ok ())

-- the write of a call, and the row that it returns
def writeAndGet (statement : List KeyRecord → Result (List KeyRecord)) (keyId : Str)
    (fault : Option KeyFault) : KeyLifecycleManager × Result KeyRecord :=
  match manager.write statement (KeyFault.inWrite fault), fault with
  | (manager, .error e), _ => (manager, .error e)
  | (manager, .ok ()), some .reread => (manager, .error operationalError)
  | (manager, .ok ()), _ => (manager, manager.get keyId)

def register (keyId provider : Str) (publicKey : List UInt8) (now : PyFloat)
    (fault : Option KeyFault) : KeyLifecycleManager × Result KeyRecord :=
  if keyId = [] ∨ provider = [] then
    (manager, .error (.valueError (lit "key_id and provider are required")))
  else
    match fault, manager.row keyId with
    | some .select, _ => (manager, .error operationalError)
    | _, .error e => (manager, .error e)
    | _, .ok (some _) =>
        (manager, .error (.valueError (lit "key already registered: " ++ keyId)))
    | fault, .ok none =>
        match manager.trust (do
            let key ← fromPublicBytes publicKey
            manager.trustStore.add keyId key) fault with
        | (manager, .error e) => (manager, .error e)
        | (manager, .ok ()) =>
            manager.writeAndGet (insert ⟨keyId, provider, .active, now, none⟩) keyId fault

def rotate (oldKeyId newKeyId provider : Str) (newPublicKey : List UInt8) (now : PyFloat)
    (fault : Option RotateFault) : KeyLifecycleManager × Result KeyRecord :=
  match fault, manager.get oldKeyId with
  | some .select, _ => (manager, .error operationalError)
  | _, .error e => (manager, .error e)
  | fault, .ok old =>
      if old.status ≠ .active then
        (manager, .error (.valueError (lit "only an ACTIVE key can be rotated")))
      else
        match manager.register newKeyId provider newPublicKey now (RotateFault.inRegister fault) with
        | (manager, .error e) => (manager, .error e)
        | (manager, .ok new) =>
            match manager.write (update oldKeyId (fun row => { row with status := .rotated }))
                (RotateFault.inWrite fault) with
            | (manager, .error e) => (manager, .error e)
            | (manager, .ok ()) => (manager, .ok new)

def revoke (keyId : Str) (now : PyFloat) (fault : Option KeyFault) :
    KeyLifecycleManager × Result KeyRecord :=
  match fault, manager.get keyId with
  | some .select, _ => (manager, .error operationalError)
  | _, .error e => (manager, .error e)
  | fault, .ok _ =>
      match manager.trust (manager.trustStore.revoke keyId) fault with
      | (manager, .error e) => (manager, .error e)
      | (manager, .ok ()) =>
          manager.writeAndGet
            (update keyId (fun row => { row with status := .revoked, revokedAt := some now }))
            keyId fault

def perform : KeyCall → KeyLifecycleManager × Result KeyRecord
  | .register keyId provider publicKey now fault =>
      manager.register keyId provider publicKey now fault
  | .rotate oldKeyId newKeyId provider newPublicKey now fault =>
      manager.rotate oldKeyId newKeyId provider newPublicKey now fault
  | .revoke keyId now fault => manager.revoke keyId now fault

-- what the checks of register ask of its arguments
structure Registrable (keyId provider : Str) (publicKey : List UInt8) : Prop where
  named : ¬ (keyId = [] ∨ provider = [])
  fresh : manager.row keyId = .ok none
  key : fromPublicBytes publicKey = .ok ⟨publicKey⟩
  untrusted : ∃ store, manager.trustStore.add keyId ⟨publicKey⟩ = .ok store

structure Rotatable (oldKeyId newKeyId provider : Str) (newPublicKey : List UInt8) : Prop where
  active : ∃ old, manager.get oldKeyId = .ok old ∧ old.status = .active
  registrable : manager.Registrable newKeyId provider newPublicKey

-- a call that raises does so before the trust store is changed, or finds the key revoked already
def Orderly : KeyCall → Prop
  | .register keyId provider publicKey _ fault => manager.Registrable keyId provider publicKey →
      fault = some .select ∨ fault = none ∧ (encode provider).isSome = true
  | .rotate oldKeyId newKeyId provider newPublicKey _ fault =>
      manager.Rotatable oldKeyId newKeyId provider newPublicKey →
        fault = some .select ∨ fault = some (.register .select) ∨
          fault = none ∧ (encode provider).isSome = true
  | .revoke keyId now fault => ∀ row, manager.get keyId = .ok row →
      Dict.has manager.trustStore.keys keyId = true →
        fault = none ∨ fault = some .select ∨ row.status = .revoked ∧
          (fault = some (.write (.commit false)) ∨ fault = some .reread →
            row.revokedAt = some now)

structure AsBefore (manager' : KeyLifecycleManager) : Prop where
  trustStore : manager'.trustStore = manager.trustStore
  rows : manager'.rows = manager.rows
  table : manager'.table = manager.table

def rotatedRows (oldKeyId : Str) (rows : List KeyRecord) : List KeyRecord :=
  rows.map (fun row => if row.keyId = oldKeyId then { row with status := .rotated } else row)

def revokedRows (keyId : Str) (now : PyFloat) (rows : List KeyRecord) : List KeyRecord :=
  rows.map (fun row =>
    if row.keyId = keyId then { row with status := .revoked, revokedAt := some now } else row)

inductive Outcome : KeyCall → KeyLifecycleManager × Result KeyRecord → Prop where
  | raised {call : KeyCall} {manager' : KeyLifecycleManager} (e : Exc)
      (h : manager.AsBefore manager') : Outcome call (manager', .error e)
  | registered {keyId provider : Str} {publicKey : List UInt8} {now : PyFloat}
      {fault : Option KeyFault} {store : TrustStore} (record : KeyRecord)
      (h : manager.Registrable keyId provider publicKey)
      (hadd : manager.trustStore.add keyId ⟨publicKey⟩ = .ok store) :
      Outcome (.register keyId provider publicKey now fault)
        (⟨store, manager.rows ++ [⟨keyId, provider, .active, now, none⟩], none⟩, .ok record)
  | rotated {oldKeyId newKeyId provider : Str} {newPublicKey : List UInt8} {now : PyFloat}
      {fault : Option RotateFault} {store : TrustStore} (record : KeyRecord)
      (h : manager.Rotatable oldKeyId newKeyId provider newPublicKey)
      (hadd : manager.trustStore.add newKeyId ⟨newPublicKey⟩ = .ok store) :
      Outcome (.rotate oldKeyId newKeyId provider newPublicKey now fault)
        (⟨store, rotatedRows oldKeyId
          (manager.rows ++ [⟨newKeyId, provider, .active, now, none⟩]), none⟩, .ok record)
  | revoked {keyId : Str} {now : PyFloat} {fault : Option KeyFault} {store : TrustStore}
      (record : KeyRecord) (hrevoke : manager.trustStore.revoke keyId = .ok store) :
      Outcome (.revoke keyId now fault)
        (⟨store, revokedRows keyId now manager.rows, none⟩, .ok record)

variable {manager}

theorem AsBefore.refl : manager.AsBefore manager := ⟨rfl, rfl, rfl⟩

@[simp]
theorem bindText_eq_ok {s : Str} {u : Unit} : bindText s = .ok u ↔ (encode s).isSome = true := by
  rw [bindText, raiseIf_eq_ok, Option.isNone_iff_eq_none, Option.isSome_iff_ne_none]

theorem row_eq_ok {keyId : Str} {found : Option KeyRecord} : manager.row keyId = .ok found ↔
    (encode keyId).isSome = true ∧
      manager.rows.find? (fun row => row.keyId = keyId) = found := by
  rw [row, bind_eq_ok]
  simp only [bindText_eq_ok, Except.ok.injEq, exists_const]

theorem get_eq_ok {keyId : Str} {record : KeyRecord} :
    manager.get keyId = .ok record ↔ manager.row keyId = .ok (some record) := by
  rw [get, bind_eq_ok]
  constructor
  · rintro ⟨found, hrow, h⟩
    cases found with
    | none => cases h
    | some record' => rw [hrow, Except.ok.inj h]
  · intro h
    exact ⟨some record, h, rfl⟩

theorem mem_of_get {keyId : Str} {record : KeyRecord} (h : manager.get keyId = .ok record) :
    record ∈ manager.rows ∧ record.keyId = keyId := by
  obtain ⟨-, hfind⟩ := row_eq_ok.mp (get_eq_ok.mp h)
  exact ⟨List.mem_of_find?_eq_some hfind, by simpa using List.find?_some hfind⟩

theorem not_mem_of_fresh {keyId : Str} (h : manager.row keyId = .ok none) :
    ∀ row ∈ manager.rows, row.keyId ≠ keyId := by
  obtain ⟨-, hfind⟩ := row_eq_ok.mp h
  intro row hrow hid
  exact List.find?_eq_none.mp hfind row hrow (decide_eq_true hid)

theorem insert_eq_ok {record : KeyRecord} {rows : List KeyRecord}
    (hkey : (encode record.keyId).isSome = true) (hprovider : (encode record.provider).isSome = true)
    (hfresh : ∀ row ∈ rows, row.keyId ≠ record.keyId) : insert record rows = .ok (rows ++ [record]) := by
  rw [insert, (bindText_eq_ok (u := ())).mpr hkey, (bindText_eq_ok (u := ())).mpr hprovider,
    raiseIf_of_not]
  · rfl
  · rw [List.any_eq_true]
    rintro ⟨row, hrow, hid⟩
    exact hfresh row hrow (of_decide_eq_true hid)

theorem insert_error (record : KeyRecord) (rows : List KeyRecord)
    (h : (encode record.provider).isSome = false) : ∃ e, insert record rows = .error e := by
  cases hinsert : insert record rows with
  | error e => exact ⟨e, rfl⟩
  | ok rows' =>
      simp only [insert, bind_eq_ok, bindText_eq_ok, h] at hinsert
      obtain ⟨-, -, -, hfalse, -⟩ := hinsert
      cases hfalse

theorem update_eq_ok {keyId : Str} (change : KeyRecord → KeyRecord) (rows : List KeyRecord)
    (hkey : (encode keyId).isSome = true) : update keyId change rows =
      .ok (rows.map (fun row => if row.keyId = keyId then change row else row)) := by
  rw [update, (bindText_eq_ok (u := ())).mpr hkey]
  rfl

section Writes

variable {statement : List KeyRecord → Result (List KeyRecord)} {rows : List KeyRecord}

theorem write_ok (manager : KeyLifecycleManager) (h : statement manager.rows = .ok rows) :
    manager.write statement none = (⟨manager.trustStore, rows, none⟩, .ok ()) := by
  simp only [write, h]

@[simp]
theorem write_trustStore (manager : KeyLifecycleManager)
    (statement : List KeyRecord → Result (List KeyRecord)) (fault : Option SQLiteFault) :
    (manager.write statement fault).1.trustStore = manager.trustStore := by
  unfold write
  split <;> rfl

theorem write_raises (manager : KeyLifecycleManager)
    (statement : List KeyRecord → Result (List KeyRecord)) (fault : SQLiteFault) :
    ∃ e, (manager.write statement (some fault)).2 = .error e := by
  unfold write
  split
  · exact ⟨_, rfl⟩
  · exact ⟨_, rfl⟩
  · exact ⟨_, rfl⟩
  · rename_i hfault _
    cases hfault

theorem write_error (manager : KeyLifecycleManager) {e : Exc} (h : statement manager.rows = .error e) :
    ∃ e, (manager.write statement none).2 = .error e := by
  simp only [write, h]
  exact ⟨e, rfl⟩

theorem writeAndGet_ok (manager : KeyLifecycleManager) {keyId : Str} (h : statement manager.rows = .ok rows) :
    manager.writeAndGet statement keyId none =
      (⟨manager.trustStore, rows, none⟩, get ⟨manager.trustStore, rows, none⟩ keyId) := by
  simp only [writeAndGet, KeyFault.inWrite, write_ok manager h]

@[simp]
theorem writeAndGet_trustStore (keyId : Str) (fault : Option KeyFault) :
    (manager.writeAndGet statement keyId fault).1.trustStore = manager.trustStore := by
  have hwrite := write_trustStore manager statement (KeyFault.inWrite fault)
  unfold writeAndGet
  split <;> (rename_i hresult; rw [hresult] at hwrite; exact hwrite)

theorem writeAndGet_error {keyId : Str} {e : Exc} (fault : Option KeyFault)
    (h : (manager.write statement (KeyFault.inWrite fault)).2 = .error e) :
    (manager.writeAndGet statement keyId fault).2 = .error e := by
  unfold writeAndGet
  split <;> rename_i hresult <;> rw [hresult] at h <;> cases h
  rfl

theorem writeAndGet_raises (keyId : Str) {fault : KeyFault} (hselect : fault ≠ .select)
    (hsave : fault ≠ .save) :
    ∃ e, (manager.writeAndGet statement keyId (some fault)).2 = .error e := by
  cases fault with
  | select => exact absurd rfl hselect
  | save => exact absurd rfl hsave
  | write fault =>
      obtain ⟨e, he⟩ := write_raises manager statement fault
      exact ⟨e, writeAndGet_error (some (.write fault)) he⟩
  | reread =>
      unfold writeAndGet
      split
      · exact ⟨_, rfl⟩
      · exact ⟨_, rfl⟩
      · rename_i hreread
        exact absurd rfl hreread

end Writes

section Register

variable {keyId provider : Str} {publicKey : List UInt8} {fault : Option KeyFault}
  (now : PyFloat)

theorem addKey_eq_ok {store : TrustStore} :
    (do
      let key ← fromPublicBytes publicKey
      manager.trustStore.add keyId key) = .ok store ↔
    fromPublicBytes publicKey = .ok ⟨publicKey⟩ ∧
      manager.trustStore.add keyId ⟨publicKey⟩ = .ok store := by
  rw [bind_eq_ok]
  constructor
  · rintro ⟨key, hkey, hadd⟩
    have hraw : key = ⟨publicKey⟩ := by
      unfold fromPublicBytes at hkey
      split at hkey
      · exact (Except.ok.inj hkey).symm
      · cases hkey
    subst hraw
    exact ⟨hkey, hadd⟩
  · rintro ⟨hkey, hadd⟩
    exact ⟨⟨publicKey⟩, hkey, hadd⟩

theorem register_refused
    (h : ¬ manager.Registrable keyId provider publicKey ∨ fault = some .select) :
    ∃ e, manager.register keyId provider publicKey now fault = (manager, .error e) := by
  unfold register
  split
  · exact ⟨_, rfl⟩
  · rename_i hnamed
    split
    · exact ⟨_, rfl⟩
    · exact ⟨_, rfl⟩
    · exact ⟨_, rfl⟩
    · rename_i hselect hfresh
      have hnot := h.resolve_right hselect
      cases hadd : (do
          let key ← fromPublicBytes publicKey
          manager.trustStore.add keyId key) with
      | error e => exact ⟨e, rfl⟩
      | ok store =>
          obtain ⟨hkey, hadd⟩ := addKey_eq_ok.mp hadd
          exact absurd ⟨hnamed, hfresh, hkey, store, hadd⟩ hnot

theorem register_accepted (h : manager.Registrable keyId provider publicKey)
    (hselect : fault ≠ some .select) {store : TrustStore}
    (hadd : manager.trustStore.add keyId ⟨publicKey⟩ = .ok store) :
    manager.register keyId provider publicKey now fault =
      match manager.trust (.ok store) fault with
      | (manager, .error e) => (manager, .error e)
      | (manager, .ok ()) =>
          manager.writeAndGet (insert ⟨keyId, provider, .active, now, none⟩) keyId fault := by
  unfold register
  rw [if_neg h.named, h.fresh, addKey_eq_ok.mpr ⟨h.key, hadd⟩]
  split
  · exact absurd rfl hselect
  · rename_i herror
    cases herror
  · rename_i hrow
    cases hrow
  · rfl

-- a key is trusted before its row is written, whatever becomes of the row
theorem register_raises (h : manager.Registrable keyId provider publicKey)
    (hselect : fault ≠ some .select) (hlate : fault ≠ none ∨ (encode provider).isSome = false)
    {store : TrustStore} (hadd : manager.trustStore.add keyId ⟨publicKey⟩ = .ok store) :
    (manager.register keyId provider publicKey now fault).1.trustStore = store ∧
      ∃ e, (manager.register keyId provider publicKey now fault).2 = .error e := by
  rw [register_accepted now h hselect hadd]
  cases fault with
  | none =>
      obtain ⟨e, he⟩ := insert_error ⟨keyId, provider, .active, now, none⟩ manager.rows
        (hlate.resolve_left (fun hnone => hnone rfl))
      obtain ⟨e', he'⟩ := write_error { manager with trustStore := store } he
      simp only [trust]
      exact ⟨writeAndGet_trustStore keyId none, e', writeAndGet_error none he'⟩
  | some fault =>
      by_cases hsave : fault = .save
      · subst hsave
        exact ⟨rfl, _, rfl⟩
      · have htrust : manager.trust (.ok store) (some fault) =
            ({ manager with trustStore := store }, .ok ()) := by
          unfold trust
          split
          · rename_i herror
            cases herror
          · rename_i hfault
            exact absurd (Option.some.inj hfault) hsave
          · rename_i hok _
            rw [Except.ok.inj hok]
        rw [htrust]
        refine ⟨writeAndGet_trustStore keyId (some fault), writeAndGet_raises keyId ?_ hsave⟩
        rintro rfl
        exact hselect rfl

theorem register_ok (h : manager.Registrable keyId provider publicKey)
    (hprovider : (encode provider).isSome = true) {store : TrustStore}
    (hadd : manager.trustStore.add keyId ⟨publicKey⟩ = .ok store) :
    manager.register keyId provider publicKey now none =
      (⟨store, manager.rows ++ [⟨keyId, provider, .active, now, none⟩], none⟩,
        .ok ⟨keyId, provider, .active, now, none⟩) := by
  obtain ⟨hkey, hfind⟩ := row_eq_ok.mp h.fresh
  have hinsert : insert ⟨keyId, provider, .active, now, none⟩ manager.rows =
      .ok (manager.rows ++ [⟨keyId, provider, .active, now, none⟩]) :=
    insert_eq_ok hkey hprovider (not_mem_of_fresh h.fresh)
  rw [register_accepted now h (by simp) hadd]
  simp only [trust]
  rw [writeAndGet_ok { manager with trustStore := store } hinsert]
  refine Prod.ext rfl (get_eq_ok.mpr (row_eq_ok.mpr ⟨hkey, ?_⟩))
  simp only [rows, Option.getD_none, List.find?_append]
  simp only [rows] at hfind
  rw [hfind]
  simp

end Register

section Rotate

variable {oldKeyId newKeyId provider : Str} {newPublicKey : List UInt8}
  {fault : Option RotateFault} (now : PyFloat)

theorem rotate_refused
    (h : ¬ manager.Rotatable oldKeyId newKeyId provider newPublicKey ∨ fault = some .select ∨
      fault = some (.register .select)) :
    ∃ e, manager.rotate oldKeyId newKeyId provider newPublicKey now fault =
      (manager, .error e) := by
  unfold rotate
  split
  · exact ⟨_, rfl⟩
  · exact ⟨_, rfl⟩
  · rename_i fault _ _ old hselect hold
    split
    · exact ⟨_, rfl⟩
    · rename_i hactive
      have hregister : ¬ manager.Registrable newKeyId provider newPublicKey ∨
          RotateFault.inRegister fault = some .select := by
        rcases h with hnot | hfault | hfault
        · exact Or.inl fun hnew => hnot ⟨⟨old, hold, not_not.mp hactive⟩, hnew⟩
        · exact absurd hfault hselect
        · rw [hfault]
          exact Or.inr rfl
      obtain ⟨e, he⟩ := register_refused now hregister
      rw [he]
      exact ⟨e, rfl⟩

theorem rotate_accepted (h : manager.Rotatable oldKeyId newKeyId provider newPublicKey)
    (hselect : fault ≠ some .select) :
    manager.rotate oldKeyId newKeyId provider newPublicKey now fault =
      match manager.register newKeyId provider newPublicKey now
          (RotateFault.inRegister fault) with
      | (manager, .error e) => (manager, .error e)
      | (manager, .ok new) =>
          match manager.write (update oldKeyId (fun row => { row with status := .rotated }))
              (RotateFault.inWrite fault) with
          | (manager, .error e) => (manager, .error e)
          | (manager, .ok ()) => (manager, .ok new) := by
  obtain ⟨⟨old, hold, hactive⟩, -⟩ := h
  unfold rotate
  rw [hold]
  split
  · exact absurd rfl hselect
  · rename_i herror
    cases herror
  · rename_i hok
    obtain rfl := Except.ok.inj hok
    rw [if_neg (not_not.mpr hactive)]

theorem rotate_raises (h : manager.Rotatable oldKeyId newKeyId provider newPublicKey)
    (hselect : fault ≠ some .select) (hregister : fault ≠ some (.register .select))
    (hlate : fault ≠ none ∨ (encode provider).isSome = false) {store : TrustStore}
    (hadd : manager.trustStore.add newKeyId ⟨newPublicKey⟩ = .ok store) :
    (manager.rotate oldKeyId newKeyId provider newPublicKey now fault).1.trustStore = store ∧
      ∃ e, (manager.rotate oldKeyId newKeyId provider newPublicKey now fault).2 = .error e := by
  have hearly : RotateFault.inRegister fault ≠ some .select := by
    intro hfault
    unfold RotateFault.inRegister at hfault
    split at hfault
    · rw [Option.some.inj hfault] at hregister
      exact hregister rfl
    · cases hfault
  rw [rotate_accepted now h hselect]
  by_cases hnested : RotateFault.inRegister fault ≠ none ∨ (encode provider).isSome = false
  · obtain ⟨hstore, e, he⟩ := register_raises now h.registrable hearly hnested hadd
    split
    · rename_i hresult
      rw [hresult] at hstore he
      exact ⟨hstore, e, he⟩
    · rename_i hresult
      rw [hresult] at he
      cases he
  · push Not at hnested
    obtain ⟨hnone, hprovider⟩ := hnested
    rw [ne_eq, Bool.not_eq_false] at hprovider
    rw [hnone, register_ok now h.registrable hprovider hadd]
    have hwrite : ∃ write, fault = some (.write write) := by
      rcases fault with - | fault
      · exact absurd (hlate.resolve_left (fun hnone => hnone rfl)) (by simp [hprovider])
      · cases fault with
        | select => exact absurd rfl hselect
        | register fault => cases hnone
        | write write => exact ⟨write, rfl⟩
    obtain ⟨write, rfl⟩ := hwrite
    obtain ⟨e, he⟩ := write_raises ⟨store, manager.rows ++
      [⟨newKeyId, provider, .active, now, none⟩], none⟩
      (update oldKeyId (fun row => { row with status := .rotated })) write
    have hstore := write_trustStore ⟨store, manager.rows ++
      [⟨newKeyId, provider, .active, now, none⟩], none⟩
      (update oldKeyId (fun row => { row with status := .rotated })) (some write)
    simp only [RotateFault.inWrite]
    split
    · rename_i hresult
      rw [hresult] at hstore
      exact ⟨hstore, _, rfl⟩
    · rename_i hresult
      rw [hresult] at he
      cases he

theorem rotate_ok (h : manager.Rotatable oldKeyId newKeyId provider newPublicKey)
    (hprovider : (encode provider).isSome = true) {store : TrustStore}
    (hadd : manager.trustStore.add newKeyId ⟨newPublicKey⟩ = .ok store) :
    manager.rotate oldKeyId newKeyId provider newPublicKey now none =
      (⟨store, rotatedRows oldKeyId (manager.rows ++ [⟨newKeyId, provider, .active, now, none⟩]),
        none⟩, .ok ⟨newKeyId, provider, .active, now, none⟩) := by
  obtain ⟨old, hold, -⟩ := h.active
  obtain ⟨hkey, -⟩ := row_eq_ok.mp (get_eq_ok.mp hold)
  rw [rotate_accepted now h (by simp)]
  simp only [RotateFault.inRegister, RotateFault.inWrite, register_ok now h.registrable hprovider hadd]
  rw [write_ok _ (update_eq_ok _ _ hkey)]
  rfl

end Rotate

section Revoke

variable {keyId : Str} {fault : Option KeyFault} (now : PyFloat)

theorem revoke_isOk {store : TrustStore} (h : Dict.has store.keys keyId = true) :
    ∃ store', store.revoke keyId = .ok store' := by
  unfold TrustStore.revoke
  rw [dif_pos h]
  exact ⟨_, rfl⟩

theorem revoke_refused (h : fault = some .select ∨
    ∀ row, manager.get keyId = .ok row → Dict.has manager.trustStore.keys keyId ≠ true) :
    ∃ e, manager.revoke keyId now fault = (manager, .error e) := by
  unfold revoke
  split
  · exact ⟨_, rfl⟩
  · exact ⟨_, rfl⟩
  · rename_i hselect hget
    have hunknown := h.resolve_left hselect _ hget
    rw [TrustStore.revoke, dif_neg hunknown]
    exact ⟨_, rfl⟩

theorem revoke_accepted {record : KeyRecord} {store : TrustStore}
    (hget : manager.get keyId = .ok record)
    (hrevoke : manager.trustStore.revoke keyId = .ok store) (hselect : fault ≠ some .select) :
    manager.revoke keyId now fault =
      match manager.trust (.ok store) fault with
      | (manager, .error e) => (manager, .error e)
      | (manager, .ok ()) =>
          manager.writeAndGet
            (update keyId (fun row => { row with status := .revoked, revokedAt := some now }))
            keyId fault := by
  unfold revoke
  rw [hget, hrevoke]
  split
  · exact absurd rfl hselect
  · rename_i herror
    cases herror
  · rfl

theorem revokedRows_sameKeys (rows : List KeyRecord) :
    (revokedRows keyId now rows).map KeyRecord.keyId = rows.map KeyRecord.keyId := by
  rw [revokedRows, List.map_map]
  refine List.map_congr_left fun row _ => ?_
  simp only [Function.comp]
  split <;> rfl

theorem find_revokedRows {rows : List KeyRecord} {record : KeyRecord}
    (h : rows.find? (fun row => row.keyId = keyId) = some record) :
    (revokedRows keyId now rows).find? (fun row => row.keyId = keyId) =
      some { record with status := .revoked, revokedAt := some now } := by
  have hkey : ∀ row : KeyRecord, (if row.keyId = keyId then
      { row with status := .revoked, revokedAt := some now } else row).keyId = row.keyId := by
    intro row
    split <;> rfl
  have hrecord : record.keyId = keyId := by simpa using List.find?_some h
  rw [revokedRows, List.find?_map]
  simp only [Function.comp_def, hkey, h, Option.map_some, if_pos hrecord]

theorem revoke_ok {record : KeyRecord} {store : TrustStore}
    (hget : manager.get keyId = .ok record)
    (hrevoke : manager.trustStore.revoke keyId = .ok store) :
    manager.revoke keyId now none = (⟨store, revokedRows keyId now manager.rows, none⟩,
      .ok { record with status := .revoked, revokedAt := some now }) := by
  obtain ⟨hkey, hfind⟩ := row_eq_ok.mp (get_eq_ok.mp hget)
  rw [revoke_accepted now hget hrevoke (by simp)]
  simp only [trust]
  rw [writeAndGet_ok { manager with trustStore := store } (update_eq_ok _ _ hkey)]
  exact Prod.ext rfl (get_eq_ok.mpr (row_eq_ok.mpr ⟨hkey, find_revokedRows now hfind⟩))

-- the manager that a revocation leaves when its statement or its second read raises
def interrupted (manager : KeyLifecycleManager) (store : TrustStore) (rows : List KeyRecord) :
    KeyFault → KeyLifecycleManager
  | .write (.execute undone) =>
      ⟨store, manager.table, if undone then none else some manager.rows⟩
  | .write (.commit undone) => ⟨store, manager.table, if undone then none else some rows⟩
  | .reread => ⟨store, rows, none⟩
  | _ => ⟨store, manager.table, manager.transaction⟩

theorem revoke_raises {record : KeyRecord} {store : TrustStore} {fault : KeyFault}
    (hget : manager.get keyId = .ok record)
    (hrevoke : manager.trustStore.revoke keyId = .ok store) (hselect : fault ≠ .select) :
    ∃ e, manager.revoke keyId now (some fault) =
      (manager.interrupted store (revokedRows keyId now manager.rows) fault,
        .error e) := by
  obtain ⟨hkey, -⟩ := row_eq_ok.mp (get_eq_ok.mp hget)
  have hupdate := update_eq_ok
    (fun row => { row with status := .revoked, revokedAt := some now }) manager.rows hkey
  rw [revoke_accepted now hget hrevoke (by simpa using hselect)]
  cases fault with
  | select => exact absurd rfl hselect
  | save => exact ⟨_, rfl⟩
  | reread =>
      refine ⟨operationalError, ?_⟩
      simp only [trust, writeAndGet, KeyFault.inWrite]
      rw [write_ok { manager with trustStore := store } hupdate]
      rfl
  | write fault =>
      refine ⟨operationalError, ?_⟩
      simp only [trust, writeAndGet, KeyFault.inWrite]
      cases fault with
      | execute undone => rfl
      | commit undone =>
          unfold write
          rw [show update keyId _ (rows { manager with trustStore := store }) = _ from hupdate]
          rfl

end Revoke

end KeyLifecycleManager

end GovernedAutonomy
