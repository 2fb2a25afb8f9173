import GovernedAutonomy.KeyLifecycle

namespace GovernedAutonomy

open Python Protocol

namespace KeyLifecycleManager

variable {manager : KeyLifecycleManager}

-- no two rows of one key, and nothing that waits for a commit
structure Settled (manager : KeyLifecycleManager) : Prop where
  distinct : (manager.rows.map KeyRecord.keyId).Nodup
  committed : manager.rows = manager.table

theorem Settled.eq_of_get {keyId : Str} {record row : KeyRecord} (hsettled : manager.Settled)
    (hget : manager.get keyId = .ok record) (hrow : row ∈ manager.rows) (hid : row.keyId = keyId) :
    row = record := by
  obtain ⟨hrecord, hkey⟩ := mem_of_get hget
  exact List.inj_on_of_nodup_map hsettled.distinct hrow hrecord (hid.trans hkey.symm)

theorem revokedRows_eq_self (now : PyFloat) {keyId : Str} {record : KeyRecord}
    (hsettled : manager.Settled) (hget : manager.get keyId = .ok record)
    (hstatus : record.status = .revoked) :
    revokedRows keyId now manager.rows = manager.rows ↔ record.revokedAt = some now := by
  obtain ⟨hrecord, hkey⟩ := mem_of_get hget
  have hself : revokedRows keyId now manager.rows = manager.rows ↔ ∀ row ∈ manager.rows,
      (if row.keyId = keyId then { row with status := .revoked, revokedAt := some now } else row) =
        row := by
    rw [revokedRows, ← List.map_inj_left, List.map_id']
  rw [hself]
  constructor
  · intro h
    have hrow := h record hrecord
    rw [if_pos hkey] at hrow
    exact (congrArg KeyRecord.revokedAt hrow).symm
  · intro hnow row hrow
    split
    · rename_i hid
      obtain rfl := hsettled.eq_of_get hget hrow hid
      rw [← hstatus, ← hnow]
    · rfl

-- a revocation that is repeated in vain changes nothing but the time of the revocation
theorem asBefore_interrupted {keyId : Str} {now : PyFloat} {record : KeyRecord}
    {store : TrustStore} (hsettled : manager.Settled) (hget : manager.get keyId = .ok record)
    (hstatus : record.status = .revoked) (huntrusted : manager.trustStore.resolve keyId = none)
    (hrevoke : manager.trustStore.revoke keyId = .ok store) (fault : KeyFault) :
    manager.AsBefore (manager.interrupted store (revokedRows keyId now manager.rows) fault) ↔
    (fault = .write (.commit false) ∨ fault = .reread → record.revokedAt = some now) := by
  have hstore : store = manager.trustStore := by
    refine TrustStore.eq_of_keys (TrustStore.revoke_eq_ok hrevoke).1 ?_
    rw [(TrustStore.revoke_eq_ok hrevoke).2, if_pos]
    by_contra hrevoked
    rw [TrustStore.resolve, if_neg hrevoked] at huntrusted
    have hhas := TrustStore.known_of_revoke hrevoke
    rw [Dict.has, huntrusted] at hhas
    cases hhas
  subst hstore
  have hself := revokedRows_eq_self now hsettled hget hstatus
  cases fault with
  | select => exact iff_of_true ⟨rfl, rfl, rfl⟩ (by simp)
  | save => exact iff_of_true ⟨rfl, rfl, rfl⟩ (by simp)
  | write fault =>
      cases fault with
      | execute undone =>
          cases undone with
          | false => exact iff_of_true ⟨rfl, rfl, rfl⟩ (by simp)
          | true => exact iff_of_true ⟨rfl, hsettled.committed.symm, rfl⟩ (by simp)
      | commit undone =>
          cases undone with
          | false =>
              constructor
              · rintro h -
                exact hself.mp h.rows
              · intro h
                exact ⟨rfl, hself.mpr (h (Or.inl rfl)), rfl⟩
          | true => exact iff_of_true ⟨rfl, hsettled.committed.symm, rfl⟩ (by simp)
  | reread =>
      constructor
      · rintro h -
        exact hself.mp h.rows
      · intro h
        have hrows := hself.mpr (h (Or.inr rfl))
        exact ⟨rfl, hrows, hrows.trans hsettled.committed⟩

variable {call : KeyCall}

theorem outcome_of_orderly (hsettled : manager.Settled)
    (huntrusted : ∀ row ∈ manager.rows, row.status = .revoked →
      manager.trustStore.resolve row.keyId = none)
    (h : manager.Orderly call) : manager.Outcome call (manager.perform call) := by
  have hrefused {result : KeyLifecycleManager × Result KeyRecord}
      (he : ∃ e, result = (manager, .error e)) : manager.Outcome call result := by
    obtain ⟨e, rfl⟩ := he
    exact .raised e AsBefore.refl
  cases call with
  | register keyId provider publicKey now fault =>
      by_cases hregistrable : manager.Registrable keyId provider publicKey
      · rcases h hregistrable with hselect | ⟨rfl, hprovider⟩
        · exact hrefused (register_refused now (Or.inr hselect))
        · obtain ⟨store, hadd⟩ := hregistrable.untrusted
          rw [perform, register_ok now hregistrable hprovider hadd]
          exact .registered _ hregistrable hadd
      · exact hrefused (register_refused now (Or.inl hregistrable))
  | rotate oldKeyId newKeyId provider newPublicKey now fault =>
      by_cases hrotatable : manager.Rotatable oldKeyId newKeyId provider newPublicKey
      · rcases h hrotatable with hselect | hselect | ⟨rfl, hprovider⟩
        · exact hrefused (rotate_refused now (Or.inr (Or.inl hselect)))
        · exact hrefused (rotate_refused now (Or.inr (Or.inr hselect)))
        · obtain ⟨store, hadd⟩ := hrotatable.registrable.untrusted
          rw [perform, rotate_ok now hrotatable hprovider hadd]
          exact .rotated _ hrotatable hadd
      · exact hrefused (rotate_refused now (Or.inl hrotatable))
  | revoke keyId now fault =>
      by_cases hknown : fault ≠ some .select ∧ ∃ row, manager.get keyId = .ok row ∧
          Dict.has manager.trustStore.keys keyId = true
      · obtain ⟨hselect, record, hget, hhas⟩ := hknown
        obtain ⟨store, hrevoke⟩ := revoke_isOk hhas
        rcases h record hget hhas with rfl | hfault | ⟨hstatus, hnow⟩
        · rw [perform, revoke_ok now hget hrevoke]
          exact .revoked _ hrevoke
        · exact absurd hfault hselect
        · rcases fault with - | fault
          · rw [perform, revoke_ok now hget hrevoke]
            exact .revoked _ hrevoke
          · have huntrusted : manager.trustStore.resolve keyId = none := by
              obtain ⟨hrecord, hkey⟩ := mem_of_get hget
              rw [← hkey]
              exact huntrusted record hrecord hstatus
            obtain ⟨e, he⟩ := revoke_raises now hget hrevoke (by simpa using hselect)
            rw [perform, he]
            refine .raised e ?_
            rw [asBefore_interrupted hsettled hget hstatus huntrusted hrevoke]
            simpa using hnow
      · refine hrefused (revoke_refused now ?_)
        rw [not_and_or, not_not] at hknown
        refine hknown.imp_right fun hnone row hget hhas => hnone ⟨row, hget, hhas⟩

def Status (manager : KeyLifecycleManager) (id : Str) (status : KeyStatus) : Prop :=
  ∃ row ∈ manager.rows, row.keyId = id ∧ row.status = status

def Unrevoked (manager : KeyLifecycleManager) (id : Str) : Prop :=
  ∃ row ∈ manager.rows, row.keyId = id ∧ row.status ≠ .revoked

-- what the calls have returned so far: the keys registered, and those rotated
structure Ledger where
  registered : List (Str × PublicKey) := []
  rotated : List Str := []

def Ledger.note (ledger : Ledger) : KeyCall → Result KeyRecord → Ledger
  | _, .error _ => ledger
  | .register keyId _ publicKey _ _, .ok _ =>
      { ledger with registered := Dict.set ledger.registered keyId ⟨publicKey⟩ }
  | .rotate oldKeyId newKeyId _ newPublicKey _ _, .ok _ =>
      { registered := Dict.set ledger.registered newKeyId ⟨newPublicKey⟩
        rotated := oldKeyId :: ledger.rotated }
  | .revoke _ _ _, .ok _ => ledger

def step (state : KeyLifecycleManager × Ledger) (call : KeyCall) : KeyLifecycleManager × Ledger :=
  ((state.1.perform call).1, state.2.note call (state.1.perform call).2)

-- the lifecycle rows, the trust store and the calls that have returned agree
structure InStep (state : KeyLifecycleManager × Ledger) : Prop where
  trusted : ∀ id, Unrevoked state.1 id ↔ ∃ key, state.1.trustStore.resolve id = some key
  given : ∀ id key, state.1.trustStore.resolve id = some key →
    Dict.get state.2.registered id = some key
  active : ∀ id, Status state.1 id .active →
    Dict.has state.2.registered id = true ∧ id ∉ state.2.rotated

-- the whole property of a run
structure KeptInStep (calls : List KeyCall) : Prop where
  inStep : ∀ before after, calls = before ++ after → InStep (Calls.run step ({}, {}) before)
  final : ∀ before between after id, calls = before ++ between ++ after →
    Status (Calls.run step ({}, {}) before).1 id .revoked →
      Status (Calls.run step ({}, {}) (before ++ between)).1 id .revoked ∧
        (Calls.run step ({}, {}) (before ++ between)).1.trustStore.resolve id = none
  undisturbed : ∀ before call after, calls = before ++ call :: after →
    ∀ e, ((Calls.run step ({}, {}) before).1.perform call).2 = .error e →
      AsBefore (Calls.run step ({}, {}) before).1
        ((Calls.run step ({}, {}) before).1.perform call).1

structure Sound (state : KeyLifecycleManager × Ledger) : Prop where
  settled : state.1.Settled
  inStep : InStep state
  rotated : ∀ id ∈ state.2.rotated, ∃ row ∈ state.1.rows, row.keyId = id

section Rows

variable {rows : List KeyRecord} {keyId id : Str} {Q : KeyRecord → Prop}

theorem exists_append {record : KeyRecord} :
    (∃ row ∈ rows ++ [record], row.keyId = id ∧ Q row) ↔
      (∃ row ∈ rows, row.keyId = id ∧ Q row) ∨ record.keyId = id ∧ Q record := by
  simp only [List.mem_append, List.mem_singleton, or_and_right, exists_or, exists_eq_left]

theorem exists_changed (change : KeyRecord → KeyRecord)
    (hkeys : ∀ row, (change row).keyId = row.keyId) :
    (∃ row ∈ rows.map (fun row => if row.keyId = keyId then change row else row),
      row.keyId = id ∧ Q row) ↔
    ∃ row ∈ rows, row.keyId = id ∧ Q (if id = keyId then change row else row) := by
  simp only [List.mem_map, exists_exists_and_eq_and]
  refine exists_congr fun row => and_congr_right fun _ => ?_
  by_cases hrow : row.keyId = keyId
  · rw [if_pos hrow, hkeys]
    refine and_congr_right fun hid => ?_
    rw [if_pos (hid.symm.trans hrow)]
  · rw [if_neg hrow]
    refine and_congr_right fun hid => ?_
    rw [if_neg (fun h => hrow (hid.trans h))]

theorem changed_sameKeys (rows : List KeyRecord) {change : KeyRecord → KeyRecord}
    (hkeys : ∀ row, (change row).keyId = row.keyId) :
    (rows.map (fun row => if row.keyId = keyId then change row else row)).map KeyRecord.keyId =
      rows.map KeyRecord.keyId := by
  rw [List.map_map]
  refine List.map_congr_left fun row _ => ?_
  simp only [Function.comp]
  split
  · exact hkeys row
  · rfl

end Rows

section Preservation

variable {ledger : Ledger} {keyId : Str} {store : TrustStore}

theorem Sound.untrusted (h : Sound (manager, ledger)) {id : Str}
    (hrevoked : Status manager id .revoked) : manager.trustStore.resolve id = none := by
  obtain ⟨row, hrow, hid, hstatus⟩ := hrevoked
  rw [Option.eq_none_iff_forall_ne_some]
  intro key hkey
  obtain ⟨row', hrow', hid', hlive⟩ := (h.inStep.trusted id).mpr ⟨key, hkey⟩
  obtain rfl := List.inj_on_of_nodup_map h.settled.distinct hrow hrow' (hid.trans hid'.symm)
  exact hlive hstatus

theorem Sound.of_asBefore {manager' : KeyLifecycleManager} (h : Sound (manager, ledger))
    (hsame : manager.AsBefore manager') : Sound (manager', ledger) := by
  obtain ⟨hstore, hrows, htable⟩ := hsame
  obtain ⟨⟨hdistinct, hcommitted⟩, ⟨htrusted, hgiven, hactive⟩, hrotated⟩ := h
  constructor
  · exact ⟨by rwa [hrows], by rw [hrows, htable, hcommitted]⟩
  · constructor
    · simpa only [Unrevoked, hrows, hstore] using htrusted
    · simpa only [hstore] using hgiven
    · simpa only [Status, hrows] using hactive
  · simpa only [hrows] using hrotated

theorem Sound.registered {provider : Str} {publicKey : List UInt8} {now : PyFloat}
    (h : Sound (manager, ledger)) (hnew : manager.Registrable keyId provider publicKey)
    (hadd : manager.trustStore.add keyId ⟨publicKey⟩ = .ok store) :
    Sound (⟨store, manager.rows ++ [⟨keyId, provider, .active, now, none⟩], none⟩,
      { ledger with registered := Dict.set ledger.registered keyId ⟨publicKey⟩ }) := by
  have hfresh := not_mem_of_fresh hnew.fresh
  refine ⟨⟨?_, rfl⟩, ⟨?_, ?_, ?_⟩, ?_⟩
  · rw [rows, Option.getD_none, List.map_append, List.nodup_append]
    refine ⟨h.settled.distinct, by simp, ?_⟩
    intro id hid id' hid'
    obtain ⟨row, hrow, rfl⟩ := List.mem_map.mp hid
    obtain rfl := List.mem_singleton.mp hid'
    exact hfresh row hrow
  · intro id
    refine Iff.trans exists_append ?_
    rw [TrustStore.resolve_of_add hadd]
    by_cases hid : keyId = id
    · rw [if_pos hid]
      exact iff_of_true (Or.inr ⟨hid, by simp⟩) ⟨_, rfl⟩
    · rw [if_neg hid]
      simp only [hid, false_and, or_false]
      exact h.inStep.trusted id
  · intro id key hkey
    rw [TrustStore.resolve_of_add hadd] at hkey
    rw [Dict.get_set_eq]
    split
    · rename_i hid
      rwa [if_pos hid] at hkey
    · rename_i hid
      rw [if_neg hid] at hkey
      exact h.inStep.given id key hkey
  · intro id hstatus
    simp only [Dict.has_set_eq, Bool.or_eq_true, decide_eq_true_eq]
    rcases exists_append.mp hstatus with hold | ⟨rfl, -⟩
    · obtain ⟨hhas, hrotated⟩ := h.inStep.active id hold
      exact ⟨Or.inr hhas, hrotated⟩
    · refine ⟨Or.inl rfl, fun hrotated => ?_⟩
      obtain ⟨row, hrow, hid⟩ := h.rotated _ hrotated
      exact hfresh row hrow hid
  · intro id hid
    obtain ⟨row, hrow, hrowId⟩ := h.rotated id hid
    exact ⟨row, List.mem_append_left _ hrow, hrowId⟩

theorem exists_key_changed {change : KeyRecord → KeyRecord}
    (hkeys : ∀ row, (change row).keyId = row.keyId) {id : Str}
    (h : ∃ row ∈ manager.rows, row.keyId = id) :
    ∃ row ∈ manager.rows.map (fun row => if row.keyId = keyId then change row else row),
      row.keyId = id := by
  obtain ⟨row, hrow, hid⟩ := h
  refine ⟨_, List.mem_map_of_mem hrow, ?_⟩
  split
  · exact (hkeys row).trans hid
  · exact hid

theorem Sound.rotate (h : Sound (manager, ledger)) (hactive : Status manager keyId .active) :
    Sound (⟨manager.trustStore, rotatedRows keyId manager.rows, none⟩,
      { ledger with rotated := keyId :: ledger.rotated }) := by
  have hkeys : ∀ row : KeyRecord, { row with status := KeyStatus.rotated }.keyId = row.keyId :=
    fun _ => rfl
  obtain ⟨record, hrecord, hid, hstatus⟩ := hactive
  refine ⟨⟨?_, rfl⟩, ⟨?_, h.inStep.given, ?_⟩, ?_⟩
  · rw [rows, Option.getD_none, rotatedRows, changed_sameKeys _ hkeys]
    exact h.settled.distinct
  · intro id
    refine Iff.trans (exists_changed _ hkeys) (Iff.trans ?_ (h.inStep.trusted id))
    refine exists_congr fun row => and_congr_right fun hrow => and_congr_right fun hrowId => ?_
    split
    · rename_i hsame
      obtain rfl := List.inj_on_of_nodup_map h.settled.distinct hrow hrecord
        (by rw [hrowId, hsame, hid])
      exact iff_of_true (by simp) (by simp [hstatus])
    · rfl
  · intro id hstatus'
    obtain ⟨row, hrow, hrowId, hlive⟩ := (exists_changed _ hkeys).mp hstatus'
    by_cases hsame : id = keyId
    · rw [if_pos hsame] at hlive
      cases hlive
    · rw [if_neg hsame] at hlive
      obtain ⟨hhas, hrotated⟩ := h.inStep.active id ⟨row, hrow, hrowId, hlive⟩
      exact ⟨hhas, by simpa using ⟨hsame, hrotated⟩⟩
  · intro id hmem
    refine exists_key_changed hkeys ?_
    rcases List.mem_cons.mp hmem with rfl | hmem
    · exact ⟨record, hrecord, hid⟩
    · exact h.rotated id hmem

theorem Sound.revoked {now : PyFloat} (h : Sound (manager, ledger))
    (hrevoke : manager.trustStore.revoke keyId = .ok store) :
    Sound (⟨store, revokedRows keyId now manager.rows, none⟩, ledger) := by
  have hkeys : ∀ row : KeyRecord,
      { row with status := KeyStatus.revoked, revokedAt := some now }.keyId = row.keyId :=
    fun _ => rfl
  refine ⟨⟨?_, rfl⟩, ⟨?_, ?_, ?_⟩, ?_⟩
  · rw [rows, Option.getD_none, revokedRows_sameKeys now]
    exact h.settled.distinct
  · intro id
    refine Iff.trans (exists_changed _ hkeys) ?_
    rw [TrustStore.resolve_of_revoke hrevoke]
    by_cases hid : keyId = id
    · subst hid
      simp
    · rw [if_neg hid]
      simp only [if_neg (Ne.symm hid)]
      exact h.inStep.trusted id
  · intro id key hkey
    rw [TrustStore.resolve_of_revoke hrevoke] at hkey
    split at hkey
    · cases hkey
    · exact h.inStep.given id key hkey
  · intro id hstatus
    obtain ⟨row, hrow, hrowId, hlive⟩ := (exists_changed _ hkeys).mp hstatus
    split at hlive
    · cases hlive
    · exact h.inStep.active id ⟨row, hrow, hrowId, hlive⟩
  · intro id hid
    exact exists_key_changed hkeys (h.rotated id hid)

end Preservation

section Steps

variable {state : KeyLifecycleManager × Ledger}

theorem Sound.outcome (h : Sound state) (hcall : state.1.Orderly call) :
    state.1.Outcome call (state.1.perform call) :=
  outcome_of_orderly h.settled
    (fun row hrow hstatus => Sound.untrusted h ⟨row, hrow, rfl, hstatus⟩) hcall

theorem sound_step (h : Sound state) (hcall : state.1.Orderly call) : Sound (step state call) := by
  obtain ⟨manager, ledger⟩ := state
  have houtcome := h.outcome hcall
  rw [step]
  generalize manager.perform call = result at houtcome
  cases houtcome with
  | raised e hsame => exact h.of_asBefore hsame
  | registered record hnew hadd => exact h.registered hnew hadd
  | rotated record hrotatable hadd =>
      obtain ⟨⟨old, hold, hactive⟩, hnew⟩ := hrotatable
      obtain ⟨hmem, hid⟩ := mem_of_get hold
      exact (h.registered hnew hadd).rotate ⟨old, List.mem_append_left _ hmem, hid, hactive⟩
  | revoked record hrevoke => exact h.revoked hrevoke

theorem revoked_step (h : Sound state) (hcall : state.1.Orderly call) {id : Str}
    (hrevoked : Status state.1 id .revoked) : Status (step state call).1 id .revoked := by
  obtain ⟨manager, ledger⟩ := state
  have houtcome := h.outcome hcall
  rw [step]
  generalize manager.perform call = result at houtcome
  cases houtcome with
  | raised e hsame => simpa only [Status, hsame.rows] using hrevoked
  | registered record hnew hadd => exact exists_append.mpr (Or.inl hrevoked)
  | rotated record hrotatable hadd =>
      obtain ⟨⟨old, hold, hactive⟩, -⟩ := hrotatable
      obtain ⟨hmem, hid⟩ := mem_of_get hold
      have hother : id ≠ old.keyId := by
        rintro rfl
        obtain ⟨row, hrow, hrowId, hstatus⟩ := hrevoked
        obtain rfl := h.settled.eq_of_get hold hrow (hrowId.trans hid)
        rw [hactive] at hstatus
        cases hstatus
      refine (exists_changed (fun row => { row with status := .rotated })
        fun _ => rfl).mpr ?_
      simp only [← hid, if_neg hother]
      exact exists_append.mpr (Or.inl hrevoked)
  | @revoked keyId now fault store record hrevoke =>
      refine (exists_changed (fun row =>
        { row with status := .revoked, revokedAt := some now }) fun _ => rfl).mpr ?_
      obtain ⟨row, hrow, hrowId, hstatus⟩ := hrevoked
      refine ⟨row, hrow, hrowId, ?_⟩
      split
      · rfl
      · exact hstatus

-- a key that a raising call has trusted, or ceased to trust, is not as it was
theorem not_asBefore_of_resolve {manager manager' : KeyLifecycleManager} (id : Str)
    (h : manager'.trustStore.resolve id ≠ manager.trustStore.resolve id) :
    ¬ manager.AsBefore manager' :=
  fun hsame => h (by rw [hsame.trustStore])

theorem interrupted_trustStore {manager : KeyLifecycleManager} {store : TrustStore}
    {rows : List KeyRecord} {fault : KeyFault} :
    (manager.interrupted store rows fault).trustStore = store := by
  unfold interrupted
  split <;> rfl

-- a revocation that is interrupted and leaves no trace had nothing to revoke
theorem revoked_of_asBefore {manager : KeyLifecycleManager} {ledger : Ledger} {keyId : Str}
    {now : PyFloat} {record : KeyRecord} {store : TrustStore} {fault : KeyFault}
    (h : Sound (manager, ledger)) (hget : manager.get keyId = .ok record)
    (hrevoke : manager.trustStore.revoke keyId = .ok store)
    (hbefore : manager.AsBefore
      (manager.interrupted store (revokedRows keyId now manager.rows) fault)) :
    record.status = .revoked := by
  obtain ⟨hrecord, hkey⟩ := mem_of_get hget
  by_contra hlive
  obtain ⟨key, hresolve⟩ := (h.inStep.trusted keyId).mp ⟨record, hrecord, hkey, hlive⟩
  refine not_asBefore_of_resolve keyId ?_ hbefore
  rw [hresolve, interrupted_trustStore, TrustStore.resolve_of_revoke hrevoke, if_pos rfl]
  simp

theorem undisturbed_iff (h : Sound state) :
    (∀ e, (state.1.perform call).2 = .error e → AsBefore state.1 (state.1.perform call).1) ↔
      state.1.Orderly call := by
  obtain ⟨manager, ledger⟩ := state
  constructor
  · intro hsame
    have hadded {store : TrustStore} {keyId : Str} {publicKey : List UInt8}
        (hadd : manager.trustStore.add keyId ⟨publicKey⟩ = .ok store)
        (hraises : (manager.perform call).1.trustStore = store ∧
          ∃ e, (manager.perform call).2 = .error e) : False := by
      obtain ⟨hstore, e, he⟩ := hraises
      refine not_asBefore_of_resolve keyId ?_ (hsame e he)
      rw [hstore, TrustStore.resolve_add hadd, TrustStore.resolve_before_add hadd]
      simp
    cases call with
    | register keyId provider publicKey now fault =>
        intro hregistrable
        by_contra hlate
        rw [not_or, not_and_or, Bool.not_eq_true] at hlate
        obtain ⟨store, hadd⟩ := hregistrable.untrusted
        exact hadded hadd (register_raises now hregistrable hlate.1 hlate.2 hadd)
    | rotate oldKeyId newKeyId provider newPublicKey now fault =>
        intro hrotatable
        by_contra hlate
        rw [not_or, not_or, not_and_or, Bool.not_eq_true] at hlate
        obtain ⟨store, hadd⟩ := hrotatable.registrable.untrusted
        exact hadded hadd (rotate_raises now hrotatable hlate.1 hlate.2.1 hlate.2.2 hadd)
    | revoke keyId now fault =>
        intro record hget hhas
        obtain ⟨store, hrevoke⟩ := revoke_isOk hhas
        rcases fault with - | fault
        · exact Or.inl rfl
        by_cases hselect : fault = .select
        · exact Or.inr (Or.inl (congrArg some hselect))
        obtain ⟨e, he⟩ := revoke_raises now hget hrevoke hselect
        have hbefore := hsame e (by rw [perform, he])
        rw [perform, he] at hbefore
        have hstatus := revoked_of_asBefore h hget hrevoke hbefore
        have huntrusted := h.untrusted ⟨record, (mem_of_get hget).1, (mem_of_get hget).2, hstatus⟩
        rw [asBefore_interrupted h.settled hget hstatus huntrusted hrevoke] at hbefore
        exact Or.inr (Or.inr ⟨hstatus, by simpa using hbefore⟩)
  · intro hcall e he
    have houtcome := h.outcome hcall
    generalize manager.perform call = result at houtcome he
    cases houtcome with
    | raised e hsame => exact hsame
    | registered => cases he
    | rotated => cases he
    | revoked => cases he

end Steps

theorem sound_start : Sound ({}, {}) := by
  refine ⟨⟨List.nodup_nil, rfl⟩, ⟨?_, ?_, ?_⟩, ?_⟩
  · intro id
    simp [Unrevoked, rows, TrustStore.resolve, TrustStore.empty]
  · intro id key hkey
    simp [TrustStore.resolve, TrustStore.empty] at hkey
  · rintro id ⟨row, hrow, -⟩
    cases hrow
  · intro id hid
    cases hid

theorem sound_run {calls : List KeyCall}
    (h : Calls.Each step (fun state call => state.1.Orderly call) ({}, {}) calls) :
    Sound (Calls.run step ({}, {}) calls) :=
  Calls.stable (A := Sound) (fun _ _ hcall hsound => sound_step hsound hcall) h sound_start

-- in step in every state, exactly as long as no call raises after it has changed the trust store
theorem key_lifecycle_in_step (calls : List KeyCall) :
    KeptInStep calls ↔
      Calls.Each step (fun state call => state.1.Orderly call) ({}, {}) calls := by
  constructor
  · intro h
    refine (Calls.each_congr (A := Sound) (fun state call hsound => undisturbed_iff hsound)
      (fun state call hsound hcall => sound_step hsound hcall) sound_start).mp ?_
    exact Calls.each_iff.mpr h.undisturbed
  · intro h
    constructor
    · rintro before after rfl
      exact (sound_run (Calls.each_append.mp h).1).inStep
    · rintro before between after id rfl hrevoked
      obtain ⟨hbefore, hbetween⟩ := Calls.each_append.mp (Calls.each_append.mp h).1
      obtain ⟨hsound, hstays⟩ := Calls.stable
        (A := fun state => Sound state ∧ Status state.1 id .revoked)
        (fun _ _ hcall hstate => ⟨sound_step hstate.1 hcall, revoked_step hstate.1 hcall hstate.2⟩)
        hbetween ⟨sound_run hbefore, hrevoked⟩
      rw [Calls.run_append]
      exact ⟨hstays, Sound.untrusted hsound hstays⟩
    · rintro before call after rfl
      obtain ⟨hbefore, hcall, -⟩ := Calls.each_append.mp h
      exact (undisturbed_iff (sound_run hbefore)).mpr hcall

-- the row of a provider that is no UTF-8 text is refused after its key is trusted
theorem key_lifecycle_out_of_step : ¬ KeptInStep
    [.register "k" [⟨0xD800, by decide⟩] (List.replicate 32 1) (.ofDecimal false 1) none] := by
  intro h
  obtain ⟨row, hrow, -⟩ := ((h.inStep _ [] (List.append_nil _).symm).trusted "k").mpr
    ⟨⟨List.replicate 32 1⟩, by decide +kernel⟩
  have hempty : (Calls.run step ({}, {}) [.register "k" [⟨0xD800, by decide⟩]
      (List.replicate 32 1) (.ofDecimal false 1) none]).1.rows.length = 0 := by
    decide +kernel
  rw [List.length_eq_zero_iff] at hempty
  rw [hempty] at hrow
  cases hrow

end KeyLifecycleManager

end GovernedAutonomy
