import GovernedAutonomy.AllOrNothing
import GovernedAutonomy.PolicyLoad

namespace GovernedAutonomy

open Python RegistryEntry GovernanceReconciler

namespace RawRegistry

variable {P : Primitives} {trustStore : Option TrustStore} {registry registry' : RawRegistry}
  {entries : List RegistryEntry} {manifest : RawManifest}
  {kept : Trail → Option RawManifest}

section Steps

theorem adopt_trustStore (h : registry.adopt P manifest = .ok registry') :
    registry'.trustStore = registry.trustStore := by
  obtain ⟨middle, hmiddle, h⟩ := bind_eq_ok.mp h
  obtain rfl := Except.ok.inj h
  obtain ⟨-, -, rfl⟩ := register_eq_ok.mp hmiddle
  rfl

theorem accepted_trustStore (h : Accepted P registry registry' manifest) :
    registry'.trustStore = registry.trustStore := by
  cases h with
  | unknown _ h => exact adopt_trustStore h
  | newer _ _ h => exact adopt_trustStore h
  | idempotent _ _ _ h => rw [h]

theorem checkPersisted_eq_ok {u : Unit} : checkPersisted P trustStore manifest = .ok u ↔
    ∀ store, trustStore = some store → manifest.Verified P store := by
  cases trustStore with
  | none => simp [checkPersisted]
  | some store =>
      simp only [checkPersisted, bind_eq_ok, raiseIf_eq_ok, Bool.not_eq_false, Option.some.injEq,
        forall_eq', ← RawManifest.verify_eq_ok]
      constructor
      · rintro ⟨verified, hverified, rfl⟩
        exact hverified
      · intro h
        exact ⟨true, h, rfl⟩

theorem enter_signed_eq_ok (hstore : registry.trustStore = trustStore) :
    registry.enter P trustStore (.signed manifest) = .ok registry' ↔
      Backed P trustStore manifest ∧ Accepted P registry registry' manifest := by
  have hverifies : Verifies P registry manifest trustStore ↔ Backed P trustStore manifest := by
    rw [Verifies, hstore, Option.or_self, Backed]
  simp only [enter, bind_eq_ok, checkPersisted_eq_ok, registerSigned_eq_ok, hverifies]
  constructor
  · rintro ⟨-, -, h⟩
    exact h
  · rintro ⟨⟨store, hbacked, hverified⟩, haccepted⟩
    refine ⟨(), ?_, ⟨store, hbacked, hverified⟩, haccepted⟩
    rintro store' hstore'
    rw [hbacked] at hstore'
    exact Option.some.inj hstore' ▸ hverified

theorem put_eq_ok {policy : RawPolicy} {version : ℤ} :
    registry.put policy version = .ok registry' ↔ policy.policyId.hashable = true ∧
      registry' =
        { registry with
          policies := Dict.set registry.policies policy.policyId policy
          versions := Dict.set registry.versions policy.policyId version } := by
  simp only [put, bind_eq_ok, PyVal.store_eq_ok, Except.ok.injEq]
  constructor
  · rintro ⟨policies, ⟨hhashable, rfl⟩, versions, ⟨-, rfl⟩, rfl⟩
    exact ⟨hhashable, rfl⟩
  · rintro ⟨hhashable, rfl⟩
    exact ⟨_, ⟨hhashable, rfl⟩, _, ⟨hhashable, rfl⟩, rfl⟩

-- what overwriting with a manifest leaves in the registry
def overwritten (registry : RawRegistry) (manifest : RawManifest) : RawRegistry :=
  { registry with
    policies := Dict.set registry.policies manifest.policy.policyId manifest.policy
    versions := Dict.set registry.versions manifest.policy.policyId manifest.version
    signedManifests := Dict.set registry.signedManifests manifest.policy.policyId manifest }

theorem overwrite_signed_eq_ok :
    registry.overwrite P trustStore (.signed manifest) = .ok registry' ↔
      (∀ store, trustStore = some store → manifest.Verified P store) ∧
        manifest.policy.policyId.hashable = true ∧ registry' = registry.overwritten manifest := by
  simp only [overwrite, bind_eq_ok, checkPersisted_eq_ok, PyVal.store_eq_ok, put_eq_ok]
  constructor
  · rintro ⟨-, hverified, manifests, ⟨hhashable, rfl⟩, -, rfl⟩
    exact ⟨hverified, hhashable, rfl⟩
  · rintro ⟨hverified, hhashable, rfl⟩
    exact ⟨(), hverified, _, ⟨hhashable, rfl⟩, hhashable, rfl⟩

theorem Reads.put {policy : RawPolicy} {version : ℤ} (h : Reads P kept entries registry)
    (hput : registry.put policy version = .ok registry')
    (hkept : ∀ trail, kept (Trail.note trail (.plain policy version)) = kept trail) :
    Reads P kept (entries ++ [.plain policy version]) registry' := by
  obtain ⟨-, rfl⟩ := put_eq_ok.mp hput
  have hid : (RegistryEntry.plain policy version).policyId = policy.policyId := rfl
  refine ⟨fun policyId => ?_, fun policyId => ?_, fun policyId => ?_, ?_⟩
  · rw [Trail.of_snoc, hid, Dict.get_set]
    split
    · rfl
    · exact h.policies policyId
  · rw [Trail.of_snoc, hid, Dict.get_set]
    split
    · rfl
    · exact h.versions policyId
  · rw [Trail.of_snoc, hid]
    split
    · rw [hkept]
      exact h.signedManifests policyId
    · exact h.signedManifests policyId
  · rw [filed_snoc, hid]
    exact Dict.keys_set_congr h.keys _ _ _

theorem Reads.replaced (h : Reads P kept entries registry)
    (hpolicies : registry'.policies =
      Dict.set registry.policies manifest.policy.policyId manifest.policy)
    (hversions : ∀ policyId, Dict.get registry'.versions policyId =
      if Keyed.same manifest.policy.policyId policyId = true then some manifest.version
      else Dict.get registry.versions policyId)
    (hsigned : registry'.signedManifests =
      Dict.set registry.signedManifests manifest.policy.policyId manifest)
    (hkept : kept ((Trail.of entries manifest.policy.policyId).note (.signed manifest)) =
      some manifest) :
    Reads P kept (entries ++ [.signed manifest]) registry' := by
  have hid : (RegistryEntry.signed manifest).policyId = manifest.policy.policyId := rfl
  refine ⟨fun policyId => ?_, fun policyId => ?_, fun policyId => ?_, ?_⟩
  · rw [Trail.of_snoc, hid, hpolicies, Dict.get_set]
    split
    · rfl
    · exact h.policies policyId
  · rw [Trail.of_snoc, hid, hversions]
    split
    · rfl
    · exact h.versions policyId
  · rw [Trail.of_snoc, hid, hsigned, Dict.get_set]
    split
    · rename_i heq
      rw [← Trail.of_congr entries heq, hkept]
    · exact h.signedManifests policyId
  · rw [filed_snoc, hid, hpolicies]
    exact Dict.keys_set_congr h.keys _ _ _

theorem Reads.last_none (h : Reads P kept entries registry) {policyId : PyVal} :
    Dict.get registry.policies policyId = none ↔ (Trail.of entries policyId).last = none := by
  rw [← Option.map_eq_none_iff (f := RawPolicy.content P), h.policies, Option.map_eq_none_iff]

theorem Reads.last_some (h : Reads P kept entries registry) {policyId : PyVal} {policy : RawPolicy}
    (hget : Dict.get registry.policies policyId = some policy) :
    ∃ entry, (Trail.of entries policyId).last = some entry ∧
      entry.policy.content P = policy.content P ∧ registry.version policyId = entry.version := by
  have hcontent := h.policies policyId
  rw [hget, Option.map_some, eq_comm, Option.map_eq_some_iff] at hcontent
  obtain ⟨entry, hlast, hcontent⟩ := hcontent
  refine ⟨entry, hlast, hcontent, ?_⟩
  rw [version, h.versions, hlast, Option.map_some, Option.getD_some]

theorem Reads.precedes_iff (h : Reads P kept entries registry) :
    Precedes P (Trail.of entries manifest.policy.policyId) manifest ↔
      ∀ current, Dict.get registry.policies manifest.policy.policyId = some current →
        current.SameDigest P manifest.policy ∧
          registry.version manifest.policy.policyId ≤ manifest.version := by
  cases hget : Dict.get registry.policies manifest.policy.policyId with
  | none => simp [Precedes, h.last_none.mp hget]
  | some current =>
      obtain ⟨entry, hlast, hcontent, hversion⟩ := h.last_some hget
      simp only [Precedes, hlast, Option.some.injEq, forall_eq', hversion,
        RawPolicy.sameDigest_congr hcontent]

theorem Reads.accepted (h : Reads P Trail.kept entries registry)
    (haccepted : Accepted P registry registry' manifest) :
    Reads P Trail.kept (entries ++ [.signed manifest]) registry' := by
  have hadopted (hadopts : Adopts P registry registry' manifest)
      (hadvances : (Trail.of entries manifest.policy.policyId).advances manifest = true) :
      Reads P Trail.kept (entries ++ [.signed manifest]) registry' :=
    h.replaced hadopts.policies hadopts.versions hadopts.signedManifests
      (by simp [Trail.note, hadvances])
  cases haccepted with
  | unknown hget hadopt =>
      exact hadopted (adopts_of_adopt hadopt) (by simp [Trail.advances, h.last_none.mp hget])
  | newer hget hversion hadopt =>
      obtain ⟨entry, hlast, -, hentry⟩ := h.last_some hget
      rw [hentry] at hversion
      exact hadopted (adopts_of_adopt hadopt) (by simp [Trail.advances, hlast, hversion])
  | @idempotent current hget hversion hsame heq =>
      obtain ⟨entry, hlast, hcontent, hentry⟩ := h.last_some hget
      rw [hentry] at hversion
      have hid : (RegistryEntry.signed manifest).policyId = manifest.policy.policyId := rfl
      have hstays : (Trail.of entries manifest.policy.policyId).advances manifest = false := by
        simp [Trail.advances, hlast, hversion]
      subst heq
      have hself {policyId : PyVal} (hsame : Keyed.same manifest.policy.policyId policyId = true) :
          Trail.of entries policyId = Trail.of entries manifest.policy.policyId :=
        (Trail.of_congr entries hsame).symm
      refine ⟨fun policyId => ?_, fun policyId => ?_, fun policyId => ?_, ?_⟩
      · rw [Trail.of_snoc, hid]
        split
        · rename_i heq
          rw [Trail.note_last, ← Dict.get_congr _ heq, hget]
          exact congrArg some (RawPolicy.content_of_sameDigest hsame)
        · exact h.policies policyId
      · rw [Trail.of_snoc, hid]
        split
        · rename_i heq
          rw [Trail.note_last, h.versions, hself heq, hlast]
          exact congrArg some hversion.symm
        · exact h.versions policyId
      · rw [Trail.of_snoc, hid, h.signedManifests]
        split
        · rename_i heq
          rw [hself heq]
          simp [Trail.note, hstays]
        · rfl
      · rw [filed_snoc, hid, ← Dict.keys_set_congr h.keys _ manifest.policy]
        exact (Dict.keys_set_of_has (by rw [Dict.has, hget, Option.isSome_some]) _).symm

end Steps

section Runs

-- what from_dict asks of the entries, and what _load does
structure Enters (P : Primitives) (trustStore : Option TrustStore)
    (entries : List RegistryEntry) : Prop where
  hashable : ∀ entry ∈ entries, entry.policyId.hashable = true
  backed : ∀ manifest, .signed manifest ∈ entries → Backed P trustStore manifest
  successive : Successive P entries

structure Passes (P : Primitives) (trustStore : Option TrustStore)
    (entries : List RegistryEntry) : Prop where
  hashable : ∀ entry ∈ entries, entry.policyId.hashable = true
  verified : ∀ manifest, .signed manifest ∈ entries →
    ∀ store, trustStore = some store → manifest.Verified P store

theorem passes_of_enters (h : Enters P trustStore entries) : Passes P trustStore entries := by
  refine ⟨h.hashable, fun manifest hmem store hstore => ?_⟩
  obtain ⟨store', hstore', hverified⟩ := h.backed manifest hmem
  rw [hstore] at hstore'
  exact Option.some.inj hstore' ▸ hverified

theorem forall_signed_snoc {entry : RegistryEntry} {Q : RawManifest → Prop} :
    (∀ manifest, .signed manifest ∈ entries ++ [entry] → Q manifest) ↔
      (∀ manifest, .signed manifest ∈ entries → Q manifest) ∧
        ∀ manifest, entry = .signed manifest → Q manifest := by
  simp only [List.mem_append, List.mem_singleton, or_imp, forall_and, eq_comm]

theorem forall_mem_snoc {entry : RegistryEntry} {Q : RegistryEntry → Prop} :
    (∀ e ∈ entries ++ [entry], Q e) ↔ (∀ e ∈ entries, Q e) ∧ Q entry := by
  rw [List.forall_mem_append, List.forall_mem_singleton]

theorem enters_snoc {entry : RegistryEntry} : Enters P trustStore (entries ++ [entry]) ↔
    Enters P trustStore entries ∧ entry.policyId.hashable = true ∧
      ∀ manifest, entry = .signed manifest → Backed P trustStore manifest ∧
        Precedes P (Trail.of entries manifest.policy.policyId) manifest := by
  constructor
  · intro h
    obtain ⟨hhashable, hentry⟩ := forall_mem_snoc.mp h.hashable
    obtain ⟨hbacked, hlast⟩ := forall_signed_snoc.mp h.backed
    obtain ⟨hsuccessive, hprecedes⟩ := successive_snoc.mp h.successive
    exact ⟨⟨hhashable, hbacked, hsuccessive⟩, hentry,
      fun manifest he => ⟨hlast manifest he, hprecedes manifest he⟩⟩
  · rintro ⟨h, hentry, hlast⟩
    exact ⟨forall_mem_snoc.mpr ⟨h.hashable, hentry⟩,
      forall_signed_snoc.mpr ⟨h.backed, fun manifest he => (hlast manifest he).1⟩,
      successive_snoc.mpr ⟨h.successive, fun manifest he => (hlast manifest he).2⟩⟩

theorem passes_snoc {entry : RegistryEntry} : Passes P trustStore (entries ++ [entry]) ↔
    Passes P trustStore entries ∧ entry.policyId.hashable = true ∧
      ∀ manifest, entry = .signed manifest →
        ∀ store, trustStore = some store → manifest.Verified P store := by
  constructor
  · intro h
    obtain ⟨hhashable, hentry⟩ := forall_mem_snoc.mp h.hashable
    obtain ⟨hverified, hlast⟩ := forall_signed_snoc.mp h.verified
    exact ⟨⟨hhashable, hverified⟩, hentry, hlast⟩
  · rintro ⟨h, hentry, hlast⟩
    exact ⟨forall_mem_snoc.mpr ⟨h.hashable, hentry⟩, forall_signed_snoc.mpr ⟨h.verified, hlast⟩⟩

theorem put_trustStore {policy : RawPolicy} {version : ℤ}
    (h : registry.put policy version = .ok registry') :
    registry'.trustStore = registry.trustStore := by
  obtain ⟨-, rfl⟩ := put_eq_ok.mp h
  rfl

theorem enters_of_entered
    (h : entries.foldlM (enter P trustStore) { trustStore := trustStore } = .ok registry) :
    Enters P trustStore entries ∧ Reads P Trail.kept entries registry ∧
      registry.trustStore = trustStore := by
  induction entries using List.reverseRecOn generalizing registry with
  | nil =>
      obtain rfl := Except.ok.inj h
      exact ⟨⟨by simp, by simp, successive_nil⟩, reads_nil rfl, rfl⟩
  | append_singleton entries entry ih =>
      obtain ⟨middle, hmiddle, hentry⟩ := foldlM_snoc.mp h
      obtain ⟨henters, hreads, hstore⟩ := ih hmiddle
      cases entry with
      | plain policy version =>
          exact ⟨enters_snoc.mpr ⟨henters, (put_eq_ok.mp hentry).1, by simp⟩,
            hreads.put hentry fun _ => rfl, (put_trustStore hentry).trans hstore⟩
      | signed manifest =>
          obtain ⟨hbacked, haccepted⟩ := (enter_signed_eq_ok hstore).mp hentry
          obtain ⟨store, hstore', hverified⟩ := hbacked
          refine ⟨enters_snoc.mpr ⟨henters, haccepted.hashable, ?_⟩, hreads.accepted haccepted,
            (accepted_trustStore haccepted).trans hstore⟩
          rintro manifest' heq
          obtain rfl := RegistryEntry.signed.inj heq
          exact ⟨⟨store, hstore', hverified⟩, hreads.precedes_iff.mpr
            ((exists_accepted hverified).mp ⟨registry, haccepted⟩).2⟩

theorem entered_of_enters (h : Enters P trustStore entries) :
    ∃ registry, entries.foldlM (enter P trustStore) { trustStore := trustStore } = .ok registry := by
  induction entries using List.reverseRecOn with
  | nil => exact ⟨_, rfl⟩
  | append_singleton entries entry ih =>
      obtain ⟨henters, hhashable, hlast⟩ := enters_snoc.mp h
      obtain ⟨middle, hmiddle⟩ := ih henters
      obtain ⟨-, hreads, hstore⟩ := enters_of_entered hmiddle
      cases entry with
      | plain policy version =>
          exact ⟨_, foldlM_snoc.mpr ⟨middle, hmiddle, put_eq_ok.mpr ⟨hhashable, rfl⟩⟩⟩
      | signed manifest =>
          obtain ⟨hbacked, hprecedes⟩ := hlast manifest rfl
          obtain ⟨store, -, hverified⟩ := id hbacked
          obtain ⟨registry, haccepted⟩ := (exists_accepted hverified).mpr
            ⟨hhashable, hreads.precedes_iff.mp hprecedes⟩
          exact ⟨registry, foldlM_snoc.mpr
            ⟨middle, hmiddle, (enter_signed_eq_ok hstore).mpr ⟨hbacked, haccepted⟩⟩⟩

theorem passes_of_overwritten
    (h : entries.foldlM (overwrite P trustStore) { trustStore := trustStore } = .ok registry) :
    Passes P trustStore entries ∧ Reads P Trail.signed entries registry := by
  induction entries using List.reverseRecOn generalizing registry with
  | nil =>
      obtain rfl := Except.ok.inj h
      exact ⟨⟨by simp, by simp⟩, reads_nil rfl⟩
  | append_singleton entries entry ih =>
      obtain ⟨middle, hmiddle, hentry⟩ := foldlM_snoc.mp h
      obtain ⟨hpasses, hreads⟩ := ih hmiddle
      cases entry with
      | plain policy version =>
          exact ⟨passes_snoc.mpr ⟨hpasses, (put_eq_ok.mp hentry).1, by simp⟩,
            hreads.put hentry fun _ => rfl⟩
      | signed manifest =>
          obtain ⟨hverified, hhashable, rfl⟩ := overwrite_signed_eq_ok.mp hentry
          refine ⟨passes_snoc.mpr ⟨hpasses, hhashable, ?_⟩,
            hreads.replaced rfl (fun policyId => Dict.get_set _ _ _ _) rfl rfl⟩
          rintro manifest' heq
          obtain rfl := RegistryEntry.signed.inj heq
          exact hverified

theorem overwritten_of_passes (h : Passes P trustStore entries) : ∃ registry,
    entries.foldlM (overwrite P trustStore) { trustStore := trustStore } = .ok registry := by
  induction entries using List.reverseRecOn with
  | nil => exact ⟨_, rfl⟩
  | append_singleton entries entry ih =>
      obtain ⟨hpasses, hhashable, hlast⟩ := passes_snoc.mp h
      obtain ⟨middle, hmiddle⟩ := ih hpasses
      cases entry with
      | plain policy version =>
          exact ⟨_, foldlM_snoc.mpr ⟨middle, hmiddle, put_eq_ok.mpr ⟨hhashable, rfl⟩⟩⟩
      | signed manifest =>
          exact ⟨_, foldlM_snoc.mpr ⟨middle, hmiddle,
            overwrite_signed_eq_ok.mpr ⟨hlast manifest rfl, hhashable, rfl⟩⟩⟩

end Runs

section Payloads

variable {value : PyVal}

def Decodes (value : PyVal) (entries : List RegistryEntry) : Prop :=
  ∃ d values, value = .dict d ∧ PyDict.hasOnly d ["policies"] = true ∧
    PyDict.hasAll d ["policies"] = true ∧ PyDict.getD d "policies" = .list values ∧
    values.mapM RegistryEntry.read = .ok entries

theorem Decodes.unique {entries' : List RegistryEntry} (h : Decodes value entries)
    (h' : Decodes value entries') : entries = entries' := by
  obtain ⟨d, values, rfl, -, -, hvalues, hread⟩ := h
  obtain ⟨d', values', hd, -, -, hvalues', hread'⟩ := h'
  obtain rfl := PyVal.dict.inj hd
  rw [hvalues] at hvalues'
  obtain rfl := PyVal.list.inj hvalues'
  rw [hread] at hread'
  exact Except.ok.inj hread'

theorem decodes_snapshot {values : List PyVal}
    (h : values.mapM RegistryEntry.read = .ok entries) :
    Decodes (.dict (PyDict.ofFields [("policies", .list values)])) entries := by
  refine ⟨_, values, rfl, ?_, ?_, PyDict.getD_of_get (by simp), h⟩
  · simp [PyDict.hasOnly, PyDict.ofFields]
  · simp [PyDict.hasAll, PyDict.has]

theorem entriesOf_eq_ok {message : String} {values : List PyVal} :
    entriesOf message value = .ok values ↔
      ∃ d, value = .dict d ∧ PyDict.hasOnly d ["policies"] = true ∧
        PyDict.hasAll d ["policies"] = true ∧ PyDict.getD d "policies" = .list values := by
  unfold entriesOf dictOf
  cases value with
  | dict d =>
      simp only [bind_eq_ok, raiseIf_eq_ok, not_or, Bool.not_eq_false, Except.ok.injEq,
        PyVal.dict.injEq, exists_const, exists_eq_left', and_assoc]
      refine and_congr_right fun _ => and_congr_right fun _ => ?_
      cases PyDict.getD d "policies" <;> simp
  | _ => simp [bind_eq_ok]

theorem fromDict_eq_ok : fromDict P value trustStore = .ok registry ↔
    ∃ entries, Decodes value entries ∧
      entries.foldlM (enter P trustStore) { trustStore := trustStore } = .ok registry := by
  simp only [fromDict, bind_eq_ok, entriesOf_eq_ok, readEach_eq_ok, Decodes]
  constructor
  · rintro ⟨values, ⟨d, hd, honly, hall, hvalues⟩, entries, hread, h⟩
    exact ⟨entries, ⟨d, values, hd, honly, hall, hvalues, hread⟩, h⟩
  · rintro ⟨entries, ⟨d, values, hd, honly, hall, hvalues, hread⟩, h⟩
    exact ⟨values, ⟨d, hd, honly, hall, hvalues⟩, entries, hread, h⟩

theorem load_eq_ok : load P (.ok value) trustStore = .ok registry ↔
    ∃ entries, Decodes value entries ∧
      entries.foldlM (overwrite P trustStore) { trustStore := trustStore } = .ok registry := by
  simp only [load, reraise_eq_ok, Except.ok.injEq, bind_eq_ok, entriesOf_eq_ok, readEach_eq_ok,
    Decodes, exists_eq_left']
  constructor
  · rintro ⟨values, ⟨d, hd, honly, hall, hvalues⟩, entries, hread, h⟩
    exact ⟨entries, ⟨d, values, hd, honly, hall, hvalues, hread⟩, h⟩
  · rintro ⟨entries, ⟨d, values, hd, honly, hall, hvalues, hread⟩, h⟩
    exact ⟨values, ⟨d, hd, honly, hall, hvalues⟩, entries, hread, h⟩

theorem fromDict_of_enters (hdecodes : Decodes value entries) (h : Enters P trustStore entries) :
    ∃ registry, fromDict P value trustStore = .ok registry := by
  obtain ⟨registry, hregistry⟩ := entered_of_enters h
  exact ⟨registry, fromDict_eq_ok.mpr ⟨entries, hdecodes, hregistry⟩⟩

theorem fromDict_reads (hdecodes : Decodes value entries)
    (h : fromDict P value trustStore = .ok registry) :
    Enters P trustStore entries ∧ Reads P Trail.kept entries registry := by
  obtain ⟨entries', hdecodes', hentered⟩ := fromDict_eq_ok.mp h
  obtain rfl := hdecodes'.unique hdecodes
  obtain ⟨henters, hreads, -⟩ := enters_of_entered hentered
  exact ⟨henters, hreads⟩

theorem load_of_passes (hdecodes : Decodes value entries) (h : Passes P trustStore entries) :
    ∃ registry, load P (.ok value) trustStore = .ok registry := by
  obtain ⟨registry, hregistry⟩ := overwritten_of_passes h
  exact ⟨registry, load_eq_ok.mpr ⟨entries, hdecodes, hregistry⟩⟩

theorem load_reads (hdecodes : Decodes value entries)
    (h : load P (.ok value) trustStore = .ok registry) :
    Passes P trustStore entries ∧ Reads P Trail.signed entries registry := by
  obtain ⟨entries', hdecodes', hwritten⟩ := load_eq_ok.mp h
  obtain rfl := hdecodes'.unique hdecodes
  exact passes_of_overwritten hwritten

end Payloads

section Agreement

structure SameContents (P : Primitives) (registry registry' : RawRegistry) : Prop where
  policies : ∀ policyId, (Dict.get registry.policies policyId).map (RawPolicy.content P) =
    (Dict.get registry'.policies policyId).map (RawPolicy.content P)
  versions : ∀ policyId,
    Dict.get registry.versions policyId = Dict.get registry'.versions policyId
  signedManifests : ∀ policyId,
    (Dict.get registry.signedManifests policyId).map (RawManifest.record P) =
      (Dict.get registry'.signedManifests policyId).map (RawManifest.record P)

structure LoadersAgree (P : Primitives) (value : PyVal) (trustStore : Option TrustStore) :
    Prop where
  accepts : (∃ registry, fromDict P value trustStore = .ok registry) ↔
    ∃ registry, load P (.ok value) trustStore = .ok registry
  same : ∀ registry registry', fromDict P value trustStore = .ok registry →
    load P (.ok value) trustStore = .ok registry' → SameContents P registry registry'
  closed : ∀ registry, fromDict P value trustStore = .ok registry ∨
    load P (.ok value) trustStore = .ok registry → ∀ entries, Decodes value entries →
      ∀ manifest, .signed manifest ∈ entries →
        ∃ store, trustStore = some store ∧ manifest.verify P store = .ok true

-- a manifest needs a trust store, the digest of the entry of its id before it and a version not
-- below that entry's; the last manifest of an id is the last that raised the version, or says
-- the same
structure Unambiguous (P : Primitives) (trustStore : Option TrustStore)
    (entries : List RegistryEntry) : Prop where
  store : ∀ manifest, .signed manifest ∈ entries → trustStore ≠ none
  successive : Successive P entries
  kept : ∀ policyId, (Trail.of entries policyId).kept.map (RawManifest.record P) =
    (Trail.of entries policyId).signed.map (RawManifest.record P)

theorem enters_of_unambiguous (h : Unambiguous P trustStore entries)
    (hpasses : Passes P trustStore entries) : Enters P trustStore entries := by
  refine ⟨hpasses.hashable, fun manifest hmem => ?_, h.successive⟩
  obtain ⟨store, hstore⟩ := Option.ne_none_iff_exists'.mp (h.store manifest hmem)
  exact ⟨store, hstore, hpasses.verified manifest hmem store hstore⟩

theorem sameContents_iff (hreads : Reads P Trail.kept entries registry)
    (hreads' : Reads P Trail.signed entries registry') :
    SameContents P registry registry' ↔
      ∀ policyId, (Trail.of entries policyId).kept.map (RawManifest.record P) =
        (Trail.of entries policyId).signed.map (RawManifest.record P) := by
  constructor
  · intro h policyId
    rw [← hreads.signedManifests, ← hreads'.signedManifests]
    exact h.signedManifests policyId
  · intro h
    constructor <;> intro policyId
    · rw [hreads.policies, hreads'.policies]
    · rw [hreads.versions, hreads'.versions]
    · rw [hreads.signedManifests, hreads'.signedManifests]
      exact h policyId

theorem loaders_agree_iff {value : PyVal} : LoadersAgree P value trustStore ↔
    ∀ entries, Decodes value entries → Passes P trustStore entries →
      Unambiguous P trustStore entries := by
  constructor
  · intro h entries hdecodes hpasses
    obtain ⟨registry', hload⟩ := load_of_passes hdecodes hpasses
    obtain ⟨registry, hfromDict⟩ := h.accepts.mpr ⟨registry', hload⟩
    obtain ⟨henters, hreads⟩ := fromDict_reads hdecodes hfromDict
    obtain ⟨-, hreads'⟩ := load_reads hdecodes hload
    refine ⟨fun manifest hmem hnone => ?_, henters.successive,
      (sameContents_iff hreads hreads').mp (h.same registry registry' hfromDict hload)⟩
    obtain ⟨store, hstore, -⟩ := henters.backed manifest hmem
    rw [hnone] at hstore
    cases hstore
  · intro h
    have hload : ∀ registry', load P (.ok value) trustStore = .ok registry' →
        ∃ entries, Decodes value entries ∧ Enters P trustStore entries := by
      intro registry' hload
      obtain ⟨entries, hdecodes, -⟩ := load_eq_ok.mp hload
      obtain ⟨hpasses, -⟩ := load_reads hdecodes hload
      exact ⟨entries, hdecodes, enters_of_unambiguous (h entries hdecodes hpasses) hpasses⟩
    constructor
    · constructor
      · rintro ⟨registry, hfromDict⟩
        obtain ⟨entries, hdecodes, -⟩ := fromDict_eq_ok.mp hfromDict
        obtain ⟨henters, -⟩ := fromDict_reads hdecodes hfromDict
        exact load_of_passes hdecodes (passes_of_enters henters)
      · rintro ⟨registry', hloaded⟩
        obtain ⟨entries, hdecodes, henters⟩ := hload registry' hloaded
        exact fromDict_of_enters hdecodes henters
    · intro registry registry' hfromDict hloaded
      obtain ⟨entries, hdecodes, -⟩ := fromDict_eq_ok.mp hfromDict
      obtain ⟨-, hreads⟩ := fromDict_reads hdecodes hfromDict
      obtain ⟨hpasses, hreads'⟩ := load_reads hdecodes hloaded
      exact (sameContents_iff hreads hreads').mpr (h entries hdecodes hpasses).kept
    · intro registry haccepted entries hdecodes manifest hmem
      have henters : Enters P trustStore entries := by
        rcases haccepted with hfromDict | hloaded
        · exact (fromDict_reads hdecodes hfromDict).1
        · obtain ⟨entries', hdecodes', henters⟩ := hload registry hloaded
          rwa [hdecodes.unique hdecodes']
      obtain ⟨store, hstore, hverified⟩ := henters.backed manifest hmem
      exact ⟨store, hstore, RawManifest.verify_eq_ok.mpr hverified⟩

theorem demo_valid : Demo.policy.raw.Valid := by
  obtain ⟨policy, hpolicy⟩ := exists_of_toOption
    (show Demo.policy.postInit.toOption.isSome = true by decide)
  exact (Policy.valid_of_postInit hpolicy).raw

def aliceSnapshot : PyVal :=
  .dict (PyDict.ofFields [("policies", .list [.dict signedDemo.toDict])])

theorem decodes_aliceSnapshot : Decodes aliceSnapshot [.signed signedDemo.sorted] := by
  have hread : RegistryEntry.read (.dict signedDemo.toDict) =
      .ok (.signed signedDemo.sorted) :=
    RegistryEntry.read_signed demo_valid (show lit "alice" ≠ [] by decide +kernel)
      (show lit "c2ln" ≠ [] by decide)
  refine decodes_snapshot ?_
  rw [List.mapM_cons, hread]
  rfl

-- without a trust store _load takes a signed manifest that from_dict turns away
theorem loaders_disagree : ¬ ∀ (P : Primitives) (value : PyVal) (trustStore : Option TrustStore),
    LoadersAgree P value trustStore := by
  intro h
  have hpasses : Passes referencePrimitives none [.signed signedDemo.sorted] :=
    ⟨by simp [RegistryEntry.policyId, RegistryEntry.policy, signedDemo, RawManifest.sorted,
      RawPolicy.sorted, SignedPolicyManifest.raw, Policy.raw, PyVal.hashable],
      fun _ _ _ hstore => by cases hstore⟩
  have hunambiguous := loaders_agree_iff.mp (h referencePrimitives aliceSnapshot none) _
    decodes_aliceSnapshot hpasses
  exact hunambiguous.store _ List.mem_cons_self rfl

end Agreement

end RawRegistry

end GovernedAutonomy
