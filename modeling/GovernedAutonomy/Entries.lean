import GovernedAutonomy.Reconcile

namespace GovernedAutonomy

open Python Protocol

theorem dictOf_eq_ok {e : Exc} {value : PyVal} {d : PyDict} :
    dictOf e value = .ok d ↔ value = .dict d := by
  cases value <;> simp [dictOf]

theorem getD_eq_dict {entry d : PyDict} {name : Str} :
    (entry.get name).getD .none = .dict d ↔ entry.get name = some (.dict d) := by
  cases entry.get name with
  | none => simp
  | some v => simp

theorem has_signature_of_manifest {entry : PyDict} {manifest : RawManifest}
    (h : RawManifest.ofValue (.dict entry) = .ok manifest) :
    entry.has "signature" = true := by
  simp only [RawManifest.ofValue, bind_eq_ok, raiseIf_eq_ok, not_or,
    Bool.not_eq_false] at h
  obtain ⟨d, hd, -, ⟨-, hall⟩, -⟩ := h
  obtain rfl := PyVal.dict.inj (dictOf_eq_ok.mp hd)
  exact List.all_eq_true.mp hall "signature" (by simp [manifestKeys])

namespace RegistrySnapshot

variable {P : Primitives} {snapshot : RegistrySnapshot} {store : TrustStore}
  {registry registry' : RawRegistry} {m : Str × PyVal} {digest : Str}
  {manifest : RawManifest} {outcome : EntryOutcome}

-- the entry holds a policy with the digest that the snapshot gives for its key
structure Readable (P : Primitives) (snapshot : RegistrySnapshot) (m : Str × PyVal) (digest : Str) :
    Prop where
  carried : Dict.get snapshot.policyDigests m.1 = some digest
  parsed : ∃ (entry doc : PyDict) (policy : RawPolicy), m.2 = .dict entry ∧
    entry.get "policy" = some (.dict doc) ∧ RawPolicy.ofValue (.dict doc) = .ok policy ∧
    policy.digest P = .ok digest

structure Importable (P : Primitives) (store : TrustStore) (m : Str × PyVal) (digest : Str)
    (manifest : RawManifest) : Prop where
  parsed : RawManifest.ofValue m.2 = .ok manifest
  digested : manifest.policy.digest P = .ok digest
  verified : manifest.Verified P store

inductive EntryStep (P : Primitives) (snapshot : RegistrySnapshot) (store : TrustStore)
    (registry : RawRegistry) (m : Str × PyVal) : RawRegistry → EntryOutcome → Prop
  | known {digest : Str} {existing : RawPolicy} (hread : Readable P snapshot m digest)
      (hget : Dict.get registry.policies (.str m.1) = some existing)
      (hdigest : existing.digest P = .ok digest) :
      EntryStep P snapshot store registry m registry .known
  | conflict {digest held : Str} {existing : RawPolicy} (hread : Readable P snapshot m digest)
      (hget : Dict.get registry.policies (.str m.1) = some existing)
      (hdigest : existing.digest P = .ok held) (hne : held ≠ digest) :
      EntryStep P snapshot store registry m registry (.conflict ⟨m.1, held, digest⟩)
  | imported {digest : Str} {manifest : RawManifest} {registry' : RawRegistry}
      (hread : Readable P snapshot m digest) (hget : Dict.get registry.policies (.str m.1) = none)
      (himport : Importable P store m digest manifest)
      (haccepted : RawRegistry.Accepted P registry registry' manifest) :
      EntryStep P snapshot store registry m registry' (.imported m.1)

theorem remotePolicy_eq_ok : snapshot.remotePolicy P m = .ok digest ↔ Readable P snapshot m digest := by
  have hcarried : ∀ d, snapshot.remoteDigest m.1 = .ok d ↔
      Dict.get snapshot.policyDigests m.1 = some d := by
    intro d
    unfold remoteDigest
    cases Dict.get snapshot.policyDigests m.1 <;> simp
  simp only [remotePolicy, bind_eq_ok, raiseIf_eq_ok, hcarried, dictOf_eq_ok, getD_eq_dict, not_not]
  constructor
  · rintro ⟨d, hget, entry, hentry, doc, hdoc, policy, hparsed, d', hdigest, -, rfl, h⟩
    obtain rfl := Except.ok.inj h
    exact ⟨hget, entry, doc, policy, hentry, hdoc, hparsed, hdigest⟩
  · rintro ⟨hget, entry, doc, policy, hentry, hdoc, hparsed, hdigest⟩
    exact ⟨digest, hget, entry, hentry, doc, hdoc, policy, hparsed, digest, hdigest, (), rfl, rfl⟩

theorem remoteManifest_eq_ok : remoteManifest P store m digest = .ok manifest ↔
    Importable P store m digest manifest := by
  simp only [remoteManifest, bind_eq_ok, raiseIf_eq_ok, dictOf_eq_ok, not_not, Bool.not_eq_false]
  constructor
  · rintro ⟨entry, -, -, -, parsed, hparsed, d, hdigest, -, rfl, verified, hverified, -, rfl, h⟩
    obtain rfl := Except.ok.inj h
    exact ⟨hparsed, hdigest, RawManifest.verify_eq_ok.mp hverified⟩
  · rintro ⟨hparsed, hdigest, hverified⟩
    obtain ⟨entry, hentry⟩ : ∃ entry, m.2 = .dict entry := by
      obtain ⟨entry, hentry, -⟩ := bind_eq_ok.mp hparsed
      exact ⟨entry, dictOf_eq_ok.mp hentry⟩
    exact ⟨entry, hentry, (), has_signature_of_manifest (hentry ▸ hparsed), manifest, hparsed,
      digest, hdigest, (), rfl, true, RawManifest.verify_eq_ok.mpr hverified, (), rfl, rfl⟩

theorem reconcileEntry_eq_ok : snapshot.reconcileEntry P store registry m = .ok (registry', outcome) ↔
    EntryStep P snapshot store registry m registry' outcome := by
  have hlookup : registry.getPolicy (.str m.1) = .ok (Dict.get registry.policies (.str m.1)) := rfl
  simp only [reconcileEntry, hlookup, bind_eq_ok, remotePolicy_eq_ok, Except.ok.injEq,
    exists_eq_left']
  constructor
  · rintro ⟨digest, hread, h⟩
    cases hget : Dict.get registry.policies (.str m.1) with
    | some existing =>
        simp only [hget, bind_eq_ok] at h
        obtain ⟨held, hheld, h⟩ := h
        obtain ⟨rfl, rfl⟩ := Prod.mk.inj (Except.ok.inj h)
        split
        · rename_i hne
          exact .conflict hread hget hheld hne
        · rename_i heq
          exact .known hread hget (not_not.mp heq ▸ hheld)
    | none =>
        simp only [hget, bind_eq_ok, remoteManifest_eq_ok] at h
        obtain ⟨manifest, himport, middle, hmiddle, h⟩ := h
        obtain ⟨rfl, rfl⟩ := Prod.mk.inj (Except.ok.inj h)
        exact .imported hread hget himport (RawRegistry.registerSigned_eq_ok.mp hmiddle).2
  · intro h
    cases h with
    | known hread hget hdigest =>
        refine ⟨_, hread, ?_⟩
        simp only [hget]
        exact bind_eq_ok.mpr ⟨_, hdigest, by rw [if_neg (not_not.mpr rfl)]⟩
    | conflict hread hget hdigest hne =>
        refine ⟨_, hread, ?_⟩
        simp only [hget]
        exact bind_eq_ok.mpr ⟨_, hdigest, by rw [if_pos hne]⟩
    | imported hread hget himport haccepted =>
        refine ⟨_, hread, ?_⟩
        simp only [hget, bind_eq_ok, remoteManifest_eq_ok]
        exact ⟨_, himport, registry', RawRegistry.registerSigned_eq_ok.mpr
          ⟨⟨store, rfl, himport.verified⟩, haccepted⟩, rfl⟩

-- the loop is a batch whose outcomes are sorted into conflicts and imports
theorem reconcileEntries_eq (conflicts : List Conflict) (imports : List Str)
    (ms : List (Str × PyVal)) :
    snapshot.reconcileEntries P store registry conflicts imports ms =
      ((Batch.run (snapshot.reconcileEntry P store) registry ms).1,
        (Batch.run (snapshot.reconcileEntry P store) registry ms).2.map (fun os =>
          (conflicts ++ os.filterMap EntryOutcome.conflict?,
            imports ++ os.filterMap EntryOutcome.imported?))) := by
  induction ms generalizing registry conflicts imports with
  | nil => simp [reconcileEntries, Batch.run, Except.map]
  | cons m ms ih =>
      rw [reconcileEntries, Batch.run]
      cases hstep : snapshot.reconcileEntry P store registry m with
      | error e => rfl
      | ok stepped =>
          obtain ⟨middle, outcome⟩ := stepped
          cases outcome <;> simp only [ih] <;>
            cases Batch.run (snapshot.reconcileEntry P store) middle ms with
            | mk last result =>
                cases result <;> simp [Except.map, List.filterMap_cons, EntryOutcome.conflict?,
                  EntryOutcome.imported?]

end RegistrySnapshot

end GovernedAutonomy
