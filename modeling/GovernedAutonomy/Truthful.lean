import GovernedAutonomy.AllOrNothing
import GovernedAutonomy.Python.Congruence

namespace GovernedAutonomy

open Python Protocol

namespace RawRegistry

variable {P : Primitives} {registry registry' registry'' : RawRegistry}
  {manifest : RawManifest}

-- what is registered may be replaced, but only by a policy with the same digest
def KeepsDigests (P : Primitives) (registry registry' : RawRegistry) : Prop :=
  ∀ policyId policy, Dict.get registry.policies policyId = some policy →
    ∃ policy', Dict.get registry'.policies policyId = some policy' ∧
      policy'.digest P = policy.digest P

theorem KeepsDigests.refl (registry : RawRegistry) : KeepsDigests P registry registry :=
  fun _ policy h => ⟨policy, h, rfl⟩

theorem KeepsDigests.trans (h : KeepsDigests P registry registry')
    (h' : KeepsDigests P registry' registry'') : KeepsDigests P registry registry'' := by
  intro policyId policy hget
  obtain ⟨policy', hget', hdigest⟩ := h policyId policy hget
  obtain ⟨policy'', hget'', hdigest'⟩ := h' policyId policy' hget'
  exact ⟨policy'', hget'', hdigest'.trans hdigest⟩

theorem Adopts.keepsDigests (h : Adopts P registry registry' manifest) :
    KeepsDigests P registry registry' := by
  intro policyId policy hget
  rw [h.policies, Dict.get_set]
  by_cases hid : Keyed.same manifest.policy.policyId policyId = true
  · obtain ⟨digest, hheld, hoffered⟩ := h.same policy ((Dict.get_congr _ hid).trans hget)
    rw [if_pos hid]
    exact ⟨manifest.policy, rfl, hoffered.trans hheld.symm⟩
  · rw [if_neg hid]
    exact ⟨policy, hget, rfl⟩

theorem keepsDigests_of_accepted (h : Accepted P registry registry' manifest) :
    KeepsDigests P registry registry' := by
  cases h with
  | unknown hget hadopt => exact (adopts_of_adopt hadopt).keepsDigests
  | newer hget hversion hadopt => exact (adopts_of_adopt hadopt).keepsDigests
  | idempotent hget hversion hsame heq =>
      rw [heq]
      exact KeepsDigests.refl registry

theorem has_of_accepted (h : Accepted P registry registry' manifest) (policyId : PyVal) :
    Dict.has registry'.policies policyId =
      (Keyed.same manifest.policy.policyId policyId || Dict.has registry.policies policyId) := by
  cases h with
  | unknown hget hadopt => exact (adopts_of_adopt hadopt).has policyId
  | newer hget hversion hadopt => exact (adopts_of_adopt hadopt).has policyId
  | idempotent hget hversion hsame heq =>
      rw [heq]
      cases hid : Keyed.same manifest.policy.policyId policyId with
      | true => rw [Dict.has, ← Dict.get_congr _ hid, hget, Option.isSome_some, Bool.true_or]
      | false => rw [Bool.false_or]

theorem has_eq_false {policyId : PyVal} :
    Dict.has registry.policies policyId = false ↔ Dict.get registry.policies policyId = none := by
  rw [Dict.has, Option.isSome_eq_false_iff, Option.isNone_iff_eq_none]

theorem has_eq_true {policyId : PyVal} : Dict.has registry.policies policyId = true ↔
    ∃ policy, Dict.get registry.policies policyId = some policy := by
  rw [Dict.has, Option.isSome_iff_exists]

end RawRegistry

namespace RegistrySnapshot

variable {P : Primitives} {snapshot : RegistrySnapshot} {store : TrustStore}
  {registry registry' : RawRegistry} {m : Str × PyVal} {ms : List (Str × PyVal)}
  {outcome : EntryOutcome} {os : List EntryOutcome} {policyId : Str}

-- the registry holds a policy under the id, with the digest that the snapshot gives
def Agrees (P : Primitives) (snapshot : RegistrySnapshot) (registry : RawRegistry)
    (policyId : Str) : Prop :=
  ∃ policy digest, Dict.get registry.policies (.str policyId) = some policy ∧
    Dict.get snapshot.policyDigests policyId = some digest ∧ policy.digest P = .ok digest

def Differs (P : Primitives) (snapshot : RegistrySnapshot) (registry : RawRegistry)
    (policyId : Str) : Prop :=
  ∃ policy held digest, Dict.get registry.policies (.str policyId) = some policy ∧
    Dict.get snapshot.policyDigests policyId = some digest ∧ policy.digest P = .ok held ∧
    held ≠ digest

-- a manifest under a key that is not registered is the manifest of that key
def OwnIds (registry : RawRegistry) (ms : List (Str × PyVal)) : Prop :=
  ∀ m ∈ ms, Dict.has registry.policies (.str m.1) = false →
    ∀ manifest, RawManifest.ofValue m.2 = .ok manifest → manifest.policy.policyId = .str m.1

theorem Agrees.not_differs (h : Agrees P snapshot registry policyId) :
    ¬ Differs P snapshot registry policyId := by
  obtain ⟨policy, digest, hget, hcarried, hdigest⟩ := h
  rintro ⟨policy', held, digest', hget', hcarried', hheld, hne⟩
  obtain rfl := Option.some.inj (hget.symm.trans hget')
  obtain rfl := Option.some.inj (hcarried.symm.trans hcarried')
  exact hne (Except.ok.inj (hheld.symm.trans hdigest))

theorem Agrees.keep (h : Agrees P snapshot registry policyId)
    (hkeeps : RawRegistry.KeepsDigests P registry registry') :
    Agrees P snapshot registry' policyId := by
  obtain ⟨policy, digest, hget, hcarried, hdigest⟩ := h
  obtain ⟨policy', hget', hsame⟩ := hkeeps (.str policyId) policy hget
  exact ⟨policy', digest, hget', hcarried, hsame.trans hdigest⟩

theorem Differs.keep (h : Differs P snapshot registry policyId)
    (hkeeps : RawRegistry.KeepsDigests P registry registry') :
    Differs P snapshot registry' policyId := by
  obtain ⟨policy, held, digest, hget, hcarried, hheld, hne⟩ := h
  obtain ⟨policy', hget', hsame⟩ := hkeeps (.str policyId) policy hget
  exact ⟨policy', held, digest, hget', hcarried, hsame.trans hheld, hne⟩

theorem keepsDigests_of_entryStep (h : EntryStep P snapshot store registry m registry' outcome) :
    RawRegistry.KeepsDigests P registry registry' := by
  cases h with
  | known => exact .refl registry
  | conflict => exact .refl registry
  | imported hread hget himport haccepted =>
      exact RawRegistry.keepsDigests_of_accepted haccepted

theorem keepsDigests_of_leads
    (h : Batch.Leads (snapshot.reconcileEntry P store) registry ms os registry') :
    RawRegistry.KeepsDigests P registry registry' :=
  h.rule (R := RawRegistry.KeepsDigests P) .refl (fun _ _ _ h h' => h.trans h')
    (fun _ _ _ _ h => keepsDigests_of_entryStep (reconcileEntry_eq_ok.mp h))

-- a registered key leaves the registry as it is, an unknown one adds the manifest's id
theorem has_of_entryStep (h : EntryStep P snapshot store registry m registry' outcome)
    (hown : OwnIds registry [m]) (v : PyVal) :
    Dict.has registry'.policies v =
      (Keyed.same (PyVal.str m.1) v || Dict.has registry.policies v) := by
  have hregistered : ∀ existing, Dict.get registry.policies (.str m.1) = some existing →
      Dict.has registry.policies v =
        (Keyed.same (PyVal.str m.1) v || Dict.has registry.policies v) := by
    intro existing hget
    cases hid : Keyed.same (PyVal.str m.1) v with
    | true => rw [Dict.has, ← Dict.get_congr _ hid, hget, Option.isSome_some, Bool.true_or]
    | false => rw [Bool.false_or]
  cases h with
  | known hread hget => exact hregistered _ hget
  | conflict hread hget => exact hregistered _ hget
  | imported hread hget himport haccepted =>
      rw [RawRegistry.has_of_accepted haccepted, hown m List.mem_cons_self
        (RawRegistry.has_eq_false.mpr hget) _ himport.parsed]

theorem OwnIds.head (h : OwnIds registry (m :: ms)) : OwnIds registry [m] := by
  intro m' hm
  obtain rfl := List.mem_singleton.mp hm
  exact h m' List.mem_cons_self

theorem OwnIds.tail (h : OwnIds registry (m :: ms))
    (hhas : ∀ v, Dict.has registry.policies v = true → Dict.has registry'.policies v = true) :
    OwnIds registry' ms := by
  intro m' hm hunknown manifest hparsed
  refine h m' (List.mem_cons_of_mem m hm) ?_ manifest hparsed
  by_contra hnot
  rw [hhas (.str m'.1) (Bool.eq_true_of_not_eq_false hnot)] at hunknown
  cases hunknown

theorem has_mono_of_entryStep (h : EntryStep P snapshot store registry m registry' outcome)
    (v : PyVal) (hhas : Dict.has registry.policies v = true) :
    Dict.has registry'.policies v = true :=
  (later_of_entryStep h v hhas).1

theorem has_of_leads (h : Batch.Leads (snapshot.reconcileEntry P store) registry ms os registry')
    (hown : OwnIds registry ms) (v : PyVal) :
    Dict.has registry'.policies v = true ↔
      (∃ m ∈ ms, v = .str m.1) ∨ Dict.has registry.policies v = true := by
  induction h with
  | nil registry => simp
  | cons hfirst hrest ih =>
      have hstep := reconcileEntry_eq_ok.mp hfirst
      rw [ih (hown.tail (has_mono_of_entryStep hstep)), has_of_entryStep hstep hown.head]
      simp only [List.exists_mem_cons_iff, Bool.or_eq_true, PyVal.same_str_left]
      rw [or_assoc, or_left_comm]

theorem imported_of_entryStep (h : EntryStep P snapshot store registry m registry' outcome) :
    outcome.imported? = if Dict.has registry.policies (.str m.1) = true then none else some m.1 := by
  cases h with
  | known hread hget => rw [if_pos (RawRegistry.has_eq_true.mpr ⟨_, hget⟩)]; rfl
  | conflict hread hget => rw [if_pos (RawRegistry.has_eq_true.mpr ⟨_, hget⟩)]; rfl
  | imported hread hget => rw [if_neg (by simp [Dict.has, hget])]; rfl

theorem imported_of_leads
    (h : Batch.Leads (snapshot.reconcileEntry P store) registry ms os registry')
    (hown : OwnIds registry ms) (hkeys : Dict.Distinct ms) (policyId : Str) :
    policyId ∈ os.filterMap EntryOutcome.imported? ↔
      (∃ m ∈ ms, m.1 = policyId) ∧ Dict.has registry.policies (.str policyId) = false := by
  induction h with
  | nil registry => simp
  | @cons registry middle last m ms outcome os hfirst hrest ih =>
      have hstep := reconcileEntry_eq_ok.mp hfirst
      have himported := imported_of_entryStep hstep
      obtain ⟨hnew, hkeys⟩ := List.pairwise_cons.mp hkeys
      have hother : (∃ m' ∈ ms, m'.1 = policyId) → m.1 ≠ policyId := by
        rintro ⟨m', hm, rfl⟩
        simpa [same_list] using hnew m' hm
      have hlater := ih (hown.tail (has_mono_of_entryStep hstep)) hkeys
      rw [has_of_entryStep hstep hown.head, PyVal.same_str_str, Bool.or_eq_false_iff,
        decide_eq_false_iff_not] at hlater
      rw [List.exists_mem_cons_iff]
      by_cases hhas : Dict.has registry.policies (.str m.1) = true
      · rw [if_pos hhas] at himported
        rw [List.filterMap_cons_none himported, hlater]
        constructor
        · exact fun h => ⟨Or.inr h.1, h.2.2⟩
        · rintro ⟨rfl | hm, hunknown⟩
          · rw [hhas] at hunknown
            cases hunknown
          · exact ⟨hm, hother hm, hunknown⟩
      · rw [if_neg hhas] at himported
        rw [List.filterMap_cons_some himported, List.mem_cons, hlater]
        constructor
        · rintro (rfl | h)
          · exact ⟨Or.inl rfl, Bool.eq_false_of_not_eq_true hhas⟩
          · exact ⟨Or.inr h.1, h.2.2⟩
        · rintro ⟨hid | hm, hunknown⟩
          · exact Or.inl hid.symm
          · exact Or.inr ⟨hm, hother hm, hunknown⟩

theorem settled_of_entryStep (h : EntryStep P snapshot store registry m registry' outcome)
    (hown : OwnIds registry [m]) :
    (outcome.conflict? = none ∧ Agrees P snapshot registry' m.1) ∨
      ∃ conflict, outcome.conflict? = some conflict ∧ conflict.policyId = m.1 ∧
        Differs P snapshot registry' m.1 := by
  cases h with
  | known hread hget hdigest => exact Or.inl ⟨rfl, _, _, hget, hread.carried, hdigest⟩
  | conflict hread hget hdigest hne =>
      exact Or.inr ⟨_, rfl, rfl, _, _, _, hget, hread.carried, hdigest, hne⟩
  | @imported digest manifest _ hread hget himport haccepted =>
      have hid := hown m List.mem_cons_self (RawRegistry.has_eq_false.mpr hget) _ himport.parsed
      refine Or.inl ⟨rfl, manifest.policy, digest, ?_, hread.carried, himport.digested⟩
      cases haccepted with
      | unknown _ hadopt =>
          rw [(RawRegistry.adopts_of_adopt hadopt).policies, hid, Dict.get_set,
            if_pos (PyVal.same_str_left.mpr rfl)]
      | newer hsome =>
          rw [hid, hget] at hsome
          cases hsome
      | idempotent hsome =>
          rw [hid, hget] at hsome
          cases hsome

theorem settled_of_leads
    (h : Batch.Leads (snapshot.reconcileEntry P store) registry ms os registry')
    (hown : OwnIds registry ms) :
    (∀ m ∈ ms, Agrees P snapshot registry' m.1 ∨ Differs P snapshot registry' m.1) ∧
      ∀ policyId, policyId ∈ (os.filterMap EntryOutcome.conflict?).map Conflict.policyId ↔
        (∃ m ∈ ms, m.1 = policyId) ∧ Differs P snapshot registry' policyId := by
  induction h with
  | nil registry => simp
  | @cons registry middle last m ms outcome os hfirst hrest ih =>
      have hstep := reconcileEntry_eq_ok.mp hfirst
      have hkeeps := keepsDigests_of_leads hrest
      obtain ⟨hsettled, hconflicts⟩ := ih (hown.tail (has_mono_of_entryStep hstep))
      rw [List.forall_mem_cons]
      rcases settled_of_entryStep hstep hown.head with ⟨hquiet, hagrees⟩ | ⟨c, hsome, hid, hdiffers⟩
      · refine ⟨⟨Or.inl (hagrees.keep hkeeps), hsettled⟩, ?_⟩
        intro policyId
        rw [List.filterMap_cons_none hquiet, hconflicts, List.exists_mem_cons_iff]
        constructor
        · exact fun h => ⟨Or.inr h.1, h.2⟩
        · rintro ⟨rfl | hm, hdiffers⟩
          · exact absurd hdiffers (hagrees.keep hkeeps).not_differs
          · exact ⟨hm, hdiffers⟩
      · refine ⟨⟨Or.inr (hdiffers.keep hkeeps), hsettled⟩, ?_⟩
        intro policyId
        rw [List.filterMap_cons_some hsome, List.map_cons, List.mem_cons, hconflicts,
          List.exists_mem_cons_iff, hid]
        constructor
        · rintro (rfl | h)
          · exact ⟨Or.inl rfl, hdiffers.keep hkeeps⟩
          · exact ⟨Or.inr h.1, h.2⟩
        · rintro ⟨hid | hm, hdiffers⟩
          · exact Or.inl hid.symm
          · exact Or.inr ⟨hm, hdiffers⟩

-- the last import that carries another id than its key leaves that key unregistered
theorem ownIds_of_imported
    (h : Batch.Leads (snapshot.reconcileEntry P store) registry ms os registry')
    (hkeys : Dict.Distinct ms)
    (himported : ∀ policyId ∈ os.filterMap EntryOutcome.imported?,
      Dict.has registry'.policies (.str policyId) = true) : OwnIds registry ms := by
  induction h with
  | nil registry => simp [OwnIds]
  | @cons registry middle last m ms outcome os hfirst hrest ih =>
      have hstep := reconcileEntry_eq_ok.mp hfirst
      obtain ⟨hnew, hkeys⟩ := List.pairwise_cons.mp hkeys
      have hother : ∀ m' ∈ ms, m'.1 ≠ m.1 := by
        intro m' hm hsame
        have hne := hnew m' hm
        rw [same_list, decide_eq_false_iff_not] at hne
        exact hne hsame.symm
      rw [List.filterMap_cons] at himported
      have hrestOwn : OwnIds middle ms := by
        refine ih hkeys ?_
        intro policyId hmem
        refine himported policyId ?_
        cases hout : outcome.imported? with
        | none => exact hmem
        | some policyId' => exact List.mem_cons_of_mem _ hmem
      have hhead : OwnIds registry [m] := by
        intro m' hm hunknown manifest' hparsed
        obtain rfl := List.mem_singleton.mp hm
        cases hstep with
        | known hread hget =>
            rw [RawRegistry.has_eq_true.mpr ⟨_, hget⟩] at hunknown
            cases hunknown
        | conflict hread hget =>
            rw [RawRegistry.has_eq_true.mpr ⟨_, hget⟩] at hunknown
            cases hunknown
        | @imported _ manifest _ hread hget himport haccepted =>
            obtain rfl := Except.ok.inj (himport.parsed.symm.trans hparsed)
            by_contra hid
            have hlast := himported m'.1 List.mem_cons_self
            rw [has_of_leads hrest hrestOwn, RawRegistry.has_of_accepted haccepted, hunknown,
              Bool.or_false, PyVal.same_str_right] at hlast
            rcases hlast with ⟨m'', hm, hsame⟩ | hlast
            · exact hother m'' hm (PyVal.str.inj hsame).symm
            · exact hid hlast
      intro m' hm hunknown
      rcases List.mem_cons.mp hm with rfl | hm
      · exact hhead m' List.mem_cons_self hunknown
      · refine hrestOwn m' hm ?_
        rw [has_of_entryStep hstep hhead, hunknown, PyVal.same_str_str,
          decide_eq_false (Ne.symm (hother m' hm)), Bool.or_false]

end RegistrySnapshot

theorem isStr_strDict {V : Type} {f : V → PyVal} {d : List (Str × V)} :
    ∀ m ∈ d.map (fun m => ((.str m.1, f m.2) : PyKey × PyVal)), m.1.isStr = true := by
  intro m hm
  obtain ⟨n, -, rfl⟩ := List.mem_map.mp hm
  rfl

namespace RawRegistry

variable {P : Primitives} {registry : RawRegistry}

open PolicyRegistry (named keyed_named sortedByKey_named named_cons get_named)

-- every policy is registered under a string
def Named (registry : RawRegistry) : Prop := ∀ m ∈ registry.policies, m.1.isStr = true

theorem named_of_has {items : List (PyVal × RawPolicy)} (h : registry.listed = .ok items)
    {policyId : Str} (hhas : Dict.has registry.policies (.str policyId) = true) :
    registry.Named := by
  obtain ⟨policy, hget⟩ := has_eq_true.mp hhas
  obtain ⟨k, hmem, hk⟩ := Dict.get_eq_some hget
  rw [PyVal.same_str_right] at hk
  intro m hm
  rw [PyVal.isStr_of_sortedByKey h m hm (k, policy) hmem, hk]
  rfl

theorem Named.exists_policies (h : registry.Named) :
    ∃ policies : List (Str × RawPolicy), registry.policies = named id policies := by
  have hall : ∀ items : List (PyVal × RawPolicy), (∀ m ∈ items, m.1.isStr = true) →
      ∃ policies : List (Str × RawPolicy), items = named id policies := by
    intro items hitems
    induction items with
    | nil => exact ⟨[], rfl⟩
    | cons m items ih =>
        obtain ⟨hm, hrest⟩ := List.forall_mem_cons.mp hitems
        obtain ⟨policies, rfl⟩ := ih hrest
        obtain ⟨k, policy⟩ := m
        cases k with
        | str s => exact ⟨(s, policy) :: policies, rfl⟩
        | _ => cases hm
  exact hall registry.policies h

theorem exists_digests {policies : List (Str × RawPolicy)} {digests : List (PyVal × Str)}
    (h : (named id policies).mapM (fun m => do
      let digest ← m.2.digest P
      Except.ok (m.1, digest)) = .ok digests) :
    ∃ ds : List (Str × Str), digests = named id ds ∧
      List.Forall₂ (fun m d => d.1 = m.1 ∧ m.2.digest P = .ok d.2) policies ds := by
  induction policies generalizing digests with
  | nil => exact ⟨[], (Except.ok.inj h).symm, .nil⟩
  | cons m policies ih =>
      simp only [named_cons, List.mapM_cons, bind_eq_ok] at h
      obtain ⟨d, ⟨digest, hdigest, hd⟩, rest, hrest, h⟩ := h
      obtain rfl := Except.ok.inj hd
      obtain rfl := Except.ok.inj h
      obtain ⟨ds, rfl, hds⟩ := ih hrest
      exact ⟨(m.1, digest) :: ds, rfl, .cons ⟨rfl, hdigest⟩ hds⟩

-- the contents of a registry whose ids are strings, as its snapshot digests them
theorem Named.sealed (h : registry.Named) (hdistinct : Dict.Distinct registry.policies)
    {version : PyVal} {held : Str} (hheld : registry.snapshotDigest P version = .ok held) :
    ∃ (policies : PyVal) (digests : List (Str × Str)),
      canonicalDigest P (.dict (PyDict.ofFields [("version", version), ("policies", policies),
        ("policy_digests", strDict .str (sortedItems digests))])) = .ok held ∧
        ∀ policyId digest, (policyId, digest) ∈ digests ↔
          ∃ policy, Dict.get registry.policies (.str policyId) = some policy ∧
            policy.digest P = .ok digest := by
  obtain ⟨policies, hpolicies⟩ := h.exists_policies
  simp only [snapshotDigest, bind_eq_ok] at hheld
  obtain ⟨items, -, filed, -, digests, hdigests, policyDict, -, digestDict, hdigestDict, hheld⟩ :=
    hheld
  have hlisted : registry.listed = .ok (named id (sortedItems policies)) := by
    rw [listed, hpolicies, sortedByKey_named]
  rw [RawRegistry.digests, hlisted] at hdigests
  obtain ⟨ds, rfl, hds⟩ := exists_digests hdigests
  rw [keyed_named] at hdigestDict
  obtain rfl := Except.ok.inj hdigestDict
  refine ⟨policyDict, ds, hheld, fun policyId digest => ⟨fun hmem => ?_, ?_⟩⟩
  · obtain ⟨m, hm, hid, hdigest⟩ := exists_of_forall₂_left hds.flip hmem
    obtain rfl : policyId = m.1 := hid
    have hregistered : (PyVal.str m.1, m.2) ∈ registry.policies := by
      rw [hpolicies]
      exact List.mem_map.mpr ⟨m, mem_sortedItems.mp hm, rfl⟩
    exact ⟨m.2, Dict.get_of_mem hdistinct hregistered (PyVal.same_str_left.mpr rfl), hdigest⟩
  · rintro ⟨policy, hget, hdigest⟩
    rw [hpolicies, get_named, Option.map_id] at hget
    obtain ⟨d, hd, hid, hdigest'⟩ := exists_of_forall₂_left hds
      (mem_sortedItems.mpr (Dict.mem_of_get hget))
    rw [hdigest] at hdigest'
    rwa [show (policyId, digest) = d from Prod.ext hid.symm (Except.ok.inj hdigest')]

end RawRegistry

namespace RegistrySnapshot

-- the snapshot's digest has been taken of contents in which its policies have the digests that it
-- gives for them
def Vouches (P : Primitives) (snapshot : RegistrySnapshot) : Prop :=
  ∃ (version policies : PyVal) (digests : List (Str × Str)),
    canonicalDigest P (.dict (PyDict.ofFields [("version", version), ("policies", policies),
      ("policy_digests", strDict .str (sortedItems digests))])) = .ok snapshot.snapshotDigest ∧
      ∀ m ∈ snapshot.policies, ∃ digest, Dict.get snapshot.policyDigests m.1 = some digest ∧
        (m.1, digest) ∈ digests

variable {P : Primitives} {snapshot : RegistrySnapshot} {registry : RawRegistry} {held : Str}

-- one digest is taken of one table of digests
theorem mem_of_same_digest (hsha : Function.Injective P.sha256) {version version' policies policies' :
    PyVal} {digests digests' : List (Str × Str)} {digest : Str}
    (h : canonicalDigest P (.dict (PyDict.ofFields [("version", version), ("policies", policies),
      ("policy_digests", strDict .str (sortedItems digests))])) = .ok digest)
    (h' : canonicalDigest P (.dict (PyDict.ofFields [("version", version'), ("policies", policies'),
      ("policy_digests", strDict .str (sortedItems digests'))])) = .ok digest)
    {m : Str × Str} (hm : m ∈ digests) : m ∈ digests' := by
  obtain ⟨t, ht, ht'⟩ := canonicalDigest_injective hsha h h'
  have hfield : ((.str (lit "policy_digests"), strDict .str (sortedItems digests)) :
      PyKey × PyVal) ∈ PyDict.ofFields [("version", version), ("policies", policies),
        ("policy_digests", strDict .str (sortedItems digests))] := by simp [PyDict.ofFields]
  obtain ⟨w, j, hw, hj, hj'⟩ := PyVal.mem_of_same_tree PyVal.isStr_ofFields PyVal.isStr_ofFields
    ht ht' hfield
  obtain rfl : w = strDict .str (sortedItems digests') := by
    simpa [PyDict.ofFields] using hw
  obtain ⟨v, i, hv, hi, hi'⟩ := PyVal.mem_of_same_tree isStr_strDict isStr_strDict hj hj'
    (List.mem_map.mpr ⟨m, mem_sortedItems.mpr hm, rfl⟩)
  obtain ⟨n, hn, hnv⟩ := List.mem_map.mp hv
  obtain ⟨hid, rfl⟩ := Prod.mk.inj hnv
  rw [PyVal.toTree, Except.ok.injEq] at hi hi'
  rw [show m = n from Prod.ext (PyKey.str.inj hid).symm (Json.str.inj (hi.trans hi'.symm))]
  exact mem_sortedItems.mp hn

-- a snapshot that carries the local digest agrees with the local registry where its digest vouches
-- for it
theorem agrees_iff (hsha : Function.Injective P.sha256) (hdistinct : Dict.Distinct registry.policies)
    (hheld : registry.snapshotDigest P snapshot.version = .ok held)
    (hsame : held = snapshot.snapshotDigest) :
    (∀ m ∈ snapshot.policies, Agrees P snapshot registry m.1) ↔
      (snapshot.policies ≠ [] → registry.Named ∧ Vouches P snapshot) := by
  constructor
  · intro hagrees hsome
    obtain ⟨m, hm⟩ := List.exists_mem_of_ne_nil _ hsome
    obtain ⟨policy, -, hget, -, -⟩ := hagrees m hm
    obtain ⟨items, hitems, -⟩ := bind_eq_ok.mp hheld
    have hnamed := RawRegistry.named_of_has hitems (RawRegistry.has_eq_true.mpr ⟨policy, hget⟩)
    obtain ⟨policies, digests, hsealed, hdigests⟩ := hnamed.sealed hdistinct hheld
    refine ⟨hnamed, _, policies, digests, hsame ▸ hsealed, fun m hm => ?_⟩
    obtain ⟨policy, digest, hget, hcarried, hdigest⟩ := hagrees m hm
    exact ⟨digest, hcarried, (hdigests _ _).mpr ⟨policy, hget, hdigest⟩⟩
  · intro h m hm
    obtain ⟨hnamed, version, policies, digests, hvouched, hcarries⟩ :=
      h (List.ne_nil_of_mem hm)
    obtain ⟨policies', digests', hsealed, hdigests⟩ := hnamed.sealed hdistinct hheld
    obtain ⟨digest, hcarried, hmem⟩ := hcarries m hm
    obtain ⟨policy, hget, hdigest⟩ := (hdigests _ _).mp
      (mem_of_same_digest hsha hvouched (hsame ▸ hsealed) hmem)
    exact ⟨policy, digest, hget, hcarried, hdigest⟩

end RegistrySnapshot

namespace GovernanceReconciler

variable {P : Primitives} {reconciler : GovernanceReconciler} {now : ℤ}
  {envelope : GovernanceSyncEnvelope} {result : ReconciliationResult}

-- a result against the registry before and after the call
structure Truthful (P : Primitives) (registry registry' : RawRegistry)
    (snapshot : RegistrySnapshot) (result : ReconciliationResult) : Prop where
  agreed : result.status ≠ .conflict → ∀ m ∈ snapshot.policies, snapshot.Agrees P registry' m.1
  conflicts : result.status = .conflict → ∀ policyId,
    policyId ∈ result.conflicts.map Conflict.policyId ↔
      (∃ m ∈ snapshot.policies, m.1 = policyId) ∧ snapshot.Differs P registry' policyId
  imported : ∀ v, (∃ policyId ∈ result.importedPolicyIds, v = .str policyId) ↔
    Dict.has registry.policies v = false ∧ Dict.has registry'.policies v = true

-- a snapshot that carries the local digest is vouched for by it, and in any other snapshot a policy
-- that is not registered stands under its own id
structure Consistent (P : Primitives) (reconciler : GovernanceReconciler)
    (snapshot : RegistrySnapshot) : Prop where
  shortcut : reconciler.registry.snapshotDigest P snapshot.version = .ok snapshot.snapshotDigest →
    snapshot.policies ≠ [] → reconciler.registry.Named ∧ snapshot.Vouches P
  ownIds : reconciler.registry.snapshotDigest P snapshot.version ≠ .ok snapshot.snapshotDigest →
    RegistrySnapshot.OwnIds reconciler.registry snapshot.policies

theorem identical_of_ok (h : ¬ Admitted P reconciler now envelope)
    (hresult : (reconciler.reconcile P now envelope).2 = .ok result) :
    reconciler.registry.snapshotDigest P envelope.snapshot.version =
        .ok envelope.snapshot.snapshotDigest ∧
      result = ⟨.identical, [], [], snapshotFields envelope⟩ := by
  unfold reconcile at hresult
  cases hchecked : reconciler.admission P now envelope with
  | error e =>
      rw [hchecked] at hresult
      cases hresult
  | ok u =>
      simp only [hchecked, reconcileSnapshot] at hresult
      cases hheld : reconciler.registry.snapshotDigest P envelope.snapshot.version with
      | error e =>
          rw [hheld] at hresult
          cases hresult
      | ok held =>
          have hsame : held = envelope.snapshot.snapshotDigest := by
            by_contra hdiffers
            exact h ⟨hchecked, held, hheld, hdiffers⟩
          rw [hheld] at hresult
          simp only [if_pos hsame] at hresult
          exact ⟨congrArg Except.ok hsame, (Except.ok.inj hresult).symm⟩

theorem conclude_imported (conflicts : List Conflict) (imports : List Str) (policyId : Str) :
    policyId ∈ (conclude envelope conflicts imports).importedPolicyIds ↔ policyId ∈ imports := by
  unfold conclude
  split
  · rfl
  · exact (List.perm_insertionSort _ imports).mem_iff

theorem conclude_status (conflicts : List Conflict) (imports : List Str) :
    ((conclude envelope conflicts imports).status = .conflict ↔ conflicts ≠ []) ∧
      (conclude envelope conflicts imports).conflicts = conflicts := by
  unfold conclude
  split
  · rename_i hconflicts
    exact ⟨iff_of_true rfl hconflicts, rfl⟩
  · rename_i hconflicts
    exact ⟨iff_of_false nofun hconflicts, (not_not.mp hconflicts).symm⟩

theorem truthful_of_leads {snapshot : RegistrySnapshot} {store : TrustStore}
    {registry registry' : RawRegistry} {os : List EntryOutcome}
    (h : Batch.Leads (snapshot.reconcileEntry P store) registry snapshot.policies os registry')
    (hkeys : Dict.Distinct snapshot.policies) :
    Truthful P registry registry' snapshot (conclude envelope
      (os.filterMap EntryOutcome.conflict?) (os.filterMap EntryOutcome.imported?)) ↔
      RegistrySnapshot.OwnIds registry snapshot.policies := by
  obtain ⟨hstatus, hreported⟩ := @conclude_status envelope (os.filterMap EntryOutcome.conflict?)
    (os.filterMap EntryOutcome.imported?)
  constructor
  · intro htruthful
    refine RegistrySnapshot.ownIds_of_imported h hkeys ?_
    intro policyId hmem
    exact ((htruthful.imported (.str policyId)).mp
      ⟨policyId, (conclude_imported _ _ policyId).mpr hmem, rfl⟩).2
  · intro hown
    obtain ⟨hsettled, hconflicts⟩ := RegistrySnapshot.settled_of_leads h hown
    refine ⟨?_, ?_, ?_⟩
    · intro hnone m hm
      rw [ne_eq, hstatus, not_not] at hnone
      rcases hsettled m hm with hagrees | hdiffers
      · exact hagrees
      · have hmem := (hconflicts m.1).mpr ⟨⟨m, hm, rfl⟩, hdiffers⟩
        rw [hnone] at hmem
        cases hmem
    · intro _ policyId
      rw [hreported, hconflicts]
    · intro v
      rw [RegistrySnapshot.has_of_leads h hown]
      simp only [conclude_imported, RegistrySnapshot.imported_of_leads h hown hkeys]
      constructor
      · rintro ⟨policyId, ⟨⟨m, hm, rfl⟩, hunknown⟩, rfl⟩
        exact ⟨hunknown, Or.inl ⟨m, hm, rfl⟩⟩
      · rintro ⟨hunknown, ⟨m, hm, rfl⟩ | hhas⟩
        · exact ⟨m.1, ⟨⟨m, hm, rfl⟩, hunknown⟩, rfl⟩
        · rw [hhas] at hunknown
          cases hunknown

theorem reconcile_truthful_iff (P : Primitives) (hsha : Function.Injective P.sha256)
    (reconciler : GovernanceReconciler) (now : ℤ) (envelope : GovernanceSyncEnvelope)
    (result : ReconciliationResult) (hregistry : Dict.Distinct reconciler.registry.policies)
    (hkeys : Dict.Distinct envelope.snapshot.policies)
    (hresult : (reconciler.reconcile P now envelope).2 = .ok result) :
    Truthful P reconciler.registry (reconciler.reconcile P now envelope).1.registry
        envelope.snapshot result ↔
      Consistent P reconciler envelope.snapshot := by
  by_cases hadmitted : Admitted P reconciler now envelope
  · obtain ⟨held, hheld, hdiffers⟩ := hadmitted.differs
    have hnot : reconciler.registry.snapshotDigest P envelope.snapshot.version ≠
        .ok envelope.snapshot.snapshotDigest := by
      intro hsame
      exact hdiffers (Except.ok.inj (hheld.symm.trans hsame))
    rw [reconcile_of_admitted hadmitted] at hresult ⊢
    obtain ⟨os, hos, rfl⟩ := map_eq_ok.mp hresult
    have hleads := Batch.run_eq_ok.mp (show reconciler.batch P envelope = (_, .ok os) by rw [← hos])
    rw [truthful_of_leads hleads hkeys]
    exact ⟨fun hown => ⟨fun hsame => absurd hsame hnot, fun _ => hown⟩,
      fun hconsistent => hconsistent.ownIds hnot⟩
  · obtain ⟨hheld, rfl⟩ := identical_of_ok hadmitted hresult
    have hagrees := @RegistrySnapshot.agrees_iff P envelope.snapshot reconciler.registry _ hsha
      hregistry hheld rfl
    rw [registry_of_not_admitted hadmitted]
    constructor
    · intro htruthful
      exact ⟨fun _ => hagrees.mp (htruthful.agreed nofun), fun hnot => absurd hheld hnot⟩
    · intro hconsistent
      refine ⟨fun _ => hagrees.mpr (hconsistent.shortcut hheld), nofun, ?_⟩
      intro v
      refine iff_of_false (by simp) ?_
      rintro ⟨hunknown, hhas⟩
      rw [hhas] at hunknown
      cases hunknown

-- the demo policy as the only entry of a snapshot, under a key of the sender's choice
def filedUnder (policyId digest : Str) : GovernanceSyncEnvelope :=
  demoEnvelope [demoEntry policyId] [(policyId, digest)]

section Filed

variable {policyId digest : Str}

theorem admitted_filedUnder (hclean : Json.Clean policyId)
    (hdigest : Demo.policy.raw.digest referencePrimitives = .ok digest) :
    Admitted referencePrimitives demoReconciler 100 (filedUnder policyId digest) := by
  refine ⟨admission_demo (List.pairwise_singleton _ _) ?_ ?_, differs_demo _ _⟩
  · exact List.forall_mem_singleton.mpr ⟨hclean, (canonicalDigest_eq_ok hdigest).2⟩
  · exact List.forall_mem_singleton.mpr ⟨hclean, demoEntry_encodable (by decide)⟩

theorem reconcile_filedUnder (hclean : Json.Clean policyId)
    (hdigest : Demo.policy.raw.digest referencePrimitives = .ok digest) :
    (demoReconciler.reconcile referencePrimitives 100 (filedUnder policyId digest)).2 =
        .ok (conclude (filedUnder policyId digest) [] [policyId]) ∧
      RawRegistry.Adopts referencePrimitives {}
        (demoReconciler.reconcile referencePrimitives 100 (filedUnder policyId digest)).1.registry
        signedDemo := by
  have hcarried : Dict.get (filedUnder policyId digest).snapshot.policyDigests policyId =
      some digest := by
    simp [filedUnder, demoEnvelope, Dict.get_cons]
  obtain ⟨registry', hstep, hadopts⟩ := entryStep_demo hdigest hcarried
  have hrun : demoReconciler.batch referencePrimitives (filedUnder policyId digest) =
      (registry', .ok [.imported policyId]) :=
    Batch.run_eq_ok.mpr (.cons (RegistrySnapshot.reconcileEntry_eq_ok.mpr hstep) (.nil registry'))
  rw [reconcile_of_admitted (admitted_filedUnder hclean hdigest), hrun]
  exact ⟨rfl, hadopts⟩

end Filed

theorem reconcile_truthful_iff_demo :
    Function.Injective referencePrimitives.sha256 ∧
      Dict.Distinct demoReconciler.registry.policies ∧
      ∃ (digest : Str) (result : ReconciliationResult),
        Dict.Distinct (filedUnder "demo-v1" digest).snapshot.policies ∧
        (demoReconciler.reconcile referencePrimitives 100 (filedUnder "demo-v1" digest)).2 =
          .ok result ∧
        Truthful referencePrimitives {}
          (demoReconciler.reconcile referencePrimitives 100
            (filedUnder "demo-v1" digest)).1.registry
          (filedUnder "demo-v1" digest).snapshot result := by
  obtain ⟨digest, hdigest⟩ := exists_demo_digest
  have hkeys : Dict.Distinct (filedUnder "demo-v1" digest).snapshot.policies :=
    List.pairwise_singleton _ _
  obtain ⟨hresult, -⟩ := reconcile_filedUnder (Json.clean_lit "demo-v1") hdigest
  obtain ⟨held, hheld, hdiffers⟩ := differs_demo [demoEntry "demo-v1"] [("demo-v1", digest)]
  refine ⟨referencePrimitives_sha256_injective, List.Pairwise.nil, digest, _, hkeys, hresult,
    (reconcile_truthful_iff referencePrimitives referencePrimitives_sha256_injective demoReconciler
      100 (filedUnder "demo-v1" digest) _ List.Pairwise.nil hkeys hresult).mpr ⟨?_, ?_⟩⟩
  · intro hsame
    exact absurd (Except.ok.inj (hheld.symm.trans hsame)) hdiffers
  · intro _ m hm _ manifest hparsed
    obtain rfl := List.mem_singleton.mp hm
    obtain rfl := Except.ok.inj ((importable_demo hdigest "demo-v1").parsed.symm.trans hparsed)
    rfl

-- the entry is looked up by its key and registered under the id it carries
theorem import_misreported :
    ¬ ∀ (P : Primitives) (reconciler : GovernanceReconciler) (now : ℤ)
      (envelope : GovernanceSyncEnvelope) (result : ReconciliationResult),
      Function.Injective P.sha256 → Dict.Distinct reconciler.registry.policies →
        Dict.Distinct envelope.snapshot.policies →
          (reconciler.reconcile P now envelope).2 = .ok result →
            Truthful P reconciler.registry (reconciler.reconcile P now envelope).1.registry
              envelope.snapshot result := by
  intro h
  obtain ⟨digest, hdigest⟩ := exists_demo_digest
  obtain ⟨hresult, hadopts⟩ := reconcile_filedUnder (Json.clean_lit "other") hdigest
  have htruthful := h referencePrimitives demoReconciler 100 (filedUnder "other" digest) _
    referencePrimitives_sha256_injective List.Pairwise.nil (List.pairwise_singleton _ _) hresult
  have himported := (htruthful.imported (.str "other")).mp
    ⟨"other", (conclude_imported _ _ _).mpr List.mem_cons_self, rfl⟩
  rw [hadopts.has] at himported
  exact absurd himported.2 (by decide +kernel)

end GovernanceReconciler

end GovernedAutonomy
