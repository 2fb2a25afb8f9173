import GovernedAutonomy.VersionedRegistry

namespace GovernedAutonomy

open Python

section Content

variable {P : Primitives} {L : Libraries}

-- an entry of a dict that was written and read back comes from an entry of its key
theorem entry_of_reread {d content : PyDict} {depth : Nat} {t : Json} {name : Str} {value : PyVal}
    (hhas : d.has name = true) (ht : (PyVal.dict d).toTree depth = .ok t)
    (hcontent : PyVal.ofTree t = .dict content) (hget : content.get name = some value) :
    ∃ m ∈ d, m.1 = .str name ∧ ∃ j, m.2.toTree (depth - 1) = .ok j ∧ value = .ofTree j := by
  obtain ⟨depth, es, js, rfl, rfl, hes, hjs⟩ := PyVal.toTree_dict ht
  obtain rfl := PyVal.dict.inj hcontent
  rw [PyDict.get, Dict.get_update, Dict.get_nil, Option.or_none] at hget
  have hk := mem_of_get_str hget
  rw [List.mem_reverse, PyVal.ofTreeMembers_eq_map] at hk
  obtain ⟨j, hj, heq⟩ := List.mem_map.mp hk
  obtain ⟨hkey, rfl⟩ := Prod.mk.inj heq
  obtain ⟨m, hm, htree, htext⟩ := PyVal.toTree_members hes hjs j hj
  have hsortable := sortEntries_isOk.mp ⟨es, hes⟩
  rw [List.map_map] at hsortable
  obtain ⟨v, hv⟩ := Option.isSome_iff_exists.mp hhas
  have hstr : m.1.isStr = true := isStr_of_sortable hsortable
    (List.mem_map.mpr ⟨_, mem_of_get_str hv, rfl⟩) m.1 (List.mem_map.mpr ⟨m, hm, rfl⟩)
  refine ⟨m, hm, ?_, j.2, htree, rfl⟩
  cases hkey' : m.1 with
  | str s =>
      rw [hkey'] at htext
      rw [← hkey, ← Except.ok.inj htext]
  | _ => simp [hkey', PyKey.isStr] at hstr

theorem canonicalPolicy_version {policy : PyVal} {content : PyDict} {version : Str}
    (hcontent : canonicalPolicy P L policy = .ok content)
    (hversion : member content "version" = .ok version) : version ≠ [] := by
  simp only [canonicalPolicy, validatePolicy, bind_eq_ok, raiseIf_eq_ok, not_not] at hcontent
  obtain ⟨-, ⟨d, hd, -, -, -, -, errors, herrors, rfl⟩, encoded, hencoded, value, hvalue, hdict⟩ :=
    hcontent
  obtain rfl : policy = .dict d := by
    cases policy <;> simp [dictOf] at hd
    exact congrArg PyVal.dict hd
  obtain ⟨t, ht, hloads⟩ := loads_canonicalJson hencoded
  rw [hloads] at hvalue
  obtain rfl := Except.ok.inj hvalue
  obtain ⟨hhas, hentries⟩ := L.versioned d herrors
  have htree : PyVal.ofTree t = .dict content := by
    cases hof : PyVal.ofTree t <;> rw [hof] at hdict <;> simp [dictOf] at hdict
    exact congrArg PyVal.dict hdict
  unfold member at hversion
  cases hget : PyDict.get content (lit "version") with
  | none =>
      rw [hget] at hversion
      cases hversion
  | some value =>
      rw [hget] at hversion
      obtain ⟨m, hm, hkey, j, hj, rfl⟩ := entry_of_reread hhas ht htree hget
      obtain ⟨c, s, hstr⟩ := hentries m hm hkey
      rw [hstr] at hj
      obtain rfl : Json.str (c :: s) = j := by
        simpa [PyVal.toTree] using hj
      obtain rfl : c :: s = version := by simpa [PyVal.ofTree, declaredStr] using hversion
      exact List.cons_ne_nil c s

theorem newStored_version {policy : PyVal} {signer : Option PolicySigner} {signedAt : Option Str}
    {now : Str} {stored : StoredPolicy}
    (h : newStored P L policy signer signedAt now = .ok stored) : stored.version ≠ [] := by
  unfold newStored at h
  obtain ⟨content, hcontent, h⟩ := bind_eq_ok.mp h
  obtain ⟨id, -, h⟩ := bind_eq_ok.mp h
  obtain ⟨version, hversion, h⟩ := bind_eq_ok.mp h
  obtain ⟨contentHash, -, h⟩ := bind_eq_ok.mp h
  have hne : version ≠ [] := canonicalPolicy_version hcontent hversion
  cases signer with
  | none =>
      obtain rfl := Except.ok.inj h
      exact hne
  | some signer =>
      simp only at h
      obtain ⟨checked, -, h⟩ := bind_eq_ok.mp h
      obtain ⟨named, -, h⟩ := bind_eq_ok.mp h
      obtain ⟨algorithm, -, h⟩ := bind_eq_ok.mp h
      obtain ⟨payload, -, h⟩ := bind_eq_ok.mp h
      obtain ⟨signed, -, h⟩ := bind_eq_ok.mp h
      rw [← Except.ok.inj h]
      exact hne

end Content

instance {α β : Type} [DecidableEq α] [DecidableEq β] : Exact (List α × List β) :=
  ⟨fun _ _ => decide_eq_true_iff⟩

def PolicyOperation.activation? : PolicyOperation → Option ActivationRequest
  | .activate request => some request
  | .rollback request => some { request with operation := lit "rollback" }
  | _ => none

def StoredPolicy.Verified (P : Primitives) (verifier : Option PolicyVerifier)
    (stored : StoredPolicy) : Prop :=
  ∃ result, verification P verifier stored = .ok result ∧ result.digestValid = true ∧
    result.signatureValid = true

namespace VersionedPolicyRegistry

-- what activate asks before it changes anything
structure Admissible (P : Primitives) (registry : VersionedPolicyRegistry)
    (given : Circumstances) (request : ActivationRequest) : Prop where
  permitted : requirePolicyAdmin request.identity = .ok ()
  accounted : ¬ (request.requestedBy = [] ∨ request.reason = [])
  verified : ∃ stored, registry.find given request.policyId request.version = .ok (some stored) ∧
    stored.Verified P given.verifier
  state : registry.state request.policyId request.version = .published ∨
    registry.state request.policyId request.version = .active
  expected : ∀ revision, request.expectedRevision = some revision →
    revision = registry.activeRevision request.policyId
  other : registry.previousVersion request.policyId ≠ some request.version

section Specs

variable {P : Primitives} {L : Libraries} {registry : VersionedPolicyRegistry}
  {given : Circumstances} {request : ActivationRequest} {policyId version : Str}

theorem valid_eq {verifier : Option PolicyVerifier} {stored : StoredPolicy}
    {result : PolicyVerificationResult} (h : verification P verifier stored = .ok result) :
    result.valid = (result.digestValid && result.signatureValid) := by
  obtain ⟨digestValid, -, h⟩ := bind_eq_ok.mp h
  obtain ⟨checked, -, h⟩ := bind_eq_ok.mp h
  obtain rfl := Except.ok.inj h
  rfl

theorem find_eq_ok {found : Option StoredPolicy} (h : registry.find given policyId version = .ok found) :
    found = Dict.get registry.storage (policyId, version) := by
  unfold find at h
  split at h
  · cases h
  · exact (Except.ok.inj h).symm

theorem get_eq_ok {stored : StoredPolicy} : registry.get P given policyId version = .ok stored ↔
    registry.find given policyId version = .ok (some stored) ∧
      ∃ result, verification P given.verifier stored = .ok result ∧ result.digestValid = true := by
  unfold VersionedPolicyRegistry.get
  rw [bind_eq_ok]
  constructor
  · rintro ⟨found, hfound, h⟩
    cases found with
    | none => cases h
    | some found =>
        simp only [bind_eq_ok, raiseIf_eq_ok, Bool.not_eq_false] at h
        obtain ⟨result, hresult, -, hvalid, h⟩ := h
        obtain rfl := Except.ok.inj h
        exact ⟨hfound, result, hresult, hvalid⟩
  · rintro ⟨hfound, result, hresult, hvalid⟩
    refine ⟨some stored, hfound, ?_⟩
    simp only [hresult, bind, Except.bind, raiseIf_of_not (show ¬ result.digestValid = false by
      simp [hvalid])]

theorem has_of_get {stored : StoredPolicy} (h : registry.get P given policyId version = .ok stored) :
    Dict.has registry.storage (policyId, version) = true := by
  rw [Dict.has, ← find_eq_ok (get_eq_ok.mp h).1, Option.isSome_some]

theorem checkRevision_eq_ok {expectedRevision : Option ℤ} {u : Unit} :
    registry.checkRevision policyId expectedRevision = .ok u ↔
      ∀ revision, expectedRevision = some revision → revision = registry.activeRevision policyId := by
  unfold checkRevision
  cases expectedRevision with
  | none => simp
  | some expected =>
      simp only [Option.some.injEq, forall_eq']
      split
      · rename_i heq
        exact iff_of_true rfl heq
      · rename_i hne
        refine iff_of_false (fun h => ?_) hne
        obtain ⟨a, -, h⟩ := bind_eq_ok.mp h
        obtain ⟨b, -, h⟩ := bind_eq_ok.mp h
        cases h

theorem admitActivation_eq_ok {event : PolicyActivationEvent} :
    registry.admitActivation P given request = .ok event ↔
      registry.Admissible P given request ∧ event = registry.event given request := by
  simp only [admitActivation, bind_eq_ok, raiseIf_eq_ok, get_eq_ok, checkRevision_eq_ok]
  constructor
  · rintro ⟨_, hpermitted, _, haccounted, stored, ⟨hfound, result, hresult, hdigest⟩, result',
      hresult', _, hvalid, _, hstate, _, hexpected, _, hother, h⟩
    rw [hresult] at hresult'
    obtain rfl := Except.ok.inj hresult'
    have hsignature : result.signatureValid = true := by
      rw [valid_eq hresult, hdigest, Bool.true_and, Bool.not_eq_false] at hvalid
      exact hvalid
    refine ⟨⟨hpermitted, haccounted, ⟨stored, hfound, result, hresult, hdigest, hsignature⟩, ?_,
      hexpected, hother⟩, (Except.ok.inj h).symm⟩
    by_contra hneither
    exact hstate (not_or.mp hneither)
  · rintro ⟨h, rfl⟩
    obtain ⟨stored, hfound, result, hresult, hdigest, hsignature⟩ := h.verified
    have hvalid : ¬ result.valid = false := by
      rw [valid_eq hresult, hdigest, hsignature]
      simp
    refine ⟨(), h.permitted, (), h.accounted, stored, ⟨hfound, result, hresult, hdigest⟩, result,
      hresult, (), hvalid, (), ?_, (), h.expected, (), h.other, rfl⟩
    rintro ⟨hpublished, hactive⟩
    exact h.state.elim hpublished hactive

end Specs

-- everything that a turn can do to the registry
inductive Moves (P : Primitives) (turn : RegistryTurn) (registry : VersionedPolicyRegistry) :
    VersionedPolicyRegistry → Prop
  | same : Moves P turn registry registry
  | stored (stored : StoredPolicy)
      (fresh : Dict.get registry.storage (stored.id, stored.version) = none)
      (named : stored.version ≠ []) :
      Moves P turn registry
        { registry with storage := Dict.set registry.storage (stored.id, stored.version) stored }
  | registered (stored : StoredPolicy)
      (fresh : Dict.get registry.storage (stored.id, stored.version) = none)
      (named : stored.version ≠ []) :
      Moves P turn registry
        { registry with
          storage := Dict.set registry.storage (stored.id, stored.version) stored
          states := Dict.set registry.states (stored.id, stored.version) .published }
  | selected (given : Circumstances) (operation : PolicyOperation) (request : ActivationRequest)
      (hturn : turn = .call given operation) (hrequest : operation.activation? = some request)
      (admissible : registry.Admissible P given request) :
      Moves P turn registry (registry.select (registry.event given request))
  | deprecated (policyId version : Str)
      (known : Dict.has registry.storage (policyId, version) = true)
      (inactive : registry.state policyId version ≠ .active)
      (unrevoked : registry.state policyId version ≠ .revoked) :
      Moves P turn registry
        { registry with states := Dict.set registry.states (policyId, version) .deprecated }
  | withdrawn (policyId version : Str)
      (known : Dict.has registry.storage (policyId, version) = true) :
      Moves P turn registry (registry.withdraw policyId version)
  | altered (policyId version : Str) (stored : StoredPolicy)
      (known : Dict.has registry.storage (policyId, version) = true) :
      Moves P turn registry
        { registry with storage := Dict.set registry.storage (policyId, version) stored }

section Turns

variable {P : Primitives} {L : Libraries} {turn : RegistryTurn}
  {registry : VersionedPolicyRegistry} {given : Circumstances}

@[simp]
theorem save_fst {α : Type} (registry : VersionedPolicyRegistry) (given : Circumstances)
    (answer : α) : (registry.save given answer).1 = registry := by
  unfold save
  split <;> rfl

theorem moves_insert {stored : StoredPolicy}
    (fresh : Dict.get registry.storage (stored.id, stored.version) = none)
    (named : stored.version ≠ []) : Moves P turn registry (registry.insert given stored).1 := by
  unfold insert
  split
  · exact .stored stored fresh named
  · exact .same
  · rw [save_fst]
    exact .registered stored fresh named

theorem moves_register (policy : PyVal) :
    Moves P turn registry (registry.register P L given policy).1 := by
  unfold register
  split
  · exact .same
  · exact .same
  · rename_i stored hadmit
    obtain ⟨stored', hstored, hadmit⟩ := bind_eq_ok.mp hadmit
    obtain ⟨existing, hexisting, hadmit⟩ := bind_eq_ok.mp hadmit
    obtain ⟨checked, -, hadmit⟩ := bind_eq_ok.mp hadmit
    obtain ⟨rfl, rfl⟩ := Prod.mk.inj (Except.ok.inj hadmit)
    exact moves_insert (find_eq_ok hexisting).symm (newStored_version hstored)

theorem moves_publish (policy : PyVal) (signer : PolicySigner) (signedAt : Option Str) :
    Moves P turn registry (registry.publish P L given policy signer signedAt).1 := by
  unfold publish
  split
  · exact .same
  · rename_i stored hadmit
    obtain ⟨stored', hstored, hadmit⟩ := bind_eq_ok.mp hadmit
    obtain ⟨existing, hexisting, hadmit⟩ := bind_eq_ok.mp hadmit
    obtain ⟨checked, hfresh, hadmit⟩ := bind_eq_ok.mp hadmit
    obtain ⟨result, -, hadmit⟩ := bind_eq_ok.mp hadmit
    obtain ⟨valid, -, hadmit⟩ := bind_eq_ok.mp hadmit
    obtain rfl := Except.ok.inj hadmit
    refine moves_insert ?_ (newStored_version hstored)
    rw [← find_eq_ok hexisting]
    simpa using hfresh

theorem activate_fst (registry : VersionedPolicyRegistry) (given : Circumstances)
    (request : ActivationRequest) :
    (registry.Admissible P given request ∧
      (registry.activate P given request).1 = registry.select (registry.event given request)) ∨
    (¬ registry.Admissible P given request ∧ ∃ e, registry.activate P given request =
      (registry, .error e)) := by
  unfold activate
  cases hadmit : registry.admitActivation P given request with
  | ok event =>
      obtain ⟨hadmissible, rfl⟩ := admitActivation_eq_ok.mp hadmit
      exact Or.inl ⟨hadmissible, save_fst _ _ _⟩
  | error e =>
      refine Or.inr ⟨fun hadmissible => ?_, e, rfl⟩
      rw [admitActivation_eq_ok.mpr ⟨hadmissible, rfl⟩] at hadmit
      cases hadmit

theorem moves_activate {operation : PolicyOperation} {request : ActivationRequest}
    (hrequest : operation.activation? = some request) :
    Moves P (.call given operation) registry (registry.activate P given request).1 := by
  rcases activate_fst registry given request with ⟨hadmissible, h⟩ | ⟨-, e, h⟩
  · rw [h]
    exact .selected given operation request rfl hrequest hadmissible
  · rw [h]
    exact .same

theorem moves_deprecate (policyId version : Str) (identity : Option (List Role)) :
    Moves P turn registry (registry.deprecateVersion P given policyId version identity).1 := by
  unfold deprecateVersion
  split
  · exact .same
  · rename_i hadmit
    rw [save_fst]
    obtain ⟨permitted, -, hadmit⟩ := bind_eq_ok.mp hadmit
    obtain ⟨state, hstate, hadmit⟩ := bind_eq_ok.mp hadmit
    obtain ⟨stored, hstored, hstate⟩ := bind_eq_ok.mp hstate
    obtain rfl := Except.ok.inj hstate
    obtain ⟨inactive, hinactive, hunrevoked⟩ := bind_eq_ok.mp hadmit
    exact .deprecated policyId version (has_of_get hstored) (raiseIf_eq_ok.mp hinactive)
      (raiseIf_eq_ok.mp hunrevoked)

theorem moves_revoke (policyId version : Str) (identity : Option (List Role)) :
    Moves P turn registry (registry.revoke P given policyId version identity).1 := by
  unfold revoke
  split
  · exact .same
  · rename_i hadmit
    rw [save_fst]
    obtain ⟨permitted, -, hadmit⟩ := bind_eq_ok.mp hadmit
    obtain ⟨stored, hstored, -⟩ := bind_eq_ok.mp hadmit
    exact .withdrawn policyId version (has_of_get hstored)

theorem take_moves (registry : VersionedPolicyRegistry) (turn : RegistryTurn) :
    Moves P turn registry (registry.take P L turn) := by
  cases turn with
  | call given operation =>
      cases operation with
      | register policy => exact moves_register policy
      | publish policy signer signedAt => exact moves_publish policy signer signedAt
      | activate request => exact moves_activate rfl
      | rollback request => exact moves_activate rfl
      | deprecateVersion policyId version identity => exact moves_deprecate policyId version identity
      | revoke policyId version identity => exact moves_revoke policyId version identity
  | altered policyId version stored =>
      rw [take]
      split
      · rename_i known
        exact .altered policyId version stored known
      · exact .same

end Turns

end VersionedPolicyRegistry

end GovernedAutonomy
