import GovernedAutonomy.PolicyRoundTrip

namespace GovernedAutonomy

open Python PolicyDocument

namespace RawPolicy

section Entries

variable {V : Type} {d : List (PyKey × V)}

theorem mem_sortedEntries {m : PyKey × V} : m ∈ sortedEntries d ↔ m ∈ d := List.mem_insertionSort _

theorem pairwise_sortedEntries (d : List (PyKey × V)) :
    (sortedEntries d).Pairwise (fun a b => nameOf a.1 ≤ nameOf b.1) := by
  have htotal : Std.Total (fun a b : PyKey × V => nameOf a.1 ≤ nameOf b.1) :=
    ⟨fun a b => le_total (nameOf a.1) (nameOf b.1)⟩
  have htrans : IsTrans (PyKey × V) (fun a b => nameOf a.1 ≤ nameOf b.1) := ⟨fun _ _ _ => le_trans⟩
  exact List.pairwise_insertionSort _ d

@[simp]
theorem sortedEntries_sortedEntries (d : List (PyKey × V)) :
    sortedEntries (sortedEntries d) = sortedEntries d :=
  List.Pairwise.insertionSort_eq (pairwise_sortedEntries d)

theorem sortedEntries_map {W : Type} (d : List (PyKey × V)) (f : V → W) :
    sortedEntries ((sortedEntries d).map (fun m => (m.1, f m.2))) =
      (sortedEntries d).map (fun m => (m.1, f m.2)) :=
  List.Pairwise.insertionSort_eq (List.pairwise_map.mpr (pairwise_sortedEntries d))

@[simp]
theorem isEmpty_sortedEntries (d : List (PyKey × V)) : (sortedEntries d).isEmpty = d.isEmpty := by
  rw [Bool.eq_iff_iff, List.isEmpty_iff_length_eq_zero, List.isEmpty_iff_length_eq_zero,
    sortedEntries, List.length_insertionSort]

@[simp]
theorem sortedDict_sortedDict (value : PyVal) : sortedDict (sortedDict value) = sortedDict value := by
  cases value with
  | dict d => exact congrArg PyVal.dict (sortedEntries_sortedEntries d)
  | _ => rfl

theorem sortedEntries_items {W : Type} (d : List (Str × W)) (f : W → V) :
    sortedEntries (d.map (fun m => (PyKey.str m.1, f m.2))) =
      (sortedItems d).map (fun m => (PyKey.str m.1, f m.2)) :=
  (List.map_insertionSort (fun a b : Str × W => a.1 ≤ b.1)
    (fun a b : PyKey × V => nameOf a.1 ≤ nameOf b.1) (fun m => (PyKey.str m.1, f m.2)) d
      fun _ _ _ _ => Iff.rfl).symm

end Entries

section Validity

def Positive (value : PyVal) : Prop :=
  value.compareNumber (fun x => decide (x ≤ intValue 0)) = .ok false

def Names (xs : List PyVal) : Prop := ∀ x ∈ xs, isName x = true

def SortedNames (xs : List PyVal) : Prop := Names xs ∧ unsorted xs = .ok false

-- what __post_init__ has checked of every policy that exists
structure Valid (p : RawPolicy) : Prop where
  policyId : p.policyId.truthy = true
  maxRequestBytes : Positive p.maxRequestBytes
  maxTtlSeconds : Positive p.maxTtlSeconds
  allowedActions : SortedNames p.allowedActions
  requiredContext : SortedNames p.requiredContext
  requiredFields : ∀ m ∈ p.requiredFields, checkFields m = .ok ()
  exactFields : ∀ m ∈ p.exactFields, checkExact m = .ok ()
  requiredApprovals : ∀ m ∈ p.requiredApprovals, checkApprovals m = .ok ()
  maxNumericFields : ∀ m ∈ p.maxNumericFields, checkLimits m = .ok ()
  requiredMeshInputs : ∀ m ∈ p.requiredMeshInputs, checkInputs m = .ok ()
  requiredMeshSources : ∀ m ∈ p.requiredMeshSources, checkSources m = .ok ()
  meshRequiredActions : SortedNames p.meshRequiredActions
  meshRequiredEnvironments : SortedNames p.meshRequiredEnvironments

variable {message : String} {value : PyVal} {xs : List PyVal} {u : Unit}

theorem positive_eq_ok : positive message value = .ok u ↔ Positive value := by
  rw [positive, bind_eq_ok, Positive]
  simp only [reject_eq_ok, exists_eq_right]

theorem names_eq_ok : names message xs = .ok u ↔ Names xs := by
  rw [names, reject_eq_ok, List.any_eq_false]
  simp only [Bool.not_eq_true', Bool.not_eq_false, Names]

theorem inOrder_eq_ok : inOrder message xs = .ok u ↔ unsorted xs = .ok false := by
  rw [inOrder, bind_eq_ok]
  simp only [reject_eq_ok, exists_eq_right]

end Validity

section Documents

variable (p : RawPolicy)

-- the policy as to_dict gives it, with every dictionary in the order of its keys
def sorted (p : RawPolicy) : RawPolicy :=
  { p with
    requiredFields := sortedEntries p.requiredFields
    exactFields := sortedEntries p.exactFields
    requiredApprovals := sortedEntries p.requiredApprovals
    maxNumericFields := (sortedEntries p.maxNumericFields).map (fun m => (m.1, sortedDict m.2))
    requiredMeshInputs := sortedEntries p.requiredMeshInputs
    requiredMeshSources := sortedEntries p.requiredMeshSources }

def entries {V : Type} (f : V → PyVal) (d : List (PyKey × V)) : PyVal :=
  .dict (d.map (fun m => (m.1, f m.2)))

-- the policy as a dictionary, with its own dictionaries in the order that they have
def written : PyDict :=
  let base := PyDict.ofFields
    [("policy_id", p.policyId), ("allowed_actions", .list p.allowedActions),
      ("required_fields", entries .list p.requiredFields),
      ("exact_fields", entries id p.exactFields), ("required_context", .list p.requiredContext),
      ("exact_context", .dict p.exactContext), ("max_request_bytes", p.maxRequestBytes),
      ("max_ttl_seconds", p.maxTtlSeconds),
      ("required_approvals", entries id p.requiredApprovals)]
  let optional (present : Bool) (name : String) (value : PyVal) : PyDict :=
    if present then [(.str (lit name), value)] else []
  base ++
    optional (!p.maxNumericFields.isEmpty) "max_numeric_fields" (entries id p.maxNumericFields) ++
    optional (!p.requiredMeshInputs.isEmpty) "required_mesh_inputs"
      (entries id p.requiredMeshInputs) ++
    optional (!p.requiredMeshSources.isEmpty) "required_mesh_sources"
      (entries .list p.requiredMeshSources) ++
    optional (!p.meshRequiredActions.isEmpty) "mesh_required_actions"
      (.list p.meshRequiredActions) ++
    optional (!p.meshRequiredEnvironments.isEmpty) "mesh_required_environments"
      (.list p.meshRequiredEnvironments)

theorem sorted_written : p.sorted.written = p.toDict := by
  simp only [toDict, written, sorted, entries, mapped, isEmpty_sortedEntries, List.isEmpty_map,
    List.map_map, Function.comp_def, id]
  rfl

theorem sorted_toDict : p.sorted.toDict = p.toDict := by
  simp only [toDict, sorted, mapped, sortedEntries_sortedEntries, sortedEntries_map,
    isEmpty_sortedEntries, List.isEmpty_map, List.map_map, Function.comp_def, sortedDict_sortedDict]
  rfl

theorem sorted_digest (P : Primitives) : p.sorted.digest P = p.digest P := by
  rw [digest, digest, sorted_toDict]

theorem hasOnly_written : PyDict.hasOnly p.written (required ++ optional) = true := by
  simp only [written, hasOnly_append, Bool.and_eq_true]
  refine ⟨⟨⟨⟨⟨?_, ?_⟩, ?_⟩, ?_⟩, ?_⟩, ?_⟩
  · simp [PyDict.hasOnly, PyDict.ofFields, PolicyDocument.required, PolicyDocument.optional]
  all_goals exact hasOnly_optional _ _ (by simp [PolicyDocument.required, PolicyDocument.optional])

theorem hasAll_written : PyDict.hasAll p.written required = true := by
  unfold written
  exact hasAll_append (hasAll_append (hasAll_append (hasAll_append (hasAll_append
    (hasAll_required _ _ _ _ _ _ _ _ _) _) _) _) _) _

theorem get_written (key : String) : PyDict.get p.written (lit key) =
    ((((((PyDict.get (PyDict.ofFields
      [("policy_id", p.policyId), ("allowed_actions", .list p.allowedActions),
        ("required_fields", entries .list p.requiredFields),
        ("exact_fields", entries id p.exactFields),
        ("required_context", .list p.requiredContext), ("exact_context", .dict p.exactContext),
        ("max_request_bytes", p.maxRequestBytes), ("max_ttl_seconds", p.maxTtlSeconds),
        ("required_approvals", entries id p.requiredApprovals)]) (lit key)).or
      (if (!p.maxNumericFields.isEmpty) = true ∧ "max_numeric_fields" = key then
        some (entries id p.maxNumericFields) else none)).or
      (if (!p.requiredMeshInputs.isEmpty) = true ∧ "required_mesh_inputs" = key then
        some (entries id p.requiredMeshInputs) else none)).or
      (if (!p.requiredMeshSources.isEmpty) = true ∧ "required_mesh_sources" = key then
        some (entries .list p.requiredMeshSources) else none)).or
      (if (!p.meshRequiredActions.isEmpty) = true ∧ "mesh_required_actions" = key then
        some (.list p.meshRequiredActions) else none)).or
      (if (!p.meshRequiredEnvironments.isEmpty) = true ∧ "mesh_required_environments" = key then
        some (.list p.meshRequiredEnvironments) else none)) := by
  unfold written
  simp only [get_append, get_optional]

theorem getD_written {key : String} {value : PyVal}
    (h : PyDict.get p.written (lit key) = some value) : PyDict.getD p.written (lit key) = value :=
  PyDict.getD_of_get h

-- a field that is left out when it is empty reads as its default
theorem fieldOr_entries {V : Type} (f : V → PyVal) {d : List (PyKey × V)} {key : String}
    (h : PyDict.get p.written (lit key) =
      if (!d.isEmpty) = true then some (entries f d) else none) :
    fieldOr p.written key (.dict []) = entries f d := by
  rw [fieldOr, h]
  refine getD_optional _ fun hd => ?_
  rw [hd]
  rfl

theorem tupleOf_items {xs : List PyVal} {key : String}
    (h : PyDict.get p.written (lit key) = if (!xs.isEmpty) = true then some (.list xs) else none) :
    tupleOf (fieldOr p.written key (.tuple [])) = .ok xs := by
  rw [fieldOr, h]
  cases xs <;> rfl

theorem tuplesOf_entries (d : List (PyKey × List PyVal)) : tuplesOf (entries .list d) = .ok d := by
  rw [tuplesOf, entries, dictOf]
  exact mapM_map_eq_self fun _ _ => rfl

theorem itemsOf_entries (d : PyDict) : itemsOf (entries id d) = .ok d := by
  rw [itemsOf, entries, dictOf]
  simp

end Documents

section Reading

variable {p : RawPolicy}

theorem postInit_written (h : p.Valid) :
    postInit p.written p.allowedActions p.requiredContext p.requiredFields p.requiredMeshSources
      p.meshRequiredActions p.meshRequiredEnvironments = .ok p := by
  have hid : PyDict.getD p.written (lit "policy_id") = p.policyId :=
    getD_written p (by rw [get_written]; simp)
  have hbytes : PyDict.getD p.written (lit "max_request_bytes") = p.maxRequestBytes :=
    getD_written p (by rw [get_written]; simp)
  have httl : PyDict.getD p.written (lit "max_ttl_seconds") = p.maxTtlSeconds :=
    getD_written p (by rw [get_written]; simp)
  have hexact : PyDict.getD p.written (lit "exact_fields") = entries id p.exactFields :=
    getD_written p (by rw [get_written]; simp)
  have hcontext : PyDict.getD p.written (lit "exact_context") = .dict p.exactContext :=
    getD_written p (by rw [get_written]; simp)
  have happrovals : fieldOr p.written "required_approvals" (.dict []) =
      entries id p.requiredApprovals := by
    rw [fieldOr, get_written]
    simp
  have hlimits : fieldOr p.written "max_numeric_fields" (.dict []) =
      entries id p.maxNumericFields := by
    refine fieldOr_entries p id ?_
    rw [get_written]
    simp
  have hinputs : fieldOr p.written "required_mesh_inputs" (.dict []) =
      entries id p.requiredMeshInputs := by
    refine fieldOr_entries p id ?_
    rw [get_written]
    simp
  have hpass (message : String) : Policy.reject false message = .ok () := rfl
  have hpositive {value : PyVal} (hvalue : Positive value) (message : String) :
      positive message value = .ok () := positive_eq_ok.mpr hvalue
  have hnames {xs : List PyVal} (hxs : SortedNames xs) (message : String) :
      names message xs = .ok () := names_eq_ok.mpr hxs.1
  have horder {xs : List PyVal} (hxs : SortedNames xs) (message : String) :
      inOrder message xs = .ok () := inOrder_eq_ok.mpr hxs.2
  have heach {α : Type} {check : α → Result Unit} {xs : List α}
      (hxs : ∀ x ∈ xs, check x = .ok ()) : xs.forM check = .ok () := each_eq_ok.mpr hxs
  have hobject : contextDict (.dict p.exactContext) = .ok p.exactContext := rfl
  simp only [postInit, hid, h.policyId, Bool.not_true, hpass, hbytes, hpositive h.maxRequestBytes,
    httl, hpositive h.maxTtlSeconds, hnames h.allowedActions, horder h.allowedActions,
    horder h.requiredContext, hnames h.requiredContext, heach h.requiredFields, hexact,
    itemsOf_entries, heach h.exactFields, hcontext, hobject, happrovals,
    heach h.requiredApprovals, hlimits, heach h.maxNumericFields, hinputs,
    heach h.requiredMeshInputs, heach h.requiredMeshSources,
    hnames h.meshRequiredActions, horder h.meshRequiredActions, hnames h.meshRequiredEnvironments,
    horder h.meshRequiredEnvironments, bind, Except.bind]

theorem ofValue_written (h : p.Valid) : ofValue (.dict p.written) = .ok p := by
  have hactions : PyDict.getD p.written (lit "allowed_actions") = .list p.allowedActions :=
    getD_written p (by rw [get_written]; simp)
  have hfields : PyDict.getD p.written (lit "required_fields") = entries .list p.requiredFields :=
    getD_written p (by rw [get_written]; simp)
  have hcontext : PyDict.getD p.written (lit "required_context") = .list p.requiredContext :=
    getD_written p (by rw [get_written]; simp)
  have hsources : fieldOr p.written "required_mesh_sources" (.dict []) =
      entries .list p.requiredMeshSources := by
    refine fieldOr_entries p .list ?_
    rw [get_written]
    simp
  have hmesh : tupleOf (fieldOr p.written "mesh_required_actions" (.tuple [])) =
      .ok p.meshRequiredActions := by
    refine tupleOf_items p ?_
    rw [get_written]
    simp
  have henvironments : tupleOf (fieldOr p.written "mesh_required_environments" (.tuple [])) =
      .ok p.meshRequiredEnvironments := by
    refine tupleOf_items p ?_
    rw [get_written]
    simp
  have htuple (xs : List PyVal) : tupleOf (.list xs) = .ok xs := rfl
  have hschema : ¬ (PyDict.hasOnly p.written (required ++ optional) = false ∨
      PyDict.hasAll p.written required = false) := by
    simp [hasOnly_written, hasAll_written]
  simp only [ofValue, dictOf, raiseIf_of_not hschema, hactions, hfields, hcontext, htuple,
    tuplesOf_entries, hsources, hmesh, henvironments, postInit_written h, bind, Except.bind]

theorem valid_of_ofValue {value : PyVal} (h : ofValue value = .ok p) : p.Valid := by
  simp only [ofValue, postInit, bind_eq_ok, reject_eq_ok, positive_eq_ok, names_eq_ok,
    inOrder_eq_ok, each_eq_ok] at h
  obtain ⟨d, -, -, -, actions, -, fields, -, context, -, sources, -, meshActions, -,
    meshEnvironments, -, -, hid, -, hbytes, -, httl, -, hactions, -, hactionsSorted, -,
    hcontextSorted, -, hcontext, -, hfields, exact, -, -, hexact, exactContext, -, approvals, -, -,
    happrovals, limits, -, -, hlimits, inputs, -, -, hinputs, -, hsources, -, hmesh, -, hmeshSorted,
    -, henvironments, -, henvironmentsSorted, h⟩ := h
  obtain rfl := Except.ok.inj h
  exact
    { policyId := by simpa using hid
      maxRequestBytes := hbytes
      maxTtlSeconds := httl
      allowedActions := ⟨hactions, hactionsSorted⟩
      requiredContext := ⟨hcontext, hcontextSorted⟩
      requiredFields := hfields
      exactFields := hexact
      requiredApprovals := happrovals
      maxNumericFields := hlimits
      requiredMeshInputs := hinputs
      requiredMeshSources := hsources
      meshRequiredActions := ⟨hmesh, hmeshSorted⟩
      meshRequiredEnvironments := ⟨henvironments, henvironmentsSorted⟩ }

-- a limit is checked alike in whatever order its dictionary is
theorem checkLimits_sortedDict {m : PyKey × PyVal} (h : checkLimits m = .ok ()) :
    checkLimits (m.1, sortedDict m.2) = .ok () := by
  obtain ⟨action, value⟩ := m
  simp only [checkLimits, bind_eq_ok] at h ⊢
  obtain ⟨u, hname, fields, hfields, hlimits⟩ := h
  refine ⟨u, hname, ?_⟩
  cases value with
  | dict d =>
      obtain rfl := Except.ok.inj hfields
      refine ⟨sortedEntries d, rfl, each_eq_ok.mpr fun l hl => ?_⟩
      exact each_eq_ok.mp hlimits l (mem_sortedEntries.mp hl)
  | _ => cases hfields

theorem Valid.sorted (h : p.Valid) : p.sorted.Valid := by
  refine { h with
    requiredFields := fun m hm => h.requiredFields m (mem_sortedEntries.mp hm)
    exactFields := fun m hm => h.exactFields m (mem_sortedEntries.mp hm)
    requiredApprovals := fun m hm => h.requiredApprovals m (mem_sortedEntries.mp hm)
    requiredMeshInputs := fun m hm => h.requiredMeshInputs m (mem_sortedEntries.mp hm)
    requiredMeshSources := fun m hm => h.requiredMeshSources m (mem_sortedEntries.mp hm)
    maxNumericFields := ?_ }
  intro m hm
  obtain ⟨m', hm', rfl⟩ := List.mem_map.mp hm
  exact checkLimits_sortedDict (h.maxNumericFields m' (mem_sortedEntries.mp hm'))

theorem ofValue_toDict (h : p.Valid) : ofValue (.dict p.toDict) = .ok p.sorted := by
  rw [← p.sorted_written, ofValue_written h.sorted]

end Reading

end RawPolicy

namespace RawManifest

variable {manifest : RawManifest}

def sorted (manifest : RawManifest) : RawManifest :=
  { manifest with policy := manifest.policy.sorted }

theorem sorted_verify (P : Primitives) (manifest : RawManifest) (store : TrustStore) :
    manifest.sorted.verify P store = manifest.verify P store := by
  simp only [verify, unsignedPayload, sorted, RawPolicy.sorted_toDict]

theorem hasOnly_toDict (manifest : RawManifest) :
    PyDict.hasOnly manifest.toDict manifestKeys = true := by
  simp [PyDict.hasOnly, toDict, PyDict.ofFields, manifestKeys]

theorem hasAll_toDict (manifest : RawManifest) :
    PyDict.hasAll manifest.toDict manifestKeys = true := by
  simp [PyDict.hasAll, PyDict.has, toDict, manifestKeys]

theorem ofValue_toDict (hvalid : manifest.policy.Valid) (hissuer : manifest.issuerKeyId ≠ [])
    (hsignature : manifest.signature ≠ []) :
    ofValue (.dict manifest.toDict) = .ok manifest.sorted := by
  have hversion : PyDict.getD manifest.toDict (lit "version") = .int manifest.version :=
    PyDict.getD_of_get (by simp [toDict])
  have hkey : PyDict.getD manifest.toDict (lit "issuer_key_id") = .str manifest.issuerKeyId :=
    PyDict.getD_of_get (by simp [toDict])
  have hsigned : PyDict.getD manifest.toDict (lit "signature") = .str manifest.signature :=
    PyDict.getD_of_get (by simp [toDict])
  have hpolicy : PyDict.getD manifest.toDict (lit "policy") = .dict manifest.policy.toDict :=
    PyDict.getD_of_get (by simp [toDict])
  have hschema : ¬ (PyDict.hasOnly manifest.toDict manifestKeys = false ∨
      PyDict.hasAll manifest.toDict manifestKeys = false) := by
    simp [hasOnly_toDict, hasAll_toDict]
  simp only [ofValue, dictOf, raiseIf_of_not hschema, hversion, manifestVersion, hkey,
    nonEmptyStr_of_ne hissuer, hsigned, nonEmptyStr_of_ne hsignature, hpolicy,
    RawPolicy.ofValue_toDict hvalid, bind, Except.bind]
  rfl

-- what a document that is read names, it names with non-empty strings
theorem valid_of_ofValue {value : PyVal} (h : ofValue value = .ok manifest) :
    manifest.policy.Valid ∧ manifest.issuerKeyId ≠ [] ∧ manifest.signature ≠ [] := by
  simp only [ofValue, bind_eq_ok] at h
  obtain ⟨d, -, -, -, version, -, issuer, hissuer, signature, hsignature, policy, hpolicy, h⟩ := h
  obtain rfl := Except.ok.inj h
  exact ⟨RawPolicy.valid_of_ofValue hpolicy, (nonEmptyStr_eq_ok hissuer).2,
    (nonEmptyStr_eq_ok hsignature).2⟩

theorem named_of_ofValue_toDict {manifest' : RawManifest}
    (h : ofValue (.dict manifest.toDict) = .ok manifest') :
    manifest.issuerKeyId ≠ [] ∧ manifest.signature ≠ [] := by
  have hkey : PyDict.getD manifest.toDict (lit "issuer_key_id") = .str manifest.issuerKeyId :=
    PyDict.getD_of_get (by simp [toDict])
  have hsigned : PyDict.getD manifest.toDict (lit "signature") = .str manifest.signature :=
    PyDict.getD_of_get (by simp [toDict])
  simp only [ofValue, dictOf, bind_eq_ok] at h
  obtain ⟨d, hd, -, -, version, -, issuer, hissuer, signature, hsignature, -⟩ := h
  obtain rfl := Except.ok.inj hd
  rw [hkey] at hissuer
  rw [hsigned] at hsignature
  obtain ⟨hissuer, hissuerNe⟩ := nonEmptyStr_eq_ok hissuer
  obtain ⟨hsignature, hsignatureNe⟩ := nonEmptyStr_eq_ok hsignature
  exact ⟨PyVal.str.inj hissuer ▸ hissuerNe, PyVal.str.inj hsignature ▸ hsignatureNe⟩

end RawManifest

namespace Policy

-- a policy of the declared types among those that a manifest can give
def raw (p : Policy) : RawPolicy where
  policyId := .str p.policyId
  allowedActions := p.allowedActions.map .str
  requiredFields := p.requiredFields.map (fun m => (.str m.1, m.2.map .str))
  exactFields := p.exactFields.map (fun m => (.str m.1, strDict id m.2))
  requiredContext := p.requiredContext.map .str
  exactContext := p.exactContext.map (fun m => (.str m.1, m.2))
  maxRequestBytes := .int p.maxRequestBytes
  maxTtlSeconds := .int p.maxTtlSeconds
  requiredApprovals := p.requiredApprovals.map (fun m => (.str m.1, .int m.2))
  maxNumericFields := p.maxNumericFields.map (fun m => (.str m.1, strDict Number.toVal m.2))
  requiredMeshInputs := p.requiredMeshInputs.map (fun m => (.str m.1, .int m.2))
  requiredMeshSources := p.requiredMeshSources.map (fun m => (.str m.1, m.2.map .str))
  meshRequiredActions := p.meshRequiredActions.map .str
  meshRequiredEnvironments := p.meshRequiredEnvironments.map .str

theorem raw_written (p : Policy) : p.raw.written = p.written := by
  simp only [RawPolicy.written, written, raw, RawPolicy.entries, strDict, strList, List.isEmpty_map,
    List.map_map, Function.comp_def, id]

theorem raw_sorted (p : Policy) : p.raw.sorted = p.ordered.raw := by
  have hlimits : ((sortedItems p.maxNumericFields).map (fun m =>
      (PyKey.str m.1, strDict Number.toVal m.2))).map (fun m => (m.1, RawPolicy.sortedDict m.2)) =
        ((sortedItems p.maxNumericFields).map (fun m => (m.1, sortedItems m.2))).map
          (fun m => (PyKey.str m.1, strDict Number.toVal m.2)) := by
    rw [List.map_map, List.map_map]
    refine List.map_congr_left fun m _ => ?_
    exact congrArg (fun d => (PyKey.str m.1, PyVal.dict d)) (RawPolicy.sortedEntries_items _ _)
  simp only [RawPolicy.sorted, ordered, raw, RawPolicy.sortedEntries_items, hlimits]

theorem raw_toDict (p : Policy) : p.raw.toDict = p.toDict := by
  rw [← RawPolicy.sorted_written, raw_sorted, raw_written, ordered_written]

theorem raw_digest (P : Primitives) (p : Policy) : p.raw.digest P = p.digest P := by
  rw [RawPolicy.digest, raw_toDict, digest]

theorem isName_str {s : Str} : RawPolicy.isName (.str s) = true ↔ s ≠ [] := by
  simp [RawPolicy.isName]

theorem Names.raw {ss : List Str} (h : Names ss) : RawPolicy.Names (ss.map .str) := by
  intro x hx
  obtain ⟨s, hs, rfl⟩ := List.mem_map.mp hx
  exact isName_str.mpr (h s hs)

theorem SortedNames.raw {ss : List Str} (h : SortedNames ss) :
    RawPolicy.SortedNames (ss.map .str) :=
  ⟨Names.raw h.1, by rw [RawPolicy.unsorted_strs, h.2]; simp⟩

theorem positive_int {i : ℤ} (h : 0 < i) : RawPolicy.Positive (.int i) := by
  rw [RawPolicy.Positive, PyVal.compareNumber_eq_ok]
  simpa [PyVal.isNumber, PyVal.number?, PyVal.intValue_le] using h

theorem actionNamed_str {message : String} {s : Str} (h : s ≠ []) :
    RawPolicy.actionNamed message (.str s) = .ok () :=
  reject_eq_ok.mpr (by simpa [keyVal, RawPolicy.isName] using h)

theorem count_int {message : String} {i : ℤ} (h : 0 ≤ i) :
    RawPolicy.count message (.int i) = .ok () :=
  reject_eq_ok.mpr (by simpa using h)

theorem checkLimit_toVal {l : Str × Number} (hname : l.1 ≠ []) (hfinite : l.2.isFinite = .ok true) :
    RawPolicy.checkLimit (.str l.1, l.2.toVal) = .ok () := by
  obtain ⟨name, limit⟩ := l
  cases limit <;> simp only [RawPolicy.checkLimit, Number.toVal, actionNamed_str hname, hfinite,
    bind, Except.bind] <;> rfl

theorem Valid.raw {p : Policy} (h : p.Valid) : p.raw.Valid := by
  have hentries {V W : Type} {d : List (Str × V)} {f : V → W} {good : PyKey × W → Prop}
      (hd : ∀ m ∈ d, good (.str m.1, f m.2)) :
      ∀ m ∈ d.map (fun m => (PyKey.str m.1, f m.2)), good m := by
    simpa only [List.forall_mem_map] using hd
  have hnames {ss : List Str} (hss : Names ss) (message : String) :
      RawPolicy.names message (ss.map .str) = .ok () :=
    RawPolicy.names_eq_ok.mpr (Names.raw hss)
  exact
    { policyId := by simpa [Policy.raw, PyVal.truthy] using h.policyId
      maxRequestBytes := positive_int h.maxRequestBytes
      maxTtlSeconds := positive_int h.maxTtlSeconds
      allowedActions := SortedNames.raw h.allowedActions
      requiredContext := SortedNames.raw h.requiredContext
      requiredFields := hentries fun m hm => by
        obtain ⟨hname, hfields⟩ := h.requiredFields m hm
        simp only [RawPolicy.checkFields, actionNamed_str hname, hnames hfields, bind, Except.bind]
      exactFields := hentries fun m hm => by
        simp only [RawPolicy.checkExact, actionNamed_str (h.exactFields m hm), bind, Except.bind]
        rfl
      requiredApprovals := hentries fun m hm => by
        obtain ⟨hname, hcount⟩ := h.requiredApprovals m hm
        simp only [RawPolicy.checkApprovals, actionNamed_str hname, count_int hcount, bind,
          Except.bind]
      maxNumericFields := hentries fun m hm => by
        obtain ⟨hname, hlimits⟩ := h.maxNumericFields m hm
        have hchecked : (m.2.map (fun l => (PyKey.str l.1, l.2.toVal))).forM RawPolicy.checkLimit =
            .ok () := each_eq_ok.mpr (hentries fun l hl => checkLimit_toVal (hlimits l hl).1
              (hlimits l hl).2)
        simp only [RawPolicy.checkLimits, actionNamed_str hname, strDict, dictOf, hchecked, bind,
          Except.bind]
      requiredMeshInputs := hentries fun m hm => by
        obtain ⟨hname, hcount⟩ := h.requiredMeshInputs m hm
        simp only [RawPolicy.checkInputs, actionNamed_str hname, count_int hcount, bind,
          Except.bind]
      requiredMeshSources := hentries fun m hm => by
        obtain ⟨hname, hsources⟩ := h.requiredMeshSources m hm
        simp only [RawPolicy.checkSources, actionNamed_str hname, hnames hsources, bind, Except.bind]
      meshRequiredActions := SortedNames.raw h.meshRequiredActions
      meshRequiredEnvironments := SortedNames.raw h.meshRequiredEnvironments }

theorem ofValue_written {p : Policy} (h : p.Valid) :
    RawPolicy.ofValue (.dict p.written) = .ok p.raw := by
  rw [← raw_written, RawPolicy.ofValue_written h.raw]

-- what to_dict writes is read back as the policy, with its dictionaries in the order of their keys
theorem ofValue_toDict {p : Policy} (h : p.Valid) :
    RawPolicy.ofValue (.dict p.toDict) = .ok p.ordered.raw := by
  rw [← ordered_written, ofValue_written h.ordered]

end Policy

namespace SignedPolicyManifest

variable (P : Primitives) (manifest : SignedPolicyManifest)

def raw : RawManifest :=
  ⟨manifest.policy.raw, manifest.version, manifest.issuerKeyId, manifest.signature⟩

theorem raw_unsignedPayload : manifest.raw.unsignedPayload P = manifest.unsignedPayload P := by
  simp only [RawManifest.unsignedPayload, unsignedPayload, raw, Policy.raw_toDict]

theorem raw_verify (store : TrustStore) : manifest.raw.verify P store = manifest.verify P store := by
  simp only [RawManifest.verify, verify, raw_unsignedPayload]
  rfl

theorem raw_toDict : manifest.raw.toDict = manifest.toDict := by
  simp only [RawManifest.toDict, toDict, raw, Policy.raw_toDict]

end SignedPolicyManifest

end GovernedAutonomy
