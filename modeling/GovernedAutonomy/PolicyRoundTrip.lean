import GovernedAutonomy.Protocol.Groups
import GovernedAutonomy.Python.Reordered
import GovernedAutonomy.RawPolicy

namespace GovernedAutonomy

open Python

theorem mapM_map_eq_ok {ε α β γ : Type} {f : β → Except ε γ} {g : α → β} {h : α → γ}
    {xs : List α} (hx : ∀ x ∈ xs, f (g x) = .ok (h x)) :
    (xs.map g).mapM f = .ok (xs.map h) := by
  induction xs with
  | nil => rfl
  | cons x xs ih =>
      rw [List.map_cons, List.mapM_cons, hx x List.mem_cons_self,
        ih fun y hy => hx y (List.mem_cons_of_mem x hy)]
      rfl

theorem mapM_map_eq_self {ε α β : Type} {f : β → Except ε α} {g : α → β} {xs : List α}
    (hx : ∀ x ∈ xs, f (g x) = .ok x) : (xs.map g).mapM f = .ok xs := by
  rw [mapM_map_eq_ok (h := id) hx, List.map_id]

theorem of_mapM_eq_ok {ε α β : Type} {f : α → Except ε β} {xs : List α} {ys : List β}
    (h : xs.mapM f = .ok ys) {x : α} (hx : x ∈ xs) : ∃ y ∈ ys, f x = .ok y := by
  induction xs generalizing ys with
  | nil => cases hx
  | cons x' xs ih =>
      simp only [List.mapM_cons, bind_eq_ok] at h
      obtain ⟨z, hz, zs, hzs, h⟩ := h
      obtain rfl := Except.ok.inj h
      rcases List.mem_cons.mp hx with rfl | hx
      · exact ⟨z, List.mem_cons_self, hz⟩
      · obtain ⟨y, hy, hxy⟩ := ih hzs hx
        exact ⟨y, List.mem_cons_of_mem z hy, hxy⟩

theorem each_eq_ok {ε α : Type} {f : α → Except ε Unit} {xs : List α} {u : Unit} :
    xs.forM f = .ok u ↔ ∀ x ∈ xs, f x = .ok () := forM_eq_ok

theorem mem_sortedItems {V : Type} {d : List (Str × V)} {m : Str × V} :
    m ∈ sortedItems d ↔ m ∈ d := List.mem_insertionSort _

theorem pairwise_sortedItems {V : Type} (d : List (Str × V)) :
    (sortedItems d).Pairwise (fun a b => a.1 ≤ b.1) := by
  have htotal : Std.Total (fun a b : Str × V => a.1 ≤ b.1) := ⟨fun a b => le_total a.1 b.1⟩
  have htrans : IsTrans (Str × V) (fun a b => a.1 ≤ b.1) := ⟨fun _ _ _ => le_trans⟩
  exact List.pairwise_insertionSort _ d

theorem sortedItems_map {V W : Type} (d : List (Str × V)) (f : V → W) :
    sortedItems ((sortedItems d).map (fun m => (m.1, f m.2))) =
      (sortedItems d).map (fun m => (m.1, f m.2)) :=
  List.Pairwise.insertionSort_eq (List.pairwise_map.mpr (pairwise_sortedItems d))

@[simp]
theorem sortedItems_sortedItems {V : Type} (d : List (Str × V)) :
    sortedItems (sortedItems d) = sortedItems d :=
  List.Pairwise.insertionSort_eq (pairwise_sortedItems d)

@[simp]
theorem isEmpty_sortedItems {V : Type} (d : List (Str × V)) :
    (sortedItems d).isEmpty = d.isEmpty := by
  rw [Bool.eq_iff_iff, List.isEmpty_iff_length_eq_zero, List.isEmpty_iff_length_eq_zero,
    sortedItems, List.length_insertionSort]

section Sorted

variable {V W : Type} {d e : List (Str × V)}

theorem sortedItems_ext (hd : Dict.Distinct d) (he : Dict.Distinct e)
    (h : ∀ k, Dict.get d k = Dict.get e k) : sortedItems d = sortedItems e := by
  apply Protocol.insertionSort_perm Prod.fst (fun _ _ => Iff.rfl) (Dict.perm_of_get hd he h)
  intro m hm m' hm' hkey
  have hget := Dict.get_of_mem hd hm (k := m'.1) (by simp [same_list, hkey])
  rw [Dict.get_of_mem hd hm' (by simp [same_list])] at hget
  exact Prod.ext hkey (Option.some.inj hget).symm

theorem distinct_map (f : V → W) (hd : Dict.Distinct d) :
    Dict.Distinct (d.map (fun m => (m.1, f m.2))) := List.pairwise_map.mpr hd

theorem distinct_sortedItems (hd : Dict.Distinct d) : Dict.Distinct (sortedItems d) :=
  Dict.distinct_of_perm hd (List.perm_insertionSort _ d).symm

theorem get_sortedItems (hd : Dict.Distinct d) (k : Str) :
    Dict.get (sortedItems d) k = Dict.get d k :=
  (Dict.get_perm hd (List.perm_insertionSort _ d).symm k).symm

-- two sorted dicts with distinct keys agree up to f exactly when every key does
theorem map_sortedItems_eq_iff (f : V → W) (hd : Dict.Distinct d) (he : Dict.Distinct e) :
    (sortedItems d).map (fun m => (m.1, f m.2)) = (sortedItems e).map (fun m => (m.1, f m.2)) ↔
      ∀ k, (Dict.get (sortedItems d) k).map f = (Dict.get (sortedItems e) k).map f := by
  constructor
  · intro h k
    rw [← Dict.get_map, ← Dict.get_map, h]
  · intro h
    rw [← sortedItems_map d, ← sortedItems_map e]
    apply sortedItems_ext (distinct_map f (distinct_sortedItems hd))
      (distinct_map f (distinct_sortedItems he))
    intro k
    rw [Dict.get_map, Dict.get_map]
    exact h k

end Sorted

theorem anyEmpty_eq_false {ss : List Str} : Policy.anyEmpty ss = false ↔ ∀ s ∈ ss, s ≠ [] := by
  simp [Policy.anyEmpty]

theorem reject_eq_ok {bad : Bool} {message : String} {u : Unit} :
    Policy.reject bad message = .ok u ↔ bad = false := by
  rw [Policy.reject, raiseIf_eq_ok, Bool.not_eq_true]

namespace Policy

def Names (ss : List Str) : Prop := ∀ s ∈ ss, s ≠ []

def SortedNames (ss : List Str) : Prop := Names ss ∧ sortedStrs ss = ss

-- what __post_init__ has checked of every policy that exists
structure Valid (p : Policy) : Prop where
  policyId : p.policyId ≠ []
  maxRequestBytes : 0 < p.maxRequestBytes
  maxTtlSeconds : 0 < p.maxTtlSeconds
  allowedActions : SortedNames p.allowedActions
  requiredContext : SortedNames p.requiredContext
  requiredFields : ∀ m ∈ p.requiredFields, m.1 ≠ [] ∧ Names m.2
  exactFields : ∀ m ∈ p.exactFields, m.1 ≠ []
  requiredApprovals : ∀ m ∈ p.requiredApprovals, m.1 ≠ [] ∧ 0 ≤ m.2
  maxNumericFields : ∀ m ∈ p.maxNumericFields, m.1 ≠ [] ∧
    ∀ l ∈ m.2, l.1 ≠ [] ∧ l.2.isFinite = .ok true
  requiredMeshInputs : ∀ m ∈ p.requiredMeshInputs, m.1 ≠ [] ∧ 0 ≤ m.2
  requiredMeshSources : ∀ m ∈ p.requiredMeshSources, m.1 ≠ [] ∧ Names m.2
  meshRequiredActions : SortedNames p.meshRequiredActions
  meshRequiredEnvironments : SortedNames p.meshRequiredEnvironments

-- the policy as to_dict gives it, with every dictionary in the order of its keys
def ordered (p : Policy) : Policy :=
  { p with
    requiredFields := sortedItems p.requiredFields
    exactFields := sortedItems p.exactFields
    requiredApprovals := sortedItems p.requiredApprovals
    maxNumericFields := (sortedItems p.maxNumericFields).map (fun m => (m.1, sortedItems m.2))
    requiredMeshInputs := sortedItems p.requiredMeshInputs
    requiredMeshSources := sortedItems p.requiredMeshSources }

@[simp]
theorem ordered_policyId (p : Policy) : p.ordered.policyId = p.policyId := rfl

-- the policy as a dictionary, with its own dictionaries in the order that they have
def written (p : Policy) : PyDict :=
  let base := PyDict.ofFields
    [("policy_id", .str p.policyId), ("allowed_actions", strList p.allowedActions),
      ("required_fields", strDict strList p.requiredFields),
      ("exact_fields", strDict (strDict id) p.exactFields),
      ("required_context", strList p.requiredContext),
      ("exact_context", strDict id p.exactContext),
      ("max_request_bytes", .int p.maxRequestBytes), ("max_ttl_seconds", .int p.maxTtlSeconds),
      ("required_approvals", strDict .int p.requiredApprovals)]
  let optional (present : Bool) (name : String) (value : PyVal) : PyDict :=
    if present then [(.str (lit name), value)] else []
  base ++
    optional (!p.maxNumericFields.isEmpty) "max_numeric_fields"
      (strDict (strDict Number.toVal) p.maxNumericFields) ++
    optional (!p.requiredMeshInputs.isEmpty) "required_mesh_inputs"
      (strDict .int p.requiredMeshInputs) ++
    optional (!p.requiredMeshSources.isEmpty) "required_mesh_sources"
      (strDict strList p.requiredMeshSources) ++
    optional (!p.meshRequiredActions.isEmpty) "mesh_required_actions"
      (strList p.meshRequiredActions) ++
    optional (!p.meshRequiredEnvironments.isEmpty) "mesh_required_environments"
      (strList p.meshRequiredEnvironments)

theorem ordered_written (p : Policy) : p.ordered.written = p.toDict := by
  have hlimits : strDict (strDict Number.toVal)
      ((sortedItems p.maxNumericFields).map (fun m => (m.1, sortedItems m.2))) =
        strDict (fun fields => strDict Number.toVal (sortedItems fields))
          (sortedItems p.maxNumericFields) := by
    simp only [strDict, List.map_map, Function.comp_def]
  simp only [toDict, written, ordered, isEmpty_sortedItems, List.isEmpty_map, hlimits]
  rfl

theorem ordered_toDict (p : Policy) : p.ordered.toDict = p.toDict := by
  have hlimits : strDict (fun fields => strDict Number.toVal (sortedItems fields))
      ((sortedItems p.maxNumericFields).map (fun m => (m.1, sortedItems m.2))) =
        strDict (fun fields => strDict Number.toVal (sortedItems fields))
          (sortedItems p.maxNumericFields) := by
    simp only [strDict, List.map_map, Function.comp_def, sortedItems_sortedItems]
  simp only [toDict, ordered, sortedItems_sortedItems, sortedItems_map, isEmpty_sortedItems,
    List.isEmpty_map, hlimits]
  rfl

theorem ordered_digest (P : Primitives) (p : Policy) : p.ordered.digest P = p.digest P := by
  rw [digest, digest, ordered_toDict]

theorem Valid.ordered {p : Policy} (h : p.Valid) : p.ordered.Valid := by
  refine { h with
    requiredFields := fun m hm => h.requiredFields m (mem_sortedItems.mp hm)
    exactFields := fun m hm => h.exactFields m (mem_sortedItems.mp hm)
    requiredApprovals := fun m hm => h.requiredApprovals m (mem_sortedItems.mp hm)
    requiredMeshInputs := fun m hm => h.requiredMeshInputs m (mem_sortedItems.mp hm)
    requiredMeshSources := fun m hm => h.requiredMeshSources m (mem_sortedItems.mp hm)
    maxNumericFields := ?_ }
  intro m hm
  obtain ⟨m', hm', rfl⟩ := List.mem_map.mp hm
  obtain ⟨hname, hlimits⟩ := h.maxNumericFields m' (mem_sortedItems.mp hm')
  exact ⟨hname, fun l hl => hlimits l (mem_sortedItems.mp hl)⟩

theorem valid_limits {limits : List (Str × List (Str × Number))} {u : Unit}
    (h : checkNumericFields limits = .ok u) : ∀ m ∈ limits, m.1 ≠ [] ∧
      ∀ l ∈ m.2, l.1 ≠ [] ∧ l.2.isFinite = .ok true := by
  induction limits with
  | nil => simp
  | cons m limits ih =>
      simp only [checkNumericFields, bind_eq_ok, reject_eq_ok] at h
      obtain ⟨-, hname, bad, hbad, -, hnone, hrest⟩ := h
      refine List.forall_mem_cons.mpr ⟨⟨by simpa using hname, fun l hl => ?_⟩, ih hrest⟩
      obtain ⟨b, hb, hlimit⟩ := of_mapM_eq_ok hbad hl
      have hgood : b = false := by simpa using List.any_eq_false.mp hnone b hb
      subst hgood
      split at hlimit
      · cases hlimit
      · rename_i hnamed
        obtain ⟨finite, hfinite, hok⟩ := bind_eq_ok.mp hlimit
        refine ⟨by simpa using hnamed, ?_⟩
        rw [hfinite]
        simpa using hok

theorem sortedNames_of {ss : List Str} (hempty : anyEmpty ss = false)
    (hsorted : decide (sortedStrs ss ≠ ss) = false) : SortedNames ss :=
  ⟨anyEmpty_eq_false.mp hempty, by simpa using hsorted⟩

theorem valid_of_postInit {p q : Policy} (h : p.postInit = .ok q) : p.Valid := by
  simp only [postInit, bind_eq_ok, reject_eq_ok, each_eq_ok] at h
  obtain ⟨-, hid, -, hbytes, -, httl, -, hactions, -, hactionsSorted, -, hcontextSorted, -,
    hcontext, -, hfields, -, hexact, -, happrovals, checked, hlimits, -, hinputs, -, hsources, -, hmesh,
    -, hmeshSorted, -, henvironments, -, henvironmentsSorted, -⟩ := h
  exact
    { policyId := by simpa using hid
      maxRequestBytes := by simpa using hbytes
      maxTtlSeconds := by simpa using httl
      allowedActions := sortedNames_of hactions hactionsSorted
      requiredContext := sortedNames_of hcontext hcontextSorted
      requiredFields := fun m hm => by
        obtain ⟨-, hname, hnames⟩ := hfields m hm
        exact ⟨by simpa using hname, anyEmpty_eq_false.mp hnames⟩
      exactFields := fun m hm => by simpa using hexact m hm
      requiredApprovals := fun m hm => by
        obtain ⟨-, hname, hcount⟩ := happrovals m hm
        exact ⟨by simpa using hname, by simpa using hcount⟩
      maxNumericFields := valid_limits hlimits
      requiredMeshInputs := fun m hm => by
        obtain ⟨-, hname, hcount⟩ := hinputs m hm
        exact ⟨by simpa using hname, by simpa using hcount⟩
      requiredMeshSources := fun m hm => by
        obtain ⟨-, hname, hnames⟩ := hsources m hm
        exact ⟨by simpa using hname, anyEmpty_eq_false.mp hnames⟩
      meshRequiredActions := sortedNames_of hmesh hmeshSorted
      meshRequiredEnvironments := sortedNames_of henvironments henvironmentsSorted }

end Policy

namespace PolicyDocument

section Documents

variable {message : String} {s : Str}

theorem nonEmptyStr_of_ne (h : s ≠ []) : nonEmptyStr message (.str s) = .ok s := by
  cases s with
  | nil => exact absurd rfl h
  | cons c s => rfl

theorem nonEmptyStr_eq_ok {value : PyVal} (h : nonEmptyStr message value = .ok s) :
    value = .str s ∧ s ≠ [] := by
  unfold nonEmptyStr at h
  split at h
  · obtain rfl := Except.ok.inj h
    exact ⟨rfl, List.cons_ne_nil _ _⟩
  · cases h

end Documents

section Fields

theorem get_append (d e : PyDict) (name : Str) :
    PyDict.get (d ++ e) name = (PyDict.get d name).or (PyDict.get e name) :=
  Dict.get_append d e (.str name)

theorem get_optional (present : Bool) (name key : String) (value : PyVal) :
    PyDict.get (if present = true then [(.str (lit name), value)] else []) (lit key) =
      if present = true ∧ name = key then some value else none := by
  cases present with
  | false => rfl
  | true =>
      rw [if_pos rfl, PyDict.get_cons_str]
      simp only [true_and, lit_inj]
      rfl

theorem hasOnly_append (d e : PyDict) (allowed : List String) :
    PyDict.hasOnly (d ++ e) allowed = (PyDict.hasOnly d allowed && PyDict.hasOnly e allowed) :=
  List.all_append

theorem hasOnly_optional (present : Bool) {name : String} (value : PyVal) {allowed : List String}
    (h : name ∈ allowed) :
    PyDict.hasOnly (if present = true then [(.str (lit name), value)] else []) allowed = true := by
  cases present with
  | false => rfl
  | true => simpa [PyDict.hasOnly] using h

theorem hasAll_append {d : PyDict} {names : List String} (h : PyDict.hasAll d names = true)
    (e : PyDict) : PyDict.hasAll (d ++ e) names = true := by
  rw [PyDict.hasAll, List.all_eq_true] at h ⊢
  intro name hname
  rw [PyDict.has, get_append, Option.isSome_or, ← PyDict.has, h name hname, Bool.true_or]

theorem hasAll_required (a b c d e f g h i : PyVal) : PyDict.hasAll (PyDict.ofFields
    [("policy_id", a), ("allowed_actions", b), ("required_fields", c), ("exact_fields", d),
      ("required_context", e), ("exact_context", f), ("max_request_bytes", g),
      ("max_ttl_seconds", h), ("required_approvals", i)]) required = true := by
  simp only [PyDict.hasAll, PyDict.has, required, List.all_cons, List.all_nil,
    PyDict.get_ofFields_cons, String.reduceEq, if_true, if_false, Option.isSome_some, Bool.and_true]

-- a field that is left out when it is empty reads as its default
theorem getD_optional {V : Type} (d : List V) {value absent : PyVal} (h : d = [] → value = absent) :
    (if (!d.isEmpty) = true then some value else none).getD absent = value := by
  cases d with
  | nil => exact (h rfl).symm
  | cons v d => rfl

variable (p : Policy)

theorem hasOnly_written : PyDict.hasOnly p.written (required ++ optional) = true := by
  simp only [Policy.written, hasOnly_append, Bool.and_eq_true]
  refine ⟨⟨⟨⟨⟨?_, ?_⟩, ?_⟩, ?_⟩, ?_⟩, ?_⟩
  · simp [PyDict.hasOnly, PyDict.ofFields, required, optional]
  all_goals exact hasOnly_optional _ _ (by simp [required, optional])

theorem get_written (key : String) : PyDict.get p.written (lit key) =
    ((((((PyDict.get (PyDict.ofFields
      [("policy_id", .str p.policyId), ("allowed_actions", strList p.allowedActions),
        ("required_fields", strDict strList p.requiredFields),
        ("exact_fields", strDict (strDict id) p.exactFields),
        ("required_context", strList p.requiredContext),
        ("exact_context", strDict id p.exactContext),
        ("max_request_bytes", .int p.maxRequestBytes), ("max_ttl_seconds", .int p.maxTtlSeconds),
        ("required_approvals", strDict .int p.requiredApprovals)]) (lit key)).or
      (if (!p.maxNumericFields.isEmpty) = true ∧ "max_numeric_fields" = key then
        some (strDict (strDict Number.toVal) p.maxNumericFields) else none)).or
      (if (!p.requiredMeshInputs.isEmpty) = true ∧ "required_mesh_inputs" = key then
        some (strDict .int p.requiredMeshInputs) else none)).or
      (if (!p.requiredMeshSources.isEmpty) = true ∧ "required_mesh_sources" = key then
        some (strDict strList p.requiredMeshSources) else none)).or
      (if (!p.meshRequiredActions.isEmpty) = true ∧ "mesh_required_actions" = key then
        some (strList p.meshRequiredActions) else none)).or
      (if (!p.meshRequiredEnvironments.isEmpty) = true ∧ "mesh_required_environments" = key then
        some (strList p.meshRequiredEnvironments) else none)) := by
  unfold Policy.written
  simp only [get_append, get_optional]

end Fields

end PolicyDocument

end GovernedAutonomy
