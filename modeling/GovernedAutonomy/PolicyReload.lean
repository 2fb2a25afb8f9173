import GovernedAutonomy.PolicyDigest
import GovernedAutonomy.RawReading
import GovernedAutonomy.Rearbitration

namespace GovernedAutonomy

open Python PolicyDocument

section Reread

variable {V : Type} {f : V → PyVal} {d : List (Str × V)}

theorem isJson_strList (ss : List Str) : (strList ss).IsJson :=
  PyVal.isJsonItems_iff.mpr fun x hx => by
    obtain ⟨s, -, rfl⟩ := List.mem_map.mp hx
    trivial

theorem isJson_strDict (hd : Dict.Distinct d) (hf : ∀ m ∈ d, (f m.2).IsJson) :
    (strDict f d).IsJson :=
  ⟨isStr_items f d, distinct_items f hd, PyVal.isJsonMembers_iff.mpr fun m hm => by
    obtain ⟨n, hn, rfl⟩ := List.mem_map.mp hm
    exact hf n hn⟩

theorem isJson_number (a : Number) : a.toVal.IsJson := by
  cases a <;> trivial

-- a value that is no container is read back as it is
theorem eq_of_alike {v w : PyVal} (h : PyVal.Alike v w) (hlist : ∀ xs, v ≠ .list xs)
    (hdict : ∀ ms, v ≠ .dict ms) : w = v := by
  rcases h.cases with rfl | ⟨xs, -, rfl, -⟩ | ⟨ms, -, rfl, -⟩
  · rfl
  · exact absurd rfl (hlist xs)
  · exact absurd rfl (hdict ms)

theorem eq_of_alike_int {i : ℤ} {w : PyVal} (h : PyVal.Alike (.int i) w) : w = .int i :=
  eq_of_alike h (by simp) (by simp)

theorem eq_of_alike_number {a : Number} {w : PyVal} (h : PyVal.Alike a.toVal w) : w = a.toVal := by
  cases a with
  | int i => exact eq_of_alike_int h
  | float g => exact eq_of_alike h (by simp [Number.toVal]) (by simp [Number.toVal])

theorem toVal_inj {a b : Number} (h : a.toVal = b.toVal) : a = b := by
  cases a <;> cases b <;> simp_all [Number.toVal]

theorem eq_of_alike_strs {ss : List Str} {w : PyVal} (h : PyVal.Alike (strList ss) w) :
    w = strList ss := by
  obtain ⟨ys, rfl, hys⟩ := h.list
  refine congrArg PyVal.list ?_
  clear h
  induction ss generalizing ys with
  | nil =>
      cases hys
      rfl
  | cons s ss ih =>
      rw [List.map_cons] at hys
      cases hys with
      | cons hhead htail => rw [hhead.str, ih _ htail, List.map_cons]

theorem strList_inj {ss ts : List Str} (h : strList ss = strList ts) : ss = ts :=
  List.map_injective_iff.mpr (fun _ _ h => PyVal.str.inj h) (PyVal.list.inj h)

theorem exists_map {A B : Type} {g : A → B} {ys : List B} (h : ∀ y ∈ ys, ∃ x, y = g x) :
    ∃ xs : List A, ys = xs.map g := by
  induction ys with
  | nil => exact ⟨[], rfl⟩
  | cons y ys ih =>
      obtain ⟨⟨x, rfl⟩, hys⟩ := List.forall_mem_cons.mp h
      obtain ⟨xs, rfl⟩ := ih hys
      exact ⟨x :: xs, rfl⟩

-- a dictionary of values of one kind is read back as such a dictionary
theorem strDict_of_alike {R : V → V → Prop} {w : PyVal} (h : PyVal.Alike (strDict f d) w)
    (himage : ∀ m ∈ d, ∀ x, PyVal.Alike (f m.2) x → ∃ v, x = f v)
    (hR : ∀ m ∈ d, ∀ v, PyVal.Alike (f m.2) (f v) → R m.2 v) :
    ∃ e, w = strDict f e ∧ Dict.Distinct e ∧ Dict.Match R d e := by
  obtain ⟨ms, rfl, hms⟩ := h.dict
  have hentry : ∀ n ∈ ms, ∃ m : Str × V, n = (.str m.1, f m.2) := by
    rintro ⟨k, x⟩ hn
    obtain ⟨s, rfl⟩ := PyVal.exists_str (hms.right.1 _ hn)
    obtain ⟨y, hy, hxy⟩ := hms.same.1.back hms.right.2.1 hms.same.2 hn
    obtain ⟨m, hm, heq⟩ := List.mem_map.mp hy
    obtain ⟨-, rfl⟩ := Prod.mk.inj heq
    obtain ⟨v, rfl⟩ := himage m hm x ⟨PyVal.isJsonMembers_iff.mp hms.left.2.2 _ hy,
      PyVal.isJsonMembers_iff.mp hms.right.2.2 _ hn, hxy⟩
    exact ⟨(s, v), rfl⟩
  obtain ⟨e, rfl⟩ := exists_map hentry
  have hdistinct : Dict.Distinct e := by
    refine (List.pairwise_map.mp hms.right.2.1).imp ?_
    intro a b hab
    rw [same_str] at hab
    rw [same_list]
    exact hab
  refine ⟨e, rfl, hdistinct, ?_, ?_⟩
  · intro k v hv
    obtain ⟨x, hx, hvx⟩ := hms.get_some k (by rw [get_items, hv]; rfl)
    rw [get_items] at hx
    obtain ⟨v', hv', rfl⟩ := Option.map_eq_some_iff.mp hx
    exact ⟨v', hv', hR (k, v) (Dict.mem_of_get hv) v' hvx⟩
  · intro k v' hv'
    obtain ⟨x, hx, hvx⟩ := hms.symm.get_some k (by rw [get_items, hv']; rfl)
    rw [get_items] at hx
    obtain ⟨v, hv, rfl⟩ := Option.map_eq_some_iff.mp hx
    exact ⟨v, hv, hR (k, v) (Dict.mem_of_get hv) v' hvx.symm⟩

theorem match_of_alike {R : V → V → Prop} {e : List (Str × V)} (hf : Function.Injective f)
    (h : PyVal.Alike (strDict f d) (strDict f e))
    (himage : ∀ m ∈ d, ∀ x, PyVal.Alike (f m.2) x → ∃ v, x = f v)
    (hR : ∀ m ∈ d, ∀ v, PyVal.Alike (f m.2) (f v) → R m.2 v) :
    Dict.Distinct e ∧ Dict.Match R d e := by
  obtain ⟨e', heq, hdistinct, hmatch⟩ := strDict_of_alike h himage hR
  have hsame : e = e' := by
    refine List.map_injective_iff.mpr ?_ (PyVal.dict.inj heq)
    intro a b hab
    obtain ⟨hkey, hvalue⟩ := Prod.mk.inj hab
    exact Prod.ext (PyKey.str.inj hkey) (hf hvalue)
  rw [hsame]
  exact ⟨hdistinct, hmatch⟩

theorem alike_strDict {R : V → V → Prop} {e : List (Str × V)} (h : Dict.Match R d e)
    (hd : (strDict f d).IsJson) (he : (strDict f e).IsJson)
    (hR : ∀ v w, R v w → PyVal.Alike (f v) (f w)) : PyVal.Alike (strDict f d) (strDict f e) := by
  refine PyVal.alike_dict hd he fun name => ?_
  rw [get_items, get_items]
  cases hv : Dict.get d name with
  | some v =>
      obtain ⟨w, hw, hvw⟩ := h.forth name v hv
      rw [hw]
      exact Or.inr ⟨_, _, rfl, rfl, hR v w hvw⟩
  | none =>
      cases hw : Dict.get e name with
      | some w =>
          obtain ⟨v, hv', -⟩ := h.back name w hw
          rw [hv] at hv'
          cases hv'
      | none => exact Or.inl ⟨rfl, rfl⟩

end Reread

namespace Policy

structure JsonValued (p : Policy) : Prop where
  exactFields : ∀ m ∈ p.exactFields, ∀ entry ∈ m.2, entry.2.IsJson
  exactContext : ∀ entry ∈ p.exactContext, entry.2.IsJson

section Written

variable {p : Policy}

theorem isJson_written (hp : p.Keyed) (hj : p.JsonValued) : (PyVal.dict p.written).IsJson := by
  have hoptional : ∀ {present : Bool} {name : String} {value : PyVal} {m : PyKey × PyVal},
      value.IsJson → m ∈ (if present = true then [((.str (lit name), value) : PyKey × PyVal)]
        else []) → m.2.IsJson := by
    intro present name value m hvalue hm
    cases present with
    | true => rw [List.mem_singleton.mp hm]; exact hvalue
    | false => cases hm
  refine ⟨p.written_among.isStr, p.written_among.distinct, PyVal.isJsonMembers_iff.mpr fun m hm => ?_⟩
  simp only [written, List.mem_append] at hm
  rcases hm with ((((hm | hm) | hm) | hm) | hm) | hm
  · simp only [PyDict.ofFields, List.map_cons, List.map_nil, List.mem_cons, List.not_mem_nil,
      or_false] at hm
    rcases hm with rfl | rfl | rfl | rfl | rfl | rfl | rfl | rfl | rfl
    · trivial
    · exact isJson_strList _
    · exact isJson_strDict hp.requiredFields fun _ _ => isJson_strList _
    · exact isJson_strDict hp.exactFields fun m hm =>
        isJson_strDict (hp.exactEntries m hm) (hj.exactFields m hm)
    · exact isJson_strList _
    · exact isJson_strDict hp.exactContext hj.exactContext
    · trivial
    · trivial
    · exact isJson_strDict hp.requiredApprovals fun _ _ => trivial
  · exact hoptional (isJson_strDict hp.maxNumericFields fun m hm =>
      isJson_strDict (hp.numericEntries m hm) fun _ _ => isJson_number _) hm
  · exact hoptional (isJson_strDict (f := PyVal.int) hp.requiredMeshInputs fun _ _ => trivial) hm
  · exact hoptional (isJson_strDict hp.requiredMeshSources fun _ _ => isJson_strList _) hm
  · exact hoptional (isJson_strList _) hm
  · exact hoptional (isJson_strList _) hm

end Written

section Reread

variable {p : Policy} {e : PyDict} (h : PyVal.Alike (.dict p.written) (.dict e))

include h

theorem reread_entry (name : String) {v : PyVal}
    (hv : PyDict.get p.written (lit name) = some v) :
    ∃ w, PyDict.get e (lit name) = some w ∧ PyVal.Alike v w := h.get_some (lit name) hv

theorem reread_none (name : String) (hv : PyDict.get p.written (lit name) = none) :
    PyDict.get e (lit name) = none := by
  rcases h.get (lit name) with ⟨-, hnone⟩ | ⟨v, w, hv', -, -⟩
  · exact hnone
  · rw [hv] at hv'
    cases hv'

theorem reread_optional (name : String) {V : Type} (f : V → PyVal) {R : V → V → Prop}
    {d : List (Str × V)} (hv : PyDict.get p.written (lit name) =
      if (!d.isEmpty) = true then some (strDict f d) else none)
    (himage : ∀ m ∈ d, ∀ x, PyVal.Alike (f m.2) x → ∃ v, x = f v)
    (hR : ∀ m ∈ d, ∀ v, PyVal.Alike (f m.2) (f v) → R m.2 v) :
    ∃ d', PyDict.get e (lit name) =
        (if (!d'.isEmpty) = true then some (strDict f d') else none) ∧
      Dict.Distinct d' ∧ Dict.Match R d d' := by
  cases d with
  | nil =>
      refine ⟨[], reread_none h name hv, List.Pairwise.nil, ?_⟩
      exact ⟨fun _ _ hv => absurd hv (by simp), fun _ _ hw => absurd hw (by simp)⟩
  | cons m d =>
      obtain ⟨w, hw, hvw⟩ := reread_entry h name hv
      obtain ⟨d', rfl, hdistinct, hmatch⟩ := strDict_of_alike hvw himage hR
      refine ⟨d', ?_, hdistinct, hmatch⟩
      rw [hw, ← hmatch.isEmpty]
      rfl

theorem reread_strs (name : String) (ss : List Str) (hv : PyDict.get p.written (lit name) =
      if (!ss.isEmpty) = true then some (strList ss) else none) :
    PyDict.get e (lit name) = if (!ss.isEmpty) = true then some (strList ss) else none := by
  cases ss with
  | nil => exact reread_none h name hv
  | cons s ss =>
      obtain ⟨w, hw, hvw⟩ := reread_entry h name hv
      rw [hw, eq_of_alike_strs hvw]
      rfl

theorem reread_dict (name : String) {V : Type} (f : V → PyVal) {R : V → V → Prop}
    {d : List (Str × V)} (hv : PyDict.get p.written (lit name) = some (strDict f d))
    (himage : ∀ m ∈ d, ∀ x, PyVal.Alike (f m.2) x → ∃ v, x = f v)
    (hR : ∀ m ∈ d, ∀ v, PyVal.Alike (f m.2) (f v) → R m.2 v) :
    ∃ d', PyDict.get e (lit name) = some (strDict f d') ∧ Dict.Distinct d' ∧ Dict.Match R d d' := by
  obtain ⟨w, hw, hvw⟩ := reread_entry h name hv
  obtain ⟨d', rfl, hdistinct, hmatch⟩ := strDict_of_alike hvw himage hR
  exact ⟨d', hw, hdistinct, hmatch⟩

omit h in
theorem strs_image {ss : List Str} {x : PyVal} (h : PyVal.Alike (strList ss) x) :
    ∃ ts, x = strList ts := ⟨ss, eq_of_alike_strs h⟩

omit h in
theorem strs_eq {ss ts : List Str} (h : PyVal.Alike (strList ss) (strList ts)) : ss = ts :=
  (strList_inj (eq_of_alike_strs h)).symm

omit h in
theorem int_eq {i j : ℤ} (h : PyVal.Alike (.int i) (.int j)) : i = j :=
  (PyVal.int.inj (eq_of_alike_int h)).symm

-- what the arbiter and the issuer ask for is read back as it was written
theorem exists_reread : ∃ q : Policy, q.Keyed ∧ p.Matches PyVal.Alike q ∧
    ∀ name ∈ fieldNames, PyDict.get e (lit name) = PyDict.get q.written (lit name) := by
  have hscalar : ∀ (name : String) {v : PyVal}, PyDict.get p.written (lit name) = some v →
      (∀ xs, v ≠ .list xs) → (∀ ms, v ≠ .dict ms) → PyDict.get e (lit name) = some v := by
    intro name v hv hlist hdict
    obtain ⟨w, hw, hvw⟩ := reread_entry h name hv
    rw [hw, eq_of_alike hvw hlist hdict]
  have hstrs : ∀ (name : String) {ss : List Str},
      PyDict.get p.written (lit name) = some (strList ss) →
        PyDict.get e (lit name) = some (strList ss) := by
    intro name ss hv
    obtain ⟨w, hw, hvw⟩ := reread_entry h name hv
    rw [hw, eq_of_alike_strs hvw]
  have hids : ∀ {m m' : List (Str × PyVal)}, PyVal.Alike (strDict id m) (strDict id m') →
      Dict.Distinct m' ∧ Dict.Match PyVal.Alike m m' := fun h =>
    match_of_alike Function.injective_id h (fun _ _ x _ => ⟨x, rfl⟩) fun _ _ _ h => h
  have hnumbers : ∀ {m m' : List (Str × Number)},
      PyVal.Alike (strDict Number.toVal m) (strDict Number.toVal m') →
        Dict.Distinct m' ∧ Dict.Match Eq m m' := fun h =>
    match_of_alike (fun _ _ h => toVal_inj h) h (fun m _ x h => ⟨m.2, eq_of_alike_number h⟩)
      fun m _ v h => (toVal_inj (eq_of_alike_number h)).symm
  obtain ⟨requiredFields, hfields, hfieldsKeyed, hfieldsMatch⟩ :=
    reread_dict h "required_fields" strList (R := Eq) (d := p.requiredFields)
      (by rw [get_written]; simp) (fun _ _ _ h => strs_image h) (fun _ _ _ h => strs_eq h)
  obtain ⟨exactFields, hexact, hexactKeyed, hexactMatch⟩ :=
    reread_dict h "exact_fields" (strDict id) (d := p.exactFields)
      (R := fun m m' => Dict.Distinct m' ∧ Dict.Match PyVal.Alike m m')
      (by rw [get_written]; simp)
      (fun m _ x h => by
        obtain ⟨m', rfl, -, -⟩ := strDict_of_alike (R := PyVal.Alike) h (fun _ _ x _ => ⟨x, rfl⟩)
          (fun _ _ _ h => h)
        exact ⟨m', rfl⟩)
      (fun _ _ _ h => hids h)
  obtain ⟨exactContext, hcontext, hcontextKeyed, hcontextMatch⟩ :=
    reread_dict h "exact_context" id (R := PyVal.Alike) (d := p.exactContext)
      (by rw [get_written]; simp [strDict]) (fun _ _ x _ => ⟨x, rfl⟩) (fun _ _ _ h => h)
  obtain ⟨requiredApprovals, happrovals, happrovalsKeyed, happrovalsMatch⟩ :=
    reread_dict h "required_approvals" .int (R := Eq) (d := p.requiredApprovals)
      (by rw [get_written]; simp) (fun m _ _ h => ⟨m.2, eq_of_alike_int h⟩)
      (fun _ _ _ h => int_eq h)
  obtain ⟨maxNumericFields, hlimits, hlimitsKeyed, hlimitsMatch⟩ :=
    reread_optional h "max_numeric_fields" (strDict Number.toVal) (d := p.maxNumericFields)
      (R := fun m m' => Dict.Distinct m' ∧ Dict.Match Eq m m')
      (by rw [get_written]; simp)
      (fun m _ x h => by
        obtain ⟨m', rfl, -, -⟩ := strDict_of_alike (R := fun _ _ => True) h
          (fun m _ x h => ⟨m.2, eq_of_alike_number h⟩) (fun _ _ _ _ => trivial)
        exact ⟨m', rfl⟩)
      (fun _ _ _ h => hnumbers h)
  obtain ⟨requiredMeshInputs, hinputs, hinputsKeyed, hinputsMatch⟩ :=
    reread_optional h "required_mesh_inputs" .int (R := Eq) (d := p.requiredMeshInputs)
      (by rw [get_written]; simp) (fun m _ _ h => ⟨m.2, eq_of_alike_int h⟩)
      (fun _ _ _ h => int_eq h)
  obtain ⟨requiredMeshSources, hsources, hsourcesKeyed, hsourcesMatch⟩ :=
    reread_optional h "required_mesh_sources" strList (R := Eq) (d := p.requiredMeshSources)
      (by rw [get_written]; simp) (fun _ _ _ h => strs_image h) (fun _ _ _ h => strs_eq h)
  refine ⟨⟨p.policyId, p.allowedActions, requiredFields, exactFields, p.requiredContext,
    exactContext, p.maxRequestBytes, p.maxTtlSeconds, requiredApprovals, maxNumericFields,
    requiredMeshInputs, requiredMeshSources, p.meshRequiredActions,
    p.meshRequiredEnvironments⟩, ?_, ?_, ?_⟩
  · refine ⟨hfieldsKeyed, hexactKeyed, ?_, hcontextKeyed, happrovalsKeyed, hlimitsKeyed, ?_,
      hinputsKeyed, hsourcesKeyed⟩
    · intro m hm
      obtain ⟨v, -, hdistinct, -⟩ := hexactMatch.symm.mem hexactKeyed hm
      exact hdistinct
    · intro m hm
      obtain ⟨v, -, hdistinct, -⟩ := hlimitsMatch.symm.mem hlimitsKeyed hm
      exact hdistinct
  · exact ⟨rfl, rfl, hfieldsMatch, hexactMatch.imp fun _ _ _ _ _ h => h.2, rfl, hcontextMatch, rfl,
      rfl, happrovalsMatch, hlimitsMatch.imp fun _ _ _ _ _ h => h.2, hinputsMatch, hsourcesMatch,
      rfl, rfl⟩
  · have hid : PyDict.get e (lit "policy_id") = some (.str p.policyId) :=
      hscalar "policy_id" (by rw [get_written]; simp) (by simp) (by simp)
    have hbytes : PyDict.get e (lit "max_request_bytes") = some (.int p.maxRequestBytes) :=
      hscalar "max_request_bytes" (by rw [get_written]; simp) (by simp) (by simp)
    have httl : PyDict.get e (lit "max_ttl_seconds") = some (.int p.maxTtlSeconds) :=
      hscalar "max_ttl_seconds" (by rw [get_written]; simp) (by simp) (by simp)
    have hallowed : PyDict.get e (lit "allowed_actions") = some (strList p.allowedActions) :=
      hstrs "allowed_actions" (by rw [get_written]; simp)
    have hrequiredContext : PyDict.get e (lit "required_context") =
        some (strList p.requiredContext) :=
      hstrs "required_context" (by rw [get_written]; simp)
    have hactions := reread_strs h "mesh_required_actions" p.meshRequiredActions
      (by rw [get_written]; simp)
    have henvironments := reread_strs h "mesh_required_environments"
      p.meshRequiredEnvironments (by rw [get_written]; simp)
    intro name hname
    rw [get_written]
    simp only [fieldNames, List.mem_cons, List.not_mem_nil, or_false] at hname
    rcases hname with rfl | rfl | rfl | rfl | rfl | rfl | rfl | rfl | rfl | rfl | rfl | rfl |
      rfl | rfl
    · simp [hid]
    · simp [hallowed]
    · simp [hfields]
    · simp [hexact]
    · simp [hrequiredContext]
    · simp [hcontext]
    · simp [hbytes]
    · simp [httl]
    · simp [happrovals]
    · simp [hlimits]
    · simp [hinputs]
    · simp [hsources]
    · simp [hactions]
    · simp [henvironments]

end Reread

end Policy

section Reading

theorem ofValue_congr {d e : PyDict}
    (hget : ∀ name ∈ Policy.fieldNames, PyDict.get d (lit name) = PyDict.get e (lit name))
    (honly : d.hasOnly (required ++ optional) = e.hasOnly (required ++ optional)) :
    RawPolicy.ofValue (.dict d) = RawPolicy.ofValue (.dict e) := by
  have hsub : ∀ name ∈ required, name ∈ Policy.fieldNames := by decide
  have hall : d.hasAll required = e.hasAll required := by
    rw [PyDict.hasAll, PyDict.hasAll, Bool.eq_iff_iff, List.all_eq_true, List.all_eq_true]
    refine forall₂_congr fun name hname => ?_
    rw [PyDict.has, PyDict.has, hget name (hsub name hname)]
  have hgetD : ∀ name ∈ Policy.fieldNames, PyDict.getD d (lit name) = PyDict.getD e (lit name) := by
    intro name hname
    rw [PyDict.getD, PyDict.getD, hget name hname]
  have hor : ∀ name ∈ Policy.fieldNames, ∀ value, fieldOr d name value = fieldOr e name value := by
    intro name hname value
    rw [fieldOr, fieldOr, hget name hname]
  simp only [RawPolicy.ofValue, dictOf, RawPolicy.postInit, honly, hall, hgetD "policy_id" (by decide),
    hgetD "allowed_actions" (by decide), hgetD "required_fields" (by decide),
    hgetD "exact_fields" (by decide), hgetD "required_context" (by decide),
    hgetD "exact_context" (by decide), hgetD "max_request_bytes" (by decide),
    hgetD "max_ttl_seconds" (by decide), hor "required_approvals" (by decide),
    hor "max_numeric_fields" (by decide), hor "required_mesh_inputs" (by decide),
    hor "required_mesh_sources" (by decide), hor "mesh_required_actions" (by decide),
    hor "mesh_required_environments" (by decide), bind, Except.bind]

end Reading

namespace Policy

variable {p q : Policy}

theorem Matches.valid (h : p.Matches PyVal.Alike q) (hq : q.Keyed) (hp : p.Valid) : q.Valid := by
  have hnames : ∀ {V : Type} {d e : List (Str × V)} {good : Str × V → Prop},
      Dict.Match Eq d e → Dict.Distinct e → (∀ m ∈ d, good m) → ∀ m ∈ e, good m := by
    intro V d e good hmatch he hd m hm
    obtain ⟨v, hv, heq⟩ := hmatch.symm.mem he hm
    rw [heq] at hv
    exact hd m hv
  exact
    { policyId := h.policyId ▸ hp.policyId
      maxRequestBytes := h.maxRequestBytes ▸ hp.maxRequestBytes
      maxTtlSeconds := h.maxTtlSeconds ▸ hp.maxTtlSeconds
      allowedActions := h.allowedActions ▸ hp.allowedActions
      requiredContext := h.requiredContext ▸ hp.requiredContext
      requiredFields := hnames h.requiredFields hq.requiredFields hp.requiredFields
      exactFields := fun m hm => by
        obtain ⟨v, hv, -⟩ := h.exactFields.symm.mem hq.exactFields hm
        exact hp.exactFields (m.1, v) hv
      requiredApprovals := hnames h.requiredApprovals hq.requiredApprovals hp.requiredApprovals
      maxNumericFields := fun m hm => by
        obtain ⟨v, hv, hmatch⟩ := h.maxNumericFields.symm.mem hq.maxNumericFields hm
        obtain ⟨hname, hlimits⟩ := hp.maxNumericFields _ hv
        refine ⟨hname, fun l hl => ?_⟩
        obtain ⟨limit, hlimit, heq⟩ := hmatch.symm.mem (hq.numericEntries m hm) hl
        rw [heq] at hlimit
        exact hlimits l hlimit
      requiredMeshInputs := hnames h.requiredMeshInputs hq.requiredMeshInputs hp.requiredMeshInputs
      requiredMeshSources :=
        hnames h.requiredMeshSources hq.requiredMeshSources hp.requiredMeshSources
      meshRequiredActions := h.meshRequiredActions ▸ hp.meshRequiredActions
      meshRequiredEnvironments := h.meshRequiredEnvironments ▸ hp.meshRequiredEnvironments }

theorem Matches.jsonValued (h : p.Matches PyVal.Alike q) (hp : p.Keyed) : p.JsonValued := by
  constructor
  · intro m hm entry hentry
    obtain ⟨w, -, hmatch⟩ := h.exactFields.mem hp.exactFields hm
    obtain ⟨x, -, halike⟩ := hmatch.mem (hp.exactEntries m hm) hentry
    exact halike.left
  · intro entry hentry
    obtain ⟨x, -, halike⟩ := h.exactContext.mem hp.exactContext hentry
    exact halike.left

theorem Matches.symm (h : p.Matches PyVal.Alike q) : q.Matches PyVal.Alike p := by
  have hsymm : (fun v w => PyVal.Alike w v) = PyVal.Alike := by
    funext v w
    exact propext ⟨PyVal.Alike.symm, PyVal.Alike.symm⟩
  rw [← hsymm]
  exact h.flip

theorem alike_ints {d e : List (Str × ℤ)} (h : Dict.Match Eq d e) (hd : Dict.Distinct d)
    (he : Dict.Distinct e) : PyVal.Alike (strDict .int d) (strDict .int e) :=
  alike_strDict h (isJson_strDict (f := PyVal.int) hd fun _ _ => trivial)
    (isJson_strDict (f := PyVal.int) he fun _ _ => trivial) fun v w hvw => by
      rw [hvw]
      exact PyVal.alike_int w

theorem alike_strLists {d e : List (Str × List Str)} (h : Dict.Match Eq d e)
    (hd : Dict.Distinct d) (he : Dict.Distinct e) :
    PyVal.Alike (strDict strList d) (strDict strList e) :=
  alike_strDict h (isJson_strDict hd fun _ _ => isJson_strList _)
    (isJson_strDict he fun _ _ => isJson_strList _) fun v w hvw => by
      rw [hvw]
      exact PyVal.alike_refl (isJson_strList w)

theorem alike_numbers {d e : List (Str × Number)} (h : Dict.Match Eq d e) (hd : Dict.Distinct d)
    (he : Dict.Distinct e) : PyVal.Alike (strDict Number.toVal d) (strDict Number.toVal e) :=
  alike_strDict h (isJson_strDict hd fun _ _ => isJson_number _)
    (isJson_strDict he fun _ _ => isJson_number _) fun v w hvw => by
      rw [hvw]
      exact PyVal.alike_refl (isJson_number w)

theorem alike_values {d e : List (Str × PyVal)} (h : Dict.Match PyVal.Alike d e)
    (hd : Dict.Distinct d) (he : Dict.Distinct e) :
    PyVal.Alike (strDict id d) (strDict id e) := by
  refine alike_strDict h ?_ ?_ fun _ _ h => h
  · exact isJson_strDict hd fun entry hentry => by
      obtain ⟨w, -, halike⟩ := h.mem hd hentry
      exact halike.left
  · exact isJson_strDict he fun entry hentry => by
      obtain ⟨v, -, halike⟩ := h.symm.mem he hentry
      exact halike.right

-- dictionaries of dictionaries
theorem alike_nested {V : Type} {f : V → PyVal} {R : V → V → Prop}
    {d e : List (Str × List (Str × V))} (h : Dict.Match (Dict.Match R) d e)
    (hd : Dict.Distinct d) (he : Dict.Distinct e) (hdEntries : ∀ m ∈ d, Dict.Distinct m.2)
    (heEntries : ∀ m ∈ e, Dict.Distinct m.2)
    (hf : ∀ {m m'}, Dict.Match R m m' → Dict.Distinct m → Dict.Distinct m' →
      PyVal.Alike (strDict f m) (strDict f m')) :
    PyVal.Alike (strDict (strDict f) d) (strDict (strDict f) e) := by
  have hinner : Dict.Match (fun m m' => PyVal.Alike (strDict f m) (strDict f m')) d e :=
    h.imp fun k m m' hm hm' hmatch => hf hmatch (hdEntries _ (Dict.mem_of_get hm))
      (heEntries _ (Dict.mem_of_get hm'))
  refine alike_strDict hinner ?_ ?_ fun _ _ h => h
  · exact isJson_strDict hd fun m hm => by
      obtain ⟨m', -, halike⟩ := hinner.mem hd hm
      exact halike.left
  · exact isJson_strDict he fun m' hm' => by
      obtain ⟨m, -, halike⟩ := hinner.symm.mem he hm'
      exact halike.right

theorem matches_refl (hp : p.Keyed) (hj : p.JsonValued) : p.Matches PyVal.Alike p := by
  have heq : ∀ {V : Type} (d : List (Str × V)), Dict.Match Eq d d := fun d =>
    Dict.Match.refl (fun _ => rfl) d
  have hvalues : ∀ {d : List (Str × PyVal)}, Dict.Distinct d → (∀ entry ∈ d, entry.2.IsJson) →
      Dict.Match PyVal.Alike d d := fun hd hjson =>
    ⟨fun _ v hv => ⟨v, hv, PyVal.alike_refl (hjson _ (Dict.mem_of_get hv))⟩,
      fun _ v hv => ⟨v, hv, PyVal.alike_refl (hjson _ (Dict.mem_of_get hv))⟩⟩
  have hexact : Dict.Match (Dict.Match PyVal.Alike) p.exactFields p.exactFields :=
    (heq p.exactFields).imp fun _ v w hv _ hvw => by
      rw [← hvw]
      exact hvalues (hp.exactEntries _ (Dict.mem_of_get hv)) (hj.exactFields _ (Dict.mem_of_get hv))
  exact ⟨rfl, rfl, heq _, hexact, rfl, hvalues hp.exactContext hj.exactContext, rfl, rfl, heq _,
    Dict.Match.refl heq _, heq _, heq _, rfl, rfl⟩

theorem matches_ordered_self (hp : p.Keyed) (hj : p.JsonValued) :
    p.Matches PyVal.Alike p.ordered :=
  ((matches_ordered hp).mpr (matches_refl hp hj)).symm

-- policies that match are written alike
theorem Matches.alike (h : p.Matches PyVal.Alike q) (hp : p.Keyed) (hq : q.Keyed) :
    PyVal.Alike (.dict p.written) (.dict q.written) := by
  refine PyVal.alike_dict (isJson_written hp (h.jsonValued hp))
    (isJson_written hq (h.symm.jsonValued hq)) fun name => ?_
  have hboth : ∀ {v w : PyVal}, PyDict.get p.written name = some v →
      PyDict.get q.written name = some w → PyVal.Alike v w →
        (PyDict.get p.written name = none ∧ PyDict.get q.written name = none) ∨
          ∃ v w, PyDict.get p.written name = some v ∧ PyDict.get q.written name = some w ∧
            PyVal.Alike v w := fun hv hw hvw => Or.inr ⟨_, _, hv, hw, hvw⟩
  have hoptional : ∀ (present : Bool) {present' : Bool} {v w : PyVal},
      PyDict.get p.written name = (if present = true then some v else none) →
      PyDict.get q.written name = (if present' = true then some w else none) →
        present = present' → PyVal.Alike v w →
        (PyDict.get p.written name = none ∧ PyDict.get q.written name = none) ∨
          ∃ v w, PyDict.get p.written name = some v ∧ PyDict.get q.written name = some w ∧
            PyVal.Alike v w := by
    rintro present present' v w hv hw rfl hvw
    cases present with
    | true => exact hboth hv hw hvw
    | false => exact Or.inl ⟨hv, hw⟩
  by_cases hname : ∃ n ∈ fieldNames, name = lit n
  · obtain ⟨n, hn, rfl⟩ := hname
    simp only [fieldNames, List.mem_cons, List.not_mem_nil, or_false] at hn
    rcases hn with rfl | rfl | rfl | rfl | rfl | rfl | rfl | rfl | rfl | rfl | rfl | rfl |
      rfl | rfl
    · exact hboth (by rw [get_written]; simp) (by rw [get_written]; simp [h.policyId])
        (PyVal.alike_str p.policyId)
    · exact hboth (by rw [get_written]; simp) (by rw [get_written]; simp [h.allowedActions])
        (PyVal.alike_refl (isJson_strList p.allowedActions))
    · exact hboth (by rw [get_written]; simp) (by rw [get_written]; simp)
        (alike_strLists h.requiredFields hp.requiredFields hq.requiredFields)
    · exact hboth (by rw [get_written]; simp) (by rw [get_written]; simp)
        (alike_nested h.exactFields hp.exactFields hq.exactFields hp.exactEntries hq.exactEntries
          alike_values)
    · exact hboth (by rw [get_written]; simp) (by rw [get_written]; simp [h.requiredContext])
        (PyVal.alike_refl (isJson_strList p.requiredContext))
    · exact hboth (by rw [get_written]; simp [strDict]) (by rw [get_written]; simp [strDict])
        (alike_values h.exactContext hp.exactContext hq.exactContext)
    · exact hboth (by rw [get_written]; simp) (by rw [get_written]; simp [h.maxRequestBytes])
        (PyVal.alike_int p.maxRequestBytes)
    · exact hboth (by rw [get_written]; simp) (by rw [get_written]; simp [h.maxTtlSeconds])
        (PyVal.alike_int p.maxTtlSeconds)
    · exact hboth (by rw [get_written]; simp) (by rw [get_written]; simp)
        (alike_ints h.requiredApprovals hp.requiredApprovals hq.requiredApprovals)
    · exact hoptional _ (by rw [get_written]; simp) (by rw [get_written]; simp)
        (congrArg not h.maxNumericFields.isEmpty)
        (alike_nested h.maxNumericFields hp.maxNumericFields hq.maxNumericFields hp.numericEntries
          hq.numericEntries alike_numbers)
    · exact hoptional _ (by rw [get_written]; simp) (by rw [get_written]; simp)
        (congrArg not h.requiredMeshInputs.isEmpty)
        (alike_ints h.requiredMeshInputs hp.requiredMeshInputs hq.requiredMeshInputs)
    · exact hoptional _ (by rw [get_written]; simp) (by rw [get_written]; simp)
        (congrArg not h.requiredMeshSources.isEmpty)
        (alike_strLists h.requiredMeshSources hp.requiredMeshSources hq.requiredMeshSources)
    · exact hoptional (!p.meshRequiredActions.isEmpty) (by rw [get_written]; simp)
        (by rw [get_written]; simp [h.meshRequiredActions])
        rfl (PyVal.alike_refl (isJson_strList p.meshRequiredActions))
    · exact hoptional (!p.meshRequiredEnvironments.isEmpty)
        (by rw [get_written]; simp) (by rw [get_written]; simp [h.meshRequiredEnvironments])
        rfl (PyVal.alike_refl (isJson_strList p.meshRequiredEnvironments))
  · have hnone : ∀ n ∈ fieldNames, name ≠ lit n := fun n hn heq => hname ⟨n, hn, heq⟩
    exact Or.inl ⟨p.written_among.get_none hnone, q.written_among.get_none hnone⟩

theorem Matches.digest {P : Primitives} {digest : Str} (h : p.Matches PyVal.Alike q) (hp : p.Keyed)
    (hq : q.Keyed) (hdigest : p.digest P = .ok digest) : q.digest P = .ok digest := by
  have hordered : p.ordered.Matches PyVal.Alike q.ordered :=
    ((matches_ordered hq).mpr ((matches_ordered hp).mpr h).symm).symm
  rw [Policy.digest, ← ordered_written] at hdigest ⊢
  exact canonicalDigest_alike (hordered.alike hp.ordered hq.ordered) hdigest

end Policy

namespace DeterministicArbiter

variable {P : Primitives} {arbiter : DeterministicArbiter} {request : PyDict} {p q : Policy}

theorem mismatches_eq_nil {d e : List (Str × PyVal)} (hd : Dict.Distinct d)
    (he : Dict.Distinct e) (h : Dict.Match PyVal.Alike d e) (object : PyDict) :
    mismatches object d = [] ↔ mismatches object e = [] := by
  have hperm := mismatches_perm hd he h object
  rw [← List.perm_nil, hperm.congr_left, List.perm_nil]

theorem findings_eq_nil (hp : p.Keyed) (hq : q.Keyed) (h : p.Matches PyVal.Alike q) :
    Tested.findings P request (p.constraintsFor (request.getD "action")) = [] ↔
      Tested.findings P request (q.constraintsFor (request.getD "action")) = [] := by
  have hrequired : applicable p.requiredFields (request.getD "action") =
      applicable q.requiredFields (request.getD "action") := by
    rw [applicable, applicable, entryOf_match h.requiredFields]
  have hfields := mismatches_eq_nil (distinct_applicable hp.exactEntries _)
    (distinct_applicable hq.exactEntries _)
    (applicable_match h.exactFields (request.getD "action")) request
  have hlimits : excesses request (applicable p.maxNumericFields (request.getD "action")) = [] ↔
      excesses request (applicable q.maxNumericFields (request.getD "action")) = [] := by
    have hperm : (excesses request (applicable p.maxNumericFields (request.getD "action"))).Perm
        (excesses request (applicable q.maxNumericFields (request.getD "action"))) :=
      excesses_perm (distinct_applicable hp.numericEntries _)
        (distinct_applicable hq.numericEntries _)
        (applicable_match h.maxNumericFields (request.getD "action"))
    rw [← List.perm_nil, hperm.congr_left, List.perm_nil]
  have hcontext := mismatches_eq_nil hp.exactContext hq.exactContext h.exactContext
    (contextObject request)
  rw [findings_constraintsFor, findings_constraintsFor, h.maxRequestBytes, h.allowedActions,
    hrequired, h.requiredContext]
  simp only [List.append_eq_nil_iff, named, List.map_eq_nil_iff, hfields, hlimits, hcontext]

-- whether a request is allowed does not depend on the order of the policy's dictionaries
theorem allow_eq (hp : p.Keyed) (hq : q.Keyed) (h : p.Matches PyVal.Alike q)
    (hdigest : q.digest P = p.digest P) :
    (arbiter.decide P request p).map Decision.allow =
      (arbiter.decide P request q).map Decision.allow := by
  by_cases htest : Testable P request p
  · obtain ⟨requestBytes, hbytes⟩ := (canonicalJson_isOk P).mpr htest.canonical
    rw [decide_of_testable arbiter hbytes htest.hashable htest.representable,
      decide_of_testable arbiter hbytes htest.hashable
        ((representable_iff hp hq h).mp htest.representable),
      ← entryOf_match h.requiredApprovals, hdigest]
    cases arbiter.quorumFindings P request
        ((entryOf p.requiredApprovals (request.getD "action")).getD 0) with
    | error e => rfl
    | ok quorum =>
        cases p.digest P with
        | error e => rfl
        | ok digest =>
            have hsame : (Tested.findings P request (p.constraintsFor (request.getD "action")) ++
                quorum).isEmpty = (Tested.findings P request
                  (q.constraintsFor (request.getD "action")) ++ quorum).isEmpty := by
              rw [Bool.eq_iff_iff, List.isEmpty_iff, List.isEmpty_iff, List.append_eq_nil_iff,
                List.append_eq_nil_iff, findings_eq_nil hp hq h]
            simp only [bind, Except.bind, Except.map, verdict, isAllowed, h.allowedActions, hsame]
  · obtain ⟨e, hdecide, hdecide'⟩ : ∃ e, arbiter.decide P request p = .error e ∧
        arbiter.decide P request q = .error e := decide_untestable hp hq h htest
    rw [hdecide, hdecide']

end DeterministicArbiter

namespace Policy

variable {P : Primitives} {p : Policy}

-- what is read is p but for the order of its dictionaries, and rules on every request as p does
def RestoredFrom (P : Primitives) (p : Policy) (value : PyVal) : Prop :=
  ∃ q : Policy, RawPolicy.ofValue value = .ok q.raw ∧ q.digest P = p.digest P ∧
    p.Matches PyVal.Alike q ∧ ∀ (arbiter : DeterministicArbiter) (request : PyDict),
      (arbiter.decide P request q).map Decision.allow =
        (arbiter.decide P request p).map Decision.allow

theorem restored {q : Policy} {value : PyVal} (hp : p.Keyed) (hq : q.Keyed)
    (h : p.Matches PyVal.Alike q) (hread : RawPolicy.ofValue value = .ok q.raw)
    (hdigest : q.digest P = p.digest P) : RestoredFrom P p value :=
  ⟨q, hread, hdigest, h, fun _ _ => (DeterministicArbiter.allow_eq hp hq h hdigest).symm⟩

theorem restored_toDict (hvalid : p.Valid) (hp : p.Keyed) (hj : p.JsonValued) :
    RestoredFrom P p (.dict p.toDict) :=
  restored hp hp.ordered (matches_ordered_self hp hj) (ofValue_toDict hvalid)
    (p.ordered_digest P)

theorem restored_loads {text : String} (hvalid : p.Valid) (hp : p.Keyed) (hj : p.JsonValued)
    (htext : canonicalJson P (.dict p.toDict) = .ok text) :
    ∃ value, P.loads (decode text) = .ok value ∧ RestoredFrom P p value := by
  obtain ⟨t, ht, hloads⟩ := loads_canonicalJson htext
  rw [← ordered_written] at ht
  have hself := matches_ordered_self hp hj
  have hjson := isJson_written hp.ordered (hself.symm.jsonValued hp.ordered)
  have hreread : (PyVal.ofTree t).toTree P.recursionLimit = .ok t :=
    PyVal.toTree_ofTree (PyVal.toTree_readable ht) (PyVal.toTree_ascending hjson.strKeyed ht)
  have halike := PyVal.Alike.of_toTree hjson (PyVal.ofTree_isJson t) ht hreread
  obtain ⟨e, he, hdict⟩ := halike.dict
  obtain ⟨q, hq, hmatch, hget⟩ := exists_reread hdict
  have honly : PyDict.hasOnly e (PolicyDocument.required ++ PolicyDocument.optional) =
      PyDict.hasOnly q.written (PolicyDocument.required ++ PolicyDocument.optional) := by
    rw [← hdict.hasOnly, hasOnly_written, hasOnly_written]
  have hread : RawPolicy.ofValue (.ofTree t) = .ok q.raw := by
    rw [he, ofValue_congr hget honly]
    exact ofValue_written (hmatch.valid hq hvalid.ordered)
  have hpq := (matches_ordered hp).mp hmatch
  have hdigest : p.digest P = .ok (hexdigest P text) := by
    rw [Policy.digest, canonicalDigest, htext]
    rfl
  exact ⟨_, hloads, restored hp hq hpq hread ((hpq.digest hp hq hdigest).trans hdigest.symm)⟩

-- a policy survives its dict, and its document whenever there is one
theorem survives {q : Policy} (h : p.postInit = .ok q) (hp : p.Keyed) (hj : p.JsonValued) :
    RestoredFrom P p (.dict p.toDict) ∧
      ∀ text, canonicalJson P (.dict p.toDict) = .ok text →
        ∃ value, P.loads (decode text) = .ok value ∧ RestoredFrom P p value :=
  ⟨restored_toDict (valid_of_postInit h) hp hj,
    fun _ htext => restored_loads (valid_of_postInit h) hp hj htext⟩

section Unwritten

open DeterministicArbiter (asWritten placed keyed_placed)

theorem survives_asWritten : RestoredFrom referencePrimitives asWritten (.dict asWritten.toDict) ∧
    ∀ text, canonicalJson referencePrimitives (.dict asWritten.toDict) = .ok text →
      ∃ value, referencePrimitives.loads (decode text) = .ok value ∧
        RestoredFrom referencePrimitives asWritten value :=
  survives (q := asWritten) rfl (keyed_placed (by simp [Dict.Distinct]))
    ⟨by simp [asWritten, placed], by simp [asWritten, placed, PyVal.IsJson]⟩

-- a policy that is constructed but has no canonical document
def unwritten : Policy := { placed [] with policyId := [ExecutionBoundary.loneSurrogate] }

theorem not_survives_unwritten : unwritten.postInit = .ok unwritten ∧ unwritten.Keyed ∧
    unwritten.JsonValued ∧
      ¬ ∃ text, canonicalJson referencePrimitives (.dict unwritten.toDict) = .ok text := by
  refine ⟨rfl, ?_, ⟨by simp [unwritten, placed], by simp [unwritten, placed]⟩, ?_⟩
  · have hplaced : (placed []).Keyed := keyed_placed List.Pairwise.nil
    exact { hplaced with }
  · rintro ⟨text, htext⟩
    have hnone : (canonicalJson referencePrimitives (.dict unwritten.toDict)).toOption = none := by
      decide +kernel
    rw [htext] at hnone
    cases hnone

end Unwritten

end Policy

end GovernedAutonomy
