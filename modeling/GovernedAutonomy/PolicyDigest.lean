import GovernedAutonomy.AuthorizeOutcomes
import GovernedAutonomy.PolicyRoundTrip
import GovernedAutonomy.Python.Matching

namespace GovernedAutonomy

open Python PolicyDocument

section Written

variable {V W : Type} {f : V → PyVal} {g : W → PyVal} {d : List (Str × V)} {e : List (Str × W)}

theorem isStr_items (f : V → PyVal) (d : List (Str × V)) :
    ∀ m ∈ d.map (fun m => ((.str m.1, f m.2) : PyKey × PyVal)), m.1.isStr = true := by
  intro m hm
  obtain ⟨n, -, rfl⟩ := List.mem_map.mp hm
  rfl

theorem distinct_items (f : V → PyVal) (hd : Dict.Distinct d) :
    Dict.Distinct (d.map (fun m => ((.str m.1, f m.2) : PyKey × PyVal))) :=
  List.pairwise_map.mpr (hd.imp fun {a b} hab => by
    rw [same_list, decide_eq_false_iff_not] at hab
    rw [same_str, decide_eq_false_iff_not]
    exact hab)

theorem get_items (f : V → PyVal) (d : List (Str × V)) (k : Str) :
    PyDict.get (d.map (fun m => (.str m.1, f m.2))) k = (Dict.get d k).map f := by
  induction d with
  | nil => rfl
  | cons m d ih =>
      rw [List.map_cons, PyDict.get, Dict.get_cons, Dict.get_cons, same_str, same_list]
      split
      · rfl
      · exact ih

theorem match_of_cowritten (hd : Dict.Distinct d) (he : Dict.Distinct e)
    (h : PyVal.Cowritten (strDict f d) (strDict g e)) :
    Dict.Match (fun v w => PyVal.Cowritten (f v) (g w)) d e := by
  have hforth : ∀ {V W : Type} {f : V → PyVal} {g : W → PyVal} {d : List (Str × V)}
      {e : List (Str × W)}, Dict.Distinct e → PyVal.Cowritten (strDict f d) (strDict g e) →
        ∀ k v, Dict.get d k = some v → ∃ w, Dict.get e k = some w ∧ PyVal.Cowritten (f v) (g w) := by
    intro V W f g d e he h k v hv
    have hget : PyDict.get (d.map (fun m => (.str m.1, f m.2))) k = some (f v) := by
      rw [get_items, hv]
      rfl
    obtain ⟨x, hx, hvx⟩ := PyVal.Cowritten.get h (isStr_items f d) (isStr_items g e)
      (distinct_items g he) hget
    rw [get_items] at hx
    obtain ⟨w, hw, rfl⟩ := Option.map_eq_some_iff.mp hx
    exact ⟨w, hw, hvx⟩
  constructor
  · exact hforth he h
  · intro k w hw
    obtain ⟨v, hv, hwv⟩ := hforth hd h.symm k w hw
    exact ⟨v, hv, hwv.symm⟩

theorem match_sortedItems {R : V → W → Prop} (hd : Dict.Distinct d) :
    Dict.Match R (sortedItems d) e ↔ Dict.Match R d e := by
  constructor
  · rintro ⟨hforth, hback⟩
    simp only [get_sortedItems hd] at hforth hback
    exact ⟨hforth, hback⟩
  · rintro ⟨hforth, hback⟩
    constructor
    · simpa only [get_sortedItems hd] using hforth
    · simpa only [get_sortedItems hd] using hback

theorem number_of_cowritten {a b : Number} (h : PyVal.Cowritten a.toVal b.toVal) : a = b := by
  cases a with
  | int i =>
      cases b with
      | int j => rw [PyVal.cowritten_int h]
      | float g => exact absurd h PyVal.not_cowritten_int_float
  | float f =>
      cases b with
      | int j => exact absurd h.symm PyVal.not_cowritten_int_float
      | float g => rw [PyVal.cowritten_float h]

end Written

namespace Policy

-- the dictionaries of a policy, each with distinct keys
structure Keyed (p : Policy) : Prop where
  requiredFields : Dict.Distinct p.requiredFields
  exactFields : Dict.Distinct p.exactFields
  exactEntries : ∀ m ∈ p.exactFields, Dict.Distinct m.2
  exactContext : Dict.Distinct p.exactContext
  requiredApprovals : Dict.Distinct p.requiredApprovals
  maxNumericFields : Dict.Distinct p.maxNumericFields
  numericEntries : ∀ m ∈ p.maxNumericFields, Dict.Distinct m.2
  requiredMeshInputs : Dict.Distinct p.requiredMeshInputs
  requiredMeshSources : Dict.Distinct p.requiredMeshSources

-- the same policy but for the order of its dictionaries, and with related constraint values
structure Matches (R : PyVal → PyVal → Prop) (p q : Policy) : Prop where
  policyId : p.policyId = q.policyId
  allowedActions : p.allowedActions = q.allowedActions
  requiredFields : Dict.Match Eq p.requiredFields q.requiredFields
  exactFields : Dict.Match (Dict.Match R) p.exactFields q.exactFields
  requiredContext : p.requiredContext = q.requiredContext
  exactContext : Dict.Match R p.exactContext q.exactContext
  maxRequestBytes : p.maxRequestBytes = q.maxRequestBytes
  maxTtlSeconds : p.maxTtlSeconds = q.maxTtlSeconds
  requiredApprovals : Dict.Match Eq p.requiredApprovals q.requiredApprovals
  maxNumericFields : Dict.Match (Dict.Match Eq) p.maxNumericFields q.maxNumericFields
  requiredMeshInputs : Dict.Match Eq p.requiredMeshInputs q.requiredMeshInputs
  requiredMeshSources : Dict.Match Eq p.requiredMeshSources q.requiredMeshSources
  meshRequiredActions : p.meshRequiredActions = q.meshRequiredActions
  meshRequiredEnvironments : p.meshRequiredEnvironments = q.meshRequiredEnvironments

theorem Keyed.ordered {p : Policy} (h : p.Keyed) : p.ordered.Keyed := by
  refine
    { requiredFields := distinct_sortedItems h.requiredFields
      exactFields := distinct_sortedItems h.exactFields
      exactEntries := fun m hm => h.exactEntries m (mem_sortedItems.mp hm)
      exactContext := h.exactContext
      requiredApprovals := distinct_sortedItems h.requiredApprovals
      maxNumericFields := distinct_map sortedItems (distinct_sortedItems h.maxNumericFields)
      numericEntries := ?_
      requiredMeshInputs := distinct_sortedItems h.requiredMeshInputs
      requiredMeshSources := distinct_sortedItems h.requiredMeshSources }
  intro m hm
  obtain ⟨n, hn, rfl⟩ := List.mem_map.mp hm
  exact distinct_sortedItems (h.numericEntries n (mem_sortedItems.mp hn))

end Policy

namespace Policy

-- the names in the order of to_dict
def fieldNames : List String :=
  ["policy_id", "allowed_actions", "required_fields", "exact_fields", "required_context",
    "exact_context", "max_request_bytes", "max_ttl_seconds", "required_approvals",
    "max_numeric_fields", "required_mesh_inputs", "required_mesh_sources",
    "mesh_required_actions", "mesh_required_environments"]

-- the dict has no keys but these, each at most once
def Among (d : PyDict) : Prop :=
  (d.map Prod.fst).Sublist (fieldNames.map (fun name => PyKey.str (lit name)))

theorem among_optional (present : Bool) (name : String) (value : PyVal) :
    ((if present = true then [((.str (lit name), value) : PyKey × PyVal)] else []).map
      Prod.fst).Sublist [PyKey.str (lit name)] := by
  cases present with
  | true => exact List.Sublist.refl _
  | false => exact List.nil_sublist _

theorem Among.isStr {d : PyDict} (h : Among d) : ∀ m ∈ d, m.1.isStr = true := by
  intro m hm
  obtain ⟨name, -, hname⟩ := List.mem_map.mp (h.subset (List.mem_map_of_mem hm))
  rw [← hname]
  rfl

theorem Among.distinct {d : PyDict} (h : Among d) : Dict.Distinct d := by
  have hnames : (fieldNames.map (fun name => PyKey.str (lit name))).Pairwise
      (fun a b => Keyed.same a b = false) := by
    have hne : fieldNames.Pairwise (fun a b => a ≠ b) := by decide
    refine List.pairwise_map.mpr (hne.imp ?_)
    intro a b hab
    rw [same_str, decide_eq_false_iff_not, lit_inj]
    exact hab
  exact List.pairwise_map.mp (hnames.sublist h)

theorem Among.get_none {d : PyDict} (h : Among d) {name : Str}
    (hname : ∀ n ∈ fieldNames, name ≠ lit n) : PyDict.get d name = none := by
  cases hget : PyDict.get d name with
  | none => rfl
  | some v =>
      have hkey := h.subset (List.mem_map_of_mem (f := Prod.fst) (mem_of_get_str hget))
      obtain ⟨n, hn, heq⟩ := List.mem_map.mp hkey
      exact absurd (PyKey.str.inj heq).symm (hname n hn)

theorem written_among (p : Policy) : Among p.written := by
  simp only [Among, written, List.map_append]
  exact ((((List.Sublist.refl _).append (among_optional _ _ _)).append
    (among_optional _ _ _)).append (among_optional _ _ _)).append (among_optional _ _ _) |>.append
      (among_optional _ _ _)

section Cowritten

variable {p q : Policy} (h : PyVal.Cowritten (.dict p.written) (.dict q.written))

include h

theorem cowritten_entry (name : String) {v w : PyVal}
    (hv : PyDict.get p.written (lit name) = some v)
    (hw : PyDict.get q.written (lit name) = some w) : PyVal.Cowritten v w := by
  obtain ⟨w', hw', hvw⟩ := h.get p.written_among.isStr q.written_among.isStr q.written_among.distinct hv
  rw [hw] at hw'
  obtain rfl := Option.some.inj hw'
  exact hvw

-- a field that is left out when it is empty
theorem cowritten_optional (name : String) {present present' : Bool} {v w : PyVal}
    (hp : PyDict.get p.written (lit name) = if present = true then some v else none)
    (hq : PyDict.get q.written (lit name) = if present' = true then some w else none) :
    present = present' ∧ (present = true → PyVal.Cowritten v w) := by
  cases present with
  | true =>
      obtain ⟨w', hw', hvw⟩ := h.get p.written_among.isStr q.written_among.isStr q.written_among.distinct hp
      rw [hq] at hw'
      cases present' with
      | true =>
          obtain rfl := Option.some.inj hw'
          exact ⟨rfl, fun _ => hvw⟩
      | false => cases hw'
  | false =>
      cases present' with
      | true =>
          obtain ⟨v', hv', -⟩ := h.symm.get q.written_among.isStr p.written_among.isStr p.written_among.distinct hq
          rw [hp] at hv'
          cases hv'
      | false => exact ⟨rfl, fun h => absurd h Bool.false_ne_true⟩

theorem match_optional (name : String) {V : Type} {f : V → PyVal} {d e : List (Str × V)}
    (hd : Dict.Distinct d) (he : Dict.Distinct e)
    (hp : PyDict.get p.written (lit name) =
      if (!d.isEmpty) = true then some (strDict f d) else none)
    (hq : PyDict.get q.written (lit name) =
      if (!e.isEmpty) = true then some (strDict f e) else none) :
    Dict.Match (fun v w => PyVal.Cowritten (f v) (f w)) d e := by
  obtain ⟨hpresent, hwritten⟩ := cowritten_optional h name hp hq
  cases d with
  | nil =>
      cases e with
      | nil => exact ⟨fun _ _ hv => absurd hv (by simp), fun _ _ hw => absurd hw (by simp)⟩
      | cons n e => cases hpresent
  | cons m d => exact match_of_cowritten hd he (hwritten rfl)

theorem strs_optional (name : String) {ss ts : List Str}
    (hp : PyDict.get p.written (lit name) =
      if (!ss.isEmpty) = true then some (strList ss) else none)
    (hq : PyDict.get q.written (lit name) =
      if (!ts.isEmpty) = true then some (strList ts) else none) : ss = ts := by
  obtain ⟨hpresent, hwritten⟩ := cowritten_optional h name hp hq
  cases ss with
  | nil =>
      cases ts with
      | nil => rfl
      | cons t ts => cases hpresent
  | cons s ss => exact PyVal.cowritten_strs (hwritten rfl)

theorem matches_of_written (hp : p.Keyed) (hq : q.Keyed) : Matches PyVal.Cowritten p q := by
  have hstrs : ∀ {ss ts : List Str}, PyVal.Cowritten (strList ss) (strList ts) → ss = ts :=
    fun hst => PyVal.cowritten_strs hst
  have hexact : Dict.Match (fun v w => PyVal.Cowritten (strDict id v) (strDict id w))
      p.exactFields q.exactFields := match_of_cowritten hp.exactFields hq.exactFields
    (cowritten_entry h "exact_fields" (by rw [get_written]; simp) (by rw [get_written]; simp))
  have hcontext : Dict.Match (fun v w => PyVal.Cowritten (id v) (id w))
      p.exactContext q.exactContext := match_of_cowritten hp.exactContext hq.exactContext
    (cowritten_entry h "exact_context" (by rw [get_written]; simp) (by rw [get_written]; simp))
  have hnumeric : Dict.Match
      (fun v w => PyVal.Cowritten (strDict Number.toVal v) (strDict Number.toVal w))
      p.maxNumericFields q.maxNumericFields :=
    match_optional h "max_numeric_fields" hp.maxNumericFields hq.maxNumericFields
      (by rw [get_written]; simp) (by rw [get_written]; simp)
  constructor
  · exact PyVal.cowritten_str (cowritten_entry h "policy_id" (by rw [get_written]; simp)
      (by rw [get_written]; simp))
  · exact hstrs (cowritten_entry h "allowed_actions" (by rw [get_written]; simp)
      (by rw [get_written]; simp))
  · exact (match_of_cowritten hp.requiredFields hq.requiredFields
      (cowritten_entry h "required_fields" (by rw [get_written]; simp)
        (by rw [get_written]; simp))).imp fun _ _ _ _ _ hvw => hstrs hvw
  · refine hexact.imp fun k v w hv hw hvw => ?_
    exact match_of_cowritten (hp.exactEntries _ (Dict.mem_of_get hv))
      (hq.exactEntries _ (Dict.mem_of_get hw)) hvw
  · exact hstrs (cowritten_entry h "required_context" (by rw [get_written]; simp)
      (by rw [get_written]; simp))
  · exact hcontext
  · exact PyVal.cowritten_int (cowritten_entry h "max_request_bytes"
      (by rw [get_written]; simp) (by rw [get_written]; simp))
  · exact PyVal.cowritten_int (cowritten_entry h "max_ttl_seconds"
      (by rw [get_written]; simp) (by rw [get_written]; simp))
  · exact (match_of_cowritten hp.requiredApprovals hq.requiredApprovals
      (cowritten_entry h "required_approvals" (by rw [get_written]; simp)
        (by rw [get_written]; simp))).imp fun _ _ _ _ _ hvw => PyVal.cowritten_int hvw
  · refine hnumeric.imp fun k v w hv hw hvw => ?_
    exact (match_of_cowritten (hp.numericEntries _ (Dict.mem_of_get hv))
      (hq.numericEntries _ (Dict.mem_of_get hw)) hvw).imp
        fun _ _ _ _ _ hvw => number_of_cowritten hvw
  · exact (match_optional h "required_mesh_inputs" hp.requiredMeshInputs hq.requiredMeshInputs
      (by rw [get_written]; simp) (by rw [get_written]; simp)).imp
        fun _ _ _ _ _ hvw => PyVal.cowritten_int hvw
  · exact (match_optional h "required_mesh_sources" hp.requiredMeshSources hq.requiredMeshSources
      (by rw [get_written]; simp) (by rw [get_written]; simp)).imp
        fun _ _ _ _ _ hvw => hstrs hvw
  · exact strs_optional h "mesh_required_actions" (by rw [get_written]; simp)
      (by rw [get_written]; simp)
  · exact strs_optional h "mesh_required_environments" (by rw [get_written]; simp)
      (by rw [get_written]; simp)

end Cowritten

section Digest

variable {p q : Policy}

theorem Matches.flip {R : PyVal → PyVal → Prop} (h : p.Matches R q) :
    q.Matches (fun v w => R w v) p := by
  have hflip : ∀ {V : Type} {d e : List (Str × V)}, Dict.Match Eq d e → Dict.Match Eq e d :=
    fun h => h.symm.imp fun _ _ _ _ _ hvw => hvw.symm
  exact ⟨h.policyId.symm, h.allowedActions.symm, hflip h.requiredFields,
    h.exactFields.symm.imp fun _ _ _ _ _ hvw => hvw.symm, h.requiredContext.symm,
    h.exactContext.symm, h.maxRequestBytes.symm, h.maxTtlSeconds.symm, hflip h.requiredApprovals,
    h.maxNumericFields.symm.imp fun _ _ _ _ _ hvw => hflip hvw, hflip h.requiredMeshInputs,
    hflip h.requiredMeshSources, h.meshRequiredActions.symm, h.meshRequiredEnvironments.symm⟩

theorem match_limits (hp : p.Keyed) {limits : List (Str × List (Str × Number))} :
    Dict.Match (Dict.Match Eq) p.ordered.maxNumericFields limits ↔
      Dict.Match (Dict.Match Eq) p.maxNumericFields limits := by
  have hget : ∀ k, Dict.get p.ordered.maxNumericFields k =
      (Dict.get p.maxNumericFields k).map sortedItems := by
    intro k
    rw [ordered, Dict.get_map, get_sortedItems hp.maxNumericFields]
  have hinner : ∀ {k v w}, Dict.get p.maxNumericFields k = some v →
      (Dict.Match Eq (sortedItems v) w ↔ Dict.Match Eq v w) := fun hv =>
    match_sortedItems (hp.numericEntries _ (Dict.mem_of_get hv))
  constructor
  · intro h
    constructor
    · intro k v hv
      obtain ⟨w, hw, hvw⟩ := h.forth k (sortedItems v) (by rw [hget, hv]; rfl)
      exact ⟨w, hw, (hinner hv).mp hvw⟩
    · intro k w hw
      obtain ⟨v', hv', hvw⟩ := h.back k w hw
      rw [hget] at hv'
      obtain ⟨v, hv, rfl⟩ := Option.map_eq_some_iff.mp hv'
      exact ⟨v, hv, (hinner hv).mp hvw⟩
  · intro h
    constructor
    · intro k v' hv'
      rw [hget] at hv'
      obtain ⟨v, hv, rfl⟩ := Option.map_eq_some_iff.mp hv'
      obtain ⟨w, hw, hvw⟩ := h.forth k v hv
      exact ⟨w, hw, (hinner hv).mpr hvw⟩
    · intro k w hw
      obtain ⟨v, hv, hvw⟩ := h.back k w hw
      exact ⟨sortedItems v, by rw [hget, hv]; rfl, (hinner hv).mpr hvw⟩

theorem matches_ordered {R : PyVal → PyVal → Prop} (hp : p.Keyed) :
    p.ordered.Matches R q ↔ p.Matches R q := by
  constructor
  · intro h
    exact
      { h with
        requiredFields := (match_sortedItems hp.requiredFields).mp h.requiredFields
        exactFields := (match_sortedItems hp.exactFields).mp h.exactFields
        requiredApprovals := (match_sortedItems hp.requiredApprovals).mp h.requiredApprovals
        maxNumericFields := (match_limits hp).mp h.maxNumericFields
        requiredMeshInputs := (match_sortedItems hp.requiredMeshInputs).mp h.requiredMeshInputs
        requiredMeshSources :=
          (match_sortedItems hp.requiredMeshSources).mp h.requiredMeshSources }
  · intro h
    exact
      { h with
        requiredFields := (match_sortedItems hp.requiredFields).mpr h.requiredFields
        exactFields := (match_sortedItems hp.exactFields).mpr h.exactFields
        requiredApprovals := (match_sortedItems hp.requiredApprovals).mpr h.requiredApprovals
        maxNumericFields := (match_limits hp).mpr h.maxNumericFields
        requiredMeshInputs := (match_sortedItems hp.requiredMeshInputs).mpr h.requiredMeshInputs
        requiredMeshSources :=
          (match_sortedItems hp.requiredMeshSources).mpr h.requiredMeshSources }

theorem matches_of_ordered {R : PyVal → PyVal → Prop} (hp : p.Keyed) (hq : q.Keyed)
    (h : Matches R p.ordered q.ordered) : Matches R p q :=
  ((matches_ordered hq).mp ((matches_ordered hp).mp h).flip).flip

theorem matches_of_sameDigest {P : Primitives} (hsha : Function.Injective P.sha256) (hp : p.Keyed)
    (hq : q.Keyed) (h : p.SameDigest P q) : Matches PyVal.Cowritten p q := by
  obtain ⟨digest, hdigest, hdigest'⟩ := h
  rw [Policy.digest, ← ordered_written] at hdigest hdigest'
  obtain ⟨t, ht, ht'⟩ := canonicalDigest_injective hsha hdigest hdigest'
  exact matches_of_ordered hp hq (matches_of_written ⟨_, t, ht, ht'⟩ hp.ordered hq.ordered)

end Digest

end Policy

namespace DeterministicArbiter

section Statement

-- the entries that are not met, in the order in which the policy lists them
def mismatches (d : PyDict) (expected : List (Str × PyVal)) : List Str :=
  (expected.filter (fun m => !(d.getD m.1).eq m.2)).map Prod.fst

def excesses (request : PyDict) (limits : List (Str × Number)) : List Str :=
  (limits.filter (fun m => !isWithin m.2 (request.getD m.1))).map Prod.fst

structure SameOrder (request : PyDict) (p q : Policy) : Prop where
  fields : mismatches request (applicable p.exactFields (request.getD "action")) =
    mismatches request (applicable q.exactFields (request.getD "action"))
  limits : excesses request (applicable p.maxNumericFields (request.getD "action")) =
    excesses request (applicable q.maxNumericFields (request.getD "action"))
  context : mismatches (contextObject request) p.exactContext =
    mismatches (contextObject request) q.exactContext

end Statement

section Findings

def named (text code : String) (names : List Str) : List Finding :=
  names.map (fun name => .of (lit text ++ name) code)

def ofCode (code : String) (found : List Finding) : List Finding :=
  found.filter (fun f => f.code = lit code)

theorem ofCode_append (code : String) (fs gs : List Finding) :
    ofCode code (fs ++ gs) = ofCode code fs ++ ofCode code gs := List.filter_append fs gs

theorem ofCode_named (code text code' : String) (names : List Str) :
    ofCode code (named text code' names) = if code = code' then named text code' names else [] := by
  have hcode : ∀ f ∈ named text code' names, f.code = lit code' := by
    intro f hf
    obtain ⟨name, -, rfl⟩ := List.mem_map.mp hf
    rfl
  split
  · rename_i h
    refine List.filter_eq_self.mpr fun f hf => ?_
    simp [hcode f hf, h]
  · rename_i h
    refine List.filter_eq_nil_iff.mpr fun f hf => ?_
    rw [hcode f hf, decide_eq_true_eq, lit_inj]
    exact Ne.symm h

theorem named_inj {text code : String} {names names' : List Str}
    (h : named text code names = named text code names') : names = names' := by
  refine List.map_injective_iff.mpr ?_ h
  intro a b hab
  exact List.append_cancel_left (congrArg Finding.reason hab)

theorem mismatchFindings_eq (d : PyDict) (text code : String) (expected : List (Str × PyVal)) :
    mismatchFindings d text code expected = named text code (mismatches d expected) := by
  rw [mismatchFindings, named, mismatches, List.map_map]
  rfl

variable {P : Primitives} {request : PyDict}

theorem findings_numericFields (limits : List (Str × Number)) :
    Tested.findings P request (limits.map (fun m => .numericField m.1 m.2)) =
      named "numeric field exceeds policy maximum: " "numeric_limit_exceeded"
        (excesses request limits) := by
  rw [Tested.findings, List.filter_map, List.map_map, named, excesses, List.map_map]
  rfl

theorem findings_constraintsFor (policy : Policy) (action : PyVal) :
    Tested.findings P request (policy.constraintsFor action) =
      Tested.findings P request
          [.size policy.maxRequestBytes, .contextShape, .action policy.allowedActions] ++
        missingFindings request "required field is missing: " "required_field_missing"
          (applicable policy.requiredFields action) ++
        named "field does not match policy: " "field_mismatch"
          (mismatches request (applicable policy.exactFields action)) ++
        named "numeric field exceeds policy maximum: " "numeric_limit_exceeded"
          (excesses request (applicable policy.maxNumericFields action)) ++
        missingFindings (contextObject request) "required context is missing: "
          "required_context_missing" policy.requiredContext ++
        named "context does not match policy: " "context_mismatch"
          (mismatches (contextObject request) policy.exactContext) := by
  rw [Policy.constraintsFor]
  simp only [Tested.findings_append, Tested.findings_fields, Tested.findings_exactFields,
    findings_numericFields, Tested.findings_contextFields, Tested.findings_exactContext,
    mismatchFindings_eq]

theorem verdict_inj {p q : Policy} {requestBytes : String} {fs gs : List Finding}
    {digest digest' : Str}
    (h : verdict P p request requestBytes fs digest = verdict P q request requestBytes gs digest') :
    fs = gs := by
  have hreasons : fs.map Finding.reason = gs.map Finding.reason := congrArg Decision.reasons h
  have hcodes : fs.map Finding.code = gs.map Finding.code := congrArg Decision.reasonCodes h
  clear h
  induction fs generalizing gs with
  | nil => exact (List.map_eq_nil_iff.mp hreasons.symm).symm
  | cons f fs ih =>
      cases gs with
      | nil => cases hreasons
      | cons g gs =>
          obtain ⟨hreason, hreasonsRest⟩ := List.cons.inj hreasons
          obtain ⟨hcode, hcodesRest⟩ := List.cons.inj hcodes
          obtain ⟨reason, code⟩ := f
          obtain ⟨reason', code'⟩ := g
          obtain rfl : reason = reason' := hreason
          obtain rfl : code = code' := hcode
          rw [ih hreasonsRest hcodesRest]

end Findings

section Deciding

variable {P : Primitives} {arbiter : DeterministicArbiter} {request : PyDict} {p q : Policy}
  {R : PyVal → PyVal → Prop}

theorem entryOf_match {V : Type} {d e : List (Str × V)} (h : Dict.Match Eq d e) (action : PyVal) :
    entryOf d action = entryOf e action := by
  cases action with
  | str name => exact Dict.match_eq.mp h name
  | _ => rfl

theorem applicable_match {V : Type} {S : V → V → Prop} {d e : List (Str × List (Str × V))}
    (h : Dict.Match (Dict.Match S) d e) (action : PyVal) :
    Dict.Match S (applicable d action) (applicable e action) := by
  have hnil : Dict.Match S ([] : List (Str × V)) [] :=
    ⟨fun _ _ hv => absurd hv (by simp), fun _ _ hw => absurd hw (by simp)⟩
  cases action with
  | str name =>
      simp only [applicable, entryOf]
      cases hv : Dict.get d name with
      | some v =>
          obtain ⟨w, hw, hvw⟩ := h.forth name v hv
          rw [hw]
          exact hvw
      | none =>
          cases hw : Dict.get e name with
          | some w =>
              obtain ⟨v, hv', -⟩ := h.back name w hw
              rw [hv] at hv'
              cases hv'
          | none => exact hnil
  | _ => exact hnil

theorem distinct_applicable {V : Type} {d : List (Str × List (Str × V))}
    (h : ∀ m ∈ d, Dict.Distinct m.2) (action : PyVal) : Dict.Distinct (applicable d action) := by
  cases hentry : entryOf d action with
  | none =>
      rw [applicable, hentry]
      exact List.Pairwise.nil
  | some v =>
      rw [applicable, hentry]
      obtain ⟨name, -, hmem⟩ := entryOf_eq_some hentry
      exact h _ hmem

-- the lists of findings differ in the order of three of their parts at most
theorem findings_eq_iff (h : p.Matches R q) (quorum : List Finding) :
    Tested.findings P request (p.constraintsFor (request.getD "action")) ++ quorum =
        Tested.findings P request (q.constraintsFor (request.getD "action")) ++ quorum ↔
      SameOrder request p q := by
  have hrequired : applicable p.requiredFields (request.getD "action") =
      applicable q.requiredFields (request.getD "action") := by
    rw [applicable, applicable, entryOf_match h.requiredFields]
  rw [findings_constraintsFor, findings_constraintsFor, h.maxRequestBytes, h.allowedActions,
    hrequired, h.requiredContext]
  constructor
  · intro heq
    constructor
    · have hcode := congrArg (ofCode "field_mismatch") heq
      simp only [ofCode_append, ofCode_named, String.reduceEq, if_false, if_true, List.append_assoc,
        List.append_cancel_left_eq, List.append_cancel_right_eq] at hcode
      exact named_inj hcode
    · have hcode := congrArg (ofCode "numeric_limit_exceeded") heq
      simp only [ofCode_append, ofCode_named, String.reduceEq, if_false, if_true, List.append_assoc,
        List.append_cancel_left_eq, List.append_cancel_right_eq,
        List.nil_append] at hcode
      exact named_inj hcode
    · have hcode := congrArg (ofCode "context_mismatch") heq
      simp only [ofCode_append, ofCode_named, String.reduceEq, if_false, if_true, List.append_assoc,
        List.append_cancel_left_eq, List.append_cancel_right_eq,
        List.nil_append] at hcode
      exact named_inj hcode
  · intro horder
    rw [horder.fields, horder.limits, horder.context]

def Representable (request : PyDict) (policy : Policy) : Prop :=
  ∀ m ∈ applicable policy.maxNumericFields (request.getD "action"), ∀ i,
    request.getD m.1 = .int i → isDouble i = true

theorem representable_iff (hp : p.Keyed) (hq : q.Keyed) (h : p.Matches R q) :
    Representable request p ↔ Representable request q := by
  have hlimits := applicable_match h.maxNumericFields (request.getD "action")
  constructor
  · intro hrep m hm
    obtain ⟨v, hv, -⟩ := hlimits.symm.mem (distinct_applicable hq.numericEntries _) hm
    exact hrep (m.1, v) hv
  · intro hrep m hm
    obtain ⟨w, hw, -⟩ := hlimits.mem (distinct_applicable hp.numericEntries _) hm
    exact hrep (m.1, w) hw

theorem decide_of_uncanonical {e : Exc} (h : canonicalJson P (.dict request) = .error e)
    (policy : Policy) : arbiter.decide P request policy = .error e := by
  rw [decide, h]
  rfl

theorem decide_of_unhashable {requestBytes : String}
    (hbytes : canonicalJson P (.dict request) = .ok requestBytes)
    (h : (request.getD "action").hashable = false) (policy : Policy) :
    arbiter.decide P request policy = .error (.builtin .typeError) := by
  rw [decide, hbytes]
  simp only [constraintFindings, lookup_eq, h, bind, Except.bind, Bool.false_eq_true, if_false]

theorem numericFindings_raises {limits : List (Str × Number)}
    (h : ¬ ∀ m ∈ limits, ∀ i, request.getD m.1 = .int i → isDouble i = true) :
    numericFindings request limits = .error (.builtin .overflowError) := by
  induction limits with
  | nil => exact absurd (by simp) h
  | cons m limits ih =>
      rw [numericFindings]
      by_cases hm : ∀ i, request.getD m.1 = .int i → isDouble i = true
      · have hrest : ¬ ∀ m ∈ limits, ∀ i, request.getD m.1 = .int i → isDouble i = true :=
          fun hall => h (List.forall_mem_cons.mpr ⟨hm, hall⟩)
        rw [numericExceeds_eq hm, ih hrest]
        rfl
      · push Not at hm
        obtain ⟨i, hi, hbig⟩ := hm
        rw [hi, numericExceeds_raises (Bool.eq_false_iff.mpr hbig)]
        rfl

theorem decide_of_unrepresentable {requestBytes : String}
    (hbytes : canonicalJson P (.dict request) = .ok requestBytes)
    (hhashable : (request.getD "action").hashable = true) {policy : Policy}
    (h : ¬ Representable request policy) :
    arbiter.decide P request policy = .error (.builtin .overflowError) := by
  rw [decide, hbytes]
  simp only [constraintFindings, lookup_eq, hhashable, bind, Except.bind, if_true]
  rw [← applicable, numericFindings_raises h]

-- the request can be put to the test under the policy
structure Testable (P : Primitives) (request : PyDict) (policy : Policy) : Prop where
  canonical : (PyVal.dict request).Encodable P.recursionLimit
  hashable : (request.getD "action").hashable = true
  representable : Representable request policy

-- where it cannot, the arbiter raises the same under both
theorem decide_untestable (hp : p.Keyed) (hq : q.Keyed) (h : p.Matches R q)
    (hnot : ¬ Testable P request p) :
    ∃ e, arbiter.decide P request p = .error e ∧ arbiter.decide P request q = .error e := by
  cases hbytes : canonicalJson P (.dict request) with
  | error e => exact ⟨e, decide_of_uncanonical hbytes p, decide_of_uncanonical hbytes q⟩
  | ok requestBytes =>
      have hcanonical := (canonicalJson_isOk P).mp ⟨requestBytes, hbytes⟩
      cases hhash : (request.getD "action").hashable with
      | false => exact ⟨_, decide_of_unhashable hbytes hhash p, decide_of_unhashable hbytes hhash q⟩
      | true =>
          have hrep : ¬ Representable request p := fun hrep => hnot ⟨hcanonical, hhash, hrep⟩
          have hrep' : ¬ Representable request q := fun hrep' =>
            hrep ((representable_iff hp hq h).mpr hrep')
          exact ⟨_, decide_of_unrepresentable hbytes hhash hrep,
            decide_of_unrepresentable hbytes hhash hrep'⟩

theorem digest_determines_iff (hsha : Function.Injective P.sha256) (hp : p.Keyed) (hq : q.Keyed)
    (h : p.SameDigest P q) :
    arbiter.decide P request p = arbiter.decide P request q ↔
      (Testable P request p → SameOrder request p q) := by
  have hmatch := Policy.matches_of_sameDigest hsha hp hq h
  by_cases htest : Testable P request p
  · obtain ⟨digest, hdigest, hdigest'⟩ := h
    obtain ⟨requestBytes, hbytes⟩ := (canonicalJson_isOk P).mpr htest.canonical
    have hrep := (representable_iff hp hq hmatch).mp htest.representable
    have hcomputable : Computable P request p := ⟨htest.canonical,
      (canonicalDigest_isOk P).mp ⟨digest, hdigest⟩, htest.hashable, htest.representable⟩
    obtain ⟨quorum, hquorum, -, -⟩ := quorum_spec arbiter hcomputable
    rw [decide_of_testable arbiter hbytes htest.hashable htest.representable,
      decide_of_testable arbiter hbytes htest.hashable hrep,
      ← entryOf_match hmatch.requiredApprovals, hquorum, hdigest, hdigest']
    simp only [bind, Except.bind, htest, true_imp_iff]
    rw [← findings_eq_iff hmatch quorum, Except.ok.injEq]
    constructor
    · exact verdict_inj
    · intro heq
      rw [heq, verdict, verdict, isAllowed, isAllowed, hmatch.allowedActions, hmatch.policyId]
  · obtain ⟨e, hdecide, hdecide'⟩ : ∃ e, arbiter.decide P request p = .error e ∧
        arbiter.decide P request q = .error e := decide_untestable hp hq hmatch htest
    rw [hdecide, hdecide']
    simp only [htest, false_imp_iff]

-- values that are written alike fail alike, so for JSON values only the order is left open
theorem mismatches_perm {d e : List (Str × PyVal)} (hd : Dict.Distinct d) (he : Dict.Distinct e)
    (h : Dict.Match PyVal.Alike d e) (object : PyDict) :
    (mismatches object d).Perm (mismatches object e) :=
  h.keys_perm hd he fun k v w hvw => by
    simp only [hvw.eq_right]

theorem excesses_perm {d e : List (Str × Number)} (hd : Dict.Distinct d) (he : Dict.Distinct e)
    (h : Dict.Match Eq d e) : (excesses request d).Perm (excesses request e) :=
  h.keys_perm hd he fun k v w hvw => by rw [hvw]

end Deciding

section Reordered

def placed (context : List (Str × PyVal)) : Policy where
  policyId := "p"
  allowedActions := ["pay"]
  requiredFields := []
  exactFields := []
  exactContext := context

-- as it was written, and as a file with sorted keys gives it back
def asWritten : Policy := placed [("tenant", .str "t"), ("region", .str "eu")]

def asSorted : Policy := placed [("region", .str "eu"), ("tenant", .str "t")]

def payment : PyDict := PyDict.ofFields [("action", .str "pay")]

theorem keyed_placed {context : List (Str × PyVal)} (h : Dict.Distinct context) :
    (placed context).Keyed := by
  constructor
  all_goals first
    | exact h
    | exact List.Pairwise.nil
    | exact fun _ hm => absurd hm (by simp [placed])

theorem asSorted_dumps : (referencePrimitives.dumps compactStyle (.dict asSorted.toDict)).toOption =
    (referencePrimitives.dumps compactStyle (.dict asWritten.toDict)).toOption := by
  decide +kernel

theorem asSorted_sameDigest : asWritten.SameDigest referencePrimitives asSorted := by
  obtain ⟨digest, hdigest⟩ := exists_of_toOption
    (show (asWritten.digest referencePrimitives).toOption.isSome = true by decide +kernel)
  obtain ⟨_, hjson, _⟩ := bind_eq_ok.mp hdigest
  obtain ⟨text, htext, _⟩ := bind_eq_ok.mp hjson
  have htext' : referencePrimitives.dumps compactStyle (.dict asSorted.toDict) = .ok text := by
    apply eq_ok_of_toOption
    rw [asSorted_dumps, htext]
    rfl
  refine ⟨digest, hdigest, ?_⟩
  rw [← hdigest, Policy.digest, Policy.digest, canonicalDigest, canonicalDigest, canonicalJson,
    canonicalJson, htext, htext']

theorem digest_determines_iff_placed :
    DeterministicArbiter.decide referencePrimitives {} payment asWritten =
        DeterministicArbiter.decide referencePrimitives {} payment asSorted ↔
      (Testable referencePrimitives payment asWritten → SameOrder payment asWritten asSorted) :=
  digest_determines_iff referencePrimitives_sha256_injective
    (keyed_placed (by simp [Dict.Distinct])) (keyed_placed (by simp [Dict.Distinct]))
    asSorted_sameDigest

theorem reasons_reordered : asWritten.SameDigest referencePrimitives asSorted ∧
    DeterministicArbiter.decide referencePrimitives {} payment asWritten ≠
      DeterministicArbiter.decide referencePrimitives {} payment asSorted := by
  refine ⟨asSorted_sameDigest, fun h => ?_⟩
  have hreasons := congrArg (fun r => r.toOption.map Decision.reasons) h
  revert hreasons
  decide +kernel

end Reordered

end DeterministicArbiter

end GovernedAutonomy
