import GovernedAutonomy.Constraints
import GovernedAutonomy.Governance
import GovernedAutonomy.PolicyRoundTrip
import GovernedAutonomy.Preflight
import GovernedAutonomy.Python.Merging
import GovernedAutonomy.Python.Raises

namespace GovernedAutonomy

open Python PolicyDocument

theorem nodup_unique (ss : List Str) : (unique ss).Nodup := by
  induction ss with
  | nil => exact List.nodup_nil
  | cons s ss ih =>
      rw [unique, List.nodup_cons]
      exact ⟨by simp, ih.filter _⟩

theorem mem_sortedStrs {ss : List Str} {s : Str} : s ∈ sortedStrs ss ↔ s ∈ ss :=
  List.mem_insertionSort _

theorem mem_sortedUnique {ss : List Str} {s : Str} : s ∈ sortedStrs (unique ss) ↔ s ∈ ss := by
  rw [mem_sortedStrs, mem_unique]

theorem keys_sortedItems {V : Type} (d : List (Str × V)) :
    (sortedItems d).map Prod.fst = sortedStrs (d.map Prod.fst) := by
  have hsorted : sortedStrs ((sortedItems d).map Prod.fst) = (sortedItems d).map Prod.fst :=
    List.Pairwise.insertionSort_eq (List.pairwise_map.mpr (pairwise_sortedItems d))
  rw [← hsorted]
  exact GovernanceMesh.sortedStrs_perm ((List.perm_insertionSort _ d).map Prod.fst)

theorem strKeyed_distinct {P : Primitives} {d : PyDict} {entries : List (Str × PyVal)}
    (h : strKeyed P d = .ok entries) : Dict.Distinct entries := by
  refine @foldlM_invariant _ _ _ (fun _ => Dict.Distinct) ?_ d [] _ _ List.Pairwise.nil h
  intro seen entries m entries' hentries hset
  obtain ⟨name, -, hset⟩ := bind_eq_ok.mp hset
  obtain rfl := Except.ok.inj hset
  exact Dict.distinct_set hentries name m.2

-- the rules that speak of an action, in the order given
def rulesFor (rules : List GovernanceRule) (action : Str) : List GovernanceRule :=
  rules.filter (fun rule => rule.action = action)

def actionsOf (rules : List GovernanceRule) : List Str :=
  sortedStrs (unique (rules.map GovernanceRule.action))

theorem mem_rulesFor {rules : List GovernanceRule} {action : Str} {rule : GovernanceRule} :
    rule ∈ rulesFor rules action ↔ rule ∈ rules ∧ rule.action = action := by
  rw [rulesFor, List.mem_filter, decide_eq_true_eq]

theorem rulesFor_concat (rules : List GovernanceRule) (rule : GovernanceRule) (action : Str) :
    rulesFor (rules ++ [rule]) action =
      rulesFor rules action ++ (if rule.action = action then [rule] else []) := by
  rw [rulesFor, List.filter_append, List.filter_singleton, rulesFor]
  by_cases haction : rule.action = action
  · simp [haction]
  · simp [haction]

theorem mem_actionsOf {rules : List GovernanceRule} {action : Str} :
    action ∈ actionsOf rules ↔ ∃ rule ∈ rules, rule.action = action := by
  rw [actionsOf, mem_sortedUnique, List.mem_map]

namespace GovernanceRule

-- every field of a rule's dictionaries stands in it once
structure Keyed (rule : GovernanceRule) : Prop where
  exactFields : Dict.Distinct rule.exactFields
  exactContext : Dict.Distinct rule.exactContext

theorem keyed_fromMapping {P : Primitives} {payload : PyDict} {rule : GovernanceRule}
    (h : fromMapping P payload = .ok rule) : rule.Keyed := by
  simp only [fromMapping, bind_eq_ok] at h
  obtain ⟨action, -, -, -, fields, -, raw, -, exactFields, hexact, context, -, raw', -,
    exactContext, hcontext, approvals, -, description, -, h⟩ := h
  obtain rfl := Except.ok.inj h
  exact ⟨strKeyed_distinct hexact, strKeyed_distinct hcontext⟩

end GovernanceRule

namespace RuleText

variable {T : DecimalTable}

theorem equalities_distinct {remainder : Str} {entries : List (Str × PyVal)}
    (h : equalities T remainder = .ok entries) : Dict.Distinct entries := by
  refine @foldlM_invariant _ _ _ (fun _ => Dict.Distinct) ?_ _ [] _ _ List.Pairwise.nil h
  intro seen entries groups entries' hentries hset
  obtain ⟨value, -, hset⟩ := bind_eq_ok.mp hset
  obtain rfl := Except.ok.inj hset
  exact Dict.distinct_set hentries _ value

theorem keyed_conditionalRule {text action remainder : Str} {rule : GovernanceRule}
    (h : conditionalRule T text action remainder = .ok rule) : rule.Keyed := by
  simp only [conditionalRule, bind_eq_ok] at h
  obtain ⟨approvals, -, exactFields, hexact, -, -, h⟩ := h
  obtain rfl := Except.ok.inj h
  exact ⟨equalities_distinct hexact, List.Pairwise.nil⟩

theorem keyed_ruleOfText {item : Str} {rule : GovernanceRule}
    (h : ruleOfText T item = .ok rule) : rule.Keyed := by
  rw [ruleOfText.eq_def] at h
  dsimp only at h
  split at h
  · cases h
  · split at h
    · exact keyed_conditionalRule h
    · split at h
      · obtain ⟨value, -, h⟩ := bind_eq_ok.mp h
        obtain rfl := Except.ok.inj h
        exact ⟨List.pairwise_singleton _ _, List.Pairwise.nil⟩
      · cases h

end RuleText

namespace GovernanceRule

-- one rule that says what several rules of an action say
structure MergedFrom (merged : GovernanceRule) (rules : List GovernanceRule) : Prop where
  keyed : merged.Keyed
  fields : ∀ name, name ∈ merged.requiredFields ↔ ∃ rule ∈ rules, name ∈ rule.requiredFields
  exactFields : ∀ name, Dict.get merged.exactFields name =
    lastSome (fun rule => Dict.get rule.exactFields name) rules
  context : ∀ name, name ∈ merged.requiredContext ↔ ∃ rule ∈ rules, name ∈ rule.requiredContext
  exactContext : ∀ name, Dict.get merged.exactContext name =
    lastSome (fun rule => Dict.get rule.exactContext name) rules
  approvals : ∃ rule ∈ rules, merged.requiredApprovals = rule.requiredApprovals
  atLeast : ∀ rule ∈ rules, rule.requiredApprovals ≤ merged.requiredApprovals

section Merging

variable {current rule : GovernanceRule} {rules : List GovernanceRule}

theorem mergedFrom_single (h : rule.Keyed) : MergedFrom rule [rule] where
  keyed := h
  fields := by simp
  exactFields name := by
    rw [← List.nil_append [rule], lastSome_concat, lastSome_nil, Option.or_none]
  context := by simp
  exactContext name := by
    rw [← List.nil_append [rule], lastSome_concat, lastSome_nil, Option.or_none]
  approvals := by simp
  atLeast := by simp

theorem MergedFrom.merge (h : MergedFrom current rules) (hrule : rule.Keyed) :
    MergedFrom (current.merge rule) (rules ++ [rule]) := by
  have hmem : ∀ p : GovernanceRule → Prop,
      (∃ r ∈ rules ++ [rule], p r) ↔ (∃ r ∈ rules, p r) ∨ p rule := by
    intro p
    simp only [List.mem_append, List.mem_singleton, or_and_right, exists_or, exists_eq_left]
  refine ⟨⟨?_, ?_⟩, ?_, ?_, ?_, ?_, ?_, ?_⟩
  · exact Dict.distinct_update h.keyed.exactFields rule.exactFields
  · exact Dict.distinct_update h.keyed.exactContext rule.exactContext
  · intro name
    rw [hmem, ← h.fields, GovernanceRule.merge, mem_unique, List.mem_append]
  · intro name
    rw [lastSome_concat, ← h.exactFields]
    exact Dict.get_update_of_distinct current.exactFields hrule.exactFields name
  · intro name
    rw [hmem, ← h.context, GovernanceRule.merge, mem_sortedUnique, List.mem_append]
  · intro name
    rw [lastSome_concat, ← h.exactContext]
    exact Dict.get_update_of_distinct current.exactContext hrule.exactContext name
  · rw [hmem]
    obtain ⟨r, hr, heq⟩ := h.approvals
    rcases max_choice current.requiredApprovals rule.requiredApprovals with hmax | hmax
    · exact .inl ⟨r, hr, hmax.trans heq⟩
    · exact .inr hmax
  · intro r hr
    rcases List.mem_append.mp hr with hr | hr
    · exact (h.atLeast r hr).trans (le_max_left _ _)
    · obtain rfl := List.mem_singleton.mp hr
      exact le_max_right _ _

end Merging

end GovernanceRule

namespace GovernanceRuleTranslator

variable {P : Primitives} {T : DecimalTable} {translator : GovernanceRuleTranslator}

theorem keyed_coerceRule {item : PyVal} {rule : GovernanceRule}
    (h : coerceRule P T item = .ok rule) : rule.Keyed := by
  cases item with
  | dict payload => exact GovernanceRule.keyed_fromMapping h
  | str text => exact RuleText.keyed_ruleOfText h
  | _ => cases h

-- the rules seen so far, one entry for each action
structure Normalized (normalized : List (Str × GovernanceRule)) (rules : List GovernanceRule) :
    Prop where
  distinct : Dict.Distinct normalized
  merged : ∀ action entry, Dict.get normalized action = some entry →
    GovernanceRule.MergedFrom entry (rulesFor rules action)
  absent : ∀ action, Dict.get normalized action = none → rulesFor rules action = []

theorem normalized_nil : Normalized [] [] where
  distinct := List.Pairwise.nil
  merged action entry h := by cases h
  absent action h := rfl

-- a rule changes the entry of its own action only
theorem normalized_addRule {normalized : List (Str × GovernanceRule)}
    {rules : List GovernanceRule} {rule : GovernanceRule} (h : Normalized normalized rules)
    (hrule : rule.Keyed) : Normalized (addRule normalized rule) (rules ++ [rule]) := by
  have hset : ∀ entry, GovernanceRule.MergedFrom entry (rulesFor rules rule.action ++ [rule]) →
      Normalized (Dict.set normalized rule.action entry) (rules ++ [rule]) := by
    intro entry hentry
    refine ⟨Dict.distinct_set h.distinct _ _, fun action entry' hget => ?_, fun action hget => ?_⟩
    · rw [Dict.get_set_eq] at hget
      rw [rulesFor_concat]
      split at hget
      · next haction =>
          obtain rfl := Option.some.inj hget
          rw [if_pos haction, ← haction]
          exact hentry
      · next haction =>
          rw [if_neg haction, List.append_nil]
          exact h.merged action entry' hget
    · rw [Dict.get_set_eq] at hget
      split at hget
      · cases hget
      · next haction =>
          rw [rulesFor_concat, if_neg haction, List.append_nil]
          exact h.absent action hget
  rw [addRule]
  cases hget : Dict.get normalized rule.action with
  | none =>
      refine hset rule ?_
      rw [h.absent _ hget]
      exact GovernanceRule.mergedFrom_single hrule
  | some current => exact hset _ ((h.merged _ _ hget).merge hrule)

theorem normalized_rules {rules : List GovernanceRule} (h : ∀ rule ∈ rules, rule.Keyed) :
    Normalized (rules.foldl addRule []) rules := by
  induction rules using List.reverseRecOn with
  | nil => exact normalized_nil
  | append_singleton rules rule ih =>
      obtain ⟨hrules, hrule⟩ := List.forall_mem_append.mp h
      rw [List.foldl_append, List.foldl_cons, List.foldl_nil]
      exact normalized_addRule (ih hrules) (hrule rule (List.mem_singleton_self rule))

section Entries

variable {normalized : List (Str × GovernanceRule)} {rules : List GovernanceRule}

theorem Normalized.get_iff (h : Normalized normalized rules) (action : Str) :
    (∃ entry, Dict.get normalized action = some entry) ↔
      ∃ rule ∈ rules, rule.action = action := by
  constructor
  · rintro ⟨entry, hget⟩
    obtain ⟨rule, hrule, -⟩ := (h.merged action entry hget).approvals
    exact ⟨rule, mem_rulesFor.mp hrule⟩
  · rintro ⟨rule, hrule, rfl⟩
    cases hget : Dict.get normalized rule.action with
    | none =>
        have hmem : rule ∈ rulesFor rules rule.action := mem_rulesFor.mpr ⟨hrule, rfl⟩
        rw [h.absent _ hget] at hmem
        cases hmem
    | some entry => exact ⟨entry, rfl⟩

theorem Normalized.keys (h : Normalized normalized rules) :
    sortedStrs (normalized.map Prod.fst) = actionsOf rules := by
  refine GovernanceMesh.sortedStrs_perm
    ((List.perm_ext_iff_of_nodup ?_ (nodup_unique _)).mpr fun action => ?_)
  · refine List.pairwise_map.mpr (h.distinct.imp fun {a b} hab => ?_)
    simpa [same_list] using hab
  · rw [mem_unique, List.mem_map, List.mem_map, ← h.get_iff action]
    constructor
    · rintro ⟨m, hm, rfl⟩
      exact ⟨m.2, Dict.get_of_mem h.distinct hm (by simp [same_list])⟩
    · rintro ⟨entry, hget⟩
      exact ⟨(action, entry), Dict.mem_of_get hget, rfl⟩

end Entries

end GovernanceRuleTranslator

-- what a rule asks of the context holds for every action; the last action by name decides a value
def contextValue (rules : List GovernanceRule) (name : Str) : Option PyVal :=
  lastSome (fun action =>
    lastSome (fun rule => Dict.get rule.exactContext name) (rulesFor rules action))
    (actionsOf rules)

def approvalsAsked (rules : List GovernanceRule) (action : Str) : ℤ :=
  ((rulesFor rules action).map GovernanceRule.requiredApprovals).foldl max 0

namespace GovernanceRuleTranslator

variable {P : Primitives} {T : DecimalTable} {translator : GovernanceRuleTranslator}

-- what a policy asks for is what the rules ask for, with the overlays above them
structure Means (rules : List GovernanceRule) (overlays : List Overlay) (policy : Policy) :
    Prop where
  allowedActions : policy.allowedActions = actionsOf rules
  fields : ∀ action name, name ∈ applicable policy.requiredFields (.str action) ↔
    ∃ rule ∈ rulesFor rules action, name ∈ rule.requiredFields
  fieldsKeyed : ∀ action, Dict.Distinct (applicable policy.exactFields (.str action))
  exactFields : ∀ action name, Dict.get (applicable policy.exactFields (.str action)) name =
    lastSome (fun rule => Dict.get rule.exactFields name) (rulesFor rules action)
  context : ∀ name, name ∈ policy.requiredContext ↔ (∃ rule ∈ rules, name ∈ rule.requiredContext) ∨
    ∃ overlay ∈ overlays, name ∈ overlay.requiredContext
  contextKeyed : Dict.Distinct policy.exactContext
  exactContext : ∀ name, Dict.get policy.exactContext name =
    (lastSome (fun overlay => Dict.get overlay.exactContext name) overlays).or
      (contextValue rules name)
  approvals : ∀ action, (Dict.get policy.requiredApprovals action).getD 0 =
    (lastSome (fun overlay => Dict.get overlay.requiredApprovals action) overlays).getD
      (approvalsAsked rules action)
  limits : policy.maxNumericFields = []
  size : policy.maxRequestBytes = 64 * 1024

theorem foldl_max_le {ns : List ℤ} {start k : ℤ} :
    ns.foldl max start ≤ k ↔ start ≤ k ∧ ∀ n ∈ ns, n ≤ k := by
  induction ns generalizing start with
  | nil => simp
  | cons n ns ih => rw [List.foldl_cons, ih, max_le_iff, List.forall_mem_cons, and_assoc]

section Rules

variable {normalized : List (Str × GovernanceRule)} {rules : List GovernanceRule}

theorem approvalsAsked_of_merged {action : Str} {entry : GovernanceRule}
    (h : GovernanceRule.MergedFrom entry (rulesFor rules action)) :
    approvalsAsked rules action = max 0 entry.requiredApprovals := by
  obtain ⟨rule, hrule, heq⟩ := h.approvals
  refine eq_of_forall_ge_iff fun k => ?_
  rw [approvalsAsked, foldl_max_le, max_le_iff, List.forall_mem_map]
  refine and_congr_right fun _ => ⟨fun hall => heq ▸ hall rule hrule, fun hle r hr => ?_⟩
  exact (h.atLeast r hr).trans hle

theorem mem_approvalEntries {items : List (Str × GovernanceRule)} {m : Str × ℤ} :
    m ∈ approvalEntries items ↔ ∃ entry, (m.1, entry) ∈ items ∧ 0 < entry.requiredApprovals ∧
      entry.requiredApprovals = m.2 := by
  rw [approvalEntries, List.mem_map]
  constructor
  · rintro ⟨item, hitem, rfl⟩
    obtain ⟨hmem, hpos⟩ := List.mem_filter.mp hitem
    exact ⟨item.2, hmem, by simpa using hpos, rfl⟩
  · rintro ⟨entry, hmem, hpos, heq⟩
    exact ⟨(m.1, entry), List.mem_filter.mpr ⟨hmem, by simpa using hpos⟩, Prod.ext rfl heq⟩

theorem Normalized.approvals (h : Normalized normalized rules) (action : Str) :
    (Dict.get (approvalEntries (sortedItems normalized)) action).getD 0 =
      approvalsAsked rules action := by
  have hdistinct : Dict.Distinct (approvalEntries (sortedItems normalized)) :=
    List.pairwise_map.mpr ((distinct_sortedItems h.distinct).filter _)
  cases hget : Dict.get (approvalEntries (sortedItems normalized)) action with
  | some n =>
      obtain ⟨entry, hmem, hpos, rfl⟩ := mem_approvalEntries.mp (Dict.mem_of_get hget)
      have hentry : Dict.get normalized action = some entry :=
        Dict.get_of_mem h.distinct (mem_sortedItems.mp hmem) (by simp [same_list])
      rw [approvalsAsked_of_merged (h.merged action entry hentry)]
      exact (max_eq_right hpos.le).symm
  | none =>
      cases hentry : Dict.get normalized action with
      | none =>
          rw [approvalsAsked, h.absent action hentry]
          rfl
      | some entry =>
          rw [approvalsAsked_of_merged (h.merged action entry hentry)]
          refine (max_eq_left (not_lt.mp fun hpos => ?_)).symm
          have hmem :
              (action, entry.requiredApprovals) ∈ approvalEntries (sortedItems normalized) :=
            mem_approvalEntries.mpr
              ⟨entry, mem_sortedItems.mpr (Dict.mem_of_get hentry), hpos, rfl⟩
          rw [Dict.get_of_mem hdistinct hmem (by simp [same_list])] at hget
          cases hget

theorem Normalized.mem (h : Normalized normalized rules) {m : Str × GovernanceRule}
    (hm : m ∈ normalized) : GovernanceRule.MergedFrom m.2 (rulesFor rules m.1) :=
  h.merged m.1 m.2 (Dict.get_of_mem h.distinct hm (by simp [same_list]))

theorem Normalized.context (h : Normalized normalized rules) (name : Str) :
    (∃ m ∈ normalized, name ∈ m.2.requiredContext) ↔
      ∃ rule ∈ rules, name ∈ rule.requiredContext := by
  constructor
  · rintro ⟨m, hm, hname⟩
    obtain ⟨rule, hrule, hname⟩ := ((h.mem hm).context name).mp hname
    exact ⟨rule, (mem_rulesFor.mp hrule).1, hname⟩
  · rintro ⟨rule, hrule, hname⟩
    obtain ⟨entry, hentry⟩ := (h.get_iff rule.action).mpr ⟨rule, hrule, rfl⟩
    refine ⟨(rule.action, entry), Dict.mem_of_get hentry, ?_⟩
    exact ((h.merged _ _ hentry).context name).mpr ⟨rule, mem_rulesFor.mpr ⟨hrule, rfl⟩, hname⟩

theorem Normalized.exactContext (h : Normalized normalized rules) (name : Str) :
    Dict.get ((sortedItems normalized).foldl
      (fun context m => Dict.update context m.2.exactContext) []) name =
        contextValue rules name := by
  have hkeys : actionsOf rules = (sortedItems normalized).map Prod.fst := by
    rw [keys_sortedItems, h.keys]
  rw [Dict.get_updates (fun m hm => (h.mem (mem_sortedItems.mp hm)).keyed.exactContext),
    Dict.get_nil, Option.or_none, contextValue, hkeys, lastSome_map]
  exact lastSome_congr fun m hm => (h.mem (mem_sortedItems.mp hm)).exactContext name

theorem means_policyOf {policyId : Str} {policy : Policy} (h : Normalized normalized rules)
    (hpolicy : policyOf policyId normalized = .ok policy) : Means rules [] policy := by
  have hget : ∀ action, Dict.get (sortedItems normalized) action = Dict.get normalized action :=
    get_sortedItems h.distinct
  obtain rfl := Policy.postInit_eq_ok hpolicy
  refine ⟨?_, ?_, ?_, ?_, ?_, ?_, ?_, ?_, rfl, rfl⟩
  · exact h.keys
  · intro action name
    simp only [applicable, entryOf, Dict.get_map, hget]
    cases hentry : Dict.get normalized action with
    | none => simp [h.absent action hentry]
    | some entry => exact (h.merged action entry hentry).fields name
  · intro action
    simp only [applicable, entryOf, Dict.get_map, hget]
    cases hentry : Dict.get normalized action with
    | none => exact List.Pairwise.nil
    | some entry => exact (h.merged action entry hentry).keyed.exactFields
  · intro action name
    simp only [applicable, entryOf, Dict.get_map, hget]
    cases hentry : Dict.get normalized action with
    | none => simp [h.absent action hentry]
    | some entry => exact (h.merged action entry hentry).exactFields name
  · intro name
    simp only [mem_sortedUnique, List.mem_flatMap, mem_sortedItems, List.not_mem_nil, false_and,
      exists_false, or_false]
    exact h.context name
  · exact Dict.distinct_updates _ List.Pairwise.nil
  · exact h.exactContext
  · exact h.approvals

end Rules

end GovernanceRuleTranslator

namespace GovernanceRuleTranslator

section Sources

variable {P : Primitives} {T : DecimalTable} {translator : GovernanceRuleTranslator}
  {rules : List GovernanceRule} {overlays : List Overlay} {policy : Policy}

structure Overlay.Keyed (overlay : Overlay) : Prop where
  exactContext : Dict.Distinct overlay.exactContext
  requiredApprovals : Dict.Distinct overlay.requiredApprovals

theorem approvalsFor_distinct {allowedActions : List Str} {value : PyVal}
    {entries : List (Str × ℤ)} (hnodup : allowedActions.Nodup)
    (h : approvalsFor P T allowedActions value = .ok entries) : Dict.Distinct entries := by
  cases value with
  | dict d =>
      refine @foldlM_invariant _ _ _ (fun _ => Dict.Distinct) ?_ d [] _ _ List.Pairwise.nil h
      intro seen entries m entries' hentries hset
      obtain ⟨action, -, hset⟩ := bind_eq_ok.mp hset
      obtain ⟨count, -, hset⟩ := bind_eq_ok.mp hset
      obtain rfl := Except.ok.inj hset
      exact Dict.distinct_set hentries action count
  | int i =>
      obtain rfl := Except.ok.inj h
      refine List.pairwise_map.mpr (hnodup.imp fun {a b} hab => ?_)
      simpa [same_list] using hab
  | _ =>
      obtain rfl := Except.ok.inj h
      exact List.Pairwise.nil

theorem nodup_actionsOf (rules : List GovernanceRule) : (actionsOf rules).Nodup :=
  (List.perm_insertionSort _ _).nodup_iff.mpr (nodup_unique _)

theorem keyed_overlayOf {source : PyDict} {overlay : Overlay}
    (h : overlayOf P T (actionsOf rules) source = .ok overlay) : overlay.Keyed := by
  simp only [overlayOf, bind_eq_ok] at h
  obtain ⟨context, -, raw, -, exactContext, hexact, approvals, happrovals, h⟩ := h
  obtain rfl := Except.ok.inj h
  exact ⟨strKeyed_distinct hexact, approvalsFor_distinct (nodup_actionsOf rules) happrovals⟩

-- an overlay adds what it asks for and replaces the values that it names
theorem Means.overlaid {overlay : Overlay} {policy' : Policy} (h : Means rules overlays policy)
    (hkeyed : overlay.Keyed) (hpolicy : overlaid policy overlay = .ok policy') :
    Means rules (overlays ++ [overlay]) policy' := by
  have hcontext : ∀ name, (∃ o ∈ overlays ++ [overlay], name ∈ o.requiredContext) ↔
      (∃ o ∈ overlays, name ∈ o.requiredContext) ∨ name ∈ overlay.requiredContext := by
    intro name
    simp only [List.mem_append, List.mem_singleton, or_and_right, exists_or, exists_eq_left]
  rw [GovernanceRuleTranslator.overlaid] at hpolicy
  split at hpolicy
  · next hempty =>
      obtain ⟨hnames, hvalues, happrovals⟩ := hempty
      obtain rfl := Except.ok.inj hpolicy
      rw [List.isEmpty_iff] at hvalues happrovals
      refine { h with context := ?_, exactContext := ?_, approvals := ?_ }
      · intro name
        rw [hcontext, hnames, h.context]
        simp
      · intro name
        rw [h.exactContext, lastSome_concat, hvalues]
        rfl
      · intro action
        rw [h.approvals, lastSome_concat, happrovals]
        rfl
  · obtain rfl := Policy.postInit_eq_ok hpolicy
    refine { h with context := ?_, contextKeyed := ?_, exactContext := ?_, approvals := ?_,
                    limits := rfl }
    · intro name
      rw [hcontext, ← or_assoc, ← h.context, mem_sortedUnique, List.mem_append]
    · exact Dict.distinct_update h.contextKeyed overlay.exactContext
    · intro name
      rw [Dict.get_update_of_distinct _ hkeyed.exactContext, h.exactContext, lastSome_concat,
        Option.or_assoc]
    · intro action
      rw [Dict.get_update_of_distinct _ hkeyed.requiredApprovals, lastSome_concat]
      have happrovals := h.approvals action
      cases Dict.get overlay.requiredApprovals action with
      | none => exact happrovals
      | some n => rfl

variable (P T)

-- the rules of a source, and what it lays over them, from the inside out
inductive Reads : PyVal → List GovernanceRule → List Overlay → Prop
  | rules {source : PyVal} {items : List PyVal} {rules : List GovernanceRule}
      (hsource : ∀ d, source ≠ .dict d) (hitems : tupleOf source = .ok items)
      (hrules : items.mapM (coerceRule P T) = .ok rules) : Reads source rules []
  | mapping {source : PyDict} {rules : List GovernanceRule} {overlays : List Overlay}
      {overlay : Overlay} (hrules : Reads (PyDict.getD source "rules") rules overlays)
      (hoverlay : overlayOf P T (actionsOf rules) source = .ok overlay) :
      Reads (.dict source) rules (overlays ++ [overlay])

variable {P T}

theorem means_translateItems {items : List PyVal} {policyId : Str}
    (h : translateItems P T items policyId = .ok policy) :
    ∃ rules, items.mapM (coerceRule P T) = .ok rules ∧ Means rules [] policy := by
  simp only [translateItems, bind_eq_ok] at h
  obtain ⟨rules, hrules, -, -, h⟩ := h
  refine ⟨rules, hrules, means_policyOf (normalized_rules fun rule hrule => ?_) h⟩
  obtain ⟨item, -, hitem⟩ := mem_of_mapM_eq_ok hrules hrule
  exact keyed_coerceRule hitem

theorem means_translate {policyId : Str} {source : PyVal}
    (h : translate P T translator policyId source = .ok policy) :
    ∃ rules overlays, Reads P T source rules overlays ∧ Means rules overlays policy := by
  fun_induction translate P T translator policyId source generalizing policy with
  | case1 policyId source hnone => cases h
  | case2 policyId source hsome ih =>
      obtain ⟨effective, heffective, h⟩ := bind_eq_ok.mp h
      obtain ⟨inner, hinner, h⟩ := bind_eq_ok.mp h
      obtain ⟨overlay, hoverlay, h⟩ := bind_eq_ok.mp h
      obtain ⟨rules, overlays, hreads, hmeans⟩ := ih _ hinner
      rw [hmeans.allowedActions] at hoverlay
      exact ⟨rules, overlays ++ [overlay], .mapping hreads hoverlay,
        hmeans.overlaid (keyed_overlayOf hoverlay) h⟩
  | case3 policyId source hother =>
      obtain ⟨items, hitems, h⟩ := bind_eq_ok.mp h
      obtain ⟨rules, hrules, hmeans⟩ := means_translateItems h
      exact ⟨rules, [], .rules hother hitems hrules, hmeans⟩

end Sources

end GovernanceRuleTranslator

namespace DeterministicArbiter

variable {P : Primitives} {arbiter : DeterministicArbiter} {request : PyDict} {policy : Policy}

-- n approvals, if any are asked for
def Approved (P : Primitives) (arbiter : DeterministicArbiter) (request : PyDict) (n : ℤ) : Prop :=
  n ≤ 0 ∨ ∃ count, arbiter.approvalCount P request (contextOf request).1 = .ok count ∧ n ≤ count

theorem approved_mono {m n : ℤ} (h : Approved P arbiter request n) (hle : m ≤ n) :
    Approved P arbiter request m := by
  rcases h with h | ⟨count, hcount, h⟩
  · exact .inl (hle.trans h)
  · exact .inr ⟨count, hcount, hle.trans h⟩

theorem approved_iff {n : ℤ} :
    arbiter.quorumFindings P request n = .ok [] ↔ Approved P arbiter request n := by
  by_cases hn : n ≤ 0
  · rw [quorumFindings_eq hn]
    exact iff_of_true rfl (.inl hn)
  · rw [quorumFindings_eq_nil (not_le.mp hn), Approved, or_iff_right hn]

theorem decide_allow_iff : (∃ d, arbiter.decide P request policy = .ok d ∧ d.allow = true) ↔
    Computable P request policy ∧
      (∀ c ∈ policy.constraintsFor (request.getD "action"),
        Tested.passes P request c = true) ∧
      Approved P arbiter request
        ((entryOf policy.requiredApprovals (request.getD "action")).getD 0) := by
  constructor
  · rintro ⟨d, hd, hallow⟩
    have hcomputable := computable_of_decide hd
    obtain ⟨requestBytes, hbytes⟩ := (canonicalJson_isOk P).mpr hcomputable.canonical
    rw [decide_of_testable arbiter hbytes hcomputable.hashable hcomputable.representable] at hd
    obtain ⟨quorum, hquorum, hd⟩ := bind_eq_ok.mp hd
    obtain ⟨digest, hdigest, hd⟩ := bind_eq_ok.mp hd
    obtain rfl := Except.ok.inj hd
    have hnone := hallow
    rw [verdict, Bool.and_eq_true, List.isEmpty_iff, List.append_eq_nil_iff] at hnone
    obtain ⟨hfound, rfl⟩ := hnone.2
    refine ⟨hcomputable, fun c hc => ?_, approved_iff.mp hquorum⟩
    rw [hfound, List.append_nil, ← hfound, allow_verdict, List.filter_eq_nil_iff] at hallow
    simpa using hallow c hc
  · rintro ⟨hcomputable, hpasses, happroved⟩
    obtain ⟨requestBytes, hbytes⟩ := (canonicalJson_isOk P).mpr hcomputable.canonical
    obtain ⟨digest, hdigest⟩ := (canonicalDigest_isOk P).mpr hcomputable.digestible
    have hdecide := decide_of_testable arbiter hbytes hcomputable.hashable hcomputable.representable
    rw [approved_iff.mpr happroved] at hdecide
    refine ⟨verdict P policy request requestBytes
      (Tested.findings P request (policy.constraintsFor (request.getD "action")) ++ []) digest,
      ?_, ?_⟩
    · rw [hdecide]
      simp only [bind, Except.bind, Policy.digest, hdigest]
    · rw [List.append_nil, allow_verdict, List.filter_eq_nil_iff]
      intro c hc
      simp [hpasses c hc]

end DeterministicArbiter

namespace GovernanceRuleTranslator

open DeterministicArbiter

-- what rules and overlays ask of a request
structure MeetsRules (P : Primitives) (arbiter : DeterministicArbiter)
    (rules : List GovernanceRule) (overlays : List Overlay) (request : PyDict) (action : Str) :
    Prop where
  asked : request.getD "action" = .str action
  named : ∃ rule ∈ rules, rule.action = action
  size : ∃ bytes, canonicalJson P (.dict request) = .ok bytes ∧
    (bytes.utf8ByteSize : ℤ) ≤ 64 * 1024
  object : ∀ context, request.get "context" = some context → ∃ d, context = .dict d
  fields : ∀ rule ∈ rulesFor rules action, ∀ name ∈ rule.requiredFields, request.has name = true
  exactFields : ∀ name expected,
    lastSome (fun rule => Dict.get rule.exactFields name) (rulesFor rules action) = some expected →
    (request.getD name).eq expected = true
  context : ∀ rule ∈ rules, ∀ name ∈ rule.requiredContext,
    PyDict.has (contextObject request) name = true
  overlaidContext : ∀ overlay ∈ overlays, ∀ name ∈ overlay.requiredContext,
    PyDict.has (contextObject request) name = true
  exactContext : ∀ name expected,
    (lastSome (fun overlay => Dict.get overlay.exactContext name) overlays).or
      (contextValue rules name) = some expected →
    ((contextObject request).getD name).eq expected = true
  approvals : Approved P arbiter request
    ((lastSome (fun overlay => Dict.get overlay.requiredApprovals action) overlays).getD
      (approvalsAsked rules action))

section Meaning

variable {P : Primitives} {arbiter : DeterministicArbiter} {rules : List GovernanceRule}
  {overlays : List Overlay} {policy : Policy} {request : PyDict}

theorem forall_entries {d : List (Str × PyVal)} (hd : Dict.Distinct d) {p : Str → PyVal → Prop} :
    (∀ m ∈ d, p m.1 m.2) ↔ ∀ name v, Dict.get d name = some v → p name v := by
  constructor
  · intro h name v hget
    exact h (name, v) (Dict.mem_of_get hget)
  · intro h m hm
    exact h m.1 m.2 (Dict.get_of_mem hd hm (by simp [same_list]))

theorem forall_constraints {p : Constraint → Prop} {value : PyVal} :
    (∀ c ∈ policy.constraintsFor value, p c) ↔
      p (.size policy.maxRequestBytes) ∧ p .contextShape ∧ p (.action policy.allowedActions) ∧
        (∀ name ∈ applicable policy.requiredFields value, p (.field name)) ∧
        (∀ m ∈ applicable policy.exactFields value, p (.exactField m.1 m.2)) ∧
        (∀ m ∈ applicable policy.maxNumericFields value, p (.numericField m.1 m.2)) ∧
        (∀ name ∈ policy.requiredContext, p (.contextField name)) ∧
        ∀ m ∈ policy.exactContext, p (.exactContext m.1 m.2) := by
  simp only [Policy.constraintsFor, List.forall_mem_append, List.forall_mem_cons,
    List.forall_mem_map, List.not_mem_nil, false_imp_iff, implies_true, and_true, and_assoc]

theorem passes_contextShape : Tested.passes P request .contextShape = true ↔
    ∀ context, request.get "context" = some context → ∃ d, context = .dict d := by
  simp only [Tested.passes, Constraint.isMet]
  cases request.get "context" with
  | none => simp
  | some context => cases context <;> simp

theorem passes_size {maximum : ℤ} : Tested.passes P request (.size maximum) = true ↔
    ∃ bytes, canonicalJson P (.dict request) = .ok bytes ∧ (bytes.utf8ByteSize : ℤ) ≤ maximum := by
  simp only [Tested.passes, Constraint.isMet]
  cases canonicalJson P (.dict request) with
  | error e => simp [Except.toOption]
  | ok bytes => simp [Except.toOption]

theorem passes_action {allowed : List Str} : Tested.passes P request (.action allowed) = true ↔
    ∃ action, request.getD "action" = .str action ∧ action ∈ allowed := by
  simp only [Tested.passes, Constraint.isMet]
  cases request.getD "action" <;> simp

theorem Means.passes_iff (h : Means rules overlays policy) {action : Str}
    (haction : request.getD "action" = .str action) :
    ((∀ c ∈ policy.constraintsFor (request.getD "action"), Tested.passes P request c = true) ∧
      Approved P arbiter request
        ((entryOf policy.requiredApprovals (request.getD "action")).getD 0)) ↔
      MeetsRules P arbiter rules overlays request action := by
  have hexact := forall_entries (h.fieldsKeyed action)
    (p := fun name expected => (request.getD name).eq expected = true)
  have hcontext := forall_entries h.contextKeyed
    (p := fun name expected => ((contextObject request).getD name).eq expected = true)
  simp only [h.exactFields] at hexact
  simp only [h.exactContext] at hcontext
  rw [forall_constraints, passes_size, passes_contextShape, passes_action, haction, h.limits,
    h.size, h.allowedActions]
  simp only [entryOf, h.approvals]
  constructor
  · rintro ⟨⟨hsize, hobject, ⟨action', hsame, hallowed⟩, hfields, hvalues, -, hnames, hentries⟩,
      happroved⟩
    obtain rfl := PyVal.str.inj hsame
    exact
      { asked := haction
        named := mem_actionsOf.mp hallowed
        size := hsize
        object := hobject
        fields := fun rule hrule name hname =>
          hfields name ((h.fields _ name).mpr ⟨rule, hrule, hname⟩)
        exactFields := hexact.mp hvalues
        context := fun rule hrule name hname =>
          hnames name ((h.context name).mpr (.inl ⟨rule, hrule, hname⟩))
        overlaidContext := fun overlay hoverlay name hname =>
          hnames name ((h.context name).mpr (.inr ⟨overlay, hoverlay, hname⟩))
        exactContext := hcontext.mp hentries
        approvals := happroved }
  · intro hmeets
    refine ⟨⟨hmeets.size, hmeets.object, ⟨action, rfl, mem_actionsOf.mpr hmeets.named⟩, ?_,
      hexact.mpr hmeets.exactFields, ?_, ?_, hcontext.mpr hmeets.exactContext⟩, hmeets.approvals⟩
    · intro name hname
      obtain ⟨rule, hrule, hname⟩ := (h.fields action name).mp hname
      exact hmeets.fields rule hrule name hname
    · intro m hm
      cases hm
    · intro name hname
      rcases (h.context name).mp hname with ⟨rule, hrule, hname⟩ | ⟨overlay, hoverlay, hname⟩
      · exact hmeets.context rule hrule name hname
      · exact hmeets.overlaidContext overlay hoverlay name hname

theorem Means.allows_iff (h : Means rules overlays policy) :
    (∃ d, arbiter.decide P request policy = .ok d ∧ d.allow = true) ↔
      Computable P request policy ∧
        ∃ action, MeetsRules P arbiter rules overlays request action := by
  rw [decide_allow_iff]
  refine and_congr_right fun _ => ⟨fun hpasses => ?_, fun ⟨action, hmeets⟩ => ?_⟩
  · obtain ⟨action, haction, -⟩ :=
      passes_action.mp (hpasses.1 (.action policy.allowedActions) (by simp [Policy.constraintsFor]))
    exact ⟨action, (h.passes_iff haction).mp hpasses⟩
  · exact (h.passes_iff hmeets.asked).mpr hmeets

end Meaning

end GovernanceRuleTranslator

namespace GovernanceRuleTranslator

open DeterministicArbiter

section Agreement

variable {P : Primitives} {T : DecimalTable} {arbiter : DeterministicArbiter}
  {rules rules' : List GovernanceRule} {overlays overlays' : List Overlay} {policy policy' : Policy}
  {request : PyDict} {action : Str}

-- the policy of a source allows what the rules of the source ask for, and nothing else
theorem translate_means {translator : GovernanceRuleTranslator} {policyId : Str} {source : PyVal}
    (h : translate P T translator policyId source = .ok policy) :
    ∃ rules overlays, Reads P T source rules overlays ∧ ∀ arbiter request,
      (∃ d, DeterministicArbiter.decide P arbiter request policy = .ok d ∧ d.allow = true) ↔
        Computable P request policy ∧
          ∃ action, MeetsRules P arbiter rules overlays request action := by
  obtain ⟨rules, overlays, hreads, hmeans⟩ := means_translate h
  exact ⟨rules, overlays, hreads, fun arbiter request => hmeans.allows_iff⟩

theorem Reads.unique {source : PyVal} (h : Reads P T source rules overlays)
    (h' : Reads P T source rules' overlays') : rules = rules' ∧ overlays = overlays' := by
  induction h generalizing rules' overlays' with
  | rules hsource hitems hrules =>
      cases h' with
      | rules _ hitems' hrules' =>
          obtain rfl := Except.ok.inj (hitems.symm.trans hitems')
          exact ⟨Except.ok.inj (hrules.symm.trans hrules'), rfl⟩
      | mapping => exact absurd rfl (hsource _)
  | mapping hrules hoverlay ih =>
      cases h' with
      | rules hsource' => exact absurd rfl (hsource' _)
      | mapping hrules' hoverlay' =>
          obtain ⟨rfl, rfl⟩ := ih hrules'
          obtain rfl := Except.ok.inj (hoverlay.symm.trans hoverlay')
          exact ⟨rfl, rfl⟩

def SameValue (v w : PyVal) : Prop := v = w ∨ v.eq w = true

theorem SameValue.eq {u v w : PyVal} (h : SameValue v w) (huv : u.eq v = true) :
    u.eq w = true := by
  rcases h with rfl | h
  · exact huv
  · exact PyVal.eq_trans huv h

-- sources that give one name no two values
def Agreeing {α : Type} (values : α → List (Str × PyVal)) (xs : List α) : Prop :=
  ∀ x ∈ xs, ∀ y ∈ xs, ∀ name v w, Dict.get (values x) name = some v →
    Dict.get (values y) name = some w → SameValue v w

theorem Agreeing.lastSome_iff {α : Type} {values : α → List (Str × PyVal)} {xs : List α}
    (h : Agreeing values xs) (u : Str → PyVal) :
    (∀ name expected, lastSome (fun x => Dict.get (values x) name) xs = some expected →
      (u name).eq expected = true) ↔
      ∀ x ∈ xs, ∀ name expected, Dict.get (values x) name = some expected →
        (u name).eq expected = true := by
  constructor
  · intro hlast x hx name expected hget
    obtain ⟨v, hv⟩ := exists_lastSome (f := fun x => Dict.get (values x) name) hx hget
    obtain ⟨y, hy, hget'⟩ := mem_of_lastSome hv
    exact (h y hy x hx name v expected hget' hget).eq (hlast name v hv)
  · intro hall name expected hlast
    obtain ⟨x, hx, hget⟩ := mem_of_lastSome hlast
    exact hall x hx name expected hget

structure Agree (rules : List GovernanceRule) (overlays : List Overlay) : Prop where
  fields : ∀ action, Agreeing GovernanceRule.exactFields (rulesFor rules action)
  context : Agreeing id (rules.map GovernanceRule.exactContext ++ overlays.map Overlay.exactContext)
  approvals : ∀ overlay ∈ overlays, ∀ action n, Dict.get overlay.requiredApprovals action = some n →
    (∀ rule ∈ rulesFor rules action, rule.requiredApprovals ≤ n) ∧
      ∀ other ∈ overlays, ∀ m, Dict.get other.requiredApprovals action = some m → m = n

-- every rule and every overlay by itself
structure MeetsEach (P : Primitives) (arbiter : DeterministicArbiter)
    (rules : List GovernanceRule) (overlays : List Overlay) (request : PyDict) (action : Str) :
    Prop where
  asked : request.getD "action" = .str action
  named : ∃ rule ∈ rules, rule.action = action
  size : ∃ bytes, canonicalJson P (.dict request) = .ok bytes ∧
    (bytes.utf8ByteSize : ℤ) ≤ 64 * 1024
  object : ∀ context, request.get "context" = some context → ∃ d, context = .dict d
  fields : ∀ rule ∈ rulesFor rules action, ∀ name ∈ rule.requiredFields, request.has name = true
  exactFields : ∀ rule ∈ rulesFor rules action, ∀ name expected,
    Dict.get rule.exactFields name = some expected → (request.getD name).eq expected = true
  approvals : ∀ rule ∈ rulesFor rules action, Approved P arbiter request rule.requiredApprovals
  context : ∀ rule ∈ rules, ∀ name ∈ rule.requiredContext,
    PyDict.has (contextObject request) name = true
  overlaidContext : ∀ overlay ∈ overlays, ∀ name ∈ overlay.requiredContext,
    PyDict.has (contextObject request) name = true
  exactContext : ∀ entries ∈ rules.map GovernanceRule.exactContext ++
    overlays.map Overlay.exactContext, ∀ name expected, Dict.get entries name = some expected →
      ((contextObject request).getD name).eq expected = true
  overlaidApprovals : ∀ overlay ∈ overlays, ∀ n,
    Dict.get overlay.requiredApprovals action = some n → Approved P arbiter request n

theorem contextValue_some {name : Str} {v : PyVal} (h : contextValue rules name = some v) :
    ∃ rule ∈ rules, Dict.get rule.exactContext name = some v := by
  obtain ⟨action, -, hlast⟩ := mem_of_lastSome h
  obtain ⟨rule, hrule, hget⟩ := mem_of_lastSome hlast
  exact ⟨rule, (mem_rulesFor.mp hrule).1, hget⟩

theorem exists_contextValue {rule : GovernanceRule} (hrule : rule ∈ rules) {name : Str} {v : PyVal}
    (hget : Dict.get rule.exactContext name = some v) : ∃ w, contextValue rules name = some w := by
  obtain ⟨w, hw⟩ := exists_lastSome (f := fun r => Dict.get r.exactContext name)
    (mem_rulesFor.mpr ⟨hrule, rfl⟩ : rule ∈ rulesFor rules rule.action) hget
  exact exists_lastSome (mem_actionsOf.mpr ⟨rule, hrule, rfl⟩) hw

-- the value that decides a name of the context is one that a rule or an overlay gives it
theorem decided_context {name : Str} {v : PyVal}
    (h : (lastSome (fun overlay => Dict.get overlay.exactContext name) overlays).or
      (contextValue rules name) = some v) :
    ∃ entries ∈ rules.map GovernanceRule.exactContext ++ overlays.map Overlay.exactContext,
      Dict.get entries name = some v := by
  rcases Option.or_eq_some_iff.mp h with hlast | ⟨-, hvalue⟩
  · obtain ⟨overlay, hoverlay, hget⟩ := mem_of_lastSome hlast
    exact ⟨_, List.mem_append_right _ (List.mem_map_of_mem hoverlay), hget⟩
  · obtain ⟨rule, hrule, hget⟩ := contextValue_some hvalue
    exact ⟨_, List.mem_append_left _ (List.mem_map_of_mem hrule), hget⟩

theorem exists_decided_context {entries : List (Str × PyVal)} {name : Str} {v : PyVal}
    (hentries : entries ∈ rules.map GovernanceRule.exactContext ++
      overlays.map Overlay.exactContext) (hget : Dict.get entries name = some v) :
    ∃ w, (lastSome (fun overlay => Dict.get overlay.exactContext name) overlays).or
      (contextValue rules name) = some w := by
  cases hlast : lastSome (fun overlay => Dict.get overlay.exactContext name) overlays with
  | some w => exact ⟨w, rfl⟩
  | none =>
      rcases List.mem_append.mp hentries with hentries | hentries
      · obtain ⟨rule, hrule, rfl⟩ := List.mem_map.mp hentries
        exact exists_contextValue hrule hget
      · obtain ⟨overlay, hoverlay, rfl⟩ := List.mem_map.mp hentries
        rw [lastSome_eq_none.mp hlast overlay hoverlay] at hget
        cases hget

theorem approved_asked : Approved P arbiter request (approvalsAsked rules action) ↔
    ∀ rule ∈ rulesFor rules action, Approved P arbiter request rule.requiredApprovals := by
  constructor
  · intro h rule hrule
    refine approved_mono h ?_
    have hle := (foldl_max_le (k := approvalsAsked rules action)).mp le_rfl
    exact hle.2 _ (List.mem_map_of_mem hrule)
  · intro h
    by_cases hnone : approvalsAsked rules action ≤ 0
    · exact .inl hnone
    · have hasks : ∃ rule ∈ rulesFor rules action, 0 < rule.requiredApprovals := by
        by_contra hall
        push Not at hall
        exact hnone (foldl_max_le.mpr ⟨le_rfl, List.forall_mem_map.mpr hall⟩)
      obtain ⟨rule, hrule, hpos⟩ := hasks
      obtain ⟨count, hcount, hle⟩ := (h rule hrule).resolve_left (not_le.mpr hpos)
      refine .inr ⟨count, hcount, foldl_max_le.mpr ⟨by omega, List.forall_mem_map.mpr ?_⟩⟩
      intro other hother
      rcases h other hother with hzero | ⟨count', hcount', hle'⟩
      · omega
      · obtain rfl := Except.ok.inj (hcount.symm.trans hcount')
        exact hle'

theorem Agree.meets_each_iff (h : Agree rules overlays) :
    MeetsRules P arbiter rules overlays request action ↔
      MeetsEach P arbiter rules overlays request action := by
  have hfields := (h.fields action).lastSome_iff (fun name => request.getD name)
  constructor
  · intro hmeets
    have happrovals : (∀ rule ∈ rulesFor rules action,
        Approved P arbiter request rule.requiredApprovals) ∧ ∀ overlay ∈ overlays, ∀ n,
          Dict.get overlay.requiredApprovals action = some n → Approved P arbiter request n := by
      have hasked := hmeets.approvals
      cases hlast : lastSome (fun overlay => Dict.get overlay.requiredApprovals action)
          overlays with
      | none =>
          rw [hlast] at hasked
          refine ⟨approved_asked.mp hasked, fun overlay hoverlay n hget => ?_⟩
          rw [lastSome_eq_none.mp hlast overlay hoverlay] at hget
          cases hget
      | some n =>
          rw [hlast] at hasked
          obtain ⟨overlay, hoverlay, hget⟩ := mem_of_lastSome hlast
          obtain ⟨hrules, hothers⟩ := h.approvals overlay hoverlay action n hget
          refine ⟨fun rule hrule => approved_mono hasked (hrules rule hrule), ?_⟩
          intro other hother m hget'
          exact approved_mono hasked (hothers other hother m hget').le
    exact
      { asked := hmeets.asked
        named := hmeets.named
        size := hmeets.size
        object := hmeets.object
        fields := hmeets.fields
        exactFields := hfields.mp hmeets.exactFields
        approvals := happrovals.1
        context := hmeets.context
        overlaidContext := hmeets.overlaidContext
        exactContext := fun entries hentries name expected hget => by
          obtain ⟨w, hw⟩ := exists_decided_context hentries hget
          obtain ⟨entries', hentries', hget'⟩ := decided_context hw
          exact (h.context entries' hentries' entries hentries name w expected hget' hget).eq
            (hmeets.exactContext name w hw)
        overlaidApprovals := happrovals.2 }
  · intro hmeets
    exact
      { asked := hmeets.asked
        named := hmeets.named
        size := hmeets.size
        object := hmeets.object
        fields := hmeets.fields
        exactFields := hfields.mpr hmeets.exactFields
        context := hmeets.context
        overlaidContext := hmeets.overlaidContext
        exactContext := fun name expected hvalue => by
          obtain ⟨entries, hentries, hget⟩ := decided_context hvalue
          exact hmeets.exactContext entries hentries name expected hget
        approvals := by
          cases hlast : lastSome (fun overlay => Dict.get overlay.requiredApprovals action)
              overlays with
          | none => exact approved_asked.mpr hmeets.approvals
          | some n =>
              obtain ⟨overlay, hoverlay, hget⟩ := mem_of_lastSome hlast
              exact hmeets.overlaidApprovals overlay hoverlay n hget }

theorem rulesFor_perm (h : rules.Perm rules') (action : Str) :
    (rulesFor rules action).Perm (rulesFor rules' action) := h.filter _

theorem MeetsEach.perm (hrules : rules.Perm rules') (hoverlays : overlays.Perm overlays')
    (h : MeetsEach P arbiter rules overlays request action) :
    MeetsEach P arbiter rules' overlays' request action := by
  have hfor := fun rule => (rulesFor_perm hrules action).mem_iff (a := rule)
  have hentries := fun entries => ((hrules.map GovernanceRule.exactContext).append
    (hoverlays.map Overlay.exactContext)).mem_iff (a := entries)
  exact
    { asked := h.asked
      named := by
        obtain ⟨rule, hrule, haction⟩ := h.named
        exact ⟨rule, hrules.mem_iff.mp hrule, haction⟩
      size := h.size
      object := h.object
      fields := fun rule hrule => h.fields rule ((hfor rule).mpr hrule)
      exactFields := fun rule hrule => h.exactFields rule ((hfor rule).mpr hrule)
      approvals := fun rule hrule => h.approvals rule ((hfor rule).mpr hrule)
      context := fun rule hrule => h.context rule (hrules.mem_iff.mpr hrule)
      overlaidContext := fun overlay hoverlay =>
        h.overlaidContext overlay (hoverlays.mem_iff.mpr hoverlay)
      exactContext := fun entries hmem => h.exactContext entries ((hentries entries).mpr hmem)
      overlaidApprovals := fun overlay hoverlay =>
        h.overlaidApprovals overlay (hoverlays.mem_iff.mpr hoverlay) }

theorem Agree.perm (hrules : rules.Perm rules') (hoverlays : overlays.Perm overlays')
    (h : Agree rules overlays) : Agree rules' overlays' where
  fields action r hr r' hr' :=
    h.fields action r ((rulesFor_perm hrules action).mem_iff.mpr hr) r'
      ((rulesFor_perm hrules action).mem_iff.mpr hr')
  context e he e' he' := by
    have hperm := (hrules.map GovernanceRule.exactContext).append
      (hoverlays.map Overlay.exactContext)
    exact h.context e (hperm.mem_iff.mpr he) e' (hperm.mem_iff.mpr he')
  approvals overlay hoverlay action n hget := by
    obtain ⟨hle, hothers⟩ := h.approvals overlay (hoverlays.mem_iff.mpr hoverlay) action n hget
    refine ⟨fun rule hrule => hle rule ((rulesFor_perm hrules action).mem_iff.mpr hrule), ?_⟩
    exact fun other hother => hothers other (hoverlays.mem_iff.mpr hother)

-- rules that agree are all kept, whatever their order
theorem agreeing_rules_kept {translator translator' : GovernanceRuleTranslator}
    {policyId policyId' : Str} {source source' : PyVal}
    (h : translate P T translator policyId source = .ok policy)
    (h' : translate P T translator' policyId' source' = .ok policy')
    (hreads : Reads P T source rules overlays) (hreads' : Reads P T source' rules' overlays')
    (hrules : rules.Perm rules') (hoverlays : overlays.Perm overlays')
    (hagree : Agree rules overlays) (arbiter : DeterministicArbiter) (request : PyDict) :
    ((∃ d, DeterministicArbiter.decide P arbiter request policy = .ok d ∧ d.allow = true) ↔
      Computable P request policy ∧
        ∃ action, MeetsEach P arbiter rules overlays request action) ∧
    ∀ d d', DeterministicArbiter.decide P arbiter request policy = .ok d →
      DeterministicArbiter.decide P arbiter request policy' = .ok d' → d.allow = d'.allow := by
  have hmeaning : ∀ {translator policyId source policy rules overlays},
      translate P T translator policyId source = .ok policy →
      Reads P T source rules overlays → Agree rules overlays →
      ((∃ d, DeterministicArbiter.decide P arbiter request policy = .ok d ∧ d.allow = true) ↔
        Computable P request policy ∧
          ∃ action, MeetsEach P arbiter rules overlays request action) := by
    intro translator policyId source policy rules overlays h hreads hagree
    obtain ⟨rules', overlays', hreads', hmeans⟩ := means_translate h
    obtain ⟨rfl, rfl⟩ := hreads.unique hreads'
    rw [hmeans.allows_iff]
    exact and_congr_right fun _ => exists_congr fun action => hagree.meets_each_iff
  have hfirst := hmeaning h hreads hagree
  have hsecond := hmeaning h' hreads' (hagree.perm hrules hoverlays)
  refine ⟨hfirst, fun d d' hd hd' => Bool.eq_iff_iff.mpr ⟨fun hallow => ?_, fun hallow => ?_⟩⟩
  · obtain ⟨-, action, hmeets⟩ := hfirst.mp ⟨d, hd, hallow⟩
    obtain ⟨d'', hd'', hallow'⟩ :=
      hsecond.mpr ⟨computable_of_decide hd', action, hmeets.perm hrules hoverlays⟩
    obtain rfl := Except.ok.inj (hd'.symm.trans hd'')
    exact hallow'
  · obtain ⟨-, action, hmeets⟩ := hsecond.mp ⟨d', hd', hallow⟩
    obtain ⟨d'', hd'', hallow'⟩ :=
      hfirst.mpr ⟨computable_of_decide hd, action, hmeets.perm hrules.symm hoverlays.symm⟩
    obtain rfl := Except.ok.inj (hd.symm.trans hd'')
    exact hallow'

end Agreement

end GovernanceRuleTranslator

namespace GovernanceRuleTranslator

open DeterministicArbiter

section Payments

def amountItem : PyVal := .dict (PyDict.ofFields
  [("action", .str "pay"), ("required_fields", .list [.str "amount"]),
    ("required_approvals", .int 1)])

def currencyItem : PyVal := .dict (PyDict.ofFields
  [("action", .str "pay"), ("exact_fields", .dict (PyDict.ofFields [("currency", .str "EUR")]))])

def paymentSource (items : List PyVal) : PyDict :=
  PyDict.ofFields [("rules", .list items), ("required_context", .list [.str "tenant"])]

def amountFirst : PyDict := paymentSource [amountItem, currencyItem]

def currencyFirst : PyDict := paymentSource [currencyItem, amountItem]

def payment : PyDict :=
  PyDict.ofFields [("action", .str "pay"), ("amount", .int 5), ("currency", .str "EUR"),
    ("context", .dict (PyDict.ofFields [("tenant", .str "north")])), ("approval_count", .int 1)]

def amountRule : GovernanceRule where
  action := "pay"
  requiredFields := ["amount"]
  requiredApprovals := 1

def currencyRule : GovernanceRule where
  action := "pay"
  exactFields := [("currency", .str "EUR")]

def tenantOverlay : Overlay := ⟨["tenant"], [], []⟩

theorem reads_list {items : List PyVal} {rules : List GovernanceRule}
    (hrules : items.mapM (coerceRule sizePrimitives asciiDecimals) = .ok rules) :
    Reads sizePrimitives asciiDecimals (.list items) rules [] := by
  refine .rules (fun d hd => ?_) rfl hrules
  cases hd

theorem reads_amountFirst : Reads sizePrimitives asciiDecimals (.dict amountFirst)
    [amountRule, currencyRule] [tenantOverlay] := by
  have hrules : PyDict.getD amountFirst "rules" = .list [amountItem, currencyItem] := rfl
  exact .mapping (hrules ▸ reads_list rfl) rfl

theorem reads_currencyFirst : Reads sizePrimitives asciiDecimals (.dict currencyFirst)
    [currencyRule, amountRule] [tenantOverlay] := by
  have hrules : PyDict.getD currencyFirst "rules" = .list [currencyItem, amountItem] := rfl
  exact .mapping (hrules ▸ reads_list rfl) rfl

theorem translates_amountFirst : ∃ policy, translate sizePrimitives asciiDecimals ⟨"rules"⟩ []
    (.dict amountFirst) = .ok policy := by
  refine exists_of_toOption ?_
  rw [translate.eq_def]
  decide +kernel

theorem translates_currencyFirst : ∃ policy, translate sizePrimitives asciiDecimals ⟨"rules"⟩ []
    (.dict currencyFirst) = .ok policy := by
  refine exists_of_toOption ?_
  rw [translate.eq_def]
  decide +kernel

theorem agree_payment : Agree [amountRule, currencyRule] [tenantOverlay] := by
  have hsingle : ∀ {entries entries' : List (Str × PyVal)} {name : Str} {v w : PyVal},
      entries ∈ [[], [(lit "currency", PyVal.str "EUR")]] →
      entries' ∈ [[], [(lit "currency", PyVal.str "EUR")]] →
      Dict.get entries name = some v → Dict.get entries' name = some w → SameValue v w := by
    intro entries entries' name v w hmem hmem' hv hw
    have hv := Dict.mem_of_get hv
    have hw := Dict.mem_of_get hw
    simp only [List.mem_cons, List.not_mem_nil, or_false] at hmem hmem'
    rcases hmem with rfl | rfl
    · cases hv
    · rcases hmem' with rfl | rfl
      · cases hw
      · rw [List.mem_singleton] at hv hw
        exact .inl ((congrArg Prod.snd hv).trans (congrArg Prod.snd hw).symm)
  have hfields : ∀ rule ∈ [amountRule, currencyRule],
      rule.exactFields ∈ [[], [(lit "currency", PyVal.str "EUR")]] := by
    simp [amountRule, currencyRule]
  refine ⟨fun action r hr r' hr' name v w hv hw => ?_, ?_, ?_⟩
  · exact hsingle (hfields r (mem_rulesFor.mp hr).1) (hfields r' (mem_rulesFor.mp hr').1) hv hw
  · rintro entries hentries entries' - name v w hv -
    have hempty : entries = [] := by
      simpa [amountRule, currencyRule, tenantOverlay] using hentries
    subst hempty
    cases hv
  · intro overlay hoverlay action n hget
    obtain rfl := List.mem_singleton.mp hoverlay
    cases hget

theorem translate_means_payment : ∃ policy,
    translate sizePrimitives asciiDecimals ⟨"rules"⟩ [] (.dict amountFirst) = .ok policy ∧
      ∃ rules overlays, Reads sizePrimitives asciiDecimals (.dict amountFirst) rules overlays ∧
        ∀ arbiter request, (∃ d, DeterministicArbiter.decide sizePrimitives arbiter request policy =
          .ok d ∧ d.allow = true) ↔ Computable sizePrimitives request policy ∧
            ∃ action, MeetsRules sizePrimitives arbiter rules overlays request action := by
  obtain ⟨policy, hpolicy⟩ := translates_amountFirst
  exact ⟨policy, hpolicy, translate_means hpolicy⟩

theorem agreeing_payments_kept : ∃ policy policy',
    translate sizePrimitives asciiDecimals ⟨"rules"⟩ [] (.dict amountFirst) = .ok policy ∧
    translate sizePrimitives asciiDecimals ⟨"rules"⟩ [] (.dict currencyFirst) = .ok policy' ∧
      ∀ d d', DeterministicArbiter.decide sizePrimitives {} payment policy = .ok d →
        DeterministicArbiter.decide sizePrimitives {} payment policy' = .ok d' →
          d.allow = d'.allow := by
  obtain ⟨policy, hpolicy⟩ := translates_amountFirst
  obtain ⟨policy', hpolicy'⟩ := translates_currencyFirst
  exact ⟨policy, policy', hpolicy, hpolicy', (agreeing_rules_kept hpolicy hpolicy'
    reads_amountFirst reads_currencyFirst (List.Perm.swap _ _ _) (List.Perm.refl _)
    agree_payment {} payment).2⟩

end Payments

end GovernanceRuleTranslator

end GovernedAutonomy
