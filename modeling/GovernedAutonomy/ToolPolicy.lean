import GovernedAutonomy.Binding
import GovernedAutonomy.PolicyRoundTrip
import GovernedAutonomy.Protocol.Calls

namespace GovernedAutonomy

open Python Protocol

structure Registration where
  definition : MCPToolDefinition
  handler : PyDict → HandlerOutcome

namespace GASMCPGateway

section Statement

variable (P : Primitives) (extra : List Str) (maxRequestBytes maxTtlSeconds : ℤ)
  (gateway : GASMCPGateway)

def step (gateway : GASMCPGateway) (call : Registration) : GASMCPGateway :=
  (gateway.registerTool P call.definition call.handler).1

def policy? : Option Policy := Dict.get gateway.policyRegistry.policies gatewayPolicyId

-- the policy that the tools of a gateway, and what it was created with, ask for
structure Demanded (policy : Policy) : Prop where
  actions : ∀ action, action ∈ policy.allowedActions ↔
    Dict.has gateway.handlers action = true ∨ action ∈ extra
  fields : ∀ action, (Dict.get policy.requiredFields action).getD [] =
    ((Dict.get gateway.toolDefs action).map MCPToolDefinition.requiredFields).getD []
  approvals : ∀ action, (Dict.get policy.requiredApprovals action).getD 0 =
    max 0 (((Dict.get gateway.toolDefs action).map MCPToolDefinition.requiredApprovals).getD 0)
  maxRequestBytes : policy.maxRequestBytes = maxRequestBytes
  maxTtlSeconds : policy.maxTtlSeconds = maxTtlSeconds

structure Tracks : Prop where
  policy : ∃ policy, gateway.policy? = some policy ∧
    Demanded extra maxRequestBytes maxTtlSeconds gateway policy
  boundary : gateway.boundary.policyRegistry = some gateway.policyRegistry

structure Called (call : Registration) : Prop where
  tracks : Tracks extra maxRequestBytes maxTtlSeconds (step P gateway call)
  unchanged : ∀ e, (gateway.registerTool P call.definition call.handler).2 = .error e →
    step P gateway call = gateway

-- a name that is taken, or a definition that a policy can hold, at a gateway whose other actions
-- are tools
def Admits (call : Registration) : Prop :=
  Dict.has gateway.handlers call.definition.name = true ∨
    (call.definition.name ≠ [] ∧ Policy.Names call.definition.requiredFields ∧
      ∀ action ∈ extra,
        Dict.has (gateway.withTool call.definition call.handler).handlers action = true)

def SameTools (gateway gateway' : GASMCPGateway) : Prop :=
  ∀ name, Dict.get gateway.toolDefs name = Dict.get gateway'.toolDefs name

def SamePolicy (gateway gateway' : GASMCPGateway) : Prop :=
  gateway.policy?.map Policy.toDict = gateway'.policy?.map Policy.toDict

end Statement

section Content

theorem get_filterMap_bind {V W : Type} {d : List (Str × V)} (hd : Dict.Distinct d)
    (f : V → Option W) (k : Str) :
    Dict.get (d.filterMap (fun m => (f m.2).map (fun w => (m.1, w)))) k =
      (Dict.get d k).bind f := by
  induction d with
  | nil => rfl
  | cons m d ih =>
      obtain ⟨hm, hd⟩ := List.pairwise_cons.mp hd
      have ih := ih hd
      rw [Dict.get_cons]
      cases hf : f m.2 with
      | none =>
          rw [List.filterMap_cons_none (by rw [hf]; rfl), ih]
          split
          · rename_i hk
            have hnone : Dict.get d k = none :=
              Dict.get_eq_none.mpr fun n hn => by rw [same_comm, ← same_congr hk, hm n hn]
            rw [hnone, Option.bind_none, Option.bind_some, hf]
          · rfl
      | some w =>
          rw [List.filterMap_cons_some (by rw [hf]; rfl), Dict.get_cons, ih]
          split
          · rw [Option.bind_some, hf]
          · rfl

variable {gateway : GASMCPGateway}

theorem toolPolicy_fields (hd : Dict.Distinct gateway.toolDefs) (action : Str) :
    (Dict.get gateway.toolPolicy.requiredFields action).getD [] =
      ((Dict.get gateway.toolDefs action).map MCPToolDefinition.requiredFields).getD [] := by
  have hfields : gateway.toolPolicy.requiredFields = gateway.toolDefs.filterMap (fun m =>
      (if m.2.requiredFields.isEmpty then none else some m.2.requiredFields).map
        (fun fields => (m.1, fields))) := by
    refine List.filterMap_congr fun m _ => ?_
    split <;> rfl
  rw [hfields, get_filterMap_bind hd (fun definition : MCPToolDefinition =>
    if definition.requiredFields.isEmpty then none else some definition.requiredFields)]
  cases Dict.get gateway.toolDefs action with
  | none => rfl
  | some definition =>
      rw [Option.bind_some, Option.map_some]
      split
      · rename_i h
        rw [List.isEmpty_iff.mp h]
        rfl
      · rfl

theorem toolPolicy_approvals (hd : Dict.Distinct gateway.toolDefs) (action : Str) :
    (Dict.get gateway.toolPolicy.requiredApprovals action).getD 0 =
      max 0 (((Dict.get gateway.toolDefs action).map
        MCPToolDefinition.requiredApprovals).getD 0) := by
  have hcounts : gateway.toolPolicy.requiredApprovals = gateway.toolDefs.filterMap (fun m =>
      (if 0 < m.2.requiredApprovals then some m.2.requiredApprovals else none).map
        (fun count => (m.1, count))) := by
    refine List.filterMap_congr fun m _ => ?_
    split <;> rfl
  rw [hcounts, get_filterMap_bind hd (fun definition : MCPToolDefinition =>
    if 0 < definition.requiredApprovals then some definition.requiredApprovals else none)]
  cases Dict.get gateway.toolDefs action with
  | none => rfl
  | some definition =>
      rw [Option.bind_some, Option.map_some, Option.getD_some]
      split
      · rename_i h
        exact (max_eq_right h.le).symm
      · rename_i h
        exact (max_eq_left (not_lt.mp h)).symm

theorem mem_toolPolicy_actions (action : Str) :
    action ∈ gateway.toolPolicy.allowedActions ↔ Dict.has gateway.handlers action = true := by
  rw [show gateway.toolPolicy.allowedActions = sortedStrs (gateway.handlers.map Prod.fst) from rfl,
    sortedStrs, List.mem_insertionSort, Dict.has]
  constructor
  · intro h
    obtain ⟨m, hm, rfl⟩ := List.mem_map.mp h
    rw [← Option.ne_none_iff_isSome]
    intro hnone
    have hself := Dict.get_eq_none.mp hnone m hm
    rw [same_list, decide_eq_false_iff_not] at hself
    exact hself rfl
  · intro h
    obtain ⟨handler, hget⟩ := Option.isSome_iff_exists.mp h
    exact List.mem_map.mpr ⟨_, Dict.mem_of_get hget, rfl⟩

end Content

section Rebuilding

variable {P : Primitives} {gateway : GASMCPGateway}

-- the definitions that a gateway has taken, and the limits it was created with
structure Sound (extra : List Str) (maxRequestBytes maxTtlSeconds : ℤ) (gateway : GASMCPGateway) :
    Prop where
  distinct : Dict.Distinct gateway.toolDefs
  handlers : Dict.Distinct gateway.handlers
  names : ∀ name, Dict.has gateway.toolDefs name = Dict.has gateway.handlers name
  proper : ∀ m ∈ gateway.toolDefs, m.1 ≠ [] ∧ Policy.Names m.2.requiredFields
  limits : ∃ policy, gateway.policy? = some policy ∧ policy.maxRequestBytes = maxRequestBytes ∧
    policy.maxTtlSeconds = maxTtlSeconds
  positive : 0 < maxRequestBytes ∧ 0 < maxTtlSeconds
  boundary : gateway.boundary.policyRegistry = some gateway.policyRegistry
  tools : gateway.handlers ≠ [] → gateway.policy? = some gateway.toolPolicy ∧
    ∀ action ∈ extra, Dict.has gateway.handlers action = true

theorem toolPolicy_valid {m : Str × List Str} (h : m ∈ gateway.toolPolicy.requiredFields) :
    ∃ definition, (m.1, definition) ∈ gateway.toolDefs ∧ definition.requiredFields = m.2 := by
  obtain ⟨n, hn, heq⟩ := List.mem_filterMap.mp h
  split at heq
  · cases heq
  · obtain rfl := Option.some.inj heq
    exact ⟨n.2, hn, rfl⟩

theorem sortedStrs_sortedStrs (ss : List Str) : sortedStrs (sortedStrs ss) = sortedStrs ss := by
  have htotal : Std.Total (α := Str) (· ≤ ·) := ⟨le_total⟩
  have htrans : IsTrans Str (· ≤ ·) := ⟨fun _ _ _ => le_trans⟩
  exact List.Pairwise.insertionSort_eq (List.pairwise_insertionSort _ ss)

theorem postInit_toolPolicy (hnames : ∀ m ∈ gateway.handlers, m.1 ≠ [])
    (hproper : ∀ m ∈ gateway.toolDefs, m.1 ≠ [] ∧ Policy.Names m.2.requiredFields)
    (hbytes : 0 < gateway.toolPolicy.maxRequestBytes)
    (httl : 0 < gateway.toolPolicy.maxTtlSeconds) :
    gateway.toolPolicy.postInit = .ok gateway.toolPolicy := by
  have hactions : Policy.Names gateway.toolPolicy.allowedActions := by
    intro name hname
    have hmem : name ∈ gateway.handlers.map Prod.fst := (List.mem_insertionSort _).mp hname
    obtain ⟨m, hm, rfl⟩ := List.mem_map.mp hmem
    exact hnames m hm
  have hfields : ∀ m ∈ gateway.toolPolicy.requiredFields, m.1 ≠ [] ∧ Policy.Names m.2 := by
    intro m hm
    obtain ⟨definition, hdef, heq⟩ := toolPolicy_valid hm
    obtain ⟨hname, hfields⟩ := hproper _ hdef
    exact ⟨hname, heq ▸ hfields⟩
  have hcounts : ∀ m ∈ gateway.toolPolicy.requiredApprovals, m.1 ≠ [] ∧ 0 ≤ m.2 := by
    intro m hm
    obtain ⟨n, hn, heq⟩ := List.mem_filterMap.mp hm
    split at heq
    · rename_i hpos
      obtain rfl := Option.some.inj heq
      exact ⟨(hproper n hn).1, hpos.le⟩
    · cases heq
  have hnone : ∀ {α : Type} {p : α → Prop}, ∀ m ∈ ([] : List α), p m := fun m hm =>
    absurd hm List.not_mem_nil
  simp only [Policy.postInit, bind_eq_ok, reject_eq_ok, each_eq_ok, exists_const]
  refine ⟨rfl, by simpa using hbytes, by simpa using httl, anyEmpty_eq_false.mpr hactions,
    decide_eq_false (not_not.mpr (sortedStrs_sortedStrs _)), rfl, rfl, fun m hm => ?_, hnone,
    fun m hm => ?_, (), rfl, hnone, hnone, rfl, rfl, rfl, rfl, trivial⟩
  · obtain ⟨hname, hfields⟩ := hfields m hm
    exact ⟨by simpa using hname, anyEmpty_eq_false.mpr hfields⟩
  · obtain ⟨hname, hcount⟩ := hcounts m hm
    exact ⟨by simpa using hname, by simpa using hcount⟩

theorem proper_of_postInit {m : Str × MCPToolDefinition} (hm : m ∈ gateway.toolDefs)
    (hhas : Dict.has gateway.handlers m.1 = true)
    (h : gateway.toolPolicy.postInit = .ok gateway.toolPolicy) :
    m.1 ≠ [] ∧ Policy.Names m.2.requiredFields := by
  have hvalid := Policy.valid_of_postInit h
  refine ⟨hvalid.allowedActions.1 m.1 ((mem_toolPolicy_actions m.1).mpr hhas), ?_⟩
  by_cases hfields : m.2.requiredFields.isEmpty = true
  · rw [List.isEmpty_iff.mp hfields]
    intro field hfield
    cases hfield
  · exact (hvalid.requiredFields (m.1, m.2.requiredFields)
      (List.mem_filterMap.mpr ⟨m, hm, if_neg hfields⟩)).2

theorem rebuildPolicy_of_postInit (hhandlers : gateway.handlers ≠ [])
    (h : gateway.toolPolicy.postInit = .ok gateway.toolPolicy) :
    ∃ gateway', gateway.rebuildPolicy P = .ok gateway' := by
  rw [rebuildPolicy, if_neg (by simpa using hhandlers), h]
  exact ⟨_, rfl⟩

theorem postInit_of_rebuildPolicy {gateway' : GASMCPGateway} (hhandlers : gateway.handlers ≠ [])
    (h : gateway.rebuildPolicy P = .ok gateway') :
    gateway.toolPolicy.postInit = .ok gateway.toolPolicy := by
  rw [rebuildPolicy, if_neg (by simpa using hhandlers)] at h
  obtain ⟨policy, hpolicy, -⟩ := bind_eq_ok.mp h
  rw [hpolicy, Policy.postInit_eq_ok hpolicy]

end Rebuilding

section Steps

variable {P : Primitives} {extra : List Str} {maxRequestBytes maxTtlSeconds : ℤ}
  {gateway : GASMCPGateway} {call : Registration}

theorem handlers_withTool_ne (call : Registration) :
    (gateway.withTool call.definition call.handler).handlers ≠ [] := by
  intro hnil
  have hget := get_handlers_withTool gateway call.definition call.handler
  rw [hnil] at hget
  cases hget

theorem has_withTool (call : Registration) (name : Str) :
    Dict.has (gateway.withTool call.definition call.handler).handlers name =
      (decide (call.definition.name = name) || Dict.has gateway.handlers name) :=
  Dict.has_set_eq _ _ _ _

theorem step_of_taken (h : Dict.has gateway.handlers call.definition.name = true) :
    step P gateway call = gateway := by
  rw [step, registerTool, if_pos h]

theorem tracks_of_tools (h : Sound extra maxRequestBytes maxTtlSeconds gateway)
    (hhandlers : gateway.handlers ≠ []) : Tracks extra maxRequestBytes maxTtlSeconds gateway := by
  obtain ⟨hpolicy, hextra⟩ := h.tools hhandlers
  obtain ⟨policy, hpolicy', hbytes, httl⟩ := h.limits
  obtain rfl := Option.some.inj (hpolicy.symm.trans hpolicy')
  refine ⟨⟨gateway.toolPolicy, hpolicy, fun action => ?_, toolPolicy_fields h.distinct,
    toolPolicy_approvals h.distinct, hbytes, httl⟩, h.boundary⟩
  rw [mem_toolPolicy_actions, or_iff_left_of_imp (hextra action)]

theorem Sound.name_ne (h : Sound extra maxRequestBytes maxTtlSeconds gateway)
    {m : Str × (PyDict → HandlerOutcome)} (hm : m ∈ gateway.handlers) : m.1 ≠ [] := by
  have hhas : Dict.has gateway.handlers m.1 = true := by
    rw [Dict.has, ← Option.ne_none_iff_isSome]
    intro hnone
    have hself := Dict.get_eq_none.mp hnone m hm
    rw [same_list, decide_eq_false_iff_not] at hself
    exact hself rfl
  rw [← h.names] at hhas
  obtain ⟨definition, hget⟩ := Option.isSome_iff_exists.mp hhas
  exact (h.proper _ (Dict.mem_of_get hget)).1

theorem toolPolicy_withTool (h : Sound extra maxRequestBytes maxTtlSeconds gateway)
    (call : Registration) :
    (gateway.withTool call.definition call.handler).toolPolicy.maxRequestBytes = maxRequestBytes ∧
      (gateway.withTool call.definition call.handler).toolPolicy.maxTtlSeconds = maxTtlSeconds := by
  obtain ⟨policy, hpolicy, hbytes, httl⟩ := h.limits
  have hget : Dict.get (gateway.withTool call.definition call.handler).policyRegistry.policies
      gatewayPolicyId = some policy := hpolicy
  simp only [toolPolicy, hget, Option.map_some, Option.getD_some]
  exact ⟨hbytes, httl⟩

theorem postInit_withTool (h : Sound extra maxRequestBytes maxTtlSeconds gateway)
    (hname : call.definition.name ≠ []) (hfields : Policy.Names call.definition.requiredFields) :
    (gateway.withTool call.definition call.handler).toolPolicy.postInit =
      .ok (gateway.withTool call.definition call.handler).toolPolicy := by
  obtain ⟨hbytes, httl⟩ := toolPolicy_withTool h call
  refine postInit_toolPolicy (fun m hm => ?_) (fun m hm => ?_) (hbytes ▸ h.positive.1)
    (httl ▸ h.positive.2)
  · rcases Dict.mem_set hm with hm | ⟨-, hkey | ⟨w, hw⟩⟩
    · exact h.name_ne hm
    · exact hkey ▸ hname
    · exact h.name_ne (m := (m.1, w)) hw
  · rcases Dict.mem_set hm with hm | ⟨hdef, hkey | ⟨w, hw⟩⟩
    · exact h.proper m hm
    · exact ⟨hkey ▸ hname, hdef ▸ hfields⟩
    · exact ⟨(h.proper _ hw).1, hdef ▸ hfields⟩

theorem registerTool_fresh (hfresh : Dict.has gateway.handlers call.definition.name = false) :
    (∃ gateway', (gateway.withTool call.definition call.handler).rebuildPolicy P = .ok gateway' ∧
      gateway.registerTool P call.definition call.handler = (gateway', .ok ())) ∨
    ∃ e, (gateway.withTool call.definition call.handler).rebuildPolicy P = .error e ∧
      gateway.registerTool P call.definition call.handler =
        (gateway.withTool call.definition call.handler, .error e) := by
  rw [registerTool, if_neg (by rw [hfresh]; exact Bool.false_ne_true)]
  cases hrebuild : (gateway.withTool call.definition call.handler).rebuildPolicy P with
  | error e => exact Or.inr ⟨e, rfl, rfl⟩
  | ok gateway' => exact Or.inl ⟨gateway', rfl, rfl⟩

theorem sound_rebuilt {gateway' : GASMCPGateway}
    (h : Sound extra maxRequestBytes maxTtlSeconds gateway)
    (hname : call.definition.name ≠ []) (hfields : Policy.Names call.definition.requiredFields)
    (hextra : ∀ action ∈ extra,
      Dict.has (gateway.withTool call.definition call.handler).handlers action = true)
    (hrebuilt : Rebuilt (gateway.withTool call.definition call.handler) gateway') :
    Sound extra maxRequestBytes maxTtlSeconds gateway' := by
  obtain ⟨hbytes, httl⟩ := toolPolicy_withTool h call
  have hpolicy : gateway'.policy? =
      some (gateway.withTool call.definition call.handler).toolPolicy := hrebuilt.policy
  have htool : gateway'.toolPolicy =
      (gateway.withTool call.definition call.handler).toolPolicy := by
    unfold policy? at hpolicy
    have hlimits := toolPolicy_withTool h call
    simp only [toolPolicy] at hlimits
    rw [toolPolicy, hpolicy, hrebuilt.handlers, hrebuilt.toolDefs, Option.map_some,
      Option.getD_some, Option.map_some, Option.getD_some]
    rfl
  refine
    { distinct := ?_
      handlers := ?_
      names := fun name => ?_
      proper := fun m hm => ?_
      limits := ⟨_, hpolicy, hbytes, httl⟩
      positive := h.positive
      boundary := by rw [hrebuilt.boundary]
      tools := fun _ => ⟨by rw [hpolicy, htool], fun action haction => ?_⟩ }
  · rw [hrebuilt.toolDefs]
    exact Dict.distinct_set h.distinct _ _
  · rw [hrebuilt.handlers]
    exact Dict.distinct_set h.handlers _ _
  · rw [hrebuilt.toolDefs, hrebuilt.handlers, has_withTool, ← h.names]
    exact Dict.has_set_eq _ _ _ _
  · rw [hrebuilt.toolDefs] at hm
    rcases Dict.mem_set hm with hm | ⟨hdef, hkey | ⟨w, hw⟩⟩
    · exact h.proper m hm
    · exact ⟨hkey ▸ hname, hdef ▸ hfields⟩
    · exact ⟨(h.proper _ hw).1, hdef ▸ hfields⟩
  · rw [hrebuilt.handlers]
    exact hextra action haction

theorem withTool_ne (hfresh : Dict.has gateway.handlers call.definition.name = false) :
    gateway.withTool call.definition call.handler ≠ gateway := by
  intro heq
  have hhas : Dict.has (gateway.withTool call.definition call.handler).handlers
      call.definition.name = _ := has_withTool call call.definition.name
  rw [heq, hfresh] at hhas
  simp at hhas

-- what one call keeps: the policy tracks the tools exactly when the call is admitted
theorem called_iff (h : Sound extra maxRequestBytes maxTtlSeconds gateway) :
    (Called P extra maxRequestBytes maxTtlSeconds gateway call ↔ Admits extra gateway call) ∧
      (Admits extra gateway call →
        Sound extra maxRequestBytes maxTtlSeconds (step P gateway call)) := by
  by_cases htaken : Dict.has gateway.handlers call.definition.name = true
  · have hhandlers : gateway.handlers ≠ [] := by
      intro hnil
      rw [hnil] at htaken
      cases htaken
    have hstep := step_of_taken (P := P) htaken
    refine ⟨iff_of_true ⟨?_, fun _ _ => hstep⟩ (Or.inl htaken), fun _ => ?_⟩
    · rw [hstep]
      exact tracks_of_tools h hhandlers
    · rwa [hstep]
  · have hfresh := Bool.not_eq_true _ |>.mp htaken
    have hne : (gateway.withTool call.definition call.handler).handlers ≠ [] :=
      handlers_withTool_ne call
    rcases registerTool_fresh (P := P) hfresh with ⟨gateway', hrebuild, hcall⟩ | ⟨e, hrebuild, hcall⟩
    · have hstep : step P gateway call = gateway' := by rw [step, hcall]
      have hpost := postInit_of_rebuildPolicy hne hrebuild
      have hdef : (call.definition.name, call.definition) ∈
          (gateway.withTool call.definition call.handler).toolDefs :=
        Dict.mem_of_get (by rw [withTool, Dict.get_set, if_pos (by simp [same_list])])
      have hhas : Dict.has (gateway.withTool call.definition call.handler).handlers
          call.definition.name = true := by
        rw [has_withTool, decide_eq_true rfl, Bool.true_or]
      obtain ⟨hname, hfields⟩ := proper_of_postInit hdef hhas hpost
      have hrebuilt := rebuilt_of_rebuildPolicy hne hrebuild
      rw [hstep]
      constructor
      · constructor
        · rintro ⟨⟨⟨policy, hpolicy, hdemanded⟩, -⟩, -⟩
          refine Or.inr ⟨hname, hfields, fun action haction => ?_⟩
          rw [hstep] at hpolicy hdemanded
          obtain rfl := Option.some.inj (hrebuilt.policy.symm.trans hpolicy)
          exact (mem_toolPolicy_actions action).mp ((hdemanded.actions action).mpr (Or.inr haction))
        · rintro (htaken' | ⟨-, -, hextra⟩)
          · exact absurd htaken' htaken
          · have hsound := sound_rebuilt h hname hfields hextra hrebuilt
            refine ⟨hstep ▸ tracks_of_tools hsound (by rwa [hrebuilt.handlers]), fun e he => ?_⟩
            rw [hcall] at he
            cases he
      · rintro (htaken' | ⟨-, -, hextra⟩)
        · exact absurd htaken' htaken
        · exact sound_rebuilt h hname hfields hextra hrebuilt
    · have hstep : step P gateway call = gateway.withTool call.definition call.handler := by
        rw [step, hcall]
      have hnot : ¬ Admits extra gateway call := by
        rintro (htaken' | ⟨hname, hfields, -⟩)
        · exact htaken htaken'
        · obtain ⟨gateway', hok⟩ := rebuildPolicy_of_postInit (P := P) hne
            (postInit_withTool h hname hfields)
          rw [hok] at hrebuild
          cases hrebuild
      refine ⟨iff_of_false (fun hcalled => ?_) hnot, fun hadmits => absurd hadmits hnot⟩
      exact withTool_ne hfresh (hstep.symm.trans (hcalled.unchanged e (by rw [hcall])))

theorem sound_create {issuerKey : Signer} {trustStore : TrustStore} {ttlSeconds : ℤ}
    (h : create P issuerKey trustStore ttlSeconds extra maxRequestBytes maxTtlSeconds =
      .ok gateway) : Sound extra maxRequestBytes maxTtlSeconds gateway := by
  simp only [create, bind_eq_ok] at h
  obtain ⟨policy, hpolicy, registry, hregistry, h⟩ := h
  obtain rfl := Except.ok.inj h
  have hvalid := Policy.valid_of_postInit hpolicy
  obtain rfl := Policy.postInit_eq_ok hpolicy
  obtain ⟨-, rfl⟩ := PolicyRegistry.register_eq_ok.mp hregistry
  exact
    { distinct := List.Pairwise.nil
      handlers := List.Pairwise.nil
      names := fun _ => rfl
      proper := nofun
      limits := ⟨_, rfl, rfl, rfl⟩
      positive := ⟨hvalid.maxRequestBytes, hvalid.maxTtlSeconds⟩
      boundary := rfl
      tools := fun hne => absurd rfl hne }

theorem handlers_step_ne (call : Registration) : (step P gateway call).handlers ≠ [] := by
  have hne : (gateway.withTool call.definition call.handler).handlers ≠ [] :=
    handlers_withTool_ne call
  by_cases htaken : Dict.has gateway.handlers call.definition.name = true
  · rw [step_of_taken htaken]
    intro hnil
    rw [hnil] at htaken
    cases htaken
  · rcases registerTool_fresh (P := P) (Bool.not_eq_true _ |>.mp htaken) with
      ⟨gateway', hrebuild, hcall⟩ | ⟨e, -, hcall⟩
    · rw [step, hcall, (rebuilt_of_rebuildPolicy hne hrebuild).handlers]
      exact hne
    · rw [step, hcall]
      exact hne

theorem sound_run (h : Sound extra maxRequestBytes maxTtlSeconds gateway)
    {calls : List Registration}
    (hadmits : Calls.Each (step P) (Admits extra) gateway calls) :
    Sound extra maxRequestBytes maxTtlSeconds (Calls.run (step P) gateway calls) :=
  Calls.stable (A := Sound extra maxRequestBytes maxTtlSeconds)
    (fun _ _ hcall hsound => (called_iff hsound).2 hcall) hadmits h

theorem has_of_sameTools {gateway' : GASMCPGateway}
    (h : Sound extra maxRequestBytes maxTtlSeconds gateway)
    (h' : Sound extra maxRequestBytes maxTtlSeconds gateway') (hsame : SameTools gateway gateway')
    (name : Str) : Dict.has gateway.handlers name = Dict.has gateway'.handlers name := by
  rw [← h.names, ← h'.names, Dict.has, Dict.has, hsame]

theorem ne_nil_of_sameTools {gateway' : GASMCPGateway}
    (h : Sound extra maxRequestBytes maxTtlSeconds gateway)
    (h' : Sound extra maxRequestBytes maxTtlSeconds gateway') (hsame : SameTools gateway gateway')
    (hne : gateway.handlers ≠ []) : gateway'.handlers ≠ [] := by
  obtain ⟨m, hm⟩ := List.exists_mem_of_ne_nil _ hne
  have hhas := has_of_sameTools h h' hsame m.1
  rw [Dict.has, Dict.get_of_mem h.handlers hm (by simp [same_list])] at hhas
  intro hnil
  rw [hnil] at hhas
  cases hhas

theorem nodup_names {V : Type} {d : List (Str × V)} (hd : Dict.Distinct d) :
    (d.map Prod.fst).Nodup := by
  rw [List.Nodup, List.pairwise_map]
  refine hd.imp fun hdiff heq => ?_
  rw [same_list, decide_eq_false_iff_not] at hdiff
  exact hdiff heq

-- what is kept of the entries of two dicts that hold the same, in the order of the keys
theorem sortedItems_filterMap {V W : Type} {d e : List (Str × V)} (hd : Dict.Distinct d)
    (hperm : d.Perm e) {f : Str × V → Option (Str × W)}
    (hf : ∀ m n, f m = some n → n.1 = m.1) :
    sortedItems (d.filterMap f) = sortedItems (e.filterMap f) := by
  have hkept : Dict.Distinct (d.filterMap f) := by
    refine List.pairwise_filterMap.mpr (hd.imp fun hdiff m hm n hn => ?_)
    rwa [hf _ m hm, hf _ n hn]
  exact sortedItems_ext hkept (Dict.distinct_of_perm hkept (hperm.filterMap f))
    (Dict.get_perm hkept (hperm.filterMap f))

theorem samePolicy_of_sameTools {gateway' : GASMCPGateway}
    (h : Sound extra maxRequestBytes maxTtlSeconds gateway)
    (h' : Sound extra maxRequestBytes maxTtlSeconds gateway') (hsame : SameTools gateway gateway')
    (hne : gateway.handlers ≠ []) : SamePolicy gateway gateway' := by
  obtain ⟨hpolicy, -⟩ := h.tools hne
  obtain ⟨hpolicy', -⟩ := h'.tools (ne_nil_of_sameTools h h' hsame hne)
  obtain ⟨policy, hget, hbytes, httl⟩ := h.limits
  obtain ⟨policy', hget', hbytes', httl'⟩ := h'.limits
  obtain rfl := Option.some.inj (hpolicy.symm.trans hget)
  obtain rfl := Option.some.inj (hpolicy'.symm.trans hget')
  have hdefs : gateway.toolDefs.Perm gateway'.toolDefs :=
    Dict.perm_of_get h.distinct h'.distinct hsame
  have hactions : gateway.toolPolicy.allowedActions = gateway'.toolPolicy.allowedActions := by
    refine insertionSort_perm id (fun _ _ => Iff.rfl) ?_ (fun _ _ _ _ heq => heq)
    refine (List.perm_ext_iff_of_nodup (nodup_names h.handlers) (nodup_names h'.handlers)).mpr ?_
    intro name
    have hmem : name ∈ gateway.toolPolicy.allowedActions ↔ _ := mem_toolPolicy_actions name
    have hmem' : name ∈ gateway'.toolPolicy.allowedActions ↔ _ := mem_toolPolicy_actions name
    rw [toolPolicy, sortedStrs, List.mem_insertionSort] at hmem hmem'
    rw [hmem, hmem', has_of_sameTools h h' hsame]
  have hfields : sortedItems gateway.toolPolicy.requiredFields =
      sortedItems gateway'.toolPolicy.requiredFields := by
    refine sortedItems_filterMap h.distinct hdefs fun m n hn => ?_
    split at hn
    · cases hn
    · rw [← Option.some.inj hn]
  have happrovals : sortedItems gateway.toolPolicy.requiredApprovals =
      sortedItems gateway'.toolPolicy.requiredApprovals := by
    refine sortedItems_filterMap h.distinct hdefs fun m n hn => ?_
    split at hn
    · rw [← Option.some.inj hn]
    · cases hn
  rw [SamePolicy, hpolicy, hpolicy', Option.map_some, Option.map_some, Policy.toDict, Policy.toDict,
    hactions, hfields, happrovals, hbytes, hbytes', httl, httl']
  rfl

theorem gateway_policy_tracks_iff (P : Primitives) {issuerKey : Signer} {trustStore : TrustStore}
    {ttlSeconds : ℤ} (h : create P issuerKey trustStore ttlSeconds extra maxRequestBytes
      maxTtlSeconds = .ok gateway) :
    (∀ calls, (∀ before call after, calls = before ++ call :: after →
        Called P extra maxRequestBytes maxTtlSeconds (Calls.run (step P) gateway before) call) ↔
      Calls.Each (step P) (Admits extra) gateway calls) ∧
    ∀ calls calls', Calls.Each (step P) (Admits extra) gateway calls →
      Calls.Each (step P) (Admits extra) gateway calls' →
      SameTools (Calls.run (step P) gateway calls) (Calls.run (step P) gateway calls') →
      SamePolicy (Calls.run (step P) gateway calls) (Calls.run (step P) gateway calls') := by
  have hsound := sound_create h
  constructor
  · intro calls
    rw [← Calls.each_iff]
    exact Calls.each_congr (fun _ _ hs => (called_iff hs).1) (fun _ _ hs => (called_iff hs).2) hsound
  · intro calls calls' hadmits hadmits' hsame
    have hrun := sound_run hsound hadmits
    have hrun' := sound_run hsound hadmits'
    by_cases hne : (Calls.run (step P) gateway calls).handlers = []
    · have hnil : ∀ calls : List Registration,
          (Calls.run (step P) gateway calls).handlers = [] → calls = [] := by
        intro calls hcalls
        rcases List.eq_nil_or_concat calls with rfl | ⟨before, call, rfl⟩
        · rfl
        · rw [List.concat_eq_append, Calls.run_append] at hcalls
          exact absurd hcalls (handlers_step_ne call)
      have hne' : (Calls.run (step P) gateway calls').handlers = [] := by
        by_contra hne'
        exact ne_nil_of_sameTools hrun' hrun (fun name => (hsame name).symm) hne' hne
      rw [hnil calls hne, hnil calls' hne']
      rfl
    · exact samePolicy_of_sameTools hrun hrun' hsame hne

theorem handlers_create {issuerKey : Signer} {trustStore : TrustStore} {ttlSeconds : ℤ}
    (h : create P issuerKey trustStore ttlSeconds extra maxRequestBytes maxTtlSeconds =
      .ok gateway) : gateway.handlers = [] := by
  simp only [create, bind_eq_ok] at h
  obtain ⟨policy, -, registry, -, h⟩ := h
  rw [← Except.ok.inj h]

theorem exists_created (extra : List Str) (hsome : (create sizePrimitives Demo.signer .empty 60 extra
    1024 300).toOption.isSome = true) :
    ∃ gateway, create sizePrimitives Demo.signer .empty 60 extra 1024 300 = .ok gateway :=
  exists_of_toOption hsome

def reads : Registration := ⟨readTool, quiet⟩

def wipes : Registration := ⟨wipeTool, quiet⟩

theorem gateway_policy_tracks_read : ∃ gateway,
    create sizePrimitives Demo.signer .empty 60 ["read"] 1024 300 = .ok gateway ∧
      ∀ before call after, [reads, wipes] = before ++ call :: after →
        Called sizePrimitives ["read"] 1024 300
          (Calls.run (step sizePrimitives) gateway before) call := by
  obtain ⟨gateway, hcreate⟩ := exists_created ["read"] (by decide +kernel)
  refine ⟨gateway, hcreate, ((gateway_policy_tracks_iff sizePrimitives hcreate).1 _).mpr ?_⟩
  have hhas : ∀ (gateway : GASMCPGateway) (call : Registration),
      call = reads ∨ Dict.has gateway.handlers (lit "read") = true → ∀ action ∈ [lit "read"],
        Dict.has (gateway.withTool call.definition call.handler).handlers action = true := by
    intro gateway call hcall action haction
    rw [List.mem_singleton.mp haction, has_withTool, Bool.or_eq_true]
    exact hcall.imp (fun heq => decide_eq_true (by rw [heq]; rfl)) id
  have hread : Admits ["read"] gateway reads :=
    Or.inr ⟨by decide, by simp [Policy.Names, reads, readTool], hhas gateway reads (Or.inl rfl)⟩
  refine ⟨hread, ?_, trivial⟩
  have hsound := (called_iff (P := sizePrimitives) (sound_create hcreate)).2 hread
  exact Or.inr ⟨by decide, by simp [Policy.Names, wipes, wipeTool], hhas _ wipes
    (Or.inr ((hsound.tools (handlers_step_ne reads)).2 _ (List.mem_singleton_self _)))⟩

def unnamed : Registration := ⟨{ name := [] }, quiet⟩

-- an action given to create is gone once a tool is registered; a tool without a name stays
theorem gateway_policy_not_tracked :
    ¬ (∀ (P : Primitives) issuerKey trustStore ttlSeconds extra maxRequestBytes maxTtlSeconds
        gateway, create P issuerKey trustStore ttlSeconds extra maxRequestBytes maxTtlSeconds =
          .ok gateway → ∀ call, Tracks extra maxRequestBytes maxTtlSeconds (step P gateway call)) ∧
    ¬ (∀ (P : Primitives) issuerKey trustStore ttlSeconds extra maxRequestBytes maxTtlSeconds
        gateway, create P issuerKey trustStore ttlSeconds extra maxRequestBytes maxTtlSeconds =
          .ok gateway → ∀ call e,
            (gateway.registerTool P call.definition call.handler).2 = .error e →
              step P gateway call = gateway) := by
  constructor
  · intro h
    obtain ⟨gateway, hcreate⟩ := exists_created ["status"] (by decide +kernel)
    have hsound := sound_create hcreate
    have htracks := h sizePrimitives Demo.signer .empty 60 ["status"] 1024 300 gateway hcreate reads
    have hnil := handlers_create hcreate
    have hfresh : Dict.has gateway.handlers reads.definition.name = false := by
      rw [hnil]
      rfl
    have hcalled : Called sizePrimitives ["status"] 1024 300 gateway reads := by
      refine ⟨htracks, fun e he => ?_⟩
      rcases registerTool_fresh (P := sizePrimitives) hfresh with
        ⟨gateway', -, hcall⟩ | ⟨e', hrebuild, -⟩
      · rw [hcall] at he
        cases he
      · obtain ⟨gateway', hok⟩ := rebuildPolicy_of_postInit (P := sizePrimitives)
          (handlers_withTool_ne reads) (postInit_withTool hsound (by decide)
            (by simp [Policy.Names, reads, readTool]))
        rw [hok] at hrebuild
        cases hrebuild
    rcases (called_iff hsound).1.mp hcalled with htaken | ⟨-, -, hextra⟩
    · rw [hfresh] at htaken
      cases htaken
    · have hstatus := hextra (lit "status") (List.mem_singleton_self _)
      rw [has_withTool, hnil] at hstatus
      exact absurd hstatus (by decide)
  · intro h
    obtain ⟨gateway, hcreate⟩ := exists_created [] (by decide +kernel)
    have hfresh : Dict.has gateway.handlers unnamed.definition.name = false := by
      rw [handlers_create hcreate]
      rfl
    rcases registerTool_fresh (P := sizePrimitives) hfresh with
      ⟨gateway', hrebuild, -⟩ | ⟨e, -, hcall⟩
    · have hpost := postInit_of_rebuildPolicy (handlers_withTool_ne unnamed) hrebuild
      have hhas : Dict.has (gateway.withTool unnamed.definition unnamed.handler).handlers [] =
          true := by
        rw [has_withTool]
        rfl
      exact (Policy.valid_of_postInit hpost).allowedActions.1 []
        ((mem_toolPolicy_actions []).mpr hhas) rfl
    · have hsame := h sizePrimitives Demo.signer .empty 60 [] 1024 300 gateway hcreate unnamed e
        (by rw [hcall])
      rw [step, hcall] at hsame
      exact withTool_ne hfresh hsame

end Steps

end GASMCPGateway

end GovernedAutonomy
