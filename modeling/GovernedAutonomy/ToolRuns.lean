import GovernedAutonomy.Binding
import GovernedAutonomy.Delegation

namespace GovernedAutonomy

open Python

-- what a function ends in, and whether except TypeError catches it
inductive WrappedOutcome where
  | returned (result : PyVal)
  | raised (errorType : String) (isTypeError : Bool) (text : Result Str)

namespace WrappedOutcome

def handlerOutcome : WrappedOutcome → HandlerOutcome
  | .returned result => .returned result
  | .raised errorType _ text => .raised errorType text

def isTypeError : WrappedOutcome → Bool
  | .returned _ => false
  | .raised _ caught _ => caught

end WrappedOutcome

-- a Python function: the calls its signature takes, and what its body does with them
structure WrappedFunction where
  bindsKeywords : List PyKey → Bool
  bindsRequest : Bool
  bindsNothing : Bool
  bindingError : ToolArguments → Str
  body : ToolArguments → WrappedOutcome

namespace WrappedFunction

variable (f : WrappedFunction)

def binds : ToolArguments → Bool
  | .keywords arguments =>
      arguments.all (fun m => GASExecutionBarrierTool.isName m.1) &&
        f.bindsKeywords (arguments.map Prod.fst)
  | .request _ => f.bindsRequest
  | .nothing => f.bindsNothing

-- the body is entered once the arguments are bound
def call (arguments : ToolArguments) : List ToolArguments × WrappedOutcome :=
  if f.binds arguments then ([arguments], f.body arguments)
  else ([], .raised "TypeError" true (.ok (f.bindingError arguments)))

def callable (arguments request : PyDict) : List ToolArguments × WrappedOutcome :=
  if arguments.isEmpty then f.call .nothing
  else
    let first := f.call (.keywords arguments)
    if first.2.isTypeError then
      (first.1 ++ (f.call (.request request)).1, (f.call (.request request)).2)
    else first

end WrappedFunction

-- one run of a tool, and what its function was entered with
structure ToolRun where
  governed : GovernedCall
  calls : List ToolArguments

namespace GASExecutionBarrierTool

def mergedContext (tool : GASExecutionBarrierTool) (context : PyDict) : PyDict :=
  Dict.update tool.context context

def runWrapped (P : Primitives) (tool : GASExecutionBarrierTool) (f : WrappedFunction)
    (log : ReplayLog) (now later : ℤ) (nonce : Str) (toolInput : PyVal) (context : PyDict)
    (approvals : Option (List ApprovalArg)) : ToolRun :=
  match normalizeInput P toolInput with
  | .error e => ⟨.refused log e, []⟩
  | .ok arguments =>
      let governed := GovernedCall.perform P tool.issuer tool.boundary log now later nonce
        { request := mergedRequest tool.name arguments (tool.mergedContext context)
          policy := tool.policy
          ttlSeconds := min tool.ttlSeconds tool.policy.maxTtlSeconds
          approvals := approvals }
        (fun request => (f.callable arguments request).2.handlerOutcome)
      ⟨governed, governed.ran.toList.flatMap
        (fun gaa => (f.callable arguments gaa.actionRequest).1)⟩

end GASExecutionBarrierTool

namespace ToolArguments

-- every value the function receives is the one the request has for it
def Within (request : PyDict) : ToolArguments → Prop
  | .keywords arguments => Covers request arguments
  | .request received => received = request
  | .nothing => True

end ToolArguments

structure AsAuthorized (calls : List ToolArguments) (request : PyDict) : Prop where
  once : calls.length ≤ 1
  arguments : ∀ call ∈ calls, call.Within request

section Callable

variable {f : WrappedFunction} {arguments request : PyDict}

theorem WrappedFunction.call_of_binds {call : ToolArguments} (h : f.binds call = true) :
    f.call call = ([call], f.body call) := if_pos h

theorem WrappedFunction.calls_length (call : ToolArguments) : (f.call call).1.length ≤ 1 := by
  unfold WrappedFunction.call
  split
  · exact le_rfl
  · exact Nat.zero_le 1

theorem WrappedFunction.calls_eq {call call' : ToolArguments} (h : call' ∈ (f.call call).1) :
    call' = call := by
  unfold WrappedFunction.call at h
  split at h
  · exact List.mem_singleton.mp h
  · cases h

-- a function that is entered with the arguments themselves is not entered again
def EntersOnce (f : WrappedFunction) (arguments : PyDict) : Prop :=
  (f.body (.keywords arguments)).isTypeError = true → f.bindsRequest = false

theorem asAuthorized_retry (request : PyDict) :
    AsAuthorized (f.call (.request request)).1 request := by
  refine ⟨f.calls_length _, ?_⟩
  intro call hcall
  rw [f.calls_eq hcall]
  rfl

theorem calls_of_not_binds (hne : arguments ≠ [])
    (h : f.binds (.keywords arguments) = false) :
    (f.callable arguments request).1 = (f.call (.request request)).1 := by
  have hfirst : f.call (.keywords arguments) =
      ([], .raised "TypeError" true (.ok (f.bindingError (.keywords arguments)))) := by
    rw [WrappedFunction.call, h]
    rfl
  simp only [WrappedFunction.callable, List.isEmpty_iff, hne, if_false, hfirst,
    WrappedOutcome.isTypeError, if_true, List.nil_append]

theorem calls_of_binds (hne : arguments ≠ []) (h : f.binds (.keywords arguments) = true) :
    (f.callable arguments request).1 = .keywords arguments ::
      if (f.body (.keywords arguments)).isTypeError = true ∧ f.bindsRequest = true then
        [.request request] else [] := by
  simp only [WrappedFunction.callable, List.isEmpty_iff, hne, if_false,
    WrappedFunction.call_of_binds h]
  cases hcaught : (f.body (.keywords arguments)).isTypeError with
  | false => simp
  | true =>
      cases hrequest : f.bindsRequest with
      | false => simp [WrappedFunction.call, WrappedFunction.binds, hrequest]
      | true => simp [WrappedFunction.call, WrappedFunction.binds, hrequest]

theorem asAuthorized_callable_iff (hne : arguments ≠ []) :
    AsAuthorized (f.callable arguments request).1 request ↔
      (f.binds (.keywords arguments) = true →
        EntersOnce f arguments ∧ Covers request arguments) := by
  cases hbinds : f.binds (.keywords arguments) with
  | false =>
      rw [calls_of_not_binds hne hbinds]
      simp [asAuthorized_retry]
  | true =>
      rw [calls_of_binds hne hbinds]
      simp only [forall_const, EntersOnce]
      constructor
      · rintro ⟨honce, harguments⟩
        refine ⟨?_, harguments _ List.mem_cons_self⟩
        intro hcaught
        by_contra hrequest
        rw [if_pos ⟨hcaught, by simpa using hrequest⟩] at honce
        exact absurd honce (by simp)
      · rintro ⟨honce, hcovers⟩
        have hnone : ¬ ((f.body (.keywords arguments)).isTypeError = true ∧
            f.bindsRequest = true) := by
          rintro ⟨hcaught, hrequest⟩
          rw [honce hcaught] at hrequest
          cases hrequest
        rw [if_neg hnone]
        refine ⟨le_rfl, ?_⟩
        intro call hcall
        rw [List.mem_singleton.mp hcall]
        exact hcovers

end Callable

section Request

variable {name : Str} {arguments context request : PyDict} {approvals : Option (List ApprovalArg)}

variable (name context) in
theorem get_mergedRequest (hdict : Dict.Distinct arguments) {key : Str}
    (hkey : key ≠ lit "context") {value : PyVal} (h : PyDict.get arguments key = some value) :
    PyDict.get (mergedRequest name arguments context) key = some value := by
  rw [mergedRequest, PyDict.get_set, if_neg hkey.symm, PyDict.get_update _ _ hdict, h,
    Option.some_or]

theorem get_mergedRequest_context :
    PyDict.get (mergedRequest name arguments context) "context" = some (.dict context) := by
  rw [mergedRequest, PyDict.get_set, if_pos rfl]

-- the context that goes with the call is the one the arguments name, if they name one
def KeepsContext (context arguments : PyDict) : Prop :=
  ∀ value, PyDict.get arguments "context" = some value → SameValue (.dict context) value

-- approvals that are passed beside the arguments are not among them too
def KeepsApprovals (approvals : Option (List ApprovalArg)) (arguments : PyDict) : Prop :=
  approvals = none ∨ PyDict.get arguments "approvals" = none ∨
    approvals = some [] ∧ ∃ items, PyDict.get arguments "approvals" = some (.list items)

theorem sameValue_append {items serialized : List PyVal} :
    SameValue (.list (items ++ serialized)) (.list items) ↔ serialized = [] := by
  constructor
  · intro h
    have hlength : (items ++ serialized).length = items.length := by
      rcases h with h | h
      · rw [PyVal.list.inj h]
      · exact (PyVal.eqItems_iff.mp (by simpa only [PyVal.eq] using h)).length_eq
    rw [List.length_append] at hlength
    exact List.length_eq_zero_iff.mp (by omega)
  · rintro rfl
    exact Or.inl (by rw [List.append_nil])

theorem serialized_eq_nil {approvals : List ApprovalArg} {serialized : List PyVal}
    (h : approvals.mapM AuthorizationIssuer.serialize = .ok serialized) :
    serialized = [] ↔ approvals = [] := by
  cases approvals with
  | nil =>
      obtain rfl := Except.ok.inj h
      simp
  | cons approval approvals =>
      simp only [List.mapM_cons, bind_eq_ok] at h
      obtain ⟨first, -, rest, -, h⟩ := h
      obtain rfl := Except.ok.inj h
      simp

-- what is sent beside the request takes the place of what the arguments say
theorem covers_approvals_iff {value : PyVal} {request' : PyDict}
    (h : AuthorizationIssuer.effectiveRequest request approvals = .ok request')
    (hvalue : request.get "approvals" = some value) :
    (∃ v, request'.get "approvals" = some v ∧ SameValue v value) ↔
      approvals = none ∨ approvals = some [] ∧ ∃ items, value = .list items := by
  unfold AuthorizationIssuer.effectiveRequest at h
  split at h
  · rw [← Except.ok.inj h, hvalue]
    simp [SameValue]
  · rename_i given
    obtain ⟨serialized, hserialized, h⟩ := bind_eq_ok.mp h
    rw [PyDict.getD_of_get hvalue] at h
    simp only [reduceCtorEq, false_or, Option.some.injEq, ← serialized_eq_nil hserialized]
    split at h
    · rw [← Except.ok.inj h, PyDict.get_set, if_pos rfl]
      simp [SameValue, PyVal.eq]
    · rw [← Except.ok.inj h, PyDict.get_set, if_pos rfl]
      simp [sameValue_append]
    · rw [← Except.ok.inj h, PyDict.get_set, if_pos rfl]
      simp [SameValue, PyVal.eq]
    · cases h

theorem covers_merged_iff (hdict : Dict.Distinct arguments)
    (hnames : ∀ m ∈ arguments, GASExecutionBarrierTool.isName m.1 = true)
    (h : AuthorizationIssuer.effectiveRequest (mergedRequest name arguments context) approvals =
      .ok request) :
    Covers request arguments ↔
      KeepsContext context arguments ∧ KeepsApprovals approvals arguments := by
  have hmem : ∀ key value, PyDict.get arguments key = some value →
      (PyKey.str key, value) ∈ arguments := fun _ _ hget => mem_of_get_str hget
  constructor
  · intro hcovers
    constructor
    · intro value hvalue
      obtain ⟨v, hv, hsame⟩ := hcovers _ (hmem _ _ hvalue)
      have hcontext := AuthorizationIssuer.effectiveRequest_get
        (show lit "context" ≠ lit "approvals" by decide) h
      rw [get_mergedRequest_context] at hcontext
      obtain rfl := Option.some.inj (hv.symm.trans hcontext)
      exact hsame
    · cases hvalue : PyDict.get arguments "approvals" with
      | none => exact Or.inr (Or.inl hvalue)
      | some value =>
          have hmerged := get_mergedRequest name context hdict
            (by decide) hvalue
          rcases (covers_approvals_iff h hmerged).mp (hcovers _ (hmem _ _ hvalue)) with
            hnone | ⟨hnil, items, rfl⟩
          · exact Or.inl hnone
          · exact Or.inr (Or.inr ⟨hnil, items, hvalue⟩)
  · rintro ⟨hcontext, happrovals⟩ ⟨key, value⟩ hm
    cases key with
    | str key =>
        have hvalue : PyDict.get arguments key = some value := Dict.get_of_mem hdict hm (by simp)
        by_cases hkey : key = lit "approvals"
        · subst hkey
          have hmerged := get_mergedRequest name context hdict
            (by decide) hvalue
          refine (covers_approvals_iff h hmerged).mpr ?_
          rcases happrovals with hnone | hnone | ⟨hnil, items, hitems⟩
          · exact Or.inl hnone
          · rw [hnone] at hvalue
            cases hvalue
          · rw [hitems] at hvalue
            exact Or.inr ⟨hnil, items, (Option.some.inj hvalue).symm⟩
        · have hkept := AuthorizationIssuer.effectiveRequest_get hkey h
          by_cases hcase : key = lit "context"
          · subst hcase
            rw [get_mergedRequest_context] at hkept
            exact ⟨_, hkept, hcontext value hvalue⟩
          · rw [get_mergedRequest name context hdict hcase hvalue] at hkept
            exact ⟨value, hkept, Or.inl rfl⟩
    | _ => exact absurd (hnames _ hm) (by simp [GASExecutionBarrierTool.isName])

end Request

namespace GASExecutionBarrierTool

variable {P : Primitives} {tool : GASExecutionBarrierTool} {f : WrappedFunction} {log : ReplayLog}
  {now later : ℤ} {nonce : Str} {toolInput : PyVal} {arguments context : PyDict}
  {approvals : Option (List ApprovalArg)} {gaa : Artifact}

-- the wrapped function as the tool sees it: TypeErrors are told by their class alone
def asFunc (f : WrappedFunction) (arguments : ToolArguments) : HandlerOutcome :=
  (f.call arguments).2.handlerOutcome

def NamesTypeErrors (f : WrappedFunction) : Prop :=
  ∀ arguments errorType caught text, f.body arguments = .raised errorType caught text →
    (caught = true ↔ errorType = "TypeError")

theorem caught_iff (h : NamesTypeErrors f) (arguments : ToolArguments) :
    (f.call arguments).2.isTypeError = true ↔
      ∃ text, asFunc f arguments = .raised "TypeError" text := by
  unfold asFunc WrappedFunction.call
  split
  · cases hbody : f.body arguments with
    | returned result => simp [WrappedOutcome.isTypeError, WrappedOutcome.handlerOutcome]
    | raised errorType caught text =>
        simp [WrappedOutcome.isTypeError, WrappedOutcome.handlerOutcome, h _ _ _ _ hbody]
  · simp [WrappedOutcome.isTypeError, WrappedOutcome.handlerOutcome]

theorem callable_asFunc (h : NamesTypeErrors f) (hfunc : tool.func = asFunc f)
    (arguments request : PyDict) :
    tool.callable arguments request = (f.callable arguments request).2.handlerOutcome := by
  simp only [callable, WrappedFunction.callable, hfunc]
  split
  · rfl
  · by_cases hcaught : (f.call (.keywords arguments)).2.isTypeError = true
    · rw [if_pos hcaught]
      have hraised : ∃ text, tool.callKeywords arguments = .raised "TypeError" text := by
        unfold callKeywords
        split
        · rw [hfunc]
          exact (caught_iff h _).mp hcaught
        · exact ⟨_, rfl⟩
      obtain ⟨text, htext⟩ := hraised
      rw [htext]
      rfl
    · rw [if_neg hcaught]
      have hnames : arguments.all (fun m => isName m.1) = true := by
        by_contra hnames
        refine hcaught ?_
        rw [Bool.not_eq_true] at hnames
        rw [WrappedFunction.call, WrappedFunction.binds, hnames]
        rfl
      rw [callKeywords, if_pos hnames, hfunc]
      split
      · rename_i text hraised
        exact absurd ((caught_iff h _).mpr ⟨text, hraised⟩) hcaught
      · rfl

-- the run that counts the calls is the run of the tool
theorem runWrapped_governed (h : NamesTypeErrors f) (hfunc : tool.func = asFunc f) :
    (tool.runWrapped P f log now later nonce toolInput context approvals).governed =
      tool.run P log now later nonce toolInput context approvals := by
  unfold runWrapped run
  cases normalizeInput P toolInput with
  | error e => rfl
  | ok arguments =>
      have hcallable : tool.callable arguments =
          fun request => (f.callable arguments request).2.handlerOutcome :=
        funext (callable_asFunc h hfunc arguments)
      simp only [hcallable, mergedContext]

theorem calls_of_ran (hinput : normalizeInput P toolInput = .ok arguments)
    (hran : (tool.runWrapped P f log now later nonce toolInput context approvals).governed.ran =
      some gaa) :
    (tool.runWrapped P f log now later nonce toolInput context approvals).calls =
      (f.callable arguments gaa.actionRequest).1 := by
  simp only [runWrapped, hinput] at hran ⊢
  rw [hran, Option.toList_some, List.flatMap_singleton]

theorem tool_as_authorized_iff (hinput : normalizeInput P toolInput = .ok arguments)
    (hdict : Dict.Distinct arguments)
    (hran : (tool.runWrapped P f log now later nonce toolInput context approvals).governed.ran =
      some gaa) :
    AsAuthorized (tool.runWrapped P f log now later nonce toolInput context approvals).calls
        gaa.actionRequest ↔
      (arguments ≠ [] → f.binds (.keywords arguments) = true → EntersOnce f arguments ∧
        KeepsContext (tool.mergedContext context) arguments ∧
          KeepsApprovals approvals arguments) := by
  rw [calls_of_ran hinput hran]
  simp only [runWrapped, hinput] at hran
  have hrequest := (GovernedCall.authorizes_of_ran hran).request
  by_cases hne : arguments = []
  · subst hne
    simp only [ne_eq, not_true_eq_false, false_implies, iff_true, WrappedFunction.callable,
      List.isEmpty_nil, if_true]
    refine ⟨f.calls_length _, ?_⟩
    intro call hcall
    rw [f.calls_eq hcall]
    trivial
  · rw [asAuthorized_callable_iff hne]
    simp only [ne_eq, hne, not_false_eq_true, forall_const]
    refine forall_congr' (fun hbinds => and_congr_right (fun _ => ?_))
    refine covers_merged_iff hdict ?_ hrequest
    rw [WrappedFunction.binds, Bool.and_eq_true, List.all_eq_true] at hbinds
    exact hbinds.1

end GASExecutionBarrierTool

section Reentered

-- a function that takes the arguments, does its work and then fails on a type
def failingFunction : WrappedFunction where
  bindsKeywords := fun _ => true
  bindsRequest := true
  bindsNothing := false
  bindingError := fun _ => "missing 1 required positional argument"
  body := fun _ => .raised "TypeError" true (.ok "unsupported operand type(s)")

theorem wrapped_ran (f : WrappedFunction) :
    ∃ gaa, ((barrierTool "read").runWrapped sizePrimitives f {} 0 1 "n-1" (.dict readArguments) []
      none).governed.ran = some gaa := by
  have hrequest : mergedRequest "read" readArguments (Dict.update [] []) = readCall.request := rfl
  simp only [GASExecutionBarrierTool.runWrapped, GASExecutionBarrierTool.normalizeInput,
    GASExecutionBarrierTool.mergedContext, barrierTool, hrequest]
  exact GovernedCall.ran_of_grantable _ readCall_grantable demo_accepts readCall_ttl

theorem tool_as_authorized_iff_demo : ∃ gaa,
    ((barrierTool "read").runWrapped sizePrimitives failingFunction {} 0 1 "n-1"
        (.dict readArguments) [] none).governed.ran = some gaa ∧
      (AsAuthorized ((barrierTool "read").runWrapped sizePrimitives failingFunction {} 0 1 "n-1"
          (.dict readArguments) [] none).calls gaa.actionRequest ↔
        (readArguments ≠ [] → failingFunction.binds (.keywords readArguments) = true →
          EntersOnce failingFunction readArguments ∧
            KeepsContext ((barrierTool "read").mergedContext []) readArguments ∧
              KeepsApprovals none readArguments)) := by
  obtain ⟨gaa, hgaa⟩ := wrapped_ran failingFunction
  exact ⟨gaa, hgaa, GASExecutionBarrierTool.tool_as_authorized_iff rfl
    (List.pairwise_singleton _ _) hgaa⟩

-- under one nonce the function does its work twice
theorem tool_entered_twice :
    ¬ ∀ (P : Primitives) (tool : GASExecutionBarrierTool) (f : WrappedFunction) (toolInput : PyVal)
      (arguments : PyDict), GASExecutionBarrierTool.normalizeInput P toolInput = .ok arguments →
        Dict.Distinct arguments → ∀ log now later nonce context approvals gaa,
          (tool.runWrapped P f log now later nonce toolInput context approvals).governed.ran =
              some gaa →
            AsAuthorized (tool.runWrapped P f log now later nonce toolInput context
              approvals).calls gaa.actionRequest := by
  intro h
  obtain ⟨gaa, hgaa⟩ := wrapped_ran failingFunction
  have hdict : Dict.Distinct readArguments := List.pairwise_singleton _ _
  have honce := (h _ _ _ _ _ rfl hdict _ _ _ _ _ _ gaa hgaa).once
  rw [GASExecutionBarrierTool.calls_of_ran rfl hgaa,
    calls_of_binds (by simp [readArguments, PyDict.ofFields]) rfl, if_pos ⟨rfl, rfl⟩] at honce
  exact absurd honce (by simp)

end Reentered

end GovernedAutonomy
