import GovernedAutonomy.Demo
import GovernedAutonomy.Platform
import GovernedAutonomy.Python.Reordered

namespace GovernedAutonomy

open Python

namespace RuntimeIdentity

def ownedNames : List String :=
  ["tenant_id", "actor_id", "environment", "request_id", "source", "principal_id", "roles",
    "subject", "name", "email", "groups", "issuer", "identity_source", "service_principal",
    "identity_type"]

variable {identity : RuntimeIdentity}

theorem claims_names : identity.claims.map Prod.fst = ownedNames := rfl

theorem get_writeClaims {context : PyDict} {claims : List (String × Option PyVal)} {name : Str} :
    (claims.foldl writeClaim context).get name = none ↔
      context.get name = none ∧ ∀ claim ∈ claims, lit claim.1 = name → claim.2 = none := by
  induction claims generalizing context with
  | nil => simp
  | cons claim claims ih =>
      rw [List.foldl_cons, ih, List.forall_mem_cons]
      obtain ⟨key, value⟩ := claim
      cases value with
      | none => simp [writeClaim]
      | some value =>
          simp only [writeClaim, PyDict.get_set, reduceCtorEq, imp_false]
          by_cases hname : lit key = name
          · simp [hname]
          · simp [hname]

theorem scopeDict_get {name : Str} :
    identity.scopeDict.get name = none ↔ ∀ entry ∈ identity.scope, entry.1 ≠ name := by
  rw [scopeDict, PyDict.get, Dict.get_update, Dict.get_nil, Option.or_none, Dict.get_eq_none]
  simp only [List.mem_reverse, List.forall_mem_map, same_str, decide_eq_false_iff_not, ne_eq]

-- a name that the identity leaves to the caller
theorem context_get_eq_none {name : Str} :
    identity.context.get name = none ↔ (∀ entry ∈ identity.scope, entry.1 ≠ name) ∧
      ∀ claim ∈ identity.claims, lit claim.1 = name → claim.2 = none := by
  rw [context, get_writeClaims, scopeDict_get]

end RuntimeIdentity

open RuntimeIdentity (ownedNames)

def withoutContext (request : PyDict) : PyDict := Dict.erase request (.str (lit "context"))

def isOther (key : PyKey) : Bool := !PyDict.isNamed (ownedNames.map lit) key

-- two requests that differ in identity entries of their contexts only
structure Differ (request request' : PyDict) : Prop where
  distinct : Dict.Distinct request
  rest : (withoutContext request).Perm (withoutContext request')
  contexts : ∃ context context', requestContext request = .ok context ∧
    requestContext request' = .ok context' ∧ Dict.Distinct context ∧ Dict.Distinct context' ∧
      (Dict.part isOther context).Perm (Dict.part isOther context')

-- one request, written in another order of its keys and of its context's
structure SameRequest (request request' : PyDict) : Prop where
  rest : (withoutContext request).Perm (withoutContext request')
  context : ∃ context context', request.get "context" = some (.dict context) ∧
    request'.get "context" = some (.dict context') ∧ context.Perm context'

-- the callers agree on every identity entry that nothing laid over their contexts sets
def Agree (layers : List PyDict) (request request' : PyDict) : Prop :=
  ∀ context context', requestContext request = .ok context →
    requestContext request' = .ok context' → ∀ name ∈ ownedNames,
      (∀ layer ∈ layers, PyDict.get layer (lit name) = none) →
        PyDict.get context (lit name) = PyDict.get context' (lit name)

def bound (layers : List PyDict) (request : PyDict) : Result PyDict := do
  let context ← requestContext request
  .ok (GovernancePlatform.withContext request (Dict.overlay context layers))

theorem bound_eq_ok {layers : List PyDict} {request effective : PyDict} :
    bound layers request = .ok effective ↔ ∃ context, requestContext request = .ok context ∧
      effective = GovernancePlatform.withContext request (Dict.overlay context layers) := by
  rw [bound, bind_eq_ok]
  exact exists_congr (fun context => and_congr_right (fun _ => by rw [Except.ok.injEq, eq_comm]))

section WithContext

variable {request request' context context' : PyDict}

open GovernancePlatform (withContext)

theorem withoutContext_withContext :
    withoutContext (withContext request context) = withoutContext request :=
  Dict.erase_set request (by simp) _

theorem get_withContext : (withContext request context).get "context" = some (.dict context) := by
  rw [withContext, PyDict.get_set, if_pos rfl]

theorem sameRequest_withContext (hrest : (withoutContext request).Perm (withoutContext request')) :
    SameRequest (withContext request context) (withContext request' context') ↔
      context.Perm context' := by
  constructor
  · rintro ⟨-, c, c', hc, hc', hperm⟩
    rw [get_withContext] at hc hc'
    cases hc
    cases hc'
    exact hperm
  · intro hperm
    refine ⟨?_, context, context', get_withContext, get_withContext, hperm⟩
    rwa [withoutContext_withContext, withoutContext_withContext]

theorem getD_of_rest (hdistinct : Dict.Distinct request)
    (hrest : (withoutContext request).Perm (withoutContext request')) {name : String}
    (hname : name ≠ "context") : request.getD (lit name) = request'.getD (lit name) := by
  have herase : ∀ d : PyDict, PyDict.get (withoutContext d) (lit name) = d.get (lit name) := by
    intro d
    rw [PyDict.get, withoutContext, Dict.get_erase, if_neg]
    · rfl
    · simpa using hname.symm
  have hget : PyDict.get (withoutContext request) (lit name) =
      PyDict.get (withoutContext request') (lit name) :=
    Dict.get_perm (Dict.distinct_filter hdistinct _) hrest _
  rw [PyDict.getD, PyDict.getD, ← herase request, ← herase request', hget]

end WithContext

section Bound

variable {request request' effective : PyDict} {layers : List PyDict}

theorem Differ.bound_same_iff (h : Differ request request')
    (heffective : bound layers request = .ok effective) :
    ∃ effective', bound layers request' = .ok effective' ∧
      (SameRequest effective effective' ↔ Agree layers request request') := by
  obtain ⟨context, context', hcontext, hcontext', hdistinct, hdistinct', hother⟩ := h.contexts
  obtain ⟨c, hc, rfl⟩ := bound_eq_ok.mp heffective
  obtain rfl := Except.ok.inj (hcontext.symm.trans hc)
  refine ⟨_, bound_eq_ok.mpr ⟨context', hcontext', rfl⟩, ?_⟩
  rw [sameRequest_withContext h.rest,
    PyDict.overlay_perm_iff hdistinct hdistinct' (ownedNames.map lit) hother, List.forall_mem_map]
  constructor
  · intro hagree d d' hd hd'
    obtain rfl := Except.ok.inj (hcontext.symm.trans hd)
    obtain rfl := Except.ok.inj (hcontext'.symm.trans hd')
    exact hagree
  · intro hagree
    exact hagree context context' hcontext hcontext'

end Bound

section Validation

variable {P : Primitives} {context context' : PyDict}

theorem ServicePrincipalRegistry.validateRuntime_congr {registry : ServicePrincipalRegistry}
    {identity : RuntimeIdentity} {action : PyVal}
    (hget : ∀ name, context.get name = context'.get name) :
    registry.validateRuntime P identity action context =
      registry.validateRuntime P identity action context' := by
  have hscope : ∀ principal, checkScope P principal context = checkScope P principal context' := by
    intro principal
    have hhas : ∀ key, context.has key = context'.has key := by
      intro key
      rw [PyDict.has, PyDict.has, hget]
    unfold checkScope
    simp only [hhas]
  simp only [validateRuntime, hget, hscope]

theorem PlatformDeploymentPolicy.validateRuntime_congr {deployment : PlatformDeploymentPolicy}
    {identity : RuntimeIdentity} {action : PyVal} {inputs : List GovernanceInput}
    (hget : ∀ name, context.get name = context'.get name)
    (hlength : context.length = context'.length) :
    deployment.validateRuntime P identity context action inputs =
      deployment.validateRuntime P identity context' action inputs := by
  simp only [validateRuntime, hget, hlength]

theorem GovernancePlatform.validateRuntime_congr {platform : GovernancePlatform}
    {request request' : PyDict} {inputs : List GovernanceInput} (hcontext : context.Perm context')
    (hdistinct : Dict.Distinct context)
    (haction : request.getD "action" = request'.getD "action") :
    platform.validateRuntime P (withContext request context) inputs =
      platform.validateRuntime P (withContext request' context') inputs := by
  have hget : ∀ name, context.get name = context'.get name := by
    intro name
    exact Dict.get_perm hdistinct hcontext _
  have hrequest : ∀ r c, requestContext (withContext r c) = .ok c := by
    intro r c
    rw [requestContext, get_withContext]
  have hkeep : ∀ r c, (withContext r c).getD "action" = r.getD "action" := by
    intro r c
    rw [withContext, PyDict.getD, PyDict.get_set, if_neg (by simp), PyDict.getD]
  simp only [validateRuntime, hrequest, hkeep, haction, bind, Except.bind, validatePrincipal,
    ServicePrincipalRegistry.validateRuntime_congr hget,
    PlatformDeploymentPolicy.validateRuntime_congr hget hcontext.length_eq]

end Validation

section Routes

variable {P : Primitives} {request request' : PyDict}

theorem GovernedService.issuerCall_eq_ok {service : GovernedService} {policyId : Str} {ttl : ℤ}
    {approvals : Option (List ApprovalArg)} {inputs : List GovernanceInput} {call : AuthorizeCall} :
    service.issuerCall P request (.str policyId) ttl approvals inputs = .ok call ↔
      ∃ policy, Dict.get service.policies.policies policyId = some policy ∧
        call = ⟨request, policy, ttl, approvals, inputs⟩ := by
  have hlookup : service.policies.getPolicy (.str policyId) =
      .ok (Dict.get service.policies.policies policyId) := rfl
  rw [issuerCall, hlookup]
  cases Dict.get service.policies.policies policyId with
  | none => simp [bind, Except.bind, Interpreter.str]
  | some policy => simp [bind, Except.bind, eq_comm]

theorem GovernancePlatform.issuerCall_eq_ok {platform : GovernancePlatform} {policyId : Str}
    {ttl : ℤ} {approvals : Option (List ApprovalArg)} {context : PyDict}
    {inputs : List GovernanceInput} {call : AuthorizeCall} :
    platform.issuerCall P request policyId ttl approvals context inputs = .ok call ↔
      bound [context, platform.identity.context] request = .ok call.request ∧
        platform.validateRuntime P call.request inputs = .ok () ∧
          platform.service.issuerCall P call.request (.str policyId) ttl approvals inputs =
            .ok call := by
  have hbound : platform.effectiveRequest request context =
      bound [context, platform.identity.context] request := rfl
  simp only [issuerCall, bind_eq_ok, hbound]
  constructor
  · rintro ⟨effective, heffective, ⟨⟩, hvalid, hcall⟩
    obtain ⟨policy, -, rfl⟩ := GovernedService.issuerCall_eq_ok.mp hcall
    exact ⟨heffective, hvalid, hcall⟩
  · rintro ⟨heffective, hvalid, hcall⟩
    exact ⟨call.request, heffective, (), hvalid, hcall⟩

theorem Differ.platform_same_iff (h : Differ request request') {platform : GovernancePlatform}
    {policyId : Str} {ttl : ℤ} {approvals : Option (List ApprovalArg)} {context : PyDict}
    {inputs : List GovernanceInput} {call : AuthorizeCall}
    (hcall : platform.issuerCall P request policyId ttl approvals context inputs = .ok call) :
    (∃ call', platform.issuerCall P request' policyId ttl approvals context inputs = .ok call' ∧
      SameRequest call.request call'.request) ↔
        Agree [context, platform.identity.context] request request' := by
  obtain ⟨heffective, hvalid, hissuer⟩ := GovernancePlatform.issuerCall_eq_ok.mp hcall
  obtain ⟨policy, hpolicy, -⟩ := GovernedService.issuerCall_eq_ok.mp hissuer
  obtain ⟨effective', heffective', hsame⟩ := h.bound_same_iff heffective
  rw [← hsame]
  constructor
  · rintro ⟨call', hcall', hrequests⟩
    have hbound' := (GovernancePlatform.issuerCall_eq_ok.mp hcall').1
    rw [Except.ok.inj (heffective'.symm.trans hbound')]
    exact hrequests
  · intro hrequests
    refine ⟨⟨effective', policy, ttl, approvals, inputs⟩, ?_, hrequests⟩
    refine GovernancePlatform.issuerCall_eq_ok.mpr ⟨heffective', ?_,
      GovernedService.issuerCall_eq_ok.mpr ⟨policy, hpolicy, rfl⟩⟩
    obtain ⟨c, hc, hrequest⟩ := bound_eq_ok.mp heffective
    obtain ⟨c', hc', rfl⟩ := bound_eq_ok.mp heffective'
    rw [hrequest, sameRequest_withContext h.rest] at hrequests
    rw [hrequest] at hvalid
    obtain ⟨d, -, hd, -, hdistinct, -⟩ := h.contexts
    obtain rfl := Except.ok.inj (hc.symm.trans hd)
    rw [← hvalid]
    exact (GovernancePlatform.validateRuntime_congr hrequests
      (Dict.distinct_overlay hdistinct _) (getD_of_rest h.distinct h.rest (by decide))).symm

theorem AuthorizeRoute.serviceCall_eq_ok {identity : RuntimeIdentity} {payload : PyDict}
    {call : RouteCall} :
    serviceCall P (some identity) (payload.set "request" (.dict request)) = .ok call ↔
      bound [identity.context] request = .ok call.request ∧
        ∃ inputs policyId, readInputs P payload = .ok inputs ∧
          item payload "policy_id" = .ok policyId ∧
            call = ⟨call.request, policyId, (payload.get "ttl_seconds").getD (.int 300),
              payload.getD "approvals", inputs⟩ := by
  have hget : ∀ name : String, name ≠ "request" →
      (payload.set "request" (.dict request)).get (lit name) = payload.get (lit name) := by
    intro name hname
    rw [PyDict.get_set, if_neg (by simpa using hname.symm)]
  have hinputs : readInputs P (payload.set "request" (.dict request)) = readInputs P payload := by
    simp only [readInputs, PyDict.getD, hget "mesh_inputs" (by decide)]
  have hrequest : readRequest (payload.set "request" (.dict request)) = .ok request := by
    rw [readRequest, item, PyDict.get_set, if_pos rfl]
    rfl
  have hpolicy : item (payload.set "request" (.dict request)) "policy_id" =
      item payload "policy_id" := by
    simp only [item, hget "policy_id" (by decide)]
  have hbound : boundRequest (some identity) request = bound [identity.context] request := rfl
  simp only [serviceCall, bind_eq_ok, hinputs, hrequest, hpolicy, PyDict.getD,
    hget "ttl_seconds" (by decide), hget "approvals" (by decide)]
  constructor
  · rintro ⟨inputs, hread, _, hsame, effective, heffective, policyId, hitem, h⟩
    obtain rfl := Except.ok.inj hsame
    obtain rfl := Except.ok.inj h
    exact ⟨heffective, inputs, policyId, hread, hitem, rfl⟩
  · rintro ⟨heffective, inputs, policyId, hread, hitem, h⟩
    exact ⟨inputs, hread, request, rfl, call.request, heffective, policyId, hitem,
      congrArg Except.ok h.symm⟩

theorem Differ.route_same_iff (h : Differ request request') {identity : RuntimeIdentity}
    {payload : PyDict} {call : RouteCall}
    (hcall : AuthorizeRoute.serviceCall P (some identity)
      (payload.set "request" (.dict request)) = .ok call) :
    (∃ call', AuthorizeRoute.serviceCall P (some identity)
        (payload.set "request" (.dict request')) = .ok call' ∧
      SameRequest call.request call'.request) ↔ Agree [identity.context] request request' := by
  obtain ⟨heffective, inputs, policyId, hread, hitem, -⟩ :=
    AuthorizeRoute.serviceCall_eq_ok.mp hcall
  obtain ⟨effective', heffective', hsame⟩ := h.bound_same_iff heffective
  rw [← hsame]
  constructor
  · rintro ⟨call', hcall', hrequests⟩
    have hbound' := (AuthorizeRoute.serviceCall_eq_ok.mp hcall').1
    rw [Except.ok.inj (heffective'.symm.trans hbound')]
    exact hrequests
  · intro hrequests
    exact ⟨⟨effective', policyId, _, _, inputs⟩, AuthorizeRoute.serviceCall_eq_ok.mpr
      ⟨heffective', inputs, policyId, hread, hitem, rfl⟩, hrequests⟩

-- what the callers can change in what is handed on is what nothing laid over it sets
theorem identity_bound_iff (h : Differ request request') :
    (∀ (platform : GovernancePlatform) (policyId : Str) (ttl : ℤ)
        (approvals : Option (List ApprovalArg)) (context : PyDict) (inputs : List GovernanceInput)
        (call : AuthorizeCall),
      platform.issuerCall P request policyId ttl approvals context inputs = .ok call →
        ((∃ call', platform.issuerCall P request' policyId ttl approvals context inputs =
            .ok call' ∧ SameRequest call.request call'.request) ↔
          Agree [context, platform.identity.context] request request')) ∧
    ∀ (identity : RuntimeIdentity) (payload : PyDict) (call : RouteCall),
      AuthorizeRoute.serviceCall P (some identity) (payload.set "request" (.dict request)) =
          .ok call →
        ((∃ call', AuthorizeRoute.serviceCall P (some identity)
            (payload.set "request" (.dict request')) = .ok call' ∧
            SameRequest call.request call'.request) ↔
          Agree [identity.context] request request') := by
  constructor
  · intro platform policyId ttl approvals context inputs call hcall
    exact h.platform_same_iff hcall
  · intro identity payload call hcall
    exact h.route_same_iff hcall

end Routes

section Unattributed

def serviceIdentity : RuntimeIdentity := { requestId := some "req-1", actorId := some "svc-1" }

def plainRequest : PyDict := PyDict.ofFields [("action", .str "send_email")]

def tenantContext : PyDict := PyDict.ofFields [("tenant_id", .str "tenant-b")]

def tenantRequest : PyDict :=
  PyDict.ofFields [("action", .str "send_email"), ("context", .dict tenantContext)]

def demoPlatform : GovernancePlatform where
  service :=
    { issuer := { issuer := Demo.signer }
      boundary := Demo.boundary
      policies := { policies := [("demo-v1", Demo.policy)] }
      actions := [] }
  identity := serviceIdentity

def demoPayload : PyDict := PyDict.ofFields [("policy_id", .str "demo-v1")]

theorem plain_differ_tenant : Differ plainRequest tenantRequest := by
  have hdistinct : Dict.Distinct plainRequest := List.pairwise_singleton _ _
  have htenant : Dict.Distinct tenantContext := List.pairwise_singleton _ _
  have hrest : withoutContext plainRequest = withoutContext tenantRequest := by
    simp [withoutContext, plainRequest, tenantRequest, PyDict.ofFields, Dict.erase]
  refine ⟨hdistinct, .of_eq hrest, [], tenantContext, ?_, ?_, .nil, htenant, ?_⟩
  · simp [requestContext, plainRequest]
  · simp [requestContext, tenantRequest]
  · have howned : PyDict.isNamed (ownedNames.map lit) (.str (lit "tenant_id")) = true :=
      PyDict.isNamed_iff.mpr ⟨_, List.mem_map_of_mem List.mem_cons_self, rfl⟩
    simp [Dict.part, isOther, tenantContext, PyDict.ofFields, howned]

theorem serviceIdentity_tenant : serviceIdentity.context.get "tenant_id" = none := by
  refine RuntimeIdentity.context_get_eq_none.mpr ⟨by simp [serviceIdentity], ?_⟩
  simp [RuntimeIdentity.claims, serviceIdentity, RuntimeIdentity.strClaim,
    RuntimeIdentity.listClaim]

theorem plain_not_agree_tenant (layers : List PyDict)
    (hlayers : ∀ layer ∈ layers, PyDict.get layer "tenant_id" = none) :
    ¬ Agree layers plainRequest tenantRequest := by
  intro h
  have hplain : requestContext plainRequest = .ok [] := by simp [requestContext, plainRequest]
  have htenant : requestContext tenantRequest = .ok tenantContext := by
    simp [requestContext, tenantRequest]
  have hget := h [] tenantContext hplain htenant "tenant_id" List.mem_cons_self hlayers
  have hempty : PyDict.get [] "tenant_id" = none := rfl
  rw [hempty] at hget
  simp [tenantContext] at hget

theorem demoPlatform_hands : ∃ call, demoPlatform.issuerCall referencePrimitives plainRequest
    "demo-v1" 300 none [] [] = .ok call :=
  exists_of_toOption (by decide +kernel)

theorem demoPayload_hands : ∃ call, AuthorizeRoute.serviceCall referencePrimitives
    (some serviceIdentity) (demoPayload.set "request" (.dict plainRequest)) = .ok call :=
  exists_of_toOption (by decide +kernel)

theorem identity_bound_iff_demo :
    (∃ call, demoPlatform.issuerCall referencePrimitives plainRequest "demo-v1" 300 none [] [] =
        .ok call ∧
      ((∃ call', demoPlatform.issuerCall referencePrimitives tenantRequest "demo-v1" 300 none []
          [] = .ok call' ∧ SameRequest call.request call'.request) ↔
        Agree [[], serviceIdentity.context] plainRequest tenantRequest)) ∧
    ∃ call, AuthorizeRoute.serviceCall referencePrimitives (some serviceIdentity)
        (demoPayload.set "request" (.dict plainRequest)) = .ok call ∧
      ((∃ call', AuthorizeRoute.serviceCall referencePrimitives (some serviceIdentity)
          (demoPayload.set "request" (.dict tenantRequest)) = .ok call' ∧
          SameRequest call.request call'.request) ↔
        Agree [serviceIdentity.context] plainRequest tenantRequest) := by
  obtain ⟨call, hcall⟩ := demoPlatform_hands
  obtain ⟨routed, hrouted⟩ := demoPayload_hands
  have hbound := identity_bound_iff (P := referencePrimitives) plain_differ_tenant
  exact ⟨⟨call, hcall, hbound.1 demoPlatform "demo-v1" 300 none [] [] call hcall⟩,
    routed, hrouted, hbound.2 serviceIdentity demoPayload routed hrouted⟩

-- nothing that differs in identity entries only is told apart by what is handed on
def CallerBlind (handed : PyDict → Result PyDict) : Prop :=
  ∀ request request' effective, Differ request request' → handed request = .ok effective →
    ∃ effective', handed request' = .ok effective' ∧ SameRequest effective effective'

theorem identity_not_bound :
    (¬ ∀ (platform : GovernancePlatform) (policyId : Str) (ttl : ℤ)
      (approvals : Option (List ApprovalArg)) (context : PyDict) (inputs : List GovernanceInput),
      CallerBlind (fun request => (platform.issuerCall referencePrimitives request policyId ttl
        approvals context inputs).map AuthorizeCall.request)) ∧
    ¬ ∀ (identity : RuntimeIdentity) (payload : PyDict),
      CallerBlind (fun request => (AuthorizeRoute.serviceCall referencePrimitives (some identity)
        (payload.set "request" (.dict request))).map RouteCall.request) := by
  constructor
  · intro hblind
    obtain ⟨call, hcall⟩ := demoPlatform_hands
    obtain ⟨effective', hhanded, hsame⟩ := hblind demoPlatform "demo-v1" 300 none [] [] plainRequest
      tenantRequest call.request plain_differ_tenant (map_eq_ok.mpr ⟨call, hcall, rfl⟩)
    obtain ⟨call', hcall', rfl⟩ := map_eq_ok.mp hhanded
    refine plain_not_agree_tenant [[], serviceIdentity.context] ?_
      ((plain_differ_tenant.platform_same_iff hcall).mp ⟨call', hcall', hsame⟩)
    simp only [List.forall_mem_cons, List.not_mem_nil, IsEmpty.forall_iff, implies_true, and_true]
    exact ⟨rfl, serviceIdentity_tenant⟩
  · intro hblind
    obtain ⟨call, hcall⟩ := demoPayload_hands
    obtain ⟨effective', hhanded, hsame⟩ := hblind serviceIdentity demoPayload plainRequest
      tenantRequest call.request plain_differ_tenant (map_eq_ok.mpr ⟨call, hcall, rfl⟩)
    obtain ⟨call', hcall', rfl⟩ := map_eq_ok.mp hhanded
    refine plain_not_agree_tenant [serviceIdentity.context] ?_
      ((plain_differ_tenant.route_same_iff hcall).mp ⟨call', hcall', hsame⟩)
    simp only [List.forall_mem_cons, List.not_mem_nil, IsEmpty.forall_iff, implies_true, and_true]
    exact serviceIdentity_tenant

end Unattributed

end GovernedAutonomy
