import GovernedAutonomy.Binding
import GovernedAutonomy.Identity

namespace GovernedAutonomy

open Python

namespace RuntimeIdentity

variable {identity : RuntimeIdentity}

theorem get_writeClaims_of_not_mem {claims : List (String × Option PyVal)} {name : String}
    (h : name ∉ claims.map Prod.fst) {context : PyDict} :
    (claims.foldl writeClaim context).get (lit name) = context.get (lit name) := by
  induction claims generalizing context with
  | nil => rfl
  | cons claim claims ih =>
      rw [List.map_cons, List.mem_cons, not_or] at h
      rw [List.foldl_cons, ih h.2]
      obtain ⟨key, value⟩ := claim
      cases value with
      | none => rfl
      | some value => rw [writeClaim, PyDict.get_set, if_neg (by simpa using Ne.symm h.1)]

theorem get_writeClaims_of_mem {claims : List (String × Option PyVal)} {name : String}
    {value : PyVal} (hnodup : (claims.map Prod.fst).Nodup) (h : (name, some value) ∈ claims)
    {context : PyDict} : (claims.foldl writeClaim context).get (lit name) = some value := by
  induction claims generalizing context with
  | nil => cases h
  | cons claim claims ih =>
      rw [List.map_cons, List.nodup_cons] at hnodup
      rw [List.foldl_cons]
      rcases List.mem_cons.mp h with rfl | h
      · rw [get_writeClaims_of_not_mem hnodup.1, writeClaim, PyDict.get_set, if_pos rfl]
      · exact ih hnodup.2 h

theorem context_get_of_claim {name : String} {value : PyVal}
    (h : (name, some value) ∈ identity.claims) : identity.context.get (lit name) = some value :=
  get_writeClaims_of_mem (by rw [claims_names]; decide) h

theorem context_get_environment_eq :
    identity.context.get "environment" = some (.str identity.environment) := by
  refine context_get_of_claim ?_
  simp [claims]

theorem context_get_tenant {tenant : Str} (h : identity.tenantId = some tenant) :
    identity.context.get "tenant_id" = some (.str tenant) := by
  refine context_get_of_claim ?_
  simp [claims, strClaim, h]

theorem distinct_writeClaims (claims : List (String × Option PyVal)) {context : PyDict}
    (h : Dict.Distinct context) : Dict.Distinct (claims.foldl writeClaim context) := by
  induction claims generalizing context with
  | nil => exact h
  | cons claim claims ih =>
      obtain ⟨key, value⟩ := claim
      cases value with
      | none => exact ih h
      | some value => exact ih (Dict.distinct_set h _ _)

theorem distinct_context : Dict.Distinct identity.context :=
  distinct_writeClaims _ (Dict.distinct_update .nil _)

end RuntimeIdentity

-- the restrictions of a principal that a request has to meet whatever it says of its source
structure ServicePrincipal.Confines (principal : ServicePrincipal) (request context : PyDict) :
    Prop where
  carries : request.get "context" = some (.dict context)
  action : principal.allowedActions ≠ [] →
    ∃ action ∈ principal.allowedActions, request.getD "action" = .str action
  tenant : ∀ tenant, principal.tenantId = some tenant →
    context.get "tenant_id" = some (.str tenant)
  environment : principal.allowedEnvironments ≠ [] →
    ∃ environment ∈ principal.allowedEnvironments, context.get "environment" =
      some (.str environment)
  scope : ∀ key ∈ principal.scope, context.has key = true

def ServicePrincipal.NamesSource (principal : ServicePrincipal) (context : PyDict) : Prop :=
  principal.allowedSources ≠ [] →
    ∃ source ∈ principal.allowedSources, context.get "source" = some (.str source)

-- a request that names no source is not held to the allowed ones
def ServicePrincipal.KeepsSource (principal : ServicePrincipal) (context : PyDict) : Prop :=
  context.getD "source" ≠ .none → principal.NamesSource context

theorem isOneOf_eq_true {allowed : List Str} {value : PyVal} :
    isOneOf allowed value = true ↔ ∃ text ∈ allowed, value = .str text := by
  simp only [isOneOf, List.any_eq_true, PyVal.eq_str_right]

namespace ServicePrincipalRegistry

variable {P : Primitives} {registry : ServicePrincipalRegistry} {identity : RuntimeIdentity}
  {principal : ServicePrincipal} {principalId : Str} {action : PyVal} {context : PyDict}

theorem refuseWith_ne_ok {before : String} {value : PyVal} {after : Str} {u : Unit} :
    refuseWith before value after P ≠ .ok u := by
  intro h
  obtain ⟨text, -, h⟩ := bind_eq_ok.mp h
  cases h

theorem checkTenant_eq_ok {u : Unit} (h : checkTenant P principalId principal identity = .ok u)
    {tenant : Str} (htenant : principal.tenantId = some tenant) :
    identity.tenantId = some tenant := by
  unfold checkTenant at h
  rw [htenant] at h
  cases hidentity : identity.tenantId with
  | none =>
      rw [hidentity] at h
      cases h
  | some other =>
      rw [hidentity, raiseIf_eq_ok, ne_eq, not_not] at h
      rw [h]

theorem checkAllowed_eq_ok {allowed : List Str} {name refusal : String} {value : PyVal} {u : Unit}
    (h : checkAllowed P allowed name value refusal principalId = .ok u) (hallowed : allowed ≠ []) :
    ∃ text ∈ allowed, value = .str text := by
  unfold checkAllowed at h
  split at h
  · rename_i hpass
    rw [Bool.or_eq_true, List.isEmpty_iff] at hpass
    exact isOneOf_eq_true.mp (hpass.resolve_left hallowed)
  · exact absurd h refuseWith_ne_ok

theorem checkGiven_eq_ok {allowed : List Str} {name refusal : String} {value : PyVal} {u : Unit}
    (h : checkGiven P allowed name value refusal principalId = .ok u) (hvalue : value ≠ .none)
    (hallowed : allowed ≠ []) : ∃ text ∈ allowed, value = .str text := by
  unfold checkGiven at h
  split at h
  · exact absurd rfl hvalue
  · exact checkAllowed_eq_ok h hallowed

theorem checkScope_eq_ok {u : Unit} (h : checkScope P principal context = .ok u) :
    ∀ key ∈ principal.scope, context.has key = true := by
  unfold checkScope at h
  simp only [List.isEmpty_iff, List.filter_eq_nil_iff, Bool.not_eq_true', Bool.not_eq_false] at h
  split at h
  · assumption
  · exact absurd h refuseWith_ne_ok

-- all that a runtime has passed once the registry lets it through
structure Admits (registry : ServicePrincipalRegistry) (identity : RuntimeIdentity)
    (action : PyVal) (context : PyDict) (principal : ServicePrincipal) : Prop where
  registered : ∃ principalId, identity.principalId = some principalId ∧
    Dict.get registry.principals principalId = some principal
  tenant : ∀ tenant, principal.tenantId = some tenant → identity.tenantId = some tenant
  action : action ≠ .none → principal.allowedActions ≠ [] →
    ∃ text ∈ principal.allowedActions, action = .str text
  environment : principal.allowedEnvironments ≠ [] →
    ∃ text ∈ principal.allowedEnvironments,
      (context.get "environment").getD (.str identity.environment) = .str text
  source : (context.get "source").getD (optStr identity.source) ≠ .none →
    principal.allowedSources ≠ [] → ∃ text ∈ principal.allowedSources,
      (context.get "source").getD (optStr identity.source) = .str text
  scope : ∀ key ∈ principal.scope, context.has key = true

theorem admits_of_validateRuntime {u : Unit}
    (h : registry.validateRuntime P identity action context = .ok u) :
    ∃ principal, registry.Admits identity action context principal := by
  unfold validateRuntime at h
  split at h
  · cases h
  · rename_i principalId hid
    simp only [bind_eq_ok] at h
    obtain ⟨principal, hprincipal, _, htenant, _, haction, _, henvironment, _, hsource, hscope⟩ :=
      h
    have hregistered : Dict.get registry.principals principalId = some principal := by
      unfold getPrincipal at hprincipal
      split at hprincipal
      · rename_i hget
        rw [hget, Except.ok.inj hprincipal]
      · cases hprincipal
    exact ⟨principal, ⟨principalId, hid, hregistered⟩, fun _ => checkTenant_eq_ok htenant,
      checkGiven_eq_ok haction, checkAllowed_eq_ok henvironment, checkGiven_eq_ok hsource,
      checkScope_eq_ok hscope⟩

end ServicePrincipalRegistry

namespace GovernancePlatform

variable {P : Primitives} {platform : GovernancePlatform} {registry : ServicePrincipalRegistry}
  {request effective context : PyDict} {inputs : List GovernanceInput}

theorem effectiveRequest_eq_ok (h : platform.effectiveRequest request context = .ok effective) :
    ∃ bound : PyDict, effective.get "context" = some (.dict bound) ∧
      ∀ name : Str, bound.get name =
        (platform.identity.context.get name).or (bound.get name) := by
  obtain ⟨requested, -, h⟩ := bind_eq_ok.mp h
  obtain rfl := Except.ok.inj h
  refine ⟨_, get_withContext, ?_⟩
  intro name
  rw [PyDict.get_update _ _ RuntimeIdentity.distinct_context]
  cases platform.identity.context.get name <;> rfl

theorem admits_of_validateRuntime {u : Unit} (hregistry : platform.principalRegistry = some registry)
    (hcontext : request.get "context" = some (.dict context))
    (h : platform.validateRuntime P request inputs = .ok u) :
    ∃ principal, registry.Admits platform.identity (request.getD "action") context principal := by
  simp only [validateRuntime, bind_eq_ok] at h
  obtain ⟨c, hc, _, hprincipal, -⟩ := h
  rw [requestContext, hcontext] at hc
  obtain rfl := Except.ok.inj hc
  simp only [validatePrincipal, hregistry] at hprincipal
  exact ServicePrincipalRegistry.admits_of_validateRuntime hprincipal

theorem confines_of_admits {principal : ServicePrincipal}
    (h : registry.Admits platform.identity (request.getD "action") context principal)
    (hcontext : request.get "context" = some (.dict context))
    (hidentity : ∀ name : Str, context.get name =
      (platform.identity.context.get name).or (context.get name))
    (haction : request.getD "action" ≠ .none) :
    principal.Confines request context ∧ principal.KeepsSource context := by
  have henvironment : context.get "environment" = some (.str platform.identity.environment) := by
    rw [hidentity, RuntimeIdentity.context_get_environment_eq, Option.some_or]
  constructor
  · refine ⟨hcontext, h.action haction, ?_, ?_, h.scope⟩
    · intro tenant htenant
      rw [hidentity, RuntimeIdentity.context_get_tenant (h.tenant tenant htenant), Option.some_or]
    · intro hallowed
      obtain ⟨text, htext, hequal⟩ := h.environment hallowed
      rw [henvironment, Option.getD_some] at hequal
      exact ⟨text, htext, henvironment.trans (congrArg some hequal)⟩
  · intro hsource hallowed
    cases hget : context.get "source" with
    | none =>
        rw [PyDict.getD, hget] at hsource
        exact absurd rfl hsource
    | some value =>
        have hkeeps := h.source
        rw [hget, Option.getD_some] at hkeeps
        rw [PyDict.getD, hget, Option.getD_some] at hsource
        obtain ⟨text, htext, rfl⟩ := hkeeps hsource hallowed
        exact ⟨text, htext, rfl⟩

-- what the platform signs is within the restrictions of the principal it signs for
theorem signed_within_limits {log : ReplayLog} {now : ℤ} {nonce policyId : Str} {ttl : ℤ}
    {approvals : Option (List ApprovalArg)} {artifact : Artifact}
    (hregistry : platform.principalRegistry = some registry)
    (h : (platform.authorize P log now nonce request policyId ttl approvals context
      inputs).result = .ok artifact) :
    ∃ principalId principal signed, platform.identity.principalId = some principalId ∧
      Dict.get registry.principals principalId = some principal ∧
        principal.Confines artifact.actionRequest signed ∧ principal.KeepsSource signed := by
  unfold authorize at h
  split at h
  · cases h
  · rename_i call hcall
    obtain ⟨hrequest, decision, hdecide, hallow⟩ := AuthorizationIssuer.authorizes_of_result h
    obtain ⟨heffective, hvalid, -⟩ := issuerCall_eq_ok.mp hcall
    obtain ⟨carried, hcarried, hidentity⟩ := effectiveRequest_eq_ok heffective
    have hkeep : ∀ name : Str, name ≠ lit "approvals" →
        artifact.actionRequest.getD name = call.request.getD name :=
      fun name hname => AuthorizationIssuer.effectiveRequest_getD hname hrequest
    have haction : call.request.getD "action" ≠ .none := by
      intro hnone
      have hallowed := (AuthorizationIssuer.decide_fields hdecide).2.2.2 hallow
      rw [hkeep _ (by simp), hnone] at hallowed
      simp only [DeterministicArbiter.isAllowed, List.any_eq_true, PyVal.eq_str_right,
        reduceCtorEq, and_false, exists_false] at hallowed
    have hsigned : artifact.actionRequest.get "context" = some (.dict carried) := by
      rw [← hcarried]
      exact AuthorizationIssuer.effectiveRequest_get (by simp) hrequest
    obtain ⟨principal, hadmits⟩ := admits_of_validateRuntime hregistry hcarried hvalid
    obtain ⟨principalId, hid, hregistered⟩ := hadmits.registered
    rw [← hkeep "action" (by simp)] at hadmits haction
    obtain ⟨hconfines, hsource⟩ := confines_of_admits hadmits hsigned hidentity haction
    exact ⟨principalId, principal, carried, hid, hregistered, hconfines, hsource⟩

end GovernancePlatform

section Sourceless

def deployPrincipal : ServicePrincipal where
  principalId := "deploy-agent"
  allowedActions := ["send_email"]
  allowedSources := ["internal-worker"]

-- an identity that states no source, and a caller that states none either
def sourcelessPlatform : GovernancePlatform :=
  { demoPlatform with
    identity := { serviceIdentity with principalId := some "deploy-agent" }
    principalRegistry := some { principals := [("deploy-agent", deployPrincipal)] } }

def statesNoSource (request : PyDict) : Bool :=
  match request.get "context" with
  | some (.dict context) => !PyDict.has context "source"
  | _ => false

theorem statesNoSource_eq_true {request context : PyDict} (h : statesNoSource request = true)
    (hcontext : request.get "context" = some (.dict context)) : context.get "source" = none := by
  rw [statesNoSource, hcontext] at h
  simpa [PyDict.has] using h

theorem sourcelessPlatform_signs : ∃ artifact,
    (sourcelessPlatform.authorize sizePrimitives {} 0 "n-1" plainRequest "demo-v1" 300 none []
      []).result = .ok artifact ∧ statesNoSource artifact.actionRequest = true := by
  obtain ⟨call, hcall, hchecked⟩ := isOk_of_any
    (show (sourcelessPlatform.issuerCall sizePrimitives plainRequest "demo-v1" 300 none []
      []).toOption.any (fun call => statesNoSource call.request && (call.approvals.isNone &&
        AuthorizationIssuer.isGrantable sizePrimitives sourcelessPlatform.service.attachedIssuer 0
          "n-1" call)) = true by decide +kernel)
  simp only [Bool.and_eq_true, Option.isNone_iff_eq_none] at hchecked
  obtain ⟨hsourceless, happrovals, hgrantable⟩ := hchecked
  obtain ⟨request, decision, payload, hgrantable⟩ :=
    AuthorizationIssuer.exists_of_isGrantable hgrantable
  have hlog : ({} : ReplayLog).Linked sizePrimitives := trivial
  obtain ⟨log', frame, -, hauthorize⟩ := AuthorizationIssuer.authorize_of_grantable hlog hgrantable
  have hrequest := (AuthorizationIssuer.admission_eq_ok hgrantable.admitted).1
  rw [happrovals] at hrequest
  refine ⟨{ sourcelessPlatform.service.attachedIssuer.granted 0 "n-1" call request decision with
    signature := sourcelessPlatform.service.attachedIssuer.issuer.sign payload }, ?_, ?_⟩
  · simp only [GovernancePlatform.authorize, hcall, hauthorize]
  · rw [← Except.ok.inj hrequest]
    exact hsourceless

theorem signed_within_limits_demo : ∃ artifact principalId principal signed,
    (sourcelessPlatform.authorize sizePrimitives {} 0 "n-1" plainRequest "demo-v1" 300 none []
      []).result = .ok artifact ∧
    sourcelessPlatform.identity.principalId = some principalId ∧
      Dict.get [(lit "deploy-agent", deployPrincipal)] principalId = some principal ∧
        principal.Confines artifact.actionRequest signed ∧ principal.KeepsSource signed := by
  obtain ⟨artifact, h, -⟩ := sourcelessPlatform_signs
  obtain ⟨principalId, principal, signed, hid, hregistered, hkept⟩ :=
    GovernancePlatform.signed_within_limits rfl h
  exact ⟨artifact, principalId, principal, signed, h, hid, hregistered, hkept⟩

-- the source of a request that states none is not one of those its principal may use
theorem source_not_confined :
    ¬ ∀ (P : Primitives) (platform : GovernancePlatform) (registry : ServicePrincipalRegistry)
      (log : ReplayLog) (now : ℤ) (nonce policyId : Str) (ttl : ℤ)
      (approvals : Option (List ApprovalArg)) (request context : PyDict)
      (inputs : List GovernanceInput) (artifact : Artifact),
      platform.principalRegistry = some registry →
        (platform.authorize P log now nonce request policyId ttl approvals context
          inputs).result = .ok artifact →
        ∃ principalId principal signed, platform.identity.principalId = some principalId ∧
          Dict.get registry.principals principalId = some principal ∧
            principal.Confines artifact.actionRequest signed ∧ principal.NamesSource signed := by
  intro h
  obtain ⟨artifact, hsigned, hsourceless⟩ := sourcelessPlatform_signs
  obtain ⟨principalId, principal, signed, hid, hregistered, hconfines, hnames⟩ :=
    h _ _ _ _ _ _ _ _ _ _ _ _ _ rfl hsigned
  have hprincipal : deployPrincipal = principal := by
    have hlookup : Dict.get [(lit "deploy-agent", deployPrincipal)] (lit "deploy-agent") =
        some deployPrincipal := rfl
    rw [← Option.some.inj hid] at hregistered
    exact Option.some.inj (hlookup.symm.trans hregistered)
  obtain ⟨source, -, hsource⟩ := hnames (by rw [← hprincipal]; decide)
  rw [statesNoSource_eq_true hsourceless hconfines.carries] at hsource
  cases hsource

end Sourceless

end GovernedAutonomy
