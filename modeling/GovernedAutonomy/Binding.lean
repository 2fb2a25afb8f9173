import GovernedAutonomy.Adapters
import GovernedAutonomy.Demo
import GovernedAutonomy.Issued
import GovernedAutonomy.Quorum

namespace GovernedAutonomy

open Python

theorem Policy.postInit_eq_ok {policy policy' : Policy} (h : policy.postInit = .ok policy') :
    policy' = policy := by
  simp only [postInit, bind_eq_ok] at h
  obtain ⟨-, -, -, -, -, -, -, -, -, -, -, -, -, -, -, -, -, -, h⟩ := h
  obtain ⟨-, -, -, -, -, -, -, -, -, -, -, -, -, -, -, -, h⟩ := h
  exact (Except.ok.inj h).symm

namespace DeterministicArbiter

variable {P : Primitives} {arbiter : DeterministicArbiter}

-- the policy's own demands on one action, met by a request
structure Gated (P : Primitives) (arbiter : DeterministicArbiter) (policy : Policy) (action : Str)
    (request : PyDict) : Prop where
  fields : ∀ names, Dict.get policy.requiredFields action = some names →
    ∀ name ∈ names, request.has name = true
  quorum : ∀ n, Dict.get policy.requiredApprovals action = some n → 0 < n →
    ∃ count, arbiter.approvalCount P request (contextOf request).1 = .ok count ∧ n ≤ count

end DeterministicArbiter

namespace AuthorizationIssuer

variable {P : Primitives} {issuer : AuthorizationIssuer} {log : ReplayLog} {now : ℤ}
  {nonce : Str} {call : AuthorizeCall} {artifact : Artifact}

structure Authorizes (P : Primitives) (issuer : AuthorizationIssuer) (call : AuthorizeCall)
    (artifact : Artifact) : Prop where
  request : effectiveRequest call.request call.approvals = .ok artifact.actionRequest
  decision : ∃ decision, issuer.arbiter.decide P artifact.actionRequest call.policy = .ok decision ∧
    decision.allow = true

theorem effectiveRequest_get {request request' : PyDict} {approvals : Option (List ApprovalArg)}
    {name : Str} (hname : name ≠ lit "approvals")
    (h : effectiveRequest request approvals = .ok request') :
    request'.get name = request.get name := by
  have hset : ∀ v, (PyDict.set request "approvals" v).get name = request.get name := by
    intro v
    rw [PyDict.get_set, if_neg hname.symm]
  unfold effectiveRequest at h
  split at h
  · rw [Except.ok.inj h]
  · obtain ⟨serialized, -, h⟩ := bind_eq_ok.mp h
    split at h
    · rw [← Except.ok.inj h, hset]
    · rw [← Except.ok.inj h, hset]
    · rw [← Except.ok.inj h, hset]
    · cases h

theorem effectiveRequest_getD {request request' : PyDict} {approvals : Option (List ApprovalArg)}
    {name : Str} (hname : name ≠ lit "approvals")
    (h : effectiveRequest request approvals = .ok request') :
    request'.getD name = request.getD name := by
  rw [PyDict.getD, effectiveRequest_get hname h, PyDict.getD]

theorem ruled_allow {decision : Decision} {mesh : Option GovernancePreflightDecision}
    (h : (ruled decision mesh).allow = true) : decision.allow = true := by
  unfold ruled at h
  split at h
  · exact h
  · split at h
    · exact h
    · cases h

theorem grant_request {signer : Signer} {unsigned : GovernanceAuthorizationArtifact}
    {inputs : List GovernanceInput} {mesh : Option GovernancePreflightDecision}
    (h : (grant P signer log unsigned inputs mesh).result = .ok artifact) :
    artifact.actionRequest = unsigned.actionRequest := by
  unfold grant at h
  split at h
  · cases h
  · split at h
    · cases h
    · obtain ⟨payload, -, h⟩ := bind_eq_ok.mp h
      rw [← Except.ok.inj h]

theorem authorizes_of_result (h : (issuer.authorize P log now nonce call).result = .ok artifact) :
    Authorizes P issuer call artifact := by
  unfold authorize at h
  cases hadmission : issuer.admission P call with
  | error e =>
      rw [hadmission] at h
      cases h
  | ok admitted =>
      obtain ⟨request, decision⟩ := admitted
      simp only [hadmission] at h
      obtain ⟨hrequest, hdecide⟩ := admission_eq_ok hadmission
      split at h
      · cases h
      · rename_i middle mesh hmesh
        simp only [settle] at h
        split at h
        · rename_i hallow
          have hsame := grant_request h
          exact ⟨by rw [hrequest, hsame], decision, by rw [hsame]; exact hdecide,
            ruled_allow hallow⟩
        · unfold refuse at h
          split at h
          · cases h
          · cases h

end AuthorizationIssuer

namespace GovernedCall

variable {P : Primitives} {issuer : AuthorizationIssuer} {boundary : ExecutionBoundary}
  {log : ReplayLog} {now later : ℤ} {nonce : Str} {call : AuthorizeCall}
  {action : PyDict → HandlerOutcome} {gaa : Artifact}

theorem authorizes_of_ran
    (h : (perform P issuer boundary log now later nonce call action).ran = some gaa) :
    issuer.Authorizes P call gaa := by
  unfold perform at h
  split at h
  · cases h
  · rename_i middle gaa' hauthorize
    simp only [Option.ite_none_right_eq_some, Option.some.injEq] at h
    obtain ⟨-, rfl⟩ := h
    exact AuthorizationIssuer.authorizes_of_result (by rw [hauthorize])

end GovernedCall

-- the arguments leave the name of the tool alone
def Named (tool : Str) (arguments : PyDict) : Prop :=
  ∀ v, PyDict.get arguments "action" = some v → v = .str tool

namespace GASMCPGateway

variable {P : Primitives}

-- what the policy asks for a tool is what its definition asks
structure Covers (policy : Policy) (definition : MCPToolDefinition) : Prop where
  fields : definition.requiredFields ≠ [] →
    Dict.get policy.requiredFields definition.name = some definition.requiredFields
  quorum : 0 < definition.requiredApprovals →
    Dict.get policy.requiredApprovals definition.name = some definition.requiredApprovals

structure Serves (gateway : GASMCPGateway) (tool : Str) : Prop where
  handled : Dict.has gateway.handlers tool = true
  covered : ∃ definition policy, Dict.get gateway.toolDefs tool = some definition ∧
    definition.name = tool ∧
    Dict.get gateway.policyRegistry.policies gatewayPolicyId = some policy ∧
    Covers policy definition

structure Invariant (gateway : GASMCPGateway) (names : List Str) : Prop where
  distinct : Dict.Distinct gateway.toolDefs
  served : ∀ tool ∈ names, Serves gateway tool

-- all that a rebuild changes: the policy of the tools takes the place of the policy
structure Rebuilt (gateway gateway' : GASMCPGateway) : Prop where
  issuer : gateway'.issuer = gateway.issuer
  boundary : gateway'.boundary =
    { gateway.boundary with policyRegistry := some gateway'.policyRegistry }
  handlers : gateway'.handlers = gateway.handlers
  toolDefs : gateway'.toolDefs = gateway.toolDefs
  policy : Dict.get gateway'.policyRegistry.policies gatewayPolicyId = some gateway.toolPolicy
  ttlSeconds : gateway'.ttlSeconds = gateway.ttlSeconds

theorem rebuilt_of_rebuildPolicy {gateway gateway' : GASMCPGateway}
    (hhandlers : gateway.handlers ≠ []) (h : gateway.rebuildPolicy P = .ok gateway') :
    Rebuilt gateway gateway' := by
  rw [rebuildPolicy, if_neg (by simpa using hhandlers)] at h
  simp only [bind_eq_ok] at h
  obtain ⟨policy, hpolicy, registry, hregistry, h⟩ := h
  obtain rfl := Policy.postInit_eq_ok hpolicy
  obtain rfl := Except.ok.inj h
  obtain ⟨-, -, hregistry⟩ := bind_eq_ok.mp hregistry
  refine ⟨rfl, rfl, rfl, rfl, ?_, rfl⟩
  rw [← Except.ok.inj hregistry]
  rfl

theorem get_handlers_withTool (gateway : GASMCPGateway) (definition : MCPToolDefinition)
    (handler : PyDict → HandlerOutcome) :
    Dict.get (gateway.withTool definition handler).handlers definition.name = some handler := by
  rw [withTool, Dict.get_set, if_pos (by simp)]

theorem registerTool_returns {gateway : GASMCPGateway} {definition : MCPToolDefinition}
    {handler : PyDict → HandlerOutcome}
    (h : (gateway.registerTool P definition handler).2 = .ok ()) :
    Dict.has gateway.handlers definition.name = false ∧
      Rebuilt (gateway.withTool definition handler)
        (gateway.registerTool P definition handler).1 := by
  have hhandlers : (gateway.withTool definition handler).handlers ≠ [] := by
    intro hnil
    have hget := get_handlers_withTool gateway definition handler
    rw [hnil] at hget
    cases hget
  unfold registerTool at h ⊢
  split at h
  · cases h
  · rename_i hnew
    rw [if_neg hnew]
    refine ⟨Bool.not_eq_true _ |>.mp hnew, ?_⟩
    cases hrebuild : (gateway.withTool definition handler).rebuildPolicy P with
    | error e =>
        rw [hrebuild] at h
        cases h
    | ok gateway' => exact rebuilt_of_rebuildPolicy hhandlers hrebuild

-- the GAA is for the tool, and the tool's own demands are what the arbiter checked
structure Bound (P : Primitives) (gateway : GASMCPGateway) (tool : Str) (gaa : Artifact) :
    Prop where
  action : gaa.actionRequest.getD "action" = .str tool
  checked : ∃ definition, Dict.get gateway.toolDefs tool = some definition ∧
    (∀ name ∈ definition.requiredFields, gaa.actionRequest.has name = true) ∧
    (0 < definition.requiredApprovals → ∃ count,
      gateway.issuer.arbiter.approvalCount P gaa.actionRequest
        (DeterministicArbiter.contextOf gaa.actionRequest).1 = .ok count ∧
      definition.requiredApprovals ≤ count)

end GASMCPGateway

namespace GASExecutionBarrierTool

variable {P : Primitives}

structure Bound (P : Primitives) (tool : GASExecutionBarrierTool) (gaa : Artifact) : Prop where
  action : gaa.actionRequest.getD "action" = .str tool.name
  checked : DeterministicArbiter.Gated P tool.issuer.arbiter tool.policy tool.name gaa.actionRequest

end GASExecutionBarrierTool

theorem GovernedCall.ran_of_grantable {P : Primitives} {issuer : AuthorizationIssuer}
    {boundary : ExecutionBoundary} {now later : ℤ} {nonce : Str} {call : AuthorizeCall}
    (action : PyDict → HandlerOutcome) (h : issuer.isGrantable P now nonce call = true)
    (haccepts : issuer.Accepts P boundary call.policy) (hlater : later < now + call.ttlSeconds) :
    ∃ gaa, (perform P issuer boundary {} now later nonce call action).ran = some gaa := by
  obtain ⟨request, decision, payload, hgrantable⟩ :=
    AuthorizationIssuer.exists_of_isGrantable h
  have hlog : ({} : ReplayLog).Linked P := trivial
  obtain ⟨log', frame, happend, hauthorize⟩ :=
    AuthorizationIssuer.authorize_of_grantable hlog hgrantable
  have hvalid := AuthorizationIssuer.validates_granted hgrantable haccepts happend hlater
    (by simp) (by simp)
  have hinvoked : (boundary.execute P log' later _ action).invoked = true :=
    ExecutionBoundary.execute_invoked.mpr hvalid
  refine ⟨{ issuer.granted now nonce call request decision with
    signature := issuer.issuer.sign payload }, ?_⟩
  simp only [perform, hauthorize, hinvoked, if_true]

def quiet : PyDict → HandlerOutcome := fun _ => .returned .none

def emptyGateway : GASMCPGateway where
  issuer := { issuer := Demo.signer }
  boundary := Demo.boundary
  policyRegistry := {}

def readTool : MCPToolDefinition := { name := "read" }

def wipeTool : MCPToolDefinition := { name := "wipe", requiredApprovals := 2 }

def readGateway : GASMCPGateway := (emptyGateway.registerTool sizePrimitives readTool quiet).1

def twoToolGateway : GASMCPGateway := (readGateway.registerTool sizePrimitives wipeTool quiet).1

def twoToolPolicy : Policy := (readGateway.withTool wipeTool quiet).toolPolicy

def barrierTool (name : Str) : GASExecutionBarrierTool where
  func := fun _ => .returned .none
  name := name
  issuer := { issuer := Demo.signer }
  boundary := { Demo.boundary with policyRegistry := some twoToolGateway.policyRegistry }
  policy := twoToolPolicy

def readArguments : PyDict := PyDict.ofFields [("action", .str "read")]

theorem returns_of_toOption {x : GASMCPGateway × Result Unit} (h : x.2.toOption.isSome = true) :
    x.2 = .ok () := by
  obtain ⟨u, hu⟩ := exists_of_toOption h
  exact hu

theorem wipeTool_returns : (readGateway.registerTool sizePrimitives wipeTool quiet).2 = .ok () :=
  returns_of_toOption (by decide)

theorem twoToolGateway_rebuilt :
    GASMCPGateway.Rebuilt (readGateway.withTool wipeTool quiet) twoToolGateway :=
  (GASMCPGateway.registerTool_returns wipeTool_returns).2

def readCall : AuthorizeCall where
  request := mergedRequest "read" [] []
  policy := twoToolPolicy
  ttlSeconds := min 60 twoToolPolicy.maxTtlSeconds

theorem readCall_grantable : AuthorizationIssuer.isGrantable sizePrimitives
    { issuer := Demo.signer } 0 "n-1" readCall = true := by
  decide +kernel

theorem readCall_ttl : 1 < 0 + readCall.ttlSeconds := by decide

theorem demo_accepts : AuthorizationIssuer.Accepts sizePrimitives { issuer := Demo.signer }
    { Demo.boundary with policyRegistry := some twoToolGateway.policyRegistry } twoToolPolicy where
  arbiter := rfl
  trusted := ⟨Demo.publicKey, rfl, fun payload => verifySignature_size _ payload⟩
  registered := ⟨twoToolGateway.policyRegistry, rfl, twoToolGateway_rebuilt.policy⟩

end GovernedAutonomy
