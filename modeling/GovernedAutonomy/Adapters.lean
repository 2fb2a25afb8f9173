import GovernedAutonomy.Engine
import GovernedAutonomy.Issuer

namespace GovernedAutonomy

open Python

-- one authorized execution: the log it leaves, and the GAA its handler was started under
structure GovernedCall where
  log : ReplayLog
  ran : Option Artifact
  result : Result (PyVal × Artifact)

namespace GovernedCall

variable (P : Primitives)

def refused (log : ReplayLog) (e : Exc) : GovernedCall := ⟨log, none, .error e⟩

-- authorize, and execute what was authorized at the same log
def perform (issuer : AuthorizationIssuer) (boundary : ExecutionBoundary) (log : ReplayLog)
    (now later : ℤ) (nonce : Str) (call : AuthorizeCall) (action : PyDict → HandlerOutcome) :
    GovernedCall :=
  match issuer.authorize P log now nonce call with
  | ⟨log, .error e⟩ => refused log e
  | ⟨log, .ok gaa⟩ =>
      let execution := boundary.execute P log later gaa action
      ⟨execution.log, if execution.invoked then some gaa else none,
        execution.result.map (fun content => (content, gaa))⟩

end GovernedCall

structure MCPToolDefinition where
  name : Str
  requiredFields : List Str := []
  requiredApprovals : ℤ := 0

structure MCPGatewayContext where
  agentId : Option Str := none
  tenantId : Option Str := none
  sessionId : Option Str := none
  extra : PyDict := []

def MCPGatewayContext.toDict (context : MCPGatewayContext) : PyDict :=
  let optional (name : String) (value : Option Str) : PyDict :=
    match value with
    | some s => PyDict.ofFields [(name, .str s)]
    | none => []
  Dict.update (optional "agent_id" context.agentId ++ optional "tenant_id" context.tenantId ++
    optional "session_id" context.sessionId) context.extra

inductive ContextArg where
  | gateway (context : MCPGatewayContext)
  | object (context : PyDict)
  | other

def ContextArg.toDict : ContextArg → PyDict
  | .gateway context => context.toDict
  | .object context => context
  | .other => []

-- the literal both adapters write: their own keys around whatever the arguments hold
def mergedRequest (name : Str) (arguments context : PyDict) : PyDict :=
  PyDict.set (Dict.update (PyDict.ofFields [("action", .str name)]) arguments) "context"
    (.dict context)

structure GASMCPGateway where
  issuer : AuthorizationIssuer
  boundary : ExecutionBoundary
  policyRegistry : PolicyRegistry
  ttlSeconds : ℤ := 60
  handlers : List (Str × (PyDict → HandlerOutcome)) := []
  toolDefs : List (Str × MCPToolDefinition) := []

namespace GASMCPGateway

variable (P : Primitives) (gateway : GASMCPGateway)

def gatewayPolicyId : Str := "gas-mcp-gateway"

def create (issuerKey : Signer) (trustStore : TrustStore) (ttlSeconds : ℤ)
    (extraAllowedActions : List Str) (maxRequestBytes maxTtlSeconds : ℤ) :
    Result GASMCPGateway := do
  let arbiter : DeterministicArbiter := { trustStore := some trustStore }
  let allowed := sortedStrs extraAllowedActions
  let policy ← Policy.postInit
    { policyId := gatewayPolicyId
      allowedActions := if allowed.isEmpty then ["__placeholder__"] else allowed
      requiredFields := [], exactFields := [], maxRequestBytes, maxTtlSeconds }
  let registry ← PolicyRegistry.register P {} policy
  .ok
    { issuer := { issuer := issuerKey, arbiter }
      boundary := { keySource := .trustStore trustStore, policyRegistry := some registry, arbiter }
      policyRegistry := registry, ttlSeconds }

def toolPolicy : Policy :=
  let existing := Dict.get gateway.policyRegistry.policies gatewayPolicyId
  { policyId := gatewayPolicyId
    allowedActions := sortedStrs (gateway.handlers.map Prod.fst)
    requiredFields := gateway.toolDefs.filterMap (fun m =>
      if m.2.requiredFields.isEmpty then none else some (m.1, m.2.requiredFields))
    exactFields := []
    requiredApprovals := gateway.toolDefs.filterMap (fun m =>
      if 0 < m.2.requiredApprovals then some (m.1, m.2.requiredApprovals) else none)
    maxRequestBytes := (existing.map Policy.maxRequestBytes).getD (64 * 1024)
    maxTtlSeconds := (existing.map Policy.maxTtlSeconds).getD 300 }

def rebuildPolicy : Result GASMCPGateway :=
  if gateway.handlers.isEmpty then .ok gateway
  else do
    let policy ← gateway.toolPolicy.postInit
    let registry ← PolicyRegistry.register P {} policy
    .ok
      { gateway with
        policyRegistry := registry
        boundary := { gateway.boundary with policyRegistry := some registry } }

def withTool (definition : MCPToolDefinition) (handler : PyDict → HandlerOutcome) :
    GASMCPGateway :=
  { gateway with
    handlers := Dict.set gateway.handlers definition.name handler
    toolDefs := Dict.set gateway.toolDefs definition.name definition }

-- the tool stays where it was put when the policy cannot be rebuilt
def registerTool (definition : MCPToolDefinition) (handler : PyDict → HandlerOutcome) :
    GASMCPGateway × Result Unit :=
  if Dict.has gateway.handlers definition.name then
    (gateway, .error (.valueError
      (lit "tool already registered: " ++ P.reprStr definition.name)))
  else
    match (gateway.withTool definition handler).rebuildPolicy P with
    | .error e => (gateway.withTool definition handler, .error e)
    | .ok gateway => (gateway, .ok ())

def call (log : ReplayLog) (now later : ℤ) (nonce toolName : Str) (arguments : PyDict)
    (context : ContextArg) (approvals : Option (List ApprovalArg)) : GovernedCall :=
  match Dict.get gateway.handlers toolName with
  | none => .refused log (.builtin .keyError)
  | some handler =>
      match Dict.get gateway.policyRegistry.policies gatewayPolicyId with
      | none => .refused log (authorizationError (lit "gateway policy is not configured"))
      | some policy =>
          .perform P gateway.issuer gateway.boundary log now later nonce
            { request := mergedRequest toolName arguments context.toDict
              policy := policy
              ttlSeconds := min gateway.ttlSeconds policy.maxTtlSeconds
              approvals := approvals } handler

end GASMCPGateway

-- what a tool's function is called with
inductive ToolArguments where
  | keywords (arguments : PyDict)
  | request (request : PyDict)
  | nothing

structure GASExecutionBarrierTool where
  func : ToolArguments → HandlerOutcome
  name : Str
  issuer : AuthorizationIssuer
  boundary : ExecutionBoundary
  policy : Policy
  context : PyDict := []
  ttlSeconds : ℤ := 60

namespace GASExecutionBarrierTool

variable (P : Primitives) (tool : GASExecutionBarrierTool)

def normalizeInput (toolInput : PyVal) : Result PyDict :=
  match toolInput with
  | .dict arguments => .ok arguments
  | .str text =>
      match P.loads text with
      | .ok (.dict parsed) => .ok parsed
      | .ok _ => .ok (PyDict.ofFields [("input", toolInput)])
      | .error e =>
          if e.isValueError then .ok (PyDict.ofFields [("input", toolInput)]) else .error e
  | _ => .ok (PyDict.ofFields [("input", toolInput)])

def isName : PyKey → Bool
  | .str _ => true
  | _ => false

-- keyword arguments have names
def callKeywords (arguments : PyDict) : HandlerOutcome :=
  if arguments.all (fun m => isName m.1) then tool.func (.keywords arguments)
  else .raised "TypeError" (.ok (lit "keywords must be strings"))

def callable (arguments request : PyDict) : HandlerOutcome :=
  if arguments.isEmpty then tool.func .nothing
  else
    match tool.callKeywords arguments with
    | .raised "TypeError" _ => tool.func (.request request)
    | outcome => outcome

def run (log : ReplayLog) (now later : ℤ) (nonce : Str) (toolInput : PyVal) (context : PyDict)
    (approvals : Option (List ApprovalArg)) : GovernedCall :=
  match normalizeInput P toolInput with
  | .error e => .refused log e
  | .ok arguments =>
      .perform P tool.issuer tool.boundary log now later nonce
        { request := mergedRequest tool.name arguments (Dict.update tool.context context)
          policy := tool.policy
          ttlSeconds := min tool.ttlSeconds tool.policy.maxTtlSeconds
          approvals := approvals } (tool.callable arguments)

end GASExecutionBarrierTool

end GovernedAutonomy
