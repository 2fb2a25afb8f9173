import GovernedAutonomy.Demo
import GovernedAutonomy.Issued
import GovernedAutonomy.Transport

namespace GovernedAutonomy

open Python

-- float(now) + f, rounded to the nearest double
def addFloat (now : ℤ) (f : PyFloat) : Result PyFloat :=
  match nearestDouble (now.natAbs : ℚ), f with
  | none, _ => .error (.builtin .overflowError)
  | some _, .nan => .ok .nan
  | some _, .inf neg => .ok (.inf neg)
  | some x, .finite neg m =>
      let sum := (if now < 0 then -x else x) + (if neg then -m.value else m.value)
      .ok (.ofDecimal (decide (sum < 0)) |sum|)

-- clock() + ttl_seconds
def addTime (now : ℤ) (ttl : PyVal) : Result PyVal :=
  match ttl with
  | .int n => .ok (.int (now + n))
  | .bool b => .ok (.int (now + boolInt b))
  | .float f => do
      let sum ← addFloat now f
      .ok (.float sum)
  | _ => .error (.builtin .typeError)

def checkTtl (policy : Policy) (ttl : PyVal) : Result Unit := do
  let nonPositive ← ttl.compareNumber (fun x => decide (x ≤ intValue 0))
  raiseIf (nonPositive = true) (.valueError (lit "ttl_seconds must be positive"))
  let tooLong ← ttl.compareNumber (fun x => decide (intValue policy.maxTtlSeconds < x))
  raiseIf (tooLong = true) (.valueError (lit "ttl_seconds exceeds policy maximum"))

namespace AuthorizationIssuer

variable (P : Primitives) (issuer : AuthorizationIssuer)

def settleRaw (log : ReplayLog) (now : ℤ) (nonce : Str) (ttl : PyVal) (call : AuthorizeCall)
    (request : PyDict) (decision : Decision) (mesh : Option GovernancePreflightDecision) :
    Authorization :=
  let decision := ruled decision mesh
  let meshDigest := mesh.map GovernancePreflightDecision.digest
  if decision.allow then
    match addTime now ttl with
    | .error e => ⟨log, .error e⟩
    | .ok expiresAt =>
        grant P issuer.issuer log
          ⟨request, decision.signedDict meshDigest, expiresAt, nonce, authorizationFrameId nonce,
            issuer.issuer.keyId, []⟩ call.meshInputs mesh
  else refuse P log nonce request decision meshDigest

def admissionRaw (ttl : PyVal) (call : AuthorizeCall) : Result (PyDict × Decision) := do
  checkTtl call.policy ttl
  let request ← effectiveRequest call.request call.approvals
  let decision ← issuer.arbitrate P request call
  .ok (request, decision)

-- authorize over a ttl of any type; the one in the call is not looked at
def authorizeRaw (log : ReplayLog) (now : ℤ) (nonce : Str) (ttl : PyVal) (call : AuthorizeCall) :
    Authorization :=
  match issuer.admissionRaw P ttl call with
  | .error e => ⟨log, .error e⟩
  | .ok (request, decision) =>
      match issuer.meshPreflight P log request call.meshInputs with
      | .error e => ⟨log, .error e⟩
      | .ok (log, mesh) => issuer.settleRaw P log now nonce ttl call request decision mesh

section Specification

variable {P issuer} {log : ReplayLog} {now : ℤ} {nonce : Str} {call : AuthorizeCall} {ttl : PyVal}
  {raw : Artifact}

def lifetimeIssuer : AuthorizationIssuer := { issuer := Demo.signer }

def lifetimeCall : AuthorizeCall where
  request := PyDict.ofFields [("action", .str "read")]
  policy := { policyId := "p", allowedActions := ["read"], requiredFields := [], exactFields := [] }

theorem lifetime_grantable : ∃ request decision payload, Grantable sizePrimitives lifetimeIssuer 0
    "n" lifetimeCall request decision payload :=
  exists_of_isGrantable (by decide +kernel)

end Specification

end AuthorizationIssuer

end GovernedAutonomy
