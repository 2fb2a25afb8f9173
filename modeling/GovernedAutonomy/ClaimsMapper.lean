import GovernedAutonomy.HttpApi
import GovernedAutonomy.Oidc
import GovernedAutonomy.Platform

namespace GovernedAutonomy

open Python

-- str.isalnum, str.isspace and str.lower of one character
structure UnicodeTables where
  isAlnum : CodePoint → Bool
  isSpace : CodePoint → Bool
  lower : CodePoint → Str

namespace Role

def name : Role → Str
  | .platformAdmin => "PLATFORM_ADMIN"
  | .policyAdmin => "POLICY_ADMIN"
  | .operator => "OPERATOR"
  | .auditor => "AUDITOR"
  | .approver => "APPROVER"
  | .servicePrincipal => "SERVICE_PRINCIPAL"

def all : List Role :=
  [.platformAdmin, .policyAdmin, .operator, .auditor, .approver, .servicePrincipal]

end Role

structure ClaimsIdentity where
  subject : Str
  tenantId : Option Str
  serviceId : Option Str
  roles : List Role
  groups : List Str
  servicePrincipal : Bool

namespace ClaimsMapper

variable (U : UnicodeTables)

-- s.split()
def words (s : Str) : List Str := (s.splitOnP U.isSpace).filter (· ≠ [])

def texts (xs : List PyVal) : List Str :=
  xs.filterMap (fun x => match x with
    | .str s => some s
    | _ => none)

def asList : PyVal → List Str
  | .str s => words U s
  | .list xs => texts xs
  | .tuple xs => texts xs
  | _ => []

def normalize (value : Str) : Str := (value.filter U.isAlnum).flatMap U.lower

def roleMapping : List (Str × Role) := [("gas-admin", .operator), ("gas.admin", .operator)]

def normalizedRoleMapping : List (Str × Role) :=
  Dict.update [] (roleMapping.map (fun m => (normalize U m.1, m.2)))

def roleOf (item : Str) : Option Role :=
  match Dict.get roleMapping item with
  | some role => some role
  | none =>
      match Dict.get (normalizedRoleMapping U) (normalize U item) with
      | some role => some role
      | none => Role.all.find? (fun role => decide (normalize U item = normalize U role.value ∨
          normalize U item = normalize U role.name))

def addRole (roles : List Role) (role : Role) : List Role :=
  if role ∈ roles then roles else roles ++ [role]

-- claims.get(name) or claims.get(other)
def orElse (value other : PyVal) : PyVal := if value.truthy then value else other

def strOrNone : PyVal → Option Str
  | .str s => some s
  | _ => none

def mapToIdentity (claims : PyDict) : Result ClaimsIdentity :=
  match orElse (claims.getD "oid") (claims.getD "sub") with
  | .str (c :: s) =>
      let groups := asList U (claims.getD "groups")
      let candidates := asList U (claims.getD "roles") ++ asList U (claims.getD "scope") ++
        asList U (claims.getD "scp") ++ groups
      let roles := (candidates.filterMap (roleOf U)).foldl addRole []
      let servicePrincipal := (claims.getD "idtyp").eq (.str "app")
      .ok {
        subject := c :: s
        tenantId := strOrNone (orElse (claims.getD "tid") (claims.getD "tenant_id"))
        serviceId := strOrNone (orElse (orElse (claims.getD "appid") (claims.getD "azp"))
          (claims.getD "client_id"))
        roles := if servicePrincipal then addRole roles .servicePrincipal else roles
        groups := groups
        servicePrincipal := servicePrincipal }
  | _ => .error (.valueError (lit "claims are missing oid or sub"))

end ClaimsMapper

namespace RuntimeIdentity

open ClaimsMapper

def identityTypes : List String :=
  ["human", "service_principal", "managed_identity", "workload_identity", "machine"]

def identityTypeOf (claims : PyDict) (servicePrincipal : Bool) : Result Str :=
  let derived : Str :=
    if (claims.getD "xms_mirid").truthy then "managed_identity"
    else if (orElse (claims.getD "workload_identity") (claims.getD "workload")).truthy then
      "workload_identity"
    else if servicePrincipal then "service_principal"
    else if (claims.getD "machine_identity").truthy then "machine"
    else "human"
  match claims.getD "identity_type" with
  | .str s => .ok (if identityTypes.any (fun name => s = lit name) then s else derived)
  | value => if value.hashable then .ok derived else .error (.builtin .typeError)

def fromExternalIdentity (U : UnicodeTables) (identity : ExternalIdentity) :
    Result RuntimeIdentity := do
  let claims := PyDict.set identity.claims "sub" (.str identity.subject)
  let mapped ← mapToIdentity U claims
  let identityType ← identityTypeOf claims mapped.servicePrincipal
  .ok {
    tenantId := mapped.tenantId
    actorId := some (lit "oidc:" ++ identity.issuer ++ lit ":" ++ mapped.subject)
    source := some "api"
    principalId := if mapped.servicePrincipal then mapped.serviceId else none
    roles := sortedStrs (mapped.roles.map Role.value)
    subject := some mapped.subject
    name := strOrNone (claims.getD "name")
    email := strOrNone (orElse (orElse (claims.getD "email") (claims.getD "preferred_username"))
      (claims.getD "upn"))
    groups := mapped.groups
    issuer := some identity.issuer
    identitySource := some (if startsWith identity.issuer "https://login.microsoftonline.com/" then
      lit "entra" else lit "oidc")
    servicePrincipal := mapped.servicePrincipal
    identityType := identityType }

-- asdict of an identity made by from_external_identity, whose service is the default one
def asdict (identity : RuntimeIdentity) : PyDict :=
  let optional : Option Str → PyVal := fun value => (value.map PyVal.str).getD .none
  PyDict.ofFields
    [("service", .str "http-api"), ("environment", .str identity.environment),
      ("tenant_id", optional identity.tenantId), ("actor_id", optional identity.actorId),
      ("request_id", optional identity.requestId), ("source", optional identity.source),
      ("principal_id", optional identity.principalId), ("roles", strList identity.roles),
      ("scope", strDict id identity.scope), ("subject", optional identity.subject),
      ("name", optional identity.name), ("email", optional identity.email),
      ("groups", strList identity.groups), ("issuer", optional identity.issuer),
      ("identity_source", optional identity.identitySource),
      ("service_principal", .bool identity.servicePrincipal),
      ("identity_type", .str identity.identityType)]

end RuntimeIdentity

end GovernedAutonomy
