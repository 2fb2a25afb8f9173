import GovernedAutonomy.ClaimsMapper
import GovernedAutonomy.Protocol.Tables
import Mathlib.Data.List.Dedup

namespace GovernedAutonomy

open Python Protocol

structure UserRow where
  id : Str
  subject : Str
  tenantId : Str
  email : Option Str
  displayName : Option Str
  createdAt : Str

structure ServicePrincipalRow where
  id : Str
  clientId : Str
  name : Str
  tenantId : Str
  createdAt : Str

structure RoleAssignmentRow where
  id : Str
  principalId : Str
  tenantId : Str
  roleId : Role
  assignedAt : Str
  assignedBy : Str

inductive IdentityEventType where
  | authenticated
  | roleAssigned
deriving DecidableEq

structure IdentityEventRow where
  id : Str
  eventType : IdentityEventType
  principalId : Str
  details : PyDict
  timestamp : Str

-- UNIQUE(subject, tenant_id) and so on
def UserRow.key (row : UserRow) : Str × Str := (row.subject, row.tenantId)

def ServicePrincipalRow.key (row : ServicePrincipalRow) : Str × Str := (row.clientId, row.tenantId)

def RoleAssignmentRow.key (row : RoleAssignmentRow) : Str × Str × Role :=
  (row.principalId, row.tenantId, row.roleId)

def UserRow.renew (email displayName : Option Str) (row : UserRow) : UserRow :=
  { row with email := email, displayName := displayName }

def ServicePrincipalRow.rename (name : Str) (row : ServicePrincipalRow) : ServicePrincipalRow :=
  { row with name := name }

theorem UserRow.key_renew (email displayName : Option Str) (row : UserRow) :
    (row.renew email displayName).key = row.key := rfl

theorem ServicePrincipalRow.key_rename (name : Str) (row : ServicePrincipalRow) :
    (row.rename name).key = row.key := rfl

structure IdentityStore where
  users : Table UserRow.key := Table.empty
  servicePrincipals : Table ServicePrincipalRow.key := Table.empty
  roleAssignments : Table RoleAssignmentRow.key := Table.empty
  identityEvents : Table IdentityEventRow.id := Table.empty

-- what uuid4 and the clock make for one transaction
structure MadeRow where
  id : Str
  eventId : Str
  now : Str

-- the arguments of record_authentication
structure AuthenticationRecord where
  subject : Str
  tenant : Str
  email : Option Str := none
  displayName : Option Str := none
  issuer : Str
  roles : List Str := []
  identitySource : Str
  servicePrincipal : Bool := false
  clientId : Option Str := none

-- Role(role), for a value of the enumeration
def Role.ofValue (role : Str) : Option Role := Role.all.find? (fun r => decide (r.value = role))

-- sorted(set(names))
def sortedSet (names : List Str) : List Str := sortedStrs names.dedup

-- the drivers encode what they bind
def bindable (texts : List Str) : Result Unit :=
  raiseIf (¬ ∀ s ∈ texts, (encode s).isSome = true) (.builtin .unicodeEncodeError)

namespace AuthenticationRecord

variable (call : AuthenticationRecord)

-- as json.loads gives them back, with the keys that were sorted
def details : PyDict :=
  PyDict.ofFields
    [("identity_source", .str call.identitySource), ("issuer", .str call.issuer),
      ("roles", strList (sortedSet call.roles)), ("service_principal", .bool call.servicePrincipal),
      ("subject", .str call.subject), ("tenant", .str call.tenant)]

def userRow (made : MadeRow) : UserRow where
  id := made.id
  subject := call.subject
  tenantId := call.tenant
  email := call.email
  displayName := call.displayName
  createdAt := made.now

def event (made : MadeRow) : IdentityEventRow where
  id := made.eventId
  eventType := .authenticated
  principalId := call.subject
  details := call.details
  timestamp := made.now

end AuthenticationRecord

namespace IdentityStore

variable (store : IdentityStore)

def insertEvent (event : IdentityEventRow) : Result IdentityStore := do
  raiseIf (event.id ∈ store.identityEvents.rows.map IdentityEventRow.id)
    (.builtin .integrityError)
  .ok { store with identityEvents := store.identityEvents.upsert id (fun _ => rfl) event }

def upsertUser (call : AuthenticationRecord) (made : MadeRow) : Result IdentityStore := do
  bindable ([call.subject, call.tenant] ++ call.email.toList ++ call.displayName.toList)
  raiseIf (made.id ∈ store.users.rows.map UserRow.id) (.builtin .integrityError)
  .ok
    { store with
      users := store.users.upsert (UserRow.renew call.email call.displayName)
        (UserRow.key_renew _ _) (call.userRow made) }

-- display_name or client_id
def principalName (displayName : Option Str) (clientId : Str) : Str :=
  match displayName with
  | some (p :: name) => p :: name
  | _ => clientId

def upsertPrincipal (call : AuthenticationRecord) (made : MadeRow) : Result IdentityStore :=
  match call.clientId with
  | some (p :: clientId) => do
      let name := principalName call.displayName (p :: clientId)
      bindable [p :: clientId, name, call.tenant]
      raiseIf (made.id ∈ store.servicePrincipals.rows.map ServicePrincipalRow.id)
        (.builtin .integrityError)
      .ok
        { store with
          servicePrincipals := store.servicePrincipals.upsert (ServicePrincipalRow.rename name)
            (ServicePrincipalRow.key_rename _)
            ⟨made.id, p :: clientId, name, call.tenant, made.now⟩ }
  | _ => .ok store

def upsertCaller (call : AuthenticationRecord) (made : MadeRow) : Result IdentityStore :=
  if call.servicePrincipal then store.upsertPrincipal call made else store.upsertUser call made

-- the transaction of record_authentication, up to its commit
def recordAuthentication (call : AuthenticationRecord) (made : MadeRow) : Result IdentityStore := do
  raiseIf (call.subject = [] ∨ call.tenant = [] ∨ call.issuer = [] ∨ call.identitySource = [])
    (.valueError "subject, tenant, issuer, and identity source are required")
  let store ← store.upsertCaller call made
  bindable [call.subject]
  store.insertEvent (call.event made)

def assignmentDetails (principalId assignedBy tenant : Str) (role : Role) : PyDict :=
  PyDict.ofFields
    [("assigned_by", .str assignedBy), ("identity_source", .str "role_assignment"),
      ("roles", strList [role.value]), ("subject", .str principalId), ("tenant", .str tenant)]

def unknownRole (role : Str) : Exc := .valueError (lit "unknown GAS role: " ++ role)

-- the transaction of assign_role, up to its commit
def assignRole (principalId role assignedBy tenant : Str) (made : MadeRow) :
    Result (Role × IdentityStore) := do
  raiseIf (principalId = [] ∨ assignedBy = [] ∨ tenant = [])
    (.valueError "principal_id, tenant, and assigned_by are required")
  match Role.ofValue role with
  | none => .error (unknownRole role)
  | some role => do
      bindable [principalId, tenant, assignedBy]
      raiseIf (made.id ∈ store.roleAssignments.rows.map RoleAssignmentRow.id)
        (.builtin .integrityError)
      let assigned : IdentityStore :=
        { store with
          roleAssignments := store.roleAssignments.upsert id (fun _ => rfl)
            ⟨made.id, principalId, tenant, role, made.now, assignedBy⟩ }
      let store ← assigned.insertEvent
        ⟨made.eventId, .roleAssigned, principalId,
          assignmentDetails principalId assignedBy tenant role, made.now⟩
      .ok (role, store)

def rolesFor (principalId tenant : Str) : List Str :=
  sortedStrs ((store.roleAssignments.rows.filter
    (fun row => decide (row.principalId = principalId ∧ row.tenantId = tenant))).map
      (fun row => row.roleId.value))

end IdentityStore

end GovernedAutonomy
