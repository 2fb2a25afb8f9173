import GovernedAutonomy.AdminRoutes
import GovernedAutonomy.IdentityStore
import GovernedAutonomy.Protocol.Calls
import GovernedAutonomy.Protocol.Delegation
import GovernedAutonomy.Python.Merging

namespace GovernedAutonomy

open Python Protocol

-- one call of assign_role that was committed, and the request that made it
structure RoleGrant where
  api : AuthenticatedAPI
  request : HttpRequest
  -- the identity as the provider or the session has it
  caller : RuntimeIdentity
  principalId : Str
  tenant : Str
  role : Role
  assignedBy : Str

inductive IdentityEntry where
  | identified (identity enriched : RuntimeIdentity)
  | recorded (enriched : RuntimeIdentity)
  | granted (grant : RoleGrant)

-- how far a request has come with the identity store
inductive IdentityStage where
  | idle
  | recording (api : AuthenticatedAPI) (request : HttpRequest) (identity enriched : RuntimeIdentity)
  | assigning (api : AuthenticatedAPI) (request : HttpRequest) (caller : Option RuntimeIdentity)
      (principalId role assignedBy tenant : Str)

structure IdentityWorld (ι : Type) where
  store : IdentityStore := {}
  stage : ι → IdentityStage := fun _ => .idle
  trace : List IdentityEntry := []

-- a database error may come with the transaction committed or without
abbrev TransactionFault := Option (Bool × Exc)

-- the API of a request answers as its validator and its sessions do at that moment
inductive IdentityMove (ι : Type) where
  | authenticate (i : ι) (api : AuthenticatedAPI) (request : HttpRequest) (fault : Option Exc)
  | record (i : ι) (made : MadeRow) (fault : TransactionFault)
  | assign (i : ι) (made : MadeRow) (fault : TransactionFault)

namespace AuthenticatedAPI

variable (api : AuthenticatedAPI) (request : HttpRequest)

-- _enrich_identity has an identity store, and answers this
def enriching (answer : RuntimeIdentity → RuntimeIdentity) : AuthenticatedAPI :=
  { api with identityStore := true, enrichIdentity := fun identity => .ok (some (answer identity)) }

-- the identity that _enrich_identity is called with
def presented : Option RuntimeIdentity :=
  match (api.enriching id).authenticated request with
  | .ok (some attributes) => attributes.runtimeIdentity
  | _ => none

-- do_GET signs browsers in before it authenticates
def authenticates : Bool :=
  request.allowed && (decide (request.command = lit "POST") ||
    (decide (request.command = lit "GET") &&
      !oneOf ["/auth/login", "/auth/callback"] request.route))

end AuthenticatedAPI

namespace IdentityStore

variable (store : IdentityStore)

def enriched (identity : RuntimeIdentity) : RuntimeIdentity :=
  { identity with
    roles := sortedSet (identity.roles ++
      store.rolesFor (identity.subject.getD []) (identity.tenantId.getD [])) }

def authenticationOf (identity : RuntimeIdentity) : AuthenticationRecord where
  subject := identity.subject.getD []
  tenant := identity.tenantId.getD []
  email := identity.email
  displayName := identity.name
  issuer := identity.issuer.getD []
  roles := identity.roles
  identitySource := match identity.identitySource with
    | some (p :: source) => p :: source
    | _ => lit "oidc"
  servicePrincipal := identity.servicePrincipal
  clientId := identity.principalId

end IdentityStore

namespace IdentityWorld

variable {ι : Type} [DecidableEq ι] (P : Primitives) (w : IdentityWorld ι)

def log (entry : IdentityEntry) : IdentityWorld ι := { w with trace := w.trace ++ [entry] }

def goTo (i : ι) (stage : IdentityStage) : IdentityWorld ι :=
  { w with stage := Function.update w.stage i stage }

-- the handler of an authenticated request, up to the call of assign_role
def handle (i : ι) (api : AuthenticatedAPI) (request : HttpRequest)
    (caller : Option RuntimeIdentity) : IdentityWorld ι :=
  if request.command = lit "POST" then
    match api.doPost request P with
    | .reached (.assignRole principalId role assignedBy tenant) =>
        w.goTo i (.assigning api request caller principalId role assignedBy tenant)
    | _ => w.goTo i .idle
  else w.goTo i .idle

-- _enrich_identity reads the roles first, and answers None for an identity without a tenant
def enrich (i : ι) (api : AuthenticatedAPI) (request : HttpRequest) (identity : RuntimeIdentity)
    (fault : Option Exc) : IdentityWorld ι :=
  if AuthenticatedAPI.isNamed identity.subject && AuthenticatedAPI.isNamed identity.tenantId &&
      AuthenticatedAPI.isNamed identity.issuer then
    match fault with
    | some _ => w
    | none =>
        (w.log (.identified identity (w.store.enriched identity))).goTo i
          (.recording api request identity (w.store.enriched identity))
  else w

def authenticate (i : ι) (api : AuthenticatedAPI) (request : HttpRequest) (fault : Option Exc) :
    IdentityWorld ι :=
  if AuthenticatedAPI.authenticates request then
    match api.presented request with
    | some identity => w.enrich i api request identity fault
    | none => w.handle P i (api.enriching id) request none
  else w

def recordAuthentication (i : ι) (api : AuthenticatedAPI) (request : HttpRequest)
    (identity enriched : RuntimeIdentity) (made : MadeRow) (fault : TransactionFault) :
    IdentityWorld ι :=
  match w.store.recordAuthentication (IdentityStore.authenticationOf enriched) made, fault with
  | .error _, _ => w.goTo i .idle
  | .ok _, some (false, _) => w.goTo i .idle
  | .ok store, some (true, _) => ({ w with store := store }.log (.recorded enriched)).goTo i .idle
  | .ok store, none =>
      ({ w with store := store }.log (.recorded enriched)).handle P i
        (api.enriching (fun _ => enriched)) request (some identity)

def assignRole (i : ι) (api : AuthenticatedAPI) (request : HttpRequest)
    (caller : Option RuntimeIdentity) (principalId role assignedBy tenant : Str) (made : MadeRow)
    (fault : TransactionFault) : IdentityWorld ι :=
  match w.store.assignRole principalId role assignedBy tenant made, fault with
  | .error _, _ => w.goTo i .idle
  | .ok _, some (false, _) => w.goTo i .idle
  | .ok (role, store), _ =>
      ({ w with store := store }.log (.granted
        ⟨api, request, caller.getD {}, principalId, tenant, role, assignedBy⟩)).goTo i .idle

-- a move that does not fit the stage of its request does nothing
def step (w : IdentityWorld ι) (move : IdentityMove ι) : IdentityWorld ι :=
  match move with
  | .authenticate i api request fault =>
      match w.stage i with
      | .idle => w.authenticate P i api request fault
      | _ => w
  | .record i made fault =>
      match w.stage i with
      | .recording api request identity enriched =>
          w.recordAuthentication P i api request identity enriched made fault
      | _ => w
  | .assign i made fault =>
      match w.stage i with
      | .assigning api request caller principalId role assignedBy tenant =>
          w.assignRole i api request caller principalId role assignedBy tenant made fault
      | _ => w

def run (moves : List (IdentityMove ι)) : IdentityWorld ι := Calls.run (step P) {} moves

end IdentityWorld

def RequestAttributes.onIdentity (answer : RuntimeIdentity → RuntimeIdentity)
    (attributes : RequestAttributes) : RequestAttributes :=
  { attributes with runtimeIdentity := attributes.runtimeIdentity.map answer }

namespace AuthenticatedAPI

section Presented

variable {api : AuthenticatedAPI} {request : HttpRequest} {attributes : RequestAttributes}
  {answer : RuntimeIdentity → RuntimeIdentity}

theorem anonymous_onIdentity (granted : Result Bool) :
    Option.map (RequestAttributes.onIdentity answer) <$> (anonymous <$> granted) =
      anonymous <$> granted := by
  cases granted with
  | error e => rfl
  | ok granted => cases granted <;> rfl

-- the answer of _enrich_identity only stands in for the identity that it is given
theorem authenticated_enriching (answer : RuntimeIdentity → RuntimeIdentity) :
    (api.enriching answer).authenticated request =
      Option.map (RequestAttributes.onIdentity answer) <$>
        (api.enriching id).authenticated request := by
  have hkey : ∀ f, (api.enriching f).operatorKey = api.operatorKey := fun _ => rfl
  have hvalidator : ∀ f, (api.enriching f).oidcValidator = api.oidcValidator := fun _ => rfl
  have honly : ∀ f, (api.enriching f).oidcOnly = api.oidcOnly := fun _ => rfl
  have hsession : ∀ f, (api.enriching f).browserSession = api.browserSession := fun _ => rfl
  have hprobe : ∀ f, (api.enriching f).healthProbeAuthorized = api.healthProbeAuthorized :=
    fun _ => rfl
  have hshared : ∀ f, (api.enriching f).sharedToken = api.sharedToken := fun _ => rfl
  simp only [authenticated, hkey, hvalidator, honly, hsession, hprobe, hshared]
  cases api.operatorKey ((bearerCredential request.authorization).getD []) with
  | error e => rfl
  | ok key =>
      cases key with
      | some key =>
          simp only [bind, Except.bind]
          split_ifs <;> rfl
      | none =>
          simp only [bind, Except.bind]
          split
          · split
            · rfl
            · exact (anonymous_onIdentity _).symm
          · cases api.browserSession request with
            | error e => rfl
            | ok session =>
                cases session with
                | some identity => rfl
                | none =>
                    dsimp only
                    split
                    · exact (anonymous_onIdentity _).symm
                    · exact (anonymous_onIdentity _).symm

theorem runtimeIdentity_enriching
    (h : (api.enriching answer).authenticated request = .ok (some attributes)) :
    attributes.runtimeIdentity = (api.presented request).map answer := by
  rw [authenticated_enriching] at h
  rw [presented]
  cases hplain : (api.enriching id).authenticated request with
  | error e =>
      rw [hplain] at h
      cases h
  | ok plain =>
      rw [hplain] at h
      cases plain with
      | none => cases h
      | some plain =>
          obtain rfl := Option.some.inj (Except.ok.inj h)
          rfl

end Presented

end AuthenticatedAPI

namespace AuthenticatedAPI

section Assigning

variable {P : Primitives} {api : AuthenticatedAPI} {request : HttpRequest}
  {attributes : RequestAttributes} {principalId role assignedBy tenant : Str}

-- no other handler assigns roles
theorem roleAssignmentPost_of_dispatch
    (h : api.dispatch request P attributes =
      .reached (.assignRole principalId role assignedBy tenant)) :
    request.route = lit "/admin/identities/role-assignments" ∧
      api.roleAssignmentPost request attributes =
        .reached (.assignRole principalId role assignedBy tenant) := by
  unfold dispatch at h
  dsimp only at h
  split_ifs at h with hcertify hanchor hproposals hregistry hroles htrust hkeys hstore hjobs
  · cases certifyPost_role h
  · obtain ⟨payload, -, h⟩ := bind_eq_ok.mp (attempt_eq_reached anchorErrors_ne h)
    obtain ⟨_, -, h⟩ := bind_eq_ok.mp h
    cases h
  · have h := attempt_eq_reached workflowErrors_ne h
    split_ifs at h
    · obtain ⟨payload, hop⟩ := eq_of_reads h
      cases hop
    · obtain ⟨payload, hop⟩ := eq_of_reads h
      cases hop
    · split at h
      · split_ifs at h
        · obtain ⟨payload, -, h⟩ := bind_eq_ok.mp h
          obtain ⟨keyId, -, h⟩ := bind_eq_ok.mp h
          cases h
        · obtain ⟨payload, hop⟩ := eq_of_reads h
          cases hop
        · cases h
        · cases h
      · cases h
  · cases policyRegistryPost_role h rfl
  · exact ⟨hroles, h⟩
  · have h := attempt_eq_reached workflowErrors_ne h
    split_ifs at h
    · obtain ⟨payload, hop⟩ := eq_of_reads h
      cases hop
    · obtain ⟨payload, hop⟩ := eq_of_reads h
      cases hop
    · split at h
      · split_ifs at h
        · obtain ⟨payload, hop⟩ := eq_of_reads h
          cases hop
        · cases h
      · split_ifs at h
        · obtain ⟨payload, hop⟩ := eq_of_reads h
          cases hop
        · cases h
      · cases h
  · have h := attempt_eq_reached operatorKeyErrors_ne h
    split_ifs at h
    · obtain ⟨payload, hop⟩ := eq_of_reads h
      cases hop
    · split at h
      · split_ifs at h
        · cases h
        · cases h
      · cases h
  · cases adminJobsPost_role h rfl
  · cases servicePost_role h

theorem roleAssignmentPost_identity
    (h : api.roleAssignmentPost request attributes =
      .reached (.assignRole principalId role assignedBy tenant)) :
    assignedBy = attributes.actorId ∧ tenant ≠ [] ∧
      ∃ identity, attributes.runtimeIdentity = some identity ∧ identity.tenantId = some tenant := by
  have h := eq_reached_of_unless h
  obtain ⟨payload, -, h⟩ := bind_eq_ok.mp (attempt_eq_reached storeErrors_ne h)
  obtain ⟨principal, -, h⟩ := bind_eq_ok.mp h
  obtain ⟨assigned, -, h⟩ := bind_eq_ok.mp h
  split at h
  · split at h
    · next htenant =>
        cases h
        obtain ⟨identity, hidentity, htenant⟩ := Option.bind_eq_some_iff.mp htenant
        exact ⟨rfl, by simp, identity, hidentity, htenant⟩
    · cases h
  · cases h

-- who assigns a role: an administrator by the roles that the identity has with the answer
theorem assigner {answer : RuntimeIdentity → RuntimeIdentity}
    (h : (api.enriching answer).doPost request P =
      .reached (.assignRole principalId role assignedBy tenant)) :
    tenant ≠ [] ∧ ∃ identity, api.presented request = some identity ∧
      (answer identity).tenantId = some tenant ∧
      (api.HoldsOperatorToken request ∨ Role.platformAdmin.value ∈ (answer identity).roles) := by
  obtain ⟨attributes, hattributes, hauthorized⟩ := doPost_eq_reached h
  obtain ⟨hadmitted, hdispatch⟩ := authorizedPost_eq_reached hauthorized rfl
  obtain ⟨hroute, hhandler⟩ := roleAssignmentPost_of_dispatch hdispatch
  obtain ⟨-, htenant, enriched, henriched, hsame⟩ := roleAssignmentPost_identity hhandler
  have hpresented := runtimeIdentity_enriching hattributes
  rw [henriched] at hpresented
  obtain ⟨identity, hidentity, rfl⟩ := Option.map_eq_some_iff.mp hpresented.symm
  refine ⟨htenant, identity, hidentity, hsame, ?_⟩
  have hadmin : startsWith request.route "/admin" = true := by
    rw [hroute]
    decide
  obtain ⟨-, hgranted⟩ := adminAuthorized_eq_true (adminAuthorized_of_admitted hadmin hadmitted)
  have hroles : adminRequiredRoles "POST" request.route = [.platformAdmin] := by
    rw [hroute]
    decide
  rw [hroles, RequestAttributes.Holds, RequestAttributes.held, henriched] at hgranted
  rcases hgranted with htoken | hplatform | ⟨required, hrequired, hheld⟩
  · exact .inl htoken
  · exact .inr hplatform
  · obtain rfl := List.mem_singleton.mp hrequired
    exact .inr hheld

end Assigning

end AuthenticatedAPI

-- the token of all operators, or a role that the identity brings along
def RoleGrant.FromOutside (grant : RoleGrant) : Prop :=
  grant.api.HoldsOperatorToken grant.request ∨ Role.platformAdmin.value ∈ grant.caller.roles

def RoleGrant.held (grant : RoleGrant) : Str × Str × Role :=
  (grant.principalId, grant.tenant, grant.role)

def roleDelegation : Delegation IdentityEntry (Str × Str × Role) where
  gives entry held := ∃ grant, entry = .granted grant ∧ grant.held = held
  rooted entry := ∃ grant, entry = .granted grant ∧ grant.FromOutside
  restsOn entry held := ∃ grant, entry = .granted grant ∧ ∃ subject,
    grant.caller.subject = some subject ∧ held = (subject, grant.tenant, .platformAdmin)

-- the roles of an identity are its own and those that were granted to it before
structure Enriches (before : List IdentityEntry) (identity enriched : RuntimeIdentity) : Prop where
  same : enriched = { identity with roles := enriched.roles }
  roles : ∀ r, r ∈ enriched.roles ↔ r ∈ identity.roles ∨ ∃ role : Role, r = role.value ∧
    roleDelegation.Given before (identity.subject.getD [], identity.tenantId.getD [], role)

def MayAssign (trace : List IdentityEntry) (api : AuthenticatedAPI) (request : HttpRequest)
    (caller : RuntimeIdentity) (tenant : Str) : Prop :=
  api.HoldsOperatorToken request ∨ Role.platformAdmin.value ∈ caller.roles ∨
    ∃ subject, caller.subject = some subject ∧
      roleDelegation.Given trace (subject, tenant, .platformAdmin)

def IdentityStage.Backed (trace : List IdentityEntry) : IdentityStage → Prop
  | .idle => True
  | .recording api request identity enriched =>
      api.presented request = some identity ∧ AuthenticatedAPI.isNamed identity.subject = true ∧
        enriched = { identity with roles := enriched.roles } ∧
        ∀ r ∈ enriched.roles, r ∈ identity.roles ∨ ∃ role : Role, r = role.value ∧
          roleDelegation.Given trace (identity.subject.getD [], identity.tenantId.getD [], role)
  | .assigning api request caller _ _ _ tenant =>
      ∃ identity, caller = some identity ∧ identity.tenantId = some tenant ∧
        MayAssign trace api request identity tenant

namespace AuthenticationRecord

variable (call : AuthenticationRecord) (key : Str × Str)

def profile : Option (Option Str × Option Str) :=
  if call.servicePrincipal = false ∧ (call.subject, call.tenant) = key then
    some (call.email, call.displayName)
  else none

def principalName : Option Str :=
  match call.servicePrincipal, call.clientId with
  | true, some (p :: clientId) =>
      if (p :: clientId, call.tenant) = key then
        some (IdentityStore.principalName call.displayName (p :: clientId))
      else none
  | _, _ => none

end AuthenticationRecord

-- what an event says, and what it should say
def IdentityEventRow.said (row : IdentityEventRow) : IdentityEventType × Str × PyDict :=
  (row.eventType, row.principalId, row.details)

def IdentityEntry.said : IdentityEntry → Option (IdentityEventType × Str × PyDict)
  | .identified _ _ => none
  | .recorded enriched =>
      let call := IdentityStore.authenticationOf enriched
      some (.authenticated, call.subject, call.details)
  | .granted grant =>
      some (.roleAssigned, grant.principalId, IdentityStore.assignmentDetails grant.principalId
        grant.assignedBy grant.tenant grant.role)

def UserRow.profile (row : UserRow) : Option Str × Option Str := (row.email, row.displayName)

-- what a recorded authentication says of the user of a key
def IdentityEntry.profile (key : Str × Str) : IdentityEntry → Option (Option Str × Option Str)
  | .recorded enriched => (IdentityStore.authenticationOf enriched).profile key
  | _ => none

def IdentityEntry.principalName (key : Str × Str) : IdentityEntry → Option Str
  | .recorded enriched => (IdentityStore.authenticationOf enriched).principalName key
  | _ => none

section Store

variable {store store' : IdentityStore}

theorem Role.value_inj {role role' : Role} (h : role.value = role'.value) : role = role' := by
  revert h
  cases role <;> cases role' <;> decide

theorem mem_rolesFor {principalId tenant r : Str} : r ∈ store.rolesFor principalId tenant ↔
    ∃ role : Role, r = role.value ∧
      (store.roleAssignments.find (principalId, tenant, role)).isSome = true := by
  rw [IdentityStore.rolesFor, sortedStrs, List.mem_insertionSort, List.mem_map]
  simp only [List.mem_filter, decide_eq_true_eq]
  constructor
  · rintro ⟨row, ⟨hrow, rfl, rfl⟩, rfl⟩
    exact ⟨row.roleId, rfl, Option.isSome_iff_exists.mpr ⟨row, Table.mem_rows.mp hrow⟩⟩
  · rintro ⟨role, rfl, hfind⟩
    obtain ⟨row, hrow⟩ := Option.isSome_iff_exists.mp hfind
    obtain ⟨hmem, hkey⟩ := Table.find_eq_some.mp hrow
    obtain ⟨rfl, hrest⟩ := Prod.ext_iff.mp hkey
    obtain ⟨rfl, rfl⟩ := Prod.ext_iff.mp hrest
    exact ⟨row, ⟨hmem, rfl, rfl⟩, rfl⟩

theorem rows_insertEvent {event : IdentityEventRow} (h : store.insertEvent event = .ok store') :
    store'.roleAssignments = store.roleAssignments ∧ store'.users = store.users ∧
      store'.servicePrincipals = store.servicePrincipals ∧
      store'.identityEvents.rows = store.identityEvents.rows ++ [event] := by
  obtain ⟨_, hnew, h⟩ := bind_eq_ok.mp h
  obtain rfl := Except.ok.inj h
  refine ⟨rfl, rfl, rfl, ?_⟩
  rw [Table.upsert, dif_neg (raiseIf_eq_ok.mp hnew)]

-- a user's row or a service principal's is what the call says; no other row changes
theorem rows_upsertCaller {call : AuthenticationRecord} {made : MadeRow}
    (h : store.upsertCaller call made = .ok store') :
    store'.roleAssignments = store.roleAssignments ∧
      store'.identityEvents = store.identityEvents ∧
      (∀ key, (store'.users.find key).map UserRow.profile =
        (call.profile key).or ((store.users.find key).map UserRow.profile)) ∧
      ∀ key, (store'.servicePrincipals.find key).map ServicePrincipalRow.name =
        (call.principalName key).or
          ((store.servicePrincipals.find key).map ServicePrincipalRow.name) := by
  rw [IdentityStore.upsertCaller] at h
  split at h
  · next hprincipal =>
      have hprofile : ∀ key, call.profile key = none := by
        intro key
        simp [AuthenticationRecord.profile, hprincipal]
      rw [IdentityStore.upsertPrincipal.eq_def] at h
      split at h
      · next p clientId hclient =>
          obtain ⟨_, -, h⟩ := bind_eq_ok.mp h
          obtain ⟨_, -, h⟩ := bind_eq_ok.mp h
          obtain rfl := Except.ok.inj h
          refine ⟨rfl, rfl, fun key => by rw [hprofile, Option.none_or], fun key => ?_⟩
          simp only [AuthenticationRecord.principalName, hprincipal, hclient]
          rw [Table.find_upsert, ServicePrincipalRow.key]
          split
          · cases store.servicePrincipals.find key <;> rfl
          · rfl
      · next hother =>
          obtain rfl := Except.ok.inj h
          have hname : ∀ key, call.principalName key = none := by
            intro key
            rw [AuthenticationRecord.principalName]
            split
            · next p clientId _ hclient => exact absurd hclient (hother p clientId)
            · rfl
          refine ⟨rfl, rfl, fun key => ?_, fun key => ?_⟩
          · rw [hprofile, Option.none_or]
          · rw [hname, Option.none_or]
  · next hhuman =>
      have hname : ∀ key, call.principalName key = none := by
        intro key
        rw [AuthenticationRecord.principalName, Bool.eq_false_iff.mpr hhuman]
      obtain ⟨_, -, h⟩ := bind_eq_ok.mp h
      obtain ⟨_, -, h⟩ := bind_eq_ok.mp h
      obtain rfl := Except.ok.inj h
      refine ⟨rfl, rfl, fun key => ?_, fun key => by rw [hname, Option.none_or]⟩
      simp only [AuthenticationRecord.profile, Bool.eq_false_iff.mpr hhuman, Table.find_upsert,
        true_and]
      have hkey : (call.userRow made).key = (call.subject, call.tenant) := rfl
      rw [hkey]
      split
      · cases store.users.find key <;> rfl
      · rfl

theorem rows_recordAuthentication {call : AuthenticationRecord} {made : MadeRow}
    (h : store.recordAuthentication call made = .ok store') :
    store'.roleAssignments = store.roleAssignments ∧
      store'.identityEvents.rows = store.identityEvents.rows ++ [call.event made] ∧
      (∀ key, (store'.users.find key).map UserRow.profile =
        (call.profile key).or ((store.users.find key).map UserRow.profile)) ∧
      ∀ key, (store'.servicePrincipals.find key).map ServicePrincipalRow.name =
        (call.principalName key).or
          ((store.servicePrincipals.find key).map ServicePrincipalRow.name) := by
  obtain ⟨_, -, h⟩ := bind_eq_ok.mp h
  obtain ⟨middle, hmiddle, h⟩ := bind_eq_ok.mp h
  obtain ⟨_, -, h⟩ := bind_eq_ok.mp h
  obtain ⟨hassigned, husers, hprincipals, hevents⟩ := rows_insertEvent h
  have hcaller := rows_upsertCaller hmiddle
  rw [hassigned, hevents, husers, hprincipals, ← hcaller.2.1]
  exact ⟨hcaller.1, rfl, hcaller.2.2⟩

theorem rows_assignRole {principalId text assignedBy tenant : Str} {made : MadeRow} {role : Role}
    (h : store.assignRole principalId text assignedBy tenant made = .ok (role, store')) :
    (∀ held, (store'.roleAssignments.find held).isSome = true ↔
      held = (principalId, tenant, role) ∨ (store.roleAssignments.find held).isSome = true) ∧
    store'.users = store.users ∧ store'.servicePrincipals = store.servicePrincipals ∧
    store'.identityEvents.rows = store.identityEvents.rows ++
      [⟨made.eventId, .roleAssigned, principalId,
        IdentityStore.assignmentDetails principalId assignedBy tenant role, made.now⟩] := by
  obtain ⟨-, -, h⟩ := bind_eq_ok.mp h
  split at h
  · cases h
  · next role' hrole =>
      obtain ⟨-, -, h⟩ := bind_eq_ok.mp h
      obtain ⟨-, -, h⟩ := bind_eq_ok.mp h
      obtain ⟨inserted, hinserted, h⟩ := bind_eq_ok.mp h
      obtain ⟨rfl, rfl⟩ := Prod.ext_iff.mp (Except.ok.inj h)
      obtain ⟨hassigned, husers, hprincipals, hevents⟩ := rows_insertEvent hinserted
      refine ⟨fun held => ?_, husers, hprincipals, hevents⟩
      rw [hassigned, Table.find_insert]
      split
      · next hkey => exact iff_of_true rfl (.inl hkey.symm)
      · next hkey => exact (or_iff_right fun heq => hkey heq.symm).symm

end Store

namespace IdentityWorld

variable {ι : Type} {P : Primitives} {w : IdentityWorld ι} {i : ι}

-- what holds of the tables, the requests under way and the log after every move
structure Accounted (w : IdentityWorld ι) : Prop where
  assigned : ∀ held, (w.store.roleAssignments.find held).isSome = true ↔
    roleDelegation.Given w.trace held
  founded : roleDelegation.Founded w.trace
  domestic : ∀ grant, .granted grant ∈ w.trace → grant.caller.tenantId = some grant.tenant
  identified : ∀ before identity enriched after,
    w.trace = before ++ .identified identity enriched :: after → Enriches before identity enriched
  events : w.store.identityEvents.rows.map IdentityEventRow.said =
    w.trace.filterMap IdentityEntry.said
  users : ∀ key, (w.store.users.find key).map UserRow.profile =
    lastSome (IdentityEntry.profile key) w.trace
  principals : ∀ key, (w.store.servicePrincipals.find key).map ServicePrincipalRow.name =
    lastSome (IdentityEntry.principalName key) w.trace
  backed : ∀ i, (w.stage i).Backed w.trace

section Growth

variable {trace : List IdentityEntry} {entry : IdentityEntry}

theorem given_granted {held : Str × Str × Role} {grant : RoleGrant} :
    roleDelegation.Given (trace ++ [.granted grant]) held ↔
      roleDelegation.Given trace held ∨ grant.held = held := by
  rw [Delegation.given_concat]
  refine or_congr_right ⟨?_, fun h => ⟨grant, rfl, h⟩⟩
  rintro ⟨grant', heq, h⟩
  obtain rfl := IdentityEntry.granted.inj heq
  exact h

theorem given_other {held : Str × Str × Role} (h : ∀ grant, entry ≠ .granted grant) :
    roleDelegation.Given (trace ++ [entry]) held ↔ roleDelegation.Given trace held := by
  rw [Delegation.given_concat]
  refine or_iff_left ?_
  rintro ⟨grant, heq, -⟩
  exact h grant heq

theorem mayAssign_append {api : AuthenticatedAPI} {request : HttpRequest} {caller : RuntimeIdentity}
    {tenant : Str} (h : MayAssign trace api request caller tenant) (more : List IdentityEntry) :
    MayAssign (trace ++ more) api request caller tenant := by
  rcases h with htoken | hrole | ⟨subject, hsubject, hgiven⟩
  · exact .inl htoken
  · exact .inr (.inl hrole)
  · exact .inr (.inr ⟨subject, hsubject, hgiven.append more⟩)

theorem backed_append {stage : IdentityStage} (h : stage.Backed trace)
    (more : List IdentityEntry) : stage.Backed (trace ++ more) := by
  cases stage with
  | idle => trivial
  | recording api request identity enriched =>
      obtain ⟨hpresented, hnamed, hsame, hroles⟩ := h
      refine ⟨hpresented, hnamed, hsame, fun r hr => ?_⟩
      rcases hroles r hr with hown | ⟨role, hvalue, hgiven⟩
      · exact .inl hown
      · exact .inr ⟨role, hvalue, hgiven.append more⟩
  | assigning api request caller principalId role assignedBy tenant =>
      obtain ⟨identity, hcaller, htenant, hmay⟩ := h
      exact ⟨identity, hcaller, htenant, mayAssign_append hmay more⟩

end Growth

-- a stage that the log backs
theorem Accounted.goTo [DecidableEq ι] {stage : IdentityStage} (h : Accounted w)
    (hstage : stage.Backed w.trace) : Accounted (w.goTo i stage) := by
  refine { h with backed := fun j => ?_ }
  by_cases hj : j = i
  · subst hj
    simpa [IdentityWorld.goTo] using hstage
  · simpa [IdentityWorld.goTo, hj] using h.backed j

-- an entry that grants nothing
theorem Accounted.log {store : IdentityStore} {entry : IdentityEntry} (h : Accounted w)
    (hentry : ∀ grant, entry ≠ .granted grant)
    (hassigned : store.roleAssignments = w.store.roleAssignments)
    (hidentified : ∀ identity enriched, entry = .identified identity enriched →
      Enriches w.trace identity enriched)
    (hevents : store.identityEvents.rows.map IdentityEventRow.said =
      w.store.identityEvents.rows.map IdentityEventRow.said ++ entry.said.toList)
    (husers : ∀ key, (store.users.find key).map UserRow.profile =
      (entry.profile key).or ((w.store.users.find key).map UserRow.profile))
    (hprincipals : ∀ key, (store.servicePrincipals.find key).map ServicePrincipalRow.name =
      (entry.principalName key).or
        ((w.store.servicePrincipals.find key).map ServicePrincipalRow.name)) :
    Accounted ({ w with store := store }.log entry) := by
  refine ⟨fun held => ?_, ?_, fun grant hgrant => ?_, ?_, ?_, fun key => ?_, fun key => ?_,
    fun j => ?_⟩
  · show (store.roleAssignments.find held).isSome = true ↔
      roleDelegation.Given (w.trace ++ [entry]) held
    rw [hassigned, given_other hentry, h.assigned]
  · refine Delegation.founded_concat.mpr ⟨h.founded, fun held hgives => ?_⟩
    obtain ⟨grant, heq, -⟩ := hgives
    exact absurd heq (hentry grant)
  · rcases List.mem_append.mp hgrant with hgrant | hgrant
    · exact h.domestic grant hgrant
    · exact absurd (List.mem_singleton.mp hgrant).symm (hentry grant)
  · intro before identity enriched after heq
    rcases Delegation.concat_eq_middle heq with ⟨rfl, hlast⟩ | ⟨after', heq⟩
    · exact hidentified identity enriched hlast
    · exact h.identified before identity enriched after' heq
  · show store.identityEvents.rows.map IdentityEventRow.said =
      (w.trace ++ [entry]).filterMap IdentityEntry.said
    rw [hevents, h.events, List.filterMap_append]
    cases hsaid : entry.said with
    | none => simp [hsaid]
    | some said => simp [hsaid]
  · exact (husers key).trans (by rw [h.users]; exact lastSome_concat.symm)
  · exact (hprincipals key).trans (by rw [h.principals]; exact lastSome_concat.symm)
  · exact backed_append (h.backed j) [entry]

-- a grant that was committed
theorem Accounted.grant {store : IdentityStore} {grant : RoleGrant} (h : Accounted w)
    (hassigned : ∀ held, (store.roleAssignments.find held).isSome = true ↔
      held = grant.held ∨ (w.store.roleAssignments.find held).isSome = true)
    (hevents : store.identityEvents.rows.map IdentityEventRow.said =
      w.store.identityEvents.rows.map IdentityEventRow.said ++
        (IdentityEntry.granted grant).said.toList)
    (husers : store.users = w.store.users)
    (hprincipals : store.servicePrincipals = w.store.servicePrincipals)
    (htenant : grant.caller.tenantId = some grant.tenant)
    (hmay : MayAssign w.trace grant.api grant.request grant.caller grant.tenant) :
    Accounted ({ w with store := store }.log (.granted grant)) := by
  refine ⟨fun held => ?_, ?_, fun grant' hgrant => ?_, ?_, ?_, fun key => ?_, fun key => ?_,
    fun j => ?_⟩
  · show (store.roleAssignments.find held).isSome = true ↔
      roleDelegation.Given (w.trace ++ [.granted grant]) held
    rw [hassigned, given_granted, h.assigned, or_comm, eq_comm]
  · refine Delegation.founded_concat.mpr ⟨h.founded, fun held hgives => ?_⟩
    rcases hmay with htoken | hrole | ⟨subject, hsubject, hgiven⟩
    · exact .inl ⟨grant, rfl, .inl htoken⟩
    · exact .inl ⟨grant, rfl, .inr hrole⟩
    · exact .inr ⟨_, ⟨grant, rfl, subject, hsubject, rfl⟩, hgiven⟩
  · rcases List.mem_append.mp hgrant with hgrant | hgrant
    · exact h.domestic grant' hgrant
    · obtain rfl := IdentityEntry.granted.inj (List.mem_singleton.mp hgrant)
      exact htenant
  · intro before identity enriched after heq
    rcases Delegation.concat_eq_middle heq with ⟨-, hlast⟩ | ⟨after', heq⟩
    · cases hlast
    · exact h.identified before identity enriched after' heq
  · show store.identityEvents.rows.map IdentityEventRow.said =
      (w.trace ++ [IdentityEntry.granted grant]).filterMap IdentityEntry.said
    rw [hevents, h.events, List.filterMap_append]
    rfl
  · show (store.users.find key).map UserRow.profile =
      lastSome (IdentityEntry.profile key) (w.trace ++ [.granted grant])
    rw [husers, h.users, lastSome_concat]
    rfl
  · show (store.servicePrincipals.find key).map ServicePrincipalRow.name =
      lastSome (IdentityEntry.principalName key) (w.trace ++ [.granted grant])
    rw [hprincipals, h.principals, lastSome_concat]
    rfl
  · exact backed_append (h.backed j) _

section Steps

variable {api : AuthenticatedAPI} {request : HttpRequest} {identity enriched : RuntimeIdentity}
  {answer : RuntimeIdentity → RuntimeIdentity} {made : MadeRow} {fault : TransactionFault}

theorem enriches_of_store (h : Accounted w) (identity : RuntimeIdentity) :
    Enriches w.trace identity (w.store.enriched identity) := by
  refine ⟨rfl, fun r => ?_⟩
  rw [IdentityStore.enriched, sortedSet, sortedStrs, List.mem_insertionSort, List.mem_dedup,
    List.mem_append, mem_rolesFor]
  refine or_congr_right (exists_congr fun role => and_congr_right fun _ => ?_)
  exact h.assigned _

theorem accounted_enrich [DecidableEq ι] (h : Accounted w)
    (hpresented : api.presented request = some identity) (fault : Option Exc) : Accounted (w.enrich i api request identity fault) := by
  unfold enrich
  split
  · next hnamed =>
      cases fault with
      | some e => exact h
      | none =>
          have henriches := enriches_of_store h identity
          have hlogged : Accounted (w.log (.identified identity (w.store.enriched identity))) := by
            have hidentified : ∀ identity' enriched,
                IdentityEntry.identified identity (w.store.enriched identity) =
                  .identified identity' enriched → Enriches w.trace identity' enriched := by
              rintro _ _ ⟨⟩
              exact henriches
            exact h.log (by simp) rfl hidentified (by simp [IdentityEntry.said]) (fun _ => rfl)
              fun _ => rfl
          refine hlogged.goTo ⟨hpresented, ?_, henriches.same, fun r hr => ?_⟩
          · simp only [Bool.and_eq_true] at hnamed
            exact hnamed.1.1
          · rcases (henriches.roles r).mp hr with hown | ⟨role, hvalue, hgiven⟩
            · exact .inl hown
            · exact .inr ⟨role, hvalue, hgiven.append _⟩
  · exact h

-- the handler reaches assign_role only for one who may assign
theorem accounted_handle [DecidableEq ι] {caller : Option RuntimeIdentity} (h : Accounted w)
    (hcaller : ∀ principalId role assignedBy tenant,
      (api.enriching answer).doPost request P =
        .reached (.assignRole principalId role assignedBy tenant) →
      (IdentityStage.assigning (api.enriching answer) request caller principalId role assignedBy
        tenant).Backed w.trace) :
    Accounted (w.handle P i (api.enriching answer) request caller) := by
  unfold handle
  split
  · split
    · next hreached => exact h.goTo (hcaller _ _ _ _ hreached)
    · exact h.goTo trivial
  · exact h.goTo trivial

variable [DecidableEq ι]

theorem accounted_authenticate (h : Accounted w) (fault : Option Exc) :
    Accounted (w.authenticate P i api request fault) := by
  unfold authenticate
  split
  · split
    · next identity hpresented => exact accounted_enrich h hpresented fault
    · next hnone =>
        refine accounted_handle h fun principalId role assignedBy tenant hreached => ?_
        obtain ⟨-, identity, hpresented, -⟩ := AuthenticatedAPI.assigner hreached
        rw [hnone] at hpresented
        cases hpresented
  · exact h

theorem accounted_record (h : Accounted w)
    (hbacked : (IdentityStage.recording api request identity enriched).Backed w.trace) :
    Accounted (w.recordAuthentication P i api request identity enriched made fault) := by
  obtain ⟨hpresented, hnamed, hsame, hroles⟩ := hbacked
  unfold recordAuthentication
  cases hwritten : w.store.recordAuthentication (IdentityStore.authenticationOf enriched) made with
  | error e => exact h.goTo trivial
  | ok store =>
      obtain ⟨hassigned, hevents, husers, hprincipals⟩ := rows_recordAuthentication hwritten
      have hlogged : Accounted ({ w with store := store }.log (.recorded enriched)) := by
        refine h.log (by simp) hassigned (by simp) ?_ husers hprincipals
        rw [hevents, List.map_append]
        rfl
      have htrace : ({ w with store := store }.log (.recorded enriched)).trace =
          w.trace ++ [.recorded enriched] := rfl
      cases fault with
      | some fault =>
          obtain ⟨committed, e⟩ := fault
          cases committed with
          | true => exact hlogged.goTo trivial
          | false => exact h.goTo trivial
      | none =>
          refine accounted_handle hlogged fun principalId role assignedBy tenant hreached => ?_
          obtain ⟨-, identity', hpresented', htenant, hmay⟩ := AuthenticatedAPI.assigner hreached
          rw [hpresented] at hpresented'
          obtain rfl := Option.some.inj hpresented'
          have htenant' : identity.tenantId = some tenant := by
            rw [hsame] at htenant
            exact htenant
          refine ⟨identity, rfl, htenant', mayAssign_append ?_ _⟩
          rcases hmay with htoken | hrole
          · exact .inl htoken
          · rcases hroles _ hrole with hown | ⟨role', hvalue, hgiven⟩
            · exact .inr (.inl hown)
            · obtain rfl := Role.value_inj hvalue
              obtain ⟨subject, hsubject⟩ : ∃ subject, identity.subject = some subject := by
                cases hsubject : identity.subject with
                | some subject => exact ⟨subject, rfl⟩
                | none =>
                    rw [hsubject] at hnamed
                    cases hnamed
              rw [hsubject, htenant'] at hgiven
              exact .inr (.inr ⟨subject, hsubject, hgiven⟩)

theorem accounted_assign {caller : Option RuntimeIdentity}
    {principalId role assignedBy tenant : Str} (h : Accounted w)
    (hbacked : (IdentityStage.assigning api request caller principalId role assignedBy
      tenant).Backed w.trace) :
    Accounted
      (w.assignRole i api request caller principalId role assignedBy tenant made fault) := by
  obtain ⟨identity, rfl, htenant, hmay⟩ := hbacked
  unfold assignRole
  cases hwritten : w.store.assignRole principalId role assignedBy tenant made with
  | error e => exact h.goTo trivial
  | ok written =>
      obtain ⟨assigned, store⟩ := written
      obtain ⟨hassigned, husers, hprincipals, hevents⟩ := rows_assignRole hwritten
      have hlogged : Accounted ({ w with store := store }.log (.granted
          ⟨api, request, identity, principalId, tenant, assigned, assignedBy⟩)) := by
        refine h.grant hassigned ?_ husers hprincipals htenant hmay
        rw [hevents, List.map_append]
        rfl
      cases fault with
      | none => exact hlogged.goTo trivial
      | some fault =>
          obtain ⟨committed, e⟩ := fault
          cases committed with
          | true => exact hlogged.goTo trivial
          | false => exact h.goTo trivial

theorem accounted_step (h : Accounted w) (move : IdentityMove ι) : Accounted (step P w move) := by
  cases move with
  | authenticate i api request fault =>
      simp only [step]
      split
      · exact accounted_authenticate h fault
      · exact h
  | record i made fault =>
      have hbacked := h.backed i
      simp only [step]
      split
      · next api request identity enriched hstage =>
          rw [hstage] at hbacked
          exact accounted_record h hbacked
      · exact h
  | assign i made fault =>
      have hbacked := h.backed i
      simp only [step]
      split
      · next api request caller principalId role assignedBy tenant hstage =>
          rw [hstage] at hbacked
          exact accounted_assign h hbacked
      · exact h

theorem accounted_run (moves : List (IdentityMove ι)) : Accounted (run P moves) := by
  induction moves using List.reverseRecOn with
  | nil =>
      refine ⟨fun held => ?_, Delegation.founded_nil, ?_, ?_, rfl, fun key => rfl, fun key => rfl,
        fun i => trivial⟩
      · refine iff_of_false (by simp [run, Table.find, Table.empty]) ?_
        rintro ⟨entry, hentry, -⟩
        cases hentry
      · intro grant hgrant
        cases hgrant
      · intro before identity enriched after heq
        cases before <;> cases heq
  | append_singleton moves move ih =>
      rw [run, Calls.run_append]
      exact accounted_step ih move

end Steps

end IdentityWorld

namespace IdentityWorld

variable {ι : Type} {w : IdentityWorld ι}

-- nobody from outside has granted anything in the tenant
def Unopened (trace : List IdentityEntry) (tenant : Str) : Prop :=
  ∀ grant, .granted grant ∈ trace → grant.tenant = tenant → ¬ grant.FromOutside

structure RolesAccountedFor (w : IdentityWorld ι) : Prop where
  -- every row goes back to a caller who brought the authority along, tenant by tenant
  derived : ∀ row ∈ w.store.roleAssignments.rows, roleDelegation.Derived w.trace row.key
  domestic : ∀ grant, .granted grant ∈ w.trace → grant.caller.tenantId = some grant.tenant
  kept : ∀ grant, .granted grant ∈ w.trace →
    ∃ row ∈ w.store.roleAssignments.rows, row.key = grant.held
  -- a request runs with its own roles and those granted before it was identified
  identified : ∀ before identity enriched after,
    w.trace = before ++ .identified identity enriched :: after → Enriches before identity enriched
  isolated : ∀ tenant, Unopened w.trace tenant →
    (∀ row ∈ w.store.roleAssignments.rows, row.tenantId ≠ tenant) ∧
      ∀ identity enriched, .identified identity enriched ∈ w.trace →
        identity.tenantId = some tenant → ∀ r, r ∈ enriched.roles ↔ r ∈ identity.roles
  events : w.store.identityEvents.rows.map IdentityEventRow.said =
    w.trace.filterMap IdentityEntry.said
  users : ∀ key, (w.store.users.find key).map UserRow.profile =
    lastSome (IdentityEntry.profile key) w.trace
  principals : ∀ key, (w.store.servicePrincipals.find key).map ServicePrincipalRow.name =
    lastSome (IdentityEntry.principalName key) w.trace

theorem not_given_of_unopened {trace : List IdentityEntry} {tenant principalId : Str} {role : Role}
    (hfounded : roleDelegation.Founded trace) (h : Unopened trace tenant) :
    ¬ roleDelegation.Given trace (principalId, tenant, role) := by
  intro hgiven
  have hdomain : ∀ entry held other, roleDelegation.gives entry held →
      roleDelegation.restsOn entry other → other.2.1 = held.2.1 := by
    rintro entry held other ⟨grant, rfl, rfl⟩ ⟨grant', heq, subject, -, rfl⟩
    obtain rfl := IdentityEntry.granted.inj heq
    rfl
  obtain ⟨entry, hentry, ⟨grant, rfl, houtside⟩, held, ⟨grant', heq, rfl⟩, hsame⟩ :=
    (Delegation.derived_of_given hfounded hgiven).exists_root (fun held => held.2.1) hdomain
  obtain rfl := IdentityEntry.granted.inj heq
  exact h grant hentry hsame houtside

theorem founded_of_append {before after : List IdentityEntry} {entry : IdentityEntry}
    (h : roleDelegation.Founded (before ++ entry :: after)) : roleDelegation.Founded before := by
  rintro first e rest held rfl
  exact h first e (rest ++ entry :: after) held (by simp)

theorem Accounted.rolesAccountedFor (h : Accounted w) : RolesAccountedFor w where
  derived row hrow := by
    refine Delegation.derived_of_given h.founded ((h.assigned row.key).mp ?_)
    exact Option.isSome_iff_exists.mpr ⟨row, Table.mem_rows.mp hrow⟩
  domestic := h.domestic
  kept grant hgrant := by
    have hfind := (h.assigned grant.held).mpr ⟨_, hgrant, grant, rfl, rfl⟩
    obtain ⟨row, hrow⟩ := Option.isSome_iff_exists.mp hfind
    exact ⟨row, Table.find_eq_some.mp hrow⟩
  identified := h.identified
  isolated tenant hunopened := by
    refine ⟨fun row hrow hrowTenant => ?_, fun identity enriched hmem hidentity r => ?_⟩
    · have hgiven := (h.assigned row.key).mp
        (Option.isSome_iff_exists.mpr ⟨row, Table.mem_rows.mp hrow⟩)
      rw [RoleAssignmentRow.key, hrowTenant] at hgiven
      exact not_given_of_unopened h.founded hunopened hgiven
    · obtain ⟨before, after, heq⟩ := List.append_of_mem hmem
      rw [(h.identified before identity enriched after heq).roles r]
      refine or_iff_left ?_
      rintro ⟨role, -, hgiven⟩
      rw [hidentity] at hgiven
      have hfounded := h.founded
      rw [heq] at hfounded
      refine not_given_of_unopened (founded_of_append hfounded) ?_ hgiven
      intro grant hgrant
      exact hunopened grant (by rw [heq]; exact List.mem_append_left _ hgrant)
  events := h.events
  users := h.users
  principals := h.principals

theorem roles_accounted_for [DecidableEq ι] (P : Primitives) (moves : List (IdentityMove ι)) :
    RolesAccountedFor (run P moves) := (accounted_run moves).rolesAccountedFor

end IdentityWorld

namespace IdentityWorld

def adminIdentity : RuntimeIdentity where
  tenantId := some "north"
  roles := ["platform_admin"]
  subject := some "alice"
  issuer := some "https://idp"

def providerApi : AuthenticatedAPI := { oidcValidator := some fun _ _ => some adminIdentity }

def grantRequest : HttpRequest where
  command := "POST"
  route := "/admin/identities/role-assignments"
  authorization := "Bearer t"
  body := .ok (PyDict.ofFields [("principal_id", .str "bob"), ("role", .str "platform_admin")])

-- an administrator of the provider makes another one
example : (run sizePrimitives
    [.authenticate () providerApi grantRequest none, .record () ⟨"1", "2", "now"⟩ none,
      .assign () ⟨"3", "4", "now"⟩ none]).store.roleAssignments.rows.map RoleAssignmentRow.key =
    [(lit "bob", lit "north", Role.platformAdmin)] := by
  decide +kernel

end IdentityWorld

end GovernedAutonomy
