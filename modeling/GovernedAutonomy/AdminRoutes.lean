import GovernedAutonomy.HttpApi

namespace GovernedAutonomy

open Python

-- the role a caller needs for an operation that changes the state of the platform
def Operation.assignedRole : Operation → Option Role
  | .submitProposal _ _ => some .policyAdmin
  | .submitApproval _ _ _ => some .approver
  | .activateProposal _ _ => some .policyAdmin
  | .publish _ _ => some .policyAdmin
  | .activateVersion _ _ _ _ _ => some .policyAdmin
  | .rollbackVersion _ _ _ _ _ => some .policyAdmin
  | .deprecateVersion _ _ => some .policyAdmin
  | .revokeVersion _ _ => some .policyAdmin
  | .assignRole _ _ _ _ => some .platformAdmin
  | .submitTrustAdd _ _ => some .platformAdmin
  | .submitTrustRevoke _ _ _ => some .platformAdmin
  | .createOperatorKey _ _ => some .platformAdmin
  | .revokeOperatorKey _ _ => some .platformAdmin
  | .createReplayAnchor _ => some .platformAdmin
  | .submitJob _ _ => some .operator
  | _ => none

namespace AuthenticatedAPI

-- the parts of /admin that change state; no route starts like two of them
inductive Area where
  | proposals
  | policyRegistry
  | trustKeys
  | operatorKeys
  | roleAssignments
  | replayAnchor
  | jobs
deriving DecidableEq

namespace Area

def start : Area → String
  | .proposals => "/admin/proposals"
  | .policyRegistry => "/admin/policy-registry"
  | .trustKeys => "/admin/trust/keys"
  | .operatorKeys => "/admin/operator-keys"
  | .roleAssignments => "/admin/identities/role-assignments"
  | .replayAnchor => "/admin/replay/anchor"
  | .jobs => "/admin/jobs"

-- proposals are the one area with two roles
def role : Area → Option Role
  | .proposals => none
  | .policyRegistry => some .policyAdmin
  | .jobs => some .operator
  | _ => some .platformAdmin

def Holds (area : Area) (route : Str) : Prop := startsWith route area.start = true

theorem apart (area other : Area) (h : area ≠ other) :
    startsWith (lit area.start) other.start = false := by
  cases area <;> cases other <;> first | exact absurd rfl h | decide

theorem Holds.unique {area other : Area} {route : Str} (h : area.Holds route)
    (hother : other.Holds route) : area = other := by
  by_contra hne
  exact not_startsWith_of_apart h hother (apart area other hne) (apart other area (Ne.symm hne))

theorem holds_of_eq {area : Area} {route : Str} (h : route = lit area.start) :
    area.Holds route := startsWith_iff.mpr ⟨[], by rw [h, List.append_nil]⟩

theorem holds_of_startsWith {area : Area} {route : Str} {start : String}
    (h : startsWith route start = true) (hstart : startsWith (lit start) area.start = true) :
    area.Holds route := by
  obtain ⟨rest, rfl⟩ := startsWith_iff.mp h
  obtain ⟨middle, hmiddle⟩ := startsWith_iff.mp hstart
  exact startsWith_iff.mpr ⟨middle ++ rest, by rw [hmiddle, List.append_assoc]⟩

theorem holds_of_oneOf {area : Area} {routes : List String} {route : Str}
    (h : oneOf routes route = true)
    (hall : ∀ text ∈ routes, startsWith (lit text) area.start = true) : area.Holds route := by
  rw [oneOf, List.any_eq_true] at h
  obtain ⟨text, htext, hroute⟩ := h
  rw [← of_decide_eq_true hroute]
  exact hall text htext

end Area

section Table

variable {route : Str}

-- the rows of the POST table that are about proposals
inductive ProposalRow (route : Str) : Role → Prop
  | prepare : route = lit "/admin/proposals/prepare" → ProposalRow route .policyAdmin
  | submit : route = lit "/admin/proposals" → ProposalRow route .policyAdmin
  | activate : Segments.between "/admin/proposals/" "/activate" route = true →
      ProposalRow route .policyAdmin
  | prepareApproval : Segments.between "/admin/proposals/" "/prepare-approval" route = true →
      ProposalRow route .approver
  | approve : Segments.between "/admin/proposals/" "/approve" route = true →
      ProposalRow route .approver

theorem ProposalRow.holds {role : Role} (h : ProposalRow route role) :
    Area.proposals.Holds route := by
  cases h with
  | prepare hroute =>
      rw [hroute]
      exact Area.holds_of_startsWith (startsWith_iff.mpr ⟨[], (List.append_nil _).symm⟩)
        (by decide : startsWith (lit "/admin/proposals/prepare") _ = true)
  | submit hroute => exact Area.holds_of_eq hroute
  | activate hroute =>
      exact Area.holds_of_startsWith (Segments.startsWith_of_between hroute) (by decide)
  | prepareApproval hroute =>
      exact Area.holds_of_startsWith (Segments.startsWith_of_between hroute) (by decide)
  | approve hroute =>
      exact Area.holds_of_startsWith (Segments.startsWith_of_between hroute) (by decide)

-- what the POST table asks for on a route: nothing, or one role
theorem adminPostRoles_cases (h : adminPostRoles route ≠ []) :
    ∃ role, adminPostRoles route = [role] ∧
      (ProposalRow route role ∨ ∃ area, Area.Holds area route ∧ area.role = some role) := by
  unfold adminPostRoles at h ⊢
  split
  · next hroute =>
      rw [oneOf, List.any_eq_true] at hroute
      obtain ⟨text, htext, hroute⟩ := hroute
      have hroute := (of_decide_eq_true hroute).symm
      simp only [List.mem_cons, List.not_mem_nil, or_false] at htext
      rcases htext with rfl | rfl
      · exact ⟨_, rfl, Or.inl (.prepare hroute)⟩
      · exact ⟨_, rfl, Or.inl (.submit hroute)⟩
  split
  · next hroute =>
      exact ⟨_, rfl, Or.inr ⟨.policyRegistry, Area.holds_of_oneOf hroute (by decide), rfl⟩⟩
  split
  · next hroute => exact ⟨_, rfl, Or.inl (.activate hroute)⟩
  split
  · next hroute =>
      rcases Bool.or_eq_true_iff.mp hroute with hroute | hroute
      · exact ⟨_, rfl, Or.inl (.prepareApproval hroute)⟩
      · exact ⟨_, rfl, Or.inl (.approve hroute)⟩
  split
  · next hroute => exact ⟨_, rfl, Or.inr ⟨.trustKeys, hroute, rfl⟩⟩
  split
  · next hroute =>
      refine ⟨_, rfl, Or.inr ⟨.operatorKeys, ?_, rfl⟩⟩
      rcases hroute with hroute | hroute
      · exact Area.holds_of_eq hroute
      · exact Area.holds_of_startsWith (Segments.startsWith_of_between hroute) (by decide)
  split
  · next hroute => exact ⟨_, rfl, Or.inr ⟨.roleAssignments, Area.holds_of_eq hroute, rfl⟩⟩
  split
  · next hroute => exact ⟨_, rfl, Or.inr ⟨.replayAnchor, Area.holds_of_eq hroute, rfl⟩⟩
  split
  · next hroute => exact ⟨_, rfl, Or.inr ⟨.jobs, Area.holds_of_eq hroute, rfl⟩⟩
  · next hproposals hregistry hactivate happrove htrust hkeys hroles hanchor hjobs =>
      simp only [hproposals, hregistry, hactivate, happrove, htrust, hkeys, hroles, hanchor, hjobs,
        Bool.false_eq_true, if_false, ne_eq, not_true_eq_false] at h

end Table

section Handlers

variable {request : HttpRequest} {api : AuthenticatedAPI} {attributes : RequestAttributes}
  {actorId route : Str} {op : Operation} {role : Role}

theorem attempt_eq_reached {clauses : Exc → Option Handled} {r : Result Handled}
    (hclauses : ∀ e, clauses e ≠ some (.reached op)) (h : attempt clauses r = .reached op) :
    r = .ok (.reached op) := by
  cases r with
  | ok handled => rw [show handled = .reached op from h]
  | error e =>
      rw [attempt] at h
      cases hclause : clauses e with
      | none =>
          rw [hclause] at h
          cases h
      | some handled =>
          rw [hclause] at h
          exact absurd (hclause.trans (congrArg some h)) (hclauses e)

theorem workflowErrors_ne (e : Exc) : workflowErrors e ≠ some (.reached op) := by
  unfold workflowErrors
  split_ifs <;> simp

theorem registryErrors_ne (e : Exc) : registryErrors e ≠ some (.reached op) := by
  unfold registryErrors
  split_ifs <;> simp

theorem operatorKeyErrors_ne (e : Exc) : operatorKeyErrors e ≠ some (.reached op) := by
  intro h
  rw [operatorKeyErrors.eq_def] at h
  rcases Option.or_eq_some_iff.mp h with h | ⟨-, h⟩
  · exact workflowErrors_ne e h
  · split at h <;> cases h

theorem storeErrors_ne (e : Exc) : storeErrors e ≠ some (.reached op) := by
  unfold storeErrors
  split_ifs <;> simp

theorem anchorErrors_ne (e : Exc) : anchorErrors e ≠ some (.reached op) := by
  unfold anchorErrors
  split_ifs <;> simp

theorem certifyErrors_ne (e : Exc) : certifyErrors e ≠ some (.reached op) := by
  unfold certifyErrors
  split_ifs <;> simp

theorem serviceErrors_ne (e : Exc) : serviceErrors e ≠ some (.reached op) := by
  unfold serviceErrors
  split_ifs <;> simp

theorem eq_of_reads {f : PyDict → Operation} {body : Result PyDict}
    (h : (do let payload ← body; Except.ok (Handled.reached (f payload))) =
      .ok (.reached op)) : ∃ payload, op = f payload := by
  obtain ⟨payload, -, h⟩ := bind_eq_ok.mp h
  cases h
  exact ⟨payload, rfl⟩

theorem eq_reached_of_unless {c : Prop} [Decidable c] {status : Nat} {error : Str}
    {handled : Handled} (h : (if c then Handled.sent status error else handled) = .reached op) :
    handled = .reached op := by
  split_ifs at h with hc
  exact h

theorem adminTrustPost_role (h : adminTrustPost request actorId route = .reached op)
    (hop : op.assignedRole = some role) : role = .platformAdmin := by
  have h := attempt_eq_reached workflowErrors_ne h
  split_ifs at h
  · obtain ⟨payload, rfl⟩ := eq_of_reads h
    cases hop
  · obtain ⟨payload, rfl⟩ := eq_of_reads h
    exact (Option.some.inj hop).symm
  · split at h
    · split_ifs at h
      · obtain ⟨payload, rfl⟩ := eq_of_reads h
        cases hop
      · cases h
    · split_ifs at h
      · obtain ⟨payload, rfl⟩ := eq_of_reads h
        exact (Option.some.inj hop).symm
      · cases h
    · cases h

theorem adminOperatorKeysPost_role
    (h : adminOperatorKeysPost request actorId route = .reached op)
    (hop : op.assignedRole = some role) : role = .platformAdmin := by
  have h := attempt_eq_reached operatorKeyErrors_ne h
  split_ifs at h
  · obtain ⟨payload, rfl⟩ := eq_of_reads h
    exact (Option.some.inj hop).symm
  · split at h
    · split_ifs at h
      · cases h
        exact (Option.some.inj hop).symm
      · cases h
    · cases h

theorem versionOperation_role {payload : PyDict} {policyId version : Str}
    (h : versionOperation payload actorId route policyId version = .ok (.reached op))
    (hop : op.assignedRole = some role) : role = .policyAdmin := by
  unfold versionOperation at h
  split_ifs at h
  · obtain ⟨reason, -, h⟩ := bind_eq_ok.mp h
    cases h
    exact (Option.some.inj hop).symm
  · obtain ⟨reason, -, h⟩ := bind_eq_ok.mp h
    cases h
    exact (Option.some.inj hop).symm
  · cases h
    exact (Option.some.inj hop).symm
  · cases h
    exact (Option.some.inj hop).symm
  · cases h

theorem policyRegistryPost_role (h : api.policyRegistryPost request actorId route = .reached op)
    (hop : op.assignedRole = some role) : role = .policyAdmin := by
  have h := eq_reached_of_unless h
  obtain ⟨payload, -, h⟩ := bind_eq_ok.mp (attempt_eq_reached registryErrors_ne h)
  split_ifs at h
  · obtain ⟨_, -, h⟩ := bind_eq_ok.mp h
    obtain ⟨policy, -, h⟩ := bind_eq_ok.mp h
    cases h
    exact (Option.some.inj hop).symm
  · obtain ⟨policyId, -, h⟩ := bind_eq_ok.mp h
    obtain ⟨version, -, h⟩ := bind_eq_ok.mp h
    split at h
    · exact versionOperation_role h hop
    · cases h

theorem roleAssignmentPost_role (h : api.roleAssignmentPost request attributes = .reached op)
    (hop : op.assignedRole = some role) : role = .platformAdmin := by
  have h := eq_reached_of_unless h
  obtain ⟨payload, -, h⟩ := bind_eq_ok.mp (attempt_eq_reached storeErrors_ne h)
  obtain ⟨principalId, -, h⟩ := bind_eq_ok.mp h
  obtain ⟨assigned, -, h⟩ := bind_eq_ok.mp h
  split at h
  · split at h
    · cases h
      exact (Option.some.inj hop).symm
    · cases h
  · cases h

theorem adminJobsPost_role (h : api.adminJobsPost request actorId = .reached op)
    (hop : op.assignedRole = some role) : role = .operator := by
  obtain ⟨payload, rfl⟩ := eq_of_reads (attempt_eq_reached storeErrors_ne (eq_reached_of_unless h))
  exact (Option.some.inj hop).symm

theorem replayAnchorPost_role (h : replayAnchorPost request actorId = .reached op)
    (hop : op.assignedRole = some role) : role = .platformAdmin := by
  obtain ⟨payload, -, h⟩ := bind_eq_ok.mp (attempt_eq_reached anchorErrors_ne h)
  obtain ⟨_, -, h⟩ := bind_eq_ok.mp h
  cases h
  exact (Option.some.inj hop).symm

theorem certifyPost_role (h : certifyPost request = .reached op) : op.assignedRole = none := by
  obtain ⟨payload, rfl⟩ := eq_of_reads (attempt_eq_reached certifyErrors_ne h)
  rfl

theorem servicePost_role {P : Primitives} (h : servicePost request P attributes route = .reached op) :
    op.assignedRole = none := by
  obtain ⟨payload, -, h⟩ := bind_eq_ok.mp (attempt_eq_reached serviceErrors_ne h)
  split_ifs at h
  · obtain ⟨call, -, h⟩ := bind_eq_ok.mp h
    cases h
    rfl
  · obtain ⟨artifact, -, h⟩ := bind_eq_ok.mp h
    cases h
    rfl
  · cases h

theorem partsAfter_between (start : String) {after : String} {segment : Str} (h : Segments.IsSegment segment)
    (hafter : Segments.IsSegment (lit after))
    (hroute : route = lit (start ++ "/") ++ (segment ++ lit ("/" ++ after))) :
    partsAfter start route = [segment, lit after] := by
  rw [partsAfter, hroute, lit_append, List.append_assoc, List.drop_left, lit_append]
  exact Segments.parts_strip h hafter

theorem adminProposalsPost_parts {proposalId operation : Str}
    (hparts : partsAfter "/admin/proposals" route = [proposalId, operation])
    (h : adminProposalsPost request actorId route = .reached op)
    (hop : op.assignedRole = some role) :
    operation = lit "approve" ∧ role = .approver ∨
      operation = lit "activate" ∧ role = .policyAdmin := by
  have h := attempt_eq_reached workflowErrors_ne h
  rw [hparts] at h
  split_ifs at h with hprepare hsubmit
  · obtain ⟨payload, rfl⟩ := eq_of_reads h
    cases hop
  · rw [hsubmit] at hparts
    cases hparts
  dsimp only at h
  split_ifs at h with hprepareApproval happrove hactivate
  · obtain ⟨payload, -, h⟩ := bind_eq_ok.mp h
    obtain ⟨approverKeyId, -, h⟩ := bind_eq_ok.mp h
    cases h
    cases hop
  · obtain ⟨payload, rfl⟩ := eq_of_reads h
    exact Or.inl ⟨happrove, (Option.some.inj hop).symm⟩
  · cases h
    exact Or.inr ⟨hactivate, (Option.some.inj hop).symm⟩
  · cases h

theorem adminProposalsPost_between (after : String)
    (hroute : Segments.between "/admin/proposals/" ("/" ++ after) route = true)
    (hafter : Segments.IsSegment (lit after))
    (h : adminProposalsPost request actorId route = .reached op)
    (hop : op.assignedRole = some role) :
    after = "approve" ∧ role = .approver ∨ after = "activate" ∧ role = .policyAdmin := by
  obtain ⟨segment, hsegment, hroute⟩ := Segments.between_iff.mp hroute
  have hparts := partsAfter_between "/admin/proposals" hsegment hafter hroute
  rw [← lit_inj, ← lit_inj (b := "activate")]
  exact adminProposalsPost_parts hparts h hop

-- where the table has a row for proposals, the dispatcher reads the route the same way
theorem adminProposalsPost_role {assigned : Role} (hrow : ProposalRow route assigned)
    (h : adminProposalsPost request actorId route = .reached op)
    (hop : op.assignedRole = some role) : role = assigned := by
  cases hrow with
  | prepare hroute =>
      have h := attempt_eq_reached workflowErrors_ne h
      rw [if_pos hroute] at h
      obtain ⟨payload, rfl⟩ := eq_of_reads h
      cases hop
  | submit hroute =>
      have h := attempt_eq_reached workflowErrors_ne h
      rw [if_neg (by rw [hroute]; decide), if_pos hroute] at h
      obtain ⟨payload, rfl⟩ := eq_of_reads h
      exact (Option.some.inj hop).symm
  | activate hroute =>
      rcases adminProposalsPost_between "activate" hroute ⟨by decide, by decide⟩ h hop
        with ⟨hafter, -⟩ | ⟨-, hrole⟩
      · exact absurd hafter (by decide)
      · exact hrole
  | prepareApproval hroute =>
      rcases adminProposalsPost_between "prepare-approval" hroute
        ⟨by decide, by decide⟩ h hop with ⟨hafter, -⟩ | ⟨hafter, -⟩
      · exact absurd hafter (by decide)
      · exact absurd hafter (by decide)
  | approve hroute =>
      rcases adminProposalsPost_between "approve" hroute ⟨by decide, by decide⟩ h hop
        with ⟨-, hrole⟩ | ⟨hafter, -⟩
      · exact hrole
      · exact absurd hafter (by decide)

variable {P : Primitives}

theorem dispatch_cases (h : api.dispatch request P attributes = .reached op)
    (hop : op.assignedRole = some role) :
    (Area.proposals.Holds request.route ∧
      adminProposalsPost request attributes.actorId request.route = .reached op) ∨
      ∃ area, Area.Holds area request.route ∧ area.role = some role := by
  unfold dispatch at h
  dsimp only at h
  split_ifs at h with hcertify hanchor hproposals hregistry hroles htrust hkeys hstore hjobs
  · rw [certifyPost_role h] at hop
    cases hop
  · exact Or.inr ⟨.replayAnchor, Area.holds_of_eq hanchor,
      congrArg some (replayAnchorPost_role h hop).symm⟩
  · exact Or.inl ⟨hproposals, h⟩
  · exact Or.inr ⟨.policyRegistry, hregistry, congrArg some (policyRegistryPost_role h hop).symm⟩
  · exact Or.inr ⟨.roleAssignments, Area.holds_of_eq hroles,
      congrArg some (roleAssignmentPost_role h hop).symm⟩
  · exact Or.inr ⟨.trustKeys, htrust, congrArg some (adminTrustPost_role h hop).symm⟩
  · exact Or.inr ⟨.operatorKeys, hkeys, congrArg some (adminOperatorKeysPost_role h hop).symm⟩
  · exact Or.inr ⟨.jobs, Area.holds_of_eq hjobs, congrArg some (adminJobsPost_role h hop).symm⟩
  · rw [servicePost_role h] at hop
    cases hop

theorem Area.holds_admin {area : Area} (h : area.Holds route) :
    startsWith route "/admin" = true := by
  obtain ⟨rest, rfl⟩ := startsWith_iff.mp h
  cases area <;> rfl

-- table and dispatcher give a route to one operation
theorem dispatch_tabled (hlisted : adminPostRoles request.route ≠ [])
    (h : api.dispatch request P attributes = .reached op) (hop : op.assignedRole = some role) :
    adminPostRoles request.route = [role] := by
  obtain ⟨assigned, hroles, hrow⟩ := adminPostRoles_cases hlisted
  rw [hroles]
  congr 1
  rcases dispatch_cases h hop with ⟨hproposals, hhandler⟩ | ⟨area, harea, hrole⟩
  · rcases hrow with hrow | ⟨area, harea, hrole⟩
    · exact (adminProposalsPost_role hrow hhandler hop).symm
    · obtain rfl := harea.unique hproposals
      cases hrole
  · rcases hrow with hrow | ⟨other, hother, hassigned⟩
    · obtain rfl := harea.unique hrow.holds
      cases hrole
    · obtain rfl := harea.unique hother
      exact Option.some.inj (hassigned.symm.trans hrole)

end Handlers

section Gate

variable (api : AuthenticatedAPI) (request : HttpRequest)

-- the caller presents the token all operators share
def HoldsOperatorToken : Prop :=
  ∃ token, api.operatorToken = some token ∧ bearerCredential request.authorization = some token

variable {api request} {attributes : RequestAttributes} {P : Primitives} {op : Operation}
  {role : Role}

theorem compareDigest_eq_true {a b : Str} (h : compareDigest a b = .ok true) : a = b := by
  unfold compareDigest at h
  split_ifs at h
  exact of_decide_eq_true (Except.ok.inj h)

theorem holds_of_presents (h : api.presentsOperatorToken request = .ok true) :
    api.HoldsOperatorToken request := by
  unfold presentsOperatorToken at h
  split at h
  · next token credential htoken hcredential =>
      split_ifs at h
      · rw [compareDigest_eq_true h] at hcredential
        exact ⟨token, htoken, hcredential⟩
      · cases h
  · cases h

theorem adminAuthorized_eq_true {method : String} {route : Str}
    (h : api.adminAuthorized request attributes method route = .ok true) :
    adminRequiredRoles method route ≠ [] ∧ (api.HoldsOperatorToken request ∨
      attributes.Holds (adminRequiredRoles method route)) := by
  unfold adminAuthorized at h
  split at h
  · cases h
  · next required hrequired =>
      refine ⟨hrequired, ?_⟩
      obtain ⟨presents, hpresents, h⟩ := bind_eq_ok.mp h
      split_ifs at h with htoken
      · rw [htoken] at hpresents
        exact Or.inl (holds_of_presents hpresents)
      · exact Or.inr (of_decide_eq_true (Except.ok.inj h))

theorem adminAuthorized_of_admitted (hadmin : startsWith request.route "/admin" = true)
    (h : api.adminRefused request attributes = .ok false) :
    api.adminAuthorized request attributes "POST" request.route = .ok true := by
  rw [adminRefused, if_pos hadmin] at h
  cases hauthorized : api.adminAuthorized request attributes "POST" request.route with
  | error e =>
      rw [hauthorized] at h
      cases h
  | ok granted =>
      rw [hauthorized] at h
      cases granted with
      | true => rfl
      | false => cases h

theorem logout_eq_reached (h : api.logout request attributes = .ok (.reached op)) :
    op = .revokeBrowserSession := by
  unfold logout at h
  split_ifs at h
  · cases h
  · obtain ⟨allowed, -, h⟩ := bind_eq_ok.mp h
    cases allowed <;> cases h
  · obtain ⟨allowed, -, h⟩ := bind_eq_ok.mp h
    cases allowed <;> cases h
    rfl

theorem authorizedPost_eq_reached
    (h : api.authorizedPost request P attributes = .ok (.reached op))
    (hop : op.assignedRole = some role) :
    api.adminRefused request attributes = .ok false ∧
      api.dispatch request P attributes = .reached op := by
  by_cases hlogout : request.route = lit "/auth/logout"
  · rw [authorizedPost, if_pos hlogout] at h
    rw [logout_eq_reached h] at hop
    cases hop
  rw [authorizedPost, if_neg hlogout] at h
  obtain ⟨foreign, -, h⟩ := bind_eq_ok.mp h
  cases foreign with
  | true => cases h
  | false =>
      obtain ⟨refused, hrefused, h⟩ := bind_eq_ok.mp h
      cases refused with
      | true => cases h
      | false =>
          refine ⟨hrefused, ?_⟩
          simp only [Bool.false_eq_true, if_false] at h
          split_ifs at h
          · cases h
          · exact Except.ok.inj h

theorem doPost_eq_reached (h : api.doPost request P = .reached op) :
    ∃ attributes, api.authenticated request = .ok (some attributes) ∧
      api.authorizedPost request P attributes = .ok (.reached op) := by
  unfold doPost at h
  split_ifs at h
  split at h
  · next e he =>
      unfold authenticationErrors at h
      split at h <;> cases h
  · cases h
  · next attributes hattributes =>
      refine ⟨attributes, hattributes, ?_⟩
      split at h
      · next handled hhandled => rw [hhandled, h]
      · cases h

theorem operation_holds_role (h : api.doPost request P = .reached op)
    (hop : op.assignedRole = some role) (htoken : ¬ api.HoldsOperatorToken request) :
    adminRequiredRoles "POST" request.route = [role] ∧
      ∃ attributes, api.authenticated request = .ok (some attributes) ∧
        (Role.platformAdmin.value ∈ attributes.held ∨ role.value ∈ attributes.held) := by
  obtain ⟨attributes, hattributes, h⟩ := doPost_eq_reached h
  obtain ⟨hadmitted, hdispatch⟩ := authorizedPost_eq_reached h hop
  have hadmin : startsWith request.route "/admin" = true := by
    rcases dispatch_cases hdispatch hop with ⟨harea, -⟩ | ⟨area, harea, -⟩
    · exact Area.holds_admin harea
    · exact Area.holds_admin harea
  obtain ⟨hlisted, hgranted⟩ :=
    adminAuthorized_eq_true (adminAuthorized_of_admitted hadmin hadmitted)
  have hroles : adminRequiredRoles "POST" request.route = [role] :=
    dispatch_tabled hlisted hdispatch hop
  refine ⟨hroles, attributes, hattributes, ?_⟩
  rw [hroles] at hgranted
  rcases hgranted with hholds | hholds
  · exact absurd hholds htoken
  · rcases hholds with hplatform | ⟨required, hrequired, hheld⟩
    · exact Or.inl hplatform
    · rw [List.mem_singleton.mp hrequired] at hheld
      exact Or.inr hheld

def approverIdentity : RuntimeIdentity :=
  { subject := some "alice", roles := [lit "approver"] }

def approverApi : AuthenticatedAPI := { oidcValidator := some (fun _ _ => some approverIdentity) }

def approveRequest : HttpRequest :=
  { command := "POST", route := "/admin/proposals/p-1/approve", authorization := "Bearer t" }

theorem operation_holds_role_demo :
    adminRequiredRoles "POST" approveRequest.route = [.approver] ∧
      ∃ attributes, approverApi.authenticated approveRequest = .ok (some attributes) ∧
        (Role.platformAdmin.value ∈ attributes.held ∨ Role.approver.value ∈ attributes.held) := by
  have hreached : approverApi.doPost approveRequest sizePrimitives =
      .reached (.submitApproval "p-1" [] "shared-token") := rfl
  have htoken : ¬ approverApi.HoldsOperatorToken approveRequest := by
    rintro ⟨token, htoken, -⟩
    cases htoken
  exact operation_holds_role hreached rfl htoken

end Gate

end AuthenticatedAPI

end GovernedAutonomy
