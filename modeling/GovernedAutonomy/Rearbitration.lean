import GovernedAutonomy.Policy
import GovernedAutonomy.Python.Congruence

namespace GovernedAutonomy

open Python PyVal

section Encoding

variable {P : Primitives} {v w : PyVal}

theorem canonicalJson_alike {bytes : String} (h : Alike v w) (hv : canonicalJson P v = .ok bytes) :
    canonicalJson P w = .ok bytes := by
  obtain ⟨t, ht, hb⟩ := (canonicalJson_eq_ok P).mp hv
  exact (canonicalJson_eq_ok P).mpr ⟨t, h.toTree ht, hb⟩

theorem canonicalDigest_alike {digest : Str} (h : Alike v w)
    (hv : canonicalDigest P v = .ok digest) : canonicalDigest P w = .ok digest := by
  obtain ⟨bytes, hbytes, hdigest⟩ := bind_eq_ok.mp hv
  exact bind_eq_ok.mpr ⟨bytes, canonicalJson_alike h hbytes, hdigest⟩

end Encoding

namespace SignedApproval

variable {P : Primitives} {d e : PyDict}

-- approvals that differ in the order of the keys of their context at most
structure Alike (a b : SignedApproval) : Prop where
  action : a.action = b.action
  requestDigest : a.requestDigest = b.requestDigest
  decisionDigest : a.decisionDigest = b.decisionDigest
  issuerKeyId : a.issuerKeyId = b.issuerKeyId
  signature : a.signature = b.signature
  actorId : a.actorId = b.actorId
  context : PyVal.Alike (.dict a.context) (.dict b.context)

theorem nonEmptyStr_alike (h : PyVal.Alike (.dict d) (.dict e)) (key message : String) :
    nonEmptyStr d key message = nonEmptyStr e key message := by
  unfold nonEmptyStr
  rcases (h.getD (lit key)).cases with heq | ⟨xs, ys, hxs, hys, -⟩ | ⟨c, c', hc, hc', -⟩
  · rw [heq]
  · rw [hxs, hys]
  · rw [hc, hc']

theorem optionalActor_alike (h : PyVal.Alike (.dict d) (.dict e)) :
    optionalActor d = optionalActor e := by
  unfold optionalActor
  rcases (h.getD "actor_id").cases with heq | ⟨xs, ys, hxs, hys, -⟩ | ⟨c, c', hc, hc', -⟩
  · rw [heq]
  · rw [hxs, hys]
  · rw [hc, hc']

theorem alike_nil : PyVal.Alike (.dict []) (.dict []) :=
  @alike_ofFields [] [] (by simp) .nil

theorem optionalContext_alike (h : PyVal.Alike (.dict d) (.dict e)) :
    Agree (fun c c' => PyVal.Alike (.dict c) (.dict c')) (optionalContext d) (optionalContext e) := by
  unfold optionalContext
  rcases h.get "context" with ⟨hd, he⟩ | ⟨v, w, hd, he, hvw⟩
  · rw [hd, he]
    exact .ok alike_nil
  · rw [hd, he]
    cases v with
    | dict c =>
        obtain ⟨c', rfl, hc⟩ := hvw.dict
        exact .ok hc
    | _ =>
        rcases hvw.cases with rfl | ⟨xs, ys, -, rfl, -⟩ | ⟨c, c', hc, -⟩
        · exact .error _
        · exact .error _
        · cases hc

theorem fromDict_alike (h : PyVal.Alike (.dict d) (.dict e)) :
    Agree Alike (fromDict d) (fromDict e) := by
  unfold fromDict
  simp only [h.hasOnly, h.hasAll, nonEmptyStr_alike h, optionalActor_alike h]
  refine .bind_same fun _ => .bind_same fun _ => .bind_same fun action => .bind_same fun _ =>
    .bind_same fun _ => .bind_same fun _ => .bind_same fun _ => .bind_same fun _ => ?_
  refine (optionalContext_alike h).bind ?_
  intro c c' hc
  exact .ok ⟨rfl, rfl, rfl, rfl, rfl, rfl, hc⟩

theorem alike_optStr (s : Option Str) : PyVal.Alike (optStr s) (optStr s) := by
  cases s with
  | none => exact alike_none
  | some s => exact alike_str s

theorem Alike.verify {a b : SignedApproval} (h : Alike a b) {key : PublicKey} {verified : Bool}
    (ha : a.verify P key = .ok verified) : b.verify P key = .ok verified := by
  obtain ⟨payload, hpayload, hverified⟩ := bind_eq_ok.mp ha
  refine bind_eq_ok.mpr ⟨payload, canonicalJson_alike (alike_ofFields (by simp) ?_) hpayload, ?_⟩
  · rw [← h.action, ← h.requestDigest, ← h.decisionDigest, ← h.issuerKeyId, ← h.actorId]
    exact .cons ⟨rfl, alike_str _⟩ (.cons ⟨rfl, alike_str _⟩ (.cons ⟨rfl, alike_str _⟩
      (.cons ⟨rfl, alike_str _⟩ (.cons ⟨rfl, alike_optStr _⟩ (.cons ⟨rfl, h.context⟩ .nil)))))
  · rw [← h.signature]
    exact hverified

theorem Alike.matchesRequest {a b : SignedApproval} (h : Alike a b) {request request' : PyDict}
    (hrequest : PyVal.Alike (.dict request) (.dict request'))
    (haction : request.getD "action" = request'.getD "action") {bound : Bool}
    (ha : a.matchesRequest P request none = .ok bound) :
    b.matchesRequest P request' none = .ok bound := by
  obtain ⟨action, htext, ha⟩ := bind_eq_ok.mp ha
  refine bind_eq_ok.mpr ⟨action, haction ▸ htext, ?_⟩
  rw [← h.action]
  split at ha
  · rename_i hne
    rw [if_pos hne]
    exact ha
  · rename_i heq
    rw [if_neg heq]
    obtain ⟨digest, hdigest, ha⟩ := bind_eq_ok.mp ha
    refine bind_eq_ok.mpr ⟨digest, canonicalDigest_alike (hrequest.erase _) hdigest, ?_⟩
    rw [← h.requestDigest]
    exact ha

end SignedApproval

namespace DeterministicArbiter

variable {P : Primitives} {arbiter : DeterministicArbiter} {request request' : PyDict}

theorem approver?_alike {approval approval' : PyVal} (h : Alike approval approval')
    (hrequest : Alike (.dict request) (.dict request'))
    (haction : request.getD "action" = request'.getD "action") {signer : Option Str}
    (ha : arbiter.approver? P request approval = .ok signer) :
    arbiter.approver? P request' approval' = .ok signer := by
  cases approval with
  | dict d =>
      obtain ⟨e, rfl, hde⟩ := h.dict
      simp only [approver?, hde.has] at ha ⊢
      split at ha
      · rename_i hhas
        rw [if_pos hhas]
        rcases (SignedApproval.fromDict_alike hde).cases with
          ⟨x, hd, he⟩ | ⟨a, b, hd, he, hab⟩
        · rw [he]
          rw [hd] at ha
          exact ha
        · rw [he]
          rw [hd] at ha
          simp only [← hab.issuerKeyId] at ha ⊢
          cases hkey : arbiter.resolvePublicKey a.issuerKeyId with
          | none =>
              rw [hkey] at ha
              exact ha
          | some key =>
              rw [hkey] at ha
              obtain ⟨verified, hverified, ha⟩ := bind_eq_ok.mp ha
              refine bind_eq_ok.mpr ⟨verified, hab.verify hverified, ?_⟩
              cases verified with
              | false => exact ha
              | true =>
                  obtain ⟨bound, hbound, ha⟩ := bind_eq_ok.mp ha
                  exact bind_eq_ok.mpr ⟨bound, hab.matchesRequest hrequest haction hbound, ha⟩
      · rename_i hhas
        rw [if_neg hhas]
        exact ha
  | _ =>
      rcases h.cases with rfl | ⟨xs, ys, -, rfl, -⟩ | ⟨d, e, hd, -⟩
      · exact ha
      · exact ha
      · cases hd

theorem addApprovers_alike {approvals approvals' : List PyVal}
    (h : List.Forall₂ Alike approvals approvals')
    (hrequest : Alike (.dict request) (.dict request'))
    (haction : request.getD "action" = request'.getD "action") {known approvers : List Str}
    (ha : arbiter.addApprovers P request approvals known = .ok approvers) :
    arbiter.addApprovers P request' approvals' known = .ok approvers := by
  induction h generalizing known with
  | nil => exact ha
  | cons hhead _ ih =>
      obtain ⟨signer, hsigner, ha⟩ := bind_eq_ok.mp ha
      exact bind_eq_ok.mpr ⟨signer, approver?_alike hhead hrequest haction hsigner, ih ha⟩

variable {context context' : PyDict}

def int? : PyVal → Option ℤ
  | .int n => some n
  | _ => none

theorem int?_alike {v w : PyVal} (h : Alike v w) : int? v = int? w := by
  rcases h.cases with rfl | ⟨xs, ys, rfl, rfl, -⟩ | ⟨c, c', rfl, rfl, -⟩ <;> rfl

theorem counter?_eq (context : PyDict) : counter? context =
    (int? (context.getD "approval_count")).or (int? (context.getD "approvals_count")) := by
  unfold counter?
  generalize context.getD "approval_count" = v
  generalize context.getD "approvals_count" = w
  cases v <;> cases w <;> rfl

theorem counter?_alike (h : Alike (.dict context) (.dict context')) :
    counter? context = counter? context' := by
  rw [counter?_eq, counter?_eq, int?_alike (h.getD "approval_count"),
    int?_alike (h.getD "approvals_count")]

theorem approvalsOf_alike (h : Alike (.dict context) (.dict context')) :
    List.Forall₂ Alike (approvalsOf context) (approvalsOf context') := by
  unfold approvalsOf
  have happrovals := h.getD "approvals"
  generalize context.getD "approvals" = v at happrovals
  generalize context'.getD "approvals" = w at happrovals
  cases v with
  | list xs =>
      obtain ⟨ys, rfl, hys⟩ := happrovals.list
      exact hys
  | tuple xs => cases happrovals.left
  | _ =>
      rcases happrovals.cases with rfl | ⟨xs, ys, hxs, -⟩ | ⟨d, e, hd, rfl, -⟩
      · exact .nil
      · cases hxs
      · exact .nil

theorem contextOf_alike (h : Alike (.dict request) (.dict request')) :
    Alike (.dict (contextOf request).1) (.dict (contextOf request').1) ∧
      (contextOf request).2 = (contextOf request').2 := by
  unfold contextOf
  rcases h.get "context" with ⟨hd, he⟩ | ⟨v, w, hd, he, hvw⟩
  · rw [hd, he]
    exact ⟨SignedApproval.alike_nil, rfl⟩
  · rw [hd, he]
    cases v with
    | dict c =>
        obtain ⟨c', rfl, hc⟩ := hvw.dict
        exact ⟨hc, rfl⟩
    | _ =>
        rcases hvw.cases with rfl | ⟨xs, ys, -, rfl, -⟩ | ⟨d, e, hd, -⟩
        · exact ⟨SignedApproval.alike_nil, rfl⟩
        · exact ⟨SignedApproval.alike_nil, rfl⟩
        · cases hd

section Decide

variable (hrequest : Alike (.dict request) (.dict request'))

include hrequest

theorem approvalCount_alike (haction : request.getD "action" = request'.getD "action")
    (hcontext : Alike (.dict context) (.dict context')) {count : ℤ}
    (h : arbiter.approvalCount P request context = .ok count) :
    arbiter.approvalCount P request' context' = .ok count := by
  unfold approvalCount at h ⊢
  rw [← counter?_alike hrequest, ← counter?_alike hcontext]
  cases hcount : counter? request with
  | some n =>
      rw [hcount] at h
      exact h
  | none =>
      rw [hcount] at h
      obtain ⟨approvers, happrovers, h⟩ := bind_eq_ok.mp h
      refine bind_eq_ok.mpr
        ⟨approvers, addApprovers_alike (approvalsOf_alike hrequest) hrequest haction happrovers, ?_⟩
      cases hcount' : counter? context with
      | some n =>
          rw [hcount'] at h
          exact h
      | none =>
          rw [hcount'] at h
          obtain ⟨approvers', happrovers', h⟩ := bind_eq_ok.mp h
          exact bind_eq_ok.mpr ⟨approvers',
            addApprovers_alike (approvalsOf_alike hcontext) hrequest haction happrovers', h⟩

theorem quorumFindings_alike (haction : request.getD "action" = request'.getD "action")
    {required : ℤ} {findings : List Finding}
    (h : arbiter.quorumFindings P request required = .ok findings) :
    arbiter.quorumFindings P request' required = .ok findings := by
  unfold quorumFindings at h ⊢
  rw [← haction]
  split at h
  · rename_i hpos
    rw [if_pos hpos]
    obtain ⟨count, hcount, h⟩ := bind_eq_ok.mp h
    exact bind_eq_ok.mpr
      ⟨count, approvalCount_alike hrequest haction (contextOf_alike hrequest).1 hcount, h⟩
  · rename_i hpos
    rw [if_neg hpos]
    exact h

theorem numericExceeds_alike (name : Str) (maximum : Number) :
    numericExceeds (request.getD name) maximum = numericExceeds (request'.getD name) maximum := by
  rcases (hrequest.getD name).cases with heq | ⟨xs, ys, hxs, hys, -⟩ | ⟨c, c', hc, hc', -⟩
  · rw [heq]
  · rw [hxs, hys]
    rfl
  · rw [hc, hc']
    rfl

theorem numericFindings_alike (limits : List (Str × Number)) :
    numericFindings request limits = numericFindings request' limits := by
  induction limits with
  | nil => rfl
  | cons limit limits ih =>
      obtain ⟨name, maximum⟩ := limit
      rw [numericFindings, numericFindings, numericExceeds_alike hrequest, ih]

theorem missingFindings_alike (text code : String) (names : List Str) :
    missingFindings request text code names = missingFindings request' text code names := by
  unfold missingFindings
  simp only [hrequest.has]

theorem mismatchFindings_alike (text code : String) (expected : List (Str × PyVal)) :
    mismatchFindings request text code expected = mismatchFindings request' text code expected := by
  unfold mismatchFindings
  simp only [(hrequest.getD _).eq]

theorem constraintFindings_alike (haction : request.getD "action" = request'.getD "action")
    (policy : Policy) (requestBytes : String) :
    constraintFindings request policy requestBytes =
      constraintFindings request' policy requestBytes := by
  obtain ⟨hcontext, hshape⟩ := contextOf_alike hrequest
  simp only [constraintFindings, haction, hshape, numericFindings_alike hrequest,
    missingFindings_alike hrequest, mismatchFindings_alike hrequest,
    missingFindings_alike hcontext, mismatchFindings_alike hcontext]

-- the ruling on a request does not depend on the order of the keys in it
theorem decide_alike (haction : request.getD "action" = request'.getD "action") {policy : Policy}
    {decision : Decision} (h : arbiter.decide P request policy = .ok decision) :
    arbiter.decide P request' policy = .ok decision := by
  simp only [decide, bind_eq_ok] at h ⊢
  obtain ⟨bytes, hbytes, constraints, hconstraints, required, hrequired, quorum, hquorum, digest,
    hdigest, h⟩ := h
  refine ⟨bytes, canonicalJson_alike hrequest hbytes, constraints, ?_, required, ?_, quorum,
    quorumFindings_alike hrequest haction hquorum, digest, hdigest, ?_⟩
  · rw [← constraintFindings_alike hrequest haction]
    exact hconstraints
  · rw [requiredApprovalsFor, ← haction]
    exact hrequired
  · rw [← h, verdict, verdict, haction]

end Decide

end DeterministicArbiter

end GovernedAutonomy
