import GovernedAutonomy.Executable
import GovernedAutonomy.Preflight
import GovernedAutonomy.Python.Raises
import GovernedAutonomy.Quorum
import GovernedAutonomy.Reconstruction

namespace GovernedAutonomy

open Python Protocol

variable {P : Primitives}

theorem onlyRaises_canonicalJson (value : PyVal) : OnlyRaises Exc.isPlain (canonicalJson P value) := by
  refine (PyVal.onlyRaises_toTree.bind fun _ => onlyRaises_ok _).bind fun text => ?_
  cases encode text with
  | none => exact onlyRaises_error rfl
  | some bytes => exact onlyRaises_ok bytes

theorem onlyRaises_canonicalDigest (value : PyVal) :
    OnlyRaises Exc.isPlain (canonicalDigest P value) :=
  (onlyRaises_canonicalJson value).bind fun _ => onlyRaises_ok _

namespace DeterministicArbiter

variable {arbiter : DeterministicArbiter} {request : PyDict} {policy : Policy}

theorem onlyRaises_lookup {V : Type} (d : List (Str × V)) (key : PyVal) :
    OnlyRaises Exc.isPlain (lookup d key) := by
  unfold lookup
  split
  · exact onlyRaises_ok _
  · split
    · exact onlyRaises_ok _
    · exact onlyRaises_error rfl

theorem onlyRaises_isFinite (n : Number) : OnlyRaises Exc.isPlain n.isFinite := by
  cases n with
  | float f => exact onlyRaises_ok _
  | int i =>
      simp only [Number.isFinite]
      split
      · exact onlyRaises_error rfl
      · exact onlyRaises_ok _

theorem onlyRaises_numericFindings (limits : List (Str × Number)) :
    OnlyRaises Exc.isPlain (numericFindings request limits) := by
  induction limits with
  | nil => exact onlyRaises_ok _
  | cons m limits ih =>
      have hexceeds : OnlyRaises Exc.isPlain (numericExceeds (request.getD m.1) m.2) := by
        unfold numericExceeds
        split
        · exact (onlyRaises_isFinite _).bind fun _ => onlyRaises_ok _
        · exact (onlyRaises_isFinite _).bind fun _ => onlyRaises_ok _
        · exact onlyRaises_ok _
      exact hexceeds.bind fun _ => ih.bind fun _ => onlyRaises_ok _

theorem onlyRaises_constraintFindings (requestBytes : String) :
    OnlyRaises Exc.isPlain (constraintFindings request policy requestBytes) :=
  (onlyRaises_lookup _ _).bind fun _ => (onlyRaises_lookup _ _).bind fun _ =>
    (onlyRaises_lookup _ _).bind fun _ => (onlyRaises_numericFindings _).bind fun _ =>
      onlyRaises_ok _

section Quorum

variable (hstr : OnlyRaises Exc.isPlain (P.str (request.getD "action")))

include hstr

theorem onlyRaises_matchesRequest (approval : SignedApproval) :
    OnlyRaises Exc.isPlain (approval.matchesRequest P request none) := by
  refine hstr.bind fun action => ?_
  split
  · exact onlyRaises_ok _
  · refine (onlyRaises_canonicalDigest _).bind fun digest => ?_
    split
    · exact onlyRaises_ok _
    · exact onlyRaises_ok _

theorem onlyRaises_approver (approval : PyVal) :
    OnlyRaises Exc.isPlain (arbiter.approver? P request approval) := by
  unfold approver?
  split
  · rename_i d
    split
    · split
      · rename_i e he
        rw [if_pos (SignedApproval.onlyRaises_fromDict d e he)]
        exact onlyRaises_ok _
      · rename_i candidate hcandidate
        split
        · exact onlyRaises_ok _
        · refine ((onlyRaises_canonicalJson _).bind fun _ => onlyRaises_ok _).bind fun verified => ?_
          split
          · exact (onlyRaises_matchesRequest hstr candidate).bind fun _ => onlyRaises_ok _
          · exact onlyRaises_ok _
    · exact onlyRaises_ok _
  · exact onlyRaises_ok _

theorem onlyRaises_addApprovers (approvals : List PyVal) (approvers : List Str) :
    OnlyRaises Exc.isPlain (arbiter.addApprovers P request approvals approvers) := by
  induction approvals generalizing approvers with
  | nil => exact onlyRaises_ok _
  | cons approval approvals ih => exact (onlyRaises_approver hstr approval).bind fun _ => ih _

theorem onlyRaises_approvalCount (context : PyDict) :
    OnlyRaises Exc.isPlain (arbiter.approvalCount P request context) := by
  unfold approvalCount
  split
  · exact onlyRaises_ok _
  · refine (onlyRaises_addApprovers hstr _ _).bind fun approvers => ?_
    split
    · exact onlyRaises_ok _
    · exact (onlyRaises_addApprovers hstr _ _).bind fun _ => onlyRaises_ok _

theorem onlyRaises_quorumFindings (required : ℤ) :
    OnlyRaises Exc.isPlain (arbiter.quorumFindings P request required) := by
  unfold quorumFindings
  split
  · refine (onlyRaises_approvalCount hstr _).bind fun count => ?_
    split
    · exact hstr.bind fun _ => (onlyRaises_intText _).bind fun _ =>
        (onlyRaises_intText _).bind fun _ => onlyRaises_ok _
    · exact onlyRaises_ok _
  · exact onlyRaises_ok _

end Quorum

theorem str_isOk_of_encodable {depth : Nat} (h : (PyVal.dict request).Encodable depth)
    (key : Str) : ∃ text, P.str (request.getD key) = .ok text := by
  cases hget : request.get key with
  | none => exact ⟨lit "None", by rw [PyDict.getD_of_get_none hget]; rfl⟩
  | some value =>
      rw [PyDict.getD_of_get hget]
      exact (h.of_get hget).str_isOk P.toInterpreter

theorem onlyRaises_decide : OnlyRaises Exc.isPlain (arbiter.decide P request policy) := by
  refine (onlyRaises_canonicalJson _).bind_of_ok fun bytes hbytes => ?_
  have hstr : ∃ text, P.str (request.getD "action") = .ok text :=
    str_isOk_of_encodable ((canonicalJson_isOk P).mp ⟨bytes, hbytes⟩) "action"
  exact (onlyRaises_constraintFindings _).bind fun _ =>
    ((onlyRaises_lookup _ _).bind fun _ => onlyRaises_ok _).bind fun _ =>
      (onlyRaises_quorumFindings (onlyRaises_of_isOk hstr) _).bind fun _ =>
        (onlyRaises_canonicalDigest _).bind fun _ => onlyRaises_ok _

end DeterministicArbiter

-- the decision of a PolicyDeniedError
def denial? : Exc → Option PyDict
  | .custom cls _ _ payload =>
      if cls = "PolicyDeniedError" then
        match payload with
        | .dict decision => some decision
        | _ => none
      else none
  | _ => none

def notDenied (e : Exc) : Bool := (denial? e).isNone

theorem onlyRaises_notDenied {α : Type} {x : Result α} (h : OnlyRaises Exc.isPlain x) :
    OnlyRaises notDenied x := by
  intro e he
  have hplain := h e he
  cases e with
  | custom => simp [Exc.isPlain] at hplain
  | _ => rfl

theorem denial?_deniedError (decision : Decision) (meshDigest : Option Str) :
    denial? (decision.deniedError meshDigest) = some (decision.signedDict meshDigest) := rfl

namespace GovernanceMesh

variable {mesh : GovernanceMesh}

theorem onlyRaises_strAll {values : List PyVal}
    (h : ∀ value ∈ values, OnlyRaises Exc.isPlain (P.str value)) :
    OnlyRaises Exc.isPlain (strAll P values) := by
  induction values with
  | nil => exact onlyRaises_ok _
  | cons value values ih =>
      obtain ⟨hvalue, hvalues⟩ := List.forall_mem_cons.mp h
      exact hvalue.bind fun _ => (ih hvalues).bind fun _ => onlyRaises_ok _

theorem onlyRaises_str {value : PyVal} {depth : Nat} (h : value.Encodable depth) :
    OnlyRaises Exc.isPlain (P.str value) := onlyRaises_of_isOk (h.str_isOk P.toInterpreter)

theorem iterated_str {value : PyVal} {depth : Nat} (h : value.Encodable depth)
    {values : List PyVal} (hvalues : iterate value = .ok values) :
    ∀ v ∈ values, OnlyRaises Exc.isPlain (P.str v) := by
  intro v hv
  cases value with
  | list xs =>
      obtain rfl := Except.ok.inj hvalues
      exact onlyRaises_str ((PyVal.encodable_list.mp h).2 v hv)
  | tuple xs =>
      obtain rfl := Except.ok.inj hvalues
      exact onlyRaises_str ((PyVal.encodable_tuple.mp h).2 v hv)
  | str s =>
      obtain rfl := Except.ok.inj hvalues
      obtain ⟨c, -, rfl⟩ := List.mem_map.mp hv
      exact onlyRaises_ok _
  | dict ms =>
      obtain rfl := Except.ok.inj hvalues
      obtain ⟨⟨k, w⟩, hm, rfl⟩ := List.mem_map.mp hv
      obtain ⟨⟨text, htext, -⟩, -⟩ := (PyVal.encodable_dict.mp h).2.2 _ hm
      cases k with
      | int i => exact onlyRaises_intText i
      | other id => cases htext
      | _ => exact onlyRaises_ok _
  | _ => cases hvalues

theorem onlyRaises_reasonsOf {decision : PyDict} {depth : Nat}
    (h : (PyVal.dict decision).Encodable depth) :
    OnlyRaises Exc.isPlain (reasonsOf P decision) := by
  have hiterate : ∀ value, OnlyRaises Exc.isPlain (iterate value) := by
    intro value
    cases value <;> first | exact onlyRaises_ok _ | exact onlyRaises_error rfl
  refine (hiterate _).bind_of_ok fun values hvalues => onlyRaises_strAll ?_
  cases hget : decision.get (lit "reasons") with
  | none =>
      rw [hget] at hvalues
      obtain rfl := Except.ok.inj hvalues
      simp
  | some value =>
      rw [hget] at hvalues
      exact iterated_str (h.of_get hget) hvalues

theorem onlyRaises_rateAll (inputs : List GovernanceInput) :
    OnlyRaises Exc.isPlain (rateAll P inputs) := by
  induction inputs with
  | nil => exact onlyRaises_ok _
  | cons item items ih =>
      exact (onlyRaises_canonicalDigest _).bind fun _ => ih.bind fun _ => onlyRaises_ok _

theorem onlyRaises_outcomeOf {inputs : List GovernanceInput} {rated : List Rated}
    (h : rateAll P inputs = .ok rated) : OnlyRaises Exc.isPlain (outcomeOf P rated) := by
  obtain ⟨hdigests, rfl⟩ := rateAll_eq_ok.mp h
  by_cases hne : inputs.map (rate P) = []
  · rw [hne]
    exact onlyRaises_error rfl
  by_cases hcontested : Contested (inputs.map (rate P))
  · rw [outcomeOf_contested hne hcontested]
    exact onlyRaises_ok _
  · obtain ⟨rated, hmem, -, -, houtcome⟩ := outcomeOf_uncontested (P := P) hne hcontested
    obtain ⟨lead, hlead, rfl⟩ := List.mem_map.mp hmem
    have hencodable := (canonicalDigest_isOk P).mp ⟨_, hdigests lead hlead⟩
    rw [houtcome]
    intro e he
    cases hreasons : reasonsOf P (rate P lead).1.decision with
    | ok reasons =>
        rw [hreasons] at he
        cases he
    | error e' =>
        rw [hreasons] at he
        obtain rfl := Except.error.inj he
        exact onlyRaises_reasonsOf hencodable _ hreasons

theorem onlyRaises_attestation (item : GovernanceInput) :
    OnlyRaises notDenied (mesh.verifySourceAttestation P item) := by
  unfold verifySourceAttestation
  split
  · exact onlyRaises_ok _
  · simp only
    split
    · exact (onlyRaises_notDenied (onlyRaises_canonicalJson _)).bind fun _ => onlyRaises_raiseIf rfl
    · exact onlyRaises_error rfl

theorem onlyRaises_forM {A : Type} {f : A → Result Unit} {p : Exc → Bool}
    (h : ∀ a, OnlyRaises p (f a)) (inputs : List A) : OnlyRaises p (inputs.forM f) := by
  induction inputs with
  | nil => exact onlyRaises_ok _
  | cons a inputs ih => exact (h a).bind fun _ => ih

theorem onlyRaises_evaluate (inputs : List GovernanceInput) (requestDigest : Str)
    (replayFrameRef : Option Str) :
    OnlyRaises notDenied (mesh.evaluate P inputs requestDigest replayFrameRef) := by
  refine (onlyRaises_raiseIf rfl).bind fun _ => (onlyRaises_raiseIf rfl).bind fun _ =>
    (onlyRaises_forM onlyRaises_attestation inputs).bind fun _ =>
      (onlyRaises_raiseIf rfl).bind fun _ =>
        (onlyRaises_notDenied (onlyRaises_rateAll inputs)).bind_of_ok fun rated hrated => ?_
  exact (onlyRaises_notDenied (onlyRaises_outcomeOf hrated)).bind fun _ =>
    (onlyRaises_notDenied (onlyRaises_canonicalDigest _)).bind fun _ => onlyRaises_ok _

end GovernanceMesh

theorem ReplayLog.onlyRaises_append (log : ReplayLog) (frameId : Str) (event : PyDict) :
    OnlyRaises Exc.isPlain (log.append P frameId event) :=
  ((onlyRaises_canonicalDigest _).bind fun _ => onlyRaises_ok _).bind fun _ => onlyRaises_ok _

namespace AuthorizationIssuer

variable {issuer : AuthorizationIssuer} {log : ReplayLog} {now : ℤ} {nonce : Str}
  {call : AuthorizeCall}

theorem onlyRaises_meshPreflight (request : PyDict) (inputs : List GovernanceInput) :
    OnlyRaises notDenied (issuer.meshPreflight P log request inputs) := by
  unfold meshPreflight
  split
  · exact onlyRaises_ok _
  · refine (onlyRaises_notDenied (onlyRaises_canonicalDigest _)).bind fun requestDigest => ?_
    split
    · refine OnlyRaises.bind ?_ fun _ => onlyRaises_ok _
      exact (GovernanceMesh.onlyRaises_evaluate _ _ _).bind fun _ =>
        (onlyRaises_notDenied (ReplayLog.onlyRaises_append _ _ _)).bind fun _ => onlyRaises_ok _
    · exact (GovernanceMesh.onlyRaises_evaluate _ _ _).bind fun _ => onlyRaises_ok _

theorem onlyRaises_issuedEvent (unsigned : GovernanceAuthorizationArtifact)
    (inputs : List GovernanceInput) (mesh : Option GovernancePreflightDecision) :
    OnlyRaises Exc.isPlain (issuedEvent P unsigned inputs mesh) := by
  have hitems : ∀ items : List GovernanceInput,
      OnlyRaises Exc.isPlain (items.mapM (GovernanceInput.toDict P)) := by
    intro items
    induction items with
    | nil => exact onlyRaises_ok _
    | cons item items ih =>
        have hitem : OnlyRaises Exc.isPlain (item.toDict P) := by
          refine (onlyRaises_canonicalDigest _).bind fun digest => ?_
          cases item.sourceSignature <;> exact onlyRaises_ok _
        rw [List.mapM_cons]
        exact hitem.bind fun _ => ih.bind fun _ => onlyRaises_ok _
  refine (onlyRaises_canonicalJson _).bind fun payload => ?_
  refine OnlyRaises.bind ?_ fun _ => onlyRaises_ok _
  unfold meshEvidence
  split
  · exact onlyRaises_ok _
  · exact (onlyRaises_canonicalDigest _).bind fun _ => (hitems inputs).bind fun _ => onlyRaises_ok _

theorem onlyRaises_grant (signer : Signer) (unsigned : GovernanceAuthorizationArtifact)
    (inputs : List GovernanceInput) (mesh : Option GovernancePreflightDecision) :
    OnlyRaises Exc.isPlain (grant P signer log unsigned inputs mesh).result := by
  intro e he
  unfold grant at he
  split at he
  · rename_i e' hevent
    obtain rfl := Except.error.inj he
    exact onlyRaises_issuedEvent _ _ _ _ hevent
  · split at he
    · rename_i e' happend
      obtain rfl := Except.error.inj he
      exact ReplayLog.onlyRaises_append _ _ _ _ happend
    · exact ((onlyRaises_canonicalJson _).bind fun _ => onlyRaises_ok _) e he

variable (P) in
-- the action of the request can be read, and the mesh inputs meet what the policy asks of it
def MeetsMeshRequirements (call : AuthorizeCall) : Prop :=
  ∃ request action, effectiveRequest call.request call.approvals = .ok request ∧
    actionText P request = .ok action ∧
      meshShortfall P action request call.policy call.meshInputs = none

-- what a denial leaves in the log: one authorization frame, with what was asked and decided
def DenialAudited (log log' : ReplayLog) (nonce : Str) (call : AuthorizeCall) (decision : PyDict) :
    Prop :=
  ∃ request frames frame, effectiveRequest call.request call.approvals = .ok request ∧
    log'.frames = log.frames ++ frames ∧
    frames.filter (fun frame => ReplayLog.hasType "authorization" frame.event) = [frame] ∧
    frame.frameId = authorizationFrameId nonce ∧ frame.event = deniedEvent nonce request decision

-- a denial before the mesh is consulted is one of the unmet mesh requirements
theorem admission_denied {e : Exc} {decision : PyDict} (h : issuer.admission P call = .error e)
    (hdenied : denial? e = some decision) : ¬ MeetsMeshRequirements P call := by
  rintro ⟨request, action, hrequest, haction, hshortfall⟩
  have honly : OnlyRaises notDenied (issuer.admission P call) := by
    refine (onlyRaises_raiseIf rfl).bind fun _ => (onlyRaises_raiseIf rfl).bind fun _ => ?_
    rw [hrequest]
    refine (onlyRaises_ok request).bind_of_ok fun request' hrequest' => ?_
    obtain rfl := Except.ok.inj hrequest'
    refine OnlyRaises.bind ?_ fun _ => onlyRaises_ok _
    rw [arbitrate, haction]
    refine (onlyRaises_ok action).bind_of_ok fun action' haction' => ?_
    obtain rfl := Except.ok.inj haction'
    rw [hshortfall]
    exact onlyRaises_notDenied DeterministicArbiter.onlyRaises_decide
  have hnot := honly e h
  rw [notDenied, hdenied] at hnot
  cases hnot

theorem meets_of_admission {request : PyDict} {decision : Decision}
    (h : issuer.admission P call = .ok (request, decision)) : MeetsMeshRequirements P call := by
  simp only [admission, bind_eq_ok] at h
  obtain ⟨-, -, -, -, request', hrequest, decision', harbitrate, hpair⟩ := h
  obtain ⟨action, haction, h⟩ := bind_eq_ok.mp harbitrate
  refine ⟨request', action, hrequest, haction, ?_⟩
  cases hshortfall : meshShortfall P action request' call.policy call.meshInputs with
  | none => rfl
  | some finding =>
      rw [hshortfall] at h
      obtain ⟨denied, -, h⟩ := bind_eq_ok.mp h
      cases h

theorem settle_denied {request : PyDict} {decision : Decision}
    {mesh : Option GovernancePreflightDecision} {e : Exc} {denied : PyDict}
    (h : (issuer.settle P log now nonce call request decision mesh).result = .error e)
    (hdenied : denial? e = some denied) :
    ∃ frame, (issuer.settle P log now nonce call request decision mesh).log.frames =
        log.frames ++ [frame] ∧
      frame.frameId = authorizationFrameId nonce ∧
      frame.event = deniedEvent nonce request denied := by
  simp only [settle] at h ⊢
  split at h
  · have hnot := onlyRaises_notDenied (onlyRaises_grant _ _ _ _) e h
    rw [notDenied, hdenied] at hnot
    cases hnot
  · rename_i hallow
    rw [if_neg hallow]
    unfold refuse at h ⊢
    split at h
    · rename_i e' happend
      obtain rfl := Except.error.inj h
      have hnot := onlyRaises_notDenied (ReplayLog.onlyRaises_append _ _ _) _ happend
      rw [notDenied, hdenied] at hnot
      cases hnot
    · rename_i log' frame happend
      obtain rfl := Except.error.inj h
      rw [denial?_deniedError, Option.some.injEq] at hdenied
      obtain ⟨hcreate, rfl⟩ := (ReplayLog.append_eq_ok P).mp happend
      obtain ⟨hid, -, hevent, -⟩ := (ReplayFrame.create_eq_ok P).mp hcreate
      exact ⟨frame, rfl, hid, by rw [hevent, hdenied]⟩

theorem denial_audited_iff {e : Exc} {denied : PyDict}
    (h : (issuer.authorize P log now nonce call).result = .error e)
    (hdenied : denial? e = some denied) :
    DenialAudited log (issuer.authorize P log now nonce call).log nonce call denied ↔
      MeetsMeshRequirements P call := by
  unfold authorize at h ⊢
  cases hadmission : issuer.admission P call with
  | error e' =>
      rw [hadmission] at h
      obtain rfl := Except.error.inj h
      refine iff_of_false ?_ (admission_denied hadmission hdenied)
      rintro ⟨request, frames, frame, -, hframes, hfilter, -⟩
      obtain rfl := List.append_right_eq_self.mp hframes.symm
      cases hfilter
  | ok admitted =>
      obtain ⟨request, decision⟩ := admitted
      simp only [hadmission] at h ⊢
      cases hmesh : issuer.meshPreflight P log request call.meshInputs with
      | error e' =>
          rw [hmesh] at h
          obtain rfl := Except.error.inj h
          have hnot := onlyRaises_meshPreflight _ _ _ hmesh
          rw [notDenied, hdenied] at hnot
          cases hnot
      | ok result =>
          obtain ⟨middle, mesh⟩ := result
          simp only [hmesh] at h ⊢
          refine iff_of_true ?_ (meets_of_admission hadmission)
          obtain ⟨frame, hframes, hid, hevent⟩ := settle_denied h hdenied
          obtain ⟨preflights, hmiddle, hkinds⟩ := preflight_frames hmesh
          refine ⟨request, preflights ++ [frame], frame, (admission_eq_ok hadmission).1, ?_, ?_, hid,
            hevent⟩
          · rw [hframes, hmiddle, List.append_assoc]
          · have hskipped : preflights.filter
                (fun frame => ReplayLog.hasType "authorization" frame.event) = [] := by
              rw [List.filter_eq_nil_iff]
              intro frame hframe
              have hkind : PyDict.getD frame.event "type" = .str (lit "governance_preflight") :=
                hkinds frame hframe
              simp [ReplayLog.hasType_eq hkind]
            have hkept : ReplayLog.hasType "authorization" frame.event = true := by
              rw [hevent]
              simp [ReplayLog.hasType, deniedEvent, PyDict.getD, PyVal.eq]
            rw [List.filter_append, hskipped, List.nil_append, List.filter_singleton, hkept]
            rfl

theorem nonce_of_authorize {artifact : Artifact}
    (h : (issuer.authorize P log now nonce call).result = .ok artifact) :
    artifact.nonce = nonce := by
  obtain ⟨g, -, rfl⟩ := exists_issuance
    (show issuer.authorize P log now nonce call = ⟨_, .ok artifact⟩ by rw [← h])
  rfl

end AuthorizationIssuer

namespace GovernedStep

-- the nonce that a call of authorize is given
def nonce? : GovernedStep → Option Str
  | .authorize _ _ nonce _ => some nonce
  | .execute _ _ _ _ => none

variable (P) in
def returned? (log : ReplayLog) : GovernedStep → Option Artifact
  | .authorize issuer now nonce call => (issuer.authorize P log now nonce call).result.toOption
  | .execute _ _ _ _ => none

variable (P) in
-- the GAAs that the calls of a run return, in order
def returned : ReplayLog → List GovernedStep → List Artifact
  | _, [] => []
  | log, step :: steps => (returned? P log step).toList ++ returned (perform P log step) steps

theorem returned_append {log : ReplayLog} (before after : List GovernedStep) :
    returned P log (before ++ after) =
      returned P log before ++ returned P (Calls.run (perform P) log before) after := by
  induction before generalizing log with
  | nil => rfl
  | cons step before ih => simp [returned, ih]

theorem returned?_nonce {log : ReplayLog} {step : GovernedStep} {artifact : Artifact}
    (h : returned? P log step = some artifact) : step.nonce? = some artifact.nonce := by
  cases step with
  | execute boundary now artifact action => cases h
  | authorize issuer now nonce call =>
      have hresult := eq_ok_of_toOption h
      exact congrArg some (AuthorizationIssuer.nonce_of_authorize hresult).symm

theorem nonce_of_returned {log : ReplayLog} {steps : List GovernedStep} {artifact : Artifact}
    (h : artifact ∈ returned P log steps) : artifact.nonce ∈ steps.filterMap nonce? := by
  induction steps generalizing log with
  | nil => cases h
  | cons step steps ih =>
      rcases List.mem_append.mp h with h | h
      · have hnonce := returned?_nonce (Option.mem_toList.mp h)
        exact List.mem_filterMap.mpr ⟨step, List.mem_cons_self, hnonce⟩
      · obtain ⟨other, hother, hnonce⟩ := List.mem_filterMap.mp (ih h)
        exact List.mem_filterMap.mpr ⟨other, List.mem_cons_of_mem _ hother, hnonce⟩

-- every denial of a run is audited and never followed or preceded by a GAA for its nonce,
-- except those for which the mesh inputs do not meet the policy
theorem denials_audited (P : Primitives) (start : ReplayLog) (steps : List GovernedStep)
    (hfresh : (steps.filterMap nonce?).Nodup) (before after : List GovernedStep)
    (issuer : AuthorizationIssuer) (now : ℤ) (nonce : Str) (call : AuthorizeCall)
    (hsteps : steps = before ++ .authorize issuer now nonce call :: after) (e : Exc)
    (denied : PyDict)
    (hraised : (issuer.authorize P (Calls.run (perform P) start before) now nonce call).result =
      .error e)
    (hdenied : denial? e = some denied) :
    (AuthorizationIssuer.DenialAudited (Calls.run (perform P) start before)
        (issuer.authorize P (Calls.run (perform P) start before) now nonce call).log nonce call
        denied ∧
      ∀ artifact ∈ returned P start steps, artifact.nonce ≠ nonce) ↔
    AuthorizationIssuer.MeetsMeshRequirements P call := by
  rw [AuthorizationIssuer.denial_audited_iff hraised hdenied]
  refine and_iff_left ?_
  rintro artifact hartifact rfl
  rw [hsteps, List.filterMap_append, List.filterMap_cons] at hfresh
  obtain ⟨-, hafter, hdisjoint⟩ := List.nodup_append.mp hfresh
  rw [hsteps, returned_append, returned] at hartifact
  rcases List.mem_append.mp hartifact with hbefore | hrest
  · exact hdisjoint _ (nonce_of_returned hbefore) _ List.mem_cons_self rfl
  · rcases List.mem_append.mp hrest with hhere | hlater
    · rw [returned?, hraised] at hhere
      cases hhere
    · exact (List.nodup_cons.mp hafter).1 (nonce_of_returned hlater)

-- a request for another action than the policy allows, and one that has no mesh input
def deniedCall : AuthorizeCall :=
  { AuthorizationIssuer.lifetimeCall with
    request := PyDict.ofFields [("action", .str "write")] }

def unmetCall : AuthorizeCall :=
  { AuthorizationIssuer.lifetimeCall with
    policy := { AuthorizationIssuer.lifetimeCall.policy with meshRequiredActions := ["read"] } }

def denialOf (result : Result Artifact) : Option PyDict :=
  match result with
  | .error e => denial? e
  | .ok _ => none

theorem exists_denial {result : Result Artifact} (h : (denialOf result).isSome = true) :
    ∃ e denied, result = .error e ∧ denial? e = some denied := by
  cases result with
  | ok artifact => cases h
  | error e =>
      obtain ⟨denied, hdenied⟩ := Option.isSome_iff_exists.mp h
      exact ⟨e, denied, rfl, hdenied⟩

theorem deniedCall_meets : AuthorizationIssuer.MeetsMeshRequirements sizePrimitives deniedCall :=
  ⟨deniedCall.request, some "write", rfl, rfl, by decide +kernel⟩

theorem denials_audited_arbitration : ∃ denied, AuthorizationIssuer.DenialAudited {}
    (AuthorizationIssuer.lifetimeIssuer.authorize sizePrimitives {} 0 "n" deniedCall).log "n"
      deniedCall denied := by
  obtain ⟨e, denied, hraised, hdenied⟩ := exists_denial
    (show (denialOf (AuthorizationIssuer.lifetimeIssuer.authorize sizePrimitives {} 0 "n"
      deniedCall).result).isSome = true by decide +kernel)
  exact ⟨denied, ((denials_audited sizePrimitives {}
    [.authorize AuthorizationIssuer.lifetimeIssuer 0 "n" deniedCall] (by simp [nonce?]) [] []
    AuthorizationIssuer.lifetimeIssuer 0 "n" deniedCall rfl e denied hraised hdenied).mpr
      deniedCall_meets).1⟩

theorem denial_unaudited : ∃ e denied,
    (AuthorizationIssuer.lifetimeIssuer.authorize sizePrimitives {} 0 "n" unmetCall).result =
      .error e ∧ denial? e = some denied ∧
    ¬ AuthorizationIssuer.DenialAudited {}
      (AuthorizationIssuer.lifetimeIssuer.authorize sizePrimitives {} 0 "n" unmetCall).log "n"
      unmetCall denied := by
  obtain ⟨e, denied, hraised, hdenied⟩ := exists_denial
    (show (denialOf (AuthorizationIssuer.lifetimeIssuer.authorize sizePrimitives {} 0 "n"
      unmetCall).result).isSome = true by decide +kernel)
  refine ⟨e, denied, hraised, hdenied, fun haudited => ?_⟩
  obtain ⟨request, action, hrequest, haction, hshortfall⟩ :=
    (AuthorizationIssuer.denial_audited_iff hraised hdenied).mp haudited
  obtain rfl := Except.ok.inj hrequest
  obtain rfl : some (lit "read") = action := Except.ok.inj haction
  revert hshortfall
  decide

end GovernedStep

end GovernedAutonomy
