import GovernedAutonomy.Policy
import Mathlib.Data.List.Perm.Subperm

namespace GovernedAutonomy

open Python

namespace SignedApproval

theorem nonEmptyStr_eq_ok {value : PyDict} {key message : String} {s : Str} :
    nonEmptyStr value key message = .ok s ↔ value.getD (lit key) = .str s ∧ s ≠ [] := by
  unfold nonEmptyStr
  split
  · rename_i c t h
    rw [h]
    constructor
    · intro hs
      obtain rfl := Except.ok.inj hs
      simp
    · rintro ⟨hs, -⟩
      rw [PyVal.str.inj hs]
  · rename_i h
    constructor
    · intro hs
      cases hs
    · rintro ⟨hs, hne⟩
      cases s with
      | nil => exact absurd rfl hne
      | cons c t => exact absurd hs (h c t)

theorem onlyRaises_nonEmptyStr (value : PyDict) (key message : String) :
    OnlyRaises Exc.isValueError (nonEmptyStr value key message) := by
  unfold nonEmptyStr
  split
  · exact onlyRaises_ok _
  · exact onlyRaises_error rfl

theorem onlyRaises_optionalActor (value : PyDict) :
    OnlyRaises Exc.isValueError (optionalActor value) := by
  unfold optionalActor
  split
  · exact onlyRaises_ok _
  · exact onlyRaises_ok _
  · exact onlyRaises_error rfl

theorem onlyRaises_optionalContext (value : PyDict) :
    OnlyRaises Exc.isValueError (optionalContext value) := by
  unfold optionalContext
  split
  · exact onlyRaises_ok _
  · exact onlyRaises_ok _
  · exact onlyRaises_error rfl

theorem onlyRaises_fromDict (value : PyDict) : OnlyRaises Exc.isValueError (fromDict value) :=
  (onlyRaises_raiseIf rfl).bind fun _ => (onlyRaises_raiseIf rfl).bind fun _ =>
    (onlyRaises_nonEmptyStr _ _ _).bind fun _ => (onlyRaises_nonEmptyStr _ _ _).bind fun _ =>
    (onlyRaises_nonEmptyStr _ _ _).bind fun _ => (onlyRaises_nonEmptyStr _ _ _).bind fun _ =>
    (onlyRaises_nonEmptyStr _ _ _).bind fun _ => (onlyRaises_optionalActor value).bind fun _ =>
    (onlyRaises_optionalContext value).bind fun _ => onlyRaises_ok _

theorem fromDict_keys {value : PyDict} {c : SignedApproval} (h : fromDict value = .ok c) :
    value.has "issuer_key_id" = true ∧ value.has "signature" = true := by
  simp only [fromDict, bind_eq_ok, raiseIf_eq_ok] at h
  obtain ⟨-, -, -, hall, -⟩ := h
  simp only [PyDict.hasAll, requiredKeys, List.all_cons, Bool.not_eq_false, Bool.and_eq_true] at hall
  exact ⟨hall.2.2.2.1, hall.2.2.2.2.1⟩

end SignedApproval

namespace DeterministicArbiter

variable {P : Primitives} {arbiter : DeterministicArbiter} {request : PyDict}

def Trusts (arbiter : DeterministicArbiter) (keyId : Str) (key : PublicKey) : Prop :=
  match arbiter.trustStore with
  | some store => store.Trusted keyId key
  | none => Dict.get arbiter.issuerKeys keyId = some key

theorem resolvePublicKey_eq_some {keyId : Str} {key : PublicKey} :
    arbiter.resolvePublicKey keyId = some key ↔ arbiter.Trusts keyId key := by
  unfold resolvePublicKey Trusts
  cases arbiter.trustStore with
  | none => rfl
  | some store => exact TrustStore.resolve_eq_some

variable (P arbiter request) in
structure Binds (c : SignedApproval) : Prop where
  action : P.str (request.getD "action") = .ok c.action
  digest : canonicalDigest P (.dict (SignedApproval.withoutApprovals request)) =
    .ok c.requestDigest

variable (P arbiter request) in
structure Approves (approval : PyVal) (k : Str) : Prop where
  evidence : ∃ d c, approval = .dict d ∧ SignedApproval.fromDict d = .ok c ∧ c.issuerKeyId = k ∧
    Binds P request c ∧ ∃ key payload, arbiter.Trusts k key ∧ c.unsignedPayload P = .ok payload ∧
      verifySignature P key payload c.signature = true

variable (request) in
def carriedApprovals : List PyVal := approvalsOf request ++ approvalsOf (contextOf request).1

variable (P arbiter request) in
def SignedBy (n : ℤ) : Prop :=
  ∃ ks : List Str, ks.Nodup ∧ n ≤ ks.length ∧
    ∀ k ∈ ks, ∃ approval ∈ carriedApprovals request, Approves P arbiter request approval k

variable (request) in
def effectiveCounter : Option ℤ := (counter? request).or (counter? (contextOf request).1)

theorem verify_eq_ok {c : SignedApproval} {key : PublicKey} :
    c.verify P key = .ok true ↔
      ∃ payload, c.unsignedPayload P = .ok payload ∧
        verifySignature P key payload c.signature = true := by
  simp only [SignedApproval.verify, bind_eq_ok, Except.ok.injEq]

theorem matchesRequest_eq_ok {c : SignedApproval} :
    c.matchesRequest P request none = .ok true ↔ Binds P request c := by
  unfold SignedApproval.matchesRequest
  rw [bind_eq_ok]
  constructor
  · rintro ⟨action, haction, h⟩
    split at h
    · cases h
    · rename_i heq
      obtain ⟨digest, hdigest, h⟩ := bind_eq_ok.mp h
      split at h
      · cases h
      · rename_i heq'
        rw [not_not] at heq heq'
        exact ⟨by rw [heq, haction], by rw [heq', hdigest]⟩
  · rintro ⟨haction, hdigest⟩
    refine ⟨c.action, haction, ?_⟩
    rw [if_neg (by simp), hdigest]
    simp [bind, Except.bind]

theorem approver?_eq_some {approval : PyVal} {k : Str} :
    arbiter.approver? P request approval = .ok (some k) ↔
      Approves P arbiter request approval k := by
  constructor
  · intro h
    unfold approver? at h
    split at h
    · rename_i d
      split at h
      · split at h
        · split at h <;> cases h
        · rename_i c hc
          split at h
          · cases h
          · rename_i key hkey
            simp only [bind_eq_ok] at h
            obtain ⟨verified, hv, h⟩ := h
            split at h
            · rename_i hverified
              subst hverified
              obtain ⟨bound, hb, h⟩ := bind_eq_ok.mp h
              cases bound with
              | false => cases h
              | true =>
                  obtain rfl := Option.some.inj (Except.ok.inj h)
                  obtain ⟨payload, hpayload, hsig⟩ := verify_eq_ok.mp hv
                  exact ⟨d, c, rfl, hc, rfl, matchesRequest_eq_ok.mp hb, key, payload,
                    resolvePublicKey_eq_some.mp hkey, hpayload, hsig⟩
            · cases h
      · cases h
    · cases h
  · rintro ⟨d, c, rfl, hc, rfl, hbinds, key, payload, hkey, hpayload, hsig⟩
    obtain ⟨h₁, h₂⟩ := SignedApproval.fromDict_keys hc
    rw [approver?]
    simp only [h₁, h₂, Bool.and_self, if_true, hc, resolvePublicKey_eq_some.mpr hkey,
      verify_eq_ok.mpr ⟨payload, hpayload, hsig⟩, matchesRequest_eq_ok.mpr hbinds, bind, Except.bind]

theorem addApprovers_spec {approvals : List PyVal} {ks ks' : List Str}
    (h : arbiter.addApprovers P request approvals ks = .ok ks') (hks : ks.Nodup) :
    ks'.Nodup ∧ ∀ k, k ∈ ks' ↔
      k ∈ ks ∨ ∃ approval ∈ approvals, Approves P arbiter request approval k := by
  induction approvals generalizing ks with
  | nil =>
      obtain rfl := Except.ok.inj h
      exact ⟨hks, by simp⟩
  | cons approval approvals ih =>
      simp only [addApprovers, bind_eq_ok] at h
      obtain ⟨signer, hsigner, h⟩ := h
      have hthis : ∀ k, signer = some k ↔ Approves P arbiter request approval k := by
        intro k
        rw [← approver?_eq_some, hsigner, Except.ok.injEq]
      cases signer with
      | none =>
          obtain ⟨hnodup, hmem⟩ := ih h hks
          refine ⟨hnodup, ?_⟩
          intro k
          have hk := hthis k
          simp only [reduceCtorEq, false_iff] at hk
          simp [hmem k, hk]
      | some j =>
          have hnext : (if j ∈ ks then ks else ks ++ [j]).Nodup := by
            split
            · exact hks
            · rename_i hj
              exact List.nodup_append.mpr ⟨hks, by simp, by
                rintro a ha b hb rfl
                rw [List.mem_singleton.mp hb] at ha
                exact hj ha⟩
          obtain ⟨hnodup, hmem⟩ := ih h hnext
          refine ⟨hnodup, ?_⟩
          intro k
          have hin : k ∈ (if j ∈ ks then ks else ks ++ [j]) ↔ k ∈ ks ∨ j = k := by
            split
            · rename_i hj
              constructor
              · exact Or.inl
              · rintro (h | rfl)
                · exact h
                · exact hj
            · rw [List.mem_append, List.mem_singleton, eq_comm]
          have hk := hthis k
          rw [Option.some.injEq] at hk
          rw [hmem k, hin, hk, List.exists_mem_cons_iff, or_assoc]

theorem signedBy_iff {ks : List Str} (hnodup : ks.Nodup)
    (hmem : ∀ k, k ∈ ks ↔ ∃ approval ∈ carriedApprovals request,
      Approves P arbiter request approval k) {n : ℤ} :
    SignedBy P arbiter request n ↔ n ≤ ks.length := by
  constructor
  · rintro ⟨js, hjs, hn, hsub⟩
    have hle : js.length ≤ ks.length :=
      (List.Nodup.subperm hjs fun k hk => (hmem k).mpr (hsub k hk)).length_le
    omega
  · intro hn
    exact ⟨ks, hnodup, hn, fun k hk => (hmem k).mp hk⟩

theorem contextOf_encodable (h : (PyVal.dict request).Encodable P.recursionLimit) :
    (PyVal.dict (contextOf request).1).Encodable P.recursionLimit := by
  unfold contextOf
  split
  · exact h.sublist (List.nil_sublist _)
  · rename_i context hcontext
    exact (h.of_get hcontext).mono (Nat.sub_le _ _)
  · exact h.sublist (List.nil_sublist _)

theorem approval_encodable {d : PyDict} (h : (PyVal.dict d).Encodable P.recursionLimit)
    {approval : PyVal} (ha : approval ∈ approvalsOf d) :
    approval.Encodable (P.recursionLimit - 1) := by
  unfold approvalsOf PyDict.getD at ha
  cases hget : d.get "approvals" with
  | none => simp [hget] at ha
  | some v =>
      have hv := h.of_get hget
      rw [hget] at ha
      cases v with
      | list xs => exact ((PyVal.encodable_list.mp hv).2 _ ha).mono (Nat.sub_le _ _)
      | tuple xs => exact ((PyVal.encodable_tuple.mp hv).2 _ ha).mono (Nat.sub_le _ _)
      | _ => simp at ha

theorem clean_of_getD {d : PyDict} {depth : Nat} (h : (PyVal.dict d).Encodable depth) {name s : Str}
    (hs : d.getD name = .str s) : Json.Clean s := by
  unfold PyDict.getD at hs
  cases hget : d.get name with
  | none => simp [hget] at hs
  | some v =>
      rw [hget] at hs
      obtain rfl : v = .str s := hs
      exact PyVal.encodable_str.mp (h.of_get hget)

theorem fromDict_payload_isOk {d : PyDict} {c : SignedApproval}
    (h : (PyVal.dict d).Encodable (P.recursionLimit - 1)) (hc : SignedApproval.fromDict d = .ok c) :
    ∃ payload, c.unsignedPayload P = .ok payload := by
  have hpos := (PyVal.encodable_dict.mp h).1
  simp only [SignedApproval.fromDict, bind_eq_ok, raiseIf_eq_ok,
    SignedApproval.nonEmptyStr_eq_ok] at hc
  obtain ⟨-, -, -, -, action, ⟨haction, -⟩, digest, ⟨hdigest, -⟩, decision, ⟨hdecision, -⟩, issuer,
    ⟨hissuer, -⟩, signature, -, actor, hactor, context, hcontext, hc⟩ := hc
  obtain rfl := Except.ok.inj hc
  rw [SignedApproval.unsignedPayload, canonicalJson_isOk, PyVal.encodable_ofFields]
  refine ⟨by omega, ?_⟩
  simp only [List.forall_mem_cons, List.not_mem_nil, IsEmpty.forall_iff, implies_true, and_true,
    PyVal.encodable_str]
  refine ⟨clean_of_getD h haction, clean_of_getD h hdigest, clean_of_getD h hdecision,
    clean_of_getD h hissuer, ?_, ?_⟩
  · cases actor with
    | none => simp [optStr]
    | some s =>
        rw [optStr, PyVal.encodable_str]
        unfold SignedApproval.optionalActor at hactor
        split at hactor
        · cases hactor
        · rename_i c t hget
          obtain rfl := Option.some.inj (Except.ok.inj hactor)
          exact clean_of_getD h hget
        · cases hactor
  · unfold SignedApproval.optionalContext at hcontext
    split at hcontext
    · obtain rfl := Except.ok.inj hcontext
      exact h.sublist (List.nil_sublist _)
    · rename_i ctx hget
      obtain rfl := Except.ok.inj hcontext
      exact (h.of_get hget).mono (Nat.sub_le _ _)
    · cases hcontext

theorem matchesRequest_isOk (h : (PyVal.dict request).Encodable P.recursionLimit)
    (c : SignedApproval) : ∃ b, c.matchesRequest P request none = .ok b := by
  obtain ⟨action, haction⟩ : ∃ action, P.str (request.getD "action") = .ok action := by
    unfold PyDict.getD
    cases hget : request.get "action" with
    | none => exact ⟨_, rfl⟩
    | some v => exact (h.of_get hget).str_isOk P.toInterpreter
  obtain ⟨digest, hdigest⟩ := (canonicalDigest_isOk P).mpr
    (show (PyVal.dict (SignedApproval.withoutApprovals request)).Encodable P.recursionLimit from
      h.sublist List.filter_sublist)
  simp only [SignedApproval.matchesRequest, haction, hdigest, bind, Except.bind]
  split
  · exact ⟨_, rfl⟩
  · split <;> exact ⟨_, rfl⟩

theorem approver?_isOk (arbiter : DeterministicArbiter)
    (h : (PyVal.dict request).Encodable P.recursionLimit) {approval : PyVal}
    (ha : approval.Encodable (P.recursionLimit - 1)) :
    ∃ signer, arbiter.approver? P request approval = .ok signer := by
  unfold approver?
  split
  · rename_i d
    split
    · split
      · rename_i e he
        rw [if_pos (SignedApproval.onlyRaises_fromDict d e he)]
        exact ⟨_, rfl⟩
      · rename_i c hc
        split
        · exact ⟨_, rfl⟩
        · rename_i key hkey
          obtain ⟨payload, hpayload⟩ := fromDict_payload_isOk ha hc
          obtain ⟨bound, hbound⟩ := matchesRequest_isOk h c
          simp only [SignedApproval.verify, hpayload, hbound, bind, Except.bind]
          split <;> exact ⟨_, rfl⟩
    · exact ⟨_, rfl⟩
  · exact ⟨_, rfl⟩

theorem addApprovers_isOk (arbiter : DeterministicArbiter)
    (h : (PyVal.dict request).Encodable P.recursionLimit)
    {approvals : List PyVal} (ha : ∀ a ∈ approvals, a.Encodable (P.recursionLimit - 1))
    (ks : List Str) : ∃ ks', arbiter.addApprovers P request approvals ks = .ok ks' := by
  induction approvals generalizing ks with
  | nil => exact ⟨ks, rfl⟩
  | cons a approvals ih =>
      obtain ⟨signer, hsigner⟩ := approver?_isOk arbiter h (ha a List.mem_cons_self)
      rw [addApprovers, hsigner]
      exact ih (fun b hb => ha b (List.mem_cons_of_mem _ hb)) _

theorem approvalCount_spec (arbiter : DeterministicArbiter)
    (h : (PyVal.dict request).Encodable P.recursionLimit) :
    ∃ ks : List Str, ks.Nodup ∧
      (∀ k, k ∈ ks ↔ ∃ approval ∈ carriedApprovals request,
        Approves P arbiter request approval k) ∧
      arbiter.approvalCount P request (contextOf request).1 =
        .ok ((effectiveCounter request).getD ks.length) := by
  obtain ⟨ks, hks⟩ := addApprovers_isOk arbiter h
    (fun a ha => approval_encodable h ha) []
  obtain ⟨ks', hks'⟩ := addApprovers_isOk arbiter h
    (fun a ha => approval_encodable (contextOf_encodable h) ha) ks
  obtain ⟨hnodup, hmem⟩ := addApprovers_spec hks List.nodup_nil
  obtain ⟨hnodup', hmem'⟩ := addApprovers_spec hks' hnodup
  refine ⟨ks', hnodup', ?_, ?_⟩
  · intro k
    rw [hmem', hmem, carriedApprovals]
    simp only [List.not_mem_nil, false_or, List.mem_append, or_and_right, exists_or]
  · rw [approvalCount, effectiveCounter]
    cases counter? request with
    | some c => rfl
    | none =>
        simp only [hks, bind, Except.bind]
        cases counter? (contextOf request).1 with
        | some c => rfl
        | none => simp only [hks', Option.or_none, Option.getD_none]

variable (P request) in
structure Admits (policy : Policy) : Prop where
  constraints : ∃ bytes, canonicalJson P (.dict request) = .ok bytes ∧
    constraintFindings request policy bytes = .ok []
  digest : ∃ digest, policy.digest P = .ok digest

theorem allowed_of_constraintFindings {policy : Policy} {bytes : String}
    (h : constraintFindings request policy bytes = .ok []) :
    isAllowed policy (request.getD "action") = true := by
  simp only [constraintFindings, bind_eq_ok] at h
  obtain ⟨required, -, exact, -, limits, -, numeric, -, h⟩ := h
  have h := Except.ok.inj h
  simp only [List.append_eq_nil_iff] at h
  by_contra hnot
  have hblock := h.1.1.1.1.1.2
  rw [if_neg hnot] at hblock
  cases hblock

theorem quorumFindings_eq_nil {n : ℤ} (hn : 0 < n) :
    arbiter.quorumFindings P request n = .ok [] ↔
      ∃ count, arbiter.approvalCount P request (contextOf request).1 = .ok count ∧ n ≤ count := by
  rw [quorumFindings, if_pos hn, bind_eq_ok]
  refine exists_congr fun count => and_congr_right fun _ => ?_
  split
  · rename_i hlt
    constructor
    · intro h
      simp only [bind_eq_ok] at h
      obtain ⟨action, -, countText, -, requiredText, -, h⟩ := h
      cases h
    · intro hle
      omega
  · rename_i hlt
    exact ⟨fun _ => by omega, fun _ => rfl⟩

theorem decide_allows_iff {policy : Policy} {n : ℤ}
    (hreq : requiredApprovalsFor policy request = .ok n) (hn : 0 < n) :
    (∃ d, arbiter.decide P request policy = .ok d ∧ d.allow = true) ↔
      Admits P request policy ∧
        ∃ count, arbiter.approvalCount P request (contextOf request).1 = .ok count ∧
          n ≤ count := by
  rw [← quorumFindings_eq_nil hn]
  constructor
  · rintro ⟨d, hd, hallow⟩
    simp only [decide, bind_eq_ok] at hd
    obtain ⟨bytes, hbytes, constraints, hconstraints, required, hrequired, quorum, hquorum, digest,
      hdigest, hd⟩ := hd
    rw [hreq] at hrequired
    obtain rfl := Except.ok.inj hrequired
    obtain rfl := Except.ok.inj hd
    simp only [verdict, Bool.and_eq_true, List.isEmpty_iff, List.append_eq_nil_iff] at hallow
    obtain ⟨-, rfl, rfl⟩ := hallow
    exact ⟨⟨⟨bytes, hbytes, hconstraints⟩, digest, hdigest⟩, hquorum⟩
  · rintro ⟨⟨⟨bytes, hbytes, hconstraints⟩, digest, hdigest⟩, hquorum⟩
    have hd : arbiter.decide P request policy = .ok (verdict P policy request bytes [] digest) := by
      simp only [decide, hbytes, hconstraints, hreq, hquorum, hdigest, bind, Except.bind]
      rfl
    exact ⟨_, hd, by simp [verdict, allowed_of_constraintFindings hconstraints]⟩

theorem approval_quorum_iff {policy : Policy} {n : ℤ}
    (hreq : requiredApprovalsFor policy request = .ok n) (hn : 0 < n) :
    (∀ d, arbiter.decide P request policy = .ok d → d.allow = true →
        SignedBy P arbiter request n) ↔
      (Admits P request policy → ∀ c, effectiveCounter request = some c → n ≤ c →
        SignedBy P arbiter request n) := by
  constructor
  · intro h hadmits c hc hle
    obtain ⟨bytes, hbytes, -⟩ := hadmits.constraints
    obtain ⟨ks, -, -, hcount⟩ :=
      approvalCount_spec arbiter ((canonicalJson_isOk P).mp ⟨bytes, hbytes⟩)
    rw [hc] at hcount
    obtain ⟨d, hd, hallow⟩ := (decide_allows_iff hreq hn).mpr ⟨hadmits, c, hcount, hle⟩
    exact h d hd hallow
  · intro h d hd hallow
    obtain ⟨hadmits, count, hcount, hle⟩ := (decide_allows_iff hreq hn).mp ⟨d, hd, hallow⟩
    obtain ⟨bytes, hbytes, -⟩ := hadmits.constraints
    obtain ⟨ks, hnodup, hmem, hspec⟩ :=
      approvalCount_spec arbiter ((canonicalJson_isOk P).mp ⟨bytes, hbytes⟩)
    rw [hspec] at hcount
    obtain rfl := Except.ok.inj hcount
    cases hc : effectiveCounter request with
    | some c =>
        rw [hc] at hle
        exact h hadmits c hc hle
    | none =>
        rw [hc] at hle
        exact (signedBy_iff hnodup hmem).mpr hle

def counterRequest : PyDict :=
  PyDict.ofFields [("action", .str "deploy"), ("approval_count", .int 2)]

def twoApprovalsPolicy : Policy where
  policyId := "deploy-policy"
  allowedActions := ["deploy"]
  requiredFields := []
  exactFields := []
  requiredApprovals := [("deploy", 2)]

theorem approval_quorum_iff_counter :
    (0 : ℤ) < 2 ∧ ((∀ d, DeterministicArbiter.decide referencePrimitives {} counterRequest
        twoApprovalsPolicy = .ok d → d.allow = true →
          SignedBy referencePrimitives {} counterRequest 2) ↔
      (Admits referencePrimitives counterRequest twoApprovalsPolicy →
        ∀ c, effectiveCounter counterRequest = some c → 2 ≤ c →
          SignedBy referencePrimitives {} counterRequest 2)) :=
  ⟨by decide, approval_quorum_iff rfl (by decide)⟩

theorem counter_passes_quorum :
    (DeterministicArbiter.decide referencePrimitives {} counterRequest twoApprovalsPolicy).toOption.any
      Decision.allow = true := by
  decide +kernel

theorem approval_quorum_unsound :
    ¬ ∀ (P : Primitives) (arbiter : DeterministicArbiter) (request : PyDict) (policy : Policy)
      (n : ℤ), requiredApprovalsFor policy request = .ok n → 0 < n →
        ∀ d, arbiter.decide P request policy = .ok d → d.allow = true →
          SignedBy P arbiter request n := by
  intro h
  have hpass := counter_passes_quorum
  cases hd : DeterministicArbiter.decide referencePrimitives {} counterRequest
      twoApprovalsPolicy with
  | error e =>
      rw [hd] at hpass
      cases hpass
  | ok d =>
      rw [hd] at hpass
      obtain ⟨ks, -, hlen, hks⟩ := h referencePrimitives {} counterRequest twoApprovalsPolicy 2 rfl
        (by decide) d hd hpass
      cases ks with
      | nil => exact absurd hlen (by decide)
      | cons k ks =>
          obtain ⟨approval, hmem, -⟩ := hks k List.mem_cons_self
          exact absurd hmem (by simp [carriedApprovals, approvalsOf, contextOf, counterRequest,
            PyDict.getD, PyDict.get, PyDict.ofFields, Dict.get])

end DeterministicArbiter

end GovernedAutonomy
