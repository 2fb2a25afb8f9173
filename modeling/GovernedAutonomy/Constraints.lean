import GovernedAutonomy.Binding
import GovernedAutonomy.Python.JsonEqual

namespace GovernedAutonomy

open Python

-- one thing that a policy asks of a request
inductive Constraint where
  | size (maximum : ℤ)
  | contextShape
  | action (allowed : List Str)
  | field (name : Str)
  | exactField (name : Str) (expected : PyVal)
  | numericField (name : Str) (maximum : Number)
  | contextField (name : Str)
  | exactContext (name : Str) (expected : PyVal)

-- d.get(action) for an action that may be any value
def entryOf {V : Type} (d : List (Str × V)) : PyVal → Option V
  | .str action => Dict.get d action
  | _ => none

def applicable {V : Type} (d : List (Str × List V)) (action : PyVal) : List V :=
  (entryOf d action).getD []

def contextObject (request : PyDict) : PyDict :=
  match request.get "context" with
  | some (.dict context) => context
  | _ => []

-- present, and equal as JSON
def matchesExactly (d : PyDict) (name : Str) (expected : PyVal) : Bool :=
  (d.get name).any (fun v => v.jsonEq expected)

-- a double stands for the integer, if only roughly
def isDouble (i : ℤ) : Bool := (nearestDouble (i.natAbs : ℚ)).isSome

-- a finite number that is not above the maximum
def isWithin (maximum : Number) : PyVal → Bool
  | .int i => !(Number.int i).gt maximum
  | .float f => f.isFinite && !(Number.float f).gt maximum
  | _ => false

namespace Constraint

variable (P : Primitives) (request : PyDict)

def isMet : Constraint → Bool
  | .size maximum => (canonicalJson P (.dict request)).toOption.any
      (fun bytes => decide ((bytes.utf8ByteSize : ℤ) ≤ maximum))
  | .contextShape => (request.get "context").all (fun v => match v with
      | .dict _ => true
      | _ => false)
  | .action allowed => match request.getD "action" with
      | .str name => decide (name ∈ allowed)
      | _ => false
  | .field name => request.has name
  | .exactField name expected => matchesExactly request name expected
  | .numericField name maximum => isWithin maximum (request.getD name)
  | .contextField name => PyDict.has (contextObject request) name
  | .exactContext name expected => matchesExactly (contextObject request) name expected

-- section 14.1 of SPEC.md lists the codes, but for the one of numeric limits
def code : Constraint → String
  | .size _ => "request_too_large"
  | .contextShape => "invalid_context"
  | .action _ => "action_not_allowed"
  | .field _ => "required_field_missing"
  | .exactField _ _ => "field_mismatch"
  | .numericField _ _ => "numeric_limit_exceeded"
  | .contextField _ => "required_context_missing"
  | .exactContext _ _ => "context_mismatch"

end Constraint

namespace Policy

variable (policy : Policy)

def constraintsFor (action : PyVal) : List Constraint :=
  [.size policy.maxRequestBytes, .contextShape, .action policy.allowedActions] ++
    (applicable policy.requiredFields action).map .field ++
    (applicable policy.exactFields action).map (fun m => .exactField m.1 m.2) ++
    (applicable policy.maxNumericFields action).map (fun m => .numericField m.1 m.2) ++
    policy.requiredContext.map .contextField ++
    policy.exactContext.map (fun m => .exactContext m.1 m.2)

end Policy

namespace DeterministicArbiter

section Statement

variable (P : Primitives) (arbiter : DeterministicArbiter) (request : PyDict) (policy : Policy)

-- == holds although the entry is absent, or equal in Python only
def NearMiss (d : PyDict) (name : Str) (expected : PyVal) : Prop :=
  (d.getD name).eq expected = true ∧ matchesExactly d name expected = false

structure Computable : Prop where
  canonical : (PyVal.dict request).Encodable P.recursionLimit
  digestible : (PyVal.dict policy.toDict).Encodable P.recursionLimit
  hashable : (request.getD "action").hashable = true
  representable : ∀ m ∈ applicable policy.maxNumericFields (request.getD "action"), ∀ i,
    request.getD m.1 = .int i → isDouble i = true

structure Unambiguous : Prop where
  fields : ∀ m ∈ applicable policy.exactFields (request.getD "action"),
    ¬ NearMiss request m.1 m.2
  context : ∀ m ∈ policy.exactContext, ¬ NearMiss (contextObject request) m.1 m.2

end Statement

-- the constraints as the arbiter tests them
namespace Tested

variable (P : Primitives) (request : PyDict)

def passes : Constraint → Bool
  | .exactField name expected => (request.getD name).eq expected
  | .exactContext name expected => ((contextObject request).getD name).eq expected
  | c => c.isMet P request

def finding : Constraint → Finding
  | .size _ => .of (lit "request exceeds policy size limit") "request_too_large"
  | .contextShape => .of (lit "context must be an object") "invalid_context"
  | .action _ => .of (lit "action is not allowed by policy") "action_not_allowed"
  | .field name => .of (lit "required field is missing: " ++ name) "required_field_missing"
  | .exactField name _ => .of (lit "field does not match policy: " ++ name) "field_mismatch"
  | .numericField name _ =>
      .of (lit "numeric field exceeds policy maximum: " ++ name) "numeric_limit_exceeded"
  | .contextField name =>
      .of (lit "required context is missing: " ++ name) "required_context_missing"
  | .exactContext name _ => .of (lit "context does not match policy: " ++ name) "context_mismatch"

def findings (cs : List Constraint) : List Finding :=
  (cs.filter (fun c => !passes P request c)).map finding

theorem finding_code (c : Constraint) : (finding c).code = lit c.code := by
  cases c <;> rfl

theorem findings_append (cs cs' : List Constraint) :
    findings P request (cs ++ cs') = findings P request cs ++ findings P request cs' := by
  rw [findings, List.filter_append, List.map_append]
  rfl

theorem findings_fields (names : List Str) : findings P request (names.map .field) =
    missingFindings request "required field is missing: " "required_field_missing" names := by
  rw [findings, List.filter_map, List.map_map]
  rfl

theorem findings_exactFields (entries : List (Str × PyVal)) :
    findings P request (entries.map (fun m => .exactField m.1 m.2)) =
      mismatchFindings request "field does not match policy: " "field_mismatch" entries := by
  rw [findings, List.filter_map, List.map_map]
  rfl

theorem findings_contextFields (names : List Str) : findings P request (names.map .contextField) =
    missingFindings (contextObject request) "required context is missing: "
      "required_context_missing" names := by
  rw [findings, List.filter_map, List.map_map]
  rfl

theorem findings_exactContext (entries : List (Str × PyVal)) :
    findings P request (entries.map (fun m => .exactContext m.1 m.2)) =
      mismatchFindings (contextObject request) "context does not match policy: "
        "context_mismatch" entries := by
  rw [findings, List.filter_map, List.map_map]
  rfl

end Tested

end DeterministicArbiter

namespace DeterministicArbiter

section Deciding

variable {P : Primitives} {arbiter : DeterministicArbiter} {request : PyDict} {policy : Policy}

theorem lookup_eq {V : Type} (d : List (Str × V)) (key : PyVal) : lookup d key =
    if key.hashable then .ok (entryOf d key) else .error (.builtin .typeError) := by
  unfold lookup
  split
  · rfl
  · rename_i hother
    have hnone : entryOf d key = none := by
      unfold entryOf
      split
      · exact absurd rfl (hother _)
      · rfl
    rw [hnone]

theorem contextOf_eq (request : PyDict) :
    contextOf request = (contextObject request, Tested.findings P request [.contextShape]) := by
  rw [contextOf, contextObject, Tested.findings]
  cases hget : request.get "context" with
  | none => simp [Tested.passes, Constraint.isMet, hget]
  | some v => cases v <;> simp [Tested.passes, Constraint.isMet, hget, Tested.finding]

theorem isAllowed_eq : isAllowed policy (request.getD "action") =
    (Constraint.action policy.allowedActions).isMet P request := by
  rw [Bool.eq_iff_iff, isAllowed, List.any_eq_true, Constraint.isMet]
  simp only [PyVal.eq_str_right]
  cases request.getD "action" with
  | str name => simp
  | _ => simp

theorem isFinite_int (i : ℤ) : (Number.int i).isFinite =
    if isDouble i then .ok true else .error (.builtin .overflowError) := by
  rw [Number.isFinite, isDouble]
  cases nearestDouble (i.natAbs : ℚ) with
  | none => rfl
  | some x => rfl

theorem numericExceeds_eq {v : PyVal} {maximum : Number}
    (h : ∀ i, v = .int i → isDouble i = true) :
    numericExceeds v maximum = .ok (!isWithin maximum v) := by
  cases v with
  | int i =>
      rw [numericExceeds, isFinite_int, if_pos (h i rfl)]
      simp [bind, Except.bind, isWithin]
  | float f => simp [numericExceeds, Number.isFinite, bind, Except.bind, isWithin]
  | _ => rfl

theorem numericExceeds_raises {i : ℤ} {maximum : Number} (h : isDouble i = false) :
    numericExceeds (.int i) maximum = .error (.builtin .overflowError) := by
  rw [numericExceeds, isFinite_int, if_neg (Bool.eq_false_iff.mp h)]
  rfl

theorem numericFindings_eq {limits : List (Str × Number)}
    (h : ∀ m ∈ limits, ∀ i, request.getD m.1 = .int i → isDouble i = true) :
    numericFindings request limits =
      .ok (Tested.findings P request (limits.map (fun m => .numericField m.1 m.2))) := by
  induction limits with
  | nil => rfl
  | cons m limits ih =>
      obtain ⟨hm, hlimits⟩ := List.forall_mem_cons.mp h
      rw [numericFindings, numericExceeds_eq hm, ih hlimits, List.map_cons, Tested.findings,
        Tested.findings, List.filter_cons]
      cases hwithin : isWithin m.2 (request.getD m.1) <;>
        simp [bind, Except.bind, Tested.passes, Constraint.isMet, hwithin, Tested.finding]

theorem isDouble_of_numericFindings {limits : List (Str × Number)} {found : List Finding}
    (h : numericFindings request limits = .ok found) :
    ∀ m ∈ limits, ∀ i, request.getD m.1 = .int i → isDouble i = true := by
  induction limits generalizing found with
  | nil => simp
  | cons m limits ih =>
      rw [numericFindings] at h
      obtain ⟨exceeds, hexceeds, h⟩ := bind_eq_ok.mp h
      obtain ⟨rest, hrest, -⟩ := bind_eq_ok.mp h
      refine List.forall_mem_cons.mpr ⟨?_, ih hrest⟩
      intro i hi
      by_contra hnone
      rw [hi, numericExceeds_raises (Bool.eq_false_iff.mpr hnone)] at hexceeds
      cases hexceeds

-- the findings of the arbiter are those of the constraints that fail its own tests
theorem constraintFindings_eq {requestBytes : String}
    (hbytes : canonicalJson P (.dict request) = .ok requestBytes)
    (hhashable : (request.getD "action").hashable = true)
    (hdoubles : ∀ m ∈ applicable policy.maxNumericFields (request.getD "action"), ∀ i,
      request.getD m.1 = .int i → isDouble i = true) :
    constraintFindings request policy requestBytes =
      .ok (Tested.findings P request (policy.constraintsFor (request.getD "action"))) := by
  have hsize : (if policy.maxRequestBytes < requestBytes.utf8ByteSize then
      [Finding.of (lit "request exceeds policy size limit") "request_too_large"] else []) =
      Tested.findings P request [.size policy.maxRequestBytes] := by
    simp only [Tested.findings, Tested.passes, Constraint.isMet, hbytes, Except.toOption,
      Option.any_some, List.filter_singleton]
    split_ifs with hlarge
    · simp [not_le.mpr hlarge, Tested.finding]
    · simp [not_lt.mp hlarge]
  have haction : (if isAllowed policy (request.getD "action") then []
      else [Finding.of (lit "action is not allowed by policy") "action_not_allowed"]) =
      Tested.findings P request [.action policy.allowedActions] := by
    rw [isAllowed_eq (P := P)]
    simp only [Tested.findings, Tested.passes, List.filter_singleton]
    cases (Constraint.action policy.allowedActions).isMet P request <;> rfl
  have hparts : Tested.findings P request (policy.constraintsFor (request.getD "action")) =
      Tested.findings P request ([.size policy.maxRequestBytes] ++ [.contextShape] ++
        [.action policy.allowedActions] ++
        (applicable policy.requiredFields (request.getD "action")).map .field ++
        (applicable policy.exactFields (request.getD "action")).map
          (fun m => .exactField m.1 m.2) ++
        (applicable policy.maxNumericFields (request.getD "action")).map
          (fun m => .numericField m.1 m.2) ++
        policy.requiredContext.map .contextField ++
        policy.exactContext.map (fun m => .exactContext m.1 m.2)) := rfl
  rw [constraintFindings, contextOf_eq (P := P), lookup_eq, lookup_eq, lookup_eq, if_pos hhashable,
    if_pos hhashable, if_pos hhashable, hparts]
  simp only [bind, Except.bind]
  rw [← applicable, ← applicable, ← applicable, numericFindings_eq (P := P) hdoubles]
  simp only [hsize, haction, Tested.findings_append, Tested.findings_fields,
    Tested.findings_exactFields, Tested.findings_contextFields, Tested.findings_exactContext]

theorem requiredApprovalsFor_eq (hhashable : (request.getD "action").hashable = true) :
    requiredApprovalsFor policy request =
      .ok ((entryOf policy.requiredApprovals (request.getD "action")).getD 0) := by
  rw [requiredApprovalsFor, lookup_eq, if_pos hhashable]
  rfl

theorem quorumFindings_eq {required : ℤ} (h : required ≤ 0) :
    arbiter.quorumFindings P request required = .ok [] := by
  rw [quorumFindings, if_neg (not_lt.mpr h)]

-- what is left of decide once its constraints can be tested
theorem decide_of_testable (arbiter : DeterministicArbiter) {requestBytes : String}
    (hbytes : canonicalJson P (.dict request) = .ok requestBytes)
    (hhashable : (request.getD "action").hashable = true)
    (hdoubles : ∀ m ∈ applicable policy.maxNumericFields (request.getD "action"), ∀ i,
      request.getD m.1 = .int i → isDouble i = true) :
    arbiter.decide P request policy = (do
      let quorum ← arbiter.quorumFindings P request
        ((entryOf policy.requiredApprovals (request.getD "action")).getD 0)
      let policyDigest ← policy.digest P
      .ok (verdict P policy request requestBytes
        (Tested.findings P request (policy.constraintsFor (request.getD "action")) ++ quorum)
        policyDigest)) := by
  rw [decide, hbytes]
  simp only [bind, Except.bind]
  rw [constraintFindings_eq hbytes hhashable hdoubles, requiredApprovalsFor_eq hhashable]

theorem computable_of_decide {decision : Decision}
    (h : arbiter.decide P request policy = .ok decision) : Computable P request policy := by
  rw [decide] at h
  obtain ⟨requestBytes, hbytes, h⟩ := bind_eq_ok.mp h
  obtain ⟨constraints, hconstraints, h⟩ := bind_eq_ok.mp h
  obtain ⟨required, -, h⟩ := bind_eq_ok.mp h
  obtain ⟨quorum, -, h⟩ := bind_eq_ok.mp h
  obtain ⟨policyDigest, hdigest, -⟩ := bind_eq_ok.mp h
  rw [constraintFindings, contextOf_eq (P := P)] at hconstraints
  obtain ⟨required, hrequired, hconstraints⟩ := bind_eq_ok.mp hconstraints
  obtain ⟨exact', hexact, hconstraints⟩ := bind_eq_ok.mp hconstraints
  obtain ⟨limits, hlimits, hconstraints⟩ := bind_eq_ok.mp hconstraints
  obtain ⟨numeric, hnumeric, -⟩ := bind_eq_ok.mp hconstraints
  have hhashable : (request.getD "action").hashable = true := by
    by_contra hnot
    rw [lookup_eq, if_neg hnot] at hrequired
    cases hrequired
  rw [lookup_eq, if_pos hhashable] at hlimits
  obtain rfl := Except.ok.inj hlimits
  exact ⟨(canonicalJson_isOk P).mp ⟨requestBytes, hbytes⟩,
    (canonicalDigest_isOk P).mp ⟨policyDigest, hdigest⟩, hhashable,
    isDouble_of_numericFindings hnumeric⟩

-- allow says that there is nothing to say
theorem allow_verdict (requestBytes : String) (digest : Str) :
    (verdict P policy request requestBytes
      (Tested.findings P request (policy.constraintsFor (request.getD "action"))) digest).allow =
        true ↔ (policy.constraintsFor (request.getD "action")).filter
          (fun c => !Tested.passes P request c) = [] := by
  rw [verdict, Bool.and_eq_true, List.isEmpty_iff, Tested.findings, List.map_eq_nil_iff,
    and_iff_right_iff_imp, List.filter_eq_nil_iff]
  intro h
  have haction := h (.action policy.allowedActions)
    (by rw [Policy.constraintsFor]; simp)
  rw [isAllowed_eq (P := P)]
  simpa [Tested.passes] using haction

end Deciding

section NearMisses

end NearMisses

end DeterministicArbiter

end GovernedAutonomy
