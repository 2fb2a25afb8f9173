import GovernedAutonomy.PolicyDocument
import GovernedAutonomy.Python.Characters
import GovernedAutonomy.Python.Regex

namespace GovernedAutonomy

open Python PolicyDocument

structure GovernanceRule where
  action : Str
  requiredFields : List Str := []
  exactFields : List (Str × PyVal) := []
  requiredContext : List Str := []
  exactContext : List (Str × PyVal) := []
  description : Str := []
  requiredApprovals : ℤ := 0

-- dict.fromkeys(names): the first of several equal ones stays
def unique : List Str → List Str
  | [] => []
  | s :: ss => s :: (unique ss).filter (· ≠ s)

theorem mem_unique {ss : List Str} {s : Str} : s ∈ unique ss ↔ s ∈ ss := by
  induction ss with
  | nil => rfl
  | cons s' ss ih =>
      rw [unique, List.mem_cons, List.mem_cons, List.mem_filter, ih, decide_eq_true_eq]
      by_cases hs : s = s'
      · simp [hs]
      · simp [hs]

-- {str(key): value for key, value in d.items()}
def strKeyed (P : Primitives) (d : PyDict) : Result (List (Str × PyVal)) :=
  d.foldlM (fun entries m => do
    let name ← P.str (keyVal m.1)
    .ok (Dict.set entries name m.2)) []

namespace GovernanceRule

variable (P : Primitives)

def firstTruthy : List PyVal → PyVal
  | [] => .none
  | [value] => value
  | value :: values => if value.truthy then value else firstTruthy values

def texts (value : PyVal) : Result (List Str) := do
  let xs ← tupleOf value
  xs.mapM P.str

def mappingOf (message : String) (value : PyVal) : Result PyDict :=
  dictOf (.valueError (lit message)) value

def approvalsOf : PyVal → Result ℤ
  | .none => .ok 0
  | .int i =>
      if i < 0 then .error (.valueError (lit "required_approvals must be non-negative")) else .ok i
  | _ => .error (.valueError (lit "required_approvals must be a non-negative integer"))

def orElse (value default : PyVal) : PyVal :=
  match value with
  | .none => default
  | value => value

def fromMapping (payload : PyDict) : Result GovernanceRule := do
  let action ← P.str
    (firstTruthy [payload.getD "action", payload.getD "name", payload.getD "rule"])
  raiseIf (action = []) (.valueError (lit "governance rule must include an action"))
  let requiredFields ← texts P (fieldOr payload "required_fields" (.tuple []))
  let exactFields ← mappingOf "exact_fields must be a mapping of field->value"
    (fieldOr payload "exact_fields" (.dict []))
  let exactFields ← strKeyed P exactFields
  let requiredContext ← texts P (orElse (payload.getD "required_context") (.tuple []))
  let exactContext ← mappingOf "exact_context must be a mapping of field->value"
    (orElse (payload.getD "exact_context") (.dict []))
  let exactContext ← strKeyed P exactContext
  let requiredApprovals ← approvalsOf (fieldOr payload "required_approvals"
    (fieldOr payload "approval_threshold" (fieldOr payload "approvals_required" (.int 0))))
  let description ← P.str (fieldOr payload "description" (.str []))
  .ok
    { action, requiredFields, exactFields
      requiredContext := sortedStrs (unique requiredContext)
      exactContext, description, requiredApprovals }

-- two rules for one action become one
def merge (current rule : GovernanceRule) : GovernanceRule where
  action := rule.action
  requiredFields := unique (current.requiredFields ++ rule.requiredFields)
  exactFields := Dict.update current.exactFields rule.exactFields
  requiredContext := sortedStrs (unique (current.requiredContext ++ rule.requiredContext))
  exactContext := Dict.update current.exactContext rule.exactContext
  description := if current.description ≠ [] then current.description else rule.description
  requiredApprovals := max current.requiredApprovals rule.requiredApprovals

end GovernanceRule

namespace RuleText

open Regex

def letters (s : String) : Regex := literally sameFolded s

def gap : Regex := many 1 isWhitespace

def optionalGap : Regex := many 0 isWhitespace

def isNoNewline (p : CodePoint) : Bool := p ≠ ofChar '\n'

def isBareChar (p : CodePoint) : Bool :=
  isWordChar p || p = ofChar '@' || p = ofChar '.' || p = ofChar '-'

variable (T : DecimalTable)

-- ^(?:allow|require)\s+([A-Za-z0-9_]+)\s+(?:when|if|for)\s+(.*)$
def conditional : Regex :=
  seqs [alt (letters "allow") (letters "require"), gap, group 1 (many 1 isWordChar), gap,
    alt (letters "when") (alt (letters "if") (letters "for")), gap, group 2 (many 0 isNoNewline),
    finish]

-- ([A-Za-z0-9_]+)\s+(?:is|are)\s+present
def presence : Regex :=
  seqs [group 1 (many 1 isWordChar), gap, alt (letters "is") (letters "are"), gap,
    letters "present"]

-- (?:approvals?|approval_count)\s*(?:>=|==|=|>)\s*(\d+)
def approval : Regex :=
  seqs [alt (seq (letters "approval") (alt (letters "s") empty)) (letters "approval_count"),
    optionalGap, alt (letters ">=") (alt (letters "==") (alt (letters "=") (letters ">"))),
    optionalGap, group 1 (many 1 T.isDecimal)]

-- "([^"]*)"
def quotedBy (mark : Char) (i : Nat) : Regex :=
  seqs [one (· = ofChar mark), group i (many 0 (· ≠ ofChar mark)), one (· = ofChar mark)]

-- ([A-Za-z0-9_]+)\s*(?:==|=)\s*(?:"([^"]*)"|'([^']*)'|([A-Za-z0-9@._-]+))
def equality : Regex :=
  seqs [group 1 (many 1 isWordChar), optionalGap, alt (letters "==") (letters "="), optionalGap,
    alt (quotedBy '"' 2) (alt (quotedBy '\'' 3) (group 4 (many 1 isBareChar)))]

-- ^require\s+([A-Za-z0-9_]+)\s+([A-Za-z0-9_]+)\s*(?:==|=|is)\s*(.+)$
def requirement : Regex :=
  seqs [letters "require", gap, group 1 (many 1 isWordChar), gap, group 2 (many 1 isWordChar),
    optionalGap, alt (letters "==") (alt (letters "=") (letters "is")), optionalGap,
    group 3 (many 1 isNoNewline), finish]

-- \s*,\s*|\s+and\s+|\s+
def separator : Regex :=
  alt (seqs [optionalGap, one (· = ofChar ','), optionalGap])
    (alt (seqs [gap, literally (· = ·) "and", gap]) gap)

def splitFields (text : Str) : List Str :=
  ((Regex.split separator (stripped text)).map stripped).filter (· ≠ [])

-- -?\d+
def isInteger (s : Str) : Bool :=
  let body := if s.head? = some (ofChar '-') then s.tail else s
  !body.isEmpty && body.all T.isDecimal

def isQuoted (mark : Char) (s : Str) : Bool :=
  s.head? = some (ofChar mark) && s.getLast? = some (ofChar mark)

def normalizeLiteral (value : Str) : Result PyVal :=
  let value := stripped value
  if value = [] then .ok (.str value)
  else if isQuoted '"' value || isQuoted '\'' value then .ok (.str (value.drop 1).dropLast)
  else if value.map lowerAscii = lit "true" then .ok (.bool true)
  else if value.map lowerAscii = lit "false" then .ok (.bool false)
  else if isInteger T value then do
    let i ← intOfText T value
    .ok (.int i)
  else .ok (.str value)

def groupText (groups : Groups) (i : Nat) : Str := (textOf groups i).getD []

def presenceFields (remainder : Str) : List Str :=
  (finditer presence remainder).map (fun groups => groupText groups 1)

def listedFields (remainder : Str) : List Str :=
  match presenceFields remainder with
  | [] => []
  | fields => splitFields (joined " " fields)

def approvalCount (remainder : Str) : Result ℤ :=
  match search (approval T) remainder with
  | some groups => intOfText T (groupText groups 1)
  | none => .ok 0

def literalOf (groups : Groups) : Str :=
  (((textOf groups 2).or (textOf groups 3)).or (textOf groups 4)).getD []

def equalities (remainder : Str) : Result (List (Str × PyVal)) :=
  (finditer equality remainder).foldlM (fun entries groups => do
    let value ← normalizeLiteral T (literalOf groups)
    .ok (Dict.set entries (groupText groups 1) value)) []

def conditionalRule (text action remainder : Str) : Result GovernanceRule := do
  let requiredFields := listedFields remainder
  let requiredApprovals ← approvalCount T remainder
  let exactFields ← equalities T remainder
  raiseIf (requiredFields = [] ∧ exactFields.isEmpty = true ∧ requiredApprovals = 0)
    (.valueError (lit "unsupported governance rule: " ++ text))
  .ok
    { action, requiredFields := unique requiredFields, exactFields, description := text,
      requiredApprovals }

def ruleOfText (item : Str) : Result GovernanceRule :=
  let text := stripped item
  if text = [] then .error (.valueError (lit "governance rule strings must not be empty"))
  else
    match Regex.head conditional text with
    | some (groups, _) => conditionalRule T text (groupText groups 1) (groupText groups 2)
    | none =>
        match Regex.head requirement text with
        | some (groups, _) => do
            let value ← normalizeLiteral T (groupText groups 3)
            .ok
              { action := groupText groups 1, exactFields := [(groupText groups 2, value)],
                description := text }
        | none =>
            .error (.valueError (lit "unsupported governance rule syntax: " ++ text))

end RuleText

structure GovernanceRuleTranslator where
  policyId : Str

namespace GovernanceRuleTranslator

variable (P : Primitives) (T : DecimalTable) (translator : GovernanceRuleTranslator)

def coerceRule : PyVal → Result GovernanceRule
  | .dict payload => GovernanceRule.fromMapping P payload
  | .str text => RuleText.ruleOfText T text
  | _ => .error (.valueError (lit "governance rule items must be mappings or strings"))

def addRule (normalized : List (Str × GovernanceRule)) (rule : GovernanceRule) :
    List (Str × GovernanceRule) :=
  match Dict.get normalized rule.action with
  | none => Dict.set normalized rule.action rule
  | some current => Dict.set normalized rule.action (current.merge rule)

def approvalEntries (items : List (Str × GovernanceRule)) : List (Str × ℤ) :=
  (items.filter (fun m => 0 < m.2.requiredApprovals)).map (fun m => (m.1, m.2.requiredApprovals))

def policyOf (policyId : Str) (normalized : List (Str × GovernanceRule)) : Result Policy :=
  let items := sortedItems normalized
  Policy.postInit
    { policyId
      allowedActions := sortedStrs (normalized.map Prod.fst)
      requiredFields := items.map (fun m => (m.1, m.2.requiredFields))
      exactFields := items.map (fun m => (m.1, m.2.exactFields))
      requiredContext := sortedStrs (unique (items.flatMap (fun m => m.2.requiredContext)))
      exactContext := items.foldl (fun context m => Dict.update context m.2.exactContext) []
      requiredApprovals := approvalEntries items }

def translateItems (items : List PyVal) (policyId : Str) : Result Policy := do
  let rules ← items.mapM (coerceRule P T)
  let normalized := rules.foldl addRule []
  raiseIf (normalized.isEmpty = true) (.valueError (lit "no governance rules were provided"))
  policyOf policyId normalized

def approvalsFor (allowedActions : List Str) : PyVal → Result (List (Str × ℤ))
  | .dict d => d.foldlM (fun entries m => do
      let action ← P.str (keyVal m.1)
      let count ← intOf T m.2
      .ok (Dict.set entries action count)) []
  | .int i => .ok (allowedActions.map (fun action => (action, i)))
  | _ => .ok []

-- what a source asks for beside its rules
structure Overlay where
  requiredContext : List Str
  exactContext : List (Str × PyVal)
  requiredApprovals : List (Str × ℤ)

def overlayOf (allowedActions : List Str) (source : PyDict) : Result Overlay := do
  let requiredContext ← GovernanceRule.texts P (fieldOr source "required_context" (.tuple []))
  let exactContext ← GovernanceRule.mappingOf "exact_context must be a mapping of field->value"
    (GovernanceRule.orElse (source.getD "exact_context") (.dict []))
  let exactContext ← strKeyed P exactContext
  let requiredApprovals ← approvalsFor P T allowedActions
    (fieldOr source "required_approvals" (.dict []))
  .ok ⟨requiredContext, exactContext, requiredApprovals⟩

def overlaid (policy : Policy) (overlay : Overlay) : Result Policy :=
  if overlay.requiredContext = [] ∧ overlay.exactContext.isEmpty = true ∧
      overlay.requiredApprovals.isEmpty = true then
    .ok policy
  else
    Policy.postInit
      { policyId := policy.policyId
        allowedActions := policy.allowedActions
        requiredFields := policy.requiredFields
        exactFields := policy.exactFields
        requiredContext := sortedStrs (unique (policy.requiredContext ++ overlay.requiredContext))
        exactContext := Dict.update policy.exactContext overlay.exactContext
        maxRequestBytes := policy.maxRequestBytes
        maxTtlSeconds := policy.maxTtlSeconds
        requiredApprovals := Dict.update policy.requiredApprovals overlay.requiredApprovals }

theorem sizeOf_getD (d : PyDict) (name : Str) :
    sizeOf (d.getD name) < sizeOf (PyVal.dict d) := by
  rw [PyVal.dict.sizeOf_spec, PyDict.getD]
  cases hget : d.get name with
  | none =>
      have hd : 1 ≤ sizeOf d := by
        cases d <;> simp only [List.nil.sizeOf_spec, List.cons.sizeOf_spec] <;> omega
      simp only [Option.getD_none, PyVal.none.sizeOf_spec]
      omega
  | some v =>
      obtain ⟨k, hmem, -⟩ := Dict.get_eq_some hget
      have hpair := List.sizeOf_lt_of_mem hmem
      rw [Prod.mk.sizeOf_spec] at hpair
      simp only [Option.getD_some]
      omega

def translate (policyId : Str) : PyVal → Result Policy
  | .dict source =>
      match PyDict.getD source (lit "rules") with
      | .none => .error (.valueError (lit "source mapping must include a 'rules' collection"))
      | _ => do
          let effective ← P.str (GovernanceRule.firstTruthy
            [PyDict.getD source (lit "policy_id"), .str policyId, .str translator.policyId])
          let policy ← translate effective (PyDict.getD source (lit "rules"))
          let overlay ← overlayOf P T policy.allowedActions source
          overlaid policy overlay
  | rules => do
      let items ← tupleOf rules
      translateItems P T items (if policyId = [] then translator.policyId else policyId)
termination_by source => sizeOf source
decreasing_by exact sizeOf_getD source _

end GovernanceRuleTranslator

end GovernedAutonomy
