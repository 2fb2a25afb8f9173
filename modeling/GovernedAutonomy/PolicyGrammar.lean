import GovernedAutonomy.Constraints
import GovernedAutonomy.PolicyReload
import GovernedAutonomy.Python.Checks
import GovernedAutonomy.RawPolicy

namespace GovernedAutonomy

open Python PolicyDocument

namespace RawPolicy

section Ruling

def isDict : PyVal → Bool
  | .dict _ => true
  | _ => false

def isList : PyVal → Bool
  | .list _ => true
  | _ => false

def isInt : PyVal → Bool
  | .int _ => true
  | _ => false

def itemsIn (value : PyVal) : List PyVal := (tupleOf value).toOption.getD []

def entriesIn : PyVal → PyDict
  | .dict d => d
  | _ => []

def tuplesIn (value : PyVal) : List (PyKey × List PyVal) :=
  (entriesIn value).map (fun m => (m.1, itemsIn m.2))

def iterable (value : PyVal) : Check := .orEscape (tupleOf value).toOption.isSome

def mapping (value : PyVal) : Check := .orEscape (isDict value)

def mappingOfIterables (value : PyVal) : Check :=
  (mapping value).andThen (.all ((entriesIn value).map (fun m => iterable m.2)))

def aboveZero : PyVal → Check
  | .int i => .orReject (0 < i)
  | .bool b => .orReject b
  | .float f => .orReject (!f.value?.any (fun x => x ≤ intValue 0))
  | _ => .escapes

def allNames (xs : List PyVal) : Check := .orReject (xs.all isName)

def ordered (xs : List PyVal) : Check :=
  match unsorted xs with
  | .ok bad => .orReject (!bad)
  | .error _ => .escapes

-- an entry under an action's name
def entry {V : Type} (value : V → Check) (m : PyKey × V) : Check :=
  (Check.orReject (isName (keyVal m.1))).andThen (value m.2)

def natural : PyVal → Check
  | .int i => .orReject (0 ≤ i)
  | _ => .rejects

def finite : PyVal → Check
  | .int i => .orEscape (isDouble i)
  | .float f => .orReject f.isFinite
  | _ => .rejects

def limits (value : PyVal) : Check :=
  (Check.orReject (isDict value)).andThen (.all ((entriesIn value).map (entry finite)))

def isContext : PyVal → Bool
  | .none => true
  | value => isDict value

-- what becomes of a manifest with the right keys, test by test in the order of the code
def ruling (d : PyDict) : Check :=
  .all
    [iterable (d.getD "allowed_actions"),
      mappingOfIterables (d.getD "required_fields"),
      iterable (d.getD "required_context"),
      mappingOfIterables (fieldOr d "required_mesh_sources" (.dict [])),
      iterable (fieldOr d "mesh_required_actions" (.tuple [])),
      iterable (fieldOr d "mesh_required_environments" (.tuple [])),
      .orReject (d.getD "policy_id").truthy,
      aboveZero (d.getD "max_request_bytes"),
      aboveZero (d.getD "max_ttl_seconds"),
      allNames (itemsIn (d.getD "allowed_actions")),
      ordered (itemsIn (d.getD "allowed_actions")),
      ordered (itemsIn (d.getD "required_context")),
      allNames (itemsIn (d.getD "required_context")),
      .all ((tuplesIn (d.getD "required_fields")).map (entry allNames)),
      mapping (d.getD "exact_fields"),
      .all ((entriesIn (d.getD "exact_fields")).map (entry (fun v => .orReject (isDict v)))),
      .orReject (isContext (d.getD "exact_context")),
      mapping (fieldOr d "required_approvals" (.dict [])),
      .all ((entriesIn (fieldOr d "required_approvals" (.dict []))).map (entry natural)),
      mapping (fieldOr d "max_numeric_fields" (.dict [])),
      .all ((entriesIn (fieldOr d "max_numeric_fields" (.dict []))).map (entry limits)),
      mapping (fieldOr d "required_mesh_inputs" (.dict [])),
      .all ((entriesIn (fieldOr d "required_mesh_inputs" (.dict []))).map (entry natural)),
      .all ((tuplesIn (fieldOr d "required_mesh_sources" (.dict []))).map (entry allNames)),
      allNames (itemsIn (fieldOr d "mesh_required_actions" (.tuple []))),
      ordered (itemsIn (fieldOr d "mesh_required_actions" (.tuple []))),
      allNames (itemsIn (fieldOr d "mesh_required_environments" (.tuple []))),
      ordered (itemsIn (fieldOr d "mesh_required_environments" (.tuple [])))]

def held (d : PyDict) : RawPolicy where
  policyId := d.getD "policy_id"
  allowedActions := itemsIn (d.getD "allowed_actions")
  requiredFields := tuplesIn (d.getD "required_fields")
  exactFields := entriesIn (d.getD "exact_fields")
  requiredContext := itemsIn (d.getD "required_context")
  exactContext := entriesIn (d.getD "exact_context")
  maxRequestBytes := d.getD "max_request_bytes"
  maxTtlSeconds := d.getD "max_ttl_seconds"
  requiredApprovals := entriesIn (fieldOr d "required_approvals" (.dict []))
  maxNumericFields := entriesIn (fieldOr d "max_numeric_fields" (.dict []))
  requiredMeshInputs := entriesIn (fieldOr d "required_mesh_inputs" (.dict []))
  requiredMeshSources := tuplesIn (fieldOr d "required_mesh_sources" (.dict []))
  meshRequiredActions := itemsIn (fieldOr d "mesh_required_actions" (.tuple []))
  meshRequiredEnvironments := itemsIn (fieldOr d "mesh_required_environments" (.tuple []))

end Ruling

section Ending

abbrev Stops {α : Type} (r : Result α) (value : α) (c : Check) : Prop :=
  Ends Exc.isValueError r value c

end Ending

section Statement

def emptyDicts : List String :=
  ["required_approvals", "max_numeric_fields", "required_mesh_inputs", "required_mesh_sources"]

def emptyLists : List String := ["mesh_required_actions", "mesh_required_environments"]

-- an optional field that is empty, and so may be left out
def isOmittable : PyKey × PyVal → Bool
  | (.str name, .dict []) => (emptyDicts.map lit).contains name
  | (.str name, .list []) => (emptyLists.map lit).contains name
  | _ => false

-- every list is a list, and the context an object
structure Uncoerced (d : PyDict) : Prop where
  exactContext : isDict (d.getD "exact_context") = true
  lists : ∀ name ∈ ["allowed_actions", "required_context", "mesh_required_actions",
    "mesh_required_environments"], ∀ v, d.get (lit name) = some v → isList v = true
  listsUnder : ∀ name ∈ ["required_fields", "required_mesh_sources"],
    ∀ v, d.get (lit name) = some v → ∀ m ∈ entriesIn v, isList m.2 = true

-- what the tests leave open
structure Plain (d : PyDict) : Prop extends Uncoerced d where
  policyId : (d.getD "policy_id").isStr = true
  maxRequestBytes : isInt (d.getD "max_request_bytes") = true
  maxTtlSeconds : isInt (d.getD "max_ttl_seconds") = true
  distinct : ∀ ss : List Str, d.getD "allowed_actions" = .list (ss.map .str) → ss.Nodup

end Statement

section Passing

variable {d : PyDict}

end Passing

section Kept

variable {d : PyDict}

end Kept

section Sorted

variable {e : PyDict}

end Sorted

section Writing

variable {d : PyDict}

end Writing

section Written

variable {d : PyDict}

def Kept (d : PyDict) (name : Str) : Prop :=
  Option.Rel PyVal.Alike
    (((held d).toDict.get name).filter (fun v => !isOmittable (.str name, v)))
    ((d.get name).filter (fun v => !isOmittable (.str name, v)))

section Entries

variable (hd : (PyVal.dict d).IsJson) (hall : d.hasAll required = true)

include hd hall

omit hall

end Entries

end Written

section Accepted

variable {d : PyDict}

end Accepted

section Split

def manifest (allowedActions : PyVal) : PyDict :=
  PyDict.ofFields
    [("policy_id", .str "p"), ("allowed_actions", allowedActions), ("required_fields", .dict []),
      ("exact_fields", .dict []), ("required_context", .list []), ("exact_context", .dict []),
      ("max_request_bytes", .int 1024), ("max_ttl_seconds", .int 60)]

end Split

end RawPolicy

end GovernedAutonomy
