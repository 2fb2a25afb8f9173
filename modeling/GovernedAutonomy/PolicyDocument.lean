import GovernedAutonomy.Federation

namespace GovernedAutonomy

open Python

namespace PolicyDocument

def keyVal : PyKey → PyVal
  | .str s => .str s
  | .int i => .int i
  | .bool b => .bool b
  | .float f => .float f
  | .none => .none
  | .other id => .object id

-- tuple(value)
def tupleOf : PyVal → Result (List PyVal)
  | .list xs => .ok xs
  | .tuple xs => .ok xs
  | .str s => .ok (s.map (fun p => .str [p]))
  | .dict d => .ok (d.map (fun m => keyVal m.1))
  | _ => .error (.builtin .typeError)

-- {action: tuple(fields) for action, fields in value.items()}
def tuplesOf (value : PyVal) : Result (List (PyKey × List PyVal)) := do
  let d ← dictOf (.builtin .attributeError) value
  d.mapM (fun m => do
    let xs ← tupleOf m.2
    .ok (m.1, xs))

def nonEmptyStr (message : String) : PyVal → Result Str
  | .str (c :: s) => .ok (c :: s)
  | _ => .error (.valueError (lit message))

def actionName (message : String) : PyKey → Result Str
  | .str (c :: s) => .ok (c :: s)
  | _ => .error (.valueError (lit message))

def itemsOf (value : PyVal) : Result PyDict := dictOf (.builtin .attributeError) value

def declaredInt : PyVal → Result ℤ
  | .int i => .ok i
  | _ => .error (.builtin .typeError)

def required : List String :=
  ["policy_id", "allowed_actions", "required_fields", "exact_fields", "required_context",
    "exact_context", "max_request_bytes", "max_ttl_seconds"]

def optional : List String :=
  ["required_approvals", "max_numeric_fields", "required_mesh_inputs", "required_mesh_sources",
    "mesh_required_actions", "mesh_required_environments"]

def fieldOr (d : PyDict) (name : String) (value : PyVal) : PyVal := (d.get name).getD value

end PolicyDocument

def manifestKeys : List String := ["policy", "version", "issuer_key_id", "signature"]

def manifestVersion : PyVal → Result ℤ
  | .int i => .ok i
  | _ => .error (.valueError (lit "manifest version must be an integer"))

end GovernedAutonomy
