import GovernedAutonomy.Python.Dict
import GovernedAutonomy.Python.Render

namespace Python

inductive PyKey where
  | str (s : Str)
  | int (i : ℤ)
  | bool (b : Bool)
  | float (f : PyFloat)
  | none
  | other (id : Nat)
deriving DecidableEq

def intValue (i : ℤ) : PyFloat.Extended := (((i : ℚ) : WithTop ℚ) : PyFloat.Extended)

def boolInt (b : Bool) : ℤ := if b then 1 else 0

namespace PyKey

inductive Class where
  | str (s : Str)
  | num (x : PyFloat.Extended)
  | none
  | other (id : Nat)
deriving DecidableEq

-- equal numbers are one key of a dict, and a NaN equals nothing
def classOf : PyKey → Option Class
  | .str s => some (.str s)
  | .int i => some (.num (intValue i))
  | .bool b => some (.num (intValue (boolInt b)))
  | .float f => f.value?.map .num
  | .none => some .none
  | .other id => some (.other id)

end PyKey

instance : Keyed PyKey where
  same a b := a.classOf.isSome && decide (a.classOf = b.classOf)
  same_symm h := by
    simp only [Bool.and_eq_true, decide_eq_true_eq] at h ⊢
    exact ⟨h.2 ▸ h.1, h.2.symm⟩
  same_trans h h' := by
    simp only [Bool.and_eq_true, decide_eq_true_eq] at h h' ⊢
    exact ⟨h.1, h.2.trans h'.2⟩

@[simp]
theorem same_str (a b : Str) : Keyed.same (PyKey.str a) (PyKey.str b) = decide (a = b) := by
  simp [Keyed.same, PyKey.classOf]

theorem same_str_right {a : PyKey} {b : Str} : Keyed.same a (.str b) = true ↔ a = .str b := by
  cases a with
  | float f => cases hf : f.value? <;> simp [Keyed.same, PyKey.classOf, hf]
  | _ => simp [Keyed.same, PyKey.classOf]

theorem mem_of_get_str {V : Type*} {d : List (PyKey × V)} {s : Str} {v : V}
    (h : Dict.get d (.str s) = some v) : (.str s, v) ∈ d := by
  obtain ⟨k, hmem, hk⟩ := Dict.get_eq_some h
  exact same_str_right.mp hk ▸ hmem

inductive PyVal where
  | none
  | bool (b : Bool)
  | int (i : ℤ)
  | float (f : PyFloat)
  | str (s : Str)
  | list (xs : List PyVal)
  | tuple (xs : List PyVal)
  | dict (ms : List (PyKey × PyVal))
  -- a value json does not know, and a reference back to an enclosing container
  | object (id : Nat)
  | cycle

abbrev PyDict := List (PyKey × PyVal)

namespace PyVal

def number? : PyVal → Option PyFloat.Extended
  | .int i => some (intValue i)
  | .bool b => some (intValue (boolInt b))
  | .float f => f.value?
  | _ => Option.none

def numEq (v w : PyVal) : Bool := v.number?.isSome && decide (v.number? = w.number?)

mutual
def eq : PyVal → PyVal → Bool
  | .none, .none => true
  | .str s, .str t => decide (s = t)
  | .list xs, .list ys => eqItems xs ys
  | .tuple xs, .tuple ys => eqItems xs ys
  | .dict ms, .dict ns => decide (ms.length = ns.length) && eqMembers ms ns
  | .object i, .object j => decide (i = j)
  | .int i, w => numEq (.int i) w
  | .bool b, w => numEq (.bool b) w
  | .float f, w => numEq (.float f) w
  | _, _ => false

def eqItems : List PyVal → List PyVal → Bool
  | [], [] => true
  | x :: xs, y :: ys => eq x y && eqItems xs ys
  | _, _ => false

def eqMembers : List (PyKey × PyVal) → List (PyKey × PyVal) → Bool
  | [], _ => true
  | (k, v) :: ms, ns =>
      (match Dict.get ns k with
        | some w => eq v w
        | Option.none => false) && eqMembers ms ns
end

theorem eq_str_right {v : PyVal} {s : Str} : v.eq (.str s) = true ↔ v = .str s := by
  cases v with
  | float f => cases hf : f.value? <;> simp [eq, numEq, number?, hf]
  | _ => simp [eq, numEq, number?]

theorem eq_str_left {v : PyVal} {s : Str} : (PyVal.str s).eq v = true ↔ v = .str s := by
  cases v <;> simp [eq, eq_comm]

def truthy : PyVal → Bool
  | .none => false
  | .bool b => b
  | .int i => decide (i ≠ 0)
  | .float f => decide (f.value? ≠ some (intValue 0))
  | .str s => decide (s ≠ [])
  | .list xs => !xs.isEmpty
  | .tuple xs => !xs.isEmpty
  | .dict ms => !ms.isEmpty
  | .object _ => true
  | .cycle => true

mutual
def hashable : PyVal → Bool
  | .list _ => false
  | .dict _ => false
  | .cycle => false
  | .tuple xs => hashableItems xs
  | _ => true

def hashableItems : List PyVal → Bool
  | [] => true
  | x :: xs => hashable x && hashableItems xs
end

end PyVal

namespace PyDict

def get (d : PyDict) (name : Str) : Option PyVal := Dict.get d (.str name)

def set (d : PyDict) (name : Str) (v : PyVal) : PyDict := Dict.set d (.str name) v

def has (d : PyDict) (name : Str) : Bool := (get d name).isSome

-- d.get(name), where an absent entry reads as None
def getD (d : PyDict) (name : Str) : PyVal := (get d name).getD .none

def hasOnly (d : PyDict) (allowed : List String) : Bool :=
  d.all (fun m => allowed.any (fun k => Keyed.same m.1 (.str (lit k))))

def hasAll (d : PyDict) (required : List String) : Bool := required.all (fun k => d.has (lit k))

def ofFields (fields : List (String × PyVal)) : PyDict :=
  fields.map (fun m => (.str (lit m.1), m.2))

theorem get_set (d : PyDict) (k k' : Str) (v : PyVal) :
    get (set d k v) k' = if k = k' then some v else get d k' := by
  rw [get, set, Dict.get_set, same_str]
  simp only [decide_eq_true_eq]
  rfl

theorem get_cons_str (k k' : Str) (v : PyVal) (d : PyDict) :
    get ((.str k, v) :: d) k' = if k = k' then some v else get d k' := by
  rw [get, Dict.get_cons, same_str]
  simp only [decide_eq_true_eq]
  rfl

@[simp]
theorem get_ofFields_nil (k : Str) : get (ofFields []) k = none := rfl

@[simp]
theorem get_ofFields_cons (name key : String) (v : PyVal) (fields : List (String × PyVal)) :
    get (ofFields ((name, v) :: fields)) (lit key) =
      if name = key then some v else get (ofFields fields) (lit key) := by
  rw [ofFields, List.map_cons, ← ofFields, get_cons_str]
  simp only [lit_inj]

theorem getD_of_get {d : PyDict} {k : Str} {v : PyVal} (h : d.get k = some v) : d.getD k = v := by
  rw [getD, h, Option.getD_some]

theorem getD_of_get_none {d : PyDict} {k : Str} (h : d.get k = none) : d.getD k = .none := by
  rw [getD, h, Option.getD_none]

theorem get_update (d e : PyDict) (h : Dict.Distinct e) (k : Str) :
    get (Dict.update d e) k = (get e k).or (get d k) :=
  Dict.get_update_of_distinct d h (.str k)

end PyDict

end Python
