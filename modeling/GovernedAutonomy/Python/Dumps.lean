import GovernedAutonomy.Python.Exception
import GovernedAutonomy.Python.Parse
import Mathlib.Data.List.Sort

namespace Python

structure Interpreter where
  recursionLimit : Nat
  copyLimit : Nat
  printable : CodePoint → Bool
  objectText : Nat → Result Str

def intTooLong : Exc :=
  .valueError (lit "Exceeds the limit (4300 digits) for integer string conversion")

def circular : Exc := .valueError (lit "Circular reference detected")

def intText (i : ℤ) : Result Str :=
  if maxStrDigits < (digits i.natAbs).length then .error intTooLong else .ok (intRepr i)

namespace PyKey

def number? : PyKey → Option PyFloat.Extended
  | .int i => some (intValue i)
  | .bool b => some (intValue (boolInt b))
  | .float f => f.value?
  | _ => Option.none

def isStr : PyKey → Bool
  | .str _ => true
  | _ => false

def isNumber : PyKey → Bool
  | .int _ => true
  | .bool _ => true
  | .float _ => true
  | _ => false

def lt : PyKey → PyKey → Bool
  | .str s, .str t => decide (s < t)
  | a, b =>
      match a.number?, b.number? with
      | some x, some y => decide (x < y)
      | _, _ => false

def text : PyKey → Result Str
  | .str s => .ok s
  | .int i => intText i
  | .bool b => .ok (if b then lit "true" else lit "false")
  | .float f => .ok (floatText f)
  | .none => .ok (lit "null")
  | .other _ => .error (.builtin .typeError)

end PyKey

section Sorting

variable {α : Type}

def keyLe (a b : PyKey × α) : Prop := b.1.lt a.1 = false

instance (a b : PyKey × α) : Decidable (keyLe a b) := inferInstanceAs (Decidable (_ = _))

-- sorting raises when it has to compare keys of different types
def sortEntries (es : List (PyKey × α)) : Result (List (PyKey × α)) :=
  if es.length ≤ 1 ∨ es.all (fun e => e.1.isStr) ∨ es.all (fun e => e.1.isNumber) then
    .ok (es.insertionSort keyLe)
  else .error (.builtin .typeError)

def collect : List (PyKey × Result α) → Result (List (Str × α))
  | [] => .ok []
  | (k, r) :: es => do
      let t ← k.text
      let j ← r
      let rest ← collect es
      .ok ((t, j) :: rest)

end Sorting

namespace PyVal

mutual
def toTree : Nat → PyVal → Result Json
  | _, .none => .ok .null
  | _, .bool b => .ok (.bool b)
  | _, .int i => do
      let _ ← intText i
      .ok (.int i)
  | _, .float f => .ok (.float f)
  | _, .str s => .ok (.str s)
  | depth, .list xs =>
      match depth with
      | 0 => .error (.builtin .recursionError)
      | depth + 1 => do
          let js ← toTreeItems depth xs
          .ok (.arr js)
  | depth, .tuple xs =>
      match depth with
      | 0 => .error (.builtin .recursionError)
      | depth + 1 => do
          let js ← toTreeItems depth xs
          .ok (.arr js)
  | depth, .dict ms =>
      match depth with
      | 0 => .error (.builtin .recursionError)
      | depth + 1 => do
          let es ← sortEntries (toTreeEntries depth ms)
          let js ← collect es
          .ok (.obj js)
  | _, .object _ => .error (.builtin .typeError)
  | depth, .cycle =>
      match depth with
      | 0 => .error (.builtin .recursionError)
      | _ + 1 => .error circular

def toTreeItems : Nat → List PyVal → Result (List Json)
  | _, [] => .ok []
  | depth, x :: xs => do
      let j ← toTree depth x
      let js ← toTreeItems depth xs
      .ok (j :: js)

def toTreeEntries : Nat → List (PyKey × PyVal) → List (PyKey × Result Json)
  | _, [] => []
  | depth, (k, v) :: ms => (k, toTree depth v) :: toTreeEntries depth ms
end

mutual
def ofTree : Json → PyVal
  | .null => .none
  | .bool b => .bool b
  | .int i => .int i
  | .float f => .float f
  | .str s => .str s
  | .arr xs => .list (ofTreeItems xs)
  | .obj ms => .dict (Dict.update [] (ofTreeMembers ms))

def ofTreeItems : List Json → List PyVal
  | [] => []
  | x :: xs => ofTree x :: ofTreeItems xs

def ofTreeMembers : List (Str × Json) → List (PyKey × PyVal)
  | [] => []
  | (k, v) :: ms => (.str k, ofTree v) :: ofTreeMembers ms
end

end PyVal

namespace Interpreter

variable (I : Interpreter)

-- json.dumps with sort_keys=True
def dumps (sty : Style) (v : PyVal) : Result Str := do
  let t ← v.toTree I.recursionLimit
  .ok (t.render sty)

def loads (s : Str) : Result PyVal :=
  match parseDocument I.recursionLimit s with
  | .ok t => .ok (.ofTree t)
  | .error .malformed => .error (.builtin .jsonDecodeError)
  | .error .intTooLong => .error intTooLong
  | .error .tooDeep => .error (.builtin .recursionError)

end Interpreter

end Python
