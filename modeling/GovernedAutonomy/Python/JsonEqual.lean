import GovernedAutonomy.Python.Congruence

namespace Python

namespace PyVal

mutual
-- equality of two JSON values: a boolean is no number, and an integer may equal a float
def jsonEq : PyVal → PyVal → Bool
  | .none, .none => true
  | .bool b, .bool c => decide (b = c)
  | .int i, .int j => decide (i = j)
  | .int i, .float f => numEq (.int i) (.float f)
  | .float f, .int i => numEq (.float f) (.int i)
  | .float f, .float g => numEq (.float f) (.float g)
  | .str s, .str t => decide (s = t)
  | .list xs, .list ys => jsonEqItems xs ys
  | .dict ms, .dict ns => decide (ms.length = ns.length) && jsonEqMembers ms ns
  | _, _ => false

def jsonEqItems : List PyVal → List PyVal → Bool
  | [], [] => true
  | x :: xs, y :: ys => jsonEq x y && jsonEqItems xs ys
  | _, _ => false

def jsonEqMembers : List (PyKey × PyVal) → List (PyKey × PyVal) → Bool
  | [], _ => true
  | (k, v) :: ms, ns =>
      (match Dict.get ns k with
        | some w => jsonEq v w
        | Option.none => false) && jsonEqMembers ms ns
end

end PyVal

end Python
