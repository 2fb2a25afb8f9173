import GovernedAutonomy.Python.Text

namespace Python

namespace Pattern

def inRange (first last : Char) (p : CodePoint) : Bool :=
  decide (first.toNat ≤ p.val ∧ p.val ≤ last.toNat)

def isLetter (p : CodePoint) : Bool := inRange 'a' 'z' p || inRange 'A' 'Z' p

def isAsciiDigit (p : CodePoint) : Bool := inRange '0' '9' p

def isOneOf (text : String) (p : CodePoint) : Bool := (lit text).contains p

-- what a pattern that ends in $ reads: re lets one newline follow the end
def chomp (s : Str) : Str :=
  match s.getLast? with
  | some p => if p = ofChar '\n' then s.dropLast else s
  | none => s

-- ^[first][rest]*$
def word (first rest : CodePoint → Bool) (s : Str) : Bool :=
  match chomp s with
  | [] => false
  | p :: ps => first p && ps.all rest

end Pattern

end Python
