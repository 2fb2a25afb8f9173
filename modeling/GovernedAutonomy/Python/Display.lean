import GovernedAutonomy.Python.Dumps

namespace Python

def hexPad : Nat → Nat → Str
  | 0, _ => []
  | width + 1, n => hexPad width (n / 16) ++ [hexDigit n]

namespace Interpreter

variable (I : Interpreter)

def reprPoint (mark p : CodePoint) : Str :=
  if p = mark ∨ p = ofChar '\\' then [ofChar '\\', p]
  else if p = ofChar '\t' then lit "\\t"
  else if p = ofChar '\n' then lit "\\n"
  else if p = ofChar '\r' then lit "\\r"
  else if p.val < 0x20 ∨ p.val = 0x7F then lit "\\x" ++ hexPad 2 p.val
  else if p.val < 0x7F ∨ I.printable p then [p]
  else if p.val ≤ 0xFF then lit "\\x" ++ hexPad 2 p.val
  else if p.val ≤ 0xFFFF then lit "\\u" ++ hexPad 4 p.val
  else lit "\\U" ++ hexPad 8 p.val

def reprStr (s : Str) : Str :=
  let mark := if ofChar '\'' ∈ s ∧ ofChar '"' ∉ s then ofChar '"' else ofChar '\''
  [mark] ++ s.flatMap (I.reprPoint mark) ++ [mark]

def reprFloat : PyFloat → Str
  | .nan => lit "nan"
  | .inf neg => if neg then lit "-inf" else lit "inf"
  | .finite neg m => (if neg then lit "-" else []) ++ magnitudeRepr m.digits m.exp

def reprBool (b : Bool) : Str := if b then lit "True" else lit "False"

def reprKey : PyKey → Result Str
  | .str s => .ok (I.reprStr s)
  | .int i => intText i
  | .bool b => .ok (reprBool b)
  | .float f => .ok (reprFloat f)
  | .none => .ok (lit "None")
  | .other id => I.objectText id

mutual
def repr : PyVal → Result Str
  | .none => .ok (lit "None")
  | .bool b => .ok (reprBool b)
  | .int i => intText i
  | .float f => .ok (reprFloat f)
  | .str s => .ok (I.reprStr s)
  | .list xs => do
      let body ← reprItems xs
      .ok (lit "[" ++ body ++ lit "]")
  | .tuple xs => do
      let body ← reprItems xs
      .ok (lit "(" ++ body ++ (if xs.length = 1 then lit ",)" else lit ")"))
  | .dict ms => do
      let body ← reprMembers ms
      .ok (lit "\x7b" ++ body ++ lit "\x7d")
  | .object id => I.objectText id
  | .cycle => .ok (lit "...")

def reprItems : List PyVal → Result Str
  | [] => .ok []
  | x :: xs => do
      let head ← repr x
      let rest ← reprItems xs
      .ok (head ++ (if xs.isEmpty then [] else lit ", " ++ rest))

def reprMembers : List (PyKey × PyVal) → Result Str
  | [] => .ok []
  | (k, v) :: ms => do
      let key ← I.reprKey k
      let value ← repr v
      let rest ← reprMembers ms
      .ok (key ++ lit ": " ++ value ++ (if ms.isEmpty then [] else lit ", " ++ rest))
end

def str : PyVal → Result Str
  | .str s => .ok s
  | v => I.repr v

end Interpreter

end Python
