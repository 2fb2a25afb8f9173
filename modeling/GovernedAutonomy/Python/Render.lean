import GovernedAutonomy.Python.Float

namespace Python

def maxStrDigits : Nat := 4300

inductive Json where
  | null
  | bool (b : Bool)
  | int (i : ℤ)
  | float (f : PyFloat)
  | str (s : Str)
  | arr (xs : List Json)
  | obj (ms : List (Str × Json))

structure Style where
  ascii : Bool
  spaced : Bool
deriving DecidableEq, Repr

def Style.comma (sty : Style) : Str := if sty.spaced then lit ", " else lit ","

def Style.colon (sty : Style) : Str := if sty.spaced then lit ": " else lit ":"

def digits (n : Nat) : Str := (Nat.toDigits 10 n).map ofChar

def intRepr : ℤ → Str
  | .ofNat n => digits n
  | .negSucc n => lit "-" ++ digits (n + 1)

def exponentRepr (e : ℤ) : Str :=
  lit "e" ++ (if e < 0 then lit "-" else lit "+") ++
    (if e.natAbs < 10 then lit "0" else []) ++ digits e.natAbs

def magnitudeRepr (m : Nat) (e : ℤ) : Str :=
  let ds := digits m
  let point := ds.length + e
  if point ≤ -4 ∨ 16 < point then
    ds.take 1 ++ (if ds.length ≤ 1 then [] else lit "." ++ ds.drop 1) ++ exponentRepr (point - 1)
  else if point ≤ 0 then lit "0." ++ List.replicate (-point).toNat (ofChar '0') ++ ds
  else if ds.length ≤ point then
    ds ++ List.replicate (point - ds.length).toNat (ofChar '0') ++ lit ".0"
  else ds.take point.toNat ++ lit "." ++ ds.drop point.toNat

def floatText : PyFloat → Str
  | .nan => lit "NaN"
  | .inf neg => if neg then lit "-Infinity" else lit "Infinity"
  | .finite neg m => (if neg then lit "-" else []) ++ magnitudeRepr m.digits m.exp

def hexDigit (n : Nat) : CodePoint := ofChar (Nat.digitChar (n % 16))

def unicodeEscape (n : Nat) : Str :=
  lit "\\u" ++ [hexDigit (n / 4096), hexDigit (n / 256), hexDigit (n / 16), hexDigit n]

def highUnit (n : Nat) : Nat := 0xD800 + (n - 0x10000) / 0x400

def lowUnit (n : Nat) : Nat := 0xDC00 + (n - 0x10000) % 0x400

def escapePoint (ascii : Bool) (p : CodePoint) : Str :=
  if p = ofChar '"' then lit "\\\""
  else if p = ofChar '\\' then lit "\\\\"
  else if p = ofChar '\n' then lit "\\n"
  else if p = ofChar '\r' then lit "\\r"
  else if p = ofChar '\t' then lit "\\t"
  else if p.val = 0x0C then lit "\\f"
  else if p.val = 0x08 then lit "\\b"
  else if p.val < 0x20 then unicodeEscape p.val
  else if ascii ∧ 0x7E < p.val then
    if p.val < 0x10000 then unicodeEscape p.val
    else unicodeEscape (highUnit p.val) ++ unicodeEscape (lowUnit p.val)
  else [p]

def quote (ascii : Bool) (s : Str) : Str := lit "\"" ++ s.flatMap (escapePoint ascii) ++ lit "\""

namespace Json

variable (sty : Style)

mutual
def render : Json → Str
  | .null => lit "null"
  | .bool b => if b then lit "true" else lit "false"
  | .int i => intRepr i
  | .float f => floatText f
  | .str s => quote sty.ascii s
  | .arr [] => lit "[]"
  | .arr (x :: xs) => lit "[" ++ render x ++ renderItems xs ++ lit "]"
  | .obj [] => lit "\x7b\x7d"
  | .obj ((k, v) :: ms) =>
      lit "\x7b" ++ quote sty.ascii k ++ sty.colon ++ render v ++ renderMembers ms ++ lit "\x7d"

def renderItems : List Json → Str
  | [] => []
  | x :: xs => sty.comma ++ render x ++ renderItems xs

def renderMembers : List (Str × Json) → Str
  | [] => []
  | (k, v) :: ms => sty.comma ++ quote sty.ascii k ++ sty.colon ++ render v ++ renderMembers ms
end

end Json

end Python
