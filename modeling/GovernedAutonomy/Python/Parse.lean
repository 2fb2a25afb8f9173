import GovernedAutonomy.Python.Render

namespace Python

inductive ParseError where
  | malformed
  | intTooLong
  | tooDeep
deriving DecidableEq, Repr

def isSpace (p : CodePoint) : Bool :=
  p = ofChar ' ' || p = ofChar '\t' || p = ofChar '\n' || p = ofChar '\r'

def skipSpace (s : Str) : Str := s.dropWhile isSpace

def isDigit (p : CodePoint) : Bool := decide (48 ≤ p.val ∧ p.val ≤ 57)

def digitsValue (s : Str) : Nat := s.foldl (fun n p => 10 * n + (p.val - 48)) 0

def hexValue? (p : CodePoint) : Option Nat :=
  if 48 ≤ p.val ∧ p.val ≤ 57 then some (p.val - 48)
  else if 97 ≤ p.val ∧ p.val ≤ 102 then some (p.val - 87)
  else if 65 ≤ p.val ∧ p.val ≤ 70 then some (p.val - 55)
  else none

def hexUnit? (a b c d : CodePoint) : Option CodePoint := do
  let x ← hexValue? a
  let y ← hexValue? b
  let z ← hexValue? c
  let w ← hexValue? d
  some (Fin.ofNat 0x110000 (4096 * x + 256 * y + 16 * z + w))

def shortEscape? (p : CodePoint) : Option CodePoint :=
  if p = ofChar '"' ∨ p = ofChar '\\' ∨ p = ofChar '/' then some p
  else if p = ofChar 'n' then some (ofChar '\n')
  else if p = ofChar 'r' then some (ofChar '\r')
  else if p = ofChar 't' then some (ofChar '\t')
  else if p = ofChar 'f' then some 0x0C
  else if p = ofChar 'b' then some 0x08
  else none

-- the units of a string up to its closing quote, each marked when a \u escape wrote it
def scanUnits : Str → Option (List (CodePoint × Bool) × Str)
  | [] => none
  | p :: rest =>
      if p = ofChar '"' then some ([], rest)
      else if p = ofChar '\\' then
        match rest with
        | [] => none
        | q :: rest' =>
            if q = ofChar 'u' then
              match rest' with
              | a :: b :: c :: d :: rest'' => do
                  let n ← hexUnit? a b c d
                  let (us, t) ← scanUnits rest''
                  some ((n, true) :: us, t)
              | _ => none
            else do
              let n ← shortEscape? q
              let (us, t) ← scanUnits rest'
              some ((n, false) :: us, t)
      else if p.val < 0x20 then none
      else do
        let (us, t) ← scanUnits rest
        some ((p, false) :: us, t)

def isHigh (p : CodePoint) : Bool := decide (0xD800 ≤ p.val ∧ p.val < 0xDC00)

def isLow (p : CodePoint) : Bool := decide (0xDC00 ≤ p.val ∧ p.val < 0xE000)

def joinUnits (h l : CodePoint) : CodePoint :=
  Fin.ofNat 0x110000 (0x10000 + (h.val - 0xD800) * 0x400 + (l.val - 0xDC00))

def joinPairs : List (CodePoint × Bool) → Str
  | [] => []
  | [(p, _)] => [p]
  | (h, a) :: (l, b) :: us =>
      if a && b && isHigh h && isLow l then joinUnits h l :: joinPairs us
      else h :: joinPairs ((l, b) :: us)

def scanString (s : Str) : Except ParseError (Str × Str) :=
  match scanUnits s with
  | some (us, t) => .ok (joinPairs us, t)
  | none => .error .malformed

def takeSign (minus : CodePoint) : Str → Bool × Str
  | p :: rest => if p = minus then (true, rest) else (false, p :: rest)
  | [] => (false, [])

def takeInteger : Str → Option (Str × Str)
  | [] => none
  | p :: rest =>
      if p = ofChar '0' then some ([p], rest)
      else if isDigit p then some ((p :: rest).takeWhile isDigit, (p :: rest).dropWhile isDigit)
      else none

def takeFraction : Str → Str × Str
  | [] => ([], [])
  | p :: rest =>
      if p = ofChar '.' ∧ rest.takeWhile isDigit ≠ [] then
        (rest.takeWhile isDigit, rest.dropWhile isDigit)
      else ([], p :: rest)

def takeExponent : Str → Option ℤ × Str
  | [] => (none, [])
  | p :: rest =>
      if p = ofChar 'e' ∨ p = ofChar 'E' then
        let (neg, unsigned) := takeSign (ofChar '-') rest
        let body := if neg then unsigned else (takeSign (ofChar '+') rest).2
        if body.takeWhile isDigit ≠ [] then
          let n : ℤ := digitsValue (body.takeWhile isDigit)
          (some (if neg then -n else n), body.dropWhile isDigit)
        else (none, p :: rest)
      else (none, p :: rest)

def parseNumber (s : Str) : Except ParseError (Json × Str) :=
  let (neg, body) := takeSign (ofChar '-') s
  match takeInteger body with
  | none => .error .malformed
  | some (whole, r) =>
      let (frac, r') := takeFraction r
      let (exp, r'') := takeExponent r'
      if frac = [] ∧ exp = none then
        if maxStrDigits < whole.length then .error .intTooLong
        else
          let n : ℤ := digitsValue whole
          .ok (.int (if neg then -n else n), r'')
      else
        let q := decimalValue (digitsValue (whole ++ frac)) (exp.getD 0 - frac.length)
        .ok (.float (PyFloat.ofDecimal neg q), r'')

def stripPrefix : Str → Str → Option Str
  | [], s => some s
  | _ :: _, [] => none
  | p :: ps, q :: s => if p = q then stripPrefix ps s else none

def keywords : List (Str × Json) :=
  [(lit "null", .null), (lit "true", .bool true), (lit "false", .bool false),
    (lit "NaN", .float .nan), (lit "Infinity", .float (.inf false)),
    (lit "-Infinity", .float (.inf true))]

def parseScalar (s : Str) : Except ParseError (Json × Str) :=
  match keywords.findSome? (fun w => (stripPrefix w.1 s).map (fun t => (w.2, t))) with
  | some r => .ok r
  | none => parseNumber s

mutual
def parseValue : Nat → Nat → Str → Except ParseError (Json × Str)
  | _, 0, _ => .error .malformed
  | _, _ + 1, [] => .error .malformed
  | depth, fuel + 1, p :: rest =>
      if p = ofChar '"' then do
        let (s, t) ← scanString rest
        .ok (.str s, t)
      else if p = ofChar '[' then
        match depth with
        | 0 => .error .tooDeep
        | depth + 1 =>
            if (skipSpace rest).head? = some (ofChar ']') then .ok (.arr [], (skipSpace rest).tail)
            else do
              let (xs, t) ← parseItems depth fuel (skipSpace rest)
              .ok (.arr xs, t)
      else if p = ofChar '{' then
        match depth with
        | 0 => .error .tooDeep
        | depth + 1 =>
            if (skipSpace rest).head? = some (ofChar '}') then .ok (.obj [], (skipSpace rest).tail)
            else do
              let (ms, t) ← parseMembers depth fuel (skipSpace rest)
              .ok (.obj ms, t)
      else parseScalar (p :: rest)

def parseItems : Nat → Nat → Str → Except ParseError (List Json × Str)
  | _, 0, _ => .error .malformed
  | depth, fuel + 1, s => do
      let (x, t) ← parseValue depth fuel s
      match skipSpace t with
      | [] => .error .malformed
      | q :: u =>
          if q = ofChar ']' then .ok ([x], u)
          else if q = ofChar ',' then do
            let (xs, v) ← parseItems depth fuel (skipSpace u)
            .ok (x :: xs, v)
          else .error .malformed

def parseMembers : Nat → Nat → Str → Except ParseError (List (Str × Json) × Str)
  | _, 0, _ => .error .malformed
  | _, _ + 1, [] => .error .malformed
  | depth, fuel + 1, p :: rest =>
      if p = ofChar '"' then do
        let (k, t) ← scanString rest
        match skipSpace t with
        | [] => .error .malformed
        | c :: u =>
            if c = ofChar ':' then do
              let (x, r) ← parseValue depth fuel (skipSpace u)
              match skipSpace r with
              | [] => .error .malformed
              | q :: w =>
                  if q = ofChar '}' then .ok ([(k, x)], w)
                  else if q = ofChar ',' then do
                    let (ms, v) ← parseMembers depth fuel (skipSpace w)
                    .ok ((k, x) :: ms, v)
                  else .error .malformed
            else .error .malformed
      else .error .malformed
end

-- a character of the text takes two steps at most
def parseDocument (depth : Nat) (s : Str) : Except ParseError Json := do
  let (j, t) ← parseValue depth (2 * s.length + 2) (skipSpace s)
  if skipSpace t = [] then .ok j else .error .malformed

end Python
