import GovernedAutonomy.Python.Exception
import GovernedAutonomy.Python.Dumps
import GovernedAutonomy.Python.Parse
import Mathlib.Data.List.DropRight

namespace Python

-- str.isspace, \s
def isWhitespace (p : CodePoint) : Bool :=
  decide ((9 ≤ p.val ∧ p.val ≤ 13) ∨ (0x1C ≤ p.val ∧ p.val ≤ 0x20) ∨ p.val = 0x85 ∨
    p.val = 0xA0 ∨ p.val = 0x1680 ∨ (0x2000 ≤ p.val ∧ p.val ≤ 0x200A) ∨ p.val = 0x2028 ∨
    p.val = 0x2029 ∨ p.val = 0x202F ∨ p.val = 0x205F ∨ p.val = 0x3000)

def stripped (s : Str) : Str := (s.dropWhile isWhitespace).rdropWhile isWhitespace

-- str.lower on the letters of ASCII
def lowerAscii (p : CodePoint) : CodePoint :=
  if 65 ≤ p.val ∧ p.val ≤ 90 then Fin.ofNat 0x110000 (p.val + 32) else p

-- how re compares letters under IGNORECASE, as far as the letters of ASCII go
def foldCase (p : CodePoint) : CodePoint :=
  if 65 ≤ p.val ∧ p.val ≤ 90 then lowerAscii p
  else if p.val = 0x130 ∨ p.val = 0x131 then ofChar 'i'
  else if p.val = 0x17F then ofChar 's'
  else if p.val = 0x212A then ofChar 'k'
  else p

def sameFolded (c p : CodePoint) : Bool := foldCase p = c

-- [A-Za-z0-9_] under IGNORECASE
def isWordChar (p : CodePoint) : Bool :=
  decide ((97 ≤ (foldCase p).val ∧ (foldCase p).val ≤ 122) ∨ (48 ≤ p.val ∧ p.val ≤ 57) ∨
    p.val = 95)

-- the decimal digits of Unicode, of which ASCII has ten, and its other digits
structure DecimalTable where
  value? : CodePoint → Option Nat
  special : CodePoint → Bool
  ascii : ∀ p : CodePoint, p.val < 128 → value? p = if isDigit p then some (p.val - 48) else none
  special_ascii : ∀ p : CodePoint, p.val < 128 → special p = false

variable (T : DecimalTable)

def DecimalTable.isDecimal (p : CodePoint) : Bool := (T.value? p).isSome

-- str.isdigit
def DecimalTable.isdigit (s : Str) : Bool :=
  !s.isEmpty && s.all (fun p => T.isDecimal p || T.special p)

def DecimalTable.number (s : Str) : Nat := s.foldl (fun n p => 10 * n + (T.value? p).getD 0) 0

def badInt : Exc := .valueError (lit "invalid literal for int() with base 10")

def signOf : Str → Bool × Str
  | [] => (false, [])
  | c :: s =>
      if c = ofChar '-' then (true, s) else if c = ofChar '+' then (false, s) else (false, c :: s)

-- int(text)
def intOfText (s : Str) : Result ℤ :=
  let (neg, body) := signOf (stripped s)
  let runs := body.splitOn (ofChar '_')
  if runs.any (fun run => run.isEmpty || run.any (fun p => !T.isDecimal p)) then .error badInt
  else if maxStrDigits < runs.flatten.length then .error intTooLong
  else .ok (if neg then -(T.number runs.flatten) else T.number runs.flatten)

-- int(value)
def intOf : PyVal → Result ℤ
  | .int i => .ok i
  | .bool b => .ok (boolInt b)
  | .float (.finite neg m) => .ok (if neg then -⌊m.value⌋ else ⌊m.value⌋)
  | .float .nan => .error (.valueError (lit "cannot convert float NaN to integer"))
  | .float (.inf _) => .error (.builtin .overflowError)
  | .str s => intOfText T s
  | _ => .error (.builtin .typeError)

section Ascii

def asciiDecimals : DecimalTable where
  value? p := if isDigit p then some (p.val - 48) else none
  special _ := false
  ascii _ _ := rfl
  special_ascii _ _ := rfl

variable {T : DecimalTable} {p : CodePoint} {s : Str}

theorem ascii_of_isDigit (h : isDigit p = true) : p.val < 128 := by
  rw [isDigit, decide_eq_true_iff] at h
  omega

theorem isDecimal_of_isDigit (h : isDigit p = true) : T.isDecimal p = true := by
  rw [DecimalTable.isDecimal, T.ascii p (ascii_of_isDigit h), if_pos h]
  rfl

theorem isDecimal_ascii (h : p.val < 128) : T.isDecimal p = isDigit p := by
  rw [DecimalTable.isDecimal, T.ascii p h]
  cases isDigit p <;> rfl

theorem number_eq_digitsValue (h : ∀ p ∈ s, isDigit p = true) : T.number s = digitsValue s := by
  have hfold : ∀ n : Nat, s.foldl (fun n p => 10 * n + (T.value? p).getD 0) n =
      s.foldl (fun n p => 10 * n + (p.val - 48)) n := by
    induction s with
    | nil => exact fun _ => rfl
    | cons p s ih =>
        intro n
        obtain ⟨hp, hs⟩ := List.forall_mem_cons.mp h
        rw [List.foldl_cons, List.foldl_cons, T.ascii p (ascii_of_isDigit hp), if_pos hp, ih hs]
        rfl
  exact hfold 0

end Ascii

end Python
