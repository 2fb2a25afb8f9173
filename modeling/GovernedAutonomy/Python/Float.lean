import Mathlib.Algebra.Order.Archimedean.Basic
import Mathlib.Data.Int.Log
import Mathlib.Data.Rat.Floor
import GovernedAutonomy.Python.Text

namespace Python

def roundHalfEven (q : ℚ) : ℤ :=
  if q - ⌊q⌋ < 1 / 2 then ⌊q⌋
  else if 1 / 2 < q - ⌊q⌋ then ⌊q⌋ + 1
  else if ⌊q⌋ % 2 = 0 then ⌊q⌋ else ⌊q⌋ + 1

-- the double nearest to a non-negative rational, none where it overflows
def nearestDouble (q : ℚ) : Option ℚ :=
  if q = 0 then some 0
  else
    let e := max (Int.log 2 q - 52) (-1074)
    let x := (roundHalfEven (q / 2 ^ e) : ℚ) * 2 ^ e
    if x < 2 ^ 1024 then some x else none

def decimalValue (digits : Nat) (exp : ℤ) : ℚ := (digits : ℚ) * 10 ^ exp

def stripZeros : Nat → Nat → ℤ → Nat × ℤ
  | 0, m, e => (m, e)
  | fuel + 1, m, e => if m % 10 = 0 then stripZeros fuel (m / 10) (e + 1) else (m, e)

def decimalCandidates (x : ℚ) (n : Nat) : List (Nat × ℤ) :=
  let e := Int.log 10 x - n
  let m := ⌊x / 10 ^ e⌋.toNat
  if x / 10 ^ e - m ≤ 1 / 2 then [stripZeros 17 m e, stripZeros 17 (m + 1) e]
  else [stripZeros 17 (m + 1) e, stripZeros 17 m e]

-- the shortest decimal that rounds to x, the closest one where several are shortest
def shortestDecimal (x : ℚ) : Nat × ℤ :=
  if x = 0 then (0, 0)
  else
    (((List.range 17).flatMap (decimalCandidates x)).find?
      (fun c => nearestDouble (decimalValue c.1 c.2) = some x)).getD (0, 0)

def isShortest (digits : Nat) (exp : ℤ) : Bool :=
  (nearestDouble (decimalValue digits exp)).any (fun x => shortestDecimal x = (digits, exp))

-- a finite magnitude is named by the digits its repr prints
structure Magnitude where
  digits : Nat
  exp : ℤ
  shortest : isShortest digits exp = true
deriving DecidableEq

def Magnitude.value (m : Magnitude) : ℚ :=
  (nearestDouble (decimalValue m.digits m.exp)).getD 0

inductive PyFloat where
  | nan
  | inf (neg : Bool)
  | finite (neg : Bool) (mag : Magnitude)
deriving DecidableEq

namespace PyFloat

abbrev Extended := WithBot (WithTop ℚ)

def value? : PyFloat → Option Extended
  | .nan => none
  | .inf true => some ⊥
  | .inf false => some ((⊤ : WithTop ℚ) : Extended)
  | .finite neg m => some (((if neg then -m.value else m.value : ℚ) : WithTop ℚ) : Extended)

def isFinite : PyFloat → Bool
  | .finite _ _ => true
  | _ => false

def ofDecimal (neg : Bool) (q : ℚ) : PyFloat :=
  match nearestDouble q with
  | none => .inf neg
  | some x =>
      if h : isShortest (shortestDecimal x).1 (shortestDecimal x).2 = true then
        .finite neg ⟨(shortestDecimal x).1, (shortestDecimal x).2, h⟩
      else .nan

theorem ofDecimal_value (neg : Bool) (m : Magnitude) :
    ofDecimal neg (decimalValue m.digits m.exp) = .finite neg m := by
  have hm := m.shortest
  simp only [isShortest, Option.any_eq_true, decide_eq_true_eq] at hm
  obtain ⟨x, hx, hs⟩ := hm
  have h : isShortest (shortestDecimal x).1 (shortestDecimal x).2 = true := by
    rw [hs]
    exact m.shortest
  simp only [ofDecimal, hx, dif_pos h]
  congr 1
  cases m
  simp only [Magnitude.mk.injEq]
  exact ⟨congrArg Prod.fst hs, congrArg Prod.snd hs⟩

end PyFloat

end Python
