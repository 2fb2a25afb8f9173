import GovernedAutonomy.Python.Dumps

namespace Python

namespace Bytes

def codePoint? (n : Nat) : Option CodePoint := if h : n < 0x110000 then some ⟨n, h⟩ else none

def isContinuation (b : UInt8) : Bool := decide (0x80 ≤ b.toNat ∧ b.toNat < 0xC0)

def prepend (n : Nat) (rest : Option Str) : Option Str := do
  let p ← codePoint? n
  let s ← rest
  some (p :: s)

-- bytes.decode("utf-8", "surrogatepass")
def decodeUtf8 : List UInt8 → Option Str
  | [] => some []
  | a :: rest =>
      if a.toNat < 0x80 then prepend a.toNat (decodeUtf8 rest)
      else
        match rest with
        | [] => none
        | b :: rest =>
            if ¬ isContinuation b then none
            else if 0xC2 ≤ a.toNat ∧ a.toNat < 0xE0 then
              prepend ((a.toNat - 0xC0) * 0x40 + (b.toNat - 0x80)) (decodeUtf8 rest)
            else
              match rest with
              | [] => none
              | c :: rest =>
                  if ¬ isContinuation c then none
                  else if 0xE0 ≤ a.toNat ∧ a.toNat < 0xF0 then
                    if a.toNat = 0xE0 ∧ b.toNat < 0xA0 then none
                    else
                      prepend ((a.toNat - 0xE0) * 0x1000 + (b.toNat - 0x80) * 0x40 +
                        (c.toNat - 0x80)) (decodeUtf8 rest)
                  else
                    match rest with
                    | [] => none
                    | d :: rest =>
                        if isContinuation d ∧ 0xF0 ≤ a.toNat ∧ a.toNat < 0xF5 ∧
                            ¬ (a.toNat = 0xF0 ∧ b.toNat < 0x90) then
                          prepend ((a.toNat - 0xF0) * 0x40000 + (b.toNat - 0x80) * 0x1000 +
                            (c.toNat - 0x80) * 0x40 + (d.toNat - 0x80)) (decodeUtf8 rest)
                        else none

def units16 (big : Bool) : List UInt8 → Option Str
  | [] => some []
  | [_] => none
  | a :: b :: rest =>
      prepend (if big then a.toNat * 0x100 + b.toNat else b.toNat * 0x100 + a.toNat)
        (units16 big rest)

-- two surrogates that make a pair are joined, and a single one is passed
def decodeUtf16 (big : Bool) (bytes : List UInt8) : Option Str :=
  (units16 big bytes).map (fun units => joinPairs (units.map (fun u => (u, true))))

def decodeUtf32 (big : Bool) : List UInt8 → Option Str
  | [] => some []
  | a :: b :: c :: d :: rest =>
      prepend (if big then ((a.toNat * 0x100 + b.toNat) * 0x100 + c.toNat) * 0x100 + d.toNat
        else ((d.toNat * 0x100 + c.toNat) * 0x100 + b.toNat) * 0x100 + a.toNat)
        (decodeUtf32 big rest)
  | _ => none

-- without the mark of a byte order, json.detect_encoding goes by the zero bytes
def decodeUnmarked (bytes : List UInt8) : Option Str :=
  match bytes with
  | a :: b :: c :: d :: _ =>
      if a = 0 then if b = 0 then decodeUtf32 true bytes else decodeUtf16 true bytes
      else if b = 0 then
        if c = 0 ∧ d = 0 then decodeUtf32 false bytes else decodeUtf16 false bytes
      else decodeUtf8 bytes
  | [a, b] =>
      if a = 0 then decodeUtf16 true bytes
      else if b = 0 then decodeUtf16 false bytes
      else decodeUtf8 bytes
  | _ => decodeUtf8 bytes

def decodeDetected (bytes : List UInt8) : Option Str :=
  if [0x00, 0x00, 0xFE, 0xFF].isPrefixOf bytes then decodeUtf32 true (bytes.drop 4)
  else if [0xFF, 0xFE, 0x00, 0x00].isPrefixOf bytes then decodeUtf32 false (bytes.drop 4)
  else if [0xFE, 0xFF].isPrefixOf bytes then decodeUtf16 true (bytes.drop 2)
  else if [0xFF, 0xFE].isPrefixOf bytes then decodeUtf16 false (bytes.drop 2)
  else if [0xEF, 0xBB, 0xBF].isPrefixOf bytes then decodeUtf8 (bytes.drop 3)
  else decodeUnmarked bytes

end Bytes

-- json.loads of bytes
def Interpreter.loadsBytes (I : Interpreter) (bytes : List UInt8) : Result PyVal :=
  match Bytes.decodeDetected bytes with
  | none => .error (.valueError (lit "invalid encoding"))
  | some text => I.loads text

example : Bytes.decodeDetected [0xC3, 0xA9, 0xE2, 0x82, 0xAC, 0xF0, 0x9F, 0x98, 0x80] =
    some (lit "é€😀") := by decide +kernel

end Python
