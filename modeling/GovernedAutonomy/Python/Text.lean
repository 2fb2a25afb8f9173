import Mathlib.Algebra.GroupWithZero.Nat
import Mathlib.Data.List.Lex

namespace Python

abbrev CodePoint := Fin 0x110000

abbrev Str := List CodePoint

instance neZeroCodePoints : NeZero 0x110000 := ⟨by decide⟩

instance : LawfulBEq CodePoint := inferInstanceAs (LawfulBEq (Fin 0x110000))

instance : LawfulBEq Str := inferInstanceAs (LawfulBEq (List CodePoint))

theorem toNat_lt (c : Char) : c.toNat < 0x110000 := by
  rcases c.valid with h | h
  · exact Nat.lt_trans h (by decide)
  · exact h.2

def ofChar (c : Char) : CodePoint := ⟨c.toNat, toNat_lt c⟩

def isSurrogate (p : CodePoint) : Bool := decide (0xD800 ≤ p.val ∧ p.val < 0xE000)

def toChar? (p : CodePoint) : Option Char :=
  if h : p.val.isValidChar then some (Char.ofNatAux p.val h) else none

def lit (s : String) : Str := s.toList.map ofChar

instance : Coe String Str := ⟨lit⟩

-- bytes that hold UTF-8 text are Lean strings: encoding fails on a lone surrogate only
def encode (s : Str) : Option String := (s.mapM toChar?).map String.ofList

def decode (b : String) : Str := lit b

theorem toChar?_ofChar (c : Char) : toChar? (ofChar c) = some c := by
  have h : c.toNat.isValidChar := c.valid
  rw [toChar?, dif_pos (show (ofChar c).val.isValidChar from h)]
  exact congrArg some (Char.ext (UInt32.toNat_inj.mp rfl))

theorem ofChar_of_toChar? {p : CodePoint} {c : Char} (h : toChar? p = some c) : ofChar c = p := by
  by_cases hvalid : p.val.isValidChar
  · rw [toChar?, dif_pos hvalid] at h
    cases h
    exact Fin.ext rfl
  · rw [toChar?, dif_neg hvalid] at h
    cases h

theorem ofChar_injective : Function.Injective ofChar := by
  intro a b h
  have hab := congrArg toChar? h
  simpa [toChar?_ofChar] using hab

@[simp]
theorem lit_inj {a b : String} : lit a = lit b ↔ a = b := by
  constructor
  · intro h
    exact String.toList_inj.mp (List.map_injective_iff.mpr ofChar_injective h)
  · rintro rfl
    rfl

theorem lit_append (a b : String) : lit (a ++ b) = lit a ++ lit b := by
  simp [lit]

theorem mapM_toChar?_map (cs : List Char) : (cs.map ofChar).mapM toChar? = some cs := by
  induction cs with
  | nil => rfl
  | cons c cs ih => simp [List.mapM_cons, toChar?_ofChar, ih]

theorem map_of_mapM_toChar? {s : Str} {cs : List Char} (h : s.mapM toChar? = some cs) :
    cs.map ofChar = s := by
  induction s generalizing cs with
  | nil => simp_all
  | cons p s ih =>
      simp only [List.mapM_cons, Option.bind_eq_bind, Option.bind_eq_some_iff,
        Option.pure_def, Option.some.injEq] at h
      obtain ⟨c, hc, ds, hds, rfl⟩ := h
      simp [ofChar_of_toChar? hc, ih hds]

theorem encode_lit (b : String) : encode (lit b) = some b := by
  rw [encode, lit, mapM_toChar?_map, Option.map_some, String.ofList_toList]

theorem encode_eq_some {s : Str} {b : String} : encode s = some b ↔ s = lit b := by
  constructor
  · intro h
    simp only [encode, Option.map_eq_some_iff] at h
    obtain ⟨cs, hcs, rfl⟩ := h
    simp [lit, map_of_mapM_toChar? hcs]
  · rintro rfl
    exact encode_lit b

theorem encode_injective {s t : Str} {b : String} (hs : encode s = some b)
    (ht : encode t = some b) : s = t := by
  rw [encode_eq_some.mp hs, encode_eq_some.mp ht]

theorem toChar?_isSome (p : CodePoint) : (toChar? p).isSome = !isSurrogate p := by
  have hp := p.isLt
  by_cases h : p.val.isValidChar
  · have hnot : ¬ (0xD800 ≤ p.val ∧ p.val < 0xE000) := by
      unfold Nat.isValidChar at h
      omega
    rw [toChar?, dif_pos h, isSurrogate, decide_eq_false hnot]
    rfl
  · have hin : 0xD800 ≤ p.val ∧ p.val < 0xE000 := by
      unfold Nat.isValidChar at h
      omega
    rw [toChar?, dif_neg h, isSurrogate, decide_eq_true hin]
    rfl

theorem encode_isSome (s : Str) : (encode s).isSome = s.all (fun p => !isSurrogate p) := by
  have hm : (s.mapM toChar?).isSome = s.all (fun p => !isSurrogate p) := by
    induction s with
    | nil => rfl
    | cons p s ih =>
        rw [List.all_cons, ← ih, ← toChar?_isSome, List.mapM_cons]
        cases toChar? p <;> cases s.mapM toChar? <;> rfl
  simpa [encode] using hm

theorem not_isSurrogate_of_mem_lit {p : CodePoint} {b : String} (h : p ∈ lit b) :
    isSurrogate p = false := by
  have hb := encode_isSome (lit b)
  rw [encode_lit] at hb
  have := List.all_eq_true.mp hb.symm p h
  simpa using this

end Python
