import GovernedAutonomy.Python.Parse

namespace Python

theorem hexValue_hexDigit (n : Nat) : hexValue? (hexDigit n) = some (n % 16) := by
  have h : ∀ d < 16, hexValue? (ofChar (Nat.digitChar d)) = some d := by decide
  exact h (n % 16) (Nat.mod_lt n (by decide))

theorem hexUnit_escape {n : Nat} (h : n < 0x10000) :
    hexUnit? (hexDigit (n / 4096)) (hexDigit (n / 256)) (hexDigit (n / 16)) (hexDigit n) =
      some (Fin.ofNat 0x110000 n) := by
  simp only [hexUnit?, hexValue_hexDigit, Option.bind_eq_bind, Option.bind_some]
  congr 2
  omega

theorem fin_ofNat_val (p : CodePoint) : Fin.ofNat 0x110000 p.val = p :=
  Fin.ext (Nat.mod_eq_of_lt p.isLt)

def prependUnits (us : List (CodePoint × Bool)) :
    Option (List (CodePoint × Bool) × Str) → Option (List (CodePoint × Bool) × Str) :=
  Option.map (fun r => (us ++ r.1, r.2))

theorem scanUnits_unicodeEscape {n : Nat} (h : n < 0x10000) (rest : Str) :
    scanUnits (unicodeEscape n ++ rest) =
      prependUnits [(Fin.ofNat 0x110000 n, true)] (scanUnits rest) := by
  have htext : unicodeEscape n ++ rest = ofChar '\\' :: ofChar 'u' :: hexDigit (n / 4096) ::
      hexDigit (n / 256) :: hexDigit (n / 16) :: hexDigit n :: rest := rfl
  have hq : ¬ ofChar '\\' = ofChar '"' := by decide
  rw [htext, scanUnits.eq_def]
  simp only [hq, if_false, if_true, hexUnit_escape h, Option.bind_eq_bind, Option.bind_some]
  cases scanUnits rest <;> rfl

theorem scanUnits_shortEscape {q n : CodePoint} (hq : q ≠ ofChar 'u')
    (h : shortEscape? q = some n) (rest : Str) :
    scanUnits (ofChar '\\' :: q :: rest) = prependUnits [(n, false)] (scanUnits rest) := by
  have hb : ¬ ofChar '\\' = ofChar '"' := by decide
  rw [scanUnits.eq_def]
  simp only [hb, if_false, if_true, hq, h, Option.bind_eq_bind, Option.bind_some]
  cases scanUnits rest <;> rfl

theorem scanUnits_raw {p : CodePoint} (hq : p ≠ ofChar '"') (hb : p ≠ ofChar '\\')
    (h : ¬ p.val < 0x20) (rest : Str) :
    scanUnits (p :: rest) = prependUnits [(p, false)] (scanUnits rest) := by
  rw [scanUnits.eq_def]
  simp only [hq, hb, h, if_false]
  cases scanUnits rest <;> rfl

-- the units one code point is written as: a pair outside the basic plane in ASCII style
def unitsOf (ascii : Bool) (p : CodePoint) : List (CodePoint × Bool) :=
  if p.val = 0x22 ∨ p.val = 0x5C ∨ p.val = 0x0A ∨ p.val = 0x0D ∨ p.val = 0x09 ∨ p.val = 0x0C ∨
      p.val = 0x08 then [(p, false)]
  else if p.val < 0x20 then [(p, true)]
  else if ascii ∧ 0x7E < p.val then
    if p.val < 0x10000 then [(p, true)]
    else [(Fin.ofNat 0x110000 (highUnit p.val), true), (Fin.ofNat 0x110000 (lowUnit p.val), true)]
  else [(p, false)]

theorem eq_of_val_eq {p : CodePoint} {c : Char} (h : p.val = c.toNat) : p = ofChar c :=
  Fin.ext h

theorem scanUnits_escapePoint (ascii : Bool) (p : CodePoint) (rest : Str) :
    scanUnits (escapePoint ascii p ++ rest) = prependUnits (unitsOf ascii p) (scanUnits rest) := by
  have hlt := p.isLt
  unfold escapePoint
  split
  · rename_i h; subst h
    exact scanUnits_shortEscape (by decide) (by decide) rest
  split
  · rename_i h; subst h
    exact scanUnits_shortEscape (by decide) (by decide) rest
  split
  · rename_i h; subst h
    exact scanUnits_shortEscape (q := ofChar 'n') (by decide) (by decide) rest
  split
  · rename_i h; subst h
    exact scanUnits_shortEscape (q := ofChar 'r') (by decide) (by decide) rest
  split
  · rename_i h; subst h
    exact scanUnits_shortEscape (q := ofChar 't') (by decide) (by decide) rest
  split
  · rename_i h
    obtain rfl : p = 0x0C := Fin.ext h
    exact scanUnits_shortEscape (q := ofChar 'f') (by decide) (by decide) rest
  split
  · rename_i h
    obtain rfl : p = 0x08 := Fin.ext h
    exact scanUnits_shortEscape (q := ofChar 'b') (by decide) (by decide) rest
  rename_i h₁ h₂ h₃ h₄ h₅ h₆ h₇
  have hshort : ¬ (p.val = 0x22 ∨ p.val = 0x5C ∨ p.val = 0x0A ∨ p.val = 0x0D ∨ p.val = 0x09 ∨
      p.val = 0x0C ∨ p.val = 0x08) := by
    rintro (h | h | h | h | h | h | h)
    · exact h₁ (eq_of_val_eq h)
    · exact h₂ (eq_of_val_eq h)
    · exact h₃ (eq_of_val_eq h)
    · exact h₄ (eq_of_val_eq h)
    · exact h₅ (eq_of_val_eq h)
    · exact h₆ h
    · exact h₇ h
  rw [unitsOf, if_neg hshort]
  split
  · rw [scanUnits_unicodeEscape (by omega), fin_ofNat_val]
  split
  · split
    · rename_i h
      rw [scanUnits_unicodeEscape h, fin_ofNat_val]
    · rw [List.append_assoc, scanUnits_unicodeEscape (by unfold highUnit; omega),
        scanUnits_unicodeEscape (by unfold lowUnit; omega)]
      cases scanUnits rest <;> rfl
  · rename_i h₈ _
    exact scanUnits_raw h₁ h₂ h₈ rest

theorem scanUnits_quoted (ascii : Bool) (s rest : Str) :
    scanUnits (s.flatMap (escapePoint ascii) ++ (lit "\"" ++ rest)) =
      some (s.flatMap (unitsOf ascii), rest) := by
  induction s with
  | nil =>
      rw [List.flatMap_nil, List.nil_append, show lit "\"" ++ rest = ofChar '"' :: rest from rfl,
        scanUnits.eq_def]
      simp only [if_true, List.flatMap_nil]
  | cons p s ih =>
      rw [List.flatMap_cons, List.append_assoc, scanUnits_escapePoint, ih]
      rfl

theorem joinPairs_cons {p : CodePoint} {a : Bool} (h : a = false ∨ isHigh p = false)
    (us : List (CodePoint × Bool)) : joinPairs ((p, a) :: us) = p :: joinPairs us := by
  cases us with
  | nil => rfl
  | cons u us =>
      obtain ⟨l, b⟩ := u
      have hif : (a && b && isHigh p && isLow l) = false := by
        rcases h with h | h <;> simp [h]
      rw [joinPairs, hif]
      rfl

theorem joinPairs_pair {n : Nat} (hlo : 0x10000 ≤ n) (hhi : n < 0x110000)
    (us : List (CodePoint × Bool)) :
    joinPairs ((Fin.ofNat 0x110000 (highUnit n), true) ::
      (Fin.ofNat 0x110000 (lowUnit n), true) :: us) = Fin.ofNat 0x110000 n :: joinPairs us := by
  have hh : (Fin.ofNat 0x110000 (highUnit n)).val = highUnit n :=
    Nat.mod_eq_of_lt (by unfold highUnit; omega)
  have hl : (Fin.ofNat 0x110000 (lowUnit n)).val = lowUnit n :=
    Nat.mod_eq_of_lt (by unfold lowUnit; omega)
  have hhigh : isHigh (Fin.ofNat 0x110000 (highUnit n)) = true := by
    rw [isHigh, hh, decide_eq_true_eq]
    unfold highUnit
    omega
  have hlow : isLow (Fin.ofNat 0x110000 (lowUnit n)) = true := by
    rw [isLow, hl, decide_eq_true_eq]
    unfold lowUnit
    omega
  have hjoin : joinUnits (Fin.ofNat 0x110000 (highUnit n)) (Fin.ofNat 0x110000 (lowUnit n)) =
      Fin.ofNat 0x110000 n := by
    unfold joinUnits
    rw [hh, hl]
    refine congrArg (Fin.ofNat 0x110000) ?_
    unfold highUnit lowUnit
    omega
  rw [joinPairs, hhigh, hlow, hjoin]
  rfl

-- what the reader makes of a quoted string
def heard (ascii : Bool) (s : Str) : Str := joinPairs (s.flatMap (unitsOf ascii))

theorem scanString_quoted (ascii : Bool) (s rest : Str) :
    scanString (s.flatMap (escapePoint ascii) ++ (lit "\"" ++ rest)) = .ok (heard ascii s, rest) := by
  simp only [scanString, scanUnits_quoted, heard]

-- only the ASCII style writes a lone surrogate as an escape that the reader could join
def Joinable (ascii : Bool) (s : Str) : Prop := ascii = true → ∀ p ∈ s, isSurrogate p = false

theorem joinPairs_unitsOf {ascii : Bool} {p : CodePoint}
    (h : ascii = true → isSurrogate p = false) (us : List (CodePoint × Bool)) :
    joinPairs (unitsOf ascii p ++ us) = p :: joinPairs us := by
  have hlt := p.isLt
  unfold unitsOf
  split
  · exact joinPairs_cons (Or.inl rfl) us
  split
  · refine joinPairs_cons (Or.inr ?_) us
    simp only [isHigh, decide_eq_false_iff_not]
    omega
  split
  · rename_i hp
    have hs := h hp.1
    simp only [isSurrogate, decide_eq_false_iff_not] at hs
    split
    · refine joinPairs_cons (Or.inr ?_) us
      simp only [isHigh, decide_eq_false_iff_not]
      omega
    · have := joinPairs_pair (n := p.val) (by omega) hlt us
      rwa [fin_ofNat_val] at this
  · exact joinPairs_cons (Or.inl rfl) us

theorem heard_eq {ascii : Bool} {s : Str} (h : Joinable ascii s) : heard ascii s = s := by
  unfold heard
  induction s with
  | nil => rfl
  | cons p s ih =>
      rw [List.flatMap_cons, joinPairs_unitsOf (fun ha => h ha p (by simp)),
        ih (fun ha q hq => h ha q (by simp [hq]))]

end Python
