import GovernedAutonomy.Python.Parse
import Mathlib.Data.List.Induction
import Mathlib.Tactic.Ring
import Mathlib.Tactic.FieldSimp

namespace Python

theorem digitChar_val {d : Nat} (h : d < 10) : (ofChar d.digitChar).val = 48 + d := by
  revert d
  decide

theorem digits_eq (n : Nat) :
    digits n = if n < 10 then [ofChar n.digitChar]
      else digits (n / 10) ++ [ofChar (n % 10).digitChar] := by
  rw [digits, Nat.toDigits_eq_if (by decide)]
  split
  · rfl
  · simp [digits]

theorem digits_ne_nil (n : Nat) : digits n ≠ [] := by
  simp [digits, Nat.toDigits_ne_nil]

theorem digits_zero : digits 0 = lit "0" := rfl

theorem isDigit_of_mem_digits {n : Nat} {p : CodePoint} (h : p ∈ digits n) : isDigit p = true := by
  induction n using Nat.strong_induction_on with
  | _ n ih =>
      rw [digits_eq] at h
      split at h
      · rename_i hn
        simp only [List.mem_singleton] at h
        subst h
        simp only [isDigit, digitChar_val hn, decide_eq_true_eq]
        omega
      · rename_i hn
        rcases List.mem_append.mp h with h | h
        · exact ih (n / 10) (by omega) h
        · simp only [List.mem_singleton] at h
          subst h
          simp only [isDigit, digitChar_val (Nat.mod_lt n (by decide : 0 < 10)), decide_eq_true_eq]
          omega

theorem digitsValue_snoc (s : Str) (p : CodePoint) :
    digitsValue (s ++ [p]) = 10 * digitsValue s + (p.val - 48) := by
  simp [digitsValue]

theorem digitsValue_append (s t : Str) :
    digitsValue (s ++ t) = digitsValue s * 10 ^ t.length + digitsValue t := by
  induction t using List.reverseRecOn with
  | nil => simp [digitsValue]
  | append_singleton t p ih =>
      rw [← List.append_assoc, digitsValue_snoc, ih, digitsValue_snoc, List.length_append,
        List.length_singleton, pow_succ]
      ring

theorem digitsValue_digits (n : Nat) : digitsValue (digits n) = n := by
  induction n using Nat.strong_induction_on with
  | _ n ih =>
      rw [digits_eq]
      split
      · rename_i hn
        simp [digitsValue, digitChar_val hn]
      · rename_i hn
        rw [digitsValue_snoc, ih (n / 10) (by omega),
          digitChar_val (Nat.mod_lt n (by decide : 0 < 10))]
        omega

theorem digitsValue_zeros (k : Nat) : digitsValue (List.replicate k (ofChar '0')) = 0 := by
  induction k with
  | zero => rfl
  | succ k ih =>
      rw [List.replicate_succ', digitsValue_snoc, ih]
      rfl

theorem digits_head {n : Nat} (h : n ≠ 0) : (digits n).head? ≠ some (ofChar '0') := by
  induction n using Nat.strong_induction_on with
  | _ n ih =>
      rw [digits_eq]
      split
      · rename_i hn
        intro heq
        simp only [List.head?_cons, Option.some.injEq] at heq
        have hv := congrArg Fin.val heq
        rw [digitChar_val hn] at hv
        change 48 + n = 48 at hv
        omega
      · rename_i hn
        rw [List.head?_append_of_ne_nil _ (digits_ne_nil _)]
        exact ih (n / 10) (by omega) (by omega)

def AllDigits (s : Str) : Prop := ∀ p ∈ s, isDigit p = true

def Whole (s : Str) : Prop :=
  AllDigits s ∧ s ≠ [] ∧ (s.head? = some (ofChar '0') → s = lit "0")

def Stops (rest : Str) : Prop :=
  ∀ p, rest.head? = some p →
    isDigit p = false ∧ p ≠ ofChar '.' ∧ p ≠ ofChar 'e' ∧ p ≠ ofChar 'E'

theorem allDigits_append {s t : Str} (hs : AllDigits s) (ht : AllDigits t) :
    AllDigits (s ++ t) := by
  intro p hp
  rcases List.mem_append.mp hp with h | h
  · exact hs p h
  · exact ht p h

theorem allDigits_digits (n : Nat) : AllDigits (digits n) :=
  fun _ h => isDigit_of_mem_digits h

theorem allDigits_zeros (k : Nat) : AllDigits (List.replicate k (ofChar '0')) := by
  intro p hp
  rw [List.eq_of_mem_replicate hp]
  rfl

theorem whole_digits (n : Nat) : Whole (digits n) := by
  refine ⟨allDigits_digits n, digits_ne_nil n, ?_⟩
  intro h
  by_cases hn : n = 0
  · rw [hn]
    rfl
  · exact absurd h (digits_head hn)

-- a numeral without leading zeros is the one that its value is written with
theorem digits_digitsValue {s : Str} (h : Whole s) : digits (digitsValue s) = s := by
  induction s using List.reverseRecOn with
  | nil => exact absurd rfl h.2.1
  | append_singleton s p ih =>
      obtain ⟨hall, -, hzero⟩ := h
      have hp : isDigit p = true := hall p (by simp)
      have hdigit : 48 ≤ p.val ∧ p.val ≤ 57 := by simpa [isDigit] using hp
      have hchar : ofChar (p.val - 48).digitChar = p := by
        apply Fin.ext
        rw [digitChar_val (d := p.val - 48) (by omega)]
        omega
      rw [digitsValue_snoc, digits_eq]
      cases s with
      | nil =>
          have hvalue : 10 * digitsValue [] + (p.val - 48) = p.val - 48 := by simp [digitsValue]
          rw [hvalue, if_pos (by omega), hchar]
          rfl
      | cons q s =>
          have hwhole : Whole (q :: s) := by
            refine ⟨fun c hc => hall c (List.mem_append_left _ hc), List.cons_ne_nil q s, ?_⟩
            intro hq
            have hlong := congrArg List.length (hzero hq)
            simp [lit] at hlong
          have hpos : digitsValue (q :: s) ≠ 0 := by
            intro hvalue
            have hs := ih hwhole
            rw [hvalue, digits_zero] at hs
            have hlong := congrArg List.length (hzero (by
              rw [← hs]
              rfl))
            simp [lit] at hlong
          rw [if_neg (by omega), show (10 * digitsValue (q :: s) + (p.val - 48)) / 10 =
            digitsValue (q :: s) by omega, ih hwhole, show (10 * digitsValue (q :: s) +
            (p.val - 48)) % 10 = p.val - 48 by omega, hchar]

theorem digitsValue_inj {s t : Str} (hs : Whole s) (ht : Whole t) :
    digitsValue s = digitsValue t ↔ s = t := by
  constructor
  · intro h
    rw [← digits_digitsValue hs, h, digits_digitsValue ht]
  · rintro rfl
    rfl

theorem whole_take {s : Str} (h : Whole s) {k : Nat} (hk : 0 < k) : Whole (s.take k) := by
  obtain ⟨hall, hne, hzero⟩ := h
  refine ⟨fun p hp => hall p (List.mem_of_mem_take hp), by simp [hne]; omega, ?_⟩
  intro h0
  rw [List.head?_take, if_neg (by omega)] at h0
  rw [hzero h0]
  exact List.take_of_length_le hk

theorem whole_zeros {s : Str} (h : Whole s) {k : Nat} (hk : s = lit "0" → k = 0) :
    Whole (s ++ List.replicate k (ofChar '0')) := by
  obtain ⟨hall, hne, hzero⟩ := h
  refine ⟨allDigits_append hall (allDigits_zeros k), by simp [hne], ?_⟩
  intro h0
  rw [List.head?_append_of_ne_nil _ hne] at h0
  rw [hk (hzero h0), hzero h0]
  rfl

theorem span_digits {s rest : Str} (hs : AllDigits s)
    (hr : ∀ p, rest.head? = some p → isDigit p = false) :
    (s ++ rest).takeWhile isDigit = s ∧ (s ++ rest).dropWhile isDigit = rest := by
  induction s with
  | nil =>
      cases rest with
      | nil => simp
      | cons p rest =>
          have hp := hr p rfl
          simp [hp]
  | cons p s ih =>
      have hp := hs p (by simp)
      obtain ⟨h₁, h₂⟩ := ih (fun q hq => hs q (by simp [hq]))
      simp [hp, h₁, h₂]

theorem takeInteger_whole {s rest : Str} (hs : Whole s)
    (hr : ∀ p, rest.head? = some p → isDigit p = false) :
    takeInteger (s ++ rest) = some (s, rest) := by
  obtain ⟨hall, hne, hzero⟩ := hs
  cases s with
  | nil => exact absurd rfl hne
  | cons p s =>
      simp only [List.cons_append, takeInteger]
      split
      · rename_i hp
        have := hzero (by simp [hp])
        obtain ⟨hp', rfl⟩ := List.cons.inj (this.trans (show lit "0" = [ofChar '0'] from rfl))
        simp
      · have hd := hall p (by simp)
        rw [if_pos hd, ← List.cons_append, (span_digits hall hr).1, (span_digits hall hr).2]

def fractionText (s : Str) : Str := if s = [] then [] else lit "." ++ s

def exponentText : Option ℤ → Str
  | none => []
  | some e => exponentRepr e

theorem takeFraction_text {s rest : Str} (hs : AllDigits s)
    (hr : ∀ p, rest.head? = some p → isDigit p = false ∧ p ≠ ofChar '.') :
    takeFraction (fractionText s ++ rest) = (s, rest) := by
  unfold fractionText
  split
  · rename_i h
    subst h
    cases rest with
    | nil => rfl
    | cons p rest =>
        have hp := hr p rfl
        simp [takeFraction, hp.2]
  · rename_i h
    have hspan := span_digits hs (fun p hp => (hr p hp).1)
    rw [show lit "." ++ s ++ rest = ofChar '.' :: (s ++ rest) from rfl, takeFraction,
      hspan.1, hspan.2, if_pos ⟨rfl, h⟩]

theorem pad_digits (k : Nat) :
    AllDigits ((if k < 10 then lit "0" else []) ++ digits k) ∧
      digitsValue ((if k < 10 then lit "0" else []) ++ digits k) = k := by
  split
  · refine ⟨allDigits_append (allDigits_digits 0) (allDigits_digits k), ?_⟩
    rw [digitsValue_append, digitsValue_digits]
    simp [digitsValue, show lit "0" = [ofChar '0'] from rfl, show (ofChar '0').val = 48 from rfl]
  · simpa using ⟨allDigits_digits k, digitsValue_digits k⟩

theorem takeExponent_text {e : Option ℤ} {rest : Str} (hr : Stops rest) :
    takeExponent (exponentText e ++ rest) = (e, rest) := by
  cases e with
  | none =>
      cases rest with
      | nil => rfl
      | cons p rest =>
          obtain ⟨-, -, h₁, h₂⟩ := hr p rfl
          simp [exponentText, takeExponent, h₁, h₂]
  | some e =>
      obtain ⟨hall, hval⟩ := pad_digits e.natAbs
      have hspan := span_digits hall (fun p hp => (hr p hp).1)
      have hne : (if e.natAbs < 10 then lit "0" else []) ++ digits e.natAbs ≠ [] := by
        simp [digits_ne_nil]
      by_cases he : e < 0
      · have htext : exponentText (some e) ++ rest = ofChar 'e' :: ofChar '-' ::
            (((if e.natAbs < 10 then lit "0" else []) ++ digits e.natAbs) ++ rest) := by
          simp only [exponentText, exponentRepr, if_pos he, List.append_assoc]
          rfl
        rw [htext, takeExponent]
        simp only [takeSign, true_or, if_true, hspan.1, hspan.2, hval, hne, ne_eq,
          not_false_eq_true, Prod.mk.injEq, Option.some.injEq, and_true]
        omega
      · have htext : exponentText (some e) ++ rest = ofChar 'e' :: ofChar '+' ::
            (((if e.natAbs < 10 then lit "0" else []) ++ digits e.natAbs) ++ rest) := by
          simp only [exponentText, exponentRepr, if_neg he, List.append_assoc]
          rfl
        have hplus : ¬ ofChar '+' = ofChar '-' := by decide
        rw [htext, takeExponent]
        simp only [takeSign, true_or, if_true, hplus, if_false, hspan.1, hspan.2, hval, hne, ne_eq,
          not_false_eq_true, Prod.mk.injEq, Option.some.injEq, and_true, Bool.false_eq_true]
        omega

theorem head?_exponentText (e : Option ℤ) (rest : Str) {p : CodePoint}
    (h : (exponentText e ++ rest).head? = some p) : p = ofChar 'e' ∨ rest.head? = some p := by
  cases e with
  | none => exact Or.inr h
  | some e =>
      left
      simp only [exponentText, exponentRepr, List.append_assoc] at h
      exact (Option.some.inj h).symm

theorem head?_fractionText (s rest : Str) {p : CodePoint}
    (h : (fractionText s ++ rest).head? = some p) : p = ofChar '.' ∨ rest.head? = some p := by
  unfold fractionText at h
  split at h
  · exact Or.inr h
  · left
    simp only [List.append_assoc] at h
    exact (Option.some.inj h).symm

def signText (neg : Bool) : Str := if neg then lit "-" else []

theorem takeSign_text (neg : Bool) {s : Str} (hs : Whole s) (rest : Str) :
    takeSign (ofChar '-') (signText neg ++ (s ++ rest)) = (neg, s ++ rest) := by
  obtain ⟨hall, hne, -⟩ := hs
  cases neg with
  | true => rfl
  | false =>
      cases s with
      | nil => exact absurd rfl hne
      | cons p s =>
          have hp : p ≠ ofChar '-' := by
            rintro rfl
            exact absurd (hall (ofChar '-') (by simp)) (by decide)
          simp [signText, takeSign, hp]

theorem parseNumber_int (neg : Bool) {n : Nat} {rest : Str} (hr : Stops rest)
    (hlen : (digits n).length ≤ maxStrDigits) :
    parseNumber (signText neg ++ (digits n ++ rest)) =
      .ok (.int (if neg then -(n : ℤ) else n), rest) := by
  have hint := takeInteger_whole (whole_digits n) (fun p hp => (hr p hp).1)
  have hfrac : takeFraction rest = ([], rest) := by
    have := takeFraction_text (s := []) (by simp [AllDigits])
      (fun p hp => ⟨(hr p hp).1, (hr p hp).2.1⟩)
    simpa [fractionText] using this
  have hexp : takeExponent rest = (none, rest) := by
    simpa [exponentText] using takeExponent_text (e := none) hr
  simp [parseNumber, takeSign_text neg (whole_digits n), hint, hfrac, hexp, digitsValue_digits,
    Nat.not_lt.mpr hlen]

theorem parseNumber_float (neg : Bool) {whole frac rest : Str} {exp : Option ℤ}
    (hw : Whole whole) (hf : AllDigits frac) (hx : frac ≠ [] ∨ exp ≠ none) (hr : Stops rest) :
    parseNumber (signText neg ++ (whole ++ (fractionText frac ++ (exponentText exp ++ rest)))) =
      .ok (.float (PyFloat.ofDecimal neg
        (decimalValue (digitsValue (whole ++ frac)) (exp.getD 0 - frac.length))), rest) := by
  have hexpHead : ∀ p, (exponentText exp ++ rest).head? = some p →
      isDigit p = false ∧ p ≠ ofChar '.' := by
    intro p hp
    rcases head?_exponentText exp rest hp with rfl | h
    · decide
    · exact ⟨(hr p h).1, (hr p h).2.1⟩
  have hfracHead : ∀ p, (fractionText frac ++ (exponentText exp ++ rest)).head? = some p →
      isDigit p = false := by
    intro p hp
    rcases head?_fractionText frac _ hp with rfl | h
    · decide
    · exact (hexpHead p h).1
  have hfloat : ¬ (frac = [] ∧ exp = none) := by tauto
  simp only [parseNumber, takeSign_text neg hw, takeInteger_whole hw hfracHead,
    takeFraction_text hf hexpHead, takeExponent_text hr, if_neg hfloat]

theorem decimalValue_shift (m k : Nat) (e : ℤ) :
    decimalValue (m * 10 ^ k) (e - k) = decimalValue m e := by
  have h10 : (10 : ℚ) ≠ 0 := by norm_num
  unfold decimalValue
  push_cast
  rw [zpow_sub₀ h10, zpow_natCast]
  field_simp

theorem magnitudeRepr_shape {m : Nat} {e : ℤ} (hz : m = 0 → e = 0) :
    ∃ whole frac exp, magnitudeRepr m e = whole ++ (fractionText frac ++ exponentText exp) ∧
      Whole whole ∧ AllDigits frac ∧ (frac ≠ [] ∨ exp ≠ none) ∧
      decimalValue (digitsValue (whole ++ frac)) (exp.getD 0 - frac.length) = decimalValue m e ∧
      (frac.length ≤ exp.getD 0 ↔ 16 < (digits m).length + e ∧ 0 ≤ e) := by
  have hne := digits_ne_nil m
  have hpos : 0 < (digits m).length := List.length_pos_iff.mpr hne
  have hall := allDigits_digits m
  have hwhole := whole_digits m
  have hval := digitsValue_digits m
  unfold magnitudeRepr
  generalize digits m = ds at hne hpos hall hwhole hval ⊢
  dsimp only
  split
  · refine ⟨ds.take 1, ds.drop 1, some (ds.length + e - 1), ?_, whole_take hwhole (by decide),
      fun p hp => hall p (List.mem_of_mem_drop hp), Or.inr (by simp), ?_, ?_⟩
    · have hif : (ds.length ≤ 1) ↔ ds.drop 1 = [] := List.drop_eq_nil_iff.symm
      simp only [fractionText, exponentText, List.append_assoc, hif]
    · rw [List.take_append_drop, hval, List.length_drop]
      congr 1
      simp only [Option.getD_some]
      omega
    · simp only [List.length_drop, Option.getD_some]
      omega
  · split
    · rename_i hpoint
      refine ⟨lit "0", List.replicate (-(ds.length + e)).toNat (ofChar '0') ++ ds, none, ?_,
        whole_digits 0, allDigits_append (allDigits_zeros _) hall, Or.inl (by simp [hne]), ?_, ?_⟩
      · have hf : List.replicate (-(ds.length + e)).toNat (ofChar '0') ++ ds ≠ [] := by simp [hne]
        simp only [fractionText, if_neg hf, exponentText, List.append_nil]
        simp only [← List.append_assoc]
        rfl
      · have h0 : digitsValue (lit "0") = 0 := rfl
        rw [digitsValue_append, digitsValue_append, digitsValue_zeros, h0, hval,
          List.length_append, List.length_replicate]
        simp only [zero_mul, zero_add, Option.getD_none]
        congr 1
        omega
      · simp only [List.length_append, List.length_replicate, Option.getD_none]
        omega
    · split
      · rename_i hpoint hlen
        have hexp : (((ds.length + e - ds.length).toNat : ℕ) : ℤ) = e := by omega
        refine ⟨ds ++ List.replicate (ds.length + e - ds.length).toNat (ofChar '0'), lit "0", none,
          ?_, whole_zeros hwhole ?_, allDigits_digits 0, Or.inl (by decide), ?_, ?_⟩
        · simp only [fractionText, exponentText, List.append_nil, List.append_assoc]
          rfl
        · intro h0
          have hm : m = 0 := by
            rw [← hval, h0]
            rfl
          rw [hz hm]
          simp
        · have hv : digitsValue ((ds ++ List.replicate (ds.length + e - ds.length).toNat
              (ofChar '0')) ++ lit "0") = m * 10 ^ ((ds.length + e - ds.length).toNat + 1) := by
            rw [digitsValue_append, digitsValue_append, digitsValue_zeros, hval,
              List.length_replicate, show digitsValue (lit "0") = 0 from rfl, add_zero, add_zero,
              show (lit "0").length = 1 from rfl, mul_assoc, ← pow_add]
          rw [hv, ← decimalValue_shift m ((ds.length + e - ds.length).toNat + 1) e]
          congr 1
          simp only [Option.getD_none, show (lit "0").length = 1 from rfl]
          omega
        · simp only [Option.getD_none, show (lit "0").length = 1 from rfl]
          omega
      · rename_i hpoint hlen
        refine ⟨ds.take (ds.length + e).toNat, ds.drop (ds.length + e).toNat, none, ?_,
          whole_take hwhole (by omega), fun p hp => hall p (List.mem_of_mem_drop hp), Or.inl ?_, ?_,
          ?_⟩
        · have hf : ds.drop (ds.length + e).toNat ≠ [] := by
            simp only [ne_eq, List.drop_eq_nil_iff]
            omega
          simp only [fractionText, if_neg hf, exponentText, List.append_nil, List.append_assoc]
        · simp only [ne_eq, List.drop_eq_nil_iff]
          omega
        · rw [List.take_append_drop, hval, List.length_drop]
          congr 1
          simp only [Option.getD_none]
          omega
        · simp only [List.length_drop, Option.getD_none]
          omega

theorem magnitude_zero_exp (m : Magnitude) (h : m.digits = 0) : m.exp = 0 := by
  have hs := m.shortest
  rw [h] at hs
  have hn : nearestDouble (decimalValue 0 m.exp) = some 0 := by
    simp [nearestDouble, decimalValue]
  rw [isShortest, hn] at hs
  simp only [Option.any_some, decide_eq_true_eq] at hs
  have h0 : shortestDecimal 0 = (0, 0) := by simp [shortestDecimal]
  rw [h0] at hs
  exact (congrArg Prod.snd hs).symm

theorem parseNumber_finite (neg : Bool) (m : Magnitude) {rest : Str} (hr : Stops rest) :
    parseNumber (floatText (.finite neg m) ++ rest) = .ok (.float (.finite neg m), rest) := by
  obtain ⟨whole, frac, exp, htext, hw, hf, hx, hv, -⟩ :=
    magnitudeRepr_shape (e := m.exp) (magnitude_zero_exp m)
  have h := parseNumber_float neg hw hf hx hr
  rw [hv, PyFloat.ofDecimal_value] at h
  rw [← h, floatText, htext]
  simp only [signText, List.append_assoc]

theorem digits_length_le_iff {n k : Nat} (hk : 0 < k) : (digits n).length ≤ k ↔ n < 10 ^ k := by
  rw [digits, List.length_map]
  exact Nat.length_toDigits_le_iff (by decide) hk

end Python
