import GovernedAutonomy.Python.Float
import Mathlib.Tactic.Linarith
import Mathlib.Tactic.Positivity

namespace Python

-- the double nearest to a number, none where it overflows
def double (q : ℚ) : Option ℚ := (nearestDouble |q|).map (fun x => if q < 0 then -x else x)

theorem floor_le_roundHalfEven (q : ℚ) : ⌊q⌋ ≤ roundHalfEven q := by
  unfold roundHalfEven
  split_ifs <;> omega

theorem roundHalfEven_le (q : ℚ) : roundHalfEven q ≤ ⌊q⌋ + 1 := by
  unfold roundHalfEven
  split_ifs <;> omega

theorem roundHalfEven_mono {q q' : ℚ} (h : q ≤ q') : roundHalfEven q ≤ roundHalfEven q' := by
  rcases (Int.floor_le_floor h).eq_or_lt with hfloor | hfloor
  · unfold roundHalfEven
    rw [hfloor]
    split_ifs <;> first | omega | (exfalso; linarith)
  · calc roundHalfEven q ≤ ⌊q⌋ + 1 := roundHalfEven_le q
      _ ≤ ⌊q'⌋ := hfloor
      _ ≤ roundHalfEven q' := floor_le_roundHalfEven q'

theorem roundHalfEven_int (n : ℤ) : roundHalfEven n = n := by
  rw [roundHalfEven, Int.floor_intCast, sub_self, if_pos (by norm_num)]

-- the exponent of the last place of the double nearest to q
def lastPlace (q : ℚ) : ℤ := max (Int.log 2 q - 52) (-1074)

theorem lastPlace_mono {q q' : ℚ} (hq : 0 < q) (h : q ≤ q') : lastPlace q ≤ lastPlace q' :=
  max_le_max_right _ (Int.sub_le_sub_right (Int.log_mono_right hq h) 52)

def rounded (q : ℚ) : ℚ := (roundHalfEven (q / 2 ^ lastPlace q) : ℚ) * 2 ^ lastPlace q

theorem rounded_mono {q q' : ℚ} (hq : 0 < q) (h : q ≤ q') : rounded q ≤ rounded q' := by
  have h2 : ∀ e : ℤ, (0 : ℚ) < 2 ^ e := fun e => zpow_pos (by norm_num) e
  rcases (lastPlace_mono hq h).eq_or_lt with hplace | hplace
  · rw [rounded, rounded, hplace]
    apply mul_le_mul_of_nonneg_right _ (h2 _).le
    exact_mod_cast roundHalfEven_mono (div_le_div_of_nonneg_right h (h2 _).le)
  · -- a power of two lies between the two numbers, and rounding does not cross it
    have hlow : (2 : ℚ) ^ (53 + lastPlace q) ≤ rounded q' := by
      have hlog : lastPlace q' = Int.log 2 q' - 52 := by
        unfold lastPlace at hplace ⊢
        omega
      have hself := Int.zpow_log_le_self (b := 2) (by norm_num) (hq.trans_le h)
      push_cast at hself
      have hround : (2 ^ 52 : ℤ) ≤ roundHalfEven (q' / 2 ^ lastPlace q') := by
        rw [← roundHalfEven_int (2 ^ 52)]
        apply roundHalfEven_mono
        rw [Int.cast_pow, Int.cast_ofNat, ← zpow_natCast, le_div_iff₀ (h2 _), hlog,
          ← zpow_add₀ (by norm_num)]
        refine le_trans (zpow_le_zpow_right₀ (by norm_num) ?_) hself
        push_cast
        omega
      calc (2 : ℚ) ^ (53 + lastPlace q) ≤ 2 ^ (52 + lastPlace q') :=
            zpow_le_zpow_right₀ (by norm_num) (by omega)
        _ = 2 ^ (52 : ℤ) * 2 ^ lastPlace q' := zpow_add₀ (by norm_num) _ _
        _ ≤ rounded q' := mul_le_mul_of_nonneg_right (by exact_mod_cast hround) (h2 _).le
    have hhigh : rounded q ≤ 2 ^ (53 + lastPlace q) := by
      have hlt := Int.lt_zpow_succ_log_self (b := 2) (by norm_num) q
      push_cast at hlt
      have hround : roundHalfEven (q / 2 ^ lastPlace q) ≤ (2 ^ 53 : ℤ) := by
        rw [← roundHalfEven_int (2 ^ 53)]
        apply roundHalfEven_mono
        rw [Int.cast_pow, Int.cast_ofNat, ← zpow_natCast, div_le_iff₀ (h2 _),
          ← zpow_add₀ (by norm_num)]
        refine hlt.le.trans (zpow_le_zpow_right₀ (by norm_num) ?_)
        unfold lastPlace
        push_cast
        omega
      calc rounded q ≤ 2 ^ (53 : ℤ) * 2 ^ lastPlace q :=
            mul_le_mul_of_nonneg_right (by exact_mod_cast hround) (h2 _).le
        _ = 2 ^ (53 + lastPlace q) := (zpow_add₀ (by norm_num) _ _).symm
    exact hhigh.trans hlow

theorem nearestDouble_eq_some {q x : ℚ} (hq : 0 < q) (h : nearestDouble q = some x) :
    x = rounded q := by
  simp only [nearestDouble, if_neg hq.ne'] at h
  split at h
  · exact (Option.some.inj h).symm
  · cases h

theorem rounded_nonneg {q : ℚ} (hq : 0 < q) : 0 ≤ rounded q := by
  have h2 : (0 : ℚ) < 2 ^ lastPlace q := zpow_pos (by norm_num) _
  apply mul_nonneg _ h2.le
  have hround := roundHalfEven_mono (div_pos hq h2).le
  rw [show (0 : ℚ) = ((0 : ℤ) : ℚ) from rfl, roundHalfEven_int] at hround
  exact_mod_cast hround

theorem nearestDouble_nonneg {q x : ℚ} (hq : 0 ≤ q) (h : nearestDouble q = some x) : 0 ≤ x := by
  rcases hq.eq_or_lt with rfl | hpos
  · rw [nearestDouble, if_pos rfl] at h
    exact (Option.some.inj h).le
  · rw [nearestDouble_eq_some hpos h]
    exact rounded_nonneg hpos

theorem nearestDouble_mono {q q' x x' : ℚ} (hq : 0 ≤ q) (h : q ≤ q')
    (hx : nearestDouble q = some x) (hx' : nearestDouble q' = some x') : x ≤ x' := by
  rcases hq.eq_or_lt with rfl | hpos
  · rw [nearestDouble, if_pos rfl] at hx
    rw [← Option.some.inj hx]
    exact nearestDouble_nonneg h hx'
  · rw [nearestDouble_eq_some hpos hx, nearestDouble_eq_some (hpos.trans_le h) hx']
    exact rounded_mono hpos h

theorem double_mono {q q' x x' : ℚ} (h : q ≤ q') (hx : double q = some x)
    (hx' : double q' = some x') : x ≤ x' := by
  obtain ⟨m, hm, rfl⟩ := Option.map_eq_some_iff.mp hx
  obtain ⟨m', hm', rfl⟩ := Option.map_eq_some_iff.mp hx'
  have hnonneg := nearestDouble_nonneg (abs_nonneg q) hm
  have hnonneg' := nearestDouble_nonneg (abs_nonneg q') hm'
  by_cases hneg : q < 0
  · rw [if_pos hneg]
    by_cases hneg' : q' < 0
    · rw [if_pos hneg']
      apply neg_le_neg
      apply nearestDouble_mono (abs_nonneg q') _ hm' hm
      rw [abs_of_neg hneg, abs_of_neg hneg']
      exact neg_le_neg h
    · rw [if_neg hneg']
      linarith only [hnonneg, hnonneg']
  · have hneg' : ¬ q' < 0 := not_lt.mpr ((not_lt.mp hneg).trans h)
    rw [if_neg hneg, if_neg hneg']
    apply nearestDouble_mono (abs_nonneg q) _ hm hm'
    rwa [abs_of_nonneg (not_lt.mp hneg), abs_of_nonneg (not_lt.mp hneg')]

-- a number that is a double, as a reading of time.time() is
structure Reading where
  seconds : ℚ
  exact : double seconds = some seconds

namespace Reading

variable {now now' : Reading}

instance : LE Reading := ⟨fun a b => a.seconds ≤ b.seconds⟩

instance (a b : Reading) : Decidable (a ≤ b) := inferInstanceAs (Decidable (a.seconds ≤ b.seconds))

-- a sum of doubles; no reading is near the point where they overflow
def plus (now : Reading) (seconds : ℚ) : ℚ :=
  (double (now.seconds + seconds)).getD (now.seconds + seconds)

-- a double below a rounded number is below the number
theorem lt_of_lt_double {q x : ℚ} (hx : double q = some x) (h : now.seconds < x) :
    now.seconds < q := by
  by_contra hle
  exact absurd (double_mono (not_lt.mp hle) hx now.exact) (not_le.mpr h)

theorem lt_of_lt_plus {seconds : ℚ} (h : now'.seconds < now.plus seconds) :
    now'.seconds < now.seconds + seconds := by
  unfold plus at h
  cases hx : double (now.seconds + seconds) with
  | none => rwa [hx] at h
  | some x =>
      rw [hx] at h
      exact lt_of_lt_double hx h

end Reading

end Python
