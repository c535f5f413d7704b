import Mathlib.Data.Int.Log
import Mathlib.Data.Rat.Floor
import Mathlib.Algebra.Order.Field.Power
import Mathlib.Tactic

/-!
# Rounding rationals to a binary floating-point format

A format is a precision and a least exponent; there is no greatest exponent here,
overflow is decided by whoever packs the result. Rounding goes to the nearest
multiple of the unit in the last place, ties to even. The two facts a client needs
are that representable values are fixed and that every rounded value is representable.

## Main definitions

* `roundEven` — nearest integer, ties to even.
* `roundAway` — nearest integer, ties away from zero.
* `BinaryFormat.round` — nearest value of the format.
* `BinaryFormat.Representable` — the values the format holds.
-/

/-- The integer nearest to `q`, the even one of the two when `q` is half way. -/
def roundEven (q : ℚ) : ℤ :=
  if q - ⌊q⌋ < 1 / 2 then ⌊q⌋
  else if 1 / 2 < q - ⌊q⌋ then ⌊q⌋ + 1
  else if ⌊q⌋ % 2 = 0 then ⌊q⌋ else ⌊q⌋ + 1

@[simp] theorem roundEven_intCast (n : ℤ) : roundEven n = n := by
  simp [roundEven]

theorem floor_le_roundEven (q : ℚ) : ⌊q⌋ ≤ roundEven q := by
  unfold roundEven; split_ifs <;> omega

theorem roundEven_le_floor_add_one (q : ℚ) : roundEven q ≤ ⌊q⌋ + 1 := by
  unfold roundEven; split_ifs <;> omega

theorem roundEven_mono {p q : ℚ} (h : p ≤ q) : roundEven p ≤ roundEven q := by
  rcases (Int.floor_mono h).lt_or_eq with hlt | heq
  · have := roundEven_le_floor_add_one p
    have := floor_le_roundEven q
    omega
  · -- the same unit interval, so only the fractional parts decide
    have hf : p - ⌊p⌋ ≤ q - ⌊q⌋ := by rw [heq]; linarith
    unfold roundEven
    rw [heq] at hf ⊢
    split_ifs <;> first | omega | (exfalso; linarith)

/-- Ties go to the even side from above as from below. -/
theorem roundEven_neg (q : ℚ) : roundEven (-q) = -roundEven q := by
  by_cases hint : q = ⌊q⌋
  · rw [hint, ← Int.cast_neg, roundEven_intCast, roundEven_intCast]
  have hfloor : ⌊-q⌋ = -⌊q⌋ - 1 := by
    have hle := Int.floor_le q
    have hlt := Int.lt_floor_add_one q
    have hne : (⌊q⌋ : ℚ) < q := lt_of_le_of_ne hle fun h => hint h.symm
    rw [Int.floor_eq_iff]
    push_cast
    exact ⟨by linarith, by linarith⟩
  unfold roundEven
  rw [hfloor]
  push_cast
  split_ifs <;> first | omega | (exfalso; linarith)

theorem roundEven_le {q : ℚ} {n : ℤ} (h : q ≤ n) : roundEven q ≤ n := by
  simpa using roundEven_mono h

theorem le_roundEven {q : ℚ} {n : ℤ} (h : (n : ℚ) ≤ q) : n ≤ roundEven q := by
  simpa using roundEven_mono h

theorem abs_roundEven_le {q : ℚ} {n : ℤ} (h : |q| ≤ n) : |roundEven q| ≤ n := by
  obtain ⟨hl, hr⟩ := abs_le.mp h
  refine abs_le.mpr ⟨le_roundEven (by push_cast; exact hl), roundEven_le hr⟩

/-! ## Ties away from zero -/

/-- The integer nearest to `q`, the one farther from zero when `q` is half way. -/
def roundAway (q : ℚ) : ℤ := if q < 0 then -⌊|q| + 1 / 2⌋ else ⌊|q| + 1 / 2⌋

@[simp] theorem roundAway_intCast (n : ℤ) : roundAway n = n := by
  unfold roundAway
  have hfloor : ⌊|(n : ℚ)| + 1 / 2⌋ = |n| := by
    rw [← Int.cast_abs, Int.floor_intCast_add]
    norm_num
  rw [hfloor]
  split_ifs with hn
  · rw [abs_of_neg (by exact_mod_cast hn), neg_neg]
  · exact abs_of_nonneg (by exact_mod_cast not_lt.1 hn)

theorem abs_roundAway_sub_le (q : ℚ) : |roundAway q - q| ≤ 1 / 2 := by
  have hle := Int.floor_le (|q| + 1 / 2)
  have hlt := Int.lt_floor_add_one (|q| + 1 / 2)
  unfold roundAway
  split_ifs with hq
  · rw [abs_of_neg hq] at *
    push_cast
    exact abs_le.2 ⟨by linarith, by linarith⟩
  · rw [abs_of_nonneg (not_lt.1 hq)] at *
    exact abs_le.2 ⟨by linarith, by linarith⟩

theorem roundAway_mono : Monotone roundAway := by
  intro p q h
  have hzero : ∀ x : ℚ, 0 ≤ ⌊|x| + 1 / 2⌋ := fun x => Int.floor_nonneg.2 (by positivity)
  unfold roundAway
  split_ifs with hp hq hq
  · rw [abs_of_neg hp, abs_of_neg hq]
    exact neg_le_neg (Int.floor_mono (by linarith))
  · have := hzero p
    have := hzero q
    omega
  · exact absurd (h.trans_lt hq) hp
  · rw [abs_of_nonneg (not_lt.1 hp), abs_of_nonneg (not_lt.1 hq)]
    exact Int.floor_mono (by linarith)

/-- A binary format: significands of `precision` bits, scaled by `2 ^ e` with `emin ≤ e`. -/
structure BinaryFormat where
  precision : ℕ
  emin : ℤ
  precision_pos : 0 < precision

namespace BinaryFormat

variable (f : BinaryFormat)

/-- The exponent of the unit in the last place at the magnitude of `q`. -/
def exponent (q : ℚ) : ℤ :=
  max (Int.log 2 |q| + 1 - f.precision) f.emin

/-- The value of the format nearest to `q`. -/
def round (q : ℚ) : ℚ :=
  roundEven (q / 2 ^ f.exponent q) * 2 ^ f.exponent q

/-- Some significand within the precision and some exponent not below the least one. -/
def Representable (q : ℚ) : Prop :=
  ∃ m e : ℤ, |m| ≤ 2 ^ f.precision ∧ f.emin ≤ e ∧ q = m * 2 ^ e

theorem emin_le_exponent (q : ℚ) : f.emin ≤ f.exponent q := le_max_right _ _

@[simp] theorem round_zero : f.round 0 = 0 := by
  simp [round, show roundEven 0 = 0 from roundEven_intCast 0]

/-- The scaled significand stays below the precision. -/
theorem abs_div_exponent_le (q : ℚ) : |q / 2 ^ f.exponent q| ≤ (2 ^ f.precision : ℤ) := by
  have hpos : (0 : ℚ) < 2 ^ f.exponent q := by positivity
  rw [abs_div, abs_of_pos hpos, div_le_iff₀ hpos]
  have hlog : |q| < 2 ^ (Int.log 2 |q| + 1) := by
    simpa using Int.lt_zpow_succ_log_self (b := 2) (by norm_num) |q|
  have hexp : Int.log 2 |q| + 1 ≤ f.precision + f.exponent q := by
    have : Int.log 2 |q| + 1 - f.precision ≤ f.exponent q := le_max_left _ _
    omega
  calc |q| ≤ 2 ^ (Int.log 2 |q| + 1) := hlog.le
    _ ≤ 2 ^ ((f.precision : ℤ) + f.exponent q) := zpow_le_zpow_right₀ (by norm_num) hexp
    _ = ((2 ^ f.precision : ℤ) : ℚ) * 2 ^ f.exponent q := by
      rw [zpow_add₀ (by norm_num), zpow_natCast]; push_cast; rfl

theorem representable_round (q : ℚ) : f.Representable (f.round q) :=
  ⟨_, _, abs_roundEven_le (f.abs_div_exponent_le q), f.emin_le_exponent q, rfl⟩

/-- A multiple of its own unit is rounded to itself. -/
theorem round_of_eq_mul {q : ℚ} {n : ℤ} (h : q = n * 2 ^ f.exponent q) : f.round q = q := by
  have hdiv : q / 2 ^ f.exponent q = n := by
    rw [div_eq_iff (by positivity)]; exact h
  rw [round, hdiv, roundEven_intCast, ← h]

/-- Representable values are fixed by rounding. -/
theorem round_of_representable {q : ℚ} (h : f.Representable q) : f.round q = q := by
  obtain ⟨m, e, hm, he, rfl⟩ := h
  rcases eq_or_ne m 0 with rfl | hm0
  · simp
  have hpos : (0 : ℚ) < 2 ^ e := by positivity
  have habs : |(m : ℚ) * 2 ^ e| = |m| * 2 ^ e := by rw [abs_mul, abs_of_pos hpos]; simp
  have hne : (0 : ℚ) < |(m : ℚ) * 2 ^ e| := by
    rw [habs]; have : (0 : ℚ) < |(m : ℚ)| := by simpa using hm0
    push_cast; positivity
  have hm' : (|m| : ℚ) ≤ 2 ^ f.precision := by exact_mod_cast hm
  have hle : |(m : ℚ) * 2 ^ e| ≤ 2 ^ ((f.precision : ℤ) + e) := by
    rw [habs, zpow_add₀ (by norm_num), zpow_natCast]
    push_cast
    exact mul_le_mul_of_nonneg_right hm' hpos.le
  -- the largest significand is a power of two and moves the unit up by one place
  rcases hle.lt_or_eq with hlt | heq
  · have hlog : Int.log 2 |(m : ℚ) * 2 ^ e| < f.precision + e :=
      (Int.lt_zpow_iff_log_lt (by norm_num) hne).mp (by simpa using hlt)
    have hexp : f.exponent (m * 2 ^ e) ≤ e := max_le (by omega) he
    obtain ⟨k, hk⟩ := Int.eq_ofNat_of_zero_le (sub_nonneg.mpr hexp)
    refine f.round_of_eq_mul (n := m * 2 ^ k) ?_
    have he' : e = (k : ℤ) + f.exponent (m * 2 ^ e) := by omega
    conv_lhs => rw [he', zpow_add₀ (by norm_num), zpow_natCast]
    push_cast
    ring
  · have hlog : Int.log 2 |(m : ℚ) * 2 ^ e| = f.precision + e := by
      rw [heq]; simpa using Int.log_zpow (R := ℚ) (b := 2) (by norm_num) (f.precision + e)
    have hexp : f.exponent (m * 2 ^ e) = e + 1 := by
      unfold exponent; rw [hlog]; omega
    have hsig : |m| = 2 ^ f.precision := by
      rw [habs, zpow_add₀ (by norm_num), zpow_natCast] at heq
      have := mul_right_cancel₀ hpos.ne' heq
      exact_mod_cast this
    obtain ⟨n, hn⟩ : (2 : ℤ) ∣ m :=
      (dvd_abs 2 m).mp (hsig ▸ dvd_pow_self 2 f.precision_pos.ne')
    refine f.round_of_eq_mul (n := n) ?_
    rw [hexp, zpow_add_one₀ (by norm_num), hn]
    push_cast
    ring

/-! ## Monotonicity -/

theorem exponent_neg (q : ℚ) : f.exponent (-q) = f.exponent q := by
  unfold exponent
  rw [abs_neg]

theorem round_neg (q : ℚ) : f.round (-q) = -f.round q := by
  rw [round, round, exponent_neg, neg_div, roundEven_neg]
  push_cast
  ring

theorem round_nonneg {q : ℚ} (h : 0 ≤ q) : 0 ≤ f.round q := by
  have hscaled : 0 ≤ roundEven (q / 2 ^ f.exponent q) :=
    le_roundEven (by push_cast; positivity)
  unfold round
  positivity

theorem exponent_mono {p q : ℚ} (hp : 0 < p) (h : p ≤ q) : f.exponent p ≤ f.exponent q := by
  unfold exponent
  rw [abs_of_pos hp, abs_of_pos (hp.trans_le h)]
  have := Int.log_mono_right (b := 2) hp h
  omega

/-- Below a greater unit a rounded value is at most the power of two where that unit starts. -/
theorem round_le_of_exponent_lt {p q : ℚ} (h : f.exponent p < f.exponent q) :
    f.round p ≤ 2 ^ (f.precision - 1 : ℤ) * 2 ^ f.exponent q := by
  have hsig := (abs_le.1 (abs_roundEven_le (f.abs_div_exponent_le p))).2
  have hexp : (f.precision : ℤ) + f.exponent p ≤ f.precision - 1 + f.exponent q := by omega
  calc f.round p ≤ ((2 ^ f.precision : ℤ) : ℚ) * 2 ^ f.exponent p := by
        unfold round
        exact mul_le_mul_of_nonneg_right (by exact_mod_cast hsig) (by positivity)
    _ = 2 ^ ((f.precision : ℤ) + f.exponent p) := by
        rw [zpow_add₀ (by norm_num), zpow_natCast]
        push_cast
        rfl
    _ ≤ 2 ^ ((f.precision : ℤ) - 1 + f.exponent q) := zpow_le_zpow_right₀ (by norm_num) hexp
    _ = 2 ^ (f.precision - 1 : ℤ) * 2 ^ f.exponent q := zpow_add₀ (by norm_num) _ _

/-- Above the least unit a significand has the full precision. -/
theorem le_round_of_lt_exponent {q : ℚ} (hq : 0 < q) (h : f.emin < f.exponent q) :
    2 ^ (f.precision - 1 : ℤ) * 2 ^ f.exponent q ≤ f.round q := by
  have hlog : f.precision - 1 + f.exponent q = Int.log 2 q := by
    unfold exponent at h ⊢
    rw [abs_of_pos hq] at h ⊢
    omega
  have hpower : (2 : ℚ) ^ (f.precision - 1 : ℤ) * 2 ^ f.exponent q ≤ q := by
    rw [← zpow_add₀ (by norm_num), hlog]
    exact Int.zpow_log_le_self (by norm_num) hq
  have hpos : (0 : ℚ) < 2 ^ f.exponent q := by positivity
  have hnat : (2 : ℚ) ^ (f.precision - 1 : ℤ) = ((2 ^ (f.precision - 1) : ℤ) : ℚ) := by
    have := f.precision_pos
    rw [show (f.precision : ℤ) - 1 = ((f.precision - 1 : ℕ) : ℤ) by omega, zpow_natCast]
    push_cast
    rfl
  have hsig : (2 ^ (f.precision - 1) : ℤ) ≤ roundEven (q / 2 ^ f.exponent q) := by
    refine le_roundEven ?_
    rw [← hnat, le_div_iff₀ hpos]
    exact hpower
  rw [hnat, round]
  exact mul_le_mul_of_nonneg_right (by exact_mod_cast hsig) hpos.le

theorem round_mono_of_pos {p q : ℚ} (hp : 0 < p) (h : p ≤ q) : f.round p ≤ f.round q := by
  rcases (f.exponent_mono hp h).lt_or_eq with hlt | heq
  · exact (f.round_le_of_exponent_lt hlt).trans
      (f.le_round_of_lt_exponent (hp.trans_le h) ((f.emin_le_exponent p).trans_lt hlt))
  · have hpos : (0 : ℚ) < 2 ^ f.exponent q := by positivity
    have hsig : roundEven (p / 2 ^ f.exponent q) ≤ roundEven (q / 2 ^ f.exponent q) :=
      roundEven_mono (div_le_div_of_nonneg_right h hpos.le)
    rw [round, round, heq]
    exact mul_le_mul_of_nonneg_right (by exact_mod_cast hsig) hpos.le

theorem round_mono : Monotone f.round := by
  intro p q h
  rcases lt_or_ge 0 p with hp | hp
  · exact f.round_mono_of_pos hp h
  have hround : f.round p ≤ 0 := by
    have := f.round_nonneg (neg_nonneg.2 hp)
    rw [round_neg] at this
    linarith
  rcases lt_or_ge q 0 with hq | hq
  · have := f.round_mono_of_pos (neg_pos.2 hq) (neg_le_neg h)
    rw [round_neg, round_neg] at this
    linarith
  · exact hround.trans (f.round_nonneg hq)

theorem round_round (q : ℚ) : f.round (f.round q) = f.round q :=
  f.round_of_representable (f.representable_round q)

/-- Numbers two units of a grid apart stay apart, if the grid is fine enough to round to. -/
theorem round_lt_round {p q : ℚ} {e : ℤ} (he : f.emin ≤ e) (h0 : 0 ≤ p)
    (hq : q ≤ 2 ^ f.precision * 2 ^ e) (h : p + 2 * 2 ^ e ≤ q) : f.round p < f.round q := by
  have hunit : (0 : ℚ) < 2 ^ e := by positivity
  -- the first point of the grid above `p`, and the one after it
  set n := ⌈p / 2 ^ e⌉ with hn
  have hn0 : 0 ≤ n := Int.ceil_nonneg (div_nonneg h0 hunit.le)
  have hp : p ≤ n * 2 ^ e := (div_le_iff₀ hunit).1 (Int.le_ceil _)
  have hnp : (n : ℚ) * 2 ^ e < p + 2 ^ e := by
    have hceil := Int.ceil_lt_add_one (p / 2 ^ e)
    calc (n : ℚ) * 2 ^ e < (p / 2 ^ e + 1) * 2 ^ e := mul_lt_mul_of_pos_right hceil hunit
      _ = p + 2 ^ e := by rw [add_mul, div_mul_cancel₀ _ hunit.ne', one_mul]
  have hnext : ((n + 1 : ℤ) : ℚ) * 2 ^ e ≤ q := by
    push_cast
    linarith
  have hbound : n + 1 ≤ 2 ^ f.precision := by
    have hmul : ((n + 1 : ℤ) : ℚ) ≤ ((2 ^ f.precision : ℤ) : ℚ) := by
      push_cast
      refine le_of_mul_le_mul_right ?_ hunit
      exact_mod_cast hnext.trans hq
    exact_mod_cast hmul
  have hgrid : ∀ m : ℤ, 0 ≤ m → m ≤ n + 1 → f.round (m * 2 ^ e) = m * 2 ^ e := by
    intro m hm hle
    exact f.round_of_representable ⟨m, e, by rw [abs_of_nonneg hm]; omega, he, rfl⟩
  calc f.round p ≤ f.round (n * 2 ^ e) := f.round_mono hp
    _ = n * 2 ^ e := hgrid n hn0 (by omega)
    _ < (n + 1 : ℤ) * 2 ^ e := mul_lt_mul_of_pos_right (by exact_mod_cast lt_add_one n) hunit
    _ = f.round ((n + 1 : ℤ) * 2 ^ e) := (hgrid (n + 1) (by omega) le_rfl).symm
    _ ≤ f.round q := f.round_mono hnext

end BinaryFormat
