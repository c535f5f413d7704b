import StudyStats.Library.Rounding

/-!
# Dart doubles

The `double` of Dart: binary64 with signed zeros, infinities and a NaN. A finite double
is its exact value, a rational that rounding leaves alone, so that the arithmetic is
rational arithmetic followed by one rounding. Integers up to `2 ^ 53` are exact, and so
are their products and quotients that are integers again.
-/

namespace Dart

def binary64 : BinaryFormat := ⟨53, -1074, by norm_num⟩

/-- A binary64 number. NaN carries no payload: no operation tells two of them apart. -/
inductive Double where
  | nan
  | infinity (negative : Bool)
  | zero (negative : Bool)
  | finite (q : ℚ) (valid : q ≠ 0 ∧ binary64.round q = q ∧ |q| < 2 ^ 1024)
deriving DecidableEq

namespace Double

/-- The value of a finite double. -/
def val : Double → ℚ
  | finite q _ => q
  | _ => 0

def negative : Double → Bool
  | nan => false
  | infinity b => b
  | zero b => b
  | finite q _ => q < 0

/-- Round a rational. The flag is the sign of the zero when `q` itself is zero. -/
def ofRat (negZero : Bool) (q : ℚ) : Double :=
  if h : binary64.round q = 0 then .zero (if q = 0 then negZero else q < 0)
  else if hlt : |binary64.round q| < 2 ^ 1024 then
    .finite (binary64.round q) ⟨h, binary64.round_round q, hlt⟩
  else .infinity (q < 0)

def ofInt (n : ℤ) : Double := ofRat false n

/-! ## Arithmetic -/

def add : Double → Double → Double
  | nan, _ | _, nan => nan
  | infinity a, infinity b => if a = b then infinity a else nan
  | infinity a, _ => infinity a
  | _, infinity b => infinity b
  | zero a, zero b => zero (a && b)
  | x, y => ofRat false (x.val + y.val)

def mul (x y : Double) : Double :=
  let sign := x.negative ^^ y.negative
  match x, y with
  | nan, _ | _, nan => nan
  | infinity _, zero _ | zero _, infinity _ => nan
  | infinity _, _ | _, infinity _ => infinity sign
  | x, y => ofRat sign (x.val * y.val)

def div (x y : Double) : Double :=
  let sign := x.negative ^^ y.negative
  match x, y with
  | nan, _ | _, nan => nan
  | infinity _, infinity _ | zero _, zero _ => nan
  | infinity _, _ | _, zero _ => infinity sign
  | _, infinity _ => zero sign
  | x, y => ofRat sign (x.val / y.val)

def lt : Double → Double → Bool
  | nan, _ | _, nan => false
  | infinity a, infinity b => a && !b
  | infinity a, _ => a
  | _, infinity b => !b
  | x, y => x.val < y.val

def le : Double → Double → Bool
  | nan, _ | _, nan => false
  | infinity a, infinity b => a || !b
  | infinity a, _ => a
  | _, infinity b => !b
  | x, y => x.val ≤ y.val

/-- `x.toInt()`: truncation, clamped to the 64 bits of an `int`. -/
def toInt : Double → Option ℤ
  | nan | infinity _ => none
  | zero _ => some 0
  | finite q _ => some (max (-2 ^ 63) (min (2 ^ 63 - 1) (q.num.tdiv q.den)))

/-! ## Rounding a rational -/

theorem ofRat_of_round {q r : ℚ} {b : Bool} (h : binary64.round r = q)
    (hq : q ≠ 0 ∧ binary64.round q = q ∧ |q| < 2 ^ 1024) : ofRat b r = finite q hq := by
  subst h
  simp [ofRat, hq.1, hq.2.2]

@[simp] theorem ofRat_zero (b : Bool) : ofRat b 0 = zero b := by
  simp [ofRat]

/-! ## Integers -/

theorem round_natCast {n : ℕ} (h : n ≤ 2 ^ 53) : binary64.round n = n := by
  refine binary64.round_of_representable ⟨n, 0, ?_, by decide, by simp⟩
  rw [abs_of_nonneg (Int.natCast_nonneg n)]
  exact_mod_cast h

theorem valid_natCast {n : ℕ} (h0 : n ≠ 0) (h : n ≤ 2 ^ 53) :
    (n : ℚ) ≠ 0 ∧ binary64.round n = n ∧ |(n : ℚ)| < 2 ^ 1024 := by
  refine ⟨Nat.cast_ne_zero.mpr h0, round_natCast h, ?_⟩
  rw [abs_of_nonneg (Nat.cast_nonneg n)]
  calc (n : ℚ) ≤ 2 ^ 53 := by exact_mod_cast h
    _ < 2 ^ 1024 := pow_lt_pow_right₀ (by norm_num) (by norm_num)

theorem ofRat_natCast {n : ℕ} (h0 : n ≠ 0) (h : n ≤ 2 ^ 53) (b : Bool) :
    ofRat b n = finite n (valid_natCast h0 h) :=
  ofRat_of_round (round_natCast h) _

@[simp] theorem ofInt_zero : ofInt 0 = zero false := by simp [ofInt]

theorem ofInt_natCast {n : ℕ} (h0 : n ≠ 0) (h : n ≤ 2 ^ 53) :
    ofInt n = finite n (valid_natCast h0 h) := by
  simpa [ofInt] using ofRat_natCast h0 h false

theorem mul_ofInt {a b : ℕ} (ha : a ≤ 2 ^ 53) (hb : b ≤ 2 ^ 53) (h : a * b ≤ 2 ^ 53) :
    mul (ofInt a) (ofInt b) = ofInt ((a * b : ℕ) : ℤ) := by
  rcases eq_or_ne a 0 with rfl | ha0 <;> rcases eq_or_ne b 0 with rfl | hb0
  · simp [mul, negative, val]
  · rw [ofInt_natCast hb0 hb]; simp [mul, negative, val]
  · rw [ofInt_natCast ha0 ha]; simp [mul, negative, val]
  · rw [ofInt_natCast ha0 ha, ofInt_natCast hb0 hb, ofInt_natCast (by positivity) h]
    simp only [mul, negative, val]
    rw [← Nat.cast_mul, ofRat_natCast (by positivity) h]

theorem div_ofInt {a b : ℕ} (ha : a ≤ 2 ^ 53) (hb : b ≤ 2 ^ 53) (hb0 : b ≠ 0)
    (h : a * b ≤ 2 ^ 53) : div (ofInt ((a * b : ℕ) : ℤ)) (ofInt b) = ofInt a := by
  rcases eq_or_ne a 0 with rfl | ha0
  · rw [ofInt_natCast hb0 hb]; simp [div, negative, val]
  · rw [ofInt_natCast ha0 ha, ofInt_natCast hb0 hb, ofInt_natCast (by positivity) h]
    simp only [div, negative, val]
    rw [Nat.cast_mul, mul_div_cancel_right₀ _ (Nat.cast_ne_zero.mpr hb0), ofRat_natCast ha0 ha]

theorem toInt_ofInt {n : ℕ} (h : n ≤ 2 ^ 53) : toInt (ofInt n) = some n := by
  rcases eq_or_ne n 0 with rfl | h0
  · simp [toInt]
  · rw [ofInt_natCast h0 h]
    simp only [toInt, Rat.num_natCast, Rat.den_natCast, Nat.cast_one, Int.tdiv_one]
    congr 1
    omega

/-! ## Finite doubles -/

/-- Neither NaN nor infinite. -/
def IsFinite : Double → Prop
  | nan | infinity _ => False
  | _ => True

theorem le_eq {x y : Double} (hx : x.IsFinite) (hy : y.IsFinite) :
    le x y = decide (x.val ≤ y.val) := by
  cases x <;> cases y <;> first | rfl | exact absurd hx id | exact absurd hy id

theorem lt_eq {x y : Double} (hx : x.IsFinite) (hy : y.IsFinite) :
    lt x y = decide (x.val < y.val) := by
  cases x <;> cases y <;> first | rfl | exact absurd hx id | exact absurd hy id

/-- What rounds without overflow is finite, and its value is the rounded one. -/
theorem ofRat_finite {q : ℚ} (b : Bool) (h : |binary64.round q| < 2 ^ 1024) :
    (ofRat b q).IsFinite ∧ (ofRat b q).val = binary64.round q := by
  unfold ofRat
  split_ifs with hzero
  · exact ⟨trivial, hzero.symm⟩
  · exact ⟨trivial, hzero.symm⟩
  · exact ⟨trivial, rfl⟩

theorem round_intCast {n : ℤ} (h : |n| ≤ 2 ^ 53) : binary64.round n = n :=
  binary64.round_of_representable ⟨n, 0, h, by decide, by simp⟩

theorem ofInt_finite {n : ℤ} (h : |n| ≤ 2 ^ 53) :
    (ofInt n).IsFinite ∧ (ofInt n).val = n := by
  have hround := round_intCast h
  have hlt : |(n : ℚ)| < 2 ^ 1024 := by
    calc |(n : ℚ)| ≤ 2 ^ 53 := by exact_mod_cast h
      _ < 2 ^ 1024 := pow_lt_pow_right₀ (by norm_num) (by norm_num)
  have hspec := ofRat_finite (q := n) false (by rwa [hround])
  rwa [hround] at hspec

theorem ofInt_ne_zero {n : ℤ} (h : |n| ≤ 2 ^ 53) (h0 : n ≠ 0) :
    ∃ hq, ofInt n = finite n hq := by
  have hround := round_intCast h
  have hlt : |(n : ℚ)| < 2 ^ 1024 := by
    calc |(n : ℚ)| ≤ 2 ^ 53 := by exact_mod_cast h
      _ < 2 ^ 1024 := pow_lt_pow_right₀ (by norm_num) (by norm_num)
  exact ⟨⟨Int.cast_ne_zero.2 h0, hround, hlt⟩, ofRat_of_round hround _⟩

theorem add_ofInt {a b : ℤ} (ha : |a| ≤ 2 ^ 53) (hb : |b| ≤ 2 ^ 53) :
    add (ofInt a) (ofInt b) = ofInt (a + b) := by
  rcases eq_or_ne a 0 with rfl | ha0 <;> rcases eq_or_ne b 0 with rfl | hb0
  · simp [add]
  · obtain ⟨hq, hfinite⟩ := ofInt_ne_zero hb hb0
    rw [hfinite, ofInt_zero, zero_add]
    simp [add, val, ofInt]
  · obtain ⟨hq, hfinite⟩ := ofInt_ne_zero ha ha0
    rw [hfinite, ofInt_zero, add_zero]
    simp [add, val, ofInt]
  · obtain ⟨hqa, hfa⟩ := ofInt_ne_zero ha ha0
    obtain ⟨hqb, hfb⟩ := ofInt_ne_zero hb hb0
    rw [hfa, hfb]
    simp [add, val, ofInt]

/-- A quotient of exact integers is rounded once. -/
theorem div_ofInt_eq {a b : ℤ} (ha : |a| ≤ 2 ^ 53) (hb : |b| ≤ 2 ^ 53) (hb0 : b ≠ 0) :
    div (ofInt a) (ofInt b) = ofRat ((ofInt a).negative ^^ (ofInt b).negative) (a / b) := by
  obtain ⟨hqb, hfb⟩ := ofInt_ne_zero hb hb0
  rw [hfb]
  rcases eq_or_ne a 0 with rfl | ha0
  · rw [ofInt_zero, Int.cast_zero]
    rfl
  · obtain ⟨hqa, hfa⟩ := ofInt_ne_zero ha ha0
    rw [hfa]
    rfl

theorem abs_round_le {q : ℚ} {n : ℤ} (h : |q| ≤ n) (hn : |n| ≤ 2 ^ 53) :
    |binary64.round q| ≤ n := by
  obtain ⟨hl, hr⟩ := abs_le.1 h
  have hlow := binary64.round_mono hl
  have hhigh := binary64.round_mono hr
  rw [round_intCast hn] at hhigh
  rw [binary64.round_neg, round_intCast hn] at hlow
  exact abs_le.2 ⟨hlow, hhigh⟩

/-- The quotient of exact integers is finite. -/
theorem div_ofInt_finite {a b : ℤ} (ha : |a| ≤ 2 ^ 53) (hb : |b| ≤ 2 ^ 53) (hb0 : b ≠ 0) :
    (div (ofInt a) (ofInt b)).IsFinite ∧
      (div (ofInt a) (ofInt b)).val = binary64.round (a / b) := by
  rw [div_ofInt_eq ha hb hb0]
  refine ofRat_finite _ ?_
  have hone : (1 : ℚ) ≤ |(b : ℚ)| := by exact_mod_cast Int.one_le_abs hb0
  have hquotient : |(a / b : ℚ)| ≤ ((2 ^ 53 : ℤ) : ℚ) := by
    rw [abs_div, div_le_iff₀ (by linarith)]
    have hnum : |(a : ℚ)| ≤ ((2 ^ 53 : ℤ) : ℚ) := by exact_mod_cast ha
    exact hnum.trans (le_mul_of_one_le_right (by norm_num) hone)
  calc |binary64.round (a / b)| ≤ ((2 ^ 53 : ℤ) : ℚ) := abs_round_le hquotient (by norm_num)
    _ = 2 ^ 53 := by norm_num
    _ < 2 ^ 1024 := pow_lt_pow_right₀ (by norm_num) (by norm_num)

/-- The quotient of exact integers has the sign of the exact one. -/
theorem round_div_nonneg_iff {a b : ℤ} (hb : |b| ≤ 2 ^ 53) (hb0 : b ≠ 0) :
    0 ≤ binary64.round (a / b) ↔ (0 : ℚ) ≤ a / b := by
  refine ⟨fun h => ?_, binary64.round_nonneg⟩
  by_contra! hneg
  -- a quotient that is not zero is far above the least double
  have hpos : (0 : ℚ) < |(b : ℚ)| := abs_pos.2 (Int.cast_ne_zero.2 hb0)
  have ha0 : a ≠ 0 := by
    rintro rfl
    simp at hneg
  have hfar : (2 : ℚ) ^ (-53 : ℤ) ≤ -(a / b) := by
    rw [← abs_of_neg hneg, abs_div, le_div_iff₀ hpos]
    have hone : (1 : ℚ) ≤ |(a : ℚ)| := by exact_mod_cast Int.one_le_abs ha0
    have hb' : |(b : ℚ)| ≤ 2 ^ (53 : ℤ) := by exact_mod_cast hb
    calc (2 : ℚ) ^ (-53 : ℤ) * |(b : ℚ)| ≤ 2 ^ (-53 : ℤ) * 2 ^ (53 : ℤ) :=
          mul_le_mul_of_nonneg_left hb' (by positivity)
      _ ≤ |(a : ℚ)| := by
          norm_num
          exact hone
  have hround := binary64.round_mono hfar
  have hexact : binary64.round (2 ^ (-53 : ℤ)) = 2 ^ (-53 : ℤ) :=
    binary64.round_of_representable ⟨1, -53, by decide, by decide, by simp⟩
  have hpower : (0 : ℚ) < 2 ^ (-53 : ℤ) := by positivity
  rw [hexact, binary64.round_neg] at hround
  linarith

/-- Quotients of small integers compare as the exact ones do. -/
theorem lt_div_ofInt {a b c d : ℤ} (ha0 : 0 ≤ a) (ha : a ≤ 2 ^ 53) (hb : 0 < b) (hc0 : 0 ≤ c)
    (hc : c ≤ 8 * d) (hd : 0 < d) (hbd : b * d ≤ 2 ^ 48) :
    lt (div (ofInt a) (ofInt b)) (div (ofInt c) (ofInt d)) =
      decide ((a / b : ℚ) < c / d) := by
  have hb' : b ≤ 2 ^ 48 := (le_mul_of_one_le_right hb.le hd).trans hbd
  have hd' : d ≤ 2 ^ 48 := (le_mul_of_one_le_left hd.le hb).trans hbd
  obtain ⟨hfinite, hval⟩ := div_ofInt_finite (a := a) (b := b) (by rw [abs_of_nonneg ha0]; omega)
    (by rw [abs_of_pos hb]; omega) hb.ne'
  obtain ⟨hfinite', hval'⟩ := div_ofInt_finite (a := c) (b := d) (by rw [abs_of_nonneg hc0]; omega)
    (by rw [abs_of_pos hd]; omega) hd.ne'
  have hbpos : (0 : ℚ) < b := by exact_mod_cast hb
  have hdpos : (0 : ℚ) < d := by exact_mod_cast hd
  rw [lt_eq hfinite hfinite', hval, hval', decide_eq_decide]
  constructor
  · intro hlt
    by_contra! hle
    exact absurd (binary64.round_mono hle) (not_le.2 hlt)
  · intro hlt
    refine binary64.round_lt_round (e := -49) (by decide)
      (div_nonneg (by exact_mod_cast ha0) hbpos.le) ?_ ?_
    · have height : (c / d : ℚ) ≤ 8 := (div_le_iff₀ hdpos).2 (by exact_mod_cast hc)
      exact height.trans (by norm_num [binary64])
    · -- two fractions differ by one over the product of their denominators at least
      have hcross : a * d + 1 ≤ c * b := by
        rw [div_lt_div_iff₀ hbpos hdpos] at hlt
        exact_mod_cast hlt
      have hgap : (a / b + 1 / (b * d) : ℚ) ≤ c / d := by
        rw [div_add_div _ _ hbpos.ne' (mul_pos hbpos hdpos).ne',
          div_le_div_iff₀ (mul_pos hbpos (mul_pos hbpos hdpos)) hdpos]
        have hcast : (a * d + 1 : ℚ) ≤ c * b := by exact_mod_cast hcross
        nlinarith [mul_le_mul_of_nonneg_left hcast (mul_pos hbpos hdpos).le]
      have hunit : (2 * 2 ^ (-49 : ℤ) : ℚ) ≤ 1 / (b * d) := by
        rw [le_div_iff₀ (mul_pos hbpos hdpos)]
        have hcast : (b * d : ℚ) ≤ 2 ^ 48 := by exact_mod_cast hbd
        calc (2 * 2 ^ (-49 : ℤ) : ℚ) * (b * d) ≤ 2 * 2 ^ (-49 : ℤ) * 2 ^ 48 :=
              mul_le_mul_of_nonneg_left hcast (by positivity)
          _ = 1 := by norm_num
      linarith

end Double

end Dart
