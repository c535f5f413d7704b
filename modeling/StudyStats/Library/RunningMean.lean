import Mathlib.Algebra.Order.Field.Basic
import Mathlib.Tactic

/-!
# Running means that are rounded

The mean of `s` values is computed from the mean of the first `s - 1` and the last one, and
rounded, so that each rounding goes into every later mean. For a rounding that moves a
number by at most `ε` the error of the sum grows by `s * ε` in the `s`-th step, and a
monotone rounding keeps the order of two runs.

## Main definitions

* `RunningMean.step`, `RunningMean.run` — one step, and the steps over a list of values.

## Main results

* `RunningMean.drift`, `RunningMean.abs_run_sub_le` — the distance to the exact mean.
* `RunningMean.step_mono` — a greater value gives a greater mean.
-/

namespace RunningMean

variable {K : Type*} [Field K]

/-- The `s`-th mean. -/
def step (round : K → K) (s : ℕ) (a g : K) : K := round ((a * (s - 1) + g) / s)

/-- The means from the `s`-th on. -/
def run (round : K → K) : ℕ → K → List K → K
  | _, a, [] => a
  | s, a, g :: gs => run round (s + 1) (step round s a g) gs

/-- `s + (s + 1) + …`, `n` summands. -/
def arith (K : Type*) [Field K] : ℕ → ℕ → K
  | _, 0 => 0
  | s, n + 1 => s + arith K (s + 1) n

theorem two_mul_arith (s n : ℕ) : 2 * arith K s n = n * (2 * s + n - 1) := by
  induction n generalizing s with
  | zero => simp [arith]
  | succ n ih =>
    rw [arith, mul_add, ih]
    push_cast
    ring

variable [LinearOrder K] [IsStrictOrderedRing K] {round : K → K} {ε : K}

theorem arith_le (s n : ℕ) : arith K s n ≤ n * (s + n - 1) := by
  have htwo := two_mul_arith (K := K) s n
  have hn : (0 : K) ≤ n := Nat.cast_nonneg n
  have hs : (0 : K) ≤ n * (n - 1) := by
    cases n with
    | zero => simp
    | succ n => push_cast; rw [add_sub_cancel_right]; positivity
  nlinarith

/-- One step: the sum of the first `s` values is missed by `ε * s` more than before. -/
theorem abs_step_sub_le (hround : ∀ x, |round x - x| ≤ ε) {s : ℕ} (hs : 1 ≤ s) (a g : K) :
    |s * step round s a g - ((s - 1) * a + g)| ≤ ε * s := by
  have hpos : (0 : K) < s := by exact_mod_cast hs
  have hexact : (s : K) * ((a * (s - 1) + g) / s) = (s - 1) * a + g := by
    rw [mul_div_cancel₀ _ hpos.ne']
    ring
  calc |s * step round s a g - ((s - 1) * a + g)|
      = |s * (round ((a * (s - 1) + g) / s) - (a * (s - 1) + g) / s)| := by
        rw [mul_sub, hexact, step]
    _ = s * |round ((a * (s - 1) + g) / s) - (a * (s - 1) + g) / s| := by
        rw [abs_mul, abs_of_pos hpos]
    _ ≤ s * ε := mul_le_mul_of_nonneg_left (hround _) hpos.le
    _ = ε * s := mul_comm _ _

/-- From a mean `a` of `s - 1` values on, the sum after `n` more is missed by
`ε * (s + … + (s + n - 1))`. -/
theorem drift (hround : ∀ x, |round x - x| ≤ ε) {s : ℕ} (hs : 1 ≤ s) (a : K) (gs : List K) :
    |((s : K) - 1 + gs.length) * run round s a gs - ((s - 1) * a + gs.sum)| ≤
      ε * arith K s gs.length := by
  induction gs generalizing s a with
  | nil => simp [run, arith]
  | cons g gs ih =>
    have hrest := ih (s := s + 1) (by omega) (step round s a g)
    have hstep := abs_step_sub_le hround hs a g
    simp only [run, arith, List.length_cons, List.sum_cons]
    push_cast at hrest ⊢
    -- the triangle inequality over the sum after this step
    calc |((s : K) - 1 + (gs.length + 1)) * run round (s + 1) (step round s a g) gs -
          ((s - 1) * a + (g + gs.sum))|
        = |(((s : K) + 1 - 1 + gs.length) * run round (s + 1) (step round s a g) gs -
            ((s + 1 - 1) * step round s a g + gs.sum)) +
            (s * step round s a g - ((s - 1) * a + g))| := by
          congr 1; ring
      _ ≤ ε * arith K (s + 1) gs.length + ε * s := (abs_add_le _ _).trans (add_le_add hrest hstep)
      _ = ε * (s + arith K (s + 1) gs.length) := by ring

/-- The same for the mean itself: each of `n` roundings moves it by at most `ε`. -/
theorem abs_run_sub_le (hround : ∀ x, |round x - x| ≤ ε) {s : ℕ} (hs : 2 ≤ s) (a : K)
    (gs : List K) :
    |run round s a gs - ((s - 1) * a + gs.sum) / ((s : K) - 1 + gs.length)| ≤
      ε * gs.length := by
  have hε : 0 ≤ ε := (abs_nonneg _).trans (hround 0)
  have htwo : (2 : K) ≤ s := by exact_mod_cast hs
  have hn : (0 : K) ≤ gs.length := Nat.cast_nonneg _
  have hpos : (0 : K) < s - 1 + gs.length := by linarith
  have hscaled : run round s a gs - ((s - 1) * a + gs.sum) / ((s : K) - 1 + gs.length) =
      (((s : K) - 1 + gs.length) * run round s a gs - ((s - 1) * a + gs.sum)) /
        ((s : K) - 1 + gs.length) := by
    field_simp
  rw [hscaled, abs_div, abs_of_pos hpos, div_le_iff₀ hpos]
  calc |((s : K) - 1 + gs.length) * run round s a gs - ((s - 1) * a + gs.sum)|
      ≤ ε * arith K s gs.length := drift hround (by omega) a gs
    _ ≤ ε * (gs.length * (s + gs.length - 1)) :=
        mul_le_mul_of_nonneg_left (arith_le s gs.length) hε
    _ = ε * gs.length * (s - 1 + gs.length) := by ring

omit [LinearOrder K] [IsStrictOrderedRing K] in
/-- A mean that rounding leaves alone stays where it is. -/
theorem run_replicate [CharZero K] {a : K} (ha : round a = a) {s : ℕ} (hs : 1 ≤ s) (n : ℕ) :
    run round s a (List.replicate n a) = a := by
  induction n generalizing s with
  | zero => rfl
  | succ n ih =>
    have hstep : step round s a a = a := by
      have hne : (s : K) ≠ 0 := Nat.cast_ne_zero.2 (by omega)
      have hexact : (a * (s - 1) + a) / s = a := by
        field_simp
        ring
      rw [step, hexact, ha]
    rw [List.replicate_succ, run, hstep]
    exact ih (by omega)

/-! ## Order -/

theorem step_mono (hround : Monotone round) {s : ℕ} (hs : 1 ≤ s) {a b g h : K} (hab : a ≤ b)
    (hgh : g ≤ h) : step round s a g ≤ step round s b h := by
  have hpred : (0 : K) ≤ s - 1 := sub_nonneg.2 (by exact_mod_cast hs)
  refine hround (div_le_div_of_nonneg_right ?_ (Nat.cast_nonneg s))
  exact add_le_add (mul_le_mul_of_nonneg_right hab hpred) hgh

end RunningMean
