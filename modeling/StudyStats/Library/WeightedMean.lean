import Mathlib.Algebra.BigOperators.Group.List.Basic
import Mathlib.Algebra.Order.BigOperators.Group.List
import Mathlib.Data.Finset.Max
import Mathlib.Tactic

/-!
# Weighted means of lists

The mean of a list of weighted values, `∑ wᵢ vᵢ / ∑ wᵢ`. With non-negative weights of
positive total it lies between the values that count, and it follows each of them.

## Main results

* `WeightedMean.mean_perm`, `WeightedMean.mean_of_weight_zero` — what the mean does not look at.
* `WeightedMean.exists_le_mean`, `WeightedMean.exists_mean_le` — some counting value is
  the least, and below the mean; some is the greatest, and above it.
* `WeightedMean.mean_mono`, `WeightedMean.mean_lt_mean` — greater values, greater mean.
-/

namespace WeightedMean

variable {K : Type*} [Field K]

/-- The total weight; the weight of a pair is its first component. -/
def weight (l : List (K × K)) : K := (l.map Prod.fst).sum

/-- The weighted sum of the values. -/
def moment (l : List (K × K)) : K := (l.map fun p => p.1 * p.2).sum

def mean (l : List (K × K)) : K := moment l / weight l

@[simp] theorem weight_cons (p : K × K) (l : List (K × K)) :
    weight (p :: l) = p.1 + weight l := by
  simp [weight]

@[simp] theorem moment_cons (p : K × K) (l : List (K × K)) :
    moment (p :: l) = p.1 * p.2 + moment l := by
  simp [moment]

@[simp] theorem weight_nil : weight ([] : List (K × K)) = 0 := rfl

@[simp] theorem moment_nil : moment ([] : List (K × K)) = 0 := rfl

theorem weight_append (l m : List (K × K)) : weight (l ++ m) = weight l + weight m := by
  simp [weight]

theorem moment_append (l m : List (K × K)) : moment (l ++ m) = moment l + moment m := by
  simp [moment]

/-! ## Symmetry -/

theorem mean_perm {l m : List (K × K)} (h : l.Perm m) : mean l = mean m := by
  unfold mean weight moment
  rw [(h.map Prod.fst).sum_eq, (h.map fun p => p.1 * p.2).sum_eq]

/-- A value of weight zero does not count. -/
theorem mean_of_weight_zero (l m : List (K × K)) (v : K) :
    mean (l ++ (0, v) :: m) = mean (l ++ m) := by
  simp [mean, weight_append, moment_append]

/-! ## Order -/

variable [LinearOrder K] [IsStrictOrderedRing K]

/-- A bound on the values that count, scaled by the total weight. -/
theorem mul_weight_le_moment {l : List (K × K)} {lo : K} (h : ∀ p ∈ l, 0 ≤ p.1)
    (hlo : ∀ p ∈ l, 0 < p.1 → lo ≤ p.2) : lo * weight l ≤ moment l := by
  induction l with
  | nil => simp
  | cons p l ih =>
    have hrest := ih (fun q hq => h q (List.mem_cons_of_mem _ hq))
      fun q hq => hlo q (List.mem_cons_of_mem _ hq)
    have hp : p.1 * lo ≤ p.1 * p.2 := by
      rcases (h p List.mem_cons_self).eq_or_lt with hzero | hpos
      · rw [← hzero, zero_mul, zero_mul]
      · exact mul_le_mul_of_nonneg_left (hlo p List.mem_cons_self hpos) hpos.le
    rw [weight_cons, moment_cons]
    linarith

theorem moment_le_mul_weight {l : List (K × K)} {hi : K} (h : ∀ p ∈ l, 0 ≤ p.1)
    (hhi : ∀ p ∈ l, 0 < p.1 → p.2 ≤ hi) : moment l ≤ hi * weight l := by
  induction l with
  | nil => simp
  | cons p l ih =>
    have hrest := ih (fun q hq => h q (List.mem_cons_of_mem _ hq))
      fun q hq => hhi q (List.mem_cons_of_mem _ hq)
    have hp : p.1 * p.2 ≤ p.1 * hi := by
      rcases (h p List.mem_cons_self).eq_or_lt with hzero | hpos
      · rw [← hzero, zero_mul, zero_mul]
      · exact mul_le_mul_of_nonneg_left (hhi p List.mem_cons_self hpos) hpos.le
    rw [weight_cons, moment_cons]
    linarith

theorem le_mean {l : List (K × K)} {lo : K} (h : ∀ p ∈ l, 0 ≤ p.1) (hpos : 0 < weight l)
    (hlo : ∀ p ∈ l, 0 < p.1 → lo ≤ p.2) : lo ≤ mean l :=
  (le_div_iff₀ hpos).2 (mul_weight_le_moment h hlo)

theorem mean_le {l : List (K × K)} {hi : K} (h : ∀ p ∈ l, 0 ≤ p.1) (hpos : 0 < weight l)
    (hhi : ∀ p ∈ l, 0 < p.1 → p.2 ≤ hi) : mean l ≤ hi :=
  (div_le_iff₀ hpos).2 (moment_le_mul_weight h hhi)

/-- A list of positive total has a pair that counts. -/
theorem exists_weight_pos {l : List (K × K)} (hpos : 0 < weight l) : ∃ p ∈ l, 0 < p.1 := by
  have hsum : (l.map fun _ => (0 : K)).sum < (l.map Prod.fst).sum := by simpa [weight] using hpos
  exact List.exists_lt_of_sum_lt _ _ hsum

/-- The least of the values that count is at most the mean. -/
theorem exists_le_mean {l : List (K × K)} (h : ∀ p ∈ l, 0 ≤ p.1) (hpos : 0 < weight l) :
    ∃ p ∈ l, 0 < p.1 ∧ (∀ q ∈ l, 0 < q.1 → p.2 ≤ q.2) ∧ p.2 ≤ mean l := by
  obtain ⟨p₀, hp₀, hp₀pos⟩ := exists_weight_pos hpos
  obtain ⟨p, hp, hmin⟩ := (l.filter fun p => 0 < p.1).toFinset.exists_min_image Prod.snd
    ⟨p₀, by simpa using ⟨hp₀, hp₀pos⟩⟩
  simp only [List.mem_toFinset, List.mem_filter, decide_eq_true_eq, and_imp] at hp hmin
  exact ⟨p, hp.1, hp.2, hmin, le_mean h hpos hmin⟩

theorem exists_mean_le {l : List (K × K)} (h : ∀ p ∈ l, 0 ≤ p.1) (hpos : 0 < weight l) :
    ∃ p ∈ l, 0 < p.1 ∧ (∀ q ∈ l, 0 < q.1 → q.2 ≤ p.2) ∧ mean l ≤ p.2 := by
  obtain ⟨p₀, hp₀, hp₀pos⟩ := exists_weight_pos hpos
  obtain ⟨p, hp, hmax⟩ := (l.filter fun p => 0 < p.1).toFinset.exists_max_image Prod.snd
    ⟨p₀, by simpa using ⟨hp₀, hp₀pos⟩⟩
  simp only [List.mem_toFinset, List.mem_filter, decide_eq_true_eq, and_imp] at hp hmax
  exact ⟨p, hp.1, hp.2, hmax, mean_le h hpos hmax⟩

/-! ## Greater values -/

/-- The same non-negative weights, and values that are at least as great. -/
abbrev Raised (l m : List (K × K)) : Prop :=
  List.Forall₂ (fun p q => p.1 = q.1 ∧ 0 ≤ p.1 ∧ p.2 ≤ q.2) l m

omit [IsStrictOrderedRing K] in
theorem Raised.weight_eq {l m : List (K × K)} (h : Raised l m) : weight l = weight m := by
  induction h with
  | nil => rfl
  | cons hpq _ ih => rw [weight_cons, weight_cons, hpq.1, ih]

theorem Raised.moment_le {l m : List (K × K)} (h : Raised l m) : moment l ≤ moment m := by
  induction h with
  | nil => rfl
  | cons hpq _ ih =>
    obtain ⟨hweight, hnonneg, hvalue⟩ := hpq
    rw [moment_cons, moment_cons, ← hweight]
    have := mul_le_mul_of_nonneg_left hvalue hnonneg
    linarith

theorem mean_mono {l m : List (K × K)} (h : Raised l m) (hpos : 0 < weight l) :
    mean l ≤ mean m := by
  unfold mean
  rw [← h.weight_eq]
  exact div_le_div_of_nonneg_right h.moment_le hpos.le

/-- Raising one value that counts raises the mean. -/
theorem mean_lt_mean {l m : List (K × K)} {w v v' : K} (hw : 0 < w) (hv : v < v')
    (hpos : 0 < weight (l ++ (w, v) :: m)) :
    mean (l ++ (w, v) :: m) < mean (l ++ (w, v') :: m) := by
  have hweight : weight (l ++ (w, v') :: m) = weight (l ++ (w, v) :: m) := by
    rw [weight_append, weight_append, weight_cons, weight_cons]
  unfold mean
  rw [hweight, div_lt_div_iff_of_pos_right hpos, moment_append, moment_append, moment_cons,
    moment_cons]
  have := mul_lt_mul_of_pos_left hv hw
  linarith

end WeightedMean
