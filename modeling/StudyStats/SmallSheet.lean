import StudyStats.Screens
import StudyStats.Sheet

/-!
# Small sheets

The GPA in Dart's own numbers. As long as the units are small enough, every product and
every sum of `getResult` is an exact integer, and the GPA is one rounding away from the
quotient of two integers.

## Main results

* `SmallSheet.inRange_iff` — when the GPA is a number of the grading system.
* `SmallSheet.quotient_bounds` — units of one sign keep the quotient between 0 and 5.
* `SmallSheet.earned_against_neg` — units of both signs do not.
-/

namespace StudyStats

open Dart StatFunction

/-! ## The loop -/

/-- The units of all courses, without their signs. -/
def magnitude (courses : List Course) : ℤ := (courses.map fun c => |c.credit|).sum

theorem magnitude_cons (c : Course) (courses : List Course) :
    magnitude (c :: courses) = |c.credit| + magnitude courses := by
  simp [magnitude]

theorem magnitude_nonneg (courses : List Course) : 0 ≤ magnitude courses :=
  List.sum_nonneg (by simp)

/-- All units, and units times points, as integers. -/
def credits (courses : List Course) : ℤ := (courses.map Course.credit).sum

def creditPoints (courses : List Course) (points : List ℤ) : ℤ :=
  ((courses.zip points).map fun p => p.1.credit * p.2).sum

theorem creditPoints_cons (c : Course) (courses : List Course) (s : ℤ) (points : List ℤ) :
    creditPoints (c :: courses) (s :: points) =
      c.credit * s + creditPoints courses points := by
  simp [creditPoints]

theorem abs_credits_le (courses : List Course) : |credits courses| ≤ magnitude courses := by
  induction courses with
  | nil => simp [credits, magnitude]
  | cons c cs ih =>
    rw [magnitude_cons, credits, List.map_cons, List.sum_cons]
    exact (abs_add_le _ _).trans (add_le_add le_rfl ih)

theorem abs_mul_score_le {n s : ℤ} (h0 : 0 ≤ s) (h5 : s ≤ 5) : |n * s| ≤ 5 * |n| := by
  rw [abs_mul, abs_of_nonneg h0, mul_comm]
  exact mul_le_mul_of_nonneg_right h5 (abs_nonneg n)

theorem abs_creditPoints_le (courses : List Course) {points : List ℤ}
    (h : ∀ s ∈ points, 0 ≤ s ∧ s ≤ 5) :
    |creditPoints courses points| ≤ 5 * magnitude courses := by
  induction courses generalizing points with
  | nil => simp [creditPoints, magnitude]
  | cons c cs ih =>
    cases points with
    | nil =>
      have := magnitude_nonneg (c :: cs)
      simpa [creditPoints] using this
    | cons s ss =>
      obtain ⟨hs, hss⟩ := List.forall_mem_cons.1 h
      have hfirst : |c.credit * s| ≤ 5 * |c.credit| := abs_mul_score_le hs.1 hs.2
      have hsum := abs_add_le (c.credit * s) (creditPoints cs ss)
      have hrest := ih hss
      rw [creditPoints_cons, magnitude_cons]
      omega

/-- Every sum the loop makes is an exact integer. -/
theorem getResultLoop_double {courses : List Course} {points : List ℤ} (x y : ℤ)
    (hlen : points.length = courses.length) (hunits : ∀ c ∈ courses, c.units = .int c.credit)
    (hpoints : ∀ s ∈ points, 0 ≤ s ∧ s ≤ 5) (hx : |x| + 5 * magnitude courses ≤ 2 ^ 53)
    (hy : |y| + 5 * magnitude courses ≤ 2 ^ 53) :
    getResultLoop Double courses points (.ofInt x) (.ofInt y) =
      some (.ofInt (x + creditPoints courses points), .ofInt (y + credits courses)) := by
  induction courses generalizing points x y with
  | nil => simp [getResultLoop, creditPoints, credits]
  | cons c cs ih =>
    obtain ⟨s, ss, rfl⟩ := List.exists_cons_of_length_eq_add_one hlen
    obtain ⟨hs, hss⟩ := List.forall_mem_cons.1 hpoints
    obtain ⟨hc, hcs⟩ := List.forall_mem_cons.1 hunits
    have hproduct : |c.credit * s| ≤ 5 * |c.credit| := abs_mul_score_le hs.1 hs.2
    have hrest := magnitude_nonneg cs
    have hx0 := abs_nonneg x
    have hy0 := abs_nonneg y
    have hc0 := abs_nonneg c.credit
    have hxs := abs_add_le x (c.credit * s)
    have hyc := abs_add_le y c.credit
    rw [magnitude_cons] at hx hy
    have hwrap : Floating.intMul Double c.credit s = c.credit * s :=
      wrap64_eq (by omega)
    have haddX : Floating.add (Double.ofInt x) (Floating.ofInt (c.credit * s)) =
        Double.ofInt (x + c.credit * s) := Double.add_ofInt (by omega) (by omega)
    have haddY : Floating.add (Double.ofInt y) (Floating.ofInt c.credit) =
        Double.ofInt (y + c.credit) := Double.add_ofInt (by omega) (by omega)
    rw [getResultLoop, hc]
    dsimp only
    rw [hwrap, haddX, haddY, ih _ _ (by simpa using hlen) hcs hss (by omega) (by omega),
      creditPoints_cons, credits, credits, List.map_cons, List.sum_cons, add_assoc, add_assoc]

/-- A text among the units throws. -/
theorem getResultLoop_text {courses : List Course} {points : List ℤ} {D : Type} [Floating D]
    (x y : D) {c : Course} (hc : c ∈ courses) {text : String} (htext : c.units = .text text) :
    getResultLoop D courses points x y = none := by
  induction courses generalizing points x y with
  | nil => simp at hc
  | cons c' cs ih =>
    cases points with
    | nil => rfl
    | cons s ss =>
      rw [getResultLoop]
      rcases List.mem_cons.1 hc with rfl | hc
      · rw [htext]
      · split
        · exact ih _ _ hc
        · rfl

/-! ## The GPA -/

/-- The divisor is not zero, and the GPA that comes out is a number of the grading system. -/
def ResultInRange (system : ℤ) (courses : List Course) (scores : List String) : Prop :=
  ∃ uXg units text x,
    getResultLoop Double courses (convertGradeToScore scores system) (.ofInt 0) (.ofInt 0) =
      some (uXg, units) ∧ (∀ b, units ≠ .zero b) ∧
    getResult Double scores system courses = some text ∧ Double.parse text = some x ∧
    Double.le (.ofInt 0) x ∧ Double.le x (.ofInt system)

/-- A graded list of integer units, so small that every product and every sum is exact. -/
structure SmallSheet (courses : List Course) (scores : List String) : Prop where
  small : 5 * magnitude courses ≤ 2 ^ 53
  length_eq : scores.length = courses.length
  known : ∀ g ∈ scores, (gradeScore g).isSome
  units : ∀ c ∈ courses, c.units = .int c.credit

namespace SmallSheet

variable {courses : List Course} {scores : List String} {system : ℤ}

/-- Units times points of the grades. -/
def earned (courses : List Course) (scores : List String) : ℤ :=
  creditPoints courses (scores.filterMap gradeScore)

theorem score_range {g : String} {s : ℤ} (h : gradeScore g = some s) : 0 ≤ s ∧ s ≤ 5 := by
  unfold gradeScore at h
  split at h <;> cases h <;> decide

theorem scores_range : ∀ s ∈ scores.filterMap gradeScore, 0 ≤ s ∧ s ≤ 5 := by
  intro s hs
  obtain ⟨g, -, hg⟩ := List.mem_filterMap.1 hs
  exact score_range hg

theorem abs_earned_le (h : SmallSheet courses scores) : |earned courses scores| ≤ 2 ^ 53 :=
  (abs_creditPoints_le courses scores_range).trans h.small

theorem abs_credits_le (h : SmallSheet courses scores) : |credits courses| ≤ 2 ^ 53 := by
  have := StudyStats.abs_credits_le courses
  have := magnitude_nonneg courses
  have := h.small
  omega

theorem loop_eq (h : SmallSheet courses scores) :
    getResultLoop Double courses (convertGradeToScore scores system) (.ofInt 0) (.ofInt 0) =
      some (.ofInt (earned courses scores), .ofInt (credits courses)) := by
  have hlen : (scores.filterMap gradeScore).length = courses.length := by
    rw [length_filterMap_of_isSome h.known, h.length_eq]
  have hbound : |(0 : ℤ)| + 5 * magnitude courses ≤ 2 ^ 53 := by
    rw [abs_zero, zero_add]
    exact h.small
  have hloop := getResultLoop_double 0 0 hlen h.units scores_range hbound hbound
  rwa [zero_add, zero_add] at hloop

/-- The GPA. -/
def quotient (courses : List Course) (scores : List String) : Double :=
  Double.div (.ofInt (earned courses scores)) (.ofInt (credits courses))

theorem result_eq (h : SmallSheet courses scores) :
    getResult Double scores system courses =
      some (Double.toString (quotient courses scores)) := by
  have hzero : (Floating.ofInt 0 : Double) = .ofInt 0 := rfl
  rw [getResult, hzero, h.loop_eq]
  rfl

theorem quotient_range_iff (h : SmallSheet courses scores) (hU : credits courses ≠ 0)
    (hsystem : |system| ≤ 2 ^ 53) :
    Double.le (.ofInt 0) (quotient courses scores) ∧
        Double.le (quotient courses scores) (.ofInt system) ↔
      (0 : ℚ) ≤ earned courses scores / credits courses ∧
        binary64.round (earned courses scores / credits courses) ≤ system := by
  obtain ⟨hfinite, hval⟩ := Double.div_ofInt_finite h.abs_earned_le h.abs_credits_le hU
  obtain ⟨hzero, hval0⟩ := Double.ofInt_finite (n := 0) (by norm_num)
  obtain ⟨hsys, hvalSys⟩ := Double.ofInt_finite hsystem
  rw [quotient, Double.le_eq hzero hfinite, Double.le_eq hfinite hsys, hval, hval0, hvalSys,
    decide_eq_true_eq, decide_eq_true_eq, Int.cast_zero,
    Double.round_div_nonneg_iff h.abs_credits_le hU]

theorem inRange_iff (h : SmallSheet courses scores) (hsystem : |system| ≤ 2 ^ 53) :
    ResultInRange system courses scores ↔ credits courses ≠ 0 ∧
      (0 : ℚ) ≤ earned courses scores / credits courses ∧
      binary64.round (earned courses scores / credits courses) ≤ system := by
  constructor
  · rintro ⟨uXg, units, text, x, hloop, hne, htext, hparse, hle⟩
    rw [h.loop_eq, Option.some.injEq, Prod.mk.injEq] at hloop
    obtain ⟨rfl, rfl⟩ := hloop
    rw [h.result_eq, Option.some.injEq] at htext
    rw [← htext, Double.parse_toString, Option.some.injEq] at hparse
    have hU : credits courses ≠ 0 := by
      intro hU
      rw [hU, Double.ofInt_zero] at hne
      exact hne false rfl
    rw [← hparse] at hle
    exact ⟨hU, (h.quotient_range_iff hU hsystem).1 hle⟩
  · rintro ⟨hU, hle⟩
    obtain ⟨hq, hfinite⟩ := Double.ofInt_ne_zero h.abs_credits_le hU
    refine ⟨_, _, _, _, h.loop_eq, ?_, h.result_eq, Double.parse_toString _,
      (h.quotient_range_iff hU hsystem).2 hle⟩
    intro b
    rw [hfinite]
    exact nofun

/-! ## Units of one sign -/

/-- `ε` turns all units to the positive side. -/
theorem earned_bounds {ε : ℤ} (hsign : ∀ c ∈ courses, 0 ≤ ε * c.credit) {points : List ℤ}
    (hlen : points.length = courses.length) (hpoints : ∀ s ∈ points, 0 ≤ s ∧ s ≤ 5) :
    0 ≤ ε * creditPoints courses points ∧
      ε * creditPoints courses points ≤ 5 * (ε * credits courses) := by
  induction courses generalizing points with
  | nil => simp [creditPoints, credits]
  | cons c cs ih =>
    obtain ⟨s, ss, rfl⟩ := List.exists_cons_of_length_eq_add_one hlen
    obtain ⟨hs, hss⟩ := List.forall_mem_cons.1 hpoints
    obtain ⟨hc, hcs⟩ := List.forall_mem_cons.1 hsign
    obtain ⟨hlow, hhigh⟩ := ih hcs (by simpa using hlen) hss
    have hcredits : credits (c :: cs) = c.credit + credits cs := by simp [credits]
    rw [creditPoints_cons, hcredits]
    constructor <;> nlinarith [mul_nonneg hc hs.1, mul_nonneg hc (sub_nonneg.2 hs.2)]

theorem quotient_bounds (h : SmallSheet courses scores) (hU : credits courses ≠ 0)
    (hsign : (∀ c ∈ courses, 0 ≤ c.credit) ∨ ∀ c ∈ courses, c.credit ≤ 0) :
    (0 : ℚ) ≤ earned courses scores / credits courses ∧
      (earned courses scores / credits courses : ℚ) ≤ 5 := by
  obtain ⟨ε, hε, hcredit⟩ : ∃ ε : ℤ, ε ≠ 0 ∧ ∀ c ∈ courses, 0 ≤ ε * c.credit := by
    rcases hsign with hpos | hneg
    · exact ⟨1, one_ne_zero, fun c hc => by simpa using hpos c hc⟩
    · exact ⟨-1, by decide, fun c hc => by simpa using hneg c hc⟩
  have hlen : (scores.filterMap gradeScore).length = courses.length := by
    rw [length_filterMap_of_isSome h.known, h.length_eq]
  obtain ⟨hlow, hhigh⟩ := earned_bounds hcredit hlen scores_range
  have hUnonneg : 0 ≤ ε * credits courses := by linarith
  have hUpos : 0 < ε * credits courses := lt_of_le_of_ne hUnonneg (mul_ne_zero hε hU).symm
  have hscaled : (earned courses scores / credits courses : ℚ) =
      ((ε * earned courses scores : ℤ) : ℚ) / ((ε * credits courses : ℤ) : ℚ) := by
    push_cast
    rw [mul_div_mul_left _ _ (Int.cast_ne_zero.2 hε)]
  have hpos : (0 : ℚ) < ((ε * credits courses : ℤ) : ℚ) := by exact_mod_cast hUpos
  rw [hscaled]
  constructor
  · exact div_nonneg (by exact_mod_cast hlow) hpos.le
  · rw [div_le_iff₀ hpos]
    exact_mod_cast hhigh

/-! ## Grades that show what is wrong -/

theorem filterMap_map {pick : Course → String} {val : Course → ℤ}
    (hpick : ∀ c, gradeScore (pick c) = some (val c)) (courses : List Course) :
    (courses.map pick).filterMap gradeScore = courses.map val := by
  induction courses with
  | nil => rfl
  | cons c cs ih => rw [List.map_cons, List.filterMap_cons_some (hpick c), ih, List.map_cons]

theorem earned_map {pick : Course → String} {val : Course → ℤ}
    (hpick : ∀ c, gradeScore (pick c) = some (val c)) (courses : List Course) :
    earned courses (courses.map pick) = (courses.map fun c => c.credit * val c).sum := by
  rw [earned, filterMap_map hpick]
  induction courses with
  | nil => rfl
  | cons c cs ih => rw [List.map_cons, creditPoints_cons, ih, List.map_cons, List.sum_cons]

/-- An A in every course is five points whatever the units. -/
theorem round_all_A (hU : credits courses ≠ 0) :
    binary64.round (earned courses (courses.map fun _ => "A") / credits courses) = 5 := by
  have hearned : earned courses (courses.map fun _ => "A") = credits courses * 5 := by
    have hpick : ∀ c : Course, gradeScore "A" = some ((fun _ => 5) c) := fun _ => rfl
    rw [earned_map hpick, List.sum_map_mul_right, credits]
  have hfive : (earned courses (courses.map fun _ => "A") / credits courses : ℚ) =
      ((5 : ℤ) : ℚ) := by
    rw [hearned]
    push_cast
    exact mul_div_cancel_left₀ _ (Int.cast_ne_zero.2 hU)
  rw [hfive, Double.round_intCast (by norm_num)]
  norm_num

/-- An A where the units pull against the total, an F elsewhere. -/
def against (courses : List Course) (c : Course) : String :=
  if c.credit * credits courses < 0 then "A" else "F"

theorem earned_against_neg {c : Course} (hc : c ∈ courses)
    (hneg : c.credit * credits courses < 0) :
    (earned courses (courses.map (against courses)) / credits courses : ℚ) < 0 := by
  have hpick : ∀ c, gradeScore (against courses c) =
      some (if c.credit * credits courses < 0 then 5 else 0) := by
    intro c
    unfold against
    split_ifs <;> rfl
  have hsum : (courses.map fun c => c.credit * (if c.credit * credits courses < 0 then 5 else 0) *
      credits courses).sum < (courses.map fun _ => (0 : ℤ)).sum := by
    refine List.sum_lt_sum _ _ (fun c' _ => ?_) ⟨c, hc, ?_⟩
    · split_ifs <;> linarith
    · rw [if_pos hneg]
      linarith
  have hproduct : earned courses (courses.map (against courses)) * credits courses < 0 := by
    rw [earned_map hpick, ← List.sum_map_mul_right]
    simpa using hsum
  rw [div_neg_iff]
  rcases mul_neg_iff.1 hproduct with ⟨hpos, hneg⟩ | ⟨hneg, hpos⟩
  · exact .inl ⟨by exact_mod_cast hpos, by exact_mod_cast hneg⟩
  · exact .inr ⟨by exact_mod_cast hneg, by exact_mod_cast hpos⟩

end SmallSheet

end StudyStats
