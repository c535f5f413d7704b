import StudyStats.Drift

/-!
# The goal

`getGoalPossibility` compares the goal with the best CGPA a closed formula expects: the CGPA
so far for the semesters done and full marks for the ones left. The updates to come average
semester by semester and round each time, so their result is the formula's up to a half
hundredth for each semester left.

## Main results

* `goal_verdict` — what either verdict says about the semesters left.
-/

namespace StudyStats

open Dart StatFunction

section Formula

variable {D C : Type} [Floating D]

/-- `x == -1` -/
def isUnset (x : D) : Bool :=
  Floating.le x (Floating.ofInt (-1)) && Floating.le (Floating.ofInt (-1)) x

namespace AuthProvider

/-- The weights of the formula: the semesters left, and the ones `currentCgpa` stands for. -/
def goalWeights (auth : AuthProvider D C) : Option (ℤ × ℤ) := do
  let year ← (← auth.courseData).year
  let user ← auth.user
  let currentSemester ← getCurrentSemester D (← user.semester) (← user.level)
  let semesterLength := year * 2
  return (semesterLength - (currentSemester - 1), currentSemester - 1)

/-- `getGoalPossibility`, with the grading system of the school's file and the stored goal. -/
def getGoalPossibility (system : ℤ) (goal : String) (auth : AuthProvider D C) : Option Bool := do
  let year ← (← auth.courseData).year
  let currentGpa ← (← auth.user).currentCgpa
  if isUnset currentGpa then
    return true
  let (semesterLeft, semestersDone) ← auth.goalWeights
  let highestGpa := Floating.div
    (Floating.add (Floating.ofInt (Floating.intMul D semesterLeft system))
      (Floating.mul currentGpa (Floating.ofInt semestersDone)))
    (Floating.ofInt (year * 2))
  let goal ← Floating.parse goal
  return Floating.le goal highestGpa

end AuthProvider

end Formula

/-! ## Exact numbers -/

theorem isUnset_exact (c : ℚ) : isUnset c = decide (c = -1) := by
  have hone : (Floating.ofInt (-1) : ℚ) = -1 := by
    change ((-1 : ℤ) : ℚ) = -1
    norm_num
  have hle : ∀ x y : ℚ, Floating.le x y = decide (x ≤ y) := fun _ _ => rfl
  rw [isUnset, hone, hle, hle, ← Bool.decide_and, decide_eq_decide]
  exact le_antisymm_iff.symm

variable {C : Type} {year s : ℕ} {c : ℚ} {auth : AuthProvider ℚ C} {system : ℤ}

/-- Over exact numbers the semester number has no bound. -/
theorem getCurrentSemester_exact {s : ℕ} (h1 : 1 ≤ s) :
    getCurrentSemester ℚ (semesterOf s) (levelOf s) = some (s : ℤ) := by
  obtain ⟨k, hk⟩ : ∃ k, (s + 1) / 2 = k + 1 := ⟨(s + 1) / 2 - 1, by omega⟩
  have hlevel : Floating.mul (Floating.div (Floating.ofInt ((levelOf s : ℤ) - 100))
      (Floating.ofInt 100)) (Floating.ofInt 2) = ((2 * k : ℤ) : ℚ) := by
    change (((levelOf s : ℤ) - 100 : ℤ) : ℚ) / ((100 : ℤ) : ℚ) * ((2 : ℤ) : ℚ) = _
    rw [levelOf, hk]
    push_cast
    ring
  have htoInt : Floating.toInt ((2 * k : ℤ) : ℚ) = some (2 * k : ℤ) := by
    change some ((((2 * k : ℤ) : ℚ)).num.tdiv (((2 * k : ℤ) : ℚ)).den) = _
    rw [Rat.num_intCast, Rat.den_intCast, Nat.cast_one, Int.tdiv_one]
  simp only [getCurrentSemester, hlevel, htoInt, Option.bind_eq_bind, Option.bind_some,
    Option.pure_def]
  unfold semesterOf
  split_ifs with hodd <;> first | (exfalso; contradiction) | (congr 1; omega)

theorem Stands.goalWeights (h : Stands year s c auth) (h1 : 1 ≤ s) :
    auth.goalWeights = some (2 * (year : ℤ) - ((s : ℤ) - 1), (s : ℤ) - 1) := by
  obtain ⟨data, hdata, hyear⟩ := h.programme
  obtain ⟨user, huser, hlevel, hsemester, -⟩ := h.position
  simp only [AuthProvider.goalWeights, hdata, hyear, huser, hlevel, hsemester,
    getCurrentSemester_exact h1, Option.bind_eq_bind, Option.bind_some, Option.pure_def]
  rw [mul_comm]

/-- The formula. -/
def highestGpa (year s : ℕ) (system : ℤ) (c : ℚ) : ℚ :=
  ((2 * year - (s - 1)) * system + c * (s - 1)) / (2 * year)

theorem Stands.goalPossibility (h : Stands year s c auth) (h1 : 1 ≤ s) (goal : ℚ) :
    auth.getGoalPossibility system (Floating.toString goal) =
      some (decide (c = -1 ∨ goal ≤ highestGpa year s system c)) := by
  obtain ⟨data, hdata, hyear⟩ := h.programme
  obtain ⟨user, huser, -, -, hc⟩ := h.position
  have hweights := h.goalWeights h1
  simp only [AuthProvider.getGoalPossibility, hdata, hyear, huser, hc, hweights, isUnset_exact,
    Option.bind_eq_bind, Option.bind_some, Option.pure_def, Floating.parse_toString,
    decide_eq_true_eq]
  by_cases hunset : c = -1
  · simp [hunset]
  · have hformula : Floating.div
        (Floating.add (Floating.ofInt (Floating.intMul ℚ (2 * year - (s - 1)) system))
          (Floating.mul c (Floating.ofInt ((s : ℤ) - 1))))
        (Floating.ofInt ((year : ℤ) * 2)) = highestGpa year s system c := by
      change ((((2 * year - (s - 1)) * system : ℤ) : ℚ) + c * (((s : ℤ) - 1 : ℤ) : ℚ)) /
        (((year : ℤ) * 2 : ℤ) : ℚ) = _
      rw [highestGpa, mul_comm (2 : ℚ)]
      push_cast
      rw [mul_comm (2 : ℚ)]
    rw [if_neg hunset, hformula]
    simp only [hunset, false_or]
    rfl

/-! ## The semesters left -/

/-- From the second semester on the CGPA at the end is the formula's with the GPAs to come,
up to a half hundredth for each of them. -/
theorem abs_cgpaOver_sub_le (hs : 2 ≤ s) (hc : 0 ≤ c) {gs : List ℚ} (hgs : ∀ g ∈ gs, 0 ≤ g)
    (hlen : s + gs.length = 2 * year + 1) :
    |cgpaOver s c gs - ((s - 1) * c + gs.sum) / (2 * year)| ≤ 0.005 * gs.length := by
  have hbound := RunningMean.abs_run_sub_le Exact.abs_hundredth_sub_le hs c gs
  have hyear : (s : ℚ) - 1 + gs.length = 2 * year := by
    have : (s : ℚ) + gs.length = 2 * year + 1 := by exact_mod_cast hlen
    linarith
  rw [cgpaOver_exact (by omega) hc hgs]
  rw [hyear] at hbound
  norm_num at hbound ⊢
  exact hbound

/-- Full marks in every semester left. -/
theorem le_cgpaOver_replicate (h1 : 1 ≤ s) (hc : c = -1 ↔ s = 1)
    (hrange : s ≠ 1 → 0 ≤ c ∧ c ≤ system) (hsystem : (0 : ℚ) ≤ system) {n : ℕ}
    (hlen : s + n = 2 * year + 1) (hn : 1 ≤ n) {goal : ℚ} (hgoal : goal ≤ system)
    (hverdict : c = -1 ∨ goal ≤ highestGpa year s system c) :
    goal - 0.005 * n ≤ cgpaOver s c (List.replicate n (system : ℚ)) := by
  have hnonneg : ∀ k, ∀ g ∈ List.replicate k (system : ℚ), 0 ≤ g := fun k g hg =>
    List.eq_of_mem_replicate hg ▸ hsystem
  have hn0 : (0 : ℚ) ≤ n := Nat.cast_nonneg n
  by_cases hs : s = 1
  · -- nothing is recorded yet, and the mean of full marks is full marks
    subst hs
    obtain ⟨k, rfl⟩ := Nat.exists_eq_add_of_le hn
    rw [hc.2 rfl, add_comm 1 k, List.replicate_succ,
      cgpaOver_first (List.forall_mem_cons.2 ⟨hsystem, hnonneg k⟩), RunningMean.run_replicate
        (Exact.hundredth_intCast system) (by omega)]
    have : (0 : ℚ) ≤ (k + 1 : ℕ) := Nat.cast_nonneg _
    linarith
  · have hle := hverdict.resolve_left fun h => hs (hc.1 h)
    have hlen' : s + (List.replicate n (system : ℚ)).length = 2 * year + 1 := by
      rwa [List.length_replicate]
    have hbound := abs_cgpaOver_sub_le (by omega) (hrange hs).1 (hnonneg n) hlen'
    rw [List.length_replicate, List.sum_replicate, nsmul_eq_mul] at hbound
    have hleft : (n : ℚ) = 2 * year - (s - 1) := by
      have : (s : ℚ) + n = 2 * year + 1 := by exact_mod_cast hlen
      linarith
    have hformula : ((s - 1) * c + n * system) / (2 * year) = highestGpa year s system c := by
      rw [highestGpa, hleft]
      ring
    rw [hformula] at hbound
    linarith [(abs_le.1 hbound).1]

/-- Whatever is still to come ends at most a half hundredth for each semester above the
formula. -/
theorem cgpaOver_lt (hs : 2 ≤ s) (hc : 0 ≤ c) {gs : List ℚ}
    (hgs : ∀ g ∈ gs, 0 ≤ g ∧ g ≤ system) (hlen : s + gs.length = 2 * year + 1) (hy : 1 ≤ year)
    {goal : ℚ} (hverdict : highestGpa year s system c < goal) :
    cgpaOver s c gs < goal + 0.005 * gs.length := by
  have hbound := abs_cgpaOver_sub_le hs hc (fun g hg => (hgs g hg).1) hlen
  have hsum : gs.sum ≤ gs.length * system := by
    have := List.sum_le_card_nsmul gs (system : ℚ) fun g hg => (hgs g hg).2
    rwa [nsmul_eq_mul] at this
  have hleft : (gs.length : ℚ) = 2 * year - (s - 1) := by
    have : (s : ℚ) + gs.length = 2 * year + 1 := by exact_mod_cast hlen
    linarith
  have hpos : (0 : ℚ) < 2 * year := by positivity
  have hmean : ((s - 1) * c + gs.sum) / (2 * year) ≤ highestGpa year s system c := by
    refine div_le_div_of_nonneg_right ?_ hpos.le
    rw [← hleft]
    linarith
  linarith [(abs_le.1 hbound).2]

/-- In a semester that is not recorded yet, `getGoalPossibility` answers. A no means that no
GPAs in the semesters left reach the goal, and a yes that full marks in all of them do, up to
a half hundredth for each. -/
theorem goal_verdict (hy1 : 1 ≤ year) (hy : year ≤ 9) (h1 : 1 ≤ s) (h2 : s ≤ 2 * year)
    (system : ℤ) (hc : c = -1 ↔ s = 1) (hrange : s ≠ 1 → 0 ≤ c ∧ c ≤ system) (goal : ℚ)
    (hgoal0 : 0 ≤ goal) (hgoal : goal ≤ system) (hstands : Stands year s c auth) :
    ∃ verdict, auth.getGoalPossibility system (Floating.toString goal) = some verdict ∧
      (verdict = false → ∀ gs : List ℚ, gs.length = 2 * year - s + 1 →
        (∀ g ∈ gs, 0 ≤ g ∧ g ≤ system) →
        ∃ auth' c', Machine.run AuthProvider.record gs auth = some auth' ∧
          auth'.currentCgpa = some c' ∧ c' < goal + 0.005 * (2 * year - s + 1 : ℕ)) ∧
      (verdict = true →
        ∃ auth' c', Machine.run AuthProvider.record
            (List.replicate (2 * year - s + 1) (system : ℚ)) auth = some auth' ∧
          auth'.currentCgpa = some c' ∧ goal - 0.005 * (2 * year - s + 1 : ℕ) ≤ c') := by
  refine ⟨_, hstands.goalPossibility h1 goal, fun hno gs hlen hgs => ?_, fun hyes => ?_⟩
  · obtain ⟨hset, hlt⟩ := not_or.1 (of_decide_eq_false hno)
    have hs : 2 ≤ s := by
      have : s ≠ 1 := fun h => hset (hc.2 h)
      omega
    obtain ⟨auth', hrun, h'⟩ := hstands.run hy h1 h2 gs (by omega)
    refine ⟨auth', _, hrun, h'.currentCgpa_eq, ?_⟩
    rw [← hlen]
    exact cgpaOver_lt hs (hrange (by omega)).1 hgs (by omega) hy1 (not_le.1 hlt)
  · obtain ⟨auth', hrun, h'⟩ := hstands.run hy h1 h2
      (List.replicate (2 * year - s + 1) (system : ℚ)) (by rw [List.length_replicate]; omega)
    refine ⟨auth', _, hrun, h'.currentCgpa_eq, ?_⟩
    exact le_cgpaOver_replicate h1 hc hrange (hgoal0.trans hgoal) (by omega) (by omega) hgoal
      (of_decide_eq_true hyes)

/-- A second-year student with a CGPA of 3.5. -/
def sophomore : AuthProvider ℚ (List Course) :=
  { newcomer with user := newcomer.user.map fun user =>
      { user with level := some 200, currentCgpa := some (7 / 2) } }

/-- Full marks in the six semesters left reach 4.5, as the verdict says. -/
theorem goal_verdict_sophomore :
    sophomore.getGoalPossibility 5 (Floating.toString (9 / 2 : ℚ)) = some true ∧
    ∃ auth' c', Machine.run AuthProvider.record (List.replicate 6 5) sophomore = some auth' ∧
      auth'.currentCgpa = some c' ∧ 9 / 2 - 0.005 * (6 : ℕ) ≤ c' := by
  have hstands : Stands 4 3 (7 / 2) sophomore := ⟨⟨_, rfl, rfl⟩, _, rfl, rfl, rfl, rfl⟩
  have hyes : sophomore.getGoalPossibility 5 (Floating.toString (9 / 2 : ℚ)) = some true := by
    decide +kernel
  obtain ⟨verdict, hverdict, -, hreach⟩ := goal_verdict (by decide) (by decide) (by decide)
    (by decide) 5 (by norm_num) (by norm_num) (9 / 2) (by norm_num) (by norm_num) hstands
  exact ⟨hyes, hreach (Option.some.inj (hverdict.symm.trans hyes))⟩

end StudyStats
