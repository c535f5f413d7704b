import StudyStats.SmallSheet
import StudyStats.Surpassed
import StudyStats.WeightedGpa

/-!
# The quick assessment

The result page of the quick calculator puts the GPA into one of four bands. All their ends are
open and they do not meet, and what no band holds is assessed as the lowest.

## Main definitions

* `QuickFunction.getQuickResult` — what the page says.
* `Sheet.Unbanded` — no band holds the GPA of the sheet.

## Main results

* `neverWorse_iff` — the better grades that are assessed at least as well.
-/

namespace StudyStats

open Dart StatFunction WeightedMean

variable {D : Type} [Floating D]

variable (D) in
/-- A literal with two digits: the number nearest to so many hundredths. -/
def literal (hundredths : ℤ) : D :=
  Floating.div (Floating.ofInt hundredths) (Floating.ofInt 100)

/-- `Cgpa > lo && Cgpa < hi`, over literals. -/
def within (lo hi : ℤ) (Cgpa : D) : Bool :=
  Floating.lt (literal D lo) Cgpa && Floating.lt Cgpa (literal D hi)

variable (D) in
def QuickFunction.getQuickResult (cgpa : String) : Option ResultText := do
  let Cgpa : D ← Floating.parse cgpa
  if within 400 500 Cgpa then
    return {
      title := "Exemplary Achievement"
      body := "Your GPA of " ++ cgpa ++ " is a testament to your hard work and dedication to " ++
        "your studies. This outstanding performance places you at the pinnacle of academic " ++
        "excellence. Continue to challenge yourself and explore deeper insights into your " ++
        "subjects. Remember, the pursuit of knowledge is endless, and your potential is " ++
        "limitless. Maintain this impressive momentum, and don't hesitate to share your " ++
        "learning strategies with peers. Your journey is inspiring" }
  else if within 350 399 Cgpa then
    return {
      title := "Strong Performance"
      body := "With a GPA of " ++ cgpa ++ ", you're demonstrating a solid commitment to your " ++
        "academic pursuits. This is a strong foundation, but there's room to elevate your " ++
        "achievement to the next level. Identify areas where you can deepen your understanding " ++
        "and seek resources that can help enrich your learning. Participation in study groups " ++
        "and engaging in discussions can also enhance your comprehension. Keep up the good " ++
        "work, and aim for continuous improvement." }
  else if within 250 349 Cgpa then
    return {
      title := "Steady Progress"
      body := "A GPA of " ++ cgpa ++ " reflects steady academic progress. You're on the right " ++
        "track, showing good potential. To enhance your performance, consider reviewing your " ++
        "study habits and time management strategies. Explore different learning methods to " ++
        "find what works best for you, and don't hesitate to ask for feedback from " ++
        "instructors. Remember, every step forward is a step towards your goals. Believe in " ++
        "your ability to improve and keep pushing forward" }
  else if within 200 249 Cgpa then
    return {
      title := "Room for Improvement"
      body := "Your GPA of " ++ cgpa ++ " indicates that there are areas requiring your " ++
        "attention and effort. This is an opportunity to reassess your study strategies and " ++
        "identify the challenges you're facing. Seek support from teachers and peers, and " ++
        "consider utilizing academic resources available to you. Improvement is a gradual " ++
        "process, and every effort counts. Set small, achievable goals and celebrate your " ++
        "progress. Your potential is untapped, and with persistence, you will see positive " ++
        "changes." }
  else
    return {
      title := "Time for Reflection and Action"
      body := "A GPA of " ++ cgpa ++ " signals a crucial moment for reflection and " ++
        "strategizing. It's important to recognize the barriers to your academic success and " ++
        "actively seek ways to overcome them. Academic challenges can be daunting, but they " ++
        "are not insurmountable. Reach out for support from academic advisors, utilize " ++
        "tutoring services, and consider developing a personalized study plan. Your journey " ++
        "is unique, and with dedication and resilience, you can turn your situation around. " ++
        "Remember, every great comeback starts with a decision to try again" }

variable (D) in
/-- The title of the page that the Calculate button opens over a sheet. -/
def QuickResult.title (system : ℤ) (sheet : Sheet) : Option String := do
  let result ← getResult D sheet.grades system sheet.courses
  return (← QuickFunction.getQuickResult D result).title

/-! ## Bands of exact means -/

/-- The titles from the worst to the best. -/
def titles : List String :=
  ["Time for Reflection and Action", "Room for Improvement", "Steady Progress",
    "Strong Performance", "Exemplary Achievement"]

/-- The number of the title over an exact mean. -/
def rank (m : ℚ) : ℕ :=
  if 4 < m ∧ m < 5 then 4
  else if 7 / 2 < m ∧ m < 399 / 100 then 3
  else if 5 / 2 < m ∧ m < 349 / 100 then 2
  else if 2 < m ∧ m < 249 / 100 then 1
  else 0

/-- No band holds the mean. -/
def Unranked (m : ℚ) : Prop :=
  m ≤ 2 ∨ (249 / 100 ≤ m ∧ m ≤ 5 / 2) ∨ (349 / 100 ≤ m ∧ m ≤ 7 / 2) ∨
    (399 / 100 ≤ m ∧ m ≤ 4) ∨ 5 ≤ m

theorem rank_eq_zero_iff {m : ℚ} : rank m = 0 ↔ Unranked m := by
  unfold rank Unranked
  split_ifs <;> grind

/-- Between two bands the higher mean has the higher rank. -/
theorem rank_mono {m m' : ℚ} (h : m ≤ m') (h' : rank m' ≠ 0) : rank m ≤ rank m' := by
  revert h'
  unfold rank
  split_ifs <;> grind

theorem rank_le_iff {m m' : ℚ} (h : m ≤ m') : rank m ≤ rank m' ↔ (Unranked m' → Unranked m) := by
  rw [← rank_eq_zero_iff, ← rank_eq_zero_iff]
  by_cases h' : rank m' = 0
  · rw [h']
    simp
  · simp [h', rank_mono h h']

/-- `m` is the exact value of `x` as far as the comparisons of `getQuickResult` go. -/
structure Represents (x : D) (m : ℚ) : Prop where
  above : ∀ k ∈ [200, 250, 350, 400], Floating.lt (literal D k) x = decide ((k / 100 : ℚ) < m)
  below : ∀ k ∈ [249, 349, 399, 500], Floating.lt x (literal D k) = decide (m < (k / 100 : ℚ))

theorem Represents.title_eq {x : D} {m : ℚ} (h : Represents x m) :
    (QuickFunction.getQuickResult D (Floating.toString x)).map ResultText.title =
      titles[rank m]? := by
  have hband : ∀ lo ∈ [200, 250, 350, 400], ∀ hi ∈ [249, 349, 399, 500],
      within lo hi x = decide ((lo / 100 : ℚ) < m ∧ m < (hi / 100 : ℚ)) := by
    intro lo hlo hi hhi
    rw [within, h.above lo hlo, h.below hi hhi, Bool.decide_and]
  have h4 : within 400 500 x = decide (4 < m ∧ m < 5) :=
    (hband 400 (by simp) 500 (by simp)).trans (by norm_num)
  have h3 : within 350 399 x = decide (7 / 2 < m ∧ m < 399 / 100) :=
    (hband 350 (by simp) 399 (by simp)).trans (by norm_num)
  have h2 : within 250 349 x = decide (5 / 2 < m ∧ m < 349 / 100) :=
    (hband 250 (by simp) 349 (by simp)).trans (by norm_num)
  have h1 : within 200 249 x = decide (2 < m ∧ m < 249 / 100) :=
    (hband 200 (by simp) 249 (by simp)).trans (by norm_num)
  simp only [QuickFunction.getQuickResult, Floating.parse_toString, Option.bind_eq_bind,
    Option.bind_some, h1, h2, h3, h4, rank, decide_eq_true_eq]
  split_ifs <;> rfl

/-! ## Sheets -/

/-- No band holds the points of the sheet: by units they are at most 2.0, at least 5.0, or
between the ends of two bands. -/
def Sheet.Unbanded (sheet : Sheet) : Prop :=
  let units := credits sheet.courses
  let total := SmallSheet.earned sheet.courses sheet.grades
  total ≤ 2 * units ∨ (249 * units ≤ 100 * total ∧ 2 * total ≤ 5 * units) ∨
    (349 * units ≤ 100 * total ∧ 2 * total ≤ 7 * units) ∨
    (399 * units ≤ 100 * total ∧ total ≤ 4 * units) ∨ 5 * units ≤ total

instance (sheet : Sheet) : Decidable sheet.Unbanded := inferInstanceAs (Decidable (_ ∨ _))

namespace Sheet

variable (sheet : Sheet)

theorem moment_lines :
    moment sheet.lines = (SmallSheet.earned sheet.courses sheet.grades : ℤ) := by
  have hscores : sheet.grades.filterMap gradeScore = sheet.grades.map points := sheet.scores_eq
  rw [moment, lines, graded, SmallSheet.earned, creditPoints, hscores, List.zip_map_right,
    List.map_map, List.map_map, Int.cast_list_sum, List.map_map]
  congr 1
  refine List.map_congr_left fun p _ => ?_
  simp [line]

theorem mean_lines : mean sheet.lines =
    SmallSheet.earned sheet.courses sheet.grades / credits sheet.courses := by
  rw [mean, moment_lines, weight_lines, credits]

theorem unranked_mean_iff : Unranked (mean sheet.lines) ↔ sheet.Unbanded := by
  have hunits : (0 : ℚ) < credits sheet.courses := by exact_mod_cast sheet.total_pos
  have hcast : ∀ a b : ℤ, a ≤ b ↔ (a : ℚ) ≤ b := fun _ _ => Int.cast_le.symm
  simp only [mean_lines, Unranked, Unbanded, div_le_iff₀ hunits, le_div_iff₀ hunits, hcast]
  push_cast
  grind

/-- The exact GPA represents itself. -/
theorem represents_exact : Represents (gpa ℚ sheet) (mean sheet.lines) := by
  rw [gpa_eq_mean]
  exact ⟨fun _ _ => rfl, fun _ _ => rfl⟩

theorem smallSheet (h : credits sheet.courses ≤ 2 ^ 41) :
    SmallSheet sheet.courses sheet.grades where
  small := by
    have hmagnitude : magnitude sheet.courses = credits sheet.courses := by
      unfold magnitude credits
      congr 1
      exact List.map_congr_left fun c hc => abs_of_nonneg (sheet.units_nonneg c hc).2
    omega
  length_eq := sheet.length_eq
  known := sheet.known
  units c hc := (sheet.units_nonneg c hc).1

/-- A double that is one rounding away from the mean falls into the same band. -/
theorem represents_double (h : credits sheet.courses ≤ 2 ^ 41) :
    Represents (SmallSheet.quotient sheet.courses sheet.grades) (mean sheet.lines) := by
  have hunits : 0 < credits sheet.courses := sheet.total_pos
  obtain ⟨hlow, hhigh⟩ : 0 ≤ SmallSheet.earned sheet.courses sheet.grades ∧
      SmallSheet.earned sheet.courses sheet.grades ≤ 5 * credits sheet.courses := by
    have hsign : ∀ c ∈ sheet.courses, 0 ≤ 1 * c.credit := by
      intro c hc
      simpa using (sheet.units_nonneg c hc).2
    have hbounds := SmallSheet.earned_bounds hsign sheet.length_scores SmallSheet.scores_range
    simpa [SmallSheet.earned, Sheet.scores] using hbounds
  rw [mean_lines]
  constructor
  · intro k hk
    have hrange : 0 ≤ k ∧ k ≤ 500 := by
      fin_cases hk <;> decide
    exact Double.lt_div_ofInt hrange.1 (by omega) (by decide) hlow (by omega) hunits (by omega)
  · intro k hk
    have hrange : 0 ≤ k ∧ k ≤ 500 := by
      fin_cases hk <;> decide
    exact Double.lt_div_ofInt hlow (by omega) hunits hrange.1 (by omega) (by decide) (by omega)

theorem title_exact {system : ℤ} :
    QuickResult.title ℚ system sheet = titles[rank (mean sheet.lines)]? := by
  rw [← sheet.represents_exact.title_eq, QuickResult.title, getResult_eq, Option.bind_eq_bind,
    Option.bind_some, Option.map_eq_bind]
  rfl

theorem title_double {system : ℤ} (h : credits sheet.courses ≤ 2 ^ 41) :
    QuickResult.title Double system sheet = titles[rank (mean sheet.lines)]? := by
  rw [← (sheet.represents_double h).title_eq, QuickResult.title, (sheet.smallSheet h).result_eq,
    Option.bind_eq_bind, Option.bind_some, Option.map_eq_bind]
  rfl

end Sheet

variable (D) in
/-- The title over the first sheet is not better than the one over the second. -/
def NeverWorse (system : ℤ) (sheet sheet' : Sheet) : Prop :=
  ∃ title ∈ titles, ∃ title' ∈ titles, QuickResult.title D system sheet = some title ∧
    QuickResult.title D system sheet' = some title' ∧ titles.idxOf title ≤ titles.idxOf title'

theorem rank_lt (m : ℚ) : rank m < titles.length := by
  unfold rank
  split_ifs <;> decide

theorem neverWorse_of_rank {system : ℤ} {sheet sheet' : Sheet} {m m' : ℚ}
    (h : QuickResult.title D system sheet = titles[rank m]?)
    (h' : QuickResult.title D system sheet' = titles[rank m']?) :
    NeverWorse D system sheet sheet' ↔ rank m ≤ rank m' := by
  have hidx : ∀ m title, titles[rank m]? = some title → titles.idxOf title = rank m := by
    intro m title htitle
    have hnodup : titles.Nodup := by decide
    obtain ⟨hlt, rfl⟩ := List.getElem?_eq_some_iff.1 htitle
    exact hnodup.idxOf_getElem _ hlt
  constructor
  · rintro ⟨title, -, title', -, htitle, htitle', hle⟩
    rwa [hidx m title (h.symm.trans htitle), hidx m' title' (h'.symm.trans htitle')] at hle
  · intro hle
    obtain ⟨title, htitle⟩ : ∃ title, titles[rank m]? = some title :=
      ⟨_, List.getElem?_eq_getElem (rank_lt m)⟩
    obtain ⟨title', htitle'⟩ : ∃ title', titles[rank m']? = some title' :=
      ⟨_, List.getElem?_eq_getElem (rank_lt m')⟩
    refine ⟨title, List.mem_of_getElem? htitle, title', List.mem_of_getElem? htitle',
      h.trans htitle, h'.trans htitle', ?_⟩
    rwa [hidx m title htitle, hidx m' title' htitle']

/-- Better grades are assessed at least as well unless they leave all bands where the grades
before them are in one. In Dart's own numbers this needs a bound on the units. -/
theorem neverWorse_iff (system : ℤ) {sheet sheet' : Sheet} (h : sheet.Improves sheet') :
    (NeverWorse ℚ system sheet sheet' ↔ (sheet'.Unbanded → sheet.Unbanded)) ∧
    (credits sheet.courses ≤ 2 ^ 41 →
      (NeverWorse Double system sheet sheet' ↔ (sheet'.Unbanded → sheet.Unbanded))) := by
  have hle : mean sheet.lines ≤ mean sheet'.lines := by
    rw [← gpa_eq_mean, ← gpa_eq_mean]
    exact h.gpa_le
  rw [← sheet.unranked_mean_iff, ← sheet'.unranked_mean_iff, ← rank_le_iff hle]
  constructor
  · exact neverWorse_of_rank sheet.title_exact sheet'.title_exact
  · intro hsmall
    exact neverWorse_of_rank (sheet.title_double hsmall)
      (sheet'.title_double (h.courses ▸ hsmall))

theorem improves_singleCourse {g g' : String} (h : (gradeScore g).isSome)
    (h' : (gradeScore g').isSome) (hle : points g ≤ points g') :
    (singleCourse g h).Improves (singleCourse g' h') where
  courses := rfl
  grades := .cons hle .nil

/-- A C in the only course is steady progress, a D is not in any band. -/
theorem neverWorse_steady :
    NeverWorse Double 5 (singleCourse "D" rfl) (singleCourse "C" rfl) := by
  have himproves : (singleCourse "D" rfl).Improves (singleCourse "C" rfl) :=
    improves_singleCourse rfl rfl (by decide)
  exact ((neverWorse_iff 5 himproves).2 (by decide)).2 fun h => absurd h (by decide)

/-- A B in the only course is exactly 4.0 and assessed as the worst. -/
theorem neverWorse_fails :
    (singleCourse "C" rfl).Improves (singleCourse "B" rfl) ∧
    QuickResult.title Double 5 (singleCourse "C" rfl) = some "Steady Progress" ∧
    QuickResult.title Double 5 (singleCourse "B" rfl) =
      some "Time for Reflection and Action" ∧
    ¬ NeverWorse Double 5 (singleCourse "C" rfl) (singleCourse "B" rfl) := by
  have hbefore : QuickResult.title Double 5 (singleCourse "C" rfl) = some "Steady Progress" := by
    decide +kernel
  have hafter : QuickResult.title Double 5 (singleCourse "B" rfl) =
      some "Time for Reflection and Action" := by
    decide +kernel
  refine ⟨improves_singleCourse rfl rfl (by decide), hbefore, hafter, ?_⟩
  rintro ⟨title, -, title', -, htitle, htitle', hle⟩
  cases hbefore.symm.trans htitle
  cases hafter.symm.trans htitle'
  exact absurd hle (by decide)

end StudyStats
