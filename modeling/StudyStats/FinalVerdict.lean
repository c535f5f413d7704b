import StudyStats.Dashboard
import StudyStats.Goal

/-!
# The verdict after the degree

`getGoalPossibility` takes the user's position for the semester that comes next. The final
upload leaves the user where they are if `year` is a single digit, so that the final semester
still counts as one to come. With two digits the comparison of `incrementUser` never matches,
the user moves on, and the weights are right until something more is recorded.

## Main results

* `finalVerdict_iff` — the finished states with a final verdict.
-/

namespace StudyStats

open Dart StatFunction

variable {D C : Type} [Floating D]

/-! ## Where uploads lead -/

/-- The semester after the `s`-th as `incrementUser` finds it. -/
def following (year s : ℕ) : ℕ := if year ≤ 9 then advance year s else s + 1

theorem nextPosition_following {data : CourseData C} {year s : ℕ}
    (hdata : data.year = some (year : ℤ)) (h1 : 1 ≤ s) (h2 : year ≤ 9 → s ≤ 2 * year) :
    AuthProvider.nextPosition (some data) (levelOf s) (semesterOf s) =
      some ((levelOf (following year s) : ℤ), semesterOf (following year s)) := by
  unfold following
  split_ifs with hy
  · exact nextPosition_eq hdata hy h1 (h2 hy)
  · obtain ⟨digit, hdigit⟩ := exists_firstDigit (levelOf s)
    refine nextPosition_succ hdigit fun _ hyear => hy ?_
    rw [CourseData.yearText, hdata] at hyear
    exact year_le_of_substring (hyear ▸ hdigit)

/-- Level and semester of the user. -/
def Device.position (d : Device D C) : Option (Option ℤ × Option String) :=
  d.auth.user.map fun user => (user.level, user.semester)

/-- The device's user is in the `s`-th semester of the programme. -/
structure Device.Stands (data : CourseData C) (s : ℕ) (d : Device D C) : Prop where
  courseData : d.auth.courseData = some data
  position : d.position = some (some (levelOf s : ℤ), some (semesterOf s))

theorem uploadResult_following {gs : String} {sheet : Sheet} {now : Timestamp}
    {d d' : Device D (List Course)} {data : CourseData (List Course)} {year s : ℕ}
    (hdata : data.year = some (year : ℤ)) (h1 : 1 ≤ s) (h2 : year ≤ 9 → s ≤ 2 * year)
    (hd : d.Stands data s) (hup : UpdateScreen.uploadResult gs sheet now d = some d') :
    d' = d ∨ labels d' = labels d ++ [semesterLabel s] ∧ d'.Stands data (following year s) := by
  simp only [UpdateScreen.uploadResult, Option.bind_eq_bind, Option.pure_def,
    Option.bind_eq_some_iff, Option.some.injEq] at hup
  obtain ⟨screen, hinit, screen', hfill, rfl⟩ := hup
  obtain ⟨user, level, semester, huser, hlevel, hsemester, hscreen, hscreen'⟩ :=
    init_position hinit
  have hposition := hd.position
  simp only [Device.position, huser, hlevel, hsemester, Option.map_some, Option.some.injEq,
    Prod.mk.injEq] at hposition
  obtain ⟨rfl, rfl⟩ := hposition
  obtain rfl := UpdateScreen.fill_eq hfill
  rcases upload_cases sheet.courses now _ d with ⟨-, hsame⟩ | ⟨cgpa, ⟨c, hc⟩, -, hlabels, hauth⟩
  · exact .inl hsame
  have hnext := nextPosition_following hdata h1 h2
  rw [← hd.courseData] at hnext
  rw [incrementUser_position huser hlevel hsemester hc, hnext] at hauth
  refine .inr ⟨?_, ?_, ?_⟩
  · rw [hlabels, hscreen, hscreen']
    rfl
  · rw [hauth]
    exact hd.courseData
  · rw [Device.position, hauth]
    rfl

namespace Dashboards

/-- What every run keeps: with a single digit the user stays in the final semester, with more
they are one semester after the newest record. -/
structure Standing (p : Enrolment D) (s : ℕ) (w : Dashboards D) : Prop where
  enrolment : w.enrolment = p
  stands : w.device.Stands p.courseData s
  one_le : 1 ≤ s
  short : p.year ≤ 9 → s ≤ 2 * p.year ∧ (p.finalLabel ∈ labels w.device → s = 2 * p.year)
  long : 10 ≤ p.year → ∃ n, labels w.device = p.firstLabels n ∧ s = p.start + n

variable {p : Enrolment D} {s : ℕ} {w w' : Dashboards D}

omit [Floating D] in
theorem Standing.start (p : Enrolment D) (d : Device D (List Course)) :
    Standing p p.start (Dashboards.start p d) where
  enrolment := rfl
  stands := ⟨rfl, by
    rw [p.levelOf_start, p.semesterOf_start, ← p.user_level, ← p.user_semester]
    rfl⟩
  one_le := p.one_le_start
  short _ := ⟨p.start_le, nofun⟩
  long _ := ⟨0, rfl, rfl⟩

omit [Floating D] in
theorem Standing.of_outline (h : Standing p s w) {d : Device D (List Course)}
    (hd : outline d = outline w.device) : Standing p s { w with device := d } := by
  obtain ⟨hlabels, hdata, hposition⟩ : labels d = labels w.device ∧
      d.auth.courseData = w.device.auth.courseData ∧ d.position = w.device.position := by
    simpa [outline, Device.position] using hd
  exact ⟨h.enrolment, ⟨hdata.trans h.stands.courseData, hposition.trans h.stands.position⟩,
    h.one_le, hlabels ▸ h.short, hlabels ▸ h.long⟩

theorem Standing.upload (h : Standing p s w) {sheet : Sheet} {now : Timestamp}
    {d : Device D (List Course)}
    (hup : UpdateScreen.uploadResult p.gradingSystem sheet now w.device = some d) :
    ∃ t, Standing p t { w with device := d } := by
  rcases uploadResult_following p.data_year h.one_le (fun hy => (h.short hy).1) h.stands hup with
    rfl | ⟨hlabels, hstands⟩
  · exact ⟨s, h⟩
  refine ⟨following p.year s, h.enrolment, hstands, ?_, fun hy => ?_, fun hy => ?_⟩
  · have := p.year_pos
    have := h.one_le
    unfold following advance
    split_ifs <;> omega
  · obtain ⟨hle, hfinal⟩ := h.short hy
    rw [following, if_pos hy, hlabels]
    refine ⟨advance_le p.year s, fun hmem => ?_⟩
    have hs : s = 2 * p.year := by
      rcases List.mem_append.1 hmem with hmem | hmem
      · exact hfinal hmem
      · rw [p.finalLabel_eq] at hmem
        exact (semesterLabel_injective (List.mem_singleton.1 hmem)).symm
    unfold advance
    omega
  · obtain ⟨n, hn, rfl⟩ := h.long hy
    rw [following, if_neg (by omega), hlabels, hn]
    refine ⟨n + 1, ?_, by omega⟩
    simp [Enrolment.firstLabels, List.range_succ]

theorem Standing.step {a : Visit} (h : Standing p s w) (hstep : w.step a = some w') :
    ∃ t, Standing p t w' := by
  have keep : ∀ dashboards, Standing p s { w with dashboards } := fun _ =>
    ⟨h.enrolment, h.stands, h.one_le, h.short, h.long⟩
  cases a with
  | openDashboard => cases hstep; exact ⟨s, keep _⟩
  | goHome => cases hstep; exact ⟨s, keep _⟩
  | goBack =>
    simp only [Dashboards.step] at hstep
    split at hstep <;> cases hstep
    exact ⟨s, keep _⟩
  | pressTile sheet =>
    simp only [Dashboards.step] at hstep
    split_ifs at hstep
    split at hstep
    · obtain ⟨d, hup, rfl⟩ := Option.map_eq_some_iff.1 hstep
      exact h.upload (h.enrolment ▸ hup)
    · cases hstep; exact ⟨s, h⟩
  | edit e =>
    simp only [Dashboards.step] at hstep
    split_ifs at hstep
    obtain ⟨d, hedit, rfl⟩ := Option.map_eq_some_iff.1 hstep
    exact ⟨s, h.of_outline (outline_editRecord hedit).1⟩

theorem exists_standing (p : Enrolment D) (d : Device D (List Course)) {as : List Visit}
    (hrun : Machine.run Dashboards.step as (Dashboards.start p d) = some w) :
    ∃ s, Standing p s w :=
  Machine.invariant (fun w => ∃ s, Standing p s w) (fun _ _ _ ⟨_, h⟩ hstep => h.step hstep)
    ⟨p.start, Standing.start p d⟩ hrun

omit [Floating D] in
/-- Once the final semester is recorded, the user is past it exactly if `year` has more than
one digit and nothing was recorded since. -/
theorem Standing.past_iff (h : Standing p s w) (hfinal : p.finalLabel ∈ labels w.device) :
    s = 2 * p.year + 1 ↔ 10 ≤ p.year ∧ (labels w.device).getLast? = some p.finalLabel := by
  by_cases hy : p.year ≤ 9
  · have := (h.short hy).2 hfinal
    omega
  obtain ⟨n, hlabels, hs⟩ := h.long (by omega)
  rw [hlabels] at hfinal ⊢
  cases n with
  | zero => simp [Enrolment.firstLabels] at hfinal
  | succ n =>
    have hlast : (p.firstLabels (n + 1)).getLast? = some (semesterLabel (p.start + n)) := by
      simp [Enrolment.firstLabels, List.range_succ]
    rw [hlast, p.finalLabel_eq, Option.some.injEq, semesterLabel_injective.eq_iff]
    omega

end Dashboards

/-! ## The verdict -/

omit [Floating D] in
theorem Device.Stands.provider {data : CourseData C} {year s : ℕ} {d : Device D C} {c : D}
    (h : d.Stands data s) (hdata : data.year = some (year : ℤ))
    (hc : d.auth.currentCgpa = some c) : StudyStats.Stands year s c d.auth := by
  obtain ⟨user, huser, hcgpa⟩ := Option.bind_eq_some_iff.1 hc
  have hposition := h.position
  simp only [Device.position, huser, Option.map_some, Option.some.injEq,
    Prod.mk.injEq] at hposition
  exact ⟨⟨data, h.courseData, hdata⟩, user, huser, hposition.1, hposition.2, hcgpa⟩

theorem highestGpa_past {year : ℕ} (hy : 1 ≤ year) (system : ℤ) (c : ℚ) :
    highestGpa year (2 * year + 1) system c = c := by
  have hpos : (2 * year : ℚ) ≠ 0 := by positivity
  rw [highestGpa]
  push_cast
  rw [add_sub_cancel_right, sub_self, zero_mul, zero_add, mul_div_cancel_right₀ _ hpos]

/-- In every state a run reaches with the final semester recorded, the CGPA counts for all
semesters and is itself the verdict exactly if `year` has more than one digit and nothing was
recorded since. -/
theorem finalVerdict_iff (p : Enrolment ℚ) (d : Device ℚ (List Course)) {as : List Visit}
    {w : Dashboards ℚ} (hrun : Machine.run Dashboards.step as (Dashboards.start p d) = some w)
    (hfinal : p.finalLabel ∈ labels w.device) {c : ℚ}
    (hc : w.device.auth.currentCgpa = some c) (hc0 : 0 ≤ c) (system : ℤ) :
    (w.device.auth.goalWeights = some (0, 2 * (p.year : ℤ)) ∧
      ∀ goal : ℚ, w.device.auth.getGoalPossibility system (Floating.toString goal) =
        some (decide (goal ≤ c))) ↔
      10 ≤ p.year ∧ (labels w.device).getLast? = some p.finalLabel := by
  obtain ⟨s, h⟩ := Dashboards.exists_standing p d hrun
  have hstands := h.stands.provider p.data_year hc
  rw [hstands.goalWeights h.one_le, ← h.past_iff hfinal]
  constructor
  · intro hverdict
    simp only [Option.some.injEq, Prod.mk.injEq] at hverdict
    omega
  · intro hs
    refine ⟨?_, fun goal => ?_⟩
    · simp only [Option.some.injEq, Prod.mk.injEq]
      omega
    · rw [hstands.goalPossibility h.one_le, hs, highestGpa_past p.year_pos]
      simp [ne_sentinel hc0]

/-- A user in the last semester of a ten-year programme. -/
def veteran : Enrolment ℚ where
  gradingSystem := "5"
  courseData := { freshman.courseData with year := some 10 }
  user := { id := "u1", name := "Ada", email := "", password := "", matricNo := "", image := ""
            university := none, faculty := none, course := none, level := some 1000
            semester := some "2nd", currentCgpa := some 4, premium := false }
  year := 10
  level := 1000
  semester := "2nd"
  year_pos := by decide
  data_year := rfl
  user_level := rfl
  user_semester := rfl
  level_mod := by decide
  level_ge := by decide
  level_le := by decide
  semester_eq := finalist.semester_eq

/-- The final upload of a programme whose year has two digits. -/
theorem finalVerdict_veteran : ∃ w c, Machine.run Dashboards.step
    [.openDashboard, .pressTile (some (singleCourse "A" rfl, 1))]
    (Dashboards.start veteran ⟨⟨none, none⟩, none⟩) = some w ∧
    w.device.auth.currentCgpa = some c ∧
    w.device.auth.goalWeights = some (0, 2 * (veteran.year : ℤ)) ∧
    ∀ goal : ℚ, w.device.auth.getGoalPossibility 5 (Floating.toString goal) =
      some (decide (goal ≤ c)) := by
  have hcheck : (Machine.run Dashboards.step
      [.openDashboard, .pressTile (some (singleCourse "A" rfl, 1))]
      (Dashboards.start veteran ⟨⟨none, none⟩, none⟩)).map (fun w =>
        (w.device.auth.currentCgpa, labels w.device)) =
      some (some (81 / 20), [veteran.finalLabel]) := by
    decide +kernel
  obtain ⟨w, hrun, hw⟩ := Option.map_eq_some_iff.1 hcheck
  obtain ⟨hc, hlabels⟩ := Prod.mk.inj hw
  refine ⟨w, 81 / 20, hrun, hc, ?_⟩
  exact (finalVerdict_iff veteran _ hrun (by simp [hlabels]) hc (by norm_num) 5).2
    ⟨by decide, by rw [hlabels]; rfl⟩

/-- Eight semesters with the grade B, and a goal that is above the CGPA they end with. The
final semester still counts as one to come, and the goal as one within reach. -/
theorem finalVerdict_fails : ∃ w c, Machine.run Dashboards.step
    ([.openDashboard, .pressTile (some (singleCourse "B" rfl, 1)), .goHome, .openDashboard] ++
      (List.range 7).map fun n => .pressTile (some (singleCourse "B" rfl, n + 2)))
    (Dashboards.start freshman.toEnrolment blankDevice) = some w ∧
    freshman.finalLabel ∈ labels w.device ∧
    w.device.auth.currentCgpa = some c ∧ Floating.toString c = "4.0" ∧
    w.device.auth.goalWeights = some (1, 7) ∧
    w.device.auth.getGoalPossibility 5 "4.1" = some true := by
  have hcheck : (Machine.run Dashboards.step
      ([.openDashboard, .pressTile (some (singleCourse "B" rfl, 1)), .goHome, .openDashboard] ++
        (List.range 7).map fun n => .pressTile (some (singleCourse "B" rfl, n + 2)))
      (Dashboards.start freshman.toEnrolment blankDevice)).map (fun w =>
        (decide (freshman.finalLabel ∈ labels w.device),
          w.device.auth.currentCgpa.map Floating.toString, w.device.auth.goalWeights,
          w.device.auth.getGoalPossibility 5 "4.1")) =
      some (true, some "4.0", some (1, 7), some true) := by
    decide +kernel
  obtain ⟨w, hrun, hw⟩ := Option.map_eq_some_iff.1 hcheck
  simp only [Prod.mk.injEq, decide_eq_true_eq, Option.map_eq_some_iff] at hw
  obtain ⟨hfinal, ⟨c, hc, htext⟩, hweights, hyes⟩ := hw
  exact ⟨w, c, hrun, hfinal, hc, htext, hweights, hyes⟩

end StudyStats
