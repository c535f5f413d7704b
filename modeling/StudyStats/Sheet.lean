import StudyStats.Semester
import StudyStats.UpdateScreen

/-!
# Sheets

A sheet is what a user fills a grade screen with: a course list and one grade for each
course. On a sheet `getResult` and `getCGPA` never throw, and each computes a number that
no longer mentions the texts the code passes around.

## Main definitions

* `Sheet` — a complete sheet over courses with non-negative units of positive total.
* `gpa`, `nextCgpa` — the numbers behind `getResult` and `getCGPA`.
-/

namespace StudyStats

open Dart

variable {D : Type} [Floating D]

/-- The units of a course as a number; a text counts for nothing. -/
def Course.credit (c : Course) : ℤ :=
  match c.units with
  | .int n => n
  | .text _ => 0

structure Sheet where
  courses : List Course
  grades : List String
  length_eq : grades.length = courses.length
  known : ∀ g ∈ grades, (StatFunction.gradeScore g).isSome
  units_nonneg : ∀ c ∈ courses, c.units = .int c.credit ∧ 0 ≤ c.credit
  total_pos : 0 < (courses.map Course.credit).sum
deriving DecidableEq

namespace Sheet

def scores (sheet : Sheet) : List ℤ := sheet.grades.filterMap StatFunction.gradeScore

end Sheet

theorem length_filterMap_of_isSome {α β : Type*} {f : α → Option β} {l : List α}
    (h : ∀ a ∈ l, (f a).isSome) : (l.filterMap f).length = l.length := by
  simpa [List.length_filterMap_eq_countP, List.countP_eq_length] using h

theorem Sheet.length_scores (sheet : Sheet) : sheet.scores.length = sheet.courses.length := by
  rw [scores, length_filterMap_of_isSome sheet.known, sheet.length_eq]

theorem gradeScore_ne_unchosen {g : String} (h : (StatFunction.gradeScore g).isSome) :
    g ≠ "-1" := by
  rintro rfl; revert h; decide

/-- Known grades for all courses pass the check. -/
theorem complete_sheet {courses : List Course} {grades : List String}
    (hlen : courses.length ≤ grades.length)
    (hknown : ∀ g ∈ grades, (StatFunction.gradeScore g).isSome) :
    UpdateScreen.complete courses grades = some true := by
  induction courses generalizing grades with
  | nil => rfl
  | cons c cs ih =>
    cases grades with
    | nil => cases hlen
    | cons g gs =>
      obtain ⟨hg, hgs⟩ := List.forall_mem_cons.1 hknown
      rw [UpdateScreen.complete, if_neg (gradeScore_ne_unchosen hg)]
      exact ih (Nat.le_of_succ_le_succ hlen) hgs

/-! ## The GPA -/

variable (D) in
/-- The sums `uXg` and `units` over courses and scores. -/
def totals (lines : List (ℤ × ℤ)) (start : D × D) : D × D :=
  lines.foldl (fun (uXg, units) (n, s) =>
    (Floating.add uXg (Floating.ofInt (Floating.intMul D n s)),
      Floating.add units (Floating.ofInt n))) start

variable (D) in
/-- The number `getResult` writes. -/
def gpa (sheet : Sheet) : D :=
  let (uXg, units) := totals D ((sheet.courses.map Course.credit).zip sheet.scores)
    (Floating.ofInt 0, Floating.ofInt 0)
  Floating.div uXg units

theorem getResultLoop_eq {courses : List Course} {scores : List ℤ} (uXg units : D)
    (hlen : scores.length = courses.length)
    (hunits : ∀ c ∈ courses, c.units = .int c.credit) :
    StatFunction.getResultLoop D courses scores uXg units =
      some (totals D ((courses.map Course.credit).zip scores) (uXg, units)) := by
  induction courses generalizing scores uXg units with
  | nil => simp [StatFunction.getResultLoop, totals]
  | cons c cs ih =>
    obtain ⟨s, ss, rfl⟩ := List.exists_cons_of_length_eq_add_one hlen
    have hlen' : ss.length = cs.length := by simpa using hlen
    rw [StatFunction.getResultLoop, hunits c List.mem_cons_self]
    simp only [ih _ _ hlen' fun c hc => hunits c (List.mem_cons_of_mem _ hc)]
    rfl

theorem getResult_eq (sheet : Sheet) (system : ℤ) :
    StatFunction.getResult D sheet.grades system sheet.courses =
      some (Floating.toString (gpa D sheet)) := by
  have hloop := getResultLoop_eq (D := D) (Floating.ofInt 0) (Floating.ofInt 0)
    sheet.length_scores fun c hc => (sheet.units_nonneg c hc).1
  unfold Sheet.scores at hloop
  simp only [StatFunction.getResult, StatFunction.convertGradeToScore, hloop,
    Option.bind_eq_bind, Option.bind_some]
  rfl

/-! ## The CGPA -/

/-- The text `getCGPA` returns in the `s`-th semester. -/
def cgpaText (prev gpa : D) (s : ℕ) : String :=
  if Floating.toString prev = "-1.0" then Floating.toString gpa
  else Floating.toStringAsFixed2 (Floating.div
    (Floating.add (Floating.mul prev (Floating.ofInt ((s : ℤ) - 1))) gpa) (Floating.ofInt s))

theorem isSome_parse_cgpaText (prev gpa : D) (s : ℕ) :
    (Floating.parse (D := D) (cgpaText prev gpa s)).isSome := by
  unfold cgpaText
  split_ifs
  · rw [Floating.parse_toString]; rfl
  · exact Floating.parse_toStringAsFixed2 _

/-- The CGPA after a semester, from the one before it and the semester's GPA. -/
def nextCgpa (prev gpa : D) (s : ℕ) : D :=
  (Floating.parse (cgpaText prev gpa s)).get (isSome_parse_cgpaText prev gpa s)

@[simp] theorem parse_cgpaText (prev gpa : D) (s : ℕ) :
    Floating.parse (cgpaText prev gpa s) = some (nextCgpa prev gpa s) :=
  (Option.some_get _).symm

theorem getCGPA_eq (prev gpa : D) {s : ℕ} (h1 : 1 ≤ s) (h2 : s ≤ 18) :
    StatFunction.getCGPA D (Floating.toString prev) (Floating.toString gpa) (semesterOf s)
      (levelText s) = some (cgpaText prev gpa s) := by
  obtain ⟨digit, n, hdigit, hn⟩ := semesterOf_digit s
  have hlevel := levelText_digit h1 h2
  have hlevelDigit := intParse_digit (k := (s + 1) / 2) (by omega) (by omega)
  simp only [StatFunction.getCGPA, Floating.parse_toString, hdigit, hn, hlevel, hlevelDigit,
    intParse_levelText h1 h2, getCurrentSemester_eq (D := D) h1 h2, Option.bind_eq_bind,
    Option.bind_some, Option.pure_def, cgpaText]
  split_ifs <;> rfl

end StudyStats
