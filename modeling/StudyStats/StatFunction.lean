import StudyStats.Models

/-!
# Grade arithmetic

`StatFunction`: grades to scores and back, the GPA of a sheet, the CGPA after it and the
recomputation of a later record. Everything travels as text between these functions, so
each result is parsed again by its reader. `none` is a thrown exception.
-/

namespace StudyStats.StatFunction

open Dart

variable {C : Type} (D : Type) [Floating D]

/-- The switch of `convertGradeToScore`. -/
def gradeScore : String → Option ℤ
  | "A" => some 5
  | "B" => some 4
  | "C" => some 3
  | "D" => some 2
  | "E" => some 1
  | "F" => some 0
  | _ => none

/-- Grades the switch does not know are left out. The grading system is not looked at. -/
def convertGradeToScore (grades : List String) (_system : ℤ) : List ℤ :=
  grades.filterMap gradeScore

/-- The switch of `convertScoreToGrade`. -/
def scoreGrade : ℤ → Option String
  | 5 => some "A"
  | 4 => some "B"
  | 3 => some "C"
  | 2 => some "D"
  | 1 => some "E"
  | 0 => some "F"
  | _ => none

def convertScoreToGrade (scores : List ℤ) (_system : ℤ) : List String :=
  scores.filterMap scoreGrade

/-- The loop of `getResult`, over `uXg` and `units`. Scores are read by position: a missing
one throws, and so does a unit that is no number. -/
def getResultLoop : List Course → List ℤ → D → D → Option (D × D)
  | [], _, uXg, units => some (uXg, units)
  | _ :: _, [], _, _ => none
  | c :: cs, s :: ss, uXg, units =>
    match c.units with
    | .int n => getResultLoop cs ss (Floating.add uXg (Floating.ofInt (Floating.intMul D n s)))
        (Floating.add units (Floating.ofInt n))
    | .text _ => none

def getResult (scores : List String) (system : ℤ) (courseData : List Course) :
    Option String := do
  let score := convertGradeToScore scores system
  let (uXg, units) ← getResultLoop D courseData score (Floating.ofInt 0) (Floating.ofInt 0)
  return Floating.toString (Floating.div uXg units)

def getCurrentSemester (semester : String) (level : ℤ) : Option ℤ := do
  let semesterNumber ← Floating.toInt (D := D)
    (Floating.mul (Floating.div (Floating.ofInt (level - 100)) (Floating.ofInt 100))
      (Floating.ofInt 2))
  let semesterNumber := if semester = "2nd" then semesterNumber + 1 else semesterNumber
  return semesterNumber + 1

def getCGPA (currentCGPA result semester level : String) : Option String := do
  let cgpa : D ← Floating.parse currentCGPA
  let gpa : D ← Floating.parse result
  let _sem ← intParse (← substring semester 0 1)
  let _lev ← intParse (← substring level 0 1)
  if currentCGPA = "-1.0" then
    return result
  let currentSemester ← getCurrentSemester D semester (← intParse level)
  let newPa := Floating.div
    (Floating.add (Floating.mul cgpa (Floating.ofInt (currentSemester - 1))) gpa)
    (Floating.ofInt currentSemester)
  return Floating.toStringAsFixed2 newPa

variable {D}

/-- The record of `thisSemester` recomputed over the record before it. -/
def replaceUpdate (thisSemester pastSemester : Update D C) (now : Timestamp) :
    Option (Update D C) := do
  let cgpa ← getCGPA D (Floating.toString pastSemester.cgpa) (Floating.toString thisSemester.gpa)
    thisSemester.semester thisSemester.level
  return {
    scores := thisSemester.scores
    gradingSystem := thisSemester.gradingSystem
    courseData := thisSemester.courseData
    gpa := thisSemester.gpa
    cgpa := ← Floating.parse cgpa
    level := thisSemester.level
    semester := thisSemester.semester
    pastSemester := Floating.toString pastSemester.cgpa
    timestamp := now }

theorem replaceUpdate_eq {r past r' : Update D C} {now : Timestamp}
    (h : replaceUpdate r past now = some r') :
    ∃ cgpa, r' = { r with
      cgpa, uploaded := false, timestamp := now
      pastSemester := Floating.toString past.cgpa } := by
  simp only [replaceUpdate, Option.bind_eq_bind, Option.bind_eq_some_iff, Option.pure_def,
    Option.some.injEq] at h
  obtain ⟨_, _, cgpa, _, rfl⟩ := h
  exact ⟨cgpa, rfl⟩

end StudyStats.StatFunction
