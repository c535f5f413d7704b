import StudyStats.Device

/-!
# The update screen

`_UpdateScreenState`: how the screen is filled when it opens, fresh or over a stored
record, and what its button does. The button works on the fields the screen holds, not on
the provider's user; only `incrementUser` and `editUpdates` look at the provider.
-/

namespace StudyStats

open Dart

variable {D C : Type} [Floating D]

/-- The grading system a school file gives and the grades offered under it. -/
def getGrade (gradingSystem : String) : ℤ × List String :=
  if gradingSystem = "5" then (5, ["A", "B", "C", "D", "E", "F"])
  else (4, ["A", "B", "C", "D", "E"])

/-- The fields of `_UpdateScreenState`. -/
structure UpdateScreen (C : Type) where
  courseData : C
  semester : String
  level : String
  grades : List String
  scores : List String
  system : ℤ
  currentGpa : String

namespace UpdateScreen

/-- The fields before initialisation. -/
def blank (empty : C) : UpdateScreen C where
  courseData := empty
  semester := ""
  level := ""
  grades := []
  scores := []
  system := 5
  currentGpa := ""

/-- `init`. A missing catalogue entry throws half way and leaves the course list empty. -/
def init (contents : C → List Course) (empty : C) (gradingSystem : String)
    (auth : AuthProvider D C) : Option (UpdateScreen C) := do
  let user ← auth.user
  let semester ← user.semester
  let currentGpa := Floating.toString (← user.currentCgpa)
  let level := toString (← user.level)
  let screen := { blank empty with semester, currentGpa, level }
  match (do (← auth.courseData).courses level (← substring semester 0 1)) with
  | none => return screen
  | some courseData =>
    let (system, grades) := getGrade gradingSystem
    let scores := List.replicate (contents courseData).length "-1"
    return { screen with courseData, scores, system, grades }

/-- `UpdateHistoryInit`. -/
def historyInit (gradingSystem : String) (update : Update D C) : UpdateScreen C :=
  let (system, grades) := getGrade gradingSystem
  { currentGpa := update.pastSemester
    semester := update.semester
    level := update.level
    courseData := update.courseData
    scores := StatFunction.convertScoreToGrade update.scores system
    system, grades }

/-- The check before a result is computed: `false` is "Choose all options". -/
def complete : List Course → List String → Option Bool
  | [], _ => some true
  | _ :: _, [] => none
  | _ :: cs, s :: ss => if s = "-1" then some false else complete cs ss

variable (D) in
/-- What both handlers compute first: GPA, scores and CGPA. `contents` is what the course
list holds when the button is pressed. -/
def compute (contents : List Course) (screen : UpdateScreen C) :
    Option (String × List ℤ × String) := do
  if (← complete contents screen.scores) then
    let gpa ← StatFunction.getResult D screen.scores screen.system contents
    let score := StatFunction.convertGradeToScore screen.scores screen.system
    let cgpa ← StatFunction.getCGPA D screen.currentGpa gpa screen.semester screen.level
    return (gpa, score, cgpa)
  else none

/-- The button of a fresh screen. -/
def upload (contents : List Course) (now : Timestamp) (screen : UpdateScreen C)
    (d : Device D C) : Device D C :=
  match screen.compute D contents with
  | none => d
  | some (gpa, score, cgpa) =>
    let d := StatFunction.saveUpdateGrade D score screen.system screen.courseData gpa cgpa
      screen.level screen.semester screen.currentGpa now d
    { d with auth := (d.auth.incrementUser cgpa).getD d.auth }

/-- The record the button of an edit screen builds. -/
def newUpdate (contents : List Course) (now : Timestamp) (screen : UpdateScreen C) :
    Option (Update D C) := do
  let (gpa, score, cgpa) ← screen.compute D contents
  return {
    scores := score
    gradingSystem := toString screen.system
    courseData := screen.courseData
    gpa := ← Floating.parse gpa
    cgpa := ← Floating.parse cgpa
    level := screen.level
    semester := screen.semester
    pastSemester := screen.currentGpa
    timestamp := now }

/-- The button of an edit screen; what `editUpdates` throws is caught. -/
def edit (contents : List Course) (index : ℤ) (now : Timestamp) (clock : ℕ → Timestamp)
    (accepted : Bool) (screen : UpdateScreen C) (d : Device D C) : Device D C :=
  match screen.newUpdate contents now with
  | none => d
  | some update => (StatFunction.editUpdates update index clock accepted d).state

/-! ## What the buttons make -/

theorem compute_eq {contents : List Course} {screen : UpdateScreen C}
    {result : String × List ℤ × String} (h : screen.compute D contents = some result) :
    complete contents screen.scores = some true ∧
      result.2.1 = screen.scores.filterMap StatFunction.gradeScore := by
  simp only [compute, Option.bind_eq_bind, Option.bind_eq_some_iff] at h
  obtain ⟨ok, hcomplete, h⟩ := h
  split_ifs at h with hok
  simp only [Option.bind_eq_some_iff, Option.pure_def, Option.some.injEq] at h
  obtain ⟨gpa, -, cgpa, -, rfl⟩ := h
  exact ⟨by rw [hcomplete, hok], rfl⟩

/-- The record of a screen with its results. -/
def made (score : List ℤ) (gpa cgpa : D) (now : Timestamp) (screen : UpdateScreen C) :
    Update D C where
  gpa := gpa
  cgpa := cgpa
  gradingSystem := toString screen.system
  scores := score
  courseData := screen.courseData
  level := screen.level
  semester := screen.semester
  timestamp := now
  pastSemester := screen.currentGpa

theorem newUpdate_eq {contents : List Course} {now : Timestamp} {screen : UpdateScreen C}
    {update : Update D C} (h : screen.newUpdate contents now = some update) :
    ∃ result gpa cgpa, screen.compute D contents = some result ∧
      update = screen.made result.2.1 gpa cgpa now := by
  simp only [newUpdate, Option.bind_eq_bind, Option.bind_eq_some_iff, Option.pure_def,
    Option.some.injEq] at h
  obtain ⟨result, hcompute, gpa, -, cgpa, -, rfl⟩ := h
  exact ⟨result, gpa, cgpa, hcompute, rfl⟩

theorem getUpdateList_upload (contents : List Course) (now : Timestamp)
    (screen : UpdateScreen C) (d : Device D C) :
    HiveUpdate.getUpdateList (screen.upload contents now d) = HiveUpdate.getUpdateList d ∨
      ∃ result gpa cgpa, screen.compute D contents = some result ∧
        HiveUpdate.getUpdateList (screen.upload contents now d) =
          HiveUpdate.getUpdateList d ++ [screen.made result.2.1 gpa cgpa now] := by
  unfold upload StatFunction.saveUpdateGrade
  cases hcompute : screen.compute D contents with
  | none => exact .inl rfl
  | some result =>
    dsimp only
    split
    · next gpa cgpa _ _ => exact .inr ⟨result, gpa, cgpa, rfl, rfl⟩
    · exact .inl rfl

theorem courseData_upload (contents : List Course) (now : Timestamp) (screen : UpdateScreen C)
    (d : Device D C) : (screen.upload contents now d).auth.courseData = d.auth.courseData := by
  unfold upload StatFunction.saveUpdateGrade
  split
  · rfl
  · split <;> exact AuthProvider.courseData_incrementUser _ _

end UpdateScreen

end StudyStats
