import StudyStats.UpdateScreen

/-!
# The what-if screens

`QuickScreen` and `SimulateScreen`, and what a user can do to the course list on any of the
three grade screens: slide a tile to delete or edit its course, add a course, choose a grade.

## Main definitions

* `QuickScreen`, `SimulateScreen` — how they are filled and what their buttons save.
* `CourseEdit` — the operations on the tiles.
* `Screen` — a grade screen that is open.
-/

namespace StudyStats

open Dart StatFunction

variable {D C : Type} [Floating D]

/-! ## Grades and scores -/

theorem scoreGrade_of_gradeScore {g : String} {s : ℤ} (h : gradeScore g = some s) :
    scoreGrade s = some g := by
  unfold gradeScore at h
  split at h <;> cases h <;> rfl

theorem isSome_gradeScore {g : String} {s : ℤ} (h : scoreGrade s = some g) :
    (gradeScore g).isSome := by
  unfold scoreGrade at h
  split at h <;> cases h <;> rfl

theorem isSome_gradeScore_of_mem {gs g : String} (h : g ∈ (getGrade gs).2) :
    (gradeScore g).isSome := by
  have hall : ∀ g ∈ ["A", "B", "C", "D", "E", "F"], (gradeScore g).isSome := by decide
  refine hall g ?_
  unfold getGrade at h
  split_ifs at h
  · exact h
  · exact List.mem_of_mem_dropLast (l := ["A", "B", "C", "D", "E", "F"]) h

/-- A check that lets a result through has seen a grade for every course. -/
theorem chosen_of_complete {courses : List Course} {grades : List String}
    (h : UpdateScreen.complete courses grades = some true)
    (hlen : grades.length = courses.length) : ∀ g ∈ grades, g ≠ "-1" := by
  induction courses generalizing grades with
  | nil =>
    rw [List.length_eq_zero_iff.1 hlen]
    exact List.forall_mem_nil _
  | cons c cs ih =>
    obtain ⟨g, gs, rfl⟩ := List.exists_cons_of_length_eq_add_one hlen
    rw [UpdateScreen.complete] at h
    by_cases hg : g = "-1"
    · rw [if_pos hg] at h
      cases h
    · rw [if_neg hg] at h
      exact List.forall_mem_cons.2 ⟨hg, ih h (by simpa using hlen)⟩

/-! ## The quick calculator -/

/-- The fields of `_QuickScreenState`. -/
structure QuickScreen (C : Type) where
  courseData : C
  semester : String
  level : String
  grades : List String
  scores : List String
  system : ℤ

/-- `authProvider.courseData![level][semester.substring(0, 1)]` -/
def AuthProvider.courseList (auth : AuthProvider D C) (level semester : String) : Option C := do
  (← auth.courseData).courses level (← substring semester 0 1)

namespace QuickScreen

/-- `init`. A missing catalogue entry throws half way and leaves the course list empty. -/
def init (contents : C → List Course) (empty : C) (gradingSystem : String)
    (auth : AuthProvider D C) : Option (QuickScreen C) := do
  let user ← auth.user
  let semester ← user.semester
  let level := toString (← user.level)
  let screen := { courseData := empty, semester, level, grades := [], scores := [], system := 5 }
  match auth.courseList level semester with
  | none => return screen
  | some courseData =>
    let (system, grades) := getGrade gradingSystem
    let scores := List.replicate (contents courseData).length "-1"
    return { screen with courseData, scores, system, grades }

/-- `Historyinit`. -/
def historyInit (gradingSystem : String) (quick : Quick C) : QuickScreen C :=
  let (system, grades) := getGrade gradingSystem
  { semester := quick.semester
    level := quick.level
    courseData := quick.courseData
    scores := StatFunction.convertScoreToGrade quick.scores system
    system, grades }

/-- What both drop-downs do once the new choice is in its field. A missing entry throws. -/
def reload (contents : C → List Course) (auth : AuthProvider D C) (screen : QuickScreen C) :
    QuickScreen C :=
  match auth.courseList screen.level screen.semester with
  | none => screen
  | some courseData =>
    { screen with courseData, scores := List.replicate (contents courseData).length "-1" }

def changeSemester (contents : C → List Course) (auth : AuthProvider D C) (value : String)
    (screen : QuickScreen C) : QuickScreen C :=
  reload contents auth { screen with semester := value }

def changeLevel (contents : C → List Course) (auth : AuthProvider D C) (value : String)
    (screen : QuickScreen C) : QuickScreen C :=
  reload contents auth { screen with level := value }

variable (D) in
/-- The button: check, compute and `saveQuickGrade`. -/
def calculate (contents : List Course) (now : Timestamp) (screen : QuickScreen C)
    (quicks : List (Quick C)) : List (Quick C) :=
  match UpdateScreen.complete contents screen.scores,
    StatFunction.getResult D screen.scores screen.system contents with
  | some true, some result =>
    quicks ++ [{
      result
      gradingSystem := toString screen.system
      scores := StatFunction.convertGradeToScore screen.scores screen.system
      courseData := screen.courseData
      level := screen.level
      semester := screen.semester
      timestamp := now }]
  | _, _ => quicks

theorem mem_calculate {contents : List Course} {now : Timestamp} {screen : QuickScreen C}
    {quicks : List (Quick C)} {r : Quick C} (h : r ∈ screen.calculate D contents now quicks) :
    r ∈ quicks ∨ UpdateScreen.complete contents screen.scores = some true ∧
      r.courseData = screen.courseData ∧
      r.scores = screen.scores.filterMap StatFunction.gradeScore := by
  unfold calculate at h
  split at h
  · next result hcomplete _ =>
    rcases List.mem_append.1 h with h | h
    · exact .inl h
    · rw [List.mem_singleton.1 h]
      exact .inr ⟨hcomplete, rfl, rfl⟩
  · exact .inl h

end QuickScreen

/-! ## The simulator -/

/-- `_SimulateScreenState` has the fields of `_UpdateScreenState`, and the same `init`. -/
abbrev SimulateScreen := UpdateScreen

namespace SimulateScreen

def init (contents : C → List Course) (empty : C) (gradingSystem : String)
    (auth : AuthProvider D C) : Option (SimulateScreen C) :=
  UpdateScreen.init contents empty gradingSystem auth

/-- `SimulateHistoryInit`. -/
def historyInit (gradingSystem : String) (simulate : Simulate D C) : SimulateScreen C :=
  let (system, grades) := getGrade gradingSystem
  { currentGpa := Floating.toString simulate.pastGpa
    semester := simulate.semester
    level := simulate.level
    courseData := simulate.courseData
    scores := StatFunction.convertScoreToGrade simulate.scores system
    system, grades }

/-- The button: check, compute and `saveSimulateGrade`, which throws on a text that does not
parse. -/
def simulate (contents : List Course) (now : Timestamp) (screen : SimulateScreen C)
    (simulates : List (Simulate D C)) : List (Simulate D C) :=
  match screen.compute D contents with
  | none => simulates
  | some (gpa, score, cgpa) =>
    match Floating.parse gpa, Floating.parse cgpa, Floating.parse screen.currentGpa with
    | some gpa, some cgpa, some pastGpa =>
      simulates ++ [{
        gpa, cgpa, pastGpa
        gradingSystem := toString screen.system
        scores := score
        courseData := screen.courseData
        level := screen.level
        semester := screen.semester
        timestamp := now }]
    | _, _, _ => simulates

theorem mem_simulate {contents : List Course} {now : Timestamp} {screen : SimulateScreen C}
    {simulates : List (Simulate D C)} {r : Simulate D C}
    (h : r ∈ simulate contents now screen simulates) :
    r ∈ simulates ∨ UpdateScreen.complete contents screen.scores = some true ∧
      r.courseData = screen.courseData ∧
      r.scores = screen.scores.filterMap StatFunction.gradeScore := by
  unfold simulate at h
  cases hcompute : UpdateScreen.compute D contents screen with
  | none => rw [hcompute] at h; exact .inl h
  | some result =>
    obtain ⟨hcomplete, hscores⟩ := UpdateScreen.compute_eq hcompute
    rw [hcompute] at h
    dsimp only at h
    split at h
    · rcases List.mem_append.1 h with h | h
      · exact .inl h
      · rw [List.mem_singleton.1 h]
        exact .inr ⟨hcomplete, rfl, hscores⟩
    · exact .inl h

end SimulateScreen

/-! ## Tiles -/

/-- What `EditCourse` hands over. Its button is off while a field is empty, and `int.parse`
may throw. -/
def EditCourse.onTap (name courseCode units : String) : Option Course :=
  if name = "" ∨ courseCode = "" ∨ units = "" then none
  else (intParse units).map fun n => ⟨name, courseCode, .int n⟩

/-- The operations on a course list that is shown. The three screens have the same ones. -/
inductive CourseEdit where
  | delete (index : ℕ)
  | edit (index : ℕ) (name courseCode units : String)
  | add (name courseCode units : String)
  | choose (index : ℕ) (grade : String)

/-- The course list and the scores afterwards. A tile is there only if its score can be
read, and grades are picked from the ones offered. -/
def CourseEdit.apply (grades : List String) (courses : List Course) (scores : List String) :
    CourseEdit → Option (List Course × List String)
  | delete index =>
    if index < courses.length ∧ index < scores.length then
      some (courses.eraseIdx index, scores.eraseIdx index)
    else none
  | edit index name courseCode units =>
    if index < courses.length ∧ index < scores.length then
      (EditCourse.onTap name courseCode units).map fun course => (courses.set index course, scores)
    else none
  | add name courseCode units =>
    (EditCourse.onTap name courseCode units).map fun course =>
      (courses ++ [course], scores ++ ["-1"])
  | choose index grade =>
    if index < courses.length ∧ index < scores.length ∧ grade ∈ grades then
      some (courses, scores.set index grade)
    else none

namespace CourseEdit

/-- The operation leaves another course list than it finds. -/
def Changes (courses : List Course) : CourseEdit → Prop
  | delete _ | add .. => True
  | edit index name courseCode units =>
    courses[index]? ≠ EditCourse.onTap name courseCode units
  | choose .. => False

instance (courses : List Course) : (e : CourseEdit) → Decidable (e.Changes courses)
  | delete _ | add .. => isTrue trivial
  | edit .. => inferInstanceAs (Decidable (¬ _ = _))
  | choose .. => isFalse id

variable {e : CourseEdit} {grades scores scores' : List String} {courses courses' : List Course}

theorem changes_iff (h : e.apply grades courses scores = some (courses', scores')) :
    e.Changes courses ↔ courses' ≠ courses := by
  cases e with
  | delete index =>
    simp only [apply, Option.ite_none_right_eq_some, Option.some.injEq, Prod.mk.injEq] at h
    obtain ⟨⟨hlt, -⟩, rfl, -⟩ := h
    refine iff_of_true trivial fun heq => ?_
    have := congrArg List.length heq
    rw [List.length_eraseIdx_of_lt hlt] at this
    omega
  | edit index name courseCode units =>
    simp only [apply, Option.ite_none_right_eq_some, Option.map_eq_some_iff, Prod.mk.injEq] at h
    obtain ⟨⟨hlt, -⟩, course, hcourse, rfl, -⟩ := h
    rw [Changes, hcourse, List.getElem?_eq_getElem hlt, ne_eq, Option.some.injEq, not_iff_not]
    constructor
    · rintro rfl
      exact List.set_getElem_self hlt
    · intro heq
      rw [← List.getElem_set_self (a := course) (by simpa using hlt)]
      simp only [heq]
  | add name courseCode units =>
    simp only [apply, Option.map_eq_some_iff, Prod.mk.injEq] at h
    obtain ⟨course, -, rfl, -⟩ := h
    exact iff_of_true trivial (by simp)
  | choose index grade =>
    simp only [apply, Option.ite_none_right_eq_some, Option.some.injEq, Prod.mk.injEq] at h
    obtain ⟨-, rfl, -⟩ := h
    exact iff_of_false id (by simp)

/-- Courses and scores stay in step, and a score is one that was there, unchosen or offered. -/
theorem apply_scores (h : e.apply grades courses scores = some (courses', scores'))
    (hlen : scores.length = courses.length) : scores'.length = courses'.length ∧
      ∀ g ∈ scores', g ∈ scores ∨ g = "-1" ∨ g ∈ grades := by
  cases e with
  | delete index =>
    simp only [apply, Option.ite_none_right_eq_some, Option.some.injEq, Prod.mk.injEq] at h
    obtain ⟨⟨hlt, hlt'⟩, rfl, rfl⟩ := h
    refine ⟨?_, fun g hg => .inl (List.mem_of_mem_eraseIdx hg)⟩
    rw [List.length_eraseIdx_of_lt hlt, List.length_eraseIdx_of_lt hlt', hlen]
  | edit index name courseCode units =>
    simp only [apply, Option.ite_none_right_eq_some, Option.map_eq_some_iff, Prod.mk.injEq] at h
    obtain ⟨-, course, -, rfl, rfl⟩ := h
    exact ⟨by simpa using hlen, fun g hg => .inl hg⟩
  | add name courseCode units =>
    simp only [apply, Option.map_eq_some_iff, Prod.mk.injEq] at h
    obtain ⟨course, -, rfl, rfl⟩ := h
    refine ⟨by simpa using hlen, fun g hg => ?_⟩
    rcases List.mem_append.1 hg with hg | hg
    · exact .inl hg
    · exact .inr (.inl (List.mem_singleton.1 hg))
  | choose index grade =>
    simp only [apply, Option.ite_none_right_eq_some, Option.some.injEq, Prod.mk.injEq] at h
    obtain ⟨⟨-, -, hgrade⟩, rfl, rfl⟩ := h
    refine ⟨by simpa using hlen, fun g hg => ?_⟩
    rcases List.mem_or_eq_of_mem_set hg with hg | rfl
    · exact .inl hg
    · exact .inr (.inr hgrade)

end CourseEdit

/-! ## Open screens -/

/-- An update screen over a record knows the record's place in the newest-first list. -/
inductive Screen (C : Type) where
  | quick (screen : QuickScreen C)
  | simulate (screen : SimulateScreen C)
  | update (screen : UpdateScreen C) (index : Option ℕ)

namespace Screen

def courseData : Screen C → C
  | quick s => s.courseData
  | simulate s | update s _ => s.courseData

def scores : Screen C → List String
  | quick s => s.scores
  | simulate s | update s _ => s.scores

def grades : Screen C → List String
  | quick s => s.grades
  | simulate s | update s _ => s.grades

def withScores (scores : List String) : Screen C → Screen C
  | quick s => quick { s with scores }
  | simulate s => simulate { s with scores }
  | update s index => update { s with scores } index

def withCourseData (courseData : C) : Screen C → Screen C
  | quick s => quick { s with courseData }
  | simulate s => simulate { s with courseData }
  | update s index => update { s with courseData } index

variable (s : Screen C) (l : List String) (c : C)

@[simp] theorem courseData_withScores : (s.withScores l).courseData = s.courseData := by
  cases s <;> rfl

@[simp] theorem scores_withScores : (s.withScores l).scores = l := by
  cases s <;> rfl

@[simp] theorem grades_withScores : (s.withScores l).grades = s.grades := by
  cases s <;> rfl

end Screen

end StudyStats
