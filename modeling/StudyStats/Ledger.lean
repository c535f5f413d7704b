import StudyStats.EditUpdates
import StudyStats.Sheet

/-!
# The ledger

What the update list is for: the history of sheets since a profile was filled in, one for
each semester. A profile and the sheets determine every record and the user's position and
CGPA, so the ledger has a closed form.

## Main definitions

* `Enrolment`, `Profile` — what a filled-in profile says, with its conditions as fields.
* `uploadResult`, `editRecord` — the two operations of the app, worked through its screen.
* `records`, `cgpaAfter`, `Profile.authAfter` — the closed form.
-/

namespace StudyStats

open Dart StatFunction

variable {D : Type} [Floating D]

/-! ## Working the update screen -/

namespace UpdateScreen

/-- Fill the screen in with a sheet. Grades are picked from the ones the screen offers. -/
def fill (sheet : Sheet) (screen : UpdateScreen (List Course)) :
    Option (UpdateScreen (List Course)) :=
  if ∀ g ∈ sheet.grades, g ∈ screen.grades then
    some { screen with courseData := sheet.courses, scores := sheet.grades }
  else none

/-- Open a fresh screen, fill it in and press the button once. -/
def uploadResult (gradingSystem : String) (sheet : Sheet) (now : Timestamp)
    (d : Device D (List Course)) : Option (Device D (List Course)) := do
  let screen ← init id [] gradingSystem d.auth
  let screen ← screen.fill sheet
  return screen.upload sheet.courses now d

/-- Open the record at `index` of the newest-first list, fill the screen in again and press
the button. -/
def editRecord (gradingSystem : String) (index : ℕ) (sheet : Sheet) (now : Timestamp)
    (clock : ℕ → Timestamp) (accepted : Bool) (d : Device D (List Course)) :
    Option (Device D (List Course)) := do
  let record ← (HiveUpdate.getUpdateList d).reverse[index]?
  let screen ← (historyInit gradingSystem record).fill sheet
  return screen.edit sheet.courses index now clock accepted d

theorem fill_eq {sheet : Sheet} {screen screen' : UpdateScreen (List Course)}
    (h : screen.fill sheet = some screen') :
    screen' = { screen with courseData := sheet.courses, scores := sheet.grades } := by
  unfold fill at h
  split_ifs at h
  exact (Option.some.inj h).symm

theorem fill_isSome_iff (sheet : Sheet) (screen : UpdateScreen (List Course)) :
    (screen.fill sheet).isSome ↔ ∀ g ∈ sheet.grades, g ∈ screen.grades := by
  unfold fill
  split_ifs with h
  · exact iff_of_true rfl h
  · exact iff_of_false (by simp) h

end UpdateScreen

/-- What an edit is made of: the record, the sheet it is saved again with, the clocks and
the answer of the remote store. -/
structure Edit where
  index : ℕ
  sheet : Sheet
  now : Timestamp
  clock : ℕ → Timestamp
  accepted : Bool

def Edit.apply (gradingSystem : String) (e : Edit) (d : Device D (List Course)) :
    Option (Device D (List Course)) :=
  UpdateScreen.editRecord gradingSystem e.index e.sheet e.now e.clock e.accepted d

/-! ## Profiles -/

/-- A user with a programme and a position in it, before any record. -/
structure Enrolment (D : Type) where
  gradingSystem : String
  courseData : CourseData (List Course)
  user : User D
  year : ℕ
  level : ℤ
  semester : String
  year_pos : 1 ≤ year
  data_year : courseData.year = some (year : ℤ)
  user_level : user.level = some level
  user_semester : user.semester = some semester
  level_mod : level % 100 = 0
  level_ge : 100 ≤ level
  level_le : level ≤ 100 * year
  semester_eq : semester = "1st" ∨ semester = "2nd"

/-- Fill in a profile: the list is cleared and the provider gets the new user. -/
def Enrolment.install (p : Enrolment D) (d : Device D (List Course)) :
    Device D (List Course) :=
  HiveUpdate.clearUpdateList { d with
    auth := { user := some p.user, courseData := some p.courseData } }

namespace Enrolment

omit [Floating D]

variable (p : Enrolment D)

/-- The number of the semester it starts in. -/
def start : ℕ := 2 * (p.level / 100 - 1).toNat + if p.semester = "2nd" then 2 else 1

theorem levelOf_start : (levelOf p.start : ℤ) = p.level := by
  have := p.level_mod; have := p.level_ge
  unfold levelOf start
  split_ifs <;> omega

theorem semesterOf_start : semesterOf p.start = p.semester := by
  unfold semesterOf start
  rcases p.semester_eq with h | h <;> simp only [h] <;> simp

theorem one_le_start : 1 ≤ p.start := by
  unfold start; split_ifs <;> omega

theorem start_le : p.start ≤ 2 * p.year := by
  have := p.level_mod; have := p.level_ge; have := p.level_le
  unfold start
  split_ifs <;> omega

/-- The number of the semester the user is in after `n` uploads. -/
def position (n : ℕ) : ℕ := min (p.start + n) (2 * p.year)

theorem one_le_position (n : ℕ) : 1 ≤ p.position n := by
  have := p.one_le_start; have := p.year_pos
  unfold position; omega

theorem position_le (n : ℕ) : p.position n ≤ 2 * p.year := min_le_right _ _

theorem position_of_le {n : ℕ} (h : p.start + n ≤ 2 * p.year) : p.position n = p.start + n :=
  min_eq_left h

theorem advance_position {n : ℕ} : advance p.year (p.position n) = p.position (n + 1) := by
  unfold advance position; omega

end Enrolment

/-- An accepted profile. `cgpa` is `-1.0` exactly where there is no CGPA yet. -/
structure Profile (D : Type) [Floating D] extends Enrolment D where
  cgpa : D
  year_le : year ≤ 9
  user_cgpa : user.currentCgpa = some cgpa
  cgpa_eq : cgpa = Floating.ofInt (-1) ↔ level = 100 ∧ semester = "1st"
  cgpa_range : ¬(level = 100 ∧ semester = "1st") →
    Floating.le (Floating.ofInt 0) cgpa ∧
      Floating.le cgpa (Floating.ofInt (getGrade gradingSystem).1)

/-! ## The closed form -/

/-- A record up to what two ways of making it differ in. -/
def Update.content {C : Type} (r : Update D C) : Update D C :=
  { r with uploaded := false, timestamp := 0 }

/-- The record of a sheet in the `s`-th semester, over the CGPA before it. -/
def record (gradingSystem : String) (s : ℕ) (prev : D) (sheet : Sheet) :
    Update D (List Course) where
  gpa := gpa D sheet
  cgpa := nextCgpa prev (gpa D sheet) s
  gradingSystem := toString (getGrade gradingSystem).1
  scores := sheet.scores
  courseData := sheet.courses
  level := levelText s
  semester := semesterOf s
  timestamp := 0
  pastSemester := Floating.toString prev

@[simp] theorem cgpa_record (gs : String) (s : ℕ) (prev : D) (sheet : Sheet) :
    (record gs s prev sheet).cgpa = nextCgpa prev (gpa D sheet) s := rfl

/-- The records of a history that starts in the `s`-th semester with CGPA `prev`. -/
def records (gradingSystem : String) : ℕ → D → List Sheet → List (Update D (List Course))
  | _, _, [] => []
  | s, prev, u :: us =>
    record gradingSystem s prev u :: records gradingSystem (s + 1) (nextCgpa prev (gpa D u) s) us

/-- The CGPA at the end of the history. -/
def cgpaAfter : ℕ → D → List Sheet → D
  | _, prev, [] => prev
  | s, prev, u :: us => cgpaAfter (s + 1) (nextCgpa prev (gpa D u) s) us

/-- The provider after the history. -/
def Profile.authAfter (p : Profile D) (us : List Sheet) : AuthProvider D (List Course) where
  user := some { p.user with
    level := some (levelOf (p.position us.length))
    semester := some (semesterOf (p.position us.length))
    currentCgpa := some (cgpaAfter p.start p.cgpa us) }
  courseData := some p.courseData

theorem length_records (gs : String) (s : ℕ) (prev : D) (us : List Sheet) :
    (records gs s prev us).length = us.length := by
  induction us generalizing s prev with
  | nil => rfl
  | cons u us ih => simp [records, ih]

theorem records_append (gs : String) (s : ℕ) (prev : D) (us vs : List Sheet) :
    records gs s prev (us ++ vs) =
      records gs s prev us ++ records gs (s + us.length) (cgpaAfter s prev us) vs := by
  induction us generalizing s prev with
  | nil => rfl
  | cons u us ih =>
    simp only [List.cons_append, records, cgpaAfter, ih, List.length_cons]
    rw [show s + 1 + us.length = s + (us.length + 1) by omega]

theorem cgpaAfter_append (s : ℕ) (prev : D) (us vs : List Sheet) :
    cgpaAfter s prev (us ++ vs) = cgpaAfter (s + us.length) (cgpaAfter s prev us) vs := by
  induction us generalizing s prev with
  | nil => rfl
  | cons u us ih =>
    simp only [List.cons_append, cgpaAfter, ih, List.length_cons]
    rw [show s + 1 + us.length = s + (us.length + 1) by omega]

/-- The newest record carries the CGPA at the end. -/
theorem getLast_records (gs : String) (s : ℕ) (prev : D) (u : Sheet) (us : List Sheet)
    (h : records gs s prev (u :: us) ≠ []) :
    ((records gs s prev (u :: us)).getLast h).cgpa = cgpaAfter s prev (u :: us) := by
  induction us generalizing s prev u with
  | nil => rfl
  | cons v vs ih =>
    have := ih (s + 1) (nextCgpa prev (gpa D u) s) v (by simp [records])
    simpa [records, cgpaAfter] using this

end StudyStats
