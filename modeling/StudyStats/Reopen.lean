import StudyStats.History
import StudyStats.Screens

/-!
# Saving and reopening

A record keeps scores where the screen has grades, and the CGPA before the semester not at all,
as a number or as a text. Opened again it fills the screen it came from.

## Main definitions

* `Filling` — a sheet filled in on a screen, with the position and the CGPA the screen shows.

## Main results

* `save_reopen` — reopening a saved record gives the screen back, and pressing its button the
  record.
-/

namespace StudyStats

open Dart StatFunction

variable {D C : Type} [Floating D]

/-- Every grade the switches know comes back in its place. -/
theorem convertScoreToGrade_convertGradeToScore {grades : List String}
    (h : ∀ g ∈ grades, (gradeScore g).isSome) (system : ℤ) :
    convertScoreToGrade (convertGradeToScore grades system) system = grades := by
  unfold convertScoreToGrade convertGradeToScore
  induction grades with
  | nil => rfl
  | cons g gs ih =>
    obtain ⟨hg, hgs⟩ := List.forall_mem_cons.1 h
    obtain ⟨s, hs⟩ := Option.isSome_iff_exists.1 hg
    rw [List.filterMap_cons_some hs, List.filterMap_cons_some (scoreGrade_of_gradeScore hs),
      ih hgs]

/-- What a screen is filled in with. `list` is what it keeps as its course list. -/
structure Filling (D C : Type) where
  gradingSystem : String
  sheet : Sheet
  list : C
  level : String
  semester : String
  cgpa : D

namespace Filling

variable (f : Filling D C)

def quick : QuickScreen C where
  courseData := f.list
  semester := f.semester
  level := f.level
  grades := (getGrade f.gradingSystem).2
  scores := f.sheet.grades
  system := (getGrade f.gradingSystem).1

/-- The simulator or the update screen. -/
def update : UpdateScreen C where
  courseData := f.list
  semester := f.semester
  level := f.level
  grades := (getGrade f.gradingSystem).2
  scores := f.sheet.grades
  system := (getGrade f.gradingSystem).1
  currentGpa := Floating.toString f.cgpa

omit [Floating D] in
/-- The filled screen passes its check. -/
theorem complete : UpdateScreen.complete f.sheet.courses f.sheet.grades = some true :=
  complete_sheet f.sheet.length_eq.ge f.sheet.known

/-! ## The quick calculator -/

theorem calculate_quick (now : Timestamp) (quicks : List (Quick C)) :
    f.quick.calculate D f.sheet.courses now quicks = quicks ++ [{
      result := Floating.toString (gpa D f.sheet)
      gradingSystem := toString (getGrade f.gradingSystem).1
      scores := f.sheet.scores
      courseData := f.list
      level := f.level
      semester := f.semester
      timestamp := now }] := by
  simp only [QuickScreen.calculate, quick, f.complete, getResult_eq]
  rfl

theorem quick_reopen (now now' : Timestamp) (quicks quicks' : List (Quick C)) :
    ∃ r, f.quick.calculate D f.sheet.courses now quicks = quicks ++ [r] ∧
      QuickScreen.historyInit f.gradingSystem r = f.quick ∧
      (QuickScreen.historyInit f.gradingSystem r).calculate D f.sheet.courses now' quicks' =
        quicks' ++ [{ r with timestamp := now' }] := by
  refine ⟨_, f.calculate_quick now quicks, ?_⟩
  rw [and_iff_left_of_imp fun h => by rw [h, f.calculate_quick now' quicks']]
  simp only [QuickScreen.historyInit, quick, QuickScreen.mk.injEq, true_and, and_true]
  exact convertScoreToGrade_convertGradeToScore f.sheet.known _

/-! ## The other two screens -/

/-- The text `getCGPA` returns. -/
def cgpaText? : Option String :=
  getCGPA D (Floating.toString f.cgpa) (Floating.toString (gpa D f.sheet)) f.semester f.level

theorem compute_update : f.update.compute D f.sheet.courses =
    f.cgpaText?.map fun cgpa => (Floating.toString (gpa D f.sheet), f.sheet.scores, cgpa) := by
  simp only [UpdateScreen.compute, update, f.complete, getResult_eq, Option.bind_eq_bind,
    Option.bind_some, if_true, Option.pure_def, cgpaText?, Option.map_eq_bind]
  rfl

/-- The CGPA of the record. A text that does not parse throws. -/
def newCgpa : Option D := f.cgpaText?.bind Floating.parse

/-- With the position of a programme there is one. -/
theorem isSome_newCgpa {s : ℕ} (h1 : 1 ≤ s) (h2 : s ≤ 18) (hlevel : f.level = levelText s)
    (hsemester : f.semester = semesterOf s) : f.newCgpa.isSome := by
  simp [newCgpa, cgpaText?, hlevel, hsemester, getCGPA_eq f.cgpa _ h1 h2]

def simulated (now : Timestamp) (cgpa : D) : Simulate D C where
  gpa := gpa D f.sheet
  cgpa := cgpa
  gradingSystem := toString (getGrade f.gradingSystem).1
  scores := f.sheet.scores
  courseData := f.list
  level := f.level
  semester := f.semester
  pastGpa := f.cgpa
  timestamp := now

def updated (now : Timestamp) (cgpa : D) : Update D C where
  gpa := gpa D f.sheet
  cgpa := cgpa
  gradingSystem := toString (getGrade f.gradingSystem).1
  scores := f.sheet.scores
  courseData := f.list
  level := f.level
  semester := f.semester
  timestamp := now
  pastSemester := Floating.toString f.cgpa

theorem simulate_update (now : Timestamp) (simulates : List (Simulate D C)) :
    SimulateScreen.simulate f.sheet.courses now f.update simulates =
      simulates ++ (f.newCgpa.map (f.simulated now)).toList := by
  unfold SimulateScreen.simulate newCgpa
  rw [f.compute_update]
  cases f.cgpaText? with
  | none => simp
  | some text =>
    cases hcgpa : Floating.parse (D := D) text with
    | none => simp [hcgpa]
    | some cgpa => simp [hcgpa, simulated, update, Floating.parse_toString]

theorem newUpdate_update (now : Timestamp) :
    f.update.newUpdate f.sheet.courses now = f.newCgpa.map (f.updated now) := by
  unfold UpdateScreen.newUpdate newCgpa
  rw [f.compute_update]
  cases f.cgpaText? with
  | none => rfl
  | some text =>
    cases hcgpa : Floating.parse (D := D) text with
    | none => simp [hcgpa]
    | some cgpa => simp [hcgpa, updated, update, Floating.parse_toString]

theorem getUpdateList_upload (now : Timestamp) (d : Device D C) :
    HiveUpdate.getUpdateList (f.update.upload f.sheet.courses now d) =
      HiveUpdate.getUpdateList d ++ (f.newCgpa.map (f.updated now)).toList := by
  unfold UpdateScreen.upload saveUpdateGrade newCgpa
  rw [f.compute_update]
  cases f.cgpaText? with
  | none => simp
  | some text =>
    cases hcgpa : Floating.parse (D := D) text with
    | none => simp [hcgpa, HiveUpdate.getUpdateList]
    | some cgpa =>
      simp [hcgpa, updated, update, Floating.parse_toString, HiveUpdate.getUpdateList,
        HiveUpdate.addUpdateData]

theorem historyInit_simulated (now : Timestamp) (cgpa : D) :
    SimulateScreen.historyInit f.gradingSystem (f.simulated now cgpa) = f.update := by
  simp only [SimulateScreen.historyInit, simulated, update, UpdateScreen.mk.injEq, true_and,
    and_true]
  exact convertScoreToGrade_convertGradeToScore f.sheet.known _

theorem historyInit_updated (now : Timestamp) (cgpa : D) :
    UpdateScreen.historyInit f.gradingSystem (f.updated now cgpa) = f.update := by
  simp only [UpdateScreen.historyInit, updated, update, UpdateScreen.mk.injEq, true_and,
    and_true]
  exact convertScoreToGrade_convertGradeToScore f.sheet.known _

end Filling

/-- A record is stored where one more is in the list. -/
theorem eq_of_append_toList {α : Type*} {l : List α} {o : Option α} {a : α}
    (h : l ++ o.toList = l ++ [a]) : o = some a := by
  have hlist := List.append_cancel_left h
  cases o with
  | none => cases hlist
  | some b => rw [(List.cons.inj hlist).1]

/-- Whatever record the three screens save, reopening it gives the screen it was saved from, and
pressing the button again the same record, up to its time. At every position of a programme
there is such a record. -/
theorem save_reopen (f : Filling D C) (now now' : Timestamp) (quicks quicks' : List (Quick C))
    (simulates simulates' : List (Simulate D C)) (d : Device D C) :
    (∃ r, f.quick.calculate D f.sheet.courses now quicks = quicks ++ [r] ∧
      QuickScreen.historyInit f.gradingSystem r = f.quick ∧
      (QuickScreen.historyInit f.gradingSystem r).calculate D f.sheet.courses now' quicks' =
        quicks' ++ [{ r with timestamp := now' }]) ∧
    (∀ r, SimulateScreen.simulate f.sheet.courses now f.update simulates = simulates ++ [r] →
      SimulateScreen.historyInit f.gradingSystem r = f.update ∧
      SimulateScreen.simulate f.sheet.courses now' (SimulateScreen.historyInit f.gradingSystem r)
        simulates' = simulates' ++ [{ r with timestamp := now' }]) ∧
    (∀ r, HiveUpdate.getUpdateList (f.update.upload f.sheet.courses now d) =
        HiveUpdate.getUpdateList d ++ [r] →
      UpdateScreen.historyInit f.gradingSystem r = f.update ∧
      (UpdateScreen.historyInit f.gradingSystem r).newUpdate f.sheet.courses now' =
        some { r with timestamp := now' }) ∧
    ∀ s, 1 ≤ s → s ≤ 18 → f.level = levelText s → f.semester = semesterOf s →
      (∃ r, SimulateScreen.simulate f.sheet.courses now f.update simulates = simulates ++ [r]) ∧
      ∃ r, HiveUpdate.getUpdateList (f.update.upload f.sheet.courses now d) =
        HiveUpdate.getUpdateList d ++ [r] := by
  refine ⟨f.quick_reopen now now' quicks quicks', ?_, ?_, ?_⟩
  · intro r hr
    rw [f.simulate_update] at hr
    obtain ⟨cgpa, hcgpa, rfl⟩ := Option.map_eq_some_iff.1 (eq_of_append_toList hr)
    rw [f.historyInit_simulated, f.simulate_update, hcgpa]
    exact ⟨rfl, rfl⟩
  · intro r hr
    rw [f.getUpdateList_upload] at hr
    obtain ⟨cgpa, hcgpa, rfl⟩ := Option.map_eq_some_iff.1 (eq_of_append_toList hr)
    rw [f.historyInit_updated, f.newUpdate_update, hcgpa]
    exact ⟨rfl, rfl⟩
  · intro s h1 h2 hlevel hsemester
    obtain ⟨cgpa, hcgpa⟩ := Option.isSome_iff_exists.1 (f.isSome_newCgpa h1 h2 hlevel hsemester)
    rw [f.simulate_update, f.getUpdateList_upload, hcgpa]
    exact ⟨⟨_, rfl⟩, _, rfl⟩

/-- A second semester of four courses, after a first one of 4 points. -/
def freshmanFilling : Filling Double (List Course) where
  gradingSystem := "5"
  sheet := {
    courses := [⟨"Calculus", "MATH101", .int 3⟩, ⟨"Mechanics", "PHY102", .int 4⟩,
      ⟨"Library Skills", "LIB101", .int 0⟩, ⟨"Use of English", "ENG102", .int 2⟩]
    grades := ["C", "A", "F", "B"]
    length_eq := rfl
    known := by decide
    units_nonneg := by decide
    total_pos := by decide }
  list := [⟨"Calculus", "MATH101", .int 3⟩, ⟨"Mechanics", "PHY102", .int 4⟩,
    ⟨"Library Skills", "LIB101", .int 0⟩, ⟨"Use of English", "ENG102", .int 2⟩]
  level := "100"
  semester := "2nd"
  cgpa := Floating.ofInt 4

/-- The grades come back course by course, and a second save adds the same record. -/
theorem save_reopen_freshman : ∃ q s r,
    freshmanFilling.quick.calculate Double freshmanFilling.sheet.courses 1 [] = [q] ∧
    (QuickScreen.historyInit "5" q).scores = ["C", "A", "F", "B"] ∧
    SimulateScreen.simulate (D := Double) freshmanFilling.sheet.courses 1 freshmanFilling.update
      [] = [s] ∧
    (SimulateScreen.historyInit "5" s).scores = ["C", "A", "F", "B"] ∧
    SimulateScreen.simulate freshmanFilling.sheet.courses 2 (SimulateScreen.historyInit "5" s)
      [s] = [s, { s with timestamp := 2 }] ∧
    HiveUpdate.getUpdateList (freshmanFilling.update.upload freshmanFilling.sheet.courses 1
      blankDevice) = [r] ∧
    (UpdateScreen.historyInit "5" r).scores = ["C", "A", "F", "B"] := by
  have hsaves (simulates' : List (Simulate Double (List Course))) :=
    save_reopen freshmanFilling 1 2 [] [] [] simulates' blankDevice
  obtain ⟨⟨q, hq, hquick, -⟩, -, hreopen, hsaved⟩ := hsaves []
  obtain ⟨⟨s, hs⟩, r, hr⟩ := hsaved 2 (by decide) (by decide) (by decide) (by decide)
  obtain ⟨-, hreopenSimulate, -⟩ := hsaves [s]
  obtain ⟨hupdate, hagain⟩ := hreopenSimulate s hs
  exact ⟨q, s, r, hq, congrArg QuickScreen.scores hquick, hs, congrArg UpdateScreen.scores hupdate,
    hagain, hr, congrArg UpdateScreen.scores (hreopen r hr).1⟩

end StudyStats
