import Mathlib.Logic.Function.Basic
import StudyStats.Session

/-!
# Courses and scores frame by frame

A grade screen is built before its initialisation is over: `getGrade` reads a file, and what
follows its `await` runs some frames later. A fresh screen sets courses and scores before the
`await`. A screen over a record sets the courses before it and the scores after it.

## Main definitions

* `QuickScreen.initBefore`, `UpdateScreen.initBefore` and their `historyBefore` — the fields in
  the first frame; `Pending.finish` — what follows the `await`.
* `Calculator.step` — an open screen between its frames.

## Main results

* `Calculator.always_aligned`, `Calculator.always_aligned_fresh` — screens whose initialisation
  is over and fresh screens stay in step.
* `Calculator.always_aligned_iff` — the runs in which every score can be read.
-/

namespace StudyStats

open Dart

variable {D C : Type}

/-! ## Before the `await` -/

namespace QuickScreen

/-- The fields before initialisation. -/
def blank (empty : C) : QuickScreen C where
  courseData := empty
  semester := ""
  level := ""
  grades := []
  scores := []
  system := 5

/-- `init` up to its `await`. A null field of the user and a missing catalogue entry throw, and
leave the fields behind them as they are. -/
def initBefore (contents : C → List Course) (empty : C) (auth : AuthProvider D C) :
    Outcome (QuickScreen C) :=
  match auth.user.bind (·.semester) with
  | none => .threw (blank empty)
  | some semester =>
    match auth.user.bind (·.level) with
    | none => .threw { blank empty with semester }
    | some level =>
      let screen := { blank empty with semester, level := toString level }
      match auth.courseList screen.level semester with
      | none => .threw screen
      | some courseData =>
        .finished { screen with
          courseData, scores := List.replicate (contents courseData).length "-1" }

/-- `Historyinit` up to its `await`. -/
def historyBefore (quick : Quick C) : QuickScreen C where
  semester := quick.semester
  level := quick.level
  courseData := quick.courseData
  grades := []
  scores := []
  system := 5

end QuickScreen

namespace UpdateScreen

/-- `init` up to its `await`, as for the quick calculator. -/
def initBefore [Floating D] (contents : C → List Course) (empty : C) (auth : AuthProvider D C) :
    Outcome (UpdateScreen C) :=
  match auth.user.bind (·.semester) with
  | none => .threw (blank empty)
  | some semester =>
    match auth.user.bind (·.currentCgpa) with
    | none => .threw { blank empty with semester }
    | some cgpa =>
      let currentGpa := Floating.toString cgpa
      match auth.user.bind (·.level) with
      | none => .threw { blank empty with semester, currentGpa }
      | some level =>
        let screen := { blank empty with semester, currentGpa, level := toString level }
        match auth.courseList screen.level semester with
        | none => .threw screen
        | some courseData =>
          .finished { screen with
            courseData, scores := List.replicate (contents courseData).length "-1" }

/-- The fields in the first frame over a record; `UpdateHistoryInit` and `SimulateHistoryInit`
take them from records of their own. -/
def historyBefore (currentGpa semester level : String) (courseData : C) : UpdateScreen C where
  courseData := courseData
  semester := semester
  level := level
  grades := []
  scores := []
  system := 5
  currentGpa := currentGpa

end UpdateScreen

/-! ## After the `await` -/

/-- What an initialisation has still to do when `getGrade` returns. -/
inductive Pending where
  | fresh
  | history (scores : List ℤ)

/-- What `getGrade` sets and returns. -/
def Screen.receive (gradingSystem : String) : Screen C → Screen C
  | .quick s => let (system, grades) := getGrade gradingSystem; .quick { s with system, grades }
  | .simulate s =>
    let (system, grades) := getGrade gradingSystem; .simulate { s with system, grades }
  | .update s index =>
    let (system, grades) := getGrade gradingSystem; .update { s with system, grades } index

/-- The rest of the initialisation. Over a record it replaces the scores, whatever they are. -/
def Pending.finish (gradingSystem : String) (screen : Screen C) : Pending → Screen C
  | fresh => screen.receive gradingSystem
  | history scores =>
    (screen.receive gradingSystem).withScores
      (StatFunction.convertScoreToGrade scores (getGrade gradingSystem).1)

section Halves

variable {contents : C → List Course} {empty : C} {gs : String} {auth : AuthProvider D C}

/-- The two halves of an initialisation make the whole. -/
theorem finish_quick {screen : QuickScreen C}
    (h : QuickScreen.initBefore contents empty auth = .finished screen) :
    (QuickScreen.init contents empty gs auth).map .quick =
      some (Pending.fresh.finish gs (.quick screen)) := by
  unfold QuickScreen.initBefore at h
  split at h
  · cases h
  next semester hsemester =>
  split at h
  · cases h
  next level hlevel =>
  dsimp only at h
  split at h
  · cases h
  next courseData hlist =>
  cases h
  obtain ⟨user, huser, hsemester⟩ := Option.bind_eq_some_iff.1 hsemester
  rw [huser, Option.bind_some] at hlevel
  simp only [QuickScreen.init, huser, hsemester, hlevel, Option.bind_eq_bind, Option.bind_some]
  split
  · next hnone => cases hnone.symm.trans hlist
  · next hsome =>
    cases hsome.symm.trans hlist
    rfl

theorem finish_update [Floating D] {screen : UpdateScreen C}
    (h : UpdateScreen.initBefore contents empty auth = .finished screen) :
    ∃ screen', UpdateScreen.init contents empty gs auth = some screen' ∧
      Pending.fresh.finish gs (.update screen none) = .update screen' none ∧
      Pending.fresh.finish gs (.simulate screen) = .simulate screen' := by
  unfold UpdateScreen.initBefore at h
  split at h
  · cases h
  next semester hsemester =>
  split at h
  · cases h
  next cgpa hcgpa =>
  dsimp only at h
  split at h
  · cases h
  next level hlevel =>
  split at h
  · cases h
  next courseData hlist =>
  cases h
  obtain ⟨user, huser, hsemester⟩ := Option.bind_eq_some_iff.1 hsemester
  rw [huser, Option.bind_some] at hlevel hcgpa
  refine ⟨_, ?_, rfl, rfl⟩
  simp only [UpdateScreen.init, huser, hsemester, hlevel, hcgpa, Option.bind_eq_bind,
    Option.bind_some]
  split
  · next hnone => cases hnone.symm.trans hlist
  · next hsome =>
    cases hsome.symm.trans hlist
    rfl

/-- The same for the screens over a record. -/
theorem finish_history [Floating D] (quick : Quick C) (simulate : Simulate D C)
    (update : Update D C) (index : Option ℕ) :
    (Pending.history quick.scores).finish gs (.quick (.historyBefore quick)) =
      .quick (.historyInit gs quick) ∧
    (Pending.history simulate.scores).finish gs (.simulate (.historyBefore
        (Floating.toString simulate.pastGpa) simulate.semester simulate.level
        simulate.courseData)) =
      .simulate (SimulateScreen.historyInit gs simulate) ∧
    (Pending.history update.scores).finish gs (.update (.historyBefore update.pastSemester
        update.semester update.level update.courseData) index) =
      .update (.historyInit gs update) index :=
  ⟨rfl, rfl, rfl⟩

end Halves

/-! ## An open screen -/

/-- The user's own semester, or a record; the screen that edits an update knows its index. -/
inductive Opening (D R : Type) where
  | fresh (kind : Kind)
  | quick (r : Quick R)
  | simulate (r : Simulate D R)
  | update (r : Update D R) (index : Option ℕ)

variable {R : Type}

/-- Course list and scores of the record a screen is opened over. -/
def Opening.record : Opening D R → Option (R × List ℤ)
  | fresh _ => none
  | quick r => some (r.courseData, r.scores)
  | simulate r => some (r.courseData, r.scores)
  | update r _ => some (r.courseData, r.scores)

/-- The record has as many courses as scores. -/
def Opening.EquallyLong (lists : R → List Course) (o : Opening D R) : Prop :=
  ∀ x ∈ o.record, x.2.length = (lists x.1).length

def Opening.NoCourses (lists : R → List Course) (o : Opening D R) : Prop :=
  ∀ x ∈ o.record, lists x.1 = []

/-- An open screen and the lists it shares with the provider and the records, by reference. -/
structure Calculator (D R : Type) where
  lists : R → List Course
  auth : AuthProvider D R
  screen : Screen R
  /-- the initialisation that waits for the grades -/
  pending : Option Pending

inductive CalculatorAction where
  /-- `getGrade` returns, with the grading system of the school -/
  | loaded (gradingSystem : String)
  /-- `getGrade` throws -/
  | failed
  | changeSemester (value : String)
  | changeLevel (value : String)
  | tile (e : CourseEdit)

namespace Calculator

/-- The outcome of the first half of an `init`; one that threw is over. -/
def ofOutcome {σ : Type} (lists : R → List Course) (auth : AuthProvider D R) (wrap : σ → Screen R) :
    Outcome σ → Calculator D R
  | .finished s => ⟨lists, auth, wrap s, some .fresh⟩
  | .threw s => ⟨lists, auth, wrap s, none⟩

/-- The first frame. `own` refers to the empty list a new screen has. -/
def start [Floating D] [DecidableEq R] (lists : R → List Course) (auth : AuthProvider D R)
    (own : R) : Opening D R → Calculator D R
  | .fresh kind =>
    let lists := Function.update lists own []
    match kind with
    | .quick => ofOutcome lists auth .quick (QuickScreen.initBefore lists own auth)
    | .simulate => ofOutcome lists auth .simulate (UpdateScreen.initBefore lists own auth)
    | .update => ofOutcome lists auth (.update · none) (UpdateScreen.initBefore lists own auth)
  | .quick r => ⟨lists, auth, .quick (.historyBefore r), some (.history r.scores)⟩
  | .simulate r =>
    ⟨lists, auth, .simulate (.historyBefore (Floating.toString r.pastGpa) r.semester r.level
      r.courseData), some (.history r.scores)⟩
  | .update r index =>
    ⟨lists, auth, .update (.historyBefore r.pastSemester r.semester r.level r.courseData) index,
      some (.history r.scores)⟩

def courses (s : Calculator D R) : List Course := s.lists s.screen.courseData

/-- Only the quick calculator has drop-downs. -/
def dropDown (s : Calculator D R) (choose : QuickScreen R → QuickScreen R) :
    Option (Calculator D R) :=
  match s.screen with
  | .quick screen => some { s with screen := .quick (choose screen) }
  | _ => none

def step [DecidableEq R] (s : Calculator D R) : CalculatorAction → Option (Calculator D R)
  | .loaded gradingSystem => s.pending.map fun p =>
      { s with screen := p.finish gradingSystem s.screen, pending := none }
  | .failed => s.pending.map fun _ => { s with pending := none }
  | .changeSemester value => s.dropDown (·.changeSemester s.lists s.auth value)
  | .changeLevel value => s.dropDown (·.changeLevel s.lists s.auth value)
  | .tile e => do
    let (courses, scores) ← e.apply s.screen.grades s.courses s.screen.scores
    return { s with
      lists := Function.update s.lists s.screen.courseData courses
      screen := s.screen.withScores scores }

/-- There is a score for every course, so that each tile can be built and the check before a
result reads no score that is not there. -/
structure Aligned (s : Calculator D R) : Prop where
  length_eq : s.screen.scores.length = s.courses.length
  readable : ∀ index < s.courses.length, (s.screen.scores[index]?).isSome
  checked : (UpdateScreen.complete s.courses s.screen.scores).isSome

variable {s s' : Calculator D R} {a : CalculatorAction}

theorem isSome_complete {courses : List Course} {scores : List String}
    (h : courses.length ≤ scores.length) : (UpdateScreen.complete courses scores).isSome := by
  induction courses generalizing scores with
  | nil => rfl
  | cons c cs ih =>
    cases scores with
    | nil => cases h
    | cons g gs =>
      rw [UpdateScreen.complete]
      split_ifs
      · rfl
      · exact ih (Nat.le_of_succ_le_succ h)

theorem aligned_of_length (h : s.screen.scores.length = s.courses.length) : s.Aligned := by
  refine ⟨h, fun index hindex => ?_, isSome_complete h.ge⟩
  rw [List.getElem?_eq_getElem (h ▸ hindex)]
  rfl

/-! ## Steps -/

/-- A record's scores arrive only while no course is on the screen. -/
def LoadsEmpty (s : Calculator D R) : CalculatorAction → Prop
  | .loaded _ =>
    match s.pending with
    | some (.history _) => s.courses = []
    | _ => True
  | _ => True

theorem loadsEmpty_iff : s.LoadsEmpty a ↔
    ∀ gs scores, a = .loaded gs → s.pending = some (.history scores) → s.courses = [] := by
  unfold LoadsEmpty
  split
  · next gs =>
    split
    · next scores hp => exact ⟨fun h _ _ _ _ => h, fun h => h gs scores rfl hp⟩
    · next hne => exact iff_of_true trivial fun _ scores _ hp => absurd hp (hne scores)
  · next hne => exact iff_of_true trivial fun gs _ ha => absurd ha (hne gs)

/-- Nothing is out of step, and a record whose scores are still to come has none. -/
structure Sound (s : Calculator D R) : Prop where
  length_eq : s.screen.scores.length = s.courses.length
  noScores : ∀ scores, s.pending = some (.history scores) → scores = []

theorem scores_receive (gs : String) (screen : Screen R) :
    (screen.receive gs).scores = screen.scores := by
  cases screen <;> rfl

theorem courseData_receive (gs : String) (screen : Screen R) :
    (screen.receive gs).courseData = screen.courseData := by
  cases screen <;> rfl

theorem courseData_finish (gs : String) (screen : Screen R) (p : Pending) :
    (p.finish gs screen).courseData = screen.courseData := by
  cases p with
  | fresh => exact courseData_receive gs screen
  | history scores =>
    rw [Pending.finish, Screen.courseData_withScores, courseData_receive]

theorem reload_length (lists : R → List Course) (auth : AuthProvider D R)
    {screen : QuickScreen R} (h : screen.scores.length = (lists screen.courseData).length) :
    (screen.reload lists auth).scores.length =
      (lists (screen.reload lists auth).courseData).length := by
  rcases reload_cases lists auth screen with hsame | ⟨hblank, -⟩
  · rwa [hsame]
  · have hscores : (screen.reload lists auth).scores = _ := hblank.scores
    rw [hscores, List.length_replicate]
    rfl

theorem Sound.loaded (h : s.Sound) {p : Pending} (hp : s.pending = some p) (gs : String)
    (hempty : s.LoadsEmpty (.loaded gs)) :
    Sound { s with screen := p.finish gs s.screen, pending := none } := by
  refine ⟨?_, fun _ hpending => by cases hpending⟩
  rw [courses, courseData_finish]
  cases p with
  | fresh =>
    rw [Pending.finish, scores_receive]
    exact h.length_eq
  | history scores =>
    have hcourses : s.lists s.screen.courseData = [] :=
      loadsEmpty_iff.1 hempty gs scores rfl hp
    rw [h.noScores scores hp, Pending.finish, Screen.scores_withScores, hcourses]
    rfl

theorem Sound.tile [DecidableEq R] (h : s.Sound) {e : CourseEdit}
    (hstep : s.step (.tile e) = some s') :
    s'.Sound := by
  simp only [step, Option.bind_eq_bind, Option.bind_eq_some_iff, Option.pure_def,
    Option.some.injEq] at hstep
  obtain ⟨⟨courses, scores⟩, happly, rfl⟩ := hstep
  refine ⟨?_, h.noScores⟩
  obtain ⟨hlength, -⟩ := CourseEdit.apply_scores happly h.length_eq
  simpa [Calculator.courses] using hlength

theorem Sound.dropDown (h : s.Sound) {choose : QuickScreen R → QuickScreen R}
    (hchoose : ∀ screen : QuickScreen R,
      screen.scores.length = (s.lists screen.courseData).length →
      (choose screen).scores.length = (s.lists (choose screen).courseData).length)
    (hstep : s.dropDown choose = some s') : s'.Sound := by
  unfold Calculator.dropDown at hstep
  split at hstep
  · next screen hscreen =>
    cases hstep
    have hlength := h.length_eq
    rw [courses, hscreen] at hlength
    exact ⟨hchoose screen hlength, h.noScores⟩
  · cases hstep

theorem Sound.step [DecidableEq R] (h : s.Sound) (hempty : s.LoadsEmpty a)
    (hstep : s.step a = some s') : s'.Sound := by
  cases a with
  | loaded gs =>
    obtain ⟨p, hp, rfl⟩ := Option.map_eq_some_iff.1 hstep
    exact h.loaded hp gs hempty
  | failed =>
    obtain ⟨p, -, rfl⟩ := Option.map_eq_some_iff.1 hstep
    exact ⟨h.length_eq, fun _ hpending => by cases hpending⟩
  | changeSemester value =>
    refine h.dropDown (fun screen hlength => ?_) hstep
    exact reload_length s.lists s.auth hlength
  | changeLevel value =>
    refine h.dropDown (fun screen hlength => ?_) hstep
    exact reload_length s.lists s.auth hlength
  | tile e => exact h.tile hstep

/-- A step that leaves courses and scores in step has met the condition. -/
theorem Sound.loadsEmpty [DecidableEq R] (h : s.Sound) (hstep : s.step a = some s')
    (haligned : s'.Aligned) : s.LoadsEmpty a := by
  rw [loadsEmpty_iff]
  rintro gs scores rfl hp
  simp only [Calculator.step, hp, Option.map_some, Option.some.injEq] at hstep
  subst hstep
  have hlength := haligned.length_eq
  rw [h.noScores scores hp, courses, courseData_finish, Pending.finish,
    Screen.scores_withScores] at hlength
  exact List.length_eq_zero_iff.1 hlength.symm

theorem pending_step [DecidableEq R] (hstep : s.step a = some s') :
    s'.pending = none ∨ s'.pending = s.pending := by
  cases a with
  | loaded gs =>
    obtain ⟨p, -, rfl⟩ := Option.map_eq_some_iff.1 hstep
    exact .inl rfl
  | failed =>
    obtain ⟨p, -, rfl⟩ := Option.map_eq_some_iff.1 hstep
    exact .inl rfl
  | changeSemester value =>
    simp only [Calculator.step, Calculator.dropDown] at hstep
    split at hstep <;> cases hstep
    exact .inr rfl
  | changeLevel value =>
    simp only [Calculator.step, Calculator.dropDown] at hstep
    split at hstep <;> cases hstep
    exact .inr rfl
  | tile e =>
    simp only [Calculator.step, Option.bind_eq_bind, Option.bind_eq_some_iff, Option.pure_def,
      Option.some.injEq] at hstep
    obtain ⟨-, -, rfl⟩ := hstep
    exact .inr rfl

/-- Courses and scores in step stay so once no record is to be read any more. -/
theorem always_aligned [DecidableEq R] (hlength : s.screen.scores.length = s.courses.length)
    (hpending : ∀ scores, s.pending ≠ some (.history scores)) (as : List CalculatorAction) :
    Machine.Always Calculator.step Aligned as s := by
  refine Machine.always_of_each
    (fun s => s.Sound ∧ ∀ scores, s.pending ≠ some (.history scores)) (P := fun _ _ => True)
    (fun _ h => aligned_of_length h.1.length_eq) ?_
    ⟨⟨hlength, fun scores h => absurd h (hpending scores)⟩, hpending⟩
    (Machine.each_of_forall (fun _ _ _ => trivial) s)
  rintro s a s' ⟨hsound, hnone⟩ - hstep
  have hempty : s.LoadsEmpty a :=
    loadsEmpty_iff.2 fun _ scores _ hp => absurd hp (hnone scores)
  refine ⟨hsound.step hempty hstep, fun scores hp => ?_⟩
  rcases pending_step hstep with hdone | hsame
  · rw [hdone] at hp
    cases hp
  · exact hnone scores (hsame ▸ hp)

/-! ## Whole runs -/

theorem length_quick_initBefore {contents : C → List Course} {empty : C}
    {auth : AuthProvider D C} (hempty : contents empty = []) :
    (QuickScreen.initBefore contents empty auth).state.scores.length =
      (contents (QuickScreen.initBefore contents empty auth).state.courseData).length := by
  unfold QuickScreen.initBefore
  dsimp only
  repeat' split
  all_goals simp [Outcome.state, QuickScreen.blank, hempty]

theorem length_update_initBefore [Floating D] {contents : C → List Course} {empty : C}
    {auth : AuthProvider D C} (hempty : contents empty = []) :
    (UpdateScreen.initBefore contents empty auth).state.scores.length =
      (contents (UpdateScreen.initBefore contents empty auth).state.courseData).length := by
  unfold UpdateScreen.initBefore
  dsimp only
  repeat' split
  all_goals simp [Outcome.state, UpdateScreen.blank, hempty]

/-- The first half of an `init` leaves no record to be read. -/
theorem length_ofOutcome {σ : Type} {lists : R → List Course} {auth : AuthProvider D R}
    {wrap : σ → Screen R} {o : Outcome σ}
    (h : (wrap o.state).scores.length = (lists (wrap o.state).courseData).length) :
    (ofOutcome lists auth wrap o).screen.scores.length =
      (ofOutcome lists auth wrap o).courses.length ∧
    ∀ scores, (ofOutcome lists auth wrap o).pending ≠ some (.history scores) := by
  cases o with
  | finished s => exact ⟨h, fun _ hp => by cases hp⟩
  | threw s => exact ⟨h, fun _ hp => by cases hp⟩

section Runs

variable [Floating D] [DecidableEq R] (lists : R → List Course) (auth : AuthProvider D R) (own : R)

/-- A fresh screen is in step from its first frame on, also where its initialisation throws. -/
theorem start_fresh (kind : Kind) :
    (start lists auth own (.fresh kind)).screen.scores.length =
      (start lists auth own (.fresh kind)).courses.length ∧
    ∀ scores, (start lists auth own (.fresh kind)).pending ≠ some (.history scores) := by
  have hown : Function.update lists own [] own = [] := Function.update_self ..
  cases kind with
  | quick => exact length_ofOutcome (length_quick_initBefore hown)
  | simulate => exact length_ofOutcome (length_update_initBefore hown)
  | update => exact length_ofOutcome (length_update_initBefore hown)

theorem start_record {o : Opening D R} {r : R} {scores : List ℤ} (h : o.record = some (r, scores)) :
    (start lists auth own o).screen.scores = [] ∧ (start lists auth own o).courses = lists r ∧
      (start lists auth own o).pending = some (.history scores) := by
  cases o with
  | fresh kind => cases h
  | quick q => cases h; exact ⟨rfl, rfl, rfl⟩
  | simulate q => cases h; exact ⟨rfl, rfl, rfl⟩
  | update q index => cases h; exact ⟨rfl, rfl, rfl⟩

/-- Fresh screens keep courses and scores in step, whatever is done in whichever frame. -/
theorem always_aligned_fresh (kind : Kind) (as : List CalculatorAction) :
    Machine.Always step Aligned as (start lists auth own (.fresh kind)) :=
  always_aligned (start_fresh lists auth own kind).1 (start_fresh lists auth own kind).2 as

theorem sound_start {o : Opening D R} (hequal : o.EquallyLong lists)
    (hempty : o.NoCourses lists) : (start lists auth own o).Sound := by
  cases hrecord : o.record with
  | none =>
    cases o with
    | fresh kind =>
      obtain ⟨hlength, hpending⟩ := start_fresh lists auth own kind
      exact ⟨hlength, fun scores hp => absurd hp (hpending scores)⟩
    | quick => cases hrecord
    | simulate => cases hrecord
    | update => cases hrecord
  | some x =>
    obtain ⟨hscores, hcourses, hpending⟩ := start_record lists auth own hrecord
    have hx := hempty x hrecord
    constructor
    · rw [hscores, hcourses, hx]
      rfl
    · intro scores hp
      cases hpending.symm.trans hp
      have hlength := hequal x hrecord
      rw [hx] at hlength
      exact List.length_eq_zero_iff.1 hlength

/-- Courses and scores are in step in all frames exactly if the record has no courses, should
there be one, and its scores arrive while the screen has none. -/
theorem always_aligned_iff {o : Opening D R} (hequal : o.EquallyLong lists)
    {as : List CalculatorAction} {s' : Calculator D R}
    (hrun : Machine.run step as (start lists auth own o) = some s') :
    Machine.Always step Aligned as (start lists auth own o) ↔
      o.NoCourses lists ∧ Machine.Each step LoadsEmpty as (start lists auth own o) := by
  have hexact : o.NoCourses lists →
      (Machine.Always step Aligned as (start lists auth own o) ↔
        Machine.Each step LoadsEmpty as (start lists auth own o)) := fun hempty =>
    Machine.always_iff_each Sound (fun _ h => aligned_of_length h.length_eq)
      (fun _ _ _ h hstep haligned => h.loadsEmpty hstep haligned)
      (fun _ _ _ h hQ hstep => h.step hQ hstep) (sound_start lists auth own hequal hempty) hrun
  refine ⟨fun halways => ?_, fun ⟨hempty, heach⟩ => (hexact hempty).2 heach⟩
  have hempty : o.NoCourses lists := by
    intro x hx
    obtain ⟨hscores, hcourses, -⟩ := start_record lists auth own hx
    -- the first frame has the record's courses and no score
    have hlength := halways.head.length_eq
    rw [hscores, hcourses] at hlength
    exact List.length_eq_zero_iff.1 hlength.symm
  exact ⟨hempty, (hexact hempty).1 halways⟩

end Runs

/-- The lists of two quick records: one without a course, one with a single course. -/
def sampleLists : Bool → List Course
  | false => []
  | true => [⟨"Calculus", "MATH101", .int 3⟩]

def sampleQuick (scores : List ℤ) (courseData : Bool) : Opening Double Bool :=
  .quick {
    result := "5.0"
    gradingSystem := "5"
    scores, courseData
    level := "100"
    semester := "1st"
    timestamp := 0 }

/-- Over a record without courses nothing is wrong if the first course is added late enough. -/
theorem always_aligned_late : Machine.Always step Aligned
    [.loaded "5", .tile (.add "Physics" "PHY101" "2"), .tile (.choose 0 "A")]
    (start sampleLists ⟨none, none⟩ false (sampleQuick [] false)) := by
  have hequal : (sampleQuick [] false).EquallyLong sampleLists := by
    intro x hx
    cases hx
    rfl
  have hempty : (sampleQuick [] false).NoCourses sampleLists := by
    intro x hx
    cases hx
    rfl
  obtain ⟨s', hrun⟩ : ∃ s', Machine.run step
      [.loaded "5", .tile (.add "Physics" "PHY101" "2"), .tile (.choose 0 "A")]
      (start sampleLists ⟨none, none⟩ false (sampleQuick [] false)) = some s' :=
    Option.isSome_iff_exists.1 (by decide +kernel)
  refine (always_aligned_iff sampleLists _ false hequal hrun).2 ⟨hempty, rfl, fun _ _ => ?_⟩
  exact ⟨trivial, fun _ _ => ⟨trivial, fun _ _ => trivial⟩⟩

/-- A record with a course: in the first frame its score cannot be read. And a course added to
a record without any before the grades are there loses its score. -/
theorem always_aligned_fails :
    ((sampleQuick [5] true).EquallyLong sampleLists ∧
      (start sampleLists ⟨none, none⟩ false (sampleQuick [5] true)).courses.length = 1 ∧
      (start sampleLists ⟨none, none⟩ false (sampleQuick [5] true)).screen.scores[0]? = none ∧
      UpdateScreen.complete (start sampleLists ⟨none, none⟩ false (sampleQuick [5] true)).courses
        (start sampleLists ⟨none, none⟩ false (sampleQuick [5] true)).screen.scores = none ∧
      ¬ Machine.Always step Aligned []
        (start sampleLists ⟨none, none⟩ false (sampleQuick [5] true))) ∧
    (Machine.run step [.tile (.add "Physics" "PHY101" "2"), .loaded "5"]
      (start sampleLists ⟨none, none⟩ false (sampleQuick [] false))).map
        (fun s => (s.courses.length, s.screen.scores.length)) = some (1, 0) := by
  refine ⟨⟨?_, rfl, rfl, rfl, fun halways => ?_⟩, by decide +kernel⟩
  · intro x hx
    cases hx
    rfl
  · have haligned : (start sampleLists ⟨none, none⟩ false (sampleQuick [5] true)).Aligned := halways
    cases haligned.length_eq

end Calculator

end StudyStats
