import StudyStats.StartingCgpa

/-!
# The profile form while it loads

Choosing a university, a faculty or a course starts a load, and what was chosen takes effect
before it, for the course, or after it. Loads finish in any order, none is ever cancelled and
what an earlier one brought is not cleared, so the form can show one programme and hold the
course map of another.

## Main definitions

* `ProfileForm.step` — a choice, the end of a load or a press of the button.
* `ProfileForm.Settled` — a press after the right load.

## Main results

* `submits_match` — runs in which what is submitted belongs together.
-/

namespace StudyStats

open Dart

variable {D C : Type} [Floating D]

/-- The files under `assets/data`: the course maps and each university's grading system. -/
structure Assets (C : Type) where
  catalogue : Catalogue C
  gradingSystem : String → Option String

/-- `getGradePoint` -/
def FillProfileFunction.getGradePoint (loaded : Bool) (assets : Assets C) (uni : String) :
    String :=
  if loaded then (assets.gradingSystem uni).getD "" else ""

/-- A handler at its await. The load of a course map has a serial number, which nothing
reads. -/
inductive FormLoad where
  /-- `getFaculty`, for a university that was chosen -/
  | faculties (value : String)
  /-- `getGradePoint`, after it -/
  | gradePoint (value : String)
  /-- `getCourseFromFaculty`, for a faculty that was chosen -/
  | courses (value : String)
  | courseData (serial : ℕ) (uni faculty course : String)

/-- A menu shows the items it was last built with, so the values are not tied to what has
been loaded since. -/
inductive FormAction where
  | university (value : String)
  | faculty (value : String)
  | course (value : String)
  | level (value : String)
  | semester (value : String)
  | gpa (text : String)
  /-- The load at `i` ends. A file that cannot be read counts as not loaded. -/
  | complete (i : ℕ) (loaded : Bool)
  | press (accepted : Bool)

/-- The form, the provider and the loads under way. The last three fields only record what
happened: how often a course was chosen, which of these choices the course map that came last
was loaded for, and whether another university took effect since the last of them. -/
structure ProfileForm (D C : Type) where
  screen : FillProfileScreen C
  session : SignUp D C
  loads : List FormLoad
  chosen : ℕ
  arrived : ℕ
  moved : Bool

namespace ProfileForm

/-- The form once the universities are there. -/
def start (universities : List String) (session : SignUp D C) : ProfileForm D C where
  screen := {
    universities, university := "", faculty := "", course := "", level := "", semester := ""
    gpa := "", gradePoint := "", courseData := none }
  session := session
  loads := []
  chosen := 0
  arrived := 0
  moved := false

variable (assets : Assets C)

/-- What a handler does after its await. -/
def resume (loaded : Bool) (form : ProfileForm D C) : FormLoad → ProfileForm D C
  | .faculties value => { form with loads := form.loads ++ [.gradePoint value] }
  | .gradePoint value =>
    { form with
      screen := { form.screen with
        gradePoint := FillProfileFunction.getGradePoint loaded assets value
        university := value }
      moved := form.moved || value ≠ form.screen.university }
  | .courses value => { form with screen := { form.screen with faculty := value, course := "" } }
  | .courseData serial uni faculty course =>
    { form with
      screen := { form.screen with
        courseData :=
          some (FillProfileFunction.getCourseData loaded assets.catalogue uni faculty course) }
      arrived := serial }

/-- The handler of the course menu, up to its await. -/
def chooseCourse (value : String) (form : ProfileForm D C) : ProfileForm D C :=
  if form.screen.course ≠ value then
    { form with
      screen := { form.screen with course := value }
      loads := form.loads ++
        [.courseData (form.chosen + 1) form.screen.university form.screen.faculty value]
      chosen := form.chosen + 1
      moved := false }
  else form

def step (hashPassword : String → String) (form : ProfileForm D C) :
    FormAction → Option (ProfileForm D C)
  | .university value => some { form with loads := form.loads ++ [.faculties value] }
  | .faculty value => some { form with loads := form.loads ++ [.courses value] }
  | .course value => some (form.chooseCourse value)
  | .level value =>
    if value ∈ FillProfileFunction.levels then
      some { form with screen := { form.screen with level := value } }
    else none
  | .semester value =>
    if value ∈ FillProfileFunction.semester then
      some { form with screen := { form.screen with semester := value } }
    else none
  | .gpa text => some { form with screen := { form.screen with gpa := text } }
  | .complete i loaded => do
    let load ← form.loads[i]?
    return resume assets loaded { form with loads := form.loads.eraseIdx i } load
  | .press accepted =>
    if form.screen.enable then
      some { form with
        session := (form.screen.onTap hashPassword accepted form.session).getD form.session }
    else none

/-- What is stored is a user and the course map of the user's programme, whose level is within
its years. -/
def StoredTogether (session : SignUp D C) : Prop :=
  ∃ user university faculty course level year, session.auth.user = some user ∧
    user.university = some university ∧ user.faculty = some faculty ∧
    user.course = some course ∧
    session.auth.courseData = some (assets.catalogue.data university faculty course) ∧
    user.level = some level ∧
    intParse (assets.catalogue.data university faculty course).yearText = some year ∧
    level ≤ 100 * year

/-- A press that gets past the checks made them on the course map of the programme it submits,
and what an accepted one stores belongs together. -/
def Matches (hashPassword : String → String) (form : ProfileForm D C) : FormAction → Prop
  | .press accepted => form.screen.passes D = true →
      form.screen.courseData = some (assets.catalogue.data form.screen.university
        form.screen.faculty form.screen.course) ∧
      (accepted = true → ∀ w', form.screen.onTap hashPassword true form.session = some w' →
        StoredTogether assets w')
  | _ => True

/-- A press that gets past the checks comes when the course map that was loaded last is the one
of the last choice of a course, and no other university took effect after that choice. -/
def Settled (form : ProfileForm D C) : FormAction → Prop
  | .press _ => form.screen.passes D = true → form.arrived = form.chosen ∧ form.moved = false
  | _ => True

instance (form : ProfileForm D C) : (a : FormAction) → Decidable (form.Settled a)
  | .press _ => inferInstanceAs (Decidable
      (form.screen.passes D = true → form.arrived = form.chosen ∧ form.moved = false))
  | .university _ | .faculty _ | .course _ | .level _ | .semester _ | .gpa _ | .complete .. =>
    isTrue trivial

/-- The form shows the programme. -/
def Shows (form : ProfileForm D C) (uni faculty course : String) : Prop :=
  form.screen.university = uni ∧ form.screen.faculty = faculty ∧ form.screen.course = course

/-- While a course is chosen and the university has stayed, the load of the last choice is for
the programme the form shows. -/
structure Tracked (form : ProfileForm D C) : Prop where
  loads : ∀ serial uni faculty course, .courseData serial uni faculty course ∈ form.loads →
    serial ≤ form.chosen ∧ (serial = form.chosen → form.moved = false →
      form.screen.course ≠ "" → form.Shows uni faculty course)
  arrived_le : form.arrived ≤ form.chosen
  data : form.arrived = form.chosen → form.moved = false → form.screen.course ≠ "" →
    ∃ loaded, form.screen.courseData = some (FillProfileFunction.getCourseData loaded
      assets.catalogue form.screen.university form.screen.faculty form.screen.course)
  level : form.screen.level = "" ∨ form.screen.level ∈ FillProfileFunction.levels
  user : form.session.auth.user.isSome

variable {assets} {hashPassword : String → String} {form form' : ProfileForm D C}

/-! ## What each action keeps -/

omit [Floating D] in
/-- Nothing that matters here has changed, and no load of a course map was added. -/
theorem Tracked.keep (h : Tracked assets form)
    (hloads : ∀ serial uni faculty course, .courseData serial uni faculty course ∈ form'.loads →
      .courseData serial uni faculty course ∈ form.loads)
    (hscreen : form'.Shows form.screen.university form.screen.faculty form.screen.course)
    (hdata : form'.screen.courseData = form.screen.courseData)
    (hcount : form'.chosen = form.chosen ∧ form'.arrived = form.arrived ∧
      form'.moved = form.moved)
    (hlevel : form'.screen.level = form.screen.level ∨
      form'.screen.level ∈ FillProfileFunction.levels)
    (huser : form'.session.auth.user.isSome) : Tracked assets form' := by
  obtain ⟨huni, hfaculty, hcourse⟩ := hscreen
  obtain ⟨hchosen, harrived, hmoved⟩ := hcount
  refine ⟨?_, ?_, ?_, ?_, huser⟩
  · intro serial uni faculty course hmem
    obtain ⟨hle, hshows⟩ := h.loads serial uni faculty course (hloads _ _ _ _ hmem)
    rw [Shows, huni, hfaculty, hcourse, hchosen, hmoved]
    exact ⟨hle, hshows⟩
  · rw [hchosen, harrived]
    exact h.arrived_le
  · rw [huni, hfaculty, hcourse, hchosen, harrived, hmoved, hdata]
    exact h.data
  · rcases hlevel with hsame | hmem
    · rw [hsame]
      exact h.level
    · exact .inr hmem

omit [Floating D] in
/-- A course that is chosen starts the load that is tracked from then on. -/
theorem Tracked.chooseCourse (h : Tracked assets form) (value : String) :
    Tracked assets (form.chooseCourse value) := by
  unfold ProfileForm.chooseCourse
  split_ifs with hne
  · refine ⟨?_, Nat.le_succ_of_le h.arrived_le, ?_, h.level, h.user⟩
    · intro serial uni faculty course hmem
      rcases List.mem_append.1 hmem with hold | hnew
      · have hle := (h.loads serial uni faculty course hold).1
        exact ⟨Nat.le_succ_of_le hle, fun hserial => by dsimp only at hserial; omega⟩
      · cases List.mem_singleton.1 hnew
        exact ⟨le_rfl, fun _ _ _ => ⟨rfl, rfl, rfl⟩⟩
    · intro harrived
      have hle := h.arrived_le
      dsimp only at harrived
      omega
  · exact h

omit [Floating D] in
/-- What a load brings is for the programme its choice was made for. -/
theorem Tracked.resume (h : Tracked assets form) (loaded : Bool) {load : FormLoad}
    (hload : ∀ serial uni faculty course, load = .courseData serial uni faculty course →
      serial ≤ form.chosen ∧ (serial = form.chosen → form.moved = false →
        form.screen.course ≠ "" → form.Shows uni faculty course)) :
    Tracked assets (resume assets loaded form load) := by
  cases load with
  | faculties value =>
    refine h.keep ?_ ⟨rfl, rfl, rfl⟩ rfl ⟨rfl, rfl, rfl⟩ (.inl rfl) h.user
    intro serial uni faculty course hmem
    rcases List.mem_append.1 hmem with hold | hnew
    · exact hold
    · cases List.mem_singleton.1 hnew
  | gradePoint value =>
    -- a university that stays leaves everything, another one is recorded
    have hsame : ∀ {b : Bool}, (b || decide (value ≠ form.screen.university)) = false →
        b = false ∧ value = form.screen.university := by
      intro b hmoved
      simpa using hmoved
    refine ⟨?_, h.arrived_le, ?_, h.level, h.user⟩
    · intro serial uni faculty course hmem
      obtain ⟨hle, hshows⟩ := h.loads serial uni faculty course hmem
      refine ⟨hle, fun hserial hmoved hcourse => ?_⟩
      obtain ⟨hmoved, hvalue⟩ := hsame hmoved
      obtain ⟨huni, hrest⟩ := hshows hserial hmoved hcourse
      exact ⟨hvalue.trans huni, hrest⟩
    · intro harrived hmoved hcourse
      obtain ⟨hmoved, hvalue⟩ := hsame hmoved
      obtain ⟨loaded', hdata⟩ := h.data harrived hmoved hcourse
      exact ⟨loaded', hvalue ▸ hdata⟩
  | courses value =>
    refine ⟨?_, h.arrived_le, fun _ _ hcourse => absurd rfl hcourse, h.level, h.user⟩
    intro serial uni faculty course hmem
    exact ⟨(h.loads serial uni faculty course hmem).1, fun _ _ hcourse => absurd rfl hcourse⟩
  | courseData serial uni faculty course =>
    obtain ⟨hle, hshows⟩ := hload serial uni faculty course rfl
    refine ⟨h.loads, hle, fun hserial hmoved hcourse => ⟨loaded, ?_⟩, h.level, h.user⟩
    obtain ⟨rfl, rfl, rfl⟩ := hshows hserial hmoved hcourse
    rfl

/-- A press leaves someone signed in. -/
theorem isSome_onTap {screen : FillProfileScreen C} {accepted : Bool} {w : SignUp D C}
    (hw : w.auth.user.isSome) :
    ((screen.onTap hashPassword accepted w).getD w).auth.user.isSome := by
  cases htap : screen.onTap hashPassword accepted w with
  | none => exact hw
  | some w' =>
    rcases FillProfileScreen.onTap_cases htap with ⟨-, rfl⟩ | ⟨-, _, filled, _, -, -, rfl⟩
    · exact hw
    · cases accepted <;> rfl

theorem Tracked.step {a : FormAction} (h : Tracked assets form)
    (hstep : step assets hashPassword form a = some form') : Tracked assets form' := by
  cases a with
  | university value =>
    cases hstep
    refine h.keep ?_ ⟨rfl, rfl, rfl⟩ rfl ⟨rfl, rfl, rfl⟩ (.inl rfl) h.user
    intro serial uni faculty course hmem
    simpa using hmem
  | faculty value =>
    cases hstep
    refine h.keep ?_ ⟨rfl, rfl, rfl⟩ rfl ⟨rfl, rfl, rfl⟩ (.inl rfl) h.user
    intro serial uni faculty course hmem
    simpa using hmem
  | course value =>
    cases hstep
    exact h.chooseCourse value
  | level value =>
    simp only [ProfileForm.step] at hstep
    split_ifs at hstep with hvalue
    cases hstep
    exact h.keep (fun _ _ _ _ => id) ⟨rfl, rfl, rfl⟩ rfl ⟨rfl, rfl, rfl⟩ (.inr hvalue) h.user
  | semester value =>
    simp only [ProfileForm.step] at hstep
    split_ifs at hstep
    cases hstep
    exact h.keep (fun _ _ _ _ => id) ⟨rfl, rfl, rfl⟩ rfl ⟨rfl, rfl, rfl⟩ (.inl rfl) h.user
  | gpa text =>
    cases hstep
    exact h.keep (fun _ _ _ _ => id) ⟨rfl, rfl, rfl⟩ rfl ⟨rfl, rfl, rfl⟩ (.inl rfl) h.user
  | complete i loaded =>
    obtain ⟨load, hload, hstep⟩ := Option.bind_eq_some_iff.1 hstep
    cases hstep
    have herased : Tracked assets { form with loads := form.loads.eraseIdx i } :=
      h.keep (fun _ _ _ _ => List.mem_of_mem_eraseIdx) ⟨rfl, rfl, rfl⟩ rfl ⟨rfl, rfl, rfl⟩
        (.inl rfl) h.user
    refine herased.resume loaded ?_
    rintro serial uni faculty course rfl
    exact h.loads serial uni faculty course (List.mem_of_getElem? hload)
  | press accepted =>
    simp only [ProfileForm.step] at hstep
    split_ifs at hstep
    cases hstep
    exact h.keep (fun _ _ _ _ => id) ⟨rfl, rfl, rfl⟩ rfl ⟨rfl, rfl, rfl⟩ (.inl rfl)
      (isSome_onTap h.user)

/-! ## What a press submits -/

/-- The level the button has checked against the years of the course map. -/
theorem fits_of_check {screen : FillProfileScreen C} (h : screen.check D = some true) :
    ∃ data level year, screen.courseData = some data ∧
      (substring screen.level 0 1).bind intParse = some level ∧
      intParse data.yearText = some year ∧ level ≤ year := by
  obtain ⟨digit, hdigit, h⟩ := Option.bind_eq_some_iff.1 h
  obtain ⟨level, hlevel, h⟩ := Option.bind_eq_some_iff.1 h
  obtain ⟨data, hdata, h⟩ := Option.bind_eq_some_iff.1 h
  obtain ⟨year, hyear, h⟩ := Option.bind_eq_some_iff.1 h
  refine ⟨data, level, year, hdata, ?_, hyear, ?_⟩
  · rw [hdigit]
    exact hlevel
  · by_contra! hlt
    rw [if_pos hlt] at h
    cases h

theorem level_eq {level : String} (h : level ∈ FillProfileFunction.levels) :
    ∃ k : ℤ, (substring level 0 1).bind intParse = some k ∧ intParse level = some (100 * k) := by
  simp only [FillProfileFunction.levels, List.mem_cons, List.not_mem_nil, or_false] at h
  rcases h with rfl | rfl | rfl | rfl | rfl | rfl
  · exact ⟨1, by decide⟩
  · exact ⟨2, by decide⟩
  · exact ⟨3, by decide⟩
  · exact ⟨4, by decide⟩
  · exact ⟨5, by decide⟩
  · exact ⟨6, by decide⟩

/-- The empty map, which a failed load leaves, passes no check. -/
theorem data_of_check {screen : FillProfileScreen C} {loaded : Bool}
    {catalogue : Catalogue C} {uni faculty course : String}
    (h : screen.check D = some true)
    (hdata : screen.courseData =
      some (FillProfileFunction.getCourseData loaded catalogue uni faculty course)) :
    screen.courseData = some (catalogue.data uni faculty course) := by
  cases loaded with
  | true => exact hdata
  | false =>
    obtain ⟨data, -, year, hdata', -, hyear, -⟩ := fits_of_check h
    cases hdata.symm.trans hdata'
    have hnull : intParse (CourseData.empty : CourseData C).yearText = none := by
      have hparse : intParse "null" = none := by decide
      exact hparse
    cases hnull.symm.trans hyear

/-- What an accepted press that gets past the checks stores. -/
theorem stored_of_passes {screen : FillProfileScreen C} {w w' : SignUp D C}
    (hpasses : screen.passes D = true) (htap : screen.onTap hashPassword true w = some w') :
    ∃ user, w'.auth.user = some user ∧ user.university = some screen.university ∧
      user.faculty = some screen.faculty ∧ user.course = some screen.course ∧
      w'.auth.courseData = screen.courseData ∧ user.level = intParse screen.level := by
  obtain ⟨henable, hcheck⟩ := Bool.and_eq_true_iff.1 hpasses
  rw [beq_iff_eq] at hcheck
  simp only [FillProfileScreen.onTap, henable, hcheck, if_true, Option.bind_eq_bind,
    Option.bind_some, Option.bind_eq_some_iff, Option.pure_def, Option.some.injEq] at htap
  obtain ⟨user, -, filled, hfilled, data, hdata, hw'⟩ := htap
  simp only [User.fillData, Option.bind_eq_bind, Option.bind_eq_some_iff, Option.pure_def,
    Option.some.injEq] at hfilled
  obtain ⟨level, hlevel, cgpa, -, hfilled⟩ := hfilled
  subst hw' hfilled
  exact ⟨_, rfl, rfl, rfl, rfl, hdata.symm, hlevel.symm⟩

theorem matches_of_settled {a : FormAction} (h : Tracked assets form)
    (hsettled : form.Settled a) : Matches assets hashPassword form a := by
  cases a with
  | press accepted =>
    intro hpasses
    obtain ⟨harrived, hmoved⟩ := hsettled hpasses
    obtain ⟨henable, hcheck⟩ := Bool.and_eq_true_iff.1 hpasses
    rw [beq_iff_eq] at hcheck
    simp only [FillProfileScreen.enable, Bool.and_eq_true, decide_eq_true_eq] at henable
    have hcourse : form.screen.course ≠ "" := by tauto
    have hlevel : form.screen.level ≠ "" := by tauto
    obtain ⟨loaded, hloaded⟩ := h.data harrived hmoved hcourse
    have hdata := data_of_check hcheck hloaded
    refine ⟨hdata, ?_⟩
    rintro - w' htap
    obtain ⟨data, digit, year, hdata', hdigit, hyear, hle⟩ := fits_of_check hcheck
    cases hdata.symm.trans hdata'
    obtain ⟨k, hk, hlevelText⟩ := level_eq (h.level.resolve_left hlevel)
    cases hdigit.symm.trans hk
    obtain ⟨user, huser, huni, hfaculty, hcourse', hstored, hstoredLevel⟩ :=
      stored_of_passes hpasses htap
    exact ⟨user, _, _, _, _, year, huser, huni, hfaculty, hcourse', hstored.trans hdata,
      hstoredLevel.trans hlevelText, hyear, by linarith⟩
  | _ => trivial

omit [Floating D] in
theorem tracked_start {universities : List String} {session : SignUp D C}
    (hsession : session.auth.user.isSome) : Tracked assets (start universities session) where
  loads _ _ _ _ hmem := absurd hmem List.not_mem_nil
  arrived_le := le_rfl
  data _ _ hcourse := absurd rfl hcourse
  level := .inl rfl
  user := hsession

end ProfileForm

open ProfileForm

/-- Where every press that gets past the checks is settled, what is checked and submitted is
the programme the form shows, and its level fits. -/
theorem submits_match {universities : List String} {session : SignUp D C}
    (hsession : session.auth.user.isSome) (assets : Assets C) (hashPassword : String → String)
    {as : List FormAction}
    (heach : Machine.Each (step assets hashPassword) Settled as (start universities session)) :
    Machine.Each (step assets hashPassword) (Matches assets hashPassword) as
      (start universities session) :=
  Machine.each_of_each (Tracked assets) (fun _ _ h => matches_of_settled h)
    (fun _ _ _ h _ => h.step) (tracked_start hsession) heach

/-- Two programmes of the School of Science and Technology, one of five and one of four years.
Their course lists are left out. -/
def sampleAssets : Assets (List Course) where
  catalogue uni faculty course :=
    if uni = "Babcock University" ∧ faculty = "School of Science and Technology" then
      match course with
      | "Agriculture" => some { year := some 5, courses := fun _ _ => none }
      | "Biology" => some { year := some 4, courses := fun _ _ => none }
      | _ => none
    else none
  gradingSystem uni := if uni = "Babcock University" then some "5" else none

/-- Everything up to the press, with the first course's map loaded. -/
def firstChoice : List FormAction :=
  [.university "Babcock University", .complete 0 true, .complete 0 true,
    .faculty "School of Science and Technology", .complete 0 true, .course "Agriculture",
    .complete 0 true, .level "500", .semester "1st", .gpa "3.0"]

/-- The other course is chosen and the button is pressed after its map has come. -/
theorem submits_match_loaded :
    Machine.Each (step sampleAssets id) (Matches (D := Double) sampleAssets id)
      (firstChoice ++ [.course "Biology", .complete 0 true, .level "400", .press true])
      (start ["Babcock University"] newcomerSignUp) :=
  submits_match rfl sampleAssets id (by decide +kernel)

/-- The button is pressed before: level 500 is submitted for a course of four years. -/
theorem submits_match_fails : ∃ form : ProfileForm Double (List Course),
    Machine.run (step sampleAssets id) (firstChoice ++ [.course "Biology"])
      (start ["Babcock University"] newcomerSignUp) = some form ∧
    form.screen.passes Double = true ∧ form.screen.level = "500" ∧
    form.screen.course = "Biology" ∧ ¬Matches sampleAssets id form (.press true) := by
  have hreached : (Machine.run (step sampleAssets id) (firstChoice ++ [.course "Biology"])
      (start (D := Double) ["Babcock University"] newcomerSignUp)).map (fun form =>
        (form.screen.passes Double, (form.screen.university, form.screen.faculty),
          form.screen.level, form.screen.course, form.screen.courseData.bind CourseData.year)) =
      some (true, ("Babcock University", "School of Science and Technology"), "500", "Biology",
        some 5) := by
    decide +kernel
  obtain ⟨form, hrun, hform⟩ := Option.map_eq_some_iff.1 hreached
  simp only [Prod.mk.injEq] at hform
  obtain ⟨hpasses, ⟨huni, hfaculty⟩, hlevel, hcourse, hyear⟩ := hform
  refine ⟨form, hrun, hpasses, hlevel, hcourse, fun hmatches => ?_⟩
  rw [(hmatches hpasses).1, huni, hfaculty, hcourse] at hyear
  have hfour : (some (sampleAssets.catalogue.data "Babcock University"
      "School of Science and Technology" "Biology")).bind CourseData.year = some 4 := by
    decide
  rw [hfour] at hyear
  cases hyear

end StudyStats
