import StudyStats.History

/-!
# Screens that stay open

A fresh update screen reads level, semester and CGPA once, when it opens. After a press of
its button the result page lies on top of it, and going back returns to the same screen with
the same fields. The button can then be pressed again, while the user has moved on.

## Main results

* `oncePerSemester_iff` — the runs in which every semester is recorded at most once and the
  user's position counts the recorded semesters.
-/

namespace StudyStats

open Dart

variable {D : Type} [Floating D]

/-- The device with the fresh update screens on the navigation stack. -/
structure OpenScreens (D : Type) [Floating D] where
  profile : Profile D
  device : Device D (List Course)
  screens : List (UpdateScreen (List Course))

inductive ScreenAction where
  | openScreen
  | leave (i : ℕ)
  /-- Press the button of screen `i`, with the courses and grades it has been left with. -/
  | press (i : ℕ) (courses : List Course) (scores : List String) (now : Timestamp)

namespace OpenScreens

variable (w : OpenScreens D)

def start (p : Profile D) (d : Device D (List Course)) : OpenScreens D :=
  { profile := p, device := p.install d, screens := [] }

def step (w : OpenScreens D) : ScreenAction → Option (OpenScreens D)
  | .openScreen =>
    (UpdateScreen.init id [] w.profile.gradingSystem w.device.auth).map fun screen =>
      { w with screens := screen :: w.screens }
  | .leave i => some { w with screens := w.screens.eraseIdx i }
  | .press i courses scores now =>
    w.screens[i]?.map fun screen =>
      let screen := { screen with courseData := courses, scores }
      { w with
        device := screen.upload courses now w.device
        screens := w.screens.set i screen }

/-- The user's semester number. -/
def userNumber : Option ℤ := do
  let user ← w.device.auth.user
  StatFunction.getCurrentSemester D (← user.semester) (← user.level)

/-- No semester is recorded twice, and the user has advanced by the number of semesters
recorded, the final one left out. -/
def OncePerSemester : Prop :=
  (labels w.device).Nodup ∧ w.userNumber = some (w.profile.start +
    ((labels w.device).dedup.filter (· ≠ w.profile.finalLabel)).length : ℤ)

/-- A press that gives a result comes from a screen that has the user's position, before the
final semester is recorded. -/
def PressedFresh (w : OpenScreens D) (a : ScreenAction) : Prop :=
  ∀ i courses scores now screen, a = .press i courses scores now →
    w.screens[i]? = some screen →
    (UpdateScreen.compute D courses { screen with courseData := courses, scores }).isSome →
    (∃ user level, w.device.auth.user = some user ∧ user.level = some level ∧
      screen.level = toString level ∧ user.semester = some screen.semester) ∧
    w.profile.finalLabel ∉ labels w.device

instance (w : OpenScreens D) : (a : ScreenAction) → Decidable (w.PressedFresh a)
  | .openScreen | .leave _ => isTrue fun _ _ _ _ _ ha => by cases ha
  | .press i courses scores _ => decidable_of_iff
      (∀ screen ∈ w.screens[i]?,
        (UpdateScreen.compute D courses { screen with courseData := courses, scores }).isSome →
        (∃ user ∈ w.device.auth.user, ∃ level ∈ user.level, screen.level = toString level ∧
          user.semester = some screen.semester) ∧ w.profile.finalLabel ∉ labels w.device) (by
    constructor
    · rintro h _ _ _ _ screen ⟨⟩ hscreen hresult
      obtain ⟨⟨user, huser, level, hlevel, hposition⟩, hfinal⟩ := h screen hscreen hresult
      exact ⟨⟨user, level, huser, hlevel, hposition⟩, hfinal⟩
    · intro h screen hscreen hresult
      obtain ⟨⟨user, level, huser, hlevel, hposition⟩, hfinal⟩ :=
        h _ _ _ _ screen rfl hscreen hresult
      exact ⟨⟨user, huser, level, hlevel, hposition⟩, hfinal⟩)

/-- After `n` presses that were all fresh. -/
structure After (n : ℕ) (w : OpenScreens D) : Prop where
  fits : w.profile.start + n ≤ 2 * w.profile.year + 1
  labels_eq : labels w.device = w.profile.firstLabels n
  /-- Of the course map only the length matters. -/
  courseData : ∃ data, w.device.auth.courseData = some data ∧ data.year = some (w.profile.year : ℤ)
  user : ∃ user, w.device.auth.user = some user ∧
    user.level = some (levelOf (w.profile.position n) : ℤ) ∧
    user.semester = some (semesterOf (w.profile.position n))
  screens : ∀ screen ∈ w.screens, ∃ m ≤ n,
    (screen.level, screen.semester) = semesterLabel (w.profile.position m)

variable {w}

omit [Floating D] in
theorem nodup_firstLabels (p : Enrolment D) (n : ℕ) : (p.firstLabels n).Nodup :=
  List.Nodup.map (fun i j h => by simpa using semesterLabel_injective h) List.nodup_range

omit [Floating D] in
/-- Of the first `n` semesters all are counted, but the final one. -/
theorem length_nonfinal (p : Enrolment D) {n : ℕ} (hn : p.start + n ≤ 2 * p.year + 1) :
    ((p.firstLabels n).filter (· ≠ p.finalLabel)).length = min n (2 * p.year - p.start) := by
  have hall : ∀ m, p.start + m ≤ 2 * p.year →
      (p.firstLabels m).filter (· ≠ p.finalLabel) = p.firstLabels m := by
    intro m hm
    rw [List.filter_eq_self]
    intro l hl
    rw [decide_eq_true_eq]
    rintro rfl
    rw [p.finalLabel_mem_iff (by omega)] at hl
    omega
  have hstart := p.start_le
  by_cases hfull : p.start + n = 2 * p.year + 1
  · obtain ⟨m, rfl⟩ : ∃ m, n = m + 1 := ⟨n - 1, by omega⟩
    have hlast : semesterLabel (p.start + m) = p.finalLabel := by
      rw [Enrolment.finalLabel_eq]; congr 1; omega
    have hsucc : p.firstLabels (m + 1) = p.firstLabels m ++ [p.finalLabel] := by
      rw [← hlast, Enrolment.firstLabels, List.range_succ, List.map_append]; rfl
    rw [hsucc, List.filter_append, hall m (by omega)]
    simp [Enrolment.firstLabels]
    omega
  · rw [hall n (by omega)]
    simp [Enrolment.firstLabels]
    omega

theorem After.oncePerSemester {n : ℕ} (h : After n w) : w.OncePerSemester := by
  obtain ⟨user, huser, hlevel, hsemester⟩ := h.user
  have hnodup := nodup_firstLabels w.profile.toEnrolment n
  have hpos := w.profile.one_le_position n
  have hpos' := w.profile.position_le n
  have hyear := w.profile.year_le
  have hstart := w.profile.start_le
  refine ⟨h.labels_eq ▸ hnodup, ?_⟩
  have hnumber : w.userNumber = some (w.profile.position n : ℤ) := by
    simp only [userNumber, huser, hsemester, hlevel, Option.bind_eq_bind, Option.bind_some]
    exact getCurrentSemester_eq hpos (by omega)
  rw [hnumber, h.labels_eq, hnodup.dedup, length_nonfinal _ h.fits]
  simp only [Enrolment.position, Option.some.injEq]
  push_cast
  omega

/-- A screen that is pressed with a result and leaves the state good was fresh. -/
theorem After.pressedFresh {n : ℕ} {w' : OpenScreens D} {a : ScreenAction} (h : After n w)
    (hstep : w.step a = some w') (hgood : w'.OncePerSemester) : w.PressedFresh a := by
  rintro i courses scores now screen rfl hscreen hresult
  simp only [step, hscreen, Option.map_some, Option.some.injEq] at hstep
  obtain ⟨m, hm, hlabel⟩ := h.screens screen (List.mem_of_getElem? hscreen)
  rcases upload_cases courses now { screen with courseData := courses, scores } w.device with
    ⟨hnone, -⟩ | ⟨-, -, -, hlabels, -⟩
  · simp [hnone] at hresult
  have hnew : semesterLabel (w.profile.position m) ∉ labels w.device := by
    have hnodup := hgood.1
    rw [← hstep, hlabels] at hnodup
    rw [← hlabel]
    intro hmem
    exact (List.nodup_append.1 hnodup).2.2 _ hmem _ (List.mem_singleton_self _) rfl
  have hfits := h.fits
  obtain rfl : m = n := by
    by_contra hne
    rw [w.profile.position_of_le (by omega), h.labels_eq] at hnew
    exact hnew (List.mem_map.2 ⟨m, List.mem_range.2 (by omega), rfl⟩)
  refine ⟨?_, fun hfinal => ?_⟩
  · obtain ⟨user, huser, hlevel, hsemester⟩ := h.user
    obtain ⟨hscreenLevel, hscreenSemester⟩ := Prod.mk.inj hlabel
    exact ⟨user, _, huser, hlevel, hscreenLevel, hscreenSemester ▸ hsemester⟩
  · have hfull : w.profile.start + m = 2 * w.profile.year + 1 := by
      rwa [h.labels_eq, w.profile.finalLabel_mem_iff hfits] at hfinal
    have hlast : w.profile.position m = 2 * w.profile.year := by
      unfold Enrolment.position; omega
    rw [hlast, ← w.profile.finalLabel_eq] at hnew
    exact hnew hfinal

/-- A fresh press with a result is one more upload. -/
theorem After.press {n i : ℕ} {courses : List Course} {scores : List String} {now : Timestamp}
    {w' : OpenScreens D} (h : After n w) (hfresh : w.PressedFresh (.press i courses scores now))
    (hstep : w.step (.press i courses scores now) = some w') : ∃ m, After m w' := by
  simp only [step, Option.map_eq_some_iff] at hstep
  obtain ⟨screen, hscreen, rfl⟩ := hstep
  have hmem : screen ∈ w.screens := List.mem_of_getElem? hscreen
  have hscreens : ∀ k, n ≤ k → ∀ s ∈ w.screens.set i { screen with courseData := courses, scores },
      ∃ m ≤ k, (s.level, s.semester) = semesterLabel (w.profile.position m) := by
    intro k hk s hs
    rcases List.mem_or_eq_of_mem_set hs with hs | rfl
    · obtain ⟨m, hm, hlabel⟩ := h.screens s hs
      exact ⟨m, hm.trans hk, hlabel⟩
    · obtain ⟨m, hm, hlabel⟩ := h.screens screen hmem
      exact ⟨m, hm.trans hk, hlabel⟩
  rcases upload_cases courses now { screen with courseData := courses, scores } w.device with
    ⟨-, hsame⟩ | ⟨cgpa, ⟨c, hc⟩, hresult, hlabels, hauth⟩
  · refine ⟨n, h.fits, ?_, ?_, ?_, hscreens n le_rfl⟩ <;> simp only [hsame]
    · exact h.labels_eq
    · exact h.courseData
    · exact h.user
  · obtain ⟨⟨user, level, huser, hlevel, hscreenLevel, hsemester⟩, hfinal⟩ :=
      hfresh i courses scores now screen rfl hscreen hresult
    obtain ⟨user', huser', hlevel', hsemester'⟩ := h.user
    obtain rfl : user = user' := Option.some.inj (huser.symm.trans huser')
    obtain rfl : level = _ := Option.some.inj (hlevel.symm.trans hlevel')
    have hsem : screen.semester = _ := Option.some.inj (hsemester.symm.trans hsemester')
    have hfits := h.fits
    have hroom : w.profile.start + n ≤ 2 * w.profile.year := by
      rw [h.labels_eq, w.profile.finalLabel_mem_iff hfits] at hfinal
      omega
    obtain ⟨data, hdata, hyear⟩ := h.courseData
    have hnext := nextPosition_eq hyear w.profile.year_le
      (w.profile.one_le_position n) (w.profile.position_le n)
    rw [w.profile.advance_position] at hnext
    rw [incrementUser_position huser hlevel' hsemester' hc, hdata, hnext] at hauth
    have hlabel : (screen.level, screen.semester) = semesterLabel (w.profile.start + n) := by
      rw [hscreenLevel, hsem, w.profile.position_of_le hroom]; rfl
    refine ⟨n + 1, by show w.profile.start + (n + 1) ≤ 2 * w.profile.year + 1; omega,
      ?_, ?_, ?_, hscreens (n + 1) (by omega)⟩
    · show labels _ = w.profile.firstLabels (n + 1)
      rw [hlabels, h.labels_eq, hlabel, Enrolment.firstLabels, Enrolment.firstLabels,
        List.range_succ, List.map_append]
      rfl
    · exact ⟨data, by simp [hauth], hyear⟩
    · exact ⟨_, by simp [hauth]; rfl, rfl, rfl⟩

/-- A screen that is opened has the user's position. -/
theorem After.opened {C : Type} {contents : C → List Course} {empty : C} {gs : String}
    {auth : AuthProvider D C} {screen : UpdateScreen C} {n : ℕ} (h : After n w)
    (huser : auth.user = w.device.auth.user)
    (hinit : UpdateScreen.init contents empty gs auth = some screen) :
    (screen.level, screen.semester) = semesterLabel (w.profile.position n) := by
  obtain ⟨user, level, semester, hu, hlevel, hsemester, hs1, hs2⟩ := init_position hinit
  obtain ⟨user', huser', hlevel', hsemester'⟩ := h.user
  obtain rfl : user = user' := Option.some.inj (hu.symm.trans (huser.trans huser'))
  obtain rfl : level = _ := Option.some.inj (hlevel.symm.trans hlevel')
  obtain rfl : semester = _ := Option.some.inj (hsemester.symm.trans hsemester')
  rw [hs1, hs2]
  rfl

theorem After.step {n : ℕ} {w' : OpenScreens D} {a : ScreenAction} (h : After n w)
    (hfresh : w.PressedFresh a) (hstep : w.step a = some w') : ∃ m, After m w' := by
  cases a with
  | press i courses scores now => exact h.press hfresh hstep
  | leave i =>
    cases hstep
    exact ⟨n, h.fits, h.labels_eq, h.courseData, h.user,
      fun s hs => h.screens s (List.mem_of_mem_eraseIdx hs)⟩
  | openScreen =>
    simp only [OpenScreens.step, Option.map_eq_some_iff] at hstep
    obtain ⟨screen, hinit, rfl⟩ := hstep
    refine ⟨n, h.fits, h.labels_eq, h.courseData, h.user, ?_⟩
    intro s hs
    rcases List.mem_cons.1 hs with rfl | hs
    · exact ⟨n, le_rfl, h.opened rfl hinit⟩
    · exact h.screens s hs

theorem After.start (p : Profile D) (d : Device D (List Course)) : After 0 (start p d) where
  fits := by have := p.start_le; show p.start + 0 ≤ 2 * p.year + 1; omega
  labels_eq := rfl
  courseData := ⟨p.courseData, rfl, p.data_year⟩
  user := by
    have hpos : p.position 0 = p.start := p.position_of_le p.start_le
    refine ⟨p.user, rfl, ?_, ?_⟩
    · show p.user.level = some (levelOf (p.position 0) : ℤ)
      rw [hpos, p.levelOf_start, p.user_level]
    · show p.user.semester = some (semesterOf (p.position 0))
      rw [hpos, p.semesterOf_start, p.user_semester]
  screens := nofun

end OpenScreens

/-- Every state of a run records each semester at most once, with the user's position in step,
exactly when every press that gives a result comes from a screen with the user's position
before the final semester is recorded. -/
theorem oncePerSemester_iff (p : Profile D) (d : Device D (List Course))
    {as : List ScreenAction} {w : OpenScreens D}
    (hrun : Machine.run OpenScreens.step as (OpenScreens.start p d) = some w) :
    Machine.Always OpenScreens.step OpenScreens.OncePerSemester as (OpenScreens.start p d) ↔
      Machine.Each OpenScreens.step OpenScreens.PressedFresh as (OpenScreens.start p d) :=
  Machine.always_iff_each (fun w => ∃ n, OpenScreens.After n w)
    (fun _ ⟨_, h⟩ => h.oncePerSemester)
    (fun _ _ _ ⟨_, h⟩ hstep hgood => h.pressedFresh hstep hgood)
    (fun _ _ _ ⟨_, h⟩ hfresh hstep => h.step hfresh hstep)
    ⟨0, OpenScreens.After.start p d⟩ hrun

/-- Two screens, each opened and pressed in its own semester. -/
def pressedOnce : List ScreenAction :=
  [.openScreen, .press 0 [⟨"Calculus", "MATH101", .int 3⟩] ["A"] 1, .openScreen,
    .press 0 [⟨"Calculus", "MATH101", .int 3⟩] ["B"] 2]

theorem oncePerSemester_freshman : ∃ w,
    Machine.run OpenScreens.step pressedOnce (OpenScreens.start freshman blankDevice) = some w ∧
    labels w.device = [("100", "1st"), ("100", "2nd")] ∧
    Machine.Always OpenScreens.step OpenScreens.OncePerSemester pressedOnce
      (OpenScreens.start freshman blankDevice) := by
  have hcheck : (Machine.run OpenScreens.step pressedOnce
      (OpenScreens.start freshman blankDevice)).map (fun w => labels w.device) =
      some [("100", "1st"), ("100", "2nd")] := by
    decide +kernel
  obtain ⟨w, hrun, hlabels⟩ := Option.map_eq_some_iff.1 hcheck
  have hfresh : Machine.Each OpenScreens.step OpenScreens.PressedFresh pressedOnce
      (OpenScreens.start freshman blankDevice) := by
    decide +kernel
  exact ⟨w, hrun, hlabels, (oncePerSemester_iff freshman blankDevice hrun).2 hfresh⟩

/-- One screen pressed twice records its semester twice and moves the user two semesters on. -/
theorem oncePerSemester_fails : ∃ w, Machine.run OpenScreens.step
    [.openScreen, .press 0 [⟨"Calculus", "MATH101", .int 3⟩] ["A"] 1,
      .press 0 [⟨"Calculus", "MATH101", .int 3⟩] ["A"] 2]
    (OpenScreens.start freshman blankDevice) = some w ∧
    labels w.device = [("100", "1st"), ("100", "1st")] ∧ w.userNumber = some 3 ∧
    ¬w.OncePerSemester := by
  have hcheck : (Machine.run OpenScreens.step
      [.openScreen, .press 0 [⟨"Calculus", "MATH101", .int 3⟩] ["A"] 1,
        .press 0 [⟨"Calculus", "MATH101", .int 3⟩] ["A"] 2]
      (OpenScreens.start freshman blankDevice)).map (fun w => (labels w.device, w.userNumber)) =
      some ([("100", "1st"), ("100", "1st")], some 3) := by
    decide +kernel
  obtain ⟨w, hrun, hw⟩ := Option.map_eq_some_iff.1 hcheck
  obtain ⟨hlabels, hnumber⟩ := Prod.mk.inj hw
  refine ⟨w, hrun, hlabels, hnumber, fun hgood => ?_⟩
  have hnodup := hgood.1
  rw [hlabels] at hnodup
  exact absurd hnodup (by decide)

end StudyStats
