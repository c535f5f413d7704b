import StudyStats.History
import StudyStats.Labels

/-!
# The dashboard and its tile

The 'Upload Result' tile should stop opening the update screen once the final semester is
recorded. It looks at the first element of a list the dashboard took when it was opened,
and the box keeps its list oldest record first.

`addUpdateData` appends to the stored list object in place, so a dashboard opened over a
stored list sees every later record. One opened over an empty box has an empty list of its
own and sees none.

## Main results

* `degreeEnds_iff` — the runs in which the degree ends once.
-/

namespace StudyStats

open Dart

variable {D : Type} [Floating D]

/-- The tile, over the list the dashboard holds: whether it opens the update screen. -/
def opensUpdateScreen {C : Type} (courseData : Option (CourseData C))
    (updates : List (Update D C)) : Option Bool := do
  let year ← (← courseData).year
  match updates with
  | [] => return true
  | update :: _ =>
    if update.semester = "2nd" then
      return (← substring update.level 0 1) ≠ toString year
    else return true

/-- The list object a dashboard took when it was opened. -/
inductive ListTaken where
  | own
  | stored
deriving DecidableEq

/-- The device with its open dashboards, the visible one first. -/
structure Dashboards (D : Type) where
  enrolment : Enrolment D
  device : Device D (List Course)
  dashboards : List ListTaken

inductive Visit where
  | openDashboard
  | goBack
  | goHome
  /-- Press the tile; if the update screen opens, upload the sheet or go back. -/
  | pressTile (sheet : Option (Sheet × Timestamp))
  | edit (e : Edit)

namespace Dashboards

variable (w : Dashboards D)

def start (p : Enrolment D) (d : Device D (List Course)) : Dashboards D :=
  { enrolment := p, device := p.install d, dashboards := [] }

/-- What a dashboard shows now of the list it took. -/
def seen : ListTaken → List (Update D (List Course))
  | .own => []
  | .stored => HiveUpdate.getUpdateList w.device

/-- The action opens the update screen. -/
def opens : Visit → Bool
  | .pressTile _ =>
    match w.dashboards with
    | [] => false
    | top :: _ => opensUpdateScreen w.device.auth.courseData (w.seen top) = some true
  | _ => false

/-- One action. Past semesters are reached from the home screen, with no dashboard open. -/
def step (w : Dashboards D) : Visit → Option (Dashboards D)
  | .openDashboard =>
    some { w with
      dashboards := (if w.device.updateBox.isSome then .stored else .own) :: w.dashboards }
  | .goBack =>
    match w.dashboards with
    | [] => none
    | _ :: rest => some { w with dashboards := rest }
  | .goHome => some { w with dashboards := [] }
  | .pressTile sheet =>
    if w.dashboards = [] then none
    else
      match sheet, w.opens (.pressTile sheet) with
      | some (sheet, now), true =>
        (UpdateScreen.uploadResult w.enrolment.gradingSystem sheet now w.device).map
          fun d => { w with device := d }
      | _, _ => some w
  | .edit e =>
    if w.dashboards = [] then
      (e.apply w.enrolment.gradingSystem w.device).map fun d => { w with device := d }
    else none

/-- How many records the final semester has. -/
def finalCount : ℕ := (labels w.device).count w.enrolment.finalLabel

/-- Once the final semester is recorded, the tile opens nothing and pressing it leaves list
and user as they are. -/
def DegreeOver (w : Dashboards D) (a : Visit) : Prop :=
  w.enrolment.finalLabel ∈ labels w.device → w.opens a = false ∧
    ∀ sheet w', a = .pressTile sheet → w.step a = some w' → w'.device = w.device

/-- Once the final semester is recorded, the tile is pressed only where the profile was
filled in for that very semester of a programme of at most nine years, and on a dashboard
opened over a stored list. -/
def PressedInTime (w : Dashboards D) (a : Visit) : Prop :=
  w.enrolment.finalLabel ∈ labels w.device → ∀ sheet top rest, a = .pressTile sheet →
    w.dashboards = top :: rest →
    w.enrolment.start = 2 * w.enrolment.year ∧ w.enrolment.year ≤ 9 ∧ top = .stored

instance (w : Dashboards D) : (a : Visit) → Decidable (w.PressedInTime a)
  | .openDashboard | .goBack | .goHome | .edit _ => isTrue fun _ _ _ _ ha => by cases ha
  | .pressTile _ => decidable_of_iff
      (w.enrolment.finalLabel ∈ labels w.device → ∀ top ∈ w.dashboards.head?,
        w.enrolment.start = 2 * w.enrolment.year ∧ w.enrolment.year ≤ 9 ∧ top = .stored) (by
    constructor
    · rintro h hfinal _ top rest - hdashboards
      exact h hfinal top (by rw [hdashboards]; rfl)
    · intro h hfinal top htop
      obtain ⟨rest, hrest⟩ := List.head?_eq_some_iff.1 htop
      exact h hfinal _ top rest rfl hrest)

end Dashboards

/-! ## The guard -/

/-- A single character can only be the text of a single digit. -/
theorem year_le_of_substring {text : String} {year : ℕ}
    (h : substring text 0 1 = some (toString (year : ℤ))) : year ≤ 9 := by
  have hlen : (toString (year : ℤ)).toList.length ≤ 1 := by
    unfold substring at h
    split_ifs at h
    rw [← Option.some.inj h]
    simp
  have hyear : year < 10 ^ 1 := by
    rw [← Nat.length_toDigits_le_iff (by decide) (by decide)]
    simpa [toString, Int.repr, Nat.repr_eq_ofList_toDigits] using hlen
  omega

theorem substring_eq_year_iff {k : ℕ} (year : ℕ) (hk : 1 ≤ k) (hle : k ≤ year) :
    substring (toString ((100 * k : ℕ) : ℤ)) 0 1 = some (toString (year : ℤ)) ↔
      k = year ∧ year ≤ 9 := by
  constructor
  · intro h
    have hyear := year_le_of_substring h
    refine ⟨?_, hyear⟩
    interval_cases year <;> interval_cases k <;> first | rfl | (revert h; decide)
  · rintro ⟨rfl, hyear⟩
    interval_cases k <;> decide

omit [Floating D] in
/-- Over a list that begins with a record of the `s`-th semester the tile opens nothing
exactly when that is the final one and `year` is a single digit. -/
theorem opensUpdateScreen_cons {C : Type} {data : CourseData C} {year s : ℕ} {r : Update D C}
    {rs : List (Update D C)} (hyear : data.year = some (year : ℤ))
    (hr : r.label = (levelText s, semesterOf s)) (h1 : 1 ≤ s) (hs : s ≤ 2 * year) :
    opensUpdateScreen (some data) (r :: rs) = some (decide ¬(s = 2 * year ∧ year ≤ 9)) := by
  obtain ⟨hlevel, hsemester⟩ : r.level = levelText s ∧ r.semester = semesterOf s := by
    simpa [Update.label] using hr
  obtain ⟨digit, hdigit⟩ := exists_firstDigit (levelOf s)
  have hguard := substring_eq_year_iff (k := (s + 1) / 2) year (by omega) (by omega)
  rw [← levelOf, hdigit, Option.some.injEq] at hguard
  simp only [opensUpdateScreen, hyear, hlevel, hsemester, levelText, hdigit,
    Option.bind_eq_bind, Option.bind_some, Option.pure_def]
  by_cases heven : s % 2 = 1
  · rw [semesterOf, if_pos heven, if_neg (by decide)]
    simp only [Option.some.injEq, eq_comm (a := true), decide_eq_true_eq]
    omega
  · rw [semesterOf, if_neg heven, if_pos rfl]
    simp only [Option.some.injEq, decide_eq_decide, ne_eq, hguard]
    omega

namespace Dashboards

variable {w w' : Dashboards D} {a : Visit}

/-- What every run keeps: the programme, and a list that is empty with the user where they
started or begins with the semester they started in. -/
structure Inv (w : Dashboards D) : Prop where
  courseData : w.device.auth.courseData = some w.enrolment.courseData
  oldest : ∀ l, (labels w.device).head? = some l →
    l = (levelText w.enrolment.start, semesterOf w.enrolment.start)
  fresh : labels w.device = [] → w.device.auth.user.map (fun user => (user.level, user.semester)) =
    some (some w.enrolment.level, some w.enrolment.semester)

omit [Floating D] in
theorem Inv.start (p : Enrolment D) (d : Device D (List Course)) : Inv (Dashboards.start p d) where
  courseData := rfl
  oldest := nofun
  fresh _ := by simp [Dashboards.start, Enrolment.install, HiveUpdate.clearUpdateList,
    p.user_level, p.user_semester]

omit [Floating D] in
theorem Inv.of_outline {d : Device D (List Course)} (h : Inv w)
    (hd : outline d = outline w.device) : Inv { w with device := d } := by
  obtain ⟨hlabels, hdata, hposition⟩ : labels d = labels w.device ∧
      d.auth.courseData = w.device.auth.courseData ∧ _ = _ := by
    simpa [outline] using hd
  exact ⟨hdata.trans h.courseData, hlabels ▸ h.oldest, fun hnil => hposition.trans
    (h.fresh (hlabels ▸ hnil))⟩

theorem Inv.upload {sheet : Sheet} {now : Timestamp} {d : Device D (List Course)} (h : Inv w)
    (hup : UpdateScreen.uploadResult w.enrolment.gradingSystem sheet now w.device = some d) :
    Inv { w with device := d } := by
  rcases uploadResult_cases hup with rfl | ⟨hdata, user, level, semester, huser, hlevel,
    hsemester, hlabels⟩
  · exact h
  refine ⟨hdata.trans h.courseData, fun l hl => ?_, fun hnil => absurd hnil (by simp [hlabels])⟩
  rw [hlabels] at hl
  cases hold : labels w.device with
  | cons first rest => exact h.oldest l (by simpa [hold] using hl)
  | nil =>
    -- the first record has the position the user started in
    have hfresh := h.fresh hold
    simp only [huser, hlevel, hsemester, Option.map_some, Option.some.injEq,
      Prod.mk.injEq] at hfresh
    obtain ⟨rfl, rfl⟩ := hfresh
    rw [levelText, w.enrolment.levelOf_start, w.enrolment.semesterOf_start]
    simpa [hold] using hl.symm

theorem Inv.step (h : Inv w) (hstep : w.step a = some w') : Inv w' := by
  cases a with
  | openDashboard => cases hstep; exact ⟨h.courseData, h.oldest, h.fresh⟩
  | goHome => cases hstep; exact ⟨h.courseData, h.oldest, h.fresh⟩
  | goBack =>
    simp only [Dashboards.step] at hstep
    split at hstep
    · cases hstep
    · cases hstep; exact ⟨h.courseData, h.oldest, h.fresh⟩
  | pressTile sheet =>
    simp only [Dashboards.step] at hstep
    split_ifs at hstep
    split at hstep
    · obtain ⟨d, hup, rfl⟩ := Option.map_eq_some_iff.1 hstep
      exact h.upload hup
    · cases hstep; exact h
  | edit e =>
    simp only [Dashboards.step] at hstep
    split_ifs at hstep
    obtain ⟨d, hedit, rfl⟩ := Option.map_eq_some_iff.1 hstep
    exact h.of_outline (outline_editRecord hedit).1

omit [Floating D] in
/-- What the tile does on a dashboard that is open. -/
theorem Inv.opens_eq (h : Inv w) {sheet : Option (Sheet × Timestamp)} {top : ListTaken}
    {rest : List ListTaken} (hdashboards : w.dashboards = top :: rest)
    (hfinal : w.enrolment.finalLabel ∈ labels w.device) :
    w.opens (.pressTile sheet) = false ↔
      w.enrolment.start = 2 * w.enrolment.year ∧ w.enrolment.year ≤ 9 ∧ top = .stored := by
  have hopens : w.opens (.pressTile sheet) =
      decide (opensUpdateScreen w.device.auth.courseData (w.seen top) = some true) := by
    simp only [opens, hdashboards]
  rw [hopens, h.courseData, decide_eq_false_iff_not]
  cases top with
  | own => simp [seen, opensUpdateScreen, w.enrolment.data_year]
  | stored =>
    obtain ⟨r, rs, hlist⟩ : ∃ r rs, HiveUpdate.getUpdateList w.device = r :: rs := by
      apply List.exists_cons_of_ne_nil
      rintro hnil
      simp [labels, hnil] at hfinal
    have hr := h.oldest r.label (by simp [labels, hlist])
    rw [seen, hlist, opensUpdateScreen_cons w.enrolment.data_year hr w.enrolment.one_le_start
      w.enrolment.start_le]
    simp

theorem Inv.degreeOver_iff (h : Inv w) : w.DegreeOver a ↔ w.PressedInTime a := by
  constructor
  · rintro hover hfinal sheet top rest rfl hdashboards
    exact (h.opens_eq hdashboards hfinal).1 (hover hfinal).1
  · intro hpressed hfinal
    have hclosed : w.opens a = false := by
      cases a with
      | pressTile sheet =>
        cases hdashboards : w.dashboards with
        | nil => simp [opens, hdashboards]
        | cons top rest =>
          exact (h.opens_eq hdashboards hfinal).2 (hpressed hfinal sheet top rest rfl hdashboards)
      | _ => rfl
    refine ⟨hclosed, ?_⟩
    rintro sheet w' rfl hstep
    simp only [Dashboards.step, hclosed] at hstep
    split_ifs at hstep
    cases sheet <;> (cases hstep; rfl)

/-- While the tile opens nothing after the final record, that record stays the only one. -/
theorem finalCount_step (hcount : w.finalCount ≤ 1) (hover : w.DegreeOver a)
    (hstep : w.step a = some w') : w'.finalCount ≤ 1 := by
  cases a with
  | openDashboard => cases hstep; exact hcount
  | goHome => cases hstep; exact hcount
  | goBack =>
    simp only [Dashboards.step] at hstep
    split at hstep
    · cases hstep
    · cases hstep; exact hcount
  | edit e =>
    simp only [Dashboards.step] at hstep
    split_ifs at hstep
    obtain ⟨d, hedit, rfl⟩ := Option.map_eq_some_iff.1 hstep
    have hlabels : labels d = labels w.device := congrArg Prod.fst (outline_editRecord hedit).1
    simpa [finalCount, hlabels] using hcount
  | pressTile sheet =>
    by_cases hfinal : w.enrolment.finalLabel ∈ labels w.device
    · have hdevice := (hover hfinal).2 sheet w' rfl hstep
      have henrolment : w'.enrolment = w.enrolment := by
        simp only [Dashboards.step] at hstep
        split_ifs at hstep
        split at hstep
        · obtain ⟨d, -, rfl⟩ := Option.map_eq_some_iff.1 hstep
          rfl
        · cases hstep; rfl
      simpa [finalCount, hdevice, henrolment] using hcount
    · have hzero : (labels w.device).count w.enrolment.finalLabel = 0 := List.count_eq_zero.2 hfinal
      simp only [Dashboards.step] at hstep
      split_ifs at hstep
      split at hstep
      · obtain ⟨d, hup, rfl⟩ := Option.map_eq_some_iff.1 hstep
        rcases uploadResult_cases hup with rfl | ⟨-, user, level, semester, -, -, -, hlabels⟩
        · exact hcount
        · have hone := List.count_le_length (a := w.enrolment.finalLabel)
            (l := [(toString level, semester)])
          simp only [finalCount, hlabels, List.count_append] at hzero hone ⊢
          simp only [List.length_singleton] at hone
          omega
      · cases hstep; exact hcount

end Dashboards

/-- The degree ends once in a run exactly when, from the final record on, the tile is pressed
only for a profile that was filled in for the final semester itself, of a programme of at
most nine years, and only on dashboards opened over a stored list. -/
theorem degreeEnds_iff (p : Enrolment D) (d : Device D (List Course)) {as : List Visit}
    {w : Dashboards D} (hrun : Machine.run Dashboards.step as (Dashboards.start p d) = some w) :
    (Machine.Each Dashboards.step Dashboards.DegreeOver as (Dashboards.start p d) ∧
      w.finalCount ≤ 1) ↔
      Machine.Each Dashboards.step Dashboards.PressedInTime as (Dashboards.start p d) := by
  have hiff : Machine.Each Dashboards.step Dashboards.DegreeOver as (Dashboards.start p d) ↔
      Machine.Each Dashboards.step Dashboards.PressedInTime as (Dashboards.start p d) :=
    Machine.each_iff_each Dashboards.Inv (fun s a hs => hs.degreeOver_iff (a := a))
      (fun s a s' hs _ hstep => hs.step hstep) (Dashboards.Inv.start p d)
  rw [hiff]
  refine ⟨fun h => h.1, fun h => ⟨h, ?_⟩⟩
  exact Machine.invariant_of_each (fun w => w.finalCount ≤ 1) Dashboards.DegreeOver
    (fun s a s' => Dashboards.finalCount_step) (Nat.zero_le 1) (hiff.2 h) hrun

/-- A user in the last semester of a four-year programme. -/
def finalist : Enrolment Double where
  gradingSystem := "5"
  courseData := freshman.courseData
  user := { freshman.user with
    level := some 400, semester := some "2nd", currentCgpa := some (Floating.ofInt 4) }
  year := 4
  level := 400
  semester := "2nd"
  year_pos := Nat.succ_pos 3
  data_year := rfl
  user_level := rfl
  user_semester := rfl
  level_mod := by decide
  level_ge := by decide
  level_le := by decide
  semester_eq := .inr rfl

/-- The final upload, then the tile on a dashboard opened after it. -/
def lastUpload : List Visit :=
  [.openDashboard, .pressTile (some (singleCourse "A" rfl, 1)), .goHome, .openDashboard,
    .pressTile (some (singleCourse "A" rfl, 2))]

theorem degreeEnds_finalist : ∃ w,
    Machine.run Dashboards.step lastUpload (Dashboards.start finalist blankDevice) = some w ∧
    labels w.device = [("400", "2nd")] ∧
    Machine.Each Dashboards.step Dashboards.DegreeOver lastUpload
      (Dashboards.start finalist blankDevice) := by
  have hcheck : (Machine.run Dashboards.step lastUpload
      (Dashboards.start finalist blankDevice)).map (fun w => labels w.device) =
      some [("400", "2nd")] := by
    decide +kernel
  obtain ⟨w, hrun, hlabels⟩ := Option.map_eq_some_iff.1 hcheck
  have hpressed : Machine.Each Dashboards.step Dashboards.PressedInTime lastUpload
      (Dashboards.start finalist blankDevice) := by
    decide +kernel
  exact ⟨w, hrun, hlabels, ((degreeEnds_iff finalist blankDevice hrun).2 hpressed).1⟩

/-- A whole degree: eight uploads, of which all but the first on one dashboard. -/
def wholeDegree : List Visit :=
  [.openDashboard, .pressTile (some (singleCourse "A" rfl, 1)), .goHome, .openDashboard] ++
    (List.range 7).map fun n => .pressTile (some (singleCourse "A" rfl, n + 2))

/-- After a whole degree the tile opens the update screen again, and one more upload records
the final semester twice and counts it twice. -/
theorem degreeEnds_fails : ∃ w w',
    Machine.run Dashboards.step wholeDegree (Dashboards.start freshman.toEnrolment blankDevice) =
      some w ∧ w.finalCount = 1 ∧
    w.opens (.pressTile (some (singleCourse "F" rfl, 9))) = true ∧
    w.step (.pressTile (some (singleCourse "F" rfl, 9))) = some w' ∧ w'.finalCount = 2 ∧
    (w.device.auth.user.bind (·.currentCgpa)).map Floating.toString = some "5.0" ∧
    (w'.device.auth.user.bind (·.currentCgpa)).map Floating.toString = some "4.38" := by
  have hcheck : (Machine.run Dashboards.step wholeDegree
      (Dashboards.start freshman.toEnrolment blankDevice)).map (fun w =>
        (w.finalCount, w.opens (.pressTile (some (singleCourse "F" rfl, 9))),
          (w.device.auth.user.bind (·.currentCgpa)).map Floating.toString,
          (w.step (.pressTile (some (singleCourse "F" rfl, 9)))).map fun w' => (w'.finalCount,
            (w'.device.auth.user.bind (·.currentCgpa)).map Floating.toString))) =
      some (1, true, some "5.0", some (2, some "4.38")) := by
    decide +kernel
  obtain ⟨w, hrun, hw⟩ := Option.map_eq_some_iff.1 hcheck
  simp only [Prod.mk.injEq, Option.map_eq_some_iff] at hw
  obtain ⟨hone, hopens, hbefore, w', hstep, htwo, hafter⟩ := hw
  exact ⟨w, w', hrun, hone, hopens, hstep, htwo, Option.map_eq_some_iff.2 hbefore,
    Option.map_eq_some_iff.2 hafter⟩

end StudyStats
