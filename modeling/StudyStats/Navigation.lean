import StudyStats.AllOrNothing
import StudyStats.CourseLists
import StudyStats.Dashboard
import StudyStats.Instances
import StudyStats.Screens

/-!
# Pages and cards

The home screen and the list of past semesters copy the stored list when they are built. A card
opens the update screen over the record it shows, under its place in the copy, and `editUpdates`
looks for this place in the list that is stored when the button is pressed. Pages are left with
the system's back button, which shows the page below as it was, or by going to the main screen,
which is then built anew.

Course lists are shared. A screen over a card has the list of the record, a fresh one that of the
course map, and so has the record it makes; what is done to the tiles is done to that list. The
box has on disk what the lists were when it was last written.

## Main definitions

* `Navigation.step` — what a tap does to the pages, the lists and the device.

## Main results

* `semestersInOrder_iff` — the runs in which the records stay those of the semesters so far.
-/

namespace StudyStats

open Dart

variable {D : Type} [Floating D]

/-- The edit comes to its last pass and its write is accepted: `editUpdates` goes to the main
screen. -/
def UpdateScreen.goesHome {C : Type} (contents : List Course) (index : ℤ) (now : Timestamp)
    (clock : ℕ → Timestamp) (accepted : Bool) (screen : UpdateScreen C) (d : Device D C) : Bool :=
  match screen.newUpdate contents now with
  | none => false
  | some update =>
    match StatFunction.editUpdates update index clock accepted d with
    | .finished _ => !(HiveUpdate.getUpdateList d).isEmpty
    | .threw _ => false

/-! ## Shared lists -/

/-- Where a course list is from: the course map, the records read from disk, or a screen. -/
inductive ListOrigin where
  | catalogue (level digit : String)
  | record (i : ℕ)
  | screen
deriving DecidableEq

/-- A course list by reference. The lists that are made together have the same time. -/
structure ListRef where
  time : ℕ
  origin : ListOrigin
deriving DecidableEq

/-- The course map with references to its lists. -/
def CourseData.refs (time : ℕ) (data : CourseData (List Course)) : CourseData ListRef where
  year := data.year
  courses := fun level digit =>
    (data.courses level digit).map fun _ => ⟨time, .catalogue level digit⟩

/-- The lists of a course map and of records as they are on disk. -/
def listsOf (data : CourseData (List Course)) (stored : List (List Course)) :
    ListOrigin → List Course
  | .catalogue level digit => (data.courses level digit).getD []
  | .record i => stored.getD i []
  | .screen => []

/-- A page over the main screen. -/
inductive Page (D : Type) where
  | pastSemesters (updates : List (Update D ListRef))
  /-- The update screen over the record of a card. -/
  | pastUpdate (index : ℕ) (screen : UpdateScreen ListRef)
  | dashboard (updates : ListTaken)
  | update (screen : UpdateScreen ListRef)
  | updateResult

namespace Page

def freshScreen : Page D → Option (UpdateScreen ListRef)
  | update screen => some screen
  | _ => none

def cardScreen : Page D → Option (UpdateScreen ListRef)
  | pastUpdate _ screen => some screen
  | _ => none

def isResult : Page D → Bool
  | updateResult => true
  | _ => false

def listTaken : Page D → Option ListTaken
  | dashboard updates => some updates
  | _ => none

/-- The update screen on the page. -/
def screen : Page D → Option (UpdateScreen ListRef)
  | pastUpdate _ screen | update screen => some screen
  | _ => none

def withScores (scores : List String) : Page D → Page D
  | pastUpdate index screen => pastUpdate index { screen with scores }
  | update screen => update { screen with scores }
  | page => page

end Page

inductive Tap (D : Type) [Floating D] where
  | selectTab (home : Bool)
  | tapCard (i : ℕ)
  | viewAll
  | openDashboard
  | pressTile
  /-- Add, delete or edit a course on an update screen, or choose a grade. -/
  | tile (e : CourseEdit)
  /-- Press the button of an update screen. -/
  | press (now : Timestamp) (clock : ℕ → Timestamp) (accepted : Bool)
  | back
  | goBackHome
  | restart
  | editProfile (p : Profile D)

/-- The device, its course lists and the time at which the next ones are made, the lists of the
records as the box has them on disk, the pages with the visible one first, and under them the
copy the home screen shows if its tab is selected. -/
structure Navigation (D : Type) [Floating D] where
  profile : Profile D
  lists : ListRef → List Course
  time : ℕ
  device : Device D ListRef
  stored : List (List Course)
  updates2 : Option (List (Update D ListRef))
  pages : List (Page D)

namespace Navigation

variable (w : Navigation D)

/-! ## The machine -/

/-- New lists. -/
def make (contents : ListOrigin → List Course) : Navigation D :=
  { w with
    lists := fun c => if c.time = w.time then contents c.origin else w.lists c
    time := w.time + 1 }

/-- The course map and the records are read from disk, with lists of their own. -/
def load : Navigation D :=
  { w.make (listsOf w.profile.courseData w.stored) with
    device := {
      auth := { w.device.auth with courseData := some (w.profile.courseData.refs w.time) }
      updateBox := w.device.updateBox.map fun updates =>
        updates.mapIdx fun i r => r.map fun _ => ⟨w.time, .record i⟩ } }

/-- What the lists of the stored records are now. -/
def contents : List (List Course) :=
  (HiveUpdate.getUpdateList w.device).map fun r => w.lists r.courseData

/-- The update list is written to disk. -/
def put : Navigation D := { w with stored := w.contents }

/-- The copy a screen makes that is built now. -/
def cards : List (Update D ListRef) := (HiveUpdate.getUpdateList w.device).reverse

/-- The main screen built anew, on its first tab. -/
def mainScreen : Navigation D := { w with updates2 := some w.cards, pages := [] }

/-- The profile `p` has been filled in: the update list is deleted and the course map loaded. -/
def fillProfile (p : Profile D) : Navigation D :=
  load { w with
    profile := p
    device := HiveUpdate.clearUpdateList
      { w.device with auth := { user := some p.user, courseData := none } }
    stored := [] }

def start (p : Profile D) : Navigation D :=
  (fillProfile { profile := p, lists := fun _ => [], time := 0, device := ⟨⟨none, none⟩, none⟩,
                 stored := [], updates2 := none, pages := [] } p).mainScreen

/-- The cards that can be tapped. The home screen shows one of its copy. -/
def shown : List (Update D ListRef) :=
  match w.pages with
  | [] => (w.updates2.getD []).take 1
  | .pastSemesters updates :: _ => updates
  | _ => []

def push (page : Page D) : Navigation D := { w with pages := page :: w.pages }

/-- Profile, device and fresh screens, with the course lists as they are now. -/
def openScreens : OpenScreens D where
  profile := w.profile
  device := w.device.map (CourseData.map w.lists) w.lists
  screens := (w.pages.filterMap Page.freshScreen).map (UpdateScreen.map w.lists)

def dashboards : Dashboards D where
  enrolment := w.profile.toEnrolment
  device := w.device.map (CourseData.map w.lists) w.lists
  dashboards := w.pages.filterMap Page.listTaken

/-- One tap, if it is possible. -/
def step (w : Navigation D) : Tap D → Option (Navigation D)
  | .selectTab home =>
    match w.pages with
    | [] => some { w with updates2 := if home then some (w.updates2.getD w.cards) else none }
    | _ => none
  | .tapCard i =>
    w.shown[i]?.map fun update =>
      w.push (.pastUpdate i (UpdateScreen.historyInit w.profile.gradingSystem update))
  | .viewAll =>
    match w.pages, w.updates2 with
    | [], some (_ :: _) => some (w.push (.pastSemesters w.cards))
    | _, _ => none
  | .openDashboard =>
    match w.pages with
    -- from a dashboard by setting a goal
    | [] | .dashboard _ :: _ =>
      some (w.push (.dashboard (if w.device.updateBox.isSome then .stored else .own)))
    | _ => none
  | .pressTile =>
    match w.pages with
    | .dashboard _ :: _ =>
      if w.dashboards.opens (.pressTile none) then
        -- a screen starts with a list of its own, and keeps it where the course map has none
        let w' := w.make fun _ => []
        (UpdateScreen.init w'.lists ⟨w.time, .screen⟩ w.profile.gradingSystem w.device.auth).map
          fun screen => w'.push (.update screen)
      else some w
    | _ => none
  | .tile e =>
    match w.pages with
    | [] => none
    | page :: rest => do
      let screen ← page.screen
      let (courses, scores) ← e.apply screen.grades (w.lists screen.courseData) screen.scores
      return { w with
        lists := Function.update w.lists screen.courseData courses
        pages := page.withScores scores :: rest }
  | .press now clock accepted =>
    match w.pages with
    | .update screen :: _ =>
      let courses := w.lists screen.courseData
      let w' := { w with device := screen.upload courses now w.device }
      some (if (screen.compute D courses).isSome then w'.put.push .updateResult else w')
    | .pastUpdate index screen :: _ =>
      let courses := w.lists screen.courseData
      let w' := { w with device := screen.edit courses index now clock accepted w.device }
      -- the list is put before the answer is there
      let w' := if screen.goesHome courses index now clock true w.device then w'.put else w'
      -- an answer that comes after the page was left goes nowhere
      some (if screen.goesHome courses index now clock accepted w.device then w'.mainScreen
        else w')
    | _ => none
  | .back =>
    match w.pages with
    | [] => none
    | _ :: rest => some { w with pages := rest }
  | .goBackHome =>
    match w.pages with
    | .updateResult :: _ => some w.mainScreen
    | _ => none
  | .restart => some w.load.mainScreen
  | .editProfile p =>
    match w.pages with
    | [] => some (w.fillProfile p)
    | _ => none

/-- The records are those of the semesters since the profile was filled in, in their order, and
the user is in the next one, or still in the final one. -/
def InOrder : Prop :=
  ∃ n, w.profile.start + n ≤ 2 * w.profile.year + 1 ∧
    labels w.device = w.profile.firstLabels n ∧
    w.device.auth.user.map (fun user => (user.level, user.semester)) =
      some (some (levelOf (w.profile.position n) : ℤ), some (semesterOf (w.profile.position n)))

/-- A result on a fresh screen comes from one with the user's position, before the final semester
is recorded. -/
def UploadedFresh (w : Navigation D) (a : Tap D) : Prop :=
  ∀ now clock accepted screen rest, a = .press now clock accepted →
    w.pages = .update screen :: rest →
    w.openScreens.PressedFresh (.press 0 (w.lists screen.courseData) screen.scores now)

/-- A result over a card comes from a semester whose record still is at the place of the card, if
any record is. -/
def EditedInPlace (w : Navigation D) (a : Tap D) : Prop :=
  ∀ now clock accepted index screen rest, a = .press now clock accepted →
    w.pages = .pastUpdate index screen :: rest →
    (screen.compute D (w.lists screen.courseData)).isSome →
    ∀ label, (labels w.device).reverse[index]? = some label →
      label = (screen.level, screen.semester)

end Navigation

/-! ## What an edit does to the labels -/

section Labels

variable {C : Type}

theorem exists_replaceUpdate {r : Update D C} {s : ℕ} (past : Update D C)
    (now : Timestamp) (hr : r.label = semesterLabel s) (h1 : 1 ≤ s) (h2 : s ≤ 18) :
    ∃ r', StatFunction.replaceUpdate r past now = some r' := by
  obtain ⟨hlevel, hsemester⟩ : r.level = levelText s ∧ r.semester = semesterOf s :=
    Prod.mk.inj hr
  simp only [StatFunction.replaceUpdate, hlevel, hsemester, getCGPA_eq past.cgpa r.gpa h1 h2,
    Option.bind_eq_bind, Option.bind_some, parse_cgpaText, Option.pure_def, Option.some.injEq,
    exists_eq']

/-- Records of semesters can be recomputed over any other. -/
theorem exists_rechain {newer : List (Update D C)} (clock : ℕ → Timestamp)
    (past : Update D C)
    (hnewer : ∀ r ∈ newer, ∃ s, r.label = semesterLabel s ∧ 1 ≤ s ∧ s ≤ 18) :
    ∃ newer', StatFunction.rechain clock past newer = some newer' ∧
      newer'.map Update.label = newer.map Update.label := by
  induction newer generalizing past with
  | nil => exact ⟨[], rfl, rfl⟩
  | cons r rs ih =>
    obtain ⟨⟨s, hr, h1, h2⟩, hrs⟩ := List.forall_mem_cons.1 hnewer
    obtain ⟨r', hreplace⟩ := exists_replaceUpdate past (clock rs.length) hr h1 h2
    obtain ⟨rs', hrechain, hlabels⟩ := ih r' hrs
    refine ⟨r' :: rs', ?_, ?_⟩
    · simp [StatFunction.rechain, hreplace, hrechain]
    · rw [List.map_cons, List.map_cons, hlabels, label_replaceUpdate hreplace]

theorem exists_newUpdate {screen : UpdateScreen C} {courses : List Course}
    (now : Timestamp) (hresult : (screen.compute D courses).isSome) :
    ∃ update : Update D C, screen.newUpdate courses now = some update := by
  obtain ⟨⟨gpa, score, cgpa⟩, hcompute⟩ := Option.isSome_iff_exists.1 hresult
  obtain ⟨⟨g, hg⟩, c, hc⟩ := parse_of_compute hcompute
  simp only [UpdateScreen.newUpdate, hcompute, hg, hc, Option.bind_eq_bind, Option.bind_some,
    Option.pure_def, Option.some.injEq, exists_eq']

/-- A result replaces the label at the place it is stored. -/
theorem labels_edit {d : Device D C} {screen : UpdateScreen C}
    {courses : List Course} {index : ℕ} {label : String × String} (now : Timestamp)
    (clock : ℕ → Timestamp) (accepted : Bool)
    (hd : ∀ r ∈ HiveUpdate.getUpdateList d, ∃ s, r.label = semesterLabel s ∧ 1 ≤ s ∧ s ≤ 18)
    (hresult : (screen.compute D courses).isSome)
    (hlabel : (labels d).reverse[index]? = some label) :
    ∃ older newer, labels d = older ++ label :: newer ∧
      labels (screen.edit courses index now clock accepted d) =
        older ++ (screen.level, screen.semester) :: newer := by
  obtain ⟨update, hupdate⟩ := exists_newUpdate (D := D) now hresult
  obtain ⟨result, gpa, cgpa, -, hmade⟩ := UpdateScreen.newUpdate_eq hupdate
  rw [labels, ← List.map_reverse, List.getElem?_map, Option.map_eq_some_iff] at hlabel
  obtain ⟨r, hr, rfl⟩ := hlabel
  obtain ⟨older, newer, hlist, rfl⟩ := exists_split_at hr
  obtain ⟨newer', hrechain, hnewer⟩ := exists_rechain clock update fun r' hr' =>
    hd r' (by rw [hlist]; exact List.mem_append_right _ (List.mem_cons_of_mem _ hr'))
  refine ⟨older.map Update.label, newer.map Update.label, by simp [labels, hlist], ?_⟩
  have hstored := StatFunction.editUpdates_eq update clock accepted hlist
  rw [StatFunction.storeRechained, hrechain] at hstored
  simp only [labels, UpdateScreen.edit, hupdate, hstored,
    StatFunction.getUpdateList_storeUpdates, List.reverse_reverse, List.map_append,
    List.map_cons, hnewer]
  rw [hmade]
  rfl

/-- An edit in its place leaves the outline alone, and so does one without a place. -/
theorem outline_edit {d : Device D C} {screen : UpdateScreen C}
    {courses : List Course} {index : ℕ} {now : Timestamp} {clock : ℕ → Timestamp}
    {accepted : Bool}
    (hplace : (screen.compute D courses).isSome → ∀ label,
      (labels d).reverse[index]? = some label → label = (screen.level, screen.semester)) :
    outline (screen.edit courses index now clock accepted d) = outline d := by
  unfold UpdateScreen.edit
  cases hupdate : screen.newUpdate (D := D) courses now with
  | none => rfl
  | some update =>
    obtain ⟨result, gpa, cgpa, hcompute, hmade⟩ := UpdateScreen.newUpdate_eq hupdate
    have hlabel : update.label = (screen.level, screen.semester) := by rw [hmade]; rfl
    cases hindex : (labels d).reverse[index]? with
    | none =>
      have hlength : ((HiveUpdate.getUpdateList d).length : ℤ) ≤ index := by
        simpa [labels] using hindex
      simp only [state_editUpdates_of_length_le hlength]
    | some label =>
      have hsame := hplace (by rw [hcompute]; rfl) label hindex
      exact outline_editUpdatesLoop _ (by rw [labels, List.map_reverse])
        (by rw [hindex, hsame, hlabel])

end Labels

/-! ## Runs in order -/

namespace OpenScreens

variable {w w' : OpenScreens D} {n : ℕ}

/-- What has to be looked at: the labels of records and screens, the position and the length of
the programme. -/
theorem After.congr (h : After n w) (hprofile : w'.profile = w.profile)
    (hlabels : labels w'.device = labels w.device)
    (hyear : w'.device.auth.courseData.map CourseData.year =
      w.device.auth.courseData.map CourseData.year)
    (hposition : w'.device.auth.user.map (fun user => (user.level, user.semester)) =
      w.device.auth.user.map fun user => (user.level, user.semester))
    (hscreens : ∀ screen ∈ w'.screens, ∃ s ∈ w.screens,
      (screen.level, screen.semester) = (s.level, s.semester)) : After n w' where
  fits := hprofile ▸ h.fits
  labels_eq := by rw [hlabels, hprofile, h.labels_eq]
  courseData := by
    obtain ⟨data, hdata, hdata'⟩ := h.courseData
    rw [hdata, Option.map_some] at hyear
    obtain ⟨data', hsome, hsame⟩ := Option.map_eq_some_iff.1 hyear
    exact ⟨data', hsome, by rw [hsame, hdata', hprofile]⟩
  user := by
    obtain ⟨user, huser, hlevel, hsemester⟩ := h.user
    rw [huser, Option.map_some] at hposition
    obtain ⟨user', huser', hsame⟩ := Option.map_eq_some_iff.1 hposition
    obtain ⟨hlevel', hsemester'⟩ := Prod.mk.inj hsame
    exact ⟨user', huser', hprofile ▸ hlevel'.trans hlevel, hprofile ▸ hsemester'.trans hsemester⟩
  screens := by
    intro screen hscreen
    obtain ⟨s, hs, hlabel⟩ := hscreens screen hscreen
    rw [hlabel, hprofile]
    exact h.screens s hs

/-- The stored records are of semesters of the programme. -/
theorem After.semester_of_mem_labels (h : After n w) {label : String × String}
    (hlabel : label ∈ labels w.device) : ∃ s, label = semesterLabel s ∧ 1 ≤ s ∧ s ≤ 18 := by
  rw [h.labels_eq] at hlabel
  obtain ⟨i, hi, rfl⟩ := List.mem_map.1 hlabel
  have hin := List.mem_range.1 hi
  have hfits := h.fits
  have hstart := w.profile.one_le_start
  have hyear := w.profile.year_le
  exact ⟨w.profile.start + i, rfl, by omega, by omega⟩

end OpenScreens

namespace Navigation

open OpenScreens (After)

variable {w w' : Navigation D} {a : Tap D} {n : ℕ}

@[simp] theorem labels_openScreens (w : Navigation D) :
    labels w.openScreens.device = labels w.device := labels_map w.device

@[simp] theorem openScreens_profile (w : Navigation D) : w.openScreens.profile = w.profile := rfl

/-- The course lists do not matter. -/
theorem after_congr (h : After n w.openScreens) (hprofile : w'.profile = w.profile)
    (hlabels : labels w'.device = labels w.device)
    (hyear : w'.device.auth.courseData.map CourseData.year =
      w.device.auth.courseData.map CourseData.year)
    (hposition : w'.device.auth.user.map (fun user => (user.level, user.semester)) =
      w.device.auth.user.map fun user => (user.level, user.semester))
    (hpages : ∀ screen ∈ w'.pages.filterMap Page.freshScreen,
      ∃ s ∈ w.pages.filterMap Page.freshScreen,
        (screen.level, screen.semester) = (s.level, s.semester)) : After n w'.openScreens := by
  refine h.congr hprofile (by simpa using hlabels) ?_ hposition ?_
  · simpa [openScreens, Device.map, AuthProvider.map, Function.comp_def, CourseData.map] using hyear
  · intro screen hscreen
    obtain ⟨s, hs, rfl⟩ := List.mem_map.1 hscreen
    obtain ⟨t, ht, hlabel⟩ := hpages s hs
    exact ⟨t.map w.lists, List.mem_map_of_mem ht, hlabel⟩

theorem after_of_pages (h : After n w.openScreens) (hprofile : w'.profile = w.profile)
    (hdevice : w'.device = w.device)
    (hpages : ∀ page ∈ w'.pages, page.freshScreen.isSome → page ∈ w.pages) :
    After n w'.openScreens := by
  refine after_congr h hprofile (by rw [hdevice]) (by rw [hdevice]) (by rw [hdevice]) ?_
  intro screen hscreen
  obtain ⟨page, hpage, hfresh⟩ := List.mem_filterMap.1 hscreen
  exact ⟨screen, List.mem_filterMap.2
    ⟨page, hpages page hpage (by rw [hfresh]; rfl), hfresh⟩, rfl⟩

theorem inOrder_of_after (h : After n w.openScreens) : w.InOrder := by
  obtain ⟨user, huser, hlevel, hsemester⟩ := h.user
  refine ⟨n, h.fits, by simpa using h.labels_eq, ?_⟩
  have huser' : w.device.auth.user = some user := huser
  rw [huser', Option.map_some, hlevel, hsemester]
  rfl

theorem InOrder.oncePerSemester (h : w.InOrder) {data : CourseData (List Course)}
    (hdata : w.openScreens.device.auth.courseData = some data)
    (hyear : data.year = some (w.profile.year : ℤ)) : w.openScreens.OncePerSemester := by
  obtain ⟨n, hfits, hlabels, hposition⟩ := h
  obtain ⟨user, huser, hposition⟩ := Option.map_eq_some_iff.1 hposition
  obtain ⟨hlevel, hsemester⟩ := Prod.mk.inj hposition
  have hafter : After n { w.openScreens with screens := [] } :=
    ⟨hfits, by simpa using hlabels, ⟨data, hdata, hyear⟩, ⟨user, huser, hlevel, hsemester⟩, nofun⟩
  exact hafter.oncePerSemester

theorem after_mainScreen (h : After n w.openScreens) : After n w.mainScreen.openScreens :=
  after_of_pages h rfl rfl fun _ hpage => absurd hpage List.not_mem_nil

theorem after_push (h : After n w.openScreens) {page : Page D} (hpage : page.freshScreen = none) :
    After n (w.push page).openScreens := by
  refine after_of_pages h rfl rfl fun page' hpage' hfresh => ?_
  rcases List.mem_cons.1 hpage' with rfl | hmem
  · rw [hpage] at hfresh
    cases hfresh
  · exact hmem

/-- A press on a fresh screen is one on the topmost of the fresh screens. -/
theorem openScreens_press {now : Timestamp} {clock : ℕ → Timestamp} {accepted : Bool}
    {screen : UpdateScreen ListRef} {rest : List (Page D)}
    (hpages : w.pages = .update screen :: rest)
    (hstep : w.step (.press now clock accepted) = some w') :
    w.openScreens.step (.press 0 (w.lists screen.courseData) screen.scores now) =
      some w'.openScreens := by
  have hupload := UpdateScreen.upload_map (f := CourseData.map w.lists) (g := w.lists)
    (d := w.device) (fun _ _ => rfl) (w.lists screen.courseData) now screen
  have hsame : { screen.map w.lists with
      courseData := w.lists screen.courseData, scores := screen.scores } =
      screen.map w.lists := rfl
  simp only [step, hpages, Option.some.injEq] at hstep
  subst hstep
  simp only [OpenScreens.step, openScreens, hpages, Page.freshScreen, List.filterMap_cons,
    List.map_cons, List.getElem?_cons_zero, Option.map_some, List.set_cons_zero, hsame, hupload]
  split_ifs <;> simp [put, push, List.filterMap_cons, Page.freshScreen]

/-- What a press over a card does to profile and device, and that no fresh screen is added. -/
theorem step_press_pastUpdate {now : Timestamp} {clock : ℕ → Timestamp} {accepted : Bool}
    {index : ℕ} {screen : UpdateScreen ListRef} {rest : List (Page D)}
    (hpages : w.pages = .pastUpdate index screen :: rest)
    (hstep : w.step (.press now clock accepted) = some w') :
    w'.profile = w.profile ∧
      w'.device = screen.edit (w.lists screen.courseData) index now clock accepted w.device ∧
      ∀ page ∈ w'.pages, page ∈ w.pages := by
  simp only [step, hpages, Option.some.injEq] at hstep
  subst hstep
  refine ⟨by split_ifs <;> rfl, by split_ifs <;> rfl, ?_⟩
  split_ifs <;> simp [put, mainScreen, hpages]

/-- Profile edits and restarts give the records lists of their own, and nothing else. -/
@[simp] theorem labels_load (w : Navigation D) : labels w.load.device = labels w.device := by
  unfold labels load HiveUpdate.getUpdateList
  cases w.device.updateBox with
  | none => rfl
  | some updates =>
    simp only [Option.map_some, Option.getD_some]
    refine List.ext_getElem? fun i => ?_
    simp [Function.comp_def]

theorem exact_step (h : After n w.openScreens) (hstep : w.step a = some w') (hgood : w'.InOrder) :
    w.UploadedFresh a ∧ w.EditedInPlace a := by
  constructor
  · rintro now clock accepted screen rest rfl hpages
    have hpress := openScreens_press hpages hstep
    obtain ⟨s, -, hmade⟩ := Option.map_eq_some_iff.1 hpress
    obtain ⟨data, hdata, hyear⟩ := h.courseData
    have hdata' : w'.openScreens.device.auth.courseData = some data :=
      hmade ▸ (UpdateScreen.courseData_upload _ _ _ _).trans hdata
    have hprofile : w'.profile = w.profile := congrArg OpenScreens.profile hmade.symm
    exact h.pressedFresh hpress (hgood.oncePerSemester hdata' (hprofile ▸ hyear))
  · rintro now clock accepted index screen rest rfl hpages hresult label hlabel
    obtain ⟨hprofile, hdevice, -⟩ := step_press_pastUpdate hpages hstep
    have hsemesters : ∀ r ∈ HiveUpdate.getUpdateList w.device,
        ∃ s, r.label = semesterLabel s ∧ 1 ≤ s ∧ s ≤ 18 := fun r hr =>
      h.semester_of_mem_labels (by
        rw [labels_openScreens]
        exact List.mem_map_of_mem hr)
    obtain ⟨older, newer, hlabels, hlabels'⟩ :=
      labels_edit now clock accepted hsemesters hresult hlabel
    obtain ⟨n', -, hn', -⟩ := hgood
    have hlabelsEq := h.labels_eq
    rw [labels_openScreens] at hlabelsEq
    rw [hdevice, hprofile, hlabels'] at hn'
    have hn : older ++ label :: newer = w.profile.firstLabels n := hlabels.symm.trans hlabelsEq
    have hlength := congrArg List.length hn
    have hlength' := congrArg List.length hn'
    simp only [Enrolment.firstLabels, List.length_append, List.length_cons, List.length_map,
      List.length_range] at hlength hlength'
    obtain rfl : n = n' := by omega
    exact (List.cons.inj (List.append_cancel_left (hn.trans hn'.symm))).1

/-- An operation on the tiles of the visible screen. -/
theorem step_tile {e : CourseEdit} (hstep : w.step (.tile e) = some w') :
    ∃ page rest screen courses scores, w.pages = page :: rest ∧ page.screen = some screen ∧
      e.apply screen.grades (w.lists screen.courseData) screen.scores = some (courses, scores) ∧
      w' = { w with
        lists := Function.update w.lists screen.courseData courses
        pages := page.withScores scores :: rest } := by
  cases hpages : w.pages with
  | nil => simp [step, hpages] at hstep
  | cons page rest =>
    simp only [step, hpages, Option.bind_eq_bind, Option.bind_eq_some_iff, Option.pure_def,
      Option.some.injEq] at hstep
    obtain ⟨screen, hscreen, ⟨courses, scores⟩, happly, rfl⟩ := hstep
    exact ⟨page, rest, screen, courses, scores, rfl, hscreen, happly, rfl⟩

/-- Reading course map and records again leaves everything but the lists as it was. -/
theorem after_load (h : After n w.openScreens) : After n w.load.openScreens := by
  refine after_congr h rfl (labels_load w) ?_ rfl fun screen hscreen => ⟨screen, hscreen, rfl⟩
  obtain ⟨data, hdata, hyear⟩ := h.courseData
  obtain ⟨refs, hrefs, rfl⟩ := Option.map_eq_some_iff.1 hdata
  have hdata' : w.device.auth.courseData = some refs := hrefs
  rw [hdata', Option.map_some, show refs.year = some (w.profile.year : ℤ) from hyear,
    ← w.profile.data_year]
  rfl

theorem after_fillProfile (p : Profile D) (hpages : w.pages = []) :
    After 0 (w.fillProfile p).openScreens := by
  refine (After.start p ⟨⟨none, none⟩, none⟩).congr rfl rfl ?_ rfl ?_
  · rfl
  · intro screen hscreen
    have hnone : (w.fillProfile p).openScreens.screens = [] := by
      simp [openScreens, fillProfile, load, make, hpages]
    rw [hnone] at hscreen
    cases hscreen

theorem after_push_update (h : After n w.openScreens) {screen : UpdateScreen ListRef}
    (hscreen : (screen.level, screen.semester) = semesterLabel (w.profile.position n)) :
    After n (w.push (.update screen)).openScreens where
  fits := h.fits
  labels_eq := h.labels_eq
  courseData := h.courseData
  user := h.user
  screens := by
    intro s hs
    have hcons : (w.push (.update screen)).openScreens.screens =
        screen.map w.lists :: w.openScreens.screens := rfl
    rw [hcons] at hs
    rcases List.mem_cons.1 hs with rfl | hold
    · exact ⟨n, le_rfl, hscreen⟩
    · exact h.screens s hold

theorem after_pressTile (h : After n w.openScreens) (hstep : w.step .pressTile = some w') :
    After n w'.openScreens := by
  simp only [step] at hstep
  split at hstep
  · split_ifs at hstep
    · obtain ⟨screen, hinit, rfl⟩ := Option.map_eq_some_iff.1 hstep
      have hmade : After n (w.make fun _ => []).openScreens :=
        after_of_pages h rfl rfl fun _ hpage _ => hpage
      exact after_push_update hmade (h.opened rfl hinit)
    · cases hstep
      exact h
  · cases hstep

theorem after_step (h : After n w.openScreens) (hfresh : w.UploadedFresh a)
    (hplace : w.EditedInPlace a) (hstep : w.step a = some w') :
    ∃ m, After m w'.openScreens := by
  cases a with
  | selectTab home =>
    simp only [step] at hstep
    split at hstep
    · cases hstep
      exact ⟨n, h⟩
    · cases hstep
  | tapCard i =>
    obtain ⟨update, -, rfl⟩ := Option.map_eq_some_iff.1 hstep
    exact ⟨n, after_push h rfl⟩
  | viewAll =>
    simp only [step] at hstep
    split at hstep
    · cases hstep
      exact ⟨n, after_push h rfl⟩
    · cases hstep
  | openDashboard =>
    simp only [step] at hstep
    split at hstep
    · cases hstep
      exact ⟨n, after_push h rfl⟩
    · cases hstep
      exact ⟨n, after_push h rfl⟩
    · cases hstep
  | pressTile => exact ⟨n, after_pressTile h hstep⟩
  | tile e =>
    obtain ⟨page, rest, screen, courses, scores, hpages, -, -, rfl⟩ := step_tile hstep
    refine ⟨n, after_congr h rfl rfl rfl rfl fun s hs => ?_⟩
    rw [hpages]
    cases page with
    | update screen =>
      rcases List.mem_cons.1 hs with rfl | hrest
      · exact ⟨screen, List.mem_cons_self, rfl⟩
      · exact ⟨s, List.mem_cons_of_mem _ hrest, rfl⟩
    | _ => exact ⟨s, hs, rfl⟩
  | press now clock accepted =>
    cases hpages : w.pages with
    | nil => simp [step, hpages] at hstep
    | cons page rest =>
      cases page with
      | update screen =>
        exact h.press (hfresh _ _ _ _ _ rfl hpages) (openScreens_press hpages hstep)
      | pastUpdate index screen =>
        obtain ⟨hprofile, hdevice, hold⟩ := step_press_pastUpdate hpages hstep
        have houtline : outline w'.device = outline w.device :=
          hdevice ▸ outline_edit (hplace _ _ _ _ _ _ rfl hpages)
        obtain ⟨hlabels, hdata, hposition⟩ : labels w'.device = labels w.device ∧
            w'.device.auth.courseData = w.device.auth.courseData ∧ _ = _ := by
          simpa [outline] using houtline
        refine ⟨n, after_congr h hprofile hlabels (by rw [hdata]) hposition fun s hs => ?_⟩
        obtain ⟨page, hpage, hscreen⟩ := List.mem_filterMap.1 hs
        exact ⟨s, List.mem_filterMap.2 ⟨page, hold page hpage, hscreen⟩, rfl⟩
      | _ => simp [step, hpages] at hstep
  | back =>
    simp only [step] at hstep
    split at hstep
    · cases hstep
    · next page rest hpages =>
      cases hstep
      exact ⟨n, after_of_pages h rfl rfl
        fun page' hpage' _ => hpages ▸ List.mem_cons_of_mem page hpage'⟩
  | goBackHome =>
    simp only [step] at hstep
    split at hstep
    · cases hstep
      exact ⟨n, after_mainScreen h⟩
    · cases hstep
  | restart =>
    cases hstep
    exact ⟨n, after_mainScreen (after_load h)⟩
  | editProfile p =>
    simp only [step] at hstep
    split at hstep
    · next hpages =>
      cases hstep
      exact ⟨0, after_fillProfile p hpages⟩
    · cases hstep

end Navigation

/-- The records stay those of the semesters since the profile was filled in, each once and in
their order, with the user in the next one, exactly in the runs in which every result of a fresh
screen is for the user's position, before the final semester is recorded, and every result over a
card is stored in the place of its own semester. -/
theorem semestersInOrder_iff (p : Profile D) {as : List (Tap D)} {w : Navigation D}
    (hrun : Machine.run Navigation.step as (Navigation.start p) = some w) :
    Machine.Always Navigation.step Navigation.InOrder as (Navigation.start p) ↔
      Machine.Each Navigation.step (fun w a => w.UploadedFresh a ∧ w.EditedInPlace a) as
        (Navigation.start p) :=
  Machine.always_iff_each (fun w => ∃ n, OpenScreens.After n w.openScreens)
    (fun _ ⟨_, h⟩ => Navigation.inOrder_of_after h)
    (fun _ _ _ ⟨_, h⟩ hstep hgood => Navigation.exact_step h hstep hgood)
    (fun _ _ _ ⟨_, h⟩ ⟨hfresh, hplace⟩ hstep => Navigation.after_step h hfresh hplace hstep)
    ⟨0, Navigation.after_mainScreen (Navigation.after_fillProfile p rfl)⟩ hrun

/-- The second semester is uploaded from the home screen that shows the first one. Back there, the
card is tapped and its semester saved again. -/
def staleCard : List (Tap Double) :=
  [.openDashboard, .pressTile, .tile (.choose 0 "A"), .press 1 (fun _ => 1) true, .goBackHome,
    .openDashboard, .pressTile, .tile (.choose 0 "A"), .press 2 (fun _ => 2) true, .back, .back,
    .back, .tapCard 0, .press 3 (fun _ => 3) true]

/-- The second semester is lost and the first one recorded twice. -/
theorem semestersInOrder_staleCard : ∃ w,
    Machine.run Navigation.step staleCard (Navigation.start freshman) = some w ∧
    labels w.device = [("100", "1st"), ("100", "1st")] ∧
    ¬Machine.Each Navigation.step (fun w a => w.UploadedFresh a ∧ w.EditedInPlace a) staleCard
      (Navigation.start freshman) := by
  have hcheck : (Machine.run Navigation.step staleCard (Navigation.start freshman)).map
      (fun w => labels w.device) = some [("100", "1st"), ("100", "1st")] := by
    decide +kernel
  obtain ⟨w, hrun, hlabels⟩ := Option.map_eq_some_iff.1 hcheck
  refine ⟨w, hrun, hlabels, fun heach => ?_⟩
  obtain ⟨n, -, hfirst, -⟩ := ((semestersInOrder_iff freshman hrun).2 heach).last hrun
  have hnodup := OpenScreens.nodup_firstLabels w.profile.toEnrolment n
  rw [← hfirst, hlabels] at hnodup
  exact absurd hnodup (by decide)

end StudyStats
