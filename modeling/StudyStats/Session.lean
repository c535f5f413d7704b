import StudyStats.EditUpdates
import StudyStats.Library.Heap
import StudyStats.Library.Run
import StudyStats.Screens

/-!
# A session

The three grade screens over shared course lists, as Dart shares them: a fresh screen binds
the provider's own list, a screen over a record binds the record's, a save stores the list
of the screen, and every operation on the tiles works on the bound list in place.

## Main definitions

* `Session`, `Session.step` — the stored records, the provider, the open screen, and what a
  user can do.

## Main results

* `freshScreen_cases`, `Session.historyScreen_cases`, `Session.step_tile`,
  `Session.step_press` — what a step can do to lists, records and screen.
-/

namespace StudyStats

open Dart

variable {D : Type} [Floating D]

/-- A course list by reference. The ghost is what the list was when the reference was stored. -/
abbrev CourseList := Held (List Course)

inductive Kind where
  | quick
  | simulate
  | update
deriving DecidableEq

structure Session (D : Type) where
  gradingSystem : String
  heap : Heap (List Course)
  quicks : List (Quick CourseList)
  simulates : List (Simulate D CourseList)
  /-- the provider and the update list -/
  device : Device D CourseList
  screen : Option (Screen CourseList)

inductive SessionAction where
  /-- open a screen on the user's own semester -/
  | fresh (kind : Kind)
  /-- open a screen over a record -/
  | history (kind : Kind) (index : ℕ)
  | changeSemester (value : String)
  | changeLevel (value : String)
  | tile (e : CourseEdit)
  /-- the button; the rest is for a screen that edits an update -/
  | press (now : Timestamp) (clock : ℕ → Timestamp) (accepted : Bool)
  | leave

/-- A fresh screen of any kind. -/
def freshScreen {C : Type} (kind : Kind) (contents : C → List Course) (empty : C)
    (gradingSystem : String) (auth : AuthProvider D C) : Option (Screen C) :=
  match kind with
  | .quick => (QuickScreen.init contents empty gradingSystem auth).map .quick
  | .simulate => (SimulateScreen.init contents empty gradingSystem auth).map .simulate
  | .update => (UpdateScreen.init contents empty gradingSystem auth).map (.update · none)

namespace Session

variable (w : Session D)

def contents (c : CourseList) : List Course := w.heap.read c.ref

/-- The list a screen starts with is new, and only stays where the catalogue has none. -/
def openFresh (kind : Kind) : Option (Session D) :=
  let (ref, heap) := w.heap.alloc []
  let w := { w with heap }
  (freshScreen kind w.contents ⟨ref, []⟩ w.gradingSystem w.device.auth).map fun screen =>
    { w with screen := some screen }

/-- The screen over the record at `index`, of the newest-first list for updates. -/
def historyScreen (index : ℕ) : Kind → Option (Screen CourseList)
  | .quick => w.quicks[index]?.map fun r => .quick (.historyInit w.gradingSystem r)
  | .simulate => w.simulates[index]?.map fun r =>
      .simulate (SimulateScreen.historyInit w.gradingSystem r)
  | .update => (HiveUpdate.getUpdateList w.device).reverse[index]?.map fun r =>
      .update (.historyInit w.gradingSystem r) (some index)

def openHistory (kind : Kind) (index : ℕ) : Option (Session D) :=
  (w.historyScreen index kind).map fun screen => { w with screen := some screen }

def tile (e : CourseEdit) : Option (Session D) := do
  let screen ← w.screen
  let (courses, scores) ← e.apply screen.grades (w.contents screen.courseData) screen.scores
  return { w with
    heap := w.heap.write screen.courseData.ref courses
    screen := some (screen.withScores scores) }

/-- A finished edit of an update leaves the screen for the main one. -/
def press (now : Timestamp) (clock : ℕ → Timestamp) (accepted : Bool) : Option (Session D) := do
  let screen ← w.screen
  let contents := w.contents screen.courseData
  match screen.withCourseData ⟨screen.courseData.ref, contents⟩ with
  | .quick s => return { w with quicks := s.calculate D contents now w.quicks }
  | .simulate s => return { w with
      simulates := SimulateScreen.simulate contents now s w.simulates }
  | .update s none => return { w with device := s.upload contents now w.device }
  | .update s (some index) =>
    match s.newUpdate contents now with
    | none => return w
    | some update =>
      match StatFunction.editUpdates update index clock accepted w.device with
      | .finished device => return { w with device, screen := none }
      | .threw device => return { w with device }

/-- One screen is open at a time. Only the quick calculator has drop-downs. -/
def step : SessionAction → Option (Session D)
  | .fresh kind => if w.screen.isSome then none else w.openFresh kind
  | .history kind index => if w.screen.isSome then none else w.openHistory kind index
  | .changeSemester value =>
    match w.screen with
    | some (.quick s) => some { w with
        screen := some (.quick (s.changeSemester w.contents w.device.auth value)) }
    | _ => none
  | .changeLevel value =>
    match w.screen with
    | some (.quick s) => some { w with
        screen := some (.quick (s.changeLevel w.contents w.device.auth value)) }
    | _ => none
  | .tile e => w.tile e
  | .press now clock accepted => w.press now clock accepted
  | .leave => some { w with screen := none }

/-- The course list and the scores of every stored record. -/
def records : List (CourseList × List ℤ) :=
  (w.quicks.map fun r => (r.courseData, r.scores)) ++
    (w.simulates.map fun r => (r.courseData, r.scores)) ++
    (HiveUpdate.getUpdateList w.device).map fun r => (r.courseData, r.scores)

end Session

/-! ## What opening a screen binds -/

/-- A list of the catalogue. -/
def AuthProvider.Lists {C : Type} (auth : AuthProvider D C) (c : C) : Prop :=
  ∃ level semester, auth.courseList level semester = some c

/-- A screen on a catalogue entry, with no grade chosen. -/
structure Screen.Blank {C : Type} (contents : C → List Course) (auth : AuthProvider D C)
    (screen : Screen C) : Prop where
  lists : auth.Lists screen.courseData
  scores : screen.scores = List.replicate (contents screen.courseData).length "-1"

section Opening

variable {C : Type} {contents : C → List Course} {empty : C} {gs : String}
  {auth : AuthProvider D C}

omit [Floating D] in
theorem quickScreen_init_cases {screen : QuickScreen C}
    (h : QuickScreen.init contents empty gs auth = some screen) :
    (screen.courseData = empty ∧ screen.scores = [] ∧ screen.grades = []) ∨
      (Screen.quick screen).Blank contents auth ∧ screen.grades = (getGrade gs).2 := by
  simp only [QuickScreen.init, Option.bind_eq_bind, Option.bind_eq_some_iff] at h
  obtain ⟨user, huser, semester, hsemester, level, hlevel, h⟩ := h
  split at h
  · cases h; exact .inl ⟨rfl, rfl, rfl⟩
  · next courseData hlist => cases h; exact .inr ⟨⟨⟨_, _, hlist⟩, rfl⟩, rfl⟩

theorem updateScreen_init_cases {screen : UpdateScreen C}
    (h : UpdateScreen.init contents empty gs auth = some screen) :
    (screen.courseData = empty ∧ screen.scores = [] ∧ screen.grades = []) ∨
      (Screen.update screen none).Blank contents auth ∧ screen.grades = (getGrade gs).2 := by
  simp only [UpdateScreen.init, Option.bind_eq_bind, Option.bind_eq_some_iff] at h
  obtain ⟨user, huser, semester, hsemester, cgpa, hcgpa, level, hlevel, h⟩ := h
  split at h
  · cases h; exact .inl ⟨rfl, rfl, rfl⟩
  · next courseData hlist => cases h; exact .inr ⟨⟨⟨_, _, hlist⟩, rfl⟩, rfl⟩

theorem freshScreen_cases {kind : Kind} {screen : Screen C}
    (h : freshScreen kind contents empty gs auth = some screen) :
    (screen.courseData = empty ∧ screen.scores = [] ∧ screen.grades = []) ∨
      screen.Blank contents auth ∧ screen.grades = (getGrade gs).2 := by
  cases kind with
  | quick =>
    obtain ⟨s, hs, rfl⟩ := Option.map_eq_some_iff.1 h
    exact quickScreen_init_cases hs
  | simulate =>
    obtain ⟨s, hs, rfl⟩ := Option.map_eq_some_iff.1 h
    exact (updateScreen_init_cases hs).imp_right fun ⟨⟨hl, hs⟩, hg⟩ => ⟨⟨hl, hs⟩, hg⟩
  | update =>
    obtain ⟨s, hs, rfl⟩ := Option.map_eq_some_iff.1 h
    exact (updateScreen_init_cases hs).imp_right fun ⟨⟨hl, hs⟩, hg⟩ => ⟨⟨hl, hs⟩, hg⟩

omit [Floating D] in
/-- A drop-down leaves list and scores alone or starts over on a catalogue entry. -/
theorem reload_cases (contents : C → List Course) (auth : AuthProvider D C)
    (screen : QuickScreen C) :
    screen.reload contents auth = screen ∨
      (Screen.quick (screen.reload contents auth)).Blank contents auth ∧
        (screen.reload contents auth).grades = screen.grades := by
  unfold QuickScreen.reload
  split
  · exact .inl rfl
  · next courseData hlist => exact .inr ⟨⟨⟨_, _, hlist⟩, rfl⟩, rfl⟩

end Opening

namespace Session

variable {w w' : Session D}

theorem openFresh_eq {kind : Kind} (h : w.openFresh kind = some w') : ∃ screen,
    freshScreen kind (fun c : CourseList => (w.heap.alloc []).2.read c.ref) ⟨w.heap.size, []⟩
      w.gradingSystem w.device.auth = some screen ∧
    w' = { w with heap := (w.heap.alloc []).2, screen := some screen } := by
  obtain ⟨screen, hscreen, rfl⟩ := Option.map_eq_some_iff.1 h
  exact ⟨screen, hscreen, rfl⟩

theorem historyScreen_cases {index : ℕ} {kind : Kind} {screen : Screen CourseList}
    (h : w.historyScreen index kind = some screen) :
    screen.grades = (getGrade w.gradingSystem).2 ∧ ∃ x ∈ w.records,
      screen.courseData = x.1 ∧ screen.scores = x.2.filterMap StatFunction.scoreGrade := by
  cases kind with
  | quick =>
    obtain ⟨r, hr, rfl⟩ := Option.map_eq_some_iff.1 h
    refine ⟨rfl, (r.courseData, r.scores), ?_, rfl, rfl⟩
    have := List.mem_of_getElem? hr
    simp only [records, List.mem_append, List.mem_map]
    exact .inl (.inl ⟨r, this, rfl⟩)
  | simulate =>
    obtain ⟨r, hr, rfl⟩ := Option.map_eq_some_iff.1 h
    refine ⟨rfl, (r.courseData, r.scores), ?_, rfl, rfl⟩
    have := List.mem_of_getElem? hr
    simp only [records, List.mem_append, List.mem_map]
    exact .inl (.inr ⟨r, this, rfl⟩)
  | update =>
    obtain ⟨r, hr, rfl⟩ := Option.map_eq_some_iff.1 h
    refine ⟨rfl, (r.courseData, r.scores), ?_, rfl, rfl⟩
    have := List.mem_reverse.1 (List.mem_of_getElem? hr)
    simp only [records, List.mem_append, List.mem_map]
    exact .inr ⟨r, this, rfl⟩

theorem step_tile {e : CourseEdit} (h : w.step (.tile e) = some w') :
    ∃ screen courses scores, w.screen = some screen ∧
      e.apply screen.grades (w.contents screen.courseData) screen.scores =
        some (courses, scores) ∧
      w' = { w with
        heap := w.heap.write screen.courseData.ref courses
        screen := some (screen.withScores scores) } := by
  simp only [step, tile, Option.bind_eq_bind, Option.bind_eq_some_iff, Option.pure_def,
    Option.some.injEq] at h
  obtain ⟨screen, hscreen, ⟨courses, scores⟩, happly, rfl⟩ := h
  exact ⟨screen, courses, scores, hscreen, happly, rfl⟩

/-! ## What a button stores -/

/-- The record a press of the screen's button would make, as far as its list and scores go. -/
def stored (w : Session D) (screen : Screen CourseList) : CourseList × List ℤ :=
  (⟨screen.courseData.ref, w.contents screen.courseData⟩,
    screen.scores.filterMap StatFunction.gradeScore)

omit [Floating D] in
theorem mem_records {x : CourseList × List ℤ} : x ∈ w.records ↔
    (∃ r ∈ w.quicks, (r.courseData, r.scores) = x) ∨
      (∃ r ∈ w.simulates, (r.courseData, r.scores) = x) ∨
      ∃ r ∈ HiveUpdate.getUpdateList w.device, (r.courseData, r.scores) = x := by
  simp only [records, List.mem_append, List.mem_map, or_assoc]

/-- A record of the list, or the one a press of the button makes once its check has passed. -/
def KeptOrStored (w : Session D) (screen : Screen CourseList) (x : CourseList × List ℤ) : Prop :=
  x ∈ w.records ∨ x = w.stored screen ∧
    UpdateScreen.complete (w.contents screen.courseData) screen.scores = some true

/-- The screen's list as it is when the button is pressed. -/
def current (w : Session D) (c : CourseList) : CourseList := ⟨c.ref, w.contents c⟩

theorem keptOrStored_calculate (w : Session D) (s : QuickScreen CourseList) (now : Timestamp) :
    ∀ x ∈ { w with
        quicks := { s with courseData := w.current s.courseData }.calculate D
          (w.contents s.courseData) now w.quicks }.records,
      w.KeptOrStored (.quick s) x := by
  intro x hx
  rcases mem_records.1 hx with ⟨r, hr, rfl⟩ | hold
  · rcases QuickScreen.mem_calculate hr with hr | ⟨hcomplete, hlist, hscores⟩
    · exact .inl (mem_records.2 (.inl ⟨r, hr, rfl⟩))
    · exact .inr ⟨Prod.ext hlist hscores, hcomplete⟩
  · exact .inl (mem_records.2 (.inr hold))

theorem keptOrStored_simulate (w : Session D) (s : SimulateScreen CourseList) (now : Timestamp) :
    ∀ x ∈ { w with
        simulates := SimulateScreen.simulate (w.contents s.courseData) now
          { s with courseData := w.current s.courseData } w.simulates }.records,
      w.KeptOrStored (.simulate s) x := by
  intro x hx
  rcases mem_records.1 hx with hold | ⟨r, hr, rfl⟩ | hold
  · exact .inl (mem_records.2 (.inl hold))
  · rcases SimulateScreen.mem_simulate hr with hr | ⟨hcomplete, hlist, hscores⟩
    · exact .inl (mem_records.2 (.inr (.inl ⟨r, hr, rfl⟩)))
    · exact .inr ⟨Prod.ext hlist hscores, hcomplete⟩
  · exact .inl (mem_records.2 (.inr (.inr hold)))

omit [Floating D] in
/-- Of a device alone only the update list has to be looked at. -/
theorem keptOrStored_of_device {v : Session D} {screen : Screen CourseList}
    (hquicks : v.quicks = w.quicks) (hsimulates : v.simulates = w.simulates)
    (hupdates : ∀ r ∈ HiveUpdate.getUpdateList v.device,
      w.KeptOrStored screen (r.courseData, r.scores)) :
    ∀ x ∈ v.records, w.KeptOrStored screen x := by
  intro x hx
  rcases mem_records.1 hx with hold | hold | ⟨r, hr, rfl⟩
  · exact .inl (mem_records.2 (.inl (hquicks ▸ hold)))
  · exact .inl (mem_records.2 (.inr (.inl (hsimulates ▸ hold))))
  · exact hupdates r hr

omit [Floating D] in
theorem keptOrStored_old {screen : Screen CourseList} {r : Update D CourseList}
    (hr : r ∈ HiveUpdate.getUpdateList w.device) :
    w.KeptOrStored screen (r.courseData, r.scores) :=
  .inl (mem_records.2 (.inr (.inr ⟨r, hr, rfl⟩)))

theorem keptOrStored_upload (w : Session D) (s : UpdateScreen CourseList) (now : Timestamp) :
    ∀ r ∈ HiveUpdate.getUpdateList ({ s with courseData := w.current s.courseData }.upload
        (w.contents s.courseData) now w.device),
      w.KeptOrStored (.update s none) (r.courseData, r.scores) := by
  intro r hr
  rcases UpdateScreen.getUpdateList_upload (w.contents s.courseData) now
      { s with courseData := w.current s.courseData } w.device with
    hsame | ⟨result, gpa, cgpa, hcompute, hadded⟩
  · exact keptOrStored_old (hsame ▸ hr)
  · rcases List.mem_append.1 (hadded ▸ hr) with hr | hr
    · exact keptOrStored_old hr
    · obtain ⟨hcomplete, hscores⟩ := UpdateScreen.compute_eq hcompute
      rw [List.mem_singleton.1 hr]
      exact .inr ⟨Prod.ext rfl hscores, hcomplete⟩

/-- The records after the edited one are made again over the lists they have. -/
theorem keptOrStored_edit {s : UpdateScreen CourseList} {now : Timestamp}
    {update : Update D CourseList}
    (hnew : { s with courseData := w.current s.courseData }.newUpdate
      (w.contents s.courseData) now = some update)
    (index : ℕ) (clock : ℕ → Timestamp) (accepted : Bool) :
    ∀ r ∈ HiveUpdate.getUpdateList
        (StatFunction.editUpdates update index clock accepted w.device).state,
      w.KeptOrStored (.update s (some index)) (r.courseData, r.scores) := by
  obtain ⟨result, gpa, cgpa, hcompute, rfl⟩ := UpdateScreen.newUpdate_eq hnew
  obtain ⟨hcomplete, hscores⟩ := UpdateScreen.compute_eq hcompute
  refine StatFunction.forall_mem_editUpdates index clock accepted
    (P := fun r => w.KeptOrStored (.update s (some index)) (r.courseData, r.scores)) ?_
    (.inr ⟨Prod.ext rfl hscores, hcomplete⟩) fun r hr => keptOrStored_old hr
  intro r past now r' hr hr'
  obtain ⟨cgpa, rfl⟩ := StatFunction.replaceUpdate_eq hr'
  exact hr

/-- The press of a button: at most one record more, of the screen's list as it is then. -/
theorem step_press {now : Timestamp} {clock : ℕ → Timestamp} {accepted : Bool}
    (h : w.step (.press now clock accepted) = some w') : ∃ screen, w.screen = some screen ∧
      w'.heap = w.heap ∧ w'.gradingSystem = w.gradingSystem ∧
      w'.device.auth.courseData = w.device.auth.courseData ∧
      (w'.screen = some screen ∨ w'.screen = none) ∧
      ∀ x ∈ w'.records, w.KeptOrStored screen x := by
  simp only [step, press, Option.bind_eq_bind, Option.bind_eq_some_iff] at h
  obtain ⟨screen, hscreen, h⟩ := h
  refine ⟨screen, hscreen, ?_⟩
  cases screen with
  | quick s =>
    simp only [Screen.withCourseData, Option.pure_def, Option.some.injEq] at h
    subst h
    exact ⟨rfl, rfl, rfl, .inl hscreen, keptOrStored_calculate w s now⟩
  | simulate s =>
    simp only [Screen.withCourseData, Option.pure_def, Option.some.injEq] at h
    subst h
    exact ⟨rfl, rfl, rfl, .inl hscreen, keptOrStored_simulate w s now⟩
  | update s index =>
    cases index with
    | none =>
      simp only [Screen.withCourseData, Option.pure_def, Option.some.injEq] at h
      subst h
      exact ⟨rfl, rfl, UpdateScreen.courseData_upload .., .inl hscreen,
        keptOrStored_of_device rfl rfl (keptOrStored_upload w s now)⟩
    | some index =>
      simp only [Screen.withCourseData] at h
      split at h
      · cases h
        exact ⟨rfl, rfl, rfl, .inl hscreen, fun x hx => .inl hx⟩
      · next update hnew =>
        have hdata := StatFunction.courseData_editUpdates update index clock accepted w.device
        have hmem := keptOrStored_edit hnew index clock accepted
        split at h
        · next device houtcome =>
          rw [houtcome] at hdata hmem
          cases h
          exact ⟨rfl, rfl, hdata, .inr rfl, keptOrStored_of_device rfl rfl hmem⟩
        · next device houtcome =>
          rw [houtcome] at hdata hmem
          cases h
          exact ⟨rfl, rfl, hdata, .inl hscreen, keptOrStored_of_device rfl rfl hmem⟩

end Session

end StudyStats
