import StudyStats.AllOrNothing
import StudyStats.EditProfile

/-!
# Half a profile edit

The calls of a profile edit fail one by one and each failure stops something else: a failed
delete is swallowed and the edit goes on, a rejected write of the user ends it between the user
and the course map, and a course file that cannot be loaded is stored as an empty map.

## Main results

* `profileEdit_allOrNothing_iff` — the failures after which the device and the cloud still
  belong to one profile.
* `ProfileState.Replaced.staysEmpty` — after a whole edit no sync brings a record back.
-/

namespace StudyStats

open Dart

variable {D : Type} [Floating D]

namespace ProfileState

/-- Everything still belongs to the old profile. -/
@[mk_iff]
structure Unchanged (w w' : ProfileState D) : Prop where
  updates : w'.updates = w.updates
  remote : w'.remote = w.remote
  user : w'.device.auth.user = w.device.auth.user
  userDoc : w'.userDoc = w.userDoc
  courseData : w'.device.auth.courseData = w.device.auth.courseData

/-- Nothing is recorded, and the rest belongs to the new profile. -/
@[mk_iff]
structure Replaced (new : User D) (data : CourseData (List Course)) (w' : ProfileState D) :
    Prop where
  updates : w'.updates = []
  remote : w'.remote = []
  user : w'.device.auth.user = some new
  userDoc : w'.userDoc = new
  courseData : w'.device.auth.courseData = some data

/-- However often the history is synced, the list stays empty. -/
def StaysEmpty [DecidableEq D] (w : ProfileState D) : Prop :=
  ∀ (syncs : List (List (Document D) × Timestamp)) (s : Replica D),
    Machine.run Replica.step (syncs.map fun (docs, now) => .sync docs now) w.toReplica = some s →
    s.updates = []

variable {w w' : ProfileState D} {new : User D} {data : CourseData (List Course)}

omit [Floating D] in
/-- A sync of nothing finds nothing. -/
theorem syncUpdate_empty [DecidableEq D] {r r' : Replica D} {docs : List (Document D)}
    {now : Timestamp} (hupdates : r.updates = []) (hremote : r.remote = [])
    (hsync : r.syncUpdate docs now = some r') : r'.updates = [] ∧ r'.remote = [] := by
  have hadded : r.added = [] := by simp [Replica.added, hupdates, hremote]
  unfold Replica.syncUpdate at hsync
  rw [hadded] at hsync
  split_ifs at hsync with hdocs
  obtain rfl := List.perm_nil.1 hdocs.1
  cases hsync
  exact ⟨rfl, rfl⟩

theorem Replaced.staysEmpty [DecidableEq D] (h : w.Replaced new data) : w.StaysEmpty := by
  intro syncs s hrun
  have hempty : s.updates = [] ∧ s.remote = [] := by
    have hfrom : ∀ r : Replica D, r.updates = [] → r.remote = [] →
        Machine.run Replica.step (syncs.map fun (docs, now) => .sync docs now) r = some s →
        s.updates = [] ∧ s.remote = [] := by
      clear hrun
      induction syncs with
      | nil =>
        intro r hupdates hremote hrun
        cases hrun
        exact ⟨hupdates, hremote⟩
      | cons sync syncs ih =>
        intro r hupdates hremote hrun
        obtain ⟨r', hsync, hrest⟩ := Machine.run_cons.1 hrun
        obtain ⟨hupdates', hremote'⟩ := syncUpdate_empty hupdates hremote hsync
        exact ih r' hupdates' hremote' hrest
    exact hfrom _ h.updates h.remote hrun
  exact hempty.1

/-- Of an edit that was confirmed, all happened or nothing. -/
def AllOrNothing [DecidableEq D] (screen : EditProfileScreen (List Course)) (user : User D)
    (catalogue : Catalogue (List Course)) (w w' : ProfileState D) : Prop :=
  Unchanged w w' ∨ ∃ new, screen.newUser user = some new ∧
    w'.Replaced new (catalogue.data screen.university screen.faculty screen.course) ∧
    w'.StaysEmpty

/-- Whatever fails leaves nothing undone: the remote records are deleted or there are none,
the document and the course map are the new ones already if the write is rejected, and a
course file that is not loaded holds an empty map. -/
def Harmless (calls : EditCalls) (new : User D) (data : CourseData (List Course))
    (w : ProfileState D) : Prop :=
  (calls.delete = true ∨ w.remote = []) ∧
    if calls.update then calls.load = true ∨ data = .empty
    else w.userDoc = new ∧ w.device.auth.courseData = some data

/-- The edit asks for the profile there is, and what it deletes and writes is there as it
will be. -/
def Idle (calls : EditCalls) (new : User D) (loaded : CourseData (List Course))
    (w : ProfileState D) : Prop :=
  w.updates = [] ∧ (calls.delete = true → w.remote = []) ∧ w.device.auth.user = some new ∧
    (calls.update = true → w.userDoc = new ∧ w.device.auth.courseData = some loaded)

end ProfileState

namespace EditProfileScreen

variable {screen screen' : EditProfileScreen (List Course)} {user new : User D}
  {calls : EditCalls} {catalogue : Catalogue (List Course)} {w : ProfileState D}

/-- The course map that is stored is the one of the programme, unless it was not loaded. -/
theorem courseMap_eq_iff {loaded : Bool} :
    screen.courseMap loaded catalogue =
        catalogue.data screen.university screen.faculty screen.course ↔
      loaded = true ∨
        catalogue.data screen.university screen.faculty screen.course = .empty := by
  cases loaded with
  | true => exact iff_of_true rfl (.inl rfl)
  | false =>
    simp only [courseMap, FillProfileFunction.getCourseData, Bool.false_eq_true, if_false,
      false_or]
    exact eq_comm

theorem updates_edit (hnew : screen.newUser user = some new) :
    (screen.edit user calls catalogue w).state.updates = [] := by
  rw [state_edit hnew]
  rfl

theorem unchanged_edit_iff (hnew : screen.newUser user = some new) :
    w.Unchanged (screen.edit user calls catalogue w).state ↔
      w.Idle calls new (screen.courseMap calls.load catalogue) := by
  have hremote : (if calls.delete then [] else w.remote) = w.remote ↔
      (calls.delete = true → w.remote = []) := by
    split_ifs with hdelete
    · simp [hdelete, eq_comm]
    · simp [hdelete]
  rw [ProfileState.unchanged_iff, updates_edit hnew, state_edit hnew, ProfileState.Idle,
    ← hremote]
  cases calls.update with
  | true => grind
  | false => grind

theorem replaced_edit_iff (hnew : screen.newUser user = some new) :
    (screen.edit user calls catalogue w).state.Replaced new
        (catalogue.data screen.university screen.faculty screen.course) ↔
      w.Harmless calls new (catalogue.data screen.university screen.faculty screen.course) := by
  have hremote : (if calls.delete then [] else w.remote) = [] ↔
      calls.delete = true ∨ w.remote = [] := by
    split_ifs with hdelete
    · simp [hdelete]
    · simp [hdelete]
  rw [ProfileState.replaced_iff, updates_edit hnew, state_edit hnew, ProfileState.Harmless,
    ← hremote, ← courseMap_eq_iff]
  cases calls.update with
  | true => simp
  | false => simp

/-- A confirmed edit that passes the checks is all or nothing exactly if the calls that fail do
no harm, or if it asks for nothing new. -/
theorem profileEdit_allOrNothing_iff {screen screen' : EditProfileScreen (List Course)}
    {w : ProfileState Double} {user : User Double} (henable : screen.enable = true)
    (hvalid : screen.validate Double = some (some screen'))
    (huser : w.device.auth.user = some user) (hlevel : (intParse screen.level).isSome)
    (calls : EditCalls) (catalogue : Catalogue (List Course)) :
    ∃ new, screen'.newUser user = some new ∧
      (ProfileState.AllOrNothing screen' user catalogue w
          (screen.onTap true calls catalogue w).state ↔
        w.Harmless calls new
            (catalogue.data screen'.university screen'.faculty screen'.course) ∨
          w.Idle calls new (screen'.courseMap calls.load catalogue)) := by
  obtain ⟨new, hnew⟩ := exists_newUser user henable hvalid hlevel
  refine ⟨new, hnew, ?_⟩
  rw [onTap_confirmed henable hvalid huser, ← replaced_edit_iff hnew, ← unchanged_edit_iff hnew]
  constructor
  · rintro (hunchanged | ⟨new', hnew', hreplaced, -⟩)
    · exact .inr hunchanged
    · cases hnew.symm.trans hnew'
      exact .inl hreplaced
  · rintro (hreplaced | hunchanged)
    · exact .inr ⟨new, hnew, hreplaced, hreplaced.staysEmpty⟩
    · exact .inl hunchanged

/-- Every programme takes four years. -/
def sampleCatalogue : Catalogue (List Course) :=
  fun _ _ _ => some { year := some 4, courses := fun _ _ => none }

/-- A change of course, with the form as it is when its data has loaded. -/
def changedCourse : EditProfileScreen (List Course) where
  universities := ["Babcock University"]
  university := "Babcock University"
  faculty := "School of Management Sciences"
  course := "Accounting"
  level := "100"
  semester := "1st"
  gpa := "4.0"
  gradePoint := "5"
  courseData := some { year := some 4, courses := fun _ _ => none }
  dataChanged := true

/-- The sample device with its two records uploaded. -/
def uploadedState : ProfileState Double where
  gradingSystem := "5"
  device := sampleDevice
  remote := (HiveUpdate.getUpdateList sampleDevice).map Update.toJson
  userDoc := { freshman.user with currentCgpa := some (Floating.ofInt 4) }

theorem exists_validate_changedCourse :
    ∃ screen', changedCourse.validate Double = some (some screen') := by
  have hsome : ((changedCourse.validate Double).getD none).isSome = true := by decide +kernel
  obtain ⟨screen', hscreen⟩ := Option.isSome_iff_exists.1 hsome
  cases hvalid : changedCourse.validate Double with
  | none =>
    rw [hvalid] at hscreen
    cases hscreen
  | some answer =>
    rw [hvalid, Option.getD_some] at hscreen
    exact ⟨screen', congrArg some hscreen⟩

/-- No call fails. -/
theorem profileEdit_whole : ∃ screen', changedCourse.validate Double = some (some screen') ∧
    ProfileState.AllOrNothing screen'
      { freshman.user with currentCgpa := some (Floating.ofInt 4) } sampleCatalogue
      uploadedState (changedCourse.onTap true ⟨true, true, true, true⟩ sampleCatalogue
        uploadedState).state := by
  obtain ⟨screen', hvalid⟩ := exists_validate_changedCourse
  obtain ⟨new, -, hiff⟩ := profileEdit_allOrNothing_iff (w := uploadedState) (by decide) hvalid rfl
    (by decide) ⟨true, true, true, true⟩ sampleCatalogue
  exact ⟨screen', hvalid, hiff.2 (.inl ⟨.inl rfl, .inl rfl⟩)⟩

/-- The commit of the deletes is rejected. The edit goes through, and at the next sync the
records of the old programme are back. -/
theorem profileEdit_fails : ∃ screen', changedCourse.validate Double = some (some screen') ∧
    ¬ProfileState.AllOrNothing screen'
      { freshman.user with currentCgpa := some (Floating.ofInt 4) } sampleCatalogue
      uploadedState (changedCourse.onTap true ⟨true, false, true, true⟩ sampleCatalogue
        uploadedState).state ∧
    ((changedCourse.onTap true ⟨true, false, true, true⟩ sampleCatalogue
        uploadedState).state.toReplica.syncUpdate uploadedState.remote 0).map
      (fun s => s.updates.length) = some 2 := by
  obtain ⟨screen', hvalid⟩ := exists_validate_changedCourse
  refine ⟨screen', hvalid, ?_, by decide +kernel⟩
  rintro (hunchanged | ⟨new, -, hreplaced, -⟩)
  · exact absurd hunchanged.updates (by decide +kernel)
  · exact absurd hreplaced.remote (by decide +kernel)

end EditProfileScreen

end StudyStats
