import StudyStats.SignUp
import StudyStats.SyncLedger

/-!
# Editing the profile

The edit screen has the fields of the profile screen. Its button makes the same checks and one
more, asks for a confirmation, deletes the update list on the device and in the collection,
writes the user and stores the course map of the new programme. Each remote call can fail, and
so can loading the course file.

## Main definitions

* `EditProfileScreen.validate` — the checks of the button.
* `EditProfileScreen.edit` — what it does once the edit is confirmed.
-/

namespace StudyStats

open Dart

variable {D C : Type} [Floating D]

/-- The course maps in the assets, by university, faculty and course. -/
abbrev Catalogue (C : Type) := String → String → String → Option (CourseData C)

/-- `{}` -/
def CourseData.empty : CourseData C := ⟨none, fun _ _ => none⟩

namespace Catalogue

/-- The course map of a programme, empty where the assets have none. -/
def data (catalogue : Catalogue C) (uni faculty course : String) : CourseData C :=
  (catalogue uni faculty course).getD .empty

end Catalogue

/-- `getCourseData`. Whatever goes wrong while it loads, the answer is an empty map. -/
def FillProfileFunction.getCourseData (loaded : Bool) (catalogue : Catalogue C)
    (uni faculty course : String) : CourseData C :=
  if loaded then catalogue.data uni faculty course else .empty

/-- What a profile edit changes: the user, the course map and the update list of the device,
the collection `UserUpdates` and the user's document. -/
structure ProfileState (D : Type) extends Replica D where
  userDoc : User D

/-- Which calls succeed: reading and deleting `UserUpdates`, updating the user's document and
loading the course file. -/
structure EditCalls where
  read : Bool
  commit : Bool
  update : Bool
  load : Bool
deriving DecidableEq

/-- The remote records are deleted. -/
def EditCalls.delete (calls : EditCalls) : Bool := calls.read && calls.commit

namespace UploadFunction

/-- A rejected commit is caught here, a rejected read is not. -/
def deleteUserUpdates (calls : EditCalls) (w : ProfileState D) : Outcome (ProfileState D) :=
  if calls.read then
    if calls.commit then .finished { w with remote := [] } else .finished w
  else .threw w

/-- `deleteUserData`, with its `try` around everything. -/
def deleteUserData (calls : EditCalls) (w : ProfileState D) : Outcome (ProfileState D) :=
  .finished (deleteUserUpdates calls w).state

end UploadFunction

namespace ProfileState

/-- `HiveUpdate.clearUpdateList` -/
def clearUpdateList (w : ProfileState D) : ProfileState D :=
  { w with device := HiveUpdate.clearUpdateList w.device }

/-- `UpdateUser`. The provider has its new user before the document is written. -/
def UpdateUser (accepted : Bool) (user : User D) (w : ProfileState D) :
    Outcome (ProfileState D) :=
  let w := { w with
    device := { w.device with auth := { w.device.auth with user := some user } } }
  if accepted then .finished { w with userDoc := user } else .threw w

def saveCourseData (data : CourseData (List Course)) (w : ProfileState D) : ProfileState D :=
  { w with
    device := { w.device with auth := { w.device.auth with courseData := some data } } }

end ProfileState

/-- The fields of `_EditProfileState`. -/
structure EditProfileScreen (C : Type) extends FillProfileScreen C where
  dataChanged : Bool

/-- A text that passes is a number, or there is none. -/
theorem FillProfileScreen.text_of_check {screen : FillProfileScreen C}
    (h : screen.check D = some true) :
    screen.gpa = "" ∨ ∃ x : D, Floating.parse screen.gpa = some x := by
  cases hx : Floating.parse (D := D) screen.gpa with
  | some x => exact .inr ⟨x, rfl⟩
  | none =>
    left
    simp only [check, hx, Option.bind_eq_bind, Option.bind_eq_some_iff] at h
    grind

/-- The text an unset CGPA is kept as. -/
theorem parse_sentinel : Double.parse "-1.0" = some (Double.ofInt (-1)) := by
  decide +kernel

namespace EditProfileScreen

def enable (screen : EditProfileScreen C) : Bool :=
  screen.dataChanged && screen.toFillProfileScreen.enable

variable (D) in
/-- The checks, which leave the screen with its text for the first semester. `none` is an
exception, and nothing inside it a message. -/
def validate (screen : EditProfileScreen C) : Option (Option (EditProfileScreen C)) := do
  if !(← screen.check D) then return none
  let screen := if screen.semester = "1st" ∧ screen.level = "100" then
    { screen with gpa := "-1.0" } else screen
  if (screen.level ≠ "100" ∨ screen.semester ≠ "1st") ∧ screen.gpa = "-1.0" then return none
  return some screen

/-- The user of the new profile. -/
def newUser (screen : EditProfileScreen C) (user : User D) : Option (User D) := do
  return { user with
    university := some screen.university
    faculty := some screen.faculty
    course := some screen.course
    level := some (← intParse screen.level)
    semester := some screen.semester
    currentCgpa := some (← Floating.parse screen.gpa) }

/-- What the course map of the new profile is loaded as. -/
def courseMap (screen : EditProfileScreen C) (loaded : Bool) (catalogue : Catalogue C) :
    CourseData C :=
  FillProfileFunction.getCourseData loaded catalogue screen.university screen.faculty
    screen.course

/-- A confirmed edit. The new user is made after the records are gone. -/
def edit (screen : EditProfileScreen (List Course)) (user : User D) (calls : EditCalls)
    (catalogue : Catalogue (List Course)) (w : ProfileState D) : Outcome (ProfileState D) :=
  (UploadFunction.deleteUserData calls w.clearUpdateList).andThen fun w =>
    match screen.newUser user with
    | none => .threw w
    | some new => (w.UpdateUser calls.update new).andThen fun w =>
        .finished (w.saveCourseData (screen.courseMap calls.load catalogue))

/-- The button, with the answer to the question it asks. -/
def onTap (confirmed : Bool) (screen : EditProfileScreen (List Course)) (calls : EditCalls)
    (catalogue : Catalogue (List Course)) (w : ProfileState D) : Outcome (ProfileState D) :=
  if screen.enable then
    match screen.validate D with
    | none => .threw w
    | some none => .finished w
    | some (some screen) =>
      match w.device.auth.user with
      | none => .threw w
      | some user =>
        if screen.dataChanged && confirmed then screen.edit user calls catalogue w
        else .finished w
  else .finished w

/-! ## What a confirmed edit leaves -/

variable {screen screen' : EditProfileScreen (List Course)} {user new : User D}
  {calls : EditCalls} {catalogue : Catalogue (List Course)} {w : ProfileState D}

/-- The state after a confirmed edit, call by call. -/
theorem state_edit (hnew : screen.newUser user = some new) :
    (screen.edit user calls catalogue w).state = { w with
      device := {
        auth := {
          user := some new
          courseData := if calls.update then some (screen.courseMap calls.load catalogue)
            else w.device.auth.courseData }
        updateBox := none }
      remote := if calls.delete then [] else w.remote
      userDoc := if calls.update then new else w.userDoc } := by
  obtain ⟨read, commit, update, load⟩ := calls
  simp only [edit, hnew, UploadFunction.deleteUserData, UploadFunction.deleteUserUpdates,
    EditCalls.delete, ProfileState.clearUpdateList, HiveUpdate.clearUpdateList, Outcome.andThen]
  cases read <;> cases commit <;> cases update <;> rfl

/-- The checks that were passed, and what they leave. -/
theorem validate_iff {screen screen' : EditProfileScreen C} :
    screen.validate D = some (some screen') ↔
      screen.check D = some true ∧
      ¬((screen.level ≠ "100" ∨ screen.semester ≠ "1st") ∧ screen.gpa = "-1.0") ∧
      screen' = if screen.semester = "1st" ∧ screen.level = "100" then
        { screen with gpa := "-1.0" } else screen := by
  unfold validate
  cases screen.check D with
  | none => simp
  | some passed =>
    cases passed with
    | false => simp
    | true =>
      by_cases hfirst : screen.semester = "1st" ∧ screen.level = "100"
      · simpa [hfirst] using eq_comm
      · by_cases hsentinel : (screen.level ≠ "100" ∨ screen.semester ≠ "1st") ∧
          screen.gpa = "-1.0"
        · simp [hfirst, hsentinel]
        · simp only [Option.bind_eq_bind, Option.bind_some, Bool.not_true, Bool.false_eq_true,
            hfirst, hsentinel, if_false, Option.pure_def, Option.some.injEq, not_false_eq_true,
            true_and]
          exact eq_comm

/-- Only the text is changed by the checks. -/
theorem dataChanged_validate {screen screen' : EditProfileScreen C}
    (h : screen.validate D = some (some screen')) : screen'.dataChanged = screen.dataChanged := by
  rw [(validate_iff.1 h).2.2]
  split_ifs <;> rfl

/-- The button of an edit that passes the checks and is confirmed. -/
theorem onTap_confirmed (henable : screen.enable = true)
    (hvalid : screen.validate D = some (some screen')) (huser : w.device.auth.user = some user) :
    screen.onTap true calls catalogue w = screen'.edit user calls catalogue w := by
  have hchanged : screen'.dataChanged = true := by
    rw [dataChanged_validate hvalid]
    exact (Bool.and_eq_true_iff.1 henable).1
  simp only [onTap, henable, hvalid, huser, hchanged, Bool.and_self, if_true]

theorem currentCgpa_newUser {screen : EditProfileScreen C} {user new : User D}
    (h : screen.newUser user = some new) : new.currentCgpa = Floating.parse screen.gpa := by
  simp only [newUser, Option.bind_eq_bind, Option.bind_eq_some_iff, Option.pure_def,
    Option.some.injEq] at h
  obtain ⟨level, -, x, hx, rfl⟩ := h
  exact hx.symm

/-- Once the checks are passed the text is a number, so the user can be made. -/
theorem exists_newUser {screen screen' : EditProfileScreen C} (user : User Double)
    (henable : screen.enable = true) (hvalid : screen.validate Double = some (some screen'))
    (hlevel : (intParse screen.level).isSome) : ∃ new, screen'.newUser user = some new := by
  obtain ⟨level, hlevel⟩ := Option.isSome_iff_exists.1 hlevel
  obtain ⟨hcheck, -, hscreen⟩ := validate_iff.1 hvalid
  have htext : ∃ x : Double, Floating.parse screen'.gpa = some x := by
    by_cases hfirst : screen.semester = "1st" ∧ screen.level = "100"
    · rw [if_pos hfirst] at hscreen
      exact ⟨_, by rw [hscreen]; exact parse_sentinel⟩
    · rw [if_neg hfirst] at hscreen
      rw [hscreen]
      refine (FillProfileScreen.text_of_check hcheck).resolve_left fun hempty => hfirst ?_
      simp only [enable, FillProfileScreen.enable, hempty] at henable
      grind
  obtain ⟨x, hx⟩ := htext
  have hsame : screen'.level = screen.level := by
    rw [hscreen]
    split_ifs <;> rfl
  simp [newUser, hsame, hlevel, hx]

end EditProfileScreen

end StudyStats
