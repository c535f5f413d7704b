import StudyStats.StatFunction

/-!
# The device

What one device keeps of the ledger: the provider with the signed-in user and the course
map, and the Hive box with the update list, oldest record first. A handler that throws
stops where it is, so its outcome says which state it leaves behind.
-/

namespace StudyStats

open Dart

variable {D C : Type} [Floating D]

/-- How a handler ends. An exception leaves the state as it then is. -/
inductive Outcome (σ : Type) where
  | finished (s : σ)
  | threw (s : σ)

namespace Outcome

variable {σ : Type}

def state : Outcome σ → σ
  | finished s => s
  | threw s => s

/-- Go on with `f` unless an exception was thrown. -/
def andThen : Outcome σ → (σ → Outcome σ) → Outcome σ
  | finished s, f => f s
  | threw s, _ => threw s

end Outcome

structure AuthProvider (D C : Type) where
  user : Option (User D)
  courseData : Option (CourseData C)

namespace AuthProvider

/-- The position after an upload, in `incrementUser`. The last one is kept. -/
def nextPosition (courseData : Option (CourseData C)) (level : ℤ) (semester : String) :
    Option (ℤ × String) :=
  if semester = "1st" then some (level, "2nd")
  else if semester = "2nd" then do
    let data ← courseData
    let digit ← substring (toString level) 0 1
    if data.yearText = digit then some (level, semester) else some (level + 100, "1st")
  else some (level, semester)

/-- `incrementUser`, up to and including `saveUser`. The remote write after it does not
touch the provider. -/
def incrementUser (cgpa : String) (auth : AuthProvider D C) : Option (AuthProvider D C) := do
  let user ← auth.user
  let (level, semester) ← nextPosition auth.courseData (← user.level) (← user.semester)
  let currentCgpa ← Floating.parse cgpa
  return { auth with user := some { user with
    level := some level, semester := some semester, currentCgpa := some currentCgpa } }

/-- `updateUserCGPA`. A rejected remote write throws after the provider has its new user. -/
def updateUserCGPA (accepted : Bool) (cgpa : String) (auth : AuthProvider D C) :
    Outcome (AuthProvider D C) :=
  match auth.user, Floating.parse (D := D) cgpa with
  | some user, some c =>
    let auth := { auth with user := some { user with currentCgpa := some c } }
    if accepted then .finished auth else .threw auth
  | _, _ => .threw auth

theorem courseData_incrementUser (auth : AuthProvider D C) (cgpa : String) :
    ((auth.incrementUser cgpa).getD auth).courseData = auth.courseData := by
  cases h : auth.incrementUser cgpa with
  | none => rfl
  | some auth' =>
    simp only [AuthProvider.incrementUser, Option.bind_eq_bind, Option.bind_eq_some_iff,
      Option.pure_def, Option.some.injEq] at h
    obtain ⟨-, -, -, -, -, -, -, -, -, -, rfl⟩ := h
    rfl

theorem courseData_updateUserCGPA (accepted : Bool) (cgpa : String) (auth : AuthProvider D C) :
    (auth.updateUserCGPA accepted cgpa).state.courseData = auth.courseData := by
  unfold updateUserCGPA
  split
  · cases accepted <;> rfl
  · rfl

end AuthProvider

/-- `updateBox` holds what is stored under `update_list`. -/
structure Device (D C : Type) where
  auth : AuthProvider D C
  updateBox : Option (List (Update D C))

namespace HiveUpdate

def getUpdateList (d : Device D C) : List (Update D C) := d.updateBox.getD []

def addUpdateData (update : Update D C) (d : Device D C) : Device D C :=
  { d with updateBox := some (getUpdateList d ++ [update]) }

def replaceUpdateList (updates : List (Update D C)) (d : Device D C) : Device D C :=
  { d with updateBox := some updates }

def clearUpdateList (d : Device D C) : Device D C := { d with updateBox := none }

omit [Floating D] in
@[simp] theorem getUpdateList_addUpdateData (update : Update D C) (d : Device D C) :
    getUpdateList (addUpdateData update d) = getUpdateList d ++ [update] := rfl

omit [Floating D] in
@[simp] theorem getUpdateList_replaceUpdateList (us : List (Update D C)) (d : Device D C) :
    getUpdateList (replaceUpdateList us d) = us := rfl

end HiveUpdate

namespace StatFunction

/-- What both branches of `editUpdates` do when they reach the newest record. -/
def storeUpdates (oldUpdateList : List (Update D C)) (newest : Update D C) (accepted : Bool)
    (d : Device D C) : Outcome (Device D C) :=
  let d := HiveUpdate.replaceUpdateList oldUpdateList.reverse d
  match d.auth.updateUserCGPA accepted (Floating.toString newest.cgpa) with
  | .finished auth => .finished { d with auth }
  | .threw auth => .threw { d with auth }

/-- The loop of `editUpdates` over the newest-first list, from `i - 1` down to `0`. The
clock gives the creation time of the record made in each pass. -/
def editUpdatesLoop (update : Update D C) (index : ℤ) (clock : ℕ → Timestamp)
    (accepted : Bool) : ℕ → List (Update D C) → Device D C → Outcome (Device D C)
  | 0, _, d => .finished d
  | i + 1, oldUpdateList, d =>
    if (i : ℤ) > index then
      editUpdatesLoop update index clock accepted i oldUpdateList d
    else if (i : ℤ) = index then
      let oldUpdateList := oldUpdateList.set i update
      (if i = 0 then storeUpdates oldUpdateList update accepted d else .finished d).andThen
        (editUpdatesLoop update index clock accepted i oldUpdateList)
    else
      match oldUpdateList[i]?, oldUpdateList[i + 1]? with
      | some thisSemester, some pastSemester =>
        match replaceUpdate thisSemester pastSemester (clock i) with
        | some newUpdate =>
          let oldUpdateList := oldUpdateList.set i newUpdate
          (if i = 0 then storeUpdates oldUpdateList newUpdate accepted d
            else .finished d).andThen
            (editUpdatesLoop update index clock accepted i oldUpdateList)
        | none => .threw d
      | _, _ => .threw d

def editUpdates (update : Update D C) (index : ℤ) (clock : ℕ → Timestamp) (accepted : Bool)
    (d : Device D C) : Outcome (Device D C) :=
  let oldUpdateList := (HiveUpdate.getUpdateList d).reverse
  editUpdatesLoop update index clock accepted oldUpdateList.length oldUpdateList d

variable (D) in
/-- `saveUpdateGrade` is `async`: if a text does not parse it fails unseen by its caller. -/
def saveUpdateGrade (scores : List ℤ) (system : ℤ) (courseData : C)
    (gpa cgpa level semester pastSemester : String) (now : Timestamp) (d : Device D C) :
    Device D C :=
  match Floating.parse gpa, Floating.parse cgpa with
  | some gpa, some cgpa =>
    HiveUpdate.addUpdateData {
      gpa, cgpa, scores, courseData, level, semester, pastSemester
      gradingSystem := toString system
      timestamp := now } d
  | _, _ => d

end StatFunction

end StudyStats
