import Mathlib.Data.String.Basic
import StudyStats.Device
import StudyStats.Library.Table

/-!
# Signing up and logging in

The sign-up screen checks what was typed and keeps the new user in the provider. The profile
screen fills in the rest, hashes the password on the way and writes the user's document, and
a log-in looks a document up by its email. How passwords are hashed and how letters are
lowered are parameters.

## Main definitions

* `SignUpScreen.onTap`, `FillProfileScreen.onTap` — the buttons of the two screens.
* `LoginFunction.login` — the check of a log-in.
-/

namespace StudyStats

open Dart

variable {D C : Type} [Floating D]

/-! ## Validators -/

/-- `^[a-zA-Z0-9.]+@[a-zA-Z0-9]+\.[a-zA-Z]+`, with no end mark. What follows a repetition is
never in its class, so there is only one way to match. -/
def isValidEmail (text : String) : Bool :=
  let (name, rest) := text.toList.span fun c => c.isAlphanum || c == '.'
  match rest with
  | '@' :: rest =>
    let (host, rest) := rest.span Char.isAlphanum
    match rest with
    | '.' :: c :: _ => !name.isEmpty && !host.isEmpty && c.isAlpha
    | _ => false
  | _ => false

/-- `^\d{2}\/\d{4}$` -/
def isValidMatricNumber (text : String) : Bool :=
  match text.toList with
  | [a, b, '/', c, d, e, f] => [a, b, c, d, e, f].all Char.isDigit
  | _ => false

def isValidPassword (text : String) : Bool := 8 ≤ utf16Length text

example : isValidEmail "ada@x.com" ∧ ¬isValidEmail "ada@x" ∧ isValidMatricNumber "21/0123" := by
  decide

/-! ## The sign-up screen -/

/-- The `users` collection, by document id. A document holds what the user it is read back as
holds. -/
abbrev Users (D : Type) := Table (User.id : User D → String)

omit [Floating D] in
/-- `userDoc`: `where('email', isEqualTo: email).limit(1)`. -/
def FirebaseStorageApi.userDoc (email : String) (users : Users D) : Option (User D) :=
  users.rows.find? fun user => user.email = email

namespace SignUpFunction

omit [Floating D] in
def doesEmailExist (email : String) (users : Users D) : Bool :=
  (FirebaseStorageApi.userDoc email users).isSome

omit [Floating D] in
theorem doesEmailExist_eq_false {email : String} {users : Users D} :
    doesEmailExist email users = false ↔ ∀ user ∈ users.rows, user.email ≠ email := by
  simp [doesEmailExist, FirebaseStorageApi.userDoc]

omit [Floating D] in
/-- A message, or the provider with the new user. -/
def signUP (user : User D) (auth : AuthProvider D C) : Except String (AuthProvider D C) :=
  if isValidEmail user.email = false then .error "Enter Valid Email "
  else if user.name.toList.count ' ' + 1 > 3 ∨ utf16Length user.name > 25 then
    .error "Name too Long"
  else if isValidMatricNumber user.matricNo = false then .error "Invalid Matric Number"
  else if isValidPassword user.password = false then
    .error "Password must be at least 8 characters"
  else .ok { auth with user := some user }

omit [Floating D] in
theorem signUP_eq {user : User D} {auth auth' : AuthProvider D C}
    (h : signUP user auth = .ok auth') : auth' = { auth with user := some user } := by
  unfold signUP at h
  split_ifs at h
  exact (Except.ok.inj h).symm

end SignUpFunction

/-- The image file, if one was chosen, and what came of uploading it. -/
inductive Picture where
  | absent
  | uploaded (url : String)
  | rejected

/-- What is typed on the sign-up screen. -/
structure SignUpForm where
  name : String
  email : String
  password : String
  matricNo : String
  agreedTerms : Bool
  image : Picture

namespace SignUpScreen

def enable (form : SignUpForm) : Bool :=
  form.name ≠ "" && form.email ≠ "" && form.password ≠ "" && form.matricNo ≠ "" &&
    form.agreedTerms

/-- `Constants.profile` -/
def profile : String :=
  "https://cdn.pixabay.com/photo/2015/10/05/22/37/blank-profile-picture-973460_1280.png"

omit [Floating D] in
/-- The user the screen makes, under a fresh id. -/
def newUser (toLowerCase : String → String) (id image : String) (form : SignUpForm) : User D where
  id := id
  name := form.name
  email := toLowerCase form.email
  password := form.password
  matricNo := form.matricNo
  image := image
  university := none
  faculty := none
  course := none
  level := none
  semester := none
  currentCgpa := none
  premium := false

omit [Floating D] in
/-- The button. The typed email is the one that is looked up. -/
def onTap (toLowerCase : String → String) (id : String) (form : SignUpForm) (users : Users D)
    (auth : AuthProvider D C) : Except String (AuthProvider D C) :=
  if SignUpFunction.doesEmailExist form.email users then .error "Email exists"
  else match form.image with
    | .uploaded url => SignUpFunction.signUP (newUser toLowerCase id url form) auth
    | .rejected => .error "Unable to Upload Image"
    | .absent => SignUpFunction.signUP (newUser toLowerCase id profile form) auth

omit [Floating D] in
theorem onTap_eq {toLowerCase : String → String} {id : String} {form : SignUpForm}
    {users : Users D} {auth auth' : AuthProvider D C}
    (h : onTap toLowerCase id form users auth = .ok auth') :
    ∃ image, auth' = { auth with user := some (newUser toLowerCase id image form) } := by
  unfold onTap at h
  split_ifs at h
  split at h
  · exact ⟨_, SignUpFunction.signUP_eq h⟩
  · cases h
  · exact ⟨_, SignUpFunction.signUP_eq h⟩

end SignUpScreen

/-! ## The profile screen -/

/-- The map `fillData` is called with. -/
structure ProfileData where
  university : String
  faculty : String
  course : String
  level : String
  semester : String
  currentCgpa : String
  premium : Option Bool := none

/-- `User.fillData` -/
def User.fillData (hashPassword : String → String) (user : User D) (data : ProfileData) :
    Option (User D) := do
  return { user with
    password := hashPassword user.password
    university := some data.university
    faculty := some data.faculty
    course := some data.course
    level := some (← intParse data.level)
    semester := some data.semester
    currentCgpa := some (← Floating.parse data.currentCgpa)
    premium := data.premium.getD user.premium }

theorem User.fillData_eq {hashPassword : String → String} {user filled : User D}
    {data : ProfileData}
    (h : user.fillData hashPassword data = some filled) :
    filled.id = user.id ∧ filled.email = user.email ∧
      filled.password = hashPassword user.password := by
  simp only [User.fillData, Option.bind_eq_bind, Option.bind_eq_some_iff, Option.pure_def,
    Option.some.injEq] at h
  obtain ⟨level, -, cgpa, -, rfl⟩ := h
  exact ⟨rfl, rfl, rfl⟩

/-- The fields of `_FillProfileScreenState`. -/
structure FillProfileScreen (C : Type) where
  universities : List String
  university : String
  faculty : String
  course : String
  level : String
  semester : String
  gpa : String
  gradePoint : String
  courseData : Option (CourseData C)

/-- The provider and the `users` collection while someone signs up. -/
structure SignUp (D C : Type) where
  auth : AuthProvider D C
  users : Users D

namespace FillProfileScreen

def enable (screen : FillProfileScreen C) : Bool :=
  screen.universities ≠ [] && screen.faculty ≠ "" && screen.course ≠ "" && screen.level ≠ "" &&
    screen.semester ≠ "" &&
    (screen.semester == "1st" && screen.level == "100" || screen.gpa ≠ "") &&
    screen.gradePoint ≠ "" && screen.courseData.isSome

variable (D) in
/-- The checks of the button. A text that is no number fails the second one only if it is
there. -/
def check (screen : FillProfileScreen C) : Option Bool := do
  let level ← intParse (← substring screen.level 0 1)
  let year ← intParse (← screen.courseData).yearText
  if level > year then return false
  match Floating.parse (D := D) screen.gradePoint, Floating.parse (D := D) screen.gpa with
  | some gradePoint, some gpa => return !Floating.lt gradePoint gpa
  | _, _ => return screen.gpa = ""

def data (screen : FillProfileScreen C) : ProfileData where
  university := screen.university
  faculty := screen.faculty
  course := screen.course
  level := screen.level
  semester := screen.semester
  currentCgpa := if screen.semester = "1st" ∧ screen.level = "100" then "-1" else screen.gpa

/-- `fillProfile`. A rejected `set` is caught and the screen stays open. -/
def fillProfile (accepted : Bool) (user : User D) (data : CourseData C) (w : SignUp D C) :
    SignUp D C :=
  if accepted then { auth := ⟨some user, some data⟩, users := w.users.set user } else w

/-- The button. `none` is an exception that nothing catches; the button then loads forever. -/
def onTap (hashPassword : String → String) (accepted : Bool) (screen : FillProfileScreen C)
    (w : SignUp D C) : Option (SignUp D C) :=
  if screen.enable then do
    if (← screen.check D) then
      let user ← (← w.auth.user).fillData hashPassword screen.data
      return fillProfile accepted user (← screen.courseData)
        { w with auth := { w.auth with user := some user } }
    else return w
  else some w

variable (D) in
/-- The button gets as far as `fillData`. -/
def passes (screen : FillProfileScreen C) : Bool :=
  screen.enable && screen.check D == some true

/-- A submit either fills the user in or leaves everything as it is. -/
theorem onTap_cases {hashPassword : String → String} {accepted : Bool}
    {screen : FillProfileScreen C} {w w' : SignUp D C}
    (h : screen.onTap hashPassword accepted w = some w') :
    (screen.passes D = false ∧ w' = w) ∨ screen.passes D = true ∧
      ∃ user filled data, w.auth.user = some user ∧
        user.fillData hashPassword screen.data = some filled ∧
        w' = fillProfile accepted filled data
          { w with auth := { w.auth with user := some filled } } := by
  unfold onTap at h
  unfold passes
  split_ifs at h with henable
  · obtain ⟨ok, hcheck, h⟩ := Option.bind_eq_some_iff.1 h
    cases ok with
    | false =>
      refine .inl ⟨by simp [hcheck], ?_⟩
      simpa using h.symm
    | true =>
      simp only [if_true, Option.bind_eq_bind, Option.bind_eq_some_iff, Option.pure_def,
        Option.some.injEq] at h
      obtain ⟨user, huser, filled, hfilled, data, -, rfl⟩ := h
      exact .inr ⟨by simp [henable, hcheck], user, filled, data, huser, hfilled, rfl⟩
  · exact .inl ⟨by simp [henable], (Option.some.inj h).symm⟩

end FillProfileScreen

/-! ## The log-in screen -/

omit [Floating D] in
/-- A message, or the user that is now signed in. -/
def LoginFunction.login (hashPassword : String → String) (email password : String)
    (users : Users D) : Except String (User D) :=
  match FirebaseStorageApi.userDoc email users with
  | some user =>
    if user.password = hashPassword password then .ok user
    else .error "Wrong email or password"
  | none => .error "Cannot find user"

end StudyStats
