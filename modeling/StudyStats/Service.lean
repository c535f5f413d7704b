import StudyStats.EditProfile

/-!
# Installations and their accounts

Any number of installations of the app work on one collection `users`. Each keeps the signed-in
user and the course map in its provider and in the Hive box, sends its writes one after the
other, and has handlers that wait for an answer while others start. When the app is killed its
provider and its handlers are gone, but the box stays and writes already sent are still
delivered; the splash screen then reads the box.

## Main definitions

* `Phone` — an installation, `Phone.act` what happens on it.
* `Service`, `Service.step` — the installations and the collection.
-/

namespace StudyStats

open Dart

variable {D C : Type}

/-- What the app gets from outside: SHA-1, lower case and the course files. -/
structure Platform (C : Type) where
  hashPassword : String → String
  toLowerCase : String → String
  catalogue : Catalogue C

/-! ## Writes -/

/-- A write to the collection `users`, by the function that makes it. -/
inductive UserWrite (D : Type) where
  /-- `update(user.toJson())`, in `incrementUser` and `UpdateUser`. An edit of the profile goes
  on with the course map. -/
  | update (user : User D) (editing : Bool)
  /-- `update({'password': newPassword})`, in `updatePassword` -/
  | updatePassword (id newPassword : String)
  /-- `delete`, in `deleteUserById` -/
  | delete (id : String)

namespace UserWrite

/-- The whole user a write carries. -/
def user? : UserWrite D → Option (User D)
  | update user _ => some user
  | updatePassword .. | delete _ => none

/-- The collection afterwards. An update of a document that is not there is rejected. -/
def apply (users : Users D) : UserWrite D → Option (Users D)
  | update user _ => (users.get? user.id).map fun _ => users.set user
  | updatePassword id newPassword =>
    (users.get? id).map fun user => users.set { user with password := newPassword }
  | delete id => some (users.erase id)

end UserWrite

/-- A write on its way. Once the app has been killed it is an orphan. -/
structure PendingWrite (D : Type) where
  write : UserWrite D
  awaited : Bool

def PendingWrite.orphan (x : PendingWrite D) : PendingWrite D := { x with awaited := false }

/-- A handler that waits for something other than a write. -/
inductive Waiting (D C : Type) where
  /-- `deleteUserData`, in a confirmed edit of the profile, with the user it started from -/
  | deleteData (user : User D) (screen : EditProfileScreen C)
  /-- `getCourseData`, in a log-in or in an edit of the profile -/
  | courseMap (login : Bool) (uni faculty course : String)
  /-- `userRef.get()`, in `updatePassword`. The document is read and handed on in one step. -/
  | readBack (id : String)

/-- The user a handler will go on with. -/
def Waiting.user? : Waiting D C → Option (User D)
  | deleteData user _ => some user
  | courseMap .. | readBack _ => none

/-! ## The installation -/

/-- Where the user is: not signed in, on the profile screen of a sign-up, on the main screen or
above it, or on a splash screen that has thrown. -/
inductive Route where
  | welcome
  | fillProfile
  | main
  | splash
deriving DecidableEq

/-- `userKey` and `courseData` are entries of the box. -/
structure Phone (D C : Type) where
  route : Route
  auth : AuthProvider D C
  userKey : Option (User D)
  courseData : Option (CourseData C)
  writes : List (PendingWrite D)
  waiting : List (Waiting D C)

inductive PhoneAction (D C : Type) where
  /-- The button of the sign-up screen, with the id `Uuid` gives. -/
  | signUp (id : String) (form : SignUpForm)
  | logIn (email password : String)
  | logOut
  | incrementUser (cgpa : String)
  | updateUserCGPA (cgpa : String)
  /-- The button of the edit screen, with the edit confirmed. -/
  | editProfile (screen : EditProfileScreen C)
  | changePassword (password newPassword confirmed : String)
  | deleteAccount
  /-- The answer to a handler that waits. -/
  | answer (k : ℕ) (ok : Bool)
  /-- The app is killed and opened again. -/
  | restart

/-- The button of the password screen: a message, or the id and the hash that are written. -/
def ChangePassword.onTap (hashPassword : String → String)
    (password newPassword confirmed : String) (user : User D) : Except String (String × String) :=
  if hashPassword password = user.password then
    if newPassword = confirmed then
      if isValidPassword newPassword then .ok (user.id, hashPassword newPassword)
      else .error "Password must be at least 8 characters"
    else .error "Error Confirming Password"
  else .error "Enter your password correctly"

namespace Phone

/-- An installation before anyone has signed in. -/
def new : Phone D C := ⟨.welcome, ⟨none, none⟩, none, none, [], []⟩

/-- The provider has the user once the put into the box, which is awaited, is done. That await
is taken as instantaneous, here and in `saveCourseData`. -/
def saveUser (user : User D) (p : Phone D C) : Phone D C :=
  { p with auth := { p.auth with user := some user }, userKey := some user }

def saveCourseData (data : CourseData C) (p : Phone D C) : Phone D C :=
  { p with auth := { p.auth with courseData := some data }, courseData := some data }

def clearData (p : Phone D C) : Phone D C :=
  { p with auth := ⟨none, none⟩, userKey := none, courseData := none }

def send (write : UserWrite D) (p : Phone D C) : Phone D C :=
  { p with writes := p.writes ++ [⟨write, true⟩] }

def wait (x : Waiting D C) (p : Phone D C) : Phone D C :=
  { p with waiting := p.waiting ++ [x] }

/-- `saveUser` and the write of the whole document, in `incrementUser` and `UpdateUser`. Without
a user something has thrown before. -/
def update (editing : Bool) (user : Option (User D)) (p : Phone D C) : Phone D C :=
  match user with
  | none => p
  | some user => (p.saveUser user).send (.update user editing)

/-- Ask for the course map of the user's programme; an empty field throws. -/
def loadCourseMap (login : Bool) (user : User D) (p : Phone D C) : Phone D C :=
  match user.university, user.faculty, user.course with
  | some uni, some faculty, some course => p.wait (.courseMap login uni faculty course)
  | _, _, _ => p

/-- What the handler of a write does once the write is accepted. -/
def resume (p : Phone D C) : UserWrite D → Phone D C
  | .update user editing => if editing then p.loadCourseMap false user else p
  | .updatePassword id _ => p.wait (.readBack id)
  | .delete _ => { p.clearData with route := .welcome }

/-- What a waiting handler does with its answer. An edit of the profile goes on also where the
records could not be deleted. -/
def receive [Floating D] (env : Platform C) (users : Users D) (ok : Bool) (p : Phone D C) :
    Waiting D C → Phone D C
  | .deleteData user screen => p.update true (screen.newUser user)
  | .courseMap login uni faculty course =>
    let data := FillProfileFunction.getCourseData ok env.catalogue uni faculty course
    if login then { p.saveCourseData data with route := .main } else p.saveCourseData data
  | .readBack id =>
    match users.get? id with
    | some user => if ok then p.saveUser user else p
    | none => p

/-- Where the splash screen goes, and the provider it fills from the box. A user without a
course map throws after `saveUser`. -/
def splash (p : Phone D C) : Route × AuthProvider D C :=
  match p.userKey, p.courseData with
  | none, _ => (.welcome, ⟨none, none⟩)
  | some user, none => (.splash, ⟨some user, none⟩)
  | some user, some data => (.main, ⟨some user, some data⟩)

/-- The app is killed and opened again. -/
def restart (p : Phone D C) : Phone D C :=
  { p with
    route := p.splash.1
    auth := p.splash.2
    writes := p.writes.map PendingWrite.orphan
    waiting := [] }

@[simp] theorem user_restart (p : Phone D C) : p.restart.auth.user = p.userKey := by
  unfold restart splash
  split <;> simp_all

/-- The provider after the button of the profile screen. If the user is stored, the box has the
provider's user and course map. -/
def submitted (auth : AuthProvider D C) (stored : Bool) (p : Phone D C) : Phone D C :=
  if stored then
    { p with route := .main, auth, userKey := auth.user, courseData := auth.courseData }
  else { p with auth }

/-- What happens on an installation while the collection holds `users`. -/
def act [Floating D] (env : Platform C) (users : Users D) (p : Phone D C) :
    PhoneAction D C → Option (Phone D C)
  | .signUp id form =>
    if (p.route = .welcome ∨ p.route = .fillProfile) ∧ SignUpScreen.enable form then
      match SignUpScreen.onTap env.toLowerCase id form users p.auth with
      | .error _ => some p
      | .ok auth => some { p with route := .fillProfile, auth }
    else none
  | .logIn email password =>
    if (p.route = .welcome ∨ p.route = .fillProfile) ∧ isValidEmail email ∧ password ≠ "" then
      let p := { p with route := .welcome }
      match LoginFunction.login env.hashPassword (env.toLowerCase email) password users with
      | .error _ => some p
      | .ok user => some ((p.saveUser user).loadCourseMap true user)
    else none
  | .logOut => if p.route = .main then some { p.clearData with route := .welcome } else none
  | .incrementUser cgpa =>
    if p.route = .main then
      some (p.update false ((p.auth.incrementUser cgpa).bind AuthProvider.user))
    else none
  | .updateUserCGPA cgpa =>
    if p.route = .main then
      match p.auth.updateUserCGPA true cgpa with
      | .finished auth => some (p.update false auth.user)
      | .threw _ => some p
    else none
  | .editProfile screen =>
    if p.route = .main ∧ screen.enable then
      match screen.validate D, p.auth.user with
      | some (some screen), some user => some (p.wait (.deleteData user screen))
      | _, _ => some p
    else none
  | .changePassword password newPassword confirmed =>
    if p.route = .main ∧ password ≠ "" ∧ newPassword ≠ "" ∧ confirmed ≠ "" then
      match p.auth.user with
      | none => some p
      | some user =>
        match ChangePassword.onTap env.hashPassword password newPassword confirmed user with
        | .error _ => some p
        | .ok (id, hash) => some (p.send (.updatePassword id hash))
    else none
  | .deleteAccount =>
    if p.route = .main then
      match p.auth.user with
      | none => some p
      | some user => some (p.send (.delete user.id))
    else none
  | .answer k ok =>
    (p.waiting[k]?).map fun x =>
      { p with waiting := p.waiting.eraseIdx k }.receive env users ok x
  | .restart => some p.restart

end Phone

/-! ## The service -/

/-- `issued` are the ids `Uuid` has given, and those of the documents that were there before. -/
structure Service (ι D C : Type) where
  users : Users D
  phones : ι → Phone D C
  issued : List String

inductive ServiceAction (ι D C : Type) where
  | on (i : ι) (a : PhoneAction D C)
  /-- The button of the profile screen, as far as the answer to its write. The app may be killed
  before the answer is there. -/
  | submit (i : ι) (screen : FillProfileScreen C) (accepted killed : Bool)
  /-- The first write that an installation has sent is accepted or rejected. -/
  | answerWrite (i : ι) (accepted : Bool)

/-- An upload, or an edit of a recorded semester. -/
def PhoneAction.uploads : PhoneAction D C → Bool
  | incrementUser _ | updateUserCGPA _ => true
  | signUp .. | logIn .. | logOut | editProfile _ | changePassword .. | deleteAccount | answer ..
  | restart => false

/-- The id a sign-up is given. -/
def PhoneAction.newId : PhoneAction D C → List String
  | signUp id _ => [id]
  | _ => []

def ServiceAction.newId {ι : Type} : ServiceAction ι D C → List String
  | on _ a => a.newId
  | submit .. | answerWrite .. => []

namespace Service

variable {ι : Type}

/-- Documents that are there from before, and installations that are new. -/
def start (users : Users D) : Service ι D C where
  users := users
  phones := fun _ => .new
  issued := users.rows.map User.id

def setPhone [DecidableEq ι] (w : Service ι D C) (i : ι) (p : Phone D C) : Service ι D C :=
  { w with phones := Function.update w.phones i p }

def step [Floating D] [DecidableEq ι] (env : Platform C) (w : Service ι D C) :
    ServiceAction ι D C → Option (Service ι D C)
  | .on i a =>
    if ∀ id ∈ a.newId, id ∉ w.issued then
      ((w.phones i).act env w.users a).map fun p =>
        { w.setPhone i p with issued := a.newId ++ w.issued }
    else none
  | .submit i screen accepted killed =>
    if (w.phones i).route = .fillProfile then
      match screen.onTap env.hashPassword accepted ⟨(w.phones i).auth, w.users⟩ with
      | none => some w
      | some ⟨auth, users⟩ =>
        some { w.setPhone i
            (if killed then (w.phones i).restart
            else (w.phones i).submitted auth (accepted && screen.passes D)) with
          users }
    else none
  | .answerWrite i accepted =>
    match (w.phones i).writes with
    | [] => none
    | x :: rest =>
      let p := { w.phones i with writes := rest }
      match if accepted then x.write.apply w.users else none with
      | none => some (w.setPhone i p)
      | some users =>
        some { w.setPhone i (if x.awaited then p.resume x.write else p) with users }

end Service

/-! ## What an action does -/

/-- What stays of a user whatever semester they are in. -/
def User.account (user : User D) : User D :=
  { user with level := none, semester := none, currentCgpa := none }

/-- What nothing changes about a user. -/
structure Identity where
  id : String
  name : String
  email : String
  matricNo : String
  image : String
  premium : Bool
deriving DecidableEq

def User.identity (user : User D) : Identity where
  id := user.id
  name := user.name
  email := user.email
  matricNo := user.matricNo
  image := user.image
  premium := user.premium

def User.hasProgramme (user : User D) : Bool :=
  user.university.isSome && user.faculty.isSome && user.course.isSome

theorem User.identity_of_account {user new : User D} (h : new.account = user.account) :
    new.identity = user.identity := by
  change new.account.identity = user.account.identity
  rw [h]

theorem User.hasProgramme_of_account {user new : User D} (h : new.account = user.account) :
    new.hasProgramme = user.hasProgramme := by
  change new.account.hasProgramme = user.account.hasProgramme
  rw [h]

theorem User.identity_fillData [Floating D] {hashPassword : String → String} {user filled : User D}
    {data : ProfileData} (h : user.fillData hashPassword data = some filled)
    (hpremium : data.premium = none) :
    filled.identity = user.identity ∧ filled.hasProgramme := by
  simp only [User.fillData, Option.bind_eq_bind, Option.bind_eq_some_iff, Option.pure_def,
    Option.some.injEq] at h
  obtain ⟨level, -, cgpa, -, rfl⟩ := h
  exact ⟨by simp [identity, hpremium], rfl⟩

theorem AuthProvider.account_incrementUser [Floating D] {auth : AuthProvider D C} {cgpa : String}
    {new : User D} (h : (auth.incrementUser cgpa).bind AuthProvider.user = some new) :
    ∃ user, auth.user = some user ∧ new.account = user.account := by
  obtain ⟨auth', hauth, hnew⟩ := Option.bind_eq_some_iff.1 h
  simp only [incrementUser, Option.bind_eq_bind, Option.bind_eq_some_iff, Option.pure_def,
    Option.some.injEq] at hauth
  obtain ⟨user, huser, _, _, _, _, _, _, _, _, rfl⟩ := hauth
  cases hnew
  exact ⟨user, huser, rfl⟩

theorem AuthProvider.account_updateUserCGPA [Floating D] {auth auth' : AuthProvider D C}
    {cgpa : String} (h : auth.updateUserCGPA true cgpa = .finished auth') :
    ∃ user new, auth.user = some user ∧ auth'.user = some new ∧ new.account = user.account := by
  unfold updateUserCGPA at h
  split at h
  · next user c huser _ =>
    cases h
    exact ⟨user, _, huser, rfl, rfl⟩
  · cases h

/-- A log-in finds a document with the password. -/
theorem LoginFunction.mem_of_login {hashPassword : String → String} {email password : String}
    {users : Users D} {user : User D} (h : login hashPassword email password users = .ok user) :
    user ∈ users.rows ∧ user.password = hashPassword password := by
  unfold login at h
  split at h
  · next hfound =>
    split_ifs at h with hpassword
    cases h
    exact ⟨List.mem_of_find?_eq_some hfound, hpassword⟩
  · cases h

/-- What an edit of the profile keeps of the user. -/
theorem EditProfileScreen.newUser_eq [Floating D] {screen : EditProfileScreen C}
    {user new : User D} (h : screen.newUser user = some new) : ∃ level cgpa, new = { user with
      university := some screen.university
      faculty := some screen.faculty
      course := some screen.course
      level := some level
      semester := some screen.semester
      currentCgpa := some cgpa } := by
  simp only [newUser, Option.bind_eq_bind, Option.bind_eq_some_iff, Option.pure_def,
    Option.some.injEq] at h
  obtain ⟨level, -, cgpa, -, rfl⟩ := h
  exact ⟨level, cgpa, rfl⟩

namespace Phone

/-- The effects an action may have. -/
inductive Effect [Floating D] (env : Platform C) (users : Users D) (p : Phone D C) :
    PhoneAction D C → Phone D C → Prop
  | nothing {a : PhoneAction D C} (hnew : ∀ id form, a ≠ .signUp id form) : Effect env users p a p
  | refused {id : String} {form : SignUpForm}
      (hroute : p.route = .welcome ∨ p.route = .fillProfile) :
      Effect env users p (.signUp id form) p
  | signUp {id : String} {form : SignUpForm} (image : String)
      (hroute : p.route = .welcome ∨ p.route = .fillProfile) :
      Effect env users p (.signUp id form) { p with
        route := .fillProfile
        auth := { p.auth with user := some (SignUpScreen.newUser env.toLowerCase id image form) } }
  | wrong {email password : String} (hroute : p.route = .welcome ∨ p.route = .fillProfile) :
      Effect env users p (.logIn email password) { p with route := .welcome }
  | logIn {email password : String} (user : User D) (hmem : user ∈ users.rows)
      (hroute : p.route = .welcome ∨ p.route = .fillProfile)
      (hlogin : LoginFunction.login env.hashPassword (env.toLowerCase email) password users =
        .ok user) :
      Effect env users p (.logIn email password)
        (({ p with route := .welcome }.saveUser user).loadCourseMap true user)
  | logOut (hroute : p.route = .main) :
      Effect env users p .logOut { p.clearData with route := .welcome }
  | update {a : PhoneAction D C} (user new : User D) (huser : p.auth.user = some user)
      (hnew : new.account = user.account) (hroute : p.route = .main) (hupload : a.uploads) :
      Effect env users p a ((p.saveUser new).send (.update new false))
  | edit {screen : EditProfileScreen C} (user : User D) (screen' : EditProfileScreen C)
      (huser : p.auth.user = some user) (hroute : p.route = .main) :
      Effect env users p (.editProfile screen) (p.wait (.deleteData user screen'))
  | changePassword {password newPassword confirmed : String} (user : User D)
      (huser : p.auth.user = some user) (hroute : p.route = .main)
      (hok : ChangePassword.onTap env.hashPassword password newPassword confirmed user =
        .ok (user.id, env.hashPassword newPassword)) :
      Effect env users p (.changePassword password newPassword confirmed)
        (p.send (.updatePassword user.id (env.hashPassword newPassword)))
  | deleteAccount (user : User D) (huser : p.auth.user = some user) (hroute : p.route = .main) :
      Effect env users p .deleteAccount (p.send (.delete user.id))
  | answer {k : ℕ} {ok : Bool} (x : Waiting D C) (hx : p.waiting[k]? = some x) :
      Effect env users p (.answer k ok)
        ({ p with waiting := p.waiting.eraseIdx k }.receive env users ok x)
  | restart : Effect env users p .restart p.restart

/-- An action has one of these effects. -/
theorem effect_of_act [Floating D] {env : Platform C} {users : Users D} {p p' : Phone D C}
    {a : PhoneAction D C} (h : p.act env users a = some p') : p.Effect env users a p' := by
  cases a with
  | signUp id form =>
    simp only [act] at h
    split_ifs at h with hif
    obtain ⟨hroute, -⟩ := hif
    split at h
    · cases h
      exact .refused hroute
    · next auth hauth =>
      cases h
      obtain ⟨image, rfl⟩ := SignUpScreen.onTap_eq hauth
      exact .signUp image hroute
  | logIn email password =>
    simp only [act] at h
    split_ifs at h with hif
    obtain ⟨hroute, -⟩ := hif
    split at h
    · cases h
      exact .wrong hroute
    · next user huser =>
      cases h
      exact .logIn user (LoginFunction.mem_of_login huser).1 hroute huser
  | logOut =>
    simp only [act] at h
    split_ifs at h with hroute
    cases h
    exact .logOut hroute
  | incrementUser cgpa =>
    simp only [act] at h
    split_ifs at h with hroute
    cases h
    cases hnew : (p.auth.incrementUser cgpa).bind AuthProvider.user with
    | none => exact .nothing fun _ _ => by simp
    | some new =>
      obtain ⟨user, huser, haccount⟩ := AuthProvider.account_incrementUser hnew
      exact .update user new huser haccount hroute rfl
  | updateUserCGPA cgpa =>
    simp only [act] at h
    split_ifs at h with hroute
    split at h
    · next auth hauth =>
      cases h
      obtain ⟨user, new, huser, hnew, haccount⟩ := AuthProvider.account_updateUserCGPA hauth
      rw [hnew]
      exact .update user new huser haccount hroute rfl
    · cases h
      exact .nothing fun _ _ => by simp
  | editProfile screen =>
    simp only [act] at h
    split_ifs at h with hif
    split at h
    · next screen' user _ huser =>
      cases h
      exact .edit user screen' huser hif.1
    · cases h
      exact .nothing fun _ _ => by simp
  | changePassword password newPassword confirmed =>
    simp only [act] at h
    split_ifs at h with hif
    split at h
    · cases h
      exact .nothing fun _ _ => by simp
    · next user huser =>
      split at h
      · cases h
        exact .nothing fun _ _ => by simp
      · next id hash hok =>
        cases h
        have hpair : id = user.id ∧ hash = env.hashPassword newPassword := by
          unfold ChangePassword.onTap at hok
          split_ifs at hok
          cases hok
          exact ⟨rfl, rfl⟩
        obtain ⟨rfl, rfl⟩ := hpair
        exact .changePassword user huser hif.1 hok
  | deleteAccount =>
    simp only [act] at h
    split_ifs at h with hroute
    split at h
    · cases h
      exact .nothing fun _ _ => by simp
    · next user huser =>
      cases h
      exact .deleteAccount user huser hroute
  | answer k ok =>
    obtain ⟨x, hx, rfl⟩ := Option.map_eq_some_iff.1 h
    exact .answer x hx
  | restart =>
    cases h
    exact .restart

end Phone

namespace Service

variable {ι : Type} [DecidableEq ι] [Floating D] {env : Platform C} {w w' : Service ι D C} {i : ι}

theorem step_on {a : PhoneAction D C} (h : w.step env (.on i a) = some w') :
    ∃ p, (w.phones i).Effect env w.users a p ∧ (∀ id ∈ a.newId, id ∉ w.issued) ∧
      w' = { w.setPhone i p with issued := a.newId ++ w.issued } := by
  simp only [step] at h
  split_ifs at h with hnew
  obtain ⟨p, hp, rfl⟩ := Option.map_eq_some_iff.1 h
  exact ⟨p, Phone.effect_of_act hp, hnew, rfl⟩

/-- The effects a submit may have on the collection and the installation. -/
inductive Submitted (env : Platform C) (w : Service ι D C) (p : Phone D C) :
    Users D → Phone D C → Prop
  | nothing : Submitted env w p w.users p
  | killed : Submitted env w p w.users p.restart
  | rejected (user filled : User D) (huser : p.auth.user = some user)
      (hkept : filled.identity = user.identity)
      (hpassword : filled.password = env.hashPassword user.password) :
      Submitted env w p w.users { p with auth := { p.auth with user := some filled } }
  | stored (user filled : User D) (data : CourseData C) (huser : p.auth.user = some user)
      (hkept : filled.identity = user.identity) (hfilled : filled.hasProgramme)
      (hpassword : filled.password = env.hashPassword user.password) :
      Submitted env w p (w.users.set filled) { p with
        route := .main, auth := ⟨some filled, some data⟩
        userKey := some filled, courseData := some data }
  | storedKilled (user filled : User D) (huser : p.auth.user = some user)
      (hkept : filled.identity = user.identity) (hfilled : filled.hasProgramme)
      (hpassword : filled.password = env.hashPassword user.password) :
      Submitted env w p (w.users.set filled) p.restart

theorem step_submit {screen : FillProfileScreen C} {accepted killed : Bool}
    (h : w.step env (.submit i screen accepted killed) = some w') :
    (w.phones i).route = .fillProfile ∧ ∃ users p, Submitted env w (w.phones i) users p ∧
      w' = { w.setPhone i p with users } := by
  simp only [step] at h
  rw [Option.ite_none_right_eq_some] at h
  obtain ⟨hroute, h⟩ := h
  refine ⟨hroute, ?_⟩
  split at h
  · cases h
    exact ⟨_, _, .nothing, by simp [setPhone]⟩
  · next auth users hsubmit =>
    cases h
    refine ⟨users, _, ?_, rfl⟩
    rcases FillProfileScreen.onTap_cases hsubmit with ⟨hpasses, heq⟩ |
      ⟨hpasses, user, filled, data, huser, hfilled, heq⟩
    · cases heq
      cases killed with
      | true => exact .killed
      | false => simpa [Phone.submitted, hpasses] using Submitted.nothing
    · obtain ⟨hkept, hprogramme⟩ := User.identity_fillData hfilled rfl
      obtain ⟨-, -, hpassword⟩ := User.fillData_eq hfilled
      cases accepted with
      | false =>
        cases heq
        cases killed with
        | true => exact .killed
        | false => exact .rejected user filled huser hkept hpassword
      | true =>
        cases heq
        cases killed with
        | true => exact .storedKilled user filled huser hkept hprogramme hpassword
        | false =>
          rw [hpasses]
          exact .stored user filled data huser hkept hprogramme hpassword

/-- A write is rejected, or it is accepted and a handler that still waits goes on. -/
theorem step_answerWrite {accepted : Bool} (h : w.step env (.answerWrite i accepted) = some w') :
    ∃ x rest, (w.phones i).writes = x :: rest ∧
      ((accepted = true → x.write.apply w.users = none) ∧
          w' = w.setPhone i { w.phones i with writes := rest } ∨
        ∃ users, x.write.apply w.users = some users ∧ w' = { w.setPhone i
          (if x.awaited then { w.phones i with writes := rest }.resume x.write
          else { w.phones i with writes := rest }) with users }) := by
  simp only [step] at h
  split at h
  · cases h
  · next x rest hwrites =>
    refine ⟨x, rest, hwrites, ?_⟩
    split at h
    · next hnone =>
      cases h
      refine .inl ⟨?_, rfl⟩
      rintro rfl
      exact hnone
    · next users husers =>
      cases h
      refine .inr ⟨users, ?_, rfl⟩
      cases accepted with
      | true => exact husers
      | false => cases husers

end Service

/-! ## One thing at a time -/

/-- Nothing is left to do on the installation once the write is answered. -/
def PendingWrite.settled (x : PendingWrite D) : Bool :=
  !x.awaited || match x.write with
    | .update _ editing => !editing
    | .updatePassword .. | .delete _ => false

namespace Phone

/-- How many handlers are under way that will still change the installation. -/
def busy (p : Phone D C) : ℕ :=
  p.waiting.length + p.writes.countP fun x => !x.settled

end Phone

/-- The action begins something. Uploads do not wait for their writes. -/
def PhoneAction.begins : PhoneAction D C → Bool
  | incrementUser _ | updateUserCGPA _ | answer .. | restart => false
  | signUp .. | logIn .. | logOut | editProfile _ | changePassword .. | deleteAccount => true

/-- Nothing is begun on an installation while something else is under way there. -/
def Service.OneAtATime {ι : Type} (w : Service ι D C) : ServiceAction ι D C → Prop
  | .on i a => a.begins = true → (w.phones i).busy = 0
  | .submit i .. => (w.phones i).busy = 0
  | .answerWrite .. => True

instance {ι : Type} (w : Service ι D C) : (a : ServiceAction ι D C) → Decidable (w.OneAtATime a)
  | .on i a => inferInstanceAs (Decidable (a.begins = true → (w.phones i).busy = 0))
  | .submit i .. => inferInstanceAs (Decidable ((w.phones i).busy = 0))
  | .answerWrite .. => isTrue trivial

end StudyStats
