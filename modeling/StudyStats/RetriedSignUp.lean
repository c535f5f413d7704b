import Mathlib.Logic.Function.Iterate
import StudyStats.Library.Run
import StudyStats.SignUp

/-!
# Retried sign-ups

A submit that the remote store rejects leaves the filled-in user in the provider, and the
next submit fills that user in again: its password is hashed once for every attempt that got
past the checks of the form.

## Main results

* `retriedSignUp_iff` — the sign-ups after which the chosen password works.
-/

namespace StudyStats

open Dart

variable {D C : Type} [Floating D] {hashPassword : String → String}

namespace FillProfileScreen

/-- A submit that is rejected by the remote store. -/
def retry (hashPassword : String → String) (w : SignUp D C) (screen : FillProfileScreen C) :
    Option (SignUp D C) :=
  screen.onTap hashPassword false w

end FillProfileScreen

namespace SignUp

/-- The provider holds the user whose password was hashed `n` times, and nothing has been
written. -/
structure Hashed (hashPassword : String → String) (user : User D) (users : Users D) (n : ℕ)
    (w : SignUp D C) : Prop where
  users_eq : w.users = users
  held : ∃ u, w.auth.user = some u ∧ u.id = user.id ∧ u.email = user.email ∧
    u.password = hashPassword^[n] user.password

variable {user : User D} {users : Users D} {n : ℕ} {w w' : SignUp D C}

theorem Hashed.fillData (h : Hashed hashPassword user users n w) {u filled : User D}
    {data : ProfileData} (hu : w.auth.user = some u)
    (hfilled : u.fillData hashPassword data = some filled) :
    filled.id = user.id ∧ filled.email = user.email ∧
      filled.password = hashPassword^[n + 1] user.password := by
  obtain ⟨v, hv, hid, hemail, hpassword⟩ := h.held
  obtain rfl : v = u := Option.some.inj (hv.symm.trans hu)
  obtain ⟨hid', hemail', hpassword'⟩ := User.fillData_eq hfilled
  refine ⟨hid'.trans hid, hemail'.trans hemail, ?_⟩
  rw [hpassword', hpassword, Function.iterate_succ_apply']

theorem Hashed.retry (h : Hashed hashPassword user users n w) {screen : FillProfileScreen C}
    (hretry : screen.retry hashPassword w = some w') :
    Hashed hashPassword user users (n + if screen.passes D then 1 else 0) w' := by
  rcases FillProfileScreen.onTap_cases hretry with ⟨hpasses, rfl⟩ |
    ⟨hpasses, u, filled, data, hu, hfilled, rfl⟩
  · simpa [hpasses] using h
  · rw [hpasses]
    exact ⟨h.users_eq, filled, rfl, h.fillData hu hfilled⟩

/-- Every attempt that got past the checks adds one hashing. -/
theorem Hashed.run (h : Hashed hashPassword user users n w) {failed : List (FillProfileScreen C)}
    (hrun : Machine.run (FillProfileScreen.retry hashPassword) failed w = some w') :
    Hashed hashPassword user users (n + failed.countP (·.passes D)) w' := by
  induction failed generalizing n w with
  | nil => cases hrun; exact h
  | cons screen failed ih =>
    obtain ⟨t, hretry, hrest⟩ := Machine.run_cons.1 hrun
    rw [List.countP_cons, add_comm (List.countP _ _), ← add_assoc]
    exact ih (h.retry hretry) hrest

/-- An accepted submit writes the user with one more hashing, and a log-in with the email
finds that document. -/
theorem Hashed.accept (h : Hashed hashPassword user users n w)
    (hnew : SignUpFunction.doesEmailExist user.email users = false)
    {screen : FillProfileScreen C} (hpasses : screen.passes D)
    (haccept : screen.onTap hashPassword true w = some w') :
    ∃ doc, doc.id = user.id ∧ doc.password = hashPassword^[n + 1] user.password ∧
      w'.users = users.set doc ∧
      FirebaseStorageApi.userDoc user.email w'.users = some doc := by
  rcases FillProfileScreen.onTap_cases haccept with ⟨hfails, -⟩ |
    ⟨-, u, doc, data, hu, hdoc, rfl⟩
  · rw [hpasses] at hfails
    cases hfails
  · obtain ⟨hid, hemail, hpassword⟩ := h.fillData hu hdoc
    have husers : w.users.set doc = users.set doc := by rw [h.users_eq]
    refine ⟨doc, hid, hpassword, husers, ?_⟩
    rw [FillProfileScreen.fillProfile, if_pos rfl, FirebaseStorageApi.userDoc]
    refine Table.find?_set (by simpa using hemail) fun y hy _ => ?_
    rw [h.users_eq] at hy
    simpa using SignUpFunction.doesEmailExist_eq_false.1 hnew y hy

end SignUp

open SignUp in
/-- The stored document has the hash of the chosen password, and the password is accepted, if
and only if the extra hashings give the password back. There are none after failures that
came before the checks were passed, and one never does. -/
theorem retriedSignUp_iff (hinj : Function.Injective hashPassword) {user : User D}
    {auth auth₀ : AuthProvider D C} {users : Users D}
    (hsignUp : SignUpFunction.signUP user auth = .ok auth₀)
    (hnew : SignUpFunction.doesEmailExist user.email users = false)
    {failed : List (FillProfileScreen C)} {last : FillProfileScreen C} {w w' : SignUp D C}
    (hfailed : Machine.run (FillProfileScreen.retry hashPassword) failed ⟨auth₀, users⟩ = some w)
    (hpasses : last.passes D) (hlast : last.onTap hashPassword true w = some w') :
    ((∃ doc ∈ w'.users.rows, doc.id = user.id ∧ doc.password = hashPassword user.password) ∧
      (LoginFunction.login hashPassword user.email user.password w'.users).isOk) ↔
      hashPassword^[failed.countP (·.passes D)] user.password = user.password := by
  have hstart : Hashed hashPassword user users 0 (⟨auth₀, users⟩ : SignUp D C) := by
    rw [SignUpFunction.signUP_eq hsignUp]
    exact ⟨rfl, user, rfl, rfl, rfl, rfl⟩
  obtain ⟨doc, hid, hpassword, husers, hfound⟩ := (hstart.run hfailed).accept hnew hpasses hlast
  rw [zero_add, Function.iterate_succ_apply'] at hpassword
  have hlogin : (LoginFunction.login hashPassword user.email user.password w'.users).isOk ↔
      doc.password = hashPassword user.password := by
    rw [LoginFunction.login, hfound]
    dsimp only
    split_ifs with h
    · exact iff_of_true rfl h
    · exact iff_of_false nofun h
  rw [hlogin, hpassword, hinj.eq_iff, and_iff_right_iff_imp]
  intro hback
  exact ⟨doc, husers ▸ Table.mem_set.2 (.inl rfl), hid, by rw [hpassword, hback]⟩

/-- SHA-1 on the passwords of the samples and on the first one's digest, and some injective
continuation of it. -/
def sampleHash (password : String) : String :=
  if password = "password" then "5baa61e4c9b93f3f0682250b6cf8331b7ee68fd8"
  else if password = "password2" then "2aa60a8ff7fcd473d321e0146afd9e26df395147"
  else if password = "5baa61e4c9b93f3f0682250b6cf8331b7ee68fd8" then
    "353e8061f2befecb6818ba0c034c632fb0bcae1b"
  else password ++ "-----------------------------------------"

theorem length_padded (s : String) :
    (s ++ "-----------------------------------------").length = s.length + 41 :=
  String.length_append ..

theorem padded_ne {s t : String} (ht : t.length ≤ 40) :
    s ++ "-----------------------------------------" ≠ t := by
  rintro rfl
  rw [length_padded] at ht
  omega

/-- A digest is no continued text, and the three digests differ. -/
theorem sampleHash_injective : Function.Injective sampleHash := by
  intro p q h
  unfold sampleHash at h
  split_ifs at h with hp hq hq hq hp' hq hq' hq hp'' hq hq' hq'' hq hq' hq''
  · exact hp.trans hq.symm
  · exact absurd h (by decide)
  · exact absurd h (by decide)
  · exact absurd h.symm (padded_ne (by decide))
  · exact absurd h (by decide)
  · exact hp'.trans hq'.symm
  · exact absurd h (by decide)
  · exact absurd h.symm (padded_ne (by decide))
  · exact absurd h (by decide)
  · exact absurd h (by decide)
  · exact hp''.trans hq''.symm
  · exact absurd h.symm (padded_ne (by decide))
  · exact absurd h (padded_ne (by decide))
  · exact absurd h (padded_ne (by decide))
  · exact absurd h (padded_ne (by decide))
  · simpa using h

theorem sampleHash_ne (password : String) : sampleHash password ≠ password := by
  unfold sampleHash
  split_ifs with hfirst hsecond hdigest
  · rw [hfirst]
    decide
  · rw [hsecond]
    decide
  · rw [hdigest]
    decide
  · intro h
    have := congrArg String.length h
    rw [length_padded] at this
    omega

/-- A user as the sign-up screen makes it. -/
def sampleUser : User Double :=
  SignUpScreen.newUser String.toLower "u1" SignUpScreen.profile
    { name := "Ada", email := "ada@x.com", password := "password", matricNo := "21/0123"
      agreedTerms := true, image := .absent }

/-- A four-year programme, filled in for the first semester of a level. -/
def sampleScreen (level gpa : String) : FillProfileScreen (List Course) where
  universities := ["Babcock University"]
  university := "Babcock University"
  faculty := "School of Computing and Engineering Sciences"
  course := "Computer Science"
  level := level
  semester := "1st"
  gpa := gpa
  gradePoint := "5"
  courseData := some { year := some 4, courses := fun _ _ => none }

/-- The sign-up screen, rejected submits and an accepted one. -/
def signUpWith (failed : List (FillProfileScreen (List Course)))
    (last : FillProfileScreen (List Course)) : Option (SignUp Double (List Course)) := do
  let auth ← (SignUpFunction.signUP sampleUser ⟨none, none⟩).toOption
  let w ← Machine.run (FillProfileScreen.retry sampleHash) failed ⟨auth, Table.empty⟩
  last.onTap sampleHash true w

theorem exists_signUpWith {failed : List (FillProfileScreen (List Course))}
    {last : FillProfileScreen (List Course)} {w' : SignUp Double (List Course)}
    (h : signUpWith failed last = some w') :
    ∃ auth₀ w, SignUpFunction.signUP sampleUser (⟨none, none⟩ :
        AuthProvider Double (List Course)) = .ok auth₀ ∧
      Machine.run (FillProfileScreen.retry sampleHash) failed ⟨auth₀, Table.empty⟩ = some w ∧
      last.onTap sampleHash true w = some w' := by
  simp only [signUpWith, Option.bind_eq_bind, Option.bind_eq_some_iff] at h
  obtain ⟨auth₀, hauth, w, hw, hlast⟩ := h
  refine ⟨auth₀, w, ?_, hw, hlast⟩
  cases hsignUp : SignUpFunction.signUP sampleUser
      (⟨none, none⟩ : AuthProvider Double (List Course)) with
  | error e => rw [hsignUp] at hauth; cases hauth
  | ok auth => rw [hsignUp] at hauth; exact congrArg _ (Option.some.inj hauth)

/-- A submit with a level the programme does not have comes first. -/
theorem retriedSignUp_ada : ∃ w',
    signUpWith [sampleScreen "500" "3.5"] (sampleScreen "100" "") = some w' ∧
    (∃ doc ∈ w'.users.rows,
      doc.id = sampleUser.id ∧ doc.password = sampleHash sampleUser.password) ∧
    (LoginFunction.login sampleHash sampleUser.email sampleUser.password w'.users).isOk := by
  have hsome : (signUpWith [sampleScreen "500" "3.5"] (sampleScreen "100" "")).isSome := by
    decide +kernel
  obtain ⟨w', hw'⟩ := Option.isSome_iff_exists.1 hsome
  obtain ⟨auth₀, w, hsignUp, hfailed, hlast⟩ := exists_signUpWith hw'
  refine ⟨w', hw', (retriedSignUp_iff sampleHash_injective hsignUp rfl hfailed ?_ hlast).2 ?_⟩
  · decide +kernel
  · have hcount : [sampleScreen "500" "3.5"].countP (·.passes Double) = 0 := by decide +kernel
    rw [hcount]
    rfl

/-- One submit is rejected by the remote store. The document then holds the hash of the hash,
and the chosen password is wrong. -/
theorem retriedSignUp_fails :
    (Function.Injective sampleHash ∧ ∀ password, sampleHash password ≠ password) ∧
    ∃ w', signUpWith [sampleScreen "100" ""] (sampleScreen "100" "") = some w' ∧
      w'.users.rows.map (fun doc => (doc.id, doc.password)) =
        [("u1", sampleHash (sampleHash "password"))] ∧
      LoginFunction.login sampleHash "ada@x.com" "password" w'.users =
        .error "Wrong email or password" := by
  refine ⟨⟨sampleHash_injective, sampleHash_ne⟩, ?_⟩
  have hcheck : (signUpWith [sampleScreen "100" ""] (sampleScreen "100" "")).map (fun w' =>
      (w'.users.rows.map (fun doc => (doc.id, doc.password)),
        LoginFunction.login sampleHash "ada@x.com" "password" w'.users)) =
      some ([("u1", sampleHash (sampleHash "password"))], .error "Wrong email or password") := by
    decide +kernel
  obtain ⟨w', hw', heq⟩ := Option.map_eq_some_iff.1 hcheck
  exact ⟨w', hw', Prod.mk.inj heq⟩

end StudyStats
