import StudyStats.DeletedAccounts

/-!
# Where passwords come from

A password is typed at a sign-up or in a change, by someone who knows the one before. What the
app keeps of it, in the collection, in a box, in a write or in a handler that waits, is hashed:
once, or once more for every submit of the sign-up that was rejected.

## Main results

* `passwords_chosen` — what is kept under an account is hashed from a password chosen for it.
* `logIn_chosen` — what one logs in with.
-/

namespace StudyStats

open Dart

variable {ι D C : Type}

/-! ## Passwords that are chosen and kept -/

/-- The password an action chooses, with its account. A change asks for the password before. -/
def PhoneAction.chooses (env : Platform C) (p : Phone D C) :
    PhoneAction D C → Option (String × String)
  | .signUp id form => some (id, form.password)
  | .changePassword password newPassword confirmed =>
    p.auth.user.bind fun user =>
      match ChangePassword.onTap env.hashPassword password newPassword confirmed user with
      | .error _ => none
      | .ok (id, _) => some (id, newPassword)
  | _ => none

def ServiceAction.chooses (env : Platform C) (w : Service ι D C) :
    ServiceAction ι D C → List (String × String)
  | .on i a => (a.chooses env (w.phones i)).toList
  | .submit .. | .answerWrite .. => []

/-- The password is kept on the installation, other than in the provider. -/
def Phone.Keeps (p : Phone D C) (id password : String) : Prop :=
  (∃ u, (p.userKey = some u ∨ (∃ x ∈ p.writes, x.write.user? = some u) ∨
    ∃ x ∈ p.waiting, x.user? = some u) ∧ u.id = id ∧ u.password = password) ∨
  ∃ x ∈ p.writes, x.write = .updatePassword id password

/-- The password is kept somewhere. -/
def Service.Keeps (w : Service ι D C) (id password : String) : Prop :=
  (∃ row ∈ w.users.rows, row.id = id ∧ row.password = password) ∨
    ∃ i, (w.phones i).Keeps id password

namespace Phone

variable {p p' : Phone D C} {id password : String}

theorem keeps_saveUser {user : User D} (h : (p.saveUser user).Keeps id password) :
    user.id = id ∧ user.password = password ∨ p.Keeps id password := by
  rcases h with ⟨u, hu | hu, hid⟩ | h
  · cases hu
    exact .inl hid
  · exact .inr (.inl ⟨u, .inr hu, hid⟩)
  · exact .inr (.inr h)

theorem keeps_send {x : UserWrite D} (h : (p.send x).Keeps id password) :
    (∃ u, x.user? = some u ∧ u.id = id ∧ u.password = password) ∨
      x = .updatePassword id password ∨ p.Keeps id password := by
  rcases h with ⟨u, hu | ⟨y, hy, hu⟩ | hu, hid⟩ | ⟨y, hy, hx⟩
  · exact .inr (.inr (.inl ⟨u, .inl hu, hid⟩))
  · rcases List.mem_append.1 hy with hy | hy
    · exact .inr (.inr (.inl ⟨u, .inr (.inl ⟨y, hy, hu⟩), hid⟩))
    · rw [List.mem_singleton.1 hy] at hu
      exact .inl ⟨u, hu, hid⟩
  · exact .inr (.inr (.inl ⟨u, .inr (.inr hu), hid⟩))
  · rcases List.mem_append.1 hy with hy | hy
    · exact .inr (.inr (.inr ⟨y, hy, hx⟩))
    · rw [List.mem_singleton.1 hy] at hx
      exact .inr (.inl hx)

theorem keeps_wait {x : Waiting D C} (h : (p.wait x).Keeps id password) :
    (∃ u, x.user? = some u ∧ u.id = id ∧ u.password = password) ∨ p.Keeps id password := by
  rcases h with ⟨u, hu | hu | ⟨y, hy, hu⟩, hid⟩ | h
  · exact .inr (.inl ⟨u, .inl hu, hid⟩)
  · exact .inr (.inl ⟨u, .inr (.inl hu), hid⟩)
  · rcases List.mem_append.1 hy with hy | hy
    · exact .inr (.inl ⟨u, .inr (.inr ⟨y, hy, hu⟩), hid⟩)
    · rw [List.mem_singleton.1 hy] at hu
      exact .inl ⟨u, hu, hid⟩
  · exact .inr (.inr h)

theorem keeps_update {editing : Bool} {new : Option (User D)}
    (h : (p.update editing new).Keeps id password) :
    (∃ u, new = some u ∧ u.id = id ∧ u.password = password) ∨ p.Keeps id password := by
  cases new with
  | none => exact .inr h
  | some u =>
    rcases keeps_send h with ⟨v, hv, hid⟩ | hx | h
    · cases hv
      exact .inl ⟨u, rfl, hid⟩
    · cases hx
    · exact (keeps_saveUser h).imp_left fun hid => ⟨u, rfl, hid⟩

theorem keeps_loadCourseMap {login : Bool} {user : User D}
    (h : (p.loadCourseMap login user).Keeps id password) : p.Keeps id password := by
  unfold loadCourseMap at h
  split at h
  · rcases keeps_wait h with ⟨u, hu, -⟩ | h
    · cases hu
    · exact h
  · exact h

/-- What takes something away or changes what is not kept. -/
theorem keeps_of_subset (h : p'.Keeps id password)
    (huser : ∀ u, p'.userKey = some u → p.userKey = some u)
    (hwrites : ∀ x ∈ p'.writes, ∃ y ∈ p.writes, y.write = x.write)
    (hwaiting : ∀ x ∈ p'.waiting, x ∈ p.waiting) : p.Keeps id password := by
  rcases h with ⟨u, hu | ⟨x, hx, hu⟩ | ⟨x, hx, hu⟩, hid⟩ | ⟨x, hx, hpassword⟩
  · exact .inl ⟨u, .inl (huser u hu), hid⟩
  · obtain ⟨y, hy, hyx⟩ := hwrites x hx
    exact .inl ⟨u, .inr (.inl ⟨y, hy, hyx ▸ hu⟩), hid⟩
  · exact .inl ⟨u, .inr (.inr ⟨x, hwaiting x hx, hu⟩), hid⟩
  · obtain ⟨y, hy, hyx⟩ := hwrites x hx
    exact .inr ⟨y, hy, hyx.trans hpassword⟩

theorem keeps_restart (h : p.restart.Keeps id password) : p.Keeps id password := by
  refine keeps_of_subset h (fun _ hu => hu) (fun x hx => ?_) fun x hx => ?_
  · obtain ⟨y, hy, rfl⟩ := List.mem_map.1 hx
    exact ⟨y, hy, rfl⟩
  · cases hx

theorem keeps_clearData {route : Route}
    (h : ({ p.clearData with route } : Phone D C).Keeps id password) : p.Keeps id password := by
  refine keeps_of_subset h (fun u hu => ?_) (fun x hx => ⟨x, hx, rfl⟩) fun x hx => hx
  cases hu

theorem keeps_resume {x : UserWrite D} (h : (p.resume x).Keeps id password) :
    p.Keeps id password := by
  cases x with
  | update user editing =>
    cases editing with
    | false => exact h
    | true => exact keeps_loadCourseMap h
  | updatePassword k newPassword =>
    rcases keeps_wait h with ⟨u, hu, -⟩ | h
    · cases hu
    · exact h
  | delete k => exact keeps_clearData h

theorem keeps_receive [Floating D] {env : Platform C} {users : Users D} {ok : Bool}
    {x : Waiting D C} (h : (p.receive env users ok x).Keeps id password) :
    (∃ u, (x.user? = some u ∨ u ∈ users.rows) ∧ u.id = id ∧ u.password = password) ∨
      p.Keeps id password := by
  cases x with
  | deleteData user screen =>
    rcases keeps_update h with ⟨u, hu, hid⟩ | h
    · obtain ⟨level, cgpa, rfl⟩ := EditProfileScreen.newUser_eq hu
      exact .inl ⟨user, .inl rfl, hid⟩
    · exact .inr h
  | courseMap login uni faculty course => cases login <;> exact .inr h
  | readBack k =>
    simp only [receive] at h
    split at h
    · next user huser =>
      split_ifs at h
      · rcases keeps_saveUser h with hid | h
        · exact .inl ⟨user, .inr (Table.mem_of_get? huser).1, hid⟩
        · exact .inr h
      · exact .inr h
    · exact .inr h

/-- What an action keeps was kept before, or it has just been chosen. -/
theorem Effect.keeps [Floating D] {env : Platform C} {users : Users D} {a : PhoneAction D C}
    (heffect : p.Effect env users a p') (hphase : p.Phase) (h : p'.Keeps id password) :
    p.Keeps id password ∨ (∃ row ∈ users.rows, row.id = id ∧ row.password = password) ∨
      ∃ q, a.chooses env p = some (id, q) ∧ password = env.hashPassword q := by
  have signedIn : ∀ {u : User D}, p.route = .main → p.auth.user = some u →
      u.id = id ∧ u.password = password → p.Keeps id password :=
    fun {u} hroute huser hid => .inl ⟨u, .inl (hphase.userKey_of_main hroute huser), hid⟩
  cases heffect with
  | nothing => exact .inl h
  | refused => exact .inl h
  | signUp => exact .inl h
  | wrong => exact .inl h
  | logIn user hmem =>
    rcases keeps_saveUser (keeps_loadCourseMap h) with hid | h
    · exact .inr (.inl ⟨user, hmem, hid⟩)
    · exact .inl h
  | logOut => exact .inl (keeps_clearData h)
  | update user new huser hnew hroute =>
    have haccount : new.id = user.id ∧ new.password = user.password :=
      ⟨show new.account.id = user.account.id by rw [hnew],
        show new.account.password = user.account.password by rw [hnew]⟩
    have h : (p.update false (some new)).Keeps id password := h
    rcases keeps_update h with ⟨u, hu, hid⟩ | h
    · cases hu
      exact .inl (signedIn hroute huser (haccount.1 ▸ haccount.2 ▸ hid))
    · exact .inl h
  | edit user screen' huser hroute =>
    rcases keeps_wait h with ⟨u, hu, hid⟩ | h
    · cases hu
      exact .inl (signedIn hroute huser hid)
    · exact .inl h
  | @changePassword password newPassword confirmed user huser hroute hok =>
    rcases keeps_send h with ⟨u, hu, -⟩ | hx | h
    · cases hu
    · cases hx
      refine .inr (.inr ⟨newPassword, ?_, rfl⟩)
      simp only [PhoneAction.chooses, huser, Option.bind_some, hok]
    · exact .inl h
  | deleteAccount user huser hroute =>
    rcases keeps_send h with ⟨u, hu, -⟩ | hx | h
    · cases hu
    · cases hx
    · exact .inl h
  | answer x hx =>
    have hrest : ∀ k, ({ p with waiting := p.waiting.eraseIdx k } : Phone D C).Keeps id password →
        p.Keeps id password :=
      fun k h => keeps_of_subset h (fun _ hu => hu) (fun y hy => ⟨y, hy, rfl⟩)
        fun y hy => List.mem_of_mem_eraseIdx hy
    rcases keeps_receive h with ⟨u, hu | hu, hid⟩ | h
    · exact .inl (.inl ⟨u, .inr (.inr ⟨x, List.mem_of_getElem? hx, hu⟩), hid⟩)
    · exact .inr (.inl ⟨u, hu, hid⟩)
    · exact .inl (hrest _ h)
  | restart => exact .inl (keeps_restart h)

end Phone

/-- A document has its password from the document before it or from the write. -/
theorem UserWrite.keeps_apply {x : UserWrite D} {users users' : Users D}
    (h : x.apply users = some users') {row : User D} (hrow : row ∈ users'.rows) :
    (∃ old ∈ users.rows, old.id = row.id ∧ old.password = row.password) ∨ x.user? = some row ∨
      x = .updatePassword row.id row.password := by
  cases x with
  | update user editing =>
    obtain ⟨-, -, rfl⟩ := Option.map_eq_some_iff.1 h
    rcases Table.mem_set.1 hrow with rfl | ⟨hrow, -⟩
    · exact .inr (.inl rfl)
    · exact .inl ⟨row, hrow, rfl, rfl⟩
  | updatePassword id newPassword =>
    obtain ⟨old, hold, rfl⟩ := Option.map_eq_some_iff.1 h
    rcases Table.mem_set.1 hrow with rfl | ⟨hrow, -⟩
    · obtain ⟨-, rfl⟩ := Table.mem_of_get? hold
      exact .inr (.inr rfl)
    · exact .inl ⟨row, hrow, rfl, rfl⟩
  | delete id =>
    cases h
    exact .inl ⟨row, (Table.mem_erase.1 hrow).1, rfl, rfl⟩

namespace Service

variable {w w' : Service ι D C} {env : Platform C}

/-- What a submit keeps is what it has hashed. -/
theorem Submitted.keeps {p p' : Phone D C} {users : Users D} (h : w.Submitted env p users p')
    (hroute : p.route = .fillProfile) {id password : String} (hkeeps : p'.Keeps id password) :
    p.Keeps id password ∨ ∃ u, Submits env p u ∧ u.id = id ∧ u.password = password := by
  cases h with
  | nothing => exact .inl hkeeps
  | killed => exact .inl (Phone.keeps_restart hkeeps)
  | rejected user filled => exact .inl hkeeps
  | stored user filled data huser hkept hfilled hpassword =>
    have hkeeps : (p.saveUser filled).Keeps id password := hkeeps
    rcases Phone.keeps_saveUser hkeeps with hid | hkeeps
    · exact .inr
        ⟨filled, ⟨user, ⟨hroute, huser⟩, (congrArg Identity.id hkept).symm, hpassword⟩, hid⟩
    · exact .inl hkeeps
  | storedKilled user filled => exact .inl (Phone.keeps_restart hkeeps)

/-- Something the installations had, or what was typed, or what a submit has hashed. -/
theorem keeps_step [DecidableEq ι] [Floating D] {a : ServiceAction ι D C} (hsound : w.Sound)
    (hstep : w.step env a = some w') {id password : String} (h : w'.Keeps id password) :
    w.Keeps id password ∨
      (∃ q, (id, q) ∈ a.chooses env w ∧ password = env.hashPassword q) ∨
      ∃ i u, Submits env (w.phones i) u ∧ u.id = id ∧ u.password = password := by
  cases a with
  | on i a =>
    obtain ⟨p, heffect, -, rfl⟩ := step_on hstep
    rcases h with hrow | ⟨j, h⟩
    · exact .inl (.inl hrow)
    · rcases phones_setPhone (P := fun p => p.Keeps id password) h with ⟨rfl, hp⟩ | ⟨-, hp⟩
      · rcases heffect.keeps (hsound.phase j) hp with hp | hrow | ⟨q, hq, hpassword⟩
        · exact .inl (.inr ⟨j, hp⟩)
        · exact .inl (.inl hrow)
        · exact .inr (.inl ⟨q, by simp [ServiceAction.chooses, hq], hpassword⟩)
      · exact .inl (.inr ⟨j, hp⟩)
  | submit i screen accepted killed =>
    obtain ⟨hroute, users, p, hsubmit, rfl⟩ := step_submit hstep
    rcases h with ⟨row, hrow, hid⟩ | ⟨j, h⟩
    · rcases (hsubmit.signsUp (u := row) hroute).2 row hrow with hrow | ⟨hsubmits, -⟩
      · exact .inl (.inl ⟨row, hrow, hid⟩)
      · exact .inr (.inr ⟨i, row, hsubmits, hid⟩)
    · rcases phones_setPhone (P := fun p => p.Keeps id password) h with ⟨rfl, hp⟩ | ⟨-, hp⟩
      · rcases hsubmit.keeps hroute hp with hp | hsubmits
        · exact .inl (.inr ⟨j, hp⟩)
        · exact .inr (.inr ⟨j, hsubmits⟩)
      · exact .inl (.inr ⟨j, hp⟩)
  | answerWrite i accepted =>
    left
    obtain ⟨x, rest, hwrites, hcases⟩ := step_answerWrite hstep
    have hmem : x ∈ (w.phones i).writes := by simp [hwrites]
    have hrest : ({ w.phones i with writes := rest } : Phone D C).Keeps id password →
        (w.phones i).Keeps id password :=
      fun h => Phone.keeps_of_subset h (fun _ hu => hu)
        (fun y hy => ⟨y, by simp [hwrites, show y ∈ rest from hy], rfl⟩) fun y hy => hy
    rcases hcases with ⟨-, rfl⟩ | ⟨users, husers, rfl⟩
    · rcases h with hrow | ⟨j, h⟩
      · exact .inl hrow
      · rcases phones_setPhone (P := fun p => p.Keeps id password) h with ⟨rfl, hp⟩ | ⟨-, hp⟩
        · exact .inr ⟨j, hrest hp⟩
        · exact .inr ⟨j, hp⟩
    · rcases h with ⟨row, hrow, rfl, rfl⟩ | ⟨j, h⟩
      · rcases UserWrite.keeps_apply husers hrow with hold | hx | hx
        · exact .inl hold
        · exact .inr ⟨i, .inl ⟨row, .inr (.inl ⟨x, hmem, hx⟩), rfl, rfl⟩⟩
        · exact .inr ⟨i, .inr ⟨x, hmem, hx⟩⟩
      · rcases phones_setPhone (P := fun p => p.Keeps id password) h with ⟨rfl, hp⟩ | ⟨-, hp⟩
        · refine .inr ⟨j, hrest ?_⟩
          split_ifs at hp
          · exact Phone.keeps_resume hp
          · exact hp
        · exact .inr ⟨j, hp⟩

/-! ## Runs -/

/-- The password is one that was chosen for the account, hashed at least `k` times. -/
def Chosen (env : Platform C) (log : List (String × String)) (k : ℕ) (id password : String) :
    Prop :=
  ∃ q n, (id, q) ∈ log ∧ password = env.hashPassword^[n + k] q

variable {log more : List (String × String)} {k : ℕ} {id password : String}

theorem Chosen.append (h : Chosen env log k id password) :
    Chosen env (log ++ more) k id password := by
  obtain ⟨q, n, hq, hpassword⟩ := h
  exact ⟨q, n, List.mem_append_left _ hq, hpassword⟩

theorem Chosen.hash (h : Chosen env log k id password) :
    Chosen env log (k + 1) id (env.hashPassword password) := by
  obtain ⟨q, n, hq, rfl⟩ := h
  exact ⟨q, n, hq, (Function.iterate_succ_apply' _ _ _).symm⟩

/-- Hashing once more is still hashing. -/
theorem Chosen.weaken (h : Chosen env log (k + 1) id password) : Chosen env log k id password := by
  obtain ⟨q, n, hq, rfl⟩ := h
  exact ⟨q, n + 1, hq, by rw [add_right_comm, add_assoc]⟩

/-- What is kept is as it was at the start or has been chosen, and during a sign-up the provider
may hold what was typed. -/
structure Hashed (env : Platform C) (users : Users D) (log : List (String × String))
    (w : Service ι D C) : Prop where
  sound : w.Sound
  keeps : ∀ id password, w.Keeps id password →
    (∃ row ∈ users.rows, row.id = id ∧ row.password = password) ∨ Chosen env log 1 id password
  signUp : ∀ i u, (w.phones i).SignsUp u → Chosen env log 0 u.id u.password

theorem Hashed.start {users : Users D} (hrows : ∀ u ∈ users.rows, u.hasProgramme) :
    Hashed env users [] (start users : Service ι D C) where
  sound := .start hrows
  keeps := by
    rintro id password (hrow | ⟨i, ⟨u, hu | ⟨x, hx, -⟩ | ⟨x, hx, -⟩, -⟩ | ⟨x, hx, -⟩⟩)
    · exact .inl hrow
    · cases hu
    · cases hx
    · cases hx
    · cases hx
  signUp i u hu := absurd hu.1 Route.noConfusion

/-- A submit hashes what the sign-up has. -/
theorem Hashed.submits {users : Users D} (h : Hashed env users log w) {i : ι} {u : User D}
    (hu : Submits env (w.phones i) u) : Chosen env log 1 u.id u.password := by
  obtain ⟨v, hv, hid, hpassword⟩ := hu
  rw [← hid, hpassword]
  exact (h.signUp i v hv).hash

theorem Hashed.step [DecidableEq ι] [Floating D] {users : Users D} {a : ServiceAction ι D C}
    (h : Hashed env users log w) (halone : w.OneAtATime a) (hstep : w.step env a = some w') :
    Hashed env users (log ++ a.chooses env w) w' where
  sound := h.sound.step halone hstep
  keeps := by
    intro id password hkeeps
    rcases keeps_step h.sound hstep hkeeps with hold | ⟨q, hq, rfl⟩ | ⟨i, u, hu, rfl, rfl⟩
    · exact (h.keeps id password hold).imp_right .append
    · exact .inr ⟨q, 0, List.mem_append_right _ hq, rfl⟩
    · exact .inr (h.submits hu).append
  signUp := by
    intro i u hu
    rcases signsUp_step h.sound hstep hu with hold | hsubmits | ⟨⟨form, rfl, hpassword⟩, -⟩
    · exact (h.signUp i u hold).append
    · exact (h.submits hsubmits).weaken.append
    · refine ⟨form.password, 0, List.mem_append_right _ ?_, hpassword⟩
      simp [ServiceAction.chooses, PhoneAction.chooses]

theorem Hashed.run [DecidableEq ι] [Floating D] {users : Users D}
    {as : List (ServiceAction ι D C)} (hrows : ∀ u ∈ users.rows, u.hasProgramme)
    (halone : Machine.Each (Service.step env) OneAtATime as (Service.start users))
    (hrun : Machine.run (Service.step env) as (Service.start users) = some w) :
    Hashed env users (Machine.log (Service.step env) (fun w a => a.chooses env w) as
      (Service.start users)) w :=
  Machine.invariant_log (Hashed env users) OneAtATime (fun _ _ _ _ h => h.step) (.start hrows)
    halone hrun

end Service

/-- Whatever password is kept for an account, in its document or on any installation, is the one
of a document from the start, or it is hashed, once or more often, from one that was chosen for
this account: no password is kept as it was typed, and none for another account. -/
theorem passwords_chosen [DecidableEq ι] [Floating D] {env : Platform C} {users : Users D}
    (hrows : ∀ u ∈ users.rows, u.hasProgramme) {as : List (ServiceAction ι D C)}
    {w : Service ι D C}
    (halone : Machine.Each (Service.step env) Service.OneAtATime as (Service.start users))
    (hrun : Machine.run (Service.step env) as (Service.start users) = some w)
    {id password : String} (hkeeps : w.Keeps id password) :
    (∃ row ∈ users.rows, row.id = id ∧ row.password = password) ∨
      ∃ q n, (id, q) ∈ Machine.log (Service.step env) (fun w a => a.chooses env w) as
        (Service.start users) ∧ password = env.hashPassword^[n + 1] q :=
  (Service.Hashed.run hrows halone hrun).keeps id password hkeeps

/-- Ada changes her password. -/
def adaChanges : List (ServiceAction Bool Double (List Course)) :=
  adaSignsUp false ++ [.on false (.changePassword "password" "password2" "password2"),
    .answerWrite false true]

theorem passwords_chosen_ada : ∃ w row,
    Machine.run (Service.step samplePlatform) adaChanges (Service.start Table.empty) = some w ∧
    row ∈ w.users.rows ∧ ∃ q n, (row.id, q) ∈ Machine.log (Service.step samplePlatform)
      (fun w a => a.chooses samplePlatform w) adaChanges (Service.start Table.empty) ∧
      row.password = sampleHash^[n + 1] q := by
  have hcheck : ((Machine.run (Service.step samplePlatform) adaChanges
      (Service.start Table.empty)).bind fun w => w.users.rows.head?).isSome := by
    decide +kernel
  obtain ⟨row, hrow⟩ := Option.isSome_iff_exists.1 hcheck
  obtain ⟨w, hrun, hrow⟩ := Option.bind_eq_some_iff.1 hrow
  have hmem : row ∈ w.users.rows := List.mem_of_head? hrow
  have hrows : ∀ u ∈ (Table.empty : Users Double).rows, u.hasProgramme :=
    fun u hu => absurd hu List.not_mem_nil
  have halone : Machine.Each (Service.step samplePlatform) Service.OneAtATime adaChanges
      (Service.start Table.empty) := by
    decide +kernel
  refine ⟨w, row, hrun, hmem, ?_⟩
  rcases passwords_chosen hrows halone hrun (.inl ⟨row, hmem, rfl, rfl⟩) with ⟨old, hold, -⟩ | h
  · cases hold
  · exact h

/-- Whoever logs in to an account types what has the hash of a password that was chosen for it,
or of a hash of one, unless the account was there from the start. -/
theorem logIn_chosen [DecidableEq ι] [Floating D] {env : Platform C} {users : Users D}
    (hrows : ∀ u ∈ users.rows, u.hasProgramme) {as : List (ServiceAction ι D C)}
    {w : Service ι D C}
    (halone : Machine.Each (Service.step env) Service.OneAtATime as (Service.start users))
    (hrun : Machine.run (Service.step env) as (Service.start users) = some w)
    {email password : String} {user : User D}
    (hlogin : LoginFunction.login env.hashPassword email password w.users = .ok user) :
    (∃ row ∈ users.rows, row.id = user.id ∧ row.password = env.hashPassword password) ∨
      ∃ q n, (user.id, q) ∈ Machine.log (Service.step env) (fun w a => a.chooses env w) as
        (Service.start users) ∧ env.hashPassword password =
          env.hashPassword (env.hashPassword^[n] q) := by
  obtain ⟨hrow, hpassword⟩ := LoginFunction.mem_of_login hlogin
  rcases (Service.Hashed.run hrows halone hrun).keeps user.id user.password
    (.inl ⟨user, hrow, rfl, rfl⟩) with ⟨row, hmem, hid, hsame⟩ | ⟨q, n, hq, hhash⟩
  · exact .inl ⟨row, hmem, hid, hsame.trans hpassword⟩
  · refine .inr ⟨q, n, hq, ?_⟩
    rw [← hpassword, hhash, Function.iterate_succ_apply']

/-- She logs in with the new one. -/
theorem logIn_chosen_ada : ∃ w user,
    Machine.run (Service.step samplePlatform) adaChanges (Service.start Table.empty) = some w ∧
    LoginFunction.login sampleHash "ada@x.com" "password2" w.users = .ok user ∧
    ∃ q n, (user.id, q) ∈ Machine.log (Service.step samplePlatform)
      (fun w a => a.chooses samplePlatform w) adaChanges (Service.start Table.empty) ∧
      sampleHash "password2" = sampleHash (sampleHash^[n] q) := by
  have hcheck : ((Machine.run (Service.step samplePlatform) adaChanges
      (Service.start Table.empty)).bind fun w =>
        (LoginFunction.login sampleHash "ada@x.com" "password2" w.users).toOption).isSome := by
    decide +kernel
  obtain ⟨user, huser⟩ := Option.isSome_iff_exists.1 hcheck
  obtain ⟨w, hrun, huser⟩ := Option.bind_eq_some_iff.1 huser
  have hlogin : LoginFunction.login sampleHash "ada@x.com" "password2" w.users = .ok user := by
    cases h : LoginFunction.login sampleHash "ada@x.com" "password2" w.users with
    | error message =>
      rw [h] at huser
      cases huser
    | ok found =>
      rw [h] at huser
      exact congrArg _ (Option.some.inj huser)
  have hrows : ∀ u ∈ (Table.empty : Users Double).rows, u.hasProgramme :=
    fun u hu => absurd hu List.not_mem_nil
  have halone : Machine.Each (Service.step samplePlatform) Service.OneAtATime adaChanges
      (Service.start Table.empty) := by
    decide +kernel
  refine ⟨w, user, hrun, hlogin, ?_⟩
  rcases logIn_chosen hrows halone hrun hlogin with ⟨old, hold, -⟩ | h
  · cases hold
  · exact h

end StudyStats
