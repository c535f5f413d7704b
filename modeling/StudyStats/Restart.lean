import StudyStats.Identity

/-!
# Killing and opening the app

The provider is only in memory. What it knows of the signed-in user is also in the box, and the
splash screen reads it back. A log-in stores the user before it asks for the course map, so an
app that is killed in between has a user without a course map, and its splash screen throws at
every start.

## Main results

* `restart_iff` — when a restart gives back what there was, and when it gets stuck.
-/

namespace StudyStats

open Dart

variable {ι D C : Type}

/-- The handler is a log-in that waits for its course map. -/
def Waiting.login : Waiting D C → Bool
  | courseMap login .. => login
  | deleteData .. | readBack _ => false

namespace Phone

variable {p p' : Phone D C}

/-! ## Phases -/

/-- Where an installation may be, with what its box holds. -/
inductive Phase (p : Phone D C) : Prop
  | signedOut (hroute : p.route = .welcome ∨ p.route = .fillProfile) (hbusy : p.busy = 0)
      (huser : p.userKey = none) (hdata : p.courseData = none)
  /-- The course map has been asked for. -/
  | loggingIn (user : User D) (uni faculty course : String) (hroute : p.route = .welcome)
      (hwaiting : p.waiting = [.courseMap true uni faculty course]) (hbusy : p.busy = 1)
      (hauth : p.auth.user = some user) (huser : p.userKey = some user)
      (hdata : p.courseData = none)
  | signedIn (user : User D) (data : CourseData C) (hroute : p.route = .main) (hbusy : p.busy ≤ 1)
      (hauth : p.auth = ⟨some user, some data⟩) (huser : p.userKey = some user)
      (hdata : p.courseData = some data)
  | stuck (user : User D) (hroute : p.route = .splash) (hbusy : p.busy = 0)
      (huser : p.userKey = some user) (hdata : p.courseData = none)

theorem Phase.new : (new : Phone D C).Phase := .signedOut (.inl rfl) rfl rfl rfl

/-! ## How many handlers there are -/

theorem waiting_eq_nil (h : p.busy = 0) : p.waiting = [] := by
  unfold busy at h
  exact List.length_eq_zero_iff.1 (by omega)

theorem busy_send (x : UserWrite D) (p : Phone D C) :
    (p.send x).busy = p.busy + if PendingWrite.settled ⟨x, true⟩ then 0 else 1 := by
  cases hsettled : PendingWrite.settled ⟨x, true⟩ <;>
    simp [busy, send, List.countP_append, hsettled, add_assoc]

theorem busy_wait (x : Waiting D C) (p : Phone D C) : (p.wait x).busy = p.busy + 1 := by
  simp [busy, wait, add_right_comm]

theorem busy_loadCourseMap_le (login : Bool) (user : User D) (p : Phone D C) :
    (p.loadCourseMap login user).busy ≤ p.busy + 1 := by
  unfold loadCourseMap
  split
  · exact (busy_wait _ p).le
  · exact Nat.le_succ _

theorem loadCourseMap_same (login : Bool) (user : User D) (p : Phone D C) :
    (p.loadCourseMap login user).route = p.route ∧ (p.loadCourseMap login user).auth = p.auth ∧
      (p.loadCourseMap login user).userKey = p.userKey ∧
      (p.loadCourseMap login user).courseData = p.courseData := by
  unfold loadCourseMap
  split <;> exact ⟨rfl, rfl, rfl, rfl⟩

/-- Taking the first write off the queue takes its handler with it. -/
theorem busy_rest {x : PendingWrite D} {rest : List (PendingWrite D)} (h : p.writes = x :: rest) :
    p.busy = ({ p with writes := rest } : Phone D C).busy + if x.settled then 0 else 1 := by
  cases hsettled : x.settled <;> simp [busy, h, hsettled, add_assoc]

theorem busy_eraseIdx {k : ℕ} {x : Waiting D C} (h : p.waiting[k]? = some x) :
    p.busy = ({ p with waiting := p.waiting.eraseIdx k } : Phone D C).busy + 1 := by
  obtain ⟨hk, -⟩ := List.getElem?_eq_some_iff.1 h
  simp only [busy, List.length_eraseIdx_of_lt hk]
  omega

theorem busy_restart (p : Phone D C) : p.restart.busy = 0 := by
  have hnone : (p.writes.map PendingWrite.orphan).countP (fun x => !x.settled) = 0 := by
    rw [List.countP_eq_zero]
    intro x hx
    obtain ⟨y, -, rfl⟩ := List.mem_map.1 hx
    simp [PendingWrite.orphan, PendingWrite.settled]
  simpa [busy, restart] using hnone

/-! ## Steps -/

/-- Whatever the phase, a restart leads to one. -/
theorem Phase.restart (h : p.Phase) : p.restart.Phase := by
  have hbusy := busy_restart p
  cases h with
  | signedOut hroute _ huser hdata =>
    exact .signedOut (.inl (by simp [Phone.restart, splash, huser])) hbusy huser hdata
  | loggingIn user uni faculty course _ _ _ _ huser hdata =>
    exact .stuck user (by simp [Phone.restart, splash, huser, hdata]) hbusy huser hdata
  | signedIn user data _ _ _ huser hdata =>
    exact .signedIn user data (by simp [Phone.restart, splash, huser, hdata]) (by omega)
      (by simp [Phone.restart, splash, huser, hdata]) huser hdata
  | stuck user _ _ huser hdata =>
    exact .stuck user (by simp [Phone.restart, splash, huser, hdata]) hbusy huser hdata

/-- On the main screen only the last phase but one is left. -/
theorem Phase.of_main (h : p.Phase) (hroute : p.route = .main) : ∃ user data, p.busy ≤ 1 ∧
    p.auth = ⟨some user, some data⟩ ∧ p.userKey = some user ∧ p.courseData = some data := by
  cases h with
  | signedIn user data _ hbusy hauth huser hdata => exact ⟨user, data, hbusy, hauth, huser, hdata⟩
  | signedOut hroute' => grind
  | loggingIn user uni faculty course hroute' => grind
  | stuck user hroute' => grind

/-- On the main screen the user in the provider is the one in the box. -/
theorem Phase.userKey_of_main {user : User D} (h : p.Phase) (hroute : p.route = .main)
    (huser : p.auth.user = some user) : p.userKey = some user := by
  obtain ⟨old, data, -, hauth, hkey, -⟩ := h.of_main hroute
  rw [hauth] at huser
  exact hkey.trans huser

/-- Before a sign-up or a log-in nobody is signed in. -/
theorem Phase.of_out (h : p.Phase) (hroute : p.route = .welcome ∨ p.route = .fillProfile)
    (hbusy : p.busy = 0) : p.userKey = none ∧ p.courseData = none := by
  cases h with
  | signedOut _ _ huser hdata => exact ⟨huser, hdata⟩
  | loggingIn user uni faculty course _ _ hbusy' => omega
  | signedIn user data hroute' => grind
  | stuck user hroute' => grind

/-- The box follows the provider when a user is saved on the main screen. -/
theorem Phase.saveUser (h : p.Phase) (hroute : p.route = .main) (user : User D) :
    (p.saveUser user).Phase := by
  obtain ⟨old, data, hbusy, hauth, -, hdata⟩ := h.of_main hroute
  exact .signedIn user data hroute hbusy (by simp [Phone.saveUser, hauth]) rfl hdata

/-- A handler more, on the main screen. -/
theorem Phase.of_busy (h : p.Phase) (hroute : p.route = .main) (hsame : p'.route = p.route ∧
    p'.auth = p.auth ∧ p'.userKey = p.userKey ∧ p'.courseData = p.courseData)
    (hbusy : p'.busy ≤ 1) : p'.Phase := by
  obtain ⟨user, data, -, hauth, huser, hdata⟩ := h.of_main hroute
  obtain ⟨hroute', hauth', huser', hdata'⟩ := hsame
  exact .signedIn user data (hroute'.trans hroute) hbusy (hauth'.trans hauth)
    (huser'.trans huser) (hdata'.trans hdata)

theorem exists_programme {user : User D} (h : user.hasProgramme) : ∃ uni faculty course,
    user.university = some uni ∧ user.faculty = some faculty ∧ user.course = some course := by
  simp only [User.hasProgramme, Bool.and_eq_true, Option.isSome_iff_exists] at h
  obtain ⟨⟨⟨uni, huni⟩, faculty, hfaculty⟩, course, hcourse⟩ := h
  exact ⟨uni, faculty, course, huni, hfaculty, hcourse⟩

theorem Phase.logIn (h : p.Phase) (hroute : p.route = .welcome ∨ p.route = .fillProfile)
    (hbusy : p.busy = 0) {user : User D} (hprogramme : user.hasProgramme) :
    (({ p with route := .welcome }.saveUser user).loadCourseMap true user).Phase := by
  obtain ⟨-, hdata⟩ := h.of_out hroute hbusy
  obtain ⟨uni, faculty, course, huni, hfaculty, hcourse⟩ := exists_programme hprogramme
  have hwait : ({ p with route := .welcome }.saveUser user).loadCourseMap true user =
      ({ p with route := .welcome }.saveUser user).wait (.courseMap true uni faculty course) := by
    simp only [loadCourseMap, huni, hfaculty, hcourse]
  rw [hwait]
  refine .loggingIn user uni faculty course rfl ?_ ?_ rfl rfl hdata
  · simp [wait, Phone.saveUser, waiting_eq_nil hbusy]
  · rw [busy_wait, Nat.add_eq_right]
    exact hbusy

/-- The answer to a handler. Signed out nothing waits, and a log-in waits for its course map. -/
theorem Phase.receive [Floating D] (h : p.Phase) {k : ℕ} {x : Waiting D C}
    (hx : p.waiting[k]? = some x) (env : Platform C) (users : Users D) (ok : Bool) :
    ({ p with waiting := p.waiting.eraseIdx k }.receive env users ok x).Phase := by
  have hbusy := busy_eraseIdx hx
  by_cases hroute : p.route = .main
  · obtain ⟨user, data, hle, hauth, huser, -⟩ := h.of_main hroute
    have hzero : ({ p with waiting := p.waiting.eraseIdx k } : Phone D C).busy = 0 := by omega
    have hrest : ({ p with waiting := p.waiting.eraseIdx k } : Phone D C).Phase :=
      h.of_busy hroute ⟨rfl, rfl, rfl, rfl⟩ (by omega)
    cases x with
    | deleteData old screen =>
      simp only [Phone.receive, update]
      split
      · exact hrest
      · next new hnew =>
        refine (hrest.saveUser hroute new).of_busy hroute ⟨rfl, rfl, rfl, rfl⟩ ?_
        have hsaved : (({ p with waiting := p.waiting.eraseIdx k } : Phone D C).saveUser new).busy =
            0 := hzero
        rw [busy_send, hsaved]
        split_ifs <;> omega
    | courseMap login uni faculty course =>
      have hone : ({ p with waiting := p.waiting.eraseIdx k } : Phone D C).busy ≤ 1 := by omega
      cases login with
      | true =>
        exact .signedIn user _ rfl hone (by simp [Phone.receive, saveCourseData, hauth]) huser rfl
      | false =>
        exact .signedIn user _ hroute hone (by simp [Phone.receive, saveCourseData, hauth]) huser
          rfl
    | readBack id =>
      simp only [Phone.receive]
      split
      · split_ifs
        · exact hrest.saveUser hroute _
        · exact hrest
      · exact hrest
  · cases h with
    | signedOut _ hbusy' => omega
    | signedIn user data hroute' => exact absurd hroute' hroute
    | stuck user _ hbusy' => omega
    | loggingIn user uni faculty course _ hwaiting hbusy' hauth huser =>
      have hzero : ({ p with waiting := p.waiting.eraseIdx k } : Phone D C).busy = 0 := by omega
      rw [hwaiting] at hx
      obtain ⟨rfl, rfl⟩ : k = 0 ∧ .courseMap true uni faculty course = x := by
        cases k with
        | zero => exact ⟨rfl, Option.some.inj hx⟩
        | succ k => cases hx
      refine .signedIn user _ rfl (le_of_eq_of_le hzero zero_le_one) ?_ huser rfl
      simp [Phone.receive, saveCourseData, hauth]

/-- The box and the provider agree after every action that begins when nothing is under way. -/
theorem Effect.phase [Floating D] {env : Platform C} {users : Users D} {a : PhoneAction D C}
    (heffect : p.Effect env users a p') (h : p.Phase)
    (hbegins : a.begins = true → p.busy = 0) (hrows : ∀ u ∈ users.rows, u.hasProgramme) :
    p'.Phase := by
  cases heffect with
  | nothing => exact h
  | refused => exact h
  | signUp image hroute =>
    obtain ⟨huser, hdata⟩ := h.of_out hroute (hbegins rfl)
    exact .signedOut (.inr rfl) (hbegins rfl) huser hdata
  | wrong hroute =>
    obtain ⟨huser, hdata⟩ := h.of_out hroute (hbegins rfl)
    exact .signedOut (.inl rfl) (hbegins rfl) huser hdata
  | logIn user hmem hroute => exact h.logIn hroute (hbegins rfl) (hrows user hmem)
  | logOut hroute => exact .signedOut (.inl rfl) (hbegins rfl) rfl rfl
  | update user new huser hnew hroute =>
    obtain ⟨-, -, hbusy, -⟩ := h.of_main hroute
    refine (h.saveUser hroute new).of_busy hroute ⟨rfl, rfl, rfl, rfl⟩ ?_
    rw [busy_send]
    exact hbusy
  | edit user screen' huser hroute =>
    refine h.of_busy hroute ⟨rfl, rfl, rfl, rfl⟩ ?_
    rw [busy_wait, hbegins rfl]
  | changePassword user huser hroute =>
    refine h.of_busy hroute ⟨rfl, rfl, rfl, rfl⟩ ?_
    rw [busy_send, hbegins rfl]
    split_ifs <;> omega
  | deleteAccount user huser hroute =>
    refine h.of_busy hroute ⟨rfl, rfl, rfl, rfl⟩ ?_
    rw [busy_send, hbegins rfl]
    split_ifs <;> omega
  | answer x hx => exact h.receive hx env users _
  | restart => exact h.restart

/-- An answered write and its handler are off the list. -/
theorem Phase.rest (h : p.Phase) {x : PendingWrite D} {rest : List (PendingWrite D)}
    (hwrites : p.writes = x :: rest) : ({ p with writes := rest } : Phone D C).Phase := by
  have hbusy := busy_rest hwrites
  cases h with
  | signedOut hroute hbusy' huser hdata => exact .signedOut hroute (by omega) huser hdata
  | loggingIn user uni faculty course hroute hwaiting hbusy' hauth huser hdata =>
    have hone : 1 ≤ ({ p with writes := rest } : Phone D C).busy := by simp [busy, hwaiting]
    exact .loggingIn user uni faculty course hroute hwaiting (by omega) hauth huser hdata
  | signedIn user data hroute hbusy' hauth huser hdata =>
    exact .signedIn user data hroute (by omega) hauth huser hdata
  | stuck user hroute hbusy' huser hdata => exact .stuck user hroute (by omega) huser hdata

/-- Only on the main screen is there a handler that goes on after a write. -/
theorem Phase.resume (h : p.Phase) {x : PendingWrite D} {rest : List (PendingWrite D)}
    (hwrites : p.writes = x :: rest) (hawaited : x.awaited = true) :
    (({ p with writes := rest } : Phone D C).resume x.write).Phase := by
  have hrest := h.rest hwrites
  obtain ⟨write, awaited⟩ := x
  obtain rfl : awaited = true := hawaited
  cases hsettled : PendingWrite.settled ⟨write, true⟩ with
  | true =>
    -- a plain write of the whole document
    cases write with
    | update user editing =>
      cases editing with
      | false => exact hrest
      | true => cases hsettled
    | updatePassword id newPassword => cases hsettled
    | delete id => cases hsettled
  | false =>
    have hbusy := busy_rest hwrites
    rw [hsettled, if_neg nofun] at hbusy
    have hmain : p.route = .main := by
      cases h with
      | signedOut _ hbusy' => omega
      | loggingIn user uni faculty course _ hwaiting hbusy' =>
        have hone : 1 ≤ ({ p with writes := rest } : Phone D C).busy := by simp [busy, hwaiting]
        omega
      | signedIn user data hroute => exact hroute
      | stuck user _ hbusy' => omega
    obtain ⟨user, data, hle, hauth, huser, hdata⟩ := h.of_main hmain
    have hzero : ({ p with writes := rest } : Phone D C).busy = 0 := by omega
    cases write with
    | update user editing =>
      cases editing with
      | false => cases hsettled
      | true =>
        have hbusy' := busy_loadCourseMap_le false user ({ p with writes := rest } : Phone D C)
        rw [hzero] at hbusy'
        exact hrest.of_busy hmain (loadCourseMap_same false user _) hbusy'
    | updatePassword id newPassword =>
      refine hrest.of_busy hmain ⟨rfl, rfl, rfl, rfl⟩ ?_
      rw [Phone.resume, busy_wait, hzero]
    | delete id => exact .signedOut (.inl rfl) hzero rfl rfl

/-! ## Programmes -/

/-- Every user that was stored has a programme. -/
def Enrolled (p : Phone D C) : Prop :=
  ∀ u, (p.userKey = some u ∨ ∃ x ∈ p.writes, x.write.user? = some u) → u.hasProgramme

theorem Enrolled.update (h : p.Enrolled) {new : User D} (hnew : new.hasProgramme)
    (editing : Bool) : ((p.saveUser new).send (.update new editing)).Enrolled := by
  rintro u (hu | ⟨x, hx, hu⟩)
  · cases hu
    exact hnew
  · rcases List.mem_append.1 hx with hx | hx
    · exact h u (.inr ⟨x, hx, hu⟩)
    · rw [List.mem_singleton.1 hx] at hu
      cases hu
      exact hnew

/-- Writes without a user change nothing. -/
theorem Enrolled.send (h : p.Enrolled) {x : UserWrite D} (hx : x.user? = none) :
    (p.send x).Enrolled := by
  rintro u (hu | ⟨y, hy, hu⟩)
  · exact h u (.inl hu)
  · rcases List.mem_append.1 hy with hy | hy
    · exact h u (.inr ⟨y, hy, hu⟩)
    · rw [List.mem_singleton.1 hy, hx] at hu
      cases hu

/-- Nor does what leaves the box and the writes, or takes something away. -/
theorem Enrolled.of_subset (h : p.Enrolled) (huser : ∀ u ∈ p'.userKey, p.userKey = some u)
    (hwrites : ∀ x ∈ p'.writes, ∃ y ∈ p.writes, y.write = x.write) : p'.Enrolled := by
  rintro u (hu | ⟨x, hx, hu⟩)
  · exact h u (.inl (huser u hu))
  · obtain ⟨y, hy, hyx⟩ := hwrites x hx
    exact h u (.inr ⟨y, hy, hyx ▸ hu⟩)

theorem Enrolled.same (h : p.Enrolled) (huser : p'.userKey = p.userKey)
    (hwrites : p'.writes = p.writes) : p'.Enrolled :=
  h.of_subset (fun _ hu => huser ▸ hu) fun x hx => ⟨x, hwrites ▸ hx, rfl⟩

theorem Enrolled.loadCourseMap (h : p.Enrolled) (login : Bool) (user : User D) :
    (p.loadCourseMap login user).Enrolled := by
  unfold Phone.loadCourseMap
  split
  · exact h.same rfl rfl
  · exact h

theorem Enrolled.saveUser (h : p.Enrolled) {user : User D} (huser : user.hasProgramme) :
    (p.saveUser user).Enrolled := by
  rintro u (hu | hu)
  · cases hu
    exact huser
  · exact h u (.inr hu)

theorem Enrolled.restart (h : p.Enrolled) : p.restart.Enrolled := by
  refine h.of_subset (fun _ hu => hu) fun x hx => ?_
  obtain ⟨y, hy, rfl⟩ := List.mem_map.1 hx
  exact ⟨y, hy, rfl⟩

theorem Effect.enrolled [Floating D] {env : Platform C} {users : Users D} {a : PhoneAction D C}
    (heffect : p.Effect env users a p') (h : p.Enrolled) (hphase : p.Phase)
    (hrows : ∀ u ∈ users.rows, u.hasProgramme) : p'.Enrolled := by
  cases heffect with
  | nothing => exact h
  | refused => exact h
  | signUp => exact h.same rfl rfl
  | wrong => exact h.same rfl rfl
  | logIn user hmem =>
    have hwelcome : ({ p with route := .welcome } : Phone D C).Enrolled := h.same rfl rfl
    exact (hwelcome.saveUser (hrows user hmem)).loadCourseMap true user
  | logOut => exact h.of_subset nofun fun x hx => ⟨x, hx, rfl⟩
  | update user new huser hnew hroute =>
    obtain ⟨old, data, -, hauth, hkey, -⟩ := hphase.of_main hroute
    rw [hauth, Option.some.injEq] at huser
    refine h.update ?_ false
    rw [User.hasProgramme_of_account hnew, ← huser]
    exact h old (.inl hkey)
  | edit => exact h.same rfl rfl
  | changePassword => exact h.send rfl
  | deleteAccount => exact h.send rfl
  | answer x =>
    have hrest : ∀ k, ({ p with waiting := p.waiting.eraseIdx k } : Phone D C).Enrolled :=
      fun k => h.same rfl rfl
    cases x with
    | deleteData user screen =>
      simp only [Phone.receive, Phone.update]
      split
      · exact hrest _
      · next new hnew =>
        obtain ⟨level, cgpa, rfl⟩ := EditProfileScreen.newUser_eq hnew
        exact (hrest _).update rfl true
    | courseMap login uni faculty course => cases login <;> exact h.same rfl rfl
    | readBack id =>
      simp only [Phone.receive]
      split
      · next user huser =>
        split_ifs
        · exact (hrest _).saveUser (hrows user (Table.mem_of_get? huser).1)
        · exact hrest _
      · exact hrest _
  | restart => exact h.restart

theorem Enrolled.resume (h : p.Enrolled) (x : UserWrite D) : (p.resume x).Enrolled := by
  cases x with
  | update user editing =>
    cases editing with
    | false => exact h
    | true => exact h.loadCourseMap false user
  | updatePassword id newPassword => exact h.same rfl rfl
  | delete id => exact h.of_subset nofun fun x hx => ⟨x, hx, rfl⟩

end Phone

namespace Service

/-- Box and provider fit together everywhere, and every document has a programme. -/
structure Sound (w : Service ι D C) : Prop where
  phase : ∀ i, (w.phones i).Phase
  enrolled : ∀ i, (w.phones i).Enrolled
  rows : ∀ u ∈ w.users.rows, u.hasProgramme

variable {w w' : Service ι D C}

theorem Sound.start {users : Users D} (hrows : ∀ u ∈ users.rows, u.hasProgramme) :
    (start users : Service ι D C).Sound where
  phase _ := Phone.Phase.new
  enrolled := by
    rintro i u (hu | ⟨x, hx, -⟩)
    · cases hu
    · cases hx
  rows := hrows

theorem Sound.setPhone [DecidableEq ι] (h : w.Sound) {i : ι} {p : Phone D C} {users : Users D}
    {issued : List String} (hphase : p.Phase) (henrolled : p.Enrolled)
    (hrows : ∀ u ∈ users.rows, u.hasProgramme) :
    Sound { w.setPhone i p with users, issued } := by
  have hall : ∀ {P : Phone D C → Prop}, P p → (∀ j, P (w.phones j)) →
      ∀ j, P (Function.update w.phones i p j) := by
    intro P hp hold j
    by_cases hj : j = i
    · subst hj
      rwa [Function.update_self]
    · rw [Function.update_of_ne hj]
      exact hold j
  exact ⟨hall hphase h.phase, hall henrolled h.enrolled, hrows⟩

theorem rows_set {users : Users D} {user : User D} (hrows : ∀ u ∈ users.rows, u.hasProgramme)
    (huser : user.hasProgramme) : ∀ u ∈ (users.set user).rows, u.hasProgramme := by
  intro u hu
  rcases Table.mem_set.1 hu with rfl | ⟨hu, -⟩
  · exact huser
  · exact hrows u hu

theorem Submitted.sound {env : Platform C} {p p' : Phone D C} {users : Users D}
    (hsubmit : w.Submitted env p users p')
    (hphase : p.Phase) (henrolled : p.Enrolled) (hrows : ∀ u ∈ w.users.rows, u.hasProgramme)
    (hroute : p.route = .fillProfile) (hbusy : p.busy = 0) :
    p'.Phase ∧ p'.Enrolled ∧ ∀ u ∈ users.rows, u.hasProgramme := by
  obtain ⟨huser, hdata⟩ := hphase.of_out (.inr hroute) hbusy
  cases hsubmit with
  | nothing => exact ⟨hphase, henrolled, hrows⟩
  | killed => exact ⟨hphase.restart, henrolled.restart, hrows⟩
  | rejected => exact ⟨.signedOut (.inr hroute) hbusy huser hdata, henrolled.same rfl rfl, hrows⟩
  | stored user filled data _ _ hfilled =>
    refine ⟨.signedIn filled data rfl (le_of_eq_of_le hbusy zero_le_one) rfl rfl rfl, ?_,
      rows_set hrows hfilled⟩
    rintro u (hu | hu)
    · cases hu
      exact hfilled
    · exact henrolled u (.inr hu)
  | storedKilled user filled _ _ hfilled =>
    exact ⟨hphase.restart, henrolled.restart, rows_set hrows hfilled⟩

theorem rows_apply {x : UserWrite D} {users users' : Users D} (h : x.apply users = some users')
    (hrows : ∀ u ∈ users.rows, u.hasProgramme) (hx : ∀ u, x.user? = some u → u.hasProgramme) :
    ∀ u ∈ users'.rows, u.hasProgramme := by
  cases x with
  | update user editing =>
    obtain ⟨-, -, rfl⟩ := Option.map_eq_some_iff.1 h
    exact rows_set hrows (hx user rfl)
  | updatePassword id newPassword =>
    obtain ⟨user, huser, rfl⟩ := Option.map_eq_some_iff.1 h
    exact rows_set hrows (hrows user (Table.mem_of_get? huser).1)
  | delete id =>
    cases h
    exact fun u hu => hrows u (Table.mem_erase.1 hu).1

theorem Sound.step [DecidableEq ι] [Floating D] {env : Platform C} {a : ServiceAction ι D C}
    (h : w.Sound) (halone : w.OneAtATime a) (hstep : w.step env a = some w') : w'.Sound := by
  cases a with
  | on i a =>
    obtain ⟨p, heffect, -, rfl⟩ := step_on hstep
    exact h.setPhone (heffect.phase (h.phase i) halone h.rows)
      (heffect.enrolled (h.enrolled i) (h.phase i) h.rows) h.rows
  | submit i screen accepted killed =>
    obtain ⟨hroute, users, p, hsubmit, rfl⟩ := step_submit hstep
    obtain ⟨hphase, henrolled, hrows⟩ :=
      hsubmit.sound (h.phase i) (h.enrolled i) h.rows hroute halone
    exact h.setPhone hphase henrolled hrows
  | answerWrite i accepted =>
    obtain ⟨x, rest, hwrites, hcases⟩ := step_answerWrite hstep
    have hphase := (h.phase i).rest hwrites
    have henrolled : ({ w.phones i with writes := rest } : Phone D C).Enrolled :=
      (h.enrolled i).of_subset (fun _ hu => hu) fun y hy => ⟨y, by simp [hwrites, hy], rfl⟩
    rcases hcases with ⟨-, rfl⟩ | ⟨users, husers, rfl⟩
    · have hsound : Sound { w.setPhone i { w.phones i with writes := rest } with
          users := w.users, issued := w.issued } := h.setPhone hphase henrolled h.rows
      exact hsound
    · have hrows := rows_apply husers h.rows fun u hu =>
        h.enrolled i u (.inr ⟨x, by simp [hwrites], hu⟩)
      by_cases hawaited : x.awaited = true
      · rw [if_pos hawaited]
        exact h.setPhone ((h.phase i).resume hwrites hawaited) (henrolled.resume x.write) hrows
      · rw [if_neg hawaited]
        exact h.setPhone hphase henrolled hrows

end Service

/-- The splash screen after a restart gives the signed-in user and the course map back as they
were. It throws, now and at every later start, exactly if a log-in was waiting for its course
map. -/
theorem restart_iff [DecidableEq ι] [Floating D] {env : Platform C} {users : Users D}
    (hrows : ∀ u ∈ users.rows, u.hasProgramme) {as : List (ServiceAction ι D C)}
    {w : Service ι D C}
    (halone : Machine.Each (Service.step env) Service.OneAtATime as (Service.start users))
    (hrun : Machine.run (Service.step env) as (Service.start users) = some w) (i : ι) :
    ((w.phones i).route = .main → (w.phones i).splash = (.main, (w.phones i).auth)) ∧
    ((w.phones i).splash.1 = .splash ↔ (w.phones i).route = .splash ∨
      (w.phones i).route = .welcome ∧ ∃ x ∈ (w.phones i).waiting, x.login = true) := by
  have hsound : w.Sound := Machine.invariant_of_each Service.Sound Service.OneAtATime
    (fun _ _ _ h => h.step) (.start hrows) halone hrun
  cases hsound.phase i with
  | signedOut hroute hbusy huser hdata =>
    have hwaiting := Phone.waiting_eq_nil hbusy
    simp only [Phone.splash, huser, hwaiting, List.not_mem_nil]
    grind
  | loggingIn user uni faculty course hroute hwaiting _ _ huser hdata =>
    simp [Phone.splash, huser, hdata, hroute, hwaiting, Waiting.login]
  | signedIn user data hroute hbusy hauth huser hdata =>
    simp [Phone.splash, huser, hdata, hroute, hauth]
  | stuck user hroute _ huser hdata =>
    simp [Phone.splash, huser, hdata, hroute]

/-- Ada uploads on one installation and logs in on another, where the course map is not there
yet. -/
def adaLogsIn : List (ServiceAction Bool Double (List Course)) :=
  adaSignsUp false ++ [.on false (.incrementUser "4.5"), .on true (.logIn "ada@x.com" "password")]

/-- A restart gives the first one back, and the other one gets stuck. -/
theorem restart_ada : ∃ w, Machine.run (Service.step samplePlatform) adaLogsIn
      (Service.start Table.empty) = some w ∧
    (w.phones false).splash = (.main, (w.phones false).auth) ∧
    (w.phones true).splash.1 = .splash := by
  have hcheck : (Machine.run (Service.step samplePlatform) adaLogsIn
      (Service.start Table.empty)).map (fun w => ((w.phones false).route, (w.phones true).route,
        (w.phones true).waiting.any Waiting.login)) = some (.main, .welcome, true) := by
    decide +kernel
  obtain ⟨w, hrun, hw⟩ := Option.map_eq_some_iff.1 hcheck
  simp only [Prod.mk.injEq, List.any_eq_true] at hw
  obtain ⟨hmain, hwelcome, hlogin⟩ := hw
  have hrows : ∀ u ∈ (Table.empty : Users Double).rows, u.hasProgramme :=
    fun u hu => absurd hu List.not_mem_nil
  have halone : Machine.Each (Service.step samplePlatform) Service.OneAtATime adaLogsIn
      (Service.start Table.empty) := by
    decide +kernel
  exact ⟨w, hrun, (restart_iff hrows halone hrun false).1 hmain,
    (restart_iff hrows halone hrun true).2.2 (.inr ⟨hwelcome, hlogin⟩)⟩

end StudyStats
