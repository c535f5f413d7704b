import StudyStats.Restart

/-!
# Deleted accounts

Only a sign-up adds a document, and under an id of its own. Other installations that are still
signed in to a deleted account go on sending updates, but these are rejected, so the account
does not come back.

## Main results

* `gone_stays` — a document that was there and is gone does not come back.
-/

namespace StudyStats

open Dart

variable {ι D C : Type}

/-! ## Sign-ups under way -/

/-- The installation is on the profile screen of a sign-up, with this user. -/
def Phone.SignsUp (p : Phone D C) (u : User D) : Prop :=
  p.route = .fillProfile ∧ p.auth.user = some u

namespace Phone

variable {p p' : Phone D C} {u : User D}

theorem not_signsUp_restart : ¬p.restart.SignsUp u := by
  rintro ⟨hroute, -⟩
  unfold restart splash at hroute
  dsimp only at hroute
  split at hroute <;> cases hroute

/-- On the profile screen nothing is under way. -/
theorem Phase.busy_of_fillProfile (h : p.Phase) (hroute : p.route = .fillProfile) :
    p.busy = 0 := by
  cases h with
  | signedOut _ hbusy => exact hbusy
  | loggingIn user uni faculty course hroute' => exact absurd (hroute.symm.trans hroute') nofun
  | signedIn user data hroute' => exact absurd (hroute.symm.trans hroute') nofun
  | stuck user hroute' => exact absurd (hroute.symm.trans hroute') nofun

theorem route_receive [Floating D] (env : Platform C) (users : Users D) (ok : Bool)
    (x : Waiting D C) :
    (p.receive env users ok x).route = p.route ∨ (p.receive env users ok x).route = .main := by
  cases x with
  | deleteData user screen =>
    left
    simp only [receive, update]
    split <;> rfl
  | courseMap login uni faculty course =>
    cases login with
    | true => exact .inr rfl
    | false => exact .inl rfl
  | readBack id =>
    left
    simp only [receive]
    split
    · split_ifs <;> rfl
    · rfl

theorem Effect.signsUp [Floating D] {env : Platform C} {users : Users D} {a : PhoneAction D C}
    (heffect : p.Effect env users a p') (h : p.Phase) (hp' : p'.SignsUp u) :
    p.SignsUp u ∨ ∃ form, a = .signUp u.id form ∧ u.password = form.password := by
  obtain ⟨hroute', huser'⟩ := hp'
  have notMain : p.route = .main → p'.route ≠ p.route :=
    fun hmain hsame => absurd (hroute'.symm.trans (hsame.trans hmain)) nofun
  cases heffect with
  | nothing => exact .inl ⟨hroute', huser'⟩
  | refused => exact .inl ⟨hroute', huser'⟩
  | signUp image =>
    cases huser'
    exact .inr ⟨_, rfl, rfl⟩
  | wrong => cases hroute'
  | logIn user =>
    rw [(loadCourseMap_same true user _).1] at hroute'
    cases hroute'
  | logOut => cases hroute'
  | update user new huser hnew hmain => exact absurd rfl (notMain hmain)
  | edit user screen' huser hmain => exact absurd rfl (notMain hmain)
  | changePassword user huser hmain => exact absurd rfl (notMain hmain)
  | deleteAccount user huser hmain => exact absurd rfl (notMain hmain)
  | answer x hx =>
    rcases route_receive (p := { p with waiting := p.waiting.eraseIdx _ }) env users _ x with
      hsame | hmain
    · have hwaiting := waiting_eq_nil (h.busy_of_fillProfile (hsame.symm.trans hroute'))
      rw [hwaiting] at hx
      cases hx
    · exact absurd (hroute'.symm.trans hmain) nofun
  | restart => exact absurd ⟨hroute', huser'⟩ not_signsUp_restart

/-- The answer to a write leaves a sign-up alone. -/
theorem signsUp_resume {x : UserWrite D} (h : (p.resume x).SignsUp u) : p.SignsUp u := by
  obtain ⟨hroute, huser⟩ := h
  cases x with
  | update user editing =>
    cases editing with
    | false => exact ⟨hroute, huser⟩
    | true =>
      rw [resume, if_pos rfl] at hroute huser
      obtain ⟨hroute', hauth', -⟩ := loadCourseMap_same false user p
      exact ⟨hroute' ▸ hroute, hauth' ▸ huser⟩
  | updatePassword id newPassword => exact ⟨hroute, huser⟩
  | delete id => cases hroute

end Phone

namespace Service

variable {w w' : Service ι D C} {i : ι} {u : User D}

/-- The user of a sign-up as a submit leaves it. -/
def Submits (env : Platform C) (p : Phone D C) (u : User D) : Prop :=
  ∃ v, p.SignsUp v ∧ v.id = u.id ∧ u.password = env.hashPassword v.password

/-- What a submit stores is what was signed up, and the sign-up is over. -/
theorem Submitted.signsUp {env : Platform C} {p p' : Phone D C} {users : Users D}
    (h : w.Submitted env p users p') (hroute : p.route = .fillProfile) :
    (p'.SignsUp u → p.SignsUp u ∨ Submits env p u) ∧
      ∀ row ∈ users.rows, row ∈ w.users.rows ∨ Submits env p row ∧ ∀ v, ¬p'.SignsUp v := by
  have submits : ∀ {user filled : User D}, p.auth.user = some user →
      filled.identity = user.identity → filled.password = env.hashPassword user.password →
      Submits env p filled :=
    fun {user _} huser hkept hpassword =>
      ⟨user, ⟨hroute, huser⟩, (congrArg Identity.id hkept).symm, hpassword⟩
  have stored : ∀ {filled : User D}, Submits env p filled → (∀ v, ¬p'.SignsUp v) →
      ∀ row ∈ (w.users.set filled).rows, row ∈ w.users.rows ∨
        Submits env p row ∧ ∀ v, ¬p'.SignsUp v := by
    intro filled hfilled hover row hrow
    rcases Table.mem_set.1 hrow with rfl | ⟨hrow, -⟩
    · exact .inr ⟨hfilled, hover⟩
    · exact .inl hrow
  cases h with
  | nothing => exact ⟨.inl, fun row hrow => .inl hrow⟩
  | killed => exact ⟨fun h => absurd h Phone.not_signsUp_restart, fun row hrow => .inl hrow⟩
  | rejected user filled huser hkept hpassword =>
    refine ⟨?_, fun row hrow => .inl hrow⟩
    rintro ⟨-, hu⟩
    cases hu
    exact .inr (submits huser hkept hpassword)
  | stored user filled data huser hkept hfilled hpassword =>
    have hover : ∀ v, ¬({ p with
        route := .main, auth := ⟨some filled, some data⟩
        userKey := some filled, courseData := some data } : Phone D C).SignsUp v :=
      fun v hv => absurd hv.1 Route.noConfusion
    exact ⟨fun h => absurd h (hover u), stored (submits huser hkept hpassword) hover⟩
  | storedKilled user filled huser hkept hfilled hpassword =>
    exact ⟨fun h => absurd h Phone.not_signsUp_restart,
      stored (submits huser hkept hpassword) fun v => Phone.not_signsUp_restart⟩

/-- An installation after a step, if it may be the one that was set. -/
theorem phones_setPhone [DecidableEq ι] {P : Phone D C → Prop} {p : Phone D C} {j : ι}
    (h : P ((w.setPhone i p).phones j)) : j = i ∧ P p ∨ j ≠ i ∧ P (w.phones j) := by
  change P (Function.update w.phones i p j) at h
  by_cases hj : j = i
  · subst hj
    rw [Function.update_self] at h
    exact .inl ⟨rfl, h⟩
  · rw [Function.update_of_ne hj] at h
    exact .inr ⟨hj, h⟩

variable [DecidableEq ι] [Floating D] {env : Platform C} {a : ServiceAction ι D C}

/-- A sign-up was under way before, or it has just begun under a new id. -/
theorem signsUp_step (hsound : w.Sound) (hstep : w.step env a = some w')
    (h : (w'.phones i).SignsUp u) : (w.phones i).SignsUp u ∨ Submits env (w.phones i) u ∨
      (∃ form, a = .on i (.signUp u.id form) ∧ u.password = form.password) ∧ u.id ∉ w.issued := by
  cases a with
  | on j a =>
    obtain ⟨p, heffect, hnew, rfl⟩ := step_on hstep
    rcases phones_setPhone (P := fun p => p.SignsUp u) h with ⟨rfl, hp⟩ | ⟨-, hp⟩
    · rcases heffect.signsUp (hsound.phase i) hp with hp | ⟨form, rfl, hform⟩
      · exact .inl hp
      · exact .inr (.inr ⟨⟨form, rfl, hform⟩, hnew u.id List.mem_cons_self⟩)
    · exact .inl hp
  | submit j screen accepted killed =>
    obtain ⟨hroute, users, p, hsubmit, rfl⟩ := step_submit hstep
    rcases phones_setPhone (P := fun p => p.SignsUp u) h with ⟨rfl, hp⟩ | ⟨-, hp⟩
    · exact ((hsubmit.signsUp hroute).1 hp).imp_right .inl
    · exact .inl hp
  | answerWrite j accepted =>
    obtain ⟨x, rest, -, ⟨-, rfl⟩ | ⟨users, -, rfl⟩⟩ := step_answerWrite hstep
    · rcases phones_setPhone (P := fun p => p.SignsUp u) h with ⟨rfl, hp⟩ | ⟨-, hp⟩ <;>
        exact .inl hp
    · rcases phones_setPhone (P := fun p => p.SignsUp u) h with ⟨rfl, hp⟩ | ⟨-, hp⟩
      · split_ifs at hp
        · exact .inl (Phone.signsUp_resume hp : Phone.SignsUp _ u)
        · exact .inl hp
      · exact .inl hp

/-- The ids people sign up under are old or new. -/
theorem under_way_or_new (hsound : w.Sound) (hstep : w.step env a = some w')
    (h : (w'.phones i).SignsUp u) : (∃ v, (w.phones i).SignsUp v ∧ v.id = u.id) ∨
      (∃ form, a = .on i (.signUp u.id form)) ∧ u.id ∉ w.issued := by
  rcases signsUp_step hsound hstep h with hold | ⟨v, hv, hid, -⟩ | ⟨⟨form, ha, -⟩, hnew⟩
  · exact .inl ⟨u, hold, rfl⟩
  · exact .inl ⟨v, hv, hid⟩
  · exact .inr ⟨⟨form, ha⟩, hnew⟩

/-- A document was there before, or a sign-up has ended with it. -/
theorem row_step (hstep : w.step env a = some w') {row : User D} (hrow : row ∈ w'.users.rows) :
    (∃ r ∈ w.users.rows, r.id = row.id) ∨
      ∃ i v, (w.phones i).SignsUp v ∧ v.id = row.id ∧ a.newId = [] ∧
        ∀ v, ¬(w'.phones i).SignsUp v := by
  cases a with
  | on i a =>
    obtain ⟨p, -, -, rfl⟩ := step_on hstep
    exact .inl ⟨row, hrow, rfl⟩
  | submit i screen accepted killed =>
    obtain ⟨hroute, users, p, hsubmit, rfl⟩ := step_submit hstep
    rcases (hsubmit.signsUp (u := row) hroute).2 row hrow with hrow | ⟨⟨v, hv, hid, -⟩, hover⟩
    · exact .inl ⟨row, hrow, rfl⟩
    · refine .inr ⟨i, v, hv, hid, rfl, ?_⟩
      simpa [setPhone] using hover
  | answerWrite i accepted =>
    obtain ⟨x, rest, -, ⟨-, rfl⟩ | ⟨users, husers, rfl⟩⟩ := step_answerWrite hstep
    · exact .inl ⟨row, hrow, rfl⟩
    · left
      obtain ⟨write, awaited⟩ := x
      cases write with
      | update user editing =>
        obtain ⟨old, hold, rfl⟩ := Option.map_eq_some_iff.1 husers
        obtain ⟨hmem, hid⟩ := Table.mem_of_get? hold
        rcases Table.mem_set.1 hrow with rfl | ⟨hrow, -⟩
        · exact ⟨old, hmem, hid⟩
        · exact ⟨row, hrow, rfl⟩
      | updatePassword id newPassword =>
        obtain ⟨old, hold, rfl⟩ := Option.map_eq_some_iff.1 husers
        rcases Table.mem_set.1 hrow with rfl | ⟨hrow, -⟩
        · exact ⟨old, (Table.mem_of_get? hold).1, rfl⟩
        · exact ⟨row, hrow, rfl⟩
      | delete id =>
        cases husers
        exact ⟨row, (Table.mem_erase.1 hrow).1, rfl⟩

/-! ## Ids in use -/

omit [DecidableEq ι] [Floating D] in
/-- Someone signs up under the id. -/
def SigningUp (w : Service ι D C) (id : String) : Prop :=
  ∃ i u, (w.phones i).SignsUp u ∧ u.id = id

omit [DecidableEq ι] [Floating D] in
/-- A sign-up has its id for itself. -/
structure Separate (w : Service ι D C) : Prop where
  sound : w.Sound
  known : ∃ names, w.Known names
  row : ∀ row ∈ w.users.rows, ¬w.SigningUp row.id
  phone : ∀ i j u v, (w.phones i).SignsUp u → (w.phones j).SignsUp v → u.id = v.id → i = j

omit [DecidableEq ι] [Floating D] in
theorem Separate.issued (h : w.Separate) (hu : (w.phones i).SignsUp u) : u.id ∈ w.issued := by
  obtain ⟨names, hknown⟩ := h.known
  exact hknown.issued u (.inr ⟨i, Phone.mem_copies.2 (.inl hu.2)⟩)

omit [DecidableEq ι] [Floating D] in
theorem Separate.row_issued (h : w.Separate) (hu : u ∈ w.users.rows) : u.id ∈ w.issued := by
  obtain ⟨names, hknown⟩ := h.known
  exact hknown.issued u (.inl hu)

omit [DecidableEq ι] [Floating D] in
theorem Separate.start {users : Users D} (hrows : ∀ u ∈ users.rows, u.hasProgramme) :
    (start users : Service ι D C).Separate where
  sound := .start hrows
  known := exists_known_start users
  row := fun _ _ ⟨_, _, hu, _⟩ => absurd hu.1 Route.noConfusion
  phone := fun _ _ _ _ hu => absurd hu.1 Route.noConfusion

theorem Separate.step (h : w.Separate) (halone : w.OneAtATime a)
    (hstep : w.step env a = some w') : w'.Separate where
  sound := h.sound.step halone hstep
  known := by
    obtain ⟨names, hknown⟩ := h.known
    obtain ⟨names', hknown', -⟩ := hknown.step hstep
    exact ⟨names', hknown'⟩
  row := by
    rintro row hrow ⟨i, u, hu, hid⟩
    rcases row_step hstep hrow with ⟨r, hr, hrid⟩ | ⟨j, v, hv, hvid, hnew, hover⟩
    · rcases under_way_or_new h.sound hstep hu with ⟨v, hv, hvid⟩ | ⟨-, hissued⟩
      · exact h.row r hr ⟨i, v, hv, by rw [hvid, hid, hrid]⟩
      · exact hissued (hid ▸ hrid ▸ h.row_issued hr)
    · rcases under_way_or_new h.sound hstep hu with ⟨v', hv', hvid'⟩ | ⟨⟨form, hform⟩, -⟩
      · have hij : i = j := h.phone i j v' v hv' hv (by rw [hvid', hid, hvid])
        subst hij
        exact hover u hu
      · rw [hform] at hnew
        cases hnew
  phone := by
    intro i j u v hu hv hid
    rcases under_way_or_new h.sound hstep hu with ⟨u', hu', huid⟩ | ⟨⟨form, hform⟩, hissued⟩
    · rcases under_way_or_new h.sound hstep hv with ⟨v', hv', hvid⟩ | ⟨-, hissued⟩
      · exact h.phone i j u' v' hu' hv' (by rw [huid, hvid, hid])
      · exact absurd (hid ▸ huid ▸ h.issued hu') hissued
    · rcases under_way_or_new h.sound hstep hv with ⟨v', hv', hvid⟩ | ⟨⟨form', hform'⟩, -⟩
      · exact absurd (hid ▸ hvid ▸ h.issued hv') hissued
      · exact (ServiceAction.on.inj (hform.symm.trans hform')).1

omit [DecidableEq ι] [Floating D] in
/-- The id has been used and is not in use any more. -/
structure Gone (w : Service ι D C) (id : String) : Prop where
  issued : id ∈ w.issued
  row : ∀ row ∈ w.users.rows, row.id ≠ id
  signingUp : ¬w.SigningUp id

theorem signingUp_step (hsound : w.Sound) (hstep : w.step env a = some w') {id : String}
    (hissued : id ∈ w.issued) (h : w'.SigningUp id) : w.SigningUp id := by
  obtain ⟨i, u, hu, rfl⟩ := h
  rcases under_way_or_new hsound hstep hu with ⟨v, hv, hid⟩ | ⟨-, hnew⟩
  · exact ⟨i, v, hv, hid⟩
  · exact absurd hissued hnew

theorem Gone.step {id : String} (h : w.Gone id) (hsound : w.Sound)
    (hstep : w.step env a = some w') : w'.Gone id where
  issued := issued_step hstep id h.issued
  row := by
    rintro row hrow rfl
    rcases row_step hstep hrow with ⟨r, hr, hid⟩ | ⟨i, v, hv, hid, -⟩
    · exact h.row r hr hid
    · exact h.signingUp ⟨i, v, hv, hid⟩
  signingUp := fun hnew => h.signingUp (signingUp_step hsound hstep h.issued hnew)

/-! ## Runs -/

variable {as : List (ServiceAction ι D C)}

theorem Separate.run (h : w.Separate) (halone : Machine.Each (Service.step env) OneAtATime as w)
    (hrun : Machine.run (Service.step env) as w = some w') : w'.Separate :=
  Machine.invariant_of_each Separate OneAtATime (fun _ _ _ h => h.step) h halone hrun

theorem Gone.run {id : String} (h : w.Gone id) (hseparate : w.Separate)
    (halone : Machine.Each (Service.step env) OneAtATime as w)
    (hrun : Machine.run (Service.step env) as w = some w') : w'.Gone id :=
  (Machine.invariant_of_each (fun w => w.Gone id ∧ w.Separate) OneAtATime
    (fun _ _ _ h halone hstep => ⟨h.1.step h.2.sound hstep, h.2.step halone hstep⟩)
    ⟨h, hseparate⟩ halone hrun).1

/-- Nobody signs up under the id of a document, then or later. -/
theorem Separate.not_signingUp (h : w.Separate) {row : User D} (hrow : row ∈ w.users.rows)
    (halone : Machine.Each (Service.step env) OneAtATime as w)
    (hrun : Machine.run (Service.step env) as w = some w') :
    row.id ∈ w'.issued ∧ ¬w'.SigningUp row.id :=
  (Machine.invariant_of_each
    (fun w => (row.id ∈ w.issued ∧ ¬w.SigningUp row.id) ∧ w.Separate) OneAtATime
    (fun _ _ _ h halone hstep => ⟨⟨issued_step hstep _ h.1.1, fun hnew =>
      h.1.2 (signingUp_step h.2.sound hstep h.1.1 hnew)⟩, h.2.step halone hstep⟩)
    ⟨⟨h.row_issued hrow, h.row row hrow⟩, h⟩ halone hrun).1

end Service

/-- Once the document of an account is gone, nothing brings it back: neither an installation that
is still signed in, nor a write on its way, nor a sign-up. -/
theorem gone_stays [DecidableEq ι] [Floating D] {env : Platform C} {users : Users D}
    (hrows : ∀ u ∈ users.rows, u.hasProgramme) {as bs cs : List (ServiceAction ι D C)}
    {w w' w'' : Service ι D C}
    (halone : Machine.Each (Service.step env) Service.OneAtATime as (Service.start users))
    (hrun : Machine.run (Service.step env) as (Service.start users) = some w) {row : User D}
    (hrow : row ∈ w.users.rows)
    (halone' : Machine.Each (Service.step env) Service.OneAtATime bs w)
    (hrun' : Machine.run (Service.step env) bs w = some w')
    (hgone : ∀ r ∈ w'.users.rows, r.id ≠ row.id)
    (halone'' : Machine.Each (Service.step env) Service.OneAtATime cs w')
    (hrun'' : Machine.run (Service.step env) cs w' = some w'') :
    ∀ r ∈ w''.users.rows, r.id ≠ row.id := by
  have hseparate : w.Separate := (Service.Separate.start hrows).run halone hrun
  obtain ⟨hissued, hsigningUp⟩ := hseparate.not_signingUp hrow halone' hrun'
  have hw' : w'.Gone row.id := ⟨hissued, hgone, hsigningUp⟩
  exact (hw'.run (hseparate.run halone' hrun') halone'' hrun'').row

/-- Ada is signed in on two installations. -/
def adaOnBoth : List (ServiceAction Bool Double (List Course)) :=
  adaSignsUp false ++ [.on true (.logIn "ada@x.com" "password"), .on true (.answer 0 true)]

/-- She deletes her account on one, with an upload from the other on its way. -/
def adaDeletes : List (ServiceAction Bool Double (List Course)) :=
  [.on true (.incrementUser "4.5"), .on false .deleteAccount, .answerWrite false true]

/-- The other one goes on. -/
def adaGoesOn : List (ServiceAction Bool Double (List Course)) :=
  [.answerWrite true true, .on true .restart, .on true (.incrementUser "4.0"),
    .answerWrite true true]

theorem gone_stays_ada : ∃ w w' w'' row,
    Machine.run (Service.step samplePlatform) adaOnBoth (Service.start Table.empty) = some w ∧
    row ∈ w.users.rows ∧ Machine.run (Service.step samplePlatform) adaDeletes w = some w' ∧
    Machine.run (Service.step samplePlatform) adaGoesOn w' = some w'' ∧
    ∀ r ∈ w''.users.rows, r.id ≠ row.id := by
  have hcheck : ((Machine.run (Service.step samplePlatform) adaOnBoth
      (Service.start Table.empty)).bind fun w => w.users.rows.head?.bind fun row =>
        (Machine.run (Service.step samplePlatform) adaDeletes w).bind fun w' =>
          (Machine.run (Service.step samplePlatform) adaGoesOn w').map fun _ =>
            (w'.users.rows.all (fun r => r.id != row.id) &&
              decide (Machine.Each (Service.step samplePlatform) Service.OneAtATime adaDeletes w) &&
              decide
                (Machine.Each (Service.step samplePlatform) Service.OneAtATime adaGoesOn w'))) =
      some true := by
    decide +kernel
  obtain ⟨w, hrun, hcheck⟩ := Option.bind_eq_some_iff.1 hcheck
  obtain ⟨row, hrow, hcheck⟩ := Option.bind_eq_some_iff.1 hcheck
  obtain ⟨w', hrun', hcheck⟩ := Option.bind_eq_some_iff.1 hcheck
  obtain ⟨w'', hrun'', hcheck⟩ := Option.map_eq_some_iff.1 hcheck
  simp only [Bool.and_eq_true, decide_eq_true_eq, List.all_eq_true, bne_iff_ne] at hcheck
  obtain ⟨⟨hgone, halone'⟩, halone''⟩ := hcheck
  have hmem : row ∈ w.users.rows := List.mem_of_head? hrow
  have hrows : ∀ u ∈ (Table.empty : Users Double).rows, u.hasProgramme :=
    fun u hu => absurd hu List.not_mem_nil
  have halone : Machine.Each (Service.step samplePlatform) Service.OneAtATime adaOnBoth
      (Service.start Table.empty) := by
    decide +kernel
  exact ⟨w, w', w'', row, hrun, hmem, hrun', hrun'',
    gone_stays hrows halone hrun hmem halone' hrun' hgone halone'' hrun''⟩

end StudyStats
