import StudyStats.RetriedSignUp
import StudyStats.Service

/-!
# Who a user is

A user is copied all over: into the provider and the box of every installation that signs in,
into the writes on their way and into handlers that wait. All copies with one id agree, at all
times, on everything but the password, the programme, the semester and the CGPA.

## Main results

* `identity_fixed` — two copies of one user, at any two moments, have the same identity.
-/

namespace StudyStats

open Dart

variable {ι D C : Type}

/-! ## Copies -/

/-- The users an installation holds. -/
def Phone.copies (p : Phone D C) : List (User D) :=
  p.auth.user.toList ++ p.userKey.toList ++ p.writes.filterMap (fun x => x.write.user?) ++
    p.waiting.filterMap Waiting.user?

/-- The user is in the collection or on an installation. -/
def Service.Holds (w : Service ι D C) (u : User D) : Prop :=
  u ∈ w.users.rows ∨ ∃ i, u ∈ (w.phones i).copies

namespace Phone

variable {p : Phone D C} {u v : User D}

theorem mem_copies : u ∈ p.copies ↔ p.auth.user = some u ∨ p.userKey = some u ∨
    (∃ x ∈ p.writes, x.write.user? = some u) ∨ ∃ x ∈ p.waiting, x.user? = some u := by
  simp only [copies, List.mem_append, Option.mem_toList, List.mem_filterMap, or_assoc]

theorem mem_copies_saveUser (h : u ∈ (p.saveUser v).copies) : u = v ∨ u ∈ p.copies := by
  rcases mem_copies.1 h with h | h | h
  · exact .inl (Option.some.inj h).symm
  · exact .inl (Option.some.inj h).symm
  · exact .inr (mem_copies.2 (.inr (.inr h)))

theorem mem_copies_send {x : UserWrite D} (h : u ∈ (p.send x).copies) :
    x.user? = some u ∨ u ∈ p.copies := by
  rcases mem_copies.1 h with h | h | ⟨y, hy, hu⟩ | h
  · exact .inr (mem_copies.2 (.inl h))
  · exact .inr (mem_copies.2 (.inr (.inl h)))
  · rcases List.mem_append.1 hy with hy | hy
    · exact .inr (mem_copies.2 (.inr (.inr (.inl ⟨y, hy, hu⟩))))
    · rw [List.mem_singleton.1 hy] at hu
      exact .inl hu
  · exact .inr (mem_copies.2 (.inr (.inr (.inr h))))

theorem mem_copies_wait {x : Waiting D C} (h : u ∈ (p.wait x).copies) :
    x.user? = some u ∨ u ∈ p.copies := by
  rcases mem_copies.1 h with h | h | h | ⟨y, hy, hu⟩
  · exact .inr (mem_copies.2 (.inl h))
  · exact .inr (mem_copies.2 (.inr (.inl h)))
  · exact .inr (mem_copies.2 (.inr (.inr (.inl h))))
  · rcases List.mem_append.1 hy with hy | hy
    · exact .inr (mem_copies.2 (.inr (.inr (.inr ⟨y, hy, hu⟩))))
    · rw [List.mem_singleton.1 hy] at hu
      exact .inl hu

theorem mem_copies_update {editing : Bool} {new : Option (User D)}
    (h : u ∈ (p.update editing new).copies) : new = some u ∨ u ∈ p.copies := by
  cases new with
  | none => exact .inr h
  | some v =>
    rcases mem_copies_send h with h | h
    · exact .inl h
    · exact (mem_copies_saveUser h).imp (fun h => congrArg some h.symm) id

/-- Only a question about the programme is added. -/
theorem copies_loadCourseMap (login : Bool) (v : User D) (p : Phone D C) :
    (p.loadCourseMap login v).copies = p.copies := by
  unfold loadCourseMap
  split
  · simp [copies, wait, Waiting.user?]
  · rfl

theorem mem_copies_clearData {route : Route}
    (h : u ∈ ({ p.clearData with route } : Phone D C).copies) : u ∈ p.copies := by
  rcases mem_copies.1 h with h | h | h
  · cases h
  · cases h
  · exact mem_copies.2 (.inr (.inr h))

theorem mem_copies_resume {x : UserWrite D} (h : u ∈ (p.resume x).copies) : u ∈ p.copies := by
  cases x with
  | update v editing =>
    cases editing with
    | false => exact h
    | true => rwa [resume, if_pos rfl, copies_loadCourseMap] at h
  | updatePassword id newPassword =>
    rcases mem_copies_wait h with h | h
    · cases h
    · exact h
  | delete id => exact mem_copies_clearData h

theorem mem_copies_restart (h : u ∈ p.restart.copies) : u ∈ p.copies := by
  rw [mem_copies, user_restart] at h
  rcases h with h | h | ⟨x, hx, hu⟩ | ⟨x, hx, -⟩
  · exact mem_copies.2 (.inr (.inl h))
  · exact mem_copies.2 (.inr (.inl h))
  · obtain ⟨y, hy, rfl⟩ := List.mem_map.1 hx
    exact mem_copies.2 (.inr (.inr (.inl ⟨y, hy, hu⟩)))
  · cases hx

theorem mem_copies_receive [Floating D] {env : Platform C} {users : Users D} {ok : Bool}
    {x : Waiting D C} (h : u ∈ (p.receive env users ok x).copies) :
    u ∈ p.copies ∨ u ∈ users.rows ∨ ∃ v, x.user? = some v ∧ v.identity = u.identity := by
  cases x with
  | deleteData v screen =>
    rcases mem_copies_update h with h | h
    · obtain ⟨level, cgpa, rfl⟩ := EditProfileScreen.newUser_eq h
      exact .inr (.inr ⟨v, rfl, rfl⟩)
    · exact .inl h
  | courseMap login uni faculty course =>
    cases login <;> exact .inl (mem_copies.2 (mem_copies.1 h))
  | readBack id =>
    simp only [receive] at h
    split at h
    · next v hv =>
      split_ifs at h
      · rcases mem_copies_saveUser h with rfl | h
        · exact .inr (.inl (Table.mem_of_get? hv).1)
        · exact .inl h
      · exact .inl h
    · exact .inl h

/-- What an action holds it has taken from the collection or from itself, but for the user a
sign-up makes. -/
theorem Effect.identity_eq [Floating D] {env : Platform C} {users : Users D} {p' : Phone D C}
    {a : PhoneAction D C} (heffect : p.Effect env users a p') (h : u ∈ p'.copies) :
    (∃ v, (v ∈ p.copies ∨ v ∈ users.rows) ∧ v.identity = u.identity) ∨
      ∃ id form image, a = .signUp id form ∧
        u = SignUpScreen.newUser env.toLowerCase id image form ∧ p'.auth.user = some u := by
  have kept : ∀ {v new : User D}, p.auth.user = some v → new.account = v.account →
      ∃ v, (v ∈ p.copies ∨ v ∈ users.rows) ∧ v.identity = new.identity :=
    fun {v _} hv hnew => ⟨v, .inl (mem_copies.2 (.inl hv)), (User.identity_of_account hnew).symm⟩
  cases heffect with
  | nothing => exact .inl ⟨u, .inl h, rfl⟩
  | refused => exact .inl ⟨u, .inl h, rfl⟩
  | signUp image =>
    rcases mem_copies.1 h with hu | h
    · exact .inr ⟨_, _, image, rfl, (Option.some.inj hu).symm, hu⟩
    · exact .inl ⟨u, .inl (mem_copies.2 (.inr h)), rfl⟩
  | wrong => exact .inl ⟨u, .inl (mem_copies.2 (mem_copies.1 h)), rfl⟩
  | logIn v hv =>
    rw [copies_loadCourseMap] at h
    rcases mem_copies_saveUser h with rfl | h
    · exact .inl ⟨u, .inr hv, rfl⟩
    · exact .inl ⟨u, .inl (mem_copies.2 (mem_copies.1 h)), rfl⟩
  | logOut => exact .inl ⟨u, .inl (mem_copies_clearData h), rfl⟩
  | update v new hv hnew =>
    have h : u ∈ (p.update false (some new)).copies := h
    rcases mem_copies_update h with hu | h
    · cases hu
      exact .inl (kept hv hnew)
    · exact .inl ⟨u, .inl h, rfl⟩
  | edit v screen' hv =>
    rcases mem_copies_wait h with hu | h
    · cases hu
      exact .inl (kept hv rfl)
    · exact .inl ⟨u, .inl h, rfl⟩
  | changePassword v hv =>
    rcases mem_copies_send h with hu | h
    · cases hu
    · exact .inl ⟨u, .inl h, rfl⟩
  | deleteAccount v hv =>
    rcases mem_copies_send h with hu | h
    · cases hu
    · exact .inl ⟨u, .inl h, rfl⟩
  | answer x hx =>
    have hsub : ∀ k v, v ∈ ({ p with waiting := p.waiting.eraseIdx k } : Phone D C).copies →
        v ∈ p.copies := by
      intro k v hv
      rcases mem_copies.1 hv with hv | hv | hv | ⟨y, hy, hv⟩
      · exact mem_copies.2 (.inl hv)
      · exact mem_copies.2 (.inr (.inl hv))
      · exact mem_copies.2 (.inr (.inr (.inl hv)))
      · exact mem_copies.2 (.inr (.inr (.inr ⟨y, List.mem_of_mem_eraseIdx hy, hv⟩)))
    rcases mem_copies_receive h with h | h | ⟨v, hv, hid⟩
    · exact .inl ⟨u, .inl (hsub _ u h), rfl⟩
    · exact .inl ⟨u, .inr h, rfl⟩
    · exact .inl ⟨v, .inl (mem_copies.2
        (.inr (.inr (.inr ⟨x, List.mem_of_getElem? hx, hv⟩)))), hid⟩
  | restart => exact .inl ⟨u, .inl (mem_copies_restart h), rfl⟩

end Phone

theorem UserWrite.identity_apply {x : UserWrite D} {users users' : Users D} {u : User D}
    (h : x.apply users = some users') (hu : u ∈ users'.rows) :
    ∃ v, (v ∈ users.rows ∨ x.user? = some v) ∧ v.identity = u.identity := by
  cases x with
  | update v editing =>
    obtain ⟨-, -, rfl⟩ := Option.map_eq_some_iff.1 h
    rcases Table.mem_set.1 hu with rfl | ⟨hu, -⟩
    · exact ⟨u, .inr rfl, rfl⟩
    · exact ⟨u, .inl hu, rfl⟩
  | updatePassword id newPassword =>
    obtain ⟨v, hv, rfl⟩ := Option.map_eq_some_iff.1 h
    rcases Table.mem_set.1 hu with rfl | ⟨hu, -⟩
    · exact ⟨v, .inl (Table.mem_of_get? hv).1, rfl⟩
    · exact ⟨u, .inl hu, rfl⟩
  | delete id =>
    cases h
    exact ⟨u, .inl (Table.mem_erase.1 hu).1, rfl⟩

namespace Service

variable [DecidableEq ι] {w w' : Service ι D C} {u : User D}

theorem holds_setPhone {i : ι} {p : Phone D C} {users : Users D} {issued : List String}
    (h : Holds { w.setPhone i p with users, issued } u) :
    u ∈ users.rows ∨ u ∈ p.copies ∨ w.Holds u := by
  rcases h with h | ⟨j, h⟩
  · exact .inl h
  · change u ∈ (Function.update w.phones i p j).copies at h
    by_cases hj : j = i
    · subst hj
      rw [Function.update_self] at h
      exact .inr (.inl h)
    · rw [Function.update_of_ne hj] at h
      exact .inr (.inr (.inr ⟨j, h⟩))

omit [DecidableEq ι] in
theorem Submitted.identity_eq {env : Platform C} {p p' : Phone D C} {users : Users D}
    (hsubmit : w.Submitted env p users p') (h : u ∈ users.rows ∨ u ∈ p'.copies) :
    ∃ v, (v ∈ w.users.rows ∨ v ∈ p.copies) ∧ v.identity = u.identity := by
  have filled : ∀ {users : Users D} {user filled : User D}, p.auth.user = some user →
      filled.identity = user.identity →
      ∃ v, (v ∈ users.rows ∨ v ∈ p.copies) ∧ v.identity = filled.identity :=
    fun {_ user _} huser hkept => ⟨user, .inr (Phone.mem_copies.2 (.inl huser)), hkept.symm⟩
  cases hsubmit with
  | nothing => exact ⟨u, h, rfl⟩
  | killed => exact ⟨u, h.imp id Phone.mem_copies_restart, rfl⟩
  | rejected user new huser hkept =>
    rcases h with h | h
    · exact ⟨u, .inl h, rfl⟩
    · rcases Phone.mem_copies.1 h with h | h
      · cases h
        exact filled huser hkept
      · exact ⟨u, .inr (Phone.mem_copies.2 (.inr h)), rfl⟩
  | stored user new data huser hkept =>
    rcases h with h | h
    · rcases Table.mem_set.1 h with rfl | ⟨h, -⟩
      · exact filled huser hkept
      · exact ⟨u, .inl h, rfl⟩
    · rcases Phone.mem_copies.1 h with h | h | h
      · cases h
        exact filled huser hkept
      · cases h
        exact filled huser hkept
      · exact ⟨u, .inr (Phone.mem_copies.2 (.inr (.inr h))), rfl⟩
  | storedKilled user new huser hkept =>
    rcases h with h | h
    · rcases Table.mem_set.1 h with rfl | ⟨h, -⟩
      · exact filled huser hkept
      · exact ⟨u, .inl h, rfl⟩
    · exact ⟨u, .inr (Phone.mem_copies_restart h), rfl⟩

variable [Floating D] {env : Platform C} {a : ServiceAction ι D C}

/-- A step takes what it holds from what was held, but for the user a sign-up makes. -/
theorem identity_step (hstep : w.step env a = some w') (h : w'.Holds u) :
    (∃ v, w.Holds v ∧ v.identity = u.identity) ∨
      ∃ i id form image, a = .on i (.signUp id form) ∧ id ∉ w.issued ∧
        u = SignUpScreen.newUser env.toLowerCase id image form ∧
        (w'.phones i).auth.user = some u := by
  cases a with
  | on i a =>
    obtain ⟨p, heffect, hnew, rfl⟩ := step_on hstep
    rcases holds_setPhone h with h | h | h
    · exact .inl ⟨u, .inl h, rfl⟩
    · rcases heffect.identity_eq h with ⟨v, hv | hv, hid⟩ | ⟨id, form, image, rfl, rfl, hu⟩
      · exact .inl ⟨v, .inr ⟨i, hv⟩, hid⟩
      · exact .inl ⟨v, .inl hv, hid⟩
      · refine .inr ⟨i, id, form, image, rfl, hnew id (List.mem_singleton.2 rfl), rfl, ?_⟩
        simpa [setPhone] using hu
    · exact .inl ⟨u, h, rfl⟩
  | submit i screen accepted killed =>
    obtain ⟨-, users, p, hsubmit, rfl⟩ := step_submit hstep
    have hold := holds_setPhone h
    rw [← or_assoc] at hold
    rcases hold with h | h
    · obtain ⟨v, hv | hv, hid⟩ := hsubmit.identity_eq h
      · exact .inl ⟨v, .inl hv, hid⟩
      · exact .inl ⟨v, .inr ⟨i, hv⟩, hid⟩
    · exact .inl ⟨u, h, rfl⟩
  | answerWrite i accepted =>
    obtain ⟨x, rest, hwrites, hcases⟩ := step_answerWrite hstep
    have hrest : ∀ v, v ∈ ({ w.phones i with writes := rest } : Phone D C).copies →
        v ∈ (w.phones i).copies := by
      intro v hv
      have hsub : ∀ y ∈ rest, y ∈ (w.phones i).writes := fun y hy => by simp [hwrites, hy]
      rcases Phone.mem_copies.1 hv with hv | hv | ⟨y, hy, hv⟩ | hv
      · exact Phone.mem_copies.2 (.inl hv)
      · exact Phone.mem_copies.2 (.inr (.inl hv))
      · exact Phone.mem_copies.2 (.inr (.inr (.inl ⟨y, hsub y hy, hv⟩)))
      · exact Phone.mem_copies.2 (.inr (.inr (.inr hv)))
    left
    rcases hcases with ⟨-, rfl⟩ | ⟨users, husers, rfl⟩
    · have h : Holds { w.setPhone i { w.phones i with writes := rest } with
          users := w.users, issued := w.issued } u := h
      rcases holds_setPhone h with h | h | h
      · exact ⟨u, .inl h, rfl⟩
      · exact ⟨u, .inr ⟨i, hrest u h⟩, rfl⟩
      · exact ⟨u, h, rfl⟩
    · rcases holds_setPhone h with h | h | h
      · obtain ⟨v, hv | hv, hid⟩ := UserWrite.identity_apply husers h
        · exact ⟨v, .inl hv, hid⟩
        · have hmem : x ∈ (w.phones i).writes := by simp [hwrites]
          exact ⟨v, .inr ⟨i, Phone.mem_copies.2 (.inr (.inr (.inl ⟨x, hmem, hv⟩)))⟩, hid⟩
      · refine ⟨u, .inr ⟨i, hrest u ?_⟩, rfl⟩
        split_ifs at h
        · exact Phone.mem_copies_resume h
        · exact h
      · exact ⟨u, h, rfl⟩

/-! ## Runs -/

omit [DecidableEq ι] [Floating D] in
/-- Every user held has an issued id and the identity this id stands for. -/
structure Known (names : String → Identity) (w : Service ι D C) : Prop where
  issued : ∀ u, w.Holds u → u.id ∈ w.issued
  identity : ∀ u, w.Holds u → u.identity = names u.id

variable {names : String → Identity}

theorem issued_step (hstep : w.step env a = some w') : ∀ id ∈ w.issued, id ∈ w'.issued := by
  cases a with
  | on i a =>
    obtain ⟨p, -, -, rfl⟩ := step_on hstep
    exact fun id hid => List.mem_append_right _ hid
  | submit i screen accepted killed =>
    obtain ⟨-, users, p, -, rfl⟩ := step_submit hstep
    exact fun id hid => hid
  | answerWrite i accepted =>
    obtain ⟨x, rest, -, ⟨-, rfl⟩ | ⟨users, -, rfl⟩⟩ := step_answerWrite hstep <;>
      exact fun id hid => hid

theorem issued_signUp {i : ι} {id : String} {form : SignUpForm}
    (hstep : w.step env (.on i (.signUp id form)) = some w') : id ∈ w'.issued := by
  obtain ⟨p, -, -, rfl⟩ := step_on hstep
  exact List.mem_cons_self

omit [DecidableEq ι] [Floating D] in
/-- A copy of a user that was held. -/
theorem Known.copied (h : w.Known names) {names' : String → Identity}
    (hsame : ∀ id ∈ w.issued, names' id = names id) {v : User D} (hv : w.Holds v)
    (hvu : v.identity = u.identity) : u.id ∈ w.issued ∧ u.identity = names' u.id := by
  have hid : v.id = u.id := congrArg Identity.id hvu
  have hissued : u.id ∈ w.issued := hid ▸ h.issued v hv
  refine ⟨hissued, ?_⟩
  calc u.identity = v.identity := hvu.symm
    _ = names v.id := h.identity v hv
    _ = names' u.id := by rw [hid, hsame u.id hissued]

theorem Known.step (h : w.Known names) (hstep : w.step env a = some w') :
    ∃ names', w'.Known names' ∧ ∀ id ∈ w.issued, names' id = names id := by
  by_cases hnew : ∃ u i id form image, a = .on i (.signUp id form) ∧ id ∉ w.issued ∧
      u = SignUpScreen.newUser env.toLowerCase id image form ∧ (w'.phones i).auth.user = some u
  · obtain ⟨new, i, id, form, image, rfl, hid, hform, hheld⟩ := hnew
    have hsame : ∀ k ∈ w.issued, Function.update names id new.identity k = names k :=
      fun k hk => Function.update_of_ne (ne_of_mem_of_not_mem hk hid) _ _
    have hall : ∀ u, w'.Holds u → u.id ∈ w'.issued ∧
        u.identity = Function.update names id new.identity u.id := by
      intro u hu
      rcases identity_step hstep hu with ⟨v, hv, hvu⟩ | ⟨j, k, form', image', ha, -, -, hu⟩
      · obtain ⟨hissued, hidentity⟩ := h.copied hsame hv hvu
        exact ⟨issued_step hstep _ hissued, hidentity⟩
      · cases ha
        cases hheld.symm.trans hu
        have hnewId : new.id = id := by rw [hform, SignUpScreen.newUser]
        rw [hnewId, Function.update_self]
        exact ⟨issued_signUp hstep, rfl⟩
    exact ⟨_, ⟨fun u hu => (hall u hu).1, fun u hu => (hall u hu).2⟩, hsame⟩
  · have hall : ∀ u, w'.Holds u → u.id ∈ w'.issued ∧ u.identity = names u.id := by
      intro u hu
      rcases identity_step hstep hu with ⟨v, hv, hvu⟩ | ⟨i, id, form, image, hsignUp⟩
      · obtain ⟨hissued, hidentity⟩ := h.copied (fun _ _ => rfl) hv hvu
        exact ⟨issued_step hstep _ hissued, hidentity⟩
      · exact absurd ⟨u, i, id, form, image, hsignUp⟩ hnew
    exact ⟨names, ⟨fun u hu => (hall u hu).1, fun u hu => (hall u hu).2⟩, fun _ _ => rfl⟩

/-- Ids that were known at some time stand for the same identity later. -/
theorem Known.run {as : List (ServiceAction ι D C)} (h : w.Known names)
    (hrun : Machine.run (Service.step env) as w = some w') :
    ∃ names', w'.Known names' ∧ ∀ id ∈ w.issued, names' id = names id := by
  induction as generalizing w names with
  | nil =>
    cases hrun
    exact ⟨names, h, fun _ _ => rfl⟩
  | cons a as ih =>
    obtain ⟨t, hstep, hrest⟩ := Machine.run_cons.1 hrun
    obtain ⟨middle, hmiddle, hsame⟩ := h.step hstep
    obtain ⟨names', hknown, hsame'⟩ := ih hmiddle hrest
    refine ⟨names', hknown, fun id hid => ?_⟩
    rw [hsame' id (issued_step hstep id hid), hsame id hid]

omit [DecidableEq ι] [Floating D] in
theorem holds_start {users : Users D} (h : (start users : Service ι D C).Holds u) :
    u ∈ users.rows := by
  rcases h with h | ⟨i, h⟩
  · exact h
  · rcases Phone.mem_copies.1 h with h | h | ⟨x, hx, -⟩ | ⟨x, hx, -⟩
    · cases h
    · cases h
    · cases hx
    · cases hx

omit [DecidableEq ι] [Floating D] in
theorem exists_known_start (users : Users D) :
    ∃ names, (start users : Service ι D C).Known names := by
  refine ⟨fun id => ((users.get? id).map User.identity).getD ⟨id, "", "", "", "", false⟩,
    fun u hu => List.mem_map_of_mem (holds_start hu), fun u hu => ?_⟩
  have hrow : users.get? u.id = some u := Table.get?_eq_some_iff.2 ⟨holds_start hu, rfl⟩
  rw [hrow]
  rfl

end Service

/-- Whatever the installations do and in whatever order, a user found anywhere at some time and
one with the same id found anywhere later agree on name, email, matric number, picture and
premium. -/
theorem identity_fixed [DecidableEq ι] [Floating D] {env : Platform C} {users : Users D}
    {as bs : List (ServiceAction ι D C)} {w w' : Service ι D C}
    (hrun : Machine.run (Service.step env) as (Service.start users) = some w)
    (hrun' : Machine.run (Service.step env) bs w = some w') {u v : User D} (hu : w.Holds u)
    (hv : w'.Holds v) (hid : u.id = v.id) : u.identity = v.identity := by
  obtain ⟨first, hstart⟩ := Service.exists_known_start (ι := ι) (C := C) users
  obtain ⟨names, hknown, -⟩ := hstart.run hrun
  obtain ⟨names', hknown', hsame⟩ := hknown.run hrun'
  rw [hknown.identity u hu, hknown'.identity v hv, ← hid, hsame u.id (hknown.issued u hu)]

/-- The app as its samples use it, without any course file. -/
def samplePlatform : Platform (List Course) where
  hashPassword := sampleHash
  toLowerCase := String.toLower
  catalogue := fun _ _ _ => none

/-- A sign-up that is stored. -/
def adaSignsUp {ι : Type} (i : ι) : List (ServiceAction ι Double (List Course)) :=
  [.on i (.signUp "u1" {
      name := "Ada", email := "Ada@x.com", password := "password", matricNo := "21/0123"
      agreedTerms := true, image := .absent }),
    .submit i (sampleScreen "100" "") true false]

/-- Ada signs up on one installation and uploads a semester on another. -/
theorem identity_fixed_ada : ∃ (w w' : Service Bool Double (List Course)) (u v : User Double),
    Machine.run (Service.step samplePlatform) (adaSignsUp false) (Service.start Table.empty) =
      some w ∧
    Machine.run (Service.step samplePlatform) [.on true (.logIn "ada@x.com" "password"),
      .on true (.answer 0 true), .on true (.incrementUser "4.5"), .answerWrite true true,
      .on false .restart] w = some w' ∧
    (w.phones false).auth.user = some u ∧ v ∈ w'.users.rows ∧ u.semester ≠ v.semester ∧
    u.identity = v.identity := by
  have hcheck : ((Machine.run (Service.step samplePlatform) (adaSignsUp false)
      (Service.start Table.empty)).bind fun w : Service Bool Double (List Course) =>
        (Machine.run (Service.step samplePlatform) [.on true (.logIn "ada@x.com" "password"),
          .on true (.answer 0 true), .on true (.incrementUser "4.5"), .answerWrite true true,
          .on false .restart] w).bind fun w' =>
            (w.phones false).auth.user.bind fun u => w'.users.rows.head?.map fun v =>
              (u.id == v.id, u.semester != v.semester)) = some (true, true) := by
    decide +kernel
  obtain ⟨w, hrun, hcheck⟩ := Option.bind_eq_some_iff.1 hcheck
  obtain ⟨w', hrun', hcheck⟩ := Option.bind_eq_some_iff.1 hcheck
  obtain ⟨u, hu, hcheck⟩ := Option.bind_eq_some_iff.1 hcheck
  obtain ⟨v, hv, hcheck⟩ := Option.map_eq_some_iff.1 hcheck
  simp only [Prod.mk.injEq, beq_iff_eq, bne_iff_ne] at hcheck
  obtain ⟨hid, hsemester⟩ := hcheck
  have hrow : v ∈ w'.users.rows := List.mem_of_head? hv
  exact ⟨w, w', u, v, hrun, hrun', hu, hrow, hsemester,
    identity_fixed hrun hrun' (.inr ⟨false, Phone.mem_copies.2 (.inl hu)⟩) (.inl hrow) hid⟩

end StudyStats
