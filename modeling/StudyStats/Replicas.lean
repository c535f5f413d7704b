import StudyStats.DeletedAccounts
import StudyStats.Library.Outbox
import Mathlib.Data.Fintype.Basic

/-!
# The document and its copy

An installation changes its copy of a user before the write has reached the collection. While an
account is used on one installation at a time and its writes are accepted, the document is what
the copy was when the last write reached it, and once all have the two are equal. A password
change is the other way round: the copy is read back from the document.

## Main results

* `document_in_step` — the document with the writes on their way is the copy in the box.
-/

namespace StudyStats

open Dart

variable {ι D C : Type}

/-! ## Writes to one document -/

namespace UserWrite

/-- The document a write is to. -/
def id : UserWrite D → String
  | update user _ => user.id
  | updatePassword id _ => id
  | delete id => id

/-- What a write makes of the document. -/
def row : UserWrite D → Option (User D) → Option (User D)
  | update user _, old => old.map fun _ => user
  | updatePassword _ newPassword, old => old.map fun user => { user with password := newPassword }
  | delete _, _ => none

@[simp] theorem row_none (x : UserWrite D) : x.row none = none := by
  cases x <;> rfl

variable {x : UserWrite D} {users users' : Users D}

theorem get?_apply (h : x.apply users = some users') (id : String) :
    users'.get? id = if x.id = id then x.row (users.get? id) else users.get? id := by
  cases x with
  | update user editing =>
    obtain ⟨old, hold, rfl⟩ := Option.map_eq_some_iff.1 h
    rw [Table.get?_set]
    refine ite_congr rfl (fun hid => ?_) fun _ => rfl
    subst hid
    simp [row, UserWrite.id, hold]
  | updatePassword k newPassword =>
    obtain ⟨old, hold, rfl⟩ := Option.map_eq_some_iff.1 h
    obtain ⟨-, rfl⟩ := Table.mem_of_get? hold
    rw [Table.get?_set]
    refine ite_congr rfl (fun hid => ?_) fun _ => rfl
    subst hid
    simp [row, UserWrite.id, hold]
  | delete k =>
    cases h
    exact Table.get?_erase id k

/-- Only writes to a document that is not there are rejected. -/
theorem get?_of_apply_eq_none (h : x.apply users = none) : users.get? x.id = none := by
  cases x with
  | update user editing => exact Option.map_eq_none_iff.1 h
  | updatePassword id newPassword => exact Option.map_eq_none_iff.1 h
  | delete id => cases h

end UserWrite

/-! ## Accounts in use -/

/-- The document a handler is about. -/
def Waiting.id? : Waiting D C → Option String
  | deleteData user _ => some user.id
  | courseMap .. => none
  | readBack id => some id

/-- A password is being changed. -/
def PendingWrite.changing (x : PendingWrite D) : Bool :=
  x.awaited && match x.write with
    | .updatePassword .. => true
    | .update .. | .delete _ => false

theorem PendingWrite.settled_of_changing {x : PendingWrite D} (h : x.changing = true) :
    x.settled = false := by
  unfold changing at h
  unfold settled
  grind

def Waiting.changing : Waiting D C → Bool
  | readBack _ => true
  | deleteData .. | courseMap .. => false

/-- The user an action signs in. -/
def PhoneAction.logsIn (env : Platform C) (users : Users D) :
    PhoneAction D C → Option (User D)
  | .logIn email password =>
    (LoginFunction.login env.hashPassword (env.toLowerCase email) password users).toOption
  | _ => none

namespace Phone

/-- The id of the user in the box. -/
def userId (p : Phone D C) : Option String := p.userKey.map User.id

def changing (p : Phone D C) : Bool :=
  p.writes.any PendingWrite.changing || p.waiting.any Waiting.changing

/-- The installation has to do with the account. -/
def Refers (p : Phone D C) (id : String) : Prop :=
  p.userId = some id ∨ (∃ x ∈ p.writes, x.write.id = id) ∨ ∃ x ∈ p.waiting, x.id? = some id

instance (p : Phone D C) (id : String) : Decidable (p.Refers id) :=
  inferInstanceAs (Decidable (_ ∨ _ ∨ _))

/-- The document of the account once the writes on their way have reached it. -/
def drained (p : Phone D C) (id : String) (row : Option (User D)) : Option (User D) :=
  Outbox.drain UserWrite.id UserWrite.row id (p.writes.map PendingWrite.write) row

/-- The copy in the box follows the document. -/
structure Follows (p : Phone D C) (row : String → Option (User D)) : Prop where
  /-- What is under way is about the user in the box. -/
  write : ∀ x ∈ p.writes, x.settled = false → p.userId = some x.write.id
  waiting : ∀ x ∈ p.waiting, ∀ id, x.id? = some id → p.userId = some id
  /-- Nothing is sent after a new password. -/
  last : ∀ x ∈ p.writes.dropLast, x.changing = false
  quiet : ∀ x ∈ p.waiting, x.changing = true → p.writes = []
  agrees : ∀ u, p.userKey = some u → p.drained u.id (row u.id) = none ∨
    p.drained u.id (row u.id) = some u ∨
    p.changing = true ∧ ∃ hash, p.drained u.id (row u.id) = some { u with password := hash }

end Phone

/-! ## What refers to an account -/

namespace Phone

variable {p p' : Phone D C} {id : String} {user : User D}

theorem refers_saveUser (h : (p.saveUser user).Refers id) : user.id = id ∨ p.Refers id := by
  rcases h with h | h
  · exact .inl (Option.some.inj h)
  · exact .inr (.inr h)

theorem refers_send {x : UserWrite D} (h : (p.send x).Refers id) : x.id = id ∨ p.Refers id := by
  rcases h with h | ⟨y, hy, hid⟩ | h
  · exact .inr (.inl h)
  · rcases List.mem_append.1 hy with hy | hy
    · exact .inr (.inr (.inl ⟨y, hy, hid⟩))
    · rw [List.mem_singleton.1 hy] at hid
      exact .inl hid
  · exact .inr (.inr (.inr h))

theorem refers_wait {x : Waiting D C} (h : (p.wait x).Refers id) :
    x.id? = some id ∨ p.Refers id := by
  rcases h with h | h | ⟨y, hy, hid⟩
  · exact .inr (.inl h)
  · exact .inr (.inr (.inl h))
  · rcases List.mem_append.1 hy with hy | hy
    · exact .inr (.inr (.inr ⟨y, hy, hid⟩))
    · rw [List.mem_singleton.1 hy] at hid
      exact .inl hid

theorem refers_update {editing : Bool} {new : Option (User D)}
    (h : (p.update editing new).Refers id) : (∃ u, new = some u ∧ u.id = id) ∨ p.Refers id := by
  cases new with
  | none => exact .inr h
  | some new =>
    rcases refers_send h with h | h
    · exact .inl ⟨new, rfl, h⟩
    · exact (refers_saveUser h).imp (fun h => ⟨new, rfl, h⟩) fun h => h

theorem refers_loadCourseMap {login : Bool} (h : (p.loadCourseMap login user).Refers id) :
    p.Refers id := by
  unfold loadCourseMap at h
  split at h
  · rcases refers_wait h with h | h
    · cases h
    · exact h
  · exact h

theorem refers_clearData {route : Route}
    (h : ({ p.clearData with route } : Phone D C).Refers id) : p.Refers id := by
  rcases h with h | h
  · cases h
  · exact .inr h

theorem refers_restart (h : p.restart.Refers id) : p.Refers id := by
  rcases h with h | ⟨x, hx, hid⟩ | ⟨x, hx, -⟩
  · exact .inl h
  · obtain ⟨y, hy, rfl⟩ := List.mem_map.1 hx
    exact .inr (.inl ⟨y, hy, hid⟩)
  · cases hx

theorem refers_resume {x : UserWrite D} (h : (p.resume x).Refers id) : x.id = id ∨ p.Refers id := by
  cases x with
  | update user editing =>
    cases editing with
    | false => exact .inr h
    | true => exact .inr (refers_loadCourseMap h)
  | updatePassword k newPassword => exact (refers_wait h).imp Option.some.inj fun h => h
  | delete k => exact .inr (refers_clearData h)

theorem refers_receive [Floating D] {env : Platform C} {users : Users D} {ok : Bool}
    {x : Waiting D C} (h : (p.receive env users ok x).Refers id) :
    x.id? = some id ∨ p.Refers id := by
  cases x with
  | deleteData user screen =>
    rcases refers_update h with ⟨new, hnew, rfl⟩ | h
    · obtain ⟨level, cgpa, rfl⟩ := EditProfileScreen.newUser_eq hnew
      exact .inl rfl
    · exact .inr h
  | courseMap login uni faculty course =>
    cases login <;> exact .inr h
  | readBack k =>
    simp only [receive] at h
    split at h
    · next user huser =>
      split_ifs at h
      · rcases refers_saveUser h with rfl | h
        · exact .inl (congrArg some (Table.mem_of_get? huser).2.symm)
        · exact .inr h
      · exact .inr h
    · exact .inr h

/-- Only a log-in refers to something new. -/
theorem Effect.refers [Floating D] {env : Platform C} {users : Users D} {a : PhoneAction D C}
    (heffect : p.Effect env users a p') (hphase : p.Phase) (h : p'.Refers id) : p.Refers id ∨
      ∃ user ∈ users.rows, a.logsIn env users = some user ∧ user.id = id := by
  have signedIn : ∀ {user : User D}, p.route = .main → p.auth.user = some user →
      user.id = id → p.Refers id :=
    fun {_} hroute huser hid => .inl (by simp [userId, hphase.userKey_of_main hroute huser, hid])
  cases heffect with
  | nothing => exact .inl h
  | refused => exact .inl h
  | signUp => exact .inl h
  | wrong => exact .inl h
  | logIn user hmem hroute hlogin =>
    rcases refers_saveUser (refers_loadCourseMap h) with hid | h
    · exact .inr ⟨user, hmem, by rw [PhoneAction.logsIn, hlogin, Except.toOption], hid⟩
    · exact .inl h
  | logOut => exact .inl (refers_clearData h)
  | update user new huser hnew hroute =>
    have hid : new.id = user.id := show new.account.id = user.account.id by rw [hnew]
    have h : (p.update false (some new)).Refers id := h
    rcases refers_update h with ⟨u, hu, rfl⟩ | h
    · cases hu
      exact .inl (signedIn hroute huser hid.symm)
    · exact .inl h
  | edit user screen' huser hroute =>
    rcases refers_wait h with h | h
    · exact .inl (signedIn hroute huser (Option.some.inj h))
    · exact .inl h
  | changePassword user huser hroute =>
    rcases refers_send h with h | h
    · exact .inl (signedIn hroute huser h)
    · exact .inl h
  | deleteAccount user huser hroute =>
    rcases refers_send h with h | h
    · exact .inl (signedIn hroute huser h)
    · exact .inl h
  | answer x hx =>
    rcases refers_receive h with h | h | h | ⟨y, hy, h⟩
    · exact .inl (.inr (.inr ⟨x, List.mem_of_getElem? hx, h⟩))
    · exact .inl (.inl h)
    · exact .inl (.inr (.inl h))
    · exact .inl (.inr (.inr ⟨y, List.mem_of_mem_eraseIdx hy, h⟩))
  | restart => exact .inl (refers_restart h)

/-! ## Steps of an installation -/

theorem settled_of_busy (h : p.busy = 0) : ∀ x ∈ p.writes, x.settled = true := by
  unfold busy at h
  have hcount : p.writes.countP (fun x => !x.settled) = 0 := by omega
  simpa [List.countP_eq_zero] using hcount

/-- A change of the password is under way. -/
theorem changing_of_busy (h : p.busy = 0) : p.changing = false := by
  have hsettled := settled_of_busy h
  rw [changing, waiting_eq_nil h, List.any_nil, Bool.or_false, List.any_eq_false]
  intro x hx hchanging
  have hx := hsettled x hx
  unfold PendingWrite.settled at hx
  unfold PendingWrite.changing at hchanging
  grind

/-- Whoever waits is the only one. -/
theorem Phase.busy_erase (h : p.Phase) {k : ℕ} {x : Waiting D C} (hx : p.waiting[k]? = some x) :
    ({ p with waiting := p.waiting.eraseIdx k } : Phone D C).busy = 0 := by
  have hbusy := busy_eraseIdx hx
  cases h with
  | signedOut _ hzero => omega
  | loggingIn user uni faculty course _ _ hone => omega
  | signedIn user data _ hle => omega
  | stuck user _ hzero => omega

/-- Nothing else waits. -/
theorem Phase.waiting_eq (h : p.Phase) {k : ℕ} {x : Waiting D C} (hx : p.waiting[k]? = some x) :
    p.waiting = [x] := by
  have hrest : p.waiting.eraseIdx k = [] := waiting_eq_nil (h.busy_erase hx)
  obtain ⟨hk, -⟩ := List.getElem?_eq_some_iff.1 hx
  have hlength := congrArg List.length hrest
  rw [List.length_eraseIdx_of_lt hk, List.length_nil] at hlength
  obtain ⟨y, hy⟩ := List.length_eq_one_iff.1 (show p.waiting.length = 1 by omega)
  have hmem := List.mem_of_getElem? hx
  rw [hy, List.mem_singleton] at hmem
  rw [hy, hmem]

theorem drained_send {x : UserWrite D} (hid : x.id = id) (p : Phone D C) (row : Option (User D)) :
    (p.send x).drained id row = x.row (p.drained id row) := by
  rw [drained, send, List.map_append]
  exact Outbox.drain_send.trans (if_pos hid)

theorem drained_nil (h : p.writes = []) (id : String) (row : Option (User D)) :
    p.drained id row = row := by
  rw [drained, h, List.map_nil, Outbox.drain_nil]

theorem drained_of_not_refers (h : ¬p.Refers id) (row : Option (User D)) :
    p.drained id row = row := by
  refine Outbox.drain_of_forall_ne fun x hx hid => ?_
  obtain ⟨y, hy, rfl⟩ := List.mem_map.1 hx
  exact h (.inr (.inl ⟨y, hy, hid⟩))

variable {row : String → Option (User D)}

/-- The route and the provider do not matter. -/
theorem Follows.same (h : p.Follows row) (huser : p'.userKey = p.userKey)
    (hwrites : p'.writes = p.writes) (hwaiting : p'.waiting = p.waiting) : p'.Follows row := by
  obtain ⟨route, auth, userKey, courseData, writes, waiting⟩ := p
  obtain ⟨route', auth', userKey', courseData', writes', waiting'⟩ := p'
  obtain rfl : userKey' = userKey := huser
  obtain rfl : writes' = writes := hwrites
  obtain rfl : waiting' = waiting := hwaiting
  exact ⟨h.write, h.waiting, h.last, h.quiet, h.agrees⟩

/-- Where nothing is under way, only the copy has to be looked at. -/
theorem Follows.of_busy (hbusy : p.busy = 0)
    (hagrees : ∀ u, p.userKey = some u → p.drained u.id (row u.id) = none ∨
      p.drained u.id (row u.id) = some u) : p.Follows row where
  write x hx hsettled := by
    rw [settled_of_busy hbusy x hx] at hsettled
    cases hsettled
  waiting x hx := by
    rw [waiting_eq_nil hbusy] at hx
    cases hx
  last x hx := by
    have hnone := changing_of_busy hbusy
    simp only [changing, Bool.or_eq_false_iff, List.any_eq_false] at hnone
    simpa using hnone.1 x (List.mem_of_mem_dropLast hx)
  quiet x hx := by
    rw [waiting_eq_nil hbusy] at hx
    cases hx
  agrees u hu := (hagrees u hu).imp_right .inl

/-- While no password is being changed the copy follows. -/
theorem Follows.agrees_of_changing (h : p.Follows row) (hchanging : p.changing = false) {u : User D}
    (hu : p.userKey = some u) :
    p.drained u.id (row u.id) = none ∨ p.drained u.id (row u.id) = some u := by
  rcases h.agrees u hu with hnone | hsome | ⟨htrue, -⟩
  · exact .inl hnone
  · exact .inr hsome
  · rw [hchanging] at htrue
    cases htrue

/-- A write to the document of the user in the box. -/
theorem Follows.send (h : p.Follows row) (x : UserWrite D) (new : Option (User D))
    (hchanging : p.changing = false) (hnew : new.map User.id = p.userId) (hx : p.userId = some x.id)
    (hagrees : ∀ u, new = some u → ((p.send x).drained u.id (row u.id)) = none ∨
      (p.send x).drained u.id (row u.id) = some u ∨ (p.send x).changing = true ∧
        ∃ hash, (p.send x).drained u.id (row u.id) = some { u with password := hash }) :
    ({ p.send x with userKey := new } : Phone D C).Follows row where
  write y hy hsettled := by
    refine hnew.trans ?_
    rcases List.mem_append.1 hy with hy | hy
    · exact h.write y hy hsettled
    · rw [List.mem_singleton.1 hy]
      exact hx
  waiting y hy id hid := hnew.trans (h.waiting y hy id hid)
  last y hy := by
    have hall : ∀ z ∈ p.writes, z.changing = false := by
      simp only [changing, Bool.or_eq_false_iff, List.any_eq_false] at hchanging
      simpa using hchanging.1
    simp only [Phone.send, List.dropLast_concat] at hy
    exact hall y hy
  quiet y hy hchange := by
    simp only [changing, Bool.or_eq_false_iff, List.any_eq_false] at hchanging
    exact absurd hchange (hchanging.2 y hy)
  agrees := hagrees

theorem Follows.update (h : p.Follows row) (hchanging : p.changing = false) {new : User D}
    (hnew : p.userId = some new.id) (editing : Bool) :
    ((p.saveUser new).send (.update new editing)).Follows row := by
  have hsend := h.send (.update new editing) (some new) hchanging hnew.symm hnew ?_
  · exact hsend.same rfl rfl rfl
  · rintro u ⟨⟩
    rw [drained_send (by rfl), UserWrite.row]
    cases p.drained new.id (row new.id) with
    | none => exact .inl rfl
    | some old => exact .inr (.inl rfl)

/-- An awaited question about the programme does not matter either. -/
theorem Follows.wait (h : p.Follows row) {x : Waiting D C} (hx : x.changing = false)
    (hid : ∀ id, x.id? = some id → p.userId = some id) : (p.wait x).Follows row where
  write := h.write
  waiting y hy id hy' := by
    rcases List.mem_append.1 hy with hy | hy
    · exact h.waiting y hy id hy'
    · rw [List.mem_singleton.1 hy] at hy'
      exact hid id hy'
  last := h.last
  quiet y hy hchange := by
    rcases List.mem_append.1 hy with hy | hy
    · exact h.quiet y hy hchange
    · rw [List.mem_singleton.1 hy, hx] at hchange
      cases hchange
  agrees u hu := by
    have hsame : (p.wait x).changing = p.changing := by simp [changing, Phone.wait, hx]
    rw [hsame]
    exact h.agrees u hu

theorem Follows.loadCourseMap (h : p.Follows row) (login : Bool) (user : User D) :
    (p.loadCourseMap login user).Follows row := by
  unfold Phone.loadCourseMap
  split
  · exact h.wait rfl nofun
  · exact h

theorem Follows.restart (h : p.Follows row) (hchanging : p.changing = false) :
    p.restart.Follows row := by
  refine .of_busy (busy_restart p) fun u hu => ?_
  have hdrained : p.restart.drained u.id (row u.id) = p.drained u.id (row u.id) := by
    simp [drained, Phone.restart, Function.comp_def, PendingWrite.orphan]
  rw [hdrained]
  exact h.agrees_of_changing hchanging hu

/-- The handler that waits is off the list. -/
theorem Follows.erase (h : p.Follows row) (hphase : p.Phase) {k : ℕ} {x : Waiting D C}
    (hx : p.waiting[k]? = some x) (hchanging : x.changing = false) :
    ({ p with waiting := p.waiting.eraseIdx k } : Phone D C).Follows row := by
  refine .of_busy (hphase.busy_erase hx) fun u hu => ?_
  refine h.agrees_of_changing ?_ hu
  have hrest : ({ p with waiting := p.waiting.eraseIdx k } : Phone D C).changing = false :=
    changing_of_busy (hphase.busy_erase hx)
  simp only [changing, Bool.or_eq_false_iff] at hrest
  rw [changing, hphase.waiting_eq hx]
  simp [hrest.1, hchanging]

/-- The answer to a handler: the document is read back, or the copy is changed and sent. -/
theorem Follows.receive [Floating D] (h : p.Follows row) (hphase : p.Phase) {k : ℕ}
    {x : Waiting D C} (hx : p.waiting[k]? = some x) {env : Platform C} {users : Users D} {ok : Bool}
    (hrow : ∀ id, row id = users.get? id) (hok : p.changing = true → ok = true) :
    ({ p with waiting := p.waiting.eraseIdx k }.receive env users ok x).Follows row := by
  have hmem : x ∈ p.waiting := List.mem_of_getElem? hx
  have hzero := hphase.busy_erase hx
  cases x with
  | deleteData user screen =>
    have hrest := h.erase hphase hx rfl
    simp only [Phone.receive, Phone.update]
    split
    · exact hrest
    · next new hnew =>
      have hid : p.userId = some user.id := h.waiting _ hmem _ rfl
      refine hrest.update (changing_of_busy hzero) ?_ true
      obtain ⟨level, cgpa, rfl⟩ := EditProfileScreen.newUser_eq hnew
      exact hid
  | courseMap login uni faculty course =>
    have hrest := h.erase hphase hx rfl
    cases login <;> exact hrest.same rfl rfl rfl
  | readBack id =>
    have hid : p.userId = some id := h.waiting _ hmem _ rfl
    have hwrites : p.writes = [] := h.quiet _ hmem rfl
    have hchanging : p.changing = true := by simp [changing, hphase.waiting_eq hx, Waiting.changing]
    simp only [Phone.receive, hok hchanging, if_true]
    split
    · next user huser =>
      refine .of_busy hzero fun u hu => .inr ?_
      cases hu
      refine (drained_nil hwrites _ _).trans ?_
      rw [hrow, (Table.mem_of_get? huser).2, huser]
    · next hnone =>
      refine .of_busy hzero fun u hu => .inl ?_
      have huid : u.id = id := by
        rw [userId, show p.userKey = some u from hu] at hid
        exact Option.some.inj hid
      refine (drained_nil hwrites _ _).trans ?_
      rw [hrow, huid, hnone]

/-- An action while a password is being changed is the answer to it. -/
def Patient (p : Phone D C) : PhoneAction D C → Prop
  | .answer _ ok => p.changing = true → ok = true
  | _ => p.changing = false

instance (p : Phone D C) : (a : PhoneAction D C) → Decidable (p.Patient a)
  | .answer _ ok => inferInstanceAs (Decidable (p.changing = true → ok = true))
  | .signUp .. | .logIn .. | .logOut | .incrementUser _ | .updateUserCGPA _ | .editProfile _
  | .changePassword .. | .deleteAccount | .restart =>
    inferInstanceAs (Decidable (p.changing = false))

theorem Effect.follows [Floating D] {env : Platform C} {users : Users D} {a : PhoneAction D C}
    (heffect : p.Effect env users a p') (h : p.Follows users.get?) (hphase : p.Phase)
    (hbegins : a.begins = true → p.busy = 0) (hpatient : p.Patient a)
    (hlogin : ∀ user, a.logsIn env users = some user → ¬p.Refers user.id) :
    p'.Follows users.get? := by
  cases heffect with
  | nothing => exact h
  | refused => exact h
  | signUp => exact h.same rfl rfl rfl
  | wrong => exact h.same rfl rfl rfl
  | logIn user hmem hroute hok =>
    have hbusy : ({ p with route := .welcome }.saveUser user).busy = 0 := hbegins rfl
    refine Follows.loadCourseMap (.of_busy hbusy fun u hu => .inr ?_) true user
    cases hu
    have hrefers := hlogin user (by rw [PhoneAction.logsIn, hok, Except.toOption])
    have hdrained : p.drained user.id (users.get? user.id) = users.get? user.id :=
      drained_of_not_refers hrefers _
    exact hdrained.trans (Table.get?_eq_some_iff.2 ⟨hmem, rfl⟩)
  | logOut hroute =>
    refine .of_busy (hbegins rfl) fun u hu => ?_
    cases hu
  | update user new huser hnew hroute hupload =>
    have hid : new.id = user.id := show new.account.id = user.account.id by rw [hnew]
    refine h.update ?_ (by simp [userId, hphase.userKey_of_main hroute huser, hid]) false
    cases a with
    | incrementUser | updateUserCGPA => exact hpatient
    | _ => cases hupload
  | edit user screen' huser hroute =>
    refine h.wait rfl fun id hid => ?_
    simp [userId, hphase.userKey_of_main hroute huser, Option.some.inj hid]
  | @changePassword password newPassword confirmed user huser hroute =>
    have hkey := hphase.userKey_of_main hroute huser
    have hchanging := changing_of_busy (hbegins rfl)
    have hid : p.userId = some user.id := by simp [userId, hkey]
    refine (h.send (.updatePassword user.id (env.hashPassword newPassword)) p.userKey hchanging
      rfl hid ?_).same rfl rfl rfl
    intro u hu
    obtain rfl : user = u := Option.some.inj (hkey.symm.trans hu)
    rw [drained_send (by rfl), UserWrite.row]
    rcases h.agrees_of_changing hchanging hu with hnone | hsome
    · exact .inl (by rw [hnone, Option.map_none])
    · refine .inr (.inr ⟨?_, _, by rw [hsome, Option.map_some]⟩)
      simp [changing, Phone.send, PendingWrite.changing]
  | deleteAccount user huser hroute =>
    have hkey := hphase.userKey_of_main hroute huser
    have hid : p.userId = some user.id := by simp [userId, hkey]
    refine (h.send (.delete user.id) p.userKey (changing_of_busy (hbegins rfl)) rfl hid ?_).same
      rfl rfl rfl
    intro u hu
    obtain rfl : user = u := Option.some.inj (hkey.symm.trans hu)
    exact .inl (drained_send (by rfl) p _)
  | answer x hx => exact h.receive hphase hx (fun _ => rfl) hpatient
  | restart => exact h.restart hpatient

/-! ## Answers to writes -/

theorem Phase.busy_le (h : p.Phase) : p.busy ≤ 1 := by
  cases h with
  | signedOut _ hzero => omega
  | loggingIn user uni faculty course _ _ hone => omega
  | signedIn user data _ hle => exact hle
  | stuck user _ hzero => omega

variable {x : PendingWrite D} {rest : List (PendingWrite D)} {row' : String → Option (User D)}

theorem Phase.busy_rest_eq_zero (h : p.Phase) (hwrites : p.writes = x :: rest)
    (hsettled : x.settled = false) : ({ p with writes := rest } : Phone D C).busy = 0 := by
  have hle := h.busy_le
  rw [busy_rest hwrites, hsettled, if_neg nofun] at hle
  omega

theorem drained_rest (hwrites : p.writes = x :: rest)
    (hrow : ∀ id, row' id = if x.write.id = id then x.write.row (row id) else row id)
    (id : String) :
    p.drained id (row id) = ({ p with writes := rest } : Phone D C).drained id (row' id) := by
  rw [drained, hwrites, List.map_cons, Outbox.drain_cons, hrow]
  rfl

/-- A write that is answered, if it does not change a password. -/
theorem Follows.answered (h : p.Follows row) (hwrites : p.writes = x :: rest)
    (hrow : ∀ id, row' id = if x.write.id = id then x.write.row (row id) else row id)
    (hx : x.changing = false) : ({ p with writes := rest } : Phone D C).Follows row' where
  write y hy := h.write y (by simp [hwrites, hy])
  waiting := h.waiting
  last y hy := by
    refine h.last y ?_
    cases rest with
    | nil => cases hy
    | cons z rest => simpa [hwrites] using .inr hy
  quiet y hy hchange := by
    have hnil := h.quiet y hy hchange
    rw [hwrites] at hnil
    cases hnil
  agrees u hu := by
    have hchanging : ({ p with writes := rest } : Phone D C).changing = p.changing := by
      simp [changing, hwrites, hx]
    have hagrees := h.agrees u hu
    rwa [drained_rest hwrites hrow, ← hchanging] at hagrees

/-- The new password is there, and the handler reads the document back. -/
theorem Follows.updatePassword (h : p.Follows row) (hphase : p.Phase) {id newPassword : String}
    (hwrites : p.writes = ⟨.updatePassword id newPassword, true⟩ :: rest)
    (hrow : ∀ k, row' k = if id = k then (UserWrite.updatePassword id newPassword).row (row k)
      else row k) :
    (({ p with writes := rest } : Phone D C).wait (.readBack id)).Follows row' := by
  have hmem : ⟨.updatePassword id newPassword, true⟩ ∈ p.writes := by simp [hwrites]
  have hid : p.userId = some id := h.write _ hmem rfl
  have hbusy := hphase.busy_rest_eq_zero hwrites rfl
  have hwaiting : p.waiting = [] := by simpa using waiting_eq_nil hbusy
  -- nothing was sent after it
  obtain rfl : rest = [] := by
    cases rest with
    | nil => rfl
    | cons z rest =>
      have hfirst := h.last ⟨.updatePassword id newPassword, true⟩ (by simp [hwrites])
      cases hfirst
  have hchanging : (({ p with writes := [] } : Phone D C).wait (.readBack id)).changing = true := by
    simp [changing, Phone.wait, Waiting.changing]
  refine ⟨fun x hx => absurd hx List.not_mem_nil, fun x hx k hk => ?_,
    fun x hx => absurd hx List.not_mem_nil, fun _ _ _ => rfl, fun u hu => ?_⟩
  · simp only [Phone.wait, hwaiting, List.nil_append, List.mem_singleton] at hx
    subst hx
    rw [← hk]
    exact hid
  · have hagrees := h.agrees u hu
    rw [drained_rest hwrites hrow] at hagrees
    rcases hagrees with hnone | hsome | ⟨-, hhash⟩
    · exact .inl hnone
    · exact .inr (.inl hsome)
    · exact .inr (.inr ⟨hchanging, hhash⟩)

/-- An accepted write whose handler still waits. -/
theorem Follows.resume (h : p.Follows row) (hphase : p.Phase) (hwrites : p.writes = x :: rest)
    (hrow : ∀ id, row' id = if x.write.id = id then x.write.row (row id) else row id)
    (hawaited : x.awaited = true) :
    (({ p with writes := rest } : Phone D C).resume x.write).Follows row' := by
  obtain ⟨write, awaited⟩ := x
  obtain rfl : awaited = true := hawaited
  cases write with
  | update user editing =>
    have hrest := h.answered hwrites hrow rfl
    cases editing with
    | false => exact hrest
    | true => exact hrest.loadCourseMap false user
  | updatePassword id newPassword => exact h.updatePassword hphase hwrites hrow
  | delete id =>
    have hbusy := hphase.busy_rest_eq_zero hwrites rfl
    refine .of_busy hbusy fun u hu => ?_
    cases hu

/-- A write to a document that is gone. -/
theorem Follows.rejected (h : p.Follows row) (hphase : p.Phase) (hwrites : p.writes = x :: rest)
    (hnone : row x.write.id = none) : ({ p with writes := rest } : Phone D C).Follows row := by
  cases hx : x.changing with
  | false =>
    refine h.answered hwrites (fun id => ?_) hx
    split_ifs with hid
    · rw [← hid, hnone, UserWrite.row_none]
    · rfl
  | true =>
    refine .of_busy (hphase.busy_rest_eq_zero hwrites (PendingWrite.settled_of_changing hx))
      fun u hu => .inl ?_
    have hid : p.userId = some x.write.id :=
      h.write x (by simp [hwrites]) (PendingWrite.settled_of_changing hx)
    have huid : u.id = x.write.id := by
      rw [userId, show p.userKey = some u from hu] at hid
      exact Option.some.inj hid
    rw [huid, hnone]
    exact Outbox.drain_of_forall_eq UserWrite.row_none

/-- Other documents do not matter. -/
theorem Follows.congr (h : p.Follows row)
    (hrow : ∀ id, p.userId = some id → row' id = row id) : p.Follows row' where
  write := h.write
  waiting := h.waiting
  last := h.last
  quiet := h.quiet
  agrees u hu := by
    rw [hrow u.id (by rw [userId, hu, Option.map_some])]
    exact h.agrees u hu

end Phone

namespace Service

variable {w w' : Service ι D C}

/-- One thing at a time, and one installation for an account: a log-in is to an account that
nothing refers to. Nothing is begun while a password is changed, and no write is rejected. -/
def Orderly (env : Platform C) (w : Service ι D C) : ServiceAction ι D C → Prop
  | .on i a => w.OneAtATime (.on i a) ∧ (w.phones i).Patient a ∧
      ∀ user ∈ a.logsIn env w.users, ∀ j, ¬(w.phones j).Refers user.id
  | .submit i screen accepted killed => w.OneAtATime (.submit i screen accepted killed)
  | .answerWrite _ accepted => accepted = true

instance [Fintype ι] (env : Platform C) (w : Service ι D C) :
    (a : ServiceAction ι D C) → Decidable (w.Orderly env a)
  | .on _ _ => inferInstanceAs (Decidable (_ ∧ _ ∧ _))
  | .submit i screen accepted killed =>
    inferInstanceAs (Decidable (w.OneAtATime (.submit i screen accepted killed)))
  | .answerWrite _ accepted => inferInstanceAs (Decidable (accepted = true))

theorem Orderly.alone {env : Platform C} {a : ServiceAction ι D C} (h : w.Orderly env a) :
    w.OneAtATime a := by
  cases a with
  | on i a => exact h.1
  | submit => exact h
  | answerWrite => trivial

/-- Each account is used on one installation, whose copy follows the document. -/
structure InStep (w : Service ι D C) : Prop where
  separate : w.Separate
  follows : ∀ i, (w.phones i).Follows w.users.get?
  used : ∀ i id, (w.phones i).Refers id → id ∈ w.issued ∧ ¬w.SigningUp id
  alone : ∀ i j id, (w.phones i).Refers id → (w.phones j).Refers id → i = j

theorem not_refers_new {id : String} : ¬(Phone.new : Phone D C).Refers id := by
  simp [Phone.Refers, Phone.new, Phone.userId]

theorem InStep.start {users : Users D} (hrows : ∀ u ∈ users.rows, u.hasProgramme) :
    (start users : Service ι D C).InStep where
  separate := .start hrows
  follows _ := .of_busy rfl nofun
  used _ _ h := absurd h not_refers_new
  alone _ _ _ h := absurd h not_refers_new

variable [DecidableEq ι] [Floating D] {env : Platform C} {a : ServiceAction ι D C}

/-- A step of one installation. What it refers to from now on nothing else does. -/
theorem InStep.of_step (h : w.InStep) (hseparate : w'.Separate) (hstep : w.step env a = some w')
    (i : ι) (hother : ∀ j, j ≠ i → w'.phones j = w.phones j)
    (hfollows : (w'.phones i).Follows w'.users.get?)
    (hrow : ∀ j, j ≠ i → ∀ id, (w.phones j).Refers id → w'.users.get? id = w.users.get? id)
    (hrefers : ∀ id, (w'.phones i).Refers id → (w.phones i).Refers id ∨
      (∃ row ∈ w'.users.rows, row.id = id) ∧ ∀ j, j ≠ i → ¬(w.phones j).Refers id) :
    w'.InStep := by
  have kept : ∀ j id, (w.phones j).Refers id → id ∈ w'.issued ∧ ¬w'.SigningUp id :=
    fun j id hid => ⟨issued_step hstep id (h.used j id hid).1, fun hnew =>
      (h.used j id hid).2 (signingUp_step h.separate.sound hstep (h.used j id hid).1 hnew)⟩
  have single : ∀ j id, j ≠ i → (w'.phones i).Refers id → ¬(w.phones j).Refers id := by
    intro j id hj hid hjid
    rcases hrefers id hid with hid | ⟨-, hnone⟩
    · exact hj (h.alone j i id hjid hid)
    · exact hnone j hj hjid
  refine ⟨hseparate, fun j => ?_, fun j id hid => ?_, fun j k id hjid hkid => ?_⟩
  · by_cases hj : j = i
    · exact hj ▸ hfollows
    · rw [hother j hj]
      refine (h.follows j).congr fun id hid => hrow j hj id (.inl hid)
  · by_cases hj : j = i
    · subst hj
      rcases hrefers id hid with hid | ⟨⟨row, hrow, rfl⟩, -⟩
      · exact kept j id hid
      · exact ⟨hseparate.row_issued hrow, hseparate.row row hrow⟩
    · rw [hother j hj] at hid
      exact kept j id hid
  · by_cases hj : j = i <;> by_cases hk : k = i
    · exact hj.trans hk.symm
    · subst hj
      rw [hother k hk] at hkid
      exact absurd hkid (single k id hk hjid)
    · subst hk
      rw [hother j hj] at hjid
      exact absurd hjid (single j id hj hkid)
    · rw [hother j hj] at hjid
      rw [hother k hk] at hkid
      exact h.alone j k id hjid hkid

omit [DecidableEq ι] [Floating D] in
/-- What a submit stores is the first document of its account. -/
theorem Submitted.follows {p p' : Phone D C} {users : Users D}
    (hsubmit : w.Submitted env p users p')
    (hphase : p.Phase) (hroute : p.route = .fillProfile) (hbusy : p.busy = 0)
    (hnew : ∀ v, p.SignsUp v → ¬p.Refers v.id) : p'.Follows users.get? := by
  obtain ⟨hkey, -⟩ := hphase.of_out (.inr hroute) hbusy
  have empty : ∀ (q : Phone D C) (row : String → Option (User D)), q.busy = 0 → q.userKey = none →
      q.Follows row := by
    intro q row hq hnone
    refine .of_busy hq fun u hu => ?_
    rw [hnone] at hu
    cases hu
  cases hsubmit with
  | nothing => exact empty _ _ hbusy hkey
  | killed => exact empty _ _ (Phone.busy_restart p) hkey
  | rejected user filled => exact empty _ _ hbusy hkey
  | stored user filled data huser hkept =>
    refine .of_busy hbusy fun u hu => .inr ?_
    cases hu
    have hid : filled.id = user.id := congrArg Identity.id hkept
    have hdrained : p.drained filled.id ((w.users.set filled).get? filled.id) =
        (w.users.set filled).get? filled.id :=
      Phone.drained_of_not_refers (hid ▸ hnew user ⟨hroute, huser⟩) _
    exact hdrained.trans ((Table.get?_set _).trans (if_pos rfl))
  | storedKilled user filled => exact empty _ _ (Phone.busy_restart p) hkey

omit [DecidableEq ι] [Floating D] in
/-- A submit stores a document under the id of the sign-up, or none. -/
theorem Submitted.refers {p p' : Phone D C} {users : Users D}
    (hsubmit : w.Submitted env p users p')
    (hroute : p.route = .fillProfile) :
    (users = w.users ∨ ∃ v filled, p.SignsUp v ∧ filled.id = v.id ∧ users = w.users.set filled) ∧
      ∀ id, p'.Refers id → p.Refers id ∨
        ∃ v, p.SignsUp v ∧ v.id = id ∧ ∃ row ∈ users.rows, row.id = id := by
  have stored : ∀ {user filled : User D}, p.auth.user = some user →
      filled.identity = user.identity → filled.id = user.id ∧ p.SignsUp user :=
    fun {_ _} huser hkept => ⟨congrArg Identity.id hkept, hroute, huser⟩
  cases hsubmit with
  | nothing => exact ⟨.inl rfl, fun id hid => .inl hid⟩
  | killed => exact ⟨.inl rfl, fun id hid => .inl (Phone.refers_restart hid)⟩
  | rejected user filled => exact ⟨.inl rfl, fun id hid => .inl hid⟩
  | stored user filled data huser hkept =>
    obtain ⟨hid, hsignsUp⟩ := stored huser hkept
    refine ⟨.inr ⟨user, filled, hsignsUp, hid, rfl⟩, ?_⟩
    rintro id (hkey | hrest)
    · obtain rfl : filled.id = id := Option.some.inj hkey
      exact .inr ⟨user, hsignsUp, hid.symm, filled, Table.mem_set.2 (.inl rfl), rfl⟩
    · exact .inl (.inr hrest)
  | storedKilled user filled huser hkept =>
    obtain ⟨hid, hsignsUp⟩ := stored huser hkept
    exact ⟨.inr ⟨user, filled, hsignsUp, hid, rfl⟩, fun id h => .inl (Phone.refers_restart h)⟩

theorem InStep.step (h : w.InStep) (horderly : w.Orderly env a) (hstep : w.step env a = some w') :
    w'.InStep := by
  have hseparate := h.separate.step horderly.alone hstep
  cases a with
  | on i a =>
    have hstep' := hstep
    obtain ⟨p, heffect, -, rfl⟩ := step_on hstep'
    obtain ⟨halone, hpatient, hlogin⟩ := horderly
    have hphase := h.separate.sound.phase i
    refine h.of_step hseparate hstep i (fun j hj => Function.update_of_ne hj _ _) ?_
      (fun _ _ _ _ => rfl) fun id hid => ?_
    · simpa [setPhone] using heffect.follows (h.follows i) hphase halone hpatient
        fun user huser => hlogin user huser i
    · simp only [setPhone, Function.update_self] at hid
      rcases heffect.refers hphase hid with hid | ⟨user, hmem, huser, rfl⟩
      · exact .inl hid
      · exact .inr ⟨⟨user, hmem, rfl⟩, fun j _ => hlogin user huser j⟩
  | submit i screen accepted killed =>
    have hstep' := hstep
    obtain ⟨hroute, users, p, hsubmit, rfl⟩ := step_submit hstep'
    have hphase := h.separate.sound.phase i
    have hset : ({ w.setPhone i p with users } : Service ι D C).phones i = p := by simp [setPhone]
    obtain ⟨husers, hrefers⟩ := hsubmit.refers hroute
    have hnew : ∀ v, (w.phones i).SignsUp v → ∀ j, ¬(w.phones j).Refers v.id :=
      fun v hv j hid => (h.used j v.id hid).2 ⟨i, v, hv, rfl⟩
    refine h.of_step hseparate hstep i (fun j hj => Function.update_of_ne hj _ _) ?_ ?_ ?_
    · rw [hset]
      exact hsubmit.follows hphase hroute horderly fun v hv => hnew v hv i
    · intro j hj id hid
      rcases husers with rfl | ⟨v, filled, hv, hfilled, rfl⟩
      · rfl
      · refine (Table.get?_set id).trans (if_neg ?_)
        rintro rfl
        exact hnew v hv j (hfilled ▸ hid)
    · rw [hset]
      intro id hid
      refine (hrefers id hid).imp_right ?_
      rintro ⟨v, hv, rfl, hrow⟩
      exact ⟨hrow, fun j _ => hnew v hv j⟩
  | answerWrite i accepted =>
    obtain rfl : accepted = true := horderly
    have hstep' := hstep
    obtain ⟨x, rest, hwrites, hcases⟩ := step_answerWrite hstep'
    have hphase := h.separate.sound.phase i
    have hmem : x ∈ (w.phones i).writes := by simp [hwrites]
    have hrest : ∀ id, ({ w.phones i with writes := rest } : Phone D C).Refers id →
        (w.phones i).Refers id := by
      rintro id (hid | ⟨y, hy, hid⟩ | hid)
      · exact .inl hid
      · exact .inr (.inl ⟨y, by simp [hwrites, hy], hid⟩)
      · exact .inr (.inr hid)
    have single : ∀ j, j ≠ i → ∀ id, (w.phones j).Refers id → x.write.id ≠ id :=
      fun j hj id hid hx => hj (h.alone j i id hid (.inr (.inl ⟨x, hmem, hx⟩)))
    rcases hcases with ⟨hnone, rfl⟩ | ⟨users, husers, rfl⟩
    · refine h.of_step hseparate hstep i (fun j hj => Function.update_of_ne hj _ _) ?_
        (fun _ _ _ _ => rfl) fun id hid => .inl (hrest id ?_)
      · simpa [setPhone] using (h.follows i).rejected hphase hwrites
          (UserWrite.get?_of_apply_eq_none (hnone rfl))
      · simpa [setPhone] using hid
    · have hrow := UserWrite.get?_apply husers
      refine h.of_step hseparate hstep i (fun j hj => Function.update_of_ne hj _ _) ?_ ?_ ?_
      · simp only [setPhone, Function.update_self]
        split_ifs with hawaited
        · exact (h.follows i).resume hphase hwrites hrow hawaited
        · refine (h.follows i).answered hwrites hrow ?_
          simp [PendingWrite.changing, hawaited]
      · intro j hj id hid
        exact (hrow id).trans (if_neg (single j hj id hid))
      · intro id hid
        simp only [setPhone, Function.update_self] at hid
        left
        split_ifs at hid
        · rcases Phone.refers_resume hid with hx | hid
          · exact .inr (.inl ⟨x, hmem, hx⟩)
          · exact hrest id hid
        · exact hrest id hid

end Service

/-- While each account is used on one installation, its document is gone or, with the writes on
their way, what the installation has in its box, unless a password is being changed. Once
everything is answered the document and the copy are equal. -/
theorem document_in_step [DecidableEq ι] [Floating D] {env : Platform C} {users : Users D}
    (hrows : ∀ u ∈ users.rows, u.hasProgramme) {as : List (ServiceAction ι D C)}
    {w : Service ι D C}
    (horderly : Machine.Each (Service.step env) (Service.Orderly env) as (Service.start users))
    (hrun : Machine.run (Service.step env) as (Service.start users) = some w) {i : ι} {u : User D}
    (hu : (w.phones i).userKey = some u) :
    ((w.phones i).changing = false → (w.phones i).drained u.id (w.users.get? u.id) = none ∨
      (w.phones i).drained u.id (w.users.get? u.id) = some u) ∧
    ((w.phones i).writes = [] → (w.phones i).waiting = [] →
      ∀ row ∈ w.users.rows, row.id = u.id → row = u) := by
  have hinStep : w.InStep := Machine.invariant_of_each Service.InStep (Service.Orderly env)
    (fun _ _ _ h => h.step) (.start hrows) horderly hrun
  have hfollows := hinStep.follows i
  refine ⟨fun hchanging => hfollows.agrees_of_changing hchanging hu,
    fun hwrites hwaiting row hrow hid => ?_⟩
  have hchanging : (w.phones i).changing = false := by simp [Phone.changing, hwrites, hwaiting]
  have hsome : w.users.get? u.id = some row := Table.get?_eq_some_iff.2 ⟨hrow, hid⟩
  have hagrees := hfollows.agrees_of_changing hchanging hu
  rw [Phone.drained_nil hwrites, hsome] at hagrees
  rcases hagrees with hnone | hsome
  · cases hnone
  · exact Option.some.inj hsome

/-- Ada uploads and changes her password on one installation, logs out and uploads on another. -/
def adaMoves : List (ServiceAction Bool Double (List Course)) :=
  adaSignsUp false ++ [.on false (.incrementUser "4.5"),
    .on false (.changePassword "password" "password2" "password2"), .answerWrite false true,
    .answerWrite false true, .on false (.answer 0 true), .on false .logOut,
    .on true (.logIn "ada@x.com" "password2"), .on true (.answer 0 true),
    .on true (.incrementUser "4.0"), .answerWrite true true]

theorem document_in_step_ada : ∃ w u row,
    Machine.run (Service.step samplePlatform) adaMoves (Service.start Table.empty) = some w ∧
    (w.phones true).userKey = some u ∧ row ∈ w.users.rows ∧ row = u := by
  have hcheck : (Machine.run (Service.step samplePlatform) adaMoves
      (Service.start Table.empty)).bind (fun w => (w.phones true).userKey.bind fun u =>
        w.users.rows.head?.map fun row => ((w.phones true).writes.isEmpty,
          (w.phones true).waiting.isEmpty, row.id == u.id)) = some (true, true, true) := by
    decide +kernel
  obtain ⟨w, hrun, hcheck⟩ := Option.bind_eq_some_iff.1 hcheck
  obtain ⟨u, hu, hcheck⟩ := Option.bind_eq_some_iff.1 hcheck
  obtain ⟨row, hrow, hcheck⟩ := Option.map_eq_some_iff.1 hcheck
  simp only [Prod.mk.injEq, List.isEmpty_iff, beq_iff_eq] at hcheck
  obtain ⟨hwrites, hwaiting, hid⟩ := hcheck
  have hmem : row ∈ w.users.rows := List.mem_of_head? hrow
  have hrows : ∀ u ∈ (Table.empty : Users Double).rows, u.hasProgramme :=
    fun u hu => absurd hu List.not_mem_nil
  have horderly : Machine.Each (Service.step samplePlatform) (Service.Orderly samplePlatform)
      adaMoves (Service.start Table.empty) := by
    decide +kernel
  exact ⟨w, u, row, hrun, hu, hmem,
    (document_in_step hrows horderly hrun hu).2 hwrites hwaiting row hmem hid⟩

end StudyStats
