import StudyStats.Resave
import StudyStats.SyncLedger

/-!
# Logging out and in again

The user's document follows the provider at every upload and edit, while the records reach
the collection only with a sync, and a log-out empties the device. After the next log-in the
list is what the collection holds and the user is what the document says, so the two fit
together only if the collection held everything.

## Main results

* `resave_keeps` — runs after which the list and the user always fit together.
-/

namespace StudyStats

open Dart StatFunction

variable {D : Type} [Floating D]

/-- One account on one device. `catalogue` is the course map its programme has in the assets,
and `synced` says that a sync has been completed since the last log-in. -/
structure Account (D : Type) where
  gradingSystem : String
  catalogue : CourseData (List Course)
  device : Device D (List Course)
  remote : List (Document D)
  userDoc : User D
  synced : Bool

inductive AccountAction (D : Type) where
  | upload (courses : List Course) (grades : List String) (now : Timestamp)
  | edit (index : ℕ) (courses : List Course) (grades : List String) (now : Timestamp)
      (clock : ℕ → Timestamp)
  | sync (docs : List (Document D)) (now : Timestamp)
  /-- `clearData` -/
  | logOut
  /-- The user is read from the document and the course map from the assets. -/
  | logIn

/-- What the profile screen fills in. -/
structure User.FilledIn (user : User D) : Prop where
  level : user.level.isSome
  semester : user.semester.isSome
  currentCgpa : user.currentCgpa.isSome

namespace Account

def updates (w : Account D) : List (Update D (List Course)) := HiveUpdate.getUpdateList w.device

def replica (w : Account D) : Replica D := ⟨w.gradingSystem, w.device, w.remote⟩

/-- The device and the collection have changed, and the user's document follows the user. -/
def settle (w : Account D) (r : Replica D) : Account D :=
  { w with
    device := r.device
    remote := r.remote
    userDoc := r.device.auth.user.getD w.userDoc }

def step [DecidableEq D] (w : Account D) : AccountAction D → Option (Account D)
  | .upload courses grades now => (w.replica.step (.upload courses grades now)).map w.settle
  | .edit index courses grades now clock =>
    (w.replica.step (.edit index courses grades now clock true)).map w.settle
  | .sync docs now => do
    let _ ← w.device.auth.user
    let r ← w.replica.step (.sync docs now)
    return { w.settle r with synced := true }
  | .logOut => do
    let _ ← w.device.auth.user
    return { w with device := ⟨⟨none, none⟩, none⟩, synced := false }
  | .logIn =>
    if w.device.auth.user.isNone then
      some { w with
        device := { w.device with auth := ⟨some w.userDoc, some w.catalogue⟩ }
        synced := false }
    else none

/-- A profile that has just been filled in. -/
def start (gradingSystem : String) (catalogue : CourseData (List Course)) (user : User D) :
    Account D where
  gradingSystem := gradingSystem
  catalogue := catalogue
  device := ⟨⟨some user, some catalogue⟩, none⟩
  remote := []
  userDoc := user
  synced := true

/-- Saving any record again, with its own courses and grades, leaves the numbers and the
labels of all records and the user's CGPA. -/
def ResaveKeeps (w : Account D) : Prop :=
  w.synced = true → ∀ (index : ℕ) record now clock, w.updates.reverse[index]? = some record →
    let d := (UpdateScreen.historyInit w.gradingSystem record).edit record.courseData index now
      clock true w.device
    (HiveUpdate.getUpdateList d).map Update.core = w.updates.map Update.core ∧
      d.auth.user.bind User.currentCgpa = w.device.auth.user.bind User.currentCgpa

/-- No two records have one time. A sync finds in the collection the documents of the flagged
records and no others or, if it is the first after a log-in, only documents older than the
records made since. A log-out finds the documents of all records and no others. -/
def Covered (w : Account D) : AccountAction D → Prop
  | .sync _ _ => (w.updates.map Update.timestamp).Pairwise (· < ·) ∧
      if w.synced then w.remote.Perm ((w.updates.filter Update.uploaded).map Update.toJson)
      else ∀ json ∈ w.remote, ∀ r ∈ w.updates, json.timestamp.getD 0 < r.timestamp
  | .logOut => (w.updates.map Update.timestamp).Pairwise (· < ·) ∧
      if w.synced then w.remote.Perm (w.updates.map Update.toJson) else w.updates = []
  | _ => True

instance [DecidableEq D] (w : Account D) : (a : AccountAction D) → Decidable (w.Covered a)
  | .sync _ _ => inferInstanceAs (Decidable ((w.updates.map Update.timestamp).Pairwise (· < ·) ∧
      if w.synced then w.remote.Perm ((w.updates.filter Update.uploaded).map Update.toJson)
      else ∀ json ∈ w.remote, ∀ r ∈ w.updates, json.timestamp.getD 0 < r.timestamp))
  | .logOut => inferInstanceAs (Decidable ((w.updates.map Update.timestamp).Pairwise (· < ·) ∧
      if w.synced then w.remote.Perm (w.updates.map Update.toJson) else w.updates = []))
  | .upload .. | .edit .. | .logIn => isTrue trivial

/-- What the device holds continues the records only the collection holds, to the user's
CGPA. After a sync there are none of these. -/
structure Upheld (w : Account D) (stored : List (Update D (List Course))) : Prop where
  consistent : Consistent (stored ++ w.updates)
  newest : ∀ r ∈ (stored ++ w.updates).getLast?, w.userDoc.currentCgpa = some r.cgpa
  filledIn : w.userDoc.FilledIn
  signedIn : ∀ user, w.device.auth.user = some user →
    user = w.userDoc ∧ w.device.auth.courseData = some w.catalogue
  signedOut : w.device.auth.user = none → w.updates = [] ∧ w.synced = false
  none_stored : w.synced = true → stored = []
  held : w.synced = false → w.remote.Perm (stored.map Update.toJson) ∧
    (stored.map Update.timestamp).Pairwise (· < ·) ∧ ∀ r ∈ w.updates, r.uploaded = false

variable {w w' : Account D} {stored : List (Update D (List Course))}

theorem Upheld.start {gs : String} {catalogue : CourseData (List Course)} {user : User D}
    (h : user.FilledIn) : (start gs catalogue user).Upheld [] where
  consistent := ⟨nofun, .nil⟩
  newest := nofun
  filledIn := h
  signedIn _ huser := ⟨(Option.some.inj huser).symm, rfl⟩
  signedOut := nofun
  none_stored _ := rfl
  held := nofun

theorem Upheld.exists_user (h : w.Upheld stored) (hne : w.updates ≠ []) :
    w.device.auth.user = some w.userDoc ∧ w.device.auth.courseData = some w.catalogue := by
  cases huser : w.device.auth.user with
  | none => exact absurd (h.signedOut huser).1 hne
  | some user =>
    obtain ⟨rfl, hcourse⟩ := h.signedIn user huser
    exact ⟨rfl, hcourse⟩

theorem Upheld.resaveKeeps (h : w.Upheld stored) : w.ResaveKeeps := by
  intro hsynced index record now clock hrecord
  obtain rfl := h.none_stored hsynced
  obtain ⟨older, newer, hold, rfl⟩ := exists_split_at hrecord
  obtain ⟨huser, -⟩ := h.exists_user (by simp [hold])
  have hconsistent := h.consistent
  have hnewest := h.newest
  rw [List.nil_append] at hconsistent hnewest
  have hlast : w.userDoc.currentCgpa = w.updates.getLast?.map Update.cgpa := by
    cases hlast : w.updates.getLast? with
    | none =>
      rw [List.getLast?_eq_none_iff.1 hlast] at hold
      simp at hold
    | some r => exact hnewest r hlast
  have hkept := core_resave hold (hold ▸ hconsistent) huser hlast w.gradingSystem now clock true
  rw [huser] at hkept ⊢
  exact hkept

/-- An upload or an edit: what has to be shown of the device it leaves. -/
theorem Upheld.settle (h : w.Upheld stored) {d : Device D (List Course)} {user : User D}
    (huser : d.auth.user = some user) (hcourse : d.auth.courseData = some w.catalogue)
    (hfilledIn : user.FilledIn)
    (hconsistent : Consistent (stored ++ HiveUpdate.getUpdateList d))
    (hnewest : ∀ r ∈ (stored ++ HiveUpdate.getUpdateList d).getLast?,
      user.currentCgpa = some r.cgpa)
    (hfresh : ∀ r ∈ HiveUpdate.getUpdateList d, r ∈ w.updates ∨ r.uploaded = false) :
    (w.settle ⟨w.gradingSystem, d, w.remote⟩).Upheld stored := by
  have hdoc : (w.settle ⟨w.gradingSystem, d, w.remote⟩).userDoc = user := by
    simp [Account.settle, huser]
  refine ⟨hconsistent, hdoc ▸ hnewest, hdoc ▸ hfilledIn, ?_, ?_, h.none_stored, ?_⟩
  · intro user' huser'
    exact ⟨(Option.some.inj (huser'.symm.trans huser)).trans hdoc.symm, hcourse⟩
  · intro hnone
    cases huser.symm.trans hnone
  · intro hsynced
    obtain ⟨hperm, htimes, hold⟩ := h.held hsynced
    refine ⟨hperm, htimes, fun r hr => ?_⟩
    rcases hfresh r hr with hr | hr
    · exact hold r hr
    · exact hr

/-- Nothing has changed on the device. -/
theorem Upheld.unchanged (h : w.Upheld stored) {user : User D}
    (huser : w.device.auth.user = some user) :
    (w.settle ⟨w.gradingSystem, w.device, w.remote⟩).Upheld stored := by
  obtain ⟨hdoc, hcourse⟩ := h.signedIn user huser
  exact h.settle huser hcourse (hdoc ▸ h.filledIn) h.consistent (hdoc ▸ h.newest)
    fun r hr => .inl hr

variable [DecidableEq D]

theorem step_upload {courses : List Course} {grades : List String} {now : Timestamp}
    (hstep : w.step (.upload courses grades now) = some w') :
    ∃ screen, UpdateScreen.init id [] w.gradingSystem w.device.auth = some screen ∧
      w' = w.settle ⟨w.gradingSystem, UpdateScreen.upload courses now
        { screen with courseData := courses, scores := grades } w.device, w.remote⟩ := by
  obtain ⟨r, hr, rfl⟩ := Option.map_eq_some_iff.1 hstep
  obtain ⟨screen, hinit, hr⟩ := Option.bind_eq_some_iff.1 hr
  cases hr
  exact ⟨screen, hinit, rfl⟩

theorem step_edit {index : ℕ} {courses : List Course} {grades : List String} {now : Timestamp}
    {clock : ℕ → Timestamp} (hstep : w.step (.edit index courses grades now clock) = some w') :
    ∃ record, w.updates.reverse[index]? = some record ∧
      w' = w.settle ⟨w.gradingSystem, UpdateScreen.edit courses index now clock true
        { UpdateScreen.historyInit w.gradingSystem record with
          courseData := courses, scores := grades } w.device, w.remote⟩ := by
  obtain ⟨r, hr, rfl⟩ := Option.map_eq_some_iff.1 hstep
  obtain ⟨record, hrecord, hr⟩ := Option.bind_eq_some_iff.1 hr
  cases hr
  exact ⟨record, hrecord, rfl⟩

theorem step_sync {docs : List (Document D)} {now : Timestamp}
    (hstep : w.step (.sync docs now) = some w') :
    ∃ user r, w.device.auth.user = some user ∧ w.replica.syncUpdate docs now = some r ∧
      w' = { w.settle r with synced := true } := by
  obtain ⟨user, huser, hstep⟩ := Option.bind_eq_some_iff.1 hstep
  obtain ⟨r, hr, hstep⟩ := Option.bind_eq_some_iff.1 hstep
  exact ⟨user, r, huser, hr, (Option.some.inj hstep).symm⟩

theorem Upheld.upload (h : w.Upheld stored) {courses : List Course} {grades : List String}
    {now : Timestamp} (hstep : w.step (.upload courses grades now) = some w') :
    w'.Upheld stored := by
  obtain ⟨screen, hinit, rfl⟩ := step_upload hstep
  obtain ⟨user, level, semester, huser, hlevel, hsemester, -, -⟩ := init_position hinit
  obtain ⟨c, hc, hcurrent⟩ := init_currentGpa hinit
  rw [huser, Option.bind_some] at hc
  obtain ⟨hdoc, hcourse⟩ := h.signedIn user huser
  rcases upload_made courses now { screen with courseData := courses, scores := grades }
    w.device with hsame | ⟨gpaText, score, cgpaText, gpa, cgpa, hcompute, hgpa, hcgpa, hmade⟩
  · rw [hsame]
    exact h.unchanged huser
  · obtain ⟨next, hnext⟩ := exists_nextPosition w.catalogue level semester
    have hauth := incrementUser_position huser hlevel hsemester hcgpa
    rw [hcourse, hnext, Option.map_some] at hauth
    rw [hmade, hauth, Option.getD_some]
    refine h.settle rfl rfl ⟨rfl, rfl, rfl⟩ ?_ ?_ ?_
    · have hcomputed := UpdateScreen.computed_made now hcompute rfl hgpa hcgpa
      have hlist := h.consistent.concat hcomputed fun past hpast => ?_
      · rwa [List.append_assoc] at hlist
      · have hpast' := h.newest past hpast
        rw [← hdoc, hc, Option.some.injEq] at hpast'
        rw [← hpast']
        exact hcurrent
    · intro r hr
      change r ∈ (stored ++ (w.updates ++ [_])).getLast? at hr
      rw [← List.append_assoc, List.getLast?_concat] at hr
      cases hr
      rfl
    · intro r hr
      rcases List.mem_append.1 hr with hr | hr
      · exact .inl hr
      · rw [List.mem_singleton.1 hr]
        exact .inr rfl

theorem Upheld.edit (h : w.Upheld stored) {index : ℕ} {courses : List Course}
    {grades : List String} {now : Timestamp} {clock : ℕ → Timestamp}
    (hstep : w.step (.edit index courses grades now clock) = some w') : w'.Upheld stored := by
  obtain ⟨record, hrecord, rfl⟩ := step_edit hstep
  obtain ⟨older, newer, hold, rfl⟩ := exists_split_at hrecord
  obtain ⟨huser, hcourse⟩ := h.exists_user (by simp [hold])
  rcases edit_cases courses now clock true { UpdateScreen.historyInit w.gradingSystem record with
      courseData := courses, scores := grades } hold huser with
    hsame | ⟨update, newer', hnew, hrechain, hedited⟩
  · rw [hsame]
    exact h.unchanged huser
  · obtain ⟨hcomputed, hpast, hfresh⟩ := UpdateScreen.newUpdate_computed hnew rfl
    rw [hedited]
    have hconsistent : Consistent ((stored ++ older) ++ record :: newer) := by
      have := h.consistent
      rwa [hold, ← List.append_assoc] at this
    refine h.settle rfl hcourse ⟨h.filledIn.level, h.filledIn.semester, rfl⟩ ?_ ?_ ?_
    · have hlist := hconsistent.edit hcomputed hpast hrechain
      rwa [List.append_assoc] at hlist
    · intro s hs
      change s ∈ (stored ++ (older ++ update :: newer')).getLast? at hs
      rw [← List.append_assoc, List.getLast?_append_of_ne_nil _ (List.cons_ne_nil _ _),
        List.getLast?_eq_some_getLast (List.cons_ne_nil _ _)] at hs
      cases hs
      rfl
    · intro s hs
      rcases List.mem_append.1 hs with hs | hs
      · exact .inl (hold ▸ List.mem_append_left _ hs)
      · rcases List.mem_cons.1 hs with rfl | hs
        · exact .inr hfresh
        · exact .inr ((rechain_fresh hrechain).1 s hs)

omit [DecidableEq D] in
/-- What the collection holds after the adds of a covered sync. -/
theorem Upheld.added_perm (h : w.Upheld stored) {docs : List (Document D)} {now : Timestamp}
    (hcovered : w.Covered (.sync docs now)) :
    w.replica.added.Perm ((stored ++ w.updates).map Update.toJson) ∧
      ((stored ++ w.updates).map Update.timestamp).Pairwise (· < ·) := by
  obtain ⟨htimes, hremote⟩ := hcovered
  cases hsynced : w.synced with
  | true =>
    rw [hsynced, if_pos rfl] at hremote
    obtain rfl := h.none_stored hsynced
    have hfaithful : w.replica.Faithful := ⟨htimes, hremote⟩
    exact ⟨hfaithful.added_perm, htimes⟩
  | false =>
    rw [hsynced, if_neg nofun] at hremote
    obtain ⟨hperm, hstored, hfresh⟩ := h.held hsynced
    constructor
    · have hall : (w.updates.filter fun r => !r.uploaded) = w.updates :=
        List.filter_eq_self.2 fun r hr => by simp [hfresh r hr]
      rw [List.map_append]
      have hadded : w.replica.added = w.remote ++ w.updates.map Update.toJson :=
        congrArg (fun l => w.remote ++ l.map Update.toJson) hall
      rw [hadded]
      exact hperm.append_right _
    · rw [List.map_append, List.pairwise_append]
      refine ⟨hstored, htimes, ?_⟩
      simp only [List.forall_mem_map]
      intro s hs r hr
      have hlt := hremote s.toJson (hperm.mem_iff.2 (List.mem_map_of_mem hs)) r hr
      rwa [show s.toJson.timestamp = some s.timestamp from Syncable.timestamp_toJson s] at hlt

theorem Upheld.sync (h : w.Upheld stored) {docs : List (Document D)} {now : Timestamp}
    (hcovered : w.Covered (.sync docs now)) (hstep : w.step (.sync docs now) = some w') :
    w'.Upheld [] := by
  obtain ⟨user, r, huser, hr, rfl⟩ := step_sync hstep
  obtain ⟨hdoc, hcourse⟩ := h.signedIn user huser
  obtain ⟨hadded, htimes⟩ := h.added_perm hcovered
  obtain ⟨hupdates, -, hauth⟩ := Replica.sync_of_perm hadded htimes hr
  have huser' : r.device.auth.user = some user := hauth ▸ huser
  have hdoc' : (w.settle r).userDoc = w.userDoc := by
    rw [← hdoc]
    simp [Account.settle, huser']
  have hlist : ({ w.settle r with synced := true } : Account D).updates =
      (stored ++ w.updates).map fun s => { s with uploaded := true } := hupdates
  refine ⟨?_, ?_, hdoc' ▸ h.filledIn, ?_, ?_, fun _ => rfl, nofun⟩
  · rw [List.nil_append, hlist]
    exact h.consistent.flagged
  · rw [List.nil_append, hlist, List.getLast?_map]
    intro s hs
    obtain ⟨s', hs', rfl⟩ := Option.map_eq_some_iff.1 hs
    exact hdoc' ▸ h.newest s' hs'
  · intro user' hsome
    cases huser'.symm.trans hsome
    exact ⟨hdoc.trans hdoc'.symm, hauth ▸ hcourse⟩
  · intro hnone
    cases huser'.symm.trans hnone

theorem Upheld.logOut (h : w.Upheld stored) (hcovered : w.Covered .logOut)
    (hstep : w.step .logOut = some w') : ∃ stored', w'.Upheld stored' := by
  obtain ⟨user, huser, hstep⟩ := Option.bind_eq_some_iff.1 hstep
  cases hstep
  obtain ⟨htimes, hremote⟩ := hcovered
  -- what the collection holds alone from now on is what the device and it held together
  have keep : w.remote.Perm ((stored ++ w.updates).map Update.toJson) →
      ((stored ++ w.updates).map Update.timestamp).Pairwise (· < ·) →
      Upheld { w with device := ⟨⟨none, none⟩, none⟩, synced := false } (stored ++ w.updates) := by
    intro hperm htimes
    have hconsistent := h.consistent
    have hnewest := h.newest
    rw [← List.append_nil (stored ++ w.updates)] at hconsistent hnewest
    exact ⟨hconsistent, hnewest, h.filledIn, nofun, fun _ => ⟨rfl, rfl⟩, nofun,
      fun _ => ⟨hperm, htimes, nofun⟩⟩
  refine ⟨_, keep ?_ ?_⟩
  · cases hsynced : w.synced with
    | true =>
      rw [hsynced, if_pos rfl] at hremote
      rwa [h.none_stored hsynced]
    | false =>
      rw [hsynced, if_neg nofun] at hremote
      rw [hremote, List.append_nil]
      exact (h.held hsynced).1
  · cases hsynced : w.synced with
    | true => rwa [h.none_stored hsynced]
    | false =>
      rw [hsynced, if_neg nofun] at hremote
      rw [hremote, List.append_nil]
      exact (h.held hsynced).2.1

theorem Upheld.logIn (h : w.Upheld stored) (hstep : w.step .logIn = some w') :
    w'.Upheld stored := by
  rw [Account.step] at hstep
  split_ifs at hstep with hnone
  cases hstep
  obtain ⟨hnil, hsynced⟩ := h.signedOut (Option.isNone_iff_eq_none.1 hnone)
  refine ⟨h.consistent, h.newest, h.filledIn, ?_, nofun, nofun, fun _ => h.held hsynced⟩
  intro user huser
  exact ⟨(Option.some.inj huser).symm, rfl⟩

theorem Upheld.step (h : w.Upheld stored) {a : AccountAction D} (hcovered : w.Covered a)
    (hstep : w.step a = some w') : ∃ stored', w'.Upheld stored' := by
  cases a with
  | upload courses grades now => exact ⟨stored, h.upload hstep⟩
  | edit index courses grades now clock => exact ⟨stored, h.edit hstep⟩
  | sync docs now => exact ⟨[], h.sync hcovered hstep⟩
  | logOut => exact h.logOut hcovered hstep
  | logIn => exact ⟨stored, h.logIn hstep⟩

end Account

/-- In a run whose syncs and log-outs find the collection in agreement with the records, every
state after a log-in and a sync is one where saving a record again changes nothing. -/
theorem resave_keeps [DecidableEq D] (gs : String) (catalogue : CourseData (List Course))
    {user : User D} (huser : user.FilledIn) {as : List (AccountAction D)}
    (hcovered : Machine.Each Account.step Account.Covered as (Account.start gs catalogue user)) :
    Machine.Always Account.step Account.ResaveKeeps as (Account.start gs catalogue user) :=
  Machine.always_of_each (fun w => ∃ stored, w.Upheld stored) (fun _ ⟨_, h⟩ => h.resaveKeeps)
    (fun _ _ _ ⟨_, h⟩ hcovered hstep => h.step hcovered hstep) ⟨[], .start huser⟩ hcovered

/-- A log-out after a sync, and a second semester after the log-in. -/
theorem resave_keeps_freshman : Machine.Always Account.step Account.ResaveKeeps
    [.upload [⟨"Calculus", "MATH101", .int 3⟩] ["A"] 1, .sync [semesterDocument 5 1] 2, .logOut,
      .logIn, .sync [semesterDocument 5 1] 3,
      .upload [⟨"Calculus", "MATH101", .int 3⟩] ["B"] 4]
    (Account.start "5" freshman.courseData freshman.user) :=
  resave_keeps "5" freshman.courseData ⟨rfl, rfl, rfl⟩ (by decide +kernel)

/-- A log-out before the second semester is synced. The record is lost, but the user's CGPA
still counts it, until the first semester is saved again. -/
theorem resave_keeps_fails : ∃ w record, Machine.run Account.step
    [.upload [⟨"Calculus", "MATH101", .int 3⟩] ["A"] 1, .sync [semesterDocument 5 1] 2,
      .upload [⟨"Calculus", "MATH101", .int 3⟩] ["B"] 3, .logOut, .logIn,
      .sync [semesterDocument 5 1] 4]
    (Account.start "5" freshman.courseData freshman.user) = some w ∧
    w.synced = true ∧ w.updates.reverse[0]? = some record ∧
    (w.device.auth.user.bind User.currentCgpa).map Double.toString = some "4.5" ∧
    ((((UpdateScreen.historyInit "5" record).edit record.courseData 0 5 (fun _ => 5) true
      w.device).auth.user.bind User.currentCgpa).map Double.toString) = some "5.0" ∧
    ¬w.ResaveKeeps := by
  have hcheck : (Machine.run Account.step
      [.upload [⟨"Calculus", "MATH101", .int 3⟩] ["A"] 1, .sync [semesterDocument 5 1] 2,
        .upload [⟨"Calculus", "MATH101", .int 3⟩] ["B"] 3, .logOut, .logIn,
        .sync [semesterDocument 5 1] 4]
      (Account.start "5" freshman.courseData freshman.user)).bind (fun w =>
        w.updates.reverse[0]?.map fun record => (w.synced, w.gradingSystem,
          (w.device.auth.user.bind User.currentCgpa).map Double.toString,
          (((UpdateScreen.historyInit "5" record).edit record.courseData 0 5 (fun _ => 5) true
            w.device).auth.user.bind User.currentCgpa).map Double.toString)) =
      some (true, "5", some "4.5", some "5.0") := by
    decide +kernel
  obtain ⟨w, hrun, hw⟩ := Option.bind_eq_some_iff.1 hcheck
  obtain ⟨record, hrecord, heq⟩ := Option.map_eq_some_iff.1 hw
  simp only [Prod.mk.injEq] at heq
  obtain ⟨hsynced, hsystem, hbefore, hafter⟩ := heq
  refine ⟨w, record, hrun, hsynced, hrecord, hbefore, hafter, fun hkeeps => ?_⟩
  have hsame := (hkeeps hsynced 0 record 5 (fun _ => 5) hrecord).2
  rw [hsystem] at hsame
  have htexts := congrArg (Option.map Double.toString) hsame
  rw [show ((0 : ℕ) : ℤ) = 0 from rfl, hafter, hbefore] at htexts
  exact absurd htexts (by decide)

end StudyStats
