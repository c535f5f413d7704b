import StudyStats.Accounts
import StudyStats.LostSaves

/-!
# Records of another account

A log-out empties the lists of the device, but a sync that is under way goes on, and what it
fetched for one user may replace a list after the next one has logged in.

## Main results

* `ownRecords_iff` — the runs in which a user only ever meets records of their own.
* `ownRecords_of_quiet` — it is enough that no sync is under way when a user logs out.
-/

namespace StudyStats

variable {D : Type} [DecidableEq D]

namespace SharedDevice

/-- All records on the device belong to the user who is signed in. -/
def OwnRecords (w : SharedDevice D) : Prop :=
  ∀ id, w.signedIn = some id → ∀ b, ∀ s ∈ w.lists b, s.owner = id

/-- A log-in finds only the user's own records, and a sync that brings records ends while the
user it was called for is signed in, or nobody. -/
def OwnStep (w : SharedDevice D) : SharedAction D → Prop
  | .logIn id => w.signedIn.isNone → ∀ b, ∀ s ∈ w.lists b, s.owner = id
  | .replace h _ => ∀ part ∈ w.part h, (part.docs.getD []).isEmpty = false →
      ∀ id ∈ w.signedIn, id = part.id
  | _ => True

instance (w : SharedDevice D) : (a : SharedAction D) → Decidable (w.OwnStep a)
  | .logIn id => inferInstanceAs (Decidable
      (w.signedIn.isNone → ∀ b, ∀ s ∈ w.lists b, s.owner = id))
  | .replace h _ => inferInstanceAs (Decidable (∀ part ∈ w.part h,
      (part.docs.getD []).isEmpty = false → ∀ id ∈ w.signedIn, id = part.id))
  | .save .. | .logOut | .press .. | .next _ | .add _ | .get .. | .fail _ => isTrue trivial

variable {w w' : SharedDevice D} {a : SharedAction D}

/-! ## Lists of the device -/

omit [DecidableEq D] in
theorem OwnRecords.congr (h : w.OwnRecords) (hsignedIn : w'.signedIn = w.signedIn)
    (hlists : w'.lists = w.lists) : w'.OwnRecords := by
  unfold OwnRecords
  rwa [hsignedIn, hlists]

omit [DecidableEq D] in
/-- Only the records of a list that is written have to be looked at again. -/
theorem OwnRecords.update_iff (h : w.OwnRecords) {b : Box} {l : List (Owned (b.Record D))}
    (hsignedIn : w'.signedIn = w.signedIn) (hlists : w'.lists = Function.update w.lists b l) :
    w'.OwnRecords ↔ ∀ id, w.signedIn = some id → ∀ s ∈ l, s.owner = id := by
  unfold OwnRecords
  rw [hsignedIn, hlists]
  constructor
  · intro hown id hid s hs
    refine hown id hid b s ?_
    rwa [Function.update_self]
  · intro hown id hid b' s hs
    by_cases hb : b' = b
    · subst hb
      rw [Function.update_self] at hs
      exact hown id hid s hs
    · rw [Function.update_of_ne hb] at hs
      exact h id hid b' s hs

omit [DecidableEq D] in
theorem isEmpty_of_mapM {α β : Type} {f : α → Option β} {l : List α} {l' : List β}
    (h : l.mapM f = some l') : l'.isEmpty = l.isEmpty := by
  cases l with
  | nil => cases h; rfl
  | cons a l =>
    simp only [List.mapM_cons, Option.bind_eq_bind, Option.bind_eq_some_iff, Option.pure_def,
      Option.some.injEq] at h
    obtain ⟨b, -, bs, -, rfl⟩ := h
    rfl

/-- A step leaves a user among their own records exactly if it is a step of that kind. -/
theorem ownRecords_step_iff (h : w.OwnRecords) (hstep : w.step a = some w') :
    w'.OwnRecords ↔ w.OwnStep a := by
  cases a with
  | save b r =>
    obtain ⟨id, hid, hsignedIn, -, hlists⟩ := step_save hstep
    refine iff_of_true ((h.update_iff hsignedIn hlists).2 ?_) trivial
    intro id' hid' s hs
    rcases List.mem_append.1 hs with hs | hs
    · exact h id' hid' b s hs
    · rw [List.mem_singleton.1 hs]
      exact Option.some.inj (hid.symm.trans hid')
  | logOut =>
    rw [step_logOut hstep]
    exact iff_of_true (fun id hid => nomatch hid) trivial
  | logIn id =>
    obtain ⟨hnone, rfl⟩ := step_logIn hstep
    constructor
    · intro hown _
      exact hown id rfl
    · intro hown id' hid'
      cases hid'
      exact hown (by simp [hnone])
  | replace i now =>
    obtain ⟨handler, part, docs, records, hhandler, hpart, hdocs, hrecords, hsignedIn, -,
      hlists⟩ := step_replace hstep
    have hempty := isEmpty_of_mapM hrecords
    have hpart' : w.part i = some part := by
      rw [SharedDevice.part, hhandler, Option.bind_some, hpart]
    rw [h.update_iff hsignedIn hlists]
    constructor
    · intro hown part' hmem hdocs' id hid
      cases hpart'.symm.trans hmem
      rw [hdocs, Option.getD_some, ← hempty] at hdocs'
      obtain ⟨r, hr⟩ := List.isEmpty_eq_false_iff_exists_mem.1 hdocs'
      exact (hown id hid ⟨part.id, r⟩ (List.mem_map_of_mem hr)).symm
    · intro hown id hid s hs
      obtain ⟨r, hr, rfl⟩ := List.mem_map.1 hs
      refine (hown part hpart' ?_ id hid).symm
      rw [hdocs, Option.getD_some, ← hempty]
      exact List.isEmpty_eq_false_iff_exists_mem.2 ⟨r, hr⟩
  | press | next | add | get | fail =>
    obtain ⟨hsignedIn, hlists, -⟩ := step_handler hstep nofun nofun nofun nofun
    exact iff_of_true (h.congr hsignedIn hlists) trivial

/-! ## Quiet log-outs -/

/-- No sync is under way when a user logs out. -/
def Quiet (w : SharedDevice D) : SharedAction D → Prop
  | .logOut => ∀ id, ¬w.Syncing id
  | _ => True

/-- Every sync is one of the user who is signed in, and a device nobody uses is empty. -/
structure Attended (w : SharedDevice D) : Prop where
  own : w.OwnRecords
  empty : w.signedIn = none → ∀ b, w.lists b = []
  syncing : ∀ id, w.Syncing id → w.signedIn = some id

omit [DecidableEq D] in
theorem Attended.ownStep (h : w.Attended) : w.OwnStep a := by
  cases a with
  | logIn id =>
    intro hnone b s hs
    rw [h.empty (Option.isNone_iff_eq_none.1 hnone) b] at hs
    cases hs
  | replace i now =>
    intro part hpart _ id hid
    obtain ⟨handler, hhandler, hpart⟩ := Option.bind_eq_some_iff.1 hpart
    have hsyncing := h.syncing part.id ⟨handler, List.mem_of_getElem? hhandler, part, hpart, rfl⟩
    exact Option.some.inj (hid.symm.trans hsyncing)
  | save | logOut | press | next | add | get | fail => trivial

theorem Attended.step (h : w.Attended) (hquiet : w.Quiet a) (hstep : w.step a = some w') :
    w'.Attended := by
  have hown : w'.OwnRecords := (ownRecords_step_iff h.own hstep).2 h.ownStep
  cases a with
  | save b r =>
    obtain ⟨user, huser, hsignedIn, hhandlers, -⟩ := step_save hstep
    refine ⟨hown, ?_, fun id hs => ?_⟩
    · rw [hsignedIn, huser]
      exact nofun
    · rw [Syncing, hhandlers] at hs
      rw [hsignedIn]
      exact h.syncing id hs
  | logOut =>
    rw [step_logOut hstep] at hown ⊢
    exact ⟨hown, fun _ _ => rfl, fun id hs => absurd hs (hquiet id)⟩
  | logIn user =>
    obtain ⟨hnone, rfl⟩ := step_logIn hstep
    refine ⟨hown, nofun, fun id hs => ?_⟩
    exact nomatch hnone.symm.trans (h.syncing id hs)
  | replace i now =>
    obtain ⟨handler, part, docs, records, hhandler, hpart, -, -, hsignedIn, hhandlers, -⟩ :=
      step_replace hstep
    refine ⟨hown, ?_, fun id hs => ?_⟩
    · have hsyncing := h.syncing part.id ⟨handler, List.mem_of_getElem? hhandler, part, hpart, rfl⟩
      rw [hsignedIn, hsyncing]
      exact nofun
    · rw [hsignedIn]
      rcases hs.of_set hhandlers with hold | ⟨part', hpart', -⟩
      · exact h.syncing id hold
      · cases hpart'
  | press | next | add | get | fail =>
    obtain ⟨hsignedIn, hlists, hsyncing⟩ := step_handler hstep nofun nofun nofun nofun
    refine ⟨hown, ?_, fun id hs => ?_⟩
    · rw [hsignedIn, hlists]
      exact h.empty
    · rw [hsignedIn]
      exact (hsyncing id hs).elim (h.syncing id) fun hid => hid

end SharedDevice

open SharedDevice

/-- In every run without a log-out in the middle of a sync, users only ever meet their own
records. -/
theorem ownRecords_of_quiet {start : SharedDevice D} (hstart : start.Attended)
    {as : List (SharedAction D)} (hquiet : Machine.Each SharedDevice.step Quiet as start) :
    Machine.Always SharedDevice.step OwnRecords as start :=
  Machine.always_of_each Attended (fun _ h => h.own)
    (fun _ _ _ h hquiet hstep => h.step hquiet hstep) hstart hquiet

/-- A run keeps every user among their own records if and only if no sync ends with records
while a user is signed in whom it was not called for, and no log-in finds records of another
user. -/
theorem ownRecords_iff {start w : SharedDevice D} (hstart : start.OwnRecords)
    {as : List (SharedAction D)} (hrun : Machine.run SharedDevice.step as start = some w) :
    Machine.Always SharedDevice.step OwnRecords as start ↔
      Machine.Each SharedDevice.step OwnStep as start :=
  Machine.always_iff_each OwnRecords (fun _ h => h)
    (fun _ _ _ h hstep hown => (ownRecords_step_iff h hstep).1 hown)
    (fun _ _ _ h hown hstep => (ownRecords_step_iff h hstep).2 hown) hstart hrun

/-- One user is signed in and nothing has been saved. -/
def emptyDevice : SharedDevice Unit where
  signedIn := some "a"
  lists _ := []
  remote _ _ := []
  handlers := []

theorem ownRecords_emptyDevice : emptyDevice.OwnRecords := fun _ _ _ _ => nofun

/-- A sync that ends before its user logs out. -/
theorem ownRecords_quick : Machine.Always SharedDevice.step OwnRecords
    [.save .quick (quickResult 1), .press true false false, .add 0,
      .get 0 [Quick.toJson (quickResult 1)], .replace 0 2, .logOut, .logIn "b",
      .save .quick (quickResult 3)] emptyDevice := by
  have hsome : (Machine.run SharedDevice.step
      [.save .quick (quickResult 1), .press true false false, .add 0,
        .get 0 [Quick.toJson (quickResult 1)], .replace 0 2, .logOut, .logIn "b",
        .save .quick (quickResult 3)] emptyDevice).isSome := by
    decide +kernel
  obtain ⟨w, hrun⟩ := Option.isSome_iff_exists.1 hsome
  refine (ownRecords_iff ownRecords_emptyDevice hrun).2 ?_
  decide +kernel

/-- A sync that ends after its user has logged out and another one has logged in. -/
theorem ownRecords_fails : ∃ w, Machine.run SharedDevice.step
    [.save .quick (quickResult 1), .press true false false, .add 0,
      .get 0 [Quick.toJson (quickResult 1)], .logOut, .logIn "b", .replace 0 2]
    emptyDevice = some w ∧
    w.signedIn = some "b" ∧ (w.lists .quick).map Owned.owner = ["a"] ∧ ¬w.OwnRecords := by
  have hcheck : (Machine.run SharedDevice.step
      [.save .quick (quickResult 1), .press true false false, .add 0,
        .get 0 [Quick.toJson (quickResult 1)], .logOut, .logIn "b", .replace 0 2]
      emptyDevice).map (fun w => (w.signedIn, (w.lists .quick).map Owned.owner)) =
      some (some "b", ["a"]) := by
    decide +kernel
  obtain ⟨w, hrun, hw⟩ := Option.map_eq_some_iff.1 hcheck
  obtain ⟨hsignedIn, howners⟩ := Prod.mk.inj hw
  refine ⟨w, hrun, hsignedIn, howners, fun hown => ?_⟩
  obtain ⟨s, hs, howner⟩ := List.mem_map.1 (howners ▸ List.mem_singleton_self "a")
  rw [hown "b" hsignedIn .quick s hs] at howner
  exact absurd howner (by decide)

end StudyStats
