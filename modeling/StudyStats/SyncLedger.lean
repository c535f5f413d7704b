import StudyStats.History
import StudyStats.Json

/-!
# Syncing the ledger

On one device uploads, edits and finished syncs alternate. A sync adds the records that are
not flagged to the collection and takes the collection's documents, ordered by timestamp, as
the new list. A flagged record that is edited comes back next to its old version, since an
edit makes new records and no document is ever replaced, and documents of one time come in
any order.

## Main results

* `sync_keeps` — runs in which every sync leaves the list as it was, up to the flags.
-/

namespace StudyStats

open Dart StatFunction

variable {D : Type} [Floating D]

/-- A device and the collection `UserUpdates`. -/
structure Replica (D : Type) where
  gradingSystem : String
  device : Device D (List Course)
  remote : List (Document D)

inductive ReplicaAction (D : Type) where
  /-- Fill a fresh screen in and press its button. -/
  | upload (courses : List Course) (grades : List String) (now : Timestamp)
  /-- Open the record at `index` of the newest-first list, fill it in again and save it. -/
  | edit (index : ℕ) (courses : List Course) (grades : List String) (now : Timestamp)
      (clock : ℕ → Timestamp) (accepted : Bool)
  /-- A sync that runs to its end, with the answer of its get. -/
  | sync (docs : List (Document D)) (now : Timestamp)

/-- The clock readings of an edit, in order. -/
def editReadings (index : ℕ) (now : Timestamp) (clock : ℕ → Timestamp) : List Timestamp :=
  now :: (List.range index).reverse.map clock

namespace Replica

variable (w : Replica D)

def updates : List (Update D (List Course)) := HiveUpdate.getUpdateList w.device

/-- The collection after the adds of a sync. -/
def added : List (Document D) :=
  w.remote ++ (w.updates.filter fun r => !r.uploaded).map Update.toJson

/-- `syncUpdate`, none of its calls failing. -/
def syncUpdate [DecidableEq D] (docs : List (Document D)) (now : Timestamp) :
    Option (Replica D) := do
  if docs.Perm w.added ∧ Ordered docs then
    let newQuicks ← docs.mapM (Update.fromJson now)
    return { w with
      device := HiveUpdate.replaceUpdateList newQuicks w.device
      remote := w.added }
  else none

def step [DecidableEq D] (w : Replica D) : ReplicaAction D → Option (Replica D)
  | .upload courses grades now => do
    let screen ← UpdateScreen.init id [] w.gradingSystem w.device.auth
    let screen := { screen with courseData := courses, scores := grades }
    return { w with device := screen.upload courses now w.device }
  | .edit index courses grades now clock accepted => do
    let record ← w.updates.reverse[index]?
    let screen := UpdateScreen.historyInit w.gradingSystem record
    let screen := { screen with courseData := courses, scores := grades }
    return { w with device := screen.edit courses index now clock accepted w.device }
  | .sync docs now => w.syncUpdate docs now

/-- An empty list and an empty collection. -/
def start (gradingSystem : String) (d : Device D (List Course)) : Replica D where
  gradingSystem := gradingSystem
  device := HiveUpdate.clearUpdateList d
  remote := []

/-- A sync leaves the list as it was, with every record flagged. -/
def KeepsList [DecidableEq D] (w : Replica D) : ReplicaAction D → Prop
  | .sync docs now => ∀ w' ∈ w.syncUpdate docs now,
      w'.updates = w.updates.map fun r => { r with uploaded := true }
  | _ => True

instance [DecidableEq D] (w : Replica D) : (a : ReplicaAction D) → Decidable (w.KeepsList a)
  | .sync docs now => inferInstanceAs (Decidable (∀ w' ∈ w.syncUpdate docs now,
      w'.updates = w.updates.map fun r => { r with uploaded := true }))
  | .upload .. => isTrue trivial
  | .edit .. => isTrue trivial

/-- Every record made is later than the records before it, and an edit only makes records
again that are not uploaded yet. -/
def Undisturbed (w : Replica D) : ReplicaAction D → Prop
  | .upload _ _ now => ∀ r ∈ w.updates, r.timestamp < now
  | .edit index _ _ now clock _ =>
    (editReadings index now clock).Pairwise (· < ·) ∧
      (∀ r ∈ w.updates.reverse.drop (index + 1), r.timestamp < now) ∧
      ∀ r ∈ w.updates.reverse.take (index + 1), r.uploaded = false
  | .sync _ _ => True

instance (w : Replica D) : (a : ReplicaAction D) → Decidable (w.Undisturbed a)
  | .upload _ _ now => inferInstanceAs (Decidable (∀ r ∈ w.updates, r.timestamp < now))
  | .edit index _ _ now clock _ =>
    inferInstanceAs (Decidable ((editReadings index now clock).Pairwise (· < ·) ∧
      (∀ r ∈ w.updates.reverse.drop (index + 1), r.timestamp < now) ∧
      ∀ r ∈ w.updates.reverse.take (index + 1), r.uploaded = false))
  | .sync _ _ => isTrue trivial

end Replica

/-! ## What the operations do to the list -/

section Lists

variable {C : Type}

theorem rechain_fresh {clock : ℕ → Timestamp} {past : Update D C} {rs l : List (Update D C)}
    (h : rechain clock past rs = some l) : (∀ r ∈ l, r.uploaded = false) ∧
      l.map Update.timestamp = (List.range rs.length).reverse.map clock := by
  induction rs generalizing past l with
  | nil => cases h; exact ⟨nofun, rfl⟩
  | cons r rs ih =>
    obtain ⟨r', rs', hr, hrs, rfl⟩ := rechain_cons h
    obtain ⟨cgpa, rfl⟩ := replaceUpdate_eq hr
    obtain ⟨hrest, htimes⟩ := ih hrs
    refine ⟨List.forall_mem_cons.2 ⟨rfl, hrest⟩, ?_⟩
    simp [List.range_succ, htimes]

/-- An edit leaves the list alone or makes the record and all newer ones again. -/
theorem getUpdateList_edit (contents : List Course) (now : Timestamp) (clock : ℕ → Timestamp)
    (accepted : Bool) (screen : UpdateScreen C) {d : Device D C}
    {older newer : List (Update D C)} {r : Update D C}
    (hd : HiveUpdate.getUpdateList d = older ++ r :: newer) :
    let d' := screen.edit contents newer.length now clock accepted d
    HiveUpdate.getUpdateList d' = HiveUpdate.getUpdateList d ∨
      ∃ fresh, HiveUpdate.getUpdateList d' = older ++ fresh ∧
        (∀ s ∈ fresh, s.uploaded = false) ∧
        fresh.map Update.timestamp = editReadings newer.length now clock := by
  intro d'
  unfold d' UpdateScreen.edit
  split
  · exact .inl rfl
  · next update hnew =>
    rw [editUpdates_eq update clock accepted hd, storeRechained]
    split
    · next newer' hrechain =>
      obtain ⟨hrest, htimes⟩ := rechain_fresh hrechain
      obtain ⟨result, gpa, cgpa, -, rfl⟩ := UpdateScreen.newUpdate_eq hnew
      refine .inr ⟨screen.made result.2.1 gpa cgpa now :: newer', ?_,
        List.forall_mem_cons.2 ⟨rfl, hrest⟩, ?_⟩
      · rw [getUpdateList_storeUpdates, List.reverse_reverse]
      · rw [List.map_cons, htimes]
        rfl
    · exact .inl rfl

end Lists

/-! ## Lists in the order of their times -/

/-- A list whose keys increase is the only arrangement of itself in the order of its keys. -/
theorem eq_of_perm_of_keys {α : Type*} {key : α → ℕ} {l l' : List α} (hperm : l'.Perm l)
    (hl : (l.map key).Pairwise (· < ·)) (hl' : (l'.map key).Pairwise (· ≤ ·)) : l' = l := by
  have hnodup : (l'.map key).Nodup := (hperm.map key).nodup_iff.2 (hl.imp fun h => h.ne)
  have hlt : (l'.map key).Pairwise (· < ·) :=
    (hl'.and hnodup).imp fun h => lt_of_le_of_ne h.1 h.2
  rw [List.pairwise_map] at hl hlt
  exact hperm.eq_of_pairwise (fun _ _ _ _ h h' => absurd h' (lt_asymm h)) hlt hl

namespace Replica

variable {w w' : Replica D}

section Faithful

omit [Floating D]

/-- The list is in the order of its times, and the collection holds exactly the documents of
its flagged records. -/
structure Faithful (w : Replica D) : Prop where
  times : (w.updates.map Update.timestamp).Pairwise (· < ·)
  remote_perm : w.remote.Perm ((w.updates.filter Update.uploaded).map Update.toJson)

theorem Faithful.start (gs : String) (d : Device D (List Course)) : Faithful (start gs d) where
  times := List.Pairwise.nil
  remote_perm := List.Perm.refl _

theorem Faithful.congr (h : Faithful w) (hupdates : w'.updates = w.updates)
    (hremote : w'.remote = w.remote) : Faithful w' :=
  ⟨hupdates ▸ h.times, hupdates ▸ hremote ▸ h.remote_perm⟩

/-- Records that are not uploaded yet may be made again at later times. -/
theorem Faithful.remake (h : Faithful w) {kept dropped fresh : List (Update D (List Course))}
    (hold : w.updates = kept ++ dropped) (hnew : w'.updates = kept ++ fresh)
    (hremote : w'.remote = w.remote) (hdropped : ∀ r ∈ dropped, r.uploaded = false)
    (hfresh : ∀ r ∈ fresh, r.uploaded = false)
    (htimes : (fresh.map Update.timestamp).Pairwise (· < ·))
    (hlater : ∀ r ∈ kept, ∀ s ∈ fresh, r.timestamp < s.timestamp) : Faithful w' := by
  have hkept := h.times
  rw [hold, List.map_append, List.pairwise_append] at hkept
  have nothing : ∀ l : List (Update D (List Course)), (∀ r ∈ l, r.uploaded = false) →
      l.filter Update.uploaded = [] := by
    intro l hl
    exact List.filter_eq_nil_iff.2 fun r hr => by simp [hl r hr]
  constructor
  · rw [hnew, List.map_append, List.pairwise_append]
    refine ⟨hkept.1, htimes, ?_⟩
    simpa only [List.forall_mem_map] using hlater
  · rw [hnew, hremote, List.filter_append, nothing fresh hfresh]
    have := h.remote_perm
    rwa [hold, List.filter_append, nothing dropped hdropped] at this

/-- The adds of a sync complete the collection. -/
theorem Faithful.added_perm (h : Faithful w) : w.added.Perm (w.updates.map Update.toJson) :=
  calc w.added.Perm ((w.updates.filter Update.uploaded).map Update.toJson ++
        (w.updates.filter fun r => !r.uploaded).map Update.toJson) :=
      h.remote_perm.append_right _
    _ = (w.updates.filter Update.uploaded ++ w.updates.filter fun r => !r.uploaded).map
        Update.toJson := (List.map_append ..).symm
    List.Perm _ (w.updates.map Update.toJson) :=
      (List.filter_append_perm Update.uploaded w.updates).map _

theorem mapM_fromJson (now : Timestamp) (l : List (Update D (List Course))) :
    (l.map Update.toJson).mapM (Update.fromJson now) =
      some (l.map fun r => { r with uploaded := true }) := by
  induction l with
  | nil => rfl
  | cons r l ih =>
    have hr : Update.fromJson now r.toJson = some { r with uploaded := true } :=
      Syncable.fromJson_toJson now r
    simp [List.mapM_cons, hr, ih]

/-- A sync makes a list the local one whose documents the collection then holds, and whose
times leave them no other order. -/
theorem sync_of_perm [DecidableEq D] {us : List (Update D (List Course))}
    (hadded : w.added.Perm (us.map Update.toJson))
    (htimes : (us.map Update.timestamp).Pairwise (· < ·)) {docs : List (Document D)}
    {now : Timestamp} (hsync : w.syncUpdate docs now = some w') :
    w'.updates = us.map (fun r => { r with uploaded := true }) ∧ w'.remote = w.added ∧
      w'.device.auth = w.device.auth := by
  unfold syncUpdate at hsync
  split_ifs at hsync with hanswer
  obtain ⟨hperm, hordered⟩ := hanswer
  have hkeys : ∀ l : List (Update D (List Course)),
      (l.map Update.toJson).map (fun json => json.timestamp.getD 0) =
        l.map Update.timestamp := by
    intro l
    rw [List.map_map]
    exact List.map_congr_left fun r _ => congrArg (Option.getD · 0) (Syncable.timestamp_toJson r)
  obtain rfl : docs = us.map Update.toJson :=
    eq_of_perm_of_keys (hperm.trans hadded) (hkeys _ ▸ htimes) hordered
  rw [mapM_fromJson] at hsync
  have hw' := Option.some.inj hsync
  exact ⟨hw' ▸ rfl, hw' ▸ rfl, hw' ▸ rfl⟩

/-- A sync of a faithful replica leaves it faithful, with the same list. -/
theorem Faithful.sync [DecidableEq D] (h : Faithful w) {docs : List (Document D)}
    {now : Timestamp} (hsync : w.syncUpdate docs now = some w') :
    w'.updates = w.updates.map (fun r => { r with uploaded := true }) ∧ Faithful w' := by
  obtain ⟨hupdates, hremote, -⟩ := sync_of_perm h.added_perm h.times hsync
  refine ⟨hupdates, ?_, ?_⟩
  · rw [hupdates, List.map_map]
    exact h.times
  · rw [hremote, hupdates, List.filter_eq_self.2 (by simp), List.map_map]
    exact h.added_perm

end Faithful

theorem Faithful.step [DecidableEq D] (h : Faithful w) {a : ReplicaAction D}
    (hundisturbed : w.Undisturbed a) (hstep : w.step a = some w') : Faithful w' := by
  cases a with
  | upload courses grades now =>
    simp only [Replica.step, Option.bind_eq_bind, Option.bind_eq_some_iff, Option.pure_def,
      Option.some.injEq] at hstep
    obtain ⟨screen, -, rfl⟩ := hstep
    rcases UpdateScreen.getUpdateList_upload courses now
        { screen with courseData := courses, scores := grades } w.device with
      hsame | ⟨result, gpa, cgpa, -, hlist⟩
    · exact h.congr hsame rfl
    · refine h.remake (List.append_nil _).symm hlist rfl (List.forall_mem_nil _)
        (List.forall_mem_singleton.2 rfl) (List.pairwise_singleton _ _) fun s hs t ht => ?_
      rw [List.mem_singleton.1 ht]
      exact hundisturbed s hs
  | edit index courses grades now clock accepted =>
    simp only [Replica.step, Option.bind_eq_bind, Option.bind_eq_some_iff, Option.pure_def,
      Option.some.injEq] at hstep
    obtain ⟨record, hrecord, rfl⟩ := hstep
    obtain ⟨hreadings, hbefore, hremade⟩ := hundisturbed
    obtain ⟨older, newer, hold, rfl⟩ := exists_split_at hrecord
    have hsplit : w.updates.reverse = (record :: newer).reverse ++ older.reverse := by
      rw [hold, List.reverse_append]
    rw [hsplit, List.drop_left' (by simp)] at hbefore
    rw [hsplit, List.take_left' (by simp)] at hremade
    simp only [List.mem_reverse] at hbefore hremade
    rcases getUpdateList_edit courses now clock accepted
        { UpdateScreen.historyInit w.gradingSystem record with
          courseData := courses, scores := grades } hold with
      hsame | ⟨fresh, hnew, hfresh, htimes⟩
    · exact h.congr hsame rfl
    · refine h.remake hold hnew rfl hremade hfresh (htimes ▸ hreadings) ?_
      intro s hs t ht
      have hmem : t.timestamp ∈ editReadings newer.length now clock :=
        htimes ▸ List.mem_map_of_mem ht
      rcases List.mem_cons.1 hmem with hfirst | hlater
      · exact hfirst ▸ hbefore s hs
      · exact (hbefore s hs).trans ((List.pairwise_cons.1 hreadings).1 _ hlater)
  | sync docs now => exact (h.sync hstep).2

end Replica

/-- In a run that makes every record later than those before it, and never makes an uploaded
record again, each sync leaves the list as it was. -/
theorem sync_keeps [DecidableEq D] (gs : String) (d : Device D (List Course))
    {as : List (ReplicaAction D)}
    (hundisturbed : Machine.Each Replica.step Replica.Undisturbed as (Replica.start gs d)) :
    Machine.Each Replica.step Replica.KeepsList as (Replica.start gs d) := by
  refine Machine.each_of_each Replica.Faithful (fun w a h _ => ?_)
    (fun w a w' h hP hstep => h.step hP hstep) (Replica.Faithful.start gs d) hundisturbed
  cases a with
  | sync docs now => exact fun w' hsync => (h.sync hsync).1
  | upload | edit => trivial

/-- The document of a first-semester record of the freshman. -/
def semesterDocument (score : ℤ) (time : Timestamp) : Document Double :=
  [("gpa", .number (Floating.ofInt score)), ("cgpa", .number (Floating.ofInt score)),
    ("gradingSystem", .text "5"), ("scores", .scores [score]),
    ("courseData", .courses [⟨"Calculus", "MATH101", .int 3⟩]), ("level", .text "100"),
    ("semester", .text "1st"), ("uploaded", .bool true), ("timestamp", .time time),
    ("past_semester", .text "-1.0")]

/-- An upload remade before its first sync. -/
theorem sync_keeps_freshman : Machine.Each Replica.step Replica.KeepsList
    [.upload [⟨"Calculus", "MATH101", .int 3⟩] ["A"] 1,
      .edit 0 [⟨"Calculus", "MATH101", .int 3⟩] ["B"] 2 (fun _ => 3) true,
      .sync [semesterDocument 4 2] 4]
    (Replica.start "5" (freshman.install blankDevice)) :=
  sync_keeps "5" (freshman.install blankDevice) (by decide +kernel)

/-- A record remade after a sync is listed twice after the next one. -/
theorem sync_keeps_fails : ∃ w w', Machine.run Replica.step
    [.upload [⟨"Calculus", "MATH101", .int 3⟩] ["A"] 1, .sync [semesterDocument 5 1] 2,
      .edit 0 [⟨"Calculus", "MATH101", .int 3⟩] ["B"] 3 (fun _ => 3) true]
    (Replica.start "5" (freshman.install blankDevice)) = some w ∧
    w.step (.sync [semesterDocument 5 1, semesterDocument 4 3] 4) = some w' ∧
    w.updates.length = 1 ∧ w'.updates.length = 2 ∧
    ¬w.KeepsList (.sync [semesterDocument 5 1, semesterDocument 4 3] 4) := by
  have hcheck : (Machine.run Replica.step
      [.upload [⟨"Calculus", "MATH101", .int 3⟩] ["A"] 1, .sync [semesterDocument 5 1] 2,
        .edit 0 [⟨"Calculus", "MATH101", .int 3⟩] ["B"] 3 (fun _ => 3) true]
      (Replica.start "5" (freshman.install blankDevice))).bind (fun w =>
        (w.step (.sync [semesterDocument 5 1, semesterDocument 4 3] 4)).map fun w' =>
          (w.updates.length, w'.updates.length)) = some (1, 2) := by
    decide +kernel
  obtain ⟨w, hrun, hw⟩ := Option.bind_eq_some_iff.1 hcheck
  obtain ⟨w', hstep, hlengths⟩ := Option.map_eq_some_iff.1 hw
  obtain ⟨hbefore, hafter⟩ := Prod.mk.inj hlengths
  refine ⟨w, w', hrun, hstep, hbefore, hafter, fun hkeeps => ?_⟩
  have := congrArg List.length (hkeeps w' hstep)
  simp [hbefore, hafter] at this

end StudyStats
