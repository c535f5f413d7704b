import StudyStats.SyncInvariant

/-!
# Saves under a running sync

A sync replaces the local list by what the collection held, so a record saved after the sync
read the list is gone once it finishes. Nothing else loses a record.

## Main results

* `savesKept_iff` — the runs in which no save is lost.
-/

namespace StudyStats

variable {ι R D : Type} [Syncable R D] [DecidableEq ι] [DecidableEq D]

namespace Cloud

variable {w w' : Cloud ι R D} {a : SyncAction ι R D}

/-- Where no sync is running, every record saved on the device is in its list. -/
def SavesKept (w : Cloud ι R D) : Prop :=
  ∀ i, (w.devices i).running = none → ∀ k < (w.log i).length, (i, k) ∈ tags (w.devices i).list

/-- A sync replaces the list only if nothing was saved on the device since it read it. -/
def ReplacesWhatItRead (w : Cloud ι R D) (a : SyncAction ι R D) : Prop :=
  ∀ i now sync, a = .replace i now → (w.devices i).running = some sync →
    sync.saved = (w.log i).length

instance (w : Cloud ι R D) : (a : SyncAction ι R D) → Decidable (w.ReplacesWhatItRead a)
  | .replace i _ => decidable_of_iff
      (∀ sync ∈ (w.devices i).running, sync.saved = (w.log i).length)
      ⟨fun h j _ sync hj hsync => by cases hj; exact h sync hsync,
        fun h sync hsync => h i _ sync rfl hsync⟩
  | .save .. | .begin _ | .add _ | .get .. | .fail _ => isTrue fun _ _ _ ha => by cases ha

/-- Every record saved on a device is in its list, also while a sync runs. -/
def AllListed (w : Cloud ι R D) : Prop :=
  ∀ i, ∀ k < (w.log i).length, (i, k) ∈ tags (w.devices i).list

/-- A sync that keeps the saves of its device has read all of them. -/
theorem Inv.replacesWhatItRead (h : Inv w) (hstep : w.step a = some w') (hkept : w'.SavesKept) :
    w.ReplacesWhatItRead a := by
  rintro i now sync rfl hsync
  obtain ⟨sync', docs, list, hsync', hdocs, hlist, rfl⟩ := Cloud.step_replace hstep
  obtain rfl := Option.some.inj (hsync.symm.trans hsync')
  have hrunning := (h.device i).running sync hsync
  by_contra hne
  have hlt : sync.saved < (w.log i).length := lt_of_le_of_ne hrunning.saved_le hne
  -- the first record saved since would have to be in the collection already
  have hmem := hkept i (by simp [setDevice]) sync.saved hlt
  simp only [setDevice, Function.update_self, tags_of_decode hlist] at hmem
  obtain ⟨d, hd, htag⟩ := List.mem_map.1 hmem
  have hremote : (i, sync.saved) ∈ tags w.remote :=
    htag ▸ mem_tags ((hrunning.answer docs hdocs).2.1 d hd)
  exact absurd (hrunning.remote_early _ hremote) (lt_irrefl _)

omit [DecidableEq ι] [DecidableEq D] in
/-- Every record in the list is in the answer the sync waits with, but for late ones. -/
theorem RunningInv.mem_docs {remote : List (Tagged ι (Document D))} {i : ι} {saved : ℕ}
    {list : List (Tagged ι R)} {sync : Running ι R D} (h : RunningInv remote i saved list sync)
    {docs : List (Tagged ι (Document D))} (hdocs : sync.docs = some docs) {k : ℕ}
    (hk : (i, k) ∈ tags list) (hsaved : k < sync.saved) : (i, k) ∈ tags docs := by
  obtain ⟨-, -, huploaded, huploads⟩ := h.answer docs hdocs
  obtain ⟨late, hunsent, hlate⟩ := h.uploads
  obtain ⟨s, hs, htag⟩ := List.mem_map.1 hk
  rw [← htag]
  by_cases hup : Syncable.uploaded s.value
  · exact huploaded s hs hup
  · have hmem : s ∈ sync.uploads ++ late := hunsent ▸ mem_unsent.2 ⟨hs, by simpa using hup⟩
    rcases List.mem_append.1 hmem with hmem | hmem
    · exact huploads s hmem
    · have hserial : s.serial = k := congrArg Prod.snd htag
      exact absurd (hlate s hmem) (by omega)

theorem AllListed.step (hall : AllListed w) (h : Inv w) (hread : w.ReplacesWhatItRead a)
    (hstep : w.step a = some w') : AllListed w' := by
  -- every action but a save and a replace leaves lists and log alone
  have same : (∀ j, (w'.devices j).list = (w.devices j).list) → w'.log = w.log →
      AllListed w' := by
    intro hlist hlog j k hk
    rw [hlist j]
    exact hall j k (hlog ▸ hk)
  cases a with
  | save i r =>
    obtain ⟨-, rfl⟩ := step_save hstep
    intro j k hk
    by_cases hj : j = i
    · subst hj
      simp only [setDevice, Function.update_self, tags_append, List.mem_append] at hk ⊢
      rw [List.length_append, List.length_singleton] at hk
      by_cases hnew : k = (w.log j).length
      · exact .inr (by simp [tags, Tagged.tag, hnew])
      · exact .inl (hall j k (by omega))
    · simp only [setDevice, Function.update_of_ne hj] at hk ⊢
      exact hall j k hk
  | replace i now =>
    obtain ⟨sync, docs, list, hsync, hdocs, hlist, rfl⟩ := step_replace hstep
    have hrunning := (h.device i).running sync hsync
    have hsaved := hread i now sync rfl hsync
    intro j k hk
    by_cases hj : j = i
    · subst hj
      simp only [setDevice, Function.update_self, tags_of_decode hlist]
      exact hrunning.mem_docs hdocs (hall j k hk) (hsaved ▸ hk)
    · simp only [setDevice, Function.update_of_ne hj]
      exact hall j k hk
  | «begin» i =>
    obtain ⟨-, rfl⟩ := step_begin hstep
    exact same (list_setDevice rfl) rfl
  | add i =>
    obtain ⟨sync, s, -, -, rfl⟩ := step_add hstep
    exact same (list_setDevice rfl) rfl
  | get i docs =>
    obtain ⟨sync, -, -, -, -, rfl⟩ := step_get hstep
    exact same (list_setDevice rfl) rfl
  | fail i =>
    obtain ⟨sync, -, rfl⟩ := step_fail hstep
    exact same (list_setDevice rfl) rfl

end Cloud

/-- Every record saved is in its device's list whenever no sync runs there, throughout a run,
exactly when no sync of the run replaces a list that was saved to since it read it. -/
theorem savesKept_iff {as : List (SyncAction ι R D)} {w : Cloud ι R D}
    (hrun : Machine.run Cloud.step as Cloud.start = some w) :
    Machine.Always Cloud.step Cloud.SavesKept as (Cloud.start : Cloud ι R D) ↔
      Machine.Each Cloud.step Cloud.ReplacesWhatItRead as Cloud.start :=
  Machine.always_iff_each (fun w => Cloud.Inv w ∧ Cloud.AllListed w)
    (fun _ ⟨_, hall⟩ i _ k hk => hall i k hk)
    (fun _ _ _ ⟨h, _⟩ hstep hkept => h.replacesWhatItRead hstep hkept)
    (fun _ _ _ ⟨h, hall⟩ hread hstep => ⟨h.step hstep, hall.step h hread hstep⟩)
    ⟨Cloud.Inv.start, fun _ _ hk => absurd hk (Nat.not_lt_zero _)⟩ hrun

/-- A quick result saved at time `t`. -/
def quickResult (t : Timestamp) : Quick (List Course) where
  result := "4.0"
  gradingSystem := "5"
  scores := [4]
  courseData := [⟨"Calculus", "MATH101", .int 3⟩]
  level := "100"
  semester := "1st"
  timestamp := t

/-- The document of the first save of a single device. -/
def firstDocument : Tagged Unit (Document Unit) := ⟨(), 0, Quick.toJson (quickResult 1)⟩

/-- A save and a sync after it. -/
def saveThenSync : List (SyncAction Unit (Quick (List Course)) Unit) :=
  [.save () (quickResult 1), .begin (), .add (), .get () [firstDocument], .replace () 2]

theorem savesKept_quick : ∃ w, Machine.run Cloud.step saveThenSync Cloud.start = some w ∧
    (w.devices ()).running.isNone ∧
    Machine.Always Cloud.step Cloud.SavesKept saveThenSync Cloud.start := by
  have hcheck : (Machine.run Cloud.step saveThenSync Cloud.start).map
      (fun w => (w.devices ()).running.isNone) = some true := by
    decide +kernel
  obtain ⟨w, hrun, hidle⟩ := Option.map_eq_some_iff.1 hcheck
  have hread : Machine.Each Cloud.step Cloud.ReplacesWhatItRead saveThenSync Cloud.start := by
    decide +kernel
  exact ⟨w, hrun, hidle, (savesKept_iff hrun).2 hread⟩

/-- A save between the sync's read and its replace is in no list afterwards. -/
theorem savesKept_fails : ∃ w, Machine.run Cloud.step
    [.begin (), .save () (quickResult 1), .get () [], .replace () 2] Cloud.start = some w ∧
    w.log () = [quickResult 1] ∧ (w.devices ()).list = [] ∧ ¬w.SavesKept := by
  have hcheck : (Machine.run Cloud.step
      [.begin (), .save () (quickResult 1), .get () [], .replace () 2] Cloud.start).map
        (fun w => (w.log (), (w.devices ()).list, (w.devices ()).running.isNone)) =
      some ([quickResult 1], [], true) := by
    decide +kernel
  obtain ⟨w, hrun, hw⟩ := Option.map_eq_some_iff.1 hcheck
  simp only [Prod.mk.injEq, Option.isNone_iff_eq_none] at hw
  obtain ⟨hlog, hlist, hidle⟩ := hw
  refine ⟨w, hrun, hlog, hlist, fun hkept => ?_⟩
  have := hkept () hidle 0 (by rw [hlog]; decide)
  rw [hlist] at this
  exact absurd this List.not_mem_nil

end StudyStats
