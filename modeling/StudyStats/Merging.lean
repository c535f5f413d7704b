import StudyStats.Retries

/-!
# Merging the histories of several devices

Any number of devices on one account save and sync, no step failing. Then no attempt is ever
torn, every record is stored once, and a finished sync leaves the device with the collection
as its get found it.

## Main results

* `devices_merge` — what every reachable state and every finished sync shows.
-/

namespace StudyStats

variable {ι R D : Type} [Syncable R D] [DecidableEq ι] [DecidableEq D]

def SyncAction.device : SyncAction ι R D → ι
  | save i _ | begin i | add i | get i _ | replace i _ | fail i => i

namespace Cloud

variable {w w' : Cloud ι R D} {a : SyncAction ι R D} {i : ι}

/-- A step of one device leaves the others alone. -/
theorem devices_of_step (hstep : w.step a = some w') (hi : a.device ≠ i) :
    w'.devices i = w.devices i := by
  cases a with
  | save j r =>
    obtain ⟨-, rfl⟩ := step_save hstep
    exact Function.update_of_ne (Ne.symm hi) _ _
  | «begin» j =>
    obtain ⟨-, rfl⟩ := step_begin hstep
    exact Function.update_of_ne (Ne.symm hi) _ _
  | add j =>
    obtain ⟨sync, s, -, -, rfl⟩ := step_add hstep
    exact Function.update_of_ne (Ne.symm hi) _ _
  | get j docs =>
    obtain ⟨sync, -, -, -, -, rfl⟩ := step_get hstep
    exact Function.update_of_ne (Ne.symm hi) _ _
  | replace j now =>
    obtain ⟨sync, docs, list, -, -, -, rfl⟩ := step_replace hstep
    exact Function.update_of_ne (Ne.symm hi) _ _
  | fail j =>
    obtain ⟨sync, -, rfl⟩ := step_fail hstep
    exact Function.update_of_ne (Ne.symm hi) _ _

theorem devices_of_run {as : List (SyncAction ι R D)}
    (hrun : Machine.run stepAlone as w = some w') (has : ∀ a ∈ as, a.device ≠ i) :
    w'.devices i = w.devices i := by
  induction as generalizing w with
  | nil => cases hrun; rfl
  | cons a as ih =>
    obtain ⟨t, hstep, hrest⟩ := Machine.run_cons.1 hrun
    rw [ih hrest fun b hb => has b (List.mem_cons_of_mem _ hb),
      devices_of_step (stepAlone_cases hstep).1 (has a List.mem_cons_self)]

/-- No attempt is torn without a failure. -/
theorem torn_of_step (hstep : w.step a = some w') (ha : ∀ j, a ≠ .fail j) :
    w'.torn = w.torn := by
  cases a with
  | save j r => obtain ⟨-, rfl⟩ := step_save hstep; rfl
  | «begin» j => obtain ⟨-, rfl⟩ := step_begin hstep; rfl
  | add j => obtain ⟨sync, s, -, -, rfl⟩ := step_add hstep; rfl
  | get j docs => obtain ⟨sync, -, -, -, -, rfl⟩ := step_get hstep; rfl
  | replace j now => obtain ⟨sync, docs, list, -, -, -, rfl⟩ := step_replace hstep; rfl
  | fail j => exact absurd rfl (ha j)

/-- The invariant of runs without failures. -/
theorem Clean.of_run {as : List (SyncAction ι R D)} (h : Clean w) (hnot : ∀ i, w.torn i = false)
    (hrun : Machine.run stepAlone as w = some w') (has : ∀ a ∈ as, ∀ j, a ≠ .fail j) :
    Clean w' ∧ ∀ i, w'.torn i = false := by
  induction as generalizing w with
  | nil => cases hrun; exact ⟨h, hnot⟩
  | cons a as ih =>
    obtain ⟨t, hstep, hrest⟩ := Machine.run_cons.1 hrun
    have htorn := torn_of_step (stepAlone_cases hstep).1 (has a List.mem_cons_self)
    exact ih (h.step (fun j _ => hnot j) hstep) (htorn ▸ hnot) hrest fun b hb =>
      has b (List.mem_cons_of_mem _ hb)

omit [DecidableEq ι] [DecidableEq D] in
/-- The list after a replace is the answer, read document by document. -/
theorem values_of_decode {docs : List (Tagged ι (Document D))} {now : Timestamp}
    {list : List (Tagged ι R)} (h : docs.mapM (decode now) = some list) :
    list.map (fun s => (s.tag, some s.value)) =
      docs.map fun d => (d.tag, Syncable.fromJson now d.value) := by
  induction docs generalizing list with
  | nil => cases h; rfl
  | cons d docs ih =>
    simp only [List.mapM_cons, Option.bind_eq_bind, Option.bind_eq_some_iff, Option.pure_def,
      Option.some.injEq] at h
    obtain ⟨s, hs, rest, hrest, rfl⟩ := h
    obtain ⟨r, hr, rfl⟩ := Option.map_eq_some_iff.1 hs
    rw [List.map_cons, List.map_cons, ih hrest, hr]
    rfl

/-- The collection only grows. -/
theorem mem_remote_of_run {as : List (SyncAction ι R D)} {t : ι × ℕ}
    (hrun : Machine.run stepAlone as w = some w') (ht : t ∈ tags w.remote) :
    t ∈ tags w'.remote := by
  refine Machine.invariant (fun w => t ∈ tags w.remote) ?_ ht hrun
  intro w a w' ht hstep
  have hstep := (stepAlone_cases hstep).1
  cases a with
  | save j r => obtain ⟨-, rfl⟩ := step_save hstep; exact ht
  | «begin» j => obtain ⟨-, rfl⟩ := step_begin hstep; exact ht
  | add j =>
    obtain ⟨sync, s, -, -, rfl⟩ := step_add hstep
    rw [tags_append]
    exact List.mem_append_left _ ht
  | get j docs => obtain ⟨sync, -, -, -, -, rfl⟩ := step_get hstep; exact ht
  | replace j now => obtain ⟨sync, docs, list, -, -, -, rfl⟩ := step_replace hstep; exact ht
  | fail j => obtain ⟨sync, -, rfl⟩ := step_fail hstep; exact ht

omit [DecidableEq ι] [DecidableEq D] in
/-- Every document is one that `toJson` has written, so the answer of a get can be read. -/
theorem Inv.exists_decode (h : Inv w) (now : Timestamp) {docs : List (Tagged ι (Document D))}
    (hdocs : ∀ d ∈ docs, d ∈ w.remote) :
    ∃ list : List (Tagged ι R), docs.mapM (decode now) = some list := by
  induction docs with
  | nil => exact ⟨[], rfl⟩
  | cons d docs ih =>
    obtain ⟨hd, hrest⟩ := List.forall_mem_cons.1 hdocs
    obtain ⟨r, -, hvalue⟩ := h.remote d hd
    obtain ⟨list, hlist⟩ := ih hrest
    have hdecode : decode now d = some (d.map fun _ => Syncable.sent r) := by
      rw [decode, hvalue, Syncable.fromJson_toJson, Option.map_some]
    exact ⟨_, by rw [List.mapM_cons, hdecode, hlist]; rfl⟩

/-- A sync that has its answer can replace the list, and is completed by that. -/
theorem Inv.exists_replace (h : Inv w) (now : Timestamp) {sync : Running ι R D}
    {docs : List (Tagged ι (Document D))} (hsync : (w.devices i).running = some sync)
    (hdocs : sync.docs = some docs) : ∃ w', w.stepAlone (.replace i now) = some w' ∧
      (w'.devices i).running = none ∧ w'.synced i = (w'.log i).length := by
  obtain ⟨-, hmem, -, -⟩ := ((h.device i).running sync hsync).answer docs hdocs
  obtain ⟨list, hlist⟩ := h.exists_decode now hmem
  refine ⟨{ w.setDevice i { list, running := none } with
    synced := Function.update w.synced i (w.log i).length }, ?_, ?_, ?_⟩
  · simp only [stepAlone, Cloud.step, hsync, hdocs, hlist, Option.bind_eq_bind, Option.bind_some,
      Option.pure_def]
  · simp [setDevice]
  · simp [setDevice]

/-- A sync that is through its loop can get the collection. -/
theorem exists_get {sync : Running ι R D} (hsync : (w.devices i).running = some sync)
    (hend : sync.index = sync.uploads.length) (hdocs : sync.docs = none) :
    ∃ docs w', w.stepAlone (.get i docs) = some w' ∧
      (w'.devices i).running = some { sync with docs := some docs } := by
  let le (d d' : Tagged ι (Document D)) : Bool :=
    decide (d.value.timestamp.getD 0 ≤ d'.value.timestamp.getD 0)
  have hordered : Ordered ((w.remote.mergeSort le).map Tagged.value) := by
    rw [Ordered, List.map_map, List.pairwise_map]
    refine (List.pairwise_mergeSort (fun a b c hab hbc => ?_) (fun a b => ?_) w.remote).imp
      fun hle => of_decide_eq_true hle
    · exact decide_eq_true ((of_decide_eq_true hab).trans (of_decide_eq_true hbc))
    · simpa [le] using Nat.le_total _ _
  refine ⟨w.remote.mergeSort le, w.setDevice i { w.devices i with
    running := some { sync with docs := some (w.remote.mergeSort le) } }, ?_, ?_⟩
  · simp only [stepAlone, Cloud.step, hsync, Option.bind_eq_bind, Option.bind_some]
    exact if_pos ⟨hend, by rw [hdocs]; rfl, List.mergeSort_perm _ _, hordered⟩
  · simp [setDevice]

/-- From wherever it is suspended a sync comes to its end by steps of its own device. -/
theorem Inv.exists_completed (h : Inv w) {sync : Running ι R D}
    (hsync : (w.devices i).running = some sync) : ∃ cs w',
    Machine.run stepAlone cs w = some w' ∧ (∀ c ∈ cs, c.device = i ∧ ∀ j, c ≠ .fail j) ∧
      (w'.devices i).running = none ∧ w'.synced i = (w'.log i).length := by
  cases hdocs : sync.docs with
  | some docs =>
    obtain ⟨w', hreplace, hdone⟩ := h.exists_replace 0 hsync hdocs
    exact ⟨[.replace i 0], w', Machine.run_cons.2 ⟨w', hreplace, rfl⟩, by simp [SyncAction.device],
      hdone⟩
  | none =>
    -- by how much of the loop is left
    generalize hleft : sync.uploads.length - sync.index = n
    induction n generalizing w sync with
    | zero =>
      have hle := ((h.device i).running sync hsync).index_le
      obtain ⟨docs, v, hget, hv⟩ := exists_get hsync (by omega) hdocs
      obtain ⟨w', hreplace, hdone⟩ :=
        (h.step (stepAlone_cases hget).1).exists_replace 0 hv rfl
      exact ⟨[.get i docs, .replace i 0], w',
        Machine.run_cons.2 ⟨v, hget, Machine.run_cons.2 ⟨w', hreplace, rfl⟩⟩,
        by simp [SyncAction.device], hdone⟩
    | succ n ih =>
      have hlt : sync.index < sync.uploads.length := by omega
      have hadd : w.stepAlone (.add i) = some { w.setDevice i { w.devices i with
            running := some { sync with index := sync.index + 1 } } with
          remote := w.remote ++ [sync.uploads[sync.index].map Syncable.toJson] } := by
        simp only [stepAlone, Cloud.step, hsync, List.getElem?_eq_getElem hlt, Option.bind_eq_bind,
          Option.bind_some, Option.pure_def]
      have hnext : ((w.setDevice i { w.devices i with
          running := some { sync with index := sync.index + 1 } }).devices i).running =
          some { sync with index := sync.index + 1 } := by simp [setDevice]
      obtain ⟨cs, w', hrun, hmine, hdone⟩ := ih (h.step (stepAlone_cases hadd).1) hnext hdocs
        (by dsimp only; omega)
      exact ⟨.add i :: cs, w', Machine.run_cons.2 ⟨_, hadd, hrun⟩,
        List.forall_mem_cons.2 ⟨⟨rfl, by simp⟩, hmine⟩, hdone⟩

end Cloud

open Cloud

/-- In a run without failures every record is in the collection at most once. One saved
before its device's last finished sync is there exactly once, and stays. A sync that has got the
collection can replace the list by it, whatever the other devices do meanwhile: its device then
has the collection as the get found it, every record flagged and otherwise as it was saved, and
everything saved on the device is covered. Every sync under way can get that far by itself. -/
theorem devices_merge {as : List (SyncAction ι R D)} {w : Cloud ι R D}
    (hrun : Machine.run stepAlone as start = some w) (hok : ∀ a ∈ as, ∀ i, a ≠ .fail i) :
    (tags w.remote).Nodup ∧
    (∀ i, ∀ k < w.synced i, (tags w.remote).count (i, k) = 1 ∧
      ∀ bs w', Machine.run stepAlone bs w = some w' → (∀ b ∈ bs, ∀ j, b ≠ .fail j) →
        (tags w'.remote).count (i, k) = 1) ∧
    (∀ i docs w₁ bs w₂ now, w.stepAlone (.get i docs) = some w₁ →
      Machine.run stepAlone bs w₁ = some w₂ → (∀ b ∈ bs, b.device ≠ i ∧ ∀ j, b ≠ .fail j) →
      ∃ w₃, w₂.stepAlone (.replace i now) = some w₃ ∧
        ((w₃.devices i).list.map fun s => (s.tag, some s.value)).Perm
          (w.remote.map fun d => (d.tag, Syncable.fromJson now d.value)) ∧
        (∀ s ∈ (w₃.devices i).list, Syncable.uploaded s.value = true ∧
          ∃ r, SavedAs w₃.log s.tag r ∧ s.value = Syncable.sent r) ∧
        (w₃.devices i).running = none ∧ w₃.synced i = (w₃.log i).length) ∧
    ∀ i, (w.devices i).running.isSome → ∃ cs w', Machine.run stepAlone cs w = some w' ∧
      (∀ c ∈ cs, c.device = i ∧ ∀ j, c ≠ .fail j) ∧
      (w'.devices i).running = none ∧ w'.synced i = (w'.log i).length := by
  obtain ⟨hclean, hnot⟩ := Clean.start.of_run (fun _ => rfl) hrun hok
  refine ⟨hclean.atMost, fun i k hk => ?_, ?_, fun i hrunning => ?_⟩
  · have hmem := (hclean.device i).stored k hk
    refine ⟨List.count_eq_one_of_mem hclean.atMost hmem, fun bs w' hbs hbsok => ?_⟩
    obtain ⟨hclean', -⟩ := hclean.of_run hnot hbs hbsok
    exact List.count_eq_one_of_mem hclean'.atMost (mem_remote_of_run hbs hmem)
  · intro i docs w₁ bs w₂ now hget hbs hbsok
    have hget := (stepAlone_cases hget).1
    have hclean₁ := hclean.step (fun j _ => hnot j) (a := .get i docs) hget
    have hnot₁ : ∀ j, w₁.torn j = false := torn_of_step hget (fun _ => nofun) ▸ hnot
    obtain ⟨hclean₂, -⟩ := hclean₁.of_run hnot₁ hbs fun b hb => (hbsok b hb).2
    have hdevice := devices_of_run hbs fun b hb => (hbsok b hb).1
    obtain ⟨sync, -, -, hperm, -, rfl⟩ := step_get hget
    -- the sync still waits with the answer of its get
    have hsync : (w₂.devices i).running = some { sync with docs := some docs } := by
      simp [hdevice, setDevice]
    obtain ⟨w₃, hreplace, hdone⟩ := hclean₂.inv.exists_replace now hsync rfl
    obtain ⟨sync', docs', list, hsync', hdocs', hlist, hw₃⟩ :=
      step_replace (stepAlone_cases hreplace).1
    obtain rfl := Option.some.inj (hsync.symm.trans hsync')
    obtain rfl := Option.some.inj hdocs'
    have hnew : (w₃.devices i).list = list := by simp [hw₃, setDevice]
    have hlog : w₃.log = w₂.log := by rw [hw₃]; rfl
    refine ⟨w₃, hreplace, ?_, fun s hs => ?_, hdone⟩
    · rw [hnew, values_of_decode hlist]
      exact hperm.map _
    · have hmem := (((hclean₂.inv.device i).running _ hsync).answer _ rfl).2.1
      obtain ⟨-, r, hr, hvalue⟩ := hclean₂.inv.sent_of_decode hmem hlist (hnew ▸ hs)
      exact ⟨by rw [hvalue, Syncable.uploaded_sent], r, hlog ▸ hr, hvalue⟩
  · obtain ⟨sync, hsync⟩ := Option.isSome_iff_exists.1 hrunning
    exact hclean.inv.exists_completed hsync

/-- Two devices, each with a result saved on it and added to the collection. -/
def merging : List (SyncAction Bool (Quick (List Course)) Unit) :=
  [.save true (quickResult 1), .save false (quickResult 2), .begin true, .begin false, .add true,
    .add false]

def mergedDocs : List (Tagged Bool (Document Unit)) :=
  [⟨true, 0, Quick.toJson (quickResult 1)⟩, ⟨false, 0, Quick.toJson (quickResult 2)⟩]

/-- The second device comes to its end between the first one's get and its replace. -/
theorem devices_merge_quick : ∃ w w₁ w₂ w₃, Machine.run stepAlone merging start = some w ∧
    w.stepAlone (.get true mergedDocs) = some w₁ ∧
    Machine.run stepAlone [.get false mergedDocs, .replace false 3] w₁ = some w₂ ∧
    w₂.stepAlone (.replace true 4) = some w₃ ∧
    (w.devices false).running.isSome ∧ (∃ cs w', Machine.run stepAlone cs w = some w' ∧
      (w'.devices false).running = none) ∧
    (tags w₃.remote).Nodup ∧ (∀ i, w₃.synced i = 1 ∧ (tags w₃.remote).count (i, 0) = 1) ∧
    ((w₃.devices true).list.map fun s => (s.tag, some s.value)).Perm
      (w.remote.map fun d => (d.tag, Quick.fromJson 4 d.value)) ∧
    ∀ s ∈ (w₃.devices true).list, s.value.uploaded = true := by
  have hcheck : ((Machine.run stepAlone merging start).bind fun w =>
      (w.stepAlone (.get true mergedDocs)).bind
        (Machine.run stepAlone [.get false mergedDocs, .replace false 3])).isSome := by
    decide +kernel
  obtain ⟨w₂, hw₂⟩ := Option.isSome_iff_exists.1 hcheck
  obtain ⟨w, hrun, hw⟩ := Option.bind_eq_some_iff.1 hw₂
  obtain ⟨w₁, hget, hbs⟩ := Option.bind_eq_some_iff.1 hw
  obtain ⟨-, -, hsync, hends⟩ := devices_merge hrun (by simp [merging])
  obtain ⟨w₃, hreplace, hperm, hsent, -⟩ :=
    hsync true mergedDocs w₁ _ w₂ 4 hget hbs (by simp [SyncAction.device])
  -- everything from the start, for the first two parts
  have hall : Machine.run stepAlone (merging ++ .get true mergedDocs ::
      ([.get false mergedDocs, .replace false 3] ++ [.replace true 4])) start = some w₃ :=
    Machine.run_append.2 ⟨w, hrun, Machine.run_cons.2 ⟨w₁, hget,
      Machine.run_append.2 ⟨w₂, hbs, Machine.run_cons.2 ⟨w₃, hreplace, rfl⟩⟩⟩⟩
  have hsynced : ∀ i, w₃.synced i = 1 := by
    have hcounts : (Machine.run stepAlone (merging ++ .get true mergedDocs ::
        ([.get false mergedDocs, .replace false 3] ++ [.replace true 4])) start).map
          (fun w => (w.synced true, w.synced false)) = some (1, 1) := by
      decide +kernel
    rw [hall, Option.map_some, Option.some.injEq, Prod.mk.injEq] at hcounts
    rintro (_ | _)
    · exact hcounts.2
    · exact hcounts.1
  obtain ⟨hnodup, hstored, -⟩ := devices_merge hall (by simp [merging])
  have hbusy : (w.devices false).running.isSome := by
    have hbegun : (Machine.run stepAlone merging start).map
        (fun w => (w.devices false).running.isSome) = some true := by
      decide +kernel
    rwa [hrun, Option.map_some, Option.some.injEq] at hbegun
  obtain ⟨cs, w', hcs, -, hidle, -⟩ := hends false hbusy
  exact ⟨w, w₁, w₂, w₃, hrun, hget, hbs, hreplace, hbusy, ⟨cs, w', hcs, hidle⟩, hnodup,
    fun i => ⟨hsynced i, (hstored i 0 (by rw [hsynced]; decide)).1⟩, hperm,
    fun s hs => (hsent s hs).1⟩

end StudyStats
