import StudyStats.LostSaves

/-!
# Retrying a sync

A device that does one thing at a time: it saves nothing while a sync of it runs. The upload
flags change only when the whole list is replaced at the end, so an attempt that is cut short
after it stored something leaves records stored and not flagged. The next attempt starts with
the first of them.

## Main results

* `Cloud.Clean.step` — what such devices keep, as long as no torn attempt is retried.
* `storedOnce_iff` — the runs in which every record is stored at most once.
-/

namespace StudyStats

variable {ι R D : Type} [Syncable R D] [DecidableEq ι] [DecidableEq D]

namespace Cloud

/-- A step of devices that save nothing while they sync. -/
def stepAlone (w : Cloud ι R D) (a : SyncAction ι R D) : Option (Cloud ι R D) :=
  match a with
  | .save i _ => if (w.devices i).running.isSome then none else w.step a
  | _ => w.step a

variable {w w' : Cloud ι R D} {a : SyncAction ι R D} {i : ι}

theorem stepAlone_cases (h : w.stepAlone a = some w') :
    w.step a = some w' ∧ ∀ i r, a = .save i r → (w.devices i).running = none := by
  cases a with
  | save i r =>
    simp only [stepAlone] at h
    split_ifs at h with hrunning
    refine ⟨h, ?_⟩
    rintro j r' hsave
    cases hsave
    simpa using hrunning
  | _ => exact ⟨h, nofun⟩

/-- Every record is stored at most once, and those saved before the device's last finished
sync are stored exactly once and listed exactly once. -/
structure StoredOnce (w : Cloud ι R D) : Prop where
  atMost : (tags w.remote).Nodup
  stored : ∀ i, ∀ k < w.synced i, (tags w.remote).count (i, k) = 1
  listed : ∀ i, ∀ k < w.synced i, (tags (w.devices i).list).count (i, k) = 1

/-- No record is stored by a device after one of its syncs was cut short with something
stored. -/
def NotTorn (w : Cloud ι R D) (a : SyncAction ι R D) : Prop :=
  ∀ i, a = .add i → w.torn i = false

instance (w : Cloud ι R D) : (a : SyncAction ι R D) → Decidable (w.NotTorn a)
  | .add i => decidable_of_iff (w.torn i = false)
      ⟨fun h j hj => by cases hj; exact h, fun h => h i rfl⟩
  | .save .. | .begin _ | .get .. | .replace .. | .fail _ => isTrue fun _ ha => by cases ha

/-- What holds of each device of such a run. -/
structure DeviceClean (w : Cloud ι R D) (i : ι) : Prop where
  nodup : (tags (w.devices i).list).Nodup
  idle : w.torn i = false → (w.devices i).running = none →
    ∀ s ∈ unsent (w.devices i).list, s.tag ∉ tags w.remote
  fresh : w.torn i = false → ∀ sync, (w.devices i).running = some sync →
    ∀ s ∈ sync.uploads.drop sync.index, s.tag ∉ tags w.remote
  /-- After a torn attempt the first record to upload is stored, and no attempt gets on. -/
  torn : w.torn i = true → (∃ s rest, unsent (w.devices i).list = s :: rest ∧
    s.tag ∈ tags w.remote) ∧ ∀ sync, (w.devices i).running = some sync → sync.index = 0
  uploads : ∀ sync, (w.devices i).running = some sync →
    unsent (w.devices i).list = sync.uploads ∧ sync.saved = (w.log i).length
  docs : ∀ sync docs, (w.devices i).running = some sync → sync.docs = some docs →
    (tags docs).Nodup
  synced_le : w.synced i ≤ (w.log i).length
  stored : ∀ k < w.synced i, (i, k) ∈ tags w.remote

structure Clean (w : Cloud ι R D) : Prop where
  inv : Inv w
  all : AllListed w
  atMost : (tags w.remote).Nodup
  device : ∀ i, DeviceClean w i

omit [DecidableEq D] in
theorem Clean.storedOnce (h : Clean w) : StoredOnce w where
  atMost := h.atMost
  stored i k hk := List.count_eq_one_of_mem h.atMost ((h.device i).stored k hk)
  listed i k hk := List.count_eq_one_of_mem (h.device i).nodup
    (h.all i k (hk.trans_le (h.device i).synced_le))

/-- A record stored after a torn attempt is stored twice. -/
theorem Clean.notTorn (h : Clean w) (hstep : w.stepAlone a = some w') (honce : StoredOnce w') :
    w.NotTorn a := by
  rintro i rfl
  by_contra htorn
  obtain ⟨sync, s, hsync, hs, rfl⟩ := step_add (stepAlone_cases hstep).1
  obtain ⟨⟨first, rest, hunsent, hstored⟩, hindex⟩ := (h.device i).torn (by simpa using htorn)
  rw [hindex sync hsync, ← ((h.device i).uploads sync hsync).1, hunsent] at hs
  obtain rfl : first = s := by simpa using hs
  have hnodup := honce.atMost
  simp only [tags_append] at hnodup
  exact (List.nodup_append.1 hnodup).2.2 _ hstored _ (List.mem_singleton_self _) rfl

/-! ## Steps keep it -/

omit [DecidableEq ι] [DecidableEq D] in
/-- A device is not touched by documents of other devices. -/
theorem DeviceClean.frame (h : DeviceClean w i) (hinv : Inv w)
    (extra : List (Tagged ι (Document D))) (hextra : ∀ d ∈ extra, d.owner ≠ i)
    (hdevice : w'.devices i = w.devices i) (hremote : w'.remote = w.remote ++ extra)
    (hlog : w'.log i = w.log i) (hsynced : w'.synced i = w.synced i)
    (htorn : w'.torn i = w.torn i) : DeviceClean w' i := by
  have hold : ∀ t, t ∈ tags w.remote → t ∈ tags w'.remote := fun t ht => by
    rw [hremote, tags_append]; exact List.mem_append_left _ ht
  have hnew : ∀ s : Tagged ι R, s.owner = i → s.tag ∉ tags w.remote → s.tag ∉ tags w'.remote := by
    intro s howner hs hmem
    rw [hremote, tags_append, List.mem_append] at hmem
    rcases hmem with hmem | hmem
    · exact hs hmem
    · obtain ⟨d, hd, htag⟩ := List.mem_map.1 hmem
      exact hextra d hd ((congrArg Prod.fst htag).trans howner)
  have hdev := hinv.device i
  refine ⟨hdevice ▸ h.nodup, ?_, ?_, ?_, ?_, ?_, ?_, ?_⟩
  · intro hnot hidle s hs
    rw [hdevice] at hidle hs
    obtain ⟨hlist, hup⟩ := mem_unsent.1 hs
    exact hnew s (hdev.own s hlist hup).1 (h.idle (htorn ▸ hnot) hidle s hs)
  · intro hnot sync hsync s hs
    rw [hdevice] at hsync
    exact hnew s (hdev.owner_uploads hsync (List.mem_of_mem_drop hs)).2.2.1
      (h.fresh (htorn ▸ hnot) sync hsync s hs)
  · intro ht
    obtain ⟨⟨s, rest, hunsent, hstored⟩, hindex⟩ := h.torn (htorn ▸ ht)
    exact ⟨⟨s, rest, hdevice ▸ hunsent, hold _ hstored⟩, fun sync hsync =>
      hindex sync (hdevice ▸ hsync)⟩
  · intro sync hsync
    rw [hdevice] at hsync ⊢
    rw [hlog]
    exact h.uploads sync hsync
  · intro sync docs hsync hdocs
    exact h.docs sync docs (hdevice ▸ hsync) hdocs
  · rw [hsynced, hlog]; exact h.synced_le
  · intro k hk
    exact hold _ (h.stored k (hsynced ▸ hk))

omit [DecidableEq ι] [DecidableEq D] in
/-- A step that changes one device, and adds documents of that device only. -/
theorem Clean.of_device (h : Clean w) (hinv : Inv w') (hall : AllListed w') (i : ι)
    (extra : List (Tagged ι (Document D))) (hextra : ∀ d ∈ extra, d.owner = i)
    (hremote : w'.remote = w.remote ++ extra) (hnodup : (tags w'.remote).Nodup)
    (hothers : ∀ j, j ≠ i → w'.devices j = w.devices j ∧ w'.log j = w.log j ∧
      w'.synced j = w.synced j ∧ w'.torn j = w.torn j)
    (hdev : DeviceClean w' i) : Clean w' where
  inv := hinv
  all := hall
  atMost := hnodup
  device j := by
    by_cases hj : j = i
    · exact hj ▸ hdev
    · obtain ⟨hdevice, hlog, hsynced, htorn⟩ := hothers j hj
      exact (h.device j).frame h.inv extra (fun d hd => hextra d hd ▸ Ne.symm hj) hdevice hremote
        hlog hsynced htorn

omit [DecidableEq ι] [DecidableEq D] in
/-- Under the invariant a sync has read everything saved on its device. -/
theorem Clean.replacesWhatItRead (h : Clean w) : w.ReplacesWhatItRead a := by
  rintro i now sync rfl hsync
  exact ((h.device i).uploads sync hsync).2

theorem Clean.step_save {r : R} (h : Clean w) (hidle : (w.devices i).running = none)
    (hinv : Inv w') (hall : AllListed w') (hstep : w.step (.save i r) = some w') : Clean w' := by
  obtain ⟨hr, rfl⟩ := Cloud.step_save hstep
  have hdev := h.device i
  have hnew : (i, (w.log i).length) ∉ tags w.remote := fun hmem =>
    lt_irrefl _ (h.inv.serial_lt hmem)
  have hnewList : (i, (w.log i).length) ∉ tags (w.devices i).list := by
    intro hmem
    obtain ⟨s, hs, htag⟩ := List.mem_map.1 hmem
    obtain ⟨r', hr'⟩ : ∃ r', SavedAs w.log s.tag r' := by
      by_cases hup : Syncable.uploaded s.value
      · obtain ⟨-, r', hr', -⟩ := (h.inv.device i).sent s hs hup
        exact ⟨r', hr'⟩
      · exact ⟨_, ((h.inv.device i).own s hs (by simpa using hup)).2⟩
    rw [htag] at hr'
    exact lt_irrefl _ (List.getElem?_eq_some_iff.1 hr').1
  refine h.of_device hinv hall i [] nofun (by simp [setDevice]) h.atMost
    (fun j hj => by simp [setDevice, hj]) ?_
  refine ⟨?_, ?_, ?_, ?_, ?_, ?_, ?_, ?_⟩ <;> simp only [setDevice, Function.update_self]
  · rw [tags_append, List.nodup_append]
    refine ⟨hdev.nodup, List.nodup_singleton _, ?_⟩
    rintro t ht u hu rfl
    obtain rfl := List.mem_singleton.1 hu
    exact hnewList ht
  · intro hnot _ s hs
    rw [unsent_append, List.mem_append] at hs
    rcases hs with hs | hs
    · exact hdev.idle hnot hidle s hs
    · obtain rfl := List.mem_singleton.1 (mem_unsent.1 hs).1
      exact hnew
  · intro _ sync hsync
    rw [hidle] at hsync
    cases hsync
  · intro ht
    obtain ⟨⟨s, rest, hunsent, hstored⟩, hindex⟩ := hdev.torn ht
    refine ⟨⟨s, rest ++ unsent [⟨i, (w.log i).length, r⟩], ?_, hstored⟩, hindex⟩
    rw [unsent_append, hunsent]; rfl
  · intro sync hsync
    rw [hidle] at hsync
    cases hsync
  · exact hdev.docs
  · have := hdev.synced_le
    rw [List.length_append]
    omega
  · exact hdev.stored

theorem Clean.step_begin (h : Clean w) (hinv : Inv w') (hall : AllListed w')
    (hstep : w.step (.begin i) = some w') : Clean w' := by
  obtain ⟨hidle, rfl⟩ := Cloud.step_begin hstep
  have hdev := h.device i
  refine h.of_device hinv hall i [] (List.forall_mem_nil _) (by simp [setDevice]) h.atMost
    (fun j hj => by simp [setDevice, hj]) ?_
  refine ⟨?_, ?_, ?_, ?_, ?_, ?_, hdev.synced_le, hdev.stored⟩ <;>
    simp only [setDevice, Function.update_self]
  · exact hdev.nodup
  · intro _ hnone
    cases hnone
  · rintro hnot sync hsync s hs
    obtain rfl := Option.some.inj hsync
    exact hdev.idle hnot hidle s (by simpa using hs)
  · intro ht
    refine ⟨(hdev.torn ht).1, ?_⟩
    rintro sync hsync
    obtain rfl := Option.some.inj hsync
    rfl
  · rintro sync hsync
    obtain rfl := Option.some.inj hsync
    exact ⟨rfl, rfl⟩
  · rintro sync docs hsync hdocs
    obtain rfl := Option.some.inj hsync
    cases hdocs

theorem Clean.step_add (h : Clean w) (hnot : w.torn i = false) (hinv : Inv w')
    (hall : AllListed w') (hstep : w.step (.add i) = some w') : Clean w' := by
  obtain ⟨sync, s, hsync, hs, rfl⟩ := Cloud.step_add hstep
  have hdev := h.device i
  obtain ⟨hunsent, hsaved⟩ := hdev.uploads sync hsync
  obtain ⟨hlt, hget⟩ := List.getElem?_eq_some_iff.1 hs
  have hdrop : sync.uploads.drop sync.index = s :: sync.uploads.drop (sync.index + 1) := by
    rw [← hget, List.getElem_cons_drop]
  have hfresh := hdev.fresh hnot sync hsync
  rw [hdrop] at hfresh
  -- the uploads have different tags, so those still to come differ from this one
  have hdistinct : (tags (s :: sync.uploads.drop (sync.index + 1))).Nodup := by
    have huploads : (tags sync.uploads).Nodup := by
      rw [← hunsent]
      exact hdev.nodup.sublist (List.filter_sublist.map _)
    rw [← hdrop]
    exact huploads.sublist ((List.drop_sublist _ _).map _)
  have howner := ((h.inv.device i).owner_uploads hsync (List.mem_of_getElem? hs)).2.2.1
  refine h.of_device hinv hall i [s.map Syncable.toJson] ?_ rfl ?_
    (fun j hj => by simp [setDevice, hj]) ?_
  · intro d hd
    obtain rfl := List.mem_singleton.1 hd
    exact howner
  · simp only [tags_append]
    rw [List.nodup_append]
    refine ⟨h.atMost, List.nodup_singleton _, ?_⟩
    rintro t ht u hu rfl
    obtain rfl : t = s.tag := List.mem_singleton.1 hu
    exact hfresh s List.mem_cons_self ht
  · refine ⟨?_, ?_, ?_, ?_, ?_, ?_, hdev.synced_le, ?_⟩ <;>
      simp only [setDevice, Function.update_self]
    · exact hdev.nodup
    · intro _ hnone
      cases hnone
    · rintro - sync' hsync' t ht
      obtain rfl := Option.some.inj hsync'
      rw [tags_append, List.mem_append]
      rintro (hmem | hmem)
      · exact hfresh t (List.mem_cons_of_mem _ ht) hmem
      · have htag : t.tag = s.tag := List.mem_singleton.1 hmem
        exact (List.nodup_cons.1 hdistinct).1 (htag ▸ mem_tags ht)
    · intro ht
      cases hnot.symm.trans ht
    · rintro sync' hsync'
      obtain rfl := Option.some.inj hsync'
      exact ⟨hunsent, hsaved⟩
    · rintro sync' docs hsync' hdocs
      obtain rfl := Option.some.inj hsync'
      exact hdev.docs sync docs hsync hdocs
    · intro k hk
      rw [tags_append]
      exact List.mem_append_left _ (hdev.stored k hk)

theorem Clean.step_get {docs : List (Tagged ι (Document D))} (h : Clean w) (hinv : Inv w')
    (hall : AllListed w') (hstep : w.step (.get i docs) = some w') : Clean w' := by
  obtain ⟨sync, hsync, -, hperm, -, rfl⟩ := Cloud.step_get hstep
  have hdev := h.device i
  refine h.of_device hinv hall i [] (List.forall_mem_nil _) (by simp [setDevice]) h.atMost
    (fun j hj => by simp [setDevice, hj]) ?_
  refine ⟨?_, ?_, ?_, ?_, ?_, ?_, hdev.synced_le, hdev.stored⟩ <;>
    simp only [setDevice, Function.update_self]
  · exact hdev.nodup
  · intro _ hnone
    cases hnone
  · rintro hnot sync' hsync'
    obtain rfl := Option.some.inj hsync'
    exact hdev.fresh hnot sync hsync
  · intro ht
    refine ⟨(hdev.torn ht).1, ?_⟩
    rintro sync' hsync'
    obtain rfl := Option.some.inj hsync'
    exact (hdev.torn ht).2 sync hsync
  · rintro sync' hsync'
    obtain rfl := Option.some.inj hsync'
    exact hdev.uploads sync hsync
  · rintro sync' docs' hsync' hdocs'
    obtain rfl := Option.some.inj hsync'
    obtain rfl := Option.some.inj hdocs'
    exact (hperm.map Tagged.tag).nodup_iff.2 h.atMost

omit [DecidableEq ι] [DecidableEq D] in
/-- A torn sync never gets as far as its get. -/
theorem DeviceClean.not_torn_of_docs (h : DeviceClean w i) (hinv : Inv w) {sync : Running ι R D}
    {docs : List (Tagged ι (Document D))} (hsync : (w.devices i).running = some sync)
    (hdocs : sync.docs = some docs) : w.torn i = false := by
  by_contra htorn
  obtain ⟨⟨s, rest, hunsent, -⟩, hindex⟩ := h.torn (by simpa using htorn)
  have hend := (((hinv.device i).running sync hsync).answer docs hdocs).1
  rw [hindex sync hsync, ← (h.uploads sync hsync).1, hunsent] at hend
  cases hend

theorem Clean.step_replace {now : Timestamp} (h : Clean w) (hinv : Inv w') (hall : AllListed w')
    (hstep : w.step (.replace i now) = some w') : Clean w' := by
  obtain ⟨sync, docs, list, hsync, hdocs, hlist, rfl⟩ := Cloud.step_replace hstep
  have hdev := h.device i
  have hrunning := (h.inv.device i).running sync hsync
  obtain ⟨-, hmem, -, -⟩ := hrunning.answer docs hdocs
  have hnot := hdev.not_torn_of_docs h.inv hsync hdocs
  refine h.of_device hinv hall i [] (List.forall_mem_nil _) (by simp [setDevice]) h.atMost
    (fun j hj => by simp [setDevice, hj]) ?_
  refine ⟨?_, ?_, ?_, ?_, ?_, ?_, ?_, ?_⟩ <;> simp only [setDevice, Function.update_self]
  · rw [tags_of_decode hlist]
    exact hdev.docs sync docs hsync hdocs
  · rintro - - s hs
    obtain ⟨hs, hup⟩ := mem_unsent.1 hs
    obtain ⟨-, r, -, hvalue⟩ := h.inv.sent_of_decode hmem hlist hs
    rw [hvalue, Syncable.uploaded_sent] at hup
    cases hup
  · intro _ sync' hsync'
    cases hsync'
  · intro ht
    cases hnot.symm.trans ht
  · intro sync' hsync'
    cases hsync'
  · intro sync' docs' hsync'
    cases hsync'
  · exact le_rfl
  · intro k hk
    have hk' : (i, k) ∈ tags docs := hrunning.mem_docs hdocs (h.all i k hk)
      ((hdev.uploads sync hsync).2 ▸ hk)
    obtain ⟨d, hd, htag⟩ := List.mem_map.1 hk'
    exact htag ▸ mem_tags (hmem d hd)

theorem Clean.step_fail (h : Clean w) (hinv : Inv w') (hall : AllListed w')
    (hstep : w.step (.fail i) = some w') : Clean w' := by
  obtain ⟨sync, hsync, rfl⟩ := Cloud.step_fail hstep
  have hdev := h.device i
  have hunsent := (hdev.uploads sync hsync).1
  refine h.of_device hinv hall i [] (List.forall_mem_nil _) (by simp [setDevice]) h.atMost
    (fun j hj => by simp [setDevice, hj]) ?_
  refine ⟨?_, ?_, ?_, ?_, ?_, ?_, hdev.synced_le, hdev.stored⟩ <;>
    simp only [setDevice, Function.update_self]
  · exact hdev.nodup
  · rintro hnot - s hs
    obtain ⟨htorn, hindex⟩ : w.torn i = false ∧ sync.index = 0 := by simpa using hnot
    rw [hunsent] at hs
    exact hdev.fresh htorn sync hsync s (by rwa [hindex, List.drop_zero])
  · intro _ sync' hsync'
    cases hsync'
  · intro ht
    refine ⟨?_, fun sync' hsync' => by cases hsync'⟩
    by_cases htorn : w.torn i = true
    · exact (hdev.torn htorn).1
    · have hindex : 0 < sync.index := by simpa [htorn] using ht
      have hrunning := (h.inv.device i).running sync hsync
      obtain ⟨s, rest, huploads⟩ := List.exists_cons_of_length_pos
        (hindex.trans_le hrunning.index_le)
      refine ⟨s, rest, hunsent.trans huploads, hrunning.stored s ?_⟩
      rw [huploads, List.take_cons hindex]
      exact List.mem_cons_self
  · intro sync' hsync'
    cases hsync'
  · intro sync' docs' hsync'
    cases hsync'

theorem Clean.step (h : Clean w) (hnot : w.NotTorn a) (hstep : w.stepAlone a = some w') :
    Clean w' := by
  obtain ⟨hstep, hsave⟩ := stepAlone_cases hstep
  have hinv := h.inv.step hstep
  have hall := h.all.step h.inv h.replacesWhatItRead hstep
  cases a with
  | save i r => exact h.step_save (hsave i r rfl) hinv hall hstep
  | «begin» i => exact h.step_begin hinv hall hstep
  | add i => exact h.step_add (hnot i rfl) hinv hall hstep
  | get i docs => exact h.step_get hinv hall hstep
  | replace i now => exact h.step_replace hinv hall hstep
  | fail i => exact h.step_fail hinv hall hstep

omit [DecidableEq ι] [DecidableEq D] in
theorem Clean.start : Clean (start : Cloud ι R D) where
  inv := Inv.start
  all _ _ hk := absurd hk (Nat.not_lt_zero _)
  atMost := List.nodup_nil
  device _ := ⟨List.nodup_nil, nofun, nofun, nofun, nofun, nofun, le_rfl, nofun⟩

end Cloud

/-- Every record is stored at most once throughout a run, and exactly once after a finished
sync, exactly when no device stores a record after one of its syncs was cut short with
something stored. -/
theorem storedOnce_iff {as : List (SyncAction ι R D)} {w : Cloud ι R D}
    (hrun : Machine.run Cloud.stepAlone as Cloud.start = some w) :
    Machine.Always Cloud.stepAlone Cloud.StoredOnce as (Cloud.start : Cloud ι R D) ↔
      Machine.Each Cloud.stepAlone Cloud.NotTorn as Cloud.start :=
  Machine.always_iff_each Cloud.Clean (fun _ h => h.storedOnce)
    (fun _ _ _ h hstep honce => h.notTorn hstep honce)
    (fun _ _ _ h hnot hstep => h.step hnot hstep) Cloud.Clean.start hrun

/-- An attempt cut short at its first add, and a second one that is not. -/
def secondTry : List (SyncAction Unit (Quick (List Course)) Unit) :=
  [.save () (quickResult 1), .begin (), .fail (), .begin (), .add (), .get () [firstDocument],
    .replace () 2]

theorem storedOnce_quick : ∃ w, Machine.run Cloud.stepAlone secondTry Cloud.start = some w ∧
    tags w.remote = [((), 0)] ∧ Machine.Always Cloud.stepAlone Cloud.StoredOnce secondTry
      Cloud.start := by
  have hcheck : (Machine.run Cloud.stepAlone secondTry Cloud.start).map (fun w => tags w.remote) =
      some [((), 0)] := by
    decide +kernel
  obtain ⟨w, hrun, hremote⟩ := Option.map_eq_some_iff.1 hcheck
  have hnot : Machine.Each Cloud.stepAlone Cloud.NotTorn secondTry Cloud.start := by
    decide +kernel
  exact ⟨w, hrun, hremote, (storedOnce_iff hrun).2 hnot⟩

/-- An attempt cut short after its add, and a second one: the record is stored and listed
twice. -/
theorem storedOnce_fails : ∃ w, Machine.run Cloud.stepAlone
    [.save () (quickResult 1), .begin (), .add (), .fail (), .begin (), .add (),
      .get () [firstDocument, firstDocument], .replace () 2] Cloud.start = some w ∧
    tags w.remote = [((), 0), ((), 0)] ∧ tags (w.devices ()).list = [((), 0), ((), 0)] ∧
    ¬w.StoredOnce := by
  have hcheck : (Machine.run Cloud.stepAlone
      [.save () (quickResult 1), .begin (), .add (), .fail (), .begin (), .add (),
        .get () [firstDocument, firstDocument], .replace () 2] Cloud.start).map
        (fun w => (tags w.remote, tags (w.devices ()).list)) =
      some ([((), 0), ((), 0)], [((), 0), ((), 0)]) := by
    decide +kernel
  obtain ⟨w, hrun, hw⟩ := Option.map_eq_some_iff.1 hcheck
  obtain ⟨hremote, hlist⟩ := Prod.mk.inj hw
  refine ⟨w, hrun, hremote, hlist, fun honce => ?_⟩
  have hnodup := honce.atMost
  rw [hremote] at hnodup
  exact absurd hnodup (by decide)

end StudyStats
