import StudyStats.Sync

/-!
# What syncs keep

The invariant of the sync protocol, over all interleavings, failures included: which records
a device and the collection can hold, and what a suspended sync knows. A device's own state
only refers to the collection through tags that are in it, so a step of one device keeps the
invariant of another as long as it adds no document of that other device.

## Main results

* `Cloud.Inv.step` — one step, by cases on the action.
-/

namespace StudyStats

variable {ι R D : Type}

def tags {X : Type} (l : List (Tagged ι X)) : List (ι × ℕ) := l.map Tagged.tag

@[simp] theorem tags_append {X : Type} (l m : List (Tagged ι X)) :
    tags (l ++ m) = tags l ++ tags m := List.map_append

theorem mem_tags {X : Type} {l : List (Tagged ι X)} {s : Tagged ι X} (h : s ∈ l) :
    s.tag ∈ tags l := List.mem_map_of_mem h

namespace Cloud

/-! ## What each action does -/

section Steps

variable [Syncable R D] [DecidableEq ι] [DecidableEq D] {w w' : Cloud ι R D} {i : ι}

theorem step_save {r : R} (h : w.step (.save i r) = some w') :
    Syncable.uploaded r = false ∧
    w' = { w.setDevice i { w.devices i with
        list := (w.devices i).list ++ [⟨i, (w.log i).length, r⟩] } with
      log := Function.update w.log i (w.log i ++ [r]) } := by
  simp only [step] at h
  split_ifs at h with hr
  exact ⟨by simpa using hr, (Option.some.inj h).symm⟩

theorem step_begin (h : w.step (.begin i) = some w') :
    (w.devices i).running = none ∧
    w' = w.setDevice i { w.devices i with
      running := some ⟨unsent (w.devices i).list, 0, none, (w.log i).length⟩ } := by
  simp only [step] at h
  split at h
  · cases h
  · next hrunning => exact ⟨hrunning, (Option.some.inj h).symm⟩

theorem step_add (h : w.step (.add i) = some w') :
    ∃ sync s, (w.devices i).running = some sync ∧ sync.uploads[sync.index]? = some s ∧
      w' = { w.setDevice i { w.devices i with
          running := some { sync with index := sync.index + 1 } } with
        remote := w.remote ++ [s.map Syncable.toJson] } := by
  simp only [step, Option.bind_eq_bind, Option.bind_eq_some_iff, Option.pure_def,
    Option.some.injEq] at h
  obtain ⟨sync, hrunning, s, hs, rfl⟩ := h
  exact ⟨sync, s, hrunning, hs, rfl⟩

theorem step_get {docs : List (Tagged ι (Document D))} (h : w.step (.get i docs) = some w') :
    ∃ sync, (w.devices i).running = some sync ∧ sync.index = sync.uploads.length ∧
      docs.Perm w.remote ∧ Ordered (docs.map Tagged.value) ∧
      w' = w.setDevice i { w.devices i with running := some { sync with docs := some docs } } := by
  simp only [step, Option.bind_eq_bind, Option.bind_eq_some_iff] at h
  obtain ⟨sync, hrunning, h⟩ := h
  split_ifs at h with hguard
  exact ⟨sync, hrunning, hguard.1, hguard.2.2.1, hguard.2.2.2, (Option.some.inj h).symm⟩

theorem step_replace {now : Timestamp} (h : w.step (.replace i now) = some w') :
    ∃ sync docs list, (w.devices i).running = some sync ∧ sync.docs = some docs ∧
      docs.mapM (decode now) = some list ∧
      w' = { w.setDevice i { list, running := none } with
        synced := Function.update w.synced i (w.log i).length } := by
  simp only [step, Option.bind_eq_bind, Option.bind_eq_some_iff, Option.pure_def,
    Option.some.injEq] at h
  obtain ⟨sync, hrunning, docs, hdocs, list, hlist, rfl⟩ := h
  exact ⟨sync, docs, list, hrunning, hdocs, hlist, rfl⟩

theorem step_fail (h : w.step (.fail i) = some w') :
    ∃ sync, (w.devices i).running = some sync ∧
      w' = { w.setDevice i { w.devices i with running := none } with
        torn := Function.update w.torn i (w.torn i || decide (0 < sync.index)) } := by
  simp only [step, Option.bind_eq_bind, Option.bind_eq_some_iff, Option.pure_def,
    Option.some.injEq] at h
  obtain ⟨sync, hrunning, rfl⟩ := h
  exact ⟨sync, hrunning, rfl⟩

end Steps

theorem map_decode [Syncable R D] {now : Timestamp} {docs : List (Tagged ι (Document D))}
    {list : List (Tagged ι R)} (h : docs.mapM (decode now) = some list) :
    docs.map (decode now) = list.map some := by
  induction docs generalizing list with
  | nil => cases h; rfl
  | cons d docs ih =>
    simp only [List.mapM_cons, Option.bind_eq_bind, Option.bind_eq_some_iff, Option.pure_def,
      Option.some.injEq] at h
    obtain ⟨s, hs, rest, hrest, rfl⟩ := h
    simp [hs, ih hrest]

theorem mem_of_decode [Syncable R D] {now : Timestamp} {docs : List (Tagged ι (Document D))}
    {list : List (Tagged ι R)} (h : docs.mapM (decode now) = some list) {s : Tagged ι R}
    (hs : s ∈ list) : ∃ d ∈ docs, decode now d = some s := by
  have : some s ∈ docs.map (decode now) := by
    rw [map_decode h]; exact List.mem_map_of_mem hs
  simpa using List.mem_map.1 this

theorem tag_of_decode [Syncable R D] {now : Timestamp} {d : Tagged ι (Document D)}
    {s : Tagged ι R} (h : decode now d = some s) : s.tag = d.tag := by
  obtain ⟨r, -, rfl⟩ := Option.map_eq_some_iff.1 h
  rfl

theorem tags_of_decode [Syncable R D] {now : Timestamp} {docs : List (Tagged ι (Document D))}
    {list : List (Tagged ι R)} (h : docs.mapM (decode now) = some list) :
    tags list = tags docs := by
  induction docs generalizing list with
  | nil => cases h; rfl
  | cons d docs ih =>
    simp only [List.mapM_cons, Option.bind_eq_bind, Option.bind_eq_some_iff, Option.pure_def,
      Option.some.injEq] at h
    obtain ⟨s, hs, rest, hrest, rfl⟩ := h
    rw [tags, List.map_cons, tag_of_decode hs]
    exact congrArg _ (ih hrest)

/-! ## The invariant -/

section Invariant

variable [Syncable R D]

/-- The record saved under a tag. -/
def SavedAs (log : ι → List R) (tag : ι × ℕ) (r : R) : Prop := (log tag.1)[tag.2]? = some r

/-- Every document is a saved record, written out. -/
def RemoteInv (log : ι → List R) (remote : List (Tagged ι (Document D))) : Prop :=
  ∀ d ∈ remote, ∃ r, SavedAs log d.tag r ∧ d.value = Syncable.toJson r

/-- What a suspended sync of device `i` knows. `late` are the records saved since it began. -/
structure RunningInv (remote : List (Tagged ι (Document D))) (i : ι) (saved : ℕ)
    (list : List (Tagged ι R)) (sync : Running ι R D) : Prop where
  saved_le : sync.saved ≤ saved
  uploads : ∃ late, unsent list = sync.uploads ++ late ∧ ∀ s ∈ late, sync.saved ≤ s.serial
  early : ∀ s ∈ sync.uploads, s.serial < sync.saved
  index_le : sync.index ≤ sync.uploads.length
  stored : ∀ s ∈ sync.uploads.take sync.index, s.tag ∈ tags remote
  remote_early : ∀ k, (i, k) ∈ tags remote → k < sync.saved
  answer : ∀ docs, sync.docs = some docs → sync.index = sync.uploads.length ∧
    (∀ d ∈ docs, d ∈ remote) ∧
    (∀ s ∈ list, Syncable.uploaded s.value → s.tag ∈ tags docs) ∧
    ∀ s ∈ sync.uploads, s.tag ∈ tags docs

/-- What device `i` can hold: sent records that are in the collection, and its own records as
they were saved. -/
structure DeviceInv (log : ι → List R) (remote : List (Tagged ι (Document D))) (i : ι)
    (dev : Local ι R D) : Prop where
  sent : ∀ s ∈ dev.list, Syncable.uploaded s.value →
    s.tag ∈ tags remote ∧ ∃ r, SavedAs log s.tag r ∧ s.value = Syncable.sent r
  own : ∀ s ∈ dev.list, Syncable.uploaded s.value = false →
    s.owner = i ∧ SavedAs log s.tag s.value
  running : ∀ sync, dev.running = some sync → RunningInv remote i (log i).length dev.list sync

structure Inv (w : Cloud ι R D) : Prop where
  remote : RemoteInv w.log w.remote
  device : ∀ i, DeviceInv w.log w.remote i (w.devices i)

/-- The log only grows. -/
def Extends (log log' : ι → List R) : Prop := ∀ tag r, SavedAs log tag r → SavedAs log' tag r

theorem mem_unsent {l : List (Tagged ι R)} {s : Tagged ι R} :
    s ∈ unsent l ↔ s ∈ l ∧ Syncable.uploaded s.value = false := by
  simp [unsent]

theorem unsent_append (l m : List (Tagged ι R)) : unsent (l ++ m) = unsent l ++ unsent m :=
  List.filter_append ..

theorem RemoteInv.mono {log log' : ι → List R} {remote : List (Tagged ι (Document D))}
    (h : RemoteInv log remote) (hlog : Extends log log') : RemoteInv log' remote := by
  intro d hd
  obtain ⟨r, hr, hvalue⟩ := h d hd
  exact ⟨r, hlog _ _ hr, hvalue⟩

/-- A device is not touched by documents of other devices and by a longer log. -/
theorem DeviceInv.frame {log log' : ι → List R} {remote extra : List (Tagged ι (Document D))}
    {i : ι} {dev : Local ι R D} (h : DeviceInv log remote i dev) (hlog : Extends log log')
    (hlen : (log i).length ≤ (log' i).length) (hextra : ∀ d ∈ extra, d.owner ≠ i) :
    DeviceInv log' (remote ++ extra) i dev where
  sent s hs hup := by
    obtain ⟨hmem, r, hr, hvalue⟩ := h.sent s hs hup
    exact ⟨by simp [hmem], r, hlog _ _ hr, hvalue⟩
  own s hs hup := by
    obtain ⟨howner, hr⟩ := h.own s hs hup
    exact ⟨howner, hlog _ _ hr⟩
  running sync hsync := by
    obtain ⟨hle, huploads, hearly, hindex, hstored, hremote, hanswer⟩ := h.running sync hsync
    refine ⟨hle.trans hlen, huploads, hearly, hindex, fun s hs => by simp [hstored s hs], ?_, ?_⟩
    · intro k hk
      rw [tags_append, List.mem_append] at hk
      rcases hk with hk | hk
      · exact hremote k hk
      · obtain ⟨d, hd, htag⟩ := List.mem_map.1 hk
        exact absurd (congrArg Prod.fst htag) (hextra d hd)
    · intro docs hdocs
      obtain ⟨h1, h2, h3, h4⟩ := hanswer docs hdocs
      exact ⟨h1, fun d hd => List.mem_append_left _ (h2 d hd), h3, h4⟩

theorem Inv.serial_lt {w : Cloud ι R D} (h : Inv w) {i : ι} {k : ℕ}
    (hk : (i, k) ∈ tags w.remote) : k < (w.log i).length := by
  obtain ⟨d, hd, htag⟩ := List.mem_map.1 hk
  obtain ⟨r, hr, -⟩ := h.remote d hd
  rw [htag] at hr
  exact (List.getElem?_eq_some_iff.1 hr).1

/-- The records a sync uploads are the device's own. -/
theorem DeviceInv.owner_uploads {log : ι → List R} {remote : List (Tagged ι (Document D))}
    {i : ι} {dev : Local ι R D} (h : DeviceInv log remote i dev) {sync : Running ι R D}
    (hsync : dev.running = some sync) {s : Tagged ι R} (hs : s ∈ sync.uploads) :
    s ∈ dev.list ∧ Syncable.uploaded s.value = false ∧ s.owner = i ∧ SavedAs log s.tag s.value := by
  obtain ⟨late, hunsent, -⟩ := (h.running sync hsync).uploads
  have hmem : s ∈ unsent dev.list := by rw [hunsent]; exact List.mem_append_left _ hs
  obtain ⟨hlist, hup⟩ := mem_unsent.1 hmem
  exact ⟨hlist, hup, h.own s hlist hup⟩

/-! ## Steps keep it -/

theorem Extends.refl (log : ι → List R) : Extends log log := fun _ _ => id

variable [DecidableEq ι] [DecidableEq D] {w w' : Cloud ι R D} {i : ι}

theorem Extends.update (log : ι → List R) (i : ι) (r : R) :
    Extends log (Function.update log i (log i ++ [r])) := by
  rintro ⟨j, k⟩ r' hr
  unfold SavedAs at hr ⊢
  by_cases hj : j = i
  · subst hj
    obtain ⟨hk, -⟩ := List.getElem?_eq_some_iff.1 hr
    rw [Function.update_self, List.getElem?_append_left hk]
    exact hr
  · rw [Function.update_of_ne hj]
    exact hr

omit [DecidableEq D] in
/-- A step that changes one device, and adds documents of that device only. -/
theorem Inv.of_device (h : Inv w) (i : ι) (extra : List (Tagged ι (Document D)))
    (hdevices : ∀ j, j ≠ i → w'.devices j = w.devices j)
    (hremote : w'.remote = w.remote ++ extra) (hlog : Extends w.log w'.log)
    (hlen : ∀ j, (w.log j).length ≤ (w'.log j).length)
    (hextra : ∀ d ∈ extra, d.owner = i ∧
      ∃ r, SavedAs w'.log d.tag r ∧ d.value = Syncable.toJson r)
    (hdev : DeviceInv w'.log w'.remote i (w'.devices i)) : Inv w' where
  remote d hd := by
    rw [hremote, List.mem_append] at hd
    rcases hd with hd | hd
    · exact h.remote.mono hlog d hd
    · exact (hextra d hd).2
  device j := by
    by_cases hj : j = i
    · exact hj ▸ hdev
    · rw [hdevices j hj, hremote]
      exact (h.device j).frame hlog (hlen j) fun d hd => (hextra d hd).1 ▸ Ne.symm hj

theorem Inv.step_save {r : R} (h : Inv w) (hstep : w.step (.save i r) = some w') : Inv w' := by
  obtain ⟨hr, rfl⟩ := Cloud.step_save hstep
  have hdev := h.device i
  have hlog := Extends.update w.log i r
  have hself : SavedAs (Function.update w.log i (w.log i ++ [r])) (i, (w.log i).length) r := by
    simp [SavedAs]
  refine h.of_device i [] (fun j hj => by simp [setDevice, hj]) (by simp [setDevice]) hlog
    (fun j => ?_) nofun ?_
  · by_cases hj : j = i
    · subst hj; simp
    · simp [hj]
  · simp only [setDevice, Function.update_self]
    refine ⟨?_, ?_, ?_⟩
    · intro s hs hup
      rcases List.mem_append.1 hs with hs | hs
      · obtain ⟨hmem, r', hr', hvalue⟩ := hdev.sent s hs hup
        exact ⟨hmem, r', hlog _ _ hr', hvalue⟩
      · obtain rfl := List.mem_singleton.1 hs
        simp [hr] at hup
    · intro s hs hup
      rcases List.mem_append.1 hs with hs | hs
      · obtain ⟨howner, hr'⟩ := hdev.own s hs hup
        exact ⟨howner, hlog _ _ hr'⟩
      · obtain rfl := List.mem_singleton.1 hs
        exact ⟨rfl, hself⟩
    · intro sync hsync
      obtain ⟨hle, ⟨late, hunsent, hlate⟩, hearly, hindex, hstored, hremote, hanswer⟩ :=
        hdev.running sync hsync
      refine ⟨?_, ⟨late ++ [⟨i, (w.log i).length, r⟩], ?_, ?_⟩, hearly, hindex, hstored, hremote,
        ?_⟩
      · simp; omega
      · rw [unsent_append, hunsent, List.append_assoc]
        simp [unsent, hr]
      · intro s hs
        rcases List.mem_append.1 hs with hs | hs
        · exact hlate s hs
        · obtain rfl := List.mem_singleton.1 hs
          exact hle
      · intro docs hdocs
        obtain ⟨h1, h2, h3, h4⟩ := hanswer docs hdocs
        refine ⟨h1, h2, fun s hs hup => ?_, h4⟩
        rcases List.mem_append.1 hs with hs | hs
        · exact h3 s hs hup
        · obtain rfl := List.mem_singleton.1 hs
          simp [hr] at hup

theorem Inv.step_begin (h : Inv w) (hstep : w.step (.begin i) = some w') : Inv w' := by
  obtain ⟨-, rfl⟩ := Cloud.step_begin hstep
  have hdev := h.device i
  refine h.of_device i [] (fun j hj => by simp [setDevice, hj]) (by simp [setDevice])
    (Extends.refl _) (fun _ => le_rfl) (List.forall_mem_nil _) ?_
  simp only [setDevice, Function.update_self]
  refine ⟨hdev.sent, hdev.own, ?_⟩
  rintro sync hsync
  obtain rfl := Option.some.inj hsync
  refine ⟨le_rfl, ⟨[], by simp, List.forall_mem_nil _⟩, ?_, Nat.zero_le _, List.forall_mem_nil _,
    fun k hk => h.serial_lt hk, ?_⟩
  · intro s hs
    obtain ⟨hlist, hup⟩ := mem_unsent.1 hs
    obtain ⟨howner, hr⟩ := hdev.own s hlist hup
    rw [← howner]
    exact (List.getElem?_eq_some_iff.1 hr).1
  · intro docs hdocs
    cases hdocs

theorem Inv.step_add (h : Inv w) (hstep : w.step (.add i) = some w') : Inv w' := by
  obtain ⟨sync, s, hsync, hs, rfl⟩ := Cloud.step_add hstep
  have hdev := h.device i
  have hmem := List.mem_of_getElem? hs
  obtain ⟨-, -, howner, hsaved⟩ := hdev.owner_uploads hsync hmem
  obtain ⟨hle, huploads, hearly, hindex, hstored, hremote, hanswer⟩ := hdev.running sync hsync
  have hlt := (List.getElem?_eq_some_iff.1 hs).1
  refine h.of_device i [s.map Syncable.toJson] (fun j hj => by simp [setDevice, hj]) rfl
    (Extends.refl _) (fun _ => le_rfl) ?_ ?_
  · intro d hd
    obtain rfl := List.mem_singleton.1 hd
    exact ⟨howner, s.value, hsaved, rfl⟩
  · simp only [setDevice, Function.update_self]
    refine ⟨fun t ht hup => ?_, hdev.own, ?_⟩
    · obtain ⟨hmem, hr⟩ := hdev.sent t ht hup
      exact ⟨by simp [hmem], hr⟩
    · rintro sync' hsync'
      obtain rfl := Option.some.inj hsync'
      refine ⟨hle, huploads, hearly, hlt, ?_, ?_, ?_⟩
      · intro t ht
        rw [List.take_add_one, hs, List.mem_append] at ht
        rcases ht with ht | ht
        · simp [hstored t ht]
        · obtain rfl := List.mem_singleton.1 ht
          simp [tags]
      · intro k hk
        rw [tags_append, List.mem_append] at hk
        rcases hk with hk | hk
        · exact hremote k hk
        · have hk' : (i, k) = s.tag := List.mem_singleton.1 hk
          have hserial : k = s.serial := congrArg Prod.snd hk'
          exact hserial ▸ hearly s hmem
      · intro docs hdocs
        -- after the get the loop has ended, so no add can follow
        have := (hanswer docs hdocs).1
        omega

theorem Inv.step_get {docs : List (Tagged ι (Document D))} (h : Inv w)
    (hstep : w.step (.get i docs) = some w') : Inv w' := by
  obtain ⟨sync, hsync, hend, hperm, -, rfl⟩ := Cloud.step_get hstep
  have hdev := h.device i
  obtain ⟨hle, huploads, hearly, hindex, hstored, hremote, hanswer⟩ := hdev.running sync hsync
  have htags : ∀ t, t ∈ tags w.remote → t ∈ tags docs := fun t ht =>
    (hperm.map Tagged.tag).mem_iff.2 ht
  refine h.of_device i [] (fun j hj => by simp [setDevice, hj]) (by simp [setDevice])
    (Extends.refl _) (fun _ => le_rfl) nofun ?_
  simp only [setDevice, Function.update_self]
  refine ⟨hdev.sent, hdev.own, ?_⟩
  rintro sync' hsync'
  obtain rfl := Option.some.inj hsync'
  refine ⟨hle, huploads, hearly, hindex, hstored, hremote, ?_⟩
  rintro docs' hdocs'
  obtain rfl := Option.some.inj hdocs'
  refine ⟨hend, fun d hd => hperm.mem_iff.1 hd, fun s hs hup => htags _ (hdev.sent s hs hup).1,
    fun s hs => htags _ (hstored s ?_)⟩
  rwa [hend, List.take_length]

omit [DecidableEq ι] [DecidableEq D] in
/-- Documents of the collection are read back as the records saved, with their flag set. -/
theorem Inv.sent_of_decode (h : Inv w) {docs : List (Tagged ι (Document D))}
    (hdocs : ∀ d ∈ docs, d ∈ w.remote) {now : Timestamp} {list : List (Tagged ι R)}
    (hlist : docs.mapM (decode now) = some list) {s : Tagged ι R} (hs : s ∈ list) :
    s.tag ∈ tags w.remote ∧ ∃ r, SavedAs w.log s.tag r ∧ s.value = Syncable.sent r := by
  obtain ⟨d, hd, hdecode⟩ := mem_of_decode hlist hs
  obtain ⟨r, hr, hvalue⟩ := h.remote d (hdocs d hd)
  rw [tag_of_decode hdecode]
  refine ⟨mem_tags (hdocs d hd), r, hr, ?_⟩
  rw [decode, hvalue, Syncable.fromJson_toJson] at hdecode
  rw [← Option.some.inj hdecode]
  rfl

theorem Inv.step_replace {now : Timestamp} (h : Inv w)
    (hstep : w.step (.replace i now) = some w') : Inv w' := by
  obtain ⟨sync, docs, list, hsync, hdocs, hlist, rfl⟩ := Cloud.step_replace hstep
  have hdev := h.device i
  obtain ⟨-, hmem, -, -⟩ := (hdev.running sync hsync).answer docs hdocs
  have hsent : ∀ s ∈ list, s.tag ∈ tags w.remote ∧
      ∃ r, SavedAs w.log s.tag r ∧ s.value = Syncable.sent r :=
    fun s hs => h.sent_of_decode hmem hlist hs
  refine h.of_device i [] (fun j hj => by simp [setDevice, hj]) (by simp [setDevice])
    (Extends.refl _) (fun _ => le_rfl) (List.forall_mem_nil _) ?_
  simp only [setDevice, Function.update_self]
  refine ⟨fun s hs _ => hsent s hs, ?_, ?_⟩
  · intro s hs hup
    obtain ⟨-, r, -, hvalue⟩ := hsent s hs
    rw [hvalue, Syncable.uploaded_sent] at hup
    cases hup
  · intro sync' hsync'
    cases hsync'

theorem Inv.step_fail (h : Inv w) (hstep : w.step (.fail i) = some w') : Inv w' := by
  obtain ⟨sync, -, rfl⟩ := Cloud.step_fail hstep
  have hdev := h.device i
  refine h.of_device i [] (fun j hj => by simp [setDevice, hj]) (by simp [setDevice])
    (Extends.refl _) (fun _ => le_rfl) (List.forall_mem_nil _) ?_
  simp only [setDevice, Function.update_self]
  refine ⟨hdev.sent, hdev.own, ?_⟩
  intro sync' hsync'
  cases hsync'

theorem Inv.step {a : SyncAction ι R D} (h : Inv w) (hstep : w.step a = some w') : Inv w' := by
  cases a with
  | save i r => exact h.step_save hstep
  | «begin» i => exact h.step_begin hstep
  | add i => exact h.step_add hstep
  | get i docs => exact h.step_get hstep
  | replace i now => exact h.step_replace hstep
  | fail i => exact h.step_fail hstep

omit [DecidableEq ι] [DecidableEq D] in
theorem Inv.start : Inv (start : Cloud ι R D) := ⟨nofun, fun _ => ⟨nofun, nofun, nofun⟩⟩

end Invariant

end Cloud

end StudyStats
