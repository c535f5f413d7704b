import StudyStats.CarefulUse

/-!
# The pages refine the ledger

A careful user does nothing but upload, edit and fill in profiles, each at once and on the records
as they then are.

## Main results

* `Navigation.Good.step` — a tap is no action of the ledger, or one.
* `navigation_refines` — the disk is as after uploads, edits and profile changes.
-/

namespace StudyStats

open Dart StatFunction

variable {D C : Type} [Floating D]

/-! ## Edits and the record they replace -/

theorem storeUpdates_congr {d d' : Device D C} (hauth : d.auth = d'.auth) (l : List (Update D C))
    (newest : Update D C) (accepted : Bool) :
    storeUpdates l newest accepted d = storeUpdates l newest accepted d' := by
  have hreplaced : HiveUpdate.replaceUpdateList l.reverse d =
      HiveUpdate.replaceUpdateList l.reverse d' := by
    simp only [HiveUpdate.replaceUpdateList, hauth]
  simp only [storeUpdates, hreplaced]

/-- An edit that comes to its end does not depend on the record it replaces. -/
theorem editUpdates_congr {d d' e : Device D C} {older newer : List (Update D C)}
    {r r' update : Update D C} {clock : ℕ → Timestamp} {accepted : Bool}
    (hauth : d.auth = d'.auth) (hd : HiveUpdate.getUpdateList d = older ++ r :: newer)
    (hd' : HiveUpdate.getUpdateList d' = older ++ r' :: newer)
    (hfinished : editUpdates update newer.length clock accepted d = .finished e) :
    editUpdates update newer.length clock accepted d' = .finished e := by
  rw [editUpdates_eq update clock accepted hd] at hfinished
  rw [editUpdates_eq update clock accepted hd']
  unfold storeRechained at hfinished ⊢
  cases hrechain : rechain clock update newer with
  | none => simp [hrechain] at hfinished
  | some newer' =>
    rw [hrechain] at hfinished
    exact (storeUpdates_congr hauth.symm _ _ _).trans hfinished

/-- The list and the label of a record, which an edit leaves as they were. -/
def Update.tag (r : Update D C) : C × String × String := (r.courseData, r.label)

theorem tag_rechain {clock : ℕ → Timestamp} {past : Update D C} {newer newer' : List (Update D C)}
    (h : rechain clock past newer = some newer') :
    newer'.map Update.tag = newer.map Update.tag := by
  induction newer generalizing past newer' with
  | nil => cases h; rfl
  | cons r rs ih =>
    obtain ⟨r', rs', hr', hrs', rfl⟩ := rechain_cons h
    obtain ⟨cgpa, rfl⟩ := replaceUpdate_eq hr'
    rw [List.map_cons, List.map_cons, ih hrs']
    rfl

theorem tags_editUpdates {d e : Device D C} {older newer : List (Update D C)}
    {r update : Update D C} {clock : ℕ → Timestamp} {accepted : Bool}
    (hd : HiveUpdate.getUpdateList d = older ++ r :: newer) (htag : update.tag = r.tag)
    (hfinished : editUpdates update newer.length clock accepted d = .finished e) :
    (HiveUpdate.getUpdateList e).map Update.tag =
      (HiveUpdate.getUpdateList d).map Update.tag := by
  rw [editUpdates_eq update clock accepted hd] at hfinished
  unfold storeRechained at hfinished
  cases hrechain : rechain clock update newer with
  | none => simp [hrechain] at hfinished
  | some newer' =>
    rw [hrechain] at hfinished
    dsimp only at hfinished
    have hlist := getUpdateList_storeUpdates (older ++ update :: newer').reverse
      ((update :: newer').getLast (List.cons_ne_nil _ _)) accepted d
    rw [hfinished, Outcome.state, List.reverse_reverse] at hlist
    rw [hlist, hd, List.map_append, List.map_append, List.map_cons, List.map_cons, htag,
      tag_rechain hrechain]

/-- The edit of a screen that goes home has come to its end. -/
theorem UpdateScreen.finished_of_goesHome {contents : List Course} {index : ℤ} {now : Timestamp}
    {clock : ℕ → Timestamp} {accepted : Bool} {screen : UpdateScreen C} {d : Device D C}
    (h : screen.goesHome contents index now clock accepted d = true) :
    ∃ update, screen.newUpdate contents now = some update ∧
      editUpdates update index clock accepted d =
        .finished (screen.edit contents index now clock accepted d) := by
  unfold goesHome at h
  split at h
  · cases h
  · next update hupdate =>
    refine ⟨update, hupdate, ?_⟩
    split at h
    · next e hedit => simp only [edit, hupdate, hedit, Outcome.state]
    · cases h

/-- An edit whose write is accepted goes home or leaves the device alone. -/
theorem goesHome_or_edit_eq {d : Device D C} {user : User D} (huser : d.auth.user = some user)
    (courses : List Course) (index : ℕ) (now : Timestamp) (clock : ℕ → Timestamp)
    (screen : UpdateScreen C) :
    screen.goesHome courses index now clock true d = true ∨
      screen.edit courses index now clock true d = d := by
  unfold UpdateScreen.goesHome UpdateScreen.edit
  cases screen.newUpdate (D := D) courses now with
  | none => exact .inr rfl
  | some update =>
    by_cases hindex : index < (HiveUpdate.getUpdateList d).length
    · obtain ⟨older, r, newer, hlist, rfl⟩ := exists_split hindex
      simp only [editUpdates_eq update clock true hlist, storeRechained]
      cases rechain clock update newer with
      | none => exact .inr rfl
      | some newer' =>
        left
        simp [storeUpdates, AuthProvider.updateUserCGPA, HiveUpdate.replaceUpdateList,
          huser, Floating.parse_toString, hlist]
    · exact .inr (state_editUpdates_of_length_le (by omega))

namespace Navigation

variable {w w' : Navigation D} {a : Tap D}

/-! ## Steps -/

theorem onDisk_put (w : Navigation D) :
    w.put.onDisk = w.device.map (fun _ => w.profile.courseData) w.lists :=
  onDisk_of_contents (w := w.put) rfl

/-- The tiles of a fresh screen are of no record, and those of a card of the record it is over. -/
theorem Good.tile (h : w.Good) {us : List Sheet} (hledger : Ledger w.profile us w.onDisk)
    {e : CourseEdit} (hcareful : w.Careful (.tile e)) (hstep : w.step (.tile e) = some w') :
    w'.Good ∧ w'.world = w.world := by
  obtain ⟨page, rest, screen, courses, scores, hpages, hscreen, -, rfl⟩ := step_tile hstep
  rcases h.current with hresult | ⟨hhome, hcurrent⟩
  · rw [hpages] at hresult
    cases hresult
    cases hscreen
  have hpage : w.PageCurrent page := hcurrent page (hpages ▸ List.mem_cons_self)
  refine ⟨⟨h.sound.congr rfl rfl rfl le_rfl, ?_, .inr ⟨hhome, ?_⟩⟩, rfl⟩
  · intro i r c hr hc
    cases page with
    | update s =>
      cases hscreen
      have hfinal := hcareful (.update screen) (by rw [hpages]; rfl) rfl
      have hne := h.sound.ne_of_fresh hledger hfinal hpage (List.mem_of_getElem? hr)
      rcases h.kept i r c hr hc with hsame | ⟨s, hs, -⟩
      · exact .inl (by rw [← hsame]; exact Function.update_of_ne hne _ _)
      · rw [hpages] at hs
        cases hs
    | pastUpdate index s =>
      cases hscreen
      by_cases hr' : screen.courseData = r.courseData
      · exact .inr ⟨{ screen with scores }, rfl, hr'⟩
      · rcases h.kept i r c hr hc with hsame | ⟨s, hs, hcard⟩
        · exact .inl (by rw [← hsame]; exact Function.update_of_ne (Ne.symm hr') _ _)
        · rw [hpages] at hs
          cases hs
          exact absurd hcard hr'
    | _ => cases hscreen
  · rw [hpages, List.forall_mem_cons] at hcurrent
    rw [List.forall_mem_cons]
    refine ⟨?_, fun page' hpage' => pageCurrent_congr (w := w) rfl rfl le_rfl
      (hcurrent.2 page' hpage')⟩
    cases page with
    | update s => exact ⟨hpage.time_lt, hpage.isOf, hpage.origin, hpage.opened⟩
    | pastUpdate index s =>
      obtain ⟨r, scores', hr, rfl⟩ := hpage
      exact ⟨r, scores, hr, rfl⟩
    | _ => cases hscreen

/-- Records with the lists and labels of other ones are as sound. -/
theorem Sound.of_tags (h : w.Sound) {d : Device D ListRef}
    (hdata : d.auth.courseData = w.device.auth.courseData)
    (htags : (HiveUpdate.getUpdateList d).map Update.tag =
      (HiveUpdate.getUpdateList w.device).map Update.tag) :
    ({ w with device := d } : Navigation D).put.Sound where
  catalogue := by
    obtain ⟨n, hn, hrefs⟩ := h.catalogue
    exact ⟨n, hn, hdata.trans hrefs⟩
  own := by
    intro r hr
    have hmem : r.tag ∈ (HiveUpdate.getUpdateList w.device).map Update.tag :=
      htags ▸ List.mem_map_of_mem hr
    obtain ⟨r', hr', hsame⟩ := List.mem_map.1 hmem
    obtain ⟨hlist, hlabel⟩ := Prod.mk.inj hsame
    obtain ⟨hlevel, hsemester⟩ := Prod.mk.inj hlabel
    rw [← hlist, ← hlevel, ← hsemester]
    exact h.own r' hr'
  nodup := by
    have hfst : ∀ l : List (Update D ListRef),
        l.map Update.courseData = (l.map Update.tag).map Prod.fst := fun l => by
      rw [List.map_map]
      rfl
    show ((HiveUpdate.getUpdateList d).map Update.courseData).Nodup
    rw [hfst, htags, ← hfst]
    exact h.nodup
  length_eq := length_contents _

theorem Sound.upload (h : w.Sound) {us : List Sheet} (hledger : Ledger w.profile us w.onDisk)
    (hfinal : ¬w.FinalRecorded) {screen : UpdateScreen ListRef} (hfresh : w.Fresh screen)
    (hgrades : screen.grades ≠ []) (contents : List Course) (now : Timestamp) :
    ({ w with device := screen.upload contents now w.device } : Navigation D).put.Sound := by
  have hdata : (screen.upload contents now w.device).auth.courseData =
      w.device.auth.courseData := UpdateScreen.courseData_upload _ _ _ _
  rcases UpdateScreen.getUpdateList_upload contents now screen w.device with
    hsame | ⟨result, gpa, cgpa, -, hadded⟩
  · exact h.of_tags hdata (by rw [hsame])
  refine ⟨?_, ?_, ?_, length_contents _⟩
  · obtain ⟨n, hn, hrefs⟩ := h.catalogue
    exact ⟨n, hn, hdata.trans hrefs⟩
  · show ∀ r ∈ HiveUpdate.getUpdateList (screen.upload contents now w.device), _
    rw [hadded, List.forall_mem_append]
    refine ⟨h.own, List.forall_mem_singleton.2 ⟨hfresh.time_lt, fun horigin => ?_, hfresh.isOf⟩⟩
    rcases hfresh.origin with ⟨level, digit, hcatalogue⟩ | ⟨-, hnone⟩
    · have horigin' : screen.courseData.origin = .screen := horigin
      rw [hcatalogue] at horigin'
      cases horigin'
    · exact hgrades hnone
  · show ((HiveUpdate.getUpdateList (screen.upload contents now w.device)).map
      Update.courseData).Nodup
    rw [hadded, List.map_append, List.nodup_append]
    refine ⟨h.nodup, List.nodup_singleton _, fun c hc c' hc' => ?_⟩
    obtain ⟨r, hr, rfl⟩ := List.mem_map.1 hc
    rw [List.mem_singleton.1 hc']
    exact h.ne_of_fresh hledger hfinal hfresh hr

theorem Sound.year_eq (h : w.Sound) (data : CourseData ListRef)
    (hdata : w.device.auth.courseData = some data) : w.profile.courseData.year = data.year := by
  obtain ⟨n, -, hrefs⟩ := h.catalogue
  rw [hrefs] at hdata
  cases hdata
  rfl

/-- A fresh screen that is filled in is the one that would be filled in now. -/
theorem Fresh.fill {screen : UpdateScreen ListRef} {sheet : Sheet} (h : w.Fresh screen)
    (hcourses : sheet.courses = w.lists screen.courseData) (hgrades : sheet.grades = screen.scores)
    (hoffered : ∀ g ∈ screen.scores, g ∈ screen.grades) :
    (UpdateScreen.init id [] w.profile.gradingSystem w.onDisk.auth).bind
      (UpdateScreen.fill sheet) = some (screen.map w.lists) := by
  obtain ⟨fresh, hinit, hheader⟩ := h.opened
  obtain ⟨courseData, semester, level, grades, scores, system, currentGpa⟩ := fresh
  obtain ⟨rfl, rfl, rfl, rfl, rfl⟩ : semester = screen.semester ∧ level = screen.level ∧
      grades = screen.grades ∧ system = screen.system ∧ currentGpa = screen.currentGpa := by
    simpa [UpdateScreen.header, UpdateScreen.map] using hheader
  rw [hinit, Option.bind_some, UpdateScreen.fill, if_pos (hgrades ▸ hoffered), hcourses, hgrades]
  rfl

/-- A press on a fresh screen is an upload of the sheet it is left with. -/
theorem Good.upload (h : w.Good) {us : List Sheet} (hledger : Ledger w.profile us w.onDisk)
    {now : Timestamp} {clock : ℕ → Timestamp} {accepted : Bool} {screen : UpdateScreen ListRef}
    {rest : List (Page D)} (hpages : w.pages = .update screen :: rest)
    (hcareful : w.CarefulPress accepted (.update screen))
    (hstep : w.step (.press now clock accepted) = some w') :
    w'.Good ∧ (w'.world = w.world ∨ ∃ b, w.world.step b = some w'.world) := by
  have hfresh : w.Fresh screen := h.current.page hpages (by simp)
  simp only [step, hpages, Option.some.injEq] at hstep
  subst hstep
  split_ifs with hresult
  · obtain ⟨hfinal, sheet, hcourses, hgrades, hoffered⟩ := hcareful hresult
    have hne : screen.grades ≠ [] := by
      obtain ⟨g, hg⟩ := List.exists_mem_of_ne_nil _ sheet.grades_ne_nil
      exact List.ne_nil_of_mem (hoffered g (hgrades ▸ hg))
    have hsound := h.sound.upload hledger hfinal hfresh hne (w.lists screen.courseData) now
    refine ⟨⟨hsound.congr rfl rfl rfl le_rfl, kept_of_contents rfl, .inl rfl⟩,
      .inr ⟨.upload sheet now, ?_⟩⟩
    have hnotFinal : ¬w.world.FinalRecorded := h.sound.finalRecorded_iff.not.2 hfinal
    have hdisk : w.onDisk = w.device.map (fun _ => w.profile.courseData) w.lists :=
      onDisk_of_contents (h.kept.contents_eq h.sound (by rw [hpages]; rfl))
    have hupload : UpdateScreen.uploadResult w.profile.gradingSystem sheet now w.onDisk =
        some ((screen.map w.lists).upload sheet.courses now w.onDisk) := by
      have hfill := hfresh.fill hcourses hgrades hoffered
      simp only [UpdateScreen.uploadResult, Option.bind_eq_bind, Option.pure_def,
        ← Option.bind_assoc, hfill, Option.bind_some]
    have hmap := UpdateScreen.upload_map (g := w.lists) h.sound.year_eq sheet.courses now screen
    rw [World.step, if_neg hnotFinal]
    refine (congrArg (Option.map _) hupload).trans ?_
    rw [hdisk, hmap, hcourses]
    exact congrArg (fun d => some (World.mk w.profile d)) (onDisk_put
      { w with device := screen.upload (w.lists screen.courseData) now w.device }).symm
  · rcases upload_cases (w.lists screen.courseData) now screen w.device with
      ⟨-, hsame⟩ | ⟨-, -, hsome, -⟩
    · rw [hsame, ← hpages]
      exact ⟨h, .inl rfl⟩
    · exact absurd hsome hresult

/-- The records with that of the card, and what is on disk of them. -/
theorem Good.split (h : w.Good) {index : ℕ} {screen : UpdateScreen ListRef} {rest : List (Page D)}
    (hpages : w.pages = .pastUpdate index screen :: rest) :
    ∃ older r newer scores courses, HiveUpdate.getUpdateList w.device = older ++ r :: newer ∧
      newer.length = index ∧
      screen = { UpdateScreen.historyInit w.profile.gradingSystem r with scores } ∧
      HiveUpdate.getUpdateList w.onDisk = older.map (Update.map w.lists) ++
        (r.map fun _ => courses) :: newer.map (Update.map w.lists) := by
  obtain ⟨r, scores, hr, hscreen⟩ := h.current.page hpages (by simp)
  obtain ⟨older, newer, hlist, hindex⟩ := exists_split_at hr
  have hlength := h.sound.length_eq
  rw [hlist, List.length_append, List.length_cons] at hlength
  have hlt : newer.length < w.stored.length := by omega
  obtain ⟨before, courses, after, hstored, hafter⟩ := exists_split hlt
  rw [hstored, List.length_append, List.length_cons] at hlength
  have hbefore : before.length = older.length := by omega
  refine ⟨older, r, newer, scores, courses, hlist, hindex, hscreen, ?_⟩
  have hnodup := h.sound.nodup
  rw [hlist, List.map_append, List.map_cons, List.nodup_append, List.nodup_cons] at hnodup
  -- the other records have other lists
  have hkept : ∀ (i : ℕ) r' c, (HiveUpdate.getUpdateList w.device)[i]? = some r' →
      w.stored[i]? = some c → r'.courseData ≠ r.courseData → w.lists r'.courseData = c := by
    intro i r' c hr' hc hne
    rcases h.kept i r' c hr' hc with hsame | ⟨s, hs, hcard⟩
    · exact hsame
    · rw [hpages] at hs
      cases hs
      rw [hscreen] at hcard
      exact absurd hcard.symm hne
  rw [getUpdateList_onDisk, hlist, hstored, List.zipWith_append hbefore.symm,
    List.zipWith_cons_cons]
  congr 1
  · refine zipWith_eq_map hbefore fun i r' c hr' hc => ?_
    have hi := (List.getElem?_eq_some_iff.1 hr').1
    refine hkept i r' c ?_ ?_ (hnodup.2.2 _ (List.mem_map_of_mem (List.mem_of_getElem? hr')) _
      List.mem_cons_self)
    · rw [hlist, List.getElem?_append_left hi, hr']
    · rw [hstored, List.getElem?_append_left (hbefore ▸ hi), hc]
  · congr 1
    refine zipWith_eq_map hafter fun i r' c hr' hc => ?_
    refine hkept (older.length + 1 + i) r' c ?_ ?_ fun hsame => hnodup.2.1.1
      (hsame ▸ List.mem_map_of_mem (List.mem_of_getElem? hr'))
    · rw [hlist, List.getElem?_append_right (by omega)]
      rw [show older.length + 1 + i - older.length = i + 1 by omega, List.getElem?_cons_succ, hr']
    · rw [hstored, List.getElem?_append_right (by omega)]
      rw [show older.length + 1 + i - before.length = i + 1 by omega, List.getElem?_cons_succ, hc]

/-- A press over a card is an edit with the sheet the screen is left with. -/
theorem Good.edit (h : w.Good) {user : User D} (huser : w.device.auth.user = some user)
    {now : Timestamp} {clock : ℕ → Timestamp} {index : ℕ} {screen : UpdateScreen ListRef}
    {rest : List (Page D)} (hpages : w.pages = .pastUpdate index screen :: rest)
    (hcareful : w.CarefulPress true (.pastUpdate index screen))
    (hstep : w.step (.press now clock true) = some w') :
    w'.Good ∧ (w'.world = w.world ∨ ∃ b, w.world.step b = some w'.world) := by
  have hcases := goesHome_or_edit_eq huser (w.lists screen.courseData) index now clock screen
  simp only [step, hpages, Option.some.injEq] at hstep
  subst hstep
  by_cases hgoes : screen.goesHome (w.lists screen.courseData) index now clock true w.device = true
  · simp only [hgoes, if_true]
    obtain ⟨update, hupdate, hfinished⟩ := UpdateScreen.finished_of_goesHome hgoes
    obtain ⟨result, gpa, cgpa, hcompute, hmade⟩ := UpdateScreen.newUpdate_eq hupdate
    obtain ⟨sheet, hcourses, hgrades, hoffered⟩ := hcareful.2 (by rw [hcompute]; rfl)
    obtain ⟨older, r, newer, scores, courses, hlist, rfl, hscreen, hdisk⟩ := h.split hpages
    have htags := tags_editUpdates hlist (by rw [hmade, hscreen]; rfl) hfinished
    have hdata := courseData_editUpdates update newer.length clock true w.device
    rw [hfinished, Outcome.state] at hdata
    refine ⟨⟨(h.sound.of_tags hdata htags).congr rfl rfl rfl le_rfl, kept_of_contents rfl,
      current_mainScreen _⟩, .inr ⟨.edit ⟨newer.length, sheet, now, clock, true⟩, ?_⟩⟩
    have hrecord : (HiveUpdate.getUpdateList w.onDisk).reverse[newer.length]? =
        some (r.map fun _ => courses) := by
      simp [hdisk]
    have hfill : (UpdateScreen.historyInit w.profile.gradingSystem (r.map fun _ => courses)).fill
        sheet = some (screen.map w.lists) := by
      rw [UpdateScreen.fill, if_pos (by rw [hgrades]; rw [hscreen] at hoffered ⊢; exact hoffered),
        hcourses, hgrades, hscreen]
      rfl
    have hnew : (screen.map w.lists).newUpdate sheet.courses now = some (update.map w.lists) := by
      rw [UpdateScreen.newUpdate_map, hcourses, hupdate, Option.map_some]
    have hmapped := editUpdates_map (f := fun _ => w.profile.courseData) (g := w.lists) update
      newer.length clock true w.device
    rw [hfinished, ← List.length_map (Update.map w.lists)] at hmapped
    -- on disk the record of the card may have other courses, and it is replaced
    have hread : HiveUpdate.getUpdateList
        (w.device.map (fun _ => w.profile.courseData) w.lists) =
        older.map (Update.map w.lists) ++ r.map w.lists :: newer.map (Update.map w.lists) := by
      rw [getUpdateList_map, hlist, List.map_append, List.map_cons]
    have hauth : (w.device.map (fun _ => w.profile.courseData) w.lists).auth = w.onDisk.auth := rfl
    have hondisk := editUpdates_congr hauth hread hdisk hmapped
    rw [List.length_map] at hondisk
    have hedit : UpdateScreen.editRecord w.profile.gradingSystem newer.length sheet now clock true
        w.onDisk = some ((screen.edit (w.lists screen.courseData) newer.length now clock true
          w.device).map (fun _ => w.profile.courseData) w.lists) := by
      simp only [UpdateScreen.editRecord, hrecord, hfill, Option.bind_eq_bind, Option.bind_some,
        Option.pure_def, UpdateScreen.edit, hnew, hondisk, Outcome.state]
    exact (congrArg (Option.map _) hedit).trans
      (congrArg (fun d => some (World.mk w.profile d)) (onDisk_put { w with
        device := screen.edit (w.lists screen.courseData) newer.length now clock true
          w.device }).symm)
  · simp only [hgoes, hcases.resolve_left hgoes, ← hpages]
    exact ⟨h, .inl rfl⟩

/-- From a result one only comes home. -/
theorem step_updateResult (hpages : w.pages.head? = some .updateResult) (hback : a ≠ .back)
    (hstep : w.step a = some w') : w' = w.mainScreen ∨ w' = w.load.mainScreen := by
  obtain ⟨rest, hrest⟩ : ∃ rest, w.pages = .updateResult :: rest :=
    List.head?_eq_some_iff.1 hpages
  cases a with
  | back => exact absurd rfl hback
  | restart => exact .inr (Option.some.inj hstep).symm
  | goBackHome =>
    rw [step, hrest] at hstep
    exact .inl (Option.some.inj hstep).symm
  | _ => simp [step, shown, hrest, Page.screen] at hstep

theorem Good.mainScreen (h : w.Good) (hstored : w.contents = w.stored) : w.mainScreen.Good :=
  ⟨h.sound.congr rfl rfl rfl le_rfl, kept_of_contents hstored, current_mainScreen w⟩

theorem Good.restart (h : w.Good) : w.load.mainScreen.Good :=
  ⟨h.sound.load.congr rfl rfl rfl le_rfl, kept_of_contents (contents_load h.sound),
    current_mainScreen _⟩

/-- A page that shows the device as it is, over one that is not a card. -/
theorem Good.push (h : w.Good) (hstored : w.contents = w.stored) {page : Page D}
    (hhome : ∀ updates ∈ w.updates2, updates = w.cards)
    (hpages : ∀ page ∈ w.pages, w.PageCurrent page) (hpage : w.PageCurrent page) :
    (w.push page).Good :=
  ⟨h.sound.congr rfl rfl rfl le_rfl, kept_of_contents hstored, current_push hhome hpages hpage⟩

theorem lists_make {contents : ListOrigin → List Course} {c : ListRef} (h : c.time < w.time) :
    (w.make contents).lists c = w.lists c :=
  if_neg h.ne

theorem Good.make (h : w.Good) (hstored : w.contents = w.stored)
    (hhome : ∀ updates ∈ w.updates2, updates = w.cards)
    (hpages : ∀ page ∈ w.pages, w.PageCurrent page) (contents : ListOrigin → List Course) :
    (w.make contents).Good ∧ (w.make contents).contents = (w.make contents).stored ∧
      ∀ page ∈ (w.make contents).pages, (w.make contents).PageCurrent page := by
  have hsame : (w.make contents).contents = w.contents :=
    contents_congr rfl fun r hr => lists_make (h.sound.own r hr).1
  have hkept : (w.make contents).contents = (w.make contents).stored := hsame.trans hstored
  have hcurrent : ∀ page ∈ (w.make contents).pages, (w.make contents).PageCurrent page :=
    fun page hpage => pageCurrent_congr (w := w) rfl rfl (Nat.le_succ _) (hpages page hpage)
  exact ⟨⟨h.sound.congr rfl rfl rfl (Nat.le_succ _), kept_of_contents hkept,
    .inr ⟨hhome, hcurrent⟩⟩, hkept, hcurrent⟩

/-- A screen that is opened is one of the user's semester. -/
theorem Sound.fresh (h : w.Sound) {contents : ListRef → List Course} {screen : UpdateScreen ListRef}
    (hinit : UpdateScreen.init contents ⟨w.time, .screen⟩ w.profile.gradingSystem w.device.auth =
      some screen) (made : ListOrigin → List Course) : (w.make made).Fresh screen := by
  obtain ⟨n, hn, hdata⟩ := h.catalogue
  have hopened : ∃ fresh, UpdateScreen.init id [] w.profile.gradingSystem w.onDisk.auth =
      some fresh ∧ fresh.header = screen.header := by
    have huser : w.onDisk.auth.user = w.device.auth.user := rfl
    refine UpdateScreen.init_header huser (fun level digit => ?_) hinit
    simp [onDisk, hdata, CourseData.refs]
  rcases UpdateScreen.init_list hinit with ⟨hlist, hgrades⟩ | ⟨data, digit, hrefs, hdigit, hlist⟩
  · refine ⟨?_, fun _ _ horigin => ?_, .inr ⟨by rw [hlist], hgrades⟩, hopened⟩
    · rw [hlist]
      exact Nat.lt_succ_self _
    · rw [hlist] at horigin
      cases horigin
  · rw [hdata, Option.some.injEq] at hrefs
    subst hrefs
    obtain ⟨courses, -, href⟩ := Option.map_eq_some_iff.1 hlist
    refine ⟨?_, fun l d horigin => ?_, .inl ⟨_, _, by rw [← href]⟩, hopened⟩
    · rw [← href]
      exact Nat.lt_succ_of_lt hn
    · rw [← href] at horigin
      cases horigin
      exact ⟨rfl, hdigit⟩

theorem Good.pressTile (h : w.Good) (hhome : ∀ updates ∈ w.updates2, updates = w.cards)
    (hpages : ∀ page ∈ w.pages, w.PageCurrent page) (hstep : w.step .pressTile = some w') :
    w'.Good ∧ w'.world = w.world := by
  simp only [step] at hstep
  split at hstep
  · next hdashboard =>
    split_ifs at hstep
    · obtain ⟨screen, hinit, rfl⟩ := Option.map_eq_some_iff.1 hstep
      have hstored := h.kept.contents_eq h.sound (by rw [hdashboard]; rfl)
      obtain ⟨hmade, hstored', hpages'⟩ := h.make hstored hhome hpages fun _ => []
      exact ⟨hmade.push hstored' hhome hpages' (h.sound.fresh hinit _), rfl⟩
    · cases hstep
      exact ⟨h, rfl⟩
  · cases hstep

theorem Good.step {us : List Sheet} (h : w.Good) (hledger : Ledger w.profile us w.onDisk)
    (hcareful : w.Careful a) (hstep : w.step a = some w') :
    w'.Good ∧ (w'.world = w.world ∨ ∃ b, w.world.step b = some w'.world) := by
  rcases h.current with hresult | ⟨hhome, hcurrent⟩
  · have hback : a ≠ .back := by
      rintro rfl
      exact Bool.noConfusion (hcareful .updateResult hresult).1
    have hstored := h.kept.contents_eq h.sound (by rw [hresult]; rfl)
    rcases step_updateResult hresult hback hstep with rfl | rfl
    · exact ⟨h.mainScreen hstored, .inl rfl⟩
    · exact ⟨h.restart, .inl (world_load h.sound)⟩
  have hcontents : w.pages.head?.bind Page.cardScreen = none → w.contents = w.stored :=
    h.kept.contents_eq h.sound
  cases a with
  | selectTab home =>
    simp only [step] at hstep
    split at hstep
    · next hpages =>
      cases hstep
      refine ⟨⟨h.sound.congr rfl rfl rfl le_rfl, kept_of_contents (hcontents (by rw [hpages]; rfl)),
        .inr ⟨?_, by rw [hpages]; exact List.forall_mem_nil _⟩⟩, .inl rfl⟩
      intro updates hupdates
      cases home with
      | false => cases hupdates
      | true =>
        cases hcards : w.updates2 with
        | none => simpa [hcards, cards] using hupdates.symm
        | some updates2 =>
          obtain rfl : updates2 = w.cards := hhome updates2 hcards
          simpa [hcards, cards] using hupdates.symm
    · cases hstep
  | tapCard i =>
    obtain ⟨update, hshown, rfl⟩ := Option.map_eq_some_iff.1 hstep
    have hcard := getElem?_cards_of_shown hhome hcurrent hshown
    have hnone : w.pages.head?.bind Page.cardScreen = none := by
      unfold shown at hshown
      split at hshown
      · next hpages => rw [hpages]; rfl
      · next hpages => rw [hpages]; rfl
      · cases hshown
    exact ⟨h.push (hcontents hnone) hhome hcurrent ⟨update, _, hcard, rfl⟩, .inl rfl⟩
  | viewAll =>
    simp only [step] at hstep
    split at hstep
    · next hpages _ =>
      cases hstep
      exact ⟨h.push (hcontents (by rw [hpages]; rfl)) hhome hcurrent rfl, .inl rfl⟩
    · cases hstep
  | openDashboard =>
    simp only [step] at hstep
    split at hstep
    · next hpages =>
      cases hstep
      exact ⟨h.push (hcontents (by rw [hpages]; rfl)) hhome hcurrent trivial, .inl rfl⟩
    · next hpages =>
      cases hstep
      exact ⟨h.push (hcontents (by rw [hpages]; rfl)) hhome hcurrent trivial, .inl rfl⟩
    · cases hstep
  | pressTile => exact (h.pressTile hhome hcurrent hstep).imp_right .inl
  | tile e => exact (h.tile hledger hcareful hstep).imp_right .inl
  | press now clock accepted =>
    cases hpages : w.pages with
    | nil => simp [step, hpages] at hstep
    | cons page rest =>
      have hpress := hcareful page (by rw [hpages]; rfl)
      cases page with
      | update screen => exact h.upload hledger hpages hpress hstep
      | pastUpdate index screen =>
        obtain rfl : accepted = true := hpress.1
        have huser : w.device.auth.user = (w.profile.authAfter us).user :=
          congrArg AuthProvider.user hledger.auth_eq
        exact h.edit huser hpages hpress hstep
      | _ => simp [step, hpages] at hstep
  | back =>
    simp only [step] at hstep
    split at hstep
    · cases hstep
    · next page rest hpages =>
      cases hstep
      have hleft := (hcareful page (by rw [hpages]; rfl)).2
      have hstored : w.contents = w.stored := by
        cases hcard : page.cardScreen with
        | none => exact hcontents (by rw [hpages]; exact hcard)
        | some screen => exact hleft (by rw [hcard]; rfl)
      rw [hpages, List.forall_mem_cons] at hcurrent
      exact ⟨⟨h.sound.congr rfl rfl rfl le_rfl, kept_of_contents hstored, .inr ⟨hhome,
        fun page hpage => pageCurrent_congr (w := w) rfl rfl le_rfl (hcurrent.2 page hpage)⟩⟩,
        .inl rfl⟩
  | goBackHome =>
    simp only [step] at hstep
    split at hstep
    · next hpages =>
      cases hstep
      exact ⟨h.mainScreen (hcontents (by rw [hpages]; rfl)), .inl rfl⟩
    · cases hstep
  | restart =>
    cases hstep
    exact ⟨h.restart, .inl (world_load h.sound)⟩
  | editProfile p =>
    simp only [step] at hstep
    split at hstep
    · next hpages =>
      cases hstep
      refine ⟨⟨.fillProfile p, kept_of_contents rfl, .inr ⟨fun updates hupdates => ?_, ?_⟩⟩,
        .inr ⟨.profile p, rfl⟩⟩
      · have hnone : w.updates2.getD [] = [] := hcareful
        have hsome : w.updates2 = some updates := hupdates
        rwa [hsome] at hnone
      · have hnil : (w.fillProfile p).pages = [] := hpages
        rw [hnil]
        exact List.forall_mem_nil _
    · cases hstep

end Navigation

/-- Whatever way a careful user takes through the pages, the disk is as after some uploads, edits
and profile changes, each made at once on the records as they then were. Where no card is open the
lists of the records are those on disk. -/
theorem navigation_refines (p : Profile D) (d : Device D (List Course)) {as : List (Tap D)}
    {w : Navigation D}
    (hcareful : Machine.Each Navigation.step Navigation.Careful as (Navigation.start p))
    (hrun : Machine.run Navigation.step as (Navigation.start p) = some w) :
    (∃ bs, Machine.run World.step bs (World.start p d) = some w.world) ∧
      (w.pages.head?.bind Page.cardScreen = none → w.contents = w.stored) := by
  have hgood : (Navigation.start p).Good :=
    ⟨(Navigation.Sound.fillProfile p).congr rfl rfl rfl le_rfl, Navigation.kept_of_contents rfl,
      Navigation.current_mainScreen _⟩
  have hstart : (Navigation.start p).Good ∧
      ∃ us, Ledger (Navigation.start p).profile us (Navigation.start p).onDisk :=
    ⟨hgood, [], Ledger.install p d⟩
  have hstep : ∀ (w : Navigation D) a w',
      (w.Good ∧ ∃ us, Ledger w.profile us w.onDisk) → w.Careful a → w.step a = some w' →
      (w'.Good ∧ ∃ us, Ledger w'.profile us w'.onDisk) ∧
        (w'.world = w.world ∨ ∃ b, w.world.step b = some w'.world) := by
    rintro w a w' ⟨hgood, us, hledger⟩ hcare hstep
    obtain ⟨hgood', hsim⟩ := hgood.step hledger hcare hstep
    refine ⟨⟨hgood', ?_⟩, hsim⟩
    have hledger' : Ledger w.world.profile us w.world.device := hledger
    rcases hsim with hsame | ⟨b, hb⟩
    · exact ⟨us, by rwa [← hsame] at hledger'⟩
    · exact ⟨_, hledger'.step hb⟩
  have hinvariant := Machine.invariant_of_each
    (fun w : Navigation D => w.Good ∧ ∃ us, Ledger w.profile us w.onDisk) Navigation.Careful
    (fun w a w' h hcare hat => (hstep w a w' h hcare hat).1) hstart hcareful hrun
  exact ⟨Machine.exists_run Navigation.world _ Navigation.Careful hstep hstart hcareful hrun,
    hinvariant.1.kept.contents_eq hinvariant.1.sound⟩

/-- Two uploads, the first with a course added, and an edit of the first semester from the list of
all, in which that course is deleted. Then a card is opened and a course deleted, and the app is
killed. -/
def careful : List (Tap Double) :=
  let press (now : Timestamp) : Tap Double := .press now (fun _ => now) true
  [.openDashboard, .pressTile, .tile (.add "Mechanics" "PHYS101" "2"), .tile (.choose 0 "A"),
    .tile (.choose 1 "B"), press 1, .goBackHome, .openDashboard, .pressTile, .tile (.choose 0 "B"),
    press 2, .goBackHome, .viewAll, .tapCard 1, .tile (.delete 1), .tile (.choose 0 "C"), press 3,
    .tapCard 0, .tile (.delete 0), .restart]

theorem navigation_refines_careful : ∃ w,
    Machine.run Navigation.step careful (Navigation.start freshman) = some w ∧
    (HiveUpdate.getUpdateList w.onDisk).map (fun r => (r.courseData, r.scores)) =
      [([⟨"Calculus", "MATH101", .int 3⟩], [3]), ([⟨"Calculus", "MATH101", .int 3⟩], [4])] ∧
    (∃ bs, Machine.run World.step bs (World.start freshman blankDevice) = some w.world) ∧
    w.contents = w.stored := by
  have hcheck : (Machine.run Navigation.step careful (Navigation.start freshman)).map (fun w =>
      ((HiveUpdate.getUpdateList w.onDisk).map (fun r => (r.courseData, r.scores)),
        (w.pages.head?.bind Page.cardScreen).isNone)) =
      some ([([⟨"Calculus", "MATH101", .int 3⟩], [3]), ([⟨"Calculus", "MATH101", .int 3⟩], [4])],
        true) := by
    decide +kernel
  obtain ⟨w, hrun, hcheck⟩ := Option.map_eq_some_iff.1 hcheck
  obtain ⟨hrecords, hcard⟩ := Prod.mk.inj hcheck
  have hcareful : Machine.Each Navigation.step Navigation.Careful careful
      (Navigation.start freshman) := by
    decide +kernel
  obtain ⟨hrefines, hstored⟩ := navigation_refines freshman blankDevice hcareful hrun
  exact ⟨w, hrun, hrecords, hrefines, hstored (Option.isNone_iff_eq_none.1 hcard)⟩

/-- A card that is left with a course deleted shows what is not on disk. -/
example : (Machine.run Navigation.step
    [.openDashboard, .pressTile, .tile (.choose 0 "A"), .press 1 (fun _ => 1) true, .goBackHome,
      .tapCard 0, .tile (.delete 0), .back] (Navigation.start freshman)).map
      (fun w => (w.contents, w.stored)) =
    some ([[]], [[⟨"Calculus", "MATH101", .int 3⟩]]) := by
  decide +kernel

end StudyStats
