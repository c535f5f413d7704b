import StudyStats.Navigation

/-!
# Careful users

Pages can be stale and course lists shared. A careful user takes the usual ways through the pages,
so that what is shown is what is stored and no two records share a list. What is on the tiles of a
card that is left without saving has not reached the disk, and is there until the list is read
again; it has to be put back before it is left.

## Main definitions

* `Navigation.onDisk` — what is read when the app is opened again.
* `Navigation.Careful` — the taps of such a user.
* `Navigation.Good` — what they keep.
-/

namespace StudyStats

open Dart StatFunction

variable {D C C' : Type} [Floating D]

/-! ## Taps -/

/-- The screen is left with a sheet of the grades it offers. -/
def UpdateScreen.LeftWith (courses : List Course) (screen : UpdateScreen C) : Prop :=
  ∃ sheet : Sheet, sheet.courses = courses ∧ sheet.grades = screen.scores ∧
    ∀ g ∈ screen.scores, g ∈ screen.grades

instance (courses : List Course) (screen : UpdateScreen C) : Decidable (screen.LeftWith courses) :=
  decidable_of_iff
    ((screen.scores.length = courses.length ∧
      (∀ g ∈ screen.scores, (gradeScore g).isSome) ∧
      (∀ c ∈ courses, c.units = .int c.credit ∧ 0 ≤ c.credit) ∧
      0 < (courses.map Course.credit).sum) ∧ ∀ g ∈ screen.scores, g ∈ screen.grades)
    ⟨fun ⟨⟨hlength, hknown, hunits, htotal⟩, hoffered⟩ =>
        ⟨⟨courses, screen.scores, hlength, hknown, hunits, htotal⟩, rfl, rfl, hoffered⟩,
      fun ⟨sheet, hcourses, hscores, hoffered⟩ => ⟨hcourses ▸ hscores ▸
        ⟨sheet.length_eq, sheet.known, sheet.units_nonneg, sheet.total_pos⟩, hoffered⟩⟩

/-- Of the course map the list is the one for the semester. -/
def ListRef.IsOf (level semester : String) (c : ListRef) : Prop :=
  ∀ l digit, c.origin = .catalogue l digit → l = level ∧ substring semester 0 1 = some digit

namespace Navigation

/-- The device as it is on disk: the course map as it was loaded, and the records with their lists
as they were when the box was last written. -/
def onDisk (w : Navigation D) : Device D (List Course) where
  auth := {
    user := w.device.auth.user
    courseData := w.device.auth.courseData.map fun _ => w.profile.courseData }
  updateBox := w.device.updateBox.map fun updates =>
    updates.zipWith (fun r courses => r.map fun _ => courses) w.stored

def world (w : Navigation D) : World D := { profile := w.profile, device := w.onDisk }

/-- The record of the final semester is in the list. -/
def FinalRecorded (w : Navigation D) : Prop := w.profile.finalLabel ∈ labels w.device

instance (w : Navigation D) : Decidable w.FinalRecorded := by unfold FinalRecorded; infer_instance

/-- The button is pressed with a complete sheet, before the final semester is recorded or, over a
card, with the answer awaited. -/
def CarefulPress (w : Navigation D) (accepted : Bool) : Page D → Prop
  | .update screen => (screen.compute D (w.lists screen.courseData)).isSome →
      ¬w.FinalRecorded ∧ screen.LeftWith (w.lists screen.courseData)
  | .pastUpdate _ screen => accepted = true ∧
      ((screen.compute D (w.lists screen.courseData)).isSome →
        screen.LeftWith (w.lists screen.courseData))
  | _ => True

instance (w : Navigation D) (accepted : Bool) :
    (page : Page D) → Decidable (w.CarefulPress accepted page)
  | .update _ => inferInstanceAs (Decidable (_ → _))
  | .pastUpdate _ _ => inferInstanceAs (Decidable (_ ∧ (_ → _)))
  | .pastSemesters _ | .dashboard _ | .updateResult => isTrue trivial

/-- A user who leaves a result page by its button and a card with its courses as they were saved,
edits the profile where no card is shown, and works on a fresh screen only before the final
semester is recorded. -/
def Careful (w : Navigation D) : Tap D → Prop
  | .tile _ => ∀ page ∈ w.pages.head?, page.freshScreen.isSome → ¬w.FinalRecorded
  | .press _ _ accepted => ∀ page ∈ w.pages.head?, w.CarefulPress accepted page
  | .back => ∀ page ∈ w.pages.head?,
      page.isResult = false ∧ (page.cardScreen.isSome → w.contents = w.stored)
  | .editProfile _ => w.updates2.getD [] = []
  | _ => True

instance (w : Navigation D) : (a : Tap D) → Decidable (w.Careful a)
  | .tile _ => inferInstanceAs (Decidable (∀ page ∈ w.pages.head?, _))
  | .press _ _ accepted =>
    inferInstanceAs (Decidable (∀ page ∈ w.pages.head?, w.CarefulPress accepted page))
  | .back => inferInstanceAs (Decidable (∀ page ∈ w.pages.head?, _ ∧ _))
  | .editProfile _ => inferInstanceAs (Decidable (w.updates2.getD [] = []))
  | .selectTab _ | .tapCard _ | .viewAll | .openDashboard | .pressTile | .goBackHome | .restart =>
    isTrue trivial

/-! ## What a careful user keeps -/

/-- Every record has a list of its own. -/
structure Sound (w : Navigation D) : Prop where
  catalogue : ∃ n < w.time, w.device.auth.courseData = some (w.profile.courseData.refs n)
  own : ∀ r ∈ HiveUpdate.getUpdateList w.device, r.courseData.time < w.time ∧
    r.courseData.origin ≠ .screen ∧ r.courseData.IsOf r.level r.semester
  nodup : ((HiveUpdate.getUpdateList w.device).map Update.courseData).Nodup
  length_eq : w.stored.length = (HiveUpdate.getUpdateList w.device).length

/-- The lists of the records are as they are on disk, but for that of a card that is open. -/
def Kept (w : Navigation D) : Prop :=
  ∀ (i : ℕ) r courses, (HiveUpdate.getUpdateList w.device)[i]? = some r →
    w.stored[i]? = some courses → w.lists r.courseData = courses ∨
      ∃ screen, w.pages.head?.bind Page.cardScreen = some screen ∧
        screen.courseData = r.courseData

/-- A fresh screen as it would be opened now, with the list of its semester. -/
structure Fresh (w : Navigation D) (screen : UpdateScreen ListRef) : Prop where
  time_lt : screen.courseData.time < w.time
  isOf : screen.courseData.IsOf screen.level screen.semester
  origin : (∃ level digit, screen.courseData.origin = .catalogue level digit) ∨
    screen.courseData.origin = .screen ∧ screen.grades = []
  opened : ∃ fresh, UpdateScreen.init id [] w.profile.gradingSystem w.onDisk.auth = some fresh ∧
    fresh.header = screen.header

/-- What the page was made from is still there. -/
def PageCurrent (w : Navigation D) : Page D → Prop
  | .pastSemesters updates => updates = w.cards
  | .pastUpdate index screen => ∃ r scores, w.cards[index]? = some r ∧
      screen = { UpdateScreen.historyInit w.profile.gradingSystem r with scores }
  | .update screen => w.Fresh screen
  | .dashboard _ => True
  | .updateResult => True

/-- Copies and pages are those of the device as it is, or a result is shown that can only be left
by going home. -/
def Current (w : Navigation D) : Prop :=
  w.pages.head? = some .updateResult ∨
    (∀ updates ∈ w.updates2, updates = w.cards) ∧ ∀ page ∈ w.pages, w.PageCurrent page

variable {w w' : Navigation D} {a : Tap D}

theorem length_contents (w : Navigation D) :
    w.contents.length = (HiveUpdate.getUpdateList w.device).length :=
  List.length_map _

theorem contents_congr (hdevice : w'.device = w.device)
    (hlists : ∀ r ∈ HiveUpdate.getUpdateList w.device,
      w'.lists r.courseData = w.lists r.courseData) : w'.contents = w.contents := by
  unfold contents
  rw [hdevice]
  exact List.map_congr_left hlists

theorem kept_of_contents (h : w.contents = w.stored) : w.Kept := by
  intro i r courses hr hcourses
  rw [← h, contents, List.getElem?_map, hr] at hcourses
  exact .inl (Option.some.inj hcourses)

/-- Without a card nothing is left to be written. -/
theorem Kept.contents_eq (h : w.Kept) (hsound : w.Sound)
    (hcard : w.pages.head?.bind Page.cardScreen = none) : w.contents = w.stored := by
  refine List.ext_getElem? fun i => ?_
  by_cases hi : i < (HiveUpdate.getUpdateList w.device).length
  · have hr := List.getElem?_eq_getElem hi
    have hstored := List.getElem?_eq_getElem (hsound.length_eq ▸ hi : i < w.stored.length)
    rw [contents, List.getElem?_map, hr, hstored, Option.map_some]
    rcases h i _ _ hr hstored with hsame | ⟨screen, hscreen, -⟩
    · rw [hsame]
    · rw [hcard] at hscreen
      cases hscreen
  · rw [List.getElem?_eq_none (by rw [length_contents]; omega),
      List.getElem?_eq_none (by rw [hsound.length_eq]; omega)]

theorem onDisk_of_contents (h : w.contents = w.stored) :
    w.onDisk = w.device.map (fun _ => w.profile.courseData) w.lists := by
  unfold onDisk Device.map
  rw [← h, contents, HiveUpdate.getUpdateList]
  cases w.device.updateBox with
  | none => rfl
  | some updates =>
    simp only [Option.map_some, Option.getD_some, List.zipWith_map_right, List.zipWith_self]
    rfl

theorem getUpdateList_onDisk (w : Navigation D) : HiveUpdate.getUpdateList w.onDisk =
    (HiveUpdate.getUpdateList w.device).zipWith (fun r courses => r.map fun _ => courses)
      w.stored := by
  unfold onDisk HiveUpdate.getUpdateList
  cases w.device.updateBox <;> rfl

omit [Floating D] in
theorem map_label_zipWith {updates : List (Update D C)} {lists : List C'}
    (h : lists.length = updates.length) :
    (updates.zipWith (fun r courses => r.map fun _ => courses) lists).map Update.label =
      updates.map Update.label := by
  induction updates generalizing lists with
  | nil => simp
  | cons r rs ih =>
    obtain ⟨c, cs, rfl⟩ := List.exists_cons_of_length_eq_add_one h
    simp only [List.length_cons, Nat.add_right_cancel_iff] at h
    simp [ih h]

theorem Sound.labels_onDisk (h : w.Sound) : labels w.onDisk = labels w.device := by
  rw [labels, getUpdateList_onDisk, map_label_zipWith h.length_eq]
  rfl

theorem Sound.finalRecorded_iff (h : w.Sound) : w.world.FinalRecorded ↔ w.FinalRecorded := by
  have hlabels : labels w.world.device = labels w.device := h.labels_onDisk
  rw [World.FinalRecorded, FinalRecorded, hlabels]
  rfl

omit [Floating D] in
/-- Level and semester number a semester, and so do level and digit. -/
theorem semesterLabel_of_digit {s t : ℕ} (hlevel : levelText s = levelText t)
    (hdigit : substring (semesterOf s) 0 1 = substring (semesterOf t) 0 1) :
    semesterLabel s = semesterLabel t := by
  have hsemester : semesterOf s = semesterOf t := by
    unfold semesterOf at hdigit ⊢
    split_ifs at hdigit ⊢
    · rfl
    · exact absurd hdigit (by decide)
    · exact absurd hdigit (by decide)
    · rfl
  exact Prod.ext hlevel hsemester

/-- A fresh screen is for the semester after those of the history. -/
theorem Fresh.label_eq {screen : UpdateScreen ListRef} {us : List Sheet} (h : w.Fresh screen)
    (hledger : Ledger w.profile us w.onDisk) :
    (screen.level, screen.semester) = semesterLabel (w.profile.position us.length) := by
  obtain ⟨fresh, hinit, hheader⟩ := h.opened
  obtain ⟨user, level, semester, huser, hlevel, hsemester, hs, ht⟩ := init_position hinit
  have hlevelEq : fresh.level = screen.level := congrArg UpdateScreen.level hheader
  have hsemesterEq : fresh.semester = screen.semester := congrArg UpdateScreen.semester hheader
  rw [hledger.auth_eq] at huser
  cases huser
  cases hlevel
  cases hsemester
  rw [← hlevelEq, ← hsemesterEq, hs, ht]
  rfl

/-- Before the final semester is recorded no record has the list of a fresh screen. -/
theorem Sound.ne_of_fresh (h : w.Sound) {us : List Sheet}
    (hledger : Ledger w.profile us w.onDisk) (hfinal : ¬w.FinalRecorded)
    {screen : UpdateScreen ListRef} (hfresh : w.Fresh screen) {r : Update D ListRef}
    (hr : r ∈ HiveUpdate.getUpdateList w.device) : r.courseData ≠ screen.courseData := by
  intro hsame
  obtain ⟨-, hscreen, hown⟩ := h.own r hr
  rcases hfresh.origin with ⟨level, digit, horigin⟩ | ⟨horigin, -⟩
  · obtain ⟨hl, hd⟩ := hown level digit (hsame ▸ horigin)
    obtain ⟨hl', hd'⟩ := hfresh.isOf level digit horigin
    have hlabels := hledger.labels_eq
    rw [h.labels_onDisk] at hlabels
    have hmem : r.label ∈ w.profile.firstLabels us.length :=
      hlabels ▸ List.mem_map_of_mem hr
    obtain ⟨i, hi, hlabel⟩ := List.mem_map.1 hmem
    have hin := List.mem_range.1 hi
    have hroom : w.profile.start + us.length ≤ 2 * w.profile.year := by
      rw [FinalRecorded, hlabels, w.profile.finalLabel_mem_iff hledger.fits] at hfinal
      have := hledger.fits
      omega
    have hposition := hfresh.label_eq hledger
    rw [w.profile.position_of_le hroom] at hposition
    obtain ⟨hrl, hrs⟩ := Prod.mk.inj hlabel
    obtain ⟨hsl, hss⟩ := Prod.mk.inj hposition
    have hlast := semesterLabel_of_digit (s := w.profile.start + i)
      (t := w.profile.start + us.length) (by rw [hrl, ← hsl, ← hl, ← hl'])
      (by rw [hrs, ← hss, hd, hd'])
    have := semesterLabel_injective hlast
    omega
  · exact hscreen (hsame ▸ horigin)

/-! ## Frames -/

theorem Sound.congr (h : w.Sound) (hprofile : w'.profile = w.profile)
    (hdevice : w'.device = w.device) (hstored : w'.stored = w.stored) (htime : w.time ≤ w'.time) :
    w'.Sound where
  catalogue := by
    obtain ⟨n, hn, hdata⟩ := h.catalogue
    exact ⟨n, hn.trans_le htime, by rw [hdevice, hprofile, hdata]⟩
  own := by
    rw [hdevice]
    intro r hr
    obtain ⟨hlt, hown⟩ := h.own r hr
    exact ⟨hlt.trans_le htime, hown⟩
  nodup := hdevice ▸ h.nodup
  length_eq := by rw [hstored, hdevice, h.length_eq]

/-- A page is only looked at beside the profile and the device. -/
theorem pageCurrent_congr {page : Page D} (hprofile : w'.profile = w.profile)
    (hdevice : w'.device = w.device) (htime : w.time ≤ w'.time) (h : w.PageCurrent page) :
    w'.PageCurrent page := by
  cases page with
  | pastSemesters updates => simpa only [PageCurrent, cards, hdevice] using h
  | pastUpdate index screen => simpa only [PageCurrent, cards, hprofile, hdevice] using h
  | update screen =>
    refine ⟨h.time_lt.trans_le htime, h.isOf, h.origin, ?_⟩
    have hauth : w'.onDisk.auth = w.onDisk.auth := by simp only [onDisk, hprofile, hdevice]
    rw [hprofile, hauth]
    exact h.opened
  | dashboard updates => trivial
  | updateResult => trivial

/-- The visible page is of the device as it is, if it is not a result. -/
theorem Current.page (h : w.Current) {page : Page D} {rest : List (Page D)}
    (hpages : w.pages = page :: rest) (hresult : page ≠ .updateResult) : w.PageCurrent page := by
  rcases h with hshown | ⟨-, hcurrent⟩
  · rw [hpages] at hshown
    exact absurd (Option.some.inj hshown) hresult
  · exact hcurrent page (hpages ▸ List.mem_cons_self)

theorem current_mainScreen (w : Navigation D) : w.mainScreen.Current := by
  right
  constructor
  · intro updates hupdates
    exact (Option.some.inj hupdates).symm
  · exact nofun

theorem current_push {page : Page D} (hhome : ∀ updates ∈ w.updates2, updates = w.cards)
    (hpages : ∀ page ∈ w.pages, w.PageCurrent page) (hpage : w.PageCurrent page) :
    (w.push page).Current := by
  right
  refine ⟨hhome, fun page' hpage' => pageCurrent_congr (w := w) rfl rfl le_rfl ?_⟩
  rcases List.mem_cons.1 hpage' with rfl | hmem
  · exact hpage
  · exact hpages page' hmem

theorem getElem?_cards_of_shown {i : ℕ} {update : Update D ListRef}
    (hhome : ∀ updates ∈ w.updates2, updates = w.cards)
    (hpages : ∀ page ∈ w.pages, w.PageCurrent page) (hshown : w.shown[i]? = some update) :
    w.cards[i]? = some update := by
  unfold shown at hshown
  split at hshown
  · cases hcards : w.updates2 with
    | none => simp [hcards] at hshown
    | some updates2 =>
      obtain rfl : updates2 = w.cards := hhome updates2 hcards
      rw [hcards, Option.getD_some, List.getElem?_take] at hshown
      split_ifs at hshown
      exact hshown
  · next updates rest hlist =>
    have hupdates : updates = w.cards :=
      hpages (.pastSemesters updates) (hlist ▸ List.mem_cons_self)
    exact hupdates ▸ hshown
  · cases hshown

/-! ## Reading again -/

omit [Floating D] in
theorem zipWith_mapIdx {updates : List (Update D C)} {lists : List C'} (c : ℕ → C) :
    (updates.mapIdx fun i r => r.map fun _ => c i).zipWith
        (fun r courses => r.map fun _ => courses) lists =
      updates.zipWith (fun r courses => r.map fun _ => courses) lists := by
  refine List.ext_getElem? fun i => ?_
  rw [List.getElem?_zipWith, List.getElem?_zipWith, List.getElem?_mapIdx]
  cases updates[i]? <;> cases lists[i]? <;> rfl

omit [Floating D] in
theorem zipWith_eq_map {updates : List (Update D C)} {lists : List C'} {g : C → C'}
    (hlength : lists.length = updates.length)
    (h : ∀ (i : ℕ) r c, updates[i]? = some r → lists[i]? = some c → g r.courseData = c) :
    updates.zipWith (fun r courses => r.map fun _ => courses) lists =
      updates.map (Update.map g) := by
  refine List.ext_getElem? fun i => ?_
  rw [List.getElem?_zipWith, List.getElem?_map]
  by_cases hi : i < updates.length
  · have hr := List.getElem?_eq_getElem hi
    have hc := List.getElem?_eq_getElem (hlength ▸ hi : i < lists.length)
    rw [hr, hc, Option.map_some, ← h i _ _ hr hc]
    rfl
  · rw [List.getElem?_eq_none (by omega)]
    rfl

theorem getUpdateList_load (w : Navigation D) : HiveUpdate.getUpdateList w.load.device =
    (HiveUpdate.getUpdateList w.device).mapIdx fun i r =>
      r.map fun _ => (⟨w.time, .record i⟩ : ListRef) := by
  unfold load HiveUpdate.getUpdateList
  cases w.device.updateBox <;> rfl

theorem world_load (h : w.Sound) : w.load.world = w.world := by
  obtain ⟨n, -, hdata⟩ := h.catalogue
  simp only [world, onDisk, hdata]
  simp only [load, make, Option.map_map, Function.comp_def, zipWith_mapIdx]
  rfl

theorem contents_load (h : w.Sound) : w.load.contents = w.load.stored := by
  refine List.ext_getElem? fun i => ?_
  rw [contents, getUpdateList_load, List.getElem?_map, List.getElem?_mapIdx]
  show _ = w.stored[i]?
  by_cases hi : i < (HiveUpdate.getUpdateList w.device).length
  · rw [List.getElem?_eq_getElem hi, List.getElem?_eq_getElem (h.length_eq ▸ hi)]
    simp [load, make, Update.map, listsOf, h.length_eq, hi]
  · rw [List.getElem?_eq_none (by omega), List.getElem?_eq_none (by rw [h.length_eq]; omega)]
    rfl

theorem Sound.load (h : w.Sound) : w.load.Sound where
  catalogue := ⟨w.time, Nat.lt_succ_self _, rfl⟩
  own := by
    intro r hr
    rw [getUpdateList_load] at hr
    obtain ⟨i, hi, rfl⟩ := List.mem_mapIdx.1 hr
    exact ⟨Nat.lt_succ_self _, ListOrigin.noConfusion, fun _ _ horigin => by cases horigin⟩
  nodup := by
    have hrefs : (HiveUpdate.getUpdateList w.load.device).map Update.courseData =
        (List.range (HiveUpdate.getUpdateList w.device).length).map
          fun i => (⟨w.time, .record i⟩ : ListRef) := by
      rw [getUpdateList_load]
      refine List.ext_getElem? fun i => ?_
      by_cases hi : i < (HiveUpdate.getUpdateList w.device).length
      · simp [hi, Update.map]
      · simp [hi]
    rw [hrefs]
    exact List.nodup_range.map fun i j h => by simpa using h
  length_eq := by
    rw [getUpdateList_load, List.length_mapIdx]
    exact h.length_eq

theorem Sound.fillProfile (p : Profile D) : (w.fillProfile p).Sound where
  catalogue := ⟨w.time, Nat.lt_succ_self _, rfl⟩
  own := fun _ hr => absurd hr List.not_mem_nil
  nodup := List.nodup_nil
  length_eq := rfl

/-- What a careful user keeps. -/
structure Good (w : Navigation D) : Prop where
  sound : w.Sound
  kept : w.Kept
  current : w.Current

end Navigation

end StudyStats
