import StudyStats.History

/-!
# Editing is replaying

An edit of a past semester gives the device that uploading the changed history from the
beginning gives. Both agree with the same history, so only the uploads of the changed
history have to be shown possible.

## Main results

* `edit_replays` — an edit is the replay of the history with one sheet replaced.
-/

namespace StudyStats

open Dart StatFunction

variable {D : Type} [Floating D]

/-! ## When the screen can be filled in -/

/-- Every grade of the sheet is one the screen offers. -/
def Sheet.Offered (gradingSystem : String) (sheet : Sheet) : Prop :=
  ∀ g ∈ sheet.grades, g ∈ (getGrade gradingSystem).2

instance (gradingSystem : String) (sheet : Sheet) : Decidable (sheet.Offered gradingSystem) := by
  unfold Sheet.Offered; infer_instance

/-- The catalogue entry of the position after `n` uploads. -/
def Profile.entry (p : Profile D) (n : ℕ) : Option (List Course) := do
  p.courseData.courses (levelText (p.position n))
    (← substring (semesterOf (p.position n)) 0 1)

/-- The `n`-th upload can be made, with this sheet. -/
structure Profile.Uploadable (p : Profile D) (n : ℕ) (sheet : Sheet) : Prop where
  fits : p.start + n ≤ 2 * p.year
  entry : (p.entry n).isSome
  offered : sheet.Offered p.gradingSystem

/-- A fresh screen offers grades when the catalogue has its position. -/
theorem grades_init (p : Profile D) (us : List Sheet) :
    ∃ screen, UpdateScreen.init id [] p.gradingSystem (p.authAfter us) = some screen ∧
      screen.grades = if (p.entry us.length).isSome then (getGrade p.gradingSystem).2 else [] := by
  have hentry : (do
      (← (p.authAfter us).courseData).courses (toString (levelOf (p.position us.length) : ℤ))
        (← substring (semesterOf (p.position us.length)) 0 1)) = p.entry us.length := rfl
  simp only [UpdateScreen.init]
  simp only [Profile.authAfter, Option.bind_eq_bind, Option.bind_some] at hentry ⊢
  rw [hentry]
  cases p.entry us.length <;> exact ⟨_, rfl, rfl⟩

theorem Ledger.uploadResult_isSome_iff {p : Profile D} {us : List Sheet}
    {d : Device D (List Course)} (h : Ledger p us d) (sheet : Sheet) (now : Timestamp) :
    (UpdateScreen.uploadResult p.gradingSystem sheet now d).isSome ↔
      (p.entry us.length).isSome ∧ sheet.Offered p.gradingSystem := by
  obtain ⟨screen, hinit, hgrades⟩ := grades_init p us
  have hfill : (UpdateScreen.uploadResult p.gradingSystem sheet now d).isSome ↔
      (screen.fill sheet).isSome := by
    simp only [UpdateScreen.uploadResult, h.auth_eq, hinit, Option.bind_eq_bind,
      Option.bind_some, Option.pure_def]
    cases screen.fill sheet <;> simp
  rw [hfill, UpdateScreen.fill_isSome_iff, hgrades]
  split_ifs with hentry
  · simp [hentry, Sheet.Offered]
  · obtain ⟨g, hg⟩ := List.exists_mem_of_ne_nil _ sheet.grades_ne_nil
    simp only [hentry, Bool.false_eq_true, false_and, iff_false]
    exact fun hall => absurd (hall g hg) List.not_mem_nil

theorem Ledger.editRecord_isSome {p : Profile D} {us : List Sheet} {d : Device D (List Course)}
    (h : Ledger p us d) {index : ℕ} {sheet : Sheet} (now : Timestamp) (clock : ℕ → Timestamp)
    (accepted : Bool) (hindex : index < us.length) (hsheet : sheet.Offered p.gradingSystem) :
    (UpdateScreen.editRecord p.gradingSystem index sheet now clock accepted d).isSome := by
  have hlt : index < (HiveUpdate.getUpdateList d).reverse.length := by
    rwa [List.length_reverse, h.length_eq]
  obtain ⟨screen, hfill⟩ := Option.isSome_iff_exists.1 (UpdateScreen.fill_isSome_iff
    sheet (UpdateScreen.historyInit p.gradingSystem
      (HiveUpdate.getUpdateList d).reverse[index]) |>.2 hsheet)
  simp only [UpdateScreen.editRecord, List.getElem?_eq_getElem hlt, hfill, Option.bind_eq_bind,
    Option.bind_some, Option.pure_def, Option.isSome_some]

/-! ## Replaying a history -/

/-- Uploads of sheets, each at its time. -/
def uploads (us : List (Sheet × Timestamp)) : List (Action D) :=
  us.map fun (sheet, now) => .upload sheet now

theorem Ledger.step_upload {w : World D} {vs : List Sheet} (h : Ledger w.profile vs w.device)
    (sheet : Sheet) (now : Timestamp) :
    (∃ w', w.step (.upload sheet now) = some w') ↔ w.profile.Uploadable vs.length sheet := by
  have hfits := h.fits
  have hsome := h.uploadResult_isSome_iff sheet now
  rw [← Option.isSome_iff_exists]
  simp only [World.step]
  split_ifs with hfinal
  · have := h.finalRecorded_iff.1 hfinal
    refine iff_of_false (by simp) ?_
    rintro ⟨hle, -, -⟩
    omega
  · rw [Option.isSome_map, hsome]
    have hfull := mt h.finalRecorded_iff.2 hfinal
    constructor
    · rintro ⟨hentry, hoffered⟩
      exact ⟨by omega, hentry, hoffered⟩
    · rintro ⟨-, hentry, hoffered⟩
      exact ⟨hentry, hoffered⟩

theorem profile_of_step {w w' : World D} {a : Action D} (hstep : w.step a = some w')
    (ha : ∀ p, a ≠ .profile p) : w'.profile = w.profile := by
  cases a with
  | upload sheet now =>
    simp only [World.step] at hstep
    split_ifs at hstep
    obtain ⟨d', -, rfl⟩ := Option.map_eq_some_iff.1 hstep
    rfl
  | edit e =>
    obtain ⟨d', -, rfl⟩ := Option.map_eq_some_iff.1 hstep
    rfl
  | profile p => exact absurd rfl (ha p)

theorem Ledger.step_uploaded {w w' : World D} {vs : List Sheet} {sheet : Sheet}
    {now : Timestamp} (h : Ledger w.profile vs w.device)
    (hstep : w.step (.upload sheet now) = some w') :
    w'.profile = w.profile ∧ Ledger w'.profile (vs ++ [sheet]) w'.device :=
  ⟨profile_of_step hstep fun _ => nofun, h.step hstep⟩

/-- Uploads can be made one after the other when each can be made in its semester. -/
theorem Ledger.run_uploads_iff {w : World D} {vs : List Sheet}
    (h : Ledger w.profile vs w.device) (us : List (Sheet × Timestamp)) :
    (∃ w', Machine.run World.step (uploads us) w = some w') ↔
      ∀ (i : ℕ) u, us[i]? = some u → w.profile.Uploadable (vs.length + i) u.1 := by
  induction us generalizing w vs with
  | nil => simp [uploads]
  | cons u us ih =>
    constructor
    · rintro ⟨w', hrun⟩ i v hv
      obtain ⟨t, hstep, hrest⟩ := Machine.run_cons.1 hrun
      obtain ⟨hprofile, ht⟩ := h.step_uploaded hstep
      cases i with
      | zero => cases hv; exact (h.step_upload u.1 u.2).1 ⟨t, hstep⟩
      | succ i =>
        have := (ih ht).1 ⟨w', hrest⟩ i v hv
        rw [hprofile, List.length_append, List.length_singleton] at this
        rwa [show vs.length + (i + 1) = vs.length + 1 + i by omega]
    · intro hall
      obtain ⟨t, hstep⟩ := (h.step_upload u.1 u.2).2 (hall 0 u rfl)
      obtain ⟨hprofile, ht⟩ := h.step_uploaded hstep
      obtain ⟨w', hrest⟩ := (ih ht).2 fun i v hv => by
        rw [hprofile, List.length_append, List.length_singleton,
          show vs.length + 1 + i = vs.length + (i + 1) by omega]
        exact hall (i + 1) v hv
      exact ⟨w', Machine.run_cons.2 ⟨t, hstep, hrest⟩⟩

theorem Ledger.run_uploads {w w' : World D} {vs : List Sheet} {us : List (Sheet × Timestamp)}
    (h : Ledger w.profile vs w.device)
    (hrun : Machine.run World.step (uploads us) w = some w') :
    w'.profile = w.profile ∧ Ledger w'.profile (vs ++ us.map Prod.fst) w'.device := by
  induction us generalizing w vs with
  | nil => cases hrun; exact ⟨rfl, by simpa using h⟩
  | cons u us ih =>
    obtain ⟨t, hstep, hrest⟩ := Machine.run_cons.1 hrun
    obtain ⟨hprofile, ht⟩ := h.step_uploaded hstep
    obtain ⟨hprofile', hw'⟩ := ih ht hrest
    exact ⟨hprofile'.trans hprofile, by simpa using hw'⟩

/-- The same list, up to upload flags and creation times, and the same user. -/
structure World.Agrees (w w' : World D) : Prop where
  updates : w.updates.map Update.content = w'.updates.map Update.content
  user : w.device.auth.user = w'.device.auth.user

theorem Ledger.agrees {w w' : World D} {us : List Sheet} (hp : w.profile = w'.profile)
    (h : Ledger w.profile us w.device) (h' : Ledger w'.profile us w'.device) : w.Agrees w' where
  updates := by
    rw [World.updates, World.updates, h.records_eq, h'.records_eq, hp]
  user := by rw [h.auth_eq, h'.auth_eq, hp]

/-- The edit opens one of `n` records and its grades are offered. -/
structure Edit.Possible (e : Edit) (p : Profile D) (n : ℕ) : Prop where
  index_lt : e.index < n
  offered : e.sheet.Offered p.gradingSystem

theorem Ledger.step_edit {w : World D} {us : List Sheet} {e : Edit}
    (h : Ledger w.profile us w.device) (he : e.Possible w.profile us.length) :
    ∃ w', w.step (.edit e) = some w' ∧ w'.profile = w.profile ∧
      Ledger w'.profile (us.set (us.length - 1 - e.index) e.sheet) w'.device := by
  obtain ⟨d', hd'⟩ := Option.isSome_iff_exists.1
    (h.editRecord_isSome e.now e.clock e.accepted
      he.index_lt he.offered)
  have hstep : w.step (.edit e) = some { w with device := d' } := by
    simp [World.step, Edit.apply, hd']
  exact ⟨_, hstep, rfl, h.step hstep⟩

/-- Two edits, one after the other. -/
theorem Ledger.run_edits {w : World D} {us : List Sheet} {e e' : Edit}
    (h : Ledger w.profile us w.device) (he : e.Possible w.profile us.length)
    (he' : e'.Possible w.profile us.length) :
    ∃ w', Machine.run World.step [.edit e, .edit e'] w = some w' ∧ w'.profile = w.profile ∧
      Ledger w'.profile ((us.set (us.length - 1 - e.index) e.sheet).set
        (us.length - 1 - e'.index) e'.sheet) w'.device := by
  obtain ⟨t, hstep, hprofile, ht⟩ := h.step_edit he
  replace he' : e'.Possible t.profile (us.set (us.length - 1 - e.index) e.sheet).length := by
    rwa [hprofile, List.length_set]
  obtain ⟨w', hstep', hprofile', hw'⟩ := ht.step_edit he'
  rw [List.length_set] at hw'
  exact ⟨w', Machine.run_cons.2 ⟨t, hstep, Machine.run_cons.2 ⟨w', hstep', rfl⟩⟩,
    hprofile'.trans hprofile, hw'⟩

/-- Editing a record is replaying the history with its sheet replaced. So edits of different
records commute, and an edit made again changes nothing. -/
theorem edit_replays (p : Profile D) (d : Device D (List Course)) {us : List (Sheet × Timestamp)}
    {w : World D} (hrun : Machine.run World.step (uploads us) (World.start p d) = some w) :
    (∀ (k : ℕ) (e : Edit) (now : Timestamp), e.Possible p us.length →
      k + e.index + 1 = us.length → ∃ w₁ w₂, w.step (.edit e) = some w₁ ∧
        Machine.run World.step (uploads (us.set k (e.sheet, now))) (World.start p d) = some w₂ ∧
        w₁.Agrees w₂) ∧
    (∀ e e' : Edit, e.Possible p us.length → e'.Possible p us.length → e.index ≠ e'.index →
      ∃ w₁ w₂, Machine.run World.step [.edit e, .edit e'] w = some w₁ ∧
        Machine.run World.step [.edit e', .edit e] w = some w₂ ∧ w₁.Agrees w₂) ∧
    (∀ e e' : Edit, e.Possible p us.length → e'.index = e.index → e'.sheet = e.sheet →
      ∃ w₁ w₂, w.step (.edit e) = some w₁ ∧
        Machine.run World.step [.edit e, .edit e'] w = some w₂ ∧ w₁.Agrees w₂) := by
  have hstart : Ledger (World.start p d).profile [] (World.start p d).device :=
    Ledger.install p d
  obtain ⟨hprofile, h⟩ := hstart.run_uploads hrun
  replace hprofile : w.profile = p := hprofile
  have hlen : ([] ++ us.map Prod.fst).length = us.length := by simp
  have hpossible : ∀ {e : Edit}, e.Possible p us.length →
      e.Possible w.profile ([] ++ us.map Prod.fst).length := by
    intro e he
    rwa [hprofile, hlen]
  refine ⟨fun k e now he hk => ?_, fun e e' he he' hne => ?_, fun e e' he hindex hsheet => ?_⟩
  · obtain ⟨w₁, hstep, hprofile₁, h₁⟩ := h.step_edit (hpossible he)
    have hall := (hstart.run_uploads_iff us).1 ⟨w, hrun⟩
    -- only the sheet of upload `k` has changed, and its grades are offered
    obtain ⟨w₂, hrun₂⟩ := (hstart.run_uploads_iff (us.set k (e.sheet, now))).2 fun i u hu => by
      rw [List.getElem?_set] at hu
      split_ifs at hu with hik hlt
      · cases hu
        obtain ⟨hfits, hentry, -⟩ := hall k us[k] (List.getElem?_eq_getElem hlt)
        exact ⟨hik ▸ hfits, hik ▸ hentry, he.offered⟩
      · exact hall i u hu
    obtain ⟨hprofile₂, h₂⟩ := hstart.run_uploads hrun₂
    replace hprofile₂ : w₂.profile = p := hprofile₂
    refine ⟨w₁, w₂, hstep, hrun₂, Ledger.agrees (by rw [hprofile₁, hprofile, hprofile₂]) h₁ ?_⟩
    rw [hlen, show us.length - 1 - e.index = k by omega]
    simpa [List.map_set] using h₂
  · obtain ⟨w₁, hrun₁, hprofile₁, h₁⟩ :=
      h.run_edits (hpossible he) (hpossible he')
    obtain ⟨w₂, hrun₂, hprofile₂, h₂⟩ :=
      h.run_edits (hpossible he') (hpossible he)
    refine ⟨w₁, w₂, hrun₁, hrun₂, Ledger.agrees (hprofile₁.trans hprofile₂.symm) h₁ ?_⟩
    have hlt := he.index_lt
    have hlt' := he'.index_lt
    rw [List.set_comm _ _ (by rw [hlen]; omega)]
    exact h₂
  · have he' : e'.Possible p us.length := ⟨hindex ▸ he.index_lt, hsheet ▸ he.offered⟩
    obtain ⟨w₁, hstep, hprofile₁, h₁⟩ := h.step_edit (hpossible he)
    obtain ⟨w₂, hrun₂, hprofile₂, h₂⟩ := h.run_edits (hpossible he) (hpossible he')
    refine ⟨w₁, w₂, hstep, hrun₂, Ledger.agrees (hprofile₁.trans hprofile₂.symm) h₁ ?_⟩
    rw [hindex, hsheet, List.set_set] at h₂
    exact h₂

/-- Three semesters, with the middle one re-saved. -/
theorem edit_replays_freshman : ∃ w w₁ w₂,
    Machine.run World.step (uploads [(singleCourse "A" rfl, 1), (singleCourse "C" rfl, 2),
      (singleCourse "B" rfl, 3)]) (World.start freshman blankDevice) = some w ∧
    w.step (.edit ⟨1, singleCourse "F" rfl, 4, fun _ => 5, true⟩) = some w₁ ∧
    Machine.run World.step (uploads [(singleCourse "A" rfl, 1), (singleCourse "F" rfl, 2),
      (singleCourse "B" rfl, 3)]) (World.start freshman blankDevice) = some w₂ ∧
    w₁.Agrees w₂ := by
  have hsome : (Machine.run World.step (uploads [(singleCourse "A" rfl, 1),
      (singleCourse "C" rfl, 2), (singleCourse "B" rfl, 3)])
      (World.start freshman blankDevice)).isSome := by
    decide +kernel
  obtain ⟨w, hrun⟩ := Option.isSome_iff_exists.1 hsome
  obtain ⟨w₁, w₂, hstep, hreplay, hagrees⟩ := (edit_replays freshman blankDevice hrun).1 1
    ⟨1, singleCourse "F" rfl, 4, fun _ => 5, true⟩ 2 ⟨by decide, by decide⟩ rfl
  exact ⟨w, w₁, w₂, hrun, hstep, hreplay, hagrees⟩

end StudyStats
