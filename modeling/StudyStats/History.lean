import StudyStats.Labels
import StudyStats.Library.Run
import StudyStats.Refinement

/-!
# Runs over the ledger

Uploads, edits and profile changes in any order. An upload is possible until the final
semester is recorded. Every state a run reaches agrees with some history, and the chain
properties of the stored records are read off the closed form of that history.

## Main results

* `run_chain` — the records of every reachable state form a chain that ends at the user.
-/

namespace StudyStats

open Dart StatFunction

variable {D : Type} [Floating D]

/-- What the user does. -/
inductive Action (D : Type) [Floating D] where
  | upload (sheet : Sheet) (now : Timestamp)
  | edit (e : Edit)
  | profile (p : Profile D)

/-- The device and the profile last filled in on it. -/
structure World (D : Type) [Floating D] where
  profile : Profile D
  device : Device D (List Course)

namespace World

variable (w : World D)

def updates : List (Update D (List Course)) := HiveUpdate.getUpdateList w.device

/-- The record of the final semester is in the list. -/
def FinalRecorded : Prop := w.profile.finalLabel ∈ labels w.device

instance : Decidable w.FinalRecorded := by unfold FinalRecorded; infer_instance

/-- One action, if it is possible. -/
def step (w : World D) : Action D → Option (World D)
  | .upload sheet now =>
    if w.FinalRecorded then none
    else (UpdateScreen.uploadResult w.profile.gradingSystem sheet now w.device).map
      fun d => { w with device := d }
  | .edit e => (e.apply w.profile.gradingSystem w.device).map fun d => { w with device := d }
  | .profile p => some { profile := p, device := p.install w.device }

/-- The profile `p` has just been filled in. -/
def start (p : Profile D) (d : Device D (List Course)) : World D :=
  { profile := p, device := p.install d }

end World

open World

/-! ## Every reachable state agrees with a history -/

theorem getElem?_records (gs : String) (s : ℕ) (prev : D) (us : List Sheet) (i : ℕ) :
    (records gs s prev us)[i]? =
      us[i]?.map (record gs (s + i) (cgpaAfter s prev (us.take i))) := by
  induction us generalizing s prev i with
  | nil => rfl
  | cons u us ih =>
    cases i with
    | zero => rfl
    | succ i =>
      simp only [records, List.getElem?_cons_succ, List.take_succ_cons, cgpaAfter, ih]
      rw [show s + 1 + i = s + (i + 1) by omega]

/-- The stored record with `i` records before it. -/
theorem Ledger.getElem? {p : Profile D} {us : List Sheet} {d : Device D (List Course)}
    (h : Ledger p us d) {i : ℕ} {r : Update D (List Course)}
    (hr : (HiveUpdate.getUpdateList d)[i]? = some r) :
    ∃ u, us[i]? = some u ∧ r.content = record p.gradingSystem (p.start + i)
      (cgpaAfter p.start p.cgpa (us.take i)) u := by
  have hmap : ((HiveUpdate.getUpdateList d).map Update.content)[i]? = some r.content := by
    rw [List.getElem?_map, hr]; rfl
  rw [h.records_eq, getElem?_records, Option.map_eq_some_iff] at hmap
  obtain ⟨u, hu, hcontent⟩ := hmap
  exact ⟨u, hu, hcontent.symm⟩

/-- The labels of a history number its semesters. -/
theorem Ledger.labels_eq {p : Profile D} {us : List Sheet} {d : Device D (List Course)}
    (h : Ledger p us d) :
    labels d = p.firstLabels us.length := by
  apply List.ext_getElem?
  intro i
  have hlen : (HiveUpdate.getUpdateList d).length = us.length := h.length_eq
  by_cases hi : i < us.length
  · have hr := List.getElem?_eq_getElem (hlen ▸ hi : i < (HiveUpdate.getUpdateList d).length)
    obtain ⟨u, hu, hcontent⟩ := h.getElem? hr
    have hlabel := congrArg Update.label hcontent
    rw [labels, List.getElem?_map, hr, Enrolment.firstLabels, List.getElem?_map,
      List.getElem?_range hi]
    exact congrArg some hlabel
  · rw [List.getElem?_eq_none (by simp [labels, hlen]; omega),
      List.getElem?_eq_none (by simpa [Enrolment.firstLabels] using hi)]

/-- The final semester is recorded exactly when the history is full. -/
theorem Ledger.finalRecorded_iff {w : World D} {us : List Sheet}
    (h : Ledger w.profile us w.device) :
    w.FinalRecorded ↔ w.profile.start + us.length = 2 * w.profile.year + 1 := by
  rw [World.FinalRecorded, h.labels_eq, w.profile.finalLabel_mem_iff h.fits]

/-- What an action does to the history. -/
def history (us : List Sheet) : Action D → List Sheet
  | .upload sheet _ => us ++ [sheet]
  | .edit e => us.set (us.length - 1 - e.index) e.sheet
  | .profile _ => []

theorem Ledger.step {w w' : World D} {us : List Sheet} {a : Action D}
    (h : Ledger w.profile us w.device) (hstep : w.step a = some w') :
    Ledger w'.profile (history us a) w'.device := by
  cases a with
  | upload sheet now =>
    have hfinal := h.finalRecorded_iff
    simp only [World.step] at hstep
    split_ifs at hstep with hrecorded
    obtain ⟨d', hup, rfl⟩ := Option.map_eq_some_iff.1 hstep
    have := h.fits
    exact h.upload (by by_contra hlt; exact hrecorded (hfinal.2 (by omega))) hup
  | edit e =>
    obtain ⟨d', hedit, rfl⟩ := Option.map_eq_some_iff.1 hstep
    exact h.edit hedit
  | profile p =>
    cases hstep
    exact Ledger.install p w.device

/-- A run leaves a device that agrees with some history. -/
theorem exists_history {w w' : World D} {us : List Sheet} {as : List (Action D)}
    (h : Ledger w.profile us w.device) (hrun : Machine.run World.step as w = some w') :
    ∃ vs, Ledger w'.profile vs w'.device :=
  Machine.invariant (fun w => ∃ vs, Ledger w.profile vs w.device)
    (fun _ _ _ ⟨_, h⟩ hstep => ⟨_, h.step hstep⟩) ⟨us, h⟩ hrun

/-! ## The chain -/

variable (D) in
/-- The semester number of a level and semester as a record holds them. -/
def semesterNumber (semester level : String) : Option ℤ := do
  getCurrentSemester D semester (← intParse level)

theorem semesterNumber_eq {s : ℕ} (h1 : 1 ≤ s) (h2 : s ≤ 18) :
    semesterNumber D (semesterOf s) (levelText s) = some (s : ℤ) := by
  simp [semesterNumber, intParse_levelText h1 h2, getCurrentSemester_eq (D := D) h1 h2]

/-- The records, oldest first, form a chain from the profile to the user. -/
structure World.Chain (w : World D) : Prop where
  /-- A record's CGPA is computed from its own fields. -/
  own : ∀ r ∈ w.updates, ∃ text,
    getCGPA D r.pastSemester (Floating.toString r.gpa) r.semester r.level = some text ∧
      Floating.parse text = some r.cgpa
  /-- The oldest record starts from the profile. -/
  first : ∀ r, w.updates[0]? = some r →
    getCurrentSemester D w.profile.semester w.profile.level =
        semesterNumber D r.semester r.level ∧
      r.pastSemester = Floating.toString w.profile.cgpa
  /-- A record is one semester after the record before it and starts from its CGPA. -/
  next : ∀ (i : ℕ) r r', w.updates[i]? = some r → w.updates[i + 1]? = some r' →
    (∃ n, semesterNumber D r.semester r.level = some n ∧
      semesterNumber D r'.semester r'.level = some (n + 1)) ∧
    r'.pastSemester = Floating.toString r.cgpa
  /-- The user has the newest record's CGPA and stands one semester after it, except after
  the final semester. -/
  user : ∀ r, w.updates.getLast? = some r → ∃ user level semester,
    w.device.auth.user = some user ∧ user.currentCgpa = some r.cgpa ∧
      user.level = some level ∧ user.semester = some semester ∧
      ∃ n, semesterNumber D r.semester r.level = some n ∧
        getCurrentSemester D semester level = some (min (n + 1) (2 * w.profile.year))

/-- The `i`-th record of a device that agrees with the history, field by field. -/
structure Ledger.At (p : Profile D) (us : List Sheet) (i : ℕ) (r : Update D (List Course)) :
    Prop where
  number : semesterNumber D r.semester r.level = some ((p.start + i : ℕ) : ℤ)
  own : getCGPA D r.pastSemester (Floating.toString r.gpa) r.semester r.level =
    some (cgpaText (cgpaAfter p.start p.cgpa (us.take i)) r.gpa (p.start + i))
  past : r.pastSemester = Floating.toString (cgpaAfter p.start p.cgpa (us.take i))
  cgpa_eq : r.cgpa = nextCgpa (cgpaAfter p.start p.cgpa (us.take i)) r.gpa (p.start + i)
  cgpa_after : r.cgpa = cgpaAfter p.start p.cgpa (us.take (i + 1))

theorem Ledger.at {p : Profile D} {us : List Sheet} {d : Device D (List Course)}
    (h : Ledger p us d) {i : ℕ} {r : Update D (List Course)}
    (hr : (HiveUpdate.getUpdateList d)[i]? = some r) : Ledger.At p us i r := by
  obtain ⟨u, hu, hcontent⟩ := h.getElem? hr
  have hlt := (List.getElem?_eq_some_iff.1 hu).1
  have hfits := h.fits
  have hyear := p.year_le
  have h1 : 1 ≤ p.start + i := p.one_le_start.trans (Nat.le_add_right _ _)
  have h2 : p.start + i ≤ 18 := by omega
  have hgpa : r.gpa = gpa D u := congrArg Update.gpa hcontent
  have hcgpa : r.cgpa = nextCgpa _ (gpa D u) _ := congrArg Update.cgpa hcontent
  have hlevel : r.level = levelText _ := congrArg Update.level hcontent
  have hsemester : r.semester = semesterOf _ := congrArg Update.semester hcontent
  have hpast : r.pastSemester = Floating.toString _ := congrArg Update.pastSemester hcontent
  refine ⟨?_, ?_, hpast, hgpa ▸ hcgpa, ?_⟩
  · rw [hlevel, hsemester, semesterNumber_eq h1 h2]
  · rw [hlevel, hsemester, hpast, getCGPA_eq _ _ h1 h2]
  · have htake : us.take (i + 1) = us.take i ++ [u] := by
      rw [List.take_add_one, hu]; rfl
    rw [htake, cgpaAfter_append, hcgpa, List.length_take, min_eq_left hlt.le]
    rfl

theorem Ledger.chain {w : World D} {us : List Sheet} (h : Ledger w.profile us w.device) :
    w.Chain where
  own r hr := by
    obtain ⟨i, hi⟩ := List.getElem?_of_mem hr
    have hat := h.at hi
    exact ⟨_, hat.own, by rw [parse_cgpaText, hat.cgpa_eq]⟩
  first r hr := by
    have hat := h.at hr
    refine ⟨?_, hat.past⟩
    rw [hat.number, ← w.profile.levelOf_start, ← w.profile.semesterOf_start]
    have := w.profile.start_le
    have := w.profile.year_le
    exact getCurrentSemester_eq w.profile.one_le_start (by omega)
  next i r r' hr hr' := by
    have hat := h.at hr
    have hat' := h.at hr'
    refine ⟨⟨_, hat.number, hat'.number⟩, ?_⟩
    rw [hat'.past, hat.cgpa_after]
  user r hr := by
    have hlen : w.updates.length = us.length := h.length_eq
    rw [List.getLast?_eq_getElem?] at hr
    have hlt := (List.getElem?_eq_some_iff.1 hr).1
    have hat := h.at hr
    have hpos := w.profile.one_le_position us.length
    have hpos' := w.profile.position_le us.length
    have hyear := w.profile.year_le
    refine ⟨_, _, _, by rw [h.auth_eq]; rfl, ?_, rfl, rfl, _, hat.number, ?_⟩
    · rw [hat.cgpa_after, show w.updates.length - 1 + 1 = us.length by omega, List.take_length]
    · rw [getCurrentSemester_eq hpos (by omega)]
      simp only [Enrolment.position, Option.some.injEq]
      push_cast
      omega

/-- Whatever uploads, edits and profile changes a run is made of, the records it leaves form
a chain. -/
theorem run_chain (p : Profile D) (d : Device D (List Course)) {as : List (Action D)}
    {w : World D} (hrun : Machine.run World.step as (World.start p d) = some w) : w.Chain := by
  obtain ⟨us, h⟩ := exists_history (Ledger.install p d) hrun
  exact h.chain

/-- A first-year user of a four-year programme. -/
def freshman : Profile Double where
  gradingSystem := "5"
  courseData :=
    { year := some 4, courses := fun _ _ => some [⟨"Calculus", "MATH101", .int 3⟩] }
  user :=
    { id := "u1", name := "Ada", email := "", password := "", matricNo := "", image := ""
      university := none, faculty := none, course := none, level := some 100
      semester := some "1st", currentCgpa := some (Floating.ofInt (-1)), premium := false }
  year := 4
  level := 100
  semester := "1st"
  cgpa := Floating.ofInt (-1)
  year_pos := by decide
  year_le := by decide
  data_year := rfl
  user_level := rfl
  user_semester := rfl
  user_cgpa := rfl
  level_mod := by decide
  level_ge := by decide
  level_le := by decide
  semester_eq := .inl rfl
  cgpa_eq := iff_of_true rfl ⟨rfl, rfl⟩
  cgpa_range := fun h => absurd ⟨rfl, rfl⟩ h

/-- One course of three units with the given grade. -/
def singleCourse (grade : String) (known : (gradeScore grade).isSome) : Sheet where
  courses := [⟨"Calculus", "MATH101", .int 3⟩]
  grades := [grade]
  length_eq := rfl
  known := by simpa using known
  units_nonneg := by decide
  total_pos := by decide

def blankDevice : Device Double (List Course) := ⟨⟨none, none⟩, none⟩

/-- Two uploads and an edit of the older record. -/
theorem run_chain_freshman : ∃ w, Machine.run World.step
    [.upload (singleCourse "A" rfl) 1, .upload (singleCourse "C" rfl) 2,
      .edit ⟨1, singleCourse "B" rfl, 3, fun _ => 4, true⟩]
    (World.start freshman blankDevice) = some w ∧ w.updates.length = 2 ∧ w.Chain := by
  have hlength : (Machine.run World.step
      [.upload (singleCourse "A" rfl) 1, .upload (singleCourse "C" rfl) 2,
        .edit ⟨1, singleCourse "B" rfl, 3, fun _ => 4, true⟩]
      (World.start freshman blankDevice)).map (·.updates.length) = some 2 := by
    decide +kernel
  obtain ⟨w, hrun, hw⟩ := Option.map_eq_some_iff.1 hlength
  exact ⟨w, hrun, hw, run_chain freshman blankDevice hrun⟩

end StudyStats
