import StudyStats.Drift
import StudyStats.SyncLedger
import StudyStats.WeightedGpa

/-!
# Better grades

Saving a past record again with better grades. Over exact numbers the new GPA is at least the
old one, each later CGPA is a rounded mean over the one before it, and both keep the order.

## Main results

* `improvement_raises` — no CGPA is lowered, and the older records stay as they are.
-/

namespace StudyStats

open Dart StatFunction

/-! ## CGPAs are monotone -/

variable {s : ℕ} {c c' g g' : ℚ}

theorem nextCgpa_nonneg (hs : 1 ≤ s) (hc : c = -1 ∨ 0 ≤ c) (hg : 0 ≤ g) : 0 ≤ nextCgpa c g s := by
  rw [nextCgpa_exact]
  split_ifs with hfirst
  · exact hg
  · exact step_nonneg hs (hc.resolve_left hfirst) hg

/-- Over the same CGPA a better GPA gives a better one, also in the first semester. -/
theorem nextCgpa_mono_gpa (hs : 1 ≤ s) (hg : g ≤ g') : nextCgpa c g s ≤ nextCgpa c g' s := by
  rw [nextCgpa_exact, nextCgpa_exact]
  split_ifs
  · exact hg
  · exact RunningMean.step_mono Exact.hundredth_mono hs le_rfl hg

theorem nextCgpa_mono (hs : 1 ≤ s) (h0 : 0 ≤ c) (hc : c ≤ c') :
    nextCgpa c g s ≤ nextCgpa c' g s := by
  rw [nextCgpa_exact, nextCgpa_exact, if_neg (ne_sentinel h0), if_neg (ne_sentinel (h0.trans hc))]
  exact RunningMean.step_mono Exact.hundredth_mono hs hc le_rfl

theorem cgpaAfter_nonneg (hs : 1 ≤ s) (hc : c = -1 ∨ 0 ≤ c) (us : List Sheet) :
    cgpaAfter s c us = -1 ∨ 0 ≤ cgpaAfter s c us := by
  induction us generalizing s c with
  | nil => exact hc
  | cons u us ih => exact ih (by omega) (.inr (nextCgpa_nonneg hs hc (gpa_nonneg u)))

theorem cgpaAfter_mono (hs : 1 ≤ s) (h0 : 0 ≤ c) (hc : c ≤ c') (us : List Sheet) :
    cgpaAfter s c us ≤ cgpaAfter s c' us := by
  induction us generalizing s c c' with
  | nil => exact hc
  | cons u us ih =>
    exact ih (by omega) (nextCgpa_nonneg hs (.inr h0) (gpa_nonneg u)) (nextCgpa_mono hs h0 hc)

/-- The records keep the order of the CGPAs they start from. -/
theorem records_mono (gs : String) (hs : 1 ≤ s) (h0 : 0 ≤ c) (hc : c ≤ c') (us : List Sheet) :
    List.Forall₂ (fun r r' => r.cgpa ≤ r'.cgpa) (records gs s c us) (records gs s c' us) := by
  induction us generalizing s c c' with
  | nil => exact .nil
  | cons u us ih =>
    have hnext : nextCgpa c (gpa ℚ u) s ≤ nextCgpa c' (gpa ℚ u) s := nextCgpa_mono hs h0 hc
    have hrest := ih (s := s + 1) (by omega) (nextCgpa_nonneg hs (.inr h0) (gpa_nonneg u)) hnext
    rw [records, records, List.forall₂_cons, cgpa_record, cgpa_record]
    exact ⟨hnext, hrest⟩

/-! ## A sheet improved in a history -/

section History

variable {older newer : List Sheet} {u u' : Sheet}

theorem cgpaAfter_improves (hs : 1 ≤ s) (hc : c = -1 ∨ 0 ≤ c) (h : u.Improves u') :
    cgpaAfter s c (older ++ u :: newer) ≤ cgpaAfter s c (older ++ u' :: newer) := by
  have hs' : 1 ≤ s + older.length := by omega
  have hprev := cgpaAfter_nonneg hs hc older
  rw [cgpaAfter_append, cgpaAfter_append, cgpaAfter, cgpaAfter]
  exact cgpaAfter_mono (Nat.le_add_left 1 _) (nextCgpa_nonneg hs' hprev (gpa_nonneg u))
    (nextCgpa_mono_gpa hs' h.gpa_le) newer

theorem records_improves (gs : String) (hs : 1 ≤ s) (hc : c = -1 ∨ 0 ≤ c) (h : u.Improves u') :
    List.Forall₂ (fun r r' => r.cgpa ≤ r'.cgpa) (records gs s c (older ++ u :: newer))
      (records gs s c (older ++ u' :: newer)) := by
  have hs' : 1 ≤ s + older.length := by omega
  have hprev := cgpaAfter_nonneg hs hc older
  have hnext : nextCgpa (cgpaAfter s c older) (gpa ℚ u) (s + older.length) ≤
      nextCgpa (cgpaAfter s c older) (gpa ℚ u') (s + older.length) :=
    nextCgpa_mono_gpa hs' h.gpa_le
  have hnewer := records_mono gs (Nat.le_add_left 1 (s + older.length))
    (nextCgpa_nonneg hs' hprev (gpa_nonneg u)) hnext newer
  have holder : List.Forall₂ (fun r r' : Update ℚ (List Course) => r.cgpa ≤ r'.cgpa)
      (records gs s c older) (records gs s c older) := List.forall₂_same.2 fun _ _ => le_rfl
  have hedited : List.Forall₂ (fun r r' : Update ℚ (List Course) => r.cgpa ≤ r'.cgpa)
      (records gs (s + older.length) (cgpaAfter s c older) (u :: newer))
      (records gs (s + older.length) (cgpaAfter s c older) (u' :: newer)) := by
    rw [records, records, List.forall₂_cons, cgpa_record, cgpa_record]
    exact ⟨hnext, hnewer⟩
  rw [records_append, records_append]
  exact List.rel_append holder hedited

end History

theorem Profile.cgpa_nonneg (p : Profile ℚ) : p.cgpa = -1 ∨ 0 ≤ p.cgpa := by
  by_cases hfirst : p.level = 100 ∧ p.semester = "1st"
  · exact .inl (ofInt_sentinel ▸ p.cgpa_eq.2 hfirst)
  · have hle : Floating.le (Floating.ofInt 0) p.cgpa = true := (p.cgpa_range hfirst).1
    have : ((0 : ℤ) : ℚ) ≤ p.cgpa := of_decide_eq_true hle
    exact .inr (by exact_mod_cast this)

/-! ## The edit -/

theorem forall₂_cgpa {l l' : List (Update ℚ (List Course))}
    (h : List.Forall₂ (fun r r' => r.cgpa ≤ r'.cgpa) (l.map Update.content)
      (l'.map Update.content)) : List.Forall₂ (fun r r' => r.cgpa ≤ r'.cgpa) l l' := by
  rw [List.forall₂_map_left_iff, List.forall₂_map_right_iff] at h
  exact h

/-- An edit leaves the older records as they are. -/
theorem take_editRecord {gs : String} {sheet : Sheet} {now : Timestamp} {clock : ℕ → Timestamp}
    {accepted : Bool} {d d' : Device ℚ (List Course)} {older newer : List (Update ℚ (List Course))}
    {r : Update ℚ (List Course)} (hd : HiveUpdate.getUpdateList d = older ++ r :: newer)
    (hedit : UpdateScreen.editRecord gs newer.length sheet now clock accepted d = some d') :
    (HiveUpdate.getUpdateList d').take older.length = older := by
  simp only [UpdateScreen.editRecord, Option.bind_eq_bind, Option.pure_def,
    Option.bind_eq_some_iff, Option.some.injEq] at hedit
  obtain ⟨opened, -, screen, -, rfl⟩ := hedit
  rcases getUpdateList_edit sheet.courses now clock accepted screen hd with
    hsame | ⟨fresh, hfresh, -⟩
  · rw [hsame, hd, List.take_left]
  · rw [hfresh, List.take_left]

/-- Grades are as good as the record's if they are as good as its sheet's. -/
theorem improves_of_content {gs : String} {r : Update ℚ (List Course)} {u sheet : Sheet}
    (hr : r.content = record gs s c u) (hcourses : sheet.courses = r.courseData)
    (hgrades : List.Forall₂ (fun score g => score ≤ points g) r.scores sheet.grades) :
    u.Improves sheet := by
  have hdata : r.courseData = u.courses := congrArg Update.courseData hr
  have hscores : r.scores = u.scores := congrArg Update.scores hr
  refine ⟨hcourses.trans hdata, ?_⟩
  rwa [hscores, u.scores_eq, List.forall₂_map_left_iff] at hgrades

/-- After any run of uploads, edits and profile changes, let a record be saved again with
grades that are at least as good, for the same courses. Then no record's CGPA and not the
user's is lower than before, and the older records are what they were. -/
theorem improvement_raises (p : Profile ℚ) (d : Device ℚ (List Course))
    {as : List (Action ℚ)} {w : World ℚ}
    (hrun : Machine.run World.step as (World.start p d) = some w) {e : Edit}
    {r : Update ℚ (List Course)} (hr : w.updates.reverse[e.index]? = some r)
    (hcourses : e.sheet.courses = r.courseData)
    (hgrades : List.Forall₂ (fun score g => score ≤ points g) r.scores e.sheet.grades)
    {w' : World ℚ} (hedit : w.step (.edit e) = some w') :
    List.Forall₂ (fun r r' => r.cgpa ≤ r'.cgpa) w.updates w'.updates ∧
    (∃ c c', w.device.auth.currentCgpa = some c ∧ w'.device.auth.currentCgpa = some c' ∧
      c ≤ c') ∧
    w'.updates.take (w.updates.length - 1 - e.index) =
      w.updates.take (w.updates.length - 1 - e.index) := by
  obtain ⟨us, h⟩ := exists_history (Ledger.install p d) hrun
  have h' := h.step hedit
  obtain ⟨d', happly, rfl⟩ := Option.map_eq_some_iff.1 hedit
  obtain ⟨older, u, newer, before, after, rfl, hnewer, hlist, hafterLength, -, hu, -⟩ :=
    h.split hr
  have hupdates : w.updates = before ++ r :: after := hlist
  have hset : history (D := ℚ) (older ++ u :: newer) (.edit e) = older ++ e.sheet :: newer := by
    simp [history, ← hnewer]
  rw [hset] at h'
  clear hset
  have himproves : u.Improves e.sheet := improves_of_content hu hcourses hgrades
  have hstart := w.profile.one_le_start
  have hcgpa := w.profile.cgpa_nonneg
  have hraised : cgpaAfter w.profile.start w.profile.cgpa (older ++ u :: newer) ≤
      cgpaAfter w.profile.start w.profile.cgpa (older ++ e.sheet :: newer) :=
    cgpaAfter_improves hstart hcgpa himproves
  refine ⟨forall₂_cgpa ?_, ⟨_, _, ?_, ?_, hraised⟩, ?_⟩
  · rw [World.updates, World.updates, h.records_eq, h'.records_eq]
    exact records_improves _ hstart hcgpa himproves
  · rw [h.auth_eq]
    rfl
  · rw [h'.auth_eq]
    rfl
  · have hlength : w.updates.length - 1 - e.index = before.length := by
      rw [hupdates, List.length_append, List.length_cons]
      omega
    rw [hlength, hupdates, List.take_left]
    unfold Edit.apply at happly
    rw [← hafterLength] at happly
    exact take_editRecord hlist happly

/-- A first-year user of a four-year programme. -/
def novice : Profile ℚ where
  gradingSystem := "5"
  courseData := freshman.courseData
  user := { id := "u1", name := "Ada", email := "", password := "", matricNo := "", image := ""
            university := none, faculty := none, course := none, level := some 100
            semester := some "1st", currentCgpa := some (-1), premium := false }
  year := 4
  level := 100
  semester := "1st"
  cgpa := -1
  year_pos := freshman.year_pos
  year_le := freshman.year_le
  data_year := freshman.data_year
  user_level := rfl
  user_semester := rfl
  user_cgpa := rfl
  level_mod := freshman.level_mod
  level_ge := freshman.level_ge
  level_le := freshman.level_le
  semester_eq := freshman.semester_eq
  cgpa_eq := iff_of_true (by decide) ⟨rfl, rfl⟩
  cgpa_range := fun h => absurd ⟨rfl, rfl⟩ h

/-- Two uploads, then the first one with an A for its C. -/
theorem improvement_raises_novice : ∃ w w',
    Machine.run World.step
      [.upload (singleCourse "C" rfl) 1, .upload (singleCourse "D" rfl) 2]
      (World.start novice ⟨⟨none, none⟩, none⟩) = some w ∧
    w.step (.edit ⟨1, singleCourse "A" rfl, 3, fun _ => 4, true⟩) = some w' ∧
    List.Forall₂ (fun r r' => r.cgpa ≤ r'.cgpa) w.updates w'.updates ∧
    w'.updates.map (·.cgpa) = [5, 7 / 2] := by
  let e : Edit := ⟨1, singleCourse "A" rfl, 3, fun _ => 4, true⟩
  have hcheck : (Machine.run World.step
      [.upload (singleCourse "C" rfl) 1, .upload (singleCourse "D" rfl) 2]
      (World.start novice ⟨⟨none, none⟩, none⟩)).bind (fun w =>
        w.updates.reverse[1]?.bind fun r => (w.step (.edit e)).map fun w' =>
          (w.updates.length, r.scores, r.courseData, w'.updates.map (·.cgpa))) =
      some (2, [3], (singleCourse "A" rfl).courses, [5, 7 / 2]) := by
    decide +kernel
  obtain ⟨w, hrun, hw⟩ := Option.bind_eq_some_iff.1 hcheck
  obtain ⟨r, hr, hw⟩ := Option.bind_eq_some_iff.1 hw
  obtain ⟨w', hedit, hw⟩ := Option.map_eq_some_iff.1 hw
  simp only [Prod.mk.injEq] at hw
  obtain ⟨-, hscores, hcourses, hcgpas⟩ := hw
  refine ⟨w, w', hrun, hedit, ?_, hcgpas⟩
  refine (improvement_raises novice _ hrun hr hcourses.symm ?_ hedit).1
  rw [hscores]
  exact .cons (by decide) .nil

end StudyStats
