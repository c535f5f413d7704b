import StudyStats.Dart.Exact
import StudyStats.Library.WeightedMean
import StudyStats.Sheet

/-!
# The GPA as a weighted mean

Over exact numbers the two loops behind `getResult`, the switch that makes the scores and the
one that reads them by position, come to the mean of the grade points weighted by the units.

## Main results

* `gpa_eq_mean` — the GPA of a sheet is a weighted mean.
* `getResult_weightedMean` — what follows for `getResult`.
-/

namespace StudyStats

open Dart StatFunction WeightedMean

/-- The points of a grade; an unknown one has none. -/
def points (grade : String) : ℤ := (gradeScore grade).getD 0

theorem gradeScore_eq_points {g : String} (h : (gradeScore g).isSome) :
    gradeScore g = some (points g) := by
  obtain ⟨s, hs⟩ := Option.isSome_iff_exists.1 h
  rw [points, hs, Option.getD_some]

theorem points_eq {g : String} {s : ℤ} (h : gradeScore g = some s) : points g = s := by
  rw [points, h, Option.getD_some]

theorem points_nonneg (g : String) : 0 ≤ points g := by
  unfold points gradeScore
  split <;> decide

theorem filterMap_gradeScore {grades : List String} (h : ∀ g ∈ grades, (gradeScore g).isSome) :
    grades.filterMap gradeScore = grades.map points := by
  induction grades with
  | nil => rfl
  | cons g gs ih =>
    rw [List.filterMap_cons_some (gradeScore_eq_points (h g List.mem_cons_self)), List.map_cons,
      ih fun g' hg' => h g' (List.mem_cons_of_mem _ hg')]

/-- Units and points of a graded course. -/
def line (p : Course × String) : ℚ × ℚ := (p.1.credit, points p.2)

namespace Sheet

variable (sheet : Sheet)

def graded : List (Course × String) := sheet.courses.zip sheet.grades

/-- Units and points of each course. -/
def lines : List (ℚ × ℚ) := sheet.graded.map line

theorem fst_graded : sheet.graded.map Prod.fst = sheet.courses :=
  List.map_fst_zip sheet.length_eq.ge

theorem snd_graded : sheet.graded.map Prod.snd = sheet.grades :=
  List.map_snd_zip sheet.length_eq.le

theorem scores_eq : sheet.scores = sheet.grades.map points := filterMap_gradeScore sheet.known

theorem weight_lines : weight sheet.lines = ((sheet.courses.map Course.credit).sum : ℤ) := by
  rw [lines, weight, List.map_map, ← sheet.fst_graded, List.map_map, Int.cast_list_sum,
    List.map_map]
  rfl

theorem weight_lines_pos : 0 < weight sheet.lines := by
  rw [weight_lines]
  exact_mod_cast sheet.total_pos

theorem lines_nonneg : ∀ p ∈ sheet.lines, 0 ≤ p.1 := by
  intro p hp
  obtain ⟨q, hq, rfl⟩ := List.mem_map.1 hp
  have hmem : q.1 ∈ sheet.courses := sheet.fst_graded ▸ List.mem_map_of_mem hq
  have hcredit := (sheet.units_nonneg q.1 hmem).2
  simpa [line] using hcredit

end Sheet

theorem totals_exact (lines : List (ℤ × ℤ)) (x y : ℚ) :
    totals ℚ lines (x, y) = (x + moment (lines.map fun p => ((p.1 : ℚ), (p.2 : ℚ))),
      y + weight (lines.map fun p => ((p.1 : ℚ), (p.2 : ℚ)))) := by
  induction lines generalizing x y with
  | nil => simp [totals]
  | cons p lines ih =>
    obtain ⟨n, s⟩ := p
    rw [List.map_cons, moment_cons, weight_cons, ← add_assoc, ← add_assoc, ← ih]
    have hproduct : x + n * s = Floating.add x (Floating.ofInt (Floating.intMul ℚ n s)) := by
      change x + n * s = x + ((n * s : ℤ) : ℚ)
      push_cast
      rfl
    rw [hproduct]
    rfl

/-- The GPA of a sheet is the weighted mean of its points. -/
theorem gpa_eq_mean (sheet : Sheet) : gpa ℚ sheet = mean sheet.lines := by
  have hlines : ((sheet.courses.map Course.credit).zip sheet.scores).map
      (fun p => ((p.1 : ℚ), (p.2 : ℚ))) = sheet.lines := by
    rw [sheet.scores_eq, List.zip_map, List.map_map]
    rfl
  have htotals := totals_exact ((sheet.courses.map Course.credit).zip sheet.scores) 0 0
  rw [hlines, zero_add, zero_add] at htotals
  have hzero : (Floating.ofInt 0 : ℚ) = 0 := Int.cast_zero
  unfold gpa
  rw [hzero, htotals]
  rfl

theorem gpa_nonneg (sheet : Sheet) : 0 ≤ gpa ℚ sheet := by
  rw [gpa_eq_mean]
  refine WeightedMean.le_mean sheet.lines_nonneg sheet.weight_lines_pos fun p hp _ => ?_
  obtain ⟨q, -, rfl⟩ := List.mem_map.1 hp
  have hpoints : (0 : ℚ) ≤ points q.2 := by exact_mod_cast points_nonneg q.2
  exact hpoints

theorem getResult_exact (sheet : Sheet) (system : ℤ) :
    getResult ℚ sheet.grades system sheet.courses =
      some (Floating.toString (mean sheet.lines)) := by
  rw [getResult_eq, gpa_eq_mean]

/-! ## What `getResult` does not look at -/

section Symmetry

variable {sheet : Sheet} {system : ℤ}

theorem getResult_perm {courses : List Course} {grades : List String}
    (hlen : grades.length = courses.length) (hperm : (courses.zip grades).Perm sheet.graded) :
    getResult ℚ grades system courses = getResult ℚ sheet.grades system sheet.courses := by
  have hcourses : courses.Perm sheet.courses := by
    simpa only [List.map_fst_zip hlen.ge, sheet.fst_graded] using hperm.map Prod.fst
  have hgrades : grades.Perm sheet.grades := by
    simpa only [List.map_snd_zip hlen.le, sheet.snd_graded] using hperm.map Prod.snd
  let other : Sheet :=
    { courses, grades, length_eq := hlen
      known := fun g hg => sheet.known g (hgrades.mem_iff.1 hg)
      units_nonneg := fun c hc => sheet.units_nonneg c (hcourses.mem_iff.1 hc)
      total_pos := by
        rw [(hcourses.map Course.credit).sum_eq]
        exact sheet.total_pos }
  rw [getResult_exact sheet system, Sheet.lines, ← mean_perm (hperm.map line)]
  exact getResult_exact other system

variable {cs cs' : List Course} {c : Course} {gs gs' : List String} {g : String}

theorem Sheet.lines_split (hcourses : sheet.courses = cs ++ c :: cs')
    (hgrades : sheet.grades = gs ++ g :: gs') (hlen : gs.length = cs.length) :
    sheet.lines = (cs.zip gs).map line ++ line (c, g) :: (cs'.zip gs').map line := by
  rw [lines, graded, hcourses, hgrades, List.zip_append hlen.symm, List.zip_cons_cons,
    List.map_append, List.map_cons]

/-- A course of no units may be left out. -/
theorem getResult_without (hcourses : sheet.courses = cs ++ c :: cs')
    (hgrades : sheet.grades = gs ++ g :: gs') (hlen : gs.length = cs.length)
    (hzero : c.credit = 0) : getResult ℚ (gs ++ gs') system (cs ++ cs') =
      getResult ℚ sheet.grades system sheet.courses := by
  have hlength := sheet.length_eq
  have hknown := sheet.known
  have hunits := sheet.units_nonneg
  have htotal := sheet.total_pos
  rw [hcourses] at hlength hunits htotal
  rw [hgrades] at hlength hknown
  let rest : Sheet :=
    { courses := cs ++ cs'
      grades := gs ++ gs'
      length_eq := by simp at hlength ⊢; omega
      known := fun g' hg' => hknown g' (by simp at hg' ⊢; tauto)
      units_nonneg := fun c' hc' => hunits c' (by simp at hc' ⊢; tauto)
      total_pos := by simpa [hzero] using htotal }
  have hline : line (c, g) = (0, (points g : ℚ)) := by simp [line, hzero]
  rw [getResult_exact sheet system, sheet.lines_split hcourses hgrades hlen, hline,
    mean_of_weight_zero, ← List.map_append, ← List.zip_append hlen.symm]
  exact getResult_exact rest system

end Symmetry

/-! ## Better grades -/

/-- Other grades for the same courses. -/
def Sheet.regrade (sheet : Sheet) (grades : List String)
    (hlen : grades.length = sheet.courses.length) (hknown : ∀ g ∈ grades, (gradeScore g).isSome) :
    Sheet :=
  { sheet with grades, length_eq := hlen, known := hknown }

/-- The other sheet has the same courses, with grades at least as good. -/
structure Sheet.Improves (sheet sheet' : Sheet) : Prop where
  courses : sheet'.courses = sheet.courses
  grades : List.Forall₂ (fun g g' => points g ≤ points g') sheet.grades sheet'.grades

theorem raised_zip {courses : List Course} {gs gs' : List String}
    (hunits : ∀ c ∈ courses, 0 ≤ c.credit)
    (h : List.Forall₂ (fun g g' => points g ≤ points g') gs gs') :
    Raised ((courses.zip gs).map line) ((courses.zip gs').map line) := by
  induction h generalizing courses with
  | nil => simp
  | cons hg _ ih =>
    cases courses with
    | nil => simp
    | cons c cs =>
      obtain ⟨hc, hcs⟩ := List.forall_mem_cons.1 hunits
      exact .cons ⟨rfl, by simpa [line] using hc, by simpa [line] using hg⟩ (ih hcs)

/-- Better grades for the same courses never lower the GPA. -/
theorem Sheet.Improves.gpa_le {sheet sheet' : Sheet} (h : sheet.Improves sheet') :
    gpa ℚ sheet ≤ gpa ℚ sheet' := by
  have hraised := raised_zip (fun c hc => (sheet.units_nonneg c hc).2) h.grades
  rw [gpa_eq_mean, gpa_eq_mean]
  refine mean_mono ?_ sheet.weight_lines_pos
  rw [Sheet.lines, Sheet.lines, Sheet.graded, Sheet.graded, h.courses]
  exact hraised

/-- One better grade. -/
theorem getResult_better {sheet : Sheet} {system : ℤ} {cs cs' : List Course} {c : Course}
    {gs gs' : List String} {g g' : String} {x x' : ℤ} (hcourses : sheet.courses = cs ++ c :: cs')
    (hgrades : sheet.grades = gs ++ g :: gs') (hlen : gs.length = cs.length)
    (hx : gradeScore g = some x) (hx' : gradeScore g' = some x') (hlt : x < x') :
    ∃ q, getResult ℚ (gs ++ g' :: gs') system sheet.courses = some (Floating.toString q) ∧
      mean sheet.lines ≤ q ∧ (0 < c.credit → mean sheet.lines < q) := by
  have hknown := sheet.known
  have hlength := sheet.length_eq
  rw [hgrades] at hknown hlength
  have hknown' : ∀ h ∈ gs ++ g' :: gs', (gradeScore h).isSome := by
    intro h hh
    rcases List.mem_append.1 hh with hh | hh
    · exact hknown h (List.mem_append_left _ hh)
    · rcases List.mem_cons.1 hh with rfl | hh
      · exact Option.isSome_of_eq_some hx'
      · exact hknown h (List.mem_append_right _ (List.mem_cons_of_mem _ hh))
  let better := sheet.regrade (gs ++ g' :: gs') (by simpa using hlength) hknown'
  have hpoints : points g < points g' := by rwa [points_eq hx, points_eq hx']
  refine ⟨mean better.lines, getResult_exact better system, ?_, fun hcredit => ?_⟩
  · have himproves : sheet.Improves better := by
      refine ⟨rfl, hgrades ▸ List.rel_append ?_ (.cons hpoints.le ?_)⟩ <;>
        exact List.forall₂_refl _
    simpa only [gpa_eq_mean] using himproves.gpa_le
  · have hsplit := sheet.lines_split hcourses hgrades hlen
    have hsplit' : better.lines = _ := better.lines_split hcourses rfl hlen
    have hpos := sheet.weight_lines_pos
    rw [hsplit] at hpos ⊢
    rw [hsplit']
    exact mean_lt_mean (by exact_mod_cast hcredit) (by exact_mod_cast hpoints) hpos

/-- `getResult` is the weighted mean of the points. It lies between the least and the
greatest points among the courses that count, it does not look at the order or at courses
without units, and a better grade raises it where its course counts. -/
theorem getResult_weightedMean (sheet : Sheet) (system : ℤ) :
    getResult ℚ sheet.grades system sheet.courses = some (Floating.toString
      ((sheet.lines.map fun p => p.1 * p.2).sum / (sheet.lines.map Prod.fst).sum)) ∧
    (∃ p ∈ sheet.lines, 0 < p.1 ∧ (∀ q ∈ sheet.lines, 0 < q.1 → p.2 ≤ q.2) ∧
      p.2 ≤ mean sheet.lines) ∧
    (∃ p ∈ sheet.lines, 0 < p.1 ∧ (∀ q ∈ sheet.lines, 0 < q.1 → q.2 ≤ p.2) ∧
      mean sheet.lines ≤ p.2) ∧
    (∀ courses grades, grades.length = courses.length →
      (courses.zip grades).Perm (sheet.courses.zip sheet.grades) →
      getResult ℚ grades system courses = getResult ℚ sheet.grades system sheet.courses) ∧
    (∀ cs c cs' gs g gs', sheet.courses = cs ++ c :: cs' → sheet.grades = gs ++ g :: gs' →
      gs.length = cs.length → c.credit = 0 →
      getResult ℚ (gs ++ gs') system (cs ++ cs') =
        getResult ℚ sheet.grades system sheet.courses) ∧
    ∀ cs c cs' gs g gs' g' x x', sheet.courses = cs ++ c :: cs' → sheet.grades = gs ++ g :: gs' →
      gs.length = cs.length → gradeScore g = some x → gradeScore g' = some x' → x < x' →
      ∃ q, getResult ℚ (gs ++ g' :: gs') system sheet.courses = some (Floating.toString q) ∧
        mean sheet.lines ≤ q ∧ (0 < c.credit → mean sheet.lines < q) := by
  have hnonneg := sheet.lines_nonneg
  have hpos := sheet.weight_lines_pos
  refine ⟨getResult_exact sheet system, exists_le_mean hnonneg hpos, exists_mean_le hnonneg hpos,
    ?_, ?_, ?_⟩
  · intro courses grades hlen hperm
    exact getResult_perm hlen hperm
  · intro cs c cs' gs g gs' hcourses hgrades hlen hzero
    exact getResult_without hcourses hgrades hlen hzero
  · intro cs c cs' gs g gs' g' x x' hcourses hgrades hlen hx hx' hlt
    exact getResult_better hcourses hgrades hlen hx hx' hlt

end StudyStats
