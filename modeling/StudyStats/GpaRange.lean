import StudyStats.History
import StudyStats.SmallSheet

/-!
# GPAs outside the grading system

The courses of a grade screen can be edited freely and their units are whatever `int.parse`
reads. The only check before the division is that every course has a grade.

## Main results

* `gpaInRange_iff` — the course lists all of whose sheets have a GPA of the grading system.
-/

namespace StudyStats

open Dart StatFunction

/-! ## Screens -/

namespace Screen

variable {s : Screen (List Course)}

def system {C : Type} : Screen C → ℤ
  | quick s => s.system
  | simulate s | update s _ => s.system

/-- One operation on the tiles of a screen. -/
def edit (s : Screen (List Course)) (e : CourseEdit) : Option (Screen (List Course)) :=
  (e.apply s.grades s.courseData s.scores).map fun (courses, scores) =>
    (s.withCourseData courses).withScores scores

/-- The screen as it is when it has opened over a catalogue list. -/
structure Fresh (gs : String) (catalogue : List Course) (s : Screen (List Course)) : Prop where
  courseData : s.courseData = catalogue
  scores : s.scores = List.replicate catalogue.length "-1"
  grades : s.grades = (getGrade gs).2
  system : s.system = (getGrade gs).1

theorem fresh_quick {D : Type} {gs : String} {auth : AuthProvider D (List Course)}
    {screen : QuickScreen (List Course)} (hinit : QuickScreen.init id [] gs auth = some screen)
    {catalogue : List Course}
    (hlist : auth.courseList screen.level screen.semester = some catalogue) :
    Fresh gs catalogue (.quick screen) := by
  simp only [QuickScreen.init, Option.bind_eq_bind, Option.bind_eq_some_iff] at hinit
  obtain ⟨user, -, semester, -, level, -, hinit⟩ := hinit
  split at hinit
  · next hnone =>
    cases hinit
    cases hnone.symm.trans hlist
  · next courseData hsome =>
    cases hinit
    cases hsome.symm.trans hlist
    exact ⟨rfl, rfl, rfl, rfl⟩

/-- The update screen, and with it the simulator. -/
theorem fresh_update {D : Type} [Floating D] {gs : String} {auth : AuthProvider D (List Course)}
    {screen : UpdateScreen (List Course)} (hinit : UpdateScreen.init id [] gs auth = some screen)
    {catalogue : List Course}
    (hlist : auth.courseList screen.level screen.semester = some catalogue) :
    Fresh gs catalogue (.update screen none) ∧ Fresh gs catalogue (.simulate screen) := by
  simp only [UpdateScreen.init, Option.bind_eq_bind, Option.bind_eq_some_iff] at hinit
  obtain ⟨user, -, semester, -, _, -, level, -, hinit⟩ := hinit
  split at hinit
  · next hnone =>
    cases hinit
    cases hnone.symm.trans hlist
  · next courseData hsome =>
    cases hinit
    cases hsome.symm.trans hlist
    exact ⟨⟨rfl, rfl, rfl, rfl⟩, ⟨rfl, rfl, rfl, rfl⟩⟩

/-- What the operations keep of a screen of the school. -/
structure Kept (gs : String) (s : Screen (List Course)) : Prop where
  length_eq : s.scores.length = s.courseData.length
  offered : ∀ g ∈ s.scores, g = "-1" ∨ g ∈ (getGrade gs).2
  grades : s.grades = (getGrade gs).2
  system : s.system = (getGrade gs).1

theorem Fresh.kept {gs : String} {catalogue : List Course} (h : s.Fresh gs catalogue) :
    s.Kept gs where
  length_eq := by rw [h.scores, h.courseData, List.length_replicate]
  offered g hg := by
    rw [h.scores] at hg
    exact .inl (List.eq_of_mem_replicate hg)
  grades := h.grades
  system := h.system

theorem Kept.edit {gs : String} (h : s.Kept gs) {e : CourseEdit} {s' : Screen (List Course)}
    (hedit : s.edit e = some s') : s'.Kept gs := by
  obtain ⟨⟨courses, scores⟩, happly, rfl⟩ := Option.map_eq_some_iff.1 hedit
  obtain ⟨hlen, hscores⟩ := CourseEdit.apply_scores happly h.length_eq
  rw [h.grades] at hscores
  have hgrades := h.grades
  have hsystem := h.system
  refine ⟨?_, ?_, ?_, ?_⟩
  · cases s <;> exact hlen
  · intro g hg
    rw [scores_withScores] at hg
    rcases hscores g hg with hold | hnew
    · exact h.offered g hold
    · exact hnew
  · cases s <;> exact hgrades
  · cases s <;> exact hsystem

theorem Kept.run {gs : String} (h : s.Kept gs) {edits : List CourseEdit}
    {s' : Screen (List Course)} (hrun : Machine.run Screen.edit edits s = some s') :
    s'.Kept gs :=
  Machine.invariant (Kept gs) (fun _ _ _ h hedit => h.edit hedit) h hrun

@[simp] theorem withScores_withScores (l l' : List String) :
    (s.withScores l).withScores l' = s.withScores l' := by
  cases s <;> rfl

/-- Choose the grades of the tiles from the `i`-th on. -/
def choices : ℕ → List String → List CourseEdit
  | _, [] => []
  | i, g :: gs => .choose i g :: choices (i + 1) gs

/-- Any offered grades can be chosen. -/
theorem run_choices {picked rest target : List String} (hscores : s.scores = picked ++ rest)
    (hcourses : s.courseData.length = (picked ++ rest).length)
    (hlen : target.length = rest.length) (hoffered : ∀ g ∈ target, g ∈ s.grades) :
    Machine.run Screen.edit (choices picked.length target) s =
      some (s.withScores (picked ++ target)) := by
  induction target generalizing s picked rest with
  | nil =>
    obtain rfl : rest = [] := List.length_eq_zero_iff.1 hlen.symm
    rw [← hscores]
    cases s <;> rfl
  | cons g target ih =>
    obtain ⟨r, rest, rfl⟩ := List.exists_cons_of_length_eq_add_one hlen.symm
    obtain ⟨hg, htarget⟩ := List.forall_mem_cons.1 hoffered
    have hlt : picked.length < s.courseData.length ∧ picked.length < s.scores.length := by
      rw [hcourses, hscores]
      simp
    have hset : s.scores.set picked.length g = (picked ++ [g]) ++ rest := by
      rw [hscores]
      simp
    have hedit : s.edit (.choose picked.length g) =
        some (s.withScores ((picked ++ [g]) ++ rest)) := by
      rw [Screen.edit, CourseEdit.apply, if_pos ⟨hlt.1, hlt.2, hg⟩, hset]
      cases s <;> rfl
    have hrest := @ih (s.withScores ((picked ++ [g]) ++ rest)) (picked ++ [g]) rest
      (scores_withScores _ _) (by simpa using hcourses) (by simpa using hlen)
      (by simpa using htarget)
    rw [List.length_append, List.length_singleton, withScores_withScores] at hrest
    rw [choices, Machine.run, hedit, Option.bind_some, hrest, ← List.append_cons]

@[simp] theorem system_withScores (l : List String) : (s.withScores l).system = s.system := by
  cases s <;> rfl

/-- Grades that are offered can be chosen in all tiles, and pass the check. -/
theorem Kept.choose {gs : String} (h : s.Kept gs) {target : List String}
    (hlen : target.length = s.courseData.length) (hoffered : ∀ g ∈ target, g ∈ (getGrade gs).2) :
    ∃ more s', Machine.run Screen.edit more s = some s' ∧ s'.courseData = s.courseData ∧
      s'.system = (getGrade gs).1 ∧ s'.scores = target ∧
      UpdateScreen.complete s'.courseData s'.scores = some true := by
  have hscores : s.scores = [] ++ s.scores := rfl
  have hrun := run_choices hscores h.length_eq.symm (hlen.trans h.length_eq.symm)
    (h.grades ▸ hoffered)
  refine ⟨_, _, hrun, courseData_withScores s _, (system_withScores _).trans h.system,
    scores_withScores s _, ?_⟩
  rw [courseData_withScores, scores_withScores]
  exact complete_sheet hlen.ge fun g hg => isSome_gradeScore_of_mem (hoffered g hg)

end Screen

/-! ## The verdict -/

/-- The school has the five-point system, the units are integers of one sign and their total
is not zero. -/
structure Gradable (gs : String) (courses : List Course) : Prop where
  five : gs = "5"
  units : ∀ c ∈ courses, c.units = .int c.credit
  sign : (∀ c ∈ courses, 0 ≤ c.credit) ∨ ∀ c ∈ courses, c.credit ≤ 0
  total : credits courses ≠ 0

theorem A_mem_grades (gs : String) : "A" ∈ (getGrade gs).2 := by
  unfold getGrade
  split_ifs <;> decide

/-- Units of both signs, one of them against the total. -/
theorem exists_against {courses : List Course} (hU : credits courses ≠ 0)
    (hsign : ¬((∀ c ∈ courses, 0 ≤ c.credit) ∨ ∀ c ∈ courses, c.credit ≤ 0)) :
    ∃ c ∈ courses, c.credit * credits courses < 0 := by
  simp only [not_or, not_forall, not_le] at hsign
  obtain ⟨⟨a, ha, hneg⟩, b, hb, hpos⟩ := hsign
  rcases lt_or_gt_of_ne hU with hU | hU
  · exact ⟨b, hb, mul_neg_of_pos_of_neg hpos hU⟩
  · exact ⟨a, ha, mul_neg_of_neg_of_pos hneg hU⟩

/-- The list is gradable if whatever grades are chosen give a GPA of the system. -/
theorem gradable_of_inRange {gs : String} {courses : List Course}
    (hsmall : 5 * magnitude courses ≤ 2 ^ 53)
    (h : ∀ scores : List String, scores.length = courses.length →
      (∀ g ∈ scores, g ∈ (getGrade gs).2) →
      ResultInRange (getGrade gs).1 courses scores) : Gradable gs courses := by
  have hunits : ∀ c ∈ courses, c.units = .int c.credit := by
    intro c hc
    cases hc' : c.units with
    | int n => rw [Course.credit, hc']
    | text text =>
      obtain ⟨_, _, _, _, hloop, _⟩ := h (courses.map fun _ => "A") (by simp)
        (by simp [A_mem_grades])
      rw [getResultLoop_text _ _ hc hc'] at hloop
      cases hloop
  have hsheet : ∀ scores : List String, scores.length = courses.length →
      (∀ g ∈ scores, g ∈ (getGrade gs).2) → SmallSheet courses scores :=
    fun scores hlen hoffered =>
      ⟨hsmall, hlen, fun g hg => isSome_gradeScore_of_mem (hoffered g hg), hunits⟩
  have hsystem : |(getGrade gs).1| ≤ 2 ^ 53 := by
    unfold getGrade
    split_ifs <;> norm_num
  have hrange := fun scores hlen hoffered =>
    ((hsheet scores hlen hoffered).inRange_iff hsystem).1 (h scores hlen hoffered)
  have hallA := hrange (courses.map fun _ => "A") (by simp) (by simp [A_mem_grades])
  have hU := hallA.1
  have hfive : gs = "5" := by
    by_contra hgs
    have hle := hallA.2.2
    rw [SmallSheet.round_all_A hU, getGrade, if_neg hgs] at hle
    norm_num at hle
  refine ⟨hfive, hunits, ?_, hU⟩
  by_contra hsign
  obtain ⟨c, hc, hneg⟩ := exists_against hU hsign
  refine (SmallSheet.earned_against_neg hc hneg).not_ge (hrange _ (by simp) ?_).2.1
  intro g hg
  obtain ⟨c', -, rfl⟩ := List.mem_map.1 hg
  rw [hfive, SmallSheet.against]
  split_ifs <;> decide

theorem Gradable.inRange {gs : String} {courses : List Course} {scores : List String}
    (h : Gradable gs courses) (hsmall : 5 * magnitude courses ≤ 2 ^ 53)
    (hlen : scores.length = courses.length) (hoffered : ∀ g ∈ scores, g ∈ (getGrade gs).2) :
    ResultInRange (getGrade gs).1 courses scores := by
  have hsheet : SmallSheet courses scores :=
    ⟨hsmall, hlen, fun g hg => isSome_gradeScore_of_mem (hoffered g hg), h.units⟩
  obtain ⟨hlow, hhigh⟩ := hsheet.quotient_bounds h.total h.sign
  have hfive : (getGrade gs).1 = 5 := by
    rw [h.five]
    rfl
  rw [hfive, hsheet.inRange_iff (by norm_num)]
  refine ⟨h.total, hlow, (abs_le.1 (Double.abs_round_le ?_ (by norm_num))).2⟩
  rw [abs_of_nonneg hlow]
  exact_mod_cast hhigh

/-- Whatever grades are chosen now, a sheet that passes the check has a GPA of the system. -/
def Screen.AllInRange (s : Screen (List Course)) : Prop :=
  ∀ more s', Machine.run Screen.edit more s = some s' → s'.courseData = s.courseData →
    UpdateScreen.complete s'.courseData s'.scores = some true →
    ResultInRange s'.system s'.courseData s'.scores

/-- Whatever has been done to the course list of a screen, its sheets all have a GPA of the
grading system if and only if the list is gradable. -/
theorem gpaInRange_iff {gs : String} {catalogue : List Course} {s₀ s : Screen (List Course)}
    (h₀ : s₀.Fresh gs catalogue) {edits : List CourseEdit}
    (hrun : Machine.run Screen.edit edits s₀ = some s)
    (hsmall : 5 * magnitude s.courseData ≤ 2 ^ 53) :
    s.AllInRange ↔ Gradable gs s.courseData := by
  have hkept := h₀.kept.run hrun
  constructor
  · intro h
    refine gradable_of_inRange hsmall fun scores hlen hoffered => ?_
    obtain ⟨more, s', hmore, hcourses, hsystem, hscores, hcomplete⟩ := hkept.choose hlen hoffered
    have hresult := h more s' hmore hcourses hcomplete
    rwa [hcourses, hsystem, hscores] at hresult
  · intro h more s' hmore hcourses hcomplete
    have hkept' := hkept.run hmore
    have hchosen := chosen_of_complete hcomplete hkept'.length_eq
    rw [hkept'.system, hcourses]
    exact h.inRange hsmall (hcourses ▸ hkept'.length_eq)
      fun g hg => (hkept'.offered g hg).resolve_left (hchosen g hg)

/-- The update screen of a first-year user, over a catalogue list of one course. -/
def freshmanScreen (gs : String) : Option (UpdateScreen (List Course)) :=
  UpdateScreen.init id [] gs
    (⟨some freshman.user, some freshman.courseData⟩ : AuthProvider Double (List Course))

/-- What the screen shows after some operations. -/
def freshmanSheet (gs : String) (edits : List CourseEdit) :
    Option (List Course × List String × ℤ) :=
  (freshmanScreen gs).bind fun s₀ =>
    (Machine.run Screen.edit edits (.update s₀ none)).map fun s =>
      (s.courseData, s.scores, s.system)

theorem exists_freshmanSheet {gs : String} {edits : List CourseEdit} {courses : List Course}
    {scores : List String} {system : ℤ}
    (h : freshmanSheet gs edits = some (courses, scores, system)) :
    ∃ s₀ s, freshmanScreen gs = some s₀ ∧
      Machine.run Screen.edit edits (.update s₀ none) = some s ∧
      s.courseData = courses ∧ s.scores = scores ∧ s.system = system := by
  obtain ⟨s₀, hinit, hedit⟩ := Option.bind_eq_some_iff.1 h
  obtain ⟨s, hrun, heq⟩ := Option.map_eq_some_iff.1 hedit
  simp only [Prod.mk.injEq] at heq
  exact ⟨s₀, s, hinit, hrun, heq⟩

/-- A second course is added to the list. -/
theorem gpaInRange_freshman : ∃ s₀ s, freshmanScreen "5" = some s₀ ∧
    Machine.run Screen.edit [.add "Physics" "PHY101" "2"] (.update s₀ none) = some s ∧
    (s.AllInRange ↔ Gradable "5" s.courseData) ∧ s.AllInRange := by
  have hsheet : freshmanSheet "5" [.add "Physics" "PHY101" "2"] =
      some ([⟨"Calculus", "MATH101", .int 3⟩, ⟨"Physics", "PHY101", .int 2⟩],
        ["-1", "-1"], 5) := by
    decide +kernel
  obtain ⟨s₀, s, hinit, hrun, hcourses, -, -⟩ := exists_freshmanSheet hsheet
  have hsemester : (freshmanScreen "5").map (·.semester) = some "1st" := by decide +kernel
  rw [hinit, Option.map_some, Option.some.injEq] at hsemester
  have hlist : (⟨some freshman.user, some freshman.courseData⟩ :
      AuthProvider Double (List Course)).courseList s₀.level s₀.semester =
      some [⟨"Calculus", "MATH101", .int 3⟩] := by
    rw [hsemester]
    rfl
  have hiff := gpaInRange_iff (Screen.fresh_update hinit hlist).1 hrun
    (by rw [hcourses]; decide)
  refine ⟨s₀, s, hinit, hrun, hiff, hiff.2 ?_⟩
  rw [hcourses]
  exact ⟨rfl, by decide, .inl (by decide), by decide⟩

/-- Without its one course a list has no GPA, and on the four-point system an A counts
five. -/
theorem gpaInRange_fails :
    (∃ s₀ s, freshmanScreen "5" = some s₀ ∧
      Machine.run Screen.edit [.delete 0] (.update s₀ none) = some s ∧
      UpdateScreen.complete s.courseData s.scores = some true ∧
      getResult Double s.scores s.system s.courseData = some "NaN" ∧
      ¬ResultInRange s.system s.courseData s.scores) ∧
    ∃ s₀ s, freshmanScreen "4" = some s₀ ∧
      Machine.run Screen.edit [.choose 0 "A"] (.update s₀ none) = some s ∧
      s.system = 4 ∧ UpdateScreen.complete s.courseData s.scores = some true ∧
      getResult Double s.scores s.system s.courseData = some "5.0" ∧
      ¬ResultInRange s.system s.courseData s.scores := by
  constructor
  · have hsheet : freshmanSheet "5" [.delete 0] = some ([], [], 5) := by decide +kernel
    obtain ⟨s₀, s, hinit, hrun, hcourses, hscores, hsystem⟩ := exists_freshmanSheet hsheet
    refine ⟨s₀, s, hinit, hrun, ?_⟩
    rw [hcourses, hscores, hsystem]
    refine ⟨rfl, by decide +kernel, ?_⟩
    rintro ⟨uXg, units, text, x, hloop, hne, -⟩
    cases hloop
    exact hne false Double.ofInt_zero
  · have hsheet : freshmanSheet "4" [.choose 0 "A"] =
        some ([⟨"Calculus", "MATH101", .int 3⟩], ["A"], 4) := by
      decide +kernel
    obtain ⟨s₀, s, hinit, hrun, hcourses, hscores, hsystem⟩ := exists_freshmanSheet hsheet
    have hgpa : getResult Double ["A"] 4 [⟨"Calculus", "MATH101", .int 3⟩] = some "5.0" := by
      decide +kernel
    refine ⟨s₀, s, hinit, hrun, ?_⟩
    rw [hcourses, hscores, hsystem]
    refine ⟨rfl, rfl, hgpa, ?_⟩
    rintro ⟨uXg, units, text, x, -, -, htext, hx, -, hle⟩
    rw [hgpa, Option.some.injEq] at htext
    have hfive : (Double.parse "5.0").map (fun x => Double.le x (.ofInt 4)) = some false := by
      decide +kernel
    rw [htext, hx, Option.map_some, hle] at hfive
    cases hfive

end StudyStats
