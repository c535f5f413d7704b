import StudyStats.Dart.Exact
import StudyStats.History
import StudyStats.Library.RunningMean
import StudyStats.WeightedGpa

/-!
# Drift of the CGPA

An upload feeds the rounded CGPA of one semester into the average of the next. Seen from the
provider it is `getCGPA` over the user's fields, then `incrementUser`. Over exact numbers the
stored CGPA is a running mean that is rounded to hundredths.

## Main definitions

* `AuthProvider.uploadGpa` — what an upload does to the provider.
* `Stands` — where the user of a provider is.

## Main results

* `auth_upload` — the button of a fresh screen does just that.
* `Stands.run` — a run of uploads.
* `cgpa_drift` — how far the stored CGPA is from the exact mean.
* `Ledger.abs_cgpa_sub_le` — the same for a history, whatever edits it has had.
-/

namespace StudyStats

open Dart StatFunction

section Uploads

variable {D C : Type} [Floating D]

namespace AuthProvider

/-- What an upload with the result `gpa` does to the provider. -/
def uploadGpa (gpa : String) (auth : AuthProvider D C) : Option (AuthProvider D C) := do
  let user ← auth.user
  let semester ← user.semester
  let currentGpa ← user.currentCgpa
  let level ← user.level
  let cgpa ← getCGPA D (Floating.toString currentGpa) gpa semester (toString level)
  auth.incrementUser cgpa

/-- One semester with the GPA `g`. -/
def record (auth : AuthProvider D C) (g : D) : Option (AuthProvider D C) :=
  auth.uploadGpa (Floating.toString g)

/-- The semester number `getCGPA` computes for the user. -/
def semesterNumber (auth : AuthProvider D C) : Option ℤ := do
  let user ← auth.user
  StudyStats.semesterNumber D (← user.semester) (toString (← user.level))

def currentCgpa (auth : AuthProvider D C) : Option D := auth.user.bind User.currentCgpa

end AuthProvider

/-- A press of the button of a fresh screen, whatever it was filled in with. -/
theorem auth_upload {contents : C → List Course} {empty courseData : C} {gs : String}
    {screen : UpdateScreen C} {scores : List String} {courses : List Course} {now : Timestamp}
    {d : Device D C} {gpa cgpa : String} {score : List ℤ}
    (hinit : UpdateScreen.init contents empty gs d.auth = some screen)
    (hcompute : { screen with courseData, scores }.compute D courses = some (gpa, score, cgpa)) :
    ({ screen with courseData, scores }.upload courses now d).auth =
      (d.auth.uploadGpa gpa).getD d.auth := by
  have hcgpa : getCGPA D screen.currentGpa gpa screen.semester screen.level = some cgpa := by
    simp only [UpdateScreen.compute, Option.bind_eq_bind, Option.bind_eq_some_iff] at hcompute
    obtain ⟨ok, -, hcompute⟩ := hcompute
    split_ifs at hcompute
    simp only [Option.bind_eq_some_iff, Option.pure_def, Option.some.injEq,
      Prod.mk.injEq] at hcompute
    obtain ⟨_, -, _, hcgpa, rfl, -, rfl⟩ := hcompute
    exact hcgpa
  have hauth : ({ screen with courseData, scores }.upload courses now d).auth =
      (d.auth.incrementUser cgpa).getD d.auth := by
    unfold UpdateScreen.upload saveUpdateGrade
    rw [hcompute]
    dsimp only
    split <;> rfl
  simp only [UpdateScreen.init, Option.bind_eq_bind, Option.bind_eq_some_iff] at hinit
  obtain ⟨user, huser, semester, hsemester, currentGpa, hcurrent, level, hlevel, hinit⟩ := hinit
  have hfields : screen.semester = semester ∧ screen.currentGpa = Floating.toString currentGpa ∧
      screen.level = toString level := by
    split at hinit <;> (cases hinit; exact ⟨rfl, rfl, rfl⟩)
  rw [hfields.1, hfields.2.1, hfields.2.2] at hcgpa
  rw [hauth, AuthProvider.uploadGpa, huser]
  simp only [hsemester, hcurrent, hlevel, hcgpa, Option.bind_eq_bind, Option.bind_some]

/-! ## Where the user stands -/

/-- The user is in the `s`-th semester of a programme of `year` years, with the CGPA `c`. -/
structure Stands (year s : ℕ) (c : D) (auth : AuthProvider D C) : Prop where
  programme : ∃ data, auth.courseData = some data ∧ data.year = some (year : ℤ)
  position : ∃ user, auth.user = some user ∧ user.level = some (levelOf s : ℤ) ∧
    user.semester = some (semesterOf s) ∧ user.currentCgpa = some c

/-- The CGPA after more semesters with the given GPAs. -/
def cgpaOver : ℕ → D → List D → D
  | _, c, [] => c
  | s, c, g :: gs => cgpaOver (s + 1) (nextCgpa c g s) gs

theorem cgpaAfter_eq (s : ℕ) (c : D) (us : List Sheet) :
    cgpaAfter s c us = cgpaOver s c (us.map (gpa D)) := by
  induction us generalizing s c with
  | nil => rfl
  | cons u us ih => exact ih (s + 1) (nextCgpa c (gpa D u) s)

variable {year s : ℕ} {c : D} {auth : AuthProvider D C}

omit [Floating D] in
theorem Stands.currentCgpa_eq (h : Stands year s c auth) : auth.currentCgpa = some c := by
  obtain ⟨user, huser, -, -, hc⟩ := h.position
  rw [AuthProvider.currentCgpa, huser, Option.bind_some, hc]

theorem Stands.number (h : Stands year s c auth) (h1 : 1 ≤ s) (h2 : s ≤ 18) :
    auth.semesterNumber = some (s : ℤ) := by
  obtain ⟨user, huser, hlevel, hsemester, -⟩ := h.position
  have hnumber := semesterNumber_eq (D := D) h1 h2
  unfold levelText at hnumber
  simp only [AuthProvider.semesterNumber, huser, hlevel, hsemester, Option.bind_eq_bind,
    Option.bind_some, hnumber]

theorem Stands.record (h : Stands year s c auth) (hy : year ≤ 9) (h1 : 1 ≤ s)
    (h2 : s ≤ 2 * year) (g : D) :
    ∃ auth', auth.record g = some auth' ∧ Stands year (advance year s) (nextCgpa c g s) auth' := by
  obtain ⟨data, hdata, hyear⟩ := h.programme
  obtain ⟨user, huser, hlevel, hsemester, hc⟩ := h.position
  have hcgpa := getCGPA_eq c g h1 (by omega)
  have hnext := nextPosition_eq hyear hy h1 h2
  rw [← hdata] at hnext
  unfold levelText at hcgpa
  refine ⟨{ auth with user := some { user with
    level := some (levelOf (advance year s) : ℤ), semester := some (semesterOf (advance year s))
    currentCgpa := some (nextCgpa c g s) } }, ?_, ⟨data, hdata, hyear⟩, _, rfl, rfl, rfl, rfl⟩
  simp only [AuthProvider.record, AuthProvider.uploadGpa, huser, hsemester, hc, hlevel, hcgpa,
    Option.bind_eq_bind, Option.bind_some]
  rw [incrementUser_position huser hlevel hsemester (parse_cgpaText c g s), hnext]
  rfl

/-- A run of uploads that records no semester after the last. -/
theorem Stands.run (h : Stands year s c auth) (hy : year ≤ 9) (h1 : 1 ≤ s) (h2 : s ≤ 2 * year)
    (gs : List D) (hgs : s + gs.length ≤ 2 * year + 1) :
    ∃ auth', Machine.run AuthProvider.record gs auth = some auth' ∧
      Stands year (min (s + gs.length) (2 * year)) (cgpaOver s c gs) auth' := by
  induction gs generalizing s c auth with
  | nil => exact ⟨auth, rfl, by rwa [List.length_nil, add_zero, min_eq_left h2]⟩
  | cons g gs ih =>
    obtain ⟨auth₁, hrecord, h₁⟩ := h.record hy h1 h2 g
    rw [List.length_cons] at hgs ⊢
    rcases h2.lt_or_eq with hlt | rfl
    · rw [advance_of_lt hlt] at h₁
      obtain ⟨auth', hrun, h'⟩ := ih h₁ (by omega) (by omega) (by omega)
      refine ⟨auth', Machine.run_cons.2 ⟨auth₁, hrecord, hrun⟩, ?_⟩
      rwa [show s + (gs.length + 1) = s + 1 + gs.length by omega]
    · -- the last semester, and nothing after it
      obtain rfl : gs = [] := List.length_eq_zero_iff.1 (by omega)
      refine ⟨auth₁, Machine.run_cons.2 ⟨auth₁, hrecord, rfl⟩, ?_⟩
      rw [advance, min_eq_right (by omega)] at h₁
      rwa [min_eq_right (by omega)]

end Uploads

/-! ## Exact numbers -/

theorem ofInt_sentinel : (Floating.ofInt (-1) : ℚ) = -1 := by
  change ((-1 : ℤ) : ℚ) = -1
  norm_num

theorem toString_eq_sentinel {c : ℚ} : Floating.toString c = "-1.0" ↔ c = -1 := by
  have htext : Exact.toString (-1) = "-1.0" := by decide +kernel
  rw [← htext]
  exact Exact.toString_injective.eq_iff

/-- The first GPA is taken over as it is, every later one is averaged and rounded. -/
theorem nextCgpa_exact (c g : ℚ) (s : ℕ) :
    nextCgpa c g s = if c = -1 then g else RunningMean.step Exact.hundredth s c g := by
  have hparse := parse_cgpaText c g s
  unfold cgpaText at hparse
  simp only [toString_eq_sentinel] at hparse
  split_ifs at hparse ⊢
  · rw [Floating.parse_toString, Option.some.injEq] at hparse
    exact hparse.symm
  · have hrounded :=
      Exact.parse_toStringAsFixed2 ((c * (((s : ℤ) - 1 : ℤ) : ℚ) + g) / ((s : ℤ) : ℚ))
    have := Option.some.inj (hparse.symm.trans hrounded)
    rw [this, RunningMean.step]
    push_cast
    rfl

theorem ne_sentinel {c : ℚ} (h : 0 ≤ c) : c ≠ -1 := by
  intro hc
  rw [hc] at h
  norm_num at h

theorem hundredth_nonneg {q : ℚ} (h : 0 ≤ q) : 0 ≤ Exact.hundredth q := by
  have hzero : Exact.hundredth 0 = 0 := by exact_mod_cast Exact.hundredth_intCast 0
  exact hzero ▸ Exact.hundredth_mono h

theorem step_nonneg {s : ℕ} (hs : 1 ≤ s) {c g : ℚ} (hc : 0 ≤ c) (hg : 0 ≤ g) :
    0 ≤ RunningMean.step Exact.hundredth s c g := by
  have hpred : (0 : ℚ) ≤ s - 1 := sub_nonneg.2 (by exact_mod_cast hs)
  exact hundredth_nonneg (div_nonneg (add_nonneg (mul_nonneg hc hpred) hg) (Nat.cast_nonneg s))

/-- From a CGPA on, which is never negative, the CGPAs are a running mean. -/
theorem cgpaOver_exact {s : ℕ} (hs : 1 ≤ s) {c : ℚ} (hc : 0 ≤ c) {gs : List ℚ}
    (hgs : ∀ g ∈ gs, 0 ≤ g) : cgpaOver s c gs = RunningMean.run Exact.hundredth s c gs := by
  induction gs generalizing s c with
  | nil => rfl
  | cons g gs ih =>
    obtain ⟨hg, hrest⟩ := List.forall_mem_cons.1 hgs
    rw [cgpaOver, RunningMean.run, nextCgpa_exact, if_neg (ne_sentinel hc)]
    exact ih (by omega) (step_nonneg hs hc hg) hrest

/-- The same from the start of a programme. -/
theorem cgpaOver_first {g : ℚ} {gs : List ℚ} (hgs : ∀ x ∈ g :: gs, 0 ≤ x) :
    cgpaOver 1 (-1) (g :: gs) = RunningMean.run Exact.hundredth 2 g gs := by
  obtain ⟨hg, hrest⟩ := List.forall_mem_cons.1 hgs
  rw [cgpaOver, nextCgpa_exact, if_pos rfl]
  exact cgpaOver_exact (by omega) hg hrest

/-- After `n` semesters the CGPA is at most `0.005 * ((n + 1) / 2 - 1 / n)` away from the mean. -/
theorem abs_cgpaOver_first_sub_le {gs : List ℚ} (hpos : 1 ≤ gs.length)
    (hgs : ∀ g ∈ gs, 0 ≤ g) :
    |cgpaOver 1 (-1) gs - gs.sum / gs.length| ≤
      0.005 * (((gs.length : ℚ) + 1) / 2 - 1 / gs.length) := by
  obtain ⟨g, rest, rfl⟩ := List.exists_cons_of_length_pos hpos
  rw [cgpaOver_first hgs]
  have hdrift := RunningMean.drift Exact.abs_hundredth_sub_le (s := 2) (by omega) g rest
  have harith := RunningMean.two_mul_arith (K := ℚ) 2 rest.length
  have hn : (0 : ℚ) < rest.length + 1 := by positivity
  generalize RunningMean.run Exact.hundredth 2 g rest = c at hdrift ⊢
  rw [List.sum_cons, List.length_cons]
  push_cast at hdrift harith ⊢
  have hscaled : c - (g + rest.sum) / (rest.length + 1) =
      ((2 - 1 + rest.length) * c - ((2 - 1) * g + rest.sum)) / (rest.length + 1) := by
    field_simp
    ring
  rw [hscaled, abs_div, abs_of_pos hn, div_le_iff₀ hn]
  calc |(2 - 1 + rest.length) * c - ((2 - 1) * g + rest.sum)|
      ≤ 1 / 200 * RunningMean.arith ℚ 2 rest.length := hdrift
    _ = 0.005 * (((rest.length : ℚ) + 1 + 1) / 2 - 1 / (rest.length + 1)) *
          (rest.length + 1) := by
        field_simp
        linarith

/-- In a run of `n` uploads from the start of a programme the `k`-th is averaged as the `k`-th
semester, and the CGPA is at most `0.005 * ((n + 1) / 2 - 1 / n)` away from the mean. -/
theorem cgpa_drift {C : Type} {year : ℕ} (hy1 : 1 ≤ year) (hy : year ≤ 9) (system : ℤ)
    {auth : AuthProvider ℚ C} (hstart : Stands year 1 (-1) auth) (gs : List ℚ)
    (hpos : 1 ≤ gs.length) (hlen : gs.length ≤ 2 * year)
    (hgs : ∀ g ∈ gs, 0 ≤ g ∧ g ≤ system) :
    (∀ k < gs.length, ∃ before, Machine.run AuthProvider.record (gs.take k) auth = some before ∧
      before.semesterNumber = some ((k + 1 : ℕ) : ℤ)) ∧
    ∃ auth' c, Machine.run AuthProvider.record gs auth = some auth' ∧
      auth'.currentCgpa = some c ∧
      |c - gs.sum / gs.length| ≤ 0.005 * (((gs.length : ℚ) + 1) / 2 - 1 / gs.length) := by
  constructor
  · intro k hk
    have htake : (gs.take k).length = k := List.length_take_of_le hk.le
    obtain ⟨before, hrun, hbefore⟩ := hstart.run hy le_rfl (by omega) (gs.take k) (by omega)
    refine ⟨before, hrun, ?_⟩
    rw [htake, min_eq_left (by omega), add_comm] at hbefore
    exact hbefore.number (by omega) (by omega)
  · obtain ⟨auth', hrun, h'⟩ := hstart.run hy le_rfl (by omega) gs (by omega)
    exact ⟨auth', _, hrun, h'.currentCgpa_eq,
      abs_cgpaOver_first_sub_le hpos fun g hg => (hgs g hg).1⟩

/-- A newcomer to a four-year programme. -/
def newcomer : AuthProvider ℚ (List Course) where
  user := some {
    id := "u1", name := "Ada", email := "", password := "", matricNo := "", image := ""
    university := none, faculty := none, course := none, level := some 100
    semester := some "1st", currentCgpa := some (-1), premium := false }
  courseData := some freshman.courseData

theorem newcomer_stands : Stands 4 1 (-1) newcomer :=
  ⟨⟨_, rfl, rfl⟩, _, rfl, rfl, rfl, rfl⟩

/-- Three uploads whose mean is no hundredth. -/
theorem cgpa_drift_newcomer : ∃ auth' c,
    Machine.run AuthProvider.record [4, 3, 3] newcomer = some auth' ∧
    auth'.currentCgpa = some c ∧ |c - 10 / 3| ≤ 0.005 * ((3 + 1) / 2 - 1 / 3) := by
  obtain ⟨auth', c, hrun, hc, hbound⟩ :=
    (cgpa_drift (by norm_num) (by norm_num) 5 newcomer_stands [4, 3, 3] (by norm_num)
      (by norm_num) (by norm_num)).2
  refine ⟨auth', c, hrun, hc, ?_⟩
  norm_num at hbound ⊢
  exact hbound

/-! ## The ledger -/

theorem map_gpa_records (gs : String) (s : ℕ) (c : ℚ) (us : List Sheet) :
    (records gs s c us).map Update.gpa = us.map (gpa ℚ) := by
  induction us generalizing s c with
  | nil => rfl
  | cons u us ih => rw [records, List.map_cons, List.map_cons, ih]; rfl

theorem Profile.cgpa_of_start (p : Profile ℚ) (hstart : p.start = 1) : p.cgpa = -1 := by
  have hge := p.level_ge
  have hmod := p.level_mod
  unfold Enrolment.start at hstart
  refine ofInt_sentinel ▸ p.cgpa_eq.2 ⟨?_, p.semester_eq.resolve_right fun hsecond => ?_⟩
  · split at hstart <;> omega
  · rw [if_pos hsecond] at hstart
    omega

/-- The CGPA of a history from the start of a programme, whatever edits have led to it, is that
close to the mean of the recorded GPAs. -/
theorem Ledger.abs_cgpa_sub_le {p : Profile ℚ} {us : List Sheet} {d : Device ℚ (List Course)}
    (h : Ledger p us d) (hstart : p.start = 1) (hus : us ≠ []) :
    ∃ c, d.auth.currentCgpa = some c ∧
      |c - ((HiveUpdate.getUpdateList d).map Update.gpa).sum / us.length| ≤
        0.005 * (((us.length : ℚ) + 1) / 2 - 1 / us.length) := by
  have hgpa : (HiveUpdate.getUpdateList d).map Update.gpa = us.map (gpa ℚ) := by
    have hmap := congrArg (List.map Update.gpa) h.records_eq
    rw [List.map_map, map_gpa_records] at hmap
    exact hmap
  refine ⟨cgpaAfter p.start p.cgpa us, by rw [h.auth_eq]; rfl, ?_⟩
  rw [cgpaAfter_eq, hstart, p.cgpa_of_start hstart, hgpa]
  have hpos : 1 ≤ (us.map (gpa ℚ)).length := by
    rw [List.length_map]
    exact List.length_pos_iff.2 hus
  have hbound := abs_cgpaOver_first_sub_le hpos (List.forall_mem_map.2 fun u _ => gpa_nonneg u)
  rwa [List.length_map] at hbound

end StudyStats
