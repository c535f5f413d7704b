import StudyStats.ProfileEdit

/-!
# The starting CGPA

Both profile forms take the CGPA as a text. It is compared with the grading system where both
are numbers, and a text that is none only passes if it is empty; the edit form also turns the
text of the sentinel away. The first semester has no text field, but a text that was typed
before is still checked.

## Main definitions

* `AcceptsExactly` — the texts a form takes are the meaningful ones.

## Main results

* `startingCgpa_iff` — the texts for which the two forms do that.
-/

namespace StudyStats

open Dart

variable {C : Type}

def FillProfileFunction.levels : List String := ["100", "200", "300", "400", "500", "600"]

def FillProfileFunction.semester : List String := ["1st", "2nd"]

/-- A finite number in `[0, system]`. -/
def InRange (system x : Double) : Prop := x.IsFinite ∧ 0 ≤ x.val ∧ x.val ≤ system.val

namespace FillProfileScreen

/-- The position with no results yet. -/
abbrev First (screen : FillProfileScreen C) : Prop :=
  screen.semester = "1st" ∧ screen.level = "100"

/-- Everything but the CGPA is chosen, with a level the course has. -/
structure Chosen (screen : FillProfileScreen C) (system : Double) : Prop where
  universities : screen.universities ≠ []
  faculty : screen.faculty ≠ ""
  course : screen.course ≠ ""
  level : screen.level ∈ FillProfileFunction.levels
  semester : screen.semester ∈ FillProfileFunction.semester
  gradePoint : Double.parse screen.gradePoint = some system
  finite : system.IsFinite
  nonneg : 0 ≤ system.val
  fits : ∃ data level year, screen.courseData = some data ∧
    (substring screen.level 0 1).bind intParse = some level ∧
    intParse data.yearText = some year ∧ level ≤ year

/-- The submit goes through and the user has the CGPA `x`. -/
def Submits (hashPassword : String → String) (w : SignUp Double C) (screen : FillProfileScreen C)
    (x : Double) : Prop :=
  screen.passes Double = true ∧ ∃ w', screen.onTap hashPassword true w = some w' ∧
    w'.auth.user.bind User.currentCgpa = some x

end FillProfileScreen

/-- The edit is confirmed and goes through, and the user has the CGPA `x`. -/
def EditProfileScreen.Submits (calls : EditCalls) (catalogue : Catalogue (List Course))
    (w : ProfileState Double) (screen : EditProfileScreen (List Course)) (x : Double) : Prop :=
  screen.enable = true ∧ (∃ screen', screen.validate Double = some (some screen')) ∧
    (screen.onTap true calls catalogue w).state.device.auth.user.bind User.currentCgpa = some x

/-- What goes through is meaningful, and what is meaningful goes through. Before the first
results the text does not matter and the CGPA is the sentinel. -/
def AcceptsExactly (first : Prop) [Decidable first] (system : Double) (text : String)
    (submits : Double → Prop) : Prop :=
  (∀ x, submits x → if first then x = Double.ofInt (-1) else InRange system x) ∧
    ((first ∨ ∃ x, Double.parse text = some x ∧ InRange system x) → ∃ x, submits x)

/-- Before the first results nothing is left in the field, or a number that is not above the
grading system. Else the text is no `NaN` and no negative number. -/
def PlainText (first : Prop) [Decidable first] (system : Double) (text : String) : Prop :=
  if first then text = "" ∨ ∃ x, Double.parse text = some x ∧ Double.lt system x = false
  else ∀ x, Double.parse text = some x → x ≠ .nan ∧ Double.lt x (.ofInt 0) = false

/-! ## Numbers -/

theorem parse_empty : Double.parse "" = none := by
  decide +kernel

theorem zero_finite : (Double.ofInt 0).IsFinite ∧ (Double.ofInt 0).val = 0 := by
  simpa using Double.ofInt_finite (n := 0) (by norm_num)

/-- Under a grading system the comparison lets exactly the numbers of the range through, the
negative ones and `NaN` apart. -/
theorem inRange_iff {system x : Double} (hfinite : system.IsFinite) :
    InRange system x ↔
      Double.lt system x = false ∧ x ≠ .nan ∧ Double.lt x (.ofInt 0) = false := by
  by_cases hx : x.IsFinite
  · have hnan : x ≠ .nan := by
      rintro rfl
      exact hx
    rw [Double.lt_eq hfinite hx, Double.lt_eq hx zero_finite.1, zero_finite.2]
    simp only [InRange, hx, hnan, true_and, decide_eq_false_iff_not, not_lt, ne_eq,
      not_false_eq_true]
    exact and_comm
  · refine iff_of_false (fun h => hx h.1) ?_
    rintro ⟨hpasses, hnan, hneg⟩
    cases x with
    | nan => exact hnan rfl
    | zero => exact hx trivial
    | finite => exact hx trivial
    | infinity negative =>
      cases negative with
      | true =>
        rw [Double.ofInt_zero] at hneg
        cases hneg
      | false => cases system <;> first | exact hfinite | cases hpasses

/-- A number above a grading system is neither negative nor `NaN`. -/
theorem plain_of_lt {system x : Double} (hfinite : system.IsFinite) (hnonneg : 0 ≤ system.val)
    (h : Double.lt system x = true) : x ≠ .nan ∧ Double.lt x (.ofInt 0) = false := by
  have hnan : x ≠ .nan := by
    rintro rfl
    cases system <;> cases h
  refine ⟨hnan, ?_⟩
  by_cases hx : x.IsFinite
  · rw [Double.lt_eq hfinite hx, decide_eq_true_eq] at h
    rw [Double.lt_eq hx zero_finite.1, zero_finite.2, decide_eq_false_iff_not]
    linarith
  · cases x with
    | nan => exact absurd rfl hnan
    | zero => exact absurd trivial hx
    | finite => exact absurd trivial hx
    | infinity negative =>
      cases negative with
      | true => cases system <;> first | exact absurd hfinite id | cases h
      | false => simp [Double.lt]

/-! ## What each form takes -/

namespace FillProfileScreen

variable {screen : FillProfileScreen C} {system : Double}

theorem Chosen.level_parses (h : screen.Chosen system) : (intParse screen.level).isSome := by
  have hall : ∀ level ∈ FillProfileFunction.levels, (intParse level).isSome := by decide
  exact hall _ h.level

theorem Chosen.check_eq (h : screen.Chosen system) : screen.check Double = some true ↔
    screen.gpa = "" ∨ ∃ x, Double.parse screen.gpa = some x ∧ Double.lt system x = false := by
  obtain ⟨data, level, year, hdata, hlevel, hyear, hle⟩ := h.fits
  obtain ⟨digit, hdigit, hlevel⟩ := Option.bind_eq_some_iff.1 hlevel
  have hsystem : Floating.parse screen.gradePoint = some system := h.gradePoint
  cases hx : Double.parse screen.gpa with
  | none =>
    have hx' : Floating.parse (D := Double) screen.gpa = none := hx
    simp [check, hdigit, hlevel, hdata, hyear, hsystem, hx', not_lt.2 hle]
  | some x =>
    have hx' : Floating.parse (D := Double) screen.gpa = some x := hx
    have hne : screen.gpa ≠ "" := by
      intro h
      rw [h, parse_empty] at hx
      cases hx
    simp [check, hdigit, hlevel, hdata, hyear, hsystem, hx', not_lt.2 hle, hne]
    rfl

/-- The button is there if the position needs no text or has one. -/
theorem Chosen.enable_eq (h : screen.Chosen system) :
    screen.enable = true ↔ screen.First ∨ screen.gpa ≠ "" := by
  obtain ⟨data, -, -, hdata, -⟩ := h.fits
  have hlevel : screen.level ≠ "" := by
    have hall : ∀ level ∈ FillProfileFunction.levels, level ≠ "" := by decide
    exact hall _ h.level
  have hsemester : screen.semester ≠ "" := by
    have hall : ∀ semester ∈ FillProfileFunction.semester, semester ≠ "" := by decide
    exact hall _ h.semester
  have hgradePoint : screen.gradePoint ≠ "" := by
    intro hempty
    have hparse := h.gradePoint
    rw [hempty] at hparse
    cases hparse
  simp [enable, h.universities, h.faculty, h.course, hlevel, hsemester, hgradePoint, hdata]

/-- The button gets past its checks where the text is no obstacle. -/
theorem Chosen.passes_iff (h : screen.Chosen system) : screen.passes Double = true ↔
    screen.First ∧ screen.gpa = "" ∨
      ∃ x, Double.parse screen.gpa = some x ∧ Double.lt system x = false := by
  rw [passes, Bool.and_eq_true_iff, beq_iff_eq, h.check_eq, h.enable_eq]
  constructor
  · rintro ⟨hfirst | htext, hgpa | hgpa⟩
    · exact .inl ⟨hfirst, hgpa⟩
    · exact .inr hgpa
    · exact absurd hgpa htext
    · exact .inr hgpa
  · rintro (⟨hfirst, hgpa⟩ | ⟨x, hx, hpasses⟩)
    · exact ⟨.inl hfirst, .inl hgpa⟩
    · refine ⟨.inr fun h => ?_, .inr ⟨x, hx, hpasses⟩⟩
      rw [h, parse_empty] at hx
      cases hx

theorem Chosen.passes_first (h : screen.Chosen system) (hfirst : screen.First) :
    screen.passes Double = true ↔
      screen.gpa = "" ∨ ∃ x, Double.parse screen.gpa = some x ∧ Double.lt system x = false := by
  rw [h.passes_iff, and_iff_right hfirst]

theorem Chosen.passes_later (h : screen.Chosen system) (hfirst : ¬screen.First) {x : Double} :
    screen.passes Double = true ∧ Double.parse screen.gpa = some x ↔
      Double.parse screen.gpa = some x ∧ Double.lt system x = false := by
  rw [h.passes_iff]
  constructor
  · rintro ⟨⟨hfirst', -⟩ | ⟨y, hy, hpasses⟩, hx⟩
    · exact absurd hfirst' hfirst
    · cases hy.symm.trans hx
      exact ⟨hx, hpasses⟩
  · rintro ⟨hx, hpasses⟩
    exact ⟨.inr ⟨x, hx, hpasses⟩, hx⟩

/-- A submit that goes through stores the text the form hands on. -/
theorem Chosen.submits_iff {hashPassword : String → String} {w : SignUp Double C}
    {user : User Double} {x : Double} (h : screen.Chosen system)
    (huser : w.auth.user = some user) :
    screen.Submits hashPassword w x ↔
      screen.passes Double = true ∧ Double.parse screen.data.currentCgpa = some x := by
  obtain ⟨level, hlevel⟩ := Option.isSome_iff_exists.1 h.level_parses
  obtain ⟨data, -, -, hdata, -⟩ := h.fits
  constructor
  · rintro ⟨hpasses, w', hw', hx⟩
    refine ⟨hpasses, ?_⟩
    rcases onTap_cases hw' with ⟨hfails, -⟩ | ⟨-, user', filled, data', -, hfilled, hw'⟩
    · rw [hpasses] at hfails
      cases hfails
    · simp only [User.fillData, Option.bind_eq_bind, Option.bind_eq_some_iff, Option.pure_def,
        Option.some.injEq] at hfilled
      obtain ⟨level', hlevel', c, hc, hfilled⟩ := hfilled
      rw [hw', ← hfilled] at hx
      cases hx
      exact hc
  · rintro ⟨hpasses, hx⟩
    have hx' : Floating.parse screen.data.currentCgpa = some x := hx
    obtain ⟨henable, hcheck⟩ := Bool.and_eq_true_iff.1 hpasses
    refine ⟨hpasses, ?_⟩
    simp only [onTap, henable, beq_iff_eq.1 hcheck, huser, User.fillData, hx', hdata,
      Option.bind_eq_bind, Option.bind_some, Option.pure_def, if_true]
    rw [show intParse screen.data.level = some level from hlevel]
    exact ⟨_, rfl, rfl⟩

end FillProfileScreen

namespace EditProfileScreen

open FillProfileScreen

variable {screen : EditProfileScreen (List Course)} {system : Double}

/-- The button is there and its checks are passed. -/
theorem validates_iff (hchanged : screen.dataChanged = true) :
    (screen.enable = true ∧ ∃ screen', screen.validate Double = some (some screen')) ↔
      screen.passes Double = true ∧ (screen.First ∨ screen.gpa ≠ "-1.0") := by
  have hposition : (screen.level ≠ "100" ∨ screen.semester ≠ "1st") ↔ ¬screen.First := by
    unfold FillProfileScreen.First
    tauto
  rw [passes, Bool.and_eq_true_iff, beq_iff_eq, enable, hchanged, Bool.true_and]
  simp only [validate_iff, hposition]
  constructor
  · rintro ⟨henable, screen', hcheck, hsentinel, -⟩
    exact ⟨⟨henable, hcheck⟩, or_iff_not_imp_left.2 fun hfirst htext => hsentinel ⟨hfirst, htext⟩⟩
  · rintro ⟨⟨henable, hcheck⟩, hsentinel⟩
    exact ⟨henable, _, hcheck, fun htext => hsentinel.elim htext.1 fun hne => hne htext.2, rfl⟩

/-- A confirmed edit that goes through stores the text the checks leave, and only turns the
sentinel away where it is not the form's own. -/
theorem submits_iff {calls : EditCalls} {catalogue : Catalogue (List Course)}
    {w : ProfileState Double} {user : User Double} {x : Double}
    (h : screen.toFillProfileScreen.Chosen system) (hchanged : screen.dataChanged = true)
    (huser : w.device.auth.user = some user) :
    screen.Submits calls catalogue w x ↔ screen.passes Double = true ∧
      if screen.First then x = Double.ofInt (-1)
      else screen.gpa ≠ "-1.0" ∧ Double.parse screen.gpa = some x := by
  have hstored : ∀ screen', screen.enable = true →
      screen.validate Double = some (some screen') →
      (screen.onTap true calls catalogue w).state.device.auth.user.bind User.currentCgpa =
        Double.parse screen'.gpa := by
    intro screen' henable hvalid
    obtain ⟨new, hnew⟩ := exists_newUser user henable hvalid h.level_parses
    rw [onTap_confirmed henable hvalid huser, state_edit hnew]
    exact currentCgpa_newUser hnew
  have hvalidates := validates_iff hchanged
  constructor
  · rintro ⟨henable, ⟨screen', hvalid⟩, hx⟩
    obtain ⟨hpasses, htext⟩ := hvalidates.1 ⟨henable, screen', hvalid⟩
    refine ⟨hpasses, ?_⟩
    rw [hstored screen' henable hvalid, (validate_iff.1 hvalid).2.2] at hx
    split_ifs at hx ⊢ with hfirst
    · rw [parse_sentinel] at hx
      exact (Option.some.inj hx).symm
    · exact ⟨htext.resolve_left hfirst, hx⟩
  · rintro ⟨hpasses, hx⟩
    have htext : screen.First ∨ screen.gpa ≠ "-1.0" := by
      split_ifs at hx with hfirst
      · exact .inl hfirst
      · exact .inr hx.1
    obtain ⟨henable, screen', hvalid⟩ := hvalidates.2 ⟨hpasses, htext⟩
    refine ⟨henable, ⟨screen', hvalid⟩, ?_⟩
    rw [hstored screen' henable hvalid, (validate_iff.1 hvalid).2.2]
    split_ifs at hx ⊢ with hfirst
    · rw [hx]
      exact parse_sentinel
    · exact hx.2

end EditProfileScreen

/-! ## Both forms -/

/-- Before the first results only the text decides, and it should not. -/
theorem acceptsExactly_first {first : Prop} [Decidable first] {system : Double} {text : String}
    {submits : Double → Prop} (hfirst : first)
    (hsubmits : ∀ x, submits x ↔
      (text = "" ∨ ∃ y, Double.parse text = some y ∧ Double.lt system y = false) ∧
        x = Double.ofInt (-1)) :
    AcceptsExactly first system text submits ↔ PlainText first system text := by
  unfold AcceptsExactly PlainText
  simp only [hfirst, if_true, true_or, true_imp_iff, hsubmits]
  constructor
  · rintro ⟨-, x, htext, -⟩
    exact htext
  · intro htext
    exact ⟨fun x hx => hx.2, _, htext, rfl⟩

/-- Later on a form that takes what is not above the grading system also takes the negative
numbers and `NaN`. -/
theorem acceptsExactly_later {first : Prop} [Decidable first] {system : Double} {text : String}
    {submits : Double → Prop} (hfirst : ¬first) (hfinite : system.IsFinite)
    (hnonneg : 0 ≤ system.val)
    (hsubmits : ∀ x, submits x ↔ Double.parse text = some x ∧ Double.lt system x = false) :
    AcceptsExactly first system text submits ↔ PlainText first system text := by
  unfold AcceptsExactly PlainText
  simp only [hfirst, if_false, false_or, hsubmits]
  constructor
  · rintro ⟨hsound, -⟩ x hx
    cases hpasses : Double.lt system x with
    | true => exact plain_of_lt hfinite hnonneg hpasses
    | false => exact ((inRange_iff hfinite).1 (hsound x ⟨hx, hpasses⟩)).2
  · intro hplain
    refine ⟨fun x hx => (inRange_iff hfinite).2 ⟨hx.2, hplain x hx.1⟩, ?_⟩
    rintro ⟨x, hx, hrange⟩
    exact ⟨x, hx, ((inRange_iff hfinite).1 hrange).1⟩

/-- The text of the sentinel is no number of the range. -/
theorem not_inRange_sentinel {system x : Double} (hx : Double.parse "-1.0" = some x) :
    ¬InRange system x := by
  rw [parse_sentinel] at hx
  cases hx
  rintro ⟨-, hnonneg, -⟩
  have hval := (Double.ofInt_finite (n := -1) (by norm_num)).2
  rw [hval] at hnonneg
  norm_num at hnonneg

/-- The forms take exactly the meaningful texts where the text is plain. The edit form also
does where the text is the one of the sentinel. -/
theorem startingCgpa_iff {screen : EditProfileScreen (List Course)} {system : Double}
    (h : screen.toFillProfileScreen.Chosen system) (hchanged : screen.dataChanged = true)
    {w : SignUp Double (List Course)} {user : User Double} (huser : w.auth.user = some user)
    {w' : ProfileState Double} {user' : User Double} (huser' : w'.device.auth.user = some user')
    (hashPassword : String → String) (calls : EditCalls) (catalogue : Catalogue (List Course)) :
    (AcceptsExactly screen.First system screen.gpa
        (screen.toFillProfileScreen.Submits hashPassword w) ↔
      PlainText screen.First system screen.gpa) ∧
    (AcceptsExactly screen.First system screen.gpa (screen.Submits calls catalogue w') ↔
      ¬screen.First ∧ screen.gpa = "-1.0" ∨ PlainText screen.First system screen.gpa) := by
  by_cases hfirst : screen.First
  · have hminus : Double.parse "-1" = some (Double.ofInt (-1)) := by decide +kernel
    rw [acceptsExactly_first hfirst, acceptsExactly_first hfirst]
    · exact ⟨Iff.rfl, by simp [hfirst]⟩
    · intro x
      rw [EditProfileScreen.submits_iff h hchanged huser', h.passes_first hfirst, if_pos hfirst]
    · intro x
      rw [h.submits_iff huser, h.passes_first hfirst, FillProfileScreen.data, if_pos hfirst,
        hminus, Option.some.injEq, eq_comm (a := x)]
  · have hlater : ∀ x, screen.toFillProfileScreen.Submits hashPassword w x ↔
        Double.parse screen.gpa = some x ∧ Double.lt system x = false := by
      intro x
      rw [h.submits_iff huser, FillProfileScreen.data, if_neg hfirst, h.passes_later hfirst]
    refine ⟨acceptsExactly_later hfirst h.finite h.nonneg hlater, ?_⟩
    have hedit : ∀ x, screen.Submits calls catalogue w' x ↔ screen.gpa ≠ "-1.0" ∧
        Double.parse screen.gpa = some x ∧ Double.lt system x = false := by
      intro x
      rw [EditProfileScreen.submits_iff h hchanged huser', if_neg hfirst, and_left_comm,
        h.passes_later hfirst]
    by_cases htext : screen.gpa = "-1.0"
    · -- the edit form refuses the text, and it is not in the range
      refine iff_of_true ⟨fun x hx => absurd htext ((hedit x).1 hx).1, ?_⟩
        (.inl ⟨hfirst, htext⟩)
      rintro (hfirst' | ⟨x, hx, hrange⟩)
      · exact absurd hfirst' hfirst
      · rw [htext] at hx
        exact absurd hrange (not_inRange_sentinel hx)
    · rw [acceptsExactly_later hfirst h.finite h.nonneg]
      · simp [htext]
      · intro x
        rw [hedit x, and_iff_right htext]

/-- The changed course at the second level, with a text in the field. -/
def laterForm (text : String) : EditProfileScreen (List Course) :=
  { EditProfileScreen.changedCourse with level := "200", gpa := text }

theorem chosen_laterForm (text : String) :
    (laterForm text).toFillProfileScreen.Chosen (Double.ofInt 5) := by
  have hsystem : Double.parse "5" = some (Double.ofInt 5) := by decide +kernel
  have hfive := Double.ofInt_finite (n := 5) (by norm_num)
  have hfaculty : "School of Management Sciences" ≠ "" := by decide
  have hcourse : "Accounting" ≠ "" := by decide
  have hlevel : "200" ∈ FillProfileFunction.levels := by decide
  have hsemester : "1st" ∈ FillProfileFunction.semester := by decide
  have hdigit : (substring "200" 0 1).bind intParse = some 2 := by decide
  have hyear : intParse "4" = some 4 := by decide
  have hnonneg : 0 ≤ (Double.ofInt 5).val := by
    rw [hfive.2]
    norm_num
  exact ⟨List.cons_ne_nil _ _, hfaculty, hcourse, hlevel, hsemester, hsystem, hfive.1, hnonneg,
    _, 2, 4, rfl, hdigit, hyear, by norm_num⟩

theorem not_first_laterForm (text : String) : ¬(laterForm text).First := by
  rintro ⟨-, hlevel⟩
  have hne : "200" ≠ "100" := by decide
  exact hne hlevel

/-- Someone who signs up. -/
def newcomerSignUp : SignUp Double (List Course) where
  auth := ⟨some freshman.user, none⟩
  users := Table.empty

/-- Both forms take an ordinary number at the second level. -/
theorem startingCgpa_later :
    AcceptsExactly (laterForm "3.5").First (Double.ofInt 5) "3.5"
      ((laterForm "3.5").toFillProfileScreen.Submits id newcomerSignUp) ∧
    AcceptsExactly (laterForm "3.5").First (Double.ofInt 5) "3.5"
      ((laterForm "3.5").Submits ⟨true, true, true, true⟩
        EditProfileScreen.sampleCatalogue EditProfileScreen.uploadedState) := by
  have hplain : PlainText (laterForm "3.5").First (Double.ofInt 5) "3.5" := by
    rw [PlainText, if_neg (not_first_laterForm "3.5")]
    have hcheck : ∀ x ∈ Double.parse "3.5", x ≠ .nan ∧ Double.lt x (.ofInt 0) = false := by
      decide +kernel
    exact hcheck
  have huser : newcomerSignUp.auth.user = some freshman.user := rfl
  obtain ⟨user, huser'⟩ : ∃ user, EditProfileScreen.uploadedState.device.auth.user = some user :=
    ⟨_, rfl⟩
  obtain ⟨hfill, hedit⟩ := startingCgpa_iff (chosen_laterForm "3.5") rfl huser huser' id
    ⟨true, true, true, true⟩ EditProfileScreen.sampleCatalogue
  exact ⟨hfill.2 hplain, hedit.2 (.inr hplain)⟩

/-- Both forms take `NaN`, and the profile form the text of the sentinel at the second
level. -/
theorem startingCgpa_fails :
    (laterForm "NaN").toFillProfileScreen.Chosen (Double.ofInt 5) ∧
    ¬AcceptsExactly (laterForm "NaN").First (Double.ofInt 5) "NaN"
      ((laterForm "NaN").toFillProfileScreen.Submits id newcomerSignUp) ∧
    ¬AcceptsExactly (laterForm "NaN").First (Double.ofInt 5) "NaN"
      ((laterForm "NaN").Submits ⟨true, true, true, true⟩
        EditProfileScreen.sampleCatalogue EditProfileScreen.uploadedState) ∧
    (laterForm "-1.0").toFillProfileScreen.Submits id newcomerSignUp (Double.ofInt (-1)) := by
  have hfirst := not_first_laterForm "NaN"
  have hnan : Double.parse "NaN" = some .nan := by decide +kernel
  have hrange : ¬InRange (Double.ofInt 5) .nan := fun h => h.1
  have hpasses : (laterForm "NaN").passes Double = true :=
    (chosen_laterForm "NaN").passes_iff.2 (.inr ⟨_, hnan, by decide +kernel⟩)
  have hfill : (laterForm "NaN").toFillProfileScreen.Submits id newcomerSignUp .nan :=
    ((chosen_laterForm "NaN").submits_iff rfl).2 ⟨hpasses, hnan⟩
  have hedit : (laterForm "NaN").Submits ⟨true, true, true, true⟩
      EditProfileScreen.sampleCatalogue EditProfileScreen.uploadedState .nan := by
    refine (EditProfileScreen.submits_iff (chosen_laterForm "NaN") rfl rfl).2 ⟨hpasses, ?_⟩
    rw [if_neg hfirst]
    exact ⟨by decide, hnan⟩
  refine ⟨chosen_laterForm _, fun h => hrange ?_, fun h => hrange ?_, ?_⟩
  · simpa [hfirst] using h.1 _ hfill
  · simpa [hfirst] using h.1 _ hedit
  · exact ((chosen_laterForm "-1.0").submits_iff rfl).2
      ⟨(chosen_laterForm "-1.0").passes_iff.2 (.inr ⟨_, parse_sentinel, by decide +kernel⟩),
        parse_sentinel⟩

end StudyStats
