import StudyStats.Ledger

/-!
# Which semester a record is for

The level and semester of a record are its label. Whatever the screens are filled in with,
an upload appends one record under the label its screen was opened with, and an edit leaves
all labels, the programme and the user's position alone.

## Main results

* `upload_cases` — what one press of the button does to labels and provider.
* `outline_editRecord` — what an edit leaves alone, also when it stops half way.
-/

namespace StudyStats

open Dart StatFunction

variable {D C : Type} [Floating D]

def Update.label (r : Update D C) : String × String := (r.level, r.semester)

/-- The labels of the stored records, oldest first. -/
def labels (d : Device D C) : List (String × String) :=
  (HiveUpdate.getUpdateList d).map Update.label

instance (label : String × String) (d : Device D C) : Decidable (label ∈ labels d) :=
  List.instDecidableMemOfLawfulBEq label (labels d)

/-- The label of the final semester. -/
def Enrolment.finalLabel (p : Enrolment D) : String × String :=
  (toString (100 * p.year : ℤ), "2nd")

/-- The label of the `s`-th semester. -/
def semesterLabel (s : ℕ) : String × String := (levelText s, semesterOf s)

omit [Floating D] in
theorem Enrolment.finalLabel_eq (p : Enrolment D) :
    p.finalLabel = semesterLabel (2 * p.year) := by
  have hlevel : levelOf (2 * p.year) = 100 * p.year := by unfold levelOf; omega
  rw [finalLabel, semesterLabel, levelText, hlevel, semesterOf, if_neg (by omega)]
  norm_cast

theorem semesterLabel_injective : Function.Injective semesterLabel := by
  intro s t h
  obtain ⟨hlevel, hsemester⟩ := Prod.mk.inj h
  exact eq_of_texts hlevel hsemester

/-- The labels of the first `n` semesters after enrolment. -/
def Enrolment.firstLabels (p : Enrolment D) (n : ℕ) : List (String × String) :=
  (List.range n).map fun i => semesterLabel (p.start + i)

omit [Floating D] in
theorem Enrolment.finalLabel_mem_iff (p : Enrolment D) {n : ℕ}
    (hn : p.start + n ≤ 2 * p.year + 1) :
    p.finalLabel ∈ p.firstLabels n ↔ p.start + n = 2 * p.year + 1 := by
  have hstart := p.start_le
  rw [firstLabels, finalLabel_eq, List.mem_map]
  simp only [semesterLabel_injective.eq_iff, List.mem_range]
  constructor
  · rintro ⟨i, hi, hfinal⟩
    omega
  · intro hfull
    exact ⟨2 * p.year - p.start, by omega, by omega⟩

/-- Labels, programme and position. -/
def outline (d : Device D C) : List (String × String) × Option (CourseData C) ×
    Option (Option ℤ × Option String) :=
  (labels d, d.auth.courseData, d.auth.user.map fun user => (user.level, user.semester))

/-! ## Uploads -/

theorem parse_of_getResult {scores : List String} {system : ℤ} {courses : List Course}
    {text : String} (h : getResult D scores system courses = some text) :
    ∃ x : D, Floating.parse text = some x := by
  simp only [getResult, Option.bind_eq_bind, Option.bind_eq_some_iff, Option.pure_def,
    Option.some.injEq] at h
  obtain ⟨⟨uXg, units⟩, -, rfl⟩ := h
  exact ⟨_, Floating.parse_toString _⟩

theorem parse_of_getCGPA {current result semester level text : String}
    (h : getCGPA D current result semester level = some text) :
    ∃ x : D, Floating.parse text = some x := by
  simp only [getCGPA, Option.bind_eq_bind, Option.bind_eq_some_iff] at h
  obtain ⟨cgpa, -, gpa, hgpa, _, -, _, -, _, -, _, -, h⟩ := h
  split_ifs at h with hfirst
  · cases h; exact ⟨gpa, hgpa⟩
  · simp only [Option.pure_def, Option.bind_eq_some_iff, Option.some.injEq] at h
    obtain ⟨-, -, -, -, rfl⟩ := h
    exact Option.isSome_iff_exists.1 (Floating.parse_toStringAsFixed2 _)

/-- What a result computed on the screen consists of reads back. -/
theorem parse_of_compute {screen : UpdateScreen C} {contents : List Course} {gpa cgpa : String}
    {score : List ℤ} (h : screen.compute D contents = some (gpa, score, cgpa)) :
    (∃ x : D, Floating.parse gpa = some x) ∧ ∃ x : D, Floating.parse cgpa = some x := by
  simp only [UpdateScreen.compute, Option.bind_eq_bind, Option.bind_eq_some_iff] at h
  obtain ⟨complete, -, h⟩ := h
  cases complete with
  | false => cases h
  | true =>
    simp only [if_true, Option.bind_eq_some_iff, Option.pure_def, Option.some.injEq,
      Prod.mk.injEq] at h
    obtain ⟨gpa', hgpa, cgpa', hcgpa, rfl, -, rfl⟩ := h
    exact ⟨parse_of_getResult hgpa, parse_of_getCGPA hcgpa⟩

/-- One press of the button: nothing, or one record under the screen's own label. -/
theorem upload_cases (contents : List Course) (now : Timestamp) (screen : UpdateScreen C)
    (d : Device D C) :
    (screen.compute D contents = none ∧ screen.upload contents now d = d) ∨
    ∃ cgpa, (∃ c : D, Floating.parse cgpa = some c) ∧ (screen.compute D contents).isSome ∧
      labels (screen.upload contents now d) = labels d ++ [(screen.level, screen.semester)] ∧
      (screen.upload contents now d).auth = (d.auth.incrementUser cgpa).getD d.auth := by
  unfold UpdateScreen.upload
  cases hcompute : screen.compute D contents with
  | none => exact .inl ⟨rfl, rfl⟩
  | some result =>
    obtain ⟨gpa, score, cgpa⟩ := result
    obtain ⟨⟨g, hg⟩, c, hc⟩ := parse_of_compute hcompute
    refine .inr ⟨cgpa, ⟨c, hc⟩, rfl, ?_, ?_⟩
    · simp [saveUpdateGrade, hg, hc, labels, HiveUpdate.getUpdateList, HiveUpdate.addUpdateData,
        Update.label]
    · simp [saveUpdateGrade, hg, hc, HiveUpdate.addUpdateData]

/-- `incrementUser` with a text that reads moves the position and nothing else that is
looked at here. -/
theorem incrementUser_position {auth : AuthProvider D C} {user : User D} {level : ℤ}
    {semester cgpa : String} {c : D} (huser : auth.user = some user)
    (hlevel : user.level = some level) (hsemester : user.semester = some semester)
    (hc : Floating.parse cgpa = some c) :
    auth.incrementUser cgpa = (AuthProvider.nextPosition auth.courseData level semester).map
      fun next => { auth with user := some { user with
        level := some next.1, semester := some next.2, currentCgpa := some c } } := by
  simp only [AuthProvider.incrementUser, huser, hlevel, hsemester, hc, Option.bind_eq_bind,
    Option.bind_some, Option.pure_def]
  cases AuthProvider.nextPosition auth.courseData level semester <;> rfl

theorem exists_firstDigit (n : ℤ) : ∃ digit, substring (toString n) 0 1 = some digit := by
  have hlen : 0 < (toString n).toList.length := by
    cases n with
    | ofNat n =>
      have := Nat.length_toDigits_pos (b := 10) (n := n)
      simpa [toString, Int.repr, Nat.repr_eq_ofList_toDigits] using this
    | negSucc n => simp [toString, Int.repr]
  exact ⟨_, by rw [substring, if_pos ⟨by decide, hlen⟩]⟩

omit [Floating D] in
/-- With a course map there is always a next position. -/
theorem exists_nextPosition (data : CourseData C) (level : ℤ) (semester : String) :
    ∃ next, AuthProvider.nextPosition (some data) level semester = some next := by
  obtain ⟨digit, hdigit⟩ := exists_firstDigit level
  simp only [AuthProvider.nextPosition, hdigit, Option.bind_eq_bind, Option.bind_some]
  split_ifs <;> exact ⟨_, rfl⟩

/-- A fresh screen has the user's position, also when the catalogue lacks it. -/
theorem init_position {contents : C → List Course} {empty : C} {gs : String}
    {auth : AuthProvider D C} {screen : UpdateScreen C}
    (h : UpdateScreen.init contents empty gs auth = some screen) :
    ∃ user level semester, auth.user = some user ∧ user.level = some level ∧
      user.semester = some semester ∧ screen.level = toString level ∧
      screen.semester = semester := by
  simp only [UpdateScreen.init, Option.bind_eq_bind, Option.bind_eq_some_iff] at h
  obtain ⟨user, huser, semester, hsemester, _, -, level, hlevel, h⟩ := h
  refine ⟨user, level, semester, huser, hlevel, hsemester, ?_⟩
  split at h
  · cases h; exact ⟨rfl, rfl⟩
  · cases h; exact ⟨rfl, rfl⟩

theorem uploadResult_cases {gs : String} {sheet : Sheet} {now : Timestamp}
    {d d' : Device D (List Course)}
    (h : UpdateScreen.uploadResult gs sheet now d = some d') :
    d' = d ∨ d'.auth.courseData = d.auth.courseData ∧ ∃ user level semester,
      d.auth.user = some user ∧ user.level = some level ∧ user.semester = some semester ∧
      labels d' = labels d ++ [(toString level, semester)] := by
  simp only [UpdateScreen.uploadResult, Option.bind_eq_bind, Option.pure_def,
    Option.bind_eq_some_iff, Option.some.injEq] at h
  obtain ⟨screen, hinit, screen', hfill, rfl⟩ := h
  obtain ⟨user, level, semester, huser, hlevel, hsemester, hscreen, hscreen'⟩ :=
    init_position hinit
  obtain rfl := UpdateScreen.fill_eq hfill
  rcases upload_cases sheet.courses now _ d with ⟨-, hsame⟩ | ⟨cgpa, -, -, hlabels, hauth⟩
  · exact .inl hsame
  · refine .inr ⟨?_, user, level, semester, huser, hlevel, hsemester, ?_⟩
    · rw [hauth, AuthProvider.courseData_incrementUser]
    · rw [hlabels, ← hscreen, ← hscreen']

/-! ## Edits -/

theorem label_replaceUpdate {r past r' : Update D C} {now : Timestamp}
    (h : replaceUpdate r past now = some r') : r'.label = r.label := by
  obtain ⟨cgpa, rfl⟩ := replaceUpdate_eq h
  rfl

omit [Floating D] in
theorem map_label_set {l : List (Update D C)} {i : ℕ} {r : Update D C}
    (h : (l.map Update.label)[i]? = some r.label) :
    (l.set i r).map Update.label = l.map Update.label := by
  obtain ⟨hi, hr⟩ := List.getElem?_eq_some_iff.1 h
  rw [List.map_set, ← hr, List.set_getElem_self]

theorem outline_storeUpdates {l : List (Update D C)} {newest : Update D C} {accepted : Bool}
    {d : Device D C} (hl : l.map Update.label = (labels d).reverse) :
    outline (storeUpdates l newest accepted d).state = outline d := by
  have hlabels : (l.reverse).map Update.label = labels d := by
    rw [List.map_reverse, hl, List.reverse_reverse]
  unfold storeUpdates AuthProvider.updateUserCGPA
  rw [Floating.parse_toString]
  cases huser : d.auth.user <;> cases accepted <;>
    simp [outline, labels, HiveUpdate.replaceUpdateList, HiveUpdate.getUpdateList,
      Outcome.state, huser] <;>
    simpa [labels, HiveUpdate.getUpdateList] using hlabels

/-- Every pass works on a list with the stored labels, and the update has the label of the
record it replaces. -/
theorem outline_editUpdatesLoop {update : Update D C} {index : ℕ} {clock : ℕ → Timestamp}
    {accepted : Bool} (n : ℕ) {l : List (Update D C)} {d : Device D C}
    (hl : l.map Update.label = (labels d).reverse)
    (hupdate : (labels d).reverse[index]? = some update.label) :
    outline (editUpdatesLoop update index clock accepted n l d).state = outline d := by
  refine editUpdatesLoop_rule (L := fun l => l.map Update.label = (labels d).reverse)
    (G := fun d' => outline d' = outline d) ?_ ?_ ?_ n hl rfl
  · intro l hl
    rw [map_label_set (by rw [hl, hupdate]), hl]
  · intro l i this past r' hl hthis hr'
    rw [map_label_set, hl]
    rw [List.getElem?_map, hthis, label_replaceUpdate hr']
    rfl
  · intro l newest d' hl hd'
    have hlabels : labels d' = labels d := congrArg Prod.fst hd'
    rw [outline_storeUpdates (by rw [hl, hlabels]), hd']

theorem outline_editRecord {gs : String} {index : ℕ} {sheet : Sheet} {now : Timestamp}
    {clock : ℕ → Timestamp} {accepted : Bool} {d d' : Device D (List Course)}
    (h : UpdateScreen.editRecord gs index sheet now clock accepted d = some d') :
    outline d' = outline d ∧ labels d ≠ [] := by
  simp only [UpdateScreen.editRecord, Option.bind_eq_bind, Option.bind_eq_some_iff,
    Option.pure_def, Option.some.injEq] at h
  obtain ⟨r, hr, screen, hfill, rfl⟩ := h
  have hlabel : (labels d).reverse[index]? = some r.label := by
    rw [labels, ← List.map_reverse, List.getElem?_map, hr]; rfl
  refine ⟨?_, fun hnil => by simp [hnil] at hlabel⟩
  unfold UpdateScreen.edit
  split
  · rfl
  · next update hnew =>
    have hupdate : update.label = r.label := by
      obtain rfl := UpdateScreen.fill_eq hfill
      obtain ⟨result, gpa, cgpa, -, rfl⟩ := UpdateScreen.newUpdate_eq hnew
      rfl
    exact outline_editUpdatesLoop _ (by rw [labels, List.map_reverse]) (by rw [hlabel, hupdate])

end StudyStats
