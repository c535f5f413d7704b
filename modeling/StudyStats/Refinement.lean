import StudyStats.Ledger

/-!
# The app refines the ledger

A device agrees with a history when its records and its user are the ones of the closed
form. An upload appends a sheet to the history and an edit replaces one, and nothing else
about the device depends on how the history came about.

## Main results

* `Ledger.upload`, `Ledger.edit` — the operations of the app on a device that agrees with a
  history leave one that agrees with the changed history.
-/

namespace StudyStats

open Dart StatFunction

variable {D : Type} [Floating D]

/-- The device agrees with the history `us` of the profile `p`. -/
structure Ledger (p : Profile D) (us : List Sheet) (d : Device D (List Course)) : Prop where
  auth_eq : d.auth = p.authAfter us
  records_eq : (HiveUpdate.getUpdateList d).map Update.content =
    records p.gradingSystem p.start p.cgpa us
  fits : p.start + us.length ≤ 2 * p.year + 1

theorem Ledger.install (p : Profile D) (d : Device D (List Course)) :
    Ledger p [] (p.install d) where
  auth_eq := by
    have hpos : p.position 0 = p.start := p.position_of_le p.start_le
    simp only [Enrolment.install, HiveUpdate.clearUpdateList, Profile.authAfter, List.length_nil,
      hpos, p.levelOf_start, p.semesterOf_start, cgpaAfter, ← p.user_level, ← p.user_semester,
      ← p.user_cgpa]
  records_eq := rfl
  fits := by have := p.start_le; simpa using by omega

variable {p : Profile D} {us : List Sheet} {d : Device D (List Course)}

theorem Ledger.length_eq (h : Ledger p us d) :
    (HiveUpdate.getUpdateList d).length = us.length := by
  have := congrArg List.length h.records_eq
  rwa [List.length_map, length_records] at this

/-! ## What the button computes -/

section Screen

variable {sheet : Sheet} {screen : UpdateScreen (List Course)} {s : ℕ} {prev : D}

/-- A filled screen at the `s`-th semester over the CGPA `prev`. -/
structure Filled (screen : UpdateScreen (List Course)) (sheet : Sheet) (s : ℕ) (prev : D) :
    Prop where
  courseData : screen.courseData = sheet.courses
  scores : screen.scores = sheet.grades
  level : screen.level = levelText s
  semester : screen.semester = semesterOf s
  currentGpa : screen.currentGpa = Floating.toString prev

theorem Filled.compute (h : Filled screen sheet s prev) (h1 : 1 ≤ s) (h2 : s ≤ 18) :
    screen.compute D sheet.courses =
      some (Floating.toString (gpa D sheet), sheet.scores, cgpaText prev (gpa D sheet) s) := by
  simp only [UpdateScreen.compute, h.scores, h.level, h.semester, h.currentGpa,
    complete_sheet sheet.length_eq.ge sheet.known, getResult_eq, getCGPA_eq prev _ h1 h2,
    Option.bind_eq_bind, Option.bind_some, if_true]
  rfl

end Screen

/-! ## Upload -/

/-- A fresh screen shows the user's position and CGPA. -/
theorem fresh_filled {gs : String} {sheet : Sheet} {screen screen' : UpdateScreen (List Course)}
    (hinit : UpdateScreen.init id [] gs (p.authAfter us) = some screen)
    (hfill : screen.fill sheet = some screen') (hne : sheet.grades ≠ []) :
    Filled screen' sheet (p.position us.length) (cgpaAfter p.start p.cgpa us) ∧
      screen'.system = (getGrade gs).1 := by
  obtain rfl := UpdateScreen.fill_eq hfill
  simp only [UpdateScreen.init, Profile.authAfter, Option.bind_eq_bind, Option.bind_some] at hinit
  split at hinit
  · -- the catalogue entry is missing, and no grade is offered
    cases hinit
    obtain ⟨g, hg⟩ := List.exists_mem_of_ne_nil _ hne
    unfold UpdateScreen.fill at hfill
    split_ifs at hfill with hoffered
    exact absurd (hoffered g hg) (by simp [UpdateScreen.blank])
  · cases hinit
    exact ⟨⟨rfl, rfl, rfl, rfl, rfl⟩, rfl⟩

theorem Sheet.grades_ne_nil (sheet : Sheet) : sheet.grades ≠ [] := by
  intro h
  have hlen := sheet.length_eq
  rw [h] at hlen
  have hpos := sheet.total_pos
  rw [List.length_eq_zero_iff.1 hlen.symm] at hpos
  exact absurd hpos (by simp)

theorem incrementUser_authAfter (sheet : Sheet)
    (hfit : p.start + us.length ≤ 2 * p.year) :
    (p.authAfter us).incrementUser
        (cgpaText (cgpaAfter p.start p.cgpa us) (gpa D sheet) (p.position us.length)) =
      some (p.authAfter (us ++ [sheet])) := by
  have hnext := nextPosition_eq p.data_year p.year_le (p.one_le_position us.length)
    (p.position_le us.length)
  rw [p.advance_position, p.position_of_le hfit] at hnext
  simp only [AuthProvider.incrementUser, Profile.authAfter, Option.bind_eq_bind,
    Option.bind_some, p.position_of_le hfit, hnext, parse_cgpaText, Option.pure_def,
    List.length_append, List.length_singleton, cgpaAfter_append, cgpaAfter]

theorem Ledger.upload {sheet : Sheet} {now : Timestamp} {d' : Device D (List Course)}
    (h : Ledger p us d) (hfit : p.start + us.length ≤ 2 * p.year)
    (hup : UpdateScreen.uploadResult p.gradingSystem sheet now d = some d') :
    Ledger p (us ++ [sheet]) d' := by
  simp only [UpdateScreen.uploadResult, h.auth_eq, Option.bind_eq_bind, Option.pure_def,
    Option.bind_eq_some_iff, Option.some.injEq] at hup
  obtain ⟨screen, hinit, screen', hfill, rfl⟩ := hup
  obtain ⟨hfilled, hsystem⟩ := fresh_filled hinit hfill sheet.grades_ne_nil
  have hpos := p.position_of_le hfit
  have hcompute := hfilled.compute (p.one_le_position _)
    ((p.position_le us.length).trans (by have := p.year_le; omega))
  have hauth := incrementUser_authAfter sheet hfit
  simp only [UpdateScreen.upload, hcompute, saveUpdateGrade, Floating.parse_toString,
    parse_cgpaText]
  refine ⟨?_, ?_, ?_⟩
  · simp [HiveUpdate.addUpdateData, h.auth_eq, hauth]
  · simp only [HiveUpdate.getUpdateList, HiveUpdate.addUpdateData, Option.getD_some,
      List.map_append, records_append]
    congr 1
    · exact h.records_eq
    · simp [Update.content, records, record, hfilled.courseData, hfilled.level,
        hfilled.semester, hfilled.currentGpa, hsystem, hpos]
  · simp; omega

/-! ## Edit -/

/-- A stored record shows its own semester and the CGPA before it. -/
theorem history_filled {gs : String} {sheet old : Sheet} {s : ℕ} {prev : D}
    {r : Update D (List Course)} {screen : UpdateScreen (List Course)}
    (hr : r.content = record gs s prev old)
    (hfill : (UpdateScreen.historyInit gs r).fill sheet = some screen) :
    Filled screen sheet s prev ∧ screen.system = (getGrade gs).1 := by
  obtain rfl := UpdateScreen.fill_eq hfill
  have hlevel : r.level = levelText s := congrArg Update.level hr
  have hsemester : r.semester = semesterOf s := congrArg Update.semester hr
  have hpast : r.pastSemester = Floating.toString prev := congrArg Update.pastSemester hr
  exact ⟨⟨rfl, rfl, hlevel, hsemester, hpast⟩, rfl⟩

theorem newUpdate_content {gs : String} {sheet : Sheet} {s : ℕ} {prev : D}
    {screen : UpdateScreen (List Course)} (now : Timestamp) (hfilled : Filled screen sheet s prev)
    (hsystem : screen.system = (getGrade gs).1) (h1 : 1 ≤ s) (h2 : s ≤ 18) :
    ∃ update, screen.newUpdate sheet.courses now = some update ∧
      update.content = record gs s prev sheet := by
  simp only [UpdateScreen.newUpdate, hfilled.compute h1 h2, Option.bind_eq_bind,
    Option.bind_some, Floating.parse_toString, parse_cgpaText, Option.pure_def,
    Option.some.injEq, exists_eq_left']
  simp [Update.content, record, hfilled.courseData, hfilled.level, hfilled.semester,
    hfilled.currentGpa, hsystem]

/-- A later record recomputed over a new CGPA is the record the history has there. -/
theorem replaceUpdate_content {gs : String} {u : Sheet} {s : ℕ} {prev : D}
    {r : Update D (List Course)} (past : Update D (List Course)) (now : Timestamp)
    (hr : r.content = record gs s prev u) (h1 : 1 ≤ s) (h2 : s ≤ 18) :
    ∃ r', replaceUpdate r past now = some r' ∧ r'.content = record gs s past.cgpa u := by
  obtain ⟨gpa, cgpa, gradingSystem, scores, courseData, level, semester, uploaded, timestamp,
    pastSemester⟩ := r
  simp only [Update.content, record, Update.mk.injEq, true_and] at hr
  obtain ⟨rfl, -, rfl, rfl, rfl, rfl, rfl, -⟩ := hr
  simp only [replaceUpdate, getCGPA_eq past.cgpa _ h1 h2, Option.bind_eq_bind, Option.bind_some,
    parse_cgpaText, Option.pure_def, Option.some.injEq, exists_eq_left']
  rfl

/-- Rechaining the later records gives the history's records over the new CGPA. -/
theorem rechain_content {gs : String} {us : List Sheet} {s : ℕ} {prev : D}
    {newer : List (Update D (List Course))} (clock : ℕ → Timestamp) (past : Update D (List Course))
    (hnewer : newer.map Update.content = records gs s prev us)
    (h1 : 1 ≤ s) (h2 : s + us.length ≤ 19) :
    ∃ newer', rechain clock past newer = some newer' ∧
      newer'.map Update.content = records gs s past.cgpa us := by
  induction us generalizing s prev past newer with
  | nil =>
    obtain rfl : newer = [] := List.map_eq_nil_iff.1 hnewer
    exact ⟨[], rfl, rfl⟩
  | cons u us ih =>
    obtain ⟨r, rs, rfl, hr, hrs⟩ := List.map_eq_cons_iff.1 hnewer
    simp only [List.length_cons] at h2
    obtain ⟨r', hreplace, hr'⟩ :=
      replaceUpdate_content past (clock rs.length) hr h1 (by omega)
    obtain ⟨rs', hrechain, hrs'⟩ := ih r' hrs (by omega) (by omega)
    have hcgpa : r'.cgpa = nextCgpa past.cgpa (gpa D u) s := congrArg Update.cgpa hr'
    refine ⟨r' :: rs', ?_, ?_⟩
    · simp [rechain, hreplace, hrechain]
    · rw [List.map_cons, hr', hrs', hcgpa]; rfl

theorem exists_split {α : Type*} {l : List α} {index : ℕ} (h : index < l.length) :
    ∃ older a newer, l = older ++ a :: newer ∧ newer.length = index := by
  refine ⟨l.take (l.length - 1 - index), l[l.length - 1 - index], l.drop (l.length - index), ?_, ?_⟩
  · rw [show l.length - index = l.length - 1 - index + 1 by omega, List.getElem_cons_drop,
      List.take_append_drop]
  · rw [List.length_drop]; omega

/-- The newest record is the first one in the history. -/
theorem exists_split_at {α : Type*} {l : List α} {index : ℕ} {a : α}
    (h : l.reverse[index]? = some a) :
    ∃ older newer, l = older ++ a :: newer ∧ newer.length = index := by
  have hindex : index < l.length := by
    simpa using (List.getElem?_eq_some_iff.1 h).1
  obtain ⟨older, b, newer, rfl, rfl⟩ := exists_split hindex
  obtain rfl : b = a := by simpa using h
  exact ⟨older, newer, rfl, rfl⟩

/-- A stored record comes from a sheet of the history, with the older and the newer records
around it. -/
theorem Ledger.split {index : ℕ} {r : Update D (List Course)} (h : Ledger p us d)
    (hr : (HiveUpdate.getUpdateList d).reverse[index]? = some r) :
    ∃ older u newer before after, us = older ++ u :: newer ∧ newer.length = index ∧
      HiveUpdate.getUpdateList d = before ++ r :: after ∧ after.length = index ∧
      before.map Update.content = records p.gradingSystem p.start p.cgpa older ∧
      r.content = record p.gradingSystem (p.start + older.length)
        (cgpaAfter p.start p.cgpa older) u ∧
      after.map Update.content = records p.gradingSystem (p.start + older.length + 1)
        (nextCgpa (cgpaAfter p.start p.cgpa older) (gpa D u) (p.start + older.length)) newer := by
  obtain ⟨before, after, hlist, hlength⟩ := exists_split_at hr
  have hindex : index < us.length := by
    rw [← h.length_eq, hlist, List.length_append, List.length_cons]
    omega
  obtain ⟨older, u, newer, rfl, hnewer⟩ := exists_split hindex
  have hrec := h.records_eq
  rw [hlist, List.map_append, List.map_cons, records_append, records] at hrec
  have hsame : (after.map Update.content).length = (records p.gradingSystem
      (p.start + older.length + 1) (nextCgpa (cgpaAfter p.start p.cgpa older) (gpa D u)
        (p.start + older.length)) newer).length := by
    rw [List.length_map, length_records, hlength, hnewer]
  obtain ⟨hbefore, hrest⟩ := List.append_inj' hrec (by simp only [List.length_cons, hsame])
  obtain ⟨hr, hafter⟩ := List.cons.inj hrest
  exact ⟨older, u, newer, before, after, rfl, hnewer, hlist, hlength, hbefore, hr, hafter⟩

theorem newest_cgpa {gs : String} {s : ℕ} {prev : D} {u : Sheet} {us : List Sheet}
    {l : List (Update D (List Course))} (hl : l.map Update.content = records gs s prev (u :: us))
    (hne : l ≠ []) : (l.getLast hne).cgpa = cgpaAfter s prev (u :: us) := by
  have hmap : l.map Update.content ≠ [] := by simpa using hne
  calc (l.getLast hne).cgpa = ((l.map Update.content).getLast hmap).cgpa := by
        rw [List.getLast_map]; rfl
    _ = ((records gs s prev (u :: us)).getLast (hl ▸ hmap)).cgpa := by simp only [hl]
    _ = cgpaAfter s prev (u :: us) := getLast_records gs s prev u us _

theorem Ledger.edit {index : ℕ} {sheet : Sheet} {now : Timestamp} {clock : ℕ → Timestamp}
    {accepted : Bool} {d' : Device D (List Course)} (h : Ledger p us d)
    (hedit : UpdateScreen.editRecord p.gradingSystem index sheet now clock accepted d = some d') :
    Ledger p (us.set (us.length - 1 - index) sheet) d' := by
  simp only [UpdateScreen.editRecord, Option.bind_eq_bind, Option.pure_def,
    Option.bind_eq_some_iff, Option.some.injEq] at hedit
  obtain ⟨opened, hget, screen, hfill, rfl⟩ := hedit
  obtain ⟨older, u, newer, before, after, rfl, rfl, hlist, hafterLength, hbefore, hr, hafter⟩ :=
    h.split hget
  have hset : (older ++ u :: newer).set ((older ++ u :: newer).length - 1 - newer.length) sheet =
      older ++ sheet :: newer := by
    simp
  have hfits := h.fits
  have hyear := p.year_le
  simp only [List.length_append, List.length_cons] at hfits
  have h1 : 1 ≤ p.start + older.length := p.one_le_start.trans (Nat.le_add_right _ _)
  obtain ⟨hfilled, hsystem⟩ := history_filled hr hfill
  obtain ⟨update, hnew, hupdate⟩ :=
    newUpdate_content now hfilled hsystem h1 (by omega)
  obtain ⟨after', hrechain, hafter'⟩ :=
    rechain_content clock update hafter (by omega) (by omega)
  have hcgpa : update.cgpa = nextCgpa (cgpaAfter p.start p.cgpa older) (gpa D sheet)
      (p.start + older.length) := congrArg Update.cgpa hupdate
  have hchanged : (update :: after').map Update.content =
      records p.gradingSystem (p.start + older.length) (cgpaAfter p.start p.cgpa older)
        (sheet :: newer) := by
    rw [List.map_cons, hupdate, hafter', hcgpa]; rfl
  have hnewest := newest_cgpa hchanged (List.cons_ne_nil _ _)
  have hedited := editUpdates_eq update clock accepted hlist
  rw [hafterLength, storeRechained, hrechain] at hedited
  have huser : d.auth.user = (p.authAfter (older ++ u :: newer)).user := by rw [h.auth_eq]
  have hdata : d.auth.courseData = some p.courseData := by rw [h.auth_eq]; rfl
  have hlength : (older ++ u :: newer).length = (older ++ sheet :: newer).length := by simp
  rw [hset]
  simp only [UpdateScreen.edit, hnew, hedited, state_storeUpdates huser]
  refine ⟨?_, ?_, ?_⟩
  · simp only [hdata, hnewest, Profile.authAfter, hlength, cgpaAfter_append]
  · simp only [HiveUpdate.getUpdateList, Option.getD_some, List.reverse_reverse, List.map_append,
      hbefore, hchanged, records_append]
  · simpa using hfits

end StudyStats
