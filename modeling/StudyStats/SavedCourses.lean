import StudyStats.History
import StudyStats.Session

/-!
# The courses of saved records

A record shares its course list with the screen that saved it, with every screen opened over
it and, where the screen was a fresh one, with the catalogue. It keeps the courses it was
saved with as long as no one changes that list.

## Main results

* `recordsKept_iff` — the runs in which every record keeps its courses.
-/

namespace StudyStats

open Dart StatFunction

variable {D : Type} [Floating D]

namespace Session

/-! ## The invariant -/

/-- A record that has the courses it was saved with, and one score for each. -/
structure RecordOk (heap : Heap (List Course)) (x : CourseList × List ℤ) : Prop where
  allocated : x.1.ref < heap.size
  intact : x.1.Intact heap
  length_eq : x.1.saved.length = x.2.length
  known : ∀ s ∈ x.2, (scoreGrade s).isSome

/-- A screen with one score for each course it shows. -/
structure ScreenOk (heap : Heap (List Course)) (s : Screen CourseList) : Prop where
  allocated : s.courseData.ref < heap.size
  length_eq : s.scores.length = (heap.read s.courseData.ref).length
  known : ∀ g ∈ s.scores, g = "-1" ∨ (gradeScore g).isSome
  offered : ∀ g ∈ s.grades, (gradeScore g).isSome

structure Sound (w : Session D) : Prop where
  catalogue : ∀ c, w.device.auth.Lists c → c.ref < w.heap.size
  records : ∀ x ∈ w.records, RecordOk w.heap x
  screen : ∀ s, w.screen = some s → ScreenOk w.heap s

/-- Every stored record has the courses it was saved with, and one score for each. -/
def RecordsKept (w : Session D) : Prop :=
  ∀ x ∈ w.records, w.contents x.1 = x.1.saved ∧ (w.contents x.1).length = x.2.length

instance (w : Session D) : Decidable w.RecordsKept :=
  inferInstanceAs (Decidable (∀ x ∈ w.records, _ ∧ _))

/-- No course is added, deleted or edited on a list that a stored record has. -/
def Unshared (w : Session D) : SessionAction → Prop
  | .tile e => ∀ screen, w.screen = some screen → e.Changes (w.contents screen.courseData) →
      ∀ x ∈ w.records, x.1.ref ≠ screen.courseData.ref
  | _ => True

instance (w : Session D) : (a : SessionAction) → Decidable (w.Unshared a)
  | .tile e => inferInstanceAs (Decidable (∀ screen ∈ w.screen,
      e.Changes (w.contents screen.courseData) →
        ∀ x ∈ w.records, x.1.ref ≠ screen.courseData.ref))
  | .fresh _ | .history .. | .changeSemester _ | .changeLevel _ | .press .. | .leave =>
    isTrue trivial

variable {w w' : Session D} {a : SessionAction}

omit [Floating D] in
theorem Sound.recordsKept (h : Sound w) : w.RecordsKept := by
  intro x hx
  have hok := h.records x hx
  exact ⟨hok.intact, by rw [contents, hok.intact, hok.length_eq]⟩

/-! ## Steps -/

section Screens

omit [Floating D]

variable {heap : Heap (List Course)} {s : Screen CourseList} {x : CourseList × List ℤ}

theorem RecordOk.alloc (h : RecordOk heap x) (l : List Course) :
    RecordOk (heap.alloc l).2 x where
  allocated := by rw [Heap.size_alloc]; exact h.allocated.trans (Nat.lt_succ_self _)
  intact := h.intact.alloc h.allocated
  length_eq := h.length_eq
  known := h.known

theorem RecordOk.write (h : RecordOk heap x) {r : ℕ} {l : List Course}
    (hsame : x.1.ref = r → l = heap.read r) : RecordOk (heap.write r l) x where
  allocated := by rw [Heap.size_write]; exact h.allocated
  intact := (Held.intact_write_iff h.intact h.allocated).2 hsame
  length_eq := h.length_eq
  known := h.known

theorem ScreenOk.of_blank {contents : CourseList → List Course}
    {auth : AuthProvider D CourseList} (hblank : s.Blank contents auth)
    (hcontents : ∀ c, contents c = heap.read c.ref) (hlt : s.courseData.ref < heap.size)
    (hoffered : ∀ g ∈ s.grades, (gradeScore g).isSome) : ScreenOk heap s where
  allocated := hlt
  length_eq := by rw [hblank.scores, List.length_replicate, hcontents]
  known g hg := .inl (List.eq_of_mem_replicate (hblank.scores ▸ hg))
  offered := hoffered

/-- A screen over a record has the record's list and a grade for each of its courses. -/
theorem ScreenOk.of_record (h : RecordOk heap x) (hlist : s.courseData = x.1)
    (hscores : s.scores = x.2.filterMap scoreGrade)
    (hoffered : ∀ g ∈ s.grades, (gradeScore g).isSome) : ScreenOk heap s where
  allocated := hlist ▸ h.allocated
  length_eq := by
    have hlen : (x.2.filterMap scoreGrade).length = x.2.length :=
      length_filterMap_of_isSome h.known
    rw [hscores, hlen, hlist, h.intact, h.length_eq]
  known g hg := by
    rw [hscores] at hg
    obtain ⟨score, -, hg⟩ := List.mem_filterMap.1 hg
    exact .inr (isSome_gradeScore hg)
  offered := hoffered

/-- What a screen stores after its check. -/
theorem RecordOk.of_screen (h : ScreenOk w.heap s)
    (hcomplete : UpdateScreen.complete (w.contents s.courseData) s.scores = some true) :
    RecordOk w.heap (w.stored s) where
  allocated := h.allocated
  intact := rfl
  length_eq := by
    have hchosen := chosen_of_complete hcomplete h.length_eq
    have hlen : (s.scores.filterMap gradeScore).length = s.scores.length :=
      length_filterMap_of_isSome fun g hg => (h.known g hg).resolve_left (hchosen g hg)
    simp only [stored, hlen, h.length_eq, contents]
  known score hscore := by
    obtain ⟨g, -, hg⟩ := List.mem_filterMap.1 hscore
    exact Option.isSome_iff_exists.2 ⟨g, scoreGrade_of_gradeScore hg⟩

end Screens

omit [Floating D] in
/-- A drop-down on a screen whose list and scores are as before. -/
theorem Sound.reload (h : Sound w) {s s' : QuickScreen CourseList}
    (hscreen : w.screen = some (.quick s)) (hlist : s'.courseData = s.courseData)
    (hscores : s'.scores = s.scores) (hgrades : s'.grades = s.grades) :
    Sound { w with screen := some (.quick (s'.reload w.contents w.device.auth)) } where
  catalogue := h.catalogue
  records := h.records
  screen := by
    intro t ht
    cases ht
    have hs := h.screen _ hscreen
    have hs' : ScreenOk w.heap (.quick s') :=
      ⟨by rw [Screen.courseData, hlist]; exact hs.allocated,
        by rw [Screen.scores, Screen.courseData, hscores, hlist]; exact hs.length_eq,
        by rw [Screen.scores, hscores]; exact hs.known,
        by rw [Screen.grades, hgrades]; exact hs.offered⟩
    rcases reload_cases w.contents w.device.auth s' with hsame | ⟨hblank, hoffered⟩
    · rwa [hsame]
    · refine .of_blank hblank (fun _ => rfl) (h.catalogue _ hblank.lists) ?_
      rw [Screen.grades, hoffered]
      exact hs'.offered

theorem Sound.openFresh (h : Sound w) {kind : Kind} (hopen : w.openFresh kind = some w') :
    Sound w' := by
  obtain ⟨screen, hfresh, rfl⟩ := openFresh_eq hopen
  have hcatalogue : ∀ c, w.device.auth.Lists c → c.ref < (w.heap.alloc []).2.size := by
    intro c hc
    rw [Heap.size_alloc]
    exact (h.catalogue c hc).trans (Nat.lt_succ_self _)
  refine ⟨hcatalogue, fun x hx => (h.records x hx).alloc [], fun s hs => ?_⟩
  cases hs
  rcases freshScreen_cases hfresh with ⟨hlist, hscores, hgrades⟩ | ⟨hblank, hgrades⟩
  · -- the catalogue has no list, and the screen keeps its own
    refine ⟨?_, ?_, ?_, ?_⟩
    · rw [hlist, Heap.size_alloc]
      exact Nat.lt_succ_self _
    · have hread := Heap.read_alloc_self (h := w.heap) (a := ([] : List Course))
      rw [hlist, hscores, hread]
      rfl
    · rw [hscores]
      exact List.forall_mem_nil _
    · rw [hgrades]
      exact List.forall_mem_nil _
  · exact .of_blank hblank (fun _ => rfl) (hcatalogue _ hblank.lists)
      fun g hg => isSome_gradeScore_of_mem (hgrades ▸ hg)

theorem Sound.openHistory (h : Sound w) {kind : Kind} {index : ℕ}
    (hopen : w.openHistory kind index = some w') : Sound w' := by
  obtain ⟨screen, hhistory, rfl⟩ := Option.map_eq_some_iff.1 hopen
  refine ⟨h.catalogue, h.records, fun s hs => ?_⟩
  cases hs
  obtain ⟨hgrades, x, hx, hlist, hscores⟩ := historyScreen_cases hhistory
  exact .of_record (h.records x hx) hlist hscores
    fun g hg => isSome_gradeScore_of_mem (hgrades ▸ hg)

theorem Sound.tile (h : Sound w) {e : CourseEdit} (hshared : w.Unshared (.tile e))
    (hstep : w.step (.tile e) = some w') : Sound w' := by
  obtain ⟨screen, courses, scores, hscreen, happly, rfl⟩ := step_tile hstep
  have hs := h.screen screen hscreen
  obtain ⟨hlen, hmem⟩ := CourseEdit.apply_scores happly hs.length_eq
  refine ⟨fun c hc => ?_, fun x hx => (h.records x hx).write fun href => ?_, fun s hs' => ?_⟩
  · rw [Heap.size_write]
    exact h.catalogue c hc
  · -- a record's own list, so the operation has left it as it was
    have hnot : ¬e.Changes (w.contents screen.courseData) :=
      fun hchanges => hshared screen hscreen hchanges x hx href
    rw [CourseEdit.changes_iff happly, ne_eq, not_not] at hnot
    exact hnot
  · cases hs'
    refine ⟨?_, ?_, fun g hg => ?_, ?_⟩
    · rw [Screen.courseData_withScores, Heap.size_write]
      exact hs.allocated
    · rw [Screen.courseData_withScores, Screen.scores_withScores,
        Heap.read_write_self hs.allocated, hlen]
    · rw [Screen.scores_withScores] at hg
      rcases hmem g hg with hold | hnone | hoffered
      · exact hs.known g hold
      · exact .inl hnone
      · exact .inr (hs.offered g hoffered)
    · rw [Screen.grades_withScores]
      exact hs.offered

theorem Sound.press (h : Sound w) {now : Timestamp} {clock : ℕ → Timestamp} {accepted : Bool}
    (hstep : w.step (.press now clock accepted) = some w') : Sound w' := by
  obtain ⟨screen, hscreen, hheap, -, hdata, hafter, hrecords⟩ := step_press hstep
  have hs := h.screen screen hscreen
  refine ⟨fun c hc => ?_, fun x hx => ?_, fun s hs' => ?_⟩
  · rw [hheap]
    refine h.catalogue c ?_
    obtain ⟨level, semester, hc⟩ := hc
    exact ⟨level, semester, by rwa [AuthProvider.courseList, ← hdata]⟩
  · rw [hheap]
    rcases hrecords x hx with hold | ⟨rfl, hcomplete⟩
    · exact h.records x hold
    · exact .of_screen hs hcomplete
  · rw [hheap]
    rcases hafter with hsame | hclosed
    · cases hsame.symm.trans hs'
      exact hs
    · cases hclosed.symm.trans hs'

theorem Sound.step (h : Sound w) (hshared : w.Unshared a) (hstep : w.step a = some w') :
    Sound w' := by
  cases a with
  | fresh kind =>
    simp only [Session.step, Option.ite_none_left_eq_some] at hstep
    exact h.openFresh hstep.2
  | history kind index =>
    simp only [Session.step, Option.ite_none_left_eq_some] at hstep
    exact h.openHistory hstep.2
  | changeSemester value =>
    simp only [Session.step] at hstep
    split at hstep
    · next s hscreen =>
      cases hstep
      exact h.reload hscreen rfl rfl rfl
    · cases hstep
  | changeLevel value =>
    simp only [Session.step] at hstep
    split at hstep
    · next s hscreen =>
      cases hstep
      exact h.reload hscreen rfl rfl rfl
    · cases hstep
  | tile e => exact h.tile hshared hstep
  | press now clock accepted => exact h.press hstep
  | leave =>
    cases hstep
    refine ⟨h.catalogue, h.records, ?_⟩
    intro s hs
    cases hs

/-- A step that leaves the records their courses works on no list of theirs. -/
theorem Sound.unshared (h : Sound w) (hstep : w.step a = some w') (hkept : w'.RecordsKept) :
    w.Unshared a := by
  cases a with
  | tile e =>
    obtain ⟨screen, courses, scores, hscreen, happly, rfl⟩ := step_tile hstep
    intro screen' hscreen' hchanges x hx href
    obtain rfl := Option.some.inj (hscreen.symm.trans hscreen')
    have hok := h.records x hx
    have hintact := (Held.intact_write_iff hok.intact hok.allocated).1 (hkept x hx).1 href
    exact (CourseEdit.changes_iff happly).1 hchanges hintact
  | _ => trivial

end Session

/-- In a run from a state in which every record has its courses, every record keeps them
exactly when no step adds, deletes or edits a course on a list that a stored record has. -/
theorem recordsKept_iff {w w' : Session D} {as : List SessionAction} (hw : w.Sound)
    (hrun : Machine.run Session.step as w = some w') :
    Machine.Always Session.step Session.RecordsKept as w ↔
      Machine.Each Session.step Session.Unshared as w :=
  Machine.always_iff_each Session.Sound (fun _ h => h.recordsKept)
    (fun _ _ _ h hstep hkept => h.unshared hstep hkept)
    (fun _ _ _ h hshared hstep => h.step hshared hstep) hw hrun

/-! ## A first session -/

namespace Session

omit [Floating D] in
/-- A session in which nothing is stored or open yet, over a catalogue of allocated lists. -/
theorem Sound.start {w : Session D} (hcatalogue : ∀ c, w.device.auth.Lists c →
    c.ref < w.heap.size) (hrecords : w.records = []) (hscreen : w.screen = none) : Sound w where
  catalogue := hcatalogue
  records _ hx := absurd (hrecords ▸ hx) List.not_mem_nil
  screen _ hs := absurd (hscreen ▸ hs) nofun

/-- The first-year user, with the list of the first semester in the only cell. -/
def freshman : Session Double where
  gradingSystem := "5"
  heap := ⟨[[⟨"Calculus", "MATH101", .int 3⟩, ⟨"Mechanics", "PHYS101", .int 3⟩]]⟩
  quicks := []
  simulates := []
  device :=
    { auth :=
        { user := some StudyStats.freshman.user
          courseData := some
            { year := some 4
              courses := fun level digit => if level = "100" ∧ digit = "1" then
                some ⟨0, [⟨"Calculus", "MATH101", .int 3⟩, ⟨"Mechanics", "PHYS101", .int 3⟩]⟩
                else none } }
      updateBox := none }
  screen := none

theorem catalogue_freshman : ∀ c, freshman.device.auth.Lists c → c.ref < freshman.heap.size := by
  intro c ⟨level, semester, hc⟩
  simp only [AuthProvider.courseList, freshman, Option.bind_eq_bind, Option.bind_some,
    Option.bind_eq_some_iff, Option.ite_none_right_eq_some, Option.some.injEq] at hc
  obtain ⟨digit, -, -, rfl⟩ := hc
  decide

theorem sound_freshman : Sound freshman := .start catalogue_freshman rfl rfl

/-- A quick result, looked at again. -/
def lookedAt : List SessionAction :=
  [.fresh .quick, .tile (.choose 0 "A"), .tile (.choose 1 "C"), .press 1 (fun _ => 1) true, .leave,
    .history .quick 0, .leave]

/-- The same with a course deleted while looking. -/
def deletedFrom : List SessionAction :=
  [.fresh .quick, .tile (.choose 0 "A"), .tile (.choose 1 "C"), .press 1 (fun _ => 1) true, .leave,
    .history .quick 0, .tile (.delete 0), .leave]

end Session

theorem recordsKept_freshman : ∃ w,
    Machine.run Session.step Session.lookedAt Session.freshman = some w ∧
    w.quicks.map (fun r => ((w.contents r.courseData).length, r.scores)) = [(2, [5, 3])] ∧
    Machine.Always Session.step Session.RecordsKept Session.lookedAt Session.freshman := by
  have hcheck : (Machine.run Session.step Session.lookedAt Session.freshman).map (fun w =>
      w.quicks.map fun r => ((w.contents r.courseData).length, r.scores)) =
      some [(2, [5, 3])] := by
    decide +kernel
  obtain ⟨w, hrun, hquicks⟩ := Option.map_eq_some_iff.1 hcheck
  have hunshared : Machine.Each Session.step Session.Unshared Session.lookedAt
      Session.freshman := by
    decide +kernel
  exact ⟨w, hrun, hquicks, (recordsKept_iff Session.sound_freshman hrun).2 hunshared⟩

/-- Deleting a course from a screen over a saved result, which is then left, takes it from the
result. Its two scores stay. -/
theorem recordsKept_fails : ∃ w, Machine.run Session.step Session.deletedFrom Session.freshman =
      some w ∧
    w.quicks.map (fun r => ((w.contents r.courseData).length, r.scores)) = [(1, [5, 3])] ∧
    ¬w.RecordsKept := by
  have hcheck : (Machine.run Session.step Session.deletedFrom Session.freshman).map (fun w =>
      (w.quicks.map (fun r => ((w.contents r.courseData).length, r.scores)),
        decide w.RecordsKept)) = some ([(1, [5, 3])], false) := by
    decide +kernel
  obtain ⟨w, hrun, hw⟩ := Option.map_eq_some_iff.1 hcheck
  obtain ⟨hquicks, hkept⟩ := Prod.mk.inj hw
  exact ⟨w, hrun, hquicks, of_decide_eq_false hkept⟩

end StudyStats
