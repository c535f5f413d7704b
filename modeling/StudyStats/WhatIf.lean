import StudyStats.SavedCourses

/-!
# What-if screens and the official upload

The quick calculator and the simulator work on the provider's own lists, so a course that is
added, deleted or edited there is so on the update screen too. Nothing else of what they do
reaches it.

## Main results

* `sameUploads_iff` — the what-if runs after which every upload is what it would have been.
-/

namespace StudyStats

open Dart

variable {D : Type} [Floating D]

/-- A list that the update screen binds for some user. -/
def AuthProvider.Official {C : Type} (auth : AuthProvider D C) (c : C) : Prop :=
  ∃ (level : ℤ) (semester : String), auth.courseList (toString level) semester = some c

namespace Session

/-- What a fresh update screen shows a user, and the GPA, scores and CGPA it records for a
choice of grades. -/
def uploadView (w : Session D) (user : User D) (grades : List String) :
    Option (List Course × Option (String × List ℤ × String)) :=
  let (ref, heap) := w.heap.alloc []
  let contents := fun c : CourseList => heap.read c.ref
  (UpdateScreen.init contents ⟨ref, []⟩ w.gradingSystem
    { w.device.auth with user := some user }).map fun screen =>
      (contents screen.courseData,
        { screen with scores := grades }.compute D (contents screen.courseData))

/-- Operations of the quick calculator and the simulator. -/
def IsWhatIf (w : Session D) : SessionAction → Bool
  | .fresh kind | .history kind _ => kind ≠ .update
  | _ =>
    match w.screen with
    | some (.update ..) => false
    | _ => true

def stepWhatIf (w : Session D) (a : SessionAction) : Option (Session D) :=
  if w.IsWhatIf a then w.step a else none

/-- Every upload is what it would be in `w`. -/
def SameUploads (w v : Session D) : Prop :=
  ∀ user grades, v.uploadView user grades = w.uploadView user grades

/-- No course is added, deleted or edited on a list that the update screen binds. -/
def SparesCatalogue (w : Session D) : SessionAction → Prop
  | .tile e => ∀ screen, w.screen = some screen → e.Changes (w.contents screen.courseData) →
      ∀ c, w.device.auth.Official c → c.ref ≠ screen.courseData.ref
  | _ => True

variable {w v v' : Session D} {a : SessionAction}

/-! ## What the update screen depends on -/

/-- The view of a user from the list the catalogue has for the user's semester. -/
def viewOf (gradingSystem level semester : String) (cgpa : D) (grades : List String) :
    Option (List Course) → List Course × Option (String × List ℤ × String)
  | none => ([], UpdateScreen.compute D [] { UpdateScreen.blank () with
      semester, level, currentGpa := Floating.toString cgpa, scores := grades })
  | some courses => (courses, UpdateScreen.compute D courses { UpdateScreen.blank () with
      semester, level, currentGpa := Floating.toString cgpa, scores := grades
      system := (getGrade gradingSystem).1 })

theorem uploadView_eq (hw : ∀ c, w.device.auth.Official c → c.ref < w.heap.size) {user : User D}
    {level : ℤ} {semester : String} {cgpa : D} (hlevel : user.level = some level)
    (hsemester : user.semester = some semester) (hcgpa : user.currentCgpa = some cgpa)
    (grades : List String) : w.uploadView user grades = some (viewOf w.gradingSystem
      (toString level) semester cgpa grades
      ((w.device.auth.courseList (toString level) semester).map w.contents)) := by
  have hlist : (w.device.auth.courseData.bind fun data =>
      (substring semester 0 1).bind fun digit => data.courses (toString level) digit) =
        w.device.auth.courseList (toString level) semester := rfl
  simp only [uploadView, UpdateScreen.init, hlevel, hsemester, hcgpa, Option.bind_eq_bind,
    Option.bind_some, hlist]
  cases hc : w.device.auth.courseList (toString level) semester with
  | none =>
    have hread := Heap.read_alloc_self (h := w.heap) (a := ([] : List Course))
    simp only [Option.pure_def, Option.map_some, Heap.fst_alloc, UpdateScreen.blank, hread]
    rfl
  | some c =>
    have hread := Heap.read_alloc_of_lt (a := ([] : List Course)) (hw c ⟨level, semester, hc⟩)
    simp only [Option.pure_def, Option.map_some, hread]
    rfl

/-- The update screens of `v` bind the lists of those of `w`, with the same courses. -/
structure Agrees (w v : Session D) : Prop where
  gradingSystem : v.gradingSystem = w.gradingSystem
  courseData : v.device.auth.courseData = w.device.auth.courseData
  allocated : ∀ c, w.device.auth.Official c → c.ref < v.heap.size
  contents : ∀ c, w.device.auth.Official c → v.contents c = w.contents c

omit [Floating D] in
theorem official_congr (h : v.device.auth.courseData = w.device.auth.courseData)
    (c : CourseList) : v.device.auth.Official c ↔ w.device.auth.Official c := by
  simp only [AuthProvider.Official, AuthProvider.courseList, h]

theorem Agrees.sameUploads (h : Agrees w v)
    (hw : ∀ c, w.device.auth.Official c → c.ref < w.heap.size) : SameUploads w v := by
  intro user grades
  have hv : ∀ c, v.device.auth.Official c → c.ref < v.heap.size :=
    fun c hc => h.allocated c ((official_congr h.courseData c).1 hc)
  cases hlevel : user.level with
  | none => simp [uploadView, UpdateScreen.init, hlevel]
  | some level =>
    cases hsemester : user.semester with
    | none => simp [uploadView, UpdateScreen.init, hsemester]
    | some semester =>
      cases hcgpa : user.currentCgpa with
      | none => simp [uploadView, UpdateScreen.init, hcgpa]
      | some cgpa =>
        have hlist : v.device.auth.courseList (toString level) semester =
            w.device.auth.courseList (toString level) semester := by
          simp only [AuthProvider.courseList, h.courseData]
        rw [uploadView_eq hv hlevel hsemester hcgpa, uploadView_eq hw hlevel hsemester hcgpa,
          hlist, h.gradingSystem]
        cases hc : w.device.auth.courseList (toString level) semester with
        | none => rfl
        | some c => rw [Option.map_some, Option.map_some, h.contents c ⟨level, semester, hc⟩]

/-- The lists of the catalogue can be read off the update screens. -/
theorem contents_of_sameUploads (hcourseData : v.device.auth.courseData = w.device.auth.courseData)
    (hw : ∀ c, w.device.auth.Official c → c.ref < w.heap.size)
    (hv : ∀ c, w.device.auth.Official c → c.ref < v.heap.size) (h : SameUploads w v)
    {c : CourseList} (hc : w.device.auth.Official c) : v.contents c = w.contents c := by
  obtain ⟨level, semester, hlist⟩ := hc
  let user : User D :=
    { id := "", name := "", email := "", password := "", matricNo := "", image := ""
      university := none, faculty := none, course := none, level := some level
      semester := some semester, currentCgpa := some (Floating.ofInt 0), premium := false }
  have hlist' : v.device.auth.courseList (toString level) semester = some c := by
    rwa [AuthProvider.courseList, hcourseData]
  have hview := h user []
  rw [uploadView_eq (fun c hc => hv c ((official_congr hcourseData c).1 hc)) rfl rfl rfl,
    uploadView_eq hw rfl rfl rfl, hlist, hlist'] at hview
  exact congrArg Prod.fst (Option.some.inj hview)

/-! ## Steps -/

omit [Floating D] in
theorem Agrees.congr (h : Agrees w v) (hheap : v'.heap = v.heap)
    (hsystem : v'.gradingSystem = v.gradingSystem)
    (hdata : v'.device.auth.courseData = v.device.auth.courseData) : Agrees w v' := by
  refine ⟨hsystem.trans h.gradingSystem, hdata.trans h.courseData, fun c hc => ?_,
    fun c hc => ?_⟩
  · rw [hheap]
    exact h.allocated c hc
  · rw [Session.contents, hheap]
    exact h.contents c hc

theorem Agrees.openFresh (h : Agrees w v) {kind : Kind} (hopen : v.openFresh kind = some v') :
    Agrees w v' := by
  obtain ⟨screen, -, rfl⟩ := openFresh_eq hopen
  refine ⟨h.gradingSystem, h.courseData, fun c hc => ?_, fun c hc => ?_⟩
  · rw [Heap.size_alloc]
    exact (h.allocated c hc).trans (Nat.lt_succ_self _)
  · rw [← h.contents c hc]
    exact Heap.read_alloc_of_lt (h.allocated c hc)

theorem Agrees.tile (h : Agrees w v) {e : CourseEdit} (hspares : v.SparesCatalogue (.tile e))
    (hstep : v.step (.tile e) = some v') : Agrees w v' := by
  obtain ⟨screen, courses, scores, hscreen, happly, rfl⟩ := step_tile hstep
  refine ⟨h.gradingSystem, h.courseData, fun c hc => ?_, fun c hc => ?_⟩
  · rw [Heap.size_write]
    exact h.allocated c hc
  · rw [← h.contents c hc]
    by_cases href : c.ref = screen.courseData.ref
    · -- an official list, so the operation has left it as it was
      have hnot : ¬e.Changes (v.contents screen.courseData) := fun hchanges =>
        hspares screen hscreen hchanges c ((official_congr h.courseData c).2 hc) href
      rw [CourseEdit.changes_iff happly, ne_eq, not_not] at hnot
      have hlt : screen.courseData.ref < v.heap.size := href ▸ h.allocated c hc
      rw [Session.contents, href, Heap.read_write_self hlt, hnot, Session.contents,
        Session.contents, href]
    · exact Heap.read_write_of_ne href

theorem Agrees.step (h : Agrees w v) (hspares : v.SparesCatalogue a)
    (hstep : v.step a = some v') : Agrees w v' := by
  cases a with
  | fresh kind =>
    simp only [Session.step, Option.ite_none_left_eq_some] at hstep
    exact h.openFresh hstep.2
  | history kind index =>
    simp only [Session.step, Option.ite_none_left_eq_some] at hstep
    obtain ⟨screen, -, rfl⟩ := Option.map_eq_some_iff.1 hstep.2
    exact h.congr rfl rfl rfl
  | changeSemester value =>
    simp only [Session.step] at hstep
    split at hstep <;> cases hstep
    exact h.congr rfl rfl rfl
  | changeLevel value =>
    simp only [Session.step] at hstep
    split at hstep <;> cases hstep
    exact h.congr rfl rfl rfl
  | tile e => exact h.tile hspares hstep
  | press now clock accepted =>
    obtain ⟨screen, -, hheap, hsystem, hdata, -⟩ := step_press hstep
    exact h.congr hheap hsystem hdata
  | leave =>
    cases hstep
    exact h.congr rfl rfl rfl

/-- A step after which every upload is the same works on no list of the catalogue. -/
theorem Agrees.sparesCatalogue (h : Agrees w v)
    (hw : ∀ c, w.device.auth.Official c → c.ref < w.heap.size) (hstep : v.step a = some v')
    (hsame : SameUploads w v') : v.SparesCatalogue a := by
  cases a with
  | tile e =>
    obtain ⟨screen, courses, scores, hscreen, happly, rfl⟩ := step_tile hstep
    intro screen' hscreen' hchanges c hc href
    obtain rfl := Option.some.inj (hscreen.symm.trans hscreen')
    have hc := (official_congr h.courseData c).1 hc
    have hlt := h.allocated c hc
    have hread : (v.heap.write screen.courseData.ref courses).read c.ref = w.contents c :=
      contents_of_sameUploads (v := { v with
        heap := v.heap.write screen.courseData.ref courses
        screen := some (screen.withScores scores) }) h.courseData hw
        (fun c hc => by rw [Heap.size_write]; exact h.allocated c hc) hsame hc
    rw [← h.contents c hc, href, Heap.read_write_self (href ▸ hlt), Session.contents, href] at hread
    exact (CourseEdit.changes_iff happly).1 hchanges hread
  | _ => trivial

theorem step_of_stepWhatIf (h : w.stepWhatIf a = some v) : w.step a = some v := by
  unfold stepWhatIf at h
  split_ifs at h
  exact h

end Session

/-- After every part of a what-if run each upload is what it would have been without the run
exactly when no step adds, deletes or edits a course on a list that the update screen binds. -/
theorem sameUploads_iff {w w' : Session D} {as : List SessionAction}
    (hw : ∀ c, w.device.auth.Lists c → c.ref < w.heap.size)
    (hrun : Machine.run Session.stepWhatIf as w = some w') :
    Machine.Always Session.stepWhatIf (Session.SameUploads w) as w ↔
      Machine.Each Session.stepWhatIf Session.SparesCatalogue as w := by
  have hofficial : ∀ c, w.device.auth.Official c → c.ref < w.heap.size :=
    fun c ⟨level, semester, hc⟩ => hw c ⟨toString level, semester, hc⟩
  exact Machine.always_iff_each (Session.Agrees w) (fun _ h => h.sameUploads hofficial)
    (fun _ _ _ h hstep hsame =>
      h.sparesCatalogue hofficial (Session.step_of_stepWhatIf hstep) hsame)
    (fun _ _ _ h hspares hstep => h.step hspares (Session.step_of_stepWhatIf hstep))
    ⟨rfl, rfl, hofficial, fun _ _ => rfl⟩ hrun

/-- A quick result over the catalogue's own list. -/
theorem sameUploads_freshman : ∃ w,
    Machine.run Session.stepWhatIf Session.lookedAt Session.freshman = some w ∧
    Machine.Always Session.stepWhatIf (Session.SameUploads Session.freshman) Session.lookedAt
      Session.freshman := by
  have hsome : (Machine.run Session.stepWhatIf Session.lookedAt Session.freshman).isSome := by
    decide +kernel
  obtain ⟨w, hrun⟩ := Option.isSome_iff_exists.1 hsome
  -- only grades are chosen
  have hspares : ∀ a ∈ Session.lookedAt, ∀ s : Session Double, s.SparesCatalogue a := by
    simp [Session.lookedAt, Session.SparesCatalogue, CourseEdit.Changes]
  exact ⟨w, hrun, (sameUploads_iff Session.catalogue_freshman hrun).2
    (Machine.each_of_forall hspares _)⟩

/-- Trying other units on the quick calculator changes the official GPA of the same grades. -/
theorem sameUploads_fails : ∃ w, Machine.run Session.stepWhatIf
      [.fresh .quick, .tile (.edit 0 "Calculus" "MATH101" "1"), .leave] Session.freshman = some w ∧
    ((Session.freshman.uploadView freshman.user ["A", "C"]).bind Prod.snd).map (·.1) =
      some "4.0" ∧
    ((w.uploadView freshman.user ["A", "C"]).bind Prod.snd).map (·.1) = some "3.5" ∧
    ¬Session.SameUploads Session.freshman w := by
  have hbefore : ((Session.freshman.uploadView freshman.user ["A", "C"]).bind Prod.snd).map
      (·.1) = some "4.0" := by
    decide +kernel
  have hcheck : (Machine.run Session.stepWhatIf
      [.fresh .quick, .tile (.edit 0 "Calculus" "MATH101" "1"), .leave] Session.freshman).map
        (fun w => ((w.uploadView freshman.user ["A", "C"]).bind Prod.snd).map (·.1)) =
      some (some "3.5") := by
    decide +kernel
  obtain ⟨w, hrun, hafter⟩ := Option.map_eq_some_iff.1 hcheck
  refine ⟨w, hrun, hbefore, hafter, fun hsame => ?_⟩
  rw [hsame, hbefore] at hafter
  exact absurd hafter (by decide)

end StudyStats
