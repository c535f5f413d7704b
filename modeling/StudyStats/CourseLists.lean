import StudyStats.Labels

/-!
# Other course lists

Records hold their course lists as they were given them, and nothing that is done to a device
looks into the ones it already has. So the lists can be replaced, or references to them read,
before an upload or an edit as well as after it, and the course map by any of the same length.

## Main definitions

* `Device.map` — the device with other course lists in its map and in its records.

## Main results

* `UpdateScreen.upload_map`, `editUpdates_map` — replacing lists commutes with uploads and edits.
-/

namespace StudyStats

open Dart StatFunction

variable {D C C' : Type}

def CourseData.map (g : C → C') (data : CourseData C) : CourseData C' where
  year := data.year
  courses := fun level digit => (data.courses level digit).map g

def Update.map (g : C → C') (r : Update D C) : Update D C' :=
  { r with courseData := g r.courseData }

@[simp] theorem Update.label_map (g : C → C') (r : Update D C) : (r.map g).label = r.label := rfl

def AuthProvider.map (f : CourseData C → CourseData C') (auth : AuthProvider D C) :
    AuthProvider D C' where
  user := auth.user
  courseData := auth.courseData.map f

def Device.map (f : CourseData C → CourseData C') (g : C → C') (d : Device D C) : Device D C' where
  auth := d.auth.map f
  updateBox := d.updateBox.map (List.map (Update.map g))

def Outcome.map {σ τ : Type} (h : σ → τ) : Outcome σ → Outcome τ
  | finished s => finished (h s)
  | threw s => threw (h s)

theorem Outcome.andThen_map {σ τ : Type} {h : σ → τ} {k : σ → Outcome σ} {k' : τ → Outcome τ}
    (o : Outcome σ) (hk : ∀ s, k' (h s) = (k s).map h) :
    (o.map h).andThen k' = (o.andThen k).map h := by
  cases o with
  | finished s => exact hk s
  | threw s => rfl

def UpdateScreen.map (g : C → C') (screen : UpdateScreen C) : UpdateScreen C' :=
  { screen with courseData := g screen.courseData }

variable {f : CourseData C → CourseData C'} {g : C → C'}

@[simp] theorem getUpdateList_map (d : Device D C) :
    HiveUpdate.getUpdateList (d.map f g) = (HiveUpdate.getUpdateList d).map (Update.map g) :=
  Option.getD_map (List.map (Update.map g)) [] d.updateBox

@[simp] theorem labels_map (d : Device D C) : labels (d.map f g) = labels d := by
  simp only [labels, getUpdateList_map, List.map_map]
  rfl

theorem replaceUpdateList_map (updates : List (Update D C)) (d : Device D C) :
    HiveUpdate.replaceUpdateList (updates.map (Update.map g)) (d.map f g) =
      (HiveUpdate.replaceUpdateList updates d).map f g := rfl

theorem addUpdateData_map (r : Update D C) (d : Device D C) :
    HiveUpdate.addUpdateData (r.map g) (d.map f g) = (HiveUpdate.addUpdateData r d).map f g := by
  simp only [HiveUpdate.addUpdateData, getUpdateList_map]
  simp [Device.map]

namespace UpdateScreen

variable [Floating D]

/-! ## Uploads -/

theorem newUpdate_map (contents : List Course) (now : Timestamp) (screen : UpdateScreen C) :
    (screen.map g).newUpdate (D := D) contents now =
      (screen.newUpdate contents now).map (Update.map g) := by
  have hcompute : (screen.map g).compute D contents = screen.compute D contents := rfl
  simp only [newUpdate, hcompute, Option.bind_eq_bind, Option.pure_def, Option.map_bind,
    Function.comp_def, Option.map_some]
  rfl

end UpdateScreen

variable [Floating D]

omit [Floating D] in
theorem AuthProvider.nextPosition_map {auth : AuthProvider D C}
    (hf : ∀ data, auth.courseData = some data → (f data).year = data.year) (level : ℤ)
    (semester : String) :
    nextPosition (auth.map f).courseData level semester =
      nextPosition auth.courseData level semester := by
  unfold nextPosition map
  cases hdata : auth.courseData with
  | none => rfl
  | some data =>
    have hyear : (f data).yearText = data.yearText := by
      unfold CourseData.yearText
      rw [hf data hdata]
    simp only [Option.map_some, Option.bind_eq_bind, Option.bind_some, hyear]

theorem AuthProvider.incrementUser_map {auth : AuthProvider D C}
    (hf : ∀ data, auth.courseData = some data → (f data).year = data.year) (cgpa : String) :
    (auth.map f).incrementUser cgpa = (auth.incrementUser cgpa).map (AuthProvider.map f) := by
  have huser : (auth.map f).user = auth.user := rfl
  simp only [incrementUser, nextPosition_map hf, huser, Option.bind_eq_bind, Option.pure_def,
    Option.map_bind, Function.comp_def, Option.map_some]
  rfl

theorem auth_saveUpdateGrade (scores : List ℤ) (system : ℤ) (courseData : C)
    (gpa cgpa level semester pastSemester : String) (now : Timestamp) (d : Device D C) :
    (saveUpdateGrade D scores system courseData gpa cgpa level semester pastSemester now d).auth =
      d.auth := by
  unfold saveUpdateGrade
  split <;> rfl

theorem saveUpdateGrade_map (scores : List ℤ) (system : ℤ) (courseData : C)
    (gpa cgpa level semester pastSemester : String) (now : Timestamp) (d : Device D C) :
    saveUpdateGrade D scores system (g courseData) gpa cgpa level semester pastSemester now
        (d.map f g) =
      (saveUpdateGrade D scores system courseData gpa cgpa level semester pastSemester now d).map
        f g := by
  unfold saveUpdateGrade
  split
  · rw [← addUpdateData_map]
    rfl
  · rfl

theorem UpdateScreen.upload_map {d : Device D C}
    (hf : ∀ data, d.auth.courseData = some data → (f data).year = data.year)
    (contents : List Course) (now : Timestamp) (screen : UpdateScreen C) :
    (screen.map g).upload contents now (d.map f g) = (screen.upload contents now d).map f g := by
  have hcompute : (screen.map g).compute D contents = screen.compute D contents := rfl
  unfold upload
  rw [hcompute]
  cases screen.compute D contents with
  | none => rfl
  | some result =>
    obtain ⟨gpa, score, cgpa⟩ := result
    have hsaved := saveUpdateGrade_map (f := f) (g := g) score screen.system screen.courseData gpa
      cgpa screen.level screen.semester screen.currentGpa now d
    have hauth := auth_saveUpdateGrade score screen.system screen.courseData gpa cgpa screen.level
      screen.semester screen.currentGpa now d
    simp only [UpdateScreen.map, hsaved]
    rw [← hauth] at hf
    simp only [Device.map, AuthProvider.incrementUser_map hf, Option.getD_map]

/-! ## Edits -/

theorem replaceUpdate_map (r past : Update D C) (now : Timestamp) :
    replaceUpdate (r.map g) (past.map g) now = (replaceUpdate r past now).map (Update.map g) := by
  simp only [replaceUpdate, Update.map, Option.bind_eq_bind, Option.pure_def, Option.map_bind,
    Function.comp_def, Option.map_some]

theorem updateUserCGPA_map (accepted : Bool) (cgpa : String) (auth : AuthProvider D C) :
    (auth.map f).updateUserCGPA accepted cgpa =
      (auth.updateUserCGPA accepted cgpa).map (AuthProvider.map f) := by
  have huser : (auth.map f).user = auth.user := rfl
  unfold AuthProvider.updateUserCGPA
  rw [huser]
  split
  · cases accepted <;> rfl
  · rfl

theorem storeUpdates_map (l : List (Update D C)) (newest : Update D C) (accepted : Bool)
    (d : Device D C) :
    storeUpdates (l.map (Update.map g)) (newest.map g) accepted (d.map f g) =
      (storeUpdates l newest accepted d).map (Device.map f g) := by
  have hauth : (d.map f g).auth.updateUserCGPA accepted (Floating.toString newest.cgpa) =
      (d.auth.updateUserCGPA accepted (Floating.toString newest.cgpa)).map (AuthProvider.map f) :=
    updateUserCGPA_map accepted _ d.auth
  have hcgpa : (newest.map g).cgpa = newest.cgpa := rfl
  simp only [storeUpdates, ← List.map_reverse, replaceUpdateList_map, hcgpa]
  have hreplaced : (HiveUpdate.replaceUpdateList l.reverse d).auth = d.auth := rfl
  rw [show ((HiveUpdate.replaceUpdateList l.reverse d).map f g).auth = (d.map f g).auth from rfl,
    hauth, hreplaced]
  cases d.auth.updateUserCGPA accepted (Floating.toString newest.cgpa) <;> rfl

theorem editUpdatesLoop_map {update : Update D C} {index : ℤ} {clock : ℕ → Timestamp}
    {accepted : Bool} (n : ℕ) (l : List (Update D C)) (d : Device D C) :
    editUpdatesLoop (update.map g) index clock accepted n (l.map (Update.map g)) (d.map f g) =
      (editUpdatesLoop update index clock accepted n l d).map (Device.map f g) := by
  induction n generalizing l d with
  | zero => rfl
  | succ i ih =>
    -- a pass that stores where it is the last one, and the passes after it
    have pass : ∀ (l' : List (Update D C)) (newest : Update D C),
        (if i = 0 then storeUpdates (l'.map (Update.map g)) (newest.map g) accepted (d.map f g)
            else .finished (d.map f g)).andThen
            (editUpdatesLoop (update.map g) index clock accepted i (l'.map (Update.map g))) =
          ((if i = 0 then storeUpdates l' newest accepted d else .finished d).andThen
            (editUpdatesLoop update index clock accepted i l')).map (Device.map f g) := by
      intro l' newest
      rw [← Outcome.andThen_map _ (ih l'), apply_ite (Outcome.map (Device.map f g)),
        storeUpdates_map]
      rfl
    unfold editUpdatesLoop
    by_cases habove : (i : ℤ) > index
    · rw [if_pos habove, if_pos habove]
      exact ih l d
    rw [if_neg habove, if_neg habove]
    by_cases hat : (i : ℤ) = index
    · rw [if_pos hat, if_pos hat, ← List.map_set]
      exact pass (l.set i update) update
    · rw [if_neg hat, if_neg hat]
      simp only [List.getElem?_map]
      cases hthis : l[i]? with
      | none => rfl
      | some this =>
        cases hpast : l[i + 1]? with
        | none => rfl
        | some past =>
          simp only [Option.map_some, replaceUpdate_map]
          cases replaceUpdate this past (clock i) with
          | none => rfl
          | some r' =>
            simp only [Option.map_some, ← List.map_set]
            exact pass (l.set i r') r'

theorem editUpdates_map (update : Update D C) (index : ℤ) (clock : ℕ → Timestamp)
    (accepted : Bool) (d : Device D C) :
    editUpdates (update.map g) index clock accepted (d.map f g) =
      (editUpdates update index clock accepted d).map (Device.map f g) := by
  simp only [editUpdates, getUpdateList_map, ← List.map_reverse, List.length_map]
  exact editUpdatesLoop_map _ _ d

/-! ## Fresh screens -/

namespace UpdateScreen

/-- What a screen shows beside its list. -/
def header (screen : UpdateScreen C) : UpdateScreen Unit :=
  { screen.map (fun _ => ()) with scores := [] }

/-- Which lists the course map has decides what a fresh screen shows, not what is on them. -/
theorem init_header {contents : C → List Course} {contents' : C' → List Course} {empty : C}
    {empty' : C'} {gs : String} {auth : AuthProvider D C} {auth' : AuthProvider D C'}
    (huser : auth'.user = auth.user)
    (hdata : ∀ level digit,
      (auth'.courseData.bind fun data => data.courses level digit).isSome =
        (auth.courseData.bind fun data => data.courses level digit).isSome)
    {screen : UpdateScreen C} (h : init contents empty gs auth = some screen) :
    ∃ screen', init contents' empty' gs auth' = some screen' ∧ screen'.header = screen.header := by
  simp only [init, Option.bind_eq_bind, Option.bind_eq_some_iff, Option.pure_def] at h
  obtain ⟨user, hsome, semester, hsemester, cgpa, hcgpa, level, hlevel, h⟩ := h
  simp only [init, huser, hsome, hsemester, hcgpa, hlevel, Option.bind_eq_bind, Option.bind_some,
    Option.pure_def]
  have hlist : (auth'.courseData.bind fun data =>
        (substring semester 0 1).bind (data.courses (toString level))).isSome =
      (auth.courseData.bind fun data =>
        (substring semester 0 1).bind (data.courses (toString level))).isSome := by
    cases hdigit : substring semester 0 1 with
    | none => cases auth.courseData <;> cases auth'.courseData <;> rfl
    | some digit => exact hdata (toString level) digit
  split at h
  · next hnone =>
    cases h
    rw [hnone, Option.isSome_none, Option.isSome_eq_false_iff, Option.isNone_iff_eq_none] at hlist
    rw [hlist]
    exact ⟨_, rfl, rfl⟩
  · next courses hcourses =>
    cases h
    rw [hcourses, Option.isSome_some] at hlist
    obtain ⟨courses', hcourses'⟩ := Option.isSome_iff_exists.1 hlist
    rw [hcourses']
    exact ⟨_, rfl, rfl⟩

/-- The list of a fresh screen is its own or the one of the course map for its semester. -/
theorem init_list {contents : C → List Course} {empty : C} {gs : String} {auth : AuthProvider D C}
    {screen : UpdateScreen C} (h : init contents empty gs auth = some screen) :
    (screen.courseData = empty ∧ screen.grades = []) ∨
      ∃ data digit, auth.courseData = some data ∧ substring screen.semester 0 1 = some digit ∧
        data.courses screen.level digit = some screen.courseData := by
  simp only [init, Option.bind_eq_bind, Option.bind_eq_some_iff, Option.pure_def] at h
  obtain ⟨user, -, semester, -, cgpa, -, level, -, h⟩ := h
  split at h
  · cases h
    exact .inl ⟨rfl, rfl⟩
  · next courseData hlist =>
    cases h
    obtain ⟨data, hdata, digit, hdigit, hcourses⟩ := by
      simpa only [Option.bind_eq_some_iff] using hlist
    exact .inr ⟨data, digit, hdata, hdigit, hcourses⟩

end UpdateScreen

end StudyStats
