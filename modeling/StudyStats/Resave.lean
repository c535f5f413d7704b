import StudyStats.Labels
import StudyStats.Screens

/-!
# Saving a record again

A record made from a complete result computes the same result when it is opened again. A
list whose records are such and start each from the CGPA before it is not changed by saving
one of them again, and uploads and edits keep it such a list.

## Main definitions

* `Update.Computed` — the record computes its own numbers.
* `Consistent` — the records of a list do, and start from one another.
-/

namespace StudyStats

open Dart StatFunction

variable {D : Type} [Floating D]

/-! ## Records that compute themselves -/

/-- Opened again, the record computes its own scores, GPA and CGPA. -/
structure Update.Computed (r : Update D (List Course)) : Prop where
  complete : UpdateScreen.complete r.courseData (r.scores.filterMap scoreGrade) = some true
  scores : (r.scores.filterMap scoreGrade).filterMap gradeScore = r.scores
  gpa (system : ℤ) : getResult D (r.scores.filterMap scoreGrade) system r.courseData =
    some (Floating.toString r.gpa)
  cgpa : ∃ text, getCGPA D r.pastSemester (Floating.toString r.gpa) r.semester r.level =
    some text ∧ Floating.parse text = some r.cgpa

/-- The numbers of a record and the semester it is for. -/
def Update.core {C : Type} (r : Update D C) : D × D × String × String :=
  (r.gpa, r.cgpa, r.level, r.semester)

/-- The known grades come back from their scores. -/
theorem filterMap_known (grades : List String) :
    ((grades.filterMap gradeScore).filterMap scoreGrade).filterMap gradeScore =
      grades.filterMap gradeScore := by
  induction grades with
  | nil => rfl
  | cons g gs ih =>
    cases hg : gradeScore g with
    | none => rw [List.filterMap_cons_none hg, ih]
    | some s =>
      rw [List.filterMap_cons_some hg, List.filterMap_cons_some (scoreGrade_of_gradeScore hg),
        List.filterMap_cons_some hg, ih]

theorem length_le_of_getResultLoop {courses : List Course} {scores : List ℤ} {x y : D}
    {sums : D × D} (h : getResultLoop D courses scores x y = some sums) :
    courses.length ≤ scores.length := by
  induction courses generalizing scores x y with
  | nil => exact Nat.zero_le _
  | cons c cs ih =>
    cases scores with
    | nil => cases h
    | cons s ss =>
      rw [getResultLoop] at h
      split at h
      · exact Nat.succ_le_succ (ih h)
      · cases h

namespace UpdateScreen

/-- What a screen has computed and stored it computes again. -/
theorem computed_made {screen : UpdateScreen (List Course)} {contents : List Course}
    {score : List ℤ} {gpaText cgpaText : String} {gpa cgpa : D} (now : Timestamp)
    (h : screen.compute D contents = some (gpaText, score, cgpaText))
    (hcontents : screen.courseData = contents)
    (hgpa : Floating.parse gpaText = some gpa) (hcgpa : Floating.parse cgpaText = some cgpa) :
    (screen.made score gpa cgpa now).Computed := by
  subst hcontents
  simp only [compute, Option.bind_eq_bind, Option.bind_eq_some_iff] at h
  obtain ⟨ok, -, h⟩ := h
  cases ok with
  | false => cases h
  | true =>
    simp only [if_true, Option.bind_eq_some_iff, Option.pure_def, Option.some.injEq,
      Prod.mk.injEq] at h
    obtain ⟨_, hresult, _, hcgpaText, rfl, rfl, rfl⟩ := h
    simp only [getResult, Option.bind_eq_bind, Option.bind_eq_some_iff, Option.pure_def,
      Option.some.injEq] at hresult
    obtain ⟨sums, hloop, rfl⟩ := hresult
    rw [Floating.parse_toString, Option.some.injEq] at hgpa
    have hback := filterMap_known screen.scores
    have hknown : ∀ g ∈ (screen.scores.filterMap gradeScore).filterMap scoreGrade,
        (gradeScore g).isSome := by
      intro g hg
      obtain ⟨s, -, hs⟩ := List.mem_filterMap.1 hg
      exact isSome_gradeScore hs
    have hlength := congrArg List.length hback
    rw [length_filterMap_of_isSome hknown] at hlength
    refine ⟨?_, hback, fun system => ?_, _, ?_, hcgpa⟩
    · exact complete_sheet ((length_le_of_getResultLoop hloop).trans hlength.ge) hknown
    · have hloop' : getResultLoop D screen.courseData
          (convertGradeToScore ((screen.scores.filterMap gradeScore).filterMap scoreGrade) system)
          (Floating.ofInt 0) (Floating.ofInt 0) = some sums :=
        (congrArg (getResultLoop D screen.courseData · _ _) hback).trans hloop
      rw [getResult, hgpa.symm]
      simp only [made, convertGradeToScore] at hloop' ⊢
      rw [hloop']
      rfl
    · rw [hgpa] at hcgpaText
      exact hcgpaText

theorem newUpdate_computed {screen : UpdateScreen (List Course)} {contents : List Course}
    {now : Timestamp} {update : Update D (List Course)}
    (h : screen.newUpdate contents now = some update) (hcontents : screen.courseData = contents) :
    update.Computed ∧ update.pastSemester = screen.currentGpa ∧ update.uploaded = false := by
  simp only [newUpdate, Option.bind_eq_bind, Option.bind_eq_some_iff, Option.pure_def,
    Option.some.injEq] at h
  obtain ⟨⟨gpaText, score, cgpaText⟩, hcompute, gpa, hgpa, cgpa, hcgpa, rfl⟩ := h
  exact ⟨computed_made now hcompute hcontents hgpa hcgpa, rfl, rfl⟩

/-- A record that computes itself is made again from its own screen. -/
theorem newUpdate_historyInit {r : Update D (List Course)} (h : r.Computed) (gs : String)
    (now : Timestamp) : (historyInit gs r).newUpdate r.courseData now =
      some ((historyInit gs r).made r.scores r.gpa r.cgpa now) := by
  obtain ⟨text, htext, hcgpa⟩ := h.cgpa
  have hcompute : (historyInit gs r).compute D r.courseData =
      some (Floating.toString r.gpa, r.scores, text) := by
    have hresult := h.gpa (getGrade gs).1
    have hscores := h.scores
    have hcomplete := h.complete
    simp only [compute, historyInit, convertScoreToGrade, hcomplete, hresult,
      convertGradeToScore, hscores, htext, Option.bind_eq_bind, Option.bind_some, if_true]
    rfl
  rw [newUpdate, hcompute]
  simp only [Option.bind_eq_bind, Option.bind_some, Floating.parse_toString, hcgpa]
  rfl

end UpdateScreen

/-! ## Records made again -/

theorem Update.Computed.of_replaceUpdate {r past r' : Update D (List Course)} {now : Timestamp}
    (h : r.Computed) (hr : replaceUpdate r past now = some r') :
    r'.Computed ∧ r'.pastSemester = Floating.toString past.cgpa := by
  simp only [replaceUpdate, Option.bind_eq_bind, Option.bind_eq_some_iff, Option.pure_def,
    Option.some.injEq] at hr
  obtain ⟨text, htext, cgpa, hcgpa, rfl⟩ := hr
  exact ⟨⟨h.complete, h.scores, h.gpa, text, htext, hcgpa⟩, rfl⟩

/-- Made again over the CGPA it started from, a record keeps its numbers. -/
theorem Update.Computed.core_replaceUpdate {r past r' : Update D (List Course)}
    {now : Timestamp} (h : r.Computed) (hpast : r.pastSemester = Floating.toString past.cgpa)
    (hr : replaceUpdate r past now = some r') : r'.core = r.core := by
  obtain ⟨text, htext, hcgpa⟩ := h.cgpa
  rw [hpast] at htext
  simp only [replaceUpdate, htext, hcgpa, Option.bind_eq_bind, Option.bind_some,
    Option.pure_def, Option.some.injEq] at hr
  rw [← hr]
  rfl

/-- Every record computes itself and starts from the CGPA of the record before it. -/
structure Consistent (us : List (Update D (List Course))) : Prop where
  computed : ∀ r ∈ us, r.Computed
  linked : us.IsChain fun past r => r.pastSemester = Floating.toString past.cgpa

theorem consistent_rechain {clock : ℕ → Timestamp} {past : Update D (List Course)}
    {rs l : List (Update D (List Course))} (hpast : past.Computed)
    (hrs : ∀ r ∈ rs, r.Computed) (h : rechain clock past rs = some l) :
    Consistent (past :: l) := by
  induction rs generalizing past l with
  | nil =>
    cases h
    exact ⟨List.forall_mem_singleton.2 hpast, .singleton _⟩
  | cons r rs ih =>
    obtain ⟨r', rs', hr', hrest, rfl⟩ := rechain_cons h
    obtain ⟨hr, hrs⟩ := List.forall_mem_cons.1 hrs
    obtain ⟨hcomputed, hlink⟩ := hr.of_replaceUpdate hr'
    have htail := ih hcomputed hrs hrest
    exact ⟨List.forall_mem_cons.2 ⟨hpast, htail.computed⟩, .cons_cons hlink htail.linked⟩

/-- Making the records after an unchanged CGPA again leaves their numbers. -/
theorem core_rechain {clock : ℕ → Timestamp} {past past' : Update D (List Course)}
    {rs l : List (Update D (List Course))} (h : Consistent (past :: rs))
    (hcgpa : past'.cgpa = past.cgpa) (hl : rechain clock past' rs = some l) :
    l.map Update.core = rs.map Update.core := by
  induction rs generalizing past past' l with
  | nil => cases hl; rfl
  | cons r rs ih =>
    obtain ⟨r', rs', hr', hrest, rfl⟩ := rechain_cons hl
    obtain ⟨hlink, hlinked⟩ := List.isChain_cons_cons.1 h.linked
    have hrs := (List.forall_mem_cons.1 h.computed).2
    have hcore := (hrs r List.mem_cons_self).core_replaceUpdate (hcgpa ▸ hlink) hr'
    have hcgpa' : r'.cgpa = r.cgpa := congrArg (fun c => c.2.1) hcore
    rw [List.map_cons, List.map_cons, hcore, ih ⟨hrs, hlinked⟩ hcgpa' hrest]

/-! ## Edits -/

/-- An edit changes nothing, or it puts the new record in its place, makes the newer ones
again and hands the newest CGPA to the user. -/
theorem edit_cases {C : Type} (contents : List Course) (now : Timestamp)
    (clock : ℕ → Timestamp) (accepted : Bool) (screen : UpdateScreen C) {d : Device D C}
    {older newer : List (Update D C)} {r : Update D C}
    (hd : HiveUpdate.getUpdateList d = older ++ r :: newer) {user : User D}
    (huser : d.auth.user = some user) :
    screen.edit contents newer.length now clock accepted d = d ∨
      ∃ update newer', screen.newUpdate contents now = some update ∧
        rechain clock update newer = some newer' ∧
        screen.edit contents newer.length now clock accepted d =
          { auth := { d.auth with user := some { user with
              currentCgpa := some ((update :: newer').getLast (List.cons_ne_nil _ _)).cgpa } }
            updateBox := some (older ++ update :: newer') } := by
  unfold UpdateScreen.edit
  split
  · exact .inl rfl
  · next update hnew =>
    rw [editUpdates_eq update clock accepted hd, storeRechained]
    split
    · next newer' hrechain =>
      refine .inr ⟨update, newer', hnew, hrechain, ?_⟩
      rw [state_storeUpdates huser, List.reverse_reverse]
    · exact .inl rfl

/-- An edit leaves a consistent list, whatever the record is filled in with. -/
theorem Consistent.edit {older newer newer' : List (Update D (List Course))}
    {r update : Update D (List Course)} {clock : ℕ → Timestamp}
    (h : Consistent (older ++ r :: newer)) (hupdate : update.Computed)
    (hpast : update.pastSemester = r.pastSemester)
    (hnewer : rechain clock update newer = some newer') :
    Consistent (older ++ update :: newer') := by
  have hcomputed := h.computed
  rw [List.forall_mem_append, List.forall_mem_cons] at hcomputed
  obtain ⟨holder, -, hrest⟩ := hcomputed
  have htail := consistent_rechain hupdate hrest hnewer
  obtain ⟨hold, -, hlink⟩ := List.isChain_append.1 h.linked
  refine ⟨List.forall_mem_append.2 ⟨holder, htail.computed⟩,
    List.isChain_append.2 ⟨hold, htail.linked, ?_⟩⟩
  intro past hpast' r' hr'
  cases hr'
  rw [hpast]
  exact hlink past hpast' r rfl

omit [Floating D] in
theorem getLast?_core {l l' : List (Update D (List Course))}
    (h : l.map Update.core = l'.map Update.core) :
    l.getLast?.map Update.cgpa = l'.getLast?.map Update.cgpa := by
  have hlast := congrArg List.getLast? h
  rw [List.getLast?_map, List.getLast?_map] at hlast
  have hcgpa := congrArg (Option.map fun c => c.2.1) hlast
  rwa [Option.map_map, Option.map_map] at hcgpa

/-- Saving a record of a consistent list again leaves all numbers, and the user's CGPA where
it is that of the newest record. -/
theorem core_resave {d : Device D (List Course)} {older newer : List (Update D (List Course))}
    {r : Update D (List Course)} (hd : HiveUpdate.getUpdateList d = older ++ r :: newer)
    (h : Consistent (older ++ r :: newer)) {user : User D} (huser : d.auth.user = some user)
    (hnewest : user.currentCgpa = (HiveUpdate.getUpdateList d).getLast?.map Update.cgpa)
    (gs : String) (now : Timestamp) (clock : ℕ → Timestamp) (accepted : Bool) :
    let d' := (UpdateScreen.historyInit gs r).edit r.courseData newer.length now clock accepted d
    (HiveUpdate.getUpdateList d').map Update.core =
        (HiveUpdate.getUpdateList d).map Update.core ∧
      d'.auth.user.bind User.currentCgpa = d.auth.user.bind User.currentCgpa := by
  intro d'
  rcases edit_cases r.courseData now clock accepted (UpdateScreen.historyInit gs r) hd huser with
    hsame | ⟨update, newer', hnew, hrechain, hd'⟩
  · unfold d'
    rw [hsame]
    exact ⟨rfl, rfl⟩
  · have hr : r.Computed := h.computed r (by simp)
    rw [UpdateScreen.newUpdate_historyInit hr, Option.some.injEq] at hnew
    have hcgpa : update.cgpa = r.cgpa := hnew ▸ rfl
    have hcore : update.core = r.core := hnew ▸ rfl
    have htail : Consistent (r :: newer) :=
      ⟨fun s hs => h.computed s (List.mem_append_right _ hs), (List.isChain_append.1 h.linked).2.1⟩
    have hlist : (older ++ update :: newer').map Update.core =
        (older ++ r :: newer).map Update.core := by
      rw [List.map_append, List.map_append, List.map_cons, List.map_cons, hcore,
        core_rechain htail hcgpa hrechain]
    have hbox : HiveUpdate.getUpdateList d' = older ++ update :: newer' := by
      unfold d'
      rw [hd']
      rfl
    refine ⟨by rw [hbox, hd, hlist], ?_⟩
    have huser' : d'.auth.user.bind User.currentCgpa =
        ((older ++ update :: newer').getLast?).map Update.cgpa := by
      unfold d'
      rw [hd', List.getLast?_append_of_ne_nil _ (List.cons_ne_nil _ _),
        List.getLast?_eq_some_getLast (List.cons_ne_nil _ _)]
      rfl
    rw [huser', getLast?_core hlist, huser, Option.bind_some, hnewest, hd]

/-! ## Uploads -/

/-- One press of the button, with the record it makes. -/
theorem upload_made {C : Type} (contents : List Course) (now : Timestamp)
    (screen : UpdateScreen C) (d : Device D C) :
    screen.upload contents now d = d ∨ ∃ gpaText score cgpaText gpa cgpa,
      screen.compute D contents = some (gpaText, score, cgpaText) ∧
      Floating.parse gpaText = some gpa ∧ Floating.parse cgpaText = some cgpa ∧
      screen.upload contents now d =
        { auth := (d.auth.incrementUser cgpaText).getD d.auth
          updateBox := some (HiveUpdate.getUpdateList d ++ [screen.made score gpa cgpa now]) } := by
  unfold UpdateScreen.upload
  cases hcompute : screen.compute D contents with
  | none => exact .inl rfl
  | some result =>
    obtain ⟨gpaText, score, cgpaText⟩ := result
    obtain ⟨⟨gpa, hgpa⟩, cgpa, hcgpa⟩ := parse_of_compute hcompute
    refine .inr ⟨gpaText, score, cgpaText, gpa, cgpa, rfl, hgpa, hcgpa, ?_⟩
    simp [saveUpdateGrade, hgpa, hcgpa, HiveUpdate.addUpdateData, UpdateScreen.made]

/-- A record that starts from the newest CGPA joins a consistent list. -/
theorem Consistent.concat {us : List (Update D (List Course))} {r : Update D (List Course)}
    (h : Consistent us) (hr : r.Computed)
    (hpast : ∀ past ∈ us.getLast?, r.pastSemester = Floating.toString past.cgpa) :
    Consistent (us ++ [r]) := by
  refine ⟨List.forall_mem_append.2 ⟨h.computed, List.forall_mem_singleton.2 hr⟩, ?_⟩
  refine List.isChain_append.2 ⟨h.linked, .singleton _, ?_⟩
  intro past hpast' r' hr'
  cases hr'
  exact hpast past hpast'

/-- The flags of the records do not matter. -/
theorem Consistent.flagged {us : List (Update D (List Course))} (h : Consistent us) :
    Consistent (us.map fun r => { r with uploaded := true }) where
  computed := by
    intro r' hr'
    obtain ⟨r, hr, rfl⟩ := List.mem_map.1 hr'
    have hcomputed := h.computed r hr
    exact ⟨hcomputed.complete, hcomputed.scores, hcomputed.gpa, hcomputed.cgpa⟩
  linked := (List.isChain_map _).2 h.linked

/-- A fresh screen starts from the user's CGPA. -/
theorem init_currentGpa {C : Type} {contents : C → List Course} {empty : C} {gs : String}
    {auth : AuthProvider D C} {screen : UpdateScreen C}
    (h : UpdateScreen.init contents empty gs auth = some screen) :
    ∃ c, auth.user.bind User.currentCgpa = some c ∧
      screen.currentGpa = Floating.toString c := by
  simp only [UpdateScreen.init, Option.bind_eq_bind, Option.bind_eq_some_iff] at h
  obtain ⟨user, huser, _, -, c, hc, _, -, h⟩ := h
  refine ⟨c, by rw [huser, Option.bind_some, hc], ?_⟩
  split at h
  · cases h; rfl
  · cases h; rfl

end StudyStats
