import StudyStats.History

/-!
# An edit is all or nothing

`editUpdates` works on a copy of the list and stores it in the last pass only, so what goes
wrong before leaves nothing behind. What can still go wrong after it is the remote write,
and by then the provider has its new user.

## Main definitions

* `NewestAgrees` — the user's CGPA is the one of the newest record.
* `Recomputed` — the device after an edit that reached its last pass.

## Main results

* `editUpdates_unchanged_or_recomputed` — there is no third outcome, and both agree with the
  newest record.
-/

namespace StudyStats

open Dart StatFunction

variable {D C : Type} [Floating D]

def NewestAgrees (d : Device D C) : Prop :=
  ∀ r ∈ (HiveUpdate.getUpdateList d).getLast?,
    ∃ user, d.auth.user = some user ∧ user.currentCgpa = some r.cgpa

/-- The record with `index` records after it is `update`, all of these are recomputed, the
records before it are the old ones, and the user has the CGPA of the newest one. -/
def Recomputed (update : Update D C) (index : ℤ) (clock : ℕ → Timestamp) (d d' : Device D C) :
    Prop :=
  ∃ older r newer newer' newest user,
    HiveUpdate.getUpdateList d = older ++ r :: newer ∧ (newer.length : ℤ) = index ∧
    rechain clock update newer = some newer' ∧ (update :: newer').getLast? = some newest ∧
    d.auth.user = some user ∧
    d' = {
      auth := { d.auth with user := some { user with currentCgpa := some newest.cgpa } }
      updateBox := some (older ++ update :: newer') }

theorem Recomputed.newestAgrees {update : Update D C} {index : ℤ} {clock : ℕ → Timestamp}
    {d d' : Device D C} (h : Recomputed update index clock d d') : NewestAgrees d' := by
  obtain ⟨older, r, newer, newer', newest, user, -, -, -, hlast, -, rfl⟩ := h
  intro last hget
  rw [HiveUpdate.getUpdateList, Option.getD_some,
    List.getLast?_append_of_ne_nil _ (List.cons_ne_nil _ _), hlast] at hget
  cases hget
  exact ⟨_, rfl, rfl⟩

/-! ## The three ranges of the index -/

/-- Below the first record every pass is skipped. -/
theorem editUpdatesLoop_of_neg {update : Update D C} {index : ℤ} {clock : ℕ → Timestamp}
    {accepted : Bool} (hindex : index < 0) (n : ℕ) (l : List (Update D C)) (d : Device D C) :
    editUpdatesLoop update index clock accepted n l d = .finished d := by
  induction n with
  | zero => rfl
  | succ i ih =>
    have habove : (i : ℤ) > index := by omega
    rw [editUpdatesLoop, if_pos habove, ih]

/-- Past the last record the first pass already reads beyond the list. -/
theorem state_editUpdates_of_length_le {update : Update D C} {index : ℤ} {clock : ℕ → Timestamp}
    {accepted : Bool} {d : Device D C}
    (hindex : ((HiveUpdate.getUpdateList d).length : ℤ) ≤ index) :
    (editUpdates update index clock accepted d).state = d := by
  rw [editUpdates, List.length_reverse]
  cases hn : (HiveUpdate.getUpdateList d).length with
  | zero => rfl
  | succ i =>
    rw [hn] at hindex
    push_cast at hindex
    have hend : (HiveUpdate.getUpdateList d).reverse[i + 1]? = none :=
      List.getElem?_eq_none (by rw [List.length_reverse, hn])
    rw [editUpdatesLoop, if_neg (by omega), if_neg (by omega), hend]
    split <;> first | rfl | contradiction

/-- At a record, only rechaining decides between nothing and all of it. -/
theorem editUpdates_at {update r : Update D C} {older newer : List (Update D C)}
    {clock : ℕ → Timestamp} {accepted : Bool} {d : Device D C} {user : User D}
    (huser : d.auth.user = some user) (hd : HiveUpdate.getUpdateList d = older ++ r :: newer) :
    (editUpdates update newer.length clock accepted d).state = d ∨
      Recomputed update newer.length clock d
        (editUpdates update newer.length clock accepted d).state := by
  rw [editUpdates_eq update clock accepted hd, storeRechained]
  cases hrechain : rechain clock update newer with
  | none => exact .inl rfl
  | some newer' =>
    refine .inr ⟨older, r, newer, newer', _, user, hd, rfl, hrechain,
      List.getLast?_eq_some_getLast (List.cons_ne_nil _ _), huser, ?_⟩
    simp only [state_storeUpdates huser, List.reverse_reverse]

/-! ## The outcome -/

theorem editUpdates_unchanged_or_recomputed (update : Update D C) (index : ℤ)
    (clock : ℕ → Timestamp) (accepted : Bool) {d : Device D C} {user : User D}
    (huser : d.auth.user = some user) (hagrees : NewestAgrees d) :
    ((editUpdates update index clock accepted d).state = d ∨
      Recomputed update index clock d (editUpdates update index clock accepted d).state) ∧
    NewestAgrees (editUpdates update index clock accepted d).state := by
  have hcases : (editUpdates update index clock accepted d).state = d ∨
      Recomputed update index clock d (editUpdates update index clock accepted d).state := by
    by_cases hneg : index < 0
    · left
      rw [editUpdates, editUpdatesLoop_of_neg hneg, Outcome.state]
    by_cases hlength : ((HiveUpdate.getUpdateList d).length : ℤ) ≤ index
    · exact .inl (state_editUpdates_of_length_le hlength)
    obtain ⟨n, rfl⟩ : ∃ n : ℕ, index = n := ⟨index.toNat, by omega⟩
    have hn : n < (HiveUpdate.getUpdateList d).length := by omega
    obtain ⟨older, r, newer, hd, rfl⟩ := exists_split hn
    exact editUpdates_at huser hd
  refine ⟨hcases, ?_⟩
  rcases hcases with hsame | hnew
  · rwa [hsame]
  · exact hnew.newestAgrees

/-- A semester of one course, for the sample device. -/
def sampleRecord (gpa cgpa : ℤ) (semester : String) : Update Double (List Course) where
  gpa := Floating.ofInt gpa
  cgpa := Floating.ofInt cgpa
  gradingSystem := "5"
  scores := [gpa]
  courseData := [⟨"Calculus", "MATH101", .int 3⟩]
  level := "100"
  semester := semester
  timestamp := 0
  pastSemester := "-1.0"

/-- Two recorded semesters, the newer one with the user's CGPA. -/
def sampleDevice : Device Double (List Course) where
  auth := {
    user := some { freshman.user with currentCgpa := some (Floating.ofInt 4) }
    courseData := some freshman.courseData }
  updateBox := some [sampleRecord 3 3 "1st", sampleRecord 5 4 "2nd"]

/-- The older record is replaced and the remote write rejected. -/
theorem editUpdates_rejected :
    ((editUpdates (sampleRecord 5 5 "1st") 1 (fun _ => 1) false sampleDevice).state =
        sampleDevice ∨
      Recomputed (sampleRecord 5 5 "1st") 1 (fun _ => 1) sampleDevice
        (editUpdates (sampleRecord 5 5 "1st") 1 (fun _ => 1) false sampleDevice).state) ∧
    NewestAgrees
      (editUpdates (sampleRecord 5 5 "1st") 1 (fun _ => 1) false sampleDevice).state := by
  refine editUpdates_unchanged_or_recomputed _ 1 _ false rfl ?_
  intro newest hnewest
  cases hnewest
  exact ⟨_, rfl, rfl⟩

end StudyStats
