import Mathlib.Logic.Function.Basic
import StudyStats.Library.Run

/-!
# Syncing the goal

A device without a goal fetches one of the documents of the collection `Goal`. A device with a
goal reads all of them, deletes the ones it has read and adds its own. There is no transaction
around this: the runs of several devices take their steps in any order, and a run may end with
an error at any of them.

## Main definitions

* `GoalCloud.step` — one step of a run, or a new goal on a device.
* `GoalCloud.Careful` — an add to an empty collection, or an end that leaves it to be filled.

## Main results

* `oneGoal` — runs after which the collection holds one goal.
* `careful_of_serial` — one run at a time, not ending between its delete and its add, is enough.
-/

namespace StudyStats

/-- A document of the collection `Goal`, with its reference. -/
structure GoalDoc where
  ref : ℕ
  goal : String
deriving DecidableEq

/-- A run of `syncGoal` at its next step. The goal is read again when the documents are there,
and so is the one that is added. -/
inductive GoalRun (ι : Type) where
  /-- `limit(1).get()` -/
  | fetch (i : ι)
  /-- `get()` -/
  | read (i : ι)
  /-- `batch.commit()`, which nothing waits for -/
  | delete (refs : List ℕ) (goal : String)
  /-- `Goal.add` -/
  | add (goal : String)

/-- The run means to leave a goal in the collection. -/
def GoalRun.storing {ι : Type} : GoalRun ι → Bool
  | fetch _ => false
  | read _ | delete .. | add _ => true

/-- The run has only its add before it. -/
def GoalRun.adding {ι : Type} : GoalRun ι → Bool
  | add _ => true
  | fetch _ | read _ | delete .. => false

/-- What the devices keep under `goal`, empty where there is none, the collection and the runs
under way. `stored` only records that there was a document once. -/
structure GoalCloud (ι : Type) where
  goals : ι → String
  docs : List GoalDoc
  nextRef : ℕ
  runs : List (GoalRun ι)
  stored : Bool

inductive GoalAction (ι : Type) where
  /-- `HiveGoal.saveGoal`, or the empty goal of a log-out -/
  | setGoal (i : ι) (goal : String)
  | begin (i : ι)
  /-- The answer to `limit(1)`, some document if there is one. -/
  | fetch (r : ℕ) (answer : Option GoalDoc)
  | read (r : ℕ)
  /-- A rejected delete is not noticed. -/
  | delete (r : ℕ) (accepted : Bool)
  | add (r : ℕ)
  /-- The run ends with an error. -/
  | stop (r : ℕ)

namespace GoalCloud

variable {ι : Type}

def start (goals : ι → String) (docs : List GoalDoc) (nextRef : ℕ) : GoalCloud ι where
  goals := goals
  docs := docs
  nextRef := nextRef
  runs := []
  stored := docs ≠ []

def step [DecidableEq ι] (w : GoalCloud ι) : GoalAction ι → Option (GoalCloud ι)
  | .setGoal i goal => some { w with goals := Function.update w.goals i goal }
  | .begin i => some { w with runs := w.runs ++ [if w.goals i = "" then .fetch i else .read i] }
  | .fetch r answer =>
    match w.runs[r]? with
    | some (.fetch i) =>
      match answer with
      | none => if w.docs = [] then some { w with runs := w.runs.eraseIdx r } else none
      | some doc =>
        if doc ∈ w.docs then
          some { w with goals := Function.update w.goals i doc.goal, runs := w.runs.eraseIdx r }
        else none
    | _ => none
  | .read r =>
    match w.runs[r]? with
    | some (.read i) =>
      some { w with runs := w.runs.set r (.delete (w.docs.map GoalDoc.ref) (w.goals i)) }
    | _ => none
  | .delete r accepted =>
    match w.runs[r]? with
    | some (.delete refs goal) =>
      some { w with
        docs := if accepted then w.docs.filter fun doc => doc.ref ∉ refs else w.docs
        runs := w.runs.set r (.add goal) }
    | _ => none
  | .add r =>
    match w.runs[r]? with
    | some (.add goal) =>
      some { w with
        docs := w.docs ++ [⟨w.nextRef, goal⟩]
        nextRef := w.nextRef + 1
        runs := w.runs.eraseIdx r
        stored := true }
    | _ => none
  | .stop r => if r < w.runs.length then some { w with runs := w.runs.eraseIdx r } else none

/-- With no run under way there is at most one document, and one if there ever was one. -/
def OneGoal (w : GoalCloud ι) : Prop :=
  w.runs = [] → w.docs.length ≤ 1 ∧ (w.stored = true → w.docs ≠ [])

/-- An add finds the collection empty, and a run that ends while it is, after something was
stored, leaves another run that stores a goal. -/
def Careful (w : GoalCloud ι) : GoalAction ι → Prop
  | .add r => w.runs[r]?.any GoalRun.adding = true → w.docs = []
  | .stop r => w.docs = [] → w.stored = true →
      ∃ run ∈ w.runs.eraseIdx r, run.storing = true
  | _ => True

instance (w : GoalCloud ι) : (a : GoalAction ι) → Decidable (w.Careful a)
  | .add r => inferInstanceAs (Decidable
      (w.runs[r]?.any GoalRun.adding = true → w.docs = []))
  | .stop r => inferInstanceAs (Decidable (w.docs = [] → w.stored = true →
      ∃ run ∈ w.runs.eraseIdx r, run.storing = true))
  | .setGoal .. | .begin _ | .fetch .. | .read _ | .delete .. => isTrue trivial

/-- There is at most one document, and while there is none any more a run is about to store
one. -/
structure Guarded (w : GoalCloud ι) : Prop where
  length_le : w.docs.length ≤ 1
  stored : w.docs ≠ [] → w.stored = true
  storing : w.docs = [] → w.stored = true → ∃ run ∈ w.runs, run.storing = true

variable {w w' : GoalCloud ι} {a : GoalAction ι}

theorem Guarded.atMostOne (h : w.Guarded) : w.OneGoal := by
  intro hruns
  refine ⟨h.length_le, fun hstored hempty => ?_⟩
  obtain ⟨run, hrun, -⟩ := h.storing hempty hstored
  rw [hruns] at hrun
  exact List.not_mem_nil hrun

/-! ## Steps of a run -/

/-- Ending a run that stores nothing leaves the others. -/
theorem Guarded.endFetch (h : w.Guarded) {r : ℕ} {i : ι} (hr : w.runs[r]? = some (.fetch i))
    (goals : ι → String) : Guarded { w with goals, runs := w.runs.eraseIdx r } := by
  refine ⟨h.length_le, h.stored, fun hempty hstored => ?_⟩
  obtain ⟨run, hrun, hstoring⟩ := h.storing hempty hstored
  obtain ⟨k, hk⟩ := List.mem_iff_getElem?.1 hrun
  refine ⟨run, List.mem_eraseIdx_iff_getElem?.2 ⟨k, ?_, hk⟩, hstoring⟩
  rintro rfl
  cases hr.symm.trans hk
  cases hstoring

/-- A run that goes on still stores a goal. -/
theorem Guarded.proceed (h : w.Guarded) {r : ℕ} {run next : GoalRun ι}
    (hr : w.runs[r]? = some run) (hnext : next.storing = true) {docs : List GoalDoc}
    (hdocs : docs.Sublist w.docs) : Guarded { w with docs, runs := w.runs.set r next } := by
  have hlength : r < w.runs.length := (List.getElem?_eq_some_iff.1 hr).1
  refine ⟨Nat.le_trans hdocs.length_le h.length_le, fun hne => h.stored ?_, fun _ _ => ?_⟩
  · rintro hempty
    rw [hempty] at hdocs
    exact hne (List.sublist_nil.1 hdocs)
  · exact ⟨next, List.mem_set hlength _, hnext⟩

/-- What the answer of a fetch changes. -/
theorem step_fetch [DecidableEq ι] {r : ℕ} {answer : Option GoalDoc}
    (hstep : w.step (.fetch r answer) = some w') :
    ∃ i goals, w.runs[r]? = some (.fetch i) ∧
      w' = { w with goals, runs := w.runs.eraseIdx r } := by
  simp only [GoalCloud.step] at hstep
  split at hstep
  · next i hr =>
    refine ⟨i, ?_⟩
    split at hstep
    · split_ifs at hstep
      cases hstep
      exact ⟨w.goals, hr, rfl⟩
    · split_ifs at hstep
      cases hstep
      exact ⟨_, hr, rfl⟩
  · cases hstep

theorem step_read [DecidableEq ι] {r : ℕ} (hstep : w.step (.read r) = some w') :
    ∃ i, w.runs[r]? = some (.read i) ∧
      w' = { w with runs := w.runs.set r (.delete (w.docs.map GoalDoc.ref) (w.goals i)) } := by
  simp only [GoalCloud.step] at hstep
  split at hstep
  · next i hr =>
    cases hstep
    exact ⟨i, hr, rfl⟩
  · cases hstep

theorem step_delete [DecidableEq ι] {r : ℕ} {accepted : Bool}
    (hstep : w.step (.delete r accepted) = some w') :
    ∃ refs goal, w.runs[r]? = some (.delete refs goal) ∧
      w' = { w with
        docs := if accepted then w.docs.filter fun doc => doc.ref ∉ refs else w.docs
        runs := w.runs.set r (.add goal) } := by
  simp only [GoalCloud.step] at hstep
  split at hstep
  · next refs goal hr =>
    cases hstep
    exact ⟨refs, goal, hr, rfl⟩
  · cases hstep

theorem step_add [DecidableEq ι] {r : ℕ} (hstep : w.step (.add r) = some w') :
    ∃ goal, w.runs[r]? = some (.add goal) ∧ w' = { w with
      docs := w.docs ++ [⟨w.nextRef, goal⟩]
      nextRef := w.nextRef + 1
      runs := w.runs.eraseIdx r
      stored := true } := by
  simp only [GoalCloud.step] at hstep
  split at hstep
  · next goal hr =>
    cases hstep
    exact ⟨goal, hr, rfl⟩
  · cases hstep

theorem step_stop [DecidableEq ι] {r : ℕ} (hstep : w.step (.stop r) = some w') :
    w' = { w with runs := w.runs.eraseIdx r } := by
  simp only [GoalCloud.step] at hstep
  split_ifs at hstep
  exact (Option.some.inj hstep).symm

theorem Guarded.step [DecidableEq ι] (h : w.Guarded) (hcareful : w.Careful a)
    (hstep : w.step a = some w') : w'.Guarded := by
  cases a with
  | setGoal i goal =>
    cases hstep
    exact ⟨h.length_le, h.stored, h.storing⟩
  | begin i =>
    cases hstep
    refine ⟨h.length_le, h.stored, fun hempty hstored => ?_⟩
    obtain ⟨run, hrun, hstoring⟩ := h.storing hempty hstored
    exact ⟨run, List.mem_append_left _ hrun, hstoring⟩
  | fetch r answer =>
    obtain ⟨i, goals, hr, rfl⟩ := step_fetch hstep
    exact h.endFetch hr goals
  | read r =>
    obtain ⟨i, hr, rfl⟩ := step_read hstep
    exact h.proceed hr rfl (List.Sublist.refl _)
  | delete r accepted =>
    obtain ⟨refs, goal, hr, rfl⟩ := step_delete hstep
    refine h.proceed hr rfl ?_
    split_ifs
    · exact List.filter_sublist
    · exact List.Sublist.refl _
  | add r =>
    obtain ⟨goal, hr, rfl⟩ := step_add hstep
    have hempty : w.docs = [] := hcareful (by rw [hr]; rfl)
    refine ⟨?_, fun _ => rfl, fun hdocs _ => ?_⟩
    · simp [hempty]
    · exact absurd hdocs (List.append_ne_nil_of_right_ne_nil _ (List.cons_ne_nil _ _))
  | stop r =>
    obtain rfl := step_stop hstep
    exact ⟨h.length_le, h.stored, hcareful⟩

theorem guarded_start {goals : ι → String} {docs : List GoalDoc} {nextRef : ℕ}
    (hdocs : docs.length ≤ 1) : (start goals docs nextRef).Guarded where
  length_le := hdocs
  stored := fun hne => decide_eq_true hne
  storing := fun hempty hstored => absurd hempty (of_decide_eq_true hstored)

/-! ## One run at a time -/

/-- A run begins when no other is under way, its delete is accepted, and it does not end between
its delete and its add. -/
def Serial (w : GoalCloud ι) : GoalAction ι → Prop
  | .begin _ => w.runs = []
  | .delete _ accepted => accepted = true
  | .stop r => w.runs[r]?.any GoalRun.adding = false
  | _ => True

/-- What the one run there may be finds. -/
structure Alone (w : GoalCloud ι) : Prop where
  length_le : w.runs.length ≤ 1
  delete : ∀ refs goal, .delete refs goal ∈ w.runs → ∀ doc ∈ w.docs, doc.ref ∈ refs
  add : ∀ goal, .add goal ∈ w.runs → w.docs = []
  stored : (∀ goal, .add goal ∉ w.runs) → w.stored = true → w.docs ≠ []

theorem Alone.runs_eq (h : w.Alone) {r : ℕ} {run : GoalRun ι} (hr : w.runs[r]? = some run) :
    r = 0 ∧ w.runs = [run] := by
  have hlength := h.length_le
  have hlt := (List.getElem?_eq_some_iff.1 hr).1
  obtain rfl : r = 0 := by omega
  obtain ⟨run', hruns⟩ := List.length_eq_one_iff.1 (by omega : w.runs.length = 1)
  rw [hruns] at hr
  cases hr
  exact ⟨rfl, hruns⟩

theorem Alone.careful (h : w.Alone) (hserial : w.Serial a) : w.Careful a := by
  cases a with
  | add r =>
    intro hadding
    obtain ⟨run, hr, hrun⟩ := (Option.any_eq_true _ _).1 hadding
    cases run with
    | add goal => exact h.add goal (List.mem_of_getElem? hr)
    | fetch i => cases hrun
    | read i => cases hrun
    | delete refs goal => cases hrun
  | stop r =>
    intro hempty hstored
    by_contra hnone
    refine h.stored (fun goal hgoal => hnone ?_) hstored hempty
    obtain ⟨k, hk⟩ := List.mem_iff_getElem?.1 hgoal
    refine ⟨_, List.mem_eraseIdx_iff_getElem?.2 ⟨k, ?_, hk⟩, rfl⟩
    rintro rfl
    have hnot : w.runs[k]?.any GoalRun.adding = false := hserial
    rw [hk] at hnot
    cases hnot
  | _ => trivial

theorem Alone.step [DecidableEq ι] (h : w.Alone) (hserial : w.Serial a)
    (hstep : w.step a = some w') : w'.Alone := by
  cases a with
  | setGoal i goal =>
    cases hstep
    exact ⟨h.length_le, h.delete, h.add, h.stored⟩
  | begin i =>
    cases hstep
    have hruns : w.runs = [] := hserial
    have hstored := h.stored (by simp [hruns])
    by_cases hgoal : w.goals i = ""
    · exact ⟨by simp [hruns], by simp [hruns, hgoal], by simp [hruns, hgoal], fun _ => hstored⟩
    · exact ⟨by simp [hruns], by simp [hruns, hgoal], by simp [hruns, hgoal], fun _ => hstored⟩
  | fetch r answer =>
    obtain ⟨i, goals, hr, rfl⟩ := step_fetch hstep
    obtain ⟨rfl, hruns⟩ := h.runs_eq hr
    have hstored := h.stored (by simp [hruns])
    exact ⟨by simp [hruns], by simp [hruns], by simp [hruns], fun _ => hstored⟩
  | read r =>
    obtain ⟨i, hr, rfl⟩ := step_read hstep
    obtain ⟨rfl, hruns⟩ := h.runs_eq hr
    have hstored := h.stored (by simp [hruns])
    refine ⟨by simp [hruns], ?_, by simp [hruns], fun _ => hstored⟩
    intro refs goal hmem doc hdoc
    simp only [hruns, List.set_cons_zero, List.mem_singleton, GoalRun.delete.injEq] at hmem
    rw [hmem.1]
    exact List.mem_map_of_mem hdoc
  | delete r accepted =>
    obtain ⟨refs, goal, hr, rfl⟩ := step_delete hstep
    obtain ⟨rfl, hruns⟩ := h.runs_eq hr
    have haccepted : accepted = true := hserial
    have hall := h.delete refs goal (List.mem_of_getElem? hr)
    have hempty : (w.docs.filter fun doc => doc.ref ∉ refs) = [] := by
      rw [List.filter_eq_nil_iff]
      intro doc hdoc
      simpa using hall doc hdoc
    rw [haccepted, if_pos rfl, hempty]
    refine ⟨by simp [hruns], by simp [hruns], fun _ _ => rfl, fun hnone => ?_⟩
    exact absurd (by simp [hruns]) (hnone goal)
  | add r =>
    obtain ⟨goal, hr, rfl⟩ := step_add hstep
    obtain ⟨rfl, hruns⟩ := h.runs_eq hr
    exact ⟨by simp [hruns], by simp [hruns], by simp [hruns], fun _ _ => by simp⟩
  | stop r =>
    have hr : r < w.runs.length := by
      by_contra hnot
      simp [GoalCloud.step, hnot] at hstep
    obtain rfl := step_stop hstep
    obtain ⟨rfl, hruns⟩ := h.runs_eq (List.getElem?_eq_getElem hr)
    have hstored := h.stored fun goal hgoal => by
      obtain ⟨k, hk⟩ := List.mem_iff_getElem?.1 hgoal
      obtain ⟨rfl, -⟩ := h.runs_eq hk
      have hnot : w.runs[0]?.any GoalRun.adding = false := hserial
      rw [hk] at hnot
      cases hnot
    rw [hruns]
    exact ⟨by simp, by simp, by simp, fun _ => hstored⟩

theorem alone_start {goals : ι → String} {docs : List GoalDoc} {nextRef : ℕ} :
    (start goals docs nextRef).Alone where
  length_le := Nat.zero_le _
  delete := fun _ _ hmem => absurd hmem List.not_mem_nil
  add := fun _ hmem => absurd hmem List.not_mem_nil
  stored := fun _ hstored => of_decide_eq_true hstored

end GoalCloud

open GoalCloud

/-- In a run whose steps are all careful the collection holds one goal whenever no run is under
way. -/
theorem oneGoal {ι : Type} [DecidableEq ι] {goals : ι → String} {docs : List GoalDoc}
    {nextRef : ℕ} (hdocs : docs.length ≤ 1) {as : List (GoalAction ι)}
    (heach : Machine.Each GoalCloud.step Careful as (start goals docs nextRef)) :
    Machine.Always GoalCloud.step OneGoal as (start goals docs nextRef) :=
  Machine.always_of_each Guarded (fun _ => Guarded.atMostOne) (fun _ _ _ h => h.step)
    (guarded_start hdocs) heach

/-- Two devices with goals of their own, one after the other, and one without. -/
theorem oneGoal_three : Machine.Always GoalCloud.step OneGoal
    [.setGoal 0 "4.5", .begin 0, .read 0, .delete 0 true, .add 0, .setGoal 1 "4.0", .begin 1,
      .begin 2, .fetch 1 (some ⟨0, "4.5"⟩), .read 0, .delete 0 true, .add 0]
    (start (fun _ : ℕ => "") [] 0) :=
  oneGoal (Nat.zero_le _) (by decide +kernel)

/-- Two devices read before either has added its goal, and both add one. A run that ends after
its delete leaves nothing. -/
theorem oneGoal_fails :
    (∃ w, Machine.run GoalCloud.step
        [.setGoal 0 "4.5", .setGoal 1 "4.0", .begin 0, .begin 1, .read 0, .read 1,
          .delete 0 true, .add 0, .delete 0 true, .add 0]
        (start (fun _ : ℕ => "") [] 0) = some w ∧ w.runs = [] ∧ w.docs.length = 2 ∧
      ¬w.OneGoal) ∧
    ∃ w, Machine.run GoalCloud.step
        [.setGoal 0 "4.5", .begin 0, .read 0, .delete 0 true, .stop 0]
        (start (fun _ : ℕ => "") [⟨0, "4.0"⟩] 1) = some w ∧ w.runs = [] ∧ w.stored = true ∧
      w.docs = [] ∧ ¬w.OneGoal := by
  constructor
  · refine ⟨_, rfl, rfl, rfl, fun h => ?_⟩
    exact absurd (h rfl).1 (by decide)
  · refine ⟨_, rfl, rfl, rfl, rfl, fun h => ?_⟩
    exact (h rfl).2 rfl rfl

/-- Runs that come one after the other are careful. -/
theorem careful_of_serial {ι : Type} [DecidableEq ι] {goals : ι → String} {docs : List GoalDoc}
    {nextRef : ℕ} {as : List (GoalAction ι)}
    (heach : Machine.Each GoalCloud.step Serial as (start goals docs nextRef)) :
    Machine.Each GoalCloud.step Careful as (start goals docs nextRef) :=
  Machine.each_of_each Alone (fun _ _ => Alone.careful) (fun _ _ _ h => h.step) alone_start heach

end StudyStats
