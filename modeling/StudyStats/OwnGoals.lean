import StudyStats.Accounts
import StudyStats.GoalSync

/-!
# Goals of another account

`syncGoal` is called for the user who is signed in and goes on when that user logs out. What it
fetches becomes the goal of the device, whoever is signed in by then. What it stores is the goal
the device has when the old documents are there, which after a log-out is none, or that of the
next user.

## Main definitions

* `GoalAccounts.step` — goals, log-ins, log-outs and the calls of `syncGoal` on any devices.

## Main results

* `ownGoals_iff` — the runs in which users only get and store goals of their own.
* `ownGoals_of_quiet` — it is enough that no call is under way on a device when its user logs out.
-/

namespace StudyStats

deriving instance DecidableEq for Owned

/-- A document of the collection `Goal` of a user. The goal has an owner, the user who set it,
which nothing reads; none is the empty text. -/
structure OwnedGoalDoc where
  ref : ℕ
  goal : Option (Owned String)
deriving DecidableEq

/-- The next step of a call, as in `GoalRun`. -/
inductive GoalStage where
  | fetch
  | read
  | delete (refs : List ℕ) (goal : Option (Owned String))
  | add (goal : Option (Owned String))

/-- The goal a call is about to store. -/
def GoalStage.goal : GoalStage → Option (Option (Owned String))
  | delete _ goal | add goal => some goal
  | fetch | read => none

/-- A call of `syncGoal` with the id it was given. -/
structure GoalCall (ι : Type) where
  device : ι
  id : String
  stage : GoalStage

/-- The devices, everybody's collection `Goal` and the calls under way. -/
structure GoalAccounts (ι : Type) where
  signedIn : ι → Option String
  goals : ι → Option (Owned String)
  docs : String → List OwnedGoalDoc
  nextRef : ℕ
  calls : List (GoalCall ι)

inductive GoalAccountsAction (ι : Type) where
  /-- `HiveGoal.saveGoal` with the text of a number -/
  | setGoal (i : ι) (goal : String)
  | logOut (i : ι)
  | logIn (i : ι) (id : String)
  | begin (i : ι)
  | fetch (r : ℕ) (answer : Option OwnedGoalDoc)
  | read (r : ℕ)
  | delete (r : ℕ) (accepted : Bool)
  | add (r : ℕ)
  | stop (r : ℕ)

namespace GoalAccounts

variable {ι : Type} [DecidableEq ι]

def step (w : GoalAccounts ι) : GoalAccountsAction ι → Option (GoalAccounts ι)
  | .setGoal i goal =>
    match w.signedIn i with
    | some id =>
      if goal = "" then none
      else some { w with goals := Function.update w.goals i (some ⟨id, goal⟩) }
    | none => none
  | .logOut i =>
    some { w with
      signedIn := Function.update w.signedIn i none
      goals := Function.update w.goals i none }
  | .logIn i id =>
    match w.signedIn i with
    | none => some { w with signedIn := Function.update w.signedIn i (some id) }
    | some _ => none
  | .begin i =>
    (w.signedIn i).map fun id => { w with
      calls := w.calls ++ [⟨i, id, if (w.goals i).isNone then .fetch else .read⟩] }
  | .fetch r answer =>
    match w.calls[r]?, answer with
    | some ⟨_, id, .fetch⟩, none =>
      if w.docs id = [] then some { w with calls := w.calls.eraseIdx r } else none
    | some ⟨i, id, .fetch⟩, some doc =>
      if doc ∈ w.docs id then
        some { w with
          goals := Function.update w.goals i doc.goal
          calls := w.calls.eraseIdx r }
      else none
    | _, _ => none
  | .read r =>
    match w.calls[r]? with
    | some ⟨i, id, .read⟩ => some { w with
        calls := w.calls.set r ⟨i, id, .delete ((w.docs id).map OwnedGoalDoc.ref) (w.goals i)⟩ }
    | _ => none
  | .delete r accepted =>
    match w.calls[r]? with
    | some ⟨i, id, .delete refs goal⟩ => some { w with
        docs := if accepted then Function.update w.docs id
            ((w.docs id).filter fun doc => doc.ref ∉ refs) else w.docs
        calls := w.calls.set r ⟨i, id, .add goal⟩ }
    | _ => none
  | .add r =>
    match w.calls[r]? with
    | some ⟨_, id, .add goal⟩ => some { w with
        docs := Function.update w.docs id (w.docs id ++ [⟨w.nextRef, goal⟩])
        nextRef := w.nextRef + 1
        calls := w.calls.eraseIdx r }
    | _ => none
  | .stop r => if r < w.calls.length then some { w with calls := w.calls.eraseIdx r } else none

/-- The goal is one that the user `id` has set. -/
def OwnGoal (id : String) (goal : Option (Owned String)) : Prop :=
  ∃ g, goal = some g ∧ g.owner = id

instance (id : String) : (goal : Option (Owned String)) → Decidable (OwnGoal id goal)
  | none => isFalse fun ⟨_, h, _⟩ => nomatch h
  | some g => decidable_of_iff (g.owner = id)
      ⟨fun h => ⟨g, rfl, h⟩, fun ⟨_, h, hid⟩ => Option.some.inj h ▸ hid⟩

/-- Devices have goals of their users, and users only store goals of their own. -/
structure OwnGoals (w : GoalAccounts ι) : Prop where
  device : ∀ i goal, w.goals i = some goal → w.signedIn i = some goal.owner
  docs : ∀ id, ∀ doc ∈ w.docs id, OwnGoal id doc.goal
  calls : ∀ call ∈ w.calls, ∀ goal ∈ call.stage.goal, OwnGoal call.id goal

/-- An answer with a document, or for a goal to be stored, meets the user of its call still signed
in, and the goal still there. -/
def OwnStep (w : GoalAccounts ι) : GoalAccountsAction ι → Prop
  | .fetch r (some _) => ∀ call ∈ w.calls[r]?, w.signedIn call.device = some call.id
  | .read r => ∀ call ∈ w.calls[r]?,
      w.signedIn call.device = some call.id ∧ (w.goals call.device).isSome
  | _ => True

instance (w : GoalAccounts ι) : (a : GoalAccountsAction ι) → Decidable (w.OwnStep a)
  | .fetch r (some _) => inferInstanceAs (Decidable (∀ call ∈ w.calls[r]?,
      w.signedIn call.device = some call.id))
  | .read r => inferInstanceAs (Decidable (∀ call ∈ w.calls[r]?,
      w.signedIn call.device = some call.id ∧ (w.goals call.device).isSome))
  | .fetch _ none | .setGoal .. | .logOut _ | .logIn .. | .begin _ | .delete .. | .add _
  | .stop _ => isTrue trivial

variable {w w' : GoalAccounts ι} {a : GoalAccountsAction ι}

/-! ## Writes -/

theorem OwnGoals.update_goals (h : w.OwnGoals) {i : ι} {goal : Option (Owned String)}
    (hgoal : ∀ g, goal = some g → w.signedIn i = some g.owner) :
    ∀ j g, Function.update w.goals i goal j = some g → w.signedIn j = some g.owner :=
  (Function.forall_update_iff w.goals
    (p := fun j o => ∀ g, o = some g → w.signedIn j = some g.owner)).2
    ⟨hgoal, fun j _ => h.device j⟩

omit [DecidableEq ι] in
theorem OwnGoals.update_docs (h : w.OwnGoals) {id : String} {docs : List OwnedGoalDoc}
    (hdocs : ∀ doc ∈ docs, OwnGoal id doc.goal) :
    ∀ id', ∀ doc ∈ Function.update w.docs id docs id', OwnGoal id' doc.goal :=
  (Function.forall_update_iff w.docs (p := fun id' l => ∀ doc ∈ l, OwnGoal id' doc.goal)).2
    ⟨hdocs, fun id' _ => h.docs id'⟩

omit [DecidableEq ι] in
theorem OwnGoals.eraseIdx (h : w.OwnGoals) (r : ℕ) :
    ∀ call ∈ w.calls.eraseIdx r, ∀ goal ∈ call.stage.goal, OwnGoal call.id goal :=
  fun call hcall => h.calls call (List.mem_of_mem_eraseIdx hcall)

omit [DecidableEq ι] in
/-- Only the call that goes on has to be looked at again. -/
theorem OwnGoals.set (h : w.OwnGoals) (r : ℕ) (next : GoalCall ι)
    (hnext : ∀ goal ∈ next.stage.goal, OwnGoal next.id goal) :
    ∀ call ∈ w.calls.set r next, ∀ goal ∈ call.stage.goal, OwnGoal call.id goal := by
  intro call hcall
  rcases List.mem_or_eq_of_mem_set hcall with hcall | rfl
  · exact h.calls call hcall
  · exact hnext

/-- What is fetched is the goal of the user of the call. -/
theorem OwnGoals.fetched_iff (h : w.OwnGoals) {r : ℕ} {i : ι} {id : String} {doc : OwnedGoalDoc}
    (hdoc : doc ∈ w.docs id) :
    OwnGoals { w with
      goals := Function.update w.goals i doc.goal, calls := w.calls.eraseIdx r } ↔
      w.signedIn i = some id := by
  obtain ⟨g, hg, howner⟩ := h.docs id doc hdoc
  constructor
  · intro hown
    have hsignedIn := hown.device i g (by simp [hg])
    rwa [howner] at hsignedIn
  · intro hsignedIn
    refine ⟨h.update_goals fun g' hg' => ?_, h.docs, h.eraseIdx r⟩
    obtain rfl : g = g' := Option.some.inj (hg.symm.trans hg')
    rw [howner]
    exact hsignedIn

omit [DecidableEq ι] in
/-- What is going to be stored is the goal of the user who is signed in. -/
theorem OwnGoals.readBack_iff (h : w.OwnGoals) {r : ℕ} {i : ι} {id : String} {refs : List ℕ}
    (hr : w.calls[r]? = some ⟨i, id, .read⟩) :
    OwnGoals { w with calls := w.calls.set r ⟨i, id, .delete refs (w.goals i)⟩ } ↔
      w.signedIn i = some id ∧ (w.goals i).isSome := by
  have hlength : r < w.calls.length := (List.getElem?_eq_some_iff.1 hr).1
  constructor
  · intro hown
    obtain ⟨g, hg, rfl⟩ := hown.calls _ (List.mem_set hlength _) _ rfl
    exact ⟨h.device i g hg, by rw [hg]; rfl⟩
  · rintro ⟨hsignedIn, hsome⟩
    obtain ⟨g, hg⟩ := Option.isSome_iff_exists.1 hsome
    have howner : g.owner = id := Option.some.inj ((h.device i g hg).symm.trans hsignedIn)
    refine ⟨h.device, h.docs, h.set r _ fun goal hgoal => ?_⟩
    cases hgoal
    exact ⟨g, hg, howner⟩

/-- A step leaves the goals with their users exactly if it is a step of that kind. -/
theorem ownGoals_step_iff (h : w.OwnGoals) (hstep : w.step a = some w') :
    w'.OwnGoals ↔ w.OwnStep a := by
  cases a with
  | setGoal i goal =>
    simp only [step] at hstep
    split at hstep
    · next id hid =>
      split_ifs at hstep
      cases hstep
      refine iff_of_true ⟨h.update_goals fun g hg => ?_, h.docs, h.calls⟩ trivial
      cases hg
      exact hid
    · cases hstep
  | logOut i =>
    cases hstep
    refine iff_of_true ⟨fun j g hg => ?_, h.docs, h.calls⟩ trivial
    dsimp only at hg ⊢
    by_cases hj : j = i
    · subst hj
      rw [Function.update_self] at hg
      cases hg
    · rw [Function.update_of_ne hj] at hg ⊢
      exact h.device j g hg
  | logIn i id =>
    simp only [step] at hstep
    split at hstep
    · next hnone =>
      cases hstep
      refine iff_of_true ⟨fun j g hg => ?_, h.docs, h.calls⟩ trivial
      have hsignedIn := h.device j g hg
      have hj : j ≠ i := by
        rintro rfl
        cases hnone.symm.trans hsignedIn
      dsimp only
      rw [Function.update_of_ne hj]
      exact hsignedIn
    · cases hstep
  | begin i =>
    obtain ⟨id, hid, rfl⟩ := Option.map_eq_some_iff.1 hstep
    refine iff_of_true ⟨h.device, h.docs, fun call hcall => ?_⟩ trivial
    rcases List.mem_append.1 hcall with hcall | hcall
    · exact h.calls call hcall
    · obtain rfl := List.mem_singleton.1 hcall
      dsimp only
      split_ifs <;> exact nofun
  | fetch r answer =>
    simp only [step] at hstep
    split at hstep
    · split_ifs at hstep
      cases hstep
      exact iff_of_true ⟨h.device, h.docs, h.eraseIdx r⟩ trivial
    · next i id doc hr =>
      split_ifs at hstep with hdoc
      cases hstep
      rw [h.fetched_iff hdoc]
      simp [OwnStep, hr]
    · cases hstep
  | read r =>
    simp only [step] at hstep
    split at hstep
    · next i id hr =>
      cases hstep
      rw [h.readBack_iff hr]
      simp [OwnStep, hr]
    · cases hstep
  | delete r accepted =>
    simp only [step] at hstep
    split at hstep
    · next i id refs goal hr =>
      cases hstep
      have hgoal := h.calls _ (List.mem_of_getElem? hr) goal rfl
      have hcalls := h.set r ⟨i, id, .add goal⟩ fun goal' hgoal' =>
        Option.some.inj hgoal' ▸ hgoal
      cases accepted with
      | false => exact iff_of_true ⟨h.device, h.docs, hcalls⟩ trivial
      | true =>
        exact iff_of_true ⟨h.device, h.update_docs fun doc hdoc =>
          h.docs id doc (List.mem_filter.1 hdoc).1, hcalls⟩ trivial
    · cases hstep
  | add r =>
    simp only [step] at hstep
    split at hstep
    · next i id goal hr =>
      cases hstep
      have hgoal := h.calls _ (List.mem_of_getElem? hr) goal rfl
      refine iff_of_true ⟨h.device, h.update_docs fun doc hdoc => ?_, h.eraseIdx r⟩ trivial
      rcases List.mem_append.1 hdoc with hdoc | hdoc
      · exact h.docs id doc hdoc
      · obtain rfl := List.mem_singleton.1 hdoc
        exact hgoal
    · cases hstep
  | stop r =>
    simp only [step] at hstep
    split_ifs at hstep
    cases hstep
    exact iff_of_true ⟨h.device, h.docs, h.eraseIdx r⟩ trivial

/-! ## Quiet log-outs -/

/-- No call is under way on a device when its user logs out. -/
def Quiet (w : GoalAccounts ι) : GoalAccountsAction ι → Prop
  | .logOut i => ∀ call ∈ w.calls, call.device ≠ i
  | _ => True

instance (w : GoalAccounts ι) : (a : GoalAccountsAction ι) → Decidable (w.Quiet a)
  | .logOut i => inferInstanceAs (Decidable (∀ call ∈ w.calls, call.device ≠ i))
  | .setGoal .. | .logIn .. | .begin _ | .fetch .. | .read _ | .delete .. | .add _ | .stop _ =>
    isTrue trivial

/-- The calls are those of the users who are signed in, and the ones that read have a goal. -/
def CallsAttended (w : GoalAccounts ι) (calls : List (GoalCall ι)) : Prop :=
  ∀ call ∈ calls, w.signedIn call.device = some call.id ∧
    (call.stage = .read → (w.goals call.device).isSome)

omit [DecidableEq ι] in
theorem CallsAttended.eraseIdx {calls : List (GoalCall ι)} (h : w.CallsAttended calls) (r : ℕ) :
    w.CallsAttended (calls.eraseIdx r) :=
  fun call hcall => h call (List.mem_of_mem_eraseIdx hcall)

omit [DecidableEq ι] in
/-- A call that goes on is one of the same user. -/
theorem CallsAttended.set {calls : List (GoalCall ι)} (h : w.CallsAttended calls) {r : ℕ}
    {call : GoalCall ι} (hr : calls[r]? = some call) {stage : GoalStage} (hstage : stage ≠ .read) :
    w.CallsAttended (calls.set r { call with stage }) := by
  intro call' hcall'
  rcases List.mem_or_eq_of_mem_set hcall' with hcall' | rfl
  · exact h call' hcall'
  · exact ⟨(h call (List.mem_of_getElem? hr)).1, fun hread => absurd hread hstage⟩

theorem isSome_update {i j : ι} {goal : Option (Owned String)} (hgoal : goal.isSome)
    (hj : (w.goals j).isSome) : (Function.update w.goals i goal j).isSome :=
  (Function.forall_update_iff w.goals (p := fun j o => (w.goals j).isSome → o.isSome)).2
    ⟨fun _ => hgoal, fun _ _ hsome => hsome⟩ j hj

theorem CallsAttended.update_goals {calls : List (GoalCall ι)} (h : w.CallsAttended calls) {i : ι}
    {goal : Option (Owned String)} (hgoal : goal.isSome) :
    CallsAttended { w with goals := Function.update w.goals i goal } calls :=
  fun call hcall => ⟨(h call hcall).1, fun hread => isSome_update hgoal ((h call hcall).2 hread)⟩

/-- Every call is attended, and the goals are their users'. -/
structure Attended (w : GoalAccounts ι) : Prop where
  own : w.OwnGoals
  calls : w.CallsAttended w.calls

theorem Attended.ownStep (h : w.Attended) (hstep : w.step a = some w') : w.OwnStep a := by
  cases a with
  | fetch r answer =>
    cases answer with
    | none => trivial
    | some doc => exact fun call hcall => (h.calls call (List.mem_of_getElem? hcall)).1
  | read r =>
    simp only [step] at hstep
    split at hstep
    · next i id hr =>
      intro call hcall
      obtain rfl : call = ⟨i, id, .read⟩ := Option.some.inj (hcall.symm.trans hr)
      obtain ⟨hsignedIn, hsome⟩ := h.calls _ (List.mem_of_getElem? hr)
      exact ⟨hsignedIn, hsome rfl⟩
    · cases hstep
  | setGoal | logOut | logIn | begin | delete | add | stop => trivial

theorem Attended.step (h : w.Attended) (hquiet : w.Quiet a) (hstep : w.step a = some w') :
    w'.Attended := by
  refine ⟨(ownGoals_step_iff h.own hstep).2 (h.ownStep hstep), ?_⟩
  cases a with
  | setGoal i goal =>
    simp only [GoalAccounts.step] at hstep
    split at hstep
    · split_ifs at hstep
      cases hstep
      exact h.calls.update_goals rfl
    · cases hstep
  | logOut i =>
    cases hstep
    intro call hcall
    dsimp only
    rw [Function.update_of_ne (hquiet call hcall), Function.update_of_ne (hquiet call hcall)]
    exact h.calls call hcall
  | logIn i id =>
    simp only [GoalAccounts.step] at hstep
    split at hstep
    · next hnone =>
      cases hstep
      intro call hcall
      obtain ⟨hsignedIn, hsome⟩ := h.calls call hcall
      have hne : call.device ≠ i := by
        rintro rfl
        cases hnone.symm.trans hsignedIn
      dsimp only
      rw [Function.update_of_ne hne]
      exact ⟨hsignedIn, hsome⟩
    · cases hstep
  | begin i =>
    obtain ⟨id, hid, rfl⟩ := Option.map_eq_some_iff.1 hstep
    intro call hcall
    rcases List.mem_append.1 hcall with hcall | hcall
    · exact h.calls call hcall
    · obtain rfl := List.mem_singleton.1 hcall
      refine ⟨hid, fun hread => ?_⟩
      dsimp only at hread ⊢
      split_ifs at hread with hnone
      exact Option.isSome_iff_ne_none.2 fun hgoal => hnone (by rw [hgoal]; rfl)
  | fetch r answer =>
    simp only [GoalAccounts.step] at hstep
    split at hstep
    · split_ifs at hstep
      cases hstep
      exact h.calls.eraseIdx r
    · next i id doc hr =>
      split_ifs at hstep with hdoc
      cases hstep
      obtain ⟨g, hg, -⟩ := h.own.docs id doc hdoc
      exact (h.calls.eraseIdx r).update_goals (by rw [hg]; rfl)
    · cases hstep
  | read r =>
    simp only [GoalAccounts.step] at hstep
    split at hstep
    · next i id hr =>
      cases hstep
      exact h.calls.set hr nofun
    · cases hstep
  | delete r accepted =>
    simp only [GoalAccounts.step] at hstep
    split at hstep
    · next i id refs goal hr =>
      cases hstep
      exact h.calls.set hr nofun
    · cases hstep
  | add r =>
    simp only [GoalAccounts.step] at hstep
    split at hstep
    · cases hstep
      exact h.calls.eraseIdx r
    · cases hstep
  | stop r =>
    simp only [GoalAccounts.step] at hstep
    split_ifs at hstep
    cases hstep
    exact h.calls.eraseIdx r

end GoalAccounts

open GoalAccounts

variable {ι : Type} [DecidableEq ι]

/-- In every run without a log-out of a user whose call is under way, users only get and store
goals of their own. -/
theorem ownGoals_of_quiet {start : GoalAccounts ι} (hstart : start.Attended)
    {as : List (GoalAccountsAction ι)} (hquiet : Machine.Each GoalAccounts.step Quiet as start) :
    Machine.Always GoalAccounts.step OwnGoals as start :=
  Machine.always_of_each Attended (fun _ h => h.own)
    (fun _ _ _ h hquiet hstep => h.step hquiet hstep) hstart hquiet

/-- Devices have only goals of their users, and users store only goals of their own, exactly in
the runs in which every answer to a call with a document, or for a goal to be stored, meets the
user of the call still signed in and the goal still there. -/
theorem ownGoals_iff {start w : GoalAccounts ι} (hstart : start.OwnGoals)
    {as : List (GoalAccountsAction ι)} (hrun : Machine.run GoalAccounts.step as start = some w) :
    Machine.Always GoalAccounts.step OwnGoals as start ↔
      Machine.Each GoalAccounts.step OwnStep as start :=
  Machine.always_iff_each OwnGoals (fun _ h => h)
    (fun _ _ _ h hstep hown => (ownGoals_step_iff h hstep).1 hown)
    (fun _ _ _ h hown hstep => (ownGoals_step_iff h hstep).2 hown) hstart hrun

/-- Nobody is signed in and nothing is stored. -/
def noGoals : GoalAccounts Bool where
  signedIn _ := none
  goals _ := none
  docs _ := []
  nextRef := 0
  calls := []

theorem attended_noGoals : noGoals.Attended :=
  ⟨⟨nofun, nofun, nofun⟩, nofun⟩

/-- A goal is set and stored on one device and fetched on another. -/
def goalShared : List (GoalAccountsAction Bool) :=
  [.logIn true "a", .setGoal true "4.5", .begin true, .read 0, .delete 0 true, .add 0, .logOut true,
    .logIn false "a", .begin false, .fetch 0 (some ⟨0, some ⟨"a", "4.5"⟩⟩)]

theorem ownGoals_shared : Machine.Always GoalAccounts.step OwnGoals goalShared noGoals :=
  ownGoals_of_quiet attended_noGoals (by decide)

/-- The user logs out while the old documents are read. -/
def goalLost : List (GoalAccountsAction Bool) :=
  goalShared.take 6 ++ [.begin true, .logOut true, .read 0, .delete 0 true, .add 0]

/-- The goal of the account is replaced by the empty text. -/
theorem ownGoals_lost : ∃ w, Machine.run GoalAccounts.step goalLost noGoals = some w ∧
    w.docs "a" = [⟨1, none⟩] ∧ ¬Machine.Each GoalAccounts.step OwnStep goalLost noGoals := by
  have hcheck : (Machine.run GoalAccounts.step goalLost noGoals).map (fun w => w.docs "a") =
      some [⟨1, none⟩] := by
    decide +kernel
  obtain ⟨w, hrun, hdocs⟩ := Option.map_eq_some_iff.1 hcheck
  refine ⟨w, hrun, hdocs, fun heach => ?_⟩
  have hown := ((ownGoals_iff attended_noGoals.own hrun).2 heach).last hrun
  -- the last document has no goal
  obtain ⟨g, hgoal, -⟩ := hown.docs "a" ⟨1, none⟩ (by rw [hdocs]; exact List.mem_cons_self)
  cases hgoal

end StudyStats
