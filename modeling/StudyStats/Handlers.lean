import StudyStats.Identity

/-!
# Handlers come to an end

An answer may let a handler send another write or wait once more, but not without end: an edit
of the profile, which goes on longest, waits for the records to be deleted, for its write and
for the course map.

## Main results

* `handlers_end` — how many answers an installation can be given, and what is left then.
-/

namespace StudyStats

open Dart

variable {ι D C : Type}

/-! ## What is left to answer -/

/-- How many answers a write leads to. -/
def PendingWrite.work (x : PendingWrite D) : ℕ :=
  if x.awaited then
    match x.write with
    | .update _ editing => if editing then 2 else 1
    | .updatePassword .. => 2
    | .delete _ => 1
  else 1

/-- How many answers a handler that waits leads to. -/
def Waiting.work : Waiting D C → ℕ
  | deleteData .. => 3
  | courseMap .. | readBack _ => 1

namespace Phone

def work (p : Phone D C) : ℕ :=
  (p.writes.map PendingWrite.work).sum + (p.waiting.map Waiting.work).sum

theorem work_send (x : UserWrite D) (p : Phone D C) :
    (p.send x).work = p.work + PendingWrite.work ⟨x, true⟩ := by
  simp [work, send, add_right_comm]

theorem work_wait (x : Waiting D C) (p : Phone D C) : (p.wait x).work = p.work + x.work := by
  simp [work, wait, add_assoc]

theorem work_loadCourseMap_le (login : Bool) (user : User D) (p : Phone D C) :
    (p.loadCourseMap login user).work ≤ p.work + 1 := by
  unfold loadCourseMap
  split
  · exact (work_wait _ p).le
  · exact Nat.le_succ _

/-- An accepted write leads to one answer less. -/
theorem work_resume (x : UserWrite D) (p : Phone D C) :
    (p.resume x).work + 1 ≤ p.work + PendingWrite.work ⟨x, true⟩ := by
  cases x with
  | update user editing =>
    cases editing with
    | false => exact le_rfl
    | true =>
      have hle := work_loadCourseMap_le false user p
      simp only [resume, PendingWrite.work, if_true]
      omega
  | updatePassword id newPassword => exact (congrArg (· + 1) (work_wait _ p)).le
  | delete id => exact le_rfl

/-- So does the answer to a handler. -/
theorem work_receive [Floating D] (env : Platform C) (users : Users D) (ok : Bool)
    (x : Waiting D C) (p : Phone D C) :
    (p.receive env users ok x).work + 1 ≤ p.work + x.work := by
  cases x with
  | deleteData user screen =>
    simp only [receive, update, Waiting.work]
    split
    · omega
    · next new _ =>
      have hsend := work_send (.update new true) (p.saveUser new)
      have hsaved : (p.saveUser new).work = p.work := rfl
      simp only [hsaved, PendingWrite.work, if_true] at hsend
      omega
  | courseMap login uni faculty course => cases login <;> exact le_rfl
  | readBack id =>
    simp only [receive]
    split
    · split_ifs <;> exact le_rfl
    · exact le_rfl

theorem work_rest {p : Phone D C} {x : PendingWrite D} {rest : List (PendingWrite D)}
    (h : p.writes = x :: rest) :
    p.work = ({ p with writes := rest } : Phone D C).work + x.work := by
  simp only [work, h, List.map_cons, List.sum_cons]
  omega

theorem work_eraseIdx {p : Phone D C} {k : ℕ} {x : Waiting D C} (h : p.waiting[k]? = some x) :
    p.work = ({ p with waiting := p.waiting.eraseIdx k } : Phone D C).work + x.work := by
  obtain ⟨hk, rfl⟩ := List.getElem?_eq_some_iff.1 h
  have hperm := (List.getElem_cons_eraseIdx_perm hk).map Waiting.work
  have hsum := hperm.sum_eq
  rw [List.map_cons, List.sum_cons] at hsum
  simp only [work]
  omega

theorem one_le_work (x : PendingWrite D) : 1 ≤ x.work := by
  unfold PendingWrite.work
  split_ifs
  · split
    · split_ifs <;> decide
    · decide
    · decide
  · exact le_rfl

end Phone

/-! ## Runs -/

/-- The installation an action is on. -/
def ServiceAction.phone : ServiceAction ι D C → ι
  | on i _ | submit i .. | answerWrite i _ => i

/-- The action is an answer to something. -/
def ServiceAction.answers : ServiceAction ι D C → Bool
  | on _ (.answer ..) | answerWrite .. => true
  | on .. | submit .. => false

namespace Service

variable [DecidableEq ι] [Floating D] {env : Platform C} {w w' : Service ι D C}
  {a : ServiceAction ι D C}

theorem phones_of_ne (hstep : w.step env a = some w') {i : ι} (hi : a.phone ≠ i) :
    w'.phones i = w.phones i := by
  cases a with
  | on j a =>
    obtain ⟨p, -, -, rfl⟩ := step_on hstep
    exact Function.update_of_ne (Ne.symm hi) _ _
  | submit j screen accepted killed =>
    obtain ⟨-, users, p, -, rfl⟩ := step_submit hstep
    exact Function.update_of_ne (Ne.symm hi) _ _
  | answerWrite j accepted =>
    obtain ⟨x, rest, -, ⟨-, rfl⟩ | ⟨users, -, rfl⟩⟩ := step_answerWrite hstep <;>
      exact Function.update_of_ne (Ne.symm hi) _ _

/-- Every answer is one step nearer to the end. -/
theorem work_step (hstep : w.step env a = some w') (ha : a.answers) :
    1 + (w'.phones a.phone).work ≤ (w.phones a.phone).work := by
  cases a with
  | on i a =>
    cases a with
    | answer k ok =>
      simp only [step, Phone.act] at hstep
      split_ifs at hstep
      obtain ⟨p, hp, rfl⟩ := Option.map_eq_some_iff.1 hstep
      obtain ⟨x, hx, rfl⟩ := Option.map_eq_some_iff.1 hp
      simp only [ServiceAction.phone, setPhone, Function.update_self]
      rw [Phone.work_eraseIdx hx, add_comm]
      exact Phone.work_receive env w.users ok x _
    | _ => cases ha
  | submit j screen accepted killed => cases ha
  | answerWrite i accepted =>
    obtain ⟨x, rest, hwrites, hcases⟩ := step_answerWrite hstep
    have hone := Phone.one_le_work x
    have hrest : 1 + ({ w.phones i with writes := rest } : Phone D C).work ≤ (w.phones i).work := by
      rw [Phone.work_rest hwrites, add_comm]
      exact Nat.add_le_add_left hone _
    rcases hcases with ⟨-, rfl⟩ | ⟨users, -, rfl⟩
    · simpa [ServiceAction.phone, setPhone] using hrest
    · simp only [ServiceAction.phone, setPhone, Function.update_self]
      split_ifs with hawaited
      · rw [Phone.work_rest hwrites, add_comm]
        refine (Phone.work_resume x.write _).trans (le_of_eq ?_)
        rw [← hawaited]
      · exact hrest

/-- Whatever is under way can be answered. -/
theorem exists_answer (env : Platform C) {i : ι}
    (h : ¬((w.phones i).writes = [] ∧ (w.phones i).waiting = [])) :
    ∃ a : ServiceAction ι D C, a.phone = i ∧ a.answers = true ∧ (w.step env a).isSome := by
  cases hwrites : (w.phones i).writes with
  | cons x rest =>
    refine ⟨.answerWrite i false, rfl, rfl, ?_⟩
    simp [step, hwrites]
  | nil =>
    cases hwaiting : (w.phones i).waiting with
    | nil => exact absurd ⟨hwrites, hwaiting⟩ h
    | cons x rest =>
      refine ⟨.on i (.answer 0 true), rfl, rfl, ?_⟩
      simp [step, Phone.act, hwaiting, PhoneAction.newId]

end Service

/-- An installation that only gets answers gets at most as many as there is work left, whatever
goes on elsewhere, and if none is possible any more then nothing is under way. -/
theorem handlers_end [DecidableEq ι] [Floating D] {env : Platform C}
    {as : List (ServiceAction ι D C)} {w w' : Service ι D C} {i : ι}
    (hanswers : ∀ a ∈ as, a.phone = i → a.answers = true)
    (hrun : Machine.run (Service.step env) as w = some w') :
    as.countP (fun a => a.phone = i) + (w'.phones i).work ≤ (w.phones i).work ∧
      ((∀ a : ServiceAction ι D C, a.phone = i → a.answers = true → w'.step env a = none) →
        (w'.phones i).writes = [] ∧ (w'.phones i).waiting = []) := by
  constructor
  · refine Machine.countP_add_le (fun w => (w.phones i).work) (fun a => a.phone = i) ?_ hrun
    intro a ha w w' hstep
    by_cases hi : a.phone = i
    · subst hi
      simpa using Service.work_step hstep (hanswers a ha rfl)
    · simp [hi, Service.phones_of_ne hstep hi]
  · intro hnone
    by_contra hsome
    obtain ⟨a, hi, ha, hstep⟩ := Service.exists_answer env hsome
    rw [hnone a hi ha] at hstep
    cases hstep

/-- Ada edits her profile with an upload on its way. -/
def adaEdits : List (ServiceAction Unit Double (List Course)) :=
  adaSignsUp () ++ [.on () (.incrementUser "4.5"),
    .on () (.editProfile { sampleScreen "200" "4.0" with dataChanged := true })]

/-- Everything is answered. -/
def adaEdited : List (ServiceAction Unit Double (List Course)) :=
  [.on () (.answer 0 true), .answerWrite () true, .answerWrite () true, .on () (.answer 0 true)]

theorem handlers_end_ada : ∃ w w',
    Machine.run (Service.step samplePlatform) adaEdits (Service.start Table.empty) = some w ∧
    Machine.run (Service.step samplePlatform) adaEdited w = some w' ∧
    (w.phones ()).work = 4 ∧ 4 + (w'.phones ()).work ≤ (w.phones ()).work := by
  have hcheck : ((Machine.run (Service.step samplePlatform) adaEdits
      (Service.start Table.empty)).bind fun w =>
        (Machine.run (Service.step samplePlatform) adaEdited w).map fun _ =>
          (w.phones ()).work) = some 4 := by
    decide +kernel
  obtain ⟨w, hrun, hcheck⟩ := Option.bind_eq_some_iff.1 hcheck
  obtain ⟨w', hrun', hwork⟩ := Option.map_eq_some_iff.1 hcheck
  have hanswers : ∀ a ∈ adaEdited, a.phone = () → a.answers = true :=
    List.forall_mem_cons.2 ⟨fun _ => rfl, List.forall_mem_cons.2 ⟨fun _ => rfl,
      List.forall_mem_cons.2 ⟨fun _ => rfl, List.forall_mem_singleton.2 fun _ => rfl⟩⟩⟩
  exact ⟨w, w', hrun, hrun', hwork, (handlers_end hanswers hrun').1⟩

end StudyStats
