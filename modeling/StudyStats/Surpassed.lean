import StudyStats.History

/-!
# Surpassing the goal

The result page of an upload, the result page of a simulation and the dashboard each decide
whether the goal is surpassed. The two pages ask first whether the CGPA has risen.

## Main definitions

* `UpdateFunction.getUpdateResult`, `SimulateFunction.getSimulation` — what the pages say.
* `DashboardScreen.surpassed` — the condition of the dashboard's banner.

## Main results

* `screensAgree_iff` — the CGPAs for which the three agree.
-/

namespace StudyStats

open Dart

variable {D C : Type} [Floating D]

/-- The map a result page shows. -/
structure ResultText where
  title : String
  body : String
deriving DecidableEq

variable (D) in
/-- What both pages say. They differ in the title over the goal. -/
def resultText (surpassedTitle goal currentGpa cgpa : String) : Option ResultText := do
  let Goal : D ← Floating.parse goal
  let Gpa : D ← Floating.parse currentGpa
  let Cgpa : D ← Floating.parse cgpa
  if Floating.lt Gpa Cgpa then
    if Floating.lt Goal Cgpa then
      return {
        title := surpassedTitle
        body := "Your predicted CGPA of " ++ cgpa ++ " is exactly what you need to keep moving " ++
          "towards your CGPA goals. This is a clear sign of your commitment and the positive " ++
          "direction you're headed in. Staying on this path means continuing your hard work " ++
          "and maybe even setting new, higher goals. Keep the momentum going; your future " ++
          "self will thank you!" }
    else
      return {
        title := "A Path to improvement"
        body := "Based on your predicted CGPA of " ++ cgpa ++ ", it looks like there's a " ++
          "great opportunity ahead to enhance your academic standing. Reaching your CGPA " ++
          "target might require a bit more focus and dedication. Now's the perfect time to " ++
          "identify areas for improvement, seek additional resources, and perhaps adjust your " ++
          "study habits. Remember, every effort you make today shapes your academic success " ++
          "tomorrow." }
  else
    return {
      title := "You can still do it"
      body := "Your predicted GPA of " ++ cgpa ++ " indicates you're maintaining a steady pace " ++
        "towards achieving your CGPA goals. This balance is crucial for sustaining your " ++
        "academic achievements. Stay focused, manage your time efficiently, and remain open to " ++
        "seeking help whenever necessary. With consistent effort, you're likely to maintain " ++
        "this commendable performance. Keep it up!" }

variable (D) in
def UpdateFunction.getUpdateResult : String → String → String → Option ResultText :=
  resultText D "You Have surpassed your goal"

variable (D) in
def SimulateFunction.getSimulation : String → String → String → Option ResultText :=
  resultText D "On Track to Success!!!"

/-- `double.parse(HiveGoal.getGoal()) < authProvider.user!.currentCgpa!` -/
def DashboardScreen.surpassed (goal : String) (auth : AuthProvider D C) : Option Bool := do
  let goal ← Floating.parse goal
  return Floating.lt goal (← (← auth.user).currentCgpa)

/-- The page of the upload, the page of a simulation with the same numbers and the dashboard
after the upload agree on whether the goal is surpassed. -/
def ScreensAgree (goal currentGpa cgpa : String) (auth : AuthProvider D C) : Prop :=
  ((UpdateFunction.getUpdateResult D goal currentGpa cgpa).map ResultText.title =
      some "You Have surpassed your goal" ↔ DashboardScreen.surpassed goal auth = some true) ∧
  ((SimulateFunction.getSimulation D goal currentGpa cgpa).map ResultText.title =
      some "On Track to Success!!!" ↔ DashboardScreen.surpassed goal auth = some true)

/-- A page has the title over the goal exactly if the CGPA has risen, and above the goal. -/
theorem title_resultText_iff {title goal currentGpa cgpa : String} {g p c : D}
    (hgoal : Floating.parse goal = some g) (hcurrent : Floating.parse currentGpa = some p)
    (hcgpa : Floating.parse cgpa = some c)
    (htitle : title ≠ "A Path to improvement" ∧ title ≠ "You can still do it") :
    (resultText D title goal currentGpa cgpa).map ResultText.title = some title ↔
      Floating.lt p c = true ∧ Floating.lt g c = true := by
  simp only [resultText, hgoal, hcurrent, hcgpa, Option.bind_eq_bind, Option.bind_some]
  split_ifs with hrisen habove
  · simp [hrisen, habove]
  · simp [hrisen, habove, htitle.1.symm]
  · simp [hrisen, htitle.2.symm]

/-- An upload makes the CGPA it is called with the user's. -/
theorem currentCgpa_incrementUser {cgpa : String} {auth auth' : AuthProvider D C}
    (h : auth.incrementUser cgpa = some auth') :
    ∃ user, auth'.user = some user ∧ user.currentCgpa = Floating.parse cgpa := by
  simp only [AuthProvider.incrementUser, Option.bind_eq_bind, Option.bind_eq_some_iff,
    Option.pure_def, Option.some.injEq] at h
  obtain ⟨user, -, -, -, -, -, -, -, c, hc, rfl⟩ := h
  exact ⟨_, rfl, hc.symm⟩

/-- The screens agree unless a CGPA that has not risen is above the goal. -/
theorem screensAgree_iff {goal currentGpa cgpa : String} {g p c : D}
    (hgoal : Floating.parse goal = some g) (hcurrent : Floating.parse currentGpa = some p)
    (hcgpa : Floating.parse cgpa = some c) {auth auth' : AuthProvider D C}
    (hupload : auth.incrementUser cgpa = some auth') :
    ScreensAgree goal currentGpa cgpa auth' ↔
      (Floating.lt g c = true → Floating.lt p c = true) := by
  obtain ⟨user, huser, hcurrentCgpa⟩ := currentCgpa_incrementUser hupload
  have hdashboard : DashboardScreen.surpassed goal auth' = some (Floating.lt g c) := by
    simp [DashboardScreen.surpassed, hgoal, huser, hcurrentCgpa, hcgpa]
  have hpage : ∀ title, title ≠ "A Path to improvement" ∧ title ≠ "You can still do it" →
      (((resultText D title goal currentGpa cgpa).map ResultText.title = some title ↔
        DashboardScreen.surpassed goal auth' = some true) ↔
      (Floating.lt g c = true → Floating.lt p c = true)) := by
    intro title htitle
    rw [title_resultText_iff hgoal hcurrent hcgpa htitle, hdashboard, Option.some.injEq]
    tauto
  rw [ScreensAgree, UpdateFunction.getUpdateResult, SimulateFunction.getSimulation,
    hpage _ (by decide), hpage _ (by decide), and_self]

/-- A user whose CGPA before the upload is `cgpa`. -/
def sampleAuth (cgpa : ℤ) : AuthProvider Double (List Course) where
  user := some { freshman.user with currentCgpa := some (Floating.ofInt cgpa) }
  courseData := some freshman.courseData

/-- The first upload, from the sentinel, surpasses the goal. -/
theorem screensAgree_first : ∃ auth', (sampleAuth (-1)).incrementUser "4.5" = some auth' ∧
    DashboardScreen.surpassed "4.0" auth' = some true ∧
    ScreensAgree "4.0" "-1.0" "4.5" auth' := by
  have hrun : ((sampleAuth (-1)).incrementUser "4.5").map (DashboardScreen.surpassed "4.0") =
      some (some true) := by
    decide +kernel
  obtain ⟨auth', hupload, hdashboard⟩ := Option.map_eq_some_iff.1 hrun
  have hparse : ∀ text ∈ ["4.0", "-1.0", "4.5"],
      Floating.parse text = some ((Floating.parse text).getD Double.nan) := by
    decide +kernel
  refine ⟨auth', hupload, hdashboard, (screensAgree_iff (hparse "4.0" (by simp))
    (hparse "-1.0" (by simp)) (hparse "4.5" (by simp)) hupload).2 fun _ => ?_⟩
  decide +kernel

/-- A CGPA that falls from 4.0 to 3.5 is still above a goal of 3.0. The dashboard says so, the
pages do not. -/
theorem screensAgree_fails : ∃ auth', (sampleAuth 4).incrementUser "3.5" = some auth' ∧
    DashboardScreen.surpassed "3.0" auth' = some true ∧
    (UpdateFunction.getUpdateResult Double "3.0" "4.0" "3.5").map ResultText.title =
      some "You can still do it" ∧
    (SimulateFunction.getSimulation Double "3.0" "4.0" "3.5").map ResultText.title =
      some "You can still do it" ∧
    ¬ ScreensAgree "3.0" "4.0" "3.5" auth' := by
  have hrun : ((sampleAuth 4).incrementUser "3.5").map (DashboardScreen.surpassed "3.0") =
      some (some true) := by
    decide +kernel
  obtain ⟨auth', hupload, hdashboard⟩ := Option.map_eq_some_iff.1 hrun
  have hpage : (UpdateFunction.getUpdateResult Double "3.0" "4.0" "3.5").map ResultText.title =
      some "You can still do it" := by
    decide +kernel
  refine ⟨auth', hupload, hdashboard, hpage, by decide +kernel, fun h => ?_⟩
  rw [ScreensAgree, hpage, hdashboard] at h
  exact absurd (h.1.2 rfl) (by decide)

end StudyStats
