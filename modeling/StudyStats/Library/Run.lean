import Mathlib.Data.List.Basic
import Mathlib.Logic.Function.Iterate

/-!
# Runs of a partial machine

A machine is a step function `σ → α → Option σ`: in a state, an action is either possible
or not. A run is a list of actions, each possible where it comes. The rules here turn facts
about one step into facts about whole runs.

## Main results

* `Machine.invariant` — what the steps keep holds in every state reached.
* `Machine.invariant_of_each` — the same where only steps of a certain kind keep it.
* `Machine.always_of_each` — steps that keep a run among good states.
* `Machine.always_iff_each` — the steps a run must be made of to stay among good states.
* `Machine.invariant_log` — what the steps keep of the state and of what they have written down.
* `Machine.countP_add_le` — how often a run can take steps that lower a measure.
* `Machine.exists_run` — runs of a machine whose steps are those of another, or none.
-/

namespace Machine

variable {σ α : Type*}

/-- The state after the actions `as`, if each of them was possible. -/
def run (step : σ → α → Option σ) : List α → σ → Option σ
  | [], s => some s
  | a :: as, s => (step s a).bind (run step as)

/-- Every step of the run meets `P`, a condition on an action and the state before it. -/
def Each (step : σ → α → Option σ) (P : σ → α → Prop) : List α → σ → Prop
  | [], _ => True
  | a :: as, s => P s a ∧ ∀ s', step s a = some s' → Each step P as s'

instance decidableEach (step : σ → α → Option σ) (P : σ → α → Prop)
    [∀ s a, Decidable (P s a)] : (as : List α) → (s : σ) → Decidable (Each step P as s)
  | [], _ => isTrue trivial
  | a :: as, s =>
    have := decidableEach step P as
    inferInstanceAs (Decidable (P s a ∧ ∀ s' ∈ step s a, Each step P as s'))

variable {step : σ → α → Option σ}

@[simp] theorem run_nil (s : σ) : run step [] s = some s := rfl

theorem run_cons {a : α} {as : List α} {s s' : σ} :
    run step (a :: as) s = some s' ↔ ∃ t, step s a = some t ∧ run step as t = some s' :=
  Option.bind_eq_some_iff

theorem run_append {as bs : List α} {s s' : σ} :
    run step (as ++ bs) s = some s' ↔ ∃ t, run step as s = some t ∧ run step bs t = some s' := by
  induction as generalizing s with
  | nil => simp
  | cons a as ih =>
    simp only [List.cons_append, run_cons, ih]
    constructor
    · rintro ⟨t, ht, u, hu, hbs⟩
      exact ⟨u, ⟨t, ht, hu⟩, hbs⟩
    · rintro ⟨u, ⟨t, ht, hu⟩, hbs⟩
      exact ⟨t, ht, u, hu, hbs⟩

theorem invariant_of_each (Inv : σ → Prop) (P : σ → α → Prop)
    (hstep : ∀ s a s', Inv s → P s a → step s a = some s' → Inv s') {as : List α} {s s' : σ}
    (hs : Inv s) (heach : Each step P as s) (hrun : run step as s = some s') : Inv s' := by
  induction as generalizing s with
  | nil => cases hrun; exact hs
  | cons a as ih =>
    obtain ⟨t, hat, htrun⟩ := run_cons.1 hrun
    exact ih (hstep s a t hs heach.1 hat) (heach.2 t hat) htrun

theorem each_of_forall {P : σ → α → Prop} {as : List α} (h : ∀ a ∈ as, ∀ s, P s a) (s : σ) :
    Each step P as s := by
  induction as generalizing s with
  | nil => trivial
  | cons a as ih =>
    obtain ⟨hfirst, hrest⟩ := List.forall_mem_cons.1 h
    exact ⟨hfirst s, fun t _ => ih hrest t⟩

theorem invariant (Inv : σ → Prop) (hstep : ∀ s a s', Inv s → step s a = some s' → Inv s')
    {as : List α} {s s' : σ} (hs : Inv s) (hrun : run step as s = some s') : Inv s' :=
  invariant_of_each Inv (fun _ _ => True) (fun s a s' h _ => hstep s a s' h) hs
    (each_of_forall (fun _ _ _ => trivial) s) hrun

/-- What the steps of a run write down, one after the other. -/
def log {β : Type*} (step : σ → α → Option σ) (f : σ → α → List β) : List α → σ → List β
  | [], _ => []
  | a :: as, s => f s a ++ match step s a with
    | some s' => log step f as s'
    | none => []

theorem invariant_log {β : Type*} {f : σ → α → List β} (Inv : List β → σ → Prop)
    (P : σ → α → Prop)
    (hstep : ∀ l s a s', Inv l s → P s a → step s a = some s' → Inv (l ++ f s a) s') {as : List α}
    {l : List β} {s s' : σ} (hs : Inv l s) (heach : Each step P as s)
    (hrun : run step as s = some s') : Inv (l ++ log step f as s) s' := by
  induction as generalizing l s with
  | nil =>
    cases hrun
    rwa [log, List.append_nil]
  | cons a as ih =>
    obtain ⟨t, hat, htrun⟩ := run_cons.1 hrun
    rw [log, hat, ← List.append_assoc]
    exact ih (hstep l s a t hs heach.1 hat) (heach.2 t hat) htrun

/-- Steps that lower a measure which the other steps do not raise. -/
theorem countP_add_le (m : σ → ℕ) (q : α → Bool) {as : List α} {s s' : σ}
    (hstep : ∀ a ∈ as, ∀ s s', step s a = some s' → (if q a then 1 else 0) + m s' ≤ m s)
    (hrun : run step as s = some s') : as.countP q + m s' ≤ m s := by
  induction as generalizing s with
  | nil =>
    cases hrun
    simp
  | cons a as ih =>
    obtain ⟨t, hat, htrun⟩ := run_cons.1 hrun
    obtain ⟨hfirst, hrest⟩ := List.forall_mem_cons.1 hstep
    have ht := ih hrest htrun
    have hs := hfirst s t hat
    rw [List.countP_cons]
    omega

/-! ## Simulation -/

/-- Where every step is none or one of another machine, every run is a run of that machine. -/
theorem exists_run {τ β : Type*} {step' : τ → β → Option τ} (f : σ → τ) (Inv : σ → Prop)
    (P : σ → α → Prop)
    (hstep : ∀ s a s', Inv s → P s a → step s a = some s' →
      Inv s' ∧ (f s' = f s ∨ ∃ b, step' (f s) b = some (f s')))
    {as : List α} {s s' : σ} (hs : Inv s) (heach : Each step P as s)
    (hrun : run step as s = some s') : ∃ bs, run step' bs (f s) = some (f s') := by
  induction as generalizing s with
  | nil =>
    cases hrun
    exact ⟨[], rfl⟩
  | cons a as ih =>
    obtain ⟨t, hat, htrun⟩ := run_cons.1 hrun
    obtain ⟨ht, hsim⟩ := hstep s a t hs heach.1 hat
    obtain ⟨bs, hbs⟩ := ih ht (heach.2 t hat) htrun
    rcases hsim with hsame | ⟨b, hb⟩
    · exact ⟨bs, hsame ▸ hbs⟩
    · exact ⟨b :: bs, run_cons.2 ⟨f t, hb, hbs⟩⟩

/-! ## Exact conditions -/

/-- `G` holds of every state the run passes through. -/
def Always (step : σ → α → Option σ) (G : σ → Prop) : List α → σ → Prop
  | [], s => G s
  | a :: as, s => G s ∧ ∀ s', step s a = some s' → Always step G as s'

theorem Always.head {G : σ → Prop} {as : List α} {s : σ} (h : Always step G as s) : G s := by
  cases as with
  | nil => exact h
  | cons => exact h.1

theorem Always.last {G : σ → Prop} {as : List α} {s s' : σ} (h : Always step G as s)
    (hrun : run step as s = some s') : G s' := by
  induction as generalizing s with
  | nil => cases hrun; exact h
  | cons a as ih =>
    obtain ⟨t, hat, htrun⟩ := run_cons.1 hrun
    exact ih (h.2 t hat) htrun

/-- A condition that implies another where the invariant holds does so along every run. The
invariant need only be kept by steps that meet the first one. -/
theorem each_of_each (Inv : σ → Prop) {P Q : σ → α → Prop}
    (himp : ∀ s a, Inv s → P s a → Q s a)
    (hstep : ∀ s a s', Inv s → P s a → step s a = some s' → Inv s') {as : List α} {s : σ}
    (hs : Inv s) (heach : Each step P as s) : Each step Q as s := by
  induction as generalizing s with
  | nil => trivial
  | cons a as ih =>
    obtain ⟨hP, hrest⟩ := heach
    exact ⟨himp s a hs hP, fun t hat => ih (hstep s a t hs hP hat) (hrest t hat)⟩

/-- Two conditions that agree where the invariant holds are met by the same runs. -/
theorem each_iff_each (Inv : σ → Prop) {P Q : σ → α → Prop}
    (hiff : ∀ s a, Inv s → (P s a ↔ Q s a))
    (hstep : ∀ s a s', Inv s → Q s a → step s a = some s' → Inv s') {as : List α} {s : σ}
    (hs : Inv s) : Each step P as s ↔ Each step Q as s :=
  ⟨each_of_each Inv (fun s a hs => (hiff s a hs).1)
      (fun s a s' hs hP => hstep s a s' hs ((hiff s a hs).1 hP)) hs,
    each_of_each Inv (fun s a hs => (hiff s a hs).2) hstep hs⟩

/-- Steps that keep an invariant of good states stay among them. -/
theorem always_of_each (Inv : σ → Prop) {G : σ → Prop} {P : σ → α → Prop}
    (hgood : ∀ s, Inv s → G s)
    (hstep : ∀ s a s', Inv s → P s a → step s a = some s' → Inv s') {as : List α} {s : σ}
    (hs : Inv s) (heach : Each step P as s) : Always step G as s := by
  induction as generalizing s with
  | nil => exact hgood s hs
  | cons a as ih =>
    obtain ⟨hP, hrest⟩ := heach
    exact ⟨hgood s hs, fun t hat => ih (hstep s a t hs hP hat) (hrest t hat)⟩

/-- Where a step leads to a good state exactly when it meets `Q`, a run stays among good
states exactly when each of its steps meets `Q`. -/
theorem always_iff_each (Inv : σ → Prop) {G : σ → Prop} {Q : σ → α → Prop}
    (hgood : ∀ s, Inv s → G s)
    (hexact : ∀ s a s', Inv s → step s a = some s' → G s' → Q s a)
    (hstep : ∀ s a s', Inv s → Q s a → step s a = some s' → Inv s') {as : List α} {s s' : σ}
    (hs : Inv s) (hrun : run step as s = some s') :
    Always step G as s ↔ Each step Q as s := by
  refine ⟨fun halways => ?_, always_of_each Inv hgood hstep hs⟩
  induction as generalizing s with
  | nil => trivial
  | cons a as ih =>
    obtain ⟨t, hat, htrun⟩ := run_cons.1 hrun
    have htail := halways.2 t hat
    have hQ := hexact s a t hs hat htail.head
    refine ⟨hQ, fun u hau => ?_⟩
    cases hat.symm.trans hau
    exact ih (hstep s a t hs hQ hat) htrun htail

end Machine
