import StudyStats.RetriedSignUp

/-!
# One account per email

A sign-up looks for the typed email and stores it in lower case. No two documents have the
same email as long as every sign-up that stores a document was typed in a spelling whose
lower-cased form is new.

## Main results

* `oneAccountPerEmail_iff` — the sequences of sign-ups that keep the emails apart.
-/

namespace StudyStats

open Dart

variable {D C : Type} [Floating D] {hashPassword toLowerCase : String → String}

/-- Both forms of a sign-up, and the id `Uuid` gives. -/
structure Attempt (C : Type) where
  id : String
  form : SignUpForm
  screen : FillProfileScreen C

namespace SignUp

/-- A sign-up and a submit that is not rejected. A fresh id is one that no document has. -/
def attempt (hashPassword toLowerCase : String → String) (w : SignUp D C) (a : Attempt C) :
    Option (SignUp D C) :=
  if w.users.rows.any (·.id == a.id) then none
  else if SignUpScreen.enable a.form then
    match SignUpScreen.onTap toLowerCase a.id a.form w.users w.auth with
    | .error _ => some w
    | .ok auth => a.screen.onTap hashPassword true { w with auth }
  else some w

/-- No two documents have the same email, so a lookup has one answer. -/
def OneAccountPerEmail (w : SignUp D C) : Prop :=
  (w.users.rows.map User.email).Nodup ∧
    ∀ email, (w.users.rows.filter fun user => user.email = email).length ≤ 1

/-- The attempt passes every check up to the write. -/
def stores (toLowerCase : String → String) (w : SignUp D C) (a : Attempt C) : Bool :=
  SignUpScreen.enable a.form &&
    (SignUpScreen.onTap toLowerCase a.id a.form w.users w.auth).isOk && a.screen.passes D

/-- If the attempt passes every check, the lower-cased email is not registered either. -/
def LowerCaseNew (toLowerCase : String → String) (w : SignUp D C) (a : Attempt C) : Prop :=
  w.stores toLowerCase a →
    SignUpFunction.doesEmailExist (toLowerCase a.form.email) w.users = false

instance (w : SignUp D C) (a : Attempt C) : Decidable (w.LowerCaseNew toLowerCase a) :=
  inferInstanceAs (Decidable (_ → _))

variable {w w' : SignUp D C} {a : Attempt C}

omit [Floating D] in
theorem oneAccountPerEmail_iff_nodup :
    w.OneAccountPerEmail ↔ (w.users.rows.map User.email).Nodup :=
  and_iff_left_of_imp Table.filter_length_le_one

/-- An attempt adds a document with the lower-cased email, or none. -/
theorem attempt_cases (h : w.attempt hashPassword toLowerCase a = some w') :
    (w.stores toLowerCase a = false ∧ w'.users = w.users) ∨
      w.stores toLowerCase a = true ∧ ∃ doc : User D, doc.email = toLowerCase a.form.email ∧
        w'.users.rows.Perm (doc :: w.users.rows) := by
  unfold attempt at h
  unfold stores
  split_ifs at h with hid henable
  · simp only [List.any_eq_true, beq_iff_eq, not_exists, not_and] at hid
    cases htap : SignUpScreen.onTap toLowerCase a.id a.form w.users w.auth with
    | error message =>
      rw [htap] at h
      exact .inl ⟨by simp [Except.isOk, Except.toBool], (Option.some.inj h) ▸ rfl⟩
    | ok auth =>
      rw [htap] at h
      obtain ⟨image, rfl⟩ := SignUpScreen.onTap_eq htap
      rcases FillProfileScreen.onTap_cases h with ⟨hpasses, rfl⟩ |
        ⟨hpasses, user, doc, data, huser, hdoc, rfl⟩
      · exact .inl ⟨by simp [hpasses], rfl⟩
      · cases huser
        obtain ⟨hdocId, hemail, -⟩ := User.fillData_eq hdoc
        refine .inr ⟨by simp [henable, hpasses, Except.isOk, Except.toBool], doc, hemail, ?_⟩
        refine Table.perm_set fun user huser => ?_
        rw [hdocId]
        exact hid user huser
  · exact .inl ⟨by simp [henable], (Option.some.inj h) ▸ rfl⟩

/-- A step keeps the emails apart exactly if what it stores is new. -/
theorem nodup_attempt_iff (h : (w.users.rows.map User.email).Nodup)
    (hstep : w.attempt hashPassword toLowerCase a = some w') :
    (w'.users.rows.map User.email).Nodup ↔ w.LowerCaseNew toLowerCase a := by
  rcases attempt_cases hstep with ⟨hstores, husers⟩ | ⟨hstores, doc, hemail, hperm⟩
  · rw [husers]
    exact iff_of_true h fun hs => absurd hs (by simp [hstores])
  · rw [(hperm.map User.email).nodup_iff, List.map_cons, List.nodup_cons, and_iff_left h, hemail,
      LowerCaseNew, hstores, SignUpFunction.doesEmailExist_eq_false, List.mem_map]
    simp

/-- An email typed in lower case is looked up as it is stored. -/
theorem lowerCaseNew_of_lower (h : toLowerCase a.form.email = a.form.email) :
    w.LowerCaseNew toLowerCase a := by
  intro hstores
  simp only [stores, Bool.and_eq_true] at hstores
  obtain ⟨⟨-, htap⟩, -⟩ := hstores
  rw [h]
  by_contra hexists
  rw [SignUpScreen.onTap, if_pos (by simpa using hexists)] at htap
  cases htap

end SignUp

/-- A sequence of sign-ups keeps the emails apart, all the way, if and only if each of them
that stores a document does so under an email whose lower-cased form is new. -/
theorem oneAccountPerEmail_iff {start w : SignUp D C} (hstart : start.OneAccountPerEmail)
    {as : List (Attempt C)}
    (hrun : Machine.run (SignUp.attempt hashPassword toLowerCase) as start = some w) :
    Machine.Always (SignUp.attempt hashPassword toLowerCase) SignUp.OneAccountPerEmail as start ↔
      Machine.Each (SignUp.attempt hashPassword toLowerCase) (SignUp.LowerCaseNew toLowerCase)
        as start := by
  refine Machine.always_iff_each SignUp.OneAccountPerEmail (fun _ h => h) ?_ ?_ hstart hrun
  · intro w a w' h hstep h'
    rw [SignUp.oneAccountPerEmail_iff_nodup] at h h'
    exact (SignUp.nodup_attempt_iff h hstep).1 h'
  · intro w a w' h hnew hstep
    rw [SignUp.oneAccountPerEmail_iff_nodup] at h ⊢
    exact (SignUp.nodup_attempt_iff h hstep).2 hnew

/-- A sign-up with an email, in a collection that is empty at first. -/
def sampleAttempt (id email : String) : Attempt (List Course) where
  id := id
  form := { name := "Ada", email, password := "password", matricNo := "21/0123"
            agreedTerms := true, image := .absent }
  screen := sampleScreen "100" ""

def emptySignUp : SignUp Double (List Course) := ⟨⟨none, none⟩, Table.empty⟩

/-- Two emails, and the first one again in lower case, which is refused. -/
theorem oneAccountPerEmail_ada : Machine.Always (SignUp.attempt sampleHash String.toLower)
    SignUp.OneAccountPerEmail
    [sampleAttempt "u1" "Ada@x.com", sampleAttempt "u2" "bob@x.com", sampleAttempt "u3" "ada@x.com"]
    emptySignUp := by
  have hsome : (Machine.run (SignUp.attempt sampleHash String.toLower)
      [sampleAttempt "u1" "Ada@x.com", sampleAttempt "u2" "bob@x.com",
        sampleAttempt "u3" "ada@x.com"] emptySignUp).isSome := by
    decide +kernel
  obtain ⟨w, hrun⟩ := Option.isSome_iff_exists.1 hsome
  have hempty : emptySignUp.OneAccountPerEmail := ⟨List.nodup_nil, fun _ => Nat.zero_le _⟩
  refine (oneAccountPerEmail_iff hempty hrun).2 ?_
  decide +kernel

/-- A second sign-up in another spelling stores the same email again. -/
theorem oneAccountPerEmail_fails : ∃ w, Machine.run (SignUp.attempt sampleHash String.toLower)
    [sampleAttempt "u1" "ada@x.com", sampleAttempt "u2" "Ada@x.com"] emptySignUp = some w ∧
    w.users.rows.map (fun doc => (doc.id, doc.email)) =
      [("u1", "ada@x.com"), ("u2", "ada@x.com")] ∧
    ¬w.OneAccountPerEmail := by
  have hcheck : (Machine.run (SignUp.attempt sampleHash String.toLower)
      [sampleAttempt "u1" "ada@x.com", sampleAttempt "u2" "Ada@x.com"] emptySignUp).map
        (fun w => w.users.rows.map fun doc => (doc.id, doc.email)) =
      some [("u1", "ada@x.com"), ("u2", "ada@x.com")] := by
    decide +kernel
  obtain ⟨w, hrun, hrows⟩ := Option.map_eq_some_iff.1 hcheck
  refine ⟨w, hrun, hrows, fun hgood => ?_⟩
  have hemails : w.users.rows.map User.email = ["ada@x.com", "ada@x.com"] := by
    have := congrArg (List.map Prod.snd) hrows
    rwa [List.map_map] at this
  have hnodup := hgood.1
  rw [hemails] at hnodup
  exact absurd hnodup (by decide)

end StudyStats
