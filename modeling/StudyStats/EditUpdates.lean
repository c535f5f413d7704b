import StudyStats.UpdateScreen

/-!
# The loop of `editUpdates`

`editUpdates` runs backwards over a reversed copy of the list. Read oldest first it does
something simpler: it keeps the records before the edited one, puts the new record in its
place and recomputes every later record over the one before it.

## Main results

* `editUpdates_eq` — the loop replaces one record and rechains the later ones.
-/

namespace StudyStats.StatFunction

open Dart

variable {D C : Type} [Floating D]

/-- The records after `past`, each recomputed over the one before it. The record made in
the loop's pass `i` is the one with `i` records after it. -/
def rechain (clock : ℕ → Timestamp) : Update D C → List (Update D C) → Option (List (Update D C))
  | _, [] => some []
  | past, r :: rs => do
    let r' ← replaceUpdate r past (clock rs.length)
    let rs' ← rechain clock r' rs
    return r' :: rs'

theorem rechain_cons {clock : ℕ → Timestamp} {past r : Update D C} {rs l : List (Update D C)}
    (h : rechain clock past (r :: rs) = some l) :
    ∃ r' rs', replaceUpdate r past (clock rs.length) = some r' ∧
      rechain clock r' rs = some rs' ∧ l = r' :: rs' := by
  simp only [rechain, Option.bind_eq_bind, Option.pure_def, Option.bind_eq_some_iff,
    Option.some.injEq] at h
  obtain ⟨r', hr, rs', hrs, rfl⟩ := h
  exact ⟨r', rs', hr, hrs, rfl⟩

/-- The outcome of storing is final when the loop has no pass left. -/
theorem andThen_loop_zero (o : Outcome (Device D C)) (update : Update D C) (index : ℤ)
    (clock : ℕ → Timestamp) (accepted : Bool) (l : List (Update D C)) :
    o.andThen (editUpdatesLoop update index clock accepted 0 l) = o := by
  cases o <;> rfl

/-- Passes above the index change nothing. -/
theorem editUpdatesLoop_above {update : Update D C} {index n : ℕ} {clock : ℕ → Timestamp}
    {accepted : Bool} {l : List (Update D C)} {d : Device D C} :
    editUpdatesLoop update index clock accepted (index + 1 + n) l d =
      editUpdatesLoop update index clock accepted (index + 1) l d := by
  induction n with
  | zero => rfl
  | succ n ih =>
    rw [show index + 1 + (n + 1) = index + 1 + n + 1 by omega, editUpdatesLoop,
      if_pos (by push_cast; omega), ih]

/-- How the loop ends once `update` is in its place, with the later records rechained. Where
one of them cannot be recomputed nothing has been stored yet. -/
def storeRechained (clock : ℕ → Timestamp) (older : List (Update D C)) (past : Update D C)
    (newer : List (Update D C)) (accepted : Bool) (d : Device D C) : Outcome (Device D C) :=
  match rechain clock past newer with
  | some newer' => storeUpdates (older ++ past :: newer').reverse
      ((past :: newer').getLast (List.cons_ne_nil _ _)) accepted d
  | none => .threw d

theorem storeRechained_cons {clock : ℕ → Timestamp} {past r r' : Update D C}
    {rs : List (Update D C)} (hr : replaceUpdate r past (clock rs.length) = some r')
    (older : List (Update D C)) (accepted : Bool) (d : Device D C) :
    storeRechained clock older past (r :: rs) accepted d =
      storeRechained clock (older ++ [past]) r' rs accepted d := by
  unfold storeRechained
  cases hrs : rechain clock r' rs <;> simp [rechain, hr, hrs]

/-- Passes below the index. `past` is the record the previous pass has just written. -/
theorem editUpdatesLoop_below {index : ℕ} {newer : List (Update D C)} (clock : ℕ → Timestamp)
    (update past : Update D C) (older : List (Update D C)) (accepted : Bool) (d : Device D C)
    (hindex : newer.length ≤ index) (hne : newer ≠ []) :
    editUpdatesLoop update index clock accepted newer.length
        (newer.reverse ++ past :: older.reverse) d =
      storeRechained clock older past newer accepted d := by
  induction newer generalizing past older with
  | nil => exact absurd rfl hne
  | cons r rs ih =>
    simp only [List.length_cons] at hindex
    have hthis : ((r :: rs).reverse ++ past :: older.reverse)[rs.length]? = some r := by simp
    have hpast : ((r :: rs).reverse ++ past :: older.reverse)[rs.length + 1]? = some past := by
      rw [List.getElem?_append_right (by simp)]; simp
    rw [List.length_cons, editUpdatesLoop, if_neg (by omega), if_neg (by omega), hthis, hpast]
    cases hr : replaceUpdate r past (clock rs.length) with
    | none => simp [storeRechained, rechain, hr]
    | some r' =>
      have hset : ((r :: rs).reverse ++ past :: older.reverse).set rs.length r' =
          rs.reverse ++ r' :: (older ++ [past]).reverse := by
        simp
      simp only [hr, hset]
      rw [storeRechained_cons hr]
      cases rs with
      | nil => simp [storeRechained, rechain, andThen_loop_zero]
      | cons x xs =>
        -- the next pass starts from the record just written
        have hnext := ih r' (older ++ [past]) (by omega) (List.cons_ne_nil _ _)
        rw [← hnext]
        simp [Outcome.andThen]

theorem editUpdates_eq {older newer : List (Update D C)} {r : Update D C} {d : Device D C}
    (update : Update D C) (clock : ℕ → Timestamp) (accepted : Bool)
    (hd : HiveUpdate.getUpdateList d = older ++ r :: newer) :
    editUpdates update newer.length clock accepted d =
      storeRechained clock older update newer accepted d := by
  have hset : (older ++ r :: newer).reverse.set newer.length update =
      newer.reverse ++ update :: older.reverse := by
    simp
  have hlen : (older ++ r :: newer).reverse.length = newer.length + 1 + older.length := by
    simp; omega
  rw [editUpdates, hd, hlen, editUpdatesLoop_above, editUpdatesLoop, if_neg (by simp),
    if_pos rfl, hset]
  cases newer with
  | nil => simp [storeRechained, rechain, andThen_loop_zero]
  | cons x xs =>
    have := editUpdatesLoop_below clock update update older accepted d le_rfl
      (List.cons_ne_nil x xs)
    simpa [Outcome.andThen] using this

/-- Storing leaves the reversed list in the box and its newest CGPA with the user, also when
the remote write is rejected. -/
theorem state_storeUpdates {l : List (Update D C)} {newest : Update D C} {accepted : Bool}
    {d : Device D C} {user : User D} (huser : d.auth.user = some user) :
    (storeUpdates l newest accepted d).state =
      { auth := { d.auth with user := some { user with currentCgpa := some newest.cgpa } }
        updateBox := some l.reverse } := by
  cases accepted <;>
    simp [storeUpdates, AuthProvider.updateUserCGPA, HiveUpdate.replaceUpdateList, huser,
      Floating.parse_toString, Outcome.state]

theorem getUpdateList_storeUpdates (l : List (Update D C)) (newest : Update D C)
    (accepted : Bool) (d : Device D C) :
    HiveUpdate.getUpdateList (storeUpdates l newest accepted d).state = l.reverse := by
  unfold storeUpdates AuthProvider.updateUserCGPA
  rw [Floating.parse_toString]
  cases huser : d.auth.user <;> cases accepted <;>
    simp [HiveUpdate.replaceUpdateList, HiveUpdate.getUpdateList, Outcome.state, huser]

/-! ## What every pass keeps -/

/-- What the passes keep of the working list, and storing keeps of the device, the loop keeps
of the device. -/
theorem editUpdatesLoop_rule {L : List (Update D C) → Prop} {G : Device D C → Prop}
    {update : Update D C} {index : ℕ} {clock : ℕ → Timestamp} {accepted : Bool}
    (hupdate : ∀ l, L l → L (l.set index update))
    (hreplace : ∀ l i this past r', L l → l[i]? = some this →
      replaceUpdate this past (clock i) = some r' → L (l.set i r'))
    (hstore : ∀ l newest d, L l → G d → G (storeUpdates l newest accepted d).state)
    (n : ℕ) {l : List (Update D C)} {d : Device D C} (hl : L l) (hd : G d) :
    G (editUpdatesLoop update index clock accepted n l d).state := by
  induction n generalizing l d with
  | zero => exact hd
  | succ i ih =>
    have pass : ∀ {l' : List (Update D C)} {newest : Update D C}, L l' →
        G ((if i = 0 then storeUpdates l' newest accepted d else .finished d).andThen
          (editUpdatesLoop update index clock accepted i l')).state := by
      intro l' newest hl'
      have hstored :
          G (if i = 0 then storeUpdates l' newest accepted d else .finished d).state := by
        split_ifs
        · exact hstore l' newest d hl' hd
        · exact hd
      cases ho : (if i = 0 then storeUpdates l' newest accepted d else .finished d) with
      | finished d' => exact ih hl' (by rwa [ho] at hstored)
      | threw d' => rwa [ho] at hstored
    rw [editUpdatesLoop]
    by_cases habove : (i : ℤ) > index
    · rw [if_pos habove]
      exact ih hl hd
    rw [if_neg habove]
    by_cases hat : (i : ℤ) = index
    · rw [if_pos hat]
      obtain rfl : i = index := by exact_mod_cast hat
      exact pass (hupdate l hl)
    · rw [if_neg hat]
      split
      · next this past hthis hpast =>
        split
        · next r' hr' => exact pass (hreplace l i this past r' hl hthis hr')
        · exact hd
      · exact hd

theorem courseData_storeUpdates (l : List (Update D C)) (newest : Update D C) (accepted : Bool)
    (d : Device D C) :
    (storeUpdates l newest accepted d).state.auth.courseData = d.auth.courseData := by
  have hkept := AuthProvider.courseData_updateUserCGPA accepted (Floating.toString newest.cgpa)
    d.auth
  simp only [storeUpdates, HiveUpdate.replaceUpdateList]
  split <;> next hauth => rw [hauth] at hkept; exact hkept

theorem courseData_editUpdates (update : Update D C) (index : ℕ) (clock : ℕ → Timestamp)
    (accepted : Bool) (d : Device D C) :
    (editUpdates update index clock accepted d).state.auth.courseData = d.auth.courseData :=
  editUpdatesLoop_rule (L := fun _ => True) (G := fun d' => d'.auth.courseData = d.auth.courseData)
    (fun _ _ => trivial) (fun _ _ _ _ _ _ _ _ => trivial)
    (fun l newest d' _ hd => (courseData_storeUpdates l newest accepted d').trans hd) _ trivial rfl

/-- What holds of the stored records and of the edited one, and is kept when a record is made
again, holds of the list after an edit. -/
theorem forall_mem_editUpdates {P : Update D C → Prop} {update : Update D C} (index : ℕ)
    (clock : ℕ → Timestamp) (accepted : Bool) {d : Device D C}
    (hreplace : ∀ r past now r', P r → replaceUpdate r past now = some r' → P r')
    (hupdate : P update) (hd : ∀ r ∈ HiveUpdate.getUpdateList d, P r) :
    ∀ r ∈ HiveUpdate.getUpdateList (editUpdates update index clock accepted d).state, P r := by
  refine editUpdatesLoop_rule (L := fun l => ∀ r ∈ l, P r)
    (G := fun d => ∀ r ∈ HiveUpdate.getUpdateList d, P r) ?_ ?_ ?_ _ (by simpa using hd) hd
  · intro l hl r hr
    rcases List.mem_or_eq_of_mem_set hr with hr | rfl
    · exact hl r hr
    · exact hupdate
  · intro l i this past r' hl hthis hr' r hr
    rcases List.mem_or_eq_of_mem_set hr with hr | rfl
    · exact hl r hr
    · exact hreplace this past _ _ (hl this (List.mem_of_getElem? hthis)) hr'
  · intro l newest d hl _ r hr
    rw [getUpdateList_storeUpdates] at hr
    exact hl r (List.mem_reverse.1 hr)

end StudyStats.StatFunction
