import Mathlib.Data.Fintype.Defs
import Mathlib.Logic.Function.Basic
import StudyStats.Json
import StudyStats.Library.Run

/-!
# Several accounts on one device

The button of the upload screen runs the three syncs one after the other. Each reads the id of
the user who is signed in when it begins, and at its end replaces a list that belongs to the
device. Its screen can be left while it runs, so users may log out and in between its steps.

Every record carries the user it belongs to: the one who saved it, or the one whose
collection it was fetched from. Nothing reads this owner.

## Main definitions

* `SyncHandler` — what the button still has to do.
* `SharedDevice.step` — one stretch of a handler, a save, a log-in or a log-out.
-/

namespace StudyStats

/-- The three Hive boxes, and the collections `UserQuicks`, `UserSimulations`, `UserUpdates`. -/
inductive Box where
  | quick
  | simulate
  | update
deriving DecidableEq

instance : Fintype Box := ⟨{.quick, .simulate, .update}, by rintro (_ | _ | _) <;> decide⟩

/-- The records of a box. -/
def Box.Record (D : Type) : Box → Type
  | quick => Quick (List Course)
  | simulate => Simulate D (List Course)
  | update => Update D (List Course)

variable {D : Type}

instance : (b : Box) → Syncable (b.Record D) D
  | .quick => {
      uploaded := Quick.uploaded
      timestamp := Quick.timestamp
      sent := fun r => { r with uploaded := true }
      toJson := Quick.toJson
      fromJson := Quick.fromJson
      uploaded_sent := fun _ => rfl
      timestamp_toJson := fun _ => rfl
      fromJson_toJson := fun _ _ => rfl }
  | .simulate => inferInstanceAs (Syncable (Simulate D (List Course)) D)
  | .update => inferInstanceAs (Syncable (Update D (List Course)) D)

/-- A record and the id of the user it belongs to. -/
structure Owned (R : Type) where
  owner : String
  value : R

/-- A sync that is suspended: the id it was called with, how far its loop has come, and the
answer of the get once it is there. -/
structure SyncPart (D : Type) where
  box : Box
  id : String
  uploads : List (box.Record D)
  index : ℕ
  docs : Option (List (Document D))

/-- What the button still has to do: the sync that is under way and the ones after it. -/
structure SyncHandler (D : Type) where
  part : Option (SyncPart D)
  rest : List Box

def SyncHandler.done : SyncHandler D := ⟨none, []⟩

/-- `authProvider.user`, the Hive boxes, everybody's collections and the handlers. -/
structure SharedDevice (D : Type) where
  signedIn : Option String
  lists : (b : Box) → List (Owned (b.Record D))
  remote : String → Box → List (Document D)
  handlers : List (SyncHandler D)

inductive SharedAction (D : Type) where
  | save (b : Box) (r : b.Record D)
  | logOut
  | logIn (id : String)
  /-- The button, with the three toggles. -/
  | press (quickHistory simulationHistory updateHistory : Bool)
  | next (h : ℕ)
  | add (h : ℕ)
  | get (h : ℕ) (docs : List (Document D))
  | replace (h : ℕ) (now : Timestamp)
  /-- An exception at the await where the handler is; it is caught and ends the handler. -/
  | fail (h : ℕ)

namespace SharedDevice

/-- The syncs that are switched on. -/
def parts (quickHistory simulationHistory updateHistory : Bool) : List Box :=
  (if quickHistory then [.quick] else []) ++ (if simulationHistory then [.simulate] else []) ++
    if updateHistory then [.update] else []

/-- Begin the next sync: `authProvider.user!.id` and the records not uploaded yet. -/
def begin (w : SharedDevice D) : List Box → SyncHandler D
  | [] => .done
  | b :: rest =>
    match w.signedIn with
    | none => .done
    | some id =>
      let uploads := (w.lists b).map Owned.value |>.filter fun r => !Syncable.uploaded r
      ⟨some ⟨b, id, uploads, 0, none⟩, rest⟩

/-- The sync a handler is in. -/
def part (w : SharedDevice D) (h : ℕ) : Option (SyncPart D) :=
  w.handlers[h]?.bind SyncHandler.part

def setHandler (w : SharedDevice D) (h : ℕ) (handler : SyncHandler D) : SharedDevice D :=
  { w with handlers := w.handlers.set h handler }

variable [DecidableEq D]

def step (w : SharedDevice D) : SharedAction D → Option (SharedDevice D)
  | .save b r => do
    let id ← w.signedIn
    if Syncable.uploaded r then none
    else some { w with lists := Function.update w.lists b (w.lists b ++ [⟨id, r⟩]) }
  | .logOut => do
    let _ ← w.signedIn
    return { w with signedIn := none, lists := fun _ => [] }
  | .logIn id => if w.signedIn.isNone then some { w with signedIn := some id } else none
  | .press quickHistory simulationHistory updateHistory => do
    let _ ← w.signedIn
    let handler := w.begin (parts quickHistory simulationHistory updateHistory)
    return { w with handlers := w.handlers ++ [handler] }
  | .next h => do
    let handler ← w.handlers[h]?
    if handler.part.isNone then some (w.setHandler h (w.begin handler.rest)) else none
  | .add h => do
    let handler ← w.handlers[h]?
    let part ← handler.part
    let r ← part.uploads[part.index]?
    let docs := w.remote part.id part.box ++ [Syncable.toJson r]
    let handler := { handler with part := some { part with index := part.index + 1 } }
    return { w.setHandler h handler with
      remote := Function.update w.remote part.id
        (Function.update (w.remote part.id) part.box docs) }
  | .get h docs => do
    let handler ← w.handlers[h]?
    let part ← handler.part
    if part.index = part.uploads.length ∧ part.docs.isNone ∧
        docs.Perm (w.remote part.id part.box) ∧ Ordered docs then
      some (w.setHandler h { handler with part := some { part with docs := some docs } })
    else none
  | .replace h now => do
    let handler ← w.handlers[h]?
    let part ← handler.part
    let records ← (← part.docs).mapM (Syncable.fromJson (R := part.box.Record D) now)
    return { w.setHandler h { handler with part := none } with
      lists := Function.update w.lists part.box (records.map (⟨part.id, ·⟩)) }
  | .fail h => do
    let handler ← w.handlers[h]?
    let _ ← handler.part
    return w.setHandler h .done

variable {w w' : SharedDevice D} {a : SharedAction D}

/-! ## What each action does -/

theorem step_save {b : Box} {r : b.Record D} (hstep : w.step (.save b r) = some w') :
    ∃ id, w.signedIn = some id ∧ w'.signedIn = w.signedIn ∧ w'.handlers = w.handlers ∧
      w'.lists = Function.update w.lists b (w.lists b ++ [⟨id, r⟩]) := by
  obtain ⟨id, hid, hstep⟩ := Option.bind_eq_some_iff.1 hstep
  split_ifs at hstep
  cases hstep
  exact ⟨id, hid, rfl, rfl, rfl⟩

theorem step_logOut (hstep : w.step .logOut = some w') :
    w' = { w with signedIn := none, lists := fun _ => [] } := by
  obtain ⟨id, -, hstep⟩ := Option.bind_eq_some_iff.1 hstep
  exact (Option.some.inj hstep).symm

theorem step_logIn {id : String} (hstep : w.step (.logIn id) = some w') :
    w.signedIn = none ∧ w' = { w with signedIn := some id } := by
  rw [step] at hstep
  split_ifs at hstep with hnone
  exact ⟨Option.isNone_iff_eq_none.1 hnone, (Option.some.inj hstep).symm⟩

theorem step_replace {h : ℕ} {now : Timestamp} (hstep : w.step (.replace h now) = some w') :
    ∃ handler part docs records, w.handlers[h]? = some handler ∧ handler.part = some part ∧
      part.docs = some docs ∧
      docs.mapM (Syncable.fromJson (R := part.box.Record D) now) = some records ∧
      w'.signedIn = w.signedIn ∧
      w'.handlers = w.handlers.set h { handler with part := none } ∧
      w'.lists = Function.update w.lists part.box (records.map (⟨part.id, ·⟩)) := by
  simp only [step, Option.bind_eq_bind, Option.bind_eq_some_iff, Option.pure_def,
    Option.some.injEq] at hstep
  obtain ⟨handler, hhandler, part, hpart, docs, hdocs, records, hrecords, rfl⟩ := hstep
  exact ⟨handler, part, docs, records, hhandler, hpart, hdocs, hrecords, rfl, rfl, rfl⟩

/-- A sync called with the id is under way. -/
def Syncing (w : SharedDevice D) (id : String) : Prop :=
  ∃ handler ∈ w.handlers, ∃ part ∈ handler.part, part.id = id

omit [DecidableEq D] in
theorem syncing_begin {rest : List Box} {part : SyncPart D} (h : part ∈ (w.begin rest).part) :
    w.signedIn = some part.id := by
  unfold begin at h
  split at h
  · cases h
  · split at h
    · cases h
    · next hid =>
      cases h
      exact hid

omit [DecidableEq D] in
theorem Syncing.of_set {id : String} {h : ℕ} {handler : SyncHandler D} (hs : w'.Syncing id)
    (hset : w'.handlers = w.handlers.set h handler) :
    w.Syncing id ∨ ∃ part ∈ handler.part, part.id = id := by
  obtain ⟨handler', hmem, part, hpart, hid⟩ := hs
  rw [hset] at hmem
  rcases List.mem_or_eq_of_mem_set hmem with hold | rfl
  · exact .inl ⟨handler', hold, part, hpart, hid⟩
  · exact .inr ⟨part, hpart, hid⟩

omit [DecidableEq D] in
/-- A sync that goes on is the one it was. -/
theorem Syncing.of_progress {id : String} {h : ℕ} {handler : SyncHandler D}
    {part part' : SyncPart D} (hs : w'.Syncing id) (hhandler : w.handlers[h]? = some handler)
    (hpart : handler.part = some part)
    (hset : w'.handlers = w.handlers.set h { handler with part := some part' })
    (hid : part'.id = part.id) : w.Syncing id := by
  rcases hs.of_set hset with hold | ⟨part'', hpart', rfl⟩
  · exact hold
  · cases hpart'
    exact ⟨handler, List.mem_of_getElem? hhandler, part, hpart, hid.symm⟩

/-- The press and the other steps of a handler only change handlers and collections, and the
syncs they begin are for the user who is signed in. -/
theorem step_handler (hstep : w.step a = some w') (hsave : ∀ b r, a ≠ .save b r)
    (hout : a ≠ .logOut) (hin : ∀ id, a ≠ .logIn id) (hreplace : ∀ h now, a ≠ .replace h now) :
    w'.signedIn = w.signedIn ∧ w'.lists = w.lists ∧
      ∀ id, w'.Syncing id → w.Syncing id ∨ w.signedIn = some id := by
  cases a with
  | save b r => exact absurd rfl (hsave b r)
  | logOut => exact absurd rfl hout
  | logIn id => exact absurd rfl (hin id)
  | replace h now => exact absurd rfl (hreplace h now)
  | press quickHistory simulationHistory updateHistory =>
    obtain ⟨_, -, hstep⟩ := Option.bind_eq_some_iff.1 hstep
    cases hstep
    refine ⟨rfl, rfl, ?_⟩
    rintro id ⟨handler, hmem, part, hpart, rfl⟩
    rcases List.mem_append.1 hmem with hold | hnew
    · exact .inl ⟨handler, hold, part, hpart, rfl⟩
    · rw [List.mem_singleton.1 hnew] at hpart
      exact .inr (syncing_begin hpart)
  | next h =>
    obtain ⟨handler, -, hstep⟩ := Option.bind_eq_some_iff.1 hstep
    split_ifs at hstep
    cases hstep
    refine ⟨rfl, rfl, fun id hs => ?_⟩
    rcases hs.of_set rfl with hold | ⟨part, hpart, rfl⟩
    · exact .inl hold
    · exact .inr (syncing_begin hpart)
  | add h =>
    simp only [step, Option.bind_eq_bind, Option.bind_eq_some_iff, Option.pure_def,
      Option.some.injEq] at hstep
    obtain ⟨handler, hhandler, part, hpart, r, -, rfl⟩ := hstep
    exact ⟨rfl, rfl, fun id hs => .inl (hs.of_progress hhandler hpart rfl rfl)⟩
  | get h docs =>
    obtain ⟨handler, hhandler, hstep⟩ := Option.bind_eq_some_iff.1 hstep
    obtain ⟨part, hpart, hstep⟩ := Option.bind_eq_some_iff.1 hstep
    split_ifs at hstep
    cases hstep
    exact ⟨rfl, rfl, fun id hs => .inl (hs.of_progress hhandler hpart rfl rfl)⟩
  | fail h =>
    obtain ⟨handler, -, hstep⟩ := Option.bind_eq_some_iff.1 hstep
    obtain ⟨part, -, hstep⟩ := Option.bind_eq_some_iff.1 hstep
    cases hstep
    refine ⟨rfl, rfl, fun id hs => .inl ?_⟩
    rcases hs.of_set rfl with hold | ⟨part', hpart', -⟩
    · exact hold
    · cases hpart'

end SharedDevice

end StudyStats
