import Mathlib.Logic.Function.Basic
import StudyStats.Json
import StudyStats.Library.Run

/-!
# Syncing a history

`syncQuick`, `syncSimulate` and `syncUpdate` are one program over three kinds of record. It
reads the local list, adds the records not uploaded yet one after the other to the remote
collection, gets the collection ordered by timestamp and replaces the local list by it. It is
suspended at every add and at the get, so each of its stretches is a step of its own, and
any number of devices take their steps in any order.

A record carries a tag, the device that saved it and a serial number there. Nothing reads
tags; they tell two records with the same fields apart.
-/

namespace StudyStats

/-- `X` with the tag of the save it comes from. -/
structure Tagged (ι X : Type) where
  owner : ι
  serial : ℕ
  value : X
deriving DecidableEq

namespace Tagged

variable {ι X Y : Type}

def tag (s : Tagged ι X) : ι × ℕ := (s.owner, s.serial)

def map (f : X → Y) (s : Tagged ι X) : Tagged ι Y := ⟨s.owner, s.serial, f s.value⟩

@[simp] theorem tag_map (f : X → Y) (s : Tagged ι X) : (s.map f).tag = s.tag := rfl

end Tagged

variable {ι R D : Type}

/-- A suspended sync: `uploadQuicks`, how far its loop has come, and the answer of the get
once it is there. `saved` only records how many records had been saved when it began. -/
structure Running (ι R D : Type) where
  uploads : List (Tagged ι R)
  index : ℕ
  docs : Option (List (Tagged ι (Document D)))
  saved : ℕ

structure Local (ι R D : Type) where
  list : List (Tagged ι R)
  running : Option (Running ι R D)

/-- Devices and the remote collection. The last three fields only record what happened:
the records saved on each device, how many of them had been saved when its last sync was
completed, and whether one of its syncs was cut short after it had stored something. -/
structure Cloud (ι R D : Type) where
  devices : ι → Local ι R D
  remote : List (Tagged ι (Document D))
  log : ι → List R
  synced : ι → ℕ
  torn : ι → Bool

inductive SyncAction (ι R D : Type) where
  | save (i : ι) (r : R)
  | begin (i : ι)
  | add (i : ι)
  | get (i : ι) (docs : List (Tagged ι (Document D)))
  | replace (i : ι) (now : Timestamp)
  /-- An exception at the await where the sync is. -/
  | fail (i : ι)

namespace Cloud

variable [Syncable R D]

/-- The records `where((element) => element.uploaded == false)`. -/
def unsent (l : List (Tagged ι R)) : List (Tagged ι R) :=
  l.filter fun s => Syncable.uploaded s.value == false

/-- The record `fromJson` makes of a document. -/
def decode (now : Timestamp) (s : Tagged ι (Document D)) : Option (Tagged ι R) :=
  (Syncable.fromJson now s.value).map fun r => s.map fun _ => r

variable [DecidableEq ι] [DecidableEq D]

def setDevice (w : Cloud ι R D) (i : ι) (dev : Local ι R D) : Cloud ι R D :=
  { w with devices := Function.update w.devices i dev }

omit [Syncable R D] [DecidableEq D] in
theorem list_setDevice {w : Cloud ι R D} {i : ι} {dev : Local ι R D}
    (h : dev.list = (w.devices i).list) (j : ι) :
    ((w.setDevice i dev).devices j).list = (w.devices j).list := by
  by_cases hj : j = i
  · subst hj; simp [setDevice, h]
  · simp [setDevice, hj]

/-- No device has saved or synced anything. -/
def start : Cloud ι R D where
  devices _ := { list := [], running := none }
  remote := []
  log _ := []
  synced _ := 0
  torn _ := false

def step (w : Cloud ι R D) : SyncAction ι R D → Option (Cloud ι R D)
  | .save i r =>
    let dev := w.devices i
    if Syncable.uploaded r then none
    else some { w.setDevice i { dev with list := dev.list ++ [⟨i, (w.log i).length, r⟩] } with
      log := Function.update w.log i (w.log i ++ [r]) }
  | .begin i =>
    let dev := w.devices i
    match dev.running with
    | some _ => none
    | none => some (w.setDevice i { dev with
        running := some ⟨unsent dev.list, 0, none, (w.log i).length⟩ })
  | .add i => do
    let dev := w.devices i
    let sync ← dev.running
    let s ← sync.uploads[sync.index]?
    return { w.setDevice i { dev with running := some { sync with index := sync.index + 1 } } with
      remote := w.remote ++ [s.map Syncable.toJson] }
  | .get i docs => do
    let dev := w.devices i
    let sync ← dev.running
    if sync.index = sync.uploads.length ∧ sync.docs.isNone ∧ docs.Perm w.remote ∧
        Ordered (docs.map Tagged.value) then
      some (w.setDevice i { dev with running := some { sync with docs := some docs } })
    else none
  | .replace i now => do
    let dev := w.devices i
    let sync ← dev.running
    let list ← (← sync.docs).mapM (decode now)
    return { w.setDevice i { list, running := none } with
      synced := Function.update w.synced i (w.log i).length }
  | .fail i => do
    let dev := w.devices i
    let sync ← dev.running
    return { w.setDevice i { dev with running := none } with
      torn := Function.update w.torn i (w.torn i || decide (0 < sync.index)) }

end Cloud

end StudyStats
