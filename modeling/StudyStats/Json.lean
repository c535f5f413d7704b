import StudyStats.Models

/-!
# Documents

What a record looks like in the remote store. `toJson` writes every field, with `uploaded`
set; `fromJson` reads a document back. A field of the wrong type throws, and some missing
fields have a default.

## Main definitions

* `Syncable` — the records that are synced, with the round trip as a law.
-/

namespace StudyStats

inductive Field (D : Type) where
  | number (x : D)
  | text (s : String)
  | bool (b : Bool)
  | scores (l : List ℤ)
  | courses (l : List Course)
  | time (t : Timestamp)
deriving DecidableEq

/-- `Map<String, dynamic>` -/
abbrev Document (D : Type) := List (String × Field D)

namespace Document

variable {D : Type} (json : Document D) (key : String)

/-- `json[key].toDouble()` -/
def number : Option D :=
  match json.lookup key with
  | some (.number x) => some x
  | _ => none

def text : Option String :=
  match json.lookup key with
  | some (.text s) => some s
  | _ => none

/-- `json[key] != null ? List<dynamic>.from(json[key]) : []` on the scores. -/
def scores : Option (List ℤ) :=
  match json.lookup key with
  | some (.scores l) => some l
  | none => some []
  | _ => none

/-- The same on the courses. -/
def courses : Option (List Course) :=
  match json.lookup key with
  | some (.courses l) => some l
  | none => some []
  | _ => none

/-- `json[key] ?? false` -/
def flag : Option Bool :=
  match json.lookup key with
  | some (.bool b) => some b
  | none => some false
  | _ => none

/-- A constructor's `timestamp ?? DateTime.now()`. -/
def timeOr (now : Timestamp) : Option Timestamp :=
  match json.lookup key with
  | some (.time t) => some t
  | none => some now
  | _ => none

/-- The key documents are ordered by. -/
def timestamp : Option Timestamp :=
  match json.lookup "timestamp" with
  | some (.time t) => some t
  | _ => none

end Document

/-- `orderBy('timestamp', descending: false)`. Equal timestamps may come in any order. -/
def Ordered {D : Type} (docs : List (Document D)) : Prop :=
  (docs.map fun json => json.timestamp.getD 0).Pairwise (· ≤ ·)

instance {D : Type} (docs : List (Document D)) : Decidable (Ordered docs) := by
  unfold Ordered; infer_instance

/-- Records with an upload flag and a document form. Reading a document back gives the
record as it was written, with the flag set. -/
class Syncable (R : Type) (D : outParam Type) where
  uploaded : R → Bool
  timestamp : R → Timestamp
  /-- the record with its flag set -/
  sent : R → R
  toJson : R → Document D
  fromJson : Timestamp → Document D → Option R
  uploaded_sent (r : R) : uploaded (sent r) = true
  timestamp_toJson (r : R) : (toJson r).timestamp = some (timestamp r)
  fromJson_toJson (now : Timestamp) (r : R) : fromJson now (toJson r) = some (sent r)

variable {D : Type}

namespace Quick

def toJson (r : Quick (List Course)) : Document D :=
  [("result", .text r.result), ("gradingSystem", .text r.gradingSystem),
    ("scores", .scores r.scores), ("courseData", .courses r.courseData),
    ("level", .text r.level), ("semester", .text r.semester), ("uploaded", .bool true),
    ("timestamp", .time r.timestamp)]

def fromJson (now : Timestamp) (json : Document D) : Option (Quick (List Course)) := do
  return {
    result := ← json.text "result"
    gradingSystem := ← json.text "gradingSystem"
    scores := ← json.scores "scores"
    courseData := ← json.courses "courseData"
    level := ← json.text "level"
    semester := ← json.text "semester"
    uploaded := ← json.flag "uploaded"
    timestamp := ← json.timeOr "timestamp" now }

end Quick

namespace Simulate

def toJson (r : Simulate D (List Course)) : Document D :=
  [("gpa", .number r.gpa), ("cgpa", .number r.cgpa), ("gradingSystem", .text r.gradingSystem),
    ("scores", .scores r.scores), ("courseData", .courses r.courseData),
    ("level", .text r.level), ("semester", .text r.semester), ("uploaded", .bool true),
    ("past_gpa", .number r.pastGpa), ("timestamp", .time r.timestamp)]

def fromJson (now : Timestamp) (json : Document D) : Option (Simulate D (List Course)) := do
  return {
    gpa := ← json.number "gpa"
    cgpa := ← json.number "cgpa"
    gradingSystem := ← json.text "gradingSystem"
    scores := ← json.scores "scores"
    courseData := ← json.courses "courseData"
    level := ← json.text "level"
    semester := ← json.text "semester"
    pastGpa := ← json.number "past_gpa"
    uploaded := ← json.flag "uploaded"
    timestamp := ← json.timeOr "timestamp" now }

end Simulate

namespace Update

def toJson (r : Update D (List Course)) : Document D :=
  [("gpa", .number r.gpa), ("cgpa", .number r.cgpa), ("gradingSystem", .text r.gradingSystem),
    ("scores", .scores r.scores), ("courseData", .courses r.courseData),
    ("level", .text r.level), ("semester", .text r.semester), ("uploaded", .bool true),
    ("timestamp", .time r.timestamp), ("past_semester", .text r.pastSemester)]

def fromJson (now : Timestamp) (json : Document D) : Option (Update D (List Course)) := do
  return {
    gpa := ← json.number "gpa"
    cgpa := ← json.number "cgpa"
    gradingSystem := ← json.text "gradingSystem"
    scores := ← json.scores "scores"
    courseData := ← json.courses "courseData"
    level := ← json.text "level"
    semester := ← json.text "semester"
    uploaded := ← json.flag "uploaded"
    timestamp := ← json.timeOr "timestamp" now
    pastSemester := ← json.text "past_semester" }

end Update

/-- `D` only says what numbers a document can hold; a quick record has none. -/
instance : Syncable (Quick (List Course)) Unit where
  uploaded := Quick.uploaded
  timestamp := Quick.timestamp
  sent r := { r with uploaded := true }
  toJson := Quick.toJson
  fromJson := Quick.fromJson
  uploaded_sent _ := rfl
  timestamp_toJson _ := rfl
  fromJson_toJson _ _ := rfl

instance : Syncable (Simulate D (List Course)) D where
  uploaded := Simulate.uploaded
  timestamp := Simulate.timestamp
  sent r := { r with uploaded := true }
  toJson := Simulate.toJson
  fromJson := Simulate.fromJson
  uploaded_sent _ := rfl
  timestamp_toJson _ := rfl
  fromJson_toJson _ _ := rfl

instance : Syncable (Update D (List Course)) D where
  uploaded := Update.uploaded
  timestamp := Update.timestamp
  sent r := { r with uploaded := true }
  toJson := Update.toJson
  fromJson := Update.fromJson
  uploaded_sent _ := rfl
  timestamp_toJson _ := rfl
  fromJson_toJson _ _ := rfl

end StudyStats
