import StudyStats.Library.TaggedRecord
import StudyStats.Models

/-!
# The adapters of the boxes

The boxes keep objects of four types. Each has an adapter that writes its fields under numbers of
their own, not always in the order in which the constructor names them, and a type id by which
the adapter is found again. How hive writes bytes and single values is a parameter.

## Main definitions

* `HiveBinary` — what is assumed of hive's writer and reader.

## Main results

* `boxes_round_trip` — objects are read back as they were, and what follows them is left.
* `adapters_evolve` — also with their fields in another order, fewer or more of them.
-/

namespace StudyStats

open TaggedRecord

/-- What a box keeps of a value. A field of a record is never another record. -/
inductive HiveValue (D : Type) where
  | null
  | bool (b : Bool)
  | int (n : ℤ)
  | double (x : D)
  | string (s : String)
  | time (t : Timestamp)
  | scores (l : List ℤ)
  | courses (l : List Course)
deriving DecidableEq

variable {D : Type}

namespace HiveValue

/-! ## Casts -/

/-- `as String` -/
def asString : HiveValue D → Option String
  | string s => some s
  | _ => none

/-- `as String?` -/
def asStringOrNull : HiveValue D → Option (Option String)
  | string s => some (some s)
  | null => some none
  | _ => none

def asIntOrNull : HiveValue D → Option (Option ℤ)
  | int n => some (some n)
  | null => some none
  | _ => none

def asDouble : HiveValue D → Option D
  | double x => some x
  | _ => none

def asDoubleOrNull : HiveValue D → Option (Option D)
  | double x => some (some x)
  | null => some none
  | _ => none

def asBool : HiveValue D → Option Bool
  | bool b => some b
  | _ => none

def asScores : HiveValue D → Option (List ℤ)
  | scores l => some l
  | _ => none

def asCourses : HiveValue D → Option (List Course)
  | courses l => some l
  | _ => none

/-- `as String?` on the time of a record, whose constructor takes the present one instead of
null. -/
def asTime (now : Timestamp) : HiveValue D → Option Timestamp
  | time t => some t
  | null => some now
  | _ => none

/-- A field that may be null. -/
def orNull {α : Type} (wrap : α → HiveValue D) : Option α → HiveValue D
  | some x => wrap x
  | none => null

@[simp] theorem asStringOrNull_orNull (o : Option String) :
    asStringOrNull (orNull (string : String → HiveValue D) o) = some o := by
  cases o <;> rfl

@[simp] theorem asIntOrNull_orNull (o : Option ℤ) :
    asIntOrNull (orNull (int : ℤ → HiveValue D) o) = some o := by
  cases o <;> rfl

@[simp] theorem asDoubleOrNull_orNull (o : Option D) :
    asDoubleOrNull (orNull double o) = some o := by
  cases o <;> rfl

end HiveValue

open HiveValue

/-! ## The adapters -/

namespace UserAdapter

def fields (obj : User D) : Fields (HiveValue D) :=
  [(0, string obj.id), (1, string obj.name), (2, string obj.email), (3, string obj.password),
    (4, string obj.matricNo), (5, string obj.image), (6, orNull string obj.university),
    (7, orNull string obj.faculty), (8, orNull string obj.course), (9, orNull int obj.level),
    (10, orNull string obj.semester), (11, orNull double obj.currentCgpa),
    (12, bool obj.premium)]

def build (fields : ℕ → HiveValue D) : Option (User D) := do
  return {
    id := ← asString (fields 0)
    name := ← asString (fields 1)
    email := ← asString (fields 2)
    password := ← asString (fields 3)
    matricNo := ← asString (fields 4)
    image := ← asString (fields 5)
    university := ← asStringOrNull (fields 6)
    faculty := ← asStringOrNull (fields 7)
    course := ← asStringOrNull (fields 8)
    level := ← asIntOrNull (fields 9)
    semester := ← asStringOrNull (fields 10)
    currentCgpa := ← asDoubleOrNull (fields 11)
    premium := ← asBool (fields 12) }

theorem build_fields (obj : User D) : build (TaggedRecord.get null (fields obj)) = some obj := by
  simp [build, fields, TaggedRecord.get, get?, List.lookup_cons, asString, asBool]

theorem build_congr (obj : User D) (f g : ℕ → HiveValue D)
    (h : ∀ tag ∈ (fields obj).map Prod.fst, f tag = g tag) : build f = build g := by
  simp only [fields, List.map_cons, List.map_nil, List.forall_mem_cons] at h
  simp only [build, h]

theorem tags (obj : User D) : (fields obj).map Prod.fst = List.range 13 := rfl

def format : RecordFormat (HiveValue D) (User D) where
  null := null
  fields := fields
  build := build
  nodup obj := tags obj ▸ List.nodup_range
  build_fields := build_fields
  build_congr := build_congr

end UserAdapter

namespace SimulateAdapter

def fields (obj : Simulate D (List Course)) : Fields (HiveValue D) :=
  [(0, double obj.gpa), (1, double obj.cgpa), (2, string obj.gradingSystem),
    (3, scores obj.scores), (4, courses obj.courseData), (5, string obj.level),
    (6, string obj.semester), (7, bool obj.uploaded), (8, double obj.pastGpa),
    (9, time obj.timestamp)]

def build (now : Timestamp) (fields : ℕ → HiveValue D) :
    Option (Simulate D (List Course)) := do
  return {
    gpa := ← asDouble (fields 0)
    cgpa := ← asDouble (fields 1)
    gradingSystem := ← asString (fields 2)
    scores := ← asScores (fields 3)
    courseData := ← asCourses (fields 4)
    level := ← asString (fields 5)
    semester := ← asString (fields 6)
    pastGpa := ← asDouble (fields 8)
    uploaded := ← asBool (fields 7)
    timestamp := ← asTime now (fields 9) }

theorem build_fields (now : Timestamp) (obj : Simulate D (List Course)) :
    build now (TaggedRecord.get null (fields obj)) = some obj := by
  simp [build, fields, TaggedRecord.get, get?, List.lookup_cons, asString, asBool, asDouble,
    asScores, asCourses, asTime]

theorem build_congr (now : Timestamp) (obj : Simulate D (List Course)) (f g : ℕ → HiveValue D)
    (h : ∀ tag ∈ (fields obj).map Prod.fst, f tag = g tag) : build now f = build now g := by
  simp only [fields, List.map_cons, List.map_nil, List.forall_mem_cons] at h
  simp only [build, h]

theorem tags (obj : Simulate D (List Course)) : (fields obj).map Prod.fst = List.range 10 := rfl

def format (now : Timestamp) : RecordFormat (HiveValue D) (Simulate D (List Course)) where
  null := null
  fields := fields
  build := build now
  nodup obj := tags obj ▸ List.nodup_range
  build_fields := build_fields now
  build_congr := build_congr now

end SimulateAdapter

namespace QuickAdapter

def fields (obj : Quick (List Course)) : Fields (HiveValue D) :=
  [(0, string obj.result), (1, string obj.gradingSystem), (2, scores obj.scores),
    (3, courses obj.courseData), (4, string obj.level), (5, string obj.semester),
    (6, bool obj.uploaded), (7, time obj.timestamp)]

def build (now : Timestamp) (fields : ℕ → HiveValue D) : Option (Quick (List Course)) := do
  return {
    result := ← asString (fields 0)
    gradingSystem := ← asString (fields 1)
    scores := ← asScores (fields 2)
    courseData := ← asCourses (fields 3)
    level := ← asString (fields 4)
    semester := ← asString (fields 5)
    uploaded := ← asBool (fields 6)
    timestamp := ← asTime now (fields 7) }

theorem build_fields (now : Timestamp) (obj : Quick (List Course)) :
    build now (TaggedRecord.get null (fields (D := D) obj)) = some obj := by
  simp [build, fields, TaggedRecord.get, get?, List.lookup_cons, asString, asBool,
    asScores, asCourses, asTime]

theorem build_congr (now : Timestamp) (obj : Quick (List Course)) (f g : ℕ → HiveValue D)
    (h : ∀ tag ∈ (fields (D := D) obj).map Prod.fst, f tag = g tag) :
    build now f = build now g := by
  simp only [fields, List.map_cons, List.map_nil, List.forall_mem_cons] at h
  simp only [build, h]

theorem tags (obj : Quick (List Course)) : (fields (D := D) obj).map Prod.fst = List.range 8 := rfl

def format (now : Timestamp) : RecordFormat (HiveValue D) (Quick (List Course)) where
  null := null
  fields := fields
  build := build now
  nodup obj := tags obj ▸ List.nodup_range
  build_fields := build_fields now
  build_congr := build_congr now

end QuickAdapter

namespace UpdateAdapter

def fields (obj : Update D (List Course)) : Fields (HiveValue D) :=
  [(0, double obj.gpa), (1, double obj.cgpa), (2, string obj.gradingSystem),
    (3, scores obj.scores), (4, courses obj.courseData), (5, string obj.level),
    (6, string obj.semester), (7, bool obj.uploaded), (8, time obj.timestamp),
    (9, string obj.pastSemester)]

def build (now : Timestamp) (fields : ℕ → HiveValue D) :
    Option (Update D (List Course)) := do
  return {
    gpa := ← asDouble (fields 0)
    cgpa := ← asDouble (fields 1)
    gradingSystem := ← asString (fields 2)
    scores := ← asScores (fields 3)
    courseData := ← asCourses (fields 4)
    level := ← asString (fields 5)
    semester := ← asString (fields 6)
    pastSemester := ← asString (fields 9)
    uploaded := ← asBool (fields 7)
    timestamp := ← asTime now (fields 8) }

theorem build_fields (now : Timestamp) (obj : Update D (List Course)) :
    build now (TaggedRecord.get null (fields obj)) = some obj := by
  simp [build, fields, TaggedRecord.get, get?, List.lookup_cons, asString, asBool, asDouble,
    asScores, asCourses, asTime]

theorem build_congr (now : Timestamp) (obj : Update D (List Course)) (f g : ℕ → HiveValue D)
    (h : ∀ tag ∈ (fields obj).map Prod.fst, f tag = g tag) : build now f = build now g := by
  simp only [fields, List.map_cons, List.map_nil, List.forall_mem_cons] at h
  simp only [build, h]

theorem tags (obj : Update D (List Course)) : (fields obj).map Prod.fst = List.range 10 := rfl

def format (now : Timestamp) : RecordFormat (HiveValue D) (Update D (List Course)) where
  null := null
  fields := fields
  build := build now
  nodup obj := tags obj ▸ List.nodup_range
  build_fields := build_fields now
  build_congr := build_congr now

end UpdateAdapter

/-! ## Objects of any type -/

/-- An object with an adapter. -/
inductive HiveObject (D : Type) where
  | user (obj : User D)
  | simulate (obj : Simulate D (List Course))
  | quick (obj : Quick (List Course))
  | update (obj : Update D (List Course))
deriving DecidableEq

namespace HiveObject

/-- The `typeId` of its adapter. -/
def typeId : HiveObject D → ℕ
  | user _ => 0
  | simulate _ => 1
  | quick _ => 2
  | update _ => 3

theorem typeId_lt (x : HiveObject D) : x.typeId < 224 := by
  cases x <;> simp [typeId]

def fields : HiveObject D → Fields (HiveValue D)
  | user obj => UserAdapter.fields obj
  | simulate obj => SimulateAdapter.fields obj
  | quick obj => QuickAdapter.fields obj
  | update obj => UpdateAdapter.fields obj

theorem tags (x : HiveObject D) : ∃ n < 256, x.fields.map Prod.fst = List.range n := by
  cases x with
  | user obj => exact ⟨13, by decide, UserAdapter.tags obj⟩
  | simulate obj => exact ⟨10, by decide, SimulateAdapter.tags obj⟩
  | quick obj => exact ⟨8, by decide, QuickAdapter.tags obj⟩
  | update obj => exact ⟨10, by decide, UpdateAdapter.tags obj⟩

end HiveObject

/-! ## hive's writer and reader -/

/-- What the adapters assume of hive's `BinaryWriter` and `BinaryReader`: a byte comes back as it
was written, so does the frame of an object, which names its type id, and so do the values hive
can store. -/
structure HiveBinary (B D : Type) where
  byte : Codec B ℕ
  frame : Codec B ℕ
  value : Codec B (HiveValue D)
  byte_fits : ∀ n < 256, byte.Fits n
  frame_fits : ∀ typeId < 224, frame.Fits typeId

namespace HiveBinary

variable {B : Type} (binary : HiveBinary B D)

/-- Write the fields of an object with an adapter. -/
def fields : Codec B (Fields (HiveValue D)) := fieldsCodec binary.byte binary.value

def write (x : HiveObject D) : List B :=
  binary.frame.write x.typeId ++ binary.fields.write x.fields

/-- The adapter registered under an id. -/
def adapter (now : Timestamp) : ℕ → List B → Option (HiveObject D × List B)
  | 0, stream => (UserAdapter.format.read binary.byte binary.value stream).map (Prod.map .user id)
  | 1, stream =>
    ((SimulateAdapter.format now).read binary.byte binary.value stream).map (Prod.map .simulate id)
  | 2, stream =>
    ((QuickAdapter.format now).read binary.byte binary.value stream).map (Prod.map .quick id)
  | 3, stream =>
    ((UpdateAdapter.format now).read binary.byte binary.value stream).map (Prod.map .update id)
  | _, _ => none

def read (now : Timestamp) (stream : List B) : Option (HiveObject D × List B) :=
  (binary.frame.read stream).bind fun (typeId, stream) => binary.adapter now typeId stream

theorem read_frame (now : Timestamp) (x : HiveObject D) (stream : List B) :
    binary.read now (binary.frame.write x.typeId ++ stream) =
      binary.adapter now x.typeId stream := by
  rw [read, binary.frame.read_write _ (binary.frame_fits _ x.typeId_lt), Option.bind_some]

theorem fields_fits {x : HiveObject D} (hfits : ∀ f ∈ x.fields, binary.value.Fits f.2) :
    binary.fields.Fits x.fields := by
  obtain ⟨n, hn, htags⟩ := x.tags
  exact fieldsCodec_fits (fun m hm => binary.byte_fits m (hm.trans_lt hn)) htags hfits

/-- Objects by their type ids. -/
def codec (now : Timestamp) : Codec B (HiveObject D) where
  write := binary.write
  read := binary.read now
  Fits x := ∀ f ∈ x.fields, binary.value.Fits f.2
  read_write x hfits rest := by
    have hfields := binary.fields_fits hfits
    rw [write, List.append_assoc, binary.read_frame]
    cases x with
    | user obj =>
      exact congrArg (Option.map _)
        ((UserAdapter.format.codec binary.byte binary.value).read_write obj hfields rest)
    | simulate obj =>
      exact congrArg (Option.map _)
        (((SimulateAdapter.format now).codec binary.byte binary.value).read_write obj hfields rest)
    | quick obj =>
      exact congrArg (Option.map _)
        (((QuickAdapter.format now).codec binary.byte binary.value).read_write obj hfields rest)
    | update obj =>
      exact congrArg (Option.map _)
        (((UpdateAdapter.format now).codec binary.byte binary.value).read_write obj hfields rest)

/-- Read `n` objects. -/
def readAll (now : Timestamp) : ℕ → List B → Option (List (HiveObject D) × List B) :=
  (binary.codec now).readMany

end HiveBinary

/-- Objects of any types that hive can store, written one after the other, are read back as they
were, at any time, and what follows them is left. -/
theorem boxes_round_trip {B : Type} (binary : HiveBinary B D) (now : Timestamp)
    {l : List (HiveObject D)} (hfits : ∀ x ∈ l, ∀ f ∈ x.fields, binary.value.Fits f.2)
    (rest : List B) :
    binary.readAll now l.length (l.flatMap binary.write ++ rest) = some (l, rest) :=
  (binary.codec now).readMany_flatMap hfits rest

/-- A stream that keeps bytes and values as they are. -/
inductive HiveItem (D : Type) where
  | byte (n : ℕ)
  | value (v : HiveValue D)
deriving DecidableEq

/-- An object is framed by its type id after the 32 that hive keeps to itself. -/
def itemBinary (D : Type) : HiveBinary (HiveItem D) D where
  byte := {
    write n := [.byte n]
    read
      | .byte n :: rest => some (n, rest)
      | _ => none
    Fits n := n < 256
    read_write _ _ _ := rfl }
  frame := {
    write typeId := [.byte (typeId + 32)]
    read
      | .byte (typeId + 32) :: rest => some (typeId, rest)
      | _ => none
    Fits typeId := typeId < 224
    read_write _ _ _ := rfl }
  value := {
    write v := [.value v]
    read
      | .value v :: rest => some (v, rest)
      | _ => none
    Fits _ := True
    read_write _ _ _ := rfl }
  byte_fits _ h := h
  frame_fits _ h := h

/-- A user without a profile. -/
def ada : User ℤ where
  id := "u1"
  name := "Ada"
  email := "ada@x.com"
  password := "hash"
  matricNo := "21/0123"
  image := ""
  university := none
  faculty := none
  course := none
  level := none
  semester := none
  currentCgpa := none
  premium := false

/-- A quick result of hers. -/
def adaQuick : Quick (List Course) where
  result := "4.0"
  gradingSystem := "5"
  scores := [5, 3]
  courseData := [⟨"Calculus", "MATH101", .int 3⟩, ⟨"Mechanics", "PHY102", .int 3⟩]
  level := "100"
  semester := "1st"
  timestamp := 4

theorem boxes_round_trip_ada :
    (itemBinary ℤ).readAll 7 2
      ((itemBinary ℤ).write (.user ada) ++ (itemBinary ℤ).write (.quick adaQuick)) =
      some ([.user ada, .quick adaQuick], []) := by
  have h := boxes_round_trip (itemBinary ℤ) 7 (l := [.user ada, .quick adaQuick])
    (fun _ _ _ _ => trivial) []
  rwa [List.append_nil, List.flatMap_cons, List.flatMap_singleton] at h

/-- An object is also read from its fields in any other order, with unknown fields among them and
without some that are null, as another version of the adapter may have written them. -/
theorem adapters_evolve {B : Type} (binary : HiveBinary B D) (now : Timestamp) {x : HiveObject D}
    {fields kept others : Fields (HiveValue D)} (hperm : fields.Perm (kept ++ others))
    (hnodup : (fields.map Prod.fst).Nodup) (hkept : ∀ f ∈ kept, f ∈ x.fields)
    (hall : ∀ f ∈ x.fields, f.2 ≠ null → f ∈ kept)
    (hothers : ∀ f ∈ others, f.1 ∉ x.fields.map Prod.fst) (hfits : binary.fields.Fits fields)
    (rest : List B) :
    binary.read now (binary.frame.write x.typeId ++ binary.fields.write fields ++ rest) =
      some (x, rest) := by
  rw [List.append_assoc, binary.read_frame]
  cases x with
  | user obj =>
    exact congrArg (Option.map _)
      (UserAdapter.format.read_of_perm _ _ hperm hnodup hkept hall hothers hfits rest)
  | simulate obj =>
    exact congrArg (Option.map _)
      ((SimulateAdapter.format now).read_of_perm _ _ hperm hnodup hkept hall hothers hfits rest)
  | quick obj =>
    exact congrArg (Option.map _)
      ((QuickAdapter.format now).read_of_perm _ _ hperm hnodup hkept hall hothers hfits rest)
  | update obj =>
    exact congrArg (Option.map _)
      ((UpdateAdapter.format now).read_of_perm _ _ hperm hnodup hkept hall hothers hfits rest)

/-- What is not null of her. -/
def adaKept : Fields (HiveValue ℤ) :=
  [(5, string ""), (0, string "u1"), (1, string "Ada"), (2, string "ada@x.com"),
    (3, string "hash"), (4, string "21/0123"), (12, bool false)]

/-- An adapter with one more field has written her. -/
theorem adapters_evolve_ada :
    (itemBinary ℤ).read 0
      ((itemBinary ℤ).frame.write 0 ++
        (itemBinary ℤ).fields.write ((13, string "2024") :: adaKept)) =
      some (.user ada, []) := by
  have hperm : ((13, string "2024") :: adaKept).Perm (adaKept ++ [(13, string "2024")]) :=
    (List.perm_append_singleton _ _).symm
  have hbytes : ∀ f ∈ (13, string "2024") :: adaKept, f.1 < 256 := by decide
  have hlength : ((13, string "2024") :: adaKept).length < 256 := by decide
  have hfits : (itemBinary ℤ).fields.Fits ((13, string "2024") :: adaKept) :=
    ⟨hlength, fun f hf => ⟨hbytes f hf, trivial⟩⟩
  have h := adapters_evolve (itemBinary ℤ) (x := .user ada) 0 hperm (by decide) (by decide)
    (by decide) (by decide) hfits []
  rwa [List.append_nil] at h

end StudyStats
