import StudyStats.Dart.Floating

/-!
# Records

The data the grade screens work on: courses, the signed-in user and the records of the
three histories. `C` is the type of a course list as a record holds it: the list itself
where only values matter, a reference where sharing does.
-/

namespace StudyStats

/-- `DateTime.now()`. Records keep its ISO text, which sorts as the instants do. -/
abbrev Timestamp := ℕ

/-- The `units` entry of a course map: an integer, or some text the catalogue holds instead. -/
inductive Units where
  | int (n : ℤ)
  | text (s : String)
deriving DecidableEq

structure Course where
  name : String
  courseCode : String
  units : Units
deriving DecidableEq

/-- `User`; the nullable fields stay empty until a profile is filled in. -/
structure User (D : Type) where
  id : String
  name : String
  email : String
  password : String
  matricNo : String
  image : String
  university : Option String
  faculty : Option String
  course : Option String
  level : Option ℤ
  semester : Option String
  currentCgpa : Option D
  premium : Bool
deriving DecidableEq

/-- The course map of a programme: its `year` and, by level and semester digit, its lists. -/
structure CourseData (C : Type) where
  year : Option ℤ
  courses : String → String → Option C

/-- A recorded semester. -/
structure Update (D C : Type) where
  gpa : D
  cgpa : D
  gradingSystem : String
  scores : List ℤ
  courseData : C
  level : String
  semester : String
  uploaded : Bool := false
  timestamp : Timestamp
  pastSemester : String
deriving DecidableEq

/-- A result of the quick calculator. -/
structure Quick (C : Type) where
  result : String
  gradingSystem : String
  scores : List ℤ
  courseData : C
  level : String
  semester : String
  uploaded : Bool := false
  timestamp : Timestamp
deriving DecidableEq

/-- A simulated semester. -/
structure Simulate (D C : Type) where
  gpa : D
  cgpa : D
  gradingSystem : String
  scores : List ℤ
  courseData : C
  level : String
  semester : String
  uploaded : Bool := false
  pastGpa : D
  timestamp : Timestamp
deriving DecidableEq

/-- `json['year'].toString()`. -/
def CourseData.yearText {C : Type} (data : CourseData C) : String :=
  match data.year with
  | some y => toString y
  | none => "null"

end StudyStats
