import Mathlib
import StudyStats.Device

/-!
# Semester numbers

A position `level`/`semester` is one number: 100/'1st' is `1`, 100/'2nd' is `2`, and so on
up to `2 * year`. `getCurrentSemester` computes that number and `incrementUser` moves to
the next one, standing still at the last.
-/

namespace StudyStats

open Dart

variable {D C : Type} [Floating D]

/-- The level of the `s`-th semester. -/
def levelOf (s : ℕ) : ℕ := 100 * ((s + 1) / 2)

/-- The semester text of the `s`-th semester. -/
def semesterOf (s : ℕ) : String := if s % 2 = 1 then "1st" else "2nd"

/-- The level as the update screen and the records hold it. -/
def levelText (s : ℕ) : String := toString (levelOf s : ℤ)

/-- The semester after the `s`-th in a programme of `year` years. -/
def advance (year s : ℕ) : ℕ := min (s + 1) (2 * year)

theorem advance_le (year s : ℕ) : advance year s ≤ 2 * year := min_le_right _ _

theorem advance_of_lt {year s : ℕ} (h : s < 2 * year) : advance year s = s + 1 := by
  unfold advance; omega

/-- `getCurrentSemester` computes the semester number. -/
theorem getCurrentSemester_eq {s : ℕ} (h1 : 1 ≤ s) (h2 : s ≤ 18) :
    StatFunction.getCurrentSemester D (semesterOf s) (levelOf s) = some (s : ℤ) := by
  obtain ⟨k, hk⟩ : ∃ k, (s + 1) / 2 = k + 1 := ⟨(s + 1) / 2 - 1, by omega⟩
  have hlevel : ((levelOf s : ℕ) : ℤ) - 100 = ((k * 100 : ℕ) : ℤ) := by
    rw [levelOf, hk]; push_cast; ring
  have hdiv : Floating.div (Floating.ofInt ((k * 100 : ℕ) : ℤ)) (Floating.ofInt 100) =
      Floating.ofInt (D := D) k :=
    Floating.div_ofInt (b := 100) (by omega) (by norm_num) (by norm_num) (by omega)
  have hmul : Floating.mul (Floating.ofInt k) (Floating.ofInt 2) =
      Floating.ofInt (D := D) ((k * 2 : ℕ) : ℤ) :=
    Floating.mul_ofInt (b := 2) (by omega) (by norm_num) (by omega)
  simp only [StatFunction.getCurrentSemester, hlevel, hdiv, hmul,
    Floating.toInt_ofInt (D := D) (n := k * 2) (by omega), Option.bind_eq_bind, Option.bind_some,
    Option.pure_def]
  unfold semesterOf
  split_ifs with hodd <;> first | (exfalso; contradiction) | (congr 1; push_cast; omega)

/-! ## Texts of levels and semesters -/

theorem intParse_levelText {s : ℕ} (h1 : 1 ≤ s) (h2 : s ≤ 18) :
    intParse (levelText s) = some (levelOf s) := by
  interval_cases s <;> decide

theorem levelText_digit {s : ℕ} (h1 : 1 ≤ s) (h2 : s ≤ 18) :
    substring (levelText s) 0 1 = some (toString (((s + 1) / 2 : ℕ) : ℤ)) := by
  interval_cases s <;> decide

theorem intParse_digit {k : ℕ} (h1 : 1 ≤ k) (h2 : k ≤ 9) :
    intParse (toString (k : ℤ)) = some (k : ℤ) := by
  interval_cases k <;> decide

theorem semesterOf_eq_or (s : ℕ) : semesterOf s = "1st" ∨ semesterOf s = "2nd" := by
  unfold semesterOf; split_ifs <;> simp

theorem semesterOf_digit (s : ℕ) :
    ∃ digit n, substring (semesterOf s) 0 1 = some digit ∧ intParse digit = some n := by
  rcases semesterOf_eq_or s with h | h <;> rw [h]
  · exact ⟨"1", 1, by decide, by decide⟩
  · exact ⟨"2", 2, by decide, by decide⟩

theorem toString_int_injective : Function.Injective (toString : ℤ → String) :=
  fun _ _ h => Int.repr_injective h

/-- Two semesters written alike are the same. -/
theorem eq_of_texts {s t : ℕ} (hl : levelText s = levelText t)
    (hsem : semesterOf s = semesterOf t) : s = t := by
  have hlevel : levelOf s = levelOf t := by exact_mod_cast toString_int_injective hl
  unfold levelOf at hlevel
  unfold semesterOf at hsem
  split_ifs at hsem <;> first | omega | (exfalso; revert hsem; decide)

/-! ## The next position -/

theorem semesterOf_odd {s : ℕ} (h : s % 2 = 1) : semesterOf s = "1st" := if_pos h

theorem semesterOf_even {s : ℕ} (h : s % 2 = 0) : semesterOf s = "2nd" := if_neg (by omega)

/-- The second semester of a level is at the same level, the one after it at the next. -/
theorem levelOf_succ (s : ℕ) :
    levelOf (s + 1) = if s % 2 = 1 then levelOf s else levelOf s + 100 := by
  unfold levelOf
  split_ifs <;> omega

/-- Unless the programme ends with the level, the user moves on. -/
theorem nextPosition_succ {data : CourseData C} {s : ℕ} {digit : String}
    (hdigit : substring (levelText s) 0 1 = some digit)
    (hnext : s % 2 = 0 → data.yearText ≠ digit) :
    AuthProvider.nextPosition (some data) (levelOf s) (semesterOf s) =
      some ((levelOf (s + 1) : ℤ), semesterOf (s + 1)) := by
  rw [levelText] at hdigit
  rcases Nat.mod_two_eq_zero_or_one s with heven | hodd
  · rw [semesterOf_even heven, semesterOf_odd (by omega), levelOf_succ, if_neg (by omega)]
    rw [AuthProvider.nextPosition, if_neg (by decide), if_pos rfl]
    simp only [hdigit, hnext heven, Option.bind_eq_bind, Option.bind_some, if_false]
    push_cast
    rfl
  · rw [semesterOf_odd hodd, semesterOf_even (by omega), levelOf_succ, if_pos hodd]
    rw [AuthProvider.nextPosition, if_pos rfl]

/-- At the end of the last level the user stays. -/
theorem nextPosition_last {data : CourseData C} {s : ℕ}
    (hdigit : substring (levelText s) 0 1 = some data.yearText) (heven : s % 2 = 0) :
    AuthProvider.nextPosition (some data) (levelOf s) (semesterOf s) =
      some ((levelOf s : ℤ), semesterOf s) := by
  rw [levelText] at hdigit
  rw [semesterOf_even heven, AuthProvider.nextPosition, if_neg (by decide), if_pos rfl]
  simp only [hdigit, Option.bind_eq_bind, Option.bind_some, if_true]

theorem nextPosition_eq {data : CourseData C} {year s : ℕ} (hdata : data.year = some (year : ℤ))
    (hy : year ≤ 9) (h1 : 1 ≤ s) (h2 : s ≤ 2 * year) :
    AuthProvider.nextPosition (some data) (levelOf s) (semesterOf s) =
      some ((levelOf (advance year s) : ℤ), semesterOf (advance year s)) := by
  have hdigit := levelText_digit h1 (by omega)
  have hyear : data.yearText = toString (year : ℤ) := by rw [CourseData.yearText, hdata]
  by_cases hlast : s = 2 * year
  · have hlevel : (s + 1) / 2 = year := by omega
    rw [hlevel, ← hyear] at hdigit
    have hadvance : advance year s = s := by
      unfold advance
      omega
    rw [hadvance]
    exact nextPosition_last hdigit (by omega)
  · rw [advance_of_lt (by omega)]
    refine nextPosition_succ hdigit fun heven h => hlast ?_
    have hlevel : (year : ℤ) = ((s + 1) / 2 : ℕ) := toString_int_injective (hyear.symm.trans h)
    omega

end StudyStats
