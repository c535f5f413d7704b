import StudyStats.Dart.DoubleText

/-!
# Number types

What grade arithmetic asks of the type it uses for `double`, so that it can be read over
binary64 and over exact rationals alike. The laws are the ones the texts and the semester
numbers rest on: a written number reads back, and small integers are exact.
-/

namespace Dart

class Floating (D : Type) where
  /-- `double.parse`, `none` where it throws. -/
  parse : String → Option D
  /-- `x.toString()` -/
  toString : D → String
  /-- `x.toStringAsFixed(2)` -/
  toStringAsFixed2 : D → String
  /-- the conversion of an `int` operand -/
  ofInt : ℤ → D
  /-- `x.toInt()`, `none` where it throws -/
  toInt : D → Option ℤ
  add : D → D → D
  mul : D → D → D
  div : D → D → D
  lt : D → D → Bool
  le : D → D → Bool
  /-- the product of two `int`s -/
  intMul : ℤ → ℤ → ℤ
  parse_toString (x : D) : parse (toString x) = some x
  parse_toStringAsFixed2 (x : D) : (parse (toStringAsFixed2 x)).isSome
  mul_ofInt {a b : ℕ} : a ≤ 2 ^ 53 → b ≤ 2 ^ 53 → a * b ≤ 2 ^ 53 →
    mul (ofInt a) (ofInt b) = ofInt ((a * b : ℕ) : ℤ)
  div_ofInt {a b : ℕ} : a ≤ 2 ^ 53 → b ≤ 2 ^ 53 → b ≠ 0 → a * b ≤ 2 ^ 53 →
    div (ofInt ((a * b : ℕ) : ℤ)) (ofInt b) = ofInt a
  toInt_ofInt {n : ℕ} : n ≤ 2 ^ 53 → toInt (ofInt n) = some (n : ℤ)

/-- Native Dart: binary64 doubles and 64-bit integers. -/
instance : Floating Double where
  parse := Double.parse
  toString := Double.toString
  toStringAsFixed2 := Double.toStringAsFixed2
  ofInt := Double.ofInt
  toInt := Double.toInt
  add := Double.add
  mul := Double.mul
  div := Double.div
  lt := Double.lt
  le := Double.le
  intMul a b := wrap64 (a * b)
  parse_toString := Double.parse_toString
  parse_toStringAsFixed2 := Double.parse_toStringAsFixed2
  mul_ofInt := Double.mul_ofInt
  div_ofInt := Double.div_ofInt
  toInt_ofInt := Double.toInt_ofInt

end Dart
