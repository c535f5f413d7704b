import StudyStats.Dart.Floating

/-!
# Exact numbers

Rational numbers in the place of doubles: the arithmetic is exact and an `int` has no bound.
`toStringAsFixed(2)` is then the only operation that rounds, to the nearest hundredth with
halves away from zero. A text is a decimal literal, over a denominator where it needs one.
-/

namespace Dart.Exact

open Decimal

/-- `double.parse(s)`. -/
def parse (s : String) : Option ℚ :=
  let (negative, cs) := parseSign (trim s.toList)
  let sign : ℚ := if negative then -1 else 1
  match cs.dropWhile (· ≠ '/') with
  | [] => (parseMagnitude cs).map fun (k, e) => sign * (k * 10 ^ e)
  | _ :: ds =>
    if ds ≠ [] ∧ ds.all Char.isDigit then
      (parseMagnitude (cs.takeWhile (· ≠ '/'))).map fun (k, e) =>
        sign * (k * 10 ^ e) / value ds
    else none

/-- `x.toString()`; an integer is written with one digit after the point. -/
def toString (q : ℚ) : String :=
  Double.signText (q < 0) (fixed (q.num.natAbs * 10) 1 ++
    if q.den = 1 then [] else '/' :: Nat.toDigits 10 q.den)

/-- `x.toStringAsFixed(2)` -/
def toStringAsFixed2 (q : ℚ) : String :=
  Double.signText (q < 0) (fixed ⌊|q * 100| + 1 / 2⌋.toNat 2)

/-- The hundredth nearest to `q`. -/
def hundredth (q : ℚ) : ℚ := roundAway (q * 100) / 100

/-! ## Hundredths -/

theorem abs_hundredth_sub_le (q : ℚ) : |hundredth q - q| ≤ 1 / 200 := by
  have h := abs_le.1 (abs_roundAway_sub_le (q * 100))
  unfold hundredth
  exact abs_le.2 ⟨by linarith, by linarith⟩

theorem hundredth_mono : Monotone hundredth := by
  intro p q h
  unfold hundredth
  refine div_le_div_of_nonneg_right ?_ (by norm_num)
  exact_mod_cast roundAway_mono (by linarith : p * 100 ≤ q * 100)

@[simp] theorem hundredth_intCast (n : ℤ) : hundredth n = n := by
  unfold hundredth
  have hcast : (n : ℚ) * 100 = ((n * 100 : ℤ) : ℚ) := by push_cast; rfl
  rw [hcast, roundAway_intCast]
  push_cast
  exact mul_div_cancel_right₀ _ (by norm_num)

/-! ## Texts -/

theorem ne_slash_of_plain {c : Char} (h : Double.Plain c) : c ≠ '/' := by
  rintro rfl
  revert h
  unfold Double.Plain
  decide

theorem dropWhile_ne_slash {cs : List Char} (h : ∀ c ∈ cs, Double.Plain c) :
    cs.dropWhile (· ≠ '/') = [] :=
  List.dropWhile_eq_nil_iff.2 fun c hc => by simpa using ne_slash_of_plain (h c hc)

/-- A signed numeral reads as its exact value. -/
theorem parse_signText (b : Bool) {cs : List Char} (h : Double.Numeral cs) :
    parse (Double.signText b cs) = (parseMagnitude cs).map fun (k, e) =>
      (if b then -1 else 1) * (k * 10 ^ e) := by
  obtain ⟨hplain, d, ds, rfl, hd⟩ := h
  have hsign := Double.parseSign_trim_signText b hd fun c hc => (hplain c hc).not_space
  simp only [parse, hsign, dropWhile_ne_slash hplain]

/-- A signed numeral over a denominator. -/
theorem parse_signText_over (b : Bool) {cs : List Char} (h : Double.Numeral cs) (n : ℕ) :
    parse (Double.signText b (cs ++ '/' :: Nat.toDigits 10 n)) =
      (parseMagnitude cs).map fun (k, e) => (if b then -1 else 1) * (k * 10 ^ e) / n := by
  obtain ⟨hplain, d, ds, rfl, hd⟩ := h
  have hspace : ∀ c ∈ d :: (ds ++ '/' :: Nat.toDigits 10 n), isSpace c = false := by
    intro c hc
    rw [← List.cons_append] at hc
    rcases List.mem_append.1 hc with hc | hc
    · exact (hplain c hc).not_space
    · rcases List.mem_cons.1 hc with rfl | hc
      · decide
      · exact isSpace_of_isDigit (isDigit_toDigits hc)
  have hsign := Double.parseSign_trim_signText b hd hspace
  have hkeep : ∀ c ∈ d :: ds, (c ≠ '/' : Bool) := fun c hc => by
    simpa using ne_slash_of_plain (hplain c hc)
  have hwhole : (d :: (ds ++ '/' :: Nat.toDigits 10 n)).takeWhile (· ≠ '/') = d :: ds := by
    rw [← List.cons_append, List.takeWhile_append_of_pos hkeep]
    simp
  have hrest : (d :: (ds ++ '/' :: Nat.toDigits 10 n)).dropWhile (· ≠ '/') =
      '/' :: Nat.toDigits 10 n := by
    rw [← List.cons_append, List.dropWhile_append_of_pos hkeep]
    simp
  rw [List.cons_append]
  simp only [parse, hsign, hwhole, hrest, value_toDigits]
  rw [if_pos ⟨Nat.toDigits_ne_nil, all_isDigit_toDigits n⟩]

theorem parse_toString (q : ℚ) : parse (toString q) = some q := by
  have hsign := Double.sign_mul_natAbs q
  have hten : ((q.num.natAbs * 10 : ℕ) : ℚ) * 10 ^ (-((1 : ℕ) : ℤ)) = (q.num.natAbs : ℕ) := by
    push_cast
    rw [zpow_neg, zpow_one, mul_assoc, mul_inv_cancel₀ (by norm_num), mul_one]
  unfold toString
  split_ifs with hden
  · rw [List.append_nil, parse_signText _ (Double.numeral_fixed _ _),
      parseMagnitude_fixed one_pos]
    simp only [Option.map_some, hten, decide_eq_true_eq, hsign]
    rw [Rat.den_eq_one_iff q |>.1 hden]
  · rw [parse_signText_over _ (Double.numeral_fixed _ _), parseMagnitude_fixed one_pos]
    simp only [Option.map_some, hten, decide_eq_true_eq, hsign]
    rw [Rat.num_div_den]

theorem toString_injective : Function.Injective toString := fun p q h => by
  have := congrArg parse h
  rwa [parse_toString, parse_toString, Option.some.injEq] at this

/-- What was written with two digits is read as the nearest hundredth. -/
theorem parse_toStringAsFixed2 (q : ℚ) : parse (toStringAsFixed2 q) = some (hundredth q) := by
  have hnonneg : 0 ≤ ⌊|q * 100| + 1 / 2⌋ := Int.floor_nonneg.2 (by positivity)
  have hcast : ((⌊|q * 100| + 1 / 2⌋.toNat : ℕ) : ℚ) = (⌊|q * 100| + 1 / 2⌋ : ℤ) := by
    exact_mod_cast Int.toNat_of_nonneg hnonneg
  have hlt : q * 100 < 0 ↔ q < 0 := by constructor <;> intro <;> linarith
  unfold toStringAsFixed2
  rw [parse_signText _ (Double.numeral_fixed _ _), parseMagnitude_fixed two_pos]
  simp only [Option.map_some, hcast, decide_eq_true_eq, hundredth, roundAway, hlt]
  split_ifs <;> norm_num <;> ring

/-- Dart over exact numbers. -/
instance : Floating ℚ where
  parse := parse
  toString := toString
  toStringAsFixed2 := toStringAsFixed2
  ofInt n := n
  toInt q := some (q.num.tdiv q.den)
  add := (· + ·)
  mul := (· * ·)
  div := (· / ·)
  lt p q := p < q
  le p q := p ≤ q
  intMul := (· * ·)
  parse_toString := parse_toString
  parse_toStringAsFixed2 q := by rw [parse_toStringAsFixed2]; rfl
  mul_ofInt _ _ _ := by push_cast; rfl
  div_ofInt _ _ hb _ := by
    push_cast
    exact mul_div_cancel_right₀ _ (Nat.cast_ne_zero.2 hb)
  toInt_ofInt _ := by simp

example : toString (41 / 10) = "41.0/10" ∧ parse "4.10" = some (41 / 10) ∧
    toStringAsFixed2 (1 / 3) = "0.33" ∧ toString (-1) = "-1.0" := by
  decide +kernel

end Dart.Exact
