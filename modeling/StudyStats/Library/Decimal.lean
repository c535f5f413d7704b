import Mathlib.Data.List.TakeWhile
import Mathlib.Data.Rat.Defs
import Mathlib.Tactic

/-!
# Decimal numerals

Reading and writing decimal literals as lists of characters. A literal stands for
`coefficient * 10 ^ exponent`; nothing is rounded here, so the two writers are exact
and the reader inverts both of them.

## Main definitions

* `Decimal.parseMagnitude` — the reader, for `digits [. digits] [e ± digits]`.
* `Decimal.fixed` — `k / 10 ^ s` with exactly `s` digits after the point.
* `Decimal.scientific` — `k * 10 ^ e` with one digit before the point.
-/

namespace Decimal

/-- The number a run of digits stands for. -/
def value (ds : List Char) : ℕ := Nat.ofDigitChars 10 ds 0

/-- Split off a leading sign; the flag says whether it was a minus. -/
def parseSign : List Char → Bool × List Char
  | '-' :: cs => (true, cs)
  | '+' :: cs => (false, cs)
  | cs => (false, cs)

/-- What follows the mantissa: nothing, or `e` with a signed run of digits. -/
def parseExponent : List Char → Option ℤ
  | [] => some 0
  | c :: cs =>
    let (negative, ds) := parseSign cs
    if (c = 'e' ∨ c = 'E') ∧ ds ≠ [] ∧ ds.all Char.isDigit then
      some (if negative then -(value ds : ℤ) else value ds)
    else none

/-- An unsigned literal as coefficient and exponent. Digits may be missing on one side
of the point but not on both. -/
def parseMagnitude (cs : List Char) : Option (ℕ × ℤ) :=
  let whole := cs.takeWhile Char.isDigit
  match cs.dropWhile Char.isDigit with
  | '.' :: rest =>
    let frac := rest.takeWhile Char.isDigit
    if whole = [] ∧ frac = [] then none
    else (parseExponent (rest.dropWhile Char.isDigit)).map fun e =>
      (value (whole ++ frac), e - frac.length)
  | rest => if whole = [] then none else (parseExponent rest).map fun e => (value whole, e)

/-- The digits of `n`, with zeros in front up to length `s`. -/
def padded (s n : ℕ) : List Char :=
  List.replicate (s - (Nat.toDigits 10 n).length) '0' ++ Nat.toDigits 10 n

/-- `k / 10 ^ s`, written with `s` digits after the point. -/
def fixed (k s : ℕ) : List Char :=
  Nat.toDigits 10 (k / 10 ^ s) ++ '.' :: padded s (k % 10 ^ s)

/-- `k * 10 ^ e`, written with one digit before the point. -/
def scientific (k : ℕ) (e : ℤ) : List Char :=
  let ds := (Nat.toDigits 10 k).tail
  let x := e + ds.length
  (Nat.toDigits 10 k).head Nat.toDigits_ne_nil :: (if ds = [] then [] else '.' :: ds) ++
    'e' :: (if x < 0 then '-' else '+') :: Nat.toDigits 10 x.natAbs

/-! ## Runs of digits -/

@[simp] theorem value_toDigits (n : ℕ) : value (Nat.toDigits 10 n) = n :=
  Nat.ofDigitChars_ten_toDigits

theorem value_append (xs ys : List Char) :
    value (xs ++ ys) = value xs * 10 ^ ys.length + value ys := by
  unfold value
  rw [Nat.ofDigitChars_append, Nat.ofDigitChars_eq_ofDigitChars_zero, Nat.mul_comm]

theorem isDigit_toDigits {n : ℕ} {c : Char} (h : c ∈ Nat.toDigits 10 n) : c.isDigit :=
  Nat.isDigit_of_mem_toDigits (by norm_num) (by norm_num) h

theorem all_isDigit_toDigits (n : ℕ) : (Nat.toDigits 10 n).all Char.isDigit :=
  List.all_eq_true.mpr fun _ h => isDigit_toDigits h

theorem isDigit_padded {s n : ℕ} {c : Char} (h : c ∈ padded s n) : c.isDigit := by
  rcases List.mem_append.mp h with h | h
  · rw [List.eq_of_mem_replicate h]; decide
  · exact isDigit_toDigits h

@[simp] theorem value_padded (s n : ℕ) : value (padded s n) = n := by
  simp [padded, value_append, show value (List.replicate _ '0') = 0 by simp [value]]

theorem length_padded {s n : ℕ} (hs : 0 < s) (h : n < 10 ^ s) : (padded s n).length = s := by
  have : (Nat.toDigits 10 n).length ≤ s := (Nat.length_toDigits_le_iff (by norm_num) hs).mpr h
  simp only [padded, List.length_append, List.length_replicate]
  omega

/-- Digits followed by a character that is none are taken off exactly. -/
theorem takeWhile_digits {ds : List Char} (hd : ∀ c ∈ ds, c.isDigit) {x : Char}
    (hx : x.isDigit = false) (rest : List Char) :
    (ds ++ x :: rest).takeWhile Char.isDigit = ds := by
  rw [List.takeWhile_append_of_pos hd]; simp [hx]

theorem dropWhile_digits {ds : List Char} (hd : ∀ c ∈ ds, c.isDigit) {x : Char}
    (hx : x.isDigit = false) (rest : List Char) :
    (ds ++ x :: rest).dropWhile Char.isDigit = x :: rest := by
  rw [List.dropWhile_append_of_pos hd]; simp [hx]

theorem takeWhile_digits_all {ds : List Char} (hd : ∀ c ∈ ds, c.isDigit) :
    ds.takeWhile Char.isDigit = ds := by
  exact List.takeWhile_eq_self_iff.2 hd

theorem dropWhile_digits_all {ds : List Char} (hd : ∀ c ∈ ds, c.isDigit) :
    ds.dropWhile Char.isDigit = [] := by
  exact List.dropWhile_eq_nil_iff.2 hd

/-! ## The reader inverts the writers -/

theorem parseSign_of_isDigit {c : Char} (hc : c.isDigit) (cs : List Char) :
    parseSign (c :: cs) = (false, c :: cs) := by
  unfold parseSign
  split
  · simp_all
  · simp_all
  · rfl

/-- A signed exponent as `scientific` writes it. -/
theorem parseExponent_signed (x : ℤ) :
    parseExponent ('e' :: (if x < 0 then '-' else '+') :: Nat.toDigits 10 x.natAbs) = some x := by
  have hall := all_isDigit_toDigits x.natAbs
  rcases lt_or_ge x 0 with hx | hx
  · simp only [parseExponent, parseSign, if_pos hx, value_toDigits]
    rw [if_pos ⟨by decide, Nat.toDigits_ne_nil, hall⟩]
    simp only [if_true]
    congr 1; omega
  · simp only [parseExponent, parseSign, if_neg hx.not_gt, value_toDigits]
    rw [if_pos ⟨by decide, Nat.toDigits_ne_nil, hall⟩]
    simp only [Bool.false_eq_true, if_false]
    congr 1; omega

theorem parseMagnitude_fixed {s : ℕ} (hs : 0 < s) (k : ℕ) :
    parseMagnitude (fixed k s) = some (k, -(s : ℤ)) := by
  have hlt : k % 10 ^ s < 10 ^ s := Nat.mod_lt _ (by positivity)
  have hlen := length_padded hs hlt
  have hwhole : ∀ c ∈ Nat.toDigits 10 (k / 10 ^ s), c.isDigit := fun c => isDigit_toDigits
  have hfrac : ∀ c ∈ padded s (k % 10 ^ s), c.isDigit := fun c => isDigit_padded
  unfold parseMagnitude fixed
  rw [takeWhile_digits hwhole (by decide), dropWhile_digits hwhole (by decide)]
  simp only [takeWhile_digits_all hfrac, dropWhile_digits_all hfrac, parseExponent,
    Nat.toDigits_ne_nil, false_and, if_false, Option.map_some, value_append, hlen,
    value_toDigits, value_padded, zero_sub]
  rw [Nat.div_add_mod' k (10 ^ s)]

theorem parseMagnitude_scientific (k : ℕ) (e : ℤ) :
    parseMagnitude (scientific k e) = some (k, e) := by
  have hdigits : ∀ c ∈ Nat.toDigits 10 k, c.isDigit := fun c => isDigit_toDigits
  have hvalue := value_toDigits k
  have hcons := List.cons_head_tail (Nat.toDigits_ne_nil (n := k) (b := 10))
  unfold scientific
  generalize (Nat.toDigits 10 k).head Nat.toDigits_ne_nil = d at hcons ⊢
  generalize (Nat.toDigits 10 k).tail = ds at hcons ⊢
  rw [← hcons] at hvalue
  have hd : ∀ c ∈ [d], c.isDigit := fun c hc => hdigits c (hcons ▸ by simp at hc; simp [hc])
  have hds : ∀ c ∈ ds, c.isDigit := fun c hc => hdigits c (hcons ▸ by simp [hc])
  unfold parseMagnitude
  rcases eq_or_ne ds [] with rfl | hne
  · have hshape := takeWhile_digits hd (x := 'e') (by decide)
    have hrest := dropWhile_digits hd (x := 'e') (by decide)
    simp only [List.singleton_append] at hshape hrest
    simp only [if_true, List.cons_append, List.nil_append, hshape, hrest]
    simp [parseExponent_signed, hvalue]
  · have hshape := takeWhile_digits hd (x := '.') (by decide)
    have hrest := dropWhile_digits hd (x := '.') (by decide)
    simp only [List.singleton_append] at hshape hrest
    simp only [hne, if_false, List.cons_append, hshape, hrest,
      takeWhile_digits hds (x := 'e') (by decide), dropWhile_digits hds (x := 'e') (by decide)]
    simp [parseExponent_signed, hvalue]

end Decimal
