import StudyStats.Dart.Double
import StudyStats.Dart.Text

/-!
# Texts of Dart doubles

`double.parse`, `toString` and `toStringAsFixed(2)`. `toString` writes the shortest literal
that reads back as the same double. The search for it checks each candidate by reading
it, which is what makes the round trip `Double.parse_toString` hold for every double.
-/

namespace Dart.Double

open Decimal

/-- `double.parse(s)`. -/
def parse (s : String) : Option Double :=
  let (negative, cs) := parseSign (trim s.toList)
  if cs = "NaN".toList then some nan
  else if cs = "Infinity".toList then some (infinity negative)
  else (parseMagnitude cs).map fun (k, e) =>
    ofRat negative ((if negative then -1 else 1) * (k * 10 ^ e))

/-- `q` is the double that `± k * 10 ^ e` is read as, with the sign of `q`. -/
def Reads (q : ℚ) (k : ℕ) (e : ℤ) : Prop :=
  binary64.round ((if q < 0 then -1 else 1) * (k * 10 ^ e)) = q

instance (q : ℚ) (k : ℕ) (e : ℤ) : Decidable (Reads q k e) :=
  inferInstanceAs (Decidable (_ = _))

/-- The literal of `n` significant digits nearest to `q` among those that read as `q`. -/
def candidate (q : ℚ) (n : ℕ) : Option (ℕ × ℤ) :=
  let e := Int.log 10 |q| + 1 - n
  let lo := ⌊|q| / 10 ^ e⌋.toNat
  if Reads q lo e ∧ (|q| / 10 ^ e - lo ≤ 1 / 2 ∨ ¬ Reads q (lo + 1) e) then some (lo, e)
  else if Reads q (lo + 1) e then
    -- `9…9 + 1` has one digit more, all of them zeros but the first
    if lo + 1 = 10 ^ n then some (1, e + n) else some (lo + 1, e)
  else none

def shortestFrom (q : ℚ) : ℕ → ℕ → Option (ℕ × ℤ)
  | 0, _ => none
  | fuel + 1, n => candidate q n <|> shortestFrom q fuel (n + 1)

/-- Coefficient and exponent of the shortest literal. Seventeen digits are always enough;
the exact expansion after them only makes the function total. -/
def shortest (q : ℚ) : ℕ × ℤ :=
  (shortestFrom q 17 1).getD (q.num.natAbs * 5 ^ q.den.log2, -q.den.log2)

/-- Positional between `1e-6` and `1e21`, else scientific. -/
def magnitudeText (k : ℕ) (e : ℤ) : List Char :=
  let x := e + (Nat.toDigits 10 k).length - 1
  if -6 ≤ x ∧ x < 21 then
    if 0 ≤ e then fixed (k * 10 ^ (e.toNat + 1)) 1 else fixed k (-e).toNat
  else scientific k e

def signText (negative : Bool) (cs : List Char) : String :=
  String.ofList (if negative then '-' :: cs else cs)

/-- `x.toString()`. -/
def toString (x : Double) : String :=
  match x with
  | nan => "NaN"
  | infinity b => signText b "Infinity".toList
  | zero b => signText b "0.0".toList
  | finite q _ => signText (q < 0) (magnitudeText (shortest q).1 (shortest q).2)

/-- `x.toStringAsFixed(2)`: hundredths, halves away from zero. -/
def toStringAsFixed2 (x : Double) : String :=
  match x with
  | zero b => signText b "0.00".toList
  | finite q _ =>
    if |q| < 10 ^ 21 then signText (q < 0) (fixed ⌊|q| * 100 + 1 / 2⌋.toNat 2)
    else x.toString
  | x => x.toString

/-! ## Candidates read as the double they are for -/

theorem den_of_representable {q : ℚ} (h : binary64.Representable q) : ∃ t, q.den = 2 ^ t := by
  obtain ⟨m, e, -, -, rfl⟩ := h
  obtain ⟨n, rfl | rfl⟩ := e.eq_nat_or_neg
  · refine ⟨0, ?_⟩
    have : (m : ℚ) * 2 ^ (n : ℤ) = ((m * 2 ^ n : ℤ) : ℚ) := by push_cast; rw [zpow_natCast]
    rw [this, Rat.den_intCast, pow_zero]
  · have hden : ((m : ℚ) * 2 ^ (-(n : ℤ))).den ∣ 2 ^ n := by
      have : (m : ℚ) * 2 ^ (-(n : ℤ)) = (m : ℚ) / ((2 ^ n : ℕ) : ℤ) := by
        rw [zpow_neg, zpow_natCast]; push_cast; rfl
      rw [this]
      exact_mod_cast Rat.den_dvd m ((2 ^ n : ℕ) : ℤ)
    obtain ⟨t, -, ht⟩ := (Nat.dvd_prime_pow Nat.prime_two).mp hden
    exact ⟨t, ht⟩

theorem sign_mul_natAbs (q : ℚ) :
    (if q < 0 then -1 else 1) * ((q.num.natAbs : ℕ) : ℚ) = q.num := by
  rw [Nat.cast_natAbs, Int.cast_abs]
  split_ifs with hq
  · rw [abs_of_neg (by exact_mod_cast Rat.num_neg.2 hq), neg_one_mul, neg_neg]
  · rw [abs_of_nonneg (by exact_mod_cast Rat.num_nonneg.2 (not_lt.1 hq)), one_mul]

/-- The exact decimal expansion of a dyadic rational. -/
theorem exact_expansion {q : ℚ} (h : ∃ t, q.den = 2 ^ t) :
    (if q < 0 then -1 else 1) * (((q.num.natAbs * 5 ^ q.den.log2 : ℕ) : ℚ) *
      10 ^ (-(q.den.log2 : ℤ))) = q := by
  obtain ⟨t, ht⟩ := h
  have hten : (10 : ℚ) ^ t = 5 ^ t * 2 ^ t := by rw [← mul_pow]; norm_num
  rw [ht, Nat.log2_two_pow, zpow_neg, zpow_natCast, hten]
  push_cast
  calc _ = ((if q < 0 then -1 else 1) * ((q.num.natAbs : ℕ) : ℚ)) / ((2 ^ t : ℕ) : ℚ) := by
        push_cast; field_simp
    _ = q := by rw [sign_mul_natAbs, ← ht, Rat.num_div_den]

theorem reads_candidate {q : ℚ} {n : ℕ} {k : ℕ} {e : ℤ} (h : candidate q n = some (k, e)) :
    Reads q k e := by
  unfold candidate at h
  simp only at h
  split_ifs at h with hlo hhi hcarry
  · obtain ⟨rfl, rfl⟩ := Prod.mk.inj (Option.some.inj h)
    exact hlo.1
  · obtain ⟨rfl, rfl⟩ := Prod.mk.inj (Option.some.inj h)
    have hsame : ((1 : ℕ) : ℚ) * 10 ^ (Int.log 10 |q| + 1 - n + n) =
        ((10 ^ n : ℕ) : ℚ) * 10 ^ (Int.log 10 |q| + 1 - n) := by
      rw [zpow_add₀ (by norm_num), zpow_natCast]; push_cast; ring
    unfold Reads at hhi ⊢
    rw [hsame, ← hcarry, hhi]
  · obtain ⟨rfl, rfl⟩ := Prod.mk.inj (Option.some.inj h)
    exact hhi

theorem reads_shortestFrom {q : ℚ} {k : ℕ} {e : ℤ} (fuel n : ℕ)
    (h : shortestFrom q fuel n = some (k, e)) : Reads q k e := by
  induction fuel generalizing n with
  | zero => simp [shortestFrom] at h
  | succ fuel ih =>
    simp only [shortestFrom, Option.orElse_eq_orElse, Option.orElse_eq_or] at h
    rcases Option.or_eq_some_iff.mp h with h | ⟨-, h⟩
    · exact reads_candidate h
    · exact ih _ h

theorem reads_shortest {q : ℚ} (h : binary64.round q = q) :
    Reads q (shortest q).1 (shortest q).2 := by
  unfold shortest
  cases hs : shortestFrom q 17 1 with
  | some p => exact reads_shortestFrom 17 1 hs
  | none =>
    have hrep : binary64.Representable q := h ▸ binary64.representable_round q
    unfold Reads
    rw [Option.getD_none, exact_expansion (den_of_representable hrep), h]

/-! ## Reading back what was written -/

/-- The characters of a numeral. -/
def Plain (c : Char) : Prop := c.isDigit ∨ c = '.' ∨ c = 'e' ∨ c = '-' ∨ c = '+'

theorem Plain.not_space {c : Char} (h : Plain c) : isSpace c = false := by
  rcases h with h | rfl | rfl | rfl | rfl
  · exact isSpace_of_isDigit h
  all_goals decide

/-- A text that begins with a digit and goes on with the characters of a numeral. -/
def Numeral (cs : List Char) : Prop :=
  (∀ c ∈ cs, Plain c) ∧ ∃ d ds, cs = d :: ds ∧ d.isDigit

theorem toDigits_eq_cons (n : ℕ) : ∃ d ds, Nat.toDigits 10 n = d :: ds ∧ d.isDigit := by
  obtain ⟨d, ds, h⟩ := List.exists_cons_of_ne_nil (Nat.toDigits_ne_nil (n := n) (b := 10))
  exact ⟨d, ds, h, isDigit_toDigits (h ▸ List.mem_cons_self)⟩

theorem numeral_fixed (k s : ℕ) : Numeral (fixed k s) := by
  obtain ⟨d, ds, h, hd⟩ := toDigits_eq_cons (k / 10 ^ s)
  refine ⟨fun c hc => ?_, d, _, by rw [fixed, h, List.cons_append], hd⟩
  rcases List.mem_append.mp hc with hc | hc
  · exact .inl (isDigit_toDigits hc)
  · rcases List.mem_cons.mp hc with rfl | hc
    · exact .inr (.inl rfl)
    · exact .inl (isDigit_padded hc)

theorem numeral_scientific (k : ℕ) (e : ℤ) : Numeral (scientific k e) := by
  refine ⟨fun c hc => ?_, _, _, rfl, isDigit_toDigits (List.head_mem _)⟩
  have htail : ∀ c ∈ (Nat.toDigits 10 k).tail, c.isDigit := fun c hc =>
    isDigit_toDigits (List.mem_of_mem_tail hc)
  have hhead := isDigit_toDigits (List.head_mem (Nat.toDigits_ne_nil (n := k) (b := 10)))
  unfold scientific at hc
  simp only [List.cons_append, List.mem_cons, List.mem_append] at hc
  rcases hc with rfl | hc | rfl | rfl | hc
  · exact .inl hhead
  · split_ifs at hc with hnil
    · simp at hc
    · rcases List.mem_cons.mp hc with rfl | hc
      · exact .inr (.inl rfl)
      · exact .inl (htail c hc)
  · exact .inr (.inr (.inl rfl))
  · split_ifs <;> simp [Plain]
  · exact .inl (isDigit_toDigits hc)

theorem numeral_magnitudeText (k : ℕ) (e : ℤ) : Numeral (magnitudeText k e) := by
  unfold magnitudeText
  simp only
  split_ifs
  · exact numeral_fixed _ _
  · exact numeral_fixed _ _
  · exact numeral_scientific _ _

theorem parseMagnitude_magnitudeText (k : ℕ) (e : ℤ) :
    ∃ k' e', parseMagnitude (magnitudeText k e) = some (k', e') ∧
      (k' : ℚ) * 10 ^ e' = k * 10 ^ e := by
  unfold magnitudeText
  simp only
  split_ifs with _ he
  · refine ⟨_, _, parseMagnitude_fixed one_pos _, ?_⟩
    obtain ⟨n, rfl⟩ := Int.eq_ofNat_of_zero_le he
    simp only [Int.toNat_natCast, zpow_natCast, Nat.cast_one, zpow_neg, zpow_one]
    push_cast
    field_simp
    ring
  · refine ⟨_, _, parseMagnitude_fixed (by omega) _, ?_⟩
    rw [Int.toNat_of_nonneg (by omega), neg_neg]
  · exact ⟨k, e, parseMagnitude_scientific k e, rfl⟩

/-- The reader takes the sign off a text that has no white space and begins with a digit. -/
theorem parseSign_trim_signText (b : Bool) {d : Char} {ds : List Char} (hd : d.isDigit)
    (hspace : ∀ c ∈ d :: ds, isSpace c = false) :
    parseSign (trim (signText b (d :: ds)).toList) = (b, d :: ds) := by
  cases b
  · simp only [signText, Bool.false_eq_true, if_false, String.toList_ofList]
    rw [trim_of_forall hspace, parseSign_of_isDigit hd]
  · simp only [signText, if_true, String.toList_ofList]
    rw [trim_of_forall (List.forall_mem_cons.2 ⟨by decide, hspace⟩)]
    rfl

theorem parse_signText (b : Bool) {cs : List Char} (h : Numeral cs) :
    parse (signText b cs) = (parseMagnitude cs).map fun (k, e) =>
      ofRat b ((if b then -1 else 1) * (k * 10 ^ e)) := by
  obtain ⟨hplain, d, ds, rfl, hd⟩ := h
  have hsign := parseSign_trim_signText b hd fun c hc => (hplain c hc).not_space
  have hnan : d :: ds ≠ "NaN".toList := by
    intro h; rw [show d = 'N' from (List.cons.inj h).1] at hd; revert hd; decide
  have hinf : d :: ds ≠ "Infinity".toList := by
    intro h; rw [show d = 'I' from (List.cons.inj h).1] at hd; revert hd; decide
  simp only [parse, hsign, if_neg hnan, if_neg hinf]

/-- `double.parse(x.toString()) = x`, for every double. -/
theorem parse_toString (x : Double) : parse x.toString = some x := by
  match x with
  | nan => decide +kernel
  | infinity true => decide +kernel
  | infinity false => decide +kernel
  | zero true => decide +kernel
  | zero false => decide +kernel
  | finite q hq =>
    obtain ⟨k, e, hparse, hval⟩ := parseMagnitude_magnitudeText (shortest q).1 (shortest q).2
    have hreads := reads_shortest hq.2.1
    unfold Reads at hreads
    rw [← hval] at hreads
    rw [toString, parse_signText _ (numeral_magnitudeText _ _), hparse, Option.map_some]
    congr 1
    refine ofRat_of_round ?_ hq
    simpa using hreads

theorem parse_toStringAsFixed2 (x : Double) : (parse x.toStringAsFixed2).isSome := by
  unfold toStringAsFixed2
  split
  · rename_i b
    cases b <;> decide +kernel
  · split_ifs
    · rw [parse_signText _ (numeral_fixed _ _), parseMagnitude_fixed two_pos]; rfl
    · rw [parse_toString]; rfl
  · rw [parse_toString]; rfl

end Dart.Double
