import StudyStats.Library.Decimal

/-!
# Dart texts and integers

`String.trim`, `String.substring` and `int.parse` of Dart on native platforms, where an
`int` has 64 bits. `none` stands for the `FormatException` or `RangeError` thrown.
-/

namespace Dart

/-- The characters Dart strips before it reads a number. -/
def isSpace (c : Char) : Bool :=
  let n := c.toNat
  9 ≤ n && n ≤ 13 || n == 0x20 || n == 0x85 || n == 0xA0 || n == 0x1680 ||
    0x2000 ≤ n && n ≤ 0x200A || n == 0x2028 || n == 0x2029 || n == 0x202F || n == 0x205F ||
    n == 0x3000 || n == 0xFEFF

def trim (cs : List Char) : List Char :=
  ((cs.dropWhile isSpace).reverse.dropWhile isSpace).reverse

/-- `s.substring(start, stop)`. -/
def substring (s : String) (start stop : ℕ) : Option String :=
  if start ≤ stop ∧ stop ≤ s.toList.length then
    some (String.ofList ((s.toList.drop start).take (stop - start)))
  else none

/-- `s.length`, in UTF-16 code units. -/
def utf16Length (s : String) : ℕ :=
  (s.toList.map fun c => if c.toNat < 0x10000 then 1 else 2).sum

/-- Two's complement reading of the low 64 bits. -/
def wrap64 (n : ℤ) : ℤ := Int.bmod n (2 ^ 64)

def hexDigit (c : Char) : Option ℕ :=
  if c.isDigit then some (c.toNat - '0'.toNat)
  else if 'a' ≤ c ∧ c ≤ 'f' then some (c.toNat - 'a'.toNat + 10)
  else if 'A' ≤ c ∧ c ≤ 'F' then some (c.toNat - 'A'.toNat + 10)
  else none

/-- The digits after `0x`. Without a sign all 64 bits may be used. -/
def parseHex (negative : Bool) (ds : List Char) : Option ℤ := do
  let n ← ds.foldlM (fun (n : ℕ) c => (hexDigit c).map (16 * n + ·)) 0
  if ds = [] then none
  else if negative then (if n ≤ 2 ^ 63 then some (-(n : ℤ)) else none)
  else if n < 2 ^ 64 then some (wrap64 n) else none

def parseDec (negative : Bool) (ds : List Char) : Option ℤ :=
  let n : ℤ := if negative then -(Decimal.value ds : ℤ) else Decimal.value ds
  if ds ≠ [] ∧ ds.all Char.isDigit ∧ -2 ^ 63 ≤ n ∧ n < 2 ^ 63 then some n else none

/-- `int.parse(s)`. -/
def intParse (s : String) : Option ℤ :=
  let (negative, cs) := Decimal.parseSign (trim s.toList)
  match cs with
  | '0' :: 'x' :: ds => parseHex negative ds
  | '0' :: 'X' :: ds => parseHex negative ds
  | ds => parseDec negative ds

/-- An integer of 64 bits is left alone. -/
theorem wrap64_eq {n : ℤ} (h : |n| < 2 ^ 63) : wrap64 n = n := by
  obtain ⟨hl, hr⟩ := abs_lt.1 h
  rw [wrap64, Int.bmod_eq_of_le]
  · norm_num at hl ⊢
    omega
  · norm_num at hr ⊢
    omega

theorem dropWhile_isSpace {cs : List Char} (h : ∀ c ∈ cs, isSpace c = false) :
    cs.dropWhile isSpace = cs := by
  cases cs with
  | nil => rfl
  | cons c cs => simp [h c]

/-- Nothing is stripped from a text without white space. -/
theorem trim_of_forall {cs : List Char} (h : ∀ c ∈ cs, isSpace c = false) : trim cs = cs := by
  have hrev : ∀ c ∈ cs.reverse, isSpace c = false := fun c hc => h c (List.mem_reverse.mp hc)
  rw [trim, dropWhile_isSpace h, dropWhile_isSpace hrev, List.reverse_reverse]

theorem isSpace_of_isDigit {c : Char} (h : c.isDigit) : isSpace c = false := by
  have hc : 48 ≤ c.toNat ∧ c.toNat ≤ 57 := by
    simpa [Char.isDigit, UInt32.le_iff_toNat_le] using h
  simp only [isSpace]
  simp
  omega

example : intParse " -12" = some (-12) ∧ intParse "0xff" = some 255 ∧ intParse "1.5" = none := by
  decide

end Dart
