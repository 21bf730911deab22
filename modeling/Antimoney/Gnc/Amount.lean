import Antimoney.Gnc.Convert
import Mathlib.Algebra.Field.Rat
import Mathlib.Algebra.Order.Ring.Int

/-!
# `FromAmount`

Amounts read from text: `internal/gnc/numeric.go`'s `FromAmount` over `big.Rat.SetString`, which
takes fractions `a/b` and numbers with a sign, a base prefix, a radix point, `_` between digits and
an exponent. A reader is the list of the characters it has not read.

**`fromAmount_exact_iff`**: an amount is kept exactly, or refused, unless it is a whole number of
units outside `int64`.
-/

namespace Antimoney.Gnc

/-! ## `big.Rat.SetString` -/

/-- The digit a character stands for; `MaxBase + 1` for none. -/
def digitVal (ch : Char) : Nat :=
  if '0' ≤ ch ∧ ch ≤ '9' then ch.toNat - '0'.toNat
  else if 'a' ≤ ch ∧ ch ≤ 'z' then ch.toNat - 'a'.toNat + 10
  else if 'A' ≤ ch ∧ ch ≤ 'Z' then ch.toNat - 'A'.toNat + 10
  else 63

/-- The locals of `nat.scan`. `prev` is `'_'`, `'0'` for a digit or `'.'` for anything else; `dp`
is the position of the radix point. -/
structure Scan where
  fracOk : Bool
  prev : Char
  invalSep : Bool
  count : Nat
  dp : Option Nat
  z : Nat

/-- The loop of `nat.scan`, up to the first character that does not belong to the number. -/
def scanDigits (b : Nat) : Scan → List Char → Scan × List Char
  | s, [] => (s, [])
  | s, ch :: rest =>
    if ch = '.' ∧ s.fracOk then
      scanDigits b
        { s with
          fracOk := false
          invalSep := s.invalSep || s.prev == '_'
          prev := '.'
          dp := some s.count } rest
    else if ch = '_' then
      scanDigits b { s with invalSep := s.invalSep || s.prev != '0', prev := '_' } rest
    else if b ≤ digitVal ch then (s, ch :: rest)
    else
      scanDigits b { s with prev := '0', count := s.count + 1, z := s.z * b + digitVal ch } rest

/-- What `nat.scan` makes of the first characters: the base, its prefix, `prev` and `count`, and
what is left. -/
def basePrefix (fracOk : Bool) : List Char → Nat × Option Char × Char × Nat × List Char
  | ['0'] => (10, none, '0', 1, [])
  | '0' :: ch :: rest =>
    if ch = 'b' ∨ ch = 'B' then (2, some 'b', '0', 0, rest)
    else if ch = 'o' ∨ ch = 'O' then (8, some 'o', '0', 0, rest)
    else if ch = 'x' ∨ ch = 'X' then (16, some 'x', '0', 0, rest)
    else if fracOk then (10, none, '0', 1, ch :: rest)
    else (8, some '0', '0', 0, ch :: rest)
  | chars => (10, none, '.', 0, chars)

/-- `nat.scan` with base 0: the number, its base, its digits (negative for those after the radix
point) and what is left. -/
def natScan (chars : List Char) (fracOk : Bool) : Option (Nat × Nat × ℤ × List Char) :=
  let (b, pre, prev, count, chars) := basePrefix fracOk chars
  let (s, rest) := scanDigits b ⟨fracOk, prev, false, count, none, 0⟩ chars
  if s.invalSep || s.prev == '_' then none
  else if s.count = 0 then
    -- the octal prefix alone is a zero
    if pre = some '0' then some (0, 10, 1, rest) else none
  else
    let count : ℤ := match s.dp with
      | some dp => dp - s.count
      | none => s.count
    some (s.z, b, count, rest)

/-- `scanSign`. -/
def scanSign : List Char → Option (Bool × List Char)
  | [] => none
  | '-' :: rest => some (true, rest)
  | '+' :: rest => some (false, rest)
  | chars => some (false, chars)

/-- A sign before a number. -/
def signed (neg : Bool) (n : Nat) : ℤ := if neg then -n else n

/-- The digits of `scanExponent`, an `int64`: they are scanned as those of a number in base 10. -/
def scanExponentDigits (ebase : Nat) (chars : List Char) : Option (ℤ × Nat × List Char) :=
  let (neg, chars) := match chars with
    | '-' :: rest => (true, rest)
    | '+' :: rest => (false, rest)
    | chars => (false, chars)
  let (s, rest) := scanDigits 10 ⟨false, '.', false, 0, none, 0⟩ chars
  let exp := signed neg s.z
  if s.count = 0 then none
  else if exp < -2 ^ 63 ∨ 2 ^ 63 ≤ exp then none
  else if s.invalSep || s.prev == '_' then none
  else some (exp, ebase, rest)

/-- `scanExponent`, with `e` for a power of 10 and `p` for a power of 2. -/
def scanExponent : List Char → Option (ℤ × Nat × List Char)
  | [] => some (0, 10, [])
  | ch :: rest =>
    if ch = 'e' ∨ ch = 'E' then scanExponentDigits 10 rest
    else if ch = 'p' ∨ ch = 'P' then scanExponentDigits 2 rest
    else some (0, 10, ch :: rest)

/-- The part of `SetString` for a number without a `/`. Exponents that leave `int64` here are over
the bounds below, as they would be after wrapping. -/
def ratOfFloat (chars : List Char) : Option ℚ := do
  let (neg, chars) ← scanSign chars
  let (mantissa, base, fcount, chars) ← natScan chars true
  let (exp, ebase, chars) ← scanExponent chars
  if chars ≠ [] then none
  else if mantissa = 0 then some 0
  else
    let d := if fcount < 0 then fcount else 0
    let d5 := if base = 10 then d else 0
    let d2 := if base = 10 ∨ base = 2 then d else if base = 8 then d * 3 else d * 4
    let exp5 := if ebase = 10 then d5 + exp else d5
    let exp2 := d2 + exp
    if 1000000 < |exp5| then none
    else if 10000000 < |exp2| then none
    else some (signed neg mantissa * 5 ^ exp5 * 2 ^ exp2)

/-- The part of `SetString` for a fraction: `Int.SetString` before the `/`, a number without a sign
behind it. -/
def ratOfFraction (numerator denominator : List Char) : Option ℚ := do
  let (neg, chars) ← scanSign numerator
  let (a, _, _, rest) ← natScan chars false
  let (b, _, _, rest') ← natScan denominator false
  if rest ≠ [] ∨ rest' ≠ [] ∨ b = 0 then none
  else some ((signed neg a : ℚ) / b)

/-- `Rat.SetString`. -/
def ratSetString (s : String) : Option ℚ :=
  if '/' ∈ s.toList then
    ratOfFraction (s.toList.takeWhile (· ≠ '/')) ((s.toList.dropWhile (· ≠ '/')).drop 1)
  else ratOfFloat s.toList

/-! ## `FromAmount` -/

namespace Numeric

/-- `FromAmount`, with `Zero()` beside an error. -/
def fromAmount (amount : String) (scu : Int64) : Numeric × Option NumericError :=
  match ratSetString amount with
  | none => (zero, some (.invalidAmount amount))
  | some r =>
    let r := r * scu.toInt
    if ¬ r.isInt then (zero, some (.inexactAmount amount scu))
    else (⟨Int64.ofInt r.num, scu⟩, none)

end Numeric

open Numeric

example : ratSetString "-1_000e-2" = some (-10) := by decide +kernel
example : ratSetString "0x1.8p1" = some 3 := by decide +kernel
example : ratSetString "+07/010" = some (7 / 8) := by decide +kernel

section Amount

variable {amount : String} {scu : Int64} {r : ℚ}

/-- A whole number of units. -/
theorem fromAmount_of_int {k : ℤ} (hr : ratSetString amount = some r) (hk : r * scu.toInt = k) :
    fromAmount amount scu = (⟨Int64.ofInt k, scu⟩, none) := by
  unfold fromAmount
  rw [hr]
  simp only [hk]
  simp [Rat.isInt]

/-- Anything else. -/
theorem fromAmount_of_not_int (hr : ratSetString amount = some r)
    (hk : ∀ k : ℤ, r * scu.toInt ≠ k) :
    fromAmount amount scu = (zero, some (.inexactAmount amount scu)) := by
  have hnot : ¬ (r * scu.toInt).isInt := by
    intro h
    refine hk (r * scu.toInt).num ?_
    have hden : (r * scu.toInt).den = 1 := by simpa [Rat.isInt] using h
    exact ((Rat.den_eq_one_iff _).mp hden).symm
  unfold fromAmount
  rw [hr]
  simp only [hnot, Bool.false_eq_true, not_false_eq_true, if_true]

theorem fromAmount_isNone_iff (hr : ratSetString amount = some r) :
    (fromAmount amount scu).2 = none ↔ ∃ k : ℤ, r * scu.toInt = k := by
  by_cases h : ∃ k : ℤ, r * scu.toInt = k
  · obtain ⟨k, hk⟩ := h
    rw [fromAmount_of_int hr hk]
    exact ⟨fun _ => ⟨k, hk⟩, fun _ => rfl⟩
  · rw [fromAmount_of_not_int hr fun k hk => h ⟨k, hk⟩]
    simp [h]

/-- A number of units that an `int64` holds comes back exactly. -/
theorem fromAmount_value {k : ℤ} (hr : ratSetString amount = some r) (hs : 1 ≤ scu)
    (hk : r * scu.toInt = k) (hge : -2 ^ 63 ≤ k) (hlt : k < 2 ^ 63) :
    (fromAmount amount scu).1.value = r := by
  have hscu : (scu.toInt : ℚ) ≠ 0 := by
    have h1 : (1 : Int64).toInt ≤ scu.toInt := Int64.le_iff_toInt_le.mp hs
    have h2 : (1 : Int64).toInt = 1 := rfl
    have h3 : scu.toInt ≠ 0 := by omega
    exact_mod_cast h3
  rw [fromAmount_of_int hr hk]
  simp only [Numeric.value, Fraction.value, Int64.toInt_ofInt_of_le hge hlt, ← hk]
  rw [mul_div_assoc, div_self hscu, mul_one]

end Amount

/-- **When an amount is kept exactly or refused.** `FromAmount` succeeds just for the amounts that
are a whole number of units within `int64`, and then keeps the amount, unless the amount is a whole
number of units outside `int64`. -/
theorem fromAmount_exact_iff {amount : String} {scu : Int64} {r : ℚ}
    (hr : ratSetString amount = some r) (hs : 1 ≤ scu) :
    (((fromAmount amount scu).2 = none ↔
        ∃ k : ℤ, r * scu.toInt = k ∧ -2 ^ 63 ≤ k ∧ k < 2 ^ 63) ∧
      ((fromAmount amount scu).2 = none → (fromAmount amount scu).1.value = r)) ↔
    ¬ ∃ k : ℤ, r * scu.toInt = k ∧ (k < -2 ^ 63 ∨ 2 ^ 63 ≤ k) := by
  rw [fromAmount_isNone_iff hr]
  constructor
  · rintro ⟨hiff, -⟩ ⟨k, hk, hout⟩
    obtain ⟨l, hl, hge, hlt⟩ := hiff.mp ⟨k, hk⟩
    have hkl : k = l := by exact_mod_cast hk.symm.trans hl
    omega
  · intro hin
    have hfit : ∀ k : ℤ, r * scu.toInt = k → -2 ^ 63 ≤ k ∧ k < 2 ^ 63 := by
      intro k hk
      by_contra hout
      exact hin ⟨k, hk, by omega⟩
    refine ⟨⟨?_, ?_⟩, ?_⟩
    · rintro ⟨k, hk⟩
      exact ⟨k, hk, hfit k hk⟩
    · rintro ⟨k, hk, -⟩
      exact ⟨k, hk⟩
    · rintro ⟨k, hk⟩
      exact fromAmount_value hr hs hk (hfit k hk).1 (hfit k hk).2

/-- Ten and a half, in cents. -/
theorem fromAmount_exact_iff_cents :
    (((fromAmount "10.50" 100).2 = none ↔
        ∃ k : ℤ, (21 / 2 : ℚ) * (100 : Int64).toInt = k ∧ -2 ^ 63 ≤ k ∧ k < 2 ^ 63) ∧
      ((fromAmount "10.50" 100).2 = none → (fromAmount "10.50" 100).1.value = 21 / 2)) ↔
    ¬ ∃ k : ℤ, (21 / 2 : ℚ) * (100 : Int64).toInt = k ∧ (k < -2 ^ 63 ∨ 2 ^ 63 ≤ k) :=
  fromAmount_exact_iff (by decide +kernel) (by decide)

/-- The smallest amount in cents above `int64` becomes the least of all amounts. -/
theorem fromAmount_wraps : ¬ ∀ (amount : String) (scu : Int64) (r : ℚ),
    ratSetString amount = some r → 1 ≤ scu →
      ((fromAmount amount scu).2 = none ↔
        ∃ k : ℤ, r * scu.toInt = k ∧ -2 ^ 63 ≤ k ∧ k < 2 ^ 63) ∧
      ((fromAmount amount scu).2 = none → (fromAmount amount scu).1.value = r) := by
  intro h
  have hr : ratSetString "92233720368547758.08" = some (2 ^ 63 / 100) := by decide +kernel
  obtain ⟨-, hval⟩ := h _ 100 _ hr (by decide)
  have hneg : (fromAmount "92233720368547758.08" 100).1.value = -2 ^ 63 / 100 := by decide +kernel
  rw [hval (by decide +kernel)] at hneg
  norm_num at hneg

end Antimoney.Gnc
