import Antimoney.Lib.Binary
import Mathlib.Data.Rat.Floor

/-!
# Amounts as floats

The 64-bit floats of `internal/plaid/client.go`, of the CSV import and of the frontend are exact
rationals rounded to 53 binary digits: the exponent is not bounded, so nothing overflows to an
infinity or loses digits near zero.

**`cents_exact`**: a bank's amount and a form's amount that mean a whole number of cents come out
as that number, up to `2 ^ 50`.
-/

namespace Antimoney

open Lib

/-- The 64-bit float nearest to a rational. -/
def float64 (q : ℚ) : ℚ := binary 53 q

/-- Go's `math.Round`: the nearest integer, half away from zero. -/
def goRound (q : ℚ) : ℤ := if 0 ≤ q then ⌊q + 1 / 2⌋ else ⌈q - 1 / 2⌉

/-- JavaScript's `Math.round`: the nearest integer, half upwards. -/
def mathRound (q : ℚ) : ℤ := ⌊q + 1 / 2⌋

/-- Go's `int64(f)` truncates; what does not fit becomes the least `int64` (as on amd64). -/
def goInt64 (q : ℚ) : Int64 :=
  if -2 ^ 63 ≤ towardZero q ∧ towardZero q < 2 ^ 63 then Int64.ofInt (towardZero q)
  else Int64.minValue

/-- `amountNum` of `convertTxns`: `int64(math.Round(t.GetAmount() * 100))`. -/
def amountNum (amount : ℚ) : Int64 := goInt64 (goRound (float64 (amount * 100)) : ℚ)

/-- `valueNum` of `handleSubmit`: `Math.round(amount * 100)`. -/
def formValueNum (amount : ℚ) : ℤ := mathRound (float64 (amount * 100))

theorem goRound_of_near {q : ℚ} {c : ℤ} (h : |q - c| < 1 / 2) : goRound q = c := by
  obtain ⟨hlo, hhi⟩ := abs_lt.mp h
  unfold goRound
  split
  · rw [Int.floor_eq_iff]
    constructor <;> linarith
  · rw [Int.ceil_eq_iff]
    constructor <;> linarith

theorem mathRound_of_near {q : ℚ} {c : ℤ} (h : |q - c| < 1 / 2) : mathRound q = c := by
  obtain ⟨hlo, hhi⟩ := abs_lt.mp h
  unfold mathRound
  rw [Int.floor_eq_iff]
  constructor <;> linarith

theorem goInt64_intCast {c : ℤ} (hlo : -2 ^ 63 ≤ c) (hhi : c < 2 ^ 63) :
    (goInt64 (c : ℚ)).toInt = c := by
  unfold goInt64
  rw [towardZero_intCast, if_pos ⟨hlo, hhi⟩, Int64.toInt_ofInt_of_le hlo hhi]

/-- Both roundings to binary together move a number of cents by less than half a cent. -/
theorem product_near {c : ℤ} (hc : |c| ≤ 2 ^ 50) :
    |float64 (float64 ((c : ℚ) / 100) * 100) - c| < 1 / 2 := by
  set v := float64 ((c : ℚ) / 100) with hv
  have hcq : |(c : ℚ)| ≤ 2 ^ 50 := by exact_mod_cast hc
  have h1 : |v - (c : ℚ) / 100| * 2 ^ 53 ≤ |(c : ℚ) / 100| := binary_error 53 _
  have h2 : |float64 (v * 100) - v * 100| * 2 ^ 53 ≤ |v * 100| := binary_error 53 _
  have hcent : |v * 100 - c| ≤ 1 / 8 := by
    have he : v * 100 - c = (v - (c : ℚ) / 100) * 100 := by ring
    rw [he, abs_mul, abs_of_pos (by norm_num : (0 : ℚ) < 100)]
    rw [abs_div, abs_of_pos (by norm_num : (0 : ℚ) < 100)] at h1
    linarith
  have hsize : |v * 100| ≤ 2 ^ 50 + 1 / 8 := by
    have h := abs_add_le (v * 100 - c) c
    rw [sub_add_cancel] at h
    linarith
  have hprod : |float64 (v * 100) - v * 100| < 1 / 4 := by linarith
  have htri := abs_add_le (float64 (v * 100) - v * 100) (v * 100 - c)
  rw [sub_add_sub_cancel] at htri
  linarith

/-- **A float that means whole cents is converted to these cents**, by the bank's client and by the
form. -/
theorem cents_exact (c : ℤ) (hc : |c| ≤ 2 ^ 50) :
    (amountNum (float64 ((c : ℚ) / 100))).toInt = c ∧
      formValueNum (float64 ((c : ℚ) / 100)) = c := by
  have hnear := product_near hc
  obtain ⟨hlo, hhi⟩ := abs_le.mp hc
  constructor
  · unfold amountNum
    rw [goRound_of_near hnear]
    exact goInt64_intCast (by omega) (by omega)
  · exact mathRound_of_near hnear

/-- The amount of the comment in `convertTxns`: `0.29`. -/
theorem cents_exact_comment :
    (amountNum (float64 ((29 : ℤ) / 100))).toInt = 29 ∧
      formValueNum (float64 ((29 : ℤ) / 100)) = 29 :=
  cents_exact 29 (by decide)

end Antimoney
