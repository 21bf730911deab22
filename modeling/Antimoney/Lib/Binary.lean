import Antimoney.Lib.Rounding
import Mathlib.Algebra.Order.Round
import Mathlib.Data.Int.Log

/-!
# Binary floating point

Rounding to the nearest number of `p` binary digits, ties to even, with an exponent of any size:
`binary p`. It is odd, exact on what has `p` digits already, and off by at most `2 ^ -p` of the
number.
-/

namespace Antimoney.Lib

variable {K : Type} [Field K] [LinearOrder K]

theorem NearestEven.neg {q : K} {r : ℤ} (h : NearestEven q r) : NearestEven (-q) (-r) := by
  have hq : -q - ((-r : ℤ) : K) = -(q - r) := by
    push_cast
    ring
  constructor
  · rw [hq, abs_neg]
    exact h.near
  · intro he
    rw [hq, abs_neg] at he
    exact (h.even he).neg

/-- An integer less than half away is the nearest. -/
theorem nearestEven_of_lt {q : K} {r : ℤ} (h : |q - r| < 1 / 2) : NearestEven q r :=
  ⟨h.le, fun he => absurd he h.ne⟩

variable [IsStrictOrderedRing K] [FloorRing K]

/-- The nearest integer, the even one when there are two. -/
def roundEven (q : K) : ℤ :=
  if q - ⌊q⌋ < 1 / 2 then ⌊q⌋
  else if 1 / 2 < q - ⌊q⌋ then ⌊q⌋ + 1
  else if ⌊q⌋ % 2 = 0 then ⌊q⌋ else ⌊q⌋ + 1

theorem nearestEven_roundEven (q : K) : NearestEven q (roundEven q) := by
  have h0 : (⌊q⌋ : K) ≤ q := Int.floor_le q
  have h1 : q < ⌊q⌋ + 1 := Int.lt_floor_add_one q
  unfold roundEven
  split
  case isTrue h =>
    refine nearestEven_of_lt ?_
    rwa [abs_of_nonneg (by linarith)]
  case isFalse h =>
    split
    case isTrue h' =>
      refine nearestEven_of_lt ?_
      push_cast
      rw [abs_of_nonpos (by linarith)]
      linarith
    case isFalse h' =>
      have hhalf : q - ⌊q⌋ = 1 / 2 := le_antisymm (not_lt.mp h') (not_lt.mp h)
      split
      case isTrue he =>
        exact ⟨by rw [hhalf, abs_of_pos (by norm_num)], fun _ => Int.even_iff.mpr he⟩
      case isFalse he =>
        have hq : q - ((⌊q⌋ + 1 : ℤ) : K) = -(1 / 2) := by
          push_cast
          linarith
        refine ⟨by rw [hq, abs_neg, abs_of_pos (by norm_num)], fun _ => ?_⟩
        exact Int.even_iff.mpr (by omega)

theorem NearestEven.roundEven_eq {q : K} {r : ℤ} (h : NearestEven q r) : roundEven q = r :=
  NearestEven.unique (nearestEven_roundEven q) h

theorem roundEven_intCast (r : ℤ) : roundEven (r : K) = r := (NearestEven.intCast r).roundEven_eq

theorem roundEven_neg (q : K) : roundEven (-q) = -roundEven q :=
  (nearestEven_roundEven q).neg.roundEven_eq

/-- The weight of the last of `p` binary digits of `q`, as a power of two. -/
def lastPlace (p : ℕ) (q : K) : ℤ := Int.log 2 |q| + 1 - p

/-- `q` rounded to `p` binary digits. -/
def binary (p : ℕ) (q : K) : K := roundEven (q / 2 ^ lastPlace p q) * 2 ^ lastPlace p q

theorem two_zpow_pos (e : ℤ) : (0 : K) < 2 ^ e := zpow_pos two_pos e

/-- The weight is that of the digits a number between two powers of two has. -/
theorem lastPlace_eq {p : ℕ} {q : K} {e : ℤ} (hlo : (2 : K) ^ (e + p - 1) ≤ |q|)
    (hhi : |q| < 2 ^ (e + p)) : lastPlace p q = e := by
  have hq : 0 < |q| := lt_of_lt_of_le (two_zpow_pos _) hlo
  have h1 : e + p - 1 ≤ Int.log 2 |q| :=
    (Int.zpow_le_iff_le_log one_lt_two hq).mp (by exact_mod_cast hlo)
  have h2 : Int.log 2 |q| < e + p :=
    (Int.lt_zpow_iff_log_lt one_lt_two hq).mp (by exact_mod_cast hhi)
  unfold lastPlace
  omega

theorem lastPlace_le {p : ℕ} {q : K} (hq : q ≠ 0) : (2 : K) ^ (lastPlace p q + p - 1) ≤ |q| := by
  have h : ((2 : ℕ) : K) ^ Int.log 2 |q| ≤ |q| :=
    Int.zpow_log_le_self one_lt_two (abs_pos.mpr hq)
  have he : lastPlace p q + p - 1 = Int.log 2 |q| := by
    unfold lastPlace
    omega
  rw [he]
  exact_mod_cast h

theorem lt_lastPlace (p : ℕ) (q : K) : |q| < (2 : K) ^ (lastPlace p q + p) := by
  have h : |q| < ((2 : ℕ) : K) ^ (Int.log 2 |q| + 1) := Int.lt_zpow_succ_log_self one_lt_two _
  have he : lastPlace p q + p = Int.log 2 |q| + 1 := by
    unfold lastPlace
    omega
  rw [he]
  exact_mod_cast h

theorem binary_neg (p : ℕ) (q : K) : binary p (-q) = -binary p q := by
  unfold binary lastPlace
  rw [abs_neg, neg_div, roundEven_neg]
  push_cast
  ring

@[simp] theorem binary_zero (p : ℕ) : binary p (0 : K) = 0 := by
  unfold binary
  have h : roundEven ((0 : K)) = 0 := by
    exact_mod_cast roundEven_intCast (K := K) 0
  rw [zero_div, h]
  simp

/-- Scaled so that its `p` digits stand before the point, the number is rounded to an integer. -/
theorem binary_eq {p : ℕ} {q : K} {e m : ℤ} (hlo : (2 : K) ^ (e + p - 1) ≤ |q|)
    (hhi : |q| < 2 ^ (e + p)) (hm : NearestEven (q / 2 ^ e) m) : binary p q = m * 2 ^ e := by
  unfold binary
  rw [lastPlace_eq hlo hhi, hm.roundEven_eq]

/-- **The error is at most `2 ^ -p` of the number.** -/
theorem binary_error (p : ℕ) (q : K) : |binary p q - q| * 2 ^ p ≤ |q| := by
  by_cases hq : q = 0
  · subst hq
    simp
  set e := lastPlace p q with he
  have hpos : (0 : K) < 2 ^ e := two_zpow_pos e
  have hround : |q / 2 ^ e - roundEven (q / 2 ^ e)| ≤ 1 / 2 := (nearestEven_roundEven _).near
  have hdiff : binary p q - q = -(q / 2 ^ e - roundEven (q / 2 ^ e)) * 2 ^ e := by
    unfold binary
    rw [← he]
    field_simp
    ring
  have hulp : (2 : K) ^ (e + p - 1) = 1 / 2 * (2 ^ e * 2 ^ p) := by
    rw [zpow_sub₀ two_ne_zero, zpow_add₀ two_ne_zero, zpow_one, zpow_natCast]
    ring
  calc |binary p q - q| * 2 ^ p
      = |q / 2 ^ e - roundEven (q / 2 ^ e)| * (2 ^ e * 2 ^ p) := by
        rw [hdiff, abs_mul, abs_neg, abs_of_pos hpos, mul_assoc]
    _ ≤ 1 / 2 * (2 ^ e * 2 ^ p) :=
        mul_le_mul_of_nonneg_right hround (by positivity)
    _ = 2 ^ (e + p - 1) := hulp.symm
    _ ≤ |q| := lastPlace_le hq

/-- A multiple of a power of two by an integer of `p` digits is not rounded. -/
theorem binary_exact {p : ℕ} {m : ℤ} (hm : |m| < 2 ^ p) (e : ℤ) :
    binary p ((m : K) * 2 ^ e) = m * 2 ^ e := by
  by_cases h0 : m = 0
  · subst h0
    simp
  set q : K := m * 2 ^ e with hq
  have hq0 : q ≠ 0 := mul_ne_zero (by exact_mod_cast h0) (two_zpow_pos e).ne'
  have habs : |q| < 2 ^ (e + p) := by
    have hcast : |(m : K)| < 2 ^ p := by exact_mod_cast hm
    have hpos : |(2 : K) ^ e| = 2 ^ e := abs_of_pos (two_zpow_pos e)
    rw [hq, abs_mul, hpos, zpow_add₀ two_ne_zero, zpow_natCast, mul_comm]
    exact mul_lt_mul_of_pos_left hcast (two_zpow_pos e)
  -- the last place of `q` weighs no more than `2 ^ e`, so `q` is a whole number of it
  have hle : lastPlace p q ≤ e := by
    have h := lt_of_le_of_lt (lastPlace_le (p := p) hq0) habs
    have := (zpow_lt_zpow_iff_right₀ (one_lt_two (α := K))).mp h
    omega
  obtain ⟨k, hk⟩ := Int.eq_ofNat_of_zero_le (Int.sub_nonneg.mpr hle)
  have hwhole : q / 2 ^ lastPlace p q = ((m * 2 ^ k : ℤ) : K) := by
    rw [hq, mul_div_assoc, ← zpow_sub₀ two_ne_zero, hk, zpow_natCast]
    push_cast
    ring
  unfold binary
  rw [hwhole, roundEven_intCast, ← hwhole, div_mul_cancel₀ _ (two_zpow_pos _).ne']

theorem binary_intCast {p : ℕ} {m : ℤ} (hm : |m| < 2 ^ p) : binary p (m : K) = m := by
  have h := binary_exact (K := K) hm 0
  rwa [zpow_zero, mul_one] at h

end Antimoney.Lib
