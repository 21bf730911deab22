import Mathlib.Algebra.Order.Floor.Ring
import Mathlib.Algebra.Order.Field.Basic
import Mathlib.Algebra.Ring.Int.Parity
import Mathlib.Tactic.FieldSimp
import Mathlib.Tactic.Linarith
import Mathlib.Tactic.Ring

/-!
# Rounding a quotient of integers

Rounding toward zero and to the nearest integer with ties to even, over any ordered field with a
floor, and what each rounding of `n / d` is in terms of the quotient and remainder of a Euclidean
division by a positive `d`.
-/

namespace Antimoney.Lib

variable {K : Type} [Field K] [LinearOrder K] [IsStrictOrderedRing K]

/-- `r` is an integer nearest to `q`, and the even one when there are two. -/
structure NearestEven (q : K) (r : ℤ) : Prop where
  near : |q - r| ≤ 1 / 2
  even : |q - r| = 1 / 2 → Even r

/-- No two integers are nearest. -/
theorem NearestEven.unique {q : K} {r s : ℤ} (hr : NearestEven q r) (hs : NearestEven q s) :
    r = s := by
  have hr' := abs_le.mp hr.near
  have hs' := abs_le.mp hs.near
  have hle : ∀ {a b : ℤ}, |q - a| ≤ 1 / 2 → |q - b| ≤ 1 / 2 → a ≤ b + 1 := by
    intro a b ha hb
    have ha' := abs_le.mp ha
    have hb' := abs_le.mp hb
    have h : (a : K) ≤ ((b + 1 : ℤ) : K) := by
      push_cast
      linarith
    exact_mod_cast h
  -- two integers half a unit away on either side are neighbours, and one of them is odd
  have hfar : ∀ {a b : ℤ}, NearestEven q a → NearestEven q b → b ≠ a + 1 := by
    rintro a b ha hb rfl
    have ha' := abs_le.mp ha.near
    have hb' := abs_le.mp hb.near
    push_cast at hb'
    have hq : q - a = 1 / 2 := by linarith
    have hq' : q - ((a + 1 : ℤ) : K) = -(1 / 2) := by
      push_cast
      linarith
    have hea : Even a := ha.even (by rw [hq, abs_of_pos (by norm_num)])
    have heb : Even (a + 1) := hb.even (by rw [hq', abs_neg, abs_of_pos (by norm_num)])
    exact (Int.even_add_one.mp heb) hea
  have h1 := hle hr.near hs.near
  have h2 := hle hs.near hr.near
  have h3 := hfar hr hs
  have h4 := hfar hs hr
  omega

theorem NearestEven.intCast (r : ℤ) : NearestEven (r : K) r := by
  constructor
  · simp
  · intro h
    norm_num at h

section Quotient

variable {n d : ℤ}

theorem div_eq_quo_add (hd : 0 < d) :
    (n : K) / d = ((n / d : ℤ) : K) + ((n % d : ℤ) : K) / d := by
  have hd' : (d : K) ≠ 0 := by exact_mod_cast hd.ne'
  have hn : ((d * (n / d) + n % d : ℤ) : K) = n := by rw [Int.mul_ediv_add_emod]
  push_cast at hn
  field_simp
  linarith

theorem rem_div_nonneg (hd : 0 < d) : 0 ≤ ((n % d : ℤ) : K) / d := by
  have h : (0 : K) ≤ ((n % d : ℤ) : K) := by exact_mod_cast Int.emod_nonneg n hd.ne'
  exact div_nonneg h (by exact_mod_cast hd.le)

theorem rem_div_lt_one (hd : 0 < d) : ((n % d : ℤ) : K) / d < 1 := by
  rw [div_lt_one (by exact_mod_cast hd)]
  exact_mod_cast Int.emod_lt_of_pos n hd

theorem rem_div_pos (hd : 0 < d) (hr : n % d ≠ 0) : 0 < ((n % d : ℤ) : K) / d := by
  have h : 0 < n % d := lt_of_le_of_ne (Int.emod_nonneg n hd.ne') (Ne.symm hr)
  exact div_pos (by exact_mod_cast h) (by exact_mod_cast hd)

theorem rem_div_lt_half (hd : 0 < d) : ((n % d : ℤ) : K) / d < 1 / 2 ↔ n % d * 2 < d := by
  rw [div_lt_div_iff₀ (by exact_mod_cast hd) (by norm_num), one_mul]
  exact_mod_cast Iff.rfl

theorem half_lt_rem_div (hd : 0 < d) : 1 / 2 < ((n % d : ℤ) : K) / d ↔ d < n % d * 2 := by
  rw [div_lt_div_iff₀ (by norm_num) (by exact_mod_cast hd), one_mul]
  exact_mod_cast Iff.rfl

/-- Less than half of the divisor remains: the quotient is nearest. -/
theorem nearestEven_quo (hd : 0 < d) (h : n % d * 2 < d) :
    NearestEven ((n : K) / d) (n / d) := by
  have hq : (n : K) / d - ((n / d : ℤ) : K) = ((n % d : ℤ) : K) / d := by
    rw [div_eq_quo_add hd, add_sub_cancel_left]
  have hlt : |(n : K) / d - ((n / d : ℤ) : K)| < 1 / 2 := by
    rw [hq, abs_of_nonneg (rem_div_nonneg hd)]
    exact (rem_div_lt_half hd).mpr h
  exact ⟨hlt.le, fun he => absurd he hlt.ne⟩

/-- More than half of it remains: the next integer is nearest. -/
theorem nearestEven_quo_succ (hd : 0 < d) (h : d < n % d * 2) :
    NearestEven ((n : K) / d) (n / d + 1) := by
  have hq : (n : K) / d - ((n / d + 1 : ℤ) : K) = ((n % d : ℤ) : K) / d - 1 := by
    rw [div_eq_quo_add hd]
    push_cast
    ring
  have hlt : |(n : K) / d - ((n / d + 1 : ℤ) : K)| < 1 / 2 := by
    have h1 : ((n % d : ℤ) : K) / d < 1 := rem_div_lt_one hd
    have h2 : 1 / 2 < ((n % d : ℤ) : K) / d := (half_lt_rem_div hd).mpr h
    rw [hq, abs_of_nonpos (by linarith)]
    linarith
  exact ⟨hlt.le, fun he => absurd he hlt.ne⟩

/-- Exactly half of it remains: the even neighbour is nearest. -/
theorem nearestEven_tie (hd : 0 < d) (h : n % d * 2 = d) {r : ℤ} (hr : r = n / d ∨ r = n / d + 1)
    (he : Even r) : NearestEven ((n : K) / d) r := by
  have hhalf : ((n % d : ℤ) : K) / d = 1 / 2 := by
    rw [div_eq_div_iff (by exact_mod_cast hd.ne') (by norm_num), one_mul]
    exact_mod_cast h
  refine ⟨le_of_eq ?_, fun _ => he⟩
  rcases hr with rfl | rfl
  · rw [div_eq_quo_add hd, hhalf, add_sub_cancel_left, abs_of_pos (by norm_num)]
  · rw [div_eq_quo_add hd, hhalf]
    push_cast
    have hq : ((n / d : ℤ) : K) + 1 / 2 - (((n / d : ℤ) : K) + 1) = -(1 / 2) := by ring
    rw [hq, abs_neg, abs_of_pos (by norm_num)]

variable [FloorRing K]

/-- Rounding toward zero. -/
def towardZero (q : K) : ℤ := if 0 ≤ q then ⌊q⌋ else ⌈q⌉

/-- Euclidean division by a positive integer rounds down. -/
theorem floor_div_int (hd : 0 < d) : ⌊(n : K) / d⌋ = n / d := by
  rw [Int.floor_eq_iff, div_eq_quo_add hd]
  have h0 : 0 ≤ ((n % d : ℤ) : K) / d := rem_div_nonneg hd
  have h1 : ((n % d : ℤ) : K) / d < 1 := rem_div_lt_one hd
  constructor <;> linarith

theorem ceil_div_int (hd : 0 < d) (hr : n % d ≠ 0) : ⌈(n : K) / d⌉ = n / d + 1 := by
  rw [Int.ceil_eq_iff, div_eq_quo_add hd]
  have h0 : 0 < ((n % d : ℤ) : K) / d := rem_div_pos hd hr
  have h1 : ((n % d : ℤ) : K) / d < 1 := rem_div_lt_one hd
  push_cast
  constructor <;> linarith

theorem towardZero_div_int (hd : 0 < d) (hr : n % d ≠ 0) :
    towardZero ((n : K) / d) = if n < 0 then n / d + 1 else n / d := by
  have hd' : (0 : K) < d := by exact_mod_cast hd
  unfold towardZero
  by_cases hn : n < 0
  · have hneg : ¬ 0 ≤ (n : K) / d := not_le.mpr (div_neg_of_neg_of_pos (by exact_mod_cast hn) hd')
    rw [if_neg hneg, if_pos hn, ceil_div_int hd hr]
  · have hpos : 0 ≤ (n : K) / d := div_nonneg (by exact_mod_cast not_lt.mp hn) hd'.le
    rw [if_pos hpos, if_neg hn, floor_div_int hd]

/-- An integer is rounded to itself. -/
theorem towardZero_intCast (r : ℤ) : towardZero (r : K) = r := by
  unfold towardZero
  split <;> simp

end Quotient

end Antimoney.Lib
