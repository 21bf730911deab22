import Antimoney.Gnc.Numeric
import Antimoney.Lib.Euclid
import Mathlib.Data.Nat.Prime.Basic
import Mathlib.Algebra.Order.Ring.Int
import Mathlib.Algebra.Order.Field.Rat

/-!
# `Reduce`

The rest of `internal/gnc/numeric.go`: `gcd` runs on absolute values that wrap. The least `int64`
is its own absolute value, so that `gcd` starts with two signs, the remainders alternate, and the
last one may be negative.

Headline:
* **`reduce_normal_iff`**: fractions of one value reduce to one fraction in lowest terms unless a
  numerator is the least `int64` and Euclid's algorithm takes an even number of divisions.
-/

namespace Antimoney.Gnc

open Antimoney.Lib

theorem toInt_eq_zero_iff {x : Int64} : x.toInt = 0 ↔ x = 0 := by
  rw [← Int64.toInt_inj, Int64.toInt_zero]

/-- `gcd`: Go's remainder has the sign of the dividend. -/
def gcd (a b : Int64) : Int64 :=
  if b = 0 then a else gcd b (a % b)
termination_by b.toInt.natAbs
decreasing_by
  rename_i hb
  rw [Int64.toInt_mod, Int.natAbs_tmod]
  exact Nat.mod_lt _ (Int.natAbs_pos.mpr fun h => hb (toInt_eq_zero_iff.mp h))

/-- `abs64`: a negation that wraps. -/
def abs64 (n : Int64) : Int64 := if n < 0 then -n else n

/-- `Reduce`. A division by zero is `none`. -/
def Numeric.reduce (n : Numeric) : Option Numeric :=
  if n.num = 0 then some ⟨0, 1⟩
  else
    let g := gcd (abs64 n.num) (abs64 n.denom)
    if g = 0 then none else some ⟨n.num / g, n.denom / g⟩

/-! ## Absolute values -/

theorem toInt_abs64 {x : Int64} (h : x ≠ Int64.minValue) :
    (abs64 x).toInt = (x.toInt.natAbs : ℤ) := by
  unfold abs64
  split_ifs with hx
  · rw [toInt_neg_of_ne h]
    rw [toInt_neg_iff] at hx
    omega
  · rw [toInt_neg_iff] at hx
    omega

theorem abs64_minValue : abs64 Int64.minValue = Int64.minValue := by decide

theorem natAbs_abs64 (x : Int64) : (abs64 x).toInt.natAbs = x.toInt.natAbs := by
  by_cases h : x = Int64.minValue
  · rw [h, abs64_minValue]
  · rw [toInt_abs64 h, Int.natAbs_natCast]

/-! ## Euclid's algorithm on `int64`s -/

theorem gcd_zero (a : Int64) : gcd a 0 = a := by
  rw [gcd, if_pos rfl]

theorem gcd_step {b : Int64} (hb : b ≠ 0) (a : Int64) : gcd a b = gcd b (a % b) := by
  rw [gcd, if_neg hb]

/-- Up to its sign, `gcd` is the greatest common divisor. -/
theorem natAbs_gcd (a b : Int64) :
    (gcd a b).toInt.natAbs = Nat.gcd a.toInt.natAbs b.toInt.natAbs := by
  induction a, b using gcd.induct with
  | case1 a =>
    rw [gcd_zero, Int64.toInt_zero, Int.natAbs_zero, Nat.gcd_zero_right]
  | case2 a b hb ih =>
    rw [gcd_step hb, ih, Int64.toInt_mod, Int.natAbs_tmod, gcd_mod]

/-- From two numbers that are not negative, `gcd` is not negative. -/
theorem gcd_nonneg {a b : Int64} (ha : 0 ≤ a.toInt) (hb : 0 ≤ b.toInt) :
    0 ≤ (gcd a b).toInt := by
  induction a, b using gcd.induct with
  | case1 a =>
    rw [gcd_zero]
    exact ha
  | case2 a b h ih =>
    rw [gcd_step h]
    apply ih hb
    rw [Int64.toInt_mod]
    exact Int.tmod_nonneg _ ha

/-- From numbers of opposite signs, each division changes the sign of what comes out. -/
theorem gcd_pos_iff (a b : Int64) :
    (a.toInt < 0 → 0 < b.toInt →
      (0 < (gcd a b).toInt ↔ Odd (divisions a.toInt.natAbs b.toInt.natAbs))) ∧
    (0 < a.toInt → b.toInt < 0 →
      (0 < (gcd a b).toInt ↔ Even (divisions a.toInt.natAbs b.toInt.natAbs))) := by
  induction a, b using gcd.induct with
  | case1 a =>
    rw [Int64.toInt_zero]
    constructor <;> intro _ h <;> omega
  | case2 a b hb ih =>
    have hpos : 0 < b.toInt.natAbs := Int.natAbs_pos.mpr fun h => hb (toInt_eq_zero_iff.mp h)
    rw [gcd_step hb, divisions_pos hpos]
    have hr : (a % b).toInt = a.toInt.tmod b.toInt := Int64.toInt_mod a b
    by_cases hz : a % b = 0
    · -- the last division: what comes out is `b`
      have hm : a.toInt.natAbs % b.toInt.natAbs = 0 := by
        rw [← Int.natAbs_tmod, ← hr, hz, Int64.toInt_zero, Int.natAbs_zero]
      rw [hz, gcd_zero, hm, divisions_zero]
      constructor
      · intro _ h
        exact iff_of_true h (by decide)
      · intro _ h
        exact iff_of_false (by omega) (by decide)
    · -- the remainder has the sign of `a`, and `b` comes first
      have hne : (a % b).toInt ≠ 0 := fun h => hz (toInt_eq_zero_iff.mp h)
      rw [hr] at ih hne
      rw [Int.natAbs_tmod] at ih
      constructor
      · intro ha h
        rw [Nat.odd_add_one, Nat.not_odd_iff_even]
        apply ih.2 h
        have hle : 0 ≤ (-a.toInt).tmod b.toInt := Int.tmod_nonneg _ (by omega)
        rw [Int.neg_tmod] at hle
        omega
      · intro ha h
        rw [Nat.even_add_one, Nat.not_even_iff_odd]
        apply ih.1 h
        have hle : 0 ≤ a.toInt.tmod b.toInt := Int.tmod_nonneg _ (by omega)
        omega

/-! ## The divisor of a fraction -/

namespace Numeric

/-- The divisor of `Reduce`. -/
def divisor (n : Numeric) : Int64 := gcd (abs64 n.num) (abs64 n.denom)

theorem natAbs_divisor (n : Numeric) :
    n.divisor.toInt.natAbs = Nat.gcd n.num.toInt.natAbs n.denom.toInt.natAbs := by
  rw [divisor, natAbs_gcd, natAbs_abs64, natAbs_abs64]

/-- Where the numerator is the least `int64`: some multiple of it, by at most half of the
denominator over the common divisor, is one common divisor past a multiple of the denominator. -/
def Straight (n : Numeric) : Prop :=
  n.num = Int64.minValue →
    ∃ x : ℕ, 2 * x * Nat.gcd (2 ^ 63) n.denom.toInt.natAbs ≤ n.denom.toInt.natAbs ∧
      n.denom.toInt.natAbs ∣ 2 ^ 63 * x + Nat.gcd (2 ^ 63) n.denom.toInt.natAbs

end Numeric

/-- A number below a power of two is not twice what it has in common with it. -/
theorem ne_two_mul_gcd {b k : ℕ} (hb : 0 < b) (hk : b < 2 ^ k) : b ≠ 2 * Nat.gcd (2 ^ k) b := by
  intro h
  obtain ⟨i, -, hi⟩ := (Nat.dvd_prime_pow Nat.prime_two).mp (Nat.gcd_dvd_left (2 ^ k) b)
  have hb2 : b = 2 ^ (i + 1) := by rw [pow_succ', ← hi, ← h]
  have hlt : i + 1 < k := (Nat.pow_lt_pow_iff_right (by omega)).mp (hb2 ▸ hk)
  have hdvd : b ∣ 2 ^ k := hb2 ▸ pow_dvd_pow 2 hlt.le
  rw [Nat.gcd_eq_right hdvd] at h
  omega

open Numeric

variable {n m : Numeric}

theorem divisor_ne_zero (hd : 0 < n.denom) : n.divisor.toInt ≠ 0 := by
  have hd' : 0 < n.denom.toInt := Int64.lt_iff_toInt_lt.mp hd
  rw [← Int.natAbs_ne_zero, natAbs_divisor]
  exact Nat.gcd_ne_zero_right (Int.natAbs_ne_zero.mpr (by omega))

/-- **The sign of the divisor.** -/
theorem divisor_pos_iff (hd : 0 < n.denom) : 0 < n.divisor.toInt ↔ n.Straight := by
  have hd' : 0 < n.denom.toInt := Int64.lt_iff_toInt_lt.mp hd
  have hne : n.denom ≠ Int64.minValue := by
    rintro h
    rw [h] at hd
    exact absurd hd (by decide)
  have habs : (abs64 n.denom).toInt = (n.denom.toInt.natAbs : ℤ) := toInt_abs64 hne
  by_cases hm : n.num = Int64.minValue
  · have hlt : n.denom.toInt.natAbs < 2 ^ 63 := by
      have := n.denom.toInt_lt
      omega
    rw [divisor, hm, abs64_minValue]
    rw [(gcd_pos_iff Int64.minValue (abs64 n.denom)).1 (by decide) (by omega), natAbs_abs64]
    rw [Straight, forall_prop_of_true hm]
    exact odd_divisions_iff (by omega) hlt (ne_two_mul_gcd (by omega) hlt)
  · refine iff_of_true ?_ fun h => absurd h hm
    have hge : 0 ≤ n.divisor.toInt := by
      apply gcd_nonneg
      · rw [toInt_abs64 hm]
        omega
      · omega
    have := divisor_ne_zero hd
    omega

/-! ## Lowest terms -/

theorem reduce_eq (hd : 0 < n.denom) (h0 : n.num ≠ 0) :
    n.reduce = some ⟨n.num / n.divisor, n.denom / n.divisor⟩ := by
  rw [reduce, if_neg h0]
  exact if_neg fun h => divisor_ne_zero hd (toInt_eq_zero_iff.mpr h)

/-- A fraction in lowest terms, of a rational. -/
structure Lowest (r : Numeric) (q : ℚ) : Prop where
  num : r.num.toInt = q.num
  denom : r.denom.toInt = q.den

namespace Lowest

variable {r s : Numeric} {q : ℚ}

theorem value (h : Lowest r q) : r.value = q := by
  rw [Numeric.value, Fraction.value, h.num, h.denom]
  exact_mod_cast Rat.num_div_den q

theorem denom_pos (h : Lowest r q) : 0 < r.denom := by
  rw [Int64.lt_iff_toInt_lt, h.denom, Int64.toInt_zero]
  exact_mod_cast q.den_pos

theorem coprime (h : Lowest r q) : Nat.Coprime r.num.toInt.natAbs r.denom.toInt.natAbs := by
  rw [h.num, h.denom, Int.natAbs_natCast]
  exact q.reduced

theorem unique (h : Lowest r q) (h' : Lowest s q) : r = s := by
  obtain ⟨a, b⟩ := r
  obtain ⟨c, d⟩ := s
  have hn : a = c := Int64.toInt_inj.mp (h.num.trans h'.num.symm)
  have hd : b = d := Int64.toInt_inj.mp (h.denom.trans h'.denom.symm)
  rw [hn, hd]

/-- A fraction without common divisor is in lowest terms. -/
theorem of_coprime (hd : 0 < r.denom) (hv : r.value = q)
    (hc : Nat.Coprime r.num.toInt.natAbs r.denom.toInt.natAbs) : Lowest r q := by
  have hd' : 0 < r.denom.toInt := Int64.lt_iff_toInt_lt.mp hd
  rw [← hv, Numeric.value, Fraction.value]
  exact ⟨(Rat.num_div_eq_of_coprime hd' hc).symm, (Rat.den_div_eq_of_coprime hd' hc).symm⟩

end Lowest

theorem divisor_dvd_num (n : Numeric) : n.divisor.toInt ∣ n.num.toInt := by
  rw [← Int.natAbs_dvd_natAbs, natAbs_divisor]
  exact Nat.gcd_dvd_left _ _

theorem divisor_dvd_denom (n : Numeric) : n.divisor.toInt ∣ n.denom.toInt := by
  rw [← Int.natAbs_dvd_natAbs, natAbs_divisor]
  exact Nat.gcd_dvd_right _ _

/-- Division by a positive divisor is exact. -/
theorem toInt_div_divisor {x : Int64} (hg : 0 < n.divisor.toInt)
    (hx : n.divisor.toInt ∣ x.toInt) : (x / n.divisor).toInt = x.toInt / n.divisor.toInt := by
  have hne : n.divisor ≠ -1 := by
    intro h
    rw [h] at hg
    exact absurd hg (by decide)
  rw [Int64.toInt_div_of_ne_right _ _ hne, Int.tdiv_eq_ediv_of_dvd hx]

/-- With a positive divisor the quotients are in lowest terms. -/
theorem lowest_of_divisor_pos (hd : 0 < n.denom) (hg : 0 < n.divisor.toInt) :
    Lowest ⟨n.num / n.divisor, n.denom / n.divisor⟩ n.value := by
  have hd' : 0 < n.denom.toInt := Int64.lt_iff_toInt_lt.mp hd
  have hnum := toInt_div_divisor hg (divisor_dvd_num n)
  have hden := toInt_div_divisor hg (divisor_dvd_denom n)
  have hgcd : n.divisor.toInt = (Int.gcd n.num.toInt n.denom.toInt : ℤ) := by
    rw [Int.gcd_def, ← natAbs_divisor]
    omega
  have hle : n.divisor.toInt ≤ n.denom.toInt := Int.le_of_dvd hd' (divisor_dvd_denom n)
  apply Lowest.of_coprime
  · rw [Int64.lt_iff_toInt_lt, hden, Int64.toInt_zero]
    exact Int.ediv_pos_of_pos_of_dvd hd' hg.le (divisor_dvd_denom n)
  · rw [Numeric.value, Fraction.value, Numeric.value, Fraction.value, hnum, hden]
    have hq : (n.divisor.toInt : ℚ) ≠ 0 := by exact_mod_cast hg.ne'
    rw [Int.cast_div (divisor_dvd_num n) hq, Int.cast_div (divisor_dvd_denom n) hq]
    exact div_div_div_cancel_right₀ hq _ _
  · rw [hnum, hden, hgcd]
    apply Int.gcd_ediv_gcd_ediv_gcd
    omega

/-- `Reduce` of a straight fraction. -/
theorem reduce_lowest (hd : 0 < n.denom) (hs : n.Straight) :
    ∃ r, n.reduce = some r ∧ Lowest r n.value := by
  by_cases h0 : n.num = 0
  · refine ⟨⟨0, 1⟩, by rw [reduce, if_pos h0], ?_⟩
    have hv : n.value = 0 := by
      rw [Numeric.value, Fraction.value, h0, Int64.toInt_zero, Int.cast_zero, zero_div]
    rw [hv]
    exact ⟨rfl, rfl⟩
  · exact ⟨_, reduce_eq hd h0, lowest_of_divisor_pos hd ((divisor_pos_iff hd).mpr hs)⟩

/-- The least `int64` in a reduced fraction was there before. -/
theorem Lowest.straight {r : Numeric} (h : Lowest r n.value) (hd : 0 < n.denom)
    (hs : n.Straight) : r.Straight := by
  intro hm
  have hd' : 0 < n.denom.toInt := Int64.lt_iff_toInt_lt.mp hd
  obtain ⟨c, hnum, hden⟩ := Rat.num_den_mk (n := n.num.toInt) (d := n.denom.toInt)
    (q := n.value) (by omega) (Rat.intCast_div_eq_divInt _ _)
  rw [← h.num, hm, Int64.toInt_minValue] at hnum
  have hc : 0 < c := by
    have hpos : (0 : ℤ) < n.value.den := by exact_mod_cast n.value.den_pos
    rw [hden] at hd'
    exact (mul_pos_iff_of_pos_right hpos).mp hd'
  -- twice the least `int64` is not one
  have hc1 : c = 1 := by
    have := n.num.le_toInt
    omega
  rw [hc1, one_mul] at hnum hden
  have hr : r.denom = n.denom := Int64.toInt_inj.mp (h.denom.trans hden.symm)
  rw [hr]
  exact hs (Int64.toInt_inj.mp hnum)

/-- What `Reduce` is for: a fraction of the same value in lowest terms. -/
structure Reduces (n r : Numeric) : Prop where
  eq : n.reduce = some r
  value : r.value = n.value
  denom_pos : 0 < r.denom
  coprime : Nat.Coprime r.num.toInt.natAbs r.denom.toInt.natAbs

/-- A divisor below zero leaves a denominator below zero. -/
theorem Reduces.straight {r : Numeric} (h : Reduces n r) (hd : 0 < n.denom) : n.Straight := by
  by_cases h0 : n.num = 0
  · intro hm
    rw [h0] at hm
    exact absurd hm (by decide)
  · rw [← divisor_pos_iff hd]
    by_contra hneg
    have hr := Option.some.inj ((reduce_eq hd h0).symm.trans h.eq)
    have hpos := Int64.lt_iff_toInt_lt.mp h.denom_pos
    have hd' := Int64.lt_iff_toInt_lt.mp hd
    have hne : n.denom ≠ Int64.minValue := by
      rintro e
      rw [e] at hd
      exact absurd hd (by decide)
    rw [← hr, Int64.toInt_div_of_ne_left _ _ hne] at hpos
    have hle : 0 ≤ n.denom.toInt.tdiv (-n.divisor.toInt) :=
      Int.tdiv_nonneg hd'.le (by omega)
    rw [Int.tdiv_neg] at hle
    exact absurd hpos (by simp only [Int64.toInt_zero]; omega)

theorem exists_reduces (hd : 0 < n.denom) (hs : n.Straight) :
    ∃ r, Reduces n r ∧ Lowest r n.value := by
  obtain ⟨r, hr, hl⟩ := reduce_lowest hd hs
  exact ⟨r, ⟨hr, hl.value, hl.denom_pos, hl.coprime⟩, hl⟩

/-- Reducing twice is reducing once. -/
theorem Lowest.reduce {r : Numeric} (h : Lowest r n.value) (hd : 0 < n.denom)
    (hs : n.Straight) : r.reduce = some r := by
  obtain ⟨s, hr, hl⟩ := reduce_lowest h.denom_pos (h.straight hd hs)
  rw [h.value] at hl
  rw [hr, hl.unique h]

/-- **`Reduce` is a normal form exactly on straight fractions**: two fractions of one value reduce
to one fraction, of that value, in lowest terms and its own reduct. -/
theorem reduce_normal_iff (hn : 0 < n.denom) (hm : 0 < m.denom) (hv : n.value = m.value) :
    (∃ r, Reduces n r ∧ Reduces m r ∧ r.reduce = some r) ↔ n.Straight ∧ m.Straight := by
  constructor
  · rintro ⟨r, h1, h2, -⟩
    exact ⟨h1.straight hn, h2.straight hm⟩
  · rintro ⟨h1, h2⟩
    obtain ⟨r, hr, hl⟩ := exists_reduces hn h1
    obtain ⟨s, hs, hl'⟩ := exists_reduces hm h2
    rw [← hv] at hl'
    obtain rfl := hl.unique hl'
    exact ⟨r, hr, hs, hl.reduce hn h1⟩

theorem reduce_normal_iff_five :
    (∃ r, Reduces ⟨500, 100⟩ r ∧ Reduces ⟨5, 1⟩ r ∧ r.reduce = some r) ↔
      Straight ⟨500, 100⟩ ∧ Straight ⟨5, 1⟩ :=
  reduce_normal_iff (by decide) (by decide) (by
    rw [Numeric.value, Fraction.value, Numeric.value, Fraction.value]
    decide +kernel)

/-- The least `int64` over six: the divisor is `-2`. -/
theorem gcd_minValue_six : gcd Int64.minValue 6 = -2 := by
  rw [gcd_step (by decide), show Int64.minValue % 6 = -2 by decide]
  rw [gcd_step (by decide), show (6 : Int64) % -2 = 0 by decide, gcd_zero]

theorem reduce_minValue_six :
    Numeric.reduce ⟨Int64.minValue, 6⟩ = some ⟨4611686018427387904, -3⟩ ∧
      ¬ ∃ r, Reduces ⟨Int64.minValue, 6⟩ r ∧ Reduces ⟨Int64.minValue, 6⟩ r ∧
        r.reduce = some r := by
  have hr : Numeric.reduce ⟨Int64.minValue, 6⟩ = some ⟨4611686018427387904, -3⟩ := by
    rw [reduce_eq (by decide) (by decide)]
    rw [divisor, abs64_minValue, show abs64 6 = 6 by decide, gcd_minValue_six]
    decide
  refine ⟨hr, ?_⟩
  rintro ⟨r, h, -⟩
  have hd := h.denom_pos
  obtain rfl := Option.some.inj (hr.symm.trans h.eq)
  exact absurd hd (by decide)

end Antimoney.Gnc
