import Antimoney.Csv.Cells

/-!
# The cents of a CSV amount

`handleCSVImport` truncates the product of the amount, a float, by 100. An amount of `c` cents is
kept when no rounding takes the product below `c`, or up to `c + 1`.

* `scaled`: `c` times the power of two that brings `c / 100` to 53 binary digits before the point.
* `drift`: what the first rounding adds to a hundred times the amount, in units of the last digit.
* **`valNum_exact_iff`**: `CentsKept` is the exact condition.
-/

namespace Antimoney.Csv

open Lib

/-! ## The condition -/

/-- `100 * round (n / 100) - n`. -/
def drift (n : ℕ) : ℤ := if n % 100 < 50 then -(n % 100 : ℕ) else 100 - (n % 100 : ℕ)

/-- The product is rounded neither below `n` nor to the next cent. From `2 ^ 59` on the drift is
less than half of its last digit; below, it may reach it (a tie goes to the even neighbour). The
next cent is one last digit away only when `s = 6`. -/
def Survives (n s : ℕ) : Prop :=
  2 ^ 59 ≤ n ∨
    (-32 < drift n ∨ drift n = -32 ∧ n % 128 = 0) ∧
      (7 ≤ s ∨ drift n < 32 ∨ drift n = 32 ∧ n % 128 = 0)

/-- `n` is `c` shifted by `s` binary digits so that `n / 100` has 53 digits before the point. -/
structure Scaled (c s : ℕ) : Prop where
  lo : 25 * 2 ^ 54 ≤ c * 2 ^ s
  hi : c * 2 ^ s < 25 * 2 ^ 55

instance (c s : ℕ) : Decidable (Scaled c s) :=
  decidable_of_iff (25 * 2 ^ 54 ≤ c * 2 ^ s ∧ c * 2 ^ s < 25 * 2 ^ 55)
    ⟨fun h => ⟨h.1, h.2⟩, fun h => ⟨h.lo, h.hi⟩⟩

instance (n s : ℕ) : Decidable (Survives n s) := by
  unfold Survives
  infer_instance

/-- The amounts of `c` cents that come out as `c`. -/
def CentsKept (c : ℕ) : Prop := c = 0 ∨ ∃ s < 60, Scaled c s ∧ Survives (c * 2 ^ s) s

instance (c : ℕ) : Decidable (CentsKept c) := by
  unfold CentsKept
  infer_instance

theorem exists_scaled {c : ℕ} (h0 : c ≠ 0) (hc : c < 2 ^ 53) : ∃ s < 60, Scaled c s := by
  have hex : ∃ s, 25 * 2 ^ 54 ≤ c * 2 ^ s := ⟨59, by omega⟩
  have hmin := fun m (hm : m < Nat.find hex) => not_le.mp (Nat.find_min hex hm)
  have hle : Nat.find hex ≤ 59 := Nat.find_min' hex (by omega)
  refine ⟨Nat.find hex, by omega, Nat.find_spec hex, ?_⟩
  cases hs : Nat.find hex with
  | zero =>
    rw [pow_zero]
    omega
  | succ s =>
    have h := hmin s (by omega)
    rw [pow_succ, ← mul_assoc]
    omega

theorem Scaled.unique {c s t : ℕ} (hs : Scaled c s) (ht : Scaled c t) : s = t := by
  have hle : ∀ {a b : ℕ}, Scaled c a → Scaled c b → ¬ a < b := by
    intro a b ha hb hab
    have hpow : 2 ^ (a + 1) ≤ 2 ^ b := Nat.pow_le_pow_right (by decide) hab
    have h := Nat.mul_le_mul_left c hpow
    have hlo := ha.lo
    have hhi := hb.hi
    rw [pow_succ, ← mul_assoc] at h
    omega
  have h1 := hle hs ht
  have h2 := hle ht hs
  omega

theorem Scaled.six_le {c s : ℕ} (h : Scaled c s) (hc : c < 2 ^ 53) : 6 ≤ s := by
  by_contra hs
  have hpow : 2 ^ s ≤ 2 ^ 5 := Nat.pow_le_pow_right (by decide) (by omega)
  have hmul := Nat.mul_le_mul_left c hpow
  have hlo := h.lo
  omega

theorem Scaled.dvd {c s : ℕ} (h : Scaled c s) (hc : c < 2 ^ 53) :
    ∃ k, c * 2 ^ s = 64 * (c * 2 ^ k) ∧ s = k + 6 := by
  obtain ⟨k, rfl⟩ := Nat.exists_eq_add_of_le' (h.six_le hc)
  refine ⟨k, ?_, rfl⟩
  rw [pow_add]
  ring

/-! ## The two roundings -/

/-- A float's digits, with the weight of the last. -/
theorem float64_eq {q : ℚ} {e m : ℤ} (hlo : (2 : ℚ) ^ 52 * 2 ^ e ≤ q) (hhi : q < 2 ^ 53 * 2 ^ e)
    (hm : NearestEven (q / 2 ^ e) m) : float64 q = m * 2 ^ e := by
  have hpos : (0 : ℚ) < 2 ^ 52 * 2 ^ e := mul_pos (by norm_num) (two_zpow_pos e)
  have habs : |q| = q := abs_of_nonneg (le_trans hpos.le hlo)
  have h52 : (2 : ℚ) ^ (e + (53 : ℕ) - 1) = 2 ^ 52 * 2 ^ e := by
    rw [add_sub_assoc, zpow_add₀ two_ne_zero, mul_comm]
    norm_num
  have h53 : (2 : ℚ) ^ (e + (53 : ℕ)) = 2 ^ 53 * 2 ^ e := by
    rw [zpow_add₀ two_ne_zero, mul_comm]
    norm_num
  exact binary_eq (by rw [h52, habs]; exact hlo) (by rw [h53, habs]; exact hhi) hm

theorem drift_bounds (n : ℕ) : -50 < drift n ∧ drift n ≤ 50 := by
  unfold drift
  split <;> omega

theorem drift_dvd (n : ℕ) : (100 : ℤ) ∣ n + drift n := by
  unfold drift
  split <;> omega

/-- The first rounding: the amount has the digits `(n + drift n) / 100`. -/
theorem float64_amount {c s : ℕ} (hs : Scaled c s) (hc : c < 2 ^ 53) :
    float64 ((c : ℚ) / 100) * 100 = ((c * 2 ^ s : ℕ) + drift (c * 2 ^ s) : ℤ) / 2 ^ s := by
  obtain ⟨k, hk, -⟩ := hs.dvd hc
  set n := c * 2 ^ s with hn
  have hpow : (0 : ℚ) < 2 ^ s := by positivity
  have hcn : (c : ℚ) = n / 2 ^ s := by
    rw [hn]
    push_cast
    field_simp
  obtain ⟨m, hm⟩ := drift_dvd n
  have hmq : (n : ℚ) + drift n = 100 * m := by exact_mod_cast hm
  -- no tie: a multiple of 64 is no odd multiple of 50
  have hdrift : |drift n| < 50 := by
    have h := drift_bounds n
    have h50 : drift n ≠ 50 := by
      unfold drift
      split <;> omega
    rw [abs_lt]
    omega
  have hnear : NearestEven ((c : ℚ) / 100 / 2 ^ (-(s : ℤ))) m := by
    refine nearestEven_of_lt ?_
    have hq : (c : ℚ) / 100 / 2 ^ (-(s : ℤ)) - m = -(drift n) / 100 := by
      rw [hcn, zpow_neg, zpow_natCast]
      field_simp
      linarith
    have hd : |(drift n : ℚ)| < 50 := by exact_mod_cast hdrift
    rw [hq, neg_div, abs_neg, abs_div, abs_of_pos (by norm_num : (0 : ℚ) < 100)]
    linarith
  have hlo : (25 * 2 ^ 54 : ℚ) ≤ n := by exact_mod_cast hs.lo
  have hhi : (n : ℚ) < 25 * 2 ^ 55 := by exact_mod_cast hs.hi
  have hdigits : (c : ℚ) / 100 = n / 100 / 2 ^ s := by rw [hcn, div_right_comm]
  have hval := float64_eq (q := (c : ℚ) / 100) (e := -(s : ℤ)) (m := m)
    (by
      rw [hdigits, zpow_neg, zpow_natCast, ← div_eq_mul_inv, div_le_div_iff_of_pos_right hpow]
      linarith)
    (by
      rw [hdigits, zpow_neg, zpow_natCast, ← div_eq_mul_inv, div_lt_div_iff_of_pos_right hpow]
      linarith)
    hnear
  rw [hval, zpow_neg, zpow_natCast]
  push_cast
  rw [hmq]
  field_simp

/-- What the second rounding adds to `n`, in units of 64, below `2 ^ 59`. -/
def nudge (n : ℕ) : ℤ :=
  if drift n < -32 ∨ drift n = -32 ∧ n % 128 ≠ 0 then -1
  else if 32 < drift n ∨ drift n = 32 ∧ n % 128 ≠ 0 then 1
  else 0

theorem nearestEven_nudge {n k : ℕ} (hn : n = 64 * k) :
    NearestEven ((n + drift n : ℚ) / 64) (k + nudge n) := by
  have hq : (n + drift n : ℚ) / 64 = k + (drift n : ℚ) / 64 := by
    rw [hn]
    push_cast
    ring
  have hb := drift_bounds n
  have hlo : (-50 : ℚ) < drift n := by exact_mod_cast hb.1
  have hhi : (drift n : ℚ) ≤ 50 := by exact_mod_cast hb.2
  rw [hq]
  unfold nudge
  split
  case isTrue h =>
    -- down to the next multiple; at a tie `k` is odd
    have hle : (drift n : ℚ) ≤ -32 := by exact_mod_cast (by omega : drift n ≤ -32)
    have hdiff : (k : ℚ) + drift n / 64 - ((k + -1 : ℤ) : ℚ) = drift n / 64 + 1 := by
      push_cast
      ring
    refine ⟨?_, fun he => ?_⟩
    · rw [hdiff, abs_of_nonneg (by linarith)]
      linarith
    · rw [hdiff, abs_of_nonneg (by linarith)] at he
      have htie : (drift n : ℚ) = -32 := by linarith
      have htie' : drift n = -32 := by exact_mod_cast htie
      rw [Int.even_iff]
      omega
  case isFalse h =>
    split
    case isTrue h' =>
      have hge : (32 : ℚ) ≤ drift n := by exact_mod_cast (by omega : 32 ≤ drift n)
      have hdiff : (k : ℚ) + drift n / 64 - ((k + 1 : ℤ) : ℚ) = -(1 - drift n / 64) := by
        push_cast
        ring
      refine ⟨?_, fun he => ?_⟩
      · rw [hdiff, abs_neg, abs_of_nonneg (by linarith)]
        linarith
      · rw [hdiff, abs_neg, abs_of_nonneg (by linarith)] at he
        have htie : (drift n : ℚ) = 32 := by linarith
        have htie' : drift n = 32 := by exact_mod_cast htie
        rw [Int.even_iff]
        omega
    case isFalse h' =>
      have hge : (-32 : ℚ) ≤ drift n := by exact_mod_cast (by omega : -32 ≤ drift n)
      have hle : (drift n : ℚ) ≤ 32 := by exact_mod_cast (by omega : drift n ≤ 32)
      have hdiff : (k : ℚ) + drift n / 64 - ((k + 0 : ℤ) : ℚ) = drift n / 64 := by
        push_cast
        ring
      refine ⟨?_, fun he => ?_⟩
      · rw [hdiff, abs_le]
        constructor <;> linarith
      · rw [hdiff, abs_div, abs_of_pos (by norm_num : (0 : ℚ) < 64)] at he
        have htie : |(drift n : ℚ)| = 32 := by linarith
        have htie' : |drift n| = 32 := by exact_mod_cast htie
        have habs := abs_cases (drift n)
        rw [Int.even_iff]
        omega

theorem survives_iff {n s : ℕ} (hn : n < 2 ^ 59) :
    Survives n s ↔ 0 ≤ nudge n ∧ (7 ≤ s ∨ nudge n ≤ 0) := by
  unfold Survives nudge
  split
  · omega
  · split <;> omega

/-- The weight of the last digit of the product. -/
theorem zpow_sub_eq (a : ℤ) (s : ℕ) : (2 : ℚ) ^ (a - s) = 2 ^ a / 2 ^ s := by
  rw [zpow_sub₀ two_ne_zero, zpow_natCast]

/-- The second rounding below `2 ^ 59`: to a multiple of 64. -/
theorem float64_product_low {c s k : ℕ} (hs : Scaled c s) (hc : c < 2 ^ 53)
    (hk : c * 2 ^ s = 64 * k) (hlow : c * 2 ^ s < 2 ^ 59) :
    float64 (float64 ((c : ℚ) / 100) * 100) = ((64 * (k + nudge (c * 2 ^ s)) : ℤ) : ℚ) / 2 ^ s := by
  rw [float64_amount hs hc]
  have hnear := nearestEven_nudge hk
  have hb := drift_bounds (c * 2 ^ s)
  have hlo := hs.lo
  set n := c * 2 ^ s with hn
  have hpow : (0 : ℚ) < 2 ^ s := by positivity
  have h1 : (2 ^ 58 : ℚ) ≤ ((n + drift n : ℤ) : ℚ) := by
    exact_mod_cast (by omega : (2 ^ 58 : ℤ) ≤ n + drift n)
  have h2 : ((n + drift n : ℤ) : ℚ) < 2 ^ 59 := by
    exact_mod_cast (by omega : (n + drift n : ℤ) < 2 ^ 59)
  have hval := float64_eq (q := ((n + drift n : ℤ) : ℚ) / 2 ^ s) (e := 6 - s)
    (m := k + nudge n)
    (by rw [zpow_sub_eq, ← mul_div_assoc, div_le_div_iff_of_pos_right hpow]; linarith)
    (by rw [zpow_sub_eq, ← mul_div_assoc, div_lt_div_iff_of_pos_right hpow]; linarith)
    (by
      rw [zpow_sub_eq, div_div_div_cancel_right₀ hpow.ne']
      push_cast at hnear ⊢
      exact hnear)
  push_cast at hval ⊢
  rw [hval, zpow_sub_eq]
  ring

/-- From `2 ^ 59` on to a multiple of 128, which `n` is. -/
theorem float64_product_high {c s : ℕ} (hs : Scaled c s) (hc : c < 2 ^ 53)
    (hhigh : 2 ^ 59 ≤ c * 2 ^ s) : float64 (float64 ((c : ℚ) / 100) * 100) = c := by
  have h7 : 7 ≤ s := by
    have h6 := hs.six_le hc
    by_contra h
    obtain rfl : s = 6 := by omega
    omega
  obtain ⟨j, rfl⟩ := Nat.exists_eq_add_of_le' h7
  rw [float64_amount hs hc]
  have hb := drift_bounds (c * 2 ^ (j + 7))
  have hhi := hs.hi
  have hn : c * 2 ^ (j + 7) = 128 * (c * 2 ^ j) := by
    rw [pow_add]
    ring
  set n := c * 2 ^ (j + 7) with hn'
  have hpow : (0 : ℚ) < 2 ^ (j + 7) := by positivity
  -- at `2 ^ 59` itself the drift is upwards
  have hge : (2 ^ 59 : ℤ) ≤ n + drift n := by
    rcases Nat.lt_or_ge n (2 ^ 59 + 1) with h | h
    · have he : n = 2 ^ 59 := by omega
      rw [he]
      decide
    · omega
  have h1 : (2 ^ 59 : ℚ) ≤ ((n + drift n : ℤ) : ℚ) := by exact_mod_cast hge
  have h2 : ((n + drift n : ℤ) : ℚ) < 2 ^ 60 := by
    exact_mod_cast (by omega : (n + drift n : ℤ) < 2 ^ 60)
  have hnear : NearestEven (((n + drift n : ℤ) : ℚ) / 2 ^ 7) ((c * 2 ^ j : ℕ) : ℤ) := by
    refine nearestEven_of_lt ?_
    have hq : ((n + drift n : ℤ) : ℚ) / 2 ^ 7 - (((c * 2 ^ j : ℕ) : ℤ) : ℚ) = drift n / 128 := by
      have hnq : (n : ℚ) = 128 * ((c * 2 ^ j : ℕ) : ℚ) := by exact_mod_cast hn
      push_cast at hnq ⊢
      rw [hnq]
      ring
    have hlo' : (-50 : ℚ) < drift n := by exact_mod_cast hb.1
    have hhi' : (drift n : ℚ) ≤ 50 := by exact_mod_cast hb.2
    rw [hq, abs_lt]
    constructor <;> linarith
  have hval := float64_eq (q := ((n + drift n : ℤ) : ℚ) / 2 ^ (j + 7)) (e := 7 - (j + 7 : ℕ))
    (m := (c * 2 ^ j : ℕ))
    (by rw [zpow_sub_eq, ← mul_div_assoc, div_le_div_iff_of_pos_right hpow]; linarith)
    (by rw [zpow_sub_eq, ← mul_div_assoc, div_lt_div_iff_of_pos_right hpow]; linarith)
    (by
      rw [zpow_sub_eq, div_div_div_cancel_right₀ hpow.ne']
      exact_mod_cast hnear)
  rw [hval, zpow_sub_eq]
  push_cast
  rw [pow_add]
  field_simp
  norm_num

/-! ## The truncation -/

theorem goInt64_floor {q : ℚ} (h0 : 0 ≤ q) (h63 : ⌊q⌋ < 2 ^ 63) : (goInt64 q).toInt = ⌊q⌋ := by
  have hfloor : 0 ≤ ⌊q⌋ := Int.floor_nonneg.mpr h0
  have ht : towardZero q = ⌊q⌋ := if_pos h0
  unfold goInt64
  rw [ht, if_pos ⟨by omega, h63⟩, Int64.toInt_ofInt_of_le (by omega) h63]

theorem goInt64_neg {q : ℚ} (h0 : 0 ≤ q) (h63 : ⌊q⌋ < 2 ^ 63) :
    (goInt64 (-q)).toInt = -⌊q⌋ := by
  have hfloor : 0 ≤ ⌊q⌋ := Int.floor_nonneg.mpr h0
  have ht : towardZero (-q) = -⌊q⌋ := by
    unfold towardZero
    split
    case isTrue h =>
      have hq : q = 0 := le_antisymm (neg_nonneg.mp h) h0
      subst hq
      simp
    case isFalse h => exact Int.ceil_neg
  unfold goInt64
  rw [ht, if_pos ⟨by omega, by omega⟩, Int64.toInt_ofInt_of_le (by omega) (by omega)]

/-- The product of `c` cents by 100, before the truncation. -/
def product (c : ℕ) : ℚ := float64 (float64 ((c : ℚ) / 100) * 100)

theorem product_nonneg (c : ℕ) (hc : c < 2 ^ 53) : 0 ≤ product c := by
  unfold product
  by_cases h0 : c = 0
  · subst h0
    simp [float64]
  obtain ⟨s, -, hs⟩ := exists_scaled h0 hc
  obtain ⟨k, hk, rfl⟩ := hs.dvd hc
  by_cases hlow : c * 2 ^ (k + 6) < 2 ^ 59
  · rw [float64_product_low hs hc hk hlow]
    have hnudge : -1 ≤ nudge (c * 2 ^ (k + 6)) := by
      unfold nudge
      split
      · omega
      · split <;> omega
    have hlo := hs.lo
    have hnum : (0 : ℚ) ≤ ((64 * ((c * 2 ^ k : ℕ) + nudge (c * 2 ^ (k + 6))) : ℤ) : ℚ) := by
      exact_mod_cast (by omega : (0 : ℤ) ≤ 64 * ((c * 2 ^ k : ℕ) + nudge (c * 2 ^ (k + 6))))
    positivity
  · rw [float64_product_high hs hc (by omega)]
    positivity

/-- **The product stays within the cent exactly under `CentsKept`.** -/
theorem floor_product {c : ℕ} (hc : c < 2 ^ 53) :
    ⌊product c⌋ ≤ c + 1 ∧ (⌊product c⌋ = c ↔ CentsKept c) := by
  unfold product
  by_cases h0 : c = 0
  · subst h0
    simp [float64, CentsKept]
  obtain ⟨s, hs60, hs⟩ := exists_scaled h0 hc
  have hkept : CentsKept c ↔ Survives (c * 2 ^ s) s := by
    constructor
    · rintro (rfl | ⟨t, -, ht, hsur⟩)
      · exact absurd rfl h0
      · obtain rfl := ht.unique hs
        exact hsur
    · exact fun h => .inr ⟨s, hs60, hs, h⟩
  rw [hkept]
  by_cases hlow : c * 2 ^ s < 2 ^ 59
  · obtain ⟨k, hk, rfl⟩ := hs.dvd hc
    rw [float64_product_low hs hc hk hlow, survives_iff hlow]
    set m := nudge (c * 2 ^ (k + 6)) with hm
    have hnudge : -1 ≤ m ∧ m ≤ 1 := by
      rw [hm]
      unfold nudge
      split
      · omega
      · split <;> omega
    have hpow : (0 : ℤ) < 2 ^ k := by positivity
    have hfloor : ⌊((64 * ((c * 2 ^ k : ℕ) + m) : ℤ) : ℚ) / 2 ^ (k + 6)⌋ =
        (c * 2 ^ k + m) / 2 ^ k := by
      rw [← floor_div_int (K := ℚ) hpow]
      congr 1
      push_cast
      rw [pow_add]
      field_simp
      norm_num
      ring
    rw [hfloor]
    constructor
    · have hlt : (c * 2 ^ k + m : ℤ) < (c + 2) * 2 ^ k := by linarith
      have h := Int.ediv_lt_of_lt_mul hpow hlt
      omega
    · -- one unit of 64 is a whole cent when nothing is shifted beyond it, and less otherwise
      have htwo : k = 0 ∨ (2 : ℤ) ≤ 2 ^ k := by
        cases k with
        | zero => exact .inl rfl
        | succ k =>
          have h1 : (1 : ℤ) ≤ 2 ^ k := by exact_mod_cast Nat.one_le_two_pow
          rw [pow_succ]
          exact .inr (by omega)
      rw [Int.ediv_eq_iff_of_pos hpow]
      rcases htwo with rfl | htwo
      · rw [pow_zero]
        omega
      · have h7 : k ≠ 0 := by
          rintro rfl
          exact absurd htwo (by norm_num)
        omega
  · rw [float64_product_high hs hc (by omega)]
    have hsur : Survives (c * 2 ^ s) s := .inl (by omega)
    rw [Int.floor_natCast]
    exact ⟨by omega, iff_of_true rfl hsur⟩

/-! ## From the text of the cell -/

/-- `cell` is an optional minus sign, digits, a point and two digits: `c` cents. -/
def WritesCents (cell : Cell) (c : ℤ) : Prop :=
  ∃ (neg : Bool) (whole cents : List Char), whole ≠ [] ∧ cents.length = 2 ∧
    (∀ d ∈ whole ++ cents, isDigit d = true) ∧
    cell = (if neg then ['-'] else []) ++ (whole ++ '.' :: cents) ∧
    c = if neg then -(digitsNat (whole ++ cents) : ℤ) else digitsNat (whole ++ cents)

theorem isDigit_ne {d c : Char} (hd : isDigit d = true) (hc : isDigit c = false) : d ≠ c := by
  rintro rfl
  exact absurd hd (by simp [hc])

/-- Such a cell is clean. -/
theorem cleanAmount_of_writes {cell : Cell} {c : ℤ} (h : WritesCents cell c) :
    cleanAmount cell = cell := by
  obtain ⟨neg, whole, cents, -, -, hdigits, rfl, -⟩ := h
  set cell := (if neg then ['-'] else []) ++ (whole ++ '.' :: cents) with hcell
  have hchars : ∀ ch ∈ cell, isDigit ch = true ∨ ch = '-' ∨ ch = '.' := by
    intro ch hch
    rw [hcell] at hch
    rcases List.mem_append.mp hch with hch | hch
    · cases neg with
      | true => exact .inr (.inl (by simpa using hch))
      | false => exact absurd hch (by simp)
    · rcases List.mem_append.mp hch with hch | hch
      · exact .inl (hdigits ch (List.mem_append_left _ hch))
      · rcases List.mem_cons.mp hch with rfl | hch
        · exact .inr (.inr rfl)
        · exact .inl (hdigits ch (List.mem_append_right _ hch))
  have hkept : (cell.filter fun c => isDigit c || c == '-' || c == '.' || c == ',') = cell := by
    rw [List.filter_eq_self]
    intro ch hch
    rcases hchars ch hch with h | rfl | rfl
    · simp [h]
    · rfl
    · rfl
  have hcomma : ',' ∉ cell := by
    intro hmem
    rcases hchars ',' hmem with h | h | h
    · exact absurd h (by decide)
    · exact absurd h (by decide)
    · exact absurd h (by decide)
  unfold cleanAmount
  simp only [hkept]
  rw [if_neg (fun h => hcomma h.1), if_neg hcomma]

theorem float64_bound {c : ℕ} (hc : c < 2 ^ 53) : |float64 ((c : ℚ) / 100)| < 2 ^ 1024 := by
  have h := binary_error 53 ((c : ℚ) / 100)
  have hcq : (c : ℚ) < 2 ^ 53 := by exact_mod_cast hc
  have habs : |(c : ℚ) / 100| < 2 ^ 53 := by
    rw [abs_of_nonneg (by positivity)]
    linarith
  have htri := abs_add_le (float64 ((c : ℚ) / 100) - (c : ℚ) / 100) ((c : ℚ) / 100)
  rw [sub_add_cancel] at htri
  have herr : |float64 ((c : ℚ) / 100) - (c : ℚ) / 100| ≤ 1 := by
    unfold float64
    linarith
  calc |float64 ((c : ℚ) / 100)| ≤ 1 + 2 ^ 53 := by linarith
    _ < 2 ^ 54 := by norm_num
    _ ≤ 2 ^ 1024 := pow_le_pow_right₀ (by norm_num) (by norm_num)

theorem parseDecimal_digits {whole cents : List Char} (hne : whole ≠ [])
    (hdigits : ∀ d ∈ whole ++ cents, isDigit d = true) :
    parseDecimal (whole ++ '.' :: cents) =
      some ((digitsNat (whole ++ cents) : ℚ) / 10 ^ cents.length) := by
  have hwhole : ∀ d ∈ whole, isDigit d = true := fun d hd => hdigits d (List.mem_append_left _ hd)
  have hcents : cents.all isDigit = true :=
    List.all_eq_true.mpr fun d hd => hdigits d (List.mem_append_right _ hd)
  have hpoint : ¬ isDigit '.' = true := by decide
  have htake : (whole ++ '.' :: cents).takeWhile isDigit = whole := by
    rw [List.takeWhile_append_of_pos hwhole, List.takeWhile_cons_of_neg hpoint, List.append_nil]
  have hdrop : (whole ++ '.' :: cents).dropWhile isDigit = '.' :: cents := by
    rw [List.dropWhile_append_of_pos hwhole, List.dropWhile_cons_of_neg hpoint]
  have hsome : ¬ whole ++ cents = [] := by simp [hne]
  unfold parseDecimal
  rw [htake, hdrop]
  exact (if_pos (.inr ⟨rfl, hcents⟩)).trans (if_neg hsome)

/-- `ParseFloat` reads it as the float nearest to it. -/
theorem parseFloat_of_writes {cell : Cell} {c : ℤ} (h : WritesCents cell c) (hc : |c| < 2 ^ 53) :
    parseFloat cell = some (float64 ((c : ℚ) / 100)) := by
  obtain ⟨neg, whole, cents, hne, hlen, hdigits, rfl, rfl⟩ := h
  have hread := parseDecimal_digits hne hdigits
  set n := digitsNat (whole ++ cents) with hn
  have hnat : n < 2 ^ 53 := by
    cases neg <;> simp only [Bool.false_eq_true, if_true, if_false, abs_neg, Nat.abs_cast] at hc <;>
      omega
  have hbound := float64_bound hnat
  have hexact : (10 : ℚ) ^ cents.length = 100 := by
    rw [hlen]
    norm_num
  rw [hexact] at hread
  unfold parseFloat
  cases neg with
  | true =>
    have hval : float64 (((-(n : ℤ) : ℤ) : ℚ) / 100) = -float64 ((n : ℚ) / 100) := by
      have h := binary_neg 53 ((n : ℚ) / 100)
      unfold float64
      rw [← h]
      push_cast
      rw [neg_div]
    have hneg : float64 (-((n : ℚ) / 100)) = -float64 ((n : ℚ) / 100) := binary_neg 53 _
    simp only [if_true, List.cons_append, List.nil_append, List.head?_cons, List.tail_cons, hread,
      hval]
    change (if 2 ^ 1024 ≤ |float64 (-((n : ℚ) / 100))| then none
      else some (float64 (-((n : ℚ) / 100)))) = _
    rw [hneg, abs_neg, if_neg (not_le.mpr hbound)]
  | false =>
    obtain ⟨d, ds, rfl⟩ := List.exists_cons_of_ne_nil hne
    have hd : d ≠ '-' := isDigit_ne (hdigits d (by simp)) (by decide)
    have hhead : ¬ (d :: ds ++ '.' :: cents).head? = some '-' := by simpa using hd
    simp only [Bool.false_eq_true, if_false, List.nil_append, if_neg hhead, hread]
    exact if_neg (not_le.mpr hbound)

/-- **An amount below `2 ^ 53` cents is kept exactly under `CentsKept`.** -/
theorem valNum_exact_iff {cell : Cell} {c : ℤ} (h : WritesCents cell c) (hc : |c| < 2 ^ 53) :
    (valNum cell).map Int64.toInt = some c ↔ CentsKept c.natAbs := by
  unfold valNum
  rw [cleanAmount_of_writes h, parseFloat_of_writes h hc, Option.map_some, Option.map_some,
    Option.some_inj]
  obtain ⟨n, rfl | rfl⟩ := Int.eq_nat_or_neg c
  · have hn : n < 2 ^ 53 := by
      rw [Nat.abs_cast] at hc
      exact_mod_cast hc
    obtain ⟨hle, hiff⟩ := floor_product hn
    have hprod : float64 (float64 (((n : ℤ) : ℚ) / 100) * 100) = product n := rfl
    rw [hprod, goInt64_floor (product_nonneg n hn) (by omega), Int.natAbs_natCast, ← hiff]
  · have hn : n < 2 ^ 53 := by
      rw [abs_neg, Nat.abs_cast] at hc
      exact_mod_cast hc
    obtain ⟨hle, hiff⟩ := floor_product hn
    have hprod : float64 (float64 (((-(n : ℤ) : ℤ) : ℚ) / 100) * 100) = -product n := by
      unfold product float64
      push_cast
      rw [neg_div, binary_neg, neg_mul, binary_neg]
    rw [hprod, goInt64_neg (product_nonneg n hn) (by omega), Int.natAbs_neg, Int.natAbs_natCast,
      ← hiff]
    omega

theorem writesCents_435 : WritesCents "4.35".toList 435 :=
  ⟨false, ['4'], ['3', '5'], by decide, rfl, List.all_eq_true.mp rfl, by decide, by decide⟩

/-- `"12.25"`: `valNum_exact_iff` at an amount that is kept. -/
theorem valNum_exact_quarter :
    (valNum "12.25".toList).map Int64.toInt = some 1225 ↔ CentsKept (1225 : ℤ).natAbs :=
  valNum_exact_iff
    ⟨false, ['1', '2'], ['2', '5'], by decide, rfl, List.all_eq_true.mp rfl, by decide, by decide⟩
    (by decide)

/-- `"4.35"` is imported as 434 cents. -/
theorem valNum_truncated :
    (valNum "4.35".toList).map Int64.toInt = some 434 ∧
      ¬ ∀ (cell : Cell) (c : ℤ), WritesCents cell c → |c| < 2 ^ 53 →
        (valNum cell).map Int64.toInt = some c := by
  have hval : (valNum "4.35".toList).map Int64.toInt = some 434 := by decide +kernel
  refine ⟨hval, fun h => ?_⟩
  have hc := h _ 435 writesCents_435 (by decide)
  rw [hval] at hc
  exact absurd hc (by decide)

end Antimoney.Csv
