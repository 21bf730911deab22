import Antimoney.Gnc.Numeric
import Mathlib.Data.Nat.Factorization.Basic

/-!
# Powers of two in denominators

A denominator is cut to its low 64 bits, which leaves the powers of two up to 2^64 that divide it as
they are (`fromBigRat_denom_dvd`). A sum in lowest terms has no more factors of two below the line
than one of its terms (`add_denom`), so sums of nonzero denominators never get to a zero one, and
sums of positive denominators stay positive.
-/

namespace Antimoney.Gnc

open Numeric

/-! ## Low bits -/

theorem dvd_toInt_ofInt {k : Nat} (hk : k ≤ 64) (i : ℤ) :
    (2 ^ k : ℤ) ∣ (Int64.ofInt i).toInt ↔ (2 ^ k : ℤ) ∣ i := by
  have hdiff : (2 ^ 64 : ℤ) ∣ (Int64.ofInt i).toInt - i := by
    rw [Int64.toInt_ofInt]
    change (2 ^ 64 : ℤ) ∣ Int.bmod i 18446744073709551616 - i
    have := Int.bmod_def i 18446744073709551616
    omega
  have hk' : (2 ^ k : ℤ) ∣ (Int64.ofInt i).toInt - i := (pow_dvd_pow 2 hk).trans hdiff
  exact (dvd_iff_dvd_of_dvd_sub hk')

theorem dvd_toInt_neg {k : Nat} (hk : k ≤ 64) (d : Int64) :
    (2 ^ k : ℤ) ∣ (-d).toInt ↔ (2 ^ k : ℤ) ∣ d.toInt := by
  have hneg : -d = Int64.ofInt (-d.toInt) := by
    rw [Int64.ofInt_neg, Int64.ofInt_toInt]
  rw [hneg, dvd_toInt_ofInt hk, dvd_neg]

theorem dvd64_iff {d : Int64} : (2 ^ 64 : ℤ) ∣ d.toInt ↔ d = 0 := by
  rw [← ofInt_eq_zero, Int64.ofInt_toInt]

theorem dvd63_iff {d : Int64} : (2 ^ 63 : ℤ) ∣ d.toInt ↔ d = 0 ∨ d = Int64.minValue := by
  have hge := d.le_toInt
  have hlt := d.toInt_lt
  constructor
  · rintro ⟨c, hc⟩
    have hc' : c = 0 ∨ c = -1 := by omega
    rcases hc' with rfl | rfl
    · exact .inl (Int64.toInt_inj.mp (by rw [hc]; rfl))
    · exact .inr (Int64.toInt_inj.mp (by rw [hc]; rfl))
  · rintro (rfl | rfl)
    · exact dvd_zero _
    · exact ⟨-1, rfl⟩

/-! ## The sign fix of `New` and `fromBigRat` -/

section Sign

variable {d e : Int64}

theorem signFixed_dvd {k : Nat} (hk : k ≤ 64) (he : e = if d < 0 then -d else d) :
    (2 ^ k : ℤ) ∣ e.toInt ↔ (2 ^ k : ℤ) ∣ d.toInt := by
  subst he
  split
  · exact dvd_toInt_neg hk d
  · exact Iff.rfl

theorem signFixed_pos (he : e = if d < 0 then -d else d) :
    0 < e ↔ ¬ (2 ^ 63 : ℤ) ∣ d.toInt := by
  rw [dvd63_iff]
  have hpos : 0 < e ↔ 0 < e.toInt := Int64.lt_iff_toInt_lt
  have hge := d.le_toInt
  by_cases hmin : d = Int64.minValue
  · subst hmin
    subst he
    decide
  · have hzero : d = 0 ↔ d.toInt = 0 := by
      rw [← Int64.toInt_inj]
      rfl
    have hneg := toInt_neg_of_ne hmin
    have hlt : d < 0 ↔ d.toInt < 0 := toInt_neg_iff
    rw [hpos, hzero, or_iff_left hmin]
    subst he
    by_cases h : d < 0
    · rw [if_pos h, hneg]
      rw [hlt] at h
      omega
    · rw [if_neg h]
      rw [hlt] at h
      omega

end Sign

theorem new_denom {n d : Int64} {v : Numeric} (h : new n d = some v) :
    v.denom = if d < 0 then -d else d := by
  unfold new at h
  split at h
  · exact absurd h (by simp)
  · split at h <;> obtain rfl := Option.some.inj h
    · rw [if_pos ‹_›]
    · rw [if_neg ‹_›]

theorem new_denom_dvd {n d : Int64} {v : Numeric} {k : Nat} (hk : k ≤ 64)
    (h : new n d = some v) : (2 ^ k : ℤ) ∣ v.denom.toInt ↔ (2 ^ k : ℤ) ∣ d.toInt :=
  signFixed_dvd hk (new_denom h)

theorem fromBigRat_denom (r : ℚ) :
    (fromBigRat r).denom = if Int64.ofInt r.den < 0 then -Int64.ofInt r.den
      else Int64.ofInt r.den := by
  unfold fromBigRat
  dsimp only
  split <;> rfl

/-- **Cutting a denominator keeps its factors of two.** -/
theorem fromBigRat_denom_dvd {k : Nat} (hk : k ≤ 64) (r : ℚ) :
    (2 ^ k : ℤ) ∣ (fromBigRat r).denom.toInt ↔ (2 ^ k : ℤ) ∣ (r.den : ℤ) :=
  (signFixed_dvd hk (fromBigRat_denom r)).trans (dvd_toInt_ofInt hk r.den)

/-- A denominator comes back positive unless 2^63 divides it. -/
theorem fromBigRat_denom_pos (r : ℚ) :
    0 < (fromBigRat r).denom ↔ ¬ (2 ^ 63 : ℤ) ∣ (r.den : ℤ) := by
  rw [signFixed_pos (fromBigRat_denom r), dvd_toInt_ofInt (by decide)]

theorem fromBigRat_denom_pos_iff (r : ℚ) :
    0 < (fromBigRat r).denom ↔ ¬ (2 ^ 63 : ℤ) ∣ (fromBigRat r).denom.toInt := by
  rw [fromBigRat_denom_pos, fromBigRat_denom_dvd (by decide)]

theorem pos_not_dvd {d : Int64} (h : 0 < d) : ¬ (2 ^ 63 : ℤ) ∣ d.toInt := by
  rw [dvd63_iff]
  rintro (rfl | rfl) <;> exact absurd h (by decide)

theorem ne_zero_of_not_dvd {k : Nat} {d : Int64} (h : ¬ (2 ^ k : ℤ) ∣ d.toInt) : d ≠ 0 := by
  rintro rfl
  exact h (dvd_zero _)

/-! ## Sums -/

/-- A power of a prime that divides a least common multiple divides one of the numbers. -/
theorem pow_dvd_of_dvd_lcm {p k a b : Nat} (hp : p.Prime) (ha : a ≠ 0) (hb : b ≠ 0)
    (h : p ^ k ∣ a.lcm b) : p ^ k ∣ a ∨ p ^ k ∣ b := by
  rw [hp.pow_dvd_iff_le_factorization (Nat.lcm_ne_zero ha hb), Nat.factorization_lcm ha hb] at h
  rw [hp.pow_dvd_iff_le_factorization ha, hp.pow_dvd_iff_le_factorization hb]
  exact le_sup_iff.mp h

theorem value_den_dvd (n : Numeric) : (n.value.den : ℤ) ∣ n.denom.toInt := by
  have h := Rat.den_dvd n.num.toInt n.denom.toInt
  rw [Rat.divInt_eq_div] at h
  exact h

section Add

variable {k : Nat} {a b c : Numeric}

/-- **Sums get no new factors of two** into their denominators. -/
theorem add_denom (hk : k ≤ 64) (ha : ¬ (2 ^ k : ℤ) ∣ a.denom.toInt)
    (hb : ¬ (2 ^ k : ℤ) ∣ b.denom.toInt) :
    ∃ c, add a b = some c ∧ ¬ (2 ^ k : ℤ) ∣ c.denom.toInt := by
  refine ⟨_, add_eq (ne_zero_of_not_dvd ha) (ne_zero_of_not_dvd hb), ?_⟩
  rw [fromBigRat_denom_dvd hk]
  intro hdvd
  have hnat : 2 ^ k ∣ (a.value + b.value).den := by exact_mod_cast hdvd
  have hlcm := hnat.trans (Rat.add_den_dvd_lcm a.value b.value)
  rcases pow_dvd_of_dvd_lcm Nat.prime_two a.value.den_nz b.value.den_nz hlcm with h | h
  · exact ha (dvd_trans (by exact_mod_cast h) (value_den_dvd a))
  · exact hb (dvd_trans (by exact_mod_cast h) (value_den_dvd b))

/-- The fold of `Sum`, from any value. -/
theorem foldlM_add_denom {values : List Numeric} (hk : k ≤ 64)
    (ha : ¬ (2 ^ k : ℤ) ∣ a.denom.toInt)
    (hv : ∀ v ∈ values, ¬ (2 ^ k : ℤ) ∣ v.denom.toInt) :
    ∃ c, values.foldlM add a = some c ∧ ¬ (2 ^ k : ℤ) ∣ c.denom.toInt := by
  induction values generalizing a with
  | nil => exact ⟨a, rfl, ha⟩
  | cons v values ih =>
    obtain ⟨b, hb, hbd⟩ := add_denom hk ha (hv v (by simp))
    obtain ⟨c, hc, hcd⟩ := ih hbd fun w hw => hv w (List.mem_cons_of_mem v hw)
    refine ⟨c, ?_, hcd⟩
    rw [List.foldlM_cons, hb]
    exact hc

theorem mapM_new {splits : List Fraction} (hk : k ≤ 64)
    (hs : ∀ s ∈ splits, ¬ (2 ^ k : ℤ) ∣ s.2.toInt) :
    ∃ values, splits.mapM (fun s => new s.1 s.2) = some values ∧
      ∀ v ∈ values, ¬ (2 ^ k : ℤ) ∣ v.denom.toInt := by
  induction splits with
  | nil => exact ⟨[], rfl, by simp⟩
  | cons s splits ih =>
    obtain ⟨values, hvs, hd⟩ := ih fun t ht => hs t (List.mem_cons_of_mem s ht)
    obtain ⟨v, hv, -⟩ := new_isSome (ne_zero_of_not_dvd (hs s (by simp)))
    refine ⟨v :: values, ?_, ?_⟩
    · rw [List.mapM_cons, hv, hvs]
      rfl
    · intro w hw
      rcases List.mem_cons.mp hw with rfl | hw
      · rw [new_denom_dvd hk hv]
        exact hs s (by simp)
      · exact hd w hw

/-- `gnc.Sum` of the `gnc.New` values. -/
theorem gateSum_denom {splits : List Fraction} (h0 : 0 < k) (hk : k ≤ 64)
    (hs : ∀ s ∈ splits, ¬ (2 ^ k : ℤ) ∣ s.2.toInt) :
    ∃ c, gateSum splits = some c ∧ ¬ (2 ^ k : ℤ) ∣ c.denom.toInt := by
  obtain ⟨values, hvs, hd⟩ := mapM_new hk hs
  have hone : ¬ (2 ^ k : ℤ) ∣ zero.denom.toInt := by
    intro h
    have h2 : (2 : ℤ) ∣ 1 := (dvd_pow_self 2 h0.ne').trans h
    omega
  obtain ⟨c, hc, hcd⟩ := foldlM_add_denom hk hone hd
  refine ⟨c, ?_, hcd⟩
  unfold gateSum
  rw [hvs]
  exact hc

/-- Sums of positive denominators have one. -/
theorem gateSum_denom_pos {splits : List Fraction} (hs : ∀ s ∈ splits, 0 < s.2) :
    ∃ c, gateSum splits = some c ∧ 0 < c.denom := by
  obtain ⟨values, hvs, hd⟩ := mapM_new (k := 63) (by decide) fun s h => pos_not_dvd (hs s h)
  rcases List.eq_nil_or_concat' values with rfl | ⟨values, v, rfl⟩
  · refine ⟨zero, ?_, by decide⟩
    unfold gateSum
    rw [hvs]
    rfl
  · obtain ⟨b, hb, hbd⟩ := foldlM_add_denom (k := 63) (a := zero) (by decide) (by decide)
      fun w hw => hd w (List.mem_append_left _ hw)
    obtain ⟨c, hc, hcd⟩ := add_denom (k := 63) (by decide) hbd (hd v (by simp))
    refine ⟨c, ?_, ?_⟩
    · unfold gateSum
      rw [hvs]
      change (values ++ [v]).foldlM add zero = some c
      rw [List.foldlM_append, hb]
      simpa using hc
    · rw [add_eq (ne_zero_of_not_dvd hbd) (ne_zero_of_not_dvd (hd v (by simp)))] at hc
      obtain rfl := Option.some.inj hc
      exact (fromBigRat_denom_pos_iff _).mpr hcd

end Add

end Antimoney.Gnc
