import Mathlib.Data.Rat.Lemmas
import Mathlib.Data.List.Induction
import Mathlib.Data.List.Infix
import Mathlib.Tactic.FieldSimp
import Mathlib.Tactic.Ring
import Mathlib.Tactic.Tauto
import Mathlib.Algebra.BigOperators.Group.List.Basic
import Mathlib.Algebra.Order.Ring.Rat

/-!
# `gnc.Numeric`: fractions of two `int64`s

`internal/gnc/numeric.go` as written, over `Int64` with its wrapping negation. A `big.Rat` is a
`ℚ`, and `big.Int.Int64` keeps the low 64 bits (`Int64.ofInt`). A Go panic is `none`: `New` on a
zero denominator, `SetFrac64` on one.

Headlines:
* `fromBigRat_value`: the way back from a `big.Rat` is exact on every rational that `Fits`.
* **`sum_exact`**: `Sum` is the exact sum as long as every partial sum fits.
* **`gate_cut`**: when only the last partial sum may leave `int64`, the balance gate answers
  whether 2^64 divides the numerator of the exact sum.
-/

namespace Antimoney.Gnc

/-- `Numeric`: `num/denom`, both `int64`. -/
structure Numeric where
  num : Int64
  denom : Int64
  deriving DecidableEq, Repr

namespace Numeric

/-- `Zero`. -/
def zero : Numeric := ⟨0, 1⟩

/-- `New`: the sign moves to the numerator, by a negation that wraps. Panics on `denom == 0`. -/
def new (num denom : Int64) : Option Numeric :=
  if denom = 0 then none
  else if denom < 0 then some ⟨-num, -denom⟩
  else some ⟨num, denom⟩

/-- `IsZero`. -/
def isZero (n : Numeric) : Bool := n.num == 0

/-- `Neg`. -/
def neg (n : Numeric) : Numeric := ⟨-n.num, n.denom⟩

/-- `toBigRat`: `SetFrac64` takes either sign of denominator and panics on zero. -/
def toBigRat (n : Numeric) : Option ℚ :=
  if n.denom = 0 then none else some ((n.num.toInt : ℚ) / (n.denom.toInt : ℚ))

/-- `fromBigRat`: the low 64 bits of numerator and denominator, then the sign fix. -/
def fromBigRat (r : ℚ) : Numeric :=
  let num := Int64.ofInt r.num
  let denom := Int64.ofInt r.den
  if denom < 0 then ⟨-num, -denom⟩ else ⟨num, denom⟩

/-- `Add`. -/
def add (n other : Numeric) : Option Numeric := do
  let a ← n.toBigRat
  let b ← other.toBigRat
  pure (fromBigRat (a + b))

/-- `Sum`. -/
def sum (values : List Numeric) : Option Numeric := values.foldlM add zero

/-- `SumIsZero`. -/
def sumIsZero (values : List Numeric) : Option Bool := (sum values).map isZero

end Numeric

open Numeric

/-- The split values a transaction request carries: `value_num`, `value_denom`. -/
abbrev Fraction := Int64 × Int64

/-- The balance test of `CreateTransaction` and `UpdateTransaction`: `gnc.Sum` of the `gnc.New`
values, then `IsZero`. -/
def balanceGate (splits : List Fraction) : Option Bool := do
  let values ← splits.mapM fun s => new s.1 s.2
  sumIsZero values

/-! ## Exact values -/

/-- The rational a pair of `int64`s stands for. -/
def Fraction.value (s : Fraction) : ℚ := (s.1.toInt : ℚ) / (s.2.toInt : ℚ)

/-- The exact rational sum of a list of splits. -/
def exactSum (splits : List Fraction) : ℚ := (splits.map Fraction.value).sum

/-- The rational a `Numeric` stands for. -/
def Numeric.value (n : Numeric) : ℚ := Fraction.value (n.num, n.denom)

/-- `New` does not wrap: it negates both sides only when the denominator is negative, and then
neither side is the least `int64` (or both are, or the value is zero). -/
def NewExact (s : Fraction) : Prop :=
  s.2 < 0 → s.1 ≠ 0 → (s.1 = Int64.minValue ↔ s.2 = Int64.minValue)

/-- The rationals `fromBigRat` returns unchanged. A denominator of exactly 2^63 is among them: it
comes back as the least `int64` under a negated numerator. -/
structure Fits (r : ℚ) : Prop where
  num_ge : -2 ^ 63 ≤ r.num
  num_lt : r.num < 2 ^ 63
  den_le : r.den ≤ 2 ^ 63

instance (s : Fraction) : Decidable (NewExact s) := by unfold NewExact; infer_instance

instance (r : ℚ) : Decidable (Fits r) :=
  decidable_of_iff (-2 ^ 63 ≤ r.num ∧ r.num < 2 ^ 63 ∧ r.den ≤ 2 ^ 63)
    ⟨fun h => ⟨h.1, h.2.1, h.2.2⟩, fun h => ⟨h.1, h.2, h.3⟩⟩

theorem exactSum_nil : exactSum [] = 0 := rfl

theorem exactSum_cons (s : Fraction) (ss : List Fraction) :
    exactSum (s :: ss) = s.value + exactSum ss := by
  simp [exactSum]

theorem exactSum_append (ss ts : List Fraction) :
    exactSum (ss ++ ts) = exactSum ss + exactSum ts := by
  simp [exactSum]

/-- The exact sum does not depend on the order of the splits. -/
theorem exactSum_perm {ss ts : List Fraction} (h : ss.Perm ts) : exactSum ss = exactSum ts :=
  (h.map Fraction.value).sum_eq

/-! ## Wrapping negation -/

theorem toInt_neg_of_ne {x : Int64} (h : x ≠ Int64.minValue) : (-x).toInt = -x.toInt := by
  rw [Int64.toInt_neg]
  have h1 := x.le_toInt
  have h2 := x.toInt_lt
  have h3 : x.toInt ≠ -2 ^ 63 := fun e => h (Int64.toInt_inj.mp (by rw [e]; rfl))
  apply Int.bmod_eq_of_le <;> omega

theorem neg_minValue : -Int64.minValue = Int64.minValue := by decide

theorem neg_eq_zero_iff {x : Int64} : -x = 0 ↔ x = 0 := by
  constructor
  · intro h
    rw [← Int64.neg_neg (a := x), h]
    rfl
  · rintro rfl
    rfl

theorem toInt_neg_iff {x : Int64} : x < 0 ↔ x.toInt < 0 := by
  rw [Int64.lt_iff_toInt_lt]; rfl

/-- Negating both sides of a fraction keeps its value, unless exactly one of them is the least
`int64`. -/
theorem neg_neg_value {n d : Int64} (h : n = Int64.minValue ↔ d = Int64.minValue) :
    Fraction.value (-n, -d) = Fraction.value (n, d) := by
  by_cases hn : n = Int64.minValue
  · rw [hn, h.mp hn, neg_minValue]
  · have hd : d ≠ Int64.minValue := fun e => hn (h.mpr e)
    simp only [Fraction.value, toInt_neg_of_ne hn, toInt_neg_of_ne hd, Int.cast_neg, neg_div_neg_eq]

/-! ## `New` and `fromBigRat` -/

theorem new_isSome {s : Fraction} (h : s.2 ≠ 0) : ∃ v, new s.1 s.2 = some v ∧ v.denom ≠ 0 := by
  unfold new
  rw [if_neg h]
  split
  · exact ⟨_, rfl, fun e => h (neg_eq_zero_iff.mp e)⟩
  · exact ⟨_, rfl, h⟩

/-- `New` keeps the value of the pair it is given. -/
theorem new_value {s : Fraction} (h0 : s.2 ≠ 0) (hx : NewExact s) :
    ∃ v, new s.1 s.2 = some v ∧ v.denom ≠ 0 ∧ v.value = s.value := by
  obtain ⟨v, hv, hd⟩ := new_isSome h0
  refine ⟨v, hv, hd, ?_⟩
  unfold new at hv
  rw [if_neg h0] at hv
  split at hv
  · rename_i hneg
    obtain rfl := Option.some.inj hv
    by_cases hz : s.1 = 0
    · simp [Numeric.value, Fraction.value, hz]
    · exact neg_neg_value (hx hneg hz)
  · obtain rfl := Option.some.inj hv
    rfl

theorem toBigRat_eq {n : Numeric} (h : n.denom ≠ 0) : n.toBigRat = some n.value := if_neg h

theorem ofInt_eq_zero {i : ℤ} : Int64.ofInt i = 0 ↔ (2 ^ 64 : ℤ) ∣ i := by
  rw [← Int64.toInt_inj, Int64.toInt_ofInt]
  change Int.bmod i 18446744073709551616 = 0 ↔ _
  constructor
  · intro h
    have := Int.bmod_def i 18446744073709551616
    omega
  · intro h
    have := Int.bmod_def i 18446744073709551616
    omega

/-- The numerator that `fromBigRat` keeps is zero exactly when 2^64 divides the real one. -/
theorem fromBigRat_isZero (r : ℚ) : (fromBigRat r).isZero = true ↔ (2 ^ 64 : ℤ) ∣ r.num := by
  rw [← ofInt_eq_zero]
  unfold fromBigRat isZero
  simp only [beq_iff_eq]
  split
  · exact neg_eq_zero_iff
  · exact Iff.rfl

/-- **`fromBigRat` is exact on every rational that fits.** -/
theorem fromBigRat_value {r : ℚ} (h : Fits r) :
    (fromBigRat r).value = r ∧ (fromBigRat r).denom ≠ 0 := by
  obtain ⟨h1, h2, h3⟩ := h
  have hpos : 0 < r.den := r.den_pos
  have hn : (Int64.ofInt r.num).toInt = r.num := Int64.toInt_ofInt_of_le h1 h2
  have hr : (r.num : ℚ) / (r.den : ℚ) = r := Rat.num_div_den r
  rcases Nat.lt_or_ge r.den (2 ^ 63) with hlt | hge
  · have hd : (Int64.ofInt (r.den : ℤ)).toInt = r.den :=
      Int64.toInt_ofInt_of_le (by omega) (by omega)
    have hnn : ¬ Int64.ofInt (r.den : ℤ) < 0 := by rw [toInt_neg_iff, hd]; omega
    unfold fromBigRat
    simp only [if_neg hnn]
    refine ⟨?_, fun e => ?_⟩
    · simp only [Numeric.value, Fraction.value, hn, hd]
      exact_mod_cast hr
    · have : (Int64.ofInt (r.den : ℤ)).toInt = 0 := by rw [e]; rfl
      omega
  · -- the denominator is 2^63: it wraps to the least `int64`, and so the numerator is odd
    have hden : r.den = 2 ^ 63 := Nat.le_antisymm h3 hge
    have hd : Int64.ofInt (r.den : ℤ) = Int64.minValue := by rw [hden]; decide
    have hneg : Int64.ofInt (r.den : ℤ) < 0 := by rw [hd]; decide
    have hodd : Int64.ofInt r.num ≠ Int64.minValue := by
      intro e
      have hnum : r.num = -2 ^ 63 := by rw [← hn, e]; rfl
      have hco := r.reduced
      rw [hnum, hden] at hco
      exact absurd hco (by decide)
    unfold fromBigRat
    simp only [if_pos hneg]
    refine ⟨?_, fun e => ?_⟩
    · simp only [Numeric.value, Fraction.value, toInt_neg_of_ne hodd, hn]
      rw [hd, neg_minValue]
      calc ((-r.num : ℤ) : ℚ) / ((Int64.minValue.toInt : ℤ) : ℚ)
          = ((-r.num : ℤ) : ℚ) / ((-2 ^ 63 : ℤ) : ℚ) := rfl
        _ = (r.num : ℚ) / (r.den : ℚ) := by
          rw [hden]; push_cast; rw [neg_div_neg_eq]
        _ = r := hr
    · rw [hd] at e
      exact absurd e (by decide)

/-- Only the least numerator comes back as the least `int64`. -/
theorem fromBigRat_num_ne {r : ℚ} (h : Fits r) (hr : r.num ≠ -2 ^ 63) :
    (fromBigRat r).num ≠ Int64.minValue := by
  have hn : (Int64.ofInt r.num).toInt = r.num := Int64.toInt_ofInt_of_le h.num_ge h.num_lt
  have hne : Int64.ofInt r.num ≠ Int64.minValue := fun e => hr (by rw [← hn, e]; rfl)
  unfold fromBigRat
  dsimp only
  split
  · intro e
    have e' : -Int64.ofInt r.num = Int64.minValue := e
    exact hne (by rw [← Int64.neg_neg (a := Int64.ofInt r.num), e', neg_minValue])
  · exact hne

/-- `Neg` is exact unless the numerator is the least `int64`. -/
theorem neg_value {n : Numeric} (h : n.num ≠ Int64.minValue) : n.neg.value = -n.value := by
  simp only [Numeric.neg, Numeric.value, Fraction.value, toInt_neg_of_ne h]
  push_cast
  ring

/-! ## `Add` and `Sum` -/

theorem add_eq {a b : Numeric} (ha : a.denom ≠ 0) (hb : b.denom ≠ 0) :
    add a b = some (fromBigRat (a.value + b.value)) := by
  simp only [add, toBigRat_eq ha, toBigRat_eq hb]
  rfl

/-- The `gnc.Sum` of the `gnc.New` values. -/
def gateSum (splits : List Fraction) : Option Numeric := do
  let values ← splits.mapM fun s => new s.1 s.2
  sum values

theorem balanceGate_eq (splits : List Fraction) :
    balanceGate splits = (gateSum splits).map isZero := by
  unfold balanceGate gateSum sumIsZero
  cases splits.mapM fun s => new s.1 s.2 <;> rfl

theorem gateSum_nil : gateSum [] = some zero := rfl

/-- `Sum` adds the splits one at a time. -/
theorem gateSum_snoc {splits : List Fraction} {s : Fraction} {r v : Numeric}
    (hr : gateSum splits = some r) (hv : new s.1 s.2 = some v) :
    gateSum (splits ++ [s]) = add r v := by
  unfold gateSum sum at hr ⊢
  cases hm : splits.mapM fun s => new s.1 s.2 with
  | none => rw [hm] at hr; exact absurd hr (by simp)
  | some values =>
    rw [hm] at hr
    have hr' : values.foldlM add zero = some r := hr
    rw [List.mapM_append, hm]
    simp [hv, List.foldlM_append, hr']

/-- Every partial sum of the splits, from the left, fits. -/
def PartialSumsFit (splits : List Fraction) : Prop :=
  ∀ p, p <+: splits → Fits (exactSum p)

/-- The inputs on which `New` neither panics nor wraps. -/
def NewsExact (splits : List Fraction) : Prop := ∀ s ∈ splits, s.2 ≠ 0 ∧ NewExact s

theorem zero_value : zero.value = 0 := by
  simp [zero, Numeric.value, Fraction.value]

/-- One more split on an exact sum: the exact sum of all of them, as `fromBigRat` keeps it. -/
theorem gateSum_concat {ss : List Fraction} {s : Fraction} {r : Numeric}
    (hn : s.2 ≠ 0 ∧ NewExact s) (hr : gateSum ss = some r) (hval : r.value = exactSum ss)
    (hd : r.denom ≠ 0) : gateSum (ss ++ [s]) = some (fromBigRat (exactSum (ss ++ [s]))) := by
  obtain ⟨v, hv, hvd, hvv⟩ := new_value hn.1 hn.2
  rw [gateSum_snoc hr hv, add_eq hd hvd, hval, hvv, exactSum_append, exactSum_cons, exactSum_nil,
    add_zero]

/-- **`Sum` is the exact sum** when every partial sum fits. -/
theorem sum_exact {splits : List Fraction} (hn : NewsExact splits) (hf : PartialSumsFit splits) :
    ∃ r, gateSum splits = some r ∧ r.value = exactSum splits ∧ r.denom ≠ 0 := by
  induction splits using List.reverseRecOn with
  | nil => exact ⟨zero, rfl, zero_value, by decide⟩
  | append_singleton ss s ih =>
    obtain ⟨r, hr, hval, hd⟩ := ih (fun x hx => hn x (List.mem_append_left _ hx))
      (fun p hp => hf p (hp.trans (List.prefix_append _ _)))
    have hfit : Fits (exactSum (ss ++ [s])) := hf _ List.prefix_rfl
    exact ⟨_, gateSum_concat (hn s (by simp)) hr hval hd, fromBigRat_value hfit⟩

/-- All but the last partial sum fit: the sum is the exact one, as `fromBigRat` keeps it. -/
theorem sum_cut {ss : List Fraction} {s : Fraction} (hn : NewsExact (ss ++ [s]))
    (hf : PartialSumsFit ss) : gateSum (ss ++ [s]) = some (fromBigRat (exactSum (ss ++ [s]))) := by
  obtain ⟨r, hr, hval, hd⟩ := sum_exact (fun x hx => hn x (List.mem_append_left _ hx)) hf
  exact gateSum_concat (hn s (by simp)) hr hval hd

/-- A sum whose exact value has a negation has one too. -/
theorem sum_num_ne {splits : List Fraction} (hn : NewsExact splits) (hf : PartialSumsFit splits)
    (hneg : (exactSum splits).num ≠ -2 ^ 63) {r : Numeric} (hr : gateSum splits = some r) :
    r.num ≠ Int64.minValue := by
  rcases List.eq_nil_or_concat' splits with rfl | ⟨ss, s, rfl⟩
  · obtain rfl := Option.some.inj (gateSum_nil.symm.trans hr)
    decide
  · rw [sum_cut hn fun p hp => hf p (hp.trans (List.prefix_append _ _))] at hr
    obtain rfl := Option.some.inj hr
    exact fromBigRat_num_ne (hf _ List.prefix_rfl) hneg

/-- **Where the gate is cut.** When every partial sum but the last fits, the gate answers whether
2^64 divides the numerator of the exact sum. -/
theorem gate_cut {splits : List Fraction} (hn : NewsExact splits)
    (hf : PartialSumsFit splits.dropLast) :
    balanceGate splits = some true ↔ (2 ^ 64 : ℤ) ∣ (exactSum splits).num := by
  rw [balanceGate_eq]
  rcases List.eq_nil_or_concat' splits with rfl | ⟨ss, s, rfl⟩
  · simp [gateSum_nil, exactSum_nil, isZero, zero]
  · rw [List.dropLast_concat] at hf
    rw [sum_cut hn hf, Option.map_some, Option.some.injEq, fromBigRat_isZero]

/-- When every partial sum fits, the gate is exact. -/
theorem gate_exact {splits : List Fraction} (hn : NewsExact splits)
    (hf : PartialSumsFit splits) : balanceGate splits = some true ↔ exactSum splits = 0 := by
  obtain ⟨r, hr, hval, hd⟩ := sum_exact hn hf
  rw [balanceGate_eq, hr, Option.map_some, Option.some.injEq, isZero, beq_iff_eq, ← hval]
  constructor
  · intro h
    simp [Numeric.value, Fraction.value, h]
  · intro h
    have hd' : (r.denom.toInt : ℚ) ≠ 0 := by
      intro e
      exact hd (Int64.toInt_inj.mp (by exact_mod_cast e))
    have hn' : (r.num.toInt : ℚ) = 0 := by
      simpa [Numeric.value, Fraction.value, hd'] using h
    exact Int64.toInt_inj.mp (by exact_mod_cast hn')

/-- **When the balance gate is exact.** Where only the last partial sum may leave `int64`, the gate
says "zero" exactly for a zero sum, unless the sum is a nonzero one whose numerator 2^64 divides;
two orders of the same splits then get the same answer. -/
theorem balanceGate_exact_iff (splits : List Fraction) (hn : NewsExact splits)
    (hf : PartialSumsFit splits.dropLast) :
    ((balanceGate splits = some true ↔ exactSum splits = 0) ↔
      ¬ (exactSum splits ≠ 0 ∧ (2 ^ 64 : ℤ) ∣ (exactSum splits).num)) ∧
    ∀ splits' : List Fraction, splits.Perm splits' → PartialSumsFit splits'.dropLast →
      (balanceGate splits' = some true ↔ balanceGate splits = some true) := by
  have hz : exactSum splits = 0 → (2 ^ 64 : ℤ) ∣ (exactSum splits).num := fun h => by simp [h]
  refine ⟨?_, fun splits' hp hf' => ?_⟩
  · rw [gate_cut hn hf]
    tauto
  · have hn' : NewsExact splits' := fun s hs => hn s (hp.mem_iff.mpr hs)
    rw [gate_cut hn hf, gate_cut hn' hf', exactSum_perm hp]

/-- A balanced grocery bill in cents: the gate and the exact sum agree. -/
theorem balanceGate_exact_iff_bill :
    ((balanceGate [(-1050, 100), (700, 100), (350, 100)] = some true ↔
        exactSum [(-1050, 100), (700, 100), (350, 100)] = 0) ↔
      ¬ (exactSum [(-1050, 100), (700, 100), (350, 100)] ≠ 0 ∧
        (2 ^ 64 : ℤ) ∣ (exactSum [(-1050, 100), (700, 100), (350, 100)]).num)) := by
  refine (balanceGate_exact_iff [(-1050, 100), (700, 100), (350, 100)] ?_ ?_).1
  · intro s hs
    simp only [List.mem_cons, List.not_mem_nil, or_false] at hs
    rcases hs with rfl | rfl | rfl <;> decide
  · simp only [PartialSumsFit, ← List.mem_inits]
    decide +kernel

/-- Four splits of 2^62 sum to 2^64, which the gate takes for zero. -/
theorem balanceGate_wraps :
    ¬ ∀ splits : List Fraction, (∀ s ∈ splits, s.2 ≠ 0) →
      (balanceGate splits = some true ↔ exactSum splits = 0) := by
  intro h
  have hd : ∀ s ∈ List.replicate 4 ((2 ^ 62, 1) : Fraction), s.2 ≠ 0 := by
    intro s hs
    rw [List.eq_of_mem_replicate hs]
    decide
  have hz := (h (List.replicate 4 (2 ^ 62, 1)) hd).mp (by decide +kernel)
  exact absurd hz (by decide +kernel)

end Antimoney.Gnc
