import Antimoney.Gnc.Amount
import Antimoney.Gnc.Denominators

/-!
# Chains of operations

The remaining operations of `internal/gnc/numeric.go`, and any finite computation with all of them
from `int64`s and strings. `none` is a panic; beside an error stands `Zero()`, with which a caller
may go on.

**`chain_sound_iff`**: a chain keeps every denominator positive, and panics nowhere, exactly when no
`New` gets the least `int64` for a denominator and no exact result of `Add`, `Sub`, `Mul` or `Div`
has, in lowest terms, a denominator that 2^63 divides.
-/

namespace Antimoney.Gnc

namespace Numeric

/-- `FromInt`. -/
def fromInt (n : Int64) : Numeric := ⟨n, 1⟩

/-- `Abs`. -/
def abs (n : Numeric) : Numeric := if n.num < 0 then ⟨-n.num, n.denom⟩ else n

/-- `Sub`. -/
def sub (n other : Numeric) : Option Numeric := do
  let a ← n.toBigRat
  let b ← other.toBigRat
  pure (fromBigRat (a - b))

/-- `Mul`. -/
def mul (n other : Numeric) : Option Numeric := do
  let a ← n.toBigRat
  let b ← other.toBigRat
  pure (fromBigRat (a * b))

/-- `Div`. -/
def div (n other : Numeric) : Option (Numeric × Option NumericError) :=
  if other.isZero then some (zero, some .errDivideByZero)
  else do
    let a ← n.toBigRat
    let b ← other.toBigRat
    pure (fromBigRat (a / b), none)

end Numeric

open Numeric

/-- A finite chain of operations. -/
inductive Chain
  | new (num denom : Int64)
  | fromAmount (amount : String) (scu : Int64)
  | fromInt (n : Int64)
  | neg (c : Chain)
  | abs (c : Chain)
  | add (c d : Chain)
  | sub (c d : Chain)
  | mul (c d : Chain)
  | div (c d : Chain)
  | convert (c : Chain) (targetDenom : Int64) (mode : RoundingMode)

namespace Chain

/-- The value of a chain, `none` when an operation of it panics. -/
def eval : Chain → Option Numeric
  | .new num denom => Numeric.new num denom
  | .fromAmount amount scu => some (Numeric.fromAmount amount scu).1
  | .fromInt n => some (Numeric.fromInt n)
  | .neg c => c.eval.map Numeric.neg
  | .abs c => c.eval.map Numeric.abs
  | .add c d => do (← c.eval).add (← d.eval)
  | .sub c d => do (← c.eval).sub (← d.eval)
  | .mul c d => do (← c.eval).mul (← d.eval)
  | .div c d => do ((← c.eval).div (← d.eval)).map (·.1)
  | .convert c targetDenom mode => do ((← c.eval).convert targetDenom mode).map (·.1)

section Eval

variable (c d : Chain)

theorem eval_neg : (neg c).eval = c.eval.map Numeric.neg := rfl

theorem eval_abs : (abs c).eval = c.eval.map Numeric.abs := rfl

theorem eval_add : (add c d).eval = c.eval.bind fun a => d.eval.bind fun b => a.add b := rfl

theorem eval_sub : (sub c d).eval = c.eval.bind fun a => d.eval.bind fun b => a.sub b := rfl

theorem eval_mul : (mul c d).eval = c.eval.bind fun a => d.eval.bind fun b => a.mul b := rfl

theorem eval_div :
    (div c d).eval = c.eval.bind fun a => d.eval.bind fun b => (a.div b).map (·.1) := rfl

theorem eval_convert (targetDenom : Int64) (mode : RoundingMode) :
    (convert c targetDenom mode).eval =
      c.eval.bind fun a => (a.convert targetDenom mode).map (·.1) := rfl

end Eval

/-- The arguments the operations ask for: `New` a nonzero denominator, `FromAmount` a unit. The
others answer a bad argument with an error. -/
def Proper : Chain → Prop
  | .new _ denom => denom ≠ 0
  | .fromAmount _ scu => 1 ≤ scu
  | .fromInt _ => True
  | .neg c | .abs c | .convert c _ _ => c.Proper
  | .add c d | .sub c d | .mul c d | .div c d => c.Proper ∧ d.Proper

/-- The chain panics nowhere and gives a value with a positive denominator. -/
def Good (e : Chain) : Prop := ∃ n, e.eval = some n ∧ 0 < n.denom

/-- Every value on the way is good. -/
def Sound : Chain → Prop
  | .new num denom => (Chain.new num denom).Good
  | .fromAmount amount scu => (Chain.fromAmount amount scu).Good
  | .fromInt n => (Chain.fromInt n).Good
  | .neg c => c.Sound ∧ (Chain.neg c).Good
  | .abs c => c.Sound ∧ (Chain.abs c).Good
  | .add c d => c.Sound ∧ d.Sound ∧ (Chain.add c d).Good
  | .sub c d => c.Sound ∧ d.Sound ∧ (Chain.sub c d).Good
  | .mul c d => c.Sound ∧ d.Sound ∧ (Chain.mul c d).Good
  | .div c d => c.Sound ∧ d.Sound ∧ (Chain.div c d).Good
  | .convert c targetDenom mode => c.Sound ∧ (Chain.convert c targetDenom mode).Good

/-- The low 64 bits of the denominator are neither 0 nor the least `int64`. -/
def Cuttable (r : ℚ) : Prop := ¬ (2 ^ 63 : ℤ) ∣ (r.den : ℤ)

/-- The exact result of an operation on the values of two chains can be cut. -/
def Cuts (f : ℚ → ℚ → ℚ) (c d : Chain) : Prop :=
  ∀ a b, c.eval = some a → d.eval = some b → Cuttable (f a.value b.value)

/-- What every step has to meet. -/
def Meets : Chain → Prop
  | .new _ denom => denom ≠ Int64.minValue
  | .fromAmount _ _ | .fromInt _ => True
  | .neg c | .abs c | .convert c _ _ => c.Meets
  | .add c d => c.Meets ∧ d.Meets ∧ Cuts (· + ·) c d
  | .sub c d => c.Meets ∧ d.Meets ∧ Cuts (· - ·) c d
  | .mul c d => c.Meets ∧ d.Meets ∧ Cuts (· * ·) c d
  | .div c d => c.Meets ∧ d.Meets ∧ Cuts (· / ·) c d

/-! ## What a step gives -/

theorem new_good_iff {num denom : Int64} (h : denom ≠ 0) :
    (Chain.new num denom).Good ↔ denom ≠ Int64.minValue := by
  obtain ⟨v, hv, -⟩ := new_isSome (s := (num, denom)) h
  have hpos : 0 < v.denom ↔ ¬ (2 ^ 63 : ℤ) ∣ denom.toInt := signFixed_pos (new_denom hv)
  rw [dvd63_iff, or_iff_right h] at hpos
  have heval : (Chain.new num denom).eval = some v := hv
  unfold Good
  rw [heval]
  simp [hpos]

theorem fromAmount_good {amount : String} {scu : Int64} (h : 1 ≤ scu) :
    (Chain.fromAmount amount scu).Good := by
  have hpos : 0 < scu := by
    rw [Int64.lt_iff_toInt_lt]
    exact lt_of_lt_of_le (by decide) (Int64.le_iff_toInt_le.mp h)
  refine ⟨_, rfl, ?_⟩
  have hone : (0 : Int64) < 1 := by decide
  unfold Numeric.fromAmount
  split
  · exact hone
  · dsimp only
    split
    · exact hone
    · exact hpos

section Step

variable {c d : Chain}

theorem Sound.good (h : c.Sound) : c.Good := by
  cases c with
  | new | fromAmount | fromInt => exact h
  | neg | abs | convert => exact h.2
  | add | sub | mul | div => exact h.2.2

theorem neg_good (h : c.Good) : (Chain.neg c).Good := by
  obtain ⟨n, hn, hpos⟩ := h
  refine ⟨n.neg, ?_, hpos⟩
  rw [eval_neg, hn, Option.map_some]

theorem abs_good (h : c.Good) : (Chain.abs c).Good := by
  obtain ⟨n, hn, hpos⟩ := h
  refine ⟨n.abs, ?_, ?_⟩
  · rw [eval_abs, hn, Option.map_some]
  · unfold Numeric.abs
    split
    · exact hpos
    · exact hpos

/-- `Convert` has the target denominator, or fails with `Zero()`. -/
theorem convert_good {targetDenom : Int64} {mode : RoundingMode} (h : c.Good) :
    (Chain.convert c targetDenom mode).Good := by
  obtain ⟨n, hn, hpos⟩ := h
  have hpos' : 0 < n.denom.toInt := Int64.lt_iff_toInt_lt.mp hpos
  have hconv : ∃ m e, n.convert targetDenom mode = some (m, e) ∧ 0 < m.denom := by
    by_cases ht : 0 < targetDenom
    · by_cases hrem : n.num.toInt * targetDenom.toInt % n.denom.toInt = 0
      · obtain ⟨r, hr, -⟩ := convert_of_dvd mode hpos' ht hrem
        exact ⟨_, _, hr, ht⟩
      · obtain ⟨-, r, hr, -⟩ | ⟨-, e, he⟩ := convert_of_rem mode hpos' ht hrem
        · exact ⟨_, _, hr, ht⟩
        · exact ⟨_, _, he, by decide⟩
    · refine ⟨zero, some (.targetDenom targetDenom), ?_, by decide⟩
      unfold Numeric.convert
      rw [if_pos (Int64.not_lt.mp ht)]
  obtain ⟨m, e, hm, hmpos⟩ := hconv
  refine ⟨m, ?_, hmpos⟩
  rw [eval_convert, hn]
  simp [hm]

/-- An operation that rounds an exact result to a pair of `int64`s. -/
theorem cut_good_iff {f : ℚ → ℚ → ℚ} {e : Chain} (hc : c.Good) (hd : d.Good)
    (he : ∀ a b, c.eval = some a → d.eval = some b → a.denom ≠ 0 → b.denom ≠ 0 →
      e.eval = some (fromBigRat (f a.value b.value))) :
    e.Good ↔ Cuts f c d := by
  obtain ⟨a, ha, hapos⟩ := hc
  obtain ⟨b, hb, hbpos⟩ := hd
  have heval := he a b ha hb (ne_zero_of_not_dvd (pos_not_dvd hapos))
    (ne_zero_of_not_dvd (pos_not_dvd hbpos))
  have hgood : e.Good ↔ Cuttable (f a.value b.value) := by
    unfold Good Cuttable
    rw [heval, ← fromBigRat_denom_pos]
    simp
  rw [hgood]
  constructor
  · intro h a' b' ha' hb'
    obtain rfl := Option.some.inj (ha.symm.trans ha')
    obtain rfl := Option.some.inj (hb.symm.trans hb')
    exact h
  · intro h
    exact h a b ha hb

theorem add_good_iff (hc : c.Good) (hd : d.Good) : (Chain.add c d).Good ↔ Cuts (· + ·) c d := by
  refine cut_good_iff hc hd fun a b ha hb ha0 hb0 => ?_
  rw [eval_add, ha, hb]
  simp [Numeric.add, toBigRat_eq ha0, toBigRat_eq hb0]

theorem sub_good_iff (hc : c.Good) (hd : d.Good) : (Chain.sub c d).Good ↔ Cuts (· - ·) c d := by
  refine cut_good_iff hc hd fun a b ha hb ha0 hb0 => ?_
  rw [eval_sub, ha, hb]
  simp [Numeric.sub, toBigRat_eq ha0, toBigRat_eq hb0]

theorem mul_good_iff (hc : c.Good) (hd : d.Good) : (Chain.mul c d).Good ↔ Cuts (· * ·) c d := by
  refine cut_good_iff hc hd fun a b ha hb ha0 hb0 => ?_
  rw [eval_mul, ha, hb]
  simp [Numeric.mul, toBigRat_eq ha0, toBigRat_eq hb0]

/-- A division by zero fails with `Zero()`, which is what the rational quotient is then. -/
theorem div_good_iff (hc : c.Good) (hd : d.Good) : (Chain.div c d).Good ↔ Cuts (· / ·) c d := by
  refine cut_good_iff hc hd fun a b ha hb ha0 hb0 => ?_
  rw [eval_div, ha, hb]
  by_cases hz : b.num = 0
  · have hzero : fromBigRat (a.value / b.value) = zero := by
      have hb' : b.value = 0 := by simp [Numeric.value, Fraction.value, hz]
      rw [hb', div_zero]
      decide
    rw [hzero]
    simp [Numeric.div, Numeric.isZero, hz]
  · simp [Numeric.div, Numeric.isZero, hz, toBigRat_eq ha0, toBigRat_eq hb0]

theorem sound_unary {e : Chain} (ih : c.Sound ↔ c.Meets) (hg : c.Good → e.Good) :
    c.Sound ∧ e.Good ↔ c.Meets := by
  rw [← ih]
  exact ⟨fun h => h.1, fun h => ⟨h, hg h.good⟩⟩

theorem sound_binary {e : Chain} {p : Prop} (ihc : c.Sound ↔ c.Meets) (ihd : d.Sound ↔ d.Meets)
    (hg : c.Good → d.Good → (e.Good ↔ p)) :
    c.Sound ∧ d.Sound ∧ e.Good ↔ c.Meets ∧ d.Meets ∧ p := by
  rw [← ihc, ← ihd]
  constructor
  · rintro ⟨hc, hd, he⟩
    exact ⟨hc, hd, (hg hc.good hd.good).mp he⟩
  · rintro ⟨hc, hd, hp⟩
    exact ⟨hc, hd, (hg hc.good hd.good).mpr hp⟩

end Step

end Chain

open Chain

/-- **When chains keep their denominators positive.** Every value of a chain has a positive
denominator, and no operation of it panics, exactly when each step meets its condition. -/
theorem chain_sound_iff (e : Chain) (h : e.Proper) : e.Sound ↔ e.Meets := by
  induction e with
  | new num denom => exact new_good_iff h
  | fromAmount amount scu => exact iff_of_true (fromAmount_good h) trivial
  | fromInt n =>
    have hone : (0 : Int64) < 1 := by decide
    exact iff_of_true ⟨_, rfl, hone⟩ trivial
  | neg c ih => exact sound_unary (ih h) neg_good
  | abs c ih => exact sound_unary (ih h) abs_good
  | convert c targetDenom mode ih => exact sound_unary (ih h) convert_good
  | add c d ihc ihd => exact sound_binary (ihc h.1) (ihd h.2) add_good_iff
  | sub c d ihc ihd => exact sound_binary (ihc h.1) (ihd h.2) sub_good_iff
  | mul c d ihc ihd => exact sound_binary (ihc h.1) (ihd h.2) mul_good_iff
  | div c d ihc ihd => exact sound_binary (ihc h.1) (ihd h.2) div_good_iff

/-- A third of 10.50, in cents. -/
theorem chain_sound_iff_third :
    (Chain.convert (.div (.fromAmount "10.50" 100) (.new 3 1)) 100 .roundBanker).Sound ↔
      (Chain.convert (.div (.fromAmount "10.50" 100) (.new 3 1)) 100 .roundBanker).Meets := by
  refine chain_sound_iff _ ⟨?_, ?_⟩
  · have h : (1 : Int64) ≤ 100 := by decide
    exact h
  · have h : (1 : Int64) ≠ 0 := by decide
    exact h

/-- The square of 1/2^32 has a zero denominator, which the next sum divides by. -/
theorem chain_panics : ¬ ∀ e : Chain, e.Proper → e.Sound := by
  intro h
  have hne : (4294967296 : Int64) ≠ 0 := by decide
  obtain ⟨-, -, n, hn, -⟩ := h (.add (.mul (.new 1 4294967296) (.new 1 4294967296)) (.fromInt 1))
    ⟨⟨hne, hne⟩, trivial⟩
  have hnone : (Chain.add (.mul (.new 1 4294967296) (.new 1 4294967296)) (.fromInt 1)).eval
      = none := by decide +kernel
  rw [hnone] at hn
  exact absurd hn (by simp)

end Antimoney.Gnc
