import Antimoney.Gnc.Numeric
import Antimoney.Lib.Rounding
import Mathlib.Data.Rat.Floor

/-!
# `Numeric.Convert`

A value forced onto a target denominator (`internal/gnc/numeric.go`, `Convert` and `bankerRound`).
`big.Int.DivMod` is Euclidean, which for a positive denominator rounds down; each mode corrects its
quotient by hand.

**`convert_rounds`**: on every value with a positive denominator each mode gives the integer it is
named after, and `RoundNever` fails exactly on a remainder.
-/

namespace Antimoney.Gnc

open Antimoney.Lib Numeric

/-- `RoundingMode`: the five constants, and any other `int`. -/
inductive RoundingMode
  | roundBanker
  | roundTruncate
  | roundFloor
  | roundCeiling
  | roundNever
  | unknown (mode : Int64)
  deriving DecidableEq

/-- The errors of the package. -/
inductive NumericError
  /-- `ErrRemainder`: "gnc: exact conversion impossible, remainder exists". -/
  | errRemainder
  /-- `ErrDivideByZero`: "gnc: division by zero". -/
  | errDivideByZero
  /-- "gnc: target denominator must be positive, got %d". -/
  | targetDenom (targetDenom : Int64)
  /-- "gnc: unknown rounding mode %d". -/
  | unknownMode (mode : Int64)
  /-- "gnc: invalid amount string %q". -/
  | invalidAmount (amount : String)
  /-- "gnc: amount %q cannot be exactly represented with SCU %d". -/
  | inexactAmount (amount : String) (scu : Int64)
  deriving DecidableEq

namespace Numeric

/-- `bankerRound`: round half to even. `quo` is odd when its lowest bit is set. -/
def bankerRound (quo rem denom : ℤ) (targetDenom : Int64) : Numeric :=
  let absRem := |rem|
  let doubled := absRem * 2
  let absDenom := |denom|
  let sign : ℤ := if rem < 0 then -1 else 1
  let quo :=
    if doubled < absDenom then quo
    else if absDenom < doubled then quo + sign
    else if quo % 2 ≠ 0 then quo + sign
    else quo
  ⟨Int64.ofInt quo, targetDenom⟩

/-- `Convert`, with `Zero()` beside an error. `DivMod` panics on a zero denominator; its quotient
and remainder are Lean's `/` and `%` on integers, which are Euclidean too. -/
def convert (n : Numeric) (targetDenom : Int64) (mode : RoundingMode) :
    Option (Numeric × Option NumericError) :=
  if targetDenom ≤ 0 then some (zero, some (.targetDenom targetDenom))
  else if n.denom = 0 then none
  else
    let bigNum := n.num.toInt * targetDenom.toInt
    let bigDenom := n.denom.toInt
    let quo := bigNum / bigDenom
    let rem := bigNum % bigDenom
    if rem = 0 then some (⟨Int64.ofInt quo, targetDenom⟩, none)
    else match mode with
      | .roundNever => some (zero, some .errRemainder)
      | .roundTruncate =>
        let quo := if bigNum < 0 ∧ rem ≠ 0 then quo + 1 else quo
        some (⟨Int64.ofInt quo, targetDenom⟩, none)
      | .roundFloor => some (⟨Int64.ofInt quo, targetDenom⟩, none)
      | .roundCeiling =>
        let quo := if rem > 0 then quo + 1 else quo
        some (⟨Int64.ofInt quo, targetDenom⟩, none)
      | .roundBanker => some (bankerRound quo rem bigDenom targetDenom, none)
      | .unknown mode => some (zero, some (.unknownMode mode))

end Numeric

/-- The exact number of units: `num*target/denom`. -/
def Numeric.units (n : Numeric) (targetDenom : Int64) : ℚ :=
  ((n.num.toInt * targetDenom.toInt : ℤ) : ℚ) / (n.denom.toInt : ℚ)

/-- What a mode should make of a rational: `r` is `q` rounded. -/
def RoundingMode.Rounds : RoundingMode → ℚ → ℤ → Prop
  | .roundBanker, q, r => NearestEven q r
  | .roundTruncate, q, r => r = towardZero q
  | .roundFloor, q, r => r = ⌊q⌋
  | .roundCeiling, q, r => r = ⌈q⌉
  | .roundNever, q, r => (r : ℚ) = q
  | .unknown _, q, r => (r : ℚ) = q

/-- The four modes that always have an integer to round to. -/
def RoundingMode.Directed : RoundingMode → Prop
  | .roundNever | .unknown _ => False
  | _ => True

/-- The others take an exact result only. -/
theorem RoundingMode.Rounds.exact {mode : RoundingMode} {q : ℚ} {r : ℤ} (h : mode.Rounds q r)
    (hm : ¬ mode.Directed) : (r : ℚ) = q := by
  cases mode with
  | roundNever | unknown => exact h
  | _ => exact absurd trivial hm

theorem RoundingMode.Rounds.unique {mode : RoundingMode} {q : ℚ} {r s : ℤ}
    (hr : mode.Rounds q r) (hs : mode.Rounds q s) : r = s := by
  cases mode with
  | roundBanker => exact NearestEven.unique hr hs
  | roundTruncate | roundFloor | roundCeiling => exact Eq.trans hr (Eq.symm hs)
  | roundNever | unknown =>
    have h : (r : ℚ) = (s : ℚ) := Eq.trans hr (Eq.symm hs)
    exact_mod_cast h

/-- Every mode keeps an integer. -/
theorem RoundingMode.rounds_intCast (mode : RoundingMode) (r : ℤ) : mode.Rounds (r : ℚ) r := by
  cases mode with
  | roundBanker => exact NearestEven.intCast r
  | roundTruncate => exact (towardZero_intCast r).symm
  | roundFloor => exact (Int.floor_intCast r).symm
  | roundCeiling => exact (Int.ceil_intCast r).symm
  | roundNever | unknown => exact rfl

section Convert

variable {n : Numeric} {targetDenom : Int64}

/-- `bankerRound` rounds the quotient it is given the parts of. -/
theorem bankerRound_rounds {a d : ℤ} {t : Int64} (hd : 0 < d) :
    ∃ r, bankerRound (a / d) (a % d) d t = ⟨Int64.ofInt r, t⟩ ∧
      NearestEven ((a : ℚ) / d) r := by
  have hrem : 0 ≤ a % d := Int.emod_nonneg a hd.ne'
  have hsign : ¬ a % d < 0 := not_lt.mpr hrem
  unfold bankerRound
  simp only [abs_of_nonneg hrem, abs_of_pos hd, if_neg hsign]
  refine ⟨_, rfl, ?_⟩
  rcases lt_trichotomy (a % d * 2) d with hlt | heq | hgt
  · rw [if_pos hlt]
    exact nearestEven_quo hd hlt
  · rw [if_neg (not_lt.mpr heq.ge), if_neg (not_lt.mpr heq.le)]
    -- a tie: an odd quotient is rounded up
    by_cases hodd : a / d % 2 ≠ 0
    · rw [if_pos hodd]
      exact nearestEven_tie hd heq (.inr rfl) (Int.even_iff.mpr (by omega))
    · rw [if_neg hodd]
      exact nearestEven_tie hd heq (.inl rfl) (Int.even_iff.mpr (by omega))
  · rw [if_neg (not_lt.mpr hgt.le), if_pos hgt]
    exact nearestEven_quo_succ hd hgt

theorem denom_ne_zero (hn : 0 < n.denom.toInt) : n.denom ≠ 0 := by
  intro h
  rw [h] at hn
  exact absurd hn (by decide)

/-- No remainder: the quotient, in every mode. -/
theorem convert_of_dvd (mode : RoundingMode) (hn : 0 < n.denom.toInt) (ht : 0 < targetDenom)
    (hrem : n.num.toInt * targetDenom.toInt % n.denom.toInt = 0) :
    ∃ r, n.convert targetDenom mode = some (⟨Int64.ofInt r, targetDenom⟩, none) ∧
      n.units targetDenom = (r : ℚ) := by
  refine ⟨n.num.toInt * targetDenom.toInt / n.denom.toInt, ?_, ?_⟩
  · unfold Numeric.convert
    simp only [if_neg (Int64.not_le.mpr ht), if_neg (denom_ne_zero hn), if_pos hrem]
  · unfold Numeric.units
    rw [div_eq_quo_add hn, hrem]
    simp

/-- A remainder: a rounding mode rounds, and any other fails. -/
theorem convert_of_rem (mode : RoundingMode) (hn : 0 < n.denom.toInt) (ht : 0 < targetDenom)
    (hrem : n.num.toInt * targetDenom.toInt % n.denom.toInt ≠ 0) :
    (mode.Directed ∧ ∃ r, n.convert targetDenom mode = some (⟨Int64.ofInt r, targetDenom⟩, none) ∧
      mode.Rounds (n.units targetDenom) r) ∨
    (¬ mode.Directed ∧ ∃ e, n.convert targetDenom mode = some (zero, some e)) := by
  have hpos : n.num.toInt * targetDenom.toInt % n.denom.toInt > 0 :=
    lt_of_le_of_ne (Int.emod_nonneg _ hn.ne') (Ne.symm hrem)
  unfold Numeric.convert
  simp only [if_neg (Int64.not_le.mpr ht), if_neg (denom_ne_zero hn), if_neg hrem]
  cases mode with
  | roundNever | unknown => exact .inr ⟨by simp [RoundingMode.Directed], _, rfl⟩
  | roundFloor =>
    exact .inl ⟨by simp [RoundingMode.Directed], _, rfl, (floor_div_int hn).symm⟩
  | roundCeiling =>
    simp only [if_pos hpos]
    exact .inl ⟨by simp [RoundingMode.Directed], _, rfl, (ceil_div_int hn hrem).symm⟩
  | roundTruncate =>
    simp only [ne_eq, hrem, not_false_eq_true, and_true]
    exact .inl ⟨by simp [RoundingMode.Directed], _, rfl, (towardZero_div_int hn hrem).symm⟩
  | roundBanker =>
    obtain ⟨r, hr, hnear⟩ := bankerRound_rounds (t := targetDenom)
      (a := n.num.toInt * targetDenom.toInt) hn
    simp only [hr]
    exact .inl ⟨by simp [RoundingMode.Directed], r, rfl, hnear⟩

/-- A value that is a whole number of units leaves no remainder. -/
theorem rem_eq_zero {r : ℤ} (hn : 0 < n.denom.toInt) (h : (r : ℚ) = n.units targetDenom) :
    n.num.toInt * targetDenom.toInt % n.denom.toInt = 0 := by
  have hd : (n.denom.toInt : ℚ) ≠ 0 := by exact_mod_cast hn.ne'
  have hmul : r * n.denom.toInt = n.num.toInt * targetDenom.toInt := by
    unfold Numeric.units at h
    rw [eq_div_iff hd] at h
    exact_mod_cast h
  rw [← hmul, Int.mul_emod_left]

theorem value_of_units {r : ℤ} {m : Numeric} (ht : 0 < targetDenom)
    (h : (r : ℚ) = n.units targetDenom) (hr : m.num.toInt = r) (hm : m.denom = targetDenom) :
    m.value = n.value := by
  have ht' : (targetDenom.toInt : ℚ) ≠ 0 := by
    have hpos : 0 < targetDenom.toInt := Int64.lt_iff_toInt_lt.mp ht
    exact_mod_cast hpos.ne'
  simp only [Numeric.value, Fraction.value, hr, hm, h, Numeric.units]
  push_cast
  rw [div_right_comm, mul_div_assoc, div_self ht', mul_one]

end Convert

/-- **Rounding is right in every mode.** A rounding mode rounds to exactly one integer; whenever the
exactly rounded integer is an `int64`, `Convert` returns it over the target denominator, which under
`RoundNever` is the value itself; and `RoundNever` fails exactly when the division has a
remainder. -/
theorem convert_rounds {n : Numeric} {targetDenom : Int64} (hn : 0 < n.denom)
    (ht : 0 < targetDenom) (mode : RoundingMode) :
    (mode.Directed → ∃! r, mode.Rounds (n.units targetDenom) r) ∧
    (∀ r, mode.Rounds (n.units targetDenom) r → -2 ^ 63 ≤ r → r < 2 ^ 63 →
      ∃ m, n.convert targetDenom mode = some (m, none) ∧ m.num.toInt = r ∧
        m.denom = targetDenom ∧ (mode = .roundNever → m.value = n.value)) ∧
    ((∃ m e, n.convert targetDenom .roundNever = some (m, some e)) ↔
      n.num.toInt * targetDenom.toInt % n.denom.toInt ≠ 0) := by
  have hn' : 0 < n.denom.toInt := Int64.lt_iff_toInt_lt.mp hn
  refine ⟨fun hdir => ?_, fun r hr hge hlt => ?_, ?_⟩
  · by_cases hrem : n.num.toInt * targetDenom.toInt % n.denom.toInt = 0
    · obtain ⟨r, -, hq⟩ := convert_of_dvd mode hn' ht hrem
      rw [hq]
      exact ⟨r, mode.rounds_intCast r, fun s hs => hs.unique (mode.rounds_intCast r)⟩
    · obtain ⟨-, r, -, hr⟩ | ⟨hnot, -⟩ := convert_of_rem mode hn' ht hrem
      · exact ⟨r, hr, fun s hs => hs.unique hr⟩
      · exact absurd hdir hnot
  · have hconv : n.convert targetDenom mode = some (⟨Int64.ofInt r, targetDenom⟩, none) := by
      by_cases hrem : n.num.toInt * targetDenom.toInt % n.denom.toInt = 0
      · obtain ⟨s, hs, hq⟩ := convert_of_dvd mode hn' ht hrem
        rw [hq] at hr
        rw [hs, hr.unique (mode.rounds_intCast s)]
      · obtain ⟨-, s, hs, hround⟩ | ⟨hnot, -⟩ := convert_of_rem mode hn' ht hrem
        · rw [hs, hr.unique hround]
        · exact absurd (rem_eq_zero hn' (hr.exact hnot)) hrem
    have hnum : (Int64.ofInt r).toInt = r := Int64.toInt_ofInt_of_le hge hlt
    exact ⟨_, hconv, hnum, rfl, fun hmode => by
      subst hmode
      exact value_of_units ht hr hnum rfl⟩
  · constructor
    · rintro ⟨m, e, h⟩ hrem
      obtain ⟨r, hr, -⟩ := convert_of_dvd .roundNever hn' ht hrem
      rw [hr] at h
      simp at h
    · intro hrem
      obtain ⟨hdir, -⟩ | ⟨-, e, he⟩ := convert_of_rem .roundNever hn' ht hrem
      · exact hdir.elim
      · exact ⟨_, e, he⟩

/-- Minus two thirds go down to 67 cents. -/
theorem convert_rounds_thirds :
    ∃ m, Numeric.convert ⟨-2, 3⟩ 100 .roundFloor = some (m, none) ∧ m.num.toInt = -67 ∧
      m.denom = 100 ∧ (RoundingMode.roundFloor = .roundNever → m.value = Numeric.value ⟨-2, 3⟩) :=
  (@convert_rounds ⟨-2, 3⟩ 100 (by decide) (by decide) .roundFloor).2.1 (-67)
    (show (-67 : ℤ) = ⌊Numeric.units ⟨-2, 3⟩ 100⌋ by decide +kernel) (by decide) (by decide)

end Antimoney.Gnc
