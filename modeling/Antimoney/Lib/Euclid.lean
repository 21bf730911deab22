import Mathlib.Algebra.Ring.Parity
import Mathlib.Data.Nat.ModEq
import Mathlib.Tactic.Linarith
import Mathlib.Tactic.Ring

/-!
# The divisions of Euclid's algorithm

How many divisions it takes, and what their parity says: the multiplier it finds for the larger
number is at most half of the smaller one, and the parity decides on which side of the smaller
number it leaves the product.

Headline:
* **`odd_divisions_iff`**: the number of divisions is odd exactly when a small multiple of the
  larger number is one greatest common divisor short of a multiple of the smaller one.
-/

namespace Antimoney.Lib

/-- The divisions Euclid's algorithm makes on `a` and `b`. -/
def divisions (a b : Nat) : Nat :=
  if b = 0 then 0 else divisions b (a % b) + 1
termination_by b
decreasing_by exact Nat.mod_lt a (by omega)

theorem divisions_zero (a : Nat) : divisions a 0 = 0 := by
  rw [divisions, if_pos rfl]

theorem divisions_pos {b : Nat} (h : 0 < b) (a : Nat) :
    divisions a b = divisions b (a % b) + 1 := by
  rw [divisions, if_neg (by omega)]

theorem divisions_of_dvd {a b : Nat} (h : 0 < b) (hd : b ∣ a) : divisions a b = 1 := by
  rw [divisions_pos h, Nat.mod_eq_zero_of_dvd hd, divisions_zero]

theorem gcd_mod (a b : Nat) : Nat.gcd b (a % b) = Nat.gcd a b := by
  rw [Nat.gcd_comm a b, Nat.gcd_rec b a, Nat.gcd_comm]

/-- The two multipliers Euclid's algorithm finds: each at most half of the other number, over the
greatest common divisor. -/
structure Cofactors (a b x y : Nat) : Prop where
  left_le : 2 * x * Nat.gcd a b ≤ b
  right_le : 2 * y * Nat.gcd a b ≤ a
  even : Even (divisions a b) → a * x = b * y + Nat.gcd a b
  odd : Odd (divisions a b) → b * y = a * x + Nat.gcd a b

theorem Cofactors.of_dvd {a b : Nat} (hb : 0 < b) (hab : b < a) (hd : b ∣ a) :
    Cofactors a b 0 1 := by
  have hg : Nat.gcd a b = b := Nat.gcd_eq_right hd
  have h1 : divisions a b = 1 := divisions_of_dvd hb hd
  obtain ⟨k, rfl⟩ := hd
  refine ⟨by omega, ?_, ?_, ?_⟩
  · rw [hg]
    have hk : 2 ≤ k := by
      by_contra h
      have hle : b * k ≤ b * 1 := Nat.mul_le_mul_left b (by omega)
      omega
    calc 2 * 1 * b = b * 2 := by ring
      _ ≤ b * k := Nat.mul_le_mul_left b hk
  · rw [h1]
    intro h
    exact absurd h (by decide)
  · intro _
    rw [hg]
    ring

/-- One division: the multipliers of `b` and the remainder give those of `a` and `b`. -/
theorem Cofactors.step {a b x y : Nat} (hb : 0 < b) (h : Cofactors b (a % b) x y) :
    Cofactors a b y (x + a / b * y) := by
  obtain ⟨hl, hr, he, ho⟩ := h
  rw [gcd_mod] at hl hr he ho
  have hdiv : b * (a / b) + a % b = a := Nat.div_add_mod a b
  have hn : divisions a b = divisions b (a % b) + 1 := divisions_pos hb a
  refine ⟨hr, ?_, ?_, ?_⟩
  · calc 2 * (x + a / b * y) * Nat.gcd a b
        = 2 * x * Nat.gcd a b + a / b * (2 * y * Nat.gcd a b) := by ring
      _ ≤ a % b + a / b * b := Nat.add_le_add hl (Nat.mul_le_mul_left _ hr)
      _ = a := by rw [Nat.mul_comm (a / b) b, Nat.add_comm, hdiv]
  · intro hev
    rw [hn, Nat.even_add_one, Nat.not_even_iff_odd] at hev
    calc a * y = (b * (a / b) + a % b) * y := by rw [hdiv]
      _ = b * (a / b) * y + a % b * y := by ring
      _ = b * (x + a / b * y) + Nat.gcd a b := by rw [ho hev]; ring
  · intro hod
    rw [hn, Nat.odd_add_one, Nat.not_odd_iff_even] at hod
    calc b * (x + a / b * y) = b * x + b * (a / b) * y := by ring
      _ = (b * (a / b) + a % b) * y + Nat.gcd a b := by rw [he hod]; ring
      _ = a * y + Nat.gcd a b := by rw [hdiv]

theorem exists_cofactors {a b : Nat} (hb : 0 < b) (hab : b < a) : ∃ x y, Cofactors a b x y := by
  induction b using Nat.strongRecOn generalizing a with
  | ind b ih =>
    by_cases hd : b ∣ a
    · exact ⟨0, 1, Cofactors.of_dvd hb hab hd⟩
    · have hlt : a % b < b := Nat.mod_lt a hb
      have hpos : 0 < a % b := Nat.emod_pos_of_not_dvd hd
      obtain ⟨x, y, h⟩ := ih (a % b) hlt hpos hlt
      exact ⟨y, x + a / b * y, h.step hb⟩

/-- No multiplier is on both sides, but for a number twice the common divisor. -/
theorem not_both_sides {a b x y z : Nat} (hb : 0 < b) (h2 : b ≠ 2 * Nat.gcd a b)
    (hx : 2 * x * Nat.gcd a b ≤ b) (hxy : a * x = b * y + Nat.gcd a b)
    (hz : 2 * z * Nat.gcd a b ≤ b) : ¬ b ∣ a * z + Nat.gcd a b := by
  intro hdvd
  have hg : 0 < Nat.gcd a b := Nat.gcd_pos_of_pos_right a hb
  have hsum : b ∣ Nat.gcd a b * (x + z) := by
    have ha : b ∣ a * (x + z) := by
      obtain ⟨k, hk⟩ := hdvd
      refine ⟨y + k, ?_⟩
      rw [Nat.mul_add, Nat.mul_add, ← hk, hxy]
      ring
    rw [Nat.gcd_comm, ← Nat.gcd_mul_right]
    exact Nat.dvd_gcd (Dvd.intro _ rfl) ha
  have hle : Nat.gcd a b * (x + z) ≤ b := by nlinarith
  -- the multiple is at most `b`, so it is none of it or all of it
  obtain h0 | hpos := Nat.eq_zero_or_pos (Nat.gcd a b * (x + z))
  · have hx0 : x = 0 := by
      have := (Nat.mul_eq_zero.mp h0).resolve_left (by omega)
      omega
    rw [hx0] at hxy
    omega
  · have hall : Nat.gcd a b * (x + z) = b := Nat.le_antisymm hle (Nat.le_of_dvd hpos hsum)
    have hhalf : 2 * x * Nat.gcd a b = b := by nlinarith
    obtain ⟨a', ha'⟩ := Nat.gcd_dvd_left a b
    have hone : x * (2 * y) + 1 = x * a' := by
      apply Nat.eq_of_mul_eq_mul_left hg
      calc Nat.gcd a b * (x * (2 * y) + 1)
          = 2 * x * Nat.gcd a b * y + Nat.gcd a b := by ring
        _ = a * x := by rw [hhalf, hxy]
        _ = Nat.gcd a b * a' * x := by rw [← ha']
        _ = Nat.gcd a b * (x * a') := by ring
    have hx1 : x = 1 := by
      have hd : x ∣ 1 := (Nat.dvd_add_right (Dvd.intro _ rfl)).mp ⟨a', hone⟩
      exact Nat.dvd_one.mp hd
    rw [hx1] at hhalf
    omega

/-- **The parity of the divisions**: odd exactly when some multiple of `a`, by at most half of `b`
over the common divisor, is one common divisor short of a multiple of `b`. -/
theorem odd_divisions_iff {a b : Nat} (hb : 0 < b) (hab : b < a) (h2 : b ≠ 2 * Nat.gcd a b) :
    Odd (divisions a b) ↔ ∃ x, 2 * x * Nat.gcd a b ≤ b ∧ b ∣ a * x + Nat.gcd a b := by
  obtain ⟨x, y, h⟩ := exists_cofactors hb hab
  constructor
  · intro ho
    exact ⟨x, h.left_le, ⟨y, (h.odd ho).symm⟩⟩
  · rintro ⟨z, hz, hdvd⟩
    by_contra he
    rw [Nat.not_odd_iff_even] at he
    exact not_both_sides hb h2 h.left_le (h.even he) hz hdvd

end Antimoney.Lib
