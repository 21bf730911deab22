import Mathlib.Algebra.Order.Ring.Defs
import Mathlib.Data.Nat.Cast.Basic
import Mathlib.Tactic.Linarith

/-!
# Spaced instants

A sequence of instants in which each is at least a gap after every earlier one: it keeps its spacing
when some go and when one is added far enough behind, and only so many fit into a window
(`Spaced.length_mul_lt`).
-/

namespace Antimoney.Lib

section Order

variable {α : Type} [Add α] [LE α] {g u : α} {ts ts' : List α}

/-- Each instant is at least `g` after those before it. -/
def Spaced (g : α) (ts : List α) : Prop := ts.Pairwise fun t t' => t + g ≤ t'

theorem Spaced.sublist (h : Spaced g ts) (hs : ts'.Sublist ts) : Spaced g ts' :=
  List.Pairwise.sublist hs h

theorem Spaced.concat (h : Spaced g ts) (hu : ∀ t ∈ ts, t + g ≤ u) : Spaced g (ts ++ [u]) := by
  refine List.pairwise_append.mpr ⟨h, List.pairwise_singleton _ _, fun t ht t' ht' => ?_⟩
  obtain rfl := List.mem_singleton.mp ht'
  exact hu t ht

end Order

variable {α : Type} [CommRing α] [LinearOrder α] [IsStrictOrderedRing α] {g lo hi : α} {ts : List α}

/-- **How many fit** into `(lo, hi]`. -/
theorem Spaced.length_mul_lt (h : Spaced g ts) (hlo : ∀ t ∈ ts, lo < t) (hhi : ∀ t ∈ ts, t ≤ hi)
    (hpos : 0 < hi - lo + g) : ts.length * g < hi - lo + g := by
  induction ts generalizing lo with
  | nil => simpa using hpos
  | cons t ts ih =>
    obtain ⟨hlater, hspaced⟩ := List.pairwise_cons.mp h
    have hfirst := hlo t List.mem_cons_self
    have hlast := hhi t List.mem_cons_self
    have hrest := @ih (lo + g) hspaced
      (fun t' ht' => lt_of_lt_of_le (by linarith only [hfirst]) (hlater t' ht'))
      (fun t' ht' => hhi t' (.tail _ ht')) (by linarith only [hfirst, hlast])
    rw [List.length_cons]
    push_cast
    linarith only [hrest]

end Antimoney.Lib
