import Mathlib.Data.List.Basic
import Mathlib.Data.List.Perm.Basic

/-!
# Tilings

A list read in pieces, each between two positions. Pieces that lie next to each other make up the
list between the outer positions: piece by piece when all are read from one list, and up to order
when each is read from a list of its own that holds the same elements there.
-/

namespace Antimoney.Lib

variable {α π : Type}

/-- The elements from position `a` up to position `b`. -/
def slice (l : List α) (a b : Nat) : List α := (l.drop a).take (b - a)

theorem slice_self (l : List α) (a : Nat) : slice l a a = [] := by simp [slice]

theorem slice_all (l : List α) : slice l 0 l.length = l := by simp [slice]

theorem slice_zero (l : List α) (b : Nat) : slice l 0 b = l.take b := by simp [slice]

theorem slice_length {l : List α} {a b : Nat} (hb : b ≤ l.length) :
    (slice l a b).length = b - a := by
  simp only [slice, List.length_take, List.length_drop]
  omega

theorem slice_append (l : List α) {a b c : Nat} (hab : a ≤ b) (hbc : b ≤ c) :
    slice l a b ++ slice l b c = slice l a c := by
  unfold slice
  have hc : c - a = (b - a) + (c - b) := by omega
  rw [hc, List.take_add, List.drop_drop]
  have hb : a + (b - a) = b := by omega
  rw [hb]

theorem take_eq_append_slice (l : List α) {a b : Nat} (h : a ≤ b) :
    l.take b = l.take a ++ slice l a b := by
  rw [← slice_zero, ← slice_zero, slice_append l (Nat.zero_le a) h]

/-- A slice of a list, up to its end. -/
theorem slice_eq_of_le {l : List α} {a b : Nat} (h : l.length ≤ b) : slice l a b = l.drop a := by
  unfold slice
  rw [List.take_of_length_le]
  simp only [List.length_drop]
  omega

theorem slice_map {β : Type} (f : α → β) (l : List α) (a b : Nat) :
    slice (l.map f) a b = (slice l a b).map f := by
  simp only [slice, List.map_drop, List.map_take]

/-- Pieces next to each other, from position `a` to position `b`; `R a b p` says that `p` is read
between `a` and `b`. -/
inductive Tiles (R : Nat → Nat → π → Prop) : Nat → Nat → List π → Prop
  | nil (a : Nat) : Tiles R a a []
  | cons {a b c : Nat} {p : π} {ps : List π} (h : a ≤ b) (hp : R a b p) (ht : Tiles R b c ps) :
      Tiles R a c (p :: ps)

namespace Tiles

variable {R R' : Nat → Nat → π → Prop} {a b c : Nat} {ps qs : List π}

theorem le (h : Tiles R a b ps) : a ≤ b := by
  induction h with
  | nil a => exact Nat.le_refl a
  | cons h _ _ ih => exact Nat.le_trans h ih

theorem single {p : π} (h : a ≤ b) (hp : R a b p) : Tiles R a b [p] := .cons h hp (.nil b)

theorem append (h : Tiles R a b ps) (h' : Tiles R b c qs) : Tiles R a c (ps ++ qs) := by
  induction h with
  | nil a => exact h'
  | cons hab hp _ ih => exact .cons hab hp (ih h')

theorem map {ρ : Type} {R' : Nat → Nat → ρ → Prop} {f : π → ρ} (h : Tiles R a b ps)
    (hR : ∀ x y p, a ≤ x → x ≤ y → y ≤ b → R x y p → R' x y (f p)) :
    Tiles R' a b (ps.map f) := by
  induction h with
  | nil a => exact .nil a
  | cons hab hp ht ih =>
    exact .cons hab (hR _ _ _ (Nat.le_refl _) hab ht.le hp)
      (ih fun x y p hx => hR x y p (Nat.le_trans hab hx))

theorem mono (h : Tiles R a b ps)
    (hR : ∀ x y p, a ≤ x → x ≤ y → y ≤ b → R x y p → R' x y p) : Tiles R' a b ps := by
  simpa using h.map (f := id) hR

/-- A tiling none of whose pieces goes over a position is two tilings. -/
theorem split {m : Nat} (h : Tiles R a b ps) (ha : a ≤ m) (hb : m ≤ b)
    (hno : ∀ x y p, R x y p → ¬ (x < m ∧ m < y)) :
    ∃ ps₁ ps₂, ps = ps₁ ++ ps₂ ∧ Tiles R a m ps₁ ∧ Tiles R m b ps₂ := by
  induction h with
  | nil a =>
    obtain rfl := Nat.le_antisymm ha hb
    exact ⟨[], [], rfl, .nil _, .nil _⟩
  | @cons a c b p ps hac hp ht ih =>
    by_cases hm : m = a
    · subst hm
      exact ⟨[], p :: ps, rfl, .nil _, .cons hac hp ht⟩
    · have hcm : c ≤ m := by
        have := hno a c p hp
        omega
      obtain ⟨ps₁, ps₂, rfl, h₁, h₂⟩ := ih hcm hb
      exact ⟨p :: ps₁, ps₂, rfl, .cons hac hp h₁, h₂⟩

/-- **Pieces of one list** make up the list. -/
theorem flatten_eq {l : List α} {ps : List (List α)}
    (h : Tiles (fun a b p => p = slice l a b) a b ps) : ps.flatten = slice l a b := by
  induction h with
  | nil a => exact (slice_self l a).symm
  | cons hab hp ht ih => rw [List.flatten_cons, hp, ih, slice_append l hab ht.le]

/-- **Pieces that hold what one list holds** make up the list, up to order. -/
theorem flatten_perm {l : List α} {ps : List (List α)}
    (h : Tiles (fun a b p => p.Perm (slice l a b)) a b ps) : ps.flatten.Perm (slice l a b) := by
  induction h with
  | nil a =>
    rw [slice_self]
    exact .refl _
  | cons hab hp ht ih =>
    rw [List.flatten_cons, ← slice_append l hab ht.le]
    exact hp.append ih

end Tiles

end Antimoney.Lib
