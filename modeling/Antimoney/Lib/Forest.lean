import Mathlib.Logic.Basic

/-!
# Parent pointers

A partial map that gives each node its parent, over any type of nodes. A node is grounded when the
way up from it ends; a map all of whose nodes are grounded is a forest.

* `Grounded.cut`: taking parents away grounds no node less.
* **`Grounded.attach`**: neither does giving one node a parent that it is not above.
* `not_grounded_of_above`: a node above its own parent is not grounded.
-/

namespace Antimoney.Lib

variable {κ : Type} {parent parent' : κ → Option κ} {a c k p : κ}

/-- The way up from the node ends, after finitely many steps, at a node without a parent. -/
inductive Grounded (parent : κ → Option κ) : κ → Prop
  | top {k : κ} (h : parent k = none) : Grounded parent k
  | up {k p : κ} (h : parent k = some p) (hp : Grounded parent p) : Grounded parent k

/-- `a` is the node itself or is met on the way up from it. -/
inductive Above (parent : κ → Option κ) (a : κ) : κ → Prop
  | self : Above parent a a
  | up {k p : κ} (h : parent k = some p) (hp : Above parent a p) : Above parent a k

/-- What is above a node is above what hangs below it. -/
theorem Above.trans {b : κ} (h : Above parent a b) (h' : Above parent b k) : Above parent a k := by
  induction h' with
  | self => exact h
  | up hk _ ih => exact .up hk ih

/-- A grounded node is not above its own parent. -/
theorem not_grounded_of_above (hk : parent k = some p) (h : Above parent k p) :
    ¬ Grounded parent k := by
  intro hg
  induction hg generalizing p with
  | top h' => exact absurd (h'.symm.trans hk) (by simp)
  | @up k q h' _ ih =>
    obtain rfl := Option.some.inj (h'.symm.trans hk)
    -- the parent is above its own parent as well
    cases h with
    | self => exact ih hk .self
    | up hq hup => exact ih hq (Above.trans (.up hk .self) hup)

/-- Nodes outside a set that the way up never leaves are not met. -/
theorem not_above_of_closed {S : κ → Prop} (hS : ∀ k p, S k → parent k = some p → S p) (hk : S k)
    (ha : ¬ S a) : ¬ Above parent a k := by
  intro h
  induction h with
  | self => exact ha hk
  | up hp _ ih => exact ih (hS _ _ hk hp)

/-- Parents may be taken away. -/
theorem Grounded.cut (h : Grounded parent k)
    (hcut : ∀ j, parent' j = none ∨ parent' j = parent j) : Grounded parent' k := by
  induction h with
  | @top k h =>
    refine .top ?_
    rcases hcut k with hn | he
    · exact hn
    · exact he.trans h
  | @up k p h _ ih =>
    rcases hcut k with hn | he
    · exact .top hn
    · exact .up (he.trans h) ih

/-- A node whose way up does not meet `c` does not notice a new parent of `c`. -/
theorem Grounded.of_not_above (h : Grounded parent k) (hc : ¬ Above parent c k)
    (hother : ∀ j, j ≠ c → parent' j = parent j) : Grounded parent' k := by
  induction h with
  | @top k h =>
    have hne : k ≠ c := fun he => hc (he ▸ .self)
    exact .top ((hother k hne).trans h)
  | @up k p h _ ih =>
    have hne : k ≠ c := fun he => hc (he ▸ .self)
    exact .up ((hother k hne).trans h) (ih fun hp => hc (.up h hp))

/-- **One node gets another parent, which it is not above.** -/
theorem Grounded.attach (hother : ∀ j, j ≠ c → parent' j = parent j)
    (hc : ∀ p, parent' c = some p → Grounded parent p ∧ ¬ Above parent c p)
    (h : Grounded parent k) : Grounded parent' k := by
  have hground : Grounded parent' c := by
    cases hp : parent' c with
    | none => exact .top hp
    | some p => exact .up hp ((hc p hp).1.of_not_above (hc p hp).2 hother)
  induction h with
  | @top k h =>
    by_cases hk : k = c
    · exact hk ▸ hground
    · exact .top ((hother k hk).trans h)
  | @up k p h _ ih =>
    by_cases hk : k = c
    · exact hk ▸ hground
    · exact .up ((hother k hk).trans h) ih

end Antimoney.Lib
