import Antimoney.Lib.Forest
import Mathlib.Data.Fintype.Card

/-!
# Branches

What hangs below a grounded node, in terms of the nodes above: two nodes met on one way up are above
each other one way or the other, no node is below two siblings, and a node is at most as deep as
there are nodes.
-/

namespace Antimoney.Lib

variable {κ : Type} {parent : κ → Option κ} {a b c d k p : κ}

/-- Of two nodes on the way up from a third, one is above the other. -/
theorem Above.total (ha : Above parent a k) (hb : Above parent b k) :
    Above parent a b ∨ Above parent b a := by
  induction ha with
  | self => exact .inr hb
  | @up k p h hp ih =>
    cases hb with
    | self => exact .inl (.up h hp)
    | up h' hp' =>
      obtain rfl := Option.some.inj (h'.symm.trans h)
      exact ih hp'

/-- A node other than itself is above a node through its parent. -/
theorem Above.via (h : Above parent a k) (hne : a ≠ k) :
    ∃ p, parent k = some p ∧ Above parent a p := by
  cases h with
  | self => exact absurd rfl hne
  | up hk hp => exact ⟨_, hk, hp⟩

/-- A child is not above its parent. -/
theorem Grounded.not_above_parent (hp : Grounded parent p) (hc : parent c = some p) :
    ¬ Above parent c p := fun h => not_grounded_of_above hc h (.up hc hp)

/-- No node is below two children of a grounded node. -/
theorem Grounded.branch_unique (hp : Grounded parent p) (hc : parent c = some p)
    (hd : parent d = some p) (hck : Above parent c k) (hdk : Above parent d k) : c = d := by
  by_contra hne
  rcases hck.total hdk with h | h
  · obtain ⟨q, hq, hcq⟩ := h.via hne
    obtain rfl := Option.some.inj (hq.symm.trans hd)
    exact hp.not_above_parent hc hcq
  · obtain ⟨q, hq, hdq⟩ := h.via (Ne.symm hne)
    obtain rfl := Option.some.inj (hq.symm.trans hc)
    exact hp.not_above_parent hd hdq

/-- What is below a node is the node and what is below its children. -/
theorem above_iff : Above parent a k ↔ a = k ∨ ∃ c, parent c = some a ∧ Above parent c k := by
  constructor
  · intro h
    induction h with
    | self => exact .inl rfl
    | @up k p h _ ih =>
      rcases ih with rfl | ⟨c, hc, hcp⟩
      · exact .inr ⟨k, h, .self⟩
      · exact .inr ⟨c, hc, .up h hcp⟩
  · rintro (rfl | ⟨c, hc, hck⟩)
    · exact .self
    · exact Above.trans (.up hc .self) hck

/-- A node is grounded when some node without a parent is above it. -/
theorem grounded_iff : Grounded parent k ↔ ∃ r, parent r = none ∧ Above parent r k := by
  constructor
  · intro h
    induction h with
    | @top k h => exact ⟨k, h, .self⟩
    | up h _ ih =>
      obtain ⟨r, hr, hrp⟩ := ih
      exact ⟨r, hr, .up h hrp⟩
  · rintro ⟨r, hr, h⟩
    induction h with
    | self => exact .top hr
    | up h _ ih => exact .up h ih

/-- No node is below two tops. -/
theorem top_unique (hc : parent c = none) (hd : parent d = none) (hck : Above parent c k)
    (hdk : Above parent d k) : c = d := by
  by_contra hne
  rcases hck.total hdk with h | h
  · obtain ⟨q, hq, -⟩ := h.via hne
    exact absurd (hd.symm.trans hq) (by simp)
  · obtain ⟨q, hq, -⟩ := h.via (Ne.symm hne)
    exact absurd (hc.symm.trans hq) (by simp)

/-! ## Depth -/

/-- The number of steps up from a node to its top. -/
inductive Depth (parent : κ → Option κ) : κ → Nat → Prop
  | top {k : κ} (h : parent k = none) : Depth parent k 0
  | up {k p : κ} {n : Nat} (h : parent k = some p) (hp : Depth parent p n) : Depth parent k (n + 1)

theorem Depth.unique {m n : Nat} (hm : Depth parent k m) (hn : Depth parent k n) : m = n := by
  induction hm generalizing n with
  | top h =>
    cases hn with
    | top => rfl
    | up h' _ => exact absurd (h.symm.trans h') (by simp)
  | up h _ ih =>
    cases hn with
    | top h' => exact absurd (h'.symm.trans h) (by simp)
    | up h' hp =>
      obtain rfl := Option.some.inj (h'.symm.trans h)
      rw [ih hp]

/-- The way up passes every depth. -/
theorem Depth.exists_le {S : κ → Prop} (hS : ∀ k p, S k → parent k = some p → S p) {n : Nat}
    (h : Depth parent k n) (hk : S k) {m : Nat} (hm : m ≤ n) : ∃ a, S a ∧ Depth parent a m := by
  induction h with
  | @top k h =>
    obtain rfl := Nat.le_zero.mp hm
    exact ⟨k, hk, .top h⟩
  | @up k p n h hp ih =>
    rcases Nat.lt_or_ge n m with hlt | hge
    · obtain rfl : m = n + 1 := by omega
      exact ⟨k, hk, .up h hp⟩
    · exact ih (hS k p hk h) hge

/-- **No node is as deep as there are nodes.** -/
theorem Depth.lt_length {nodes : List κ} (hS : ∀ k p, k ∈ nodes → parent k = some p → p ∈ nodes)
    {n : Nat} (h : Depth parent k n) (hk : k ∈ nodes) : n < nodes.length := by
  classical
  choose at_ hmem hdepth using fun m : Fin (n + 1) =>
    h.exists_le (S := (· ∈ nodes)) hS hk (Nat.le_of_lt_succ m.isLt)
  have hinj : Function.Injective at_ := by
    intro i j hij
    have hi := hdepth i
    rw [hij] at hi
    exact Fin.ext (hi.unique (hdepth j))
  have hsub : Finset.univ.image at_ ⊆ nodes.toFinset := by
    intro x hx
    obtain ⟨i, -, rfl⟩ := Finset.mem_image.mp hx
    exact List.mem_toFinset.mpr (hmem i)
  have hcard := Finset.card_le_card hsub
  rw [Finset.card_image_of_injective _ hinj, Finset.card_univ, Fintype.card_fin] at hcard
  have hlen := nodes.toFinset_card_le
  omega

theorem Grounded.depth (h : Grounded parent k) : ∃ n, Depth parent k n := by
  induction h with
  | top h => exact ⟨0, .top h⟩
  | up h _ ih =>
    obtain ⟨n, hn⟩ := ih
    exact ⟨n + 1, .up h hn⟩

theorem Depth.grounded {n : Nat} (h : Depth parent k n) : Grounded parent k := by
  induction h with
  | top h => exact .top h
  | up h _ ih => exact .up h ih

end Antimoney.Lib
