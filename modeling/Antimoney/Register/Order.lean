import Antimoney.Register.Answers
import Mathlib.Data.Prod.Lex
import Mathlib.Data.String.Basic

/-!
# The order of a register

`ORDER BY t.post_date, t.custom_id, t.enter_date` with a rank for ties is a linear order of keys. A
register is the one list of its rows that is sorted so when ranks tell splits apart
(`register_unique`), and its rows up to a date come first (`filter_eq_take`).
-/

namespace Antimoney

open Antimoney.Lib

/-- What `ORDER BY` compares. -/
def sortKey (r : Transaction × Split) : ℤ ×ₗ String ×ₗ ℤ :=
  toLex (r.1.postDate, toLex (r.1.customId, r.1.enterDate))

section Order

variable {ties : Guid → Nat}

theorem registerLe_iff {a b : Transaction × Split} :
    registerLe ties a b ↔
      sortKey a < sortKey b ∨ (sortKey a = sortKey b ∧ ties a.2.guid ≤ ties b.2.guid) := by
  have hkey : sortKey a = sortKey b ↔ a.1.postDate = b.1.postDate ∧
      a.1.customId = b.1.customId ∧ a.1.enterDate = b.1.enterDate := by
    simp [sortKey]
  have hlt : sortKey a < sortKey b ↔ a.1.postDate < b.1.postDate ∨ (a.1.postDate = b.1.postDate ∧
      (a.1.customId < b.1.customId ∨ (a.1.customId = b.1.customId ∧
        a.1.enterDate < b.1.enterDate))) := by
    simp only [sortKey, Prod.Lex.toLex_lt_toLex]
  rw [hkey, hlt]
  unfold registerLe
  tauto

/-- The order looks at keys and ranks alone. -/
theorem registerLe_congr {ties' : Guid → Nat} {a b a' b' : Transaction × Split}
    (ha : sortKey a = sortKey a') (hb : sortKey b = sortKey b')
    (hra : ties a.2.guid = ties' a'.2.guid) (hrb : ties b.2.guid = ties' b'.2.guid)
    (h : registerLe ties' a' b') : registerLe ties a b := by
  rw [registerLe_iff] at h ⊢
  rwa [ha, hb, hra, hrb]

theorem registerLe_iff_toLex {a b : Transaction × Split} :
    registerLe ties a b ↔
      toLex (sortKey a, ties a.2.guid) ≤ toLex (sortKey b, ties b.2.guid) := by
  rw [registerLe_iff, Prod.Lex.toLex_le_toLex]

instance : IsTrans (Transaction × Split) (registerLe ties) :=
  ⟨fun _ _ _ h h' => registerLe_iff_toLex.mpr
    ((registerLe_iff_toLex.mp h).trans (registerLe_iff_toLex.mp h'))⟩

instance : Std.Total (registerLe ties) :=
  ⟨fun _ _ => (le_total _ _).imp registerLe_iff_toLex.mpr registerLe_iff_toLex.mpr⟩

theorem sortKey_le_of_registerLe {a b : Transaction × Split} (h : registerLe ties a b) :
    sortKey a ≤ sortKey b := by
  rcases registerLe_iff.mp h with h | h
  · exact h.le
  · exact h.1.le

theorem postDate_le_of_registerLe {a b : Transaction × Split} (h : registerLe ties a b) :
    a.1.postDate ≤ b.1.postDate := by
  rcases h with h | ⟨h, -⟩
  · exact le_of_lt h
  · exact le_of_eq h

/-- Rows under one key and one rank are one split's. -/
theorem eq_of_registerLe {rows : List (Transaction × Split)} (hn : (rows.map (·.2.guid)).Nodup)
    (ht : ∀ a ∈ rows, ∀ b ∈ rows, ties a.2.guid = ties b.2.guid → a.2.guid = b.2.guid)
    {a b : Transaction × Split} (ha : a ∈ rows) (hb : b ∈ rows) (h : registerLe ties a b)
    (h' : registerLe ties b a) : a = b := by
  have hlex := le_antisymm (registerLe_iff_toLex.mp h) (registerLe_iff_toLex.mp h')
  have hties : ties a.2.guid = ties b.2.guid := congrArg (fun k => (ofLex k).2) hlex
  exact List.inj_on_of_nodup_map hn ha hb (ht a ha b hb hties)

/-- **The one sorted list of the rows.** -/
theorem insertionSort_unique {rows l : List (Transaction × Split)}
    (hn : (rows.map (·.2.guid)).Nodup)
    (ht : ∀ a ∈ rows, ∀ b ∈ rows, ties a.2.guid = ties b.2.guid → a.2.guid = b.2.guid)
    (hp : l.Perm rows) (hs : l.Pairwise (registerLe ties)) :
    rows.insertionSort (registerLe ties) = l := by
  have hperm := List.perm_insertionSort (registerLe ties) rows
  refine List.Perm.eq_of_pairwise (fun a b ha hb => ?_) (List.pairwise_insertionSort _ _) hs
    (hperm.trans hp.symm)
  exact eq_of_registerLe hn ht (hperm.subset ha) (hp.subset hb)

end Order

/-- The elements of a sorted list that satisfy what smaller elements do come first. -/
theorem filter_eq_take {α : Type} {p : α → Bool} {l : List α}
    (h : l.Pairwise fun a b => p b = true → p a = true) : l.filter p = l.take (l.countP p) := by
  induction l with
  | nil => rfl
  | cons a l ih =>
    obtain ⟨ha, hl⟩ := List.pairwise_cons.mp h
    by_cases hp : p a = true
    · rw [List.filter_cons_of_pos hp, List.countP_cons_of_pos hp, List.take_succ_cons, ih hl]
    · have hnone : ∀ b ∈ l, ¬ p b = true := fun b hb hpb => hp (ha b hb hpb)
      rw [List.filter_cons_of_neg hp, List.countP_cons_of_neg hp, List.filter_eq_nil_iff.mpr hnone,
        List.countP_eq_zero.mpr hnone, List.take_zero]

end Antimoney
