import Antimoney.Register.Entries

/-!
# Exact running balances

A running balance is a `gnc.Sum` of quantities. Where every partial sum fits, nothing panics and each
balance is the exact sum (`entries_exact`); from there on entries depend on the value of the balance
before them alone.
-/

namespace Antimoney

open Antimoney.Lib Antimoney.Gnc

/-- A split's quantity, as `gnc.New` is given it. -/
def Split.qty (s : Split) : Fraction := (s.quantityNum, s.quantityDenom)

section Exact

variable {ty : String} {acc acc' b : Numeric} {rows l m : List (Transaction × Split)}

theorem toFloat64_eq (n : Numeric) : toFloat64 n = n.value := by
  unfold toFloat64
  split
  · rename_i h
    simp [Numeric.value, Fraction.value, h]
  · rfl

/-- A running balance is a `gnc.Sum`. -/
theorem foldlM_of_priorBalance (h : priorBalance acc rows = some b) :
    ∃ values, (rows.map (·.2.qty)).mapM (fun s => Numeric.new s.1 s.2) = some values ∧
      values.foldlM Numeric.add acc = some b := by
  induction rows generalizing acc with
  | nil => exact ⟨[], rfl, h⟩
  | cons r rows ih =>
    rw [priorBalance_cons] at h
    simp only [Option.bind_eq_some_iff] at h
    obtain ⟨amount, ham, balance, hbal, h⟩ := h
    obtain ⟨values, hvalues, hsum⟩ := ih h
    refine ⟨amount :: values, ?_, ?_⟩
    · have ham' : Numeric.new r.2.qty.1 r.2.qty.2 = some amount := ham
      simp [ham', hvalues]
    · simp [hbal, hsum]

theorem gateSum_of_priorBalance (h : priorBalance .zero rows = some b) :
    gateSum (rows.map (·.2.qty)) = some b := by
  obtain ⟨values, hvalues, hsum⟩ := foldlM_of_priorBalance h
  unfold gateSum
  rw [hvalues]
  exact hsum

theorem rowAmount_exact {r : Transaction × Split} (h : r.2.qty.2 ≠ 0 ∧ NewExact r.2.qty) :
    ∃ v, rowAmount r = some v ∧ v.denom ≠ 0 ∧ v.value = r.2.qty.value :=
  new_value h.1 h.2

/-- **Balances are exact** on from rows that add up to `acc`, where every partial sum fits. -/
theorem entries_exact (hn : NewsExact ((l ++ m).map (·.2.qty)))
    (hf : PartialSumsFit ((l ++ m).map (·.2.qty))) (hd : acc.denom ≠ 0)
    (hv : acc.value = exactSum (l.map (·.2.qty))) :
    ∃ es b, registerEntries ty acc m = some es ∧ priorBalance acc m = some b ∧ b.denom ≠ 0 ∧
      b.value = exactSum ((l ++ m).map (·.2.qty)) := by
  induction m generalizing l acc with
  | nil =>
    rw [List.append_nil]
    exact ⟨[], acc, rfl, rfl, hd, hv⟩
  | cons r m ih =>
    have happ : l ++ r :: m = (l ++ [r]) ++ m := by simp
    rw [happ] at hn hf ⊢
    obtain ⟨v, ham, hvd, hvv⟩ := rowAmount_exact (hn r.2.qty (by simp))
    have hsum : acc.value + v.value = exactSum ((l ++ [r]).map (·.2.qty)) := by
      rw [hv, hvv, List.map_append, exactSum_append, List.map_singleton, exactSum_cons,
        exactSum_nil, add_zero]
    have hfit : Fits (exactSum ((l ++ [r]).map (·.2.qty))) := by
      refine hf _ ?_
      rw [@List.map_append _ _ _ (l ++ [r])]
      exact List.prefix_append _ _
    obtain ⟨balance, hbal, hval, hden⟩ : ∃ balance, acc.add v = some balance ∧
        balance.value = exactSum ((l ++ [r]).map (·.2.qty)) ∧ balance.denom ≠ 0 :=
      ⟨_, (add_eq hd hvd).trans (by rw [hsum]), fromBigRat_value hfit⟩
    obtain ⟨es, b, hes, hb, hbd, hbv⟩ := ih hn hf hden hval
    refine ⟨entryOf ty r v balance :: es, b, ?_, ?_, hbd, hbv⟩
    · rw [registerEntries_cons, ham, Option.bind_some, hbal, Option.bind_some, hes]
      rfl
    · rw [priorBalance_cons, ham, Option.bind_some, hbal, Option.bind_some, hb]

theorem rowAmount_denom {r : Transaction × Split} {v : Numeric} (h : rowAmount r = some v) :
    v.denom ≠ 0 := by
  have h0 : r.2.qty.2 ≠ 0 := by
    intro h0
    have hnone : rowAmount r = none := by
      unfold rowAmount Numeric.new
      exact if_pos h0
    rw [hnone] at h
    exact absurd h (by simp)
  obtain ⟨v', hv', hd⟩ := new_isSome h0
  obtain rfl := Option.some.inj (h.symm.trans hv')
  exact hd

/-- Entries depend on the value of the balance before them. -/
theorem registerEntries_congr (hd : acc.denom ≠ 0) (hd' : acc'.denom ≠ 0)
    (hv : acc.value = acc'.value) : registerEntries ty acc rows = registerEntries ty acc' rows := by
  cases rows with
  | nil => rfl
  | cons r rows =>
    rw [registerEntries_cons, registerEntries_cons]
    cases ham : rowAmount r with
    | none => rw [Option.bind_none, Option.bind_none]
    | some v =>
      have hvd := rowAmount_denom ham
      have hadd : acc.add v = acc'.add v := by
        rw [add_eq hd hvd, add_eq hd' hvd, hv]
      rw [Option.bind_some, Option.bind_some, hadd]

end Exact

end Antimoney
