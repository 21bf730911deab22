import Antimoney.Gnc.Denominators
import Antimoney.Ledger.Balance
import Antimoney.Register.Exact

/-!
# What `CreateTransaction` stores

Where the arithmetic is exact, a new transaction has the requested splits that have a value, as they
were requested, and one more on `Imbalance` exactly when they do not add up to zero; a call that fails
changes nothing (**`createTransaction_stores`**).
-/

namespace Antimoney

open Antimoney.Lib Antimoney.Gnc Prog

/-! ## Amounts -/

/-- A request with positive denominators whose partial sums, in lowest terms, stay inside
`int64`. -/
structure Askable (req : CreateTransactionRequest) : Prop where
  denoms : ∀ sp ∈ req.splits, 0 < sp.valueDenom
  sums : ∀ p, p <+: req.splits.map CreateSplitRequest.fraction →
    -2 ^ 63 < (exactSum p).num ∧ (exactSum p).num < 2 ^ 63 ∧ (exactSum p).den < 2 ^ 63

/-- The sum of the requested values. -/
def CreateTransactionRequest.total (req : CreateTransactionRequest) : ℚ :=
  exactSum (req.splits.map CreateSplitRequest.fraction)

/-- Splits of value zero do not count. -/
theorem exactSum_amounts (splits : List CreateSplitRequest) :
    exactSum (amounts splits) = exactSum (splits.map CreateSplitRequest.fraction) := by
  induction splits with
  | nil => rfl
  | cons sp splits ih =>
    rw [List.map_cons, exactSum_cons, ← ih]
    by_cases h0 : sp.valueNum = 0
    · have hval : sp.fraction.value = 0 := by
        simp [CreateSplitRequest.fraction, Fraction.value, h0]
      rw [hval, zero_add]
      simp [amounts, h0]
    · have hcons : amounts (sp :: splits) = sp.fraction :: amounts splits := by
        simp [amounts, h0]
      rw [hcons, exactSum_cons]

/-- The arithmetic of `CreateTransaction` is exact on such a request. -/
theorem Askable.representable {req : CreateTransactionRequest} (h : Askable req) :
    Representable (amounts req.splits) := by
  have hpre : ∀ p, p <+: amounts req.splits →
      -2 ^ 63 < (exactSum p).num ∧ (exactSum p).num < 2 ^ 63 ∧ (exactSum p).den < 2 ^ 63 := by
    intro p hp
    obtain ⟨q, hq, rfl⟩ := List.prefix_map_iff.mp hp
    obtain ⟨front, hfront, rfl⟩ := List.prefix_filter_iff.mp hq
    have hsum := exactSum_amounts front
    unfold amounts at hsum
    rw [hsum]
    exact h.sums _ (hfront.map _)
  constructor
  · intro f hf
    obtain ⟨sp, hsp, rfl⟩ := List.mem_map.mp hf
    have hpos := h.denoms sp (List.mem_of_mem_filter hsp)
    refine ⟨ne_zero_of_not_dvd (pos_not_dvd hpos), fun hneg => ?_⟩
    exact absurd (Int64.lt_trans hneg hpos) Int64.lt_irrefl
  · intro p hp
    obtain ⟨h1, h2, h3⟩ := hpre p hp
    exact ⟨h1.le, h2, h3.le⟩
  · exact (hpre _ List.prefix_rfl).1.ne'

/-! ## What is stored -/

/-- The state after a new transaction: the requested splits that have a value, as requested, and the
negated total on `Imbalance` exactly when it is not zero. -/
structure Stores (book : Guid) (req : CreateTransactionRequest) (s : Db) (t : Transaction)
    (rows : List Split) (s' : Db) : Prop where
  stored : ∃ as, ImbalanceOnly book as ∧ (req.total = 0 → as = []) ∧ s' = s.append as [t] rows
  new : s.hasTransaction t.guid = false
  tx : ∀ row ∈ rows, row.txGuid = t.guid
  splits : ∃ asked added, rows = asked ++ added ∧
    List.Forall₂ (RowOf t.guid CreateSplitRequest.newState)
      (req.splits.filter (·.valueNum != 0)) asked ∧
    (req.total = 0 → added = []) ∧
    (req.total ≠ 0 → ∃ row, added = [row] ∧ s'.Imbalance book row.accountGuid ∧
      row.fraction.value = -req.total ∧ row.qty = row.fraction ∧ row.reconcileState = "n")
  zero : exactSum (rows.map Split.fraction) = 0

section Stores

variable {book : Guid} {req : CreateTransactionRequest} {s v : Db} {as : List Account}
  {t : Transaction} {rows : List Split}

/-- The sum is computed exactly. -/
theorem Askable.sum (h : Askable req) {valid : List CreateSplitRequest} {sum : Numeric}
    (hvalid : validSplits req.splits = .ok valid) (hsum : splitSum valid = some sum) :
    (sum.isZero = true ↔ req.total = 0) ∧ sum.neg.value = -req.total := by
  have hr := h.representable
  have hfs := (validSplits_ok hvalid).2
  have hgate : gateSum (amounts req.splits) = some sum := hfs ▸ hsum
  have htotal : exactSum (amounts req.splits) = req.total := exactSum_amounts _
  constructor
  · have hexact := gate_exact hr.news hr.sums
    rw [balanceGate_eq, hgate, htotal] at hexact
    simpa using hexact
  · obtain ⟨r, hr', hval, -⟩ := sum_exact hr.news hr.sums
    obtain rfl := Option.some.inj (hgate.symm.trans hr')
    rw [neg_value (sum_num_ne hr.news hr.sums hr.negates hgate), hval, htotal]

theorem Created.stores (hc : Created book req as t rows) (h : Askable req)
    (ha : Adds as [t] rows s v) (hp : Placed ((s.append as [] []).Imbalance book) req as rows) :
    Stores book req s t rows v := by
  obtain ⟨valid, sum, splits, hvalid, hsum, hfor, htwo, hrows⟩ := hc.rows
  obtain ⟨valid', sum', hvalid', hsum', hnone, hsome⟩ := hp.rows
  obtain rfl := Except.ok.inj (hvalid.symm.trans hvalid')
  obtain rfl := Option.some.inj (hsum.symm.trans hsum')
  obtain ⟨hzero, hneg⟩ := h.sum hvalid hsum
  obtain ⟨-, hfilter⟩ := validSplits_filter hvalid
  have hbal : Balances (rows.map Split.fraction) := by
    rw [RowOf.fractions hrows]
    exact balances_of_gate ((validSplits_ok hvalid).2 ▸ h.representable) hsum hfor htwo
  refine ⟨⟨as, hc.accounts, fun h0 => hnone (hzero.mpr h0), ha.eq⟩,
    (ha.fresh t (List.mem_singleton_self t)).1, RowOf.txGuids hrows, ?_, hbal.zero⟩
  rcases hfor with ⟨hz, rfl⟩ | ⟨hz, g, rfl⟩
  · refine ⟨rows, [], by simp, hfilter ▸ hrows, fun _ => rfl, fun hne => ?_⟩
    exact absurd (hzero.mp hz) hne
  · have hne : req.total ≠ 0 := by
      intro h0
      exact absurd (hz.symm.trans (hzero.mpr h0)) (by simp)
    obtain ⟨asked, row, rfl, hasked, hrow⟩ := forall₂_concat_left hrows
    refine ⟨asked, [row], rfl, hfilter ▸ hasked, fun h0 => absurd h0 hne, fun _ => ⟨row, rfl, ?_⟩⟩
    obtain ⟨last, hlast, hon⟩ := hsome hz
    obtain rfl : row = last := by simpa using hlast
    have hvalue : row.fraction = (sum.neg.num, sum.neg.denom) := by
      rw [Split.fraction, hrow.valueNum, hrow.valueDenom]
      rfl
    have hqty : row.qty = (sum.neg.num, sum.neg.denom) := by
      rw [Split.qty, hrow.quantityNum, hrow.quantityDenom]
      rfl
    refine ⟨?_, hvalue ▸ hneg, hqty.trans hvalue.symm, hrow.reconcileState⟩
    rw [ha.eq]
    exact hon

end Stores

/-- **`CreateTransaction` stores what was asked, balanced.** Whatever statement fails, a call that
fails changes nothing, and one that succeeds stores the requested splits with a value and what
balances them. -/
theorem createTransaction_stores {book : Guid} {req : CreateTransactionRequest} {s : Db}
    {envs : Nat → Env} (h : Askable req)
    (ha : (createTransaction book req).runAllowed machine envs (.idle s) = true) :
    (∀ e w, (createTransaction book req).run machine envs (.idle s) = (.error e, w) →
      w = .idle s) ∧
    ∀ t rows w, (createTransaction book req).run machine envs (.idle s) = (.ok (t, rows), w) →
      ∃ s', w = .idle s' ∧ Stores book req s t rows s' := by
  have hswp : (createTransaction book req).swp machine Duty.none (fun r w =>
      (∀ e, r = .error e → w = .idle s) ∧
      ∀ t rows, r = .ok (t, rows) → ∃ s', w = .idle s' ∧ Stores book req s t rows s') (.idle s) := by
    refine createTransaction_alone (fun e => ⟨fun _ _ => rfl, fun t rows h => ?_⟩) ?_
    · exact absurd h (by simp)
    · intro as t rows v hc hadds _ hp
      refine ⟨fun e h => absurd h (by simp), fun t' rows' hok => ?_⟩
      obtain ⟨rfl, rfl⟩ := Prod.mk.inj (Except.ok.inj hok)
      exact ⟨v, rfl, hc.stores h hadds hp⟩
  have hrun := run_of_swp hswp ha
  refine ⟨fun e w hw => ?_, fun t rows w hw => ?_⟩
  · rw [hw] at hrun
    exact hrun.1 e rfl
  · rw [hw] at hrun
    exact hrun.2 t rows rfl

/-- A purchase of ten in one split, which `Imbalance` balances. -/
def lopsidedPurchase : CreateTransactionRequest :=
  ⟨"", ⟨19000, 0⟩, "food", none, [⟨Guid.text 18, "", 1000, 100, 1000, 100, ""⟩]⟩

/-- That purchase is stored with a second split. -/
theorem createTransaction_stores_purchase :
    ∃ t rows s', (createTransaction 3 lopsidedPurchase).run machine (calm 100) (.idle registered) =
      (.ok (t, rows), .idle s') ∧ rows.length = 2 ∧ Stores 3 lopsidedPurchase registered t rows s' := by
  have hask : Askable lopsidedPurchase := by
    constructor
    · intro sp hsp
      obtain rfl := List.mem_singleton.mp hsp
      decide
    · simp only [← List.mem_inits]
      decide +kernel
  have hok : ((createTransaction 3 lopsidedPurchase).run machine (calm 100) (.idle registered)).1.map
      (·.2.length) = .ok 2 := by
    decide +kernel
  rcases hrun : (createTransaction 3 lopsidedPurchase).run machine (calm 100) (.idle registered)
    with ⟨_ | ⟨t, rows⟩, w⟩
  · rw [hrun] at hok
    exact absurd hok (by simp [Except.map])
  · obtain ⟨s', rfl, hs⟩ := (createTransaction_stores hask (by decide +kernel)).2 t rows w hrun
    rw [hrun] at hok
    exact ⟨t, rows, s', rfl, Except.ok.inj hok, hs⟩

end Antimoney
