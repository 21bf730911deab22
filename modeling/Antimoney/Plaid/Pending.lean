import Antimoney.Imports.Retry
import Antimoney.Plaid.Feed
import Antimoney.Plaid.Listing

/-!
# A pending transaction and its successor

The bank replaces a pending transaction by a posted one that names it. `stageDelta`, the listing of
`Sync` and `Import` each look for the predecessor, in the ledger or among the dismissed rows.

* `Bound.apply`, **`posted_once`**: what was imported while pending is not posted again.
* `Hidden.apply`, **`dismissed_stays`**: what was dismissed is not listed again, nor is its successor.
-/

namespace Antimoney

open Antimoney.Lib Antimoney.Gnc Prog

/-! ## The rows of the listing -/

section Listing

variable {book i : Guid} {v : Db} {st : Staged} {item : GuidText} {pending : Bool}

/-- A row that is not rejected. -/
theorem mem_rejectE {c : Staged → Except SqlErr Bool} {sts rows : List Staged}
    (h : rejectE c sts = .ok rows) (hst : st ∈ rows) : st ∈ sts ∧ c st = .ok false := by
  induction sts generalizing rows with
  | nil =>
    rw [← Except.ok.inj h] at hst
    exact absurd hst List.not_mem_nil
  | cons s sts ih =>
    obtain ⟨b, hb, h⟩ := ok_bind h
    obtain ⟨rest, hrest, h⟩ := ok_bind h
    rw [← Except.ok.inj h] at hst
    cases b with
    | true =>
      obtain ⟨hm, hc⟩ := ih hrest hst
      exact ⟨List.mem_cons_of_mem _ hm, hc⟩
    | false =>
      rcases List.mem_cons.mp hst with rfl | hst
      · exact ⟨List.mem_cons_self, hb⟩
      · obtain ⟨hm, hc⟩ := ih hrest hst
        exact ⟨List.mem_cons_of_mem _ hm, hc⟩

/-- What the listing shows is staged, not dismissed and not replaced. -/
theorem mem_suggestionRows {rows : List Staged} (h : v.suggestionRows book item pending = .ok rows)
    (hst : st ∈ rows) : st ∈ v.staged ∧ st.bookGuid = book ∧ st.dismissed = false ∧
      v.posted book st.transactionId = false ∧ v.replaced st = .ok false := by
  obtain ⟨g, -, h⟩ := ok_bind h
  obtain ⟨kept, hkept, h⟩ := ok_bind h
  rw [← Except.ok.inj h] at hst
  obtain ⟨hm, hc⟩ := mem_rejectE hkept ((List.mem_insertionSort _).mp hst)
  obtain ⟨hm, hl⟩ := List.mem_filter.mp hm
  simp only [Db.listable, Bool.and_eq_true, beq_iff_eq, Bool.not_eq_true'] at hl
  obtain ⟨⟨⟨⟨hb, -⟩, hd⟩, -⟩, hp⟩ := hl
  exact ⟨hm, hb, hd, hb ▸ hp, hc⟩

end Listing

theorem linkedSplit_mono {book : Guid} {v : Db} {id account : String} {c c' : Split → Bool}
    (hc : ∀ s, c s = true → c' s = true) (h : v.linkedSplit book id account c = true) :
    v.linkedSplit book id account c' = true := by
  obtain ⟨t, ht, h⟩ := List.any_eq_true.mp h
  obtain ⟨htb, h⟩ := Bool.and_eq_true _ _ ▸ h
  obtain ⟨s, hs, h⟩ := List.any_eq_true.mp h
  simp only [Bool.and_eq_true] at h
  refine List.any_eq_true.mpr ⟨t, ht, Bool.and_eq_true _ _ ▸ ⟨htb, List.any_eq_true.mpr ⟨s, hs, ?_⟩⟩⟩
  simp only [Bool.and_eq_true]
  exact ⟨⟨h.1.1, hc s h.1.2⟩, h.2⟩

/-! ## A pending transaction that was imported -/

/-- What the successor of an imported transaction looks like. -/
structure Replacement where
  pending : String
  id : String
  account : String
  amountNum : Int64
  amountDenom : Int64

/-- The report is about the successor only if it says what is expected of it. -/
def Replacement.Says (r : Replacement) (txn : PlaidTxn) : Prop :=
  txn.transactionId = r.id → txn.pendingTransactionId = r.pending ∧ txn.accountId = r.account ∧
    txn.amountNum = r.amountNum ∧ txn.amountDenom = r.amountDenom

/-- The staged row of the successor says it. -/
def Replacement.Is (r : Replacement) (st : Staged) : Prop :=
  st.pendingTransactionId = some r.pending ∧ st.plaidAccountId = r.account ∧
    st.amountNum = r.amountNum ∧ st.amountDenom = r.amountDenom

/-- The predecessor is imported with the value, and the successor is not. -/
structure Bound (book : Guid) (r : Replacement) (v : Db) : Prop where
  imported : v.linkedSplit book r.pending r.account (Db.opposite r.amountNum r.amountDenom) = true
  unposted : v.posted book r.id = false
  staged : ∀ st ∈ v.staged, st.bookGuid = book → st.transactionId = r.id → r.Is st

section Replaced

variable {book i : Guid} {db v x y : Db} {r : Replacement} {T : List Staged} {st : Staged}
  {offers : List Offer}

theorem Bound.step (h : Bound book r x) (hk : Keeps book x y)
    (hp : y.posted book r.id = false)
    (hs : ∀ st ∈ y.staged, st.bookGuid = book → st.transactionId = r.id →
      ∃ st' ∈ x.staged, st'.bookGuid = book ∧ st'.transactionId = r.id ∧ (r.Is st' → r.Is st)) :
    Bound book r y := by
  refine ⟨hk.linked _ _ _ h.imported, hp, fun st hst hb hid => ?_⟩
  obtain ⟨st', hst', hb', hid', his⟩ := hs st hst hb hid
  exact his (h.staged st' hst' hb' hid')

/-- The import sees the predecessor. -/
theorem Bound.replaces (h : Bound book r v) (hst : v.stagedRow book r.id = some st) :
    v.replaces book r.id = true := by
  have hkey := List.find?_some hst
  simp only [Bool.and_eq_true, beq_iff_eq] at hkey
  obtain ⟨hp, ha, hn, hd⟩ := h.staged st (List.mem_of_find?_eq_some hst) hkey.1 hkey.2
  simp [Db.replaces, h.unposted, hst, hp, ha, hn, hd, h.imported]

theorem keeps_cleaned {fails : Bool} {id : String} (hc : Cleaned fails book id x y) :
    Keeps book x y ∧ (∀ id, y.posted book id = x.posted book id) ∧ ∀ st ∈ y.staged, st ∈ x.staged := by
  rcases hc with rfl | ⟨-, rfl⟩
  · exact ⟨⟨fun _ h => h, fun _ _ _ h => h⟩, fun _ => rfl, fun st h => (mem_deleteWhere.mp h).1⟩
  · exact ⟨.refl _ _, fun _ => rfl, fun _ h => h⟩

theorem posted_append {id : String} (as : List Account) (t : Transaction) (rs : List Split) :
    (x.append as [t] rs).posted book id =
      (x.posted book id || (t.bookGuid == book && t.plaidTxnId == some id)) := by
  simp [Db.posted, Db.append]

theorem posted_sameRows {id : String} (h : SameRows book x y) :
    y.posted book id = x.posted book id := by
  have hpost : ∀ z : Db, z.posted book id =
      (z.transactions.filter (·.bookGuid == book)).any fun t => t.plaidTxnId == some id := by
    intro z
    rw [List.any_filter]
    rfl
  rw [hpost, hpost, h.transactions]

/-- The rows of an import, manual postings, dismissals and other books leave it so. -/
theorem endures_bound (book : Guid) (r : Replacement) : Endures book (Bound book r) where
  row := by
    intro row out x y hs h
    have hclean : ∀ {v : Db}, Bound book r v → Cleaned true book row.transactionId v y →
        Bound book r y := by
      intro v hv hc
      obtain ⟨hk, hp, hst⟩ := keeps_cleaned hc
      exact hv.step hk ((hp _).trans hv.unposted)
        fun st hm hb hid => ⟨st, hst st hm, hb, hid, fun h => h⟩
    cases hs with
    | failed => exact h
    | settled _ => exact h
    | replaced _ _ hc => exact hclean h hc
    | imported _ hst _ _ hfree hcreated hadds hc =>
      obtain ⟨rfl, -, -⟩ := hadds
      refine hclean (h.step (keeps_append _ _ _) ?_ fun st hm hb hid =>
        ⟨st, hm, hb, hid, fun h => h⟩) hc
      -- the row posted is not that of the successor, which the import would have refused
      have hne : row.transactionId ≠ r.id := by
        intro hid
        rw [hid] at hst hfree
        exact absurd (h.replaces hst) (by simp [hfree])
      rw [posted_append, h.unposted, hcreated.plaid]
      simp [importRequest, hne]
  post as t rs ht h := by
    refine h.step (keeps_append _ _ _) ?_ fun st hm hb hid => ⟨st, hm, hb, hid, fun h => h⟩
    rw [posted_append, h.unposted, ht]
    simp
  dismiss ids h := by
    refine h.step ⟨fun _ h => h, fun _ _ _ h => h⟩ h.unposted fun st hm hb hid => ?_
    rcases mem_updateWhere_cases hm with ⟨hmem, -⟩ | ⟨st', hmem, -, rfl⟩
    · exact ⟨st, hmem, hb, hid, fun h => h⟩
    · exact ⟨st', hmem, hb, hid, fun h => h⟩
  same hs h := by
    refine h.step (keeps_sameRows hs) ((posted_sameRows hs).trans h.unposted)
      fun st hm hb hid => ⟨st, (staged_sameRows hs hb).mp hm, hb, hid, fun h => h⟩

/-- The successor's row says what the reports say. -/
theorem Replacement.is_apply {o : StageOp} (hpending : r.pending ≠ "") (i : Guid)
    (ho : ∀ txn, o = .upsert txn → r.Says txn)
    (h : ∀ st ∈ T, st.bookGuid = book → st.transactionId = r.id → r.Is st) :
    ∀ st ∈ o.apply v book i T, st.bookGuid = book → st.transactionId = r.id → r.Is st := by
  cases o with
  | sweep ids => exact fun st hst => h st (mem_deleteWhere.mp hst).1
  | upsert txn =>
    intro st hst hb hid
    have hsaid := ho txn rfl
    simp only [StageOp.apply, stageRow] at hst
    split at hst
    · exact h st (mem_deleteWhere.mp hst).1 hb hid
    rcases mem_upsertStagedRow hst with ⟨hmem, -⟩ | ⟨rfl, -⟩ | ⟨st', hmem, hkey, rfl⟩
    · exact h st hmem hb hid
    · obtain ⟨hp, ha, hn, hd⟩ := hsaid hid
      exact ⟨by simp [PlaidTxn.staged, hp, hpending], ha, hn, hd⟩
    · obtain ⟨hp, -, hn, hd⟩ := hsaid (hkey.2.symm.trans hid)
      exact ⟨by simp [PlaidTxn.over, hp, hpending], (h st' hmem hkey.1 hid).2.1, hn, hd⟩

/-- A sync leaves it so. -/
theorem Bound.sync {w : Db} {bank : Cursor → ApiPage} {item : GuidText} {done : List StageOp}
    (hpending : r.pending ≠ "") (ho : ∀ txn, .upsert txn ∈ v.due book item bank → r.Says txn)
    (h : Bound book r v) (hl : SamePosted book v w) (ht : Took bank book item v done w) :
    Bound book r w := by
  obtain ⟨i, hi⟩ := ht.staged
  have hbare : ∀ st ∈ w.staged.map Staged.bare, st.bookGuid = book → st.transactionId = r.id →
      r.Is st := by
    rw [hi]
    refine redo_keeps (I := fun T : List Staged => ∀ st ∈ T, st.bookGuid = book →
      st.transactionId = r.id → r.Is st) (fun o hmem T hT => ?_) fun st hst hb hid => ?_
    · exact Replacement.is_apply hpending i (fun txn he => ho txn (ht.due.subset (he ▸ hmem))) hT
    · obtain ⟨st', hst', rfl⟩ := List.mem_map.mp hst
      exact h.staged st' hst' hb hid
  refine ⟨hl.keeps.linked _ _ _ h.imported, (posted_congr hl.transactions).trans h.unposted,
    fun st hst hb hid => ?_⟩
  exact hbare st.bare (List.mem_map_of_mem hst) hb hid

/-- The listing rejects the successor's row, or fails. -/
theorem Bound.replaced (h : Bound book r v) (hb : st.bookGuid = book) (his : r.Is st) :
    v.replaced st ≠ .ok false := by
  obtain ⟨hp, ha, hn, hd⟩ := his
  unfold Db.replaced
  simp only [hp, ha, hn, hd, hb]
  by_cases hmin : r.amountNum = Int64.minValue
  · have hany : (v.linkedSplit book r.pending r.account fun _ => true) = true := by
      refine linkedSplit_mono (fun _ _ => rfl) h.imported
    rw [if_pos hmin, hany]
    simp [require, Except.map]
  · rw [if_neg hmin, h.imported]
    simp

/-- **A purchase that was imported while pending is not posted again.** As long as the bank reports
its successor with the predecessor and value that were imported, no sync, no import and no other
request posts the successor, and no listing shows it. -/
theorem posted_once (hr : Runs (fun _ _ _ => True) db) (hb : db.hasBook book = true)
    (hpending : r.pending ≠ "") (h0 : Bound book r db)
    (hreports : ∀ o ∈ offers, ∀ txn, .upsert txn ∈ o.ops → r.Says txn)
    (h : Fed book db offers v) :
    v.posted book r.id = false ∧ ∀ item pending rows,
      v.suggestionRows book item pending = .ok rows → ∀ st ∈ rows, st.transactionId ≠ r.id := by
  have hinv := (h.invariant (I := fun offers v =>
    (∀ o ∈ offers, ∀ txn, .upsert txn ∈ o.ops → r.Says txn) → Bound book r v)
    (fun offers => (endures_bound book r).imp) (fun hv hl ht hsaid => ?_) hr hb fun _ => h0).2.2
      hreports
  · refine ⟨hinv.unposted, fun item pending rows hrows st hst hid => ?_⟩
    obtain ⟨hm, hbook, -, -, hnot⟩ := mem_suggestionRows hrows hst
    exact hinv.replaced hbook (hinv.staged st hm hbook hid) hnot
  · refine (hv fun o ho => hsaid o (List.mem_append_left _ ho)).sync hpending
      (hsaid _ (List.mem_append_right _ List.mem_cons_self)) hl ht

end Replaced

/-- The reports of one page. -/
theorem mem_due_onePage {v : Db} {book : Guid} {item : GuidText} {txns : List ApiTxn}
    {txn : PlaidTxn} (h : .upsert txn ∈ v.due book item (onePage txns)) :
    txn ∈ convertTxns txns := by
  have hdue : v.due book item (onePage txns) = pageOps (onePage txns 0).delta := List.append_nil _
  rw [hdue, pageOps, List.mem_append] at h
  rcases h with h | h
  · obtain ⟨txn', hm, he⟩ := List.mem_map.mp h
    obtain rfl := StageOp.upsert.inj he
    have hm := List.mem_of_mem_filter hm
    simpa [onePage, ApiPage.delta, convertTxns] using hm
  · rcases List.mem_append.mp h with h | h
    · obtain ⟨txn', -, he⟩ := List.mem_map.mp h
      cases he
    · cases List.mem_singleton.mp h

/-- The purchase that was imported while pending, and its successor. -/
def settledPurchase : Replacement := ⟨"P", "Q", "checking", 1000, 100⟩

theorem posted_once_settled : importedSettled.posted 3 "Q" = false ∧ ∀ item pending rows,
    importedSettled.suggestionRows 3 item pending = .ok rows →
      ∀ st ∈ rows, st.transactionId ≠ "Q" := by
  have himported : Runs (fun _ _ _ => True) importedPending :=
    .step _ _ (.step _ _ linked_runs (by decide +kernel) trivial) (by decide +kernel) trivial
  have hfed := Fed.sync plainConfig (Guid.text 30) (@Fed.start 3 importedPending)
    (answers_paging [bankTxn "Q" "P" false] 440) (by decide +kernel) rfl
  refine @posted_once 3 importedPending importedSettled settledPurchase _ himported
    (by decide +kernel) (by decide) ⟨by decide +kernel, by decide +kernel, ?_⟩ ?_ hfed
  · unfold Replacement.Is
    decide +kernel
  · intro o ho txn htxn
    obtain rfl := List.mem_singleton.mp ho
    have hsaid : ∀ txn ∈ convertTxns [bankTxn "Q" "P" false], settledPurchase.Says txn := by
      unfold Replacement.Says
      decide +kernel
    exact hsaid txn (mem_due_onePage htxn)

/-! ## A transaction that was dismissed -/

/-- The row is that of the transaction, or of one that names it. -/
def Staged.About (st : Staged) (P : String) : Prop :=
  st.transactionId = P ∨ st.pendingTransactionId = some P

/-- In these rows the transaction is dismissed, and so is what names it. -/
structure HiddenIn (book : Guid) (P : String) (T : List Staged) : Prop where
  dismissed : ∃ st ∈ T, (st.bookGuid = book ∧ st.transactionId = P) ∧ st.dismissed = true
  hidden : ∀ st ∈ T, st.bookGuid = book → st.About P → st.dismissed = true
  rootless : ∀ st ∈ T, st.bookGuid = book → st.transactionId = P → st.pendingTransactionId = none

/-- The transaction is dismissed, or was imported after all. -/
def Hidden (book : Guid) (P : String) (v : Db) : Prop :=
  v.posted book P = true ∨ HiddenIn book P v.staged

section Dismissed

variable {book i : Guid} {P : String} {db v x y : Db} {T T' : List Staged} {offers : List Offer}

/-- Rows that stay, or are flagged. -/
theorem HiddenIn.of (h : HiddenIn book P T)
    (hstay : ∀ st ∈ T, st.bookGuid = book ∧ st.transactionId = P → st.dismissed = true →
      ∃ st' ∈ T', (st'.bookGuid = book ∧ st'.transactionId = P) ∧ st'.dismissed = true)
    (hrows : ∀ st' ∈ T', st'.bookGuid = book → ∃ st ∈ T, st.bookGuid = book ∧
      st'.transactionId = st.transactionId ∧ st'.pendingTransactionId = st.pendingTransactionId ∧
        (st.dismissed = true → st'.dismissed = true)) : HiddenIn book P T' := by
  obtain ⟨st, hst, hkey, hd⟩ := h.dismissed
  refine ⟨hstay st hst hkey hd, fun st' hst' hb habout => ?_, fun st' hst' hb hid => ?_⟩
  · obtain ⟨st, hst, hb, hid, hp, hd⟩ := hrows st' hst' hb
    refine hd (h.hidden st hst hb ?_)
    unfold Staged.About at habout ⊢
    rwa [← hid, ← hp]
  · obtain ⟨st, hst, hb, hid', hp, -⟩ := hrows st' hst' hb
    exact hp.trans (h.rootless st hst hb (hid'.symm.trans hid))

/-- **An operation**, while the transaction is not posted. -/
theorem HiddenIn.apply {o : StageOp} (hnot : v.posted book P = false)
    (ho : ∀ txn, o = .upsert txn → txn.transactionId = P → txn.pendingTransactionId = "")
    (h : HiddenIn book P T) : HiddenIn book P (o.apply v book i T) := by
  cases o with
  | sweep ids =>
    refine h.of (fun st hst hkey hd => ⟨st, mem_deleteWhere.mpr ⟨hst, by simp [hd]⟩, hkey, hd⟩)
      fun st hst hb => ⟨st, (mem_deleteWhere.mp hst).1, hb, rfl, rfl, id⟩
  | upsert u =>
    have hu := ho u rfl
    simp only [StageOp.apply, stageRow]
    by_cases hs : v.settles book u = true
    · rw [if_pos hs]
      simp only [Db.settles, Bool.and_eq_true, bne_iff_ne] at hs
      refine h.of (fun st hst hkey hd => ⟨st, mem_deleteWhere.mpr ⟨hst, ?_⟩, hkey, hd⟩)
        fun st hst hb => ⟨st, (mem_deleteWhere.mp hst).1, hb, rfl, rfl, id⟩
      -- neither the predecessor, which is posted, nor the report is the dismissed transaction
      refine Bool.eq_false_iff.mpr fun hin => ?_
      have hids := (mem_stagedIn.mp hin).2
      rw [hkey.2, List.mem_cons, List.mem_singleton] at hids
      rcases hids with hp | hid
      · rw [← hp, hnot] at hs
        exact absurd hs.1.2 Bool.false_ne_true
      · exact hs.1.1 (hu hid.symm)
    · rw [if_neg hs]
      obtain ⟨st₀, hst₀, hkey₀, hd₀⟩ := h.dismissed
      -- a transaction that names the dismissed one inherits the flag
      have hflag : (if u.pendingTransactionId = "" then none else some u.pendingTransactionId) =
          some P →
          (u.pendingTransactionId != "" && dismissedIn book u.pendingTransactionId T) = true := by
        intro hp
        by_cases hne : u.pendingTransactionId = ""
        · simp [hne] at hp
        · rw [if_neg hne] at hp
          rw [Bool.and_eq_true, Option.some.inj hp]
          refine ⟨bne_iff_ne.mpr (Option.some.inj hp ▸ hne), List.any_eq_true.mpr ⟨st₀, hst₀, ?_⟩⟩
          simp [hkey₀.1, hkey₀.2, hd₀]
      generalize (u.pendingTransactionId != "" &&
        dismissedIn book u.pendingTransactionId T) = d at hflag ⊢
      refine ⟨?_, fun st hst hb habout => ?_, fun st hst hb hid => ?_⟩
      · by_cases hsame : st₀.bookGuid = book ∧ st₀.transactionId = u.transactionId
        · exact ⟨_, over_mem_upsertStagedRow hst₀ hsame, hkey₀, by simp [PlaidTxn.over, hd₀]⟩
        · exact ⟨st₀, mem_upsertStagedRow_other hst₀ hsame, hkey₀, hd₀⟩
      · rcases mem_upsertStagedRow hst with ⟨hmem, -⟩ | ⟨rfl, hnone⟩ | ⟨st', hmem, hkey, rfl⟩
        · exact h.hidden st hmem hb habout
        · rcases habout with hid | hp
          · exact absurd ⟨hkey₀.1, hkey₀.2.trans hid.symm⟩ (hnone st₀ hst₀)
          · exact hflag hp
        · rcases habout with hid | hp
          · simp [PlaidTxn.over, h.hidden st' hmem hkey.1 (.inl hid)]
          · simp [PlaidTxn.over, hflag hp]
      · rcases mem_upsertStagedRow hst with ⟨hmem, -⟩ | ⟨rfl, hnone⟩ | ⟨st', hmem, hkey, rfl⟩
        · exact h.rootless st hmem hb hid
        · exact absurd ⟨hkey₀.1, hkey₀.2.trans hid.symm⟩ (hnone st₀ hst₀)
        · simp [PlaidTxn.over, hu (hkey.2.symm.trans hid)]

theorem Hidden.of_same (h : Hidden book P x) (hp : ∀ id, x.posted book id = true →
    y.posted book id = true) (hs : ∀ st, st.bookGuid = book → (st ∈ y.staged ↔ st ∈ x.staged)) :
    Hidden book P y := by
  rcases h with h | h
  · exact .inl (hp P h)
  · exact .inr (h.of (fun st hst hkey hd => ⟨st, (hs st hkey.1).mpr hst, hkey, hd⟩)
      fun st hst hb => ⟨st, (hs st hb).mp hst, hb, rfl, rfl, id⟩)

/-- A posting. -/
theorem Hidden.append (h : Hidden book P x) (as : List Account) (t : Transaction)
    (rs : List Split) : Hidden book P (x.append as [t] rs) := by
  refine h.of_same (fun id hp => ?_) fun _ _ => .rfl
  rw [posted_append, hp]
  rfl

/-- The deletion of another staged copy. -/
theorem Hidden.cleaned {fails : Bool} {id : String} (h : Hidden book P x)
    (hc : Cleaned fails book id x y) (hid : id = P → x.posted book P = true) :
    Hidden book P y := by
  rcases hc with rfl | ⟨-, rfl⟩
  · rcases h with h | h
    · exact .inl h
    · by_cases hP : id = P
      · exact .inl (hid hP)
      · refine .inr (h.of (fun st hst hkey hd => ⟨st, mem_deleteWhere.mpr ⟨hst, ?_⟩, hkey, hd⟩)
          fun st hst hb => ⟨st, (mem_deleteWhere.mp hst).1, hb, rfl, rfl, fun h => h⟩)
        refine Bool.eq_false_iff.mpr fun hin => hP ?_
        exact (List.mem_singleton.mp (mem_stagedIn.mp hin).2).symm.trans hkey.2
  · exact h

/-- The rows of an import, manual postings, dismissals and other books leave it so. -/
theorem endures_hidden (book : Guid) (P : String) : Endures book (Hidden book P) where
  row := by
    intro row out x y hs h
    cases hs with
    | failed => exact h
    | settled _ => exact h
    | replaced _ hr hc =>
      refine h.cleaned hc fun hid => ?_
      rcases h with h | h
      · exact h
      · -- a row of the dismissed transaction names no predecessor
        rw [hid] at hr
        obtain ⟨-, hany⟩ := Bool.and_eq_true _ _ ▸ hr
        obtain ⟨st, hst, hp⟩ := Option.any_eq_true _ _ |>.mp hany
        have hkey := List.find?_some hst
        simp only [Bool.and_eq_true, beq_iff_eq] at hkey
        rw [h.rootless st (List.mem_of_find?_eq_some hst) hkey.1 hkey.2] at hp
        exact absurd hp (by simp)
    | imported _ _ _ _ _ hcreated hadds hc =>
      obtain ⟨rfl, -, -⟩ := hadds
      refine (h.append _ _ _).cleaned hc fun hid => ?_
      rw [posted_append, hcreated.plaid, hcreated.inBook]
      simp [importRequest, hid]
  post as t rs _ h := h.append as t rs
  dismiss ids h := by
    rcases h with h | h
    · exact .inl h
    · refine .inr (h.of (fun st hst hkey hd => ⟨_, mem_updateWhere.mpr ⟨st, hst, rfl⟩, ?_, ?_⟩)
        fun st hst hb => ?_)
      · split <;> exact hkey
      · split <;> first | rfl | exact hd
      · rcases mem_updateWhere_cases hst with ⟨hmem, -⟩ | ⟨st', hmem, -, rfl⟩
        · exact ⟨st, hmem, hb, rfl, rfl, id⟩
        · exact ⟨st', hmem, hb, rfl, rfl, fun _ => rfl⟩
  same hs h := h.of_same (fun id hp => (posted_sameRows hs).trans hp) fun st hb =>
    staged_sameRows hs hb

/-- A sync leaves it so. -/
theorem Hidden.sync {w : Db} {bank : Cursor → ApiPage} {item : GuidText} {done : List StageOp}
    (ho : ∀ txn, .upsert txn ∈ v.due book item bank → txn.transactionId = P →
      txn.pendingTransactionId = "")
    (h : Hidden book P v) (hl : SamePosted book v w) (ht : Took bank book item v done w) :
    Hidden book P w := by
  have hposted : w.posted book P = v.posted book P := posted_congr hl.transactions
  rcases h with h | h
  · exact .inl (hposted.trans h)
  by_cases hp : v.posted book P = true
  · exact .inl (hposted.trans hp)
  obtain ⟨i, hi⟩ := ht.staged
  have hbare : HiddenIn book P (w.staged.map Staged.bare) := by
    rw [hi]
    refine redo_keeps (I := HiddenIn book P) (fun o hmem T hT => ?_) ?_
    · exact hT.apply (Bool.eq_false_iff.mpr hp) fun txn he => ho txn (ht.due.subset (he ▸ hmem))
    · refine h.of (fun st hst hkey hd => ⟨st.bare, List.mem_map_of_mem hst, hkey, hd⟩)
        fun st hst hb => ?_
      obtain ⟨st', hst', rfl⟩ := List.mem_map.mp hst
      exact ⟨st', hst', hb, rfl, rfl, id⟩
  refine .inr (hbare.of (fun st hst hkey hd => ?_) fun st hst hb => ?_)
  · obtain ⟨st', hst', rfl⟩ := List.mem_map.mp hst
    exact ⟨st', hst', hkey, hd⟩
  · exact ⟨st.bare, List.mem_map_of_mem hst, hb, rfl, rfl, id⟩

/-- **A dismissed transaction stays hidden.** As long as the bank reports it without a predecessor,
no listing shows it again, nor a transaction that names it, unless it is imported by its id. -/
theorem dismissed_stays (hr : Runs (fun _ _ _ => True) db) (hb : db.hasBook book = true)
    (h0 : HiddenIn book P db.staged)
    (hreports : ∀ o ∈ offers, ∀ txn, .upsert txn ∈ o.ops → txn.transactionId = P →
      txn.pendingTransactionId = "")
    (h : Fed book db offers v) (hnot : v.posted book P = false) :
    ∀ item pending rows, v.suggestionRows book item pending = .ok rows → ∀ st ∈ rows,
      ¬ st.About P := by
  have hinv := (h.invariant (I := fun offers v =>
    (∀ o ∈ offers, ∀ txn, .upsert txn ∈ o.ops → txn.transactionId = P →
      txn.pendingTransactionId = "") → Hidden book P v)
    (fun offers => (endures_hidden book P).imp) (fun hv hl ht hsaid => ?_) hr hb
    fun _ => .inr h0).2.2 hreports
  · intro item pending rows hrows st hst habout
    obtain ⟨hm, hbook, hd, -, -⟩ := mem_suggestionRows hrows hst
    rcases hinv with hp | hhidden
    · exact absurd (hp.symm.trans hnot) nofun
    · exact absurd ((hhidden.hidden st hm hbook habout).symm.trans hd) nofun
  · exact (hv fun o ho => hsaid o (List.mem_append_left _ ho)).sync
      (hsaid _ (List.mem_append_right _ List.mem_cons_self)) hl ht

end Dismissed

/-- A pending purchase that was staged and dismissed. -/
def dismissedFirst : Db :=
  (serve (Event.request plainConfig 3 (.plaidDismiss ["P"])).call (calm 400)
    (serve (Event.request plainConfig 3 (.plaidSync (Guid.text 30))).call
      (paging [bankTxn "P" "" true] 360) linked).2).2

/-- The bank posts it. -/
def dismissedSettled : Db :=
  (serve (Event.request plainConfig 3 (.plaidSync (Guid.text 30))).call
    (paging [bankTxn "Q" "P" false] 440) dismissedFirst).2

theorem dismissed_stays_settled : (dismissedSettled.stagedRow 3 "Q").isSome = true ∧
    ∀ item pending rows, dismissedSettled.suggestionRows 3 item pending = .ok rows →
      ∀ st ∈ rows, ¬ st.About "P" := by
  have hdismissed : Runs (fun _ _ _ => True) dismissedFirst :=
    .step _ _ (.step _ _ linked_runs (by decide +kernel) trivial) (by decide +kernel) trivial
  have hfed := Fed.sync plainConfig (Guid.text 30) (@Fed.start 3 dismissedFirst)
    (answers_paging [bankTxn "Q" "P" false] 440) (by decide +kernel) rfl
  refine ⟨by decide +kernel, @dismissed_stays 3 "P" dismissedFirst dismissedSettled _ hdismissed
    (by decide +kernel) ⟨by decide +kernel, ?_, by decide +kernel⟩ ?_ hfed (by decide +kernel)⟩
  · unfold Staged.About
    decide +kernel
  · intro o ho txn htxn
    obtain rfl := List.mem_singleton.mp ho
    have hnames : ∀ txn ∈ convertTxns [bankTxn "Q" "P" false], txn.transactionId = "P" →
        txn.pendingTransactionId = "" := by decide +kernel
    exact hnames txn (mem_due_onePage htxn)

end Antimoney
