import Antimoney.Lib.Redo
import Antimoney.Plaid.Pages

/-!
# Staging a page again

`stageDelta` is no transaction: a crash leaves some of a page behind, and the page comes again.
An operation on the table reads other rows only to inherit a dismissal from a predecessor, so each
id has a row of its own, worked on by the operations that are about it.

* `StageOp`, `pageOps`: a page as a log of operations on the table.
* `CellOp`, `trace`: what the log does to the row of one id.
* **`rowsOf_again`**: a log that was applied may be applied again.
-/

namespace Antimoney

open Antimoney.Lib

/-! ## A page as a log -/

/-- An operation of `stageDelta` on the table. -/
inductive StageOp where
  | upsert (txn : PlaidTxn)
  | sweep (ids : List String)

/-- The operation on the table, where the ledger is that of `db`. -/
def StageOp.apply (db : Db) (book item : Guid) : StageOp → List Staged → List Staged
  | .upsert txn => stageRow db book item txn
  | .sweep ids => deleteWhere fun st => stagedIn book ids st && !st.dismissed

/-- The operations of a page, in their order. -/
def pageOps (delta : SyncDelta) : List StageOp :=
  ((delta.added ++ delta.modified).filter (·.amountNum != 0)).map .upsert ++
    (((delta.added ++ delta.modified).filter (·.amountNum == 0)).map (.sweep ·.staleIDs) ++
      [.sweep delta.removed])

/-! ## The row of an id -/

/-- An operation on the row of one id. -/
inductive CellOp where
  | put (txn : PlaidTxn) (dismissed : Bool)
  | erase
  | sweep

/-- What the upsert leaves of a row that is there. -/
def PlaidTxn.over (txn : PlaidTxn) (dismissed : Bool) (st : Staged) : Staged :=
  { st with
    pendingTransactionId :=
      if txn.pendingTransactionId = "" then none else some txn.pendingTransactionId
    postDate := txn.date
    description := txn.description
    amountNum := txn.amountNum
    amountDenom := txn.amountDenom
    pending := txn.pending
    dismissed := st.dismissed || dismissed }

/-- The operation on the row. -/
def CellOp.apply (book item : Guid) : CellOp → Option Staged → Option Staged
  | .put txn d, none => some (txn.staged book item d 0)
  | .put txn d, some st => some (txn.over d st)
  | .erase, _ => none
  | .sweep, cell => cell.filter (·.dismissed)

/-- The operation dismisses the row. -/
def CellOp.flags : CellOp → Bool
  | .put _ d => d
  | _ => false

/-- The row is there and dismissed. -/
def dismissedCell (cell : Option Staged) : Bool := cell.any (·.dismissed)

section Cells

variable {book item : Guid} {o o' : CellOp} {T T' : List CellOp} {cell : Option Staged}
  {st : Staged}

/-- The same operation, that may have lost its flag. -/
inductive CellOp.Weaker : CellOp → CellOp → Prop
  | refl (o : CellOp) : Weaker o o
  | put (txn : PlaidTxn) (d : Bool) : Weaker (.put txn false) (.put txn d)

theorem CellOp.Weaker.eq_of_flags (h : CellOp.Weaker o' o) (ho : o.flags = false) : o' = o := by
  cases h with
  | refl => rfl
  | put txn d => rw [show d = false from ho]

theorem weaker_eq (h : List.Forall₂ CellOp.Weaker T' T) (hT : ∀ o ∈ T, o.flags = false) :
    T' = T := by
  induction h with
  | nil => rfl
  | cons ho _ ih =>
    rw [ho.eq_of_flags (hT _ List.mem_cons_self),
      ih fun o ho => hT o (List.mem_cons_of_mem _ ho)]

theorem erase_mem_of_weaker (h : List.Forall₂ CellOp.Weaker T' T) (hm : CellOp.erase ∈ T') :
    CellOp.erase ∈ T := by
  induction h with
  | nil => exact hm
  | cons ho _ ih =>
    rcases List.mem_cons.mp hm with rfl | hm
    · cases ho
      exact List.mem_cons_self
    · exact List.mem_cons_of_mem _ (ih hm)

/-- A dismissed row stays, and stays dismissed, unless it is erased. -/
theorem dismissedCell_redo (hT : CellOp.erase ∉ T) (h : dismissedCell cell = true) :
    dismissedCell (redo (CellOp.apply book item) T cell) = true := by
  refine redo_keeps (I := fun cell => dismissedCell cell = true) (fun o ho cell h => ?_) h
  cases cell with
  | none => simp [dismissedCell] at h
  | some st =>
    have hst : st.dismissed = true := h
    cases o with
    | put txn d => simp [CellOp.apply, dismissedCell, PlaidTxn.over, hst]
    | erase => exact absurd ho hT
    | sweep => simp [CellOp.apply, dismissedCell, hst]

theorem dismissedCell_flagged (ho : o.flags = true) :
    dismissedCell (o.apply book item cell) = true := by
  cases o with
  | put txn d =>
    have hd : d = true := ho
    cases cell with
    | none => simp [CellOp.apply, dismissedCell, PlaidTxn.staged, hd]
    | some st => simp [CellOp.apply, dismissedCell, PlaidTxn.over, hd]
  | erase => exact absurd ho Bool.false_ne_true
  | sweep => exact absurd ho Bool.false_ne_true

/-- The operation dismisses a row only by its flag. -/
theorem dismissedCell_apply (ho : o.flags = false) (h : dismissedCell cell = false) :
    dismissedCell (o.apply book item cell) = false := by
  cases o with
  | put txn d =>
    have hd : d = false := ho
    cases cell with
    | none => simpa [CellOp.apply, dismissedCell, PlaidTxn.staged] using hd
    | some st =>
      have hst : st.dismissed = false := h
      simp [CellOp.apply, dismissedCell, PlaidTxn.over, hst, hd]
  | erase => rfl
  | sweep =>
    cases cell with
    | none => rfl
    | some st =>
      have hst : st.dismissed = false := h
      simp [CellOp.apply, dismissedCell, hst]

/-! ### The last write -/

/-- The row after the puts alone. -/
def CellOp.stamp : CellOp → Staged → Staged
  | .put txn _, st => txn.over false st
  | _, st => st

theorem stamp_weaker (h : List.Forall₂ CellOp.Weaker T' T) :
    redo CellOp.stamp T' st = redo CellOp.stamp T st := by
  induction h generalizing st with
  | nil => rfl
  | cons ho _ ih =>
    rw [redo_cons, redo_cons, ih]
    cases ho with
    | refl => rfl
    | put txn d => rfl

/-- Stamping keeps what the upsert keeps. -/
theorem over_stamp (txn : PlaidTxn) (o : CellOp) (st : Staged) :
    txn.over false (o.stamp st) = txn.over false st := by
  cases o with
  | put txn' d => simp [CellOp.stamp, PlaidTxn.over]
  | erase => rfl
  | sweep => rfl

theorem over_stamps (txn : PlaidTxn) (T : List CellOp) (st : Staged) :
    txn.over false (redo CellOp.stamp T st) = txn.over false st := by
  induction T generalizing st with
  | nil => rfl
  | cons o T ih => rw [redo_cons, ih, over_stamp]

/-- A row that is there at the end bears the stamp of the last write. -/
theorem stamps_of_some (hT : CellOp.erase ∉ T)
    (h : redo (CellOp.apply book item) T cell = some st) : redo CellOp.stamp T st = st := by
  induction T using List.reverseRecOn generalizing st with
  | nil => rfl
  | append_singleton T o ih =>
    rw [redo_concat] at h ⊢
    have hT' : CellOp.erase ∉ T := fun hm => hT (List.mem_append_left _ hm)
    cases o with
    | put txn d =>
      have hover : ∀ st', txn.over false (txn.over d st') = txn.over d st' := fun st' => by
        simp [PlaidTxn.over]
      have hst : txn.over false st = st := by
        cases hc : redo (CellOp.apply book item) T cell with
        | none =>
          rw [hc] at h
          rw [← Option.some.inj h]
          simp [PlaidTxn.over, PlaidTxn.staged]
        | some st' =>
          rw [hc] at h
          rw [← Option.some.inj h, hover]
      exact (over_stamps txn T st).trans hst
    | erase => exact absurd (List.mem_append_right _ List.mem_cons_self) hT
    | sweep =>
      refine ih hT' ?_
      cases hc : redo (CellOp.apply book item) T cell with
      | none => rw [hc] at h; cases h
      | some st' =>
        rw [hc] at h
        exact Option.eq_some_of_filter_eq_some h

/-- Where nothing is swept, the operations stamp a row that bears no new flag. -/
theorem redo_some (hT : CellOp.erase ∉ T)
    (hsweep : st.dismissed = true ∨ (CellOp.sweep ∉ T ∧ ∀ o ∈ T, o.flags = false)) :
    redo (CellOp.apply book item) T (some st) = some (redo CellOp.stamp T st) := by
  induction T generalizing st with
  | nil => rfl
  | cons o T ih =>
    have hT' : CellOp.erase ∉ T := fun hm => hT (List.mem_cons_of_mem _ hm)
    have hrest : ∀ {st' : Staged}, st'.dismissed = st.dismissed →
        st'.dismissed = true ∨ (CellOp.sweep ∉ T ∧ ∀ o ∈ T, o.flags = false) := by
      intro st' hst
      rw [hst]
      refine hsweep.imp_right fun ⟨hs, hf⟩ => ⟨fun hm => hs (List.mem_cons_of_mem _ hm), ?_⟩
      exact fun o ho => hf o (List.mem_cons_of_mem _ ho)
    rw [redo_cons, redo_cons]
    cases o with
    | put txn d =>
      have hover : txn.over d st = txn.over false st := by
        rcases hsweep with hst | ⟨-, hf⟩
        · simp [PlaidTxn.over, hst]
        · rw [show d = false from hf _ List.mem_cons_self]
      have hput : CellOp.apply book item (.put txn d) (some st) = some (txn.over false st) :=
        congrArg some hover
      rw [hput]
      refine ih hT' (hrest ?_)
      simp [PlaidTxn.over]
    | erase => exact absurd List.mem_cons_self hT
    | sweep =>
      rcases hsweep with hst | ⟨hs, -⟩
      · have hkept : CellOp.apply book item .sweep (some st) = some st := by
          simp [CellOp.apply, hst]
        rw [hkept]
        exact ih hT' (hrest rfl)
      · exact absurd List.mem_cons_self hs

/-! ### Once more -/

/-- After an erasure nothing is dismissed. -/
def ErasedClean (T : List CellOp) : Prop :=
  T.Pairwise fun o o' => o = .erase → o'.flags = false

/-- Operations that dismiss nothing and erase nothing. -/
theorem cell_again_plain (herase : CellOp.erase ∉ T) (hT : ∀ o ∈ T, o.flags = false) :
    redo (CellOp.apply book item) T (redo (CellOp.apply book item) T cell) =
      redo (CellOp.apply book item) T cell := by
  by_cases hd : dismissedCell (redo (CellOp.apply book item) T cell) = true
  · cases hr : redo (CellOp.apply book item) T cell with
    | none => simp [hr, dismissedCell] at hd
    | some st =>
      rw [hr] at hd
      rw [redo_some herase (.inl hd), stamps_of_some herase hr]
  have hcell : dismissedCell cell = false := by
    rw [← Bool.not_eq_true]
    exact fun hc => hd (dismissedCell_redo herase hc)
  rw [Bool.not_eq_true] at hd
  by_cases hs : CellOp.sweep ∈ T
  · -- what is there before the sweep goes with it, both times
    obtain ⟨A, B, rfl⟩ := List.append_of_mem hs
    have hswept : ∀ c, dismissedCell c = false →
        redo (CellOp.apply book item) (A ++ .sweep :: B) c =
          redo (CellOp.apply book item) B none := by
      intro c hc
      have hA : dismissedCell (redo (CellOp.apply book item) A c) = false :=
        redo_keeps (I := fun c => dismissedCell c = false)
          (fun o ho c => dismissedCell_apply (hT o (List.mem_append_left _ ho))) hc
      rw [redo_append, redo_cons]
      congr 1
      generalize redo (CellOp.apply book item) A c = c' at hA
      cases c' with
      | none => rfl
      | some st =>
        have hst : st.dismissed = false := hA
        simp [CellOp.apply, hst]
    rw [hswept _ hd, hswept _ hcell]
  · cases hr : redo (CellOp.apply book item) T cell with
    | none =>
      -- nothing was put at all
      cases T with
      | nil => rfl
      | cons o T =>
        have hput : ∀ c, ∃ st, o.apply book item c = some st := by
          intro c
          cases o with
          | put txn d => cases c with
            | none => exact ⟨_, rfl⟩
            | some st => exact ⟨_, rfl⟩
          | erase => exact absurd List.mem_cons_self herase
          | sweep => exact absurd List.mem_cons_self hs
        obtain ⟨st, hst⟩ := hput cell
        rw [redo_cons, hst, redo_some (fun hm => herase (List.mem_cons_of_mem _ hm))
          (.inr ⟨fun hm => hs (List.mem_cons_of_mem _ hm),
            fun o ho => hT o (List.mem_cons_of_mem _ ho)⟩)] at hr
        exact absurd hr nofun
    | some st => rw [redo_some herase (.inr ⟨hs, hT⟩), stamps_of_some herase hr]

/-- **Once more**: the operations may have lost their flags by then. -/
theorem cell_again (h : List.Forall₂ CellOp.Weaker T' T) (hT : ErasedClean T) :
    redo (CellOp.apply book item) T' (redo (CellOp.apply book item) T cell) =
      redo (CellOp.apply book item) T cell := by
  by_cases herase : CellOp.erase ∈ T
  · -- after an erasure the first run and the second are one
    obtain ⟨A, B, rfl⟩ := List.append_of_mem herase
    have hB : ∀ o ∈ B, o.flags = false := by
      intro o ho
      have hpair := (List.pairwise_append.mp hT).2.1
      exact (List.pairwise_cons.mp hpair).1 o ho rfl
    have hdrop := List.forall₂_drop_append T' A _ h
    obtain ⟨o, B', ho, hB', heq⟩ := List.forall₂_cons_right_iff.mp hdrop
    have hsplit : T' = T'.take A.length ++ .erase :: B := by
      rw [← weaker_eq hB' hB, ← ho.eq_of_flags rfl, ← heq, List.take_append_drop]
    rw [hsplit, redo_append, redo_append, redo_cons, redo_cons]
    rfl
  by_cases hflag : ∀ o ∈ T, o.flags = false
  · rw [weaker_eq h hflag]
    exact cell_again_plain herase hflag
  · simp only [not_forall, Bool.not_eq_false] at hflag
    obtain ⟨o, ho, hf⟩ := hflag
    have hd : dismissedCell (redo (CellOp.apply book item) T cell) = true := by
      obtain ⟨A, B, rfl⟩ := List.append_of_mem ho
      rw [redo_append, redo_cons]
      refine dismissedCell_redo (fun hm => herase ?_) (dismissedCell_flagged hf)
      exact List.mem_append_right _ (List.mem_cons_of_mem _ hm)
    cases hr : redo (CellOp.apply book item) T cell with
    | none => simp [hr, dismissedCell] at hd
    | some st =>
      rw [hr] at hd
      rw [redo_some (mt (erase_mem_of_weaker h) herase) (.inl hd), stamp_weaker h,
        stamps_of_some herase hr]

end Cells

/-! ## The trace of an id -/

/-- What the operation does to the row of `id`. -/
def StageOp.on (db : Db) (book : Guid) (id : String) (table : List Staged) : StageOp → List CellOp
  | .upsert txn =>
    if db.settles book txn then
      if id ∈ [txn.pendingTransactionId, txn.transactionId] then [.erase] else []
    else if txn.transactionId = id then
      [.put txn (txn.pendingTransactionId != "" && dismissedIn book txn.pendingTransactionId table)]
    else []
  | .sweep ids => if id ∈ ids then [.sweep] else []

/-- What a log does to it. -/
def trace (db : Db) (book item : Guid) (id : String) : List StageOp → List Staged → List CellOp
  | [], _ => []
  | o :: ops, table =>
    o.on db book id table ++ trace db book item id ops (o.apply db book item table)

/-- The transaction names the predecessor that its id always names. -/
def StageOp.Names (pred : String → String) : StageOp → Prop
  | .upsert txn => txn.pendingTransactionId = pred txn.transactionId
  | .sweep _ => True

/-- A predecessor has none itself. -/
def Rooted (pred : String → String) : Prop := ∀ id, pred id ≠ "" → pred (pred id) = ""

section Tables

variable {db : Db} {book item : Guid} {id : String} {table table' : List Staged} {o : StageOp}
  {ops : List StageOp} {pred : String → String} {cell : Option Staged} {txn : PlaidTxn}

theorem rowsOf_sweep (ids : List String) :
    rowsOf book id (deleteWhere (fun st => stagedIn book ids st && !st.dismissed) table) =
      if id ∈ ids then (rowsOf book id table).filter (·.dismissed) else rowsOf book id table := by
  split
  · rename_i h
    unfold deleteWhere rowsOf
    rw [List.filter_filter, List.filter_filter]
    refine List.filter_congr fun st _ => ?_
    by_cases hst : st.bookGuid = book ∧ st.transactionId = id
    · simp [stagedIn, hst.1, hst.2, h]
    · have hno : (st.bookGuid == book && st.transactionId == id) = false := by
        rw [Bool.eq_false_iff]
        simpa using hst
      rw [hno, Bool.false_and, Bool.and_false]
  · rename_i h
    refine filter_deleteWhere fun st _ hid => ?_
    simp only [stagedIn, List.contains_iff_mem, Bool.and_eq_true] at hid
    rw [Bool.and_eq_false_iff]
    exact .inr (beq_eq_false_iff_ne.mpr fun he => h (he ▸ hid.1.2))

theorem rowsOf_stageRow :
    rowsOf book id (stageRow db book item txn table) =
      if db.settles book txn then
        if id ∈ [txn.pendingTransactionId, txn.transactionId] then [] else rowsOf book id table
      else if txn.transactionId = id then
        upsertStagedRow (txn.staged book item (txn.pendingTransactionId != "" &&
          dismissedIn book txn.pendingTransactionId table) 0) (rowsOf book id table)
      else rowsOf book id table := by
  unfold stageRow
  split
  · exact rowsOf_deleteWhere _
  · by_cases h : txn.transactionId = id
    · rw [if_pos h, ← h]
      exact rowsOf_staged _ _ _ _
    · rw [if_neg h]
      exact rowsOf_upsert_ne h

/-- **One operation**, as the row of an id sees it. -/
theorem rowsOf_apply (h : rowsOf book id table = cell.toList) :
    rowsOf book id (o.apply db book item table) =
      (redo (CellOp.apply book item) (o.on db book id table) cell).toList := by
  cases o with
  | sweep ids =>
    refine (rowsOf_sweep ids).trans ?_
    simp only [StageOp.on]
    by_cases hid : id ∈ ids
    · rw [if_pos hid, if_pos hid, h]
      cases cell with
      | none => rfl
      | some st => cases hd : st.dismissed <;> simp [CellOp.apply, Option.filter, hd]
    · rw [if_neg hid, if_neg hid]
      exact h
  | upsert txn =>
    refine rowsOf_stageRow.trans ?_
    simp only [StageOp.on]
    by_cases hs : db.settles book txn = true
    · rw [if_pos hs, if_pos hs]
      by_cases hid : id ∈ [txn.pendingTransactionId, txn.transactionId]
      · rw [if_pos hid, if_pos hid]
        rfl
      · rw [if_neg hid, if_neg hid]
        exact h
    rw [if_neg hs, if_neg hs]
    by_cases hid : txn.transactionId = id
    · rw [if_pos hid, if_pos hid, h]
      cases cell with
      | none => rfl
      | some st =>
        have hst : st ∈ rowsOf book id table := by simp [h]
        obtain ⟨-, hb, hi⟩ := mem_rowsOf.mp hst
        simp [CellOp.apply, upsertStagedRow, updateWhere, PlaidTxn.staged, PlaidTxn.over, hb, hi,
          hid]
    · rw [if_neg hid, if_neg hid]
      exact h

/-- A log, as the row of an id sees it. -/
theorem rowsOf_redo (h : rowsOf book id table = cell.toList) :
    rowsOf book id (redo (StageOp.apply db book item) ops table) =
      (redo (CellOp.apply book item) (trace db book item id ops table) cell).toList := by
  induction ops generalizing table cell with
  | nil => exact h
  | cons o ops ih =>
    unfold trace
    rw [redo_cons, redo_append]
    exact ih (rowsOf_apply h)

/-! ### Dismissals -/

/-- The operation settles `id`. -/
def StageOp.settling (db : Db) (book : Guid) (id : String) : StageOp → Bool
  | .upsert txn => db.settles book txn && txn.pendingTransactionId == id
  | .sweep _ => false

/-- An id without predecessor is dismissed by no operation. -/
theorem dismissedIn_apply (ho : o.Names pred) (hid : pred id = "") :
    dismissedIn book id (o.apply db book item table) =
      (dismissedIn book id table && !o.settling db book id) := by
  cases o with
  | upsert txn =>
    refine dismissedIn_stageRow fun he => ?_
    have hname : txn.pendingTransactionId = pred txn.transactionId := ho
    rw [hname, he, hid]
  | sweep ids =>
    have hrows : dismissedIn book id (deleteWhere
        (fun st => stagedIn book ids st && !st.dismissed) table) = dismissedIn book id table := by
      rw [dismissedIn_eq, rowsOf_sweep]
      split
      · rw [List.any_filter, dismissedIn_eq]
        exact congrArg _ (funext fun st => Bool.and_self _)
      · rw [dismissedIn_eq]
    rw [show (StageOp.sweep ids).settling db book id = false from rfl, Bool.not_false,
      Bool.and_true]
    exact hrows

theorem dismissedIn_redo (ho : ∀ o ∈ ops, o.Names pred) (hid : pred id = "")
    (h : dismissedIn book id (redo (StageOp.apply db book item) ops table) = true) :
    dismissedIn book id table = true := by
  induction ops generalizing table with
  | nil => exact h
  | cons o ops ih =>
    have h := ih (fun o' ho' => ho o' (List.mem_cons_of_mem _ ho')) h
    rw [dismissedIn_apply (ho o List.mem_cons_self) hid, Bool.and_eq_true] at h
    exact h.1

/-- The flag of an upsert is the dismissal of the predecessor. -/
theorem flags_on (ho : o.Names pred)
    (h : pred id ≠ "" → dismissedIn book (pred id) table = false) {c : CellOp}
    (hc : c ∈ o.on db book id table) : c.flags = false := by
  cases o with
  | upsert txn =>
    have hname : txn.pendingTransactionId = pred txn.transactionId := ho
    simp only [StageOp.on] at hc
    split at hc
    · split at hc
      · rw [List.mem_singleton.mp hc]
        rfl
      · exact absurd hc List.not_mem_nil
    split at hc
    · rename_i hid
      rw [List.mem_singleton.mp hc, hname, hid]
      show (pred id != "" && dismissedIn book (pred id) table) = false
      by_cases hp : pred id = ""
      · simp [hp]
      · rw [h hp, Bool.and_false]
    · exact absurd hc List.not_mem_nil
  | sweep ids =>
    simp only [StageOp.on] at hc
    split at hc
    · rw [List.mem_singleton.mp hc]
      rfl
    · exact absurd hc List.not_mem_nil

theorem flags_trace (hr : Rooted pred) (ho : ∀ o ∈ ops, o.Names pred)
    (h : pred id ≠ "" → dismissedIn book (pred id) table = false) {c : CellOp}
    (hc : c ∈ trace db book item id ops table) : c.flags = false := by
  induction ops generalizing table with
  | nil => exact absurd hc List.not_mem_nil
  | cons o ops ih =>
    rcases List.mem_append.mp hc with hc | hc
    · exact flags_on (ho o List.mem_cons_self) h hc
    · refine ih (fun o' ho' => ho o' (List.mem_cons_of_mem _ ho')) (fun hp => ?_) hc
      rw [dismissedIn_apply (ho o List.mem_cons_self) (hr id hp), h hp, Bool.false_and]

/-- The predecessor goes with the id. -/
theorem settling_of_erase (hr : Rooted pred) (ho : o.Names pred) (hp : pred id ≠ "")
    (h : CellOp.erase ∈ o.on db book id table) : o.settling db book (pred id) = true := by
  cases o with
  | sweep ids =>
    simp only [StageOp.on] at h
    split at h <;> simp at h
  | upsert txn =>
    have hname : txn.pendingTransactionId = pred txn.transactionId := ho
    simp only [StageOp.on] at h
    split at h
    · rename_i hs
      split at h
      · rename_i hid
        rcases List.mem_cons.mp hid with hid | hid
        · -- a predecessor would have one itself
          refine absurd ?_ hp
          rw [hid, hname]
          exact hr _ (hname ▸ (settles_pending hs).1)
        · have hid := List.mem_singleton.mp hid
          simp [StageOp.settling, hs, hname, hid]
      · exact absurd h List.not_mem_nil
    · split at h <;> simp at h

theorem length_on : (o.on db book id table).length ≤ 1 := by
  cases o with
  | upsert txn =>
    simp only [StageOp.on]
    split
    · split <;> simp
    · split <;> simp
  | sweep ids =>
    simp only [StageOp.on]
    split <;> simp

theorem erasedClean_trace (hr : Rooted pred) (ho : ∀ o ∈ ops, o.Names pred) :
    ErasedClean (trace db book item id ops table) := by
  induction ops generalizing table with
  | nil => exact List.Pairwise.nil
  | cons o ops ih =>
    have ho' : ∀ o ∈ ops, o.Names pred := fun o h => ho o (List.mem_cons_of_mem _ h)
    refine List.pairwise_append.mpr ⟨?_, ih ho', fun a ha b hb he => ?_⟩
    · have hlen := @length_on db book id table o
      generalize o.on db book id table = l at hlen
      rcases l with _ | ⟨c, _ | ⟨c', l⟩⟩
      · exact List.Pairwise.nil
      · exact List.pairwise_singleton _ c
      · exact absurd hlen (by simp)
    · refine flags_trace hr ho' (fun hp => ?_) hb
      have hset := settling_of_erase hr (ho o List.mem_cons_self) hp (he ▸ ha)
      rw [dismissedIn_apply (ho o List.mem_cons_self) (hr id hp), hset]
      exact Bool.and_false _

/-- With fewer dismissals, the same operations with fewer flags. -/
theorem weaker_trace (hr : Rooted pred) (ho : ∀ o ∈ ops, o.Names pred)
    (h : pred id ≠ "" → dismissedIn book (pred id) table' = true →
      dismissedIn book (pred id) table = true) :
    List.Forall₂ CellOp.Weaker (trace db book item id ops table')
      (trace db book item id ops table) := by
  induction ops generalizing table table' with
  | nil => exact .nil
  | cons o ops ih =>
    have hname := ho o List.mem_cons_self
    refine List.rel_append ?_ (ih (fun o h => ho o (List.mem_cons_of_mem _ h)) fun hp hd => ?_)
    · cases o with
      | sweep ids => exact List.forall₂_same.mpr fun c _ => CellOp.Weaker.refl c
      | upsert txn =>
        have hname : txn.pendingTransactionId = pred txn.transactionId := hname
        simp only [StageOp.on]
        split
        · exact List.forall₂_same.mpr fun c _ => CellOp.Weaker.refl c
        split
        · rename_i hid
          refine .cons ?_ .nil
          rw [hname, hid]
          by_cases hp : pred id = ""
          · simp only [hp, bne_self_eq_false, Bool.false_and]
            exact .refl _
          by_cases hd : dismissedIn book (pred id) table' = true
          · rw [hd, h hp hd]
            exact .refl _
          · rw [Bool.not_eq_true] at hd
            rw [hd, Bool.and_false]
            exact .put _ _
        · exact .nil
    · rw [dismissedIn_apply hname (hr id hp), Bool.and_eq_true] at hd ⊢
      exact ⟨h hp hd.1, hd.2⟩

/-- `PRIMARY KEY (book_guid, transaction_id)`, for the book. -/
def Single (book : Guid) (table : List Staged) : Prop :=
  ∀ id, ∃ cell : Option Staged, rowsOf book id table = cell.toList

theorem Single.apply (h : Single book table) (o : StageOp) :
    Single book (o.apply db book item table) := by
  intro id
  obtain ⟨cell, hcell⟩ := h id
  exact ⟨_, rowsOf_apply hcell⟩

/-- **A log that was applied may be applied again.** -/
theorem rowsOf_again (hr : Rooted pred) (ho : ∀ o ∈ ops, o.Names pred) (hs : Single book table)
    (id : String) :
    rowsOf book id (redo (StageOp.apply db book item) ops
        (redo (StageOp.apply db book item) ops table)) =
      rowsOf book id (redo (StageOp.apply db book item) ops table) := by
  obtain ⟨cell, hcell⟩ := hs id
  have honce : rowsOf book id (redo (StageOp.apply db book item) ops table) =
      (redo (CellOp.apply book item) (trace db book item id ops table) cell).toList :=
    rowsOf_redo hcell
  rw [rowsOf_redo honce, honce]
  refine congrArg _ (cell_again (weaker_trace hr ho fun hp => ?_) (erasedClean_trace hr ho))
  exact dismissedIn_redo ho (hr id hp)

/-! ## The table -/

/-- The table, read by the key. -/
def seen (table : List Staged) (book : Guid) (id : String) : List Staged := rowsOf book id table

/-- It tells the table but for the order of its rows. -/
theorem perm_of_seen (h : seen table = seen table') : table.Perm table' := by
  refine List.perm_iff_count.mpr fun st => ?_
  have hcount : ∀ t : List Staged, t.count st = (seen t st.bookGuid st.transactionId).count st :=
    fun t => (List.count_filter (by simp)).symm
  rw [hcount table, hcount table', h]

theorem seen_apply_ne {b : Guid} (h : b ≠ book) :
    seen (o.apply db book item table) b id = seen table b id := by
  have hdelete : ∀ c : Staged → Bool, (∀ st, c st = true → st.bookGuid = book) →
      rowsOf b id (deleteWhere c table) = rowsOf b id table := by
    intro c hc
    refine filter_deleteWhere fun st _ hst => ?_
    rw [Bool.and_eq_false_iff, hc st hst]
    exact .inl (beq_eq_false_iff_ne.mpr (Ne.symm h))
  unfold seen
  cases o with
  | sweep ids => exact hdelete _ fun st hst => by simp_all [stagedIn]
  | upsert txn =>
    simp only [StageOp.apply, stageRow]
    split
    · exact hdelete _ fun st hst => by simp_all [stagedIn]
    · unfold upsertStagedRow rowsOf
      split
      · refine filter_updateWhere fun st _ hst => ?_
        simp only [Bool.and_eq_true, beq_iff_eq, PlaidTxn.staged] at hst
        simp [hst.1, Ne.symm h]
      · have hb : (book == b) = false := beq_eq_false_iff_ne.mpr (Ne.symm h)
        rw [List.filter_append, List.filter_singleton]
        simp [PlaidTxn.staged, hb]

/-- An operation sees no more of the table. -/
theorem seen_apply (h : seen table = seen table') :
    seen (o.apply db book item table) = seen (o.apply db book item table') := by
  have hrows : ∀ b id, rowsOf b id table = rowsOf b id table' := fun b id =>
    congrFun (congrFun h b) id
  funext b id
  by_cases hb : b = book
  · subst hb
    cases o with
    | sweep ids =>
      refine (rowsOf_sweep ids).trans (Eq.trans ?_ (rowsOf_sweep ids).symm)
      rw [hrows]
    | upsert txn =>
      refine rowsOf_stageRow.trans (Eq.trans ?_ rowsOf_stageRow.symm)
      rw [dismissedIn_eq, dismissedIn_eq, hrows, hrows]
  · rw [seen_apply_ne hb, seen_apply_ne hb, h]

theorem seen_again (hr : Rooted pred) (ho : ∀ o ∈ ops, o.Names pred) (hs : Single book table) :
    seen (redo (StageOp.apply db book item) ops (redo (StageOp.apply db book item) ops table)) =
      seen (redo (StageOp.apply db book item) ops table) := by
  have hother : ∀ b id, b ≠ book → ∀ t, seen (redo (StageOp.apply db book item) ops t) b id =
      seen t b id := fun b id hb t =>
    redo_keeps (I := fun t' => seen t' b id = seen t b id)
      (fun _ _ _ h => (seen_apply_ne hb).trans h) rfl
  funext b id
  by_cases hb : b = book
  · subst hb
    exact rowsOf_again hr ho hs id
  · rw [hother b id hb]

/-- **Recovery**: after any number of crashes the log leaves what it leaves at once. -/
theorem seen_recovered (hr : Rooted pred) (ho : ∀ o ∈ ops, o.Names pred) (hs : Single book table)
    (h : Crashed (StageOp.apply db book item) ops table table') :
    seen (redo (StageOp.apply db book item) ops table') =
      seen (redo (StageOp.apply db book item) ops table) :=
  Crashed.redo (I := Single book) (fun o _ _ hs => hs.apply o) (fun _ _ _ _ => seen_apply)
    (fun _ hd _ hs => seen_again hr (fun o h => ho o (hd.subset h)) hs) h hs

end Tables

/-! ## Pages -/

section Log

variable {db : Db} {book item : Guid} {table : List Staged}

/-- Sweeps, one after the other. -/
theorem redo_sweeps (txns : List PlaidTxn) (c : Staged → Bool) :
    redo (StageOp.apply db book item)
        ((txns.filter (·.amountNum == 0)).map fun txn => StageOp.sweep txn.staleIDs)
        (deleteWhere (fun st => c st && !st.dismissed) table) =
      deleteWhere (fun st => (c st || staleIn book txns st) && !st.dismissed) table := by
  induction txns generalizing c with
  | nil => simp [staleIn]
  | cons txn rest ih =>
    simp only [staleIn_cons]
    by_cases h0 : txn.amountNum = 0
    · rw [List.filter_cons_of_pos (by simp [h0]), List.map_cons, redo_cons]
      simp only [StageOp.apply]
      rw [deleteWhere_undismissed, ih]
      simp only [h0, beq_self_eq_true, Bool.true_and, Bool.or_assoc]
    · rw [List.filter_cons_of_neg (by simp [h0]), ih]
      have hzero : (txn.amountNum == 0) = false := beq_eq_false_iff_ne.mpr h0
      simp only [hzero, Bool.false_and, Bool.false_or]

/-- The log of a page is the page. -/
theorem redo_pageOps (delta : SyncDelta) :
    redo (StageOp.apply db book item) (pageOps delta) table =
      pageRows db book item delta table := by
  unfold pageOps pageRows upsertRows
  have hnone : ∀ t : List Staged, t = deleteWhere (fun st => false && !st.dismissed) t := fun t =>
    by simp [deleteWhere]
  rw [redo_append, redo_append, hnone (redo _ (List.map _ _) table), redo_sweeps]
  simp only [Bool.false_or, redo_cons, redo_nil, StageOp.apply]
  unfold redo
  rw [List.foldl_map]
  rfl

end Log

end Antimoney
