import Antimoney.Plaid.Listing

/-!
# The order inside a page

`stageDelta` on a page whose statements all succeed is a function on the staged rows, up to the
times of their creation. A transaction that names a predecessor either settles it, and drops the
staged copies of both, or inherits its dismissal; two transactions that name one predecessor may do
one and the other.

* `stageRow`, `pageRows`: what one transaction and a whole page do to the table.
* `stageDelta_ends`: a page is applied if each of its transactions can be, in any order.
* `rowsOf_pass`: what the upsert pass leaves of one id.
* **`page_order_iff`**: `Sync` lists the same rows after every order of a page, exactly when no
  predecessor is contested.
-/

namespace Antimoney

open Antimoney.Lib Prog

/-! ## A page on the table -/

/-- The row but for the time of its creation. -/
def Staged.bare (st : Staged) : Staged := { st with createdAt := 0 }

/-- The predecessor that the transaction names is imported with the value of the transaction. -/
def Db.settles (db : Db) (book : Guid) (txn : PlaidTxn) : Bool :=
  txn.pendingTransactionId != "" && db.posted book txn.pendingTransactionId &&
    db.linkedSplit book txn.pendingTransactionId txn.accountId
      (Db.opposite txn.amountNum txn.amountDenom)

/-- A staged copy of the id is dismissed. -/
def dismissedIn (book : Guid) (id : String) (table : List Staged) : Bool :=
  table.any fun st => st.bookGuid == book && st.transactionId == id && st.dismissed

/-- What the upsert pass does for a transaction. -/
def stageRow (db : Db) (book item : Guid) (txn : PlaidTxn) (table : List Staged) : List Staged :=
  if db.settles book txn then
    deleteWhere (stagedIn book [txn.pendingTransactionId, txn.transactionId]) table
  else
    upsertStagedRow (txn.staged book item
      (txn.pendingTransactionId != "" && dismissedIn book txn.pendingTransactionId table) 0) table

/-- The upsert pass. -/
def upsertRows (db : Db) (book item : Guid) (txns : List PlaidTxn) (table : List Staged) :
    List Staged :=
  (txns.filter (·.amountNum != 0)).foldl (fun table txn => stageRow db book item txn table) table

/-- The row is a stale copy for a transaction that settled at zero. -/
def staleIn (book : Guid) (txns : List PlaidTxn) (st : Staged) : Bool :=
  txns.any fun txn => txn.amountNum == 0 && stagedIn book txn.staleIDs st

/-- A page. -/
def pageRows (db : Db) (book item : Guid) (delta : SyncDelta) (table : List Staged) :
    List Staged :=
  deleteWhere (fun st => stagedIn book delta.removed st && !st.dismissed)
    (deleteWhere (fun st => staleIn book (delta.added ++ delta.modified) st && !st.dismissed)
      (upsertRows db book item (delta.added ++ delta.modified) table))

/-! ### Creation times do not matter -/

theorem map_bare_deleteWhere {c : Staged → Bool} (hc : ∀ st, c st.bare = c st)
    (table : List Staged) : (deleteWhere c table).map Staged.bare =
      deleteWhere c (table.map Staged.bare) := by
  unfold deleteWhere
  rw [List.filter_map]
  congr 1
  exact List.filter_congr fun st _ => by simp [hc]

theorem map_bare_upsertStagedRow (new : Staged) (table : List Staged) :
    (upsertStagedRow new table).map Staged.bare =
      upsertStagedRow new.bare (table.map Staged.bare) := by
  have hany : (table.map Staged.bare).any (fun st => st.bookGuid == new.bare.bookGuid &&
      st.transactionId == new.bare.transactionId) = table.any fun st =>
        st.bookGuid == new.bookGuid && st.transactionId == new.transactionId := by
    rw [List.any_map]
    rfl
  unfold upsertStagedRow
  rw [hany]
  split
  · unfold updateWhere
    rw [List.map_map, List.map_map]
    refine List.map_congr_left fun st _ => ?_
    simp only [Function.comp_apply]
    by_cases h : st.bookGuid = new.bookGuid ∧ st.transactionId = new.transactionId
    · simp [h, Staged.bare]
    · have hst : (st.bookGuid == new.bookGuid && st.transactionId == new.transactionId) =
          false := by
        rw [Bool.eq_false_iff]
        simpa using h
      simp only [Staged.bare, hst, Bool.false_eq_true, if_false]
  · rw [List.map_append]
    rfl

theorem dismissedIn_bare (book : Guid) (id : String) (table : List Staged) :
    dismissedIn book id (table.map Staged.bare) = dismissedIn book id table := by
  unfold dismissedIn
  rw [List.any_map]
  rfl

/-! ## Running a page -/

section Runs

variable {book i : Guid} {item : GuidText} {db : Db} {envs : Nat → Env}

/-- The database with other staged rows. -/
def Db.restage (db : Db) (table : List Staged) : Db := { db with staged := table }

/-- The statements for the transaction go through, unless the environment fails one. -/
def Db.stages (db : Db) (book item : Guid) (txn : PlaidTxn) : Bool :=
  (txn.pendingTransactionId == "" || !db.posted book txn.pendingTransactionId ||
      txn.amountNum != Int64.minValue) &&
    (db.settles book txn || (decide (0 < txn.amountDenom) && db.hasBook book && db.hasItem item))

/-- The run succeeds exactly if `ok`, and leaves these rows then, creation times aside. -/
def StagingEnds (db : Db) (ok : Bool) (table : List Staged) (x : Except Err Unit × Solo SqlErr Db) :
    Prop :=
  if ok then ∃ rows, x = (.ok (), .idle (db.restage rows)) ∧ rows.map Staged.bare = table
  else ∃ e t, x = (.error e, t)

/-- A sequence. -/
theorem StagingEnds.bind (ok ok' : Bool) {p : Call Unit} {f : Unit → Call Unit}
    {table table' : List Staged} (hf : Smooth envs)
    (h : StagingEnds db ok table (p.run machine envs (.idle db)))
    (h' : ∀ rows envs', Smooth envs' → rows.map Staged.bare = table →
      StagingEnds (db.restage rows) ok' table' ((f ()).run machine envs' (.idle (db.restage rows)))) :
    StagingEnds db (ok && ok') table' ((p.bind f).run machine envs (.idle db)) := by
  cases ok with
  | false =>
    obtain ⟨e, t, he⟩ := h
    exact ⟨e, t, run_bind_error he⟩
  | true =>
    obtain ⟨rows, hrun, hrows⟩ := h
    rw [(run_bind_ok hrun).1]
    exact h' rows _ (hf.shift _) hrows

/-- A statement on the staged rows that cannot go wrong by itself. -/
theorem ends_sql {text : String} {q : Stmt Unit} {f : Db → List Staged} {table : List Staged}
    (hf : Smooth envs) (hq : q.sem (envs 0) db = if (envs 0).fail then .error .failed
      else .ok ((), db.restage (f db)))
    (ht : (f db).map Staged.bare = table) :
    StagingEnds db true table ((exec text q).run machine envs (.idle db)) := by
  rw [← bind_ret (exec text q), run_exec, hq, if_neg (by simp [hf 0])]
  exact ⟨f db, rfl, ht⟩

theorem upsertStaged_ends (hf : Smooth envs) (hi : item.parse = .ok i) (text : String)
    (txn : PlaidTxn) (d : Bool) :
    StagingEnds db (decide (0 < txn.amountDenom) && db.hasBook book && db.hasItem i)
      (upsertStagedRow (txn.staged book i d 0) (db.staged.map Staged.bare))
      ((exec text (upsertStaged book item txn d)).run machine envs (.idle db)) := by
  have hsem : (upsertStaged book item txn d).sem (envs 0) db = (do
      require (decide (0 < txn.amountDenom)) .check
      require (db.hasBook book && db.hasItem i) .foreignKey
      return ((), { db with
        staged := upsertStagedRow (txn.staged book i d (envs 0).now) db.staged })) := by
    simp only [upsertStaged, Stmt.tagged, Stmt.locking, Stmt.sqlNow, Stmt.mk', hf 0, hi]
    rfl
  rw [← bind_ret (exec text (upsertStaged book item txn d)), run_exec, hsem]
  by_cases h1 : 0 < txn.amountDenom
  · by_cases h2 : (db.hasBook book && db.hasItem i) = true
    · simp only [h1, h2, decide_true, Bool.true_and, require, if_true]
      exact ⟨_, rfl, map_bare_upsertStagedRow _ _⟩
    · rw [Bool.not_eq_true] at h2
      simp only [h1, h2, decide_true, Bool.true_and, require, if_true]
      exact ⟨_, _, rfl⟩
  · simp only [h1, decide_false, Bool.false_and, require]
    exact ⟨_, _, rfl⟩

/-- A transaction that is not settled by its predecessor. -/
theorem stageRow_of_not {txn : PlaidTxn} {table : List Staged} {d : Bool}
    (hs : db.settles book txn = false)
    (hd : d = (txn.pendingTransactionId != "" && dismissedIn book txn.pendingTransactionId table)) :
    stageRow db book i txn table = upsertStagedRow (txn.staged book i d 0) table := by
  rw [stageRow, hs, hd]
  rfl

/-- **One transaction.** -/
theorem stageTxn_ends (hf : Smooth envs) (hi : item.parse = .ok i) (txn : PlaidTxn) :
    StagingEnds db (db.stages book i txn) (stageRow db book i txn (db.staged.map Staged.bare))
      ((stageTxn book item txn).run machine envs (.idle db)) := by
  -- a transaction that is upserted, when no error comes before
  have hup : ∀ {envs'} {d : Bool}, Smooth envs' → db.settles book txn = false →
      (txn.pendingTransactionId == "" || !db.posted book txn.pendingTransactionId ||
        txn.amountNum != Int64.minValue) = true →
      d = (txn.pendingTransactionId != "" &&
        dismissedIn book txn.pendingTransactionId db.staged) →
      StagingEnds db (db.stages book i txn) (stageRow db book i txn (db.staged.map Staged.bare))
        ((exec (stageErr "stage txn" txn.transactionId)
          (upsertStaged book item txn d)).run machine envs' (.idle db)) := by
    intro envs' d hf' hs hok hd
    rw [stageRow_of_not hs (d := d) (by rw [dismissedIn_bare]; exact hd), Db.stages, hok, hs,
      Bool.true_and, Bool.false_or]
    exact upsertStaged_ends hf' hi _ txn d
  unfold stageTxn correlatePending predecessorImported
  simp only [bind_eq, pure_eq]
  by_cases hp : txn.pendingTransactionId = ""
  · simp only [hp, if_true, ret_bind]
    exact hup hf (by simp [Db.settles, hp]) (by simp [hp]) (by simp [hp])
  simp only [hp, if_false, bind_assoc]
  unfold transactionExists
  rw [run_query, if_neg (by simp [hf 0])]
  by_cases hposted : db.posted book txn.pendingTransactionId = true
  · simp only [hposted, if_true]
    unfold importedValueMatches
    rw [run_queryE]
    simp only [hf 1, Bool.false_eq_true, if_false]
    by_cases hmin : txn.amountNum = Int64.minValue
    · have hno : db.stages book i txn = false := by simp [Db.stages, hp, hposted, hmin]
      simp only [hmin, bne_self_eq_false, require, Bool.false_eq_true, if_false]
      rw [hno]
      exact ⟨_, _, rfl⟩
    have hne : (txn.amountNum != Int64.minValue) = true := bne_iff_ne.mpr hmin
    simp only [hne, require, if_true]
    have hlink : db.linkedSplit book txn.pendingTransactionId txn.accountId
        (Db.opposite txn.amountNum txn.amountDenom) = db.settles book txn := by
      simp [Db.settles, hp, hposted]
    rw [show (Except.ok () >>= fun _ => pure (db.linkedSplit book txn.pendingTransactionId
      txn.accountId (Db.opposite txn.amountNum txn.amountDenom)) : Except SqlErr Bool) =
        .ok (db.settles book txn) from congrArg _ hlink]
    dsimp only
    by_cases hs : db.settles book txn = true
    · have hdrop : stageRow db book i txn (db.staged.map Staged.bare) =
          deleteWhere (stagedIn book [txn.pendingTransactionId, txn.transactionId])
            (db.staged.map Staged.bare) := by rw [stageRow, if_pos hs]
      have hyes : db.stages book i txn = true := by simp [Db.stages, hne, hs]
      simp only [hs, if_true, bind_assoc, ret_bind]
      rw [run_exec, hdrop, hyes]
      simp only [dropReplaced, Stmt.tagged, Stmt.locking, Stmt.sql, Stmt.mk', hf 2,
        Bool.false_eq_true, if_false]
      exact ⟨_, rfl, map_bare_deleteWhere (fun _ => rfl) _⟩
    · rw [Bool.not_eq_true] at hs
      simp only [hs, Bool.false_eq_true, if_false, bind_assoc, ret_bind]
      unfold selectDismissed
      rw [run_query, if_neg (by simp [hf 2])]
      exact hup (hf.shift 3) hs (by simp [hne]) (by simp [hp, dismissedIn])
  · rw [Bool.not_eq_true] at hposted
    simp only [hposted, Bool.false_eq_true, if_false, ret_bind, bind_assoc]
    unfold selectDismissed
    rw [run_query, if_neg (by simp [hf 1])]
    exact hup (hf.shift 2) (by simp [Db.settles, hposted]) (by simp [hposted])
      (by simp [hp, dismissedIn])

/-- The upsert pass. -/
theorem upsertPass_ends (hf : Smooth envs) (hi : item.parse = .ok i) (txns : List PlaidTxn) :
    StagingEnds db ((txns.filter (·.amountNum != 0)).all (db.stages book i))
      (upsertRows db book i txns (db.staged.map Staged.bare))
      ((upsertPass book item txns).run machine envs (.idle db)) := by
  induction txns generalizing db envs with
  | nil => exact ⟨db.staged, rfl, rfl⟩
  | cons txn rest ih =>
    unfold upsertPass upsertRows
    by_cases h0 : txn.amountNum = 0
    · rw [if_pos h0, List.filter_cons_of_neg (by simp [h0])]
      exact ih hf
    · rw [if_neg h0, List.filter_cons_of_pos (by simpa using h0), List.all_cons, List.foldl_cons]
      refine (stageTxn_ends hf hi txn).bind _ _ hf fun rows envs' hf' hrows => ?_
      rw [← hrows]
      exact @ih (db.restage rows) envs' hf'

/-- The divergence checks change nothing. -/
theorem checkDivergence_ends (hf : Smooth envs) (ids : List String) :
    StagingEnds db true (db.staged.map Staged.bare)
      ((checkDivergence book ids).run machine envs (.idle db)) := by
  induction ids generalizing envs with
  | nil => exact ⟨db.staged, rfl, rfl⟩
  | cons id ids ih =>
    unfold checkDivergence transactionExists
    simp only [bind_eq]
    rw [run_query, if_neg (by simp [hf 0])]
    exact ih (hf.shift 1)

/-- Deletions of undismissed rows, one after the other. -/
theorem deleteWhere_undismissed (c c' : Staged → Bool) (table : List Staged) :
    deleteWhere (fun st => c' st && !st.dismissed) (deleteWhere (fun st => c st && !st.dismissed)
      table) = deleteWhere (fun st => (c st || c' st) && !st.dismissed) table := by
  unfold deleteWhere
  rw [List.filter_filter]
  refine List.filter_congr fun st _ => ?_
  dsimp only
  cases c st <;> cases c' st <;> cases st.dismissed <;> rfl

theorem dropUndismissed_ends (hf : Smooth envs) (text : String) (ids : List String) :
    StagingEnds db true (deleteWhere (fun st => stagedIn book ids st && !st.dismissed)
        (db.staged.map Staged.bare))
      ((exec text (dropUndismissed book ids)).run machine envs (.idle db)) := by
  refine ends_sql (f := fun db => deleteWhere (fun st => stagedIn book ids st && !st.dismissed)
    db.staged) hf rfl ?_
  exact map_bare_deleteWhere (fun _ => rfl) _

theorem staleIn_cons (book : Guid) (txn : PlaidTxn) (rest : List PlaidTxn) (st : Staged) :
    staleIn book (txn :: rest) st =
      ((txn.amountNum == 0 && stagedIn book txn.staleIDs st) || staleIn book rest st) :=
  List.any_cons

/-- The zero pass. -/
theorem zeroPass_ends (hf : Smooth envs) (txns : List PlaidTxn) :
    StagingEnds db true (deleteWhere (fun st => staleIn book txns st && !st.dismissed)
        (db.staged.map Staged.bare))
      ((zeroPass book txns).run machine envs (.idle db)) := by
  induction txns generalizing db envs with
  | nil =>
    refine ⟨db.staged, rfl, ?_⟩
    simp [deleteWhere, staleIn]
  | cons txn rest ih =>
    unfold zeroPass
    simp only [staleIn_cons]
    by_cases h0 : txn.amountNum = 0
    · rw [if_pos h0]
      refine StagingEnds.bind true true hf (dropUndismissed_ends hf _ _)
        fun rows envs' hf' hrows => ?_
      refine StagingEnds.bind true true hf' (checkDivergence_ends hf' _)
        fun rows' envs'' hf'' hrows' => ?_
      have hrest := @ih ((db.restage rows).restage rows') envs'' hf''
      have htable : ((db.restage rows).restage rows').staged.map Staged.bare =
          deleteWhere (fun st => stagedIn book txn.staleIDs st && !st.dismissed)
            (db.staged.map Staged.bare) := hrows'.trans hrows
      rw [htable, deleteWhere_undismissed] at hrest
      simpa only [h0, beq_self_eq_true, Bool.true_and] using hrest
    · rw [if_neg h0]
      have hzero : (txn.amountNum == 0) = false := beq_eq_false_iff_ne.mpr h0
      simpa only [hzero, Bool.false_and, Bool.false_or] using ih hf

/-- The removals. -/
theorem removePass_ends (book : Guid) (db : Db) (hf : Smooth envs) (removed : List String) :
    StagingEnds db true (deleteWhere (fun st => stagedIn book removed st && !st.dismissed)
        (db.staged.map Staged.bare))
      ((removePass book removed).run machine envs (.idle db)) := by
  unfold removePass
  by_cases he : removed.isEmpty = true
  · rw [if_pos he]
    refine ⟨db.staged, rfl, ?_⟩
    simp [deleteWhere, stagedIn, List.isEmpty_iff.mp he]
  · rw [if_neg he]
    unfold selectRemovedImported
    simp only [bind_eq]
    rw [run_query, if_neg (by simp [hf 0])]
    exact dropUndismissed_ends (hf.shift 1) _ _

/-- **A page is applied**, if each of its transactions can be. -/
theorem stageDelta_ends (book : Guid) (db : Db) (hf : Smooth envs) (hi : item.parse = .ok i)
    (delta : SyncDelta) :
    StagingEnds db (((delta.added ++ delta.modified).filter (·.amountNum != 0)).all (db.stages book i))
      (pageRows db book i delta (db.staged.map Staged.bare))
      ((stageDelta book item delta).run machine envs (.idle db)) := by
  unfold stageDelta
  simp only [bind_eq]
  rw [← Bool.and_true (List.all _ _)]
  refine (upsertPass_ends hf hi _).bind _ _ hf fun rows envs' hf' hrows => ?_
  refine StagingEnds.bind true true hf' (zeroPass_ends hf' _)
    fun rows' envs'' hf'' hrows' => ?_
  have hlast := removePass_ends book ((db.restage rows).restage rows') hf'' delta.removed
  rw [show ((db.restage rows).restage rows').staged.map Staged.bare = _ from hrows',
    show (db.restage rows).staged.map Staged.bare = _ from hrows] at hlast
  exact hlast

end Runs

/-! ## The rows of one id -/

/-- The staged rows of an id. -/
def rowsOf (book : Guid) (id : String) (table : List Staged) : List Staged :=
  table.filter fun st => st.bookGuid == book && st.transactionId == id

section Rows

variable {db : Db} {book i : Guid} {id : String} {table : List Staged} {txn : PlaidTxn}

theorem mem_rowsOf {st : Staged} :
    st ∈ rowsOf book id table ↔ st ∈ table ∧ st.bookGuid = book ∧ st.transactionId = id := by
  simp [rowsOf]

theorem dismissedIn_eq : dismissedIn book id table = (rowsOf book id table).any (·.dismissed) := by
  unfold dismissedIn rowsOf
  rw [List.any_filter]

theorem rowsOf_deleteWhere (ids : List String) :
    rowsOf book id (deleteWhere (stagedIn book ids) table) =
      if id ∈ ids then [] else rowsOf book id table := by
  by_cases h : id ∈ ids
  · rw [if_pos h]
    refine List.filter_eq_nil_iff.mpr fun st hst hid => ?_
    have hno := (mem_deleteWhere.mp hst).2
    simp only [Bool.and_eq_true, beq_iff_eq] at hid
    simp [stagedIn, hid.1, hid.2, h] at hno
  · rw [if_neg h]
    refine filter_deleteWhere fun st _ hid => ?_
    simp only [stagedIn, List.contains_iff_mem, Bool.and_eq_true] at hid
    rw [Bool.and_eq_false_iff]
    exact .inr (beq_eq_false_iff_ne.mpr fun he => h (he ▸ hid.2))

/-- The key of the row an upsert is about. -/
theorem upsertStagedRow_filter (new : Staged) (c : Staged → Bool)
    (hc : ∀ st, st.bookGuid = new.bookGuid → st.transactionId = new.transactionId → c st = true) :
    (upsertStagedRow new table).filter c = upsertStagedRow new (table.filter c) := by
  have hany : (table.filter c).any (fun st => st.bookGuid == new.bookGuid &&
      st.transactionId == new.transactionId) = table.any fun st =>
        st.bookGuid == new.bookGuid && st.transactionId == new.transactionId :=
    any_filter_of_imp fun st _ h => by
      simp only [Bool.and_eq_true, beq_iff_eq] at h
      exact hc st h.1 h.2
  unfold upsertStagedRow
  rw [hany]
  split
  · refine updateWhere_filter fun st _ h => ?_
    simp only [Bool.and_eq_true, beq_iff_eq] at h
    refine Eq.trans ?_ (hc st h.1 h.2).symm
    apply hc
    · exact h.1
    · exact h.2
  · rw [List.filter_append, List.filter_singleton, hc new rfl rfl]
    rfl

theorem rowsOf_upsert_self (new : Staged) :
    rowsOf new.bookGuid new.transactionId (upsertStagedRow new table) =
      upsertStagedRow new (rowsOf new.bookGuid new.transactionId table) :=
  upsertStagedRow_filter new _ fun st hb hid => by simp [hb, hid]

theorem rowsOf_staged (txn : PlaidTxn) (item : Guid) (d : Bool) (table : List Staged) :
    rowsOf book txn.transactionId (upsertStagedRow (txn.staged book item d 0) table) =
      upsertStagedRow (txn.staged book item d 0) (rowsOf book txn.transactionId table) :=
  rowsOf_upsert_self (txn.staged book item d 0)

theorem rowsOf_upsert_ne {new : Staged} (h : new.transactionId ≠ id) :
    rowsOf book id (upsertStagedRow new table) = rowsOf book id table := by
  unfold upsertStagedRow rowsOf
  split
  · refine filter_updateWhere fun st _ hst => ?_
    simp only [Bool.and_eq_true, beq_iff_eq] at hst
    simp [hst.2, h]
  · have hne : (new.transactionId == id) = false := beq_eq_false_iff_ne.mpr h
    rw [List.filter_append, List.filter_singleton, hne, Bool.and_false, cond_false,
      List.append_nil]

/-- An undismissed upsert dismisses nothing and undismisses nothing. -/
theorem dismissed_upsert {new : Staged} (h : new.dismissed = false) :
    dismissedIn new.bookGuid new.transactionId (upsertStagedRow new table) =
      dismissedIn new.bookGuid new.transactionId table := by
  rw [dismissedIn_eq, dismissedIn_eq, rowsOf_upsert_self]
  have hkey : ∀ st ∈ rowsOf new.bookGuid new.transactionId table,
      (st.bookGuid == new.bookGuid && st.transactionId == new.transactionId) = true := by
    intro st hst
    obtain ⟨-, hb, hid⟩ := mem_rowsOf.mp hst
    simp [hb, hid]
  generalize rowsOf new.bookGuid new.transactionId table = rows at hkey
  unfold upsertStagedRow
  split
  · unfold updateWhere
    rw [List.any_map]
    refine Bool.eq_iff_iff.mpr ?_
    simp only [List.any_eq_true, Function.comp_apply]
    refine exists_congr fun st => and_congr_right fun hst => ?_
    rw [if_pos (hkey st hst)]
    simp [h]
  · rename_i hnone
    rw [List.any_append]
    simp [h]

/-! ### Through the upsert pass -/

/-- Some transaction is settled by the id, and drops it. -/
def dropsIn (db : Db) (book : Guid) (txns : List PlaidTxn) (id : String) : Bool :=
  txns.any fun txn => db.settles book txn && txn.pendingTransactionId == id

theorem settles_pending (h : db.settles book txn = true) :
    txn.pendingTransactionId ≠ "" ∧ db.posted book txn.pendingTransactionId = true := by
  simp only [Db.settles, Bool.and_eq_true, bne_iff_ne] at h
  exact h.1

/-- A transaction does nothing to the rows of another id that is not posted. -/
theorem rowsOf_stageRow_ne (hid : db.posted book id = false) (h : txn.transactionId ≠ id) :
    rowsOf book id (stageRow db book i txn table) = rowsOf book id table := by
  unfold stageRow
  split
  · rename_i hs
    rw [rowsOf_deleteWhere, if_neg]
    simp only [List.mem_cons, List.not_mem_nil, or_false, not_or]
    refine ⟨fun he => ?_, Ne.symm h⟩
    rw [he, (settles_pending hs).2] at hid
    exact absurd hid (by simp)
  · exact rowsOf_upsert_ne h

/-- Whether an id that names no predecessor is dismissed, after a transaction. -/
theorem dismissedIn_stageRow (h : txn.transactionId = id → txn.pendingTransactionId = "") :
    dismissedIn book id (stageRow db book i txn table) =
      (dismissedIn book id table && !(db.settles book txn && txn.pendingTransactionId == id)) := by
  by_cases hs : db.settles book txn = true
  · have hne : txn.transactionId ≠ id := fun he => (settles_pending hs).1 (h he)
    rw [stageRow, if_pos hs, dismissedIn_eq, rowsOf_deleteWhere, hs]
    by_cases hp : txn.pendingTransactionId = id
    · rw [if_pos (by simp [hp])]
      simp [hp]
    · rw [if_neg (by simp [Ne.symm hp, Ne.symm hne]), ← dismissedIn_eq]
      simp [hp]
  · rw [Bool.not_eq_true] at hs
    rw [stageRow, hs, if_neg (by simp)]
    by_cases hne : txn.transactionId = id
    · have hp := h hne
      have hup := @dismissed_upsert table (txn.staged book i false 0) rfl
      simp only [PlaidTxn.staged, hne] at hup
      simpa [hp, PlaidTxn.staged, hne] using hup
    · rw [dismissedIn_eq, rowsOf_upsert_ne hne, ← dismissedIn_eq]
      simp

/-- The pass up to a transaction, where no row it may hit is the id's. -/
theorem rowsOf_foldl (hid : db.posted book id = false) (txns : List PlaidTxn)
    (h : ∀ txn ∈ txns, txn.transactionId ≠ id) :
    rowsOf book id (txns.foldl (fun table txn => stageRow db book i txn table) table) =
      rowsOf book id table := by
  induction txns generalizing table with
  | nil => rfl
  | cons txn rest ih =>
    rw [List.foldl_cons, ih fun y hy => h y (.tail _ hy),
      rowsOf_stageRow_ne hid (h txn List.mem_cons_self)]

theorem dismissedIn_foldl (txns : List PlaidTxn)
    (h : ∀ txn ∈ txns, txn.transactionId = id → txn.pendingTransactionId = "") :
    dismissedIn book id (txns.foldl (fun table txn => stageRow db book i txn table) table) =
      (dismissedIn book id table && !dropsIn db book txns id) := by
  induction txns generalizing table with
  | nil => simp [dropsIn]
  | cons txn rest ih =>
    rw [List.foldl_cons, ih fun y hy => h y (.tail _ hy),
      dismissedIn_stageRow (h txn List.mem_cons_self), Bool.and_assoc]
    simp [dropsIn, Bool.not_or]

/-- **What the pass leaves of a transaction that is not posted.** -/
theorem rowsOf_pass {before after : List PlaidTxn} (hid : db.posted book txn.transactionId = false)
    (hn : ((before ++ txn :: after).map (·.transactionId)).Nodup)
    (hp : ∀ y ∈ before, y.transactionId = txn.pendingTransactionId → txn.pendingTransactionId ≠ "" →
      y.pendingTransactionId = "") :
    rowsOf book txn.transactionId ((before ++ txn :: after).foldl
        (fun table txn => stageRow db book i txn table) table) =
      if db.settles book txn then []
      else upsertStagedRow (txn.staged book i (txn.pendingTransactionId != "" &&
          dismissedIn book txn.pendingTransactionId table &&
            !dropsIn db book before txn.pendingTransactionId) 0)
        (rowsOf book txn.transactionId table) := by
  rw [List.map_append, List.map_cons, List.nodup_append, List.nodup_cons] at hn
  obtain ⟨-, ⟨hafter, -⟩, hbefore⟩ := hn
  have hb : ∀ y ∈ before, y.transactionId ≠ txn.transactionId := fun y hy he =>
    hbefore _ (List.mem_map_of_mem hy) _ List.mem_cons_self he
  have ha : ∀ y ∈ after, y.transactionId ≠ txn.transactionId := fun y hy he =>
    hafter (List.mem_map.mpr ⟨y, hy, he⟩)
  have hrows := @rowsOf_foldl db book i txn.transactionId table hid before hb
  have hdis : (txn.pendingTransactionId != "" && dismissedIn book txn.pendingTransactionId
      (before.foldl (fun table txn => stageRow db book i txn table) table)) =
        (txn.pendingTransactionId != "" && dismissedIn book txn.pendingTransactionId table &&
          !dropsIn db book before txn.pendingTransactionId) := by
    by_cases he : txn.pendingTransactionId = ""
    · simp [he]
    · rw [dismissedIn_foldl before fun y hy hyid => hp y hy hyid he, Bool.and_assoc]
  rw [List.foldl_append, List.foldl_cons, rowsOf_foldl hid _ ha]
  generalize before.foldl (fun table txn => stageRow db book i txn table) table = left at hrows hdis
  unfold stageRow
  split
  · rw [rowsOf_deleteWhere, if_pos (by simp)]
  · rw [hdis, ← hrows]
    exact rowsOf_staged _ _ _ _

end Rows

/-! ## What is listed after a page -/

/-- `Sync` lists the row. -/
def Db.shows (db : Db) (book item : Guid) (importPending : Bool) (st : Staged) : Bool :=
  db.listable book item importPending st && ((db.replaced st).toOption == some false)

section Listed

variable {db : Db} {book i j : Guid} {pending : Bool} {st : Staged} {table : List Staged}
  {txn : PlaidTxn}

/-- A row of the book that was neither dismissed nor posted. -/
structure Db.Undecided (db : Db) (book : Guid) (st : Staged) : Prop where
  bookGuid : st.bookGuid = book
  dismissed : st.dismissed = false
  posted : db.posted book st.transactionId = false

theorem Db.shows_key (h : db.shows book j pending st = true) : db.Undecided book st := by
  simp only [Db.shows, Db.listable, Bool.and_eq_true, beq_iff_eq, Bool.not_eq_true'] at h
  obtain ⟨⟨⟨⟨⟨hb, -⟩, hd⟩, -⟩, hp⟩, -⟩ := h
  exact ⟨hb, hd, hb ▸ hp⟩

theorem upsertStagedRow_dismissed {new : Staged} (h : new.dismissed = true)
    (hst : st ∈ upsertStagedRow new table) (hb : st.bookGuid = new.bookGuid)
    (hid : st.transactionId = new.transactionId) : st.dismissed = true := by
  unfold upsertStagedRow at hst
  split at hst
  · rcases mem_updateWhere_cases hst with ⟨-, hno⟩ | ⟨x, -, -, rfl⟩
    · simp [hb, hid] at hno
    · simp [h]
  · rename_i hnone
    rcases List.mem_append.mp hst with hold | hnew
    · refine absurd (List.any_eq_true.mpr ⟨st, hold, ?_⟩) hnone
      simp [hb, hid]
    · rw [List.mem_singleton.mp hnew, h]

/-- A row that is listed, of no transaction of the pass. -/
theorem mem_pass_of_ne (hst : db.shows book j pending st = true) {txns : List PlaidTxn}
    (h : ∀ txn ∈ txns, txn.transactionId ≠ st.transactionId) :
    st ∈ txns.foldl (fun table txn => stageRow db book i txn table) table ↔ st ∈ table := by
  obtain ⟨hb, -, hid⟩ := Db.shows_key hst
  have hrows := @rowsOf_foldl db book i st.transactionId table hid txns h
  have hmem : ∀ t : List Staged, st ∈ t ↔ st ∈ rowsOf book st.transactionId t := fun t => by
    simp [mem_rowsOf, hb]
  rw [hmem, hrows, ← hmem]

/-- A row that is listed, of a transaction of the pass. -/
theorem mem_pass (hst : db.shows book j pending st = true) {before after : List PlaidTxn}
    (hid : st.transactionId = txn.transactionId)
    (hn : ((before ++ txn :: after).map (·.transactionId)).Nodup)
    (hp : ∀ y ∈ before, y.transactionId = txn.pendingTransactionId → txn.pendingTransactionId ≠ "" →
      y.pendingTransactionId = "") :
    st ∈ (before ++ txn :: after).foldl (fun table txn => stageRow db book i txn table) table ↔
      db.settles book txn = false ∧
      (txn.pendingTransactionId != "" && dismissedIn book txn.pendingTransactionId table &&
        !dropsIn db book before txn.pendingTransactionId) = false ∧
      st ∈ upsertStagedRow (txn.staged book i false 0) table := by
  obtain ⟨hb, hd, hposted⟩ := Db.shows_key hst
  have hmem : ∀ t : List Staged, st ∈ t ↔ st ∈ rowsOf book txn.transactionId t := fun t => by
    simp [mem_rowsOf, hb, hid]
  rw [hid] at hposted
  rw [hmem, rowsOf_pass hposted hn hp, hmem (upsertStagedRow _ table), rowsOf_staged]
  cases db.settles book txn with
  | true => simp
  | false =>
    simp only [Bool.false_eq_true, if_false, true_and]
    cases hdis : (txn.pendingTransactionId != "" &&
        dismissedIn book txn.pendingTransactionId table &&
          !dropsIn db book before txn.pendingTransactionId) with
    | false => simp
    | true =>
      refine iff_of_false (fun hmem => ?_) (by simp)
      have htrue := upsertStagedRow_dismissed rfl hmem hb hid
      rw [hd] at htrue
      exact absurd htrue (by simp)

theorem mem_pageRows {delta : SyncDelta} (hd : st.dismissed = false) :
    st ∈ pageRows db book i delta table ↔
      st ∈ upsertRows db book i (delta.added ++ delta.modified) table ∧
        staleIn book (delta.added ++ delta.modified) st = false ∧
          stagedIn book delta.removed st = false := by
  unfold pageRows
  rw [mem_deleteWhere, mem_deleteWhere]
  simp [hd, and_assoc]

/-- A transaction would be listed if its row were not dismissed for its predecessor's sake. -/
def WouldList (db : Db) (book item listed : Guid) (importPending : Bool) (removed : List String)
    (txn : PlaidTxn) : Prop :=
  ∃ st ∈ upsertStagedRow (txn.staged book item false 0) (db.staged.map Staged.bare),
    st.transactionId = txn.transactionId ∧ db.shows book listed importPending st = true ∧
      txn.transactionId ∉ removed

/-- Two transactions of the page name one predecessor, imported and dismissed; one settles it and
the other, of another value, would be listed. -/
def Contested (db : Db) (book item listed : Guid) (importPending : Bool) (delta : SyncDelta) :
    Prop :=
  ∃ x ∈ delta.added ++ delta.modified, ∃ y ∈ delta.added ++ delta.modified,
    x.amountNum ≠ 0 ∧ y.amountNum ≠ 0 ∧ x.pendingTransactionId = y.pendingTransactionId ∧
      db.settles book y = true ∧ db.settles book x = false ∧
        dismissedIn book x.pendingTransactionId db.staged = true ∧
          WouldList db book item listed importPending delta.removed x

/-- **The order of a page does not matter** for what is listed, unless a predecessor is
contested. -/
theorem mem_pageRows_perm {delta delta' : SyncDelta}
    (hn : ((delta.added ++ delta.modified).map (·.transactionId)).Nodup)
    (hpre : ∀ x ∈ delta.added ++ delta.modified, ∀ y ∈ delta.added ++ delta.modified,
      x.pendingTransactionId ≠ "" → y.transactionId = x.pendingTransactionId →
        y.pendingTransactionId = "")
    (hperm : (delta'.added ++ delta'.modified).Perm (delta.added ++ delta.modified))
    (hremoved : delta'.removed = delta.removed)
    (hc : ¬ Contested db book i j pending delta) (hst : db.shows book j pending st = true) :
    st ∈ pageRows db book i delta' (db.staged.map Staged.bare) ↔
      st ∈ pageRows db book i delta (db.staged.map Staged.bare) := by
  obtain ⟨hb, hd, hposted⟩ := Db.shows_key hst
  have hstale : staleIn book (delta'.added ++ delta'.modified) st =
      staleIn book (delta.added ++ delta.modified) st := hperm.any_eq
  rw [mem_pageRows hd, mem_pageRows hd, hremoved, hstale]
  refine and_congr_left fun ⟨_, hkept⟩ => ?_
  unfold upsertRows
  have hperm' := hperm.filter (·.amountNum != 0)
  have hall : ∀ x ∈ (delta.added ++ delta.modified).filter (·.amountNum != 0),
      x ∈ delta.added ++ delta.modified ∧ x.amountNum ≠ 0 := fun x hx => by
    simpa using List.mem_filter.mp hx
  have hn' : (((delta.added ++ delta.modified).filter (·.amountNum != 0)).map
      (·.transactionId)).Nodup := (List.filter_sublist.map _).nodup hn
  generalize (delta'.added ++ delta'.modified).filter (·.amountNum != 0) = txns' at hperm' ⊢
  generalize (delta.added ++ delta.modified).filter (·.amountNum != 0) = txns at hperm' hall hn' ⊢
  by_cases hx : ∃ x ∈ txns, x.transactionId = st.transactionId
  · obtain ⟨x, hx, hid⟩ := hx
    obtain ⟨before, after, rfl⟩ := List.append_of_mem hx
    obtain ⟨before', after', rfl⟩ := List.append_of_mem (hperm'.symm.subset hx)
    have hn'' := (hperm'.map (·.transactionId)).nodup_iff.mpr hn'
    have hsub : ∀ y ∈ before ++ x :: after, y.transactionId = x.pendingTransactionId →
        x.pendingTransactionId ≠ "" → y.pendingTransactionId = "" := fun y hy he hne =>
      hpre x (hall x hx).1 y (hall y hy).1 hne he
    rw [mem_pass hst hid.symm hn'' fun y hy => hsub y (hperm'.subset (List.mem_append_left _ hy)),
      mem_pass hst hid.symm hn' fun y hy => hsub y (List.mem_append_left _ hy)]
    refine and_congr_right fun hs => and_congr_left fun hmem => ?_
    by_cases hdis : (x.pendingTransactionId != "" &&
        dismissedIn book x.pendingTransactionId (db.staged.map Staged.bare)) = true
    · -- a transaction that settles the predecessor would contest it
      have hno : ∀ y ∈ before ++ x :: after, ¬ (db.settles book y &&
          y.pendingTransactionId == x.pendingTransactionId) = true := by
        intro y hy hyes
        simp only [Bool.and_eq_true, beq_iff_eq, bne_iff_ne] at hyes hdis
        rw [dismissedIn_bare] at hdis
        refine hc ⟨x, (hall x hx).1, y, (hall y hy).1, (hall x hx).2, (hall y hy).2, hyes.2.symm,
          hyes.1, hs, hdis.2, st, hmem, hid.symm, hst, fun hr => ?_⟩
        simp [stagedIn, hb, ← hid, hr] at hkept
      have hdrops : ∀ part : List PlaidTxn, (∀ y ∈ part, y ∈ before ++ x :: after) →
          dropsIn db book part x.pendingTransactionId = false := fun part hpart =>
        List.any_eq_false.mpr fun y hy => hno y (hpart y hy)
      rw [hdrops before fun y hy => List.mem_append_left _ hy,
        hdrops before' fun y hy => hperm'.subset (List.mem_append_left _ hy)]
    · rw [Bool.not_eq_true] at hdis
      simp [hdis]
  · have hne : ∀ x ∈ txns, x.transactionId ≠ st.transactionId := fun x hx' he => hx ⟨x, hx', he⟩
    rw [mem_pass_of_ne hst hne, mem_pass_of_ne hst fun x hx' => hne x (hperm'.subset hx')]

/-- A contested predecessor: the row is listed after one order and not after the other. -/
theorem exists_order_of_contested {delta : SyncDelta}
    (hn : ((delta.added ++ delta.modified).map (·.transactionId)).Nodup)
    (hpre : ∀ x ∈ delta.added ++ delta.modified, ∀ y ∈ delta.added ++ delta.modified,
      x.pendingTransactionId ≠ "" → y.transactionId = x.pendingTransactionId →
        y.pendingTransactionId = "")
    (hc : Contested db book i j pending delta) :
    ∃ txns txns' st, txns.Perm (delta.added ++ delta.modified) ∧
      txns'.Perm (delta.added ++ delta.modified) ∧ db.shows book j pending st = true ∧
        st ∈ pageRows db book i ⟨txns, [], delta.removed⟩ (db.staged.map Staged.bare) ∧
        st ∉ pageRows db book i ⟨txns', [], delta.removed⟩ (db.staged.map Staged.bare) := by
  obtain ⟨x, hx, y, hy, hx0, hy0, hpend, hsy, hsx, hdis, st, hmem, hid, hst, hkept⟩ := hc
  obtain ⟨hb, hd, -⟩ := Db.shows_key hst
  obtain ⟨hpne, -⟩ := settles_pending hsy
  rw [← hpend] at hpne
  have hxy : x ≠ y := fun he => by simp [he, hsy] at hsx
  have hxfirst := List.perm_cons_erase hx
  have hyfirst := List.perm_cons_erase ((List.mem_erase_of_ne hxy.symm).mpr hy)
  generalize ((delta.added ++ delta.modified).erase x).erase y = rest at hyfirst
  have h₂ : (x :: y :: rest).Perm (delta.added ++ delta.modified) :=
    (hxfirst.trans (hyfirst.cons x)).symm
  have h₁ : (y :: x :: rest).Perm (delta.added ++ delta.modified) :=
    (List.Perm.swap x y rest).trans h₂
  have hstale : staleIn book (delta.added ++ delta.modified) st = false := by
    refine List.any_eq_false.mpr fun z hz hzero => ?_
    simp only [Bool.and_eq_true, beq_iff_eq, stagedIn, List.contains_iff_mem] at hzero
    obtain ⟨hz0, -, hids⟩ := hzero
    have hself : z.transactionId ≠ x.transactionId := fun he => by
      rw [List.inj_on_of_nodup_map hn hz hx he] at hz0
      exact hx0 hz0
    unfold PlaidTxn.staleIDs at hids
    rw [hid] at hids
    split at hids
    · exact hself (List.mem_singleton.mp hids).symm
    · rename_i hzp
      rcases List.mem_cons.mp hids with he | he
      · exact hself he.symm
      · exact hpne (hpre z hz x hx hzp (List.mem_singleton.mp he))
  have hout : stagedIn book delta.removed st = false := by
    simp [stagedIn, hb, hid, hkept]
  have hdis' : (x.pendingTransactionId != "" &&
      dismissedIn book x.pendingTransactionId (db.staged.map Staged.bare)) = true := by
    rw [dismissedIn_bare]
    simp [hpne, hdis]
  have hstale' : ∀ txns : List PlaidTxn, txns.Perm (delta.added ++ delta.modified) →
      staleIn book (txns ++ []) st = false := fun txns h => by
    rw [List.append_nil]
    exact (List.Perm.any_eq h).trans hstale
  have hnodup : ∀ txns : List PlaidTxn, txns.Perm (delta.added ++ delta.modified) →
      ((txns.filter (·.amountNum != 0)).map (·.transactionId)).Nodup := fun txns h =>
    (List.filter_sublist.map _).nodup ((h.map (·.transactionId)).nodup_iff.mpr hn)
  have hn₁ := hnodup _ h₁
  have hn₂ := hnodup _ h₂
  have hcons : ∀ (z : PlaidTxn) (txns : List PlaidTxn), z.amountNum ≠ 0 →
      (z :: txns).filter (·.amountNum != 0) = z :: txns.filter (·.amountNum != 0) :=
    fun z txns hz => List.filter_cons_of_pos (by simpa using hz)
  rw [hcons y _ hy0, hcons x _ hx0] at hn₁
  rw [hcons x _ hx0, hcons y _ hy0] at hn₂
  refine ⟨_, _, st, h₁, h₂, hst, ?_, ?_⟩
  · -- `y` drops the predecessor before `x` looks for its dismissal
    have hin : st ∈ ([y] ++ x :: rest.filter (·.amountNum != 0)).foldl
        (fun table txn => stageRow db book i txn table) (db.staged.map Staged.bare) := by
      refine (mem_pass hst hid hn₁ fun z hz he hne => ?_).mpr ⟨hsx, ?_, hmem⟩
      · rw [List.mem_singleton.mp hz] at he ⊢
        exact hpre x hx y hy hne he
      · simp [dropsIn, hsy, hpend]
    rw [mem_pageRows hd]
    refine ⟨?_, hstale' _ h₁, hout⟩
    unfold upsertRows
    dsimp only
    rw [List.append_nil, hcons y _ hy0, hcons x _ hx0]
    exact hin
  · have hno : st ∉ ([] ++ x :: y :: rest.filter (·.amountNum != 0)).foldl
        (fun table txn => stageRow db book i txn table) (db.staged.map Staged.bare) := by
      intro hin
      obtain ⟨-, hfalse, -⟩ := (mem_pass hst hid hn₂ fun z hz => absurd hz (by simp)).mp hin
      simp [hdis', dropsIn] at hfalse
    rw [mem_pageRows hd]
    rintro ⟨hin, -⟩
    unfold upsertRows at hin
    dsimp only at hin
    rw [List.append_nil, hcons x _ hx0, hcons y _ hy0] at hin
    exact hno hin

/-- `Sync` lists the same rows in both states, creation times aside. -/
def SameListing (book item : Guid) (importPending : Bool) (x y : Db) : Prop :=
  ∀ c : Staged, (∃ st ∈ x.staged, x.shows book item importPending st = true ∧ st.bare = c) ↔
    ∃ st ∈ y.staged, y.shows book item importPending st = true ∧ st.bare = c

/-- The rows listed in a state, by its table. -/
theorem exists_shows_iff {rows : List Staged} (h : rows.map Staged.bare = table) (c : Staged) :
    (∃ st ∈ (db.restage rows).staged, (db.restage rows).shows book j pending st = true ∧
      st.bare = c) ↔ c ∈ table ∧ db.shows book j pending c = true := by
  subst h
  rw [List.mem_map]
  constructor
  · rintro ⟨st, hst, hshow, rfl⟩
    exact ⟨⟨st, hst, rfl⟩, hshow⟩
  · rintro ⟨⟨st, hst, rfl⟩, hshow⟩
    exact ⟨st, hst, hshow, rfl⟩

/-- **The order inside a page does not matter** for what `Sync` lists, exactly when no predecessor
is contested. -/
theorem page_order_iff {item : GuidText} {delta : SyncDelta} {envs : Nat → Env} {db₁ : Db}
    (hi : item.parse = .ok i)
    (hn : ((delta.added ++ delta.modified).map (·.transactionId)).Nodup)
    (hpre : ∀ x ∈ delta.added ++ delta.modified, ∀ y ∈ delta.added ++ delta.modified,
      x.pendingTransactionId ≠ "" → y.transactionId = x.pendingTransactionId →
        y.pendingTransactionId = "")
    (hf : Smooth envs)
    (hrun : (stageDelta book item delta).run machine envs (.idle db) = (.ok (), .idle db₁)) :
    (∀ delta' : SyncDelta,
      (delta'.added ++ delta'.modified).Perm (delta.added ++ delta.modified) →
      delta'.removed = delta.removed → ∀ envs' : Nat → Env, Smooth envs' →
        ∃ db₂, (stageDelta book item delta').run machine envs' (.idle db) = (.ok (), .idle db₂) ∧
          SameListing book j pending db₁ db₂) ↔ ¬ Contested db book i j pending delta := by
  -- the page is applied, in whatever order
  have hends := stageDelta_ends book db hf hi delta
  have hok : ((delta.added ++ delta.modified).filter (·.amountNum != 0)).all (db.stages book i) =
      true := by
    by_contra hno
    rw [Bool.not_eq_true] at hno
    rw [hno] at hends
    obtain ⟨e, t, he⟩ := hends
    rw [hrun] at he
    exact absurd (congrArg Prod.fst he) (by simp)
  have happly : ∀ delta' : SyncDelta,
      (delta'.added ++ delta'.modified).Perm (delta.added ++ delta.modified) → ∀ envs' : Nat → Env,
        Smooth envs' → ∃ rows, (stageDelta book item delta').run machine envs' (.idle db) =
          (.ok (), .idle (db.restage rows)) ∧
            rows.map Staged.bare = pageRows db book i delta' (db.staged.map Staged.bare) := by
    intro delta' hperm envs' hf'
    have hends' := stageDelta_ends book db hf' hi delta'
    rw [(hperm.filter _).all_eq, hok] at hends'
    exact hends'
  obtain ⟨rows, hrun', hrows⟩ := happly delta (.refl _) envs hf
  rw [hrun] at hrun'
  obtain rfl : db₁ = db.restage rows := by
    simpa [Solo.idle] using congrArg (·.2.db) hrun'
  constructor
  · intro h hc
    obtain ⟨txns, txns', st, hperm, hperm', hst, hin, hout⟩ := exists_order_of_contested hn hpre hc
    have hsame : ∀ txns : List PlaidTxn, txns.Perm (delta.added ++ delta.modified) →
        (st ∈ pageRows db book i ⟨txns, [], delta.removed⟩ (db.staged.map Staged.bare) ↔
          st ∈ pageRows db book i delta (db.staged.map Staged.bare)) := by
      intro txns hperm
      obtain ⟨db₂, hrun₂, hlist⟩ := h ⟨txns, [], delta.removed⟩ (by simpa using hperm) rfl (calm 0)
        fun _ => rfl
      obtain ⟨rows₂, hrun₂', hrows₂⟩ := happly ⟨txns, [], delta.removed⟩ (by simpa using hperm)
        (calm 0) fun _ => rfl
      rw [hrun₂] at hrun₂'
      obtain rfl : db₂ = db.restage rows₂ := by
        simpa [Solo.idle] using congrArg (·.2.db) hrun₂'
      have hiff := hlist st
      rw [exists_shows_iff hrows, exists_shows_iff hrows₂] at hiff
      simpa [hst] using hiff.symm
    exact hout ((hsame txns' hperm').mpr ((hsame txns hperm).mp hin))
  · intro hc delta' hperm hremoved envs' hf'
    obtain ⟨rows', hrun₂, hrows'⟩ := happly delta' hperm envs' hf'
    refine ⟨_, hrun₂, fun c => ?_⟩
    rw [exists_shows_iff hrows, exists_shows_iff hrows']
    exact and_congr_left fun hst => (mem_pageRows_perm hn hpre hperm hremoved hc hst).symm

end Listed

/-! ### A predecessor that two transactions name -/

/-- The pending purchase is imported, reported once more and dismissed. -/
def dismissedPending : Db :=
  let imported := (serve (Event.request plainConfig 3 (.plaidImport [⟨"P", Guid.text 18⟩])).call
    (calm 80) (syncedWith [bankTxn "P" "" true])).2
  let reported := (serve (Event.request plainConfig 3 (.plaidSync (Guid.text 30))).call
    (fun k => { calm 120 k with
      sync := fun _ => .ok ⟨[], [bankTxn "P" "" true], [], 2, false⟩ }) imported).2
  (serve (Event.request plainConfig 3 (.plaidDismiss ["P"])).call (calm 160) reported).2

theorem dismissedPending_runs : Runs (fun _ _ _ => True) dismissedPending := by
  have hbanked : Runs (fun _ _ _ => True) banked :=
    .step _ _ (registered_runs trivial) (by decide +kernel) trivial
  have hlinked : Runs (fun _ _ _ => True) linked := .step _ _ hbanked (by decide +kernel) trivial
  have hsynced : Runs (fun _ _ _ => True) (syncedWith [bankTxn "P" "" true]) :=
    .step _ _ hlinked (by decide +kernel) trivial
  exact .step _ _ (.step _ _ (.step _ _ hsynced (by decide +kernel) trivial) (by decide +kernel)
    trivial) (by decide +kernel) trivial

/-- A posted purchase that names the pending one, of some value. -/
def settlement (id : String) (cents : Int64) : PlaidTxn :=
  ⟨id, "P", 19000, "food", cents, 100, "checking", false⟩

/-- Of two purchases of another value than the imported one, the order does not matter. -/
theorem dismissedPending_ordered : ∃ db₁, ∀ delta' : SyncDelta,
    (delta'.added ++ delta'.modified).Perm [settlement "X" 1100, settlement "Y" 1200] →
    delta'.removed = [] → ∀ envs' : Nat → Env, Smooth envs' →
      ∃ db₂, (stageDelta 3 (Guid.text 30) delta').run machine envs' (.idle dismissedPending) =
        (.ok (), .idle db₂) ∧ SameListing 3 30 true db₁ db₂ := by
  have hf : Smooth (calm 200) := fun _ => rfl
  have hitem : (Guid.text 30).parse = .ok 30 := rfl
  have hends := stageDelta_ends 3 dismissedPending hf hitem
    ⟨[settlement "X" 1100], [settlement "Y" 1200], []⟩
  rw [show List.all _ _ = true by decide +kernel] at hends
  obtain ⟨rows, hrun, -⟩ := hends
  refine ⟨_, (page_order_iff hitem (by decide +kernel) (by decide +kernel) hf hrun).mpr ?_⟩
  rintro ⟨x, hx, y, hy, -, -, -, hsettles, -⟩
  have hnone : ∀ y ∈ [settlement "X" 1100, settlement "Y" 1200],
      dismissedPending.settles 3 y = false := by decide +kernel
  rw [hnone y hy] at hsettles
  exact absurd hsettles (by simp)

/-- The settlement of the imported value and one of another value. -/
theorem dismissedPending_contested : ¬ ∀ (db : Db) (book i : Guid) (item : GuidText)
    (delta delta' : SyncDelta) (envs : Nat → Env) (db₁ db₂ : Db),
    Runs (fun _ _ _ => True) db → item.parse = .ok i →
    ((delta.added ++ delta.modified).map (·.transactionId)).Nodup →
    (∀ x ∈ delta.added ++ delta.modified, ∀ y ∈ delta.added ++ delta.modified,
      x.pendingTransactionId ≠ "" → y.transactionId = x.pendingTransactionId →
        y.pendingTransactionId = "") →
    delta'.added.Perm delta.added → delta'.modified.Perm delta.modified →
    delta'.removed = delta.removed → Smooth envs →
    (stageDelta book item delta).run machine envs (.idle db) = (.ok (), .idle db₁) →
    (stageDelta book item delta').run machine envs (.idle db) = (.ok (), .idle db₂) →
    SameListing book i true db₁ db₂ := by
  intro h
  have hf : Smooth (calm 200) := fun _ => rfl
  have hitem : (Guid.text 30).parse = .ok 30 := rfl
  have hends : ∀ txns : List PlaidTxn, _ := fun txns =>
    stageDelta_ends 3 dismissedPending hf hitem ⟨txns, [], []⟩
  have h₁ := hends [settlement "X" 1000, settlement "Y" 1200]
  have h₂ := hends [settlement "Y" 1200, settlement "X" 1000]
  rw [show List.all _ _ = true by decide +kernel] at h₁ h₂
  obtain ⟨rows₁, hrun₁, hrows₁⟩ := h₁
  obtain ⟨rows₂, hrun₂, hrows₂⟩ := h₂
  have hswap : [settlement "Y" 1200, settlement "X" 1000].Perm
      [settlement "X" 1000, settlement "Y" 1200] := .swap _ _ []
  have hsame := h dismissedPending 3 30 (Guid.text 30) ⟨[settlement "X" 1000, settlement "Y" 1200],
    [], []⟩ ⟨[settlement "Y" 1200, settlement "X" 1000], [], []⟩ (calm 200) _ _
    dismissedPending_runs rfl (by decide +kernel) (by decide +kernel) hswap (.refl _) rfl hf hrun₁
    hrun₂
    ((settlement "Y" 1200).staged 3 30 false 0)
  rw [exists_shows_iff hrows₁, exists_shows_iff hrows₂] at hsame
  revert hsame
  decide +kernel

end Antimoney
