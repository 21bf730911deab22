import Antimoney.Ledger.Loops

/-!
# What `Import` does with a row

A row is refused, skipped or posted. It is skipped when its transaction is posted already
(`Db.Settled`), and when its staged copy names a predecessor that is imported with the same value
(`Db.replaces`), in which case the copy goes and nothing is posted.

* `createTransaction_violates`: `idx_transactions_plaid_txn` refuses a transaction only if its
  plaid id is taken.
* **`importRow_swp`**: the outcomes of a row that is imported while nothing else runs.
-/

namespace Antimoney

open Antimoney.Lib Antimoney.Gnc Prog

/-! ## Violations of the index -/

/-- Not a violation of `idx_transactions_plaid_txn`. -/
def Other (e : SqlErr) : Prop := e ≠ .unique "idx_transactions_plaid_txn"

/-- The error is none that `Import` reads as "already imported". -/
def NotDup (e : Err) : Prop := isPlaidDupViolation e = false

theorem Other.notDup {e : SqlErr} (h : Other e) (text : String) : NotDup (.wrapped text e) := by
  unfold NotDup isPlaidDupViolation
  split
  · rename_i heq
    obtain ⟨-, rfl⟩ := Err.wrapped.inj heq
    exact beq_eq_false_iff_ne.mpr fun hc => h (congrArg SqlErr.unique hc)
  · rfl

/-- An error of a statement that is sent to the server. -/
theorem Other.of_failing {β : Type} {c : Bool} {r : Except SqlErr β} {e : SqlErr}
    (h : (if c then .error .failed else r) = .error e) (hr : r = .error e → Other e) : Other e := by
  cases c with
  | true =>
    rw [← Except.error.inj h]
    simp [Other]
  | false => exact hr h

/-- An error of a sequence. -/
theorem Other.of_bind {α β : Type} {x : Except SqlErr α} {f : α → Except SqlErr β} {e : SqlErr}
    (h : (x >>= f) = .error e) (hx : x = .error e → Other e)
    (hf : ∀ a, f a = .error e → Other e) : Other e := by
  cases x with
  | error e' => exact hx (congrArg _ (Except.error.inj h))
  | ok a => exact hf a h

theorem Other.of_map {α β : Type} {x : Except SqlErr α} {f : α → β} {e : SqlErr}
    (h : x.map f = .error e) (hx : x = .error e → Other e) : Other e := by
  cases x with
  | error e' => exact hx (congrArg _ (Except.error.inj h))
  | ok a => exact absurd h (by simp [Except.map])

theorem Other.of_require {c : Bool} {e e' : SqlErr} (h : require c e' = .error e)
    (he : Other e') : Other e := by
  unfold require at h
  split at h
  · exact absurd h (by simp)
  · rw [← Except.error.inj h]
    exact he

theorem Other.of_parse {g : GuidText} {e : SqlErr} (h : g.parse = .error e) : Other e := by
  cases g with
  | uuid g spelling => exact absurd h (by simp [GuidText.parse])
  | malformed text =>
    rw [← Except.error.inj h]
    simp [Other]

section Violations

variable {β : Type} {I : Db → Prop}

/-- A read. -/
theorem raises_reads {q : Stmt β} (hq : q.Reads)
    (h : ∀ env v e, q.sem env v = .error e → Other e) : machine.Raises I I Other q :=
  ⟨fun hv hx => by rw [hq.sem hx]; exact hv, fun _ hx => h _ _ _ hx⟩

theorem raises_query (f : Db → β) : machine.Raises I I Other (Stmt.query f) :=
  raises_reads (Stmt.reads_query f) fun _ _ _ hx => .of_failing hx fun hx => absurd hx (by simp)

theorem raises_askEnv (f : Env → β) : machine.Raises I I Other (Stmt.askEnv f) :=
  raises_reads (Stmt.reads_askEnv f) fun _ _ _ hx => absurd hx (by simp [Stmt.askEnv, Stmt.mk'])

theorem raises_uuidNew : machine.Raises I I Other uuidNew :=
  raises_reads reads_uuidNew fun _ _ _ hx => absurd hx (by simp [uuidNew, Stmt.mk'])

theorem raises_selectPlaceholder (account : GuidText) (book : Guid) :
    machine.Raises I I Other (selectPlaceholder account book) :=
  raises_reads (Stmt.reads_queryE _) fun _ _ _ hx => .of_failing hx fun hx => .of_map hx fun hx =>
    .of_bind hx .of_parse fun _ hx => absurd hx (by simp [pure, Except.pure])

theorem raises_insertSplitStmt (account : GuidText) (sp : Split) :
    machine.Raises (fun _ => True) (fun _ => True) Other (insertSplitStmt account sp) where
  leaves _ _ := trivial
  errors _ hx := .of_failing hx fun hx => .of_bind hx .of_parse fun _ hx =>
    .of_bind hx (fun hx =>
      .of_bind hx (fun hx => .of_require hx (by simp [Other])) fun _ hx =>
      .of_bind hx (fun hx => .of_require hx (by simp [Other])) fun _ hx =>
      .of_bind hx (fun hx => .of_require hx (by simp [Other])) fun _ hx =>
        absurd hx (by simp [pure, Except.pure]))
      fun _ hx => absurd hx (by simp [pure, Except.pure])

/-- The index refuses a transaction whose plaid id is taken, and no other. -/
theorem raises_insertTransactionStmt (t : Transaction) :
    machine.Raises (fun v => v.plaidTxnTaken t.bookGuid t.plaidTxnId = false) (fun _ => True) Other
      (insertTransactionStmt t) where
  leaves _ _ := trivial
  errors hnew hx := .of_failing hx fun hx => .of_map hx fun hx =>
    .of_bind hx (fun hx => .of_require hx (by simp [Other])) fun _ hx =>
    .of_bind hx (fun hx => .of_require hx (by simp [Other])) fun _ hx =>
    .of_bind hx (fun hx => absurd hx (by simp [hnew, require])) fun _ hx =>
    .of_bind hx (fun hx => .of_require hx (by simp [Other])) fun _ hx =>
      absurd hx (by simp [pure, Except.pure])

theorem checkAccounts_raises (book : Guid) (splits : List CreateSplitRequest) :
    (checkAccounts book splits).Raises machine I Other NotDup := by
  induction splits with
  | nil => trivial
  | cons sp rest ih =>
    refine raises_ask (raises_selectPlaceholder _ _) (fun e _ => rfl) fun r => ?_
    rcases r with _ | _ | _
    · exact rfl
    · exact ih
    · exact rfl

theorem insertSplits_raises (tx : Guid) (now : Time) (state : CreateSplitRequest → String) (i : Nat)
    (splits : List CreateSplitRequest) :
    (insertSplits tx now state i splits).Raises machine (fun _ => True) Other NotDup := by
  induction splits generalizing i with
  | nil => trivial
  | cons sp rest ih =>
    refine raises_bind (raises_sql raises_uuidNew fun e he => he.notDup _) fun guid => ?_
    refine raises_ask (raises_insertSplitStmt _ _) (fun e _ => rfl) fun _ => ?_
    exact raises_bind (ih (i + 1)) fun _ => trivial

variable (hI : ∀ v as, I v → I { v with accounts := as })

include hI

theorem raises_insertAccountStmt (a : Account) :
    machine.Raises I I Other (insertAccountStmt a) where
  leaves hv hx := by
    obtain ⟨v', hins, he⟩ := ok_map (ok_of_failing hx)
    obtain ⟨-, rfl⟩ := Prod.mk.inj he
    obtain ⟨-, rfl⟩ := Db.insertAccount_ok hins
    exact hI _ _ hv
  errors _ hx := .of_failing hx fun hx => .of_map hx fun hx =>
    .of_bind hx (fun hx => .of_require hx (by simp [Other])) fun _ hx =>
    .of_bind hx (fun hx => .of_require hx (by simp [Other])) fun _ hx =>
    .of_bind hx (fun hx => .of_require hx (by simp [Other])) fun _ hx =>
      absurd hx (by simp [pure, Except.pure])

theorem imbalanceAccount_raises (book : Guid) :
    (imbalanceAccount book).Raises machine I Other NotDup := by
  refine raises_ask (raises_query _) (fun e he => he.notDup _) fun r => ?_
  cases r with
  | some g => trivial
  | none =>
    refine raises_bind (raises_sql (raises_query _) fun e he => he.notDup _) fun r => ?_
    rcases r with _ | _ | root
    · exact rfl
    · exact rfl
    · refine raises_bind (raises_sql raises_uuidNew fun e he => he.notDup _) fun guid => ?_
      refine raises_bind (raises_sql (raises_askEnv _) fun e he => he.notDup _) fun now => ?_
      exact raises_bind (raises_sql (raises_insertAccountStmt hI _) fun e he => he.notDup _)
        fun _ => trivial

theorem balancedSplits_raises (book : Guid) (valid : List CreateSplitRequest) (sum : Numeric) :
    (balancedSplits book valid sum).Raises machine I Other NotDup := by
  unfold balancedSplits
  split
  · trivial
  · exact raises_bind (imbalanceAccount_raises hI book) fun _ => trivial

end Violations

theorem other_of_down {env : Env} {e : SqlErr} (h : machine.down env = some e) : Other e := by
  unfold machine at h
  dsimp only at h
  split at h
  · rw [← Option.some.inj h]
    simp [Other]
  · exact absurd h (by simp)

theorem validSplits_notDup {splits : List CreateSplitRequest} {e : Err}
    (h : validSplits splits = .error e) : NotDup e := by
  induction splits with
  | nil => exact absurd h (by simp [validSplits])
  | cons sp rest ih =>
    unfold validSplits at h
    split at h
    · exact ih h
    · split at h
      · rw [← Except.error.inj h]
        rfl
      · cases hv : validSplits rest with
        | error e' =>
          rw [hv] at h
          obtain rfl := Except.error.inj h
          exact ih hv
        | ok valid =>
          rw [hv] at h
          exact absurd h (by simp [Except.map])

/-- **`CreateTransaction` violates the index only if the plaid id is taken.** -/
theorem createTransaction_violates {book : Guid} {req : CreateTransactionRequest} {s : Db}
    (h : s.plaidTxnTaken book req.plaidTxnId = false) :
    (createTransaction book req).swp machine Duty.none
      (fun r _ => ∀ e, r = .error e → NotDup e) (.idle s) := by
  have hfail : ∀ {α : Type} {e e' : Err}, NotDup e →
      (Except.error e : Except Err α) = .error e' → NotDup e' :=
    fun he h => Except.error.inj h ▸ he
  refine swp_bind ?_
  cases hvalid : validSplits req.splits with
  | error e => exact fun _ => hfail (validSplits_notDup hvalid)
  | ok valid =>
    dsimp only [Prog.ofExcept, Prog.swp, ret_bind]
    refine swp_bind ?_
    cases splitSum valid with
    | none => exact fun _ => hfail rfl
    | some sum =>
      dsimp only [orPanic, Prog.ofExcept, Prog.swp, ret_bind]
      refine swp_inTx_down (fun _ _ => trivial) (fun _ _ => trivial)
        (fun env e hd e' => hfail ((other_of_down hd).notDup _)) ?_
      have ht : (Solo.tx s s : Solo SqlErr Db).Sound
          (fun v => v.plaidTxnTaken book req.plaidTxnId = false) Other := h
      refine swp_bind_raises (balancedSplits_raises (fun _ _ h => h) book valid sum) ht
        (fun e _ he _ => hfail he) fun splits t ht => ?_
      split
      · exact fun _ => hfail rfl
      · refine swp_bind_raises (checkAccounts_raises book splits) ht
          (fun e _ he _ => hfail he) fun _ t ht => ?_
        refine swp_sql_raises raises_uuidNew ht (fun e _ he _ => hfail (he.notDup _))
          fun guid t ht => ?_
        refine swp_sql_raises (raises_askEnv _) ht (fun e _ he _ => hfail (he.notDup _))
          fun now t ht => ?_
        refine swp_sql_raises (raises_insertTransactionStmt _) ht
          (fun e _ he _ => hfail (he.notDup _)) fun _ t ht => ?_
        refine swp_bind_raises (insertSplits_raises _ _ _ _ _) ht (fun e _ he _ => hfail he)
          fun rows t ht => ?_
        refine swp_bind (swp_commit_raises (fun env e hd => other_of_down hd) ht
          (fun e _ he _ => hfail (he.notDup _)) fun _ _ h => absurd h (by simp))

/-! ## The outcomes of a row -/

/-- The account of the book a plaid account is mapped to. -/
def Db.bankAccount (db : Db) (book : Guid) (plaidAccountId : String) : Option Guid :=
  (db.accounts.find? fun a =>
    a.bookGuid == book && a.plaid.any (·.accountId == plaidAccountId)).map (·.guid)

/-- The staged copy of `id` goes. -/
def Db.unstaged (db : Db) (book : Guid) (id : String) : Db :=
  { db with staged := deleteWhere (stagedIn book [id]) db.staged }

/-- Nothing is posted under `id`, and its staged copy names a predecessor that is imported with the
same value. -/
def Db.replaces (db : Db) (book : Guid) (id : String) : Bool :=
  !db.posted book id && (db.stagedRow book id).any fun st =>
    st.pendingTransactionId.any fun p =>
      db.linkedSplit book p st.plaidAccountId (Db.opposite st.amountNum st.amountDenom)

/-- The category is a guid. -/
def ImportRow.WellFormed (row : ImportRow) : Prop :=
  ∃ g spelling, row.categoryAccountGuid = .uuid g spelling

/-- The row's transaction is posted, and the bank account of its staged copy, if there is one, is
mapped. -/
structure Db.Settled (db : Db) (book : Guid) (row : ImportRow) : Prop where
  wellFormed : row.WellFormed
  posted : db.posted book row.transactionId = true
  bank : ∀ st, db.stagedRow book row.transactionId = some st →
    (db.bankAccount book st.plaidAccountId).isSome = true

/-- The state after the staged copy is deleted, whose error is only logged. -/
def Cleaned (fails : Bool) (book : Guid) (id : String) (v s' : Db) : Prop :=
  s' = v.unstaged book id ∨ (fails = true ∧ s' = v)

/-- What becomes of a row at `s`, and the state it leaves. -/
inductive RowStep (fails : Bool) (book : Guid) (row : ImportRow) (s : Db) :
    RowOutcome → Db → Prop
  | failed : RowStep fails book row s .failed s
  | settled (h : s.Settled book row) : RowStep fails book row s .skipped s
  | replaced {s' : Db} (hw : row.WellFormed) (h : s.replaces book row.transactionId = true)
      (hs : Cleaned fails book row.transactionId s s') : RowStep fails book row s .skipped s'
  | imported {st : Staged} {bank : Guid} {as : List Account} {t : Transaction} {rs : List Split}
      {v s' : Db} (hw : row.WellFormed) (hst : s.stagedRow book row.transactionId = some st)
      (hbank : s.bankAccount book st.plaidAccountId = some bank)
      (hnew : s.posted book row.transactionId = false)
      (hfree : s.replaces book row.transactionId = false)
      (hc : Created book (importRequest row bank st) as t rs) (ha : Adds as [t] rs s v)
      (hs : Cleaned fails book row.transactionId v s') : RowStep fails book row s .imported s'

/-- Where a row ends: an error changes nothing. -/
def Rowed (fails : Bool) (book : Guid) (row : ImportRow) (s : Db) :
    Except Err RowOutcome → Solo SqlErr Db → Prop
  | .ok o, t => ∃ s', t = .idle s' ∧ RowStep fails book row s o s'
  | .error _, t => t = .idle s

/-- No statement fails, unless `fails`. -/
def answering (fails : Bool) {β : Type} (_ : Stmt β) (env : Env) (_ : Db) : Bool :=
  fails || !env.fail

section Rows

variable {fails : Bool} {book : Guid} {row : ImportRow} {s v : Db}

theorem deleteStaged_swp (id : String) :
    (deleteStaged book id).swp (machine.assuming (answering fails)) Duty.none
      (fun r t => r = .ok () ∧ ∃ s', t = .idle s' ∧ Cleaned fails book id v s') (.idle v) := by
  refine swp_ask rfl (fun _ _ => trivial) (fun env e ha hx => ?_) fun env b v' _ hx => ?_
  · refine ⟨rfl, v, rfl, .inr ⟨?_, rfl⟩⟩
    have ha' : (fails || !env.fail) = true := by
      have h : (machine.allowed (deleteStagedStmt book id) env v &&
          answering fails (deleteStagedStmt book id) env v) = true := ha
      exact (Bool.and_eq_true _ _ ▸ h).2
    cases hf : env.fail with
    | true => simpa [hf] using ha'
    | false =>
      have hok : (deleteStagedStmt book id).sem env v = .ok ((), v.unstaged book id) := by
        simp [deleteStagedStmt, Stmt.tagged, Stmt.locking, Stmt.sql, Stmt.mk', hf, Db.unstaged]
      exact absurd (hok.symm.trans hx) (by simp)
  · obtain ⟨-, rfl⟩ := Prod.mk.inj (Except.ok.inj (ok_of_failing hx))
    exact ⟨rfl, _, rfl, .inl rfl⟩

/-- A row that ends with the deletion of its staged copy. -/
theorem deleteStaged_rowed {o : RowOutcome}
    (h : ∀ s', Cleaned fails book row.transactionId v s' → RowStep fails book row s o s') :
    ((deleteStaged book row.transactionId).bind fun _ => ret o).swp
      (machine.assuming (answering fails)) Duty.none (Rowed fails book row s) (.idle v) := by
  refine swp_bind (swp_mono (fun r t ht => ?_) (deleteStaged_swp row.transactionId))
  obtain ⟨rfl, s', rfl, hs⟩ := ht
  exact ⟨s', rfl, h s' hs⟩

theorem createImported_rowed {bank : Guid} {st : Staged} (hw : row.WellFormed)
    (hst : s.stagedRow book row.transactionId = some st)
    (hbank : s.bankAccount book st.plaidAccountId = some bank)
    (hnew : s.posted book row.transactionId = false)
    (hfree : s.replaces book row.transactionId = false) :
    (createImported book row bank st).swp (machine.assuming (answering fails)) Duty.none
      (Rowed fails book row s) (.idle s) := by
  have hcreate : (createTransaction book (importRequest row bank st)).swp
      (machine.assuming (answering fails)) Duty.none
      (fun r t => (∀ e, r = .error e → NotDup e ∧ t = .idle s) ∧
        ∀ t' rs, r = .ok (t', rs) → ∃ as v, t = .idle v ∧
          Created book (importRequest row bank st) as t' rs ∧ Adds as [t'] rs s v) (.idle s) := by
    refine swp_assuming (swp_mono (fun r t h => ?_) (swp_and (createTransaction_violates hnew)
      (createTransaction_alone (Q := fun r t => (∀ e, r = .error e → t = .idle s) ∧
        ∀ t' rs, r = .ok (t', rs) → ∃ as v, t = .idle v ∧
          Created book (importRequest row bank st) as t' rs ∧ Adds as [t'] rs s v)
        (fun e => ⟨fun _ _ => rfl, fun _ _ h => absurd h (by simp)⟩)
        fun as t rows v hc ha _ _ => ?_)))
    · exact ⟨fun e he => ⟨h.1 e he, h.2.1 e he⟩, h.2.2⟩
    · refine ⟨fun e h => absurd h (by simp), fun t' rs h => ?_⟩
      obtain ⟨rfl, rfl⟩ := Prod.mk.inj (Except.ok.inj h)
      exact ⟨as, v, rfl, hc, ha⟩
  refine swp_bind (swp_attempt (swp_mono (fun r t ht => ?_) hcreate))
  dsimp only [Prog.ofExcept, ret_bind]
  split
  · exact (ht.1 _ rfl).2
  · obtain ⟨hdup, rfl⟩ := ht.1 _ rfl
    rw [if_neg (Bool.eq_false_iff.mp hdup)]
    exact ⟨s, rfl, .failed⟩
  · rename_i p
    obtain ⟨as, v, rfl, hc, ha⟩ := ht.2 p.1 p.2 rfl
    exact deleteStaged_rowed fun s' hs => .imported hw hst hbank hnew hfree hc ha hs

/-- A split of a transaction that is posted. -/
theorem linkedSplit_posted {account p : String} {c : Split → Bool}
    (h : s.linkedSplit book p account c = true) : s.posted book p = true := by
  unfold Db.linkedSplit at h
  obtain ⟨t, ht, hc⟩ := List.any_eq_true.mp h
  exact List.any_eq_true.mpr ⟨t, ht, (Bool.and_eq_true _ _ ▸ hc).1⟩

/-- The race defense finds the predecessor that is imported with the same value. -/
theorem replacesImported_yields (row : ImportRow) (st : Staged) :
    (replacesImported book row st).swp (machine.assuming (answering fails)) Duty.none
      (Yields s fun b => b = st.pendingTransactionId.any fun p =>
        s.linkedSplit book p st.plaidAccountId (Db.opposite st.amountNum st.amountDenom))
      (.idle s) := by
  unfold replacesImported
  cases st.pendingTransactionId with
  | none => exact ⟨rfl, rfl⟩
  | some p =>
    refine swp_read_idle (Stmt.reads_query _) (fun _ => rfl) fun _ imported hx => ?_
    obtain ⟨rfl, -⟩ := Stmt.query_ok (f := fun db => db.posted book p) hx
    split
    · refine swp_stmt rfl (fun _ _ => trivial) (fun _ _ _ _ => rfl) fun env b v _ hx => ?_
      have hx' : (importedValueMatches book p st.plaidAccountId st.amountNum st.amountDenom).sem
          env s = .ok (b, v) := hx
      obtain ⟨hm, rfl⟩ := Stmt.queryE_ok hx'
      obtain ⟨-, hm⟩ := require_bind hm
      exact ⟨rfl, (Except.ok.inj hm).symm⟩
    · rename_i hp
      refine ⟨rfl, (Bool.eq_false_iff.mpr fun hl => hp ?_).symm⟩
      exact linkedSplit_posted hl

theorem importStaged_rowed {st : Staged} (hw : row.WellFormed)
    (hst : s.stagedRow book row.transactionId = some st) :
    (importStaged book row st).swp (machine.assuming (answering fails)) Duty.none
      (Rowed fails book row s) (.idle s) := by
  have hfailed : ∃ s', (Solo.idle s : Solo SqlErr Db) = .idle s' ∧
      RowStep fails book row s .failed s' := ⟨s, rfl, .failed⟩
  refine swp_ask rfl (fun _ _ => trivial) (fun _ _ _ _ => hfailed) fun _ r v _ hx => ?_
  obtain ⟨hr, hv⟩ := Stmt.query_ok (f := fun db => db.bankAccount book st.plaidAccountId) hx
  rw [hr, hv]
  dsimp only [Solo.idle_db, Solo.put_idle]
  cases hbank : s.bankAccount book st.plaidAccountId with
  | none => exact hfailed
  | some bank =>
    refine swp_read_idle (Stmt.reads_query _) (fun _ => rfl) fun _ posted hx => ?_
    obtain ⟨rfl, -⟩ := Stmt.query_ok (f := fun db => db.posted book row.transactionId) hx
    cases hnew : s.posted book row.transactionId with
    | true =>
      refine ⟨s, rfl, .settled ⟨hw, hnew, fun st' hst' => ?_⟩⟩
      obtain rfl := Option.some.inj (hst.symm.trans hst')
      rw [hbank]
      rfl
    | false =>
      refine swp_yields (replacesImported_yields row st) (fun _ => rfl) fun b hb => ?_
      have hreplaces : s.replaces book row.transactionId = b := by
        simp [Db.replaces, hnew, hst, hb]
      cases b with
      | true => exact deleteStaged_rowed fun s' hs => .replaced hw hreplaces hs
      | false => exact createImported_rowed hw hst hbank hnew hreplaces

/-- **A row.** -/
theorem importRow_swp (row : ImportRow) :
    (importRow book row).swp (machine.assuming (answering fails)) Duty.none
      (Rowed fails book row s) (.idle s) := by
  unfold importRow
  split
  · exact ⟨s, rfl, .failed⟩
  · rename_i g spelling hg
    refine swp_read_idle ((Stmt.reads_query _).tagged _) (fun _ => rfl) fun env r hx => ?_
    have hst : s.stagedRow book row.transactionId = r :=
      (Prod.mk.inj (Except.ok.inj (ok_of_failing hx))).1
    cases r with
    | some st => exact importStaged_rowed ⟨g, spelling, hg⟩ hst
    | none =>
      refine swp_read_idle (Stmt.reads_query _) (fun _ => rfl) fun _ posted hx => ?_
      obtain ⟨rfl, -⟩ := Stmt.query_ok (f := fun db => db.posted book row.transactionId) hx
      split
      · rename_i hposted
        refine ⟨s, rfl, .settled ⟨⟨g, spelling, hg⟩, hposted, fun st hst' => ?_⟩⟩
        exact absurd (hst.symm.trans hst') (by simp)
      · exact ⟨s, rfl, .failed⟩

end Rows

end Antimoney
