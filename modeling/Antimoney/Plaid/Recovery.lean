import Antimoney.Plaid.Replay
import Antimoney.Concurrent.Cursors
import Antimoney.Ledger.Import

/-!
# Recovery of a sync

`fetchAndStage` stages page after page, each by several statements, and writes the cursor at last.
When a statement or a fetch fails, what was staged stays and the next attempt starts from the stored
cursor again, so that it stages some of the pages a second time.

* `served`, `batch`: the pages of the bank from a cursor on.
* `stageDelta_applies`, `fetchAndStage_advances`: what an attempt leaves behind, wherever it fails.
* **`recovered`**: failed attempts leave no trace once one succeeds.
-/

namespace Antimoney

open Antimoney.Lib Prog

/-! ## What is left of a page -/

/-- Some of the operations were applied, all of them if the run succeeded. -/
def Applies {α : Type} (db : Db) (book item : Guid) (ops : List StageOp) (r : Except Err α)
    (t : Solo SqlErr Db) : Prop :=
  ∃ done rows, done <+: ops ∧ t = .idle (db.restage rows) ∧
    rows.map Staged.bare =
      redo (StageOp.apply db book item) done (db.staged.map Staged.bare) ∧
    ∀ a, r = .ok a → done = ops

section Pages

variable {α β : Type} {A : ∀ {β : Type}, Stmt β → Env → Db → Bool} {db : Db} {book i : Guid}
  {item : GuidText} {ops ops' : List StageOp}

theorem applies_none (r : Except Err α) : Applies db book i [] r (.idle db) :=
  ⟨[], db.staged, List.prefix_refl _, rfl, rfl, fun _ _ => rfl⟩

theorem applies_error (e : Err) : Applies (α := α) db book i ops (.error e) (.idle db) :=
  ⟨[], db.staged, List.nil_prefix, rfl, rfl, fun _ h => absurd h nofun⟩

/-- A sequence. -/
theorem applies_bind {p : Call β} {f : β → Call α}
    (hp : p.swp (machine.assuming A) Duty.none (Applies db book i ops) (.idle db))
    (hf : ∀ rows b, (f b).swp (machine.assuming A) Duty.none
      (Applies (db.restage rows) book i ops') (.idle (db.restage rows))) :
    (p.bind f).swp (machine.assuming A) Duty.none (Applies db book i (ops ++ ops')) (.idle db) := by
  refine swp_bind (swp_mono (fun r t h => ?_) hp)
  obtain ⟨done, rows, hd, rfl, hrows, hall⟩ := h
  cases r with
  | error e => exact ⟨done, rows, hd.trans (List.prefix_append _ _), rfl, hrows, nofun⟩
  | ok b =>
    obtain rfl := hall b rfl
    refine swp_mono (fun r t h => ?_) (hf rows b)
    obtain ⟨done', rows', hd', rfl, hrows', hall'⟩ := h
    refine ⟨done ++ done', rows', (List.prefix_append_right_inj done).mpr hd', rfl, ?_,
      fun a ha => by rw [hall' a ha]⟩
    rw [redo_append, ← hrows]
    exact hrows'

/-- A read. -/
theorem applies_read {text : String} {q : Stmt β} {f : β → Call α} (hq : q.Reads)
    (hf : ∀ b, (∃ env, q.sem env db = .ok (b, db)) → (f b).swp (machine.assuming A) Duty.none
      (Applies db book i ops) (.idle db)) :
    ((exec text q).bind f).swp (machine.assuming A) Duty.none (Applies db book i ops)
      (.idle db) :=
  swp_read_idle hq (fun e => applies_error e) fun env b hb => hf b ⟨env, hb⟩

/-- An operation. -/
theorem applies_write {text : String} {q : Stmt Unit} {o : StageOp}
    (hq : ∀ env s', q.sem env db = .ok ((), s') → ∃ rows, s' = db.restage rows ∧
      rows.map Staged.bare = o.apply db book i (db.staged.map Staged.bare)) :
    (exec text q).swp (machine.assuming A) Duty.none (Applies db book i [o]) (.idle db) := by
  refine swp_stmt rfl (fun _ _ => trivial) (fun _ _ _ _ => applies_error _) fun env b s' _ hx => ?_
  obtain ⟨rows, rfl, hrows⟩ := hq env s' hx
  exact ⟨[o], rows, List.prefix_refl _, rfl, hrows, fun _ _ => rfl⟩

theorem upsertStaged_applies (hi : item.parse = .ok i) (text : String) {txn : PlaidTxn} {d : Bool}
    (hs : db.settles book txn = false)
    (hd : d = (txn.pendingTransactionId != "" &&
      dismissedIn book txn.pendingTransactionId db.staged)) :
    (exec text (upsertStaged book item txn d)).swp (machine.assuming A) Duty.none
      (Applies db book i [.upsert txn]) (.idle db) := by
  refine applies_write fun env s' hx => ?_
  have hw := (upsertStaged book item txn d).write_self hx
  obtain ⟨g, now, hg, -, rfl⟩ := upsertStaged_ok (v := db) hw
  obtain rfl := Except.ok.inj (hg.symm.trans hi)
  refine ⟨_, rfl, (map_bare_upsertStagedRow _ _).trans ?_⟩
  rw [← dismissedIn_bare] at hd
  exact (stageRow_of_not hs hd).symm

/-- **One transaction.** -/
theorem stageTxn_applies (hi : item.parse = .ok i) (txn : PlaidTxn) :
    (stageTxn book item txn).swp (machine.assuming A) Duty.none
      (Applies db book i [.upsert txn]) (.idle db) := by
  unfold stageTxn correlatePending predecessorImported
  simp only [bind_eq, pure_eq]
  by_cases hp : txn.pendingTransactionId = ""
  · simp only [hp, if_true, ret_bind]
    exact upsertStaged_applies hi _ (by simp [Db.settles, hp]) (by simp [hp])
  simp only [hp, if_false, Prog.bind_assoc]
  refine applies_read (Stmt.reads_query _) fun posted hposted => ?_
  obtain ⟨env, hposted⟩ := hposted
  obtain ⟨rfl, -⟩ := Stmt.query_ok hposted
  -- the dismissal of the predecessor, when it is not settled
  have hkeep : db.settles book txn = false →
      ((exec (stageErr "dismissed propagation for" txn.transactionId)
        (selectDismissed book txn.pendingTransactionId)).bind fun dismissed =>
          exec (stageErr "stage txn" txn.transactionId)
            (upsertStaged book item txn dismissed)).swp (machine.assuming A) Duty.none
        (Applies db book i [.upsert txn]) (.idle db) := by
    intro hs
    refine applies_read (Stmt.reads_query _) fun d hd => ?_
    obtain ⟨env, hd⟩ := hd
    obtain ⟨rfl, -⟩ := Stmt.query_ok hd
    exact upsertStaged_applies hi _ hs (by simp [hp, dismissedIn])
  by_cases hposted : db.posted book txn.pendingTransactionId = true
  · simp only [hposted, if_true]
    refine applies_read (Stmt.reads_queryE _) fun same hsame => ?_
    obtain ⟨env, hsame⟩ := hsame
    obtain ⟨hsame, -⟩ := Stmt.queryE_ok hsame
    obtain ⟨-, hsame⟩ := require_bind hsame
    have hlink : same = db.settles book txn := by
      rw [← Except.ok.inj hsame]
      simp [Db.settles, hp, hposted]
    subst hlink
    by_cases hs : db.settles book txn = true
    · simp only [hs, if_true, Prog.bind_assoc, ret_bind]
      have hdrop : (exec (stageErr "drop replaced pending" txn.pendingTransactionId) (dropReplaced
          book [txn.pendingTransactionId, txn.transactionId])).swp (machine.assuming A) Duty.none
            (Applies db book i [.upsert txn]) (.idle db) := by
        refine applies_write fun env s' hx => ?_
        refine ⟨_, dropReplaced_ok (v := db) ((dropReplaced book _).write_self hx), ?_⟩
        simp only [StageOp.apply, stageRow, hs, if_true]
        exact map_bare_deleteWhere (fun _ => rfl) _
      have hend := @applies_bind Unit Unit A db book i [.upsert txn] [] _ (fun _ => ret ()) hdrop
        fun rows _ => applies_none _
      rwa [List.append_nil] at hend
    · rw [Bool.not_eq_true] at hs
      simp only [hs, Bool.false_eq_true, if_false, Prog.bind_assoc, ret_bind]
      exact hkeep hs
  · rw [Bool.not_eq_true] at hposted
    simp only [hposted, Bool.false_eq_true, if_false, ret_bind, Prog.bind_assoc]
    exact hkeep (by simp [Db.settles, hposted])

/-- The upsert pass. -/
theorem upsertPass_applies (hi : item.parse = .ok i) (txns : List PlaidTxn) :
    (upsertPass book item txns).swp (machine.assuming A) Duty.none
      (Applies db book i ((txns.filter (·.amountNum != 0)).map .upsert)) (.idle db) := by
  induction txns generalizing db with
  | nil => exact applies_none _
  | cons txn rest ih =>
    unfold upsertPass
    by_cases h0 : txn.amountNum = 0
    · rw [if_pos h0, List.filter_cons_of_neg (by simp [h0])]
      exact ih
    · rw [if_neg h0, List.filter_cons_of_pos (by simpa using h0), List.map_cons]
      exact applies_bind (stageTxn_applies hi txn) fun rows _ => ih

theorem checkDivergence_applies (ids : List String) :
    (checkDivergence book ids).swp (machine.assuming A) Duty.none (Applies db book i [])
      (.idle db) := by
  induction ids with
  | nil => exact applies_none _
  | cons id ids ih => exact applies_read (Stmt.reads_query _) fun _ _ => ih

theorem dropUndismissed_applies (text : String) (ids : List String) :
    (exec text (dropUndismissed book ids)).swp (machine.assuming A) Duty.none
      (Applies db book i [.sweep ids]) (.idle db) := by
  refine applies_write fun env s' hx => ?_
  refine ⟨_, dropUndismissed_ok (v := db) ((dropUndismissed book ids).write_self hx), ?_⟩
  exact map_bare_deleteWhere (fun _ => rfl) _

/-- The zero pass. -/
theorem zeroPass_applies (txns : List PlaidTxn) :
    (zeroPass book txns).swp (machine.assuming A) Duty.none
      (Applies db book i ((txns.filter (·.amountNum == 0)).map fun txn => .sweep txn.staleIDs))
      (.idle db) := by
  induction txns generalizing db with
  | nil => exact applies_none _
  | cons txn rest ih =>
    unfold zeroPass
    by_cases h0 : txn.amountNum = 0
    · rw [if_pos h0, List.filter_cons_of_pos (by simp [h0]), List.map_cons]
      refine applies_bind (dropUndismissed_applies _ txn.staleIDs) fun rows _ => ?_
      exact applies_bind (checkDivergence_applies _) fun rows _ => ih
    · rw [if_neg h0, List.filter_cons_of_neg (by simp [h0])]
      exact ih

/-- The removals. -/
theorem removePass_applies (removed : List String) :
    (removePass book removed).swp (machine.assuming A) Duty.none
      (Applies db book i [.sweep removed]) (.idle db) := by
  unfold removePass
  by_cases he : removed.isEmpty = true
  · rw [if_pos he, List.isEmpty_iff.mp he]
    refine ⟨[.sweep []], db.staged, List.prefix_refl _, rfl, ?_, fun _ _ => rfl⟩
    simp [StageOp.apply, deleteWhere, stagedIn]
  · rw [if_neg he]
    exact applies_read (Stmt.reads_query _) fun _ _ => dropUndismissed_applies _ removed

/-- **A page**, wherever it fails. -/
theorem stageDelta_applies (hi : item.parse = .ok i) (delta : SyncDelta) :
    (stageDelta book item delta).swp (machine.assuming A) Duty.none
      (Applies db book i (pageOps delta)) (.idle db) := by
  refine applies_bind (upsertPass_applies hi _) fun rows _ => ?_
  exact applies_bind (zeroPass_applies _) fun rows _ => removePass_applies _

end Pages

/-! ## What is left of an attempt -/

/-- The bank answers a cursor with its page, or fails. -/
def Answers (bank : Cursor → ApiPage) (env : Env) : Prop :=
  ∀ cursor page, env.sync cursor = .ok page → page = bank cursor

/-- The test of it. -/
def answers (bank : Cursor → ApiPage) {β : Type} (q : Stmt β) (env : Env) (_ : Db) : Bool :=
  match q.tag with
  | .syncTransactions cursor =>
    match env.sync cursor with
    | .ok page => page == bank cursor
    | .error _ => true
  | _ => true

theorem answers_of {bank : Cursor → ApiPage} {env : Env} (h : Answers bank env) {β : Type}
    (q : Stmt β) (db : Db) : answers bank q env db = true := by
  unfold answers
  split
  · split
    · rename_i page hpage
      exact beq_iff_eq.mpr (h _ page hpage)
    · rfl
  · rfl

/-- The next pages from a cursor on. -/
def served (bank : Cursor → ApiPage) : Nat → Cursor → List SyncDelta
  | 0, _ => []
  | n + 1, cursor => (bank cursor).delta :: served bank n (bank cursor).nextCursor

/-- The cursor behind them. -/
def reached (bank : Cursor → ApiPage) : Nat → Cursor → Cursor
  | 0, cursor => cursor
  | n + 1, cursor => reached bank n (bank cursor).nextCursor

/-- How many pages an attempt fetches, at most `n`. -/
def batch (bank : Cursor → ApiPage) : Nat → Cursor → Nat
  | 0, _ => 0
  | n + 1, cursor =>
    if (bank cursor).hasMore then batch bank n (bank cursor).nextCursor + 1 else 1

/-- The log of the next pages. -/
def servedOps (bank : Cursor → ApiPage) (n : Nat) (cursor : Cursor) : List StageOp :=
  (served bank n cursor).flatMap pageOps

section Attempts

variable {bank : Cursor → ApiPage} {book i : Guid} {item : GuidText} {db t : Db} {n : Nat}
  {cursor : Cursor} {ops : List StageOp}

theorem served_add (m : Nat) : served bank (n + m) cursor =
    served bank n cursor ++ served bank m (reached bank n cursor) := by
  induction n generalizing cursor with
  | zero => rw [Nat.zero_add]; rfl
  | succ n ih =>
    rw [Nat.succ_add, served, ih]
    rfl

theorem reached_add (m : Nat) :
    reached bank (n + m) cursor = reached bank m (reached bank n cursor) := by
  induction n generalizing cursor with
  | zero => rw [Nat.zero_add]; rfl
  | succ n ih =>
    rw [Nat.succ_add, reached, ih]
    rfl

theorem servedOps_add (m : Nat) : servedOps bank (n + m) cursor =
    servedOps bank n cursor ++ servedOps bank m (reached bank n cursor) := by
  unfold servedOps
  rw [served_add, List.flatMap_append]

/-- **The loop over pages**, wherever it fails. -/
theorem fetchPages_applies (hi : item.parse = .ok i) (more : Bool) :
    (fetchPages book item n cursor more).swp (machine.assuming (answers bank)) Duty.none
      (fun r t => Applies db book i (servedOps bank (batch bank n cursor) cursor) r t ∧
        ∀ a, r = .ok a → a.1 = reached bank (batch bank n cursor) cursor) (.idle db) := by
  induction n generalizing db cursor more with
  | zero => exact ⟨applies_none _, fun a ha => by rw [← Except.ok.inj ha]; rfl⟩
  | succ n ih =>
    unfold fetchPages
    refine swp_exec_idle (fun e => ⟨applies_error e, nofun⟩) fun env answer s' ha hx => ?_
    obtain ⟨hanswer, rfl⟩ := Stmt.askEnv_ok (f := fun env => env.sync cursor) hx
    subst hanswer
    have hpage : answers bank (syncTransactions cursor) env s' = true := by
      have ha : (machine.allowed (syncTransactions cursor) env s' &&
        answers bank (syncTransactions cursor) env s') = true := ha
      exact (Bool.and_eq_true _ _ ▸ ha).2
    cases hsync : env.sync cursor with
    | error e => cases e <;> exact ⟨applies_error _, nofun⟩
    | ok page =>
      have hbank : page = bank cursor := by
        simpa [answers, syncTransactions, Stmt.tagged, hsync] using hpage
      subst hbank
      dsimp only
      by_cases hm : (bank cursor).hasMore = true
      · have hb : batch bank (n + 1) cursor = batch bank n (bank cursor).nextCursor + 1 :=
          if_pos hm
        rw [hb]
        simp only [hm, if_true]
        refine swp_bind (swp_mono (fun r t h => ?_) (stageDelta_applies hi (bank cursor).delta))
        obtain ⟨done, rows, hd, rfl, hrows, hall⟩ := h
        cases r with
        | error e =>
          exact ⟨⟨done, rows, hd.trans (List.prefix_append _ _), rfl, hrows, nofun⟩, nofun⟩
        | ok u =>
          obtain rfl := hall u rfl
          refine swp_mono (fun r t h => ?_) (@ih (s'.restage rows) (bank cursor).nextCursor true)
          obtain ⟨⟨done', rows', hd', rfl, hrows', hall'⟩, hcursor⟩ := h
          refine ⟨⟨pageOps (bank cursor).delta ++ done', rows',
            (List.prefix_append_right_inj _).mpr hd', rfl, ?_, fun a ha => ?_⟩, hcursor⟩
          · rw [redo_append, ← hrows]
            exact hrows'
          · rw [hall' a ha]
            rfl
      · have hb : batch bank (n + 1) cursor = 1 := if_neg hm
        rw [hb]
        rw [Bool.not_eq_true] at hm
        simp only [hm, Bool.false_eq_true, if_false]
        refine swp_bind (swp_mono (fun r t h => ?_) (stageDelta_applies hi (bank cursor).delta))
        have hone : servedOps bank 1 cursor = pageOps (bank cursor).delta :=
          List.append_nil _
        rw [hone]
        obtain ⟨done, rows, hd, rfl, hrows, hall⟩ := h
        cases r with
        | error e => exact ⟨⟨done, rows, hd, rfl, hrows, nofun⟩, nofun⟩
        | ok u =>
          exact ⟨⟨done, rows, hd, rfl, hrows, fun _ _ => hall u rfl⟩,
            fun a ha => by rw [← Except.ok.inj ha]; rfl⟩

/-- The database after some operations of a sync. -/
structure After (db : Db) (book item : Guid) (text : GuidText) (ops : List StageOp)
    (cursor : Cursor) (t : Db) : Prop where
  settles : ∀ txn, t.settles book txn = db.settles book txn
  hasItem : (t.items.find? (isItem item book)).isSome = true
  cursor : t.cursor book text = cursor
  staged : t.staged.map Staged.bare =
    redo (StageOp.apply db book item) ops (db.staged.map Staged.bare)

/-- The write of `last_synced_at` settles nothing. -/
theorem settles_writeLastSynced {now : Time} {env : Env} {v x y : Db}
    (h : (writeLastSynced book item now).write env v x = .ok y) (txn : PlaidTxn) :
    y.settles book txn = x.settles book txn := by
  have hany : ∀ (s : Split) (t : Transaction), (y.accounts.any fun a => a.guid == s.accountGuid &&
      a.bookGuid == t.bookGuid && a.plaid.any fun l => l.accountId == txn.accountId) =
        x.accounts.any fun a => a.guid == s.accountGuid && a.bookGuid == t.bookGuid &&
          a.plaid.any fun l => l.accountId == txn.accountId := by
    intro s t
    have hkeep : ∀ as : List Account, (as.any fun a => a.guid == s.accountGuid &&
        a.bookGuid == t.bookGuid && a.plaid.any fun l => l.accountId == txn.accountId) =
          (as.map fun a => (a.guid, a.bookGuid, a.plaid.map (·.accountId))).any fun k =>
            k.1 == s.accountGuid && k.2.1 == t.bookGuid && k.2.2.any (· == txn.accountId) := by
      intro as
      rw [List.any_map]
      refine congrArg (List.any as) (funext fun a => ?_)
      rw [Function.comp_apply, Option.any_map]
    rw [hkeep, hkeep, writeLastSynced_ok h]
    refine congrArg (List.any · _) (map_updateWhere (fun a => ?_) _)
    cases a.plaid <;> rfl
  obtain ⟨hsplits, htxns⟩ : y.splits = x.splits ∧ y.transactions = x.transactions := by
    rw [writeLastSynced_ok h]
    exact ⟨rfl, rfl⟩
  unfold Db.settles Db.posted Db.linkedSplit
  simp only [hsplits, htxns, hany]

/-- What the pages leave. -/
theorem after_restage {rows : List Staged}
    (h : (db.items.find? (isItem i book)).isSome = true)
    (hrows : rows.map Staged.bare =
      redo (StageOp.apply db book i) ops (db.staged.map Staged.bare)) :
    After db book i item ops (db.cursor book item) (db.restage rows) :=
  ⟨fun _ => rfl, h, rfl, hrows⟩

/-- The write of the cursor. -/
theorem After.writeCursor {now : Time} {env : Env} {v x y : Db} {c : Cursor}
    (h : After db book i item ops c x) (hi : item.parse = .ok i)
    (hw : (Antimoney.writeCursor book item cursor now).write env v x = .ok y) :
    After db book i item ops cursor y := by
  obtain ⟨g, hg, rfl⟩ := writeCursor_ok hw
  obtain rfl := Except.ok.inj (hg.symm.trans hi)
  obtain ⟨p, hp⟩ := Option.isSome_iff_exists.mp h.hasItem
  refine ⟨h.settles, ?_, ?_, h.staged⟩
  · dsimp only
    rw [find?_updateWhere, hp]
    · rfl
    · exact fun p => rfl
  · unfold Db.cursor
    rw [hi]
    dsimp only
    rw [find?_updateWhere, hp]
    · simp [List.find?_some hp]
    · exact fun p => rfl

/-- The write of `last_synced_at`. -/
theorem After.writeLastSynced {now : Time} {env : Env} {v x y : Db} {c : Cursor}
    (h : After db book i item ops c x)
    (hw : (Antimoney.writeLastSynced book item now).write env v x = .ok y) :
    After db book i item ops c y := by
  have hsettles := fun txn => (settles_writeLastSynced hw txn).trans (h.settles txn)
  obtain ⟨hitems, hstaged⟩ : y.items = x.items ∧ y.staged = x.staged := by
    rw [writeLastSynced_ok hw]
    exact ⟨rfl, rfl⟩
  refine ⟨hsettles, ?_, (Db.cursor_congr hitems).trans h.cursor, ?_⟩
  · rw [hitems]
    exact h.hasItem
  · rw [hstaged]
    exact h.staged

/-- An attempt failed before its cursor was stored, or came to the end of its pages. -/
def Advances (bank : Cursor → ApiPage) (db : Db) (book item : Guid) (text : GuidText)
    (r : Except Err Bool) (t : Solo SqlErr Db) : Prop :=
  ∃ s, t = .idle s ∧
    ((∃ e done, r = .error e ∧
        done <+: servedOps bank (batch bank maxSyncPages (db.cursor book text))
          (db.cursor book text) ∧
        After db book item text done (db.cursor book text) s) ∨
      After db book item text
        (servedOps bank (batch bank maxSyncPages (db.cursor book text)) (db.cursor book text))
        (reached bank (batch bank maxSyncPages (db.cursor book text)) (db.cursor book text)) s)

/-- **An attempt**, wherever it fails. -/
theorem fetchAndStage_advances (hi : item.parse = .ok i)
    (h : (db.items.find? (isItem i book)).isSome = true) :
    (fetchAndStage book item (db.cursor book item)).swp (machine.assuming (answers bank)) Duty.none
      (Advances bank db book i item) (.idle db) := by
  refine swp_bind (swp_mono (fun r t hpages => ?_) (fetchPages_applies hi false))
  obtain ⟨⟨done, rows, hd, rfl, hrows, hall⟩, hreached⟩ := hpages
  have hafter : After db book i item done (db.cursor book item) (db.restage rows) :=
    after_restage h hrows
  cases r with
  | error e => exact ⟨_, rfl, .inl ⟨e, done, rfl, hd, hafter⟩⟩
  | ok a =>
    have hcursor := hreached a rfl
    obtain rfl := hall a rfl
    refine swp_read_idle (Stmt.reads_askEnv _) (fun e => ?_) fun env now _ => ?_
    · exact ⟨_, rfl, .inl ⟨_, _, rfl, hd, hafter⟩⟩
    refine swp_exec_idle (fun e => ⟨_, rfl, .inl ⟨_, _, rfl, hd, hafter⟩⟩) fun env u s _ hx => ?_
    have hwritten := hafter.writeCursor hi
      ((Antimoney.writeCursor book item a.1 now).write_self hx)
    rw [hcursor] at hwritten
    refine swp_exec_idle (fun e => ⟨_, rfl, .inr hwritten⟩) fun env u s' _ hx => ?_
    exact ⟨s', rfl, .inr (hwritten.writeLastSynced
      ((Antimoney.writeLastSynced book item now).write_self hx))⟩

/-! ## Attempts until one succeeds -/

/-- Attempts that failed, each from the cursor stored then. -/
inductive FailedAttempts (bank : Cursor → ApiPage) (book : Guid) (item : GuidText) (db : Db) :
    Db → Prop
  | none : FailedAttempts bank book item db db
  | again {t t' : Db} {envs : Nat → Env} {e : Err} (h : FailedAttempts bank book item db t)
      (hbank : ∀ n, Answers bank (envs n))
      (hallowed : (fetchAndStage book item (t.cursor book item)).runAllowed machine envs (.idle t) =
        true)
      (hrun : (fetchAndStage book item (t.cursor book item)).run machine envs (.idle t) =
        (.error e, .idle t')) :
      FailedAttempts bank book item db t'

/-- Every transaction of the bank names the predecessor that its id always names. -/
def Consistent (bank : Cursor → ApiPage) (pred : String → String) : Prop :=
  ∀ cursor, ∀ txn ∈ (bank cursor).delta.added ++ (bank cursor).delta.modified,
    txn.pendingTransactionId = pred txn.transactionId

theorem names_pageOps {pred : String → String} {delta : SyncDelta}
    (h : ∀ txn ∈ delta.added ++ delta.modified, txn.pendingTransactionId = pred txn.transactionId) :
    ∀ o ∈ pageOps delta, o.Names pred := by
  intro o ho
  rcases List.mem_append.mp ho with ho | ho
  · obtain ⟨txn, htxn, rfl⟩ := List.mem_map.mp ho
    exact h txn (List.mem_of_mem_filter htxn)
  · rcases List.mem_append.mp ho with ho | ho
    · obtain ⟨txn, -, rfl⟩ := List.mem_map.mp ho
      trivial
    · rw [List.mem_singleton.mp ho]
      trivial

theorem Consistent.names {pred : String → String} (h : Consistent bank pred) (n : Nat)
    (cursor : Cursor) : ∀ o ∈ servedOps bank n cursor, o.Names pred := by
  induction n generalizing cursor with
  | zero => exact fun o ho => absurd ho List.not_mem_nil
  | succ n ih =>
    intro o ho
    rcases List.mem_append.mp ho with ho | ho
    · exact names_pageOps (h cursor) o ho
    · exact ih _ o ho

theorem single_of_nodup {table : List Staged}
    (h : (table.map fun st => (st.bookGuid, st.transactionId)).Nodup) (book : Guid) :
    Single book table := by
  intro id
  have hkeys : ((rowsOf book id table).map fun st => (st.bookGuid, st.transactionId)).Nodup :=
    (List.filter_sublist.map _).nodup h
  have hall : ∀ st ∈ rowsOf book id table, (st.bookGuid, st.transactionId) = (book, id) := by
    intro st hst
    obtain ⟨-, hb, hi⟩ := mem_rowsOf.mp hst
    rw [hb, hi]
  generalize rowsOf book id table = rows at hkeys hall
  cases rows with
  | nil => exact ⟨none, rfl⟩
  | cons st rest =>
    cases rest with
    | nil => exact ⟨some st, rfl⟩
    | cons st' rest =>
      have hsame := (hall st (by simp)).trans (hall st' (by simp)).symm
      simp [hsame] at hkeys

/-- The operations read the ledger only for what is settled. -/
theorem apply_of_settles (h : ∀ txn, t.settles book txn = db.settles book txn) :
    StageOp.apply t book i = StageOp.apply db book i := by
  funext o table
  cases o with
  | upsert txn => simp only [StageOp.apply, stageRow, h]
  | sweep ids => rfl

/-- Between attempts: some pages were staged at once, as far as can be seen, and the cursor is
stored behind them; of the next ones, some operations were applied, again and again. -/
structure Between (bank : Cursor → ApiPage) (book item : Guid) (text : GuidText) (db t : Db) :
    Prop where
  settles : ∀ txn, t.settles book txn = db.settles book txn
  hasItem : (t.items.find? (isItem item book)).isSome = true
  crashed : ∃ n clean, t.cursor book text = reached bank n (db.cursor book text) ∧
    seen clean = seen (redo (StageOp.apply db book item) (servedOps bank n (db.cursor book text))
      (db.staged.map Staged.bare)) ∧
    Crashed (StageOp.apply db book item)
      (servedOps bank (batch bank maxSyncPages (t.cursor book text)) (t.cursor book text))
      clean (t.staged.map Staged.bare)

theorem Single.of_seen {table table' : List Staged} (h : seen table = seen table')
    (hs : Single book table') : Single book table := by
  intro id
  obtain ⟨cell, hcell⟩ := hs id
  exact ⟨cell, (congrFun (congrFun h book) id).trans hcell⟩

section Retried

variable {pred : String → String} {t' : Db}

/-- The pages of an attempt that came to their end, after what went before. -/
theorem Between.seen (h : Between bank book i item db t) (hr : Rooted pred)
    (hc : Consistent bank pred) (hs : Single book (db.staged.map Staged.bare))
    (ha : After t book i item (servedOps bank (batch bank maxSyncPages (t.cursor book item))
      (t.cursor book item)) cursor t') :
    ∃ n, reached bank (batch bank maxSyncPages (t.cursor book item)) (t.cursor book item) =
        reached bank n (db.cursor book item) ∧
      Antimoney.seen (t'.staged.map Staged.bare) = Antimoney.seen (redo (StageOp.apply db book i)
        (servedOps bank n (db.cursor book item)) (db.staged.map Staged.bare)) := by
  obtain ⟨n, clean, hcursor, hclean, hcrash⟩ := h.crashed
  refine ⟨n + batch bank maxSyncPages (t.cursor book item), ?_, ?_⟩
  · rw [reached_add, ← hcursor]
  have hsingle : Single book clean := by
    refine Single.of_seen hclean ?_
    exact redo_keeps (fun o _ _ h => h.apply o) hs
  have hstaged := ha.staged
  rw [apply_of_settles h.settles] at hstaged
  rw [hstaged, seen_recovered hr (hc.names _ _) hsingle hcrash, servedOps_add, redo_append,
    ← hcursor]
  exact view_redo (fun _ _ _ _ => seen_apply) hclean

/-- The invariant of failed attempts. -/
theorem FailedAttempts.between (hi : item.parse = .ok i)
    (hitem : (db.items.find? (isItem i book)).isSome = true) (hr : Rooted pred)
    (hc : Consistent bank pred) (hs : Single book (db.staged.map Staged.bare))
    (h : FailedAttempts bank book item db t) : Between bank book i item db t := by
  induction h with
  | none => exact ⟨fun _ => rfl, hitem, 0, _, rfl, rfl, .none⟩
  | @again t t' envs e _ hbank hallowed hrun ih =>
    have hspec : (fetchAndStage book item (t.cursor book item)).swp
        (machine.assuming (answers bank)) Duty.none (Advances bank t book i item) (.idle t) :=
      fetchAndStage_advances hi ih.hasItem
    have hadv := run_of_swp hspec
      (runAllowed_assuming (fun q n s => answers_of (hbank n) q s) hallowed)
    rw [run_assuming, hrun] at hadv
    obtain ⟨s, hs', h⟩ := hadv
    obtain rfl : t' = s := congrArg Solo.db hs'
    rcases h with ⟨e, done, -, hd, hafter⟩ | hafter
    · obtain ⟨n, clean, hcursor, hclean, hcrash⟩ := ih.crashed
      refine ⟨fun txn => (hafter.settles txn).trans (ih.settles txn), hafter.hasItem, n, clean,
        hafter.cursor.trans hcursor, hclean, ?_⟩
      rw [hafter.cursor, hafter.staged, apply_of_settles ih.settles]
      exact hcrash.again hd
    · obtain ⟨n, hn, hseen⟩ := ih.seen hr hc hs hafter
      exact ⟨fun txn => (hafter.settles txn).trans (ih.settles txn), hafter.hasItem, n, _,
        hafter.cursor.trans hn, hseen, .none⟩

end Retried

end Attempts

/-- The table after pages staged at once. -/
def stagedPages (db : Db) (book item : Guid) (deltas : List SyncDelta) (table : List Staged) :
    List Staged :=
  deltas.foldl (fun table delta => pageRows db book item delta table) table

theorem redo_flatMap {db : Db} {book item : Guid} (deltas : List SyncDelta) (table : List Staged) :
    redo (StageOp.apply db book item) (deltas.flatMap pageOps) table =
      stagedPages db book item deltas table := by
  induction deltas generalizing table with
  | nil => rfl
  | cons delta deltas ih =>
    rw [List.flatMap_cons, redo_append, redo_pageOps, ih]
    rfl

/-- **Failed attempts leave no trace.** Wherever attempts failed, once one succeeds the staged rows
are those of the pages from the first cursor to the stored one, each staged once and in order. -/
theorem recovered {bank : Cursor → ApiPage} {pred : String → String} {book i : Guid}
    {item : GuidText} {db t t' : Db} {envs : Nat → Env} {more : Bool} (hi : item.parse = .ok i)
    (hitem : (db.items.find? (isItem i book)).isSome = true)
    (hkey : (db.staged.map fun st => (st.bookGuid, st.transactionId)).Nodup)
    (hr : Rooted pred) (hc : Consistent bank pred) (hfail : FailedAttempts bank book item db t)
    (hbank : ∀ n, Answers bank (envs n))
    (hallowed : (fetchAndStage book item (t.cursor book item)).runAllowed machine envs (.idle t) =
      true)
    (hrun : (fetchAndStage book item (t.cursor book item)).run machine envs (.idle t) =
      (.ok more, .idle t')) :
    ∃ n, t'.cursor book item = reached bank n (db.cursor book item) ∧
      (t'.staged.map Staged.bare).Perm (stagedPages db book i
        (served bank n (db.cursor book item)) (db.staged.map Staged.bare)) := by
  have hs : Single book (db.staged.map Staged.bare) := by
    refine single_of_nodup ?_ book
    rw [List.map_map]
    exact hkey
  have hbetween := hfail.between hi hitem hr hc hs
  have hspec : (fetchAndStage book item (t.cursor book item)).swp
      (machine.assuming (answers bank)) Duty.none (Advances bank t book i item) (.idle t) :=
    fetchAndStage_advances hi hbetween.hasItem
  have hadv := run_of_swp hspec
    (runAllowed_assuming (fun q n s => answers_of (hbank n) q s) hallowed)
  rw [run_assuming, hrun] at hadv
  obtain ⟨s, hs', h⟩ := hadv
  obtain rfl : t' = s := congrArg Solo.db hs'
  rcases h with ⟨e, done, he, -⟩ | hafter
  · exact absurd he nofun
  · obtain ⟨n, hn, hseen⟩ := hbetween.seen hr hc hs hafter
    refine ⟨n, hafter.cursor.trans hn, perm_of_seen (hseen.trans ?_)⟩
    rw [← redo_flatMap]
    rfl

/-- A bank whose pages settle the dismissed purchase at another value. -/
def settlingBank (cursor : Cursor) : ApiPage :=
  ⟨[⟨"Q", "P", some 19001, "food", 1100, "checking", false⟩], [], ["R"], cursor + 1, false⟩

def settling (n k : Nat) : Env := { calm n k with sync := fun cursor => .ok (settlingBank cursor) }

/-- The second attempt after one that fails in the middle of the page. -/
def halfPage : Db :=
  ((fetchAndStage 3 (Guid.text 30) 2).run machine
    (fun k => { settling 300 k with fail := k == 5 }) (.idle dismissedPending)).2.db

def wholePage : Db :=
  ((fetchAndStage 3 (Guid.text 30) 2).run machine (settling 320) (.idle halfPage)).2.db

/-- The predecessors there. -/
def settledBy (id : String) : String := if id = "Q" then "P" else ""

theorem rooted_settledBy : Rooted settledBy := by
  intro id hid
  unfold settledBy at hid ⊢
  by_cases h : id = "Q"
  · simp [h]
  · simp [h] at hid

theorem recovered_halfPage : ∃ n, wholePage.cursor 3 (Guid.text 30) =
      reached settlingBank n (dismissedPending.cursor 3 (Guid.text 30)) ∧
    (wholePage.staged.map Staged.bare).Perm (stagedPages dismissedPending 3 30
      (served settlingBank n (dismissedPending.cursor 3 (Guid.text 30)))
      (dismissedPending.staged.map Staged.bare)) := by
  have hends : ∀ x : Except Err Bool × Solo SqlErr Db, x.2.work.isNone = true →
      x = (x.1, .idle x.2.db) := by
    rintro ⟨r, db, w⟩ h
    obtain rfl := Option.isNone_iff_eq_none.mp h
    rfl
  have hcursor : dismissedPending.cursor 3 (Guid.text 30) = 2 := by decide +kernel
  have hhalf : halfPage.cursor 3 (Guid.text 30) = 2 := by decide +kernel
  have hfail : FailedAttempts settlingBank 3 (Guid.text 30) dismissedPending halfPage := by
    refine @FailedAttempts.again _ _ _ _ _ _ (fun k => { settling 300 k with fail := k == 5 })
      (.wrapped "stage sync delta: check removed against imported" .failed) .none
      (fun n c page h => (Except.ok.inj h).symm) (by rw [hcursor]; decide +kernel) ?_
    rw [hcursor]
    refine (hends _ (by decide +kernel)).trans (Prod.ext ?_ rfl)
    decide +kernel
  refine @recovered settlingBank settledBy 3 30 (Guid.text 30) dismissedPending halfPage wholePage
    (settling 320) false rfl (by decide +kernel) (by decide +kernel) rooted_settledBy
    (fun c => by simp [settlingBank, ApiPage.delta, convertTxns, convertTxn, settledBy]) hfail
    (fun n c page h => (Except.ok.inj h).symm) (by rw [hhalf]; decide +kernel) ?_
  rw [hhalf]
  refine (hends _ (by decide +kernel)).trans (Prod.ext ?_ rfl)
  decide +kernel

end Antimoney
