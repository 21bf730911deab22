import Antimoney.Ledger.Journal

/-!
# Imports and the ledger

`performImport` clears the book and inserts the file's rows, transaction by transaction and split
by split, in one transaction. In the journal this is a removal of the book's keys, then a posting
of the file's groups (`Journal.post`), which is sound when the file balances.

* `swp_batch`: the rule of a batch of statements.
* **`performImport_ledger`**, `handleFactoryReset_ledger`.
-/

namespace Antimoney

open Antimoney.Lib Antimoney.Gnc Prog

/-! ## The machine, and where calls end -/

/-- The read of a transaction's splits for a snapshot neither fails nor is cut short. -/
def wholeSplits {β : Type} (q : Stmt β) (env : Env) (db : Db) : Bool :=
  match q.tag with
  | .exportSplits tx =>
    !env.fail && env.cut.all fun n => decide (db.splits.countP (·.txGuid == tx) ≤ n)
  | _ => true

/-- The database, where such reads are whole. -/
abbrev watched : Machine Stmt SqlErr Env Lock Db := machine.assuming wholeSplits

theorem wholeSplits_of_allowed {β : Type} {q : Stmt β} {env : Env} {db : Db}
    (h : watched.allowed q env db = true) : wholeSplits q env db = true := by
  have h' : (machine.allowed q env db && wholeSplits q env db) = true := h
  exact (Bool.and_eq_true _ _ ▸ h').2

/-- Outside a transaction, at a state that satisfies `I`. -/
def AtRest (I : Db → Prop) (t : Solo SqlErr Db) : Prop := ∃ s, t = .idle s ∧ I s

theorem AtRest.db {I : Db → Prop} {t : Solo SqlErr Db} (h : AtRest I t) : I t.db := by
  obtain ⟨s, rfl, hs⟩ := h
  exact hs

/-- The transaction opened at `s` goes on with a working copy that satisfies `ok`, or has failed. -/
def Ends {β : Type} (s : Db) (ok : β → Db → Prop) : Except Err β → Solo SqlErr Db → Prop
  | .ok b, t => ∃ v, t = .tx s v ∧ ok b v
  | .error _, t => t.db = s

/-- Outside a transaction at `s`, with a result that satisfies `ok`, or failed. -/
def Yields {β : Type} (s : Db) (ok : β → Prop) : Except Err β → Solo SqlErr Db → Prop
  | .ok b, t => t = .idle s ∧ ok b
  | .error _, t => t = .idle s

section Rules

variable {α β : Type} {A : ∀ {β : Type}, Stmt β → Env → Db → Bool}
  {Q : Except Err α → Solo SqlErr Db → Prop} {s v : Db}

/-- A statement in a transaction. -/
theorem swp_exec_tx {text : String} {q : Stmt β} {k : β → Call α}
    (herr : ∀ e t, t.db = s → Q (.error e) t)
    (hok : ∀ env b v', q.sem env v = .ok (b, v') →
      (k b).swp (machine.assuming A) Duty.none Q (.tx s v')) :
    ((exec text q).bind k).swp (machine.assuming A) Duty.none Q (.tx s v) :=
  swp_sql rfl (fun _ _ => trivial) (fun _ => herr _ _ rfl) fun env b v' _ hx => hok env b v' hx

/-- The last statement of a transaction. -/
theorem swp_exec_last {text : String} {q : Stmt α} (herr : ∀ e t, t.db = s → Q (.error e) t)
    (hok : ∀ env b v', q.sem env v = .ok (b, v') → Q (.ok b) (.tx s v')) :
    (exec text q).swp (machine.assuming A) Duty.none Q (.tx s v) :=
  swp_stmt rfl (fun _ _ => trivial) (fun _ _ _ _ => herr _ _ rfl) fun env b v' _ hx =>
    hok env b v' hx

/-- A statement outside a transaction. -/
theorem swp_exec_idle {text : String} {q : Stmt β} {k : β → Call α}
    (herr : ∀ e, Q (.error e) (.idle s))
    (hok : ∀ env b s', (machine.assuming A).allowed q env s = true → q.sem env s = .ok (b, s') →
      (k b).swp (machine.assuming A) Duty.none Q (.idle s')) :
    ((exec text q).bind k).swp (machine.assuming A) Duty.none Q (.idle s) :=
  swp_sql rfl (fun _ _ => trivial) (fun _ => herr _) fun env b s' ha hx =>
    hok env b s' ha hx

/-- A read outside a transaction. -/
theorem swp_read_idle {text : String} {q : Stmt β} {k : β → Call α} (hq : q.Reads)
    (herr : ∀ e, Q (.error e) (.idle s))
    (hok : ∀ env b, q.sem env s = .ok (b, s) →
      (k b).swp (machine.assuming A) Duty.none Q (.idle s)) :
    ((exec text q).bind k).swp (machine.assuming A) Duty.none Q (.idle s) := by
  refine swp_exec_idle herr fun env b s' _ hx => ?_
  obtain rfl := hq.sem hx
  exact hok env b hx

/-- A read that ends the call. -/
theorem swp_read_last {text : String} {q : Stmt α} (hq : q.Reads)
    (herr : ∀ e, Q (.error e) (.idle s)) (hok : ∀ b, Q (.ok b) (.idle s)) :
    (exec text q).swp (machine.assuming A) Duty.none Q (.idle s) := by
  refine swp_stmt rfl (fun _ _ => trivial) (fun _ _ _ _ => herr _) fun env b s' _ hx => ?_
  obtain rfl := hq.sem hx
  exact hok b

/-- A read outside a transaction whose error the call looks at. -/
theorem swp_ask_idle {q : Stmt β} {k : Except SqlErr β → Call α} (hq : q.Reads)
    (hk : ∀ r, (k r).swp (machine.assuming A) Duty.none Q (.idle s)) :
    ((reply q).bind k).swp (machine.assuming A) Duty.none Q (.idle s) := by
  refine swp_ask rfl (fun _ _ => trivial) (fun _ e _ _ => hk (.error e)) fun env b s' _ hx => ?_
  obtain rfl := hq.sem hx
  exact hk (.ok b)

/-- A part of the transaction, then the rest. -/
theorem swp_seq {p : Call β} {k : β → Call α} {ok : β → Db → Prop} {t : Solo SqlErr Db}
    (hp : p.swp (machine.assuming A) Duty.none (Ends s ok) t)
    (herr : ∀ e t, t.db = s → Q (.error e) t)
    (hk : ∀ b v, ok b v → (k b).swp (machine.assuming A) Duty.none Q (.tx s v)) :
    (p.bind k).swp (machine.assuming A) Duty.none Q t := by
  refine swp_bind (swp_mono (fun r t h => ?_) hp)
  cases r with
  | error e => exact herr e t h
  | ok b =>
    obtain ⟨v, rfl, hv⟩ := h
    exact hk b v hv

/-- A part outside a transaction that leaves the database alone, then the rest. -/
theorem swp_yields {p : Call β} {k : β → Call α} {ok : β → Prop}
    (hp : p.swp (machine.assuming A) Duty.none (Yields s ok) (.idle s))
    (herr : ∀ e, Q (.error e) (.idle s))
    (hk : ∀ b, ok b → (k b).swp (machine.assuming A) Duty.none Q (.idle s)) :
    (p.bind k).swp (machine.assuming A) Duty.none Q (.idle s) := by
  refine swp_bind (swp_mono (fun r t h => ?_) hp)
  cases r with
  | error e =>
    obtain rfl : t = .idle s := h
    exact herr e
  | ok b =>
    obtain ⟨rfl, hb⟩ := h
    exact hk b hb

theorem swp_begin {body : Call α} {text : String} (herr : ∀ e, Q (.error e) (.idle s))
    (hbody : body.swp (machine.assuming A) Duty.none (fun r t => Q r (.idle t.db)) (.tx s s)) :
    (inTx text body).swp (machine.assuming A) Duty.none Q (.idle s) :=
  swp_inTx (fun _ _ => trivial) (fun _ _ => trivial) (fun _ => herr _) hbody

/-- The statements of a batch, by what is left of it. -/
theorem swp_batchLoop {ι : Type} {f : ι → Stmt Unit} {J : List ι → Db → Prop} {label : String}
    (hJ : ∀ x xs env v v', J (x :: xs) v → (f x).sem env v = .ok ((), v') → J xs v')
    {xs : List ι} (h : J xs v) :
    (batchLoop label (xs.map f)).swp (machine.assuming A) Duty.none (Ends s fun _ v' => J [] v')
      (.tx s v) := by
  induction xs generalizing v with
  | nil => exact ⟨v, rfl, h⟩
  | cons x xs ih =>
    exact swp_exec_tx (fun _ _ ht => ht) fun env _ v' hx => ih (hJ x xs env v v' h hx)

/-- **The rule of a batch.** -/
theorem swp_batch {ι : Type} {f : ι → Stmt Unit} {J : List ι → Db → Prop} {label : String}
    (hJ : ∀ x xs env v v', J (x :: xs) v → (f x).sem env v = .ok ((), v') → J xs v')
    {xs : List ι} (h : J xs v) :
    (execImportBatch label (xs.map f)).swp (machine.assuming A) Duty.none
      (Ends s fun _ v' => J [] v') (.tx s v) := by
  unfold execImportBatch
  split
  · rename_i he
    obtain rfl : xs = [] := by simpa using he
    exact ⟨v, rfl, h⟩
  · refine swp_seq (swp_batchLoop hJ h) (fun _ _ ht => ht) fun _ v' hv => ?_
    refine swp_exec_last (fun _ _ ht => ht) fun env b v'' hx => ?_
    obtain ⟨-, rfl⟩ := Stmt.query_ok hx
    exact ⟨_, rfl, hv⟩

end Rules

/-- A call of statements that keep the ledger keeps it. -/
theorem swp_of_keeps {α : Type} {P : StmtClass Stmt} {p : Call α} {s : Db} (hp : p.Issues P)
    (hP : ∀ {γ : Type} (q : Stmt γ) (env : Env) (v v' : Db) (b : γ), P q → Ledger v →
      q.sem env v = .ok (b, v') → Ledger v') (h : Ledger s) :
    p.swp watched Duty.none (fun _ t => Ledger t.db) (.idle s) := by
  have hswp : p.swp machine Duty.none (fun _ t => t.Holds Ledger) (.idle s) :=
    swp_of_issues hp (fun q env v v' b hq hv _ hx => hP q env v v' b hq hv hx) (Solo.holds_idle h)
  exact swp_assuming (swp_mono (fun _ _ ht => ht.1) hswp)

/-! ## Clearing a book -/

/-- Deleting the splits of a book first makes no difference to the deletion of its
transactions. -/
theorem Db.deleteTransactions_splits (db : Db) (book : Guid) :
    (({ db with splits := deleteWhere (db.splitInBook book) db.splits } : Db).deleteTransactions
      (·.bookGuid == book)).2 = (db.deleteTransactions (·.bookGuid == book)).2 := by
  have hany : ∀ s : Split, (db.transactions.filter (·.bookGuid == book)).any (·.guid == s.txGuid) =
      db.splitInBook book s := by
    intro s
    rw [List.any_filter, Db.splitInBook]
    congr 1
    funext t
    rw [Bool.and_comm]
  simp only [Db.deleteTransactions, Db.mk.injEq, true_and, and_true, hany]
  rw [deleteWhere, deleteWhere, List.filter_filter]
  exact List.filter_congr fun s _ => by rw [Bool.and_self]

/-- The database without the rows of the book, which has no root. -/
def Db.clearBook (db : Db) (book : Guid) : Db :=
  { (db.deleteTransactions (·.bookGuid == book)).2 with
    books := updateWhere (·.guid == book) (fun b => { b with rootAccountGuid := none }) db.books
    accounts := deleteWhere (·.bookGuid == book) db.accounts }

theorem deleteBookAccounts_eq {book : Guid} {env : Env} {db db' : Db}
    (h : (deleteBookAccounts book).sem env db = .ok ((), db')) :
    db' = { db with accounts := deleteWhere (·.bookGuid == book) db.accounts } := by
  obtain ⟨⟨n, db''⟩, hd, he⟩ := ok_map (ok_of_failing h)
  obtain ⟨-, rfl⟩ := Prod.mk.inj he
  exact (Db.deleteAccounts_ok hd).1

/-- **The four statements that clear a book.** -/
theorem clearBook_swp {α : Type} {A : ∀ {β : Type}, Stmt β → Env → Db → Bool}
    {Q : Except Err α → Solo SqlErr Db → Prop} {s v : Db} {book : Guid} {k : Unit → Call α}
    (herr : ∀ e t, t.db = s → Q (.error e) t)
    (hk : (k ()).swp (machine.assuming A) Duty.none Q (.tx s (v.clearBook book))) :
    ((exec "failed to clear book root" (setBookRoot book none)).bind fun _ =>
      (exec "failed to clean up splits" (deleteBookSplits book)).bind fun _ =>
      (exec "failed to clean up transactions" (deleteBookTransactions book)).bind fun _ =>
      (exec "failed to clean up accounts" (deleteBookAccounts book)).bind k).swp
        (machine.assuming A) Duty.none Q (.tx s v) := by
  refine swp_exec_tx herr fun env _ v₁ hx => ?_
  obtain ⟨-, hx⟩ := require_bind (ok_of_failing hx)
  obtain ⟨-, rfl⟩ := Prod.mk.inj (Except.ok.inj hx)
  refine swp_exec_tx herr fun env _ v₂ hx => ?_
  obtain ⟨-, rfl⟩ := Prod.mk.inj (Except.ok.inj (ok_of_failing hx))
  refine swp_exec_tx herr fun env _ v₃ hx => ?_
  obtain ⟨-, rfl⟩ := Prod.mk.inj (Except.ok.inj (ok_of_failing hx))
  refine swp_exec_tx herr fun env _ v₄ hx => ?_
  obtain rfl := deleteBookAccounts_eq hx
  rw [Db.deleteTransactions_splits]
  exact hk

theorem Ledger.clearBook {db : Db} (h : Ledger db) (book : Guid) : Ledger (db.clearBook book) :=
  (h.deleteTransactions (·.bookGuid == book)).frame rfl (fun _ hs => h.cents _ hs) fun _ hs => hs

/-! ## `performImport` -/

/-- The amounts of a transaction about to be imported. -/
def ImportTransaction.amounts (t : ImportTransaction) : List Fraction :=
  t.splits.map fun s => s.src.fraction

/-- The accounts of a file under a root that was put above its top-level accounts. -/
def rootedWith (accounts : List ExportAccount) : Option Guid → List ExportAccount
  | none => accounts
  | some root => rootAcc root :: accounts.map fun acc =>
      match acc.parentGuid with
      | none => { acc with parentGuid := some root.text }
      | some _ => acc

/-- The accounts under their new identifiers. -/
def importAccounts (renamed : List (ExportAccount × Guid)) : List ImportAccount :=
  renamed.map fun r => ⟨r.2, r.1, r.1.parentGuid.map (mapRef renamed)⟩

/-- A transaction of the file, renamed; `F` holds of the new identifiers. -/
structure RenamedTxn (F : Guid → Prop) (renamed : List (ExportAccount × Guid))
    (t : ExportTransaction) (t' : ImportTransaction) : Prop where
  src : t'.src = t
  new : F t'.guid
  splits : t'.splits.map (·.src) = t.splits
  split_new : ∀ sp ∈ t'.splits, F sp.guid
  split_account : ∀ sp ∈ t'.splits, sp.accountGuid = mapRef renamed sp.src.accountGuid

theorem RenamedTxn.amounts {F : Guid → Prop} {renamed : List (ExportAccount × Guid)}
    {t : ExportTransaction} {t' : ImportTransaction} (h : RenamedTxn F renamed t t') :
    t'.amounts = t.amounts := by
  rw [ImportTransaction.amounts, ExportTransaction.amounts, ← h.splits, List.map_map]
  rfl

/-- What the loops of `performImport` make of a file: a root, new identifiers of the accounts, and
the transactions. -/
structure Renames (F : Guid → Prop) (file : ExportData) (root : Option Guid)
    (renamed : List (ExportAccount × Guid)) (txns : List ImportTransaction) : Prop where
  rooted : root.isSome = !file.accounts.any (·.accountType == "ROOT")
  root_new : ∀ g, root = some g → F g
  accounts : renamed.map Prod.fst = rootedWith file.accounts root
  accounts_new : ∀ p ∈ renamed, F p.2
  transactions : List.Forall₂ (RenamedTxn F renamed) file.transactions txns

section Rename

variable {A : ∀ {β : Type}, Stmt β → Env → Db → Bool} {s : Db} {F : Guid → Prop}
  (hF : ∀ env, (machine.assuming A).allowed uuidNew env s = true → F env.guid)

include hF

/-- A new identifier. -/
theorem swp_uuidNew {α : Type} {Q : Except Err α → Solo SqlErr Db → Prop} {k : Guid → Call α}
    (herr : ∀ e, Q (.error e) (.idle s))
    (hk : ∀ g, F g → (k g).swp (machine.assuming A) Duty.none Q (.idle s)) :
    ((exec "" uuidNew).bind k).swp (machine.assuming A) Duty.none Q (.idle s) := by
  refine swp_exec_idle herr fun env g s' ha hx => ?_
  obtain ⟨rfl, rfl⟩ := uuidNew_ok hx
  exact hk _ (hF env ha)

theorem ensureRoot_swp (accounts : List ExportAccount) :
    (ensureRoot accounts).swp (machine.assuming A) Duty.none (Yields s fun rooted =>
      ∃ root, rooted = rootedWith accounts root ∧
        root.isSome = !accounts.any (·.accountType == "ROOT") ∧ ∀ g, root = some g → F g)
      (.idle s) := by
  unfold ensureRoot
  split
  · rename_i h
    exact ⟨rfl, none, rfl, by rw [h]; rfl, fun _ h => absurd h (by simp)⟩
  · rename_i h
    refine swp_uuidNew hF (fun _ => rfl) fun g hg => ⟨rfl, some g, rfl, ?_, fun _ he => ?_⟩
    · rw [Bool.not_eq_true] at h
      rw [h]
      rfl
    · exact Option.some.inj he ▸ hg

theorem renameAccounts_swp (accounts : List ExportAccount) :
    (renameAccounts accounts).swp (machine.assuming A) Duty.none (Yields s fun renamed =>
      renamed.map Prod.fst = accounts ∧ ∀ p ∈ renamed, F p.2) (.idle s) := by
  induction accounts with
  | nil => exact ⟨rfl, rfl, fun _ h => absurd h (by simp)⟩
  | cons a as ih =>
    refine swp_uuidNew hF (fun _ => rfl) fun g hg => ?_
    refine swp_yields ih (fun _ => rfl) fun rest ⟨hrest, hnew⟩ => ⟨rfl, ?_, fun p hp => ?_⟩
    · rw [List.map_cons, hrest]
    · rcases List.mem_cons.mp hp with rfl | hp
      · exact hg
      · exact hnew p hp

theorem renameSplits_swp (renamed : List (ExportAccount × Guid)) (splits : List ExportSplit) :
    (renameSplits renamed splits).swp (machine.assuming A) Duty.none (Yields s fun ss =>
      ss.map (·.src) = splits ∧ (∀ sp ∈ ss, F sp.guid) ∧
        ∀ sp ∈ ss, sp.accountGuid = mapRef renamed sp.src.accountGuid) (.idle s) := by
  induction splits with
  | nil => exact ⟨rfl, rfl, fun _ h => absurd h (by simp), fun _ h => absurd h (by simp)⟩
  | cons sp splits ih =>
    refine swp_uuidNew hF (fun _ => rfl) fun g hg => ?_
    refine swp_yields ih (fun _ => rfl) fun rest ⟨hrest, hnew, hacc⟩ =>
      ⟨rfl, by rw [List.map_cons, hrest], fun q hq => ?_, fun q hq => ?_⟩
    · rcases List.mem_cons.mp hq with rfl | hq
      · exact hg
      · exact hnew q hq
    · rcases List.mem_cons.mp hq with rfl | hq
      · rfl
      · exact hacc q hq

theorem renameTransactions_swp (renamed : List (ExportAccount × Guid))
    (txns : List ExportTransaction) :
    (renameTransactions renamed txns).swp (machine.assuming A) Duty.none
      (Yields s fun ts => List.Forall₂ (RenamedTxn F renamed) txns ts) (.idle s) := by
  induction txns with
  | nil => exact ⟨rfl, .nil⟩
  | cons t txns ih =>
    refine swp_uuidNew hF (fun _ => rfl) fun g hg => ?_
    refine swp_yields (renameSplits_swp hF renamed t.splits) (fun _ => rfl)
      fun ss ⟨hss, hnew, hacc⟩ => ?_
    exact swp_yields ih (fun _ => rfl) fun ts hts =>
      ⟨rfl, .cons ⟨rfl, hg, hss, hnew, hacc⟩ hts⟩

/-- **The rule of `performImport`**: it renames the file, then replaces the book. -/
theorem performImport_swp {book : Guid} {file : ExportData}
    {Q : Except Err Unit → Solo SqlErr Db → Prop} (herr : ∀ e, Q (.error e) (.idle s))
    (hk : ∀ root renamed txns, Renames F file root renamed txns →
      (replaceBook book (importAccounts renamed) txns).swp (machine.assuming A) Duty.none Q
        (.idle s)) :
    (performImport book file).swp (machine.assuming A) Duty.none Q (.idle s) := by
  refine swp_yields (ensureRoot_swp hF file.accounts) herr fun rooted ⟨root, hr, hsome, hg⟩ => ?_
  refine swp_yields (renameAccounts_swp hF rooted) herr fun renamed ⟨hren, hnew⟩ => ?_
  refine swp_yields (renameTransactions_swp hF renamed file.transactions) herr fun txns ht => ?_
  exact hk root renamed txns ⟨hsome, hg, hren.trans hr, hnew, ht⟩

end Rename

/-- While transactions are inserted: the keys of those that are left are still to come. -/
structure Keyed (v : Db) (txns xs : List ImportTransaction) (w : Db) : Prop where
  keys : w.journal.keys ++ xs.map (·.guid) = v.journal.keys ++ txns.map (·.guid)
  nodup : w.journal.keys.Nodup
  entries : w.journal.entries = v.journal.entries
  staged : w.staged = v.staged
  snapshots : w.snapshots = v.snapshots

/-- While splits are inserted: the entries of those that are left are still to come. -/
structure Entered (v : Db) (all xs : List (Guid × ImportSplit)) (w : Db) : Prop where
  keys : w.journal.keys = v.journal.keys
  entries : w.journal.entries ++ xs.map (fun p => (p.1, p.2.src.fraction)) =
    v.journal.entries ++ all.map fun p => (p.1, p.2.src.fraction)
  staged : w.staged = v.staged
  snapshots : w.snapshots = v.snapshots

theorem Keyed.step {book : Guid} {v w w' : Db} {txns xs : List ImportTransaction}
    {t : ImportTransaction} {env : Env} (h : Keyed v txns (t :: xs) w)
    (hx : (insertImportTransaction book t).sem env w = .ok ((), w')) : Keyed v txns xs w' := by
  obtain ⟨post, -, hx⟩ := ok_bind (ok_of_failing hx)
  obtain ⟨enter, -, hx⟩ := ok_bind hx
  obtain ⟨w'', hi, hx⟩ := ok_bind hx
  obtain ⟨-, rfl⟩ := Prod.mk.inj (Except.ok.inj hx)
  obtain ⟨⟨hnew, -⟩, rfl⟩ := Db.insertTransaction_ok hi
  refine ⟨?_, ?_, h.entries, h.staged, h.snapshots⟩
  · rw [← h.keys]
    simp [Db.journal]
  · have hn := h.nodup
    simp only [Db.journal, List.map_append, List.map_singleton] at hn ⊢
    refine List.nodup_append.mpr ⟨hn, List.nodup_singleton _, fun k hk k' hk' heq => ?_⟩
    obtain rfl := List.mem_singleton.mp hk'
    obtain ⟨t', ht', he⟩ := List.mem_map.mp hk
    have := List.any_eq_false.mp hnew t' ht'
    exact this (by simp [he, heq])

theorem Entered.step {v w w' : Db} {all xs : List (Guid × ImportSplit)} {p : Guid × ImportSplit}
    {env : Env} (h : Entered v all (p :: xs) w)
    (hx : (insertImportSplit p.1 p.2).sem env w = .ok ((), w')) : Entered v all xs w' := by
  obtain ⟨g, -, hx⟩ := ok_bind (ok_of_failing hx)
  obtain ⟨w'', hi, hx⟩ := ok_bind hx
  obtain ⟨-, rfl⟩ := Prod.mk.inj (Except.ok.inj hx)
  obtain ⟨-, rfl⟩ := Db.insertSplit_ok hi
  refine ⟨h.keys, ?_, h.staged, h.snapshots⟩
  rw [← h.entries]
  simp [Db.journal, Split.fraction, ExportSplit.fraction]

/-- **Keys, then entries: a posting.** -/
theorem ledger_of_entered {v w u : Db} {txns : List ImportTransaction} (h : Ledger v)
    (hk : Keyed v txns [] w)
    (he : Entered w (txns.flatMap fun t => t.splits.map (Prod.mk t.guid)) [] u)
    (hb : ∀ t ∈ txns, Balances t.amounts) : Ledger u := by
  have hj : u.journal = v.journal.post (txns.map fun t => (t.guid, t.amounts)) := by
    have hkeys : u.journal.keys = v.journal.keys ++ txns.map (·.guid) := by
      rw [he.keys, ← hk.keys, List.map_nil, List.append_nil]
    have hent := he.entries
    rw [List.map_nil, List.append_nil, hk.entries] at hent
    have hgroups : (txns.flatMap fun t => t.splits.map (Prod.mk t.guid)).map
        (fun p => (p.1, p.2.src.fraction)) =
          (txns.map fun t => (t.guid, t.amounts)).flatMap fun g => g.2.map (Prod.mk g.1) := by
      rw [List.map_flatMap, List.flatMap_map]
      congr 1
      funext t
      simp [ImportTransaction.amounts]
    calc u.journal = ⟨u.journal.keys, u.journal.entries⟩ := rfl
      _ = v.journal.post (txns.map fun t => (t.guid, t.amounts)) := by
        rw [hkeys, hent, hgroups]
        simp [Journal.post]
  refine ⟨?_, ?_, ?_⟩
  · rw [hj]
    refine h.sound.post ?_ fun g hg => ?_
    · rw [← hj, he.keys]
      exact hk.nodup
    · obtain ⟨t, ht, rfl⟩ := List.mem_map.mp hg
      exact hb t ht
  · rw [he.staged, hk.staged]
    exact h.cents
  · rw [he.snapshots, hk.snapshots]
    exact h.snapshots

/-- The hierarchy updates, as a batch over the accounts that have a parent. -/
theorem hierarchy_batch (book : Guid) (accounts : List ImportAccount) :
    (accounts.filterMap fun a => a.parentGuid.map (updateHierarchy book a.guid)) =
      (accounts.filterMap fun a => a.parentGuid.map (Prod.mk a.guid)).map
        fun p => updateHierarchy book p.1 p.2 := by
  rw [List.map_filterMap]
  congr 1
  funext a
  cases a.parentGuid <;> rfl

/-- The split insertions, as a batch over pairs. -/
theorem splits_batch (txns : List ImportTransaction) :
    (txns.flatMap fun t => t.splits.map (insertImportSplit t.guid)) =
      (txns.flatMap fun t => t.splits.map (Prod.mk t.guid)).map
        fun p => insertImportSplit p.1 p.2 := by
  rw [List.map_flatMap]
  congr 1
  funext t
  rw [List.map_map]
  rfl

theorem replaceBook_ledger {s : Db} {book : Guid} {accounts : List ImportAccount}
    {txns : List ImportTransaction} (h : Ledger s) (hb : ∀ t ∈ txns, Balances t.amounts) :
    (replaceBook book accounts txns).swp watched Duty.none (fun _ t => AtRest Ledger t)
      (.idle s) := by
  have herr : ∀ (e : Err) (t : Solo SqlErr Db), t.db = s → AtRest Ledger (.idle t.db) :=
    fun _ t ht => ⟨t.db, rfl, ht ▸ h⟩
  refine swp_begin (fun _ => ⟨s, rfl, h⟩) (clearBook_swp herr ?_)
  have hv := h.clearBook book
  refine swp_seq (swp_batch (J := fun _ => Ledger)
    (fun a _ env _ _ hv hx => (Amending.insertImportAccount a).ledger hv hx) hv)
    herr fun _ v hv => ?_
  rw [hierarchy_batch]
  refine swp_seq (swp_batch (J := fun _ => Ledger)
    (fun p _ env _ _ hv hx => (Amending.updateHierarchy p.1 p.2).ledger hv hx) hv)
    herr fun _ v hv => ?_
  have hroot : (restoreRoot book (rootAccountGuid accounts)).swp watched Duty.none
      (Ends s fun _ => Ledger) (.tx s v) := by
    cases rootAccountGuid accounts with
    | none => exact ⟨v, rfl, hv⟩
    | some root =>
      exact swp_exec_last (fun _ _ ht => ht) fun env _ v' hx =>
        ⟨v', rfl, (Write.setBookRoot (some root)).ledger hv hx⟩
  refine swp_seq hroot herr fun _ v hv => ?_
  refine swp_seq (swp_batch (J := Keyed v txns) (fun t _ _ _ _ hk hx => hk.step hx)
    ⟨rfl, hv.sound.nodup, rfl, rfl, rfl⟩) herr fun _ w hk => ?_
  rw [splits_batch]
  refine swp_seq (swp_batch (J := Entered w (txns.flatMap fun t => t.splits.map (Prod.mk t.guid)))
    (fun p _ _ _ _ he hx => he.step hx) ⟨rfl, rfl, rfl, rfl⟩) herr fun _ u he => ?_
  have hu : Ledger u := ledger_of_entered hv hk he hb
  exact swp_commit (fun _ _ => trivial) (fun _ => ⟨s, rfl, h⟩) ⟨u, rfl, hu⟩

/-- **An import of a file that balances keeps the ledger.** -/
theorem performImport_ledger {s : Db} {book : Guid} {file : ExportData} (h : Ledger s)
    (hb : file.Balanced) :
    (performImport book file).swp watched Duty.none (fun _ t => AtRest Ledger t) (.idle s) := by
  refine performImport_swp (F := fun _ => True) (fun _ _ => trivial) (fun _ => ⟨s, rfl, h⟩)
    fun root renamed txns hr => replaceBook_ledger h fun t ht => ?_
  obtain ⟨t₀, ht₀, hren⟩ := exists_of_forall₂ hr.transactions ht
  exact hren.amounts ▸ hb t₀ ht₀

/-- A factory reset keeps the ledger. -/
theorem handleFactoryReset_ledger {s : Db} {book : Guid} (h : Ledger s) :
    (handleFactoryReset book).swp watched Duty.none (fun _ t => Ledger t.db) (.idle s) := by
  have hclear : (inTx "failed to start transaction" do
      exec "failed to clear book root" (setBookRoot book none)
      exec "failed to clean up splits" (deleteBookSplits book)
      exec "failed to clean up transactions" (deleteBookTransactions book)
      exec "failed to clean up accounts" (deleteBookAccounts book)
      commitTx "failed to commit transaction").swp watched Duty.none
        (fun _ t => AtRest Ledger t) (.idle s) := by
    refine swp_begin (fun _ => ⟨s, rfl, h⟩) (clearBook_swp (fun _ t ht => ⟨t.db, rfl, ht ▸ h⟩) ?_)
    exact swp_commit (fun _ _ => trivial) (fun _ => ⟨s, rfl, h⟩) ⟨_, rfl, h.clearBook book⟩
  refine swp_bind (swp_mono (fun r t ht => ?_) hclear)
  obtain ⟨v, rfl, hv⟩ := ht
  cases r with
  | error e => exact hv
  | ok _ =>
    exact swp_of_keeps (Issues.quiet seedUserBook_issues)
      (fun _ _ _ _ _ hq hv hx => Quiet.ledger hq hv hx) hv

end Antimoney
