import Antimoney.Ledger.Loops
import Antimoney.Restore.Rows

/-!
# What an event does to the ledger

An event changes the accounts, transactions and splits by a few kinds of steps. `Effect` says once
what each kind of step does and which events take it, with what the event was given; `Leads` chains
the steps of one event. An invariant of the server is then a case analysis over `Effect`.

* **`event_leads`**: every event does nothing else.
* **`Runs.by_effects`**: what holds of the empty database and is kept by each effect holds in every
  state of the server.
-/

namespace Antimoney

open Antimoney.Lib Antimoney.Gnc Prog

/-! ## What an event is given -/

/-- The file an event imports, with the book it replaces: an upload, or what a snapshot holds. -/
def Event.file (e : Event) (db : Db) : Option (Guid × ExportData) :=
  match e with
  | .request _ book (.importJson (some file)) => some (book, file)
  | .request _ book (.importGnuCash (some file)) => some (book, file)
  | .request _ book (.restoreSnapshot id) =>
    (db.snapshots.find? fun s => id.parse == .ok s.id && s.bookGuid == book).map fun s =>
      (book, s.data)
  | _ => none

/-- The transactions an event asks for: of a request body, of a CSV row, of a row the bank
reported. -/
inductive Event.Requests : Event → Guid → CreateTransactionRequest → Prop
  | body (cfg : PlaidConfig) (book : Guid) (req : CreateTransactionRequest) :
      Requests (.request cfg book (.createTransaction req)) book req.fromBody
  | csv (cfg : PlaidConfig) (book : Guid) (account : GuidText) (rs : List CsvRow) (r : CsvRow) :
      Requests (.request cfg book (.importCsv account (.rows rs))) book (r.request account)
  | bank (cfg : PlaidConfig) (book : Guid) (rows : List ImportRow) (row : ImportRow) (bank : Guid)
      (st : Staged) (hst : st.amountDenom = 100) :
      Requests (.request cfg book (.plaidImport rows)) book (importRequest row bank st)

/-- The events that reconcile splits. -/
def Event.reconciles : Event → Bool
  | .request _ _ (.batchReconcile _) | .request _ _ (.reconcileAccount _) => true
  | _ => false

/-- No identifier the event is supplied is one that the file it imports mentions. -/
def Event.spares {β : Type} (e : Event) (s : Db) (_ : Stmt β) (env : Env) (_ : Db) : Bool :=
  (e.file s).all fun f => !f.2.mentions env.guid

/-! ## Effects -/

/-- The accounts, transactions and splits are the same. -/
structure SameLedger (x y : Db) : Prop where
  accounts : y.accounts = x.accounts
  transactions : y.transactions = x.transactions
  splits : y.splits = x.splits

/-- One change of the accounts, transactions and splits, by an event that met `s`. -/
inductive Effect (e : Event) (s x : Db) : Db → Prop
  | aside {y : Db} (h : Aside x y) : Effect e s x y
  | account {a : Account} (hnew : x.hasAccount a.guid = false)
      (hp : x.refOk a.parentGuid = true) : Effect e s x (x.append [a] [] [])
  | drop {c : Account → Bool} {n : Nat} {y : Db} (h : x.deleteAccounts c = .ok (n, y)) :
      Effect e s x y
  | delete (c : Transaction → Bool) : Effect e s x (x.deleteTransactions c).2
  | clear (book : Guid) : Effect e s x (x.clearBook book)
  | update {cfg : PlaidConfig} {book g : Guid} {id : GuidText} {req : UpdateAccountRequest}
      {p : Option Guid} {now : Time} (he : e = .request cfg book (.updateAccount id req))
      (hx : x = s) (hg : id.parse = .ok g) (hp : parseRef req.parentGuid = .ok p)
      (hhit : x.accounts.any (atVersion g book req.version) = true) (href : x.refOk p = true) :
      Effect e s x { x with
        accounts := updateWhere (atVersion g book req.version) (req.apply p now) x.accounts }
  | toggle {cfg : PlaidConfig} {book g : Guid} {split : GuidText} {state : String}
      (he : e = .request cfg book (.toggleAcknowledge split state)) (hx : x = s)
      (hg : split.parse = .ok g) (hst : state = "n" ∨ state = "c") :
      Effect e s x (setReconcileState book state (·.guid == g) x).2
  | reconcile {book : Guid} {c : Split → Bool} (he : e.reconciles = true) :
      Effect e s x (setReconcileState book "y" c x).2
  | create {book : Guid} {req : CreateTransactionRequest} {t : Transaction} {rows : List Split}
      (he : e.Requests book req) (hfresh : x.Fresh [t]) (hc : Created book req [] t rows)
      (hopen : ∀ row ∈ rows, x.Open book row.accountGuid) : Effect e s x (x.append [] [t] rows)
  | edit {cfg : PlaidConfig} {book guid : Guid} {id : GuidText} {req : UpdateTransactionRequest}
      {rows : List Split} {y : Db} (he : e = .request cfg book (.updateTransaction id req))
      (hfound : x.transactions.any (isTransaction guid book) = true) (hc : Chosen req guid rows)
      (hu : Updates book guid x.splits rows x y)
      (hopen : ∀ row ∈ rows, x.Open book row.accountGuid) : Effect e s x y
  | restore {book top : Guid} {file : ExportData} {root : Option Guid}
      {renamed : List (ExportAccount × Guid)} {txns : List ImportTransaction} {as : List Account}
      {ts : List Transaction} {ss : List Split} (he : e.file s = some (book, file))
      (hx : SameLedger s x) (h : Lands x book file root renamed txns as ts ss) :
      Effect e s x ((x.clearBook book).refill book top as ts ss)

/-- What every statement keeps: the keys, and staged amounts in cents. -/
structure Db.Stocked (db : Db) : Prop where
  keyed : db.Keyed
  cents : db.Cents

/-- The states an event passes on its way from `s`. -/
inductive Leads (e : Event) (s : Db) : Db → Prop
  | start (h : s.Stocked) : Leads e s s
  | step {x y : Db} (h : Leads e s x) (he : Effect e s x y) (hy : y.Stocked) : Leads e s y

theorem Leads.stocked {e : Event} {s x : Db} (h : Leads e s x) : x.Stocked := by
  cases h with
  | start h => exact h
  | step _ _ h => exact h

/-- What each effect keeps holds on the way. -/
theorem Leads.invariant {e : Event} {s x : Db} {I : Db → Prop} (h : Leads e s x) (h0 : I s)
    (hI : ∀ x y, x.Keyed → y.Keyed → I x → Effect e s x y → I y) : I x := by
  induction h with
  | start _ => exact h0
  | step hx he hy ih => exact hI _ _ hx.stocked.keyed hy.keyed ih he

/-! ## Statements -/

section Statements

variable {book : Guid} {env : Env} {v v' : Db}

theorem Amending.cents {β : Type} {q : Stmt β} {b : β} (hq : Amending book q) (h : v.Cents)
    (hx : q.sem env v = .ok (b, v')) : v'.Cents := by
  have hw := q.write_self hx
  cases hq with
  | toggleSplit s st | reconcileSplit s | reconcileAccounts as =>
    obtain ⟨_, -, hx⟩ := ok_bind (ok_of_failing hx)
    obtain rfl := congrArg Prod.snd (Except.ok.inj hx)
    exact h
  | insertImportAccount a =>
    obtain ⟨v'', hi, hx⟩ := ok_bind (ok_of_failing hx)
    obtain ⟨-, rfl⟩ := Prod.mk.inj (Except.ok.inj hx)
    obtain ⟨-, rfl⟩ := Db.insertAccount_ok hi
    exact h
  | updateAccount a r n =>
    obtain ⟨g, p, -, -, rfl⟩ := updateAccountStmt_sem hx
    exact h
  | updateHierarchy a p =>
    obtain ⟨q, -, rfl⟩ := updateHierarchy_ok hw
    exact h

theorem Posting.cents {β : Type} {q : Stmt β} {b : β} (hq : Posting book q) (h : v.Cents)
    (hx : q.sem env v = .ok (b, v')) : v'.Cents := by
  have hw := q.write_self hx
  cases hq with
  | insertTransaction t hb =>
    rw [(insertTransactionStmt_adds hw).eq]
    exact h
  | insertSplit a s =>
    obtain ⟨g, rfl⟩ := insertSplitStmt_ok hw
    exact h
  | updateTransaction t c p d n =>
    rw [updateTransactionStmt_ok hw]
    exact h
  | deleteSplitsOf t =>
    rw [deleteSplitsOf_ok hw]
    exact h
  | deleteBookSplits =>
    rw [deleteBookSplits_ok hw]
    exact h
  | deleteBookTransactions =>
    rw [deleteBookTransactions_ok hw]
    exact h
  | insertImportTransaction t =>
    obtain ⟨_, _, _, -, -, rfl⟩ := insertImportTransaction_ok hw
    exact h
  | insertImportSplit t s =>
    obtain ⟨_, _, -, rfl⟩ := insertImportSplit_ok hw
    exact h
  | insertSnapshot l t d =>
    rw [insertSnapshotStmt_ok hw]
    exact h

theorem Issued.stocked {β : Type} {q : Stmt β} {b : β} (hq : Issued book q) (h : v.Stocked)
    (hx : q.sem env v = .ok (b, v')) : v'.Stocked := by
  refine ⟨hq.keyed h.keyed hx, ?_⟩
  rcases hq with (hq | hq) | hq
  · rcases hq.reads_or_write with hr | hw
    · exact (hr.sem hx).symm ▸ h.cents
    · exact (hw.touches hx).cents h.cents
  · exact hq.cents h.cents hx
  · exact hq.cents h.cents hx

variable {e : Event} {s : Db}

theorem Touches.effect (h : Touches v v') : Effect e s v v' := by
  cases h with
  | aside h => exact .aside h
  | @account a _ h =>
    obtain ⟨⟨hnew, -, hp⟩, rfl⟩ := Db.insertAccount_ok h
    have happend : Effect e s v (v.append [{ a with plaid := none }] [] []) := .account hnew hp
    simpa [Db.append] using happend
  | drop h => exact .drop h
  | delete c => exact .delete c

theorem Steady.leads {β : Type} {q : Stmt β} {b : β} (hq : Steady book q) (h : Leads e s v)
    (hx : q.sem env v = .ok (b, v')) : Leads e s v' := by
  have hv' := Issued.stocked (.inl hq.quiet) h.stocked hx
  rcases hq.reads_or_write with hr | hw
  · exact (hr.sem hx).symm ▸ h
  · exact h.step (hw.touches hx).touches.effect hv'

end Statements

/-! ## Calls -/

/-- The database, where the environment spares the identifiers of the file `e` imports at `s`. -/
abbrev sparing (e : Event) (s : Db) : Machine Stmt SqlErr Env Lock Db :=
  machine.assuming fun q env v => e.spares s q env v

section Calls

variable {α : Type} {e : Event} {s v : Db} {book : Guid}

/-- A call of statements that go on from a state on the way goes on too. -/
theorem leads_of_issues {P : StmtClass Stmt} {p : Call α} (hp : p.Issues P)
    (hP : ∀ {γ : Type} (q : Stmt γ) (env : Env) (v v' : Db) (b : γ), P q → Leads e s v →
      q.sem env v = .ok (b, v') → Leads e s v') (h : Leads e s v) :
    p.swp (sparing e s) Duty.none (fun _ t => Leads e s t.db) (.idle v) := by
  have hswp : p.swp machine Duty.none (fun _ t => t.Holds (Leads e s)) (.idle v) :=
    swp_of_issues hp (fun q env v v' b hq hv _ hx => hP q env v v' b hq hv hx) (Solo.holds_idle h)
  exact swp_assuming (swp_mono (fun _ _ ht => ht.1) hswp)

/-- A call of steady statements. -/
theorem leads_of_steady {p : Call α} (hp : p.Issues (Steady book)) (h : Leads e s v) :
    p.swp (sparing e s) Duty.none (fun _ t => Leads e s t.db) (.idle v) :=
  leads_of_issues hp (fun _ _ _ _ _ hq hv hx => hq.leads hv hx) h

/-- What the statements of a call keep holds of the state it leaves. -/
theorem stocked_swp {p : Call α} (hp : p.Issues (Issued book)) (h : v.Stocked) :
    p.swp (sparing e s) Duty.none (fun _ t => t.db.Stocked) (.idle v) := by
  have hswp : p.swp machine Duty.none (fun _ t => t.Holds Db.Stocked) (.idle v) :=
    swp_of_issues hp (fun _ _ _ _ _ hq hv _ hx => hq.stocked hv hx) (Solo.holds_idle h)
  exact swp_assuming (swp_mono (fun _ _ ht => ht.1) hswp)

/-- A body that issues such statements ends outside a transaction. -/
theorem atRest_of_body {P : StmtClass Stmt} {I : Db → Prop} {p : Call α} (hp : p.Issues P)
    (hb : p.Body)
    (hP : ∀ {γ : Type} (q : Stmt γ) (env : Env) (v v' : Db) (b : γ), P q → I v →
      q.sem env v = .ok (b, v') → I v') (h : I v) :
    p.swp (sparing e s) Duty.none (fun _ t => AtRest I t) (.idle v) := by
  have hswp : p.swp machine Duty.none (fun _ t => t.Holds I) (.idle v) :=
    swp_of_issues hp (fun q env v v' b hq hv _ hx => hP q env v v' b hq hv hx) (Solo.holds_idle h)
  refine swp_assuming (swp_mono (fun r t ht => ?_) (swp_and hswp (swp_body hb rfl)))
  obtain ⟨hI, hw⟩ := ht
  obtain ⟨x, w⟩ := t
  obtain rfl : w = none := hw
  exact ⟨x, rfl, hI.1⟩

/-! ### Accounts and states -/

theorem updateAccount_leads {cfg : PlaidConfig} {id : GuidText} {req : UpdateAccountRequest}
    (he : e = .request cfg book (.updateAccount id req)) (h : s.Stocked) :
    (updateAccount book id req).swp (sparing e s) Duty.none (fun _ t => Leads e s t.db)
      (.idle s) := by
  have hs : Leads e s s := .start h
  refine swp_read_idle (Stmt.reads_askEnv _) (fun _ => hs) fun _ now _ => ?_
  refine swp_exec_idle (fun _ => hs) fun env n v _ hx => ?_
  have hv : Leads e s v := by
    have hstocked := Issued.stocked (.inl (.inr (.updateAccount id req now))) h hx
    rcases updateAccountStmt_cases hx with rfl | ⟨g, p, hg, hp, hhit, href, rfl⟩
    · exact hs
    · exact hs.step (.update he rfl hg hp hhit href) hstocked
  split
  · have hexists : ByBook book (accountExistsStmt id book) := .accountExists id
    refine leads_of_steady (issues_reply hexists.steady fun r => ?_) hv
    split <;> trivial
  · exact leads_of_steady (Issues.steady (getAccount_issues id)) hv

theorem toggleSplitAcknowledge_leads {cfg : PlaidConfig} {split : GuidText} {state : String}
    (he : e = .request cfg book (.toggleAcknowledge split state)) (h : s.Stocked) :
    (toggleSplitAcknowledge book split state).swp (sparing e s) Duty.none
      (fun _ t => Leads e s t.db) (.idle s) := by
  have hs : Leads e s s := .start h
  unfold toggleSplitAcknowledge
  split
  · exact hs
  · rename_i hst
    have hst' : state = "n" ∨ state = "c" := by
      by_contra hne
      exact hst (by simpa using hne)
    refine swp_exec_idle (fun _ => hs) fun env n v _ hx => ?_
    have hv : Leads e s v := by
      have hstocked := Issued.stocked (.inl (.inr (.toggleSplit split state))) h hx
      obtain ⟨g, hg, hx⟩ := ok_bind (ok_of_failing hx)
      obtain rfl := congrArg Prod.snd (Except.ok.inj hx)
      exact hs.step (.toggle he rfl hg hst') hstocked
    split <;> exact hv

theorem Reconciling.leads {β : Type} {q : Stmt β} {env : Env} {v' : Db} {b : β}
    (he : e.reconciles = true) (hq : Reconciling book q) (h : Leads e s v)
    (hx : q.sem env v = .ok (b, v')) : Leads e s v' := by
  have hstocked := Issued.stocked (.inl (.inr hq.amending)) h.stocked hx
  cases hq with
  | reconcileSplit g | reconcileAccounts gs =>
    obtain ⟨_, -, hx⟩ := ok_bind (ok_of_failing hx)
    obtain rfl := congrArg Prod.snd (Except.ok.inj hx)
    exact h.step (.reconcile he) hstocked

/-! ### Transactions -/

theorem Db.Stocked.grow (h : v.Stocked) {a : Account} (hnew : v.hasAccount a.guid = false)
    (hp : v.refOk a.parentGuid = true) : (v.append [a] [] []).Stocked := by
  refine ⟨?_, h.cents⟩
  simpa [Db.append] using h.keyed.addAccount hnew hp

theorem Leads.grow {as : List Account} (h : Leads e s v) (hg : v.Grows as) :
    Leads e s (v.append as [] []) := by
  induction as generalizing v with
  | nil => simpa using h
  | cons a as ih =>
    obtain ⟨⟨hnew, hp⟩, hg⟩ := hg
    have h' := ih (h.step (.account hnew hp) (h.stocked.grow hnew hp)) hg
    simpa using h'

theorem createTransaction_leads {req : CreateTransactionRequest} (he : e.Requests book req)
    (h : Leads e s v) :
    (createTransaction book req).swp (sparing e s) Duty.none (fun _ t => AtRest (Leads e s) t)
      (.idle v) := by
  have hwrite : (createTransaction book req).swp (sparing e s) Duty.none
      (fun _ t => ∃ w, t = .idle w ∧ (w.Stocked → Leads e s w)) (.idle v) := by
    refine swp_assuming (createTransaction_alone (fun _ => ⟨v, rfl, fun _ => h⟩) ?_)
    intro as t rows w hc ha hopen _
    refine ⟨w, rfl, fun hw => ?_⟩
    have hrows : w = (v.append as [] []).append [] [t] rows := by simp [ha.eq]
    have hfresh : (v.append as [] []).Fresh [t] := by
      simpa [Db.Fresh, Db.hasTransaction, Db.plaidTxnTaken, Db.append] using ha.fresh
    rw [hrows] at hw ⊢
    exact (h.grow ha.grows).step (.create he hfresh
      ⟨hc.inBook, hc.plaid, hc.postDate, .inl rfl, hc.rows⟩ hopen) hw
  refine swp_mono (fun r t ht => ?_)
    (swp_and hwrite (stocked_swp (createTransaction_issues req) h.stocked))
  obtain ⟨⟨w, rfl, hw⟩, hs⟩ := ht
  exact ⟨w, rfl, hw hs⟩

theorem updateTransaction_leads {cfg : PlaidConfig} {id : GuidText} {req : UpdateTransactionRequest}
    (he : e = .request cfg book (.updateTransaction id req)) (h : Leads e s v) :
    (updateTransaction book id req).swp (sparing e s) Duty.none (fun _ t => AtRest (Leads e s) t)
      (.idle v) := by
  have hwrite : (updateTransaction book id req).swp (sparing e s) Duty.none
      (fun _ t => ∃ w, t = .idle w ∧ (w.Stocked → Leads e s w)) (.idle v) := by
    refine swp_assuming (updateTransaction_alone (fun _ => ⟨v, rfl, fun _ => h⟩) ?_)
    intro guid version rows w hfound hc hu hopen
    exact ⟨w, rfl, fun hw => h.step (.edit he hfound hc hu hopen) hw⟩
  refine swp_mono (fun r t ht => ?_)
    (swp_and hwrite (stocked_swp (updateTransaction_issues id req) h.stocked))
  obtain ⟨⟨w, rfl, hw⟩, hs⟩ := ht
  exact ⟨w, rfl, hw hs⟩

theorem deleteStaged_leads (id : String) (v : Db) (h : Leads e s v) :
    (deleteStaged book id).swp (sparing e s) Duty.none (fun _ t => AtRest (Leads e s) t)
      (.idle v) :=
  deleteStaged_atRest (fun _ _ _ h hx => (ByBook.deleteStaged id).steady.leads h hx) h

/-! ### Snapshots, imports and resets -/

theorem SameLedger.trans {x y z : Db} (h : SameLedger x y) (h' : SameLedger y z) :
    SameLedger x z :=
  ⟨h'.accounts.trans h.accounts, h'.transactions.trans h.transactions, h'.splits.trans h.splits⟩

/-- A snapshot leaves the ledger as it is. -/
theorem Snapshotting.same {β : Type} {q : Stmt β} {env : Env} {v' : Db} {b : β}
    (hq : Snapshotting book q) (hx : q.sem env v = .ok (b, v')) : SameLedger v v' := by
  have hw := q.write_self hx
  cases hq with
  | countRecent t => exact ((reads_countRecent book t).sem hx).symm ▸ ⟨rfl, rfl, rfl⟩
  | «export» hq => exact (hq.reads.sem hx).symm ▸ ⟨rfl, rfl, rfl⟩
  | rotateActive =>
    rw [rotateActive_ok hw]
    exact ⟨rfl, rfl, rfl⟩
  | insertSnapshot l t d =>
    rw [insertSnapshotStmt_ok hw]
    exact ⟨rfl, rfl, rfl⟩

/-- On the way, with the ledger as the event met it. -/
def Unmoved (e : Event) (s v : Db) : Prop := Leads e s v ∧ SameLedger s v

theorem Snapshotting.leads {β : Type} {q : Stmt β} {env : Env} {v v' : Db} {b : β}
    (hq : Snapshotting book q) (h : Leads e s v) (hx : q.sem env v = .ok (b, v')) :
    Leads e s v' := by
  obtain ⟨ha, ht, hs⟩ := hq.same hx
  exact h.step (.aside (.of_eq ha ht hs)) (hq.issued.stocked h.stocked hx)

theorem Snapshotting.unmoved {β : Type} {q : Stmt β} {env : Env} {v v' : Db} {b : β}
    (hq : Snapshotting book q) (h : Unmoved e s v) (hx : q.sem env v = .ok (b, v')) :
    Unmoved e s v' :=
  ⟨hq.leads h.1 hx, h.2.trans (hq.same hx)⟩

theorem autoBackup_unmoved {label : String} (h : Unmoved e s v) :
    (autoBackup book label).swp (sparing e s) Duty.none (fun _ t => AtRest (Unmoved e s) t)
      (.idle v) :=
  atRest_of_body (autoBackup_issues label) (autoBackup_body label)
    (fun _ _ _ _ _ hq hv hx => hq.unmoved hv hx) h

theorem performImport_leads {file : ExportData} (he : e.file s = some (book, file))
    (h : Unmoved e s v) :
    (performImport book file).swp (sparing e s) Duty.none (fun _ t => AtRest (Leads e s) t)
      (.idle v) := by
  have hwrite : (performImport book file).swp (sparing e s) Duty.none
      (fun _ t => ∃ w, t = .idle w ∧ (w.Stocked → Leads e s w)) (.idle v) := by
    refine performImport_swp (F := fun g => v.unused g = true ∧ file.mentions g = false)
      (fun env ha => ?_) (fun _ => ⟨v, rfl, fun _ => h.1⟩) fun root renamed txns hr => ?_
    · have ha' : (v.unused env.guid && (e.file s).all fun f => !f.2.mentions env.guid) = true := ha
      rw [he] at ha'
      simpa using ha'
    · obtain ⟨top, htop⟩ := hr.root_exists
      refine swp_mono (fun r t ht => ?_) (replaceBook_swp htop)
      rcases ht with ⟨_, -, rfl⟩ | ⟨as, ts, ss, -, rfl, hrep⟩
      · exact ⟨v, rfl, fun _ => h.1⟩
      · exact ⟨_, rfl, fun hw => h.1.step (.restore he h.2 ⟨hr, hrep⟩) hw⟩
  refine swp_mono (fun r t ht => ?_) (swp_and hwrite
    (stocked_swp ((performImport_issues file).mono fun _ hq => hq.issued) h.1.stocked))
  obtain ⟨⟨w, rfl, hw⟩, hs⟩ := ht
  exact ⟨w, rfl, hw hs⟩

theorem handleFactoryReset_leads (h : Leads e s v) :
    (handleFactoryReset book).swp (sparing e s) Duty.none (fun _ t => Leads e s t.db)
      (.idle v) := by
  let clearing : Call Unit := inTx "failed to start transaction" do
    exec "failed to clear book root" (setBookRoot book none)
    exec "failed to clean up splits" (deleteBookSplits book)
    exec "failed to clean up transactions" (deleteBookTransactions book)
    exec "failed to clean up accounts" (deleteBookAccounts book)
    commitTx "failed to commit transaction"
  have hclear : clearing.swp (sparing e s) Duty.none
      (fun _ t => ∃ w, t = .idle w ∧ (w.Stocked → Leads e s w)) (.idle v) := by
    refine swp_begin (fun _ => ⟨v, rfl, fun _ => h⟩)
      (clearBook_swp (fun _ t ht => ⟨t.db, rfl, fun _ => ht ▸ h⟩) ?_)
    exact swp_commit (fun _ _ => trivial) (fun _ => ⟨v, rfl, fun _ => h⟩)
      ⟨_, rfl, fun hw => h.step (.clear book) hw⟩
  have hissues : clearing.Issues (Issued book) := by
    refine issues_inTx (issues_exec (.inl (ByRef.quiet (.setBookRoot _))) fun _ => ?_)
    refine issues_exec (.inr .deleteBookSplits) fun _ => ?_
    refine issues_exec (.inr .deleteBookTransactions) fun _ => ?_
    exact issues_exec (.inl (ByBook.quiet .deleteBookAccounts)) fun _ => issues_commit
  refine swp_bind (swp_mono (fun r t ht => ?_) (swp_and hclear (stocked_swp hissues h.stocked)))
  obtain ⟨⟨w, rfl, hw⟩, hs⟩ := ht
  cases r with
  | error _ => exact hw hs
  | ok _ => exact leads_of_steady seedUserBook_issues (hw hs)

end Calls

/-! ## Events -/

/-- A restore imports the snapshot it names. -/
theorem getSnapshot_file {cfg : PlaidConfig} {book : Guid} {id : GuidText} {s : Db} :
    (getSnapshot book id).swp (sparing (.request cfg book (.restoreSnapshot id)) s) Duty.none
      (fun r t => t = .idle s ∧ ∀ snap, r = .ok snap →
        (Event.request cfg book (.restoreSnapshot id)).file s = some (book, snap.data))
      (.idle s) := by
  refine swp_read_idle (Stmt.reads_queryE _) (fun _ => ⟨rfl, fun _ h => absurd h (by simp)⟩)
    fun env r hx => ?_
  cases r with
  | none => exact ⟨rfl, fun _ h => absurd h (by simp)⟩
  | some snap =>
    refine ⟨rfl, fun snap' he => ?_⟩
    obtain rfl := Except.ok.inj he
    obtain ⟨hx, -⟩ := Stmt.queryE_ok hx
    obtain ⟨g, hg, hx⟩ := ok_bind hx
    have hfind : s.snapshots.find? (fun sn => id.parse == .ok sn.id && sn.bookGuid == book) =
        some snap := by
      rw [← show _ = some snap from Except.ok.inj hx]
      congr 1
      funext sn
      have hparse : (id.parse == .ok sn.id) = (sn.id == g) := by
        rw [hg, Bool.eq_iff_iff, beq_iff_eq, beq_iff_eq, Except.ok.injEq]
        exact eq_comm
      rw [hparse]
    simp only [Event.file, hfind, Option.map_some]

theorem leads_answer {α : Type} {e : Event} {s v : Db} {p : Call α} {f : α → Response}
    (h : p.swp (sparing e s) Duty.none (fun _ t => Leads e s t.db) (.idle v)) :
    (p.bind fun a => ret (f a)).swp (sparing e s) Duty.none (fun _ t => Leads e s t.db)
      (.idle v) := by
  refine swp_bind (swp_mono (fun r t ht => ?_) h)
  cases r <;> exact ht

theorem leads_of_rest {α : Type} {e : Event} {s v : Db} {p : Call α}
    (h : p.swp (sparing e s) Duty.none (fun _ t => AtRest (Leads e s) t) (.idle v)) :
    p.swp (sparing e s) Duty.none (fun _ t => Leads e s t.db) (.idle v) :=
  swp_mono (fun _ _ ht => ht.db) h

/-- What a request under a book does. -/
theorem request_leads (cfg : PlaidConfig) (book : Guid) (req : Request) {s : Db} (h : s.Stocked) :
    (handle cfg book req).swp (sparing (.request cfg book req) s) Duty.none
      (fun _ t => Leads (.request cfg book req) s t.db) (.idle s) := by
  have hs : ∀ req, Leads (.request cfg book req) s s := fun _ => .start h
  have hunmoved : ∀ req, Unmoved (.request cfg book req) s s := fun _ => ⟨hs _, rfl, rfl, rfl⟩
  cases hposts : req.posts with
  | false =>
    cases hamends : req.amends with
    | false => exact leads_of_steady (handle_steady cfg req hposts hamends) (hs _)
    | true =>
      cases req with
      | updateAccount id req => exact leads_answer (updateAccount_leads rfl h)
      | toggleAcknowledge split state => exact leads_answer (toggleSplitAcknowledge_leads rfl h)
      | reconcileAccount accounts =>
        simp only [handle]
        split
        · exact hs _
        · exact leads_answer (leads_of_issues (reconcileAccountSplits_issues accounts)
            (fun _ _ _ _ _ hq hv hx => hq.leads rfl hv hx) (hs _))
      | batchReconcile splits =>
        exact leads_answer (leads_of_issues (batchReconcileSplits_issues splits)
          (fun _ _ _ _ _ hq hv hx => hq.leads rfl hv hx) (hs _))
      | _ => exact absurd hamends (by simp [Request.amends])
  | true =>
    cases req with
    | createTransaction req =>
      exact leads_answer (leads_of_rest (createTransaction_leads (.body cfg book req) (hs _)))
    | updateTransaction id req =>
      exact leads_answer (leads_of_rest (updateTransaction_leads rfl (hs _)))
    | importJson file =>
      cases file with
      | none => exact hs _
      | some file => exact leads_answer (leads_of_rest (performImport_leads rfl (hunmoved _)))
    | importCsv account file =>
      simp only [handle]
      split
      · exact hs _
      · cases file with
        | invalid => exact hs _
        | noRecords => exact hs _
        | rows rs =>
          exact leads_answer (leads_of_rest (csvLoop_atRest rs (fun r _ v hv =>
            createTransaction_leads (.csv cfg book account rs r) hv) (hs _)))
    | importGnuCash file =>
      cases file with
      | none => exact hs _
      | some file =>
        refine leads_answer (swp_bind (swp_mono (fun r t ht => ?_)
          (autoBackup_unmoved (hunmoved _))))
        obtain ⟨v, rfl, hv⟩ := ht
        cases r with
        | error e => exact hv.1
        | ok _ => exact leads_of_rest (performImport_leads rfl hv)
    | factoryReset => exact leads_answer (handleFactoryReset_leads (hs _))
    | createSnapshot label =>
      exact leads_answer (leads_of_issues (takeSnapshotForBook_issues label .manual)
        (fun _ _ _ _ _ hq hv hx => hq.leads hv hx) (hs _))
    | restoreSnapshot id =>
      refine leads_answer (swp_bind (swp_mono (fun r t ht => ?_) getSnapshot_file))
      obtain ⟨rfl, hfile⟩ := ht
      cases r with
      | error e => exact hs _
      | ok snap =>
        dsimp only [Prog.ofExcept, ret_bind]
        refine swp_bind (swp_mono (fun r t ht => ?_) (autoBackup_unmoved (hunmoved _)))
        obtain ⟨v, rfl, hv⟩ := ht
        cases r with
        | error e => exact hv.1
        | ok _ => exact leads_of_rest (performImport_leads (hfile snap rfl) hv)
    | plaidImport rows =>
      simp only [handle]
      split
      · exact hs _
      · split
        · exact hs _
        · exact leads_answer (leads_of_rest (importLoop_atRest (fun _ hv => hv.stocked.cents)
            deleteStaged_leads (fun row bank st hst v hv =>
              createTransaction_leads (.bank cfg book rows row bank st hst) hv) _ rows (hs _)))
    | _ => exact absurd hposts (by simp [Request.posts])

/-- **What an event does** is a chain of effects. -/
theorem event_leads (e : Event) {s : Db} (h : s.Stocked) :
    e.call.swp (sparing e s) Duty.none (fun _ t => Leads e s t.db) (.idle s) := by
  cases e with
  | request cfg book req => exact request_leads cfg book req h
  | signUp email name =>
    refine leads_of_issues (issues_answer (registerUser_issues email name)) ?_ (.start h)
    rintro _ q env v v' b ⟨book, hq⟩ hv hx
    exact hq.leads hv hx
  | scheduled book label trigger =>
    exact leads_answer (leads_of_issues (takeSnapshotForBook_issues label trigger)
      (fun _ _ _ _ _ hq hv hx => hq.leads hv hx) (.start h))
  | purge =>
    exact leads_answer (leads_of_issues (P := fun q => Steady 0 q) (issues_sql (ByRef.steady .purge))
      (fun _ _ _ _ _ hq hv hx => hq.leads hv hx) (.start h))

/-! ## Runs -/

theorem Db.stocked_empty : Db.empty.Stocked :=
  ⟨Db.keyed_empty, fun _ h => absurd h (by simp [Db.empty])⟩

/-- Statements keep the keys and the cents along every run. -/
theorem Runs.stocked {ok : Event → (Nat → Env) → Db → Prop} {db : Db} (hr : Runs ok db) :
    db.Stocked := by
  refine hr.invariant Db.stocked_empty fun e envs db h ha _ => ?_
  have hswp : e.call.swp machine Duty.none (fun _ t => t.Holds Db.Stocked) (.idle db) :=
    swp_of_issues (event_issued e) (fun q env v v' b ⟨book, hq⟩ hv _ hx => hq.stocked hv hx)
      (Solo.holds_idle h)
  exact (run_of_swp hswp ha).1

/-- The identifiers generated during the event are not ones the file it imports mentions. -/
def Spared (e : Event) (envs : Nat → Env) (db : Db) : Prop :=
  ∀ book file, e.file db = some (book, file) → ∀ n, file.mentions (envs n).guid = false

/-- The state an event leaves is one on its way. -/
theorem serve_leads {e : Event} {envs : Nat → Env} {db : Db} (h : db.Stocked)
    (ha : mayServe e.call envs db = true) (hs : Spared e envs db) :
    Leads e db (serve e.call envs db).2 := by
  have hspares : ∀ {β : Type} (q : Stmt β) n v, e.spares db q (envs n) v = true := by
    intro β q n v
    cases hf : e.file db with
    | none => simp [Event.spares, hf]
    | some f => simp [Event.spares, hf, hs f.1 f.2 hf n]
  have hrun := run_of_swp (event_leads e h) (runAllowed_assuming hspares ha)
  rw [run_assuming] at hrun
  exact hrun

/-- **The run lemma of effects.** What holds of the empty database and is kept by each effect of an
event that meets a good state holds in every state of the server. -/
theorem Runs.by_effects {ok : Event → (Nat → Env) → Db → Prop} {I : Db → Prop}
    (hspared : ∀ e envs db, ok e envs db → Spared e envs db) (h0 : I Db.empty)
    (hI : ∀ e envs s, ok e envs s → s.Keyed → I s →
      ∀ x y, x.Keyed → y.Keyed → I x → Effect e s x y → I y)
    {db : Db} (hr : Runs ok db) : I db := by
  induction hr with
  | empty => exact h0
  | step e envs hr ha hok ih =>
    exact (serve_leads hr.stocked ha (hspared _ _ _ hok)).invariant ih
      (hI e envs _ hok hr.stocked.keyed ih)

end Antimoney
