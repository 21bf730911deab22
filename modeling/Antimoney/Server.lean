import Antimoney.Handlers.ImportExport
import Antimoney.Plaid.Service

/-!
# The server

The routes of `cmd/server/main.go` with the checks of their handlers: what a request under a book
does (`handle`), and the states the server reaches by serving requests one after the other
(`Runs`). Status codes are left out; an error keeps what its message is made from.
-/

namespace Antimoney

open Antimoney.Lib

/-- What a CSV upload is to `handleCSVImport`: unreadable, a header at most, or rows. -/
inductive CsvFile where
  | invalid
  | noRecords
  | rows (rs : List CsvRow)
  deriving DecidableEq, Repr

/-- A request, made under a book. A file is what its parser made of it, `none` if refused. -/
inductive Request where
  | listAccounts (start stop : Option (Option Time))
  | createAccount (req : CreateAccountRequest)
  | getAccount (id : GuidText)
  | updateAccount (id : GuidText) (req : UpdateAccountRequest)
  | deleteAccount (id : GuidText)
  | register (id : GuidText)
  | registerPage (id : GuidText) (cursor : PageCursor) (direction : Direction) (limit : Int)
  | reconciledBalance (id : GuidText)
  | reconcileAccount (accounts : List GuidText)
  | listTransactions (limit offset : Int)
  | createTransaction (req : CreateTransactionRequest)
  | getTransaction (id : GuidText)
  | updateTransaction (id : GuidText) (req : UpdateTransactionRequest)
  | deleteTransaction (id : GuidText)
  | batchReconcile (splits : List GuidText)
  | toggleAcknowledge (split : GuidText) (state : String)
  | importJson (file : Option ExportData)
  | importCsv (account : GuidText) (file : CsvFile)
  | importGnuCash (file : Option ExportData)
  | exportBook
  | factoryReset
  | getConfig
  | putConfig (frequencyHours ttlHours : Int) (activeMode : Bool)
  | listSnapshots
  | createSnapshot (label : String)
  | getSnapshot (id : GuidText)
  | restoreSnapshot (id : GuidText)
  | deleteSnapshot (id : GuidText)
  | getBook
  | plaidExchange
  | plaidLink (item : GuidText) (mappings : List AccountMapping) (importPending : Bool)
  | plaidSync (item : GuidText)
  | plaidImport (rows : List ImportRow)
  | plaidDismiss (ids : List String)
  | plaidDisconnect (item : GuidText)
  | plaidItems
  deriving DecidableEq, Repr

/-- The body of a successful answer. -/
inductive Response where
  | done
  | createdAccount (a : Account) (parent : Option GuidText)
  | account (a : Account)
  | accounts (rows : List AccountBalance)
  | register (entries : List RegisterEntry)
  | registerPage (page : RegisterPage)
  | balance (q : ℚ)
  | count (n : Nat)
  | createdTransaction (t : Transaction) (splits : List Split)
  | updatedTransaction (t : Guid) (version : Nat) (splits : List Split)
  | transaction (t : TransactionView)
  | transactions (ts : List TransactionView)
  | exported (data : ExportData)
  | config (c : SnapshotConfig)
  | snapshots (ss : List SnapshotSummary)
  | snapshot (s : Snapshot)
  | taken (s : SnapshotSummary)
  | book (b : Book)
  | exchanged (r : ExchangeResult)
  | synced (r : SyncResult)
  | imported (r : ImportResult) (interrupted : Option Err)
  | items (is : List ListItem)
  | signedUp (user book : Guid)
  deriving DecidableEq, Repr

/-- `isUUID`. -/
def isUUID : GuidText → Bool
  | .uuid _ _ => true
  | .malformed _ => false

/-- `maxLinkMappings`. -/
def maxLinkMappings : Nat := 100

/-- `maxImportRows`. -/
def maxImportRows : Nat := 500

/-- The fields tagged `json:"-"` never come from a body. -/
def CreateTransactionRequest.fromBody (req : CreateTransactionRequest) :
    CreateTransactionRequest :=
  { req with
    plaidTxnId := none
    splits := req.splits.map fun sp => { sp with reconcileState := "" } }

/-- `SELECT guid, root_account_guid FROM books WHERE guid = $1`. -/
def selectBook (book : Guid) : Stmt (Option Book) :=
  .query fun db => db.books.find? (·.guid == book)

/-- A request the handler refuses. -/
def refuse {α : Type} (text : String) : Call α := .fail (.message text)

/-- What the server does with a request under a book. -/
def handle (cfg : PlaidConfig) (book : Guid) : Request → Call Response
  | .listAccounts start stop => return .accounts (← listAccountsTree book start stop)
  | .createAccount req => do
    let r ← createAccount book req
    return .createdAccount r.1 r.2
  | .getAccount id => return .account (← getAccount book id)
  | .updateAccount id req => return .account (← updateAccount book id req)
  | .deleteAccount id => do
    deleteAccount book id
    return .done
  | .register id => return .register (← getAccountRegister book id)
  | .registerPage id cursor direction limit => do
    let page ← getAccountRegisterPaged book id cursor direction (if 0 < limit then limit else 50)
    return .registerPage page
  | .reconciledBalance id => return .balance (← getReconciledBalance book id)
  | .reconcileAccount accounts =>
    if accounts.isEmpty then refuse "account_guids required"
    else return .count (← reconcileAccountSplits book accounts)
  | .listTransactions limit offset => return .transactions (← listTransactions book limit offset)
  | .createTransaction req => do
    let r ← createTransaction book req.fromBody
    return .createdTransaction r.1 r.2
  | .getTransaction id => return .transaction (← getTransaction book id)
  | .updateTransaction id req => do
    let r ← updateTransaction book id req
    return .updatedTransaction r.1 r.2.1 r.2.2
  | .deleteTransaction id => do
    deleteTransaction book id
    return .done
  | .batchReconcile splits => do
    batchReconcileSplits book splits
    return .done
  | .toggleAcknowledge split state => do
    toggleSplitAcknowledge book split state
    return .done
  | .importJson none => refuse "invalid json format"
  | .importJson (some file) => do
    handleImport book file
    return .done
  | .importCsv account file =>
    if account = .malformed "" then refuse "account_guid is required"
    else match file with
      | .invalid => refuse "invalid csv format"
      | .noRecords => return .done
      | .rows rs => return .count (← csvLoop book account rs)
  | .importGnuCash none => refuse "invalid gnucash file"
  | .importGnuCash (some file) => do
    handleGnuCashImport book file
    return .done
  | .exportBook => return .exported (← handleExport book)
  | .factoryReset => do
    handleFactoryReset book
    return .done
  | .getConfig => return .config (← getConfig book)
  | .putConfig frequencyHours ttlHours activeMode =>
    if frequencyHours < 0 ∨ ttlHours < 0 then
      refuse "frequency_hours and ttl_hours must be >= 0"
    else return .config (← upsertConfig book frequencyHours ttlHours activeMode)
  | .listSnapshots => return .snapshots (← listSnapshots book)
  | .createSnapshot label => return .taken (← takeSnapshot book label .manual)
  | .getSnapshot id => return .snapshot (← getSnapshot book id)
  | .restoreSnapshot id => do
    handleRestore book id
    return .done
  | .deleteSnapshot id => do
    deleteSnapshot book id
    return .done
  | .getBook => do
    match ← exec "no book found" (selectBook book) with
    | none => refuse "no book found"
    | some b => return .book b
  | .plaidExchange => return .exchanged (← exchange cfg.tokens book)
  | .plaidLink item mappings importPending =>
    if !isUUID item then refuse "item_guid is required"
    else if maxLinkMappings < mappings.length then refuse "too many mappings (max 100)"
    else do
      linkAccounts book item mappings importPending
      return .done
  | .plaidSync item =>
    if !isUUID item then refuse "item_guid is required"
    else return .synced (← sync cfg book item)
  | .plaidImport rows =>
    if rows.isEmpty then refuse "rows is required"
    else if maxImportRows < rows.length then refuse "too many rows (max 500)"
    else do
      let r ← importRows book rows
      return .imported r.1 r.2
  | .plaidDismiss ids =>
    if ids.isEmpty then refuse "transaction_ids is required"
    else if maxImportRows < ids.length then refuse "too many ids (max 500)"
    else return .count (← dismissStaged book ids)
  | .plaidDisconnect item =>
    if !isUUID item then .fail .itemNotFound
    else do
      disconnect cfg book item
      return .done
  | .plaidItems => return .items (← listItems book)

/-- A configuration for examples, with one key. -/
def plainConfig : PlaidConfig := ⟨⟨0, [], false⟩, ⟨id, id, id⟩⟩

/-! ## One call after the other -/

/-- What makes the server act: a registration, a request under a book, the scheduler's snapshot of
a book, and its purge. -/
inductive Event where
  | signUp (email name : String)
  | request (cfg : PlaidConfig) (book : Guid) (req : Request)
  | scheduled (book : Guid) (label : String) (trigger : SnapshotTrigger)
  | purge

/-- The call an event makes. -/
def Event.call : Event → Call Response
  | .signUp email name => do
    let r ← registerUser email name
    return .signedUp r.1 r.2
  | .request cfg book req => handle cfg book req
  | .scheduled book label trigger => return .taken (← takeSnapshotForBook book label trigger)
  | .purge => do
    purgeExpiredSnapshots
    return .done

/-- The answer to a call at a state, and the state it leaves. -/
def serve (p : Call Response) (envs : Nat → Env) (db : Db) : Except Err Response × Db :=
  let r := p.run machine envs (.idle db)
  (r.1, r.2.db)

/-- The environment supplies the call only what it may. -/
def mayServe (p : Call Response) (envs : Nat → Env) (db : Db) : Bool :=
  p.runAllowed machine envs (.idle db)

/-- **The states of the server**, from the empty database, by events one after the other, where
each event, what it is supplied and the state it meets satisfy `ok`. -/
inductive Runs (ok : Event → (Nat → Env) → Db → Prop) : Db → Prop
  | empty : Runs ok Db.empty
  | step {db : Db} (e : Event) (envs : Nat → Env) (hr : Runs ok db)
      (ha : mayServe e.call envs db = true) (hok : ok e envs db) :
      Runs ok (serve e.call envs db).2

/-- A calm environment: nothing fails, the bank does not answer, and the clock, the generated
identifiers and the nonces count up from `n`. -/
def calm (n k : Nat) : Env :=
  { fail := false, cut := none, ties := fun _ => 0, guid := n + k, now := n + k, nonce := n + k,
    exchange := .error .api, getAccounts := .error .api, sync := fun _ => .error .api,
    removeItem := .error .api }

/-- The server after one registration: user 2, with book 3 and the accounts 5 to 24. -/
def registered : Db := (serve (Event.signUp "ana@example.org" "Ana").call (calm 1) Db.empty).2

theorem registered_runs {ok : Event → (Nat → Env) → Db → Prop}
    (h : ok (.signUp "ana@example.org" "Ana") (calm 1) Db.empty) : Runs ok registered :=
  .step _ _ .empty (by decide +kernel) h

/-- The run lemma: what holds of the empty database and is kept by each event holds throughout. -/
theorem Runs.invariant {ok : Event → (Nat → Env) → Db → Prop} {I : Db → Prop} (h0 : I Db.empty)
    (hs : ∀ e envs db, I db → mayServe e.call envs db = true → ok e envs db →
      I (serve e.call envs db).2) {db : Db} (hr : Runs ok db) : I db := by
  induction hr with
  | empty => exact h0
  | step e envs _ ha hok ih => exact hs e envs _ ih ha hok

theorem Runs.mono {ok ok' : Event → (Nat → Env) → Db → Prop}
    (h : ∀ e envs db, ok e envs db → ok' e envs db) {db : Db} (hr : Runs ok db) : Runs ok' db := by
  induction hr with
  | empty => exact .empty
  | step e envs _ ha hok ih => exact .step e envs ih ha (h _ _ _ hok)

end Antimoney
