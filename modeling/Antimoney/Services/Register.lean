import Antimoney.Services.TransactionService

/-!
# Reading transactions, registers and reconciliation

The rest of `internal/services/transaction_service.go`: `GetTransaction`, `ListTransactions`, the
account register (whole and paged) with its transfer column, and the reconcile operations.

`ORDER BY` is a stable insertion sort over the physical order of the rows; a register's rows that
compare equal come in the order the environment ranks their splits.
-/

namespace Antimoney

open Antimoney.Lib Antimoney.Gnc

/-! ## Queries -/

/-- `FROM splits s JOIN transactions t ON s.tx_guid = t.guid WHERE p`. -/
def Db.joinTxns (db : Db) (p : Transaction → Split → Bool) : List (Transaction × Split) :=
  db.splits.filterMap fun s =>
    (db.transactions.find? (·.guid == s.txGuid)).bind fun t => if p t s then some (t, s) else none

/-- `FROM splits s JOIN accounts a ON s.account_guid = a.guid WHERE p`. -/
def Db.joinAccounts (db : Db) (p : Split → Bool) : List (Split × Account) :=
  (db.splits.filter p).filterMap fun s =>
    (db.accounts.find? (·.guid == s.accountGuid)).map fun a => (s, a)

/-- `ORDER BY t.post_date ASC, t.custom_id ASC, t.enter_date ASC`, ties by rank. -/
def registerLe (ties : Guid → Nat) (a b : Transaction × Split) : Prop :=
  a.1.postDate < b.1.postDate ∨ (a.1.postDate = b.1.postDate ∧
    (a.1.customId < b.1.customId ∨ (a.1.customId = b.1.customId ∧
      (a.1.enterDate < b.1.enterDate ∨ (a.1.enterDate = b.1.enterDate ∧
        ties a.2.guid ≤ ties b.2.guid)))))

instance (ties : Guid → Nat) : DecidableRel (registerLe ties) := fun a b => by
  unfold registerLe
  infer_instance

/-- `ORDER BY post_date DESC, custom_id DESC`. -/
def listLe (a b : Transaction) : Prop :=
  b.postDate < a.postDate ∨ (a.postDate = b.postDate ∧ (b.customId < a.customId ∨
    a.customId = b.customId))

instance : DecidableRel listLe := fun a b => by unfold listLe; infer_instance

/-- A split with the name of its account, as `models.Split` carries it. -/
structure SplitView where
  split : Split
  accountName : String
  deriving DecidableEq, Repr

structure TransactionView where
  txn : Transaction
  splits : List SplitView
  deriving DecidableEq, Repr

/-- `SELECT … FROM transactions WHERE guid = $1 AND book_guid = $2`. -/
def selectTransaction (tx : GuidText) (book : Guid) : Stmt (Option Transaction) :=
  .queryE fun db => do
    let g ← tx.parse
    return db.transactions.find? fun t => t.guid == g && t.bookGuid == book

/-- The splits of a transaction with their accounts' names, `ORDER BY s.created_at`. -/
def selectSplitViews (tx : Guid) : Stmt (List SplitView) :=
  .rows fun db =>
    ((db.joinAccounts (·.txGuid == tx)).insertionSort
      (fun a b => a.1.createdAt ≤ b.1.createdAt)).map fun r => ⟨r.1, r.2.name⟩

/-- A page of the book's transactions, newest first; a negative offset is refused. -/
def selectTransactions (book : Guid) (limit offset : Int) : Stmt (List Transaction) :=
  .rowsE fun db => do
    require (decide (0 ≤ offset)) .badInput
    return (((db.transactions.filter (·.bookGuid == book)).insertionSort listLe).drop
      offset.toNat).take limit.toNat

/-- `SELECT account_type FROM accounts WHERE guid = $1 AND book_guid = $2`. -/
def selectAccountType (account : GuidText) (book : Guid) : Stmt (Option (Guid × String)) :=
  .queryE fun db => do
    let g ← account.parse
    return (db.accounts.find? fun a => a.guid == g && a.bookGuid == book).map
      fun a => (a.guid, a.accountType)

/-- The rows of the whole register: by account alone. -/
def selectRegister (account : Guid) : Stmt (List (Transaction × Split)) :=
  .ordered fun ties => .query fun db =>
    (db.joinTxns fun _ s => s.accountGuid == account).insertionSort (registerLe ties)

/-- The rows the paged register counts and pages over: by account and book. -/
def Db.registerRows (db : Db) (account book : Guid) : List (Transaction × Split) :=
  db.joinTxns fun t s => s.accountGuid == account && t.bookGuid == book

/-- `SELECT COUNT(*) …`, over the rows whose `post_date` satisfies `p`. -/
def countRegister (account book : Guid) (p : Time → Bool) : Stmt Nat :=
  .query fun db => (db.registerRows account book).countP fun r => p r.1.postDate

/-- The rows before the page: `LIMIT $3`. -/
def selectPrior (account book : Guid) (limit : Nat) : Stmt (List (Transaction × Split)) :=
  .ordered fun ties => .rows fun db =>
    ((db.registerRows account book).insertionSort (registerLe ties)).take limit

/-- The rows of the page: `LIMIT $3 OFFSET $4`. -/
def selectPage (account book : Guid) (limit offset : Int) : Stmt (List (Transaction × Split)) :=
  .ordered fun ties => .queryE fun db => do
    require (decide (0 ≤ offset)) .badInput
    let rows := (db.registerRows account book).insertionSort (registerLe ties)
    return (rows.drop offset.toNat).take limit.toNat

/-- The splits of the given transactions outside an account, with their accounts. -/
def selectTransfers (txns : List Guid) (exclude : Guid) : Stmt (List (Guid × Guid × String)) :=
  .query fun db =>
    (db.joinAccounts fun s => txns.contains s.txGuid && s.accountGuid != exclude).map
      fun r => (r.1.txGuid, r.2.guid, r.2.name)

/-- A split belongs to a transaction of the book. -/
def Db.splitInBook (db : Db) (book : Guid) (s : Split) : Bool :=
  db.transactions.any fun t => t.guid == s.txGuid && t.bookGuid == book

/-- `UPDATE splits SET reconcile_state = $1 WHERE c AND EXISTS (…)`, with the number of rows. -/
def setReconcileState (book : Guid) (state : String) (c : Split → Bool) (db : Db) : Nat × Db :=
  let hit := fun s => c s && db.splitInBook book s
  (db.splits.countP hit,
    { db with splits := updateWhere hit (fun s => { s with reconcileState := state }) db.splits })

/-- An update of the rows among `splits` that `c` selects locks them. -/
def splitLocks (c : Split → Bool) (db : Db) : List Lock :=
  (db.splits.filter c).map fun s => ⟨.update, .split s.guid⟩

/-- The update of `ToggleSplitAcknowledge`. -/
def toggleSplitStmt (book : Guid) (split : GuidText) (state : String) : Stmt Nat :=
  .locking (splitLocks fun s => split.parse == .ok s.guid) <| .sql fun db => do
    let g ← split.parse
    return setReconcileState book state (·.guid == g) db

/-- The update of `BatchReconcileSplits`. -/
def reconcileSplitStmt (book : Guid) (split : GuidText) : Stmt Nat :=
  .locking (splitLocks fun s => split.parse == .ok s.guid) <| .sql fun db => do
    let g ← split.parse
    return setReconcileState book "y" (fun s => s.guid == g && s.reconcileState != "y") db

/-- The update of `ReconcileAccountSplits`. -/
def reconcileAccountsStmt (book : Guid) (accounts : List GuidText) : Stmt Nat :=
  .locking (splitLocks fun s => accounts.any fun a => a.parse == .ok s.accountGuid) <|
    .sql fun db => do
      let gs ← accounts.mapM GuidText.parse
      return setReconcileState book "y"
        (fun s => gs.contains s.accountGuid && s.reconcileState != "y") db

/-- A quantity as SQL computes it: `num::float / NULLIF(denom, 0)`, read exactly. -/
def Split.quantity (s : Split) : Option ℚ :=
  if s.quantityDenom = 0 then none
  else some ((s.quantityNum.toInt : ℚ) / (s.quantityDenom.toInt : ℚ))

/-- `COALESCE(SUM(…), 0)`; `NULL`s do not count. -/
def sumQuantities (splits : List Split) : ℚ := (splits.filterMap Split.quantity).sum

/-- The query of `GetReconciledBalance`. -/
def selectReconciledBalance (account : GuidText) (book : Guid) : Stmt ℚ :=
  .queryE fun db => do
    let g ← account.parse
    return sumQuantities ((db.joinTxns fun t s =>
      s.accountGuid == g && s.reconcileState == "y" && t.bookGuid == book).map (·.2))

/-! ## Methods -/

/-- `GetTransaction`. -/
def getTransaction (book : Guid) (tx : GuidText) : Call TransactionView := do
  match ← exec "" (selectTransaction tx book) with
  | none => .fail .notFound
  | some t =>
    let splits ← exec "" (selectSplitViews t.guid)
    return ⟨t, splits⟩

/-- The loop of `ListTransactions` that loads the splits of each transaction. -/
def loadSplits : List Transaction → Call (List TransactionView)
  | [] => return []
  | t :: ts => do
    let splits ← exec "" (selectSplitViews t.guid)
    let rest ← loadSplits ts
    return ⟨t, splits⟩ :: rest

/-- `ListTransactions`. -/
def listTransactions (book : Guid) (limit offset : Int) : Call (List TransactionView) := do
  let txns ← exec "" (selectTransactions book (if limit ≤ 0 then 50 else limit) offset)
  loadSplits txns

/-- `IsDebitNormal`. -/
def isDebitNormal (accountType : String) : Bool :=
  ["ASSET", "BANK", "CASH", "EXPENSE", "RECEIVABLE"].contains accountType

/-- `RegisterEntry`. -/
structure RegisterEntry where
  transactionGuid : Guid
  customId : String
  postDate : Time
  description : String
  transferAccount : String
  /-- Empty for a split transaction. -/
  transferAccountGuid : Option Guid
  deposit : Option ℚ
  withdrawal : Option ℚ
  balance : ℚ
  splitMemo : String
  splitGuid : Guid
  reconcileState : String
  deriving DecidableEq, Repr

/-- `ToFloat64`, exactly. -/
def toFloat64 (n : Numeric) : ℚ := if n.denom = 0 then 0 else n.value

/-- The deposit and withdrawal columns. -/
def depositWithdrawal (accountType : String) (f : ℚ) : Option ℚ × Option ℚ :=
  if isDebitNormal accountType then
    if 0 ≤ f then (some f, none) else (none, some (-f))
  else
    if f ≤ 0 then (some (-f), none) else (none, some f)

/-- The loop over register rows: each entry with the running balance after it. `none` is the
panic of `gnc.New` or of the addition. -/
def registerEntries (accountType : String) :
    Numeric → List (Transaction × Split) → Option (List RegisterEntry)
  | _, [] => some []
  | runningBalance, (t, s) :: rows => do
    let amount ← Numeric.new s.quantityNum s.quantityDenom
    let balance ← runningBalance.add amount
    let f := toFloat64 amount
    let (deposit, withdrawal) := depositWithdrawal accountType f
    let entries ← registerEntries accountType balance rows
    return { transactionGuid := t.guid, customId := t.customId, postDate := t.postDate,
             description := t.description, transferAccount := "", transferAccountGuid := none,
             deposit := deposit, withdrawal := withdrawal, balance := toFloat64 balance,
             splitMemo := s.memo, splitGuid := s.guid,
             reconcileState := s.reconcileState } :: entries

/-- `splitTransactionLabel`. -/
def splitTransactionLabel : String := "-- Split Transaction --"

/-- `counts` and `firstMatch` of `getTransferAccountsBatch`, after some rows. -/
structure TransferScan where
  counts : Guid → Nat
  firstMatch : Guid → Option (Guid × String)

/-- The body of the loop over the rows. -/
def TransferScan.row (st : TransferScan) (r : Guid × Guid × String) : TransferScan :=
  let n := st.counts r.1 + 1
  { counts := fun g => if g = r.1 then n else st.counts g
    firstMatch := fun g => if g = r.1 ∧ n = 1 then some r.2 else st.firstMatch g }

/-- The transfer column of a transaction: its one other split's account, or the label. -/
def TransferScan.info (st : TransferScan) (g : Guid) : String × Option Guid :=
  if st.counts g = 1 then
    match st.firstMatch g with
    | some (guid, name) => (name, some guid)
    | none => ("", none)
  else (splitTransactionLabel, none)

/-- The distinct transactions of the entries, in order of first appearance. -/
def distinctTxns : List Guid → List RegisterEntry → List Guid
  | seen, [] => seen.reverse
  | seen, e :: es =>
    if seen.contains e.transactionGuid then distinctTxns seen es
    else distinctTxns (e.transactionGuid :: seen) es

/-- `fillTransferAccounts` over `getTransferAccountsBatch`. -/
def fillTransferAccounts (entries : List RegisterEntry) (account : Guid) :
    Call (List RegisterEntry) := do
  if entries.isEmpty then return entries
  else
    let rows ← exec "" (selectTransfers (distinctTxns [] entries) account)
    let scan := rows.foldl TransferScan.row ⟨fun _ => 0, fun _ => none⟩
    return entries.map fun e =>
      let info := scan.info e.transactionGuid
      { e with transferAccount := info.1, transferAccountGuid := info.2 }

/-- `GetAccountRegister`. -/
def getAccountRegister (book : Guid) (account : GuidText) : Call (List RegisterEntry) := do
  match ← exec "" (selectAccountType account book) with
  | none => .fail .notFound
  | some (guid, accountType) =>
    let rows ← exec "" (selectRegister guid)
    let entries ← orPanic (registerEntries accountType Numeric.zero rows)
    fillTransferAccounts entries guid

/-- The `cursor_date` parameter, as `strconv.Atoi` and `time.Parse` read it. -/
inductive PageCursor where
  | offset (n : Int)
  | date (d : Day)
  | invalid
  deriving DecidableEq, Repr

inductive Direction where
  | before
  | after
  | around
  deriving DecidableEq, Repr

/-- 11:00 UTC of the cursor's day; a text that is no date parses to the zero time. -/
def PageCursor.timestamp : PageCursor → Time
  | .date d => d * 86400 + 39600
  | _ => -719162 * 86400 + 39600

/-- `RegisterPage`. -/
structure RegisterPage where
  entries : List RegisterEntry
  hasBefore : Bool
  hasAfter : Bool
  firstOffset : Int
  lastOffset : Int
  totalCount : Int
  deriving DecidableEq, Repr

/-- A count whose error is ignored. -/
def countOrZero {α : Type} (r : Except SqlErr α) (zero : α) : α :=
  match r with
  | .ok a => a
  | .error _ => zero

/-- The offset and limit of the page, by direction; `limit * 3` wraps. -/
def pageWindow (account book : Guid) (cursor : PageCursor) (direction : Direction) (limit : Int) :
    Call (Int × Int) := do
  match direction, cursor with
  | .before, .offset n =>
    if n - limit < 0 then return (0, n) else return (n - limit, limit)
  | .before, c =>
    let r ← reply (countRegister account book fun d => decide (d < c.timestamp))
    let countBefore : Int := countOrZero r 0
    if countBefore - limit < 0 then return (0, countBefore) else return (countBefore - limit, limit)
  | .after, .offset n => return (n + 1, limit)
  | .after, c =>
    let r ← reply (countRegister account book fun d => decide (d ≤ c.timestamp))
    return ((countOrZero r 0 : Nat), limit)
  | .around, .date d =>
    let countBefore ← exec "count before" (countRegister account book fun t =>
      decide (t < (PageCursor.date d).timestamp))
    return (max ((countBefore : Int) - ((limit * 3).bmod (2 ^ 64)).tdiv 4) 0, limit)
  | .around, _ => .fail (.message "invalid cursor_date for around")

/-- The running balance before the page. -/
def priorBalance : Numeric → List (Transaction × Split) → Option Numeric
  | acc, [] => some acc
  | acc, (_, s) :: rows => do
    let amount ← Numeric.new s.quantityNum s.quantityDenom
    let acc' ← acc.add amount
    priorBalance acc' rows

/-- The running balance over the rows before an offset. -/
def loadPrior (account book : Guid) (offset : Int) : Call Numeric := do
  if 0 < offset then do
    let rows ← exec "compute prior balance" (selectPrior account book offset.toNat)
    orPanic (priorBalance Numeric.zero rows)
  else return Numeric.zero

/-- `GetAccountRegisterPaged`. -/
def getAccountRegisterPaged (book : Guid) (account : GuidText) (cursor : PageCursor)
    (direction : Direction) (limit : Int) : Call RegisterPage := do
  match ← exec "" (selectAccountType account book) with
  | none => .fail .notFound
  | some (guid, accountType) =>
    let totalCount ← exec "count entries" (countRegister guid book fun _ => true)
    let window ← pageWindow guid book cursor direction limit
    let queryOffset := window.1
    if window.2 ≤ 0 then
      return { entries := [], hasBefore := decide (0 < queryOffset),
               hasAfter := decide (queryOffset < totalCount), firstOffset := 0, lastOffset := 0,
               totalCount := totalCount }
    else
      let prior ← loadPrior guid book queryOffset
      let rows ← exec "query page" (selectPage guid book window.2 queryOffset)
      let entries ← orPanic (registerEntries accountType prior rows)
      let entries ← fillTransferAccounts entries guid
      let endOffset : Int :=
        if entries.isEmpty then queryOffset else queryOffset + entries.length - 1
      return { entries := entries, hasBefore := decide (0 < queryOffset),
               hasAfter := decide (endOffset < (totalCount : Int) - 1),
               firstOffset := queryOffset, lastOffset := endOffset, totalCount := totalCount }

/-- `ToggleSplitAcknowledge`. -/
def toggleSplitAcknowledge (book : Guid) (split : GuidText) (newState : String) : Call Unit := do
  if newState ≠ "n" ∧ newState ≠ "c" then
    .fail (.message s!"invalid state for toggle: {newState} (only n or c allowed)")
  else
    let affected ← exec "toggle reconcile state" (toggleSplitStmt book split newState)
    if affected = 0 then .fail .notFound else return ()

/-- The loop of `BatchReconcileSplits`; a split that is reconciled or not found is skipped. -/
def reconcileEach (book : Guid) : List GuidText → Call Unit
  | [] => return ()
  | g :: gs => do
    let _ ← exec "update split" (reconcileSplitStmt book g)
    reconcileEach book gs

/-- `BatchReconcileSplits`. -/
def batchReconcileSplits (book : Guid) (splits : List GuidText) : Call Unit := do
  if splits.isEmpty then return ()
  else
    inTx "begin tx" do
      reconcileEach book splits
      commitTx ""

/-- `GetReconciledBalance`. -/
def getReconciledBalance (book : Guid) (account : GuidText) : Call ℚ :=
  exec "" (selectReconciledBalance account book)

/-- `ReconcileAccountSplits`. -/
def reconcileAccountSplits (book : Guid) (accounts : List GuidText) : Call Nat := do
  if accounts.isEmpty then return 0
  else exec "reconcile account splits" (reconcileAccountsStmt book accounts)

end Antimoney
