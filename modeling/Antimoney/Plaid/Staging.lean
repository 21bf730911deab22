import Antimoney.Plaid.Crypto
import Antimoney.Services.TransactionService

/-!
# Fetching and staging

`fetchAndStage` and `stageDelta` of `internal/plaid/service.go`: pages of `/transactions/sync` go
into `plaid_staged_transactions` before the cursor moves past them.
-/

namespace Antimoney

open Antimoney.Lib

/-- `maxSyncPages`. -/
def maxSyncPages : Nat := 3

/-! ## The database side -/

namespace Db

/-- A ledger transaction of the book carries the plaid id. -/
def posted (db : Db) (book : Guid) (id : String) : Bool :=
  db.transactions.any fun t => t.bookGuid == book && t.plaidTxnId == some id

/-- The row of `plaid_staged_transactions` under its primary key. -/
def stagedRow (db : Db) (book : Guid) (id : String) : Option Staged :=
  db.staged.find? fun st => st.bookGuid == book && st.transactionId == id

/-- Some split of the transaction under `id`, on the book's account linked to `account`, satisfies
`c`. -/
def linkedSplit (db : Db) (book : Guid) (id account : String) (c : Split → Bool) : Bool :=
  db.transactions.any fun t =>
    t.bookGuid == book && t.plaidTxnId == some id &&
      db.splits.any fun s => s.txGuid == t.guid && c s &&
        db.accounts.any fun a => a.guid == s.accountGuid && a.bookGuid == t.bookGuid &&
          a.plaid.any fun l => l.accountId == account

/-- A split moved `-num/denom`. -/
def opposite (num denom : Int64) (s : Split) : Bool :=
  s.valueNum == -num && s.valueDenom == denom

end Db

/-- `INSERT INTO plaid_staged_transactions … ON CONFLICT DO UPDATE`, on the table: the conflicting
row keeps its item, account and creation time, and its dismissal. -/
def upsertStagedRow (new : Staged) (table : List Staged) : List Staged :=
  if table.any fun st => st.bookGuid == new.bookGuid && st.transactionId == new.transactionId then
    updateWhere (fun st => st.bookGuid == new.bookGuid && st.transactionId == new.transactionId)
      (fun st => { st with
        pendingTransactionId := new.pendingTransactionId
        postDate := new.postDate
        description := new.description
        amountNum := new.amountNum
        amountDenom := new.amountDenom
        pending := new.pending
        dismissed := st.dismissed || new.dismissed }) table
  else table ++ [new]

/-- The row of a transaction the bank reports. -/
def PlaidTxn.staged (txn : PlaidTxn) (book item : Guid) (dismissed : Bool) (now : Time) : Staged :=
  { bookGuid := book, itemGuid := item, transactionId := txn.transactionId
    pendingTransactionId :=
      if txn.pendingTransactionId = "" then none else some txn.pendingTransactionId
    plaidAccountId := txn.accountId, postDate := txn.date, description := txn.description
    amountNum := txn.amountNum, amountDenom := txn.amountDenom, pending := txn.pending
    dismissed := dismissed, createdAt := now }

/-- The rows of `ids` in the book. -/
def stagedIn (book : Guid) (ids : List String) (st : Staged) : Bool :=
  st.bookGuid == book && ids.contains st.transactionId

/-- Writing the rows of `ids` in the book locks their keys. -/
def stagedLocks (mode : LockMode) (book : Guid) (ids : List String) (_ : Db) : List Lock :=
  ids.map fun i => ⟨mode, .staged book i⟩

/-! ## Statements -/

/-- The request of `SyncTransactions`. -/
def syncTransactions (cursor : Cursor) : Stmt (Except BankErr ApiPage) :=
  .tagged (.syncTransactions cursor) <| .askEnv fun env => env.sync cursor

/-- `transactionExists`. -/
def transactionExists (book : Guid) (id : String) : Stmt Bool := .query fun db => db.posted book id

/-- `importedValueMatches`; the negation of the amount is computed as `bigint`. -/
def importedValueMatches (book : Guid) (id account : String) (num denom : Int64) : Stmt Bool :=
  .queryE fun db => do
    require (num != Int64.minValue) .outOfRange
    return db.linkedSplit book id account (Db.opposite num denom)

/-- The deletion of both staged copies when the posted value is already imported. -/
def dropReplaced (book : Guid) (ids : List String) : Stmt Unit :=
  .tagged (.dropReplaced book ids) <| .locking (stagedLocks .delete book ids) <| .sql fun db =>
    .ok ((), { db with staged := deleteWhere (stagedIn book ids) db.staged })

/-- `SELECT COALESCE(bool_or(dismissed), false) …`. -/
def selectDismissed (book : Guid) (id : String) : Stmt Bool :=
  .query fun db =>
    db.staged.any fun st => st.bookGuid == book && st.transactionId == id && st.dismissed

/-- The upsert of a page's transaction. -/
def upsertStaged (book : Guid) (item : GuidText) (txn : PlaidTxn) (dismissed : Bool) : Stmt Unit :=
  .tagged (.upsertStaged book txn dismissed) <|
    .locking (stagedLocks .update book [txn.transactionId]) <| .sqlNow fun now db => do
      let i ← item.parse
      require (decide (0 < txn.amountDenom)) .check
      require (db.hasBook book && db.hasItem i) .foreignKey
      return ((), { db with staged := upsertStagedRow (txn.staged book i dismissed now) db.staged })

/-- `DELETE … WHERE transaction_id = ANY($2) AND NOT dismissed`. -/
def dropUndismissed (book : Guid) (ids : List String) : Stmt Unit :=
  .locking (stagedLocks .delete book ids) <| .sql fun db =>
    .ok ((), { db with
      staged := deleteWhere (fun st => stagedIn book ids st && !st.dismissed) db.staged })

/-- The removed ids that are in the ledger, which are logged. -/
def selectRemovedImported (book : Guid) (ids : List String) : Stmt (List String) :=
  .query fun db => (db.transactions.filter (·.bookGuid == book)).filterMap fun t =>
    t.plaidTxnId.filter ids.contains

/-- `metadata->'plaid'->>'item_guid' = $1`. -/
def Account.linkedTo (a : Account) (item : GuidText) : Bool := a.plaid.any (·.itemGuid == item)

/-- The write of `sync_cursor`. -/
def writeCursor (book : Guid) (item : GuidText) (cursor : Cursor) (now : Time) : Stmt Unit :=
  .tagged (.writeCursor book item cursor) <|
    .locking (fun _ => item.parse.toOption.toList.map fun i => ⟨.update, .item i⟩) <|
      .sql fun db => do
        let i ← item.parse
        return ((), { db with
          items := updateWhere (fun p => p.guid == i && p.bookGuid == book)
            (fun p => { p with
              syncCursor := some cursor
              lastSyncedAt := some now
              updatedAt := now
              version := p.version + 1 }) db.items })

/-- The write of `last_synced_at` into the linked accounts. -/
def writeLastSynced (book : Guid) (item : GuidText) (now : Time) : Stmt Unit :=
  .locking (fun db => (db.accounts.filter fun a => a.bookGuid == book && a.linkedTo item).map
      fun a => ⟨.update, .account a.guid⟩) <|
    .sql fun db => .ok ((), { db with
      accounts := updateWhere (fun a => a.bookGuid == book && a.linkedTo item)
        (fun a => { a with
          plaid := a.plaid.map fun l => { l with lastSyncedAt := some now }
          version := a.version + 1
          updatedAt := now }) db.accounts })

/-! ## `stageDelta` -/

/-- The label of an error of `stageDelta` on a transaction, as `fetchAndStage` wraps it. -/
def stageErr (what id : String) : String := "stage sync delta: " ++ what ++ " " ++ id

/-- Whether the predecessor a transaction names is imported with the same value. -/
def predecessorImported (book : Guid) (txn : PlaidTxn) : Call Bool := do
  let imported ← exec (stageErr "pending correlation for" txn.transactionId)
    (transactionExists book txn.pendingTransactionId)
  if imported then
    exec (stageErr "pending value check for" txn.transactionId) (importedValueMatches book
      txn.pendingTransactionId txn.accountId txn.amountNum txn.amountDenom)
  else return false

/-- The body of the upsert pass for a transaction that may name a predecessor: `none` when the
posted copy was dropped, else whether it is dismissed. -/
def correlatePending (book : Guid) (txn : PlaidTxn) : Call (Option Bool) := do
  if txn.pendingTransactionId = "" then return some false
  else if ← predecessorImported book txn then do
    exec (stageErr "drop replaced pending" txn.pendingTransactionId)
      (dropReplaced book [txn.pendingTransactionId, txn.transactionId])
    return none
  else do
    let dismissed ← exec (stageErr "dismissed propagation for" txn.transactionId)
      (selectDismissed book txn.pendingTransactionId)
    return some dismissed

/-- One transaction of the upsert pass. -/
def stageTxn (book : Guid) (item : GuidText) (txn : PlaidTxn) : Call Unit := do
  match ← correlatePending book txn with
  | none => return ()
  | some d => exec (stageErr "stage txn" txn.transactionId) (upsertStaged book item txn d)

/-- The upsert pass; transactions of amount zero wait for the next pass. -/
def upsertPass (book : Guid) (item : GuidText) : List PlaidTxn → Call Unit
  | [] => return ()
  | txn :: rest =>
    if txn.amountNum = 0 then upsertPass book item rest
    else do
      stageTxn book item txn
      upsertPass book item rest

/-- `staleIDs`. -/
def PlaidTxn.staleIDs (txn : PlaidTxn) : List String :=
  if txn.pendingTransactionId = "" then [txn.transactionId]
  else [txn.transactionId, txn.pendingTransactionId]

/-- The divergence checks of the zero pass, which only log. -/
def checkDivergence (book : Guid) : List String → Call Unit
  | [] => return ()
  | id :: ids => do
    let _ ← exec (stageErr "zero-amount divergence check for" id) (transactionExists book id)
    checkDivergence book ids

/-- The zero pass: the stale copies of a transaction settled at zero go, unless dismissed. -/
def zeroPass (book : Guid) : List PlaidTxn → Call Unit
  | [] => return ()
  | txn :: rest =>
    if txn.amountNum = 0 then do
      exec (stageErr "drop zeroed staged txn" txn.transactionId) (dropUndismissed book txn.staleIDs)
      checkDivergence book txn.staleIDs
      zeroPass book rest
    else zeroPass book rest

/-- The removals of a page. -/
def removePass (book : Guid) (removed : List String) : Call Unit := do
  if removed.isEmpty then return ()
  else do
    let _ ← exec "stage sync delta: check removed against imported"
      (selectRemovedImported book removed)
    exec "stage sync delta: remove staged" (dropUndismissed book removed)

/-- `stageDelta`. -/
def stageDelta (book : Guid) (item : GuidText) (delta : SyncDelta) : Call Unit := do
  upsertPass book item (delta.added ++ delta.modified)
  zeroPass book (delta.added ++ delta.modified)
  removePass book delta.removed

/-! ## `fetchAndStage` -/

/-- The loop over pages, at most `n` of them: the cursor reached, and whether more remains. -/
def fetchPages (book : Guid) (item : GuidText) : Nat → Cursor → Bool → Call (Cursor × Bool)
  | 0, cursor, hasMore => return (cursor, hasMore)
  | n + 1, cursor, _ => do
    match ← exec "" (syncTransactions cursor) with
    | .error .reauthRequired => .fail .reauthRequired
    | .error .api => .fail (.message "sync failed")
    | .ok page =>
      stageDelta book item page.delta
      if page.hasMore then fetchPages book item n page.nextCursor true
      else return (page.nextCursor, false)

/-- `fetchAndStage`. -/
def fetchAndStage (book : Guid) (item : GuidText) (cursor : Cursor) : Call Bool := do
  let (cursor, hasMore) ← fetchPages book item maxSyncPages cursor false
  let now ← exec "" timeNow
  exec "persist sync cursor" (writeCursor book item cursor now)
  exec "propagate last_synced_at" (writeLastSynced book item now)
  return hasMore

end Antimoney
