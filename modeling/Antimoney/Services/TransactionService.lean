import Antimoney.Db.Stmt
import Antimoney.Gnc.Numeric
import Mathlib.Data.List.Sort

/-!
# The transaction service

`internal/services/transaction_service.go`. Each statement is a definition under what its SQL
does; each method is the program that issues them, under the method's name.

Amounts that the source turns into `float64` for display are exact rationals here.
-/

namespace Antimoney

open Antimoney.Lib Antimoney.Gnc

/-- `time.Time` as a request carries it: the calendar day it shows in its own zone, and the rest. -/
structure GoTime where
  day : Day
  seconds : Int
  deriving DecidableEq, Repr

/-- `normalizePostDate`: 11:00 UTC of the calendar day. -/
def normalizePostDate (t : GoTime) : Time := t.day * 86400 + 39600

structure CreateSplitRequest where
  accountGuid : GuidText
  memo : String
  valueNum : Int64
  valueDenom : Int64
  quantityNum : Int64
  quantityDenom : Int64
  /-- Set programmatically only; empty means `n`. -/
  reconcileState : String
  deriving DecidableEq, Repr

structure CreateTransactionRequest where
  customId : String
  postDate : GoTime
  description : String
  /-- `Metadata`, set programmatically only: the plaid transaction id. -/
  plaidTxnId : Option String
  splits : List CreateSplitRequest
  deriving DecidableEq, Repr

structure UpdateTransactionRequest where
  customId : String
  postDate : GoTime
  description : String
  splits : List CreateSplitRequest
  deriving DecidableEq, Repr

/-- The value of a requested split. -/
def CreateSplitRequest.fraction (sp : CreateSplitRequest) : Fraction := (sp.valueNum, sp.valueDenom)

/-! ## Validation -/

/-- The loop over `req.Splits`: zero-value splits are dropped, a zero denominator is refused. -/
def validSplits : List CreateSplitRequest → Except Err (List CreateSplitRequest)
  | [] => .ok []
  | sp :: rest =>
    if sp.valueNum = 0 then validSplits rest
    else if sp.valueDenom = 0 ∨ sp.quantityDenom = 0 then .error .invalidSplit
    else (validSplits rest).map (sp :: ·)

/-- `gnc.Sum` over the `gnc.New` of the valid splits. -/
def splitSum (splits : List CreateSplitRequest) : Option Numeric :=
  gateSum (splits.map CreateSplitRequest.fraction)

/-- A value, or the panic of the arithmetic that computes it. -/
def orPanic {α : Type} : Option α → Call α
  | some a => .ret a
  | none => .fail .panic

/-! ## Statements -/

/-- `SELECT guid FROM accounts WHERE book_guid = $1 AND name = 'Imbalance' LIMIT 1`. -/
def selectImbalance (book : Guid) : Stmt (Option Guid) :=
  .query fun db =>
    (db.accounts.find? fun a => a.bookGuid == book && a.name == "Imbalance").map (·.guid)

/-- `SELECT root_account_guid FROM books WHERE guid = $1`. -/
def selectBookRoot (book : Guid) : Stmt (Option (Option Guid)) :=
  .query fun db => (db.books.find? fun b => b.guid == book).map (·.rootAccountGuid)

/-- `INSERT INTO accounts`. -/
def insertAccountStmt (a : Account) : Stmt Unit :=
  .locking (fun _ => a.parentGuid.toList.map fun p => ⟨.keyShare, .account p⟩) <|
    .sql fun db => (db.insertAccount a).map fun db' => ((), db')

/-- `SELECT placeholder FROM accounts WHERE guid = $1 AND book_guid = $2`. -/
def selectPlaceholder (account : GuidText) (book : Guid) : Stmt (Option Bool) :=
  .queryE fun db => do
    let g ← account.parse
    return (db.accounts.find? fun a => a.guid == g && a.bookGuid == book).map (·.placeholder)

/-- `INSERT INTO transactions`. -/
def insertTransactionStmt (t : Transaction) : Stmt Unit :=
  .tagged (.insertTransaction t.guid t.plaidTxnId) <|
    .locking (fun _ => t.plaidTxnId.toList.map fun i => ⟨.update, .plaidTxn t.bookGuid i⟩) <|
    .sql fun db => (db.insertTransaction t).map fun db' => ((), db')

/-- `INSERT INTO splits`, for a split requested on `account`. -/
def insertSplitStmt (account : GuidText) (sp : Split) : Stmt Unit :=
  .locking (fun _ => [⟨.keyShare, .transaction sp.txGuid⟩, ⟨.keyShare, .account sp.accountGuid⟩]) <|
    .sql fun db => do
      let g ← account.parse
      let db' ← db.insertSplit { sp with accountGuid := g }
      return ((), db')

/-- `SELECT version FROM transactions WHERE guid = $1 AND book_guid = $2`. -/
def selectVersion (tx : GuidText) (book : Guid) : Stmt (Option (Guid × Nat)) :=
  .queryE fun db => do
    let g ← tx.parse
    return (db.transactions.find? fun t => t.guid == g && t.bookGuid == book).map
      fun t => (t.guid, t.version)

/-- The transaction of the book under `guid`. -/
def isTransaction (guid book : Guid) (t : Transaction) : Bool := t.guid == guid && t.bookGuid == book

/-- `UPDATE transactions SET … version = version + 1 … WHERE guid = $5 AND book_guid = $6`. -/
def updateTransactionStmt (tx book : Guid) (customId : String) (postDate : Time)
    (description : String) (now : Time) : Stmt Unit :=
  .tagged (.updateTransaction book tx) <|
    .locking (fun db => (db.transactions.filter (isTransaction tx book)).map fun t =>
      ⟨.update, .transaction t.guid⟩) <|
    .sql fun db => do
      require (customId.length ≤ 50) .tooLong
      return ((), { db with
        transactions := updateWhere (fun t => t.guid == tx && t.bookGuid == book)
          (fun t => { t with
            customId := customId
            postDate := postDate
            description := description
            version := t.version + 1
            updatedAt := now }) db.transactions })

/-- `DELETE FROM splits WHERE tx_guid = $1`. -/
def deleteSplitsOf (tx : Guid) : Stmt Unit :=
  .locking (fun db => (db.splits.filter (·.txGuid == tx)).map fun sp =>
      ⟨.delete, .split sp.guid⟩) <|
    .pinned (fun _ v db => .ok { db with
        splits := deleteWhere (chosen Split.guid (·.txGuid == tx) v.splits) db.splits })
      (.sql fun db => .ok ((), { db with splits := deleteWhere (·.txGuid == tx) db.splits }))
      fun h => by
        obtain ⟨-, rfl⟩ := Prod.mk.inj (Except.ok.inj (ok_of_failing h))
        exact congrArg _ (by rw [deleteWhere_congr fun s hs => chosen_self hs])

/-- `DELETE FROM transactions WHERE guid = $1 AND book_guid = $2`. -/
def deleteTransactionStmt (tx : GuidText) (book : Guid) : Stmt Nat :=
  .locking (fun db => db.transactions.filterMap fun t =>
      if tx.parse == .ok t.guid && t.bookGuid == book then some ⟨.delete, .transaction t.guid⟩
      else none) <|
    .sql fun db => do
      let g ← tx.parse
      return db.deleteTransactions fun t => t.guid == g && t.bookGuid == book

/-! ## `CreateTransaction` -/

/-- The account the auto-balancing split goes to: the book's `Imbalance`, created on first use. -/
def imbalanceAccount (book : Guid) : Call Guid := do
  match ← reply (selectImbalance book) with
  | .error e => .fail (.wrapped "lookup imbalance account" e)
  | .ok (some g) => return g
  | .ok none =>
    match ← exec "find root account" (selectBookRoot book) with
    | none | some none => .fail (.message "find root account")
    | some (some root) =>
      let guid ← exec "" uuidNew
      let now ← exec "" timeNow
      exec "create imbalance account" (insertAccountStmt
        { guid := guid, name := "Imbalance", accountType := "EQUITY", parentGuid := some root,
          bookGuid := book, placeholder := false,
          description := "Automatically created imbalance account", plaid := none, version := 1,
          createdAt := now, updatedAt := now })
      return guid

/-- The auto-balancing split: the negated sum, on the imbalance account. -/
def balancingSplit (account : Guid) (sum : Numeric) : CreateSplitRequest :=
  { accountGuid := account.text, memo := "Auto-balancing split", valueNum := sum.neg.num,
    valueDenom := sum.neg.denom, quantityNum := sum.neg.num, quantityDenom := sum.neg.denom,
    reconcileState := "" }

/-- The splits to insert: the valid ones, and the auto-balancing one when their sum is not zero. -/
def balancedSplits (book : Guid) (valid : List CreateSplitRequest) (sum : Numeric) :
    Call (List CreateSplitRequest) := do
  if sum.isZero then return valid
  else do
    let imbalance ← imbalanceAccount book
    return valid ++ [balancingSplit imbalance sum]

/-- Every split targets an account of the book that is not a placeholder. -/
def checkAccounts (book : Guid) : List CreateSplitRequest → Call Unit
  | [] => return ()
  | sp :: rest => do
    match ← reply (selectPlaceholder sp.accountGuid book) with
    | .error e => .fail (.lookupAccount sp.accountGuid e)
    | .ok none => .fail (.accountDenied sp.accountGuid)
    | .ok (some true) => .fail .placeholderAccount
    | .ok (some false) => checkAccounts book rest

/-- The row of a requested split. -/
def CreateSplitRequest.row (sp : CreateSplitRequest) (guid tx : Guid) (state : String)
    (now : Time) : Split :=
  { guid := guid, txGuid := tx
    accountGuid := match sp.accountGuid with | .uuid g _ => g | .malformed _ => 0
    memo := sp.memo, valueNum := sp.valueNum, valueDenom := sp.valueDenom
    quantityNum := sp.quantityNum, quantityDenom := sp.quantityDenom
    reconcileState := state, createdAt := now }

/-- The loop that inserts the splits, from index `i` on, with the state `state` gives each. -/
def insertSplits (tx : Guid) (now : Time) (state : CreateSplitRequest → String) :
    Nat → List CreateSplitRequest → Call (List Split)
  | _, [] => return []
  | i, sp :: rest => do
    let guid ← exec "" uuidNew
    let row := sp.row guid tx (state sp) now
    match ← reply (insertSplitStmt sp.accountGuid row) with
    | .error e => .fail (.insertSplit i e)
    | .ok _ =>
      let rows ← insertSplits tx now state (i + 1) rest
      return row :: rows

/-- The reconcile state a new transaction gives a split: `n` unless one is set. -/
def CreateSplitRequest.newState (sp : CreateSplitRequest) : String :=
  if sp.reconcileState = "" then "n" else sp.reconcileState

/-- `CreateTransaction`. -/
def createTransaction (book : Guid) (req : CreateTransactionRequest) :
    Call (Transaction × List Split) := do
  let valid ← Prog.ofExcept (validSplits req.splits)
  let sum ← orPanic (splitSum valid)
  inTx "begin transaction" do
    let splits ← balancedSplits book valid sum
    if splits.length < 2 then .fail (.message "a transaction must have at least 2 splits")
    else do
      checkAccounts book splits
      let guid ← exec "" uuidNew
      let now ← exec "" timeNow
      let txn : Transaction :=
        { guid := guid, customId := req.customId, bookGuid := book,
          postDate := normalizePostDate req.postDate, enterDate := now, description := req.description, plaidTxnId := req.plaidTxnId,
          version := 1, createdAt := now, updatedAt := now }
      exec "insert transaction" (insertTransactionStmt txn)
      let rows ← insertSplits guid now CreateSplitRequest.newState 0 splits
      commitTx "commit transaction"
      return (txn, rows)

/-! ## `UpdateTransaction` and `DeleteTransaction` -/

/-- `UpdateTransaction`: the splits are replaced, all unreconciled. -/
def updateTransaction (book : Guid) (tx : GuidText) (req : UpdateTransactionRequest) :
    Call (Guid × Nat × List Split) := do
  match ← exec "lookup transaction" (selectVersion tx book) with
  | none => .fail .notFound
  | some (guid, existingVersion) =>
    let splits ← Prog.ofExcept (validSplits req.splits)
    let sum ← orPanic (splitSum splits)
    if !sum.isZero then .fail .unbalancedTransaction
    else if splits.length < 2 then .fail .tooFewSplits
    else
      inTx "begin transaction" do
        checkAccounts book splits
        let now ← exec "" timeNow
        exec "update transaction" (updateTransactionStmt guid book req.customId
          (normalizePostDate req.postDate) req.description now)
        exec "delete old splits" (deleteSplitsOf guid)
        let rows ← insertSplits guid now (fun _ => "n") 0 splits
        commitTx "commit transaction update"
        return (guid, existingVersion + 1, rows)

/-- `DeleteTransaction`. -/
def deleteTransaction (book : Guid) (tx : GuidText) : Call Unit := do
  let affected ← exec "" (deleteTransactionStmt tx book)
  if affected = 0 then .fail .notFound else return ()

end Antimoney
