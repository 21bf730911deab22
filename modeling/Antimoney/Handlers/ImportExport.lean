import Antimoney.Seed

/-!
# Import, export, reset and restore

`internal/handlers/import_export.go` and the restore handler of `internal/handlers/snapshots.go`.
A file is what its parser makes of it.
-/

namespace Antimoney

open Antimoney.Lib

/-! ## `performImport` -/

/-- An account of the file after the renaming: its new identifier, and its parent as a text. -/
structure ImportAccount where
  guid : Guid
  src : ExportAccount
  parentGuid : Option GuidText
  deriving DecidableEq, Repr

structure ImportSplit where
  guid : Guid
  src : ExportSplit
  accountGuid : GuidText
  deriving DecidableEq, Repr

structure ImportTransaction where
  guid : Guid
  src : ExportTransaction
  splits : List ImportSplit
  deriving DecidableEq, Repr

/-- The account that wraps a file without a `ROOT`. -/
def rootAcc (guid : Guid) : ExportAccount :=
  { guid := guid.text, name := "Root Account", accountType := "ROOT", parentGuid := none,
    placeholder := true, description := "Root of the account tree" }

/-- A file without a `ROOT` account gets one, above its top-level accounts. -/
def ensureRoot (accounts : List ExportAccount) : Call (List ExportAccount) := do
  if accounts.any (·.accountType == "ROOT") then return accounts
  else do
    let rootGuid ← exec "" uuidNew
    return rootAcc rootGuid :: accounts.map fun acc =>
      match acc.parentGuid with
      | none => { acc with parentGuid := some rootGuid.text }
      | some _ => acc

/-- A new identifier for each account. -/
def renameAccounts : List ExportAccount → Call (List (ExportAccount × Guid))
  | [] => return []
  | acc :: accs => do
    let g ← exec "" uuidNew
    let rest ← renameAccounts accs
    return (acc, g) :: rest

/-- `accountMap`: the last account of the file under an identifier wins. -/
def accountMap (renamed : List (ExportAccount × Guid)) (old : GuidText) : Option Guid :=
  (renamed.reverse.find? fun r => r.1.guid = old).map (·.2)

/-- A reference through `accountMap`; one that is not in the file stays as it is. -/
def mapRef (renamed : List (ExportAccount × Guid)) (old : GuidText) : GuidText :=
  match accountMap renamed old with
  | some g => g.text
  | none => old

/-- The splits of a transaction, renamed. -/
def renameSplits (renamed : List (ExportAccount × Guid)) :
    List ExportSplit → Call (List ImportSplit)
  | [] => return []
  | s :: ss => do
    let g ← exec "" uuidNew
    let rest ← renameSplits renamed ss
    return ⟨g, s, mapRef renamed s.accountGuid⟩ :: rest

/-- The transactions, renamed. -/
def renameTransactions (renamed : List (ExportAccount × Guid)) :
    List ExportTransaction → Call (List ImportTransaction)
  | [] => return []
  | t :: ts => do
    let g ← exec "" uuidNew
    let splits ← renameSplits renamed t.splits
    let rest ← renameTransactions renamed ts
    return ⟨g, t, splits⟩ :: rest

/-- `DELETE FROM splits WHERE tx_guid IN (SELECT guid FROM transactions WHERE book_guid = $1)`. -/
def deleteBookSplits (book : Guid) : Stmt Unit :=
  .locking (fun db => (db.splits.filter (db.splitInBook book)).map fun s =>
      ⟨.delete, .split s.guid⟩) <|
    .pinned (fun _ v db => .ok { db with
        splits := deleteWhere (chosen Split.guid (v.splitInBook book) v.splits) db.splits })
      (.sql fun db => .ok ((), { db with splits := deleteWhere (db.splitInBook book) db.splits }))
      fun h => by
        obtain ⟨-, rfl⟩ := Prod.mk.inj (Except.ok.inj (ok_of_failing h))
        exact congrArg _ (by rw [deleteWhere_congr fun s hs => chosen_self hs])

/-- `DELETE FROM transactions WHERE book_guid = $1`. -/
def deleteBookTransactions (book : Guid) : Stmt Unit :=
  .locking (fun db => (db.transactions.filter (·.bookGuid == book)).map fun t =>
      ⟨.delete, .transaction t.guid⟩) <|
    .pinned (fun _ v db => .ok (db.deleteTransactions
        (chosen Transaction.guid (·.bookGuid == book) v.transactions)).2)
      (.sql fun db => .ok ((), (db.deleteTransactions (·.bookGuid == book)).2))
      fun h => by
        obtain ⟨-, rfl⟩ := Prod.mk.inj (Except.ok.inj (ok_of_failing h))
        exact congrArg _ (by rw [Db.deleteTransactions_congr fun t ht => chosen_self ht])

/-- `DELETE FROM accounts WHERE book_guid = $1`. -/
def deleteBookAccounts (book : Guid) : Stmt Unit :=
  .locking (fun db => (db.accounts.filter (·.bookGuid == book)).map fun a =>
      ⟨.delete, .account a.guid⟩) <|
    .pinned (fun _ v db =>
        (db.deleteAccounts (chosen Account.guid (·.bookGuid == book) v.accounts)).map Prod.snd)
      (.sql fun db => (db.deleteAccounts (·.bookGuid == book)).map fun r => ((), r.2))
      fun {_ db _ _} h => by
        rw [Db.deleteAccounts_congr fun a ha => chosen_self ha]
        have h' := ok_of_failing h
        cases hd : db.deleteAccounts (·.bookGuid == book) with
        | error e => rw [hd] at h'; exact absurd h' (by simp [Except.map])
        | ok r => rw [hd] at h'; exact congrArg _ (Prod.mk.inj (Except.ok.inj h')).2

/-- Pass 1: an account without its parent. -/
def insertImportAccount (book : Guid) (a : ImportAccount) : Stmt Unit :=
  .sqlNow fun now db => do
    let db' ← db.insertAccount
      { guid := a.guid, name := a.src.name, accountType := a.src.accountType, parentGuid := none,
        bookGuid := book, placeholder := a.src.placeholder, description := a.src.description,
        plaid := none, version := 1, createdAt := now, updatedAt := now }
    return ((), db')

/-- Pass 2: `UPDATE accounts SET parent_guid = $1 WHERE guid = $2 AND book_guid = $3`. -/
def updateHierarchy (book account : Guid) (parent : GuidText) : Stmt Unit :=
  .locking (fun _ => ⟨.update, .account account⟩ ::
      parent.parse.toOption.toList.map fun p => ⟨.keyShare, .account p⟩) <|
    .sql fun db => do
      let p ← parent.parse
      let hit := fun a : Account => a.guid == account && a.bookGuid == book
      require (!db.accounts.any hit || db.hasAccount p) .foreignKey
      return ((), { db with
        accounts := updateWhere hit (fun a => { a with parentGuid := some p }) db.accounts })

/-- A text that is no timestamp is refused. -/
def parseTime : Option Time → Except SqlErr Time
  | some t => .ok t
  | none => .error .badInput

/-- `INSERT INTO transactions`, from the file. -/
def insertImportTransaction (book : Guid) (t : ImportTransaction) : Stmt Unit :=
  .tagged (.importTransaction t.guid t.src.guid) <| .sqlNow fun now db => do
    let postDate ← parseTime t.src.postDate
    let enterDate ← parseTime t.src.enterDate
    let db' ← db.insertTransaction
      { guid := t.guid, customId := "", bookGuid := book, postDate := postDate,
        enterDate := enterDate, description := t.src.description, plaidTxnId := none, version := 1,
        createdAt := now, updatedAt := now }
    return ((), db')

/-- `INSERT INTO splits`, from the file. -/
def insertImportSplit (tx : Guid) (s : ImportSplit) : Stmt Unit :=
  .locking (fun _ => ⟨.keyShare, .transaction tx⟩ ::
      s.accountGuid.parse.toOption.toList.map fun g => ⟨.keyShare, .account g⟩) <|
    .sqlNow fun now db => do
      let g ← s.accountGuid.parse
      let db' ← db.insertSplit
        { guid := s.guid, txGuid := tx, accountGuid := g, memo := s.src.memo,
          valueNum := s.src.valueNum, valueDenom := s.src.valueDenom,
          quantityNum := s.src.quantityNum, quantityDenom := s.src.quantityDenom,
          reconcileState := s.src.reconcileState, createdAt := now }
      return ((), db')

/-- The statements of a batch, up to the first that fails. -/
def batchLoop (label : String) : List (Stmt Unit) → Call Unit
  | [] => return ()
  | q :: qs => do
    exec ("failed to " ++ label) q
    batchLoop label qs

/-- `execImportBatch`: the statements, then `Close`. -/
def execImportBatch (label : String) (batch : List (Stmt Unit)) : Call Unit := do
  if batch.isEmpty then return ()
  else do
    batchLoop label batch
    exec ("failed to " ++ label) (.query fun _ => ())

/-- The last `ROOT` of the file. -/
def rootAccountGuid (accounts : List ImportAccount) : Option Guid :=
  ((accounts.filter (·.src.accountType == "ROOT")).getLast?).map (·.guid)

/-- The root of the imported tree becomes the book's. -/
def restoreRoot (book : Guid) : Option Guid → Call Unit
  | some root => exec "failed to restore book root" (setBookRoot book (some root))
  | none => return ()

/-- The transaction of `performImport`: the book's rows go, the file's rows come. -/
def replaceBook (book : Guid) (accounts : List ImportAccount) (txns : List ImportTransaction) :
    Call Unit :=
  inTx "failed to start transaction" do
    exec "failed to clear book root" (setBookRoot book none)
    exec "failed to clean up splits" (deleteBookSplits book)
    exec "failed to clean up transactions" (deleteBookTransactions book)
    exec "failed to clean up accounts" (deleteBookAccounts book)
    execImportBatch "insert account" (accounts.map (insertImportAccount book))
    execImportBatch "update account hierarchy"
      (accounts.filterMap fun a => a.parentGuid.map (updateHierarchy book a.guid))
    restoreRoot book (rootAccountGuid accounts)
    execImportBatch "insert transaction" (txns.map (insertImportTransaction book))
    execImportBatch "insert split"
      (txns.flatMap fun t => t.splits.map (insertImportSplit t.guid))
    commitTx "failed to commit transaction"

/-- `performImport`. -/
def performImport (book : Guid) (data : ExportData) : Call Unit := do
  let rooted ← ensureRoot data.accounts
  let renamed ← renameAccounts rooted
  let accounts := renamed.map fun r => ⟨r.2, r.1, r.1.parentGuid.map (mapRef renamed)⟩
  let txns ← renameTransactions renamed data.transactions
  replaceBook book accounts txns

/-! ## Handlers -/

/-- `autoBackup`: a snapshot whose failure is only logged. -/
def autoBackup (book : Guid) (label : String) : Call Unit := do
  let _ ← (takeSnapshot book label .manual).attempt
  return ()

/-- `handleImport`. -/
def handleImport (book : Guid) (file : ExportData) : Call Unit := performImport book file

/-- `handleGnuCashImport`, of a file that parses. -/
def handleGnuCashImport (book : Guid) (file : ExportData) : Call Unit := do
  autoBackup book "Auto-backup before GnuCash import"
  performImport book file

/-- `handleRestore`. -/
def handleRestore (book : Guid) (id : GuidText) : Call Unit := do
  let snap ← getSnapshot book id
  autoBackup book "Auto-backup before restore"
  performImport book snap.data

/-- A CSV row whose amount and date were read. -/
structure CsvRow where
  postDate : GoTime
  description : String
  valNum : Int64
  deriving DecidableEq, Repr

/-- The transaction of a CSV row: one split, which `CreateTransaction` balances. -/
def CsvRow.request (account : GuidText) (r : CsvRow) : CreateTransactionRequest :=
  { customId := "", postDate := r.postDate, description := r.description, plaidTxnId := none,
    splits := [{ accountGuid := account, memo := "", valueNum := r.valNum, valueDenom := 100,
                 quantityNum := r.valNum, quantityDenom := 100, reconcileState := "" }] }

/-- The loop of `handleCSVImport`: a row that fails is skipped; the count of the others. -/
def csvLoop (book : Guid) (account : GuidText) : List CsvRow → Call Nat
  | [] => return 0
  | r :: rs => do
    match ← (createTransaction book (r.request account)).attempt with
    | .error .panic => .fail .panic
    | .error _ => csvLoop book account rs
    | .ok _ => do
      let count ← csvLoop book account rs
      return count + 1

/-- `handleExport`; as `buildExportData`, under its own messages. -/
def handleExport (book : Guid) : Call ExportData := do
  let accounts ← exec "failed to export accounts" (selectExportAccounts book)
  let txns ← exec "failed to export txs" (selectExportTransactions book)
  let transactions ← exportTransactions txns
  return ⟨accounts, transactions⟩

/-- `handleFactoryReset`. -/
def handleFactoryReset (book : Guid) : Call Unit := do
  inTx "failed to start transaction" do
    exec "failed to clear book root" (setBookRoot book none)
    exec "failed to clean up splits" (deleteBookSplits book)
    exec "failed to clean up transactions" (deleteBookTransactions book)
    exec "failed to clean up accounts" (deleteBookAccounts book)
    commitTx "failed to commit transaction"
  seedUserBook book

end Antimoney
