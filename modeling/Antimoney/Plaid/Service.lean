import Antimoney.Plaid.Categorizer
import Antimoney.Plaid.Staging

/-!
# The bank sync service

`internal/plaid/service.go`: linking a bank (`Exchange`, `LinkAccounts`), `Sync`, `DismissStaged`,
`Import` and `Disconnect`.
-/

namespace Antimoney

open Antimoney.Lib

/-- `PlaidService`: its keys, and the text functions its categorizer uses. -/
structure PlaidConfig where
  tokens : TokenConfig
  ops : TextOps

/-! ## Tokens -/

/-- The re-seal: guarded by the version read with the ciphertext. -/
def resealStmt (book : Guid) (item : GuidText) (ciphertext : Ciphertext) (nonce : Nonce)
    (expectedVersion : Nat) : Stmt Unit :=
  .locking (fun _ => item.parse.toOption.toList.map fun i => ⟨.update, .item i⟩) <|
    .sqlNow fun now db => do
      let i ← item.parse
      return ((), { db with
        items := updateWhere
          (fun p => p.guid == i && p.bookGuid == book && p.version == expectedVersion)
          (fun p => { p with
            ciphertext := ciphertext
            nonce := nonce
            updatedAt := now
            version := p.version + 1 }) db.items })

/-- `loadAndDecryptToken`; the error of a re-seal is only logged. -/
def loadAndDecryptToken (cfg : TokenConfig) (book : Guid) (item : GuidText) (itemId : String)
    (ciphertext : Ciphertext) (nonce : Nonce) (expectedVersion : Nat) :
    Call (Except DecryptErr Token) := do
  match decryptToken cfg book itemId ciphertext nonce with
  | .error e => return .error e
  | .ok (token, stale) =>
    if stale then do
      let fresh ← exec "" (.askEnv Env.nonce)
      let _ ← reply (resealStmt book item (encryptToken cfg book itemId fresh token) fresh
        expectedVersion)
      return .ok token
    else return .ok token

/-! ## `Exchange` -/

/-- `ExchangeResult`. -/
structure ExchangeResult where
  itemGuid : Guid
  institutionName : String
  accounts : List PlaidAccount
  deriving DecidableEq, Repr

/-- `INSERT INTO plaid_items … ON CONFLICT (book_guid, item_id) DO UPDATE … RETURNING guid`. -/
def upsertItemStmt (new : PlaidItem) (token : Token) : Stmt Guid :=
  let hit := fun p : PlaidItem => p.bookGuid == new.bookGuid && p.itemId == new.itemId
  .tagged (.upsertItem new.bookGuid new.itemId new.guid token) <|
    .locking (fun db => ⟨.update, .itemKey new.bookGuid new.itemId⟩ ::
        (db.items.filter hit).map fun p => ⟨.update, .item p.guid⟩) <|
      .sql fun db => do
        match db.items.find? hit with
        | some p =>
          return (p.guid, { db with
            items := updateWhere hit (fun p => { p with
              institutionName := new.institutionName
              ciphertext := new.ciphertext
              nonce := new.nonce
              updatedAt := new.updatedAt
              version := p.version + 1 }) db.items })
        | none =>
          require (!db.hasItem new.guid) (.unique "plaid_items_pkey")
          require (db.hasBook new.bookGuid) .foreignKey
          return (new.guid, { db with items := db.items ++ [new] })

/-- `Exchange`. -/
def exchange (cfg : TokenConfig) (book : Guid) : Call ExchangeResult := do
  match ← exec "" (.askEnv Env.exchange) with
  | .error _ => .fail (.message "exchange failed")
  | .ok (accessToken, itemId, institutionName) =>
    let nonce ← exec "" (.askEnv Env.nonce)
    let itemGuid ← exec "" uuidNew
    let now ← exec "" timeNow
    let guid ← exec "upsert plaid_items" (upsertItemStmt
      { guid := itemGuid, bookGuid := book, itemId := itemId, institutionName := institutionName,
        ciphertext := encryptToken cfg book itemId nonce accessToken, nonce := nonce,
        syncCursor := none, importPending := false, lastSyncedAt := none, version := 1,
        createdAt := now, updatedAt := now } accessToken)
    match ← exec "" (.askEnv Env.getAccounts) with
    | .error _ => .fail (.message "fetch accounts failed")
    | .ok accounts => return ⟨guid, institutionName, accounts⟩

/-! ## `LinkAccounts` -/

structure AccountMapping where
  plaidAccountId : String
  accountGuid : GuidText
  deriving DecidableEq, Repr

/-- `SELECT institution_name FROM plaid_items WHERE guid = $1 AND book_guid = $2`. -/
def selectInstitution (item : GuidText) (book : Guid) : Stmt (Option String) :=
  .queryE fun db => do
    let i ← item.parse
    return (db.items.find? fun p => p.guid == i && p.bookGuid == book).map (·.institutionName)

/-- The other accounts of the book that carry the plaid account. -/
def countOtherLinks (book : Guid) (m : AccountMapping) : Stmt Nat :=
  .queryE fun db => do
    let g ← m.accountGuid.parse
    return db.accounts.countP fun a =>
      a.bookGuid == book && a.plaid.any (·.accountId == m.plaidAccountId) && a.guid != g

/-- The link of an account of the book. -/
def selectLink (book : Guid) (account : GuidText) : Stmt (Option (Option PlaidLink)) :=
  .queryE fun db => do
    let g ← account.parse
    return (db.accounts.find? fun a => a.guid == g && a.bookGuid == book).map (·.plaid)

/-- `jsonb_set(…, '{plaid}', $1)`, with the number of rows; `idx_accounts_plaid_account` is
unique. -/
def updateLinkStmt (book : Guid) (account : GuidText) (link : PlaidLink) : Stmt Nat :=
  .locking (fun _ => ⟨.update, .plaidAccount book link.accountId⟩ ::
      account.parse.toOption.toList.map fun g => ⟨.update, .account g⟩) <|
    .sqlNow fun now db => do
      let g ← account.parse
      let hit := fun a : Account => a.guid == g && a.bookGuid == book
      require (!db.accounts.any hit || !db.accounts.any fun a =>
        a.bookGuid == book && a.guid != g && a.plaid.any (·.accountId == link.accountId))
        (.unique "idx_accounts_plaid_account")
      return (db.accounts.countP hit, { db with
        accounts := updateWhere hit
          (fun a => { a with plaid := some link, updatedAt := now, version := a.version + 1 })
          db.accounts })

/-- The write of `import_pending`. -/
def updateImportPending (book : Guid) (item : GuidText) (importPending : Bool) : Stmt Unit :=
  .locking (fun _ => item.parse.toOption.toList.map fun i => ⟨.update, .item i⟩) <|
    .sqlNow fun now db => do
      let i ← item.parse
      return ((), { db with
        items := updateWhere (fun p => p.guid == i && p.bookGuid == book)
          (fun p => { p with importPending := importPending, updatedAt := now }) db.items })

/-- The loop over the mappings. -/
def linkEach (book : Guid) (item : GuidText) (institutionName : String) :
    List AccountMapping → Call Unit
  | [] => return ()
  | m :: ms => do
    let count ← exec "" (countOtherLinks book m)
    if 0 < count then .fail .duplicateLink
    else
      match ← exec "check account" (selectLink book m.accountGuid) with
      | none => .fail .plaidAccountNotFound
      | some existing =>
        if existing.any fun l => l.itemGuid ≠ item ∨ l.accountId ≠ m.plaidAccountId then
          .fail .accountAlreadyLinked
        else
          match ← reply (updateLinkStmt book m.accountGuid
            ⟨item, m.plaidAccountId, institutionName, none⟩) with
          | .error (.unique "idx_accounts_plaid_account") => .fail .duplicateLink
          | .error e => .fail (.wrapped "link account" e)
          | .ok affected =>
            if affected = 0 then .fail .plaidAccountNotFound
            else linkEach book item institutionName ms

/-- `LinkAccounts`. -/
def linkAccounts (book : Guid) (item : GuidText) (mappings : List AccountMapping)
    (importPending : Bool) : Call Unit := do
  match ← reply (selectInstitution item book) with
  | .error _ => .fail .itemNotFound
  | .ok none => .fail .itemNotFound
  | .ok (some institutionName) =>
    inTx "" do
      linkEach book item institutionName mappings
      exec "" (updateImportPending book item importPending)
      commitTx ""

/-! ## `Sync` -/

structure SyncSuggestion where
  transactionId : String
  date : Day
  description : String
  amountNum : Int64
  amountDenom : Int64
  bankAccountGuid : Guid
  bankAccountName : String
  suggestedCategoryGuid : Option Guid
  suggestedCategoryName : String
  deriving DecidableEq, Repr

structure SyncResult where
  suggestions : List SyncSuggestion
  hasMore : Bool
  inProgress : Bool
  deriving DecidableEq, Repr

/-- The row of an item, as `Sync` and `Disconnect` read it. -/
def selectItem (item : GuidText) (book : Guid) : Stmt (Option PlaidItem) :=
  .queryE fun db => do
    let i ← item.parse
    return db.items.find? fun p => p.guid == i && p.bookGuid == book

/-- `pool.Acquire`. -/
def acquireConn : Stmt Unit := .query fun _ => ()

/-- `pg_try_advisory_lock`, on the text of the identifier. -/
def tryAdvisoryLock (item : GuidText) : Stmt Bool :=
  .tagged (.lock item) <| .sql fun db =>
    if db.locks.contains item then .ok (false, db)
    else .ok (true, { db with locks := item :: db.locks })

/-- `pg_advisory_unlock`; the lock goes with the connection when the statement fails. -/
def advisoryUnlock (item : GuidText) : Stmt Unit :=
  .tagged (.unlock item) <|
    .mk' (fun _ _ => true) fun _ db => .ok ((), { db with locks := db.locks.erase item })

/-- The linked accounts of an item: plaid account, guid, name. -/
def selectLinkedAccounts (book : Guid) (item : GuidText) : Stmt (List (String × Guid × String)) :=
  .query fun db => (db.accounts.filter fun a => a.bookGuid == book && a.linkedTo item).filterMap
    fun a => a.plaid.map fun l => (l.accountId, a.guid, a.name)

/-- The last `NOT EXISTS` of the listing: the predecessor is imported with the same value. The
negation overflows on the smallest `bigint`, if there is a split to compare with. -/
def Db.replaced (db : Db) (st : Staged) : Except SqlErr Bool :=
  match st.pendingTransactionId with
  | none => .ok false
  | some p =>
    if st.amountNum = Int64.minValue then
      (require (!db.linkedSplit st.bookGuid p st.plaidAccountId fun _ => true) .outOfRange).map
        fun _ => false
    else .ok (db.linkedSplit st.bookGuid p st.plaidAccountId
      (Db.opposite st.amountNum st.amountDenom))

/-- The `WHERE` of the listing but its last condition. -/
def Db.listable (db : Db) (book item : Guid) (importPending : Bool) (st : Staged) : Bool :=
  st.bookGuid == book && st.itemGuid == item && !st.dismissed && (importPending || !st.pending) &&
    !db.posted st.bookGuid st.transactionId

/-- Keeps the rows on which `c` is false, unless it goes wrong on one. -/
def rejectE (c : Staged → Except SqlErr Bool) : List Staged → Except SqlErr (List Staged)
  | [] => .ok []
  | st :: sts => do
    let b ← c st
    let rest ← rejectE c sts
    return if b then rest else st :: rest

/-- `ORDER BY st.post_date, st.transaction_id`. -/
def stagedLe (a b : Staged) : Prop :=
  a.postDate < b.postDate ∨ (a.postDate = b.postDate ∧ ¬ b.transactionId < a.transactionId)

instance : DecidableRel stagedLe := fun a b => by unfold stagedLe; infer_instance

/-- The suggestions' rows. -/
def selectSuggestions (book : Guid) (item : GuidText) (importPending : Bool) :
    Stmt (List Staged) :=
  .queryE fun db => do
    let i ← item.parse
    let rows ← rejectE db.replaced (db.staged.filter (db.listable book i importPending))
    return rows.insertionSort stagedLe

/-- `SELECT guid, name FROM accounts WHERE book_guid = $1 AND guid = ANY($2)`. -/
def selectNames (book : Guid) (ids : List Guid) : Stmt (List (Guid × String)) :=
  .query fun db => (db.accounts.filter fun a => a.bookGuid == book && ids.contains a.guid).map
    fun a => (a.guid, a.name)

/-- `bankAccountByPlaidID`: the last row under a plaid account wins. -/
def bankAccountByPlaidID (rows : List (String × Guid × String)) (id : String) :
    Option (Guid × String) :=
  (rows.reverse.find? (·.1 == id)).map (·.2)

/-- The staged rows whose bank account is mapped. -/
def mappedRows (linked : List (String × Guid × String)) (staged : List Staged) :
    List (Staged × Guid × String) :=
  staged.filterMap fun st => (bankAccountByPlaidID linked st.plaidAccountId).map fun b => (st, b)

/-- A suggestion, before the names of categories are resolved. -/
def suggestionOf (r : (Staged × Guid × String) × Option Guid) : SyncSuggestion :=
  { transactionId := r.1.1.transactionId, date := r.1.1.postDate, description := r.1.1.description
    amountNum := r.1.1.amountNum, amountDenom := r.1.1.amountDenom, bankAccountGuid := r.1.2.1
    bankAccountName := r.1.2.2, suggestedCategoryGuid := r.2, suggestedCategoryName := "" }

/-- `names[guid]`. -/
def nameOf (names : List (Guid × String)) (g : Option Guid) : String :=
  (g.bind fun g => (names.find? (·.1 == g)).map (·.2)).getD ""

/-- The suggestions of an item, from durable staging. -/
def listSuggestions (ops : TextOps) (book : Guid) (item : GuidText) (importPending : Bool) :
    Call (List SyncSuggestion) := do
  let linked ← exec "load linked accounts" (selectLinkedAccounts book item)
  let staged ← exec "load staged transactions" (selectSuggestions book item importPending)
  let mapped := mappedRows linked staged
  let cats ← suggestBatch ops book (mapped.map (·.1.description))
  let suggestions := (mapped.zip cats).map suggestionOf
  let ids := cats.filterMap id
  if ids.isEmpty then return suggestions
  else do
    let names ← exec "load category names" (selectNames book ids.dedup)
    return suggestions.map fun s =>
      { s with suggestedCategoryName := nameOf names s.suggestedCategoryGuid }

/-- The fetch under the advisory lock, whose release is deferred; `none` when another sync holds
the lock. -/
def lockedFetch (book : Guid) (item : GuidText) (cursor : Cursor) : Call (Option Bool) := do
  exec "acquire conn for sync lock" acquireConn
  let gotLock ← exec "acquire sync lock" (tryAdvisoryLock item)
  if gotLock then do
    let r ← (fetchAndStage book item cursor).attempt
    let _ ← reply (advisoryUnlock item)
    let hasMore ← Prog.ofExcept r
    return some hasMore
  else return none

/-- `Sync`. -/
def sync (cfg : PlaidConfig) (book : Guid) (item : GuidText) : Call SyncResult := do
  match ← exec "" (selectItem item book) with
  | none => .fail .itemNotFound
  | some p =>
    match ← loadAndDecryptToken cfg.tokens book item p.itemId p.ciphertext p.nonce p.version with
    | .error .legacyTokenNeedsFlag => .fail .legacyTokenNeedsFlag
    | .error .decryptFailed => .fail (.message "decrypt access token")
    | .ok _ => do
      let fetched ← lockedFetch book item (p.syncCursor.getD 0)
      let suggestions ← listSuggestions cfg.ops book item p.importPending
      return ⟨suggestions, fetched.getD false, fetched.isNone⟩

/-! ## `DismissStaged` -/

/-- The update, with the number of rows. -/
def dismissStagedStmt (book : Guid) (ids : List String) : Stmt Nat :=
  .tagged (.dismissStaged book ids) <| .locking (stagedLocks .update book ids) <| .sql fun db =>
    .ok (db.staged.countP (stagedIn book ids), { db with
      staged := updateWhere (stagedIn book ids) (fun st => { st with dismissed := true })
        db.staged })

/-- `DismissStaged`. -/
def dismissStaged (book : Guid) (ids : List String) : Call Nat :=
  exec "" (dismissStagedStmt book ids)

/-! ## `Import` -/

structure ImportRow where
  transactionId : String
  categoryAccountGuid : GuidText
  deriving DecidableEq, Repr

structure ImportResult where
  imported : Nat
  failed : List String
  deriving DecidableEq, Repr

/-- The staged row of an id. -/
def loadStaged (book : Guid) (id : String) : Stmt (Option Staged) :=
  .tagged (.loadStaged book id) <| .query fun db => db.stagedRow book id

/-- The bank account a plaid account is mapped to. -/
def selectBankAccount (book : Guid) (plaidAccountId : String) : Stmt (Option Guid) :=
  .query fun db => (db.accounts.find? fun a =>
    a.bookGuid == book && a.plaid.any (·.accountId == plaidAccountId)).map (·.guid)

/-- `DELETE FROM plaid_staged_transactions WHERE book_guid = $1 AND transaction_id = $2`. -/
def deleteStagedStmt (book : Guid) (id : String) : Stmt Unit :=
  .tagged (.deleteStaged book id) <| .locking (stagedLocks .delete book [id]) <| .sql fun db =>
    .ok ((), { db with staged := deleteWhere (stagedIn book [id]) db.staged })

/-- `deleteStaged`; its error is only logged. -/
def deleteStaged (book : Guid) (id : String) : Call Unit := do
  let _ ← reply (deleteStagedStmt book id)
  return ()

/-- `isPlaidDupViolation`. -/
def isPlaidDupViolation : Err → Bool
  | .wrapped _ (.unique c) => c == "idx_transactions_plaid_txn"
  | _ => false

/-- The transaction `Import` creates: the bank split moves `-amount`, the category `amount`. -/
def importRequest (row : ImportRow) (bank : Guid) (st : Staged) : CreateTransactionRequest :=
  { customId := "", postDate := ⟨st.postDate, 0⟩, description := st.description
    plaidTxnId := some row.transactionId
    splits :=
      [{ accountGuid := bank.text, memo := "", valueNum := -st.amountNum,
         valueDenom := st.amountDenom, quantityNum := -st.amountNum,
         quantityDenom := st.amountDenom, reconcileState := "c" },
       { accountGuid := row.categoryAccountGuid, memo := "", valueNum := st.amountNum,
         valueDenom := st.amountDenom, quantityNum := st.amountNum,
         quantityDenom := st.amountDenom, reconcileState := "c" }] }

/-- What became of a row. -/
inductive RowOutcome where
  | imported
  | skipped
  | failed
  deriving DecidableEq, Repr

/-- The race defense of a row that names a predecessor: whether the predecessor is imported with
the same value. -/
def replacesImported (book : Guid) (row : ImportRow) (st : Staged) : Call Bool := do
  match st.pendingTransactionId with
  | none => return false
  | some p =>
    let imported ← exec ("pending correlation for " ++ row.transactionId) (transactionExists book p)
    if imported then
      exec ("pending value check for " ++ row.transactionId)
        (importedValueMatches book p st.plaidAccountId st.amountNum st.amountDenom)
    else return false

/-- The creation of a row's transaction, once every check has passed. -/
def createImported (book : Guid) (row : ImportRow) (bank : Guid) (st : Staged) :
    Call RowOutcome := do
  match ← (createTransaction book (importRequest row bank st)).attempt with
  | .error .panic => .fail .panic
  | .error e =>
    if isPlaidDupViolation e then do
      deleteStaged book row.transactionId
      return .skipped
    else return .failed
  | .ok _ => do
    deleteStaged book row.transactionId
    return .imported

/-- The body of the loop over rows, for a row whose staged data was loaded. -/
def importStaged (book : Guid) (row : ImportRow) (st : Staged) : Call RowOutcome := do
  match ← reply (selectBankAccount book st.plaidAccountId) with
  | .error _ => return .failed
  | .ok none => return .failed
  | .ok (some bank) =>
    let posted ← exec ("dedupe check for " ++ row.transactionId)
      (transactionExists book row.transactionId)
    if posted then return .skipped
    else do
      let replaces ← replacesImported book row st
      if replaces then do
        deleteStaged book row.transactionId
        return .skipped
      else createImported book row bank st

/-- The body of the loop over rows. -/
def importRow (book : Guid) (row : ImportRow) : Call RowOutcome := do
  match row.categoryAccountGuid with
  | .malformed _ => return .failed
  | .uuid _ _ =>
    match ← exec ("load staged " ++ row.transactionId) (loadStaged book row.transactionId) with
    | none =>
      let posted ← exec ("dedupe check for " ++ row.transactionId)
        (transactionExists book row.transactionId)
      if posted then return .skipped else return .failed
    | some st => importStaged book row st

/-- The result after a row. -/
def ImportResult.add (r : ImportResult) (row : ImportRow) : RowOutcome → ImportResult
  | .imported => { r with imported := r.imported + 1 }
  | .skipped => r
  | .failed => { r with failed := r.failed ++ [row.transactionId] }

/-- The loop over rows: an error ends it with the result so far. -/
def importLoop (book : Guid) : ImportResult → List ImportRow → Call (ImportResult × Option Err)
  | result, [] => return (result, none)
  | result, row :: rows => do
    match ← (importRow book row).attempt with
    | .error .panic => .fail .panic
    | .error e => return (result, some e)
    | .ok outcome => importLoop book (result.add row outcome) rows

/-- `Import`. -/
def importRows (book : Guid) (rows : List ImportRow) : Call (ImportResult × Option Err) :=
  importLoop book ⟨0, []⟩ rows

/-! ## `Disconnect` and `ListItems` -/

/-- The archive of the row, if it is still at the version read. -/
def archiveItem (item book : Guid) (version : Nat) : Stmt Nat :=
  let hit := fun p : PlaidItem => p.guid == item && p.bookGuid == book && p.version == version
  let rows := fun db : Db => (db.items.filter hit).map (Audit.mk "force-disconnect")
  .pinned (fun _ v db => .ok { db with audit := db.audit ++ rows v })
    (.sql fun db => .ok (db.items.countP hit, { db with audit := db.audit ++ rows db }))
    fun h => by
      obtain ⟨-, rfl⟩ := Prod.mk.inj (Except.ok.inj (ok_of_failing h))
      rfl

/-- `metadata - 'plaid'` on the accounts `c` selects. -/
def Db.unlink (c : Account → Bool) (now : Time) (db : Db) : Db :=
  { db with
    accounts := updateWhere c
      (fun a => { a with plaid := none, updatedAt := now, version := a.version + 1 }) db.accounts }

/-- The links to the item go. -/
def clearLinks (book : Guid) (item : GuidText) : Stmt Unit :=
  let hit := fun a : Account => a.bookGuid == book && a.linkedTo item
  .locking (fun db => (db.accounts.filter hit).map fun a => ⟨.update, .account a.guid⟩) <|
    .pinned (fun env v db => .ok (db.unlink (chosen Account.guid hit v.accounts) env.now))
      (.sqlNow fun now db => .ok ((), db.unlink hit now))
      fun h => by
        obtain ⟨-, rfl⟩ := Prod.mk.inj (Except.ok.inj (ok_of_failing h))
        exact congrArg _ (by unfold Db.unlink; rw [updateWhere_congr fun a ha => chosen_self ha])

/-- `DELETE FROM plaid_items`, at a version if one is given, with the number of rows. -/
def deleteItemStmt (item book : Guid) (version : Option Nat) : Stmt Nat :=
  .tagged (.deleteItem book item) <| .locking (fun _ => [⟨.delete, .item item⟩]) <| .sql fun db =>
    .ok (db.deleteItems fun p =>
      p.guid == item && p.bookGuid == book && version.all (· == p.version))

/-- The archive of a row that cannot be opened, with the number of rows. -/
def archiveIfForced (book guid : Guid) (version : Nat) (forced : Bool) : Call Nat := do
  if forced then exec "archive item before forced disconnect" (archiveItem guid book version)
  else return 1

/-- The transaction of `Disconnect`; `forced` when the token cannot be opened. -/
def removeItem (book : Guid) (item : GuidText) (guid : Guid) (version : Nat) (forced : Bool) :
    Call Unit :=
  inTx "" do
    let archived ← archiveIfForced book guid version forced
    if archived = 0 then .fail .concurrentModification
    else do
      exec "" (clearLinks book item)
      let deleted ← exec "" (deleteItemStmt guid book (if forced then some version else none))
      if forced ∧ deleted = 0 then .fail .concurrentModification else commitTx ""

/-- The request of `RemoveItem`: the bank ends the access that the token of the item gives. -/
def removeBankItem (itemId : String) (token : Token) : Stmt (Except BankErr Unit) :=
  .tagged (.removeItem itemId token) <| .askEnv Env.removeItem

/-- `Disconnect`. -/
def disconnect (cfg : PlaidConfig) (book : Guid) (item : GuidText) : Call Unit := do
  match ← exec "" (selectItem item book) with
  | none => .fail .itemNotFound
  | some p =>
    match ← loadAndDecryptToken cfg.tokens book item p.itemId p.ciphertext p.nonce p.version with
    | .error .legacyTokenNeedsFlag => .fail .legacyTokenNeedsFlag
    | .error .decryptFailed => removeItem book item p.guid p.version true
    | .ok token =>
      match ← exec "" (removeBankItem p.itemId token) with
      | .error _ => .fail (.message "plaid item removal failed")
      | .ok _ => removeItem book item p.guid p.version false

/-- `ListItem`. -/
structure ListItem where
  guid : Guid
  institutionName : String
  lastSyncedAt : Option Time
  importPending : Bool
  deriving DecidableEq, Repr

/-- The query of `ListItems`, oldest first. -/
def selectItems (book : Guid) : Stmt (List ListItem) :=
  .rows fun db => ((db.items.filter (·.bookGuid == book)).insertionSort
    (fun a b => a.createdAt ≤ b.createdAt)).map
      fun p => ⟨p.guid, p.institutionName, p.lastSyncedAt, p.importPending⟩

/-- `ListItems`. -/
def listItems (book : Guid) : Call (List ListItem) := exec "" (selectItems book)

end Antimoney
