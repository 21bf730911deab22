import Antimoney.Services.Register

/-!
# The account service

`internal/services/account_service.go`. Balances, which SQL computes as `float`, are exact.
-/

namespace Antimoney

open Antimoney.Lib Antimoney.Gnc

structure CreateAccountRequest where
  name : String
  accountType : String
  parentGuid : Option GuidText
  placeholder : Bool
  description : String
  deriving DecidableEq, Repr

/-- An absent field leaves the column as it is. -/
structure UpdateAccountRequest where
  name : Option String
  description : Option String
  placeholder : Option Bool
  accountType : Option String
  parentGuid : Option GuidText
  version : Int
  deriving DecidableEq, Repr

/-- The cast of a nullable text parameter to `uuid`. -/
def parseRef : Option GuidText → Except SqlErr (Option Guid)
  | none => .ok none
  | some t => t.parse.map some

/-! ## Statements -/

/-- The `INSERT` of `CreateAccount`, with the row it puts in. -/
def createAccountStmt (parent : Option GuidText) (a : Account) : Stmt Account :=
  .locking (fun _ => (parseRef parent).toOption.join.toList.map fun p => ⟨.keyShare, .account p⟩) <|
    .sql fun db => do
      let p ← parseRef parent
      let db' ← db.insertAccount { a with parentGuid := p }
      return ({ a with parentGuid := p }, db')

/-- `SELECT … FROM accounts WHERE guid = $1 AND book_guid = $2`. -/
def selectAccount (account : GuidText) (book : Guid) : Stmt (Option Account) :=
  .queryE fun db => do
    let g ← account.parse
    return db.accounts.find? fun a => a.guid == g && a.bookGuid == book

/-- The columns `UpdateAccount` sets. -/
def UpdateAccountRequest.apply (req : UpdateAccountRequest) (parent : Option Guid) (now : Time)
    (a : Account) : Account :=
  { a with
    name := req.name.getD a.name
    description := req.description.getD a.description
    placeholder := req.placeholder.getD a.placeholder
    accountType := req.accountType.getD a.accountType
    parentGuid := parent <|> a.parentGuid
    version := a.version + 1
    updatedAt := now }

/-- The `UPDATE` of `UpdateAccount`, with the number of rows. -/
def updateAccountStmt (account : GuidText) (book : Guid) (req : UpdateAccountRequest)
    (now : Time) : Stmt Nat :=
  .tagged (.updateAccount book account req.version) <| .locking (fun db =>
      db.accounts.filterMap fun a =>
        if account.parse == .ok a.guid && a.bookGuid == book then some ⟨.update, .account a.guid⟩
        else none) <|
    .sql fun db => do
      let g ← account.parse
      let parent ← parseRef req.parentGuid
      let hit := fun a : Account => a.guid == g && (a.version : Int) == req.version &&
        a.bookGuid == book
      if db.accounts.any hit then do
        require ((req.name.all (·.length ≤ 255)) && req.accountType.all (·.length ≤ 32)) .tooLong
        require (db.refOk parent) .foreignKey
        return (db.accounts.countP hit,
          { db with accounts := updateWhere hit (req.apply parent now) db.accounts })
      else return (0, db)

/-- `SELECT EXISTS(SELECT 1 FROM accounts WHERE guid = $1 AND book_guid = $2)`. -/
def accountExistsStmt (account : GuidText) (book : Guid) : Stmt Bool :=
  .queryE fun db => do
    let g ← account.parse
    return db.accounts.any fun a => a.guid == g && a.bookGuid == book

/-- `SELECT COUNT(*) FROM splits WHERE account_guid = $1`. -/
def countAccountSplits (account : GuidText) : Stmt Nat :=
  .queryE fun db => do
    let g ← account.parse
    return db.splits.countP (·.accountGuid == g)

/-- `SELECT COUNT(*) FROM accounts WHERE parent_guid = $1`. -/
def countChildAccounts (account : GuidText) : Stmt Nat :=
  .queryE fun db => do
    let g ← account.parse
    return db.accounts.countP (·.parentGuid == some g)

/-- `DELETE FROM accounts WHERE guid = $1 AND book_guid = $2`. -/
def deleteAccountStmt (account : GuidText) (book : Guid) : Stmt Nat :=
  .locking (fun db => db.accounts.filterMap fun a =>
      if account.parse == .ok a.guid && a.bookGuid == book then some ⟨.delete, .account a.guid⟩
      else none) <|
    .sql fun db => do
      let g ← account.parse
      db.deleteAccounts fun a => a.guid == g && a.bookGuid == book

/-! ## `ListAccountsTree` -/

/-- An account with the balances the tree shows. -/
structure AccountBalance where
  account : Account
  balance : ℚ
  reconciledBalance : ℚ
  lastReconciled : Option Time
  deriving DecidableEq, Repr

/-- The `CASE` of the query: whether a split counts, given the post date of its transaction. -/
def inWindow (accountType : String) (start stop : Option Time) (post : Option Time) : Bool :=
  stop.all (fun e => post.any fun p => decide (p ≤ e)) &&
    (!(accountType == "INCOME" || accountType == "EXPENSE") ||
      start.all fun s => post.any fun p => decide (s ≤ p))

/-- A row of the query: the account with its splits, by account alone, summed. -/
def Db.accountBalance (db : Db) (start stop : Option Time) (a : Account) : AccountBalance :=
  let rows := (db.splits.filter (·.accountGuid == a.guid)).map fun s =>
    (s, (db.transactions.find? (·.guid == s.txGuid)).map (·.postDate))
  let counted := rows.filter fun r => inWindow a.accountType start stop r.2
  { account := a
    balance := sumQuantities (counted.map (·.1))
    reconciledBalance := sumQuantities ((counted.filter (·.1.reconcileState == "y")).map (·.1))
    lastReconciled := ((rows.filter (·.1.reconcileState == "y")).filterMap (·.2)).max? }

/-- `ORDER BY a.account_type, a.name`. -/
def treeLe (a b : Account) : Prop :=
  a.accountType < b.accountType ∨ (a.accountType = b.accountType ∧ ¬ b.name < a.name)

instance : DecidableRel treeLe := fun a b => by unfold treeLe; infer_instance

/-- The query of `ListAccountsTree`; a bound that is given but is no timestamp is refused. -/
def selectTree (book : Guid) (start stop : Option (Option Time)) :
    Stmt (List AccountBalance) :=
  .rowsE fun db => do
    require (start.all Option.isSome && stop.all Option.isSome) .badInput
    return ((db.accounts.filter (·.bookGuid == book)).insertionSort treeLe).map
      (db.accountBalance start.join stop.join)

/-! ## Methods -/

/-- `CreateAccount`: the row, and the parent as the request wrote it. -/
def createAccount (book : Guid) (req : CreateAccountRequest) :
    Call (Account × Option GuidText) := do
  let guid ← exec "" uuidNew
  let now ← exec "" timeNow
  let account ← exec "insert account" (createAccountStmt req.parentGuid
    { guid := guid, name := req.name, accountType := req.accountType, parentGuid := none,
      bookGuid := book, placeholder := req.placeholder, description := req.description,
      plaid := none, version := 1, createdAt := now, updatedAt := now })
  return (account, req.parentGuid)

/-- `GetAccount`. -/
def getAccount (book : Guid) (account : GuidText) : Call Account := do
  match ← exec "" (selectAccount account book) with
  | none => .fail .notFound
  | some a => return a

/-- `UpdateAccount`; the error of the existence check is ignored. -/
def updateAccount (book : Guid) (account : GuidText) (req : UpdateAccountRequest) :
    Call Account := do
  let now ← exec "" timeNow
  let affected ← exec "update account" (updateAccountStmt account book req now)
  if affected = 0 then do
    let r ← reply (accountExistsStmt account book)
    if countOrZero r false then .fail .versionConflict else .fail .notFound
  else getAccount book account

/-- `DeleteAccount`; the errors of the counts are ignored. -/
def deleteAccount (book : Guid) (account : GuidText) : Call Unit := do
  let splits ← reply (countAccountSplits account)
  if 0 < countOrZero splits 0 then .fail (.existingSplits (countOrZero splits 0))
  else do
    let children ← reply (countChildAccounts account)
    if 0 < countOrZero children 0 then .fail (.childAccounts (countOrZero children 0))
    else do
      let affected ← exec "" (deleteAccountStmt account book)
      if affected = 0 then .fail .notFound else return ()

/-- `ListAccountsTree`. -/
def listAccountsTree (book : Guid) (start stop : Option (Option Time)) :
    Call (List AccountBalance) :=
  exec "" (selectTree book start stop)

end Antimoney
