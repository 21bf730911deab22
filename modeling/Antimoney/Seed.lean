import Antimoney.Services.SnapshotService

/-!
# Seeding and registration

`internal/seed/seed.go`: the chart of accounts of a new book; and `Register` of
`internal/auth/auth.go`, which creates a user, a book and its accounts.
-/

namespace Antimoney

open Antimoney.Lib

/-- `acctDef`. -/
structure AcctDef where
  name : String
  atype : String
  description : String
  deriving DecidableEq, Repr

/-- `topDefs`, each with the accounts below it. -/
def seedDefs : List (AcctDef × List AcctDef) :=
  [(⟨"Ativos", "ASSET", "Assets"⟩,
      [⟨"Conta Corrente", "BANK", "Checking account"⟩, ⟨"Poupança", "BANK", "Savings account"⟩,
       ⟨"Carteira", "CASH", "Wallet / cash on hand"⟩]),
   (⟨"Passivos", "LIABILITY", "Liabilities"⟩, [⟨"Cartão de Crédito", "CREDIT", "Credit card"⟩]),
   (⟨"Receitas", "INCOME", "Income"⟩,
      [⟨"Salário", "INCOME", "Salary"⟩, ⟨"Freelance", "INCOME", "Freelance income"⟩]),
   (⟨"Despesas", "EXPENSE", "Expenses"⟩,
      [⟨"Alimentação", "EXPENSE", "Food & groceries"⟩, ⟨"Transporte", "EXPENSE", "Transportation"⟩,
       ⟨"Moradia", "EXPENSE", "Housing"⟩, ⟨"Lazer", "EXPENSE", "Entertainment"⟩,
       ⟨"Saúde", "EXPENSE", "Healthcare"⟩, ⟨"Educação", "EXPENSE", "Education"⟩]),
   (⟨"Patrimônio", "EQUITY", "Equity"⟩, [⟨"Saldos Iniciais", "EQUITY", "Opening balances"⟩])]

/-- `INSERT INTO accounts … RETURNING guid`. -/
def insertSeedAccountStmt (book : Guid) (d : AcctDef) (parent : Option Guid)
    (placeholder : Bool) : Stmt Guid :=
  .locking (fun _ => parent.toList.map fun p => ⟨.keyShare, .account p⟩) <| .sqlWith fun env db => do
    let db' ← db.insertAccount
      { guid := env.guid, name := d.name, accountType := d.atype, parentGuid := parent,
        bookGuid := book, placeholder := placeholder, description := d.description, plaid := none,
        version := 1, createdAt := env.now, updatedAt := env.now }
    return (env.guid, db')

/-- `UPDATE books SET root_account_guid = $1 WHERE guid = $2`. -/
def setBookRoot (book : Guid) (root : Option Guid) : Stmt Unit :=
  .locking (fun _ => [⟨.update, .book book⟩]) <| .sql fun db => do
    require (!db.hasBook book || db.refOk root) .foreignKey
    return ((), { db with
      books := updateWhere (·.guid == book) (fun b => { b with rootAccountGuid := root }) db.books })

/-- The accounts under one parent. -/
def insertSeedAccounts (book parent : Guid) : List AcctDef → Call Unit
  | [] => return ()
  | d :: ds => do
    let _ ← exec ("insert " ++ d.name) (insertSeedAccountStmt book d (some parent) false)
    insertSeedAccounts book parent ds

/-- The top-level accounts, in order. -/
def insertTopAccounts (book root : Guid) : List AcctDef → Call (List Guid)
  | [] => return []
  | d :: ds => do
    let g ← exec ("insert " ++ d.name) (insertSeedAccountStmt book d (some root) true)
    let gs ← insertTopAccounts book root ds
    return g :: gs

/-- The accounts below each top-level account. -/
def insertSubAccounts (book : Guid) : List (Guid × List AcctDef) → Call Unit
  | [] => return ()
  | (top, subs) :: rest => do
    insertSeedAccounts book top subs
    insertSubAccounts book rest

/-- `SeedUserBook`. -/
def seedUserBook (book : Guid) : Call Unit :=
  inTx "begin seed user book" do
    let root ← exec "insert root" (insertSeedAccountStmt book
      ⟨"Root Account", "ROOT", "Root of the account tree"⟩ none true)
    exec "update book root" (setBookRoot book (some root))
    let tops ← insertTopAccounts book root (seedDefs.map (·.1))
    insertSubAccounts book (tops.zip (seedDefs.map (·.2)))
    commitTx "commit seed user book"

/-! ## `Register` -/

/-- `SELECT EXISTS(SELECT 1 FROM users WHERE email = $1)`. -/
def emailExists (email : String) : Stmt Bool := .query fun db => db.users.any (·.email == email)

/-- `INSERT INTO users … RETURNING id`; the e-mail is unique. -/
def insertUserStmt (email name : String) : Stmt Guid :=
  .sqlWith fun env db => do
    require (email.length ≤ 255 && name.length ≤ 255) .tooLong
    require (!db.users.any (·.email == email)) (.unique "users_email_key")
    return (env.guid, { db with users := db.users ++ [⟨env.guid, email, name⟩] })

/-- `INSERT INTO books (user_id) VALUES ($1) RETURNING guid`. -/
def insertBookStmt (user : Guid) : Stmt Guid :=
  .sqlWith fun env db => do
    require (db.users.any (·.id == user)) .foreignKey
    return (env.guid, { db with books := db.books ++ [⟨env.guid, none, user⟩] })

/-- `Register`: the user and the book it creates. -/
def registerUser (email name : String) : Call (Guid × Guid) := do
  let found ← reply (emailExists email)
  if countOrZero found false then .fail .emailTaken
  else do
    let user ← exec "create user" (insertUserStmt email name)
    let book ← exec "create book" (insertBookStmt user)
    seedUserBook book
    return (user, book)

end Antimoney
