import Antimoney.Lib.Prog
import Antimoney.Lib.Table
import Antimoney.Plaid.Client

/-!
# Statements

A statement is what it does to the database (`Stmt.sem`), given what the environment supplies
(`Env`): a clock reading, a fresh identifier, the bank's answer, or a failure. `time.Now`,
`uuid.New` and the bank's API are statements that leave the database alone.

The functions that put rows in and take rows out check the constraints of the schema: primary
keys, foreign keys with their cascades, the three unique indexes, column lengths.
-/

namespace Antimoney

open Antimoney.Lib

/-! ## What the environment supplies -/

/-- What the environment supplies to one statement. -/
structure Env where
  /-- The statement fails: connection lost, timeout, server error. -/
  fail : Bool
  /-- The connection is lost after this many rows, which a loop that does not check `rows.Err`
  takes for all of them. -/
  cut : Option Nat
  /-- How rows that compare equal under the `ORDER BY` of a query come: by the rank of their split. -/
  ties : Guid → Nat
  guid : Guid
  now : Time
  nonce : Nonce
  /-- The bank's answer to `ExchangePublicToken`: access token, item id, institution. -/
  exchange : Except BankErr (Token × String × String)
  getAccounts : Except BankErr (List PlaidAccount)
  /-- The bank's answer to `/transactions/sync`, by cursor. -/
  sync : Cursor → Except BankErr ApiPage
  removeItem : Except BankErr Unit

/-- What a statement is about, for the conditions on runs that name it. -/
inductive Tag where
  | other
  | loadStaged (book : Guid) (id : String)
  | deleteStaged (book : Guid) (id : String)
  | dropReplaced (book : Guid) (ids : List String)
  | upsertStaged (book : Guid) (txn : PlaidTxn) (dismissed : Bool)
  | dismissStaged (book : Guid) (ids : List String)
  | syncTransactions (cursor : Cursor)
  | writeCursor (book : Guid) (item : GuidText) (cursor : Cursor)
  | lock (item : GuidText)
  | unlock (item : GuidText)
  | upsertItem (book : Guid) (itemId : String) (guid : Guid) (token : Token)
  | removeItem (itemId : String) (token : Token)
  | deleteItem (book item : Guid)
  | updateAccount (book : Guid) (account : GuidText) (version : Int)
  | updateTransaction (book tx : Guid)
  | insertTransaction (guid : Guid) (plaidTxnId : Option String)
  | importTransaction (guid : Guid) (source : GuidText)
  | exportAccounts (book : Guid)
  | exportTransactions (book : Guid)
  | exportSplits (tx : Guid)
  | countRecent (book : Guid) (trigger : SnapshotTrigger)
  | rotateActive (book : Guid)
  | insertSnapshot (book : Guid) (trigger : SnapshotTrigger) (data : ExportData)
  deriving DecidableEq

/-- What a lock is on: a row, or the key of a unique index. -/
inductive LockKey where
  | book (g : Guid)
  | account (g : Guid)
  | transaction (g : Guid)
  | split (g : Guid)
  | snapshot (g : Guid)
  | config (book : Guid)
  | item (g : Guid)
  | itemKey (book : Guid) (itemId : String)
  | staged (book : Guid) (id : String)
  | plaidTxn (book : Guid) (id : String)
  | plaidAccount (book : Guid) (id : String)
  deriving DecidableEq, Repr

/-- `FOR KEY SHARE`, as a foreign key takes it; `FOR NO KEY UPDATE`; `FOR UPDATE`. -/
inductive LockMode where
  | keyShare
  | update
  | delete
  deriving DecidableEq, Repr

structure Lock where
  mode : LockMode
  key : LockKey
  deriving DecidableEq, Repr

/-- Two locks conflict on one key, unless both only share it or one shares what the other updates
without touching the key. -/
def Lock.conflict (a b : Lock) : Bool :=
  a.key == b.key && match a.mode, b.mode with
    | .keyShare, .delete | .delete, .keyShare => true
    | .keyShare, _ | _, .keyShare => false
    | _, _ => true

/-- A statement with replies in `β`. -/
structure Stmt (β : Type) where
  tag : Tag
  sem : Env → Db → Except SqlErr (β × Db)
  /-- What the environment may supply: a generated identifier is not in use. -/
  allowed : Env → Db → Bool
  locks : Env → Db → List Lock
  /-- What a statement that ran at the first state writes to the second, at commit. -/
  write : Env → Db → Db → Except SqlErr Db
  write_self : ∀ {env : Env} {db db' : Db} {b : β},
    sem env db = .ok (b, db') → write env db db = .ok db'

namespace Stmt

variable {β : Type}

/-- A statement whose write does not depend on the state it ran at, with what it may be supplied. -/
def mk' (allowed : Env → Db → Bool) (sem : Env → Db → Except SqlErr (β × Db)) : Stmt β where
  tag := .other
  sem := sem
  allowed := allowed
  locks _ _ := []
  write env _ db := (sem env db).map Prod.snd
  write_self h := by rw [h]; rfl

/-- A statement sent to the server, which may fail. -/
def sql (f : Db → Except SqlErr (β × Db)) : Stmt β :=
  mk' (fun _ _ => true) fun env db => if env.fail then .error .failed else f db

/-- A query that cannot go wrong by itself. -/
def query (f : Db → β) : Stmt β := sql fun db => .ok (f db, db)

/-- A query that may be refused (a malformed parameter). -/
def queryE (f : Db → Except SqlErr β) : Stmt β := sql fun db => (f db).map fun b => (b, db)

/-- The rows of a query read by a loop that does not check `rows.Err`. -/
def rowsE (f : Db → Except SqlErr (List β)) : Stmt (List β) :=
  mk' (fun _ _ => true) fun env db =>
    if env.fail then .error .failed
    else (f db).map fun rows => ((match env.cut with | none => rows | some n => rows.take n), db)

def rows (f : Db → List β) : Stmt (List β) := rowsE fun db => .ok (f db)

/-- A query whose `ORDER BY` leaves ties. -/
def ordered (q : (Guid → Nat) → Stmt β) : Stmt β where
  tag := .other
  sem env db := (q env.ties).sem env db
  allowed env db := (q env.ties).allowed env db
  locks env db := (q env.ties).locks env db
  write env v db := (q env.ties).write env v db
  write_self h := (q _).write_self h

/-- A statement that uses the server's clock. -/
def sqlNow (f : Time → Db → Except SqlErr (β × Db)) : Stmt β :=
  mk' (fun _ _ => true) fun env db => if env.fail then .error .failed else f env.now db

/-- A statement that uses a key the server generates. -/
def sqlWith (f : Env → Db → Except SqlErr (β × Db)) : Stmt β :=
  mk' (fun env db => db.unused env.guid) fun env db =>
    if env.fail then .error .failed else f env db

/-- A question to the environment. -/
def askEnv (f : Env → β) : Stmt β := mk' (fun _ _ => true) fun env db => .ok (f env, db)

/-- The same statement under a tag. -/
def tagged (t : Tag) (q : Stmt β) : Stmt β := { q with tag := t }

/-- The same statement, taking locks. -/
def locking (f : Db → List Lock) (q : Stmt β) : Stmt β := { q with locks := fun _ db => f db }

/-- The same statement, with the rows it writes chosen when it ran. -/
def pinned (write : Env → Db → Db → Except SqlErr Db) (q : Stmt β)
    (h : ∀ {env : Env} {db db' : Db} {b : β},
      q.sem env db = .ok (b, db') → write env db db = .ok db') : Stmt β :=
  { q with write := write, write_self := h }

end Stmt

/-- A statement that succeeds did not fail. -/
theorem ok_of_failing {β : Type} {c : Bool} {r : Except SqlErr β} {b : β}
    (h : (if c then .error .failed else r) = .ok b) : r = .ok b := by
  cases c with
  | true => exact absurd h (by simp)
  | false => exact h

/-- `uuid.New`. -/
def uuidNew : Stmt Guid := .mk' (fun env db => db.unused env.guid) fun env db => .ok (env.guid, db)

/-- `time.Now`. -/
def timeNow : Stmt Time := Stmt.askEnv Env.now

/-- The database as a machine. -/
def machine : Machine Stmt SqlErr Env Lock Db where
  exec q env db := q.sem env db
  write q env v db := q.write env v db
  write_self {_ q _ _ _ _} h := q.write_self h
  locks q env db := q.locks env db
  conflict := Lock.conflict
  down env := if env.fail then some .failed else none
  allowed q env db := q.allowed env db

/-- The errors of the services. Each carries what its message is made from. -/
inductive Err where
  | notFound
  | versionConflict
  | unbalancedTransaction
  | placeholderAccount
  | invalidSplit
  | tooFewSplits
  /-- `fmt.Errorf(text)`. -/
  | message (text : String)
  /-- `fmt.Errorf("text: %w", e)`, or the database's error itself when the text is empty. -/
  | wrapped (text : String) (e : SqlErr)
  /-- `fmt.Errorf("account %s not found or access denied")`. -/
  | accountDenied (account : GuidText)
  | lookupAccount (account : GuidText) (e : SqlErr)
  | insertSplit (index : Nat) (e : SqlErr)
  | existingSplits (count : Nat)
  | childAccounts (count : Nat)
  | snapshotNotFound
  | snapshotConfigNotFound
  | snapshotQuotaExceeded
  | itemNotFound
  | duplicateLink
  | plaidAccountNotFound
  | accountAlreadyLinked
  | legacyTokenNeedsFlag
  | concurrentModification
  | reauthRequired
  | emailTaken
  /-- A Go panic, which the server recovers from after running the deferred calls. -/
  | panic
  deriving DecidableEq, Repr

/-- A service call. -/
abbrev Call := Prog Stmt SqlErr Err

/-- A statement whose error is wrapped as `fmt.Errorf("text: %w", err)`. -/
def exec {β : Type} (text : String) (q : Stmt β) : Call β := Prog.sql (Err.wrapped text) q

/-- A statement whose error the call looks at. -/
def reply {β : Type} (q : Stmt β) : Call (Except SqlErr β) := Prog.ask q

/-- `pool.Begin`, the body, the deferred `Rollback`. -/
def inTx {α : Type} (text : String) (body : Call α) : Call α := Prog.inTx (Err.wrapped text) body

/-- `tx.Commit`. -/
def commitTx (text : String) : Call Unit := Prog.commit (Err.wrapped text)

/-- A check of the schema. -/
def require (c : Bool) (e : SqlErr) : Except SqlErr Unit := if c then .ok () else .error e

theorem require_bind {β : Type} {c : Bool} {e : SqlErr} {f : Unit → Except SqlErr β} {b : β}
    (h : (require c e >>= f) = .ok b) : c = true ∧ f () = .ok b := by
  unfold require at h
  cases c with
  | true => exact ⟨rfl, h⟩
  | false => exact absurd h (by simp [bind, Except.bind])

theorem ok_bind {α β : Type} {x : Except SqlErr α} {f : α → Except SqlErr β} {b : β}
    (h : (x >>= f) = .ok b) : ∃ a, x = .ok a ∧ f a = .ok b := by
  cases x with
  | error e => exact absurd h (by simp [bind, Except.bind])
  | ok a => exact ⟨a, rfl, h⟩

theorem ok_map {α β : Type} {x : Except SqlErr α} {f : α → β} {b : β} (h : x.map f = .ok b) :
    ∃ a, x = .ok a ∧ f a = b := by
  cases x with
  | error e => exact absurd h (by simp [Except.map])
  | ok a => exact ⟨a, rfl, Except.ok.inj h⟩

/-! ### What a statement that succeeds has done -/

section Inversion

variable {β : Type} {env : Env} {db db' : Db} {b : β}

theorem Stmt.sql_ok {f : Db → Except SqlErr (β × Db)} (h : (Stmt.sql f).sem env db = .ok (b, db')) :
    f db = .ok (b, db') :=
  ok_of_failing h

theorem Stmt.sqlNow_ok {f : Time → Db → Except SqlErr (β × Db)}
    (h : (Stmt.sqlNow f).sem env db = .ok (b, db')) : f env.now db = .ok (b, db') :=
  ok_of_failing h

theorem Stmt.sqlWith_ok {f : Env → Db → Except SqlErr (β × Db)}
    (h : (Stmt.sqlWith f).sem env db = .ok (b, db')) : f env db = .ok (b, db') :=
  ok_of_failing h

theorem Stmt.queryE_ok {f : Db → Except SqlErr β}
    (h : (Stmt.queryE f).sem env db = .ok (b, db')) : f db = .ok b ∧ db' = db := by
  obtain ⟨a, ha, he⟩ := ok_map (ok_of_failing h)
  obtain ⟨rfl, rfl⟩ := Prod.mk.inj he
  exact ⟨ha, rfl⟩

theorem Stmt.query_ok {f : Db → β} (h : (Stmt.query f).sem env db = .ok (b, db')) :
    b = f db ∧ db' = db := by
  obtain ⟨rfl, rfl⟩ := Prod.mk.inj (Except.ok.inj (ok_of_failing h))
  exact ⟨rfl, rfl⟩

theorem Stmt.askEnv_ok {f : Env → β} (h : (Stmt.askEnv f).sem env db = .ok (b, db')) :
    b = f env ∧ db' = db := by
  obtain ⟨rfl, rfl⟩ := Prod.mk.inj (Except.ok.inj h)
  exact ⟨rfl, rfl⟩

theorem Stmt.rowsE_ok {f : Db → Except SqlErr (List β)} {b : List β}
    (h : (Stmt.rowsE f).sem env db = .ok (b, db')) :
    (∃ rows, f db = .ok rows ∧ b = match env.cut with | none => rows | some n => rows.take n) ∧
      db' = db := by
  obtain ⟨rows, hr, he⟩ := ok_map (ok_of_failing h)
  obtain ⟨rfl, rfl⟩ := Prod.mk.inj he
  exact ⟨⟨rows, hr, rfl⟩, rfl⟩

/-- The rows of a query, unless the connection is lost on the way. -/
def Env.received (env : Env) (rows : List β) : List β :=
  match env.cut with
  | none => rows
  | some n => rows.take n

theorem Env.mem_received {rows : List β} {r : β} (h : r ∈ env.received rows) : r ∈ rows := by
  unfold Env.received at h
  split at h
  · exact h
  · exact List.mem_of_mem_take h

theorem Env.received_whole {rows : List β} (h : env.cut = none) : env.received rows = rows := by
  simp [Env.received, h]

theorem Stmt.rows_ok {f : Db → List β} {t : Tag} {b : List β}
    (h : ((Stmt.rows f).tagged t).sem env db = .ok (b, db')) :
    b = env.received (f db) ∧ db' = db := by
  obtain ⟨rows, hr, he⟩ := ok_map (ok_of_failing h)
  obtain ⟨rfl, rfl⟩ := Prod.mk.inj he
  obtain rfl := Except.ok.inj hr
  exact ⟨rfl, rfl⟩

theorem Stmt.rows_error {f : Db → List β} {t : Tag} {e : SqlErr}
    (h : ((Stmt.rows f).tagged t).sem env db = .error e) : env.fail = true := by
  cases hf : env.fail with
  | true => rfl
  | false => exact absurd h (by simp [Stmt.tagged, Stmt.rows, Stmt.rowsE, Stmt.mk', hf, Except.map])

theorem uuidNew_ok {g : Guid} (h : uuidNew.sem env db = .ok (g, db')) : g = env.guid ∧ db' = db := by
  obtain ⟨rfl, rfl⟩ := Prod.mk.inj (Except.ok.inj h)
  exact ⟨rfl, rfl⟩

end Inversion

/-- A statement that changes nothing, neither when it runs nor at commit. -/
structure Stmt.Reads {β : Type} (q : Stmt β) : Prop where
  sem : ∀ ⦃env : Env⦄ ⦃db : Db⦄ ⦃b : β⦄ ⦃db' : Db⦄, q.sem env db = .ok (b, db') → db' = db
  write_eq : ∀ env v db, q.write env v db = (q.sem env db).map Prod.snd

theorem Stmt.Reads.write {β : Type} {q : Stmt β} (h : q.Reads) {env : Env} {v db db' : Db}
    (hw : q.write env v db = .ok db') : db' = db := by
  rw [h.write_eq] at hw
  obtain ⟨⟨b, db''⟩, hb, rfl⟩ := ok_map hw
  exact h.sem hb

theorem Stmt.reads_query {β : Type} (f : Db → β) : (Stmt.query f).Reads :=
  ⟨fun _ _ _ _ h => (query_ok h).2, fun _ _ _ => rfl⟩

theorem Stmt.reads_queryE {β : Type} (f : Db → Except SqlErr β) : (Stmt.queryE f).Reads :=
  ⟨fun _ _ _ _ h => (queryE_ok h).2, fun _ _ _ => rfl⟩

theorem Stmt.reads_rowsE {β : Type} (f : Db → Except SqlErr (List β)) : (Stmt.rowsE f).Reads :=
  ⟨fun _ _ _ _ h => (rowsE_ok h).2, fun _ _ _ => rfl⟩

theorem Stmt.reads_askEnv {β : Type} (f : Env → β) : (Stmt.askEnv f).Reads :=
  ⟨fun _ _ _ _ h => (askEnv_ok h).2, fun _ _ _ => rfl⟩

theorem Stmt.reads_ordered {β : Type} {q : (Guid → Nat) → Stmt β} (h : ∀ ties, (q ties).Reads) :
    (Stmt.ordered q).Reads :=
  ⟨fun _ _ _ _ hx => (h _).sem hx, fun env _ _ => (h env.ties).write_eq env _ _⟩

theorem Stmt.Reads.tagged {β : Type} {q : Stmt β} (h : q.Reads) (t : Tag) : (q.tagged t).Reads :=
  ⟨h.sem, h.write_eq⟩

theorem reads_uuidNew : uuidNew.Reads := ⟨fun _ _ _ _ h => (uuidNew_ok h).2, fun _ _ _ => rfl⟩

/-! ## Rows in and out -/

namespace Db

/-- `g` is a row of `accounts`. -/
def hasAccount (db : Db) (g : Guid) : Bool := db.accounts.any (·.guid == g)

def hasBook (db : Db) (g : Guid) : Bool := db.books.any (·.guid == g)

def hasTransaction (db : Db) (g : Guid) : Bool := db.transactions.any (·.guid == g)

def hasItem (db : Db) (g : Guid) : Bool := db.items.any (·.guid == g)

/-- A nullable reference into `accounts` resolves. -/
def refOk (db : Db) (parent : Option Guid) : Bool := parent.all db.hasAccount

/-- `INSERT INTO accounts`; a new row carries no bank link. -/
def insertAccount (a : Account) (db : Db) : Except SqlErr Db := do
  require (a.name.length ≤ 255 && a.accountType.length ≤ 32) .tooLong
  require (!db.hasAccount a.guid) (.unique "accounts_pkey")
  require (db.hasBook a.bookGuid && db.refOk a.parentGuid) .foreignKey
  return { db with accounts := db.accounts ++ [{ a with plaid := none }] }

theorem insertAccount_ok {a : Account} {db db' : Db} (h : db.insertAccount a = .ok db') :
    (db.hasAccount a.guid = false ∧ db.hasBook a.bookGuid = true ∧ db.refOk a.parentGuid = true) ∧
      db' = { db with accounts := db.accounts ++ [{ a with plaid := none }] } := by
  obtain ⟨-, h⟩ := require_bind h
  obtain ⟨h1, h⟩ := require_bind h
  obtain ⟨h2, h⟩ := require_bind h
  simp only [Bool.and_eq_true, Bool.not_eq_true'] at h1 h2
  exact ⟨⟨h1, h2⟩, (Except.ok.inj h).symm⟩

/-- `idx_transactions_plaid_txn`: unique per book where the plaid id is present. -/
def plaidTxnTaken (db : Db) (book : Guid) (id : Option String) : Bool :=
  id.any fun i => db.transactions.any fun t => t.bookGuid == book && t.plaidTxnId == some i

/-- `INSERT INTO transactions`. -/
def insertTransaction (t : Transaction) (db : Db) : Except SqlErr Db := do
  require (t.customId.length ≤ 50) .tooLong
  require (!db.hasTransaction t.guid) (.unique "transactions_pkey")
  require (!db.plaidTxnTaken t.bookGuid t.plaidTxnId) (.unique "idx_transactions_plaid_txn")
  require (db.hasBook t.bookGuid) .foreignKey
  return { db with transactions := db.transactions ++ [t] }

theorem insertTransaction_ok {t : Transaction} {db db' : Db}
    (h : db.insertTransaction t = .ok db') :
    (db.hasTransaction t.guid = false ∧ db.plaidTxnTaken t.bookGuid t.plaidTxnId = false ∧
      db.hasBook t.bookGuid = true) ∧
      db' = { db with transactions := db.transactions ++ [t] } := by
  obtain ⟨-, h⟩ := require_bind h
  obtain ⟨h1, h⟩ := require_bind h
  obtain ⟨h2, h⟩ := require_bind h
  obtain ⟨h3, h⟩ := require_bind h
  simp only [Bool.not_eq_true'] at h1 h2
  exact ⟨⟨h1, h2, h3⟩, (Except.ok.inj h).symm⟩

/-- `INSERT INTO splits`; `reconcile_state` is a `CHAR(1)`. -/
def insertSplit (sp : Split) (db : Db) : Except SqlErr Db := do
  require (sp.reconcileState.length ≤ 1) .tooLong
  require (!db.splits.any (·.guid == sp.guid)) (.unique "splits_pkey")
  require (db.hasTransaction sp.txGuid && db.hasAccount sp.accountGuid) .foreignKey
  return { db with splits := db.splits ++ [sp] }

theorem insertSplit_ok {sp : Split} {db db' : Db} (h : db.insertSplit sp = .ok db') :
    (db.splits.any (·.guid == sp.guid) = false ∧ db.hasTransaction sp.txGuid = true ∧
      db.hasAccount sp.accountGuid = true) ∧ db' = { db with splits := db.splits ++ [sp] } := by
  obtain ⟨-, h⟩ := require_bind h
  obtain ⟨h1, h⟩ := require_bind h
  obtain ⟨h2, h⟩ := require_bind h
  simp only [Bool.and_eq_true, Bool.not_eq_true'] at h1 h2
  exact ⟨⟨h1, h2⟩, (Except.ok.inj h).symm⟩

/-- No remaining row refers to an account that is gone. -/
def accountRefsOk (db : Db) (gone : List Account) : Bool :=
  db.accounts.all (fun a => a.parentGuid.all fun p => !gone.any (·.guid == p)) &&
    db.splits.all (fun sp => !gone.any (·.guid == sp.accountGuid)) &&
    db.books.all (fun b => b.rootAccountGuid.all fun r => !gone.any (·.guid == r))

/-- `DELETE FROM accounts WHERE c`, with the number of rows. -/
def deleteAccounts (c : Account → Bool) (db : Db) : Except SqlErr (Nat × Db) := do
  let db' := { db with accounts := deleteWhere c db.accounts }
  require (db'.accountRefsOk (db.accounts.filter c)) .foreignKey
  return (db.accounts.countP c, db')

theorem deleteAccounts_ok {c : Account → Bool} {n : Nat} {db db' : Db}
    (h : db.deleteAccounts c = .ok (n, db')) :
    db' = { db with accounts := deleteWhere c db.accounts } ∧
      db'.accountRefsOk (db.accounts.filter c) = true ∧ n = db.accounts.countP c := by
  obtain ⟨h1, h⟩ := require_bind h
  obtain ⟨rfl, rfl⟩ := Prod.mk.inj (Except.ok.inj h)
  exact ⟨rfl, h1, rfl⟩

/-- `DELETE FROM transactions WHERE c`; their splits go with them. -/
def deleteTransactions (c : Transaction → Bool) (db : Db) : Nat × Db :=
  let gone := db.transactions.filter c
  (db.transactions.countP c,
    { db with
      transactions := deleteWhere c db.transactions
      splits := deleteWhere (fun sp => gone.any (·.guid == sp.txGuid)) db.splits })

theorem deleteAccounts_congr {c c' : Account → Bool} {db : Db}
    (h : ∀ a ∈ db.accounts, c a = c' a) : db.deleteAccounts c = db.deleteAccounts c' := by
  unfold deleteAccounts
  rw [deleteWhere_congr h, List.filter_congr h, List.countP_congr fun a ha => by rw [h a ha]]

theorem deleteTransactions_congr {c c' : Transaction → Bool} {db : Db}
    (h : ∀ t ∈ db.transactions, c t = c' t) :
    db.deleteTransactions c = db.deleteTransactions c' := by
  unfold deleteTransactions
  rw [deleteWhere_congr h, List.filter_congr h, List.countP_congr fun t ht => by rw [h t ht]]

/-- `DELETE FROM plaid_items WHERE c`; their staged rows go with them. -/
def deleteItems (c : PlaidItem → Bool) (db : Db) : Nat × Db :=
  let gone := db.items.filter c
  (db.items.countP c,
    { db with
      items := deleteWhere c db.items
      staged := deleteWhere (fun st => gone.any (·.guid == st.itemGuid)) db.staged })

end Db

end Antimoney
