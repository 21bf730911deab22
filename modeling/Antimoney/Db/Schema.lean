/-!
# The schema

The tables of `backend/migrations` after migration 11, one structure per row. A table is the list
of its rows in physical order, which is also the order a query without `ORDER BY` returns.

A `UUID` column is a `Guid`, a `BIGINT` an `Int64`, a `TIMESTAMPTZ` an instant in seconds, a
`DATE` a day number. `JSONB` metadata keeps the one key the server ever writes, `plaid`.

Columns no modelled statement reads are left out (`password_hash`).
-/

namespace Antimoney

abbrev Guid := Nat

/-- An instant, in seconds. -/
abbrev Time := Int

/-- A calendar day, counted from the epoch. -/
abbrev Day := Int

/-- How a UUID is written: as the database prints it, or another way that `uuid.Parse` and the
database also read (capitals, braces, no hyphens). -/
inductive Spelling where
  | canonical
  | variant (n : Nat)
  deriving DecidableEq, Repr

/-- A `guid` as it travels in a request or a file: the text of a UUID, or any other text. Texts
are equal when the spelling is. -/
inductive GuidText where
  | uuid (g : Guid) (spelling : Spelling)
  | malformed (s : String)
  deriving DecidableEq, Repr

/-- The text the database and `uuid.New` print. -/
def Guid.text (g : Guid) : GuidText := .uuid g .canonical

/-- The errors the database reports for a statement. -/
inductive SqlErr where
  | failed
  | unique (constraint : String)
  | foreignKey
  | check
  | tooLong
  | badInput
  | outOfRange
  deriving DecidableEq, Repr

/-- The cast of a text parameter to `uuid`. -/
def GuidText.parse : GuidText → Except SqlErr Guid
  | .uuid g _ => .ok g
  | .malformed _ => .error .badInput

/-- A position in the bank's sequence of `/transactions/sync` pages; the empty cursor is `0`. -/
abbrev Cursor := Nat

structure User where
  id : Guid
  email : String
  name : String
  deriving DecidableEq, Repr

structure Book where
  guid : Guid
  rootAccountGuid : Option Guid
  userId : Guid
  deriving DecidableEq, Repr

/-- `metadata->'plaid'` of an account. -/
structure PlaidLink where
  /-- The text `LinkAccounts` was given. -/
  itemGuid : GuidText
  accountId : String
  institutionName : String
  lastSyncedAt : Option Time
  deriving DecidableEq, Repr

structure Account where
  guid : Guid
  name : String
  accountType : String
  parentGuid : Option Guid
  bookGuid : Guid
  placeholder : Bool
  description : String
  /-- `metadata`: its `plaid` key. -/
  plaid : Option PlaidLink
  version : Nat
  createdAt : Time
  updatedAt : Time
  deriving DecidableEq, Repr

structure Transaction where
  guid : Guid
  customId : String
  bookGuid : Guid
  postDate : Time
  enterDate : Time
  description : String
  /-- `metadata->'plaid'->>'transaction_id'`. -/
  plaidTxnId : Option String
  version : Nat
  createdAt : Time
  updatedAt : Time
  deriving DecidableEq, Repr

structure Split where
  guid : Guid
  txGuid : Guid
  accountGuid : Guid
  memo : String
  valueNum : Int64
  valueDenom : Int64
  quantityNum : Int64
  quantityDenom : Int64
  reconcileState : String
  createdAt : Time
  deriving DecidableEq, Repr

/-! ### The export format, which snapshots store -/

structure ExportAccount where
  guid : GuidText
  name : String
  accountType : String
  parentGuid : Option GuidText
  placeholder : Bool
  description : String
  deriving DecidableEq, Repr

structure ExportSplit where
  guid : GuidText
  accountGuid : GuidText
  memo : String
  valueNum : Int64
  valueDenom : Int64
  quantityNum : Int64
  quantityDenom : Int64
  reconcileState : String
  deriving DecidableEq, Repr

/-- The two dates are texts; `none` is a text that is not a timestamp. -/
structure ExportTransaction where
  guid : GuidText
  postDate : Option Time
  enterDate : Option Time
  description : String
  splits : List ExportSplit
  deriving DecidableEq, Repr

structure ExportData where
  accounts : List ExportAccount
  transactions : List ExportTransaction
  deriving DecidableEq, Repr

inductive SnapshotTrigger where
  | manual
  | scheduled
  | active
  deriving DecidableEq, Repr

structure Snapshot where
  id : Guid
  bookGuid : Guid
  label : String
  trigger : SnapshotTrigger
  data : ExportData
  createdAt : Time
  deriving DecidableEq, Repr

structure SnapshotConfig where
  id : Guid
  bookGuid : Guid
  frequencyHours : Int
  ttlHours : Int
  activeMode : Bool
  createdAt : Time
  updatedAt : Time
  deriving DecidableEq, Repr

/-! ### Bank sync -/

abbrev Key := Nat
abbrev Nonce := Nat
abbrev Token := String

/-- A sealed token, ideally: the key, nonce, additional data and plaintext it was made from. Only
`decrypt` looks inside. -/
structure Ciphertext where
  key : Key
  nonce : Nonce
  aad : List Char
  plaintext : Token
  deriving DecidableEq, Repr

structure PlaidItem where
  guid : Guid
  bookGuid : Guid
  itemId : String
  institutionName : String
  ciphertext : Ciphertext
  nonce : Nonce
  syncCursor : Option Cursor
  importPending : Bool
  lastSyncedAt : Option Time
  version : Nat
  createdAt : Time
  updatedAt : Time
  deriving DecidableEq, Repr

/-- A row of `plaid_staged_transactions`. -/
structure Staged where
  bookGuid : Guid
  itemGuid : Guid
  transactionId : String
  pendingTransactionId : Option String
  plaidAccountId : String
  postDate : Day
  description : String
  amountNum : Int64
  amountDenom : Int64
  pending : Bool
  dismissed : Bool
  createdAt : Time
  deriving DecidableEq, Repr

/-- A row of `plaid_migration_audit` as the server writes it. -/
structure Audit where
  migration : String
  payload : PlaidItem
  deriving DecidableEq, Repr

/-- The database, with the session-level advisory locks that are held. -/
structure Db where
  users : List User
  books : List Book
  accounts : List Account
  transactions : List Transaction
  splits : List Split
  snapshots : List Snapshot
  configs : List SnapshotConfig
  items : List PlaidItem
  staged : List Staged
  audit : List Audit
  locks : List GuidText
  deriving DecidableEq, Repr

/-- The database after the migrations, before anyone registers. -/
def Db.empty : Db := ⟨[], [], [], [], [], [], [], [], [], [], []⟩

/-- No row of any table has the identifier `g`. -/
def Db.unused (db : Db) (g : Guid) : Bool :=
  db.users.all (·.id != g) && db.books.all (·.guid != g) && db.accounts.all (·.guid != g) &&
    db.transactions.all (·.guid != g) && db.splits.all (·.guid != g) &&
    db.snapshots.all (·.id != g) && db.configs.all (·.id != g) && db.items.all (·.guid != g)

end Antimoney
