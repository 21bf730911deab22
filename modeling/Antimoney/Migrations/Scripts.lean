import Antimoney.Db.Schema
import Antimoney.Lib.Survivors

/-!
# The clean-up migrations

`000008_plaid_items_unique.up.sql` to `000011_plaid_staging_dismissed.up.sql`, on the tables they
touch. The rows have the columns of schema version 7, `metadata` as the whole `JSONB` value.

`min(ctid)` picks the survivor of a group: where the rows lie is arbitrary, and another at each
script (`Session`). `GROUP BY` takes two null `book_guid` for equal, a unique index does not.
`to_jsonb` of a row is the row. The columns of `plaid_migration_audit` that the database fills in
by itself (`id`) are left out, and so are indexes that are not unique.
-/

namespace Antimoney.Migrations

open Antimoney.Lib

/-! ## `JSONB` -/

inductive Jsonb where
  | null
  | bool (b : Bool)
  | number (digits : String)
  | string (s : String)
  | array (elems : List Jsonb)
  | object (fields : List (String × Jsonb))
  deriving Repr

/-- `j -> key`. -/
def Jsonb.get (j : Jsonb) (key : String) : Option Jsonb :=
  match j with
  | .object fields => fields.lookup key
  | _ => none

/-- `j ->> key`; a value that is no string is printed. -/
def Jsonb.getText (print : Jsonb → String) (j : Jsonb) (key : String) : Option String :=
  match j.get key with
  | none => none
  | some .null => none
  | some (.string s) => some s
  | some v => some (print v)

/-- `j - key`, an error on a scalar. -/
def Jsonb.minus (j : Jsonb) (key : String) : Except SqlErr Jsonb :=
  match j with
  | .object fields => .ok (.object (fields.filter fun f => f.1 != key))
  | .array elems => .ok (.array (elems.filter fun | .string s => s != key | _ => true))
  | _ => .error .badInput

/-- `j->'plaid'->>key`. -/
def Jsonb.plaidText (print : Jsonb → String) (j : Jsonb) (key : String) : Option String :=
  (j.get "plaid").bind fun p => p.getText print key

/-! ## Tables -/

structure PlaidItem where
  guid : Guid
  bookGuid : Guid
  itemId : String
  institutionName : String
  accessTokenCiphertext : List UInt8
  accessTokenNonce : List UInt8
  syncCursor : Option String
  importPending : Bool
  lastSyncedAt : Option Time
  version : Int32
  createdAt : Time
  updatedAt : Time
  deriving Repr

structure Transaction where
  guid : Guid
  bookGuid : Option Guid
  customId : String
  postDate : Time
  enterDate : Time
  description : String
  metadata : Jsonb
  version : Int32
  createdAt : Time
  updatedAt : Time
  deriving Repr

structure Account where
  guid : Guid
  bookGuid : Option Guid
  name : String
  accountType : String
  parentGuid : Option Guid
  placeholder : Bool
  description : String
  metadata : Jsonb
  version : Int32
  createdAt : Time
  updatedAt : Time
  deriving Repr

/-- `payload` of a row of `plaid_migration_audit`: `to_jsonb` of a row, or an object with the keys
`account_guid` and `plaid`. -/
inductive Payload where
  | item (p : PlaidItem)
  | transaction (t : Transaction)
  | link (accountGuid : Guid) (plaid : Jsonb)
  deriving Repr

structure AuditRow where
  migration : String
  payload : Payload
  backedUpAt : Time
  deriving Repr

/-- The tables, those that the migrations create only once they did. -/
structure Tables where
  plaidItems : List PlaidItem
  transactions : List Transaction
  splits : List Split
  accounts : List Account
  /-- `plaid_migration_audit`. -/
  audit : Option (List AuditRow)
  /-- `plaid_staged_transactions`. -/
  staged : Option (List Staged)

/-- When a script runs, and where the rows of the table it cleans up lie. -/
structure Session where
  now : Time
  ctid : Guid → Nat

/-! ## Keys -/

/-- `book_guid, item_id`. -/
def PlaidItem.key (p : PlaidItem) : Option (Guid × String) := some (p.bookGuid, p.itemId)

/-- `book_guid, metadata->'plaid'->>'transaction_id'`, as `GROUP BY` compares it. -/
def Transaction.key (print : Jsonb → String) (t : Transaction) : Option (Option Guid × String) :=
  (t.metadata.plaidText print "transaction_id").map (Prod.mk t.bookGuid)

/-- The same, as `idx_transactions_plaid_txn` compares it. -/
def Transaction.indexKey (print : Jsonb → String) (t : Transaction) : Option (Guid × String) :=
  t.bookGuid.bind fun b => (t.metadata.plaidText print "transaction_id").map (Prod.mk b)

/-- `book_guid, metadata->'plaid'->>'account_id'`, as `GROUP BY` compares it. -/
def Account.key (print : Jsonb → String) (a : Account) : Option (Option Guid × String) :=
  (a.metadata.plaidText print "account_id").map (Prod.mk a.bookGuid)

/-- The same, as `idx_accounts_plaid_account` compares it. -/
def Account.indexKey (print : Jsonb → String) (a : Account) : Option (Guid × String) :=
  a.bookGuid.bind fun b => (a.metadata.plaidText print "account_id").map (Prod.mk b)

/-! ## The scripts -/

/-- `ADD CONSTRAINT … UNIQUE`, `CREATE UNIQUE INDEX`, and what they check of a later statement. -/
def requireUnique {α κ : Type} [DecidableEq κ] (constraint : String) (key : α → Option κ)
    (t : List α) : Except SqlErr Unit :=
  if UniqueOn key t then .ok () else .error (.unique constraint)

/-- A table the script needs. -/
def existing {α : Type} (t : Option α) : Except SqlErr α :=
  match t with
  | some t => .ok t
  | none => .error .failed

/-- `000008`. -/
def plaidItemsUnique (s : Session) (db : Tables) : Except SqlErr Tables := do
  let audit := db.audit.getD []
  let duplicate := surplus (fun p => s.ctid p.guid) PlaidItem.key db.plaidItems
  let audit := audit ++ (db.plaidItems.filter duplicate).map fun p => ⟨"000008", .item p, s.now⟩
  let plaidItems := deleteWhere duplicate db.plaidItems
  requireUnique "plaid_items_book_item_unique" PlaidItem.key plaidItems
  return { db with plaidItems, audit := some audit }

/-- Splits cascade: `tx_guid … REFERENCES transactions(guid) ON DELETE CASCADE`. -/
def cascade (deleted : List Transaction) (splits : List Split) : List Split :=
  deleteWhere (fun sp => deleted.any fun t => t.guid == sp.txGuid) splits

/-- `000009`. -/
def plaidTxnUnique (print : Jsonb → String) (s : Session) (db : Tables) :
    Except SqlErr Tables := do
  let audit ← existing db.audit
  let duplicate := surplus (fun t => s.ctid t.guid) (Transaction.key print) db.transactions
  let deleted := db.transactions.filter duplicate
  let audit := audit ++ deleted.map fun t => ⟨"000009", .transaction t, s.now⟩
  let transactions := deleteWhere duplicate db.transactions
  let splits := cascade deleted db.splits
  requireUnique "idx_transactions_plaid_txn" (Transaction.indexKey print) transactions
  return { db with
    transactions
    splits
    audit := some audit }

/-- `SET metadata = metadata - 'plaid'`. -/
def Account.strip (a : Account) : Except SqlErr Account := do
  let metadata ← a.metadata.minus "plaid"
  return { a with metadata }

/-- `000010`: the table, then one holder of each link per book. -/
def plaidStaging (print : Jsonb → String) (s : Session) (db : Tables) :
    Except SqlErr Tables := do
  if db.staged.isSome then throw .failed
  let duplicate := surplus (fun a => s.ctid a.guid) (Account.key print) db.accounts
  let accounts ← db.accounts.mapM fun a => if duplicate a then a.strip else .ok a
  requireUnique "idx_accounts_plaid_account" (Account.indexKey print) accounts
  return { db with
    accounts
    staged := some [] }

/-- `SET metadata = metadata - 'plaid', updated_at = NOW(), version = version + 1`. -/
def Account.stripBumped (now : Time) (a : Account) : Except SqlErr Account := do
  let stripped ← a.strip
  if a.version = Int32.maxValue then throw .outOfRange
  return { stripped with
    updatedAt := now
    version := a.version + 1 }

/-- `000011`. -/
def plaidStagingDismissed (print : Jsonb → String) (s : Session) (db : Tables) :
    Except SqlErr Tables := do
  let staged ← existing db.staged
  let staged := staged.map fun st => { st with dismissed := false }
  unless staged.all fun st => decide (0 < st.amountDenom) do throw .check
  let audit ← existing db.audit
  let duplicate := surplus (fun a => s.ctid a.guid) (Account.key print) db.accounts
  let audit := audit ++ (db.accounts.filter duplicate).map fun a =>
    ⟨"000011", .link a.guid ((a.metadata.get "plaid").getD .null), s.now⟩
  let accounts ← db.accounts.mapM fun a => if duplicate a then a.stripBumped s.now else .ok a
  requireUnique "idx_accounts_plaid_account" (Account.indexKey print) accounts
  return { db with
    accounts
    audit := some audit
    staged := some staged }

/-- The sessions of the four scripts. -/
structure Deployment where
  items : Session
  transactions : Session
  links : Session
  relinks : Session

/-- Migrations 8 to 11. -/
def migrate (print : Jsonb → String) (d : Deployment) (db : Tables) : Except SqlErr Tables := do
  let db ← plaidItemsUnique d.items db
  let db ← plaidTxnUnique print d.transactions db
  let db ← plaidStaging print d.links db
  plaidStagingDismissed print d.relinks db

end Antimoney.Migrations
