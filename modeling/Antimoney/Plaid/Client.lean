import Antimoney.Db.Schema

/-!
# The bank client

`internal/plaid/client.go`: the transactions the bank reports and `convertTxns`, which normalizes
them. The amount of an `ApiTxn` is already `int64(math.Round(amount * 100))`, its date the result
of `time.Parse`.
-/

namespace Antimoney

/-- A transaction as the bank reports it. -/
structure ApiTxn where
  transactionId : String
  /-- Empty when the transaction replaces no pending one. -/
  pendingTransactionId : String
  date : Option Day
  name : String
  cents : Int64
  accountId : String
  pending : Bool
  deriving DecidableEq, Repr

/-- `PlaidTxn`. -/
structure PlaidTxn where
  transactionId : String
  pendingTransactionId : String
  date : Day
  description : String
  amountNum : Int64
  amountDenom : Int64
  accountId : String
  pending : Bool
  deriving DecidableEq, Repr

/-- `SyncDelta`: one page of `/transactions/sync`. -/
structure SyncDelta where
  added : List PlaidTxn
  modified : List PlaidTxn
  removed : List String
  deriving DecidableEq, Repr

/-- `PlaidAccount`. -/
structure PlaidAccount where
  accountId : String
  name : String
  mask : String
  type : String
  deriving DecidableEq, Repr

/-- The page as the bank sends it. -/
structure ApiPage where
  added : List ApiTxn
  modified : List ApiTxn
  removed : List String
  nextCursor : Cursor
  hasMore : Bool
  deriving DecidableEq, Repr

/-- What a call to the bank can fail with: `ErrReauthRequired`, or anything else. -/
inductive BankErr where
  | reauthRequired
  | api
  deriving DecidableEq, Repr

/-- The body of the loop in `convertTxns`; a transaction without a date is skipped. -/
def convertTxn (t : ApiTxn) : Option PlaidTxn :=
  t.date.map fun date =>
    { transactionId := t.transactionId
      pendingTransactionId := t.pendingTransactionId
      date := date
      description := t.name
      amountNum := t.cents
      amountDenom := 100
      accountId := t.accountId
      pending := t.pending }

/-- `convertTxns`. -/
def convertTxns (txns : List ApiTxn) : List PlaidTxn := txns.filterMap convertTxn

/-- The delta `SyncTransactions` makes of a page. -/
def ApiPage.delta (p : ApiPage) : SyncDelta :=
  ⟨convertTxns p.added, convertTxns p.modified, p.removed⟩

theorem convertTxns_denom {txns : List ApiTxn} {t : PlaidTxn} (h : t ∈ convertTxns txns) :
    t.amountDenom = 100 := by
  obtain ⟨a, _, ha⟩ := List.mem_filterMap.mp h
  unfold convertTxn at ha
  cases hd : a.date with
  | none => rw [hd] at ha; exact absurd ha (by simp)
  | some d =>
    rw [hd] at ha
    obtain rfl := Option.some.inj ha
    rfl

end Antimoney
