import Antimoney.Concurrent
import Antimoney.Register.Answers
import Mathlib.Data.List.Perm.Basic

/-!
# The batched transfer column

`getTransferAccountsBatch` reads the splits of all transactions of a register with one query, whose
rows come in any order, and folds them into two maps. `transferColumn` is what one transaction asks
for: the account of its one split outside the register's account, if there is exactly one.

**`fillTransferAccounts_each`**: for every order of the rows each entry gets the column of its own
transaction.
-/

namespace Antimoney

open Antimoney.Lib Antimoney.Gnc Prog

/-! ## One transaction -/

/-- The splits of a transaction outside an account. -/
def Db.outsideSplits (db : Db) (account tx : Guid) : List Split :=
  db.splits.filter fun s => s.txGuid == tx && s.accountGuid != account

/-- The name of an account. -/
def Db.accountName (db : Db) (g : Guid) : String :=
  ((db.accounts.find? (·.guid == g)).map (·.name)).getD ""

/-- The transfer column of a transaction: name and guid, none when empty. -/
def Db.transferColumn (db : Db) (account tx : Guid) : String × Option Guid :=
  match db.outsideSplits account tx with
  | [s] => (db.accountName s.accountGuid, some s.accountGuid)
  | _ => (splitTransactionLabel, none)

/-- An entry with the column of its transaction. -/
def Db.withTransfer (db : Db) (account : Guid) (e : RegisterEntry) : RegisterEntry :=
  { e with
    transferAccount := (db.transferColumn account e.transactionGuid).1
    transferAccountGuid := (db.transferColumn account e.transactionGuid).2 }

/-! ## The batch, in any order -/

/-- The batch query of `getTransferAccountsBatch`, with its rows in some order. -/
def selectTransfersIn (order : List (Guid × Guid × String) → List (Guid × Guid × String))
    (txns : List Guid) (exclude : Guid) : Stmt (List (Guid × Guid × String)) :=
  .query fun db => order (db.transferRows txns.contains exclude)

/-- `fillTransferAccounts` over that query. -/
def fillTransferAccountsIn (order : List (Guid × Guid × String) → List (Guid × Guid × String))
    (entries : List RegisterEntry) (account : Guid) : Call (List RegisterEntry) := do
  if entries.isEmpty then return entries
  else
    let rows ← exec "" (selectTransfersIn order (distinctTxns [] entries) account)
    let scan := rows.foldl TransferScan.row ⟨fun _ => 0, fun _ => none⟩
    return entries.map fun e =>
      let info := scan.info e.transactionGuid
      { e with transferAccount := info.1, transferAccountGuid := info.2 }

/-- The order of the tables is one of them. -/
theorem fillTransferAccountsIn_id (entries : List RegisterEntry) (account : Guid) :
    fillTransferAccountsIn id entries account = fillTransferAccounts entries account := rfl

/-! ## The fold -/

/-- The scan counts the rows of a transaction. -/
theorem scan_counts (g : Guid) (rows : List (Guid × Guid × String)) (st : TransferScan)
    (hg : ∀ r ∈ rows, r.1 = g) :
    (rows.foldl TransferScan.row st).counts g = st.counts g + rows.length := by
  induction rows generalizing st with
  | nil => rfl
  | cons r rows ih =>
    have hr := hg r List.mem_cons_self
    rw [List.foldl_cons, ih _ fun x hx => hg x (List.mem_cons_of_mem _ hx), List.length_cons]
    simp only [TransferScan.row, hr, if_true]
    omega

/-- The column that the rows of one transaction give. -/
def columnOf : List (Guid × Guid × String) → String × Option Guid
  | [r] => (r.2.2, some r.2.1)
  | _ => (splitTransactionLabel, none)

/-- What the scan knows of a transaction once it has seen its rows. -/
theorem scan_info {g : Guid} {rows : List (Guid × Guid × String)} (hg : ∀ r ∈ rows, r.1 = g) :
    (rows.foldl TransferScan.row ⟨fun _ => 0, fun _ => none⟩).info g = columnOf rows := by
  have hcount := scan_counts g rows ⟨fun _ => 0, fun _ => none⟩ hg
  rw [Nat.zero_add] at hcount
  match rows with
  | [] => exact if_neg (by rw [hcount]; simp)
  | [r] =>
    obtain rfl := hg r List.mem_cons_self
    simp [TransferScan.row, TransferScan.info, columnOf]
  | r :: r' :: rows => exact if_neg (by rw [hcount]; simp)

/-- The order of the rows does not matter: only one has no other order. -/
theorem columnOf_perm {rows rows' : List (Guid × Guid × String)} (h : rows.Perm rows') :
    columnOf rows = columnOf rows' := by
  have hlen := h.length_eq
  match rows, rows' with
  | [], [] => rfl
  | [r], [r'] => rw [List.perm_singleton.mp h]
  | _ :: _ :: _, _ :: _ :: _ => rfl

section Rows

variable {db : Db} (hdb : ∀ s ∈ db.splits, db.hasAccount s.accountGuid = true)

include hdb

/-- No split is lost in the join. -/
theorem transferRows_eq (account tx : Guid) :
    db.transferRows (· == tx) account =
      (db.outsideSplits account tx).map fun s =>
        (s.txGuid, s.accountGuid, db.accountName s.accountGuid) := by
  unfold Db.transferRows Db.joinAccounts Db.outsideSplits
  rw [List.map_filterMap, ← List.filterMap_eq_map]
  refine List.filterMap_congr fun s hs => ?_
  have hacc := hdb s (List.mem_of_mem_filter hs)
  obtain ⟨a, ha⟩ : ∃ a, db.accounts.find? (·.guid == s.accountGuid) = some a := by
    rw [← Option.isSome_iff_exists, List.find?_isSome]
    simpa [Db.hasAccount] using hacc
  have hg : a.guid = s.accountGuid := by simpa using List.find?_some ha
  have hname : db.accountName s.accountGuid = a.name := by
    unfold Db.accountName
    rw [ha]
    rfl
  rw [ha]
  simp [hg, hname]

theorem transferColumn_eq (account tx : Guid) :
    columnOf (db.transferRows (· == tx) account) = db.transferColumn account tx := by
  rw [transferRows_eq hdb]
  unfold Db.transferColumn
  match db.outsideSplits account tx with
  | [] | [s] | _ :: _ :: _ => rfl

/-- Rows that come in another order tell the same of a transaction. -/
theorem scan_perm {account tx : Guid} {txns : List Guid} (ht : tx ∈ txns)
    {rows : List (Guid × Guid × String)}
    (hrows : rows.Perm (db.transferRows txns.contains account)) :
    (rows.foldl TransferScan.row ⟨fun _ => 0, fun _ => none⟩).info tx =
      db.transferColumn account tx := by
  have hone : ∀ r ∈ rows.filter (·.1 == tx), r.1 = tx := fun r hr => by
    simpa using (List.mem_filter.mp hr).2
  rw [scan_filter tx _ _ ⟨fun _ => 0, fun _ => none⟩ rfl rfl, scan_info hone,
    columnOf_perm (hrows.filter _), db.transferRows_filter (by simpa using ht),
    transferColumn_eq hdb]

/-- **Each entry gets the column of its own transaction**, whatever the order of the rows. -/
theorem fillTransferAccounts_each {envs : Nat → Env} (ha : ∀ n, (envs n).Answers)
    {order : List (Guid × Guid × String) → List (Guid × Guid × String)}
    (ho : ∀ rows, (order rows).Perm rows) (entries : List RegisterEntry) (account : Guid) :
    ((fillTransferAccountsIn order entries account).run machine envs (.idle db)).1 =
      .ok (entries.map (db.withTransfer account)) := by
  have hy : (fillTransferAccountsIn order entries account).Yields machine envs db
      (· = .ok (entries.map (db.withTransfer account))) := by
    unfold fillTransferAccountsIn
    by_cases he : entries.isEmpty
    · rw [if_pos he, List.isEmpty_iff.mp he]
      exact yields_ret rfl
    · rw [if_neg he]
      have hrows : (selectTransfersIn order (distinctTxns [] entries) account).sem (envs 0) db =
          .ok (order (db.transferRows (distinctTxns [] entries).contains account), db) :=
        (ha 0).query _
      refine yields_bind (exec_yields hrows (Eq.refl _)) ?_
      rintro k _ rfl
      refine yields_ret (congrArg Except.ok (List.map_congr_left fun e hmem => ?_))
      have ht : e.transactionGuid ∈ distinctTxns [] entries := by
        rw [mem_distinctTxns]
        exact .inr (List.mem_map_of_mem hmem)
      have hinfo := scan_perm hdb ht (ho (db.transferRows _ account))
      dsimp only
      rw [hinfo]
      rfl
  obtain ⟨r, hr, hrun⟩ := hy.run
  rw [hrun, hr]

end Rows

/-- The purchase of `purchased` as the register of account 12 lists it, before the columns. -/
def purchaseEntry : RegisterEntry :=
  ⟨103, "", 1641639600, "food", "", none, none, some 10, -10, "", 106, "n"⟩

/-- `fillTransferAccounts_each` on it, with the rows reversed. -/
theorem fillTransferAccounts_purchase :
    ((fillTransferAccountsIn List.reverse [purchaseEntry, purchaseEntry] 12).run machine (calm 200)
      (.idle purchased)).1 =
        .ok ([purchaseEntry, purchaseEntry].map (purchased.withTransfer 12)) :=
  fillTransferAccounts_each (by decide +kernel) (calm_answers 200) List.reverse_perm _ 12

end Antimoney
