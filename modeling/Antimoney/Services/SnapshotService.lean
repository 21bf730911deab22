import Antimoney.Services.AccountService

/-!
# The snapshot service

`internal/services/snapshot_service.go`: the schedule of a book, its stored snapshots and their
quotas, and `buildExportData`, which reads a book for a snapshot or an export.
-/

namespace Antimoney

open Antimoney.Lib

/-- `models.SnapshotSummary`: a snapshot without its data. -/
structure SnapshotSummary where
  id : Guid
  bookGuid : Guid
  label : String
  trigger : SnapshotTrigger
  createdAt : Time
  deriving DecidableEq, Repr

def Snapshot.summary (s : Snapshot) : SnapshotSummary :=
  ⟨s.id, s.bookGuid, s.label, s.trigger, s.createdAt⟩

def quotaScheduled : Nat := 23

def quotaActive : Nat := 12

def quotaManual : Nat := 15

/-! ## Statements -/

/-- The query of `GetConfig`. -/
def selectConfig (book : Guid) : Stmt (Option SnapshotConfig) :=
  .query fun db => db.configs.find? (·.bookGuid == book)

/-- An `INT` column. -/
def fitsInt (n : Int) : Bool := decide (-2147483648 ≤ n ∧ n ≤ 2147483647)

/-- `INSERT INTO snapshot_configs … ON CONFLICT (book_guid) DO UPDATE`. -/
def upsertConfigStmt (book : Guid) (frequencyHours ttlHours : Int) (activeMode : Bool) :
    Stmt SnapshotConfig :=
  .locking (fun _ => [⟨.update, .config book⟩]) <| .sqlWith fun env db => do
    require (fitsInt frequencyHours && fitsInt ttlHours) .outOfRange
    match db.configs.find? (·.bookGuid == book) with
    | some c =>
      let new := { c with frequencyHours := frequencyHours, ttlHours := ttlHours,
                          activeMode := activeMode, updatedAt := env.now }
      return (new, { db with configs := updateWhere (·.bookGuid == book) (fun _ => new) db.configs })
    | none =>
      require (db.hasBook book) .foreignKey
      let new : SnapshotConfig :=
        { id := env.guid, bookGuid := book, frequencyHours := frequencyHours, ttlHours := ttlHours,
          activeMode := activeMode, createdAt := env.now, updatedAt := env.now }
      return (new, { db with configs := db.configs ++ [new] })

/-- The query of `ListSnapshots`: newest first. -/
def selectSnapshots (book : Guid) : Stmt (List SnapshotSummary) :=
  .rows fun db =>
    ((db.snapshots.filter (·.bookGuid == book)).insertionSort
      (fun a b => b.createdAt ≤ a.createdAt)).map Snapshot.summary

/-- `SELECT … FROM snapshots WHERE id = $1 AND book_guid = $2`. -/
def selectSnapshot (id : GuidText) (book : Guid) : Stmt (Option Snapshot) :=
  .queryE fun db => do
    let g ← id.parse
    return db.snapshots.find? fun s => s.id == g && s.bookGuid == book

/-- `DELETE FROM snapshots WHERE id = $1 AND book_guid = $2`. -/
def deleteSnapshotStmt (id : GuidText) (book : Guid) : Stmt Nat :=
  .locking (fun db => db.snapshots.filterMap fun s =>
      if id.parse == .ok s.id && s.bookGuid == book then some ⟨.delete, .snapshot s.id⟩
      else none) <|
    .sql fun db => do
      let g ← id.parse
      let hit := fun s : Snapshot => s.id == g && s.bookGuid == book
      return (db.snapshots.countP hit, { db with snapshots := deleteWhere hit db.snapshots })

/-- The count of `enforceSnapshotQuota`: the last 24 hours, strictly. -/
def countRecentSnapshots (book : Guid) (trigger : SnapshotTrigger) : Stmt Nat :=
  .tagged (.countRecent book trigger) <| .sqlNow fun now db => .ok (db.snapshots.countP (fun s =>
    s.bookGuid == book && s.trigger == trigger && decide (now - 86400 < s.createdAt)), db)

theorem reads_countRecent (book : Guid) (trigger : SnapshotTrigger) :
    (countRecentSnapshots book trigger).Reads := by
  refine ⟨fun env db b db' hx => ?_, fun _ _ _ => rfl⟩
  exact (Prod.mk.inj (Except.ok.inj (ok_of_failing hx))).2.symm

/-- The oldest active snapshot of a book, which a rotation deletes. -/
def Db.oldestActive (db : Db) (book : Guid) : Option Guid :=
  (((db.snapshots.filter fun s => s.bookGuid == book && s.trigger == .active).insertionSort
    (fun a b => a.createdAt ≤ b.createdAt)).head?).map (·.id)

/-- `DELETE FROM snapshots WHERE id = (SELECT …)`. -/
def rotateActive (book : Guid) : Stmt Unit :=
  .tagged (.rotateActive book) <|
    .locking (fun db => (db.oldestActive book).toList.map fun i => ⟨.delete, .snapshot i⟩) <|
    .sql fun db => .ok ((), { db with
      snapshots := deleteWhere (fun s => db.oldestActive book == some s.id) db.snapshots })

/-- `INSERT INTO snapshots … RETURNING …`. -/
def insertSnapshotStmt (book : Guid) (label : String) (trigger : SnapshotTrigger)
    (data : ExportData) : Stmt SnapshotSummary :=
  .tagged (.insertSnapshot book trigger data) <| .sqlWith fun env db => do
    require (db.hasBook book) .foreignKey
    let new : Snapshot :=
      { id := env.guid, bookGuid := book, label := label, trigger := trigger, data := data,
        createdAt := env.now }
    return (new.summary, { db with snapshots := db.snapshots ++ [new] })

/-- The `DELETE` of `PurgeExpiredSnapshots`, across all books. -/
def purgeStmt : Stmt Unit :=
  .sqlNow fun now db => .ok ((), { db with
    snapshots := deleteWhere (fun s => db.configs.any fun c =>
      c.bookGuid == s.bookGuid && decide (0 < c.ttlHours) &&
        decide (s.createdAt < now - c.ttlHours * 3600)) db.snapshots })

/-! ### Reading a book -/

/-- `ORDER BY parent_guid ASC NULLS FIRST`. -/
def parentLe (a b : Account) : Prop :=
  a.parentGuid.all fun p => b.parentGuid.any fun q => decide (p ≤ q)

instance : DecidableRel parentLe := fun a b => by unfold parentLe; infer_instance

def Account.toExport (a : Account) : ExportAccount :=
  { guid := a.guid.text, name := a.name, accountType := a.accountType,
    parentGuid := a.parentGuid.map Guid.text, placeholder := a.placeholder,
    description := a.description }

def Split.toExport (s : Split) : ExportSplit :=
  { guid := s.guid.text, accountGuid := s.accountGuid.text, memo := s.memo, valueNum := s.valueNum,
    valueDenom := s.valueDenom, quantityNum := s.quantityNum, quantityDenom := s.quantityDenom,
    reconcileState := s.reconcileState }

def Transaction.toExport (t : Transaction) (splits : List ExportSplit) : ExportTransaction :=
  { guid := t.guid.text, postDate := some t.postDate, enterDate := some t.enterDate,
    description := t.description, splits := splits }

def selectExportAccounts (book : Guid) : Stmt (List ExportAccount) :=
  .tagged (.exportAccounts book) <| .rows fun db =>
    ((db.accounts.filter (·.bookGuid == book)).insertionSort parentLe).map Account.toExport

def selectExportTransactions (book : Guid) : Stmt (List Transaction) :=
  .tagged (.exportTransactions book) <| .rows fun db => db.transactions.filter (·.bookGuid == book)

def selectExportSplits (tx : Guid) : Stmt (List ExportSplit) :=
  .tagged (.exportSplits tx) <| .rows fun db => (db.splits.filter (·.txGuid == tx)).map Split.toExport

theorem selectExportAccounts_ok {book : Guid} {env : Env} {db db' : Db} {as : List ExportAccount}
    (h : (selectExportAccounts book).sem env db = .ok (as, db')) :
    as = env.received (((db.accounts.filter (·.bookGuid == book)).insertionSort parentLe).map
      Account.toExport) ∧ db' = db :=
  Stmt.rows_ok h

theorem selectExportTransactions_ok {book : Guid} {env : Env} {db db' : Db} {ts : List Transaction}
    (h : (selectExportTransactions book).sem env db = .ok (ts, db')) :
    ts = env.received (db.transactions.filter (·.bookGuid == book)) ∧ db' = db :=
  Stmt.rows_ok h

theorem selectExportSplits_ok {tx : Guid} {env : Env} {db db' : Db} {ss : List ExportSplit}
    (h : (selectExportSplits tx).sem env db = .ok (ss, db')) :
    ss = env.received ((db.splits.filter (·.txGuid == tx)).map Split.toExport) ∧ db' = db :=
  Stmt.rows_ok h

theorem selectExportSplits_error {tx : Guid} {env : Env} {db : Db} {e : SqlErr}
    (h : (selectExportSplits tx).sem env db = .error e) : env.fail = true :=
  Stmt.rows_error h

/-- The loop over the transactions; a transaction whose splits cannot be read is exported without
them. -/
def exportTransactions : List Transaction → Call (List ExportTransaction)
  | [] => return []
  | t :: ts => do
    let splits ← reply (selectExportSplits t.guid)
    let rest ← exportTransactions ts
    return t.toExport (countOrZero splits []) :: rest

/-- `buildExportData`. -/
def buildExportData (book : Guid) : Call ExportData := do
  let accounts ← exec "query accounts" (selectExportAccounts book)
  let txns ← exec "query transactions" (selectExportTransactions book)
  let transactions ← exportTransactions txns
  return ⟨accounts, transactions⟩

/-! ## Methods -/

/-- `GetConfig`. -/
def getConfig (book : Guid) : Call SnapshotConfig := do
  match ← exec "get snapshot config" (selectConfig book) with
  | none => .fail .snapshotConfigNotFound
  | some c => return c

/-- `UpsertConfig`. -/
def upsertConfig (book : Guid) (frequencyHours ttlHours : Int) (activeMode : Bool) :
    Call SnapshotConfig :=
  exec "upsert snapshot config" (upsertConfigStmt book frequencyHours ttlHours activeMode)

/-- `ListSnapshots`. -/
def listSnapshots (book : Guid) : Call (List SnapshotSummary) :=
  exec "list snapshots" (selectSnapshots book)

/-- `GetSnapshot`. -/
def getSnapshot (book : Guid) (id : GuidText) : Call Snapshot := do
  match ← exec "get snapshot" (selectSnapshot id book) with
  | none => .fail .snapshotNotFound
  | some s => return s

/-- `DeleteSnapshot`. -/
def deleteSnapshot (book : Guid) (id : GuidText) : Call Unit := do
  let affected ← exec "delete snapshot" (deleteSnapshotStmt id book)
  if affected = 0 then .fail .snapshotNotFound else return ()

/-- `PurgeExpiredSnapshots`. -/
def purgeExpiredSnapshots : Call Unit := exec "purge expired snapshots" purgeStmt

/-- `enforceSnapshotQuota`: the active mode rotates, the others refuse. -/
def enforceSnapshotQuota (book : Guid) (trigger : SnapshotTrigger) : Call Unit := do
  let count ← exec "quota check" (countRecentSnapshots book trigger)
  match trigger with
  | .scheduled => if quotaScheduled ≤ count then .fail .snapshotQuotaExceeded else return ()
  | .active => if quotaActive ≤ count then exec "quota rotate" (rotateActive book) else return ()
  | .manual => if quotaManual ≤ count then .fail .snapshotQuotaExceeded else return ()

/-- `fmt.Errorf("build export data: %w", err)`. -/
def wrapBuild : Err → Err
  | .wrapped text e => .wrapped ("build export data: " ++ text) e
  | e => e

/-- `takeSnapshotForBook`. -/
def takeSnapshotForBook (book : Guid) (label : String) (trigger : SnapshotTrigger) :
    Call SnapshotSummary := do
  enforceSnapshotQuota book trigger
  match ← (buildExportData book).attempt with
  | .error e => .fail (wrapBuild e)
  | .ok data => exec "insert snapshot" (insertSnapshotStmt book label trigger data)

/-- `TakeSnapshot`. -/
def takeSnapshot (book : Guid) (label : String) (trigger : SnapshotTrigger) :
    Call SnapshotSummary :=
  takeSnapshotForBook book label trigger

end Antimoney
