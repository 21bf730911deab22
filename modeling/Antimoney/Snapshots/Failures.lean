import Antimoney.Concurrent.Quotas

/-!
# Snapshots that fail

`takeSnapshotForBook` rotates, reads and inserts in separate statements, without a transaction: when
the quota of the active trigger is used up, a failure after the rotation leaves the book one snapshot
short.

* `enforceSnapshotQuota_run`: what the quota check leaves.
* **`failedSnapshot_iff`**: a failed snapshot changes nothing exactly when no rotation ran.
-/

namespace Antimoney

open Antimoney.Lib Prog

/-- The check of the quota rotates: it counts a full window of active snapshots, and deletes. -/
structure Rotates (book : Guid) (trigger : SnapshotTrigger) (envs : Nat → Env) (db : Db) : Prop where
  active : trigger = .active
  counted : (envs 0).fail = false
  full : quotaActive ≤ db.snapshots.countP (recent book .active (envs 0).now)
  deleted : (envs 1).fail = false

section Failures

variable {book : Guid} {label : String} {trigger : SnapshotTrigger} {envs : Nat → Env} {db : Db}

/-- The snapshots after a rotation. -/
def Db.rotated (db : Db) (book : Guid) : Db :=
  { db with snapshots := deleteWhere (fun s => db.oldestActive book == some s.id) db.snapshots }

/-- A rotation under a full window takes a snapshot away. -/
theorem rotated_ne {t : Time}
    (h : quotaActive ≤ db.snapshots.countP (recent book .active t)) :
    (db.rotated book).snapshots ≠ db.snapshots := by
  have hkind : db.snapshots.countP (recent book .active t) ≤
      db.snapshots.countP (ofKind book .active) :=
    List.countP_mono_left fun _ _ => recent_ofKind
  have hrot := @countP_rotate book db
  have hpos : 0 < quotaActive := by decide
  intro he
  unfold Db.rotated at he
  dsimp only at he
  rw [he] at hrot
  omega

theorem countRecentSnapshots_sem {env : Env} (h : env.fail = false) :
    (countRecentSnapshots book trigger).sem env db =
      .ok (db.snapshots.countP (recent book trigger env.now), db) := by
  simp only [countRecentSnapshots, Stmt.tagged, Stmt.sqlNow, Stmt.mk', h]
  rfl

theorem rotateActive_sem {env : Env} (h : env.fail = false) :
    (rotateActive book).sem env db = .ok ((), db.rotated book) := by
  simp only [rotateActive, Stmt.tagged, Stmt.locking, Stmt.sql, Stmt.mk', h]
  rfl

/-- **What the check of the quota leaves.** -/
theorem enforceSnapshotQuota_run (book : Guid) (trigger : SnapshotTrigger) (envs : Nat → Env)
    (db : Db) : ∃ r v, (enforceSnapshotQuota book trigger).run machine envs (.idle db) =
      (r, .idle v) ∧ (v.snapshots = db.snapshots ↔ ¬ Rotates book trigger envs db) := by
  unfold enforceSnapshotQuota
  by_cases hcount : (envs 0).fail = false
  case neg =>
    have hx : machine.exec (countRecentSnapshots book trigger) (envs 0) db = .error .failed := by
      simp [machine, countRecentSnapshots, Stmt.tagged, Stmt.sqlNow, Stmt.mk', hcount]
    exact ⟨_, _, run_sql_error hx, by simpa using fun h : Rotates _ _ _ _ => hcount h.counted⟩
  have hstill : ∀ r, ¬ Rotates book trigger envs db →
      ∃ r' v, (r, Solo.idle db) = ((r', .idle v) : Except Err Unit × Solo SqlErr Db) ∧
        (v.snapshots = db.snapshots ↔ ¬ Rotates book trigger envs db) :=
    fun r h => ⟨r, db, rfl, by simpa using h⟩
  rw [bind_eq, exec, run_sql (countRecentSnapshots_sem hcount)]
  cases trigger with
  | scheduled =>
    dsimp only
    split <;> exact hstill _ fun h => absurd h.active (by simp)
  | manual =>
    dsimp only
    split <;> exact hstill _ fun h => absurd h.active (by simp)
  | active =>
    dsimp only
    by_cases hfull : quotaActive ≤ db.snapshots.countP (recent book .active (envs 0).now)
    · rw [if_pos hfull, ← bind_ret (exec "quota rotate" (rotateActive book)), exec]
      by_cases hdelete : (envs 1).fail = false
      · have hr : Rotates book .active envs db := ⟨rfl, hcount, hfull, hdelete⟩
        rw [run_sql (rotateActive_sem hdelete)]
        exact ⟨_, _, rfl, by simpa [hr] using rotated_ne hfull⟩
      · have hx : machine.exec (rotateActive book) (envs 1) db = .error .failed := by
          simp [machine, rotateActive, Stmt.tagged, Stmt.locking, Stmt.sql, Stmt.mk', hdelete]
        rw [run_sql_error hx]
        exact hstill _ fun h => hdelete h.deleted
    · rw [if_neg hfull]
      exact hstill _ fun h => hfull h.full

/-- Reading a book leaves everything as it is. -/
theorem buildExportData_still (v : Db) :
    (buildExportData book).swp machine Duty.none (fun _ t => t = .idle v) (.idle v) := by
  have hdata : (buildExportData book).swp machine Duty.none (fun _ t => t.Holds (· = v)) (.idle v) := by
    refine swp_of_issues (@buildExportData_issues book) ?_ (Solo.holds_idle rfl)
    intro γ q env w w' b hq hw _ hx
    exact (hq.reads.sem hx).trans hw
  refine swp_mono (fun _ t h => ?_) (swp_and hdata (swp_body buildExportData_body rfl))
  obtain ⟨s, w⟩ := t
  obtain ⟨⟨rfl, -⟩, rfl⟩ := h
  rfl

/-- `takeSnapshotForBook` after the check of the quota. -/
def recordSnapshot (book : Guid) (label : String) (trigger : SnapshotTrigger) :
    Call SnapshotSummary := do
  match ← (buildExportData book).attempt with
  | .error e => .fail (wrapBuild e)
  | .ok data => exec "insert snapshot" (insertSnapshotStmt book label trigger data)

/-- It changes nothing unless it takes the snapshot. -/
theorem recordSnapshot_swp (v : Db) :
    (recordSnapshot book label trigger).swp machine Duty.none
      (fun r t => ∀ e, r = .error e → t.db = v) (.idle v) := by
  refine swp_bind (swp_attempt (swp_mono (fun r t ht => ?_) (buildExportData_still v)))
  subst ht
  cases r with
  | error e => exact fun _ _ => rfl
  | ok data =>
    dsimp only [Prog.ofExcept, ret_bind]
    rw [← bind_ret (exec "insert snapshot" (insertSnapshotStmt book label trigger data))]
    exact swp_sql rfl (fun _ _ => trivial) (fun _ _ _ => rfl)
      fun _ _ _ _ _ e he => absurd he (by simp)

/-- **A failed snapshot changes nothing exactly when no rotation ran.** -/
theorem failedSnapshot_iff {e : Err}
    (ha : (takeSnapshotForBook book label trigger).runAllowed machine envs (.idle db) = true)
    (h : ((takeSnapshotForBook book label trigger).run machine envs (.idle db)).1 = .error e) :
    ((takeSnapshotForBook book label trigger).run machine envs (.idle db)).2.db.snapshots =
      db.snapshots ↔ ¬ Rotates book trigger envs db := by
  have hsplit : takeSnapshotForBook book label trigger =
      (enforceSnapshotQuota book trigger).bind fun _ => recordSnapshot book label trigger := rfl
  obtain ⟨r, v, hrun, hiff⟩ := enforceSnapshotQuota_run book trigger envs db
  obtain ⟨k, hk⟩ := run_bind (M := machine) (enforceSnapshotQuota book trigger) envs (.idle db)
  obtain ⟨hbind, hallowed⟩ := hk fun _ => recordSnapshot book label trigger
  rw [hsplit, hbind, hrun] at h
  rw [hsplit, hallowed, hrun, Bool.and_eq_true] at ha
  rw [hsplit, hbind, hrun, ← hiff]
  cases r with
  | error e' => rfl
  | ok u =>
    rw [Prog.ofExcept, ret_bind] at h ⊢
    rw [run_of_swp (recordSnapshot_swp v) ha.2 e h]

end Failures

/-! ## Examples -/

/-- A calm environment, in which the statement at `k` fails. -/
def failingAt (n k : Nat) (i : Nat) : Env := { calm n i with fail := i == k }

/-- The read of the accounts fails, and nothing has changed. -/
theorem failedSnapshot_registered :
    ((takeSnapshotForBook 3 "" .active).run machine (failingAt 100 1)
      (.idle registered)).2.db.snapshots = registered.snapshots := by
  have hallowed : (takeSnapshotForBook 3 "" .active).runAllowed machine (failingAt 100 1)
      (.idle registered) = true := by decide +kernel
  have herror : ((takeSnapshotForBook 3 "" .active).run machine (failingAt 100 1)
      (.idle registered)).1 = .error (.wrapped "build export data: query accounts" .failed) := by
    decide +kernel
  refine (failedSnapshot_iff hallowed herror).mpr fun h => absurd h.full ?_
  decide +kernel

/-- A registered user with this many active snapshots. -/
def activeSnapshots : Nat → Db
  | 0 => registered
  | n + 1 => (serve (Event.scheduled 3 "" .active).call (calm (100 * (n + 1))) (activeSnapshots n)).2

theorem activeSnapshots_runs {n : Nat} (h : ∀ k < n, mayServe (Event.scheduled 3 "" .active).call
    (calm (100 * (k + 1))) (activeSnapshots k) = true) :
    Runs (fun _ _ _ => True) (activeSnapshots n) := by
  induction n with
  | zero => exact registered_runs trivial
  | succ n ih => exact .step _ _ (ih fun k hk => h k (by omega)) (h n (by omega)) trivial

/-- With the quota used up, it has deleted a snapshot. -/
theorem failedSnapshot_rotated : ∃ db envs e, Runs (fun _ _ _ => True) db ∧
    (takeSnapshotForBook 3 "" .active).runAllowed machine envs (.idle db) = true ∧
    ((takeSnapshotForBook 3 "" .active).run machine envs (.idle db)).1 = .error e ∧
    ((takeSnapshotForBook 3 "" .active).run machine envs (.idle db)).2.db.snapshots ≠
      db.snapshots := by
  refine ⟨activeSnapshots 12, failingAt 2000 2, .wrapped "build export data: query accounts" .failed,
    activeSnapshots_runs (by decide +kernel), by decide +kernel, by decide +kernel, fun h => ?_⟩
  have hlength : ((takeSnapshotForBook 3 "" .active).run machine (failingAt 2000 2)
      (.idle (activeSnapshots 12))).2.db.snapshots.length ≠
        (activeSnapshots 12).snapshots.length := by decide +kernel
  exact hlength (congrArg List.length h)

end Antimoney
