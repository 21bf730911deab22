import Antimoney.Concurrent.Cuts
import Antimoney.Readers
import Antimoney.Restore.Import
import Antimoney.Snapshots.Scheduler

/-!
# What the change clock sees

`GetLastDataChangeTime` is the last `updated_at` of the rows a book still has in two tables. An
event that writes such a row moves it; one that only deletes rows, or writes splits, does not.

* `SameFor`: two states export a book alike.
* `still_sameFor`: what the requests that do not touch the ledger leave.
-/

namespace Antimoney

open Antimoney.Lib Prog

/-! ## The clock -/

/-- The change clock of the book stands at `T` or later. -/
def Db.Sees (db : Db) (book : Guid) (T : Time) : Prop :=
  ∃ t, db.lastDataChange book = some t ∧ T ≤ t

/-- A row of the book was changed at `T` or later. -/
theorem Db.sees_iff {db : Db} {book : Guid} {T : Time} : db.Sees book T ↔
    (∃ t ∈ db.transactions, t.bookGuid = book ∧ T ≤ t.updatedAt) ∨
      ∃ a ∈ db.accounts, a.bookGuid = book ∧ T ≤ a.updatedAt := by
  have hmem : ∀ x, x ∈ ((db.transactions.filter (·.bookGuid == book)).map (·.updatedAt) ++
      (db.accounts.filter (·.bookGuid == book)).map (·.updatedAt)) ↔
      (∃ t ∈ db.transactions, t.bookGuid = book ∧ t.updatedAt = x) ∨
        ∃ a ∈ db.accounts, a.bookGuid = book ∧ a.updatedAt = x := by
    intro x
    simp [and_assoc]
  constructor
  · rintro ⟨x, hx, hT⟩
    have hx' := (List.max?_eq_some_iff.mp hx).1
    rcases (hmem x).mp hx' with ⟨t, ht, hb, rfl⟩ | ⟨a, ha, hb, rfl⟩
    · exact .inl ⟨t, ht, hb, hT⟩
    · exact .inr ⟨a, ha, hb, hT⟩
  · intro h
    have hex : ∃ x, x ∈ ((db.transactions.filter (·.bookGuid == book)).map (·.updatedAt) ++
        (db.accounts.filter (·.bookGuid == book)).map (·.updatedAt)) ∧ T ≤ x := by
      rcases h with ⟨t, ht, hb, hT⟩ | ⟨a, ha, hb, hT⟩
      · exact ⟨_, (hmem _).mpr (.inl ⟨t, ht, hb, rfl⟩), hT⟩
      · exact ⟨_, (hmem _).mpr (.inr ⟨a, ha, hb, rfl⟩), hT⟩
    obtain ⟨x, hx, hT⟩ := hex
    unfold Db.Sees Db.lastDataChange
    cases hm : ((db.transactions.filter (·.bookGuid == book)).map (·.updatedAt) ++
        (db.accounts.filter (·.bookGuid == book)).map (·.updatedAt)).max? with
    | none => exact absurd hx (by simp [List.max?_eq_none_iff.mp hm])
    | some m => exact ⟨m, rfl, hT.trans ((List.max?_eq_some_iff.mp hm).2 x hx)⟩

/-- Other tables do not count. -/
theorem Db.Sees.congr {x y : Db} {book : Guid} {T : Time} (h : x.Sees book T)
    (ht : y.transactions = x.transactions) (ha : y.accounts = x.accounts) : y.Sees book T := by
  unfold Db.Sees Db.lastDataChange at h ⊢
  rwa [ht, ha]

/-! ## Exports -/

/-- The two states export the book alike, and it has the same transactions. -/
structure SameFor (book : Guid) (x y : Db) : Prop where
  accounts : ((y.accounts.filter (·.bookGuid == book)).insertionSort parentLe).map Account.toExport =
    ((x.accounts.filter (·.bookGuid == book)).insertionSort parentLe).map Account.toExport
  transactions : y.transactions.filter (·.bookGuid == book) =
    x.transactions.filter (·.bookGuid == book)
  splits : ∀ t ∈ x.transactions, t.bookGuid = book →
    y.splits.filter (·.txGuid == t.guid) = x.splits.filter (·.txGuid == t.guid)

section SameFor

variable {book : Guid} {x y z : Db}

theorem SameFor.refl (book : Guid) (x : Db) : SameFor book x x := ⟨rfl, rfl, fun _ _ _ => rfl⟩

theorem SameFor.trans (h : SameFor book x y) (h' : SameFor book y z) : SameFor book x z := by
  refine ⟨h'.accounts.trans h.accounts, h'.transactions.trans h.transactions, fun t ht hb => ?_⟩
  have hty : t ∈ y.transactions.filter (·.bookGuid == book) := by
    rw [h.transactions]
    simpa using ⟨ht, hb⟩
  exact (h'.splits t (List.mem_of_mem_filter hty) hb).trans (h.splits t ht hb)

theorem SameFor.exportOf (h : SameFor book x y) : y.exportOf book = x.exportOf book := by
  unfold Db.exportOf
  rw [h.accounts, h.transactions]
  congr 1
  refine List.map_congr_left fun t ht => ?_
  obtain ⟨ht, hb⟩ := List.mem_filter.mp ht
  unfold Db.exportSplitsOf
  rw [h.splits t ht (by simpa using hb)]

/-- The book's rows are the same, and so are the splits of its transactions. -/
theorem SameFor.of_rows
    (ha : y.accounts.filter (·.bookGuid == book) = x.accounts.filter (·.bookGuid == book))
    (ht : y.transactions.filter (·.bookGuid == book) = x.transactions.filter (·.bookGuid == book))
    (hs : ∀ t ∈ x.transactions, t.bookGuid = book →
      y.splits.filter (·.txGuid == t.guid) = x.splits.filter (·.txGuid == t.guid)) :
    SameFor book x y :=
  ⟨by rw [ha], ht, hs⟩

/-- The ledger's tables are the same. -/
theorem SameFor.of_eq (ha : y.accounts = x.accounts) (ht : y.transactions = x.transactions)
    (hs : y.splits = x.splits) : SameFor book x y :=
  .of_rows (by rw [ha]) (by rw [ht]) fun _ _ _ => by rw [hs]

/-- Accounts change where no export shows. -/
theorem SameFor.of_accounts (c : Account → Bool) (f : Account → Account)
    (hf : ∀ a, (f a).toExport = a.toExport ∧ (f a).bookGuid = a.bookGuid ∧
      (f a).parentGuid = a.parentGuid)
    (ha : y.accounts = updateWhere c f x.accounts) (ht : y.transactions = x.transactions)
    (hs : y.splits = x.splits) : SameFor book x y := by
  let g : Account → Account := fun a => if c a then f a else a
  have hg : ∀ a, (g a).toExport = a.toExport ∧ (g a).bookGuid = a.bookGuid ∧
      (g a).parentGuid = a.parentGuid := by
    intro a
    simp only [g]
    split
    · exact hf a
    · exact ⟨rfl, rfl, rfl⟩
  have hmap : updateWhere c f x.accounts = x.accounts.map g := rfl
  refine ⟨?_, by rw [ht], fun _ _ _ => by rw [hs]⟩
  have hfilter : (x.accounts.map g).filter (·.bookGuid == book) =
      (x.accounts.filter (·.bookGuid == book)).map g := by
    rw [List.filter_map]
    congr 1
    exact List.filter_congr fun a _ => by simp [(hg a).2.1]
  have hsort : ((x.accounts.filter (·.bookGuid == book)).map g).insertionSort parentLe =
      ((x.accounts.filter (·.bookGuid == book)).insertionSort parentLe).map g := by
    refine (List.map_insertionSort parentLe parentLe g _ fun a _ b _ => ?_).symm
    unfold parentLe
    rw [(hg a).2.2, (hg b).2.2]
  rw [ha, hmap, hfilter, hsort, List.map_map]
  exact List.map_congr_left fun a _ => (hg a).1

end SameFor

/-! ## Requests that do not touch the ledger -/

/-- The statement shows in no export. -/
def KeepsExport {β : Type} (q : Stmt β) : Prop :=
  ∀ ⦃env : Env⦄ ⦃v v' : Db⦄ ⦃b : β⦄, q.sem env v = .ok (b, v') → ∀ book, SameFor book v v'

section Still

variable {book : Guid}

theorem Stmt.Reads.keepsExport {β : Type} {q : Stmt β} (h : q.Reads) : KeepsExport q := by
  intro env v v' b hx g
  rw [h.sem hx]
  exact .refl g v

/-- Steady writes of other tables. -/
theorem keepsExport_of_write {β : Type} {q : Stmt β}
    (h : ∀ ⦃env : Env⦄ ⦃v v' : Db⦄, q.write env v v = .ok v' →
      v'.accounts = v.accounts ∧ v'.transactions = v.transactions ∧ v'.splits = v.splits) :
    KeepsExport q := by
  intro env v v' b hx g
  obtain ⟨ha, ht, hs⟩ := h (q.write_self hx)
  exact .of_eq ha ht hs

theorem Fetching.keepsExport {β : Type} {q : Stmt β} (h : Fetching book q) : KeepsExport q := by
  cases h with
  | read h => exact h.reads.keepsExport
  | lock i =>
    refine keepsExport_of_write fun env v v' hw => ?_
    rcases tryAdvisoryLock_ok hw with ⟨-, rfl⟩ | ⟨-, rfl⟩ <;> exact ⟨rfl, rfl, rfl⟩
  | unlock i =>
    refine keepsExport_of_write fun env v v' hw => ?_
    rw [advisoryUnlock_ok hw]
    exact ⟨rfl, rfl, rfl⟩
  | upsertStaged i t d h =>
    refine keepsExport_of_write fun env v v' hw => ?_
    obtain ⟨g, now, -, -, rfl⟩ := upsertStaged_ok hw
    exact ⟨rfl, rfl, rfl⟩
  | dropReplaced is =>
    refine keepsExport_of_write fun env v v' hw => ?_
    rw [dropReplaced_ok hw]
    exact ⟨rfl, rfl, rfl⟩
  | dropUndismissed is =>
    refine keepsExport_of_write fun env v v' hw => ?_
    rw [dropUndismissed_ok hw]
    exact ⟨rfl, rfl, rfl⟩
  | writeCursor i c n =>
    refine keepsExport_of_write fun env v v' hw => ?_
    obtain ⟨g, -, rfl⟩ := writeCursor_ok hw
    exact ⟨rfl, rfl, rfl⟩
  | writeLastSynced i n =>
    intro env v v' b hx g
    rw [writeLastSynced_ok (Stmt.write_self _ hx)]
    refine .of_accounts _ _ ?_ rfl rfl rfl
    exact fun _ => ⟨rfl, rfl, rfl⟩

theorem keepsExport_reseal (i : GuidText) (c : Ciphertext) (n : Nonce) (v : Nat) :
    KeepsExport (resealStmt book i c n v) := by
  refine keepsExport_of_write fun env v v' hw => ?_
  obtain ⟨g, now, -, rfl⟩ := resealStmt_ok hw
  exact ⟨rfl, rfl, rfl⟩

theorem Syncing.keepsExport {β : Type} {q : Stmt β} (h : Syncing book q) : KeepsExport q := by
  cases h with
  | fetch h => exact h.keepsExport
  | reseal i c n v => exact keepsExport_reseal i c n v

theorem Linking.keepsExport {item : GuidText} {β : Type} {q : Stmt β} (h : Linking book item q) :
    KeepsExport q := by
  cases h with
  | read h => exact h.reads.keepsExport
  | updateLink a l =>
    intro env v v' b hx g
    obtain ⟨_, now, -, -, rfl⟩ := updateLinkStmt_ok (Stmt.write_self _ hx)
    refine .of_accounts _ _ ?_ rfl rfl rfl
    exact fun _ => ⟨rfl, rfl, rfl⟩
  | updateImportPending p =>
    refine keepsExport_of_write fun env v v' hw => ?_
    obtain ⟨g, now, -, rfl⟩ := updateImportPending_ok hw
    exact ⟨rfl, rfl, rfl⟩

theorem Removing.keepsExport {β : Type} {q : Stmt β} (h : Removing book q) : KeepsExport q := by
  cases h with
  | read h => exact h.reads.keepsExport
  | reseal i c n v => exact keepsExport_reseal i c n v
  | archiveItem i v =>
    refine keepsExport_of_write fun env v v' hw => ?_
    rw [archiveItem_ok hw]
    exact ⟨rfl, rfl, rfl⟩
  | clearLinks i =>
    intro env v v' b hx g
    rw [clearLinks_ok (Stmt.write_self _ hx)]
    refine .of_accounts _ _ ?_ rfl rfl rfl
    exact fun _ => ⟨rfl, rfl, rfl⟩
  | deleteItem i v =>
    refine keepsExport_of_write fun env v v' hw => ?_
    rw [deleteItemStmt_ok hw]
    exact ⟨rfl, rfl, rfl⟩

theorem Snapshotting.keepsExport {β : Type} {q : Stmt β} (h : Snapshotting book q) :
    KeepsExport q := by
  cases h with
  | countRecent t => exact (reads_countRecent book t).keepsExport
  | rotateActive =>
    refine keepsExport_of_write fun env v v' hw => ?_
    rw [rotateActive_ok hw]
    exact ⟨rfl, rfl, rfl⟩
  | «export» h => exact h.reads.keepsExport
  | insertSnapshot l t d =>
    refine keepsExport_of_write fun env v v' hw => ?_
    rw [insertSnapshotStmt_ok hw]
    exact ⟨rfl, rfl, rfl⟩

theorem keepsExport_upsertItem (p : PlaidItem) (token : Token) :
    KeepsExport (upsertItemStmt p token) := by
  refine keepsExport_of_write fun env v v' hw => ?_
  rcases upsertItemStmt_ok hw with rfl | ⟨-, -, rfl⟩ <;> exact ⟨rfl, rfl, rfl⟩

theorem keepsExport_deleteStaged (id : String) : KeepsExport (deleteStagedStmt book id) := by
  refine keepsExport_of_write fun env v v' hw => ?_
  rw [deleteStagedStmt_ok hw]
  exact ⟨rfl, rfl, rfl⟩

theorem keepsExport_dismissStaged (ids : List String) :
    KeepsExport (dismissStagedStmt book ids) := by
  refine keepsExport_of_write fun env v v' hw => ?_
  rw [dismissStagedStmt_ok hw]
  exact ⟨rfl, rfl, rfl⟩

theorem keepsExport_deleteSnapshot (id : GuidText) : KeepsExport (deleteSnapshotStmt id book) := by
  refine keepsExport_of_write fun env v v' hw => ?_
  obtain ⟨g, -, rfl⟩ := deleteSnapshotStmt_ok hw
  exact ⟨rfl, rfl, rfl⟩

theorem keepsExport_purge : KeepsExport purgeStmt := by
  refine keepsExport_of_write fun env v v' hw => ?_
  obtain ⟨c, rfl⟩ := purgeStmt_ok hw
  exact ⟨rfl, rfl, rfl⟩

theorem keepsExport_upsertConfig (f t : Int) (a : Bool) :
    KeepsExport (upsertConfigStmt book f t a) := by
  intro env v v' b hx g
  obtain ⟨-, hx⟩ := require_bind (ok_of_failing hx)
  dsimp only at hx
  split at hx
  · obtain ⟨-, rfl⟩ := Prod.mk.inj (Except.ok.inj hx)
    exact .of_eq rfl rfl rfl
  · obtain ⟨-, hx⟩ := require_bind hx
    obtain ⟨-, rfl⟩ := Prod.mk.inj (Except.ok.inj hx)
    exact .of_eq rfl rfl rfl

/-- The requests that write other tables than the ledger's. -/
def Request.aside : Request → Bool
  | .putConfig _ _ _ | .createSnapshot _ | .deleteSnapshot _ | .plaidExchange | .plaidLink _ _ _
  | .plaidSync _ | .plaidDismiss _ | .plaidDisconnect _ => true
  | _ => false

/-- **A request that only reads, or writes other tables, shows in no export.** -/
theorem handle_keepsExport (cfg : PlaidConfig) (req : Request)
    (h : req.readonly = true ∨ req.aside = true) : (handle cfg book req).Issues KeepsExport := by
  rcases h with h | h
  · exact (handle_reads cfg req h).mono fun _ hq => hq.keepsExport
  cases req with
  | putConfig f t a =>
    simp only [handle]
    split
    · trivial
    · exact issues_answer (issues_sql (keepsExport_upsertConfig f t a))
  | createSnapshot label =>
    exact issues_answer ((takeSnapshotForBook_issues _ _).mono fun _ hq => hq.keepsExport)
  | deleteSnapshot i =>
    refine issues_answer (issues_exec (keepsExport_deleteSnapshot i) fun n => ?_)
    split <;> trivial
  | plaidExchange =>
    refine issues_answer (issues_exec (Stmt.reads_askEnv _).keepsExport fun r => ?_)
    rcases r with e | ⟨token, itemId, name⟩
    · trivial
    · refine issues_exec (Stmt.reads_askEnv _).keepsExport fun nonce => ?_
      refine issues_exec reads_uuidNew.keepsExport fun itemGuid => ?_
      refine issues_exec (Stmt.reads_askEnv _).keepsExport fun now => ?_
      refine issues_exec (keepsExport_upsertItem _ _) fun guid => ?_
      refine issues_exec (Stmt.reads_askEnv _).keepsExport fun r => ?_
      cases r <;> trivial
  | plaidLink i ms p =>
    simp only [handle]
    split
    · trivial
    · split
      · trivial
      · exact issues_answer ((linkAccounts_issues i ms p).mono fun _ hq => hq.keepsExport)
  | plaidSync i =>
    simp only [handle]
    split
    · trivial
    · exact issues_answer ((sync_issues cfg i).mono fun _ hq => hq.keepsExport)
  | plaidDismiss is =>
    simp only [handle]
    split
    · trivial
    · split
      · trivial
      · exact issues_answer (issues_sql (keepsExport_dismissStaged is))
  | plaidDisconnect i =>
    simp only [handle]
    split
    · trivial
    · exact issues_answer ((disconnect_issues cfg i).mono fun _ hq => hq.keepsExport)
  | _ => exact absurd h (by simp [Request.aside])

/-- A call of such statements. -/
theorem sameFor_of_issues {α : Type} {p : Call α} {db : Db} (hp : p.Issues KeepsExport) :
    p.swp machine Duty.none (fun _ t => ∀ b, SameFor b db t.db) (.idle db) :=
  swp_mono (fun _ _ h => h.1) (swp_of_issues hp (I := fun v => ∀ b, SameFor b db v)
    (fun _ _ _ _ _ hq hv _ hx b => (hv b).trans (hq hx b)) (Solo.holds_idle fun b => .refl b db))

end Still

end Antimoney
