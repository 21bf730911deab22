import Antimoney.Concurrent.Cuts
import Antimoney.Founding.Registration
import Antimoney.Restore.Import
import Antimoney.Snapshots.Failures

/-!
# Snapshots and restores

A restore brings a book back as it was when the snapshot was taken, under new identifiers.

* `ExportData.relabel`: a file with its identifiers renamed.
* `Imported.exportOf`: the export of a book that was imported is the file, renamed.
* `takeSnapshotForBook_stores`: a snapshot holds the export of its book.
* **`restored`**: whatever happens in between.
-/

namespace Antimoney

open Antimoney.Lib Prog

/-! ## Renamed files -/

/-- The text of an identifier, renamed. -/
def GuidText.rename (f : Guid → Guid) : GuidText → GuidText
  | .uuid g spelling => .uuid (f g) spelling
  | .malformed s => .malformed s

/-- New identifiers. -/
structure Relabelling where
  account : Guid → Guid
  transaction : Guid → Guid
  split : Guid → Guid

def ExportAccount.relabel (m : Relabelling) (a : ExportAccount) : ExportAccount :=
  { a with guid := a.guid.rename m.account, parentGuid := a.parentGuid.map (·.rename m.account) }

def ExportSplit.relabel (m : Relabelling) (s : ExportSplit) : ExportSplit :=
  { s with guid := s.guid.rename m.split, accountGuid := s.accountGuid.rename m.account }

def ExportTransaction.relabel (m : Relabelling) (t : ExportTransaction) : ExportTransaction :=
  { t with guid := t.guid.rename m.transaction, splits := t.splits.map (·.relabel m) }

/-- The splits of a book, by transaction. -/
def Db.bookSplits (db : Db) (book : Guid) : List Split :=
  (db.transactions.filter (·.bookGuid == book)).flatMap fun t => db.splitsOf t.guid

/-- **The book is what it was, renamed**: an export shows the accounts in some order, and the
transactions with their splits; no two rows have one new identifier. -/
structure Relabelled (x y : Db) (book : Guid) (m : Relabelling) : Prop where
  accounts : (y.exportOf book).accounts.Perm ((x.exportOf book).accounts.map (·.relabel m))
  transactions : (y.exportOf book).transactions =
    (x.exportOf book).transactions.map (·.relabel m)
  account_inj : ∀ a ∈ x.accounts, ∀ b ∈ x.accounts, a.bookGuid = book → b.bookGuid = book →
    m.account a.guid = m.account b.guid → a.guid = b.guid
  transaction_inj : ∀ t ∈ x.transactions, ∀ u ∈ x.transactions, t.bookGuid = book →
    u.bookGuid = book → m.transaction t.guid = m.transaction u.guid → t.guid = u.guid
  split_inj : ∀ s ∈ x.bookSplits book, ∀ u ∈ x.bookSplits book,
    m.split s.guid = m.split u.guid → s.guid = u.guid

/-! ### Lists -/

section Lists

variable {α β γ : Type}

/-- A list without repetitions has an image in each list of its length. -/
theorem exists_map_eq [DecidableEq α] (xs ys : List α) (hx : xs.Nodup)
    (hl : xs.length = ys.length) : ∃ f : α → α, xs.map f = ys := by
  refine ⟨fun x => ys.getD (xs.idxOf x) x, List.ext_getElem (by simpa using hl) fun i hi hi' => ?_⟩
  rw [List.getElem_map, List.getD_eq_getElem?_getD, hx.idxOf_getElem, List.getElem?_eq_getElem hi',
    Option.getD_some]

theorem forall₂_both {R S : α → β → Prop} {as : List α} {bs : List β} (h : List.Forall₂ R as bs)
    (h' : List.Forall₂ S as bs) : List.Forall₂ (fun a b => R a b ∧ S a b) as bs := by
  induction h with
  | nil => exact .nil
  | cons hr _ ih =>
    obtain ⟨hs, hrest⟩ := List.forall₂_cons.mp h'
    exact .cons ⟨hr, hs⟩ (ih hrest)

/-- Blocks of equal lengths that make up equal lists are equal. -/
theorem forall₂_of_flatMap_eq {f : α → List γ} {g : β → List γ} {as : List α} {bs : List β}
    (h : List.Forall₂ (fun a b => (f a).length = (g b).length) as bs)
    (he : as.flatMap f = bs.flatMap g) : List.Forall₂ (fun a b => f a = g b) as bs := by
  induction h with
  | nil => exact .nil
  | cons hl _ ih =>
    rw [List.flatMap_cons, List.flatMap_cons] at he
    obtain ⟨hhead, htail⟩ := List.append_inj he hl
    exact .cons hhead (ih htail)

theorem length_flatMap_eq {f : α → List γ} {g : β → List γ} {as : List α} {bs : List β}
    (h : List.Forall₂ (fun a b => (f a).length = (g b).length) as bs) :
    (as.flatMap f).length = (bs.flatMap g).length := by
  induction h with
  | nil => rfl
  | cons hl _ ih => rw [List.flatMap_cons, List.flatMap_cons, List.length_append, hl, ih,
      List.length_append]

end Lists

/-- Each split of a book is listed once. -/
theorem Db.Keyed.bookSplits_nodup {db : Db} (h : db.Keyed) (book : Guid) :
    ((db.bookSplits book).map (·.guid)).Nodup := by
  have hsub : ∀ t : Guid, ((db.splitsOf t).map (·.guid)).Sublist (db.splits.map (·.guid)) :=
    fun _ => List.filter_sublist.map _
  rw [Db.bookSplits, List.map_flatMap, List.nodup_flatMap]
  refine ⟨fun t _ => h.splits.sublist (hsub t.guid), ?_⟩
  have hn : ((db.transactions.filter (·.bookGuid == book)).map (·.guid)).Nodup :=
    h.transactions.sublist (List.filter_sublist.map _)
  refine (List.pairwise_map.mp hn).imp fun {t u} hne g hg hg' => hne ?_
  obtain ⟨s, hs, rfl⟩ := List.mem_map.mp hg
  obtain ⟨s', hs', he⟩ := List.mem_map.mp hg'
  obtain ⟨hs, htx⟩ := List.mem_filter.mp hs
  obtain ⟨hs', htx'⟩ := List.mem_filter.mp hs'
  obtain rfl : s' = s := List.inj_on_of_nodup_map h.splits hs' hs he
  exact (beq_iff_eq.mp htx).symm.trans (beq_iff_eq.mp htx')

/-! ## The export of an import -/

section Import

variable {x s s' : Db} {book : Guid} {m : Renaming}

/-- The new identifier of an account; other references stay. -/
def Renaming.rename (m : Renaming) (g : Guid) : Guid := (m.account g.text).getD g

theorem Renaming.Refers.rename {g g' : Guid} (h : m.Refers g.text g') : m.rename g = g' := by
  rcases h with h | ⟨hnone, hparse⟩
  · rw [Renaming.rename, h, Option.getD_some]
  · obtain rfl : g = g' := Except.ok.inj hparse
    rw [Renaming.rename, hnone, Option.getD_none]

theorem Renaming.AccountAs.relabel {a r : Account} {m' : Relabelling}
    (h : m.AccountAs book a.toExport r) (hroot : m.root = none) (hm : m'.account = m.rename) :
    a.toExport.relabel m' = r.toExport := by
  have hguid : m.rename a.guid = r.guid := Renaming.Refers.rename (.inl h.guid)
  have hparent : a.parentGuid.map m.rename = r.parentGuid := by
    cases hp : a.parentGuid with
    | none => exact ((h.top (by rw [Account.toExport, hp]; rfl)).trans hroot).symm
    | some p =>
      obtain ⟨g, hg, hr⟩ := h.under p.text (by rw [Account.toExport, hp]; rfl)
      rw [hr, Option.map_some, hg.rename]
  unfold Account.toExport ExportAccount.relabel at *
  simp only [GuidText.rename, Guid.text, hm, ExportAccount.mk.injEq, hguid, Option.map_map]
  refine ⟨trivial, h.name.symm, h.accountType.symm, ?_, h.placeholder.symm, h.description.symm⟩
  rw [← hparent, Option.map_map]
  rfl

/-- A file with a root gets no other. -/
theorem Imported.root_none (h : Imported s s' book (x.exportOf book) m)
    (hroot : ∃ a ∈ x.accounts, a.bookGuid = book ∧ a.accountType = "ROOT") : m.root = none := by
  cases hm : m.root with
  | none => rfl
  | some g =>
    obtain ⟨a, ha, hb, ht⟩ := hroot
    have hmem : a ∈ (x.accounts.filter (·.bookGuid == book)).insertionSort parentLe :=
      (List.perm_insertionSort _ _).mem_iff.mpr (List.mem_filter.mpr ⟨ha, by simpa using hb⟩)
    exact absurd ht (h.rooted.mp (by rw [hm]; rfl) a.toExport (List.mem_map_of_mem hmem))

/-- The accounts of the file have new rows. -/
theorem Imported.accounts_relabel (h : Imported s s' book (x.exportOf book) m)
    (hroot : m.root = none) {m' : Relabelling} (hm : m'.account = m.rename) :
    (x.exportOf book).accounts.map (·.relabel m') =
      (s'.accounts.filter (·.bookGuid == book)).map Account.toExport := by
  have hrows := h.accounts
  rw [hroot] at hrows
  simp only [bne, Option.some_beq_none, Bool.not_false, Bool.and_true] at hrows
  refine map_eq_iff_forall₂.mpr ?_
  rw [Db.exportOf, List.forall₂_map_left_iff] at *
  exact hrows.imp fun a r hr => hr.relabel hroot hm

/-- New identifiers for the transactions and the splits of the file. -/
theorem Imported.exists_relabelling (h : Imported s s' book (x.exportOf book) m) (hx : x.Keyed) :
    ∃ f g : Guid → Guid, List.Forall₂ (fun (t r : Transaction) => f t.guid = r.guid ∧
      (x.splitsOf t.guid).map (fun s => g s.guid) = (s'.splitsOf r.guid).map (·.guid) ∧
        m.TransactionAs s' (t.toExport (x.exportSplitsOf t.guid)) r)
      (x.transactions.filter (·.bookGuid == book)) (s'.transactions.filter (·.bookGuid == book)) := by
  have hrows := h.transactions
  rw [Db.exportOf, List.forall₂_map_left_iff] at hrows
  -- the transactions
  obtain ⟨f, hf⟩ := exists_map_eq ((x.transactions.filter (·.bookGuid == book)).map (·.guid))
    ((s'.transactions.filter (·.bookGuid == book)).map (·.guid))
    (hx.transactions.sublist (List.filter_sublist.map _)) (by simpa using hrows.length_eq)
  -- the splits, transaction by transaction
  have hlength : List.Forall₂ (fun (t r : Transaction) =>
      ((x.splitsOf t.guid).map (·.guid)).length = ((s'.splitsOf r.guid).map (·.guid)).length)
      (x.transactions.filter (·.bookGuid == book))
      (s'.transactions.filter (·.bookGuid == book)) := by
    refine hrows.imp fun t r hr => ?_
    have hl := hr.splits.length_eq
    simpa [Transaction.toExport, Db.exportSplitsOf, Db.splitsOf] using hl
  have hsum : ((x.bookSplits book).map (·.guid)).length =
      ((s'.bookSplits book).map (·.guid)).length := by
    rw [Db.bookSplits, Db.bookSplits, List.map_flatMap, List.map_flatMap]
    exact length_flatMap_eq hlength
  obtain ⟨g, hg⟩ := exists_map_eq _ ((s'.bookSplits book).map (·.guid)) (hx.bookSplits_nodup book)
    hsum
  refine ⟨f, g, forall₂_both (map_eq_iff_forall₂.mp (List.map_map ▸ hf)) (forall₂_both ?_ hrows)⟩
  refine forall₂_of_flatMap_eq (hlength.imp fun t r hl => by simpa using hl) ?_
  simpa [Db.bookSplits, List.map_flatMap, Function.comp_def] using hg

theorem Renaming.TransactionAs.relabel {t r : Transaction} {m' : Relabelling}
    (h : m.TransactionAs s' (t.toExport (x.exportSplitsOf t.guid)) r) (hm : m'.account = m.rename)
    (ht : m'.transaction t.guid = r.guid)
    (hs : (x.splitsOf t.guid).map (fun s => m'.split s.guid) = (s'.splitsOf r.guid).map (·.guid)) :
    (t.toExport (x.exportSplitsOf t.guid)).relabel m' = r.toExport (s'.exportSplitsOf r.guid) := by
  have hsplits : ((x.splitsOf t.guid).map Split.toExport).map (·.relabel m') =
      (s'.splitsOf r.guid).map Split.toExport := by
    rw [List.map_map]
    refine map_eq_iff_forall₂.mpr ?_
    have hrows := h.splits
    rw [Transaction.toExport, Db.exportSplitsOf, List.forall₂_map_left_iff] at hrows
    refine (forall₂_both (map_eq_iff_forall₂.mp hs) hrows).imp fun s u hu => ?_
    obtain ⟨hg, hu⟩ := hu
    have haccount : m.rename s.accountGuid = u.accountGuid := hu.account.rename
    simp only [Function.comp, Split.toExport, ExportSplit.relabel, GuidText.rename, Guid.text, hm,
      haccount, hg, ExportSplit.mk.injEq]
    exact ⟨trivial, trivial, hu.memo.symm, hu.valueNum.symm, hu.valueDenom.symm,
      hu.quantityNum.symm, hu.quantityDenom.symm, hu.reconcileState.symm⟩
  unfold Transaction.toExport ExportTransaction.relabel Db.exportSplitsOf
  simp only [GuidText.rename, Guid.text, ht, ExportTransaction.mk.injEq]
  exact ⟨trivial, h.postDate, h.enterDate, h.description.symm, hsplits⟩

/-- **The export of a book that was imported is the file, renamed.** -/
theorem Imported.relabelled (h : Imported s s' book (x.exportOf book) m) (hx : x.Keyed)
    (hs : s'.Keyed) (hroot : ∃ a ∈ x.accounts, a.bookGuid = book ∧ a.accountType = "ROOT") :
    ∃ m', Relabelled x s' book m' := by
  obtain ⟨f, g, hfg⟩ := h.exists_relabelling hx
  have htransactions : (x.transactions.filter (·.bookGuid == book)).map (fun t => f t.guid) =
      (s'.transactions.filter (·.bookGuid == book)).map (·.guid) :=
    map_eq_iff_forall₂.mpr (hfg.imp fun _ _ hr => hr.1)
  have hsplits : (x.bookSplits book).map (fun s => g s.guid) =
      (s'.bookSplits book).map (·.guid) := by
    rw [Db.bookSplits, Db.bookSplits, List.map_flatMap, List.map_flatMap, List.flatMap, List.flatMap]
    exact congrArg List.flatten (map_eq_iff_forall₂.mpr (hfg.imp fun _ _ hr => hr.2.1))
  refine ⟨⟨m.rename, f, g⟩, ?_, ?_, ?_, ?_, ?_⟩
  · rw [h.accounts_relabel (h.root_none hroot) rfl]
    exact (List.perm_insertionSort _ _).map _
  · rw [Db.exportOf, Db.exportOf, List.map_map]
    exact (map_eq_iff_forall₂.mpr (hfg.imp fun t r hr => hr.2.2.relabel rfl hr.1 hr.2.1)).symm
  · intro a ha b hb hab hbb he
    have hmapped : ∀ a ∈ x.accounts, a.bookGuid = book → m.account a.guid.text =
        some (m.rename a.guid) := by
      intro a ha hab
      have hmem : a ∈ (x.accounts.filter (·.bookGuid == book)).insertionSort parentLe :=
        (List.perm_insertionSort _ _).mem_iff.mpr (List.mem_filter.mpr ⟨ha, by simpa using hab⟩)
      obtain ⟨g, hg⟩ := Option.isSome_iff_exists.mp
        ((h.domain a.guid.text).mpr ⟨_, List.mem_map_of_mem hmem, rfl⟩)
      rw [Renaming.rename, hg, Option.getD_some]
    have hsame := h.injective _ _ _ (hmapped a ha hab)
      ((hmapped b hb hbb).trans (congrArg some he.symm))
    exact (GuidText.uuid.inj hsame).1
  · intro t ht u hu htb hub he
    have hn := hs.transactions.sublist
      ((@List.filter_sublist _ (fun t => t.bookGuid == book) s'.transactions).map (·.guid))
    rw [← htransactions] at hn
    exact congrArg _ (List.inj_on_of_nodup_map hn (List.mem_filter.mpr ⟨ht, by simpa using htb⟩)
      (List.mem_filter.mpr ⟨hu, by simpa using hub⟩) he)
  · intro s hs' u hu he
    have hn := hs.bookSplits_nodup book
    rw [← hsplits] at hn
    exact congrArg _ (List.inj_on_of_nodup_map hn hs' hu he)

end Import

/-! ## What a snapshot holds -/

/-- Nothing fails, and no row is lost. -/
def wholeReads {β : Type} (_ : Stmt β) (env : Env) (_ : Db) : Bool := !env.fail && env.cut.isNone

section Snapshots

variable {x v : Db} {book : Guid} {label : String} {trigger : SnapshotTrigger}

theorem whole_of_allowed {β : Type} {q : Stmt β} {env : Env}
    (h : (machine.assuming wholeReads).allowed q env v = true) :
    env.fail = false ∧ env.cut = none := by
  have h' : (machine.allowed q env v && (!env.fail && env.cut.isNone)) = true := h
  simp only [Bool.and_eq_true, Bool.not_eq_true', Option.isNone_iff_eq_none] at h'
  exact h'.2

/-- The splits of each transaction are read. -/
theorem exportTransactions_whole (ts : List Transaction) :
    (exportTransactions ts).swp (machine.assuming wholeReads) Duty.none
      (fun r t => t = .idle v ∧ ∀ es, r = .ok es →
        es = ts.map fun t => t.toExport (v.exportSplitsOf t.guid)) (.idle v) := by
  induction ts with
  | nil => exact ⟨rfl, fun es he => (Except.ok.inj he).symm⟩
  | cons t ts ih =>
    refine swp_ask rfl (fun _ _ => trivial) (fun env e ha hx => ?_) fun env b v' ha hx => ?_
    · exact absurd (selectExportSplits_error hx) (by simp [(whole_of_allowed ha).1])
    · obtain ⟨rfl, rfl⟩ := selectExportSplits_ok hx
      rw [Env.received_whole (whole_of_allowed ha).2]
      refine swp_bind (swp_mono (fun r t' ht => ?_) ih)
      obtain ⟨rfl, hes⟩ := ht
      cases r with
      | error e => exact ⟨rfl, fun _ h => absurd h nofun⟩
      | ok es =>
        refine ⟨rfl, fun es' he => ?_⟩
        rw [← Except.ok.inj he, hes es rfl]
        rfl

/-- **What `buildExportData` reads** is the export of the book. -/
theorem buildExportData_whole :
    (buildExportData book).swp (machine.assuming wholeReads) Duty.none
      (fun r t => t = .idle v ∧ ∀ data, r = .ok data → data = v.exportOf book) (.idle v) := by
  have hno : ∀ e : Err, (Solo.idle v : Solo SqlErr Db) = .idle v ∧
      ∀ data : ExportData, Except.error e = .ok data → data = v.exportOf book :=
    fun e => ⟨rfl, fun _ h => absurd h nofun⟩
  refine swp_exec_idle (fun _ => hno _) fun env accounts v' ha hx => ?_
  obtain ⟨rfl, rfl⟩ := selectExportAccounts_ok hx
  rw [Env.received_whole (whole_of_allowed ha).2]
  refine swp_exec_idle (fun _ => hno _) fun env txns v' ha hx => ?_
  obtain ⟨rfl, rfl⟩ := selectExportTransactions_ok hx
  rw [Env.received_whole (whole_of_allowed ha).2]
  refine swp_bind (swp_mono (fun r t ht => ?_) (exportTransactions_whole _))
  obtain ⟨rfl, hes⟩ := ht
  cases r with
  | error e => exact hno e
  | ok es =>
    refine ⟨rfl, fun data he => ?_⟩
    rw [← Except.ok.inj he, hes es rfl]
    rfl

theorem Db.unused_snapshot {db : Db} {g : Guid} (h : db.unused g = true) :
    ∀ s ∈ db.snapshots, s.id ≠ g := by
  simp only [Db.unused, Bool.and_eq_true, List.all_eq_true, bne_iff_ne] at h
  exact h.1.1.2

/-- A snapshot with the identifier holds the file. -/
def Db.Holds (db : Db) (id : Guid) (file : ExportData) : Prop :=
  ∀ s ∈ db.snapshots, s.id = id → s.data = file

/-- The check of the quota leaves the book. -/
theorem enforceSnapshotQuota_exportOf :
    (enforceSnapshotQuota book trigger).swp (machine.assuming wholeReads) Duty.none
      (fun _ t => ∃ v, t = .idle v ∧ v.exportOf book = x.exportOf book) (.idle x) := by
  refine swp_read_idle (reads_countRecent book trigger) (fun _ => ⟨x, rfl, rfl⟩) fun env n _ => ?_
  split
  · split <;> exact ⟨x, rfl, rfl⟩
  · split
    · refine swp_stmt rfl (fun _ _ => trivial) (fun _ _ _ _ => ⟨x, rfl, rfl⟩) fun env _ v _ hx => ?_
      rw [rotateActive_ok (machine.write_self hx)]
      exact ⟨_, rfl, rfl⟩
    · exact ⟨x, rfl, rfl⟩
  · split <;> exact ⟨x, rfl, rfl⟩

/-- **A snapshot holds the export of its book.** -/
theorem takeSnapshotForBook_holds :
    (takeSnapshotForBook book label trigger).swp (machine.assuming wholeReads) Duty.none
      (fun r t => ∀ s, r = .ok s → t.db.Holds s.id (x.exportOf book)) (.idle x) := by
  refine swp_bind (swp_mono (fun r t ht => ?_) enforceSnapshotQuota_exportOf)
  obtain ⟨v, rfl, hv⟩ := ht
  cases r with
  | error e => exact fun _ h => absurd h nofun
  | ok _ =>
    dsimp only [Prog.ofExcept, ret_bind]
    refine swp_bind (swp_attempt (swp_mono (fun r t ht => ?_) buildExportData_whole))
    obtain ⟨rfl, hdata⟩ := ht
    cases r with
    | error e => exact fun _ h => absurd h nofun
    | ok data =>
      refine swp_stmt rfl (fun _ _ => trivial) (fun _ _ _ _ _ h => absurd h nofun)
        fun env _ w ha hx s hs => ?_
      obtain ⟨-, hx⟩ := require_bind (ok_of_failing hx)
      obtain ⟨rfl, rfl⟩ := Prod.mk.inj (Except.ok.inj hx)
      obtain rfl := Except.ok.inj hs
      have hunused : v.unused env.guid = true := by
        have ha' : (v.unused env.guid && wholeReads _ env v) = true := ha
        exact ((Bool.and_eq_true _ _).mp ha').1
      intro sn hsn hid
      rcases List.mem_append.mp hsn with hsn | hsn
      · exact absurd hid (Db.unused_snapshot hunused sn hsn)
      · rw [List.mem_singleton.mp hsn]
        exact (hdata data rfl).trans hv

end Snapshots

/-! ## What becomes of a snapshot -/

section Later

variable {book id : Guid} {v v' : Db} {file : ExportData}

theorem Amending.snapshots_eq {β : Type} {q : Stmt β} {env : Env} {b : β} (hq : Amending book q)
    (hx : q.sem env v = .ok (b, v')) : v'.snapshots = v.snapshots := by
  have hw := q.write_self hx
  cases hq with
  | toggleSplit s st | reconcileSplit s | reconcileAccounts as =>
    obtain ⟨_, -, hx⟩ := ok_bind (ok_of_failing hx)
    obtain rfl := congrArg Prod.snd (Except.ok.inj hx)
    rfl
  | insertImportAccount a =>
    obtain ⟨now, rfl⟩ := insertImportAccount_ok hw
    rfl
  | updateAccount a r n =>
    obtain ⟨g, p, -, -, rfl⟩ := updateAccountStmt_sem hx
    rfl
  | updateHierarchy a p =>
    obtain ⟨q, -, rfl⟩ := updateHierarchy_ok hw
    rfl

theorem Posting.snapshots_cases {β : Type} {q : Stmt β} {env : Env} {b : β} (hq : Posting book q)
    (hx : q.sem env v = .ok (b, v')) :
    v'.snapshots = v.snapshots ∨ ∃ s, s.id = env.guid ∧ v'.snapshots = v.snapshots ++ [s] := by
  have hw := q.write_self hx
  cases hq with
  | insertTransaction t hb =>
    rw [(insertTransactionStmt_adds hw).eq]
    exact .inl rfl
  | insertSplit a s =>
    obtain ⟨g, rfl⟩ := insertSplitStmt_ok hw
    exact .inl rfl
  | updateTransaction t c p d n =>
    rw [updateTransactionStmt_ok hw]
    exact .inl rfl
  | deleteSplitsOf t =>
    rw [deleteSplitsOf_ok hw]
    exact .inl rfl
  | deleteBookSplits =>
    rw [deleteBookSplits_ok hw]
    exact .inl rfl
  | deleteBookTransactions =>
    rw [deleteBookTransactions_ok hw]
    exact .inl rfl
  | insertImportTransaction t =>
    obtain ⟨_, _, _, -, -, rfl⟩ := insertImportTransaction_ok hw
    exact .inl rfl
  | insertImportSplit t s =>
    obtain ⟨_, _, -, rfl⟩ := insertImportSplit_ok hw
    exact .inl rfl
  | insertSnapshot l t d =>
    rw [insertSnapshotStmt_ok hw]
    exact .inr ⟨_, rfl, rfl⟩

/-- A snapshot stays as it is until it goes; a new one has a new identifier. -/
theorem Issued.holds {β : Type} {q : Stmt β} {env : Env} {b : β} (hq : Issued book q)
    (hid : env.guid ≠ id) (h : v.Holds id file) (hx : q.sem env v = .ok (b, v')) :
    v'.Holds id file := by
  have hkeep : (∀ s ∈ v'.snapshots, s ∈ v.snapshots) → v'.Holds id file :=
    fun hs s hsn => h s (hs s hsn)
  rcases hq with (hq | hq) | hq
  · rcases hq.reads_or_write with hr | hw
    · exact hkeep fun s hs => hr.sem hx ▸ hs
    · exact hkeep (hw.touches hx).snapshots
  · exact hkeep fun s hs => hq.snapshots_eq hx ▸ hs
  · rcases hq.snapshots_cases hx with hs | ⟨new, hnew, hs⟩
    · exact hkeep fun s hsn => hs ▸ hsn
    · intro s hsn hs'
      rcases List.mem_append.mp (hs ▸ hsn) with hsn | hsn
      · exact h s hsn hs'
      · rw [List.mem_singleton.mp hsn, hnew] at hs'
        exact absurd hs' hid

/-- What the server comes to from `x` by events that draw other identifiers than `id`. -/
inductive Later (id : Guid) (x : Db) : Db → Prop
  | start : Later id x x
  | step {v : Db} (e : Event) (envs : Nat → Env) (h : Later id x v)
      (ha : mayServe e.call envs v = true) (hid : ∀ n, (envs n).guid ≠ id) :
      Later id x (serve e.call envs v).2

theorem Later.holds {x : Db} (h : Later id x v) (hx : x.Holds id file) : v.Holds id file := by
  induction h with
  | start => exact hx
  | @step w e envs _ ha hid ih =>
    have hswp : e.call.swp (machine.assuming fun _ env _ => decide (env.guid ≠ id)) Duty.none
        (fun _ t => t.Holds (Db.Holds · id file)) (.idle w) := by
      refine swp_of_issues (event_issued e) ?_ (Solo.holds_idle ih)
      intro β q env v v' b ⟨book, hq⟩ hv ha hx
      have ha' : (machine.allowed q env v && decide (env.guid ≠ id)) = true := ha
      exact hq.holds (of_decide_eq_true ((Bool.and_eq_true _ _).mp ha').2) hv hx
    have hrun := run_of_swp hswp (runAllowed_assuming (fun _ n _ => decide_eq_true (hid n)) ha)
    rw [run_assuming] at hrun
    exact hrun.1

theorem Later.runs {x : Db} (h : Later id x v) (hr : Runs (fun _ _ _ => True) x) :
    Runs (fun _ _ _ => True) v := by
  induction h with
  | start => exact hr
  | step e envs _ ha _ ih => exact .step e envs ih ha trivial

/-! ## Restores -/

theorem getSnapshot_holds {A : ∀ {β : Type}, Stmt β → Env → Db → Bool} (h : v.Holds id file) :
    (getSnapshot book id.text).swp (machine.assuming A) Duty.none
      (fun r t => t = .idle v ∧ ∀ s, r = .ok s → s.data = file) (.idle v) := by
  refine swp_read_idle (Stmt.reads_queryE _) (fun _ => ⟨rfl, fun _ h => absurd h nofun⟩)
    fun env found hx => ?_
  cases found with
  | none => exact ⟨rfl, fun _ h => absurd h nofun⟩
  | some snap =>
    have hfound : v.snapshots.find? (fun s => s.id == id && s.bookGuid == book) = some snap :=
      Except.ok.inj (Stmt.queryE_ok hx).1
    refine ⟨rfl, fun s hs => ?_⟩
    rw [← Except.ok.inj hs]
    have hhit : (snap.id == id && snap.bookGuid == book) = true :=
      List.find?_some (p := fun s : Snapshot => s.id == id && s.bookGuid == book) hfound
    exact h snap (List.mem_of_find?_eq_some hfound)
      (beq_iff_eq.mp ((Bool.and_eq_true _ _).mp hhit).1)

/-- A backup keeps the keys. -/
theorem autoBackup_keyed {A : ∀ {β : Type}, Stmt β → Env → Db → Bool} {label : String}
    (hk : v.Keyed) :
    (autoBackup book label).swp (machine.assuming A) Duty.none
      (fun _ t => ∃ w, t = .idle w ∧ w.Keyed) (.idle v) := by
  have hissues : (autoBackup book label).swp (machine.assuming A) Duty.none
      (fun _ t => t.Holds Db.Keyed) (.idle v) :=
    swp_of_issues (autoBackup_issues label)
      (fun _ _ _ _ _ hq hv _ hx => hq.issued.keyed hv hx) (Solo.holds_idle hk)
  refine swp_mono (fun _ t ht => ?_) (swp_and hissues (swp_body (autoBackup_body label) rfl))
  obtain ⟨s, w⟩ := t
  obtain ⟨⟨hs, -⟩, rfl⟩ := ht
  exact ⟨s, rfl, hs⟩

/-- **What a restore imports** is what the snapshot holds. -/
theorem handleRestore_imported (hk : v.Keyed) (h : v.Holds id file)
    (hn : (file.accounts.map (·.guid)).Nodup) :
    (handleRestore book id.text).swp (machine.assuming fun _ env _ => !file.mentions env.guid)
      Duty.none (fun r t => r = .ok () → ∃ w m, Imported w t.db book file m) (.idle v) := by
  refine swp_bind (p := getSnapshot book id.text) (swp_mono (fun r t ht => ?_) (getSnapshot_holds h))
  obtain ⟨rfl, hdata⟩ := ht
  cases r with
  | error e => exact fun h => absurd h nofun
  | ok snap =>
    dsimp only [Prog.ofExcept, ret_bind]
    refine swp_bind (swp_mono (fun r t ht => ?_) (autoBackup_keyed hk))
    obtain ⟨w, rfl, hw⟩ := ht
    cases r with
    | error e => exact fun h => absurd h nofun
    | ok _ =>
      dsimp only [Prog.ofExcept, ret_bind]
      rw [hdata snap rfl]
      refine swp_mono (fun r t ht => ?_) (performImport_imported hw hn)
      rcases ht with ⟨e, rfl, -⟩ | ⟨w', m, -, rfl, hi⟩
      · exact fun h => absurd h nofun
      · exact fun _ => ⟨w, m, hi⟩

/-- The accounts of an export are named apart. -/
theorem Db.Keyed.exportOf_nodup {x : Db} (h : x.Keyed) :
    ((x.exportOf book).accounts.map (·.guid)).Nodup := by
  have hn : ((x.accounts.filter (·.bookGuid == book)).map (·.guid)).Nodup :=
    h.accounts.sublist (List.filter_sublist.map _)
  have hsorted : (((x.accounts.filter (·.bookGuid == book)).insertionSort parentLe).map
      (·.guid)).Nodup := ((List.perm_insertionSort _ _).map _).nodup_iff.mpr hn
  have htext : Function.Injective Guid.text := fun _ _ he => (GuidText.uuid.inj he).1
  have hmap := hsorted.map htext
  rw [List.map_map] at hmap
  rw [Db.exportOf, List.map_map]
  exact hmap

end Later

/-- The event takes a snapshot of the book, and answers with it. -/
theorem taken_holds {e : Event} {envs : Nat → Env} {x : Db} {book : Guid} {s : SnapshotSummary}
    (he : e.snapshotted = some book) (ha : mayServe e.call envs x = true)
    (hw : ∀ n, (envs n).fail = false ∧ (envs n).cut = none)
    (hs : (serve e.call envs x).1 = .ok (.taken s)) :
    (serve e.call envs x).2.Holds s.id (x.exportOf book) := by
  have htake : ∀ {label trigger}, mayServe ((takeSnapshotForBook book label trigger).bind fun a =>
      ret (.taken a)) envs x = true →
      (serve ((takeSnapshotForBook book label trigger).bind fun a => ret (.taken a)) envs x).1 =
        .ok (.taken s) →
      (serve ((takeSnapshotForBook book label trigger).bind fun a => ret (.taken a)) envs
        x).2.Holds s.id (x.exportOf book) := by
    intro label trigger ha hs
    obtain ⟨hserve, hallowed⟩ := @serve_map x envs _ (takeSnapshotForBook book label trigger)
      Response.taken
    rw [hserve] at hs ⊢
    have hwhole : ∀ n, (!(envs n).fail && (envs n).cut.isNone) = true := fun n => by
      rw [(hw n).1, (hw n).2]
      rfl
    have hrun := run_of_swp (@takeSnapshotForBook_holds x book label trigger)
      (runAllowed_assuming (fun _ n _ => hwhole n) (hallowed.symm.trans ha))
    rw [run_assuming] at hrun
    cases hr : ((takeSnapshotForBook book label trigger).run machine envs (.idle x)).1 with
    | error e =>
      rw [hr] at hs
      exact absurd hs nofun
    | ok s' =>
      rw [hr] at hs
      obtain rfl := Response.taken.inj (Except.ok.inj hs)
      exact hrun s' hr
  have hdone : ∀ {α : Type} {p : Call α} {P : Prop},
      (serve (p.bind fun _ => ret .done) envs x).1 = .ok (.taken s) → P := by
    intro α p P hs
    rw [(@serve_map x envs _ p fun _ => .done).1] at hs
    cases hr : (p.run machine envs (.idle x)).1 with
    | error e =>
      rw [hr] at hs
      exact absurd hs nofun
    | ok a =>
      rw [hr] at hs
      exact absurd hs nofun
  cases e with
  | signUp email name => exact absurd he nofun
  | purge => exact absurd he nofun
  | scheduled book' label trigger =>
    obtain rfl : book' = book := Option.some.inj he
    exact htake ha hs
  | request cfg book' req =>
    cases req with
    | createSnapshot label =>
      obtain rfl : book' = book := Option.some.inj he
      exact htake ha hs
    | restoreSnapshot id => exact hdone (p := handleRestore book' id) hs
    | importGnuCash file =>
      cases file with
      | none => exact absurd he nofun
      | some file => exact hdone (p := handleGnuCashImport book' file) hs
    | _ => exact absurd he nofun

/-- **A restore brings a book back as it was when the snapshot was taken**, under new identifiers,
whatever was done in between. -/
theorem restored {x v : Db} {book : Guid} {e : Event} {envs envs' : Nat → Env} {cfg : PlaidConfig}
    {s : SnapshotSummary} (hr : Runs (fun _ _ _ => True) x)
    (hroot : ∃ a ∈ x.accounts, a.bookGuid = book ∧ a.accountType = "ROOT")
    (he : e.snapshotted = some book) (ha : mayServe e.call envs x = true)
    (hw : ∀ n, (envs n).fail = false ∧ (envs n).cut = none)
    (hs : (serve e.call envs x).1 = .ok (.taken s))
    (hv : Later s.id (serve e.call envs x).2 v)
    (ha' : mayServe (Event.request cfg book (.restoreSnapshot s.id.text)).call envs' v = true)
    (hnew : ∀ n, (x.exportOf book).mentions (envs' n).guid = false)
    (hok : (serve (Event.request cfg book (.restoreSnapshot s.id.text)).call envs' v).1 = .ok .done) :
    ∃ m, Relabelled x
      (serve (Event.request cfg book (.restoreSnapshot s.id.text)).call envs' v).2 book m := by
  have hrun := hv.runs (.step e envs hr ha trivial)
  have hkeyed := (Runs.step (.request cfg book (.restoreSnapshot s.id.text)) envs' hrun ha'
    trivial).keyed
  obtain ⟨hserve, hallowed⟩ := @serve_map v envs' _ (handleRestore book s.id.text) fun _ => .done
  have hcall : (Event.request cfg book (.restoreSnapshot s.id.text)).call =
      (handleRestore book s.id.text).bind fun _ => ret .done := rfl
  rw [hcall] at ha' hok hkeyed ⊢
  have himport := run_of_swp (@handleRestore_imported book s.id v (x.exportOf book) hrun.keyed
    (hv.holds (taken_holds he ha hw hs)) hr.keyed.exportOf_nodup)
    (runAllowed_assuming (fun _ n _ => by rw [hnew n]; rfl) (hallowed.symm.trans ha'))
  rw [run_assuming] at himport
  rw [hserve] at hok hkeyed ⊢
  have hdone : ((handleRestore book s.id.text).run machine envs' (.idle v)).1 = .ok () := by
    cases hr : ((handleRestore book s.id.text).run machine envs' (.idle v)).1 with
    | error e =>
      rw [hr] at hok
      exact absurd hok nofun
    | ok _ => rfl
  obtain ⟨w, m, hi⟩ := himport hdone
  exact hi.relabelled hr.keyed hkeyed hroot

/-- After a purchase, a snapshot and a factory reset. -/
def resetAfterSnapshot : Db :=
  (serve (Event.request plainConfig 3 .factoryReset).call (calm 300)
    (serve (Event.request plainConfig 3 (.createSnapshot "")).call (calm 200) purchased).2).2

/-- The restore brings the purchase back. -/
theorem restored_reset : ∃ m, Relabelled purchased
    (serve (Event.request plainConfig 3 (.restoreSnapshot (Guid.text 204))).call (calm 500)
      resetAfterSnapshot).2 3 m := by
  have hfresh : ∀ n, (purchased.exportOf 3).mentions (calm 500 n).guid = false := by
    intro n
    refine List.any_eq_false.mpr fun t ht he => ?_
    have hsmall : ∀ t ∈ (purchased.exportOf 3).references,
        t.parse.toOption.all (fun g => decide (g < 500)) = true := by decide +kernel
    have ht' := hsmall t ht
    rw [beq_iff_eq.mp he] at ht'
    exact absurd (of_decide_eq_true ht') (Nat.not_lt.mpr (Nat.le_add_right 500 n))
  refine @restored purchased resetAfterSnapshot 3 (.request plainConfig 3 (.createSnapshot ""))
    (calm 200) (calm 500) plainConfig ⟨204, 3, "", .manual, 204⟩
    (purchased_runs fun _ _ _ => trivial) (by decide +kernel) rfl (by decide +kernel)
    (fun _ => ⟨rfl, rfl⟩) (by decide +kernel) (.step _ _ .start (by decide +kernel) fun n => ?_)
    (by decide +kernel) hfresh (by decide +kernel)
  exact (Nat.lt_of_lt_of_le (by decide : 204 < 300) (Nat.le_add_right 300 n)).ne'

end Antimoney
