import Antimoney.Concurrent

/-!
# What a snapshot shows

`takeSnapshotForBook` reads the accounts, the transactions, and the splits of each transaction in
statements of their own, outside a transaction, and goes on where the splits of a transaction
cannot be read or the rows of a query stop early. What it stores is the book at one state if its
reads are whole and nobody changes the book between the first of them and the `INSERT`.

* `Db.exportOf`: the complete export of a book.
* **`takeSnapshot_cut`**: the specification of the method among other calls.
* **`snapshots_cut`**: what is stored, over every interleaving of all requests.
-/

namespace Antimoney

open Antimoney.Lib Prog

/-- The splits of a transaction, as an export has them. -/
def Db.exportSplitsOf (db : Db) (tx : Guid) : List ExportSplit :=
  (db.splits.filter (·.txGuid == tx)).map Split.toExport

/-- The complete export of the book. -/
def Db.exportOf (db : Db) (book : Guid) : ExportData where
  accounts := ((db.accounts.filter (·.bookGuid == book)).insertionSort parentLe).map Account.toExport
  transactions :=
    (db.transactions.filter (·.bookGuid == book)).map fun t => t.toExport (db.exportSplitsOf t.guid)

/-- A transaction of one export is in another equal to it with the same splits. -/
theorem exportSplitsOf_eq {x y : Db} {book : Guid} (h : y.exportOf book = x.exportOf book)
    {t : Transaction} (ht : t ∈ x.transactions.filter (·.bookGuid == book)) :
    y.exportSplitsOf t.guid = x.exportSplitsOf t.guid := by
  have hm : t.toExport (x.exportSplitsOf t.guid) ∈ (x.exportOf book).transactions :=
    List.mem_map.mpr ⟨t, ht, rfl⟩
  rw [← h] at hm
  obtain ⟨t', -, he⟩ := List.mem_map.mp hm
  obtain ⟨hg, -, -, -, hs⟩ := ExportTransaction.mk.inj he
  have hg : t'.guid = t.guid := (GuidText.uuid.inj hg).1
  rw [hg] at hs
  exact hs

/-! ## The calls that take a snapshot -/

/-- The book an event takes a snapshot of. -/
def Event.snapshotted : Event → Option Guid
  | .scheduled book _ _ => some book
  | .request _ book (.createSnapshot _) => some book
  | .request _ book (.restoreSnapshot _) => some book
  | .request _ book (.importGnuCash (some _)) => some book
  | _ => none

/-- The tag is not that of the `INSERT` of a snapshot. -/
def Tag.stores : Tag → Bool
  | .insertSnapshot _ _ _ => true
  | _ => false

/-- The call has read the accounts of the book and not stored a snapshot since. -/
structure ReadsBook (id : Nat) (book : Guid) (log : List (Nat × Note)) : Prop where
  began : ∃ n, (id, n) ∈ log ∧ n.tag = .exportAccounts book
  unstored : ∀ n, (id, n) ∈ log → n.tag.stores = false

/-- A read of the export that loses nothing. -/
def Whole : Tag → Env → Prop
  | .exportAccounts _, env | .exportTransactions _, env => env.cut = none
  | .exportSplits _, env => env.cut = none ∧ env.fail = false
  | _, _ => True

/-- The contract of a call: while it reads a book, the others leave the book's export alone. -/
def cutContract (r : Arrival Event) : Contract Stmt SqlErr (Nat × Env) (Logged Db Note) where
  inv _ := True
  rely x y := (∀ book, r.req.snapshotted = some book → ReadsBook r.id book x.log →
      y.data.exportOf book = x.data.exportOf book) ∧ Logged.Adds (fun e => e.1 ≠ r.id) x y
  guar _ x y := Logged.Adds (fun e => e.1 = r.id) x y ∧ ∀ book, r.req.snapshotted = some book →
    ∀ s ∈ y.data.snapshots, s ∈ x.data.snapshots ∨ s.data = x.data.exportOf book
  ok q env _ := env.1 = r.id ∧ (r.req.snapshotted.isSome = true → Whole q.tag env.2)
  rely_refl s := ⟨fun _ _ _ => rfl, .refl _ s⟩
  rely_trans {a b c} h h' := by
    refine ⟨fun book hb hr => (h'.1 book hb ⟨?_, fun n hn => ?_⟩).trans (h.1 book hb hr),
      h.2.trans h'.2⟩
    · obtain ⟨n, hn, ht⟩ := hr.began
      exact ⟨n, h.2.subset hn, ht⟩
    · rcases h.2.mem hn with hn | hne
      · exact hr.unstored n hn
      · exact absurd rfl hne
  guar_refl _ s _ := ⟨.refl _ s, fun _ _ _ hs => .inl hs⟩

variable {r : Arrival Event} {book : Guid} {s s' x y : Logged Db Note}

/-- The call has stored no snapshot. -/
def Unstored (id : Nat) (s : Logged Db Note) : Prop :=
  ∀ n, (id, n) ∈ s.log → n.tag.stores = false

theorem Unstored.adds {id : Nat} (h : Unstored id x)
    (ha : Logged.Adds (fun e => e.1 = id → e.2.tag.stores = false) x y) : Unstored id y := by
  intro n hn
  rcases ha.mem hn with hn | hc
  · exact h n hn
  · exact hc rfl

theorem stable_unstored : (cutContract r).Stable (Unstored r.id) :=
  fun _ _ h hr _ => h.adds (hr.2.mono fun _ hne he => absurd he hne)

/-- What is known during the export: it shows `data`. -/
structure Shows (r : Arrival Event) (book : Guid) (data : ExportData) (s : Logged Db Note) :
    Prop where
  reads : ReadsBook r.id book s.log
  export_eq : s.data.exportOf book = data

theorem ReadsBook.adds {id : Nat} (h : ReadsBook id book x.log)
    (ha : Logged.Adds (fun e => e.1 = id → e.2.tag.stores = false) x y) : ReadsBook id book y.log := by
  obtain ⟨n, hn, ht⟩ := h.began
  have hu : Unstored id x := h.unstored
  exact ⟨⟨n, ha.subset hn, ht⟩, hu.adds ha⟩

theorem stable_shows {data : ExportData} (hb : r.req.snapshotted = some book) :
    (cutContract r).Stable (Shows r book data) := by
  intro x y h hr _
  refine ⟨h.reads.adds (hr.2.mono fun _ hne he => absurd he hne), ?_⟩
  rw [hr.1 book hb h.reads]
  exact h.export_eq

theorem frame_browse : Frame observed (cutContract r) (fun q => q.Reads ∧ q.tag.stores = false)
    (Looks r.id (·.stores = false)) := by
  refine frame_looks (c := (·.stores = false)) (fun _ _ _ h => h.1) fun o x y _ h => ?_
  exact ⟨trivial, h.log.mono fun _ h => h.1, fun _ _ s hs => .inl (by rw [← h.data]; exact hs)⟩

theorem Shows.looks {data : ExportData} (h : Shows r book data x)
    (hl : Looks r.id (·.stores = false) x y) : Shows r book data y :=
  ⟨h.reads.adds (hl.log.mono fun _ hc _ => hc.2), by rw [hl.data]; exact h.export_eq⟩

theorem Unstored.looks (h : Unstored r.id x) (hl : Looks r.id (·.stores = false) x y) :
    Unstored r.id y := h.adds (hl.log.mono fun _ hc _ => hc.2)

/-- A statement that stores no snapshot. -/
structure Trims {β : Type} (q : Stmt β) : Prop where
  tag : q.tag.stores = false
  keeps : ∀ ⦃env : Env⦄ ⦃v x y : Db⦄, q.write env v x = .ok y → ∀ s ∈ y.snapshots, s ∈ x.snapshots

/-- What such statements of a call do. -/
structure Trimmed (id : Nat) (x y : Logged Db Note) : Prop where
  keeps : ∀ s ∈ y.data.snapshots, s ∈ x.data.snapshots
  log : Logged.Adds (fun e => e.1 = id ∧ e.2.tag.stores = false) x y

theorem frame_trims : Frame observed (cutContract r) Trims (Trimmed r.id) where
  refl x := ⟨fun _ h => h, .refl _ x⟩
  trans h h' := ⟨fun s hs => h.keeps s (h'.keeps s hs), h.log.trans h'.log⟩
  write q env _ _ _ _ _ _ hq hok _ _ hw := by
    obtain ⟨hw, hl⟩ := Machine.logged_write hw
    refine ⟨hq.keeps hw, [_], hl, fun e he => ?_⟩
    rw [List.mem_singleton.mp he]
    exact ⟨hok.1, hq.tag⟩
  keeps _ _ _ _ _ h :=
    ⟨trivial, h.log.mono fun _ h => h.1, fun _ _ s hs => .inl (h.keeps s hs)⟩

theorem Unstored.trimmed (h : Unstored r.id x) (ht : Trimmed r.id x y) : Unstored r.id y :=
  h.adds (ht.log.mono fun _ hc _ => hc.2)

theorem trims_of_reads {β : Type} {q : Stmt β} (hq : q.Reads) (ht : q.tag.stores = false) :
    Trims q :=
  ⟨ht, fun _ _ _ _ hw s hs => by rw [hq.write hw] at hs; exact hs⟩

theorem trims_rotateActive : Trims (rotateActive book) := by
  refine ⟨rfl, fun env v x y hw s hs => ?_⟩
  rw [rotateActive_ok (v := v) hw] at hs
  exact (mem_deleteWhere.mp hs).1

theorem trims_countRecent (trigger : SnapshotTrigger) : Trims (countRecentSnapshots book trigger) :=
  trims_of_reads (reads_countRecent book trigger) rfl

/-! ## The export -/

theorem browse {β : Type} {q : Stmt β} {env : Nat × Env} {b : β} (hq : q.Reads)
    (ht : q.tag.stores = false) (hid : env.1 = r.id) (hx : observed.exec q env x = .ok (b, y)) :
    Looks r.id (·.stores = false) x y :=
  hid ▸ Looks.of_write hq ht (observed.write_self hx)

theorem Looks.cut {β : Type} {o : Op Stmt β} (h : Looks r.id (·.stores = false) x y) :
    (cutContract r).guar o x y :=
  (frame_browse.keeps (.begin : Op Stmt Unit) x y trivial trivial h).2

/-- The loop over the transactions, while the export shows them with splits `f`. -/
theorem exportTransactions_cut {data : ExportData} {f : Guid → List ExportSplit}
    (hb : r.req.snapshotted = some book) {ts : List Transaction}
    (hf : ∀ s : Logged Db Note, s.data.exportOf book = data →
      ∀ t ∈ ts, s.data.exportSplitsOf t.guid = f t.guid) (hs : Shows r book data s) :
    (exportTransactions ts).wp observed (cutContract r)
      (fun x ss s => ss = .idle ∧ Shows r book data s ∧
        ∀ es, x = .ok es → es = ts.map fun t => t.toExport (f t.guid)) .idle s := by
  induction ts generalizing s with
  | nil => exact ⟨rfl, hs, fun es he => (Except.ok.inj he).symm⟩
  | cons t ts ih =>
    refine wp_stmt_idle (fun s' env e hr hi hok hx => ?_) fun s' env splits s'' hr hi _ hok hx => ?_
    · -- the read does not fail
      have hfail := selectExportSplits_error (Machine.logged_error hx)
      rw [(hok.2 (by rw [hb]; rfl)).2] at hfail
      exact absurd hfail (by simp)
    · have hl := browse ((Stmt.reads_rowsE _).tagged _) rfl hok.1 hx
      have hs' := stable_shows hb _ _ hs hr hi
      refine ⟨trivial, hl.cut, ?_⟩
      obtain ⟨hsplits, -⟩ := selectExportSplits_ok (Machine.logged_exec hx).1
      rw [Env.received_whole (hok.2 (by rw [hb]; rfl)).1] at hsplits
      have hft : splits = f t.guid := hsplits.trans (hf s' hs'.export_eq t List.mem_cons_self)
      refine wp_bind (p := exportTransactions ts) (wp_mono (fun x ss s h => ?_)
        (ih (fun s he t' ht => hf s he t' (.tail _ ht)) (hs'.looks hl)))
      obtain ⟨rfl, hs, hes⟩ := h
      cases x with
      | error e => exact ⟨rfl, hs, fun es he => absurd he (by simp)⟩
      | ok es =>
        refine ⟨rfl, hs, fun es' he => ?_⟩
        obtain rfl := Except.ok.inj he
        rw [hes es rfl, hft]
        rfl

/-- **`buildExportData` among other calls** reads the book as it is. -/
theorem buildExportData_cut (hb : r.req.snapshotted = some book) (hs : Unstored r.id s) :
    (buildExportData book).wp observed (cutContract r)
      (fun x ss s => ss = .idle ∧ ∀ data, x = .ok data → Shows r book data s) .idle s := by
  have htakes : r.req.snapshotted.isSome = true := by rw [hb]; rfl
  refine wp_stmt_idle (fun s' _ _ _ _ _ _ => ⟨rfl, fun _ h => absurd h (by simp)⟩) ?_
  intro s' env accounts s'' hr hi _ hok hx
  have hl := browse ((Stmt.reads_rowsE _).tagged _) rfl hok.1 hx
  refine ⟨trivial, hl.cut, ?_⟩
  obtain ⟨hx, hlog⟩ := Machine.logged_exec hx
  obtain ⟨haccounts, -⟩ := selectExportAccounts_ok hx
  rw [Env.received_whole (hok.2 htakes)] at haccounts
  -- from here on the export is that of this state
  have hshows : Shows r book (s'.data.exportOf book) s'' := by
    refine ⟨⟨⟨noteOf (selectExportAccounts book) env.2 s'.data, ?_, rfl⟩, (stable_unstored _ _ hs hr hi).looks hl⟩, by rw [hl.data]⟩
    rw [hlog, hok.1]
    exact List.mem_cons_self
  refine wp_stmt_idle (fun s' _ _ _ _ _ _ => ⟨rfl, fun _ h => absurd h (by simp)⟩) ?_
  intro s₁ env₁ txns s₂ hr₁ hi₁ _ hok₁ hx₁
  have hl₁ := browse ((Stmt.reads_rowsE _).tagged _) rfl hok₁.1 hx₁
  refine ⟨trivial, hl₁.cut, ?_⟩
  obtain ⟨htxns, -⟩ := selectExportTransactions_ok (Machine.logged_exec hx₁).1
  rw [Env.received_whole (hok₁.2 htakes)] at htxns
  have hshows₁ := stable_shows hb _ _ hshows hr₁ hi₁
  refine wp_bind (p := exportTransactions txns) (wp_mono (fun x ss s h => ?_)
    (exportTransactions_cut (f := s₁.data.exportSplitsOf) hb (fun s he t ht => ?_) (hshows₁.looks hl₁)))
  · obtain ⟨rfl, hs, hes⟩ := h
    cases x with
    | error e => exact ⟨rfl, fun _ he => absurd he (by simp)⟩
    | ok es =>
      refine ⟨rfl, fun data he => ?_⟩
      obtain rfl := Except.ok.inj he
      have hdata : (⟨accounts, es⟩ : ExportData) = s'.data.exportOf book := by
        have htrans : es = (s₁.data.exportOf book).transactions := by
          rw [hes es rfl, htxns]
          rfl
        rw [haccounts, htrans, hshows₁.export_eq]
        rfl
      rw [hdata]
      exact hs
  · rw [htxns] at ht
    exact exportSplitsOf_eq (he.trans hshows₁.export_eq.symm) ht

/-- **`takeSnapshotForBook` among other calls.** -/
theorem takeSnapshot_cut {label : String} {trigger : SnapshotTrigger}
    (hb : r.req.snapshotted = some book) (hs : Unstored r.id s) :
    (takeSnapshotForBook book label trigger).wp observed (cutContract r)
      (fun _ ss _ => ss = .idle) .idle s := by
  have hkeep : ∀ x y, (cutContract r).inv x → Looks r.id (·.stores = false) x y →
      Unstored r.id x → Unstored r.id y := fun _ _ _ hl h => h.looks hl
  refine wp_bind (p := enforceSnapshotQuota book trigger) (wp_mono (fun x ss s h => ?_)
    (show (enforceSnapshotQuota book trigger).wp observed (cutContract r)
      (fun _ ss s => ss = .idle ∧ Unstored r.id s) .idle s from ?_))
  · obtain ⟨rfl, hs⟩ := h
    cases x with
    | error e => exact rfl
    | ok _ =>
      dsimp only [Prog.ofExcept, ret_bind]
      refine wp_bind (wp_attempt (wp_mono (fun x ss s h => ?_) (buildExportData_cut hb hs)))
      obtain ⟨rfl, hshows⟩ := h
      cases x with
      | error e => exact rfl
      | ok data =>
        refine wp_stmt_idle (fun _ _ _ _ _ _ _ => rfl) fun s' env _ s'' hr hi _ hok hx => ?_
        have hshows := stable_shows hb _ _ (hshows data rfl) hr hi
        obtain ⟨hw, hlog⟩ := Machine.logged_write (observed.write_self hx)
        have hy := insertSnapshotStmt_ok (v := s'.data) hw
        refine ⟨trivial, ⟨⟨[_], hlog, fun e he => ?_⟩, fun book' hb' sn hsn => ?_⟩, rfl⟩
        · rw [List.mem_singleton.mp he]
          exact hok.1
        · obtain rfl := Option.some.inj (hb.symm.trans hb')
          rw [hy] at hsn
          rcases List.mem_append.mp hsn with h | h
          · exact .inl h
          · rw [List.mem_singleton.mp h]
            exact .inr hshows.export_eq.symm
  · exact wp_body_idle frame_trims stable_unstored (fun _ _ _ ht h => h.trimmed ht)
      (enforceSnapshotQuota_issues _ (trims_countRecent trigger) trims_rotateActive)
      (enforceSnapshotQuota_body trigger) hs

/-! ## The other statements of a restore -/

theorem Importing.trims {β : Type} {q : Stmt β} (h : Importing book q) : Trims q := by
  have hsame : q.tag.stores = false → (∀ env v x y, q.write env v x = .ok y →
      y.snapshots = x.snapshots) → Trims q :=
    fun ht hq => ⟨ht, fun env v x y hw s hs => by rw [hq env v x y hw] at hs; exact hs⟩
  cases h with
  | read h => exact trims_of_reads h.reads (by cases h.named <;> rfl)
  | setBookRoot root =>
    exact hsame rfl fun _ v _ _ hw => by rw [(setBookRoot_ok (v := v) hw).2]
  | deleteBookSplits => exact hsame rfl fun _ _ _ _ hw => by rw [deleteBookSplits_ok hw]
  | deleteBookTransactions =>
    refine hsame rfl fun _ _ _ _ hw => ?_
    rw [deleteBookTransactions_ok hw]
    rfl
  | deleteBookAccounts => exact hsame rfl fun _ _ _ _ hw => by rw [deleteBookAccounts_ok hw]
  | insertImportAccount a =>
    refine hsame rfl fun _ v _ _ hw => ?_
    obtain ⟨_, rfl⟩ := insertImportAccount_ok (v := v) hw
    rfl
  | updateHierarchy a p =>
    refine hsame rfl fun _ v _ _ hw => ?_
    obtain ⟨_, -, rfl⟩ := updateHierarchy_ok (v := v) hw
    rfl
  | insertImportTransaction t =>
    refine hsame rfl fun _ v _ _ hw => ?_
    obtain ⟨_, _, _, -, -, rfl⟩ := insertImportTransaction_ok (v := v) hw
    rfl
  | insertImportSplit t s =>
    refine hsame rfl fun _ v _ _ hw => ?_
    obtain ⟨_, _, -, rfl⟩ := insertImportSplit_ok (v := v) hw
    rfl

/-- An import takes no snapshot. -/
theorem performImport_trims {file : ExportData} {ss : Sess SqlErr Lock (Logged Db Note)}
    (hss : ss = .idle) :
    (performImport book file).wp observed (cutContract r) (fun _ _ _ => True) ss s := by
  rw [hss]
  exact wp_frame frame_trims ((performImport_issues file).mono fun _ h => h.trims) Sess.within_idle

/-- A backup and what comes after it. -/
theorem autoBackup_cut {α : Type} {label : String} {k : Unit → Call α}
    (hb : r.req.snapshotted = some book) (hs : Unstored r.id s)
    (hk : ∀ s, (k ()).wp observed (cutContract r) (fun _ _ _ => True) .idle s) :
    ((autoBackup book label).bind k).wp observed (cutContract r) (fun _ _ _ => True) .idle s := by
  refine wp_bind (wp_bind (wp_attempt (wp_mono (fun x ss s h => ?_) (takeSnapshot_cut hb hs))))
  rw [h]
  exact hk s

theorem getSnapshot_cut {i : GuidText} (hs : Unstored r.id s) :
    (getSnapshot book i).wp observed (cutContract r)
      (fun _ ss s => ss = .idle ∧ Unstored r.id s) .idle s := by
  refine wp_stmt_frame frame_trims stable_unstored (fun _ _ _ ht h => h.trimmed ht)
    (trims_of_reads (Stmt.reads_queryE _) rfl) hs (fun _ _ s hs _ _ => ⟨rfl, hs⟩)
    fun _ snap _ s _ hs _ _ _ _ => ?_
  cases snap with
  | none => exact ⟨rfl, hs⟩
  | some snap => exact ⟨rfl, hs⟩

theorem handleRestore_cut {i : GuidText} (hb : r.req.snapshotted = some book)
    (hs : Unstored r.id s) :
    (handleRestore book i).wp observed (cutContract r) (fun _ _ _ => True) .idle s := by
  refine wp_bind (p := getSnapshot book i) (wp_mono (fun x ss s h => ?_) (getSnapshot_cut hs))
  obtain ⟨rfl, hs⟩ := h
  cases x with
  | error e => trivial
  | ok snap => exact autoBackup_cut hb hs fun s => performImport_trims rfl

/-- **The call of an event among all others.** -/
theorem event_cut (hs : Unstored r.id s) :
    r.call.wp observed (cutContract r) (fun _ _ _ => True) .idle s := by
  cases hb : r.req.snapshotted with
  | none =>
    -- nothing is asked of a call that takes no snapshot
    refine wp_frame (P := fun _ => True) (W := Logged.Adds fun e => e.1 = r.id) ?_
      (issues_true _) Sess.within_idle
    exact
      { refl := .refl _
        trans := .trans
        write := fun q env s v v' b x y h hok =>
          (frame_byNumber machine noteOf r.id).write q env s v v' b x y h hok.1
        keeps := fun _ _ _ _ _ h => ⟨trivial, h, fun _ hbook => absurd hbook (by simp [hb])⟩ }
  | some book =>
    obtain ⟨id, e⟩ := r
    have hdone : ∀ {α : Type} {f : α → Response} (x : Except Err α) (ss : Sess SqlErr Lock _) s,
        ((Prog.ofExcept x).bind fun a => ret (f a)).wp observed (cutContract ⟨id, e⟩)
          (fun _ _ _ => True) ss s := fun x _ _ => by cases x <;> trivial
    have htake : ∀ {label : String} {trigger : SnapshotTrigger} {f : SnapshotSummary → Response},
        ((takeSnapshotForBook book label trigger).bind fun a => ret (f a)).wp observed
          (cutContract ⟨id, e⟩) (fun _ _ _ => True) .idle s :=
      wp_bind (wp_mono (fun x ss s _ => hdone x ss s) (takeSnapshot_cut hb hs))
    unfold Lib.Arrival.call
    cases e with
    | signUp email name => exact absurd hb (by simp [Event.snapshotted])
    | purge => exact absurd hb (by simp [Event.snapshotted])
    | scheduled book' label trigger =>
      obtain rfl : book' = book := Option.some.inj hb
      exact htake
    | request cfg book' req =>
      cases req with
      | createSnapshot label =>
        obtain rfl : book' = book := Option.some.inj hb
        exact htake
      | restoreSnapshot i =>
        obtain rfl : book' = book := Option.some.inj hb
        exact wp_bind (wp_mono (fun x ss s _ => hdone x ss s) (handleRestore_cut hb hs))
      | importGnuCash file =>
        cases file with
        | none => exact absurd hb (by simp [Event.snapshotted])
        | some file =>
          obtain rfl : book' = book := Option.some.inj hb
          exact wp_bind (p := handleGnuCashImport book' file) (wp_mono
            (fun x ss s _ => hdone x ss s) (autoBackup_cut hb hs fun s => performImport_trims rfl))
      | _ => exact absurd hb (by simp [Event.snapshotted])

/-! ## Every interleaving -/

/-- The reads of call `i` lose nothing. -/
def WholeReads (c : Observed) (i : Nat) (env : Env) : Prop :=
  ∀ a, c.calls[i]? = some a → a.req.req.snapshotted.isSome = true →
    ∀ t, nextTag c i = some t → Whole t env

/-- The step of call `i` leaves the export of every book that another call is reading. -/
def Undisturbed (c : Observed) (i : Nat) (env : Nat × Env) : Prop :=
  ∀ (j : Nat) (b : ObservedCall) (book : Guid) (c' : Observed), j ≠ i → c.calls[j]? = some b →
    b.prog.Running → b.req.req.snapshotted = some book → ReadsBook j book c.db.log →
    c.next observed Arrival.call (.step i env) = some c' →
    c'.db.data.exportOf book = c.db.data.exportOf book

/-- No read of an export loses anything, and from the first read of an export to its `INSERT` the
other calls leave the book's export alone. -/
def CutSteps (c : Observed) : ObservedStep → Prop
  | .spawn _ => True
  | .step i env => WholeReads c i env.2 ∧ Undisturbed c i env

theorem cutSteps_numbered (c : Observed) (e : ObservedStep) (h : Numbering CutSteps c e) :
    Numbered c e := h.1

theorem cuts_tolerant (db : Db) :
    Tolerant observed Arrival.call (Numbering CutSteps) ⟨db, []⟩ (fun _ => True) cutContract
      (fun _ _ _ => True) fun _ _ => True where
  start := trivial
  inv _ _ := Iff.rfl
  arrives c r hr hok _ := by
    refine event_cut fun n hn => ?_
    have hlt := hr.log_lt cutSteps_numbered rfl hn
    have hid : r.id = c.calls.length := hok.1
    dsimp only at hlt
    omega
  pairs _ _ _ _ _ _ _ := ⟨trivial, trivial⟩
  supplied h := by
    refine ⟨h.ok.1.trans (h.reach.id_eq cutSteps_numbered h.call).symm, fun htakes => ?_⟩
    exact h.ok.2.1 _ h.call htakes _ (nextTag_of_step h)
  rely h hij hj _ hg hrun _ := by
    refine ⟨fun book hb hr => ?_, hg.1.mono fun _ he => he.trans_ne
      (h.id_ne cutSteps_numbered hij hj)⟩
    rw [h.reach.id_eq cutSteps_numbered hj] at hr
    exact h.ok.2.2 _ _ book _ (fun h => hij h.symm) hj hrun hb hr h.next
  keep _ _ _ _ _ _ := trivial

/-- **A stored snapshot shows the book at one state.** In every interleaving of all requests, while
no read of an export loses anything and nobody changes the book between the first read of an export
and its `INSERT`, a step of a call that takes a snapshot stores the complete export of the book. -/
theorem snapshots_cut {db : Db} {c c' : Observed} (hr : Watched CutSteps db c) {i : Nat}
    {env : Nat × Env} (he : Numbering CutSteps c (.step i env))
    (hn : c.next observed Arrival.call (.step i env) = some c') {a : ObservedCall}
    (hi : c.calls[i]? = some a) {book : Guid} (ha : a.req.req.snapshotted = some book) :
    ∀ s ∈ c'.db.data.snapshots, s ∈ c.db.data.snapshots ∨ s.data = c.db.data.exportOf book := by
  obtain ⟨r, _, o, _, _, hcall, -, hg⟩ := (cuts_tolerant db).guar hr he hn
  obtain rfl := Option.some.inj (hi.symm.trans hcall)
  exact hg book ha

/-- The test of `CutSteps`, where a call steps only if no other is under way. -/
def cutSteps (c : Observed) (e : ObservedStep) : Bool :=
  numbered c e && match e with
    | .spawn _ => true
    | .step i env => env.2.cut.isNone && !env.2.fail &&
        (c.calls.eraseIdx i).all fun a => a.prog.outcome.isSome

theorem numbering_of_cutSteps {c : Observed} {e : ObservedStep} (h : cutSteps c e = true) :
    Numbering CutSteps c e := by
  obtain ⟨h1, h2⟩ := Bool.and_eq_true_iff.mp h
  refine ⟨numbered_of_test h1, ?_⟩
  cases e with
  | spawn r => trivial
  | step i env =>
    simp only [Bool.and_eq_true, Option.isNone_iff_eq_none, Bool.not_eq_true'] at h2
    obtain ⟨⟨hcut, hfail⟩, hdone⟩ := h2
    refine ⟨fun a _ _ t _ => ?_, fun j b book c' hji hj hrun => ?_⟩
    · unfold Whole
      split
      · exact hcut
      · exact hcut
      · exact ⟨hcut, hfail⟩
      · trivial
    · refine absurd hrun (not_running_of_outcome (List.all_eq_true.mp hdone b ?_))
      exact List.mem_eraseIdx_iff_getElem?.mpr ⟨j, hji, hj⟩

/-- A snapshot of the book, up to its `INSERT`. -/
def takesSnapshot (id : Nat) : List ObservedStep :=
  .spawn ⟨id, .request plainConfig 3 (.createSnapshot "")⟩ ::
    (List.range 4).map fun k => .step id (id, calm 200 k)

/-- It stores the export of the book, with its purchase. -/
theorem snapshots_cut_purchase : ∃ c c', Watched CutSteps purchased c ∧
    c.next observed Arrival.call (.step 0 (0, calm 200 4)) = some c' ∧
    c'.db.data.snapshots.length = 1 ∧
    ∀ s ∈ c'.db.data.snapshots, s.data = c.db.data.exportOf 3 := by
  have hrun : ((Conf.run observed Arrival.call cutSteps ⟨⟨purchased, []⟩, []⟩
      (takesSnapshot 0)).bind fun c => (c.next observed Arrival.call (.step 0 (0, calm 200 4))).map
        fun c' => (cutSteps c (.step 0 (0, calm 200 4)),
          c.calls[0]?.map fun a => a.req.req.snapshotted,
          c.db.data.snapshots.length, c'.db.data.snapshots.length)) =
      some (true, some (some 3), 0, 1) := by
    decide +kernel
  obtain ⟨c, hc, h⟩ := Option.bind_eq_some_iff.mp hrun
  obtain ⟨c', hn, h⟩ := Option.map_eq_some_iff.mp h
  obtain ⟨h0, h⟩ := Prod.mk.inj h
  obtain ⟨h1, h⟩ := Prod.mk.inj h
  obtain ⟨h2, h3⟩ := Prod.mk.inj h
  obtain ⟨a, ha, hb⟩ := Option.map_eq_some_iff.mp h1
  have hr : Watched CutSteps purchased c :=
    Reach.run (fun _ _ => numbering_of_cutSteps) .start hc
  refine ⟨c, c', hr, hn, h3, fun s hs => ?_⟩
  refine (snapshots_cut hr (numbering_of_cutSteps h0) hn ha hb s hs).resolve_left fun hm => ?_
  rw [List.length_eq_zero_iff.mp h2] at hm
  exact absurd hm (by simp)

/-- The purchase is deleted between the read of the transactions and the read of its splits. -/
def tornRun : List ObservedStep :=
  [.spawn ⟨0, .request plainConfig 3 (.createSnapshot "")⟩, .step 0 (0, calm 200 0),
    .step 0 (0, calm 200 1), .step 0 (0, calm 200 2),
    .spawn ⟨1, .request plainConfig 3 (.deleteTransaction (Guid.text 103))⟩,
    .step 1 (1, calm 200 3), .step 0 (0, calm 200 4), .step 0 (0, calm 200 5)]

/-- Then what is stored is the export of the book at no state of the run. -/
theorem snapshots_torn : ∃ c, numberedRun purchased tornRun = some c ∧ ∃ s ∈ c.db.data.snapshots,
    ∀ k c₁, numberedRun purchased (tornRun.take k) = some c₁ →
      s.data ≠ c₁.db.data.exportOf 3 := by
  have hrun : ((numberedRun purchased tornRun).bind fun c => c.db.data.snapshots.head?.map fun s =>
      (List.range 9).all fun k => ((numberedRun purchased (tornRun.take k)).all fun c₁ =>
        decide (s.data ≠ c₁.db.data.exportOf 3))) = some true := by
    decide +kernel
  obtain ⟨c, hc, h⟩ := Option.bind_eq_some_iff.mp hrun
  obtain ⟨s, hs, hall⟩ := Option.map_eq_some_iff.mp h
  refine ⟨c, hc, s, List.mem_of_head? hs, fun k c₁ hk => ?_⟩
  have hmin : numberedRun purchased (tornRun.take (min k 8)) = some c₁ := by
    rcases Nat.le_total k 8 with hle | hle
    · rw [Nat.min_eq_left hle]
      exact hk
    · rw [Nat.min_eq_right hle, List.take_of_length_le (show tornRun.length ≤ 8 from Nat.le_refl _)]
      rw [List.take_of_length_le (show tornRun.length ≤ k from hle)] at hk
      exact hk
  have h := List.all_eq_true.mp hall (min k 8) (List.mem_range.mpr (by omega))
  rw [hmin] at h
  exact of_decide_eq_true h

end Antimoney
