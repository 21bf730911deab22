import Antimoney.Readers
import Antimoney.Restore.Import

/-!
# Who changes users and books

Only `Register`, a factory reset and an import change `users` and `books`; every statement of the
other calls leaves both tables alone.

* **`handle_keepsBooks`**: a request that neither resets nor imports.
* `performImport_housed`: an import that commits gives the book the root of its tree.
-/

namespace Antimoney

open Antimoney.Lib Antimoney.Gnc Prog

/-- The users and the books are the same. -/
structure SameBooks (x y : Db) : Prop where
  users : y.users = x.users
  books : y.books = x.books

theorem SameBooks.refl (x : Db) : SameBooks x x := ⟨rfl, rfl⟩

theorem SameBooks.trans {x y z : Db} (h : SameBooks x y) (h' : SameBooks y z) : SameBooks x z :=
  ⟨h'.users.trans h.users, h'.books.trans h.books⟩

/-- The statement leaves users and books alone. -/
def KeepsBooks {β : Type} (q : Stmt β) : Prop :=
  ∀ ⦃env : Env⦄ ⦃v v' : Db⦄ ⦃b : β⦄, q.sem env v = .ok (b, v') → SameBooks v v'

/-! ## Statements -/

section Statements

variable {book : Guid}

theorem Stmt.Reads.keepsBooks {β : Type} {q : Stmt β} (h : q.Reads) : KeepsBooks q := by
  intro env v v' b hx
  rw [h.sem hx]
  exact .refl v

theorem Reading.keepsBooks {β : Type} {q : Stmt β} (h : Reading book q) : KeepsBooks q :=
  h.reads.keepsBooks

theorem ByBook.keepsBooks {β : Type} {q : Stmt β} (h : ByBook book q) : KeepsBooks q := by
  intro env v v' b hx
  have hw := q.write_self hx
  have hread : q.Reads → SameBooks v v' := fun hr => hr.keepsBooks hx
  cases h with
  | askEnv f => exact hread (Stmt.reads_askEnv f)
  | uuidNew => exact hread reads_uuidNew
  | syncTransactions c => exact hread ((Stmt.reads_askEnv _).tagged _)
  | removeBankItem i t => exact hread ((Stmt.reads_askEnv _).tagged _)
  | noop | selectImbalance | selectBookRoot | countRegister | selectConfig | selectBook
  | transactionExists | selectDismissed | selectRemovedImported | selectLinkedAccounts
  | selectNames | selectBankAccount => exact hread (Stmt.reads_query _)
  | selectCategory | selectCategories =>
    exact hread (Stmt.reads_ordered fun _ => Stmt.reads_query _)
  | loadStaged i => exact hread ((Stmt.reads_query _).tagged _)
  | countRecent t => exact hread (reads_countRecent book t)
  | selectPlaceholder | selectVersion | selectTransaction | selectAccountType
  | selectReconciledBalance | selectAccount | accountExists | selectSnapshot
  | importedValueMatches | selectInstitution | countOtherLinks | selectLink | selectItem
  | selectSuggestions => exact hread (Stmt.reads_queryE _)
  | selectExportAccounts => exact hread ((Stmt.reads_rowsE _).tagged _)
  | selectExportTransactions => exact hread ((Stmt.reads_rowsE _).tagged _)
  | selectPage => exact hread (Stmt.reads_ordered fun _ => Stmt.reads_queryE _)
  | selectPrior => exact hread (Stmt.reads_ordered fun _ => Stmt.reads_rowsE _)
  | selectTransactions | selectTree | selectSnapshots | selectItems =>
    exact hread (Stmt.reads_rowsE _)
  | deleteAccount a =>
    obtain ⟨g, -, rfl⟩ := deleteAccountStmt_ok hw
    exact ⟨rfl, rfl⟩
  | deleteTransaction t =>
    obtain ⟨g, -, hx⟩ := ok_bind (ok_of_failing hx)
    obtain rfl := congrArg Prod.snd (Except.ok.inj hx)
    exact ⟨rfl, rfl⟩
  | upsertConfig f t a =>
    obtain ⟨-, hx⟩ := require_bind (ok_of_failing hx)
    dsimp only at hx
    split at hx
    · obtain ⟨-, rfl⟩ := Prod.mk.inj (Except.ok.inj hx)
      exact ⟨rfl, rfl⟩
    · obtain ⟨-, hx⟩ := require_bind hx
      obtain ⟨-, rfl⟩ := Prod.mk.inj (Except.ok.inj hx)
      exact ⟨rfl, rfl⟩
  | deleteSnapshot i =>
    obtain ⟨g, -, rfl⟩ := deleteSnapshotStmt_ok hw
    exact ⟨rfl, rfl⟩
  | rotateActive =>
    rw [rotateActive_ok hw]
    exact ⟨rfl, rfl⟩
  | deleteBookAccounts =>
    rw [deleteBookAccounts_ok hw]
    exact ⟨rfl, rfl⟩
  | dropReplaced is =>
    rw [dropReplaced_ok hw]
    exact ⟨rfl, rfl⟩
  | dropUndismissed is =>
    rw [dropUndismissed_ok hw]
    exact ⟨rfl, rfl⟩
  | writeCursor i c n =>
    obtain ⟨g, -, rfl⟩ := writeCursor_ok hw
    exact ⟨rfl, rfl⟩
  | writeLastSynced i n =>
    rw [writeLastSynced_ok hw]
    exact ⟨rfl, rfl⟩
  | reseal i c n w =>
    obtain ⟨g, now, -, rfl⟩ := resealStmt_ok hw
    exact ⟨rfl, rfl⟩
  | updateLink a l =>
    obtain ⟨g, now, -, -, rfl⟩ := updateLinkStmt_ok hw
    exact ⟨rfl, rfl⟩
  | updateImportPending i p =>
    obtain ⟨g, now, -, rfl⟩ := updateImportPending_ok hw
    exact ⟨rfl, rfl⟩
  | tryAdvisoryLock i => rcases tryAdvisoryLock_ok hw with ⟨-, rfl⟩ | ⟨-, rfl⟩ <;> exact ⟨rfl, rfl⟩
  | advisoryUnlock i =>
    rw [advisoryUnlock_ok hw]
    exact ⟨rfl, rfl⟩
  | dismissStaged is =>
    rw [dismissStagedStmt_ok hw]
    exact ⟨rfl, rfl⟩
  | deleteStaged i =>
    rw [deleteStagedStmt_ok hw]
    exact ⟨rfl, rfl⟩
  | archiveItem i n =>
    rw [archiveItem_ok hw]
    exact ⟨rfl, rfl⟩
  | clearLinks i =>
    rw [clearLinks_ok hw]
    exact ⟨rfl, rfl⟩
  | deleteItem i n =>
    rw [deleteItemStmt_ok hw]
    exact ⟨rfl, rfl⟩

theorem Amending.keepsBooks {β : Type} {q : Stmt β} (h : Amending book q) : KeepsBooks q := by
  intro env v v' b hx
  have hw := q.write_self hx
  cases h with
  | toggleSplit s st | reconcileSplit s | reconcileAccounts as =>
    obtain ⟨_, -, hx⟩ := ok_bind (ok_of_failing hx)
    obtain rfl := congrArg Prod.snd (Except.ok.inj hx)
    exact ⟨rfl, rfl⟩
  | updateAccount a r n =>
    obtain ⟨g, p, -, -, rfl⟩ := updateAccountStmt_sem hx
    exact ⟨rfl, rfl⟩
  | insertImportAccount a =>
    obtain ⟨now, rfl⟩ := insertImportAccount_ok hw
    exact ⟨rfl, rfl⟩
  | updateHierarchy a p =>
    obtain ⟨q, -, rfl⟩ := updateHierarchy_ok hw
    exact ⟨rfl, rfl⟩

theorem Posting.keepsBooks {β : Type} {q : Stmt β} (h : Posting book q) : KeepsBooks q := by
  intro env v v' b hx
  have hw := q.write_self hx
  cases h with
  | insertTransaction t hb =>
    obtain ⟨v'', hi, he⟩ := ok_map (ok_of_failing hx)
    obtain ⟨-, rfl⟩ := Prod.mk.inj he
    rw [(Db.insertTransaction_ok hi).2]
    exact ⟨rfl, rfl⟩
  | insertSplit a s =>
    obtain ⟨g, rfl⟩ := insertSplitStmt_ok hw
    exact ⟨rfl, rfl⟩
  | updateTransaction t c p d n =>
    rw [updateTransactionStmt_ok hw]
    exact ⟨rfl, rfl⟩
  | deleteSplitsOf t =>
    rw [deleteSplitsOf_ok hw]
    exact ⟨rfl, rfl⟩
  | deleteBookSplits =>
    rw [deleteBookSplits_ok hw]
    exact ⟨rfl, rfl⟩
  | deleteBookTransactions =>
    rw [deleteBookTransactions_ok hw]
    exact ⟨rfl, rfl⟩
  | insertImportTransaction t =>
    obtain ⟨_, _, _, -, -, rfl⟩ := insertImportTransaction_ok hw
    exact ⟨rfl, rfl⟩
  | insertImportSplit t s =>
    obtain ⟨_, _, -, rfl⟩ := insertImportSplit_ok hw
    exact ⟨rfl, rfl⟩
  | insertSnapshot l t d =>
    rw [insertSnapshotStmt_ok hw]
    exact ⟨rfl, rfl⟩

theorem keepsBooks_insertAccount (a : Account) : KeepsBooks (insertAccountStmt a) := by
  intro env v v' b hx
  rw [insertAccountStmt_ok ((insertAccountStmt a).write_self hx)]
  exact ⟨rfl, rfl⟩

theorem keepsBooks_createAccount (p : Option GuidText) (a : Account) :
    KeepsBooks (createAccountStmt p a) := by
  intro env v v' b hx
  obtain ⟨g, rfl⟩ := createAccountStmt_ok ((createAccountStmt p a).write_self hx)
  exact ⟨rfl, rfl⟩

theorem keepsBooks_upsertStaged (item : GuidText) (txn : PlaidTxn) (d : Bool) :
    KeepsBooks (upsertStaged book item txn d) := by
  intro env v v' b hx
  obtain ⟨g, now, -, -, rfl⟩ := upsertStaged_ok ((upsertStaged book item txn d).write_self hx)
  exact ⟨rfl, rfl⟩

theorem keepsBooks_upsertItem (p : PlaidItem) (token : Token) :
    KeepsBooks (upsertItemStmt p token) := by
  intro env v v' b hx
  rcases upsertItemStmt_ok ((upsertItemStmt p token).write_self hx) with rfl | ⟨-, -, rfl⟩ <;>
    exact ⟨rfl, rfl⟩

theorem keepsBooks_purge : KeepsBooks purgeStmt := by
  intro env v v' b hx
  obtain ⟨c, rfl⟩ := purgeStmt_ok (purgeStmt.write_self hx)
  exact ⟨rfl, rfl⟩

theorem Fetching.keepsBooks {β : Type} {q : Stmt β} (h : Fetching book q) : KeepsBooks q := by
  cases h with
  | read h => exact h.keepsBooks
  | lock i => exact ByBook.keepsBooks (@ByBook.tryAdvisoryLock book i)
  | unlock i => exact ByBook.keepsBooks (@ByBook.advisoryUnlock book i)
  | upsertStaged i t d h => exact keepsBooks_upsertStaged i t d
  | dropReplaced is => exact ByBook.keepsBooks (.dropReplaced is)
  | dropUndismissed is => exact ByBook.keepsBooks (.dropUndismissed is)
  | writeCursor i c n => exact ByBook.keepsBooks (.writeCursor i c n)
  | writeLastSynced i n => exact ByBook.keepsBooks (.writeLastSynced i n)

theorem Syncing.keepsBooks {β : Type} {q : Stmt β} (h : Syncing book q) : KeepsBooks q := by
  cases h with
  | fetch h => exact h.keepsBooks
  | reseal i c n v => exact ByBook.keepsBooks (.reseal i c n v)

theorem Linking.keepsBooks {item : GuidText} {β : Type} {q : Stmt β} (h : Linking book item q) :
    KeepsBooks q := by
  cases h with
  | read h => exact h.keepsBooks
  | updateLink a l => exact ByBook.keepsBooks (.updateLink a l)
  | updateImportPending p => exact ByBook.keepsBooks (.updateImportPending item p)

theorem Removing.keepsBooks {β : Type} {q : Stmt β} (h : Removing book q) : KeepsBooks q := by
  cases h with
  | read h => exact h.keepsBooks
  | reseal i c n v => exact ByBook.keepsBooks (.reseal i c n v)
  | archiveItem i v => exact ByBook.keepsBooks (.archiveItem i v)
  | clearLinks i => exact ByBook.keepsBooks (.clearLinks i)
  | deleteItem i v => exact ByBook.keepsBooks (.deleteItem i v)

theorem Snapshotting.keepsBooks {β : Type} {q : Stmt β} (h : Snapshotting book q) :
    KeepsBooks q := by
  cases h with
  | countRecent t => exact ByBook.keepsBooks (.countRecent t)
  | rotateActive => exact ByBook.keepsBooks (@ByBook.rotateActive book)
  | «export» h => exact h.reads.keepsBooks
  | insertSnapshot l t d => exact Posting.keepsBooks (.insertSnapshot l t d)

end Statements

/-! ## Calls -/

section Calls

variable {book : Guid} {α : Type}

theorem issues_keeping {P : StmtClass Stmt} {p : Call α} (h : p.Issues P)
    (hP : ∀ {γ : Type} (q : Stmt γ), P q → KeepsBooks q) : p.Issues KeepsBooks :=
  h.mono fun q hq => hP q hq

theorem issues_named {p : Call α} (h : p.Issues (ByBook book)) : p.Issues KeepsBooks :=
  issues_keeping h fun _ hq => hq.keepsBooks

theorem keepsBooks_uuidNew : KeepsBooks uuidNew := reads_uuidNew.keepsBooks

theorem keepsBooks_askEnv {β : Type} (f : Env → β) : KeepsBooks (Stmt.askEnv f) :=
  (Stmt.reads_askEnv f).keepsBooks

theorem keepsBooks_query {β : Type} (f : Db → β) : KeepsBooks (Stmt.query f) :=
  (Stmt.reads_query f).keepsBooks

theorem keepsBooks_queryE {β : Type} (f : Db → Except SqlErr β) : KeepsBooks (Stmt.queryE f) :=
  (Stmt.reads_queryE f).keepsBooks

theorem Creating.keepsBooks {β : Type} {q : Stmt β} (h : Creating book q) : KeepsBooks q := by
  cases h with
  | balancing h =>
    cases h with
    | read h => exact h.keepsBooks
    | insertImbalance a _ _ => exact keepsBooks_insertAccount a
  | insertTransaction t h => exact Posting.keepsBooks (.insertTransaction t h)
  | insertSplit a s => exact Posting.keepsBooks (@Posting.insertSplit book a s)

theorem createTransaction_keepsBooks (req : CreateTransactionRequest) :
    (createTransaction book req).Issues KeepsBooks :=
  (createTransaction_creating req).mono fun _ h => h.keepsBooks

theorem updateTransaction_keepsBooks (tx : GuidText) (req : UpdateTransactionRequest) :
    (updateTransaction book tx req).Issues KeepsBooks := by
  refine issues_exec (keepsBooks_queryE _) fun r => ?_
  rcases r with _ | ⟨guid, version⟩
  · trivial
  · refine issues_bind (issues_ofExcept _) fun splits => issues_bind issues_orPanic fun sum => ?_
    split
    · trivial
    · split
      · trivial
      · refine issues_inTx (issues_bind (issues_keeping (@checkAccounts_issues book _)
          fun _ h => h.keepsBooks) fun _ => ?_)
        refine issues_exec (keepsBooks_askEnv _) fun now => ?_
        refine issues_exec (Posting.keepsBooks (.updateTransaction _ _ _ _ _)) fun _ => ?_
        refine issues_exec (Posting.keepsBooks (@Posting.deleteSplitsOf book _)) fun _ => ?_
        refine issues_bind (insertSplits_issues keepsBooks_uuidNew fun _ _ _ =>
          Posting.keepsBooks (@Posting.insertSplit book _ _)) fun rows => ?_
        exact issues_bind issues_commit fun _ => trivial

theorem deleteAccount_keepsBooks (account : GuidText) :
    (deleteAccount book account).Issues KeepsBooks := by
  refine issues_reply (keepsBooks_queryE _) fun splits => ?_
  split
  · trivial
  · refine issues_reply (keepsBooks_queryE _) fun children => ?_
    split
    · trivial
    · refine issues_exec (ByBook.keepsBooks (.deleteAccount _)) fun n => ?_
      split <;> trivial

theorem updateAccount_keepsBooks (account : GuidText) (req : UpdateAccountRequest) :
    (updateAccount book account req).Issues KeepsBooks := by
  refine issues_exec (keepsBooks_askEnv _) fun now => ?_
  refine issues_exec (Amending.keepsBooks (.updateAccount _ _ _)) fun n => ?_
  split
  · refine issues_reply (keepsBooks_queryE _) fun r => ?_
    split <;> trivial
  · exact issues_keeping (getAccount_reads _) fun _ hq => hq.keepsBooks

theorem exchange_keepsBooks (cfg : TokenConfig) : (exchange cfg book).Issues KeepsBooks := by
  refine issues_exec (keepsBooks_askEnv _) fun r => ?_
  rcases r with e | ⟨token, itemId, name⟩
  · trivial
  · refine issues_exec (keepsBooks_askEnv _) fun nonce => ?_
    refine issues_exec keepsBooks_uuidNew fun itemGuid => ?_
    refine issues_exec (keepsBooks_askEnv _) fun now => ?_
    refine issues_exec (keepsBooks_upsertItem _ _) fun guid => ?_
    refine issues_exec (keepsBooks_askEnv _) fun r => ?_
    cases r <;> trivial

theorem csvLoop_keepsBooks (account : GuidText) (rs : List CsvRow) :
    (csvLoop book account rs).Issues KeepsBooks := by
  induction rs with
  | nil => trivial
  | cons r rs ih =>
    refine issues_bind (issues_attempt (createTransaction_keepsBooks _)) fun o => ?_
    split
    · trivial
    · exact ih
    · exact issues_bind ih fun _ => trivial

theorem importStaged_keepsBooks (row : ImportRow) (st : Staged) :
    (importStaged book row st).Issues KeepsBooks := by
  have hd : (deleteStaged book row.transactionId).Issues KeepsBooks :=
    issues_named (deleteStaged_issues _)
  refine issues_reply (keepsBooks_query _) fun r => ?_
  rcases r with e | _ | bank
  · trivial
  · trivial
  · refine issues_exec (keepsBooks_query _) fun posted => ?_
    split
    · trivial
    · refine issues_bind (issues_named (replacesImported_issues _ _)) fun b => ?_
      split
      · exact issues_bind hd fun _ => trivial
      · refine issues_bind (issues_attempt (createTransaction_keepsBooks _)) fun o => ?_
        split
        · trivial
        · split
          · exact issues_bind hd fun _ => trivial
          · trivial
        · exact issues_bind hd fun _ => trivial

theorem importLoop_keepsBooks (result : ImportResult) (rows : List ImportRow) :
    (importLoop book result rows).Issues KeepsBooks := by
  induction rows generalizing result with
  | nil => trivial
  | cons row rows ih =>
    have hrow : (importRow book row).Issues KeepsBooks := by
      unfold importRow
      split
      · trivial
      · refine issues_exec ((Stmt.reads_query _).tagged _).keepsBooks fun r => ?_
        cases r with
        | none =>
          refine issues_exec (keepsBooks_query _) fun posted => ?_
          split <;> trivial
        | some st => exact importStaged_keepsBooks _ _
    refine issues_bind (issues_attempt hrow) fun o => ?_
    split
    · trivial
    · trivial
    · exact ih _

/-- The requests that replace a book, or clear it. -/
def Request.replaces : Request → Bool
  | .importJson _ | .importGnuCash _ | .restoreSnapshot _ | .factoryReset => true
  | _ => false

/-- **A request that neither resets nor imports leaves users and books alone.** -/
theorem handle_keepsBooks (cfg : PlaidConfig) (req : Request) (h : req.replaces = false) :
    (handle cfg book req).Issues KeepsBooks := by
  by_cases hreads : req.readonly = true
  · exact issues_keeping (handle_reads cfg req hreads) fun _ hq => hq.keepsBooks
  cases req with
  | importJson _ | importGnuCash _ | restoreSnapshot _ | factoryReset =>
    exact absurd h (by simp [Request.replaces])
  | createAccount r =>
    refine issues_answer (issues_exec keepsBooks_uuidNew fun guid => ?_)
    refine issues_exec (keepsBooks_askEnv _) fun now => ?_
    exact issues_exec (keepsBooks_createAccount _ _) fun _ => trivial
  | updateAccount i r => exact issues_answer (updateAccount_keepsBooks i r)
  | deleteAccount i => exact issues_answer (deleteAccount_keepsBooks i)
  | reconcileAccount as =>
    simp only [handle]
    split
    · trivial
    · exact issues_answer (issues_keeping (reconcileAccountSplits_issues as)
        fun _ hq => hq.amending.keepsBooks)
  | createTransaction r => exact issues_answer (createTransaction_keepsBooks _)
  | updateTransaction i r => exact issues_answer (updateTransaction_keepsBooks i r)
  | deleteTransaction i => exact issues_answer (issues_named (deleteTransaction_issues i))
  | batchReconcile ss =>
    exact issues_answer (issues_keeping (batchReconcileSplits_issues ss)
      fun _ hq => hq.amending.keepsBooks)
  | toggleAcknowledge s st =>
    refine issues_answer ?_
    unfold toggleSplitAcknowledge
    split
    · trivial
    · refine issues_exec (Amending.keepsBooks (.toggleSplit _ _)) fun n => ?_
      split <;> trivial
  | importCsv account file =>
    simp only [handle]
    split
    · trivial
    · cases file with
      | invalid => trivial
      | noRecords => trivial
      | rows rs => exact issues_answer (csvLoop_keepsBooks account rs)
  | putConfig f t a =>
    simp only [handle]
    split
    · trivial
    · exact issues_answer (issues_named (upsertConfig_issues f t a))
  | createSnapshot label =>
    exact issues_answer (issues_keeping (takeSnapshotForBook_issues _ _) fun _ hq => hq.keepsBooks)
  | deleteSnapshot i => exact issues_answer (issues_named (deleteSnapshot_issues i))
  | plaidExchange => exact issues_answer (exchange_keepsBooks _)
  | plaidLink i ms p =>
    simp only [handle]
    split
    · trivial
    · split
      · trivial
      · exact issues_answer (issues_keeping (linkAccounts_issues i ms p) fun _ hq => hq.keepsBooks)
  | plaidSync i =>
    simp only [handle]
    split
    · trivial
    · exact issues_answer (issues_keeping (sync_issues cfg i) fun _ hq => hq.keepsBooks)
  | plaidImport rows =>
    simp only [handle]
    split
    · trivial
    · split
      · trivial
      · exact issues_answer (importLoop_keepsBooks _ rows)
  | plaidDismiss is =>
    simp only [handle]
    split
    · trivial
    · split
      · trivial
      · exact issues_answer (issues_named (dismissStaged_issues is))
  | plaidDisconnect i =>
    simp only [handle]
    split
    · trivial
    · exact issues_answer (issues_keeping (disconnect_issues cfg i) fun _ hq => hq.keepsBooks)
  | _ => exact absurd rfl hreads

/-- A call that leaves both tables alone. -/
theorem sameBooks_of_issues {p : Call α} {envs : Nat → Env} {db : Db}
    (hp : p.Issues KeepsBooks) (ha : p.runAllowed machine envs (.idle db) = true) :
    SameBooks db (p.run machine envs (.idle db)).2.db :=
  (run_of_swp (swp_of_issues hp (fun _ _ _ _ _ hq hv _ hx => hv.trans (hq hx))
    (Solo.holds_idle (.refl db))) ha).1

end Calls

/-! ## Imports -/

/-- Every user has a book, and every book has a root. -/
structure Db.Housed (db : Db) : Prop where
  owned : ∀ u ∈ db.users, ∃ b ∈ db.books, b.userId = u.id
  rooted : ∀ b ∈ db.books, b.rootAccountGuid ≠ none

theorem Db.Housed.same {x y : Db} (h : x.Housed) (hs : SameBooks x y) : y.Housed := by
  refine ⟨fun u hu => ?_, fun b hb => h.rooted b (hs.books ▸ hb)⟩
  rw [hs.books]
  exact h.owned u (hs.users ▸ hu)

/-- A book that gets a root. -/
theorem Db.Housed.root {x y : Db} {book root : Guid} (h : x.Housed) (hu : y.users = x.users)
    (hb : y.books = updateWhere (·.guid == book) (fun b => { b with rootAccountGuid := some root })
      (updateWhere (·.guid == book) (fun b => { b with rootAccountGuid := none }) x.books)) :
    y.Housed := by
  have hsame : ∀ root : Option Guid, ∀ b : Book, { b with rootAccountGuid := root }.userId =
    b.userId := fun _ _ => rfl
  constructor
  · intro u hmem
    obtain ⟨b, hbm, hbu⟩ := h.owned u (hu ▸ hmem)
    have hids : y.books.map (·.userId) = x.books.map (·.userId) := by
      rw [hb, map_updateWhere (hsame _), map_updateWhere (hsame _)]
    have hid : u.id ∈ y.books.map (·.userId) := hids ▸ List.mem_map.mpr ⟨b, hbm, hbu⟩
    obtain ⟨b', hb', he⟩ := List.mem_map.mp hid
    exact ⟨b', hb', he⟩
  · intro b hmem
    rw [hb] at hmem
    rcases mem_updateWhere_cases hmem with ⟨hmem, hne⟩ | ⟨b', -, -, rfl⟩
    · rcases mem_updateWhere_cases hmem with ⟨hmem, -⟩ | ⟨b', -, hc, rfl⟩
      · exact h.rooted b hmem
      · exact absurd hne (by simpa using hc)
    · simp

variable {book : Guid} {v : Db}

theorem performImport_housed {file : ExportData} (h : v.Housed) :
    (performImport book file).swp (machine.assuming fun _ _ _ => true) Duty.none
      (fun _ t => t.db.Housed) (.idle v) := by
  refine performImport_swp (F := fun _ => True) (fun _ _ => trivial) (fun _ => h)
    fun root renamed txns hr => ?_
  obtain ⟨top, htop⟩ := hr.root_exists
  refine swp_mono (fun r t ht => ?_) (replaceBook_swp htop)
  rcases ht with ⟨_, -, rfl⟩ | ⟨as, ts, ss, -, rfl, -⟩
  · exact h
  · exact h.root rfl rfl

end Antimoney
