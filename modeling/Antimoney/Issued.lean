import Antimoney.Server

/-!
# The statements the server issues

Every statement falls in one of three classes, given the book of the call:

* `ByBook`: its text names the book, or it concerns no row at all.
* `ByRef`: it relies on an identifier that the call read or made before, or is about users.
* `Posting`: it writes transactions, splits or snapshots.

One lemma for each method says which classes its statements are in (`*_issues`), for every reply
the database may give. An invariant that the statements of a class keep then holds along every
call that issues only these (`Prog.swp_of_issues`).
-/

namespace Antimoney

open Antimoney.Lib Antimoney.Gnc Prog

/-! ## The classes -/

/-- Statements that name the book. -/
inductive ByBook (book : Guid) : {β : Type} → Stmt β → Prop
  | askEnv {γ : Type} (f : Env → γ) : ByBook book (.askEnv f)
  | uuidNew : ByBook book uuidNew
  | noop : ByBook book (.query fun _ => ())
  | selectImbalance : ByBook book (selectImbalance book)
  | selectBookRoot : ByBook book (selectBookRoot book)
  | selectPlaceholder (a : GuidText) : ByBook book (selectPlaceholder a book)
  | selectVersion (t : GuidText) : ByBook book (selectVersion t book)
  | selectTransaction (t : GuidText) : ByBook book (selectTransaction t book)
  | selectTransactions (l o : Int) : ByBook book (selectTransactions book l o)
  | selectAccountType (a : GuidText) : ByBook book (selectAccountType a book)
  | countRegister (a : Guid) (p : Time → Bool) : ByBook book (countRegister a book p)
  | selectPrior (a : Guid) (n : Nat) : ByBook book (selectPrior a book n)
  | selectPage (a : Guid) (l o : Int) : ByBook book (selectPage a book l o)
  | selectReconciledBalance (a : GuidText) : ByBook book (selectReconciledBalance a book)
  | selectAccount (a : GuidText) : ByBook book (selectAccount a book)
  | accountExists (a : GuidText) : ByBook book (accountExistsStmt a book)
  | deleteAccount (a : GuidText) : ByBook book (deleteAccountStmt a book)
  | selectTree (s e : Option (Option Time)) : ByBook book (selectTree book s e)
  | deleteTransaction (t : GuidText) : ByBook book (deleteTransactionStmt t book)
  | selectConfig : ByBook book (selectConfig book)
  | upsertConfig (f t : Int) (a : Bool) : ByBook book (upsertConfigStmt book f t a)
  | selectSnapshots : ByBook book (selectSnapshots book)
  | selectSnapshot (i : GuidText) : ByBook book (selectSnapshot i book)
  | deleteSnapshot (i : GuidText) : ByBook book (deleteSnapshotStmt i book)
  | countRecent (t : SnapshotTrigger) : ByBook book (countRecentSnapshots book t)
  | rotateActive : ByBook book (rotateActive book)
  | selectExportAccounts : ByBook book (selectExportAccounts book)
  | selectExportTransactions : ByBook book (selectExportTransactions book)
  | deleteBookAccounts : ByBook book (deleteBookAccounts book)
  | selectBook : ByBook book (selectBook book)
  | syncTransactions (c : Cursor) : ByBook book (syncTransactions c)
  | removeBankItem (i : String) (t : Token) : ByBook book (removeBankItem i t)
  | transactionExists (i : String) : ByBook book (transactionExists book i)
  | importedValueMatches (i a : String) (n d : Int64) : ByBook book (importedValueMatches book i a n d)
  | dropReplaced (is : List String) : ByBook book (dropReplaced book is)
  | selectDismissed (i : String) : ByBook book (selectDismissed book i)
  | dropUndismissed (is : List String) : ByBook book (dropUndismissed book is)
  | selectRemovedImported (is : List String) : ByBook book (selectRemovedImported book is)
  | writeCursor (i : GuidText) (c : Cursor) (n : Time) : ByBook book (writeCursor book i c n)
  | writeLastSynced (i : GuidText) (n : Time) : ByBook book (writeLastSynced book i n)
  | selectCategory (o : TextOps) (m : MatchMode) (p : String) : ByBook book (selectCategory o book m p)
  | selectCategories (o : TextOps) (m : MatchMode) (ps : List (String × Nat)) :
      ByBook book (selectCategories o book m ps)
  | reseal (i : GuidText) (c : Ciphertext) (n : Nonce) (v : Nat) : ByBook book (resealStmt book i c n v)
  | selectInstitution (i : GuidText) : ByBook book (selectInstitution i book)
  | countOtherLinks (m : AccountMapping) : ByBook book (countOtherLinks book m)
  | selectLink (a : GuidText) : ByBook book (selectLink book a)
  | updateLink (a : GuidText) (l : PlaidLink) : ByBook book (updateLinkStmt book a l)
  | updateImportPending (i : GuidText) (p : Bool) : ByBook book (updateImportPending book i p)
  | selectItem (i : GuidText) : ByBook book (selectItem i book)
  | tryAdvisoryLock (i : GuidText) : ByBook book (tryAdvisoryLock i)
  | advisoryUnlock (i : GuidText) : ByBook book (advisoryUnlock i)
  | selectLinkedAccounts (i : GuidText) : ByBook book (selectLinkedAccounts book i)
  | selectSuggestions (i : GuidText) (p : Bool) : ByBook book (selectSuggestions book i p)
  | selectNames (gs : List Guid) : ByBook book (selectNames book gs)
  | dismissStaged (is : List String) : ByBook book (dismissStagedStmt book is)
  | loadStaged (i : String) : ByBook book (loadStaged book i)
  | selectBankAccount (a : String) : ByBook book (selectBankAccount book a)
  | deleteStaged (i : String) : ByBook book (deleteStagedStmt book i)
  | archiveItem (i : Guid) (v : Nat) : ByBook book (archiveItem i book v)
  | clearLinks (i : GuidText) : ByBook book (clearLinks book i)
  | deleteItem (i : Guid) (v : Option Nat) : ByBook book (deleteItemStmt i book v)
  | selectItems : ByBook book (selectItems book)

/-- Statements that rely on an identifier met before. What the bank reports is in cents. -/
inductive ByRef (book : Guid) : {β : Type} → Stmt β → Prop
  | selectSplitViews (t : Guid) : ByRef book (selectSplitViews t)
  | selectRegister (a : Guid) : ByRef book (selectRegister a)
  | selectTransfers (ts : List Guid) (x : Guid) : ByRef book (selectTransfers ts x)
  | countAccountSplits (a : GuidText) : ByRef book (countAccountSplits a)
  | countChildAccounts (a : GuidText) : ByRef book (countChildAccounts a)
  | selectExportSplits (t : Guid) : ByRef book (selectExportSplits t)
  | insertAccount (a : Account) (h : a.bookGuid = book) : ByRef book (insertAccountStmt a)
  | createAccount (p : Option GuidText) (a : Account) (h : a.bookGuid = book) :
      ByRef book (createAccountStmt p a)
  | insertSeedAccount (d : AcctDef) (p : Option Guid) (b : Bool) :
      ByRef book (insertSeedAccountStmt book d p b)
  | setBookRoot (r : Option Guid) : ByRef book (setBookRoot book r)
  | upsertStaged (i : GuidText) (t : PlaidTxn) (d : Bool) (h : t.amountDenom = 100) :
      ByRef book (upsertStaged book i t d)
  | upsertItem (p : PlaidItem) (t : Token) (h : p.bookGuid = book) : ByRef book (upsertItemStmt p t)
  | emailExists (e : String) : ByRef book (emailExists e)
  | insertUser (e n : String) : ByRef book (insertUserStmt e n)
  | insertBook (u : Guid) : ByRef book (insertBookStmt u)
  | purge : ByRef book purgeStmt

/-- Statements that change the state of splits, or the place of accounts, as the request says. -/
inductive Amending (book : Guid) : {β : Type} → Stmt β → Prop
  | toggleSplit (s : GuidText) (st : String) : Amending book (toggleSplitStmt book s st)
  | reconcileSplit (s : GuidText) : Amending book (reconcileSplitStmt book s)
  | reconcileAccounts (as : List GuidText) : Amending book (reconcileAccountsStmt book as)
  | updateAccount (a : GuidText) (r : UpdateAccountRequest) (n : Time) :
      Amending book (updateAccountStmt a book r n)
  | insertImportAccount (a : ImportAccount) : Amending book (insertImportAccount book a)
  | updateHierarchy (a : Guid) (p : GuidText) : Amending book (updateHierarchy book a p)

/-- Statements that write transactions, splits or snapshots. -/
inductive Posting (book : Guid) : {β : Type} → Stmt β → Prop
  | insertTransaction (t : Transaction) (h : t.bookGuid = book) : Posting book (insertTransactionStmt t)
  | insertSplit (a : GuidText) (s : Split) : Posting book (insertSplitStmt a s)
  | updateTransaction (t : Guid) (c : String) (p : Time) (d : String) (n : Time) :
      Posting book (updateTransactionStmt t book c p d n)
  | deleteSplitsOf (t : Guid) : Posting book (deleteSplitsOf t)
  | deleteBookSplits : Posting book (deleteBookSplits book)
  | deleteBookTransactions : Posting book (deleteBookTransactions book)
  | insertImportTransaction (t : ImportTransaction) : Posting book (insertImportTransaction book t)
  | insertImportSplit (t : Guid) (s : ImportSplit) : Posting book (insertImportSplit t s)
  | insertSnapshot (l : String) (t : SnapshotTrigger) (d : ExportData) :
      Posting book (insertSnapshotStmt book l t d)

/-- Statements that leave the ledger's amounts, the states and the accounts' places alone. -/
def Steady (book : Guid) {β : Type} (q : Stmt β) : Prop := ByBook book q ∨ ByRef book q

/-- Statements that leave the ledger's amounts alone. -/
def Quiet (book : Guid) {β : Type} (q : Stmt β) : Prop := Steady book q ∨ Amending book q

/-- Every statement of a call under the book. -/
def Issued (book : Guid) {β : Type} (q : Stmt β) : Prop := Quiet book q ∨ Posting book q

variable {book : Guid}

theorem ByBook.steady {β : Type} {q : Stmt β} (h : ByBook book q) : Steady book q := .inl h

theorem ByRef.steady {β : Type} {q : Stmt β} (h : ByRef book q) : Steady book q := .inr h

theorem Steady.quiet {β : Type} {q : Stmt β} (h : Steady book q) : Quiet book q := .inl h

theorem ByBook.quiet {β : Type} {q : Stmt β} (h : ByBook book q) : Quiet book q := h.steady.quiet

theorem ByRef.quiet {β : Type} {q : Stmt β} (h : ByRef book q) : Quiet book q := h.steady.quiet

/-- The steady statements that write. -/
inductive Write (book : Guid) : {β : Type} → Stmt β → Prop
  | deleteAccount (a : GuidText) : Write book (deleteAccountStmt a book)
  | deleteTransaction (t : GuidText) : Write book (deleteTransactionStmt t book)
  | upsertConfig (f t : Int) (a : Bool) : Write book (upsertConfigStmt book f t a)
  | deleteSnapshot (i : GuidText) : Write book (deleteSnapshotStmt i book)
  | rotateActive : Write book (rotateActive book)
  | deleteBookAccounts : Write book (deleteBookAccounts book)
  | dropReplaced (is : List String) : Write book (dropReplaced book is)
  | dropUndismissed (is : List String) : Write book (dropUndismissed book is)
  | writeCursor (i : GuidText) (c : Cursor) (n : Time) : Write book (writeCursor book i c n)
  | writeLastSynced (i : GuidText) (n : Time) : Write book (writeLastSynced book i n)
  | reseal (i : GuidText) (c : Ciphertext) (n : Nonce) (v : Nat) : Write book (resealStmt book i c n v)
  | updateLink (a : GuidText) (l : PlaidLink) : Write book (updateLinkStmt book a l)
  | updateImportPending (i : GuidText) (p : Bool) : Write book (updateImportPending book i p)
  | tryAdvisoryLock (i : GuidText) : Write book (tryAdvisoryLock i)
  | advisoryUnlock (i : GuidText) : Write book (advisoryUnlock i)
  | dismissStaged (is : List String) : Write book (dismissStagedStmt book is)
  | deleteStaged (i : String) : Write book (deleteStagedStmt book i)
  | archiveItem (i : Guid) (v : Nat) : Write book (archiveItem i book v)
  | clearLinks (i : GuidText) : Write book (clearLinks book i)
  | deleteItem (i : Guid) (v : Option Nat) : Write book (deleteItemStmt i book v)
  | insertAccount (a : Account) (h : a.bookGuid = book) : Write book (insertAccountStmt a)
  | createAccount (p : Option GuidText) (a : Account) (h : a.bookGuid = book) :
      Write book (createAccountStmt p a)
  | insertSeedAccount (d : AcctDef) (p : Option Guid) (b : Bool) :
      Write book (insertSeedAccountStmt book d p b)
  | setBookRoot (r : Option Guid) : Write book (setBookRoot book r)
  | upsertStaged (i : GuidText) (t : PlaidTxn) (d : Bool) (h : t.amountDenom = 100) :
      Write book (upsertStaged book i t d)
  | upsertItem (p : PlaidItem) (t : Token) (h : p.bookGuid = book) : Write book (upsertItemStmt p t)
  | insertUser (e n : String) : Write book (insertUserStmt e n)
  | insertBook (u : Guid) : Write book (insertBookStmt u)
  | purge : Write book purgeStmt

/-- A steady statement reads, or is one of the writes. -/
theorem Steady.reads_or_write {β : Type} {q : Stmt β} (h : Steady book q) :
    q.Reads ∨ Write book q := by
  rcases h with h | h
  · cases h with
    | askEnv f => exact .inl (Stmt.reads_askEnv f)
    | uuidNew => exact .inl reads_uuidNew
    | syncTransactions c => exact .inl ((Stmt.reads_askEnv _).tagged _)
    | removeBankItem i t => exact .inl ((Stmt.reads_askEnv _).tagged _)
    | noop | selectImbalance | selectBookRoot | countRegister | selectConfig | selectBook
    | transactionExists | selectDismissed | selectRemovedImported | selectLinkedAccounts
    | selectNames | selectBankAccount => exact .inl (Stmt.reads_query _)
    | selectCategory | selectCategories =>
      exact .inl (Stmt.reads_ordered fun _ => Stmt.reads_query _)
    | loadStaged i => exact .inl ((Stmt.reads_query _).tagged _)
    | countRecent t => exact .inl (reads_countRecent book t)
    | selectPlaceholder | selectVersion | selectTransaction | selectAccountType
    | selectReconciledBalance | selectAccount | accountExists | selectSnapshot
    | importedValueMatches | selectInstitution | countOtherLinks | selectLink | selectItem
    | selectSuggestions => exact .inl (Stmt.reads_queryE _)
    | selectExportAccounts => exact .inl ((Stmt.reads_rowsE _).tagged _)
    | selectExportTransactions => exact .inl ((Stmt.reads_rowsE _).tagged _)
    | selectPage => exact .inl (Stmt.reads_ordered fun _ => Stmt.reads_queryE _)
    | selectPrior => exact .inl (Stmt.reads_ordered fun _ => Stmt.reads_rowsE _)
    | selectTransactions | selectTree | selectSnapshots | selectItems =>
      exact .inl (Stmt.reads_rowsE _)
    | deleteAccount a => exact .inr (.deleteAccount a)
    | deleteTransaction t => exact .inr (.deleteTransaction t)
    | upsertConfig f t a => exact .inr (.upsertConfig f t a)
    | deleteSnapshot i => exact .inr (.deleteSnapshot i)
    | rotateActive => exact .inr .rotateActive
    | deleteBookAccounts => exact .inr .deleteBookAccounts
    | dropReplaced is => exact .inr (.dropReplaced is)
    | dropUndismissed is => exact .inr (.dropUndismissed is)
    | writeCursor i c n => exact .inr (.writeCursor i c n)
    | writeLastSynced i n => exact .inr (.writeLastSynced i n)
    | reseal i c n v => exact .inr (.reseal i c n v)
    | updateLink a l => exact .inr (.updateLink a l)
    | updateImportPending i p => exact .inr (.updateImportPending i p)
    | tryAdvisoryLock i => exact .inr (.tryAdvisoryLock i)
    | advisoryUnlock i => exact .inr (.advisoryUnlock i)
    | dismissStaged is => exact .inr (.dismissStaged is)
    | deleteStaged i => exact .inr (.deleteStaged i)
    | archiveItem i v => exact .inr (.archiveItem i v)
    | clearLinks i => exact .inr (.clearLinks i)
    | deleteItem i v => exact .inr (.deleteItem i v)
  · cases h with
    | selectRegister => exact .inl (Stmt.reads_ordered fun _ => Stmt.reads_query _)
    | selectTransfers | emailExists => exact .inl (Stmt.reads_query _)
    | countAccountSplits | countChildAccounts => exact .inl (Stmt.reads_queryE _)
    | selectSplitViews => exact .inl (Stmt.reads_rowsE _)
    | selectExportSplits t => exact .inl ((Stmt.reads_rowsE _).tagged _)
    | insertAccount a h => exact .inr (.insertAccount a h)
    | createAccount p a h => exact .inr (.createAccount p a h)
    | insertSeedAccount d p b => exact .inr (.insertSeedAccount d p b)
    | setBookRoot r => exact .inr (.setBookRoot r)
    | upsertStaged i t d h => exact .inr (.upsertStaged i t d h)
    | upsertItem p t h => exact .inr (.upsertItem p t h)
    | insertUser e n => exact .inr (.insertUser e n)
    | insertBook u => exact .inr (.insertBook u)
    | purge => exact .inr .purge

/-! ### Smaller classes -/

/-- Reads that name the book. -/
structure Reading (book : Guid) {β : Type} (q : Stmt β) : Prop where
  named : ByBook book q
  reads : q.Reads

/-- The statements of the auto-balancing. -/
inductive Balancing (book : Guid) : {β : Type} → Stmt β → Prop
  | read {β : Type} {q : Stmt β} (h : Reading book q) : Balancing book q
  | insertImbalance (a : Account) (h : a.bookGuid = book) (hn : a.name = "Imbalance") :
      Balancing book (insertAccountStmt a)

/-- The statements of `CreateTransaction`. -/
inductive Creating (book : Guid) : {β : Type} → Stmt β → Prop
  | balancing {β : Type} {q : Stmt β} (h : Balancing book q) : Creating book q
  | insertTransaction (t : Transaction) (h : t.bookGuid = book) :
      Creating book (insertTransactionStmt t)
  | insertSplit (a : GuidText) (s : Split) : Creating book (insertSplitStmt a s)

/-- The statements of `Sync` once it has the token. -/
inductive Fetching (book : Guid) : {β : Type} → Stmt β → Prop
  | read {β : Type} {q : Stmt β} (h : Reading book q) : Fetching book q
  | lock (i : GuidText) : Fetching book (tryAdvisoryLock i)
  | unlock (i : GuidText) : Fetching book (advisoryUnlock i)
  | upsertStaged (i : GuidText) (t : PlaidTxn) (d : Bool) (h : t.amountDenom = 100) :
      Fetching book (upsertStaged book i t d)
  | dropReplaced (is : List String) : Fetching book (dropReplaced book is)
  | dropUndismissed (is : List String) : Fetching book (dropUndismissed book is)
  | writeCursor (i : GuidText) (c : Cursor) (n : Time) : Fetching book (writeCursor book i c n)
  | writeLastSynced (i : GuidText) (n : Time) : Fetching book (writeLastSynced book i n)

/-- The statements of `stageDelta`. -/
inductive Staging (book : Guid) : {β : Type} → Stmt β → Prop
  | read {β : Type} {q : Stmt β} (h : Reading book q) : Staging book q
  | upsertStaged (i : GuidText) (t : PlaidTxn) (d : Bool) (h : t.amountDenom = 100) :
      Staging book (upsertStaged book i t d)
  | dropReplaced (is : List String) : Staging book (dropReplaced book is)
  | dropUndismissed (is : List String) : Staging book (dropUndismissed book is)

theorem Staging.fetching {book : Guid} {β : Type} {q : Stmt β} (h : Staging book q) :
    Fetching book q := by
  cases h with
  | read h => exact .read h
  | upsertStaged i t d h => exact .upsertStaged i t d h
  | dropReplaced is => exact .dropReplaced is
  | dropUndismissed is => exact .dropUndismissed is

/-- The statements of `Sync`. -/
inductive Syncing (book : Guid) : {β : Type} → Stmt β → Prop
  | fetch {β : Type} {q : Stmt β} (h : Fetching book q) : Syncing book q
  | reseal (i : GuidText) (c : Ciphertext) (n : Nonce) (v : Nat) :
      Syncing book (resealStmt book i c n v)

/-- The statements of `LinkAccounts` on an item. -/
inductive Linking (book : Guid) (item : GuidText) : {β : Type} → Stmt β → Prop
  | read {β : Type} {q : Stmt β} (h : Reading book q) : Linking book item q
  | updateLink (a : GuidText) (l : PlaidLink) (h : l.itemGuid = item) :
      Linking book item (updateLinkStmt book a l)
  | updateImportPending (p : Bool) : Linking book item (updateImportPending book item p)

/-- The statements of `Disconnect`. -/
inductive Removing (book : Guid) : {β : Type} → Stmt β → Prop
  | read {β : Type} {q : Stmt β} (h : Reading book q) : Removing book q
  | reseal (i : GuidText) (c : Ciphertext) (n : Nonce) (v : Nat) :
      Removing book (resealStmt book i c n v)
  | archiveItem (i : Guid) (v : Nat) : Removing book (archiveItem i book v)
  | clearLinks (i : GuidText) : Removing book (clearLinks book i)
  | deleteItem (i : Guid) (v : Option Nat) : Removing book (deleteItemStmt i book v)

/-- The reads of an export. -/
inductive Exporting (book : Guid) : {β : Type} → Stmt β → Prop
  | accounts : Exporting book (selectExportAccounts book)
  | transactions : Exporting book (selectExportTransactions book)
  | splits (t : Guid) : Exporting book (selectExportSplits t)

/-- The statements that reconcile splits. -/
inductive Reconciling (book : Guid) : {β : Type} → Stmt β → Prop
  | reconcileSplit (s : GuidText) : Reconciling book (reconcileSplitStmt book s)
  | reconcileAccounts (as : List GuidText) : Reconciling book (reconcileAccountsStmt book as)

/-- The statements of `takeSnapshotForBook`. -/
inductive Snapshotting (book : Guid) : {β : Type} → Stmt β → Prop
  | countRecent (t : SnapshotTrigger) : Snapshotting book (countRecentSnapshots book t)
  | rotateActive : Snapshotting book (rotateActive book)
  | export {β : Type} {q : Stmt β} (h : Exporting book q) : Snapshotting book q
  | insertSnapshot (l : String) (t : SnapshotTrigger) (d : ExportData) :
      Snapshotting book (insertSnapshotStmt book l t d)

/-- The statements of `performImport`. -/
inductive Importing (book : Guid) : {β : Type} → Stmt β → Prop
  | read {β : Type} {q : Stmt β} (h : Reading book q) : Importing book q
  | setBookRoot (r : Option Guid) : Importing book (setBookRoot book r)
  | deleteBookSplits : Importing book (deleteBookSplits book)
  | deleteBookTransactions : Importing book (deleteBookTransactions book)
  | deleteBookAccounts : Importing book (deleteBookAccounts book)
  | insertImportAccount (a : ImportAccount) : Importing book (insertImportAccount book a)
  | updateHierarchy (a : Guid) (p : GuidText) : Importing book (updateHierarchy book a p)
  | insertImportTransaction (t : ImportTransaction) : Importing book (insertImportTransaction book t)
  | insertImportSplit (t : Guid) (s : ImportSplit) : Importing book (insertImportSplit t s)

theorem Reconciling.amending {β : Type} {q : Stmt β} (h : Reconciling book q) : Amending book q := by
  cases h with
  | reconcileSplit s => exact .reconcileSplit s
  | reconcileAccounts as => exact .reconcileAccounts as

theorem Balancing.steady {β : Type} {q : Stmt β} (h : Balancing book q) : Steady book q := by
  cases h with
  | read h => exact .inl h.named
  | insertImbalance a h _ => exact .inr (.insertAccount a h)

theorem Creating.issued {β : Type} {q : Stmt β} (h : Creating book q) : Issued book q := by
  cases h with
  | balancing h => exact .inl h.steady.quiet
  | insertTransaction t h => exact .inr (.insertTransaction t h)
  | insertSplit a s => exact .inr (.insertSplit a s)

theorem Fetching.steady {β : Type} {q : Stmt β} (h : Fetching book q) : Steady book q := by
  cases h with
  | read h => exact .inl h.named
  | lock i => exact .inl (.tryAdvisoryLock i)
  | unlock i => exact .inl (.advisoryUnlock i)
  | upsertStaged i t d h => exact .inr (.upsertStaged i t d h)
  | dropReplaced is => exact .inl (.dropReplaced is)
  | dropUndismissed is => exact .inl (.dropUndismissed is)
  | writeCursor i c n => exact .inl (.writeCursor i c n)
  | writeLastSynced i n => exact .inl (.writeLastSynced i n)

theorem Syncing.steady {β : Type} {q : Stmt β} (h : Syncing book q) : Steady book q := by
  cases h with
  | fetch h => exact h.steady
  | reseal i c n v => exact .inl (.reseal i c n v)

theorem Linking.steady {item : GuidText} {β : Type} {q : Stmt β} (h : Linking book item q) :
    Steady book q := by
  cases h with
  | read h => exact .inl h.named
  | updateLink a l => exact .inl (.updateLink a l)
  | updateImportPending p => exact .inl (.updateImportPending item p)

theorem Removing.steady {β : Type} {q : Stmt β} (h : Removing book q) : Steady book q := by
  cases h with
  | read h => exact .inl h.named
  | reseal i c n v => exact .inl (.reseal i c n v)
  | archiveItem i v => exact .inl (.archiveItem i v)
  | clearLinks i => exact .inl (.clearLinks i)
  | deleteItem i v => exact .inl (.deleteItem i v)

theorem Exporting.steady {β : Type} {q : Stmt β} (h : Exporting book q) : Steady book q := by
  cases h with
  | accounts => exact .inl .selectExportAccounts
  | transactions => exact .inl .selectExportTransactions
  | splits t => exact .inr (.selectExportSplits t)

theorem Snapshotting.issued {β : Type} {q : Stmt β} (h : Snapshotting book q) : Issued book q := by
  cases h with
  | countRecent t => exact .inl (ByBook.quiet (.countRecent t))
  | rotateActive => exact .inl (ByBook.quiet .rotateActive)
  | «export» h => exact .inl h.steady.quiet
  | insertSnapshot l t d => exact .inr (.insertSnapshot l t d)

theorem Exporting.reads {β : Type} {q : Stmt β} (h : Exporting book q) : q.Reads := by
  cases h with
  | accounts => exact (Stmt.reads_rowsE _).tagged _
  | transactions => exact (Stmt.reads_rowsE _).tagged _
  | splits t => exact (Stmt.reads_rowsE _).tagged _

theorem Importing.issued {β : Type} {q : Stmt β} (h : Importing book q) : Issued book q := by
  cases h with
  | read h => exact .inl h.named.quiet
  | setBookRoot r => exact .inl (ByRef.quiet (.setBookRoot r))
  | deleteBookSplits => exact .inr .deleteBookSplits
  | deleteBookTransactions => exact .inr .deleteBookTransactions
  | deleteBookAccounts => exact .inl (ByBook.quiet .deleteBookAccounts)
  | insertImportAccount a => exact .inl (.inr (.insertImportAccount a))
  | updateHierarchy a p => exact .inl (.inr (.updateHierarchy a p))
  | insertImportTransaction t => exact .inr (.insertImportTransaction t)
  | insertImportSplit t s => exact .inr (.insertImportSplit t s)

/-! ## Rules for the forms of the services -/

section Rules

variable {P : StmtClass Stmt} {α β : Type}

theorem issues_exec {text : String} {q : Stmt β} {f : β → Call α} (h : P q)
    (hf : ∀ b, (f b).Issues P) : ((exec text q).bind f).Issues P :=
  issues_bind (issues_sql h) hf

theorem issues_reply {q : Stmt β} {f : Except SqlErr β → Call α} (h : P q)
    (hf : ∀ r, (f r).Issues P) : ((reply q).bind f).Issues P :=
  issues_bind (issues_ask h) hf

theorem body_exec (text : String) (q : Stmt α) : (exec text q).Body := by
  refine ⟨⟨q, rfl⟩, fun r => ?_⟩
  cases r <;> trivial

theorem issues_orPanic {o : Option α} : (orPanic o).Issues P := by
  cases o <;> trivial

theorem Issues.steady {p : Call α} (h : p.Issues (ByBook book)) : p.Issues (Steady book) :=
  h.mono fun _ hq => .inl hq

theorem Issues.quiet {p : Call α} (h : p.Issues (Steady book)) : p.Issues (Quiet book) :=
  h.mono fun _ hq => hq.quiet

theorem Issues.issued {p : Call α} (h : p.Issues (Steady book)) : p.Issues (Issued book) :=
  h.mono fun _ hq => .inl hq.quiet

end Rules

/-! ## Transactions and registers -/

theorem imbalanceAccount_issues : (imbalanceAccount book).Issues (Balancing book) := by
  refine issues_reply (.read ⟨.selectImbalance, Stmt.reads_query _⟩) fun r => ?_
  rcases r with e | _ | g
  · trivial
  · refine issues_exec (.read ⟨.selectBookRoot, Stmt.reads_query _⟩) fun r => ?_
    rcases r with _ | _ | root
    · trivial
    · trivial
    · refine issues_exec (.read ⟨.uuidNew, reads_uuidNew⟩) fun g => ?_
      refine issues_exec (.read ⟨.askEnv _, Stmt.reads_askEnv _⟩) fun now => ?_
      exact issues_exec (.insertImbalance _ rfl rfl) fun _ => trivial
  · trivial

theorem checkAccounts_issues (splits : List CreateSplitRequest) :
    (checkAccounts book splits).Issues (Reading book) := by
  induction splits with
  | nil => trivial
  | cons sp rest ih =>
    refine issues_reply ⟨.selectPlaceholder _, Stmt.reads_queryE _⟩ fun r => ?_
    rcases r with e | _ | _ | _
    · trivial
    · trivial
    · exact ih
    · trivial

theorem insertSplits_issues {P : StmtClass Stmt} {tx : Guid} {now : Time}
    {state : CreateSplitRequest → String} {i : Nat} {splits : List CreateSplitRequest}
    (hu : P uuidNew) (hi : ∀ a sp, sp.txGuid = tx → P (insertSplitStmt a sp)) :
    (insertSplits tx now state i splits).Issues P := by
  induction splits generalizing i with
  | nil => trivial
  | cons sp rest ih =>
    refine issues_exec hu fun g => ?_
    refine issues_reply (hi _ _ rfl) fun r => ?_
    cases r with
    | error e => trivial
    | ok _ => exact issues_bind ih fun _ => trivial

theorem balancedSplits_issues (valid : List CreateSplitRequest) (sum : Numeric) :
    (balancedSplits book valid sum).Issues (Balancing book) := by
  unfold balancedSplits
  split
  · trivial
  · exact issues_bind imbalanceAccount_issues fun _ => trivial

theorem createTransaction_creating (req : CreateTransactionRequest) :
    (createTransaction book req).Issues (Creating book) := by
  refine issues_bind (issues_ofExcept _) fun valid => ?_
  refine issues_bind issues_orPanic fun sum => issues_inTx ?_
  refine issues_bind ((balancedSplits_issues _ _).mono fun _ h => .balancing h) fun splits => ?_
  split
  · trivial
  · refine issues_bind ((checkAccounts_issues _).mono fun _ h => .balancing (.read h)) fun _ => ?_
    refine issues_exec (.balancing (.read ⟨.uuidNew, reads_uuidNew⟩)) fun g => ?_
    refine issues_exec (.balancing (.read ⟨.askEnv _, Stmt.reads_askEnv _⟩)) fun now => ?_
    refine issues_exec (.insertTransaction _ rfl) fun _ => ?_
    refine issues_bind (insertSplits_issues (.balancing (.read ⟨.uuidNew, reads_uuidNew⟩))
      fun _ _ _ => .insertSplit _ _) fun rows => ?_
    exact issues_bind issues_commit fun _ => trivial

theorem createTransaction_issues (req : CreateTransactionRequest) :
    (createTransaction book req).Issues (Issued book) :=
  (createTransaction_creating req).mono fun _ h => h.issued

theorem updateTransaction_issues (tx : GuidText) (req : UpdateTransactionRequest) :
    (updateTransaction book tx req).Issues (Issued book) := by
  refine issues_exec (.inl (ByBook.quiet (.selectVersion _))) fun r => ?_
  rcases r with _ | ⟨guid, version⟩
  · trivial
  · refine issues_bind (issues_ofExcept _) fun splits => ?_
    refine issues_bind issues_orPanic fun sum => ?_
    split
    · trivial
    · split
      · trivial
      · refine issues_inTx ?_
        refine issues_bind ((checkAccounts_issues _).mono fun _ h => .inl h.named.quiet) fun _ => ?_
        refine issues_exec (.inl (ByBook.quiet (.askEnv _))) fun now => ?_
        refine issues_exec (.inr (.updateTransaction _ _ _ _ _)) fun _ => ?_
        refine issues_exec (.inr (.deleteSplitsOf _)) fun _ => ?_
        refine issues_bind (insertSplits_issues (.inl (ByBook.quiet .uuidNew))
      fun _ _ _ => .inr (.insertSplit _ _)) fun rows => ?_
        exact issues_bind issues_commit fun _ => trivial

theorem deleteTransaction_issues (tx : GuidText) :
    (deleteTransaction book tx).Issues (ByBook book) := by
  refine issues_exec (.deleteTransaction _) fun n => ?_
  split <;> trivial

theorem loadSplits_issues (ts : List Transaction) : (loadSplits ts).Issues (Steady book) := by
  induction ts with
  | nil => trivial
  | cons t ts ih =>
    refine issues_exec (ByRef.steady (.selectSplitViews _)) fun _ => ?_
    exact issues_bind ih fun _ => trivial

theorem getTransaction_issues (tx : GuidText) : (getTransaction book tx).Issues (Steady book) := by
  refine issues_exec (ByBook.steady (.selectTransaction _)) fun r => ?_
  cases r with
  | none => trivial
  | some t => exact issues_exec (ByRef.steady (.selectSplitViews _)) fun _ => trivial

theorem listTransactions_issues (limit offset : Int) :
    (listTransactions book limit offset).Issues (Steady book) :=
  issues_exec (ByBook.steady (.selectTransactions _ _)) fun ts => loadSplits_issues ts

theorem fillTransferAccounts_issues (entries : List RegisterEntry) (account : Guid) :
    (fillTransferAccounts entries account).Issues (Steady book) := by
  unfold fillTransferAccounts
  split
  · trivial
  · exact issues_exec (ByRef.steady (.selectTransfers _ _)) fun _ => trivial

theorem getAccountRegister_issues (account : GuidText) :
    (getAccountRegister book account).Issues (Steady book) := by
  refine issues_exec (ByBook.steady (.selectAccountType _)) fun r => ?_
  rcases r with _ | ⟨guid, accountType⟩
  · trivial
  · refine issues_exec (ByRef.steady (.selectRegister _)) fun rows => ?_
    exact issues_bind issues_orPanic fun _ => fillTransferAccounts_issues _ _

theorem pageWindow_issues (account : Guid) (cursor : PageCursor) (direction : Direction)
    (limit : Int) : (pageWindow account book cursor direction limit).Issues (ByBook book) := by
  unfold pageWindow
  split
  · split <;> trivial
  · refine issues_reply (.countRegister _ _) fun r => ?_
    dsimp only
    split <;> trivial
  · trivial
  · exact issues_reply (.countRegister _ _) fun _ => trivial
  · exact issues_exec (.countRegister _ _) fun _ => trivial
  · trivial

theorem loadPrior_issues (account : Guid) (offset : Int) :
    (loadPrior account book offset).Issues (ByBook book) := by
  unfold loadPrior
  split
  · exact issues_exec (.selectPrior _ _) fun _ => issues_orPanic
  · trivial

theorem getAccountRegisterPaged_issues (account : GuidText) (cursor : PageCursor)
    (direction : Direction) (limit : Int) :
    (getAccountRegisterPaged book account cursor direction limit).Issues (Steady book) := by
  refine issues_exec (ByBook.steady (.selectAccountType _)) fun r => ?_
  rcases r with _ | ⟨guid, accountType⟩
  · trivial
  · refine issues_exec (ByBook.steady (.countRegister _ _)) fun total => ?_
    refine issues_bind (Issues.steady (pageWindow_issues _ _ _ _)) fun w => ?_
    dsimp only
    split
    · trivial
    · refine issues_bind (Issues.steady (loadPrior_issues _ _)) fun prior => ?_
      refine issues_exec (ByBook.steady (.selectPage _ _ _)) fun rows => ?_
      refine issues_bind issues_orPanic fun entries => ?_
      exact issues_bind (fillTransferAccounts_issues _ _) fun _ => trivial

theorem toggleSplitAcknowledge_issues (split : GuidText) (state : String) :
    (toggleSplitAcknowledge book split state).Issues (Quiet book) := by
  unfold toggleSplitAcknowledge
  split
  · trivial
  · refine issues_exec (.inr (.toggleSplit _ _)) fun n => ?_
    split <;> trivial

theorem reconcileEach_issues (splits : List GuidText) :
    (reconcileEach book splits).Issues (Reconciling book) := by
  induction splits with
  | nil => trivial
  | cons g gs ih => exact issues_exec (.reconcileSplit _) fun _ => ih

theorem batchReconcileSplits_issues (splits : List GuidText) :
    (batchReconcileSplits book splits).Issues (Reconciling book) := by
  unfold batchReconcileSplits
  split
  · trivial
  · exact issues_inTx (issues_bind (reconcileEach_issues _) fun _ => issues_commit)

theorem getReconciledBalance_issues (account : GuidText) :
    (getReconciledBalance book account).Issues (ByBook book) :=
  issues_sql (.selectReconciledBalance _)

theorem reconcileAccountSplits_issues (accounts : List GuidText) :
    (reconcileAccountSplits book accounts).Issues (Reconciling book) := by
  unfold reconcileAccountSplits
  split
  · trivial
  · exact issues_sql (.reconcileAccounts _)

/-! ## Accounts and snapshots -/

theorem createAccount_issues (req : CreateAccountRequest) :
    (createAccount book req).Issues (Steady book) := by
  refine issues_exec (ByBook.steady .uuidNew) fun guid => ?_
  refine issues_exec (ByBook.steady (.askEnv _)) fun now => ?_
  exact issues_exec (ByRef.steady (.createAccount _ _ rfl)) fun _ => trivial

theorem getAccount_issues (account : GuidText) : (getAccount book account).Issues (ByBook book) := by
  refine issues_exec (.selectAccount _) fun r => ?_
  cases r <;> trivial

theorem updateAccount_issues (account : GuidText) (req : UpdateAccountRequest) :
    (updateAccount book account req).Issues (Quiet book) := by
  refine issues_exec (ByBook.quiet (.askEnv _)) fun now => ?_
  refine issues_exec (.inr (.updateAccount _ _ _)) fun n => ?_
  split
  · refine issues_reply (ByBook.quiet (.accountExists _)) fun r => ?_
    split <;> trivial
  · exact Issues.quiet (Issues.steady (getAccount_issues _))

theorem deleteAccount_issues (account : GuidText) :
    (deleteAccount book account).Issues (Steady book) := by
  refine issues_reply (ByRef.steady (.countAccountSplits _)) fun splits => ?_
  split
  · trivial
  · refine issues_reply (ByRef.steady (.countChildAccounts _)) fun children => ?_
    split
    · trivial
    · refine issues_exec (ByBook.steady (.deleteAccount _)) fun n => ?_
      split <;> trivial

theorem listAccountsTree_issues (start stop : Option (Option Time)) :
    (listAccountsTree book start stop).Issues (ByBook book) :=
  issues_sql (.selectTree _ _)

theorem exportTransactions_issues (ts : List Transaction) :
    (exportTransactions ts).Issues (Exporting book) := by
  induction ts with
  | nil => trivial
  | cons t ts ih => exact issues_reply (.splits _) fun _ => issues_bind ih fun _ => trivial

theorem buildExportData_issues : (buildExportData book).Issues (Exporting book) := by
  refine issues_exec .accounts fun _ => issues_exec .transactions fun ts => ?_
  exact issues_bind (exportTransactions_issues ts) fun _ => trivial

theorem handleExport_issues : (handleExport book).Issues (Exporting book) := by
  refine issues_exec .accounts fun _ => issues_exec .transactions fun ts => ?_
  exact issues_bind (exportTransactions_issues ts) fun _ => trivial

theorem exportTransactions_body (ts : List Transaction) : (exportTransactions ts).Body := by
  induction ts with
  | nil => trivial
  | cons t ts ih => exact body_ask fun _ => body_bind ih fun _ => trivial

theorem buildExportData_body : (buildExportData book).Body :=
  body_sql fun _ => body_sql fun ts => body_bind (exportTransactions_body ts) fun _ => trivial

theorem getConfig_issues : (getConfig book).Issues (ByBook book) := by
  refine issues_exec .selectConfig fun r => ?_
  cases r <;> trivial

theorem upsertConfig_issues (f t : Int) (a : Bool) :
    (upsertConfig book f t a).Issues (ByBook book) :=
  issues_sql (.upsertConfig _ _ _)

theorem listSnapshots_issues : (listSnapshots book).Issues (ByBook book) :=
  issues_sql .selectSnapshots

theorem getSnapshot_issues (id : GuidText) : (getSnapshot book id).Issues (ByBook book) := by
  refine issues_exec (.selectSnapshot _) fun r => ?_
  cases r <;> trivial

theorem deleteSnapshot_issues (id : GuidText) : (deleteSnapshot book id).Issues (ByBook book) := by
  refine issues_exec (.deleteSnapshot _) fun n => ?_
  split <;> trivial

theorem enforceSnapshotQuota_issues {P : StmtClass Stmt} (trigger : SnapshotTrigger)
    (hc : P (countRecentSnapshots book trigger)) (hr : P (rotateActive book)) :
    (enforceSnapshotQuota book trigger).Issues P := by
  refine issues_exec hc fun n => ?_
  cases trigger with
  | manual => dsimp only; split <;> trivial
  | scheduled => dsimp only; split <;> trivial
  | active =>
    dsimp only
    split
    · exact issues_sql hr
    · trivial

theorem enforceSnapshotQuota_body (trigger : SnapshotTrigger) :
    (enforceSnapshotQuota book trigger).Body := by
  refine body_sql fun n => ?_
  cases trigger with
  | manual => dsimp only; split <;> trivial
  | scheduled => dsimp only; split <;> trivial
  | active =>
    dsimp only
    split
    · exact body_exec _ _
    · trivial

theorem takeSnapshotForBook_issues (label : String) (trigger : SnapshotTrigger) :
    (takeSnapshotForBook book label trigger).Issues (Snapshotting book) := by
  refine issues_bind (enforceSnapshotQuota_issues _ (.countRecent _) .rotateActive) fun _ => ?_
  refine issues_bind (issues_attempt (buildExportData_issues.mono fun _ h => .export h)) fun r => ?_
  cases r with
  | error e => trivial
  | ok data => exact issues_sql (.insertSnapshot _ _ _)

theorem takeSnapshotForBook_body (label : String) (trigger : SnapshotTrigger) :
    (takeSnapshotForBook book label trigger).Body := by
  refine body_bind (enforceSnapshotQuota_body _) fun _ => ?_
  refine body_bind (body_attempt buildExportData_body) fun r => ?_
  cases r with
  | error e => trivial
  | ok data => exact body_exec _ _

/-! ## Seeding, import and restore -/

section Seeds

variable {P : StmtClass Stmt} (hs : ∀ d p b, P (insertSeedAccountStmt book d p b))
include hs

theorem insertSeedAccounts_issues (parent : Guid) (ds : List AcctDef) :
    (insertSeedAccounts book parent ds).Issues P := by
  induction ds with
  | nil => trivial
  | cons d ds ih => exact issues_exec (hs _ _ _) fun _ => ih

theorem insertTopAccounts_issues (root : Guid) (ds : List AcctDef) :
    (insertTopAccounts book root ds).Issues P := by
  induction ds with
  | nil => trivial
  | cons d ds ih => exact issues_exec (hs _ _ _) fun _ => issues_bind ih fun _ => trivial

theorem insertSubAccounts_issues (ls : List (Guid × List AcctDef)) :
    (insertSubAccounts book ls).Issues P := by
  induction ls with
  | nil => trivial
  | cons l ls ih => exact issues_bind (insertSeedAccounts_issues hs _ _) fun _ => ih

/-- Seeding inserts accounts and sets the root. -/
theorem seeding_issues (hr : ∀ r, P (setBookRoot book r)) : (seedUserBook book).Issues P := by
  refine issues_inTx (issues_exec (hs _ _ _) fun root => ?_)
  refine issues_exec (hr _) fun _ => ?_
  refine issues_bind (insertTopAccounts_issues hs _ _) fun tops => ?_
  exact issues_bind (insertSubAccounts_issues hs _) fun _ => issues_commit

end Seeds

theorem seedUserBook_issues : (seedUserBook book).Issues (Steady book) :=
  seeding_issues (fun _ _ _ => ByRef.steady (.insertSeedAccount _ _ _))
    fun _ => ByRef.steady (.setBookRoot _)

/-- A registration concerns the book it makes. -/
theorem registerUser_issues (email name : String) :
    (registerUser email name).Issues fun q => ∃ book, Steady book q := by
  refine issues_reply ⟨0, ByRef.steady (.emailExists _)⟩ fun r => ?_
  split
  · trivial
  · refine issues_exec ⟨0, ByRef.steady (.insertUser _ _)⟩ fun user => ?_
    refine issues_exec ⟨0, ByRef.steady (.insertBook _)⟩ fun book => ?_
    exact issues_bind (seedUserBook_issues.mono fun _ h => ⟨book, h⟩) fun _ => trivial

theorem ensureRoot_issues {P : StmtClass Stmt} (hu : P uuidNew) (accounts : List ExportAccount) :
    (ensureRoot accounts).Issues P := by
  unfold ensureRoot
  split
  · trivial
  · exact issues_exec hu fun _ => trivial

theorem renameAccounts_issues {P : StmtClass Stmt} (hu : P uuidNew)
    (accounts : List ExportAccount) :
    (renameAccounts accounts).Issues P := by
  induction accounts with
  | nil => trivial
  | cons a as ih => exact issues_exec hu fun _ => issues_bind ih fun _ => trivial

theorem renameSplits_issues {P : StmtClass Stmt} (hu : P uuidNew)
    (m : List (ExportAccount × Guid)) (splits : List ExportSplit) :
    (renameSplits m splits).Issues P := by
  induction splits with
  | nil => trivial
  | cons s ss ih => exact issues_exec hu fun _ => issues_bind ih fun _ => trivial

theorem renameTransactions_issues {P : StmtClass Stmt} (hu : P uuidNew)
    (m : List (ExportAccount × Guid)) (ts : List ExportTransaction) :
    (renameTransactions m ts).Issues P := by
  induction ts with
  | nil => trivial
  | cons t ts ih =>
    refine issues_exec hu fun _ => ?_
    exact issues_bind (renameSplits_issues hu _ _) fun _ => issues_bind ih fun _ => trivial

theorem batchLoop_issues {P : StmtClass Stmt} (label : String) (qs : List (Stmt Unit))
    (h : ∀ q ∈ qs, P q) : (batchLoop label qs).Issues P := by
  induction qs with
  | nil => trivial
  | cons q qs ih =>
    exact issues_exec (h q List.mem_cons_self) fun _ => ih fun q' hq => h q' (.tail _ hq)

theorem execImportBatch_issues {P : StmtClass Stmt} (hn : P (Stmt.query fun _ => ()))
    (label : String) (qs : List (Stmt Unit)) (h : ∀ q ∈ qs, P q) :
    (execImportBatch label qs).Issues P := by
  unfold execImportBatch
  split
  · trivial
  · exact issues_bind (batchLoop_issues label qs h) fun _ => issues_sql hn

theorem restoreRoot_issues (root : Option Guid) :
    (restoreRoot book root).Issues (Importing book) := by
  cases root with
  | none => trivial
  | some g => exact issues_sql (.setBookRoot _)

theorem replaceBook_issues (accounts : List ImportAccount) (txns : List ImportTransaction) :
    (replaceBook book accounts txns).Issues (Importing book) := by
  have hn : Importing book (Stmt.query fun _ => ()) := .read ⟨.noop, Stmt.reads_query _⟩
  refine issues_inTx (issues_exec (.setBookRoot _) fun _ => ?_)
  refine issues_exec .deleteBookSplits fun _ => ?_
  refine issues_exec .deleteBookTransactions fun _ => ?_
  refine issues_exec .deleteBookAccounts fun _ => ?_
  refine issues_bind (execImportBatch_issues hn _ _ fun q hq => ?_) fun _ => ?_
  · obtain ⟨a, -, rfl⟩ := List.mem_map.mp hq
    exact .insertImportAccount _
  refine issues_bind (execImportBatch_issues hn _ _ fun q hq => ?_) fun _ => ?_
  · obtain ⟨a, -, ha⟩ := List.mem_filterMap.mp hq
    obtain ⟨p, -, rfl⟩ := Option.map_eq_some_iff.mp ha
    exact .updateHierarchy _ _
  refine issues_bind (restoreRoot_issues _) fun _ => ?_
  refine issues_bind (execImportBatch_issues hn _ _ fun q hq => ?_) fun _ => ?_
  · obtain ⟨t, -, rfl⟩ := List.mem_map.mp hq
    exact .insertImportTransaction _
  refine issues_bind (execImportBatch_issues hn _ _ fun q hq => ?_) fun _ => issues_commit
  obtain ⟨t, -, ht⟩ := List.mem_flatMap.mp hq
  obtain ⟨sp, -, rfl⟩ := List.mem_map.mp ht
  exact .insertImportSplit _ _

theorem performImport_issues (data : ExportData) :
    (performImport book data).Issues (Importing book) := by
  have hu : Importing book uuidNew := .read ⟨.uuidNew, reads_uuidNew⟩
  refine issues_bind (ensureRoot_issues hu _) fun rooted => ?_
  refine issues_bind (renameAccounts_issues hu _) fun renamed => ?_
  refine issues_bind (renameTransactions_issues hu _ _) fun txns => ?_
  exact replaceBook_issues _ _

theorem autoBackup_issues (label : String) : (autoBackup book label).Issues (Snapshotting book) :=
  issues_bind (issues_attempt (takeSnapshotForBook_issues _ _)) fun _ => trivial

theorem autoBackup_body (label : String) : (autoBackup book label).Body :=
  body_bind (body_attempt (takeSnapshotForBook_body _ _)) fun _ => trivial

theorem csvLoop_issues (account : GuidText) (rs : List CsvRow) :
    (csvLoop book account rs).Issues (Issued book) := by
  induction rs with
  | nil => trivial
  | cons r rs ih =>
    refine issues_bind (issues_attempt (createTransaction_issues _)) fun o => ?_
    split
    · trivial
    · exact ih
    · exact issues_bind ih fun _ => trivial

theorem handleFactoryReset_issues : (handleFactoryReset book).Issues (Issued book) := by
  refine issues_bind (issues_inTx ?_) fun _ => Issues.issued seedUserBook_issues
  refine issues_exec (.inl (ByRef.quiet (.setBookRoot _))) fun _ => ?_
  refine issues_exec (.inr .deleteBookSplits) fun _ => ?_
  refine issues_exec (.inr .deleteBookTransactions) fun _ => ?_
  exact issues_exec (.inl (ByBook.quiet .deleteBookAccounts)) fun _ => issues_commit

/-! ## Bank sync -/

theorem loadAndDecryptToken_issues {P : StmtClass Stmt} (cfg : TokenConfig) (item : GuidText)
    (itemId : String) (c : Ciphertext) (n : Nonce) (v : Nat) (hn : P (Stmt.askEnv Env.nonce))
    (hr : ∀ c n, P (resealStmt book item c n v)) :
    (loadAndDecryptToken cfg book item itemId c n v).Issues P := by
  unfold loadAndDecryptToken
  split
  · trivial
  · split
    · refine issues_exec hn fun fresh => ?_
      exact issues_reply (hr _ _) fun _ => trivial
    · trivial

theorem exchange_issues (cfg : TokenConfig) : (exchange cfg book).Issues (Steady book) := by
  refine issues_exec (ByBook.steady (.askEnv _)) fun r => ?_
  rcases r with e | ⟨token, itemId, name⟩
  · trivial
  · refine issues_exec (ByBook.steady (.askEnv _)) fun nonce => ?_
    refine issues_exec (ByBook.steady .uuidNew) fun itemGuid => ?_
    refine issues_exec (ByBook.steady (.askEnv _)) fun now => ?_
    refine issues_exec (ByRef.steady (.upsertItem _ _ rfl)) fun guid => ?_
    refine issues_exec (ByBook.steady (.askEnv _)) fun r => ?_
    cases r <;> trivial

theorem linkEach_issues (item : GuidText) (name : String) (ms : List AccountMapping) :
    (linkEach book item name ms).Issues (Linking book item) := by
  induction ms with
  | nil => trivial
  | cons m ms ih =>
    refine issues_exec (.read ⟨.countOtherLinks _, Stmt.reads_queryE _⟩) fun n => ?_
    split
    · trivial
    · refine issues_exec (.read ⟨.selectLink _, Stmt.reads_queryE _⟩) fun r => ?_
      cases r with
      | none => trivial
      | some existing =>
        dsimp only
        split
        · trivial
        · refine issues_reply (.updateLink _ _ rfl) fun r => ?_
          split
          · trivial
          · trivial
          · split
            · trivial
            · exact ih

theorem linkAccounts_issues (item : GuidText) (ms : List AccountMapping) (p : Bool) :
    (linkAccounts book item ms p).Issues (Linking book item) := by
  refine issues_reply (.read ⟨.selectInstitution _, Stmt.reads_queryE _⟩) fun r => ?_
  rcases r with e | _ | name
  · trivial
  · trivial
  · refine issues_inTx (issues_bind (linkEach_issues _ _ _) fun _ => ?_)
    exact issues_exec (.updateImportPending _) fun _ => issues_commit

theorem reading_transactionExists (id : String) : Reading book (transactionExists book id) :=
  ⟨.transactionExists id, Stmt.reads_query _⟩

theorem predecessorImported_issues (txn : PlaidTxn) :
    (predecessorImported book txn).Issues (Staging book) := by
  refine issues_exec (.read (reading_transactionExists _)) fun imported => ?_
  split
  · exact issues_sql (.read ⟨.importedValueMatches _ _ _ _, Stmt.reads_queryE _⟩)
  · trivial

theorem correlatePending_issues (txn : PlaidTxn) :
    (correlatePending book txn).Issues (Staging book) := by
  unfold correlatePending
  split
  · trivial
  · refine issues_bind (predecessorImported_issues txn) fun same => ?_
    split
    · exact issues_exec (.dropReplaced _) fun _ => trivial
    · exact issues_exec (.read ⟨.selectDismissed _, Stmt.reads_query _⟩) fun _ => trivial

theorem stageTxn_issues (item : GuidText) (txn : PlaidTxn) (h : txn.amountDenom = 100) :
    (stageTxn book item txn).Issues (Staging book) := by
  refine issues_bind (correlatePending_issues txn) fun d => ?_
  cases d with
  | none => trivial
  | some d => exact issues_sql (.upsertStaged _ _ _ h)

theorem upsertPass_issues (item : GuidText) (txns : List PlaidTxn)
    (h : ∀ t ∈ txns, t.amountDenom = 100) : (upsertPass book item txns).Issues (Staging book) := by
  induction txns with
  | nil => trivial
  | cons t ts ih =>
    have ih' := ih fun t' ht => h t' (.tail _ ht)
    unfold upsertPass
    split
    · exact ih'
    · exact issues_bind (stageTxn_issues item t (h t List.mem_cons_self)) fun _ => ih'

theorem checkDivergence_issues (ids : List String) :
    (checkDivergence book ids).Issues (Staging book) := by
  induction ids with
  | nil => trivial
  | cons i is ih => exact issues_exec (.read (reading_transactionExists _)) fun _ => ih

theorem zeroPass_issues (txns : List PlaidTxn) : (zeroPass book txns).Issues (Staging book) := by
  induction txns with
  | nil => trivial
  | cons t ts ih =>
    unfold zeroPass
    split
    · refine issues_exec (.dropUndismissed _) fun _ => ?_
      exact issues_bind (checkDivergence_issues _) fun _ => ih
    · exact ih

theorem removePass_issues (ids : List String) : (removePass book ids).Issues (Staging book) := by
  unfold removePass
  split
  · trivial
  · refine issues_exec (.read ⟨.selectRemovedImported _, Stmt.reads_query _⟩) fun _ => ?_
    exact issues_sql (.dropUndismissed _)

theorem stageDelta_issues (item : GuidText) (page : ApiPage) :
    (stageDelta book item page.delta).Issues (Staging book) := by
  refine issues_bind (upsertPass_issues item _ fun t ht => ?_) fun _ => ?_
  · rcases List.mem_append.mp ht with h | h
    · exact convertTxns_denom h
    · exact convertTxns_denom h
  · exact issues_bind (zeroPass_issues _) fun _ => removePass_issues _

theorem predecessorImported_body (txn : PlaidTxn) : (predecessorImported book txn).Body := by
  refine body_sql fun imported => ?_
  split
  · exact body_exec _ _
  · trivial

theorem correlatePending_body (txn : PlaidTxn) : (correlatePending book txn).Body := by
  unfold correlatePending
  split
  · trivial
  · refine body_bind (predecessorImported_body txn) fun same => ?_
    split
    · exact body_sql fun _ => trivial
    · exact body_sql fun _ => trivial

theorem upsertPass_body (item : GuidText) (txns : List PlaidTxn) :
    (upsertPass book item txns).Body := by
  induction txns with
  | nil => trivial
  | cons t ts ih =>
    unfold upsertPass
    split
    · exact ih
    · refine body_bind (body_bind (correlatePending_body t) fun d => ?_) fun _ => ih
      cases d with
      | none => trivial
      | some d => exact body_exec _ _

theorem checkDivergence_body (ids : List String) : (checkDivergence book ids).Body := by
  induction ids with
  | nil => trivial
  | cons i is ih => exact body_sql fun _ => ih

theorem zeroPass_body (txns : List PlaidTxn) : (zeroPass book txns).Body := by
  induction txns with
  | nil => trivial
  | cons t ts ih =>
    unfold zeroPass
    split
    · exact body_sql fun _ => body_bind (checkDivergence_body _) fun _ => ih
    · exact ih

theorem stageDelta_body (item : GuidText) (delta : SyncDelta) :
    (stageDelta book item delta).Body := by
  refine body_bind (upsertPass_body item _) fun _ => body_bind (zeroPass_body _) fun _ => ?_
  unfold removePass
  split
  · trivial
  · exact body_sql fun _ => body_exec _ _

theorem reading_syncTransactions (cursor : Cursor) : Reading book (syncTransactions cursor) :=
  ⟨.syncTransactions cursor, (Stmt.reads_askEnv _).tagged _⟩

theorem reading_askEnv {β : Type} (f : Env → β) : Reading book (Stmt.askEnv f) :=
  ⟨.askEnv f, Stmt.reads_askEnv f⟩

theorem fetchPages_issues (item : GuidText) (n : Nat) (cursor : Cursor) (more : Bool) :
    (fetchPages book item n cursor more).Issues (Fetching book) := by
  induction n generalizing cursor more with
  | zero => trivial
  | succ n ih =>
    refine issues_exec (.read (reading_syncTransactions _)) fun r => ?_
    rcases r with e | page
    · cases e <;> trivial
    · refine issues_bind ((stageDelta_issues item page).mono fun _ h => h.fetching) fun _ => ?_
      split
      · exact ih _ _
      · trivial

theorem fetchAndStage_issues (item : GuidText) (cursor : Cursor) :
    (fetchAndStage book item cursor).Issues (Fetching book) := by
  refine issues_bind (fetchPages_issues _ _ _ _) fun r => ?_
  refine issues_exec (.read (reading_askEnv _)) fun now => ?_
  refine issues_exec (.writeCursor _ _ _) fun _ => ?_
  exact issues_exec (.writeLastSynced _ _) fun _ => trivial

theorem suggest_issues (ops : TextOps) (d : String) : (suggest ops book d).Issues (Reading book) := by
  unfold suggest
  dsimp only
  split
  · trivial
  · refine issues_reply ⟨.selectCategory _ _ _, Stmt.reads_ordered fun _ => Stmt.reads_query _⟩ fun r => ?_
    rcases r with e | _ | g
    · trivial
    · refine issues_reply ⟨.selectCategory _ _ _, Stmt.reads_ordered fun _ => Stmt.reads_query _⟩ fun r => ?_
      cases r <;> trivial
    · trivial

theorem suggestPerRow_issues (ops : TextOps) (ds : List String) :
    (suggestPerRow ops book ds).Issues (Reading book) := by
  induction ds with
  | nil => trivial
  | cons d ds ih => exact issues_bind (suggest_issues ops d) fun _ => issues_bind ih fun _ => trivial

theorem runPass_issues (ops : TextOps) (mode : MatchMode) (ds : List String)
    (out : List (Option Guid)) : (runPass ops book mode ds out).Issues (Reading book) := by
  unfold runPass
  dsimp only
  split
  · trivial
  · refine issues_reply ⟨.selectCategories _ _ _, Stmt.reads_ordered fun _ => Stmt.reads_query _⟩ fun r => ?_
    cases r <;> trivial

theorem suggestBatch_issues (ops : TextOps) (ds : List String) :
    (suggestBatch ops book ds).Issues (Reading book) := by
  refine issues_bind (runPass_issues _ _ _ _) fun out => ?_
  cases out with
  | none => exact suggestPerRow_issues _ _
  | some out =>
    refine issues_bind (runPass_issues _ _ _ _) fun out => ?_
    cases out with
    | none => exact suggestPerRow_issues _ _
    | some out => trivial

theorem listSuggestions_issues (ops : TextOps) (item : GuidText) (p : Bool) :
    (listSuggestions ops book item p).Issues (Reading book) := by
  refine issues_exec ⟨.selectLinkedAccounts _, Stmt.reads_query _⟩ fun linked => ?_
  refine issues_exec ⟨.selectSuggestions _ _, Stmt.reads_queryE _⟩ fun staged => ?_
  refine issues_bind (suggestBatch_issues _ _) fun cats => ?_
  dsimp only
  split
  · trivial
  · exact issues_exec ⟨.selectNames _, Stmt.reads_query _⟩ fun _ => trivial

theorem lockedFetch_issues (item : GuidText) (cursor : Cursor) :
    (lockedFetch book item cursor).Issues (Fetching book) := by
  refine issues_exec (.read ⟨.noop, Stmt.reads_query _⟩) fun _ => ?_
  refine issues_exec (.lock _) fun got => ?_
  split
  · refine issues_bind (issues_attempt (fetchAndStage_issues _ _)) fun r => ?_
    refine issues_reply (.unlock _) fun _ => ?_
    exact issues_bind (issues_ofExcept r) fun _ => trivial
  · trivial

theorem reading_selectItem (item : GuidText) : Reading book (selectItem item book) :=
  ⟨.selectItem item, Stmt.reads_queryE _⟩

theorem sync_issues (cfg : PlaidConfig) (item : GuidText) :
    (sync cfg book item).Issues (Syncing book) := by
  refine issues_exec (.fetch (.read (reading_selectItem _))) fun r => ?_
  cases r with
  | none => trivial
  | some p =>
    refine issues_bind (loadAndDecryptToken_issues _ _ _ _ _ _ (.fetch (.read (reading_askEnv _)))
      fun c n => .reseal _ c n _) fun r => ?_
    rcases r with (_ | _) | token
    · trivial
    · trivial
    · refine issues_bind ((lockedFetch_issues _ _).mono fun _ h => .fetch h) fun fetched => ?_
      refine issues_bind ((listSuggestions_issues _ _ _).mono fun _ h => .fetch (.read h)) fun _ => ?_
      trivial

theorem dismissStaged_issues (ids : List String) : (dismissStaged book ids).Issues (ByBook book) :=
  issues_sql (.dismissStaged _)

theorem deleteStaged_issues (id : String) : (deleteStaged book id).Issues (ByBook book) :=
  issues_reply (.deleteStaged _) fun _ => trivial

theorem replacesImported_issues (row : ImportRow) (st : Staged) :
    (replacesImported book row st).Issues (ByBook book) := by
  unfold replacesImported
  split
  · trivial
  · refine issues_exec (.transactionExists _) fun imported => ?_
    split
    · exact issues_sql (.importedValueMatches _ _ _ _)
    · trivial

theorem createImported_issues (row : ImportRow) (bank : Guid) (st : Staged) :
    (createImported book row bank st).Issues (Issued book) := by
  have hd : (deleteStaged book row.transactionId).Issues (Issued book) :=
    Issues.issued (Issues.steady (deleteStaged_issues _))
  refine issues_bind (issues_attempt (createTransaction_issues _)) fun o => ?_
  split
  · trivial
  · split
    · exact issues_bind hd fun _ => trivial
    · trivial
  · exact issues_bind hd fun _ => trivial

theorem importStaged_issues (row : ImportRow) (st : Staged) :
    (importStaged book row st).Issues (Issued book) := by
  refine issues_reply (.inl (ByBook.quiet (.selectBankAccount _))) fun r => ?_
  rcases r with e | _ | bank
  · trivial
  · trivial
  · refine issues_exec (.inl (ByBook.quiet (.transactionExists _))) fun posted => ?_
    split
    · trivial
    · refine issues_bind (Issues.issued (Issues.steady (replacesImported_issues _ _))) fun b => ?_
      split
      · exact issues_bind (Issues.issued (Issues.steady (deleteStaged_issues _))) fun _ => trivial
      · exact createImported_issues _ _ _

theorem importRow_issues (row : ImportRow) : (importRow book row).Issues (Issued book) := by
  unfold importRow
  split
  · trivial
  · refine issues_exec (.inl (ByBook.quiet (.loadStaged _))) fun r => ?_
    cases r with
    | none =>
      refine issues_exec (.inl (ByBook.quiet (.transactionExists _))) fun posted => ?_
      split <;> trivial
    | some st => exact importStaged_issues _ _

theorem importLoop_issues (result : ImportResult) (rows : List ImportRow) :
    (importLoop book result rows).Issues (Issued book) := by
  induction rows generalizing result with
  | nil => trivial
  | cons row rows ih =>
    refine issues_bind (issues_attempt (importRow_issues row)) fun o => ?_
    split
    · trivial
    · trivial
    · exact ih _

theorem archiveIfForced_issues (guid : Guid) (version : Nat) (forced : Bool) :
    (archiveIfForced book guid version forced).Issues (Removing book) := by
  unfold archiveIfForced
  split
  · exact issues_sql (.archiveItem _ _)
  · trivial

theorem removeItem_issues (item : GuidText) (guid : Guid) (version : Nat) (forced : Bool) :
    (removeItem book item guid version forced).Issues (Removing book) := by
  refine issues_inTx (issues_bind (archiveIfForced_issues _ _ _) fun archived => ?_)
  split
  · trivial
  · refine issues_exec (.clearLinks _) fun _ => ?_
    refine issues_exec (.deleteItem _ _) fun deleted => ?_
    split
    · trivial
    · exact issues_commit

theorem reading_removeBankItem (itemId : String) (token : Token) :
    Reading book (removeBankItem itemId token) :=
  ⟨.removeBankItem itemId token, (Stmt.reads_askEnv _).tagged _⟩

theorem disconnect_issues (cfg : PlaidConfig) (item : GuidText) :
    (disconnect cfg book item).Issues (Removing book) := by
  refine issues_exec (.read (reading_selectItem _)) fun r => ?_
  cases r with
  | none => trivial
  | some p =>
    refine issues_bind (loadAndDecryptToken_issues _ _ _ _ _ _ (.read (reading_askEnv _))
      fun c n => .reseal _ c n _) fun r => ?_
    rcases r with (_ | _) | token
    · trivial
    · exact removeItem_issues _ _ _ _
    · refine issues_exec (.read (reading_removeBankItem _ _)) fun r => ?_
      cases r with
      | error e => trivial
      | ok _ => exact removeItem_issues _ _ _ _

theorem listItems_issues : (listItems book).Issues (ByBook book) := issues_sql .selectItems

/-! ## Requests -/

/-- The requests that write transactions, splits or snapshots. -/
def Request.posts : Request → Bool
  | .createTransaction _ | .updateTransaction _ _ | .importJson _ | .importCsv _ _
  | .importGnuCash _ | .factoryReset | .createSnapshot _ | .restoreSnapshot _
  | .plaidImport _ => true
  | _ => false

/-- The requests that change the state of splits or the place of an account. -/
def Request.amends : Request → Bool
  | .updateAccount _ _ | .reconcileAccount _ | .batchReconcile _ | .toggleAcknowledge _ _ => true
  | _ => false

theorem issues_answer {P : StmtClass Stmt} {α : Type} {p : Call α} {f : α → Response}
    (h : p.Issues P) : (p.bind fun a => ret (f a)).Issues P :=
  issues_bind h fun _ => trivial

/-- **A request that neither posts nor amends issues steady statements only.** -/
theorem handle_steady (cfg : PlaidConfig) (req : Request) (h : req.posts = false)
    (h' : req.amends = false) : (handle cfg book req).Issues (Steady book) := by
  cases req with
  | createTransaction _ | updateTransaction _ _ | importJson _ | importCsv _ _
  | importGnuCash _ | factoryReset | createSnapshot _ | restoreSnapshot _ | plaidImport _ =>
    exact absurd h (by simp [Request.posts])
  | updateAccount _ _ | reconcileAccount _ | batchReconcile _ | toggleAcknowledge _ _ =>
    exact absurd h' (by simp [Request.amends])
  | listAccounts s e => exact issues_answer (Issues.steady (listAccountsTree_issues s e))
  | createAccount r => exact issues_answer (createAccount_issues r)
  | getAccount i => exact issues_answer (Issues.steady (getAccount_issues i))
  | deleteAccount i => exact issues_answer (deleteAccount_issues i)
  | register i => exact issues_answer (getAccountRegister_issues i)
  | registerPage i c d l => exact issues_answer (getAccountRegisterPaged_issues i c d _)
  | reconciledBalance i => exact issues_answer (Issues.steady (getReconciledBalance_issues i))
  | listTransactions l o => exact issues_answer (listTransactions_issues l o)
  | getTransaction i => exact issues_answer (getTransaction_issues i)
  | deleteTransaction i => exact issues_answer (Issues.steady (deleteTransaction_issues i))
  | exportBook => exact issues_answer (handleExport_issues.mono fun _ h => h.steady)
  | getConfig => exact issues_answer (Issues.steady getConfig_issues)
  | putConfig f t a =>
    simp only [handle]
    split
    · trivial
    · exact issues_answer (Issues.steady (upsertConfig_issues f t a))
  | listSnapshots => exact issues_answer (Issues.steady listSnapshots_issues)
  | getSnapshot i => exact issues_answer (Issues.steady (getSnapshot_issues i))
  | deleteSnapshot i => exact issues_answer (Issues.steady (deleteSnapshot_issues i))
  | getBook =>
    refine issues_exec (ByBook.steady .selectBook) fun r => ?_
    cases r <;> trivial
  | plaidExchange => exact issues_answer (exchange_issues _)
  | plaidLink i ms p =>
    simp only [handle]
    split
    · trivial
    · split
      · trivial
      · exact issues_answer ((linkAccounts_issues i ms p).mono fun _ h => h.steady)
  | plaidSync i =>
    simp only [handle]
    split
    · trivial
    · exact issues_answer ((sync_issues cfg i).mono fun _ h => h.steady)
  | plaidDismiss is =>
    simp only [handle]
    split
    · trivial
    · split
      · trivial
      · exact issues_answer (Issues.steady (dismissStaged_issues is))
  | plaidDisconnect i =>
    simp only [handle]
    split
    · trivial
    · exact issues_answer ((disconnect_issues cfg i).mono fun _ h => h.steady)
  | plaidItems => exact issues_answer (Issues.steady listItems_issues)

/-- **A request that does not post issues quiet statements only.** -/
theorem handle_quiet (cfg : PlaidConfig) (req : Request) (h : req.posts = false) :
    (handle cfg book req).Issues (Quiet book) := by
  cases hamends : req.amends with
  | false => exact Issues.quiet (handle_steady cfg req h hamends)
  | true =>
    cases req with
    | updateAccount i r => exact issues_answer (updateAccount_issues i r)
    | reconcileAccount as =>
      simp only [handle]
      split
      · trivial
      · exact issues_answer ((reconcileAccountSplits_issues as).mono fun _ h => .inr h.amending)
    | batchReconcile ss =>
      exact issues_answer ((batchReconcileSplits_issues ss).mono fun _ h => .inr h.amending)
    | toggleAcknowledge s st => exact issues_answer (toggleSplitAcknowledge_issues s st)
    | _ => exact absurd hamends (by simp [Request.amends])

/-- **What a request issues.** -/
theorem handle_issued (cfg : PlaidConfig) (req : Request) :
    (handle cfg book req).Issues (Issued book) := by
  cases hposts : req.posts with
  | false => exact (handle_quiet cfg req hposts).mono fun _ hq => .inl hq
  | true =>
    cases req with
    | createTransaction req => exact issues_answer (createTransaction_issues _)
    | updateTransaction id req => exact issues_answer (updateTransaction_issues id req)
    | importJson file =>
      cases file with
      | none => trivial
      | some file => exact issues_answer ((performImport_issues file).mono fun _ h => h.issued)
    | importCsv account file =>
      simp only [handle]
      split
      · trivial
      · cases file with
        | invalid => trivial
        | noRecords => trivial
        | rows rs => exact issues_answer (csvLoop_issues account rs)
    | importGnuCash file =>
      cases file with
      | none => trivial
      | some file =>
        exact issues_answer (issues_bind ((autoBackup_issues _).mono fun _ h => h.issued) fun _ =>
          (performImport_issues file).mono fun _ h => h.issued)
    | factoryReset => exact issues_answer handleFactoryReset_issues
    | createSnapshot label =>
      exact issues_answer ((takeSnapshotForBook_issues _ _).mono fun _ h => h.issued)
    | restoreSnapshot id =>
      exact issues_answer (issues_bind (Issues.issued (Issues.steady (getSnapshot_issues id)))
        fun snap => issues_bind ((autoBackup_issues _).mono fun _ h => h.issued) fun _ =>
          (performImport_issues snap.data).mono fun _ h => h.issued)
    | plaidImport rows =>
      simp only [handle]
      split
      · trivial
      · split
        · trivial
        · exact issues_answer (importLoop_issues _ rows)
    | _ => exact absurd hposts (by simp [Request.posts])

/-- What an event issues. -/
theorem event_issued (e : Event) : e.call.Issues fun q => ∃ book, Issued book q := by
  cases e with
  | signUp email name =>
    exact issues_answer ((registerUser_issues email name).mono fun _ ⟨book, h⟩ => ⟨book, .inl h.quiet⟩)
  | request cfg book req => exact (handle_issued cfg req).mono fun _ h => ⟨book, h⟩
  | scheduled book label trigger =>
    exact issues_answer ((takeSnapshotForBook_issues label trigger).mono fun _ h => ⟨book, h.issued⟩)
  | purge => exact issues_exec ⟨0, .inl (ByRef.quiet .purge)⟩ fun _ => trivial

end Antimoney
