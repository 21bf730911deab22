import Antimoney.Issued

/-!
# What each write does

One lemma for each statement that writes: the state it leaves, as the state it met with one table
changed. It is about `Stmt.write`, so it holds of the statement when it runs (`Stmt.write_self`)
and of its replay at commit.

* `isAccount`, `isTransaction`, `isItem`, `atVersion`, `sameItem`, `itemAt`: the rows a write
  matches.
-/

namespace Antimoney

open Antimoney.Lib

variable {book : Guid} {env : Env} {v x y : Db}

theorem ok_of_ok_map {β : Type} {q : Except SqlErr (β × Db)} {y : Db}
    (h : q.map Prod.snd = .ok y) : ∃ b, q = .ok (b, y) := by
  obtain ⟨⟨b, y'⟩, hb, rfl⟩ := ok_map h
  exact ⟨b, hb⟩

/-! ## Accounts -/

theorem insertAccountStmt_ok {a : Account} (h : (insertAccountStmt a).write env v x = .ok y) :
    y = { x with accounts := x.accounts ++ [{ a with plaid := none }] } := by
  obtain ⟨_, hb⟩ := ok_of_ok_map h
  obtain ⟨_, hi, he⟩ := ok_map (ok_of_failing hb)
  obtain ⟨-, rfl⟩ := Prod.mk.inj he
  exact (Db.insertAccount_ok hi).2

theorem createAccountStmt_ok {p : Option GuidText} {a : Account}
    (h : (createAccountStmt p a).write env v x = .ok y) :
    ∃ g, y = { x with accounts := x.accounts ++ [{ a with parentGuid := g, plaid := none }] } := by
  obtain ⟨_, hb⟩ := ok_of_ok_map h
  obtain ⟨g, -, hb⟩ := ok_bind (ok_of_failing hb)
  obtain ⟨_, hi, hb⟩ := ok_bind hb
  obtain ⟨-, rfl⟩ := Prod.mk.inj (Except.ok.inj hb)
  exact ⟨g, (Db.insertAccount_ok hi).2⟩

theorem insertSeedAccountStmt_ok {d : AcctDef} {p : Option Guid} {ph : Bool}
    (h : (insertSeedAccountStmt book d p ph).write env v x = .ok y) :
    ∃ a, a.bookGuid = book ∧ a.plaid = none ∧ y = { x with accounts := x.accounts ++ [a] } := by
  obtain ⟨_, hb⟩ := ok_of_ok_map h
  obtain ⟨_, hi, hb⟩ := ok_bind (ok_of_failing hb)
  obtain ⟨-, rfl⟩ := Prod.mk.inj (Except.ok.inj hb)
  exact ⟨_, rfl, rfl, (Db.insertAccount_ok hi).2⟩

theorem insertImportAccount_ok {a : ImportAccount}
    (h : (insertImportAccount book a).write env v x = .ok y) :
    ∃ now, y = { x with accounts := x.accounts ++
      [{ guid := a.guid, name := a.src.name, accountType := a.src.accountType, parentGuid := none,
         bookGuid := book, placeholder := a.src.placeholder, description := a.src.description,
         plaid := none, version := 1, createdAt := now, updatedAt := now }] } := by
  obtain ⟨_, hb⟩ := ok_of_ok_map h
  obtain ⟨_, hi, hb⟩ := ok_bind (ok_of_failing hb)
  obtain ⟨-, rfl⟩ := Prod.mk.inj (Except.ok.inj hb)
  exact ⟨_, (Db.insertAccount_ok hi).2⟩

/-- The account of the book under `guid`. -/
def isAccount (guid book : Guid) (a : Account) : Bool := a.guid == guid && a.bookGuid == book

theorem updateHierarchy_ok {a : Guid} {p : GuidText}
    (h : (updateHierarchy book a p).write env v x = .ok y) :
    ∃ g, p.parse = .ok g ∧ y = { x with
      accounts := updateWhere (isAccount a book) (fun a => { a with parentGuid := some g })
        x.accounts } := by
  obtain ⟨_, hb⟩ := ok_of_ok_map h
  obtain ⟨g, hg, hb⟩ := ok_bind (ok_of_failing hb)
  obtain ⟨-, hb⟩ := require_bind hb
  exact ⟨g, hg, (Prod.mk.inj (Except.ok.inj hb)).2.symm⟩

/-- The rows an `UPDATE` of `UpdateAccount` matches. -/
def atVersion (guid book : Guid) (version : Int) (a : Account) : Bool :=
  a.guid == guid && (a.version : Int) == version && a.bookGuid == book

theorem updateAccountStmt_sem {account : GuidText} {req : UpdateAccountRequest} {now : Time}
    {n : Nat} (h : (updateAccountStmt account book req now).sem env x = .ok (n, y)) :
    ∃ g p, account.parse = .ok g ∧ n = x.accounts.countP (atVersion g book req.version) ∧
      y = { x with
        accounts := updateWhere (atVersion g book req.version) (req.apply p now) x.accounts } := by
  obtain ⟨g, hg, hb⟩ := ok_bind (ok_of_failing h)
  obtain ⟨p, -, hb⟩ := ok_bind hb
  refine ⟨g, p, hg, ?_⟩
  dsimp only at hb
  split at hb
  · obtain ⟨-, hb⟩ := require_bind hb
    obtain ⟨-, hb⟩ := require_bind hb
    obtain ⟨rfl, rfl⟩ := Prod.mk.inj (Except.ok.inj hb)
    exact ⟨rfl, rfl⟩
  · -- no row matches, so the update changes none
    rename_i hno
    obtain ⟨rfl, rfl⟩ := Prod.mk.inj (Except.ok.inj hb)
    have hno' : ∀ a ∈ x.accounts, atVersion g book req.version a = false := by
      simpa [atVersion] using hno
    refine ⟨(List.countP_eq_zero.mpr fun a ha => by simp [hno' a ha]).symm, ?_⟩
    have hnone : updateWhere (atVersion g book req.version) (req.apply p now) x.accounts =
        updateWhere (fun _ => false) (req.apply p now) x.accounts := updateWhere_congr hno'
    rw [hnone]
    simp [updateWhere]

/-- The update finds no row, or it changes one to an account of the request, whose parent is there. -/
theorem updateAccountStmt_cases {account : GuidText} {req : UpdateAccountRequest} {now : Time}
    {n : Nat} (h : (updateAccountStmt account book req now).sem env x = .ok (n, y)) :
    y = x ∨ ∃ g p, account.parse = .ok g ∧ parseRef req.parentGuid = .ok p ∧
      x.accounts.any (atVersion g book req.version) = true ∧ x.refOk p = true ∧
      y = { x with
        accounts := updateWhere (atVersion g book req.version) (req.apply p now) x.accounts } := by
  obtain ⟨g, hg, hb⟩ := ok_bind (ok_of_failing h)
  obtain ⟨p, hp, hb⟩ := ok_bind hb
  dsimp only at hb
  split at hb
  · rename_i hhit
    obtain ⟨-, hb⟩ := require_bind hb
    obtain ⟨href, hb⟩ := require_bind hb
    exact .inr ⟨g, p, hg, hp, hhit, href, (Prod.mk.inj (Except.ok.inj hb)).2.symm⟩
  · exact .inl (Prod.mk.inj (Except.ok.inj hb)).2.symm

theorem updateAccountStmt_ok {account : GuidText} {req : UpdateAccountRequest} {now : Time}
    (h : (updateAccountStmt account book req now).write env v x = .ok y) :
    ∃ g p, account.parse = .ok g ∧ y = { x with
      accounts := updateWhere (atVersion g book req.version) (req.apply p now) x.accounts } := by
  obtain ⟨_, hb⟩ := ok_of_ok_map h
  obtain ⟨g, p, hg, -, hy⟩ := updateAccountStmt_sem hb
  exact ⟨g, p, hg, hy⟩

theorem deleteAccountStmt_ok {account : GuidText}
    (h : (deleteAccountStmt account book).write env v x = .ok y) :
    ∃ g, account.parse = .ok g ∧
      y = { x with accounts := deleteWhere (isAccount g book) x.accounts } := by
  obtain ⟨_, hb⟩ := ok_of_ok_map h
  obtain ⟨g, hg, hb⟩ := ok_bind (ok_of_failing hb)
  exact ⟨g, hg, (Db.deleteAccounts_ok hb).1⟩

theorem deleteBookAccounts_ok (h : (deleteBookAccounts book).write env v x = .ok y) :
    y = { x with accounts :=
      deleteWhere (chosen Account.guid (·.bookGuid == book) v.accounts) x.accounts } := by
  obtain ⟨⟨n, y'⟩, hb, rfl⟩ := ok_map h
  exact (Db.deleteAccounts_ok hb).1

theorem writeLastSynced_ok {item : GuidText} {now : Time}
    (h : (writeLastSynced book item now).write env v x = .ok y) :
    y = { x with
      accounts := updateWhere (fun a => a.bookGuid == book && a.linkedTo item)
        (fun a => { a with
          plaid := a.plaid.map fun l => { l with lastSyncedAt := some now }
          version := a.version + 1
          updatedAt := now }) x.accounts } := by
  obtain ⟨_, hb⟩ := ok_of_ok_map h
  exact (Prod.mk.inj (Except.ok.inj (ok_of_failing hb))).2.symm

theorem updateLinkStmt_ok {account : GuidText} {link : PlaidLink}
    (h : (updateLinkStmt book account link).write env v x = .ok y) :
    ∃ g now, account.parse = .ok g ∧
      (x.accounts.any (isAccount g book) = true → ∀ a ∈ x.accounts, a.bookGuid = book →
        a.guid ≠ g → ∀ l, a.plaid = some l → l.accountId ≠ link.accountId) ∧
      y = { x with
        accounts := updateWhere (isAccount g book)
          (fun a => { a with plaid := some link, updatedAt := now, version := a.version + 1 })
          x.accounts } := by
  obtain ⟨_, hb⟩ := ok_of_ok_map h
  obtain ⟨g, hg, hb⟩ := ok_bind (ok_of_failing hb)
  obtain ⟨hu, hb⟩ := require_bind hb
  refine ⟨g, env.now, hg, fun hany a ha hbook hne l hl he => ?_, ?_⟩
  · have hany' : (x.accounts.any fun a => a.guid == g && a.bookGuid == book) = true := hany
    rw [hany', Bool.not_true, Bool.false_or, Bool.not_eq_true', List.any_eq_false] at hu
    exact hu a ha (by simp [hbook, hne, hl, he])
  · exact (Prod.mk.inj (Except.ok.inj hb)).2.symm

theorem clearLinks_ok {item : GuidText} (h : (clearLinks book item).write env v x = .ok y) :
    y = x.unlink (chosen Account.guid (fun a => a.bookGuid == book && a.linkedTo item) v.accounts)
      env.now :=
  (Except.ok.inj h).symm

/-! ## Transactions and splits -/

theorem updateTransactionStmt_ok {tx : Guid} {customId : String} {postDate now : Time}
    {description : String}
    (h : (updateTransactionStmt tx book customId postDate description now).write env v x = .ok y) :
    y = { x with
      transactions := updateWhere (isTransaction tx book)
        (fun t => { t with
          customId := customId
          postDate := postDate
          description := description
          version := t.version + 1
          updatedAt := now }) x.transactions } := by
  obtain ⟨_, hb⟩ := ok_of_ok_map h
  obtain ⟨-, hb⟩ := require_bind (ok_of_failing hb)
  exact (Prod.mk.inj (Except.ok.inj hb)).2.symm

theorem deleteSplitsOf_ok {tx : Guid} (h : (deleteSplitsOf tx).write env v x = .ok y) :
    y = { x with splits := deleteWhere (chosen Split.guid (·.txGuid == tx) v.splits) x.splits } :=
  (Except.ok.inj h).symm

theorem insertSplitStmt_ok {account : GuidText} {sp : Split}
    (h : (insertSplitStmt account sp).write env v x = .ok y) :
    ∃ g, y = { x with splits := x.splits ++ [{ sp with accountGuid := g }] } := by
  obtain ⟨_, hb⟩ := ok_of_ok_map h
  obtain ⟨g, -, hb⟩ := ok_bind (ok_of_failing hb)
  obtain ⟨db, hi, hb⟩ := ok_bind hb
  refine ⟨g, ?_⟩
  rw [← (Prod.mk.inj (Except.ok.inj hb)).2]
  exact (Db.insertSplit_ok hi).2

theorem deleteBookSplits_ok (h : (deleteBookSplits book).write env v x = .ok y) :
    y = { x with
      splits := deleteWhere (chosen Split.guid (v.splitInBook book) v.splits) x.splits } :=
  (Except.ok.inj h).symm

theorem deleteBookTransactions_ok (h : (deleteBookTransactions book).write env v x = .ok y) :
    y = (x.deleteTransactions (chosen Transaction.guid (·.bookGuid == book) v.transactions)).2 :=
  (Except.ok.inj h).symm

theorem insertImportTransaction_ok {t : ImportTransaction}
    (h : (insertImportTransaction book t).write env v x = .ok y) :
    ∃ post enter now, t.src.postDate = some post ∧ t.src.enterDate = some enter ∧
      y = { x with transactions := x.transactions ++
        [{ guid := t.guid, customId := "", bookGuid := book, postDate := post, enterDate := enter,
           description := t.src.description, plaidTxnId := none, version := 1, createdAt := now,
           updatedAt := now }] } := by
  obtain ⟨_, hb⟩ := ok_of_ok_map h
  obtain ⟨post, hp, hb⟩ := ok_bind (ok_of_failing hb)
  obtain ⟨enter, he, hb⟩ := ok_bind hb
  obtain ⟨_, hi, hb⟩ := ok_bind hb
  obtain ⟨-, rfl⟩ := Prod.mk.inj (Except.ok.inj hb)
  have htime : ∀ {o : Option Time} {t : Time}, parseTime o = .ok t → o = some t := by
    intro o t ht
    cases o with
    | none => exact absurd ht (by simp [parseTime])
    | some t' => exact congrArg some (Except.ok.inj ht)
  exact ⟨post, enter, env.now, htime hp, htime he, (Db.insertTransaction_ok hi).2⟩

theorem insertImportSplit_ok {tx : Guid} {s : ImportSplit}
    (h : (insertImportSplit tx s).write env v x = .ok y) :
    ∃ g now, s.accountGuid.parse = .ok g ∧ y = { x with splits := x.splits ++
      [{ guid := s.guid, txGuid := tx, accountGuid := g, memo := s.src.memo,
         valueNum := s.src.valueNum, valueDenom := s.src.valueDenom,
         quantityNum := s.src.quantityNum, quantityDenom := s.src.quantityDenom,
         reconcileState := s.src.reconcileState, createdAt := now }] } := by
  obtain ⟨_, hb⟩ := ok_of_ok_map h
  obtain ⟨g, hg, hb⟩ := ok_bind (ok_of_failing hb)
  obtain ⟨_, hi, hb⟩ := ok_bind hb
  obtain ⟨-, rfl⟩ := Prod.mk.inj (Except.ok.inj hb)
  exact ⟨g, env.now, hg, (Db.insertSplit_ok hi).2⟩

/-! ## Books -/

theorem setBookRoot_ok {root : Option Guid} (h : (setBookRoot book root).write env v x = .ok y) :
    (x.hasBook book = true → x.refOk root = true) ∧ y = { x with
      books := updateWhere (·.guid == book) (fun b => { b with rootAccountGuid := root })
        x.books } := by
  obtain ⟨_, hb⟩ := ok_of_ok_map h
  obtain ⟨hr, hb⟩ := require_bind (ok_of_failing hb)
  refine ⟨fun hbook => ?_, (Prod.mk.inj (Except.ok.inj hb)).2.symm⟩
  rw [hbook] at hr
  exact hr

/-! ## Items -/

/-- The item of the book under `guid`. -/
def isItem (guid book : Guid) (p : PlaidItem) : Bool := p.guid == guid && p.bookGuid == book

theorem resealStmt_ok {item : GuidText} {c : Ciphertext} {n : Nonce} {version : Nat}
    (h : (resealStmt book item c n version).write env v x = .ok y) :
    ∃ g now, item.parse = .ok g ∧ y = { x with
      items := updateWhere (fun p => isItem g book p && p.version == version)
        (fun p => { p with ciphertext := c, nonce := n, updatedAt := now, version := p.version + 1 })
        x.items } := by
  obtain ⟨_, hb⟩ := ok_of_ok_map h
  obtain ⟨g, hg, hb⟩ := ok_bind (ok_of_failing hb)
  exact ⟨g, env.now, hg, (Prod.mk.inj (Except.ok.inj hb)).2.symm⟩

theorem writeCursor_ok {item : GuidText} {cursor : Cursor} {now : Time}
    (h : (writeCursor book item cursor now).write env v x = .ok y) :
    ∃ g, item.parse = .ok g ∧ y = { x with
      items := updateWhere (isItem g book)
        (fun p => { p with
          syncCursor := some cursor
          lastSyncedAt := some now
          updatedAt := now
          version := p.version + 1 }) x.items } := by
  obtain ⟨_, hb⟩ := ok_of_ok_map h
  obtain ⟨g, hg, hb⟩ := ok_bind (ok_of_failing hb)
  exact ⟨g, hg, (Prod.mk.inj (Except.ok.inj hb)).2.symm⟩

theorem updateImportPending_ok {item : GuidText} {b : Bool}
    (h : (updateImportPending book item b).write env v x = .ok y) :
    ∃ g now, item.parse = .ok g ∧ y = { x with
      items := updateWhere (isItem g book)
        (fun p => { p with importPending := b, updatedAt := now }) x.items } := by
  obtain ⟨_, hb⟩ := ok_of_ok_map h
  obtain ⟨g, hg, hb⟩ := ok_bind (ok_of_failing hb)
  exact ⟨g, env.now, hg, (Prod.mk.inj (Except.ok.inj hb)).2.symm⟩

/-- The row an upsert of `new` conflicts with. -/
def sameItem (new p : PlaidItem) : Bool := p.bookGuid == new.bookGuid && p.itemId == new.itemId

theorem upsertItemStmt_ok {new : PlaidItem} {token : Token}
    (h : (upsertItemStmt new token).write env v x = .ok y) :
    (y = { x with
      items := updateWhere (sameItem new)
        (fun p => { p with
          institutionName := new.institutionName
          ciphertext := new.ciphertext
          nonce := new.nonce
          updatedAt := new.updatedAt
          version := p.version + 1 }) x.items }) ∨
    (x.items.find? (sameItem new) = none ∧ x.hasItem new.guid = false ∧
      y = { x with items := x.items ++ [new] }) := by
  obtain ⟨_, hb⟩ := ok_of_ok_map h
  have hb := ok_of_failing hb
  dsimp only at hb
  split at hb
  · exact .inl (Prod.mk.inj (Except.ok.inj hb)).2.symm
  · rename_i hnone
    obtain ⟨hpk, hb⟩ := require_bind hb
    obtain ⟨-, hb⟩ := require_bind hb
    rw [Bool.not_eq_true'] at hpk
    exact .inr ⟨hnone, hpk, (Prod.mk.inj (Except.ok.inj hb)).2.symm⟩

/-- The rows `DELETE FROM plaid_items` matches, at a version if one is given. -/
def itemAt (guid book : Guid) (version : Option Nat) (p : PlaidItem) : Bool :=
  p.guid == guid && p.bookGuid == book && version.all (· == p.version)

theorem deleteItemStmt_ok {item : Guid} {version : Option Nat}
    (h : (deleteItemStmt item book version).write env v x = .ok y) :
    y = (x.deleteItems (itemAt item book version)).2 := by
  obtain ⟨_, hb⟩ := ok_of_ok_map h
  exact (congrArg Prod.snd (Except.ok.inj (ok_of_failing hb))).symm

theorem archiveItem_ok {item : Guid} {version : Nat}
    (h : (archiveItem item book version).write env v x = .ok y) :
    y = { x with
      audit := x.audit ++ (v.items.filter fun p => isItem item book p && p.version == version).map
        (Audit.mk "force-disconnect") } :=
  (Except.ok.inj h).symm

/-! ## Advisory locks -/

theorem tryAdvisoryLock_ok {item : GuidText}
    (h : (tryAdvisoryLock item).write env v x = .ok y) :
    (x.locks.contains item = true ∧ y = x) ∨
      (x.locks.contains item = false ∧ y = { x with locks := item :: x.locks }) := by
  obtain ⟨_, hb⟩ := ok_of_ok_map h
  have hb := ok_of_failing hb
  dsimp only at hb
  split at hb
  · rename_i hc
    exact .inl ⟨hc, (Prod.mk.inj (Except.ok.inj hb)).2.symm⟩
  · rename_i hc
    exact .inr ⟨by simpa using hc, (Prod.mk.inj (Except.ok.inj hb)).2.symm⟩

theorem advisoryUnlock_ok {item : GuidText} (h : (advisoryUnlock item).write env v x = .ok y) :
    y = { x with locks := x.locks.erase item } :=
  (Except.ok.inj h).symm

/-! ## Staging -/

theorem upsertStaged_ok {item : GuidText} {txn : PlaidTxn} {d : Bool}
    (h : (upsertStaged book item txn d).write env v x = .ok y) :
    ∃ g now, item.parse = .ok g ∧ x.hasItem g = true ∧
      y = { x with staged := upsertStagedRow (txn.staged book g d now) x.staged } := by
  obtain ⟨_, hb⟩ := ok_of_ok_map h
  obtain ⟨g, hg, hb⟩ := ok_bind (ok_of_failing hb)
  obtain ⟨-, hb⟩ := require_bind hb
  obtain ⟨hi, hb⟩ := require_bind hb
  rw [Bool.and_eq_true] at hi
  exact ⟨g, env.now, hg, hi.2, (Prod.mk.inj (Except.ok.inj hb)).2.symm⟩

theorem dropReplaced_ok {ids : List String} (h : (dropReplaced book ids).write env v x = .ok y) :
    y = { x with staged := deleteWhere (stagedIn book ids) x.staged } := by
  obtain ⟨_, hb⟩ := ok_of_ok_map h
  exact (Prod.mk.inj (Except.ok.inj (ok_of_failing hb))).2.symm

theorem dropUndismissed_ok {ids : List String}
    (h : (dropUndismissed book ids).write env v x = .ok y) :
    y = { x with
      staged := deleteWhere (fun st => stagedIn book ids st && !st.dismissed) x.staged } := by
  obtain ⟨_, hb⟩ := ok_of_ok_map h
  exact (Prod.mk.inj (Except.ok.inj (ok_of_failing hb))).2.symm

theorem dismissStagedStmt_ok {ids : List String}
    (h : (dismissStagedStmt book ids).write env v x = .ok y) :
    y = { x with
      staged := updateWhere (stagedIn book ids) (fun st => { st with dismissed := true })
        x.staged } := by
  obtain ⟨_, hb⟩ := ok_of_ok_map h
  exact (Prod.mk.inj (Except.ok.inj (ok_of_failing hb))).2.symm

theorem deleteStagedStmt_ok {id : String} (h : (deleteStagedStmt book id).write env v x = .ok y) :
    y = { x with staged := deleteWhere (stagedIn book [id]) x.staged } := by
  obtain ⟨_, hb⟩ := ok_of_ok_map h
  exact (Prod.mk.inj (Except.ok.inj (ok_of_failing hb))).2.symm

/-! ## Snapshots -/

theorem deleteSnapshotStmt_ok {id : GuidText}
    (h : (deleteSnapshotStmt id book).write env v x = .ok y) :
    ∃ g, id.parse = .ok g ∧ y = { x with
      snapshots := deleteWhere (fun s => s.id == g && s.bookGuid == book) x.snapshots } := by
  obtain ⟨_, hb⟩ := ok_of_ok_map h
  obtain ⟨g, hg, hb⟩ := ok_bind (ok_of_failing hb)
  exact ⟨g, hg, (Prod.mk.inj (Except.ok.inj hb)).2.symm⟩

theorem rotateActive_ok (h : (rotateActive book).write env v x = .ok y) :
    y = { x with
      snapshots := deleteWhere (fun s => x.oldestActive book == some s.id) x.snapshots } := by
  obtain ⟨_, hb⟩ := ok_of_ok_map h
  exact (Prod.mk.inj (Except.ok.inj (ok_of_failing hb))).2.symm

theorem purgeStmt_ok (h : purgeStmt.write env v x = .ok y) :
    ∃ c, y = { x with snapshots := deleteWhere c x.snapshots } := by
  obtain ⟨_, hb⟩ := ok_of_ok_map h
  exact ⟨_, (Prod.mk.inj (Except.ok.inj (ok_of_failing hb))).2.symm⟩

theorem insertSnapshotStmt_ok {label : String} {trigger : SnapshotTrigger} {data : ExportData}
    (h : (insertSnapshotStmt book label trigger data).write env v x = .ok y) :
    y = { x with
      snapshots := x.snapshots ++ [{ id := env.guid, bookGuid := book, label := label,
                                     trigger := trigger, data := data, createdAt := env.now }] } := by
  obtain ⟨_, hb⟩ := ok_of_ok_map h
  obtain ⟨-, hb⟩ := require_bind (ok_of_failing hb)
  exact (Prod.mk.inj (Except.ok.inj hb)).2.symm

/-! ## What a steady write does to the ledger's tables -/

/-- The same account, but for its bank link and its version. -/
structure SameAccount (a b : Account) : Prop where
  guid : b.guid = a.guid
  bookGuid : b.bookGuid = a.bookGuid
  parentGuid : b.parentGuid = a.parentGuid
  placeholder : b.placeholder = a.placeholder

theorem SameAccount.refl (a : Account) : SameAccount a a := ⟨rfl, rfl, rfl, rfl⟩

/-- Nothing happens to accounts, transactions and splits, but for bank links and versions. -/
structure Aside (x y : Db) : Prop where
  accounts : List.Forall₂ SameAccount x.accounts y.accounts
  transactions : y.transactions = x.transactions
  splits : y.splits = x.splits

theorem Aside.of_eq (ha : y.accounts = x.accounts) (ht : y.transactions = x.transactions)
    (hs : y.splits = x.splits) : Aside x y :=
  ⟨ha ▸ List.forall₂_same.mpr fun a _ => .refl a, ht, hs⟩

theorem Aside.updateAccounts {c : Account → Bool} {f : Account → Account}
    (hf : ∀ a, SameAccount a (f a)) :
    Aside x { x with accounts := updateWhere c f x.accounts } :=
  ⟨forall₂_updateWhere (fun a _ _ => hf a) fun a _ _ => .refl a, rfl, rfl⟩

/-- The four things a steady write does. -/
inductive Touches (x : Db) : Db → Prop
  | aside {y : Db} (h : Aside x y) : Touches x y
  | account {a : Account} {y : Db} (h : x.insertAccount a = .ok y) : Touches x y
  | drop {c : Account → Bool} {n : Nat} {y : Db} (h : x.deleteAccounts c = .ok (n, y)) :
      Touches x y
  | delete (c : Transaction → Bool) : Touches x (x.deleteTransactions c).2

/-- The amounts the bank reported are in cents. -/
def Db.Cents (db : Db) : Prop := ∀ st ∈ db.staged, st.amountDenom = 100

/-- What a steady write leaves: the tables of the ledger touched in one way, amounts in cents, no
new snapshot. -/
structure Touched (x y : Db) : Prop where
  touches : Touches x y
  cents : x.Cents → y.Cents
  snapshots : ∀ s ∈ y.snapshots, s ∈ x.snapshots

/-- Staging and snapshots are left alone. -/
theorem Touches.touched (h : Touches x y) (hst : y.staged = x.staged)
    (hsn : y.snapshots = x.snapshots) : Touched x y :=
  ⟨h, fun hc st m => hc st (hst ▸ m), fun _ m => hsn ▸ m⟩

/-- Only other tables change. -/
theorem Touched.of_eq (ha : y.accounts = x.accounts) (ht : y.transactions = x.transactions)
    (hs : y.splits = x.splits) (hst : y.staged = x.staged) (hsn : y.snapshots = x.snapshots) :
    Touched x y :=
  Touches.touched (.aside (.of_eq ha ht hs)) hst hsn

/-- Only the bank links of accounts change. -/
theorem Touched.updateAccounts {c : Account → Bool} {f : Account → Account}
    (hf : ∀ a, SameAccount a (f a)) :
    Touched x { x with accounts := updateWhere c f x.accounts } :=
  Touches.touched (.aside (.updateAccounts hf)) rfl rfl

/-- Staged rows go. -/
theorem Touched.unstage (c : Staged → Bool) : Touched x { x with staged := deleteWhere c x.staged } :=
  ⟨.aside (.of_eq rfl rfl rfl), fun hc st m => hc st (mem_deleteWhere.mp m).1, fun _ m => m⟩

/-- Snapshots go. -/
theorem Touched.forget (c : Snapshot → Bool) :
    Touched x { x with snapshots := deleteWhere c x.snapshots } :=
  ⟨.aside (.of_eq rfl rfl rfl), id, fun _ m => (mem_deleteWhere.mp m).1⟩

theorem Db.Cents.upsert {t : List Staged} {new : Staged} (h : ∀ st ∈ t, st.amountDenom = 100)
    (hd : new.amountDenom = 100) : ∀ st ∈ upsertStagedRow new t, st.amountDenom = 100 := by
  intro st hst
  simp only [upsertStagedRow] at hst
  split at hst
  · rcases mem_updateWhere_cases hst with ⟨hst, -⟩ | ⟨x, -, -, rfl⟩
    · exact h st hst
    · exact hd
  · rcases List.mem_append.mp hst with hst | hst
    · exact h st hst
    · exact List.mem_singleton.mp hst ▸ hd

/-- **What a steady write does.** -/
theorem Write.touches {β : Type} {q : Stmt β} {b : β} (hq : Write book q)
    (hx : q.sem env x = .ok (b, y)) : Touched x y := by
  have hw := q.write_self hx
  cases hq with
  | deleteTransaction t =>
    obtain ⟨g, -, hx⟩ := ok_bind (ok_of_failing hx)
    obtain rfl := congrArg Prod.snd (Except.ok.inj hx)
    exact Touches.touched (.delete _) rfl rfl
  | deleteAccount a =>
    obtain ⟨g, -, hx⟩ := ok_bind (ok_of_failing hx)
    refine Touches.touched (.drop hx) ?_ ?_ <;> rw [(Db.deleteAccounts_ok hx).1]
  | deleteBookAccounts =>
    obtain ⟨⟨n, v''⟩, hd, he⟩ := ok_map (ok_of_failing hx)
    obtain ⟨-, rfl⟩ := Prod.mk.inj he
    refine Touches.touched (.drop hd) ?_ ?_ <;> rw [(Db.deleteAccounts_ok hd).1]
  | insertAccount a hb =>
    obtain ⟨v'', hi, he⟩ := ok_map (ok_of_failing hx)
    obtain ⟨-, rfl⟩ := Prod.mk.inj he
    refine Touches.touched (.account hi) ?_ ?_ <;> rw [(Db.insertAccount_ok hi).2]
  | createAccount p a hb =>
    obtain ⟨g, -, hx⟩ := ok_bind (ok_of_failing hx)
    obtain ⟨v'', hi, hx⟩ := ok_bind hx
    obtain ⟨-, rfl⟩ := Prod.mk.inj (Except.ok.inj hx)
    refine Touches.touched (.account hi) ?_ ?_ <;> rw [(Db.insertAccount_ok hi).2]
  | insertSeedAccount d p ph =>
    obtain ⟨v'', hi, hx⟩ := ok_bind (ok_of_failing hx)
    obtain ⟨-, rfl⟩ := Prod.mk.inj (Except.ok.inj hx)
    refine Touches.touched (.account hi) ?_ ?_ <;> rw [(Db.insertAccount_ok hi).2]
  | updateLink a l =>
    obtain ⟨g, now, -, -, rfl⟩ := updateLinkStmt_ok hw
    exact .updateAccounts fun _ => ⟨rfl, rfl, rfl, rfl⟩
  | writeLastSynced i n =>
    rw [writeLastSynced_ok hw]
    exact .updateAccounts fun _ => ⟨rfl, rfl, rfl, rfl⟩
  | clearLinks i =>
    rw [clearLinks_ok hw]
    exact .updateAccounts fun _ => ⟨rfl, rfl, rfl, rfl⟩
  | dismissStaged is =>
    rw [dismissStagedStmt_ok hw]
    refine ⟨.aside (.of_eq rfl rfl rfl), fun hc st hst => ?_, fun _ m => m⟩
    rcases mem_updateWhere_cases hst with ⟨hst, -⟩ | ⟨st₀, hst₀, -, rfl⟩
    · exact hc st hst
    · exact hc st₀ hst₀
  | dropReplaced is =>
    rw [dropReplaced_ok hw]
    exact .unstage _
  | dropUndismissed is =>
    rw [dropUndismissed_ok hw]
    exact .unstage _
  | deleteStaged i =>
    rw [deleteStagedStmt_ok hw]
    exact .unstage _
  | deleteItem i n =>
    rw [deleteItemStmt_ok hw]
    exact ⟨.aside (.of_eq rfl rfl rfl), fun hc st hst => hc st (mem_deleteWhere.mp hst).1,
      fun _ m => m⟩
  | deleteSnapshot i =>
    obtain ⟨g, -, rfl⟩ := deleteSnapshotStmt_ok hw
    exact .forget _
  | rotateActive =>
    rw [rotateActive_ok hw]
    exact .forget _
  | purge =>
    obtain ⟨c, rfl⟩ := purgeStmt_ok hw
    exact .forget _
  | archiveItem i n =>
    rw [archiveItem_ok hw]
    exact .of_eq rfl rfl rfl rfl rfl
  | advisoryUnlock i =>
    rw [advisoryUnlock_ok hw]
    exact .of_eq rfl rfl rfl rfl rfl
  | tryAdvisoryLock i =>
    rcases tryAdvisoryLock_ok hw with ⟨-, rfl⟩ | ⟨-, rfl⟩ <;> exact .of_eq rfl rfl rfl rfl rfl
  | writeCursor i c n =>
    obtain ⟨g, -, rfl⟩ := writeCursor_ok hw
    exact .of_eq rfl rfl rfl rfl rfl
  | reseal i c n w =>
    obtain ⟨g, now, -, rfl⟩ := resealStmt_ok hw
    exact .of_eq rfl rfl rfl rfl rfl
  | updateImportPending i p =>
    obtain ⟨g, now, -, rfl⟩ := updateImportPending_ok hw
    exact .of_eq rfl rfl rfl rfl rfl
  | upsertStaged i t d hd =>
    obtain ⟨g, now, -, -, rfl⟩ := upsertStaged_ok hw
    exact ⟨.aside (.of_eq rfl rfl rfl), fun hc => Db.Cents.upsert hc hd, fun _ m => m⟩
  | setBookRoot r =>
    rw [(setBookRoot_ok hw).2]
    exact .of_eq rfl rfl rfl rfl rfl
  | upsertConfig f t a =>
    obtain ⟨-, hx⟩ := require_bind (ok_of_failing hx)
    dsimp only at hx
    split at hx
    · obtain ⟨-, rfl⟩ := Prod.mk.inj (Except.ok.inj hx)
      exact .of_eq rfl rfl rfl rfl rfl
    · obtain ⟨-, hx⟩ := require_bind hx
      obtain ⟨-, rfl⟩ := Prod.mk.inj (Except.ok.inj hx)
      exact .of_eq rfl rfl rfl rfl rfl
  | upsertItem p t hb =>
    rcases upsertItemStmt_ok hw with rfl | ⟨-, -, rfl⟩ <;> exact .of_eq rfl rfl rfl rfl rfl
  | insertUser e n =>
    obtain ⟨-, hx⟩ := require_bind (ok_of_failing hx)
    obtain ⟨-, hx⟩ := require_bind hx
    obtain ⟨-, rfl⟩ := Prod.mk.inj (Except.ok.inj hx)
    exact .of_eq rfl rfl rfl rfl rfl
  | insertBook u =>
    obtain ⟨-, hx⟩ := require_bind (ok_of_failing hx)
    obtain ⟨-, rfl⟩ := Prod.mk.inj (Except.ok.inj hx)
    exact .of_eq rfl rfl rfl rfl rfl

end Antimoney
