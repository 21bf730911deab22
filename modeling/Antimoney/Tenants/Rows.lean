import Antimoney.Concurrent.Bindings
import Antimoney.Snapshots.Changes

/-!
# The rows of a book

The splits table has no book of its own, and a staged row goes with the item it names: whether a
statement under one book leaves the rows of the others alone depends on the keys.

* `SameRows`: the rows of a book are the same in two states.
* `Db.Owned`: the keys of items and snapshots, and the book of a staged row.
* **`Tends`**: the statements that see to one book only; one lemma for each that writes.
-/

namespace Antimoney

open Antimoney.Lib Prog

/-! ## Rows of one book -/

/-- The book, and the rows that belong to it, are the same in both states. -/
structure SameRows (book : Guid) (x y : Db) : Prop where
  books : y.books.filter (·.guid == book) = x.books.filter (·.guid == book)
  accounts : y.accounts.filter (·.bookGuid == book) = x.accounts.filter (·.bookGuid == book)
  transactions :
    y.transactions.filter (·.bookGuid == book) = x.transactions.filter (·.bookGuid == book)
  splits : ∀ t ∈ x.transactions, t.bookGuid = book →
    y.splits.filter (·.txGuid == t.guid) = x.splits.filter (·.txGuid == t.guid)
  snapshots : y.snapshots.filter (·.bookGuid == book) = x.snapshots.filter (·.bookGuid == book)
  configs : y.configs.filter (·.bookGuid == book) = x.configs.filter (·.bookGuid == book)
  items : y.items.filter (·.bookGuid == book) = x.items.filter (·.bookGuid == book)
  staged : y.staged.filter (·.bookGuid == book) = x.staged.filter (·.bookGuid == book)

/-- Items and snapshots have keys of their own, and a staged row names an item of its book. -/
structure Db.Owned (db : Db) : Prop where
  items : (db.items.map (·.guid)).Nodup
  snapshots : (db.snapshots.map (·.id)).Nodup
  staged : ∀ st ∈ db.staged, db.Has st.bookGuid st.itemGuid

section Rows

variable {o book : Guid} {x y z : Db}

theorem SameRows.refl (o : Guid) (x : Db) : SameRows o x x :=
  ⟨rfl, rfl, rfl, fun _ _ _ => rfl, rfl, rfl, rfl, rfl⟩

theorem SameRows.trans (h : SameRows o x y) (h' : SameRows o y z) : SameRows o x z := by
  refine ⟨h'.books.trans h.books, h'.accounts.trans h.accounts,
    h'.transactions.trans h.transactions, fun t ht ho => ?_, h'.snapshots.trans h.snapshots,
    h'.configs.trans h.configs, h'.items.trans h.items, h'.staged.trans h.staged⟩
  have hty : t ∈ y.transactions.filter (·.bookGuid == o) := by
    rw [h.transactions]
    simpa using ⟨ht, ho⟩
  exact (h'.splits t (List.mem_of_mem_filter hty) ho).trans (h.splits t ht ho)

/-- The book is exported alike. -/
theorem SameRows.exportOf (h : SameRows o x y) : y.exportOf o = x.exportOf o :=
  (SameFor.of_rows h.accounts h.transactions h.splits).exportOf

theorem Db.owned_empty : Db.empty.Owned := by
  constructor <;> simp [Db.empty]

theorem Db.Owned.of_eq (h : x.Owned) (hi : y.items = x.items) (hs : y.snapshots = x.snapshots)
    (hst : y.staged = x.staged) : y.Owned := by
  refine ⟨hi ▸ h.items, hs ▸ h.snapshots, fun st hm => ?_⟩
  obtain ⟨p, hp, hk⟩ := h.staged st (hst ▸ hm)
  exact ⟨p, hi.symm ▸ hp, hk⟩

/-! ### Tables with a book of their own -/

variable {α : Type} {key : α → Guid} {c : α → Bool} {f : α → α} {t : List α}

theorem other_update (hc : ∀ r ∈ t, c r = true → key r = book) (hf : ∀ r, key (f r) = key r)
    (ho : o ≠ book) :
    (updateWhere c f t).filter (key · == o) = t.filter (key · == o) := by
  refine filter_updateWhere fun r hr hcr => ?_
  rw [hf, hc r hr hcr]
  simpa using Ne.symm ho

theorem other_delete (hc : ∀ r ∈ t, c r = true → key r = book) (ho : o ≠ book) :
    (deleteWhere c t).filter (key · == o) = t.filter (key · == o) := by
  refine filter_deleteWhere fun r hr hcr => ?_
  rw [hc r hr hcr]
  simpa using Ne.symm ho

theorem other_append {new : List α} (hnew : ∀ r ∈ new, key r = book) (ho : o ≠ book) :
    (t ++ new).filter (key · == o) = t.filter (key · == o) := by
  have hnone : new.filter (key · == o) = [] :=
    List.filter_eq_nil_iff.mpr fun r hr => by simpa [hnew r hr] using Ne.symm ho
  rw [List.filter_append, hnone, List.append_nil]

/-! ### One table at a time -/

theorem sameRows_books {bs : List Book}
    (h : bs.filter (·.guid == o) = x.books.filter (·.guid == o)) :
    SameRows o x { x with books := bs } :=
  ⟨h, rfl, rfl, fun _ _ _ => rfl, rfl, rfl, rfl, rfl⟩

theorem sameRows_accounts {as : List Account}
    (h : as.filter (·.bookGuid == o) = x.accounts.filter (·.bookGuid == o)) :
    SameRows o x { x with accounts := as } :=
  ⟨rfl, h, rfl, fun _ _ _ => rfl, rfl, rfl, rfl, rfl⟩

theorem sameRows_splits {ss : List Split} (h : ∀ t ∈ x.transactions, t.bookGuid = o →
      ss.filter (·.txGuid == t.guid) = x.splits.filter (·.txGuid == t.guid)) :
    SameRows o x { x with splits := ss } :=
  ⟨rfl, rfl, rfl, h, rfl, rfl, rfl, rfl⟩

theorem sameRows_snapshots {ss : List Snapshot}
    (h : ss.filter (·.bookGuid == o) = x.snapshots.filter (·.bookGuid == o)) :
    SameRows o x { x with snapshots := ss } :=
  ⟨rfl, rfl, rfl, fun _ _ _ => rfl, h, rfl, rfl, rfl⟩

theorem sameRows_configs {cs : List SnapshotConfig}
    (h : cs.filter (·.bookGuid == o) = x.configs.filter (·.bookGuid == o)) :
    SameRows o x { x with configs := cs } :=
  ⟨rfl, rfl, rfl, fun _ _ _ => rfl, rfl, h, rfl, rfl⟩

theorem sameRows_items {ps : List PlaidItem}
    (h : ps.filter (·.bookGuid == o) = x.items.filter (·.bookGuid == o)) :
    SameRows o x { x with items := ps } :=
  ⟨rfl, rfl, rfl, fun _ _ _ => rfl, rfl, rfl, h, rfl⟩

theorem sameRows_staged {sts : List Staged}
    (h : sts.filter (·.bookGuid == o) = x.staged.filter (·.bookGuid == o)) :
    SameRows o x { x with staged := sts } :=
  ⟨rfl, rfl, rfl, fun _ _ _ => rfl, rfl, rfl, rfl, h⟩

/-- The key tells a transaction from those of another book. -/
theorem Db.Keyed.guid_ne (hk : x.Keyed) (ho : o ≠ book) {t t' : Transaction}
    (ht : t ∈ x.transactions) (ht' : t' ∈ x.transactions) (hb : t.bookGuid = o)
    (hb' : t'.bookGuid = book) : t'.guid ≠ t.guid := by
  intro he
  have hsame : t' = t := List.inj_on_of_nodup_map hk.transactions ht' ht he
  rw [hsame] at hb'
  exact ho (hb.symm.trans hb')

/-- Splits of transactions of the book. -/
theorem sameRows_splits_of {c : Split → Bool} {f : Split → Split} (hk : x.Keyed) (ho : o ≠ book)
    (hc : ∀ sp ∈ x.splits, c sp = true → x.splitInBook book sp = true)
    (hf : ∀ sp, (f sp).txGuid = sp.txGuid) :
    SameRows o x { x with splits := updateWhere c f x.splits } ∧
      SameRows o x { x with splits := deleteWhere c x.splits } := by
  have hne : ∀ t ∈ x.transactions, t.bookGuid = o → ∀ sp ∈ x.splits, c sp = true →
      (sp.txGuid == t.guid) = false := by
    intro t ht hto sp hsp hcs
    obtain ⟨t', ht', hin⟩ := List.any_eq_true.mp (hc sp hsp hcs)
    simp only [Bool.and_eq_true, beq_iff_eq] at hin
    rw [← hin.1]
    exact beq_eq_false_iff_ne.mpr (hk.guid_ne ho ht ht' hto hin.2)
  constructor
  · refine sameRows_splits fun t ht hto => filter_updateWhere fun sp hsp hcs => ?_
    rw [hf]
    exact ⟨hne t ht hto sp hsp hcs, hne t ht hto sp hsp hcs⟩
  · exact sameRows_splits fun t ht hto => filter_deleteWhere fun sp hsp hcs =>
      hne t ht hto sp hsp hcs

/-- Transactions of the book go, with their splits. -/
theorem sameRows_deleteTransactions {c : Transaction → Bool} (hk : x.Keyed) (ho : o ≠ book)
    (hc : ∀ t ∈ x.transactions, c t = true → t.bookGuid = book) :
    SameRows o x (x.deleteTransactions c).2 := by
  refine ⟨rfl, rfl, other_delete hc ho, fun t ht hto => ?_, rfl, rfl, rfl, rfl⟩
  refine filter_deleteWhere fun sp _ hgone => ?_
  obtain ⟨t', ht', he⟩ := List.any_eq_true.mp hgone
  obtain ⟨ht', hct⟩ := List.mem_filter.mp ht'
  rw [← beq_iff_eq.mp he]
  exact beq_eq_false_iff_ne.mpr (hk.guid_ne ho ht ht' hto (hc t' ht' hct))

/-- An item of the book goes, with its staged rows. -/
theorem sameRows_deleteItems {c : PlaidItem → Bool} (hown : x.Owned) (ho : o ≠ book)
    (hc : ∀ p ∈ x.items, c p = true → p.bookGuid = book) : SameRows o x (x.deleteItems c).2 := by
  refine ⟨rfl, rfl, rfl, fun _ _ _ => rfl, rfl, rfl, other_delete hc ho, ?_⟩
  refine filter_deleteWhere fun st hst hgone => ?_
  obtain ⟨p, hp, he⟩ := List.any_eq_true.mp hgone
  obtain ⟨hp, hcp⟩ := List.mem_filter.mp hp
  obtain ⟨q, hq, hqg, hqb⟩ := hown.staged st hst
  have hsame : p = q :=
    List.inj_on_of_nodup_map hown.items hp hq ((beq_iff_eq.mp he).trans hqg.symm)
  rw [← hqb, ← hsame, hc p hp hcp]
  simpa using Ne.symm ho

theorem owned_deleteItems (hown : x.Owned) (c : PlaidItem → Bool) : (x.deleteItems c).2.Owned := by
  refine ⟨nodup_deleteWhere c hown.items, hown.snapshots, fun st hst => ?_⟩
  obtain ⟨hst, hkept⟩ := mem_deleteWhere.mp hst
  obtain ⟨p, hp, hpg, hpb⟩ := hown.staged st hst
  refine ⟨p, mem_deleteWhere.mpr ⟨hp, ?_⟩, hpg, hpb⟩
  by_contra hcp
  have hgone := List.any_eq_false.mp hkept p (List.mem_filter.mpr ⟨hp, by simpa using hcp⟩)
  exact hgone (by simp [hpg])

end Rows

/-! ## Statements that see to one book -/

/-- The statement leaves the rows of other books alone, and the keys. -/
def Tends (book : Guid) {β : Type} (q : Stmt β) : Prop :=
  ∀ ⦃env : Env⦄ ⦃v v' : Db⦄ ⦃b : β⦄, machine.allowed q env v = true → v.Keyed → v.Owned →
    q.sem env v = .ok (b, v') → v'.Owned ∧ ∀ o, o ≠ book → SameRows o v v'

section Statements

variable {book : Guid} {β : Type} {q : Stmt β}

theorem Stmt.Reads.tends (h : q.Reads) : Tends book q := by
  intro env v v' b _ _ hown hx
  rw [h.sem hx]
  exact ⟨hown, fun o _ => .refl o v⟩

/-- A write, by the state it leaves. -/
theorem tends_of_write (h : ∀ ⦃env : Env⦄ ⦃v v' : Db⦄, v.Keyed → v.Owned →
      q.write env v v = .ok v' → v'.Owned ∧ ∀ o, o ≠ book → SameRows o v v') : Tends book q :=
  fun _ _ _ _ _ hk hown hx => h hk hown (q.write_self hx)

/-- Accounts of the book change. -/
theorem tended_accounts {c : Account → Bool} {f : Account → Account} {v : Db} (hown : v.Owned)
    (hc : ∀ a ∈ v.accounts, c a = true → a.bookGuid = book)
    (hf : ∀ a, (f a).bookGuid = a.bookGuid) :
    ({ v with accounts := updateWhere c f v.accounts } : Db).Owned ∧
      ∀ o, o ≠ book → SameRows o v { v with accounts := updateWhere c f v.accounts } :=
  ⟨hown.of_eq rfl rfl rfl, fun _ ho => sameRows_accounts (other_update hc hf ho)⟩

/-- An account of the book comes. -/
theorem tended_account {a : Account} {v : Db} (hown : v.Owned) (hb : a.bookGuid = book) :
    ({ v with accounts := v.accounts ++ [a] } : Db).Owned ∧
      ∀ o, o ≠ book → SameRows o v { v with accounts := v.accounts ++ [a] } := by
  refine ⟨hown.of_eq rfl rfl rfl, fun o ho => sameRows_accounts (other_append ?_ ho)⟩
  exact fun a' ha' => List.mem_singleton.mp ha' ▸ hb

/-- Accounts of the book go. -/
theorem tended_drop {c : Account → Bool} {v : Db} (hown : v.Owned)
    (hc : ∀ a ∈ v.accounts, c a = true → a.bookGuid = book) :
    ({ v with accounts := deleteWhere c v.accounts } : Db).Owned ∧
      ∀ o, o ≠ book → SameRows o v { v with accounts := deleteWhere c v.accounts } :=
  ⟨hown.of_eq rfl rfl rfl, fun _ ho => sameRows_accounts (other_delete hc ho)⟩

/-- Items of the book change. -/
theorem tended_items {c : PlaidItem → Bool} {f : PlaidItem → PlaidItem} {v : Db} (hown : v.Owned)
    (hc : ∀ p ∈ v.items, c p = true → p.bookGuid = book)
    (hf : ∀ p, (f p).guid = p.guid ∧ (f p).bookGuid = p.bookGuid) :
    ({ v with items := updateWhere c f v.items } : Db).Owned ∧
      ∀ o, o ≠ book → SameRows o v { v with items := updateWhere c f v.items } := by
  refine ⟨⟨?_, hown.snapshots, fun st hst => ?_⟩, fun o ho =>
    sameRows_items (other_update hc (fun p => (hf p).2) ho)⟩
  · exact (map_updateWhere (fun p => (hf p).1) v.items).symm ▸ hown.items
  · obtain ⟨p, hp, hg, hb⟩ := hown.staged st hst
    refine ⟨if c p then f p else p, mem_updateWhere.mpr ⟨p, hp, rfl⟩, ?_, ?_⟩
    · split
      · exact (hf p).1.trans hg
      · exact hg
    · split
      · exact (hf p).2.trans hb
      · exact hb

/-- Staged rows of the book go. -/
theorem tended_unstage {c : Staged → Bool} {v : Db} (hown : v.Owned)
    (hc : ∀ st ∈ v.staged, c st = true → st.bookGuid = book) :
    ({ v with staged := deleteWhere c v.staged } : Db).Owned ∧
      ∀ o, o ≠ book → SameRows o v { v with staged := deleteWhere c v.staged } := by
  refine ⟨⟨hown.items, hown.snapshots, fun st hst => ?_⟩, fun o ho =>
    sameRows_staged (other_delete hc ho)⟩
  exact hown.staged st (mem_deleteWhere.mp hst).1

/-- Snapshots of the book go. -/
theorem tended_forget {c : Snapshot → Bool} {v : Db} (hown : v.Owned)
    (hc : ∀ s ∈ v.snapshots, c s = true → s.bookGuid = book) :
    ({ v with snapshots := deleteWhere c v.snapshots } : Db).Owned ∧
      ∀ o, o ≠ book → SameRows o v { v with snapshots := deleteWhere c v.snapshots } := by
  refine ⟨⟨hown.items, ?_, hown.staged⟩, fun o ho => sameRows_snapshots (other_delete hc ho)⟩
  exact nodup_deleteWhere c hown.snapshots

/-- The key of the oldest active snapshot tells it. -/
theorem bookGuid_of_oldestActive {v : Db} (hown : v.Owned) {s : Snapshot} (hs : s ∈ v.snapshots)
    (ho : v.oldestActive book = some s.id) : s.bookGuid = book := by
  unfold Db.oldestActive at ho
  obtain ⟨s₀, hs₀, hid⟩ := Option.map_eq_some_iff.mp ho
  have hmem := List.mem_of_mem_head? hs₀
  rw [List.mem_insertionSort, List.mem_filter] at hmem
  have hsame : s₀ = s := List.inj_on_of_nodup_map hown.snapshots hmem.1 hs hid
  have hb := hmem.2
  rw [hsame] at hb
  simp only [Bool.and_eq_true, beq_iff_eq] at hb
  exact hb.1

theorem stagedIn_book {ids : List String} {st : Staged} (h : stagedIn book ids st = true) :
    st.bookGuid = book := by
  simp only [stagedIn, Bool.and_eq_true, beq_iff_eq] at h
  exact h.1

theorem isItem_book {g : Guid} {p : PlaidItem} (h : isItem g book p = true) :
    p.bookGuid = book := by
  simp only [isItem, Bool.and_eq_true, beq_iff_eq] at h
  exact h.2

theorem isAccount_book {g : Guid} {a : Account} (h : isAccount g book a = true) :
    a.bookGuid = book := by
  simp only [isAccount, Bool.and_eq_true, beq_iff_eq] at h
  exact h.2

theorem tends_deleteAccount (a : GuidText) : Tends book (deleteAccountStmt a book) := by
  refine tends_of_write fun env v v' _ hown hw => ?_
  obtain ⟨g, -, rfl⟩ := deleteAccountStmt_ok hw
  exact tended_drop hown fun _ _ => isAccount_book

theorem tends_deleteTransaction (t : GuidText) : Tends book (deleteTransactionStmt t book) := by
  intro env v v' b _ hk hown hx
  obtain ⟨g, -, hx⟩ := ok_bind (ok_of_failing hx)
  obtain rfl := congrArg Prod.snd (Except.ok.inj hx)
  refine ⟨hown.of_eq rfl rfl rfl, fun o ho => sameRows_deleteTransactions hk ho ?_⟩
  intro t _ ht
  simp only [Bool.and_eq_true, beq_iff_eq] at ht
  exact ht.2

theorem tends_upsertConfig (f t : Int) (a : Bool) : Tends book (upsertConfigStmt book f t a) := by
  intro env v v' b _ _ hown hx
  obtain ⟨-, hx⟩ := require_bind (ok_of_failing hx)
  dsimp only at hx
  split at hx
  · rename_i c hc
    obtain ⟨-, rfl⟩ := Prod.mk.inj (Except.ok.inj hx)
    refine ⟨hown.of_eq rfl rfl rfl, fun o ho => sameRows_configs ?_⟩
    refine filter_updateWhere fun r _ hr => ?_
    have hcb : c.bookGuid = book := by simpa using List.find?_some hc
    rw [beq_iff_eq.mp hr]
    simpa [hcb] using Ne.symm ho
  · obtain ⟨-, hx⟩ := require_bind hx
    obtain ⟨-, rfl⟩ := Prod.mk.inj (Except.ok.inj hx)
    refine ⟨hown.of_eq rfl rfl rfl, fun o ho => sameRows_configs (other_append ?_ ho)⟩
    exact fun c hc => by rw [List.mem_singleton.mp hc]

theorem tends_deleteSnapshot (i : GuidText) : Tends book (deleteSnapshotStmt i book) := by
  refine tends_of_write fun env v v' _ hown hw => ?_
  obtain ⟨g, -, rfl⟩ := deleteSnapshotStmt_ok hw
  exact tended_forget hown fun s _ hs => by simp_all

theorem tends_rotateActive : Tends book (rotateActive book) := by
  refine tends_of_write fun env v v' _ hown hw => ?_
  rw [rotateActive_ok hw]
  exact tended_forget hown fun s hs hc => bookGuid_of_oldestActive hown hs (beq_iff_eq.mp hc)

theorem tends_deleteBookAccounts : Tends book (deleteBookAccounts book) := by
  intro env v v' b _ _ hown hx
  rw [deleteBookAccounts_eq hx]
  exact tended_drop hown fun _ _ ha => beq_iff_eq.mp ha

theorem tends_dropReplaced (is : List String) : Tends book (dropReplaced book is) := by
  refine tends_of_write fun env v v' _ hown hw => ?_
  rw [dropReplaced_ok hw]
  exact tended_unstage hown fun _ _ => stagedIn_book

theorem tends_dropUndismissed (is : List String) : Tends book (dropUndismissed book is) := by
  refine tends_of_write fun env v v' _ hown hw => ?_
  rw [dropUndismissed_ok hw]
  refine tended_unstage hown fun st _ hst => @stagedIn_book _ is _ ?_
  exact ((Bool.and_eq_true _ _).mp hst).1

theorem tends_deleteStaged (i : String) : Tends book (deleteStagedStmt book i) := by
  refine tends_of_write fun env v v' _ hown hw => ?_
  rw [deleteStagedStmt_ok hw]
  exact tended_unstage hown fun _ _ => stagedIn_book

theorem tends_dismissStaged (is : List String) : Tends book (dismissStagedStmt book is) := by
  refine tends_of_write fun env v v' _ hown hw => ?_
  rw [dismissStagedStmt_ok hw]
  refine ⟨⟨hown.items, hown.snapshots, fun st hst => ?_⟩, fun o ho => sameRows_staged ?_⟩
  · rcases mem_updateWhere_cases hst with ⟨hst, -⟩ | ⟨st₀, hst₀, -, rfl⟩
    · exact hown.staged st hst
    · exact hown.staged st₀ hst₀
  · refine other_update (fun _ _ => stagedIn_book) ?_ ho
    exact fun _ => rfl

theorem tends_writeCursor (i : GuidText) (c : Cursor) (n : Time) :
    Tends book (writeCursor book i c n) := by
  refine tends_of_write fun env v v' _ hown hw => ?_
  obtain ⟨g, -, rfl⟩ := writeCursor_ok hw
  refine tended_items hown (fun _ _ => isItem_book) ?_
  exact fun _ => ⟨rfl, rfl⟩

theorem tends_updateImportPending (i : GuidText) (p : Bool) :
    Tends book (updateImportPending book i p) := by
  refine tends_of_write fun env v v' _ hown hw => ?_
  obtain ⟨g, now, -, rfl⟩ := updateImportPending_ok hw
  refine tended_items hown (fun _ _ => isItem_book) ?_
  exact fun _ => ⟨rfl, rfl⟩

theorem tends_reseal (i : GuidText) (c : Ciphertext) (n : Nonce) (w : Nat) :
    Tends book (resealStmt book i c n w) := by
  refine tends_of_write fun env v v' _ hown hw => ?_
  obtain ⟨g, now, -, rfl⟩ := resealStmt_ok hw
  refine tended_items hown (fun p _ hp => isItem_book (g := g) ?_) ?_
  · exact ((Bool.and_eq_true _ _).mp hp).1
  · exact fun _ => ⟨rfl, rfl⟩

theorem tends_writeLastSynced (i : GuidText) (n : Time) :
    Tends book (writeLastSynced book i n) := by
  refine tends_of_write fun env v v' _ hown hw => ?_
  rw [writeLastSynced_ok hw]
  refine tended_accounts hown (fun a _ ha => ?_) ?_
  · exact beq_iff_eq.mp ((Bool.and_eq_true _ _).mp ha).1
  · exact fun _ => rfl

theorem tends_updateLink (a : GuidText) (l : PlaidLink) : Tends book (updateLinkStmt book a l) := by
  refine tends_of_write fun env v v' _ hown hw => ?_
  obtain ⟨g, now, -, -, rfl⟩ := updateLinkStmt_ok hw
  refine tended_accounts hown (fun _ _ => isAccount_book) ?_
  exact fun _ => rfl

theorem tends_clearLinks (i : GuidText) : Tends book (clearLinks book i) := by
  refine tends_of_write fun env v v' _ hown hw => ?_
  rw [clearLinks_ok hw]
  refine tended_accounts hown (fun a ha hc => ?_) ?_
  · rw [chosen_self ha] at hc
    exact beq_iff_eq.mp ((Bool.and_eq_true _ _).mp hc).1
  · exact fun _ => rfl

theorem tends_tryAdvisoryLock (i : GuidText) : Tends book (tryAdvisoryLock i) := by
  refine tends_of_write fun env v v' _ hown hw => ?_
  rcases tryAdvisoryLock_ok hw with ⟨-, rfl⟩ | ⟨-, rfl⟩
  · exact ⟨hown, fun o _ => .refl o _⟩
  · exact ⟨hown.of_eq rfl rfl rfl, fun o _ => ⟨rfl, rfl, rfl, fun _ _ _ => rfl, rfl, rfl, rfl,
      rfl⟩⟩

theorem tends_advisoryUnlock (i : GuidText) : Tends book (advisoryUnlock i) := by
  refine tends_of_write fun env v v' _ hown hw => ?_
  rw [advisoryUnlock_ok hw]
  exact ⟨hown.of_eq rfl rfl rfl, fun o _ => ⟨rfl, rfl, rfl, fun _ _ _ => rfl, rfl, rfl, rfl,
    rfl⟩⟩

theorem tends_archiveItem (i : Guid) (w : Nat) : Tends book (archiveItem i book w) := by
  refine tends_of_write fun env v v' _ hown hw => ?_
  rw [archiveItem_ok hw]
  exact ⟨hown.of_eq rfl rfl rfl, fun o _ => ⟨rfl, rfl, rfl, fun _ _ _ => rfl, rfl, rfl, rfl,
    rfl⟩⟩

theorem tends_deleteItem (i : Guid) (w : Option Nat) : Tends book (deleteItemStmt i book w) := by
  refine tends_of_write fun env v v' _ hown hw => ?_
  rw [deleteItemStmt_ok hw]
  have hc : ∀ p ∈ v.items, itemAt i book w p = true → p.bookGuid = book := by
    intro p _ hp
    simp only [itemAt, Bool.and_eq_true, beq_iff_eq] at hp
    exact hp.1.2
  refine ⟨?_, fun o ho => sameRows_deleteItems hown ho hc⟩
  exact owned_deleteItems hown _

/-! ### Accounts, books and items -/

theorem tends_createAccount {p : Option GuidText} {a : Account} (h : a.bookGuid = book) :
    Tends book (createAccountStmt p a) := by
  refine tends_of_write fun env v v' _ hown hw => ?_
  obtain ⟨g, rfl⟩ := createAccountStmt_ok hw
  exact tended_account hown h

theorem tends_insertSeedAccount (d : AcctDef) (p : Option Guid) (ph : Bool) :
    Tends book (insertSeedAccountStmt book d p ph) := by
  refine tends_of_write fun env v v' _ hown hw => ?_
  obtain ⟨a, ha, -, rfl⟩ := insertSeedAccountStmt_ok hw
  exact tended_account hown ha

theorem tends_setBookRoot (r : Option Guid) : Tends book (setBookRoot book r) := by
  refine tends_of_write fun env v v' _ hown hw => ?_
  rw [(setBookRoot_ok hw).2]
  refine ⟨hown.of_eq rfl rfl rfl, fun o ho => sameRows_books ?_⟩
  refine other_update (fun b _ hb => beq_iff_eq.mp hb) ?_ ho
  exact fun _ => rfl

theorem tends_upsertItem {p : PlaidItem} (token : Token) (h : p.bookGuid = book) :
    Tends book (upsertItemStmt p token) := by
  refine tends_of_write fun env v v' _ hown hw => ?_
  rcases upsertItemStmt_ok hw with rfl | ⟨-, hnew, rfl⟩
  · refine tended_items hown (fun q _ hq => ?_) ?_
    · simp only [sameItem, Bool.and_eq_true, beq_iff_eq] at hq
      exact hq.1.trans h
    · exact fun _ => ⟨rfl, rfl⟩
  · refine ⟨⟨nodup_append_key hown.items hnew, hown.snapshots, fun st hst => ?_⟩, fun o ho =>
      sameRows_items (other_append (fun q hq => List.mem_singleton.mp hq ▸ h) ho)⟩
    obtain ⟨q, hq, hk⟩ := hown.staged st hst
    exact ⟨q, List.mem_append_left _ hq, hk⟩

theorem tends_updateAccount (a : GuidText) (r : UpdateAccountRequest) (n : Time) :
    Tends book (updateAccountStmt a book r n) := by
  refine tends_of_write fun env v v' _ hown hw => ?_
  obtain ⟨g, p, -, rfl⟩ := updateAccountStmt_ok hw
  refine tended_accounts hown (fun a _ ha => ?_) ?_
  · simp only [atVersion, Bool.and_eq_true, beq_iff_eq] at ha
    exact ha.2
  · exact fun _ => rfl

/-! ### Splits and snapshots -/

/-- The state of splits of the book changes. -/
theorem tended_reconcile {v : Db} (hk : v.Keyed) (hown : v.Owned) (state : String)
    (c : Split → Bool) : (setReconcileState book state c v).2.Owned ∧
      ∀ o, o ≠ book → SameRows o v (setReconcileState book state c v).2 := by
  refine ⟨hown.of_eq rfl rfl rfl, fun o ho => (sameRows_splits_of hk ho (fun sp _ hsp => ?_) ?_).1⟩
  · exact ((Bool.and_eq_true _ _).mp hsp).2
  · exact fun _ => rfl

theorem tends_toggleSplit (split : GuidText) (state : String) :
    Tends book (toggleSplitStmt book split state) := by
  intro env v v' b _ hk hown hx
  obtain ⟨_, -, hx⟩ := ok_bind (ok_of_failing hx)
  obtain rfl := congrArg Prod.snd (Except.ok.inj hx)
  exact tended_reconcile hk hown _ _

theorem Reconciling.tends (h : Reconciling book q) : Tends book q := by
  intro env v v' b _ hk hown hx
  cases h with
  | reconcileSplit | reconcileAccounts =>
    obtain ⟨_, -, hx⟩ := ok_bind (ok_of_failing hx)
    obtain rfl := congrArg Prod.snd (Except.ok.inj hx)
    exact tended_reconcile hk hown _ _

theorem tends_deleteBookSplits : Tends book (deleteBookSplits book) := by
  intro env v v' b _ hk hown hx
  obtain rfl := (Prod.mk.inj (Except.ok.inj (ok_of_failing hx))).2
  refine ⟨hown.of_eq rfl rfl rfl, fun o ho => ?_⟩
  exact (sameRows_splits_of (f := id) hk ho (fun _ _ => id) fun _ => rfl).2

theorem tends_deleteBookTransactions : Tends book (deleteBookTransactions book) := by
  intro env v v' b _ hk hown hx
  obtain rfl := congrArg Prod.snd (Except.ok.inj (ok_of_failing hx))
  exact ⟨hown.of_eq rfl rfl rfl, fun o ho => sameRows_deleteTransactions hk ho fun t _ ht =>
    beq_iff_eq.mp ht⟩

theorem tends_insertSnapshot (l : String) (t : SnapshotTrigger) (d : ExportData) :
    Tends book (insertSnapshotStmt book l t d) := by
  intro env v v' b ha hk hown hx
  have ha : v.unused env.guid = true := ha
  rw [insertSnapshotStmt_ok (Stmt.write_self _ hx)]
  have hnew : v.snapshots.any (·.id == env.guid) = false := by
    simp only [Db.unused, Bool.and_eq_true, List.all_eq_true, bne_iff_ne] at ha
    exact List.any_eq_false.mpr fun s hs => by simpa using ha.1.1.2 s hs
  refine ⟨⟨hown.items, nodup_append_key hown.snapshots hnew, hown.staged⟩, fun o ho =>
    sameRows_snapshots (other_append (fun s hs => ?_) ho)⟩
  rw [List.mem_singleton.mp hs]

/-- The upsert of a row for an item of the book. -/
theorem upsertStaged_tends {item : GuidText} {t : PlaidTxn} {d : Bool} {env : Env} {v v' : Db}
    (hown : v.Owned) (hitem : ∀ i, item.parse = .ok i → ∀ p ∈ v.items, p.guid = i →
      p.bookGuid = book) (hw : (upsertStaged book item t d).write env v v = .ok v') :
    v'.Owned ∧ ∀ o, o ≠ book → SameRows o v v' := by
  obtain ⟨i, now, hi, hhas, rfl⟩ := upsertStaged_ok hw
  obtain ⟨p, hp, hpi⟩ := List.any_eq_true.mp hhas
  have hhere : v.Has book i := ⟨p, hp, beq_iff_eq.mp hpi, hitem i hi p hp (beq_iff_eq.mp hpi)⟩
  constructor
  · refine ⟨hown.items, hown.snapshots, fun st hst => ?_⟩
    dsimp only [upsertStagedRow] at hst
    split at hst
    · rcases mem_updateWhere_cases hst with ⟨hst, -⟩ | ⟨st₀, hst₀, -, rfl⟩
      · exact hown.staged st hst
      · exact hown.staged st₀ hst₀
    · rcases List.mem_append.mp hst with hst | hst
      · exact hown.staged st hst
      · rw [List.mem_singleton.mp hst]
        exact hhere
  · refine fun o ho => sameRows_staged ?_
    unfold upsertStagedRow
    split
    · refine other_update (fun st _ hst => ?_) ?_ ho
      · exact beq_iff_eq.mp ((Bool.and_eq_true _ _).mp hst).1
      · exact fun _ => rfl
    · exact other_append (fun st hst => List.mem_singleton.mp hst ▸ rfl) ho

end Statements

end Antimoney
