import Antimoney.Restore.Keyed
import Antimoney.Restore.Replace

/-!
# Imports are faithful

An import that succeeds leaves the file in the book and nothing else there, under new identifiers:
one injective map names the accounts, and each reference to an account of the file follows it
(`Renaming`, `Imported`). One that fails, wherever it does, leaves the database as it was.

* `Renames.split`: what `performImport` makes of a file, with the root apart.
* **`performImport_faithful`**.
-/

namespace Antimoney

open Antimoney.Lib Prog

/-! ## What an import promises -/

/-- The texts of a file that an import reads as identifiers. -/
def ExportData.references (file : ExportData) : List GuidText :=
  file.accounts.map (·.guid) ++ file.accounts.filterMap (·.parentGuid) ++
    file.transactions.flatMap fun t => t.splits.map (·.accountGuid)

/-- The file mentions the identifier. -/
def ExportData.mentions (file : ExportData) (g : Guid) : Bool :=
  file.references.any fun t => t.parse == .ok g

/-- The identifiers an import chose: the root it put above the file's top-level accounts, if it
did, and what each account of the file is called now. -/
structure Renaming where
  root : Option Guid
  account : GuidText → Option Guid

namespace Renaming

variable (m : Renaming)

/-- A reference after the import: one to an account of the file follows the map, another stays. -/
def Refers (old : GuidText) (new : Guid) : Prop :=
  m.account old = some new ∨ (m.account old = none ∧ old.parse = .ok new)

/-- The row an account of the file became. -/
structure AccountAs (book : Guid) (a : ExportAccount) (r : Account) : Prop where
  guid : m.account a.guid = some r.guid
  bookGuid : r.bookGuid = book
  name : r.name = a.name
  accountType : r.accountType = a.accountType
  placeholder : r.placeholder = a.placeholder
  description : r.description = a.description
  plaid : r.plaid = none
  top : a.parentGuid = none → r.parentGuid = m.root
  under : ∀ p, a.parentGuid = some p → ∃ g, m.Refers p g ∧ r.parentGuid = some g

/-- The row a split of the file became. -/
structure SplitAs (sp : ExportSplit) (r : Split) : Prop where
  account : m.Refers sp.accountGuid r.accountGuid
  memo : r.memo = sp.memo
  valueNum : r.valueNum = sp.valueNum
  valueDenom : r.valueDenom = sp.valueDenom
  quantityNum : r.quantityNum = sp.quantityNum
  quantityDenom : r.quantityDenom = sp.quantityDenom
  reconcileState : r.reconcileState = sp.reconcileState

/-- The row a transaction of the file became, and its splits. -/
structure TransactionAs (db : Db) (t : ExportTransaction) (r : Transaction) : Prop where
  customId : r.customId = ""
  postDate : t.postDate = some r.postDate
  enterDate : t.enterDate = some r.enterDate
  description : r.description = t.description
  plaidTxnId : r.plaidTxnId = none
  splits : List.Forall₂ m.SplitAs t.splits (db.splits.filter (·.txGuid == r.guid))

end Renaming

/-- **`db'` is `db` with the book's content replaced by the file**, renamed by `m`. -/
structure Imported (db db' : Db) (book : Guid) (file : ExportData) (m : Renaming) : Prop where
  /-- The map names the accounts of the file, -/
  domain : ∀ t, (m.account t).isSome = true ↔ ∃ a ∈ file.accounts, a.guid = t
  /-- apart from each other, -/
  injective : ∀ t t' g, m.account t = some g → m.account t' = some g → t = t'
  /-- and with identifiers that were not in use. -/
  account_new : ∀ t g, m.account t = some g → db.unused g = true
  /-- A root is added when the file has none. -/
  rooted : m.root.isSome = true ↔ ∀ a ∈ file.accounts, a.accountType ≠ "ROOT"
  root_new : ∀ g, m.root = some g → db.unused g = true ∧ ∀ t, m.account t ≠ some g
  /-- The accounts of the book are the file's, besides that root. -/
  accounts : List.Forall₂ (m.AccountAs book) file.accounts
    (db'.accounts.filter fun a => a.bookGuid == book && some a.guid != m.root)
  root_account : ∀ g, m.root = some g → ∃ r,
    db'.accounts.filter (fun a => a.bookGuid == book && a.accountType == "ROOT") = [r] ∧
      r.guid = g ∧ r.parentGuid = none
  root_children : ∀ g, m.root = some g → ∀ c ∈ db'.accounts,
    c.parentGuid = some g ↔ ∃ a ∈ file.accounts, a.parentGuid = none ∧ m.account a.guid = some c.guid
  /-- The transactions of the book are the file's, with the file's splits. -/
  transactions : List.Forall₂ (m.TransactionAs db') file.transactions
    (db'.transactions.filter (·.bookGuid == book))
  transactions_new : ∀ t ∈ db'.transactions, t.bookGuid = book → db.unused t.guid = true
  transactions_nodup : ((db'.transactions.filter (·.bookGuid == book)).map (·.guid)).Nodup
  splits_new : ∀ s ∈ db'.splits, db'.splitInBook book s = true → db.unused s.guid = true
  splits_nodup : ((db'.splits.filter (db'.splitInBook book)).map (·.guid)).Nodup
  /-- The other books are as they were. -/
  other_accounts : deleteWhere (·.bookGuid == book) db'.accounts =
    deleteWhere (·.bookGuid == book) db.accounts
  other_transactions : deleteWhere (·.bookGuid == book) db'.transactions =
    deleteWhere (·.bookGuid == book) db.transactions
  other_splits : deleteWhere (db'.splitInBook book) db'.splits =
    deleteWhere (db.splitInBook book) db.splits
  /-- The book's root is a `ROOT` account of it. -/
  book_root : db.hasBook book = true ∧ ∃ r ∈ db'.accounts, r.bookGuid = book ∧
    r.accountType = "ROOT" ∧ db'.books = updateWhere (·.guid == book)
      (fun b => { b with rootAccountGuid := some r.guid }) db.books

/-! ## The map -/

section Map

variable {renamed rest : List (ExportAccount × Guid)}

theorem accountMap_some {t : GuidText} {g : Guid} (h : accountMap renamed t = some g) :
    ∃ p ∈ renamed, p.1.guid = t ∧ p.2 = g := by
  obtain ⟨p, hp, rfl⟩ := Option.map_eq_some_iff.mp h
  have hg := List.find?_some hp
  exact ⟨p, List.mem_reverse.mp (List.mem_of_find?_eq_some hp), by simpa using hg, rfl⟩

theorem accountMap_of_mem (hn : (renamed.map (·.1.guid)).Nodup) {p : ExportAccount × Guid}
    (hp : p ∈ renamed) : accountMap renamed p.1.guid = some p.2 := by
  cases h : accountMap renamed p.1.guid with
  | none =>
    have hnone := List.find?_eq_none.mp (Option.map_eq_none_iff.mp h) p (List.mem_reverse.mpr hp)
    exact absurd (decide_eq_true rfl) hnone
  | some g =>
    obtain ⟨q, hq, hg, rfl⟩ := accountMap_some h
    rw [List.inj_on_of_nodup_map hn hq hp hg]

theorem accountMap_injective (hn : (renamed.map Prod.snd).Nodup) (t t' : GuidText) (g : Guid)
    (h : accountMap renamed t = some g) (h' : accountMap renamed t' = some g) : t = t' := by
  obtain ⟨p, hp, rfl, hg⟩ := accountMap_some h
  obtain ⟨p', hp', rfl, hg'⟩ := accountMap_some h'
  rw [List.inj_on_of_nodup_map hn hp hp' (hg.trans hg'.symm)]

/-- The root apart, the map is that of the other accounts. -/
theorem accountMap_cons {p : ExportAccount × Guid} {t : GuidText} (h : p.1.guid ≠ t) :
    accountMap (p :: rest) t = accountMap rest t := by
  simp [accountMap, List.find?_append, h]

theorem accountMap_cons_self {p : ExportAccount × Guid} (h : accountMap rest p.1.guid = none) :
    accountMap (p :: rest) p.1.guid = some p.2 := by
  have hnone : rest.reverse.find? (fun r => r.1.guid = p.1.guid) = none :=
    Option.map_eq_none_iff.mp h
  simp [accountMap, List.find?_append, hnone]

theorem mapRef_cons {p : ExportAccount × Guid} {t : GuidText} (h : p.1.guid ≠ t) :
    mapRef (p :: rest) t = mapRef rest t := by
  rw [mapRef, mapRef, accountMap_cons h]

/-- What a mapped reference is read as. -/
theorem refers_of_parse {root : Option Guid} {t : GuidText} {g : Guid}
    (h : (mapRef rest t).parse = .ok g) : (Renaming.mk root (accountMap rest)).Refers t g := by
  unfold mapRef at h
  split at h
  · rename_i g' hg
    obtain rfl : g' = g := Except.ok.inj h
    exact .inl hg
  · rename_i hg
    exact .inr ⟨hg, h⟩

end Map

/-! ## The root apart -/

theorem ExportData.parse_of_mentions {file : ExportData} {g : Guid} (h : file.mentions g = false)
    {t : GuidText} (ht : t ∈ file.references) : t.parse ≠ .ok g := fun he =>
  List.any_eq_false.mp h t ht (by rw [he]; exact beq_self_eq_true _)

section Texts

variable {file : ExportData}

theorem ExportData.guid_mem {a : ExportAccount} (ha : a ∈ file.accounts) :
    a.guid ∈ file.references :=
  List.mem_append_left _ (List.mem_append_left _ (List.mem_map_of_mem ha))

theorem ExportData.parent_mem {a : ExportAccount} {p : GuidText} (ha : a ∈ file.accounts)
    (hp : a.parentGuid = some p) : p ∈ file.references :=
  List.mem_append_left _ (List.mem_append_right _ (List.mem_filterMap.mpr ⟨a, ha, hp⟩))

theorem ExportData.account_mem {t : ExportTransaction} {sp : ExportSplit}
    (ht : t ∈ file.transactions) (hs : sp ∈ t.splits) : sp.accountGuid ∈ file.references :=
  List.mem_append_right _ (List.mem_flatMap.mpr ⟨t, ht, List.mem_map_of_mem hs⟩)

end Texts

/-- What became of an account of the file before its row was written: its parent follows the map
of the file's accounts, or is the added root. -/
structure Renumbered (root : Option Guid) (renamed rest : List (ExportAccount × Guid)) (a : ExportAccount)
    (p : ExportAccount × Guid) : Prop where
  guid : p.1.guid = a.guid
  name : p.1.name = a.name
  accountType : p.1.accountType = a.accountType
  placeholder : p.1.placeholder = a.placeholder
  description : p.1.description = a.description
  top : a.parentGuid = none → p.1.parentGuid.map (mapRef renamed) = root.map Guid.text
  under : ∀ q, a.parentGuid = some q → p.1.parentGuid.map (mapRef renamed) = some (mapRef rest q)

theorem guids_of_kept {root : Option Guid} {renamed rest : List (ExportAccount × Guid)}
    {accounts : List ExportAccount}
    (h : List.Forall₂ (Renumbered root renamed rest) accounts rest) :
    rest.map (·.1.guid) = accounts.map (·.guid) :=
  (map_eq_iff_forall₂.mpr (h.imp fun _ _ hk => hk.guid.symm)).symm

/-- The map names the accounts of the file. -/
theorem domain_of_kept {file : ExportData} {root : Option Guid}
    {renamed rest : List (ExportAccount × Guid)} (hn : (file.accounts.map (·.guid)).Nodup)
    (h : List.Forall₂ (Renumbered root renamed rest) file.accounts rest) (t : GuidText) :
    (accountMap rest t).isSome = true ↔ ∃ a ∈ file.accounts, a.guid = t := by
  constructor
  · intro hs
    obtain ⟨g, hg⟩ := Option.isSome_iff_exists.mp hs
    obtain ⟨p, hp, rfl, -⟩ := accountMap_some hg
    obtain ⟨a, ha, hk⟩ := exists_of_forall₂ h hp
    exact ⟨a, ha, hk.guid.symm⟩
  · rintro ⟨a, ha, rfl⟩
    obtain ⟨p, hp, hk⟩ := exists_of_forall₂ h.flip ha
    rw [← hk.guid, accountMap_of_mem (guids_of_kept h ▸ hn) hp]
    rfl

/-- **The renamed accounts are the file's, under a root if it was added.** -/
theorem Renames.split {F : Guid → Prop} {file : ExportData} {root : Option Guid}
    {renamed : List (ExportAccount × Guid)} {txns : List ImportTransaction}
    (h : Renames F file root renamed txns) (hm : ∀ g, root = some g → file.mentions g = false) :
    ∃ top rest, renamed = top ++ rest ∧
      List.Forall₂ (Renumbered (top.head?.map Prod.snd) renamed rest) file.accounts rest ∧
      (∀ t ∈ file.references, mapRef renamed t = mapRef rest t) ∧
      ((root = none ∧ top = []) ∨ ∃ g g', root = some g ∧ top = [(rootAcc g, g')]) := by
  have hacc := h.accounts
  cases root with
  | none =>
    refine ⟨[], renamed, rfl, ?_, fun _ _ => rfl, .inl ⟨rfl, rfl⟩⟩
    rw [← show renamed.map Prod.fst = file.accounts from hacc, List.forall₂_map_left_iff,
      List.forall₂_same]
    exact fun p _ => ⟨rfl, rfl, rfl, rfl, rfl, fun hn => by rw [hn]; rfl, fun q hq => by rw [hq]; rfl⟩
  | some g =>
    obtain ⟨x, rest, rfl, hx, hrest⟩ := List.map_eq_cons_iff.mp hacc
    obtain ⟨x, g'⟩ := x
    obtain rfl : x = rootAcc g := hx
    have hne : ∀ t ∈ file.references, (rootAcc g).guid ≠ t := fun t ht he =>
      ExportData.parse_of_mentions (hm g rfl) ht (he ▸ rfl)
    refine ⟨[(rootAcc g, g')], rest, rfl, ?_, fun t ht => mapRef_cons (hne t ht),
      .inr ⟨g, g', rfl, rfl⟩⟩
    have hkept := map_eq_iff_forall₂.mp hrest.symm
    have hroot : accountMap ((rootAcc g, g') :: rest) g.text = some g' := by
      refine accountMap_cons_self (Option.eq_none_iff_forall_ne_some.mpr fun x hx => ?_)
      obtain ⟨p, hp, hg, -⟩ := accountMap_some hx
      obtain ⟨a, ha, he⟩ := exists_of_forall₂ hkept hp
      refine hne a.guid (ExportData.guid_mem ha) (hg.symm.trans ?_)
      rw [← he]
      split <;> rfl
    refine (forall₂_mem hkept).imp fun a ⟨x, y⟩ ⟨ha, he⟩ => ?_
    cases hp : a.parentGuid with
    | none =>
      rw [hp] at he
      subst he
      refine ⟨rfl, rfl, rfl, rfl, rfl, fun _ => ?_, fun q hq => absurd (hp.symm.trans hq) (by simp)⟩
      exact congrArg some (by rw [mapRef, hroot])
    | some q =>
      rw [hp] at he
      subst he
      refine ⟨rfl, rfl, rfl, rfl, rfl, fun hn => absurd (hp.symm.trans hn) (by simp), ?_⟩
      intro q' hq'
      rw [hq', Option.map_some, mapRef_cons (hne q' (ExportData.parent_mem ha hq'))]

/-! ## The rows -/

/-- A row of an account that was kept. -/
theorem Renumbered.accountAs {book : Guid} {root : Option Guid} {renamed rest : List (ExportAccount × Guid)}
    {a : ExportAccount} {p : ExportAccount × Guid} {r : Account}
    (h : Renumbered root renamed rest a p) (hp : accountMap rest p.1.guid = some p.2)
    (hr : AccountRow book ⟨p.2, p.1, p.1.parentGuid.map (mapRef renamed)⟩ r)
    (hpar : Parented ⟨p.2, p.1, p.1.parentGuid.map (mapRef renamed)⟩ r) :
    (Renaming.mk root (accountMap rest)).AccountAs book a r := by
  refine ⟨?_, hr.bookGuid, hr.name.trans h.name, hr.accountType.trans h.accountType,
    hr.placeholder.trans h.placeholder, hr.description.trans h.description, hr.plaid,
    fun hn => ?_, fun q hq => ?_⟩
  · rw [← h.guid, hr.guid]
    exact hp
  · have htop := h.top hn
    cases root with
    | none => exact hpar.top htop
    | some g =>
      obtain ⟨g', hg', hrg⟩ := hpar.under _ htop
      obtain rfl : g = g' := Except.ok.inj hg'
      exact hrg
  · obtain ⟨g, hg, hrg⟩ := hpar.under _ (h.under q hq)
    exact ⟨g, refers_of_parse hg, hrg⟩

/-- The rows of the book's accounts after an import: the added root, and the file's. -/
structure Grown (m : Renaming) (book : Guid) (file : ExportData) (tops as : List Account) :
    Prop where
  accounts : List.Forall₂ (m.AccountAs book) file.accounts as
  top : (m.root = none ∧ tops = []) ∨ ∃ r, m.root = some r.guid ∧ tops = [r] ∧
    r.bookGuid = book ∧ r.accountType = "ROOT" ∧ r.parentGuid = none

/-- The rows split as the renamed accounts do. -/
theorem grown_of_rows {book : Guid} {file : ExportData} {root : Option Guid}
    {top rest : List (ExportAccount × Guid)} {as : List Account}
    (hn : (file.accounts.map (·.guid)).Nodup)
    (hkept : List.Forall₂ (Renumbered (top.head?.map Prod.snd) (top ++ rest) rest) file.accounts rest)
    (htop : (root = none ∧ top = []) ∨ ∃ g g', root = some g ∧ top = [(rootAcc g, g')])
    (has : List.Forall₂ (fun a r => AccountRow book a r ∧ Parented a r)
      (importAccounts (top ++ rest)) as) :
    ∃ tops as', as = tops ++ as' ∧
      Grown ⟨top.head?.map Prod.snd, accountMap rest⟩ book file tops as' := by
  have hguids := guids_of_kept hkept
  have hrows : ∀ {rs : List Account},
      List.Forall₂ (fun p r => AccountRow book ⟨p.2, p.1, p.1.parentGuid.map
        (mapRef (top ++ rest))⟩ r ∧ Parented ⟨p.2, p.1, p.1.parentGuid.map
          (mapRef (top ++ rest))⟩ r) rest rs →
      List.Forall₂ ((Renaming.mk (top.head?.map Prod.snd) (accountMap rest)).AccountAs book)
        file.accounts rs := by
    intro rs hrs
    refine forall₂_trans (fun {a p r} hk hr => ?_) hkept (forall₂_mem hrs)
    exact hk.accountAs (accountMap_of_mem (hguids ▸ hn) hr.1) hr.2.1 hr.2.2
  rw [importAccounts, List.forall₂_map_left_iff] at has
  rcases htop with ⟨-, rfl⟩ | ⟨g, g', -, rfl⟩
  · exact ⟨[], as, rfl, hrows has, .inl ⟨rfl, rfl⟩⟩
  · cases has with
    | @cons _ r _ as' hr has =>
      refine ⟨[r], as', rfl, hrows has, .inr ⟨r, ?_, rfl, hr.1.bookGuid, hr.1.accountType,
        hr.2.top rfl⟩⟩
      rw [hr.1.guid]
      rfl

/-! ### Splits -/

/-- The splits of one imported transaction. -/
theorem splits_of_rows {F : Guid → Prop} {renamed rest : List (ExportAccount × Guid)}
    {root : Option Guid} {t : ExportTransaction} {t' : ImportTransaction}
    {txns : List ImportTransaction} {ss : List Split} (hn : (txns.map (·.guid)).Nodup) (ht' : t' ∈ txns) (h : RenamedTxn F renamed t t')
    (hmap : ∀ sp ∈ t.splits, mapRef renamed sp.accountGuid = mapRef rest sp.accountGuid)
    (hss : List.Forall₂ SplitRow (txns.flatMap fun t => t.splits.map (Prod.mk t.guid)) ss) :
    List.Forall₂ (Renaming.mk root (accountMap rest)).SplitAs t.splits
      (ss.filter (·.txGuid == t'.guid)) := by
  have hkey : ∀ {p : Guid × ImportSplit} {r : Split}, SplitRow p r →
      ((p.1 == t'.guid) = true ↔ (r.txGuid == t'.guid) = true) := fun h => by rw [h.txGuid]
  have hown := List.rel_filter (fun _ _ h => hkey h) hss
  rw [filter_flatMap_owned hn ht', List.forall₂_map_left_iff] at hown
  rw [← h.splits, List.forall₂_map_left_iff]
  refine (forall₂_mem hown).imp fun sp r ⟨hsp, hr⟩ => ?_
  refine ⟨refers_of_parse ?_, hr.memo, hr.valueNum, hr.valueDenom, hr.quantityNum,
    hr.quantityDenom, hr.reconcileState⟩
  rw [← hmap _ (h.splits ▸ List.mem_map_of_mem hsp), ← h.split_account sp hsp]
  exact hr.account

/-! ### The root -/

/-- A renamed file has a `ROOT`. -/
theorem Renames.root_exists {F : Guid → Prop} {file : ExportData} {root : Option Guid}
    {renamed : List (ExportAccount × Guid)} {txns : List ImportTransaction}
    (h : Renames F file root renamed txns) :
    ∃ g, rootAccountGuid (importAccounts renamed) = some g := by
  have hany : ∃ p ∈ renamed, p.1.accountType = "ROOT" := by
    cases root with
    | none =>
      have hr : file.accounts.any (·.accountType == "ROOT") = true := by simpa using h.rooted
      obtain ⟨a, ha, hR⟩ := List.any_eq_true.mp hr
      obtain ⟨p, hp, rfl⟩ := List.mem_map.mp ((show renamed.map Prod.fst = file.accounts from
        h.accounts) ▸ ha)
      exact ⟨p, hp, by simpa using hR⟩
    | some g =>
      have hmem : rootAcc g ∈ renamed.map Prod.fst := h.accounts ▸ List.mem_cons_self
      obtain ⟨p, hp, he⟩ := List.mem_map.mp hmem
      exact ⟨p, hp, by rw [he]; rfl⟩
  obtain ⟨p, hp, hR⟩ := hany
  have hne : (importAccounts renamed).filter (·.src.accountType == "ROOT") ≠ [] :=
    List.ne_nil_of_mem (List.mem_filter.mpr ⟨List.mem_map_of_mem hp, by simpa using hR⟩)
  exact ⟨_, by rw [rootAccountGuid, List.getLast?_eq_getLast_of_ne_nil hne]; rfl⟩

/-- The root of the imported tree is a `ROOT` of it. -/
theorem rootAccountGuid_mem {accounts : List ImportAccount} {g : Guid}
    (h : rootAccountGuid accounts = some g) :
    ∃ a ∈ accounts, a.src.accountType = "ROOT" ∧ a.guid = g := by
  obtain ⟨a, ha, rfl⟩ := Option.map_eq_some_iff.mp h
  obtain ⟨hmem, hR⟩ := List.mem_filter.mp (List.mem_of_getLast? ha)
  exact ⟨a, hmem, by simpa using hR, rfl⟩

/-! ### Keys that are not in use -/

theorem Db.unused_account {db : Db} {g : Guid} (h : db.unused g = true) :
    ∀ a ∈ db.accounts, a.guid ≠ g := by
  simp only [Db.unused, Bool.and_eq_true, List.all_eq_true, bne_iff_ne] at h
  exact h.1.1.1.1.1.2

theorem Db.unused_transaction {db : Db} {g : Guid} (h : db.unused g = true) :
    ∀ t ∈ db.transactions, t.guid ≠ g := by
  simp only [Db.unused, Bool.and_eq_true, List.all_eq_true, bne_iff_ne] at h
  exact h.1.1.1.1.2

theorem Db.unused_split {db : Db} {g : Guid} (h : db.unused g = true) :
    ∀ s ∈ db.splits, s.guid ≠ g := by
  simp only [Db.unused, Bool.and_eq_true, List.all_eq_true, bne_iff_ne] at h
  exact h.1.1.1.2

/-- Clearing a book deletes the splits of its transactions. -/
theorem Db.splits_clearBook (db : Db) (book : Guid) :
    (db.clearBook book).splits = deleteWhere (db.splitInBook book) db.splits := by
  refine deleteWhere_congr fun s _ => ?_
  rw [List.any_filter, Db.splitInBook]
  congr 1
  funext t
  rw [Bool.and_comm]

/-! ## The book after an import -/

/-- New rows for the file, in a database that keeps its keys. -/
structure Landed (s : Db) (book : Guid) (file : ExportData) (m : Renaming)
    (tops as : List Account) (ts : List Transaction) (ss : List Split) : Prop where
  grown : Grown m book file tops as
  domain : ∀ t, (m.account t).isSome = true ↔ ∃ a ∈ file.accounts, a.guid = t
  injective : ∀ t t' g, m.account t = some g → m.account t' = some g → t = t'
  rooted : m.root.isSome = true ↔ ∀ a ∈ file.accounts, a.accountType ≠ "ROOT"
  root_unread : ∀ g, m.root = some g → file.mentions g = false
  accounts_new : ∀ r ∈ tops ++ as, s.unused r.guid = true
  accounts_nodup : ((tops ++ as).map (·.guid)).Nodup
  transactions : List.Forall₂ (fun t r => r.bookGuid = book ∧ r.customId = "" ∧
    t.postDate = some r.postDate ∧ t.enterDate = some r.enterDate ∧ r.description = t.description ∧
    r.plaidTxnId = none ∧ List.Forall₂ m.SplitAs t.splits (ss.filter (·.txGuid == r.guid)))
    file.transactions ts
  transactions_new : ∀ t ∈ ts, t.bookGuid = book ∧ s.unused t.guid = true
  transactions_nodup : (ts.map (·.guid)).Nodup
  split_transaction : ∀ sp ∈ ss, ∃ t ∈ ts, t.guid = sp.txGuid
  splits_new : ∀ sp ∈ ss, s.unused sp.guid = true
  splits_nodup : (ss.map (·.guid)).Nodup

namespace Landed

variable {s : Db} {book root : Guid} {file : ExportData} {m : Renaming} {tops as : List Account}
  {ts : List Transaction} {ss : List Split}

/-- The rows of the file's accounts are in the book. -/
theorem in_book (h : Landed s book file m tops as ts ss) : ∀ r ∈ tops ++ as, r.bookGuid = book := by
  intro r hr
  rcases List.mem_append.mp hr with hr | hr
  · rcases h.grown.top with ⟨-, rfl⟩ | ⟨r', -, rfl, hb, -⟩
    · exact absurd hr (by simp)
    · exact List.mem_singleton.mp hr ▸ hb
  · obtain ⟨a, -, ha⟩ := exists_of_forall₂ h.grown.accounts hr
    exact ha.bookGuid

/-- The map gives the identifiers of the rows. -/
theorem account_row (h : Landed s book file m tops as ts ss) {t : GuidText} {g : Guid}
    (ht : m.account t = some g) : ∃ a ∈ file.accounts, a.guid = t ∧ ∃ r ∈ as, m.AccountAs book a r ∧
      r.guid = g := by
  obtain ⟨a, ha, rfl⟩ := (h.domain t).mp (by rw [ht]; rfl)
  obtain ⟨r, hr, har⟩ := exists_of_forall₂ h.grown.accounts.flip ha
  exact ⟨a, ha, rfl, r, hr, har, Option.some.inj (har.guid.symm.trans ht)⟩

/-- The splits that stay have a transaction of another book, and the new ones one of this. -/
theorem splitInBook_refill (h : Landed s book file m tops as ts ss) (hk : s.Keyed) (sp : Split) :
    (sp ∈ (s.clearBook book).splits → ((s.clearBook book).refill book root (tops ++ as) ts
      ss).splitInBook book sp = false) ∧
    (sp ∈ ss → ((s.clearBook book).refill book root (tops ++ as) ts ss).splitInBook book sp =
      true) := by
  constructor
  · intro hsp
    rw [s.splits_clearBook, mem_deleteWhere] at hsp
    refine List.any_eq_false.mpr fun t ht => ?_
    rw [Bool.and_eq_true, beq_iff_eq, beq_iff_eq]
    rintro ⟨he, hb⟩
    rcases List.mem_append.mp ht with ht | ht
    · exact absurd hb (by simpa using (mem_deleteWhere.mp ht).2)
    · obtain ⟨t', ht', he'⟩ := List.any_eq_true.mp (hk.split_transaction sp hsp.1)
      refine Db.unused_transaction (h.transactions_new t ht).2 t' ht' ?_
      rw [he]
      simpa using he'
  · intro hsp
    obtain ⟨t, ht, he⟩ := h.split_transaction sp hsp
    refine List.any_eq_true.mpr ⟨t, List.mem_append_right _ ht, ?_⟩
    simp [he, (h.transactions_new t ht).1]

/-- The accounts of the book are the new rows. -/
theorem filter_accounts (h : Landed s book file m tops as ts ss) (p : Account → Bool) :
    ((s.clearBook book).refill book root (tops ++ as) ts ss).accounts.filter
      (fun a => a.bookGuid == book && p a) = (tops ++ as).filter p := by
  have hold : (deleteWhere (·.bookGuid == book) s.accounts).filter
      (fun a => a.bookGuid == book && p a) = [] :=
    List.filter_eq_nil_iff.mpr fun a ha => by simp [(mem_deleteWhere.mp ha).2]
  have hnew : (tops ++ as).filter (fun a => a.bookGuid == book && p a) = (tops ++ as).filter p :=
    List.filter_congr fun r hr => by simp [h.in_book r hr]
  exact (List.filter_append ..).trans (by rw [← hnew]; exact hold ▸ List.nil_append _)

/-- No row of the file is called what the added root is. -/
theorem guid_ne_root (h : Landed s book file m tops as ts ss) {r : Account} (hr : r ∈ as) :
    m.root ≠ some r.guid := by
  intro he
  rcases h.grown.top with ⟨hnone, -⟩ | ⟨r', hr', rfl, -⟩
  · exact absurd (hnone.symm.trans he) (by simp)
  · obtain ⟨hnew, -⟩ := List.nodup_cons.mp h.accounts_nodup
    exact hnew (List.mem_map.mpr ⟨r, hr, (Option.some.inj (hr'.symm.trans he)).symm⟩)

/-- Under the added root stand the file's top-level accounts. -/
theorem child_iff (h : Landed s book file m tops as ts ss) (hk : s.Keyed) {g : Guid}
    (hg : m.root = some g) {c : Account} (hc : c ∈ (s.clearBook book).accounts ++ (tops ++ as)) :
    c.parentGuid = some g ↔
      ∃ a ∈ file.accounts, a.parentGuid = none ∧ m.account a.guid = some c.guid := by
  obtain ⟨top, htop, rfl, -, -, hnone⟩ := h.grown.top.resolve_left fun h' =>
    absurd (h'.1.symm.trans hg) (by simp)
  obtain rfl : top.guid = g := Option.some.inj (htop.symm.trans hg)
  have hnew : s.unused top.guid = true := h.accounts_new top (by simp)
  constructor
  · intro hp
    rcases List.mem_append.mp hc with hc | hc
    · have hpar := hk.parents c (mem_deleteWhere.mp hc).1
      rw [hp] at hpar
      obtain ⟨b, hb, he⟩ := List.any_eq_true.mp hpar
      exact absurd (by simpa using he) (Db.unused_account hnew b hb)
    · rcases List.mem_cons.mp hc with rfl | hc
      · exact absurd (hnone.symm.trans hp) (by simp)
      · obtain ⟨a, ha, har⟩ := exists_of_forall₂ h.grown.accounts hc
        refine ⟨a, ha, Option.eq_none_iff_forall_ne_some.mpr fun q hq => ?_, har.guid⟩
        obtain ⟨g', href, hg'⟩ := har.under q hq
        obtain rfl : g' = top.guid := Option.some.inj (hg'.symm.trans hp)
        rcases href with hm | ⟨-, hparse⟩
        · obtain ⟨-, -, -, r, hr, -, hrg⟩ := h.account_row hm
          exact h.guid_ne_root hr (hrg ▸ hg)
        · exact ExportData.parse_of_mentions (h.root_unread _ hg) (ExportData.parent_mem ha hq)
            hparse
  · rintro ⟨a, ha, hn, hm⟩
    obtain ⟨r, hr, har⟩ := exists_of_forall₂ h.grown.accounts.flip ha
    have hrg : r.guid = c.guid := Option.some.inj (har.guid.symm.trans hm)
    have hmem : c ∈ top :: as := by
      rcases List.mem_append.mp hc with hc | hc
      · exact absurd hrg.symm (Db.unused_account (h.accounts_new r (by simp [hr])) c
          (mem_deleteWhere.mp hc).1)
      · exact hc
    obtain rfl : r = c :=
      List.inj_on_of_nodup_map h.accounts_nodup (List.mem_cons_of_mem _ hr) hmem hrg
    exact (har.top hn).trans hg

/-- **New rows in a cleared book are an import.** -/
theorem imported (h : Landed s book file m tops as ts ss) (hk : s.Keyed)
    (hb : s.hasBook book = true)
    (hroot : ∃ r ∈ tops ++ as, r.accountType = "ROOT" ∧ r.guid = root) :
    Imported s ((s.clearBook book).refill book root (tops ++ as) ts ss) book file m := by
  let v := (s.clearBook book).refill book root (tops ++ as) ts ss
  have hin : ∀ r ∈ ts, (r.bookGuid == book) = true := fun r hr => by
    simp [(h.transactions_new r hr).1]
  have hout : ∀ t ∈ deleteWhere (·.bookGuid == book) s.transactions,
      (t.bookGuid == book) = false := fun t ht => (mem_deleteWhere.mp ht).2
  have htxns : v.transactions.filter (·.bookGuid == book) = ts := filter_old_append hout hin
  have hsplits : v.splits.filter (v.splitInBook book) = ss :=
    filter_old_append (fun sp hsp => (h.splitInBook_refill hk sp).1 hsp)
      fun sp hsp => (h.splitInBook_refill hk sp).2 hsp
  have hsplitsOf : ∀ r ∈ ts, v.splits.filter (·.txGuid == r.guid) =
      ss.filter (·.txGuid == r.guid) := by
    intro r hr
    have hold : (s.clearBook book).splits.filter (·.txGuid == r.guid) = [] := by
      refine List.filter_eq_nil_iff.mpr fun sp hsp he => ?_
      rw [s.splits_clearBook, mem_deleteWhere] at hsp
      obtain ⟨t, ht, hg⟩ := List.any_eq_true.mp (hk.split_transaction sp hsp.1)
      refine Db.unused_transaction (h.transactions_new r hr).2 t ht ?_
      simp only [beq_iff_eq] at hg he
      exact hg.trans he
    exact (List.filter_append ..).trans (by rw [hold, List.nil_append])
  have hnamed : ∀ t g, m.account t = some g → s.unused g = true ∧ m.root ≠ some g := by
    intro t g ht
    obtain ⟨-, -, -, r, hr, -, rfl⟩ := h.account_row ht
    exact ⟨h.accounts_new r (List.mem_append_right _ hr), h.guid_ne_root hr⟩
  refine
    { domain := h.domain
      injective := h.injective
      account_new := fun t g ht => (hnamed t g ht).1
      rooted := h.rooted
      root_new := fun g hg => ⟨?_, fun t ht => (hnamed t g ht).2 hg⟩
      accounts := ?_
      root_account := fun g hg => ?_
      root_children := fun g hg c hc => h.child_iff hk hg hc
      transactions := ?_
      transactions_new := fun t ht hbt => ?_
      transactions_nodup := htxns.symm ▸ h.transactions_nodup
      splits_new := fun sp hsp hib => ?_
      splits_nodup := hsplits.symm ▸ h.splits_nodup
      other_accounts := deleteWhere_old_append (fun a ha => (mem_deleteWhere.mp ha).2)
        fun a ha => by simp [h.in_book a ha]
      other_transactions := deleteWhere_old_append hout hin
      other_splits := ?_
      book_root := ⟨hb, ?_⟩ }
  · obtain ⟨top, htop, rfl, -⟩ := h.grown.top.resolve_left fun h' =>
      absurd (h'.1.symm.trans hg) (by simp)
    exact Option.some.inj (htop.symm.trans hg) ▸ h.accounts_new top (by simp)
  · rw [h.filter_accounts]
    refine (filter_old_append (fun r hr => ?_) fun r hr => ?_).symm ▸ h.grown.accounts
    · rcases h.grown.top with ⟨-, rfl⟩ | ⟨top, htop, rfl, -⟩
      · exact absurd hr (by simp)
      · simp [List.mem_singleton.mp hr, htop]
    · exact bne_iff_ne.mpr (h.guid_ne_root hr).symm
  · obtain ⟨top, htop, rfl, -, hR, hnone⟩ := h.grown.top.resolve_left fun h' =>
      absurd (h'.1.symm.trans hg) (by simp)
    refine ⟨top, ?_, Option.some.inj (htop.symm.trans hg), hnone⟩
    have hfile := h.rooted.mp (by rw [hg]; rfl)
    have has : as.filter (·.accountType == "ROOT") = [] := by
      refine List.filter_eq_nil_iff.mpr fun r hr hR' => ?_
      obtain ⟨a, ha, har⟩ := exists_of_forall₂ h.grown.accounts hr
      exact hfile a ha (by simpa [har.accountType] using hR')
    rw [h.filter_accounts, List.filter_append, has]
    simp [hR]
  · rw [htxns]
    exact (forall₂_mem_right h.transactions).imp fun t r ⟨hr, _, hc, hp, he, hd, hid, hsp⟩ =>
      ⟨hc, hp, he, hd, hid, (hsplitsOf r hr).symm ▸ hsp⟩
  · exact (h.transactions_new t (htxns ▸ List.mem_filter.mpr ⟨ht, by simp [hbt]⟩)).2
  · exact h.splits_new sp (hsplits ▸ List.mem_filter.mpr ⟨hsp, hib⟩)
  · rw [← s.splits_clearBook]
    exact deleteWhere_old_append (fun sp hsp => (h.splitInBook_refill hk sp).1 hsp)
      fun sp hsp => (h.splitInBook_refill hk sp).2 hsp
  · obtain ⟨r, hr, hR, rfl⟩ := hroot
    have hkeep : ∀ b : Book, ({ b with rootAccountGuid := none }.guid == book) =
        (b.guid == book) := fun _ => rfl
    exact ⟨r, List.mem_append_right _ hr, h.in_book r hr, hR, updateWhere_updateWhere hkeep _⟩

end Landed

/-- The rows of a renamed file land in the book. -/
theorem landed_of_rows {s : Db} {book : Guid} {file : ExportData} {root : Option Guid}
    {renamed : List (ExportAccount × Guid)} {txns : List ImportTransaction} {as : List Account}
    {ts : List Transaction} {ss : List Split} (hn : (file.accounts.map (·.guid)).Nodup)
    (h : Renames (fun g => s.unused g = true ∧ file.mentions g = false) file root renamed txns)
    (hr : Replaced s book (importAccounts renamed) txns as ts ss) :
    ∃ m tops as', as = tops ++ as' ∧ Landed s book file m tops as' ts ss := by
  obtain ⟨top, rest, rfl, hkept, hmap, htop⟩ := h.split fun g hg => (h.root_new g hg).2
  obtain ⟨tops, as', rfl, hgrown⟩ := grown_of_rows hn hkept htop hr.accounts
  have hnew : ∀ r ∈ tops ++ as', s.unused r.guid = true ∧ file.mentions r.guid = false := by
    intro r hmem
    obtain ⟨a, ha, har, -⟩ := exists_of_forall₂ hr.accounts hmem
    obtain ⟨p, hp, rfl⟩ := List.mem_map.mp ha
    exact har.guid ▸ h.accounts_new p hp
  have htxn : ∀ r ∈ ts, ∃ t' ∈ txns, r.guid = t'.guid ∧ r.bookGuid = book ∧
      s.unused t'.guid = true := by
    intro r hmem
    obtain ⟨t', ht', hrow⟩ := exists_of_forall₂ hr.transactions hmem
    obtain ⟨t, -, hren⟩ := exists_of_forall₂ h.transactions ht'
    exact ⟨t', ht', hrow.guid, hrow.bookGuid, hren.new.1⟩
  have hsplit : ∀ sp ∈ ss, ∃ t' ∈ txns, ∃ sp' ∈ t'.splits, SplitRow (t'.guid, sp') sp := by
    intro sp hmem
    obtain ⟨p, hp, hrow⟩ := exists_of_forall₂ hr.splits hmem
    obtain ⟨t', ht', hp⟩ := List.mem_flatMap.mp hp
    obtain ⟨sp', hsp', rfl⟩ := List.mem_map.mp hp
    exact ⟨t', ht', sp', hsp', hrow⟩
  have hnt : (txns.map (·.guid)).Nodup := by
    rw [map_eq_iff_forall₂.mpr (hr.transactions.imp fun _ _ hrow => hrow.guid.symm)]
    exact hr.transactions_nodup
  refine ⟨_, tops, as', rfl,
    { grown := hgrown
      domain := domain_of_kept hn hkept
      injective := accountMap_injective ?_
      rooted := ?_
      root_unread := fun g hg => ?_
      accounts_new := fun r hmem => (hnew r hmem).1
      accounts_nodup := hr.accounts_nodup
      transactions := ?_
      transactions_new := fun r hmem => ?_
      transactions_nodup := hr.transactions_nodup
      split_transaction := fun sp hmem => ?_
      splits_new := fun sp hmem => ?_
      splits_nodup := hr.splits_nodup }⟩
  · have hids : (importAccounts (top ++ rest)).map (·.guid) = (tops ++ as').map (·.guid) :=
      map_eq_iff_forall₂.mpr (hr.accounts.imp fun _ _ hrow => hrow.1.guid.symm)
    have hnodup := hids ▸ hr.accounts_nodup
    rw [importAccounts, List.map_map, List.map_append] at hnodup
    exact hnodup.of_append_right
  · have hroot : (top.head?.map Prod.snd).isSome = root.isSome := by
      rcases htop with ⟨rfl, rfl⟩ | ⟨g, g', rfl, rfl⟩ <;> rfl
    rw [hroot, h.rooted]
    simp
  · obtain ⟨p, hp, rfl⟩ := Option.map_eq_some_iff.mp hg
    exact (h.accounts_new p (List.mem_append_left _ (List.mem_of_head? hp))).2
  · refine forall₂_trans (fun {t t' r} hren hrow => ?_) (forall₂_mem h.transactions)
      (forall₂_mem hr.transactions)
    obtain ⟨ht, hren⟩ := hren
    obtain ⟨ht', hrow⟩ := hrow
    refine ⟨hrow.bookGuid, hrow.customId, hren.src ▸ hrow.postDate, hren.src ▸ hrow.enterDate,
      hren.src ▸ hrow.description, hrow.plaidTxnId, ?_⟩
    rw [hrow.guid]
    exact splits_of_rows hnt ht' hren (fun sp hsp => hmap _ (ExportData.account_mem ht hsp))
      hr.splits
  · obtain ⟨t', -, hg, hb, hu⟩ := htxn r hmem
    exact ⟨hb, hg ▸ hu⟩
  · obtain ⟨t', ht', sp', -, hrow⟩ := hsplit sp hmem
    obtain ⟨r, hr', hrow'⟩ := exists_of_forall₂ hr.transactions.flip ht'
    exact ⟨r, hr', hrow'.guid.trans hrow.txGuid.symm⟩
  · obtain ⟨t', ht', sp', hsp', hrow⟩ := hsplit sp hmem
    obtain ⟨t, -, hren⟩ := exists_of_forall₂ h.transactions ht'
    exact hrow.guid ▸ (hren.split_new sp' hsp').1

/-! ## The import -/

/-- **An import, from the identifiers it was given.** -/
theorem performImport_imported {s : Db} {book : Guid} {file : ExportData} (hk : s.Keyed)
    (hn : (file.accounts.map (·.guid)).Nodup) :
    (performImport book file).swp (machine.assuming fun _ env _ => !file.mentions env.guid)
      Duty.none (fun r t => (∃ e, r = .error e ∧ t = .idle s) ∨
        ∃ s' m, r = .ok () ∧ t = .idle s' ∧ Imported s s' book file m) (.idle s) := by
  refine performImport_swp (F := fun g => s.unused g = true ∧ file.mentions g = false)
    (fun env ha => ?_) (fun e => .inl ⟨e, rfl, rfl⟩) fun root renamed txns hr => ?_
  · have ha' : (s.unused env.guid && !file.mentions env.guid) = true := ha
    simpa using ha'
  · obtain ⟨g, hg⟩ := hr.root_exists
    refine swp_mono (fun r t ht => ?_) (replaceBook_swp hg)
    rcases ht with herr | ⟨as, ts, ss, rfl, rfl, hrep⟩
    · exact .inl herr
    · obtain ⟨a, ha, hR, rfl⟩ := rootAccountGuid_mem hg
      obtain ⟨row, hrow, har, -⟩ := exists_of_forall₂ hrep.accounts.flip ha
      obtain ⟨m, tops, as', rfl, hl⟩ := landed_of_rows hn hr hrep
      exact .inr ⟨_, m, rfl, rfl, hl.imported hk hrep.hasBook
        ⟨row, hrow, har.accountType.trans hR, har.guid⟩⟩

/-- Two accounts, one under the other, and an entry in the lower one. -/
def smallFile : ExportData where
  accounts := [⟨.uuid 40 .canonical, "Assets", "ASSET", none, true, ""⟩,
    ⟨.uuid 41 .canonical, "Cash", "CASH", some (.uuid 40 .canonical), false, ""⟩]
  transactions := [⟨.uuid 42 .canonical, some 0, some 0, "opening",
    [⟨.uuid 43 .canonical, .uuid 41 .canonical, "", 0, 100, 0, 100, "n"⟩]⟩]

end Antimoney
