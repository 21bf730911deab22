import Antimoney.Restore.Import

/-!
# The rows of an imported file

What the rows of an import are, whatever the file (two of its accounts may share a text): each
account, transaction and split of the file has its row, under a new identifier, and its references
follow the map of the import.
-/

namespace Antimoney

open Antimoney.Lib Prog

/-- The rows of a file that replaced a book of `x`. -/
structure Lands (x : Db) (book : Guid) (file : ExportData) (root : Option Guid)
    (renamed : List (ExportAccount × Guid)) (txns : List ImportTransaction) (as : List Account)
    (ts : List Transaction) (ss : List Split) : Prop where
  names : Renames (fun g => x.unused g = true ∧ file.mentions g = false) file root renamed txns
  rows : Replaced x book (importAccounts renamed) txns as ts ss

/-- The identifiers an import chose. -/
def fileMap (root : Option Guid) (renamed : List (ExportAccount × Guid)) : Renaming :=
  ⟨root, accountMap renamed⟩

/-- The row of an account of the renamed file. -/
structure RenamedRow (m : Renaming) (book : Guid) (p : ExportAccount × Guid) (r : Account) :
    Prop where
  guid : r.guid = p.2
  bookGuid : r.bookGuid = book
  placeholder : r.placeholder = p.1.placeholder
  top : p.1.parentGuid = none → r.parentGuid = none
  under : ∀ t, p.1.parentGuid = some t → ∃ g, m.Refers t g ∧ r.parentGuid = some g

/-- The account of a file a text names: the last one, as `accountMap` has it. -/
def lastAccount (accounts : List ExportAccount) (t : GuidText) : Option ExportAccount :=
  accounts.reverse.find? fun a => a.guid = t

/-- The map of the import is that of the renamed file. -/
theorem lastAccount_renamed (renamed : List (ExportAccount × Guid)) (t : GuidText) :
    lastAccount (renamed.map Prod.fst) t =
      (renamed.reverse.find? fun r => r.1.guid = t).map Prod.fst := by
  rw [lastAccount, ← List.map_reverse, List.find?_map]
  rfl

/-- An account under the root, if it has no parent. -/
def underRoot (root : Guid) (acc : ExportAccount) : ExportAccount :=
  match acc.parentGuid with
  | none => { acc with parentGuid := some root.text }
  | some _ => acc

@[simp] theorem underRoot_guid (g : Guid) (a : ExportAccount) : (underRoot g a).guid = a.guid := by
  unfold underRoot
  split <;> rfl

@[simp] theorem underRoot_placeholder (g : Guid) (a : ExportAccount) :
    (underRoot g a).placeholder = a.placeholder := by
  unfold underRoot
  split <;> rfl

theorem underRoot_parentGuid (g : Guid) (a : ExportAccount) :
    (underRoot g a).parentGuid = some (a.parentGuid.getD g.text) := by
  unfold underRoot
  cases h : a.parentGuid <;> simp [h]

/-- Above the accounts of the file stands the root. -/
theorem lastAccount_rootedWith (accounts : List ExportAccount) (g : Guid) (t : GuidText) :
    lastAccount (rootedWith accounts (some g)) t =
      ((lastAccount accounts t).map (underRoot g)).or ([rootAcc g].find? fun a => a.guid = t) := by
  have hfind : (accounts.map (underRoot g)).reverse.find? (fun a => a.guid = t) =
      (lastAccount accounts t).map (underRoot g) := by
    rw [lastAccount, ← List.map_reverse, List.find?_map]
    congr 2
    funext a
    simp
  have hlist : rootedWith accounts (some g) = rootAcc g :: accounts.map (underRoot g) := rfl
  rw [hlist, lastAccount, List.reverse_cons, List.find?_append, hfind]

/-- The root has a text of its own. -/
theorem placeholder_rootedWith {accounts : List ExportAccount} {root : Option Guid} {t : GuidText}
    (hnew : ∀ g, root = some g → g.text ≠ t) :
    (lastAccount (rootedWith accounts root) t).map (·.placeholder) =
      (lastAccount accounts t).map (·.placeholder) := by
  cases root with
  | none => rfl
  | some g =>
    have hroot : [rootAcc g].find? (fun a => a.guid = t) = none := by
      simp [rootAcc, hnew g rfl]
    rw [lastAccount_rootedWith, hroot]
    simp [Function.comp_def]

namespace Lands

variable {x : Db} {book : Guid} {file : ExportData} {root : Option Guid}
  {renamed : List (ExportAccount × Guid)} {txns : List ImportTransaction} {as : List Account}
  {ts : List Transaction} {ss : List Split} (h : Lands x book file root renamed txns as ts ss)

include h

theorem accounts : List.Forall₂ (RenamedRow (fileMap root renamed) book) renamed as := by
  have hrows := h.rows.accounts
  rw [importAccounts, List.forall₂_map_left_iff] at hrows
  refine hrows.imp fun p r hp => ?_
  obtain ⟨hrow, hpar⟩ := hp
  refine ⟨hrow.guid, hrow.bookGuid, hrow.placeholder, fun hn => ?_, fun t ht => ?_⟩
  · exact hpar.top (by rw [hn]; rfl)
  · obtain ⟨g, hg, hr⟩ := hpar.under (mapRef renamed t) (by rw [ht]; rfl)
    exact ⟨g, refers_of_parse hg, hr⟩

/-- The identifiers of the accounts were not in use, and the file does not mention them. -/
theorem account_new {r : Account} (hr : r ∈ as) :
    x.unused r.guid = true ∧ file.mentions r.guid = false := by
  obtain ⟨p, hp, hrow⟩ := exists_of_forall₂ h.accounts hr
  exact hrow.guid ▸ h.names.accounts_new p hp

/-- The row of the account a text names. -/
theorem named {t : GuidText} {g : Guid} (hg : accountMap renamed t = some g) :
    ∃ p ∈ renamed, p.1.guid = t ∧ p.2 = g ∧
      ∃ r ∈ as, RenamedRow (fileMap root renamed) book p r := by
  obtain ⟨p, hp, ht, hg⟩ := accountMap_some hg
  obtain ⟨r, hr, hrow⟩ := exists_of_forall₂ h.accounts.flip hp
  exact ⟨p, hp, ht, hg, r, hr, hrow⟩

/-- What a text of the file leads to: the row of the last account of the file with that text, or an
account that is not of the file. -/
theorem refers {t : GuidText} {g : Guid} (ht : t ∈ file.references)
    (hg : (fileMap root renamed).Refers t g) :
    (∃ a r, lastAccount file.accounts t = some a ∧ r ∈ as ∧ r.guid = g ∧
      r.placeholder = a.placeholder) ∨
    (lastAccount file.accounts t = none ∧ t.parse = .ok g ∧ ∀ r ∈ as, r.guid ≠ g) := by
  have hnew : ∀ g, root = some g → g.text ≠ t := by
    rintro g hroot rfl
    exact ExportData.parse_of_mentions (h.names.root_new g hroot).2 ht rfl
  have hlast : (lastAccount (rootedWith file.accounts root) t).map _ = _ :=
    placeholder_rootedWith hnew
  rw [← h.names.accounts, lastAccount_renamed, Option.map_map] at hlast
  rcases hg with hg | ⟨hnone, hg⟩
  · obtain ⟨p, hp, rfl⟩ := Option.map_eq_some_iff.mp hg
    obtain ⟨r, hr, hrow⟩ := exists_of_forall₂ h.accounts.flip
      (List.mem_reverse.mp (List.mem_of_find?_eq_some hp))
    rw [hp] at hlast
    obtain ⟨a, ha, hpl⟩ := Option.map_eq_some_iff.mp hlast.symm
    exact .inl ⟨a, r, ha, hr, hrow.guid, hrow.placeholder.trans hpl.symm⟩
  · rw [Option.map_eq_none_iff.mp hnone] at hlast
    refine .inr ⟨Option.map_eq_none_iff.mp hlast.symm, hg, ?_⟩
    rintro r hr rfl
    exact ExportData.parse_of_mentions (h.account_new hr).2 ht hg

/-- Each transaction of the file has its row, with its splits. -/
theorem transactions : List.Forall₂ (fun t r => r.bookGuid = book ∧ x.unused r.guid = true ∧
    List.Forall₂ (fileMap root renamed).SplitAs t.splits (ss.filter (·.txGuid == r.guid)))
    file.transactions ts := by
  have hn : (txns.map (·.guid)).Nodup := by
    rw [map_eq_iff_forall₂.mpr (h.rows.transactions.imp fun _ _ hrow => hrow.guid.symm)]
    exact h.rows.transactions_nodup
  refine forall₂_trans (fun {t t' r} hren hrow => ?_) h.names.transactions
    (forall₂_mem h.rows.transactions)
  obtain ⟨ht', hrow⟩ := hrow
  refine ⟨hrow.bookGuid, hrow.guid ▸ hren.new.1, ?_⟩
  rw [hrow.guid]
  exact splits_of_rows hn ht' hren (fun _ _ => rfl) h.rows.splits

/-- A split's row is one of a transaction of the file. -/
theorem split_transaction {s : Split} (hs : s ∈ ss) : ∃ r ∈ ts, s.txGuid = r.guid := by
  obtain ⟨p, hp, hrow⟩ := exists_of_forall₂ h.rows.splits hs
  obtain ⟨t', ht', hp⟩ := List.mem_flatMap.mp hp
  obtain ⟨sp, -, rfl⟩ := List.mem_map.mp hp
  obtain ⟨r, hr, htr⟩ := exists_of_forall₂ h.rows.transactions.flip ht'
  exact ⟨r, hr, hrow.txGuid.trans htr.guid.symm⟩

/-- A split's row is that of a split of the file. -/
theorem split {s : Split} (hs : s ∈ ss) :
    ∃ t ∈ file.transactions, ∃ sp ∈ t.splits, (fileMap root renamed).SplitAs sp s := by
  obtain ⟨r, hr, hg⟩ := h.split_transaction hs
  obtain ⟨t, ht, -, -, hsplits⟩ := exists_of_forall₂ h.transactions hr
  obtain ⟨sp, hsp, hrow⟩ := exists_of_forall₂ hsplits (List.mem_filter.mpr ⟨hs, beq_iff_eq.mpr hg⟩)
  exact ⟨t, ht, sp, hsp, hrow⟩

/-- The identifiers of the splits were not in use. -/
theorem split_new {s : Split} (hs : s ∈ ss) : x.unused s.guid = true := by
  obtain ⟨p, hp, hrow⟩ := exists_of_forall₂ h.rows.splits hs
  obtain ⟨t', ht', hp⟩ := List.mem_flatMap.mp hp
  obtain ⟨sp, hsp, rfl⟩ := List.mem_map.mp hp
  obtain ⟨t, -, hren⟩ := exists_of_forall₂ h.names.transactions ht'
  exact hrow.guid ▸ (hren.split_new sp hsp).1

end Lands

end Antimoney
