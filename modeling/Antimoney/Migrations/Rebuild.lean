import Antimoney.Migrations.Scripts

/-!
# What the clean-up migrations keep

`plaid_migration_audit` gets every row that migrations 8 and 9 delete. It gets no split that goes
with its transaction, and no link that migration 10 strips: when migration 11 archives links there
is nothing left to strip.

* `migrate_ok`: from version 7 the scripts succeed, whatever the tables hold; the outcome.
* `migrate_keyed`: after them there is one row per unique key.
* `rebuild_plaidItems`, `rebuild_transactions`: the rows deleted are in the archive.
* `rebuild_same_iff`: the tables are rebuilt exactly when no split was deleted and no link stripped.
* **`migrate_archives`**: otherwise other tables have the same outcome.
-/

namespace Antimoney.Migrations

open Antimoney.Lib

/-! ## Version 7 -/

/-- The constraints of version 7, and that migration 8 has not run. -/
structure Tables.Valid (db : Tables) : Prop where
  plaidItems : (db.plaidItems.map PlaidItem.guid).Nodup
  transactions : (db.transactions.map Transaction.guid).Nodup
  splits : (db.splits.map Split.guid).Nodup
  accounts : (db.accounts.map Account.guid).Nodup
  splitTransaction : ∀ sp ∈ db.splits, ∃ t ∈ db.transactions, t.guid = sp.txGuid
  splitAccount : ∀ sp ∈ db.splits, ∃ a ∈ db.accounts, a.guid = sp.accountGuid
  parent : ∀ a ∈ db.accounts, ∀ p ∈ a.parentGuid, ∃ b ∈ db.accounts, b.guid = p
  audit : db.audit = none
  staged : db.staged = none

/-- No two rows of a table lie at one place. -/
structure Deployment.Places (d : Deployment) (db : Tables) : Prop where
  items : (db.plaidItems.map fun p => d.items.ctid p.guid).Nodup
  transactions : (db.transactions.map fun t => d.transactions.ctid t.guid).Nodup
  links : (db.accounts.map fun a => d.links.ctid a.guid).Nodup
  relinks : (db.accounts.map fun a => d.relinks.ctid a.guid).Nodup

/-- The same rows, in any order. -/
structure Tables.Same (db db' : Tables) : Prop where
  plaidItems : db.plaidItems.Perm db'.plaidItems
  transactions : db.transactions.Perm db'.transactions
  splits : db.splits.Perm db'.splits
  accounts : db.accounts.Perm db'.accounts

/-- At most one row per unique key, also where `book_guid` is null. -/
structure Tables.Keyed (print : Jsonb → String) (db : Tables) : Prop where
  plaidItems : UniqueOn PlaidItem.key db.plaidItems
  transactions : UniqueOn (Transaction.key print) db.transactions
  accounts : UniqueOn (Account.key print) db.accounts
  staged : ∀ rows ∈ db.staged, UniqueOn (fun st => some (st.bookGuid, st.transactionId)) rows

/-- What the archive has for: each transaction with splits is the first of its plaid transaction
id, and no two accounts of a book are linked to one plaid account. -/
structure Tables.Archived (print : Jsonb → String) (d : Deployment) (db : Tables) : Prop where
  splits : ∀ sp ∈ db.splits, ∀ t ∈ db.transactions, t.guid = sp.txGuid → (t.key print).isSome →
    ∀ t' ∈ db.transactions, t'.key print = t.key print →
      d.transactions.ctid t.guid ≤ d.transactions.ctid t'.guid
  links : UniqueOn (Account.key print) db.accounts

def Payload.item? : Payload → Option PlaidItem
  | .item p => some p
  | _ => none

def Payload.transaction? : Payload → Option Transaction
  | .transaction t => some t
  | _ => none

/-- The archived rows put back. There is no archived link to put back (`migrate_no_links`). -/
def rebuild (db : Tables) : Tables where
  plaidItems := db.plaidItems ++ (db.audit.getD []).filterMap fun r => r.payload.item?
  transactions :=
    db.transactions ++ (db.audit.getD []).filterMap fun r => r.payload.transaction?
  splits := db.splits
  accounts := db.accounts
  audit := none
  staged := none

/-! ## Stripping a link -/

section Strip

variable {print : Jsonb → String}

/-- `j - key` on an object. -/
def Jsonb.without (j : Jsonb) (key : String) : Jsonb :=
  match j with
  | .object fields => .object (fields.filter fun f => f.1 != key)
  | j => j

/-- The account without its link. -/
def Account.bare (a : Account) : Account := { a with metadata := a.metadata.without "plaid" }

theorem Jsonb.get_without (j : Jsonb) (key : String) : (j.without key).get key = none := by
  unfold Jsonb.without Jsonb.get
  cases j with
  | object fields =>
    refine List.lookup_eq_none_iff.mpr fun f hf => ?_
    have hne := (List.mem_filter.mp hf).2
    exact bne_iff_ne.mpr (bne_iff_ne.mp hne).symm
  | _ => rfl

@[simp] theorem Account.bare_guid (a : Account) : a.bare.guid = a.guid := rfl

@[simp] theorem Account.bare_parentGuid (a : Account) : a.bare.parentGuid = a.parentGuid := rfl

@[simp] theorem Account.key_bare (a : Account) : a.bare.key print = none := by
  simp [Account.key, Account.bare, Jsonb.plaidText, Jsonb.get_without]

/-- Only an object has a link. -/
theorem Account.strip_eq {a : Account} (h : (a.key print).isSome) : a.strip = .ok a.bare := by
  unfold Account.strip Account.bare
  cases hm : a.metadata with
  | object fields => rfl
  | _ => simp [Account.key, Jsonb.plaidText, Jsonb.get, hm] at h

end Strip

/-- An update that fails on no row it selects. -/
theorem mapM_updateWhere {α ε : Type} {c : α → Bool} {f : α → Except ε α} {g : α → α}
    {t : List α} (h : ∀ r ∈ t, c r = true → f r = .ok (g r)) :
    (t.mapM fun r => if c r then f r else .ok r) = .ok (updateWhere c g t) := by
  induction t with
  | nil => rfl
  | cons r t ih =>
    have hr : (if c r then f r else .ok r) = (.ok (if c r then g r else r) : Except ε α) := by
      by_cases hc : c r = true
      · simp [hc, h r List.mem_cons_self hc]
      · simp [hc]
    rw [List.mapM_cons, hr, ih fun x hx => h x (.tail _ hx)]
    rfl

/-- A key that tells apart fewer rows, as a null does not count. -/
theorem UniqueOn.of_key {α κ κ' : Type} {key : α → Option κ} {key' : α → Option κ'}
    (hk : ∀ r r' k, key' r = some k → key' r' = some k → (key r).isSome ∧ key r' = key r)
    {t : List α} (h : UniqueOn key t) : UniqueOn key' t := by
  refine uniqueOn_iff.mpr ((uniqueOn_iff.mp h).imp fun {r r'} hne k hr hr' => ?_)
  obtain ⟨hs, he⟩ := hk r r' k hr hr'
  obtain ⟨k', hk'⟩ := Option.isSome_iff_exists.mp hs
  exact hne k' hk' (he.trans hk')

theorem requireUnique_ok {α κ : Type} [DecidableEq κ] {constraint : String} {key : α → Option κ}
    {t : List α} (h : UniqueOn key t) : requireUnique constraint key t = .ok () := if_pos h

/-! ## The scripts, from version 7 -/

section Outcome

variable {print : Jsonb → String} {d : Deployment} {db : Tables}

/-- The rows of a group after the first. -/
def duplicateItem (d : Deployment) (db : Tables) (p : PlaidItem) : Bool :=
  surplus (fun p => d.items.ctid p.guid) PlaidItem.key db.plaidItems p

def duplicateTransaction (print : Jsonb → String) (d : Deployment) (db : Tables)
    (t : Transaction) : Bool :=
  surplus (fun t => d.transactions.ctid t.guid) (Transaction.key print) db.transactions t

def duplicateLink (print : Jsonb → String) (d : Deployment) (db : Tables) (a : Account) : Bool :=
  surplus (fun a => d.links.ctid a.guid) (Account.key print) db.accounts a

/-- The splits left. -/
def keptSplits (print : Jsonb → String) (d : Deployment) (db : Tables) : List Split :=
  cascade (db.transactions.filter (duplicateTransaction print d db)) db.splits

/-- The accounts, each link with one holder. -/
def strippedAccounts (print : Jsonb → String) (d : Deployment) (db : Tables) : List Account :=
  updateWhere (duplicateLink print d db) Account.bare db.accounts

/-- What migrations 8 and 9 archive. -/
def archive (print : Jsonb → String) (d : Deployment) (db : Tables) : List AuditRow :=
  (db.plaidItems.filter (duplicateItem d db)).map
      (fun p => ⟨"000008", .item p, d.items.now⟩) ++
    (db.transactions.filter (duplicateTransaction print d db)).map
      fun t => ⟨"000009", .transaction t, d.transactions.now⟩

/-- The tables after migration 11. -/
def migrated (print : Jsonb → String) (d : Deployment) (db : Tables) : Tables where
  plaidItems := deleteWhere (duplicateItem d db) db.plaidItems
  transactions := deleteWhere (duplicateTransaction print d db) db.transactions
  splits := keptSplits print d db
  accounts := strippedAccounts print d db
  audit := some (archive print d db)
  staged := some []

theorem strippedAccounts_map {β : Type} (f : Guid → β) :
    (strippedAccounts print d db).map (fun a => f a.guid) = db.accounts.map fun a => f a.guid := by
  unfold strippedAccounts
  exact @map_updateWhere Account β (fun a => f a.guid) _ Account.bare (fun _ => rfl) db.accounts

theorem uniqueOn_strippedAccounts (hc : (db.accounts.map fun a => d.links.ctid a.guid).Nodup) :
    UniqueOn (Account.key print) (strippedAccounts print d db) := by
  have hkeys : (strippedAccounts print d db).filterMap (Account.key print) =
      (deleteWhere (duplicateLink print d db) db.accounts).filterMap (Account.key print) :=
    filterMap_updateWhere_none (fun a _ => a.key_bare) db.accounts
  unfold UniqueOn
  rw [hkeys]
  exact uniqueOn_deleteWhere hc

theorem Transaction.uniqueOn_indexKey {t : List Transaction}
    (h : UniqueOn (Transaction.key print) t) : UniqueOn (Transaction.indexKey print) t := by
  refine UniqueOn.of_key (fun r r' k hr hr' => ?_) h
  obtain ⟨b, hb, hr⟩ := Option.bind_eq_some_iff.mp hr
  obtain ⟨b', hb', hr'⟩ := Option.bind_eq_some_iff.mp hr'
  obtain ⟨i, hi, rfl⟩ := Option.map_eq_some_iff.mp hr
  obtain ⟨i', hi', he⟩ := Option.map_eq_some_iff.mp hr'
  obtain ⟨rfl, rfl⟩ := Prod.mk.inj he
  simp [Transaction.key, hb, hb', hi, hi']

theorem Account.uniqueOn_indexKey {t : List Account}
    (h : UniqueOn (Account.key print) t) : UniqueOn (Account.indexKey print) t := by
  refine UniqueOn.of_key (fun r r' k hr hr' => ?_) h
  obtain ⟨b, hb, hr⟩ := Option.bind_eq_some_iff.mp hr
  obtain ⟨b', hb', hr'⟩ := Option.bind_eq_some_iff.mp hr'
  obtain ⟨i, hi, rfl⟩ := Option.map_eq_some_iff.mp hr
  obtain ⟨i', hi', he⟩ := Option.map_eq_some_iff.mp hr'
  obtain ⟨rfl, rfl⟩ := Prod.mk.inj he
  simp [Account.key, hb, hb', hi, hi']

theorem plaidItemsUnique_ok (hc : (db.plaidItems.map fun p => d.items.ctid p.guid).Nodup)
    (ha : db.audit = none) :
    plaidItemsUnique d.items db = .ok { db with
      plaidItems := deleteWhere (duplicateItem d db) db.plaidItems
      audit := some ((db.plaidItems.filter (duplicateItem d db)).map
        fun p => ⟨"000008", .item p, d.items.now⟩) } := by
  unfold plaidItemsUnique
  dsimp only
  rw [ha, requireUnique_ok (uniqueOn_deleteWhere hc)]
  rfl

theorem plaidTxnUnique_ok
    (hc : (db.transactions.map fun t => d.transactions.ctid t.guid).Nodup)
    (ha : db.audit.isSome) :
    plaidTxnUnique print d.transactions db = .ok { db with
      transactions := deleteWhere (duplicateTransaction print d db) db.transactions
      splits := keptSplits print d db
      audit := some (db.audit.getD [] ++
        (db.transactions.filter (duplicateTransaction print d db)).map
          fun t => ⟨"000009", .transaction t, d.transactions.now⟩) } := by
  obtain ⟨audit, ha⟩ := Option.isSome_iff_exists.mp ha
  unfold plaidTxnUnique existing
  rw [ha]
  dsimp only [bind, Except.bind]
  rw [requireUnique_ok (Transaction.uniqueOn_indexKey (uniqueOn_deleteWhere hc))]
  rfl

theorem plaidStaging_ok (hc : (db.accounts.map fun a => d.links.ctid a.guid).Nodup)
    (hs : db.staged = none) :
    plaidStaging print d.links db = .ok { db with
      accounts := strippedAccounts print d db
      staged := some [] } := by
  have hstrip : (db.accounts.mapM fun a =>
      if duplicateLink print d db a then a.strip else .ok a) =
      .ok (strippedAccounts print d db) := by
    refine mapM_updateWhere fun a ha hs => ?_
    have hlinked : (a.key print).isSome := ((surplus_iff hc ha).mp hs).1
    exact Account.strip_eq hlinked
  unfold duplicateLink at hstrip
  unfold plaidStaging
  dsimp only
  rw [hs, hstrip]
  dsimp only [bind, Except.bind]
  rw [requireUnique_ok (Account.uniqueOn_indexKey (uniqueOn_strippedAccounts hc))]
  rfl

/-- Nothing is left to strip, or to archive. -/
theorem plaidStagingDismissed_ok {audit : List AuditRow}
    (hc : (db.accounts.map fun a => d.relinks.ctid a.guid).Nodup)
    (hu : UniqueOn (Account.key print) db.accounts) (ha : db.audit = some audit)
    (hs : db.staged = some []) :
    plaidStagingDismissed print d.relinks db = .ok db := by
  have hnone := fun a (h : a ∈ db.accounts) => surplus_of_uniqueOn hc hu h
  have harchive : db.accounts.filter
      (surplus (fun a => d.relinks.ctid a.guid) (Account.key print) db.accounts) = [] :=
    List.filter_eq_nil_iff.mpr fun a h => by simp [hnone a h]
  have hstrip : (db.accounts.mapM fun a =>
      if surplus (fun a => d.relinks.ctid a.guid) (Account.key print) db.accounts a then
        a.stripBumped d.relinks.now else .ok a) = .ok db.accounts := by
    rw [mapM_updateWhere (g := id) fun a h hs => absurd hs (by simp [hnone a h]),
      updateWhere_of_forall_not hnone]
  unfold plaidStagingDismissed existing
  rw [hs, ha]
  dsimp only [bind, Except.bind]
  rw [harchive, hstrip]
  dsimp only [Except.bind]
  rw [requireUnique_ok (Account.uniqueOn_indexKey hu)]
  cases db
  simp_all
  rfl

/-- From version 7 the migrations succeed. -/
theorem migrate_ok (hv : db.Valid) (hd : d.Places db) :
    migrate print d db = .ok (migrated print d db) := by
  have hplaces : ((strippedAccounts print d db).map fun a => d.relinks.ctid a.guid).Nodup :=
    (strippedAccounts_map d.relinks.ctid).symm ▸ hd.relinks
  unfold migrate
  rw [plaidItemsUnique_ok hd.items hv.audit]
  dsimp only [bind, Except.bind]
  rw [plaidTxnUnique_ok]
  · dsimp only
    rw [plaidStaging_ok]
    · exact plaidStagingDismissed_ok hplaces (uniqueOn_strippedAccounts hd.links) rfl rfl
    · exact hd.links
    · exact hv.staged
  · exact hd.transactions
  · rfl

theorem migrate_keyed (hd : d.Places db) : (migrated print d db).Keyed print where
  plaidItems := uniqueOn_deleteWhere hd.items
  transactions := uniqueOn_deleteWhere hd.transactions
  accounts := uniqueOn_strippedAccounts hd.links
  staged := by
    intro rows hrows
    obtain rfl : [] = rows := Option.some.inj hrows
    exact List.nodup_nil

/-! ## The archive -/

/-- The archive holds items and transactions only. -/
theorem migrate_no_links {r : AuditRow} (h : r ∈ archive print d db) :
    r.payload.item?.isSome ∨ r.payload.transaction?.isSome := by
  rcases List.mem_append.mp h with h | h
  · obtain ⟨p, -, rfl⟩ := List.mem_map.mp h
    exact Or.inl rfl
  · obtain ⟨t, -, rfl⟩ := List.mem_map.mp h
    exact Or.inr rfl

theorem archive_items : (archive print d db).filterMap (fun r => r.payload.item?) =
    db.plaidItems.filter (duplicateItem d db) := by
  unfold archive
  rw [List.filterMap_append, List.filterMap_map, List.filterMap_map]
  simp [Function.comp_def, Payload.item?]

theorem archive_transactions : (archive print d db).filterMap (fun r => r.payload.transaction?) =
    db.transactions.filter (duplicateTransaction print d db) := by
  unfold archive
  rw [List.filterMap_append, List.filterMap_map, List.filterMap_map]
  simp [Function.comp_def, Payload.transaction?]

/-- Every item deleted is put back. -/
theorem rebuild_plaidItems : (rebuild (migrated print d db)).plaidItems.Perm db.plaidItems := by
  have hback : (rebuild (migrated print d db)).plaidItems =
      deleteWhere (duplicateItem d db) db.plaidItems ++
        (archive print d db).filterMap fun r => r.payload.item? := rfl
  rw [hback, archive_items]
  exact deleteWhere_append_filter_perm _ _

/-- Every transaction deleted is put back, without its splits. -/
theorem rebuild_transactions :
    (rebuild (migrated print d db)).transactions.Perm db.transactions := by
  have hback : (rebuild (migrated print d db)).transactions =
      deleteWhere (duplicateTransaction print d db) db.transactions ++
        (archive print d db).filterMap fun r => r.payload.transaction? := rfl
  rw [hback, archive_transactions]
  exact deleteWhere_append_filter_perm _ _

/-! ## What is lost -/

/-- The splits are all kept when no transaction with splits is deleted. -/
theorem keptSplits_perm_iff (hd : d.Places db) : (keptSplits print d db).Perm db.splits ↔
    ∀ sp ∈ db.splits, ∀ t ∈ db.transactions, t.guid = sp.txGuid → (t.key print).isSome →
      ∀ t' ∈ db.transactions, t'.key print = t.key print →
        d.transactions.ctid t.guid ≤ d.transactions.ctid t'.guid := by
  unfold keptSplits cascade
  rw [deleteWhere_perm_iff]
  refine forall₂_congr fun sp _ => ?_
  simp only [List.any_eq_false, List.mem_filter, beq_iff_eq, and_imp]
  refine forall₂_congr fun t ht => ?_
  constructor
  · intro h hg hk
    by_cases hdup : duplicateTransaction print d db t = true
    · exact absurd hg (h hdup)
    · exact (not_surplus_iff hd.transactions ht hk).mp (by simpa [duplicateTransaction] using hdup)
  · intro h hdup hg
    have hk : (t.key print).isSome := ((surplus_iff hd.transactions ht).mp hdup).1
    have hnot := (not_surplus_iff hd.transactions ht hk).mpr (h hg hk)
    exact absurd hdup (by simp [duplicateTransaction, hnot])

/-- The accounts are as they were when no link was stripped. -/
theorem strippedAccounts_perm_iff (hv : db.Valid) (hd : d.Places db) :
    (strippedAccounts print d db).Perm db.accounts ↔ UniqueOn (Account.key print) db.accounts := by
  rw [← forall_not_surplus_iff hd.links]
  constructor
  · intro h a ha
    obtain ⟨b, hb, hba⟩ := mem_updateWhere.mp (h.mem_iff.mpr ha)
    have hg : b.guid = a.guid := by
      rw [← hba]
      split <;> rfl
    obtain rfl : b = a := List.inj_on_of_nodup_map hv.accounts hb ha hg
    by_contra hs
    have hs : duplicateLink print d db b = true := by simpa [duplicateLink] using hs
    have hk : (b.key print).isSome := ((surplus_iff hd.links hb).mp hs).1
    rw [if_pos hs] at hba
    rw [← hba, Account.key_bare] at hk
    exact absurd hk (by simp)
  · intro h
    have hsame : strippedAccounts print d db = db.accounts := updateWhere_of_forall_not h
    rw [hsame]

/-- The archive has for the tables exactly when no split was deleted and no link stripped. -/
theorem rebuild_same_iff (hv : db.Valid) (hd : d.Places db) :
    (rebuild (migrated print d db)).Same db ↔ db.Archived print d := by
  constructor
  · intro h
    exact ⟨(keptSplits_perm_iff hd).mp h.splits, (strippedAccounts_perm_iff hv hd).mp h.accounts⟩
  · intro h
    exact ⟨rebuild_plaidItems, rebuild_transactions, (keptSplits_perm_iff hd).mpr h.splits,
      (strippedAccounts_perm_iff hv hd).mpr h.links⟩

/-- The tables without what the scripts delete and do not archive. -/
def Tables.unarchived (print : Jsonb → String) (d : Deployment) (db : Tables) : Tables :=
  { db with
    splits := keptSplits print d db
    accounts := strippedAccounts print d db }

theorem mem_strippedAccounts {a : Account} (h : a ∈ db.accounts) :
    ∃ b ∈ strippedAccounts print d db, b.guid = a.guid := by
  refine ⟨_, mem_updateWhere.mpr ⟨a, h, rfl⟩, ?_⟩
  split <;> rfl

theorem unarchived_valid (hv : db.Valid) : (db.unarchived print d).Valid where
  plaidItems := hv.plaidItems
  transactions := hv.transactions
  splits := hv.splits.sublist (List.filter_sublist.map _)
  accounts := (strippedAccounts_map id).symm ▸ hv.accounts
  splitTransaction := fun sp hsp => hv.splitTransaction sp (mem_deleteWhere.mp hsp).1
  splitAccount := by
    intro sp hsp
    obtain ⟨a, ha, hg⟩ := hv.splitAccount sp (mem_deleteWhere.mp hsp).1
    obtain ⟨b, hb, hba⟩ := mem_strippedAccounts ha
    exact ⟨b, hb, hba.trans hg⟩
  parent := by
    intro a ha p hp
    have hparent : ∃ x ∈ db.accounts, x.parentGuid = a.parentGuid := by
      obtain ⟨x, hx, rfl⟩ := mem_updateWhere.mp ha
      refine ⟨x, hx, ?_⟩
      split <;> rfl
    obtain ⟨x, hx, hxa⟩ := hparent
    obtain ⟨b, hb, hbp⟩ := hv.parent x hx p (hxa ▸ hp)
    obtain ⟨b', hb', hg⟩ := mem_strippedAccounts hb
    exact ⟨b', hb', hg.trans hbp⟩
  audit := hv.audit
  staged := hv.staged

theorem unarchived_places (hd : d.Places db) : d.Places (db.unarchived print d) where
  items := hd.items
  transactions := hd.transactions
  links := (strippedAccounts_map d.links.ctid).symm ▸ hd.links
  relinks := (strippedAccounts_map d.relinks.ctid).symm ▸ hd.relinks

/-- They have the same outcome. -/
theorem migrated_unarchived (hd : d.Places db) :
    migrated print d (db.unarchived print d) = migrated print d db := by
  have hsplits : keptSplits print d (db.unarchived print d) = keptSplits print d db :=
    List.filter_eq_self.mpr fun sp hsp => (List.mem_filter.mp hsp).2
  have haccounts : strippedAccounts print d (db.unarchived print d) = strippedAccounts print d db :=
    updateWhere_of_forall_not fun a ha =>
      surplus_of_uniqueOn (unarchived_places hd).links (uniqueOn_strippedAccounts hd.links) ha
  unfold migrated
  rw [hsplits, haccounts]
  rfl

/-- **Migrations 8 to 11 succeed and leave one row per key. The archive has for what they delete
exactly when no split goes with its transaction and no link is stripped; otherwise the outcome does
not tell.** -/
theorem migrate_archives (print : Jsonb → String) (d : Deployment) (db : Tables) (hv : db.Valid)
    (hd : d.Places db) :
    ∃ r, migrate print d db = .ok r ∧ r.Keyed print ∧
      ((rebuild r).Same db ↔ db.Archived print d) ∧
      (¬ db.Archived print d →
        ∃ db', db'.Valid ∧ d.Places db' ∧ ¬ db'.Same db ∧ migrate print d db' = .ok r) := by
  refine ⟨migrated print d db, migrate_ok hv hd, migrate_keyed hd, rebuild_same_iff hv hd, ?_⟩
  intro hlost
  refine ⟨db.unarchived print d, unarchived_valid hv, unarchived_places hd, ?_, ?_⟩
  · intro hsame
    exact hlost ⟨(keptSplits_perm_iff hd).mp hsame.splits,
      (strippedAccounts_perm_iff hv hd).mp hsame.accounts⟩
  · rw [migrate_ok (unarchived_valid hv) (unarchived_places hd), migrated_unarchived hd]

end Outcome

/-! ### One bank transaction imported twice -/

/-- An account of book 3. -/
def plainAccount (guid : Guid) : Account where
  guid
  bookGuid := some 3
  name := "Conta"
  accountType := "BANK"
  parentGuid := none
  placeholder := false
  description := ""
  metadata := .object []
  version := 1
  createdAt := 0
  updatedAt := 0

/-- A transaction of book 3 with the plaid transaction id `p1`. -/
def importedTransaction (guid : Guid) : Transaction where
  guid
  bookGuid := some 3
  customId := ""
  postDate := 0
  enterDate := 0
  description := "Mercado"
  metadata := .object [("plaid", .object [("transaction_id", .string "p1")])]
  version := 1
  createdAt := 0
  updatedAt := 0

def halfSplit (guid txGuid accountGuid : Guid) (num : Int64) : Split where
  guid
  txGuid
  accountGuid
  memo := ""
  valueNum := num
  valueDenom := 100
  quantityNum := num
  quantityDenom := 100
  reconcileState := "n"
  createdAt := 0

/-- Transactions 10 and 20 have one plaid transaction id; the second is over `num` hundredths. -/
def importedTwice (num : Int64) : Tables where
  plaidItems := []
  transactions := [importedTransaction 10, importedTransaction 20]
  splits := [halfSplit 11 10 1 500, halfSplit 12 10 2 (-500),
    halfSplit 21 20 1 num, halfSplit 22 20 2 (-num)]
  accounts := [plainAccount 1, plainAccount 2]
  audit := none
  staged := none

/-- Rows lie in the order of their guids. -/
def inOrder : Deployment where
  items := ⟨0, id⟩
  transactions := ⟨0, id⟩
  links := ⟨0, id⟩
  relinks := ⟨0, id⟩

theorem importedTwice_valid (num : Int64) : (importedTwice num).Valid where
  plaidItems := List.nodup_nil
  transactions := show [10, 20].Nodup by decide
  splits := show [11, 12, 21, 22].Nodup by decide
  accounts := show [1, 2].Nodup by decide
  splitTransaction := by simp [importedTwice, halfSplit, importedTransaction]
  splitAccount := by simp [importedTwice, halfSplit, plainAccount]
  parent := by simp [importedTwice, plainAccount]
  audit := rfl
  staged := rfl

theorem importedTwice_places (num : Int64) : inOrder.Places (importedTwice num) where
  items := List.nodup_nil
  transactions := show [10, 20].Nodup by decide
  links := show [1, 2].Nodup by decide
  relinks := show [1, 2].Nodup by decide

theorem migrate_archives_importedTwice :
    ∃ r, migrate (fun _ => "") inOrder (importedTwice 500) = .ok r ∧
      ∃ db', db'.Valid ∧ ¬ db'.Same (importedTwice 500) ∧
        migrate (fun _ => "") inOrder db' = .ok r := by
  obtain ⟨r, hr, -, -, hlost⟩ := migrate_archives (fun _ => "") inOrder (importedTwice 500)
    (importedTwice_valid 500) (importedTwice_places 500)
  have hnot : ¬ (importedTwice 500).Archived (fun _ => "") inOrder := by
    intro h
    have hle := h.splits (halfSplit 21 20 1 500) (by simp [importedTwice])
      (importedTransaction 20) (by simp [importedTwice]) rfl rfl
      (importedTransaction 10) (by simp [importedTwice]) rfl
    exact absurd hle (by decide)
  obtain ⟨db', hv, -, hne, hsame⟩ := hlost hnot
  exact ⟨r, hr, db', hv, hne, hsame⟩

/-- The amounts of the deleted transaction are gone: no function of the outcome rebuilds it. -/
theorem migrate_no_rebuild : ¬ ∃ f : Tables → Tables, ∀ (print : Jsonb → String) (d : Deployment)
    (db : Tables), db.Valid → d.Places db → ∃ r, migrate print d db = .ok r ∧ (f r).Same db := by
  rintro ⟨f, hf⟩
  obtain ⟨r, hr, hsame⟩ := hf (fun _ => "") inOrder (importedTwice 500)
    (importedTwice_valid 500) (importedTwice_places 500)
  obtain ⟨r', hr', hsame'⟩ := hf (fun _ => "") inOrder (importedTwice 700)
    (importedTwice_valid 700) (importedTwice_places 700)
  have hone : migrate (fun _ => "") inOrder (importedTwice 500) =
      migrate (fun _ => "") inOrder (importedTwice 700) := by
    rw [migrate_ok (importedTwice_valid 500) (importedTwice_places 500),
      migrate_ok (importedTwice_valid 700) (importedTwice_places 700)]
    rfl
  obtain rfl : r = r' := Except.ok.inj (hr.symm.trans (hone.trans hr'))
  have hmem : halfSplit 21 20 1 500 ∈ (importedTwice 700).splits :=
    hsame'.splits.mem_iff.mp (hsame.splits.mem_iff.mpr (by simp [importedTwice]))
  revert hmem
  decide

end Antimoney.Migrations
