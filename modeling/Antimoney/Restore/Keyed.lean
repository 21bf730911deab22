import Antimoney.Writes

/-!
# Keys and references

The schema's promises about accounts, transactions and splits: no two rows of a table have one
identifier, and a parent, a split's transaction and a split's account are rows.

* `Db.Keyed`: the promises.
* `Issued.keyed`: no statement breaks them.
* **`Runs.keyed`**: they hold in every state of the server.
-/

namespace Antimoney

open Antimoney.Lib Prog

/-- The keys and references of accounts, transactions and splits hold, as the schema has them. -/
structure Db.Keyed (db : Db) : Prop where
  accounts : (db.accounts.map (·.guid)).Nodup
  transactions : (db.transactions.map (·.guid)).Nodup
  splits : (db.splits.map (·.guid)).Nodup
  parents : ∀ a ∈ db.accounts, db.refOk a.parentGuid = true
  split_transaction : ∀ s ∈ db.splits, db.hasTransaction s.txGuid = true
  split_account : ∀ s ∈ db.splits, db.hasAccount s.accountGuid = true

theorem Db.keyed_empty : Db.empty.Keyed := by
  constructor <;> simp [Db.empty]

/-- The key finds the account. -/
theorem Db.find_account {db : Db} (hn : (db.accounts.map (·.guid)).Nodup) {a : Account}
    (ha : a ∈ db.accounts) : db.accounts.find? (·.guid == a.guid) = some a := by
  cases hf : db.accounts.find? (·.guid == a.guid) with
  | none => exact absurd (List.find?_eq_none.mp hf a ha) (by simp)
  | some b =>
    have hb := List.find?_some hf
    rw [List.inj_on_of_nodup_map hn (List.mem_of_find?_eq_some hf) ha (by simpa using hb)]

/-! ## Tables -/

section Tables

variable {α : Type} {key : α → Guid} {t : List α} {r : α} {g : Guid}

/-- A key that is found is one of the keys. -/
theorem any_key : t.any (key · == g) = true ↔ g ∈ t.map key := by
  rw [List.any_eq_true, List.mem_map]
  exact ⟨fun ⟨r, hr, he⟩ => ⟨r, hr, beq_iff_eq.mp he⟩, fun ⟨r, hr, he⟩ => ⟨r, hr, beq_iff_eq.mpr he⟩⟩

theorem nodup_append_key (hn : (t.map key).Nodup) (hr : t.any (key · == key r) = false) :
    ((t ++ [r]).map key).Nodup := by
  rw [List.map_append, List.nodup_append]
  refine ⟨hn, List.nodup_singleton _, fun k hk k' hk' he => ?_⟩
  rw [← Bool.not_eq_true, any_key] at hr
  rw [he, List.mem_singleton.mp hk'] at hk
  exact hr hk

theorem nodup_deleteWhere (c : α → Bool) (hn : (t.map key).Nodup) :
    ((deleteWhere c t).map key).Nodup :=
  (List.filter_sublist.map key).nodup hn

end Tables

namespace Db.Keyed

variable {db db' : Db}

/-- Other tables do not matter. -/
theorem frame (h : db.Keyed) (ha : db'.accounts = db.accounts)
    (ht : db'.transactions = db.transactions) (hs : db'.splits = db.splits) : db'.Keyed := by
  cases db'
  dsimp only at ha ht hs
  subst ha ht hs
  exact ⟨h.accounts, h.transactions, h.splits, h.parents, h.split_transaction, h.split_account⟩

/-- Bank links and versions do not matter either. -/
theorem aside (h : db.Keyed) (hx : Aside db db') : db'.Keyed := by
  have hguids : db'.accounts.map (·.guid) = db.accounts.map (·.guid) :=
    map_eq_iff_forall₂.mpr (hx.accounts.flip.imp fun _ _ hab => hab.guid)
  have hany : ∀ g, db'.hasAccount g = db.hasAccount g := fun g => by
    rw [Bool.eq_iff_iff, Db.hasAccount, any_key, hguids, ← any_key]
    rfl
  refine ⟨hguids ▸ h.accounts, hx.transactions ▸ h.transactions, hx.splits ▸ h.splits,
    fun b hb => ?_, fun s hs => ?_, fun s hs => ?_⟩
  · obtain ⟨a, ha, hab⟩ := exists_of_forall₂ hx.accounts hb
    rw [Db.refOk, hab.parentGuid, funext hany]
    exact h.parents a ha
  · rw [hx.splits] at hs
    rw [Db.hasTransaction, hx.transactions]
    exact h.split_transaction s hs
  · rw [hx.splits] at hs
    rw [hany]
    exact h.split_account s hs

/-- A new account, under a parent that is there. -/
theorem addAccount (h : db.Keyed) {a : Account} (hnew : db.hasAccount a.guid = false)
    (href : db.refOk a.parentGuid = true) :
    Db.Keyed { db with accounts := db.accounts ++ [a] } := by
  have hmono : ∀ {g : Guid}, db.hasAccount g = true →
      (db.accounts ++ [a]).any (·.guid == g) = true := fun hg => by
    rw [List.any_append]
    exact Bool.or_eq_true_iff.mpr (.inl hg)
  have hparent : ∀ p : Option Guid, db.refOk p = true → p.all
      (fun g => (db.accounts ++ [a]).any (·.guid == g)) = true := by
    rintro (_ | p) hp
    · rfl
    · exact hmono hp
  refine ⟨nodup_append_key h.accounts hnew, h.transactions, h.splits, fun b hb => ?_,
    h.split_transaction, fun s hs => hmono (h.split_account s hs)⟩
  rcases List.mem_append.mp hb with hb | hb
  · exact hparent _ (h.parents b hb)
  · obtain rfl := List.mem_singleton.mp hb
    exact hparent _ href

theorem insertAccount (h : db.Keyed) {a : Account} (hi : db.insertAccount a = .ok db') :
    db'.Keyed := by
  obtain ⟨⟨hnew, -, href⟩, rfl⟩ := Db.insertAccount_ok hi
  exact h.addAccount hnew href

theorem deleteAccounts (h : db.Keyed) {c : Account → Bool} {n : Nat}
    (hd : db.deleteAccounts c = .ok (n, db')) : db'.Keyed := by
  obtain ⟨rfl, href, -⟩ := Db.deleteAccounts_ok hd
  simp only [Db.accountRefsOk, Bool.and_eq_true, List.all_eq_true] at href
  obtain ⟨⟨hparents, hsplits⟩, -⟩ := href
  have hkeep : ∀ g, db.hasAccount g = true →
      (!(db.accounts.filter c).any (·.guid == g)) = true →
      (deleteWhere c db.accounts).any (·.guid == g) = true := by
    intro g hg hgone
    obtain ⟨a, ha, he⟩ := List.any_eq_true.mp hg
    refine List.any_eq_true.mpr ⟨a, mem_deleteWhere.mpr ⟨ha, ?_⟩, he⟩
    by_contra hc
    rw [Bool.not_eq_true', List.any_eq_false] at hgone
    exact hgone a (List.mem_filter.mpr ⟨ha, by simpa using hc⟩) he
  refine ⟨nodup_deleteWhere c h.accounts, h.transactions, h.splits, fun a ha => ?_,
    h.split_transaction, fun s hs => hkeep _ (h.split_account s hs) (hsplits s hs)⟩
  have hp := h.parents a (mem_deleteWhere.mp ha).1
  have hgone := hparents a ha
  cases hpar : a.parentGuid with
  | none => rfl
  | some p =>
    rw [hpar] at hp hgone
    exact hkeep p hp hgone

/-- An update of accounts that keeps identifiers, and sets parents that exist. -/
theorem updateAccounts (h : db.Keyed) {c : Account → Bool} {f : Account → Account}
    (hg : ∀ a, (f a).guid = a.guid)
    (hp : ∀ a ∈ db.accounts, c a = true → db.refOk a.parentGuid = true →
      db.refOk (f a).parentGuid = true) :
    Db.Keyed { db with accounts := updateWhere c f db.accounts } := by
  have hany : ∀ g, (updateWhere c f db.accounts).any (·.guid == g) = db.hasAccount g := fun g => by
    rw [Bool.eq_iff_iff, Db.hasAccount, any_key, any_key, map_updateWhere hg]
  have href : ∀ p, ({ db with accounts := updateWhere c f db.accounts } : Db).refOk p =
      db.refOk p := fun p => by
    cases p with
    | none => rfl
    | some p => exact hany p
  refine ⟨(map_updateWhere hg db.accounts).symm ▸ h.accounts, h.transactions, h.splits,
    fun a ha => ?_, h.split_transaction, fun s hs => (hany _).trans (h.split_account s hs)⟩
  rw [href]
  rcases mem_updateWhere_cases ha with ⟨ha, -⟩ | ⟨b, hb, hc, rfl⟩
  · exact h.parents a ha
  · exact hp b hb hc (h.parents b hb)

theorem insertTransaction (h : db.Keyed) {t : Transaction}
    (hi : db.insertTransaction t = .ok db') : db'.Keyed := by
  obtain ⟨⟨hnew, -⟩, rfl⟩ := Db.insertTransaction_ok hi
  refine ⟨h.accounts, nodup_append_key h.transactions hnew, h.splits, h.parents, fun s hs => ?_,
    h.split_account⟩
  exact (List.any_append ..).trans (Bool.or_eq_true_iff.mpr (.inl (h.split_transaction s hs)))

theorem updateTransactions (h : db.Keyed) {c : Transaction → Bool} {f : Transaction → Transaction}
    (hg : ∀ t, (f t).guid = t.guid) :
    Db.Keyed { db with transactions := updateWhere c f db.transactions } := by
  refine ⟨h.accounts, (map_updateWhere hg db.transactions).symm ▸ h.transactions, h.splits,
    h.parents, fun s hs => ?_, h.split_account⟩
  rw [Db.hasTransaction, any_key, map_updateWhere hg, ← any_key]
  exact h.split_transaction s hs

theorem deleteTransactions (h : db.Keyed) (c : Transaction → Bool) :
    (db.deleteTransactions c).2.Keyed := by
  refine ⟨h.accounts, nodup_deleteWhere c h.transactions, nodup_deleteWhere _ h.splits, h.parents,
    fun s hs => ?_, fun s hs => h.split_account s (mem_deleteWhere.mp hs).1⟩
  obtain ⟨hs, hgone⟩ := mem_deleteWhere.mp hs
  obtain ⟨t, ht, he⟩ := List.any_eq_true.mp (h.split_transaction s hs)
  refine List.any_eq_true.mpr ⟨t, mem_deleteWhere.mpr ⟨ht, ?_⟩, he⟩
  by_contra hc
  exact List.any_eq_false.mp hgone t (List.mem_filter.mpr ⟨ht, by simpa using hc⟩) he

theorem insertSplit (h : db.Keyed) {s : Split} (hi : db.insertSplit s = .ok db') : db'.Keyed := by
  obtain ⟨⟨hnew, htx, hacc⟩, rfl⟩ := Db.insertSplit_ok hi
  refine ⟨h.accounts, h.transactions, nodup_append_key h.splits hnew, h.parents, fun r hr => ?_,
    fun r hr => ?_⟩
  · rcases List.mem_append.mp hr with hr | hr
    · exact h.split_transaction r hr
    · exact List.mem_singleton.mp hr ▸ htx
  · rcases List.mem_append.mp hr with hr | hr
    · exact h.split_account r hr
    · exact List.mem_singleton.mp hr ▸ hacc

theorem deleteSplits (h : db.Keyed) (c : Split → Bool) :
    Db.Keyed { db with splits := deleteWhere c db.splits } :=
  ⟨h.accounts, h.transactions, nodup_deleteWhere c h.splits, h.parents,
    fun s hs => h.split_transaction s (mem_deleteWhere.mp hs).1,
    fun s hs => h.split_account s (mem_deleteWhere.mp hs).1⟩

theorem setReconcileState (h : db.Keyed) (book : Guid) (state : String) (c : Split → Bool) :
    (setReconcileState book state c db).2.Keyed := by
  have hkeep : ∀ s : Split, { s with reconcileState := state }.guid = s.guid := fun _ => rfl
  have hold : ∀ s ∈ (Antimoney.setReconcileState book state c db).2.splits, ∃ s₀ ∈ db.splits,
      s.txGuid = s₀.txGuid ∧ s.accountGuid = s₀.accountGuid := by
    intro s hs
    rcases mem_updateWhere_cases hs with ⟨hs, -⟩ | ⟨s₀, hs₀, -, rfl⟩
    · exact ⟨s, hs, rfl, rfl⟩
    · exact ⟨s₀, hs₀, rfl, rfl⟩
  refine ⟨h.accounts, h.transactions, (map_updateWhere hkeep db.splits).symm ▸ h.splits,
    h.parents, fun s hs => ?_, fun s hs => ?_⟩
  · obtain ⟨s₀, hs₀, ht, -⟩ := hold s hs
    exact ht ▸ h.split_transaction s₀ hs₀
  · obtain ⟨s₀, hs₀, -, ha⟩ := hold s hs
    exact ha ▸ h.split_account s₀ hs₀

end Db.Keyed

/-! ## Statements -/

section Statements

variable {book : Guid} {env : Env} {v v' : Db}

theorem Touches.keyed (h : v.Keyed) (hx : Touches v v') : v'.Keyed := by
  cases hx with
  | aside hx => exact h.aside hx
  | account hx => exact h.insertAccount hx
  | drop hx => exact h.deleteAccounts hx
  | delete c => exact h.deleteTransactions c

theorem Amending.keyed {β : Type} {q : Stmt β} {b : β} (hq : Amending book q) (h : v.Keyed)
    (hx : q.sem env v = .ok (b, v')) : v'.Keyed := by
  cases hq with
  | toggleSplit s st =>
    obtain ⟨g, -, hx⟩ := ok_bind (ok_of_failing hx)
    obtain rfl := congrArg Prod.snd (Except.ok.inj hx)
    exact h.setReconcileState _ _ _
  | reconcileSplit s =>
    obtain ⟨g, -, hx⟩ := ok_bind (ok_of_failing hx)
    obtain rfl := congrArg Prod.snd (Except.ok.inj hx)
    exact h.setReconcileState _ _ _
  | reconcileAccounts as =>
    obtain ⟨gs, -, hx⟩ := ok_bind (ok_of_failing hx)
    obtain rfl := congrArg Prod.snd (Except.ok.inj hx)
    exact h.setReconcileState _ _ _
  | insertImportAccount a =>
    obtain ⟨v'', hi, hx⟩ := ok_bind (ok_of_failing hx)
    obtain ⟨-, rfl⟩ := Prod.mk.inj (Except.ok.inj hx)
    exact h.insertAccount hi
  | updateAccount a r n =>
    rcases updateAccountStmt_cases hx with rfl | ⟨g, p, -, -, -, hp, rfl⟩
    · exact h
    · refine h.updateAccounts (fun _ => rfl) fun a _ _ ha => ?_
      cases p with
      | none => exact ha
      | some p => exact hp
  | updateHierarchy a p =>
    obtain ⟨g, -, hx⟩ := ok_bind (ok_of_failing hx)
    obtain ⟨hp, hx⟩ := require_bind hx
    obtain ⟨-, rfl⟩ := Prod.mk.inj (Except.ok.inj hx)
    refine h.updateAccounts (fun _ => rfl) fun b hb hc _ => ?_
    have hany : v.accounts.any (fun x => x.guid == a && x.bookGuid == book) = true :=
      List.any_eq_true.mpr ⟨b, hb, hc⟩
    rw [hany] at hp
    exact hp

theorem Posting.keyed {β : Type} {q : Stmt β} {b : β} (hq : Posting book q) (h : v.Keyed)
    (hx : q.sem env v = .ok (b, v')) : v'.Keyed := by
  cases hq with
  | insertTransaction t hb =>
    obtain ⟨v'', hi, he⟩ := ok_map (ok_of_failing hx)
    obtain ⟨-, rfl⟩ := Prod.mk.inj he
    exact h.insertTransaction hi
  | insertSplit a s =>
    obtain ⟨g, -, hx⟩ := ok_bind (ok_of_failing hx)
    obtain ⟨v'', hi, hx⟩ := ok_bind hx
    obtain ⟨-, rfl⟩ := Prod.mk.inj (Except.ok.inj hx)
    exact h.insertSplit hi
  | updateTransaction t c p d n =>
    obtain ⟨-, hx⟩ := require_bind (ok_of_failing hx)
    obtain ⟨-, rfl⟩ := Prod.mk.inj (Except.ok.inj hx)
    exact h.updateTransactions fun _ => rfl
  | deleteSplitsOf t =>
    obtain ⟨-, rfl⟩ := Prod.mk.inj (Except.ok.inj (ok_of_failing hx))
    exact h.deleteSplits _
  | deleteBookSplits =>
    obtain ⟨-, rfl⟩ := Prod.mk.inj (Except.ok.inj (ok_of_failing hx))
    exact h.deleteSplits _
  | deleteBookTransactions =>
    obtain ⟨-, rfl⟩ := Prod.mk.inj (Except.ok.inj (ok_of_failing hx))
    exact h.deleteTransactions _
  | insertImportTransaction t =>
    obtain ⟨post, -, hx⟩ := ok_bind (ok_of_failing hx)
    obtain ⟨enter, -, hx⟩ := ok_bind hx
    obtain ⟨v'', hi, hx⟩ := ok_bind hx
    obtain ⟨-, rfl⟩ := Prod.mk.inj (Except.ok.inj hx)
    exact h.insertTransaction hi
  | insertImportSplit t s =>
    obtain ⟨g, -, hx⟩ := ok_bind (ok_of_failing hx)
    obtain ⟨v'', hi, hx⟩ := ok_bind hx
    obtain ⟨-, rfl⟩ := Prod.mk.inj (Except.ok.inj hx)
    exact h.insertSplit hi
  | insertSnapshot l t d =>
    rw [insertSnapshotStmt_ok ((insertSnapshotStmt book l t d).write_self hx)]
    exact h.frame rfl rfl rfl

/-- **No statement breaks the keys.** -/
theorem Issued.keyed {β : Type} {q : Stmt β} {b : β} (hq : Issued book q) (h : v.Keyed)
    (hx : q.sem env v = .ok (b, v')) : v'.Keyed := by
  rcases hq with (hq | hq) | hq
  · rcases hq.reads_or_write with hr | hw
    · exact (hr.sem hx).symm ▸ h
    · exact (hw.touches hx).touches.keyed h
  · exact hq.keyed h hx
  · exact hq.keyed h hx

end Statements

/-! ## The server -/

/-- **The keys hold in every state of the server.** -/
theorem Runs.keyed {ok : Event → (Nat → Env) → Db → Prop} {db : Db} (hr : Runs ok db) :
    db.Keyed := by
  refine hr.invariant Db.keyed_empty fun e envs db h ha _ => ?_
  have hswp : e.call.swp machine Duty.none (fun _ t => t.Holds Db.Keyed) (.idle db) :=
    swp_of_issues (event_issued e) (fun q env v v' b ⟨book, hq⟩ hv _ hx => hq.keyed hv hx)
      (Solo.holds_idle h)
  exact (run_of_swp hswp ha).1

end Antimoney
