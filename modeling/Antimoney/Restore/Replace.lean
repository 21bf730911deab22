import Antimoney.Ledger.Import

/-!
# Replacing a book

What the transaction of `performImport` does to the database: the book is cleared
(`Db.clearBook`), then each batch appends the rows of its statements, in their order
(`swp_inserts`), with the accounts' parents filled in between.

* `Db.refill`: a cleared book with its new rows.
* **`replaceBook_swp`**: the transaction fails and leaves the database as it was, or each account,
  transaction and split of the renamed file has its row and the book has no other.
-/

namespace Antimoney

open Antimoney.Lib Prog

/-! ## Batches of insertions -/

/-- **The rule of a batch of insertions**: each statement appends a row that keeps its promise `R`
and whose key is not there yet. -/
theorem swp_inserts {ι ρ : Type} {A : ∀ {β : Type}, Stmt β → Env → Db → Bool} {f : ι → Stmt Unit}
    {put : List ρ → Db} {R : ι → ρ → Prop} {key : ρ → Guid} {s v : Db} {label : String}
    (hv : v = put [])
    (hput : ∀ x rows env w, (f x).sem env (put rows) = .ok ((), w) →
      ∃ r, R x r ∧ key r ∉ rows.map key ∧ w = put (rows ++ [r])) (xs : List ι) :
    (execImportBatch label (xs.map f)).swp (machine.assuming A) Duty.none
      (Ends s fun _ w => ∃ rows, w = put rows ∧ List.Forall₂ R xs rows ∧ (rows.map key).Nodup)
      (.tx s v) := by
  subst hv
  let J : List ι → Db → Prop := fun left v => ∃ done rows, done ++ left = xs ∧ v = put rows ∧
    List.Forall₂ R done rows ∧ (rows.map key).Nodup
  have hstep : ∀ x left env v v', J (x :: left) v → (f x).sem env v = .ok ((), v') →
      J left v' := by
    rintro x left env _ v' ⟨done, rows, hxs, rfl, hr, hn⟩ hx
    obtain ⟨r, hxr, hnew, rfl⟩ := hput x rows env v' hx
    refine ⟨done ++ [x], rows ++ [r], by simp [← hxs], rfl,
      List.rel_append hr (.cons hxr .nil), ?_⟩
    rw [List.map_append, List.nodup_append]
    exact ⟨hn, List.nodup_singleton _, fun k hk k' hk' he => hnew (by
      rw [← List.mem_singleton.mp hk', ← he]
      exact hk)⟩
  refine swp_mono (fun r t ht => ?_) (swp_batch (J := J) hstep ⟨[], [], rfl, rfl, .nil, .nil⟩)
  cases r with
  | error e => exact ht
  | ok _ =>
    obtain ⟨v, rfl, done, rows, hxs, hv, hr, hn⟩ := ht
    rw [List.append_nil] at hxs
    exact ⟨v, rfl, rows, hv, hxs ▸ hr, hn⟩

/-! ## The rows of a renamed file -/

/-- The row of an account of the file, but for its parent. -/
structure AccountRow (book : Guid) (a : ImportAccount) (r : Account) : Prop where
  guid : r.guid = a.guid
  bookGuid : r.bookGuid = book
  name : r.name = a.src.name
  accountType : r.accountType = a.src.accountType
  placeholder : r.placeholder = a.src.placeholder
  description : r.description = a.src.description
  plaid : r.plaid = none

/-- The row's parent is the one the account names. -/
structure Parented (a : ImportAccount) (r : Account) : Prop where
  top : a.parentGuid = none → r.parentGuid = none
  under : ∀ p, a.parentGuid = some p → ∃ g, p.parse = .ok g ∧ r.parentGuid = some g

/-- The row of a transaction of the file. -/
structure TransactionRow (book : Guid) (t : ImportTransaction) (r : Transaction) : Prop where
  guid : r.guid = t.guid
  bookGuid : r.bookGuid = book
  customId : r.customId = ""
  postDate : t.src.postDate = some r.postDate
  enterDate : t.src.enterDate = some r.enterDate
  description : r.description = t.src.description
  plaidTxnId : r.plaidTxnId = none

/-- The row of a split of the file, of the transaction `p.1`. -/
structure SplitRow (p : Guid × ImportSplit) (r : Split) : Prop where
  guid : r.guid = p.2.guid
  txGuid : r.txGuid = p.1
  account : p.2.accountGuid.parse = .ok r.accountGuid
  memo : r.memo = p.2.src.memo
  valueNum : r.valueNum = p.2.src.valueNum
  valueDenom : r.valueDenom = p.2.src.valueDenom
  quantityNum : r.quantityNum = p.2.src.quantityNum
  quantityDenom : r.quantityDenom = p.2.src.quantityDenom
  reconcileState : r.reconcileState = p.2.src.reconcileState

section Rows

variable {v v' : Db} {book : Guid} {env : Env}

theorem insertImportAccount_row {a : ImportAccount}
    (h : (insertImportAccount book a).sem env v = .ok ((), v')) :
    ∃ r, (AccountRow book a r ∧ r.parentGuid = none) ∧ v.hasAccount r.guid = false ∧
      v.hasBook book = true ∧ v' = { v with accounts := v.accounts ++ [r] } := by
  obtain ⟨v'', hi, hx⟩ := ok_bind (ok_of_failing h)
  obtain ⟨-, rfl⟩ := Prod.mk.inj (Except.ok.inj hx)
  obtain ⟨⟨hnew, hbook, -⟩, rfl⟩ := Db.insertAccount_ok hi
  exact ⟨_, ⟨⟨rfl, rfl, rfl, rfl, rfl, rfl, rfl⟩, rfl⟩, hnew, hbook, rfl⟩

theorem insertImportTransaction_row {t : ImportTransaction}
    (h : (insertImportTransaction book t).sem env v = .ok ((), v')) :
    ∃ r, TransactionRow book t r ∧ v.hasTransaction r.guid = false ∧
      v' = { v with transactions := v.transactions ++ [r] } := by
  obtain ⟨post, hpost, hx⟩ := ok_bind (ok_of_failing h)
  obtain ⟨enter, henter, hx⟩ := ok_bind hx
  obtain ⟨v'', hi, hx⟩ := ok_bind hx
  obtain ⟨-, rfl⟩ := Prod.mk.inj (Except.ok.inj hx)
  obtain ⟨⟨hnew, -⟩, rfl⟩ := Db.insertTransaction_ok hi
  have htime : ∀ {o : Option Time} {d : Time}, parseTime o = .ok d → o = some d := by
    intro o d ho
    cases o with
    | none => exact absurd ho (by simp [parseTime])
    | some d' => rw [Except.ok.inj ho]
  exact ⟨_, ⟨rfl, rfl, rfl, htime hpost, htime henter, rfl, rfl⟩, hnew, rfl⟩

theorem insertImportSplit_row {p : Guid × ImportSplit}
    (h : (insertImportSplit p.1 p.2).sem env v = .ok ((), v')) :
    ∃ r, SplitRow p r ∧ v.splits.any (·.guid == r.guid) = false ∧
      v' = { v with splits := v.splits ++ [r] } := by
  obtain ⟨g, hg, hx⟩ := ok_bind (ok_of_failing h)
  obtain ⟨v'', hi, hx⟩ := ok_bind hx
  obtain ⟨-, rfl⟩ := Prod.mk.inj (Except.ok.inj hx)
  obtain ⟨⟨hnew, -⟩, rfl⟩ := Db.insertSplit_ok hi
  exact ⟨_, ⟨rfl, rfl, hg, rfl, rfl, rfl, rfl, rfl, rfl⟩, hnew, rfl⟩

theorem updateHierarchy_sem {g : Guid} {p : GuidText}
    (h : (updateHierarchy book g p).sem env v = .ok ((), v')) :
    ∃ q, p.parse = .ok q ∧ v' = { v with
      accounts := updateWhere (fun a => a.guid == g && a.bookGuid == book)
        (fun a => { a with parentGuid := some q }) v.accounts } := by
  obtain ⟨q, hq, hx⟩ := ok_bind (ok_of_failing h)
  obtain ⟨-, hx⟩ := require_bind hx
  obtain ⟨-, rfl⟩ := Prod.mk.inj (Except.ok.inj hx)
  exact ⟨q, hq, rfl⟩

end Rows

/-- A key that no row has. -/
theorem key_notMem {ρ : Type} {key : ρ → Guid} {old new : List ρ} {g : Guid}
    (h : (old ++ new).any (key · == g) = false) : g ∉ new.map key := by
  intro hg
  obtain ⟨r, hr, rfl⟩ := List.mem_map.mp hg
  exact List.any_eq_false.mp h r (List.mem_append_right _ hr) (beq_self_eq_true _)

/-! ## The batch of parents -/

/-- An account whose row has its parent, or whose turn is still to come. -/
def ParentDue (book : Guid) (left : List (Guid × GuidText)) (a : ImportAccount) (r : Account) :
    Prop :=
  AccountRow book a r ∧ (Parented a r ∨ a.guid ∈ left.map Prod.fst)

/-- One update: the row it names has its parent. -/
theorem ParentDue.step {book : Guid} {p : Guid × GuidText} {left : List (Guid × GuidText)} {q : Guid}
    {accounts : List ImportAccount} {rows : List Account}
    (hp : ∀ a ∈ accounts, a.guid = p.1 → a.parentGuid = some p.2) (hq : p.2.parse = .ok q)
    (h : List.Forall₂ (ParentDue book (p :: left)) accounts rows) :
    List.Forall₂ (ParentDue book left) accounts
      (updateWhere (fun a => a.guid == p.1 && a.bookGuid == book)
        (fun a => { a with parentGuid := some q }) rows) := by
  induction h with
  | nil => exact .nil
  | @cons a r accounts rows har _ ih =>
    obtain ⟨hrow, hpar⟩ := har
    rw [updateWhere_cons]
    refine .cons ?_ (ih fun b hb => hp b (.tail _ hb))
    by_cases hg : a.guid = p.1
    · have hc : (r.guid == p.1 && r.bookGuid == book) = true := by
        simp [hrow.guid, hrow.bookGuid, hg]
      have hpa := hp a List.mem_cons_self hg
      rw [if_pos hc]
      refine ⟨⟨hrow.guid, hrow.bookGuid, hrow.name, hrow.accountType, hrow.placeholder,
        hrow.description, hrow.plaid⟩, .inl ⟨fun hn => ?_, fun p' hp' => ?_⟩⟩
      · exact absurd (hpa.symm.trans hn) (by simp)
      · obtain rfl := Option.some.inj (hpa.symm.trans hp')
        exact ⟨q, hq, rfl⟩
    · have hc : ¬ (r.guid == p.1 && r.bookGuid == book) = true := by
        simp [hrow.guid, hg]
      rw [if_neg hc]
      refine ⟨hrow, hpar.imp_right fun hmem => ?_⟩
      rcases List.mem_cons.mp hmem with he | hmem
      · exact absurd he hg
      · exact hmem

/-- With distinct identifiers, an update names one account. -/
theorem parent_of_pair {accounts : List ImportAccount} (hn : (accounts.map (·.guid)).Nodup)
    {p : Guid × GuidText}
    (hp : p ∈ accounts.filterMap fun a => a.parentGuid.map (Prod.mk a.guid)) :
    ∀ a ∈ accounts, a.guid = p.1 → a.parentGuid = some p.2 := by
  intro a ha hg
  obtain ⟨b, hb, he⟩ := List.mem_filterMap.mp hp
  obtain ⟨q, hq, rfl⟩ := Option.map_eq_some_iff.mp he
  obtain rfl : a = b := List.inj_on_of_nodup_map hn ha hb hg
  exact hq

/-! ## `replaceBook` -/

/-- A book with new rows. -/
def Db.refill (v : Db) (book root : Guid) (accounts : List Account) (txns : List Transaction)
    (splits : List Split) : Db :=
  { v with
    books := updateWhere (·.guid == book) (fun b => { b with rootAccountGuid := some root }) v.books
    accounts := v.accounts ++ accounts
    transactions := v.transactions ++ txns
    splits := v.splits ++ splits }

theorem Db.refill_splits {v : Db} {book root : Guid} {as : List Account} {ts : List Transaction}
    {ss : List Split} {sp : Split} (h : sp ∈ ((v.clearBook book).refill book root as ts ss).splits) :
    sp ∈ v.splits ∨ sp ∈ ss := by
  rcases List.mem_append.mp (show sp ∈ (v.clearBook book).splits ++ ss from h) with h | h
  · exact .inl (List.mem_of_mem_filter h)
  · exact .inr h

theorem Db.hasBook_clearBook (s : Db) (book b : Guid) :
    (s.clearBook book).hasBook b = s.hasBook b := by
  have hkeep : ∀ x : Book, { x with rootAccountGuid := none }.guid = x.guid := fun _ => rfl
  have hmap : ∀ bs : List Book, bs.any (·.guid == b) = (bs.map (·.guid)).any (· == b) :=
    fun bs => by rw [List.any_map]; rfl
  rw [Db.hasBook, Db.hasBook, hmap, hmap]
  exact congrArg (List.any · _) (map_updateWhere hkeep s.books)

/-- The rows are those of the renamed file, for a book of `s`. -/
structure Replaced (s : Db) (book : Guid) (accounts : List ImportAccount)
    (txns : List ImportTransaction) (as : List Account) (ts : List Transaction) (ss : List Split) :
    Prop where
  hasBook : s.hasBook book = true
  accounts : List.Forall₂ (fun a r => AccountRow book a r ∧ Parented a r) accounts as
  accounts_nodup : (as.map (·.guid)).Nodup
  transactions : List.Forall₂ (TransactionRow book) txns ts
  transactions_nodup : (ts.map (·.guid)).Nodup
  splits : List.Forall₂ SplitRow (txns.flatMap fun t => t.splits.map (Prod.mk t.guid)) ss
  splits_nodup : (ss.map (·.guid)).Nodup

section Replace

variable {A : ∀ {β : Type}, Stmt β → Env → Db → Bool} {s v : Db} {book root : Guid}

/-- Inserting the accounts, without their parents. -/
theorem insertAccounts_swp (accounts : List ImportAccount) :
    (execImportBatch "insert account" (accounts.map (insertImportAccount book))).swp
      (machine.assuming A) Duty.none
      (Ends s fun _ w => ∃ rows, w = { v with accounts := v.accounts ++ rows } ∧
        List.Forall₂ (fun a r => AccountRow book a r ∧ r.parentGuid = none ∧ v.hasBook book = true)
          accounts rows ∧ (rows.map (·.guid)).Nodup) (.tx s v) := by
  refine @swp_inserts _ _ _ _ (fun rows => { v with accounts := v.accounts ++ rows }) _ _ _ _ _
    (by simp) (fun a rows env w hx => ?_) accounts
  obtain ⟨r, ⟨hrow, hpar⟩, hnew, hbook, rfl⟩ := insertImportAccount_row hx
  exact ⟨r, ⟨hrow, hpar, hbook⟩, key_notMem hnew, by simp⟩

/-- Filling in the parents. -/
theorem updateHierarchy_swp {accounts : List ImportAccount} {rows : List Account}
    (hold : ∀ a ∈ v.accounts, a.bookGuid ≠ book)
    (hrows : List.Forall₂ (fun a r => AccountRow book a r ∧ r.parentGuid = none) accounts rows)
    (hn : (accounts.map (·.guid)).Nodup) :
    (execImportBatch "update account hierarchy"
      (accounts.filterMap fun a => a.parentGuid.map (updateHierarchy book a.guid))).swp
      (machine.assuming A) Duty.none
      (Ends s fun _ w => ∃ as, w = { v with accounts := v.accounts ++ as } ∧
        List.Forall₂ (fun a r => AccountRow book a r ∧ Parented a r) accounts as ∧
        as.map (·.guid) = rows.map (·.guid)) (.tx s { v with accounts := v.accounts ++ rows }) := by
  rw [hierarchy_batch]
  let pairs := accounts.filterMap fun a => a.parentGuid.map (Prod.mk a.guid)
  let J : List (Guid × GuidText) → Db → Prop := fun left w => (∀ p ∈ left, p ∈ pairs) ∧
    ∃ as, w = { v with accounts := v.accounts ++ as } ∧
      List.Forall₂ (ParentDue book left) accounts as ∧ as.map (·.guid) = rows.map (·.guid)
  have hstep : ∀ p left env w w', J (p :: left) w →
      (updateHierarchy book p.1 p.2).sem env w = .ok ((), w') → J left w' := by
    rintro p left env _ w' ⟨hin, as, rfl, has, hg⟩ hx
    obtain ⟨q, hq, rfl⟩ := updateHierarchy_sem hx
    refine ⟨fun p' hp' => hin p' (.tail _ hp'), _, ?_,
      ParentDue.step (parent_of_pair hn (hin p List.mem_cons_self)) hq has, ?_⟩
    · have hsame : updateWhere (fun a => a.guid == p.1 && a.bookGuid == book)
          (fun a => { a with parentGuid := some q }) v.accounts = v.accounts :=
        updateWhere_of_forall_not fun a ha => by simp [hold a ha]
      simp only [updateWhere_append, hsame]
    · have hkeep : ∀ a : Account, { a with parentGuid := some q }.guid = a.guid := fun _ => rfl
      rw [← hg]
      exact map_updateWhere hkeep as
  have hstart : J pairs { v with accounts := v.accounts ++ rows } := by
    have hmem := (List.forall₂_and_left _ _).mpr ⟨fun a (ha : a ∈ accounts) => ha, hrows⟩
    refine ⟨fun _ hp => hp, rows, rfl, hmem.imp fun a r ⟨ha, hrow, hbare⟩ => ⟨hrow, ?_⟩, rfl⟩
    cases hp : a.parentGuid with
    | none => exact .inl ⟨fun _ => hbare, fun p h => absurd (hp.symm.trans h) (by simp)⟩
    | some p =>
      exact .inr (List.mem_map.mpr ⟨(a.guid, p), List.mem_filterMap.mpr ⟨a, ha, by rw [hp]; rfl⟩,
        rfl⟩)
  refine swp_mono (fun r t ht => ?_) (swp_batch (J := J) hstep hstart)
  cases r with
  | error e => exact ht
  | ok _ =>
    obtain ⟨w, rfl, -, as, hw, has, hg⟩ := ht
    exact ⟨w, rfl, as, hw, has.imp fun a r h => ⟨h.1, h.2.resolve_right (by simp)⟩, hg⟩

/-- Inserting the transactions. -/
theorem insertTransactions_swp (txns : List ImportTransaction) :
    (execImportBatch "insert transaction" (txns.map (insertImportTransaction book))).swp
      (machine.assuming A) Duty.none
      (Ends s fun _ w => ∃ rows, w = { v with transactions := v.transactions ++ rows } ∧
        List.Forall₂ (TransactionRow book) txns rows ∧ (rows.map (·.guid)).Nodup) (.tx s v) := by
  refine @swp_inserts _ _ _ _ (fun rows => { v with transactions := v.transactions ++ rows })
    _ _ _ _ _ (by simp) (fun t rows env w hx => ?_) txns
  obtain ⟨r, hrow, hnew, rfl⟩ := insertImportTransaction_row hx
  exact ⟨r, hrow, key_notMem hnew, by simp⟩

/-- Inserting the splits. -/
theorem insertSplits_swp (txns : List ImportTransaction) :
    (execImportBatch "insert split"
      (txns.flatMap fun t => t.splits.map (insertImportSplit t.guid))).swp
      (machine.assuming A) Duty.none
      (Ends s fun _ w => ∃ rows, w = { v with splits := v.splits ++ rows } ∧
        List.Forall₂ SplitRow (txns.flatMap fun t => t.splits.map (Prod.mk t.guid)) rows ∧
        (rows.map (·.guid)).Nodup) (.tx s v) := by
  rw [splits_batch]
  refine @swp_inserts _ _ _ _ (fun rows => { v with splits := v.splits ++ rows })
    _ _ _ _ _ (by simp) (fun p rows env w hx => ?_) _
  obtain ⟨r, hrow, hnew, rfl⟩ := insertImportSplit_row hx
  exact ⟨r, hrow, key_notMem hnew, by simp⟩

/-- **The transaction of `performImport`.** -/
theorem replaceBook_swp {accounts : List ImportAccount} {txns : List ImportTransaction}
    (hroot : rootAccountGuid accounts = some root) :
    (replaceBook book accounts txns).swp (machine.assuming A) Duty.none
      (fun r t => (∃ e, r = .error e ∧ t = .idle s) ∨ ∃ as ts ss, r = .ok () ∧
        t = .idle ((s.clearBook book).refill book root as ts ss) ∧
        Replaced s book accounts txns as ts ss) (.idle s) := by
  let Q : Except Err Unit → Solo SqlErr Db → Prop := fun r t =>
    (∃ e, r = .error e ∧ t = .idle s) ∨ ∃ as ts ss, r = .ok () ∧
      t = .idle ((s.clearBook book).refill book root as ts ss) ∧
      Replaced s book accounts txns as ts ss
  have herr : ∀ (e : Err) (t : Solo SqlErr Db), t.db = s → Q (.error e) (.idle t.db) :=
    fun e t ht => .inl ⟨e, rfl, ht ▸ rfl⟩
  refine swp_begin (fun e => herr e (.idle s) rfl) (clearBook_swp herr ?_)
  refine swp_seq (insertAccounts_swp accounts) herr fun _ v hv => ?_
  obtain ⟨rows, rfl, hrows, hn⟩ := hv
  have hguids : accounts.map (·.guid) = rows.map (·.guid) :=
    map_eq_iff_forall₂.mpr (hrows.imp fun a r h => h.1.guid.symm)
  refine swp_seq (updateHierarchy_swp (fun a ha => by simpa using (mem_deleteWhere.mp ha).2)
    (hrows.imp fun a r h => ⟨h.1, h.2.1⟩) (hguids ▸ hn)) herr fun _ v hv => ?_
  obtain ⟨as, rfl, has, hg⟩ := hv
  rw [hroot]
  refine swp_exec_tx herr fun env _ v hx => ?_
  obtain ⟨-, hx⟩ := require_bind (ok_of_failing hx)
  obtain ⟨-, rfl⟩ := Prod.mk.inj (Except.ok.inj hx)
  refine swp_seq (insertTransactions_swp txns) herr fun _ v hv => ?_
  obtain ⟨ts, rfl, hts, htn⟩ := hv
  refine swp_seq (insertSplits_swp txns) herr fun _ v hv => ?_
  obtain ⟨ss, rfl, hss, hsn⟩ := hv
  refine swp_commit (fun _ _ => trivial) (fun _ => herr _ (.idle s) rfl) (.inr ?_)
  refine ⟨as, ts, ss, rfl, rfl, ?_, has, hg ▸ hn, hts, htn, hss, hsn⟩
  cases hrows with
  | nil => exact absurd hroot (by simp [rootAccountGuid])
  | cons h _ => exact (s.hasBook_clearBook book book).symm.trans h.2.2

end Replace

end Antimoney
