import Antimoney.Concurrent.Updates
import Antimoney.Ledger.Create
import Antimoney.Ledger.Journal
import Antimoney.Lib.Held
import Antimoney.Restore.Keyed

/-!
# Edits of one transaction

`UpdateTransaction` replaces the splits of a transaction by separate statements, and never asks
whether its `UPDATE` matched the row. Where it did, the row is locked until the commit, and the
splits stay as the `DELETE` found them. Where it did not, the transaction is gone, and the foreign
key refuses the first new split.

* `editContract`: what a call does to the transaction under which locks.
* `edits_settled`: what holds of the transaction along every interleaving.
* **`edits_unmixed`**: its splits are those of its creation or of one committed update, or it is
  deleted and has none.
-/

namespace Antimoney

open Antimoney.Lib Prog

/-! ## One transaction in the database -/

/-- The books that own a transaction `tx`: at most one. -/
def Db.ownersOf (db : Db) (tx : Guid) : List Guid :=
  (db.transactions.filter (·.guid == tx)).map (·.bookGuid)

/-- The transaction `tx` and its splits are as they were. -/
structure SameTransaction (tx : Guid) (x y : Db) : Prop where
  owners : y.ownersOf tx = x.ownersOf tx
  splits : y.splitsOf tx = x.splitsOf tx

variable {tx book : Guid} {x y z : Db}

theorem SameTransaction.refl (tx : Guid) (x : Db) : SameTransaction tx x x := ⟨rfl, rfl⟩

theorem SameTransaction.trans (h : SameTransaction tx x y) (h' : SameTransaction tx y z) :
    SameTransaction tx x z :=
  ⟨h'.owners.trans h.owners, h'.splits.trans h.splits⟩

/-- The transaction `tx` is deleted, and no split refers to it. -/
structure Db.Deleted (db : Db) (tx : Guid) : Prop where
  owners : db.ownersOf tx = []
  splits : db.splitsOf tx = []

theorem hasTransaction_iff : x.hasTransaction tx = true ↔ x.ownersOf tx ≠ [] := by
  unfold Db.hasTransaction Db.ownersOf
  rw [List.any_eq_true, ne_eq, List.map_eq_nil_iff, List.filter_eq_nil_iff]
  constructor
  · rintro ⟨t, ht, he⟩ h
    exact h t ht he
  · intro h
    by_contra hno
    exact h fun t ht he => hno ⟨t, ht, he⟩

theorem mem_ownersOf : book ∈ x.ownersOf tx ↔ ∃ t ∈ x.transactions, isTransaction tx book t = true := by
  simp only [Db.ownersOf, List.mem_map, List.mem_filter, isTransaction, Bool.and_eq_true,
    beq_iff_eq, and_assoc]

/-- New columns for a transaction change no owner. -/
theorem ownersOf_updateWhere {c : Transaction → Bool} {f : Transaction → Transaction}
    (hf : ∀ t, (f t).guid = t.guid ∧ (f t).bookGuid = t.bookGuid) :
    ({ x with transactions := updateWhere c f x.transactions } : Db).ownersOf tx =
      x.ownersOf tx := by
  unfold Db.ownersOf
  dsimp only
  rw [updateWhere_filter fun t _ _ => by rw [(hf t).1]]
  exact map_updateWhere (fun t => (hf t).2) _

/-- The cascading deletion of a transaction of the book. -/
theorem deleteTransactions_owner (hone : (x.ownersOf tx).length ≤ 1) (hb : book ∈ x.ownersOf tx) :
    (x.deleteTransactions (isTransaction tx book)).2.Deleted tx := by
  have howner : ∀ t ∈ x.transactions, t.guid = tx → t.bookGuid = book := by
    intro t ht hg
    have ht' : t.bookGuid ∈ x.ownersOf tx := mem_ownersOf.mpr ⟨t, ht, by simp [isTransaction, hg]⟩
    obtain ⟨b, hb'⟩ := List.length_eq_one_iff.mp
      (Nat.le_antisymm hone (List.length_pos_of_mem hb))
    rw [hb'] at ht' hb
    rw [List.mem_singleton.mp ht', List.mem_singleton.mp hb]
  obtain ⟨t, ht, hmatch⟩ := mem_ownersOf.mp hb
  constructor
  · refine List.map_eq_nil_iff.mpr (List.filter_eq_nil_iff.mpr fun u hu he => ?_)
    obtain ⟨hu, hc⟩ := mem_deleteWhere.mp hu
    have hg := beq_iff_eq.mp he
    simp [isTransaction, hg, howner u hu hg] at hc
  · refine List.filter_eq_nil_iff.mpr fun sp hsp he => ?_
    obtain ⟨-, hc⟩ := mem_deleteWhere.mp hsp
    refine Bool.eq_false_iff.mp hc (List.any_eq_true.mpr ⟨t, List.mem_filter.mpr ⟨ht, hmatch⟩, ?_⟩)
    simp only [isTransaction, Bool.and_eq_true, beq_iff_eq] at hmatch
    rw [hmatch.1, beq_iff_eq.mp he]
    exact beq_self_eq_true _

/-- A deletion that matches no row leaves the transaction alone. -/
theorem deleteTransactions_other (hb : book ∉ x.ownersOf tx) :
    SameTransaction tx x (x.deleteTransactions (isTransaction tx book)).2 := by
  have hno : ∀ t ∈ x.transactions, isTransaction tx book t = false := fun t ht =>
    Bool.eq_false_iff.mpr fun hc => hb (mem_ownersOf.mpr ⟨t, ht, hc⟩)
  have hgone : x.transactions.filter (isTransaction tx book) = [] :=
    List.filter_eq_nil_iff.mpr fun t ht => by simp [hno t ht]
  constructor
  · have hsame : deleteWhere (isTransaction tx book) x.transactions = x.transactions :=
      List.filter_eq_self.mpr fun t ht => by simp [hno t ht]
    simp only [Db.ownersOf, Db.deleteTransactions, hsame]
  · have hsame : deleteWhere (fun _ : Split => false) x.splits = x.splits :=
      List.filter_eq_self.mpr fun _ _ => rfl
    simp only [Db.splitsOf, Db.deleteTransactions, hgone, List.any_nil, hsame]

/-! ## Locks -/

/-- A lock that pins the transaction: nobody else updates or deletes its row meanwhile. -/
def Pinned (tx : Guid) (held : List Lock) : Prop :=
  ∃ l ∈ held, l.key = .transaction tx ∧ l.mode ≠ .keyShare

theorem Lock.conflict_symm (a b : Lock) : a.conflict b = b.conflict a := by
  obtain ⟨m, k⟩ := a
  obtain ⟨m', k'⟩ := b
  have hk : (k == k') = (k' == k) := by
    rw [Bool.eq_iff_iff, beq_iff_eq, beq_iff_eq]
    exact eq_comm
  simp only [Lock.conflict, hk]
  cases m <;> cases m' <;> rfl

/-- Two calls do not pin one transaction. -/
theorem not_pinned_of_compatible {held held' : List Lock} (hc : Compatible observed held held')
    (h : Pinned tx held) : ¬ Pinned tx held' := by
  rintro ⟨l', hl', hk', hm'⟩
  obtain ⟨l, hl, hk, hm⟩ := h
  have hno : l.conflict l' = false := hc l hl l' hl'
  obtain ⟨m, k⟩ := l
  obtain ⟨m', k'⟩ := l'
  dsimp only at hk hk' hm hm'
  subst hk hk'
  cases m <;> cases m' <;> simp_all [Lock.conflict]

/-! ## The contract -/

/-- The rows an update writes for its valid splits. -/
def RowsFor (tx : Guid) (splits : List CreateSplitRequest) (rows : List Split) : Prop :=
  ∃ now, List.Forall₂ (fun sp row => sp.accountGuid.parse = .ok row.accountGuid ∧
    ∃ guid, row = sp.row guid tx "n" now) splits rows

/-- The `UPDATE` of the call is committed. -/
def EditLogged (tx : Guid) (r : Arrival Event) (log : List (Nat × Note)) : Prop :=
  ∃ n book, (r.id, n) ∈ log ∧ n.tag = .updateTransaction book tx

/-- The call is an update that is committed, and `rows` are its full split list. -/
structure CommittedUpdate (tx : Guid) (r : Arrival Event) (rows : List Split)
    (log : List (Nat × Note)) : Prop where
  logged : EditLogged tx r log
  rows : ∃ cfg book id req splits, r.req = .request cfg book (.updateTransaction id req) ∧
    validSplits req.splits = .ok splits ∧ RowsFor tx splits rows

/-- What an edit of the transaction does: it is gone, or has the splits of the call. -/
def EditOf (tx : Guid) (r : Arrival Event) (x y : Logged Db Note) : Prop :=
  y.data.Deleted tx ∨ (y.data.ownersOf tx = x.data.ownersOf tx ∧ x.data.ownersOf tx ≠ [] ∧
    CommittedUpdate tx r (y.data.splitsOf tx) y.log)

/-- The contract of an edit: it changes the transaction only under a lock that pins it, and relies
on it while it holds such a lock. A deleted transaction does not come back. -/
def editContract (tx : Guid) (r : Arrival Event) :
    LockContract Stmt SqlErr (Nat × Env) Lock (Logged Db Note) where
  inv s := (s.data.ownersOf tx).length ≤ 1
  rely held x y :=
    (y.data.ownersOf tx = x.data.ownersOf tx ∨ y.data.ownersOf tx = []) ∧
      (Pinned tx held → SameTransaction tx x.data y.data)
  guar held x y := SameTransaction tx x.data y.data ∨ (Pinned tx held ∧ EditOf tx r x y)
  ok _ env _ := env.1 = r.id
  rely_refl _ s := ⟨.inl rfl, fun _ => .refl tx s.data⟩
  rely_trans h h' := by
    refine ⟨?_, fun hp => (h.2 hp).trans (h'.2 hp)⟩
    rcases h'.1 with he | he
    · rw [he]
      exact h.1
    · exact .inr he
  guar_refl _ s _ := .inl (.refl tx s.data)

variable {r : Arrival Event} {s s' : Logged Db Note}

/-- The guarantee of one call is within what the others rely on. -/
theorem rely_of_guar {r' : Arrival Event} {held held' : List Lock} {x y : Logged Db Note}
    (hc : Compatible observed held held') (hg : (editContract tx r).guar held x y) :
    (editContract tx r').rely held' x y := by
  rcases hg with hsame | ⟨hpin, hedit⟩
  · exact ⟨.inl hsame.owners, fun _ => hsame⟩
  · refine ⟨?_, fun hpin' => absurd hpin' (not_pinned_of_compatible hc hpin)⟩
    rcases hedit with hdel | ⟨howner, -⟩
    · exact .inr hdel.owners
    · exact .inl howner

/-! ## `DeleteTransaction` -/

theorem deleteTransaction_edits {id : GuidText} (hid : id.parse = .ok tx) :
    (deleteTransaction book id).lwp observed (editContract tx r) (fun _ _ _ => True) .idle s := by
  refine lwp_stmt_idle (fun _ _ _ _ => trivial) ?_
  intro s' env n s'' _ hi _ hx
  have hx' := (Machine.logged_exec hx).1
  obtain ⟨g, hg, he⟩ := ok_bind (ok_of_failing hx')
  obtain rfl := Except.ok.inj (hid.symm.trans hg)
  have hdb : s''.data = (s'.data.deleteTransactions (isTransaction tx book)).2 :=
    (Prod.mk.inj (Except.ok.inj he)).2.symm
  have hend : (do if n = 0 then .fail .notFound else return () : Call Unit).lwp observed
      (editContract tx r) (fun _ _ _ => True) .idle s'' := by
    by_cases hn : n = 0 <;> simp only [hn] <;> trivial
  by_cases hb : book ∈ s'.data.ownersOf tx
  · have hdel : s''.data.Deleted tx := hdb ▸ deleteTransactions_owner hi hb
    refine ⟨?_, .inr ⟨?_, .inl hdel⟩, hend⟩
    · show (s''.data.ownersOf tx).length ≤ 1
      rw [hdel.owners]
      exact Nat.zero_le 1
    · obtain ⟨t, ht, hmatch⟩ := mem_ownersOf.mp hb
      simp only [isTransaction, Bool.and_eq_true, beq_iff_eq] at hmatch
      refine ⟨⟨.delete, .transaction tx⟩, List.mem_filterMap.mpr ⟨t, ht, ?_⟩, rfl, by simp⟩
      simp [hid, hmatch.1, hmatch.2]
  · have hsame : SameTransaction tx s'.data s''.data := hdb ▸ deleteTransactions_other hb
    refine ⟨?_, .inl hsame, hend⟩
    show (s''.data.ownersOf tx).length ≤ 1
    rw [hsame.owners]
    exact hi

/-! ## `UpdateTransaction` -/

/-- The open transaction would leave the transaction with these splits, its `UPDATE` logged. -/
structure Rewritten (tx : Guid) (r : Arrival Event) (rows : List Split) (x y : Logged Db Note) :
    Prop where
  owners : y.data.ownersOf tx = x.data.ownersOf tx
  splits : y.data.splitsOf tx = rows
  logged : EditLogged tx r y.log

/-- A read leaves what is pending as it is. -/
theorem Rewritten.read {rows : List Split} {x y z v : Logged Db Note} {β : Type} {q : Stmt β}
    {env : Nat × Env} (h : Rewritten tx r rows x y) (hq : q.Reads)
    (hw : observed.write q env v y = .ok z) : Rewritten tx r rows x z := by
  obtain ⟨hw, hl⟩ := Machine.logged_write hw
  obtain ⟨n, b, hn, ht⟩ := h.logged
  refine ⟨by rw [hq.write hw]; exact h.owners, by rw [hq.write hw]; exact h.splits, n, b, ?_, ht⟩
  rw [hl]
  exact .tail _ hn

/-- What an inserted split adds. -/
theorem insertSplitStmt_row {account : GuidText} {sp : Split} {env : Env} {v : Db}
    (h : (insertSplitStmt account sp).write env v x = .ok y) :
    ∃ g, account.parse = .ok g ∧ x.hasTransaction sp.txGuid = true ∧
      y = { x with splits := x.splits ++ [{ sp with accountGuid := g }] } := by
  obtain ⟨_, hb⟩ := ok_of_ok_map h
  obtain ⟨g, hg, hb⟩ := ok_bind (ok_of_failing hb)
  obtain ⟨db, hi, hb⟩ := ok_bind hb
  obtain ⟨⟨-, ht, -⟩, hdb⟩ := Db.insertSplit_ok hi
  exact ⟨g, hg, ht, (Prod.mk.inj (Except.ok.inj hb)).2.symm.trans hdb⟩

/-- The loop that inserts the splits, with these rows inserted so far. -/
theorem insertSplits_edits {K : Logged Db Note → Prop} {base : List Lock} {now : Time}
    (hK : (editContract tx r).StableUnder base K) (i : Nat) (splits : List CreateSplitRequest)
    {rows : List Split} {ss : Sess SqlErr Lock (Logged Db Note)}
    (h : ss.PendsOn K (Rewritten tx r rows)) (hb : base ⊆ ss.held) (hs : K s) :
    (insertSplits tx now (fun _ => "n") i splits).lwp observed (editContract tx r)
      (fun res ss s => ∀ new, res = .ok new →
        List.Forall₂ (fun sp row => sp.accountGuid.parse = .ok row.accountGuid ∧
          ∃ guid, row = sp.row guid tx "n" now) splits new ∧
        ss.PendsOn K (Rewritten tx r (rows ++ new)) ∧ base ⊆ ss.held ∧ K s) ss s := by
  induction splits generalizing i rows ss s with
  | nil =>
    intro new hnew
    obtain rfl := Except.ok.inj hnew
    exact ⟨.nil, by rwa [List.append_nil], hb, hs⟩
  | cons sp rest ih =>
    refine lwp_stmt_pends (V := fun _ => Rewritten tx r rows) h hb hK hs ?_ ?_ ?_
    · intro env s' v b v' x y z _ _ _ _ _ hxy hw
      exact hxy.read reads_uuidNew hw
    · exact fun _ _ _ _ _ _ _ _ h => absurd h (by simp)
    intro ss s env v guid v' hs hi _ _ hx h hb _
    refine lwp_stmt_pends (V := fun _ => Rewritten tx r (rows ++ [sp.row guid tx "n" now]))
      h hb hK hs ?_ ?_ ?_
    · intro env s' v b v' x y z _ _ _ _ _ hxy hw
      obtain ⟨hw, hl⟩ := Machine.logged_write hw
      obtain ⟨g, hg, -, hz⟩ := insertSplitStmt_row (v := v.data) hw
      have hrow : ({ sp.row guid tx "n" now with accountGuid := g } : Split) =
          sp.row guid tx "n" now := by
        cases ha : sp.accountGuid with
        | malformed m => exact absurd hg (by simp [ha, GuidText.parse])
        | uuid g' text =>
          rw [ha] at hg
          obtain rfl := Except.ok.inj hg
          simp [CreateSplitRequest.row, ha]
      rw [hrow] at hz
      obtain ⟨n, b, hn, ht⟩ := hxy.logged
      refine ⟨by rw [hz]; exact hxy.owners, ?_, n, b, by rw [hl]; exact .tail _ hn, ht⟩
      rw [hz, ← hxy.splits]
      unfold Db.splitsOf
      rw [List.filter_append]
      simp [CreateSplitRequest.row]
    · exact fun _ _ _ _ _ _ _ _ h => absurd h (by simp)
    intro ss s env v _ v' hs hi _ _ hx h hb _
    have hacc : ∃ g, sp.accountGuid.parse = .ok g := by
      obtain ⟨g, hg, -⟩ := ok_bind (ok_of_failing (Machine.logged_exec hx).1)
      exact ⟨g, hg⟩
    dsimp only [ret_bind]
    refine lwp_bind (lwp_mono (fun res ss s hres => ?_) (ih (i + 1) h hb hs))
    cases res with
    | error e => exact fun new h => absurd h (by simp)
    | ok new =>
      obtain ⟨hrows, hp, hb, hs⟩ := hres new rfl
      intro all hall
      obtain rfl := Except.ok.inj hall
      refine ⟨.cons ⟨?_, guid, rfl⟩ hrows, by simpa using hp, hb, hs⟩
      obtain ⟨g, hg⟩ := hacc
      cases ha : sp.accountGuid with
      | malformed m => exact absurd hg (by simp [ha, GuidText.parse])
      | uuid g' text => simp [CreateSplitRequest.row, ha, GuidText.parse]

/-- What holds while no lock is needed: the book owns the transaction, unless it is deleted. -/
theorem stable_owners (os : List Guid) : (editContract tx r).StableUnder []
    fun s => s.data.ownersOf tx = os ∨ s.data.ownersOf tx = [] := by
  intro held s s' _ hrel _ hs
  rcases hrel.1 with he | he
  · rw [he]
    exact hs
  · exact .inr he

/-- What holds while the transaction is pinned. -/
theorem stable_pinned {base : List Lock} (hb : Pinned tx base) (os : List Guid)
    (rows : List Split) : (editContract tx r).StableUnder base
    fun s => s.data.ownersOf tx = os ∧ s.data.splitsOf tx = rows := by
  intro held s s' hsub hrel _ hs
  obtain ⟨l, hl, hpin⟩ := hb
  have hsame := hrel.2 ⟨l, hsub hl, hpin⟩
  exact ⟨hsame.owners.trans hs.1, hsame.splits.trans hs.2⟩

/-- The end of the body, where the `UPDATE` matched: the row is pinned. -/
theorem rewriteSplits_edits {cfg : PlaidConfig} {id : GuidText} {req : UpdateTransactionRequest}
    {splits : List CreateSplitRequest} {now : Time} {version : Nat} {old : List Split}
    {base : List Lock} {ss : Sess SqlErr Lock (Logged Db Note)}
    (hreq : r.req = .request cfg book (.updateTransaction id req))
    (hv : validSplits req.splits = .ok splits) (hpin : Pinned tx base)
    (h : ss.PendsOn (fun s => s.data.ownersOf tx = [book] ∧ s.data.splitsOf tx = old)
      (Rewritten tx r old)) (hb : base ⊆ ss.held)
    (hs : s.data.ownersOf tx = [book] ∧ s.data.splitsOf tx = old) :
    (do
      exec "delete old splits" (deleteSplitsOf tx)
      let rows ← insertSplits tx now (fun _ => "n") 0 splits
      commitTx "commit transaction update"
      return (tx, version, rows) : Call (Guid × Nat × List Split)).lwp observed (editContract tx r)
      (fun _ _ _ => True) ss s := by
  have hK := stable_pinned (r := r) hpin [book] old
  refine lwp_stmt_pends (V := fun _ => Rewritten tx r []) h hb hK hs ?_
    (fun _ _ _ _ _ _ _ => trivial) ?_
  · intro env s' v b v' x y z _ _ hsv _ hxK hxy hw
    obtain ⟨hw, hl⟩ := Machine.logged_write hw
    have hdel : (deleteSplitsOf tx).write env.2 v.data y.data = .ok z.data := hw
    have hz := deleteSplitsOf_ok hdel
    obtain ⟨n, b', hn, ht⟩ := hxy.logged
    refine ⟨by rw [hz]; exact hxy.owners, ?_, n, b', by rw [hl]; exact .tail _ hn, ht⟩
    rw [hz]
    refine List.filter_eq_nil_iff.mpr fun sp hsp he => ?_
    obtain ⟨hsp, hc⟩ := mem_deleteWhere.mp hsp
    -- a split of the transaction was there when the `DELETE` ran
    have hmem : sp ∈ v.data.splitsOf tx := by
      rw [hsv.splits, ← hxy.splits]
      exact List.mem_filter.mpr ⟨hsp, he⟩
    refine Bool.eq_false_iff.mp hc ?_
    rw [chosen_self (List.mem_filter.mp hmem).1]
    exact he
  · intro ss s env v _ v' hs _ _ _ _ h hb _
    dsimp only [ret_bind]
    refine lwp_bind (p := insertSplits tx now (fun _ => "n") 0 splits)
      (lwp_mono (fun res ss s hres => ?_) (insertSplits_edits hK 0 splits h hb hs))
    cases res with
    | error e => trivial
    | ok rows =>
      obtain ⟨hrows, h, hb, hs⟩ := hres rows rfl
      dsimp only [Prog.ofExcept, ret_bind]
      refine lwp_bind (lwp_commit_pends h hb hK hs (fun _ _ _ => trivial) ?_)
      intro held s' v hsub hi hs' hw
      obtain ⟨l, hl, hlk⟩ := hpin
      refine ⟨?_, .inr ⟨⟨l, hsub hl, hlk⟩, .inr ⟨hw.owners, ?_, hw.logged, ?_⟩⟩, trivial⟩
      · show (v.data.ownersOf tx).length ≤ 1
        rw [hw.owners]
        exact hi
      · rw [hs'.1]
        simp
      · refine ⟨cfg, book, id, req, splits, hreq, hv, now, ?_⟩
        rw [hw.splits]
        exact hrows

/-- The end of the body, where the `UPDATE` matched no row: the first `INSERT` is refused. -/
theorem rewriteSplits_gone {splits : List CreateSplitRequest} {now : Time} {version : Nat}
    {ss : Sess SqlErr Lock (Logged Db Note)} (htwo : ¬ splits.length < 2)
    (h : ss.PendsOn (fun s => s.data.ownersOf tx = []) fun _ y => y.data.ownersOf tx = [])
    (hs : s.data.ownersOf tx = []) :
    (do
      exec "delete old splits" (deleteSplitsOf tx)
      let rows ← insertSplits tx now (fun _ => "n") 0 splits
      commitTx "commit transaction update"
      return (tx, version, rows) : Call (Guid × Nat × List Split)).lwp observed (editContract tx r)
      (fun _ _ _ => True) ss s := by
  have hK : (editContract tx r).StableUnder [] fun s => s.data.ownersOf tx = [] := by
    intro held s s' hb hrel hi hs
    simpa using stable_owners [] held s s' hb hrel hi (.inl hs)
  have hnil : ∀ ss : Sess SqlErr Lock (Logged Db Note), [] ⊆ ss.held := fun _ => List.nil_subset _
  refine lwp_stmt_pends (V := fun _ _ y => y.data.ownersOf tx = []) h (hnil ss) hK hs ?_
    (fun _ _ _ _ _ _ _ => trivial) ?_
  · intro env s' v b v' x y z _ _ _ _ _ hy hw
    have hdel : (deleteSplitsOf tx).write env.2 v.data y.data = .ok z.data :=
      (Machine.logged_write hw).1
    have hz := deleteSplitsOf_ok hdel
    rw [hz]
    exact hy
  · intro ss s env v _ v' hs _ _ _ _ h _ _
    dsimp only [ret_bind]
    cases splits with
    | nil => exact absurd (Nat.zero_lt_two) htwo
    | cons sp rest =>
      refine lwp_stmt_pends (V := fun _ _ y => y.data.ownersOf tx = []) h (hnil ss) hK hs ?_
        (fun _ _ _ _ _ _ _ => trivial) ?_
      · intro env s' v b v' x y z _ _ _ _ _ hy hw
        rw [reads_uuidNew.write (v := v.data) (Machine.logged_write hw).1]
        exact hy
      intro ss s env v guid v' hs _ _ _ _ h _ _
      refine lwp_stmt_pends (V := fun _ _ _ => False) h (hnil ss) hK hs ?_
        (fun _ _ _ _ _ _ _ => trivial) ?_
      · intro env s' v b v' x y z _ _ _ _ _ hy hw
        obtain ⟨g, -, ht, -⟩ := insertSplitStmt_row (v := v.data) (Machine.logged_write hw).1
        exact hasTransaction_iff.mp ht hy
      · intro ss s env v _ v' hs _ _ hv hx _ _ _
        have hw := observed.write_self hx
        obtain ⟨g, -, ht, -⟩ := insertSplitStmt_row (v := v.data) (Machine.logged_write hw).1
        exact absurd hv (hasTransaction_iff.mp ht)

/-- The transaction of an update that has found its transaction. -/
theorem replaceSplits_edits {cfg : PlaidConfig} {id : GuidText} {req : UpdateTransactionRequest}
    {splits : List CreateSplitRequest} {version : Nat}
    (hreq : r.req = .request cfg book (.updateTransaction id req))
    (hv : validSplits req.splits = .ok splits) (htwo : ¬ splits.length < 2)
    (hs : s.data.ownersOf tx = [book] ∨ s.data.ownersOf tx = []) :
    (inTx "begin transaction" (do
      checkAccounts book splits
      let now ← exec "" timeNow
      exec "update transaction" (updateTransactionStmt tx book req.customId
        (normalizePostDate req.postDate) req.description now)
      exec "delete old splits" (deleteSplitsOf tx)
      let rows ← insertSplits tx now (fun _ => "n") 0 splits
      commitTx "commit transaction update"
      return (tx, version + 1, rows))).lwp observed (editContract tx r)
      (fun _ _ _ => True) .idle s := by
  have hK : (editContract tx r).StableUnder [] _ := stable_owners [book]
  have hnil : ∀ ss : Sess SqlErr Lock (Logged Db Note), [] ⊆ ss.held := fun _ => List.nil_subset _
  refine lwp_inTx (fun _ _ _ _ => trivial) fun s₁ hrel hi => ?_
  refine lwp_bind (lwp_mono (fun res ss s hpost => ?_) (lwp_body
    (W := fun x y => y.data = x.data) hK ?_ (checkAccounts_issues splits)
    (checkAccounts_body book splits) ⟨_, _, rfl, fun x y _ h => congrArg _ (Except.ok.inj h).symm⟩
    (hnil _) (hK [] s s₁ (List.nil_subset _) hrel hi hs)))
  swap
  · intro γ q env s v x y z hq _ _ hxy hw
    rw [hq.reads.write (v := v.data) (Machine.logged_write hw).1, hxy]
  obtain ⟨h, -, hs⟩ := hpost
  cases res with
  | error e => exact fun _ _ => trivial
  | ok _ =>
    refine lwp_stmt_pends (V := fun _ x y => y.data = x.data) h (hnil _) hK hs ?_
      (fun _ _ _ _ _ _ _ _ _ => trivial) ?_
    · intro env s' v b v' x y z _ _ _ _ _ hxy hw
      rw [(Stmt.reads_askEnv _).write (v := v.data) (Machine.logged_write hw).1, hxy]
    intro ss s env v now v' hs _ _ _ _ h _ _
    refine lwp_stmt_pends (V := fun _ x y => y.data.ownersOf tx = x.data.ownersOf tx ∧
      y.data.splitsOf tx = x.data.splitsOf tx ∧ EditLogged tx r y.log) h (hnil _) hK hs ?_
      (fun _ _ _ _ _ _ _ _ _ => trivial) ?_
    · intro env s' v b v' x y z hid _ _ _ _ hxy hw
      obtain ⟨hw, hl⟩ := Machine.logged_write hw
      have hz := updateTransactionStmt_ok (v := v.data) hw
      refine ⟨?_, ?_, ⟨_, book, by rw [hl, show env.1 = r.id from hid]; exact List.mem_cons_self,
        rfl⟩⟩
      · rw [hz, ← hxy]
        exact ownersOf_updateWhere fun _ => ⟨rfl, rfl⟩
      · rw [hz, ← hxy]
        rfl
    intro ss s env v _ v' hs _ _ hsv hx h _ hlocks
    refine lwp_mono (Q := fun _ _ _ => True) (fun _ _ _ _ _ _ => trivial) ?_
    -- the row is as the `UPDATE` saw it
    have howner : v.data.ownersOf tx = s.data.ownersOf tx := by rw [hsv]
    rcases hs with hs | hs
    · have hmem : book ∈ v.data.ownersOf tx := by
        rw [howner, hs]
        exact List.mem_singleton_self book
      obtain ⟨t, ht, hmatch⟩ := mem_ownersOf.mp hmem
      have hlock : (⟨.update, .transaction tx⟩ : Lock) ∈ ss.held := by
        refine hlocks (List.mem_map.mpr ⟨t, List.mem_filter.mpr ⟨ht, hmatch⟩, ?_⟩)
        simp only [isTransaction, Bool.and_eq_true, beq_iff_eq] at hmatch
        rw [hmatch.1]
      have hpin : Pinned tx [⟨.update, .transaction tx⟩] :=
        ⟨_, List.mem_singleton_self _, rfl, by simp⟩
      refine rewriteSplits_edits hreq hv hpin
        (h.mono (fun _ hx => .inl hx.1) fun x y hx hxy => ?_)
        (fun l hl => List.mem_singleton.mp hl ▸ hlock) ⟨hs, rfl⟩
      exact ⟨hxy.1, hxy.2.1.trans hx.2, hxy.2.2⟩
    · refine rewriteSplits_gone htwo (h.mono (fun _ hx => .inr hx) fun x y hx hxy => ?_) hs
      exact hxy.1.trans hx

theorem updateTransaction_edits {cfg : PlaidConfig} {id : GuidText}
    {req : UpdateTransactionRequest}
    (hreq : r.req = .request cfg book (.updateTransaction id req)) (hid : id.parse = .ok tx) :
    (updateTransaction book id req).lwp observed (editContract tx r) (fun _ _ _ => True) .idle s :=
    by
  refine lwp_stmt_idle (fun _ _ _ _ => trivial) ?_
  intro s₀ env found s₁ _ hi _ hx
  obtain ⟨hsame, g, hg, hfound⟩ := selectVersion_ok (Machine.logged_exec hx).1
  obtain rfl := Except.ok.inj (hid.symm.trans hg)
  have hstill : SameTransaction tx s₀.data s₁.data := hsame ▸ .refl tx s₀.data
  have hone : (s₁.data.ownersOf tx).length ≤ 1 := by
    rw [hstill.owners]
    exact hi
  refine ⟨hone, .inl hstill, ?_⟩
  dsimp only [ret_bind]
  split
  · trivial
  · rename_i guid version
    obtain ⟨t, ht, hpair⟩ := Option.map_eq_some_iff.mp hfound.symm
    obtain ⟨rfl, -⟩ := Prod.mk.inj hpair
    have hmatch := List.find?_some ht
    have hguid : t.guid = tx := by
      simp only [isTransaction, Bool.and_eq_true, beq_iff_eq] at hmatch
      exact hmatch.1
    have howner : s₁.data.ownersOf tx = [book] := by
      have hmem : book ∈ s₁.data.ownersOf tx := by
        rw [hstill.owners]
        exact mem_ownersOf.mpr ⟨t, List.mem_of_find?_eq_some ht, hmatch⟩
      obtain ⟨b, hb⟩ := List.length_eq_one_iff.mp
        (Nat.le_antisymm hone (List.length_pos_of_mem hmem))
      rw [hb] at hmem ⊢
      rw [List.mem_singleton.mp hmem]
    rw [hguid]
    cases hv : validSplits req.splits with
    | error er => trivial
    | ok splits =>
      dsimp only [Prog.ofExcept, bind_eq, ret_bind]
      cases splitSum splits with
      | none => trivial
      | some sum =>
        dsimp only [orPanic, bind_eq, ret_bind]
        split
        · trivial
        split
        · trivial
        rename_i htwo
        exact replaceSplits_edits hreq hv htwo (.inl howner)

/-! ## Every interleaving -/

/-- The event updates or deletes the transaction. -/
def Event.Edits (tx : Guid) (e : Event) : Prop :=
  ∃ cfg book id, id.parse = .ok tx ∧ (e = .request cfg book (.deleteTransaction id) ∨
    ∃ req, e = .request cfg book (.updateTransaction id req))

/-- Only calls that update or delete the transaction arrive. -/
def Editing (tx : Guid) (_ : Observed) : ObservedStep → Prop
  | .spawn r => r.req.Edits tx
  | .step _ _ => True

theorem editing_numbered (c : Observed) (e : ObservedStep) (h : Numbering (Editing tx) c e) :
    Numbered c e := h.1

theorem edit_lwp (h : r.req.Edits tx) :
    r.call.lwp observed (editContract tx r) (fun _ _ _ => True) .idle s := by
  obtain ⟨cfg, book, id, hid, he | ⟨req, he⟩⟩ := h
  · unfold Lib.Arrival.call
    rw [he]
    refine lwp_bind (lwp_mono (fun x ss s _ => ?_) (deleteTransaction_edits hid))
    cases x <;> trivial
  · unfold Lib.Arrival.call
    rw [he]
    refine lwp_bind (lwp_mono (fun x ss s _ => ?_) (updateTransaction_edits he hid))
    cases x <;> trivial

theorem edits_tolerant {db : Db} (h₀ : (db.ownersOf tx).length ≤ 1) :
    LockTolerant observed Arrival.call (Numbering (Editing tx)) ⟨db, []⟩
      (fun s => (s.data.ownersOf tx).length ≤ 1) (editContract tx) where
  start := h₀
  inv _ _ := Iff.rfl
  sym := Lock.conflict_symm
  arrives _ _ _ hok _ := edit_lwp hok.2
  supplied h := h.ok.1.trans (h.reach.id_eq editing_numbered h.call).symm
  rely _ _ _ _ hc hg := rely_of_guar hc hg

/-- The transaction is deleted and has no splits, or has those it started with, or the full split
list of one committed update. -/
def Settled (tx : Guid) (rows : List Split) (c : Observed) : Prop :=
  c.db.data.Deleted tx ∨ (c.db.data.hasTransaction tx = true ∧
    (c.db.data.splitsOf tx = rows ∨
      ∃ a ∈ c.calls, CommittedUpdate tx a.req (c.db.data.splitsOf tx) c.db.log))

theorem CommittedUpdate.subset {rows : List Split} {log log' : List (Nat × Note)}
    (h : CommittedUpdate tx r rows log) (hl : ∀ e ∈ log, e ∈ log') :
    CommittedUpdate tx r rows log' := by
  obtain ⟨⟨n, b, hn, ht⟩, hrows⟩ := h
  exact ⟨⟨n, b, hl _ hn, ht⟩, hrows⟩

/-- **The run lemma of edits.** -/
theorem edits_settled {db : Db} (hkeys : (db.ownersOf tx).length ≤ 1)
    (htx : db.hasTransaction tx = true) {c : Observed} (hr : Watched (Editing tx) db c) :
    Settled tx (db.splitsOf tx) c := by
  have t := edits_tolerant hkeys
  induction hr with
  | start => exact .inr ⟨htx, .inl rfl⟩
  | @event c c' e hc he hn ih =>
    cases e with
    | spawn r =>
      obtain rfl := Option.some.inj hn
      refine ih.imp_right fun h => ⟨h.1, h.2.imp_right ?_⟩
      rintro ⟨a, ha, hu⟩
      exact ⟨a, List.mem_append_left _ ha, hu⟩
    | step i env =>
      obtain ⟨a, held, hi, hg⟩ := t.guar hc he hn
      have hl : c.Leads observed Arrival.call (Numbering (Editing tx)) c' :=
        .head ⟨_, he, hn⟩ .refl
      obtain ⟨b, hb, hreq⟩ := hl.call hi
      have hlog := hc.log_mono editing_numbered hl
      rcases hg with hsame | ⟨-, hdel | ⟨howner, hne, hu⟩⟩
      · rcases ih with hdel | ⟨hhas, hrows⟩
        · exact .inl ⟨hsame.owners.trans hdel.owners, hsame.splits.trans hdel.splits⟩
        · refine .inr ⟨?_, ?_⟩
          · rw [hasTransaction_iff, hsame.owners]
            exact hasTransaction_iff.mp hhas
          · rw [hsame.splits]
            refine hrows.imp_right ?_
            rintro ⟨a', ha', hu⟩
            obtain ⟨j, hj⟩ := List.mem_iff_getElem?.mp ha'
            obtain ⟨b', hb', hreq'⟩ := hl.call hj
            refine ⟨b', List.mem_of_getElem? hb', ?_⟩
            rw [hreq']
            exact hu.subset fun e he => hlog.subset he
      · exact .inl hdel
      · refine .inr ⟨?_, .inr ⟨b, List.mem_of_getElem? hb, hreq ▸ hu⟩⟩
        rw [hasTransaction_iff, howner]
        exact hne

theorem ownersOf_length (hk : x.Keyed) : (x.ownersOf tx).length ≤ 1 := by
  have hn : ((x.transactions.filter (·.guid == tx)).map (·.guid)).Nodup :=
    (List.filter_sublist.map _).nodup hk.transactions
  have hall : ∀ g ∈ (x.transactions.filter (·.guid == tx)).map (·.guid), g = tx := by
    intro g hg
    obtain ⟨t, ht, rfl⟩ := List.mem_map.mp hg
    exact beq_iff_eq.mp (List.mem_filter.mp ht).2
  have hle := (List.nodup_iff_count_le_one.mp hn) tx
  rw [List.count_eq_length.mpr fun g hg => (hall g hg).symm] at hle
  simpa [Db.ownersOf] using hle

/-- A new transaction has the splits its creation answers with. -/
theorem createTransaction_splits (hk : x.Keyed) {cfg : PlaidConfig} {req : CreateTransactionRequest}
    {envs : Nat → Env} {t : Transaction} {rows : List Split}
    (ha : mayServe (Event.request cfg book (.createTransaction req)).call envs x = true)
    (hs : serve (Event.request cfg book (.createTransaction req)).call envs x =
      (.ok (.createdTransaction t rows), y)) :
    y.hasTransaction t.guid = true ∧ y.splitsOf t.guid = rows := by
  have hswp : (Event.request cfg book (.createTransaction req)).call.swp machine Duty.none
      (fun res w => ∀ t rows, res = .ok (.createdTransaction t rows) →
        w.db.hasTransaction t.guid = true ∧ w.db.splitsOf t.guid = rows) (.idle x) := by
    refine swp_bind (createTransaction_alone (fun e t rows h => absurd h (by simp)) ?_)
    intro as t rows v hc hadds _ _ t' rows' hres
    obtain ⟨rfl, rfl⟩ := Response.createdTransaction.inj (Except.ok.inj hres)
    obtain ⟨rfl, hfresh, -⟩ := hadds
    obtain ⟨hnew, -⟩ := hfresh t (List.mem_singleton_self t)
    refine ⟨by simp [Solo.idle, Db.hasTransaction, Db.append], ?_⟩
    obtain ⟨-, -, splits, -, -, -, -, hrows⟩ := hc.rows
    refine filter_old_append (fun sp hsp => Bool.eq_false_iff.mpr fun he => ?_) fun sp hsp => ?_
    · have hhas := hk.split_transaction sp hsp
      rw [beq_iff_eq.mp he] at hhas
      exact Bool.eq_false_iff.mp hnew hhas
    · obtain ⟨_, -, hrow⟩ := exists_of_forall₂ hrows hsp
      exact beq_iff_eq.mpr hrow.tx
  have hrun := run_of_swp hswp ha
  obtain ⟨hres, hdb⟩ := Prod.mk.inj hs
  rw [← hdb]
  exact hrun t rows hres

/-- **Concurrent edits never mix splits.** From any state of the server, along every interleaving
of updates and deletions of one transaction, it keeps the splits it had, or has the full split list
of one committed update, or is deleted and has no splits; and what it has at first is the full
split list of its creation. -/
theorem edits_unmixed {db : Db} (hr : Runs (fun _ _ _ => True) db) :
    (∀ (tx : Guid) (c : Observed), db.hasTransaction tx = true → Watched (Editing tx) db c →
      Settled tx (db.splitsOf tx) c) ∧
    ∀ cfg book req envs t rows db',
      mayServe (Event.request cfg book (.createTransaction req)).call envs db = true →
      serve (Event.request cfg book (.createTransaction req)).call envs db =
        (.ok (.createdTransaction t rows), db') →
      db'.hasTransaction t.guid = true ∧ db'.splitsOf t.guid = rows :=
  ⟨fun _ _ htx hc => edits_settled (ownersOf_length hr.keyed) htx hc,
    fun _ _ _ _ _ _ _ ha hs => createTransaction_splits hr.keyed ha hs⟩

/-- The test of `Editing`. -/
def editing (tx : Guid) (c : Observed) (e : ObservedStep) : Bool :=
  numbered c e && match e with
    | .spawn ⟨_, .request _ _ (.updateTransaction id _)⟩ => id.parse == .ok tx
    | .spawn ⟨_, .request _ _ (.deleteTransaction id)⟩ => id.parse == .ok tx
    | .spawn _ => false
    | .step _ _ => true

theorem numbering_of_editing {c : Observed} {e : ObservedStep} (h : editing tx c e = true) :
    Numbering (Editing tx) c e := by
  obtain ⟨hnum, hedit⟩ := Bool.and_eq_true_iff.mp h
  refine ⟨numbered_of_test hnum, ?_⟩
  split at hedit
  · rename_i id req
    exact ⟨_, _, id, beq_iff_eq.mp hedit, .inr ⟨req, rfl⟩⟩
  · rename_i id
    exact ⟨_, _, id, beq_iff_eq.mp hedit, .inl rfl⟩
  · exact absurd hedit (by simp)
  · trivial

/-- Two clients reprice the purchase at once; the second commits after the first. -/
def repricedTwice : List ObservedStep :=
  [.spawn ⟨0, reprice 2000⟩, .spawn ⟨1, reprice 3000⟩] ++
    ((List.range 5).flatMap fun k => [.step 0 (0, calm 300 k), .step 1 (1, calm 400 k)]) ++
    ((List.range 7).map fun k => .step 0 (0, calm 300 (k + 5))) ++
    (List.range 7).map fun k => .step 1 (1, calm 400 (k + 5))

theorem edits_unmixed_twice : ∃ c, Watched (Editing 103) purchased c ∧
    c.db.data.splitsOf 103 ≠ purchased.splitsOf 103 ∧ Settled 103 (purchased.splitsOf 103) c := by
  have hrun : (Conf.run observed Arrival.call (editing 103) ⟨⟨purchased, []⟩, []⟩
      repricedTwice).map (fun c => c.db.data.splitsOf 103 != purchased.splitsOf 103) =
      some true := by decide +kernel
  obtain ⟨c, hc, h⟩ := Option.map_eq_some_iff.mp hrun
  have hw : Watched (Editing 103) purchased c :=
    Reach.run (fun _ _ => numbering_of_editing) .start hc
  exact ⟨c, hw, bne_iff_ne.mp h, (edits_unmixed (purchased_runs fun _ _ _ => trivial)).1 103 c
    (by decide +kernel) hw⟩

end Antimoney
