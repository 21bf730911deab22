import Antimoney.Concurrent.Updates
import Antimoney.Imports.Returns

/-!
# Imports at once

`Import` looks a row up, checks it against the ledger, inserts and cleans up in separate statements,
so that duplicates of one bank transaction may meet at any of them. The index
`idx_transactions_plaid_txn` lets one of them through, and only that one counts its row as imported.

* `Posts`: what a call has posted so far, by its entries in the log.
* `createTransaction_posts`, **`importLoop_posts`**: the specifications among other imports.
* **`imports_accounted`**: over every interleaving, an id is posted at most once, and the reported
  counts add up to the new transactions.
-/

namespace Antimoney

open Antimoney.Lib Antimoney.Gnc Prog

/-! ## What a call posts -/

/-- `idx_transactions_plaid_txn`: a plaid id is posted at most once in a book. -/
def Db.AtMostOnce (db : Db) : Prop :=
  ∀ book id, db.transactions.countP (fun t => t.bookGuid == book && t.plaidTxnId == some id) ≤ 1

/-- The entry of an `INSERT INTO transactions`. -/
def Inserting (e : Nat × Note) : Bool :=
  match e.2.tag with
  | .insertTransaction _ _ => true
  | _ => false

/-- `y` comes from `x` by statements of the call `id`, which inserted `k` transactions. -/
structure Posts (id k : Nat) (x y : Logged Db Note) : Prop where
  log : ∃ es, y.log = es ++ x.log ∧ (∀ e ∈ es, e.1 = id) ∧ es.countP Inserting = k
  new : ∃ ts, y.data.transactions = x.data.transactions ++ ts ∧ ts.length = k
  once : x.data.AtMostOnce → y.data.AtMostOnce

theorem Posts.refl (id : Nat) (x : Logged Db Note) : Posts id 0 x x :=
  ⟨⟨[], rfl, by simp, rfl⟩, ⟨[], by simp, rfl⟩, fun h => h⟩

theorem Posts.trans {id k m : Nat} {x y z : Logged Db Note} (h : Posts id k x y)
    (h' : Posts id m y z) : Posts id (k + m) x z := by
  obtain ⟨es, he, hid, hk⟩ := h.log
  obtain ⟨es', he', hid', hm⟩ := h'.log
  obtain ⟨ts, ht, hlen⟩ := h.new
  obtain ⟨ts', ht', hlen'⟩ := h'.new
  refine ⟨⟨es' ++ es, by rw [he', he, List.append_assoc], fun e hmem => ?_, ?_⟩,
    ⟨ts ++ ts', by rw [ht', ht, List.append_assoc], by rw [List.length_append, hlen, hlen']⟩,
    fun hx => h'.once (h.once hx)⟩
  · rcases List.mem_append.mp hmem with hmem | hmem
    · exact hid' e hmem
    · exact hid e hmem
  · rw [List.countP_append, hk, hm, Nat.add_comm]

/-- A statement that inserts no transaction. -/
structure Unposting {β : Type} (q : Stmt β) : Prop where
  tag : ∀ g i, q.tag ≠ .insertTransaction g i
  keeps : KeepsTransactions q

theorem unposting_of_reads {β : Type} {q : Stmt β} (hq : q.Reads)
    (ht : ∀ g i, q.tag ≠ .insertTransaction g i) : Unposting q :=
  ⟨ht, fun _ _ _ _ hw => by rw [hq.write hw]⟩

theorem unposting_query {β : Type} (f : Db → β) : Unposting (Stmt.query f) :=
  unposting_of_reads (Stmt.reads_query f) fun _ _ h => absurd h (by simp [Stmt.query, Stmt.sql, Stmt.mk'])

theorem unposting_deleteStaged (book : Guid) (id : String) : Unposting (deleteStagedStmt book id) := by
  refine ⟨fun _ _ h => absurd h (by simp [deleteStagedStmt, Stmt.tagged]), fun env v y z hw => ?_⟩
  obtain ⟨⟨_, z'⟩, hb, rfl⟩ := ok_map hw
  obtain ⟨-, rfl⟩ := Prod.mk.inj (Except.ok.inj (ok_of_failing hb))
  rfl

variable {id : Nat} {x y z v : Logged Db Note} {env : Nat × Env}

theorem posts_of_unposting {β : Type} {q : Stmt β} (hq : Unposting q) (hid : env.1 = id)
    (hw : observed.write q env v x = .ok y) : Posts id 0 x y := by
  obtain ⟨hw, hl⟩ := Machine.logged_write hw
  have ht := hq.keeps _ _ _ _ hw
  refine ⟨⟨[_], hl, fun e he => ?_, ?_⟩, ⟨[], by rw [ht, List.append_nil], rfl⟩, fun h => ?_⟩
  · rw [List.mem_singleton.mp he]
    exact hid
  · have hno : Inserting (env.1, noteOf q env.2 v.data) = false := by
      unfold Inserting noteOf
      dsimp only
      split
      · exact absurd ‹_› (hq.tag _ _)
      · rfl
    simp [hno]
  · unfold Db.AtMostOnce
    rw [ht]
    exact h

/-- The index refuses an id that is taken. -/
theorem posts_of_insert {t : Transaction} (hid : env.1 = id)
    (hw : observed.write (insertTransactionStmt t) env v x = .ok y) : Posts id 1 x y := by
  obtain ⟨hw, hl⟩ := Machine.logged_write hw
  obtain ⟨⟨_, z⟩, hb, rfl⟩ := ok_map hw
  obtain ⟨_, hb, he⟩ := ok_map (ok_of_failing hb)
  obtain ⟨-, rfl⟩ := Prod.mk.inj he
  obtain ⟨⟨-, hfree, -⟩, hy⟩ := Db.insertTransaction_ok hb
  have ht : y.data.transactions = x.data.transactions ++ [t] := by rw [hy]
  refine ⟨⟨[_], hl, fun e he => ?_, by simp [Inserting, noteOf, insertTransactionStmt, Stmt.tagged]⟩,
    ⟨[t], ht, rfl⟩, fun h book i => ?_⟩
  · rw [List.mem_singleton.mp he]
    exact hid
  · rw [ht, List.countP_append, List.countP_singleton]
    by_cases hi : t.bookGuid = book ∧ t.plaidTxnId = some i
    · obtain ⟨rfl, hi⟩ := hi
      rw [hi] at hfree
      have hzero : x.data.transactions.countP
          (fun t' => t'.bookGuid == t.bookGuid && t'.plaidTxnId == some i) = 0 := by
        rw [List.countP_eq_zero]
        intro t' ht' hc
        simp only [Db.plaidTxnTaken, Option.any_some, List.any_eq_false] at hfree
        exact absurd hc (hfree t' ht')
      rw [hzero]
      split <;> omega
    · rw [if_neg (by simpa using hi)]
      exact h book i

/-! ## The contract -/

/-- The new transactions are those of the log, and no plaid id is posted twice. -/
structure Accounted (db : Db) (s : Logged Db Note) : Prop where
  new : ∃ ts, s.data.transactions = db.transactions ++ ts ∧ ts.length = s.log.countP Inserting
  once : s.data.AtMostOnce

theorem Accounted.posts {db : Db} {k : Nat} (h : Accounted db x) (hp : Posts id k x y) :
    Accounted db y := by
  obtain ⟨ts, ht, hlen⟩ := h.new
  obtain ⟨ts', ht', hlen'⟩ := hp.new
  obtain ⟨es, he, -, hk⟩ := hp.log
  refine ⟨⟨ts ++ ts', by rw [ht', ht, List.append_assoc], ?_⟩, hp.once h.once⟩
  rw [List.length_append, he, List.countP_append, hlen, hlen', hk, Nat.add_comm]

/-- The contract of an import: the others post under their own numbers. -/
def importContract (db : Db) (id : Nat) : Contract Stmt SqlErr (Nat × Env) (Logged Db Note) where
  inv := Accounted db
  rely x y := Logged.Adds (fun e => e.1 ≠ id) x y
  guar _ x y := Logged.Adds (fun e => e.1 = id) x y
  ok _ env _ := env.1 = id
  rely_refl s := .refl _ s
  rely_trans h h' := h.trans h'
  guar_refl _ s _ := .refl _ s

/-- The call `id` has posted `k` transactions so far. -/
def Credited (id k : Nat) (s : Logged Db Note) : Prop :=
  s.log.countP (fun e => e.1 == id && Inserting e) = k

variable {db : Db} {k m : Nat} {s : Logged Db Note}

theorem Credited.posts (h : Credited id k x) (hp : Posts id m x y) : Credited id (k + m) y := by
  obtain ⟨es, he, hid, hm⟩ := hp.log
  have hown : es.countP (fun e => e.1 == id && Inserting e) = es.countP Inserting :=
    List.countP_congr fun e hmem => by simp [hid e hmem]
  unfold Credited at h ⊢
  rw [he, List.countP_append, hown, hm, h, Nat.add_comm]

theorem Credited.others (h : Credited id k x) (ha : Logged.Adds (fun e => e.1 ≠ id) x y) :
    Credited id k y := by
  obtain ⟨es, he, hid⟩ := ha
  have hnone : es.countP (fun e => e.1 == id && Inserting e) = 0 := by
    rw [List.countP_eq_zero]
    intro e hmem hc
    simp only [Bool.and_eq_true, beq_iff_eq] at hc
    exact hid e hmem hc.1
  unfold Credited at h ⊢
  rw [he, List.countP_append, hnone, h, Nat.zero_add]

theorem stable_credited : (importContract db id).Stable (Credited id k) :=
  fun _ _ h hr _ => h.others hr

theorem keeps_posts {β : Type} (o : Op Stmt β) (hi : Accounted db x) (h : Posts id k x y) :
    Accounted db y ∧ (importContract db id).guar o x y := by
  obtain ⟨es, he, hid, -⟩ := h.log
  exact ⟨hi.posts h, es, he, hid⟩

theorem frame_unposting : Frame observed (importContract db id) Unposting (Posts id 0) where
  refl x := .refl id x
  trans h h' := h.trans h'
  write _ _ _ _ _ _ _ _ hq hid _ _ hw := posts_of_unposting hq hid hw
  keeps o _ _ _ hi h := keeps_posts o hi h

/-! ## `CreateTransaction` -/

theorem unposting_askEnv {β : Type} (f : Env → β) : Unposting (Stmt.askEnv f) :=
  unposting_of_reads (Stmt.reads_askEnv f) fun _ _ h => absurd h (by simp [Stmt.askEnv, Stmt.mk'])

theorem unposting_uuidNew : Unposting uuidNew :=
  unposting_of_reads reads_uuidNew fun _ _ h => absurd h (by simp [uuidNew, Stmt.mk'])

theorem unposting_queryE {β : Type} (f : Db → Except SqlErr β) : Unposting (Stmt.queryE f) :=
  unposting_of_reads (Stmt.reads_queryE f) fun _ _ h =>
    absurd h (by simp [Stmt.queryE, Stmt.sql, Stmt.mk'])

theorem unposting_insertAccount (a : Account) : Unposting (insertAccountStmt a) := by
  refine ⟨fun _ _ h => absurd h (by simp [insertAccountStmt, Stmt.locking, Stmt.sql, Stmt.mk']),
    fun env v y z hw => ?_⟩
  rw [insertAccountStmt_ok (v := v) hw]

theorem unposting_insertSplit (account : GuidText) (sp : Split) :
    Unposting (insertSplitStmt account sp) :=
  ⟨fun _ _ h => absurd h (by simp [insertSplitStmt, Stmt.locking, Stmt.sql, Stmt.mk']),
    keepsTransactions_insertSplit account sp⟩

theorem imbalanceAccount_unposting (book : Guid) : (imbalanceAccount book).Issues Unposting := by
  refine issues_reply (unposting_query _) fun r => ?_
  rcases r with e | _ | g
  · trivial
  · refine issues_exec (unposting_query _) fun r => ?_
    rcases r with _ | _ | root
    · trivial
    · trivial
    · refine issues_exec unposting_uuidNew fun g => issues_exec (unposting_askEnv _) fun now => ?_
      exact issues_exec (unposting_insertAccount _) fun _ => trivial
  · trivial

theorem imbalanceAccount_body (book : Guid) : (imbalanceAccount book).Body := by
  refine body_ask fun r => ?_
  rcases r with e | _ | g
  · trivial
  · refine body_sql fun r => ?_
    rcases r with _ | _ | root
    · trivial
    · trivial
    · exact body_sql fun g => body_sql fun now => body_sql fun _ => trivial
  · trivial

theorem balancedSplits_unposting (book : Guid) (valid : List CreateSplitRequest) (sum : Numeric) :
    (balancedSplits book valid sum).Issues Unposting ∧ (balancedSplits book valid sum).Body := by
  unfold balancedSplits
  split
  · exact ⟨trivial, trivial⟩
  · exact ⟨issues_bind (imbalanceAccount_unposting book) fun _ => trivial,
      body_bind (imbalanceAccount_body book) fun _ => trivial⟩

theorem checkAccounts_unposting (book : Guid) (splits : List CreateSplitRequest) :
    (checkAccounts book splits).Issues Unposting := by
  induction splits with
  | nil => trivial
  | cons sp rest ih =>
    refine issues_reply (unposting_queryE _) fun r => ?_
    rcases r with e | _ | _ | _
    · trivial
    · trivial
    · exact ih
    · trivial

/-- One transaction, if the part succeeds. -/
def oneIfOk {α : Type} : Except Err α → Nat
  | .ok _ => 1
  | .error _ => 0

variable {ss : Sess SqlErr Lock (Logged Db Note)} {book : Guid} {α β : Type}

/-- A part of the open transaction that inserts none, then the rest. -/
theorem wp_unposting {p : Call α} {f : α → Call β}
    {Q : Except Err β → Sess SqlErr Lock (Logged Db Note) → Logged Db Note → Prop}
    (hp : p.Issues Unposting) (hb : p.Body) (h : ss.Pends (Posts id m)) (hs : Credited id k s)
    (herr : ∀ e ss s, Credited id k s → Q (.error e) ss s)
    (hf : ∀ a ss s, ss.Pends (Posts id m) → Credited id k s →
      (f a).wp observed (importContract db id) Q ss s) :
    (p.bind f).wp observed (importContract db id) Q ss s := by
  refine wp_bind (wp_mono (fun r ss s hpost => ?_) (wp_body stable_credited
    (fun q env v v' b s x y z hq hid _ hxy hw => hxy.trans (posts_of_unposting hq hid hw)) hp hb h
    hs))
  cases r with
  | error e => exact herr e ss s hpost.2
  | ok a => exact hf a ss s hpost.1 hpost.2

/-- **`CreateTransaction` among other imports** posts one transaction if it succeeds. -/
theorem createTransaction_posts (req : CreateTransactionRequest) (hs : Credited id k s) :
    (createTransaction book req).wp observed (importContract db id)
      (fun r ss s => ss = .idle ∧ Credited id (k + oneIfOk r) s) .idle s := by
  unfold createTransaction
  cases validSplits req.splits with
  | error e => exact ⟨rfl, hs⟩
  | ok valid =>
    cases hsum : splitSum valid with
    | none =>
      simp only [Prog.ofExcept, bind_eq, ret_bind, hsum, orPanic]
      exact ⟨rfl, hs⟩
    | some sum =>
      simp only [Prog.ofExcept, bind_eq, ret_bind, hsum, orPanic]
      have hfail : ∀ (e : Err) (ss : Sess SqlErr Lock (Logged Db Note)) s, Credited id k s →
          ∀ s₂, (importContract db id).rely s s₂ → (importContract db id).inv s₂ →
            (Sess.idle : Sess SqlErr Lock (Logged Db Note)) = .idle ∧
              Credited id (k + oneIfOk (.error e : Except Err (Transaction × List Split))) s₂ :=
        fun e ss s h s₂ hr hi => ⟨rfl, stable_credited s s₂ h hr hi⟩
      refine wp_inTx (fun s' _ hr hi => hfail _ .idle s hs s' hr hi) fun s₁ hr hi => ?_
      obtain ⟨hissues, hbody⟩ := balancedSplits_unposting book valid sum
      refine wp_unposting hissues hbody (Sess.pends_begin (Posts.refl id))
        (stable_credited _ _ hs hr hi) hfail fun splits ss s hp hs => ?_
      split
      · exact hfail _ ss s hs
      · refine wp_unposting (checkAccounts_unposting book splits) (checkAccounts_body book splits)
          hp hs hfail fun _ ss s hp hs => ?_
        refine wp_unposting (issues_sql unposting_uuidNew) (body_exec _ _) hp hs hfail
          fun guid ss s hp hs => ?_
        refine wp_unposting (issues_sql (unposting_askEnv _)) (body_exec _ _) hp hs hfail
          fun now ss s hp hs => ?_
        refine wp_stmt_pends (V := fun _ => Posts id 1) stable_credited hp hs
          (fun env v v' b s x y z hid _ _ hxy hw => hxy.trans (posts_of_insert hid hw))
          (fun e ss s hs _ => hfail _ ss s hs) fun _ _ _ _ ss s hs _ _ _ _ hp => ?_
        refine wp_unposting (p := insertSplits guid now _ 0 splits) (insertSplits_issues
          unposting_uuidNew fun a sp _ => unposting_insertSplit a sp) (insertSplits_body _ _ _ _ _)
          hp hs hfail fun rows ss s hp hs => ?_
        refine wp_bind (wp_commit_pends stable_credited hp hs
          (fun e s hs _ => hfail _ .idle s hs) fun s v hs hi hw => ?_)
        obtain ⟨hi', hg⟩ := keeps_posts (.commit : Op Stmt Unit) hi hw
        exact ⟨hi', hg, fun s₂ hr hi₂ => ⟨rfl, stable_credited _ _ (hs.posts hw) hr hi₂⟩⟩

/-! ## `Import` -/

/-- A row that is imported is one transaction. -/
def rowCount : Except Err RowOutcome → Nat
  | .ok .imported => 1
  | _ => 0

theorem ImportResult.add_imported (r : ImportResult) (row : ImportRow) (o : RowOutcome) :
    (r.add row o).imported = r.imported + rowCount (.ok o) := by
  cases o <;> rfl

/-- What a row has posted when it ends. -/
def RowPosted (id k : Nat) (r : Except Err RowOutcome) (ss : Sess SqlErr Lock (Logged Db Note))
    (s : Logged Db Note) : Prop :=
  ss = .idle ∧ Credited id (k + rowCount r) s

/-- A statement that inserts no transaction, then the rest. -/
theorem wp_credited {q : Stmt β} {g : Except SqlErr β → Call α}
    {Q : Except Err α → Sess SqlErr Lock (Logged Db Note) → Logged Db Note → Prop}
    (hq : Unposting q) (hs : Credited id k s)
    (h : ∀ r s, Credited id k s → (g r).wp observed (importContract db id) Q .idle s) :
    (Prog.op (.stmt q) g).wp observed (importContract db id) Q .idle s :=
  wp_stmt_frame frame_unposting stable_credited (fun _ _ _ hp hc => hc.posts hp) hq hs
    (fun _ _ s hs _ _ => h _ s hs) fun _ _ _ s _ hs _ _ _ _ => h _ s hs

/-- A row that ends with the deletion of its staged copy. -/
theorem deleteStaged_posts {i : String} {o : RowOutcome} (hs : Credited id (k + rowCount (.ok o)) s) :
    ((deleteStaged book i).bind fun _ => ret o).wp observed (importContract db id)
      (RowPosted id k) .idle s := by
  exact wp_credited (unposting_deleteStaged book i) hs fun r s hs => ⟨rfl, hs⟩

theorem replacesImported_posts (row : ImportRow) (st : Staged) (hs : Credited id k s) :
    (replacesImported book row st).wp observed (importContract db id)
      (fun _ ss s => ss = .idle ∧ Credited id k s) .idle s := by
  unfold replacesImported
  split
  · exact ⟨rfl, hs⟩
  · refine wp_credited (unposting_query _) hs fun r s hs => ?_
    cases r with
    | error e => exact ⟨rfl, hs⟩
    | ok imported =>
      dsimp only [ret_bind]
      split
      · refine wp_credited (unposting_queryE _) hs fun r s hs => ?_
        cases r <;> exact ⟨rfl, hs⟩
      · exact ⟨rfl, hs⟩

theorem createImported_posts (row : ImportRow) (bank : Guid) (st : Staged)
    (hs : Credited id k s) :
    (createImported book row bank st).wp observed (importContract db id) (RowPosted id k) .idle
      s := by
  refine wp_bind (wp_attempt (wp_mono (fun r ss s h => ?_) (createTransaction_posts _ hs)))
  obtain ⟨rfl, hs⟩ := h
  dsimp only [Prog.ofExcept, ret_bind]
  split
  · exact ⟨rfl, hs⟩
  · split
    · exact deleteStaged_posts (o := .skipped) hs
    · exact ⟨rfl, hs⟩
  · exact deleteStaged_posts (o := .imported) hs

theorem importStaged_posts (row : ImportRow) (st : Staged) (hs : Credited id k s) :
    (importStaged book row st).wp observed (importContract db id) (RowPosted id k) .idle s := by
  refine wp_credited (unposting_query _) hs fun r s hs => ?_
  rcases r with e | _ | bank
  · exact ⟨rfl, hs⟩
  · exact ⟨rfl, hs⟩
  · refine wp_credited (unposting_query _) hs fun r s hs => ?_
    cases r with
    | error e => exact ⟨rfl, hs⟩
    | ok posted =>
      dsimp only [ret_bind]
      split
      · exact ⟨rfl, hs⟩
      · refine wp_bind (wp_mono (fun r ss s h => ?_) (replacesImported_posts row st hs))
        obtain ⟨rfl, hs⟩ := h
        cases r with
        | error e => exact ⟨rfl, hs⟩
        | ok replaces =>
          dsimp only [Prog.ofExcept, ret_bind]
          split
          · exact deleteStaged_posts (o := .skipped) hs
          · exact createImported_posts row bank st hs

/-- **A row among other imports.** -/
theorem importRow_posts (row : ImportRow) (hs : Credited id k s) :
    (importRow book row).wp observed (importContract db id) (RowPosted id k) .idle s := by
  have hload : Unposting (loadStaged book row.transactionId) :=
    unposting_of_reads ((Stmt.reads_query _).tagged _) fun _ _ h =>
      absurd h (by simp [loadStaged, Stmt.tagged])
  unfold importRow
  split
  · exact ⟨rfl, hs⟩
  · refine wp_credited hload hs fun r s hs => ?_
    rcases r with e | _ | st
    · exact ⟨rfl, hs⟩
    · refine wp_credited (unposting_query _) hs fun r s hs => ?_
      cases r with
      | error e => exact ⟨rfl, hs⟩
      | ok posted =>
        dsimp only [ret_bind]
        split <;> exact ⟨rfl, hs⟩
    · exact importStaged_posts row st hs

/-- **The loop among other imports** has posted what it reports, when it returns. -/
theorem importLoop_posts (result : ImportResult) (rows : List ImportRow)
    (hs : Credited id result.imported s) :
    (importLoop book result rows).wp observed (importContract db id)
      (fun r _ s => ∀ a, r = .ok a → Credited id a.1.imported s) .idle s := by
  induction rows generalizing result s with
  | nil =>
    intro a ha
    rw [← Except.ok.inj ha]
    exact hs
  | cons row rows ih =>
    refine wp_bind (wp_attempt (wp_mono (fun r ss s h => ?_) (importRow_posts row hs)))
    obtain ⟨rfl, hs⟩ := h
    dsimp only [Prog.ofExcept, ret_bind]
    split
    · exact fun _ h => absurd h (by simp)
    · intro a ha
      rw [← Except.ok.inj ha]
      exact hs
    · refine ih _ ?_
      rw [ImportResult.add_imported]
      exact hs

/-! ## Every interleaving -/

/-- What a finished call reports. -/
def reported {ρ σ : Type} (a : Live Stmt SqlErr Lock σ Err (ImportResult × Option Err) ρ) : Nat :=
  match a.prog.outcome with
  | some (.ok (r, _)) => r.imported
  | _ => 0

/-- The imports of a book, many at once, with the log. -/
abbrev ImportPool (book : Guid) (db : Db) :
    Conf Stmt SqlErr Lock (Logged Db Note) Err (ImportResult × Option Err)
      (Arrival (List ImportRow)) → Prop :=
  Reach observed (fun a => importRows book a.req) Numbered ⟨db, []⟩

theorem imports_tolerant (book : Guid) {db : Db} (h : db.AtMostOnce) :
    Tolerant observed (fun a : Arrival (List ImportRow) => importRows book a.req) Numbered
      ⟨db, []⟩ (Accounted db) (fun r => importContract db r.id)
      (fun r x s => ∃ a, x = .ok a ∧ Credited r.id a.1.imported s) (fun _ _ => True) where
  start := ⟨⟨[], by simp, rfl⟩, h⟩
  inv _ _ := Iff.rfl
  arrives c r hc hok _ := by
    have hs : Credited r.id 0 c.db := by
      refine List.countP_eq_zero.mpr fun e he hown => ?_
      have hlt := hc.log_lt (fun _ _ h => h) rfl he
      have hid : r.id = c.calls.length := hok
      simp only [Bool.and_eq_true, beq_iff_eq] at hown
      omega
    refine wp_mono (fun x _ s hpost => ?_) (wp_failsOnly (importLoop_returns book _ r.req)
      (importLoop_posts ⟨0, []⟩ r.req hs))
    cases x with
    | error e => exact absurd rfl (hpost.2 e)
    | ok a => exact ⟨a, rfl, hpost.1 a rfl⟩
  pairs _ _ _ _ _ _ _ := ⟨trivial, trivial⟩
  supplied h := h.ok.trans (h.reach.id_eq (fun _ _ h => h) h.call).symm
  rely {_ _ _ _ _ a b _ _} hstep hij hj _ hg _ _ := by
    have hne : a.req.id ≠ b.req.id := hstep.id_ne (fun _ _ h => h) hij hj
    exact Logged.Adds.mono (fun e he hid => hne ((Eq.symm he).trans hid)) hg
  keep {_ _ _ _ _ a b _ _ _} hstep hij hj _ hg hpost := by
    have hne : a.req.id ≠ b.req.id := hstep.id_ne (fun _ _ h => h) hij hj
    obtain ⟨r, hr, hc⟩ := hpost
    exact ⟨r, hr, hc.others (Logged.Adds.mono (fun e he hid => hne ((Eq.symm he).trans hid)) hg)⟩

/-- **Imports are exactly accounted for.** However the statements of any number of imports of a book
interleave, a plaid id is posted at most once, and when every call has returned, the counts they
report add up to the number of transactions they created. -/
theorem imports_accounted {book : Guid} {db : Db} (h : db.AtMostOnce)
    {c : Conf Stmt SqlErr Lock (Logged Db Note) Err (ImportResult × Option Err)
      (Arrival (List ImportRow))} (hr : ImportPool book db c) :
    c.db.data.AtMostOnce ∧ ((∀ a ∈ c.calls, a.prog.outcome.isSome = true) →
      ∃ new, c.db.data.transactions = db.transactions ++ new ∧
        (c.calls.map reported).sum = new.length) := by
  have ht := imports_tolerant book h
  obtain ⟨⟨new, hnew, hlen⟩, honce⟩ := (ht.poolInv hr).inv
  refine ⟨honce, fun hdone => ⟨new, hnew, ?_⟩⟩
  have hown : c.calls.map reported = (List.range c.calls.length).map fun i =>
      c.db.log.countP fun e => e.1 == i && Inserting e := by
    refine List.ext_getElem (by simp) fun i hi _ => ?_
    have hlt : i < c.calls.length := by simpa using hi
    have hcall : c.calls[i]? = some c.calls[i] := List.getElem?_eq_getElem hlt
    obtain ⟨x, hx⟩ := Option.isSome_iff_exists.mp (hdone _ (List.getElem_mem hlt))
    obtain ⟨r, rfl, hc⟩ := ht.done hr hcall hx
    have hid : c.calls[i].req.id = i := hr.id_eq (fun _ _ h => h) hcall
    rw [hid] at hc
    simp only [List.getElem_map, List.getElem_range]
    unfold reported
    rw [hx]
    exact hc.symm
  rw [hown, sum_countP_id _ fun e he => hr.log_lt (fun _ _ h => h) rfl he, hlen]

/-- The test of a numbered event of such a pool. -/
def numberedImport (c : Conf Stmt SqlErr Lock (Logged Db Note) Err (ImportResult × Option Err)
    (Arrival (List ImportRow))) : PoolEvent (Arrival (List ImportRow)) (Nat × Env) → Bool
  | .spawn r => r.id == c.calls.length
  | .step i env => env.1 == i

theorem numbered_of_import {c : Conf Stmt SqlErr Lock (Logged Db Note) Err
    (ImportResult × Option Err) (Arrival (List ImportRow))}
    {e : PoolEvent (Arrival (List ImportRow)) (Nat × Env)} (h : numberedImport c e = true) :
    Numbered c e := by
  cases e <;> simpa [numberedImport, Numbered] using h

/-- A purchase that waits to be imported. -/
def purchaseStaged : Db := syncedWith [bankTxn "posted-1" "" false]

/-- Two calls import the purchase, one of them twice: both find it missing before the first one
commits. -/
def twoImports : List (PoolEvent (Arrival (List ImportRow)) (Nat × Env)) :=
  let row : ImportRow := ⟨"posted-1", Guid.text 18⟩
  .spawn ⟨0, [row]⟩ :: .spawn ⟨1, [row, row]⟩ ::
    (List.range 8).flatMap (fun k => [.step 0 (0, calm 100 k), .step 1 (1, calm 200 k)]) ++
    (List.range 8).map (fun k => .step 0 (0, calm 108 k)) ++
    (List.range 5).map fun k => .step 1 (1, calm 208 k)

/-- One transaction is created, and one is reported. -/
theorem imports_accounted_twice : ∃ c, ImportPool 3 purchaseStaged c ∧ c.db.data.AtMostOnce ∧
    (c.calls.map reported).sum = 1 ∧
    ∃ new, c.db.data.transactions = purchaseStaged.transactions ++ new ∧ new.length = 1 := by
  have hrun : ((Conf.run observed (fun a : Arrival (List ImportRow) => importRows 3 a.req)
      numberedImport ⟨⟨purchaseStaged, []⟩, []⟩ twoImports).map fun c =>
        ((c.calls.map reported).sum, c.calls.all fun a => a.prog.outcome.isSome)) =
      some (1, true) := by
    decide +kernel
  obtain ⟨c, hc, h⟩ := Option.map_eq_some_iff.mp hrun
  obtain ⟨hsum, hall⟩ := Prod.mk.inj h
  have hr : ImportPool 3 purchaseStaged c := Reach.run (fun _ _ => numbered_of_import) .start hc
  have hnone : purchaseStaged.transactions = [] := by decide +kernel
  have honce : purchaseStaged.AtMostOnce := fun book id => by simp [hnone]
  obtain ⟨hc, hacc⟩ := imports_accounted honce hr
  obtain ⟨new, hnew, hlen⟩ := hacc (List.all_eq_true.mp hall)
  exact ⟨c, hr, hc, hsum, new, hnew, hlen.symm.trans hsum⟩

end Antimoney
