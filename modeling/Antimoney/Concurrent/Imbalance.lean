import Antimoney.Concurrent
import Antimoney.Lib.Single

/-!
# One `Imbalance` account

`CreateTransaction` looks up the account `Imbalance` of its book and inserts it when there is none.
Nothing holds the answer until the insert: the schema has no unique index on names, and another call
may insert one in between. While no answer is overtaken so, a book has one such account at most.

* `createTransaction_once`: a call inserts one at most.
* **`imbalance_unique`**: over every interleaving in which the lookups still stand.
* **`imbalance_doubled`**: two calls on a fresh book leave two.
-/

namespace Antimoney

open Antimoney.Lib Prog

/-- An account named `Imbalance` of the book. -/
def isImbalance (book : Guid) (a : Account) : Bool := a.bookGuid == book && a.name == "Imbalance"

/-- How many there are. -/
def Db.imbalances (book : Guid) (db : Db) : Nat := db.accounts.countP (isImbalance book)

/-- The `INSERT` of such an account. -/
inductive Imbalancing (book : Guid) : {β : Type} → Stmt β → Prop
  | insert (a : Account) (h : isImbalance book a = true) : Imbalancing book (insertAccountStmt a)

variable {book : Guid}

/-! ## One statement -/

theorem making_of_accounts {β : Type} {q : Stmt β}
    (h : ∀ env v x y, q.write env v x = .ok y → y.accounts = x.accounts) :
    Making machine (Db.imbalances book) 0 q := by
  intro env v x y hw
  unfold Db.imbalances
  rw [h env v x y hw]
  exact Nat.le_refl _

theorem imbalances_insert {a : Account} {env : Env} {v x y : Db}
    (h : (insertAccountStmt a).write env v x = .ok y) :
    y.imbalances book = x.imbalances book + if isImbalance book a then 1 else 0 := by
  unfold Db.imbalances
  rw [insertAccountStmt_ok (v := v) h, List.countP_append, List.countP_singleton]
  rfl

theorem Imbalancing.making {β : Type} {q : Stmt β} (h : Imbalancing book q) :
    Making machine (Db.imbalances book) 1 q := by
  cases h with
  | insert a ha =>
    intro env v x y hw
    exact Nat.le_of_eq (by rw [imbalances_insert (v := v) hw, if_pos ha])

/-- Another account is none of them. -/
theorem making_insert {a : Account} (h : isImbalance book a = false) :
    Making machine (Db.imbalances book) 0 (insertAccountStmt a) := by
  intro env v x y hw
  exact Nat.le_of_eq (by rw [imbalances_insert (v := v) hw, h]; rfl)

theorem Reading.making {β : Type} {b : Guid} {q : Stmt β} (h : Reading b q) :
    Making machine (Db.imbalances book) 0 q :=
  making_of_accounts fun _ _ _ _ hw => by rw [h.reads.write hw]

theorem making_insertTransaction (t : Transaction) :
    Making machine (Db.imbalances book) 0 (insertTransactionStmt t) :=
  making_of_accounts fun _ _ _ _ hw => by
    obtain ⟨_, hb⟩ := ok_of_ok_map hw
    obtain ⟨_, hi, he⟩ := ok_map (ok_of_failing hb)
    rw [← (Prod.mk.inj he).2, (Db.insertTransaction_ok hi).2]

theorem making_insertSplit (a : GuidText) (sp : Split) :
    Making machine (Db.imbalances book) 0 (insertSplitStmt a sp) :=
  making_of_accounts fun _ _ _ _ hw => by
    obtain ⟨_, rfl⟩ := insertSplitStmt_ok hw
    rfl

/-! ## One call -/

/-- `INSERT INTO accounts` makes one or none. -/
theorem once_insertAccount {text : String} (a : Account) :
    (exec text (insertAccountStmt a)).Once (Making machine (Db.imbalances book) 0)
      (Imbalancing book) := by
  cases ha : isImbalance book a with
  | true => exact once_sql (.insert a ha)
  | false => exact Issues.once (issues_sql (making_insert ha))

theorem imbalanceAccount_once {b : Guid} :
    (imbalanceAccount b).Once (Making machine (Db.imbalances book) 0) (Imbalancing book) := by
  have hread : ∀ {γ : Type} {q : Stmt γ}, Reading b q → Making machine (Db.imbalances book) 0 q :=
    fun h => h.making
  refine once_bind (issues_ask (hread ⟨.selectImbalance, Stmt.reads_query _⟩)) fun r => ?_
  rcases r with e | _ | g
  · trivial
  · refine once_bind (issues_sql (hread ⟨.selectBookRoot, Stmt.reads_query _⟩)) fun r => ?_
    rcases r with _ | _ | root
    · trivial
    · trivial
    · refine once_bind (issues_sql (hread ⟨.uuidNew, reads_uuidNew⟩)) fun g => ?_
      refine once_bind (issues_sql (hread ⟨.askEnv _, Stmt.reads_askEnv _⟩)) fun now => ?_
      exact Once.bind (once_insertAccount _) fun _ => trivial
  · trivial

/-- A call inserts one `Imbalance` account at most, whatever else it does. -/
theorem createTransaction_once {b : Guid} (req : CreateTransactionRequest) :
    (createTransaction b req).Once (Making machine (Db.imbalances book) 0) (Imbalancing book) := by
  have hread : ∀ {γ : Type} {q : Stmt γ}, Reading b q → Making machine (Db.imbalances book) 0 q :=
    fun h => h.making
  refine once_bind (issues_ofExcept _) fun valid => once_bind issues_orPanic fun sum => ?_
  refine once_inTx (Once.bind ?_ fun splits => ?_)
  · unfold balancedSplits
    split
    · trivial
    · exact Once.bind imbalanceAccount_once fun _ => trivial
  · split
    · trivial
    · refine issues_bind ((checkAccounts_issues splits).mono fun _ h => hread h) fun _ => ?_
      refine issues_exec (hread ⟨.uuidNew, reads_uuidNew⟩) fun g => ?_
      refine issues_exec (hread ⟨.askEnv _, Stmt.reads_askEnv _⟩) fun now => ?_
      refine issues_exec (making_insertTransaction _) fun _ => ?_
      refine issues_bind (insertSplits_issues (hread ⟨.uuidNew, reads_uuidNew⟩)
        fun _ _ _ => making_insertSplit _ _) fun rows => ?_
      exact issues_bind issues_commit fun _ => trivial

/-! ## Every interleaving -/

/-- `CreateTransaction`, of any book. -/
def Event.creates : Event → Bool
  | .request _ _ (.createTransaction _) => true
  | _ => false

/-- The call is about to insert an account `Imbalance` of the book. -/
def AboutToInsert (book : Guid) (a : PoolCall) : Prop :=
  ∃ acc k, a.prog = .op (.stmt (insertAccountStmt acc)) k ∧ isImbalance book acc = true

/-- Where a call inserts the account, its lookup still stands: there is none by now, and no other
transaction under way has inserted one. -/
def LookupStands (book : Guid) (c : Pool) : PoolStep → Prop
  | .spawn _ => True
  | .step i _ => ∀ a, c.calls[i]? = some a → AboutToInsert book a →
      c.db.imbalances book = 0 ∧
        ∀ j b, j ≠ i → c.calls[j]? = some b → ¬ b.sess.Makes (Db.imbalances book)

/-- `CreateTransaction` calls whose lookups stand. -/
def Standing (book : Guid) (c : Pool) (e : PoolStep) : Prop :=
  Spawning Event.creates c e ∧ LookupStands book c e

/-- **One `Imbalance` account per book.** In every interleaving of `CreateTransaction` calls, of any
books, from a state where the book has no account of that name, while each call that inserts one does
so before its lookup is overtaken, no committed state has two. -/
theorem imbalance_unique {db : Db} (h : db.imbalances book = 0) {c : Pool}
    (hr : Interleaved (Standing book) db c) : c.db.imbalances book ≤ 1 := by
  have hmost := Reach.atMostOne (P := Imbalancing book) (Nat.le_of_eq h |>.trans (Nat.zero_le 1))
    (fun _ hq => hq.making) ?_ ?_ hr
  · exact hmost.1.count
  · intro c e hok
    have he : e.creates = true := hok.1
    cases e with
    | request cfg b req =>
      cases req with
      | createTransaction req => exact Once.bind (createTransaction_once _) fun _ => trivial
      | _ => exact absurd he (by simp [Event.creates])
    | _ => exact absurd he (by simp [Event.creates])
  · intro c i env a γ q k hok hi ha hq
    cases hq with
    | insert acc hacc => exact hok.2 a hi ⟨acc, k, ha, hacc⟩

/-- A purchase of book 3 in one split, which `Imbalance` balances. -/
def unevenPurchase : Event :=
  .request plainConfig 3 (.createTransaction
    ⟨"", ⟨19000, 0⟩, "food", none, [⟨Guid.text 18, "", 1000, 100, 1000, 100, ""⟩]⟩)

/-- The test of `Standing 3` where one transaction is open and the account is not there yet. -/
def standingTest (c : Pool) : PoolStep → Bool
  | .spawn e => e.creates
  | .step i _ => c.db.imbalances 3 == 0 && (c.calls.eraseIdx i).all fun a => a.sess.pending.isNone

theorem standing_of_test {c : Pool} {e : PoolStep} (h : standingTest c e = true) :
    Standing 3 c e := by
  cases e with
  | spawn e => exact ⟨h, trivial⟩
  | step i env =>
    obtain ⟨h0, hidle⟩ := Bool.and_eq_true_iff.mp h
    refine ⟨trivial, fun a hi _ => ⟨beq_iff_eq.mp h0, fun j b hne hj => ?_⟩⟩
    have hb : b ∈ c.calls.eraseIdx i := List.mem_eraseIdx_iff_getElem?.mpr ⟨j, hne, hj⟩
    have hnone := Option.isNone_iff_eq_none.mp (List.all_eq_true.mp hidle b hb)
    rintro ⟨f, hf, -⟩
    exact absurd (hnone.symm.trans hf) (by simp)

/-- Steps of call `i`. -/
def stepsOf (i n k : Nat) : List PoolStep := (List.range n).map fun m => .step i (calm 100 (k + m))

/-- While another call waits, the purchase leaves one account. -/
theorem imbalance_unique_purchase : ∃ c, Interleaved (Standing 3) registered c ∧
    c.db.imbalances 3 = 1 ∧ c.db.imbalances 3 ≤ 1 := by
  have hrun : ((Conf.run machine Event.call standingTest ⟨registered, []⟩
      ([.spawn unevenPurchase, .spawn unevenPurchase] ++ stepsOf 0 16 0)).map
      fun c => c.db.imbalances 3) = some 1 := by
    decide +kernel
  obtain ⟨c, hc, h1⟩ := Option.map_eq_some_iff.mp hrun
  have hr : Interleaved (Standing 3) registered c :=
    Reach.run (fun _ _ => standing_of_test) .start hc
  exact ⟨c, hr, h1, imbalance_unique (by decide +kernel) hr⟩

/-- **Otherwise a book may have two**: both calls look the account up before either commits. -/
theorem imbalance_doubled : registered.imbalances 3 = 0 ∧
    ∃ c, Interleaved (Spawning Event.creates) registered c ∧ c.db.imbalances 3 = 2 := by
  refine ⟨by decide +kernel, ?_⟩
  have hrun : ((poolRun Event.creates registered ([.spawn unevenPurchase, .spawn unevenPurchase] ++
      stepsOf 0 2 0 ++ stepsOf 1 2 20 ++ stepsOf 0 14 2 ++ stepsOf 1 14 22)).map
      fun c => c.db.imbalances 3) = some 2 := by
    decide +kernel
  obtain ⟨c, hc, h2⟩ := Option.map_eq_some_iff.mp hrun
  exact ⟨c, interleaved_of_run hc, h2⟩

end Antimoney
