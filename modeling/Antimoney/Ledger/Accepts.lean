import Antimoney.Founding.Registration
import Antimoney.Ledger.Journal
import Antimoney.Lib.Decides
import Antimoney.Restore.Keyed

/-!
# Which transactions are accepted

`CreateTransaction` and `UpdateTransaction` refuse a request for what it says or for what it names.
As long as no statement fails, nothing else stops them.

* `Db.Accepts`, `Db.AcceptsEdit`: what a request has to satisfy, in terms of the request and the
  tables.
* **`createTransaction_decides`**, **`updateTransaction_decides`**: the calls answer exactly then.
* `transaction_accepted`, `edit_accepted`: the same of the server, in every state it reaches.
-/

namespace Antimoney

open Antimoney.Lib Antimoney.Gnc Prog

/-! ## When nothing goes wrong -/

/-- No statement fails and no connection is lost. -/
def Uneventful (envs : Nat → Env) : Prop := ∀ n, (envs n).fail = false ∧ (envs n).cut = none

/-- An answer without failure, whose generated identifier is none that is `named`. -/
def answered (named : Guid → Bool) {β : Type} (_ : Stmt β) (env : Env) (_ : Db) : Bool :=
  !env.fail && env.cut.isNone && !named env.guid

/-- The database, as long as nothing goes wrong. -/
abbrev peaceful (named : Guid → Bool) : Machine Stmt SqlErr Env Lock Db :=
  machine.unfailing (answered named)

section Peaceful

variable {named : Guid → Bool} {α β : Type} {env : Env} {v : Db}

theorem allowed_peaceful {q : Stmt β} (h : (peaceful named).allowed q env v = true) :
    q.allowed env v = true ∧ env.fail = false ∧ env.cut = none ∧ named env.guid = false := by
  have h' : (q.allowed env v && (!env.fail && env.cut.isNone && !named env.guid)) = true := h
  simp only [Bool.and_eq_true, Bool.not_eq_true', Option.isNone_iff_eq_none] at h'
  exact ⟨h'.1, h'.2.1.1, h'.2.1.2, h'.2.2⟩

theorem peaceful_down (env : Env) : (peaceful named).down env = none := rfl

/-- A statement that fails without a failure is refused by the tables. -/
theorem sql_refused {f : Db → Except SqlErr (β × Db)} {e : SqlErr} (hf : env.fail = false)
    (h : (Stmt.sql f).sem env v = .error e) : f v = .error e := by
  have h' : (if env.fail then .error .failed else f v) = .error e := h
  rwa [hf, if_neg (by simp)] at h'

/-- A run that nothing disturbs is one of the peaceful database. -/
theorem run_peaceful {p : Call α} {envs : Nat → Env} {t : Solo SqlErr Db} (hq : Uneventful envs)
    (hn : ∀ n, named (envs n).guid = false) (ha : p.runAllowed machine envs t = true) :
    p.runAllowed (peaceful named) envs t = true ∧
      p.run (peaceful named) envs t = p.run machine envs t := by
  have hdown : ∀ n, machine.down (envs n) = none := fun n => by simp [machine, (hq n).1]
  refine ⟨runAllowed_unfailing hdown (runAllowed_assuming (fun q n s => ?_) ha),
    run_unfailing p hdown t⟩
  simp [answered, (hq n).1, (hq n).2, hn n]

/-- What holds whatever goes wrong holds when nothing does. -/
theorem swp_peaceful {Q : Except Err α → Solo SqlErr Db → Prop} {p : Call α} {t : Solo SqlErr Db}
    (h : p.swp machine Duty.none Q t) : p.swp (peaceful named) Duty.none Q t :=
  swp_unfailing ⟨calm 0 0, rfl⟩ h

theorem Solo.put_view {t : Solo SqlErr Db} (h : t.view = .ok v) : t.put v = t := by
  obtain ⟨s, w⟩ := t
  cases w with
  | none => exact congrArg _ (Except.ok.inj h).symm
  | some w => exact congrArg _ (congrArg _ (show w = .ok v from h).symm)

variable {C : Prop} {Q : α → Solo SqlErr Db → Prop} {t : Solo SqlErr Db}

/-- A query that may be refused. -/
theorem decides_queryE {text : String} {f : Db → Except SqlErr β} {k : β → Call α}
    (hv : t.view = .ok v) (herr : ∀ e, f v = .error e → ¬ C)
    (hok : ∀ b, f v = .ok b → (k b).Decides (peaceful named) C Q t) :
    ((exec text (.queryE f)).bind k).Decides (peaceful named) C Q t := by
  refine decides_sql hv (fun env e ha hx => ?_) fun env b v' ha hx => ?_
  · have hx' := sql_refused (f := fun db => (f db).map fun b => (b, db)) (allowed_peaceful ha).2.1 hx
    cases hf : f v with
    | error e' => exact herr e' hf
    | ok b => exact absurd (hf ▸ hx') (by simp [Except.map])
  · obtain ⟨hb, rfl⟩ := Stmt.queryE_ok hx
    rw [Solo.put_view hv]
    exact hok b hb

/-- A query. -/
theorem decides_query {text : String} {f : Db → β} {k : β → Call α} (hv : t.view = .ok v)
    (h : (k (f v)).Decides (peaceful named) C Q t) :
    ((exec text (.query f)).bind k).Decides (peaceful named) C Q t :=
  decides_queryE (f := fun db => .ok (f db)) hv (fun e he => absurd he (by simp))
    fun b hb => Except.ok.inj hb ▸ h

/-- A query whose error the call looks at, if it cannot go wrong by itself. -/
theorem decides_reply {f : Db → β} {k : Except SqlErr β → Call α} (hv : t.view = .ok v)
    (h : (k (.ok (f v))).Decides (peaceful named) C Q t) :
    ((reply (.query f)).bind k).Decides (peaceful named) C Q t := by
  refine decides_ask hv (fun env e ha hx => ?_) fun env b v' _ hx => ?_
  · exact absurd (sql_refused (f := fun db => .ok (f db, db)) (allowed_peaceful ha).2.1 hx) (by simp)
  · obtain ⟨rfl, rfl⟩ := Stmt.query_ok hx
    rw [Solo.put_view hv]
    exact h

/-- A new identifier. -/
theorem decides_uuid {text : String} {k : Guid → Call α} (hv : t.view = .ok v)
    (h : ∀ g, v.unused g = true → named g = false → (k g).Decides (peaceful named) C Q t) :
    ((exec text uuidNew).bind k).Decides (peaceful named) C Q t := by
  refine decides_sql hv (fun env e ha hx => absurd hx (by simp [uuidNew, Stmt.mk', machine,
    Machine.unfailing, Machine.assuming])) fun env g v' ha hx => ?_
  obtain ⟨rfl, rfl⟩ := uuidNew_ok hx
  rw [Solo.put_view hv]
  exact h _ (allowed_peaceful ha).1 (allowed_peaceful ha).2.2.2

/-- The clock. -/
theorem decides_now {text : String} {k : Time → Call α} (hv : t.view = .ok v)
    (h : ∀ now, (k now).Decides (peaceful named) C Q t) :
    ((exec text timeNow).bind k).Decides (peaceful named) C Q t := by
  refine decides_sql hv (fun env e ha hx => absurd hx (by simp [timeNow, Stmt.askEnv, Stmt.mk',
    machine, Machine.unfailing, Machine.assuming])) fun env now v' ha hx => ?_
  obtain ⟨-, rfl⟩ := Stmt.askEnv_ok hx
  rw [Solo.put_view hv]
  exact h _

end Peaceful

/-! ## What a request has to satisfy -/

/-- The account of the book named so takes entries. -/
def Db.Takes (db : Db) (book : Guid) (account : GuidText) : Prop :=
  ∃ g, account.parse = .ok g ∧ db.Open book g

/-- The book's account `Imbalance`. -/
def Db.imbalance (db : Db) (book : Guid) : Option Account :=
  db.accounts.find? fun a => a.bookGuid == book && a.name == "Imbalance"

/-- The root account of the book. -/
def Db.rootOf (db : Db) (book : Guid) : Option Guid :=
  (db.books.find? fun b => b.guid == book).bind (·.rootAccountGuid)

/-- There is an account for a balancing split, or one can be made under the root. -/
def Db.HasImbalance (db : Db) (book : Guid) : Prop :=
  db.imbalance book = none → ∃ root, db.rootOf book = some root ∧ db.hasAccount root = true

/-- A balancing split finds an account that takes entries. -/
structure Db.CanBalance (db : Db) (book : Guid) : Prop where
  exists' : db.HasImbalance book
  opened : ∀ a, db.imbalance book = some a → a.placeholder = false

/-- **The request is accepted**: its splits with a value have denominators, are two or more or are
balanced on `Imbalance`, and are on accounts of the book that take entries; its texts fit the
columns, and its plaid transaction is not posted yet. -/
structure Db.Accepts (db : Db) (book : Guid) (req : CreateTransactionRequest) : Prop where
  denoms : DenomsOk req.splits
  sum : ∃ sum, gateSum (amounts req.splits) = some sum ∧
    (sum.isZero = true → 2 ≤ (amounts req.splits).length) ∧
    (sum.isZero = false → db.CanBalance book)
  accounts : ∀ sp ∈ req.splits, sp.valueNum ≠ 0 → db.Takes book sp.accountGuid
  states : ∀ sp ∈ req.splits, sp.valueNum ≠ 0 → sp.newState.length ≤ 1
  customId : req.customId.length ≤ 50
  plaid : db.plaidTxnTaken book req.plaidTxnId = false
  inBook : db.hasBook book = true

theorem validSplits_of {splits : List CreateSplitRequest} (h : DenomsOk splits) :
    validSplits splits = .ok (splits.filter (·.valueNum != 0)) := by
  cases hv : validSplits splits with
  | ok valid => rw [(validSplits_filter hv).2]
  | error e =>
    exfalso
    induction splits generalizing e with
    | nil => exact absurd hv (by simp [validSplits])
    | cons sp rest ih =>
      have hrest : DenomsOk rest := fun x hx => h x (.tail _ hx)
      unfold validSplits at hv
      by_cases h0 : sp.valueNum = 0
      · rw [if_pos h0] at hv
        exact ih hrest e hv
      · rw [if_neg h0, if_neg (by simpa using h sp List.mem_cons_self h0)] at hv
        cases hr : validSplits rest with
        | error e' => exact ih hrest e' hr
        | ok vs => exact absurd (hr ▸ hv) (by simp [Except.map])

/-! ## The parts -/

section Parts

variable {named : Guid → Bool} {book : Guid} {s v : Db} {sum : Numeric}

/-- The account of a balancing split, with the account that comes along. -/
inductive ImbalanceAt (named : Guid → Bool) (s : Db) (book : Guid) : List Account → Guid → Prop
  | found {a : Account} (h : s.imbalance book = some a) : ImbalanceAt named s book [] a.guid
  | made {a : Account} (h : s.imbalance book = none) (hb : a.bookGuid = book)
      (hp : a.placeholder = false) (hnew : s.unused a.guid = true) (hn : named a.guid = false) :
      ImbalanceAt named s book [a] a.guid

theorem Db.not_has_of_unused {g : Guid} (h : v.unused g = true) :
    v.hasAccount g = false ∧ v.hasTransaction g = false ∧ v.splits.any (·.guid == g) = false := by
  simp only [Db.unused, Bool.and_eq_true, List.all_eq_true, bne_iff_ne] at h
  obtain ⟨⟨⟨⟨⟨⟨⟨-, -⟩, ha⟩, ht⟩, hs⟩, -⟩, -⟩, -⟩ := h
  refine ⟨?_, ?_, ?_⟩
  · exact List.any_eq_false.mpr fun a hm => by simpa using ha a hm
  · exact List.any_eq_false.mpr fun a hm => by simpa using ht a hm
  · exact List.any_eq_false.mpr fun a hm => by simpa using hs a hm

theorem Db.insertAccount_of {a : Account} (hl : a.name.length ≤ 255 ∧ a.accountType.length ≤ 32)
    (hnew : v.hasAccount a.guid = false) (hb : v.hasBook a.bookGuid = true)
    (hp : v.refOk a.parentGuid = true) (hlink : a.plaid = none) :
    v.insertAccount a = .ok (v.append [a] [] []) := by
  have ha : ({ a with plaid := none } : Account) = a := by
    rw [← hlink]
  simp [Db.insertAccount, require, hl, hnew, hb, hp, ha, Db.append, Bind.bind, Except.bind, pure,
    Except.pure]

theorem Db.insertTransaction_of {t : Transaction} (hl : t.customId.length ≤ 50)
    (hnew : v.hasTransaction t.guid = false)
    (hplaid : v.plaidTxnTaken t.bookGuid t.plaidTxnId = false) (hb : v.hasBook t.bookGuid = true) :
    v.insertTransaction t = .ok (v.append [] [t] []) := by
  simp [Db.insertTransaction, require, hl, hnew, hplaid, hb, Db.append, Bind.bind, Except.bind, pure,
    Except.pure]

theorem Db.insertSplit_of {sp : Split} (hl : sp.reconcileState.length ≤ 1)
    (hnew : v.splits.any (·.guid == sp.guid) = false) (ht : v.hasTransaction sp.txGuid = true)
    (ha : v.hasAccount sp.accountGuid = true) :
    v.insertSplit sp = .ok (v.append [] [] [sp]) := by
  simp [Db.insertSplit, require, hl, hnew, ht, ha, Db.append, Bind.bind, Except.bind, pure, Except.pure]

/-- A write to the ledger: it is refused, or done. -/
theorem decides_write {α β : Type} {q : Stmt β} {f : Db → Except SqlErr (β × Db)} {text : String}
    {k : β → Call α} {C : Prop} {Q : α → Solo SqlErr Db → Prop} {t : Solo SqlErr Db}
    (hq : q.sem = (Stmt.sql f).sem) (hv : t.view = .ok v) (herr : ∀ e, f v = .error e → ¬ C)
    (hok : ∀ b v', f v = .ok (b, v') → (k b).Decides (peaceful named) C Q (t.put v')) :
    ((exec text q).bind k).Decides (peaceful named) C Q t := by
  refine decides_sql hv (fun env e ha hx => ?_) fun env b v' _ hx => ?_
  · have hx' : q.sem env v = .error e := hx
    exact herr e (sql_refused (allowed_peaceful ha).2.1 (hq ▸ hx'))
  · have hx' : q.sem env v = .ok (b, v') := hx
    exact hok b v' (Stmt.sql_ok (hq ▸ hx'))

theorem decides_insertAccount {α : Type} {a : Account} {text : String} {k : Unit → Call α}
    {C : Prop} {Q : α → Solo SqlErr Db → Prop} {t : Solo SqlErr Db} (hv : t.view = .ok v)
    (hl : a.name.length ≤ 255 ∧ a.accountType.length ≤ 32) (hnew : v.hasAccount a.guid = false)
    (hb : v.hasBook a.bookGuid = true) (hlink : a.plaid = none)
    (hC : C → v.refOk a.parentGuid = true)
    (hok : v.refOk a.parentGuid = true →
      (k ()).Decides (peaceful named) C Q (t.put (v.append [a] [] []))) :
    ((exec text (insertAccountStmt a)).bind k).Decides (peaceful named) C Q t := by
  refine decides_write rfl hv (fun e he hc => ?_) fun _ v' hx => ?_
  · rw [Db.insertAccount_of hl hnew hb (hC hc) hlink] at he
    exact absurd he (by simp [Except.map])
  · obtain ⟨v'', hins, he⟩ := ok_map hx
    obtain ⟨-, rfl⟩ := Prod.mk.inj he
    have href := (Db.insertAccount_ok hins).1.2.2
    rw [Db.insertAccount_of hl hnew hb href hlink] at hins
    exact Except.ok.inj hins ▸ hok href

theorem rootOf_hasBook {root : Guid} (h : s.rootOf book = some root) : s.hasBook book = true := by
  obtain ⟨b, hb, -⟩ := Option.bind_eq_some_iff.mp h
  exact List.any_eq_true.mpr ⟨b, List.mem_of_find?_eq_some hb,
    List.find?_some (p := fun b : Book => b.guid == book) hb⟩

/-- `Imbalance` is found, or made under the root. -/
theorem imbalanceAccount_decides :
    (imbalanceAccount book).Decides (peaceful named) (s.HasImbalance book)
      (fun g t => ∃ as, t = .tx s (s.append as [] []) ∧ ImbalanceAt named s book as g) (.tx s s) := by
  refine decides_reply (Solo.view_tx s s) ?_
  have hfind : ((s.accounts.find? fun a => a.bookGuid == book && a.name == "Imbalance").map
      (·.guid)) = (s.imbalance book).map (·.guid) := rfl
  rw [hfind]
  cases hi : s.imbalance book with
  | some a =>
    refine decides_ret (fun hn => absurd (hi.symm.trans hn) (by simp)) ⟨[], ?_, .found hi⟩
    rw [Db.append_nil]
  | none =>
    refine decides_query (Solo.view_tx s s) ?_
    cases hb : s.books.find? fun b => b.guid == book with
    | none =>
      refine decides_fail fun h => ?_
      obtain ⟨root, hroot, -⟩ := h hi
      exact absurd hroot (by simp [Db.rootOf, hb])
    | some b =>
      cases hr : b.rootAccountGuid with
      | none =>
        simp only [Option.map_some, hr]
        refine decides_fail fun h => ?_
        obtain ⟨root, hroot, -⟩ := h hi
        exact absurd hroot (by simp [Db.rootOf, hb, hr])
      | some root =>
        simp only [Option.map_some, hr]
        have hroot : s.rootOf book = some root := by simp [Db.rootOf, hb, hr]
        refine decides_uuid (Solo.view_tx s s) fun g hg hn => ?_
        refine decides_now (Solo.view_tx s s) fun now => ?_
        have hfits : "Imbalance".length ≤ 255 ∧ "EQUITY".length ≤ 32 := by decide
        refine decides_insertAccount (Solo.view_tx s s) hfits (Db.not_has_of_unused hg).1
          (rootOf_hasBook hroot) rfl (fun hC => ?_) fun href => ?_
        · obtain ⟨root', hroot', hhas⟩ := hC hi
          obtain rfl := Option.some.inj (hroot.symm.trans hroot')
          simpa [Db.refOk] using hhas
        · refine decides_ret (fun _ => ⟨root, hroot, by simpa [Db.refOk] using href⟩)
            ⟨_, rfl, .made hi rfl rfl hg hn⟩

/-- The splits to insert, for valid ones whose sum is `sum`, and the account that comes along. -/
inductive Chooses (named : Guid → Bool) (s : Db) (book : Guid) (valid : List CreateSplitRequest)
    (sum : Numeric) : List Account → List CreateSplitRequest → Prop
  | balanced (h : sum.isZero = true) : Chooses named s book valid sum [] valid
  | made {as : List Account} {g : Guid} (h : sum.isZero = false)
      (hg : ImbalanceAt named s book as g) :
      Chooses named s book valid sum as (valid ++ [balancingSplit g sum])

theorem balancedSplits_decides {valid : List CreateSplitRequest} :
    (balancedSplits book valid sum).Decides (peaceful named)
      (sum.isZero = false → s.HasImbalance book)
      (fun splits t => ∃ as, t = .tx s (s.append as [] []) ∧
        Chooses named s book valid sum as splits) (.tx s s) := by
  unfold balancedSplits
  cases hz : sum.isZero with
  | true =>
    refine decides_ret (fun h => absurd h (by simp)) ⟨[], ?_, .balanced hz⟩
    rw [Db.append_nil]
  | false =>
    refine decides_bind imbalanceAccount_decides (fun h => h rfl) fun g t hC hg => ?_
    obtain ⟨as, rfl, hat⟩ := hg
    exact decides_ret (fun _ => hC) ⟨as, rfl, .made hz hat⟩

/-- The key finds an account that takes entries. -/
theorem Db.open_iff {g : Guid} (hn : (v.accounts.map (·.guid)).Nodup) :
    v.Open book g ↔ ∃ a, (v.accounts.find? fun a => a.guid == g && a.bookGuid == book) = some a ∧
      a.placeholder = false := by
  constructor
  · rintro ⟨a, ha, rfl, hb, hp⟩
    cases hf : v.accounts.find? fun x => x.guid == a.guid && x.bookGuid == book with
    | none => exact absurd (List.find?_eq_none.mp hf a ha) (by simp [hb])
    | some x =>
      have hx := List.find?_some hf
      simp only [Bool.and_eq_true, beq_iff_eq] at hx
      obtain rfl := List.inj_on_of_nodup_map hn (List.mem_of_find?_eq_some hf) ha hx.1
      exact ⟨x, rfl, hp⟩
  · rintro ⟨a, hf, hp⟩
    have hx := List.find?_some hf
    simp only [Bool.and_eq_true, beq_iff_eq] at hx
    exact ⟨a, List.mem_of_find?_eq_some hf, hx.1, hx.2, hp⟩

/-- Every split is on an account that takes entries, or the check refuses one. -/
theorem checkAccounts_decides (hn : (v.accounts.map (·.guid)).Nodup)
    (splits : List CreateSplitRequest) :
    (checkAccounts book splits).Decides (peaceful named)
      (∀ sp ∈ splits, v.Takes book sp.accountGuid) (fun _ t => t = .tx s v) (.tx s v) := by
  induction splits with
  | nil => exact decides_ret (fun _ h => absurd h (by simp)) rfl
  | cons sp rest ih =>
    refine decides_ask (Solo.view_tx s v) (fun env e ha hx => ?_) fun env b v' _ hx => ?_
    · refine decides_fail fun h => ?_
      obtain ⟨g, hg, -⟩ := h sp List.mem_cons_self
      have hx' := sql_refused (allowed_peaceful ha).2.1
        (show (selectPlaceholder sp.accountGuid book).sem env v = .error e from hx)
      exact absurd hx' (by simp [hg, Except.map, Bind.bind, Except.bind, pure, Except.pure])
    · obtain ⟨hx, rfl⟩ := Stmt.queryE_ok
        (show (selectPlaceholder sp.accountGuid book).sem env v = .ok (b, v') from hx)
      obtain ⟨g, hg, hx⟩ := ok_bind hx
      obtain rfl := Except.ok.inj hx
      have htakes : v'.Takes book sp.accountGuid ↔ v'.Open book g := by
        refine ⟨fun ⟨g', hg', ho⟩ => ?_, fun ho => ⟨g, hg, ho⟩⟩
        obtain rfl := Except.ok.inj (hg.symm.trans hg')
        exact ho
      rw [Db.open_iff hn] at htakes
      cases hf : v'.accounts.find? fun a => a.guid == g && a.bookGuid == book with
      | none =>
        refine decides_fail fun h => ?_
        obtain ⟨a, ha, -⟩ := htakes.mp (h sp List.mem_cons_self)
        exact absurd (hf.symm.trans ha) (by simp)
      | some a =>
        cases hp : a.placeholder with
        | true =>
          simp only [Option.map_some, hp]
          refine decides_fail fun h => ?_
          obtain ⟨a', ha', hp'⟩ := htakes.mp (h sp List.mem_cons_self)
          obtain rfl := Option.some.inj (hf.symm.trans ha')
          exact absurd (hp.symm.trans hp') (by simp)
        | false =>
          simp only [Option.map_some, hp]
          refine Decides.mono ih ?_ fun _ _ _ h => h
          simp [htakes.mpr ⟨a, hf, hp⟩]

/-- The insertion of a split under a new identifier, into a transaction that is there. -/
theorem insertSplitStmt_peaceful {account : GuidText} {g : Guid} {sp : Split} {env : Env}
    (hf : env.fail = false) (hg : account.parse = .ok g)
    (hnew : v.splits.any (·.guid == sp.guid) = false) (ht : v.hasTransaction sp.txGuid = true)
    (ha : v.hasAccount g = true) :
    (insertSplitStmt account sp).sem env v =
      if sp.reconcileState.length ≤ 1 then
        .ok ((), v.append [] [] [{ sp with accountGuid := g }])
      else .error .tooLong := by
  have hsem : (insertSplitStmt account sp).sem env v =
      (v.insertSplit { sp with accountGuid := g }).map fun v' => ((), v') := by
    simp only [insertSplitStmt, Stmt.locking, Stmt.sql, Stmt.mk', hf, hg, Bind.bind, Except.bind]
    cases v.insertSplit { sp with accountGuid := g } <;> rfl
  rw [hsem]
  by_cases hl : sp.reconcileState.length ≤ 1
  · have hins := @Db.insertSplit_of v { sp with accountGuid := g } hl hnew ht ha
    rw [if_pos hl, hins]
    rfl
  · rw [if_neg hl]
    simp [Db.insertSplit, require, hl, Bind.bind, Except.bind, Except.map]

theorem insertSplits_decides {tx : Guid} {now : Time} {state : CreateSplitRequest → String}
    (i : Nat) (splits : List CreateSplitRequest) (ht : v.hasTransaction tx = true)
    (hon : ∀ sp ∈ splits, ∃ g, sp.accountGuid.parse = .ok g ∧ v.hasAccount g = true) :
    (insertSplits tx now state i splits).Decides (peaceful named)
      (∀ sp ∈ splits, (state sp).length ≤ 1)
      (fun _ t => ∃ v', t = .tx s v' ∧ v'.accounts = v.accounts) (.tx s v) := by
  induction splits generalizing i v with
  | nil => exact decides_ret (fun _ h => absurd h (by simp)) ⟨v, rfl, rfl⟩
  | cons sp rest ih =>
    refine decides_uuid (Solo.view_tx s v) fun guid hguid _ => ?_
    obtain ⟨g, hg, hhas⟩ := hon sp List.mem_cons_self
    have hsem : ∀ env, env.fail = false →
        (insertSplitStmt sp.accountGuid (sp.row guid tx (state sp) now)).sem env v =
          if (state sp).length ≤ 1 then
            .ok ((), v.append [] [] [{ sp.row guid tx (state sp) now with accountGuid := g }])
          else .error .tooLong := fun env hf =>
      insertSplitStmt_peaceful hf hg (Db.not_has_of_unused hguid).2.2 ht hhas
    refine decides_ask (Solo.view_tx s v) (fun env e ha hx => ?_) fun env b v' ha hx => ?_
    · refine decides_fail fun h => ?_
      have hx' := (hsem env (allowed_peaceful ha).2.1).symm.trans hx
      rw [if_pos (h sp List.mem_cons_self)] at hx'
      exact absurd hx' (by simp)
    · have hx' := (hsem env (allowed_peaceful ha).2.1).symm.trans hx
      by_cases hl : (state sp).length ≤ 1
      · rw [if_pos hl] at hx'
        obtain ⟨-, rfl⟩ := Prod.mk.inj (Except.ok.inj hx')
        refine decides_bind (ih (i + 1) ?_ fun sp' hsp' => ?_) (fun h => ?_) fun rows t hrest hv => ?_
        · simpa [Db.append, Db.hasTransaction] using ht
        · simpa [Db.append, Db.hasAccount] using hon sp' (.tail _ hsp')
        · exact fun sp' hsp' => h sp' (.tail _ hsp')
        · refine decides_ret (fun sp' hsp' => ?_) (by simpa [Db.append] using hv)
          rcases List.mem_cons.mp hsp' with rfl | hsp'
          · exact hl
          · exact hrest sp' hsp'
      · rw [if_neg hl] at hx'
        exact absurd hx' (by simp)

theorem decides_insertTransaction {α : Type} {x : Transaction} {text : String} {k : Unit → Call α}
    {C : Prop} {Q : α → Solo SqlErr Db → Prop} {t : Solo SqlErr Db} (hv : t.view = .ok v)
    (hnew : v.hasTransaction x.guid = false)
    (hC : C → x.customId.length ≤ 50 ∧ v.plaidTxnTaken x.bookGuid x.plaidTxnId = false ∧
      v.hasBook x.bookGuid = true)
    (hok : x.customId.length ≤ 50 → v.plaidTxnTaken x.bookGuid x.plaidTxnId = false →
      v.hasBook x.bookGuid = true →
      (k ()).Decides (peaceful named) C Q (t.put (v.append [] [x] []))) :
    ((exec text (insertTransactionStmt x)).bind k).Decides (peaceful named) C Q t := by
  refine decides_write rfl hv (fun e he hc => ?_) fun _ v' hx => ?_
  · obtain ⟨hl, hplaid, hb⟩ := hC hc
    rw [Db.insertTransaction_of hl hnew hplaid hb] at he
    exact absurd he (by simp [Except.map])
  · obtain ⟨v'', hins, he⟩ := ok_map hx
    obtain ⟨-, rfl⟩ := Prod.mk.inj he
    have hl : x.customId.length ≤ 50 := by simpa using (require_bind hins).1
    obtain ⟨-, hplaid, hb⟩ := (Db.insertTransaction_ok hins).1
    rw [Db.insertTransaction_of hl hnew hplaid hb] at hins
    exact Except.ok.inj hins ▸ hok hl hplaid hb

/-! ## `CreateTransaction` -/

/-- What was open stays open when accounts come along. -/
theorem Db.Takes.append {account : GuidText} (h : v.Takes book account) (as : List Account) :
    (v.append as [] []).Takes book account := by
  obtain ⟨g, hg, a, ha, ho⟩ := h
  exact ⟨g, hg, a, List.mem_append_left _ ha, ho⟩

/-- An account that comes along is a new one, takes entries, and is the first `Imbalance`. -/
theorem Chooses.made_new {valid splits : List CreateSplitRequest} {as : List Account} {a : Account}
    (h : Chooses named s book valid sum as splits) (ha : a ∈ as) :
    s.unused a.guid = true ∧ named a.guid = false ∧ a.placeholder = false ∧
      s.imbalance book = none := by
  cases h with
  | balanced _ => exact absurd ha (by simp)
  | made _ hat =>
    cases hat with
    | found _ => exact absurd ha (by simp)
    | made hi _ hp hnew hn =>
      obtain rfl := List.mem_singleton.mp ha
      exact ⟨hnew, hn, hp, hi⟩

theorem Chooses.nodup {valid splits : List CreateSplitRequest} {as : List Account}
    (h : Chooses named s book valid sum as splits) (hn : (s.accounts.map (·.guid)).Nodup) :
    ((s.append as [] []).accounts.map (·.guid)).Nodup := by
  cases h with
  | balanced _ => simpa [Db.append] using hn
  | made _ hat =>
    cases hat with
    | found _ => simpa [Db.append] using hn
    | made _ _ _ hnew _ => exact nodup_append_key hn (Db.not_has_of_unused hnew).1

/-- A balancing split is not reconciled. -/
theorem Chooses.states_iff {valid splits : List CreateSplitRequest} {as : List Account}
    (h : Chooses named s book valid sum as splits) :
    (∀ sp ∈ splits, sp.newState.length ≤ 1) ↔ ∀ sp ∈ valid, sp.newState.length ≤ 1 := by
  cases h with
  | balanced _ => exact Iff.rfl
  | @made _ g _ _ =>
    have hlast : (balancingSplit g sum).newState.length ≤ 1 := by
      have hn : (balancingSplit g sum).newState = "n" := if_pos rfl
      rw [hn]
      decide
    simp [or_imp, forall_and, hlast]

/-- The splits are on accounts that take entries, if the valid ones are and the balancing one finds
one. -/
theorem Chooses.takes_iff {valid splits : List CreateSplitRequest} {as : List Account}
    (h : Chooses named s book valid sum as splits) (hk : s.Keyed)
    (hnamed : ∀ sp ∈ valid, ∀ g, sp.accountGuid.parse = .ok g →
      named g = true ∨ s.hasAccount g = true) :
    (∀ sp ∈ splits, (s.append as [] []).Takes book sp.accountGuid) ↔
      (∀ sp ∈ valid, s.Takes book sp.accountGuid) ∧
        (sum.isZero = false → ∀ a, s.imbalance book = some a → a.placeholder = false) := by
  have hvalid : ∀ sp ∈ valid, (s.append as [] []).Takes book sp.accountGuid →
      s.Takes book sp.accountGuid := by
    rintro sp hsp ⟨g, hg, a, ha, rfl, hb, hp⟩
    rcases List.mem_append.mp ha with ha | ha
    · exact ⟨a.guid, hg, a, ha, rfl, hb, hp⟩
    · obtain ⟨hnew, hn, -⟩ := h.made_new ha
      rcases hnamed sp hsp a.guid hg with hy | hhas
      · exact absurd (hy.symm.trans hn) (by simp)
      · exact absurd (hhas.symm.trans (Db.not_has_of_unused hnew).1) (by simp)
  cases h with
  | balanced hz =>
    refine ⟨fun ht => ⟨fun sp hsp => hvalid sp hsp (ht sp hsp), fun hf => ?_⟩,
      fun ht sp hsp => (ht.1 sp hsp).append _⟩
    exact absurd (hz.symm.trans hf) (by simp)
  | @made _ g hz hat =>
    have hlast : (s.append as [] []).Takes book g.text ↔
        ∀ a, s.imbalance book = some a → a.placeholder = false := by
      cases hat with
      | @found a hi =>
        have ha := List.find?_some hi
        simp only [Bool.and_eq_true, beq_iff_eq] at ha
        have hmem := List.mem_of_find?_eq_some hi
        constructor
        · rintro ⟨g, hg, x, hx, rfl, -, hp⟩ a' ha'
          obtain rfl := Option.some.inj (hi.symm.trans ha')
          rw [Db.append_nil] at hx
          obtain rfl := List.inj_on_of_nodup_map hk.accounts hx hmem (Except.ok.inj hg).symm
          exact hp
        · intro hp
          rw [Db.append_nil]
          exact ⟨a.guid, rfl, a, hmem, rfl, ha.1, hp a hi⟩
      | @made a hi hb hp _ _ =>
        refine ⟨fun _ a' ha' => absurd (hi.symm.trans ha') (by simp), fun _ => ?_⟩
        exact ⟨a.guid, rfl, a, List.mem_append_right _ (List.mem_singleton_self a), rfl, hb, hp⟩
    constructor
    · intro ht
      refine ⟨fun sp hsp => hvalid sp hsp (ht sp (List.mem_append_left _ hsp)), fun _ => ?_⟩
      exact hlast.mp (ht _ (List.mem_append_right _ (List.mem_singleton_self _)))
    · rintro ⟨ht, hi⟩ sp hsp
      rcases List.mem_append.mp hsp with hsp | hsp
      · exact (ht sp hsp).append _
      · obtain rfl := List.mem_singleton.mp hsp
        exact hlast.mpr (hi hz)

/-- What an accepted request leaves, besides its splits: the texts are those of the request, and a
new account takes entries and is the first `Imbalance` of the book. -/
structure Recorded (s : Db) (book : Guid) (req : CreateTransactionRequest) (t : Transaction)
    (v : Db) : Prop where
  description : t.description = req.description
  customId : t.customId = req.customId
  accounts : ∀ a ∈ v.accounts, a ∈ s.accounts ∨ (a.placeholder = false ∧ s.imbalance book = none)

/-- **`CreateTransaction` accepts what `Db.Accepts` says**, as long as nothing goes wrong and no
generated identifier is one the request names. -/
theorem createTransaction_decides {req : CreateTransactionRequest} (hk : s.Keyed)
    (hnamed : ∀ sp ∈ req.splits, ∀ g, sp.accountGuid.parse = .ok g →
      named g = true ∨ s.hasAccount g = true) :
    (createTransaction book req).Decides (peaceful named) (s.Accepts book req)
      (fun a t => Recorded s book req a.1 t.db) (.idle s) := by
  unfold createTransaction
  cases hvalid : validSplits req.splits with
  | error e =>
    exact decides_fail fun h => absurd (hvalid.symm.trans (validSplits_of h.denoms)) (by simp)
  | ok valid =>
    obtain ⟨hdenoms, hfilter⟩ := validSplits_filter hvalid
    have hmem : ∀ sp, sp ∈ valid ↔ sp ∈ req.splits ∧ sp.valueNum ≠ 0 := by
      intro sp
      simp [hfilter]
    have hsplitSum : splitSum valid = gateSum (amounts req.splits) := by
      rw [hfilter]
      rfl
    have hlength : valid.length = (amounts req.splits).length := by
      rw [hfilter, amounts, List.length_map]
    dsimp only [Prog.ofExcept, bind_eq, ret_bind]
    cases hsum : splitSum valid with
    | none =>
      refine decides_fail fun h => ?_
      obtain ⟨sum, hs, -⟩ := h.sum
      exact absurd (hsum.symm.trans (hsplitSum.trans hs)) (by simp)
    | some sum =>
      have hgate := hsplitSum.symm.trans hsum
      have hsame : ∀ sum', gateSum (amounts req.splits) = some sum' → sum' = sum := fun sum' h =>
        Option.some.inj (h.symm.trans hgate)
      refine decides_inTx peaceful_down ?_
      refine decides_bind balancedSplits_decides (fun h hz => ?_) fun splits t hmake hc => ?_
      · obtain ⟨sum', hs, -, hb⟩ := h.sum
        exact (hb (hsame sum' hs ▸ hz)).exists'
      obtain ⟨as, rfl, hc⟩ := hc
      have htakes := hc.takes_iff hk fun sp hsp => hnamed sp ((hmem sp).mp hsp).1
      have htwo : splits.length < 2 ↔ sum.isZero = true ∧ valid.length < 2 := by
        cases hc with
        | balanced hz => simp [hz]
        | made hz hat =>
          have hne : valid ≠ [] := by
            rintro rfl
            have h0 : splitSum [] = gateSum [] := rfl
            rw [h0, gateSum_nil] at hsum
            obtain rfl := Option.some.inj hsum
            exact absurd hz (by decide)
          have hpos := List.length_pos_iff.mpr hne
          refine ⟨fun h => absurd h ?_, fun h => absurd (h.1.symm.trans hz) (by simp)⟩
          rw [List.length_append, List.length_singleton]
          omega
      split
      · rename_i hfew
        refine decides_fail fun h => ?_
        obtain ⟨sum', hs, htwo', -⟩ := h.sum
        obtain ⟨hz, hlt⟩ := htwo.mp hfew
        have := htwo' (hsame sum' hs ▸ hz)
        omega
      · rename_i hmany
        refine decides_bind (checkAccounts_decides (hc.nodup hk.accounts) splits) (fun h => ?_)
          fun _ t hopen ht => ?_
        · obtain ⟨sum', hs, -, hb⟩ := h.sum
          refine htakes.mpr ⟨fun sp hsp => ?_, fun hz => (hb (hsame sum' hs ▸ hz)).opened⟩
          exact h.accounts sp ((hmem sp).mp hsp).1 ((hmem sp).mp hsp).2
        obtain rfl := ht
        obtain ⟨hvopen, hiopen⟩ := htakes.mp hopen
        have htaken : (s.append as [] []).plaidTxnTaken book req.plaidTxnId =
            s.plaidTxnTaken book req.plaidTxnId := by
          simp [Db.append, Db.plaidTxnTaken]
        refine decides_uuid (Solo.view_tx s _) fun guid hguid _ => ?_
        refine decides_now (Solo.view_tx s _) fun now => ?_
        refine decides_insertTransaction (Solo.view_tx s _) (Db.not_has_of_unused hguid).2.1
          (fun h => ⟨h.customId, htaken.trans h.plaid, h.inBook⟩) fun hfits hplaid hbook => ?_
        refine decides_bind (insertSplits_decides 0 splits ?_ fun sp hsp => ?_) (fun h sp hsp => ?_)
          fun rows t hstates ht => ?_
        · simp [Db.append, Db.hasTransaction]
        · obtain ⟨g, hg, a, ha, rfl, -⟩ := hopen sp hsp
          exact ⟨a.guid, hg, List.any_eq_true.mpr ⟨a, by simpa [Db.append] using ha, by simp⟩⟩
        · refine hc.states_iff.mpr (fun sp hsp => ?_) sp hsp
          exact h.states sp ((hmem sp).mp hsp).1 ((hmem sp).mp hsp).2
        obtain ⟨v', rfl, haccounts⟩ := ht
        have hnew : ∀ a ∈ v'.accounts,
            a ∈ s.accounts ∨ (a.placeholder = false ∧ s.imbalance book = none) := by
          intro a ha
          rw [haccounts, Db.append, List.append_nil] at ha
          rcases List.mem_append.mp ha with ha | ha
          · exact .inl ha
          · exact .inr (hc.made_new ha).2.2
        refine decides_commit peaceful_down (decides_ret ?_ ⟨rfl, rfl, hnew⟩)
        refine ⟨hdenoms, ⟨sum, hgate, fun hz => ?_, fun hz => ⟨hmake hz, hiopen hz⟩⟩, ?_, ?_, hfits,
          htaken.symm.trans hplaid, hbook⟩
        · by_contra hlt
          exact hmany (htwo.mpr ⟨hz, by omega⟩)
        · exact fun sp hsp h0 => hvopen sp ((hmem sp).mpr ⟨hsp, h0⟩)
        · exact fun sp hsp h0 => hc.states_iff.mp hstates sp ((hmem sp).mpr ⟨hsp, h0⟩)

/-! ## `UpdateTransaction` -/

/-- **The edit is accepted**: the transaction is one of the book's, two or more splits have a value,
with denominators, they sum to zero, and each is on an account of the book that takes entries. -/
structure Db.AcceptsEdit (db : Db) (book : Guid) (tx : GuidText) (req : UpdateTransactionRequest) :
    Prop where
  found : ∃ g, tx.parse = .ok g ∧ ∃ t ∈ db.transactions, t.guid = g ∧ t.bookGuid = book
  denoms : DenomsOk req.splits
  sum : ∃ sum, gateSum (amounts req.splits) = some sum ∧ sum.isZero = true
  two : 2 ≤ (amounts req.splits).length
  accounts : ∀ sp ∈ req.splits, sp.valueNum ≠ 0 → db.Takes book sp.accountGuid
  customId : req.customId.length ≤ 50

/-- **`UpdateTransaction` accepts what `Db.AcceptsEdit` says**, as long as nothing goes wrong. -/
theorem updateTransaction_decides {tx : GuidText} {req : UpdateTransactionRequest} (hk : s.Keyed) :
    (updateTransaction book tx req).Decides (peaceful named) (s.AcceptsEdit book tx req)
      (fun _ _ => True) (.idle s) := by
  refine decides_queryE (Solo.view_idle s) (fun e he h => ?_) fun r hr => ?_
  · obtain ⟨g, hg, -⟩ := h.found
    exact absurd he (by simp [hg, Bind.bind, Except.bind, pure, Except.pure])
  obtain ⟨guid, hguid, hr⟩ := ok_bind hr
  obtain rfl := Except.ok.inj hr
  cases hf : s.transactions.find? fun t => t.guid == guid && t.bookGuid == book with
  | none =>
    refine decides_fail fun h => ?_
    obtain ⟨g, hg, t, ht, rfl, hb⟩ := h.found
    obtain rfl := Except.ok.inj (hguid.symm.trans hg)
    exact absurd (List.find?_eq_none.mp hf t ht) (by simp [hb])
  | some t =>
    have ht := List.find?_some hf
    simp only [Bool.and_eq_true, beq_iff_eq] at ht
    obtain ⟨rfl, hb⟩ := ht
    have hmem := List.mem_of_find?_eq_some hf
    dsimp only [Option.map_some, bind_eq]
    cases hvalid : validSplits req.splits with
    | error e =>
      exact decides_fail fun h => absurd (hvalid.symm.trans (validSplits_of h.denoms)) (by simp)
    | ok valid =>
      obtain ⟨hdenoms, hfilter⟩ := validSplits_filter hvalid
      have hkept : ∀ sp, sp ∈ valid ↔ sp ∈ req.splits ∧ sp.valueNum ≠ 0 := by
        intro sp
        simp [hfilter]
      have hsplitSum : splitSum valid = gateSum (amounts req.splits) := by
        rw [hfilter]
        rfl
      have hlength : valid.length = (amounts req.splits).length := by
        rw [hfilter, amounts, List.length_map]
      dsimp only [Prog.ofExcept, ret_bind]
      cases hsum : splitSum valid with
      | none =>
        refine decides_fail fun h => ?_
        obtain ⟨sum, hs, -⟩ := h.sum
        exact absurd (hsum.symm.trans (hsplitSum.trans hs)) (by simp)
      | some sum =>
        have hgate := hsplitSum.symm.trans hsum
        dsimp only [orPanic, ret_bind]
        split
        · rename_i hz
          refine decides_fail fun h => ?_
          obtain ⟨sum', hs, hz'⟩ := h.sum
          obtain rfl := Option.some.inj (hs.symm.trans hgate)
          exact absurd hz (by simp [hz'])
        · rename_i hz
          split
          · rename_i hfew
            exact decides_fail fun h => absurd h.two (by omega)
          · rename_i hmany
            refine decides_inTx peaceful_down ?_
            refine decides_bind (checkAccounts_decides hk.accounts valid) (fun h sp hsp => ?_)
              fun _ t' hopen ht' => ?_
            · exact h.accounts sp ((hkept sp).mp hsp).1 ((hkept sp).mp hsp).2
            obtain rfl := ht'
            refine decides_now (Solo.view_tx s s) fun now => ?_
            refine decides_write rfl (Solo.view_tx s s) (fun e he h => ?_) fun _ v hv => ?_
            · simp [require, h.customId, Bind.bind, Except.bind, pure, Except.pure] at he
            obtain ⟨hfits, hv⟩ := require_bind hv
            obtain ⟨-, rfl⟩ := Prod.mk.inj (Except.ok.inj hv)
            refine decides_write rfl (Solo.view_tx s _) (fun e he => absurd he (by simp))
              fun _ v hv => ?_
            obtain ⟨-, rfl⟩ := Prod.mk.inj (Except.ok.inj hv)
            refine decides_bind (insertSplits_decides 0 valid ?_ fun sp hsp => ?_)
              (fun _ sp hsp => (by decide)) fun rows t' _ ht' => ?_
            · refine List.any_eq_true.mpr ⟨_, mem_updateWhere.mpr ⟨t, hmem, rfl⟩, ?_⟩
              split <;> exact beq_self_eq_true _
            · obtain ⟨g, hg, a, ha, rfl, -⟩ := hopen sp hsp
              exact ⟨a.guid, hg, List.any_eq_true.mpr ⟨a, ha, by simp⟩⟩
            obtain ⟨v', rfl, -⟩ := ht'
            refine decides_commit peaceful_down (decides_ret ?_ trivial)
            refine ⟨⟨_, hguid, t, hmem, rfl, hb⟩, hdenoms, ⟨sum, hgate, by simpa using hz⟩, by omega,
              fun sp hsp h0 => hopen sp ((hkept sp).mpr ⟨hsp, h0⟩), by simpa using hfits⟩

end Parts

/-! ## The server -/

section Served

variable {ok : Event → (Nat → Env) → Db → Prop} {db : Db} {cfg : PlaidConfig} {book : Guid}
  {envs : Nat → Env}

/-- The identifier is one that the request names. -/
def CreateTransactionRequest.names (req : CreateTransactionRequest) (g : Guid) : Bool :=
  req.splits.any fun sp => sp.accountGuid.parse == .ok g

/-- A call that decides `C`, answers as `R` says and leaves the database alone when it fails. -/
theorem serve_decides {α : Type} {named : Guid → Bool} {p : Call α} {f : α → Response} {C : Prop}
    {P R : α → Db → Prop} (h : p.Decides (peaceful named) C (fun a t => P a t.db) (.idle db))
    (hs : p.swp machine Duty.none (fun r t => (∀ e, r = .error e → t.db = db) ∧
      ∀ a, r = .ok a → R a t.db) (.idle db))
    (hq : Uneventful envs) (hn : ∀ n, named (envs n).guid = false)
    (ha : mayServe (p.bind fun a => ret (f a)) envs db = true) :
    (C → ∃ a v, serve (p.bind fun a => ret (f a)) envs db = (.ok (f a), v) ∧ P a v ∧ R a v) ∧
      (¬ C → ∃ e, serve (p.bind fun a => ret (f a)) envs db = (.error e, db)) := by
  obtain ⟨hserve, hallowed⟩ := @serve_map db envs _ p f
  have ha' := hallowed.symm.trans ha
  obtain ⟨hall, hrun⟩ := run_peaceful (p := p) hq hn ha'
  obtain ⟨hiff, hP⟩ := decides_run h hall
  obtain ⟨herr, hok⟩ := run_of_swp hs ha'
  rw [hrun] at hiff hP
  rw [hserve]
  cases hr : (p.run machine envs (.idle db)).1 with
  | error e =>
    rw [hr] at hiff
    refine ⟨fun hC => ?_, fun _ => ⟨e, by rw [herr e hr]; rfl⟩⟩
    obtain ⟨a, ha⟩ := hiff.mpr hC
    exact absurd ha (by simp)
  | ok a =>
    rw [hr] at hiff
    exact ⟨fun _ => ⟨a, _, rfl, hP a hr, hok a hr⟩, fun hC => absurd (hiff.mp ⟨a, rfl⟩) hC⟩

/-- **A new transaction is stored when it is accepted, and only then**: in every state the server
reaches, as long as nothing goes wrong and no generated identifier is one the request names. -/
theorem transaction_accepted {req : CreateTransactionRequest} (hr : Runs ok db)
    (hq : Uneventful envs)
    (hn : ∀ n, ∀ sp ∈ req.splits, sp.accountGuid.parse ≠ .ok (envs n).guid)
    (ha : mayServe (Event.request cfg book (.createTransaction req)).call envs db = true) :
    (db.Accepts book req.fromBody → ∃ as t rows,
      serve (Event.request cfg book (.createTransaction req)).call envs db =
        (.ok (.createdTransaction t rows), db.append as [t] rows) ∧
      Created book req.fromBody as t rows ∧ t.description = req.description ∧
      t.customId = req.customId) ∧
    (¬ db.Accepts book req.fromBody → ∃ e,
      serve (Event.request cfg book (.createTransaction req)).call envs db = (.error e, db)) := by
  have hnamed : ∀ n, req.fromBody.names (envs n).guid = false := by
    intro n
    refine List.any_eq_false.mpr fun sp hsp => ?_
    obtain ⟨sp', hsp', rfl⟩ := List.mem_map.mp hsp
    simpa using hn n sp' hsp'
  have hstored : (createTransaction book req.fromBody).swp machine Duty.none
      (fun r t => (∀ e, r = .error e → t.db = db) ∧
        ∀ a, r = .ok a → ∃ as, Created book req.fromBody as a.1 a.2 ∧
          t.db = db.append as [a.1] a.2) (.idle db) := by
    refine createTransaction_alone (fun e => ⟨fun _ _ => rfl, fun a ha => absurd ha (by simp)⟩)
      fun as t rows v hc hadds _ _ => ⟨fun e he => absurd he (by simp), fun a ha => ?_⟩
    obtain rfl := Except.ok.inj ha
    exact ⟨as, hc, hadds.eq⟩
  have hdecides := @createTransaction_decides req.fromBody.names book db req.fromBody hr.keyed
    fun sp hsp g hg => .inl (List.any_eq_true.mpr ⟨sp, hsp, by simp [hg]⟩)
  obtain ⟨hyes, hno⟩ := serve_decides (P := fun a v => Recorded db book req.fromBody a.1 v)
    (R := fun a v => ∃ as, Created book req.fromBody as a.1 a.2 ∧ v = db.append as [a.1] a.2)
    hdecides hstored hq hnamed ha
  refine ⟨fun hC => ?_, hno⟩
  obtain ⟨⟨t, rows⟩, v, hserve, hrecorded, as, hc, rfl⟩ := hyes hC
  exact ⟨as, t, rows, hserve, hc, hrecorded.description, hrecorded.customId⟩

/-- A purchase in one split, which `Imbalance` balances. -/
def groceries (account : Guid) : CreateTransactionRequest :=
  ⟨"", ⟨19000, 0⟩, "groceries", none, [⟨Guid.text account, "", 1000, 100, 1000, 100, ""⟩]⟩

theorem uneventful_calm (n : Nat) : Uneventful (calm n) := fun _ => ⟨rfl, rfl⟩

/-- It is accepted on `Alimentação`, and stored. -/
theorem transaction_accepted_groceries : registered.Accepts 3 (groceries 18).fromBody ∧
    ∃ as t rows,
      serve (Event.request plainConfig 3 (.createTransaction (groceries 18))).call (calm 100)
        registered = (.ok (.createdTransaction t rows), registered.append as [t] rows) ∧
      Created 3 (groceries 18).fromBody as t rows ∧ t.description = "groceries" ∧
      t.customId = "" := by
  have hnone : registered.imbalance 3 = none := by decide +kernel
  have haccepts : registered.Accepts 3 (groceries 18).fromBody := by
    refine ⟨?_, ⟨_, rfl, fun h => absurd h (by decide +kernel), fun _ => ⟨fun _ => ?_, ?_⟩⟩, ?_, ?_,
      by decide, rfl, by decide +kernel⟩
    · unfold DenomsOk
      decide +kernel
    · exact ⟨5, by decide +kernel, by decide +kernel⟩
    · exact fun a ha => absurd (hnone.symm.trans ha) (by simp)
    · intro sp hsp _
      obtain rfl := List.mem_singleton.mp hsp
      refine ⟨18, rfl, ?_⟩
      unfold Db.Open
      decide +kernel
    · intro sp hsp _
      obtain rfl := List.mem_singleton.mp hsp
      decide
  have hnew : ∀ n, ∀ sp ∈ (groceries 18).splits, sp.accountGuid.parse ≠ .ok (calm 100 n).guid := by
    intro n sp hsp he
    obtain rfl := List.mem_singleton.mp hsp
    have h18 : (18 : Nat) = 100 + n := Except.ok.inj he
    omega
  have hruns : Runs (fun _ _ _ => True) registered := registered_runs trivial
  refine ⟨haccepts, (transaction_accepted hruns (uneventful_calm 100) hnew
    (by decide +kernel)).1 haccepts⟩

/-- **An edit is done when it is accepted, and only then.** -/
theorem edit_accepted {id : GuidText} {req : UpdateTransactionRequest} (hr : Runs ok db)
    (hq : Uneventful envs)
    (ha : mayServe (Event.request cfg book (.updateTransaction id req)).call envs db = true) :
    (db.AcceptsEdit book id req → ∃ guid version rows v,
      serve (Event.request cfg book (.updateTransaction id req)).call envs db =
        (.ok (.updatedTransaction guid version rows), v) ∧
      Chosen req guid rows ∧ Updates book guid db.splits rows db v) ∧
    (¬ db.AcceptsEdit book id req → ∃ e,
      serve (Event.request cfg book (.updateTransaction id req)).call envs db = (.error e, db)) := by
  have hstored : (updateTransaction book id req).swp machine Duty.none
      (fun r t => (∀ e, r = .error e → t.db = db) ∧
        ∀ a, r = .ok a → Chosen req a.1 a.2.2 ∧ Updates book a.1 db.splits a.2.2 db t.db)
      (.idle db) := by
    refine updateTransaction_alone (fun e => ⟨fun _ _ => rfl, fun a ha => absurd ha (by simp)⟩)
      fun guid version rows v _ hc hu _ => ⟨fun e he => absurd he (by simp), fun a ha => ?_⟩
    obtain rfl := Except.ok.inj ha
    exact ⟨hc, hu⟩
  have hdecides := @updateTransaction_decides (fun _ => false) book db id req hr.keyed
  obtain ⟨hyes, hno⟩ := serve_decides (P := fun _ _ => True) (R := fun a v =>
    Chosen req a.1 a.2.2 ∧ Updates book a.1 db.splits a.2.2 db v) hdecides hstored hq
    (fun _ => rfl) ha
  refine ⟨fun hC => ?_, hno⟩
  obtain ⟨⟨guid, version, rows⟩, v, hserve, -, hc, hu⟩ := hyes hC
  exact ⟨guid, version, rows, v, hserve, hc, hu⟩

end Served

/-- The same splits, edited: the amount is doubled on both sides. -/
def doubled : UpdateTransactionRequest :=
  ⟨"", ⟨19000, 0⟩, "groceries", [⟨Guid.text 18, "", 2000, 100, 2000, 100, ""⟩,
    ⟨Guid.text 12, "", -2000, 100, -2000, 100, ""⟩]⟩

def shopped : Db :=
  (serve (Event.request plainConfig 3 (.createTransaction (groceries 18))).call (calm 100)
    registered).2

theorem edit_accepted_doubled : shopped.AcceptsEdit 3 (Guid.text 108) doubled ∧
    ∃ guid version rows v,
      serve (Event.request plainConfig 3 (.updateTransaction (Guid.text 108) doubled)).call
        (calm 200) shopped = (.ok (.updatedTransaction guid version rows), v) ∧
      Chosen doubled guid rows ∧ Updates 3 guid shopped.splits rows shopped v := by
  have haccepts : shopped.AcceptsEdit 3 (Guid.text 108) doubled := by
    refine ⟨⟨108, rfl, by decide +kernel⟩, ?_, ⟨Numeric.zero, by decide +kernel, rfl⟩,
      by decide +kernel, ?_, by decide⟩
    · unfold DenomsOk
      decide +kernel
    · intro sp hsp _
      have hopen : shopped.Open 3 18 ∧ shopped.Open 3 12 := by
        unfold Db.Open
        decide +kernel
      rcases List.mem_cons.mp hsp with rfl | hsp
      · exact ⟨18, rfl, hopen.1⟩
      · obtain rfl := List.mem_singleton.mp hsp
        exact ⟨12, rfl, hopen.2⟩
  have hruns : Runs (fun _ _ _ => True) shopped :=
    .step _ _ (registered_runs trivial) (by decide +kernel) trivial
  exact ⟨haccepts, (edit_accepted hruns (uneventful_calm 200) (by decide +kernel)).1 haccepts⟩

end Antimoney
