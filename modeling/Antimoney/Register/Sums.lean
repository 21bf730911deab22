import Antimoney.Gnc.Denominators
import Antimoney.Register.Exact
import Antimoney.Server

/-!
# Running balances never divide by zero

Balances are folds of `Add` over `gnc.New` values, each cut to a pair of `int64`s. As `Add` brings no
factors of two into a denominator, none of them gets to zero, however wrong it may be
(`balances_ne_zero`, **`sums_never_panic`**). A register is then answered without a panic whenever no
stored split has a zero denominator (`serve_unpanicked`).
-/

namespace Antimoney

open Antimoney.Lib Antimoney.Gnc Numeric Prog

section Sums

variable {ty : String} {acc : Numeric} {rows : List (Transaction × Split)}

/-- **No running balance has a zero denominator**, from any balance that has none. -/
theorem balances_ne_zero (hacc : acc.denom ≠ 0)
    (h : ∀ r ∈ rows, r.2.quantityDenom ≠ 0) :
    ∃ b es, priorBalance acc rows = some b ∧ b.denom ≠ 0 ∧
      registerEntries ty acc rows = some es := by
  induction rows generalizing acc with
  | nil => exact ⟨acc, [], rfl, hacc, rfl⟩
  | cons r rows ih =>
    obtain ⟨v, hv, hvd⟩ := new_isSome (s := r.2.qty) (h r (by simp))
    obtain ⟨c, hc, hcd⟩ := add_denom (k := 64) (a := acc) (b := v) (by decide)
      (fun h0 => hacc (dvd64_iff.mp h0)) fun h0 => hvd (dvd64_iff.mp h0)
    obtain ⟨b, es, hb, hbd, hes⟩ := @ih c (ne_zero_of_not_dvd hcd)
      fun s hs => h s (List.mem_cons_of_mem r hs)
    have hamount : rowAmount r = some v := hv
    refine ⟨b, entryOf ty r v c :: es, ?_, hbd, ?_⟩
    · rw [priorBalance_cons, hamount, Option.bind_some, hc, Option.bind_some, hb]
    · rw [registerEntries_cons, hamount, Option.bind_some, hc, Option.bind_some, hes]
      rfl

end Sums

/-- **Adding up never panics.** For `int64` pairs with nonzero denominators, `Sum` over any of them
gives a value with a nonzero denominator; and for rows with nonzero denominators so does every
running balance of a register, of a page and before a page. -/
theorem sums_never_panic :
    (∀ splits : List Fraction, (∀ s ∈ splits, s.2 ≠ 0) → ∀ p, p <+: splits →
      ∃ c, gateSum p = some c ∧ c.denom ≠ 0) ∧
    ∀ (ty : String) (before page : List (Transaction × Split)),
      (∀ r ∈ before ++ page, r.2.quantityDenom ≠ 0) →
      (∀ p, p <+: before → ∃ b, priorBalance zero p = some b ∧ b.denom ≠ 0) ∧
      ∃ prior es, priorBalance zero before = some prior ∧
        registerEntries ty prior page = some es ∧
        ∀ p, p <+: page → ∃ b, priorBalance prior p = some b ∧ b.denom ≠ 0 := by
  have hzero : zero.denom ≠ 0 := by decide
  constructor
  · intro splits h p hp
    obtain ⟨c, hc, hcd⟩ := @gateSum_denom 64 p (by decide) (by decide)
      fun s hs h0 => h s (hp.subset hs) (dvd64_iff.mp h0)
    exact ⟨c, hc, ne_zero_of_not_dvd hcd⟩
  · intro ty before page h
    have hbefore : ∀ r ∈ before, r.2.quantityDenom ≠ 0 :=
      fun r hr => h r (List.mem_append_left _ hr)
    have hpage : ∀ r ∈ page, r.2.quantityDenom ≠ 0 := fun r hr => h r (List.mem_append_right _ hr)
    obtain ⟨prior, _, hprior, hpriord, -⟩ := @balances_ne_zero ty _ _ hzero hbefore
    obtain ⟨_, es, -, -, hes⟩ := @balances_ne_zero ty _ _ hpriord hpage
    refine ⟨fun p hp => ?_, prior, es, hprior, hes, fun p hp => ?_⟩
    · obtain ⟨b, _, hb, hbd, -⟩ := @balances_ne_zero ty _ p hzero
        fun r hr => hbefore r (hp.subset hr)
      exact ⟨b, hb, hbd⟩
    · obtain ⟨b, _, hb, hbd, -⟩ := @balances_ne_zero ty _ p hpriord
        fun r hr => hpage r (hp.subset hr)
      exact ⟨b, hb, hbd⟩

/-- Two thirds and 1/2^62. -/
theorem sums_never_panic_thirds :
    ∃ c, gateSum [(2, 3), (1, 4611686018427387904)] = some c ∧ c.denom ≠ 0 :=
  sums_never_panic.1 [(2, 3), (1, 4611686018427387904)]
    (by
      intro s hs
      simp only [List.mem_cons, List.not_mem_nil, or_false] at hs
      rcases hs with rfl | rfl <;> decide)
    _ List.prefix_rfl

/-! ## Calls that do not panic -/

/-- The call leaves the state, does not panic, and `P` holds of what it returns. -/
def Unpanicked {α : Type} (db : Db) (P : α → Prop) (p : Call α) : Prop :=
  p.swp machine Duty.none (fun r t => t = .idle db ∧ match r with
    | .ok a => P a
    | .error e => e ≠ .panic) (.idle db)

section Unpanicked

variable {α β : Type} {db : Db} {P : α → Prop} {Q : β → Prop}

theorem unpanicked_ret {a : α} (h : P a) : Unpanicked db P (.ret a) := ⟨rfl, h⟩

theorem unpanicked_fail {e : Err} (h : e ≠ .panic) : Unpanicked db P (.fail e) := ⟨rfl, h⟩

theorem unpanicked_bind {p : Call α} {k : α → Call β} (h : Unpanicked db P p)
    (hk : ∀ a, P a → Unpanicked db Q (k a)) : Unpanicked db Q (p.bind k) := by
  refine swp_bind (swp_mono (fun r t ht => ?_) h)
  obtain ⟨rfl, hr⟩ := ht
  cases r with
  | ok a => exact hk a hr
  | error e => exact unpanicked_fail hr

/-- A query outside a transaction. -/
theorem unpanicked_exec {text : String} {q : Stmt α} {k : α → Call β} (hq : q.Reads)
    (hk : ∀ env a, q.sem env db = .ok (a, db) → Unpanicked db Q (k a)) :
    Unpanicked db Q ((exec text q).bind k) := by
  refine swp_sql (Solo.view_idle db) (fun _ _ => trivial) (fun e => ⟨rfl, by simp⟩) ?_
  intro env a v _ hx
  obtain rfl := hq.sem hx
  exact hk env a hx

/-- A query whose error the call looks at. -/
theorem unpanicked_reply {q : Stmt α} {k : Except SqlErr α → Call β} (hq : q.Reads)
    (hk : ∀ r, Unpanicked db Q (k r)) : Unpanicked db Q ((reply q).bind k) := by
  refine swp_ask (Solo.view_idle db) (fun _ _ => trivial) (fun env e _ _ => hk _) ?_
  intro env a v _ hx
  obtain rfl := hq.sem hx
  exact hk _

theorem unpanicked_orPanic {o : Option α} (h : ∃ a, o = some a ∧ P a) : Unpanicked db P (orPanic o) := by
  obtain ⟨a, rfl, ha⟩ := h
  exact unpanicked_ret ha

/-- What a request answers. -/
theorem Unpanicked.run {p : Call α} {envs : Nat → Env} (h : Unpanicked db P p)
    (ha : p.runAllowed machine envs (.idle db) = true) :
    (p.run machine envs (.idle db)).1 ≠ .error .panic := by
  have hr := (run_of_swp h ha).2
  intro he
  rw [he] at hr
  exact hr rfl

end Unpanicked

/-! ## Registers do not panic -/

/-- No stored split has a zero quantity denominator. -/
def Db.Divisible (db : Db) : Prop := ∀ sp ∈ db.splits, sp.quantityDenom ≠ 0

section Registers

variable {db : Db} {book : Guid} {id : GuidText} {rows : List (Transaction × Split)}

theorem Db.Divisible.joinTxns (h : db.Divisible) {p : Transaction → Split → Bool} :
    ∀ r ∈ db.joinTxns p, r.2.quantityDenom ≠ 0 := by
  intro r hr
  obtain ⟨sp, hsp, hr⟩ := List.mem_filterMap.mp hr
  obtain ⟨t, -, hr⟩ := Option.bind_eq_some_iff.mp hr
  split at hr
  · obtain rfl := Option.some.inj hr
    exact h sp hsp
  · exact absurd hr (by simp)

theorem mem_of_selectRegister {account : Guid} {env : Env} {v : Db}
    (h : (selectRegister account).sem env db = .ok (rows, v)) :
    ∀ r ∈ rows, ∃ p, r ∈ db.joinTxns p := by
  unfold selectRegister at h
  obtain ⟨rfl, -⟩ := Stmt.query_ok (f := fun db : Db =>
    (db.joinTxns fun _ s => s.accountGuid == account).insertionSort (registerLe env.ties)) h
  exact fun r hr => ⟨_, (List.mem_insertionSort _).mp hr⟩

theorem mem_of_selectPrior {account : Guid} {limit : Nat} {env : Env} {v : Db}
    (h : (selectPrior account book limit).sem env db = .ok (rows, v)) :
    ∀ r ∈ rows, ∃ p, r ∈ db.joinTxns p := by
  obtain ⟨⟨all, hall, rfl⟩, -⟩ := Stmt.rowsE_ok (f := fun db : Db =>
    .ok (((db.registerRows account book).insertionSort (registerLe env.ties)).take limit)) h
  obtain rfl := Except.ok.inj hall
  exact fun r hr =>
    ⟨_, (List.mem_insertionSort _).mp (List.mem_of_mem_take (Env.mem_received hr))⟩

theorem mem_of_selectPage {account : Guid} {limit offset : Int} {env : Env} {v : Db}
    (h : (selectPage account book limit offset).sem env db = .ok (rows, v)) :
    ∀ r ∈ rows, ∃ p, r ∈ db.joinTxns p := by
  obtain ⟨hq, -⟩ := Stmt.queryE_ok (f := fun db : Db => do
    require (decide (0 ≤ offset)) .badInput
    let rows := (db.registerRows account book).insertionSort (registerLe env.ties)
    return (rows.drop offset.toNat).take limit.toNat) h
  obtain ⟨-, hq⟩ := require_bind hq
  obtain rfl := Except.ok.inj hq
  exact fun r hr =>
    ⟨_, (List.mem_insertionSort _).mp (List.mem_of_mem_drop (List.mem_of_mem_take hr))⟩

theorem fillTransferAccounts_unpanicked (entries : List RegisterEntry) (account : Guid) :
    Unpanicked db (fun _ => True) (fillTransferAccounts entries account) := by
  unfold fillTransferAccounts
  split
  · exact unpanicked_ret trivial
  · exact unpanicked_exec (Stmt.reads_query _) fun _ _ _ => unpanicked_ret trivial

/-- The running balances over rows of the tables. -/
theorem Db.Divisible.entries (h : db.Divisible) (ty : String) {acc : Numeric}
    (hacc : acc.denom ≠ 0) (hrows : ∀ r ∈ rows, ∃ p, r ∈ db.joinTxns p) :
    (∃ b, priorBalance acc rows = some b ∧ b.denom ≠ 0) ∧
      ∃ es, registerEntries ty acc rows = some es ∧ True := by
  obtain ⟨b, es, hb, hbd, hes⟩ := @balances_ne_zero ty _ rows hacc fun r hr => by
    obtain ⟨p, hp⟩ := hrows r hr
    exact h.joinTxns r hp
  exact ⟨⟨b, hb, hbd⟩, es, hes, trivial⟩

theorem register_unpanicked (h : db.Divisible) :
    Unpanicked db (fun _ => True) (getAccountRegister book id) := by
  refine unpanicked_exec (Stmt.reads_queryE _) fun _ found _ => ?_
  cases found with
  | none => exact unpanicked_fail (by simp)
  | some r =>
    refine unpanicked_exec (Stmt.reads_ordered fun _ => Stmt.reads_query _) fun env rows hrows => ?_
    exact unpanicked_bind (unpanicked_orPanic (h.entries r.2 (by decide)
      (mem_of_selectRegister hrows)).2) fun es _ => fillTransferAccounts_unpanicked es _

theorem pageWindow_unpanicked {account : Guid} {cursor : PageCursor} {direction : Direction}
    {limit : Int} : Unpanicked db (fun _ => True) (pageWindow account book cursor direction limit) := by
  unfold pageWindow
  split
  · split <;> exact unpanicked_ret trivial
  · refine unpanicked_reply (Stmt.reads_query _) fun r => ?_
    dsimp only
    split <;> exact unpanicked_ret trivial
  · exact unpanicked_ret trivial
  · exact unpanicked_reply (Stmt.reads_query _) fun r => unpanicked_ret trivial
  · exact unpanicked_exec (Stmt.reads_query _) fun _ _ _ => unpanicked_ret trivial
  · exact unpanicked_fail (by simp)

theorem loadPrior_unpanicked {account : Guid} {offset : Int} (h : db.Divisible) :
    Unpanicked db (fun b => b.denom ≠ 0) (loadPrior account book offset) := by
  unfold loadPrior
  split
  · refine unpanicked_exec (Stmt.reads_ordered fun _ => Stmt.reads_rowsE _) fun env rows hrows => ?_
    exact unpanicked_orPanic (h.entries "" (by decide) (mem_of_selectPrior hrows)).1
  · exact unpanicked_ret (by decide)

theorem registerPage_unpanicked {cursor : PageCursor} {direction : Direction} {limit : Int}
    (h : db.Divisible) :
    Unpanicked db (fun _ => True) (getAccountRegisterPaged book id cursor direction limit) := by
  refine unpanicked_exec (Stmt.reads_queryE _) fun _ found _ => ?_
  cases found with
  | none => exact unpanicked_fail (by simp)
  | some r =>
    refine unpanicked_exec (Stmt.reads_query _) fun _ total _ => ?_
    refine unpanicked_bind pageWindow_unpanicked fun window _ => ?_
    dsimp only
    split
    · exact unpanicked_ret trivial
    · refine unpanicked_bind (loadPrior_unpanicked h) fun prior hprior => ?_
      refine unpanicked_exec (Stmt.reads_ordered fun _ => Stmt.reads_queryE _) fun env rows hrows => ?_
      refine unpanicked_bind (unpanicked_orPanic (h.entries r.2 hprior
        (mem_of_selectPage hrows)).2) fun es _ => ?_
      exact unpanicked_bind (fillTransferAccounts_unpanicked es _) fun _ _ => unpanicked_ret trivial

/-- **Registers never panic** where no split has a zero quantity denominator. -/
theorem serve_unpanicked {cfg : PlaidConfig} {envs : Nat → Env} {req : Request} (h : db.Divisible)
    (hreq : (∃ id, req = .register id) ∨
      ∃ id cursor direction limit, req = .registerPage id cursor direction limit)
    (ha : mayServe (Event.request cfg book req).call envs db = true) :
    (serve (Event.request cfg book req).call envs db).1 ≠ .error .panic := by
  have hcall : Unpanicked db (fun _ => True) (Event.request cfg book req).call := by
    rcases hreq with ⟨id, rfl⟩ | ⟨id, cursor, direction, limit, rfl⟩
    · exact unpanicked_bind (register_unpanicked h) fun _ _ => unpanicked_ret trivial
    · exact unpanicked_bind (registerPage_unpanicked h) fun _ _ => unpanicked_ret trivial
  exact hcall.run ha

end Registers

end Antimoney
