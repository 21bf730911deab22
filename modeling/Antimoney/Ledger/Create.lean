import Antimoney.Lib.Pool
import Antimoney.Services.TransactionService

/-!
# What `CreateTransaction` and `UpdateTransaction` commit

Both read and insert inside one transaction. The pending writes make some change and add rows
(`Pending`), so whatever others commit meanwhile, a commit of `CreateTransaction` adds one
transaction, the splits `balancedSplits` chose, and at most a new `Imbalance` account; a commit of
`UpdateTransaction` exchanges the splits of one transaction.

* **`createTransaction_wp`**, **`updateTransaction_wp`**: the specifications, among other calls,
  for any contract.
* `createTransaction_alone`, `updateTransaction_alone`: the same for a call that runs alone.
-/

namespace Antimoney

open Antimoney.Lib Antimoney.Gnc Prog

/-- The rows `as`, `ts`, `rs` are added. -/
def Db.append (db : Db) (as : List Account) (ts : List Transaction) (rs : List Split) : Db :=
  { db with
    accounts := db.accounts ++ as
    transactions := db.transactions ++ ts
    splits := db.splits ++ rs }

@[simp] theorem Db.append_nil (db : Db) : db.append [] [] [] = db := by
  simp [Db.append]

@[simp] theorem Db.append_append (db : Db) (as as' : List Account) (ts ts' : List Transaction)
    (rs rs' : List Split) :
    (db.append as ts rs).append as' ts' rs' = db.append (as ++ as') (ts ++ ts') (rs ++ rs') := by
  simp [Db.append]

/-- The transactions are new: neither their identifiers nor their plaid ids are taken. -/
def Db.Fresh (db : Db) (ts : List Transaction) : Prop :=
  ∀ t ∈ ts, db.hasTransaction t.guid = false ∧ db.plaidTxnTaken t.bookGuid t.plaidTxnId = false

/-- The accounts come in one by one: each is new, under a parent that is there. -/
def Db.Grows (x : Db) : List Account → Prop
  | [] => True
  | a :: as => (x.hasAccount a.guid = false ∧ x.refOk a.parentGuid = true) ∧
      (x.append [a] [] []).Grows as

/-- Other tables than `accounts` do not matter. -/
theorem Db.Grows.congr {as : List Account} {x y : Db} (h : x.Grows as)
    (he : y.accounts = x.accounts) : y.Grows as := by
  induction as generalizing x y with
  | nil => trivial
  | cons a as ih =>
    obtain ⟨⟨hnew, hp⟩, has⟩ := h
    have hany : y.hasAccount = x.hasAccount := by
      funext g
      rw [Db.hasAccount, he]
      rfl
    refine ⟨⟨hany ▸ hnew, ?_⟩, ih has (by simp [Db.append, he])⟩
    rw [Db.refOk, hany]
    exact hp

theorem Db.Grows.append {as as' : List Account} {x : Db} (h : x.Grows as)
    (h' : (x.append as [] []).Grows as') : x.Grows (as ++ as') := by
  induction as generalizing x with
  | nil => simpa using h'
  | cons a as ih => exact ⟨h.1, ih h.2 (by simpa using h')⟩

/-- `y` is `x` with the rows added, which `x` had room for. -/
structure Adds (as : List Account) (ts : List Transaction) (rs : List Split) (x y : Db) : Prop where
  eq : y = x.append as ts rs
  fresh : x.Fresh ts
  grows : x.Grows as

theorem Adds.refl (x : Db) : Adds [] [] [] x x :=
  ⟨by simp, fun _ h => absurd h (by simp), trivial⟩

theorem Adds.trans {as as' : List Account} {ts ts' : List Transaction} {rs rs' : List Split}
    {x y z : Db} (h : Adds as ts rs x y) (h' : Adds as' ts' rs' y z) :
    Adds (as ++ as') (ts ++ ts') (rs ++ rs') x z := by
  obtain ⟨rfl, hf, hg⟩ := h
  obtain ⟨rfl, hf', hg'⟩ := h'
  refine ⟨by simp, fun t ht => ?_, hg.append (hg'.congr rfl)⟩
  rcases List.mem_append.mp ht with ht | ht
  · exact hf t ht
  · obtain ⟨h1, h2⟩ := hf' t ht
    refine ⟨?_, ?_⟩
    · simp only [Db.hasTransaction, Db.append, List.any_append, Bool.or_eq_false_iff] at h1 ⊢
      exact h1.1
    · cases hp : t.plaidTxnId with
      | none => rfl
      | some i =>
        simp only [Db.plaidTxnTaken, hp, Db.append, Option.any_some, List.any_append,
          Bool.or_eq_false_iff] at h2 ⊢
        exact h2.1

/-- The transaction is open, its pending writes make the change `B` and then add these rows, and
`R` holds of the committed state. -/
structure Pending (R : Db → Prop) (B : Db → Db → Prop) (as : List Account) (ts : List Transaction)
    (rs : List Split) (ss : Sess SqlErr Lock Db) (s : Db) : Prop where
  tx : ∃ f held, ss = .tx f held ∧ ∀ x y, f x = .ok y → ∃ z, B x z ∧ Adds as ts rs z y
  holds : R s

theorem Pending.begin {R : Db → Prop} {s : Db} (h : R s) :
    Pending R Eq [] [] [] (.tx .ok [] : Sess SqlErr Lock Db) s :=
  ⟨⟨_, _, rfl, fun x y hxy => ⟨x, rfl, by rw [← Except.ok.inj hxy]; exact Adds.refl x⟩⟩, h⟩

/-- What a statement inside the transaction sees: a committed state that satisfies `R`, with the
pending writes. -/
def Seen (R : Db → Prop) (B : Db → Db → Prop) (as : List Account) (ts : List Transaction)
    (rs : List Split) (v : Db) : Prop :=
  ∃ s z, R s ∧ B s z ∧ Adds as ts rs z v

/-! ## Statements inside the transaction -/

section Tx

variable {C : Contract Stmt SqlErr Env Db} {R : Db → Prop} {B : Db → Db → Prop} {α γ : Type}
  {K : Except Err α → Sess SqlErr Lock Db → Db → Prop}
  {as as' : List Account} {ts ts' : List Transaction} {rs rs' : List Split}
  {ss : Sess SqlErr Lock Db} {s : Db}

/-- A statement whose pending write adds rows. -/
theorem wp_tx_stmt {q : Stmt γ} {k : Except SqlErr γ → Call α} (hR : C.Stable R)
    (h : Pending R B as ts rs ss s)
    (hw : ∀ env v x y, q.write env v x = .ok y → Adds as' ts' rs' x y)
    (herr : ∀ e ss s, R s → (k (.error e)).wp machine C K ss s)
    (hok : ∀ env v b v' ss s, Seen R B as ts rs v → q.sem env v = .ok (b, v') →
      Pending R B (as ++ as') (ts ++ ts') (rs ++ rs') ss s → (k (.ok b)).wp machine C K ss s) :
    (Prog.op (.stmt q) k).wp machine C K ss s := by
  obtain ⟨⟨f, held, rfl, hf⟩, hs⟩ := h
  refine wp_stmt_tx (fun s' e hr hi => herr _ _ _ (hR _ _ hs hr hi))
    (fun s' e hr hi _ => herr _ _ _ (hR _ _ hs hr hi)) ?_
  intro s' env v b v' hr hi hv _ _ hx
  have hs' := hR _ _ hs hr hi
  obtain ⟨z, hz, ha⟩ := hf s' v hv
  refine hok env v b v' _ _ ⟨s', z, hs', hz, ha⟩ hx ⟨⟨_, _, rfl, fun x y hxy => ?_⟩, hs'⟩
  obtain ⟨y', hy', hy⟩ := ok_bind hxy
  obtain ⟨z, hz, ha⟩ := hf x y' hy'
  exact ⟨z, hz, ha.trans (hw env v y' y hy)⟩

/-- A statement whose pending write is a change, before any row is added. -/
theorem wp_tx_change {D : Db → Db → Prop} {text : String} {q : Stmt γ} {k : γ → Call α}
    (hR : C.Stable R) (h : Pending R B [] [] [] ss s)
    (hw : ∀ env s v x y, R s → B s v → q.write env v x = .ok y → D x y)
    (herr : ∀ e ss s, R s → K (.error e) ss s)
    (hok : ∀ b ss s, Pending R (fun x z => ∃ w, B x w ∧ D w z) [] [] [] ss s →
      (k b).wp machine C K ss s) : ((exec text q).bind k).wp machine C K ss s := by
  obtain ⟨⟨f, held, rfl, hf⟩, hs⟩ := h
  refine wp_stmt_tx (fun s' e hr hi => herr _ _ _ (hR _ _ hs hr hi))
    (fun s' e hr hi _ => herr _ _ _ (hR _ _ hs hr hi)) ?_
  have hchange : ∀ x y, f x = .ok y → B x y := by
    intro x y hy
    obtain ⟨z, hz, ha⟩ := hf x y hy
    obtain rfl : y = z := by simpa using ha.eq
    exact hz
  intro s' env v b v' hr hi hv _ _ _
  have hs' := hR _ _ hs hr hi
  refine hok b _ _ ⟨⟨_, _, rfl, fun x y hxy => ?_⟩, hs'⟩
  obtain ⟨y', hy', hy⟩ := ok_bind hxy
  exact ⟨y, ⟨y', hchange x y' hy', hw env s' v y' y hs' (hchange s' v hv) hy⟩, Adds.refl y⟩

/-- A statement whose error ends the call, and whose pending write adds rows. -/
theorem wp_tx_exec {text : String} {q : Stmt γ} {k : γ → Call α} (hR : C.Stable R)
    (h : Pending R B as ts rs ss s)
    (hw : ∀ env v x y, q.write env v x = .ok y → Adds as' ts' rs' x y)
    (herr : ∀ e ss s, R s → K (.error e) ss s)
    (hok : ∀ b ss s, Pending R B (as ++ as') (ts ++ ts') (rs ++ rs') ss s →
      (k b).wp machine C K ss s) : ((exec text q).bind k).wp machine C K ss s :=
  wp_tx_stmt hR h hw (fun _ _ _ hs => herr _ _ _ hs) fun _ _ b _ ss s _ _ hp => hok b ss s hp

/-- A statement whose error the call looks at, and whose pending write adds rows. -/
theorem wp_tx_reply {q : Stmt γ} {k : Except SqlErr γ → Call α} (hR : C.Stable R)
    (h : Pending R B as ts rs ss s)
    (hw : ∀ env v x y, q.write env v x = .ok y → Adds as' ts' rs' x y)
    (herr : ∀ e ss s, R s → (k (.error e)).wp machine C K ss s)
    (hok : ∀ env v b v' ss s, Seen R B as ts rs v → q.sem env v = .ok (b, v') →
      Pending R B (as ++ as') (ts ++ ts') (rs ++ rs') ss s → (k (.ok b)).wp machine C K ss s) :
    ((reply q).bind k).wp machine C K ss s :=
  wp_tx_stmt hR h hw herr hok

/-- A statement that reads writes nothing either. -/
theorem adds_of_reads {q : Stmt γ} (hq : q.Reads) {env : Env} {v x y : Db}
    (h : q.write env v x = .ok y) : Adds [] [] [] x y := by
  rw [hq.write h]
  exact Adds.refl x

/-- A read inside the transaction. -/
theorem wp_tx_read {text : String} {q : Stmt γ} {k : γ → Call α} (hR : C.Stable R)
    (h : Pending R B as ts rs ss s) (hq : q.Reads)
    (herr : ∀ e ss s, R s → K (.error e) ss s)
    (hok : ∀ b ss s, Pending R B as ts rs ss s → (k b).wp machine C K ss s) :
    ((exec text q).bind k).wp machine C K ss s := by
  refine wp_tx_exec hR h
    (fun _ _ _ _ => adds_of_reads hq) herr fun b ss s hp => hok b ss s ?_
  simpa using hp

/-- A read inside the transaction whose error the call looks at. -/
theorem wp_tx_ask {q : Stmt γ} {k : Except SqlErr γ → Call α} (hR : C.Stable R)
    (h : Pending R B as ts rs ss s) (hq : q.Reads)
    (herr : ∀ e ss s, R s → (k (.error e)).wp machine C K ss s)
    (hok : ∀ env v b ss s, Seen R B as ts rs v → q.sem env v = .ok (b, v) →
      Pending R B as ts rs ss s → (k (.ok b)).wp machine C K ss s) :
    ((reply q).bind k).wp machine C K ss s := by
  refine wp_tx_reply hR h (fun _ _ _ _ => adds_of_reads hq) herr fun env v b v' ss s hv hx hp => ?_
  obtain rfl := hq.sem hx
  exact hok env _ b ss s hv hx (by simpa using hp)

theorem insertAccountStmt_adds {a : Account} {env : Env} {v x y : Db}
    (h : (insertAccountStmt a).write env v x = .ok y) :
    Adds [{ a with plaid := none }] [] [] x y := by
  obtain ⟨⟨_, y'⟩, hb, rfl⟩ := ok_map h
  obtain ⟨_, hi, he⟩ := ok_map (ok_of_failing hb)
  obtain ⟨-, rfl⟩ := Prod.mk.inj he
  obtain ⟨⟨hnew, -, hp⟩, rfl⟩ := Db.insertAccount_ok hi
  exact ⟨by simp [Db.append], fun _ h => absurd h (by simp), ⟨hnew, hp⟩, trivial⟩

theorem insertTransactionStmt_adds {t : Transaction} {env : Env} {v x y : Db}
    (h : (insertTransactionStmt t).write env v x = .ok y) : Adds [] [t] [] x y := by
  obtain ⟨⟨_, y'⟩, hb, rfl⟩ := ok_map h
  obtain ⟨_, hi, he⟩ := ok_map (ok_of_failing hb)
  obtain ⟨-, rfl⟩ := Prod.mk.inj he
  obtain ⟨⟨h1, h2, -⟩, rfl⟩ := Db.insertTransaction_ok hi
  refine ⟨by simp [Db.append], fun t' ht => ?_, trivial⟩
  obtain rfl := List.mem_singleton.mp ht
  exact ⟨h1, h2⟩

theorem insertSplitStmt_adds {account : GuidText} {sp : Split} {g : Guid} {env : Env}
    {v x y : Db} (hg : account.parse = .ok g) (h : (insertSplitStmt account sp).write env v x = .ok y) :
    Adds [] [] [{ sp with accountGuid := g }] x y := by
  obtain ⟨⟨_, y'⟩, hb, rfl⟩ := ok_map h
  obtain ⟨g', hg', hb⟩ := ok_bind (ok_of_failing hb)
  obtain rfl := Except.ok.inj (hg.symm.trans hg')
  obtain ⟨_, hi, he⟩ := ok_bind hb
  obtain ⟨-, rfl⟩ := Prod.mk.inj (Except.ok.inj he)
  exact ⟨by simp [(Db.insertSplit_ok hi).2, Db.append], fun _ h => absurd h (by simp), trivial⟩

end Tx

/-! ## The parts of `CreateTransaction` -/

section Parts

variable {C : Contract Stmt SqlErr Env Db} {R : Db → Prop} {B : Db → Db → Prop} {book : Guid}
  {ss : Sess SqlErr Lock Db} {s : Db}

/-- The accounts a new transaction may bring along: none but `Imbalance`. -/
def ImbalanceOnly (book : Guid) (as : List Account) : Prop :=
  as = [] ∨ ∃ a, as = [a] ∧ a.name = "Imbalance" ∧ a.bookGuid = book ∧ a.plaid = none

/-- The account is one of the book's under the name `Imbalance`. -/
def Db.Imbalance (db : Db) (book g : Guid) : Prop :=
  ∃ a ∈ db.accounts, a.guid = g ∧ a.name = "Imbalance" ∧ a.bookGuid = book

/-- The splits inserted for valid ones whose sum is `sum`. -/
def SplitsFor (valid : List CreateSplitRequest) (sum : Numeric) (splits : List CreateSplitRequest) :
    Prop :=
  (sum.isZero = true ∧ splits = valid) ∨
    (sum.isZero = false ∧ ∃ g, splits = valid ++ [balancingSplit g sum])

/-- What a part of the transaction leaves: its outcome, with the rows it added pending, or an
error. -/
def Leaves {β : Type} (R : Db → Prop) (ok : β → Sess SqlErr Lock Db → Db → Prop) :
    Except Err β → Sess SqlErr Lock Db → Db → Prop
  | .ok b, ss, s => ok b ss s
  | .error _, _, s => R s

theorem selectImbalance_named {env : Env} {v v' : Db} {g : Guid}
    (h : (selectImbalance book).sem env v = .ok (some g, v')) : v.Imbalance book g := by
  obtain ⟨hq, -⟩ := Stmt.query_ok h
  obtain ⟨a, ha, rfl⟩ := Option.map_eq_some_iff.mp hq.symm
  have hc := List.find?_some ha
  simp only [Bool.and_eq_true, beq_iff_eq] at hc
  exact ⟨a, List.mem_of_find?_eq_some ha, rfl, hc.2, hc.1⟩

theorem imbalanceAccount_wp (hR : C.Stable R) (h : Pending R Eq [] [] [] ss s) :
    (imbalanceAccount book).wp machine C (Leaves R fun g ss s =>
      ∃ as, ImbalanceOnly book as ∧ (∃ v, Seen R Eq as [] [] v ∧ v.Imbalance book g) ∧
        Pending R Eq as [] [] ss s) ss s := by
  have herr : ∀ (e : Err) (ss : Sess SqlErr Lock Db) s, R s → Leaves R (fun g ss s =>
      ∃ as, ImbalanceOnly book as ∧ (∃ v, Seen R Eq as [] [] v ∧ v.Imbalance book g) ∧
        Pending R Eq as [] [] ss s) (.error e) ss s :=
    fun _ _ _ h => h
  refine wp_tx_ask hR h (Stmt.reads_query _) (fun e ss s hs => hs) ?_
  intro _ v r ss s hv hx h
  cases r with
  | some g => exact ⟨[], .inl rfl, ⟨v, hv, selectImbalance_named hx⟩, h⟩
  | none =>
    refine wp_tx_read hR h (Stmt.reads_query _) herr fun r ss s h => ?_
    rcases r with _ | _ | root
    · exact h.holds
    · exact h.holds
    · refine wp_tx_read hR h reads_uuidNew herr fun guid ss s h => ?_
      refine wp_tx_read hR h (Stmt.reads_askEnv _) herr fun now ss s h => ?_
      refine wp_tx_stmt hR h (fun _ _ _ _ => insertAccountStmt_adds)
        (fun e ss s hs => herr _ _ _ hs) fun env v b v' ss s hv hx h => ?_
      obtain ⟨s₀, _, hs₀, rfl, hadds⟩ := hv
      have hadd := insertAccountStmt_adds (Stmt.write_self _ hx)
      refine ⟨_, .inr ⟨_, rfl, rfl, rfl, rfl⟩, ⟨v', ⟨s₀, _, hs₀, rfl, hadds.trans hadd⟩, ?_⟩, h⟩
      rw [hadd.eq]
      exact ⟨_, List.mem_append_right _ (List.mem_singleton_self _), rfl, rfl, rfl⟩

/-- An account comes along for a sum other than zero only, and the balancing split is on an account
of which `I` holds. -/
structure BalancedOn (I : Guid → Prop) (sum : Numeric) (as : List Account)
    (splits : List CreateSplitRequest) : Prop where
  balanced : sum.isZero = true → as = []
  imbalance : sum.isZero = false → ∃ g, splits.getLast? = some (balancingSplit g sum) ∧ I g

theorem balancedSplits_wp {valid : List CreateSplitRequest} {sum : Numeric} (hR : C.Stable R)
    (h : Pending R Eq [] [] [] ss s) :
    (balancedSplits book valid sum).wp machine C (Leaves R fun splits ss s =>
      SplitsFor valid sum splits ∧ ∃ as, ImbalanceOnly book as ∧
        BalancedOn (fun g => ∃ v, Seen R Eq as [] [] v ∧ v.Imbalance book g) sum as splits ∧
        Pending R Eq as [] [] ss s) ss s := by
  unfold balancedSplits
  cases hz : sum.isZero with
  | true =>
    refine ⟨.inl ⟨hz, rfl⟩, [], .inl rfl, ⟨fun _ => rfl, fun hn => ?_⟩, h⟩
    exact absurd (hz.symm.trans hn) (by simp)
  | false =>
    refine wp_bind (wp_mono (fun r ss s hr => ?_) (imbalanceAccount_wp hR h))
    cases r with
    | error e => exact hr
    | ok g =>
      obtain ⟨as, has, hg, h⟩ := hr
      refine ⟨.inr ⟨hz, g, rfl⟩, as, has, ⟨fun hy => ?_, fun _ => ⟨g, by simp, hg⟩⟩, h⟩
      exact absurd (hz.symm.trans hy) (by simp)

/-- The account is one of the book that takes entries. -/
def Db.Open (db : Db) (book : Guid) (g : Guid) : Prop :=
  ∃ a ∈ db.accounts, a.guid = g ∧ a.bookGuid = book ∧ a.placeholder = false

/-- Each requested split was on an open account when it was checked. -/
def Checked (R : Db → Prop) (B : Db → Db → Prop) (book : Guid) (as : List Account)
    (splits : List CreateSplitRequest) : Prop :=
  ∀ sp ∈ splits, ∀ g, sp.accountGuid.parse = .ok g →
    ∃ v, Seen R B as [] [] v ∧ v.Open book g

theorem selectPlaceholder_open {account : GuidText} {g : Guid} {env : Env} {v v' : Db}
    (hg : account.parse = .ok g)
    (h : (selectPlaceholder account book).sem env v = .ok (some false, v')) : v.Open book g := by
  obtain ⟨hx, -⟩ := Stmt.queryE_ok h
  obtain ⟨g', hg', hx⟩ := ok_bind hx
  obtain rfl := Except.ok.inj (hg.symm.trans hg')
  obtain ⟨a, ha, hp⟩ := Option.map_eq_some_iff.mp (Except.ok.inj hx)
  have hc := List.find?_some ha
  simp only [Bool.and_eq_true, beq_iff_eq] at hc
  exact ⟨a, List.mem_of_find?_eq_some ha, hc.1, hc.2, hp⟩

theorem checkAccounts_wp {as : List Account} (hR : C.Stable R) (splits : List CreateSplitRequest)
    (h : Pending R B as [] [] ss s) :
    (checkAccounts book splits).wp machine C (Leaves R fun _ ss s =>
      Checked R B book as splits ∧ Pending R B as [] [] ss s) ss s := by
  induction splits generalizing ss s with
  | nil => exact ⟨fun _ h => absurd h (by simp), h⟩
  | cons sp rest ih =>
    refine wp_tx_ask hR h (Stmt.reads_queryE _) (fun e ss s hs => hs) ?_
    intro env v r ss s hv hx h
    rcases r with _ | _ | _
    · exact h.holds
    · refine wp_mono (fun r ss s hr => ?_) (ih h)
      cases r with
      | error e => exact hr
      | ok _ =>
        refine ⟨fun sp' hsp' g hg => ?_, hr.2⟩
        rcases List.mem_cons.mp hsp' with rfl | hsp'
        · exact ⟨v, hv, selectPlaceholder_open hg hx⟩
        · exact hr.1 sp' hsp' g hg
    · exact h.holds

/-- A row is that of a requested split, in the transaction `tx`, in the state it is given. -/
structure RowOf (tx : Guid) (state : CreateSplitRequest → String) (sp : CreateSplitRequest)
    (row : Split) : Prop where
  tx : row.txGuid = tx
  account : sp.accountGuid.parse = .ok row.accountGuid
  memo : row.memo = sp.memo
  valueNum : row.valueNum = sp.valueNum
  valueDenom : row.valueDenom = sp.valueDenom
  quantityNum : row.quantityNum = sp.quantityNum
  quantityDenom : row.quantityDenom = sp.quantityDenom
  reconcileState : row.reconcileState = state sp

/-- The rows of checked splits were on open accounts. -/
theorem Checked.rows {R : Db → Prop} {B : Db → Db → Prop} {as : List Account} {tx : Guid}
    {state : CreateSplitRequest → String} {splits : List CreateSplitRequest} {rows : List Split}
    (h : Checked R B book as splits) (hrows : List.Forall₂ (RowOf tx state) splits rows) :
    ∀ row ∈ rows, ∃ v, Seen R B as [] [] v ∧ v.Open book row.accountGuid := by
  intro row hrow
  obtain ⟨sp, hsp, hr⟩ := exists_of_forall₂ hrows hrow
  exact h sp hsp _ hr.account

theorem insertSplits_wp {as : List Account} {ts : List Transaction} {rs : List Split} {tx : Guid}
    {now : Time} {state : CreateSplitRequest → String} (hR : C.Stable R) (i : Nat)
    (splits : List CreateSplitRequest) (h : Pending R B as ts rs ss s) :
    (insertSplits tx now state i splits).wp machine C (Leaves R fun rows ss s =>
      List.Forall₂ (RowOf tx state) splits rows ∧ Pending R B as ts (rs ++ rows) ss s) ss s := by
  induction splits generalizing i rs ss s with
  | nil => exact ⟨.nil, by simpa using h⟩
  | cons sp rest ih =>
    refine wp_tx_read hR h reads_uuidNew (fun _ _ _ hs => hs) ?_
    intro guid ss s h
    cases ha : sp.accountGuid with
    | malformed m =>
      -- the statement is refused, whatever the state
      have hno : ∀ g, GuidText.parse (.malformed m) ≠ .ok g := fun g h => absurd h (by
        simp [GuidText.parse])
      have hw : ∀ env v x y, (insertSplitStmt (.malformed m)
          (sp.row guid tx (state sp) now)).write env v x = .ok y → Adds [] [] [] x y := by
        intro env v x y hy
        obtain ⟨_, hb, -⟩ := ok_map hy
        obtain ⟨g, hg, -⟩ := ok_bind (ok_of_failing hb)
        exact absurd hg (hno g)
      refine wp_tx_reply hR h hw (fun e ss s hs => hs) fun env v b v' ss s _ hx _ => ?_
      obtain ⟨g, hg, -⟩ := ok_bind (ok_of_failing hx)
      exact absurd hg (hno g)
    | uuid g spelling =>
      refine wp_tx_reply hR h (fun _ _ _ _ hy => insertSplitStmt_adds (g := g) rfl hy)
        (fun e ss s hs => hs) fun env v b v' ss s _ _ h => ?_
      rw [List.append_nil, List.append_nil] at h
      refine wp_bind (wp_mono (fun r ss s hr => ?_) (ih (i + 1) h))
      cases r with
      | error e => exact hr
      | ok rows =>
        obtain ⟨hrows, h⟩ := hr
        have hrow : ({ sp.row guid tx (state sp) now with accountGuid := g } : Split) =
            sp.row guid tx (state sp) now := by
          simp [CreateSplitRequest.row, ha]
        rw [hrow, List.append_assoc] at h
        refine ⟨.cons ⟨rfl, ?_, rfl, rfl, rfl, rfl, rfl, rfl⟩ hrows, by simpa using h⟩
        simp [CreateSplitRequest.row, ha, GuidText.parse]

end Parts

/-! ## `CreateTransaction` -/

/-- What `CreateTransaction` chose before it commits: the transaction, its rows, and the accounts
it brings along. -/
structure Created (book : Guid) (req : CreateTransactionRequest) (as : List Account)
    (t : Transaction) (rows : List Split) : Prop where
  inBook : t.bookGuid = book
  plaid : t.plaidTxnId = req.plaidTxnId
  postDate : t.postDate = normalizePostDate req.postDate
  accounts : ImbalanceOnly book as
  rows : ∃ valid sum splits, validSplits req.splits = .ok valid ∧ splitSum valid = some sum ∧
    SplitsFor valid sum splits ∧ 2 ≤ splits.length ∧
    List.Forall₂ (RowOf t.guid CreateSplitRequest.newState) splits rows

/-- Where the balancing split of a new transaction goes, when there is one: to an account of which
`I` holds. No account comes along without it. -/
structure Placed (I : Guid → Prop) (req : CreateTransactionRequest) (as : List Account)
    (rows : List Split) : Prop where
  rows : ∃ valid sum, validSplits req.splits = .ok valid ∧ splitSum valid = some sum ∧
    (sum.isZero = true → as = []) ∧
    (sum.isZero = false → ∃ row, rows.getLast? = some row ∧ I row.accountGuid)

theorem Placed.mono {I J : Guid → Prop} {req : CreateTransactionRequest} {as : List Account}
    {rows : List Split} (h : Placed I req as rows) (hI : ∀ g, I g → J g) : Placed J req as rows := by
  obtain ⟨valid, sum, hvalid, hsum, hnone, hsome⟩ := h.rows
  refine ⟨valid, sum, hvalid, hsum, hnone, fun hz => ?_⟩
  obtain ⟨row, hrow, hi⟩ := hsome hz
  exact ⟨row, hrow, hI _ hi⟩

theorem BalancedOn.placed {I : Guid → Prop} {req : CreateTransactionRequest}
    {valid splits : List CreateSplitRequest} {sum : Numeric} {as : List Account} {rows : List Split}
    {tx : Guid} {state : CreateSplitRequest → String} (h : BalancedOn I sum as splits)
    (hvalid : validSplits req.splits = .ok valid) (hsum : splitSum valid = some sum)
    (hrows : List.Forall₂ (RowOf tx state) splits rows) : Placed I req as rows := by
  refine ⟨valid, sum, hvalid, hsum, h.balanced, fun hz => ?_⟩
  obtain ⟨g, hlast, hg⟩ := h.imbalance hz
  obtain ⟨front, rfl⟩ := List.getLast?_eq_some_iff.mp hlast
  -- the last row is that of the last split
  obtain ⟨others, row, rfl, -, hrow⟩ := forall₂_concat_left hrows
  obtain rfl : g = row.accountGuid := Except.ok.inj hrow.account
  exact ⟨row, by simp, hg⟩

/-- **`CreateTransaction` among other calls.** Whatever they do within the contract, a commit adds
what `Created` says to the state it meets, and an error changes nothing. -/
theorem createTransaction_wp {C : Contract Stmt SqlErr Env Db} {R : Db → Prop} {book : Guid}
    {req : CreateTransactionRequest}
    {Q : Except Err (Transaction × List Split) → Sess SqlErr Lock Db → Db → Prop} {s : Db}
    (hR : C.Stable R) (hs : R s) (herr : ∀ e s, R s → Q (.error e) .idle s)
    (hcommit : ∀ as t rows s v, R s → C.inv s → Created book req as t rows →
      Adds as [t] rows s v →
      (∀ row ∈ rows, ∃ v₁, Seen R Eq as [] [] v₁ ∧ v₁.Open book row.accountGuid) →
      Placed (fun g => ∃ v₁, Seen R Eq as [] [] v₁ ∧ v₁.Imbalance book g) req as rows →
      C.inv v ∧ C.guar (.commit : Op Stmt Unit) s v ∧
        ∀ s', C.rely v s' → C.inv s' → Q (.ok (t, rows)) .idle s') :
    (createTransaction book req).wp machine C Q .idle s := by
  refine wp_bind ?_
  cases hvalid : validSplits req.splits with
  | error e => exact herr e s hs
  | ok valid =>
    dsimp only [Prog.ofExcept, wp, ret_bind]
    refine wp_bind ?_
    cases hsum : splitSum valid with
    | none => exact herr .panic s hs
    | some sum =>
      dsimp only [orPanic, Prog.ofExcept, wp, ret_bind]
      refine wp_inTx (fun s' e hr hi => herr _ _ (hR _ _ hs hr hi)) fun s' hr hi => ?_
      have h := Pending.begin (hR _ _ hs hr hi)
      have hfail : ∀ (e : Err) (ss : Sess SqlErr Lock Db) s, R s →
          ∀ s₂, C.rely s s₂ → C.inv s₂ → Q (.error e) .idle s₂ :=
        fun e ss s hs s₂ hr hi => herr e s₂ (hR _ _ hs hr hi)
      refine wp_bind (wp_mono (fun r ss s hr => ?_) (balancedSplits_wp hR h))
      cases r with
      | error e => exact hfail e ss s hr
      | ok splits =>
        obtain ⟨hbal, as, has, hon, h⟩ := hr
        dsimp only [Prog.ofExcept, ret_bind]
        split
        · exact hfail _ ss s h.holds
        · rename_i htwo
          refine wp_bind (wp_mono (fun r ss s hr => ?_) (checkAccounts_wp hR splits h))
          cases r with
          | error e => exact hfail e ss s hr
          | ok _ =>
            obtain ⟨hopen, h⟩ := hr
            refine wp_tx_read hR h reads_uuidNew hfail fun guid ss s h => ?_
            refine wp_tx_read hR h (Stmt.reads_askEnv _) hfail
              fun now ss s h => ?_
            refine wp_tx_exec hR h (fun _ _ _ _ => insertTransactionStmt_adds) hfail
              fun _ ss s h => ?_
            refine wp_bind (wp_mono (fun r ss s hr => ?_) (insertSplits_wp hR 0 splits h))
            cases r with
            | error e => exact hfail e ss s hr
            | ok rows =>
              obtain ⟨hrows, ⟨f, held, rfl, hf⟩, hs⟩ := hr
              refine wp_commit (fun s' e hr hi => hfail _ .idle _ (hR _ _ hs hr hi))
                fun s' v hr hi hv => ?_
              refine hcommit _ _ rows s' v (hR _ _ hs hr hi) hi ⟨rfl, rfl, rfl, has, ?_⟩ ?_
                (hopen.rows hrows) (hon.placed hvalid hsum hrows)
              · exact ⟨valid, sum, splits, hvalid, hsum, hbal, Nat.le_of_not_lt htwo, hrows⟩
              · obtain ⟨z, rfl, ha⟩ := hf s' v hv
                simpa using ha

/-! ## `UpdateTransaction` -/

/-- A read outside a transaction. -/
theorem wp_idle_read {α γ : Type} {C : Contract Stmt SqlErr Env Db} {R : Db → Prop}
    {Q : Except Err α → Sess SqlErr Lock Db → Db → Prop} {text : String} {q : Stmt γ}
    {k : γ → Call α} {s : Db} (hR : C.Stable R) (hs : R s) (hq : q.Reads)
    (herr : ∀ e s, R s → Q (.error e) .idle s)
    (hok : ∀ env b s, R s → C.inv s → q.sem env s = .ok (b, s) →
      (k b).wp machine C Q .idle s) : ((exec text q).bind k).wp machine C Q .idle s := by
  refine wp_stmt_idle (fun s' _ e hr hi _ _ => herr _ _ (hR _ _ hs hr hi)) ?_
  intro s' env b s'' hr hi _ _ hx
  obtain rfl := hq.sem hx
  exact ⟨hi, C.guar_refl _ _ hi, hok env b _ (hR _ _ hs hr hi) hi hx⟩

/-- What `UpdateTransaction` does to a state: new columns for one transaction, never its
identifiers, and a normalised date, and other splits in the place of the old ones. -/
structure Updates (book guid : Guid) (old rows : List Split) (x y : Db) : Prop where
  eq : ∃ f : Transaction → Transaction,
    (∀ t, (f t).guid = t.guid ∧ (f t).bookGuid = t.bookGuid ∧ (f t).plaidTxnId = t.plaidTxnId) ∧
    (∃ date : GoTime, ∀ t, (f t).postDate = normalizePostDate date) ∧
    y = { x with
      transactions := updateWhere (isTransaction guid book) f x.transactions
      splits := deleteWhere (chosen Split.guid (·.txGuid == guid) old) x.splits ++ rows }

/-- The old splits are those of the state itself. -/
theorem Updates.self {book guid : Guid} {rows : List Split} {x y : Db}
    (h : Updates book guid x.splits rows x y) : ∃ f : Transaction → Transaction,
    (∀ t, (f t).guid = t.guid ∧ (f t).bookGuid = t.bookGuid ∧ (f t).plaidTxnId = t.plaidTxnId) ∧
    y = { x with
      transactions := updateWhere (isTransaction guid book) f x.transactions
      splits := deleteWhere (·.txGuid == guid) x.splits ++ rows } := by
  obtain ⟨f, hf, -, he⟩ := h.eq
  refine ⟨f, hf, ?_⟩
  rw [he, deleteWhere_congr fun s hs => chosen_self hs]

/-- The splits are old ones and the new rows. -/
theorem Updates.splits {book guid : Guid} {old rows : List Split} {x y : Db}
    (h : Updates book guid old rows x y) {sp : Split} (hsp : sp ∈ y.splits) :
    sp ∈ x.splits ∨ sp ∈ rows := by
  obtain ⟨f, -, -, rfl⟩ := h.eq
  rcases List.mem_append.mp hsp with hsp | hsp
  · exact .inl (mem_deleteWhere.mp hsp).1
  · exact .inr hsp

theorem Updates.accounts {book guid : Guid} {old rows : List Split} {x y : Db}
    (h : Updates book guid old rows x y) : y.accounts = x.accounts := by
  obtain ⟨f, -, -, rfl⟩ := h.eq
  rfl

/-- What `UpdateTransaction` chose before it commits. -/
structure Chosen (req : UpdateTransactionRequest) (guid : Guid) (rows : List Split) : Prop where
  rows : ∃ splits sum, validSplits req.splits = .ok splits ∧ splitSum splits = some sum ∧
    sum.isZero = true ∧ 2 ≤ splits.length ∧ List.Forall₂ (RowOf guid fun _ => "n") splits rows

/-- **`UpdateTransaction` among other calls.** The transaction was one of the book when it was
looked up. -/
theorem updateTransaction_wp {C : Contract Stmt SqlErr Env Db} {R : Db → Prop} {book : Guid}
    {tx : GuidText} {req : UpdateTransactionRequest}
    {Q : Except Err (Guid × Nat × List Split) → Sess SqlErr Lock Db → Db → Prop} {s : Db}
    (hR : C.Stable R) (hs : R s) (herr : ∀ e s, R s → Q (.error e) .idle s)
    (hcommit : ∀ guid version rows s₀ s₁ s v, R s₀ →
      s₀.transactions.any (isTransaction guid book) → R s₁ → R s → C.inv s →
      Chosen req guid rows → Updates book guid s₁.splits rows s v →
      (∀ row ∈ rows, ∃ v₁, R v₁ ∧ v₁.Open book row.accountGuid) →
      C.inv v ∧ C.guar (.commit : Op Stmt Unit) s v ∧
        ∀ s', C.rely v s' → C.inv s' → Q (.ok (guid, version, rows)) .idle s') :
    (updateTransaction book tx req).wp machine C Q .idle s := by
  refine wp_idle_read hR hs (Stmt.reads_queryE _) herr fun env r s₀ hs₀ hi₀ hx => ?_
  rcases r with _ | ⟨guid, version⟩
  · exact herr _ _ hs₀
  · have hfound : s₀.transactions.any (isTransaction guid book) := by
      obtain ⟨hx, -⟩ := Stmt.queryE_ok hx
      obtain ⟨g, -, hx⟩ := ok_bind hx
      obtain ⟨t, ht, he⟩ := Option.map_eq_some_iff.mp (Except.ok.inj hx)
      obtain ⟨rfl, -⟩ := Prod.mk.inj he
      have hp := List.find?_some ht
      simp only [Bool.and_eq_true, beq_iff_eq] at hp
      exact List.any_eq_true.mpr ⟨t, List.mem_of_find?_eq_some ht, by simp [isTransaction, hp.2]⟩
    refine wp_bind ?_
    cases hvalid : validSplits req.splits with
    | error e => exact herr e _ hs₀
    | ok splits =>
      dsimp only [Prog.ofExcept, wp, ret_bind]
      refine wp_bind ?_
      cases hsum : splitSum splits with
      | none => exact herr .panic _ hs₀
      | some sum =>
        dsimp only [orPanic, Prog.ofExcept, wp, ret_bind]
        split
        · exact herr _ _ hs₀
        split
        · exact herr _ _ hs₀
        rename_i hz htwo
        refine wp_inTx (fun s' e hr hi => herr _ _ (hR _ _ hs₀ hr hi)) fun s' hr hi => ?_
        have hfail : ∀ (e : Err) (ss : Sess SqlErr Lock Db) s, R s →
            ∀ s₂, C.rely s s₂ → C.inv s₂ → Q (.error e) .idle s₂ :=
          fun e ss s hs s₂ hr hi => herr e s₂ (hR _ _ hs hr hi)
        refine wp_bind (wp_mono (fun r ss s hr => ?_)
          (checkAccounts_wp hR splits (Pending.begin (hR _ _ hs₀ hr hi))))
        cases r with
        | error e => exact hfail e ss s hr
        | ok _ =>
          obtain ⟨hopen, h⟩ := hr
          refine wp_tx_read hR h (Stmt.reads_askEnv _) hfail
            fun now ss s h => ?_
          refine wp_tx_change (D := fun x y => ∃ f : Transaction → Transaction,
            (∀ t, (f t).guid = t.guid ∧ (f t).bookGuid = t.bookGuid ∧
              (f t).plaidTxnId = t.plaidTxnId) ∧
            (∃ date : GoTime, ∀ t, (f t).postDate = normalizePostDate date) ∧
            y = { x with transactions := updateWhere (isTransaction guid book) f x.transactions })
            hR h (fun env _ v x y _ _ hy => ?_) hfail fun _ ss s h => ?_
          · obtain ⟨⟨_, y'⟩, hb, rfl⟩ := ok_map hy
            obtain ⟨-, hb⟩ := require_bind (ok_of_failing hb)
            obtain ⟨-, rfl⟩ := Prod.mk.inj (Except.ok.inj hb)
            refine ⟨_, ?_, ⟨req.postDate, ?_⟩, rfl⟩
            · exact fun t => ⟨rfl, rfl, rfl⟩
            · exact fun t => rfl
          refine wp_tx_change (D := fun x y => ∃ s₁, R s₁ ∧ y = { x with
              splits := deleteWhere (chosen Split.guid (·.txGuid == guid) s₁.splits) x.splits })
            hR h (fun env s₁ v x y hs₁ hv hy => ?_) hfail fun _ ss s h => ?_
          · obtain ⟨_, rfl, f, -, -, rfl⟩ := hv
            exact ⟨_, hs₁, (Except.ok.inj hy).symm⟩
          refine wp_bind (wp_mono (fun r ss s hr => ?_) (insertSplits_wp hR 0 splits h))
          cases r with
          | error e => exact hfail e ss s hr
          | ok rows =>
            obtain ⟨hrows, ⟨f, held, rfl, hf⟩, hs⟩ := hr
            refine wp_commit (fun s' e hr hi => hfail _ .idle _ (hR _ _ hs hr hi))
              fun s' v hr hi hv => ?_
            obtain ⟨z, ⟨w, ⟨w', rfl, g, hg, hdate, rfl⟩, s₁, hs₁, rfl⟩, ha⟩ := hf s' v hv
            refine hcommit guid _ rows s₀ s₁ s' v hs₀ hfound hs₁ (hR _ _ hs hr hi) hi
              ⟨splits, sum, hvalid, hsum, by simpa using hz, Nat.le_of_not_lt htwo, hrows⟩ ?_
              fun row hrow => ?_
            · exact ⟨g, hg, hdate, by simp [ha.eq, Db.append]⟩
            · obtain ⟨v₁, ⟨s₂, z₂, hs₂, rfl, hadds⟩, ho⟩ := hopen.rows hrows row hrow
              obtain rfl : v₁ = s₂ := by simpa using hadds.eq
              exact ⟨v₁, hs₂, ho⟩

/-! ## Alone -/

/-- A specification for any contract is one of the call that runs alone. -/
theorem swp_of_idle_wp {α : Type} {p : Call α} {Q : Except Err α → Solo SqlErr Db → Prop} {s : Db}
    (h : p.wp machine (Contract.alone Stmt SqlErr Env Db) (fun r ss v => ss = .idle ∧ Q r (.idle v))
      .idle s) : p.swp machine Duty.none Q (.idle s) := by
  refine swp_mono (fun r t ht => ?_) (swp_of_wp (sameView_idle s) h)
  obtain ⟨ss, v, ⟨hd, hw⟩, rfl, hq⟩ := ht
  obtain ⟨db, work⟩ := t
  obtain rfl : db = v := hd
  obtain rfl : work = none := hw
  exact hq

theorem stable_alone (s : Db) : (Contract.alone Stmt SqlErr Env Db).Stable fun v => v = s :=
  fun x x' hx hr _ => by rw [← hx]; exact hr

theorem createTransaction_alone {book : Guid} {req : CreateTransactionRequest} {s : Db}
    {Q : Except Err (Transaction × List Split) → Solo SqlErr Db → Prop}
    (herr : ∀ e, Q (.error e) (.idle s))
    (hcommit : ∀ as t rows v, Created book req as t rows → Adds as [t] rows s v →
      (∀ row ∈ rows, (s.append as [] []).Open book row.accountGuid) →
      Placed ((s.append as [] []).Imbalance book) req as rows →
      Q (.ok (t, rows)) (.idle v)) :
    (createTransaction book req).swp machine Duty.none Q (.idle s) := by
  refine swp_of_idle_wp (createTransaction_wp (stable_alone s) rfl
    (fun e v hv => ⟨rfl, hv ▸ herr e⟩) ?_)
  rintro as t rows _ v rfl - hc ha hopen hplaced
  refine ⟨trivial, trivial, fun s' hs' _ => ⟨rfl, ?_⟩⟩
  rw [show s' = v from hs']
  refine hcommit as t rows v hc ha (fun row hrow => ?_) (hplaced.mono fun g hg => ?_)
  · obtain ⟨v₁, ⟨_, _, rfl, rfl, hadds⟩, ho⟩ := hopen row hrow
    exact hadds.eq ▸ ho
  · obtain ⟨v₁, ⟨_, _, rfl, rfl, hadds⟩, hg⟩ := hg
    exact hadds.eq ▸ hg

theorem updateTransaction_alone {book : Guid} {tx : GuidText} {req : UpdateTransactionRequest}
    {s : Db} {Q : Except Err (Guid × Nat × List Split) → Solo SqlErr Db → Prop}
    (herr : ∀ e, Q (.error e) (.idle s))
    (hcommit : ∀ guid version rows v, s.transactions.any (isTransaction guid book) →
      Chosen req guid rows → Updates book guid s.splits rows s v →
      (∀ row ∈ rows, s.Open book row.accountGuid) → Q (.ok (guid, version, rows)) (.idle v)) :
    (updateTransaction book tx req).swp machine Duty.none Q (.idle s) := by
  refine swp_of_idle_wp (updateTransaction_wp (stable_alone s) rfl
    (fun e v hv => ⟨rfl, hv ▸ herr e⟩) ?_)
  rintro guid version rows _ _ _ v rfl hfound rfl rfl - hc hu hopen
  refine ⟨trivial, trivial, fun s' hs' _ => ⟨rfl, ?_⟩⟩
  rw [show s' = v from hs']
  refine hcommit guid version rows v hfound hc hu fun row hrow => ?_
  obtain ⟨_, rfl, ho⟩ := hopen row hrow
  exact ho

end Antimoney
