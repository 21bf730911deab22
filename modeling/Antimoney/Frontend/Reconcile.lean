import Antimoney.Frontend.Register
import Antimoney.Restore.Keyed
import Mathlib.Tactic.Linarith

/-!
# The reconcile wizard

`components/ReconcileWizard.tsx`, as the Accounts page (no `accountType`) and an account's register
(the account's type) open it, together with the requests it makes. Numbers are exact instead of
floats, `parseFloat(endingBalance) || 0` is given.

The wizard reads the deposit and withdrawal columns by its `accountType` prop, the server filled
them by the stored type; and a split of another book's transaction is in the register but is neither
reconciled nor counted.

* `reconcileEach_swp`, `reconciledBalance_reconciled`: what a batch leaves, and what it adds to a
  reconciled balance.
* `Wizard.Opened.chosen`: what is selected is shown.
* **`wizard_finish_iff`**: the balance read again is the one shown exactly when the starting balance
  and what the wizard misread add up to the reconciled balance before.
-/

namespace Antimoney

open Antimoney.Lib Antimoney.Gnc Prog

/-! ## The wizard -/

structure Wizard where
  accountType : Option String
  startingBalance : ℚ
  entries : List RegisterEntry
  /-- A set, in the order of insertion. -/
  selected : List Guid

/-- `isCreditNormal`; without the prop it is false. -/
def creditNormalProp (accountType : Option String) : Bool := accountType.any isCreditNormal

/-- `e.deposit || e.withdrawal || 0`. -/
def columnAmount (e : RegisterEntry) : ℚ :=
  if e.deposit.getD 0 ≠ 0 then e.deposit.getD 0 else e.withdrawal.getD 0

/-- `es.filter(e => selected.has(e.split_guid)).reduce(…, 0)`. -/
def columnTotal (selected : List Guid) (es : List RegisterEntry) : ℚ :=
  ((es.filter fun e => selected.contains e.splitGuid).map columnAmount).sum

def Wizard.leftEntries (w : Wizard) : List RegisterEntry :=
  w.entries.filter fun e =>
    if creditNormalProp w.accountType then e.withdrawal.isSome else e.deposit.isSome

def Wizard.rightEntries (w : Wizard) : List RegisterEntry :=
  w.entries.filter fun e =>
    if creditNormalProp w.accountType then e.deposit.isSome else e.withdrawal.isSome

def Wizard.internalReconciledBalance (w : Wizard) : ℚ :=
  w.startingBalance + columnTotal w.selected w.leftEntries -
    columnTotal w.selected w.rightEntries

/-- A balance as it is displayed. -/
def Wizard.display (w : Wizard) (balance : ℚ) : ℚ :=
  if creditNormalProp w.accountType then -balance else balance

def Wizard.displayReconciledBalance (w : Wizard) : ℚ := w.display w.internalReconciledBalance

def Wizard.isBalanced (w : Wizard) (endingNum : ℚ) : Prop :=
  |endingNum - w.displayReconciledBalance| < 1 / 200

/-- `new Date(statementDate + 'T23:59:59Z')`. -/
def cutoff (statementDate : Day) : Time := statementDate * 86400 + 86399

/-- The entries of `handleStartReconcile`: unreconciled, up to the statement date, by date. -/
def unreconciledEntries (statementDate : Day) (regs : List (List RegisterEntry)) :
    List RegisterEntry :=
  (regs.flatten.filter fun e =>
    e.reconcileState != "y" && decide (e.postDate ≤ cutoff statementDate)).insertionSort
      fun a b => a.postDate ≤ b.postDate

/-- `Set.add`. -/
def addSelected (selected : List Guid) (g : Guid) : List Guid :=
  if selected.contains g then selected else selected ++ [g]

/-- The wizard after `handleStartReconcile`; the starting balance is 0 until it is loaded. -/
def Wizard.start (accountType : Option String) (statementDate : Day)
    (regs : List (List RegisterEntry)) : Wizard where
  accountType
  startingBalance := 0
  entries := unreconciledEntries statementDate regs
  selected := (((unreconciledEntries statementDate regs).filter (·.reconcileState == "c")).map
    (·.splitGuid)).foldl addSelected []

/-- `setStartingBalance(total)`. -/
def Wizard.load (w : Wizard) (balances : List ℚ) : Wizard :=
  { w with startingBalance := balances.sum }

def Wizard.toggleEntry (w : Wizard) (g : Guid) : Wizard :=
  { w with
    selected := if w.selected.contains g then w.selected.filter (· != g) else w.selected ++ [g] }

def Wizard.selectAll (w : Wizard) : Wizard :=
  { w with selected := (w.entries.map (·.splitGuid)).foldl addSelected [] }

def Wizard.deselectAll (w : Wizard) : Wizard := { w with selected := [] }

/-- `Promise.all(accountGuids.map(…))`, answered in a state that is not written. -/
def AsksEach {β : Type} (cfg : PlaidConfig) (book : Guid) (request : GuidText → Request)
    (answer : β → Response) (db : Db) (ids : List GuidText) (answers : List β) : Prop :=
  List.Forall₂ (fun id b => ∃ envs,
    serve (Event.request cfg book (request id)).call envs db = (.ok (answer b), db)) ids answers

/-- **What a wizard opened on accounts may come to**, by loading and selecting. -/
inductive Wizard.Opened (cfg : PlaidConfig) (book : Guid) (ids : List GuidText)
    (accountType : Option String) (db : Db) : Wizard → Prop
  | start {regs : List (List RegisterEntry)} (statementDate : Day)
      (hr : AsksEach cfg book .register .register db ids regs) :
      Opened cfg book ids accountType db (.start accountType statementDate regs)
  | load {w : Wizard} {balances : List ℚ} (hw : Opened cfg book ids accountType db w)
      (hb : AsksEach cfg book .reconciledBalance .balance db ids balances) :
      Opened cfg book ids accountType db (w.load balances)
  | toggle {w : Wizard} {e : RegisterEntry} (hw : Opened cfg book ids accountType db w)
      (he : e ∈ w.entries) : Opened cfg book ids accountType db (w.toggleEntry e.splitGuid)
  | selectAll {w : Wizard} (hw : Opened cfg book ids accountType db w) :
      Opened cfg book ids accountType db w.selectAll
  | deselectAll {w : Wizard} (hw : Opened cfg book ids accountType db w) :
      Opened cfg book ids accountType db w.deselectAll

/-- `handleFinish`, where it succeeds: the entered balance is matched, and the batch is answered. -/
structure Wizard.Finishes (w : Wizard) (endingNum : ℚ) (cfg : PlaidConfig) (book : Guid)
    (db db' : Db) : Prop where
  balanced : w.isBalanced endingNum
  answered : ∃ envs,
    mayServe (Event.request cfg book (.batchReconcile (w.selected.map Guid.text))).call envs db =
      true ∧
    serve (Event.request cfg book (.batchReconcile (w.selected.map Guid.text))).call envs db =
      (.ok .done, db')

/-! ## What the wizard misreads -/

/-- What a selected row adds to the balance shown, less what it adds to the one read again. -/
def misreadRow (accountType : Option String) (ty : String) (book : Guid)
    (r : Transaction × Split) : ℚ :=
  (if creditNormalProp accountType = isDebitNormal ty then -r.2.amount else r.2.amount) -
    if r.1.bookGuid = book then r.2.amount else 0

/-- The same of the selected rows of an account. -/
def Wizard.misread (w : Wizard) (db : Db) (book : Guid) (id : GuidText) : ℚ :=
  match db.accountNamed book id with
  | some (account, ty) => ((db.joinTxns fun _ s =>
      s.accountGuid == account && w.selected.contains s.guid).map
        (misreadRow w.accountType ty book)).sum
  | none => 0

/-- The reconciled balance of an account. -/
def Db.reconciledBalance (db : Db) (book account : Guid) : ℚ :=
  ((db.joinTxns fun t s => s.accountGuid == account && s.reconcileState == "y" &&
    t.bookGuid == book).map fun r => r.2.amount).sum

/-- The same of an account that a request names. -/
def Db.reconciledNamed (db : Db) (book : Guid) (id : GuidText) : ℚ :=
  match id.parse with
  | .ok account => db.reconciledBalance book account
  | .error _ => 0

/-! ## The requests -/

section Requests

variable {cfg : PlaidConfig} {book : Guid} {id : GuidText} {db db' v : Db} {envs : Nat → Env}

theorem serve_reconciledBalance {b : ℚ}
    (h : serve (Event.request cfg book (.reconciledBalance id)).call envs db =
      (.ok (.balance b), db')) : b = db.reconciledNamed book id := by
  obtain ⟨t, h, -⟩ := serve_ok h
  obtain ⟨b', v, hx, h⟩ := exec_ok h
  obtain rfl := Response.balance.inj (Except.ok.inj (congrArg Prod.fst h))
  obtain ⟨hx, -⟩ := Stmt.queryE_ok hx
  obtain ⟨account, hparse, hx⟩ := ok_bind hx
  obtain rfl := Except.ok.inj hx
  unfold Db.reconciledNamed Db.reconciledBalance
  rw [hparse, sumQuantities_eq, List.map_map]
  rfl

/-- A split after a batch: reconciled, if it is in the batch and in the book. -/
def Db.reconciledSplit (db : Db) (book : Guid) (gs : List Guid) (s : Split) : Split :=
  if gs.contains s.guid && s.reconcileState != "y" && db.splitInBook book s then
    { s with reconcileState := "y" }
  else s

/-- What a batch leaves. -/
def Db.reconciled (db : Db) (book : Guid) (gs : List Guid) : Db :=
  { db with splits := db.splits.map (db.reconciledSplit book gs) }

theorem Db.reconciled_nil (db : Db) (book : Guid) : db.reconciled book [] = db := by
  have hid : db.reconciledSplit book [] = id := by
    funext s
    simp [Db.reconciledSplit]
  unfold Db.reconciled
  rw [hid, List.map_id]

theorem Db.reconciled_cons (db : Db) (book g : Guid) (gs : List Guid) :
    (db.reconciled book [g]).reconciled book gs = db.reconciled book (g :: gs) := by
  have hsplit : ∀ s, db.reconciledSplit book gs (db.reconciledSplit book [g] s) =
      db.reconciledSplit book (g :: gs) s := by
    intro s
    unfold Db.reconciledSplit
    by_cases hg : s.guid = g <;> by_cases hy : s.reconcileState = "y" <;>
      by_cases hb : db.splitInBook book s = true <;> simp [hg, hy, hb]
  have hsame : (db.reconciled book [g]).reconciledSplit book gs = db.reconciledSplit book gs := rfl
  unfold Db.reconciled at hsame ⊢
  rw [hsame, List.map_map]
  congr 1
  exact List.map_congr_left fun s _ => hsplit s

theorem reconcileSplit_ok {g : Guid} {n : Nat} {env : Env}
    (h : (reconcileSplitStmt book (Guid.text g)).sem env v = .ok (n, db')) :
    db' = v.reconciled book [g] := by
  obtain ⟨g', hg, h⟩ := ok_bind (ok_of_failing h)
  obtain rfl : g = g' := Except.ok.inj hg
  obtain rfl := (Prod.mk.inj (Except.ok.inj h)).2
  unfold Db.reconciled updateWhere
  dsimp only
  congr 1
  refine List.map_congr_left fun s _ => ?_
  unfold Db.reconciledSplit
  by_cases hg : s.guid = g <;> simp [hg]

theorem reconcileEach_swp (gs : List Guid) :
    (reconcileEach book (gs.map Guid.text)).swp machine Duty.none
      (fun r t => ∀ u, r = .ok u → t = .tx db (v.reconciled book gs)) (.tx db v) := by
  induction gs generalizing v with
  | nil =>
    intro u _
    rw [v.reconciled_nil]
  | cons g gs ih =>
    refine swp_sql rfl (fun _ _ => trivial) (fun e u h => absurd h (by simp)) ?_
    intro env n v' _ hx
    obtain rfl := reconcileSplit_ok hx
    rw [← v.reconciled_cons]
    exact ih

/-- **What an answered batch leaves.** -/
theorem batchReconcile_db {gs : List Guid}
    (ha : mayServe (Event.request cfg book (.batchReconcile (gs.map Guid.text))).call envs db =
      true)
    (h : serve (Event.request cfg book (.batchReconcile (gs.map Guid.text))).call envs db =
      (.ok .done, db')) : db' = db.reconciled book gs := by
  have hbatch : (batchReconcileSplits book (gs.map Guid.text)).swp machine Duty.none
      (fun r t => ∀ u, r = .ok u → t.db = db.reconciled book gs) (.idle db) := by
    unfold batchReconcileSplits
    by_cases he : (gs.map Guid.text).isEmpty
    · rw [if_pos he]
      obtain rfl : gs = [] := by simpa using he
      intro u _
      exact db.reconciled_nil book |>.symm
    · rw [if_neg he]
      refine swp_inTx (fun _ _ => trivial) (fun _ _ => trivial) (fun e u h => absurd h (by simp)) ?_
      refine swp_bind (swp_mono (fun r t ht => ?_) (reconcileEach_swp gs))
      cases r with
      | error e => exact fun u hu => absurd hu (by simp)
      | ok u =>
        obtain rfl := ht u rfl
        exact swp_commit (fun _ _ => trivial) (fun e u h => absurd h (by simp)) fun _ _ => rfl
  have hcall : (Event.request cfg book (.batchReconcile (gs.map Guid.text))).call.swp machine
      Duty.none (fun r t => ∀ u, r = .ok u → t.db = db.reconciled book gs) (.idle db) := by
    refine swp_bind (swp_mono (fun r t ht => ?_) hbatch)
    cases r with
    | error e => exact fun u hu => absurd hu (by simp)
    | ok u => exact fun _ _ => ht u rfl
  have hrun := run_of_swp hcall ha
  obtain ⟨hres, hdb⟩ := Prod.mk.inj h
  rw [← hdb]
  exact hrun .done hres

end Requests

/-! ## Sums over joined rows -/

section Sums

variable {db : Db} {book account : Guid} {gs : List Guid}

/-- A sum over joined rows, split by split. -/
theorem joinTxns_sum (p : Transaction → Split → Bool) (f : Transaction × Split → ℚ) :
    ((db.joinTxns p).map f).sum = (db.splits.map fun s =>
      ((db.transactions.find? (·.guid == s.txGuid)).map fun t =>
        if p t s then f (t, s) else 0).getD 0).sum := by
  unfold Db.joinTxns
  induction db.splits with
  | nil => rfl
  | cons s splits ih =>
    rw [List.filterMap_cons, List.map_cons, List.sum_cons, ← ih]
    cases db.transactions.find? (·.guid == s.txGuid) with
    | none => simp
    | some t => by_cases hp : p t s <;> simp [hp]

/-- Two sums over joined rows make one, when they do row by row. -/
theorem joinTxns_sum_add {p q r : Transaction → Split → Bool} {f g h : Transaction × Split → ℚ}
    (hrow : ∀ s ∈ db.splits, ∀ t, (if p t s then f (t, s) else 0) + (if q t s then g (t, s) else 0) =
      if r t s then h (t, s) else 0) :
    ((db.joinTxns p).map f).sum + ((db.joinTxns q).map g).sum = ((db.joinTxns r).map h).sum := by
  rw [joinTxns_sum, joinTxns_sum, joinTxns_sum, ← List.sum_map_add]
  refine congrArg List.sum (List.map_congr_left fun s hs => ?_)
  cases db.transactions.find? (·.guid == s.txGuid) with
  | none => simp
  | some t => simpa using hrow s hs t

/-- **What a batch adds to a reconciled balance**: the amounts of its splits in the account, in the
book. -/
theorem reconciledBalance_reconciled
    (hnew : ∀ s ∈ db.splits, gs.contains s.guid = true → s.reconcileState ≠ "y") :
    (db.reconciled book gs).reconciledBalance book account =
      db.reconciledBalance book account + ((db.joinTxns fun t s => s.accountGuid == account &&
        gs.contains s.guid && t.bookGuid == book).map fun r => r.2.amount).sum := by
  unfold Db.reconciledBalance
  rw [joinTxns_sum, joinTxns_sum, joinTxns_sum, ← List.sum_map_add]
  have hsplits : (db.reconciled book gs).splits = db.splits.map (db.reconciledSplit book gs) := rfl
  rw [hsplits, List.map_map]
  refine congrArg List.sum (List.map_congr_left fun s hs => ?_)
  have htx : (db.reconciledSplit book gs s).txGuid = s.txGuid := by
    unfold Db.reconciledSplit
    split <;> rfl
  have htransactions : (db.reconciled book gs).transactions = db.transactions := rfl
  rw [Function.comp_apply, htx, htransactions]
  cases ht : db.transactions.find? (·.guid == s.txGuid) with
  | none => simp
  | some t =>
    have hguid : t.guid = s.txGuid := by simpa using List.find?_some ht
    have hin : t.bookGuid = book → db.splitInBook book s = true := by
      intro hb
      exact List.any_eq_true.mpr ⟨t, List.mem_of_find?_eq_some ht, by simp [hguid, hb]⟩
    simp only [Option.map_some, Option.getD_some]
    by_cases hb : t.bookGuid = book
    · have hin := hin hb
      by_cases hg : gs.contains s.guid = true
      · have hne := hnew s hs hg
        have hit : db.reconciledSplit book gs s = { s with reconcileState := "y" } :=
          if_pos (by rw [hg, hin]; simp [hne])
        rw [hit, hg]
        by_cases ha : s.accountGuid = account <;> simp [hne, hb, ha, Split.amount]
      · have hkept : db.reconciledSplit book gs s = s :=
          if_neg fun h => hg (Bool.and_eq_true_iff.mp (Bool.and_eq_true_iff.mp h).1).1
        rw [hkept, Bool.eq_false_iff.mpr hg]
        simp
    · simp [hb]

end Sums

/-! ## The entries and their rows -/

section Rows

variable {ty : String} {acc : Numeric} {db : Db} {account book : Guid}
  {rows : List (Transaction × Split)} {entries : List RegisterEntry} {accountType : Option String}

/-- An entry of a row, as the wizard uses it. -/
structure Reads (ty : String) (e : RegisterEntry) (r : Transaction × Split) : Prop where
  guid : e.splitGuid = r.2.guid
  state : e.reconcileState = r.2.reconcileState
  postDate : e.postDate = r.1.postDate
  /-- One column is empty. -/
  column : e.deposit.isSome = !e.withdrawal.isSome
  quantity : e.quantity ty = r.2.amount

theorem reads_entryOf {r : Transaction × Split} {amount balance : Numeric}
    (hx : NewExact r.2.qty) (h : rowAmount r = some amount) :
    Reads ty (entryOf ty r amount balance) r where
  guid := rfl
  state := rfl
  postDate := rfl
  column := by
    unfold entryOf depositWithdrawal
    by_cases ht : isDebitNormal ty = true
    · rcases le_or_gt 0 (toFloat64 amount) with h | h
      · simp [ht, h]
      · simp [ht, not_le.mpr h]
    · rcases le_or_gt (toFloat64 amount) 0 with h | h
      · simp [ht, h]
      · simp [ht, not_le.mpr h]
  quantity := by
    have h0 : r.2.qty.2 ≠ 0 := by
      intro h0
      have hnone : rowAmount r = none := by
        unfold rowAmount Numeric.new
        exact if_pos h0
      rw [hnone] at h
      exact absurd h (by simp)
    obtain ⟨v, hv, -, hval⟩ := rowAmount_exact ⟨h0, hx⟩
    obtain rfl := Option.some.inj (h.symm.trans hv)
    rw [quantity_entryOf, hval]
    rfl

theorem registerEntries_reads (hx : ∀ r ∈ rows, NewExact r.2.qty)
    (h : registerEntries ty acc rows = some entries) :
    List.Forall₂ (Reads ty) (entries.map (db.transferred account)) rows := by
  induction rows generalizing acc entries with
  | nil =>
    obtain rfl := Option.some.inj h
    exact .nil
  | cons r rows ih =>
    rw [registerEntries_cons] at h
    simp only [Option.bind_eq_some_iff, Option.map_eq_some_iff] at h
    obtain ⟨amount, ham, balance, -, es, hes, rfl⟩ := h
    have hr : Reads ty (entryOf ty r amount balance) r :=
      reads_entryOf (hx r List.mem_cons_self) ham
    exact .cons ⟨hr.guid, hr.state, hr.postDate, hr.column, hr.quantity⟩
      (ih (fun x hx' => hx x (.tail _ hx')) hes)

/-- What an entry adds to the balance shown, where it is selected. -/
def contribution (accountType : Option String) (e : RegisterEntry) : ℚ :=
  if creditNormalProp accountType then e.withdrawal.getD 0 - e.deposit.getD 0
  else e.deposit.getD 0 - e.withdrawal.getD 0

theorem Reads.contribution {e : RegisterEntry} {r : Transaction × Split} (h : Reads ty e r) :
    contribution accountType e =
      if creditNormalProp accountType = isDebitNormal ty then -r.2.amount else r.2.amount := by
  rw [← h.quantity]
  unfold Antimoney.contribution RegisterEntry.quantity
  cases creditNormalProp accountType <;> cases isDebitNormal ty <;> simp

/-- A selected entry's amount is in the column that it fills. -/
theorem columnAmount_eq {e : RegisterEntry} (h : e.deposit.isSome = !e.withdrawal.isSome) :
    columnAmount e = e.deposit.getD 0 + e.withdrawal.getD 0 := by
  unfold columnAmount
  cases hd : e.deposit with
  | none => simp
  | some d =>
    obtain hw : e.withdrawal = none := by simpa [hd] using h
    by_cases h0 : d = 0 <;> simp [hw, h0]

theorem columnTotal_filter (selected : List Guid) (p : RegisterEntry → Bool)
    (es : List RegisterEntry) : columnTotal selected (es.filter p) =
      ((es.filter fun e => selected.contains e.splitGuid).map fun e =>
        if p e then columnAmount e else 0).sum := by
  unfold columnTotal
  rw [← sum_map_filter p, List.filter_filter, List.filter_filter]
  congr 2
  exact List.filter_congr fun e _ => Bool.and_comm ..

/-- The totals of the two columns are the contributions. -/
theorem internalReconciledBalance_eq {w : Wizard}
    (h : ∀ e ∈ w.entries, e.deposit.isSome = !e.withdrawal.isSome) :
    w.internalReconciledBalance = w.startingBalance +
      ((w.entries.filter fun e => w.selected.contains e.splitGuid).map
        (contribution w.accountType)).sum := by
  have hcolumns : columnTotal w.selected w.leftEntries =
      ((w.entries.filter fun e => w.selected.contains e.splitGuid).map
        (contribution w.accountType)).sum + columnTotal w.selected w.rightEntries := by
    unfold Wizard.leftEntries Wizard.rightEntries
    rw [columnTotal_filter, columnTotal_filter, ← List.sum_map_add]
    refine congrArg List.sum (List.map_congr_left fun e he => ?_)
    have hcol := h e (List.mem_of_mem_filter he)
    rw [columnAmount_eq hcol]
    unfold Antimoney.contribution
    cases hd : e.deposit <;> cases hw : e.withdrawal <;>
      cases creditNormalProp w.accountType <;> simp_all
  unfold Wizard.internalReconciledBalance
  rw [hcolumns]
  ring

end Rows

/-! ## What is selected is shown -/

section Opened

variable {cfg : PlaidConfig} {book : Guid} {ids : List GuidText} {accountType : Option String}
  {db : Db} {w : Wizard}

theorem mem_addSelected {gs : List Guid} {g g' : Guid} :
    g ∈ addSelected gs g' ↔ g ∈ gs ∨ g = g' := by
  unfold addSelected
  by_cases h : gs.contains g' = true
  · rw [if_pos h]
    have hmem := List.contains_iff_mem.mp h
    constructor
    · exact Or.inl
    · rintro (hg | rfl)
      · exact hg
      · exact hmem
  · rw [if_neg h]
    simp

theorem mem_foldl_addSelected {gs new : List Guid} {g : Guid} :
    g ∈ new.foldl addSelected gs ↔ g ∈ gs ∨ g ∈ new := by
  induction new generalizing gs with
  | nil => simp
  | cons g' new ih => rw [List.foldl_cons, ih, mem_addSelected, List.mem_cons, or_assoc]

/-- The entries a wizard shows, and what is selected of them. -/
structure Wizard.Chosen (w : Wizard) (accountType : Option String) (statementDate : Day)
    (regs : List (List RegisterEntry)) : Prop where
  accountType : w.accountType = accountType
  entries : w.entries = unreconciledEntries statementDate regs
  selected : ∀ g ∈ w.selected, ∃ e ∈ w.entries, e.splitGuid = g

/-- **What is selected is shown.** -/
theorem Wizard.Opened.chosen (h : w.Opened cfg book ids accountType db) :
    ∃ day regs, AsksEach cfg book .register .register db ids regs ∧
      w.Chosen accountType day regs := by
  induction h with
  | @start regs day hr =>
    refine ⟨day, regs, hr, rfl, rfl, fun g hg => ?_⟩
    obtain hg | hg := mem_foldl_addSelected.mp hg
    · exact absurd hg (by simp)
    · obtain ⟨e, he, rfl⟩ := List.mem_map.mp hg
      exact ⟨e, List.mem_of_mem_filter he, rfl⟩
  | load _ _ ih =>
    obtain ⟨day, regs, hr, hc⟩ := ih
    exact ⟨day, regs, hr, hc.accountType, hc.entries, hc.selected⟩
  | @toggle w e _ he ih =>
    obtain ⟨day, regs, hr, hc⟩ := ih
    refine ⟨day, regs, hr, hc.accountType, hc.entries, fun g hg => ?_⟩
    unfold Wizard.toggleEntry at hg
    dsimp only at hg
    split at hg
    · exact hc.selected g (List.mem_of_mem_filter hg)
    · rcases List.mem_append.mp hg with hg | hg
      · exact hc.selected g hg
      · exact ⟨e, he, (List.mem_singleton.mp hg).symm⟩
  | selectAll _ ih =>
    obtain ⟨day, regs, hr, hc⟩ := ih
    refine ⟨day, regs, hr, hc.accountType, hc.entries, fun g hg => ?_⟩
    obtain hg | hg := mem_foldl_addSelected.mp hg
    · exact absurd hg (by simp)
    · exact List.mem_map.mp hg
  | deselectAll _ ih =>
    obtain ⟨day, regs, hr, hc⟩ := ih
    exact ⟨day, regs, hr, hc.accountType, hc.entries, fun g hg => absurd hg (by simp [Wizard.deselectAll])⟩

end Opened

/-! ## One account -/

section Account

variable {cfg : PlaidConfig} {book : Guid} {id : GuidText} {db : Db} {w : Wizard} {day : Day}
  {es : List RegisterEntry}

theorem mem_joinTxns {p : Transaction → Split → Bool} {r : Transaction × Split}
    (h : r ∈ db.joinTxns p) :
    r.2 ∈ db.splits ∧ db.transactions.find? (·.guid == r.2.txGuid) = some r.1 := by
  obtain ⟨s, hs, h⟩ := List.mem_filterMap.mp h
  obtain ⟨t, ht, h⟩ := Option.bind_eq_some_iff.mp h
  split at h
  · obtain rfl := Option.some.inj h
    exact ⟨hs, ht⟩
  · exact absurd h (by simp)

/-- The entries of an account that a request names are those of its rows. -/
def Listed (db : Db) (book : Guid) (id : GuidText) (es : List RegisterEntry) : Prop :=
  ∃ account ty rows, db.accountNamed book id = some (account, ty) ∧
    rows.Perm (db.joinTxns fun _ s => s.accountGuid == account) ∧ List.Forall₂ (Reads ty) es rows

theorem listed_of_serve {envs : Nat → Env} (hx : ∀ s ∈ db.splits, NewExact s.qty)
    (h : serve (Event.request cfg book (.register id)).call envs db = (.ok (.register es), db)) :
    Listed db book id es := by
  obtain ⟨account, ty, entries, hnamed, hentries, rfl⟩ := serve_register h
  have hperm := List.perm_insertionSort (registerLe (envs 1).ties)
    (db.joinTxns fun _ s => s.accountGuid == account)
  refine ⟨account, ty, _, hnamed, hperm, registerEntries_reads (fun r hr => ?_) hentries⟩
  exact hx r.2 (mem_joinTxns (hperm.mem_iff.mp hr)).1

/-- The selected splits are unreconciled and dated up to the statement date. -/
def Wizard.Selects (w : Wizard) (db : Db) (day : Day) : Prop :=
  ∀ s ∈ db.splits, w.selected.contains s.guid = true → s.reconcileState ≠ "y" ∧
    ∀ t, db.transactions.find? (·.guid == s.txGuid) = some t → t.postDate ≤ cutoff day

theorem Wizard.Chosen.selects {accountType : Option String} {ids : List GuidText}
    {regs : List (List RegisterEntry)} (hc : w.Chosen accountType day regs)
    (hn : (db.splits.map (·.guid)).Nodup) (hl : List.Forall₂ (Listed db book) ids regs) :
    w.Selects db day := by
  intro s hs hsel
  obtain ⟨e, he, hg⟩ := hc.selected _ (List.contains_iff_mem.mp hsel)
  rw [hc.entries] at he
  have he := List.mem_filter.mp ((List.mem_insertionSort _).mp he)
  obtain ⟨es, hes, hmem⟩ := List.mem_flatten.mp he.1
  obtain ⟨id, -, account, ty, rows, -, hperm, hreads⟩ := exists_of_forall₂ hl hes
  obtain ⟨r, hr, hread⟩ := exists_of_forall₂ hreads.flip hmem
  obtain ⟨hsplit, htx⟩ := mem_joinTxns (hperm.mem_iff.mp hr)
  obtain rfl : r.2 = s := List.inj_on_of_nodup_map hn hsplit hs (hread.guid.symm.trans hg)
  simp only [Bool.and_eq_true, bne_iff_ne, decide_eq_true_eq] at he
  refine ⟨hread.state ▸ he.2.1, fun t ht => ?_⟩
  obtain rfl := Option.some.inj (htx.symm.trans ht)
  exact hread.postDate ▸ he.2.2

/-- What the selected entries of a register contribute. -/
def Wizard.contributed (w : Wizard) (day : Day) (es : List RegisterEntry) : ℚ :=
  (((es.filter fun e => e.reconcileState != "y" && decide (e.postDate ≤ cutoff day)).filter
    fun e => w.selected.contains e.splitGuid).map (contribution w.accountType)).sum

/-- **One account**: what its selected entries contribute, and what the batch adds to its balance,
differ by what the wizard misreads. -/
theorem Wizard.Selects.account (h : w.Selects db day) (hl : Listed db book id es) :
    w.contributed day es + db.reconciledNamed book id =
      w.misread db book id + (db.reconciled book w.selected).reconciledNamed book id := by
  obtain ⟨account, ty, rows, hnamed, hperm, hreads⟩ := hl
  let signed := fun r : Transaction × Split =>
    if creditNormalProp w.accountType = isDebitNormal ty then -r.2.amount else r.2.amount
  have hshown : w.contributed day es = ((db.joinTxns fun _ s => s.accountGuid == account &&
      w.selected.contains s.guid).map signed).sum := by
    have hrows : es.map (fun e => if e.reconcileState != "y" && decide (e.postDate ≤ cutoff day) then
        if w.selected.contains e.splitGuid then contribution w.accountType e else 0 else 0) =
        rows.map fun r => if w.selected.contains r.2.guid then signed r else 0 := by
      refine map_eq_iff_forall₂.mpr ((forall₂_mem_right hreads).imp fun e r he => ?_)
      obtain ⟨hr, hread⟩ := he
      obtain ⟨hsplit, htx⟩ := mem_joinTxns (hperm.mem_iff.mp hr)
      rw [hread.guid]
      by_cases hsel : w.selected.contains r.2.guid = true
      · obtain ⟨hstate, hdate⟩ := h r.2 hsplit hsel
        have hunread : (e.reconcileState != "y" && decide (e.postDate ≤ cutoff day)) = true := by
          rw [hread.state, hread.postDate]
          simp [hstate, hdate _ htx]
        rw [if_pos hunread, if_pos hsel, if_pos hsel, hread.contribution]
      · rw [if_neg hsel, if_neg hsel, ite_self]
    unfold Wizard.contributed
    rw [sum_map_filter, sum_map_filter, hrows, (hperm.map _).sum_eq, joinTxns_sum, joinTxns_sum]
    refine congrArg List.sum (List.map_congr_left fun s _ => ?_)
    cases db.transactions.find? (·.guid == s.txGuid) with
    | none => rfl
    | some t => by_cases ha : s.accountGuid = account <;> simp [ha]
  have hmisread : w.misread db book id + ((db.joinTxns fun t s => s.accountGuid == account &&
      w.selected.contains s.guid && t.bookGuid == book).map fun r => r.2.amount).sum =
        ((db.joinTxns fun _ s => s.accountGuid == account &&
          w.selected.contains s.guid).map signed).sum := by
    unfold Wizard.misread
    rw [hnamed]
    refine joinTxns_sum_add fun s _ t => ?_
    unfold misreadRow
    cases s.accountGuid == account && w.selected.contains s.guid with
    | false => simp
    | true => by_cases hb : t.bookGuid = book <;> simp [hb, signed]
  have hbalance : (db.reconciled book w.selected).reconciledNamed book id =
      db.reconciledNamed book id + ((db.joinTxns fun t s => s.accountGuid == account &&
        w.selected.contains s.guid && t.bookGuid == book).map fun r => r.2.amount).sum := by
    unfold Db.reconciledNamed
    rw [accountNamed_parse hnamed]
    exact reconciledBalance_reconciled fun s hs hsel => (h s hs hsel).1
  rw [hshown, hbalance, ← hmisread]
  ring

/-- All accounts together. -/
theorem Wizard.Selects.accounts {ids : List GuidText} {regs : List (List RegisterEntry)}
    (h : w.Selects db day) (hl : List.Forall₂ (Listed db book) ids regs) :
    (regs.map (w.contributed day)).sum + (ids.map (db.reconciledNamed book)).sum =
      (ids.map (w.misread db book)).sum +
        (ids.map ((db.reconciled book w.selected).reconciledNamed book)).sum := by
  induction hl with
  | nil => simp
  | cons hone _ ih =>
    simp only [List.map_cons, List.sum_cons]
    linarith only [h.account hone, ih]

/-- The balance a wizard shows, register by register. -/
theorem Wizard.Chosen.internal {accountType : Option String} {ids : List GuidText}
    {regs : List (List RegisterEntry)} (hc : w.Chosen accountType day regs)
    (hl : List.Forall₂ (Listed db book) ids regs) :
    w.internalReconciledBalance = w.startingBalance + (regs.map (w.contributed day)).sum := by
  have hcolumns : ∀ e ∈ w.entries, e.deposit.isSome = !e.withdrawal.isSome := by
    intro e he
    rw [hc.entries] at he
    have he := (List.mem_filter.mp ((List.mem_insertionSort _).mp he)).1
    obtain ⟨es, hes, hmem⟩ := List.mem_flatten.mp he
    obtain ⟨id, -, account, ty, rows, -, -, hreads⟩ := exists_of_forall₂ hl hes
    obtain ⟨r, -, hread⟩ := exists_of_forall₂ hreads.flip hmem
    exact hread.column
  have hperm : w.entries.Perm (regs.flatten.filter fun e =>
      e.reconcileState != "y" && decide (e.postDate ≤ cutoff day)) :=
    hc.entries ▸ List.perm_insertionSort _ _
  rw [internalReconciledBalance_eq hcolumns, ((hperm.filter _).map _).sum_eq, List.filter_flatten,
    List.filter_flatten, List.map_flatten, List.sum_flatten]
  simp only [List.map_map, Function.comp_def]
  rfl

end Account

/-- **The balance the wizard finishes on** is the one it showed exactly when its starting balance and
what it misread of the selected splits add up to the reconciled balance before. -/
theorem wizard_finish_iff {cfg : PlaidConfig} {book : Guid} {ids : List GuidText}
    {accountType : Option String} {db db' : Db} {w : Wizard} {endingNum : ℚ} {balances : List ℚ}
    (hk : db.Keyed) (hx : ∀ s ∈ db.splits, NewExact s.qty)
    (hw : w.Opened cfg book ids accountType db) (hf : w.Finishes endingNum cfg book db db')
    (hb : AsksEach cfg book .reconciledBalance .balance db' ids balances) :
    w.display balances.sum = w.displayReconciledBalance ↔
      w.startingBalance + (ids.map (w.misread db book)).sum =
        (ids.map (db.reconciledNamed book)).sum := by
  obtain ⟨day, regs, hregs, hc⟩ := hw.chosen
  obtain ⟨envs, hmay, hserved⟩ := hf.answered
  obtain rfl := batchReconcile_db hmay hserved
  have hlisted : List.Forall₂ (Listed db book) ids regs :=
    hregs.imp fun id es h => h.elim fun envs h => listed_of_serve hx h
  have hselects := hc.selects hk.splits hlisted
  have hbalances : balances.sum =
      (ids.map ((db.reconciled book w.selected).reconciledNamed book)).sum := by
    have hone : ids.map ((db.reconciled book w.selected).reconciledNamed book) =
        balances.map id :=
      map_eq_iff_forall₂.mpr (hb.imp fun _ _ h => h.elim fun _ h => (serve_reconciledBalance h).symm)
    rw [hone, List.map_id]
  have hinternal : w.display balances.sum = w.displayReconciledBalance ↔
      balances.sum = w.internalReconciledBalance := by
    unfold Wizard.displayReconciledBalance Wizard.display
    split
    · exact neg_inj
    · exact Iff.rfl
  have hall := hselects.accounts hlisted
  rw [hinternal, hbalances, hc.internal hlisted]
  constructor
  · intro h
    linarith only [h, hall]
  · intro h
    linarith only [h, hall]

/-! ## A credit card -/

/-- A registered user who bought food with the credit card. -/
def chargedCard : Db :=
  (serve (Event.request plainConfig 3 (.createTransaction
    ⟨"1", ⟨19000, 0⟩, "food", none, [⟨Guid.text 15, "", -1000, 100, -1000, 100, ""⟩,
      ⟨Guid.text 18, "", 1000, 100, 1000, 100, ""⟩]⟩)).call (calm 100) registered).2

theorem chargedCard_runs {ok : Event → (Nat → Env) → Db → Prop} (hok : ∀ e envs db, ok e envs db) :
    Runs ok chargedCard :=
  .step _ _ (registered_runs (hok _ _ _)) (by decide +kernel) (hok _ _ _)

/-- The purchase in the card's register. -/
def cardEntry : RegisterEntry :=
  ⟨103, "1", 1641639600, "food", "Alimentação", some 18, some 10, none, -10, "", 106, "n"⟩

theorem chargedCard_register :
    serve (Event.request plainConfig 3 (.register (Guid.text 15))).call (calm 200) chargedCard =
      (.ok (.register [cardEntry]), chargedCard) := by
  decide +kernel

/-- The wizard of the card, with the purchase selected. -/
def cardWizard (accountType : Option String) : Wizard :=
  ((Wizard.start accountType 19000 [[cardEntry]]).load [0]).selectAll

theorem cardWizard_opened (accountType : Option String) :
    (cardWizard accountType).Opened plainConfig 3 [Guid.text 15] accountType chargedCard := by
  have hbalance : serve (Event.request plainConfig 3 (.reconciledBalance (Guid.text 15))).call
      (calm 200) chargedCard = (.ok (.balance 0), chargedCard) := by decide +kernel
  exact .selectAll (.load (.start 19000 (.cons ⟨_, chargedCard_register⟩ .nil)) (.cons ⟨_, hbalance⟩ .nil))

/-- Finishing on what it shows reconciles the purchase. -/
theorem cardWizard_finishes {accountType : Option String}
    (h : (cardWizard accountType).displayReconciledBalance = 10) :
    (cardWizard accountType).Finishes 10 plainConfig 3 chargedCard
      (chargedCard.reconciled 3 [106]) := by
  constructor
  · unfold Wizard.isBalanced
    rw [h]
    norm_num
  · have hmay : mayServe (Event.request plainConfig 3 (.batchReconcile [Guid.text 106])).call
        (calm 200) chargedCard = true := by decide +kernel
    have hserved : serve (Event.request plainConfig 3 (.batchReconcile [Guid.text 106])).call
        (calm 200) chargedCard = (.ok .done, chargedCard.reconciled 3 [106]) := by decide +kernel
    exact ⟨calm 200, hmay, hserved⟩

/-- The balance that is read again. -/
theorem chargedCard_reconciled : AsksEach plainConfig 3 .reconciledBalance .balance
    (chargedCard.reconciled 3 [106]) [Guid.text 15] [-10] := by
  have hbalance : serve (Event.request plainConfig 3 (.reconciledBalance (Guid.text 15))).call
      (calm 300) (chargedCard.reconciled 3 [106]) =
        (.ok (.balance (-10)), chargedCard.reconciled 3 [106]) := by decide +kernel
  exact .cons ⟨_, hbalance⟩ .nil

/-- Opened from the card's register, the wizard finishes on the balance it shows. -/
theorem wizard_finish_chargedCard : (cardWizard (some "CREDIT")).display [(-10 : ℚ)].sum =
    (cardWizard (some "CREDIT")).displayReconciledBalance := by
  have hexact : ∀ s ∈ chargedCard.splits, NewExact s.qty := by
    unfold NewExact
    decide +kernel
  exact (wizard_finish_iff (chargedCard_runs fun _ _ _ => trivial).keyed hexact
    (cardWizard_opened _) (cardWizard_finishes (by decide +kernel)) chargedCard_reconciled).mpr
    (by decide +kernel)

/-- Opened from the Accounts page it shows `10` and finishes on `-10`. -/
theorem wizard_not_finish : ∃ (db db' : Db) (w : Wizard) (endingNum : ℚ) (balances : List ℚ),
    Runs (fun _ _ _ => True) db ∧ w.Opened plainConfig 3 [Guid.text 15] none db ∧
    w.Finishes endingNum plainConfig 3 db db' ∧
    AsksEach plainConfig 3 .reconciledBalance .balance db' [Guid.text 15] balances ∧
    w.display balances.sum ≠ w.displayReconciledBalance := by
  have hshown : (cardWizard none).displayReconciledBalance = 10 := by decide +kernel
  have hread : (cardWizard none).display [(-10 : ℚ)].sum = -10 := by decide +kernel
  refine ⟨_, _, _, _, _, chargedCard_runs fun _ _ _ => trivial, cardWizard_opened none,
    cardWizard_finishes hshown, chargedCard_reconciled, ?_⟩
  rw [hshown, hread]
  norm_num

end Antimoney
