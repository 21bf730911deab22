import Antimoney.Ledger.Create
import Antimoney.Lib.Journal
import Antimoney.Writes
import Mathlib.Algebra.Order.Field.Rat

/-!
# The ledger as a journal

The transactions of the database are the keys of a journal, and the amounts of their splits its
entries. The ledger is in order (`Ledger`) when every transaction balances.

* **`balances_of_gate`**: the gate of `CreateTransaction` and its auto-balancing split make a
  balanced transaction when the arithmetic is exact.
* **`Quiet.ledger`**: no quiet statement disturbs the ledger.
-/

namespace Antimoney

open Antimoney.Lib Antimoney.Gnc

/-! ## The invariant -/

/-- The value of a stored split. -/
def Split.fraction (s : Split) : Fraction := (s.valueNum, s.valueDenom)

/-- The value of an exported split. -/
def ExportSplit.fraction (s : ExportSplit) : Fraction := (s.valueNum, s.valueDenom)

/-- Amounts that make a transaction: two at least, with an exact sum that is zero. -/
structure Balances (fs : List Fraction) : Prop where
  two : 2 ≤ fs.length
  denom : ∀ f ∈ fs, f.2 ≠ 0
  zero : exactSum fs = 0

/-- The splits of a transaction. -/
def Db.splitsOf (db : Db) (tx : Guid) : List Split := db.splits.filter (·.txGuid == tx)

/-- **Double entry**: the splits of every stored transaction balance. -/
def Db.DoubleEntry (db : Db) : Prop :=
  ∀ t ∈ db.transactions, Balances ((db.splitsOf t.guid).map Split.fraction)

/-- The amounts of an exported transaction. -/
def ExportTransaction.amounts (t : ExportTransaction) : List Fraction :=
  t.splits.map ExportSplit.fraction

/-- Every transaction of a file balances. -/
def ExportData.Balanced (data : ExportData) : Prop := ∀ t ∈ data.transactions, Balances t.amounts

/-- Transactions as keys, split amounts as entries. -/
def Db.journal (db : Db) : Journal Guid Fraction :=
  ⟨db.transactions.map (·.guid), db.splits.map fun s => (s.txGuid, s.fraction)⟩

/-- The ledger is in order, and so is what may become part of it: the bank's amounts are in cents,
and the snapshots balance. -/
structure Ledger (db : Db) : Prop where
  sound : db.journal.Sound Balances
  cents : ∀ st ∈ db.staged, st.amountDenom = 100
  snapshots : ∀ s ∈ db.snapshots, s.data.Balanced

theorem Db.journal_group (db : Db) (tx : Guid) :
    db.journal.group tx = (db.splitsOf tx).map Split.fraction := by
  simp only [journal, Journal.group, splitsOf, List.filter_map, List.map_map]
  rfl

theorem Ledger.doubleEntry {db : Db} (h : Ledger db) : db.DoubleEntry := by
  intro t ht
  rw [← db.journal_group]
  exact h.sound.each _ (List.mem_map_of_mem ht)

theorem ledger_empty : Ledger Db.empty :=
  ⟨⟨List.nodup_nil, fun _ h => absurd h (by simp [Db.journal, Db.empty]),
    fun _ h => absurd h (by simp [Db.journal, Db.empty])⟩,
    fun _ h => absurd h (by simp [Db.empty]), fun _ h => absurd h (by simp [Db.empty])⟩

/-- What leaves the journal alone, stages cents and makes no snapshot keeps the ledger. -/
theorem Ledger.frame {db db' : Db} (h : Ledger db) (hj : db'.journal = db.journal)
    (hc : ∀ st ∈ db'.staged, st.amountDenom = 100)
    (hs : ∀ s ∈ db'.snapshots, s ∈ db.snapshots) : Ledger db' :=
  ⟨hj ▸ h.sound, hc, fun s m => h.snapshots s (hs s m)⟩

/-! ## The gate -/

/-- The amounts of a request that count: splits of value zero are dropped. -/
def amounts (splits : List CreateSplitRequest) : List Fraction :=
  (splits.filter (·.valueNum != 0)).map CreateSplitRequest.fraction

/-- The request is not refused for a zero denominator. -/
def DenomsOk (splits : List CreateSplitRequest) : Prop :=
  ∀ sp ∈ splits, sp.valueNum ≠ 0 → sp.valueDenom ≠ 0 ∧ sp.quantityDenom ≠ 0

/-- The valid splits are those with a value. -/
theorem validSplits_filter {splits valid : List CreateSplitRequest}
    (h : validSplits splits = .ok valid) :
    DenomsOk splits ∧ valid = splits.filter (·.valueNum != 0) := by
  induction splits generalizing valid with
  | nil =>
    obtain rfl := Except.ok.inj h
    exact ⟨fun _ h => absurd h (by simp), rfl⟩
  | cons sp rest ih =>
    unfold validSplits at h
    split at h
    · rename_i h0
      obtain ⟨hd, rfl⟩ := ih h
      refine ⟨fun x hx hne => ?_, by simp [h0]⟩
      rcases List.mem_cons.mp hx with rfl | hx
      · exact absurd h0 hne
      · exact hd x hx hne
    · rename_i h0
      split at h
      · exact absurd h (by simp)
      · rename_i hden
        simp only [not_or] at hden
        cases hr : validSplits rest with
        | error e => rw [hr] at h; exact absurd h (by simp [Except.map])
        | ok vs =>
          rw [hr] at h
          obtain rfl := Except.ok.inj h
          obtain ⟨hd, rfl⟩ := ih hr
          refine ⟨fun x hx hne => ?_, by simp [h0]⟩
          rcases List.mem_cons.mp hx with rfl | hx
          · exact hden
          · exact hd x hx hne

theorem validSplits_ok {splits valid : List CreateSplitRequest}
    (h : validSplits splits = .ok valid) :
    DenomsOk splits ∧ valid.map CreateSplitRequest.fraction = amounts splits := by
  obtain ⟨hd, rfl⟩ := validSplits_filter h
  exact ⟨hd, rfl⟩

/-- Amounts the arithmetic of `CreateTransaction` is exact on: no partial sum leaves `int64`, and
their sum has a negation. -/
structure Representable (fs : List Fraction) : Prop where
  news : NewsExact fs
  sums : PartialSumsFit fs
  negates : (exactSum fs).num ≠ -2 ^ 63

/-- Amounts on which the gate of `UpdateTransaction` says "zero" for zero sums only. -/
structure Gated (fs : List Fraction) : Prop where
  news : NewsExact fs
  sums : PartialSumsFit fs.dropLast
  notCut : ¬ (exactSum fs ≠ 0 ∧ (2 ^ 64 : ℤ) ∣ (exactSum fs).num)

theorem Gated.zero {fs : List Fraction} (h : Gated fs) {sum : Numeric}
    (hs : gateSum fs = some sum) (hz : sum.isZero = true) : exactSum fs = 0 := by
  by_contra hne
  have hgate : balanceGate fs = some true := by rw [balanceGate_eq, hs, Option.map_some, hz]
  exact h.notCut ⟨hne, (gate_cut h.news h.sums).mp hgate⟩

/-- **The gate balances.** Splits whose sum is zero are inserted as they are; otherwise the negated
sum joins them, exactly when the arithmetic is. -/
theorem balances_of_gate {valid splits : List CreateSplitRequest} {sum : Numeric}
    (h : Representable (valid.map CreateSplitRequest.fraction)) (hs : splitSum valid = some sum)
    (hb : SplitsFor valid sum splits) (htwo : 2 ≤ splits.length) :
    Balances (splits.map CreateSplitRequest.fraction) := by
  obtain ⟨r, hr, hval, hd⟩ := sum_exact h.news h.sums
  obtain rfl : sum = r := Option.some.inj (hs.symm.trans hr)
  rcases hb with ⟨hz, rfl⟩ | ⟨-, g, rfl⟩
  · refine ⟨by simpa using htwo, fun f hf => (h.news f hf).1, ?_⟩
    have h0 : sum.num = 0 := by simpa [Numeric.isZero] using hz
    rw [← hval]
    simp [Numeric.value, Fraction.value, h0]
  · have hneg : sum.neg.value = -sum.value := neg_value (sum_num_ne h.news h.sums h.negates hs)
    refine ⟨by simpa using htwo, fun f hf => ?_, ?_⟩
    · rw [List.map_append] at hf
      rcases List.mem_append.mp hf with hf | hf
      · exact (h.news f hf).1
      · obtain rfl := List.mem_singleton.mp hf
        exact hd
    · have hbal : exactSum [(balancingSplit g sum).fraction] = sum.neg.value := by
        rw [exactSum_cons, exactSum_nil, add_zero]
        rfl
      rw [List.map_append, exactSum_append, List.map_singleton, hbal, hneg, hval, add_neg_cancel]

/-- The rows of requested splits are those of their transaction, with their amounts. -/
theorem RowOf.txGuids {tx : Guid} {state : CreateSplitRequest → String}
    {splits : List CreateSplitRequest} {rows : List Split}
    (h : List.Forall₂ (RowOf tx state) splits rows) : ∀ row ∈ rows, row.txGuid = tx := by
  intro row hrow
  obtain ⟨sp, -, hof⟩ := exists_of_forall₂ h hrow
  exact hof.tx

theorem RowOf.fractions {tx : Guid} {state : CreateSplitRequest → String}
    {splits : List CreateSplitRequest} {rows : List Split}
    (h : List.Forall₂ (RowOf tx state) splits rows) :
    rows.map Split.fraction = splits.map CreateSplitRequest.fraction := by
  rw [map_eq_iff_forall₂]
  refine h.flip.imp fun row sp hof => ?_
  rw [Split.fraction, hof.valueNum, hof.valueDenom]
  rfl

/-! ## Quiet statements -/

theorem Ledger.hasTransaction {db : Db} (h : Ledger db) {s : Split} (hs : s ∈ db.splits) :
    ∃ t ∈ db.transactions, t.guid = s.txGuid := by
  have := h.sound.closed (s.txGuid, s.fraction) (List.mem_map_of_mem hs)
  obtain ⟨t, ht, he⟩ := List.mem_map.mp this
  exact ⟨t, ht, he⟩

theorem map_updateWhere_of_same {α γ : Type} {c : α → Bool} {f : α → α} {g : α → γ}
    (h : ∀ r, g (f r) = g r) (t : List α) : (updateWhere c f t).map g = t.map g := by
  unfold updateWhere
  rw [List.map_map]
  refine List.map_congr_left fun r _ => ?_
  simp only [Function.comp]
  split
  · exact h r
  · rfl

/-- Transactions as keys, what `f` says of their splits as entries. -/
def Db.journalBy {α : Type} (f : Split → α) (db : Db) : Journal Guid α :=
  ⟨db.transactions.map (·.guid), db.splits.map fun s => (s.txGuid, f s)⟩

section Journal

variable {α : Type} {f : Split → α} {P : List α → Prop} {x y : Db} {rows : List Split}

/-- A new transaction comes in with its rows. -/
theorem Db.sound_append (h : (x.journalBy f).Sound P) {as : List Account} {t : Transaction}
    (hfresh : x.hasTransaction t.guid = false) (hrows : ∀ row ∈ rows, row.txGuid = t.guid)
    (hP : P (rows.map f)) : ((x.append as [t] rows).journalBy f).Sound P := by
  have hj : (x.append as [t] rows).journalBy f = ⟨(x.journalBy f).keys ++ [t.guid],
      (x.journalBy f).entries ++ rows.map fun s => (s.txGuid, f s)⟩ := by
    simp [Db.journalBy, Db.append]
  have hes : rows.map (fun s => (s.txGuid, f s)) = (rows.map f).map (Prod.mk t.guid) := by
    rw [List.map_map]
    exact List.map_congr_left fun row hrow => congrArg (·, f row) (hrows row hrow)
  rw [hj, hes]
  refine h.append ?_ (fun e he => ?_) fun k hk => ?_
  · refine List.nodup_append.mpr ⟨h.nodup, List.nodup_singleton _, fun k hk k' hk' he => ?_⟩
    obtain rfl := List.mem_singleton.mp hk'
    obtain ⟨t', ht', rfl⟩ := List.mem_map.mp hk
    exact List.any_eq_false.mp hfresh t' ht' (by simp [he])
  · obtain ⟨v, -, rfl⟩ := List.mem_map.mp he
    exact List.mem_singleton_self _
  · obtain rfl := List.mem_singleton.mp hk
    rw [Journal.filter_map_mk, if_pos rfl, List.map_map]
    exact (List.map_id (rows.map f)).symm ▸ hP

/-- An update replaces the entries of its transaction. -/
theorem Updates.journalBy {book guid : Guid} (h : Updates book guid x.splits rows x y)
    (hrows : ∀ row ∈ rows, row.txGuid = guid) :
    y.journalBy f = (x.journalBy f).replace guid (rows.map f) := by
  obtain ⟨g, hg, rfl⟩ := h.self
  have hkeys : (updateWhere (isTransaction guid book) g x.transactions).map (·.guid) =
      x.transactions.map (·.guid) := map_updateWhere_of_same (fun t => (hg t).1) _
  have hold : (deleteWhere (fun sp : Split => sp.txGuid == guid) x.splits).map
      (fun sp => (sp.txGuid, f sp)) =
        (x.splits.map fun sp => (sp.txGuid, f sp)).filter fun e => e.1 ≠ guid := by
    rw [List.filter_map]
    exact congrArg _ (List.filter_congr fun sp _ => by rw [Bool.eq_iff_iff]; simp)
  have hnew : rows.map (fun sp => (sp.txGuid, f sp)) = (rows.map f).map (Prod.mk guid) := by
    rw [List.map_map]
    exact List.map_congr_left fun row hrow => congrArg (·, f row) (hrows row hrow)
  simp only [Db.journalBy, Journal.replace, hkeys, List.map_append, hold, hnew]

/-- A transaction gets other rows. -/
theorem Db.sound_update (h : (x.journalBy f).Sound P) {book guid : Guid}
    (hu : Updates book guid x.splits rows x y)
    (hfound : x.transactions.any (isTransaction guid book) = true)
    (hrows : ∀ row ∈ rows, row.txGuid = guid) (hP : P (rows.map f)) :
    (y.journalBy f).Sound P := by
  rw [hu.journalBy hrows]
  obtain ⟨t, ht, hb⟩ := List.any_eq_true.mp hfound
  simp only [isTransaction, Bool.and_eq_true, beq_iff_eq] at hb
  exact h.replace (List.mem_map.mpr ⟨t, ht, hb.1⟩) hP

end Journal

/-- A deletion of transactions removes keys of the journal. -/
theorem Db.journalBy_deleteTransactions {α : Type} {f : Split → α} {db : Db}
    (hn : (db.transactions.map (·.guid)).Nodup) (c : Transaction → Bool) :
    (db.deleteTransactions c).2.journalBy f =
      (db.journalBy f).remove fun k => (db.transactions.filter c).any (·.guid == k) := by
  have hkeys : ∀ t ∈ db.transactions, (db.transactions.filter c).any (·.guid == t.guid) = c t := by
    intro t ht
    rw [Bool.eq_iff_iff, List.any_eq_true]
    constructor
    · rintro ⟨t', ht', he⟩
      obtain ⟨ht', hc⟩ := List.mem_filter.mp ht'
      rwa [List.inj_on_of_nodup_map hn ht' ht (by simpa using he)] at hc
    · exact fun hc => ⟨t, List.mem_filter.mpr ⟨ht, hc⟩, by simp⟩
  simp only [Db.deleteTransactions, Db.journalBy, Journal.remove, Journal.mk.injEq, deleteWhere,
    List.filter_map]
  refine ⟨congrArg _ (List.filter_congr fun t ht => ?_), congrArg _ (List.filter_congr fun s _ => rfl)⟩
  simp only [Function.comp, hkeys t ht]

theorem Ledger.deleteTransactions {db : Db} (h : Ledger db) (c : Transaction → Bool) :
    Ledger (db.deleteTransactions c).2 := by
  have hj : (db.deleteTransactions c).2.journal = db.journal.remove _ :=
    Db.journalBy_deleteTransactions h.sound.nodup c
  exact ⟨hj ▸ h.sound.remove _, h.cents, h.snapshots⟩

theorem Ledger.setReconcileState {db : Db} (h : Ledger db) (book : Guid) (state : String)
    (c : Split → Bool) : Ledger (setReconcileState book state c db).2 := by
  refine h.frame ?_ h.cents fun _ hs => hs
  have hmap : ∀ c : Split → Bool, (updateWhere c (fun s => { s with reconcileState := state })
      db.splits).map (fun s => (s.txGuid, s.fraction)) =
        db.splits.map fun s => (s.txGuid, s.fraction) :=
    fun c => map_updateWhere_of_same (g := fun s : Split => (s.txGuid, s.fraction))
      (f := fun s => { s with reconcileState := state }) (fun _ => rfl) db.splits
  exact congrArg (Journal.mk _) (hmap _)

/-- Fewer staged rows, and fewer snapshots. -/
theorem Ledger.fewer {db db' : Db} (h : Ledger db) (hj : db'.journal = db.journal)
    (hst : ∀ st ∈ db'.staged, st ∈ db.staged) (hs : ∀ s ∈ db'.snapshots, s ∈ db.snapshots) :
    Ledger db' :=
  h.frame hj (fun st m => h.cents st (hst st m)) hs

/-- A steady write keeps the ledger. -/
theorem Touched.ledger {v v' : Db} (h : Ledger v) (hx : Touched v v') : Ledger v' := by
  have hframe : v'.transactions = v.transactions → v'.splits = v.splits → Ledger v' := by
    intro ht hs
    refine h.frame ?_ (hx.cents h.cents) hx.snapshots
    rw [Db.journal, Db.journal, ht, hs]
  cases hx.touches with
  | aside ha => exact hframe ha.transactions ha.splits
  | account hi =>
    obtain ⟨-, rfl⟩ := Db.insertAccount_ok hi
    exact hframe rfl rfl
  | drop hd =>
    obtain ⟨rfl, -⟩ := Db.deleteAccounts_ok hd
    exact hframe rfl rfl
  | delete c => exact h.deleteTransactions c

theorem Write.ledger {book : Guid} {β : Type} {q : Stmt β} (hq : Write book q) {env : Env}
    {v v' : Db} {b : β} (h : Ledger v) (hx : q.sem env v = .ok (b, v')) : Ledger v' :=
  (hq.touches hx).ledger h

theorem Amending.ledger {book : Guid} {β : Type} {q : Stmt β} (hq : Amending book q) {env : Env}
    {v v' : Db} {b : β} (h : Ledger v) (hx : q.sem env v = .ok (b, v')) : Ledger v' := by
  have hid : ∀ {α : Type} {l : List α} (x : α), x ∈ l → x ∈ l := fun _ m => m
  cases hq with
  | toggleSplit s st =>
    obtain ⟨g, -, hx⟩ := ok_bind (ok_of_failing hx)
    obtain rfl := congrArg Prod.snd (Except.ok.inj hx)
    exact h.setReconcileState _ _ _
  | reconcileSplit s =>
    obtain ⟨g, -, hx⟩ := ok_bind (ok_of_failing hx)
    obtain rfl := congrArg Prod.snd (Except.ok.inj hx)
    exact h.setReconcileState _ _ _
  | reconcileAccounts as =>
    obtain ⟨gs, -, hx⟩ := ok_bind (ok_of_failing hx)
    obtain rfl := congrArg Prod.snd (Except.ok.inj hx)
    exact h.setReconcileState _ _ _
  | updateAccount a r n =>
    obtain ⟨g, -, hx⟩ := ok_bind (ok_of_failing hx)
    obtain ⟨p, -, hx⟩ := ok_bind hx
    dsimp only at hx
    split at hx
    · obtain ⟨-, hx⟩ := require_bind hx
      obtain ⟨-, hx⟩ := require_bind hx
      obtain ⟨-, rfl⟩ := Prod.mk.inj (Except.ok.inj hx)
      exact h.fewer rfl hid hid
    · obtain ⟨-, rfl⟩ := Prod.mk.inj (Except.ok.inj hx)
      exact h
  | insertImportAccount a =>
    obtain ⟨v'', hi, hx⟩ := ok_bind (ok_of_failing hx)
    obtain ⟨-, rfl⟩ := Prod.mk.inj (Except.ok.inj hx)
    obtain ⟨-, rfl⟩ := Db.insertAccount_ok hi
    exact h.fewer rfl hid hid
  | updateHierarchy a p =>
    obtain ⟨g, -, hx⟩ := ok_bind (ok_of_failing hx)
    obtain ⟨-, hx⟩ := require_bind hx
    obtain ⟨-, rfl⟩ := Prod.mk.inj (Except.ok.inj hx)
    exact h.fewer rfl hid hid

/-- **No quiet statement disturbs the ledger.** -/
theorem Quiet.ledger {book : Guid} {β : Type} {q : Stmt β} (hq : Quiet book q) {env : Env}
    {v v' : Db} {b : β} (h : Ledger v) (hx : q.sem env v = .ok (b, v')) : Ledger v' := by
  rcases hq with hq | hq
  · rcases hq.reads_or_write with hr | hw
    · rw [hr.sem hx]
      exact h
    · exact hw.ledger h hx
  · exact hq.ledger h hx

end Antimoney
