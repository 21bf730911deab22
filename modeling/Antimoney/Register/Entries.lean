import Antimoney.Lib.Tiles
import Antimoney.Reads

/-!
# The entries of a register

The entries of a stretch of rows depend on the rows before it by their running balance alone, so a
page's entries are a slice of the register's. The transfer column of an entry depends on its own
transaction alone, however many entries one query fills.

A register and a page of it are answered with these entries when the database answers
(`serve_register`, `serve_registerPage`).
-/

namespace Antimoney

open Antimoney.Lib Antimoney.Gnc Prog

/-! ## Running balances -/

section Running

variable {ty : String} {acc : Numeric} {rows : List (Transaction × Split)}

/-- A row's amount. -/
def rowAmount (r : Transaction × Split) : Option Numeric :=
  Numeric.new r.2.quantityNum r.2.quantityDenom

theorem priorBalance_append (acc : Numeric) (l m : List (Transaction × Split)) :
    priorBalance acc (l ++ m) = (priorBalance acc l).bind fun b => priorBalance b m := by
  induction l generalizing acc with
  | nil => rfl
  | cons r l ih =>
    simp only [List.cons_append, priorBalance, Option.bind_eq_bind, Option.bind_assoc, ih]

/-- The entry of a row, with its amount and the balance after it. -/
def entryOf (ty : String) (r : Transaction × Split) (amount balance : Numeric) : RegisterEntry :=
  let columns := depositWithdrawal ty (toFloat64 amount)
  { transactionGuid := r.1.guid, customId := r.1.customId, postDate := r.1.postDate,
    description := r.1.description, transferAccount := "", transferAccountGuid := none,
    deposit := columns.1, withdrawal := columns.2, balance := toFloat64 balance,
    splitMemo := r.2.memo, splitGuid := r.2.guid, reconcileState := r.2.reconcileState }

theorem registerEntries_cons (ty : String) (acc : Numeric) (r : Transaction × Split)
    (rows : List (Transaction × Split)) :
    registerEntries ty acc (r :: rows) = (rowAmount r).bind fun amount =>
      (acc.add amount).bind fun balance =>
        (registerEntries ty balance rows).map (entryOf ty r amount balance :: ·) := by
  simp only [registerEntries, rowAmount, Option.bind_eq_bind, Option.map_eq_bind]
  rfl

theorem priorBalance_cons (acc : Numeric) (r : Transaction × Split)
    (rows : List (Transaction × Split)) :
    priorBalance acc (r :: rows) = (rowAmount r).bind fun amount =>
      (acc.add amount).bind fun balance => priorBalance balance rows := rfl

/-- The entries of more rows: those of the first, then the rest from their running balance. -/
theorem registerEntries_append {l m : List (Transaction × Split)} {es : List RegisterEntry}
    (h : registerEntries ty acc (l ++ m) = some es) :
    ∃ b es₁ es₂, priorBalance acc l = some b ∧ registerEntries ty acc l = some es₁ ∧
      registerEntries ty b m = some es₂ ∧ es = es₁ ++ es₂ := by
  induction l generalizing acc es with
  | nil => exact ⟨acc, [], es, rfl, rfl, h, rfl⟩
  | cons r l ih =>
    rw [List.cons_append, registerEntries_cons] at h
    simp only [Option.bind_eq_some_iff, Option.map_eq_some_iff] at h
    obtain ⟨amount, ham, balance, hbal, es', hes, rfl⟩ := h
    obtain ⟨b, es₁, es₂, hb, h₁, h₂, rfl⟩ := ih hes
    refine ⟨b, entryOf ty r amount balance :: es₁, es₂, ?_, ?_, h₂, rfl⟩
    · rw [priorBalance_cons, ham, Option.bind_some, hbal, Option.bind_some, hb]
    · rw [registerEntries_cons, ham, Option.bind_some, hbal, Option.bind_some, h₁]
      rfl

theorem registerEntries_append_of {l m : List (Transaction × Split)} {b : Numeric}
    {es₁ es₂ : List RegisterEntry} (h₁ : registerEntries ty acc l = some es₁)
    (hb : priorBalance acc l = some b) (h₂ : registerEntries ty b m = some es₂) :
    registerEntries ty acc (l ++ m) = some (es₁ ++ es₂) := by
  induction l generalizing acc es₁ with
  | nil =>
    obtain rfl := Option.some.inj h₁
    obtain rfl := Option.some.inj hb
    exact h₂
  | cons r l ih =>
    rw [registerEntries_cons] at h₁
    rw [priorBalance_cons] at hb
    simp only [Option.bind_eq_some_iff, Option.map_eq_some_iff] at h₁
    obtain ⟨amount, ham, balance, hbal, es, hes, rfl⟩ := h₁
    rw [ham, Option.bind_some, hbal, Option.bind_some] at hb
    rw [List.cons_append, registerEntries_cons, ham, Option.bind_some, hbal, Option.bind_some,
      ih hes hb]
    rfl

theorem registerEntries_length {es : List RegisterEntry}
    (h : registerEntries ty acc rows = some es) : es.length = rows.length := by
  induction rows generalizing acc es with
  | nil =>
    obtain rfl := Option.some.inj h
    rfl
  | cons r rows ih =>
    rw [registerEntries_cons] at h
    simp only [Option.bind_eq_some_iff, Option.map_eq_some_iff] at h
    obtain ⟨_, -, _, -, es', hes, rfl⟩ := h
    rw [List.length_cons, List.length_cons, ih hes]

/-- **A slice of the rows has a slice of the entries**, from the running balance before it. -/
theorem registerEntries_slice {es : List RegisterEntry} {a b : Nat}
    (h : registerEntries ty acc rows = some es) (hab : a ≤ b) (hb : b ≤ rows.length) :
    ∃ prior, priorBalance acc (rows.take a) = some prior ∧
      registerEntries ty prior (slice rows a b) = some (slice es a b) := by
  have hsplit : rows = rows.take a ++ (slice rows a b ++ rows.drop b) := by
    rw [← List.append_assoc, ← take_eq_append_slice rows hab, List.take_append_drop]
  rw [hsplit] at h
  obtain ⟨prior, es₁, es', hprior, h₁, h', rfl⟩ := registerEntries_append h
  obtain ⟨-, es₂, es₃, -, h₂, -, rfl⟩ := registerEntries_append h'
  have hlen₁ : es₁.length = a := by
    rw [registerEntries_length h₁, List.length_take]
    omega
  have hlen₂ : es₂.length = b - a := by
    rw [registerEntries_length h₂, slice_length hb]
  refine ⟨prior, hprior, ?_⟩
  rw [h₂]
  unfold slice
  rw [List.drop_left' hlen₁, List.take_left' hlen₂]

/-- The last entry shows the running balance over all rows. -/
theorem registerEntries_concat {r : Transaction × Split} {es : List RegisterEntry}
    (h : registerEntries ty acc (rows ++ [r]) = some es) :
    ∃ es' e b, es = es' ++ [e] ∧ priorBalance acc (rows ++ [r]) = some b ∧
      e.balance = toFloat64 b ∧ e.postDate = r.1.postDate := by
  obtain ⟨prior, es₁, es₂, hprior, -, h₂, rfl⟩ := registerEntries_append h
  rw [registerEntries_cons] at h₂
  simp only [Option.bind_eq_some_iff, Option.map_eq_some_iff] at h₂
  obtain ⟨amount, ham, balance, hbal, es', hes, rfl⟩ := h₂
  obtain rfl := Option.some.inj hes
  refine ⟨es₁, _, balance, rfl, ?_, rfl, rfl⟩
  rw [priorBalance_append, hprior, Option.bind_some, priorBalance_cons, ham, Option.bind_some, hbal]
  rfl

/-- What the entries keep of their rows. -/
theorem registerEntries_map {β : Type} {f : RegisterEntry → β} {g : Transaction × Split → β}
    (hf : ∀ r amount balance, f (entryOf ty r amount balance) = g r) {es : List RegisterEntry}
    (h : registerEntries ty acc rows = some es) : es.map f = rows.map g := by
  induction rows generalizing acc es with
  | nil =>
    obtain rfl := Option.some.inj h
    rfl
  | cons r rows ih =>
    rw [registerEntries_cons] at h
    simp only [Option.bind_eq_some_iff, Option.map_eq_some_iff] at h
    obtain ⟨amount, -, balance, -, es', hes, rfl⟩ := h
    rw [List.map_cons, List.map_cons, hf, ih hes]

end Running

/-! ## Transfer accounts -/

section Transfers

/-- Only the rows of a transaction decide what a scan knows of it. -/
theorem scan_filter (g : Guid) (rows : List (Guid × Guid × String)) (st st' : TransferScan)
    (hc : st.counts g = st'.counts g) (hm : st.firstMatch g = st'.firstMatch g) :
    (rows.foldl TransferScan.row st).info g =
      ((rows.filter (·.1 == g)).foldl TransferScan.row st').info g := by
  induction rows generalizing st st' with
  | nil =>
    simp only [List.foldl_nil, List.filter_nil, TransferScan.info, hc, hm]
    rfl
  | cons r rows ih =>
    by_cases hr : r.1 = g
    · rw [List.filter_cons_of_pos (by simp [hr]), List.foldl_cons, List.foldl_cons]
      apply ih
      · simp [TransferScan.row, hr, hc]
      · simp [TransferScan.row, hr, hc, hm]
    · rw [List.filter_cons_of_neg (by simp [hr]), List.foldl_cons]
      apply ih
      · simp [TransferScan.row, Ne.symm hr, hc]
      · simp [TransferScan.row, Ne.symm hr, hm]

theorem Db.joinAccounts_filter (db : Db) (p c : Split → Bool) :
    (db.joinAccounts p).filter (fun r => c r.1) = db.joinAccounts fun s => p s && c s := by
  unfold Db.joinAccounts
  induction db.splits with
  | nil => rfl
  | cons s splits ih =>
    cases hp : p s with
    | false => simpa [hp] using ih
    | true =>
      cases hf : db.accounts.find? (·.guid == s.accountGuid) with
      | none =>
        cases hc : c s with
        | false => simpa [hp, hf, hc] using ih
        | true => simpa [hp, hf, hc] using ih
      | some a =>
        cases hc : c s with
        | false => simpa [hp, hf, hc] using ih
        | true => simpa [hp, hf, hc] using ih

/-- The splits a transfer column looks at, with their accounts. -/
def Db.transferRows (db : Db) (p : Guid → Bool) (account : Guid) : List (Guid × Guid × String) :=
  (db.joinAccounts fun s => p s.txGuid && s.accountGuid != account).map
    fun r => (r.1.txGuid, r.2.guid, r.2.name)

theorem Db.transferRows_filter (db : Db) {p : Guid → Bool} {g : Guid} (hg : p g = true)
    (account : Guid) :
    (db.transferRows p account).filter (·.1 == g) = db.transferRows (· == g) account := by
  have hone : (fun s : Split => (p s.txGuid && s.accountGuid != account) && s.txGuid == g) =
      fun s => s.txGuid == g && s.accountGuid != account := by
    funext s
    by_cases hs : s.txGuid = g
    · simp [hs, hg]
    · simp [beq_false_of_ne hs]
  unfold Db.transferRows
  rw [List.filter_map, ← hone, ← db.joinAccounts_filter _ (·.txGuid == g)]
  rfl

/-- An entry with its transfer column, as one transaction's splits fill it. -/
def Db.transferred (db : Db) (account : Guid) (e : RegisterEntry) : RegisterEntry :=
  let info := ((db.transferRows (· == e.transactionGuid) account).foldl TransferScan.row
    ⟨fun _ => 0, fun _ => none⟩).info e.transactionGuid
  { e with transferAccount := info.1, transferAccountGuid := info.2 }

theorem mem_distinctTxns {g : Guid} (es : List RegisterEntry) (seen : List Guid) :
    g ∈ distinctTxns seen es ↔ g ∈ seen ∨ g ∈ es.map (·.transactionGuid) := by
  induction es generalizing seen with
  | nil => simp [distinctTxns]
  | cons e es ih =>
    unfold distinctTxns
    split
    · rename_i hs
      rw [ih, List.map_cons, List.mem_cons]
      have hmem : e.transactionGuid ∈ seen := by simpa using hs
      constructor
      · tauto
      · rintro (h | rfl | h)
        · exact .inl h
        · exact .inl hmem
        · exact .inr h
    · rw [ih, List.map_cons, List.mem_cons, List.mem_cons]
      tauto

end Transfers

end Antimoney
