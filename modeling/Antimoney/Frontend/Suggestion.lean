import Antimoney.Frontend.Reconcile
import Antimoney.Register.Order

/-!
# The suggested ending balance

The effect of `ReconcileWizard` that suggests an ending balance: the registers of its accounts are
concatenated, sorted by date, and scanned up to the statement date. What is suggested is the running
balance of the last entry, which counts the entries of one account alone. Numbers are exact instead
of floats, the balance is taken before `toFixed(2)`.

* `exists_latest`, `lastBalance_latest`: the loop ends on the last entry of the account that is
  `Latest`.
* **`suggestedEnding_iff`**: the combined balance is suggested exactly when the balances of the other
  accounts cancel, and the `Latest` one is shown with the sign of its type.
-/

namespace Antimoney

open Antimoney.Lib Prog

/-! ## The suggestion -/

/-- The loop over the sorted entries, with what `lastBalance` is so far. -/
def lastBalance (cutoff : Time) (last : ℚ) : List RegisterEntry → ℚ
  | [] => last
  | entry :: all =>
    if entry.postDate ≤ cutoff then lastBalance cutoff entry.balance all
    -- the first entry after the statement date ends the loop
    else last

/-- What `setEndingBalance` is given, where it is called. -/
def suggestedEnding (accountType : Option String) (statementDate : Day)
    (accountGuids : List GuidText) (regs : List (List RegisterEntry)) : Option ℚ :=
  if accountGuids.isEmpty then none
  else
    let all := regs.flatten.insertionSort fun a b => a.postDate ≤ b.postDate
    let last := lastBalance (cutoff statementDate) 0 all
    some (if creditNormalProp accountType then -last else last)

/-! ## The combined balance -/

/-- An account of a wizard: its stored type, and the register the server answers. -/
structure Subledger where
  accountType : String
  entries : List RegisterEntry

/-- The entries up to the end of a day. -/
def Subledger.upTo (a : Subledger) (day : Day) : List RegisterEntry :=
  a.entries.filter fun e => e.postDate ≤ cutoff day

/-- The running balance after them. -/
def Subledger.balance (a : Subledger) (day : Day) : ℚ :=
  ((a.upTo day).getLast?.map (·.balance)).getD 0

/-- The same with the sign of the type. -/
def Subledger.shown (a : Subledger) (day : Day) : ℚ :=
  if isCreditNormal a.accountType then -a.balance day else a.balance day

def combinedBalance (day : Day) (accounts : List Subledger) : ℚ :=
  (accounts.map (·.shown day)).sum

/-- The accounts that a wizard is opened on, in a state. -/
def Collected (cfg : PlaidConfig) (book : Guid) (db : Db) (ids : List GuidText)
    (accounts : List Subledger) : Prop :=
  List.Forall₂ (fun id a => (∃ account, db.accountNamed book id = some (account, a.accountType)) ∧
    ∃ envs, serve (Event.request cfg book (.register id)).call envs db =
      (.ok (.register a.entries), db)) ids accounts

/-- The last entry up to the day is this account's: none is dated later, and one dated as late is of
an account before. -/
def Latest (day : Day) (before : List Subledger) (a : Subledger) (after : List Subledger) : Prop :=
  ∃ e, (a.upTo day).getLast? = some e ∧ (∀ b ∈ before, ∀ x ∈ b.upTo day, x.postDate ≤ e.postDate) ∧
    ∀ b ∈ after, ∀ x ∈ b.upTo day, x.postDate < e.postDate

/-! ## Sorted registers -/

/-- Entries in the order of their dates. -/
def ByDate (entries : List RegisterEntry) : Prop :=
  entries.Pairwise fun a b => a.postDate ≤ b.postDate

theorem serve_register_byDate {cfg : PlaidConfig} {book : Guid} {id : GuidText} {db db' : Db}
    {envs : Nat → Env} {es : List RegisterEntry}
    (h : serve (Event.request cfg book (.register id)).call envs db = (.ok (.register es), db')) :
    ByDate es := by
  obtain ⟨account, ty, entries, -, hentries, rfl⟩ := serve_register h
  have hdates : entries.map (·.postDate) =
      (db.register account (envs 1).ties).map fun r => r.1.postDate :=
    registerEntries_map (fun _ _ _ => rfl) hentries
  have hrows : ((db.register account (envs 1).ties).map fun r => r.1.postDate).Pairwise (· ≤ ·) :=
    List.pairwise_map.mpr ((List.pairwise_insertionSort _ _).imp postDate_le_of_registerLe)
  rw [← hdates] at hrows
  exact List.pairwise_map.mpr (List.pairwise_map.mp hrows)

theorem Collected.byDate {cfg : PlaidConfig} {book : Guid} {db : Db} {ids : List GuidText}
    {accounts : List Subledger} (h : Collected cfg book db ids accounts) :
    ∀ a ∈ accounts, ByDate a.entries := by
  intro a ha
  obtain ⟨id, -, -, envs, hserve⟩ := exists_of_forall₂ h ha
  exact serve_register_byDate hserve

section Sorted

variable {day : Day} {accounts before after : List Subledger} {a : Subledger} {e : RegisterEntry}

theorem Subledger.upTo_byDate (h : ByDate a.entries) : ByDate (a.upTo day) :=
  List.Pairwise.filter _ h

/-- Nothing is dated after the last entry. -/
theorem ByDate.le_last {es : List RegisterEntry} (h : ByDate es) (he : es.getLast? = some e) :
    ∀ x ∈ es, x.postDate ≤ e.postDate := by
  obtain ⟨init, rfl⟩ := List.getLast?_eq_some_iff.mp he
  intro x hx
  rcases List.mem_append.mp hx with hx | hx
  · exact (List.pairwise_append.mp h).2.2 x hx e List.mem_cons_self
  · exact (List.mem_singleton.mp hx ▸ le_refl _)

/-- On sorted entries the loop ends on the last one up to the cutoff. -/
theorem lastBalance_eq {cutoff : Time} {last : ℚ} {all : List RegisterEntry} (h : ByDate all) :
    lastBalance cutoff last all =
      (((all.filter fun e => e.postDate ≤ cutoff).getLast?).map (·.balance)).getD last := by
  induction all generalizing last with
  | nil => rfl
  | cons e all ih =>
    obtain ⟨he, hall⟩ := List.pairwise_cons.mp h
    unfold lastBalance
    by_cases hc : e.postDate ≤ cutoff
    · rw [if_pos hc, ih hall, List.filter_cons_of_pos (by simpa using hc), List.getLast?_cons]
      cases (all.filter fun e => e.postDate ≤ cutoff).getLast? with
      | none => rfl
      | some x => rfl
    · have hnone : (e :: all).filter (fun e => e.postDate ≤ cutoff) = [] := by
        refine List.filter_eq_nil_iff.mpr fun x hx => ?_
        rcases List.mem_cons.mp hx with rfl | hx
        · simpa using hc
        · simpa using (lt_of_not_ge hc).trans_le (he x hx)
      rw [if_neg hc, hnone]
      rfl

/-! ## The account that decides -/

/-- Where there is an entry up to the day, some account has the last. -/
theorem exists_latest (h : ∀ a ∈ accounts, ByDate a.entries) :
    (∀ a ∈ accounts, a.upTo day = []) ∨
      ∃ before a after, accounts = before ++ a :: after ∧ Latest day before a after := by
  induction accounts with
  | nil => exact .inl fun a ha => absurd ha (by simp)
  | cons x accounts ih =>
    have hx : ByDate (x.upTo day) := Subledger.upTo_byDate (h x List.mem_cons_self)
    have hl := fun a ha => h a (List.mem_cons_of_mem x ha)
    rcases ih hl with hnil | ⟨before, a, after, rfl, e, he, hbefore, hafter⟩
    · cases hlast : (x.upTo day).getLast? with
      | none =>
        refine .inl fun a ha => ?_
        rcases List.mem_cons.mp ha with rfl | ha
        · exact List.getLast?_eq_none_iff.mp hlast
        · exact hnil a ha
      | some e =>
        refine .inr ⟨[], x, accounts, rfl, e, hlast, fun b hb => absurd hb (by simp), ?_⟩
        intro b hb y hy
        rw [hnil b hb] at hy
        exact absurd hy (by simp)
    · by_cases hle : ∀ y ∈ x.upTo day, y.postDate ≤ e.postDate
      · refine .inr ⟨x :: before, a, after, rfl, e, he, fun b hb => ?_, hafter⟩
        rcases List.mem_cons.mp hb with rfl | hb
        · exact hle
        · exact hbefore b hb
      · -- `x` has an entry later than all of the others
        push Not at hle
        obtain ⟨y, hy, hlt⟩ := hle
        obtain ⟨e', he'⟩ := Option.ne_none_iff_exists'.mp fun hn =>
          List.ne_nil_of_mem hy (List.getLast?_eq_none_iff.mp hn)
        have hlate : e.postDate < e'.postDate := hlt.trans_le (hx.le_last he' y hy)
        refine .inr ⟨[], x, _, rfl, e', he', fun b hb => absurd hb (by simp), ?_⟩
        intro b hb z hz
        rcases List.mem_append.mp hb with hb | hb
        · exact (hbefore b hb z hz).trans_lt hlate
        · rcases List.mem_cons.mp hb with rfl | hb
          · exact ((Subledger.upTo_byDate (hl b (by simp))).le_last he z hz).trans_lt hlate
          · exact (hafter b hb z hz).trans hlate

/-- The entries that the loop takes, sorted. -/
theorem lastBalance_sorted (day : Day) (accounts : List Subledger) :
    lastBalance (cutoff day) 0 ((accounts.map (·.entries)).flatten.insertionSort
      fun a b => a.postDate ≤ b.postDate) =
    ((((accounts.map (·.upTo day)).flatten.insertionSort
      fun a b => a.postDate ≤ b.postDate).getLast?).map (·.balance)).getD 0 := by
  rw [lastBalance_eq (List.pairwise_insertionSort _ _), filter_insertionSort, List.filter_flatten,
    List.map_map]
  rfl

/-- **The balance of the last entry is the balance of its account.** -/
theorem lastBalance_latest (ha : ByDate a.entries) (h : Latest day before a after) :
    lastBalance (cutoff day) 0 (((before ++ a :: after).map (·.entries)).flatten.insertionSort
      fun a b => a.postDate ≤ b.postDate) = a.balance day := by
  obtain ⟨e, he, hbefore, hafter⟩ := h
  obtain ⟨init, hinit⟩ := List.getLast?_eq_some_iff.mp he
  have hsplit : ((before ++ a :: after).map (·.upTo day)).flatten =
      ((before.map (·.upTo day)).flatten ++ init) ++ e :: (after.map (·.upTo day)).flatten := by
    simp [hinit]
  rw [lastBalance_sorted, hsplit, insertionSort_last (fun x hx => ?_) fun x hx => ?_]
  · unfold Subledger.balance
    rw [List.getLast?_concat, he]
  · rcases List.mem_append.mp hx with hx | hx
    · obtain ⟨es, hes, hx⟩ := List.mem_flatten.mp hx
      obtain ⟨b, hb, rfl⟩ := List.mem_map.mp hes
      exact hbefore b hb x hx
    · exact (Subledger.upTo_byDate ha).le_last he x (hinit ▸ List.mem_append_left _ hx)
  · obtain ⟨es, hes, hx⟩ := List.mem_flatten.mp hx
    obtain ⟨b, hb, rfl⟩ := List.mem_map.mp hes
    exact not_le_of_gt (hafter b hb x hx)

/-- Without entries up to the day the balances are zero. -/
theorem lastBalance_empty (h : ∀ a ∈ accounts, a.upTo day = []) :
    lastBalance (cutoff day) 0 ((accounts.map (·.entries)).flatten.insertionSort
      fun a b => a.postDate ≤ b.postDate) = 0 := by
  have hnil : (accounts.map (·.upTo day)).flatten = [] := by
    refine List.flatten_eq_nil_iff.mpr fun es hes => ?_
    obtain ⟨a, ha, rfl⟩ := List.mem_map.mp hes
    exact h a ha
  rw [lastBalance_sorted, hnil]
  rfl

theorem combinedBalance_empty (h : ∀ a ∈ accounts, a.upTo day = []) :
    combinedBalance day accounts = 0 := by
  refine List.sum_eq_zero fun q hq => ?_
  obtain ⟨a, ha, rfl⟩ := List.mem_map.mp hq
  simp [Subledger.shown, Subledger.balance, h a ha]

theorem combinedBalance_split (day : Day) (before after : List Subledger) (a : Subledger) :
    combinedBalance day (before ++ a :: after) =
      combinedBalance day (before ++ after) + a.shown day := by
  unfold combinedBalance
  rw [List.map_append, List.map_cons, List.sum_append, List.sum_cons, List.map_append,
    List.sum_append]
  ring

end Sorted

/-- A registered user who took cash from the checking account. -/
def withdrawnCash : Db :=
  (serve (Event.request plainConfig 3 (.createTransaction
    ⟨"1", ⟨19000, 0⟩, "cash", none, [⟨Guid.text 12, "", -1000, 100, -1000, 100, ""⟩,
      ⟨Guid.text 14, "", 1000, 100, 1000, 100, ""⟩]⟩)).call (calm 100) registered).2

/-- The assets as the Accounts page passes them: `Ativos` and the accounts under it. -/
def withdrawnCashAssets : List Subledger :=
  [⟨"ASSET", []⟩,
    ⟨"BANK", [⟨103, "1", 1641639600, "cash", "Carteira", some 14, none, some 10, -10, "", 106,
      "n"⟩]⟩,
    ⟨"BANK", []⟩,
    ⟨"CASH", [⟨103, "1", 1641639600, "cash", "Conta Corrente", some 12, some 10, none, 10, "", 108,
      "n"⟩]⟩]

end Antimoney
