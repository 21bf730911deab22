import Antimoney.Frontend.Tree
import Mathlib.Data.List.Sort
import Mathlib.Tactic.Linarith
import Mathlib.Tactic.Ring

/-!
# The dashboard

`computeDashboard` of `pages/Dashboard.tsx`, and the net worth the page shows. Numbers are exact.

**`dashboard_equation_iff`**: over balances that sum to zero the accounting equation is shown
exactly when neither the liabilities nor the income are in debit: `Math.abs` shows these as if they
were in credit.
-/

namespace Antimoney.Frontend

/-- An entry of `topAccounts`. -/
structure TopAccount where
  guid : Guid
  name : String
  value : ℚ
  rValue : ℚ
  color : String
  type : AccountType
  deriving DecidableEq, Repr

/-- An entry of `expenseAccounts` or `incomeAccounts`. -/
structure FlowAccount where
  name : String
  value : ℚ
  rValue : ℚ
  color : String
  deriving DecidableEq, Repr

structure DashboardData where
  assets : ℚ
  liabilities : ℚ
  income : ℚ
  expenses : ℚ
  rAssets : ℚ
  rLiabilities : ℚ
  rIncome : ℚ
  rExpenses : ℚ
  topAccounts : List TopAccount
  expenseAccounts : List FlowAccount
  incomeAccounts : List FlowAccount
  deriving DecidableEq, Repr

/-- `EXPENSE_PALETTE`. -/
def expensePalette : List String :=
  ["#ec4899", "#f43f5e", "#f97316", "#eab308", "#a855f7",
    "#6366f1", "#14b8a6", "#06b6d4", "#84cc16", "#64748b"]

/-- `ACCOUNT_TYPE_COLORS`. -/
def AccountType.color : AccountType → String
  | .ROOT => "#64748b"
  | .ASSET => "#22c55e"
  | .BANK => "#3b82f6"
  | .CASH => "#10b981"
  | .LIABILITY => "#ef4444"
  | .CREDIT => "#f97316"
  | .INCOME => "#8b5cf6"
  | .EXPENSE => "#ec4899"
  | .EQUITY => "#06b6d4"

/-- The keys of `sums`. -/
def AccountType.summed : AccountType → Bool
  | .ASSET | .BANK | .CASH | .LIABILITY | .CREDIT | .INCOME | .EXPENSE => true
  | .ROOT | .EQUITY => false

/-- `sums[a.account_type] += balance`. -/
def addTo (balance : Account → ℚ) (sums : AccountType → ℚ) (a : Account) : AccountType → ℚ :=
  if a.accountType.summed then
    Function.update sums a.accountType (sums a.accountType + balance a)
  else sums

/-- `sums`, and `rSums` with the reconciled balances. -/
def sums (balance : Account → ℚ) (accounts : List Account) : AccountType → ℚ :=
  accounts.foldl (addTo balance) fun _ => 0

/-- The accounts the loop goes on with. -/
def charted (accounts : List Account) : List Account :=
  accounts.filter fun a => !(a.placeholder || a.accountType == .ROOT || a.accountType == .EQUITY)

/-- What is worth showing: more than half a cent. -/
def visible (q : ℚ) : Bool := decide (1 / 200 < |q|)

def topAccount (a : Account) : TopAccount :=
  ⟨a.guid, a.name, |a.balance|, |a.reconciledBalance|, a.accountType.color, a.accountType⟩

/-- The flow accounts of a type. -/
def flows (type : AccountType) (accounts : List Account) : List FlowAccount :=
  ((charted accounts).filter fun a => a.accountType == type && visible a.balance).map fun a =>
    ⟨a.name, |a.balance|, |a.reconciledBalance|, ""⟩

/-- The larger value first; the sort is stable. -/
def sorted (flows : List FlowAccount) : List FlowAccount :=
  flows.insertionSort fun a b => b.value ≤ a.value

/-- The palette in turn. -/
def colored (flows : List FlowAccount) : List FlowAccount :=
  flows.mapIdx fun i e => { e with color := expensePalette.getD (i % expensePalette.length) "" }

/-- `computeDashboard`. -/
def computeDashboard (accounts : List Account) : DashboardData :=
  let sums_ := sums (·.balance) accounts
  let rSums := sums (·.reconciledBalance) accounts
  let tops := ((charted accounts).filter fun a =>
    visible a.balance || visible a.reconciledBalance).map topAccount
  { assets := sums_ .ASSET + sums_ .BANK + sums_ .CASH
    liabilities := |sums_ .LIABILITY + sums_ .CREDIT|
    income := |sums_ .INCOME|
    expenses := sums_ .EXPENSE
    rAssets := rSums .ASSET + rSums .BANK + rSums .CASH
    rLiabilities := |rSums .LIABILITY + rSums .CREDIT|
    rIncome := |rSums .INCOME|
    rExpenses := rSums .EXPENSE
    topAccounts := (tops.insertionSort fun a b => b.value ≤ a.value).take 10
    expenseAccounts := colored (sorted (flows .EXPENSE accounts))
    incomeAccounts := colored (sorted (flows .INCOME accounts)) }

/-- `netWorth`, with the balances that are not only the reconciled ones. -/
def DashboardData.netWorth (d : DashboardData) : ℚ := d.assets - d.liabilities

/-! ## The sums -/

/-- The balances of the accounts of a type. -/
def total (type : AccountType) (accounts : List Account) : ℚ :=
  ((accounts.filter (·.accountType = type)).map (·.balance)).sum

theorem total_cons (type : AccountType) (a : Account) (accounts : List Account) :
    total type (a :: accounts) =
      (if a.accountType = type then a.balance else 0) + total type accounts := by
  unfold total
  by_cases h : a.accountType = type
  · simp [h]
  · simp [h]

theorem foldl_addTo {type : AccountType} (ht : type.summed = true) (accounts : List Account)
    (s : AccountType → ℚ) :
    accounts.foldl (addTo (·.balance)) s type = s type + total type accounts := by
  induction accounts generalizing s with
  | nil => simp [total]
  | cons a accounts ih =>
    rw [List.foldl_cons, ih, total_cons]
    unfold addTo
    by_cases h : a.accountType = type
    · subst h
      rw [if_pos ht, Function.update_self, if_pos rfl, add_assoc]
    · rw [if_neg h, zero_add]
      split
      · rw [Function.update_of_ne (Ne.symm h)]
      · rfl

theorem sums_eq {type : AccountType} (ht : type.summed = true) (accounts : List Account) :
    sums (·.balance) accounts type = total type accounts := by
  unfold sums
  rw [foldl_addTo ht, zero_add]

/-- The balances are those of the nine types. -/
theorem sum_eq_totals (accounts : List Account) :
    (accounts.map (·.balance)).sum =
      total .ROOT accounts + total .EQUITY accounts + total .ASSET accounts +
        total .BANK accounts + total .CASH accounts + total .LIABILITY accounts +
        total .CREDIT accounts + total .INCOME accounts + total .EXPENSE accounts := by
  induction accounts with
  | nil => simp [total]
  | cons a accounts ih =>
    rw [List.map_cons, List.sum_cons, ih]
    simp only [total_cons]
    cases a.accountType <;> simp only [reduceCtorEq, if_true, if_false] <;> ring

/-- The accounting equation as the page shows it. -/
structure Equation (accounts : List Account) : Prop where
  netWorth : (computeDashboard accounts).netWorth =
    -(total .ROOT accounts + total .EQUITY accounts + total .INCOME accounts +
      total .EXPENSE accounts)
  result : (computeDashboard accounts).income - (computeDashboard accounts).expenses =
    -(total .INCOME accounts + total .EXPENSE accounts)

/-- **The equation is shown exactly when neither liabilities nor income are in debit.** -/
theorem dashboard_equation_iff {accounts : List Account}
    (hzero : (accounts.map (·.balance)).sum = 0) :
    Equation accounts ↔
      total .LIABILITY accounts + total .CREDIT accounts ≤ 0 ∧ total .INCOME accounts ≤ 0 := by
  rw [sum_eq_totals] at hzero
  have hassets : (computeDashboard accounts).assets =
      total .ASSET accounts + total .BANK accounts + total .CASH accounts := by
    unfold computeDashboard
    simp only [sums_eq (show AccountType.ASSET.summed = true from rfl),
      sums_eq (show AccountType.BANK.summed = true from rfl),
      sums_eq (show AccountType.CASH.summed = true from rfl)]
  have hliab : (computeDashboard accounts).liabilities =
      |total .LIABILITY accounts + total .CREDIT accounts| := by
    unfold computeDashboard
    simp only [sums_eq (show AccountType.LIABILITY.summed = true from rfl),
      sums_eq (show AccountType.CREDIT.summed = true from rfl)]
  have hincome : (computeDashboard accounts).income = |total .INCOME accounts| := by
    unfold computeDashboard
    simp only [sums_eq (show AccountType.INCOME.summed = true from rfl)]
  have hexpenses : (computeDashboard accounts).expenses = total .EXPENSE accounts := by
    unfold computeDashboard
    simp only [sums_eq (show AccountType.EXPENSE.summed = true from rfl)]
  constructor
  · rintro ⟨hnet, hresult⟩
    unfold DashboardData.netWorth at hnet
    rw [hassets, hliab] at hnet
    rw [hincome, hexpenses] at hresult
    exact ⟨abs_eq_neg_self.mp (by linarith), abs_eq_neg_self.mp (by linarith)⟩
  · rintro ⟨hl, hi⟩
    constructor
    · unfold DashboardData.netWorth
      rw [hassets, hliab, abs_of_nonpos hl]
      linarith
    · rw [hincome, hexpenses, abs_of_nonpos hi]
      ring

/-- A bank account paid more to a card than was owed. -/
def overpaid : List Account :=
  [⟨12, "Conta Corrente", .BANK, some 7, false, -10, 0⟩,
    ⟨15, "Cartão de Crédito", .CREDIT, some 8, false, 10, 0⟩]

/-- `dashboard_equation_iff` on it. -/
theorem dashboard_equation_overpaid :
    Equation overpaid ↔
      total .LIABILITY overpaid + total .CREDIT overpaid ≤ 0 ∧ total .INCOME overpaid ≤ 0 :=
  dashboard_equation_iff (by decide +kernel)

/-- The page shows a net worth of -20 where it is 0. -/
theorem dashboard_overpaid :
    (computeDashboard overpaid).netWorth = -20 ∧
      ¬ ∀ accounts : List Account, (accounts.map (·.balance)).sum = 0 → Equation accounts := by
  have hnet : (computeDashboard overpaid).netWorth = -20 := by decide +kernel
  have htotals : total .ROOT overpaid + total .EQUITY overpaid + total .INCOME overpaid +
      total .EXPENSE overpaid = 0 := by decide +kernel
  refine ⟨hnet, fun h => ?_⟩
  have he := (h overpaid (by decide +kernel)).netWorth
  rw [hnet, htotals] at he
  exact absurd he (by norm_num)

end Antimoney.Frontend
