import Antimoney.Ledger.Accepts
import Antimoney.Ledger.Asked

/-!
# What a CSV upload posts

Each row is posted by its own `CreateTransaction`, and a row that fails is skipped. On an account
that takes entries no row fails but those of amount zero.

* `CsvRow.Posted`: the transaction of a row.
* `csvLoop_posts`: the loop posts the rows with an amount, in the order of the file.
* **`csv_posted`**: so does the server, in every state it reaches, and it counts them.
-/

namespace Antimoney

open Antimoney.Lib Antimoney.Gnc Prog

/-! ## A row -/

/-- The transaction of a row: its date and text, its amount on the account, and the negated amount
on an account of which `I` holds. -/
structure CsvRow.Posted (book : Guid) (account : GuidText) (I : Guid → Prop) (r : CsvRow)
    (p : Transaction × List Split) : Prop where
  inBook : p.1.bookGuid = book
  plaid : p.1.plaidTxnId = none
  postDate : p.1.postDate = normalizePostDate r.postDate
  description : p.1.description = r.description
  splits : ∃ x y, p.2 = [x, y] ∧ (x.txGuid = p.1.guid ∧ y.txGuid = p.1.guid) ∧
    (account.parse = .ok x.accountGuid ∧ x.fraction = (r.valNum, 100) ∧ x.qty = (r.valNum, 100)) ∧
    (I y.accountGuid ∧ y.fraction.value = -((r.valNum.toInt : ℚ) / 100) ∧ y.qty = y.fraction) ∧
    x.reconcileState = "n" ∧ y.reconcileState = "n"

theorem CsvRow.Posted.mono {book : Guid} {account : GuidText} {I J : Guid → Prop} {r : CsvRow}
    {p : Transaction × List Split} (h : r.Posted book account I p) (hI : ∀ g, I g → J g) :
    r.Posted book account J p := by
  obtain ⟨x, y, hp, htx, hx, hy, hstates⟩ := h.splits
  exact ⟨h.inBook, h.plaid, h.postDate, h.description, x, y, hp, htx, hx, ⟨hI _ hy.1, hy.2⟩, hstates⟩

/-- Amounts the arithmetic is exact on have a sum, which is zero when it should be. -/
theorem Representable.gate {fs : List Fraction} (h : Representable fs) :
    ∃ sum, gateSum fs = some sum ∧ (sum.isZero = true ↔ exactSum fs = 0) := by
  obtain ⟨sum, hsum, -, -⟩ := sum_exact h.news h.sums
  have hgate := gate_exact h.news h.sums
  rw [balanceGate_eq, hsum, Option.map_some, Option.some.injEq] at hgate
  exact ⟨sum, hsum, hgate⟩

section Row

variable {named : Guid → Bool} {book : Guid} {account : GuidText} {r : CsvRow} {s v : Db}

theorem CsvRow.amounts_request (h0 : r.valNum ≠ 0) :
    amounts (r.request account).splits = [(r.valNum, 100)] := by
  simp [CsvRow.request, amounts, CreateSplitRequest.fraction, h0]

theorem exactSum_cents (v : Int64) : exactSum [(v, 100)] = (v.toInt : ℚ) / 100 := by
  rw [exactSum_cons, exactSum_nil, add_zero, value_cents]

theorem CsvRow.total_request : (r.request account).total = (r.valNum.toInt : ℚ) / 100 :=
  exactSum_cents r.valNum

theorem toInt_ne_zero {v : Int64} (h : v ≠ 0) : v.toInt ≠ 0 := by
  intro h0
  exact h (Int64.toInt_inj.mp h0)

theorem cents_ne_zero {v : Int64} (h : v ≠ 0) : (v.toInt : ℚ) / 100 ≠ 0 := by
  have h' : (v.toInt : ℚ) ≠ 0 := by exact_mod_cast toInt_ne_zero h
  exact div_ne_zero h' (by norm_num)

theorem hundred_ne : (100 : Int64) ≠ 0 ∧ (100 : Int64) ≠ 0 := by decide

theorem newState_empty {sp : CreateSplitRequest} (h : sp.reconcileState = "") : sp.newState = "n" :=
  if_pos h

/-- A row with an amount is accepted on an account that takes entries. -/
theorem CsvRow.accepts (h0 : r.valNum ≠ 0) (ht : s.Takes book account) (hb : s.CanBalance book)
    (hbook : s.hasBook book = true) : s.Accepts book (r.request account) := by
  obtain ⟨sum, hsum, hzero⟩ := (representable_cents r.valNum).gate
  refine ⟨?_, ⟨sum, by rw [CsvRow.amounts_request h0, hsum], fun hz => ?_, fun _ => hb⟩, ?_, ?_,
    Nat.zero_le _, rfl, hbook⟩
  · intro sp hsp _
    obtain rfl := List.mem_singleton.mp hsp
    exact hundred_ne
  · rw [exactSum_cents] at hzero
    exact absurd (hzero.mp hz) (cents_ne_zero h0)
  · intro sp hsp _
    obtain rfl := List.mem_singleton.mp hsp
    exact ht
  · intro sp hsp _
    obtain rfl := List.mem_singleton.mp hsp
    rw [newState_empty rfl]
    decide

theorem CsvRow.askable : Askable (r.request account) := by
  have h100 : (0 : Int64) < 100 := by decide
  constructor
  · intro sp hsp
    obtain rfl := List.mem_singleton.mp hsp
    exact h100
  · intro p hp
    have hp' : p <+: [] ++ [(r.valNum, 100)] := hp
    rcases List.prefix_concat_iff.mp hp' with rfl | hp'
    · obtain ⟨hlo, hhi, -⟩ := fits_cents r.valNum
      have hne := cents_negates r.valNum
      have hden := (cents_num r.valNum.toInt).2
      rw [List.nil_append, exactSum_cents]
      exact ⟨by omega, hhi, by omega⟩
    · obtain rfl := List.prefix_nil.mp hp'
      rw [exactSum_nil]
      decide

/-- What the posting of a row leaves: its transaction, and no account but the first `Imbalance`. -/
structure CsvStep (book : Guid) (account : GuidText) (r : CsvRow) (s : Db) (as : List Account)
    (p : Transaction × List Split) : Prop where
  posted : r.Posted book account ((s.append as [p.1] p.2).Imbalance book) p
  only : ImbalanceOnly book as
  opened : ∀ a ∈ as, a.placeholder = false ∧ s.imbalance book = none
  keyed : (s.append as [p.1] p.2).Keyed

/-- What is stored for a row is its transaction. -/
theorem Stores.posted {as : List Account} {p : Transaction × List Split} (h0 : r.valNum ≠ 0)
    (hc : Created book (r.request account) as p.1 p.2) (hd : p.1.description = r.description)
    (h : Stores book (r.request account) s p.1 p.2 v) :
    r.Posted book account (v.Imbalance book) p := by
  obtain ⟨asked, added, hrows, hasked, -, hadded⟩ := h.splits
  have hkept : (r.request account).splits.filter (·.valueNum != 0) = (r.request account).splits := by
    simp [CsvRow.request, h0]
  rw [hkept] at hasked
  obtain ⟨x, rest, hx, hnil, rfl⟩ := List.forall₂_cons_left_iff.mp hasked
  obtain rfl := List.forall₂_nil_left_iff.mp hnil
  obtain ⟨y, rfl, hon, hvalue, hqty, hstate⟩ := hadded (CsvRow.total_request ▸ cents_ne_zero h0)
  rw [CsvRow.total_request] at hvalue
  refine ⟨hc.inBook, hc.plaid, hc.postDate, hd, x, y, hrows, ?_, ⟨hx.account, ?_, ?_⟩,
    ⟨hon, hvalue, hqty⟩, hx.reconcileState, hstate⟩
  · exact ⟨h.tx x (by simp [hrows]), h.tx y (by simp [hrows])⟩
  · rw [Split.fraction, hx.valueNum, hx.valueDenom]
  · rw [Split.qty, hx.quantityNum, hx.quantityDenom]

theorem csvRow_swp (hk : s.Keyed) (h0 : r.valNum ≠ 0) (ht : s.Takes book account)
    (hb : s.CanBalance book) (hbook : s.hasBook book = true) :
    (createTransaction book (r.request account)).swp (peaceful named) Duty.none
      (fun o t => ∃ as p, o = .ok p ∧ t = .idle (s.append as [p.1] p.2) ∧
        CsvStep book account r s as p) (.idle s) := by
  have hnamed : ∀ sp ∈ (r.request account).splits, ∀ g, sp.accountGuid.parse = .ok g →
      named g = true ∨ s.hasAccount g = true := by
    intro sp hsp g hg
    obtain rfl := List.mem_singleton.mp hsp
    obtain ⟨g', hg', a, ha, rfl, -⟩ := ht
    obtain rfl := Except.ok.inj (hg.symm.trans hg')
    exact .inr (List.any_eq_true.mpr ⟨a, ha, beq_self_eq_true _⟩)
  have hstored : (createTransaction book (r.request account)).swp machine Duty.none
      (fun o t => ∀ p, o = .ok p → ∃ as, t = .idle (s.append as [p.1] p.2) ∧
        Created book (r.request account) as p.1 p.2 ∧ s.Grows as ∧
        Stores book (r.request account) s p.1 p.2 (s.append as [p.1] p.2)) (.idle s) := by
    refine createTransaction_alone (fun e p hp => absurd hp (by simp))
      fun as t rows v hc hadds _ hp p he => ?_
    obtain rfl := Except.ok.inj he
    exact ⟨as, by rw [← hadds.eq], hc, hadds.grows, hadds.eq ▸ hc.stores CsvRow.askable hadds hp⟩
  have hkeyed : (createTransaction book (r.request account)).swp machine Duty.none
      (fun _ t => t.Holds Db.Keyed) (.idle s) :=
    swp_of_issues (createTransaction_issues _) (fun _ _ _ _ _ hq hv _ hx => hq.keyed hv hx)
      (Solo.holds_idle hk)
  refine swp_mono (fun o t h => ?_) (swp_and (createTransaction_decides hk hnamed)
    (swp_peaceful (swp_and hstored hkeyed)))
  obtain ⟨hdecided, hrest, hholds⟩ := h
  cases o with
  | error e => exact absurd (CsvRow.accepts h0 ht hb hbook) hdecided
  | ok p =>
    obtain ⟨as, rfl, hc, hgrows, hstores⟩ := hrest p rfl
    have hrecorded := hdecided.2
    refine ⟨as, p, rfl, rfl, hstores.posted h0 hc hrecorded.description, hc.accounts, ?_, hholds.1⟩
    intro a ha
    have hnew : a ∉ s.accounts := by
      intro hold
      rcases hc.accounts with rfl | ⟨b, rfl, -⟩
      · exact absurd ha (by simp)
      · obtain rfl := List.mem_singleton.mp ha
        have hhas : s.hasAccount a.guid = true :=
          List.any_eq_true.mpr ⟨a, hold, beq_self_eq_true _⟩
        exact absurd (hhas.symm.trans hgrows.1.1) (by simp)
    rcases hrecorded.accounts a (List.mem_append_right _ ha) with hold | hfirst
    · exact absurd hold hnew
    · exact hfirst

/-- A row of amount zero is refused. -/
theorem csvRow_zero (h0 : r.valNum = 0) :
    (createTransaction book (r.request account)).swp (peaceful named) Duty.none
      (fun o t => o = .error (.message "a transaction must have at least 2 splits") ∧ t = .idle s)
      (.idle s) := by
  have hvalid : validSplits (r.request account).splits = .ok [] := by
    simp [CsvRow.request, validSplits, h0]
  unfold createTransaction
  rw [hvalid]
  refine swp_inTx_down (fun _ _ => trivial) (fun _ _ => trivial) (fun env e he => ?_) ?_
  · exact absurd he (by simp [peaceful_down])
  · exact ⟨rfl, rfl⟩

/-! ## The loop -/

theorem Db.imbalance_append (as : List Account) (ts : List Transaction) (rs : List Split) :
    (s.append as ts rs).imbalance book =
      (s.imbalance book).or (as.find? fun a => a.bookGuid == book && a.name == "Imbalance") :=
  List.find?_append

/-- The next row finds what it needs again. -/
theorem CsvStep.next {as : List Account} {p : Transaction × List Split}
    (h : CsvStep book account r s as p) (ht : s.Takes book account) (hb : s.CanBalance book) :
    (s.append as [p.1] p.2).Takes book account ∧ (s.append as [p.1] p.2).CanBalance book := by
  obtain ⟨g, hg, a, ha, ho⟩ := ht
  refine ⟨⟨g, hg, a, List.mem_append_left _ ha, ho⟩, fun hnone => ?_, fun b hb' => ?_⟩
  · rw [Db.imbalance_append, Option.or_eq_none_iff] at hnone
    obtain ⟨root, hroot, hhas⟩ := hb.exists' hnone.1
    refine ⟨root, hroot, ?_⟩
    obtain ⟨x, hx, hg⟩ := List.any_eq_true.mp hhas
    exact List.any_eq_true.mpr ⟨x, List.mem_append_left _ hx, hg⟩
  · rw [Db.imbalance_append, Option.or_eq_some_iff] at hb'
    rcases hb' with hold | ⟨-, hnew⟩
    · exact hb.opened b hold
    · exact (h.opened b (List.mem_of_find?_eq_some hnew)).1

/-- What the posting of rows leaves: their transactions in order, and no account but the first
`Imbalance`. -/
structure CsvPosts (book : Guid) (account : GuidText) (rs : List CsvRow) (s : Db)
    (as : List Account) (ps : List (Transaction × List Split)) : Prop where
  posted : List.Forall₂ (fun r p => r.Posted book account
    ((s.append as (ps.map (·.1)) (ps.flatMap (·.2))).Imbalance book) p) rs ps
  only : ImbalanceOnly book as
  first : s.imbalance book ≠ none → as = []

theorem CsvPosts.cons {as as' : List Account} {p : Transaction × List Split} {rs : List CsvRow}
    {ps : List (Transaction × List Split)} (h : CsvStep book account r s as p)
    (hs : CsvPosts book account rs (s.append as [p.1] p.2) as' ps) :
    CsvPosts book account (r :: rs) s (as ++ as') (p :: ps) := by
  have hsame : (s.append as [p.1] p.2).append as' (ps.map (·.1)) (ps.flatMap (·.2)) =
      s.append (as ++ as') ((p :: ps).map (·.1)) ((p :: ps).flatMap (·.2)) := by
    simp
  refine ⟨.cons (h.posted.mono fun g hg => ?_) (hsame ▸ hs.posted), ?_, fun hne => ?_⟩
  · obtain ⟨a, ha, hon⟩ := hg
    rw [← hsame]
    exact ⟨a, List.mem_append_left _ ha, hon⟩
  · rcases h.only with rfl | ⟨a, rfl, hname, hbook, hplaid⟩
    · exact hs.only
    · have hmade : as' = [] := by
        refine hs.first ?_
        simp [Db.imbalance_append, hname, hbook]
      rw [hmade, List.append_nil]
      exact .inr ⟨a, rfl, hname, hbook, hplaid⟩
  · have hnone : as = [] := by
      rcases h.only with rfl | ⟨a, rfl, -⟩
      · rfl
      · exact absurd (h.opened a (List.mem_singleton_self a)).2 hne
    subst hnone
    refine hs.first ?_
    rw [Db.imbalance_append]
    simpa using hne

/-- **The loop** posts the rows with an amount, in order. -/
theorem csvLoop_posts (rs : List CsvRow) (hk : s.Keyed) (ht : s.Takes book account)
    (hb : s.CanBalance book) (hbook : s.hasBook book = true) :
    (csvLoop book account rs).swp (peaceful named) Duty.none
      (fun o t => ∃ as ps, o = .ok (rs.filter (·.valNum != 0)).length ∧
        t = .idle (s.append as (ps.map (·.1)) (ps.flatMap (·.2))) ∧
        CsvPosts book account (rs.filter (·.valNum != 0)) s as ps) (.idle s) := by
  induction rs generalizing s with
  | nil =>
    refine ⟨[], [], rfl, ?_, .nil, .inl rfl, fun _ => rfl⟩
    simp
  | cons r rs ih =>
    by_cases h0 : r.valNum = 0
    · have hskip : (r :: rs).filter (·.valNum != 0) = rs.filter (·.valNum != 0) := by simp [h0]
      rw [hskip]
      refine swp_bind (swp_attempt (swp_mono (fun o t h => ?_) (csvRow_zero h0)))
      obtain ⟨rfl, rfl⟩ := h
      exact ih hk ht hb hbook
    · have hkeep : (r :: rs).filter (·.valNum != 0) = r :: rs.filter (·.valNum != 0) := by simp [h0]
      rw [hkeep]
      refine swp_bind (swp_attempt (swp_mono (fun o t h => ?_) (csvRow_swp hk h0 ht hb hbook)))
      obtain ⟨as, p, rfl, rfl, hstep⟩ := h
      obtain ⟨ht', hb'⟩ := hstep.next ht hb
      dsimp only [Prog.ofExcept, ret_bind]
      refine swp_bind (swp_mono (fun o t h => ?_) (ih hstep.keyed ht' hb' hbook))
      obtain ⟨as', ps, rfl, rfl, hposts⟩ := h
      refine ⟨as ++ as', p :: ps, rfl, ?_, CsvPosts.cons hstep hposts⟩
      simp

end Row

/-! ## The server -/

/-- **A CSV upload posts every row with an amount, in the order of the file, and no other**, and
answers how many they are, on an account that takes entries and as long as nothing goes wrong. It
brings along no account but the first `Imbalance` of the book. -/
theorem csv_posted {ok : Event → (Nat → Env) → Db → Prop} {db : Db} {cfg : PlaidConfig}
    {book : Guid} {account : GuidText} {rs : List CsvRow} {envs : Nat → Env} (hr : Runs ok db)
    (hbook : db.hasBook book = true) (ht : db.Takes book account) (hb : db.CanBalance book)
    (hq : Uneventful envs)
    (ha : mayServe (Event.request cfg book (.importCsv account (.rows rs))).call envs db = true) :
    ∃ as ps, serve (Event.request cfg book (.importCsv account (.rows rs))).call envs db =
        (.ok (.count (rs.filter (·.valNum != 0)).length),
          db.append as (ps.map (·.1)) (ps.flatMap (·.2))) ∧
      CsvPosts book account (rs.filter (·.valNum != 0)) db as ps := by
  have hcall : (Event.request cfg book (.importCsv account (.rows rs))).call =
      (csvLoop book account rs).bind fun n => ret (.count n) := by
    obtain ⟨g, hg, -⟩ := ht
    have hne : account ≠ .malformed "" := by
      rintro rfl
      exact absurd hg (by simp [GuidText.parse])
    exact if_neg hne
  rw [hcall] at ha ⊢
  obtain ⟨hserve, hallowed⟩ := @serve_map db envs _ (csvLoop book account rs) Response.count
  obtain ⟨hall, hrun⟩ := @run_peaceful (fun _ => false) _ _ envs _ hq (fun _ => rfl)
    (hallowed.symm.trans ha)
  obtain ⟨as, ps, hcount, hstate, hposts⟩ := run_of_swp (csvLoop_posts rs hr.keyed ht hb hbook) hall
  rw [hrun] at hcount hstate
  refine ⟨as, ps, ?_, hposts⟩
  rw [hserve, hcount, hstate]
  rfl

/-- Three rows, one of amount zero. -/
def statementRows : List CsvRow :=
  [⟨⟨19000, 0⟩, "rent", -120000⟩, ⟨⟨19001, 0⟩, "notice", 0⟩, ⟨⟨19002, 0⟩, "food", -2550⟩]

/-- The other two are posted on the bank account. -/
theorem csv_posted_statement : ∃ as ps,
    serve (Event.request plainConfig 3 (.importCsv (Guid.text 12) (.rows statementRows))).call
      (calm 100) registered = (.ok (.count 2), registered.append as (ps.map (·.1))
        (ps.flatMap (·.2))) ∧
    CsvPosts 3 (Guid.text 12) [⟨⟨19000, 0⟩, "rent", -120000⟩, ⟨⟨19002, 0⟩, "food", -2550⟩]
      registered as ps := by
  have hruns : Runs (fun _ _ _ => True) registered := registered_runs trivial
  have hnone : registered.imbalance 3 = none := by decide +kernel
  have hopen : registered.Open 3 12 := by
    unfold Db.Open
    decide +kernel
  refine csv_posted hruns (by decide +kernel) ⟨12, rfl, hopen⟩ ⟨fun _ => ?_, fun a ha => ?_⟩
    (uneventful_calm 100) (by decide +kernel)
  · exact ⟨5, by decide +kernel, by decide +kernel⟩
  · exact absurd (hnone.symm.trans ha) (by simp)

end Antimoney
