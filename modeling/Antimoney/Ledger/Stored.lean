import Antimoney.Concurrent
import Antimoney.Effects
import Antimoney.Register.Sums

/-!
# What stored rows hold

Where each stored transaction and split comes from, said once for all effects
(`Effect.transaction`, `Effect.split`), and two properties every row should have by it: a post date at
11:00 UTC, and positive denominators. Creating and updating transactions normalises dates and
refuses zero denominators; an import stores what the file has.

* **`runs_dates`**: post dates are normalised in every run whose files have them so.
* **`runs_fractions`**: denominators are positive, and no register panics, in every run whose requests
  and files have them so.
-/

namespace Antimoney

open Antimoney.Lib Antimoney.Gnc Prog

/-! ## Where rows come from -/

/-- A transaction after an effect of `e`, which met `s`, on `x`. -/
inductive TransactionFrom (e : Event) (s x : Db) (t : Transaction) : Prop
  | kept (h : t ∈ x.transactions)
  | created {book : Guid} {req : CreateTransactionRequest} {rows : List Split}
      (he : e.Requests book req) (hc : Created book req [] t rows)
  | edited {date : GoTime} (h : t.postDate = normalizePostDate date)
  | restored {book : Guid} {file : ExportData} {src : ExportTransaction}
      (he : e.file s = some (book, file)) (hsrc : src ∈ file.transactions)
      (h : src.postDate = some t.postDate)

/-- A split after an effect of `e`, which met `s`, on `x`. -/
inductive SplitFrom (e : Event) (s x : Db) (sp : Split) : Prop
  | kept {old : Split} {state : String} (h : old ∈ x.splits)
      (heq : sp = { old with reconcileState := state })
  | created {book : Guid} {req : CreateTransactionRequest} {t : Transaction} {rows : List Split}
      (he : e.Requests book req) (hc : Created book req [] t rows) (hrow : sp ∈ rows)
  | edited {cfg : PlaidConfig} {book guid : Guid} {id : GuidText} {req : UpdateTransactionRequest}
      {rows : List Split} (he : e = .request cfg book (.updateTransaction id req))
      (hc : Chosen req guid rows) (hrow : sp ∈ rows)
  | restored {book : Guid} {file : ExportData} {t : ExportTransaction} {src : ExportSplit}
      {m : Renaming} (he : e.file s = some (book, file)) (ht : t ∈ file.transactions)
      (hsrc : src ∈ t.splits) (h : m.SplitAs src sp)

section From

variable {e : Event} {s x y : Db}

/-- The rows of an import have the dates of the file. -/
theorem Lands.postDate {book : Guid} {file : ExportData} {root : Option Guid}
    {renamed : List (ExportAccount × Guid)} {txns : List ImportTransaction} {as : List Account}
    {ts : List Transaction} {ss : List Split} (h : Lands x book file root renamed txns as ts ss)
    {t : Transaction} (ht : t ∈ ts) : ∃ src ∈ file.transactions, src.postDate = some t.postDate := by
  obtain ⟨t', ht', hrow⟩ := exists_of_forall₂ h.rows.transactions ht
  obtain ⟨src, hsrc, hren⟩ := exists_of_forall₂ h.names.transactions ht'
  exact ⟨src, hsrc, hren.src ▸ hrow.postDate⟩

theorem Effect.transaction (h : Effect e s x y) {t : Transaction} (ht : t ∈ y.transactions) :
    TransactionFrom e s x t := by
  cases h with
  | aside h => exact .kept (h.transactions ▸ ht)
  | account => exact .kept (by simpa [Db.append] using ht)
  | drop h =>
    obtain ⟨rfl, -⟩ := Db.deleteAccounts_ok h
    exact .kept ht
  | delete c => exact .kept (List.mem_of_mem_filter ht)
  | clear book => exact .kept (List.mem_of_mem_filter ht)
  | update | toggle | reconcile => exact .kept ht
  | create he _ hc _ =>
    rcases List.mem_append.mp ht with ht | ht
    · exact .kept ht
    · obtain rfl := List.mem_singleton.mp ht
      exact .created he hc
  | edit _ _ _ hu _ =>
    obtain ⟨f, -, ⟨date, hdate⟩, rfl⟩ := hu.eq
    rcases mem_updateWhere_cases ht with ⟨ht, -⟩ | ⟨t, -, -, rfl⟩
    · exact .kept ht
    · exact .edited (hdate t)
  | restore he _ h =>
    rcases List.mem_append.mp ht with ht | ht
    · exact .kept (List.mem_of_mem_filter ht)
    · obtain ⟨src, hsrc, hdate⟩ := h.postDate ht
      exact .restored he hsrc hdate

theorem SplitFrom.same {sp : Split} (h : sp ∈ x.splits) : SplitFrom e s x sp :=
  @SplitFrom.kept _ _ _ _ _ sp.reconcileState h rfl

theorem SplitFrom.set {sp : Split} {book : Guid} {state : String} {c : Split → Bool}
    (h : sp ∈ (setReconcileState book state c x).2.splits) : SplitFrom e s x sp := by
  rcases mem_updateWhere_cases h with ⟨h, -⟩ | ⟨old, hold, -, rfl⟩
  · exact .same h
  · exact .kept hold rfl

theorem Effect.split (h : Effect e s x y) {sp : Split} (hsp : sp ∈ y.splits) :
    SplitFrom e s x sp := by
  cases h with
  | aside h => exact .same (h.splits ▸ hsp)
  | account => exact .same (by simpa [Db.append] using hsp)
  | drop h =>
    obtain ⟨rfl, -⟩ := Db.deleteAccounts_ok h
    exact .same hsp
  | delete c => exact .same (List.mem_of_mem_filter hsp)
  | clear book => exact .same (List.mem_of_mem_filter hsp)
  | update => exact .same hsp
  | toggle | reconcile => exact .set hsp
  | create he _ hc _ =>
    rcases List.mem_append.mp hsp with hsp | hsp
    · exact .same hsp
    · exact .created he hc hsp
  | edit he _ hc hu _ =>
    rcases hu.splits hsp with hsp | hsp
    · exact .same hsp
    · exact .edited he hc hsp
  | restore he _ h =>
    rcases Db.refill_splits hsp with hsp | hsp
    · exact .same hsp
    · obtain ⟨t, ht, src, hsrc, hrow⟩ := h.split hsp
      exact .restored he ht hsrc hrow

end From

/-! ## Post dates -/

/-- 11:00 UTC of a calendar day. -/
def IsPostDate (t : Time) : Prop := ∃ d : Day, t = d * 86400 + 39600

theorem isPostDate_normalize (t : GoTime) : IsPostDate (normalizePostDate t) := ⟨t.day, rfl⟩

/-- The dates of the file the event imports are normalised. -/
def Event.KeepsDates (e : Event) (db : Db) : Prop :=
  ∀ book file, e.file db = some (book, file) → ∀ t ∈ file.transactions, ∀ p, t.postDate = some p →
    IsPostDate p

/-- Every post date is at 11:00 UTC. -/
def Db.Dated (db : Db) : Prop := ∀ t ∈ db.transactions, IsPostDate t.postDate

theorem Effect.dated {e : Event} {s x y : Db} (h : Effect e s x y) (he : e.KeepsDates s)
    (hx : x.Dated) : y.Dated := by
  intro t ht
  cases h.transaction ht with
  | kept h => exact hx t h
  | created _ hc => exact hc.postDate ▸ isPostDate_normalize _
  | edited h => exact h ▸ isPostDate_normalize _
  | restored hfile hsrc h => exact he _ _ hfile _ hsrc _ h

/-- The condition on a step of a run. -/
def DatesKept (e : Event) (envs : Nat → Env) (db : Db) : Prop := e.KeepsDates db ∧ Spared e envs db

/-- **Post dates.** In every run in which the files that are imported or restored have normalised
dates, so have all stored transactions. -/
theorem runs_dates {db : Db} (hr : Runs DatesKept db) : db.Dated :=
  hr.by_effects (fun _ _ _ h => h.2) (fun _ h => absurd h (by simp [Db.empty]))
    fun _ _ _ h _ _ _ _ _ _ hx he => he.dated h.1 hx

theorem datesKept_of {e : Event} {envs : Nat → Env} {db : Db} (hf : e.file db = none) :
    DatesKept e envs db :=
  ⟨fun _ _ h => absurd (hf.symm.trans h) (by simp), fun _ _ h => absurd (hf.symm.trans h) (by simp)⟩

/-- A purchase's date. -/
theorem runs_dates_purchased : purchased.Dated :=
  runs_dates (.step _ _ (registered_runs (datesKept_of rfl)) (by decide +kernel) (datesKept_of rfl))

/-- A file's midnight is stored as it is. -/
theorem runs_no_dates : ¬ ∀ db, Runs (fun _ _ _ => True) db → db.Dated := by
  intro h
  have hdated := h _ (.step (.request plainConfig 3 (.importJson (some smallFile))) (calm 100)
    (registered_runs trivial) (by decide +kernel) trivial)
  have hzero : (serve (Event.request plainConfig 3 (.importJson (some smallFile))).call (calm 100)
      registered).2.transactions.map (·.postDate) = [0] := by
    decide +kernel
  obtain ⟨t, ht, hp⟩ := List.mem_map.mp (hzero ▸ List.mem_singleton_self 0)
  obtain ⟨d, hd⟩ := hdated t ht
  have hbad : (0 : Int) = d * 86400 + 39600 := hp ▸ hd
  omega

/-! ## Denominators -/

/-- The denominators of a requested split are positive, or it is dropped. -/
def CreateSplitRequest.Positive (sp : CreateSplitRequest) : Prop :=
  sp.valueNum ≠ 0 → 0 < sp.valueDenom ∧ 0 < sp.quantityDenom

/-- The denominators the event is given, in a request or a file, are positive. -/
structure Event.KeepsFractions (e : Event) (db : Db) : Prop where
  create : ∀ cfg book req, e = .request cfg book (.createTransaction req) →
    ∀ sp ∈ req.splits, sp.Positive
  update : ∀ cfg book id req, e = .request cfg book (.updateTransaction id req) →
    ∀ sp ∈ req.splits, sp.Positive
  file : ∀ book file, e.file db = some (book, file) → ∀ t ∈ file.transactions, ∀ sp ∈ t.splits,
    0 < sp.valueDenom ∧ 0 < sp.quantityDenom

/-- A stored split's denominators are positive. -/
def Split.Positive (sp : Split) : Prop := 0 < sp.valueDenom ∧ 0 < sp.quantityDenom

/-- Every stored split has positive denominators. -/
def Db.Fractions (db : Db) : Prop := ∀ sp ∈ db.splits, sp.Positive

section Fractions

variable {e : Event} {s x y : Db} {book : Guid}

theorem Event.Requests.positive {req : CreateTransactionRequest} (h : e.Requests book req)
    (he : e.KeepsFractions s) {sp : CreateSplitRequest} (hsp : sp ∈ req.splits) : sp.Positive := by
  have hcents : (0 : Int64) < 100 := by decide
  cases h with
  | body cfg book req =>
    obtain ⟨sp₀, hsp₀, rfl⟩ := List.mem_map.mp hsp
    exact he.create cfg book req rfl sp₀ hsp₀
  | csv cfg book account rs r =>
    obtain rfl := List.mem_singleton.mp hsp
    exact fun _ => ⟨hcents, hcents⟩
  | bank cfg book rows row bank st hst =>
    have hpos : 0 < st.amountDenom := hst ▸ hcents
    rcases List.mem_cons.mp hsp with rfl | hsp
    · exact fun _ => ⟨hpos, hpos⟩
    · obtain rfl := List.mem_singleton.mp hsp
      exact fun _ => ⟨hpos, hpos⟩

/-- The rows of valid splits. -/
theorem RowOf.positive {tx : Guid} {state : CreateSplitRequest → String} {sp : CreateSplitRequest}
    {row : Split} (h : RowOf tx state sp row) (hsp : 0 < sp.valueDenom ∧ 0 < sp.quantityDenom) :
    row.Positive := by
  unfold Split.Positive
  rw [h.valueDenom, h.quantityDenom]
  exact hsp

theorem validSplits_positive {splits valid : List CreateSplitRequest}
    (h : validSplits splits = .ok valid) (hp : ∀ sp ∈ splits, sp.Positive) :
    ∀ sp ∈ valid, 0 < sp.valueDenom ∧ 0 < sp.quantityDenom := by
  obtain ⟨-, rfl⟩ := validSplits_filter h
  intro sp hsp
  obtain ⟨hsp, hne⟩ := List.mem_filter.mp hsp
  exact hp sp hsp (by simpa using hne)

/-- The splits of a new transaction, the balancing one among them. -/
theorem Created.positive {req : CreateTransactionRequest} {as : List Account} {t : Transaction}
    {rows : List Split} (hc : Created book req as t rows) (hp : ∀ sp ∈ req.splits, sp.Positive)
    {row : Split} (hrow : row ∈ rows) : row.Positive := by
  obtain ⟨valid, sum, splits, hvalid, hsum, hfor, -, hrows⟩ := hc.rows
  obtain ⟨sp, hsp, hof⟩ := exists_of_forall₂ hrows hrow
  have hpos := validSplits_positive hvalid hp
  refine hof.positive ?_
  rcases hfor with ⟨-, rfl⟩ | ⟨-, g, rfl⟩
  · exact hpos sp hsp
  · rcases List.mem_append.mp hsp with hsp | hsp
    · exact hpos sp hsp
    · obtain rfl := List.mem_singleton.mp hsp
      obtain ⟨c, hc, hcpos⟩ := @gateSum_denom_pos
        (valid.map CreateSplitRequest.fraction) fun f hf => by
          obtain ⟨sp, hsp, rfl⟩ := List.mem_map.mp hf
          exact (hpos sp hsp).1
      obtain rfl := Option.some.inj (hc.symm.trans hsum)
      exact ⟨hcpos, hcpos⟩

theorem Chosen.positive {req : UpdateTransactionRequest} {guid : Guid} {rows : List Split}
    (hc : Chosen req guid rows) (hp : ∀ sp ∈ req.splits, sp.Positive) {row : Split}
    (hrow : row ∈ rows) : row.Positive := by
  obtain ⟨splits, sum, hvalid, -, -, -, hrows⟩ := hc.rows
  obtain ⟨sp, hsp, hof⟩ := exists_of_forall₂ hrows hrow
  exact hof.positive (validSplits_positive hvalid hp sp hsp)

theorem Effect.fractions (h : Effect e s x y) (he : e.KeepsFractions s) (hx : x.Fractions) :
    y.Fractions := by
  intro sp hsp
  cases h.split hsp with
  | kept h heq =>
    have hold := hx _ h
    exact heq ▸ hold
  | created hreq hc hrow => exact hc.positive (fun sp hsp => hreq.positive he hsp) hrow
  | edited hreq hc hrow => exact hc.positive (he.update _ _ _ _ hreq) hrow
  | restored hfile ht hsrc h =>
    unfold Split.Positive
    rw [h.valueDenom, h.quantityDenom]
    exact he.file _ _ hfile _ ht _ hsrc

theorem Db.Fractions.divisible (h : s.Fractions) : s.Divisible := by
  intro sp hsp h0
  have hpos := (h sp hsp).2
  rw [h0] at hpos
  exact absurd hpos (by decide)

end Fractions

/-- The condition on a step of a run. -/
def FractionsKept (e : Event) (envs : Nat → Env) (db : Db) : Prop :=
  e.KeepsFractions db ∧ Spared e envs db

theorem Runs.fractions {db : Db} (hr : Runs FractionsKept db) : db.Fractions :=
  hr.by_effects (fun _ _ _ h => h.2) (fun _ h => absurd h (by simp [Db.empty]))
    fun _ _ _ h _ _ _ _ _ _ hx he => he.fractions h.1 hx

/-- The request reads a register, or a page of one. -/
def Request.ReadsRegister (req : Request) : Prop :=
  (∃ id, req = .register id) ∨
    ∃ id cursor direction limit, req = .registerPage id cursor direction limit

/-- **Stored fractions.** In every run in which the requested splits and those of the files that are
imported or restored have positive denominators, so have all stored splits, and no register
panics. -/
theorem runs_fractions {db : Db} (hr : Runs FractionsKept db) :
    db.Fractions ∧ ∀ cfg book req envs, Request.ReadsRegister req →
      mayServe (Event.request cfg book req).call envs db = true →
      (serve (Event.request cfg book req).call envs db).1 ≠ .error .panic :=
  ⟨hr.fractions, fun _ _ _ _ hreq ha => serve_unpanicked hr.fractions.divisible hreq ha⟩

/-- No file, and no update of a transaction. -/
theorem fractionsKept_of {e : Event} {envs : Nat → Env} {db : Db} (hf : e.file db = none)
    (hc : ∀ cfg book req, e = .request cfg book (.createTransaction req) →
      ∀ sp ∈ req.splits, sp.Positive)
    (hu : ∀ cfg book id req, e ≠ .request cfg book (.updateTransaction id req)) :
    FractionsKept e envs db := by
  refine ⟨⟨hc, fun cfg book id req he => absurd he (hu cfg book id req), fun _ _ h => ?_⟩,
    fun _ _ h => ?_⟩
  · exact absurd (hf.symm.trans h) (by simp)
  · exact absurd (hf.symm.trans h) (by simp)

theorem purchased_fractionsKept : Runs FractionsKept purchased := by
  refine .step _ _ (registered_runs (fractionsKept_of rfl (by simp) (by simp))) (by decide +kernel)
    (fractionsKept_of rfl ?_ (by simp))
  rintro cfg book req he sp hsp -
  obtain ⟨-, -, hreq⟩ := Event.request.inj he
  obtain rfl := Request.createTransaction.inj hreq
  have hall : ∀ sp ∈ purchaseSplits 1000, 0 < sp.valueDenom ∧ 0 < sp.quantityDenom := by decide
  exact hall sp hsp

/-- The register of the bank account after a purchase. -/
theorem runs_fractions_purchased : purchased.Fractions ∧
    (serve (Event.request plainConfig 3 (.register (Guid.text 12))).call (calm 200) purchased).1 ≠
      .error .panic := by
  obtain ⟨hf, hreg⟩ := runs_fractions purchased_fractionsKept
  exact ⟨hf, hreg plainConfig 3 _ (calm 200) (.inl ⟨_, rfl⟩) (by decide +kernel)⟩

/-- A file with a quantity that has no denominator. -/
def zeroFile : ExportData :=
  { smallFile with
    transactions := [⟨.uuid 42 .canonical, some 0, some 0, "opening",
      [⟨.uuid 43 .canonical, .uuid 41 .canonical, "", 0, 100, 0, 0, "n"⟩]⟩] }

/-- The book with that file. -/
def zeroed : Db :=
  (serve (Event.request plainConfig 3 (.importJson (some zeroFile))).call (calm 100) registered).2

/-- Importing that file stores it, and the register of its account panics. -/
theorem runs_no_fractions :
    (¬ ∀ db, Runs (fun _ _ _ => True) db → db.Fractions) ∧
      ¬ ∀ db, Runs (fun _ _ _ => True) db → ∀ cfg book req envs, Request.ReadsRegister req →
        mayServe (Event.request cfg book req).call envs db = true →
        (serve (Event.request cfg book req).call envs db).1 ≠ .error .panic := by
  have hr : Runs (fun _ _ _ => True) zeroed :=
    .step _ _ (registered_runs trivial) (by decide +kernel) trivial
  constructor
  · intro h
    have hzero : zeroed.splits.map (·.quantityDenom) = [0] := by decide +kernel
    obtain ⟨sp, hsp, h0⟩ := List.mem_map.mp (hzero ▸ List.mem_singleton_self 0)
    have hpos := (h _ hr sp hsp).2
    rw [h0] at hpos
    exact absurd hpos (by decide)
  · intro h
    have hpanic : (serve (Event.request plainConfig 3 (.register (Guid.text 103))).call (calm 200)
        zeroed).1 = .error .panic := by
      decide +kernel
    exact h _ hr plainConfig 3 _ (calm 200) (.inl ⟨_, rfl⟩) (by decide +kernel) hpanic

end Antimoney
