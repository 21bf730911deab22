import Antimoney.Ledger.Loops
import Mathlib.Tactic.Linarith
import Mathlib.Tactic.NormNum

/-!
# Double entry

Every event of the server keeps the ledger in order, under a condition on what it is given:

* a new transaction's amounts are `Representable`, an update's are `Gated`;
* an imported file balances;
* no read of a transaction's splits for a snapshot fails or is cut short (`wholeSplits`).

CSV rows and bank transactions are in cents and need no condition. So every run whose events meet
it stays balanced (**`runs_doubleEntry`**); `runs_unbalanced` is a run that does not.
-/

namespace Antimoney

open Antimoney.Lib Antimoney.Gnc Prog

/-! ## Amounts in cents -/

theorem partialSumsFit_nil : PartialSumsFit [] := by
  intro p hp
  obtain rfl := List.prefix_nil.mp hp
  decide +kernel

theorem partialSumsFit_concat {ss : List Fraction} {s : Fraction} (h : PartialSumsFit ss)
    (hs : Fits (exactSum (ss ++ [s]))) : PartialSumsFit (ss ++ [s]) := by
  intro p hp
  rcases List.prefix_concat_iff.mp hp with rfl | hp
  · exact hs
  · exact h p hp

/-- An amount of cents in lowest terms. -/
theorem cents_num (x : ℤ) :
    ((x : ℚ) / 100).num * 100 = x * ((x : ℚ) / 100).den ∧ ((x : ℚ) / 100).den ≤ 100 := by
  have hdvd : (((x : ℚ) / 100).den : ℤ) ∣ 100 := by
    have h := Rat.den_dvd x 100
    rwa [Rat.divInt_eq_div, Int.cast_ofNat] at h
  refine ⟨?_, by exact_mod_cast Int.le_of_dvd (by decide) hdvd⟩
  have hd : (((x : ℚ) / 100).den : ℚ) ≠ 0 := by exact_mod_cast ((x : ℚ) / 100).den_ne_zero
  have h := Rat.num_div_den ((x : ℚ) / 100)
  rw [div_eq_div_iff hd (by norm_num)] at h
  exact_mod_cast h

theorem fits_cents (v : Int64) : Fits ((v.toInt : ℚ) / 100) := by
  obtain ⟨hnum, hden⟩ := cents_num v.toInt
  have hlo := v.le_toInt
  have hhi := v.toInt_lt
  have hpos : (0 : ℤ) < ((v.toInt : ℚ) / 100).den := by
    exact_mod_cast ((v.toInt : ℚ) / 100).den_pos
  have hden' : (((v.toInt : ℚ) / 100).den : ℤ) ≤ 100 := by exact_mod_cast hden
  refine ⟨by nlinarith, by nlinarith, by omega⟩

theorem cents_negates (v : Int64) : ((v.toInt : ℚ) / 100).num ≠ -2 ^ 63 := by
  intro he
  obtain ⟨hnum, hden⟩ := cents_num v.toInt
  have hlo := v.le_toInt
  have hden' : (((v.toInt : ℚ) / 100).den : ℤ) ≤ 100 := by exact_mod_cast hden
  -- the denominator is 100 then, which shares the factor 4 with the numerator
  have hd : (((v.toInt : ℚ) / 100).den : ℤ) = 100 := by
    rw [he] at hnum
    nlinarith
  have hco := ((v.toInt : ℚ) / 100).reduced
  rw [he, show ((v.toInt : ℚ) / 100).den = 100 by exact_mod_cast hd] at hco
  exact absurd hco (by decide)

theorem value_cents (v : Int64) : Fraction.value (v, 100) = (v.toInt : ℚ) / 100 := by
  simp [Fraction.value, show (100 : Int64).toInt = 100 from rfl]

theorem newsExact_cents {fs : List Fraction} (h : ∀ f ∈ fs, f.2 = 100) : NewsExact fs :=
  fun f hf => ⟨by rw [h f hf]; decide, fun hlt => absurd (h f hf ▸ hlt) (by decide)⟩

theorem representable_nil : Representable [] :=
  ⟨fun _ h => absurd h (by simp), partialSumsFit_nil, by decide +kernel⟩

theorem representable_cents (v : Int64) : Representable [(v, 100)] := by
  have hsum : exactSum [(v, 100)] = (v.toInt : ℚ) / 100 := by
    rw [exactSum_cons, exactSum_nil, add_zero, value_cents]
  refine ⟨newsExact_cents (by simp), ?_, hsum ▸ cents_negates v⟩
  have hfit : PartialSumsFit ([] ++ [(v, 100)]) :=
    partialSumsFit_concat partialSumsFit_nil (hsum ▸ fits_cents v)
  exact hfit

/-- What `Import` posts: an amount and its negation, which wraps for the least one. -/
theorem representable_opposite (a : Int64) : Representable [(-a, 100), (a, 100)] := by
  have hsum : exactSum [(-a, 100), (a, 100)] = (((-a).toInt + a.toInt : ℤ) : ℚ) / 100 := by
    rw [exactSum_cons, exactSum_cons, exactSum_nil, add_zero, value_cents, value_cents]
    push_cast
    ring
  have hfit : Fits (exactSum [(-a, 100), (a, 100)]) ∧
      (exactSum [(-a, 100), (a, 100)]).num ≠ -2 ^ 63 := by
    rw [hsum]
    by_cases ha : a = Int64.minValue
    · subst ha
      decide +kernel
    · rw [toInt_neg_of_ne ha, neg_add_cancel]
      decide +kernel
  refine ⟨newsExact_cents (by simp), ?_, hfit.2⟩
  have hsums : PartialSumsFit ([(-a, 100)] ++ [(a, 100)]) :=
    partialSumsFit_concat (representable_cents (-a)).sums hfit.1
  exact hsums

/-! ## Transactions -/

/-- The arithmetic on a new transaction's amounts is exact, unless a zero denominator refuses it. -/
def Postable (splits : List CreateSplitRequest) : Prop :=
  DenomsOk splits → Representable (amounts splits)

theorem balances_chosen {splits valid chosen : List CreateSplitRequest} {sum : Numeric}
    (hp : Postable splits) (hv : validSplits splits = .ok valid) (hs : splitSum valid = some sum)
    (hb : SplitsFor valid sum chosen) (htwo : 2 ≤ chosen.length) :
    Balances (chosen.map CreateSplitRequest.fraction) := by
  obtain ⟨hd, he⟩ := validSplits_ok hv
  exact balances_of_gate (he ▸ hp hd) hs hb htwo

theorem Ledger.created {s v : Db} {book : Guid} {req : CreateTransactionRequest}
    {as : List Account} {t : Transaction} {rows : List Split} (h : Ledger s)
    (hp : Postable req.splits) (hc : Created book req as t rows) (ha : Adds as [t] rows s v) :
    Ledger v := by
  obtain ⟨valid, sum, splits, hv, hs, hb, htwo, hrows⟩ := hc.rows
  have hbal : Balances (rows.map Split.fraction) :=
    RowOf.fractions hrows ▸ balances_chosen hp hv hs hb htwo
  refine ⟨?_, ha.eq ▸ h.cents, ha.eq ▸ h.snapshots⟩
  have hsound : ((s.append as [t] rows).journalBy Split.fraction).Sound Balances :=
    Db.sound_append h.sound (ha.fresh t (by simp)).1 (RowOf.txGuids hrows) hbal
  exact ha.eq ▸ hsound

/-- **A new transaction keeps the ledger.** -/
theorem createTransaction_ledger {s : Db} {book : Guid} {req : CreateTransactionRequest}
    (h : Ledger s) (hp : Postable req.splits) :
    (createTransaction book req).swp watched Duty.none (fun _ t => AtRest Ledger t) (.idle s) :=
  swp_assuming (createTransaction_alone (fun _ => ⟨s, rfl, h⟩)
    fun _ _ _ v hc ha _ _ => ⟨v, rfl, h.created hp hc ha⟩)

theorem Ledger.updated {s v : Db} {book guid : Guid} {req : UpdateTransactionRequest}
    {rows : List Split} (h : Ledger s) (hg : DenomsOk req.splits → Gated (amounts req.splits))
    (hfound : s.transactions.any (isTransaction guid book)) (hc : Chosen req guid rows)
    (hu : Updates book guid s.splits rows s v) : Ledger v := by
  obtain ⟨splits, sum, hv, hs, hz, htwo, hrows⟩ := hc.rows
  obtain ⟨hd, he⟩ := validSplits_ok hv
  have hgate : Gated (splits.map CreateSplitRequest.fraction) := he ▸ hg hd
  have hbal : Balances (rows.map Split.fraction) := by
    rw [RowOf.fractions hrows]
    exact ⟨by simpa using htwo, fun f hf => (hgate.news f hf).1, hgate.zero hs hz⟩
  have hsound : (v.journalBy Split.fraction).Sound Balances :=
    Db.sound_update h.sound hu hfound (RowOf.txGuids hrows) hbal
  obtain ⟨f, -, -, rfl⟩ := hu.eq
  exact ⟨hsound, h.cents, h.snapshots⟩

/-- **An update keeps the ledger.** -/
theorem updateTransaction_ledger {s : Db} {book : Guid} {tx : GuidText}
    {req : UpdateTransactionRequest} (h : Ledger s)
    (hg : DenomsOk req.splits → Gated (amounts req.splits)) :
    (updateTransaction book tx req).swp watched Duty.none (fun _ t => AtRest Ledger t) (.idle s) :=
  swp_assuming (updateTransaction_alone (fun _ => ⟨s, rfl, h⟩)
    fun _ _ _ v hfound hc hu _ => ⟨v, rfl, h.updated hg hfound hc hu⟩)

/-! ## CSV rows -/

theorem postable_csv (account : GuidText) (r : CsvRow) : Postable (r.request account).splits := by
  intro _
  by_cases hv : r.valNum = 0
  · simpa [CsvRow.request, amounts, hv] using representable_nil
  · simpa [CsvRow.request, amounts, hv, CreateSplitRequest.fraction] using
      representable_cents r.valNum

/-! ## Bank transactions -/

theorem postable_import {row : ImportRow} {bank : Guid} {st : Staged} (h : st.amountDenom = 100) :
    Postable (importRequest row bank st).splits := by
  intro _
  by_cases ha : st.amountNum = 0
  · simpa [importRequest, amounts, ha] using representable_nil
  · have hn : -st.amountNum ≠ 0 := fun e => ha (neg_eq_zero_iff.mp e)
    simpa [importRequest, amounts, ha, hn, h, CreateSplitRequest.fraction] using
      representable_opposite st.amountNum

/-- What a row posts keeps the ledger. -/
theorem requested_ledger {book : Guid} {req : CreateTransactionRequest} (hp : Postable req.splits)
    (v : Db) (h : Ledger v) :
    (createTransaction book req).swp watched Duty.none (fun _ t => AtRest Ledger t) (.idle v) :=
  createTransaction_ledger h hp

theorem deleteStaged_ledger {book : Guid} (id : String) (v : Db) (h : Ledger v) :
    (deleteStaged book id).swp watched Duty.none (fun _ t => AtRest Ledger t) (.idle v) :=
  deleteStaged_atRest (fun _ _ _ h hx => (Write.deleteStaged id).ledger h hx) h

/-! ## Snapshots -/

section Snapshots

variable {s : Db} {book : Guid}

/-- A whole read of the splits exports the amounts that are stored. -/
theorem amounts_toExport (t : Transaction) :
    (t.toExport ((s.splits.filter (·.txGuid == t.guid)).map Split.toExport)).amounts =
      (s.splitsOf t.guid).map Split.fraction := by
  simp only [ExportTransaction.amounts, Transaction.toExport, List.map_map, Db.splitsOf]
  rfl

theorem selectExportSplits_whole {env : Env} {tx : Guid}
    (hw : wholeSplits (selectExportSplits tx) env s = true) :
    (selectExportSplits tx).sem env s =
      .ok ((s.splits.filter (·.txGuid == tx)).map Split.toExport, s) := by
  have hw' : (!env.fail && env.cut.all fun n =>
      decide (s.splits.countP (·.txGuid == tx) ≤ n)) = true := hw
  simp only [Bool.and_eq_true, Bool.not_eq_true'] at hw'
  obtain ⟨hf, hc⟩ := hw'
  have hsem : (selectExportSplits tx).sem env s = if env.fail then .error .failed else
      .ok (env.received ((s.splits.filter (·.txGuid == tx)).map Split.toExport), s) := rfl
  have hwhole : env.received ((s.splits.filter (·.txGuid == tx)).map Split.toExport) =
      (s.splits.filter (·.txGuid == tx)).map Split.toExport := by
    unfold Env.received
    cases hcut : env.cut with
    | none => rfl
    | some n =>
      rw [hcut] at hc
      refine List.take_of_length_le ?_
      rw [List.length_map, ← List.countP_eq_length_filter]
      simpa using hc
  rw [hsem, hf, hwhole]
  rfl

theorem exportTransactions_swp (h : Ledger s) (ts : List Transaction)
    (hts : ∀ t ∈ ts, t ∈ s.transactions) :
    (exportTransactions ts).swp watched Duty.none
      (fun r t => t = .idle s ∧ ∀ es, r = .ok es → ∀ e ∈ es, Balances e.amounts) (.idle s) := by
  induction ts with
  | nil =>
    refine ⟨rfl, fun es he e hm => ?_⟩
    rw [← Except.ok.inj he] at hm
    exact absurd hm (by simp)
  | cons t ts ih =>
    have ih' := ih fun t' ht' => hts t' (List.mem_cons_of_mem _ ht')
    refine swp_ask rfl (fun _ _ => trivial) (fun env e ha hx => ?_) fun env b s' ha hx => ?_
    · have hw := selectExportSplits_whole (wholeSplits_of_allowed ha)
      exact absurd (hw.symm.trans hx) (by simp)
    · have hw := selectExportSplits_whole (wholeSplits_of_allowed ha)
      obtain ⟨rfl, rfl⟩ := Prod.mk.inj (Except.ok.inj (hw.symm.trans hx))
      refine swp_bind (swp_mono (fun r t' ht' => ?_) ih')
      cases r with
      | error e => exact ⟨ht'.1, fun _ h => absurd h (by simp)⟩
      | ok es =>
        refine ⟨ht'.1, fun es' he e hm => ?_⟩
        rw [← Except.ok.inj he] at hm
        rcases List.mem_cons.mp hm with rfl | hm
        · have hb := h.doubleEntry t (hts t List.mem_cons_self)
          rw [← amounts_toExport] at hb
          exact hb
        · exact ht'.2 es rfl e hm

/-- What `buildExportData` reads balances. -/
theorem buildExportData_swp (h : Ledger s) :
    (buildExportData book).swp watched Duty.none
      (fun r t => t = .idle s ∧ ∀ data, r = .ok data → data.Balanced) (.idle s) := by
  have hno : ∀ e : Err, (Solo.idle s : Solo SqlErr Db) = .idle s ∧
      ∀ data : ExportData, Except.error e = .ok data → data.Balanced :=
    fun e => ⟨rfl, fun _ h => absurd h (by simp)⟩
  refine swp_read_idle ((Stmt.reads_rowsE _).tagged _) (fun _ => hno _) fun _ accounts _ => ?_
  refine swp_read_idle ((Stmt.reads_rowsE _).tagged _) (fun _ => hno _) fun env txns hx => ?_
  have htxns : ∀ t ∈ txns, t ∈ s.transactions := by
    intro t ht
    rw [(selectExportTransactions_ok hx).1] at ht
    exact (List.mem_filter.mp (Env.mem_received ht)).1
  refine swp_bind (swp_mono (fun r t ht => ?_) (exportTransactions_swp h txns htxns))
  cases r with
  | error e => exact ⟨ht.1, fun _ h => absurd h (by simp)⟩
  | ok es =>
    refine ⟨ht.1, fun data he => ?_⟩
    rw [← Except.ok.inj he]
    exact ht.2 es rfl

theorem enforceSnapshotQuota_ledger {trigger : SnapshotTrigger} (h : Ledger s) :
    (enforceSnapshotQuota book trigger).swp watched Duty.none (fun _ t => AtRest Ledger t)
      (.idle s) := by
  have hs : AtRest Ledger (.idle s) := ⟨s, rfl, h⟩
  refine swp_exec_idle (fun _ => hs) fun env count s' _ hx => ?_
  obtain ⟨-, rfl⟩ := Prod.mk.inj (Except.ok.inj (ok_of_failing hx))
  split
  · split <;> exact hs
  · split
    · refine swp_stmt rfl (fun _ _ => trivial) (fun _ _ _ _ => hs) fun env _ v _ hx => ?_
      exact ⟨v, rfl, Write.rotateActive.ledger h hx⟩
    · exact hs
  · split <;> exact hs

/-- **A snapshot keeps the ledger**: what it stores balances. -/
theorem takeSnapshotForBook_ledger {label : String} {trigger : SnapshotTrigger} (h : Ledger s) :
    (takeSnapshotForBook book label trigger).swp watched Duty.none (fun _ t => AtRest Ledger t)
      (.idle s) := by
  refine swp_bind (swp_mono (fun r t ht => ?_) (enforceSnapshotQuota_ledger h))
  obtain ⟨v, rfl, hv⟩ := ht
  cases r with
  | error e => exact ⟨v, rfl, hv⟩
  | ok _ =>
    dsimp only [Prog.ofExcept, ret_bind]
    refine swp_bind (swp_attempt (swp_mono (fun r t ht => ?_) (buildExportData_swp hv)))
    obtain ⟨rfl, hdata⟩ := ht
    cases r with
    | error e => exact ⟨v, rfl, hv⟩
    | ok data =>
      refine swp_stmt rfl (fun _ _ => trivial) (fun _ _ _ _ => ⟨v, rfl, hv⟩) fun env _ w _ hx => ?_
      obtain ⟨-, hx⟩ := require_bind (ok_of_failing hx)
      obtain ⟨-, rfl⟩ := Prod.mk.inj (Except.ok.inj hx)
      refine ⟨_, rfl, hv.sound, hv.cents, fun sn hsn => ?_⟩
      rcases List.mem_append.mp hsn with hsn | hsn
      · exact hv.snapshots sn hsn
      · obtain rfl := List.mem_singleton.mp hsn
        exact hdata data rfl

theorem autoBackup_ledger {label : String} (h : Ledger s) :
    (autoBackup book label).swp watched Duty.none (fun _ t => AtRest Ledger t) (.idle s) := by
  refine swp_bind (swp_attempt (swp_mono (fun r t ht => ht) ?_))
  exact takeSnapshotForBook_ledger h

theorem getSnapshot_swp {id : GuidText} (h : Ledger s) :
    (getSnapshot book id).swp watched Duty.none
      (fun r t => t = .idle s ∧ ∀ snap, r = .ok snap → snap.data.Balanced) (.idle s) := by
  refine swp_read_idle (Stmt.reads_queryE _) (fun _ => ⟨rfl, fun _ h => absurd h (by simp)⟩)
    fun env r hx => ?_
  cases r with
  | none => exact ⟨rfl, fun _ h => absurd h (by simp)⟩
  | some snap =>
    refine ⟨rfl, fun snap' he => ?_⟩
    obtain rfl := Except.ok.inj he
    obtain ⟨hx, -⟩ := Stmt.queryE_ok hx
    obtain ⟨g, -, hx⟩ := ok_bind hx
    exact h.snapshots snap (List.mem_of_find?_eq_some (Except.ok.inj hx))

/-- **A restore keeps the ledger**: the snapshot balances. -/
theorem handleRestore_ledger {id : GuidText} (h : Ledger s) :
    (handleRestore book id).swp watched Duty.none (fun _ t => AtRest Ledger t) (.idle s) := by
  refine swp_bind (swp_mono (fun r t ht => ?_) (getSnapshot_swp h))
  obtain ⟨rfl, hsnap⟩ := ht
  cases r with
  | error e => exact ⟨s, rfl, h⟩
  | ok snap =>
    dsimp only [Prog.ofExcept, ret_bind]
    refine swp_bind (swp_mono (fun r t ht => ?_) (autoBackup_ledger h))
    obtain ⟨v, rfl, hv⟩ := ht
    cases r with
    | error e => exact ⟨v, rfl, hv⟩
    | ok _ => exact performImport_ledger hv (hsnap snap rfl)

end Snapshots

/-! ## Requests and runs -/

/-- What a request is given keeps the books balanced: amounts the arithmetic is exact on, files that
balance. -/
def Request.Sound : Request → Prop
  | .createTransaction req => Postable req.splits
  | .updateTransaction _ req => DenomsOk req.splits → Gated (amounts req.splits)
  | .importJson (some file) | .importGnuCash (some file) => file.Balanced
  | _ => True

theorem postable_fromBody {req : CreateTransactionRequest} (h : Postable req.splits) :
    Postable req.fromBody.splits := by
  have ham : amounts req.fromBody.splits = amounts req.splits := by
    simp only [amounts, CreateTransactionRequest.fromBody, List.filter_map, List.map_map]
    rfl
  intro hd
  rw [ham]
  exact h fun sp hsp hne => hd { sp with reconcileState := "" } (List.mem_map_of_mem hsp) hne

theorem ledger_answer {α : Type} {p : Call α} {f : α → Response} {s : Db}
    (h : p.swp watched Duty.none (fun _ t => AtRest Ledger t) (.idle s)) :
    (p.bind fun a => ret (f a)).swp watched Duty.none (fun _ t => Ledger t.db) (.idle s) := by
  refine swp_bind (swp_mono (fun r t ht => ?_) h)
  cases r <;> exact ht.db

/-- **Every request keeps the ledger.** -/
theorem handle_ledger (cfg : PlaidConfig) {book : Guid} {req : Request} {s : Db} (h : Ledger s)
    (hreq : req.Sound) :
    (handle cfg book req).swp watched Duty.none (fun _ t => Ledger t.db) (.idle s) := by
  cases hposts : req.posts with
  | false =>
    exact swp_of_keeps (handle_quiet cfg req hposts)
      (fun _ _ _ _ _ hq hv hx => Quiet.ledger hq hv hx) h
  | true =>
    cases req with
    | createTransaction req =>
      exact ledger_answer (createTransaction_ledger h (postable_fromBody hreq))
    | updateTransaction id req => exact ledger_answer (updateTransaction_ledger h hreq)
    | importJson file =>
      cases file with
      | none => exact h
      | some file => exact ledger_answer (performImport_ledger h hreq)
    | importCsv account file =>
      simp only [handle]
      split
      · exact h
      · cases file with
        | invalid => exact h
        | noRecords => exact h
        | rows rs => exact ledger_answer (csvLoop_atRest rs (fun r _ => requested_ledger (postable_csv account r)) h)
    | importGnuCash file =>
      cases file with
      | none => exact h
      | some file =>
        refine ledger_answer (swp_bind (swp_mono (fun r t ht => ?_) (autoBackup_ledger h)))
        obtain ⟨v, rfl, hv⟩ := ht
        cases r with
        | error e => exact ⟨v, rfl, hv⟩
        | ok _ => exact performImport_ledger hv hreq
    | factoryReset =>
      refine swp_bind (swp_mono (fun r t ht => ?_) (handleFactoryReset_ledger h))
      cases r <;> exact ht
    | createSnapshot label => exact ledger_answer (takeSnapshotForBook_ledger h)
    | restoreSnapshot id => exact ledger_answer (handleRestore_ledger h)
    | plaidImport rows =>
      simp only [handle]
      split
      · exact h
      · split
        · exact h
        · exact ledger_answer (importLoop_atRest (fun _ h => h.cents)
            deleteStaged_ledger (fun _ _ _ hst => requested_ledger (postable_import hst)) _ rows h)
    | _ => exact absurd hposts (by simp [Request.posts])

/-- What an event is given keeps the books balanced. -/
def Event.Sound : Event → Prop
  | .request _ _ req => req.Sound
  | _ => True

/-- The condition on a step of a run: sound input, and whole reads of splits for snapshots. -/
def Sound (e : Event) (envs : Nat → Env) (db : Db) : Prop :=
  e.Sound ∧ e.call.runAllowed watched envs (.idle db) = true

theorem event_ledger {e : Event} {s : Db} (h : Ledger s) (he : e.Sound) :
    e.call.swp watched Duty.none (fun _ t => Ledger t.db) (.idle s) := by
  cases e with
  | request cfg book req => exact handle_ledger cfg h he
  | scheduled book label trigger => exact ledger_answer (takeSnapshotForBook_ledger h)
  | signUp email name =>
    refine swp_of_keeps (issues_answer (registerUser_issues email name)) ?_ h
    rintro _ q env v v' b ⟨book, hq⟩ hv hx
    exact hq.quiet.ledger hv hx
  | purge =>
    refine swp_bind ?_
    refine swp_stmt rfl (fun _ _ => trivial) (fun _ _ _ _ => h) fun env _ v _ hx => ?_
    exact Write.ledger (.purge : Write 0 purgeStmt) h hx

theorem Runs.ledger {db : Db} (hr : Runs Sound db) : Ledger db := by
  refine hr.invariant ledger_empty fun e envs db h _ hok => ?_
  have hrun := run_of_swp (event_ledger h hok.1) hok.2
  rw [run_assuming] at hrun
  exact hrun

/-- **Double entry.** In every state of every run whose events are `Sound`, each stored transaction
has two splits at least and the exact sum of its splits is zero. -/
theorem runs_doubleEntry {db : Db} (hr : Runs Sound db) : db.DoubleEntry := hr.ledger.doubleEntry

/-- Food for 10.00, on account 18; the server balances it. -/
def food : Event :=
  .request plainConfig 3 (.createTransaction
    { customId := "", postDate := ⟨19000, 0⟩, description := "food", plaidTxnId := none
      splits := [{ accountGuid := .uuid 18 .canonical, memo := "", valueNum := 1000,
                   valueDenom := 100, quantityNum := 1000, quantityDenom := 100,
                   reconcileState := "" }] })

/-- After a registration and one purchase there is one transaction, and it balances. -/
theorem doubleEntry_food :
    (serve food.call (calm 100) registered).2.transactions.length = 1 ∧
      (serve food.call (calm 100) registered).2.DoubleEntry := by
  refine ⟨by decide +kernel, runs_doubleEntry ?_⟩
  refine .step food (calm 100) (registered_runs ⟨trivial, by decide +kernel⟩)
    (by decide +kernel) ⟨fun _ => ?_, by decide +kernel⟩
  exact representable_cents 1000

/-- A file whose one transaction moves 1 into an account twice. -/
def unbalancedFile : ExportData :=
  { accounts :=
      [{ guid := .malformed "a", name := "Root", accountType := "ROOT", parentGuid := none,
         placeholder := true, description := "" }]
    transactions :=
      [{ guid := .malformed "t", postDate := some 0, enterDate := some 0, description := "",
         splits := List.replicate 2
          { guid := .malformed "s", accountGuid := .malformed "a", memo := "", valueNum := 1,
            valueDenom := 1, quantityNum := 1, quantityDenom := 1, reconcileState := "n" } }] }

/-- Importing that file after a registration leaves a ledger that does not balance. -/
theorem runs_unbalanced : ¬ ∀ db, Runs (fun _ _ _ => True) db → db.DoubleEntry := by
  intro h
  have hr : Runs (fun _ _ _ => True) (serve (Event.request plainConfig 3
      (.importJson (some unbalancedFile))).call (calm 100) registered).2 :=
    .step _ _ (registered_runs trivial) (by decide +kernel) trivial
  have hb := h _ hr
  have hne : ((serve (Event.request plainConfig 3
      (.importJson (some unbalancedFile))).call (calm 100) registered).2.transactions.all fun t =>
        decide (exactSum (((serve (Event.request plainConfig 3 (.importJson
          (some unbalancedFile))).call (calm 100) registered).2.splitsOf t.guid).map
            Split.fraction) = 0)) = false := by decide +kernel
  rw [List.all_eq_false] at hne
  obtain ⟨t, ht, hz⟩ := hne
  exact hz (decide_eq_true (hb t ht).zero)

end Antimoney
