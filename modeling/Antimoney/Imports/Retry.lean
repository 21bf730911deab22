import Antimoney.Concurrent
import Antimoney.Imports.Rows
import Antimoney.Register.Answers

/-!
# Importing again

A second `Import` of the same rows classifies each row from what the first one left. Rows that were
posted are skipped. A row that was skipped because its predecessor is imported has lost its staged
copy and was never posted, so that the second call reports it as failed.

* `importLoop_turns`: what a loop that refuses no row leaves of each, by what the row met at its
  turn.
* **`importRows_retry`**: a second call repeats nothing and refuses no row, as long as no row of the
  first was skipped for its predecessor.
-/

namespace Antimoney

open Antimoney.Lib Antimoney.Gnc Prog

/-! ## What a row leaves -/

/-- Nothing is posted under the row's id, and nothing is staged. -/
structure Db.Lost (db : Db) (book : Guid) (row : ImportRow) : Prop where
  wellFormed : row.WellFormed
  posted : db.posted book row.transactionId = false
  staged : db.stagedRow book row.transactionId = none

section Residue

variable {fails : Bool} {book : Guid} {row row' : ImportRow} {o : RowOutcome} {s s' v : Db}

theorem stagedRow_unstaged (id : String) : (v.unstaged book id).stagedRow book id = none := by
  refine List.find?_eq_none.mpr fun st hst hc => ?_
  have hgone := (mem_deleteWhere.mp hst).2
  simp only [Bool.and_eq_true, beq_iff_eq] at hc
  simp [stagedIn, hc.1, hc.2] at hgone

/-- The other staged copies stay. -/
theorem stagedRow_unstaged_ne {id id' : String} (h : id' ≠ id) :
    (v.unstaged book id).stagedRow book id' = v.stagedRow book id' := by
  unfold Db.stagedRow Db.unstaged deleteWhere
  rw [List.find?_filter]
  congr 1
  funext st
  by_cases hb : st.bookGuid = book <;> by_cases hid : st.transactionId = id' <;>
    simp [stagedIn, hb, hid, h]

/-- A staged copy that is still there was there. -/
theorem stagedRow_of_unstaged {id id' : String} {st : Staged}
    (h : (v.unstaged book id).stagedRow book id' = some st) : v.stagedRow book id' = some st := by
  by_cases hid : id' = id
  · rw [hid, stagedRow_unstaged] at h
    exact absurd h (by simp)
  · rwa [stagedRow_unstaged_ne hid] at h

theorem Cleaned.stagedRow {id id' : String} {st : Staged} (h : Cleaned fails book id v s')
    (hst : s'.stagedRow book id' = some st) : v.stagedRow book id' = some st := by
  rcases h with rfl | ⟨-, rfl⟩
  · exact stagedRow_of_unstaged hst
  · exact hst

/-- The ledger does not change. -/
theorem Cleaned.ledger {id : String} (h : Cleaned fails book id v s') :
    s'.accounts = v.accounts ∧ s'.transactions = v.transactions := by
  rcases h with rfl | ⟨-, rfl⟩
  · exact ⟨rfl, rfl⟩
  · exact ⟨rfl, rfl⟩

theorem posted_congr {id : String} (h : s'.transactions = v.transactions) :
    s'.posted book id = v.posted book id := by
  rw [Db.posted, h]
  rfl

/-- A row that was posted or skipped leaves the settled rows settled. -/
theorem Db.Settled.step (h : s.Settled book row) (hs : RowStep fails book row' s o s') :
    s'.Settled book row := by
  cases hs with
  | failed => exact h
  | settled _ => exact h
  | replaced _ _ hc =>
    obtain ⟨ha, ht⟩ := hc.ledger
    refine ⟨h.wellFormed, (posted_congr ht).trans h.posted, fun st hst => ?_⟩
    rw [Db.bankAccount, ha]
    exact h.bank st (hc.stagedRow hst)
  | imported _ _ _ _ _ _ hadds hc =>
    obtain ⟨ha, ht⟩ := hc.ledger
    obtain ⟨rfl, -, -⟩ := hadds
    refine ⟨h.wellFormed, ?_, fun st hst => ?_⟩
    · have hposted := h.posted
      simp only [Db.posted, ht, Db.append, List.any_append, Bool.or_eq_true] at hposted ⊢
      exact .inl hposted
    · have hbank := h.bank st (hc.stagedRow hst)
      rw [Db.bankAccount, Option.isSome_map] at hbank
      rw [Db.bankAccount, ha, Option.isSome_map, Db.append, List.find?_append]
      simp [Option.isSome_or, hbank]

/-- So it does the lost rows. -/
theorem Db.Lost.step (h : s.Lost book row) (hs : RowStep fails book row' s o s') :
    s'.Lost book row := by
  cases hs with
  | failed => exact h
  | settled _ => exact h
  | replaced _ _ hc =>
    refine ⟨h.wellFormed, (posted_congr hc.ledger.2).trans h.posted, ?_⟩
    exact Option.eq_none_iff_forall_ne_some.mpr fun st hst =>
      absurd (h.staged.symm.trans (hc.stagedRow hst)) (by simp)
  | imported _ hst _ _ _ hcreated hadds hc =>
    obtain ⟨rfl, -, -⟩ := hadds
    refine ⟨h.wellFormed, ?_, ?_⟩
    · -- the new transaction is posted under another id: the lost row has no staged copy
      have hne : row'.transactionId ≠ row.transactionId := by
        intro hid
        rw [hid, h.staged] at hst
        exact absurd hst (by simp)
      have hposted := h.posted
      simp only [Db.posted, hc.ledger.2, Db.append, List.any_append, List.any_cons, List.any_nil,
        Bool.or_false, Bool.or_eq_false_iff] at hposted ⊢
      refine ⟨hposted, ?_⟩
      rw [hcreated.plaid]
      simp [importRequest, hne]
    · exact Option.eq_none_iff_forall_ne_some.mpr fun st hst' =>
        absurd (h.staged.symm.trans (hc.stagedRow hst')) (by simp)

/-- What a row that is not refused leaves of itself. -/
theorem RowStep.residue (h : RowStep fails book row s o s') (ho : o ≠ .failed) :
    (s.replaces book row.transactionId = false → s'.Settled book row) ∧
      (s.replaces book row.transactionId = true → fails = false → s'.Lost book row) := by
  cases h with
  | failed => exact absurd rfl ho
  | settled h =>
    refine ⟨fun _ => h, fun hr => ?_⟩
    simp [Db.replaces, h.posted] at hr
  | replaced hw hr hc =>
    refine ⟨fun hn => absurd (hr.symm.trans hn) (by simp), fun _ hf => ?_⟩
    have hnew : s.posted book row.transactionId = false := by
      simp only [Db.replaces, Bool.and_eq_true, Bool.not_eq_true'] at hr
      exact hr.1
    rcases hc with rfl | ⟨hfails, -⟩
    · exact ⟨hw, hnew, stagedRow_unstaged _⟩
    · exact absurd (hfails.symm.trans hf) (by simp)
  | imported hw hst hbank hnew hfree hcreated hadds hc =>
    refine ⟨fun _ => ?_, fun hr => absurd (hr.symm.trans hfree) (by simp)⟩
    obtain ⟨rfl, -, -⟩ := hadds
    refine ⟨hw, ?_, fun st' hst' => ?_⟩
    · simp [Db.posted, hc.ledger.2, Db.append, hcreated.plaid, hcreated.inBook, importRequest]
    · obtain rfl := Option.some.inj (hst.symm.trans (hc.stagedRow hst'))
      rw [Db.bankAccount, Option.map_eq_some_iff] at hbank
      obtain ⟨a, hfind, -⟩ := hbank
      rw [Db.bankAccount, hc.ledger.1, Option.isSome_map, Db.append, List.find?_append, hfind]
      rfl

end Residue

/-! ## The loop, row by row -/

section Loop

variable {fails : Bool} {book : Guid} {s : Db}

/-- The rest of the loop after a row. -/
def afterRow (book : Guid) (result : ImportResult) (row : ImportRow) (rows : List ImportRow) :
    Except Err RowOutcome → Call (ImportResult × Option Err)
  | .error .panic => .fail .panic
  | .error e => .ret (result, some e)
  | .ok o => importLoop book (result.add row o) rows

/-- The loop runs its first row, then the rest. -/
theorem importLoop_cons (row : ImportRow) (envs : Nat → Env) (t : Solo SqlErr Db) :
    ∃ k, ∀ result rows,
      (importLoop book result (row :: rows)).run machine envs t =
        (afterRow book result row rows ((importRow book row).run machine envs t).1).run machine
          (fun n => envs (n + k)) ((importRow book row).run machine envs t).2 ∧
      ((importLoop book result (row :: rows)).runAllowed machine envs t = true →
        (importRow book row).runAllowed machine envs t = true ∧
        (afterRow book result row rows ((importRow book row).run machine envs t).1).runAllowed
          machine (fun n => envs (n + k)) ((importRow book row).run machine envs t).2 = true) := by
  obtain ⟨k, hk⟩ := run_bind (M := machine)
    ((importRow book row).attempt : Call (Except Err RowOutcome)) envs t
  refine ⟨k, fun result rows => ?_⟩
  obtain ⟨hrun, hallowed⟩ := hk (afterRow book result row rows)
  have hloop : importLoop book result (row :: rows) =
      ((importRow book row).attempt : Call (Except Err RowOutcome)).bind
        (afterRow book result row rows) := by
    unfold importLoop
    refine congrArg _ (funext fun r => ?_)
    rcases r with e | o
    · cases e <;> rfl
    · rfl
  rw [hloop, hrun, hallowed, (run_attempt _ _ _).1, (run_attempt _ _ _).2]
  exact ⟨rfl, fun h => Bool.and_eq_true _ _ ▸ h⟩

/-- The state a loop leaves does not depend on the result so far. -/
theorem importLoop_state (result result' : ImportResult) (rows : List ImportRow)
    (envs : Nat → Env) (t : Solo SqlErr Db) :
    ((importLoop book result rows).run machine envs t).2 =
      ((importLoop book result' rows).run machine envs t).2 := by
  induction rows generalizing result result' envs t with
  | nil => rfl
  | cons row rows ih =>
    obtain ⟨k, hk⟩ := importLoop_cons row envs t
    rw [(hk result rows).1, (hk result' rows).1]
    unfold afterRow
    split
    · rfl
    · rfl
    · exact ih _ _ _ _

/-- The refused rows only grow in number. -/
theorem importLoop_failed {result r : ImportResult} {e : Option Err} {rows : List ImportRow}
    {envs : Nat → Env} {t t' : Solo SqlErr Db}
    (h : (importLoop book result rows).run machine envs t = (.ok (r, e), t')) :
    result.failed <+: r.failed := by
  induction rows generalizing result envs t with
  | nil =>
    obtain ⟨rfl, -⟩ := Prod.mk.inj (Except.ok.inj (Prod.mk.inj h).1)
    exact List.prefix_rfl
  | cons row rows ih =>
    obtain ⟨k, hk⟩ := importLoop_cons row envs t
    rw [(hk result rows).1] at h
    unfold afterRow at h
    split at h
    · exact absurd (Prod.mk.inj h).1 (by simp)
    · obtain ⟨rfl, -⟩ := Prod.mk.inj (Except.ok.inj (Prod.mk.inj h).1)
      exact List.prefix_rfl
    · refine List.IsPrefix.trans ?_ (ih h)
      unfold ImportResult.add
      split
      · exact List.prefix_rfl
      · exact List.prefix_rfl
      · exact List.prefix_append _ _

/-- The state a row meets after the rows `before`. -/
def turn (book : Guid) (envs : Nat → Env) (s : Db) (before : List ImportRow) : Db :=
  ((importRows book before).run machine envs (.idle s)).2.db

/-- **A loop that refuses no row**: what it leaves of each, by what the row met at its turn. -/
theorem importLoop_turns (fails : Bool) {result : ImportResult} {n : Nat} {rows : List ImportRow}
    {envs : Nat → Env} {t : Solo SqlErr Db} (hA : ∀ n, (fails || !(envs n).fail) = true)
    (ha : (importLoop book result rows).runAllowed machine envs (.idle s) = true)
    (h : (importLoop book result rows).run machine envs (.idle s) = (.ok (⟨n, []⟩, none), t)) :
    ∃ s', t = .idle s' ∧ (∀ row, s.Settled book row → s'.Settled book row) ∧
      (∀ row, s.Lost book row → s'.Lost book row) ∧
      ∀ before row after, rows = before ++ row :: after →
        ((turn book envs s before).replaces book row.transactionId = false →
          s'.Settled book row) ∧
        ((turn book envs s before).replaces book row.transactionId = true → fails = false →
          s'.Lost book row) := by
  induction rows generalizing result envs s with
  | nil =>
    obtain ⟨-, rfl⟩ := Prod.mk.inj h
    exact ⟨s, rfl, fun _ h => h, fun _ h => h, fun before row after he =>
      absurd he (by simp)⟩
  | cons row rows ih =>
    obtain ⟨k, hk⟩ := importLoop_cons row envs (.idle s)
    obtain ⟨hrow, hrest⟩ := (hk result rows).2 ha
    rw [(hk result rows).1] at h
    have hspec := run_of_swp (importRow_swp row) (runAllowed_assuming (fun _ n _ => hA n) hrow)
    rw [run_assuming] at hspec
    cases ho : ((importRow book row).run machine envs (.idle s)).1 with
    | error e =>
      rw [ho] at h
      cases e <;> exact nomatch h
    | ok o =>
      rw [ho] at hspec h hrest
      obtain ⟨s₁, hs₁, hstep⟩ := hspec
      rw [hs₁] at h hrest
      have hne : o ≠ .failed := by
        rintro rfl
        have hp := importLoop_failed h
        simp [ImportResult.add] at hp
      obtain ⟨s', rfl, hsettled, hlost, hturns⟩ := ih (fun n => hA (n + k)) hrest h
      refine ⟨s', rfl, fun r hr => hsettled r (hr.step hstep), fun r hr => hlost r (hr.step hstep),
        fun before r after he => ?_⟩
      cases before with
      | nil =>
        obtain ⟨rfl, rfl⟩ := List.cons.inj he
        obtain ⟨hkept, hgone⟩ := hstep.residue hne
        exact ⟨fun hr => hsettled _ (hkept hr), fun hr hf => hlost _ (hgone hr hf)⟩
      | cons r' before =>
        obtain ⟨rfl, rfl⟩ := List.cons.inj he
        have hturn : turn book envs s (row :: before) =
            turn book (fun n => envs (n + k)) s₁ before := by
          unfold turn importRows
          rw [(hk ⟨0, []⟩ before).1, ho, hs₁]
          exact congrArg Solo.db (importLoop_state _ _ _ _ _)
        rw [hturn]
        exact hturns before r after rfl

/-! ## The second call -/

section Again

variable {envs : Nat → Env} {row : ImportRow}

theorem loadStaged_sem {env : Env} (ha : env.Answers) (id : String) :
    (loadStaged book id).sem env s = .ok (s.stagedRow book id, s) :=
  ha.query fun db => db.stagedRow book id

/-- A settled row is skipped. -/
theorem importRow_settled (ha : ∀ n, (envs n).Answers) (h : s.Settled book row) :
    (importRow book row).Yields machine envs s (· = .ok .skipped) := by
  obtain ⟨g, spelling, hg⟩ := h.wellFormed
  unfold importRow
  rw [hg]
  refine yields_bind (exec_yields (loadStaged_sem (ha 0) _) (Eq.refl _)) ?_
  rintro k _ rfl
  dsimp only [Prog.ofExcept, ret_bind]
  cases hst : s.stagedRow book row.transactionId with
  | none =>
    refine yields_bind (exec_yields ((ha (0 + k)).query _) (Eq.refl _)) ?_
    rintro k' _ rfl
    dsimp only [Prog.ofExcept, ret_bind]
    rw [if_pos h.posted]
    exact yields_ret rfl
  | some st =>
    obtain ⟨bank, hbank⟩ := Option.isSome_iff_exists.mp (h.bank st hst)
    have hselect : (selectBankAccount book st.plaidAccountId).sem (envs (0 + k)) s =
        .ok (some bank, s) := by
      rw [← hbank]
      exact (ha (0 + k)).query fun db => db.bankAccount book st.plaidAccountId
    refine yields_bind (yields_ask hselect (Eq.refl _)) ?_
    rintro k' _ rfl
    dsimp only [Prog.ofExcept, ret_bind]
    refine yields_bind (exec_yields ((ha (0 + k' + k)).query _) (Eq.refl _)) ?_
    rintro k'' _ rfl
    dsimp only [Prog.ofExcept, ret_bind]
    rw [if_pos h.posted]
    exact yields_ret rfl

/-- A lost row is refused. -/
theorem importRow_lost (ha : ∀ n, (envs n).Answers) (h : s.Lost book row) :
    (importRow book row).Yields machine envs s (· = .ok .failed) := by
  obtain ⟨g, spelling, hg⟩ := h.wellFormed
  unfold importRow
  rw [hg]
  refine yields_bind (exec_yields (loadStaged_sem (ha 0) _) (Eq.refl _)) ?_
  rintro k _ rfl
  dsimp only [Prog.ofExcept, ret_bind]
  rw [h.staged]
  refine yields_bind (exec_yields ((ha (0 + k)).query _) (Eq.refl _)) ?_
  rintro k' _ rfl
  dsimp only [Prog.ofExcept, ret_bind]
  rw [if_neg (Bool.eq_false_iff.mp h.posted)]
  exact yields_ret rfl

/-- The rows of which nothing is posted. -/
def Db.unposted (db : Db) (book : Guid) (rows : List ImportRow) : List String :=
  (rows.map (·.transactionId)).filter fun id => !db.posted book id

/-- **The second call** changes nothing, and refuses the lost rows. -/
theorem importLoop_again {rows : List ImportRow} (result : ImportResult)
    (ha : ∀ n, (envs n).Answers) (h : ∀ row ∈ rows, s.Settled book row ∨ s.Lost book row) :
    (importLoop book result rows).Yields machine envs s
      (· = .ok (⟨result.imported, result.failed ++ s.unposted book rows⟩, none)) := by
  induction rows generalizing result envs with
  | nil => exact yields_ret (by simp [Db.unposted])
  | cons row rows ih =>
    have hrow : (importRow book row).Yields machine envs s fun r =>
        (r = .ok .skipped ∧ s.posted book row.transactionId = true) ∨
          (r = .ok .failed ∧ s.posted book row.transactionId = false) := by
      rcases h row List.mem_cons_self with h | h
      · exact (importRow_settled ha h).mono fun r hr => .inl ⟨hr, h.posted⟩
      · exact (importRow_lost ha h).mono fun r hr => .inr ⟨hr, h.posted⟩
    refine yields_bind hrow.attempt ?_
    rintro k _ ⟨_, ⟨rfl, hp⟩ | ⟨rfl, hp⟩, rfl⟩
    all_goals
      refine (ih _ (fun n => ha (n + k)) fun row' hrow' => h row' (.tail _ hrow')).mono ?_
      rintro _ rfl
      simp [ImportResult.add, Db.unposted, hp]

end Again

/-! ## Retries -/

/-- What a ledger is made of. -/
def Db.ledger (db : Db) : List Account × List Transaction × List Split :=
  (db.accounts, db.transactions, db.splits)

/-- Importing the rows at `s` posts nothing and refuses no row. -/
def RepeatsNothing (book : Guid) (rows : List ImportRow) (envs : Nat → Env) (s : Db) : Prop :=
  ((importRows book rows).run machine envs (.idle s)).1 = .ok (⟨0, []⟩, none) ∧
    ((importRows book rows).run machine envs (.idle s)).2.db.ledger = s.ledger

/-- No row, at its turn, is one whose staged copy names an imported predecessor of its value. -/
def Unreplaced (book : Guid) (envs : Nat → Env) (s : Db) (rows : List ImportRow) : Prop :=
  ∀ before row after, rows = before ++ row :: after →
    (turn book envs s before).replaces book row.transactionId = false

/-- **Importing again.** When an import refused no row and was not interrupted, the same import at
once, by a database that answers, repeats nothing and refuses no row, if no row was skipped for an
imported predecessor; and only if, when no statement of the first call failed. -/
theorem importRows_retry {rows : List ImportRow} {envs envs' : Nat → Env} {n : Nat}
    {t : Solo SqlErr Db} (ha : (importRows book rows).runAllowed machine envs (.idle s) = true)
    (h : (importRows book rows).run machine envs (.idle s) = (.ok (⟨n, []⟩, none), t))
    (hans : ∀ n, (envs' n).Answers) :
    (Unreplaced book envs s rows → RepeatsNothing book rows envs' t.db) ∧
      ((∀ n, (envs n).fail = false) → RepeatsNothing book rows envs' t.db →
        Unreplaced book envs s rows) := by
  constructor
  · intro hu
    obtain ⟨s', rfl, -, -, hturns⟩ := importLoop_turns true (fun _ => rfl) ha h
    have hsettled : ∀ row ∈ rows, s'.Settled book row := by
      intro row hrow
      obtain ⟨before, after, he⟩ := List.append_of_mem hrow
      exact (hturns before row after he).1 (hu before row after he)
    obtain ⟨r, rfl, hrun⟩ := (importLoop_again ⟨0, []⟩ hans
      fun row hrow => .inl (hsettled row hrow)).run
    have hposted : s'.unposted book rows = [] := by
      simp only [Db.unposted, List.filter_eq_nil_iff, List.mem_map]
      rintro _ ⟨row, hrow, rfl⟩
      simp [(hsettled row hrow).posted]
    rw [hposted] at hrun
    unfold RepeatsNothing importRows
    dsimp only [Solo.idle_db]
    rw [hrun]
    exact ⟨rfl, rfl⟩
  · intro hf hagain before row after he
    by_contra hr
    obtain ⟨s', rfl, -, -, hturns⟩ := importLoop_turns false (fun n => by simp [hf n]) ha h
    have hleft : ∀ row ∈ rows, s'.Settled book row ∨ s'.Lost book row := by
      intro row hrow
      obtain ⟨before, after, he⟩ := List.append_of_mem hrow
      obtain ⟨hkept, hgone⟩ := hturns before row after he
      cases hr : (turn book envs s before).replaces book row.transactionId with
      | false => exact .inl (hkept hr)
      | true => exact .inr (hgone hr rfl)
    have hlost : s'.Lost book row := (hturns before row after he).2 (Bool.of_not_eq_false hr) rfl
    obtain ⟨r, rfl, hrun⟩ := (importLoop_again ⟨0, []⟩ hans hleft).run
    have hresult := hagain.1
    unfold importRows at hresult
    dsimp only [Solo.idle_db] at hresult
    rw [hrun] at hresult
    have hnone : s'.unposted book rows = [] := by
      have h := congrArg ImportResult.failed (Prod.mk.inj (Except.ok.inj hresult)).1
      simpa using h
    have hmem : row.transactionId ∈ s'.unposted book rows := by
      simp only [Db.unposted, List.mem_filter, List.mem_map]
      refine ⟨⟨row, ?_, rfl⟩, by simp [hlost.posted]⟩
      rw [he]
      simp
    rw [hnone] at hmem
    exact absurd hmem (by simp)

end Loop

/-- A purchase that is imported, and imported again. -/
theorem importRows_retry_purchase :
    RepeatsNothing 3 [⟨"posted-1", Guid.text 18⟩] (calm 200)
      ((importRows 3 [⟨"posted-1", Guid.text 18⟩]).run machine (calm 100)
        (.idle (syncedWith [bankTxn "posted-1" "" false]))).2.db := by
  have hresult : ((importRows 3 [⟨"posted-1", Guid.text 18⟩]).run machine (calm 100)
      (.idle (syncedWith [bankTxn "posted-1" "" false]))).1 = .ok (⟨1, []⟩, none) := by
    decide +kernel
  refine (importRows_retry (by decide +kernel) (Prod.ext hresult rfl) (calm_answers 200)).1 ?_
  intro before row after he
  cases before with
  | nil =>
    obtain ⟨rfl, rfl⟩ := List.cons.inj he
    decide +kernel
  | cons _ before => exact absurd (List.cons.inj he).2 (by simp)

/-- Both copies of a purchase, the pending one and the posted one. -/
def bothCopies : List ImportRow := [⟨"pending-1", Guid.text 18⟩, ⟨"posted-1", Guid.text 18⟩]

/-- The book where both are staged. -/
def bothStaged : Db := syncedWith [bankTxn "pending-1" "" true, bankTxn "posted-1" "pending-1" false]

/-- Imported at once, the posted copy is skipped, and refused when they are imported again. -/
theorem importRows_no_retry :
    ¬ ∀ book rows envs envs' s n t, (importRows book rows).runAllowed machine envs (.idle s) = true →
      (importRows book rows).run machine envs (.idle s) = (.ok (⟨n, []⟩, none), t) →
      (∀ n, (envs' n).Answers) → RepeatsNothing book rows envs' t.db := by
  intro h
  have hresult : ((importRows 3 bothCopies).run machine (calm 100) (.idle bothStaged)).1 =
      .ok (⟨1, []⟩, none) := by
    decide +kernel
  have hagain : ((importRows 3 bothCopies).run machine (calm 200)
      (.idle ((importRows 3 bothCopies).run machine (calm 100) (.idle bothStaged)).2.db)).1 =
      .ok (⟨0, ["posted-1"]⟩, none) := by
    decide +kernel
  have hallowed : (importRows 3 bothCopies).runAllowed machine (calm 100) (.idle bothStaged) =
      true := by
    decide +kernel
  obtain ⟨hno, -⟩ := h 3 bothCopies (calm 100) (calm 200) bothStaged 1
    ((importRows 3 bothCopies).run machine (calm 100) (.idle bothStaged)).2 hallowed
    (Prod.ext hresult rfl) (calm_answers 200)
  rw [hagain] at hno
  exact absurd hno (by simp)

end Antimoney
