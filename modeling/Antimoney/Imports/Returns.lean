import Antimoney.Gnc.Denominators
import Antimoney.Ledger.Journal
import Antimoney.Plaid.Service

/-!
# Imports return

`CreateTransaction` drops splits of value zero and refuses zero denominators before it adds up the
rest, so its arithmetic does not panic (`splitSum_some`), and an import, which looks at every other
error of its rows, ends with a result.

* **`createTransaction_calm`**, **`importLoop_returns`**.
-/

namespace Antimoney

open Antimoney.Lib Antimoney.Gnc Prog

/-- The gate does not panic on splits that are valid. -/
theorem splitSum_some {splits valid : List CreateSplitRequest}
    (h : validSplits splits = .ok valid) : ∃ sum, splitSum valid = some sum := by
  obtain ⟨hden, rfl⟩ := validSplits_filter h
  have hdenoms : ∀ s ∈ (splits.filter (·.valueNum != 0)).map CreateSplitRequest.fraction,
      ¬ (2 ^ 64 : ℤ) ∣ s.2.toInt := by
    intro s hs
    obtain ⟨sp, hsp, rfl⟩ := List.mem_map.mp hs
    obtain ⟨hm, hne⟩ := List.mem_filter.mp hsp
    rw [dvd64_iff]
    exact (hden sp hm (by simpa using hne)).1
  obtain ⟨sum, hsum, -⟩ := gateSum_denom (by decide) (by decide) hdenoms
  exact ⟨sum, hsum⟩

/-- Not a panic. -/
abbrev Calm (e : Err) : Prop := e ≠ .panic

theorem imbalanceAccount_calm (book : Guid) : (imbalanceAccount book).FailsOnly Calm := by
  refine failsOnly_ask fun r => ?_
  rcases r with e | _ | g
  · simp [FailsOnly]
  · refine failsOnly_bind (failsOnly_sql (by simp)) fun r => ?_
    rcases r with _ | _ | root
    · simp [FailsOnly]
    · simp [FailsOnly]
    · refine failsOnly_bind (failsOnly_sql (by simp)) fun g => ?_
      refine failsOnly_bind (failsOnly_sql (by simp)) fun now => ?_
      exact failsOnly_bind (failsOnly_sql (by simp)) fun _ => trivial
  · trivial

theorem checkAccounts_calm (book : Guid) (splits : List CreateSplitRequest) :
    (checkAccounts book splits).FailsOnly Calm := by
  induction splits with
  | nil => trivial
  | cons sp rest ih =>
    refine failsOnly_ask fun r => ?_
    rcases r with e | _ | _ | _
    · simp [FailsOnly]
    · simp [FailsOnly]
    · exact ih
    · simp [FailsOnly]

theorem insertSplits_calm (tx : Guid) (now : Time) (state : CreateSplitRequest → String) (i : Nat)
    (splits : List CreateSplitRequest) : (insertSplits tx now state i splits).FailsOnly Calm := by
  induction splits generalizing i with
  | nil => trivial
  | cons sp rest ih =>
    refine failsOnly_bind (failsOnly_sql (by simp)) fun g => failsOnly_ask fun r => ?_
    cases r with
    | error e => simp [FailsOnly]
    | ok _ => exact failsOnly_bind (ih _) fun _ => trivial

theorem validSplits_calm {splits : List CreateSplitRequest} {e : Err}
    (h : validSplits splits = .error e) : Calm e := by
  induction splits generalizing e with
  | nil => exact absurd h (by simp [validSplits])
  | cons sp rest ih =>
    unfold validSplits at h
    split at h
    · exact ih h
    · split at h
      · rw [← Except.error.inj h]
        simp
      · cases hv : validSplits rest with
        | error e' =>
          rw [hv] at h
          exact Except.error.inj h ▸ ih hv
        | ok valid =>
          rw [hv] at h
          exact absurd h (by simp [Except.map])

/-- **`CreateTransaction` does not panic.** -/
theorem createTransaction_calm (book : Guid) (req : CreateTransactionRequest) :
    (createTransaction book req).FailsOnly Calm := by
  unfold createTransaction
  cases hvalid : validSplits req.splits with
  | error e => exact validSplits_calm hvalid
  | ok valid =>
    obtain ⟨sum, hsum⟩ := splitSum_some hvalid
    simp only [Prog.ofExcept, bind_eq, ret_bind, hsum, orPanic]
    refine failsOnly_inTx (by simp) ?_
    refine failsOnly_bind ?_ fun splits => ?_
    · unfold balancedSplits
      split
      · trivial
      · exact failsOnly_bind (imbalanceAccount_calm book) fun _ => trivial
    · split
      · simp [FailsOnly]
      · refine failsOnly_bind (checkAccounts_calm book splits) fun _ => ?_
        refine failsOnly_bind (failsOnly_sql (by simp)) fun guid => ?_
        refine failsOnly_bind (failsOnly_sql (by simp)) fun now => ?_
        refine failsOnly_bind (failsOnly_sql (by simp)) fun _ => ?_
        refine failsOnly_bind (insertSplits_calm _ _ _ _ _) fun rows => ?_
        exact failsOnly_bind (failsOnly_commit (by simp)) fun _ => trivial

theorem deleteStaged_calm {P : Err → Prop} (book : Guid) (id : String) :
    (deleteStaged book id).FailsOnly P := fun r => by cases r <;> trivial

theorem importRow_calm (book : Guid) (row : ImportRow) : (importRow book row).FailsOnly Calm := by
  have hsql : ∀ {α : Type} {text : String} {q : Stmt α}, (exec text q).FailsOnly Calm :=
    failsOnly_sql (by simp)
  unfold importRow
  split
  · trivial
  · refine failsOnly_bind hsql fun r => ?_
    cases r with
    | none => exact failsOnly_bind hsql fun posted => by split <;> trivial
    | some st =>
      refine failsOnly_ask fun r => ?_
      rcases r with e | _ | bank
      · trivial
      · trivial
      · refine failsOnly_bind hsql fun posted => ?_
        split
        · trivial
        · refine failsOnly_bind ?_ fun replaces => ?_
          · unfold replacesImported
            split
            · trivial
            · refine failsOnly_bind hsql fun imported => ?_
              split
              · exact hsql
              · trivial
          · split
            · exact failsOnly_bind (deleteStaged_calm _ _) fun _ => trivial
            · refine failsOnly_attempt (createTransaction_calm _ _) (fun e he => ?_) fun _ =>
                failsOnly_bind (deleteStaged_calm _ _) fun _ => trivial
              split
              · exact absurd (Except.error.inj ‹_›) he
              · split
                · exact failsOnly_bind (deleteStaged_calm _ _) fun _ => trivial
                · trivial
              · trivial

/-- **An import returns.** -/
theorem importLoop_returns (book : Guid) (result : ImportResult) (rows : List ImportRow) :
    (importLoop book result rows).FailsOnly fun _ => False := by
  induction rows generalizing result with
  | nil => trivial
  | cons row rows ih =>
    refine failsOnly_attempt (importRow_calm book row) (fun e he => ?_) fun o => ih _
    split
    · exact he (Except.error.inj ‹_›)
    · trivial
    · trivial

end Antimoney
