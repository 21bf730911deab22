import Antimoney.Issued

/-!
# The requests that only read

* **`handle_reads`**: a request that lists, shows or exports changes nothing, whatever it is
  answered and wherever a statement of it fails.
-/

namespace Antimoney

open Antimoney.Lib Antimoney.Gnc Prog

/-- Statements that change nothing. -/
abbrev Readonly {β : Type} (q : Stmt β) : Prop := q.Reads

/-- The requests that only read. -/
def Request.readonly : Request → Bool
  | .listAccounts _ _ | .getAccount _ | .register _ | .registerPage _ _ _ _ | .reconciledBalance _
  | .listTransactions _ _ | .getTransaction _ | .exportBook | .getConfig | .listSnapshots
  | .getSnapshot _ | .getBook | .plaidItems => true
  | _ => false

variable {book : Guid}

theorem loadSplits_reads (ts : List Transaction) : (loadSplits ts).Issues Readonly := by
  induction ts with
  | nil => trivial
  | cons t ts ih =>
    exact issues_exec (Stmt.reads_rowsE _) fun _ => issues_bind ih fun _ => trivial

theorem getTransaction_reads (tx : GuidText) : (getTransaction book tx).Issues Readonly := by
  refine issues_exec (Stmt.reads_queryE _) fun r => ?_
  cases r with
  | none => trivial
  | some t => exact issues_exec (Stmt.reads_rowsE _) fun _ => trivial

theorem fillTransferAccounts_reads (entries : List RegisterEntry) (account : Guid) :
    (fillTransferAccounts entries account).Issues Readonly := by
  unfold fillTransferAccounts
  split
  · trivial
  · exact issues_exec (Stmt.reads_query _) fun _ => trivial

theorem getAccountRegister_reads (account : GuidText) :
    (getAccountRegister book account).Issues Readonly := by
  refine issues_exec (Stmt.reads_queryE _) fun r => ?_
  rcases r with _ | ⟨guid, accountType⟩
  · trivial
  · refine issues_exec (Stmt.reads_ordered fun _ => Stmt.reads_query _) fun rows => ?_
    exact issues_bind issues_orPanic fun _ => fillTransferAccounts_reads _ _

theorem pageWindow_reads (account : Guid) (cursor : PageCursor) (direction : Direction)
    (limit : Int) : (pageWindow account book cursor direction limit).Issues Readonly := by
  unfold pageWindow
  split
  · split <;> trivial
  · refine issues_reply (Stmt.reads_query _) fun r => ?_
    dsimp only
    split <;> trivial
  · trivial
  · exact issues_reply (Stmt.reads_query _) fun _ => trivial
  · exact issues_exec (Stmt.reads_query _) fun _ => trivial
  · trivial

theorem getAccountRegisterPaged_reads (account : GuidText) (cursor : PageCursor)
    (direction : Direction) (limit : Int) :
    (getAccountRegisterPaged book account cursor direction limit).Issues Readonly := by
  refine issues_exec (Stmt.reads_queryE _) fun r => ?_
  rcases r with _ | ⟨guid, accountType⟩
  · trivial
  · refine issues_exec (Stmt.reads_query _) fun total => ?_
    refine issues_bind (pageWindow_reads _ _ _ _) fun w => ?_
    dsimp only
    split
    · trivial
    · refine issues_bind ?_ fun prior => ?_
      · unfold loadPrior
        split
        · exact issues_exec (Stmt.reads_ordered fun _ => Stmt.reads_rowsE _) fun _ => issues_orPanic
        · trivial
      refine issues_exec (Stmt.reads_ordered fun _ => Stmt.reads_queryE _) fun rows => ?_
      refine issues_bind issues_orPanic fun entries => ?_
      exact issues_bind (fillTransferAccounts_reads _ _) fun _ => trivial

theorem getAccount_reads (account : GuidText) : (getAccount book account).Issues Readonly := by
  refine issues_exec (Stmt.reads_queryE _) fun r => ?_
  cases r <;> trivial

theorem getSnapshot_reads (id : GuidText) : (getSnapshot book id).Issues Readonly := by
  refine issues_exec (Stmt.reads_queryE _) fun r => ?_
  cases r <;> trivial

/-- **A request that only reads issues reads.** -/
theorem handle_reads (cfg : PlaidConfig) (req : Request) (h : req.readonly = true) :
    (handle cfg book req).Issues Readonly := by
  cases req with
  | listAccounts s e => exact issues_answer (issues_sql (Stmt.reads_rowsE _))
  | getAccount i => exact issues_answer (getAccount_reads i)
  | register i => exact issues_answer (getAccountRegister_reads i)
  | registerPage i c d l => exact issues_answer (getAccountRegisterPaged_reads i c d _)
  | reconciledBalance i => exact issues_answer (issues_sql (Stmt.reads_queryE _))
  | listTransactions l o =>
    exact issues_answer (issues_exec (Stmt.reads_rowsE _) fun ts => loadSplits_reads ts)
  | getTransaction i => exact issues_answer (getTransaction_reads i)
  | exportBook => exact issues_answer (handleExport_issues.mono fun _ hq => hq.reads)
  | getConfig =>
    refine issues_answer (issues_exec (Stmt.reads_query _) fun r => ?_)
    cases r <;> trivial
  | listSnapshots => exact issues_answer (issues_sql (Stmt.reads_rowsE _))
  | getSnapshot i => exact issues_answer (getSnapshot_reads i)
  | getBook =>
    refine issues_exec (Stmt.reads_query _) fun r => ?_
    cases r <;> trivial
  | plaidItems => exact issues_answer (issues_sql (Stmt.reads_rowsE _))
  | _ => exact absurd h (by simp [Request.readonly])

end Antimoney
