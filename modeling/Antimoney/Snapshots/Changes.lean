import Antimoney.Concurrent.Edits
import Antimoney.Concurrent.Imports
import Antimoney.Concurrent.Updates
import Antimoney.Effects
import Antimoney.Founding.Registration
import Antimoney.Ledger.Balance
import Antimoney.Snapshots.Clock

/-!
# Which changes the clock sees

An operation that inserts or updates a transaction or an account stamps the row with the time, so
the clock of the book moves. The deletions and the reconciliations stamp nothing.

* `Moves`: what an operation that stamps does to the exports and the clocks.
* `serve_moves`: every event but the silent ones moves.
* **`change_seen_iff`**: after a change the clock stands at the time of the operation exactly when the
  operation stamps, or a row it leaves had been stamped that late.
-/

namespace Antimoney

open Antimoney.Lib Antimoney.Gnc Prog

/-- Each book is exported as before, or its clock stands at `T`; no clock goes back behind `T`. -/
structure Moves (T : Time) (s y : Db) : Prop where
  changes : ∀ b, SameFor b s y ∨ y.Sees b T
  keeps : ∀ b, s.Sees b T → y.Sees b T

section Moves

variable {T : Time} {book : Guid} {s x y z : Db}

theorem Moves.refl (T : Time) (s : Db) : Moves T s s := ⟨fun b => .inl (.refl b s), fun _ => id⟩

theorem Moves.trans (h : Moves T x y) (h' : Moves T y z) : Moves T x z := by
  refine ⟨fun b => ?_, fun b hb => h'.keeps b (h.keeps b hb)⟩
  rcases h.changes b with hsame | hsees
  · exact (h'.changes b).imp_left hsame.trans
  · exact .inr (h'.keeps b hsees)

/-- Other tables change. -/
theorem Moves.of_eq (ha : y.accounts = x.accounts) (ht : y.transactions = x.transactions)
    (hs : y.splits = x.splits) : Moves T x y :=
  ⟨fun _ => .inl (.of_eq ha ht hs), fun _ h => h.congr ht ha⟩

/-- A stamped transaction of the book. -/
theorem Db.sees_transaction {t : Transaction} (ht : t ∈ y.transactions) (hb : t.bookGuid = book)
    (hT : T ≤ t.updatedAt) : y.Sees book T := Db.sees_iff.mpr (.inl ⟨t, ht, hb, hT⟩)

/-- A stamped account of the book. -/
theorem Db.sees_account {a : Account} (ha : a ∈ y.accounts) (hb : a.bookGuid = book)
    (hT : T ≤ a.updatedAt) : y.Sees book T := Db.sees_iff.mpr (.inr ⟨a, ha, hb, hT⟩)

/-- Rows that stay keep the clock. -/
theorem Db.Sees.grow (h : x.Sees book T) (ht : ∀ t ∈ x.transactions, t ∈ y.transactions)
    (ha : ∀ a ∈ x.accounts, a ∈ y.accounts) : y.Sees book T := by
  rcases Db.sees_iff.mp h with ⟨t, hm, hb, hT⟩ | ⟨a, hm, hb, hT⟩
  · exact Db.sees_transaction (ht t hm) hb hT
  · exact Db.sees_account (ha a hm) hb hT

/-- Only the given book changes, and its clock stands at `T`. -/
theorem Moves.of_book (hother : ∀ b, b ≠ book → SameFor b x y) (hsees : y.Sees book T)
    (hkeeps : ∀ b, b ≠ book → x.Sees b T → y.Sees b T) : Moves T x y := by
  constructor
  · intro b
    by_cases hb : b = book
    · exact .inr (hb ▸ hsees)
    · exact .inl (hother b hb)
  · intro b hx
    by_cases hb : b = book
    · exact hb ▸ hsees
    · exact hkeeps b hb hx

/-! ### Rows that come -/

/-- Rows of the book come, with splits of its new transactions. -/
theorem SameFor.append {b : Guid} {as : List Account} {ts : List Transaction} {rs : List Split}
    (hb : b ≠ book) (has : ∀ a ∈ as, a.bookGuid = book) (hts : ∀ t ∈ ts, t.bookGuid = book)
    (hrs : ∀ r ∈ rs, ∃ t ∈ ts, r.txGuid = t.guid) (hfresh : x.Fresh ts) :
    SameFor b x (x.append as ts rs) := by
  have hne : ∀ {g : Guid}, g = book → (g == b) = false := by
    rintro g rfl
    simpa using Ne.symm hb
  refine .of_rows ?_ ?_ fun t ht _ => ?_
  · have hnew : as.filter (·.bookGuid == b) = [] :=
      List.filter_eq_nil_iff.mpr fun a ha => by simp [hne (has a ha)]
    simp [Db.append, List.filter_append, hnew]
  · have hnew : ts.filter (·.bookGuid == b) = [] :=
      List.filter_eq_nil_iff.mpr fun t ht => by simp [hne (hts t ht)]
    simp [Db.append, List.filter_append, hnew]
  · have hnew : rs.filter (·.txGuid == t.guid) = [] := by
      refine List.filter_eq_nil_iff.mpr fun r hr => ?_
      obtain ⟨t', ht', he⟩ := hrs r hr
      have habsent := List.any_eq_false.mp (hfresh t' ht').1 t ht
      rw [he]
      simpa using fun h => habsent (by simp [h])
    simp [Db.append, List.filter_append, hnew]

/-- **Rows of a book come**, one of them stamped. -/
theorem Moves.append {as : List Account} {ts : List Transaction} {rs : List Split}
    (has : ∀ a ∈ as, a.bookGuid = book) (hts : ∀ t ∈ ts, t.bookGuid = book)
    (hrs : ∀ r ∈ rs, ∃ t ∈ ts, r.txGuid = t.guid) (hfresh : x.Fresh ts)
    (hT : (∃ a ∈ as, T ≤ a.updatedAt) ∨ ∃ t ∈ ts, T ≤ t.updatedAt) :
    Moves T x (x.append as ts rs) := by
  have hkeeps : ∀ b, x.Sees b T → (x.append as ts rs).Sees b T := fun b h =>
    h.grow (fun t ht => List.mem_append_left _ ht) fun a ha => List.mem_append_left _ ha
  refine .of_book (fun b hb => .append hb has hts hrs hfresh) ?_ fun b _ => hkeeps b
  rcases hT with ⟨a, ha, hT⟩ | ⟨t, ht, hT⟩
  · exact Db.sees_account (List.mem_append_right _ ha) (has a ha) hT
  · exact Db.sees_transaction (List.mem_append_right _ ht) (hts t ht) hT

/-- An account of the book comes, stamped. -/
theorem Moves.account {a : Account} (hb : a.bookGuid = book) (hT : T ≤ a.updatedAt) :
    Moves T x { x with accounts := x.accounts ++ [a] } := by
  have happend : Moves T x (x.append [a] [] []) :=
    .append (fun a' h => List.mem_singleton.mp h ▸ hb) (fun _ h => absurd h (by simp))
      (fun _ h => absurd h (by simp)) (fun _ h => absurd h (by simp))
      (.inl ⟨a, List.mem_singleton_self a, hT⟩)
  simpa [Db.append] using happend

/-! ### Rows that change -/

/-- An account of the book is updated and stamped. -/
theorem Moves.updateAccount {c : Account → Bool} {f : Account → Account}
    (hc : ∀ a, c a = true → a.bookGuid = book) (hf : ∀ a, (f a).bookGuid = a.bookGuid)
    (hT : ∀ a, T ≤ (f a).updatedAt) (hany : x.accounts.any c = true) :
    Moves T x { x with accounts := updateWhere c f x.accounts } := by
  have hother : ∀ b, b ≠ book → (updateWhere c f x.accounts).filter (·.bookGuid == b) =
      x.accounts.filter (·.bookGuid == b) := by
    intro b hb
    refine filter_updateWhere fun a _ hca => ?_
    rw [hf a, hc a hca]
    simpa using Ne.symm hb
  refine .of_book (fun b hb => .of_rows (hother b hb) rfl fun _ _ _ => rfl) ?_ fun b hb hx => ?_
  · obtain ⟨a, ha, hca⟩ := List.any_eq_true.mp hany
    have hmem : f a ∈ updateWhere c f x.accounts :=
      mem_updateWhere.mpr ⟨a, ha, by rw [if_pos hca]⟩
    exact Db.sees_account hmem ((hf a).trans (hc a hca)) (hT a)
  · rcases Db.sees_iff.mp hx with ⟨t, hm, hbt, ht⟩ | ⟨a, hm, hba, ht⟩
    · exact Db.sees_transaction hm hbt ht
    · have hmem : a ∈ (updateWhere c f x.accounts).filter (·.bookGuid == b) := by
        rw [hother b hb]
        simpa using ⟨hm, hba⟩
      exact Db.sees_account (List.mem_of_mem_filter hmem) hba ht

/-- A transaction of the book is updated, with other splits, and stamped. -/
theorem Moves.updates {guid : Guid} {rows : List Split} (hk : x.Keyed)
    (hfound : x.transactions.any (isTransaction guid book) = true)
    (hu : Updates book guid x.splits rows x y) (hrows : ∀ r ∈ rows, r.txGuid = guid)
    (hsees : y.Sees book T) : Moves T x y := by
  obtain ⟨f, hf, rfl⟩ := hu.self
  obtain ⟨t₀, ht₀, hc₀⟩ := List.any_eq_true.mp hfound
  simp only [isTransaction, Bool.and_eq_true, beq_iff_eq] at hc₀
  have htxns : ∀ b, b ≠ book →
      (updateWhere (isTransaction guid book) f x.transactions).filter (·.bookGuid == b) =
        x.transactions.filter (·.bookGuid == b) := by
    intro b hb
    refine filter_updateWhere fun t _ hct => ?_
    have htb : t.bookGuid = book := by
      simp only [isTransaction, Bool.and_eq_true, beq_iff_eq] at hct
      exact hct.2
    rw [(hf t).2.1, htb]
    simpa using Ne.symm hb
  refine .of_book (fun b hb => .of_rows rfl (htxns b hb) fun t ht htb => ?_) hsees
    fun b hb hx => ?_
  · -- the keys tell the transaction from those of another book
    have hne : t.guid ≠ guid := by
      intro he
      have heq : t = t₀ := List.inj_on_of_nodup_map hk.transactions ht ht₀ (he.trans hc₀.1.symm)
      exact hb (htb.symm.trans ((congrArg Transaction.bookGuid heq).trans hc₀.2))
    have hnew : rows.filter (·.txGuid == t.guid) = [] :=
      List.filter_eq_nil_iff.mpr fun r hr => by
        rw [hrows r hr]
        simpa using Ne.symm hne
    have hold : (deleteWhere (·.txGuid == guid) x.splits).filter (·.txGuid == t.guid) =
        x.splits.filter (·.txGuid == t.guid) := by
      refine filter_deleteWhere fun r _ hr => ?_
      rw [beq_iff_eq.mp hr]
      simpa using Ne.symm hne
    simp [List.filter_append, hnew, hold]
  · rcases Db.sees_iff.mp hx with ⟨t, hm, hbt, ht⟩ | ⟨a, hm, hba, ht⟩
    · have hmem : t ∈ (updateWhere (isTransaction guid book) f x.transactions).filter
          (·.bookGuid == b) := by
        rw [htxns b hb]
        simpa using ⟨hm, hbt⟩
      exact Db.sees_transaction (List.mem_of_mem_filter hmem) hbt ht
    · exact Db.sees_account hm hba ht

end Moves

/-! ## Calls that stamp -/

section Calls

variable {T : Time} {book : Guid} {s v : Db}

/-- The transaction that is answered is stamped. -/
theorem createTransaction_stamps (req : CreateTransactionRequest) :
    (createTransaction book req).swp (clocked T) Duty.none
      (fun r _ => ∀ a, r = .ok a → T ≤ a.1.updatedAt) (.idle s) := by
  have herr : ∀ (e : Err) (t : Solo SqlErr Db), ∀ a : Transaction × List Split,
      Except.error e = .ok a → T ≤ a.1.updatedAt := fun _ _ _ h => absurd h (by simp)
  refine swp_bind ?_
  cases validSplits req.splits with
  | error e => exact herr e (.idle s)
  | ok valid =>
    dsimp only [Prog.ofExcept, Prog.swp, ret_bind]
    refine swp_bind ?_
    cases splitSum valid with
    | none => exact herr .panic (.idle s)
    | some sum =>
      dsimp only [orPanic, Prog.ofExcept, Prog.swp, ret_bind]
      refine swp_begin (fun e => herr e (.idle s)) ?_
      refine swp_bind (swp_mono (fun r t ht => ?_)
        (swp_body_tx (balancedSplits_unposting book valid sum).2 (Solo.open_tx s s)))
      cases r with
      | error e => exact herr e t
      | ok splits =>
        dsimp only [Prog.ofExcept, ret_bind]
        split
        · exact herr _ t
        refine swp_bind (swp_mono (fun r t ht => ?_) (swp_body_tx (checkAccounts_body book splits) ht))
        cases r with
        | error e => exact herr e t
        | ok _ =>
          dsimp only [Prog.ofExcept, ret_bind]
          refine swp_sql_open ht (fun e t _ => herr e t) fun _ guid v v' _ _ _ => ?_
          refine swp_sql_open (Solo.open_tx s v') (fun e t _ => herr e t) fun env now w w' _ ha hx => ?_
          have hnow : T ≤ now := by
            obtain ⟨rfl, -⟩ := Stmt.askEnv_ok hx
            exact clocked_now ha
          refine swp_returns fun _ t => swp_returns fun _ t => swp_returns fun _ t => ?_
          rintro a ha
          obtain rfl := Except.ok.inj ha
          exact hnow

/-- **A transaction that is created is seen.** -/
theorem createTransaction_moves {req : CreateTransactionRequest} :
    (createTransaction book req).swp (clocked T) Duty.none (fun _ t => AtRest (Moves T s) t)
      (.idle s) := by
  have hwrite : (createTransaction book req).swp (clocked T) Duty.none
      (fun r t => ∃ w, t = .idle w ∧ ((∀ a, r = .ok a → T ≤ a.1.updatedAt) → Moves T s w))
      (.idle s) := by
    refine swp_assuming (createTransaction_alone (fun _ => ⟨s, rfl, fun _ => .refl T s⟩) ?_)
    intro as t rows w hc ha _ _
    refine ⟨w, rfl, fun hT => ?_⟩
    obtain ⟨rfl, hfresh, -⟩ := ha
    obtain ⟨valid, sum, splits, -, -, -, -, hrows⟩ := hc.rows
    refine @Moves.append _ book _ _ _ _ (fun a h => ?_) (fun t' h => ?_) (fun r hr => ?_) hfresh
      (.inr ⟨t, List.mem_singleton_self t, hT _ rfl⟩)
    · rcases hc.accounts with rfl | ⟨a', rfl, -, hb, -⟩
      · exact absurd h (by simp)
      · exact List.mem_singleton.mp h ▸ hb
    · exact List.mem_singleton.mp h ▸ hc.inBook
    · obtain ⟨sp, -, hr⟩ := exists_of_forall₂ hrows hr
      exact ⟨t, List.mem_singleton_self t, hr.tx⟩
  refine swp_mono (fun r t ht => ?_) (swp_and hwrite (createTransaction_stamps req))
  obtain ⟨⟨w, rfl, hw⟩, hT⟩ := ht
  exact ⟨w, rfl, hw hT⟩

/-- The statement leaves the transactions and the accounts alone. -/
def KeepsRows {β : Type} (q : Stmt β) : Prop :=
  ∀ ⦃env : Env⦄ ⦃v v' : Db⦄ ⦃b : β⦄, q.sem env v = .ok (b, v') →
    v'.transactions = v.transactions ∧ v'.accounts = v.accounts

theorem Stmt.Reads.keepsRows {β : Type} {q : Stmt β} (h : q.Reads) : KeepsRows q := by
  intro env v v' b hx
  rw [h.sem hx]
  exact ⟨rfl, rfl⟩

theorem keepsRows_insertSplit (account : GuidText) (sp : Split) :
    KeepsRows (insertSplitStmt account sp) := by
  intro env v v' b hx
  obtain ⟨g, rfl⟩ := insertSplitStmt_ok ((insertSplitStmt account sp).write_self hx)
  exact ⟨rfl, rfl⟩

/-- A transaction that was updated is stamped. -/
theorem updateTransaction_stamps (tx : GuidText) (req : UpdateTransactionRequest) :
    (updateTransaction book tx req).swp (clocked T) Duty.none
      (fun r t => ∀ a, r = .ok a → t.db.Sees book T) (.idle s) := by
  have herr : ∀ (e : Err) (t : Solo SqlErr Db), ∀ a : Guid × Nat × List Split,
      Except.error e = .ok a → t.db.Sees book T := fun _ _ _ h => absurd h (by simp)
  refine swp_read_idle (Stmt.reads_queryE _) (fun e => herr e (.idle s)) fun _ found hfound => ?_
  cases found with
  | none => exact herr _ (.idle s)
  | some found =>
    obtain ⟨guid, version⟩ := found
    obtain ⟨t₀, ht₀, hg₀, hb₀⟩ : ∃ t ∈ s.transactions, t.guid = guid ∧ t.bookGuid = book := by
      obtain ⟨hfound, -⟩ := Stmt.queryE_ok hfound
      obtain ⟨g, -, hfound⟩ := ok_bind hfound
      obtain ⟨t, ht, he⟩ := Option.map_eq_some_iff.mp (Except.ok.inj hfound)
      obtain ⟨rfl, -⟩ := Prod.mk.inj he
      have hp := List.find?_some ht
      simp only [Bool.and_eq_true, beq_iff_eq] at hp
      exact ⟨t, List.mem_of_find?_eq_some ht, rfl, hp.2⟩
    refine swp_bind ?_
    cases validSplits req.splits with
    | error e => exact herr e (.idle s)
    | ok splits =>
      dsimp only [Prog.ofExcept, Prog.swp, ret_bind]
      refine swp_bind ?_
      cases splitSum splits with
      | none => exact herr .panic (.idle s)
      | some sum =>
        dsimp only [orPanic, Prog.ofExcept, Prog.swp, ret_bind]
        split
        · exact herr _ (.idle s)
        split
        · exact herr _ (.idle s)
        refine swp_begin (fun e => herr e (.idle s)) ?_
        refine swp_bind (swp_mono (fun r t ht => ?_)
          (swp_body_keeps (I := (· = s)) (@checkAccounts_issues book splits) (checkAccounts_body book splits)
            (fun q env v v' b hq hv hx => (hq.reads.sem hx).trans hv) (Solo.open_tx s s)
            fun v hv => (Except.ok.inj hv).symm))
        obtain ⟨hopen, hview⟩ := ht
        cases r with
        | error e => exact herr e _
        | ok _ =>
          dsimp only [Prog.ofExcept, ret_bind]
          refine swp_sql_open hopen (fun e t _ => herr e _) fun env now w w' hw ha hx => ?_
          obtain rfl := hview w hw
          have hx : timeNow.sem env w = .ok (now, w') := hx
          obtain ⟨rfl, rfl⟩ := Stmt.askEnv_ok hx
          have hnow := clocked_now ha
          refine swp_exec_tx (fun e t _ => herr e _) fun env' _ v hx => ?_
          have hv := updateTransactionStmt_ok (Stmt.write_self _ hx)
          have hsees : v.Sees book T := by
            have hc : isTransaction guid book t₀ = true := by simp [isTransaction, hg₀, hb₀]
            rw [hv]
            refine Db.sees_transaction (mem_updateWhere.mpr ⟨t₀, ht₀, if_pos hc⟩) ?_ ?_
            · exact hb₀
            · exact hnow
          refine swp_exec_tx (fun e t _ => herr e _) fun env'' _ v' hx => ?_
          have hsees' : v'.Sees book T := by
            rw [deleteSplitsOf_ok (Stmt.write_self _ hx)]
            exact hsees
          refine swp_rest (P := fun q => KeepsRows q) (I := fun v => v.Sees book T)
            (insertSplits_issues reads_uuidNew.keepsRows fun a sp _ => keepsRows_insertSplit a sp)
            (insertSplits_body _ _ _ _ _) (fun q env v v' b hq hv hx => ?_) (Solo.open_tx _ v')
            (fun v hv => (Except.ok.inj hv) ▸ hsees') (fun e t _ => herr e _) fun rows w hw a _ => hw
          obtain ⟨ht, ha⟩ := hq hx
          exact hv.congr ht ha

/-- **A transaction that is updated is seen.** -/
theorem updateTransaction_moves {tx : GuidText} {req : UpdateTransactionRequest} (hk : s.Keyed) :
    (updateTransaction book tx req).swp (clocked T) Duty.none (fun _ t => Moves T s t.db)
      (.idle s) := by
  have hwrite : (updateTransaction book tx req).swp (clocked T) Duty.none
      (fun r t => (∀ a, r = .ok a → t.db.Sees book T) → Moves T s t.db) (.idle s) := by
    refine swp_assuming (updateTransaction_alone (fun _ _ => .refl T s) ?_)
    intro guid version rows w hfound hc hu _ hT
    obtain ⟨splits, sum, -, -, -, -, hrows⟩ := hc.rows
    refine .updates hk hfound hu (fun r hr => ?_) (hT _ rfl)
    obtain ⟨sp, -, hr⟩ := exists_of_forall₂ hrows hr
    exact hr.tx
  exact swp_mono (fun r t ht => ht.1 ht.2) (swp_and hwrite (updateTransaction_stamps tx req))

/-- **An account that is created is seen.** -/
theorem createAccount_moves {req : CreateAccountRequest} :
    (createAccount book req).swp (clocked T) Duty.none (fun _ t => Moves T s t.db) (.idle s) := by
  refine swp_read_idle reads_uuidNew (fun _ => .refl T s) fun _ guid _ => ?_
  refine swp_exec_idle (fun _ => .refl T s) fun env now s' ha hx => ?_
  obtain ⟨rfl, rfl⟩ := Stmt.askEnv_ok hx
  have hnow := clocked_now ha
  refine swp_exec_idle (fun _ => .refl T s') fun _ a v _ hx => ?_
  obtain ⟨g, rfl⟩ := createAccountStmt_ok (Stmt.write_self _ hx)
  exact .account rfl hnow

/-- **An account that is updated is seen.** -/
theorem updateAccount_moves {id : GuidText} {req : UpdateAccountRequest} :
    (updateAccount book id req).swp (clocked T) Duty.none (fun _ t => Moves T s t.db)
      (.idle s) := by
  refine swp_exec_idle (fun _ => .refl T s) fun env now s' ha hx => ?_
  obtain ⟨rfl, rfl⟩ := Stmt.askEnv_ok hx
  have hnow := clocked_now ha
  refine swp_exec_idle (fun _ => .refl T s') fun _ n v _ hx => ?_
  have hv : Moves T s' v := by
    rcases updateAccountStmt_cases hx with rfl | ⟨g, p, -, -, hany, -, rfl⟩
    · exact .refl T v
    · refine @Moves.updateAccount _ book _ _ _ (fun a hc => ?_) (fun _ => rfl) (fun _ => hnow) hany
      simp only [atVersion, Bool.and_eq_true, beq_iff_eq] at hc
      exact hc.2
  have hreads : ∀ {α : Type} {p : Call α}, (p.Issues fun q => q.Reads) →
      p.swp (clocked T) Duty.none (fun _ t => Moves T s' t.db) (.idle v) := fun hp =>
    swp_mono (fun _ t ht => ht.1) (swp_of_issues hp (fun q env v v' b hq hv _ hx =>
      (hq.sem hx).symm ▸ hv) (Solo.holds_idle hv))
  split
  · refine hreads (issues_reply (Stmt.reads_queryE _) fun r => ?_)
    split <;> trivial
  · refine hreads (issues_exec (Stmt.reads_queryE _) fun r => ?_)
    cases r <;> trivial

/-! ### Loops -/

theorem createTransaction_moving {req : CreateTransactionRequest} (hv : v.Stocked ∧ Moves T s v) :
    (createTransaction book req).swp (clocked T) Duty.none
      (fun _ t => AtRest (fun w => w.Stocked ∧ Moves T s w) t) (.idle v) := by
  have hstocked : (createTransaction book req).swp (clocked T) Duty.none
      (fun _ t => t.Holds Db.Stocked) (.idle v) :=
    swp_of_issues (createTransaction_issues req)
      (fun _ _ _ _ _ hq hv _ hx => Issued.stocked hq hv hx) (Solo.holds_idle hv.1)
  refine swp_mono (fun r t ht => ?_) (swp_and hstocked createTransaction_moves)
  obtain ⟨⟨hw, -⟩, w, rfl, hm⟩ := ht
  exact ⟨w, rfl, hw, hv.2.trans hm⟩

theorem csvLoop_moves {account : GuidText} (rs : List CsvRow) (h : s.Stocked) :
    (csvLoop book account rs).swp (clocked T) Duty.none (fun _ t => Moves T s t.db) (.idle s) :=
  swp_mono (fun _ _ ht => ht.db.2) (csvLoop_atRest rs (fun _ _ _ hv => createTransaction_moving hv)
    ⟨h, .refl T s⟩)

theorem importRows_moves (rows : List ImportRow) (h : s.Stocked) :
    (importRows book rows).swp (clocked T) Duty.none (fun _ t => Moves T s t.db) (.idle s) := by
  refine swp_mono (fun _ _ ht => ht.db.2) (importLoop_atRest
    (I := fun w => w.Stocked ∧ Moves T s w) (fun v hv => hv.1.cents) (fun id v hv => ?_)
    (fun _ _ _ _ _ hv => createTransaction_moving hv) _ rows ⟨h, .refl T s⟩)
  refine deleteStaged_atRest (fun env v v' hv hx => ⟨?_, hv.2.trans ?_⟩) hv
  · exact Issued.stocked (.inl (ByBook.quiet (.deleteStaged id))) hv.1 hx
  · rw [deleteStagedStmt_ok (Stmt.write_self _ hx)]
    exact .of_eq rfl rfl rfl

/-! ### Imports -/

/-- Each account of the book is stamped, or has the identifier of an account of `s`. -/
def StampedAccounts (T : Time) (book : Guid) (s v : Db) : Prop :=
  ∀ a ∈ v.accounts, a.bookGuid = book → T ≤ a.updatedAt ∨ ∃ b ∈ s.accounts, b.guid = a.guid

theorem Importing.stamped {β : Type} {q : Stmt β} {env : Env} {v' : Db} {b : β}
    (hq : Importing book q) (hnow : T ≤ env.now) (h : StampedAccounts T book s v)
    (hx : q.sem env v = .ok (b, v')) : StampedAccounts T book s v' := by
  have hw := q.write_self hx
  cases hq with
  | read hr => exact (hr.reads.sem hx).symm ▸ h
  | setBookRoot r =>
    rw [(setBookRoot_ok hw).2]
    exact h
  | deleteBookSplits =>
    rw [deleteBookSplits_ok hw]
    exact h
  | deleteBookTransactions =>
    rw [deleteBookTransactions_ok hw]
    exact h
  | deleteBookAccounts =>
    rw [deleteBookAccounts_eq hx]
    exact fun a ha => h a (mem_deleteWhere.mp ha).1
  | insertImportAccount a =>
    obtain ⟨v'', hi, hx⟩ := ok_bind (ok_of_failing hx)
    obtain ⟨-, rfl⟩ := Prod.mk.inj (Except.ok.inj hx)
    rw [(Db.insertAccount_ok hi).2]
    intro a' ha' hb
    rcases List.mem_append.mp ha' with ha' | ha'
    · exact h a' ha' hb
    · rw [List.mem_singleton.mp ha']
      exact .inl hnow
  | updateHierarchy a p =>
    obtain ⟨g, -, rfl⟩ := updateHierarchy_ok hw
    intro a' ha' hb
    rcases mem_updateWhere_cases ha' with ⟨ha', -⟩ | ⟨a₀, ha₀, -, rfl⟩
    · exact h a' ha' hb
    · exact h a₀ ha₀ hb
  | insertImportTransaction t =>
    obtain ⟨_, _, _, -, -, rfl⟩ := insertImportTransaction_ok hw
    exact h
  | insertImportSplit t sp =>
    obtain ⟨_, _, -, rfl⟩ := insertImportSplit_ok hw
    exact h

/-- A book that is cleared shows in no other. -/
theorem SameFor.clearBook {b : Guid} (hk : s.Keyed) (hb : b ≠ book) :
    SameFor b s (s.clearBook book) := by
  refine .of_rows (filter_deleteWhere fun a _ ha => ?_) (filter_deleteWhere fun t _ ht => ?_)
    fun t ht htb => filter_deleteWhere fun sp _ hsp => ?_
  · rw [beq_iff_eq.mp ha]
    simpa using Ne.symm hb
  · rw [beq_iff_eq.mp ht]
    simpa using Ne.symm hb
  · obtain ⟨t', ht', hg⟩ := List.any_eq_true.mp hsp
    obtain ⟨ht', hb'⟩ := List.mem_filter.mp ht'
    by_contra hne
    have hsame : t' = t := List.inj_on_of_nodup_map hk.transactions ht' ht
      ((beq_iff_eq.mp hg).trans (by simpa using hne))
    exact hb (htb.symm.trans ((congrArg Transaction.bookGuid hsame).symm.trans
      (beq_iff_eq.mp hb')))

/-- The rows that replace a book show in no other. -/
theorem Replaced.sameFor {accounts : List ImportAccount} {txns : List ImportTransaction}
    {root b : Guid} {as : List Account} {ts : List Transaction} {ss : List Split}
    (h : Replaced s book accounts txns as ts ss) (hk : s.Keyed)
    (hnew : ∀ t ∈ ts, s.unused t.guid = true) (hb : b ≠ book) :
    SameFor b s ((s.clearBook book).refill book root as ts ss) := by
  have hfill : SameFor b (s.clearBook book) ((s.clearBook book).append as ts ss) := by
    refine .append hb (fun a ha => ?_) (fun t ht => ?_) (fun sp hsp => ?_) fun t ht => ⟨?_, ?_⟩
    · obtain ⟨_, -, hrow, -⟩ := exists_of_forall₂ h.accounts ha
      exact hrow.bookGuid
    · obtain ⟨_, -, hrow⟩ := exists_of_forall₂ h.transactions ht
      exact hrow.bookGuid
    · obtain ⟨p, hp, hrow⟩ := exists_of_forall₂ h.splits hsp
      obtain ⟨t', ht', hp⟩ := List.mem_flatMap.mp hp
      obtain ⟨_, -, rfl⟩ := List.mem_map.mp hp
      obtain ⟨r, hr, htr⟩ := exists_of_forall₂ h.transactions.flip ht'
      exact ⟨r, hr, hrow.txGuid.trans htr.guid.symm⟩
    · refine List.any_eq_false.mpr fun t' ht' he => ?_
      exact Db.unused_transaction (hnew t ht) t' (mem_deleteWhere.mp ht').1 (beq_iff_eq.mp he)
    · obtain ⟨_, -, hrow⟩ := exists_of_forall₂ h.transactions ht
      rw [hrow.plaidTxnId]
      rfl
  exact ((SameFor.clearBook hk hb).trans hfill).trans (.of_eq rfl rfl rfl)

/-- Each book is exported as before, or its clock stands at `T`. -/
def Shown (T : Time) (s y : Db) : Prop := ∀ b, SameFor b s y ∨ y.Sees b T

/-- **An import is seen.** -/
theorem performImport_shown {file : ExportData} (hk : s.Keyed) :
    (performImport book file).swp (clocked T) Duty.none (fun _ t => Shown T s t.db) (.idle s) := by
  have hstamped : (performImport book file).swp (clocked T) Duty.none
      (fun _ t => t.Holds (StampedAccounts T book s)) (.idle s) :=
    swp_of_issues (performImport_issues file)
      (fun q env v v' b hq hv ha hx => hq.stamped (clocked_now ha) hv hx)
      (Solo.holds_idle fun a ha _ => .inr ⟨a, ha, rfl⟩)
  have hrows : (performImport book file).swp (clocked T) Duty.none
      (fun _ t => StampedAccounts T book s t.db → Shown T s t.db) (.idle s) := by
    have hsame : StampedAccounts T book s s → Shown T s s := fun _ b => .inl (.refl b s)
    refine performImport_swp (F := fun g => s.unused g = true) (fun env ha => ?_) (fun _ => hsame)
      fun root renamed txns hr => ?_
    · have ha' : (s.unused env.guid && decide (T ≤ env.now)) = true := ha
      exact ((Bool.and_eq_true _ _).mp ha').1
    · obtain ⟨g, hg⟩ := hr.root_exists
      refine swp_mono (fun r t ht => ?_) (replaceBook_swp hg)
      rcases ht with ⟨e, -, rfl⟩ | ⟨as, ts, ss, -, rfl, hrep⟩
      · exact hsame
      intro hst b
      by_cases hb : b = book
      · -- the root of the imported tree is stamped
        obtain ⟨a, ha, -, -⟩ := rootAccountGuid_mem hg
        obtain ⟨row, hrow, har, -⟩ := exists_of_forall₂ hrep.accounts.flip ha
        obtain ⟨p, hp, rfl⟩ := List.mem_map.mp ha
        have hmem : row ∈ ((s.clearBook book).refill book g as ts ss).accounts :=
          List.mem_append_right _ hrow
        rw [hb]
        refine .inr (Db.sees_account hmem har.bookGuid ?_)
        rcases hst row hmem har.bookGuid with hT | ⟨a₀, ha₀, he⟩
        · exact hT
        · exact absurd (he.trans har.guid)
            (Db.unused_account (hr.accounts_new p hp) a₀ ha₀)
      · refine .inl (hrep.sameFor hk (fun t ht => ?_) hb)
        obtain ⟨t', ht', hrow⟩ := exists_of_forall₂ hrep.transactions ht
        obtain ⟨t₀, -, hren⟩ := exists_of_forall₂ hr.transactions ht'
        exact hrow.guid ▸ hren.new
  exact swp_mono (fun _ _ ht => ht.1 ht.2.1) (swp_and hrows hstamped)

/-! ### Seeding -/

/-- Only the book changes, and its clock stands at `T`. -/
structure Seeded (T : Time) (book : Guid) (s v : Db) : Prop where
  sees : v.Sees book T
  others : ∀ b, b ≠ book → SameFor b s v

theorem Seeded.shown (h : Seeded T book s v) : Shown T s v := by
  intro b
  by_cases hb : b = book
  · exact .inr (hb ▸ h.sees)
  · exact .inl (h.others b hb)

/-- Accounts of the book do not show in others. -/
theorem sameFor_seed {d : AcctDef} {p : Option Guid} {ph : Bool} {env : Env} {v' : Db} {g b : Guid}
    (hx : (insertSeedAccountStmt book d p ph).sem env v = .ok (g, v')) (hb : b ≠ book) :
    SameFor b v v' := by
  obtain ⟨a, hab, -, rfl⟩ := insertSeedAccountStmt_ok (Stmt.write_self _ hx)
  have happend : SameFor b v (v.append [a] [] []) :=
    .append hb (fun a' h => List.mem_singleton.mp h ▸ hab) (fun _ h => absurd h (by simp))
      (fun _ h => absurd h (by simp)) fun _ h => absurd h (by simp)
  simpa [Db.append] using happend

/-- The statement leaves a seeded book seeded. -/
def KeepsSeeded (T : Time) (book : Guid) (s : Db) {β : Type} (q : Stmt β) : Prop :=
  ∀ ⦃env : Env⦄ ⦃v v' : Db⦄ ⦃b : β⦄, Seeded T book s v → q.sem env v = .ok (b, v') →
    Seeded T book s v'

theorem keepsSeeded_insert (d : AcctDef) (p : Option Guid) (ph : Bool) :
    KeepsSeeded T book s (insertSeedAccountStmt book d p ph) := by
  intro env v v' g hv hx
  refine ⟨?_, fun b hb => (hv.others b hb).trans (sameFor_seed hx hb)⟩
  obtain ⟨a, -, -, rfl⟩ := insertSeedAccountStmt_ok (Stmt.write_self _ hx)
  exact hv.sees.grow (fun _ h => h) fun _ h => List.mem_append_left _ h

theorem keepsSeeded_setBookRoot (r : Option Guid) :
    KeepsSeeded T book s (setBookRoot book r) := by
  intro env v v' u hv hx
  rw [(setBookRoot_ok (Stmt.write_self _ hx)).2]
  exact ⟨hv.sees.congr rfl rfl, fun b hb => (hv.others b hb).trans (.of_eq rfl rfl rfl)⟩

/-- **Seeding is seen**, if it does not fail. -/
theorem seedUserBook_seeded :
    (seedUserBook book).swp (clocked T) Duty.none
      (fun r t => (t = .idle v ∧ ∃ e, r = .error e) ∨ r = .ok () ∧ Seeded T book v t.db)
      (.idle v) := by
  rw [seedUserBook_eq]
  have herr : ∀ (e : Err) (t : Solo SqlErr Db), t.db = v →
      ((Solo.idle t.db : Solo SqlErr Db) = .idle v ∧
          ∃ e', (Except.error e : Except Err Unit) = .error e') ∨
        (Except.error e : Except Err Unit) = .ok () ∧ Seeded T book v t.db :=
    fun e t ht => .inl ⟨ht ▸ rfl, e, rfl⟩
  refine swp_begin (fun e => herr e (.idle v) rfl) (swp_bind ?_)
  refine swp_sql_open (Solo.open_tx v v) herr fun env root v₀ w hv₀ ha hx => ?_
  obtain rfl := Except.ok.inj hv₀
  have hx : (insertSeedAccountStmt book ⟨"Root Account", "ROOT", "Root of the account tree"⟩ none
    true).sem env v = .ok (root, w) := hx
  have hroot : Seeded T book v w := by
    refine ⟨?_, fun b hb => sameFor_seed hx hb⟩
    obtain ⟨v', hi, hx⟩ := ok_bind (ok_of_failing hx)
    obtain ⟨-, rfl⟩ := Prod.mk.inj (Except.ok.inj hx)
    rw [(Db.insertAccount_ok hi).2]
    exact Db.sees_account (List.mem_append_right _ (List.mem_singleton_self _)) rfl (clocked_now ha)
  have hs : ∀ d p b, KeepsSeeded T book v (insertSeedAccountStmt book d p b) := keepsSeeded_insert
  refine swp_mono (fun r t ht => ?_) (swp_body_keeps (I := Seeded T book v)
    (P := fun q => KeepsSeeded T book v q) (issues_exec (keepsSeeded_setBookRoot _) fun _ =>
      issues_bind (insertTopAccounts_issues hs _ _) fun tops => insertSubAccounts_issues hs _)
    ((seeding_body book).2 (.ok root)) (fun q env v v' b hq hv hx => hq hv hx) (Solo.open_tx v w)
    fun w' hw' => Except.ok.inj hw' ▸ hroot)
  obtain ⟨hopen, hview⟩ := ht
  cases r with
  | error e => exact herr e t hopen.db
  | ok _ =>
    intro env _
    refine ⟨trivial, ?_⟩
    simp only [soloStep]
    cases (clocked T).down env with
    | some e => exact herr _ _ hopen.db
    | none =>
      cases hv : t.view with
      | error e => exact herr _ _ hopen.db
      | ok w => exact .inr ⟨rfl, hview w hv⟩

/-- **A registration is seen.** -/
theorem registerUser_shown (email name : String) :
    (registerUser email name).swp (clocked T) Duty.none (fun _ t => Shown T s t.db) (.idle s) := by
  have hs : Shown T s s := fun b => .inl (.refl b s)
  refine swp_ask_idle (Stmt.reads_query _) fun found => ?_
  split
  · exact hs
  · refine swp_exec_idle (fun _ => hs) fun env user v _ hx => ?_
    have hv : ∀ b, SameFor b s v := by
      obtain ⟨-, hx⟩ := require_bind (ok_of_failing hx)
      obtain ⟨-, hx⟩ := require_bind hx
      obtain ⟨-, rfl⟩ := Prod.mk.inj (Except.ok.inj hx)
      exact fun b => .of_eq rfl rfl rfl
    refine swp_exec_idle (fun _ b => .inl (hv b)) fun env book w _ hx => ?_
    have hw : ∀ b, SameFor b s w := by
      obtain ⟨-, hx⟩ := require_bind (ok_of_failing hx)
      obtain ⟨-, rfl⟩ := Prod.mk.inj (Except.ok.inj hx)
      exact fun b => (hv b).trans (.of_eq rfl rfl rfl)
    refine swp_bind (swp_mono (fun r t ht => ?_) seedUserBook_seeded)
    rcases ht with ⟨rfl, e, rfl⟩ | ⟨rfl, ht⟩
    · exact fun b => .inl (hw b)
    · exact fun b => (ht.shown b).imp_left (hw b).trans

/-- **A factory reset is seen**, if it does not fail. -/
theorem handleFactoryReset_shown (hk : s.Keyed) :
    (handleFactoryReset book).swp (clocked T) Duty.none (fun r t => r = .ok () → Shown T s t.db)
      (.idle s) := by
  have herr : ∀ (e : Err) (t : Solo SqlErr Db),
      (Except.error e : Except Err Unit) = .ok () → Shown T s t.db := fun e t h => absurd h (by simp)
  rw [handleFactoryReset_eq]
  have hclear : (clearing book).swp (clocked T) Duty.none
      (fun r t => (∃ e, r = .error e) ∨ r = .ok () ∧ t = .idle (s.clearBook book)) (.idle s) := by
    refine swp_begin (fun e => .inl ⟨e, rfl⟩) (clearBook_swp (fun e t _ => .inl ⟨e, rfl⟩) ?_)
    exact swp_commit (fun _ _ => trivial) (fun _ => .inl ⟨_, rfl⟩) (.inr ⟨rfl, rfl⟩)
  refine swp_bind (swp_mono (fun r t ht => ?_) hclear)
  rcases ht with ⟨e, rfl⟩ | ⟨rfl, rfl⟩
  · exact herr e t
  · refine swp_mono (fun r t ht => ?_) seedUserBook_seeded
    rcases ht with ⟨rfl, e, rfl⟩ | ⟨rfl, ht⟩
    · exact herr e _
    · exact fun _ => Seeded.shown ⟨ht.sees, fun b hb =>
        (SameFor.clearBook hk hb).trans (ht.others b hb)⟩

end Calls

/-! ## Every event -/

/-- The operations that stamp no row: they delete rows, or reconcile splits. -/
def Event.silent : Event → Bool
  | .request _ _ (.deleteAccount _) | .request _ _ (.deleteTransaction _)
  | .request _ _ (.toggleAcknowledge _ _) | .request _ _ (.batchReconcile _)
  | .request _ _ (.reconcileAccount _) => true
  | _ => false

/-- A factory reset commits twice; it is one operation once it is answered. -/
def Event.Complete (e : Event) (answer : Except Err Response) : Prop :=
  match e with
  | .request _ _ .factoryReset => answer = .ok .done
  | _ => True

/-- The transactions a deletion is about. -/
def Event.deletesTransaction (e : Event) (t : Transaction) : Bool :=
  match e with
  | .request _ book (.deleteTransaction id) => id.parse == .ok t.guid && t.bookGuid == book
  | _ => false

/-- The accounts a deletion is about. -/
def Event.deletesAccount (e : Event) (a : Account) : Bool :=
  match e with
  | .request _ book (.deleteAccount id) => id.parse == .ok a.guid && a.bookGuid == book
  | _ => false

/-- A row of the book that the event does not delete was stamped at `T` or later already. -/
def Db.Stamped (db : Db) (e : Event) (book : Guid) (T : Time) : Prop :=
  (∃ t ∈ db.transactions, t.bookGuid = book ∧ e.deletesTransaction t = false ∧ T ≤ t.updatedAt) ∨
    ∃ a ∈ db.accounts, a.bookGuid = book ∧ e.deletesAccount a = false ∧ T ≤ a.updatedAt

section Events

variable {T : Time} {book : Guid} {db : Db} {envs : Nat → Env}

/-- The run of a call on a clock that is at `T` or later. -/
theorem run_of_clocked {α : Type} {p : Call α} {Q : Except Err α → Solo SqlErr Db → Prop}
    (h : p.swp (clocked T) Duty.none Q (.idle db)) (hT : ∀ n, T ≤ (envs n).now)
    (ha : p.runAllowed machine envs (.idle db) = true) :
    Q (p.run machine envs (.idle db)).1 (p.run machine envs (.idle db)).2 := by
  have hrun := run_of_swp h (runAllowed_assuming (fun _ n _ => decide_eq_true (hT n)) ha)
  rwa [run_assuming] at hrun

theorem serve_shows {α : Type} {p : Call α} {f : α → Response}
    (h : p.swp (clocked T) Duty.none (fun _ t => Shown T db t.db) (.idle db))
    (hT : ∀ n, T ≤ (envs n).now) (ha : mayServe (p.bind fun a => ret (f a)) envs db = true) :
    Shown T db (serve (p.bind fun a => ret (f a)) envs db).2 := by
  obtain ⟨hserve, hallowed⟩ := @serve_map db envs _ p f
  rw [hserve]
  exact run_of_clocked h hT (hallowed.symm.trans ha)

theorem serve_moves {α : Type} {p : Call α} {f : α → Response}
    (h : p.swp (clocked T) Duty.none (fun _ t => Moves T db t.db) (.idle db))
    (hT : ∀ n, T ≤ (envs n).now) (ha : mayServe (p.bind fun a => ret (f a)) envs db = true) :
    Shown T db (serve (p.bind fun a => ret (f a)) envs db).2 :=
  serve_shows (swp_mono (fun _ _ ht => ht.changes) h) hT ha

/-- A part that shows in no export, then the rest. -/
theorem shown_after {α β : Type} {p : Call β} {k : β → Call α} (h : db.Keyed)
    (hissued : p.Issues (Issued book)) (hexport : p.Issues KeepsExport) (hbody : p.Body)
    (hrest : ∀ b v, v.Keyed → (k b).swp (clocked T) Duty.none (fun _ t => Shown T v t.db)
      (.idle v)) :
    (p.bind k).swp (clocked T) Duty.none (fun _ t => Shown T db t.db) (.idle db) := by
  have hkeyed : p.swp machine Duty.none (fun _ t => t.Holds Db.Keyed) (.idle db) :=
    swp_of_issues hissued (fun _ _ _ _ _ hq hv _ hx => hq.keyed hv hx) (Solo.holds_idle h)
  have hsame := @sameFor_of_issues _ _ db hexport
  refine swp_bind (swp_mono (fun r t ht => ?_) (swp_assuming (swp_and (swp_and hkeyed hsame)
    (swp_body (M := machine) hbody rfl))))
  obtain ⟨⟨⟨hv, -⟩, hx⟩, hw⟩ := ht
  obtain ⟨v, w⟩ := t
  obtain rfl : w = none := hw
  cases r with
  | error _ => exact fun b => .inl (hx b)
  | ok b =>
    exact swp_mono (fun _ _ hy b => (hy b).imp_left (hx b).trans) (hrest b v hv)

theorem backup_shown {label : String} {file : ExportData} (h : db.Keyed) :
    ((autoBackup book label).bind fun _ => performImport book file).swp (clocked T) Duty.none
      (fun _ t => Shown T db t.db) (.idle db) :=
  shown_after h ((autoBackup_issues label).mono fun _ hq => hq.issued)
    ((autoBackup_issues label).mono fun _ hq => hq.keepsExport) (autoBackup_body label)
    fun _ _ hv => performImport_shown hv

theorem handleRestore_shown {id : GuidText} (h : db.Keyed) :
    (handleRestore book id).swp (clocked T) Duty.none (fun _ t => Shown T db t.db) (.idle db) := by
  refine @shown_after _ book _ _ _ _ _ h ?_ ?_ ?_ fun snap v hv => backup_shown hv
  · exact (getSnapshot_issues id).mono fun _ hq => .inl hq.quiet
  · exact (getSnapshot_reads id).mono fun _ hq => hq.keepsExport
  · refine body_sql fun r => ?_
    cases r <;> trivial

/-- **Every operation that stamps is seen.** -/
theorem serve_shown {e : Event} (h : db.Stocked) (he : e.silent = false)
    (ha : mayServe e.call envs db = true) (hT : ∀ n, T ≤ (envs n).now)
    (hc : e.Complete (serve e.call envs db).1) : Shown T db (serve e.call envs db).2 := by
  have hkeeps : e.call.Issues KeepsExport → Shown T db (serve e.call envs db).2 := fun hp b =>
    .inl (run_of_swp (sameFor_of_issues hp) ha b)
  cases e with
  | signUp email name => exact serve_shows (registerUser_shown email name) hT ha
  | scheduled book label trigger =>
    exact hkeeps (issues_answer ((takeSnapshotForBook_issues label trigger).mono
      fun _ hq => hq.keepsExport))
  | purge => exact hkeeps (issues_exec keepsExport_purge fun _ => trivial)
  | request cfg book req =>
    have hother := fun hr => hkeeps (handle_keepsExport cfg req hr)
    cases req with
    | createAccount req => exact serve_moves createAccount_moves hT ha
    | updateAccount id req => exact serve_moves updateAccount_moves hT ha
    | createTransaction req =>
      exact serve_moves (swp_mono (fun _ _ ht => ht.db) createTransaction_moves) hT ha
    | updateTransaction id req => exact serve_moves (updateTransaction_moves h.keyed) hT ha
    | importJson file =>
      cases file with
      | none => exact hkeeps trivial
      | some file => exact serve_shows (p := handleImport book file) (performImport_shown h.keyed) hT ha
    | importGnuCash file =>
      cases file with
      | none => exact hkeeps trivial
      | some file =>
        exact serve_shows (p := handleGnuCashImport book file) (backup_shown h.keyed) hT ha
    | restoreSnapshot id => exact serve_shows (handleRestore_shown h.keyed) hT ha
    | factoryReset =>
      obtain ⟨hserve, hallowed⟩ := @serve_map db envs _ (handleFactoryReset book)
        fun _ => Response.done
      have hrun := run_of_clocked (handleFactoryReset_shown h.keyed) hT (hallowed.symm.trans ha)
      have hanswer : ((handleFactoryReset book).run machine envs (.idle db)).1.map
          (fun _ => Response.done) = .ok .done := (congrArg Prod.fst hserve).symm.trans hc
      have hstate : (serve (Event.request cfg book .factoryReset).call envs db).2 =
          ((handleFactoryReset book).run machine envs (.idle db)).2.db := congrArg Prod.snd hserve
      rw [hstate]
      refine hrun ?_
      cases hr : ((handleFactoryReset book).run machine envs (.idle db)).1 with
      | ok u => rfl
      | error e' =>
        rw [hr] at hanswer
        exact absurd hanswer (by simp [Except.map])
    | importCsv account file =>
      by_cases hacc : account = .malformed ""
      · exact hkeeps (by simp [Event.call, handle, hacc, refuse])
      · cases file with
        | invalid => exact hkeeps (by simp [Event.call, handle, hacc, refuse])
        | noRecords => exact hkeeps (by simp [Event.call, handle, hacc])
        | rows rs =>
          have hcall : (Event.request cfg book (.importCsv account (.rows rs))).call =
              (csvLoop book account rs).bind fun n => ret (.count n) := if_neg hacc
          rw [hcall] at ha ⊢
          exact serve_moves (csvLoop_moves rs h) hT ha
    | plaidImport rows =>
      by_cases hempty : rows.isEmpty = true
      · exact hkeeps (by simp only [Event.call, handle, hempty]; trivial)
      · by_cases hmany : maxImportRows < rows.length
        · exact hkeeps (by simp only [Event.call, handle, hempty, hmany]; trivial)
        · have hcall : (Event.request cfg book (.plaidImport rows)).call =
              (importRows book rows).bind fun r => ret (.imported r.1 r.2) :=
            (if_neg hempty).trans (if_neg hmany)
          rw [hcall] at ha ⊢
          exact serve_moves (importRows_moves rows h) hT ha
    | deleteAccount | deleteTransaction | toggleAcknowledge | batchReconcile | reconcileAccount =>
      exact absurd he (by simp [Event.silent])
    | _ => exact hother (by simp [Request.readonly, Request.aside])

/-! ### The silent ones -/

/-- What a silent operation leaves of both tables. -/
structure Leftover (e : Event) (x y : Db) : Prop where
  transactions : y.transactions = deleteWhere e.deletesTransaction x.transactions
  accounts : y.accounts = deleteWhere e.deletesAccount x.accounts

theorem Leftover.sees_iff {e : Event} {y : Db} (h : Leftover e db y) :
    y.Sees book T ↔ db.Stamped e book T := by
  rw [Db.sees_iff, h.transactions, h.accounts]
  unfold Db.Stamped
  simp only [mem_deleteWhere]
  constructor
  · rintro (⟨t, ⟨ht, hd⟩, hb, hT⟩ | ⟨a, ⟨ha, hd⟩, hb, hT⟩)
    · exact .inl ⟨t, ht, hb, by simpa using hd, hT⟩
    · exact .inr ⟨a, ha, hb, by simpa using hd, hT⟩
  · rintro (⟨t, ht, hb, hd, hT⟩ | ⟨a, ha, hb, hd, hT⟩)
    · exact .inl ⟨t, ⟨ht, by simpa using hd⟩, hb, hT⟩
    · exact .inr ⟨a, ⟨ha, by simpa using hd⟩, hb, hT⟩

/-- A call that leaves both tables alone. -/
theorem leftover_of_issues {e : Event} (hp : e.call.Issues KeepsRows)
    (ht : ∀ t, e.deletesTransaction t = false) (hacc : ∀ a, e.deletesAccount a = false)
    (ha : mayServe e.call envs db = true) : Leftover e db (serve e.call envs db).2 := by
  let I : Db → Prop := fun v => v.transactions = db.transactions ∧ v.accounts = db.accounts
  have hrun : I (serve e.call envs db).2 :=
    (run_of_swp (swp_of_issues (I := I) hp
      (fun _ _ _ _ _ hq hv _ hx => ⟨(hq hx).1.trans hv.1, (hq hx).2.trans hv.2⟩)
      (Solo.holds_idle ⟨rfl, rfl⟩)) ha).1
  have hkeep : ∀ {α : Type} {c : α → Bool} {t : List α}, (∀ r, c r = false) →
      deleteWhere c t = t := fun hc => List.filter_eq_self.mpr fun r _ => by simp [hc r]
  exact ⟨hrun.1.trans (hkeep ht).symm, hrun.2.trans (hkeep hacc).symm⟩

theorem Reconciling.keepsRows {β : Type} {q : Stmt β} (h : Reconciling book q) : KeepsRows q := by
  intro env v v' b hx
  cases h with
  | reconcileSplit | reconcileAccounts =>
    obtain ⟨_, -, hx⟩ := ok_bind (ok_of_failing hx)
    obtain rfl := congrArg Prod.snd (Except.ok.inj hx)
    exact ⟨rfl, rfl⟩

theorem keepsRows_toggleSplit (split : GuidText) (state : String) :
    KeepsRows (toggleSplitStmt book split state) := by
  intro env v v' b hx
  obtain ⟨_, -, hx⟩ := ok_bind (ok_of_failing hx)
  obtain rfl := congrArg Prod.snd (Except.ok.inj hx)
  exact ⟨rfl, rfl⟩

theorem deleteTransaction_leaves {cfg : PlaidConfig} {id : GuidText} :
    (deleteTransaction book id).swp (machine.assuming fun _ _ _ => true) Duty.none
      (fun _ t => t.db = db ∨ Leftover (.request cfg book (.deleteTransaction id)) db t.db)
      (.idle db) := by
  refine swp_exec_idle (fun _ => .inl rfl) fun env n v _ hx => ?_
  have hv : Leftover (.request cfg book (.deleteTransaction id)) db v := by
    obtain ⟨g, hg, hx⟩ := ok_bind (ok_of_failing hx)
    obtain rfl := congrArg Prod.snd (Except.ok.inj hx)
    refine ⟨deleteWhere_congr fun t _ => ?_, (List.filter_eq_self.mpr fun _ _ => rfl).symm⟩
    have hguid : (id.parse == .ok t.guid) = (t.guid == g) := by
      rw [hg, Bool.eq_iff_iff, beq_iff_eq, beq_iff_eq, Except.ok.injEq, eq_comm]
    rw [Event.deletesTransaction, hguid]
  split
  · exact .inr hv
  · exact .inr hv

theorem deleteAccount_leaves {cfg : PlaidConfig} {id : GuidText} :
    (deleteAccount book id).swp (machine.assuming fun _ _ _ => true) Duty.none
      (fun _ t => t.db = db ∨ Leftover (.request cfg book (.deleteAccount id)) db t.db)
      (.idle db) := by
  refine swp_ask_idle (Stmt.reads_queryE _) fun splits => ?_
  split
  · exact .inl rfl
  refine swp_ask_idle (Stmt.reads_queryE _) fun children => ?_
  split
  · exact .inl rfl
  refine swp_exec_idle (fun _ => .inl rfl) fun env n v _ hx => ?_
  have hv : Leftover (.request cfg book (.deleteAccount id)) db v := by
    obtain ⟨g, hg, rfl⟩ := deleteAccountStmt_ok (Stmt.write_self _ hx)
    refine ⟨(List.filter_eq_self.mpr fun _ _ => rfl).symm, deleteWhere_congr fun a _ => ?_⟩
    have hguid : (id.parse == .ok a.guid) = (a.guid == g) := by
      rw [hg, Bool.eq_iff_iff, beq_iff_eq, beq_iff_eq, Except.ok.injEq, eq_comm]
    rw [Event.deletesAccount, isAccount, hguid]
  split
  · exact .inr hv
  · exact .inr hv

theorem serve_left {α : Type} {p : Call α} {f : α → Response} {Q : Db → Prop}
    (h : p.swp (machine.assuming fun _ _ _ => true) Duty.none (fun _ t => Q t.db) (.idle db))
    (ha : mayServe (p.bind fun a => ret (f a)) envs db = true) :
    Q (serve (p.bind fun a => ret (f a)) envs db).2 := by
  obtain ⟨hserve, hallowed⟩ := @serve_map db envs _ p f
  rw [hserve]
  exact run_of_free h (hallowed.symm.trans ha)

/-- **What a silent operation leaves.** -/
theorem serve_silent {e : Event} (he : e.silent = true) (ha : mayServe e.call envs db = true) :
    (serve e.call envs db).2 = db ∨ Leftover e db (serve e.call envs db).2 := by
  cases e with
  | request cfg book req =>
    cases req with
    | deleteTransaction id =>
      exact serve_left (Q := fun v => v = db ∨ Leftover (.request cfg book (.deleteTransaction id)) db v)
        deleteTransaction_leaves ha
    | deleteAccount id =>
      exact serve_left (Q := fun v => v = db ∨ Leftover (.request cfg book (.deleteAccount id)) db v)
        deleteAccount_leaves ha
    | toggleAcknowledge split state =>
      refine .inr (leftover_of_issues ?_ (fun _ => rfl) (fun _ => rfl) ha)
      refine issues_answer ?_
      unfold toggleSplitAcknowledge
      split
      · trivial
      · refine issues_exec (keepsRows_toggleSplit split state) fun n => ?_
        split <;> trivial
    | batchReconcile splits =>
      refine .inr (leftover_of_issues ?_ (fun _ => rfl) (fun _ => rfl) ha)
      exact issues_answer ((batchReconcileSplits_issues splits).mono fun _ hq => hq.keepsRows)
    | reconcileAccount accounts =>
      refine .inr (leftover_of_issues ?_ (fun _ => rfl) (fun _ => rfl) ha)
      simp only [Event.call, handle]
      split
      · trivial
      · exact issues_answer ((reconcileAccountSplits_issues accounts).mono fun _ hq => hq.keepsRows)
    | _ => exact absurd he (by simp [Event.silent])
  | _ => exact absurd he (by simp [Event.silent])

end Events

/-! ## The clock -/

/-- **The change clock.** An operation that changes what is exported of a book leaves the clock of
the book at the time of the operation or later exactly if it is not one of those that only delete or
reconcile, or a row it leaves had been stamped that late. -/
theorem change_seen_iff {db : Db} (hr : Runs (fun _ _ _ => True) db) (e : Event) (envs : Nat → Env)
    (book : Guid) (T : Time) (ha : mayServe e.call envs db = true) (hT : ∀ n, T ≤ (envs n).now)
    (hc : e.Complete (serve e.call envs db).1)
    (hne : (serve e.call envs db).2.exportOf book ≠ db.exportOf book) :
    (serve e.call envs db).2.Sees book T ↔ e.silent = false ∨ db.Stamped e book T := by
  cases he : e.silent with
  | false =>
    refine iff_of_true ?_ (.inl rfl)
    rcases serve_shown hr.stocked he ha hT hc book with hsame | hsees
    · exact absurd hsame.exportOf hne
    · exact hsees
  | true =>
    rcases serve_silent he ha with hsame | hleft
    · exact absurd (congrArg (Db.exportOf · book) hsame) hne
    · rw [hleft.sees_iff]
      simp

/-- The purchase itself is seen. -/
theorem change_seen_purchased : (serve food.call (calm 100) registered).2.Sees 3 100 :=
  (change_seen_iff (registered_runs trivial) food (calm 100) 3 100 (by decide +kernel) (fun n => Int.le_add_of_nonneg_right (Int.natCast_nonneg n))
    trivial (by decide +kernel)).mpr (.inl rfl)

/-- Acknowledging a split of the purchase at 900 changes the export; the clock of the book stays at
the time of the purchase. -/
theorem change_unseen : ¬ ∀ (db : Db), Runs (fun _ _ _ => True) db → ∀ (e : Event)
    (envs : Nat → Env) (book : Guid) (T : Time), mayServe e.call envs db = true →
    (∀ n, T ≤ (envs n).now) → e.Complete (serve e.call envs db).1 →
    (serve e.call envs db).2.exportOf book ≠ db.exportOf book →
    (serve e.call envs db).2.Sees book T := by
  intro h
  let e : Event := .request plainConfig 3 (.toggleAcknowledge (Guid.text 106) "c")
  obtain ⟨t, ht, hT⟩ := h purchased (purchased_runs fun _ _ _ => trivial) e (calm 900) 3 900
    (by decide +kernel) (fun n => Int.le_add_of_nonneg_right (Int.natCast_nonneg n)) trivial
    (by decide +kernel)
  have hlast : ((serve e.call (calm 900) purchased).2.lastDataChange 3).all
      (fun t => decide (t < 900)) = true := by decide +kernel
  rw [ht] at hlast
  exact absurd hT (not_le.mpr (of_decide_eq_true hlast))

end Antimoney
