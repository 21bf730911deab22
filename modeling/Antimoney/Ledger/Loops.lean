import Antimoney.Ledger.Import

/-!
# The loops that post

CSV rows and bank rows are posted one by one, each by its own `CreateTransaction`. What every one of
these keeps, the loop keeps, whichever rows fail: `csvLoop_atRest`, `importLoop_atRest`.
-/

namespace Antimoney

open Antimoney.Lib Antimoney.Gnc Prog

section Loops

variable {A : ∀ {β : Type}, Stmt β → Env → Db → Bool} {I : Db → Prop} {s : Db} {book : Guid}

/-- **The loop over CSV rows.** -/
theorem csvLoop_atRest {account : GuidText} (rs : List CsvRow)
    (hc : ∀ r ∈ rs, ∀ v, I v → (createTransaction book (r.request account)).swp (machine.assuming A)
      Duty.none (fun _ t => AtRest I t) (.idle v)) (h : I s) :
    (csvLoop book account rs).swp (machine.assuming A) Duty.none (fun _ t => AtRest I t)
      (.idle s) := by
  induction rs generalizing s with
  | nil => exact ⟨s, rfl, h⟩
  | cons r rs ih =>
    have ih' := fun {v} => ih (s := v) fun r' hr' => hc r' (.tail _ hr')
    refine swp_bind (swp_attempt (swp_mono (fun o t ht => ?_) (hc r List.mem_cons_self s h)))
    obtain ⟨v, rfl, hv⟩ := ht
    dsimp only [Prog.ofExcept, ret_bind]
    split
    · exact ⟨v, rfl, hv⟩
    · exact ih' hv
    · refine swp_bind (swp_mono (fun o t ht => ?_) (ih' hv))
      cases o <;> exact ht

theorem deleteStaged_atRest {id : String}
    (hd : ∀ env v v', I v → (deleteStagedStmt book id).sem env v = .ok ((), v') → I v') (h : I s) :
    (deleteStaged book id).swp (machine.assuming A) Duty.none (fun _ t => AtRest I t)
      (.idle s) := by
  refine swp_ask rfl (fun _ _ => trivial) (fun _ _ _ _ => ⟨s, rfl, h⟩) fun env b v _ hx => ?_
  exact ⟨v, rfl, hd env s v h hx⟩

theorem replacesImported_swp (row : ImportRow) (st : Staged) :
    (replacesImported book row st).swp (machine.assuming A) Duty.none (fun _ t => t = .idle s)
      (.idle s) := by
  unfold replacesImported
  split
  · rfl
  · refine swp_read_idle (Stmt.reads_query _) (fun _ => rfl) fun _ imported _ => ?_
    split
    · exact swp_read_last (Stmt.reads_queryE _) (fun _ => rfl) fun _ => rfl
    · rfl

variable (hcents : ∀ v, I v → v.Cents)
  (hd : ∀ id v, I v → (deleteStaged book id).swp (machine.assuming A) Duty.none
    (fun _ t => AtRest I t) (.idle v))
  (hc : ∀ row bank st, st.amountDenom = 100 → ∀ v, I v →
    (createTransaction book (importRequest row bank st)).swp (machine.assuming A) Duty.none
      (fun _ t => AtRest I t) (.idle v))

include hd hc

theorem createImported_atRest {row : ImportRow} {bank : Guid} {st : Staged}
    (hst : st.amountDenom = 100) (h : I s) :
    (createImported book row bank st).swp (machine.assuming A) Duty.none (fun _ t => AtRest I t)
      (.idle s) := by
  have hdelete : ∀ {v} (o : RowOutcome), I v →
      ((deleteStaged book row.transactionId).bind fun _ => ret o).swp (machine.assuming A) Duty.none
        (fun _ t => AtRest I t) (.idle v) := by
    intro v o hv
    refine swp_bind (swp_mono (fun r t ht => ?_) (hd row.transactionId v hv))
    cases r <;> exact ht
  refine swp_bind (swp_attempt (swp_mono (fun o t ht => ?_) (hc row bank st hst s h)))
  obtain ⟨v, rfl, hv⟩ := ht
  dsimp only [Prog.ofExcept, ret_bind]
  split
  · exact ⟨v, rfl, hv⟩
  · split
    · exact hdelete _ hv
    · exact ⟨v, rfl, hv⟩
  · exact hdelete _ hv

theorem importStaged_atRest {row : ImportRow} {st : Staged} (hst : st.amountDenom = 100) (h : I s) :
    (importStaged book row st).swp (machine.assuming A) Duty.none (fun _ t => AtRest I t)
      (.idle s) := by
  have hs : AtRest I (.idle s) := ⟨s, rfl, h⟩
  refine swp_ask_idle (Stmt.reads_query _) fun r => ?_
  rcases r with e | _ | bank
  · exact hs
  · exact hs
  · refine swp_read_idle (Stmt.reads_query _) (fun _ => hs) fun _ posted _ => ?_
    split
    · exact hs
    · refine swp_bind (swp_mono (fun r t ht => ?_) (replacesImported_swp row st))
      obtain rfl := ht
      cases r with
      | error e => exact hs
      | ok replaces =>
        dsimp only [Prog.ofExcept, ret_bind]
        split
        · refine swp_bind (swp_mono (fun r t ht => ?_) (hd row.transactionId s h))
          cases r <;> exact ht
        · exact createImported_atRest hd hc hst h

include hcents

theorem importRow_atRest (row : ImportRow) (h : I s) :
    (importRow book row).swp (machine.assuming A) Duty.none (fun _ t => AtRest I t) (.idle s) := by
  have hs : AtRest I (.idle s) := ⟨s, rfl, h⟩
  unfold importRow
  split
  · exact hs
  · refine swp_read_idle ((Stmt.reads_query _).tagged _) (fun _ => hs) fun env r hx => ?_
    cases r with
    | none =>
      refine swp_read_idle (Stmt.reads_query _) (fun _ => hs) fun _ posted _ => ?_
      split <;> exact hs
    | some st =>
      have hst : s.stagedRow book row.transactionId = some st :=
        (Prod.mk.inj (Except.ok.inj (ok_of_failing hx))).1
      exact importStaged_atRest hd hc (hcents s h st (List.mem_of_find?_eq_some hst)) h

/-- **The loop over bank rows.** Staged amounts are in cents. -/
theorem importLoop_atRest (result : ImportResult) (rows : List ImportRow) (h : I s) :
    (importLoop book result rows).swp (machine.assuming A) Duty.none (fun _ t => AtRest I t)
      (.idle s) := by
  induction rows generalizing result s with
  | nil => exact ⟨s, rfl, h⟩
  | cons row rows ih =>
    refine swp_bind (swp_attempt (swp_mono (fun o t ht => ?_)
      (importRow_atRest hcents hd hc row h)))
    obtain ⟨v, rfl, hv⟩ := ht
    dsimp only [Prog.ofExcept, ret_bind]
    split
    · exact ⟨v, rfl, hv⟩
    · exact ⟨v, rfl, hv⟩
    · exact ih _ hv

end Loops

end Antimoney
