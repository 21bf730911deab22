import Antimoney.Founding.Registration
import Antimoney.Readers
import Antimoney.Tenants.Rows

/-!
# Requests that see to one book

* `TendsItem`: what the statements of a fetch do while the book has the item.
* `handle_tends`: the requests that post nothing.
* **`handle_confined`**: every request leaves the rows of the other books as they are.
-/

namespace Antimoney

open Antimoney.Lib Antimoney.Gnc Prog

section Classes

variable {book : Guid} {item : GuidText} {β : Type} {q : Stmt β}

theorem Readonly.tends (h : Readonly q) : Tends book q := Stmt.Reads.tends h

theorem Linking.tends (h : Linking book item q) : Tends book q := by
  cases h with
  | read h => exact h.reads.tends
  | updateLink a l => exact tends_updateLink a l
  | updateImportPending p => exact tends_updateImportPending item p

theorem Removing.tends (h : Removing book q) : Tends book q := by
  cases h with
  | read h => exact h.reads.tends
  | reseal i c n v => exact tends_reseal i c n v
  | archiveItem i v => exact tends_archiveItem i v
  | clearLinks i => exact tends_clearLinks i
  | deleteItem i v => exact tends_deleteItem i v

theorem Snapshotting.tends (h : Snapshotting book q) : Tends book q := by
  cases h with
  | countRecent t => exact (reads_countRecent book t).tends
  | rotateActive => exact tends_rotateActive
  | «export» h => exact h.reads.tends
  | insertSnapshot l t d => exact tends_insertSnapshot l t d

/-! ## A fetch -/

/-- The book has the item, if its identifier is one. -/
def Db.HasItem (db : Db) (book : Guid) (item : GuidText) : Prop :=
  ∀ g, item.parse = .ok g → db.Has book g

/-- The statement sees to the book while that has the item, and leaves it the item. -/
def TendsItem (book : Guid) (item : GuidText) {β : Type} (q : Stmt β) : Prop :=
  ∀ ⦃env : Env⦄ ⦃v v' : Db⦄ ⦃b : β⦄, v.HasItem book item → machine.allowed q env v = true →
    v.Keyed → v.Owned → q.sem env v = .ok (b, v') →
    v'.HasItem book item ∧ v'.Owned ∧ ∀ o, o ≠ book → SameRows o v v'

theorem tendsItem_of (h : Tends book q) (hs : Syncing book q) : TendsItem book item q := by
  intro env v v' b hitem ha hk hown hx
  refine ⟨fun g hg => ?_, h ha hk hown hx⟩
  rcases (hs.rebound (q.write_self hx)).items book g (hitem g hg) with hgone | hhas
  · exact hgone.elim
  · exact hhas

theorem Reading.tendsItem (h : Reading book q) : TendsItem book item q :=
  tendsItem_of h.reads.tends (.fetch (.read h))

/-- A row staged for the item is one of the book. -/
theorem tendsItem_upsertStaged {t : PlaidTxn} {d : Bool} (h : t.amountDenom = 100) :
    TendsItem book item (upsertStaged book item t d) := by
  intro env v v' b hitem ha hk hown hx
  have hw := (upsertStaged book item t d).write_self hx
  refine ⟨fun g hg => ?_, upsertStaged_tends hown (fun g hg p hp hpg => ?_) hw⟩
  · rcases (Syncing.rebound (.fetch (.upsertStaged item t d h)) hw).items book g (hitem g hg)
      with hgone | hhas
    · exact hgone.elim
    · exact hhas
  · obtain ⟨q, hq, hqg, hqb⟩ := hitem g hg
    have hsame : p = q := List.inj_on_of_nodup_map hown.items hp hq (hpg.trans hqg.symm)
    rw [hsame, hqb]

theorem tendsItem_dropReplaced (is : List String) : TendsItem book item (dropReplaced book is) :=
  tendsItem_of (tends_dropReplaced is) (.fetch (.dropReplaced is))

theorem tendsItem_dropUndismissed (is : List String) :
    TendsItem book item (dropUndismissed book is) :=
  tendsItem_of (tends_dropUndismissed is) (.fetch (.dropUndismissed is))

theorem correlatePending_tends (txn : PlaidTxn) :
    (correlatePending book txn).Issues (TendsItem book item) := by
  unfold correlatePending
  split
  · trivial
  · refine issues_bind ?_ fun same => ?_
    · refine issues_exec (reading_transactionExists _).tendsItem fun imported => ?_
      split
      · exact issues_sql (Reading.tendsItem ⟨.importedValueMatches _ _ _ _, Stmt.reads_queryE _⟩)
      · trivial
    split
    · exact issues_exec (tendsItem_dropReplaced _) fun _ => trivial
    · exact issues_exec (Reading.tendsItem ⟨.selectDismissed _, Stmt.reads_query _⟩)
        fun _ => trivial

theorem upsertPass_tends (txns : List PlaidTxn) (h : ∀ t ∈ txns, t.amountDenom = 100) :
    (upsertPass book item txns).Issues (TendsItem book item) := by
  induction txns with
  | nil => trivial
  | cons t ts ih =>
    have ih' := ih fun t' ht => h t' (.tail _ ht)
    unfold upsertPass
    split
    · exact ih'
    · refine issues_bind (issues_bind (correlatePending_tends t) fun d => ?_) fun _ => ih'
      cases d with
      | none => trivial
      | some d => exact issues_sql (tendsItem_upsertStaged (h t List.mem_cons_self))

theorem checkDivergence_tends (ids : List String) :
    (checkDivergence book ids).Issues (TendsItem book item) := by
  induction ids with
  | nil => trivial
  | cons i is ih => exact issues_exec (reading_transactionExists _).tendsItem fun _ => ih

theorem zeroPass_tends (txns : List PlaidTxn) :
    (zeroPass book txns).Issues (TendsItem book item) := by
  induction txns with
  | nil => trivial
  | cons t ts ih =>
    unfold zeroPass
    split
    · refine issues_exec (tendsItem_dropUndismissed _) fun _ => ?_
      exact issues_bind (checkDivergence_tends _) fun _ => ih
    · exact ih

theorem stageDelta_tends (page : ApiPage) :
    (stageDelta book item page.delta).Issues (TendsItem book item) := by
  refine issues_bind (upsertPass_tends _ fun t ht => ?_) fun _ => ?_
  · rcases List.mem_append.mp ht with h | h
    · exact convertTxns_denom h
    · exact convertTxns_denom h
  refine issues_bind (zeroPass_tends _) fun _ => ?_
  unfold removePass
  split
  · trivial
  · refine issues_exec (Reading.tendsItem ⟨.selectRemovedImported _, Stmt.reads_query _⟩)
      fun _ => ?_
    exact issues_sql (tendsItem_dropUndismissed _)

theorem fetchPages_tends (n : Nat) (cursor : Cursor) (more : Bool) :
    (fetchPages book item n cursor more).Issues (TendsItem book item) := by
  induction n generalizing cursor more with
  | zero => trivial
  | succ n ih =>
    refine issues_exec (reading_syncTransactions _).tendsItem fun r => ?_
    rcases r with e | page
    · cases e <;> trivial
    · refine issues_bind (stageDelta_tends page) fun _ => ?_
      split
      · exact ih _ _
      · trivial

theorem lockedFetch_tends (cursor : Cursor) :
    (lockedFetch book item cursor).Issues (TendsItem book item) := by
  refine issues_exec (Reading.tendsItem ⟨.noop, Stmt.reads_query _⟩) fun _ => ?_
  refine issues_exec (tendsItem_of (tends_tryAdvisoryLock _) (.fetch (.lock _))) fun got => ?_
  split
  · refine issues_bind (issues_attempt (issues_bind (fetchPages_tends _ _ _) fun r => ?_))
      fun r => ?_
    · refine issues_exec (reading_askEnv _).tendsItem fun now => ?_
      refine issues_exec (tendsItem_of (tends_writeCursor _ _ _) (.fetch (.writeCursor _ _ _)))
        fun _ => ?_
      refine issues_exec (tendsItem_of (tends_writeLastSynced _ _) (.fetch (.writeLastSynced _ _)))
        fun _ => trivial
    · refine issues_reply (tendsItem_of (tends_advisoryUnlock _) (.fetch (.unlock _))) fun _ => ?_
      exact issues_bind (issues_ofExcept r) fun _ => trivial
  · trivial

end Classes

/-! ## Calls -/

/-- From `s` on, only the book has changed. -/
structure Confined (book : Guid) (s v : Db) : Prop where
  stocked : v.Stocked
  owned : v.Owned
  others : ∀ o, o ≠ book → SameRows o s v

/-- The database, whatever it is supplied. -/
abbrev free : Machine Stmt SqlErr Env Lock Db := machine.assuming fun _ _ _ => true

section Calls

variable {α γ : Type} {book : Guid} {s v : Db} {p : Call α}

theorem Confined.refl (hs : s.Stocked) (ho : s.Owned) : Confined book s s :=
  ⟨hs, ho, fun o _ => .refl o s⟩

/-- A call of statements that see to the book. -/
theorem holds_of_tends (hp : p.Issues (Issued book)) (ht : p.Issues (Tends book))
    (h : Confined book s v) :
    p.swp free Duty.none (fun _ t => t.Holds (Confined book s)) (.idle v) := by
  refine swp_assuming (swp_of_issues (issues_and hp ht) (fun q env x x' b hq hx ha he => ?_)
    (Solo.holds_idle h))
  obtain ⟨hown, hothers⟩ := hq.2 ha hx.stocked.keyed hx.owned he
  exact ⟨hq.1.stocked hx.stocked he, hown, fun o ho => (hx.others o ho).trans (hothers o ho)⟩

theorem confined_of_tends (hp : p.Issues (Issued book)) (ht : p.Issues (Tends book))
    (h : Confined book s v) : p.swp free Duty.none (fun _ t => Confined book s t.db) (.idle v) :=
  swp_mono (fun _ _ ht => ht.1) (holds_of_tends hp ht h)

/-- Such a call that is a body ends outside a transaction. -/
theorem atRest_of_tends (hp : p.Issues (Issued book)) (ht : p.Issues (Tends book)) (hb : p.Body)
    (h : Confined book s v) :
    p.swp free Duty.none (fun _ t => AtRest (Confined book s) t) (.idle v) := by
  have hbody : p.swp free Duty.none (fun _ t => t.work = none) (.idle v) :=
    swp_assuming (swp_body hb rfl)
  refine swp_mono (fun r t h => ?_) (swp_and (holds_of_tends hp ht h) hbody)
  obtain ⟨⟨hv, -⟩, hw⟩ := h
  obtain ⟨w, work⟩ := t
  obtain rfl : work = none := hw
  exact ⟨w, rfl, hv⟩

/-- A part, then the rest. -/
theorem confined_bind {p : Call γ} {k : γ → Call α} (h : Confined book s v)
    (hp : ∀ {v : Db}, Confined book s v →
      p.swp free Duty.none (fun _ t => AtRest (Confined book s) t) (.idle v))
    (hk : ∀ b {v : Db}, Confined book s v →
      (k b).swp free Duty.none (fun _ t => Confined book s t.db) (.idle v)) :
    (p.bind k).swp free Duty.none (fun _ t => Confined book s t.db) (.idle v) := by
  refine swp_bind (swp_mono (fun r t ht => ?_) (hp h))
  obtain ⟨w, rfl, hw⟩ := ht
  cases r with
  | error _ => exact hw
  | ok b => exact hk b hw

/-- **A sync** stages rows for an item of the book. -/
theorem sync_confined (cfg : PlaidConfig) (item : GuidText) (h : Confined book s v) :
    (sync cfg book item).swp free Duty.none (fun _ t => Confined book s t.db) (.idle v) := by
  refine swp_read_idle (Stmt.reads_queryE _) (fun _ => h) fun env r hx => ?_
  cases r with
  | none => exact h
  | some found =>
    have hitem : v.HasItem book item := by
      intro g hg
      obtain ⟨hx, -⟩ := Stmt.queryE_ok hx
      obtain ⟨g', hg', hx⟩ := ok_bind hx
      obtain rfl := Except.ok.inj (hg.symm.trans hg')
      have hfound := Except.ok.inj hx
      have hat := List.find?_some hfound
      simp only [Bool.and_eq_true, beq_iff_eq] at hat
      exact ⟨found, List.mem_of_find?_eq_some hfound, hat.1, hat.2⟩
    have hread : ∀ {δ : Type} (q : Stmt δ), Reading book q →
        Issued book q ∧ TendsItem book item q :=
      fun q hq => ⟨.inl hq.named.quiet, hq.tendsItem⟩
    refine swp_assuming (swp_mono (fun r t ht => ht.1.1) (swp_of_issues
      (I := fun w => Confined book s w ∧ w.HasItem book item)
      (P := fun q => Issued book q ∧ TendsItem book item q) ?_ (fun q env x x' b hq hx ha he => ?_)
      (Solo.holds_idle ⟨h, hitem⟩)))
    · refine issues_bind (loadAndDecryptToken_issues _ _ _ _ _ _ (hread _ (reading_askEnv _))
        fun c n => ⟨?_, ?_⟩) fun r => ?_
      · exact .inl (Syncing.steady (.reseal _ c n _)).quiet
      · exact tendsItem_of (tends_reseal _ c n _) (.reseal _ c n _)
      rcases r with (_ | _) | token
      · trivial
      · trivial
      · refine issues_bind (issues_and ((lockedFetch_issues _ _).mono fun _ hq => ?_)
          (lockedFetch_tends _)) fun fetched => ?_
        · exact .inl hq.steady.quiet
        · exact issues_bind ((listSuggestions_issues _ _ _).mono hread) fun _ => trivial
    · obtain ⟨⟨hs, hown, hothers⟩, hitem⟩ := hx
      obtain ⟨hitem', hown', hothers'⟩ := hq.2 hitem ha hs.keyed hown he
      exact ⟨⟨hq.1.stocked hs he, hown', fun o ho => (hothers o ho).trans (hothers' o ho)⟩, hitem'⟩

/-! ### Postings -/

section Rows

variable {o root : Guid} {x y : Db} {as : List Account} {ts : List Transaction} {rs : List Split}

/-- Rows of the book come, with splits of its new transactions. -/
theorem sameRows_append (has : ∀ a ∈ as, a.bookGuid = book) (hts : ∀ t ∈ ts, t.bookGuid = book)
    (hrs : ∀ r ∈ rs, ∃ t ∈ ts, r.txGuid = t.guid)
    (hnew : ∀ t ∈ ts, x.hasTransaction t.guid = false) (ho : o ≠ book) :
    SameRows o x (x.append as ts rs) := by
  refine ⟨rfl, other_append has ho, other_append hts ho, fun t ht hto => ?_, rfl, rfl, rfl, rfl⟩
  have hnone : rs.filter (·.txGuid == t.guid) = [] := by
    refine List.filter_eq_nil_iff.mpr fun r hr he => ?_
    obtain ⟨t', ht', hrt⟩ := hrs r hr
    refine List.any_eq_false.mp (hnew t' ht') t ht ?_
    exact beq_iff_eq.mpr ((beq_iff_eq.mp he).symm.trans hrt)
  exact (List.filter_append ..).trans (hnone ▸ List.append_nil _)

/-- A transaction of the book is updated, with other splits. -/
theorem sameRows_updates {guid : Guid} {rows : List Split} (hk : x.Keyed)
    (hfound : x.transactions.any (isTransaction guid book) = true)
    (hu : Updates book guid x.splits rows x y) (hrows : ∀ r ∈ rows, r.txGuid = guid)
    (ho : o ≠ book) : SameRows o x y := by
  obtain ⟨f, hf, rfl⟩ := hu.self
  obtain ⟨t₀, ht₀, hc₀⟩ := List.any_eq_true.mp hfound
  simp only [isTransaction, Bool.and_eq_true, beq_iff_eq] at hc₀
  refine ⟨rfl, rfl, ?_, fun t ht hto => ?_, rfl, rfl, rfl, rfl⟩
  · refine other_update (fun t _ hc => ?_) (fun t => (hf t).2.1) ho
    simp only [isTransaction, Bool.and_eq_true, beq_iff_eq] at hc
    exact hc.2
  · have hne : t₀.guid ≠ t.guid := hk.guid_ne ho ht ht₀ hto hc₀.2
    have hnone : rows.filter (·.txGuid == t.guid) = [] :=
      List.filter_eq_nil_iff.mpr fun r hr he => hne (hc₀.1.trans ((hrows r hr).symm.trans
        (beq_iff_eq.mp he)))
    have hkept : (deleteWhere (·.txGuid == guid) x.splits).filter (·.txGuid == t.guid) =
        x.splits.filter (·.txGuid == t.guid) := by
      refine filter_deleteWhere fun r _ hr => ?_
      rw [beq_iff_eq.mp hr, ← hc₀.1]
      exact beq_eq_false_iff_ne.mpr hne
    exact (List.filter_append ..).trans (by rw [hnone, List.append_nil, hkept])

/-- The book is cleared. -/
theorem sameRows_clearBook (hk : x.Keyed) (ho : o ≠ book) : SameRows o x (x.clearBook book) := by
  have htxns : SameRows o x (x.deleteTransactions (·.bookGuid == book)).2 :=
    sameRows_deleteTransactions hk ho fun t _ ht => beq_iff_eq.mp ht
  have haccounts : (deleteWhere (·.bookGuid == book) x.accounts).filter (·.bookGuid == o) =
      x.accounts.filter (·.bookGuid == o) := other_delete (fun a _ ha => beq_iff_eq.mp ha) ho
  refine (htxns.trans (sameRows_accounts haccounts)).trans ?_
  refine @sameRows_books o { x.clearBook book with books := x.books } _ ?_
  refine other_update (fun b _ hb => beq_iff_eq.mp hb) ?_ ho
  exact fun _ => rfl

/-- Rows replace those of the book. -/
theorem Replaced.sameRows {accounts : List ImportAccount} {txns : List ImportTransaction}
    (h : Replaced x book accounts txns as ts rs) (hk : x.Keyed)
    (hnew : ∀ t ∈ ts, x.unused t.guid = true) (ho : o ≠ book) :
    SameRows o x ((x.clearBook book).refill book root as ts rs) := by
  have hfill : SameRows o (x.clearBook book) ((x.clearBook book).append as ts rs) := by
    refine sameRows_append (fun a ha => ?_) (fun t ht => ?_) (fun sp hsp => ?_) (fun t ht => ?_) ho
    · obtain ⟨_, -, hrow, -⟩ := exists_of_forall₂ h.accounts ha
      exact hrow.bookGuid
    · obtain ⟨_, -, hrow⟩ := exists_of_forall₂ h.transactions ht
      exact hrow.bookGuid
    · obtain ⟨p, hp, hrow⟩ := exists_of_forall₂ h.splits hsp
      obtain ⟨t', ht', hp⟩ := List.mem_flatMap.mp hp
      obtain ⟨_, -, rfl⟩ := List.mem_map.mp hp
      obtain ⟨r, hr, htr⟩ := exists_of_forall₂ h.transactions.flip ht'
      exact ⟨r, hr, hrow.txGuid.trans htr.guid.symm⟩
    · refine List.any_eq_false.mpr fun t' ht' he => ?_
      exact Db.unused_transaction (hnew t ht) t' (mem_deleteWhere.mp ht').1 (beq_iff_eq.mp he)
  refine ((sameRows_clearBook hk ho).trans hfill).trans (sameRows_books ?_)
  refine other_update (fun b _ hb => beq_iff_eq.mp hb) ?_ ho
  exact fun _ => rfl

end Rows

/-- The statements of the call keep the keys. -/
theorem stocked_of_issued (hp : p.Issues (Issued book)) (h : v.Stocked) :
    p.swp free Duty.none (fun _ t => t.db.Stocked) (.idle v) :=
  swp_assuming (swp_mono (fun _ _ ht => ht.1) (swp_of_issues hp
    (fun _ _ _ _ _ hq hx _ he => hq.stocked hx he) (Solo.holds_idle h)))

/-- **A transaction is created.** -/
theorem createTransaction_confined (req : CreateTransactionRequest) (h : Confined book s v) :
    (createTransaction book req).swp free Duty.none (fun _ t => AtRest (Confined book s) t)
      (.idle v) := by
  have hwrite : (createTransaction book req).swp free Duty.none
      (fun _ t => ∃ w, t = .idle w ∧ w.Owned ∧ ∀ o, o ≠ book → SameRows o v w) (.idle v) := by
    refine swp_assuming (createTransaction_alone
      (fun _ => ⟨v, rfl, h.owned, fun o _ => .refl o v⟩) ?_)
    intro as t rows w hc ha _ _
    obtain ⟨rfl, hfresh, -⟩ := ha
    obtain ⟨valid, sum, splits, -, -, -, -, hrows⟩ := hc.rows
    refine ⟨_, rfl, h.owned.of_eq rfl rfl rfl, fun o ho => sameRows_append (fun a ha => ?_)
      (fun t' ht => ?_) (fun r hr => ?_) (fun t' ht => (hfresh t' ht).1) ho⟩
    · rcases hc.accounts with rfl | ⟨a', rfl, -, hb, -⟩
      · exact absurd ha (by simp)
      · exact List.mem_singleton.mp ha ▸ hb
    · exact List.mem_singleton.mp ht ▸ hc.inBook
    · obtain ⟨sp, -, hr⟩ := exists_of_forall₂ hrows hr
      exact ⟨t, List.mem_singleton_self t, hr.tx⟩
  refine swp_mono (fun r t ht => ?_)
    (swp_and (stocked_of_issued (createTransaction_issues req) h.stocked) hwrite)
  obtain ⟨hs, w, rfl, hown, hothers⟩ := ht
  exact ⟨w, rfl, hs, hown, fun o ho => (h.others o ho).trans (hothers o ho)⟩

/-- **A transaction is updated.** -/
theorem updateTransaction_confined (tx : GuidText) (req : UpdateTransactionRequest)
    (h : Confined book s v) :
    (updateTransaction book tx req).swp free Duty.none (fun _ t => Confined book s t.db)
      (.idle v) := by
  have hwrite : (updateTransaction book tx req).swp free Duty.none
      (fun _ t => t.db.Owned ∧ ∀ o, o ≠ book → SameRows o v t.db) (.idle v) := by
    refine swp_assuming (updateTransaction_alone (fun _ => ⟨h.owned, fun o _ => .refl o v⟩) ?_)
    intro guid version rows w hfound hc hu _
    obtain ⟨splits, sum, -, -, -, -, hrows⟩ := hc.rows
    have hown : w.Owned := by
      obtain ⟨f, -, rfl⟩ := hu.self
      exact h.owned.of_eq rfl rfl rfl
    refine ⟨hown, fun o ho => sameRows_updates h.stocked.keyed hfound hu (fun r hr => ?_) ho⟩
    obtain ⟨sp, -, hr⟩ := exists_of_forall₂ hrows hr
    exact hr.tx
  refine swp_mono (fun r t ht => ?_)
    (swp_and (stocked_of_issued (updateTransaction_issues tx req) h.stocked) hwrite)
  obtain ⟨hs, hown, hothers⟩ := ht
  exact ⟨hs, hown, fun o ho => (h.others o ho).trans (hothers o ho)⟩

theorem deleteStaged_confined (id : String) (h : Confined book s v) :
    (deleteStaged book id).swp free Duty.none (fun _ t => AtRest (Confined book s) t) (.idle v) :=
  deleteStaged_atRest (fun env v v' hv hx => by
    obtain ⟨hown, hothers⟩ := tends_deleteStaged id rfl hv.stocked.keyed hv.owned hx
    exact ⟨Issued.stocked (.inl (ByBook.quiet (.deleteStaged id))) hv.stocked hx, hown,
      fun o ho => (hv.others o ho).trans (hothers o ho)⟩) h

theorem csvLoop_confined (account : GuidText) (rs : List CsvRow) (h : Confined book s v) :
    (csvLoop book account rs).swp free Duty.none (fun _ t => Confined book s t.db) (.idle v) :=
  swp_mono (fun _ _ ht => ht.db)
    (csvLoop_atRest rs (fun _ _ _ hv => createTransaction_confined _ hv) h)

theorem importRows_confined (rows : List ImportRow) (h : Confined book s v) :
    (importRows book rows).swp free Duty.none (fun _ t => Confined book s t.db) (.idle v) :=
  swp_mono (fun _ _ ht => ht.db) (importLoop_atRest (fun _ hv => hv.stocked.cents)
    (fun id _ hv => deleteStaged_confined id hv)
    (fun _ _ _ _ _ hv => createTransaction_confined _ hv) _ rows h)

/-- **An import** replaces the rows of its book. -/
theorem performImport_confined (file : ExportData) (h : Confined book s v) :
    (performImport book file).swp free Duty.none (fun _ t => Confined book s t.db) (.idle v) := by
  have hwrite : (performImport book file).swp free Duty.none
      (fun _ t => t.db.Owned ∧ ∀ o, o ≠ book → SameRows o v t.db) (.idle v) := by
    have hsame : v.Owned ∧ ∀ o, o ≠ book → SameRows o v v := ⟨h.owned, fun o _ => .refl o v⟩
    refine performImport_swp (F := fun g => v.unused g = true) (fun env ha => ?_) (fun _ => hsame)
      fun root renamed txns hr => ?_
    · have ha' : (v.unused env.guid && true) = true := ha
      exact ((Bool.and_eq_true _ _).mp ha').1
    · obtain ⟨g, hg⟩ := hr.root_exists
      refine swp_mono (fun r t ht => ?_) (replaceBook_swp hg)
      rcases ht with ⟨e, -, rfl⟩ | ⟨as, ts, ss, -, rfl, hrep⟩
      · exact hsame
      refine ⟨h.owned.of_eq rfl rfl rfl, fun o ho => hrep.sameRows h.stocked.keyed
        (fun t ht => ?_) ho⟩
      obtain ⟨t', ht', hrow⟩ := exists_of_forall₂ hrep.transactions ht
      obtain ⟨t₀, -, hren⟩ := exists_of_forall₂ hr.transactions ht'
      exact hrow.guid ▸ hren.new
  refine swp_mono (fun r t ht => ?_) (swp_and (stocked_of_issued
    ((performImport_issues file).mono fun _ hq => hq.issued) h.stocked) hwrite)
  obtain ⟨hs, hown, hothers⟩ := ht
  exact ⟨hs, hown, fun o ho => (h.others o ho).trans (hothers o ho)⟩

theorem backup_confined (label : String) (file : ExportData) (h : Confined book s v) :
    ((autoBackup book label).bind fun _ => performImport book file).swp free Duty.none
      (fun _ t => Confined book s t.db) (.idle v) :=
  confined_bind h (fun hv => atRest_of_tends ((autoBackup_issues label).mono fun _ hq => hq.issued)
    ((autoBackup_issues label).mono fun _ hq => hq.tends) (autoBackup_body label) hv)
    fun _ _ hv => performImport_confined file hv

theorem handleRestore_confined (id : GuidText) (h : Confined book s v) :
    (handleRestore book id).swp free Duty.none (fun _ t => Confined book s t.db) (.idle v) := by
  refine confined_bind h (fun hv => ?_) fun snap _ hv => backup_confined _ snap.data hv
  refine atRest_of_tends ((getSnapshot_issues id).mono fun _ hq => .inl hq.quiet)
    ((getSnapshot_reads id).mono fun _ hq => hq.tends) ?_ hv
  refine body_sql fun r => ?_
  cases r <;> trivial

theorem seedUserBook_tends : (seedUserBook book).Issues (Tends book) :=
  seeding_issues tends_insertSeedAccount tends_setBookRoot

theorem handleFactoryReset_tends : (handleFactoryReset book).Issues (Tends book) := by
  refine issues_bind (issues_inTx ?_) fun _ => seedUserBook_tends
  refine issues_exec (tends_setBookRoot _) fun _ => ?_
  refine issues_exec tends_deleteBookSplits fun _ => ?_
  refine issues_exec tends_deleteBookTransactions fun _ => ?_
  exact issues_exec tends_deleteBookAccounts fun _ => issues_commit

end Calls

/-! ## Requests -/

section Requests

variable {book : Guid} {s : Db} {envs : Nat → Env}

/-- The requests that write, and each statement of which sees to the book. -/
def Request.plain : Request → Bool
  | .createAccount _ | .updateAccount _ _ | .deleteAccount _ | .reconcileAccount _
  | .deleteTransaction _ | .batchReconcile _ | .toggleAcknowledge _ _ | .factoryReset
  | .putConfig _ _ _ | .createSnapshot _ | .deleteSnapshot _ | .plaidExchange
  | .plaidLink _ _ _ | .plaidDismiss _ | .plaidDisconnect _ => true
  | _ => false

theorem handle_tends (cfg : PlaidConfig) (req : Request)
    (h : req.readonly = true ∨ req.plain = true) : (handle cfg book req).Issues (Tends book) := by
  rcases h with h | h
  · exact (handle_reads cfg req h).mono fun _ hq => hq.tends
  have hask : ∀ {β : Type} (f : Env → β), Tends book (Stmt.askEnv f) := fun f =>
    (Stmt.reads_askEnv f).tends
  cases req with
  | createAccount req =>
    refine issues_answer (issues_exec reads_uuidNew.tends fun guid => ?_)
    refine issues_exec (hask _) fun now => ?_
    exact issues_exec (tends_createAccount rfl) fun _ => trivial
  | updateAccount id req =>
    refine issues_answer (issues_exec (hask _) fun now => ?_)
    refine issues_exec (tends_updateAccount _ _ _) fun n => ?_
    split
    · refine issues_reply (Stmt.reads_queryE _).tends fun r => ?_
      split <;> trivial
    · refine issues_exec (Stmt.reads_queryE _).tends fun r => ?_
      cases r <;> trivial
  | deleteAccount id =>
    refine issues_answer (issues_reply (Stmt.reads_queryE _).tends fun splits => ?_)
    split
    · trivial
    · refine issues_reply (Stmt.reads_queryE _).tends fun children => ?_
      split
      · trivial
      · refine issues_exec (tends_deleteAccount _) fun n => ?_
        split <;> trivial
  | reconcileAccount accounts =>
    simp only [handle]
    split
    · trivial
    · exact issues_answer ((reconcileAccountSplits_issues accounts).mono fun _ hq => hq.tends)
  | deleteTransaction id =>
    refine issues_answer (issues_exec (tends_deleteTransaction id) fun n => ?_)
    split <;> trivial
  | batchReconcile splits =>
    exact issues_answer ((batchReconcileSplits_issues splits).mono fun _ hq => hq.tends)
  | toggleAcknowledge split state =>
    refine issues_answer ?_
    unfold toggleSplitAcknowledge
    split
    · trivial
    · refine issues_exec (tends_toggleSplit split state) fun n => ?_
      split <;> trivial
  | factoryReset => exact issues_answer handleFactoryReset_tends
  | putConfig f t a =>
    simp only [handle]
    split
    · trivial
    · exact issues_answer (issues_sql (tends_upsertConfig f t a))
  | createSnapshot label =>
    exact issues_answer ((takeSnapshotForBook_issues _ _).mono fun _ hq => hq.tends)
  | deleteSnapshot i =>
    refine issues_answer (issues_exec (tends_deleteSnapshot i) fun n => ?_)
    split <;> trivial
  | plaidExchange =>
    refine issues_answer (issues_exec (hask _) fun r => ?_)
    rcases r with e | ⟨token, itemId, name⟩
    · trivial
    · refine issues_exec (hask _) fun nonce => ?_
      refine issues_exec reads_uuidNew.tends fun itemGuid => ?_
      refine issues_exec (hask _) fun now => ?_
      refine issues_exec (tends_upsertItem _ rfl) fun guid => ?_
      refine issues_exec (hask _) fun r => ?_
      cases r <;> trivial
  | plaidLink i ms p =>
    simp only [handle]
    split
    · trivial
    · split
      · trivial
      · exact issues_answer ((linkAccounts_issues i ms p).mono fun _ hq => hq.tends)
  | plaidDismiss is =>
    simp only [handle]
    split
    · trivial
    · split
      · trivial
      · exact issues_answer (issues_sql (tends_dismissStaged is))
  | plaidDisconnect i =>
    simp only [handle]
    split
    · trivial
    · exact issues_answer ((disconnect_issues cfg i).mono fun _ hq => hq.tends)
  | _ => exact absurd h (by simp [Request.plain])

/-- The answer to a call made from what it returns. -/
theorem confined_answer {α : Type} {p : Call α} {f : α → Response}
    (h : p.swp free Duty.none (fun _ t => Confined book s t.db) (.idle s)) :
    (p.bind fun a => ret (f a)).swp free Duty.none (fun _ t => Confined book s t.db) (.idle s) := by
  refine swp_bind (swp_mono (fun r t ht => ?_) h)
  cases r with
  | error _ => exact ht
  | ok _ => exact ht

/-- **A request sees to its book only.** -/
theorem handle_confined (cfg : PlaidConfig) (req : Request) (hs : s.Stocked) (ho : s.Owned) :
    (handle cfg book req).swp free Duty.none (fun _ t => Confined book s t.db) (.idle s) := by
  have hself : Confined book s s := .refl hs ho
  by_cases hplain : req.readonly = true ∨ req.plain = true
  · exact confined_of_tends (handle_issued cfg req) (handle_tends cfg req hplain) hself
  cases req with
  | createTransaction req =>
    exact confined_answer (swp_mono (fun _ _ ht => ht.db) (createTransaction_confined _ hself))
  | updateTransaction id req => exact confined_answer (updateTransaction_confined id req hself)
  | importJson file =>
    cases file with
    | none => exact hself
    | some file => exact confined_answer (performImport_confined file hself)
  | importGnuCash file =>
    cases file with
    | none => exact hself
    | some file => exact confined_answer (backup_confined _ file hself)
  | restoreSnapshot id => exact confined_answer (handleRestore_confined id hself)
  | importCsv account file =>
    simp only [handle]
    split
    · exact hself
    · cases file with
      | invalid => exact hself
      | noRecords => exact hself
      | rows rs => exact confined_answer (csvLoop_confined account rs hself)
  | plaidSync item =>
    simp only [handle]
    split
    · exact hself
    · exact confined_answer (sync_confined cfg item hself)
  | plaidImport rows =>
    simp only [handle]
    split
    · exact hself
    · split
      · exact hself
      · exact confined_answer (importRows_confined rows hself)
  | _ => exact absurd (by simp [Request.readonly, Request.plain]) hplain

end Requests

end Antimoney
