import Antimoney.Imports.Rows
import Antimoney.Plaid.Recovery
import Antimoney.Tenants.Apart

/-!
# What becomes of a report

A transaction that the bank reports is staged, and its staged copy goes for three reasons only: the
transaction is posted, or its predecessor was posted with the same value, or a later report withdraws
it.

* `Followed`: where a reported transaction is, in terms of what was reported later.
* `Followed.apply`, `followed_upsert`: the operations of a page.
* `Followed.imports`, `Followed.dismiss`, `Followed.grows`: the other requests.
-/

namespace Antimoney

open Antimoney.Lib Antimoney.Gnc Prog

/-! ## Following a report -/

/-- The predecessor that the transaction names is posted with its value, on some linked account. -/
def Db.represents (db : Db) (book : Guid) (txn : PlaidTxn) : Prop :=
  txn.pendingTransactionId ≠ "" ∧ ∃ account, db.linkedSplit book txn.pendingTransactionId account
    (Db.opposite txn.amountNum txn.amountDenom) = true

/-- The row holds what the bank reported. -/
structure Staged.Bears (st : Staged) (txn : PlaidTxn) : Prop where
  pending : st.pendingTransactionId =
    if txn.pendingTransactionId = "" then none else some txn.pendingTransactionId
  amountNum : st.amountNum = txn.amountNum
  amountDenom : st.amountDenom = txn.amountDenom
  postDate : st.postDate = txn.date
  description : st.description = txn.description

/-- The report itself, or a later one of the same transaction. -/
def Reported (later : List StageOp) (txn txn' : PlaidTxn) : Prop :=
  txn'.transactionId = txn.transactionId ∧ (txn' = txn ∨ .upsert txn' ∈ later)

/-- Why a transaction that was reported is not lost. -/
inductive Survives (db : Db) (book : Guid) (txn : PlaidTxn) (later : List StageOp) : Prop
  | staged (st : Staged) (h : st ∈ db.staged) (hb : st.bookGuid = book)
      (hid : st.transactionId = txn.transactionId)
  | posted (h : db.posted book txn.transactionId = true)
  | represented (txn' : PlaidTxn) (h : Reported later txn txn') (hr : db.represents book txn')
  | withdrawn (ids : List String) (h : .sweep ids ∈ later) (hid : txn.transactionId ∈ ids)

/-- The transaction is not lost, and its staged copy holds this report or a later one. -/
structure Followed (db : Db) (book : Guid) (txn : PlaidTxn) (later : List StageOp) : Prop where
  kept : Survives db book txn later
  bears : ∀ st ∈ db.staged, st.bookGuid = book → st.transactionId = txn.transactionId →
    ∃ txn', Reported later txn txn' ∧ st.Bears txn'

/-- What is posted stays posted, on the accounts that it is on. -/
structure Keeps (book : Guid) (x y : Db) : Prop where
  posted : ∀ id, x.posted book id = true → y.posted book id = true
  linked : ∀ id account c, x.linkedSplit book id account c = true →
    y.linkedSplit book id account c = true

section Reports

variable {book i : Guid} {x y v : Db} {txn txn' : PlaidTxn} {later : List StageOp} {o : StageOp}
  {T : List Staged} {st st' : Staged}

theorem Keeps.refl (book : Guid) (x : Db) : Keeps book x x := ⟨fun _ h => h, fun _ _ _ h => h⟩

theorem Keeps.trans {z : Db} (h : Keeps book x y) (h' : Keeps book y z) : Keeps book x z :=
  ⟨fun id hx => h'.posted id (h.posted id hx),
    fun id account c hx => h'.linked id account c (h.linked id account c hx)⟩

theorem Keeps.represents (h : Keeps book x y) (hr : x.represents book txn) :
    y.represents book txn := by
  obtain ⟨hp, account, hl⟩ := hr
  exact ⟨hp, account, h.linked _ _ _ hl⟩

theorem Reported.self (later : List StageOp) (txn : PlaidTxn) : Reported later txn txn :=
  ⟨rfl, .inl rfl⟩

theorem Reported.more (h : Reported later txn txn') (ops : List StageOp) :
    Reported (later ++ ops) txn txn' :=
  ⟨h.1, h.2.imp_right fun hm => List.mem_append_left _ hm⟩

theorem Survives.more (h : Survives x book txn later) (ops : List StageOp) :
    Survives x book txn (later ++ ops) := by
  cases h with
  | staged st h hb hid => exact .staged st h hb hid
  | posted h => exact .posted h
  | represented txn' h hr => exact .represented txn' (h.more ops) hr
  | withdrawn ids h hid => exact .withdrawn ids (List.mem_append_left _ h) hid

theorem Followed.more (h : Followed x book txn later) (ops : List StageOp) :
    Followed x book txn (later ++ ops) := by
  refine ⟨h.kept.more ops, fun st hst hb hid => ?_⟩
  obtain ⟨txn', hr, hbears⟩ := h.bears st hst hb hid
  exact ⟨txn', hr.more ops, hbears⟩

/-- The same row, up to its creation time and its flags. -/
structure Staged.Same (st st' : Staged) : Prop where
  bookGuid : st'.bookGuid = st.bookGuid
  transactionId : st'.transactionId = st.transactionId
  bears : ∀ txn, st.Bears txn → st'.Bears txn

theorem Staged.Same.refl (st : Staged) : st.Same st := ⟨rfl, rfl, fun _ h => h⟩

/-- **A step.** What is posted stays, the rows that are there were there, and a row that goes is
posted, represented or withdrawn. -/
theorem Followed.step (h : Followed x book txn later) (hk : Keeps book x y)
    (hrows : ∀ st' ∈ y.staged, st'.bookGuid = book → st'.transactionId = txn.transactionId →
      ∃ st ∈ x.staged, st.Same st')
    (hgone : ∀ st ∈ x.staged, st.bookGuid = book → st.transactionId = txn.transactionId →
      (∀ txn', Reported later txn txn' → st.Bears txn' → Survives y book txn later)) :
    Followed y book txn later := by
  refine ⟨?_, fun st' hst' hb hid => ?_⟩
  · cases h.kept with
    | staged st hst hb hid =>
      obtain ⟨txn', hr, hbears⟩ := h.bears st hst hb hid
      exact hgone st hst hb hid txn' hr hbears
    | posted h => exact .posted (hk.posted _ h)
    | represented txn' h hr => exact .represented txn' h (hk.represents hr)
    | withdrawn ids h hid => exact .withdrawn ids h hid
  · obtain ⟨st, hst, hsame⟩ := hrows st' hst' hb hid
    obtain ⟨txn', hr, hbears⟩ := h.bears st hst (hsame.bookGuid ▸ hb) (hsame.transactionId ▸ hid)
    exact ⟨txn', hr, hsame.bears txn' hbears⟩

/-- A step that changes no staged row of the book but for times and flags. -/
theorem Followed.grows (h : Followed x book txn later) (hk : Keeps book x y)
    (hrows : ∀ st' ∈ y.staged, st'.bookGuid = book → ∃ st ∈ x.staged, st.Same st')
    (hgone : ∀ st ∈ x.staged, st.bookGuid = book → ∃ st' ∈ y.staged, st.Same st') :
    Followed y book txn later := by
  refine h.step hk (fun st' hst' hb _ => hrows st' hst' hb) fun st hst hb hid _ _ _ => ?_
  obtain ⟨st', hst', hsame⟩ := hgone st hst hb
  exact .staged st' hst' (hsame.bookGuid.trans hb) (hsame.transactionId.trans hid)

/-! ## The operations of a page -/

theorem bears_staged (txn : PlaidTxn) (book item : Guid) (d : Bool) (now : Time) :
    (txn.staged book item d now).Bears txn := ⟨rfl, rfl, rfl, rfl, rfl⟩

theorem bears_over (txn : PlaidTxn) (d : Bool) (st : Staged) : (txn.over d st).Bears txn :=
  ⟨rfl, rfl, rfl, rfl, rfl⟩

/-- What the upsert leaves of the rows. -/
theorem mem_upsertStagedRow {item : Guid} {d : Bool} {now : Time}
    (h : st ∈ upsertStagedRow (txn.staged book item d now) T) :
    (st ∈ T ∧ ¬ (st.bookGuid = book ∧ st.transactionId = txn.transactionId)) ∨
      (st = txn.staged book item d now ∧
        ∀ st' ∈ T, ¬ (st'.bookGuid = book ∧ st'.transactionId = txn.transactionId)) ∨
      ∃ st' ∈ T, (st'.bookGuid = book ∧ st'.transactionId = txn.transactionId) ∧
        st = txn.over d st' := by
  unfold upsertStagedRow at h
  split at h
  · rcases mem_updateWhere_cases h with ⟨hm, hc⟩ | ⟨st', hm, hc, rfl⟩
    · exact .inl ⟨hm, by simpa [PlaidTxn.staged] using hc⟩
    · exact .inr (.inr ⟨st', hm, by simpa [PlaidTxn.staged] using hc, rfl⟩)
  · rename_i hnone
    have hother : ∀ st' ∈ T, ¬ (st'.bookGuid = book ∧ st'.transactionId = txn.transactionId) := by
      refine fun st' hm hsame => hnone (List.any_eq_true.mpr ⟨st', hm, ?_⟩)
      simp [PlaidTxn.staged, hsame.1, hsame.2]
    rcases List.mem_append.mp h with hm | hm
    · exact .inl ⟨hm, hother st hm⟩
    · exact .inr (.inl ⟨List.mem_singleton.mp hm, hother⟩)

/-- A row that is there is written over. -/
theorem over_mem_upsertStagedRow {item : Guid} {d : Bool} {now : Time} (h : st ∈ T)
    (hkey : st.bookGuid = book ∧ st.transactionId = txn.transactionId) :
    txn.over d st ∈ upsertStagedRow (txn.staged book item d now) T := by
  have hc : (st.bookGuid == (txn.staged book item d now).bookGuid &&
      st.transactionId == (txn.staged book item d now).transactionId) = true := by
    simp [PlaidTxn.staged, hkey.1, hkey.2]
  unfold upsertStagedRow
  rw [if_pos (List.any_eq_true.mpr ⟨st, h, hc⟩)]
  exact mem_updateWhere.mpr ⟨st, h, if_pos hc⟩

/-- The upserted row is there. -/
theorem exists_upsertStagedRow (txn : PlaidTxn) (book item : Guid) (d : Bool) (now : Time)
    (T : List Staged) : ∃ st ∈ upsertStagedRow (txn.staged book item d now) T,
      st.bookGuid = book ∧ st.transactionId = txn.transactionId := by
  by_cases hany : ∃ st ∈ T, st.bookGuid = book ∧ st.transactionId = txn.transactionId
  · obtain ⟨st, hst, hkey⟩ := hany
    exact ⟨_, over_mem_upsertStagedRow hst hkey, hkey⟩
  · refine ⟨txn.staged book item d now, ?_, rfl, rfl⟩
    unfold upsertStagedRow
    rw [if_neg fun h => hany ?_]
    · exact List.mem_append_right _ List.mem_cons_self
    · obtain ⟨st, hst, hc⟩ := List.any_eq_true.mp h
      exact ⟨st, hst, by simpa [PlaidTxn.staged] using hc⟩

/-- The other rows stay. -/
theorem mem_upsertStagedRow_other {new : Staged} (h : st ∈ T)
    (hne : ¬ (st.bookGuid = new.bookGuid ∧ st.transactionId = new.transactionId)) :
    st ∈ upsertStagedRow new T := by
  unfold upsertStagedRow
  split
  · refine mem_updateWhere.mpr ⟨st, h, if_neg ?_⟩
    simpa using hne
  · exact List.mem_append_left _ h

theorem mem_stagedIn {ids : List String} :
    stagedIn book ids st = true ↔ st.bookGuid = book ∧ st.transactionId ∈ ids := by
  simp [stagedIn]

/-- What is settled is represented. -/
theorem represents_of_settles (h : v.settles book txn = true) : v.represents book txn := by
  simp only [Db.settles, Bool.and_eq_true, bne_iff_ne] at h
  exact ⟨h.1.1, _, h.2⟩

/-- **A report that was staged**, or settled at once. -/
theorem followed_upsert (item : Guid) (txn : PlaidTxn) (T : List Staged) :
    Followed (v.restage (stageRow v book item txn T)) book txn [] := by
  unfold stageRow
  by_cases hs : v.settles book txn = true
  · rw [if_pos hs]
    refine ⟨.represented txn (.self _ _) (represents_of_settles hs), fun st hst hb hid => ?_⟩
    have hin : stagedIn book [txn.pendingTransactionId, txn.transactionId] st = true :=
      mem_stagedIn.mpr ⟨hb, by simp [hid]⟩
    exact absurd (hin.symm.trans (mem_deleteWhere.mp hst).2) nofun
  · rw [if_neg hs]
    refine ⟨?_, fun st hst hb hid => ⟨txn, .self _ _, ?_⟩⟩
    · obtain ⟨st, hst, hb, hid⟩ := exists_upsertStagedRow txn book item
        (txn.pendingTransactionId != "" && dismissedIn book txn.pendingTransactionId T) 0 T
      exact .staged st hst hb hid
    · rcases mem_upsertStagedRow hst with ⟨-, hne⟩ | ⟨rfl, -⟩ | ⟨st', -, -, rfl⟩
      · exact absurd ⟨hb, hid⟩ hne
      · exact bears_staged _ _ _ _ _
      · exact bears_over _ _ _

/-- **A later operation.** -/
theorem Followed.apply (item : Guid) (o : StageOp) (h : Followed (v.restage T) book txn later) :
    Followed (v.restage (o.apply v book item T)) book txn (later ++ [o]) := by
  have hm := h.more [o]
  have hkeeps : ∀ T', Keeps book (v.restage T) (v.restage T') := fun _ =>
    ⟨fun _ h => h, fun _ _ _ h => h⟩
  have hlast : o ∈ later ++ [o] := List.mem_append_right _ List.mem_cons_self
  cases o with
  | sweep ids =>
    refine hm.step (hkeeps _) (fun st hst _ _ => ⟨st, (mem_deleteWhere.mp hst).1, .refl st⟩)
      fun st hst hb hid _ _ _ => ?_
    by_cases hc : (stagedIn book ids st && !st.dismissed) = true
    · have hin := (Bool.and_eq_true _ _ ▸ hc).1
      exact .withdrawn ids hlast (hid ▸ (mem_stagedIn.mp hin).2)
    · exact .staged st (mem_deleteWhere.mpr ⟨hst, Bool.eq_false_iff.mpr hc⟩) hb hid
  | upsert u =>
    simp only [StageOp.apply, stageRow]
    by_cases hs : v.settles book u = true
    · rw [if_pos hs]
      refine hm.step (hkeeps _) (fun st hst _ _ => ⟨st, (mem_deleteWhere.mp hst).1, .refl st⟩)
        fun st hst hb hid _ _ _ => ?_
      by_cases hc : stagedIn book [u.pendingTransactionId, u.transactionId] st = true
      · have hids := (mem_stagedIn.mp hc).2
        rw [List.mem_cons, List.mem_singleton] at hids
        rcases hids with hp | hu
        · -- the predecessor goes: it is posted
          simp only [Db.settles, Bool.and_eq_true] at hs
          exact .posted ((hp.symm.trans hid) ▸ hs.1.2)
        · exact .represented u ⟨hu.symm.trans hid, .inr hlast⟩ (represents_of_settles hs)
      · exact .staged st (mem_deleteWhere.mpr ⟨hst, Bool.eq_false_iff.mpr hc⟩) hb hid
    · rw [if_neg hs]
      refine ⟨?_, fun st hst hb hid => ?_⟩
      · cases hm.kept with
        | staged st hst hb hid =>
          by_cases hsame : st.bookGuid = book ∧ st.transactionId = u.transactionId
          · obtain ⟨st', hst', hb', hid'⟩ := exists_upsertStagedRow u book item
              (u.pendingTransactionId != "" && dismissedIn book u.pendingTransactionId T) 0 T
            exact .staged st' hst' hb' (hid'.trans (hsame.2.symm.trans hid))
          · exact .staged st (mem_upsertStagedRow_other hst hsame) hb hid
        | posted h => exact .posted h
        | represented txn' h hr => exact .represented txn' h hr
        | withdrawn ids h hid => exact .withdrawn ids h hid
      · have hreported : u.transactionId = txn.transactionId →
            Reported (later ++ [.upsert u]) txn u := fun hu => ⟨hu, .inr hlast⟩
        rcases mem_upsertStagedRow hst with ⟨hmem, -⟩ | ⟨rfl, -⟩ | ⟨st', -, hkey, rfl⟩
        · exact hm.bears st hmem hb hid
        · exact ⟨u, hreported hid, bears_staged _ _ _ _ _⟩
        · exact ⟨u, hreported (hkey.2.symm.trans hid), bears_over _ _ _⟩

/-- Every report of the log is followed, by what comes after it. -/
def Traced (db : Db) (book : Guid) (log : List StageOp) : Prop :=
  ∀ l₁ txn l₂, log = l₁ ++ .upsert txn :: l₂ → Followed db book txn l₂

theorem Traced.apply (item : Guid) (o : StageOp) {log : List StageOp}
    (h : Traced (v.restage T) book log) :
    Traced (v.restage (o.apply v book item T)) book (log ++ [o]) := by
  intro l₁ txn l₂ heq
  rcases List.eq_nil_or_concat l₂ with rfl | ⟨l₂', o', rfl⟩
  · obtain ⟨-, ho⟩ := List.append_inj' heq rfl
    obtain rfl := List.cons.inj ho |>.1
    exact followed_upsert item txn T
  · rw [List.concat_eq_append] at heq ⊢
    have heq' : log ++ [o] = (l₁ ++ .upsert txn :: l₂') ++ [o'] := by
      rw [heq, List.append_assoc, List.cons_append]
    obtain ⟨hlog, ho⟩ := List.append_inj' heq' rfl
    obtain rfl := List.cons.inj ho |>.1
    exact (h l₁ txn l₂' hlog).apply item o

/-- **The operations of some pages.** -/
theorem Traced.redo (item : Guid) (ops : List StageOp) {log : List StageOp}
    (h : Traced (v.restage T) book log) :
    Traced (v.restage (redo (StageOp.apply v book item) ops T)) book (log ++ ops) := by
  induction ops generalizing T log with
  | nil => rwa [List.append_nil]
  | cons o ops ih =>
    have hnext := ih (h.apply item o)
    rwa [List.append_assoc] at hnext

/-! ## The other requests -/

/-- The account is still there, linked as it was. -/
structure Account.Stays (a a' : Account) : Prop where
  guid : a'.guid = a.guid
  bookGuid : a'.bookGuid = a.bookGuid
  linked : ∀ id, a.plaid.any (·.accountId == id) = true → a'.plaid.any (·.accountId == id) = true

theorem Account.Stays.refl (a : Account) : a.Stays a := ⟨rfl, rfl, fun _ h => h⟩

/-- The rows of the book that are needed to see what is posted. -/
theorem keeps_of (ht : ∀ t ∈ x.transactions, t.bookGuid = book → t ∈ y.transactions)
    (hs : ∀ t ∈ x.transactions, t.bookGuid = book → ∀ s ∈ x.splits, s.txGuid = t.guid →
      s ∈ y.splits)
    (ha : ∀ a ∈ x.accounts, a.bookGuid = book → ∃ a' ∈ y.accounts, a.Stays a') :
    Keeps book x y where
  posted id h := by
    obtain ⟨t, htx, hc⟩ := List.any_eq_true.mp h
    have hb := (Bool.and_eq_true _ _ ▸ hc).1
    exact List.any_eq_true.mpr ⟨t, ht t htx (beq_iff_eq.mp hb), hc⟩
  linked id account c h := by
    obtain ⟨t, htx, hc⟩ := List.any_eq_true.mp h
    obtain ⟨htb, hc⟩ := Bool.and_eq_true _ _ ▸ hc
    have hb := beq_iff_eq.mp (Bool.and_eq_true _ _ ▸ htb).1
    obtain ⟨s, hsx, hc⟩ := List.any_eq_true.mp hc
    obtain ⟨hst, hc⟩ := Bool.and_eq_true _ _ ▸ hc
    have hguid := beq_iff_eq.mp (Bool.and_eq_true _ _ ▸ hst).1
    obtain ⟨a, hax, hc⟩ := List.any_eq_true.mp hc
    simp only [Bool.and_eq_true, beq_iff_eq] at hc
    obtain ⟨a', ha', hstays⟩ := ha a hax (hc.1.2.trans hb)
    refine List.any_eq_true.mpr ⟨t, ht t htx hb, Bool.and_eq_true _ _ ▸ ⟨htb, ?_⟩⟩
    refine List.any_eq_true.mpr ⟨s, hs t htx hb s hsx hguid, Bool.and_eq_true _ _ ▸ ⟨hst, ?_⟩⟩
    refine List.any_eq_true.mpr ⟨a', ha', ?_⟩
    simp [hstays.guid, hstays.bookGuid, hc.1.1, hc.1.2, hstays.linked account hc.2]

theorem keeps_append (as : List Account) (ts : List Transaction) (rs : List Split) :
    Keeps book x (x.append as ts rs) :=
  keeps_of (fun _ h _ => List.mem_append_left _ h) (fun _ _ _ _ h _ => List.mem_append_left _ h)
    fun a h _ => ⟨a, List.mem_append_left _ h, .refl a⟩

/-- A posting. -/
theorem Followed.append (h : Followed x book txn later) (as : List Account)
    (ts : List Transaction) (rs : List Split) : Followed (x.append as ts rs) book txn later :=
  h.grows (keeps_append as ts rs) (fun st hst _ => ⟨st, hst, .refl st⟩)
    fun st hst _ => ⟨st, hst, .refl st⟩

theorem keeps_sameRows (h : SameRows book x y) : Keeps book x y := by
  refine keeps_of (fun t ht hb => ?_) (fun t ht hb s hs htx => ?_) fun a ha hb => ⟨a, ?_, .refl a⟩
  · have hmem : t ∈ y.transactions.filter (·.bookGuid == book) := by
      rw [h.transactions]
      simpa using ⟨ht, hb⟩
    exact List.mem_of_mem_filter hmem
  · have hmem : s ∈ y.splits.filter (·.txGuid == t.guid) := by
      rw [h.splits t ht hb]
      simpa using ⟨hs, htx⟩
    exact List.mem_of_mem_filter hmem
  · have hmem : a ∈ y.accounts.filter (·.bookGuid == book) := by
      rw [h.accounts]
      simpa using ⟨ha, hb⟩
    exact List.mem_of_mem_filter hmem

/-- The deletion of a staged copy, whose transaction is posted or represented. -/
theorem Followed.cleaned {fails : Bool} {id : String} (h : Followed x book txn later)
    (hc : Cleaned fails book id x y)
    (hid : id = txn.transactionId → x.posted book id = true ∨
      ∃ txn', Reported later txn txn' ∧ x.represents book txn') : Followed y book txn later := by
  rcases hc with rfl | ⟨-, rfl⟩
  · refine h.step ⟨fun _ h => h, fun _ _ _ h => h⟩
      (fun st hst _ _ => ⟨st, (mem_deleteWhere.mp hst).1, .refl st⟩) fun st hst hb hst' _ _ _ => ?_
    by_cases hin : stagedIn book [id] st = true
    · have hsame : id = txn.transactionId :=
        (List.mem_singleton.mp (mem_stagedIn.mp hin).2).symm.trans hst'
      rcases hid hsame with hposted | ⟨txn', hr, hrep⟩
      · exact .posted (hsame ▸ hposted)
      · exact .represented txn' hr hrep
    · exact .staged st (mem_deleteWhere.mpr ⟨hst, Bool.eq_false_iff.mpr hin⟩) hb hst'
  · exact h

/-- The copy whose predecessor was imported with its value is one that bears a report. -/
theorem Followed.represents (h : Followed x book txn later)
    (hr : x.replaces book txn.transactionId = true) :
    ∃ txn', Reported later txn txn' ∧ x.represents book txn' := by
  obtain ⟨-, hany⟩ := Bool.and_eq_true _ _ ▸ hr
  obtain ⟨st, hst, hp⟩ := Option.any_eq_true _ _ |>.mp hany
  have hkey := List.find?_some hst
  simp only [Bool.and_eq_true, beq_iff_eq] at hkey
  obtain ⟨txn', hrep, hbears⟩ := h.bears st (List.mem_of_find?_eq_some hst) hkey.1 hkey.2
  refine ⟨txn', hrep, ?_⟩
  rw [hbears.pending, hbears.amountNum, hbears.amountDenom] at hp
  by_cases hnone : txn'.pendingTransactionId = ""
  · simp [hnone] at hp
  · rw [if_neg hnone] at hp
    exact ⟨hnone, _, hp⟩

/-- **A row of an import.** -/
theorem Followed.row {fails : Bool} {row : ImportRow} {r : RowOutcome}
    (h : Followed x book txn later) (hs : RowStep fails book row x r y) :
    Followed y book txn later := by
  cases hs with
  | failed => exact h
  | settled _ => exact h
  | replaced _ hr hc =>
    refine h.cleaned hc fun hid => .inr ?_
    rw [hid] at hr
    exact h.represents hr
  | imported _ _ _ _ _ hcreated hadds hc =>
    obtain ⟨rfl, -, -⟩ := hadds
    refine (h.append _ _ _).cleaned hc fun _ => .inl (List.any_eq_true.mpr ?_)
    refine ⟨_, List.mem_append_right _ List.mem_cons_self, ?_⟩
    simp [hcreated.inBook, hcreated.plaid, importRequest]

/-- A dismissal flags rows. -/
theorem Followed.dismiss (h : Followed x book txn later) (ids : List String) :
    Followed (x.restage (updateWhere (stagedIn book ids)
      (fun st => { st with dismissed := true }) x.staged)) book txn later := by
  have hsame : ∀ st : Staged, st.Same (if stagedIn book ids st then { st with dismissed := true }
      else st) := by
    intro st
    by_cases hc : stagedIn book ids st = true
    · rw [if_pos hc]
      exact ⟨rfl, rfl, fun _ hb =>
        ⟨hb.pending, hb.amountNum, hb.amountDenom, hb.postDate, hb.description⟩⟩
    · rw [if_neg hc]
      exact .refl st
  refine h.grows ⟨fun _ h => h, fun _ _ _ h => h⟩ (fun st hst _ => ?_) fun st hst _ => ?_
  · obtain ⟨st₀, hst₀, rfl⟩ := mem_updateWhere.mp hst
    exact ⟨st₀, hst₀, hsame st₀⟩
  · exact ⟨_, mem_updateWhere.mpr ⟨st, hst, rfl⟩, hsame st⟩

theorem staged_sameRows (hs : SameRows book x y) (hb : st.bookGuid = book) :
    st ∈ y.staged ↔ st ∈ x.staged := by
  have hmem : st ∈ y.staged.filter (·.bookGuid == book) ↔
      st ∈ x.staged.filter (·.bookGuid == book) := by rw [hs.staged]
  simpa [hb] using hmem

/-- The rows of another book. -/
theorem Followed.sameRows (h : Followed x book txn later) (hs : SameRows book x y) :
    Followed y book txn later :=
  h.grows (keeps_sameRows hs) (fun st hst hb => ⟨st, (staged_sameRows hs hb).mp hst, .refl st⟩)
    fun st hst hb => ⟨st, (staged_sameRows hs hb).mpr hst, .refl st⟩

end Reports

end Antimoney
