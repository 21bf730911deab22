import Antimoney.Concurrent
import Antimoney.Effects
import Antimoney.Ledger.Balance
import Antimoney.Reads

/-!
# The trial balance

The tree adds up quantities, account by account, while the gate of `CreateTransaction` and
`UpdateTransaction` looks at values. The balances of a book add up to zero when in each transaction
the quantities on accounts of the book do:

* a new transaction's quantities add up to what its values do, as the gate computes it;
* an update's quantities add up to zero;
* so do the quantities of each transaction of a file, on the accounts of each book.

CSV rows and bank transactions need no condition. Under it every run keeps the trial balance
(**`runs_trialBalance`**); `runs_no_trialBalance` is a run that does not.
-/

namespace Antimoney

open Antimoney.Lib Antimoney.Gnc Prog

/-! ## Books -/

/-- The book of the account under `g`. -/
def Db.bookOf (db : Db) (g : Guid) : Option Guid :=
  (db.accounts.find? (·.guid == g)).map (·.bookGuid)

section Books

variable {x y : Db}

theorem Db.bookOf_of_mem (hn : (x.accounts.map (·.guid)).Nodup) {a : Account}
    (ha : a ∈ x.accounts) : x.bookOf a.guid = some a.bookGuid := by
  simp [Db.bookOf, Db.find_account hn ha]

/-- The accounts of `y` that `x` had are in the same books. -/
def Db.KeepsBooks (x y : Db) : Prop :=
  ∀ a ∈ y.accounts, x.hasAccount a.guid = true →
    ∃ a' ∈ x.accounts, a'.guid = a.guid ∧ a'.bookGuid = a.bookGuid

theorem Db.KeepsBooks.of_subset (h : ∀ a ∈ y.accounts, a ∈ x.accounts) : x.KeepsBooks y :=
  fun a ha _ => ⟨a, h a ha, rfl, rfl⟩

/-- A split that stays is on an account of the same book. -/
theorem Db.KeepsBooks.bookOf (h : x.KeepsBooks y) (hk : x.Keyed) (hy : y.Keyed) {sp : Split}
    (hx : sp ∈ x.splits) (hsp : sp ∈ y.splits) :
    y.bookOf sp.accountGuid = x.bookOf sp.accountGuid := by
  obtain ⟨a, ha, hg⟩ := List.any_eq_true.mp (hy.split_account sp hsp)
  have hg' : a.guid = sp.accountGuid := beq_iff_eq.mp hg
  obtain ⟨a', ha', hguid, hbook⟩ := h a ha (hg' ▸ hk.split_account sp hx)
  calc y.bookOf sp.accountGuid = some a.bookGuid := hg' ▸ Db.bookOf_of_mem hy.accounts ha
    _ = some a'.bookGuid := by rw [hbook]
    _ = x.bookOf sp.accountGuid := by rw [← Db.bookOf_of_mem hk.accounts ha', hguid, hg']

end Books

/-! ## Shares -/

/-- What a split adds to which book. -/
def Db.shareOf (db : Db) (sp : Split) : Option Guid × ℚ := (db.bookOf sp.accountGuid, sp.amount)

/-- Transactions as keys, shares as entries. -/
def Db.shares (db : Db) : Journal Guid (Option Guid × ℚ) := db.journalBy db.shareOf

/-- In each book the shares add up to zero. -/
def Offset (es : List (Option Guid × ℚ)) : Prop :=
  ∀ b : Guid, (es.map fun e => if e.1 = some b then e.2 else 0).sum = 0

/-- In each transaction the shares of each book add up to zero. -/
def Db.Offset (db : Db) : Prop := db.shares.Sound Antimoney.Offset

/-- Shares of one book. -/
theorem offset_of_book {es : List (Option Guid × ℚ)} {book : Guid} (h : ∀ e ∈ es, e.1 = some book)
    (hs : (es.map Prod.snd).sum = 0) : Offset es := by
  intro b
  by_cases hb : book = b
  · rw [← hs]
    congr 1
    exact List.map_congr_left fun e he => by simp [h e he, hb]
  · have hzero : (es.map fun e => if e.1 = some b then e.2 else 0) = es.map fun _ => (0 : ℚ) :=
      List.map_congr_left fun e he => by simp [h e he, hb]
    rw [hzero]
    simp

section Shares

variable {x y : Db}

/-- The rows of one transaction, on open accounts of a book. -/
theorem offset_of_open (hk : x.Keyed) {book : Guid} {rows : List Split}
    (hopen : ∀ row ∈ rows, x.Open book row.accountGuid)
    (hs : (rows.map Split.amount).sum = 0) : Offset (rows.map x.shareOf) := by
  have hbook : ∀ e ∈ rows.map x.shareOf, e.1 = some book := by
    intro e he
    obtain ⟨row, hrow, rfl⟩ := List.mem_map.mp he
    obtain ⟨a, ha, hg, hb, -⟩ := hopen row hrow
    rw [← hb, ← Db.bookOf_of_mem hk.accounts ha, hg]
    rfl
  refine offset_of_book hbook ?_
  rw [List.map_map]
  exact hs

theorem Db.Offset.frame (hx : x.Offset) (hk : x.Keyed) (hy : y.Keyed) (hb : x.KeepsBooks y)
    (ht : y.transactions = x.transactions) (hs : y.splits = x.splits) : y.Offset := by
  have hshares : y.shares = x.shares := by
    simp only [Db.shares, Db.journalBy, ht, hs, Journal.mk.injEq, true_and]
    refine List.map_congr_left fun sp hsp => ?_
    rw [Db.shareOf, Db.shareOf, hb.bookOf hk hy hsp (hs ▸ hsp)]
  unfold Db.Offset
  rw [hshares]
  exact hx

theorem Db.Offset.delete (hx : x.Offset) (c : Transaction → Bool) :
    ((x.deleteTransactions c).2.journalBy x.shareOf).Sound Antimoney.Offset := by
  rw [Db.journalBy_deleteTransactions hx.nodup]
  exact hx.remove _

theorem Db.Offset.states (hx : x.Offset) (book : Guid) (state : String) (c : Split → Bool) :
    (setReconcileState book state c x).2.Offset := by
  have hsplits : ∀ c : Split → Bool, (updateWhere c (fun s => { s with reconcileState := state })
      x.splits).map (fun s => (s.txGuid, x.shareOf s)) =
        x.splits.map fun s => (s.txGuid, x.shareOf s) :=
    fun c => map_updateWhere_of_same (f := fun s : Split => { s with reconcileState := state })
      (g := fun s : Split => (s.txGuid, x.shareOf s)) (fun _ => rfl) x.splits
  have hshares : (setReconcileState book state c x).2.shares = x.shares :=
    congrArg (Journal.mk _) (hsplits _)
  unfold Db.Offset
  rw [hshares]
  exact hx

end Shares

/-! ## New transactions -/

/-- The quantity of a requested split. -/
def CreateSplitRequest.quantity (sp : CreateSplitRequest) : Fraction :=
  (sp.quantityNum, sp.quantityDenom)

/-- The quantities of a request that count: splits of value zero are dropped. -/
def quantities (splits : List CreateSplitRequest) : List Fraction :=
  (splits.filter (·.valueNum != 0)).map CreateSplitRequest.quantity

/-- What balances the values of a new transaction balances its quantities. -/
def Offsets (splits : List CreateSplitRequest) : Prop :=
  DenomsOk splits → ∀ sum, gateSum (amounts splits) = some sum →
    exactSum (quantities splits) + sum.neg.value = 0

/-- The quantities of an update that the gate lets through add up to zero. -/
def OffsetsZero (splits : List CreateSplitRequest) : Prop :=
  DenomsOk splits → ∀ sum, gateSum (amounts splits) = some sum → sum.isZero = true →
    exactSum (quantities splits) = 0

theorem RowOf.amounts {tx : Guid} {state : CreateSplitRequest → String}
    {splits : List CreateSplitRequest} {rows : List Split}
    (h : List.Forall₂ (RowOf tx state) splits rows) :
    (rows.map Split.amount).sum = exactSum (splits.map CreateSplitRequest.quantity) := by
  have hamounts : rows.map Split.amount =
      (splits.map CreateSplitRequest.quantity).map Fraction.value := by
    rw [List.map_map, map_eq_iff_forall₂]
    refine h.flip.imp fun row sp hof => ?_
    rw [Split.amount, hof.quantityNum, hof.quantityDenom]
    rfl
  rw [hamounts]
  rfl

/-- The rows of a new transaction. -/
theorem Created.amounts {book : Guid} {req : CreateTransactionRequest} {as : List Account}
    {t : Transaction} {rows : List Split} (hc : Created book req as t rows)
    (h : Offsets req.splits) : (rows.map Split.amount).sum = 0 := by
  obtain ⟨valid, sum, splits, hv, hs, hb, -, hrows⟩ := hc.rows
  obtain ⟨hd, rfl⟩ := validSplits_filter hv
  have hzero := h hd sum hs
  rw [RowOf.amounts hrows]
  rcases hb with ⟨hz, rfl⟩ | ⟨-, g, rfl⟩
  · have h0 : sum.num = 0 := by simpa [Numeric.isZero] using hz
    have hneg : sum.neg.value = 0 := by
      simp [Numeric.neg, Numeric.value, Fraction.value, h0]
    rwa [hneg, add_zero] at hzero
  · have hbal : exactSum [(balancingSplit g sum).quantity] = sum.neg.value := by
      rw [exactSum_cons, exactSum_nil, add_zero]
      rfl
    rw [List.map_append, exactSum_append, List.map_singleton, hbal]
    exact hzero

/-- The rows of an updated transaction. -/
theorem Chosen.amounts {req : UpdateTransactionRequest} {guid : Guid} {rows : List Split}
    (hc : Chosen req guid rows) (h : OffsetsZero req.splits) :
    (rows.map Split.amount).sum = 0 := by
  obtain ⟨splits, sum, hv, hs, hz, -, hrows⟩ := hc.rows
  obtain ⟨hd, rfl⟩ := validSplits_filter hv
  rw [RowOf.amounts hrows]
  exact h hd sum hs hz

/-- Values that are quantities need no condition of their own. -/
theorem Postable.offsets {splits : List CreateSplitRequest} (h : Postable splits)
    (he : ∀ sp ∈ splits, sp.quantity = sp.fraction) : Offsets splits := by
  intro hd sum hs
  have hr := h hd
  have hq : quantities splits = Antimoney.amounts splits :=
    List.map_congr_left fun sp hsp => he sp (List.mem_of_mem_filter hsp)
  obtain ⟨r, hr', hval, -⟩ := sum_exact hr.news hr.sums
  obtain rfl : sum = r := Option.some.inj (hs.symm.trans hr')
  rw [hq, neg_value (sum_num_ne hr.news hr.sums hr.negates hs), hval, add_neg_cancel]

theorem offsets_fromBody {req : CreateTransactionRequest} (h : Offsets req.splits) :
    Offsets req.fromBody.splits := by
  have ham : amounts req.fromBody.splits = amounts req.splits := by
    simp only [amounts, CreateTransactionRequest.fromBody, List.filter_map, List.map_map]
    rfl
  have hq : quantities req.fromBody.splits = quantities req.splits := by
    simp only [quantities, CreateTransactionRequest.fromBody, List.filter_map, List.map_map]
    rfl
  intro hd sum hs
  rw [hq]
  refine h (fun sp hsp hne => ?_) sum (ham ▸ hs)
  exact hd { sp with reconcileState := "" } (List.mem_map_of_mem hsp) hne

/-! ## Files -/

def ExportSplit.quantity (s : ExportSplit) : Fraction := (s.quantityNum, s.quantityDenom)

/-- The book of the account a text of the file names, once the file has replaced `book`. -/
def ExportData.bookOf (file : ExportData) (db : Db) (book : Guid) (t : GuidText) : Option Guid :=
  match lastAccount file.accounts t with
  | some _ => some book
  | none => t.parse.toOption.bind db.bookOf

/-- In each transaction of the file the quantities on the accounts of each book add up to zero. -/
def ExportData.Offset (file : ExportData) (db : Db) (book : Guid) : Prop :=
  ∀ t ∈ file.transactions, Antimoney.Offset
    (t.splits.map fun sp => (file.bookOf db book sp.accountGuid, sp.quantity.value))

section Restore

variable {x : Db} {book top : Guid} {file : ExportData} {root : Option Guid}
  {renamed : List (ExportAccount × Guid)} {txns : List ImportTransaction} {as : List Account}
  {ts : List Transaction} {ss : List Split}

/-- What the rows of a file add to which book. -/
theorem Lands.shareOf (h : Lands x book file root renamed txns as ts ss) (hk : x.Keyed)
    (hy : ((x.clearBook book).refill book top as ts ss).Keyed) {t : ExportTransaction}
    (ht : t ∈ file.transactions) {sp : ExportSplit} (hsp : sp ∈ t.splits) {s : Split} (hs : s ∈ ss)
    (hrow : (fileMap root renamed).SplitAs sp s) :
    ((x.clearBook book).refill book top as ts ss).shareOf s =
      (file.bookOf x book sp.accountGuid, sp.quantity.value) := by
  let y := (x.clearBook book).refill book top as ts ss
  have hamount : s.amount = sp.quantity.value := by
    rw [Split.amount, hrow.quantityNum, hrow.quantityDenom]
    rfl
  have hbook : y.bookOf s.accountGuid = file.bookOf x book sp.accountGuid := by
    unfold ExportData.bookOf
    rcases h.refers (ExportData.account_mem ht hsp) hrow.account with
      ⟨a, r, hlast, hr, hg, -⟩ | ⟨hlast, hparse, hnew⟩
    · have hr' : r ∈ y.accounts := List.mem_append_right _ hr
      rw [hlast, ← hg, Db.bookOf_of_mem hy.accounts hr']
      obtain ⟨p, -, hrow⟩ := exists_of_forall₂ h.accounts hr
      rw [hrow.bookGuid]
    · -- the account is one of another book
      have hs' : s ∈ y.splits := List.mem_append_right _ hs
      obtain ⟨a, ha, hg⟩ := List.any_eq_true.mp (hy.split_account s hs')
      have hg' : a.guid = s.accountGuid := beq_iff_eq.mp hg
      rw [hlast, hparse, ← hg', Db.bookOf_of_mem hy.accounts ha]
      have hcases : a ∈ deleteWhere (·.bookGuid == book) x.accounts ∨ a ∈ as :=
        List.mem_append.mp ha
      rcases hcases with ha | ha
      · exact (Db.bookOf_of_mem hk.accounts (mem_deleteWhere.mp ha).1).symm
      · exact absurd hg' (hnew a ha)
  exact Prod.ext hbook hamount

/-- **A file that offsets keeps the trial balance.** -/
theorem Lands.offset (h : Lands x book file root renamed txns as ts ss) (hk : x.Keyed)
    (hy : ((x.clearBook book).refill book top as ts ss).Keyed) (hx : x.Offset)
    (hfile : file.Offset x book) : ((x.clearBook book).refill book top as ts ss).Offset := by
  let y := (x.clearBook book).refill book top as ts ss
  let cleared := (x.deleteTransactions (·.bookGuid == book)).2
  have hb : x.KeepsBooks y := by
    intro a ha hthere
    have hcases : a ∈ deleteWhere (·.bookGuid == book) x.accounts ∨ a ∈ as := List.mem_append.mp ha
    rcases hcases with ha | ha
    · exact ⟨a, (mem_deleteWhere.mp ha).1, rfl, rfl⟩
    · obtain ⟨b, hb, hg⟩ := List.any_eq_true.mp hthere
      exact absurd (beq_iff_eq.mp hg) (Db.unused_account (h.account_new ha).1 b hb)
  have hold : cleared.splits.map (fun s => (s.txGuid, y.shareOf s)) =
      (cleared.journalBy x.shareOf).entries := by
    refine List.map_congr_left fun s hs => ?_
    have hs' : s ∈ y.splits := List.mem_append_left _ hs
    rw [Db.shareOf, Db.shareOf, hb.bookOf hk hy (List.mem_of_mem_filter hs) hs']
  have hshares : y.shares = ⟨(cleared.journalBy x.shareOf).keys ++ ts.map (·.guid),
      (cleared.journalBy x.shareOf).entries ++ ss.map fun s => (s.txGuid, y.shareOf s)⟩ := by
    rw [← hold]
    simp only [Db.shares, Db.journalBy, Journal.mk.injEq]
    exact ⟨List.map_append, List.map_append⟩
  unfold Db.Offset
  rw [hshares]
  refine (hx.delete (·.bookGuid == book)).append ?_ (fun e he => ?_) fun k hk' => ?_
  · have hn := hy.transactions
    rw [show y.transactions = cleared.transactions ++ ts from rfl, List.map_append] at hn
    exact hn
  · obtain ⟨s, hs, rfl⟩ := List.mem_map.mp he
    obtain ⟨r, hr, hg⟩ := h.split_transaction hs
    exact hg ▸ List.mem_map_of_mem hr
  · obtain ⟨r, hr, rfl⟩ := List.mem_map.mp hk'
    obtain ⟨t, ht, -, -, hsplits⟩ := exists_of_forall₂ h.transactions hr
    have hgroup : ((ss.map fun s => (s.txGuid, y.shareOf s)).filter fun e => e.1 = r.guid).map
        Prod.snd = t.splits.map fun sp =>
          (file.bookOf x book sp.accountGuid, sp.quantity.value) := by
      rw [List.filter_map, List.map_map, map_eq_iff_forall₂]
      have hfilter : ss.filter ((fun e : Guid × (Option Guid × ℚ) => decide (e.1 = r.guid)) ∘
          fun s => (s.txGuid, y.shareOf s)) = ss.filter (·.txGuid == r.guid) :=
        List.filter_congr fun s _ => by rw [Bool.eq_iff_iff]; simp
      rw [hfilter]
      refine (forall₂_mem (forall₂_mem_right hsplits)).flip.imp fun s sp hrow => ?_
      exact h.shareOf hk hy ht hrow.1 (List.mem_of_mem_filter hrow.2.1) hrow.2.2
    rw [hgroup]
    exact hfile t ht

end Restore

/-! ## Effects -/

/-- What an event is given offsets. -/
structure Event.KeepsOffset (e : Event) (db : Db) : Prop where
  create : ∀ cfg book req, e = .request cfg book (.createTransaction req) → Offsets req.splits
  update : ∀ cfg book id req, e = .request cfg book (.updateTransaction id req) →
    OffsetsZero req.splits
  file : ∀ book file, e.file db = some (book, file) → file.Offset db book

theorem Event.Requests.offsets {e : Event} {db : Db} {book : Guid} {req : CreateTransactionRequest}
    (h : e.Requests book req) (he : e.KeepsOffset db) : Offsets req.splits := by
  cases h with
  | body cfg book req => exact offsets_fromBody (he.create cfg book req rfl)
  | csv cfg book account rs r =>
    refine (postable_csv account r).offsets fun sp hsp => ?_
    obtain rfl := List.mem_singleton.mp hsp
    rfl
  | bank cfg book rows row bank st hst =>
    refine (postable_import hst).offsets fun sp hsp => ?_
    rcases List.mem_cons.mp hsp with rfl | hsp
    · rfl
    · obtain rfl := List.mem_singleton.mp hsp
      rfl

/-- **No effect of such an event disturbs the trial balance.** -/
theorem Effect.offset {e : Event} {s x y : Db} (h : Effect e s x y) (he : e.KeepsOffset s)
    (hk : x.Keyed) (hy : y.Keyed) (hx : x.Offset) : y.Offset := by
  cases h with
  | aside h =>
    refine hx.frame hk hy (fun b hb _ => ?_) h.transactions h.splits
    obtain ⟨a, ha, hab⟩ := exists_of_forall₂ h.accounts hb
    exact ⟨a, ha, hab.guid.symm, hab.bookGuid.symm⟩
  | @account a hnew hp =>
    refine hx.frame hk hy (fun b hb hthere => ?_) (by simp [Db.append]) (by simp [Db.append])
    rcases List.mem_append.mp (show b ∈ x.accounts ++ [a] from hb) with hb | hb
    · exact ⟨b, hb, rfl, rfl⟩
    · obtain rfl := List.mem_singleton.mp hb
      exact absurd (hnew.symm.trans hthere) (by simp)
  | drop h =>
    obtain ⟨rfl, -⟩ := Db.deleteAccounts_ok h
    exact hx.frame hk hy (.of_subset fun a ha => (mem_deleteWhere.mp ha).1) rfl rfl
  | delete c => exact hx.delete c
  | clear book =>
    let cleared := (x.deleteTransactions (·.bookGuid == book)).2
    have hb : x.KeepsBooks (x.clearBook book) := .of_subset fun a ha => (mem_deleteWhere.mp ha).1
    have hshares : (x.clearBook book).shares = cleared.journalBy x.shareOf := by
      refine congrArg (Journal.mk _) (List.map_congr_left fun sp hsp => ?_)
      rw [Db.shareOf, Db.shareOf, hb.bookOf hk hy (List.mem_of_mem_filter hsp) hsp]
    unfold Db.Offset
    rw [hshares]
    exact hx.delete (·.bookGuid == book)
  | @update cfg book g id req p now hreq hxs hg hp hhit href =>
    refine hx.frame hk hy (fun b hb _ => ?_) rfl rfl
    rcases mem_updateWhere_cases hb with ⟨hb, -⟩ | ⟨a, ha, -, rfl⟩
    · exact ⟨b, hb, rfl, rfl⟩
    · exact ⟨a, ha, rfl, rfl⟩
  | toggle | reconcile => exact hx.states _ _ _
  | @create book req t rows hreq hfresh hc hopen =>
    have hshareOf : (x.append [] [t] rows).shareOf = x.shareOf := by
      funext sp
      simp [Db.shareOf, Db.bookOf, Db.append]
    obtain ⟨_, _, _, -, -, -, -, hrows⟩ := hc.rows
    unfold Db.Offset Db.shares
    rw [hshareOf]
    exact Db.sound_append hx (hfresh t (by simp)).1 (RowOf.txGuids hrows)
      (offset_of_open hk hopen (hc.amounts (hreq.offsets he)))
  | @edit cfg book guid id req rows _ hreq hfound hc hu hopen =>
    have hshareOf : y.shareOf = x.shareOf := by
      funext sp
      rw [Db.shareOf, Db.shareOf, Db.bookOf, Db.bookOf, hu.accounts]
    obtain ⟨_, _, -, -, -, -, hrows⟩ := hc.rows
    unfold Db.Offset Db.shares
    rw [hshareOf]
    exact Db.sound_update hx hu hfound (RowOf.txGuids hrows)
      (offset_of_open hk hopen (hc.amounts (he.update _ _ _ _ hreq)))
  | restore hfile hsame h =>
    refine h.offset hk hy hx fun t ht => ?_
    have hbookOf : x.bookOf = s.bookOf := by
      funext g
      rw [Db.bookOf, Db.bookOf, hsame.accounts]
    have hoff := he.file _ _ hfile t ht
    unfold ExportData.bookOf at hoff ⊢
    rwa [hbookOf]

/-! ## Balances -/

/-- **The balances of a book add up to zero**: each is the shares of an account, and all of them are
the shares of every transaction. -/
theorem Db.Offset.trialBalance {db : Db} (h : db.Offset) (hk : db.Keyed) (book : Guid) :
    ((db.tree book none none).map (·.balance)).sum = 0 := by
  let accounts := db.accounts.filter (·.bookGuid == book)
  let here : Split → Bool := fun sp => db.bookOf sp.accountGuid == some book
  -- the splits of the book, by account
  let j : Journal Guid Split :=
    ⟨accounts.map (·.guid), (db.splits.filter here).map fun sp => (sp.accountGuid, sp)⟩
  have hbook : ∀ a ∈ accounts, a ∈ db.accounts ∧ a.bookGuid = book := by
    intro a ha
    obtain ⟨ha, hb⟩ := List.mem_filter.mp ha
    exact ⟨ha, beq_iff_eq.mp hb⟩
  have hgroup : ∀ a ∈ accounts, ((j.group a.guid).map Split.amount).sum =
      (db.accountBalance none none a).balance := by
    intro a ha
    obtain ⟨ha, hb⟩ := hbook a ha
    have hown : j.group a.guid = db.splits.filter (·.accountGuid == a.guid) := by
      simp only [j, Journal.group, List.filter_map, List.map_map, List.filter_filter,
        Function.comp_def, List.map_id']
      refine List.filter_congr fun sp _ => ?_
      by_cases hg : sp.accountGuid = a.guid
      · simp [here, hg, Db.bookOf_of_mem hk.accounts ha, hb]
      · simp [hg]
    rw [hown, ← sumQuantities_eq]
    simp [Db.accountBalance, inWindow, Function.comp_def]
  have hkeys : j.keys.Nodup := List.Sublist.nodup
    (List.filter_sublist.map _) hk.accounts
  have hclosed : ∀ e ∈ j.entries, e.1 ∈ j.keys := by
    intro e he
    obtain ⟨sp, hsp, rfl⟩ := List.mem_map.mp he
    obtain ⟨hsp, hb⟩ := List.mem_filter.mp hsp
    obtain ⟨a, ha, hg⟩ := List.any_eq_true.mp (hk.split_account sp hsp)
    have hg' : a.guid = sp.accountGuid := beq_iff_eq.mp hg
    have hbook : a.bookGuid = book := by
      have hsome := beq_iff_eq.mp hb
      rw [← hg', Db.bookOf_of_mem hk.accounts ha] at hsome
      exact Option.some.inj hsome
    exact List.mem_map.mpr ⟨a, List.mem_filter.mpr ⟨ha, by simp [hbook]⟩, hg'⟩
  have htree : ((db.tree book none none).map (·.balance)).sum =
      (accounts.map fun a => (db.accountBalance none none a).balance).sum := by
    unfold Db.tree
    rw [List.map_map]
    exact ((List.perm_insertionSort treeLe accounts).map _).sum_eq
  calc ((db.tree book none none).map (·.balance)).sum
      = (j.keys.map fun k => ((j.group k).map Split.amount).sum).sum := by
        rw [htree, List.map_map]
        exact congrArg _ (List.map_congr_left fun a ha => (hgroup a ha).symm)
    _ = ((db.splits.filter here).map Split.amount).sum := by
        rw [Journal.sum_groups _ hkeys hclosed, List.map_map]
        rfl
    _ = (db.shares.entries.map fun e => if e.2.1 = some book then e.2.2 else 0).sum := by
        simp only [Db.shares, Db.journalBy, List.map_map]
        induction db.splits with
        | nil => rfl
        | cons sp splits ih =>
          by_cases hb : db.bookOf sp.accountGuid = some book
          · simpa [here, hb, Db.shareOf] using ih
          · simpa [here, hb, Db.shareOf] using ih
    _ = (db.shares.keys.map fun k => ((db.shares.group k).map fun e =>
          if e.1 = some book then e.2 else 0).sum).sum :=
        (Journal.sum_groups (fun e : Option Guid × ℚ => if e.1 = some book then e.2 else 0)
          h.nodup h.closed).symm
    _ = 0 := by
        refine List.sum_eq_zero fun q hq => ?_
        obtain ⟨k, hk, rfl⟩ := List.mem_map.mp hq
        exact h.each k hk book

/-! ## Runs -/

/-- The condition on a step of a run. -/
def OffsetKept (e : Event) (envs : Nat → Env) (db : Db) : Prop :=
  e.KeepsOffset db ∧ Spared e envs db

theorem Db.offset_empty : Db.empty.Offset :=
  ⟨List.nodup_nil, fun _ h => absurd h (by simp [Db.shares, Db.journalBy, Db.empty]),
    fun _ h => absurd h (by simp [Db.shares, Db.journalBy, Db.empty])⟩

theorem Runs.offset {db : Db} (hr : Runs OffsetKept db) : db.Offset :=
  hr.by_effects (fun _ _ _ h => h.2) Db.offset_empty
    fun _ _ _ h _ _ _ _ hk hy hx he => he.offset h.1 hk hy hx

/-- **The trial balance.** In every state of every run whose events are given what offsets, the
balances of the tree without dates, of all accounts of a book, add up to zero. -/
theorem runs_trialBalance {db : Db} (hr : Runs OffsetKept db) :
    ∀ cfg book envs rows db',
      mayServe (Event.request cfg book (.listAccounts none none)).call envs db = true →
      serve (Event.request cfg book (.listAccounts none none)).call envs db =
        (.ok (.accounts rows), db') →
      rows.length = (db.accounts.filter (·.bookGuid == book)).length →
      (rows.map (·.balance)).sum = 0 := by
  intro cfg book envs rows db' _ hs hall
  have htree : rows = db.tree book none none := by
    refine (serve_listAccounts hs).eq_of_length ?_
    simp [hall, Db.tree, List.length_insertionSort]
  rw [htree]
  exact hr.offset.trialBalance hr.keyed book

/-- No transaction is asked for, and no file imported. -/
theorem offsetKept_of {e : Event} {envs : Nat → Env} {db : Db}
    (hc : ∀ cfg book req, e ≠ .request cfg book (.createTransaction req))
    (hu : ∀ cfg book id req, e ≠ .request cfg book (.updateTransaction id req))
    (hf : e.file db = none) : OffsetKept e envs db :=
  ⟨⟨fun _ _ _ he => absurd he (hc _ _ _), fun _ _ _ _ he => absurd he (hu _ _ _ _),
    fun _ _ h => absurd (hf.symm.trans h) (by simp)⟩,
    fun _ _ h => absurd (hf.symm.trans h) (by simp)⟩

/-- After a purchase two balances are not zero, and their sum is. -/
theorem runs_trialBalance_purchased :
    ((purchased.tree 3 none none).filter (·.balance != 0)).length = 2 ∧
      ((purchased.tree 3 none none).map (·.balance)).sum = 0 := by
  have hr : Runs OffsetKept purchased := by
    refine .step _ _ (registered_runs ?_) (by decide +kernel) ⟨⟨?_, ?_, ?_⟩, ?_⟩
    · exact offsetKept_of (fun _ _ _ h => Event.noConfusion h) (fun _ _ _ _ h => Event.noConfusion h)
        rfl
    · intro cfg book req he _ sum hsum
      obtain ⟨-, -, hreq⟩ := Event.request.inj he
      obtain rfl := Request.createTransaction.inj hreq
      have hgate : gateSum (amounts (purchaseSplits 1000)) = some ⟨0, 1⟩ := by decide +kernel
      obtain rfl := Option.some.inj (hgate.symm.trans hsum)
      decide +kernel
    · exact fun _ _ _ _ h => absurd (Event.request.inj h).2.2 (by simp)
    · exact fun _ _ h => absurd h (by simp [Event.file])
    · exact fun _ _ h => absurd h (by simp [Event.file])
  have hserve : serve (Event.request plainConfig 3 (.listAccounts none none)).call (calm 200)
      purchased = (.ok (.accounts (purchased.tree 3 none none)), purchased) := by
    decide +kernel
  exact ⟨by decide +kernel, runs_trialBalance hr plainConfig 3 (calm 200) _ _ (by decide +kernel)
    hserve (by decide +kernel)⟩

/-- A purchase whose values balance and whose quantities do not. -/
def lopsided : Db :=
  (serve (Event.request plainConfig 3 (.createTransaction
    ⟨"", ⟨19000, 0⟩, "food", none,
      [⟨Guid.text 12, "", -1000, 100, -1000, 100, ""⟩, ⟨Guid.text 18, "", 1000, 100, 2000, 100, ""⟩]⟩)).call
    (calm 100) registered).2

/-- That purchase leaves balances that do not add up to zero. -/
theorem runs_no_trialBalance : ¬ ∀ db, Runs (fun _ _ _ => True) db →
    ∀ cfg book envs rows db',
      mayServe (Event.request cfg book (.listAccounts none none)).call envs db = true →
      serve (Event.request cfg book (.listAccounts none none)).call envs db =
        (.ok (.accounts rows), db') →
      rows.length = (db.accounts.filter (·.bookGuid == book)).length →
      (rows.map (·.balance)).sum = 0 := by
  intro h
  have hr : Runs (fun _ _ _ => True) lopsided :=
    .step _ _ (registered_runs trivial) (by decide +kernel) trivial
  have hserve : serve (Event.request plainConfig 3 (.listAccounts none none)).call (calm 200)
      lopsided = (.ok (.accounts (lopsided.tree 3 none none)), lopsided) := by
    decide +kernel
  have hsum := h lopsided hr plainConfig 3 (calm 200) _ _ (by decide +kernel) hserve
    (by decide +kernel)
  have hne : ((lopsided.tree 3 none none).map (·.balance)).sum ≠ 0 := by decide +kernel
  exact hne hsum

end Antimoney
