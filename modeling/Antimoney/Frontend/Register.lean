import Antimoney.Lib.Totals
import Antimoney.Register.Ties

/-!
# The register as it is shown

`utils/registerSort.ts` and the entries of `pages/AccountRegister.tsx`: each page is merged into the
entries shown, which are sorted with `compareEntries`.

Instants of `post_date` are compared as their texts in UTC compare. How `localeCompare` with
`{ numeric: true, sensitivity: 'base' }` orders two ids depends on the browser's locale, so it is a
parameter that is a consistent comparator (`Collates`). `Array.prototype.sort` is stable.

* `Paging.Showing.reading`: what is shown is what is loaded, sorted.
* `listed_balance`: the server lists exact running balances.
* **`showing_addsUp_iff`**: the balances shown add up exactly when every entry is overtaken by the
  same amount.
-/

namespace Antimoney

open Antimoney.Lib Antimoney.Gnc Prog

/-! ## Sorting -/

/-- A consistent comparator. -/
structure Collates (localeCompare : String → String → Int) : Prop where
  swap : ∀ a b, localeCompare a b < 0 ↔ 0 < localeCompare b a
  trans : ∀ a b c, localeCompare a b ≤ 0 → localeCompare b c ≤ 0 → localeCompare a c ≤ 0

/-- `compareEntries`. -/
def compareEntries (localeCompare : String → String → Int) (a b : RegisterEntry) : Int :=
  if a.postDate < b.postDate then -1
  else if b.postDate < a.postDate then 1
  else localeCompare a.customId b.customId

/-- Not after, as `compareEntries` says. -/
def shownLe (localeCompare : String → String → Int) (a b : RegisterEntry) : Prop :=
  compareEntries localeCompare a b ≤ 0

instance (localeCompare : String → String → Int) : DecidableRel (shownLe localeCompare) :=
  fun a b => inferInstanceAs (Decidable (compareEntries localeCompare a b ≤ 0))

/-- `entries.sort(compareEntries)`. -/
def sortEntries (localeCompare : String → String → Int) (entries : List RegisterEntry) :
    List RegisterEntry :=
  entries.insertionSort (shownLe localeCompare)

/-! ## The page -/

/-- What `AccountRegister` keeps of the entries. -/
structure Screen where
  entries : List RegisterEntry
  hasBefore : Bool
  hasAfter : Bool
  firstOffset : Int
  lastOffset : Int

/-- `loadInitialData`. -/
def Screen.loadInitialData (localeCompare : String → String → Int) (page : RegisterPage) :
    Screen where
  entries := sortEntries localeCompare page.entries
  hasBefore := page.hasBefore
  hasAfter := page.hasAfter
  firstOffset := page.firstOffset
  lastOffset := page.lastOffset

/-- `newEntries.filter(e => !existingGuids.has(e.split_guid))`. -/
def unseenEntries (prev new : List RegisterEntry) : List RegisterEntry :=
  new.filter fun e => !(prev.map (·.splitGuid)).contains e.splitGuid

/-- `loadMore('before')`. -/
def Screen.loadBefore (localeCompare : String → String → Int) (page : RegisterPage)
    (s : Screen) : Screen :=
  if page.entries.isEmpty then { s with hasBefore := false }
  else
    let unique := unseenEntries s.entries page.entries
    { s with
      entries :=
        if unique.isEmpty then s.entries else sortEntries localeCompare (unique ++ s.entries)
      hasBefore := page.hasBefore
      firstOffset := page.firstOffset }

/-- `loadMore('after')`. -/
def Screen.loadAfter (localeCompare : String → String → Int) (page : RegisterPage)
    (s : Screen) : Screen :=
  if page.entries.isEmpty then { s with hasAfter := false }
  else
    let unique := unseenEntries s.entries page.entries
    { s with
      entries :=
        if unique.isEmpty then s.entries else sortEntries localeCompare (s.entries ++ unique)
      hasAfter := page.hasAfter
      lastOffset := page.lastOffset }

/-- **What may be shown** after so many times loading more. -/
inductive Paging.Showing (localeCompare : String → String → Int) (g : Paging)
    (T : (Guid → Nat) → Prop) (db : Db) : Nat → Screen → Prop
  | start {envs : Nat → Env} {page : RegisterPage} (he : Supplied T envs)
      (hs : serve (g.ask (.date g.day) .around) envs db = (.ok (.registerPage page), db)) :
      Showing localeCompare g T db 0 (.loadInitialData localeCompare page)
  | before {n : Nat} {s : Screen} {envs : Nat → Env} {page : RegisterPage}
      (hr : Showing localeCompare g T db n s) (hmore : s.hasBefore = true) (he : Supplied T envs)
      (hs : serve (g.ask (.offset s.firstOffset) .before) envs db =
        (.ok (.registerPage page), db)) :
      Showing localeCompare g T db (n + 1) (s.loadBefore localeCompare page)
  | after {n : Nat} {s : Screen} {envs : Nat → Env} {page : RegisterPage}
      (hr : Showing localeCompare g T db n s) (hmore : s.hasAfter = true) (he : Supplied T envs)
      (hs : serve (g.ask (.offset s.lastOffset) .after) envs db =
        (.ok (.registerPage page), db)) :
      Showing localeCompare g T db (n + 1) (s.loadAfter localeCompare page)

/-! ## Amounts and balances, as `Register` shows them -/

/-- `isCreditNormal` of the frontend. -/
def isCreditNormal (accountType : String) : Bool :=
  accountType == "LIABILITY" || accountType == "CREDIT" || accountType == "INCOME" ||
    accountType == "EQUITY"

/-- The quantity behind the two columns. -/
def RegisterEntry.quantity (accountType : String) (e : RegisterEntry) : ℚ :=
  if isDebitNormal accountType then e.deposit.getD 0 - e.withdrawal.getD 0
  else e.withdrawal.getD 0 - e.deposit.getD 0

/-- `displayBalance`. -/
def displayBalance (accountType : String) (e : RegisterEntry) : ℚ :=
  if isCreditNormal accountType then -e.balance else e.balance

/-- An entry's amount with the sign of the balances shown. -/
def displayAmount (accountType : String) (e : RegisterEntry) : ℚ :=
  if isCreditNormal accountType then -e.quantity accountType else e.quantity accountType

/-! ## The order shown -/

section Order

variable {localeCompare : String → String → Int} {a b c : RegisterEntry}

theorem shownLe_iff : shownLe localeCompare a b ↔ a.postDate < b.postDate ∨
    (a.postDate = b.postDate ∧ localeCompare a.customId b.customId ≤ 0) := by
  unfold shownLe compareEntries
  by_cases hlt : a.postDate < b.postDate
  · simp [hlt]
  · by_cases hgt : b.postDate < a.postDate
    · have hne : ¬ a.postDate = b.postDate := ne_of_gt hgt
      simp [hlt, hgt, hne]
    · have heq : a.postDate = b.postDate := le_antisymm (not_lt.mp hgt) (not_lt.mp hlt)
      simp [heq]

theorem Collates.total (h : Collates localeCompare) : Std.Total (shownLe localeCompare) where
  total a b := by
    rw [shownLe_iff, shownLe_iff]
    rcases lt_trichotomy a.postDate b.postDate with hlt | heq | hgt
    · exact Or.inl (Or.inl hlt)
    · rcases le_or_gt (localeCompare a.customId b.customId) 0 with hle | hgt
      · exact Or.inl (Or.inr ⟨heq, hle⟩)
      · exact Or.inr (Or.inr ⟨heq.symm, ((h.swap _ _).mpr hgt).le⟩)
    · exact Or.inr (Or.inl hgt)

theorem Collates.isTrans (h : Collates localeCompare) :
    IsTrans RegisterEntry (shownLe localeCompare) where
  trans a b c hab hbc := by
    rw [shownLe_iff] at hab hbc ⊢
    rcases hab with hlt | ⟨heq, hle⟩
    · rcases hbc with hlt' | ⟨heq', -⟩
      · exact Or.inl (lt_trans hlt hlt')
      · exact Or.inl (heq' ▸ hlt)
    · rcases hbc with hlt' | ⟨heq', hle'⟩
      · exact Or.inl (heq ▸ hlt')
      · exact Or.inr ⟨heq.trans heq', h.trans _ _ _ hle hle'⟩

theorem sortEntries_perm (entries : List RegisterEntry) :
    (sortEntries localeCompare entries).Perm entries := List.perm_insertionSort _ _

end Order

/-! ## What is shown is what is loaded -/

section Shown

variable {localeCompare : String → String → Int} {prev new : List RegisterEntry}

/-- Nothing is dropped where the guids are new. -/
theorem unseenEntries_eq {loaded : List RegisterEntry} (hp : prev.Perm loaded)
    (h : ∀ e ∈ new, ∀ e' ∈ loaded, e.splitGuid ≠ e'.splitGuid) :
    unseenEntries prev new = new := by
  refine List.filter_eq_self.mpr fun e he => ?_
  simp only [Bool.not_eq_true', List.contains_eq_mem, decide_eq_false_iff_not, List.mem_map,
    not_exists, not_and]
  intro e' he' hg
  exact h e he e' (hp.mem_iff.mp he') hg.symm

/-- A screen shows what a reader has loaded. -/
structure Screen.Shows (localeCompare : String → String → Int) (s : Screen) (r : Reader) :
    Prop where
  entries : s.entries = sortEntries localeCompare r.entries
  hasBefore : s.hasBefore = r.hasBefore
  hasAfter : s.hasAfter = r.hasAfter
  firstOffset : s.firstOffset = r.firstOffset
  lastOffset : s.lastOffset = r.lastOffset

theorem Screen.shows_start (page : RegisterPage) :
    (Screen.loadInitialData localeCompare page).Shows localeCompare (.start page) where
  entries := by
    unfold Reader.entries Reader.start
    rw [List.flatten_singleton]
    rfl
  hasBefore := rfl
  hasAfter := rfl
  firstOffset := rfl
  lastOffset := rfl

variable {s : Screen} {r : Reader} {page : RegisterPage}

theorem Screen.Shows.before (hlc : Collates localeCompare) (h : s.Shows localeCompare r)
    (hn : ((r.before page).entries.map (·.splitGuid)).Nodup) :
    (s.loadBefore localeCompare page).Shows localeCompare (r.before page) := by
  have htotal := hlc.total
  have htrans := hlc.isTrans
  unfold Screen.loadBefore Reader.before at *
  by_cases he : page.entries.isEmpty
  · rw [if_pos he, if_pos he]
    exact { h with hasBefore := rfl }
  · rw [if_neg he] at hn
    rw [if_neg he, if_neg he]
    have hnew : ∀ e ∈ page.entries, ∀ e' ∈ r.entries, e.splitGuid ≠ e'.splitGuid := by
      intro e hmem e' hmem' hg
      unfold Reader.entries at hn hmem'
      rw [List.flatten_cons, List.map_append] at hn
      exact (List.nodup_append.mp hn).2.2 _ (List.mem_map_of_mem hmem) _
        (List.mem_map_of_mem hmem') hg
    have hunseen := unseenEntries_eq (h.entries ▸ sortEntries_perm r.entries) hnew
    refine { h with entries := ?_, hasBefore := rfl, firstOffset := rfl }
    dsimp only
    rw [hunseen, if_neg he, h.entries]
    exact insertionSort_append_sorted page.entries r.entries

theorem Screen.Shows.after (hlc : Collates localeCompare) (h : s.Shows localeCompare r)
    (hn : ((r.after page).entries.map (·.splitGuid)).Nodup) :
    (s.loadAfter localeCompare page).Shows localeCompare (r.after page) := by
  have htotal := hlc.total
  have htrans := hlc.isTrans
  unfold Screen.loadAfter Reader.after at *
  by_cases he : page.entries.isEmpty
  · rw [if_pos he, if_pos he]
    exact { h with hasAfter := rfl }
  · rw [if_neg he] at hn
    rw [if_neg he, if_neg he]
    have hflat : (r.pages ++ [page.entries]).flatten = r.entries ++ page.entries := by
      rw [List.flatten_append, List.flatten_singleton]
      rfl
    have hnew : ∀ e ∈ page.entries, ∀ e' ∈ r.entries, e.splitGuid ≠ e'.splitGuid := by
      intro e hmem e' hmem' hg
      unfold Reader.entries at hn
      rw [hflat, List.map_append] at hn
      exact (List.nodup_append.mp hn).2.2 _ (List.mem_map_of_mem hmem') _
        (List.mem_map_of_mem hmem) hg.symm
    have hunseen := unseenEntries_eq (h.entries ▸ sortEntries_perm r.entries) hnew
    refine { h with entries := ?_, hasAfter := rfl, lastOffset := rfl }
    dsimp only
    rw [hunseen, if_neg he, h.entries]
    unfold Reader.entries
    rw [hflat]
    exact insertionSort_sorted_append r.entries page.entries

/-- **What is shown is what is loaded**, sorted. -/
theorem Paging.Showing.reading {g : Paging} {T : (Guid → Nat) → Prop} {db : Db} {n : Nat}
    (hlc : Collates localeCompare)
    (hn : ∀ n r, g.Reading T db n r → (r.entries.map (·.splitGuid)).Nodup)
    (h : g.Showing localeCompare T db n s) :
    ∃ r, g.Reading T db n r ∧ s.Shows localeCompare r := by
  induction h with
  | start he hs => exact ⟨_, .start he hs, Screen.shows_start _⟩
  | before _ hmore he hs ih =>
    obtain ⟨r, hr, hshows⟩ := ih
    rw [hshows.firstOffset] at hs
    have hr' := Reading.before hr (hshows.hasBefore ▸ hmore) he hs
    exact ⟨_, hr', hshows.before hlc (hn _ _ hr')⟩
  | after _ hmore he hs ih =>
    obtain ⟨r, hr, hshows⟩ := ih
    rw [hshows.lastOffset] at hs
    have hr' := Reading.after hr (hshows.hasAfter ▸ hmore) he hs
    exact ⟨_, hr', hshows.after hlc (hn _ _ hr')⟩

end Shown

/-! ## The balances the server lists -/

section Listed

variable {ty : String} {acc : Numeric} {db : Db} {account : Guid}
  {l m rows : List (Transaction × Split)} {entries : List RegisterEntry}

@[simp] theorem quantity_entryOf (r : Transaction × Split) (amount balance : Numeric) :
    (entryOf ty r amount balance).quantity ty = amount.value := by
  rw [← toFloat64_eq]
  unfold RegisterEntry.quantity entryOf depositWithdrawal
  by_cases ht : isDebitNormal ty = true
  · rcases le_or_gt 0 (toFloat64 amount) with h | h
    · simp [ht, h]
    · simp [ht, not_le.mpr h]
  · rcases le_or_gt (toFloat64 amount) 0 with h | h
    · simp [ht, h]
    · simp [ht, not_le.mpr h]

@[simp] theorem quantity_transferred (e : RegisterEntry) :
    (db.transferred account e).quantity ty = e.quantity ty := rfl

/-- Each balance is the one before it and the entry's quantity, where the arithmetic is exact. -/
theorem registerEntries_balance (hn : NewsExact ((l ++ m).map (·.2.qty)))
    (hf : PartialSumsFit ((l ++ m).map (·.2.qty))) (hd : acc.denom ≠ 0)
    (hv : acc.value = exactSum (l.map (·.2.qty))) (h : registerEntries ty acc m = some entries)
    {a b : List RegisterEntry} {e : RegisterEntry} (he : entries = a ++ e :: b) :
    e.balance = acc.value + (a.map (RegisterEntry.quantity ty)).sum + e.quantity ty := by
  induction m generalizing l acc entries a with
  | nil =>
    obtain rfl := Option.some.inj h
    exact absurd he (by simp)
  | cons r m ih =>
    have happ : l ++ r :: m = (l ++ [r]) ++ m := by simp
    obtain ⟨v, ham, hvd, hvv⟩ := rowAmount_exact (hn r.2.qty (by simp))
    have hsum : acc.value + v.value = exactSum ((l ++ [r]).map (·.2.qty)) := by
      rw [hv, hvv, List.map_append, exactSum_append, List.map_singleton, exactSum_cons,
        exactSum_nil, add_zero]
    have hfit : Fits (acc.value + v.value) := by
      rw [hsum]
      refine hf _ ?_
      rw [happ, @List.map_append _ _ _ (l ++ [r])]
      exact List.prefix_append _ _
    obtain ⟨hval, hden⟩ := fromBigRat_value hfit
    rw [registerEntries_cons, ham, Option.bind_some, add_eq hd hvd, Option.bind_some] at h
    obtain ⟨rest, hrest, rfl⟩ := Option.map_eq_some_iff.mp h
    cases a with
    | nil =>
      obtain ⟨rfl, rfl⟩ := List.cons.inj he
      rw [quantity_entryOf, List.map_nil, List.sum_nil, add_zero]
      exact (toFloat64_eq _).trans hval
    | cons x a =>
      obtain ⟨rfl, rfl⟩ := List.cons.inj he
      rw [happ] at hn hf
      rw [ih hn hf hden (hval.trans hsum) hrest rfl, hval, List.map_cons, List.sum_cons,
        quantity_entryOf, add_assoc acc.value]

/-- **The server lists exact running balances.** -/
theorem listed_balance (hn : NewsExact (rows.map (·.2.qty)))
    (hf : PartialSumsFit (rows.map (·.2.qty)))
    (h : registerEntries ty .zero rows = some entries) {a b : List RegisterEntry}
    {e : RegisterEntry} (he : entries.map (db.transferred account) = a ++ e :: b) :
    e.balance = (a.map (RegisterEntry.quantity ty)).sum + e.quantity ty := by
  obtain ⟨a', rest, rfl, rfl, hrest⟩ := List.map_eq_append_iff.mp he
  obtain ⟨e', b', rfl, rfl, rfl⟩ := List.map_eq_cons_iff.mp hrest
  have hbalance := registerEntries_balance (l := []) hn hf (by decide) zero_value h rfl
  rw [zero_value, zero_add] at hbalance
  rw [List.map_map, quantity_transferred]
  exact hbalance

/-- The same of what is shown of an account of this type, in a stretch of the entries. -/
theorem listed_displayBalance {lo hi : Nat} (hlo : lo ≤ hi) (hn : NewsExact (rows.map (·.2.qty)))
    (hf : PartialSumsFit (rows.map (·.2.qty)))
    (h : registerEntries ty .zero rows = some entries) {a b : List RegisterEntry}
    {e : RegisterEntry}
    (he : slice (entries.map (db.transferred account)) lo hi = a ++ e :: b) :
    displayBalance ty e =
      (((entries.map (db.transferred account)).take lo).map (displayAmount ty)).sum +
        (a.map (displayAmount ty)).sum + displayAmount ty e := by
  have hsplit : entries.map (db.transferred account) =
      ((entries.map (db.transferred account)).take lo ++ a) ++
        e :: (b ++ (entries.map (db.transferred account)).drop hi) := by
    conv_lhs => rw [← List.take_append_drop hi (entries.map (db.transferred account)),
      take_eq_append_slice _ hlo, he]
    simp
  have hbalance := listed_balance hn hf h hsplit
  rw [List.map_append, List.sum_append] at hbalance
  by_cases hc : isCreditNormal ty = true
  · have hneg : displayAmount ty = fun e => -e.quantity ty := funext fun e => if_pos hc
    have hsum : ∀ l : List RegisterEntry, (l.map fun e => -e.quantity ty).sum =
        -(l.map (RegisterEntry.quantity ty)).sum := by
      intro l
      induction l with
      | nil => simp
      | cons x l ih =>
        rw [List.map_cons, List.sum_cons, ih, List.map_cons, List.sum_cons]
        ring
    rw [displayBalance, if_pos hc, hneg, hsum, hsum, hbalance]
    ring
  · have hpos : displayAmount ty = RegisterEntry.quantity ty := funext fun e => if_neg hc
    rw [displayBalance, if_neg hc, hpos, hbalance]

end Listed

/-- **The balances shown add up** exactly when every entry is overtaken by the same amount, in any
register whose arithmetic is exact and whose ties keep one order, after any number of loads. -/
theorem showing_addsUp_iff {localeCompare : String → String → Int} (hlc : Collates localeCompare)
    {g : Paging} {db : Db} {account : Guid} {ty : String} {ties : Guid → Nat}
    (hkeys : (db.splits.map (·.guid)).Nodup) (hpos : 1 ≤ g.limit) (hmul : g.limit * 3 < 2 ^ 63)
    (hnamed : db.accountNamed g.book g.id = some (account, ty))
    (hn : NewsExact ((db.pagedRows account g.book ties).map (·.2.qty)))
    (hf : PartialSumsFit ((db.pagedRows account g.book ties).map (·.2.qty))) :
    ∃ entries, registerEntries ty .zero (db.pagedRows account g.book ties) = some entries ∧
      ∀ n s, g.Showing localeCompare (· = ties) db n s → ∃ lo hi, lo ≤ hi ∧
        s.entries.Perm (slice (entries.map (db.transferred account)) lo hi) ∧
        (AddsUp (displayBalance ty) (displayAmount ty) s.entries ↔
          ∃ c, ∀ a e b, slice (entries.map (db.transferred account)) lo hi = a ++ e :: b →
            overtaken (shownLe localeCompare) (displayAmount ty) a e b = c) := by
  have htotal := hlc.total
  have htrans := hlc.isTrans
  obtain ⟨entries, -, hentries, -⟩ := @entries_exact ty .zero [] _ hn hf (by decide)
    zero_value
  have hready : g.Ready db account ty := ⟨hpos, hmul, hnamed⟩
  have hguids : ((entries.map (db.transferred account)).map (·.splitGuid)).Nodup := by
    have hrows : entries.map (·.splitGuid) =
        (db.pagedRows account g.book ties).map fun r => r.2.guid :=
      registerEntries_map (fun _ _ _ => rfl) hentries
    have hperm := (List.perm_insertionSort (registerLe ties) (db.registerRows account g.book)).map
      fun r => r.2.guid
    have hsame : ((entries.map (db.transferred account)).map (·.splitGuid)) =
        entries.map (·.splitGuid) := by
      rw [List.map_map]
      rfl
    rw [hsame, hrows]
    exact hperm.nodup_iff.mpr (registerRows_nodup hkeys account g.book)
  have hloaded : ∀ n r, g.Reading (· = ties) db n r → ∃ lo hi, lo ≤ hi ∧
      r.entries = slice (entries.map (db.transferred account)) lo hi := by
    intro n r hr
    obtain ⟨lo, hi, hc, -⟩ := hready.reading_covers hr
    exact ⟨lo, hi, hc.tiles.le, hc.entries_eq hentries⟩
  have hnodup : ∀ n r, g.Reading (· = ties) db n r → (r.entries.map (·.splitGuid)).Nodup := by
    intro n r hr
    obtain ⟨lo, hi, -, hslice⟩ := hloaded n r hr
    rw [hslice, ← slice_map]
    exact hguids.sublist ((List.take_sublist _ _).trans (List.drop_sublist _ _))
  refine ⟨entries, hentries, fun n s hs => ?_⟩
  obtain ⟨r, hr, hshows⟩ := hs.reading hlc hnodup
  obtain ⟨lo, hi, hle, hslice⟩ := hloaded n r hr
  refine ⟨lo, hi, hle, ?_, ?_⟩
  · rw [hshows.entries, ← hslice]
    exact sortEntries_perm r.entries
  · rw [hshows.entries, hslice]
    exact addsUp_insertionSort_iff fun a e b he => listed_displayBalance hle hn hf hentries he

/-- Two purchases on one day, under these custom ids. -/
def purchasedTwice (id id' : String) : Db :=
  let purchase := fun id : String => (Event.request plainConfig 3 (.createTransaction
    ⟨id, ⟨19000, 0⟩, "food", none, purchaseSplits 1000⟩)).call
  (serve (purchase id') (calm 200) (serve (purchase id) (calm 100) registered).2).2

/-- The number of a digit string. -/
def digits (s : String) : Nat := s.toList.foldl (fun n c => 10 * n + (c.toNat - '0'.toNat)) 0

/-- `localeCompare` with `numeric`, on digit strings. -/
def numericCompare (a b : String) : Int := (digits a : Int) - digits b

theorem collates_numericCompare : Collates numericCompare where
  swap a b := by
    unfold numericCompare
    omega
  trans a b c := by
    unfold numericCompare
    omega

/-- The register of account 12, fifty entries around the day of the purchases. -/
def accountPage : Paging := ⟨plainConfig, 3, Guid.text 12, 19000, 50⟩

/-- The entries of account 12 after purchases with the ids `1` and `2`. -/
def purchasedTwiceEntries : List RegisterEntry :=
  [⟨103, "1", 1641639600, "food", "", none, none, some 10, -10, "", 106, "n"⟩,
    ⟨203, "2", 1641639600, "food", "", none, none, some 10, -20, "", 206, "n"⟩]

/-- With the ids `1` and `2` the server's order is the one shown, and the balances add up. -/
theorem showing_addsUp_purchasedTwice : Collates numericCompare ∧
    ∀ n s, accountPage.Showing numericCompare (· = fun _ => 0) (purchasedTwice "1" "2") n s →
      AddsUp (displayBalance "BANK") (displayAmount "BANK") s.entries := by
  have hnamed : (purchasedTwice "1" "2").accountNamed accountPage.book accountPage.id =
      some (12, "BANK") := by decide +kernel
  have hqty : ((purchasedTwice "1" "2").pagedRows 12 3 fun _ => 0).map (·.2.qty) =
      [(-1000, 100), (-1000, 100)] := by decide +kernel
  have hfit : PartialSumsFit [(-1000, 100), (-1000, 100)] := by
    simp only [PartialSumsFit, ← List.mem_inits]
    decide +kernel
  have hlisted : registerEntries "BANK" .zero ((purchasedTwice "1" "2").pagedRows 12 3 fun _ => 0) =
      some purchasedTwiceEntries := by decide +kernel
  have horder : (purchasedTwiceEntries.map ((purchasedTwice "1" "2").transferred 12)).Pairwise
      (shownLe numericCompare) := by decide +kernel
  have hnews : NewsExact [(-1000, 100), (-1000, 100)] :=
    List.forall_mem_cons.mpr ⟨by decide, List.forall_mem_singleton.mpr (by decide)⟩
  obtain ⟨entries, hentries, hshown⟩ := showing_addsUp_iff (g := accountPage)
    collates_numericCompare (by decide +kernel) (by decide) (by decide) hnamed
    (hqty ▸ hnews) (hqty ▸ hfit)
  obtain rfl := Option.some.inj (hlisted.symm.trans hentries)
  refine ⟨collates_numericCompare, fun n s hs => ?_⟩
  obtain ⟨lo, hi, -, -, hiff⟩ := hshown n s hs
  refine hiff.mpr ⟨0, fun a e b he => overtaken_of_pairwise (he ▸ horder.sublist ?_)⟩
  exact (List.take_sublist _ _).trans (List.drop_sublist _ _)

/-- With `9` and `10` they do not: the server lists `10` first. -/
theorem showing_not_addsUp : ∃ db s, Runs (fun _ _ _ => True) db ∧
    accountPage.Showing numericCompare (· = fun _ => 0) db 0 s ∧
    ¬ AddsUp (displayBalance "BANK") (displayAmount "BANK") s.entries := by
  have hr : Runs (fun _ _ _ => True) (purchasedTwice "9" "10") :=
    .step _ _ (.step _ _ (registered_runs trivial) (by decide +kernel) trivial)
      (by decide +kernel) trivial
  have hserved : serve (accountPage.ask (.date 19000) .around) (calm 300)
      (purchasedTwice "9" "10") = (.ok (.registerPage (registerPageAt
        [⟨203, "10", 1641639600, "food", "Alimentação", some 18, none, some 10, -10, "", 206, "n"⟩,
          ⟨103, "9", 1641639600, "food", "Alimentação", some 18, none, some 10, -20, "", 106, "n"⟩]
        0 2)), purchasedTwice "9" "10") := by decide +kernel
  refine ⟨_, _, hr, .start ⟨calm_answers 300, fun n => rfl⟩ hserved, ?_⟩
  unfold AddsUp
  decide +kernel

end Antimoney
