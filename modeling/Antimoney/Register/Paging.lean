import Antimoney.Concurrent
import Antimoney.Register.Answers
import Mathlib.Data.Nat.ModEq

/-!
# Paging through a register

`loadInitialData` and `loadMore` of `pages/AccountRegister.tsx`: a reader asks for the page around a
day, then for the page before its first offset while there is one, and for the page after its last
offset while there is one, in any order.

The pages cover consecutive stretches of rows, whichever order of ties each query is run under
(`Paging.reading_covers`): an invariant with one lemma for each of the three requests. When all
queries are run under one order the pages make up the register (**`paging_tiles`**).
-/

namespace Antimoney

open Antimoney.Lib Antimoney.Gnc Prog

/-! ## A reader -/

/-- What is loaded of a register: the pages in register order, and how to ask for more. -/
structure Reader where
  pages : List (List RegisterEntry)
  hasBefore : Bool
  hasAfter : Bool
  firstOffset : Int
  lastOffset : Int

/-- The page around a day. -/
def Reader.start (page : RegisterPage) : Reader :=
  ⟨[page.entries], page.hasBefore, page.hasAfter, page.firstOffset, page.lastOffset⟩

/-- `loadMore('before')`. -/
def Reader.before (r : Reader) (page : RegisterPage) : Reader :=
  if page.entries.isEmpty then { r with hasBefore := false }
  else { r with pages := page.entries :: r.pages, hasBefore := page.hasBefore,
                firstOffset := page.firstOffset }

/-- `loadMore('after')`. -/
def Reader.after (r : Reader) (page : RegisterPage) : Reader :=
  if page.entries.isEmpty then { r with hasAfter := false }
  else { r with pages := r.pages ++ [page.entries], hasAfter := page.hasAfter,
                lastOffset := page.lastOffset }

/-- Everything loaded. -/
def Reader.entries (r : Reader) : List RegisterEntry := r.pages.flatten

/-- A register to page through, around a day. -/
structure Paging where
  cfg : PlaidConfig
  book : Guid
  id : GuidText
  day : Day
  limit : Int

/-- The request for a page. -/
def Paging.ask (g : Paging) (cursor : PageCursor) (direction : Direction) : Call Response :=
  (Event.request g.cfg g.book (.registerPage g.id cursor direction g.limit)).call

/-- The database answers, with ties ordered as `T` allows. -/
structure Supplied (T : (Guid → Nat) → Prop) (envs : Nat → Env) : Prop where
  answers : ∀ n, (envs n).Answers
  ties : ∀ n, T (envs n).ties

/-- **What a reader may have loaded** after so many requests for more. -/
inductive Paging.Reading (g : Paging) (T : (Guid → Nat) → Prop) (db : Db) : Nat → Reader → Prop
  | start {envs : Nat → Env} {page : RegisterPage} (he : Supplied T envs)
      (hs : serve (g.ask (.date g.day) .around) envs db = (.ok (.registerPage page), db)) :
      Reading g T db 0 (.start page)
  | before {n : Nat} {r : Reader} {envs : Nat → Env} {page : RegisterPage}
      (hr : Reading g T db n r) (hmore : r.hasBefore = true) (he : Supplied T envs)
      (hs : serve (g.ask (.offset r.firstOffset) .before) envs db =
        (.ok (.registerPage page), db)) :
      Reading g T db (n + 1) (r.before page)
  | after {n : Nat} {r : Reader} {envs : Nat → Env} {page : RegisterPage}
      (hr : Reading g T db n r) (hmore : r.hasAfter = true) (he : Supplied T envs)
      (hs : serve (g.ask (.offset r.lastOffset) .after) envs db =
        (.ok (.registerPage page), db)) :
      Reading g T db (n + 1) (r.after page)

/-! ## The invariant -/

/-- The pages cover the rows from `lo` to `hi`, of `total`, and the offsets and flags say so. -/
structure Reader.Covers (R : Nat → Nat → List RegisterEntry → Prop) (total lo hi : Nat)
    (r : Reader) : Prop where
  tiles : Tiles R lo hi r.pages
  le_total : hi ≤ total
  first : r.firstOffset = lo
  last : hi < total → r.lastOffset = (hi : Int) - 1
  hasBefore : r.hasBefore = decide (0 < lo)
  hasAfter : r.hasAfter = decide (hi < total)

section Covers

variable {R : Nat → Nat → List RegisterEntry → Prop} {total lo hi a b : Nat} {r : Reader}
  {es : List RegisterEntry}

theorem Reader.covers_start (hab : a ≤ b) (hb : b ≤ total) (hend : a = b → b = total)
    (hlen : es.length = b - a) (hes : R a b es) :
    (Reader.start (registerPageAt es a total)).Covers R total a b := by
  have hempty : es.isEmpty = true ↔ a = b := by
    rw [List.isEmpty_iff_length_eq_zero, hlen]
    omega
  refine ⟨.single hab hes, hb, rfl, ?_, ?_, ?_⟩
  · intro hlt
    have hne : ¬ es.isEmpty = true := by
      rw [hempty]
      omega
    simp only [Reader.start, registerPageAt, if_neg hne, hlen]
    omega
  · simp only [Reader.start, registerPageAt]
    congr 1
    simp
  · simp only [Reader.start, registerPageAt]
    split
    · have := hempty.mp ‹_›
      simp only [decide_eq_decide]
      omega
    · have := mt hempty.mpr ‹_›
      simp only [decide_eq_decide, hlen]
      omega

theorem Reader.Covers.before (h : r.Covers R total lo hi) (ha : a < lo)
    (hlen : es.length = lo - a) (hes : R a lo es) :
    (r.before (registerPageAt es a total)).Covers R total a hi := by
  have hne : ¬ es.isEmpty = true := by
    rw [List.isEmpty_iff_length_eq_zero, hlen]
    omega
  unfold Reader.before
  simp only [registerPageAt, if_neg hne]
  refine ⟨.cons (by omega) hes h.tiles, h.le_total, rfl, h.last, ?_, h.hasAfter⟩
  simp

theorem Reader.Covers.after (h : r.Covers R total lo hi) (hb : hi < b) (hbt : b ≤ total)
    (hlen : es.length = b - hi) (hes : R hi b es) :
    (r.after (registerPageAt es hi total)).Covers R total lo b := by
  have hne : ¬ es.isEmpty = true := by
    rw [List.isEmpty_iff_length_eq_zero, hlen]
    omega
  unfold Reader.after
  simp only [registerPageAt, if_neg hne]
  refine ⟨h.tiles.append (.single (by omega) hes), hbt, h.first, ?_, h.hasBefore, ?_⟩
  · intro _
    simp only [hlen]
    omega
  · simp only [decide_eq_decide, hlen]
    omega

end Covers

/-! ## The three requests -/

/-- What a register must be for its pages to be asked for. -/
structure Paging.Ready (g : Paging) (db : Db) (account : Guid) (ty : String) : Prop where
  limit_pos : 1 ≤ g.limit
  limit_lt : g.limit * 3 < 2 ^ 63
  named : db.accountNamed g.book g.id = some (account, ty)

section Requests

variable {g : Paging} {T : (Guid → Nat) → Prop} {db : Db} {account : Guid} {ty : String}
  {envs : Nat → Env}

/-- The number of rows the pages are taken from. -/
def Paging.total (g : Paging) (db : Db) (account : Guid) : Nat :=
  (db.registerRows account g.book).length

theorem Paging.total_eq_length (g : Paging) (ties : Guid → Nat) :
    g.total db account = (db.pagedRows account g.book ties).length := by
  simp [Paging.total, Db.pagedRows, List.length_insertionSort]

/-- Where the page around the day starts. -/
def Paging.startOffset (g : Paging) (db : Db) (account : Guid) : Nat :=
  db.countBefore account g.book g.day - (g.limit * 3 / 4).toNat

/-- Where a page that starts at a position stops. -/
def Paging.stop (g : Paging) (db : Db) (account : Guid) (a : Nat) : Nat :=
  min (a + g.limit.toNat) (g.total db account)

theorem Paging.stop_le (g : Paging) (a : Nat) : g.stop db account a ≤ g.total db account :=
  Nat.min_le_right _ _

theorem Paging.le_stop {a : Nat} (h : a ≤ g.total db account) : a ≤ g.stop db account a :=
  Nat.le_min.mpr ⟨Nat.le_add_right _ _, h⟩

/-- The entries of a page from position `a` up to `b`. -/
def Paging.page (g : Paging) (db : Db) (account : Guid) (ty : String) (a b : Nat)
    (before rows : Guid → Nat) : Option (List RegisterEntry) :=
  db.pageEntries account g.book ty a b before rows

/-- A page request is answered with a page of these entries, or panics. -/
def Paging.Answered (g : Paging) (T : (Guid → Nat) → Prop) (db : Db) (account : Guid)
    (ty : String) (cursor : PageCursor) (direction : Direction) (a b : Nat) : Prop :=
  ∀ envs, Supplied T envs → ∃ before rows, T before ∧ T rows ∧
    serve (g.ask cursor direction) envs db =
      ((orPanicked (g.page db account ty a b before rows)).map fun es =>
        .registerPage (registerPageAt es a (g.total db account)), db)

theorem slice_min {α : Type} (l : List α) (a b : Nat) : slice l a (min b l.length) = slice l a b := by
  by_cases h : b ≤ l.length
  · rw [Nat.min_eq_left h]
  · rw [Nat.min_eq_right (by omega), slice_eq_of_le (le_refl _), slice_eq_of_le (by omega)]

/-- A page does not go past the last row. -/
theorem Paging.page_min (a b : Nat) (before rows : Guid → Nat) :
    g.page db account ty a (min b (g.total db account)) before rows =
      g.page db account ty a b before rows := by
  unfold Paging.page Db.pageEntries
  rw [g.total_eq_length rows, slice_min]

theorem Paging.Ready.answered (h : g.Ready db account ty) {cursor : PageCursor}
    {direction : Direction} {a n : Nat} (hn : 0 < n)
    (hw : ∀ envs : Nat → Env, (∀ n, (envs n).Answers) →
      (pageWindow account g.book cursor direction g.limit).Yields machine envs db
        (· = .ok ((a : Int), (n : Int)))) :
    g.Answered T db account ty cursor direction a (min (a + n) (g.total db account)) := by
  intro envs he
  obtain ⟨before, rows, hb, hr, hs⟩ := serve_registerPage (lt_of_lt_of_le one_pos h.limit_pos) he.answers he.ties h.named hn hw
  refine ⟨before, rows, hb, hr, ?_⟩
  rw [page_min]
  exact hs

theorem Paging.Ready.around (h : g.Ready db account ty) :
    g.Answered T db account ty (.date g.day) .around (g.startOffset db account)
      (g.stop db account (g.startOffset db account)) := by
  have h1 := h.limit_pos
  refine h.answered (by omega) fun envs ha => ?_
  have hstart : (g.startOffset db account : Int) =
      max ((db.countBefore account g.book g.day : Int) - g.limit * 3 / 4) 0 := by
    unfold Paging.startOffset
    omega
  have hlimit : (g.limit.toNat : Int) = g.limit := by omega
  rw [hstart, hlimit]
  exact around_yields ha (by omega) h.limit_lt

theorem Paging.Ready.before (h : g.Ready db account ty) {lo : Nat} (hlo : 0 < lo)
    (hle : lo ≤ g.total db account) :
    g.Answered T db account ty (.offset lo) .before (lo - g.limit.toNat) lo := by
  have h1 := h.limit_pos
  have hstop : min (lo - g.limit.toNat + (lo - (lo - g.limit.toNat))) (g.total db account) = lo := by
    omega
  have hwindow : ∀ envs : Nat → Env, (∀ n, (envs n).Answers) →
      (pageWindow account g.book (.offset lo) .before g.limit).Yields machine envs db
        (· = .ok (((lo - g.limit.toNat : Nat) : Int), ((lo - (lo - g.limit.toNat) : Nat) : Int))) := by
    intro envs _
    unfold pageWindow
    dsimp only
    by_cases hneg : (lo : Int) - g.limit < 0
    · rw [if_pos hneg]
      refine yields_ret (congrArg _ (Prod.ext ?_ ?_))
      · dsimp only
        omega
      · dsimp only
        omega
    · rw [if_neg hneg]
      refine yields_ret (congrArg _ (Prod.ext ?_ ?_))
      · dsimp only
        omega
      · dsimp only
        omega
  have hanswered := h.answered (T := T) (by omega) hwindow
  rwa [hstop] at hanswered

theorem Paging.Ready.after (h : g.Ready db account ty) {hi : Nat} :
    g.Answered T db account ty (.offset ((hi : Int) - 1)) .after hi
      (g.stop db account hi) := by
  have h1 := h.limit_pos
  refine h.answered (by omega) fun envs _ => ?_
  unfold pageWindow
  dsimp only
  refine yields_ret (congrArg _ (Prod.ext ?_ ?_))
  · dsimp only
    omega
  · dsimp only
    omega

/-- The page that is received. -/
theorem Paging.Answered.received {cursor : PageCursor} {direction : Direction} {a b : Nat}
    (h : g.Answered T db account ty cursor direction a b) (hb : b ≤ g.total db account)
    (he : Supplied T envs) {page : RegisterPage}
    (hs : serve (g.ask cursor direction) envs db = (.ok (.registerPage page), db)) :
    ∃ es before rows, T before ∧ T rows ∧ g.page db account ty a b before rows = some es ∧
      es.length = b - a ∧ page = registerPageAt es a (g.total db account) := by
  obtain ⟨before, rows, hbefore, hrows, hs'⟩ := h envs he
  rw [hs] at hs'
  cases hpage : g.page db account ty a b before rows with
  | none =>
    rw [hpage] at hs'
    exact absurd (congrArg Prod.fst hs') (by simp [orPanicked, Except.map])
  | some es =>
    rw [hpage] at hs'
    have hpage' := Response.registerPage.inj (Except.ok.inj (congrArg Prod.fst hs'))
    obtain ⟨prior, -, hes⟩ := Option.bind_eq_some_iff.mp hpage
    obtain ⟨entries, hentries, rfl⟩ := Option.map_eq_some_iff.mp hes
    refine ⟨_, before, rows, hbefore, hrows, hpage, ?_, hpage'⟩
    rw [List.length_map, registerEntries_length hentries,
      slice_length (g.total_eq_length rows ▸ hb)]

variable {R : Nat → Nat → List RegisterEntry → Prop} {r : Reader} {page : RegisterPage}
  {lo hi : Nat}

theorem Paging.startOffset_le : g.startOffset db account ≤ g.total db account :=
  (Nat.sub_le _ _).trans List.countP_le_length

/-- The pages of a reader: at most as long as the limit, and cut where the page around the day is,
or at an end of the register. -/
structure Paging.Window (g : Paging) (db : Db) (account : Guid) (a b : Nat) : Prop where
  le : b ≤ a + g.limit.toNat
  left : a ≡ g.startOffset db account [MOD g.limit.toNat] ∨ a = 0
  right : b ≡ g.startOffset db account [MOD g.limit.toNat] ∨ b = g.total db account
  either : a ≡ g.startOffset db account [MOD g.limit.toNat] ∨
    b ≡ g.startOffset db account [MOD g.limit.toNat]

theorem Paging.window_from {a : Nat}
    (ha : a ≡ g.startOffset db account [MOD g.limit.toNat]) :
    g.Window db account a (g.stop db account a) := by
  refine ⟨Nat.min_le_left _ _, .inl ha, ?_, .inl ha⟩
  unfold Paging.stop
  rcases Nat.le_total (a + g.limit.toNat) (g.total db account) with h | h
  · rw [Nat.min_eq_left h]
    exact .inl (Nat.add_modEq_right.trans ha)
  · exact .inr (Nat.min_eq_right h)

theorem Paging.window_to {b : Nat}
    (hb : b ≡ g.startOffset db account [MOD g.limit.toNat]) :
    g.Window db account (b - g.limit.toNat) b := by
  refine ⟨by omega, ?_, .inl hb, .inr hb⟩
  rcases Nat.le_total b g.limit.toNat with h | h
  · exact .inr (Nat.sub_eq_zero_of_le h)
  · refine .inl (Nat.ModEq.trans ?_ hb)
    have hsub : b - g.limit.toNat + g.limit.toNat = b := Nat.sub_add_cancel h
    calc b - g.limit.toNat ≡ b - g.limit.toNat + g.limit.toNat [MOD g.limit.toNat] :=
          Nat.add_modEq_right.symm
      _ = b := hsub

theorem Paging.Ready.start_covers (h : g.Ready db account ty) (he : Supplied T envs)
    (hs : serve (g.ask (.date g.day) .around) envs db = (.ok (.registerPage page), db)) :
    ∃ es before rows, T before ∧ T rows ∧
      g.page db account ty (g.startOffset db account)
        (g.stop db account (g.startOffset db account)) before rows = some es ∧
      (R (g.startOffset db account) (g.stop db account (g.startOffset db account)) es →
        (Reader.start page).Covers R (g.total db account) (g.startOffset db account)
          (g.stop db account (g.startOffset db account))) := by
  have h1 := h.limit_pos
  have hle : g.startOffset db account ≤ g.total db account := Paging.startOffset_le
  obtain ⟨es, before, rows, hbefore, hrows, hpage, hlen, rfl⟩ :=
    h.around.received (g.stop_le _) he hs
  refine ⟨es, before, rows, hbefore, hrows, hpage, fun hes => ?_⟩
  unfold Paging.stop at hlen hes ⊢
  exact Reader.covers_start (by omega) (by omega) (by omega) hlen hes

theorem Paging.Ready.before_covers (h : g.Ready db account ty)
    (hc : r.Covers R (g.total db account) lo hi) (hmore : r.hasBefore = true)
    (he : Supplied T envs)
    (hs : serve (g.ask (.offset r.firstOffset) .before) envs db =
      (.ok (.registerPage page), db)) :
    ∃ es before rows, T before ∧ T rows ∧
      g.page db account ty (lo - g.limit.toNat) lo before rows = some es ∧
      (R (lo - g.limit.toNat) lo es →
        (r.before page).Covers R (g.total db account) (lo - g.limit.toNat) hi) := by
  have h1 := h.limit_pos
  have hlo : 0 < lo := by simpa [hc.hasBefore] using hmore
  have hle : lo ≤ g.total db account := hc.tiles.le.trans hc.le_total
  rw [hc.first] at hs
  obtain ⟨es, before, rows, hbefore, hrows, hpage, hlen, rfl⟩ :=
    (h.before hlo hle).received hle he hs
  exact ⟨es, before, rows, hbefore, hrows, hpage, hc.before (by omega) hlen⟩

theorem Paging.Ready.lt_stop (h : g.Ready db account ty)
    (hc : r.Covers R (g.total db account) lo hi) (hmore : r.hasAfter = true) :
    hi < g.total db account ∧ hi < g.stop db account hi := by
  have h1 := h.limit_pos
  have hhi : hi < g.total db account := by simpa [hc.hasAfter] using hmore
  unfold Paging.stop
  exact ⟨hhi, by omega⟩

theorem Paging.Ready.after_covers (h : g.Ready db account ty)
    (hc : r.Covers R (g.total db account) lo hi) (hmore : r.hasAfter = true)
    (he : Supplied T envs)
    (hs : serve (g.ask (.offset r.lastOffset) .after) envs db =
      (.ok (.registerPage page), db)) :
    ∃ es before rows, T before ∧ T rows ∧
      g.page db account ty hi (g.stop db account hi) before rows = some es ∧
      (R hi (g.stop db account hi) es →
        (r.after page).Covers R (g.total db account) lo (g.stop db account hi)) := by
  obtain ⟨hhi, hstop⟩ := h.lt_stop hc hmore
  rw [hc.last hhi] at hs
  obtain ⟨es, before, rows, hbefore, hrows, hpage, hlen, rfl⟩ :=
    h.after.received (g.stop_le _) he hs
  exact ⟨es, before, rows, hbefore, hrows, hpage, hc.after hstop (g.stop_le _) hlen⟩

/-- **What is loaded covers consecutive rows**, at least one for each request for more. -/
theorem Paging.Ready.reading_covers (h : g.Ready db account ty) {n : Nat}
    (hr : g.Reading T db n r) : ∃ lo hi,
      r.Covers (fun a b es => g.Window db account a b ∧ ∃ before rows, T before ∧ T rows ∧
        g.page db account ty a b before rows = some es) (g.total db account) lo hi ∧
      (lo ≡ g.startOffset db account [MOD g.limit.toNat] ∨ lo = 0) ∧
      (hi ≡ g.startOffset db account [MOD g.limit.toNat] ∨ hi = g.total db account) ∧
      n ≤ hi - lo := by
  have h1 := h.limit_pos
  induction hr with
  | start he hs =>
    obtain ⟨es, before, rows, hbefore, hrows, hpage, hcov⟩ := h.start_covers he hs
    have hw : g.Window db account _ _ := Paging.window_from Nat.ModEq.rfl
    exact ⟨_, _, hcov ⟨hw, before, rows, hbefore, hrows, hpage⟩, hw.left, hw.right, Nat.zero_le _⟩
  | before _ hmore he hs ih =>
    obtain ⟨lo, hi, hc, hl, hr, hn⟩ := ih
    obtain ⟨es, before, rows, hbefore, hrows, hpage, hcov⟩ := h.before_covers hc hmore he hs
    have hlo : 0 < lo := by simpa [hc.hasBefore] using hmore
    have hle := hc.tiles.le
    have hw : g.Window db account (lo - g.limit.toNat) lo :=
      Paging.window_to (hl.resolve_right (by omega))
    exact ⟨_, hi, hcov ⟨hw, before, rows, hbefore, hrows, hpage⟩, hw.left, hr, by omega⟩
  | after _ hmore he hs ih =>
    obtain ⟨lo, hi, hc, hl, hr, hn⟩ := ih
    obtain ⟨es, before, rows, hbefore, hrows, hpage, hcov⟩ := h.after_covers hc hmore he hs
    obtain ⟨hhi, hstop⟩ := h.lt_stop hc hmore
    have hle := hc.tiles.le
    have hw : g.Window db account hi (g.stop db account hi) :=
      Paging.window_from (hr.resolve_right (by omega))
    exact ⟨lo, _, hcov ⟨hw, before, rows, hbefore, hrows, hpage⟩, hl, hw.right, by omega⟩

end Requests

/-! ## One order of ties -/

/-- The splits of an account are in transactions of a book. -/
def Db.SplitsIn (db : Db) (account book : Guid) : Prop :=
  ∀ s ∈ db.splits, s.accountGuid = account → ∀ t ∈ db.transactions, t.guid = s.txGuid →
    t.bookGuid = book

theorem Db.SplitsIn.pagedRows {db : Db} {account book : Guid} (h : db.SplitsIn account book)
    (ties : Guid → Nat) : db.pagedRows account book ties = db.register account ties := by
  have hrows : db.registerRows account book = db.joinTxns fun _ s => s.accountGuid == account := by
    unfold Db.registerRows Db.joinTxns
    refine List.filterMap_congr fun s hs => ?_
    cases ht : db.transactions.find? (·.guid == s.txGuid) with
    | none => rfl
    | some t =>
      by_cases ha : s.accountGuid = account
      · have hguid : t.guid = s.txGuid := by simpa using List.find?_some ht
        simp [h s hs ha t (List.mem_of_find?_eq_some ht) hguid]
      · simp [ha]
  unfold Db.pagedRows Db.register
  rw [hrows]

section Tiled

variable {g : Paging} {db : Db} {account : Guid} {ty : String} {ties : Guid → Nat}
  {entries : List RegisterEntry}

/-- A page is a slice of the entries. -/
theorem Paging.page_paged
    (hentries : registerEntries ty .zero (db.pagedRows account g.book ties) = some entries)
    {a b : Nat} (hab : a ≤ b) (hb : b ≤ g.total db account) :
    g.page db account ty a b ties ties =
      some (slice (entries.map (db.transferred account)) a b) := by
  rw [g.total_eq_length ties] at hb
  obtain ⟨prior, hprior, hslice⟩ := registerEntries_slice hentries hab hb
  unfold Paging.page Db.pageEntries
  rw [hprior, Option.bind_some, hslice, Option.map_some, slice_map]

/-- What is loaded is a stretch of the entries. -/
theorem Reader.Covers.entries_eq {r : Reader} {lo hi : Nat}
    (hentries : registerEntries ty .zero (db.pagedRows account g.book ties) = some entries)
    (hc : r.Covers (fun a b es => g.Window db account a b ∧ ∃ before rows, before = ties ∧
      rows = ties ∧ g.page db account ty a b before rows = some es) (g.total db account) lo hi) :
    r.entries = slice (entries.map (db.transferred account)) lo hi := by
  have hle := hc.le_total
  have htiles : Tiles (fun a b p => p = slice (entries.map (db.transferred account)) a b)
      lo hi r.pages := by
    refine hc.tiles.mono fun a b p _ hab hb hp => ?_
    obtain ⟨-, _, _, rfl, rfl, hp⟩ := hp
    rw [Paging.page_paged hentries hab (by omega)] at hp
    exact (Option.some.inj hp).symm
  exact htiles.flatten_eq

/-- A page of the register is a slice of it. -/
theorem Paging.page_slice (hown : db.SplitsIn account g.book)
    (hentries : registerEntries ty .zero (db.register account ties) = some entries) {a b : Nat}
    (hab : a ≤ b) (hb : b ≤ g.total db account) :
    g.page db account ty a b ties ties =
      some (slice (entries.map (db.transferred account)) a b) := by
  rw [← hown.pagedRows] at hentries
  exact Paging.page_paged hentries hab hb

theorem Paging.total_eq (hown : db.SplitsIn account g.book)
    (hentries : registerEntries ty .zero (db.register account ties) = some entries) :
    g.total db account = entries.length := by
  rw [registerEntries_length hentries, ← hown.pagedRows, ← g.total_eq_length]

/-- Under one order of ties every request for a page is answered. -/
theorem Paging.Answered.page (hown : db.SplitsIn account g.book)
    (hentries : registerEntries ty .zero (db.register account ties) = some entries)
    {cursor : PageCursor} {direction : Direction} {a b : Nat}
    (h : g.Answered (· = ties) db account ty cursor direction a b) (hab : a ≤ b)
    (hb : b ≤ g.total db account) {envs : Nat → Env} (he : Supplied (· = ties) envs) :
    ∃ page, serve (g.ask cursor direction) envs db = (.ok (.registerPage page), db) := by
  obtain ⟨_, _, rfl, rfl, hs⟩ := h envs he
  rw [Paging.page_slice hown hentries hab hb] at hs
  exact ⟨_, hs⟩

/-- **Paging tiles the register.** Under one order of ties, whatever is asked for next is answered;
there are at most as many requests for more as rows; and when no more is to be asked for, the pages
make up the register, entry by entry. -/
theorem paging_tiles {db' : Db} {envs : Nat → Env} {full : List RegisterEntry}
    (hpos : 1 ≤ g.limit) (hmul : g.limit * 3 < 2 ^ 63)
    (hown : ∀ account ty, db.accountNamed g.book g.id = some (account, ty) →
      db.SplitsIn account g.book)
    (ht : (envs 1).ties = ties)
    (hs : serve (Event.request g.cfg g.book (.register g.id)).call envs db =
      (.ok (.register full), db')) :
    (∀ envs, Supplied (· = ties) envs → ∃ page,
      serve (g.ask (.date g.day) .around) envs db = (.ok (.registerPage page), db)) ∧
    ∀ n r, g.Reading (· = ties) db n r → n ≤ full.length ∧
      (r.hasBefore = true → ∀ envs, Supplied (· = ties) envs → ∃ page,
        serve (g.ask (.offset r.firstOffset) .before) envs db = (.ok (.registerPage page), db)) ∧
      (r.hasAfter = true → ∀ envs, Supplied (· = ties) envs → ∃ page,
        serve (g.ask (.offset r.lastOffset) .after) envs db = (.ok (.registerPage page), db)) ∧
      (r.hasBefore = false → r.hasAfter = false → r.entries = full) := by
  obtain ⟨account, ty, entries, hnamed, hentries, rfl⟩ := serve_register hs
  rw [ht] at hentries
  have hown := hown account ty hnamed
  have hready : g.Ready db account ty := ⟨hpos, hmul, hnamed⟩
  have htotal := Paging.total_eq hown hentries
  have hstart : g.startOffset db account ≤ g.total db account := Paging.startOffset_le
  constructor
  · intro envs he
    exact hready.around.page hown hentries (Paging.le_stop hstart) (g.stop_le _) he
  · intro n r hr
    obtain ⟨lo, hi, hc, -, -, hn⟩ := hready.reading_covers hr
    have hlohi := hc.tiles.le
    have hle := hc.le_total
    refine ⟨?_, fun hb envs he => ?_, fun ha envs he => ?_, fun hb ha => ?_⟩
    · rw [List.length_map]
      omega
    · have hlo : 0 < lo := by simpa [hc.hasBefore] using hb
      rw [hc.first]
      exact (hready.before hlo (by omega)).page hown hentries (by omega) (by omega) he
    · have hhi : hi < g.total db account := by simpa [hc.hasAfter] using ha
      rw [hc.last hhi]
      exact hready.after.page hown hentries (Paging.le_stop (by omega)) (g.stop_le _) he
    · have hlo : lo = 0 := by simpa [hc.hasBefore] using hb
      have hhi : hi = g.total db account := by
        have : ¬ hi < g.total db account := by simpa [hc.hasAfter] using ha
        omega
      rw [← hown.pagedRows] at hentries
      rw [hc.entries_eq hentries, hlo, hhi, htotal, ← List.length_map (db.transferred account),
        slice_all]

/-- The register of a purchase. -/
def purchasedEntries : List RegisterEntry :=
  [⟨103, "", 1641639600, "food", "Alimentação", some 18, none, some 10, -10, "", 106, "n"⟩]

theorem purchased_register :
    serve (Event.request plainConfig 3 (.register (Guid.text 12))).call (calm 200) purchased =
      (.ok (.register purchasedEntries), purchased) := by
  decide +kernel

theorem purchased_splitsIn : purchased.SplitsIn 12 3 := by
  unfold Db.SplitsIn
  decide +kernel

/-- The register of a purchase, a row at a time from the day after it: the page around that day is
empty, and the one before it has the row. -/
theorem paging_tiles_purchased : purchased.accountNamed 3 (Guid.text 12) = some (12, "BANK") ∧
    ∀ n r, (Paging.mk plainConfig 3 (Guid.text 12) 19001 1).Reading (· = fun _ => 0) purchased n r →
      n ≤ 1 ∧ (r.hasBefore = false → r.hasAfter = false → r.entries = purchasedEntries) := by
  have hnamed : purchased.accountNamed 3 (Guid.text 12) = some (12, "BANK") := by decide +kernel
  have hown : ∀ account ty, purchased.accountNamed 3 (Guid.text 12) = some (account, ty) →
      purchased.SplitsIn account 3 := by
    intro account ty h
    obtain ⟨rfl, -⟩ := Prod.mk.inj (Option.some.inj (hnamed.symm.trans h))
    exact purchased_splitsIn
  refine ⟨hnamed, fun n r hr => ?_⟩
  obtain ⟨hn, -, -, hdone⟩ := (paging_tiles (g := ⟨plainConfig, 3, Guid.text 12, 19001, 1⟩)
    (by decide) (by decide) hown rfl purchased_register).2 n r hr
  exact ⟨hn, hdone⟩

end Tiled

end Antimoney
