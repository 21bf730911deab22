import Antimoney.Register.Exact
import Antimoney.Register.Order
import Antimoney.Register.Paging
import Mathlib.Logic.Equiv.Basic

/-!
# Paging while ties move

Each query of a register may return the rows that compare equal under its `ORDER BY` in an order of
its own. The keys at each position are the same under every order (`pagedRows_keys`), so rows before
a position between two different keys are the same, up to order (`take_perm`).

When no page starts between rows with equal keys, the pages have each split once, and their balances
are running balances of one ordering; when one does, some orders show a split twice
(**`ties_agree`**).
-/

namespace Antimoney

open Antimoney.Lib Antimoney.Gnc Prog

/-- The keys of a register, in order. -/
def Db.sortKeys (db : Db) (account book : Guid) : List (ℤ ×ₗ String ×ₗ ℤ) :=
  ((db.registerRows account book).map sortKey).insertionSort (· ≤ ·)

/-- Ties by guid. -/
def byGuid : Guid → Nat := fun g => g

/-! ## Positions between keys -/

section Keys

variable {db : Db} {account book : Guid} {ties ties' : Guid → Nat}

theorem Db.sortKeys_length (db : Db) (account book : Guid) :
    (db.sortKeys account book).length = (db.registerRows account book).length := by
  simp [Db.sortKeys, List.length_insertionSort]

/-- The keys at each position do not depend on the order of ties. -/
theorem pagedRows_keys (ties : Guid → Nat) :
    (db.pagedRows account book ties).map sortKey = db.sortKeys account book := by
  have hperm : ((db.pagedRows account book ties).map sortKey).Perm (db.sortKeys account book) :=
    ((List.perm_insertionSort _ _).map sortKey).trans (List.perm_insertionSort _ _).symm
  refine hperm.eq_of_pairwise (fun a b _ _ h h' => le_antisymm h h') ?_
    (List.pairwise_insertionSort _ _)
  exact List.pairwise_map.mpr
    ((List.pairwise_insertionSort _ _).imp sortKey_le_of_registerLe)

/-- Where a sorted list steps up, the elements below the step are those before it. -/
theorem countP_of_step {κ : Type} [LinearOrder κ] {l : List κ} (hs : l.Pairwise (· ≤ ·)) {b : Nat}
    {x y : κ} (h0 : 0 < b) (hx : l[b - 1]? = some x) (hy : l[b]? = some y) (hne : x ≠ y) :
    l.countP (fun k => decide (k < y)) = b := by
  obtain ⟨hb, rfl⟩ := List.getElem?_eq_some_iff.mp hy
  obtain ⟨hb', rfl⟩ := List.getElem?_eq_some_iff.mp hx
  have hle := List.pairwise_iff_getElem.mp hs
  have hlt : l[b - 1] < l[b] := lt_of_le_of_ne (hle _ _ hb' hb (by omega)) hne
  have hbefore : ∀ k ∈ l.take b, decide (k < l[b]) = true := by
    intro k hk
    obtain ⟨i, hi, rfl⟩ := List.mem_iff_getElem.mp hk
    rw [List.length_take] at hi
    rw [List.getElem_take]
    rcases Nat.lt_or_ge i (b - 1) with h | h
    · exact decide_eq_true (lt_of_le_of_lt (hle i (b - 1) (by omega) hb' h) hlt)
    · obtain rfl : i = b - 1 := by omega
      exact decide_eq_true hlt
  have hafter : ∀ k ∈ l.drop b, ¬ decide (k < l[b]) = true := by
    intro k hk
    obtain ⟨i, hi, rfl⟩ := List.mem_iff_getElem.mp hk
    rw [List.length_drop] at hi
    rw [List.getElem_drop, decide_eq_true_eq, not_lt]
    rcases Nat.eq_zero_or_pos i with rfl | h
    · exact le_of_eq rfl
    · exact hle b (b + i) hb (by omega) (by omega)
  calc l.countP (fun k => decide (k < l[b]))
      = (l.take b).countP (fun k => decide (k < l[b])) +
          (l.drop b).countP (fun k => decide (k < l[b])) := by
        rw [← List.countP_append, List.take_append_drop]
    _ = b := by
        rw [List.countP_eq_length.mpr hbefore, List.countP_eq_zero.mpr hafter, List.length_take]
        omega

/-- A position between different keys, or at an end. -/
def Db.Between (db : Db) (account book : Guid) (b : Nat) : Prop :=
  0 < b → b < (db.registerRows account book).length →
    (db.sortKeys account book)[b - 1]? ≠ (db.sortKeys account book)[b]?

/-- **The rows before a position between keys** are the same under every order of ties. -/
theorem take_perm {b : Nat} (hb : db.Between account book b) (ties ties' : Guid → Nat) :
    ((db.pagedRows account book ties).take b).Perm ((db.pagedRows account book ties').take b) := by
  have hperm : ∀ ties, (db.pagedRows account book ties).Perm (db.registerRows account book) :=
    fun ties => List.perm_insertionSort _ _
  rcases Nat.eq_zero_or_pos b with rfl | h0
  · simp
  rcases Nat.lt_or_ge b (db.registerRows account book).length with hlt | hge
  · have hlen := db.sortKeys_length account book
    obtain ⟨x, hx⟩ : ∃ x, (db.sortKeys account book)[b - 1]? = some x :=
      ⟨_, List.getElem?_eq_getElem (by omega)⟩
    obtain ⟨y, hy⟩ : ∃ y, (db.sortKeys account book)[b]? = some y :=
      ⟨_, List.getElem?_eq_getElem (by omega)⟩
    have hne : x ≠ y := fun e => hb h0 hlt (by rw [hx, hy, e])
    have htake : ∀ ties, (db.pagedRows account book ties).take b =
        (db.pagedRows account book ties).filter fun r => decide (sortKey r < y) := by
      intro ties
      have hcount : (db.pagedRows account book ties).countP (fun r => decide (sortKey r < y)) = b := by
        have hkeys := congrArg (List.countP fun k => decide (k < y))
          (pagedRows_keys ties : (db.pagedRows account book ties).map sortKey = _)
        rw [List.countP_map] at hkeys
        exact hkeys.trans (countP_of_step (List.pairwise_insertionSort _ _) h0 hx hy hne)
      rw [filter_eq_take, hcount]
      refine (List.pairwise_insertionSort _ _).imp fun hab h => ?_
      rw [decide_eq_true_eq] at h ⊢
      exact lt_of_le_of_lt (sortKey_le_of_registerLe hab) h
    rw [htake, htake]
    exact ((hperm ties).trans (hperm ties').symm).filter _
  · have hall : ∀ ties, (db.pagedRows account book ties).take b = db.pagedRows account book ties :=
      fun ties => List.take_of_length_le (by rw [(hperm ties).length_eq]; exact hge)
    rw [hall, hall]
    exact (hperm ties).trans (hperm ties').symm

/-- So are the rows between two such positions. -/
theorem slice_perm {a b : Nat} (hab : a ≤ b) (ha : db.Between account book a)
    (hb : db.Between account book b) (ties ties' : Guid → Nat) :
    (slice (db.pagedRows account book ties) a b).Perm
      (slice (db.pagedRows account book ties') a b) := by
  have hboth := take_perm hb ties ties'
  rw [take_eq_append_slice _ hab, take_eq_append_slice _ hab] at hboth
  have hleft := (take_perm ha ties' ties).append_right (slice (db.pagedRows account book ties') a b)
  exact (List.perm_append_left_iff _).mp (hboth.trans hleft)

end Keys

/-! ## Sound pages -/

section Sound

variable {g : Paging} {db : Db} {account : Guid} {ty : String}

/-- The pages have each split once, and their balances are the running balances of one ordering of
the rows, one that `ORDER BY` allows. -/
structure Paging.Sound (g : Paging) (db : Db) (account : Guid) (ty : String) (r : Reader) :
    Prop where
  once : (r.entries.map (·.splitGuid)).Perm ((db.registerRows account g.book).map (·.2.guid))
  common : ∃ rows es, rows.Perm (db.registerRows account g.book) ∧
    rows.Pairwise (fun a b => sortKey a ≤ sortKey b) ∧ registerEntries ty .zero rows = some es ∧
    ∀ e ∈ r.entries, ∃ e' ∈ es, e'.splitGuid = e.splitGuid ∧ e'.balance = e.balance

/-- **Paging agrees** when every query may order ties its own way: what is asked for is answered,
and when no more is to be asked for, the pages are sound. -/
structure Paging.Agrees (g : Paging) (db : Db) (account : Guid) (ty : String) : Prop where
  start : ∀ envs, Supplied (fun _ => True) envs → ∃ page,
    serve (g.ask (.date g.day) .around) envs db = (.ok (.registerPage page), db)
  before : ∀ n r, g.Reading (fun _ => True) db n r → r.hasBefore = true →
    ∀ envs, Supplied (fun _ => True) envs → ∃ page,
      serve (g.ask (.offset r.firstOffset) .before) envs db = (.ok (.registerPage page), db)
  after : ∀ n r, g.Reading (fun _ => True) db n r → r.hasAfter = true →
    ∀ envs, Supplied (fun _ => True) envs → ∃ page,
      serve (g.ask (.offset r.lastOffset) .after) envs db = (.ok (.registerPage page), db)
  done : ∀ n r, g.Reading (fun _ => True) db n r → r.hasBefore = false → r.hasAfter = false →
    g.Sound db account ty r

/-- No page starts between rows with equal keys. -/
def Paging.Parts (g : Paging) (db : Db) (account : Guid) : Prop :=
  ∀ b, b ≡ g.startOffset db account [MOD g.limit.toNat] → db.Between account g.book b

/-- The quantities of the register add up exactly, in every order of ties. -/
def Paging.AddsUp (g : Paging) (db : Db) (account : Guid) : Prop :=
  ∀ ties, NewsExact ((db.pagedRows account g.book ties).map (·.2.qty)) ∧
    PartialSumsFit ((db.pagedRows account g.book ties).map (·.2.qty))

theorem Paging.Parts.window (h : g.Parts db account) {a b : Nat} (hw : g.Window db account a b) :
    db.Between account g.book a ∧ db.Between account g.book b := by
  constructor
  · rcases hw.left with ha | rfl
    · exact h a ha
    · exact fun h0 => absurd h0 (Nat.lt_irrefl 0)
  · rcases hw.right with hb | rfl
    · exact h b hb
    · exact fun _ hlt => absurd hlt (Nat.lt_irrefl _)

/-- The first rows under two orders, before a position between keys, add up alike. -/
theorem exactSum_take {b : Nat} (hb : db.Between account g.book b) (ties ties' : Guid → Nat) :
    exactSum (((db.pagedRows account g.book ties).take b).map (·.2.qty)) =
      exactSum (((db.pagedRows account g.book ties').take b).map (·.2.qty)) :=
  exactSum_perm ((take_perm hb ties ties').map _)

/-- **A page between keys**: its entries follow from any balance that is the exact sum of the rows
before it. -/
theorem Paging.AddsUp.page (h : g.AddsUp db account) {a b : Nat} (hab : a ≤ b)
    (ha : db.Between account g.book a) (before rows : Guid → Nat) {acc : Numeric}
    (hd : acc.denom ≠ 0)
    (hv : acc.value = exactSum (((db.pagedRows account g.book rows).take a).map (·.2.qty))) :
    ∃ es c, g.page db account ty a b before rows = some (es.map (db.transferred account)) ∧
      registerEntries ty acc (slice (db.pagedRows account g.book rows) a b) = some es ∧
      priorBalance acc (slice (db.pagedRows account g.book rows) a b) = some c ∧ c.denom ≠ 0 ∧
      c.value = exactSum (((db.pagedRows account g.book rows).take b).map (·.2.qty)) := by
  have hfits : ∀ ties n, NewsExact (((db.pagedRows account g.book ties).take n).map (·.2.qty)) ∧
      PartialSumsFit (((db.pagedRows account g.book ties).take n).map (·.2.qty)) := by
    intro ties n
    have hpre := (List.take_prefix n (db.pagedRows account g.book ties)).map (·.2.qty)
    exact ⟨fun s hs => (h ties).1 s (hpre.subset hs), fun p hp => (h ties).2 p (hp.trans hpre)⟩
  obtain ⟨-, prior, -, hprior, hpd, hpv⟩ := @entries_exact ty _ [] _
    (hfits before a).1 (hfits before a).2 (by decide) zero_value
  have hrows := hfits rows b
  rw [take_eq_append_slice _ hab] at hrows
  obtain ⟨es, c, hes, hc, hcd, hcv⟩ := @entries_exact ty _ _ _ hrows.1 hrows.2 hd hv
  rw [← take_eq_append_slice _ hab] at hcv
  refine ⟨es, c, ?_, hes, hc, hcd, hcv⟩
  have hsame : prior.value = acc.value := hpv.trans ((exactSum_take ha before rows).trans hv.symm)
  unfold Paging.page Db.pageEntries
  rw [hprior, Option.bind_some, registerEntries_congr hpd hd hsame, hes]
  rfl

/-- **Pages between keys** are the entries of one ordering of their rows. -/
theorem Paging.AddsUp.assemble (h : g.AddsUp db account) (hp : g.Parts db account) {lo hi : Nat}
    {ps : List (List RegisterEntry)}
    (ht : Tiles (fun a b es => g.Window db account a b ∧ ∃ before rows, True ∧ True ∧
      g.page db account ty a b before rows = some es) lo hi ps) :
    ∀ acc : Numeric, acc.denom ≠ 0 →
      acc.value = exactSum (((db.pagedRows account g.book byGuid).take lo).map (·.2.qty)) →
      ∃ l es, l.Perm (slice (db.pagedRows account g.book byGuid) lo hi) ∧
        l.map sortKey = slice (db.sortKeys account g.book) lo hi ∧
        registerEntries ty acc l = some es ∧ ps.flatten = es.map (db.transferred account) := by
  induction ht with
  | nil a => exact fun acc _ _ => ⟨[], [], by rw [slice_self], by rw [slice_self]; rfl, rfl, rfl⟩
  | @cons a b c p ps hab hpiece ht ih =>
    intro acc hd hv
    obtain ⟨hw, before, rows, -, -, hpage⟩ := hpiece
    obtain ⟨ha, hb⟩ := hp.window hw
    rw [exactSum_take ha byGuid rows] at hv
    obtain ⟨es, d, hpage', hes, hprior, hdd, hdv⟩ := h.page hab ha before rows hd hv
    obtain rfl := Option.some.inj (hpage.symm.trans hpage')
    rw [exactSum_take hb rows byGuid] at hdv
    obtain ⟨l, es', hperm, hkeys, hes', hflat⟩ := ih d hdd hdv
    refine ⟨slice (db.pagedRows account g.book rows) a b ++ l, es ++ es', ?_, ?_,
      registerEntries_append_of hes hprior hes', ?_⟩
    · rw [← slice_append _ hab ht.le]
      exact (slice_perm hab ha hb rows byGuid).append hperm
    · rw [← slice_append _ hab ht.le, List.map_append, hkeys, ← slice_map, pagedRows_keys]
    · rw [List.flatten_cons, hflat, List.map_append]

/-- A page from a position between keys is answered. -/
theorem Paging.AddsUp.answered (h : g.AddsUp db account) {cursor : PageCursor}
    {direction : Direction} {a b : Nat} (hab : a ≤ b) (ha : db.Between account g.book a)
    (hans : g.Answered (fun _ => True) db account ty cursor direction a b) {envs : Nat → Env}
    (he : Supplied (fun _ => True) envs) :
    ∃ page, serve (g.ask cursor direction) envs db = (.ok (.registerPage page), db) := by
  obtain ⟨before, rows, -, -, hs⟩ := hans envs he
  have hpre := (List.take_prefix a (db.pagedRows account g.book rows)).map (·.2.qty)
  obtain ⟨acc, -, hv, hd⟩ := sum_exact (fun s hs => (h rows).1 s (hpre.subset hs))
    (fun p hp => (h rows).2 p (hp.trans hpre))
  obtain ⟨es, -, hpage, -⟩ := h.page hab ha before rows hd hv
  rw [hpage] at hs
  exact ⟨_, hs⟩

theorem Paging.AddsUp.sound (h : g.AddsUp db account) (hp : g.Parts db account) {r : Reader}
    (hc : r.Covers (fun a b es => g.Window db account a b ∧ ∃ before rows, True ∧ True ∧
      g.page db account ty a b before rows = some es) (g.total db account) 0
        (g.total db account)) : g.Sound db account ty r := by
  obtain ⟨l, es, hperm, hkeys, hes, hflat⟩ := h.assemble hp hc.tiles .zero (by decide) zero_value
  have hall : ∀ {α : Type} (rows : List α), rows.length = g.total db account →
      slice rows 0 (g.total db account) = rows := by
    intro α rows hlen
    rw [← hlen, slice_all]
  rw [hall _ (g.total_eq_length byGuid).symm] at hperm
  rw [hall _ (db.sortKeys_length account g.book)] at hkeys
  have hrows : l.Perm (db.registerRows account g.book) :=
    hperm.trans (List.perm_insertionSort _ _)
  have hguids : r.entries.map (·.splitGuid) = l.map (·.2.guid) := by
    unfold Reader.entries
    rw [hflat, List.map_map]
    exact registerEntries_map (fun _ _ _ => rfl) hes
  constructor
  · rw [hguids]
    exact hrows.map _
  · refine ⟨l, es, hrows, ?_, hes, ?_⟩
    · refine List.pairwise_map.mp ?_
      rw [hkeys]
      exact List.pairwise_insertionSort _ _
    · intro e he
      unfold Reader.entries at he
      rw [hflat] at he
      obtain ⟨e', he', rfl⟩ := List.mem_map.mp he
      exact ⟨e', he', rfl, rfl⟩

/-- Paging agrees when no page starts between rows with equal keys. -/
theorem Paging.AddsUp.agrees (h : g.AddsUp db account) (hp : g.Parts db account)
    (hg : g.Ready db account ty) : g.Agrees db account ty := by
  have h1 := hg.limit_pos
  constructor
  · intro envs he
    exact h.answered (Paging.le_stop Paging.startOffset_le) (hp _ Nat.ModEq.rfl) hg.around he
  · intro n r hr hmore envs he
    obtain ⟨lo, hi, hc, hl, -, -⟩ := hg.reading_covers hr
    have hlo : 0 < lo := by simpa [hc.hasBefore] using hmore
    have hw : g.Window db account (lo - g.limit.toNat) lo :=
      Paging.window_to (hl.resolve_right (by omega))
    rw [hc.first]
    exact h.answered (Nat.sub_le _ _) (hp.window hw).1
      (hg.before hlo (hc.tiles.le.trans hc.le_total)) he
  · intro n r hr hmore envs he
    obtain ⟨lo, hi, hc, -, hh, -⟩ := hg.reading_covers hr
    obtain ⟨hhi, hstop⟩ := hg.lt_stop hc hmore
    have hw : g.Window db account hi (g.stop db account hi) :=
      Paging.window_from (hh.resolve_right (by omega))
    rw [hc.last hhi]
    exact h.answered (by omega) (hp.window hw).1 hg.after he
  · intro n r hr hb ha
    obtain ⟨lo, hi, hc, -, -, -⟩ := hg.reading_covers hr
    have hlo : lo = 0 := by simpa [hc.hasBefore] using hb
    have hhi : hi = g.total db account := by
      have hnot : ¬ hi < g.total db account := by simpa [hc.hasAfter] using ha
      have hle := hc.le_total
      omega
    rw [hlo, hhi] at hc
    exact h.sound hp hc

end Sound

/-! ## A split shown twice -/

section Twice

variable {g : Paging} {db : Db} {account book : Guid} {ty : String}

/-- Two neighbours in a list, with what is around them. -/
theorem neighbours {α : Type} {l : List α} {b : Nat} {x y : α} (h0 : 0 < b)
    (hx : l[b - 1]? = some x) (hy : l[b]? = some y) :
    ∃ pre post, l = pre ++ x :: y :: post ∧ pre.length + 1 = b := by
  obtain ⟨hb', rfl⟩ := List.getElem?_eq_some_iff.mp hx
  obtain ⟨hb, rfl⟩ := List.getElem?_eq_some_iff.mp hy
  have hsucc : b - 1 + 1 = b := by omega
  have hdrop : l.drop (b - 1) = l[b - 1] :: l[b] :: l.drop (b + 1) := by
    rw [List.drop_eq_getElem_cons hb', hsucc, List.drop_eq_getElem_cons hb]
  refine ⟨l.take (b - 1), l.drop (b + 1), ?_, ?_⟩
  · rw [← hdrop, List.take_append_drop]
  · rw [List.length_take]
    omega

/-- Two neighbours with one key, the other way round. -/
theorem pagedRows_swap (hn : ((db.registerRows account book).map (·.2.guid)).Nodup)
    {pre post : List (Transaction × Split)} {x y : Transaction × Split}
    (h : db.pagedRows account book byGuid = pre ++ x :: y :: post)
    (hkey : sortKey x = sortKey y) :
    db.pagedRows account book (Equiv.swap x.2.guid y.2.guid) = pre ++ y :: x :: post := by
  have hperm : (pre ++ x :: y :: post).Perm (db.registerRows account book) :=
    h ▸ List.perm_insertionSort _ _
  have hsorted : (pre ++ x :: y :: post).Pairwise (registerLe byGuid) :=
    h ▸ List.pairwise_insertionSort _ _
  have hnodup : ((pre ++ x :: y :: post).map (·.2.guid)).Nodup :=
    (hperm.map _).nodup_iff.mpr hn
  obtain ⟨hpre, hrest, hcross⟩ := List.pairwise_append.mp hsorted
  obtain ⟨hx, hrest⟩ := List.pairwise_cons.mp hrest
  obtain ⟨hy, hpost⟩ := List.pairwise_cons.mp hrest
  -- the swap is about these two splits alone
  have hother : ∀ u, u ∈ pre ∨ u ∈ post → Equiv.swap x.2.guid y.2.guid u.2.guid = byGuid u.2.guid := by
    intro u hu
    simp only [List.map_append, List.map_cons, List.nodup_append, List.nodup_cons, List.mem_cons,
      List.mem_map, not_or, not_exists, not_and] at hnodup
    obtain ⟨-, ⟨⟨-, hxpost⟩, hypost, -⟩, hdis⟩ := hnodup
    refine Equiv.swap_apply_of_ne_of_ne ?_ ?_
    · rcases hu with hu | hu
      · exact hdis _ ⟨u, hu, rfl⟩ _ (.inl rfl)
      · exact hxpost u hu
    · rcases hu with hu | hu
      · exact hdis _ ⟨u, hu, rfl⟩ _ (.inr (.inl rfl))
      · exact hypost u hu
  have hrx : Equiv.swap x.2.guid y.2.guid x.2.guid = byGuid y.2.guid := Equiv.swap_apply_left _ _
  have hry : Equiv.swap x.2.guid y.2.guid y.2.guid = byGuid x.2.guid := Equiv.swap_apply_right _ _
  unfold Db.pagedRows
  refine insertionSort_unique hn (fun _ _ _ _ he => (Equiv.injective _) he) ?_ ?_
  · exact ((List.Perm.swap x y post).append_left pre).trans hperm
  · refine List.pairwise_append.mpr ⟨?_, ?_, ?_⟩
    · exact hpre.imp_of_mem fun hu hv huv =>
        registerLe_congr rfl rfl (hother _ (.inl hu)) (hother _ (.inl hv)) huv
    · refine List.pairwise_cons.mpr ⟨?_, List.pairwise_cons.mpr ⟨?_, ?_⟩⟩
      · intro v hv
        rcases List.mem_cons.mp hv with rfl | hv
        · exact registerLe_congr hkey.symm hkey hry hrx (hx y (by simp))
        · exact registerLe_congr hkey.symm rfl hry (hother v (.inr hv)) (hx v (by simp [hv]))
      · exact fun v hv => registerLe_congr hkey rfl hrx (hother v (.inr hv)) (hy v hv)
      · exact hpost.imp_of_mem fun hu hv huv =>
          registerLe_congr rfl rfl (hother _ (.inr hu)) (hother _ (.inr hv)) huv
    · intro u hu v hv
      rcases List.mem_cons.mp hv with rfl | hv
      · exact registerLe_congr rfl hkey.symm (hother u (.inl hu)) hry (hcross u hu x (by simp))
      · rcases List.mem_cons.mp hv with rfl | hv
        · exact registerLe_congr rfl hkey (hother u (.inl hu)) hrx (hcross u hu y (by simp))
        · exact registerLe_congr rfl rfl (hother u (.inl hu)) (hother v (.inr hv))
            (hcross u hu v (by simp [hv]))

/-- A database that answers under one order of ties. -/
def tying (ties : Guid → Nat) (n : Nat) : Env := { calm 0 n with ties := ties }

theorem supplied_tying {T : (Guid → Nat) → Prop} {ties : Guid → Nat} (h : T ties) :
    Supplied T (tying ties) := ⟨fun _ => ⟨rfl, rfl⟩, fun _ => h⟩

/-- The pages of a reader whose queries are run under the order `order a` for the page from `a`. -/
def Paging.Ordered (g : Paging) (db : Db) (account : Guid) (ty : String)
    (order : Nat → Guid → Nat) (a b : Nat) (es : List RegisterEntry) : Prop :=
  g.Window db account a b ∧ g.page db account ty a b (order a) (order a) = some es

/-- A reader can be brought to the end of the register under a given order for each page: by
induction on the rows that are left. -/
theorem Paging.Agrees.finish (h : g.Agrees db account ty) (hg : g.Ready db account ty)
    (order : Nat → Guid → Nat) (k : Nat) : ∀ {lo hi n : Nat} {r : Reader},
    g.Reading (fun _ => True) db n r →
    r.Covers (g.Ordered db account ty order) (g.total db account) lo hi →
    (lo ≡ g.startOffset db account [MOD g.limit.toNat] ∨ lo = 0) →
    (hi ≡ g.startOffset db account [MOD g.limit.toNat] ∨ hi = g.total db account) →
    lo + (g.total db account - hi) ≤ k →
    ∃ n r, g.Reading (fun _ => True) db n r ∧ r.hasBefore = false ∧ r.hasAfter = false ∧
      Tiles (g.Ordered db account ty order) 0 (g.total db account) r.pages := by
  have h1 := hg.limit_pos
  induction k with
  | zero =>
    intro lo hi n r hr hc _ _ hk
    obtain rfl : lo = 0 := by omega
    have hhi : hi = g.total db account := by
      have hle := hc.le_total
      omega
    rw [hhi] at hc
    exact ⟨n, r, hr, by simp [hc.hasBefore], by simp [hc.hasAfter], hc.tiles⟩
  | succ k ih =>
    intro lo hi n r hr hc hl hh hk
    by_cases hb : r.hasBefore = true
    · have hlo : 0 < lo := by simpa [hc.hasBefore] using hb
      have hw : g.Window db account (lo - g.limit.toNat) lo :=
        Paging.window_to (hl.resolve_right (by omega))
      obtain ⟨page, hs⟩ := h.before n r hr hb (tying (order (lo - g.limit.toNat)))
        (supplied_tying trivial)
      obtain ⟨es, _, _, rfl, rfl, hpage, hcov⟩ :=
        hg.before_covers hc hb (supplied_tying (Eq.refl (order (lo - g.limit.toNat)))) hs
      exact ih (.before hr hb (supplied_tying trivial) hs) (hcov ⟨hw, hpage⟩) hw.left hh
        (by omega)
    · by_cases ha : r.hasAfter = true
      · obtain ⟨hhi, hstop⟩ := hg.lt_stop hc ha
        have hw : g.Window db account hi (g.stop db account hi) :=
          Paging.window_from (hh.resolve_right (by omega))
        obtain ⟨page, hs⟩ := h.after n r hr ha (tying (order hi)) (supplied_tying trivial)
        obtain ⟨es, _, _, rfl, rfl, hpage, hcov⟩ :=
          hg.after_covers hc ha (supplied_tying (Eq.refl (order hi))) hs
        exact ih (.after hr ha (supplied_tying trivial) hs) (hcov ⟨hw, hpage⟩) hl hw.right
          (by omega)
      · have hlo : lo = 0 := by simpa [hc.hasBefore] using hb
        have hhi : hi = g.total db account := by
          have hnot : ¬ hi < g.total db account := by simpa [hc.hasAfter] using ha
          have hle := hc.le_total
          omega
        rw [hlo, hhi] at hc
        exact ⟨n, r, hr, by simpa using hb, by simpa using ha, hc.tiles⟩

theorem Paging.Agrees.complete (h : g.Agrees db account ty) (hg : g.Ready db account ty)
    (order : Nat → Guid → Nat) : ∃ n r, g.Reading (fun _ => True) db n r ∧
      r.hasBefore = false ∧ r.hasAfter = false ∧
      Tiles (g.Ordered db account ty order) 0 (g.total db account) r.pages := by
  have hw : g.Window db account (g.startOffset db account)
      (g.stop db account (g.startOffset db account)) := Paging.window_from Nat.ModEq.rfl
  obtain ⟨page, hs⟩ := h.start (tying (order (g.startOffset db account)))
    (supplied_tying trivial)
  obtain ⟨es, _, _, rfl, rfl, hpage, hcov⟩ :=
    hg.start_covers (supplied_tying (Eq.refl (order (g.startOffset db account)))) hs
  exact h.finish hg order _ (.start (supplied_tying trivial) hs) (hcov ⟨hw, hpage⟩)
    hw.left hw.right (le_refl _)

/-- No window goes over a position where pages are cut. -/
theorem Paging.Window.not_over {a b c : Nat} (h : g.Window db account a c)
    (hb : b ≡ g.startOffset db account [MOD g.limit.toNat]) : ¬ (a < b ∧ b < c) := by
  rintro ⟨hab, hbc⟩
  have hle := h.le
  rcases h.either with ha | hc
  · have hdvd := (Nat.modEq_iff_dvd' (by omega)).mp (ha.trans hb.symm)
    have := Nat.le_of_dvd (by omega) hdvd
    omega
  · have hdvd := (Nat.modEq_iff_dvd' (by omega)).mp (hb.trans hc.symm)
    have := Nat.le_of_dvd (by omega) hdvd
    omega

/-- The splits of a page. -/
theorem Paging.page_guids {a b : Nat} {before rows : Guid → Nat} {es : List RegisterEntry}
    (h : g.page db account ty a b before rows = some es) :
    es.map (·.splitGuid) = slice ((db.pagedRows account g.book rows).map (·.2.guid)) a b := by
  obtain ⟨prior, -, hes⟩ := Option.bind_eq_some_iff.mp h
  obtain ⟨entries, hentries, rfl⟩ := Option.map_eq_some_iff.mp hes
  rw [List.map_map, slice_map]
  exact registerEntries_map (fun _ _ _ => rfl) hentries

/-- The splits of pages that are all read under one order. -/
theorem splits_of_order {lo hi : Nat} {ps : List (List RegisterEntry)} {order : Nat → Guid → Nat}
    {ties : Guid → Nat} (ht : Tiles (g.Ordered db account ty order) lo hi ps)
    (ho : ∀ a, lo ≤ a → a < hi → order a = ties) :
    ps.flatten.map (·.splitGuid) =
      slice ((db.pagedRows account g.book ties).map (·.2.guid)) lo hi := by
  have hpieces : Tiles (fun a b p => p = slice ((db.pagedRows account g.book ties).map (·.2.guid))
      a b) lo hi (ps.map fun p => p.map (·.splitGuid)) := by
    refine ht.map fun a b p hlo hab hb hp => ?_
    rw [Paging.page_guids hp.2]
    rcases Nat.lt_or_ge a hi with hlt | hge
    · rw [ho a hlo hlt]
    · obtain rfl : a = b := by omega
      rw [slice_self, slice_self]
  rw [List.map_flatten]
  exact hpieces.flatten_eq

theorem registerRows_nodup (hn : (db.splits.map (·.guid)).Nodup) (account book : Guid) :
    ((db.registerRows account book).map (·.2.guid)).Nodup := by
  refine List.Nodup.sublist ?_ hn
  unfold Db.registerRows Db.joinTxns
  induction db.splits with
  | nil => exact .slnil
  | cons s splits ih =>
    rw [List.filterMap_cons]
    split
    · exact ih.cons _
    · rename_i r hr
      obtain ⟨t, -, hr⟩ := Option.bind_eq_some_iff.mp hr
      have hguid : r.2.guid = s.guid := by
        split at hr
        · exact congrArg (·.2.guid) (Option.some.inj hr).symm
        · exact absurd hr (by simp)
      rw [List.map_cons, List.map_cons, hguid]
      exact ih.cons_cons _

/-- Paging agrees only when no page starts between rows with equal keys: the one that does can show
the split that the page before it ends with. -/
theorem Paging.Agrees.parts (h : g.Agrees db account ty) (hg : g.Ready db account ty)
    (hn : (db.splits.map (·.guid)).Nodup) : g.Parts db account := by
  intro b hb h0 hlt hkey
  have hnodup := registerRows_nodup hn account g.book
  have hlen : (db.pagedRows account g.book byGuid).length = g.total db account :=
    (g.total_eq_length byGuid).symm
  have hb' : b < (db.pagedRows account g.book byGuid).length := by
    rw [hlen]
    exact hlt
  obtain ⟨x, hx⟩ : ∃ x, (db.pagedRows account g.book byGuid)[b - 1]? = some x :=
    ⟨_, List.getElem?_eq_getElem (by omega)⟩
  obtain ⟨y, hy⟩ : ∃ y, (db.pagedRows account g.book byGuid)[b]? = some y :=
    ⟨_, List.getElem?_eq_getElem hb'⟩
  have hsame : sortKey x = sortKey y := by
    rw [← pagedRows_keys byGuid, List.getElem?_map, List.getElem?_map, hx, hy] at hkey
    exact Option.some.inj hkey
  obtain ⟨pre, post, hrows, hpre⟩ : ∃ pre post,
      db.pagedRows account g.book byGuid = pre ++ x :: y :: post ∧ pre.length + 1 = b := neighbours h0 hx hy
  have hswap := pagedRows_swap hnodup hrows hsame
  let order : Nat → Guid → Nat := fun a =>
    if a < b then byGuid else Equiv.swap x.2.guid y.2.guid
  obtain ⟨n, r, hr, hbefore, hafter, htiles⟩ := h.complete hg order
  obtain ⟨ps₁, ps₂, hps, ht₁, ht₂⟩ := htiles.split (Nat.zero_le b) (Nat.le_of_lt hlt)
    fun a c p hp => hp.1.not_over hb
  have hs₁ : ps₁.flatten.map (·.splitGuid) =
      slice ((db.pagedRows account g.book byGuid).map (·.2.guid)) 0 b :=
    splits_of_order ht₁ fun a _ ha => if_pos ha
  have hs₂ : ps₂.flatten.map (·.splitGuid) = slice ((db.pagedRows account g.book
      (Equiv.swap x.2.guid y.2.guid)).map (·.2.guid)) b (g.total db account) :=
    splits_of_order ht₂ fun a ha _ => if_neg (by omega)
  have honce : (ps₁.flatten.map (·.splitGuid) ++ ps₂.flatten.map (·.splitGuid)).Nodup := by
    rw [← List.map_append, ← List.flatten_append, ← hps]
    exact ((h.done n r hr hbefore hafter).once.nodup_iff).mpr hnodup
  have hin₁ : x.2.guid ∈ ps₁.flatten.map (·.splitGuid) := by
    have htake : (pre ++ x :: y :: post).take b = pre ++ [x] := by
      rw [← hpre, List.take_length_add_append]
      rfl
    rw [hs₁, slice_zero, ← List.map_take, hrows, htake]
    simp
  have hin₂ : x.2.guid ∈ ps₂.flatten.map (·.splitGuid) := by
    have hdrop : (pre ++ y :: x :: post).drop b = x :: post := by
      rw [← hpre, List.drop_length_add_append]
      rfl
    have hend : ((db.pagedRows account g.book (Equiv.swap x.2.guid y.2.guid)).map
        (·.2.guid)).length ≤ g.total db account := by
      rw [List.length_map]
      exact le_of_eq (g.total_eq_length _).symm
    rw [hs₂, slice_eq_of_le hend, ← List.map_drop, hswap, hdrop]
    simp
  exact (List.nodup_append.mp honce).2.2 _ hin₁ _ hin₂ rfl

/-- **When paging agrees whatever is done with ties.** Only if no page starts between rows with
equal keys; and if none does and the quantities add up exactly, it agrees. -/
theorem ties_agree (hg : g.Ready db account ty) (hn : (db.splits.map (·.guid)).Nodup) :
    (g.Agrees db account ty → g.Parts db account) ∧
      (g.AddsUp db account → (g.Agrees db account ty ↔ g.Parts db account)) :=
  ⟨fun h => h.parts hg hn, fun ha => ⟨fun h => h.parts hg hn, fun hp => ha.agrees hp hg⟩⟩

/-- The register of a purchase has one row, which no page can part from another. -/
theorem ties_agree_purchased :
    (Paging.mk plainConfig 3 (Guid.text 12) 19000 50).Agrees purchased 12 "BANK" := by
  have hg : (Paging.mk plainConfig 3 (Guid.text 12) 19000 50).Ready purchased 12 "BANK" :=
    ⟨by decide, by decide, by decide +kernel⟩
  have hone : ∃ r, purchased.registerRows 12 3 = [r] ∧ r.2.qty = (-1000, 100) := by
    refine List.length_eq_one_iff.mp ?_ |>.imp fun r hr => ⟨hr, ?_⟩
    · decide +kernel
    · have hall : ∀ r ∈ purchased.registerRows 12 3, r.2.qty = (-1000, 100) := by decide +kernel
      exact hall r (by rw [hr]; simp)
  obtain ⟨r, hr, hqty⟩ := hone
  refine ((ties_agree hg (by decide +kernel)).2 ?_).mpr ?_
  · intro ties
    have hrows : purchased.pagedRows 12 3 ties = [r] := by
      unfold Db.pagedRows
      rw [hr]
      rfl
    have hmap : (purchased.pagedRows 12 3 ties).map (·.2.qty) = [(-1000, 100)] := by
      rw [hrows, List.map_singleton, hqty]
    rw [hmap]
    constructor
    · intro s hs
      obtain rfl := List.mem_singleton.mp hs
      decide
    · simp only [PartialSumsFit, ← List.mem_inits]
      decide +kernel
  · intro b _ h0 hlt
    rw [hr] at hlt
    simp only [List.length_singleton] at hlt
    omega

/-- A payment in 51 lines from one account. -/
def paidInLines : Db :=
  (serve (Event.request plainConfig 3 (.createTransaction
    ⟨"", ⟨19000, 0⟩, "food", none,
      ⟨Guid.text 18, "", 5100, 100, 5100, 100, ""⟩ ::
        List.replicate 51 ⟨Guid.text 12, "", -100, 100, -100, 100, ""⟩⟩)).call
    (calm 100) registered).2

/-- With the page size of the register page, its second page can show what its first one ends
with. -/
theorem ties_disagree : ¬ ∀ db, Runs (fun _ _ _ => True) db → ∀ (g : Paging) (account : Guid) ty,
    g.Ready db account ty → g.limit = 50 → g.Agrees db account ty := by
  intro h
  have hr : Runs (fun _ _ _ => True) paidInLines :=
    .step _ _ (registered_runs trivial) (by decide +kernel) trivial
  have hg : (Paging.mk plainConfig 3 (Guid.text 12) 19000 50).Ready paidInLines 12 "BANK" :=
    ⟨by decide, by decide, by decide +kernel⟩
  have hparts := (h _ hr _ _ _ hg rfl).parts hg (by decide +kernel)
  have hlen : (paidInLines.registerRows 12 3).length = 51 := by decide +kernel
  have hrows : ∀ r ∈ paidInLines.registerRows 12 3,
      r.1.postDate = 1641639600 ∧ r.1.customId = "" ∧ r.1.enterDate = 154 := by decide +kernel
  have hkeys : ∀ k ∈ paidInLines.sortKeys 12 3, k = toLex (1641639600, toLex ("", 154)) := by
    intro k hk
    obtain ⟨r, hr, rfl⟩ := List.mem_map.mp ((List.mem_insertionSort _).mp hk)
    obtain ⟨hp, hc, he⟩ := hrows r hr
    unfold sortKey
    rw [hp, hc, he]
  have hat : ∀ b, b < 51 →
      (paidInLines.sortKeys 12 3)[b]? = some (toLex (1641639600, toLex ("", 154))) := by
    intro b hb
    have hb' : b < (paidInLines.sortKeys 12 3).length := by
      rw [Db.sortKeys_length, hlen]
      exact hb
    rw [List.getElem?_eq_getElem hb']
    exact congrArg some (hkeys _ (List.getElem_mem hb'))
  have hstart : (Paging.mk plainConfig 3 (Guid.text 12) 19000 50).startOffset paidInLines 12
      = 0 := by
    decide +kernel
  refine hparts 50 ?_ (by decide) (by rw [hlen]; decide) ?_
  · rw [hstart]
    decide
  · rw [hat 49 (by decide), hat 50 (by decide)]

end Twice

end Antimoney
