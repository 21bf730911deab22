import Antimoney.Concurrent

/-!
# Links name items

A link names its item in a JSON column that no foreign key guards. `LinkAccounts` checks the item
before its transaction; `Disconnect` clears the links it finds under the spelling it was given.

* `NoDangling`; `Rebinds`: what a call may do to links and items.
* **`links_bound`**: over every interleaving of `LinkAccounts`, `Sync` and `Disconnect`.
-/

namespace Antimoney

open Antimoney.Lib Prog

/-! ## States -/

/-- The book has the item. -/
def Db.Has (db : Db) (book item : Guid) : Prop := ∃ p ∈ db.items, p.guid = item ∧ p.bookGuid = book

/-- Every link names an item of its account's book. -/
def Db.NoDangling (db : Db) : Prop :=
  ∀ a ∈ db.accounts, ∀ l, a.plaid = some l → ∃ g, l.itemGuid.parse = .ok g ∧ db.Has a.bookGuid g

/-- The links to the item are spelled so. -/
def Db.Spelled (db : Db) (book : Guid) (item : GuidText) : Prop :=
  ∀ a ∈ db.accounts, a.bookGuid = book → ∀ l, a.plaid = some l → ∀ g, item.parse = .ok g →
    l.itemGuid.parse = .ok g → l.itemGuid = item

/-- Links come as `P` allows, and items go as `Q` does. -/
structure Rebinds (P Q : Guid → Guid → Prop) (x y : Db) : Prop where
  links : ∀ b ∈ y.accounts, ∀ l, b.plaid = some l →
    (∃ g, l.itemGuid.parse = .ok g ∧ P b.bookGuid g) ∨
      ∃ a ∈ x.accounts, a.guid = b.guid ∧ a.bookGuid = b.bookGuid ∧
        ∃ l', a.plaid = some l' ∧ l'.itemGuid = l.itemGuid
  items : ∀ book g, x.Has book g → Q book g ∨ y.Has book g

/-- No link comes and no item goes. -/
abbrev Rebound : Db → Db → Prop := Rebinds (fun _ _ => False) fun _ _ => False

variable {P P' Q Q' : Guid → Guid → Prop} {x y z : Db}

theorem rebinds_of_eq (ha : y.accounts = x.accounts) (hi : y.items = x.items) :
    Rebinds P Q x y := by
  refine ⟨fun b hb l hl => .inr ⟨b, ha ▸ hb, rfl, rfl, l, hl, rfl⟩, fun book g h => .inr ?_⟩
  unfold Db.Has
  rw [hi]
  exact h

theorem Rebinds.trans (h : Rebinds P Q x y) (h' : Rebinds P Q y z) : Rebinds P Q x z := by
  refine ⟨fun c hc l hl => ?_, fun book g hx => ?_⟩
  · rcases h'.links c hc l hl with hp | ⟨b, hb, hg, hbook, l', hl', he⟩
    · exact .inl hp
    · rw [← hbook, ← hg, ← he]
      exact h.links b hb l' hl'
  · rcases h.items book g hx with hq | hy
    · exact .inl hq
    · exact h'.items book g hy

theorem Rebinds.mono (hP : ∀ b g, P b g → P' b g) (hQ : ∀ b g, Q b g → Q' b g)
    (h : Rebinds P Q x y) : Rebinds P' Q' x y :=
  ⟨fun b hb l hl => (h.links b hb l hl).imp_left fun ⟨g, hg, hp⟩ => ⟨g, hg, hP _ _ hp⟩,
    fun book g hx => (h.items book g hx).imp_left (hQ book g)⟩

/-- An update of accounts that keeps what each link names. -/
theorem rebinds_of_update {c : Account → Bool} {f : Account → Account}
    (ha : y.accounts = updateWhere c f x.accounts) (hi : y.items = x.items)
    (hf : ∀ a, (f a).guid = a.guid ∧ (f a).bookGuid = a.bookGuid ∧ ∀ l, (f a).plaid = some l →
      ∃ l', a.plaid = some l' ∧ l'.itemGuid = l.itemGuid) : Rebinds P Q x y := by
  refine ⟨fun b hb l hl => .inr ?_, fun book g hx => .inr ?_⟩
  · rw [ha] at hb
    rcases mem_updateWhere_cases hb with ⟨hb, -⟩ | ⟨a, ha, -, rfl⟩
    · exact ⟨b, hb, rfl, rfl, l, hl, rfl⟩
    · exact ⟨a, ha, (hf a).1.symm, (hf a).2.1.symm, (hf a).2.2 l hl⟩
  · unfold Db.Has
    rw [hi]
    exact hx

/-- An update of items that keeps what names them. -/
theorem rebinds_of_items {c : PlaidItem → Bool} {f : PlaidItem → PlaidItem}
    (ha : y.accounts = x.accounts) (hi : y.items = updateWhere c f x.items)
    (hf : ∀ p, (f p).guid = p.guid ∧ (f p).bookGuid = p.bookGuid) : Rebinds P Q x y := by
  refine ⟨fun b hb l hl => .inr ⟨b, ha ▸ hb, rfl, rfl, l, hl, rfl⟩, fun book g hx => .inr ?_⟩
  obtain ⟨p, hp, hg, hb⟩ := hx
  refine ⟨if c p then f p else p, ?_, ?_, ?_⟩
  · rw [hi]
    exact mem_updateWhere.mpr ⟨p, hp, rfl⟩
  · split
    · exact (hf p).1.trans hg
    · exact hg
  · split
    · exact (hf p).2.trans hb
    · exact hb

theorem Fetching.rebound {book : Guid} {env : Env} {v : Db} {β : Type} {q : Stmt β}
    (h : Fetching book q) (hw : q.write env v x = .ok y) : Rebound x y := by
  cases h with
  | read h => rw [h.reads.write hw]; exact rebinds_of_eq rfl rfl
  | lock i =>
    rcases tryAdvisoryLock_ok (v := v) hw with ⟨-, rfl⟩ | ⟨-, rfl⟩ <;> exact rebinds_of_eq rfl rfl
  | unlock i =>
    rw [advisoryUnlock_ok (v := v) hw]
    exact rebinds_of_eq rfl rfl
  | upsertStaged i t d ht =>
    obtain ⟨_, _, -, -, rfl⟩ := upsertStaged_ok (v := v) hw
    exact rebinds_of_eq rfl rfl
  | dropReplaced is =>
    rw [dropReplaced_ok (v := v) hw]
    exact rebinds_of_eq rfl rfl
  | dropUndismissed is =>
    rw [dropUndismissed_ok (v := v) hw]
    exact rebinds_of_eq rfl rfl
  | writeCursor i c n =>
    obtain ⟨_, -, rfl⟩ := writeCursor_ok (v := v) hw
    refine rebinds_of_items rfl rfl ?_
    exact fun _ => ⟨rfl, rfl⟩
  | writeLastSynced i n =>
    rw [writeLastSynced_ok (v := v) hw]
    refine rebinds_of_update rfl rfl fun a => ⟨rfl, rfl, fun l hl => ?_⟩
    obtain ⟨l', hl', rfl⟩ := Option.map_eq_some_iff.mp hl
    exact ⟨l', hl', rfl⟩

theorem Syncing.rebound {book : Guid} {env : Env} {v : Db} {β : Type} {q : Stmt β}
    (h : Syncing book q) (hw : q.write env v x = .ok y) : Rebound x y := by
  cases h with
  | fetch h => exact h.rebound hw
  | reseal i c n v' =>
    obtain ⟨_, _, -, rfl⟩ := resealStmt_ok (v := v) hw
    refine rebinds_of_items rfl rfl ?_
    exact fun _ => ⟨rfl, rfl⟩

theorem Linking.rebinds {book g : Guid} {item : GuidText} {env : Env} {v : Db} {β : Type}
    {q : Stmt β} (h : Linking book item q) (hg : item.parse = .ok g)
    (hw : q.write env v x = .ok y) :
    Rebinds (fun b i => b = book ∧ i = g) (fun _ _ => False) x y := by
  cases h with
  | read h => rw [h.reads.write hw]; exact rebinds_of_eq rfl rfl
  | updateLink a l h =>
    obtain ⟨_, _, -, -, rfl⟩ := updateLinkStmt_ok (v := v) hw
    refine ⟨fun b hb l' hl' => ?_, fun _ _ hx => .inr hx⟩
    rcases mem_updateWhere_cases hb with ⟨hb, -⟩ | ⟨a, ha, hat, rfl⟩
    · exact .inr ⟨b, hb, rfl, rfl, l', hl', rfl⟩
    · obtain rfl := Option.some.inj hl'
      simp only [isAccount, Bool.and_eq_true, beq_iff_eq] at hat
      exact .inl ⟨g, h ▸ hg, hat.2, rfl⟩
  | updateImportPending p =>
    obtain ⟨_, _, -, rfl⟩ := updateImportPending_ok (v := v) hw
    refine rebinds_of_items rfl rfl ?_
    exact fun _ => ⟨rfl, rfl⟩

/-- Links stay bound when the new ones name items that stay, and no link names an item that
goes. -/
theorem Db.NoDangling.rebinds (h : x.NoDangling) (hr : Rebinds P Q x y)
    (hP : ∀ book g, P book g → y.Has book g)
    (hQ : ∀ b ∈ y.accounts, ∀ l, b.plaid = some l → ∀ g, l.itemGuid.parse = .ok g →
      ¬ Q b.bookGuid g) : y.NoDangling := by
  intro b hb l hl
  rcases hr.links b hb l hl with ⟨g, hg, hp⟩ | ⟨a, ha, -, hbook, l', hl', he⟩
  · exact ⟨g, hg, hP _ _ hp⟩
  · obtain ⟨g, hg, hx⟩ := h a ha l' hl'
    rw [he] at hg
    rw [hbook] at hx
    rcases hr.items _ _ hx with hq | hy
    · exact absurd hq (hQ b hb l hl g hg)
    · exact ⟨g, hg, hy⟩

/-! ## Events -/

/-- The event links accounts to the item. -/
def Event.Links (e : Event) (book g : Guid) : Prop :=
  ∃ cfg item ms importPending, e = .request cfg book (.plaidLink item ms importPending) ∧
    item.parse = .ok g

/-- The event disconnects the item. -/
def Event.Disconnects (e : Event) (book g : Guid) : Prop :=
  ∃ cfg item, e = .request cfg book (.plaidDisconnect item) ∧ item.parse = .ok g

/-- Neither event links accounts to an item that the other disconnects. -/
def Apart (e e' : Event) : Prop :=
  ∀ book g, ¬ (e.Links book g ∧ e'.Disconnects book g) ∧ ¬ (e'.Links book g ∧ e.Disconnects book g)

theorem Apart.symm {e e' : Event} (h : Apart e e') : Apart e' e := fun b g => (h b g).symm

/-- The contract of an event: the others neither link accounts to an item it disconnects nor
disconnect an item it links. -/
def bindContract (e : Event) : Contract Stmt SqlErr Env Db where
  inv := Db.NoDangling
  rely := Rebinds (fun b g => ¬ e.Disconnects b g) fun b g => ¬ e.Links b g
  guar _ := Rebinds e.Links e.Disconnects
  ok _ _ _ := True
  rely_refl _ := rebinds_of_eq rfl rfl
  rely_trans := Rebinds.trans
  guar_refl _ _ _ := rebinds_of_eq rfl rfl

variable {e : Event} {book g : Guid} {item : GuidText}

/-- What `Sync` writes binds and unbinds nothing. -/
theorem frame_rebound (e : Event) (book : Guid) :
    Frame machine (bindContract e) (Syncing book) Rebound where
  refl _ := rebinds_of_eq rfl rfl
  trans := Rebinds.trans
  write _ _ _ _ _ _ _ _ hq _ _ _ hw := hq.rebound hw
  keeps _ _ _ _ hx h :=
    ⟨hx.rebinds h (fun _ _ h => h.elim) fun _ _ _ _ _ _ => id,
      h.mono (fun _ _ h => h.elim) fun _ _ h => h.elim⟩

/-! ## `LinkAccounts` -/

theorem stable_has (h : e.Links book g) : (bindContract e).Stable fun s => s.Has book g :=
  fun _ _ hx hr _ => (hr.items book g hx).resolve_left fun hn => hn h

/-- While the item is there, its links may be written. -/
theorem frame_linking (h : e.Links book g) (hg : item.parse = .ok g) :
    Frame machine ((bindContract e).knowing fun s => s.Has book g) (Linking book item)
      (Rebinds (fun b i => b = book ∧ i = g) fun _ _ => False) where
  refl _ := rebinds_of_eq rfl rfl
  trans := Rebinds.trans
  write _ _ _ _ _ _ _ _ hq _ _ _ hw := hq.rebinds hg hw
  keeps _ x y _ hx hw := by
    have hy : y.Has book g := (hw.items book g hx.2).resolve_left id
    refine ⟨⟨hx.1.rebinds hw ?_ fun _ _ _ _ _ _ => id, hy⟩, hw.mono ?_ fun _ _ h => h.elim⟩
    · rintro b i ⟨rfl, rfl⟩
      exact hy
    · rintro b i ⟨rfl, rfl⟩
      exact h

theorem selectInstitution_ok {r : Option String} {env : Env}
    (h : (selectInstitution item book).sem env x = .ok (r, y)) :
    y = x ∧ ∃ g, item.parse = .ok g ∧ r = (x.items.find? (isItem g book)).map (·.institutionName) := by
  obtain ⟨hf, rfl⟩ := Stmt.queryE_ok h
  obtain ⟨g, hg, hr⟩ := ok_bind hf
  exact ⟨rfl, g, hg, (Except.ok.inj hr).symm⟩

theorem linkAccounts_bound {ms : List AccountMapping} {importPending : Bool}
    (h : ∀ g, item.parse = .ok g → e.Links book g) (s : Db) :
    (linkAccounts book item ms importPending).wp machine (bindContract e) (fun _ _ _ => True)
      .idle s := by
  refine wp_stmt_frame (R := fun _ => True) (frame_reads _) (fun _ _ _ _ _ => trivial)
    (fun _ _ _ _ _ => trivial) (Stmt.reads_queryE _) trivial (fun _ _ _ _ _ _ => trivial) ?_
  intro _ r _ s _ _ _ _ _ hx
  obtain ⟨rfl, g, hg, rfl⟩ := selectInstitution_ok hx
  cases hfind : s.items.find? (isItem g book) with
  | none => trivial
  | some p =>
    have hat := List.find?_some hfind
    simp only [isItem, Bool.and_eq_true, beq_iff_eq] at hat
    have hhas : s.Has book g := ⟨p, List.mem_of_find?_eq_some hfind, hat.1, hat.2⟩
    refine wp_knowing (stable_has (h g hg)) hhas ?_
    refine wp_frame (frame_linking (h g hg) hg) (issues_inTx ?_) Sess.within_idle
    exact issues_bind (linkEach_issues item p.institutionName ms) fun _ =>
      issues_exec (.updateImportPending _) fun _ => issues_commit

/-! ## `Disconnect` -/

theorem stable_spelled (h : e.Disconnects book g) (hg : item.parse = .ok g) :
    (bindContract e).Stable fun s => s.Spelled book item := by
  intro x y hx hr _ b hb hbook l hl g' hg' hl'
  obtain rfl : g' = g := Except.ok.inj (hg'.symm.trans hg)
  rcases hr.links b hb l hl with ⟨i, hi, hp⟩ | ⟨a, ha, -, hab, l', hla, he⟩
  · obtain rfl : i = g' := Except.ok.inj (hi.symm.trans hl')
    exact absurd (hbook ▸ h) hp
  · rw [← he] at hl' ⊢
    exact hx a ha (hab.trans hbook) l' hla g' hg' hl'

theorem Db.Spelled.rebound (h : x.Spelled book item) (hr : Rebound x y) : y.Spelled book item := by
  intro b hb hbook l hl g hg hl'
  obtain ⟨a, ha, -, hab, l', hla, he⟩ := (hr.links b hb l hl).resolve_left
    fun ⟨_, _, hf⟩ => hf
  rw [← he] at hl' ⊢
  exact h a ha (hab.trans hbook) l' hla g hg hl'

/-- The account is one that was linked to the item when its links were cleared. -/
def Among (book : Guid) (item : GuidText) (v : Db) (b : Account) : Prop :=
  ∃ a ∈ v.accounts, a.guid = b.guid ∧ a.bookGuid = book ∧ a.linkedTo item = true

/-- The links to the item are all among those cleared. -/
structure Covered (book : Guid) (item : GuidText) (v s : Db) : Prop where
  spelled : s.Spelled book item
  among : ∀ a ∈ s.accounts, a.bookGuid = book → a.linkedTo item = true → Among book item v a

/-- The transaction of `Disconnect`, once it has cleared the links. -/
structure Cleared (book g : Guid) (item : GuidText) (v x y : Db) : Prop where
  rebinds : Rebinds (fun _ _ => False) (fun b i => b = book ∧ i = g) x y
  cleared : ∀ b ∈ y.accounts, b.bookGuid = book → b.linkedTo item = true → ¬ Among book item v b

theorem linkedTo_iff {a : Account} : a.linkedTo item = true ↔
    ∃ l, a.plaid = some l ∧ l.itemGuid = item := by
  simp [Account.linkedTo, Option.any_eq_true]

theorem stable_covered {v : Db} (h : e.Disconnects book g) (hg : item.parse = .ok g) :
    (bindContract e).Stable (Covered book item v) := by
  intro x y hx hr hi
  refine ⟨stable_spelled h hg x y hx.spelled hr hi, fun b hb hbook hl => ?_⟩
  obtain ⟨l, hl, hli⟩ := linkedTo_iff.mp hl
  rcases hr.links b hb l hl with ⟨i, hi, hp⟩ | ⟨a, ha, hag, hab, l', hla, he⟩
  · rw [hli, hg] at hi
    obtain rfl := Except.ok.inj hi
    exact absurd (hbook ▸ h) hp
  · obtain ⟨a₀, ha₀, hg₀, hrest⟩ :=
      hx.among a ha (hab.trans hbook) (linkedTo_iff.mpr ⟨l', hla, he.trans hli⟩)
    exact ⟨a₀, ha₀, hg₀.trans hag, hrest⟩

theorem Cleared.of_same {v x' : Db} (h : Cleared book g item v x' y) (ha : x'.accounts = x.accounts)
    (hi : x'.items = x.items) : Cleared book g item v x y :=
  ⟨(rebinds_of_eq ha hi).trans h.rebinds, h.cleared⟩

/-- The write of `clearLinks` at commit. -/
theorem clearLinks_cleared {env : Env} {v : Db}
    (hw : (clearLinks book item).write env v x = .ok y) : Cleared book g item v x y := by
  rw [clearLinks_ok hw]
  refine ⟨rebinds_of_update rfl rfl fun a => ⟨rfl, rfl, fun l hl => absurd hl (by simp)⟩, ?_⟩
  rintro b hb hbook hl ⟨a, ha, hag, hab, hal⟩
  rcases mem_updateWhere_cases hb with ⟨hb, hn⟩ | ⟨a', -, -, rfl⟩
  · simp only [chosen, hbook, hl, beq_self_eq_true, Bool.and_self, Bool.true_and] at hn
    rw [List.any_eq_false] at hn
    exact absurd (by simp [hag, hab, hal]) (hn a ha)
  · exact absurd hl (by simp [Account.linkedTo])

theorem deleteItem_cleared {env : Env} {v w : Db} {version : Option Nat}
    (hw : (deleteItemStmt g book version).write env w y = .ok z) (h : Cleared book g item v x y) :
    Cleared book g item v x z := by
  rw [deleteItemStmt_ok (v := w) hw]
  refine ⟨h.rebinds.trans ⟨fun b hb l hl => .inr ⟨b, hb, rfl, rfl, l, hl, rfl⟩, ?_⟩, h.cleared⟩
  rintro b i ⟨p, hp, rfl, rfl⟩
  by_cases hpi : p.guid = g ∧ p.bookGuid = book
  · exact .inl ⟨hpi.2, hpi.1⟩
  · refine .inr ⟨p, mem_deleteWhere.mpr ⟨hp, ?_⟩, rfl, rfl⟩
    by_contra hne
    simp only [itemAt, Bool.not_eq_false, Bool.and_eq_true, beq_iff_eq] at hne
    exact hpi hne.1

/-- The commit of `Disconnect` leaves no link to the item. -/
theorem Cleared.noDangling {v : Db} (h : Cleared book g item v x y) (hc : Covered book item v x)
    (hx : x.NoDangling) (hg : item.parse = .ok g) : y.NoDangling := by
  refine hx.rebinds h.rebinds (fun _ _ h => h.elim) ?_
  rintro b hb l hl i hi ⟨hbook, rfl⟩
  obtain ⟨a, ha, hag, hab, l', hla, he⟩ := (h.rebinds.links b hb l hl).resolve_left
    fun ⟨_, _, hf⟩ => hf
  have hspell : l'.itemGuid = item :=
    hc.spelled a ha (hab.trans hbook) l' hla i hg (he ▸ hi)
  have hb' : b.linkedTo item = true := linkedTo_iff.mpr ⟨l, hl, he.symm.trans hspell⟩
  have ha' : a.linkedTo item = true := linkedTo_iff.mpr ⟨l', hla, hspell⟩
  obtain ⟨a₀, ha₀, hg₀, hrest⟩ := hc.among a ha (hab.trans hbook) ha'
  exact h.cleared b hb hbook hb' ⟨a₀, ha₀, hg₀.trans hag, hrest⟩

/-- Until the links are cleared, the transaction concerns neither accounts nor items. -/
def SameBindings (x y : Db) : Prop := y.accounts = x.accounts ∧ y.items = x.items

theorem archiveIfForced_bound {version : Nat} {forced : Bool} {s : Db} (h : e.Disconnects book g)
    (hg : item.parse = .ok g) (hs : s.Spelled book item) {ss : Sess SqlErr Lock Db}
    (hp : ss.Pends SameBindings) :
    (archiveIfForced book g version forced).wp machine (bindContract e)
      (fun r ss s => ∀ n, r = .ok n → ss.Pends SameBindings ∧ s.Spelled book item) ss s := by
  unfold archiveIfForced
  split
  · refine wp_stmt_pends (V := fun _ => SameBindings) (stable_spelled h hg) hp hs ?_
      (fun _ _ _ _ _ _ h => absurd h (by simp)) fun _ _ _ _ ss s hs _ _ _ _ hp _ _ => ⟨hp, hs⟩
    intro env v v' b s x y z _ _ _ hxy hw
    rw [@archiveItem_ok _ env _ _ _ _ _ hw]
    exact hxy
  · exact fun _ _ => ⟨hp, hs⟩

/-- The transaction of `Disconnect`. -/
theorem removeItem_bound {version : Nat} {forced : Bool} {s : Db} (h : e.Disconnects book g)
    (hg : item.parse = .ok g) (hs : s.Spelled book item) :
    (removeItem book item g version forced).wp machine (bindContract e) (fun _ _ _ => True)
      .idle s := by
  refine wp_inTx (fun _ _ _ _ => trivial) fun s₁ hr hi => ?_
  have hs₁ : s₁.Spelled book item := stable_spelled h hg s s₁ hs hr hi
  refine wp_bind (wp_mono (fun r ss s hpost => ?_)
    (archiveIfForced_bound h hg hs₁ (Sess.pends_begin fun x => ⟨rfl, rfl⟩)))
  cases r with
  | error e => exact fun _ _ _ => trivial
  | ok archived =>
    obtain ⟨hp, hs⟩ := hpost archived rfl
    dsimp only [Prog.ofExcept, ret_bind]
    split
    · exact fun _ _ _ => trivial
    refine wp_stmt_pends (V := fun v => Cleared book g item v) (stable_spelled h hg) hp hs ?_
      (fun _ _ _ _ _ _ _ _ => trivial) ?_
    · rintro env v v' b s x y z - - - ⟨ha, hi⟩ hw
      exact (clearLinks_cleared hw).of_same ha hi
    intro env _ v _ ss s hs _ hv _ _ hp
    have hc : Covered book item v s := by
      refine ⟨hs, fun a ha hbook hl => ⟨a, ?_, rfl, hbook, hl⟩⟩
      rw [hv.1]
      exact ha
    refine wp_stmt_pends (V := fun _ => Cleared book g item v) (stable_covered h hg) hp hc ?_
      (fun _ _ _ _ _ _ _ _ => trivial) ?_
    · intro env w w' b s x y z _ _ _ hxy hw
      exact deleteItem_cleared (w := w) hw hxy
    intro _ deleted _ _ ss s hc _ _ _ _ hp
    dsimp only [ret_bind]
    split
    · exact fun _ _ _ => trivial
    refine wp_commit_pends (stable_covered h hg) hp hc (fun _ _ _ _ _ _ _ => trivial) ?_
    intro s y hc hi hw
    refine ⟨hw.noDangling hc hi hg, hw.rebinds.mono (fun _ _ h => h.elim) ?_, fun _ _ _ => trivial⟩
    rintro b i ⟨rfl, rfl⟩
    exact h

theorem disconnect_bound {cfg : PlaidConfig} {s : Db}
    (h : ∀ g, item.parse = .ok g → e.Disconnects book g) (hs : s.Spelled book item) :
    (disconnect cfg book item).wp machine (bindContract e) (fun _ _ _ => True) .idle s := by
  cases hparse : item.parse with
  | error er =>
    -- the first query refuses the text
    refine wp_stmt_idle (fun _ _ _ _ _ _ _ => trivial) fun s env r s' _ _ _ _ hx => ?_
    obtain ⟨-, g, hg, -⟩ := selectItem_ok hx
    exact absurd (hparse.symm.trans hg) (by simp)
  | ok g =>
    have hd := h g hparse
    have hstab : (bindContract e).Stable fun s => s.Spelled book item := stable_spelled hd hparse
    have hframe := frame_rebound e book
    have hkeep : ∀ x y, (bindContract e).inv x → Rebound x y → x.Spelled book item →
        y.Spelled book item := fun x y _ hr hs => hs.rebound hr
    refine wp_stmt_frame hframe hstab hkeep (.fetch (.read (reading_selectItem _))) hs
      (fun _ _ _ _ _ _ => trivial) ?_
    intro _ r s₁ s₂ _ hs _ _ _ hx
    obtain ⟨he, g', hg', rfl⟩ := selectItem_ok hx
    obtain rfl : g' = g := Except.ok.inj (hg'.symm.trans hparse)
    cases hfind : s₁.items.find? (isItem g' book) with
    | none => trivial
    | some p =>
      have hat := List.find?_some hfind
      simp only [isItem, Bool.and_eq_true, beq_iff_eq] at hat
      obtain ⟨hpg, -⟩ := hat
      have hremove : ∀ forced s, s.Spelled book item →
          (removeItem book item p.guid p.version forced).wp machine (bindContract e)
            (fun _ _ _ => True) .idle s := by
        intro forced s hs
        rw [hpg]
        exact removeItem_bound hd hparse hs
      refine wp_bind (p := loadAndDecryptToken cfg.tokens book item p.itemId p.ciphertext p.nonce
        p.version) (wp_mono (fun r ss s hpost => ?_) (loadAndDecryptToken_wp hframe hstab hkeep
          (.fetch (.read (reading_askEnv _))) (fun c n => .reseal _ c n _) hs))
      obtain ⟨rfl, hs, -⟩ := hpost
      rcases r with e | (_ | _) | token
      · trivial
      · trivial
      · exact hremove true s hs
      · refine wp_stmt_frame hframe hstab hkeep (.fetch (.read (reading_removeBankItem _ _))) hs
          (fun _ _ _ _ _ _ => trivial) ?_
        intro _ r _ s _ hs _ _ _ _
        cases r with
        | error e => trivial
        | ok _ => exact hremove false s hs

/-! ## Every interleaving -/

/-- The event is a `LinkAccounts`, `Sync` or `Disconnect`. -/
def Event.binds : Event → Bool
  | .request _ _ (.plaidLink _ _ _) | .request _ _ (.plaidSync _)
  | .request _ _ (.plaidDisconnect _) => true
  | _ => false

/-- `LinkAccounts`, `Sync` and `Disconnect` calls, where no item is disconnected while accounts
are linked to it, and each `Disconnect` spells the item as the links to it do. -/
def BindingSteps (c : Pool) : PoolStep → Prop
  | .spawn e => e.binds = true ∧ (∀ a ∈ c.calls, a.prog.Running → Apart a.req e) ∧
    ∀ cfg book item, e = .request cfg book (.plaidDisconnect item) → c.db.Spelled book item
  | .step _ _ => True

theorem binding_wp {e : Event} {s : Db} (he : e.binds = true)
    (hs : ∀ cfg book item, e = .request cfg book (.plaidDisconnect item) → s.Spelled book item) :
    e.call.wp machine (bindContract e) (fun _ _ _ => True) .idle s := by
  have hans : ∀ {α : Type} {p : Call α} {f : α → Response},
      p.wp machine (bindContract e) (fun _ _ _ => True) .idle s →
      (p.bind fun a => ret (f a)).wp machine (bindContract e) (fun _ _ _ => True) .idle s := by
    intro α p f hp
    refine wp_bind (wp_mono (fun r ss s _ => ?_) hp)
    cases r <;> trivial
  unfold Event.binds at he
  split at he
  · rename_i cfg book item ms importPending
    simp only [Event.call, handle]
    split
    · trivial
    · split
      · trivial
      · exact hans (linkAccounts_bound (fun g hg => ⟨cfg, item, ms, importPending, rfl, hg⟩) s)
  · rename_i cfg book item
    refine wp_frame (frame_rebound _ book) ?_ Sess.within_idle
    simp only [Event.call, handle]
    split
    · trivial
    · exact issues_answer (sync_issues cfg item)
  · rename_i cfg book item
    simp only [Event.call, handle]
    split
    · trivial
    · exact hans (disconnect_bound (fun g hg => ⟨cfg, item, rfl, hg⟩) (hs cfg book item rfl))
  · exact absurd he (by simp)

theorem bindings_tolerant {db : Db} (h : db.NoDangling) :
    Tolerant machine Event.call BindingSteps db Db.NoDangling bindContract (fun _ _ _ => True)
      Apart where
  start := h
  inv _ _ := Iff.rfl
  arrives _ _ _ hok _ := binding_wp hok.1 hok.2.2
  pairs _ _ _ hok a ha hrun := ⟨hok.2.1 a ha hrun, (hok.2.1 a ha hrun).symm⟩
  supplied _ := trivial
  rely _ _ _ _ hg _ hapart :=
    hg.mono (fun b g hl hd => (hapart b g).2 ⟨hl, hd⟩) fun b g hd hl => (hapart b g).1 ⟨hl, hd⟩
  keep _ _ _ _ _ _ := trivial

/-- **No dangling bank link.** In every interleaving of `LinkAccounts`, `Sync` and `Disconnect`
calls that keeps to `BindingSteps`, every link names an item of its account's book. -/
theorem links_bound {db : Db} (h : db.NoDangling) {c : Pool}
    (hr : Interleaved BindingSteps db c) : c.db.NoDangling :=
  ((bindings_tolerant h).poolInv hr).inv

/-- The bank confirms the removal of an item. -/
def removing (n k : Nat) : Env := { calm n k with removeItem := .ok () }

/-- A link request and a request to disconnect the same item. -/
def linkThirty : Event :=
  .request plainConfig 3 (.plaidLink (Guid.text 30) [⟨"checking", Guid.text 12⟩] false)

def disconnectThirty : Event := .request plainConfig 3 (.plaidDisconnect (Guid.text 30))

theorem noDangling_banked : banked.NoDangling := by
  have hnone : (banked.accounts.all fun a => a.plaid.isNone) = true := by decide +kernel
  intro a ha l hl
  have h := List.all_eq_true.mp hnone a ha
  rw [hl] at h
  exact absurd h (by simp)

/-- The item is disconnected between the check of `LinkAccounts` and its transaction. -/
theorem links_dangle : ∃ c, Interleaved (Spawning Event.binds) banked c ∧ ¬ c.db.NoDangling := by
  have hrun : (poolRun Event.binds banked
      (.spawn linkThirty :: .spawn disconnectThirty :: .step 0 (calm 100 0) ::
        (List.range 7).map (fun k => .step 1 (removing 100 (1 + k))) ++
        (List.range 7).map fun k => .step 0 (calm 100 (8 + k)))).map (fun c =>
      (c.db.items.isEmpty, c.db.accounts.any fun a => a.plaid.isSome)) = some (true, true) := by
    decide +kernel
  obtain ⟨c, hc, h⟩ := Option.map_eq_some_iff.mp hrun
  obtain ⟨h1, h2⟩ := Prod.mk.inj h
  refine ⟨c, interleaved_of_run hc, fun hn => ?_⟩
  obtain ⟨a, ha, hl⟩ := List.any_eq_true.mp h2
  obtain ⟨l, hl⟩ := Option.isSome_iff_exists.mp hl
  obtain ⟨g, -, p, hp, -⟩ := hn a ha l hl
  rw [List.isEmpty_iff.mp h1] at hp
  exact absurd hp (by simp)

/-- The test of an arrival while no other call is under way, where a `Disconnect` spells the item
as every link does. -/
def bindsAlone (c : Pool) (e : PoolStep) : Bool :=
  spawnsAlone Event.binds c e && match e with
    | .spawn (.request _ _ (.plaidDisconnect item)) =>
      c.db.accounts.all fun a => a.plaid.all (·.itemGuid == item)
    | _ => true

theorem bindingSteps_of_alone {c : Pool} {e : PoolStep} (h : bindsAlone c e = true) :
    BindingSteps c e := by
  unfold bindsAlone at h
  obtain ⟨h1, h2⟩ := Bool.and_eq_true_iff.mp h
  cases e with
  | step i env => trivial
  | spawn e =>
    simp only [spawnsAlone, Bool.and_eq_true, List.all_eq_true] at h1
    refine ⟨h1.1, fun a ha hrun => absurd hrun (Prog.not_running_of_outcome (h1.2 a ha)), ?_⟩
    rintro cfg book item rfl a ha - l hl g - -
    have hall := List.all_eq_true.mp h2 a ha
    rw [hl] at hall
    exact beq_iff_eq.mp hall

/-- The account is linked, then the item is disconnected: its link is gone. -/
theorem links_bound_cleared : ∃ c, Interleaved BindingSteps banked c ∧ c.db.NoDangling ∧
    c.db.items = [] ∧ c.calls.map (fun a => a.prog.outcome.map (·.toBool)) =
      [some true, some true] := by
  have hrun : (Conf.run machine Event.call bindsAlone ⟨banked, []⟩
      (.spawn linkThirty :: (List.range 8).map (fun k => .step 0 (calm 100 k)) ++
        .spawn disconnectThirty ::
          (List.range 7).map fun k => .step 1 (removing 100 (8 + k)))).map (fun c =>
      (c.db.items.isEmpty, c.calls.map fun a => a.prog.outcome.map (·.toBool))) =
      some (true, [some true, some true]) := by
    decide +kernel
  obtain ⟨c, hc, h⟩ := Option.map_eq_some_iff.mp hrun
  obtain ⟨h1, h2⟩ := Prod.mk.inj h
  have hr : Interleaved BindingSteps banked c :=
    Reach.run (fun _ _ => bindingSteps_of_alone) .start hc
  exact ⟨c, hr, links_bound noDangling_banked hr, List.isEmpty_iff.mp h1, h2⟩

end Antimoney
