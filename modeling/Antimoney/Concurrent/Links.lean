import Antimoney.Concurrent

/-!
# Bank links, one to one

`LinkAccounts` checks both halves of the one-to-one rule by plain reads before its `UPDATE`. The
unique index backs up one half; the other holds as long as no two calls under way map one account
differently.

* `Relinked`, `LinksBy`: what a call may do to the links of a book.
* **`linkEach_wp`**, **`linkAccounts_wp`**: the specification of a call among others.
* **`links_oneToOne`**: over every interleaving of `LinkAccounts` calls in one book.
-/

namespace Antimoney

open Antimoney.Lib Prog

/-! ## Links of a state -/

/-- Two links name the same item and plaid account. -/
def SameTarget (l l' : PlaidLink) : Prop := l.itemGuid = l'.itemGuid ∧ l.accountId = l'.accountId

theorem SameTarget.symm {l l' : PlaidLink} (h : SameTarget l l') : SameTarget l' l :=
  ⟨h.1.symm, h.2.symm⟩

/-- No plaid account is carried by two accounts of a book. -/
def Db.LinksUnique (db : Db) : Prop :=
  ∀ a ∈ db.accounts, ∀ b ∈ db.accounts, a.bookGuid = b.bookGuid → ∀ l l', a.plaid = some l →
    b.plaid = some l' → l.accountId = l'.accountId → a.guid = b.guid

/-- Every account that is linked and stays keeps the target of its link. -/
def KeepsLinks (x y : Db) : Prop :=
  ∀ a ∈ x.accounts, ∀ b ∈ y.accounts, a.guid = b.guid → ∀ l, a.plaid = some l →
    ∃ l', b.plaid = some l' ∧ SameTarget l l'

/-- An account of the book may be given a link that `P` allows; nothing else about its link
changes. -/
structure Relinked (book : Guid) (P : Guid → PlaidLink → Prop) (a b : Account) : Prop where
  guid : b.guid = a.guid
  inBook : b.bookGuid = a.bookGuid
  plaid : b.plaid = a.plaid ∨ (a.bookGuid = book ∧ ∃ l, b.plaid = some l ∧ P a.guid l)

/-- The accounts are the same, with new links as `P` allows. -/
def LinksBy (book : Guid) (P : Guid → PlaidLink → Prop) (x y : Db) : Prop :=
  List.Forall₂ (Relinked book P) x.accounts y.accounts

variable {book : Guid} {P P' : Guid → PlaidLink → Prop} {x y z : Db}

theorem Relinked.refl (a : Account) : Relinked book P a a := ⟨rfl, rfl, .inl rfl⟩

theorem Relinked.trans {a b c : Account} (h : Relinked book P a b) (h' : Relinked book P b c) :
    Relinked book P a c := by
  refine ⟨h'.guid.trans h.guid, h'.inBook.trans h.inBook, ?_⟩
  rcases h'.plaid with he | ⟨hb, l, hl, hp⟩
  · rw [he]
    exact h.plaid
  · exact .inr ⟨h.inBook.symm.trans hb, l, hl, h.guid ▸ hp⟩

theorem linksBy_of_eq (h : y.accounts = x.accounts) : LinksBy book P x y := by
  unfold LinksBy
  rw [h]
  exact List.forall₂_same.mpr fun a _ => .refl a

theorem LinksBy.trans (h : LinksBy book P x y) (h' : LinksBy book P y z) : LinksBy book P x z :=
  forall₂_trans (fun h h' => h.trans h') h h'

theorem LinksBy.mono (hP : ∀ g l, P g l → P' g l) (h : LinksBy book P x y) :
    LinksBy book P' x y :=
  h.imp fun _ _ hr => ⟨hr.guid, hr.inBook, hr.plaid.imp_right fun ⟨hb, l, hl, hp⟩ =>
    ⟨hb, l, hl, hP _ _ hp⟩⟩

theorem LinksBy.keys (h : LinksBy book P x y) :
    y.accounts.map (·.guid) = x.accounts.map (·.guid) := by
  have hlist : ∀ {t t' : List Account}, List.Forall₂ (Relinked book P) t t' →
      t'.map (·.guid) = t.map (·.guid) := by
    intro t t' h
    induction h with
    | nil => rfl
    | cons hr _ ih => rw [List.map_cons, List.map_cons, hr.guid, ih]
  exact hlist h

/-- What became of an account. -/
theorem LinksBy.row (h : LinksBy book P x y) (hk : (x.accounts.map (·.guid)).Nodup) {a b : Account}
    (ha : a ∈ x.accounts) (hb : b ∈ y.accounts) (hg : a.guid = b.guid) : Relinked book P a b := by
  obtain ⟨a', ha', hr⟩ := exists_of_forall₂ h hb
  obtain rfl : a' = a := List.inj_on_of_nodup_map hk ha' ha (hr.guid.symm.trans hg.symm)
  exact hr

theorem keepsLinks_refl (hk : (x.accounts.map (·.guid)).Nodup) : KeepsLinks x x := by
  intro a ha b hb hg l hl
  obtain rfl := List.inj_on_of_nodup_map hk ha hb hg
  exact ⟨l, hl, rfl, rfl⟩

/-- The `UPDATE` of a link, at commit. -/
theorem updateLink_linksBy {account : GuidText} {link : PlaidLink} {env : Env} {v : Db}
    (h : (updateLinkStmt book account link).write env v x = .ok y)
    (hP : ∀ g, account.parse = .ok g → P g link) : LinksBy book P x y := by
  obtain ⟨g, now, hg, -, rfl⟩ := updateLinkStmt_ok h
  refine forall₂_updateWhere (fun a _ ha => ?_) fun a _ _ => .refl a
  simp only [isAccount, Bool.and_eq_true, beq_iff_eq] at ha
  exact ⟨rfl, rfl, .inr ⟨ha.2, link, rfl, ha.1 ▸ hP g hg⟩⟩

/-- The unique index keeps links unique, whatever the reads before the `UPDATE` saw. -/
theorem updateLink_unique {account : GuidText} {link : PlaidLink} {env : Env} {v : Db}
    (h : (updateLinkStmt book account link).write env v x = .ok y) (hu : x.LinksUnique) :
    y.LinksUnique := by
  obtain ⟨g, now, -, hidx, rfl⟩ := updateLinkStmt_ok h
  -- a row that is linked now, against one left alone
  have hcross : ∀ a ∈ x.accounts, isAccount g book a = true → ∀ b ∈ x.accounts,
      isAccount g book b = false → a.bookGuid = b.bookGuid → ∀ l, b.plaid = some l →
        link.accountId ≠ l.accountId := by
    intro a ha hat b hb hbn hbook l hl he
    have hany : x.accounts.any (isAccount g book) = true := List.any_eq_true.mpr ⟨a, ha, hat⟩
    simp only [isAccount, Bool.and_eq_true, beq_iff_eq] at hat
    have hbb : b.bookGuid = book := hbook.symm.trans hat.2
    have hbg : b.guid ≠ g := fun hg => by simp [isAccount, hg, hbb] at hbn
    exact hidx hany b hb hbb hbg l hl he.symm
  intro a ha b hb hbook l l' hl hl' he
  rcases mem_updateWhere_cases ha with ⟨ha₀, han⟩ | ⟨a₀, ha₀, hat, rfl⟩ <;>
    rcases mem_updateWhere_cases hb with ⟨hb₀, hbn⟩ | ⟨b₀, hb₀, hbt, rfl⟩
  · exact hu a ha₀ b hb₀ hbook l l' hl hl' he
  · obtain rfl := Option.some.inj hl'
    exact absurd he.symm (hcross b₀ hb₀ hbt a ha₀ han hbook.symm l hl)
  · obtain rfl := Option.some.inj hl
    exact absurd he (hcross a₀ ha₀ hat b hb₀ hbn hbook l' hl')
  · simp only [isAccount, Bool.and_eq_true, beq_iff_eq] at hat hbt
    exact hat.1.trans hbt.1.symm

/-! ## One call among others -/

/-- The mappings ask for the link. -/
def Mapped (item : GuidText) (ms : List AccountMapping) (g : Guid) (l : PlaidLink) : Prop :=
  ∃ m ∈ ms, m.accountGuid.parse = .ok g ∧ l.itemGuid = item ∧ l.accountId = m.plaidAccountId

/-- The accounts the mappings name carry no other link than the one asked for. -/
def Free (book : Guid) (item : GuidText) (ms : List AccountMapping) (s : Db) : Prop :=
  ∀ a ∈ s.accounts, a.bookGuid = book → ∀ l, a.plaid = some l → ∀ l',
    Mapped item ms a.guid l' → SameTarget l l'

/-- The contract of a `LinkAccounts` that wants some links: the others give its accounts no other
link, and it replaces none. -/
def linkContract (book : Guid) (wants : Guid → PlaidLink → Prop) :
    Contract Stmt SqlErr Env Db where
  inv s := (s.accounts.map (·.guid)).Nodup
  rely := LinksBy book fun g l => ∀ l', wants g l' → SameTarget l l'
  guar _ x y := LinksBy book wants x y ∧ KeepsLinks x y
  ok _ _ _ := True
  rely_refl _ := linksBy_of_eq rfl
  rely_trans := LinksBy.trans
  guar_refl _ _ hk := ⟨linksBy_of_eq rfl, keepsLinks_refl hk⟩

variable {item : GuidText} {all ms done : List AccountMapping} {m : AccountMapping} {s : Db}

theorem Mapped.mono (h : ∀ m ∈ ms, m ∈ all) {g : Guid} {l : PlaidLink} (hm : Mapped item ms g l) :
    Mapped item all g l := by
  obtain ⟨m, hmem, hrest⟩ := hm
  exact ⟨m, h m hmem, hrest⟩

theorem stable_free (h : ∀ m ∈ ms, m ∈ all) :
    (linkContract book (Mapped item all)).Stable (Free book item ms) := by
  intro x y hx hr _ b hb hbook l hl l' hl'
  obtain ⟨a, ha, hab⟩ := exists_of_forall₂ hr hb
  rw [hab.guid] at hl'
  rcases hab.plaid with he | ⟨-, l₁, hl₁, hp⟩
  · exact hx a ha (hab.inBook.symm.trans hbook) l (he.symm.trans hl) l' hl'
  · obtain rfl := Option.some.inj (hl.symm.trans hl₁)
    exact hp l' (hl'.mono h)

/-- Links that go to free accounts, as their mappings ask, replace none. -/
theorem Free.keepsLinks (h : Free book item done x) (hk : (x.accounts.map (·.guid)).Nodup)
    (hl : LinksBy book (Mapped item done) x y) : KeepsLinks x y := by
  intro a ha b hb hg l hal
  have hr := hl.row hk ha hb hg
  rcases hr.plaid with he | ⟨hbook, l', hl', hp⟩
  · exact ⟨l, he.trans hal, rfl, rfl⟩
  · exact ⟨l', hl', h a ha hbook l hal l' hp⟩

/-- What the check of an account found in the transaction tells of what is committed. -/
theorem Free.cons {g : Guid} (h : Free book item done s) (hv : LinksBy book (Mapped item done) s x)
    (hg : m.accountGuid.parse = .ok g)
    (hfree : ∀ b ∈ x.accounts, b.guid = g → b.bookGuid = book → ∀ l, b.plaid = some l →
      l.itemGuid = item ∧ l.accountId = m.plaidAccountId) : Free book item (m :: done) s := by
  intro a ha hbook l hl l' hl'
  obtain ⟨m', hm', hg', hi', hp'⟩ := hl'
  rcases List.mem_cons.mp hm' with rfl | hm'
  · have hag : a.guid = g := Except.ok.inj (hg'.symm.trans hg)
    obtain ⟨b, hb, hr⟩ := exists_of_forall₂ (List.Forall₂.flip hv) ha
    have hbg : b.guid = g := hr.guid.trans hag
    rcases hr.plaid with he | ⟨-, l₁, hl₁, hp⟩
    · obtain ⟨hi, hp⟩ := hfree b hb hbg (hr.inBook.trans hbook) l (he.trans hl)
      exact ⟨hi.trans hi'.symm, hp.trans hp'.symm⟩
    · -- an earlier mapping has linked it: what is committed was free for that link
      obtain ⟨hi, hpid⟩ := hfree b hb hbg (hr.inBook.trans hbook) l₁ hl₁
      obtain ⟨h1, h2⟩ := h a ha hbook l hl l₁ hp
      exact ⟨(h1.trans hi).trans hi'.symm, (h2.trans hpid).trans hp'.symm⟩
  · exact h a ha hbook l hl l' ⟨m', hm', hg', hi', hp'⟩

theorem selectLink_ok {account : GuidText} {r : Option (Option PlaidLink)} {env : Env}
    (h : (selectLink book account).sem env x = .ok (r, y)) :
    ∃ g, account.parse = .ok g ∧ r = (x.accounts.find? (isAccount g book)).map (·.plaid) := by
  obtain ⟨hf, -⟩ := Stmt.queryE_ok h
  obtain ⟨g, hg, hr⟩ := ok_bind hf
  exact ⟨g, hg, (Except.ok.inj hr).symm⟩

/-- What is known at the end of the loop: every write is one the mappings asked for, to an account
that was free. -/
def LinkedAll (book : Guid) (item : GuidText) (all : List AccountMapping)
    (r : Except Err Unit) (ss : Sess SqlErr Lock Db) (s : Db) : Prop :=
  ∀ u, r = .ok u → ∃ done, (∀ m ∈ done, m ∈ all) ∧ ss.Pends (LinksBy book (Mapped item done)) ∧
    Free book item done s

theorem linkedAll_fail (e : Err) (ss : Sess SqlErr Lock Db) (s : Db) :
    LinkedAll book item all (.error e) ss s := fun _ h => absurd h (by simp)

/-- A read in the transaction leaves what would be committed as it is. -/
theorem linksBy_read {β : Type} {q : Stmt β} (hq : q.Reads) (env : Env) (v v' : Db) (b : β)
    (s x y z : Db) (_ : (linkContract book (Mapped item all)).ok q env s)
    (_ : machine.exec q env v = .ok (b, v')) (_ : LinksBy book P s v) (hxy : LinksBy book P x y)
    (hw : machine.write q env v y = .ok z) : LinksBy book P x z := by
  rw [hq.write hw]
  exact hxy

/-- The loop over the mappings that are left, `done` being behind it. -/
theorem linkEach_wp {institution : String} {ss : Sess SqlErr Lock Db}
    (hall : ∀ m ∈ done ++ ms, m ∈ all) (hp : ss.Pends (LinksBy book (Mapped item done)))
    (hs : Free book item done s) :
    (linkEach book item institution ms).wp machine (linkContract book (Mapped item all))
      (LinkedAll book item all) ss s := by
  induction ms generalizing done ss s with
  | nil => exact fun _ _ => ⟨done, fun m hm => hall m (List.mem_append_left _ hm), hp, hs⟩
  | cons m ms ih =>
    have hdone : ∀ m ∈ done, m ∈ all := fun m hm => hall m (List.mem_append_left _ hm)
    refine wp_stmt_pends (stable_free hdone) hp hs (linksBy_read (Stmt.reads_queryE _))
      (fun e ss s _ _ => linkedAll_fail _ ss s) ?_
    intro _ count _ _ ss s hs _ _ _ _ hp
    dsimp only [ret_bind]
    split
    · exact linkedAll_fail _ ss s
    · refine wp_stmt_pends (stable_free hdone) hp hs (linksBy_read (Stmt.reads_queryE _))
        (fun e ss s _ _ => linkedAll_fail _ ss s) ?_
      intro env r v v' ss s hs hi hv _ hx hp
      obtain ⟨g, hg, rfl⟩ := selectLink_ok hx
      cases hfind : v.accounts.find? (isAccount g book) with
      | none => exact linkedAll_fail _ ss s
      | some a =>
        dsimp only [Option.map_some, ret_bind]
        split
        · exact linkedAll_fail _ ss s
        · rename_i hex
          have hs' : Free book item (m :: done) s := by
            refine hs.cons hv hg fun b hb hbg hbook l hl => ?_
            have hk : (v.accounts.map (·.guid)).Nodup := hv.keys ▸ hi
            have hat := List.find?_some hfind
            simp only [isAccount, Bool.and_eq_true, beq_iff_eq] at hat
            obtain rfl := List.inj_on_of_nodup_map hk hb (List.mem_of_find?_eq_some hfind)
              (hbg.trans hat.1.symm)
            simp only [hl, Option.any_some, decide_eq_true_eq, not_or, not_not] at hex
            exact hex
          have hall' : ∀ m' ∈ (m :: done) ++ ms, m' ∈ all := fun m' hm' =>
            hall m' (by simp only [List.mem_append, List.mem_cons] at hm' ⊢; tauto)
          have hdone' : ∀ m' ∈ m :: done, m' ∈ all := fun m' hm' =>
            hall' m' (List.mem_append_left _ hm')
          refine wp_stmt_pends (V := fun _ => LinksBy book (Mapped item (m :: done))) (stable_free hdone') hp
            hs' ?_ (fun e ss s _ _ => ?_) ?_
          · intro env v v' b s x y z _ _ _ hxy hw
            refine (hxy.mono fun g l h => h.mono fun m hm => .tail _ hm).trans
              (updateLink_linksBy (v := v) hw fun g hg => ?_)
            exact ⟨m, List.mem_cons_self, hg, rfl, rfl⟩
          · dsimp only [ret_bind]
            split
            · exact linkedAll_fail _ ss s
            · exact linkedAll_fail _ ss s
            · rename_i h
              exact absurd h (by simp)
          · intro _ affected _ _ ss s hs _ _ _ _ hp
            dsimp only [ret_bind]
            split
            · exact linkedAll_fail _ ss s
            · exact ih hall' hp hs

theorem linkAccounts_wp {importPending : Bool} (s : Db) :
    (linkAccounts book item all importPending).wp machine (linkContract book (Mapped item all))
      (fun _ _ _ => True) .idle s := by
  refine wp_stmt_frame (R := fun _ => True) (frame_reads _) (fun _ _ _ _ _ => trivial)
    (fun _ _ _ _ _ => trivial) (Stmt.reads_queryE _) trivial (fun _ _ _ _ _ _ => trivial) ?_
  intro _ r _ s _ _ _ _ _ _
  rcases r with _ | institution
  · trivial
  refine wp_inTx (fun _ _ _ _ => trivial) fun s _ _ => ?_
  refine wp_bind (wp_mono (fun r ss s h => ?_) (linkEach_wp (fun m (hm : m ∈ [] ++ all) => hm)
    (Sess.pends_begin fun x => linksBy_of_eq rfl) ?_))
  · cases r with
    | error e => exact fun _ _ _ => trivial
    | ok u =>
      obtain ⟨done, hdone, hp, hs⟩ := h u rfl
      refine wp_stmt_pends (V := fun _ => LinksBy book (Mapped item done)) (stable_free hdone) hp hs ?_
        (fun _ _ _ _ _ _ _ _ => trivial) ?_
      · intro env v v' b s x y z _ _ _ hxy hw
        obtain ⟨_, _, -, rfl⟩ := updateImportPending_ok (v := v) hw
        exact hxy.trans (linksBy_of_eq rfl)
      · intro _ _ _ _ ss s hs _ _ _ _ hp
        refine wp_commit_pends (stable_free hdone) hp hs (fun _ _ _ _ _ _ _ => trivial) ?_
        intro s v hs hk hv
        have hk' : (v.accounts.map (·.guid)).Nodup := hv.keys ▸ hk
        exact ⟨hk', ⟨hv.mono fun g l h => h.mono hdone, hs.keepsLinks hk hv⟩,
          fun _ _ _ => trivial⟩
  · rintro a - - l - l' ⟨m, hm, -⟩
    exact absurd hm (by simp)

/-! ## Every interleaving -/

/-- The event is a `LinkAccounts` under the book. -/
def Event.links (book : Guid) : Event → Bool
  | .request _ b (.plaidLink _ _ _) => b == book
  | _ => false

/-- The event asks for the link. -/
def Event.Wants (e : Event) (g : Guid) (l : PlaidLink) : Prop :=
  ∃ cfg book item ms importPending,
    e = .request cfg book (.plaidLink item ms importPending) ∧ Mapped item ms g l

/-- The two events ask for the same link wherever they ask for one on the same account. -/
def Agree (e e' : Event) : Prop := ∀ g l l', e.Wants g l → e'.Wants g l' → SameTarget l l'

/-- `LinkAccounts` calls in the book, where no two under way at once ask for different links on
one account. -/
def AgreeingLinks (book : Guid) (c : Pool) : PoolStep → Prop
  | .spawn e => e.links book = true ∧
    ∀ a ∈ c.calls, a.prog.Running → Agree a.req e
  | .step _ _ => True

theorem Agree.symm {e e' : Event} (h : Agree e e') : Agree e' e :=
  fun g l l' hl hl' => (h g l' l hl' hl).symm

theorem Event.links_cases {e : Event} (h : e.links book = true) :
    ∃ cfg item ms importPending, e = .request cfg book (.plaidLink item ms importPending) := by
  unfold Event.links at h
  split at h
  · obtain rfl := beq_iff_eq.mp h
    exact ⟨_, _, _, _, rfl⟩
  · exact absurd h (by simp)

theorem Event.wants_link {cfg : PlaidConfig} {importPending : Bool} :
    (Event.request cfg book (.plaidLink item ms importPending)).Wants = Mapped item ms := by
  funext g l
  refine propext ⟨?_, fun h => ⟨_, _, _, _, _, rfl, h⟩⟩
  rintro ⟨_, _, _, _, _, he, h⟩
  obtain ⟨-, -, he⟩ := Event.request.inj he
  obtain ⟨rfl, rfl, -⟩ := Request.plaidLink.inj he
  exact h

theorem linkCall_wp (cfg : PlaidConfig) {importPending : Bool} (s : Db) :
    (handle cfg book (.plaidLink item ms importPending)).wp machine
      (linkContract book (Mapped item ms)) (fun _ _ _ => True) .idle s := by
  simp only [handle]
  split
  · trivial
  · split
    · trivial
    · refine wp_bind (wp_mono (fun r ss s _ => ?_) (linkAccounts_wp s))
      cases r <;> trivial

theorem links_tolerant {db : Db} (hk : (db.accounts.map (·.guid)).Nodup) :
    Tolerant machine Event.call (AgreeingLinks book) db (fun s => (s.accounts.map (·.guid)).Nodup)
      (fun e => linkContract book e.Wants) (fun _ _ _ => True) Agree where
  start := hk
  inv _ _ := Iff.rfl
  arrives c e _ hok _ := by
    obtain ⟨cfg, item, ms, importPending, rfl⟩ := Event.links_cases hok.1
    rw [Event.wants_link]
    exact linkCall_wp cfg c.db
  pairs c e _ hok a ha hrun := ⟨hok.2 a ha hrun, (hok.2 a ha hrun).symm⟩
  supplied _ := trivial
  rely _ _ _ _ hg _ hagree := hg.1.mono fun g l hl l' hl' => (hagree g l' l hl' hl).symm
  keep _ _ _ _ _ _ := trivial

/-- Nothing else than `LinkAccounts` calls in the book arrives. -/
abbrev LinkCalls (book : Guid) : Pool → PoolStep → Prop := Spawning (Event.links book)

/-- Linking keeps links unique: the index does, whatever the others do. -/
def uniqueContract : Contract Stmt SqlErr Env Db where
  inv := Db.LinksUnique
  rely _ _ := True
  guar _ _ _ := True
  ok _ _ _ := True
  rely_refl _ := trivial
  rely_trans _ _ := trivial
  guar_refl _ _ _ := trivial

theorem frame_unique (book : Guid) (item : GuidText) :
    Frame machine uniqueContract (Linking book item) fun x y => x.LinksUnique → y.LinksUnique where
  refl _ h := h
  trans h h' hx := h' (h hx)
  write q env s v v' b x y hq _ _ _ hw := by
    intro hx
    cases hq with
    | read h => exact h.reads.write hw ▸ hx
    | updateLink a l => exact updateLink_unique (v := v) hw hx
    | updateImportPending p =>
      obtain ⟨_, _, -, rfl⟩ := updateImportPending_ok (v := v) hw
      exact hx
  keeps _ _ _ _ hx h := ⟨h hx, trivial⟩

theorem unique_tolerant {db : Db} (hu : db.LinksUnique) :
    Tolerant machine Event.call (LinkCalls book) db Db.LinksUnique (fun _ => uniqueContract)
      (fun _ _ _ => True) fun _ _ => True where
  start := hu
  inv _ _ := Iff.rfl
  arrives c e _ hok _ := by
    obtain ⟨cfg, item, ms, importPending, rfl⟩ := Event.links_cases hok
    refine wp_frame (frame_unique book item) ?_ Sess.within_idle
    simp only [Event.call, handle]
    split
    · trivial
    · split
      · trivial
      · exact issues_answer (linkAccounts_issues item ms importPending)
  pairs _ _ _ _ _ _ _ := ⟨trivial, trivial⟩
  supplied _ := trivial
  rely _ _ _ _ _ _ _ := trivial
  keep _ _ _ _ _ _ := trivial

/-- **Bank links are one to one.** In every interleaving of `LinkAccounts` calls in one book no
plaid account is carried by two accounts; and where calls under way at once agree on the accounts
they share, none replaces a link. -/
theorem links_oneToOne {db : Db} (hk : (db.accounts.map (·.guid)).Nodup) (hu : db.LinksUnique) :
    (∀ c, Interleaved (LinkCalls book) db c → c.db.LinksUnique) ∧
      ∀ c i env c', Interleaved (AgreeingLinks book) db c →
        c.next machine Event.call (.step i env) = some c' → KeepsLinks c.db c'.db := by
  refine ⟨fun c hr => ((unique_tolerant hu).poolInv hr).inv, fun c i env c' hr hn => ?_⟩
  obtain ⟨e, _, _, _, _, _, hg⟩ := (links_tolerant hk).guar hr trivial hn
  exact hg.2

/-- A request to link account 12 to a plaid account of item 30. -/
def linkTo (plaidAccount : String) : Event :=
  .request plainConfig 3 (.plaidLink (Guid.text 30) [⟨plaidAccount, Guid.text 12⟩] false)

/-- Two calls that map account 12 to different plaid accounts, up to the commit of the second:
both have checked the account before either has linked it. -/
def twoLinks : List PoolStep :=
  [.spawn (linkTo "checking"), .spawn (linkTo "savings")] ++
    (List.range 4).map (fun k => .step 0 (calm 100 k)) ++
    (List.range 4).map (fun k => .step 1 (calm 100 (4 + k))) ++
    (List.range 4).map (fun k => .step 0 (calm 100 (8 + k))) ++
    (List.range 2).map fun k => .step 1 (calm 100 (12 + k))

/-- Where they differ, the second silently replaces the link of the first. -/
theorem links_replaced : ∃ c i env c', Interleaved (LinkCalls 3) banked c ∧
    c.next machine Event.call (.step i env) = some c' ∧ ¬ KeepsLinks c.db c'.db := by
  have hrun : ((poolRun (Event.links 3) banked twoLinks).bind fun c =>
      (c.next machine Event.call (.step 1 (calm 100 14))).map fun c' =>
        (c.db.accounts.filterMap fun a => a.plaid.map fun l => (a.guid, l.accountId),
          c'.db.accounts.filterMap fun a => a.plaid.map fun l => (a.guid, l.accountId))) =
      some ([(12, "checking")], [(12, "savings")]) := by
    decide +kernel
  obtain ⟨c, hc, h⟩ := Option.bind_eq_some_iff.mp hrun
  obtain ⟨c', hn, h⟩ := Option.map_eq_some_iff.mp h
  obtain ⟨h1, h2⟩ := Prod.mk.inj h
  refine ⟨c, 1, _, c', interleaved_of_run hc, hn, fun hkeep => ?_⟩
  have linked : ∀ {s : Db} {id : String}, (s.accounts.filterMap fun a =>
      a.plaid.map fun l => (a.guid, l.accountId)) = [(12, id)] →
      ∃ a ∈ s.accounts, a.guid = 12 ∧ ∃ l, a.plaid = some l ∧ l.accountId = id := by
    intro s id h
    have hm : (12, id) ∈ [(12, id)] := List.mem_singleton_self _
    rw [← h, List.mem_filterMap] at hm
    obtain ⟨a, ha, hl⟩ := hm
    obtain ⟨l, hl, he⟩ := Option.map_eq_some_iff.mp hl
    obtain ⟨hg, hid⟩ := Prod.mk.inj he
    exact ⟨a, ha, hg, l, hl, hid⟩
  obtain ⟨a, ha, hga, l, hl, hid⟩ := linked h1
  obtain ⟨b, hb, hgb, l', hl', hid'⟩ := linked h2
  obtain ⟨l'', hl'', -, hsame⟩ := hkeep a ha b hb (hga.trans hgb.symm) l hl
  obtain rfl := Option.some.inj (hl'.symm.trans hl'')
  rw [hid, hid'] at hsame
  exact absurd hsame (by decide)

/-- One call after the other: the second is refused and the link stays. -/
theorem links_oneToOne_refused : ∃ c i env c', Interleaved (AgreeingLinks 3) banked c ∧
    c.next machine Event.call (.step i env) = some c' ∧ c.db.LinksUnique ∧
    KeepsLinks c.db c'.db ∧
    c'.calls.map (fun a => a.prog.outcome.map (·.toBool)) = [some true, some false] := by
  have hrun : ((Conf.run machine Event.call (spawnsAlone (Event.links 3)) ⟨banked, []⟩
      (.spawn (linkTo "checking") :: (List.range 8).map (fun k => .step 0 (calm 100 k)) ++
        .spawn (linkTo "savings") :: (List.range 4).map fun k => .step 1 (calm 100 (8 + k)))).bind
      fun c => (c.next machine Event.call (.step 1 (calm 100 12))).map fun c' =>
        c'.calls.map fun a => a.prog.outcome.map (·.toBool)) = some [some true, some false] := by
    decide +kernel
  obtain ⟨c, hc, h⟩ := Option.bind_eq_some_iff.mp hrun
  obtain ⟨c', hn, ho⟩ := Option.map_eq_some_iff.mp h
  have hr : Interleaved (AgreeingLinks 3) banked c := by
    refine Reach.run (fun c e he => ?_) .start hc
    cases e with
    | step i env => trivial
    | spawn e =>
      simp only [spawnsAlone, Bool.and_eq_true, List.all_eq_true] at he
      exact ⟨he.1, fun a ha hrun => absurd hrun (Prog.not_running_of_outcome (he.2 a ha))⟩
  have hr' : Interleaved (LinkCalls 3) banked c := by
    refine Reach.run (fun c e he => ?_) .start hc
    cases e with
    | step i env => trivial
    | spawn e =>
      simp only [spawnsAlone, Bool.and_eq_true] at he
      exact he.1
  have hk : (banked.accounts.map (·.guid)).Nodup := by decide +kernel
  have hu : banked.LinksUnique := by
    have hnone : (banked.accounts.all fun a => a.plaid.isNone) = true := by decide +kernel
    intro a ha b _ _ l l' hl
    have h := List.all_eq_true.mp hnone a ha
    rw [hl] at h
    exact absurd h (by simp)
  exact ⟨c, 1, _, c', hr, hn, (links_oneToOne hk hu).1 c hr',
    (links_oneToOne hk hu).2 c 1 _ c' hr hn, ho⟩

end Antimoney
