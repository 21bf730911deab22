import Antimoney.Concurrent.Tokens

/-!
# Disconnecting items

`Disconnect` reads a row and opens its token; the bank ends the access, or, where no key opens the
token, the row is archived at the version read. Only then does a transaction delete the row.

* **`removeItem_sealed`**, **`disconnect_sealed`**: the specification of the call among others.
* **`token_lasts`**: each row opens to the token of the `Exchange` that committed last on it.
* **`disconnect_justified`**: what is deleted was confirmed by the bank, or archived; a call that
  fails has touched nothing.
-/

namespace Antimoney

open Antimoney.Lib Prog

variable {p : PlaidItem} {s s' s'' : Logged Db Note} {start : List Guid} {e : Arrival Event}
  {cfg : TokenConfig} {forced : Bool} {id : Nat}

/-! ## The transaction -/

/-- Why the row may be deleted, as known before the transaction. -/
def Why (id : Nat) (cfg : TokenConfig) (p : PlaidItem) (forced : Bool) (s : Logged Db Note) : Prop :=
  if forced then Undecryptable cfg p else Confirmed id p.itemId s.log

/-- What the call knows when it removes the row it read. -/
structure Removable (id : Nat) (cfg : TokenConfig) (p : PlaidItem) (forced : Bool)
    (s : Logged Db Note) : Prop where
  held : Held p s
  spares : Spares id s
  why : Why id cfg p forced s

theorem Why.grows (h : Why id cfg p forced s) (hg : ∀ e ∈ s.log, e ∈ s'.log) :
    Why id cfg p forced s' := by
  unfold Why at h ⊢
  split
  · rename_i hf
    rw [if_pos hf] at h
    exact h
  · rename_i hf
    rw [if_neg hf] at h
    obtain ⟨n, token, hn, hrest⟩ := h
    exact ⟨n, token, hg _ hn, hrest⟩

theorem stable_removable : (tokenContract start e).Stable (Removable e.id cfg p forced) :=
  fun x y h hr hi => ⟨stable_held x y h.held hr hi, stable_spares x y h.spares hr hi,
    h.why.grows hr.1.grows⟩

/-- The audit rows hold a copy of the token of `p`. -/
def Copies (rows : List Audit) (p : PlaidItem) : Prop :=
  ∃ a ∈ rows, a.payload.ciphertext = p.ciphertext ∧ a.payload.nonce = p.nonce

/-- The transaction before its `DELETE`: it has archived `rows`. -/
structure Parting (id : Nat) (rows : List Audit) (x y : Logged Db Note) : Prop where
  items : y.data.items = x.data.items
  audit : y.data.audit = x.data.audit ++ rows
  log : Logged.Adds (fun e => e.1 = id ∧ ∀ b i, e.2.tag.tokenOf b i = none) x y

/-- The transaction after its `DELETE`. -/
structure Parted (id : Nat) (rows : List Audit) (c : PlaidItem → Bool) (x y : Logged Db Note) :
    Prop where
  items : y.data.items = deleteWhere c x.data.items
  audit : y.data.audit = x.data.audit ++ rows
  log : Logged.Adds (fun e => e.1 = id ∧ ∀ b i, e.2.tag.tokenOf b i = none) x y
  logged : ∃ n book g, (id, n) ∈ y.log ∧ n.tag = .deleteItem book g

theorem Parted.tames {rows : List Audit} {c : PlaidItem → Bool} (h : Parted id rows c s s') :
    Tames id s s' := ⟨kept_of_delete h.items, h.log⟩

/-- **The commit of `Disconnect`** deletes what the call may. -/
theorem Parted.deletes {rows : List Audit} {version : Option Nat}
    (h : Parted id rows (itemAt p.guid p.bookGuid version) s s') (hr : Removable id cfg p forced s)
    (hf : forced = true → version = some p.version ∧ Copies rows p) : Deletes id cfg s s' := by
  refine ⟨h.logged, fun q hq => ?_⟩
  by_cases hc : itemAt p.guid p.bookGuid version q = true
  · have hat := hc
    simp only [itemAt, Bool.and_eq_true, beq_iff_eq] at hat
    have hfol := hr.held.rows q hq hat.1.1
    have hwhy := hr.why.grows h.tames.tended.grows
    unfold Why at hwhy
    split at hwhy
    · rename_i hforced
      obtain ⟨rfl, a, ha, hac, han⟩ := hf hforced
      obtain ⟨hcq, hnq⟩ := hfol.same (by simpa using hat.2)
      refine .inr (.inr ⟨fun key hk aad haad => ?_, rows, h.audit, a, ha, hac.trans hcq.symm,
        han.trans hnq.symm⟩)
      rw [hcq, hnq]
      rw [hfol.book, hfol.itemId] at haad
      exact hwhy key hk aad haad
    · rw [← hfol.itemId] at hwhy
      exact .inr (.inl hwhy)
  · refine .inl ⟨q, ?_, rfl⟩
    rw [h.items]
    exact mem_deleteWhere.mpr ⟨hq, by simpa using hc⟩

/-- The log entries of a statement of the call that is no upsert. -/
theorem adds_note {β : Type} {q : Stmt β} {env : Nat × Env} {v x y z : Logged Db Note}
    (h : Logged.Adds (fun e => e.1 = id ∧ ∀ b i, e.2.tag.tokenOf b i = none) x y)
    (hl : z.log = (env.1, noteOf q env.2 v.data) :: y.log) (hid : env.1 = id)
    (ht : ∀ b i, q.tag.tokenOf b i = none) :
    Logged.Adds (fun e => e.1 = id ∧ ∀ b i, e.2.tag.tokenOf b i = none) x z :=
  h.trans ⟨[_], hl, fun e he => by rw [List.mem_singleton.mp he]; exact ⟨hid, ht⟩⟩

theorem archiveIfForced_sealed (hr : Removable e.id cfg p forced s)
    {ss : Sess SqlErr Lock (Logged Db Note)} (hp : ss.Pends fun x y => y = x) :
    (archiveIfForced p.bookGuid p.guid p.version forced).wp observed (tokenContract start e)
      (fun r ss s => Removable e.id cfg p forced s ∧ ∀ n, r = .ok n → n ≠ 0 →
        ∃ rows, ss.Pends (Parting e.id rows) ∧ (forced = true → Copies rows p)) ss s := by
  unfold archiveIfForced
  split
  · rename_i hforced
    refine wp_stmt_pends (V := fun v => Parting e.id
      ((v.data.items.filter fun q => isItem p.guid p.bookGuid q && q.version == p.version).map
        (Audit.mk "force-disconnect"))) stable_removable hp hr ?_
      (fun _ _ _ hr _ => ⟨hr, fun _ h => absurd h (by simp)⟩) ?_
    · rintro env v v' b s x y z hid - - rfl hw
      obtain ⟨hw, hl⟩ := Machine.logged_write hw
      have hz := @archiveItem_ok _ env.2 _ _ _ _ _ hw
      exact ⟨by rw [hz], by rw [hz], adds_note (.refl _ _) hl hid.1 fun _ _ => rfl⟩
    · rintro env n v v' ss s hr - rfl - hx hp
      refine ⟨hr, fun n' hn hne => ⟨_, hp, fun _ => ?_⟩⟩
      obtain rfl := Except.ok.inj hn
      -- a row was archived; it is the row that was read
      obtain ⟨hx, -⟩ := Machine.logged_exec hx
      have hcount : n = v.data.items.countP fun q => isItem p.guid p.bookGuid q &&
          q.version == p.version :=
        (Prod.mk.inj (Except.ok.inj (ok_of_failing hx))).1.symm
      rw [hcount] at hne
      obtain ⟨q, hq, hc⟩ := List.countP_pos_iff.mp (Nat.pos_of_ne_zero hne)
      refine ⟨⟨"force-disconnect", q⟩, List.mem_map.mpr ⟨q, List.mem_filter.mpr ⟨hq, hc⟩, rfl⟩, ?_⟩
      simp only [isItem, Bool.and_eq_true, beq_iff_eq] at hc
      exact (hr.held.rows q hq hc.1.1).same hc.2.symm
  · rename_i hforced
    refine ⟨hr, fun n hn _ => ⟨[], ?_, fun h => absurd h hforced⟩⟩
    obtain ⟨f, held, rfl, hf⟩ := hp
    refine ⟨f, held, rfl, fun x y hxy => ?_⟩
    obtain rfl := hf x y hxy
    exact ⟨rfl, by simp, .refl _ _⟩

/-- **The transaction of `Disconnect` among other calls.** -/
theorem removeItem_sealed {item : GuidText} {s : Logged Db Note}
    (hreq : ∀ cfg' book item, e.req = .request cfg' book (.plaidDisconnect item) → cfg'.tokens = cfg)
    (hr : Removable e.id cfg p forced s) :
    (removeItem p.bookGuid item p.guid p.version forced).wp observed (tokenContract start e)
      (fun r _ s => ∀ er, r = .error er → Spares e.id s) .idle s := by
  have hend : ∀ (er : Err) (s : Logged Db Note), Removable e.id cfg p forced s →
      ∀ s₂, (tokenContract start e).rely s s₂ → (tokenContract start e).inv s₂ →
      ∀ er', Except.error (α := Unit) er = .error er' → Spares e.id s₂ :=
    fun _ s hr s₂ hrel hi _ _ => stable_spares s s₂ hr.spares hrel hi
  refine wp_inTx (fun s' er hrel hi _ _ => stable_spares _ _ hr.spares hrel hi) fun s₁ hrel hi => ?_
  have hr₁ := stable_removable _ _ hr hrel hi
  refine wp_bind (wp_mono (fun r ss s hpost => ?_)
    (archiveIfForced_sealed hr₁ (Sess.pends_begin fun x => rfl)))
  obtain ⟨hr, hpost⟩ := hpost
  cases r with
  | error er => exact hend er s hr
  | ok archived =>
    dsimp only [Prog.ofExcept, ret_bind]
    split
    · exact hend _ s hr
    rename_i hne
    obtain ⟨rows, hp, hcopies⟩ := hpost archived rfl hne
    refine wp_stmt_pends (V := fun _ => Parting e.id rows) stable_removable hp hr ?_
      (fun _ _ s hr _ => hend _ s hr) ?_
    · intro env v v' b s x y z hid _ _ hxy hw
      obtain ⟨hw, hl⟩ := Machine.logged_write hw
      have hz := clearLinks_ok hw
      exact ⟨by rw [hz]; exact hxy.items, by rw [hz]; exact hxy.audit,
        adds_note hxy.log hl hid.1 fun _ _ => rfl⟩
    intro _ _ _ _ ss s hr _ _ _ _ hp
    refine wp_stmt_pends
      (V := fun _ => Parted e.id rows (itemAt p.guid p.bookGuid (if forced then some p.version else none)))
      stable_removable hp hr ?_ (fun _ _ s hr _ => hend _ s hr) ?_
    · intro env v v' b s x y z hid _ _ hxy hw
      obtain ⟨hw, hl⟩ := Machine.logged_write hw
      have hz := deleteItemStmt_ok (v := v.data) hw
      refine ⟨?_, by rw [hz]; exact hxy.audit, adds_note hxy.log hl hid.1 fun _ _ => rfl, ?_⟩
      · rw [hz, ← hxy.items]
        rfl
      · exact ⟨_, _, _, by rw [hl, hid.1]; exact List.mem_cons_self, rfl⟩
    intro _ deleted _ _ ss s hr _ _ _ _ hp
    dsimp only [ret_bind]
    split
    · exact hend _ s hr
    refine wp_commit_pends stable_removable hp hr (fun _ s hr _ => hend _ s hr) ?_
    intro s y hr hi hw
    refine ⟨hw.tames.inv hi, ⟨hw.tames.tended, hw.log.mono fun _ h => h.1, ?_⟩,
      fun _ _ _ _ h => absurd h (by simp)⟩
    intro cfg' book' item' he
    rw [hreq cfg' book' item' he]
    exact .inr (hw.deletes hr fun hf => ⟨by rw [if_pos hf], hcopies hf⟩)

/-- **`Disconnect` among other calls.** -/
theorem disconnect_sealed {cfg : PlaidConfig} {book : Guid} {item : GuidText}
    (hreq : e.req = .request cfg book (.plaidDisconnect item)) (hs : Spares e.id s) :
    (disconnect cfg book item).wp observed (tokenContract start e)
      (fun r _ s => ∀ er, r = .error er → Spares e.id s) .idle s := by
  have hcfg : ∀ cfg' book item, e.req = .request cfg' book (.plaidDisconnect item) →
      cfg'.tokens = cfg.tokens := by
    intro cfg' book' item' he
    rw [hreq] at he
    rw [(Event.request.inj he).1]
  refine selectItem_held hs (fun _ s hs _ _ => hs) (fun s hs _ _ => hs) fun p s hp hs hb hg => ?_
  obtain rfl := hb
  refine wp_bind (p := loadAndDecryptToken cfg.tokens p.bookGuid item p.itemId p.ciphertext p.nonce
    p.version) (wp_mono (fun r ss s hpost => ?_) (loadToken_sealed hp hs hg))
  obtain ⟨rfl, ⟨hp, hs⟩, hd⟩ := hpost
  rcases r with er | (_ | _) | token
  · exact fun _ _ => hs
  · exact fun _ _ => hs
  · -- no key opens the token: the row is archived
    refine removeItem_sealed hcfg (show Removable e.id cfg.tokens p true s from ⟨hp, hs, ?_⟩)
    have hfail : decryptToken cfg.tokens p.bookGuid p.itemId p.ciphertext p.nonce =
        .error .decryptFailed := by
      have h := hd _ rfl
      cases hdec : decryptToken cfg.tokens p.bookGuid p.itemId p.ciphertext p.nonce with
      | error er =>
        rw [hdec] at h
        rw [Except.error.inj h]
      | ok t =>
        rw [hdec] at h
        exact absurd h (by simp [Except.map])
    intro key hk aad haad
    obtain ⟨h1, h2⟩ := decryptToken_failed hfail key hk
    rcases haad with rfl | rfl
    · exact h1
    · exact h2
  · refine wp_stmt_idle (fun s' _ _ hr hi _ _ _ _ => stable_spares _ _ hs hr hi) ?_
    intro s₁ env r s₂ hr hi _ hid hx
    obtain ⟨hx, hl⟩ := Machine.logged_exec hx
    obtain ⟨rfl, hdata⟩ := Stmt.askEnv_ok hx
    have hw : Watches e.id s₁ s₂ := by
      refine ⟨hdata, [_], hl, fun e' he' => ?_⟩
      rw [List.mem_singleton.mp he']
      exact ⟨hid.1, rfl⟩
    have hs₂ := hw.spares (stable_spares _ _ hs hr hi)
    have hp₂ := (stable_held _ _ hp hr hi).tended hw.tames.tended
    refine ⟨hw.tames.inv hi, ⟨hw.tames.tended, hw.log.mono fun _ h => h.1,
      fun _ _ _ _ => .inl (untouched_of_eq hw.data)⟩, ?_⟩
    dsimp only [ret_bind]
    cases hconf : env.2.removeItem with
    | error er => exact fun _ _ => hs₂
    | ok u =>
      refine removeItem_sealed hcfg (show Removable e.id cfg.tokens p false s₂ from ⟨hp₂, hs₂, ?_⟩)
      exact ⟨_, token, by rw [hl, hid.1]; exact List.mem_cons_self, rfl, hconf⟩

/-! ## Every interleaving -/

/-- The requests that write items. -/
def Request.writesItem : Request → Bool
  | .plaidExchange | .plaidLink _ _ _ | .plaidSync _ | .plaidDisconnect _ => true
  | _ => false

/-- `uuid.New` gives a new item an identifier that no item had before. -/
def FreshItem (c : Observed) : ObservedStep → Prop
  | .spawn _ => True
  | .step i _ => ∀ book itemId g t, nextTag c i = some (.upsertItem book itemId g t) →
    ¬ Known c.db.log g

/-- Only requests that write items arrive, and new items get fresh identifiers. -/
def ItemWriters (c : Observed) (e : ObservedStep) : Prop :=
  Arriving Request.writesItem c e ∧ FreshItem c e

/-- What holds of the outcome of a call: a `Disconnect` that fails has deleted no item. -/
def itemPost (r : Arrival Event) (x : Except Err Response) (s : Logged Db Note) : Prop :=
  ∀ cfg book item, r.req = .request cfg book (.plaidDisconnect item) →
    ∀ er, x = .error er → Spares r.id s

theorem itemWriter_wp {r : Arrival Event} (hs : Spares r.id s)
    (h : ∃ cfg book req, r.req = .request cfg book req ∧ req.writesItem = true) :
    r.call.wp observed (tokenContract start r) (fun x _ s => itemPost r x s) .idle s := by
  obtain ⟨id, e⟩ := r
  obtain ⟨cfg, book, req, rfl, hreq⟩ := h
  have hother : (∀ item, req ≠ .plaidDisconnect item) →
      (handle cfg book req).wp observed (tokenContract start ⟨id, .request cfg book req⟩)
        (fun _ _ _ => True) .idle s →
      (handle cfg book req).wp observed (tokenContract start ⟨id, .request cfg book req⟩)
        (fun x _ s => itemPost ⟨id, .request cfg book req⟩ x s) .idle s :=
    fun hne hw => wp_mono (fun _ _ _ _ _ _ item he =>
      absurd (Event.request.inj he).2.2 (hne item)) hw
  have hans : ∀ {α : Type} {p : Call α} {f : α → Response},
      p.wp observed (tokenContract start ⟨id, .request cfg book req⟩) (fun _ _ _ => True) .idle s →
      (p.bind fun a => ret (f a)).wp observed (tokenContract start ⟨id, .request cfg book req⟩)
        (fun _ _ _ => True) .idle s := by
    intro α p f hp
    refine wp_bind (wp_mono (fun r ss s _ => ?_) hp)
    cases r <;> trivial
  have hnot : (∀ item, req ≠ .plaidDisconnect item) → ∀ cfg' book' item,
      Event.request cfg book req ≠ .request cfg' book' (.plaidDisconnect item) :=
    fun hne _ _ item he => hne item (Event.request.inj he).2.2
  cases req with
  | plaidExchange =>
    have hne : ∀ item, Request.plaidExchange ≠ .plaidDisconnect item := fun _ => by simp
    exact hother hne (hans (exchange_sealed (hnot hne)))
  | plaidLink item ms importPending =>
    have hne : ∀ item', Request.plaidLink item ms importPending ≠ .plaidDisconnect item' :=
      fun _ => by simp
    refine hother hne (wp_frame (frame_tame (hnot hne)) ?_ Sess.within_idle)
    simp only [handle]
    split
    · trivial
    · split
      · trivial
      · exact issues_answer ((linkAccounts_issues item ms importPending).mono fun _ h => h.tame)
  | plaidSync item =>
    have hne : ∀ item', Request.plaidSync item ≠ .plaidDisconnect item' := fun _ => by simp
    refine hother hne ?_
    simp only [handle]
    split
    · trivial
    · exact hans (sync_sealed hs (hnot hne))
  | plaidDisconnect item =>
    simp only [Arrival.call, Event.call, handle]
    split
    · exact fun _ _ _ _ _ _ => hs
    · refine wp_bind (wp_mono (fun r ss s hpost => ?_) (disconnect_sealed rfl hs))
      cases r with
      | error er => exact fun _ _ _ _ _ _ => hpost er rfl
      | ok _ => exact fun _ _ _ _ _ h => absurd h (by simp)
  | _ => exact absurd hreq (by simp [Request.writesItem])

theorem itemWriters_numbered (c : Observed) (e : ObservedStep) (h : Numbering ItemWriters c e) :
    Numbered c e := h.1

theorem items_tolerant {db : Db} (hk : (db.items.map (·.guid)).Nodup) :
    Tolerant observed Arrival.call (Numbering ItemWriters) ⟨db, []⟩
      (TokenInv (db.items.map (·.guid))) (tokenContract (db.items.map (·.guid))) itemPost
      fun _ _ => True where
  start := ⟨hk, fun p hp => .inr ⟨rfl, List.mem_map.mpr ⟨p, hp, rfl⟩⟩⟩
  inv _ _ := Iff.rfl
  arrives c r hr hok _ := by
    refine itemWriter_wp (fun n hn => ?_) hok.2.1
    have hlt := hr.log_lt itemWriters_numbered rfl hn
    have hid : r.id = c.calls.length := hok.1
    dsimp only at hlt
    omega
  pairs _ _ _ _ _ _ _ := ⟨trivial, trivial⟩
  supplied h := by
    refine ⟨h.ok.1.trans (h.reach.id_eq itemWriters_numbered h.call).symm, ?_⟩
    intro book itemId g t ht
    exact h.ok.2.2 book itemId g t (by rw [nextTag_of_step h, ht])
  rely h hij hj _ hg _ _ :=
    ⟨hg.1, hg.2.1.mono fun _ he => he.trans_ne (h.id_ne itemWriters_numbered hij hj)⟩
  keep h hij hj _ hg hp := by
    intro cfg book item he er hx
    refine (hp cfg book item he er hx).adds (hg.2.1.mono fun _ he heq => ?_)
    exact absurd (he.symm.trans heq) (h.id_ne itemWriters_numbered hij hj)

/-- **A fresh token is never overwritten.** In every interleaving of the requests that write items,
each row opens to the token of the `Exchange` that committed last on it. -/
theorem token_lasts {db : Db} (h : db.items = []) {c : Observed} (hr : Watched ItemWriters db c)
    {p : PlaidItem} (hp : p ∈ c.db.data.items) :
    ∃ t, lastToken c.db.log p.bookGuid p.itemId = some t ∧
      Opens p.bookGuid p.itemId p.ciphertext p.nonce t := by
  have hk : (db.items.map (·.guid)).Nodup := by rw [h]; exact .nil
  have t := items_tolerant hk
  rcases (t.poolInv hr).inv.sealed p hp with hs | ⟨-, hm⟩
  · exact hs
  · rw [h] at hm
    exact absurd hm (by simp)

/-- **`Disconnect` never destroys a usable token.** In every interleaving of the requests that
write items, an item that a `Disconnect` deletes was removed by the bank during the call, or no
configured key opens it and a copy of its token is committed to the audit; and no step of a
`Disconnect` that fails touches accounts, items or staging, but to seal a token anew. -/
theorem disconnect_justified {db : Db} (hk : (db.items.map (·.guid)).Nodup) {c c' : Observed}
    (hr : Watched ItemWriters db c) {i : Nat} {env : Nat × Env}
    (he : Numbering ItemWriters c (.step i env))
    (hn : c.next observed Arrival.call (.step i env) = some c') {a : ObservedCall}
    (hi : c.calls[i]? = some a) {cfg : PlaidConfig} {book : Guid} {item : GuidText}
    (ha : a.req.req = .request cfg book (.plaidDisconnect item)) :
    (∀ p ∈ c.db.data.items, (∀ q ∈ c'.db.data.items, q.guid ≠ p.guid) →
      Confirmed i p.itemId c'.db.log ∨
        (Undecryptable cfg.tokens p ∧ Archived p c.db.data c'.db.data)) ∧
    (∀ {c'' : Observed} {b : ObservedCall} {er : Err},
      c'.Leads observed Arrival.call (Numbering ItemWriters) c'' → c''.calls[i]? = some b →
      b.prog.outcome = some (.error er) → Untouched c.db.data c'.db.data) := by
  have t := items_tolerant hk
  obtain ⟨r, _, o, _, _, hcall, hg⟩ := t.guar hr he hn
  obtain rfl := Option.some.inj (hi.symm.trans hcall)
  have hid : r.id = i := hr.id_eq itemWriters_numbered hi
  have hdisp := hg.2.2 cfg book item ha
  rw [hid] at hdisp
  refine ⟨fun p hp hgone => ?_, fun {c'' b er} hl hb hout => ?_⟩
  · rcases hdisp with hu | hd
    · obtain ⟨q, hq, hpq⟩ := exists_of_forall₂ (List.Forall₂.flip hu.items) hp
      refine absurd ?_ (hgone q hq)
      rcases hpq with rfl | ⟨_, _, _, _, _, _, -, -, rfl⟩ <;> rfl
    · exact (hd.justified p hp).resolve_left fun ⟨q, hq, h⟩ => hgone q hq h
  · rcases hdisp with hu | hd
    · exact hu
    · -- the deletion is in the log, which a failed call excludes
      have hl' : c.Leads observed Arrival.call (Numbering ItemWriters) c'' := .head ⟨_, he, hn⟩ hl
      obtain ⟨b', hb', hreq⟩ := hl'.call hi
      obtain rfl := Option.some.inj (hb.symm.trans hb')
      have hspares := t.done (hr.leads hl') hb hout cfg book item (hreq ▸ ha) er rfl
      rw [hreq, hid] at hspares
      obtain ⟨n, book', g, hlog, htag⟩ := hd.logged
      have hr' : Watched ItemWriters db c' := .event _ hr he hn
      exact absurd htag (hspares n ((hr'.log_mono itemWriters_numbered hl).subset hlog) book' g)

/-- The test of `ItemWriters`. -/
def writesItems (c : Observed) (e : ObservedStep) : Bool :=
  arrives Request.writesItem c e && match e with
    | .spawn _ => true
    | .step i _ => match nextTag c i with
      | some (.upsertItem _ _ g _) => c.db.log.all fun e => e.2.view.items.all (·.guid != g)
      | _ => true

theorem numbering_of_writesItems {c : Observed} {e : ObservedStep} (h : writesItems c e = true) :
    Numbering ItemWriters c e := by
  unfold writesItems at h
  obtain ⟨h1, h2⟩ := Bool.and_eq_true_iff.mp h
  obtain ⟨hnum, harr⟩ := numbering_of_arrives h1
  refine ⟨hnum, harr, ?_⟩
  cases e with
  | spawn r => trivial
  | step i env =>
    rintro book itemId g t ht ⟨e, he, p, hp, rfl⟩
    dsimp only at h2
    rw [ht] at h2
    have hall := List.all_eq_true.mp (List.all_eq_true.mp h2 e he) p hp
    exact absurd rfl (bne_iff_ne.mp hall)

/-- The run of such events from a database. -/
def itemRun (db : Db) (es : List ObservedStep) : Option Observed :=
  Conf.run observed Arrival.call writesItems ⟨⟨db, []⟩, []⟩ es

theorem watched_of_itemRun {db : Db} {es : List ObservedStep} {c : Observed}
    (h : itemRun db es = some c) : Watched ItemWriters db c :=
  Reach.run (fun _ _ => numbering_of_writesItems) .start h

/-- The bank answers an exchange with the token. -/
def exchanging (token : Token) (n k : Nat) : Env :=
  { calm n k with exchange := .ok (token, "item-1", "Bank") }

/-- The configuration after a key rotation. -/
def rotatedConfig : PlaidConfig := { plainConfig with tokens := ⟨1, [0], false⟩ }

/-- An item under token "access-1" is exchanged again, for "access-2", while a sync under a rotated
key has read the row and not sealed it anew. -/
def relinked : List ObservedStep :=
  .spawn ⟨0, .request plainConfig 3 .plaidExchange⟩ ::
    (List.range 6).map (fun k => .step 0 (0, exchanging "access-1" 28 k)) ++
  .spawn ⟨1, .request rotatedConfig 3 (.plaidSync (Guid.text 30))⟩ ::
    .step 1 (1, calm 100 0) :: .step 1 (1, calm 100 1) ::
  .spawn ⟨2, .request plainConfig 3 .plaidExchange⟩ ::
    (List.range 6).map (fun k => .step 2 (2, exchanging "access-2" 110 k)) ++
  [.step 1 (1, calm 100 2)]

/-- The sync does not bring "access-1" back. -/
theorem token_lasts_relinked : ∃ c, Watched ItemWriters registered c ∧ ∃ p ∈ c.db.data.items,
    Opens p.bookGuid p.itemId p.ciphertext p.nonce "access-2" := by
  have hrun : ((itemRun registered relinked).map fun c =>
      c.db.data.items.map fun p => lastToken c.db.log p.bookGuid p.itemId) =
      some [some "access-2"] := by
    decide +kernel
  obtain ⟨c, hc, h⟩ := Option.map_eq_some_iff.mp hrun
  have hr : Watched ItemWriters registered c := watched_of_itemRun hc
  have hm : some "access-2" ∈ c.db.data.items.map fun p => lastToken c.db.log p.bookGuid p.itemId := by
    rw [h]
    exact List.mem_singleton_self _
  obtain ⟨p, hp, hlast⟩ := List.mem_map.mp hm
  obtain ⟨t, ht, hopen⟩ := token_lasts (by decide +kernel) hr hp
  obtain rfl := Option.some.inj (ht.symm.trans hlast)
  exact ⟨c, hr, p, hp, hopen⟩

/-- The keys of a `Disconnect`. -/
def Event.disconnectKeys : Event → Option TokenConfig
  | .request cfg _ (.plaidDisconnect _) => some cfg.tokens
  | _ => none

/-- A configuration that has lost the key of the item. -/
def lostKeys : TokenConfig := ⟨5, [], false⟩

/-- A `Disconnect` of an item whose key is lost, up to its commit. -/
def partedItem : List ObservedStep :=
  .spawn ⟨0, .request { plainConfig with tokens := lostKeys } 3 (.plaidDisconnect (Guid.text 30))⟩ ::
    (List.range 5).map fun k => .step 0 (0, calm 100 k)

/-- Its commit deletes the item and brings a copy of its token to the audit. -/
theorem disconnect_justified_parted : ∃ c c' p, Watched ItemWriters banked c ∧
    c.next observed Arrival.call (.step 0 (0, calm 100 5)) = some c' ∧
    p ∈ c.db.data.items ∧ c'.db.data.items = [] ∧
    (Confirmed 0 p.itemId c'.db.log ∨ (Undecryptable lostKeys p ∧ Archived p c.db.data c'.db.data)) := by
  have hrun : ((itemRun banked partedItem).bind fun c =>
      (c.next observed Arrival.call (.step 0 (0, calm 100 5))).map fun c' =>
        (writesItems c (.step 0 (0, calm 100 5)), c.calls.head?.map fun a => a.req.req.disconnectKeys,
          c.db.data.items.isEmpty, c'.db.data.items.isEmpty)) =
      some (true, some (some lostKeys), false, true) := by
    decide +kernel
  obtain ⟨c, hc, h⟩ := Option.bind_eq_some_iff.mp hrun
  obtain ⟨c', hn, h⟩ := Option.map_eq_some_iff.mp h
  obtain ⟨h0, h⟩ := Prod.mk.inj h
  obtain ⟨h1, h⟩ := Prod.mk.inj h
  obtain ⟨h2, h3⟩ := Prod.mk.inj h
  have hr : Watched ItemWriters banked c := watched_of_itemRun hc
  obtain ⟨a, ha, hkeys⟩ := Option.map_eq_some_iff.mp h1
  have hi : c.calls[0]? = some a := by rw [← List.head?_eq_getElem?]; exact ha
  have he := numbering_of_writesItems h0
  have hempty := List.isEmpty_iff.mp h3
  obtain ⟨p, hp⟩ := List.exists_mem_of_ne_nil c.db.data.items (by
    rintro h
    rw [h] at h2
    exact absurd h2 (by simp))
  cases hev : a.req.req with
  | request cfg book req =>
    rw [hev] at hkeys
    cases req with
    | plaidDisconnect item =>
      have htok : cfg.tokens = lostKeys := Option.some.inj hkeys
      have h := (disconnect_justified (by decide +kernel) hr he hn hi hev).1 p hp fun q hq =>
        absurd hq (by simp [hempty])
      rw [htok] at h
      exact ⟨c, c', p, hr, hn, hp, hempty, h⟩
    | _ => exact absurd hkeys (by simp [Event.disconnectKeys])
  | _ =>
    rw [hev] at hkeys
    exact absurd hkeys (by simp [Event.disconnectKeys])

end Antimoney
