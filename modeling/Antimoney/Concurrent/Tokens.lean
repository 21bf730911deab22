import Antimoney.Concurrent

/-!
# Tokens of items

The token of an item is replaced by `Exchange`, and sealed anew, as it was read, by
`loadAndDecryptToken`. Every write that replaces a token raises the version of its row, and a
re-seal asks for the version its token was read at.

* `TokenInv`: each row opens to the token of the `Exchange` that committed last on it.
* `Follows`, `Tended`: what the others may have made of a row; `Held`, what a reader of a row may
  count on.
* **`exchange_sealed`**, **`loadToken_sealed`**: the specifications of the calls that write tokens.
-/

namespace Antimoney

open Antimoney.Lib Prog

/-! ## The log -/

/-- A statement in the log met an item with the identifier. -/
def Known (log : List (Nat × Note)) (g : Guid) : Prop :=
  ∃ e ∈ log, ∃ p ∈ e.2.view.items, p.guid = g

/-- The token an `Exchange` of the item committed. -/
def Tag.tokenOf (book : Guid) (itemId : String) : Tag → Option Token
  | .upsertItem b i _ t => if b = book ∧ i = itemId then some t else none
  | _ => none

/-- The token of the `Exchange` of the item that committed last. -/
def lastToken (log : List (Nat × Note)) (book : Guid) (itemId : String) : Option Token :=
  log.findSome? fun e => e.2.tag.tokenOf book itemId

/-- The tag is neither of an `Exchange` nor of the deletion of an item. -/
def Tag.quiet : Tag → Bool
  | .upsertItem _ _ _ _ | .deleteItem _ _ => false
  | _ => true

theorem Tag.tokenOf_quiet {t : Tag} (h : t.quiet = true) (book : Guid) (itemId : String) :
    t.tokenOf book itemId = none := by
  cases t <;> first | rfl | exact absurd h (by simp [Tag.quiet])

theorem lastToken_append {es log : List (Nat × Note)} {book : Guid} {itemId : String}
    (h : ∀ e ∈ es, e.2.tag.tokenOf book itemId = none) :
    lastToken (es ++ log) book itemId = lastToken log book itemId := by
  unfold lastToken
  rw [List.findSome?_append, List.findSome?_eq_none_iff.mpr h, Option.none_or]

/-! ## Rows -/

/-- What may become of a row: its version never goes back, and at one version it has one token. -/
structure Follows (p q : PlaidItem) : Prop where
  guid : q.guid = p.guid
  book : q.bookGuid = p.bookGuid
  itemId : q.itemId = p.itemId
  le : p.version ≤ q.version
  same : p.version = q.version → q.ciphertext = p.ciphertext ∧ q.nonce = p.nonce

/-- The row keeps its token. -/
structure SameToken (p q : PlaidItem) : Prop where
  guid : q.guid = p.guid
  book : q.bookGuid = p.bookGuid
  itemId : q.itemId = p.itemId
  le : p.version ≤ q.version
  ciphertext : q.ciphertext = p.ciphertext
  nonce : q.nonce = p.nonce

variable {p q r : PlaidItem}

theorem Follows.refl (p : PlaidItem) : Follows p p :=
  ⟨rfl, rfl, rfl, Nat.le_refl _, fun _ => ⟨rfl, rfl⟩⟩

theorem Follows.trans (h : Follows p q) (h' : Follows q r) : Follows p r := by
  refine ⟨h'.guid.trans h.guid, h'.book.trans h.book, h'.itemId.trans h.itemId,
    Nat.le_trans h.le h'.le, fun he => ?_⟩
  have hle := h.le
  have hle' := h'.le
  obtain ⟨hc, hn⟩ := h.same (by omega)
  obtain ⟨hc', hn'⟩ := h'.same (by omega)
  exact ⟨hc'.trans hc, hn'.trans hn⟩

theorem SameToken.refl (p : PlaidItem) : SameToken p p := ⟨rfl, rfl, rfl, Nat.le_refl _, rfl, rfl⟩

theorem SameToken.trans (h : SameToken p q) (h' : SameToken q r) : SameToken p r :=
  ⟨h'.guid.trans h.guid, h'.book.trans h.book, h'.itemId.trans h.itemId,
    Nat.le_trans h.le h'.le, h'.ciphertext.trans h.ciphertext, h'.nonce.trans h.nonce⟩

theorem SameToken.follows (h : SameToken p q) : Follows p q :=
  ⟨h.guid, h.book, h.itemId, h.le, fun _ => ⟨h.ciphertext, h.nonce⟩⟩

/-- No item comes, and each that stays keeps its token. -/
structure Kept (x y : Db) : Prop where
  keys : (y.items.map (·.guid)).Sublist (x.items.map (·.guid))
  rows : ∀ q ∈ y.items, ∃ p ∈ x.items, SameToken p q

variable {x y z : Db}

theorem kept_of_eq (h : y.items = x.items) : Kept x y := by
  refine ⟨by rw [h], fun q hq => ?_⟩
  rw [h] at hq
  exact ⟨q, hq, .refl q⟩

theorem Kept.trans (h : Kept x y) (h' : Kept y z) : Kept x z := by
  refine ⟨h'.keys.trans h.keys, fun r hr => ?_⟩
  obtain ⟨q, hq, hqr⟩ := h'.rows r hr
  obtain ⟨p, hp, hpq⟩ := h.rows q hq
  exact ⟨p, hp, hpq.trans hqr⟩

theorem kept_of_update {c : PlaidItem → Bool} {f : PlaidItem → PlaidItem}
    (hf : ∀ p, SameToken p (f p)) (h : y.items = updateWhere c f x.items) : Kept x y := by
  refine ⟨?_, fun q hq => ?_⟩
  · rw [h, map_updateWhere fun p => (hf p).guid]
  · rw [h] at hq
    rcases mem_updateWhere_cases hq with ⟨hq, -⟩ | ⟨p, hp, -, rfl⟩
    · exact ⟨q, hq, .refl q⟩
    · exact ⟨p, hp, hf p⟩

theorem kept_of_delete {c : PlaidItem → Bool} (h : y.items = deleteWhere c x.items) : Kept x y := by
  refine ⟨?_, fun q hq => ?_⟩
  · rw [h]
    exact List.filter_sublist.map _
  · rw [h] at hq
    exact ⟨q, (mem_deleteWhere.mp hq).1, .refl q⟩

/-! ## States with their log -/

/-- Each row follows one it came from, or has an identifier the log did not know. -/
structure Tended (x y : Logged Db Note) : Prop where
  grows : ∀ e ∈ x.log, e ∈ y.log
  rows : ∀ q ∈ y.data.items, (∃ p ∈ x.data.items, Follows p q) ∨ ¬ Known x.log q.guid

/-- Identifiers are distinct, and each row opens to the token of the `Exchange` that committed last
on it, or none has and the row was there at the start. -/
structure TokenInv (start : List Guid) (s : Logged Db Note) : Prop where
  nodup : (s.data.items.map (·.guid)).Nodup
  sealed : ∀ p ∈ s.data.items,
    (∃ t, lastToken s.log p.bookGuid p.itemId = some t ∧
      Opens p.bookGuid p.itemId p.ciphertext p.nonce t) ∨
    (lastToken s.log p.bookGuid p.itemId = none ∧ p.guid ∈ start)

/-- What a reader of a row counts on. -/
structure Held (p : PlaidItem) (s : Logged Db Note) : Prop where
  known : Known s.log p.guid
  rows : ∀ q ∈ s.data.items, q.guid = p.guid → Follows p q

variable {s s' s'' : Logged Db Note} {start : List Guid}

theorem Known.mono {log log' : List (Nat × Note)} {g : Guid} (h : ∀ e ∈ log, e ∈ log')
    (hk : Known log g) : Known log' g := by
  obtain ⟨e, he, hrest⟩ := hk
  exact ⟨e, h e he, hrest⟩

theorem Tended.refl (s : Logged Db Note) : Tended s s :=
  ⟨fun _ h => h, fun q hq => .inl ⟨q, hq, .refl q⟩⟩

theorem Tended.trans (h : Tended s s') (h' : Tended s' s'') : Tended s s'' := by
  refine ⟨fun e he => h'.grows e (h.grows e he), fun r hr => ?_⟩
  rcases h'.rows r hr with ⟨q, hq, hqr⟩ | hn
  · rcases h.rows q hq with ⟨p, hp, hpq⟩ | hn
    · exact .inl ⟨p, hp, hpq.trans hqr⟩
    · rw [← hqr.guid] at hn
      exact .inr hn
  · exact .inr fun hk => hn (hk.mono h.grows)

theorem Held.tended (h : Held p s) (ht : Tended s s') : Held p s' := by
  refine ⟨h.known.mono ht.grows, fun q hq hg => ?_⟩
  rcases ht.rows q hq with ⟨p', hp', hf⟩ | hn
  · exact (h.rows p' hp' (hf.guid.symm.trans hg)).trans hf
  · exact absurd (hg ▸ h.known) hn

/-- A row that was read is held from then on. -/
theorem held_of_mem (hk : (s.data.items.map (·.guid)).Nodup) (hp : p ∈ s.data.items)
    (hlog : Known s.log p.guid) : Held p s :=
  ⟨hlog, fun q hq hg => by rw [List.inj_on_of_nodup_map hk hq hp hg]; exact .refl p⟩

/-- Writes that keep tokens, logged under the number of a call. -/
structure Tames (id : Nat) (x y : Logged Db Note) : Prop where
  kept : Kept x.data y.data
  log : Logged.Adds (fun e => e.1 = id ∧ ∀ b i, e.2.tag.tokenOf b i = none) x y

theorem Tames.tended {id : Nat} (h : Tames id s s') : Tended s s' := by
  refine ⟨fun e he => h.log.subset he, fun q hq => .inl ?_⟩
  obtain ⟨p, hp, hs⟩ := h.kept.rows q hq
  exact ⟨p, hp, hs.follows⟩

theorem Tames.inv {id : Nat} (h : Tames id s s') (hi : TokenInv start s) : TokenInv start s' := by
  obtain ⟨es, hl, hes⟩ := h.log
  refine ⟨hi.nodup.sublist h.kept.keys, fun q hq => ?_⟩
  obtain ⟨p, hp, hs⟩ := h.kept.rows q hq
  rw [hl, lastToken_append fun e he => (hes e he).2 _ _, hs.book, hs.itemId, hs.ciphertext,
    hs.nonce, hs.guid]
  exact hi.sealed p hp

theorem Tames.trans {id : Nat} (h : Tames id s s') (h' : Tames id s' s'') : Tames id s s'' :=
  ⟨h.kept.trans h'.kept, h.log.trans h'.log⟩

theorem Tames.refl (id : Nat) (s : Logged Db Note) : Tames id s s := ⟨kept_of_eq rfl, .refl _ _⟩

/-! ## Statements that keep tokens -/

/-- A statement whose writes keep tokens, and which is not the upsert of `Exchange`. -/
structure Tame {β : Type} (q : Stmt β) : Prop where
  write : ∀ {env : Env} {v x y : Db}, q.write env v x = .ok y → Kept x y
  tag : ∀ book itemId, q.tag.tokenOf book itemId = none

theorem ByBook.tokenOf {book : Guid} {β : Type} {q : Stmt β} (h : ByBook book q) (b : Guid)
    (i : String) : q.tag.tokenOf b i = none := by
  cases h <;> rfl

theorem Reading.tame {book : Guid} {β : Type} {q : Stmt β} (h : Reading book q) : Tame q :=
  ⟨fun hw => by rw [h.reads.write hw]; exact kept_of_eq rfl, h.named.tokenOf⟩

theorem Fetching.tame {book : Guid} {β : Type} {q : Stmt β} (h : Fetching book q) : Tame q := by
  cases h with
  | read h => exact h.tame
  | lock i =>
    refine ⟨fun hw => ?_, fun _ _ => rfl⟩
    rcases tryAdvisoryLock_ok hw with ⟨-, rfl⟩ | ⟨-, rfl⟩ <;> exact kept_of_eq rfl
  | unlock i =>
    refine ⟨fun hw => ?_, fun _ _ => rfl⟩
    rw [advisoryUnlock_ok hw]
    exact kept_of_eq rfl
  | upsertStaged i t d ht =>
    refine ⟨fun hw => ?_, fun _ _ => rfl⟩
    obtain ⟨_, _, -, -, rfl⟩ := upsertStaged_ok hw
    exact kept_of_eq rfl
  | dropReplaced is =>
    refine ⟨fun hw => ?_, fun _ _ => rfl⟩
    rw [dropReplaced_ok hw]
    exact kept_of_eq rfl
  | dropUndismissed is =>
    refine ⟨fun hw => ?_, fun _ _ => rfl⟩
    rw [dropUndismissed_ok hw]
    exact kept_of_eq rfl
  | writeCursor i c n =>
    refine ⟨fun hw => ?_, fun _ _ => rfl⟩
    obtain ⟨_, -, rfl⟩ := writeCursor_ok hw
    refine kept_of_update ?_ rfl
    exact fun p => ⟨rfl, rfl, rfl, Nat.le_succ _, rfl, rfl⟩
  | writeLastSynced i n =>
    refine ⟨fun hw => ?_, fun _ _ => rfl⟩
    rw [writeLastSynced_ok hw]
    exact kept_of_eq rfl

theorem Linking.tame {book : Guid} {item : GuidText} {β : Type} {q : Stmt β}
    (h : Linking book item q) : Tame q := by
  cases h with
  | read h => exact h.tame
  | updateLink a l h =>
    refine ⟨fun hw => ?_, fun _ _ => rfl⟩
    obtain ⟨_, _, -, -, rfl⟩ := updateLinkStmt_ok hw
    exact kept_of_eq rfl
  | updateImportPending p =>
    refine ⟨fun hw => ?_, fun _ _ => rfl⟩
    obtain ⟨_, _, -, rfl⟩ := updateImportPending_ok hw
    refine kept_of_update ?_ rfl
    exact fun p => ⟨rfl, rfl, rfl, Nat.le_refl _, rfl, rfl⟩

/-! ## What a `Disconnect` may do -/

/-- The row was sealed anew, with the token it opens to. -/
def Resealed (p q : PlaidItem) : Prop :=
  ∃ key aad token c n now, decrypt key p.ciphertext p.nonce aad = some token ∧
    Opens p.bookGuid p.itemId c n token ∧
    q = { p with ciphertext := c, nonce := n, updatedAt := now, version := p.version + 1 }

/-- Accounts, items and staging are as they were, apart from a re-seal of the same token. -/
structure Untouched (x y : Db) : Prop where
  accounts : y.accounts = x.accounts
  staged : y.staged = x.staged
  items : List.Forall₂ (fun p q => q = p ∨ Resealed p q) x.items y.items

/-- The bank confirmed to the call that the item is removed. -/
def Confirmed (id : Nat) (itemId : String) (log : List (Nat × Note)) : Prop :=
  ∃ n token, (id, n) ∈ log ∧ n.tag = .removeItem itemId token ∧ n.env.removeItem = .ok ()

/-- No configured key opens the token, in either format. -/
def Undecryptable (cfg : TokenConfig) (p : PlaidItem) : Prop :=
  ∀ key ∈ cfg.encKeys, ∀ aad, aad = tokenAAD p.bookGuid p.itemId ∨ aad = [] →
    decrypt key p.ciphertext p.nonce aad = none

/-- A copy of the row's token came to the audit with the step. -/
def Archived (p : PlaidItem) (x y : Db) : Prop :=
  ∃ rows, y.audit = x.audit ++ rows ∧
    ∃ a ∈ rows, a.payload.ciphertext = p.ciphertext ∧ a.payload.nonce = p.nonce

/-- The step deletes items, each one confirmed by the bank or undecryptable and archived. -/
structure Deletes (id : Nat) (cfg : TokenConfig) (x y : Logged Db Note) : Prop where
  logged : ∃ n book g, (id, n) ∈ y.log ∧ n.tag = .deleteItem book g
  justified : ∀ p ∈ x.data.items, (∃ q ∈ y.data.items, q.guid = p.guid) ∨
    Confirmed id p.itemId y.log ∨ (Undecryptable cfg p ∧ Archived p x.data y.data)

/-- What a step of a `Disconnect` may do. -/
def Disposal (r : Arrival Event) (x y : Logged Db Note) : Prop :=
  ∀ cfg book item, r.req = .request cfg book (.plaidDisconnect item) →
    Untouched x.data y.data ∨ Deletes r.id cfg.tokens x y

/-- The call has deleted no item so far. -/
def Spares (id : Nat) (s : Logged Db Note) : Prop :=
  ∀ n, (id, n) ∈ s.log → ∀ book g, n.tag ≠ .deleteItem book g

theorem Untouched.refl (x : Db) : Untouched x x :=
  ⟨rfl, rfl, List.forall₂_same.mpr fun _ _ => .inl rfl⟩

theorem untouched_of_eq {x y : Db} (h : y = x) : Untouched x y := by
  rw [h]
  exact .refl x

/-! ## The contract -/

/-- The contract of an event: rows are tended by all, and a statement is supplied with an
identifier no row ever had. -/
def tokenContract (start : List Guid) (r : Arrival Event) :
    Contract Stmt SqlErr (Nat × Env) (Logged Db Note) where
  inv := TokenInv start
  rely x y := Tended x y ∧ Logged.Adds (fun e => e.1 ≠ r.id) x y
  guar _ x y := Tended x y ∧ Logged.Adds (fun e => e.1 = r.id) x y ∧ Disposal r x y
  ok q env s := env.1 = r.id ∧
    ∀ book itemId g t, q.tag = .upsertItem book itemId g t → ¬ Known s.log g
  rely_refl s := ⟨.refl s, .refl _ s⟩
  rely_trans h h' := ⟨h.1.trans h'.1, h.2.trans h'.2⟩
  guar_refl _ s _ := ⟨.refl s, .refl _ s, fun _ _ _ _ => .inl (.refl _)⟩

variable {e : Arrival Event}

theorem stable_held : (tokenContract start e).Stable (Held p) :=
  fun _ _ h hr _ => h.tended hr.1

theorem Spares.adds {id : Nat} (h : Spares id s)
    (ha : Logged.Adds (fun e => e.1 = id → ∀ b g, e.2.tag ≠ .deleteItem b g) s s') :
    Spares id s' := by
  intro n hn
  rcases ha.mem hn with h' | hc
  · exact h n h'
  · exact hc rfl

theorem stable_spares : (tokenContract start e).Stable (Spares e.id) :=
  fun _ _ h hr _ => h.adds (hr.2.mono fun _ hne he => absurd he hne)

/-- Calls that do not disconnect, with statements that keep tokens. -/
theorem frame_tame (h : ∀ cfg book item, e.req ≠ .request cfg book (.plaidDisconnect item)) :
    Frame observed (tokenContract start e) Tame (Tames e.id) where
  refl := .refl _
  trans := .trans
  write q env _ _ _ _ _ _ hq hok _ _ hw := by
    obtain ⟨hw, hl⟩ := Machine.logged_write hw
    refine ⟨hq.write hw, [_], hl, fun e he => ?_⟩
    obtain rfl := List.mem_singleton.mp he
    exact ⟨hok.1, hq.tag⟩
  keeps _ _ _ _ hi hw :=
    ⟨hw.inv hi, hw.tended, hw.log.mono fun _ h => h.1, fun _ _ _ he => absurd he (h _ _ _)⟩

/-- A read under a quiet tag. -/
structure Plain {β : Type} (q : Stmt β) : Prop where
  reads : q.Reads
  quiet : q.tag.quiet = true

/-- Reads logged under the number of a call. -/
structure Watches (id : Nat) (x y : Logged Db Note) : Prop where
  data : y.data = x.data
  log : Logged.Adds (fun e => e.1 = id ∧ e.2.tag.quiet = true) x y

theorem Watches.tames {id : Nat} (h : Watches id s s') : Tames id s s' :=
  ⟨by rw [h.data]; exact kept_of_eq rfl, h.log.mono fun _ h => ⟨h.1, Tag.tokenOf_quiet h.2⟩⟩

theorem Watches.spares {id : Nat} (h : Watches id s s') (hs : Spares id s) : Spares id s' := by
  refine hs.adds (h.log.mono fun e he _ b g ht => ?_)
  have hq := he.2
  rw [ht] at hq
  exact absurd hq (by simp [Tag.quiet])

theorem frame_plain : Frame observed (tokenContract start e) Plain (Watches e.id) where
  refl x := ⟨rfl, .refl _ x⟩
  trans h h' := ⟨h'.data.trans h.data, h.log.trans h'.log⟩
  write q env _ _ _ _ _ _ hq hok _ _ hw := by
    obtain ⟨hw, hl⟩ := Machine.logged_write hw
    refine ⟨hq.reads.write hw, [_], hl, fun e he => ?_⟩
    obtain rfl := List.mem_singleton.mp he
    exact ⟨hok.1, hq.quiet⟩
  keeps _ _ _ _ hi hw :=
    ⟨hw.tames.inv hi, hw.tames.tended, hw.log.mono fun _ h => h.1,
      fun _ _ _ _ => .inl (untouched_of_eq hw.data)⟩

/-! ## `loadAndDecryptToken` -/

/-- The re-seal of a row that was read: each row it meets is sealed with the token it has. -/
theorem reseal_step {item : GuidText} {c : Ciphertext} {n : Nonce} {env : Env} {v : Db}
    {token : Token} {key : Key} {aad : List Char} {id : Nat} (hi : TokenInv start s)
    (hp : Held p s) (hg : item.parse = .ok p.guid)
    (hd : decrypt key p.ciphertext p.nonce aad = some token)
    (ho : Opens p.bookGuid p.itemId c n token)
    (hw : (resealStmt p.bookGuid item c n p.version).write env v s.data = .ok s'.data)
    (hl : s'.log = (id, noteOf (resealStmt p.bookGuid item c n p.version) env v) :: s.log) :
    TokenInv start s' ∧ Tended s s' ∧ Untouched s.data s'.data := by
  obtain ⟨g, now, hg', hdata⟩ := resealStmt_ok (v := v) hw
  obtain rfl : g = p.guid := Except.ok.inj (hg'.symm.trans hg)
  have hitems := congrArg Db.items hdata
  dsimp only at hitems
  -- a row it meets is the row that was read
  have hmet : ∀ q ∈ s.data.items, (isItem p.guid p.bookGuid q && q.version == p.version) = true →
      Follows p q ∧ q.ciphertext = p.ciphertext ∧ q.nonce = p.nonce := by
    intro q hq hc
    simp only [isItem, Bool.and_eq_true, beq_iff_eq] at hc
    have hf := hp.rows q hq hc.1.1
    exact ⟨hf, hf.same hc.2.symm⟩
  refine ⟨⟨?_, fun q hq => ?_⟩, ⟨fun e he => ?_, fun q hq => .inl ?_⟩, ?_⟩
  · rw [hitems, map_updateWhere]
    · exact hi.nodup
    · exact fun _ => rfl
  · have hlast : ∀ b i, lastToken s'.log b i = lastToken s.log b i := by
      intro b i
      rw [hl, lastToken, List.findSome?_cons]
      rfl
    rw [hlast]
    rw [hitems] at hq
    rcases mem_updateWhere_cases hq with ⟨hq₀, -⟩ | ⟨q₀, hq₀, hc, rfl⟩
    · exact hi.sealed q hq₀
    · obtain ⟨hf, hc, hn⟩ := hmet q₀ hq₀ hc
      rcases hi.sealed q₀ hq₀ with ⟨t, ht, hopen⟩ | hnone
      · refine .inl ⟨t, ht, ?_⟩
        obtain ⟨k, hk⟩ := hopen
        rw [hc, hn] at hk
        have hplain := (decrypt_eq_some.mp hk).2
        rw [(decrypt_eq_some.mp hd).2] at hplain
        rw [hf.book, hf.itemId, ← hplain]
        exact ho
      · exact .inr hnone
  · rw [hl]
    exact .tail _ he
  · rw [hitems] at hq
    rcases mem_updateWhere_cases hq with ⟨hq₀, -⟩ | ⟨q₀, hq₀, -, rfl⟩
    · exact ⟨q, hq₀, .refl q⟩
    · exact ⟨q₀, hq₀, rfl, rfl, rfl, Nat.le_succ _, fun he => absurd he (by simp)⟩
  · refine ⟨by rw [hdata], by rw [hdata], ?_⟩
    rw [hitems]
    refine forall₂_updateWhere (fun q hq hc => .inr ?_) fun _ _ _ => .inl rfl
    obtain ⟨hf, hc, hn⟩ := hmet q hq hc
    refine ⟨key, aad, token, c, n, now, ?_, ?_, rfl⟩
    · rw [hc, hn]
      exact hd
    · rw [hf.book, hf.itemId]
      exact ho

/-- **`loadAndDecryptToken` among other calls**, for a row that was read. -/
theorem loadToken_sealed {cfg : TokenConfig} {item : GuidText} (hp : Held p s)
    (hs : Spares e.id s) (hg : item.parse = .ok p.guid) :
    (loadAndDecryptToken cfg p.bookGuid item p.itemId p.ciphertext p.nonce p.version).wp observed
      (tokenContract start e) (fun r ss s => ss = .idle ∧ (Held p s ∧ Spares e.id s) ∧
        ∀ d, r = .ok d → d = (decryptToken cfg p.bookGuid p.itemId p.ciphertext p.nonce).map Prod.fst)
      .idle s := by
  have hstab : (tokenContract start e).Stable fun s => Held p s ∧ Spares e.id s :=
    fun x y h hr hi => ⟨stable_held x y h.1 hr hi, stable_spares x y h.2 hr hi⟩
  have hkeep : ∀ x y, (tokenContract start e).inv x → Watches e.id x y →
      Held p x ∧ Spares e.id x → Held p y ∧ Spares e.id y :=
    fun x y _ hw h => ⟨h.1.tended hw.tames.tended, hw.spares h.2⟩
  unfold loadAndDecryptToken
  split
  · rename_i er he
    rw [he]
    exact ⟨rfl, ⟨hp, hs⟩, fun d hd => (Except.ok.inj hd).symm⟩
  · rename_i token stale he
    have hdone : ∀ d, Except.ok (ε := Err) (Except.ok (ε := DecryptErr) token) = .ok d →
        d = (decryptToken cfg p.bookGuid p.itemId p.ciphertext p.nonce).map Prod.fst := by
      intro d hd
      rw [he]
      exact (Except.ok.inj hd).symm
    obtain ⟨key, -, aad, hd⟩ := decryptToken_opens he
    split
    · refine wp_stmt_frame frame_plain hstab hkeep ⟨Stmt.reads_askEnv _, rfl⟩ ⟨hp, hs⟩
        (fun _ e s hs _ _ => ⟨rfl, hs, fun _ h => absurd h (by simp)⟩)
        fun _ fresh _ s _ hs _ _ _ _ => ?_
      refine wp_stmt_idle (fun s' env e' hr hi _ _ => ⟨rfl, hstab _ _ hs hr hi, hdone⟩) ?_
      intro s₁ env b s₂ hr hi _ hid hx
      obtain ⟨hx, hl⟩ := Machine.logged_exec hx
      have hs₁ := hstab _ _ hs hr hi
      obtain ⟨hi₂, ht, hu⟩ := reseal_step hi hs₁.1 hg hd
        (opens_encryptToken cfg p.bookGuid p.itemId fresh token) (Stmt.write_self _ hx) hl
      have hadds : Logged.Adds (fun e' => e'.1 = e.id ∧ ∀ b g, e'.2.tag ≠ .deleteItem b g) s₁ s₂ :=
        ⟨[_], hl, fun e' he' => by
          rw [List.mem_singleton.mp he']
          exact ⟨hid.1, fun _ _ h => nomatch h⟩⟩
      exact ⟨hi₂, ⟨ht, hadds.mono fun _ h => h.1, fun _ _ _ _ => .inl hu⟩, rfl,
        ⟨hs₁.1.tended ht, hs₁.2.adds (hadds.mono fun _ h _ => h.2)⟩, hdone⟩
    · exact ⟨rfl, ⟨hp, hs⟩, hdone⟩

/-! ## `Exchange` -/

/-- The upsert of a token: from then on it is the last one of the item. -/
theorem upsert_step {new : PlaidItem} {token : Token} {env : Env} {v : Db} {id : Nat}
    (hi : TokenInv start s) (hfresh : ¬ Known s.log new.guid)
    (ho : Opens new.bookGuid new.itemId new.ciphertext new.nonce token)
    (hw : (upsertItemStmt new token).write env v s.data = .ok s'.data)
    (hl : s'.log = (id, noteOf (upsertItemStmt new token) env v) :: s.log) :
    TokenInv start s' ∧ Tended s s' := by
  have hgrows : ∀ e ∈ s.log, e ∈ s'.log := fun e he => by rw [hl]; exact .tail _ he
  have hlast : ∀ p : PlaidItem, lastToken s'.log p.bookGuid p.itemId =
      if sameItem new p then some token else lastToken s.log p.bookGuid p.itemId := by
    intro p
    have htag : (noteOf (upsertItemStmt new token) env v).tag.tokenOf p.bookGuid p.itemId =
        if new.bookGuid = p.bookGuid ∧ new.itemId = p.itemId then some token else none := rfl
    rw [hl, lastToken, List.findSome?_cons, htag]
    by_cases hc : new.bookGuid = p.bookGuid ∧ new.itemId = p.itemId
    · rw [if_pos hc, if_pos (by simp [sameItem, hc.1, hc.2])]
    · rw [if_neg hc, if_neg]
      · rfl
      · simp only [sameItem, Bool.and_eq_true, beq_iff_eq]
        exact fun h => hc ⟨h.1.symm, h.2.symm⟩
  have hother : ∀ p ∈ s.data.items, sameItem new p = false →
      (∃ t, lastToken s'.log p.bookGuid p.itemId = some t ∧
        Opens p.bookGuid p.itemId p.ciphertext p.nonce t) ∨
      (lastToken s'.log p.bookGuid p.itemId = none ∧ p.guid ∈ start) := by
    intro p hp hno
    rw [hlast, hno]
    exact hi.sealed p hp
  rcases upsertItemStmt_ok (v := v) hw with hdata | ⟨hnone, hpk, hdata⟩
  · have hitems := congrArg Db.items hdata
    dsimp only at hitems
    refine ⟨⟨?_, fun q hq => ?_⟩, hgrows, fun q hq => .inl ?_⟩
    · rw [hitems, map_updateWhere]
      · exact hi.nodup
      · exact fun _ => rfl
    · rw [hitems] at hq
      rcases mem_updateWhere_cases hq with ⟨hq₀, hno⟩ | ⟨q₀, hq₀, hc, rfl⟩
      · exact hother q hq₀ hno
      · have hsame : new.bookGuid = q₀.bookGuid ∧ new.itemId = q₀.itemId := by
          simp only [sameItem, Bool.and_eq_true, beq_iff_eq] at hc
          exact ⟨hc.1.symm, hc.2.symm⟩
        refine .inl ⟨token, ?_, ?_⟩
        · rw [hlast, if_pos]
          exact hc
        · rw [← hsame.1, ← hsame.2]
          exact ho
    · rw [hitems] at hq
      rcases mem_updateWhere_cases hq with ⟨hq₀, -⟩ | ⟨q₀, hq₀, -, rfl⟩
      · exact ⟨q, hq₀, .refl q⟩
      · exact ⟨q₀, hq₀, rfl, rfl, rfl, Nat.le_succ _, fun he => absurd he (by simp)⟩
  · have hitems := congrArg Db.items hdata
    dsimp only at hitems
    refine ⟨⟨?_, fun q hq => ?_⟩, hgrows, fun q hq => ?_⟩
    · rw [hitems, List.map_append, List.map_singleton, List.nodup_append]
      refine ⟨hi.nodup, List.nodup_singleton _, fun g hg g' hg' => ?_⟩
      obtain rfl := List.mem_singleton.mp hg'
      obtain ⟨p, hp, rfl⟩ := List.mem_map.mp hg
      intro he
      have hno := List.any_eq_false.mp hpk p hp
      exact hno (beq_iff_eq.mpr he)
    · rw [hitems] at hq
      rcases List.mem_append.mp hq with hq | hq
      · exact hother q hq (by simpa using List.find?_eq_none.mp hnone q hq)
      · obtain rfl := List.mem_singleton.mp hq
        refine .inl ⟨token, ?_, ho⟩
        rw [hlast, if_pos]
        simp [sameItem]
    · rw [hitems] at hq
      rcases List.mem_append.mp hq with hq | hq
      · exact .inl ⟨q, hq, .refl q⟩
      · obtain rfl := List.mem_singleton.mp hq
        exact .inr hfresh

/-- **`Exchange` among other calls.** -/
theorem exchange_sealed {cfg : TokenConfig} {book : Guid}
    (h : ∀ cfg book item, e.req ≠ .request cfg book (.plaidDisconnect item)) :
    (exchange cfg book).wp observed (tokenContract start e) (fun _ _ _ => True) .idle s := by
  have htrue : (tokenContract start e).Stable fun _ => True := fun _ _ _ _ _ => trivial
  have ask : ∀ {γ α : Type} {f : Env → γ} {k : Except SqlErr γ → Call α} {s : Logged Db Note},
      (∀ er s, (k (.error er)).wp observed (tokenContract start e) (fun _ _ _ => True) .idle s) →
      (∀ b s, (k (.ok b)).wp observed (tokenContract start e) (fun _ _ _ => True) .idle s) →
      (Prog.op (.stmt (.askEnv f)) k).wp observed (tokenContract start e) (fun _ _ _ => True)
        .idle s := by
    intro γ α f k s herr hok
    exact wp_stmt_frame (R := fun _ => True) frame_plain htrue (fun _ _ _ _ _ => trivial)
      ⟨Stmt.reads_askEnv _, rfl⟩ trivial (fun _ er s _ _ _ => herr er s)
      fun _ b _ s _ _ _ _ _ _ => hok b s
  refine ask (fun _ _ => trivial) fun r s => ?_
  rcases r with er | ⟨accessToken, itemId, institutionName⟩
  · trivial
  refine ask (fun _ _ => trivial) fun nonce s => ?_
  refine wp_stmt_frame (R := fun _ => True) frame_plain htrue (fun _ _ _ _ _ => trivial)
    ⟨reads_uuidNew, rfl⟩ trivial (fun _ _ _ _ _ _ => trivial) fun _ itemGuid _ s _ _ _ _ _ _ => ?_
  refine ask (fun _ _ => trivial) fun now s => ?_
  refine wp_stmt_idle (fun _ _ _ _ _ _ _ => trivial) ?_
  intro s₁ env g s₂ _ hi _ hid hx
  obtain ⟨hx, hl⟩ := Machine.logged_exec hx
  obtain ⟨hi₂, ht⟩ := upsert_step hi (hid.2 _ _ _ _ rfl)
    (opens_encryptToken cfg book itemId nonce accessToken) (Stmt.write_self _ hx) hl
  refine ⟨hi₂, ⟨ht, ⟨[_], hl, fun e' he' => ?_⟩, fun _ _ _ he => absurd he (h _ _ _)⟩, ?_⟩
  · rw [List.mem_singleton.mp he']
    exact hid.1
  · refine ask (fun _ _ => trivial) fun r s => ?_
    cases r <;> trivial

/-! ## `Sync` and `LinkAccounts` -/

/-- The read of a row at the start of `Sync` and `Disconnect`: the call then holds the row. -/
theorem selectItem_held {item : GuidText} {book : Guid} {α : Type}
    {k : Except SqlErr (Option PlaidItem) → Call α}
    {Q : Except Err α → Sess SqlErr Lock (Logged Db Note) → Logged Db Note → Prop}
    (hs : Spares e.id s) (herr : ∀ er s, Spares e.id s → (k (.error er)).wp observed
      (tokenContract start e) Q .idle s)
    (hnone : ∀ s, Spares e.id s → (k (.ok none)).wp observed (tokenContract start e) Q .idle s)
    (hok : ∀ p s, Held p s → Spares e.id s → p.bookGuid = book → item.parse = .ok p.guid →
      (k (.ok (some p))).wp observed (tokenContract start e) Q .idle s) :
    (Prog.op (.stmt (selectItem item book)) k).wp observed (tokenContract start e) Q .idle s := by
  refine wp_stmt_idle (fun s' _ er hr hi _ _ => herr er s' (stable_spares _ _ hs hr hi)) ?_
  intro s₁ env r s₂ hr hi _ hid hx
  obtain ⟨hx, hl⟩ := Machine.logged_exec hx
  have hw : Watches e.id s₁ s₂ := by
    refine ⟨(selectItem_ok hx).1, [_], hl, fun e' he' => ?_⟩
    rw [List.mem_singleton.mp he']
    exact ⟨hid.1, rfl⟩
  have hs₂ := hw.spares (stable_spares _ _ hs hr hi)
  have hi₂ := hw.tames.inv hi
  refine ⟨hi₂, ⟨hw.tames.tended, hw.log.mono fun _ h => h.1,
    fun _ _ _ _ => .inl (untouched_of_eq hw.data)⟩, ?_⟩
  obtain ⟨-, g, hg, rfl⟩ := selectItem_ok hx
  cases hfind : s₁.data.items.find? (isItem g book) with
  | none => exact hnone s₂ hs₂
  | some p =>
    have hat := List.find?_some hfind
    simp only [isItem, Bool.and_eq_true, beq_iff_eq] at hat
    have hmem := List.mem_of_find?_eq_some hfind
    refine hok p s₂ (held_of_mem hi₂.nodup (hw.data ▸ hmem) ?_) hs₂ hat.2 (hat.1 ▸ hg)
    exact ⟨_, by rw [hl]; exact List.mem_cons_self, p, hmem, rfl⟩

theorem sync_sealed {cfg : PlaidConfig} {book : Guid} {item : GuidText} (hs : Spares e.id s)
    (h : ∀ cfg book item, e.req ≠ .request cfg book (.plaidDisconnect item)) :
    (sync cfg book item).wp observed (tokenContract start e) (fun _ _ _ => True) .idle s := by
  refine selectItem_held hs (fun _ _ _ => trivial) (fun _ _ => trivial) fun p s hp hs hb hg => ?_
  obtain rfl := hb
  refine wp_bind (p := loadAndDecryptToken cfg.tokens p.bookGuid item p.itemId p.ciphertext p.nonce
    p.version) (wp_mono (fun r ss s hpost => ?_) (loadToken_sealed hp hs hg))
  obtain ⟨rfl, -, -⟩ := hpost
  rcases r with er | (_ | _) | token
  · trivial
  · trivial
  · trivial
  · refine wp_frame (frame_tame h) ?_ Sess.within_idle
    dsimp only [Prog.ofExcept, ret_bind]
    refine issues_bind ((lockedFetch_issues _ _).mono fun _ h => h.tame) fun fetched => ?_
    exact issues_bind ((listSuggestions_issues _ _ _).mono fun _ h => h.tame) fun _ => trivial

end Antimoney
