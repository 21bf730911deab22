import Antimoney.Concurrent

/-!
# The sync cursor

`Sync` reads the cursor of an item with its row, opens the token, and only then asks for the
advisory lock under which it fetches pages from that cursor and stores the one it has reached. Under
the lock nobody else moves the cursor, but it may move between the read and the lock.

* `Owns`: the call that holds the lock, read off the log.
* **`sync_forward`**: the specification of `Sync` among others of the same item.
* **`cursor_forward`**: no step moves the cursor back, as long as a call is granted the lock only
  while the cursor it has read is stored.
-/

namespace Antimoney

open Antimoney.Lib Prog

/-! ## The cursor and the lock -/

/-- The stored cursor of an item that a request names. -/
def Db.cursor (db : Db) (book : Guid) (item : GuidText) : Cursor :=
  match item.parse with
  | .ok g => ((db.items.find? (isItem g book)).bind (·.syncCursor)).getD 0
  | .error _ => 0

/-- The call that was granted the lock last. -/
def lastGranted (item : GuidText) (log : List (Nat × Note)) : Option Nat :=
  log.findSome? fun e =>
    if e.2.tag = .lock item ∧ e.2.view.locks.contains item = false then some e.1 else none

/-- The call holds the lock. -/
structure Owns (item : GuidText) (id : Nat) (s : Logged Db Note) : Prop where
  held : s.data.locks.contains item = true
  granted : lastGranted item s.log = some id

/-- What a step leaves to the call `id`: the lock, and while it has it the cursor. -/
def LeftTo (book : Guid) (item : GuidText) (id : Nat) (x y : Logged Db Note) : Prop :=
  Owns item id x → Owns item id y ∧ y.data.cursor book item = x.data.cursor book item

variable {book : Guid} {item : GuidText} {id : Nat} {r : Arrival Event} {x y : Db}
  {s s' s'' : Logged Db Note} {cursor : Cursor}

theorem LeftTo.refl (book : Guid) (item : GuidText) (id : Nat) (s : Logged Db Note) :
    LeftTo book item id s s := fun h => ⟨h, rfl⟩

theorem LeftTo.trans (h : LeftTo book item id s s') (h' : LeftTo book item id s' s'') :
    LeftTo book item id s s'' := by
  intro ho
  obtain ⟨ho, hc⟩ := h ho
  obtain ⟨ho, hc'⟩ := h' ho
  exact ⟨ho, hc'.trans hc⟩

/-- At most one call holds it. -/
theorem Owns.unique {j : Nat} (h : Owns item id s) (h' : Owns item j s) : j = id :=
  Option.some.inj (h'.granted.symm.trans h.granted)

theorem Db.cursor_congr (h : y.items = x.items) : y.cursor book item = x.cursor book item := by
  unfold Db.cursor
  rw [h]

/-- Rewriting rows in other fields keeps the cursor. -/
theorem Db.cursor_update {c : PlaidItem → Bool} {f : PlaidItem → PlaidItem}
    (hf : ∀ p, (f p).guid = p.guid ∧ (f p).bookGuid = p.bookGuid ∧ (f p).syncCursor = p.syncCursor)
    (h : y.items = updateWhere c f x.items) : y.cursor book item = x.cursor book item := by
  unfold Db.cursor
  cases item.parse with
  | error e => rfl
  | ok g =>
    dsimp only
    rw [h, find?_updateWhere]
    · cases x.items.find? (isItem g book) with
      | none => rfl
      | some p =>
        by_cases hc : c p = true
        · simp [hc, (hf p).2.2]
        · simp [hc]
    · intro p
      unfold isItem
      rw [(hf p).1, (hf p).2.1]

/-- The write of a cursor from the stored one on. -/
theorem Db.cursor_write {env : Env} {v : Db} {now : Time} (h : x.cursor book item ≤ cursor)
    (hw : (writeCursor book item cursor now).write env v x = .ok y) :
    x.cursor book item ≤ y.cursor book item := by
  obtain ⟨g, hg, rfl⟩ := writeCursor_ok hw
  unfold Db.cursor at h ⊢
  rw [hg] at h ⊢
  dsimp only at h ⊢
  rw [find?_updateWhere]
  · cases hp : x.items.find? (isItem g book) with
    | none => exact Nat.le_refl _
    | some p =>
      rw [hp] at h
      simpa [List.find?_some hp] using h
  · exact fun p => rfl

/-! ## The contract -/

/-- The bank's page leads on. -/
def LeadsOn (tag : Tag) (env : Env) : Prop :=
  ∀ cursor page, tag = .syncTransactions cursor → env.sync cursor = .ok page →
    cursor ≤ page.nextCursor

/-- What the call `id` has seen of the cursor is what is stored. -/
def Fresh (book : Guid) (item : GuidText) (id : Nat) (s : Logged Db Note) : Prop :=
  ∀ n, (id, n) ∈ s.log → n.view.cursor book item = s.data.cursor book item

/-- The contract of a sync: the others leave it the lock and, under the lock, the cursor. -/
def cursorContract (book : Guid) (item : GuidText) (r : Arrival Event) :
    Contract Stmt SqlErr (Nat × Env) (Logged Db Note) where
  inv s := s.data.locks.count item ≤ 1
  rely x y := LeftTo book item r.id x y ∧ Logged.Adds (fun e => e.1 ≠ r.id) x y
  guar _ x y := x.data.cursor book item ≤ y.data.cursor book item ∧
    (∀ j, j ≠ r.id → LeftTo book item j x y) ∧ Logged.Adds (fun e => e.1 = r.id) x y
  ok q env s := env.1 = r.id ∧ LeadsOn q.tag env.2 ∧
    (q.tag = .lock item → s.data.locks.contains item = false → Fresh book item r.id s)
  rely_refl s := ⟨.refl _ _ _ s, .refl _ s⟩
  rely_trans h h' := ⟨h.1.trans h'.1, h.2.trans h'.2⟩
  guar_refl _ s _ := ⟨Nat.le_refl _, fun _ _ => .refl _ _ _ s, .refl _ s⟩

theorem inv_of_locks (h : s'.data.locks = s.data.locks) (hi : (cursorContract book item r).inv s) :
    (cursorContract book item r).inv s' := by
  unfold cursorContract at hi ⊢
  dsimp only at hi ⊢
  rw [h]
  exact hi

/-- A statement that moves no cursor and takes no lock. -/
structure Stays (book : Guid) (item : GuidText) {β : Type} (q : Stmt β) : Prop where
  tag : q.tag ≠ .lock item
  keeps : ∀ ⦃env : Env⦄ ⦃v x y : Db⦄, q.write env v x = .ok y →
    y.locks = x.locks ∧ y.cursor book item = x.cursor book item

/-- What such statements of a call do. -/
structure Stayed (book : Guid) (item : GuidText) (id : Nat) (x y : Logged Db Note) : Prop where
  locks : y.data.locks = x.data.locks
  cursor : y.data.cursor book item = x.data.cursor book item
  log : Logged.Adds (fun e => e.1 = id ∧ e.2.tag ≠ .lock item) x y

theorem lastGranted_adds {c : Nat × Note → Prop} (h : Logged.Adds c s s')
    (hc : ∀ e, c e → ¬ (e.2.tag = .lock item ∧ e.2.view.locks.contains item = false)) :
    lastGranted item s'.log = lastGranted item s.log := by
  obtain ⟨es, hl, hes⟩ := h
  unfold lastGranted
  rw [hl, List.findSome?_append, List.findSome?_eq_none_iff.mpr fun e he => if_neg (hc e (hes e he)),
    Option.none_or]

theorem Stayed.leftTo (h : Stayed book item id s s') (j : Nat) : LeftTo book item j s s' := by
  intro ho
  refine ⟨⟨h.locks ▸ ho.held, ?_⟩, h.cursor⟩
  rw [lastGranted_adds h.log fun e he hg => he.2 hg.1]
  exact ho.granted

theorem frame_stays : Frame observed (cursorContract book item r) (Stays book item)
    (Stayed book item r.id) where
  refl x := ⟨rfl, rfl, .refl _ x⟩
  trans h h' := ⟨h'.locks.trans h.locks, h'.cursor.trans h.cursor, h.log.trans h'.log⟩
  write q env _ _ _ _ _ _ hq hok _ _ hw := by
    obtain ⟨hw, hl⟩ := Machine.logged_write hw
    obtain ⟨hlocks, hcursor⟩ := hq.keeps hw
    refine ⟨hlocks, hcursor, [_], hl, fun e he => ?_⟩
    rw [List.mem_singleton.mp he]
    exact ⟨hok.1, hq.tag⟩
  keeps _ x y _ hi h := by
    exact ⟨inv_of_locks h.locks hi, h.cursor.ge, fun j _ => h.leftTo j, h.log.mono fun _ h => h.1⟩

/-! ### The statements of a sync -/

theorem not_reads_tryAdvisoryLock (i : GuidText) : ¬ (tryAdvisoryLock i).Reads := by
  intro h
  have hw : (tryAdvisoryLock i).write (calm 0 0) Db.empty Db.empty =
      .ok { Db.empty with locks := [i] } := rfl
  exact absurd (congrArg Db.locks (h.write hw)) (by simp [Db.empty])

theorem Reading.stays {β : Type} {q : Stmt β} (h : Reading book q) : Stays book item q := by
  refine ⟨?_, fun _ _ _ _ hw => by rw [h.reads.write hw]; exact ⟨rfl, rfl⟩⟩
  obtain ⟨hn, hr⟩ := h
  cases hn with
  | tryAdvisoryLock i => exact absurd hr (not_reads_tryAdvisoryLock i)
  | _ => exact nofun

theorem Staging.stays {β : Type} {q : Stmt β} (h : Staging book q) : Stays book item q := by
  cases h with
  | read h => exact h.stays
  | upsertStaged i t d ht =>
    refine ⟨nofun, fun _ _ _ _ hw => ?_⟩
    obtain ⟨_, _, -, -, rfl⟩ := upsertStaged_ok hw
    exact ⟨rfl, rfl⟩
  | dropReplaced is =>
    refine ⟨nofun, fun _ _ _ _ hw => ?_⟩
    rw [dropReplaced_ok hw]
    exact ⟨rfl, rfl⟩
  | dropUndismissed is =>
    refine ⟨nofun, fun _ _ _ _ hw => ?_⟩
    rw [dropUndismissed_ok hw]
    exact ⟨rfl, rfl⟩

theorem stays_writeLastSynced (now : Time) : Stays book item (writeLastSynced book item now) := by
  refine ⟨nofun, fun _ _ _ _ hw => ?_⟩
  rw [writeLastSynced_ok hw]
  exact ⟨rfl, rfl⟩

theorem stays_reseal (i : GuidText) (c : Ciphertext) (n : Nonce) (v : Nat) :
    Stays book item (resealStmt book i c n v) := by
  refine ⟨nofun, fun _ _ _ _ hw => ?_⟩
  obtain ⟨_, _, -, rfl⟩ := resealStmt_ok hw
  refine ⟨rfl, Db.cursor_update ?_ rfl⟩
  exact fun p => ⟨rfl, rfl, rfl⟩

/-! ## Under the lock -/

/-- The call holds the lock, and the cursor is the one it fetches from. -/
structure Fetches (book : Guid) (item : GuidText) (id : Nat) (cursor : Cursor)
    (s : Logged Db Note) : Prop where
  owns : Owns item id s
  cursor : s.data.cursor book item = cursor

theorem stable_owns : (cursorContract book item r).Stable (Owns item r.id) :=
  fun _ _ h hr _ => (hr.1 h).1

theorem Owns.stayed (h : Owns item id s) (hs : Stayed book item id s s') : Owns item id s' :=
  (hs.leftTo id h).1

theorem stable_fetches : (cursorContract book item r).Stable (Fetches book item r.id cursor) := by
  intro x y h hr _
  obtain ⟨ho, hc⟩ := hr.1 h.owns
  exact ⟨ho, hc.trans h.cursor⟩

theorem Fetches.stayed (h : Fetches book item id cursor s) (hs : Stayed book item id s s') :
    Fetches book item id cursor s' :=
  ⟨h.owns.stayed hs, hs.cursor.trans h.cursor⟩

/-- The loop over pages ends on a cursor from the stored one on. -/
theorem fetchPages_forward {c : Cursor} (n : Nat) (more : Bool) (hc : cursor ≤ c)
    (hs : Fetches book item r.id cursor s) :
    (fetchPages book item n c more).wp observed (cursorContract book item r)
      (fun x ss s => ss = .idle ∧ Fetches book item r.id cursor s ∧
        ∀ a, x = .ok a → cursor ≤ a.1) .idle s := by
  have hkeep : ∀ x y, (cursorContract book item r).inv x → Stayed book item r.id x y →
      Fetches book item r.id cursor x → Fetches book item r.id cursor y :=
    fun _ _ _ hw h => h.stayed hw
  induction n generalizing c more s with
  | zero => exact ⟨rfl, hs, fun a ha => by rw [← Except.ok.inj ha]; exact hc⟩
  | succ n ih =>
    refine wp_stmt_frame frame_stays stable_fetches hkeep (reading_syncTransactions c).stays hs
      (fun _ _ _ hs _ _ => ⟨rfl, hs, fun _ h => absurd h (by simp)⟩)
      fun env answer s₁ s₂ _ hs _ _ hok hx => ?_
    have hsem : (Stmt.askEnv fun env => env.sync c).sem env.2 s₁.data = .ok (answer, s₂.data) :=
      (Machine.logged_exec hx).1
    have hanswer : answer = env.2.sync c := (Stmt.askEnv_ok hsem).1
    rcases answer with (_ | _) | page
    · exact ⟨rfl, hs, fun _ h => absurd h (by simp)⟩
    · exact ⟨rfl, hs, fun _ h => absurd h (by simp)⟩
    · have hnext : cursor ≤ page.nextCursor :=
        Nat.le_trans hc (hok.2.1 c page rfl hanswer.symm)
      refine wp_bind (p := stageDelta book item page.delta) (wp_mono (fun x ss s h => ?_)
        (wp_body_idle frame_stays stable_fetches hkeep
          ((stageDelta_issues item page).mono fun _ h => h.stays) (stageDelta_body item _) hs))
      obtain ⟨rfl, hs⟩ := h
      cases x with
      | error e => exact ⟨rfl, hs, fun _ h => absurd h (by simp)⟩
      | ok u =>
        dsimp only [Prog.ofExcept, ret_bind]
        split
        · exact ih true hnext hs
        · exact ⟨rfl, hs, fun a ha => by rw [← Except.ok.inj ha]; exact hnext⟩

/-- **`fetchAndStage` under the lock** moves the cursor on. -/
theorem fetchAndStage_forward (hs : Fetches book item r.id cursor s) :
    (fetchAndStage book item cursor).wp observed (cursorContract book item r)
      (fun _ ss s => ss = .idle ∧ Owns item r.id s) .idle s := by
  have hkeep : ∀ x y, (cursorContract book item r).inv x → Stayed book item r.id x y →
      Owns item r.id x → Owns item r.id y := fun _ _ _ hw h => h.stayed hw
  refine wp_bind (p := fetchPages book item maxSyncPages cursor false) (wp_mono
    (fun x ss s h => ?_) (fetchPages_forward maxSyncPages false (Nat.le_refl _) hs))
  obtain ⟨rfl, hs, hreached⟩ := h
  cases x with
  | error e => exact ⟨rfl, hs.owns⟩
  | ok a =>
    obtain ⟨reached, more⟩ := a
    have hle : cursor ≤ reached := hreached _ rfl
    refine wp_stmt_frame frame_stays stable_fetches (fun _ _ _ hw h => h.stayed hw)
      (Reading.stays (reading_askEnv _)) hs (fun _ _ _ hs _ _ => ⟨rfl, hs.owns⟩)
      fun _ now _ s _ hs _ _ _ _ => ?_
    refine wp_stmt_idle (fun s' _ _ hr hi _ _ => ⟨rfl, (stable_fetches _ _ hs hr hi).owns⟩) ?_
    intro s₁ env u s₂ hr hi _ hok hx
    have hs := stable_fetches _ _ hs hr hi
    obtain ⟨hw, hl⟩ := Machine.logged_write (observed.write_self hx)
    have hlocks : s₂.data.locks = s₁.data.locks := by
      obtain ⟨_, -, h⟩ := writeCursor_ok (v := s₁.data) hw
      rw [h]
    have hadds : Logged.Adds (fun e => e.1 = r.id ∧ e.2.tag ≠ .lock item) s₁ s₂ := by
      refine ⟨[_], hl, fun e he => ?_⟩
      rw [List.mem_singleton.mp he]
      exact ⟨hok.1, nofun⟩
    have howns : Owns item r.id s₂ := by
      refine ⟨hlocks ▸ hs.owns.held, ?_⟩
      rw [lastGranted_adds hadds fun e he hg => he.2 hg.1]
      exact hs.owns.granted
    refine ⟨inv_of_locks hlocks hi, ⟨?_, fun j hj ho => ?_, hadds.mono fun _ h => h.1⟩, ?_⟩
    · exact Db.cursor_write (v := s₁.data) (hs.cursor.trans_le hle) hw
    · -- nobody else holds the lock
      exact absurd (hs.owns.unique ho) hj
    · exact wp_stmt_frame frame_stays stable_owns hkeep (stays_writeLastSynced now) howns
        (fun _ _ _ hs _ _ => ⟨rfl, hs⟩) fun _ _ _ _ _ hs _ _ _ _ => ⟨rfl, hs⟩

/-! ## Before the lock -/

/-- The call has seen this cursor. -/
def Saw (book : Guid) (item : GuidText) (id : Nat) (cursor : Cursor) (s : Logged Db Note) : Prop :=
  ∃ n, (id, n) ∈ s.log ∧ n.view.cursor book item = cursor

theorem Saw.adds {c : Nat × Note → Prop} (h : Saw book item id cursor s)
    (ha : Logged.Adds c s s') : Saw book item id cursor s' := by
  obtain ⟨n, hn, hc⟩ := h
  exact ⟨n, ha.subset hn, hc⟩

theorem stable_saw : (cursorContract book item r).Stable (Saw book item r.id cursor) :=
  fun _ _ h hr _ => h.adds hr.2

/-- What `pg_try_advisory_lock` answers. -/
theorem tryAdvisoryLock_reply {env : Env} {got : Bool}
    (h : (tryAdvisoryLock item).sem env x = .ok (got, y)) :
    (got = false ∧ x.locks.contains item = true ∧ y = x) ∨
      (got = true ∧ x.locks.contains item = false ∧ y = { x with locks := item :: x.locks }) := by
  have h := ok_of_failing h
  split at h
  · rename_i hc
    obtain ⟨rfl, rfl⟩ := Prod.mk.inj (Except.ok.inj h)
    exact .inl ⟨rfl, hc, rfl⟩
  · rename_i hc
    obtain ⟨rfl, rfl⟩ := Prod.mk.inj (Except.ok.inj h)
    exact .inr ⟨rfl, by simpa using hc, rfl⟩

/-- **The fetch under the lock.** -/
theorem lockedFetch_forward (hs : Saw book item r.id cursor s) :
    (lockedFetch book item cursor).wp observed (cursorContract book item r)
      (fun _ ss _ => ss = .idle) .idle s := by
  refine wp_stmt_frame frame_stays stable_saw (fun _ _ _ hw h => h.adds hw.log)
    (Reading.stays ⟨.noop, Stmt.reads_query _⟩) hs (fun _ _ _ _ _ _ => rfl)
    fun _ _ _ s _ hs _ _ _ _ => ?_
  refine wp_stmt_idle (fun _ _ _ _ _ _ _ => rfl) ?_
  intro s₁ env got s₂ hr hi _ hok hx
  have hs := stable_saw _ _ hs hr hi
  obtain ⟨hx, hl⟩ := Machine.logged_exec hx
  have hadds : ∀ c : Nat × Note → Prop, c (env.1, noteOf (tryAdvisoryLock item) env.2 s₁.data) →
      Logged.Adds c s₁ s₂ := by
    refine fun c hc => ⟨[_], hl, fun e he => ?_⟩
    rw [List.mem_singleton.mp he]
    exact hc
  rcases tryAdvisoryLock_reply hx with ⟨rfl, hheld, hdata⟩ | ⟨rfl, hfree, hdata⟩
  · refine ⟨inv_of_locks (by rw [hdata]) hi, ⟨by rw [hdata],
      fun j _ ho => ⟨⟨by rw [hdata]; exact ho.held, ?_⟩, by rw [hdata]⟩, hadds _ hok.1⟩, rfl⟩
    rw [lastGranted_adds (hadds _ hheld) fun e (he : e.2.view.locks.contains item = true) hg => ?_]
    · exact ho.granted
    · rw [he] at hg
      exact absurd hg.2 (by simp)
  · have hfetches : Fetches book item r.id cursor s₂ := by
      obtain ⟨n, hn, hc⟩ := hs
      refine ⟨⟨by rw [hdata]; simp, ?_⟩, ?_⟩
      · unfold lastGranted
        rw [hl, List.findSome?_cons, if_pos ⟨rfl, hfree⟩, hok.1]
      · have hfresh := hok.2.2 rfl hfree n hn
        rw [hdata]
        exact hfresh.symm.trans hc
    refine ⟨?_, ⟨by rw [hdata]; exact Nat.le_refl _, fun j _ ho => ?_, hadds _ hok.1⟩, ?_⟩
    · have hcount : s₁.data.locks.count item = 0 :=
        List.count_eq_zero.mpr fun hm => by simp [hm] at hfree
      unfold cursorContract
      dsimp only
      rw [hdata, List.count_cons_self, hcount]
    · exact absurd ho.held (by rw [hfree]; simp)
    · refine wp_bind (p := (fetchAndStage book item cursor).attempt) (wp_attempt
        (wp_mono (fun x ss s h => ?_) (fetchAndStage_forward hfetches)))
      obtain ⟨rfl, hs⟩ := h
      have hend : ∀ s, ((Prog.ofExcept x).bind fun hasMore =>
          (ret (some hasMore) : Call (Option Bool))).wp observed (cursorContract book item r)
            (fun _ ss _ => ss = .idle) .idle s := by
        intro s
        cases x <;> rfl
      refine wp_stmt_idle (fun s _ _ _ _ _ _ => hend s) ?_
      intro s₁ env u s₂ hr hi _ hok hx
      have hs := stable_owns _ _ hs hr hi
      obtain ⟨hw, hl⟩ := Machine.logged_write (observed.write_self hx)
      have hdata := @advisoryUnlock_ok env.2 s₁.data s₁.data s₂.data item hw
      refine ⟨?_, ⟨by rw [hdata]; exact Nat.le_refl _, fun j hj ho => ?_, ⟨[_], hl, fun e he => ?_⟩⟩,
        hend s₂⟩
      · unfold cursorContract at hi ⊢
        dsimp only at hi ⊢
        rw [hdata]
        exact Nat.le_trans (List.erase_sublist.count_le item) hi
      · exact absurd (hs.unique ho) hj
      · rw [List.mem_singleton.mp he]
        exact hok.1

/-- **`Sync` among others of the same item.** -/
theorem sync_forward {cfg : PlaidConfig} :
    (sync cfg book item).wp observed (cursorContract book item r) (fun _ _ _ => True) .idle s := by
  refine wp_stmt_idle (fun _ _ _ _ _ _ _ => trivial) ?_
  intro s₁ env found s₂ hr hi _ hok hx
  obtain ⟨hx, hl⟩ := Machine.logged_exec hx
  obtain ⟨hdata, g, hg, rfl⟩ := selectItem_ok hx
  have hlog : ∀ c : Nat × Note → Prop, c (env.1, noteOf (selectItem item book) env.2 s₁.data) →
      Logged.Adds c s₁ s₂ := by
    refine fun c hc => ⟨[_], hl, fun e he => ?_⟩
    rw [List.mem_singleton.mp he]
    exact hc
  have hstayed : Stayed book item r.id s₁ s₂ :=
    ⟨by rw [hdata], by rw [hdata], hlog _ ⟨hok.1, nofun⟩⟩
  obtain ⟨hi₂, hguar⟩ := frame_stays.keeps (.stmt (selectItem item book)) s₁ s₂
    (reading_selectItem item).stays hi hstayed
  refine ⟨hi₂, hguar, ?_⟩
  cases hp : s₁.data.items.find? (isItem g book) with
  | none => trivial
  | some p =>
    have hsaw : Saw book item r.id (p.syncCursor.getD 0) s₂ := by
      refine ⟨_, by rw [hl, hok.1]; exact List.mem_cons_self, ?_⟩
      unfold noteOf Db.cursor
      dsimp only
      rw [hg]
      dsimp only
      rw [hp]
      rfl
    refine wp_bind (p := loadAndDecryptToken cfg.tokens book item p.itemId p.ciphertext p.nonce
      p.version) (wp_mono (fun x ss s h => ?_) (loadAndDecryptToken_wp frame_stays stable_saw
        (fun _ _ _ hw h => h.adds hw.log) (Reading.stays (reading_askEnv _))
        (fun _ _ => stays_reseal _ _ _ _) hsaw))
    obtain ⟨rfl, hs, -⟩ := h
    rcases x with e | (_ | _) | token
    · trivial
    · trivial
    · trivial
    · refine wp_bind (p := lockedFetch book item (p.syncCursor.getD 0)) (wp_mono
        (fun x ss s h => ?_) (lockedFetch_forward hs))
      obtain rfl := h
      cases x with
      | error e => trivial
      | ok fetched =>
        dsimp only [Prog.ofExcept, ret_bind]
        refine wp_frame frame_stays ?_ Sess.within_idle
        exact issues_bind ((listSuggestions_issues _ _ _).mono fun _ h => h.stays) fun _ => trivial

/-! ## Every interleaving -/

/-- Only syncs of the item arrive, and the bank's pages lead on. -/
def SyncsOf (book : Guid) (item : GuidText) (c : Observed) : ObservedStep → Prop
  | .spawn r => ∃ cfg, r.req = .request cfg book (.plaidSync item)
  | .step i env => ∀ t, nextTag c i = some t → LeadsOn t env.2

/-- The cursor that a call has seen is stored when it is granted the lock. -/
def GrantedFresh (book : Guid) (item : GuidText) (c : Observed) : ObservedStep → Prop
  | .spawn _ => True
  | .step i _ => nextTag c i = some (.lock item) → c.db.data.locks.contains item = false →
      Fresh book item i c.db

/-- Both. -/
def FreshSyncs (book : Guid) (item : GuidText) (c : Observed) (e : ObservedStep) : Prop :=
  SyncsOf book item c e ∧ GrantedFresh book item c e

theorem freshSyncs_numbered (book : Guid) (item : GuidText) (c : Observed) (e : ObservedStep)
    (h : Numbering (FreshSyncs book item) c e) : Numbered c e := h.1

theorem cursors_tolerant {db : Db} (hdb : item ∉ db.locks) :
    Tolerant observed Arrival.call (Numbering (FreshSyncs book item)) ⟨db, []⟩
      (fun s => s.data.locks.count item ≤ 1) (cursorContract book item) (fun _ _ _ => True)
      fun _ _ => True where
  start := by
    dsimp only
    rw [List.count_eq_zero.mpr hdb]
    exact Nat.zero_le 1
  inv _ _ := Iff.rfl
  arrives c r _ hok _ := by
    obtain ⟨-, ⟨cfg, hreq⟩, -⟩ := hok
    unfold Lib.Arrival.call
    rw [hreq]
    dsimp only [Event.call, handle]
    split
    · trivial
    · refine wp_bind (p := sync cfg book item) (wp_mono (fun x _ _ _ => ?_) sync_forward)
      cases x <;> trivial
  pairs _ _ _ _ _ _ _ := ⟨trivial, trivial⟩
  supplied h := by
    have hid := h.reach.id_eq (freshSyncs_numbered book item) h.call
    refine ⟨h.ok.1.trans hid.symm, h.ok.2.1 _ (nextTag_of_step h), fun ht hfree => ?_⟩
    rw [hid]
    exact h.ok.2.2 ((nextTag_of_step h).trans (congrArg some ht)) hfree
  rely h hij hj _ hg _ _ := by
    have hne := h.id_ne (freshSyncs_numbered book item) hij hj
    exact ⟨hg.2.1 _ fun h => hne h.symm, hg.2.2.mono fun _ he => he.trans_ne hne⟩
  keep _ _ _ _ _ _ := trivial

/-- **The cursor never moves back.** In every interleaving of syncs of an item on which no lock was
held at the start, as long as a call is granted the lock only while the cursor that it has seen is
stored, each step leaves a cursor at or after the one before. -/
theorem cursor_forward {db : Db} (hdb : item ∉ db.locks) {c c' : Observed}
    (hr : Watched (FreshSyncs book item) db c) {i : Nat} {env : Nat × Env}
    (he : Numbering (FreshSyncs book item) c (.step i env))
    (hn : c.next observed Arrival.call (.step i env) = some c') :
    c.db.data.cursor book item ≤ c'.db.data.cursor book item := by
  obtain ⟨_, _, _, _, _, -, hg⟩ := (cursors_tolerant hdb).guar hr he hn
  exact hg.1

/-! ## Four pages -/

/-- The test of `SyncsOf`, for a request that names the item. -/
def syncsOf (book : Guid) (item : GuidText) (c : Observed) (e : ObservedStep) : Bool :=
  numbered c e && match e with
    | .spawn r => match r.req with
      | .request _ b (.plaidSync i) => b == book && i == item
      | _ => false
    | .step i env => match nextTag c i with
      | some (.syncTransactions cursor) => match env.2.sync cursor with
        | .ok page => decide (cursor ≤ page.nextCursor)
        | .error _ => true
      | _ => true

theorem numbering_of_syncsOf {c : Observed} {e : ObservedStep} (h : syncsOf book item c e = true) :
    Numbering (SyncsOf book item) c e := by
  obtain ⟨h1, h2⟩ := Bool.and_eq_true_iff.mp h
  refine ⟨numbered_of_test h1, ?_⟩
  cases e with
  | spawn r =>
    obtain ⟨id, ev⟩ := r
    dsimp only at h2
    split at h2
    · rename_i cfg b i
      simp only [Bool.and_eq_true, beq_iff_eq] at h2
      exact ⟨cfg, by rw [← h2.1, ← h2.2]⟩
    · exact absurd h2 (by simp)
  | step i env =>
    rintro t ht cursor page rfl hp
    dsimp only at h2
    rw [ht] at h2
    dsimp only at h2
    rw [hp] at h2
    simpa using h2

/-- The test of `GrantedFresh`. -/
def grantedFresh (book : Guid) (item : GuidText) (c : Observed) : ObservedStep → Bool
  | .spawn _ => true
  | .step i _ => nextTag c i != some (.lock item) || c.db.data.locks.contains item ||
      c.db.log.all fun e => e.1 != i || e.2.view.cursor book item == c.db.data.cursor book item

theorem grantedFresh_of_test {c : Observed} {e : ObservedStep}
    (h : grantedFresh book item c e = true) : GrantedFresh book item c e := by
  cases e with
  | spawn r => trivial
  | step i env =>
    intro ht hfree n hn
    simp only [grantedFresh, ht, hfree, bne_self_eq_false, Bool.false_or] at h
    simpa using List.all_eq_true.mp h (i, n) hn

/-- The bank has four pages, which bring nothing. -/
def fourPages (n k : Nat) : Env :=
  { calm n k with sync := fun cursor => .ok ⟨[], [], [], cursor + 1, decide (cursor < 3)⟩ }

def syncArrives (id : Nat) : ObservedStep :=
  .spawn ⟨id, .request plainConfig 3 (.plaidSync (Guid.text 30))⟩

/-- Steps of a sync. -/
def syncSteps (id : Nat) (ks : List Nat) : List ObservedStep :=
  ks.map fun k => .step id (id, fourPages (100 + 100 * id) k)

/-- A sync of three pages, and another up to its write of the cursor. -/
def syncTwice : List ObservedStep :=
  syncArrives 0 :: syncSteps 0 (List.range 10) ++ syncArrives 1 :: syncSteps 1 (List.range 5)

/-- The second one moves the cursor on, from the third page to the fourth. -/
theorem cursor_forward_twice : ∃ c c', Watched (FreshSyncs 3 (Guid.text 30)) linked c ∧
    c.next observed Arrival.call (.step 1 (1, fourPages 200 5)) = some c' ∧
    c.db.data.cursor 3 (Guid.text 30) = 3 ∧ c'.db.data.cursor 3 (Guid.text 30) = 4 ∧
    c.db.data.cursor 3 (Guid.text 30) ≤ c'.db.data.cursor 3 (Guid.text 30) := by
  have hrun : ((Conf.run observed Arrival.call (fun c e => syncsOf 3 (Guid.text 30) c e &&
      grantedFresh 3 (Guid.text 30) c e) ⟨⟨linked, []⟩, []⟩ syncTwice).bind fun c =>
      (c.next observed Arrival.call (.step 1 (1, fourPages 200 5))).map fun c' =>
        (syncsOf 3 (Guid.text 30) c (.step 1 (1, fourPages 200 5)) &&
          grantedFresh 3 (Guid.text 30) c (.step 1 (1, fourPages 200 5)),
          c.db.data.cursor 3 (Guid.text 30), c'.db.data.cursor 3 (Guid.text 30))) =
      some (true, 3, 4) := by
    decide +kernel
  obtain ⟨c, hc, h⟩ := Option.bind_eq_some_iff.mp hrun
  obtain ⟨c', hn, h⟩ := Option.map_eq_some_iff.mp h
  obtain ⟨h0, h⟩ := Prod.mk.inj h
  obtain ⟨h1, h2⟩ := Prod.mk.inj h
  have hok : ∀ c e, (syncsOf 3 (Guid.text 30) c e && grantedFresh 3 (Guid.text 30) c e) = true →
      Numbering (FreshSyncs 3 (Guid.text 30)) c e := by
    intro c e h
    obtain ⟨hs, hg⟩ := Bool.and_eq_true_iff.mp h
    obtain ⟨hnum, hsyncs⟩ := numbering_of_syncsOf hs
    exact ⟨hnum, hsyncs, grantedFresh_of_test hg⟩
  have hr := Reach.run hok .start hc
  exact ⟨c, c', hr, hn, h1, h2, cursor_forward (by decide +kernel) hr (hok _ _ h0) hn⟩

/-- Two syncs of the four pages, after a third one has read the cursor, which then fetches three
pages from there. -/
def syncStale : List ObservedStep :=
  syncArrives 0 :: syncSteps 0 [0] ++ syncArrives 1 :: syncSteps 1 (List.range 10) ++
    syncArrives 2 :: syncSteps 2 (List.range 8) ++ syncSteps 0 [1, 2, 3, 4, 5, 6]

/-- It moves the cursor back, from the fourth page to the third. -/
theorem cursor_back : ∃ c c', Watched (SyncsOf 3 (Guid.text 30)) linked c ∧
    Numbering (SyncsOf 3 (Guid.text 30)) c (.step 0 (0, fourPages 100 7)) ∧
    c.next observed Arrival.call (.step 0 (0, fourPages 100 7)) = some c' ∧
    c'.db.data.cursor 3 (Guid.text 30) < c.db.data.cursor 3 (Guid.text 30) := by
  have hrun : ((Conf.run observed Arrival.call (syncsOf 3 (Guid.text 30)) ⟨⟨linked, []⟩, []⟩
      syncStale).bind fun c =>
      (c.next observed Arrival.call (.step 0 (0, fourPages 100 7))).map fun c' =>
        (syncsOf 3 (Guid.text 30) c (.step 0 (0, fourPages 100 7)),
          c.db.data.cursor 3 (Guid.text 30), c'.db.data.cursor 3 (Guid.text 30))) =
      some (true, 4, 3) := by
    decide +kernel
  obtain ⟨c, hc, h⟩ := Option.bind_eq_some_iff.mp hrun
  obtain ⟨c', hn, h⟩ := Option.map_eq_some_iff.mp h
  obtain ⟨h0, h⟩ := Prod.mk.inj h
  obtain ⟨h1, h2⟩ := Prod.mk.inj h
  refine ⟨c, c', Reach.run (fun _ _ => numbering_of_syncsOf) .start hc, numbering_of_syncsOf h0,
    hn, ?_⟩
  rw [h1, h2]
  decide

end Antimoney
