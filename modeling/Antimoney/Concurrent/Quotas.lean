import Antimoney.Concurrent

/-!
# Snapshot quotas

`enforceSnapshotQuota` counts the snapshots of the last 24 hours; for the active trigger it makes
room by deleting the oldest snapshot of any age. The count, the deletion and the `INSERT` are
separate statements. The quotas hold at all times while snapshots of one kind are taken one after
the other and a rotation only ever meets recent ones.

* `Room`: what a call that may insert knows.
* **`takeSnapshot_quota`**: the specification of the method among other calls.
* **`snapshots_quota`**: the quotas, over every interleaving and every timeline.
-/

namespace Antimoney

open Antimoney.Lib Prog

/-- The snapshots of a book with a trigger. -/
def ofKind (book : Guid) (trigger : SnapshotTrigger) (s : Snapshot) : Bool :=
  s.bookGuid == book && s.trigger == trigger

/-- Those of the 24 hours before `t`. -/
def recent (book : Guid) (trigger : SnapshotTrigger) (t : Time) (s : Snapshot) : Bool :=
  ofKind book trigger s && decide (t - 86400 < s.createdAt)

/-- The quota of a trigger. -/
def quotaOf : SnapshotTrigger → Nat
  | .scheduled => quotaScheduled
  | .active => quotaActive
  | .manual => quotaManual

variable {book : Guid} {trigger : SnapshotTrigger} {t t' : Time}

theorem recent_ofKind {s : Snapshot} (h : recent book trigger t s = true) :
    ofKind book trigger s = true := (Bool.and_eq_true_iff.mp h).1

/-- As time passes, fewer snapshots are recent. -/
theorem countP_recent_anti (h : t ≤ t') (ss : List Snapshot) :
    ss.countP (recent book trigger t') ≤ ss.countP (recent book trigger t) := by
  refine List.countP_mono_left fun s _ hs => ?_
  simp only [recent, Bool.and_eq_true, decide_eq_true_eq] at hs ⊢
  obtain ⟨hk, hs⟩ := hs
  exact ⟨hk, lt_of_le_of_lt (Int.sub_le_sub_right h 86400) hs⟩

/-- The recent ones are among those of the kind. -/
theorem countP_recent_le {ss ss' : List Snapshot}
    (h : (ss'.filter (ofKind book trigger)).Sublist (ss.filter (ofKind book trigger))) :
    ss'.countP (recent book trigger t) ≤ ss.countP (recent book trigger t) := by
  have hkind : ∀ l : List Snapshot, (l.filter (ofKind book trigger)).countP
      (recent book trigger t) = l.countP (recent book trigger t) :=
    fun l => countP_filter_of_imp fun s _ hs => recent_ofKind hs
  rw [← hkind ss', ← hkind ss]
  exact h.countP_le

/-- The oldest active snapshot is one of them, and there is one unless there is none. -/
theorem mem_oldestActive {db : Db} {s : Snapshot} (hs : s ∈ db.snapshots)
    (hk : ofKind book .active s = true) :
    ∃ s₀ ∈ db.snapshots, ofKind book .active s₀ = true ∧ db.oldestActive book = some s₀.id := by
  have hperm := List.perm_insertionSort (fun a b : Snapshot => a.createdAt ≤ b.createdAt)
    (db.snapshots.filter (ofKind book .active))
  have hm := hperm.mem_iff.mpr (List.mem_filter.mpr ⟨hs, hk⟩)
  obtain ⟨s₀, hhead⟩ := Option.ne_none_iff_exists'.mp fun h =>
    List.ne_nil_of_mem hm (List.head?_eq_none_iff.mp h)
  have hm₀ := List.mem_filter.mp (hperm.mem_iff.mp (List.mem_of_head? hhead))
  exact ⟨s₀, hm₀.1, hm₀.2, congrArg (Option.map Snapshot.id) hhead⟩

/-- A rotation leaves one snapshot fewer, unless there was none. -/
theorem countP_rotate (db : Db) :
    (deleteWhere (fun s => db.oldestActive book == some s.id) db.snapshots).countP
      (ofKind book .active) ≤ db.snapshots.countP (ofKind book .active) - 1 := by
  rcases Nat.eq_zero_or_pos (db.snapshots.countP (ofKind book .active)) with h0 | hpos
  · have hle : (deleteWhere (fun s => db.oldestActive book == some s.id) db.snapshots).countP
        (ofKind book .active) ≤ db.snapshots.countP (ofKind book .active) :=
      List.filter_sublist.countP_le
    omega
  · obtain ⟨s, hs, hk⟩ := List.countP_pos_iff.mp hpos
    obtain ⟨s₀, hs₀, hk₀, ho⟩ := mem_oldestActive hs hk
    have hlt := countP_deleteWhere_lt (c := fun s => db.oldestActive book == some s.id) hs₀ hk₀
      (by simp [ho])
    omega

/-! ## The contract -/

/-- The kind of snapshot an event takes. -/
def Event.takes : Event → Option (Guid × SnapshotTrigger)
  | .scheduled book _ trigger => some (book, trigger)
  | .request _ book (.createSnapshot _) => some (book, .manual)
  | _ => none

/-- `t` is not before any committed statement. -/
def Since (t : Time) (s : Logged Db Note) : Prop := ∀ e ∈ s.log, e.2.env.now ≤ t

/-- The quotas hold now and from now on. -/
def WithinQuotas (s : Logged Db Note) : Prop :=
  ∀ book trigger t, Since t s → s.data.snapshots.countP (recent book trigger t) ≤ quotaOf trigger

/-- No snapshot of the kind is new. -/
def NoNew (book : Guid) (trigger : SnapshotTrigger) (x y : Db) : Prop :=
  (y.snapshots.filter (ofKind book trigger)).Sublist (x.snapshots.filter (ofKind book trigger))

/-- The log keeps what it has. -/
def Grows (x y : Logged Db Note) : Prop := ∀ e ∈ x.log, e ∈ y.log

/-- The contract of a call: the others take no snapshot of its kind. -/
def quotaContract (r : Arrival Event) : Contract Stmt SqlErr (Nat × Env) (Logged Db Note) where
  inv := WithinQuotas
  rely x y := (∀ book trigger, r.req.takes = some (book, trigger) →
    NoNew book trigger x.data y.data) ∧ Grows x y
  guar _ x y := (∀ book trigger, r.req.takes ≠ some (book, trigger) →
    NoNew book trigger x.data y.data) ∧ Grows x y
  ok q env s := Since env.2.now s ∧ ∀ book, q.tag = .rotateActive book → ∀ sn ∈ s.data.snapshots,
    ofKind book .active sn = true → recent book .active env.2.now sn = true
  rely_refl _ := ⟨fun _ _ _ => .refl _, fun _ h => h⟩
  rely_trans h h' := ⟨fun b k hk => (h'.1 b k hk).trans (h.1 b k hk), fun e he => h'.2 e (h.2 e he)⟩
  guar_refl _ _ _ := ⟨fun _ _ _ => .refl _, fun _ h => h⟩

variable {r : Arrival Event} {s x y : Logged Db Note}

theorem Since.grows (h : Since t y) (hg : Grows x y) : Since t x := fun e he => h e (hg e he)

/-- There is room for a snapshot of the kind. -/
def Room (book : Guid) (trigger : SnapshotTrigger) (s : Logged Db Note) : Prop :=
  ∀ t, Since t s → s.data.snapshots.countP (recent book trigger t) < quotaOf trigger

theorem Room.noNew (h : Room book trigger x) (hn : NoNew book trigger x.data y.data)
    (hg : Grows x y) : Room book trigger y :=
  fun t ht => lt_of_le_of_lt (countP_recent_le hn) (h t (ht.grows hg))

theorem WithinQuotas.noNew (h : WithinQuotas x)
    (hn : ∀ book trigger, NoNew book trigger x.data y.data) (hg : Grows x y) : WithinQuotas y :=
  fun book trigger t ht => (countP_recent_le (hn book trigger)).trans (h book trigger t (ht.grows hg))

theorem stable_room (hk : r.req.takes = some (book, trigger)) :
    (quotaContract r).Stable (Room book trigger) :=
  fun _ _ h hr _ => h.noNew (hr.1 _ _ hk) hr.2

/-- A statement that makes no snapshot. -/
def Prunes {β : Type} (q : Stmt β) : Prop :=
  ∀ ⦃env : Env⦄ ⦃v x y : Db⦄, q.write env v x = .ok y → y.snapshots.Sublist x.snapshots

/-- What such statements do. -/
structure Pruned (x y : Logged Db Note) : Prop where
  snapshots : y.data.snapshots.Sublist x.data.snapshots
  log : Grows x y

theorem Pruned.noNew (h : Pruned x y) (book : Guid) (trigger : SnapshotTrigger) :
    NoNew book trigger x.data y.data := h.snapshots.filter _

theorem frame_prunes : Frame observed (quotaContract r) Prunes Pruned where
  refl x := ⟨.refl _, fun _ h => h⟩
  trans h h' := ⟨h'.snapshots.trans h.snapshots, fun e he => h'.log e (h.log e he)⟩
  write q _ _ _ _ _ _ _ hq _ _ _ hw := by
    obtain ⟨hw, hl⟩ := Machine.logged_write hw
    exact ⟨hq hw, fun e he => by rw [hl]; exact .tail _ he⟩
  keeps _ _ _ _ hi h := ⟨hi.noNew h.noNew h.log, fun b k _ => h.noNew b k, h.log⟩

theorem pruned_of_exec {β : Type} {q : Stmt β} {env : Nat × Env} {b : β} (hq : Prunes q)
    (hx : observed.exec q env x = .ok (b, y)) : Pruned x y := by
  obtain ⟨hw, hl⟩ := Machine.logged_write (observed.write_self hx)
  exact ⟨hq hw, fun e he => by rw [hl]; exact .tail _ he⟩

theorem prunes_of_reads {β : Type} {q : Stmt β} (hq : q.Reads) : Prunes q :=
  fun _ _ _ _ hw => by rw [hq.write hw]

theorem prunes_rotateActive : Prunes (rotateActive book) := by
  intro env v x y hw
  rw [rotateActive_ok (v := v) hw]
  exact List.filter_sublist

theorem prunes_deleteSnapshot {i : GuidText} : Prunes (deleteSnapshotStmt i book) := by
  intro env v x y hw
  obtain ⟨_, -, rfl⟩ := deleteSnapshotStmt_ok (v := v) hw
  exact List.filter_sublist

theorem prunes_purge : Prunes purgeStmt := by
  intro env v x y hw
  obtain ⟨_, rfl⟩ := purgeStmt_ok (v := v) hw
  exact List.filter_sublist

/-! ## `takeSnapshotForBook` -/

theorem countRecentSnapshots_ok {env : Env} {v w : Db} {n : Nat}
    (h : (countRecentSnapshots book trigger).sem env v = .ok (n, w)) :
    n = v.snapshots.countP (recent book trigger env.now) :=
  (Prod.mk.inj (Except.ok.inj (ok_of_failing h))).1.symm

/-- A count below the quota gives room. -/
theorem room_of_count {n : Nat} {env : Nat × Env}
    (hx : observed.exec (countRecentSnapshots book trigger) env x = .ok (n, y))
    (hn : n < quotaOf trigger) : Room book trigger y := by
  obtain ⟨hx, hl⟩ := Machine.logged_exec hx
  obtain rfl := countRecentSnapshots_ok hx
  have hdata := (reads_countRecent book trigger).sem hx
  intro t ht
  have hmem : (env.1, noteOf (countRecentSnapshots book trigger) env.2 x.data) ∈ y.log := by
    rw [hl]
    exact List.mem_cons_self
  have hnow : env.2.now ≤ t := ht _ hmem
  rw [hdata]
  exact lt_of_le_of_lt (countP_recent_anti hnow _) hn

/-- So does a rotation that met recent snapshots only. -/
theorem room_of_rotate {env : Nat × Env} (hi : WithinQuotas x) (ht : Since env.2.now x)
    (hrec : ∀ sn ∈ x.data.snapshots, ofKind book .active sn = true →
      recent book .active env.2.now sn = true)
    (hx : observed.exec (rotateActive book) env x = .ok ((), y)) : Room book .active y := by
  have hw := rotateActive_ok (v := x.data) (machine.write_self (Machine.logged_exec hx).1)
  have hle := hi book .active _ ht
  have hall : x.data.snapshots.countP (ofKind book .active) ≤
      x.data.snapshots.countP (recent book .active env.2.now) :=
    List.countP_mono_left fun sn hsn hk => hrec sn hsn hk
  have hrot := @countP_rotate book x.data
  have hpos : 0 < quotaOf .active := by decide
  intro t _
  have hkind : y.data.snapshots.countP (recent book .active t) ≤
      y.data.snapshots.countP (ofKind book .active) :=
    List.countP_mono_left fun _ _ h => recent_ofKind h
  rw [hw] at hkind ⊢
  dsimp only at hkind ⊢
  omega

/-- The `INSERT` of a snapshot there is room for. -/
theorem insert_quota {label : String} {data : ExportData} {env : Nat × Env} {ss : SnapshotSummary}
    (hk : r.req.takes = some (book, trigger)) (hi : WithinQuotas x) (hroom : Room book trigger x)
    (hx : observed.exec (insertSnapshotStmt book label trigger data) env x = .ok (ss, y)) :
    WithinQuotas y ∧ (quotaContract r).guar (.stmt (insertSnapshotStmt book label trigger data)) x y := by
  obtain ⟨hx, hl⟩ := Machine.logged_exec hx
  obtain ⟨sn, hb, htr, hw⟩ : ∃ sn : Snapshot, sn.bookGuid = book ∧ sn.trigger = trigger ∧
      y.data.snapshots = x.data.snapshots ++ [sn] :=
    ⟨_, rfl, rfl, congrArg Db.snapshots
      (insertSnapshotStmt_ok (v := x.data) (machine.write_self hx))⟩
  have hg : Grows x y := fun e he => by rw [hl]; exact .tail _ he
  -- a kind other than this one has nothing new
  have hother : ∀ b k, (b, k) ≠ (book, trigger) → NoNew b k x.data y.data := by
    intro b k hne
    have hnot : ¬ ofKind b k sn = true := by
      simp only [ofKind, Bool.and_eq_true, beq_iff_eq]
      exact fun h => hne (by rw [← h.1, ← h.2, hb, htr])
    unfold NoNew
    rw [hw, List.filter_append, List.filter_cons_of_neg hnot, List.filter_nil, List.append_nil]
  refine ⟨fun b k t ht => ?_, fun b k hne => hother b k fun h => hne (by rw [hk, h]), hg⟩
  by_cases hbk : (b, k) = (book, trigger)
  · obtain ⟨rfl, rfl⟩ := Prod.mk.inj hbk
    have hlt := hroom t (ht.grows hg)
    rw [hw, List.countP_append, List.countP_singleton]
    split <;> omega
  · exact (countP_recent_le (hother b k hbk)).trans (hi b k t (ht.grows hg))

/-- `enforceSnapshotQuota` among other calls: it succeeds only where there is room. -/
theorem enforceSnapshotQuota_room (hk : r.req.takes = some (book, trigger)) :
    (enforceSnapshotQuota book trigger).wp observed (quotaContract r)
      (fun x ss s => ss = .idle ∧ ∀ u, x = .ok u → Room book trigger s) .idle s := by
  refine wp_stmt_idle (fun _ _ _ _ _ _ _ => ⟨rfl, fun _ h => absurd h (by simp)⟩) ?_
  intro s' env n s'' hr hi _ _ hx
  have hp := pruned_of_exec (prunes_of_reads (reads_countRecent book trigger)) hx
  obtain ⟨hi', hg⟩ := frame_prunes.keeps (.stmt (countRecentSnapshots book trigger)) _ _
    (prunes_of_reads (reads_countRecent book trigger)) hi hp
  refine ⟨hi', hg, ?_⟩
  dsimp only [ret_bind]
  have hroom : n < quotaOf trigger → ∀ u, Except.ok (ε := Err) () = .ok u →
      Room book trigger s'' := fun hn _ _ => room_of_count hx hn
  cases trigger with
  | scheduled =>
    dsimp only
    split
    · exact ⟨rfl, fun _ h => absurd h (by simp)⟩
    · rename_i hn
      exact ⟨rfl, hroom (Nat.lt_of_not_le hn)⟩
  | manual =>
    dsimp only
    split
    · exact ⟨rfl, fun _ h => absurd h (by simp)⟩
    · rename_i hn
      exact ⟨rfl, hroom (Nat.lt_of_not_le hn)⟩
  | active =>
    dsimp only
    split
    · refine wp_stmt_idle (fun _ _ _ _ _ _ _ => ⟨rfl, fun _ h => absurd h (by simp)⟩) ?_
      intro s₁ env u s₂ _ hi₁ _ hok hx
      obtain ⟨hi₂, hg⟩ := frame_prunes.keeps (.stmt (rotateActive book)) _ _ prunes_rotateActive hi₁
        (pruned_of_exec prunes_rotateActive hx)
      exact ⟨hi₂, hg, rfl, fun _ _ => room_of_rotate hi₁ hok.1 (hok.2 book rfl) hx⟩
    · rename_i hn
      exact ⟨rfl, hroom (Nat.lt_of_not_le hn)⟩

/-- **`takeSnapshotForBook` among other calls** keeps the quotas. -/
theorem takeSnapshot_quota {label : String} (hk : r.req.takes = some (book, trigger)) :
    (takeSnapshotForBook book label trigger).wp observed (quotaContract r) (fun _ _ _ => True)
      .idle s := by
  refine wp_bind (p := enforceSnapshotQuota book trigger) (wp_mono (fun x ss s h => ?_)
    (enforceSnapshotQuota_room hk))
  obtain ⟨rfl, hroom⟩ := h
  cases x with
  | error e => trivial
  | ok u =>
    dsimp only [Prog.ofExcept, ret_bind]
    refine wp_bind (wp_attempt (wp_mono (fun x ss s h => ?_) (wp_body_idle frame_prunes
      (stable_room hk) (fun x y _ hw h => h.noNew (hw.noNew _ _) hw.log)
      (buildExportData_issues.mono fun _ h => prunes_of_reads h.reads) buildExportData_body
      (hroom u rfl))))
    obtain ⟨rfl, hroom⟩ := h
    cases x with
    | error e => trivial
    | ok data =>
      refine wp_stmt_idle (fun _ _ _ _ _ _ _ => trivial) fun s' env _ s'' hr hi _ _ hx => ?_
      obtain ⟨hi', hg⟩ := insert_quota hk hi (stable_room hk _ _ hroom hr hi) hx
      exact ⟨hi', hg, trivial⟩

/-! ## Every interleaving -/

/-- The events that take and delete snapshots. -/
def Event.keepsSnapshots : Event → Bool
  | .scheduled _ _ _ | .purge => true
  | .request _ _ (.createSnapshot _) | .request _ _ (.deleteSnapshot _) => true
  | _ => false

/-- Only events that take and delete snapshots arrive, and the clock does not go back. -/
def SnapshotSteps (c : Observed) : ObservedStep → Prop
  | .spawn r => r.req.keepsSnapshots = true
  | .step _ env => Since env.2.now c.db

/-- No two snapshots of one kind are taken at once, and a rotation meets no active snapshot of the
book that is older than 24 hours. -/
def InTurn (c : Observed) : ObservedStep → Prop
  | .spawn r => ∀ k, r.req.takes = some k → ∀ a ∈ c.calls, a.prog.Running → a.req.req.takes ≠ some k
  | .step i env => ∀ book, nextTag c i = some (.rotateActive book) → ∀ s ∈ c.db.data.snapshots,
      ofKind book .active s = true → recent book .active env.2.now s = true

/-- Snapshots in turn. -/
def QuotaSteps (c : Observed) (e : ObservedStep) : Prop := SnapshotSteps c e ∧ InTurn c e

theorem snapshotEvent_wp (h : r.req.keepsSnapshots = true) :
    r.call.wp observed (quotaContract r) (fun _ _ _ => True) .idle s := by
  have hdone : ∀ {α : Type} {f : α → Response} (x : Except Err α) (ss : Sess SqlErr Lock _) s,
      ((Prog.ofExcept x).bind fun a => ret (f a)).wp observed (quotaContract r)
        (fun _ _ _ => True) ss s := fun x _ _ => by cases x <;> trivial
  obtain ⟨id, e⟩ := r
  unfold Lib.Arrival.call
  cases e with
  | scheduled book label trigger =>
    exact wp_bind (wp_mono (fun x ss s _ => hdone x ss s) (takeSnapshot_quota rfl))
  | purge =>
    exact wp_frame frame_prunes (issues_bind (p := purgeExpiredSnapshots)
      (f := fun _ => ret Response.done) (issues_sql prunes_purge) fun _ => trivial) Sess.within_idle
  | request cfg book req =>
    cases req with
    | createSnapshot label =>
      exact wp_bind (wp_mono (fun x ss s _ => hdone x ss s) (takeSnapshot_quota rfl))
    | deleteSnapshot i =>
      refine wp_frame frame_prunes (issues_answer (issues_exec prunes_deleteSnapshot fun n => ?_))
        Sess.within_idle
      split <;> trivial
    | _ => exact absurd h (by simp [Event.keepsSnapshots])
  | signUp email name => exact absurd h (by simp [Event.keepsSnapshots])

theorem quotaSteps_numbered (c : Observed) (e : ObservedStep) (h : Numbering QuotaSteps c e) :
    Numbered c e := h.1

theorem quotas_tolerant {db : Db} (h : db.snapshots = []) :
    Tolerant observed Arrival.call (Numbering QuotaSteps) ⟨db, []⟩ WithinQuotas quotaContract
      (fun _ _ _ => True) fun a b => ∀ k, a.req.takes = some k → b.req.takes ≠ some k where
  start := by
    intro book trigger t _
    dsimp only
    rw [h]
    exact Nat.zero_le _
  inv _ _ := Iff.rfl
  arrives c r _ hok _ := snapshotEvent_wp hok.2.1
  pairs c r _ hok a ha hrun := by
    refine ⟨fun k h h' => ?_, fun k h h' => ?_⟩
    · exact hok.2.2 k h' a ha hrun h
    · exact hok.2.2 k h a ha hrun h'
  supplied h := ⟨h.ok.2.1, fun book ht sn hsn hk =>
    h.ok.2.2 book (by rw [nextTag_of_step h, ht]) sn hsn hk⟩
  rely _ _ _ _ hg _ hp := ⟨fun b k h => hg.1 b k (hp _ h), hg.2⟩
  keep _ _ _ _ _ _ := trivial

/-- **The quotas hold at all times.** In every interleaving of calls that take and delete
snapshots, on a clock that does not go back, while no two snapshots of one kind are taken at once
and a rotation meets no active snapshot older than 24 hours, every state reached has at most as
many snapshots of a kind in the 24 hours before any time since as the quota says. -/
theorem snapshots_quota {db : Db} (h : db.snapshots = []) {c : Observed}
    (hr : Watched QuotaSteps db c) (book : Guid) (trigger : SnapshotTrigger) {t : Time}
    (ht : ∀ e ∈ c.db.log, e.2.env.now ≤ t) :
    c.db.data.snapshots.countP (recent book trigger t) ≤ quotaOf trigger :=
  ((quotas_tolerant h).poolInv hr).inv book trigger t ht

/-- The test of `SnapshotSteps`. -/
def snapshotSteps (c : Observed) (e : ObservedStep) : Bool :=
  numbered c e && match e with
    | .spawn r => r.req.keepsSnapshots
    | .step _ env => c.db.log.all fun e => decide (e.2.env.now ≤ env.2.now)

theorem numbering_of_snapshotSteps {c : Observed} {e : ObservedStep}
    (h : snapshotSteps c e = true) : Numbering SnapshotSteps c e := by
  obtain ⟨h1, h2⟩ := Bool.and_eq_true_iff.mp h
  refine ⟨numbered_of_test h1, ?_⟩
  cases e with
  | spawn r => exact h2
  | step i env => exact fun e he => of_decide_eq_true (List.all_eq_true.mp h2 e he)

/-- The test of `QuotaSteps`. -/
def quotaSteps (c : Observed) (e : ObservedStep) : Bool :=
  snapshotSteps c e && match e with
    | .spawn _ => c.calls.all fun a => a.prog.outcome.isSome
    | .step i env => match nextTag c i with
      | some (.rotateActive book) => c.db.data.snapshots.all fun s =>
          !ofKind book .active s || recent book .active env.2.now s
      | _ => true

theorem numbering_of_quotaSteps {c : Observed} {e : ObservedStep} (h : quotaSteps c e = true) :
    Numbering QuotaSteps c e := by
  obtain ⟨h1, h2⟩ := Bool.and_eq_true_iff.mp h
  obtain ⟨hnum, hsteps⟩ := numbering_of_snapshotSteps h1
  refine ⟨hnum, hsteps, ?_⟩
  cases e with
  | spawn r =>
    exact fun _ _ a ha hrun =>
      absurd hrun (not_running_of_outcome (List.all_eq_true.mp h2 a ha))
  | step i env =>
    intro book ht s hs hk
    dsimp only at h2
    rw [ht] at h2
    have h := List.all_eq_true.mp h2 s hs
    rw [hk] at h
    exact h

/-- A scheduled snapshot of book 3, in `n` steps from time `t` on. -/
def snaps (trigger : SnapshotTrigger) (n t id : Nat) : List ObservedStep :=
  .spawn ⟨id, .scheduled 3 "" trigger⟩ :: (List.range n).map fun k => .step id (id, calm t k)

/-- Twelve active snapshots, and a thirteenth that rotates. -/
def rotations : List ObservedStep :=
  (List.range 12).flatMap (fun i => snaps .active 4 (100 + 10 * i) i) ++ snaps .active 5 300 12

/-- Then there are twelve. -/
theorem snapshots_quota_rotations : ∃ c, Watched QuotaSteps registered c ∧
    c.db.data.snapshots.length = 12 ∧
    c.db.data.snapshots.countP (recent 3 .active 305) ≤ quotaOf .active := by
  have hrun : ((Conf.run observed Arrival.call quotaSteps ⟨⟨registered, []⟩, []⟩ rotations).map
      fun c => (c.db.data.snapshots.length, c.db.log.all fun e => decide (e.2.env.now ≤ 305))) =
      some (12, true) := by
    decide +kernel
  obtain ⟨c, hc, h⟩ := Option.map_eq_some_iff.mp hrun
  obtain ⟨h0, h1⟩ := Prod.mk.inj h
  have hr : Watched QuotaSteps registered c :=
    Reach.run (fun _ _ => numbering_of_quotaSteps) .start hc
  refine ⟨c, hr, h0, snapshots_quota (by decide +kernel) hr 3 .active fun e he => ?_⟩
  exact of_decide_eq_true (List.all_eq_true.mp h1 e he)

/-- An active snapshot, twelve more a day later, and one that rotates. -/
def rotationsOfOld : List ObservedStep :=
  snaps .active 4 100 0 ++
    (List.range 12).flatMap (fun i => snaps .active 4 (100000 + 10 * i) (i + 1)) ++
    snaps .active 5 100200 13

/-- Fourteen snapshots on request, and two at once. -/
def overlapping : List ObservedStep :=
  (List.range 14).flatMap (fun i => snaps .manual 4 (100 + 10 * i) i) ++
    [.spawn ⟨14, .scheduled 3 "" .manual⟩, .spawn ⟨15, .scheduled 3 "" .manual⟩] ++
    (List.range 4).flatMap fun k => [.step 14 (14, calm 300 (2 * k)), .step 15 (15, calm 300 (2 * k + 1))]

/-- **Neither condition can be left out**: then there are thirteen active snapshots in 24 hours, or
sixteen on request. -/
theorem snapshots_exceed :
    (∃ c, Watched SnapshotSteps registered c ∧ (∀ e ∈ c.db.log, e.2.env.now ≤ 100205) ∧
      c.db.data.snapshots.countP (recent 3 .active 100205) = 13) ∧
    (∃ c, Watched SnapshotSteps registered c ∧ (∀ e ∈ c.db.log, e.2.env.now ≤ 310) ∧
      c.db.data.snapshots.countP (recent 3 .manual 310) = 16) := by
  have hex : ∀ (es : List ObservedStep) (k : SnapshotTrigger) (t : Time) (n : Nat),
      ((Conf.run observed Arrival.call snapshotSteps ⟨⟨registered, []⟩, []⟩ es).map fun c =>
        (c.db.data.snapshots.countP (recent 3 k t),
          c.db.log.all fun e => decide (e.2.env.now ≤ t))) = some (n, true) →
      ∃ c, Watched SnapshotSteps registered c ∧ (∀ e ∈ c.db.log, e.2.env.now ≤ t) ∧
        c.db.data.snapshots.countP (recent 3 k t) = n := by
    intro es k t n hrun
    obtain ⟨c, hc, h⟩ := Option.map_eq_some_iff.mp hrun
    obtain ⟨h0, h1⟩ := Prod.mk.inj h
    refine ⟨c, Reach.run (fun _ _ => numbering_of_snapshotSteps) .start hc, fun e he => ?_, h0⟩
    exact of_decide_eq_true (List.all_eq_true.mp h1 e he)
  exact ⟨hex rotationsOfOld _ _ _ (by decide +kernel), hex overlapping _ _ _ (by decide +kernel)⟩

end Antimoney
