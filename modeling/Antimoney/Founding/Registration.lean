import Antimoney.Founding.Books
import Antimoney.Founding.Seeding

/-!
# What a registration or a reset that fails leaves behind

`Register` commits the row of `users` and the row of `books` one by one, and seeds the book in a
transaction of its own; a factory reset commits the empty book before it seeds it.

* `registerUser_run`, `handleFactoryReset_run`: how far each gets on a given stream.
* **`founding_atomic_iff`**: what a failed registration or reset leaves is nothing exactly if it
  fails before its first commit, and as long as no seeding is interrupted every user has a book and
  every book a root.
-/

namespace Antimoney

open Antimoney.Lib Prog

/-! ## Registration -/

/-- The registration gets its row of `users`: the statement does not fail, and the e-mail is free
and fits its column, as does the name. -/
def Registers (db : Db) (email name : String) (envs : Nat → Env) : Prop :=
  (envs 1).up = true ∧ db.users.any (·.email == email) = false ∧ email.length ≤ 255 ∧
    name.length ≤ 255

instance (db : Db) (email name : String) (envs : Nat → Env) :
    Decidable (Registers db email name envs) :=
  inferInstanceAs (Decidable (_ ∧ _))

/-- The rest of `Register`, once the e-mail was not found. -/
def createUser (email name : String) : Call (Guid × Guid) := do
  let user ← exec "create user" (insertUserStmt email name)
  let book ← exec "create book" (insertBookStmt user)
  seedUserBook book
  return (user, book)

section Register

variable {email name : String} {db : Db} {envs : Nat → Env}

/-- The e-mail is looked up; the answer that it is taken ends the call. -/
theorem registerUser_lookup
    (ha : (registerUser email name).runAllowed machine envs (.idle db) = true) :
    (db.users.any (·.email == email) = true ∧
      (registerUser email name).run machine envs (.idle db) = (.error .emailTaken, .idle db)) ∨
    ((registerUser email name).run machine envs (.idle db) =
        (createUser email name).run machine (fun n => envs (n + 1)) (.idle db) ∧
      (createUser email name).runAllowed machine (fun n => envs (n + 1)) (.idle db) = true) := by
  let k : Except SqlErr Bool → Call (Guid × Guid) := fun found =>
    if countOrZero found false then .fail .emailTaken else createUser email name
  have hrun : (registerUser email name).run machine envs (.idle db) =
      (k (soloStep machine (.stmt (emailExists email)) (envs 0) (.idle db)).1).run machine
        (fun n => envs (n + 1))
        (soloStep machine (.stmt (emailExists email)) (envs 0) (.idle db)).2 := rfl
  have hallowed : (k (soloStep machine (.stmt (emailExists email)) (envs 0) (.idle db)).1).runAllowed
      machine (fun n => envs (n + 1))
      (soloStep machine (.stmt (emailExists email)) (envs 0) (.idle db)).2 = true :=
    ((Bool.and_eq_true _ _).mp ha).2
  have hstep : ∃ r, (r = .ok (db.users.any (·.email == email)) ∨ r = .error .failed) ∧
      soloStep machine (.stmt (emailExists email)) (envs 0) (.idle db) = (r, .idle db) := by
    cases hf : (envs 0).fail with
    | false =>
      have hx : machine.exec (emailExists email) (envs 0) db =
          .ok (db.users.any (·.email == email), db) := by
        change (if (envs 0).fail then Except.error SqlErr.failed else _) = _
        rw [hf]
        rfl
      exact ⟨_, .inl rfl, by simp [soloStep, hx]⟩
    | true =>
      have hx : machine.exec (emailExists email) (envs 0) db = .error .failed := by
        change (if (envs 0).fail then Except.error SqlErr.failed else _) = _
        rw [hf]
        rfl
      exact ⟨_, .inr rfl, by simp [soloStep, hx]⟩
  obtain ⟨r, hr, hstep⟩ := hstep
  rw [hstep] at hrun hallowed
  rw [hrun]
  by_cases hc : countOrZero r false = true
  · have hk : k r = .fail .emailTaken := if_pos hc
    refine .inl ⟨?_, by rw [hk]; rfl⟩
    rcases hr with rfl | rfl
    · exact hc
    · exact absurd hc (by simp [countOrZero])
  · have hk : k r = createUser email name := if_neg hc
    rw [hk] at hallowed ⊢
    exact .inr ⟨rfl, hallowed⟩

/-- The row of `users` comes exactly if the registration gets it. -/
theorem insertUser_sem :
    (Registers db email name envs → (insertUserStmt email name).sem (envs 1) db =
      .ok ((envs 1).guid, { db with users := db.users ++ [⟨(envs 1).guid, email, name⟩] })) ∧
    (¬ Registers db email name envs →
      ∃ e, (insertUserStmt email name).sem (envs 1) db = .error e) := by
  constructor
  · rintro ⟨hup, hfree, he, hn⟩
    have hf : (envs 1).fail = false := by simpa [Env.up] using hup
    have hfit : (decide (email.length ≤ 255) && decide (name.length ≤ 255)) = true := by
      simp [he, hn]
    simp only [insertUserStmt, Stmt.sqlWith, Stmt.mk', hf, hfree, hfit, require]
    rfl
  · intro hnot
    cases hx : (insertUserStmt email name).sem (envs 1) db with
    | error e => exact ⟨e, rfl⟩
    | ok r =>
      refine absurd ?_ hnot
      obtain ⟨hfit, hx'⟩ := require_bind (ok_of_failing hx)
      obtain ⟨hfree, -⟩ := require_bind hx'
      simp only [Bool.and_eq_true, decide_eq_true_eq, Bool.not_eq_true'] at hfit hfree
      exact ⟨up_of_ok hx, hfree, hfit⟩

/-- The statement leaves the users alone. -/
def KeepsUsers {β : Type} (q : Stmt β) : Prop :=
  ∀ ⦃env : Env⦄ ⦃v v' : Db⦄ ⦃b : β⦄, q.sem env v = .ok (b, v') → v'.users = v.users

theorem keepsUsers_insertBook (user : Guid) : KeepsUsers (insertBookStmt user) := by
  intro env v v' b hx
  obtain ⟨-, hx⟩ := require_bind (ok_of_failing hx)
  obtain ⟨-, rfl⟩ := Prod.mk.inj (Except.ok.inj hx)
  rfl

theorem seedUserBook_keepsUsers (book : Guid) : (seedUserBook book).Issues KeepsUsers := by
  refine seeding_issues (fun d p b env v v' g hx => ?_) fun r env v v' b hx => ?_
  · obtain ⟨a, -, -, rfl⟩ := insertSeedAccountStmt_ok
      ((insertSeedAccountStmt book d p b).write_self hx)
    rfl
  · rw [(setBookRoot_ok ((setBookRoot book r).write_self hx)).2]

/-- What comes after the row of `users`: the book, and its accounts. -/
def createBook (user : Guid) : Call (Guid × Guid) := do
  let book ← exec "create book" (insertBookStmt user)
  seedUserBook book
  return (user, book)

theorem createBook_users {user : Guid} {v : Db}
    (ha : (createBook user).runAllowed machine envs (.idle v) = true) :
    ((createBook user).run machine envs (.idle v)).2.db.users = v.users := by
  have hissues : (createBook user).Issues KeepsUsers :=
    issues_exec (keepsUsers_insertBook user) fun book =>
      issues_bind (seedUserBook_keepsUsers book) fun _ => trivial
  exact (run_of_swp (swp_of_issues (I := fun w => w.users = v.users) hissues
    (fun _ _ _ _ _ hq hv _ hx => (hq hx).trans hv) (Solo.holds_idle rfl)) ha).1

/-- A book that is not interrupted: it comes with a root. -/
theorem createBook_run {user : Guid} {v : Db} (hu : v.users.any (·.id == user) = true)
    (hup : ∀ k < 23, (envs k).up = true)
    (ha : (createBook user).runAllowed machine envs (.idle v) = true) :
    ∃ w root, (createBook user).run machine envs (.idle v) =
        (.ok (user, (envs 0).guid), .idle w) ∧ w.users = v.users ∧
      w.books = updateWhere (·.guid == (envs 0).guid)
        (fun b => { b with rootAccountGuid := some root })
        (v.books ++ [⟨(envs 0).guid, none, user⟩]) := by
  have hf : (envs 0).fail = false := by simpa [Env.up] using hup 0 (by omega)
  let v' : Db := { v with books := v.books ++ [⟨(envs 0).guid, none, user⟩] }
  have hx : (insertBookStmt user).sem (envs 0) v = .ok ((envs 0).guid, v') := by
    simp only [insertBookStmt, Stmt.sqlWith, Stmt.mk', hf, hu, require]
    rfl
  have hrest : ((seedUserBook (envs 0).guid).bind fun _ => ret (user, (envs 0).guid)).runAllowed
      machine (fun n => envs (n + 1)) (.idle v') = true := allowed_sql hx ha
  have hseed := (Bool.and_eq_true _ _).mp
    ((run_bind_at (M := machine) (seedUserBook (envs 0).guid)
      (fun _ => ret (user, (envs 0).guid)) (fun n => envs (n + 1)) (.idle v')).2.1 ▸ hrest)
  have hbook : v'.hasBook (envs 0).guid = true := by simp [Db.hasBook, v']
  obtain ⟨w, root, hrun, husers, hbooks⟩ := seedUserBook_run hbook
    (fun k hk => hup (k + 1) (by omega)) hseed.1
  refine ⟨w, root, ?_, husers, hbooks⟩
  have hfirst : (createBook user).run machine envs (.idle v) =
      ((seedUserBook (envs 0).guid).bind fun _ => ret (user, (envs 0).guid)).run machine
        (fun n => envs (n + 1)) (.idle v') := run_sql hx
  rw [hfirst, (run_bind_ok hrun).1]
  rfl

/-- **`Register` on a stream.** -/
theorem registerUser_run
    (ha : (registerUser email name).runAllowed machine envs (.idle db) = true) :
    (¬ Registers db email name envs →
      ∃ e, (registerUser email name).run machine envs (.idle db) = (.error e, .idle db)) ∧
    (Registers db email name envs →
      (registerUser email name).run machine envs (.idle db) =
          (createBook (envs 1).guid).run machine (fun n => envs (n + 2))
            (.idle { db with users := db.users ++ [⟨(envs 1).guid, email, name⟩] }) ∧
        (createBook (envs 1).guid).runAllowed machine (fun n => envs (n + 2))
          (.idle { db with users := db.users ++ [⟨(envs 1).guid, email, name⟩] }) = true) := by
  have hcreate : createUser email name =
      (exec "create user" (insertUserStmt email name)).bind createBook := rfl
  rcases registerUser_lookup ha with ⟨htaken, hrun⟩ | ⟨hrun, hallowed⟩
  · refine ⟨fun _ => ⟨_, hrun⟩, fun ⟨_, hfree, _⟩ => ?_⟩
    exact absurd (hfree.symm.trans htaken) (by simp)
  · rw [hrun, hcreate]
    constructor
    · intro hnot
      obtain ⟨e, hx⟩ := insertUser_sem.2 hnot
      exact ⟨_, run_sql_error hx⟩
    · intro hr
      have hx := insertUser_sem.1 hr
      exact ⟨run_sql hx, allowed_sql hx (hcreate ▸ hallowed)⟩

end Register

/-! ## Reset -/

section Reset

variable {book : Guid} {db : Db} {envs : Nat → Env}

/-- **A factory reset on a stream.** -/
theorem handleFactoryReset_run
    (ha : (handleFactoryReset book).runAllowed machine envs (.idle db) = true) :
    (¬ Clears db book envs →
      ∃ e, (handleFactoryReset book).run machine envs (.idle db) = (.error e, .idle db)) ∧
    (Clears db book envs →
      (handleFactoryReset book).run machine envs (.idle db) =
          (seedUserBook book).run machine (fun n => envs (n + 7)) (.idle (db.clearBook book)) ∧
        (seedUserBook book).runAllowed machine (fun n => envs (n + 7))
          (.idle (db.clearBook book)) = true) := by
  have hparts := run_bind_at (M := machine) (clearing book) (fun _ => seedUserBook book) envs
    (.idle db)
  rw [handleFactoryReset_eq] at ha ⊢
  rw [hparts.2.1, Bool.and_eq_true] at ha
  obtain ⟨hclears, hnot⟩ := clearing_run ha.1
  constructor
  · intro hn
    obtain ⟨e, hrun⟩ := hnot hn
    exact ⟨e, run_bind_error hrun⟩
  · intro hc
    obtain ⟨hrun, hlen⟩ := hclears hc
    rw [hrun, hlen] at ha
    exact ⟨by rw [(run_bind_ok hrun).1, hlen], ha.2⟩

end Reset

/-! ## Every run -/

/-- A registration that is not interrupted between its commits, and a reset neither. Any other
event may fail anywhere. -/
def Unbroken (e : Event) (envs : Nat → Env) (db : Db) : Prop :=
  match e with
  | .signUp email name => Registers db email name envs → ∀ k, 2 ≤ k → k < 25 → (envs k).up = true
  | .request _ book .factoryReset => Clears db book envs → ∀ k, 7 ≤ k → k < 29 → (envs k).up = true
  | _ => True

/-- A new user with a book that has a root. -/
theorem Db.Housed.found {x y : Db} {user : User} {book root : Guid} (h : x.Housed)
    (hu : y.users = x.users ++ [user])
    (hb : y.books = updateWhere (·.guid == book) (fun b => { b with rootAccountGuid := some root })
      (x.books ++ [⟨book, none, user.id⟩])) : y.Housed := by
  have hsame : ∀ b : Book, { b with rootAccountGuid := some root }.userId = b.userId := fun _ => rfl
  have hids : y.books.map (·.userId) = x.books.map (·.userId) ++ [user.id] := by
    rw [hb, map_updateWhere hsame, List.map_append]
    rfl
  constructor
  · intro u hmem
    have hid : u.id ∈ y.books.map (·.userId) := by
      rw [hids, List.mem_append]
      rcases List.mem_append.mp (hu ▸ hmem) with hmem | hmem
      · obtain ⟨b, hbm, hbu⟩ := h.owned u hmem
        exact .inl (List.mem_map.mpr ⟨b, hbm, hbu⟩)
      · rw [List.mem_singleton.mp hmem]
        exact .inr List.mem_cons_self
    exact List.mem_map.mp hid
  · intro b hmem
    rw [hb] at hmem
    rcases mem_updateWhere_cases hmem with ⟨hmem, hne⟩ | ⟨b', -, -, rfl⟩
    · rcases List.mem_append.mp hmem with hmem | hmem
      · exact h.rooted b hmem
      · rw [List.mem_singleton.mp hmem] at hne
        exact absurd hne (by simp)
    · simp

section Step

variable {db : Db} {envs : Nat → Env}

theorem signUp_housed {email name : String} (h : db.Housed)
    (hok : Registers db email name envs → ∀ k, 2 ≤ k → k < 25 → (envs k).up = true)
    (ha : (registerUser email name).runAllowed machine envs (.idle db) = true) :
    ((registerUser email name).run machine envs (.idle db)).2.db.Housed := by
  obtain ⟨hnot, hreg⟩ := registerUser_run ha
  by_cases hr : Registers db email name envs
  · obtain ⟨hrun, hallowed⟩ := hreg hr
    have hup : ∀ k < 23, (envs (k + 2)).up = true := fun k hk => hok hr (k + 2) (by omega) (by omega)
    obtain ⟨w, root, hbook, hu, hb⟩ := createBook_run (by simp) hup hallowed
    rw [hrun, hbook]
    exact @Db.Housed.found _ _ ⟨(envs 1).guid, email, name⟩ _ _ h hu hb
  · obtain ⟨e, hrun⟩ := hnot hr
    rw [hrun]
    exact h

/-- Seeding a book that does not exist. -/
theorem seeding_nowhere {book : Guid} (hb : ∀ b ∈ db.books, (b.guid == book) = false)
    (ha : (seedUserBook book).runAllowed machine envs (.idle db) = true) :
    SameBooks db ((seedUserBook book).run machine envs (.idle db)).2.db := by
  let P : StmtClass Stmt := fun q => ∀ ⦃env : Env⦄ ⦃v v' : Db⦄ ⦃b⦄,
    (∀ b ∈ v.books, (b.guid == book) = false) → q.sem env v = .ok (b, v') → SameBooks v v'
  have hissues : (seedUserBook book).Issues P := by
    refine seeding_issues (fun d p b env v v' g _ hx => ?_) fun r env v v' b hv hx => ?_
    · obtain ⟨a, -, -, rfl⟩ := insertSeedAccountStmt_ok
        ((insertSeedAccountStmt book d p b).write_self hx)
      exact ⟨rfl, rfl⟩
    · rw [(setBookRoot_ok ((setBookRoot book r).write_self hx)).2]
      exact ⟨rfl, updateWhere_of_forall_not hv⟩
  exact (run_of_swp (swp_of_issues (I := SameBooks db) hissues
    (fun _ _ _ _ _ hq hv _ hx => hv.trans (hq (hv.books ▸ hb) hx)) (Solo.holds_idle (.refl db)))
    ha).1

theorem factoryReset_housed {book : Guid} (h : db.Housed)
    (hok : Clears db book envs → ∀ k, 7 ≤ k → k < 29 → (envs k).up = true)
    (ha : (handleFactoryReset book).runAllowed machine envs (.idle db) = true) :
    ((handleFactoryReset book).run machine envs (.idle db)).2.db.Housed := by
  obtain ⟨hnot, hclears⟩ := handleFactoryReset_run ha
  by_cases hc : Clears db book envs
  · obtain ⟨hrun, hallowed⟩ := hclears hc
    have hup : ∀ k < 22, (envs (k + 7)).up = true := fun k hk => hok hc (k + 7) (by omega) (by omega)
    by_cases hb : db.hasBook book = true
    · have hb' : (db.clearBook book).hasBook book = true := by rw [Db.hasBook_clearBook, hb]
      obtain ⟨w, root, hseed, hu, hbooks⟩ := seedUserBook_run hb' hup hallowed
      rw [hrun, hseed]
      exact @Db.Housed.root _ _ book root h hu hbooks
    · -- a book that does not exist: nothing is cleared, and nothing is seeded
      have hnone : ∀ b ∈ db.books, (b.guid == book) = false := by
        simpa [Db.hasBook, List.any_eq_true] using hb
      have hclear : SameBooks db (db.clearBook book) := ⟨rfl, updateWhere_of_forall_not hnone⟩
      rw [hrun]
      exact h.same (hclear.trans (seeding_nowhere (hclear.books ▸ hnone) hallowed))
  · obtain ⟨e, hrun⟩ := hnot hc
    rw [hrun]
    exact h

/-- A part that leaves both tables alone, then the rest. -/
theorem housed_after {α β : Type} {p : Call β} {k : β → Call α} (h : db.Housed)
    (hp : p.Issues KeepsBooks) (hbody : p.Body)
    (hk : ∀ b v, v.Housed → (k b).swp (machine.assuming fun _ _ _ => true) Duty.none
      (fun _ t => t.db.Housed) (.idle v)) :
    (p.bind k).swp (machine.assuming fun _ _ _ => true) Duty.none (fun _ t => t.db.Housed)
      (.idle db) := by
  have hkeeps : p.swp machine Duty.none (fun _ t => t.Holds Db.Housed) (.idle db) :=
    swp_of_issues hp (fun _ _ _ _ _ hq hv _ hx => hv.same (hq hx)) (Solo.holds_idle h)
  refine swp_bind (swp_mono (fun r t ht => ?_) (swp_assuming (swp_and hkeeps
    (swp_body (M := machine) hbody rfl))))
  obtain ⟨⟨ht, -⟩, hw⟩ := ht
  obtain ⟨v, w⟩ := t
  obtain rfl : w = none := hw
  cases r with
  | error _ => exact ht
  | ok b => exact hk b v ht

theorem backup_housed {book : Guid} {label : String} {file : ExportData} (h : db.Housed) :
    ((autoBackup book label).bind fun _ => performImport book file).swp
      (machine.assuming fun _ _ _ => true) Duty.none (fun _ t => t.db.Housed) (.idle db) :=
  housed_after h (issues_keeping (autoBackup_issues label) fun _ hq => hq.keepsBooks)
    (autoBackup_body label) fun _ _ hv => performImport_housed hv

theorem handleRestore_housed {book : Guid} {id : GuidText} (h : db.Housed) :
    (handleRestore book id).swp (machine.assuming fun _ _ _ => true) Duty.none
      (fun _ t => t.db.Housed) (.idle db) := by
  refine housed_after h (issues_named (getSnapshot_issues id)) ?_ fun snap v hv => backup_housed hv
  refine body_sql fun r => ?_
  cases r <;> trivial

theorem run_of_free {α : Type} {p : Call α} {Q : Except Err α → Solo SqlErr Db → Prop}
    (h : p.swp (machine.assuming fun _ _ _ => true) Duty.none Q (.idle db))
    (ha : p.runAllowed machine envs (.idle db) = true) :
    Q (p.run machine envs (.idle db)).1 (p.run machine envs (.idle db)).2 := by
  have hrun := run_of_swp h (runAllowed_assuming (fun _ _ _ => rfl) ha)
  rw [run_assuming] at hrun
  exact hrun

/-- An answer made from what a call returns: the state is the call's. -/
theorem serve_map {α : Type} (p : Call α) (f : α → Response) :
    serve (p.bind fun a => ret (f a)) envs db =
        ((p.run machine envs (.idle db)).1.map f, (p.run machine envs (.idle db)).2.db) ∧
      mayServe (p.bind fun a => ret (f a)) envs db = p.runAllowed machine envs (.idle db) := by
  obtain ⟨hrun, hallowed⟩ := run_map (M := machine) f p envs (.idle db)
  exact ⟨by simp only [serve, hrun], hallowed⟩

theorem serve_free {α : Type} {p : Call α} {f : α → Response}
    (h : p.swp (machine.assuming fun _ _ _ => true) Duty.none (fun _ t => t.db.Housed) (.idle db))
    (ha : mayServe (p.bind fun a => ret (f a)) envs db = true) :
    (serve (p.bind fun a => ret (f a)) envs db).2.Housed := by
  obtain ⟨hserve, hallowed⟩ := @serve_map db envs _ p f
  rw [hserve]
  exact run_of_free h (hallowed.symm.trans ha)

theorem serve_housed {e : Event} (h : db.Housed) (hok : Unbroken e envs db)
    (ha : mayServe e.call envs db = true) : (serve e.call envs db).2.Housed := by
  have hkeeps : e.call.Issues KeepsBooks → (serve e.call envs db).2.Housed := fun hp =>
    h.same (sameBooks_of_issues hp ha)
  cases e with
  | signUp email name =>
    obtain ⟨hserve, hallowed⟩ := @serve_map db envs _ (registerUser email name)
      fun r => Response.signedUp r.1 r.2
    have hhoused := signUp_housed h hok (hallowed.symm.trans ha)
    exact congrArg Prod.snd hserve ▸ hhoused
  | scheduled book label trigger =>
    exact hkeeps (issues_answer (issues_keeping (takeSnapshotForBook_issues label trigger)
      fun _ hq => hq.keepsBooks))
  | purge => exact hkeeps (issues_exec keepsBooks_purge fun _ => trivial)
  | request cfg book req =>
    cases hreq : req.replaces with
    | false => exact hkeeps (handle_keepsBooks cfg req hreq)
    | true =>
      cases req with
      | importJson file =>
        cases file with
        | none => exact h
        | some file =>
          exact serve_free (performImport_housed h) ha
      | importGnuCash file =>
        cases file with
        | none => exact h
        | some file =>
          exact serve_free (p := handleGnuCashImport book file) (backup_housed h) ha
      | restoreSnapshot id => exact serve_free (handleRestore_housed h) ha
      | factoryReset =>
        obtain ⟨hserve, hallowed⟩ := @serve_map db envs _ (handleFactoryReset book)
          fun _ => Response.done
        have hhoused := factoryReset_housed h hok (hallowed.symm.trans ha)
        exact congrArg Prod.snd hserve ▸ hhoused
      | _ => exact absurd hreq (by simp [Request.replaces])

theorem Runs.housed {db : Db} (hr : Runs Unbroken db) : db.Housed :=
  hr.invariant ⟨fun _ h => absurd h (by simp [Db.empty]), fun _ h => absurd h (by simp [Db.empty])⟩
    fun _ _ _ h ha hok => serve_housed h hok ha

end Step

/-- **What a failure leaves.** A failed registration leaves no user exactly if it did not get its
row of `users`; a failed reset leaves the state exactly if its first transaction did not commit, or
had nothing to clear; and in a run without interrupted seeding every user has a book, and every book
a root. -/
theorem founding_atomic_iff (db : Db) :
    (∀ (email name : String) (envs : Nat → Env) (e : Err),
      mayServe (Event.signUp email name).call envs db = true →
      (serve (Event.signUp email name).call envs db).1 = .error e →
      ((serve (Event.signUp email name).call envs db).2.users = db.users ↔
        ¬ Registers db email name envs)) ∧
    (∀ (cfg : PlaidConfig) (book : Guid) (envs : Nat → Env) (e : Err),
      mayServe (Event.request cfg book .factoryReset).call envs db = true →
      (serve (Event.request cfg book .factoryReset).call envs db).1 = .error e →
      ((serve (Event.request cfg book .factoryReset).call envs db).2 = db ↔
        ¬ Clears db book envs ∨ db.clearBook book = db)) ∧
    (Runs Unbroken db → db.Housed) := by
  refine ⟨fun email name envs e ha he => ?_, fun cfg book envs e ha he => ?_, fun hr => hr.housed⟩
  · obtain ⟨hserve, hallowed⟩ := @serve_map db envs _ (registerUser email name)
      fun r => Response.signedUp r.1 r.2
    obtain ⟨hnot, hreg⟩ := registerUser_run (hallowed.symm.trans ha)
    have hstate : (serve (Event.signUp email name).call envs db).2 =
        ((registerUser email name).run machine envs (.idle db)).2.db := congrArg Prod.snd hserve
    rw [hstate]
    by_cases hr : Registers db email name envs
    · obtain ⟨hrun, hbook⟩ := hreg hr
      rw [hrun, createBook_users hbook]
      simp [hr]
    · obtain ⟨_, hrun⟩ := hnot hr
      rw [hrun]
      simp [hr]
  · obtain ⟨hserve, hallowed⟩ := @serve_map db envs _ (handleFactoryReset book)
      fun _ => Response.done
    obtain ⟨hnot, hclears⟩ := handleFactoryReset_run (hallowed.symm.trans ha)
    have hstate : (serve (Event.request cfg book .factoryReset).call envs db).2 =
        ((handleFactoryReset book).run machine envs (.idle db)).2.db := congrArg Prod.snd hserve
    have hanswer : ((handleFactoryReset book).run machine envs (.idle db)).1.map
        (fun _ => Response.done) = .error e := (congrArg Prod.fst hserve).symm.trans he
    rw [hstate]
    by_cases hc : Clears db book envs
    · obtain ⟨hrun, hseed⟩ := hclears hc
      rw [hrun] at hanswer ⊢
      cases hr : (seedUserBook book).run machine (fun n => envs (n + 7))
          (.idle (db.clearBook book)) with
      | mk r t =>
        rw [hr] at hanswer
        cases r with
        | ok _ => exact absurd hanswer (by simp [Except.map])
        | error e' =>
          rw [seedUserBook_error hr hseed]
          simp [hc]
    · obtain ⟨_, hrun⟩ := hnot hc
      rw [hrun]
      simp [hc]

/-- The environment `calm n`, where the operation `k` fails. -/
def interrupted (n k : Nat) (i : Nat) : Env := { calm n i with fail := i == k }

/-- The registered user has a book with a root; a registration whose `INSERT INTO users` fails
leaves no user; a reset whose commit fails leaves the book. -/
theorem founding_atomic_registered :
    registered.Housed ∧
    (serve (Event.signUp "ana@example.org" "Ana").call (interrupted 1 1) Db.empty).2.users = [] ∧
    (serve (Event.request plainConfig 3 .factoryReset).call (interrupted 50 5) registered).2 =
      registered :=
  ⟨(founding_atomic_iff registered).2.2 (registered_runs fun _ _ _ _ => rfl),
    ((founding_atomic_iff Db.empty).1 "ana@example.org" "Ana" (interrupted 1 1)
      (.wrapped "create user" .failed) (by decide +kernel) (by decide +kernel)).mpr
      (by decide +kernel),
    ((founding_atomic_iff registered).2.1 plainConfig 3 (interrupted 50 5)
      (.wrapped "failed to commit transaction" .failed) (by decide +kernel)
      (by decide +kernel)).mpr (.inl (by decide +kernel))⟩

/-- A registration whose `INSERT INTO books` fails leaves a user without a book; a reset whose
seeding does not begin leaves an empty book without a root. -/
theorem founding_torn :
    (∃ (email name : String) (envs : Nat → Env) (e : Err),
      mayServe (Event.signUp email name).call envs Db.empty = true ∧
      (serve (Event.signUp email name).call envs Db.empty).1 = .error e ∧
      (serve (Event.signUp email name).call envs Db.empty).2.users ≠ [] ∧
      (serve (Event.signUp email name).call envs Db.empty).2.books = []) ∧
    ∃ (envs : Nat → Env) (e : Err),
      mayServe (Event.request plainConfig 3 .factoryReset).call envs registered = true ∧
      (serve (Event.request plainConfig 3 .factoryReset).call envs registered).1 = .error e ∧
      (serve (Event.request plainConfig 3 .factoryReset).call envs registered).2 ≠ registered ∧
      (serve (Event.request plainConfig 3 .factoryReset).call envs registered).2.books =
        [⟨3, none, 2⟩] :=
  ⟨⟨"ana@example.org", "Ana", interrupted 1 2, .wrapped "create book" .failed, by decide +kernel,
      by decide +kernel, by decide +kernel, by decide +kernel⟩,
    interrupted 50 7, .wrapped "begin seed user book" .failed, by decide +kernel,
      by decide +kernel, by decide +kernel, by decide +kernel⟩

end Antimoney
