import Antimoney.Ledger.Import
import Antimoney.Lib.Steps

/-!
# Seeding and clearing a book, run by run

How far `SeedUserBook` and the first transaction of a factory reset get on a given stream.

* `seedUserBook_run`, `seedUserBook_error`: seeding gives the book its root, unless one of its
  operations fails; then it leaves the state.
* **`clearing_run`**: the first transaction of a reset clears the book if none of its operations
  fails and no row outside the book refers to an account of the book; else it leaves the state.
-/

namespace Antimoney

open Antimoney.Lib Prog

/-- The statement does not fail. -/
def Env.up (env : Env) : Bool := !env.fail

theorem Env.down_of_up (env : Env) (h : env.up = true) : machine.down env = none := by
  have hf : env.fail = false := by simpa [Env.up] using h
  simp [machine, hf]

/-! ## Seeding -/

/-- The users and books are the same, and no account is gone. -/
structure Db.Gained (v w : Db) : Prop where
  users : w.users = v.users
  books : w.books = v.books
  accounts : ∀ g, v.hasAccount g = true → w.hasAccount g = true

theorem Db.Gained.refl (v : Db) : v.Gained v := ⟨rfl, rfl, fun _ h => h⟩

theorem Db.Gained.trans {v w x : Db} (h : v.Gained w) (h' : w.Gained x) : v.Gained x :=
  ⟨h'.users.trans h.users, h'.books.trans h.books, fun g hg => h'.accounts g (h.accounts g hg)⟩

theorem Db.Gained.hasBook {v w : Db} (h : v.Gained w) (book : Guid) :
    w.hasBook book = v.hasBook book := by
  unfold Db.hasBook
  rw [h.books]

/-- The texts of the definition fit their columns. -/
def AcctDef.fits (d : AcctDef) : Bool := decide (d.name.length ≤ 255) && decide (d.atype.length ≤ 32)

theorem seedDefs_fit : ∀ l ∈ seedDefs, l.1.fits = true ∧ ∀ d ∈ l.2, d.fits = true := by decide

section Seeding

variable {book : Guid} {v : Db} {text : String}

theorem insertSeedAccount_passes {d : AcctDef} {parent : Option Guid} {ph : Bool}
    (hd : d.fits = true) (hb : v.hasBook book = true) (hp : v.refOk parent = true) :
    Passes machine Env.up 1 v (fun g w => v.Gained w ∧ w.hasAccount g = true)
      (exec text (insertSeedAccountStmt book d parent ph)) := by
  refine passes_sql fun env hup ha => ?_
  have hf : env.fail = false := by simpa [Env.up] using hup
  have hnew : v.hasAccount env.guid = false := by
    have hun : v.unused env.guid = true := ha
    simp only [Db.unused, Bool.and_eq_true, List.all_eq_true] at hun
    simp only [Db.hasAccount, List.any_eq_false]
    exact fun a h => by simpa using hun.1.1.1.1.1.2 a h
  have hfit : (decide (d.name.length ≤ 255) && decide (d.atype.length ≤ 32)) = true := hd
  let row : Account :=
    { guid := env.guid, name := d.name, accountType := d.atype, parentGuid := parent,
      bookGuid := book, placeholder := ph, description := d.description, plaid := none,
      version := 1, createdAt := env.now, updatedAt := env.now }
  have hins : v.insertAccount row = .ok { v with accounts := v.accounts ++ [row] } := by
    simp only [Db.insertAccount, row, hfit, hnew, hb, hp, require]
    rfl
  refine ⟨env.guid, { v with accounts := v.accounts ++ [row] }, ?_, ⟨rfl, rfl, ?_⟩, ?_⟩
  · change (if env.fail then Except.error SqlErr.failed else
      v.insertAccount row >>= fun db' => pure (env.guid, db')) = _
    rw [hf, hins]
    rfl
  · intro g hg
    simp only [Db.hasAccount, List.any_append, Bool.or_eq_true]
    exact .inl hg
  · simp [Db.hasAccount, row]

theorem insertSeedAccounts_passes {parent : Guid} (ds : List AcctDef)
    (hd : ∀ d ∈ ds, d.fits = true) (hb : v.hasBook book = true)
    (hp : v.hasAccount parent = true) :
    Passes machine Env.up ds.length v (fun _ w => v.Gained w)
      (insertSeedAccounts book parent ds) := by
  induction ds generalizing v with
  | nil => exact passes_ret (.refl v)
  | cons d ds ih =>
    rw [List.length_cons, Nat.add_comm]
    refine passes_bind (insertSeedAccount_passes (hd d List.mem_cons_self) hb (by simpa [Db.refOk]))
      fun g w h => ?_
    have hw := h.1
    have hrest := ih (v := w) (fun d' h => hd d' (.tail _ h)) (by rw [hw.hasBook, hb])
      (hw.accounts _ hp)
    exact hrest.mono fun _ x hx => hw.trans hx

theorem insertTopAccounts_passes {root : Guid} (ds : List AcctDef)
    (hd : ∀ d ∈ ds, d.fits = true) (hb : v.hasBook book = true) (hp : v.hasAccount root = true) :
    Passes machine Env.up ds.length v
      (fun gs w => v.Gained w ∧ gs.length = ds.length ∧ ∀ g ∈ gs, w.hasAccount g = true)
      (insertTopAccounts book root ds) := by
  induction ds generalizing v with
  | nil => exact passes_ret ⟨.refl v, rfl, fun _ h => absurd h (by simp)⟩
  | cons d ds ih =>
    have hn : (d :: ds).length = 1 + ds.length := by rw [List.length_cons, Nat.add_comm]
    rw [hn]
    refine passes_bind (insertSeedAccount_passes (hd d List.mem_cons_self) hb (by simpa [Db.refOk]))
      fun g w h => ?_
    obtain ⟨hw, hg⟩ := h
    have hrest := ih (v := w) (fun d' h => hd d' (.tail _ h)) (by rw [hw.hasBook, hb])
      (hw.accounts _ hp)
    refine passes_bind (n := 0) hrest fun gs x h => ?_
    obtain ⟨hx, hlen, hgs⟩ := h
    refine passes_ret ⟨hw.trans hx, by rw [List.length_cons, hlen, Nat.add_comm], fun g' hg' => ?_⟩
    rcases List.mem_cons.mp hg' with rfl | hg'
    · exact hx.accounts _ hg
    · exact hgs g' hg'

theorem insertSubAccounts_passes (ls : List (Guid × List AcctDef))
    (hd : ∀ l ∈ ls, ∀ d ∈ l.2, d.fits = true) (hb : v.hasBook book = true)
    (hp : ∀ l ∈ ls, v.hasAccount l.1 = true) :
    Passes machine Env.up (ls.map (·.2.length)).sum v (fun _ w => v.Gained w)
      (insertSubAccounts book ls) := by
  induction ls generalizing v with
  | nil => exact passes_ret (.refl v)
  | cons l ls ih =>
    rw [List.map_cons, List.sum_cons]
    refine passes_bind (insertSeedAccounts_passes l.2 (hd l List.mem_cons_self) hb
      (hp l List.mem_cons_self)) fun _ w hw => ?_
    have hrest := ih (v := w) (fun l' h => hd l' (.tail _ h)) (by rw [hw.hasBook, hb])
      fun l' h => hw.accounts _ (hp l' (.tail _ h))
    exact hrest.mono fun _ x hx => hw.trans hx

/-- The five accounts at the top. -/
theorem seedTops_passes {root : Guid} (hb : v.hasBook book = true)
    (hr : v.hasAccount root = true) :
    Passes machine Env.up 5 v
      (fun gs w => v.Gained w ∧ gs.length = 5 ∧ ∀ g ∈ gs, w.hasAccount g = true)
      (insertTopAccounts book root (seedDefs.map (·.1))) := by
  have hlen : (seedDefs.map (·.1)).length = 5 := rfl
  have htops := insertTopAccounts_passes (seedDefs.map (·.1)) (fun d hd => ?_) hb hr
  · rw [hlen] at htops
    exact htops
  · obtain ⟨l, hl, rfl⟩ := List.mem_map.mp hd
    exact (seedDefs_fit l hl).1

/-- The thirteen below them. -/
theorem seedSubs_passes {tops : List Guid} (hb : v.hasBook book = true) (hlen : tops.length = 5)
    (htops : ∀ g ∈ tops, v.hasAccount g = true) :
    Passes machine Env.up 13 v (fun _ w => v.Gained w)
      (insertSubAccounts book (tops.zip (seedDefs.map (·.2)))) := by
  have hsnd : (tops.zip (seedDefs.map (·.2))).map Prod.snd = seedDefs.map (·.2) := by
    refine List.map_snd_zip ?_
    rw [hlen]
    decide
  have hsum : ((tops.zip (seedDefs.map (·.2))).map (·.2.length)).sum = 13 := by
    have hmap : (tops.zip (seedDefs.map (·.2))).map (·.2.length) =
        ((tops.zip (seedDefs.map (·.2))).map Prod.snd).map List.length := by
      rw [List.map_map]
      rfl
    rw [hmap, hsnd]
    rfl
  have hsubs := insertSubAccounts_passes (tops.zip (seedDefs.map (·.2))) (fun l hl d hd => ?_) hb
    fun l hl => htops _ (List.of_mem_zip hl).1
  · rw [hsum] at hsubs
    exact hsubs
  · obtain ⟨l', hl', he⟩ := List.mem_map.mp (List.of_mem_zip hl).2
    exact (seedDefs_fit l' hl').2 d (he ▸ hd)

/-- The root of the book is `root`. -/
def Db.rootBook (db : Db) (book : Guid) (root : Option Guid) : List Book :=
  updateWhere (·.guid == book) (fun b => { b with rootAccountGuid := root }) db.books

theorem setBookRoot_passes {root : Option Guid} (hr : v.refOk root = true) :
    Passes machine Env.up 1 v (fun _ w => w = { v with books := v.rootBook book root })
      (exec text (setBookRoot book root)) := by
  refine passes_sql fun env hup _ => ⟨(), _, ?_, rfl⟩
  have hf : env.fail = false := by simpa [Env.up] using hup
  change (if env.fail then Except.error SqlErr.failed else
    require (!v.hasBook book || v.refOk root) .foreignKey >>= fun _ =>
      pure ((), { v with books := v.rootBook book root })) = _
  rw [hf, hr, Bool.or_true]
  rfl

/-- The transaction of `SeedUserBook`, up to its commit. -/
def seeding (book : Guid) : Call Unit := do
  let root ← exec "insert root" (insertSeedAccountStmt book
    ⟨"Root Account", "ROOT", "Root of the account tree"⟩ none true)
  exec "update book root" (setBookRoot book (some root))
  let tops ← insertTopAccounts book root (seedDefs.map (·.1))
  insertSubAccounts book (tops.zip (seedDefs.map (·.2)))

theorem seedUserBook_eq (book : Guid) : seedUserBook book =
    inTx "begin seed user book"
      ((seeding book).bind fun _ => commitTx "commit seed user book") := by
  simp only [seedUserBook, seeding, bind_eq, Prog.bind_assoc]

theorem seeding_body (book : Guid) : (seeding book).Body := by
  have hsubs : ∀ (parent : Guid) (ds : List AcctDef), (insertSeedAccounts book parent ds).Body := by
    intro parent ds
    induction ds with
    | nil => trivial
    | cons d ds ih => exact body_sql fun _ => ih
  have htops : ∀ (root : Guid) (ds : List AcctDef), (insertTopAccounts book root ds).Body := by
    intro root ds
    induction ds with
    | nil => trivial
    | cons d ds ih => exact body_sql fun _ => body_bind ih fun _ => trivial
  refine body_sql fun root => body_sql fun _ => body_bind (htops _ _) fun tops => ?_
  induction tops.zip (seedDefs.map (·.2)) with
  | nil => trivial
  | cons l ls ih => exact body_bind (hsubs _ _) fun _ => ih

/-- Seeding that fails leaves the state. -/
theorem seedUserBook_error {envs : Nat → Env} {e : Err} {t : Solo SqlErr Db}
    (h : (seedUserBook book).run machine envs (.idle v) = (.error e, t))
    (ha : (seedUserBook book).runAllowed machine envs (.idle v) = true) : t = .idle v := by
  rw [seedUserBook_eq] at h ha
  exact inTx_error (seeding_body book) h ha

/-- **Seeding**, in twenty-two operations and a rollback that does nothing. -/
theorem seedUserBook_run {envs : Nat → Env} (hb : v.hasBook book = true)
    (hup : ∀ k < 22, (envs k).up = true)
    (ha : (seedUserBook book).runAllowed machine envs (.idle v) = true) :
    ∃ w root, (seedUserBook book).run machine envs (.idle v) = (.ok (), .idle w) ∧
      w.users = v.users ∧ w.books = v.rootBook book (some root) := by
  have hbody : Passes machine Env.up (1 + (1 + (5 + 13))) v
      (fun _ w => ∃ root, w.users = v.users ∧ w.books = v.rootBook book (some root))
      (seeding book) := by
    refine passes_bind (insertSeedAccount_passes (by decide) hb rfl) fun root w h => ?_
    obtain ⟨hw, hroot⟩ := h
    refine passes_bind (setBookRoot_passes (by simpa [Db.refOk] using hroot)) fun _ x hx => ?_
    have hxb : x.hasBook book = true := by
      have hsame : ∀ b : Book, { b with rootAccountGuid := some root }.guid = b.guid := fun _ => rfl
      have hkeep : (w.rootBook book (some root)).map (·.guid) = w.books.map (·.guid) :=
        map_updateWhere hsame _
      have hany : ∀ bs : List Book, bs.any (·.guid == book) = (bs.map (·.guid)).any (· == book) :=
        fun bs => by rw [List.any_map]; rfl
      rw [← hb, ← hw.hasBook book, hx, Db.hasBook, Db.hasBook, hany, hany, hkeep]
    have hxr : x.hasAccount root = true := by rw [hx]; exact hroot
    refine passes_bind (seedTops_passes hxb hxr) fun tops y h => ?_
    obtain ⟨hy, hlen, hacc⟩ := h
    have hpass : Passes machine Env.up 13 y (fun _ z => y.Gained z)
        (insertSubAccounts book (tops.zip (seedDefs.map (·.2)))) :=
      seedSubs_passes (by rw [hy.hasBook, hxb]) hlen hacc
    refine hpass.mono fun _ z hz => ⟨root, ?_, ?_⟩
    · rw [hz.users, hy.users, hx]
      exact hw.users
    · rw [hz.books, hy.books, hx]
      exact congrArg _ hw.books
  rw [seedUserBook_eq] at ha ⊢
  obtain ⟨_, w, ⟨root, hw⟩, hrun, -⟩ := passes_tx hbody Env.down_of_up hup ha
  exact ⟨w, root, hrun, hw⟩

end Seeding

/-! ## Clearing -/

/-- The first transaction of a factory reset. -/
def clearing (book : Guid) : Call Unit :=
  inTx "failed to start transaction" do
    exec "failed to clear book root" (setBookRoot book none)
    exec "failed to clean up splits" (deleteBookSplits book)
    exec "failed to clean up transactions" (deleteBookTransactions book)
    exec "failed to clean up accounts" (deleteBookAccounts book)
    commitTx "failed to commit transaction"

theorem handleFactoryReset_eq (book : Guid) :
    handleFactoryReset book = (clearing book).bind fun _ => seedUserBook book := rfl

/-- No row that clearing the book leaves refers to an account of the book. -/
def Db.clearable (db : Db) (book : Guid) : Bool :=
  (db.clearBook book).accountRefsOk (db.accounts.filter (·.bookGuid == book))

section Clearing

variable {book : Guid} {v : Db}

/-- A transaction that clears the book: its statements succeed on the states they leave. -/
theorem clearBook_passes (h : v.clearable book = true) :
    Passes machine Env.up 4 v (fun _ w => w = v.clearBook book)
      ((exec "failed to clear book root" (setBookRoot book none)).bind fun _ =>
        (exec "failed to clean up splits" (deleteBookSplits book)).bind fun _ =>
        (exec "failed to clean up transactions" (deleteBookTransactions book)).bind fun _ =>
        exec "failed to clean up accounts" (deleteBookAccounts book)) := by
  refine passes_bind (m := 1) (n := 3) (setBookRoot_passes rfl) fun _ x hx => ?_
  refine passes_bind (m := 1) (n := 2)
    (P := fun _ y => y = { x with splits := deleteWhere (x.splitInBook book) x.splits })
    (passes_sql fun env hup _ => ⟨(), _, ?_, rfl⟩) fun _ y hy => ?_
  · have hf : env.fail = false := by simpa [Env.up] using hup
    change (if env.fail then Except.error SqlErr.failed else _) = _
    rw [hf]
    rfl
  refine passes_bind (m := 1) (n := 1)
    (P := fun _ z => z = (y.deleteTransactions (·.bookGuid == book)).2)
    (passes_sql fun env hup _ => ⟨(), _, ?_, rfl⟩) fun _ z hz => ?_
  · have hf : env.fail = false := by simpa [Env.up] using hup
    change (if env.fail then Except.error SqlErr.failed else _) = _
    rw [hf]
    rfl
  have hzv : ({ z with accounts := deleteWhere (·.bookGuid == book) z.accounts } : Db) =
      v.clearBook book := by
    rw [hz, hy, hx, Db.deleteTransactions_splits]
    rfl
  have hacc : z.accounts = v.accounts := by
    rw [hz, hy, hx]
    rfl
  refine passes_sql fun env hup _ => ⟨(), v.clearBook book, ?_, rfl⟩
  have hf : env.fail = false := by simpa [Env.up] using hup
  have hdel : z.deleteAccounts (·.bookGuid == book) =
      .ok (z.accounts.countP (·.bookGuid == book), v.clearBook book) := by
    have href : (v.clearBook book).accountRefsOk (z.accounts.filter (·.bookGuid == book)) = true :=
      hacc ▸ h
    have hdel' : z.deleteAccounts (·.bookGuid == book) =
        (require ((v.clearBook book).accountRefsOk (z.accounts.filter (·.bookGuid == book)))
          .foreignKey >>= fun _ => pure (z.accounts.countP (·.bookGuid == book),
            v.clearBook book)) := hzv ▸ rfl
    rw [hdel', href]
    rfl
  change (if env.fail then Except.error SqlErr.failed else
    (z.deleteAccounts (·.bookGuid == book)).map fun r => ((), r.2)) = _
  rw [hf, hdel]
  rfl

/-- A statement of a transaction that returns. -/
theorem exec_tx_ok {α β : Type} {envs : Nat → Env} {text : String} {q : Stmt β} {f : β → Call α}
    {s : Db} {a : α} {t : Solo SqlErr Db}
    (h : ((exec text q).bind f).run machine envs (.tx s v) = (.ok a, t)) :
    ∃ b w, q.sem (envs 0) v = .ok (b, w) ∧
      (f b).run machine (fun n => envs (n + 1)) (.tx s w) = (.ok a, t) := by
  cases hx : q.sem (envs 0) v with
  | error e =>
    have hx' : machine.exec q (envs 0) v = .error e := hx
    simp only [exec, sql, Prog.bind, run, soloStep, Solo.view_tx, hx'] at h
    exact absurd (congrArg Prod.fst h) (by simp)
  | ok r =>
    obtain ⟨b, w⟩ := r
    have hx' : machine.exec q (envs 0) v = .ok (b, w) := hx
    simp only [exec, sql, Prog.bind, run, soloStep, Solo.view_tx, hx', Solo.put_tx] at h
    exact ⟨b, w, rfl, h⟩

theorem up_of_ok {β : Type} {f : Except SqlErr β} {env : Env} {b : β}
    (h : (if env.fail then .error .failed else f) = .ok b) : env.up = true := by
  cases hf : env.fail with
  | true => exact absurd (hf ▸ h) (by simp)
  | false => simp [Env.up, hf]

/-- The first transaction of a reset meets no failure, and no foreign key stops it. -/
def Clears (db : Db) (book : Guid) (envs : Nat → Env) : Prop :=
  (∀ k < 6, (envs k).up = true) ∧ db.clearable book = true

instance (db : Db) (book : Guid) (envs : Nat → Env) : Decidable (Clears db book envs) :=
  inferInstanceAs (Decidable (_ ∧ _))

/-- A first transaction that commits met no failure. -/
theorem clears_of_ok {envs : Nat → Env} {t : Solo SqlErr Db}
    (h : (clearing book).run machine envs (.idle v) = (.ok (), t)) : Clears v book envs := by
  have hbegin : machine.down (envs 0) = none := by
    cases hd : machine.down (envs 0) with
    | none => rfl
    | some e =>
      simp only [clearing, inTx, Prog.inTx, run, soloStep, hd] at h
      exact absurd (congrArg Prod.fst h) (by simp)
  have hup₀ : (envs 0).up = true := by
    cases hf : (envs 0).fail with
    | true => exact absurd hbegin (by simp [machine, hf])
    | false => simp [Env.up, hf]
  have hbody := congrArg Prod.fst ((run_inTx hbegin).1.symm.trans h)
  obtain ⟨_, w₁, hx₁, h⟩ := exec_tx_ok (Prod.ext (show _ = Except.ok () from hbody) rfl)
  obtain ⟨_, w₂, hx₂, h⟩ := exec_tx_ok h
  obtain ⟨_, w₃, hx₃, h⟩ := exec_tx_ok h
  obtain ⟨_, w₄, hx₄, h⟩ := exec_tx_ok h
  have hup₅ : (envs 5).up = true := by
    cases hf : (envs 5).fail with
    | false => simp [Env.up, hf]
    | true =>
      have hd : machine.down (envs (0 + 1 + 1 + 1 + 1 + 1)) = some .failed := by simp [machine, hf]
      simp only [commitTx, commit, run, soloStep, hd] at h
      exact absurd (congrArg Prod.fst h) (by simp)
  refine ⟨fun k hk => ?_, ?_⟩
  · rcases k with _ | _ | _ | _ | _ | _ | k
    · exact hup₀
    · exact up_of_ok hx₁
    · exact up_of_ok hx₂
    · exact up_of_ok hx₃
    · exact up_of_ok hx₄
    · exact hup₅
    · omega
  · obtain ⟨-, hx₁⟩ := require_bind (ok_of_failing hx₁)
    obtain ⟨-, rfl⟩ := Prod.mk.inj (Except.ok.inj hx₁)
    obtain ⟨-, rfl⟩ := Prod.mk.inj (Except.ok.inj (ok_of_failing hx₂))
    obtain ⟨-, rfl⟩ := Prod.mk.inj (Except.ok.inj (ok_of_failing hx₃))
    obtain ⟨⟨n, db'⟩, hd, he⟩ := ok_map (ok_of_failing hx₄)
    obtain ⟨rfl, href, -⟩ := Db.deleteAccounts_ok hd
    rw [Db.deleteTransactions_splits] at href
    exact href

/-- **The first transaction of a reset**: it clears the book, or leaves everything. -/
theorem clearing_run {envs : Nat → Env}
    (ha : (clearing book).runAllowed machine envs (.idle v) = true) :
    (Clears v book envs →
      (clearing book).run machine envs (.idle v) = (.ok (), .idle (v.clearBook book)) ∧
        (clearing book).steps machine envs (.idle v) = 7) ∧
    (¬ Clears v book envs →
      ∃ e, (clearing book).run machine envs (.idle v) = (.error e, .idle v)) := by
  constructor
  · rintro ⟨hup, href⟩
    have hbody : clearing book = inTx "failed to start transaction"
        (((exec "failed to clear book root" (setBookRoot book none)).bind fun _ =>
          (exec "failed to clean up splits" (deleteBookSplits book)).bind fun _ =>
          (exec "failed to clean up transactions" (deleteBookTransactions book)).bind fun _ =>
          exec "failed to clean up accounts" (deleteBookAccounts book)).bind fun _ =>
            commitTx "failed to commit transaction") := by
      simp only [clearing, bind_eq, Prog.bind_assoc]
    rw [hbody] at ha ⊢
    obtain ⟨_, w, rfl, hrun, hlen⟩ := passes_tx (clearBook_passes href) Env.down_of_up hup ha
    exact ⟨hrun, hlen⟩
  · intro hnot
    have hswp : (clearing book).swp (machine.assuming fun _ _ _ => true) Duty.none
        (fun r t => r = .ok () ∨ ∃ e, r = .error e ∧ t = .idle v) (.idle v) := by
      refine swp_begin (fun e => .inr ⟨e, rfl, rfl⟩)
        (clearBook_swp (fun e t ht => .inr ⟨e, rfl, ht ▸ rfl⟩) ?_)
      exact swp_commit (fun _ _ => trivial) (fun _ => .inr ⟨_, rfl, rfl⟩) (.inl rfl)
    have ha' : (clearing book).runAllowed (machine.assuming fun _ _ _ => true) envs (.idle v) =
        true := runAllowed_assuming (fun _ _ _ => rfl) ha
    have hrun := run_of_swp hswp ha'
    rw [run_assuming] at hrun
    rcases hrun with hok | ⟨e, he, ht⟩
    · exact absurd (clears_of_ok (Prod.ext hok rfl)) hnot
    · exact ⟨e, Prod.ext he ht⟩

end Clearing

end Antimoney
