import Antimoney.Register.Entries

/-!
# What register requests answer

A register that is answered has the entries of the account's rows, in the order the environment of
its query ranks ties (`serve_register`). A page is answered whenever the database answers and the
register's arithmetic does not panic, with the entries of its window of rows (`serve_registerPage`):
the rows before it and its own are read by two queries, each with its own order of ties.
-/

namespace Antimoney

open Antimoney.Lib Antimoney.Gnc Prog

/-! ## A database that answers -/

/-- No statement fails, and no result is cut short. -/
structure Env.Answers (env : Env) : Prop where
  fail : env.fail = false
  cut : env.cut = none

/-- A calm database answers. -/
theorem calm_answers (n k : Nat) : (calm n k).Answers := ⟨rfl, rfl⟩

section Answers

variable {env : Env} {db : Db} {β : Type}

theorem Env.Answers.query (h : env.Answers) (f : Db → β) :
    (Stmt.query f).sem env db = .ok (f db, db) := by
  simp [Stmt.query, Stmt.sql, Stmt.mk', h.fail]

theorem Env.Answers.queryE (h : env.Answers) {f : Db → Except SqlErr β} {b : β}
    (hf : f db = .ok b) : (Stmt.queryE f).sem env db = .ok (b, db) := by
  simp [Stmt.queryE, Stmt.sql, Stmt.mk', h.fail, hf, Except.map]

theorem Env.Answers.rows (h : env.Answers) (f : Db → List β) :
    (Stmt.rows f).sem env db = .ok (f db, db) := by
  simp [Stmt.rows, Stmt.rowsE, Stmt.mk', h.fail, h.cut, Except.map]

theorem exec_yields {envs : Nat → Env} {text : String} {q : Stmt β} {P : Except Err β → Prop} {b : β}
    (h : q.sem (envs 0) db = .ok (b, db)) (hb : P (.ok b)) :
    (exec text q).Yields machine envs db P :=
  yields_sql h hb

end Answers

/-! ## The account and its rows -/

/-- The account of a book that a request names: its guid and type. -/
def Db.accountNamed (db : Db) (book : Guid) (id : GuidText) : Option (Guid × String) :=
  match id.parse with
  | .ok g => (db.accounts.find? fun a => a.guid == g && a.bookGuid == book).map
      fun a => (a.guid, a.accountType)
  | .error _ => none

/-- The rows of an account's register, ties by rank. -/
def Db.register (db : Db) (account : Guid) (ties : Guid → Nat) : List (Transaction × Split) :=
  (db.joinTxns fun _ s => s.accountGuid == account).insertionSort (registerLe ties)

/-- The rows the pages are taken from, ties by rank. -/
def Db.pagedRows (db : Db) (account book : Guid) (ties : Guid → Nat) :
    List (Transaction × Split) :=
  (db.registerRows account book).insertionSort (registerLe ties)

section Requests

variable {cfg : PlaidConfig} {book account : Guid} {id : GuidText} {ty : String} {db db' : Db}
  {envs : Nat → Env}

theorem accountNamed_ok {env : Env} {r : Guid × String} {v : Db}
    (h : (selectAccountType id book).sem env db = .ok (some r, v)) :
    db.accountNamed book id = some r ∧ v = db := by
  obtain ⟨h, rfl⟩ := Stmt.queryE_ok h
  obtain ⟨g, hg, h⟩ := ok_bind h
  refine ⟨?_, rfl⟩
  unfold Db.accountNamed
  rw [hg]
  exact Except.ok.inj h

theorem accountNamed_sem {env : Env} (ha : env.Answers) {r : Guid × String}
    (h : db.accountNamed book id = some r) :
    (selectAccountType id book).sem env db = .ok (some r, db) := by
  refine ha.queryE ?_
  unfold Db.accountNamed at h
  cases hg : id.parse with
  | error e =>
    rw [hg] at h
    exact absurd h (by simp)
  | ok g =>
    rw [hg] at h
    exact congrArg Except.ok h

theorem accountNamed_parse (h : db.accountNamed book id = some (account, ty)) :
    id.parse = .ok account := by
  unfold Db.accountNamed at h
  cases hg : id.parse with
  | error e =>
    rw [hg] at h
    exact absurd h (by simp)
  | ok g =>
    rw [hg] at h
    obtain ⟨a, ha, he⟩ := Option.map_eq_some_iff.mp h
    have hguid : a.guid = g ∧ a.bookGuid = book := by simpa using List.find?_some ha
    rw [← (Prod.mk.inj he).1, hguid.1]

theorem register_ok {env : Env} {rows : List (Transaction × Split)} {v : Db}
    (h : (selectRegister account).sem env db = .ok (rows, v)) :
    rows = db.register account env.ties ∧ v = db :=
  Stmt.query_ok (f := fun db => db.register account env.ties) h

/-! ## Transfer columns -/

/-- The entries of one query, each with the column of its own transaction. -/
theorem scan_transferred (entries : List RegisterEntry) :
    (entries.map fun e =>
      let info := ((db.transferRows (distinctTxns [] entries).contains account).foldl
        TransferScan.row ⟨fun _ => 0, fun _ => none⟩).info e.transactionGuid
      { e with transferAccount := info.1, transferAccountGuid := info.2 }) =
    entries.map (db.transferred account) := by
  refine List.map_congr_left fun e he => ?_
  have hmem : (distinctTxns [] entries).contains e.transactionGuid = true := by
    rw [List.contains_iff_mem, mem_distinctTxns]
    exact .inr (List.mem_map_of_mem he)
  unfold Db.transferred
  dsimp only
  rw [scan_filter e.transactionGuid _ ⟨fun _ => 0, fun _ => none⟩ ⟨fun _ => 0, fun _ => none⟩ rfl
    rfl, db.transferRows_filter hmem]

theorem fillTransferAccounts_yields (ha : ∀ n, (envs n).Answers) (entries : List RegisterEntry) :
    (fillTransferAccounts entries account).Yields machine envs db
      (· = .ok (entries.map (db.transferred account))) := by
  unfold fillTransferAccounts
  by_cases he : entries.isEmpty
  · rw [if_pos he, List.isEmpty_iff.mp he]
    exact yields_ret rfl
  · rw [if_neg he]
    have hrows : (selectTransfers (distinctTxns [] entries) account).sem (envs 0) db =
        .ok (db.transferRows (distinctTxns [] entries).contains account, db) :=
      (ha 0).query _
    refine yields_bind (exec_yields hrows (Eq.refl _)) ?_
    rintro k _ rfl
    exact yields_ret (congrArg _ (scan_transferred entries))

theorem fillTransferAccounts_ok {entries es : List RegisterEntry} {t : Solo SqlErr Db}
    (h : (fillTransferAccounts entries account).run machine envs (.idle db) = (.ok es, t)) :
    es = entries.map (db.transferred account) := by
  unfold fillTransferAccounts at h
  by_cases he : entries.isEmpty
  · rw [if_pos he] at h
    obtain rfl := Except.ok.inj (congrArg Prod.fst h)
    rw [List.isEmpty_iff.mp he]
    rfl
  · rw [if_neg he] at h
    obtain ⟨rows, v, hrows, h⟩ := exec_ok h
    obtain ⟨rfl, rfl⟩ := Stmt.query_ok hrows
    obtain rfl := Except.ok.inj (congrArg Prod.fst h)
    exact scan_transferred entries

/-! ## The whole register -/

/-- **A register that is answered.** -/
theorem serve_register {es : List RegisterEntry}
    (h : serve (Event.request cfg book (.register id)).call envs db = (.ok (.register es), db')) :
    ∃ account ty entries, db.accountNamed book id = some (account, ty) ∧
      registerEntries ty .zero (db.register account (envs 1).ties) = some entries ∧
      es = entries.map (db.transferred account) := by
  obtain ⟨t, h, -⟩ := serve_ok h
  change ((getAccountRegister book id).bind fun es => ret (Response.register es)).run machine envs
    (.idle db) = _ at h
  unfold getAccountRegister at h
  rw [bind_eq, bind_assoc] at h
  obtain ⟨found, v, hfound, h⟩ := exec_ok h
  cases found with
  | none => exact absurd (congrArg Prod.fst h) (by simp [Prog.run])
  | some r =>
    obtain ⟨hnamed, rfl⟩ := accountNamed_ok hfound
    obtain ⟨account, ty⟩ := r
    dsimp only at h
    rw [bind_eq, bind_assoc] at h
    obtain ⟨rows, v, hrows, h⟩ := exec_ok h
    obtain ⟨rfl, rfl⟩ := register_ok hrows
    cases hentries : registerEntries ty .zero (v.register account (envs 1).ties) with
    | none =>
      rw [hentries] at h
      exact absurd (congrArg Prod.fst h) (by simp [orPanic, Prog.run])
    | some entries =>
      rw [hentries] at h
      obtain ⟨filled, hfilled, hes⟩ := run_map_ok h
      obtain rfl := Response.register.inj hes
      have hfill : (fillTransferAccounts entries account).run machine (fun n => envs (n + 1 + 1))
          (.idle v) = (.ok filled, t) := hfilled
      exact ⟨account, ty, entries, hnamed, hentries, fillTransferAccounts_ok hfill⟩

/-! ## A page -/

/-- The page with these entries, from an offset on. -/
def registerPageAt (entries : List RegisterEntry) (offset total : Int) : RegisterPage :=
  let endOffset := if entries.isEmpty then offset else offset + entries.length - 1
  { entries := entries, hasBefore := decide (0 < offset),
    hasAfter := decide (endOffset < total - 1), firstOffset := offset, lastOffset := endOffset,
    totalCount := total }

/-- The entries of the rows from position `a` up to `b`, after the balance over the rows before. -/
def Db.pageEntries (db : Db) (account book : Guid) (ty : String) (a b : Nat)
    (before rows : Guid → Nat) : Option (List RegisterEntry) :=
  (priorBalance .zero ((db.pagedRows account book before).take a)).bind fun prior =>
    (registerEntries ty prior (slice (db.pagedRows account book rows) a b)).map
      (·.map (db.transferred account))

/-- A value or a panic, as an outcome. -/
def orPanicked {α : Type} (o : Option α) : Except Err α :=
  match o with
  | some a => .ok a
  | none => .error .panic

theorem orPanic_yields {α : Type} (o : Option α) :
    (orPanic o).Yields machine envs db (· = orPanicked o) := by
  cases o with
  | none => exact yields_fail rfl
  | some a => exact yields_ret rfl

variable {T : (Guid → Nat) → Prop}

theorem loadPrior_yields (ha : ∀ n, (envs n).Answers) (hT : ∀ n, T (envs n).ties) (a : Nat) :
    (loadPrior account book a).Yields machine envs db fun r => ∃ before, T before ∧
      r = orPanicked (priorBalance .zero ((db.pagedRows account book before).take a)) := by
  unfold loadPrior
  by_cases h0 : (0 : Int) < a
  · rw [if_pos h0]
    have hrows : (selectPrior account book (a : Int).toNat).sem (envs 0) db =
        .ok ((db.pagedRows account book (envs 0).ties).take a, db) :=
      (ha 0).rows fun db => (db.pagedRows account book (envs 0).ties).take a
    refine yields_bind (exec_yields hrows (Eq.refl _)) ?_
    rintro k _ rfl
    exact (orPanic_yields _).mono fun r hr => ⟨_, hT 0, hr⟩
  · rw [if_neg h0]
    obtain rfl : a = 0 := by omega
    exact yields_ret ⟨_, hT 0, rfl⟩

/-- **What a page request answers** when the database answers, under whatever orders of ties its two
queries are run. -/
theorem serve_registerPage {cursor : PageCursor} {direction : Direction} {limit : Int}
    (hlimit : 0 < limit) (ha : ∀ n, (envs n).Answers) (hT : ∀ n, T (envs n).ties)
    (hn : db.accountNamed book id = some (account, ty)) {a n : Nat} (hn0 : 0 < n)
    (hw : ∀ envs : Nat → Env, (∀ n, (envs n).Answers) →
      (pageWindow account book cursor direction limit).Yields machine envs db
        (· = .ok ((a : Int), (n : Int)))) :
    ∃ before rows, T before ∧ T rows ∧
      serve (Event.request cfg book (.registerPage id cursor direction limit)).call envs db =
        ((orPanicked (db.pageEntries account book ty a (a + n) before rows)).map fun es =>
          .registerPage (registerPageAt es a (db.registerRows account book).length), db) := by
  have hy : (getAccountRegisterPaged book id cursor direction limit).Yields machine envs db
      fun r => ∃ before rows, T before ∧ T rows ∧
        r = (orPanicked (db.pageEntries account book ty a (a + n) before rows)).map fun es =>
          registerPageAt es a (db.registerRows account book).length := by
    unfold getAccountRegisterPaged
    refine yields_bind (exec_yields (accountNamed_sem (ha 0) hn) (Eq.refl _)) ?_
    rintro k₁ _ rfl
    dsimp only [Prog.ofExcept, ret_bind]
    have hcount : (countRegister account book fun _ => true).sem (envs (0 + k₁)) db =
        .ok ((db.registerRows account book).countP fun _ => true, db) :=
      (ha _).query _
    refine yields_bind (exec_yields hcount (Eq.refl _)) ?_
    rintro k₂ _ rfl
    dsimp only [Prog.ofExcept, ret_bind]
    refine yields_bind (hw _ fun n => ha _) ?_
    rintro k₃ _ rfl
    have hpos : ¬ (n : Int) ≤ 0 := by omega
    dsimp only [Prog.ofExcept, ret_bind]
    rw [if_neg hpos, List.countP_true]
    refine yields_bind (loadPrior_yields (T := T) (fun n => ha _) (fun n => hT _) a) ?_
    rintro k₄ _ ⟨before, hbefore, rfl⟩
    cases hprior : priorBalance .zero ((db.pagedRows account book before).take a) with
    | none =>
      refine yields_fail ⟨before, before, hbefore, hbefore, ?_⟩
      unfold Db.pageEntries
      rw [hprior]
      rfl
    | some prior =>
      let after := fun n => envs (n + k₄ + k₃ + k₂ + k₁)
      have hrows : (selectPage account book n a).sem (after 0) db =
          .ok (slice (db.pagedRows account book (after 0).ties) a (a + n), db) := by
        refine (ha _).queryE (f := fun db => do
          require (decide (0 ≤ (a : Int))) .badInput
          return ((db.pagedRows account book (after 0).ties).drop (a : Int).toNat).take
            (n : Int).toNat) ?_
        simp [require, slice, Bind.bind, Except.bind, pure, Except.pure]
      dsimp only [orPanicked, Prog.ofExcept, ret_bind]
      refine yields_bind (exec_yields hrows (Eq.refl _)) ?_
      rintro k₅ _ rfl
      have hpage : db.pageEntries account book ty a (a + n) before (after 0).ties =
          (registerEntries ty prior
            (slice (db.pagedRows account book (after 0).ties) a (a + n))).map
              (·.map (db.transferred account)) := by
        unfold Db.pageEntries
        rw [hprior, Option.bind_some]
      dsimp only [Prog.ofExcept, ret_bind]
      refine yields_bind (orPanic_yields _) ?_
      rintro k₆ _ rfl
      cases hentries : registerEntries ty prior
          (slice (db.pagedRows account book (after 0).ties) a (a + n)) with
      | none =>
        refine yields_fail ⟨before, (after 0).ties, hbefore, hT _, ?_⟩
        rw [hpage, hentries]
        rfl
      | some entries =>
        dsimp only [orPanicked, Prog.ofExcept, ret_bind]
        refine yields_bind (fillTransferAccounts_yields (fun n => ha _) entries) ?_
        rintro k₇ _ rfl
        refine yields_ret ⟨before, (after 0).ties, hbefore, hT _, ?_⟩
        rw [hpage, hentries]
        rfl
  have hserved : (Event.request cfg book (.registerPage id cursor direction limit)).call.Yields
      machine envs db fun r => ∃ before rows, T before ∧ T rows ∧
        r = (orPanicked (db.pageEntries account book ty a (a + n) before rows)).map fun es =>
          .registerPage (registerPageAt es a (db.registerRows account book).length) := by
    simp only [Event.call, handle, if_pos hlimit]
    refine yields_bind hy ?_
    rintro k _ ⟨before, rows, hbefore, hrows, rfl⟩
    cases hentries : db.pageEntries account book ty a (a + n) before rows with
    | none => exact yields_fail ⟨before, rows, hbefore, hrows, by rw [hentries]; rfl⟩
    | some es => exact yields_ret ⟨before, rows, hbefore, hrows, by rw [hentries]; rfl⟩
  obtain ⟨_, ⟨before, rows, hbefore, hrows, rfl⟩, hrun⟩ := hserved.run
  refine ⟨before, rows, hbefore, hrows, ?_⟩
  unfold serve
  rw [hrun]
  rfl

/-- The rows before a day, as the page around it counts them. -/
def Db.countBefore (db : Db) (account book : Guid) (day : Day) : Nat :=
  (db.registerRows account book).countP fun r =>
    decide (r.1.postDate < (PageCursor.date day).timestamp)

theorem around_yields (ha : ∀ n, (envs n).Answers) {day : Day} {limit : Int} (h0 : 0 < limit)
    (hlimit : limit * 3 < 2 ^ 63) :
    (pageWindow account book (.date day) .around limit).Yields machine envs db
      (· = .ok (max ((db.countBefore account book day : Int) - limit * 3 / 4) 0, limit)) := by
  unfold pageWindow
  have hcount : (countRegister account book fun t =>
      decide (t < (PageCursor.date day).timestamp)).sem (envs 0) db =
        .ok (db.countBefore account book day, db) :=
    (ha 0).query _
  refine yields_bind (exec_yields hcount (Eq.refl _)) ?_
  rintro k _ rfl
  refine yields_ret ?_
  have hmod : (limit * 3).bmod (2 ^ 64) = limit * 3 := by
    apply Int.bmod_eq_of_le <;> omega
  rw [hmod, Int.tdiv_eq_ediv_of_nonneg (by omega)]

end Requests

end Antimoney
