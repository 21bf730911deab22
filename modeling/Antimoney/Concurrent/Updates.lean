import Antimoney.Concurrent

/-!
# Updates of transactions

`UpdateTransaction` reads the version of the transaction, raises it, and never compares it: its
request carries no version. An update is applied at the version its client read as long as that
version is current when the update arrives and no other update of the transaction is under way.

* `Applied`: what a step that applies an update found.
* **`updateTransaction_current`**: over every interleaving of readers and updaters.
-/

namespace Antimoney

open Antimoney.Lib Prog

/-! ## States and calls -/

/-- The transaction of the book is at the version. -/
def Db.AtVersion (db : Db) (book g : Guid) (version : Nat) : Prop :=
  ∃ t ∈ db.transactions, t.guid = g ∧ t.bookGuid = book ∧ t.version = version

/-- The call updates the transaction of the book. -/
def Lib.Arrival.Updates (r : Arrival Event) (book g : Guid) : Prop :=
  ∃ cfg tx req, r.req = .request cfg book (.updateTransaction tx req) ∧ tx.parse = .ok g

/-- The call has not committed an update. -/
def Unapplied (id : Nat) (s : Logged Db Note) : Prop :=
  ∀ n, (id, n) ∈ s.log → ∀ book g, n.tag ≠ .updateTransaction book g

/-- The step applies the update of the call, to a transaction at the version its client read. -/
structure Applied (seen : Nat → Nat) (r : Arrival Event) (x y : Logged Db Note) : Prop where
  current : ∀ book g, r.Updates book g → x.data.AtVersion book g (seen r.id)
  logged : ∃ n book g, (r.id, n) ∈ y.log ∧ n.tag = .updateTransaction book g

/-- Transactions that satisfy `P` stay as they are. -/
def LeavesTxns (P : Guid → Guid → Prop) (x y : Db) : Prop :=
  ∀ t ∈ x.transactions, P t.bookGuid t.guid → t ∈ y.transactions

variable {P P' : Guid → Guid → Prop} {x y z : Db}

theorem leavesTxns_of_eq (h : y.transactions = x.transactions) : LeavesTxns P x y := by
  intro t ht _
  rw [h]
  exact ht

theorem LeavesTxns.trans (h : LeavesTxns P x y) (h' : LeavesTxns P y z) : LeavesTxns P x z :=
  fun t ht hp => h' t (h t ht hp) hp

theorem LeavesTxns.mono (hP : ∀ b g, P' b g → P b g) (h : LeavesTxns P x y) : LeavesTxns P' x y :=
  fun t ht hp => h t ht (hP _ _ hp)

theorem Db.AtVersion.leaves {book g : Guid} {v : Nat} (h : x.AtVersion book g v)
    (hl : LeavesTxns P x y) (hp : P book g) : y.AtVersion book g v := by
  obtain ⟨t, ht, hg, hb, hv⟩ := h
  exact ⟨t, hl t ht (by rw [hb, hg]; exact hp), hg, hb, hv⟩

/-! ## The contract -/

/-- The contract of a call: the others leave the transaction it updates alone. -/
def updateContract (seen : Nat → Nat) (r : Arrival Event) :
    Contract Stmt SqlErr (Nat × Env) (Logged Db Note) where
  inv _ := True
  rely x y := LeavesTxns r.Updates x.data y.data ∧ Logged.Adds (fun e => e.1 ≠ r.id) x y
  guar _ x y := LeavesTxns (fun b g => ¬ r.Updates b g) x.data y.data ∧
    Logged.Adds (fun e => e.1 = r.id) x y ∧ (y.data = x.data ∨ Applied seen r x y)
  ok _ env _ := env.1 = r.id
  rely_refl s := ⟨leavesTxns_of_eq rfl, .refl _ s⟩
  rely_trans h h' := ⟨h.1.trans h'.1, h.2.trans h'.2⟩
  guar_refl _ s _ := ⟨leavesTxns_of_eq rfl, .refl _ s, .inl rfl⟩

variable {seen : Nat → Nat} {r : Arrival Event} {s s' : Logged Db Note}

theorem Unapplied.adds {id : Nat} (h : Unapplied id s)
    (ha : Logged.Adds (fun e => e.1 = id → ∀ b g, e.2.tag ≠ .updateTransaction b g) s s') :
    Unapplied id s' := by
  intro n hn
  rcases ha.mem hn with h' | hc
  · exact h n h'
  · exact hc rfl

theorem Looks.unapplied {id : Nat} (h : Looks id (· = .other) s s') (hs : Unapplied id s) :
    Unapplied id s' := by
  refine hs.adds (h.log.mono fun e he _ b g ht => ?_)
  rw [he.2] at ht
  exact absurd ht (by simp)

/-- A read that carries no tag. -/
def Untagged {β : Type} (q : Stmt β) : Prop := q.Reads ∧ q.tag = .other

theorem frame_untagged :
    Frame observed (updateContract seen r) Untagged (Looks r.id (· = .other)) := by
  refine frame_looks (c := (· = .other)) (fun _ _ _ h => h) fun o x y _ h => ?_
  exact ⟨trivial, leavesTxns_of_eq (by rw [h.data]), h.log.mono fun _ h => h.1, .inl h.data⟩

/-- What an update knows until it commits. -/
structure Pristine (seen : Nat → Nat) (r : Arrival Event) (s : Logged Db Note) : Prop where
  current : ∀ book g, r.Updates book g → s.data.AtVersion book g (seen r.id)
  unapplied : Unapplied r.id s

theorem stable_pristine : (updateContract seen r).Stable (Pristine seen r) := by
  intro x y h hr _
  refine ⟨fun book g hu => (h.current book g hu).leaves hr.1 hu, h.unapplied.adds ?_⟩
  exact hr.2.mono fun _ hne he => absurd he hne

theorem Pristine.looks (h : Pristine seen r s) (hl : Looks r.id (· = .other) s s') :
    Pristine seen r s' :=
  ⟨fun book g hu => by rw [hl.data]; exact h.current book g hu, hl.unapplied h.unapplied⟩

/-! ## `UpdateTransaction` -/

theorem checkAccounts_body (book : Guid) (splits : List CreateSplitRequest) :
    (checkAccounts book splits).Body := by
  induction splits with
  | nil => trivial
  | cons sp rest ih =>
    refine body_ask fun r => ?_
    rcases r with e | _ | _ | _
    · trivial
    · trivial
    · exact ih
    · trivial

theorem insertSplits_body (tx : Guid) (now : Time) (state : CreateSplitRequest → String) (i : Nat)
    (splits : List CreateSplitRequest) : (insertSplits tx now state i splits).Body := by
  induction splits generalizing i with
  | nil => trivial
  | cons sp rest ih =>
    refine body_sql fun g => body_ask fun r => ?_
    cases r with
    | error e => trivial
    | ok _ => exact body_bind (ih _) fun _ => trivial

/-- The transaction of an update before its `UPDATE`. -/
structure Preparing (id : Nat) (x y : Logged Db Note) : Prop where
  same : y.data.transactions = x.data.transactions
  log : Logged.Adds (fun e => e.1 = id) x y

theorem Preparing.refl (id : Nat) (x : Logged Db Note) : Preparing id x x := ⟨rfl, .refl _ x⟩

/-- A read before the `UPDATE`. -/
theorem Preparing.next {β : Type} {q : Stmt β} {id : Nat} {x y z v : Logged Db Note}
    {env : Nat × Env} (h : Preparing id x y) (hq : q.Reads) (hid : env.1 = id)
    (hw : observed.write q env v y = .ok z) : Preparing id x z := by
  obtain ⟨hw, hl⟩ := Machine.logged_write hw
  refine ⟨by rw [hq.write hw]; exact h.same, h.log.trans ⟨[_], hl, fun e he => ?_⟩⟩
  rw [List.mem_singleton.mp he]
  exact hid

/-- And after it. -/
structure Updating (r : Arrival Event) (x y : Logged Db Note) : Prop where
  leaves : LeavesTxns (fun b g => ¬ r.Updates b g) x.data y.data
  log : Logged.Adds (fun e => e.1 = r.id) x y
  logged : ∃ n book g, (r.id, n) ∈ y.log ∧ n.tag = .updateTransaction book g

theorem Updating.applied {x y : Logged Db Note} (h : Updating r x y) (hx : Pristine seen r x) :
    (updateContract seen r).guar (.commit : Op Stmt Unit) x y :=
  ⟨h.leaves, h.log, .inr ⟨hx.current, h.logged⟩⟩

/-- A statement of the call after the `UPDATE`, which leaves transactions alone. -/
theorem Updating.next {x y z : Logged Db Note} {env : Nat × Env} {n : Note} (h : Updating r x y)
    (hl : z.log = (env.1, n) :: y.log) (hid : env.1 = r.id)
    (ht : z.data.transactions = y.data.transactions) : Updating r x z := by
  refine ⟨h.leaves.trans (leavesTxns_of_eq ht), h.log.trans ⟨[_], hl, fun e he => ?_⟩, ?_⟩
  · rw [List.mem_singleton.mp he]
    exact hid
  · obtain ⟨n, book, g, hn, htag⟩ := h.logged
    exact ⟨n, book, g, by rw [hl]; exact .tail _ hn, htag⟩

/-- A statement that leaves the transactions alone. -/
def KeepsTransactions {β : Type} (q : Stmt β) : Prop :=
  ∀ env v y z, machine.write q env v y = .ok z → z.transactions = y.transactions

theorem keepsTransactions_uuidNew : KeepsTransactions uuidNew :=
  fun _ v _ _ h => by rw [(Stmt.reads_askEnv _).write (v := v) h]

theorem keepsTransactions_insertSplit (account : GuidText) (sp : Split) :
    KeepsTransactions (insertSplitStmt account sp) := by
  intro env v y z h
  obtain ⟨g, rfl⟩ := insertSplitStmt_ok (v := v) h
  rfl

theorem selectVersion_ok {tx : GuidText} {book : Guid} {found : Option (Guid × Nat)} {env : Env}
    (h : (selectVersion tx book).sem env x = .ok (found, y)) : y = x ∧ ∃ g, tx.parse = .ok g ∧
      found = (x.transactions.find? (isTransaction g book)).map fun t => (t.guid, t.version) := by
  obtain ⟨hf, rfl⟩ := Stmt.queryE_ok h
  obtain ⟨g, hg, hr⟩ := ok_bind hf
  exact ⟨rfl, g, hg, (Except.ok.inj hr).symm⟩

/-- The transaction of an update that has found its transaction. -/
theorem replaceSplits_wp {book g : Guid} {req : UpdateTransactionRequest}
    {splits : List CreateSplitRequest} {version : Nat} (hr : r.Updates book g)
    (hs : Pristine seen r s) :
    (inTx "begin transaction" (do
      checkAccounts book splits
      let now ← exec "" timeNow
      exec "update transaction" (updateTransactionStmt g book req.customId
        (normalizePostDate req.postDate) req.description now)
      exec "delete old splits" (deleteSplitsOf g)
      let rows ← insertSplits g now (fun _ => "n") 0 splits
      commitTx "commit transaction update"
      return (g, version + 1, rows))).wp observed (updateContract seen r)
      (fun x _ s => ∀ er, x = .error er → Unapplied r.id s) .idle s := by
  have hfail : ∀ (er : Err) (ss : Sess SqlErr Lock (Logged Db Note)) s, Pristine seen r s →
      ∀ s₂, (updateContract seen r).rely s s₂ → (updateContract seen r).inv s₂ →
      ∀ er', Except.error (α := Guid × Nat × List Split) er = .error er' → Unapplied r.id s₂ :=
    fun _ _ s h s₂ hrel hi _ _ => (stable_pristine s s₂ h hrel hi).unapplied
  refine wp_inTx (fun s' er hrel hi => hfail _ .idle s hs s' hrel hi) fun s₁ hrel hi => ?_
  have hs₁ := stable_pristine _ _ hs hrel hi
  refine wp_bind (wp_mono (fun x ss s hpost => ?_) (wp_body stable_pristine
    (fun q env v v' b s x y z hq hid _ hxy hw => hxy.next hq.reads hid hw)
    (checkAccounts_issues splits) (checkAccounts_body book splits)
    (Sess.pends_begin fun x => (Preparing.refl r.id x)) hs₁))
  obtain ⟨hp, hs⟩ := hpost
  cases x with
  | error er => exact hfail er ss s hs
  | ok _ =>
    refine wp_stmt_pends (V := fun _ => Preparing r.id) stable_pristine hp hs ?_
      (fun er ss s hs _ => hfail _ ss s hs) ?_
    · intro env v v' b s x y z hid _ _ hxy hw
      exact hxy.next (Stmt.reads_askEnv _) hid hw
    intro _ now _ _ ss s hs _ _ _ _ hp
    refine wp_stmt_pends (V := fun _ => Updating r) stable_pristine hp hs ?_
      (fun er ss s hs _ => hfail _ ss s hs) ?_
    · intro env v v' b s x y z hid _ _ hxy hw
      obtain ⟨hw, hl⟩ := Machine.logged_write hw
      have hz := updateTransactionStmt_ok (v := v.data) hw
      refine ⟨fun t ht hnot => ?_, hxy.log.trans ⟨[_], hl, fun e he => ?_⟩, ?_⟩
      · rw [hz]
        refine mem_updateWhere.mpr ⟨t, by rw [hxy.same]; exact ht, if_neg fun hc => hnot ?_⟩
        simp only [isTransaction, Bool.and_eq_true, beq_iff_eq] at hc
        rw [hc.1, hc.2]
        exact hr
      · rw [List.mem_singleton.mp he]
        exact hid
      · exact ⟨_, book, g, by rw [hl, show env.1 = r.id from hid]; exact List.mem_cons_self, rfl⟩
    intro _ _ _ _ ss s hs _ _ _ _ hp
    refine wp_stmt_pends (V := fun _ => Updating r) stable_pristine hp hs ?_
      (fun er ss s hs _ => hfail _ ss s hs) ?_
    · intro env v v' b s x y z hid _ _ hxy hw
      obtain ⟨hw, hl⟩ := Machine.logged_write hw
      exact hxy.next hl hid (congrArg Db.transactions (Except.ok.inj hw)).symm
    intro _ _ _ _ ss s hs _ _ _ _ hp
    refine wp_bind (p := insertSplits g now (fun _ => "n") 0 splits) (wp_mono
      (fun x ss s hpost => ?_) (wp_body stable_pristine
      (fun q env v v' b s x y z hq hid _ hxy hw => hxy.next (Machine.logged_write hw).2 hid
        (hq _ _ _ _ (Machine.logged_write hw).1))
      (insertSplits_issues keepsTransactions_uuidNew fun a sp _ => keepsTransactions_insertSplit a sp)
      (insertSplits_body g now _ 0 splits) hp hs))
    obtain ⟨hp, hs⟩ := hpost
    cases x with
    | error er => exact hfail er ss s hs
    | ok rows =>
      dsimp only [Prog.ofExcept, ret_bind]
      refine wp_bind (wp_commit_pends stable_pristine hp hs (fun er s hs _ => hfail _ .idle s hs) ?_)
      intro s y hs hi hw
      exact ⟨trivial, hw.applied hs, fun _ _ _ _ h => absurd h (by simp)⟩

/-- **`UpdateTransaction` among other calls.** -/
theorem updateTransaction_applied {cfg : PlaidConfig} {book : Guid} {tx : GuidText}
    {req : UpdateTransactionRequest} (hreq : r.req = .request cfg book (.updateTransaction tx req))
    (hs : Pristine seen r s) :
    (updateTransaction book tx req).wp observed (updateContract seen r)
      (fun x _ s => ∀ er, x = .error er → Unapplied r.id s) .idle s := by
  refine wp_stmt_frame frame_untagged stable_pristine (fun x y _ hl h => h.looks hl)
    ⟨Stmt.reads_queryE _, rfl⟩ hs (fun _ _ s hs _ _ _ _ => hs.unapplied) ?_
  intro env found s s' hs hs' _ _ _ hx
  obtain ⟨-, g, hg, hfound⟩ := selectVersion_ok (Machine.logged_exec hx).1
  dsimp only [ret_bind]
  split
  · exact fun _ _ => hs'.unapplied
  · rename_i guid version
    obtain ⟨t, ht, hpair⟩ := Option.map_eq_some_iff.mp hfound.symm
    obtain ⟨rfl, -⟩ := Prod.mk.inj hpair
    have hat := List.find?_some ht
    simp only [isTransaction, Bool.and_eq_true, beq_iff_eq] at hat
    have hu : r.Updates book t.guid := ⟨cfg, tx, req, hreq, by rw [hat.1]; exact hg⟩
    cases hv : validSplits req.splits with
    | error er => exact fun _ _ => hs'.unapplied
    | ok splits =>
      dsimp only [Prog.ofExcept, bind_eq, ret_bind]
      cases hsum : splitSum splits with
      | none => exact fun _ _ => hs'.unapplied
      | some sum =>
        dsimp only [orPanic, bind_eq, ret_bind]
        split
        · exact fun _ _ => hs'.unapplied
        split
        · exact fun _ _ => hs'.unapplied
        exact replaceSplits_wp hu hs'

/-! ## Every interleaving -/

/-- A finished read of the pool answered the version of the transaction. -/
def ReadAt (c : Observed) (book g : Guid) (version : Nat) : Prop :=
  ∃ a ∈ c.calls, (∃ cfg tx, a.req.req = .request cfg book (.getTransaction tx) ∧ tx.parse = .ok g) ∧
    ∃ view, a.prog.outcome = some (.ok (.transaction view)) ∧ view.txn.version = version

/-- Clients read transactions, and update them after a read has answered the version `seen`. -/
def Clients (seen : Nat → Nat) (c : Observed) : ObservedStep → Prop
  | .spawn r => ∃ cfg book, (∃ tx, r.req = .request cfg book (.getTransaction tx)) ∨
      ∃ tx req, r.req = .request cfg book (.updateTransaction tx req) ∧
        ∀ g, tx.parse = .ok g → ReadAt c book g (seen r.id)
  | .step _ _ => True

/-- An update arrives while the version its client read is current and no other update of the
transaction is under way. -/
def Timely (seen : Nat → Nat) (c : Observed) : ObservedStep → Prop
  | .spawn r => ∀ book g, r.Updates book g → c.db.data.AtVersion book g (seen r.id) ∧
      ∀ a ∈ c.calls, a.prog.Running → ¬ a.req.Updates book g
  | .step _ _ => True

/-- Clients whose updates are timely. -/
def TimelyClients (seen : Nat → Nat) (c : Observed) (e : ObservedStep) : Prop :=
  Clients seen c e ∧ Timely seen c e

/-- What holds of the outcome of a call: an update that fails was not applied. -/
def revisionPost (r : Arrival Event) (x : Except Err Response) (s : Logged Db Note) : Prop :=
  (∃ book g, r.Updates book g) → ∀ er, x = .error er → Unapplied r.id s

theorem client_wp {c : Observed} (hc : Clients seen c (.spawn r)) (hs : Pristine seen r s) :
    r.call.wp observed (updateContract seen r) (fun x _ s => revisionPost r x s) .idle s := by
  obtain ⟨cfg, book, ⟨tx, he⟩ | ⟨tx, req, he, -⟩⟩ := hc
  · refine wp_mono (fun x _ s _ hu => ?_) (wp_frame frame_untagged ?_ Sess.within_idle)
    · obtain ⟨_, _, _, _, _, hu, -⟩ := hu
      rw [he] at hu
      exact absurd (Event.request.inj hu).2.2 (by simp)
    · unfold Lib.Arrival.call
      rw [he]
      refine issues_answer (issues_exec ⟨Stmt.reads_queryE _, rfl⟩ fun found => ?_)
      cases found with
      | none => trivial
      | some t => exact issues_exec ⟨Stmt.reads_rowsE _, rfl⟩ fun _ => trivial
  · unfold Lib.Arrival.call
    rw [he]
    refine wp_bind (wp_mono (fun x ss s h => ?_) (updateTransaction_applied he hs))
    cases x with
    | error er => exact fun _ er' _ => h er rfl
    | ok a => exact fun _ _ h => absurd h (by simp)

theorem timely_numbered (c : Observed) (e : ObservedStep)
    (h : Numbering (TimelyClients seen) c e) : Numbered c e := h.1

/-- Two calls update different transactions. -/
def DifferentUpdates (a b : Arrival Event) : Prop := ∀ book g, a.Updates book g → ¬ b.Updates book g

theorem updates_tolerant (db : Db) :
    Tolerant observed Arrival.call (Numbering (TimelyClients seen)) ⟨db, []⟩ (fun _ => True)
      (updateContract seen) revisionPost DifferentUpdates where
  start := trivial
  inv _ _ := Iff.rfl
  arrives c r hr hok _ := by
    refine client_wp hok.2.1 ⟨fun book g hu => (hok.2.2 book g hu).1, fun n hn => ?_⟩
    have hlt := hr.log_lt timely_numbered rfl hn
    have hid : r.id = c.calls.length := hok.1
    dsimp only at hlt
    omega
  pairs c r _ hok a ha hrun := by
    refine ⟨fun book g hu hu' => ?_, fun book g hu hu' => ?_⟩
    · exact (hok.2.2 book g hu').2 a ha hrun hu
    · exact (hok.2.2 book g hu).2 a ha hrun hu'
  supplied h := h.ok.1.trans (h.reach.id_eq timely_numbered h.call).symm
  rely h hij hj _ hg _ hp := by
    refine ⟨hg.1.mono fun b g hu => hp b g hu, hg.2.1.mono fun _ he => ?_⟩
    exact he.trans_ne (h.id_ne timely_numbered hij hj)
  keep h hij hj _ hg hp hu er hx := by
    refine (hp hu er hx).adds (hg.2.1.mono fun _ he heq => ?_)
    exact absurd (he.symm.trans heq) (h.id_ne timely_numbered hij hj)

/-- **No update is lost while updates are timely.** In every interleaving of clients that read and
update transactions, a step of an update changes the database only while the transaction is at the
version its client read, and no step of an update that fails changes it. -/
theorem updateTransaction_current {db : Db} {c c' : Observed}
    (hr : Watched (TimelyClients seen) db c) {i : Nat} {env : Nat × Env}
    (he : Numbering (TimelyClients seen) c (.step i env))
    (hn : c.next observed Arrival.call (.step i env) = some c') {a : ObservedCall}
    (hi : c.calls[i]? = some a) {book g : Guid} (hu : a.req.Updates book g) :
    (c'.db.data = c.db.data ∨ c.db.data.AtVersion book g (seen i)) ∧
    ∀ {c'' : Observed} {b : ObservedCall} {er : Err},
      c'.Leads observed Arrival.call (Numbering (TimelyClients seen)) c'' → c''.calls[i]? = some b →
      b.prog.outcome = some (.error er) → c'.db.data = c.db.data := by
  have t := @updates_tolerant seen db
  obtain ⟨r, _, o, _, _, hcall, -, -, hg⟩ := t.guar hr he hn
  obtain rfl := Option.some.inj (hi.symm.trans hcall)
  have hid : r.id = i := hr.id_eq timely_numbered hi
  refine ⟨hg.imp_right fun h => hid ▸ h.current book g hu, fun {c'' b er} hl hb hout => ?_⟩
  refine hg.resolve_right fun happ => ?_
  -- the update is in the log, which a failed call excludes
  have hl' : c.Leads observed Arrival.call (Numbering (TimelyClients seen)) c'' := .head ⟨_, he, hn⟩ hl
  obtain ⟨b', hb', hreq⟩ := hl'.call hi
  obtain rfl := Option.some.inj (hb.symm.trans hb')
  have hun := t.done (hr.leads hl') hb hout (hreq ▸ ⟨book, g, hu⟩) er rfl
  rw [hreq, hid] at hun
  obtain ⟨n, book', g', hlog, htag⟩ := happ.logged
  rw [hid] at hlog
  have hr' : Watched (TimelyClients seen) db c' := .event _ hr he hn
  exact absurd htag (hun n ((hr'.log_mono timely_numbered hl).subset hlog) book' g')

/-- The event reads the transaction of the book. -/
def Event.reads (book g : Guid) : Event → Bool
  | .request _ b (.getTransaction tx) => b == book && tx.parse == .ok g
  | _ => false

/-- The answer is a transaction at the version. -/
def answersVersion (version : Nat) : Option (Except Err Response) → Bool
  | some (.ok (.transaction view)) => view.txn.version == version
  | _ => false

/-- The test of `Clients`. -/
def clients (seen : Nat → Nat) (c : Observed) : ObservedStep → Bool
  | .spawn r => r.id == c.calls.length && match r.req with
    | .request _ _ (.getTransaction _) => true
    | .request _ book (.updateTransaction (.uuid g _) _) =>
      c.calls.any fun a => a.req.req.reads book g && answersVersion (seen r.id) a.prog.outcome
    | _ => false
  | .step i env => env.1 == i

theorem numbering_of_clients {c : Observed} {e : ObservedStep} (h : clients seen c e = true) :
    Numbering (Clients seen) c e := by
  cases e with
  | step i env => exact ⟨by simpa [clients, Numbered] using h, trivial⟩
  | spawn r =>
    obtain ⟨id, ev⟩ := r
    simp only [clients, Bool.and_eq_true, beq_iff_eq] at h
    refine ⟨h.1, ?_⟩
    have h := h.2
    split at h
    · exact ⟨_, _, .inl ⟨_, rfl⟩⟩
    · rename_i cfg book g t req _
      refine ⟨_, _, .inr ⟨_, _, rfl, fun g' hg => ?_⟩⟩
      obtain rfl : g = g' := Except.ok.inj hg
      obtain ⟨a, ha, h⟩ := List.any_eq_true.mp h
      obtain ⟨hread, hans⟩ := Bool.and_eq_true_iff.mp h
      refine ⟨a, ha, ?_, ?_⟩
      · unfold Event.reads at hread
        split at hread
        · rename_i hreq
          simp only [Bool.and_eq_true, beq_iff_eq] at hread
          exact ⟨_, _, by rw [hreq, hread.1], hread.2⟩
        · exact absurd hread (by simp)
      · unfold answersVersion at hans
        split at hans
        · exact ⟨_, by assumption, by simpa using hans⟩
        · exact absurd hans (by simp)
    · exact absurd h (by simp)

/-- The run of such events from a database. -/
def clientRun (seen : Nat → Nat) (db : Db) (es : List ObservedStep) : Option Observed :=
  Conf.run observed Arrival.call (clients seen) ⟨⟨db, []⟩, []⟩ es

theorem watched_of_clientRun {db : Db} {es : List ObservedStep} {c : Observed}
    (h : clientRun seen db es = some c) : Watched (Clients seen) db c :=
  Reach.run (fun _ _ => numbering_of_clients) .start h

/-- A request that changes the amount of the purchase. -/
def reprice (cents : Int64) : Event :=
  .request plainConfig 3 (.updateTransaction (Guid.text 103)
    ⟨"", ⟨19000, 0⟩, "food", purchaseSplits cents⟩)

/-- A client reads it. -/
def readsPurchase (id : Nat) : List ObservedStep :=
  [.spawn ⟨id, .request plainConfig 3 (.getTransaction (Guid.text 103))⟩, .step id (id, calm 200 0),
    .step id (id, calm 200 1)]

/-- A client updates it, up to the commit. -/
def repricesPurchase (id : Nat) (cents : Int64) : List ObservedStep :=
  .spawn ⟨id, reprice cents⟩ :: (List.range 11).map fun k => .step id (id, calm (300 * id) k)

/-- Two clients read version 1 and update one after the other. -/
def staleUpdates : List ObservedStep :=
  readsPurchase 0 ++ readsPurchase 1 ++ repricesPurchase 2 2000 ++
    [.step 2 (2, calm 600 11), .step 2 (2, calm 600 12)] ++ repricesPurchase 3 3000

/-- The event updates the transaction of the book. -/
def Event.updates (book g : Guid) : Event → Bool
  | .request _ b (.updateTransaction tx _) => b == book && tx.parse == .ok g
  | _ => false

theorem updates_iff {r : Arrival Event} {book g : Guid} :
    r.req.updates book g = true ↔ r.Updates book g := by
  constructor
  · intro h
    unfold Event.updates at h
    split at h
    · rename_i hreq
      simp only [Bool.and_eq_true, beq_iff_eq] at h
      exact ⟨_, _, _, by rw [hreq, h.1], h.2⟩
    · exact absurd h (by simp)
  · rintro ⟨cfg, tx, req, hreq, hg⟩
    simp [Event.updates, hreq, hg]

/-- The version test of a row. -/
def versionAt (book g : Guid) (version : Nat) (t : Transaction) : Bool :=
  t.guid == g && t.bookGuid == book && t.version == version

theorem atVersion_iff {db : Db} {book g : Guid} {version : Nat} :
    db.transactions.any (versionAt book g version) = true ↔ db.AtVersion book g version := by
  simp only [List.any_eq_true, versionAt, Bool.and_eq_true, beq_iff_eq, and_assoc]
  exact Iff.rfl

/-- The test of `TimelyClients`, where an update arrives only if no other call is under way. -/
def timely (seen : Nat → Nat) (c : Observed) (e : ObservedStep) : Bool :=
  clients seen c e && match e with
    | .spawn ⟨id, .request _ book (.updateTransaction (.uuid g _) _)⟩ =>
      c.db.data.transactions.any (versionAt book g (seen id)) &&
        c.calls.all fun a => a.prog.outcome.isSome
    | _ => true

theorem numbering_of_timely {c : Observed} {e : ObservedStep} (h : timely seen c e = true) :
    Numbering (TimelyClients seen) c e := by
  obtain ⟨h1, h2⟩ := Bool.and_eq_true_iff.mp h
  obtain ⟨hnum, hclients⟩ := numbering_of_clients h1
  refine ⟨hnum, hclients, ?_⟩
  cases e with
  | step i env => trivial
  | spawn r =>
    rintro book g ⟨cfg, tx, req, hreq, hg⟩
    obtain ⟨id, ev⟩ := r
    obtain rfl : ev = _ := hreq
    cases tx with
    | malformed text => exact absurd hg (by simp [GuidText.parse])
    | uuid g' t =>
      obtain rfl : g' = g := Except.ok.inj hg
      obtain ⟨hat, hdone⟩ := Bool.and_eq_true_iff.mp h2
      refine ⟨atVersion_iff.mp hat, fun a ha hrun _ => ?_⟩
      exact not_running_of_outcome (List.all_eq_true.mp hdone a ha) hrun

/-- One client reads the purchase and updates it, up to the commit. -/
def timelyUpdate : List ObservedStep := readsPurchase 0 ++ repricesPurchase 1 2000

/-- Its commit changes the purchase, at the version the client read. -/
theorem updateTransaction_current_timely : ∃ c c', Watched (TimelyClients fun _ => 1) purchased c ∧
    c.next observed Arrival.call (.step 1 (1, calm 300 11)) = some c' ∧
    c'.db.data ≠ c.db.data ∧ (c'.db.data = c.db.data ∨ c.db.data.AtVersion 3 103 1) := by
  have hrun : ((Conf.run observed Arrival.call (timely fun _ => 1) ⟨⟨purchased, []⟩, []⟩
      timelyUpdate).bind fun c => (c.next observed Arrival.call (.step 1 (1, calm 300 11))).map
        fun c' => (timely (fun _ => 1) c (.step 1 (1, calm 300 11)),
          c.calls[1]?.map fun a => a.req.req.updates 3 103,
          c'.db.data.transactions != c.db.data.transactions)) = some (true, some true, true) := by
    decide +kernel
  obtain ⟨c, hc, h⟩ := Option.bind_eq_some_iff.mp hrun
  obtain ⟨c', hn, h⟩ := Option.map_eq_some_iff.mp h
  obtain ⟨h0, h⟩ := Prod.mk.inj h
  obtain ⟨h1, h2⟩ := Prod.mk.inj h
  obtain ⟨a, ha, hu⟩ := Option.map_eq_some_iff.mp h1
  have hr : Watched (TimelyClients fun _ => 1) purchased c :=
    Reach.run (fun _ _ => numbering_of_timely) .start hc
  refine ⟨c, c', hr, hn, fun heq => bne_iff_ne.mp h2 (by rw [heq]), ?_⟩
  exact (updateTransaction_current hr (numbering_of_timely h0) hn ha (updates_iff.mp hu)).1

/-- **The version a client read is never compared.** Without the condition an update is applied to
a transaction that another client has changed since. -/
theorem updateTransaction_stale : ¬ ∀ (seen : Nat → Nat) (c c' : Observed) (i : Nat)
    (env : Nat × Env) (a : ObservedCall) (book g : Guid), Watched (Clients seen) purchased c →
    Numbering (Clients seen) c (.step i env) →
    c.next observed Arrival.call (.step i env) = some c' → c.calls[i]? = some a →
    a.req.Updates book g → c'.db.data = c.db.data ∨ c.db.data.AtVersion book g (seen i) := by
  intro hall
  have hrun : ((clientRun (fun _ => 1) purchased staleUpdates).bind fun c =>
      (c.next observed Arrival.call (.step 3 (3, calm 900 11))).map fun c' =>
        (c.calls[3]?.map fun a => a.req.req.updates 3 103,
          c'.db.data.transactions != c.db.data.transactions,
          c.db.data.transactions.any (versionAt 3 103 1))) = some (some true, true, false) := by
    decide +kernel
  obtain ⟨c, hc, h⟩ := Option.bind_eq_some_iff.mp hrun
  obtain ⟨c', hn, h⟩ := Option.map_eq_some_iff.mp h
  obtain ⟨h0, h⟩ := Prod.mk.inj h
  obtain ⟨h1, h2⟩ := Prod.mk.inj h
  obtain ⟨a, ha, hu⟩ := Option.map_eq_some_iff.mp h0
  rcases hall (fun _ => 1) c c' 3 (3, calm 900 11) a 3 103 (watched_of_clientRun hc) ⟨rfl, trivial⟩
    hn ha (updates_iff.mp hu) with heq | hat
  · exact bne_iff_ne.mp h1 (by rw [heq])
  · exact absurd (atVersion_iff.mpr hat) (by rw [h2]; simp)

end Antimoney
