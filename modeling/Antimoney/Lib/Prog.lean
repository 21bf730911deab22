import Mathlib.Logic.Relation

/-!
# Programs over a transactional store

A service call is a program (`Prog`) that issues statements one at a time and decides what to do
next from each reply. A `Machine` gives the statements their meaning: a reply and a new state, or
an error that leaves the state as it was, given what the environment supplies at that step (a
clock reading, a fresh identifier, a failure).

`begin` opens a transaction, whose writes the others see at `commit`.

* `Prog`: programs, with `attempt`, `inTx` and the monad they form.
* `run`: a call that runs alone, with a working copy for its transaction.
* `swp`: the weakest precondition of such a call, with `run_of_swp` and a rule for each way to
  build a program. It also carries a `Duty`, which every operation of the call must meet.
* `FailsOnly`: how a program fails, whatever the replies; `Raises`: and for replies that are only
  certain errors (`swp_of_raises`).

`Antimoney.Lib.Pool` runs many calls at once.
-/

namespace Antimoney.Lib

/-- What a call sends to the store. -/
inductive Op (S : Type → Type) : Type → Type 1
  | stmt {β : Type} (q : S β) : Op S β
  | begin : Op S Unit
  | commit : Op S Unit
  | rollback : Op S Unit

/-- A program: it returns, fails, or issues one operation and goes on with the reply. -/
inductive Prog (S : Type → Type) (E ε α : Type) : Type 1
  | ret (a : α) : Prog S E ε α
  | fail (e : ε) : Prog S E ε α
  | op {β : Type} (o : Op S β) (k : Except E β → Prog S E ε α) : Prog S E ε α

/-- The meaning of the statements `S` over states `σ`. -/
structure Machine (S : Type → Type) (E Env L σ : Type) where
  /-- A statement's reply and new state; an error changes nothing. -/
  exec : ∀ {β : Type}, S β → Env → σ → Except E (β × σ)
  /-- What a statement that ran at one state writes to another: the rows it changes were chosen
  when it ran. -/
  write : ∀ {β : Type}, S β → Env → σ → σ → Except E σ
  write_self : ∀ {β : Type} {q : S β} {env : Env} {s s' : σ} {b : β},
    exec q env s = .ok (b, s') → write q env s s = .ok s'
  /-- The locks a statement takes, kept until its transaction ends. -/
  locks : ∀ {β : Type}, S β → Env → σ → List L
  conflict : L → L → Bool
  /-- The error of a transaction control statement, if the environment makes it fail. -/
  down : Env → Option E
  /-- What the environment may supply to a statement at a state. -/
  allowed : ∀ {β : Type}, S β → Env → σ → Bool

namespace Prog

variable {S : Type → Type} {E ε ε' α β : Type}

/-- Sequencing: a failure ends the program. -/
def bind (p : Prog S E ε α) (f : α → Prog S E ε β) : Prog S E ε β :=
  match p with
  | ret a => f a
  | fail e => fail e
  | op o k => op o fun r => (k r).bind f

instance : Monad (Prog S E ε) where
  pure := ret
  bind := bind

/-- The outcome of `p` as a value: `p` under this program never fails. -/
def attempt : Prog S E ε α → Prog S E ε' (Except ε α)
  | ret a => ret (.ok a)
  | fail e => ret (.error e)
  | op o k => op o fun r => (k r).attempt

/-- The program an outcome is. -/
def ofExcept : Except ε α → Prog S E ε α
  | .ok a => ret a
  | .error e => fail e

/-- One statement; its error is returned to the program. -/
def ask (q : S β) : Prog S E ε (Except E β) := op (.stmt q) ret

/-- One statement; its error ends the program as `wrap` says. -/
def sql (wrap : E → ε) (q : S β) : Prog S E ε β :=
  op (.stmt q) fun
    | .ok b => ret b
    | .error e => fail (wrap e)

/-- `begin`, a body, and the deferred rollback, which does nothing after a commit. -/
def inTx (wrap : E → ε) (body : Prog S E ε α) : Prog S E ε α :=
  op .begin fun
    | .error e => fail (wrap e)
    | .ok _ => do
      let r ← body.attempt
      op .rollback fun _ => ofExcept r

/-- `commit`. -/
def commit (wrap : E → ε) : Prog S E ε Unit :=
  op .commit fun
    | .ok _ => ret ()
    | .error e => fail (wrap e)

@[simp] theorem bind_eq (p : Prog S E ε α) (f : α → Prog S E ε β) : (p >>= f) = p.bind f := rfl

@[simp] theorem pure_eq (a : α) : (pure a : Prog S E ε α) = ret a := rfl

@[simp] theorem ret_bind (a : α) (f : α → Prog S E ε β) : (ret a : Prog S E ε α).bind f = f a := rfl

@[simp] theorem fail_bind (e : ε) (f : α → Prog S E ε β) : (fail e : Prog S E ε α).bind f = fail e :=
  rfl

theorem bind_assoc {γ : Type} (p : Prog S E ε α) (f : α → Prog S E ε β) (g : β → Prog S E ε γ) :
    (p.bind f).bind g = p.bind fun a => (f a).bind g := by
  induction p with
  | ret a => rfl
  | fail e => rfl
  | op o k ih => exact congrArg (Prog.op o) (funext ih)

theorem bind_ret (p : Prog S E ε α) : p.bind ret = p := by
  induction p with
  | ret a => rfl
  | fail e => rfl
  | op o k ih => exact congrArg (Prog.op o) (funext ih)

end Prog

/-! ## Alone -/

section Alone

variable {S : Type → Type} {E Env L σ ε ε' α β : Type} (M : Machine S E Env L σ)

/-- The state of a call that runs alone: the committed state, and the working copy of an open
transaction (an error once a write of it has failed). -/
structure Solo (E σ : Type) where
  db : σ
  work : Option (Except E σ)

namespace Solo

/-- Outside a transaction. -/
def idle (s : σ) : Solo E σ := ⟨s, none⟩

/-- In a transaction, with a working copy. -/
def tx (s v : σ) : Solo E σ := ⟨s, some (.ok v)⟩

/-- What the next statement sees. -/
def view (t : Solo E σ) : Except E σ := t.work.getD (.ok t.db)

/-- The state after a statement that leaves `v`. -/
def put (t : Solo E σ) (v : σ) : Solo E σ :=
  match t.work with
  | none => ⟨v, none⟩
  | some _ => ⟨t.db, some (.ok v)⟩

/-- The state after a statement that fails. -/
def abort (t : Solo E σ) (e : E) : Solo E σ := ⟨t.db, t.work.map fun _ => .error e⟩

@[simp] theorem view_idle (s : σ) : (idle s : Solo E σ).view = .ok s := rfl
@[simp] theorem view_tx (s v : σ) : (tx s v : Solo E σ).view = .ok v := rfl
@[simp] theorem put_idle (s v : σ) : (idle s : Solo E σ).put v = idle v := rfl
@[simp] theorem put_tx (s v v' : σ) : (tx s v : Solo E σ).put v' = tx s v' := rfl
@[simp] theorem abort_idle (s : σ) (e : E) : (idle s).abort e = idle s := rfl
@[simp] theorem abort_db (t : Solo E σ) (e : E) : (t.abort e).db = t.db := rfl
@[simp] theorem idle_db (s : σ) : (idle s : Solo E σ).db = s := rfl
@[simp] theorem tx_db (s v : σ) : (tx s v : Solo E σ).db = s := rfl
@[simp] theorem idle_work (s : σ) : (idle s : Solo E σ).work = none := rfl

end Solo

/-- One operation of a call that runs alone. -/
def soloStep {β : Type} : Op S β → Env → Solo E σ → Except E β × Solo E σ
  | .stmt q, env, t =>
    match t.view with
    | .error e => (.error e, t)
    | .ok v =>
      match M.exec q env v with
      | .ok (b, v') => (.ok b, t.put v')
      | .error e => (.error e, t.abort e)
  | .begin, env, t =>
    match M.down env with
    | some e => (.error e, .idle t.db)
    | none => (.ok (), .tx t.db t.db)
  | .commit, env, t =>
    match M.down env with
    | some e => (.error e, .idle t.db)
    | none =>
      match t.view with
      | .ok v => (.ok (), .idle v)
      | .error e => (.error e, .idle t.db)
  | .rollback, _, t => (.ok (), .idle t.db)

/-- What the environment may supply to an operation: only statements constrain it. -/
def soloAllowed {β : Type} : Op S β → Env → Solo E σ → Bool
  | .stmt q, env, t =>
    match t.view with
    | .ok v => M.allowed q env v
    | .error _ => true
  | _, _, _ => true

/-- **A call that runs alone**, on a stream of what the environment supplies at each step. -/
def Prog.run : Prog S E ε α → (Nat → Env) → Solo E σ → Except ε α × Solo E σ
  | .ret a, _, t => (.ok a, t)
  | .fail e, _, t => (.error e, t)
  | .op o k, envs, t =>
    let (r, t') := soloStep M o (envs 0) t
    (k r).run (fun n => envs (n + 1)) t'

/-- The stream supplies only what it may, at every step of the run. -/
def Prog.runAllowed : Prog S E ε α → (Nat → Env) → Solo E σ → Bool
  | .ret _, _, _ => true
  | .fail _, _, _ => true
  | .op o k, envs, t =>
    soloAllowed M o (envs 0) t &&
      (k (soloStep M o (envs 0) t).1).runAllowed (fun n => envs (n + 1))
        (soloStep M o (envs 0) t).2

/-- What a proof shows of every operation of a call, besides its outcome. -/
abbrev Duty (S : Type → Type) (E Env σ : Type) : Type 1 :=
  ∀ {β : Type}, Op S β → Env → Solo E σ → Prop

/-- No duty. -/
def Duty.none : Duty S E Env σ := fun _ _ _ => True

/-- The weakest precondition of a call that runs alone: whatever the environment may supply, each
operation meets the duty `D`, and `Q` holds of the outcome and final state. -/
def Prog.swp (D : Duty S E Env σ) (Q : Except ε α → Solo E σ → Prop) :
    Prog S E ε α → Solo E σ → Prop
  | .ret a, t => Q (.ok a) t
  | .fail e, t => Q (.error e) t
  | .op o k, t => ∀ env, soloAllowed M o env t = true →
      D o env t ∧ (k (soloStep M o env t).1).swp D Q (soloStep M o env t).2

variable {M} {D : Duty S E Env σ}

/-- **`swp` is about `run`.** -/
theorem Prog.run_of_swp {Q : Except ε α → Solo E σ → Prop} {p : Prog S E ε α} {envs : Nat → Env}
    {t : Solo E σ} (h : p.swp M D Q t) (ha : p.runAllowed M envs t = true) :
    Q (p.run M envs t).1 (p.run M envs t).2 := by
  induction p generalizing envs t with
  | ret a => exact h
  | fail e => exact h
  | op o k ih =>
    simp only [runAllowed, Bool.and_eq_true] at ha
    exact ih _ (h (envs 0) ha.1).2 ha.2

theorem Prog.swp_mono {Q Q' : Except ε α → Solo E σ → Prop} (hQ : ∀ r t, Q r t → Q' r t)
    {p : Prog S E ε α} {t : Solo E σ} (h : p.swp M D Q t) : p.swp M D Q' t := by
  induction p generalizing t with
  | ret a => exact hQ _ _ h
  | fail e => exact hQ _ _ h
  | op o k ih => exact fun env ha => ⟨(h env ha).1, ih _ (h env ha).2⟩

/-- Two specifications of one call. -/
theorem Prog.swp_and {Q Q' : Except ε α → Solo E σ → Prop} {p : Prog S E ε α} {t : Solo E σ}
    (h : p.swp M D Q t) (h' : p.swp M D Q' t) : p.swp M D (fun r t => Q r t ∧ Q' r t) t := by
  induction p generalizing t with
  | ret a => exact ⟨h, h'⟩
  | fail e => exact ⟨h, h'⟩
  | op o k ih => exact fun env ha => ⟨(h env ha).1, ih _ (h env ha).2 (h' env ha).2⟩

/-- The rule of sequencing. -/
theorem Prog.swp_bind {f : α → Prog S E ε β} {Q : Except ε β → Solo E σ → Prop}
    {p : Prog S E ε α} {t : Solo E σ}
    (h : p.swp M D (fun r t => ((ofExcept r).bind f).swp M D Q t) t) : (p.bind f).swp M D Q t := by
  induction p generalizing t with
  | ret a => exact h
  | fail e => exact h
  | op o k ih => exact fun env ha => ⟨(h env ha).1, ih _ (h env ha).2⟩

/-- The rule of `attempt`. -/
theorem Prog.swp_attempt {Q : Except ε' (Except ε α) → Solo E σ → Prop}
    {p : Prog S E ε α} {t : Solo E σ} (h : p.swp M D (fun r t => Q (.ok r) t) t) :
    (p.attempt : Prog S E ε' (Except ε α)).swp M D Q t := by
  induction p generalizing t with
  | ret a => exact h
  | fail e => exact h
  | op o k ih => exact fun env ha => ⟨(h env ha).1, ih _ (h env ha).2⟩

/-- The rule of a statement, by what it may do to the view. -/
theorem Prog.swp_stmt {γ : Type} {q : S γ} {k : Except E γ → Prog S E ε α}
    {Q : Except ε α → Solo E σ → Prop} {t : Solo E σ} {v : σ} (hv : t.view = .ok v)
    (hD : ∀ env, M.allowed q env v = true → D (.stmt q) env t)
    (herr : ∀ env e, M.allowed q env v = true → M.exec q env v = .error e →
      (k (.error e)).swp M D Q (t.abort e))
    (hok : ∀ env b v', M.allowed q env v = true → M.exec q env v = .ok (b, v') →
      (k (.ok b)).swp M D Q (t.put v')) :
    (Prog.op (.stmt q) k).swp M D Q t := by
  intro env ha
  simp only [soloAllowed, hv] at ha
  refine ⟨hD env ha, ?_⟩
  simp only [soloStep, hv]
  cases hx : M.exec q env v with
  | error e => exact herr env e ha hx
  | ok r => exact hok env r.1 r.2 ha hx

/-- The rule of a statement whose error ends the call. -/
theorem Prog.swp_sql {γ : Type} {q : S γ} {wrap : E → ε} {f : γ → Prog S E ε α}
    {Q : Except ε α → Solo E σ → Prop} {t : Solo E σ} {v : σ} (hv : t.view = .ok v)
    (hD : ∀ env, M.allowed q env v = true → D (.stmt q) env t)
    (herr : ∀ e, Q (.error (wrap e)) (t.abort e))
    (hok : ∀ env b v', M.allowed q env v = true → M.exec q env v = .ok (b, v') →
      (f b).swp M D Q (t.put v')) :
    ((sql wrap q).bind f).swp M D Q t :=
  swp_stmt hv hD (fun _ e _ _ => herr e) hok

/-- The rule of a statement whose error the call looks at. -/
theorem Prog.swp_ask {γ : Type} {q : S γ} {f : Except E γ → Prog S E ε α}
    {Q : Except ε α → Solo E σ → Prop} {t : Solo E σ} {v : σ} (hv : t.view = .ok v)
    (hD : ∀ env, M.allowed q env v = true → D (.stmt q) env t)
    (herr : ∀ env e, M.allowed q env v = true → M.exec q env v = .error e →
      (f (.error e)).swp M D Q (t.abort e))
    (hok : ∀ env b v', M.allowed q env v = true → M.exec q env v = .ok (b, v') →
      (f (.ok b)).swp M D Q (t.put v')) :
    ((ask q).bind f).swp M D Q t :=
  swp_stmt hv hD herr hok

/-- The rule of a transaction: whatever its body does, none is open afterwards. -/
theorem Prog.swp_inTx_down {wrap : E → ε} {body : Prog S E ε α} {Q : Except ε α → Solo E σ → Prop}
    {s : σ} (hb : ∀ env (t : Solo E σ), D (.begin : Op S Unit) env t)
    (hr : ∀ env (t : Solo E σ), D (.rollback : Op S Unit) env t)
    (herr : ∀ env e, M.down env = some e → Q (.error (wrap e)) (.idle s))
    (hbody : body.swp M D (fun r t => Q r (.idle t.db)) (.tx s s)) :
    (inTx wrap body).swp M D Q (.idle s) := by
  intro env _
  refine ⟨hb env _, ?_⟩
  simp only [soloStep, Solo.idle_db]
  cases hd : M.down env with
  | some e => exact herr env e hd
  | none =>
    refine swp_bind (swp_attempt (swp_mono (fun r t h => ?_) hbody))
    intro env _
    refine ⟨hr env _, ?_⟩
    cases r with
    | ok a => exact h
    | error e => exact h

theorem Prog.swp_inTx {wrap : E → ε} {body : Prog S E ε α} {Q : Except ε α → Solo E σ → Prop}
    {s : σ} (hb : ∀ env (t : Solo E σ), D (.begin : Op S Unit) env t)
    (hr : ∀ env (t : Solo E σ), D (.rollback : Op S Unit) env t)
    (herr : ∀ e, Q (.error (wrap e)) (.idle s))
    (hbody : body.swp M D (fun r t => Q r (.idle t.db)) (.tx s s)) :
    (inTx wrap body).swp M D Q (.idle s) :=
  swp_inTx_down hb hr (fun _ e _ => herr e) hbody

/-- The rule of `commit`. -/
theorem Prog.swp_commit {wrap : E → ε} {Q : Except ε Unit → Solo E σ → Prop} {s v : σ}
    (hc : ∀ env (t : Solo E σ), D (.commit : Op S Unit) env t)
    (herr : ∀ e, Q (.error (wrap e)) (.idle s)) (hok : Q (.ok ()) (.idle v)) :
    (commit wrap).swp M D Q (.tx s v) := by
  intro env _
  refine ⟨hc env _, ?_⟩
  simp only [soloStep, Solo.tx_db, Solo.view_tx]
  cases M.down env with
  | some e => exact herr e
  | none => exact hok

/-! ### Answers -/

/-- A statement that succeeds outside a transaction. -/
theorem Prog.run_sql {γ : Type} {q : S γ} {wrap : E → ε} {f : γ → Prog S E ε α}
    {envs : Nat → Env} {s v : σ} {b : γ} (h : M.exec q (envs 0) s = .ok (b, v)) :
    ((sql wrap q).bind f).run M envs (.idle s) =
      (f b).run M (fun n => envs (n + 1)) (.idle v) := by
  simp only [sql, Prog.bind, run, soloStep, Solo.view_idle, h]
  rfl

/-- A statement that fails outside a transaction. -/
theorem Prog.run_sql_error {γ : Type} {q : S γ} {wrap : E → ε} {f : γ → Prog S E ε α}
    {envs : Nat → Env} {s : σ} {e : E} (h : M.exec q (envs 0) s = .error e) :
    ((sql wrap q).bind f).run M envs (.idle s) = (.error (wrap e), .idle s) := by
  simp only [sql, Prog.bind, run, soloStep, Solo.view_idle, h]
  rfl

/-- A call that begins with a statement and is answered. -/
theorem Prog.run_sql_ok {γ : Type} {q : S γ} {wrap : E → ε} {f : γ → Prog S E ε α}
    {envs : Nat → Env} {s : σ} {a : α} {t : Solo E σ}
    (h : ((sql wrap q).bind f).run M envs (.idle s) = (.ok a, t)) :
    ∃ b v, M.exec q (envs 0) s = .ok (b, v) ∧
      (f b).run M (fun n => envs (n + 1)) (.idle v) = (.ok a, t) := by
  cases hx : M.exec q (envs 0) s with
  | error e =>
    simp only [sql, Prog.bind, run, soloStep, Solo.view_idle, hx] at h
    exact absurd (congrArg Prod.fst h) (by simp)
  | ok r =>
    obtain ⟨b, v⟩ := r
    rw [run_sql hx] at h
    exact ⟨b, v, rfl, h⟩

/-- A call whose value is mapped. -/
theorem Prog.run_map_ok {g : α → β} {p : Prog S E ε α} {envs : Nat → Env} {t t' : Solo E σ} {b : β}
    (h : (p.bind fun a => ret (g a)).run M envs t = (.ok b, t')) :
    ∃ a, p.run M envs t = (.ok a, t') ∧ g a = b := by
  induction p generalizing envs t with
  | ret a =>
    obtain ⟨hb, rfl⟩ := Prod.mk.inj h
    exact ⟨a, rfl, Except.ok.inj hb⟩
  | fail e => exact absurd (congrArg Prod.fst h) (by simp [Prog.bind, run])
  | op o k ih => exact ih _ h

/-- **A run of a sequence**: the first part, then the rest on the rest of the stream. -/
theorem Prog.run_bind (p : Prog S E ε α) (envs : Nat → Env) (t : Solo E σ) :
    ∃ k, ∀ {β : Type} (f : α → Prog S E ε β),
      (p.bind f).run M envs t =
        ((ofExcept (p.run M envs t).1).bind f).run M (fun n => envs (n + k)) (p.run M envs t).2 ∧
      (p.bind f).runAllowed M envs t = (p.runAllowed M envs t &&
        ((ofExcept (p.run M envs t).1).bind f).runAllowed M (fun n => envs (n + k))
          (p.run M envs t).2) := by
  induction p generalizing envs t with
  | ret a => exact ⟨0, fun f => ⟨rfl, by simp [runAllowed, run, ofExcept]⟩⟩
  | fail e => exact ⟨0, fun f => ⟨rfl, by simp [runAllowed, run, ofExcept, Prog.bind]⟩⟩
  | op o k ih =>
    obtain ⟨n, hn⟩ := ih (soloStep M o (envs 0) t).1 (fun n => envs (n + 1))
      (soloStep M o (envs 0) t).2
    refine ⟨n + 1, fun f => ?_⟩
    obtain ⟨hrun, hallowed⟩ := hn f
    constructor
    · exact hrun
    · simp only [Prog.bind, runAllowed, hallowed, Bool.and_assoc]
      rfl

theorem Prog.run_attempt (p : Prog S E ε α) (envs : Nat → Env) (t : Solo E σ) :
    (p.attempt : Prog S E ε' (Except ε α)).run M envs t =
        (.ok (p.run M envs t).1, (p.run M envs t).2) ∧
      (p.attempt : Prog S E ε' (Except ε α)).runAllowed M envs t = p.runAllowed M envs t := by
  induction p generalizing envs t with
  | ret a => exact ⟨rfl, rfl⟩
  | fail e => exact ⟨rfl, rfl⟩
  | op o k ih =>
    obtain ⟨hrun, hallowed⟩ := ih (soloStep M o (envs 0) t).1 (fun n => envs (n + 1))
      (soloStep M o (envs 0) t).2
    exact ⟨hrun, by simp only [attempt, runAllowed, hallowed]⟩

/-- **A call that leaves the state**: on this stream its outcome is one of which `P` holds, after
some operations. -/
def Prog.Yields (M : Machine S E Env L σ) (envs : Nat → Env) (s : σ) (P : Except ε α → Prop)
    (p : Prog S E ε α) : Prop :=
  ∃ k r, P r ∧ ∀ {β : Type} (f : α → Prog S E ε β),
    (p.bind f).run M envs (.idle s) =
      ((ofExcept r).bind f).run M (fun n => envs (n + k)) (.idle s)

section Yields

variable {envs : Nat → Env} {s : σ} {P : Except ε α → Prop} {p : Prog S E ε α}

theorem Prog.yields_ret {a : α} (h : P (.ok a)) : (ret a : Prog S E ε α).Yields M envs s P :=
  ⟨0, .ok a, h, fun _ => rfl⟩

theorem Prog.yields_fail {e : ε} (h : P (.error e)) :
    (fail e : Prog S E ε α).Yields M envs s P :=
  ⟨0, .error e, h, fun _ => rfl⟩

theorem Prog.Yields.mono {Q : Except ε α → Prop} (h : p.Yields M envs s P)
    (hQ : ∀ r, P r → Q r) : p.Yields M envs s Q := by
  obtain ⟨k, r, hr, hp⟩ := h
  exact ⟨k, r, hQ r hr, hp⟩

theorem Prog.yields_bind {P : Except ε β → Prop} {Q : Except ε α → Prop} {p : Prog S E ε β}
    {f : β → Prog S E ε α} (h : p.Yields M envs s P)
    (hf : ∀ k r, P r → ((ofExcept r).bind f).Yields M (fun n => envs (n + k)) s Q) :
    (p.bind f).Yields M envs s Q := by
  obtain ⟨k, r, hr, hp⟩ := h
  obtain ⟨k', r', hr', hf⟩ := hf k r hr
  refine ⟨k' + k, r', hr', fun g => ?_⟩
  rw [bind_assoc, hp, ← bind_assoc, hf]
  simp only [Nat.add_assoc]

theorem Prog.yields_sql {q : S α} {wrap : E → ε} {a : α}
    (h : M.exec q (envs 0) s = .ok (a, s)) (ha : P (.ok a)) : (sql wrap q).Yields M envs s P :=
  ⟨1, .ok a, ha, fun _ => run_sql h⟩

theorem Prog.yields_ask {q : S β} {P : Except ε (Except E β) → Prop} {b : β}
    (h : M.exec q (envs 0) s = .ok (b, s)) (hb : P (.ok (.ok b))) :
    (ask q : Prog S E ε (Except E β)).Yields M envs s P := by
  refine ⟨1, .ok (.ok b), hb, fun f => ?_⟩
  simp only [ask, Prog.bind, run, soloStep, Solo.view_idle, h]
  rfl

theorem Prog.Yields.run (h : p.Yields M envs s P) :
    ∃ r, P r ∧ p.run M envs (.idle s) = (r, .idle s) := by
  obtain ⟨k, r, hr, hp⟩ := h
  have hret := hp (ret : α → Prog S E ε α)
  rw [bind_ret] at hret
  refine ⟨r, hr, ?_⟩
  cases r with
  | ok a => exact hret
  | error e => exact hret

theorem Prog.Yields.attempt (h : p.Yields M envs s P) :
    (p.attempt : Prog S E ε' (Except ε α)).Yields M envs s fun r => ∃ r', P r' ∧ r = .ok r' := by
  obtain ⟨r, hr, hp⟩ := h.run
  obtain ⟨k, hk⟩ := run_bind (M := M) (p.attempt : Prog S E ε' (Except ε α)) envs (.idle s)
  refine ⟨k, .ok r, ⟨r, hr, rfl⟩, fun f => ?_⟩
  rw [(hk f).1, (run_attempt p envs _).1, hp]

end Yields

/-- The machine whose environment also answers each statement as `A` says. -/
def Machine.assuming (M : Machine S E Env L σ) (A : ∀ {β : Type}, S β → Env → σ → Bool) :
    Machine S E Env L σ :=
  { M with allowed := fun q env s => M.allowed q env s && A q env s }

variable {A : ∀ {β : Type}, S β → Env → σ → Bool}

theorem soloAllowed_of_assuming {β : Type} {o : Op S β} {env : Env} {t : Solo E σ}
    (h : soloAllowed (M.assuming A) o env t = true) : soloAllowed M o env t = true := by
  cases o with
  | stmt q =>
    simp only [soloAllowed] at h ⊢
    split at h
    · rename_i v hv
      exact (Bool.and_eq_true _ _ ▸ h).1
    · trivial
  | begin => rfl
  | commit => rfl
  | rollback => rfl

theorem Prog.run_assuming (p : Prog S E ε α) (envs : Nat → Env) (t : Solo E σ) :
    p.run (M.assuming A) envs t = p.run M envs t := by
  induction p generalizing envs t with
  | ret a => rfl
  | fail e => rfl
  | op o k ih =>
    have ho : soloStep (M.assuming A) o (envs 0) t = soloStep M o (envs 0) t := by cases o <;> rfl
    simp only [run, ho, ih]

/-- A stream that answers as `A` says, if every environment of it does. -/
theorem Prog.runAllowed_assuming {p : Prog S E ε α} {envs : Nat → Env} {t : Solo E σ}
    (hA : ∀ {β : Type} (q : S β) n s, A q (envs n) s = true) (h : p.runAllowed M envs t = true) :
    p.runAllowed (M.assuming A) envs t = true := by
  induction p generalizing envs t with
  | ret a => rfl
  | fail e => rfl
  | op o k ih =>
    have ho : soloStep (M.assuming A) o (envs 0) t = soloStep M o (envs 0) t := by cases o <;> rfl
    simp only [runAllowed, Bool.and_eq_true, ho] at h ⊢
    refine ⟨?_, ih _ (fun q n s => hA q (n + 1) s) h.2⟩
    have h₁ := h.1
    cases o with
    | stmt q =>
      simp only [soloAllowed] at h₁ ⊢
      split at h₁
      · rename_i v _
        exact (Bool.and_eq_true _ _).symm ▸ ⟨h₁, hA q 0 v⟩
      · rfl
    | begin => rfl
    | commit => rfl
    | rollback => rfl

/-- What holds for every environment holds for one that answers as `A` says. -/
theorem Prog.swp_assuming {Q : Except ε α → Solo E σ → Prop} {p : Prog S E ε α} {t : Solo E σ}
    (h : p.swp M D Q t) : p.swp (M.assuming A) D Q t := by
  induction p generalizing t with
  | ret a => exact h
  | fail e => exact h
  | op o k ih =>
    intro env ha
    obtain ⟨hd, hk⟩ := h env (soloAllowed_of_assuming ha)
    have ho : soloStep (M.assuming A) o env t = soloStep M o env t := by cases o <;> rfl
    rw [ho]
    exact ⟨hd, ih _ hk⟩

end Alone

/-! ## What a program issues -/

section Issues

variable {S : Type → Type} {E Env L σ ε ε' α β : Type}

/-- A class of statements. -/
abbrev StmtClass (S : Type → Type) : Type 1 := ∀ {β : Type}, S β → Prop

/-- The operation, if it is a statement, is in the class. -/
def Op.Within (P : StmtClass S) : Op S β → Prop
  | .stmt q => P q
  | _ => True

namespace Prog

/-- Whatever the replies, every statement the program issues is in the class. -/
def Issues (P : StmtClass S) : Prog S E ε α → Prop
  | .ret _ => True
  | .fail _ => True
  | .op o k => o.Within P ∧ ∀ r, (k r).Issues P

variable {P P' : StmtClass S}

@[simp] theorem issues_ret (a : α) : (ret a : Prog S E ε α).Issues P := trivial

@[simp] theorem issues_fail (e : ε) : (fail e : Prog S E ε α).Issues P := trivial

theorem Issues.mono (hP : ∀ {γ : Type} (q : S γ), P q → P' q) {p : Prog S E ε α}
    (h : p.Issues P) : p.Issues P' := by
  induction p with
  | ret a => trivial
  | fail e => trivial
  | op o k ih =>
    refine ⟨?_, fun r => ih r (h.2 r)⟩
    cases o with
    | stmt q => exact hP q h.1
    | begin => trivial
    | commit => trivial
    | rollback => trivial

theorem issues_and {p : Prog S E ε α} (h : p.Issues P) (h' : p.Issues P') :
    p.Issues fun q => P q ∧ P' q := by
  induction p with
  | ret a => trivial
  | fail e => trivial
  | op o k ih =>
    refine ⟨?_, fun r => ih r (h.2 r) (h'.2 r)⟩
    cases o with
    | stmt q => exact ⟨h.1, h'.1⟩
    | begin => trivial
    | commit => trivial
    | rollback => trivial

theorem issues_bind {p : Prog S E ε α} {f : α → Prog S E ε β} (hp : p.Issues P)
    (hf : ∀ a, (f a).Issues P) : (p.bind f).Issues P := by
  induction p with
  | ret a => exact hf a
  | fail e => trivial
  | op o k ih => exact ⟨hp.1, fun r => ih r (hp.2 r)⟩

theorem issues_attempt {p : Prog S E ε α} (hp : p.Issues P) :
    (p.attempt : Prog S E ε' (Except ε α)).Issues P := by
  induction p with
  | ret a => trivial
  | fail e => trivial
  | op o k ih => exact ⟨hp.1, fun r => ih r (hp.2 r)⟩

@[simp] theorem issues_ofExcept (r : Except ε α) : (ofExcept r : Prog S E ε α).Issues P := by
  cases r <;> trivial

theorem issues_ask {q : S α} (h : P q) : (ask q : Prog S E ε (Except E α)).Issues P :=
  ⟨h, fun _ => trivial⟩

theorem issues_sql {wrap : E → ε} {q : S α} (h : P q) : (sql wrap q).Issues P := by
  refine ⟨h, fun r => ?_⟩
  cases r <;> trivial

@[simp] theorem issues_commit {wrap : E → ε} : (commit wrap : Prog S E ε Unit).Issues P := by
  refine ⟨trivial, fun r => ?_⟩
  cases r <;> trivial

theorem issues_inTx {wrap : E → ε} {body : Prog S E ε α} (h : body.Issues P) :
    (inTx wrap body).Issues P := by
  refine ⟨trivial, fun r => ?_⟩
  cases r with
  | error e => trivial
  | ok _ =>
    exact issues_bind (issues_attempt h) fun r => ⟨trivial, fun _ => issues_ofExcept r⟩

/-- The program is a body: statements only, no transaction begins or ends in it. -/
def Body : Prog S E ε α → Prop
  | .ret _ => True
  | .fail _ => True
  | .op o k => (∃ q, o = .stmt q) ∧ ∀ r, (k r).Body

theorem body_bind {p : Prog S E ε α} {f : α → Prog S E ε β} (hp : p.Body)
    (hf : ∀ a, (f a).Body) : (p.bind f).Body := by
  induction p with
  | ret a => exact hf a
  | fail e => trivial
  | op o k ih => exact ⟨hp.1, fun r => ih r (hp.2 r)⟩

theorem body_ask {q : S α} {f : Except E α → Prog S E ε β} (hf : ∀ r, (f r).Body) :
    ((ask q).bind f).Body := ⟨⟨q, rfl⟩, hf⟩

theorem body_sql {wrap : E → ε} {q : S α} {f : α → Prog S E ε β} (hf : ∀ a, (f a).Body) :
    ((sql wrap q).bind f).Body := by
  refine ⟨⟨q, rfl⟩, fun r => ?_⟩
  cases r with
  | error e => trivial
  | ok a => exact hf a

theorem body_attempt {p : Prog S E ε α} (hp : p.Body) :
    (p.attempt : Prog S E ε' (Except ε α)).Body := by
  induction p with
  | ret a => trivial
  | fail e => trivial
  | op o k ih => exact ⟨hp.1, fun r => ih r (hp.2 r)⟩

end Prog

variable {M : Machine S E Env L σ} {P : StmtClass S} {I : σ → Prop}

/-- A body that starts outside a transaction ends outside one. -/
theorem Prog.swp_body {p : Prog S E ε α} (hp : p.Body) {t : Solo E σ} (ht : t.work = none) :
    p.swp M Duty.none (fun _ t' => t'.work = none) t := by
  induction p generalizing t with
  | ret a => exact ht
  | fail e => exact ht
  | op o k ih =>
    obtain ⟨⟨q, rfl⟩, hk⟩ := hp
    obtain ⟨s, w⟩ := t
    obtain rfl : w = none := ht
    intro env _
    refine ⟨trivial, ih _ (hk _) ?_⟩
    cases hx : M.exec q env s <;> simp [soloStep, Solo.view, Solo.put, Solo.abort, hx]

/-- The committed state and the working copy satisfy `I`. -/
def Solo.Holds (I : σ → Prop) (t : Solo E σ) : Prop :=
  I t.db ∧ ∀ v, t.view = .ok v → I v

theorem Solo.holds_idle {s : σ} (h : I s) : (idle s : Solo E σ).Holds I :=
  ⟨h, fun v hv => by rw [← Except.ok.inj hv]; exact h⟩

theorem Solo.holds_tx {s v : σ} (h : I s) (hv : I v) : (tx s v : Solo E σ).Holds I :=
  ⟨h, fun v' hv' => by rw [← Except.ok.inj hv']; exact hv⟩

theorem Solo.Holds.put {t : Solo E σ} (h : t.Holds I) {v : σ} (hv : I v) : (t.put v).Holds I := by
  obtain ⟨s, w⟩ := t
  cases w with
  | none => exact holds_idle hv
  | some _ => exact holds_tx h.1 hv

theorem Solo.Holds.abort {t : Solo E σ} (h : t.Holds I) (e : E) : (t.abort e).Holds I := by
  obtain ⟨s, w⟩ := t
  cases w with
  | none => exact h
  | some _ => exact ⟨h.1, fun v hv => absurd hv (by simp [Solo.abort, Solo.view])⟩

/-- **The frame rule.** An invariant that every statement of the class keeps is kept by every
program that issues only such statements, transactions included. -/
theorem Prog.swp_of_issues {p : Prog S E ε α} {t : Solo E σ} (h : p.Issues P)
    (hP : ∀ {γ : Type} (q : S γ) (env : Env) (v v' : σ) (b : γ), P q → I v →
      M.allowed q env v = true → M.exec q env v = .ok (b, v') → I v')
    (ht : t.Holds I) : p.swp M Duty.none (fun _ t' => t'.Holds I) t := by
  induction p generalizing t with
  | ret a => exact ht
  | fail e => exact ht
  | op o k ih =>
    intro env ha
    refine ⟨trivial, ih _ (h.2 _) ?_⟩
    cases o with
    | stmt q =>
      simp only [soloAllowed] at ha
      simp only [soloStep]
      cases hv : t.view with
      | error e => exact ht
      | ok v =>
        rw [hv] at ha
        cases hx : M.exec q env v with
        | error e => simp only [hx]; exact ht.abort e
        | ok r => simp only [hx]; exact ht.put (hP q env v r.2 r.1 h.1 (ht.2 v hv) ha hx)
    | begin =>
      simp only [soloStep]
      cases M.down env with
      | some e => exact Solo.holds_idle ht.1
      | none => exact Solo.holds_tx ht.1 ht.1
    | commit =>
      simp only [soloStep]
      cases M.down env with
      | some e => exact Solo.holds_idle ht.1
      | none =>
        cases hv : t.view with
        | error e => exact Solo.holds_idle ht.1
        | ok v => exact Solo.holds_idle (ht.2 v hv)
    | rollback => exact Solo.holds_idle ht.1

end Issues

/-! ## How a program fails -/

section Fails

variable {S : Type → Type} {E ε ε' α β : Type} {P : ε → Prop} {P' : ε' → Prop}

namespace Prog

/-- Whatever the replies, the program fails only as `P` says. -/
def FailsOnly (P : ε → Prop) : Prog S E ε α → Prop
  | .ret _ => True
  | .fail e => P e
  | .op _ k => ∀ r, (k r).FailsOnly P

theorem failsOnly_bind {p : Prog S E ε α} {f : α → Prog S E ε β} (hp : p.FailsOnly P)
    (hf : ∀ a, (f a).FailsOnly P) : (p.bind f).FailsOnly P := by
  induction p with
  | ret a => exact hf a
  | fail e => exact hp
  | op o k ih => exact fun r => ih r (hp r)

/-- A program that looks at the failure of a part. -/
theorem failsOnly_attempt {p : Prog S E ε α} {f : Except ε α → Prog S E ε' β}
    (hp : p.FailsOnly P) (herr : ∀ e, P e → (f (.error e)).FailsOnly P')
    (hok : ∀ a, (f (.ok a)).FailsOnly P') :
    ((p.attempt : Prog S E ε' (Except ε α)).bind f).FailsOnly P' := by
  induction p with
  | ret a => exact hok a
  | fail e => exact herr e hp
  | op o k ih => exact fun r => ih r (hp r)

theorem failsOnly_ask {q : S α} {f : Except E α → Prog S E ε β} (hf : ∀ r, (f r).FailsOnly P) :
    ((ask q).bind f).FailsOnly P := hf

theorem failsOnly_sql {wrap : E → ε} {q : S α} (h : ∀ e, P (wrap e)) :
    (sql wrap q).FailsOnly P := by
  intro r
  cases r with
  | error e => exact h e
  | ok a => trivial

theorem failsOnly_commit {wrap : E → ε} (h : ∀ e, P (wrap e)) :
    (commit wrap : Prog S E ε Unit).FailsOnly P := by
  intro r
  cases r with
  | error e => exact h e
  | ok a => trivial

theorem failsOnly_inTx {wrap : E → ε} {body : Prog S E ε α} (h : ∀ e, P (wrap e))
    (hbody : body.FailsOnly P) : (inTx wrap body).FailsOnly P := by
  intro r
  cases r with
  | error e => exact h e
  | ok _ => exact failsOnly_attempt hbody (fun e he _ => he) fun a _ => trivial

end Prog

end Fails

section Raises

variable {S : Type → Type} {E Env L σ ε ε' α β : Type}

theorem Prog.swp_failsOnly {M : Machine S E Env L σ} {D : Duty S E Env σ} {P : ε → Prop}
    {Q : Except ε α → Solo E σ → Prop} {p : Prog S E ε α} {t : Solo E σ} (hp : p.FailsOnly P)
    (h : p.swp M D Q t) : p.swp M D (fun r t => Q r t ∧ ∀ e, r = .error e → P e) t := by
  induction p generalizing t with
  | ret a => exact ⟨h, fun e he => absurd he (by simp)⟩
  | fail e => exact ⟨h, fun e' he => Except.error.inj he ▸ hp⟩
  | op o k ih => exact fun env ha => ⟨(h env ha).1, ih _ (hp _) (h env ha).2⟩

/-- Where `I` holds the statement leaves a state of which `J` holds, and its errors satisfy `R`. -/
structure Machine.Raises (M : Machine S E Env L σ) (I J : σ → Prop) (R : E → Prop) (q : S β) :
    Prop where
  leaves : ∀ {env v v' b}, I v → M.exec q env v = .ok (b, v') → J v'
  errors : ∀ {env v e}, I v → M.exec q env v = .error e → R e

/-- What the next statement sees satisfies `I`, or the error it is answered with `R`. -/
def Solo.Sound (I : σ → Prop) (R : E → Prop) (t : Solo E σ) : Prop :=
  match t.view with
  | .ok v => I v
  | .error e => R e

/-- As long as the replies that are errors satisfy `R`, the body fails as `P` says. -/
def Prog.Raises (M : Machine S E Env L σ) (I : σ → Prop) (R : E → Prop) (P : ε → Prop) :
    Prog S E ε α → Prop
  | .ret _ => True
  | .fail e => P e
  | .op o k => (∃ q, o = .stmt q ∧ M.Raises I I R q) ∧
      ∀ r, (∀ e, r = .error e → R e) → (k r).Raises M I R P

variable {M : Machine S E Env L σ} {I J : σ → Prop} {R : E → Prop} {P : ε → Prop}

theorem Prog.raises_bind {p : Prog S E ε α} {f : α → Prog S E ε β} (hp : p.Raises M I R P)
    (hf : ∀ a, (f a).Raises M I R P) : (p.bind f).Raises M I R P := by
  induction p with
  | ret a => exact hf a
  | fail e => exact hp
  | op o k ih => exact ⟨hp.1, fun r hr => ih r (hp.2 r hr)⟩

theorem Prog.raises_ask {q : S α} {f : Except E α → Prog S E ε β} (hq : M.Raises I I R q)
    (herr : ∀ e, R e → (f (.error e)).Raises M I R P) (hok : ∀ a, (f (.ok a)).Raises M I R P) :
    ((ask q).bind f).Raises M I R P := by
  refine ⟨⟨q, rfl, hq⟩, fun r hr => ?_⟩
  cases r with
  | error e => exact herr e (hr e rfl)
  | ok a => exact hok a

theorem Prog.raises_sql {wrap : E → ε} {q : S α} (hq : M.Raises I I R q)
    (herr : ∀ e, R e → P (wrap e)) : (sql wrap q).Raises M I R P := by
  refine ⟨⟨q, rfl, hq⟩, fun r hr => ?_⟩
  cases r with
  | error e => exact herr e (hr e rfl)
  | ok a => trivial

theorem Solo.Sound.step {q : S β} {t : Solo E σ} (ht : t.Sound I R) (hq : M.Raises I J R q)
    (env : Env) :
    (∀ e, (soloStep M (.stmt q) env t).1 = .error e →
      R e ∧ (soloStep M (.stmt q) env t).2.Sound I R) ∧
    ∀ b, (soloStep M (.stmt q) env t).1 = .ok b → (soloStep M (.stmt q) env t).2.Sound J R := by
  obtain ⟨s, w⟩ := t
  unfold Solo.Sound at ht
  cases hv : (⟨s, w⟩ : Solo E σ).view with
  | error e => simp_all [soloStep, Solo.Sound]
  | ok v =>
    rw [hv] at ht
    cases hx : M.exec q env v with
    | error e =>
      have hr := hq.errors ht hx
      cases w <;> simp_all [soloStep, Solo.Sound, Solo.abort, Solo.view]
    | ok r =>
      have hj := hq.leaves ht hx
      cases w <;> simp_all [soloStep, Solo.Sound, Solo.put, Solo.view]

/-- **The rule of errors**, for a body. -/
theorem Prog.swp_of_raises {p : Prog S E ε α} {t : Solo E σ} (h : p.Raises M I R P)
    (ht : t.Sound I R) :
    p.swp M Duty.none (fun r t' => (∀ e, r = .error e → P e) ∧ t'.Sound I R) t := by
  induction p generalizing t with
  | ret a => exact ⟨fun e he => absurd he (by simp), ht⟩
  | fail e => exact ⟨fun e' he => Except.error.inj he ▸ h, ht⟩
  | op o k ih =>
    obtain ⟨⟨q, rfl, hq⟩, hk⟩ := h
    intro env _
    obtain ⟨herr, hok⟩ := ht.step hq env
    refine ⟨trivial, ih _ (hk _ fun e he => (herr e he).1) ?_⟩
    cases hr : (soloStep M (.stmt q) env t).1 with
    | error e => exact (herr e hr).2
    | ok b => exact hok b hr

/-- A part that only fails as `P` says, then the rest. -/
theorem Prog.swp_bind_raises {p : Prog S E ε α} {f : α → Prog S E ε β}
    {Q : Except ε β → Solo E σ → Prop} {t : Solo E σ} (hp : p.Raises M I R P) (ht : t.Sound I R)
    (herr : ∀ e t', P e → Q (.error e) t')
    (hf : ∀ a t', t'.Sound I R → (f a).swp M Duty.none Q t') :
    (p.bind f).swp M Duty.none Q t := by
  refine swp_bind (swp_mono (fun r t' h => ?_) (swp_of_raises hp ht))
  cases r with
  | error e => exact herr e t' (h.1 e rfl)
  | ok a => exact hf a t' h.2

/-- A statement that may leave another state than the body's others. -/
theorem Prog.swp_sql_raises {q : S α} {wrap : E → ε} {f : α → Prog S E ε β}
    {Q : Except ε β → Solo E σ → Prop} {t : Solo E σ} (hq : M.Raises I J R q) (ht : t.Sound I R)
    (herr : ∀ e t', R e → Q (.error (wrap e)) t')
    (hf : ∀ a t', t'.Sound J R → (f a).swp M Duty.none Q t') :
    ((sql wrap q).bind f).swp M Duty.none Q t := by
  intro env _
  obtain ⟨he, hok⟩ := ht.step hq env
  refine ⟨trivial, ?_⟩
  cases hr : (soloStep M (.stmt q) env t).1 with
  | error e => exact herr e _ (he e hr).1
  | ok a => exact hf a _ (hok a hr)

/-- The rule of a `commit` that may fail. -/
theorem Prog.swp_commit_raises {wrap : E → ε} {Q : Except ε Unit → Solo E σ → Prop} {t : Solo E σ}
    (hdown : ∀ env e, M.down env = some e → R e) (ht : t.Sound I R)
    (herr : ∀ e t', R e → Q (.error (wrap e)) t') (hok : ∀ t', Q (.ok ()) t') :
    (commit wrap).swp M Duty.none Q t := by
  intro env _
  refine ⟨trivial, ?_⟩
  unfold Solo.Sound at ht
  simp only [soloStep]
  cases hd : M.down env with
  | some e => exact herr e _ (hdown env e hd)
  | none =>
    cases hv : t.view with
    | ok v => exact hok _
    | error e =>
      rw [hv] at ht
      exact herr e _ ht

end Raises

end Antimoney.Lib
