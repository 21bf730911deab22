import Antimoney.Lib.Prog

/-!
# How long a run is, and how a transaction ends

The operations a run takes (`Prog.steps`) say where on the stream the next part of a call starts,
so that a condition on a stream can name the operations it is about.

* `run_bind_at`, `run_attempt_at`, `run_inTx`: the run of each form, with its length.
* `run_congr`, `run_bind_agree`: streams that agree as far as a run goes.
* `swp_body_keeps`, `swp_rest`: the rules of a body in an open transaction, and of its end.
* `inTx_error`: a transaction that fails leaves the state.
* `Passes`: a body that returns after a known number of operations, unless one of them is down.
* **`passes_tx`**: a transaction whose body passes commits what the body left.
-/

namespace Antimoney.Lib

open Prog

variable {S : Type → Type} {E Env L σ ε ε' α β : Type} {M : Machine S E Env L σ}

/-- The operations a run takes. -/
def Prog.steps (M : Machine S E Env L σ) : Prog S E ε α → (Nat → Env) → Solo E σ → Nat
  | .ret _, _, _ => 0
  | .fail _, _, _ => 0
  | .op o k, envs, t =>
    (k (soloStep M o (envs 0) t).1).steps M (fun n => envs (n + 1)) (soloStep M o (envs 0) t).2 + 1

/-- **A run of a sequence**, and where its second part starts. -/
theorem Prog.run_bind_at (p : Prog S E ε α) (f : α → Prog S E ε β) (envs : Nat → Env)
    (t : Solo E σ) :
    (p.bind f).run M envs t = ((ofExcept (p.run M envs t).1).bind f).run M
        (fun n => envs (n + p.steps M envs t)) (p.run M envs t).2 ∧
      (p.bind f).runAllowed M envs t = (p.runAllowed M envs t &&
        ((ofExcept (p.run M envs t).1).bind f).runAllowed M
          (fun n => envs (n + p.steps M envs t)) (p.run M envs t).2) ∧
      (p.bind f).steps M envs t = p.steps M envs t + ((ofExcept (p.run M envs t).1).bind f).steps M
        (fun n => envs (n + p.steps M envs t)) (p.run M envs t).2 := by
  induction p generalizing envs t with
  | ret a => simp [steps, run, runAllowed, ofExcept]
  | fail e => simp [steps, run, runAllowed, ofExcept]
  | op o k ih =>
    obtain ⟨hrun, hallowed, hsteps⟩ := ih (soloStep M o (envs 0) t).1 (fun n => envs (n + 1))
      (soloStep M o (envs 0) t).2
    refine ⟨hrun, ?_, ?_⟩
    · simp only [Prog.bind, runAllowed, hallowed, Bool.and_assoc]
      rfl
    · exact (congrArg (· + 1) hsteps).trans (Nat.add_right_comm _ _ _)

/-- A sequence whose first part returns. -/
theorem Prog.run_bind_ok {p : Prog S E ε α} {f : α → Prog S E ε β} {envs : Nat → Env}
    {t t' : Solo E σ} {a : α} (h : p.run M envs t = (.ok a, t')) :
    (p.bind f).run M envs t = (f a).run M (fun n => envs (n + p.steps M envs t)) t' ∧
      (p.bind f).runAllowed M envs t = (p.runAllowed M envs t &&
        (f a).runAllowed M (fun n => envs (n + p.steps M envs t)) t') ∧
      (p.bind f).steps M envs t =
        p.steps M envs t + (f a).steps M (fun n => envs (n + p.steps M envs t)) t' := by
  have hat := run_bind_at (M := M) p f envs t
  rw [h] at hat
  exact hat

/-- A sequence whose first part fails. -/
theorem Prog.run_bind_error {p : Prog S E ε α} {f : α → Prog S E ε β} {envs : Nat → Env}
    {t t' : Solo E σ} {e : ε} (h : p.run M envs t = (.error e, t')) :
    (p.bind f).run M envs t = (.error e, t') := by
  have hat := (run_bind_at (M := M) p f envs t).1
  rw [h] at hat
  exact hat

/-- A sequence that returns, cut after its first part. -/
theorem Prog.run_bind_cut {p : Prog S E ε α} {f : α → Prog S E ε β} {envs : Nat → Env}
    {t t'' : Solo E σ} {b : β} (h : (p.bind f).run M envs t = (.ok b, t'')) :
    ∃ a t', p.run M envs t = (.ok a, t') ∧
      (f a).run M (fun n => envs (n + p.steps M envs t)) t' = (.ok b, t'') := by
  cases hp : p.run M envs t with
  | mk r t' =>
    cases r with
    | error e =>
      rw [run_bind_error hp] at h
      exact absurd (congrArg Prod.fst h) (by simp)
    | ok a => exact ⟨a, t', rfl, (run_bind_ok hp).1 ▸ h⟩

/-- A run looks at the stream as far as it goes. -/
theorem Prog.run_congr (p : Prog S E ε α) {envs envs' : Nat → Env} {t : Solo E σ}
    (h : ∀ k < p.steps M envs t, envs' k = envs k) :
    p.run M envs' t = p.run M envs t ∧ p.steps M envs' t = p.steps M envs t := by
  induction p generalizing envs envs' t with
  | ret a => exact ⟨rfl, rfl⟩
  | fail e => exact ⟨rfl, rfl⟩
  | op o k ih =>
    have h0 : envs' 0 = envs 0 := h 0 (Nat.succ_pos _)
    have hrest : ∀ j < (k (soloStep M o (envs 0) t).1).steps M (fun n => envs (n + 1))
        (soloStep M o (envs 0) t).2, (fun n => envs' (n + 1)) j = (fun n => envs (n + 1)) j :=
      fun j hj => h (j + 1) (Nat.succ_lt_succ hj)
    obtain ⟨hrun, hsteps⟩ := ih _ hrest
    simp only [run, steps, h0]
    exact ⟨hrun, congrArg (· + 1) hsteps⟩

/-- A sequence that returns: its second part starts at some point of the stream, and starts there
on any stream that agrees so far. -/
theorem Prog.run_bind_agree {p : Prog S E ε α} {f : α → Prog S E ε β} {envs : Nat → Env}
    {t t'' : Solo E σ} {b : β} (h : (p.bind f).run M envs t = (.ok b, t'')) :
    ∃ a t' n, (f a).run M (fun k => envs (k + n)) t' = (.ok b, t'') ∧
      p.run M envs t = (.ok a, t') ∧ ∀ envs' : Nat → Env, (∀ k < n, envs' k = envs k) →
        (p.bind f).run M envs' t = (f a).run M (fun k => envs' (k + n)) t' := by
  obtain ⟨a, t', hp, hf⟩ := run_bind_cut h
  refine ⟨a, t', p.steps M envs t, hf, hp, fun envs' hagree => ?_⟩
  obtain ⟨hrun, hsteps⟩ := run_congr p hagree
  rw [hp] at hrun
  rw [(run_bind_ok hrun).1, hsteps]

/-- A run whose value is mapped. -/
theorem Prog.run_map (f : α → β) (p : Prog S E ε α) (envs : Nat → Env) (t : Solo E σ) :
    (p.bind fun a => ret (f a)).run M envs t = ((p.run M envs t).1.map f, (p.run M envs t).2) ∧
      (p.bind fun a => ret (f a)).runAllowed M envs t = p.runAllowed M envs t := by
  obtain ⟨hrun, hallowed, -⟩ := run_bind_at (M := M) p (fun a => ret (f a)) envs t
  rw [hrun, hallowed]
  cases (p.run M envs t).1 with
  | ok a => exact ⟨rfl, Bool.and_true _⟩
  | error e => exact ⟨rfl, Bool.and_true _⟩

/-- What a sequence is allowed, if its first statement succeeds outside a transaction. -/
theorem Prog.allowed_sql {γ : Type} {q : S γ} {wrap : E → ε} {f : γ → Prog S E ε α}
    {envs : Nat → Env} {s v : σ} {b : γ} (h : M.exec q (envs 0) s = .ok (b, v))
    (ha : ((sql wrap q).bind f).runAllowed M envs (.idle s) = true) :
    (f b).runAllowed M (fun n => envs (n + 1)) (.idle v) = true := by
  have hstep : soloStep M (.stmt q) (envs 0) (.idle s) = (.ok b, .idle v) := by
    simp [soloStep, h]
  have hrest := ((Bool.and_eq_true _ _).mp ha).2
  rw [hstep] at hrest
  exact hrest

theorem Prog.steps_attempt (p : Prog S E ε α) (envs : Nat → Env) (t : Solo E σ) :
    (p.attempt : Prog S E ε' (Except ε α)).steps M envs t = p.steps M envs t := by
  induction p generalizing envs t with
  | ret a => rfl
  | fail e => rfl
  | op o k ih =>
    have hk := ih (soloStep M o (envs 0) t).1 (fun n => envs (n + 1)) (soloStep M o (envs 0) t).2
    simp only [attempt, steps, hk]

/-- **A run of a transaction** that begins: `begin`, the body, the deferred rollback. -/
theorem Prog.run_inTx {wrap : E → ε} {body : Prog S E ε α} {envs : Nat → Env} {s : σ}
    (hdown : M.down (envs 0) = none) :
    (inTx wrap body).run M envs (.idle s) =
        ((body.run M (fun n => envs (n + 1)) (.tx s s)).1,
          .idle (body.run M (fun n => envs (n + 1)) (.tx s s)).2.db) ∧
      (inTx wrap body).runAllowed M envs (.idle s) =
        body.runAllowed M (fun n => envs (n + 1)) (.tx s s) ∧
      (inTx wrap body).steps M envs (.idle s) =
        body.steps M (fun n => envs (n + 1)) (.tx s s) + 2 := by
  let undo : Except ε α → Prog S E ε α := fun r => op .rollback fun _ => ofExcept r
  have hundo : ∀ (r : Except ε α) (envs : Nat → Env) (t : Solo E σ),
      (undo r).run M envs t = (r, .idle t.db) ∧ (undo r).runAllowed M envs t = true ∧
        (undo r).steps M envs t = 1 := by
    intro r envs t
    cases r <;> exact ⟨rfl, rfl, rfl⟩
  obtain ⟨hat, hal⟩ := @run_attempt _ _ _ _ _ _ ε _ M body (fun n => envs (n + 1)) (.tx s s)
  obtain ⟨hrun, hallowed, hsteps⟩ := run_bind_ok (f := undo) hat
  have hlen := @steps_attempt _ _ _ _ _ _ ε _ M body (fun n => envs (n + 1)) (.tx s s)
  obtain ⟨hr, ha, hs⟩ := hundo (body.run M (fun n => envs (n + 1)) (.tx s s)).1
    (fun n => envs (n + (body.attempt : Prog S E ε (Except ε α)).steps M
      (fun n => envs (n + 1)) (.tx s s) + 1)) (body.run M (fun n => envs (n + 1)) (.tx s s)).2
  have hbegin : soloStep M (.begin : Op S Unit) (envs 0) (.idle s) = (.ok (), .tx s s) := by
    simp [soloStep, hdown]
  refine ⟨?_, ?_, ?_⟩
  · rw [inTx, run, hbegin]
    exact hrun.trans hr
  · rw [inTx, runAllowed, hbegin, ← hal]
    have : (undo (body.run M (fun n => envs (n + 1)) (.tx s s)).1).runAllowed M
        (fun n => envs (n + (body.attempt : Prog S E ε (Except ε α)).steps M
          (fun n => envs (n + 1)) (.tx s s) + 1)) (body.run M (fun n => envs (n + 1)) (.tx s s)).2 =
        true := ha
    exact hallowed.trans (by rw [this, Bool.and_true])
  · rw [inTx, steps, hbegin]
    exact congrArg (· + 1) (hsteps.trans (by rw [hs, hlen]))

/-! ## Open transactions -/

/-- A transaction is open, and `s` is committed. -/
structure Solo.Open (s : σ) (t : Solo E σ) : Prop where
  db : t.db = s
  work : t.work.isSome = true

theorem Solo.open_tx (s v : σ) : (tx s v : Solo E σ).Open s := ⟨rfl, rfl⟩

/-- A statement leaves an open transaction open, with what the statement left or an error. -/
theorem Solo.Open.step {t : Solo E σ} {s : σ} (h : t.Open s) (q : S β) (env : Env) :
    (soloStep M (.stmt q) env t).2.Open s ∧
      ∀ w, (soloStep M (.stmt q) env t).2.view = .ok w →
        ∃ v b, t.view = .ok v ∧ M.exec q env v = .ok (b, w) := by
  obtain ⟨s', w⟩ := t
  obtain ⟨rfl, hw⟩ := h
  obtain ⟨x, rfl⟩ := Option.isSome_iff_exists.mp hw
  cases x with
  | error e => exact ⟨⟨rfl, rfl⟩, fun w hw => absurd hw (by simp [soloStep, view])⟩
  | ok v =>
    cases hx : M.exec q env v with
    | error e =>
      have hstep : soloStep M (.stmt q) env (.tx s' v) = (.error e, (tx s' v).abort e) := by
        simp [soloStep, hx]
      rw [show (⟨s', some (.ok v)⟩ : Solo E σ) = tx s' v from rfl, hstep]
      exact ⟨⟨rfl, rfl⟩, fun w hw => absurd hw (by simp [view, abort, tx])⟩
    | ok r =>
      have hstep : soloStep M (.stmt q) env (.tx s' v) = (.ok r.1, .tx s' r.2) := by
        simp [soloStep, hx]
      rw [show (⟨s', some (.ok v)⟩ : Solo E σ) = tx s' v from rfl, hstep]
      refine ⟨⟨rfl, rfl⟩, fun w hw => ⟨v, r.1, rfl, ?_⟩⟩
      obtain rfl := Except.ok.inj hw
      exact hx

/-- **A body in a transaction** leaves it open, and keeps what its statements keep. -/
theorem Prog.swp_body_keeps {P : StmtClass S} {I : σ → Prop} {p : Prog S E ε α} (hp : p.Issues P)
    (hb : p.Body)
    (hP : ∀ {γ : Type} (q : S γ) (env : Env) (v v' : σ) (b : γ), P q → I v →
      M.exec q env v = .ok (b, v') → I v')
    {t : Solo E σ} {s : σ} (ht : t.Open s) (hI : ∀ v, t.view = .ok v → I v) :
    p.swp M Duty.none (fun _ t' => t'.Open s ∧ ∀ v, t'.view = .ok v → I v) t := by
  induction p generalizing t with
  | ret a => exact ⟨ht, hI⟩
  | fail e => exact ⟨ht, hI⟩
  | op o k ih =>
    obtain ⟨⟨q, rfl⟩, hk⟩ := hb
    intro env _
    obtain ⟨hopen, hview⟩ := ht.step q env
    refine ⟨trivial, ih _ (hp.2 _) (hk _) hopen fun w hw => ?_⟩
    obtain ⟨v, b, hv, hx⟩ := hview w hw
    exact hP q env v w b hp.1 (hI v hv) hx

/-- In a transaction a body leaves the committed state alone. -/
theorem Prog.swp_body_tx {p : Prog S E ε α} (hp : p.Body) {t : Solo E σ} {s : σ} (ht : t.Open s) :
    p.swp M Duty.none (fun _ t' => t'.Open s) t := by
  induction p generalizing t with
  | ret a => exact ht
  | fail e => exact ht
  | op o k ih =>
    obtain ⟨⟨q, rfl⟩, hk⟩ := hp
    exact fun env _ => ⟨trivial, ih _ (hk _) (ht.step q env).1⟩

/-- The rule of a statement in an open transaction, which may have failed before. -/
theorem Prog.swp_sql_open {γ : Type} {q : S γ} {wrap : E → ε} {f : γ → Prog S E ε α}
    {Q : Except ε α → Solo E σ → Prop} {t : Solo E σ} {s : σ} (ht : t.Open s)
    (herr : ∀ e t', t'.db = s → Q (.error e) t')
    (hok : ∀ env b v v', t.view = .ok v → M.allowed q env v = true →
      M.exec q env v = .ok (b, v') → (f b).swp M Duty.none Q (.tx s v')) :
    ((sql wrap q).bind f).swp M Duty.none Q t := by
  obtain ⟨s', w⟩ := t
  obtain ⟨rfl, hw⟩ := ht
  obtain ⟨x, rfl⟩ := Option.isSome_iff_exists.mp hw
  cases x with
  | error e => exact fun env _ => ⟨trivial, herr _ _ rfl⟩
  | ok v =>
    exact swp_sql (v := v) rfl (fun _ _ => trivial) (fun _ => herr _ _ rfl)
      fun env b v' ha hx => hok env b v v' rfl ha hx

/-- **The end of a transaction**: a body that keeps `I`, and the commit. -/
theorem Prog.swp_rest {P : StmtClass S} {I : σ → Prop} {p : Prog S E ε β} {g : β → α}
    {wrap : E → ε} {Q : Except ε α → Solo E σ → Prop} (hp : p.Issues P) (hb : p.Body)
    (hP : ∀ {γ : Type} (q : S γ) (env : Env) (v v' : σ) (b : γ), P q → I v →
      M.exec q env v = .ok (b, v') → I v')
    {t : Solo E σ} {s : σ} (ht : t.Open s) (hI : ∀ v, t.view = .ok v → I v)
    (herr : ∀ e t', t'.db = s → Q (.error e) t')
    (hok : ∀ a w, I w → Q (.ok (g a)) (.idle w)) :
    (p.bind fun a => (commit wrap).bind fun _ => ret (g a)).swp M Duty.none Q t := by
  refine swp_bind (swp_mono (fun r t' h => ?_) (swp_body_keeps hp hb hP ht hI))
  obtain ⟨hopen, hview⟩ := h
  cases r with
  | error e => exact herr e t' hopen.db
  | ok a =>
    intro env _
    refine ⟨trivial, ?_⟩
    simp only [soloStep]
    cases M.down env with
    | some e => exact herr _ _ hopen.db
    | none =>
      cases hv : t'.view with
      | error e => exact herr _ _ hopen.db
      | ok w => exact hok a w (hview w hv)

/-- Statements neither begin a transaction nor end one. -/
theorem Prog.body_idle_iff {p : Prog S E ε α} (hp : p.Body) {envs : Nat → Env} {t : Solo E σ} :
    (p.run M envs t).2.work = none ↔ t.work = none := by
  induction p generalizing envs t with
  | ret a => rfl
  | fail e => rfl
  | op o k ih =>
    obtain ⟨⟨q, rfl⟩, hk⟩ := hp
    refine (ih _ (hk _)).trans ?_
    obtain ⟨s, w⟩ := t
    dsimp only
    cases hv : (Solo.mk s w).view with
    | error e => rfl
    | ok v =>
      cases hx : M.exec q (envs 0) v with
      | error e => cases w <;> simp [Solo.abort, hx]
      | ok r => cases w <;> simp [Solo.put, hx]

/-- Whatever a call does, something can be said of it. -/
theorem Prog.swp_any (p : Prog S E ε α) (t : Solo E σ) :
    p.swp M Duty.none (fun _ _ => True) t := by
  induction p generalizing t with
  | ret a => trivial
  | fail e => trivial
  | op o k ih => exact fun env _ => ⟨trivial, ih _ _⟩

/-- A call whose last part returns only values of which `P` holds. -/
theorem Prog.swp_returns {P : α → Prop} {p : Prog S E ε β} {f : β → Prog S E ε α} {t : Solo E σ}
    (hf : ∀ b t, (f b).swp M Duty.none (fun r _ => ∀ a, r = .ok a → P a) t) :
    (p.bind f).swp M Duty.none (fun r _ => ∀ a, r = .ok a → P a) t := by
  refine swp_bind (swp_mono (fun r t _ => ?_) (swp_any p t))
  cases r with
  | error e => exact fun a h => absurd h (by simp)
  | ok b => exact hf b t

/-- **A transaction that fails leaves the state.** -/
theorem Prog.inTx_error {wrap wrap' : E → ε} {p : Prog S E ε α} (hp : p.Body) {s : σ}
    {envs : Nat → Env} {e : ε} {t : Solo E σ}
    (h : (inTx wrap (p.bind fun _ => commit wrap')).run M envs (.idle s) = (.error e, t))
    (ha : (inTx wrap (p.bind fun _ => commit wrap')).runAllowed M envs (.idle s) = true) :
    t = .idle s := by
  have hswp : (inTx wrap (p.bind fun _ => commit wrap')).swp M Duty.none
      (fun r t => r = .ok () ∨ t = .idle s) (.idle s) := by
    refine swp_inTx (fun _ _ => trivial) (fun _ _ => trivial) (fun _ => .inr rfl) ?_
    refine swp_bind (swp_mono (fun r t ht => ?_) (swp_body_tx hp (Solo.open_tx s s)))
    obtain ⟨rfl, -⟩ := ht
    cases r with
    | error e => exact .inr rfl
    | ok a =>
      intro env _
      refine ⟨trivial, ?_⟩
      simp only [soloStep]
      cases M.down env with
      | some e => exact .inr rfl
      | none =>
        cases t.view with
        | error e => exact .inr rfl
        | ok v => exact .inl rfl
  have hrun := run_of_swp hswp ha
  rw [h] at hrun
  rcases hrun with hr | ht
  · exact absurd hr (by simp)
  · exact ht

/-! ## Bodies that pass -/

/-- In a transaction that has left `v`, the body returns after `n` operations, unless the
environment of one of them is not up. -/
def Passes (M : Machine S E Env L σ) (up : Env → Bool) (n : Nat) (v : σ) (Q : α → σ → Prop)
    (p : Prog S E ε α) : Prop :=
  ∀ (envs : Nat → Env) (s : σ), (∀ k < n, up (envs k) = true) →
    p.runAllowed M envs (.tx s v) = true →
    ∃ a w, Q a w ∧ p.run M envs (.tx s v) = (.ok a, .tx s w) ∧ p.steps M envs (.tx s v) = n

variable {up : Env → Bool} {n : Nat} {v : σ}

theorem passes_ret {Q : α → σ → Prop} {a : α} (h : Q a v) :
    Passes M up 0 v Q (ret a : Prog S E ε α) :=
  fun _ _ _ _ => ⟨a, v, h, rfl, rfl⟩

theorem passes_sql {Q : α → σ → Prop} {wrap : E → ε} {q : S α}
    (h : ∀ env, up env = true → M.allowed q env v = true →
      ∃ a w, M.exec q env v = .ok (a, w) ∧ Q a w) : Passes M up 1 v Q (sql wrap q) := by
  intro envs s hup ha
  simp only [sql, runAllowed, soloAllowed, Solo.view_tx, Bool.and_eq_true] at ha
  obtain ⟨a, w, hx, hQ⟩ := h (envs 0) (hup 0 Nat.one_pos) ha.1
  have hstep : soloStep M (.stmt q) (envs 0) (.tx s v) = (.ok a, .tx s w) := by
    simp [soloStep, hx]
  refine ⟨a, w, hQ, ?_, ?_⟩
  · rw [sql, run, hstep]
    rfl
  · rw [sql, steps, hstep]
    rfl

theorem passes_bind {m : Nat} {P : α → σ → Prop} {Q : β → σ → Prop} {p : Prog S E ε α}
    {f : α → Prog S E ε β} (hp : Passes M up m v P p)
    (hf : ∀ a w, P a w → Passes M up n w Q (f a)) : Passes M up (m + n) v Q (p.bind f) := by
  intro envs s hup ha
  rw [(run_bind_at p f envs _).2.1, Bool.and_eq_true] at ha
  obtain ⟨a, w, hP, hrun, hlen⟩ := hp envs s (fun k hk => hup k (by omega)) ha.1
  rw [hrun, hlen] at ha
  obtain ⟨b, x, hQ, hrun', hlen'⟩ := hf a w hP (fun k => envs (k + m)) s
    (fun k hk => hup (k + m) (by omega)) ha.2
  obtain ⟨hr, -, hs⟩ := run_bind_ok (f := f) hrun
  rw [hlen] at hr hs
  exact ⟨b, x, hQ, hr.trans hrun', by rw [hs, hlen']⟩

theorem Passes.mono {Q Q' : α → σ → Prop} {p : Prog S E ε α} (h : Passes M up n v Q p)
    (hQ : ∀ a w, Q a w → Q' a w) : Passes M up n v Q' p := by
  intro envs s hup ha
  obtain ⟨a, w, hq, hrest⟩ := h envs s hup ha
  exact ⟨a, w, hQ a w hq, hrest⟩

/-- **A transaction whose body passes commits.** -/
theorem passes_tx {wrap wrap' : E → ε} {Q : α → σ → Prop} {p : Prog S E ε α} {envs : Nat → Env}
    (hp : Passes M up n v Q p) (hdown : ∀ env, up env = true → M.down env = none)
    (hup : ∀ k < n + 2, up (envs k) = true)
    (ha : (inTx wrap (p.bind fun _ => commit wrap')).runAllowed M envs (.idle v) = true) :
    ∃ a w, Q a w ∧
      (inTx wrap (p.bind fun _ => commit wrap')).run M envs (.idle v) = (.ok (), .idle w) ∧
      (inTx wrap (p.bind fun _ => commit wrap')).steps M envs (.idle v) = n + 3 := by
  obtain ⟨hrun, hallowed, hsteps⟩ := @run_inTx _ _ _ _ _ _ _ M wrap (p.bind fun _ => commit wrap') envs v (hdown (envs 0) (hup 0 (by omega)))
  rw [hallowed, (run_bind_at p _ _ _).2.1, Bool.and_eq_true] at ha
  obtain ⟨a, w, hQ, hp', hlen⟩ := hp (fun k => envs (k + 1)) v
    (fun k hk => hup (k + 1) (by omega)) ha.1
  obtain ⟨hr, -, hs⟩ := run_bind_ok (f := fun _ => commit wrap') hp'
  have hcommit : soloStep M (.commit : Op S Unit) (envs (0 + n + 1)) (.tx v w) =
      (.ok (), .idle w) := by
    have hd := hdown (envs (0 + n + 1)) (hup _ (by omega))
    simp only [soloStep, hd, Solo.view_tx]
  have hc : (commit wrap' : Prog S E ε Unit).run M (fun k => envs (k + n + 1)) (.tx v w) =
      (.ok (), .idle w) := by
    rw [commit, run, hcommit]
    rfl
  have hcs : (commit wrap' : Prog S E ε Unit).steps M (fun k => envs (k + n + 1)) (.tx v w) = 1 := by
    rw [commit, steps, hcommit]
    rfl
  rw [hlen] at hr hs
  refine ⟨a, w, hQ, ?_, ?_⟩
  · rw [hrun, hr, hc]
    rfl
  · rw [hsteps, hs, hcs]

end Antimoney.Lib
