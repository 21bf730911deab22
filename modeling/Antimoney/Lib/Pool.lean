import Antimoney.Lib.Prog

/-!
# Many calls at once

Calls run interleaved, one operation at a time. An open transaction (`Sess.pending`) is kept as the
writes it would commit. Each of its statements replays them on the committed state, so it sees what
others have committed (READ COMMITTED), and `commit` replays them once more; a write that no longer
applies aborts it. Locks are held to the end of the transaction and block what conflicts.

* `Conf.next`: one event of the pool, a call that arrives or an operation of one.
* `Prog.wp`: rely–guarantee reasoning about one call among others, under a `Contract`;
  `Prog.wp_of_issues`, the frame rule for calls known by the statements they issue.
* **`Tolerant.poolInv`**: contracts that tolerate each other make an invariant of every
  interleaving; `Tolerant.guar`: each step keeps the guarantee of its call; `Tolerant.done`: and each
  outcome its postcondition.
* **`swp_of_wp`**: a contract is also about the call that runs alone.
-/

namespace Antimoney.Lib

variable {S : Type → Type} {E Env L σ ε ε' α β Req : Type}

/-- The session of a call: the writes of its open transaction, and the locks it holds. -/
structure Sess (E L σ : Type) where
  pending : Option (σ → Except E σ)
  held : List L

/-- Outside a transaction. -/
def Sess.idle : Sess E L σ := ⟨none, []⟩

/-- In a transaction that would commit `f`. -/
def Sess.tx (f : σ → Except E σ) (held : List L) : Sess E L σ := ⟨some f, held⟩

/-- What the next statement of the session sees. -/
def Sess.view (ss : Sess E L σ) (s : σ) : Except E σ :=
  match ss.pending with
  | none => .ok s
  | some f => f s

@[simp] theorem Sess.view_idle (s : σ) : (idle : Sess E L σ).view s = .ok s := rfl

@[simp] theorem Sess.view_tx (f : σ → Except E σ) (held : List L) (s : σ) :
    (tx f held).view s = f s := rfl

/-- The outcome of an operation: its reply, the session and the committed state after it. -/
structure Done (E L σ β : Type) where
  reply : Except E β
  sess : Sess E L σ
  db : σ

section Step

variable (M : Machine S E Env L σ)

/-- One operation of a session. -/
def opStep : Op S β → Env → Sess E L σ → σ → Done E L σ β
  | .stmt q, env, ss, s =>
    match ss.view s with
    | .error e => ⟨.error e, ss, s⟩
    | .ok v =>
      match ss.pending, M.exec q env v with
      | none, .ok (b, s') => ⟨.ok b, ss, s'⟩
      | none, .error e => ⟨.error e, ss, s⟩
      | some f, .ok (b, _) =>
        ⟨.ok b, .tx (fun x => f x >>= M.write q env v) (ss.held ++ M.locks q env v), s⟩
      | some _, .error e => ⟨.error e, .tx (fun _ => .error e) ss.held, s⟩
  | .begin, env, _, s =>
    match M.down env with
    | some e => ⟨.error e, .idle, s⟩
    | none => ⟨.ok (), .tx .ok [], s⟩
  | .commit, env, ss, s =>
    match M.down env with
    | some e => ⟨.error e, .idle, s⟩
    | none =>
      match ss.view s with
      | .ok v => ⟨.ok (), .idle, v⟩
      | .error e => ⟨.error e, .idle, s⟩
  | .rollback, _, _, s => ⟨.ok (), .idle, s⟩

/-- What the environment may supply to an operation. -/
def opAllowed : Op S β → Env → Sess E L σ → σ → Bool
  | .stmt q, env, ss, s =>
    match ss.view s with
    | .ok v => M.allowed q env v
    | .error _ => true
  | _, _, _, _ => true

/-- The locks an operation needs are not held by `others`. -/
def unblocked : Op S β → Env → Sess E L σ → σ → List L → Bool
  | .stmt q, env, ss, s, others =>
    match ss.view s with
    | .ok v => (M.locks q env v).all fun l => others.all fun l' => !M.conflict l l'
    | .error _ => true
  | _, _, _, _, _ => true

end Step

/-! ## The pool -/

/-- A call in the pool: the request, what is left of its program, its session. -/
structure Live (S : Type → Type) (E L σ ε α Req : Type) where
  req : Req
  prog : Prog S E ε α
  sess : Sess E L σ

/-- A configuration: the committed state and the calls, in order of arrival. -/
structure Conf (S : Type → Type) (E L σ ε α Req : Type) where
  db : σ
  calls : List (Live S E L σ ε α Req)

/-- An event of the pool. -/
inductive PoolEvent (Req Env : Type) where
  | spawn (r : Req)
  | step (i : Nat) (env : Env)

/-- A program that has something left to do. -/
def Prog.Running : Prog S E ε α → Prop
  | .op _ _ => True
  | _ => False

/-- The locks the other calls hold. -/
def Conf.heldByOthers (c : Conf S E L σ ε α Req) (i : Nat) : List L :=
  (c.calls.eraseIdx i).flatMap fun l => l.sess.held

section Pool

variable (M : Machine S E Env L σ) (serve : Req → Prog S E ε α)

/-- One event. A call that has finished, or is blocked, does not step. -/
def Conf.next (c : Conf S E L σ ε α Req) : PoolEvent Req Env → Option (Conf S E L σ ε α Req)
  | .spawn r => some { c with calls := c.calls ++ [⟨r, serve r, .idle⟩] }
  | .step i env =>
    match c.calls[i]? with
    | some ⟨r, .op o k, ss⟩ =>
      if opAllowed M o env ss c.db && unblocked M o env ss c.db (c.heldByOthers i) then
        let d := opStep M o env ss c.db
        some ⟨d.db, c.calls.set i ⟨r, k d.reply, d.sess⟩⟩
      else none
    | _ => none

/-- Several events, each of which is met and happens. -/
def Conf.run (meets : Conf S E L σ ε α Req → PoolEvent Req Env → Bool)
    (c : Conf S E L σ ε α Req) : List (PoolEvent Req Env) → Option (Conf S E L σ ε α Req)
  | [] => some c
  | e :: es => if meets c e then (c.next M serve e).bind fun c' => c'.run meets es else none

/-- The configurations reached from a state with no calls, by events that satisfy `ok`. -/
inductive Reach (ok : Conf S E L σ ε α Req → PoolEvent Req Env → Prop) (s₀ : σ) :
    Conf S E L σ ε α Req → Prop
  | start : Reach ok s₀ ⟨s₀, []⟩
  | event {c c' : Conf S E L σ ε α Req} (e : PoolEvent Req Env) (hr : Reach ok s₀ c) (hok : ok c e)
      (hn : c.next M serve e = some c') : Reach ok s₀ c'

end Pool

/-! ## Contracts -/

/-- What a call relies on and guarantees: an invariant of the committed state, what the steps of
others may do to it, what each of its own operations does, and what it may assume of a statement
and its environment. -/
structure Contract (S : Type → Type) (E Env σ : Type) where
  inv : σ → Prop
  rely : σ → σ → Prop
  guar : ∀ {β : Type}, Op S β → σ → σ → Prop
  ok : ∀ {β : Type}, S β → Env → σ → Prop
  rely_refl : ∀ s, rely s s
  rely_trans : ∀ {a b c}, rely a b → rely b c → rely a c
  guar_refl : ∀ {β : Type} (o : Op S β) s, inv s → guar o s s

/-- The assumption of a contract about an operation. -/
def Contract.okOp (C : Contract S E Env σ) : Op S β → Env → σ → Prop
  | .stmt q, env, s => C.ok q env s
  | _, _, _ => True

section Wp

variable (M : Machine S E Env L σ) (C : Contract S E Env σ)

/-- The call keeps its contract from here on, and ends with `Q`. Before each operation the others
may act as the contract relies on. -/
def Prog.wp (Q : Except ε α → Sess E L σ → σ → Prop) : Prog S E ε α → Sess E L σ → σ → Prop
  | .ret a, ss, s => Q (.ok a) ss s
  | .fail e, ss, s => Q (.error e) ss s
  | .op o k, ss, s => ∀ s', C.rely s s' → C.inv s' → ∀ env, opAllowed M o env ss s' = true →
      C.okOp o env s' →
      C.inv (opStep M o env ss s').db ∧ C.guar o s' (opStep M o env ss s').db ∧
        (k (opStep M o env ss s').reply).wp Q (opStep M o env ss s').sess (opStep M o env ss s').db

variable {M C}

theorem Prog.wp_mono {Q Q' : Except ε α → Sess E L σ → σ → Prop} (hQ : ∀ r ss s, Q r ss s → Q' r ss s)
    {p : Prog S E ε α} {ss : Sess E L σ} {s : σ} (h : p.wp M C Q ss s) : p.wp M C Q' ss s := by
  induction p generalizing ss s with
  | ret a => exact hQ _ _ _ h
  | fail e => exact hQ _ _ _ h
  | op o k ih =>
    intro s' hs hi env ha hok
    obtain ⟨h1, h2, h3⟩ := h s' hs hi env ha hok
    exact ⟨h1, h2, ih _ h3⟩

theorem Prog.wp_failsOnly {P : ε → Prop} {Q : Except ε α → Sess E L σ → σ → Prop}
    {p : Prog S E ε α} {ss : Sess E L σ} {s : σ} (hp : p.FailsOnly P) (h : p.wp M C Q ss s) :
    p.wp M C (fun r ss s => Q r ss s ∧ ∀ e, r = .error e → P e) ss s := by
  induction p generalizing ss s with
  | ret a => exact ⟨h, fun e he => absurd he (by simp)⟩
  | fail e => exact ⟨h, fun e' he => Except.error.inj he ▸ hp⟩
  | op o k ih =>
    intro s' hs hi env ha hok
    obtain ⟨h1, h2, h3⟩ := h s' hs hi env ha hok
    exact ⟨h1, h2, ih _ (hp _) h3⟩

/-- The rule of sequencing. -/
theorem Prog.wp_bind {f : α → Prog S E ε β} {Q : Except ε β → Sess E L σ → σ → Prop}
    {p : Prog S E ε α} {ss : Sess E L σ} {s : σ}
    (h : p.wp M C (fun r ss s => ((ofExcept r).bind f).wp M C Q ss s) ss s) :
    (p.bind f).wp M C Q ss s := by
  induction p generalizing ss s with
  | ret a => exact h
  | fail e => exact h
  | op o k ih =>
    intro s' hs hi env ha hok
    obtain ⟨h1, h2, h3⟩ := h s' hs hi env ha hok
    exact ⟨h1, h2, ih _ h3⟩

/-- The rule of `attempt`. -/
theorem Prog.wp_attempt {Q : Except ε' (Except ε α) → Sess E L σ → σ → Prop} {p : Prog S E ε α}
    {ss : Sess E L σ} {s : σ} (h : p.wp M C (fun r ss s => Q (.ok r) ss s) ss s) :
    (p.attempt : Prog S E ε' (Except ε α)).wp M C Q ss s := by
  induction p generalizing ss s with
  | ret a => exact h
  | fail e => exact h
  | op o k ih =>
    intro s' hs hi env ha hok
    obtain ⟨h1, h2, h3⟩ := h s' hs hi env ha hok
    exact ⟨h1, h2, ih _ h3⟩

/-- What a call is known to keep from one state on, it keeps from any state the others may leave. -/
theorem Prog.wp_rely {Q : Except ε α → Sess E L σ → σ → Prop} {p : Prog S E ε α} {ss : Sess E L σ}
    {s s' : σ} (hp : p.Running) (hs : C.rely s s') (h : p.wp M C Q ss s) : p.wp M C Q ss s' := by
  cases p with
  | ret a => exact hp.elim
  | fail e => exact hp.elim
  | op o k => exact fun s'' hs' hi env ha hok => h s'' (C.rely_trans hs hs') hi env ha hok

/-- The rule of a statement outside a transaction. -/
theorem Prog.wp_stmt_idle {γ : Type} {q : S γ} {k : Except E γ → Prog S E ε α}
    {Q : Except ε α → Sess E L σ → σ → Prop} {s : σ}
    (herr : ∀ s' env e, C.rely s s' → C.inv s' → C.ok q env s' → M.exec q env s' = .error e →
      (k (.error e)).wp M C Q .idle s')
    (hok : ∀ s' env b s'', C.rely s s' → C.inv s' → M.allowed q env s' = true → C.ok q env s' →
      M.exec q env s' = .ok (b, s'') →
      C.inv s'' ∧ C.guar (.stmt q) s' s'' ∧ (k (.ok b)).wp M C Q .idle s'') :
    (Prog.op (.stmt q) k).wp M C Q .idle s := by
  intro s' hs hi env ha hc
  have ha' : M.allowed q env s' = true := ha
  cases hx : M.exec q env s' with
  | error e =>
    have hd : opStep M (.stmt q) env .idle s' = ⟨.error e, .idle, s'⟩ := by
      simp [opStep, Sess.idle, Sess.view, hx]
    rw [hd]
    exact ⟨hi, C.guar_refl _ _ hi, herr s' env e hs hi hc hx⟩
  | ok r =>
    have hd : opStep M (.stmt q) env .idle s' = ⟨.ok r.1, .idle, r.2⟩ := by
      simp [opStep, Sess.idle, Sess.view, hx]
    rw [hd]
    exact hok s' env r.1 r.2 hs hi ha' hc hx

/-- The rule of a statement in a transaction: nothing is committed, the write is kept. -/
theorem Prog.wp_stmt_tx {γ : Type} {q : S γ} {k : Except E γ → Prog S E ε α}
    {Q : Except ε α → Sess E L σ → σ → Prop} {f : σ → Except E σ} {held : List L} {s : σ}
    (herr : ∀ s' e, C.rely s s' → C.inv s' →
      (k (.error e)).wp M C Q (.tx (fun _ => .error e) held) s')
    (hgone : ∀ s' e, C.rely s s' → C.inv s' → f s' = .error e →
      (k (.error e)).wp M C Q (.tx f held) s')
    (hok : ∀ s' env v b v', C.rely s s' → C.inv s' → f s' = .ok v → M.allowed q env v = true →
      C.ok q env s' → M.exec q env v = .ok (b, v') →
      (k (.ok b)).wp M C Q (.tx (fun x => f x >>= M.write q env v) (held ++ M.locks q env v)) s') :
    (Prog.op (.stmt q) k).wp M C Q (.tx f held) s := by
  intro s' hs hi env ha hc
  cases hf : f s' with
  | error e =>
    have hd : opStep M (.stmt q) env (.tx f held) s' = ⟨.error e, .tx f held, s'⟩ := by
      simp [opStep, hf]
    rw [hd]
    exact ⟨hi, C.guar_refl _ _ hi, hgone s' e hs hi hf⟩
  | ok v =>
    have ha' : M.allowed q env v = true := by simpa [opAllowed, hf] using ha
    cases hx : M.exec q env v with
    | error e =>
      have hd : opStep M (.stmt q) env (.tx f held) s' =
          ⟨.error e, .tx (fun _ => .error e) held, s'⟩ := by
        simp only [opStep, Sess.view_tx, hf]
        simp [Sess.tx, hx]
      rw [hd]
      exact ⟨hi, C.guar_refl _ _ hi, herr s' e hs hi⟩
    | ok r =>
      have hd : opStep M (.stmt q) env (.tx f held) s' =
          ⟨.ok r.1, .tx (fun x => f x >>= M.write q env v) (held ++ M.locks q env v), s'⟩ := by
        simp only [opStep, Sess.view_tx, hf]
        simp [Sess.tx, hx]
      rw [hd]
      exact ⟨hi, C.guar_refl _ _ hi, hok s' env v r.1 r.2 hs hi hf ha' hc hx⟩

/-- The rule of a transaction: its body starts with nothing written, and none is open after it. -/
theorem Prog.wp_inTx {wrap : E → ε} {body : Prog S E ε α}
    {Q : Except ε α → Sess E L σ → σ → Prop} {s : σ}
    (herr : ∀ s' e, C.rely s s' → C.inv s' → Q (.error (wrap e)) .idle s')
    (hbody : ∀ s', C.rely s s' → C.inv s' →
      body.wp M C (fun r _ s₁ => ∀ s₂, C.rely s₁ s₂ → C.inv s₂ → Q r .idle s₂) (.tx .ok []) s') :
    (Prog.inTx wrap body).wp M C Q .idle s := by
  intro s' hs hi env _ _
  simp only [opStep]
  cases M.down env with
  | some e => exact ⟨hi, C.guar_refl _ _ hi, herr s' e hs hi⟩
  | none =>
    refine ⟨hi, C.guar_refl _ _ hi, wp_bind (wp_attempt (wp_mono (fun r ss s₁ h => ?_) (hbody s' hs hi)))⟩
    intro s₂ hs₂ hi₂ env _ _
    refine ⟨hi₂, C.guar_refl _ _ hi₂, ?_⟩
    cases r with
    | ok a => exact h s₂ hs₂ hi₂
    | error e => exact h s₂ hs₂ hi₂

/-- The rule of `commit`: the writes are replayed on what is committed by then. -/
theorem Prog.wp_commit {wrap : E → ε} {g : Unit → Prog S E ε α}
    {Q : Except ε α → Sess E L σ → σ → Prop} {f : σ → Except E σ} {held : List L} {s : σ}
    (herr : ∀ s' e, C.rely s s' → C.inv s' → Q (.error (wrap e)) .idle s')
    (hok : ∀ s' v, C.rely s s' → C.inv s' → f s' = .ok v →
      C.inv v ∧ C.guar (.commit : Op S Unit) s' v ∧ (g ()).wp M C Q .idle v) :
    ((Prog.commit wrap).bind g).wp M C Q (.tx f held) s := by
  intro s' hs hi env _ _
  simp only [opStep, Sess.view_tx]
  cases M.down env with
  | some e => exact ⟨hi, C.guar_refl _ _ hi, herr s' e hs hi⟩
  | none =>
    cases hf : f s' with
    | error e => exact ⟨hi, C.guar_refl _ _ hi, herr s' e hs hi⟩
    | ok v => exact hok s' v hs hi hf

end Wp

/-! ## The frame rule -/

section Frame

variable {M : Machine S E Env L σ} {C : Contract S E Env σ} {P : StmtClass S} {W : σ → σ → Prop}
  {R : σ → Prop}

/-- What is known of the committed state is not disturbed by the others. -/
def Contract.Stable (C : Contract S E Env σ) (R : σ → Prop) : Prop :=
  ∀ s s', R s → C.rely s s' → C.inv s' → R s'

/-- The contract with what is known added to the invariant. -/
def Contract.knowing (C : Contract S E Env σ) (R : σ → Prop) : Contract S E Env σ where
  inv s := C.inv s ∧ R s
  rely := C.rely
  guar := C.guar
  ok := C.ok
  rely_refl := C.rely_refl
  rely_trans := C.rely_trans
  guar_refl o s h := C.guar_refl o s h.1

/-- A call may use what it knows as part of the invariant, as long as it keeps it itself. -/
theorem Prog.wp_knowing (hR : C.Stable R) {Q : Except ε α → Sess E L σ → σ → Prop}
    {p : Prog S E ε α} {ss : Sess E L σ} {s : σ} (hs : R s) (h : p.wp M (C.knowing R) Q ss s) :
    p.wp M C Q ss s := by
  induction p generalizing ss s with
  | ret a => exact h
  | fail e => exact h
  | op o k ih =>
    intro s' hr hi env ha hok
    have hok' : (C.knowing R).okOp o env s' := by cases o <;> exact hok
    obtain ⟨⟨h1, hs'⟩, h2, h3⟩ := h s' hr ⟨hi, hR _ _ hs hr hi⟩ env ha hok'
    exact ⟨h1, h2, ih _ hs' h3⟩

/-- What an open transaction would commit is within `W`. -/
def Sess.Within (W : σ → σ → Prop) (ss : Sess E L σ) : Prop :=
  ∀ f, ss.pending = some f → ∀ x y, f x = .ok y → W x y

theorem Sess.within_idle : (idle : Sess E L σ).Within W := fun _ h => absurd h (by simp [idle])

/-- Statements of the class write within `W`, which keeps the invariant and the guarantee. -/
structure Frame (M : Machine S E Env L σ) (C : Contract S E Env σ) (P : StmtClass S)
    (W : σ → σ → Prop) : Prop where
  refl : ∀ x, W x x
  trans : ∀ {x y z}, W x y → W y z → W x z
  write : ∀ {β : Type} (q : S β) (env : Env) (s v v' : σ) (b : β) (x y : σ), P q → C.ok q env s →
    M.allowed q env v = true → M.exec q env v = .ok (b, v') → M.write q env v x = .ok y → W x y
  keeps : ∀ {β : Type} (o : Op S β) (x y : σ), o.Within P → C.inv x → W x y →
    C.inv y ∧ C.guar o x y

/-- One operation of the class. -/
theorem Frame.step (h : Frame M C P W) {o : Op S β} {env : Env} {ss : Sess E L σ} {s : σ}
    (ho : o.Within P) (hss : ss.Within W) (hok : C.okOp o env s)
    (ha : opAllowed M o env ss s = true) :
    W s (opStep M o env ss s).db ∧ (opStep M o env ss s).sess.Within W := by
  cases o with
  | stmt q =>
    obtain ⟨pending, held⟩ := ss
    cases pending with
    | none =>
      have ha' : M.allowed q env s = true := ha
      cases hx : M.exec q env s with
      | error e =>
        simp only [opStep, Sess.view, hx]
        exact ⟨h.refl s, hss⟩
      | ok r =>
        simp only [opStep, Sess.view, hx]
        exact ⟨h.write q env s s r.2 r.1 s r.2 ho hok ha' hx (M.write_self hx), hss⟩
    | some f =>
      cases hf : f s with
      | error e =>
        simp only [opStep, Sess.view, hf]
        exact ⟨h.refl s, hss⟩
      | ok v =>
        have ha' : M.allowed q env v = true := by simpa [opAllowed, Sess.view, hf] using ha
        cases hx : M.exec q env v with
        | error e =>
          simp only [opStep, Sess.view, hf, hx]
          refine ⟨h.refl s, fun g hg x y hxy => ?_⟩
          obtain rfl := Option.some.inj hg
          exact absurd hxy (by simp)
        | ok r =>
          simp only [opStep, Sess.view, hf, hx]
          refine ⟨h.refl s, fun g hg x y hxy => ?_⟩
          obtain rfl := Option.some.inj hg
          cases hfx : f x with
          | error e => exact absurd hxy (by simp [hfx, bind, Except.bind])
          | ok z =>
            have hz : M.write q env v z = .ok y := by simpa [hfx, bind, Except.bind] using hxy
            exact h.trans (hss f rfl x z hfx) (h.write q env s v r.2 r.1 z y ho hok ha' hx hz)
  | begin =>
    simp only [opStep]
    cases M.down env with
    | some e => exact ⟨h.refl s, Sess.within_idle⟩
    | none =>
      refine ⟨h.refl s, fun g hg x y hxy => ?_⟩
      obtain rfl := Option.some.inj hg
      obtain rfl := Except.ok.inj hxy
      exact h.refl _
  | commit =>
    simp only [opStep]
    cases M.down env with
    | some e => exact ⟨h.refl s, Sess.within_idle⟩
    | none =>
      obtain ⟨pending, held⟩ := ss
      cases pending with
      | none => exact ⟨h.refl s, Sess.within_idle⟩
      | some f =>
        cases hf : f s with
        | error e =>
          simp only [Sess.view, hf]
          exact ⟨h.refl s, Sess.within_idle⟩
        | ok v =>
          simp only [Sess.view, hf]
          exact ⟨hss f rfl s v hf, Sess.within_idle⟩
  | rollback => exact ⟨h.refl s, Sess.within_idle⟩

/-- **The frame rule.** A call that issues only statements of the class keeps its contract, and
what it knew of the state. -/
theorem Prog.wp_of_issues (h : Frame M C P W) (hR : C.Stable R)
    (hW : ∀ x y, C.inv x → W x y → R x → R y) {p : Prog S E ε α} (hp : p.Issues P)
    {ss : Sess E L σ} {s : σ} (hss : ss.Within W) (hs : R s) :
    p.wp M C (fun _ ss s => ss.Within W ∧ R s) ss s := by
  induction p generalizing ss s with
  | ret a => exact ⟨hss, hs⟩
  | fail e => exact ⟨hss, hs⟩
  | op o k ih =>
    intro s' hr hi env ha hok
    obtain ⟨hw, hss'⟩ := h.step hp.1 hss hok ha
    obtain ⟨h1, h2⟩ := h.keeps o s' _ hp.1 hi hw
    exact ⟨h1, h2, ih _ (hp.2 _) hss' (hW _ _ hi hw (hR _ _ hs hr hi))⟩

/-- The frame rule, for one statement outside a transaction. -/
theorem Prog.wp_stmt_frame (h : Frame M C P W) (hR : C.Stable R)
    (hW : ∀ x y, C.inv x → W x y → R x → R y) {γ : Type} {q : S γ}
    {k : Except E γ → Prog S E ε α} {Q : Except ε α → Sess E L σ → σ → Prop} {s : σ} (hq : P q)
    (hs : R s) (herr : ∀ env e s, R s → C.inv s → M.exec q env s = .error e →
      (k (.error e)).wp M C Q .idle s)
    (hok : ∀ env b s s', R s → R s' → C.inv s → C.inv s' → C.ok q env s →
      M.exec q env s = .ok (b, s') → (k (.ok b)).wp M C Q .idle s') :
    (Prog.op (.stmt q) k).wp M C Q .idle s := by
  refine wp_stmt_idle (fun s' env e hr hi _ hx => herr env e s' (hR _ _ hs hr hi) hi hx) ?_
  intro s' env b s'' hr hi ha hok' hx
  have hw : W s' s'' := h.write q env s' s' s'' b s' s'' hq hok' ha hx (M.write_self hx)
  have hs' := hR _ _ hs hr hi
  obtain ⟨h1, h2⟩ := h.keeps (.stmt q) s' s'' hq hi hw
  exact ⟨h1, h2, hok env b s' s'' hs' (hW _ _ hi hw hs') hi h1 hok' hx⟩

/-- The frame rule, for a part of a call that opens no transaction. -/
theorem Prog.wp_body_idle (h : Frame M C P W) (hR : C.Stable R)
    (hW : ∀ x y, C.inv x → W x y → R x → R y) {p : Prog S E ε α} (hp : p.Issues P) (hb : p.Body)
    {s : σ} (hs : R s) : p.wp M C (fun _ ss s => ss = .idle ∧ R s) .idle s := by
  induction p generalizing s with
  | ret a => exact ⟨rfl, hs⟩
  | fail e => exact ⟨rfl, hs⟩
  | op o k ih =>
    obtain ⟨⟨q, rfl⟩, hb⟩ := hb
    exact wp_stmt_frame h hR hW hp.1 hs (fun _ e s hs _ _ => ih _ (hp.2 _) (hb _) hs)
      fun _ b _ s _ hs _ _ _ _ => ih _ (hp.2 _) (hb _) hs

/-- The frame rule, for the rest of a call. -/
theorem Prog.wp_frame (h : Frame M C P W) {p : Prog S E ε α} (hp : p.Issues P)
    {ss : Sess E L σ} {s : σ} (hss : ss.Within W) : p.wp M C (fun _ _ _ => True) ss s :=
  wp_mono (fun _ _ _ _ => trivial)
    (wp_of_issues (R := fun _ => True) h (fun _ _ _ _ _ => trivial) (fun _ _ _ _ _ => trivial) hp
      hss trivial)

/-! ### An open transaction -/

/-- The open transaction would commit a change within `W`. -/
def Sess.Pends (W : σ → σ → Prop) (ss : Sess E L σ) : Prop :=
  ∃ f held, ss = .tx f held ∧ ∀ x y, f x = .ok y → W x y

theorem Sess.pends_begin (hW : ∀ x, W x x) : (tx .ok [] : Sess E L σ).Pends W :=
  ⟨_, _, rfl, fun x y h => by rw [← Except.ok.inj h]; exact hW x⟩

/-- A statement in the transaction: it saw the committed state changed within `W`, and what would
be committed is then within `V`, which may depend on what it saw. -/
theorem Prog.wp_stmt_pends {γ : Type} {q : S γ} {k : Except E γ → Prog S E ε α}
    {Q : Except ε α → Sess E L σ → σ → Prop} {V : σ → σ → σ → Prop} {ss : Sess E L σ} {s : σ}
    (hR : C.Stable R) (h : ss.Pends W) (hs : R s)
    (hw : ∀ env v v' b s x y z, C.ok q env s → M.exec q env v = .ok (b, v') → W s v → W x y →
      M.write q env v y = .ok z → V v x z)
    (herr : ∀ e ss s, R s → C.inv s → (k (.error e)).wp M C Q ss s)
    (hok : ∀ env b v v' ss s, R s → C.inv s → W s v → C.ok q env s → M.exec q env v = .ok (b, v') →
      ss.Pends (V v) → (k (.ok b)).wp M C Q ss s) :
    (Prog.op (.stmt q) k).wp M C Q ss s := by
  obtain ⟨f, held, rfl, hf⟩ := h
  refine wp_stmt_tx (fun s' e hr hi => herr _ _ _ (hR _ _ hs hr hi) hi)
    (fun s' e hr hi _ => herr _ _ _ (hR _ _ hs hr hi) hi) ?_
  intro s' env v b v' hr hi hv _ hc hx
  refine hok env b v v' _ s' (hR _ _ hs hr hi) hi (hf _ _ hv) hc hx ⟨_, _, rfl, fun x z hz => ?_⟩
  cases hy : f x with
  | error e => exact absurd hz (by simp [hy, Bind.bind, Except.bind])
  | ok y =>
    have hz' : M.write q env v y = .ok z := by simpa [hy, Bind.bind, Except.bind] using hz
    exact hw env v v' b s' x y z hc hx (hf _ _ hv) (hf _ _ hy) hz'

/-- A body in the transaction: what it wrote so far is within `W`, and its statements keep that. -/
theorem Prog.wp_body (hR : C.Stable R)
    (hw : ∀ {γ : Type} (q : S γ) env v v' b s x y z, P q → C.ok q env s →
      M.exec q env v = .ok (b, v') → W x y → M.write q env v y = .ok z → W x z)
    {p : Prog S E ε α} (hp : p.Issues P) (hb : p.Body) {ss : Sess E L σ} {s : σ}
    (h : ss.Pends W) (hs : R s) : p.wp M C (fun _ ss s => ss.Pends W ∧ R s) ss s := by
  induction p generalizing ss s with
  | ret a => exact ⟨h, hs⟩
  | fail e => exact ⟨h, hs⟩
  | op o k ih =>
    obtain ⟨⟨q, rfl⟩, hb⟩ := hb
    obtain ⟨f, held, rfl, hf⟩ := h
    refine wp_stmt_tx (fun s' e hr hi => ?_) (fun s' e hr hi _ => ?_) ?_
    · exact ih _ (hp.2 _) (hb _) ⟨_, _, rfl, fun _ _ h => absurd h (by simp)⟩ (hR _ _ hs hr hi)
    · exact ih _ (hp.2 _) (hb _) ⟨f, held, rfl, hf⟩ (hR _ _ hs hr hi)
    · intro s' env v b v' hr hi _ _ hc hx
      refine ih _ (hp.2 _) (hb _) ⟨_, _, rfl, fun x z hz => ?_⟩ (hR _ _ hs hr hi)
      cases hy : f x with
      | error e => exact absurd hz (by simp [hy, Bind.bind, Except.bind])
      | ok y =>
        have hz' : M.write q env v y = .ok z := by simpa [hy, Bind.bind, Except.bind] using hz
        exact hw q env v v' b s' x y z hp.1 hc hx (hf _ _ hy) hz'

/-- The commit of the transaction. -/
theorem Prog.wp_commit_pends {wrap : E → ε} {Q : Except ε Unit → Sess E L σ → σ → Prop}
    {ss : Sess E L σ} {s : σ} (hR : C.Stable R) (h : ss.Pends W) (hs : R s)
    (herr : ∀ e s, R s → C.inv s → Q (.error (wrap e)) .idle s)
    (hok : ∀ s v, R s → C.inv s → W s v →
      C.inv v ∧ C.guar (.commit : Op S Unit) s v ∧ Q (.ok ()) .idle v) :
    (Prog.commit wrap).wp M C Q ss s := by
  obtain ⟨f, held, rfl, hf⟩ := h
  intro s' hr hi env _ _
  have hs' := hR _ _ hs hr hi
  simp only [opStep, Sess.view_tx]
  cases M.down env with
  | some e => exact ⟨hi, C.guar_refl _ _ hi, herr e s' hs' hi⟩
  | none =>
    cases hv : f s' with
    | error e => exact ⟨hi, C.guar_refl _ _ hi, herr e s' hs' hi⟩
    | ok v => exact hok s' v hs' hi (hf _ _ hv)

end Frame

/-! ## Calls that tolerate each other -/

section Soundness

variable {M : Machine S E Env L σ} {serve : Req → Prog S E ε α}
  {ok : Conf S E L σ ε α Req → PoolEvent Req Env → Prop} {s₀ : σ} {I : σ → Prop}
  {C : Req → Contract S E Env σ} {post : Req → Except ε α → σ → Prop}
  {paired : Req → Req → Prop}

/-- What a program that has finished returned. -/
def Prog.outcome : Prog S E ε α → Option (Except ε α)
  | .ret a => some (.ok a)
  | .fail e => some (.error e)
  | .op _ _ => none

theorem Prog.not_running_of_outcome {p : Prog S E ε α} (h : p.outcome.isSome = true) :
    ¬ p.Running := by
  cases p with
  | ret a => exact id
  | fail e => exact id
  | op o k => exact absurd h (by simp [outcome])

/-- The call `a`, at place `i`, takes the pool from `c` to `c'` by its operation `o`. -/
structure StepOf (M : Machine S E Env L σ) (serve : Req → Prog S E ε α)
    (ok : Conf S E L σ ε α Req → PoolEvent Req Env → Prop) (s₀ : σ)
    (c c' : Conf S E L σ ε α Req) (i : Nat) (env : Env) (a : Live S E L σ ε α Req) {β : Type}
    (o : Op S β) : Prop where
  reach : Reach M serve ok s₀ c
  ok : ok c (.step i env)
  next : c.next M serve (.step i env) = some c'
  call : c.calls[i]? = some a
  prog : ∃ k, a.prog = .op o k

/-- What is asked of the contracts of calls that run at once, under events that satisfy `ok`: a
call keeps its contract from its arrival on, every two that run are `paired`, and an operation of
one does to the others what they rely on and to the outcomes of the finished ones nothing. -/
structure Tolerant (M : Machine S E Env L σ) (serve : Req → Prog S E ε α)
    (ok : Conf S E L σ ε α Req → PoolEvent Req Env → Prop) (s₀ : σ) (I : σ → Prop)
    (C : Req → Contract S E Env σ) (post : Req → Except ε α → σ → Prop)
    (paired : Req → Req → Prop) : Prop where
  start : I s₀
  inv : ∀ r s, (C r).inv s ↔ I s
  arrives : ∀ c r, Reach M serve ok s₀ c → ok c (.spawn r) → I c.db →
    (serve r).wp M (C r) (fun x _ s => post r x s) .idle c.db
  pairs : ∀ c r, Reach M serve ok s₀ c → ok c (.spawn r) → ∀ a ∈ c.calls, a.prog.Running →
    paired a.req r ∧ paired r a.req
  supplied : ∀ {c c' : Conf S E L σ ε α Req} {i : Nat} {env : Env} {a : Live S E L σ ε α Req}
    {β : Type} {q : S β}, StepOf M serve ok s₀ c c' i env a (.stmt q) → (C a.req).ok q env c.db
  rely : ∀ {c c' : Conf S E L σ ε α Req} {i j : Nat} {env : Env} {a b : Live S E L σ ε α Req}
    {β : Type} {o : Op S β}, StepOf M serve ok s₀ c c' i env a o → i ≠ j → c.calls[j]? = some b →
    I c.db → (C a.req).guar o c.db c'.db → b.prog.Running → paired b.req a.req →
    (C b.req).rely c.db c'.db
  keep : ∀ {c c' : Conf S E L σ ε α Req} {i j : Nat} {env : Env} {a b : Live S E L σ ε α Req}
    {β : Type} {o : Op S β} {x : Except ε α}, StepOf M serve ok s₀ c c' i env a o → i ≠ j →
    c.calls[j]? = some b → I c.db → (C a.req).guar o c.db c'.db → post b.req x c.db →
    post b.req x c'.db

/-- The calls that still run keep their contracts, from a state since which the others have done
only what they rely on, and every two of them are `paired`. -/
structure PoolInv (M : Machine S E Env L σ) (I : σ → Prop) (C : Req → Contract S E Env σ)
    (post : Req → Except ε α → σ → Prop) (paired : Req → Req → Prop)
    (c : Conf S E L σ ε α Req) : Prop where
  inv : I c.db
  wp : ∀ (i : Nat) (a : Live S E L σ ε α Req), c.calls[i]? = some a →
    a.prog.wp M (C a.req) (fun x _ s => post a.req x s) a.sess c.db
  pairs : ∀ (i j : Nat) (a b : Live S E L σ ε α Req), i ≠ j → c.calls[i]? = some a →
    c.calls[j]? = some b → a.prog.Running → b.prog.Running → paired a.req b.req

/-- A step of the pool is an operation of a call. -/
theorem Conf.next_step {c c' : Conf S E L σ ε α Req} {i : Nat} {env : Env}
    (hn : c.next M serve (.step i env) = some c') :
    ∃ (r : Req) (β : Type) (o : Op S β) (k : Except E β → Prog S E ε α) (ss : Sess E L σ),
      c.calls[i]? = some ⟨r, .op o k, ss⟩ ∧ opAllowed M o env ss c.db = true ∧
      c' = ⟨(opStep M o env ss c.db).db, c.calls.set i
        ⟨r, k (opStep M o env ss c.db).reply, (opStep M o env ss c.db).sess⟩⟩ := by
  simp only [Conf.next] at hn
  split at hn
  · rename_i r β o k ss hi
    split at hn
    · rename_i hen
      simp only [Bool.and_eq_true] at hen
      exact ⟨r, β, o, k, ss, hi, hen.1, (Option.some.inj hn).symm⟩
    · exact absurd hn (by simp)
  · exact absurd hn (by simp)

theorem StepOf.okOp {c c' : Conf S E L σ ε α Req} {i : Nat} {env : Env} {a : Live S E L σ ε α Req}
    {o : Op S β} (h : StepOf M serve ok s₀ c c' i env a o)
    (t : Tolerant M serve ok s₀ I C post paired) : (C a.req).okOp o env c.db := by
  cases o with
  | stmt q => exact t.supplied h
  | begin => trivial
  | commit => trivial
  | rollback => trivial

/-- **Rely–guarantee.** The invariant holds in every configuration of every interleaving. -/
theorem Tolerant.poolInv (t : Tolerant M serve ok s₀ I C post paired)
    {c : Conf S E L σ ε α Req} (hr : Reach M serve ok s₀ c) : PoolInv M I C post paired c := by
  induction hr with
  | start =>
    exact ⟨t.start, fun i a hi => absurd hi (by simp), fun i j a b _ hi => absurd hi (by simp)⟩
  | @event c c' e hc he hn ih =>
    cases e with
    | spawn r =>
      obtain rfl := Option.some.inj hn
      refine ⟨ih.inv, fun i a hi => ?_, fun i j a b hij hi hj ha hb => ?_⟩
      · rcases Nat.lt_or_ge i c.calls.length with h | h
        · rw [List.getElem?_append_left h] at hi
          exact ih.wp i a hi
        · rw [List.getElem?_append_right h] at hi
          obtain ⟨_, rfl⟩ : i - c.calls.length = 0 ∧ _ := by
            simpa [List.getElem?_singleton] using hi
          exact t.arrives c r hc he ih.inv
      · -- the new call is the last one; two old ones were paired before
        rcases Nat.lt_or_ge i c.calls.length with h | h <;>
          rcases Nat.lt_or_ge j c.calls.length with h' | h'
        · rw [List.getElem?_append_left h] at hi
          rw [List.getElem?_append_left h'] at hj
          exact ih.pairs i j a b hij hi hj ha hb
        · rw [List.getElem?_append_left h] at hi
          rw [List.getElem?_append_right h'] at hj
          obtain ⟨_, rfl⟩ : j - c.calls.length = 0 ∧ _ := by
            simpa [List.getElem?_singleton] using hj
          exact (t.pairs c r hc he a (List.mem_of_getElem? hi) ha).1
        · rw [List.getElem?_append_right h] at hi
          rw [List.getElem?_append_left h'] at hj
          obtain ⟨_, rfl⟩ : i - c.calls.length = 0 ∧ _ := by
            simpa [List.getElem?_singleton] using hi
          exact (t.pairs c r hc he b (List.mem_of_getElem? hj) hb).2
        · rw [List.getElem?_append_right h] at hi
          rw [List.getElem?_append_right h'] at hj
          obtain ⟨hi0, -⟩ : i - c.calls.length = 0 ∧ _ := by
            simpa [List.getElem?_singleton] using hi
          obtain ⟨hj0, -⟩ : j - c.calls.length = 0 ∧ _ := by
            simpa [List.getElem?_singleton] using hj
          omega
    | step i env =>
      obtain ⟨r, β, o, k, ss, hi, hal, rfl⟩ := Conf.next_step hn
      have hlt : i < c.calls.length := (List.getElem?_eq_some_iff.mp hi).1
      have hstep : StepOf M serve ok s₀ c _ i env ⟨r, .op o k, ss⟩ o := ⟨hc, he, hn, hi, k, rfl⟩
      have hokop : (C r).okOp o env c.db := hstep.okOp t
      obtain ⟨h1, h2, h3⟩ := ih.wp i _ hi c.db ((C r).rely_refl _) ((t.inv r _).mpr ih.inv) env hal
        hokop
      refine ⟨(t.inv r _).mp h1, fun j b hj => ?_, fun j l a b hjl hj hl ha hb => ?_⟩
      · by_cases hij : i = j
        · subst hij
          rw [List.getElem?_set_self hlt] at hj
          obtain rfl := Option.some.inj hj
          exact h3
        · rw [List.getElem?_set_ne hij] at hj
          have hb := ih.wp j b hj
          obtain ⟨br, bp, bs⟩ := b
          cases bp with
          | ret x => exact t.keep hstep hij hj ih.inv h2 hb
          | fail e => exact t.keep hstep hij hj ih.inv h2 hb
          | op o' k' =>
            refine Prog.wp_rely trivial ?_ hb
            exact t.rely hstep hij hj ih.inv h2 trivial
              (ih.pairs j i _ _ (fun h => hij h.symm) hj hi trivial trivial)
      · -- the call that stepped was running, with the same request
        have back : ∀ {j' : Nat} {a' : Live S E L σ ε α Req},
            (c.calls.set i ⟨r, k (opStep M o env ss c.db).reply,
              (opStep M o env ss c.db).sess⟩)[j']? = some a' → a'.prog.Running →
            ∃ a₀, c.calls[j']? = some a₀ ∧ a₀.prog.Running ∧ a₀.req = a'.req := by
          intro j' a' hj' hrun
          by_cases hij : i = j'
          · subst hij
            rw [List.getElem?_set_self hlt] at hj'
            obtain rfl := Option.some.inj hj'
            exact ⟨_, hi, trivial, rfl⟩
          · rw [List.getElem?_set_ne hij] at hj'
            exact ⟨a', hj', hrun, rfl⟩
        obtain ⟨a₀, hj₀, ha₀, ea⟩ := back hj ha
        obtain ⟨b₀, hl₀, hb₀, eb⟩ := back hl hb
        rw [← ea, ← eb]
        exact ih.pairs j l a₀ b₀ hjl hj₀ hl₀ ha₀ hb₀

/-- **Every step keeps the guarantee of its call.** -/
theorem Tolerant.guar (t : Tolerant M serve ok s₀ I C post paired) {c c' : Conf S E L σ ε α Req}
    (hr : Reach M serve ok s₀ c) {i : Nat} {env : Env} (he : ok c (.step i env))
    (hn : c.next M serve (.step i env) = some c') :
    ∃ (r : Req) (β : Type) (o : Op S β) (k : Except E β → Prog S E ε α) (ss : Sess E L σ),
      c.calls[i]? = some ⟨r, .op o k, ss⟩ ∧ (C r).guar o c.db c'.db := by
  obtain ⟨r, β, o, k, ss, hi, hal, rfl⟩ := Conf.next_step hn
  have hinv := t.poolInv hr
  have hstep : StepOf M serve ok s₀ c _ i env ⟨r, .op o k, ss⟩ o := ⟨hr, he, hn, hi, k, rfl⟩
  have hokop : (C r).okOp o env c.db := hstep.okOp t
  exact ⟨r, β, o, k, ss, hi, (hinv.wp i _ hi c.db ((C r).rely_refl _) ((t.inv r _).mpr hinv.inv) env
    hal hokop).2.1⟩

/-- What holds of the outcome of a finished call. -/
theorem Tolerant.done (t : Tolerant M serve ok s₀ I C post paired) {c : Conf S E L σ ε α Req}
    (hr : Reach M serve ok s₀ c) {i : Nat} {a : Live S E L σ ε α Req} {x : Except ε α}
    (hi : c.calls[i]? = some a) (hx : a.prog.outcome = some x) : post a.req x c.db := by
  have h := (t.poolInv hr).wp i a hi
  obtain ⟨r, p, ss⟩ := a
  cases p with
  | ret b => exact Option.some.inj hx ▸ h
  | fail e => exact Option.some.inj hx ▸ h
  | op o k => exact absurd hx (by simp [Prog.outcome])

end Soundness

/-! ## From one configuration to a later one -/

section Leads

variable {M : Machine S E Env L σ} {serve : Req → Prog S E ε α}
  {ok : Conf S E L σ ε α Req → PoolEvent Req Env → Prop} {s₀ : σ}

theorem Reach.run {meets : Conf S E L σ ε α Req → PoolEvent Req Env → Bool}
    (hm : ∀ c e, meets c e = true → ok c e) {es : List (PoolEvent Req Env)}
    {c c' : Conf S E L σ ε α Req} (hr : Reach M serve ok s₀ c)
    (h : c.run M serve meets es = some c') : Reach M serve ok s₀ c' := by
  induction es generalizing c with
  | nil => exact Option.some.inj h ▸ hr
  | cons e es ih =>
    unfold Conf.run at h
    split at h
    · rename_i he
      obtain ⟨c₁, hn, h⟩ := Option.bind_eq_some_iff.mp h
      exact ih (.event e hr (hm c e he) hn) h
    · exact absurd h (by simp)

/-- `c'` comes from `c` by events that satisfy `ok`. -/
def Conf.Leads (M : Machine S E Env L σ) (serve : Req → Prog S E ε α)
    (ok : Conf S E L σ ε α Req → PoolEvent Req Env → Prop) :
    Conf S E L σ ε α Req → Conf S E L σ ε α Req → Prop :=
  Relation.ReflTransGen fun c c' => ∃ e, ok c e ∧ c.next M serve e = some c'

theorem Reach.leads {c c' : Conf S E L σ ε α Req} (hr : Reach M serve ok s₀ c)
    (h : c.Leads M serve ok c') : Reach M serve ok s₀ c' := by
  induction h with
  | refl => exact hr
  | tail _ hs ih =>
    obtain ⟨e, he, hn⟩ := hs
    exact .event e ih he hn

/-- A preorder that every step follows is followed from any configuration to a later one. -/
theorem Reach.leads_rel {G : σ → σ → Prop} (hrefl : ∀ s, G s s)
    (htrans : ∀ {x y z}, G x y → G y z → G x z)
    (hstep : ∀ {c c' : Conf S E L σ ε α Req} {i : Nat} {env : Env}, Reach M serve ok s₀ c →
      ok c (.step i env) → c.next M serve (.step i env) = some c' → G c.db c'.db)
    {c c' : Conf S E L σ ε α Req} (hr : Reach M serve ok s₀ c) (h : c.Leads M serve ok c') :
    G c.db c'.db := by
  induction h with
  | refl => exact hrefl _
  | @tail c₁ c₂ hl hs ih =>
    obtain ⟨e, he, hn⟩ := hs
    refine htrans ih ?_
    cases e with
    | spawn r =>
      obtain rfl := Option.some.inj hn
      exact hrefl _
    | step i env => exact hstep (hr.leads hl) he hn

/-- A call keeps its place and its request. -/
theorem Conf.Leads.call {c c' : Conf S E L σ ε α Req} (h : c.Leads M serve ok c') {i : Nat}
    {a : Live S E L σ ε α Req} (hi : c.calls[i]? = some a) :
    ∃ a', c'.calls[i]? = some a' ∧ a'.req = a.req := by
  induction h with
  | refl => exact ⟨a, hi, rfl⟩
  | @tail c₁ c₂ _ hs ih =>
    obtain ⟨a', hi', ha'⟩ := ih
    obtain ⟨e, -, hn⟩ := hs
    cases e with
    | spawn r =>
      obtain rfl := Option.some.inj hn
      have hlt : i < c₁.calls.length := (List.getElem?_eq_some_iff.mp hi').1
      exact ⟨a', by rw [List.getElem?_append_left hlt]; exact hi', ha'⟩
    | step j env =>
      obtain ⟨r, β, o, k, ss, hj, -, rfl⟩ := Conf.next_step hn
      by_cases hij : j = i
      · subst hij
        have hlt : j < c₁.calls.length := (List.getElem?_eq_some_iff.mp hi').1
        refine ⟨_, List.getElem?_set_self hlt, ?_⟩
        obtain rfl := Option.some.inj (hi'.symm.trans hj)
        exact ha'
      · exact ⟨a', by rw [List.getElem?_set_ne hij]; exact hi', ha'⟩

end Leads

/-! ## Alone -/

section Alone

/-- The contract of a call with nobody else around. -/
def Contract.alone (S : Type → Type) (E Env σ : Type) : Contract S E Env σ where
  inv _ := True
  rely s s' := s' = s
  guar _ _ _ := True
  ok _ _ _ := True
  rely_refl _ := rfl
  rely_trans h h' := by rw [h', h]
  guar_refl _ _ _ := trivial

/-- A session and the state of a call that runs alone show the same. -/
structure SameView (ss : Sess E L σ) (s : σ) (t : Solo E σ) : Prop where
  db : t.db = s
  work : t.work = ss.pending.map fun f => f s

theorem SameView.view {ss : Sess E L σ} {s : σ} {t : Solo E σ} (h : SameView ss s t) :
    t.view = ss.view s := by
  obtain ⟨db, work⟩ := t
  obtain ⟨pending, held⟩ := ss
  obtain ⟨hd, hw⟩ := h
  obtain rfl : db = s := hd
  obtain rfl : work = _ := hw
  cases pending <;> rfl

theorem sameView_idle (s : σ) : SameView (.idle : Sess E L σ) s (.idle s) := ⟨rfl, rfl⟩

variable {M : Machine S E Env L σ}

/-- One operation alone is one operation of the session. -/
theorem SameView.step {o : Op S β} {env : Env} {ss : Sess E L σ} {s : σ} {t : Solo E σ}
    (h : SameView ss s t) :
    (soloStep M o env t).1 = (opStep M o env ss s).reply ∧
      SameView (opStep M o env ss s).sess (opStep M o env ss s).db (soloStep M o env t).2 := by
  cases o with
  | begin =>
    simp only [soloStep, opStep, h.db]
    cases M.down env with
    | some e => exact ⟨rfl, sameView_idle s⟩
    | none => exact ⟨rfl, ⟨rfl, rfl⟩⟩
  | commit =>
    simp only [soloStep, opStep, h.view, h.db]
    cases M.down env with
    | some e => exact ⟨rfl, sameView_idle s⟩
    | none =>
      cases ss.view s with
      | error e => exact ⟨rfl, sameView_idle s⟩
      | ok v => exact ⟨rfl, sameView_idle v⟩
  | rollback =>
    simp only [soloStep, opStep, h.db]
    exact ⟨trivial, sameView_idle s⟩
  | stmt q =>
    obtain ⟨db, work⟩ := t
    obtain ⟨pending, held⟩ := ss
    obtain ⟨hd, hw⟩ := h
    obtain rfl : db = s := hd
    obtain rfl : work = _ := hw
    cases pending with
    | none =>
      cases hx : M.exec q env db with
      | error e =>
        simp only [soloStep, opStep, Solo.view, Sess.view, Option.map_none, Option.getD_none, hx]
        exact ⟨trivial, ⟨rfl, rfl⟩⟩
      | ok r =>
        simp only [soloStep, opStep, Solo.view, Sess.view, Option.map_none, Option.getD_none, hx]
        exact ⟨trivial, ⟨rfl, rfl⟩⟩
    | some f =>
      cases hf : f db with
      | error e =>
        simp only [soloStep, opStep, Solo.view, Sess.view, Option.map_some, Option.getD_some, hf]
        exact ⟨trivial, ⟨rfl, by simp [hf]⟩⟩
      | ok v =>
        cases hx : M.exec q env v with
        | error e =>
          simp only [soloStep, opStep, Solo.view, Sess.view, Option.map_some, Option.getD_some, hf,
            hx]
          exact ⟨trivial, ⟨rfl, by simp [Solo.abort, Sess.tx]⟩⟩
        | ok r =>
          simp only [soloStep, opStep, Solo.view, Sess.view, Option.map_some, Option.getD_some, hf,
            hx]
          refine ⟨trivial, ⟨rfl, ?_⟩⟩
          have hw : M.write q env v v = .ok r.2 := M.write_self hx
          simp [Solo.put, Sess.tx, hf, hw, bind, Except.bind]

theorem SameView.allowed {o : Op S β} {env : Env} {ss : Sess E L σ} {s : σ} {t : Solo E σ}
    (h : SameView ss s t) : soloAllowed M o env t = opAllowed M o env ss s := by
  cases o with
  | stmt q =>
    cases hv : ss.view s with
    | ok v => simp only [soloAllowed, opAllowed, h.view, hv]
    | error e => simp only [soloAllowed, opAllowed, h.view, hv]
  | begin => rfl
  | commit => rfl
  | rollback => rfl

/-- **A contract is also about the call that runs alone.** -/
theorem Prog.swp_of_wp {Q : Except ε α → Sess E L σ → σ → Prop} {p : Prog S E ε α}
    {ss : Sess E L σ} {s : σ} {t : Solo E σ} (ht : SameView ss s t)
    (h : p.wp M (Contract.alone S E Env σ) Q ss s) :
    p.swp M Duty.none (fun r t' => ∃ ss' s', SameView ss' s' t' ∧ Q r ss' s') t := by
  induction p generalizing ss s t with
  | ret a => exact ⟨ss, s, ht, h⟩
  | fail e => exact ⟨ss, s, ht, h⟩
  | op o k ih =>
    intro env ha
    rw [ht.allowed] at ha
    have hok : (Contract.alone S E Env σ).okOp o env s := by cases o <;> trivial
    obtain ⟨-, -, h3⟩ := h s rfl trivial env ha hok
    have hstep : (soloStep M o env t).1 = (opStep M o env ss s).reply ∧
        SameView (opStep M o env ss s).sess (opStep M o env ss s).db (soloStep M o env t).2 :=
      ht.step
    refine ⟨trivial, ?_⟩
    rw [hstep.1]
    exact ih _ hstep.2 h3

end Alone

end Antimoney.Lib
