import Antimoney.Lib.Pool

/-!
# Calls and the locks they hold

A contract that looks at locks (`LockContract`): what the others may do to the state depends on the
locks a call holds, and what a call does is said with the locks it does it under. Where locks of
two calls conflict, the second waits, so a call may rely on what nobody does without a lock that
conflicts with one of its own.

* `Prog.lwp`: the call keeps the contract from here on, with a rule for each way to build a
  program.
* **`LockTolerant.lockInv`**: the contracts hold along every interleaving, and no two calls hold
  conflicting locks; **`LockTolerant.guar`**: each step keeps the guarantee of its call.
-/

namespace Antimoney.Lib

variable {S : Type → Type} {E Env L σ ε ε' α β Req : Type}

/-- What a call relies on while it holds locks, and guarantees of an operation under its locks. -/
structure LockContract (S : Type → Type) (E Env L σ : Type) where
  inv : σ → Prop
  rely : List L → σ → σ → Prop
  guar : List L → σ → σ → Prop
  ok : ∀ {β : Type}, S β → Env → σ → Prop
  rely_refl : ∀ held s, rely held s s
  rely_trans : ∀ {held a b c}, rely held a b → rely held b c → rely held a c
  guar_refl : ∀ held s, inv s → guar held s s

/-- The assumption of a contract about an operation. -/
def LockContract.okOp (C : LockContract S E Env L σ) : Op S β → Env → σ → Prop
  | .stmt q, env, s => C.ok q env s
  | _, _, _ => True

section Lwp

variable (M : Machine S E Env L σ) (C : LockContract S E Env L σ)

/-- The locks an operation is done under: those held, and those of the statement itself. -/
def opLocks (o : Op S β) (env : Env) (ss : Sess E L σ) (s : σ) : List L :=
  ss.held ++ match o with
    | .stmt q =>
      match ss.view s with
      | .ok v => M.locks q env v
      | .error _ => []
    | _ => []

/-- The call keeps its contract from here on, and ends with `Q`. -/
def Prog.lwp (Q : Except ε α → Sess E L σ → σ → Prop) : Prog S E ε α → Sess E L σ → σ → Prop
  | .ret a, ss, s => Q (.ok a) ss s
  | .fail e, ss, s => Q (.error e) ss s
  | .op o k, ss, s => ∀ s', C.rely ss.held s s' → C.inv s' → ∀ env,
      opAllowed M o env ss s' = true → C.okOp o env s' →
      C.inv (opStep M o env ss s').db ∧
        C.guar (opLocks M o env ss s') s' (opStep M o env ss s').db ∧
        (k (opStep M o env ss s').reply).lwp Q (opStep M o env ss s').sess (opStep M o env ss s').db

variable {M C}

theorem Prog.lwp_mono {Q Q' : Except ε α → Sess E L σ → σ → Prop}
    (hQ : ∀ r ss s, Q r ss s → Q' r ss s) {p : Prog S E ε α} {ss : Sess E L σ} {s : σ}
    (h : p.lwp M C Q ss s) : p.lwp M C Q' ss s := by
  induction p generalizing ss s with
  | ret a => exact hQ _ _ _ h
  | fail e => exact hQ _ _ _ h
  | op o k ih =>
    intro s' hs hi env ha hok
    obtain ⟨h1, h2, h3⟩ := h s' hs hi env ha hok
    exact ⟨h1, h2, ih _ h3⟩

/-- The rule of sequencing. -/
theorem Prog.lwp_bind {f : α → Prog S E ε β} {Q : Except ε β → Sess E L σ → σ → Prop}
    {p : Prog S E ε α} {ss : Sess E L σ} {s : σ}
    (h : p.lwp M C (fun r ss s => ((ofExcept r).bind f).lwp M C Q ss s) ss s) :
    (p.bind f).lwp M C Q ss s := by
  induction p generalizing ss s with
  | ret a => exact h
  | fail e => exact h
  | op o k ih =>
    intro s' hs hi env ha hok
    obtain ⟨h1, h2, h3⟩ := h s' hs hi env ha hok
    exact ⟨h1, h2, ih _ h3⟩

/-- The rule of `attempt`. -/
theorem Prog.lwp_attempt {Q : Except ε' (Except ε α) → Sess E L σ → σ → Prop} {p : Prog S E ε α}
    {ss : Sess E L σ} {s : σ} (h : p.lwp M C (fun r ss s => Q (.ok r) ss s) ss s) :
    (p.attempt : Prog S E ε' (Except ε α)).lwp M C Q ss s := by
  induction p generalizing ss s with
  | ret a => exact h
  | fail e => exact h
  | op o k ih =>
    intro s' hs hi env ha hok
    obtain ⟨h1, h2, h3⟩ := h s' hs hi env ha hok
    exact ⟨h1, h2, ih _ h3⟩

/-- What a call keeps from one state on, it keeps from any state the others may leave. -/
theorem Prog.lwp_rely {Q : Except ε α → Sess E L σ → σ → Prop} {p : Prog S E ε α}
    {ss : Sess E L σ} {s s' : σ} (hp : p.Running) (hs : C.rely ss.held s s')
    (h : p.lwp M C Q ss s) : p.lwp M C Q ss s' := by
  cases p with
  | ret a => exact hp.elim
  | fail e => exact hp.elim
  | op o k => exact fun s'' hs' hi env ha hok => h s'' (C.rely_trans hs hs') hi env ha hok

/-- The rule of a statement outside a transaction. -/
theorem Prog.lwp_stmt_idle {γ : Type} {q : S γ} {k : Except E γ → Prog S E ε α}
    {Q : Except ε α → Sess E L σ → σ → Prop} {s : σ}
    (herr : ∀ s' e, C.rely [] s s' → C.inv s' → (k (.error e)).lwp M C Q .idle s')
    (hok : ∀ s' env b s'', C.rely [] s s' → C.inv s' → C.ok q env s' →
      M.exec q env s' = .ok (b, s'') →
      C.inv s'' ∧ C.guar (M.locks q env s') s' s'' ∧ (k (.ok b)).lwp M C Q .idle s'') :
    (Prog.op (.stmt q) k).lwp M C Q .idle s := by
  intro s' hs hi env _ hc
  cases hx : M.exec q env s' with
  | error e =>
    have hd : opStep M (.stmt q) env .idle s' = ⟨.error e, .idle, s'⟩ := by
      simp [opStep, Sess.idle, Sess.view, hx]
    rw [hd]
    exact ⟨hi, C.guar_refl _ _ hi, herr s' e hs hi⟩
  | ok r =>
    have hd : opStep M (.stmt q) env .idle s' = ⟨.ok r.1, .idle, r.2⟩ := by
      simp [opStep, Sess.idle, Sess.view, hx]
    rw [hd]
    exact hok s' env r.1 r.2 hs hi hc hx

/-- The rule of a transaction. -/
theorem Prog.lwp_inTx {wrap : E → ε} {body : Prog S E ε α}
    {Q : Except ε α → Sess E L σ → σ → Prop} {s : σ}
    (herr : ∀ s' e, C.rely [] s s' → C.inv s' → Q (.error (wrap e)) .idle s')
    (hbody : ∀ s', C.rely [] s s' → C.inv s' →
      body.lwp M C (fun r _ s₁ => ∀ s₂, C.inv s₂ → Q r .idle s₂) (.tx .ok []) s') :
    (Prog.inTx wrap body).lwp M C Q .idle s := by
  intro s' hs hi env _ _
  simp only [opStep]
  cases M.down env with
  | some e => exact ⟨hi, C.guar_refl _ _ hi, herr s' e hs hi⟩
  | none =>
    refine ⟨hi, C.guar_refl _ _ hi,
      lwp_bind (lwp_attempt (lwp_mono (fun r ss s₁ h => ?_) (hbody s' hs hi)))⟩
    intro s₂ _ hi₂ env _ _
    refine ⟨hi₂, C.guar_refl _ _ hi₂, ?_⟩
    cases r with
    | ok a => exact h s₂ hi₂
    | error e => exact h s₂ hi₂

/-! ### Inside a transaction -/

/-- The writes of the open transaction, replayed on a state that satisfies `K`, are within `W`. -/
def Sess.PendsOn (K : σ → Prop) (W : σ → σ → Prop) (ss : Sess E L σ) : Prop :=
  ∃ f held, ss = .tx f held ∧ ∀ x y, K x → f x = .ok y → W x y

theorem Sess.pendsOn_begin {K : σ → Prop} {W : σ → σ → Prop} (hW : ∀ x, W x x) :
    (tx .ok [] : Sess E L σ).PendsOn K W :=
  ⟨.ok, [], rfl, fun x _ _ h => Except.ok.inj h ▸ hW x⟩

theorem Sess.PendsOn.mono {K K' : σ → Prop} {W W' : σ → σ → Prop} {ss : Sess E L σ}
    (h : ss.PendsOn K W) (hK : ∀ x, K' x → K x) (hW : ∀ x y, K' x → W x y → W' x y) :
    ss.PendsOn K' W' := by
  obtain ⟨f, held, rfl, hf⟩ := h
  exact ⟨f, held, rfl, fun x y hx hy => hW x y hx (hf x y (hK x hx) hy)⟩

/-- What the others leave true as long as the locks `base` are held. -/
def LockContract.StableUnder (C : LockContract S E Env L σ) (base : List L) (K : σ → Prop) : Prop :=
  ∀ held s s', base ⊆ held → C.rely held s s' → C.inv s' → K s → K s'

/-- **The rule of a statement in a transaction** whose state is known to satisfy `K` as long as the
locks `base` are held. -/
theorem Prog.lwp_stmt_pends {γ : Type} {q : S γ} {k : Except E γ → Prog S E ε α}
    {Q : Except ε α → Sess E L σ → σ → Prop} {K : σ → Prop} {W : σ → σ → Prop}
    {V : σ → σ → σ → Prop} {base : List L} {ss : Sess E L σ} {s : σ}
    (hp : ss.PendsOn K W) (hb : base ⊆ ss.held) (hK : C.StableUnder base K)
    (hs : K s)
    (hw : ∀ env s' v b v' x y z, C.ok q env s' → K s' → W s' v → M.exec q env v = .ok (b, v') →
      K x → W x y → M.write q env v y = .ok z → V s' x z)
    (herr : ∀ ss' s' e, K s' → C.inv s' → ss'.PendsOn K W → base ⊆ ss'.held →
      (k (.error e)).lwp M C Q ss' s')
    (hok : ∀ ss' s' env v b v', K s' → C.inv s' → C.ok q env s' → W s' v →
      M.exec q env v = .ok (b, v') → ss'.PendsOn K (V s') → base ⊆ ss'.held →
      M.locks q env v ⊆ ss'.held → (k (.ok b)).lwp M C Q ss' s') :
    (Prog.op (.stmt q) k).lwp M C Q ss s := by
  obtain ⟨f, held, rfl, hf⟩ := hp
  intro s' hs' hi env _ hc
  have hks := hK held s s' hb hs' hi hs
  cases hfs : f s' with
  | error e =>
    have hd : opStep M (.stmt q) env (.tx f held) s' =
        ⟨.error e, .tx f held, s'⟩ := by
      simp [opStep, hfs]
    rw [hd]
    exact ⟨hi, C.guar_refl _ _ hi, herr _ s' e hks hi ⟨f, held, rfl, hf⟩ hb⟩
  | ok v =>
    cases hx : M.exec q env v with
    | error e =>
      have hd : opStep M (.stmt q) env (.tx f held) s' =
          ⟨.error e, .tx (fun _ => .error e) held, s'⟩ := by
        simp only [opStep, Sess.view_tx, hfs]
        simp [Sess.tx, hx]
      rw [hd]
      exact ⟨hi, C.guar_refl _ _ hi, herr _ s' e hks hi
        ⟨_, held, rfl, fun _ _ _ h => absurd h (by simp)⟩ hb⟩
    | ok r =>
      have hd : opStep M (.stmt q) env (.tx f held) s' =
          ⟨.ok r.1, .tx (fun x => f x >>= M.write q env v) (held ++ M.locks q env v), s'⟩ := by
        simp only [opStep, Sess.view_tx, hfs]
        simp [Sess.tx, hx]
      rw [hd]
      refine ⟨hi, C.guar_refl _ _ hi, hok _ s' env v r.1 r.2 hks hi hc (hf s' v hks hfs) hx
        ⟨_, _, rfl, fun x z hxK hz => ?_⟩ (List.subset_append_of_subset_left _ hb)
        (List.subset_append_right _ _)⟩
      cases hfx : f x with
      | error e =>
        rw [hfx] at hz
        cases hz
      | ok y =>
        rw [hfx] at hz
        exact hw env s' v r.1 r.2 x y z hc hks (hf s' v hks hfs) hx hxK (hf x y hxK hfx) hz

/-- The rule of a body whose statements keep what is pending within `W`. -/
theorem Prog.lwp_body {P : StmtClass S} {K : σ → Prop} {W : σ → σ → Prop} {base : List L}
    (hK : C.StableUnder base K)
    (hw : ∀ {γ : Type} (q : S γ) env s v x y z, P q → C.ok q env s → K x → W x y →
      M.write q env v y = .ok z → W x z)
    {p : Prog S E ε α} (hp : p.Issues P) (hb : p.Body) {ss : Sess E L σ} {s : σ}
    (h : ss.PendsOn K W) (hbase : base ⊆ ss.held) (hs : K s) :
    p.lwp M C (fun _ ss s => ss.PendsOn K W ∧ base ⊆ ss.held ∧ K s) ss s := by
  induction p generalizing ss s with
  | ret a => exact ⟨h, hbase, hs⟩
  | fail e => exact ⟨h, hbase, hs⟩
  | op o k ih =>
    obtain ⟨⟨q, rfl⟩, hb⟩ := hb
    refine lwp_stmt_pends (V := fun _ => W) h hbase hK hs ?_ (fun ss' s' e hs' _ hp' hb' => ?_) ?_
    · intro env s' v b v' x y z hc _ _ _ hx hxy hz
      exact hw q env s' v x y z hp.1 hc hx hxy hz
    · exact ih _ (hp.2 _) (hb _) hp' hb' hs'
    · intro ss' s' env v b v' hs' _ _ _ _ hp' hb' _
      exact ih _ (hp.2 _) (hb _) hp' hb' hs'

/-- The rule of `commit`. -/
theorem Prog.lwp_commit_pends {wrap : E → ε} {Q : Except ε Unit → Sess E L σ → σ → Prop}
    {K : σ → Prop} {W : σ → σ → Prop} {base : List L} {ss : Sess E L σ} {s : σ}
    (hp : ss.PendsOn K W) (hb : base ⊆ ss.held) (hK : C.StableUnder base K)
    (hs : K s) (herr : ∀ s' e, C.inv s' → Q (.error (wrap e)) .idle s')
    (hok : ∀ held s' v, base ⊆ held → C.inv s' → K s' → W s' v →
      C.inv v ∧ C.guar held s' v ∧ Q (.ok ()) .idle v) :
    (Prog.commit wrap).lwp M C Q ss s := by
  obtain ⟨f, held, rfl, hf⟩ := hp
  intro s' hs' hi env _ _
  have hks := hK held s s' hb hs' hi hs
  simp only [opStep, Sess.view_tx]
  cases M.down env with
  | some e => exact ⟨hi, C.guar_refl _ _ hi, herr s' e hi⟩
  | none =>
    cases hfs : f s' with
    | error e => exact ⟨hi, C.guar_refl _ _ hi, herr s' e hi⟩
    | ok v =>
      have hlocks : opLocks M (.commit : Op S Unit) env (.tx f held) s' =
          held := List.append_nil _
      rw [hlocks]
      exact hok held s' v hb hi hks (hf s' v hks hfs)

end Lwp

/-! ## Soundness -/

section Soundness

variable (M : Machine S E Env L σ) (serve : Req → Prog S E ε α)
  (ok : Conf S E L σ ε α Req → PoolEvent Req Env → Prop) (s₀ : σ)

/-- Locks of which none conflicts with any other. -/
def Compatible (M : Machine S E Env L σ) (held held' : List L) : Prop :=
  ∀ l ∈ held, ∀ l' ∈ held', M.conflict l l' = false

/-- What is asked of the contracts of calls that run at once: a call keeps its contract from its
arrival on, and what an operation does under locks is what the others rely on under theirs, when
the locks do not conflict. -/
structure LockTolerant (I : σ → Prop) (C : Req → LockContract S E Env L σ) : Prop where
  start : I s₀
  inv : ∀ r s, (C r).inv s ↔ I s
  sym : ∀ l l', M.conflict l l' = M.conflict l' l
  arrives : ∀ c r, Reach M serve ok s₀ c → ok c (.spawn r) → I c.db →
    (serve r).lwp M (C r) (fun _ _ _ => True) .idle c.db
  supplied : ∀ {c c' : Conf S E L σ ε α Req} {i : Nat} {env : Env} {a : Live S E L σ ε α Req}
    {β : Type} {q : S β}, StepOf M serve ok s₀ c c' i env a (.stmt q) → (C a.req).ok q env c.db
  rely : ∀ {c c' : Conf S E L σ ε α Req} {i j : Nat} {env : Env} {a b : Live S E L σ ε α Req}
    {β : Type} {o : Op S β} {held held' : List L}, StepOf M serve ok s₀ c c' i env a o → i ≠ j →
    c.calls[j]? = some b → I c.db → Compatible M held held' → (C a.req).guar held c.db c'.db →
    (C b.req).rely held' c.db c'.db

/-- Every call keeps its contract, and no two hold conflicting locks. -/
structure LockInv (M : Machine S E Env L σ) (I : σ → Prop) (C : Req → LockContract S E Env L σ)
    (c : Conf S E L σ ε α Req) : Prop where
  inv : I c.db
  lwp : ∀ (i : Nat) (a : Live S E L σ ε α Req), c.calls[i]? = some a →
    a.prog.lwp M (C a.req) (fun _ _ _ => True) a.sess c.db
  apart : ∀ (i j : Nat) (a b : Live S E L σ ε α Req), i ≠ j → c.calls[i]? = some a →
    c.calls[j]? = some b → Compatible M a.sess.held b.sess.held

variable {M serve ok s₀}

/-- A session holds after an operation what the operation was done under, at most. -/
theorem opStep_held (o : Op S β) (env : Env) (ss : Sess E L σ) (s : σ) :
    ∀ l ∈ (opStep M o env ss s).sess.held, l ∈ opLocks M o env ss s := by
  intro l hl
  cases o with
  | stmt q =>
    simp only [opStep] at hl
    cases hv : ss.view s with
    | error e =>
      rw [hv] at hl
      exact List.mem_append_left _ hl
    | ok v =>
      rw [hv] at hl
      simp only [opLocks, hv]
      dsimp only at hl
      split at hl
      · exact List.mem_append_left _ hl
      · exact List.mem_append_left _ hl
      · exact hl
      · exact List.mem_append_left _ hl
  | begin =>
    simp only [opStep] at hl
    split at hl <;> exact absurd hl (by simp [Sess.idle, Sess.tx])
  | commit =>
    simp only [opStep] at hl
    split at hl
    · exact absurd hl (by simp [Sess.idle])
    · split at hl <;> exact absurd hl (by simp [Sess.idle])
  | rollback => exact absurd hl (by simp [opStep, Sess.idle])

/-- A step is taken with the locks of the others apart. -/
theorem Conf.next_compatible {c c' : Conf S E L σ ε α Req} {i : Nat} {env : Env}
    (hn : c.next M serve (.step i env) = some c') {r : Req} {o : Op S β}
    {k : Except E β → Prog S E ε α} {ss : Sess E L σ} (hi : c.calls[i]? = some ⟨r, .op o k, ss⟩)
    {j : Nat} {b : Live S E L σ ε α Req} (hij : i ≠ j) (hj : c.calls[j]? = some b)
    (hap : Compatible M ss.held b.sess.held) : Compatible M (opLocks M o env ss c.db) b.sess.held := by
  simp only [Conf.next, hi] at hn
  split at hn
  · rename_i hen
    rw [Bool.and_eq_true] at hen
    have hmem : ∀ l' ∈ b.sess.held, l' ∈ c.heldByOthers i := by
      intro l' hl'
      refine List.mem_flatMap.mpr ⟨b, ?_, hl'⟩
      exact List.mem_eraseIdx_iff_getElem?.mpr ⟨j, fun h => hij h.symm, hj⟩
    intro l hl l' hl'
    rcases List.mem_append.mp hl with hl | hl
    · exact hap l hl l' hl'
    · have hun := hen.2
      cases o with
      | stmt q =>
        simp only [unblocked] at hun
        dsimp only at hl
        split at hun
        · rename_i v hv
          rw [hv] at hl
          have h₁ := List.all_eq_true.mp (List.all_eq_true.mp hun l hl) l' (hmem l' hl')
          simpa using h₁
        · rename_i e hv
          rw [hv] at hl
          exact absurd hl (by simp)
      | begin => exact absurd hl (by simp)
      | commit => exact absurd hl (by simp)
      | rollback => exact absurd hl (by simp)
  · exact absurd hn (by simp)

variable {I : σ → Prop} {C : Req → LockContract S E Env L σ}

theorem LockTolerant.okOp (t : LockTolerant M serve ok s₀ I C) {c c' : Conf S E L σ ε α Req}
    {i : Nat} {env : Env} {a : Live S E L σ ε α Req} {o : Op S β}
    (h : StepOf M serve ok s₀ c c' i env a o) : (C a.req).okOp o env c.db := by
  cases o with
  | stmt q => exact t.supplied h
  | begin => trivial
  | commit => trivial
  | rollback => trivial

/-- **Rely–guarantee under locks.** -/
theorem LockTolerant.lockInv (t : LockTolerant M serve ok s₀ I C) {c : Conf S E L σ ε α Req}
    (hr : Reach M serve ok s₀ c) : LockInv M I C c := by
  induction hr with
  | start =>
    exact ⟨t.start, fun i a hi => absurd hi (by simp), fun i j a b _ hi => absurd hi (by simp)⟩
  | @event c c' e hc he hn ih =>
    cases e with
    | spawn r =>
      obtain rfl := Option.some.inj hn
      have hcase : ∀ {i : Nat} {a : Live S E L σ ε α Req},
          (c.calls ++ [⟨r, serve r, .idle⟩])[i]? = some a →
          c.calls[i]? = some a ∨ (i = c.calls.length ∧ a = ⟨r, serve r, .idle⟩) := by
        intro i a hi
        rcases Nat.lt_or_ge i c.calls.length with h | h
        · exact .inl (by rwa [List.getElem?_append_left h] at hi)
        · rw [List.getElem?_append_right h] at hi
          obtain ⟨h0, rfl⟩ : i - c.calls.length = 0 ∧ _ := by
            simpa [List.getElem?_singleton] using hi
          exact .inr ⟨by omega, rfl⟩
      refine ⟨ih.inv, fun i a hi => ?_, fun i j a b hij hi hj => ?_⟩
      · rcases hcase hi with hi | ⟨-, rfl⟩
        · exact ih.lwp i a hi
        · exact t.arrives c r hc he ih.inv
      · rcases hcase hi with hi | ⟨hi, rfl⟩
        · rcases hcase hj with hj | ⟨-, rfl⟩
          · exact ih.apart i j a b hij hi hj
          · exact fun _ _ _ hl' => absurd hl' (by simp [Sess.idle])
        · exact fun _ hl => absurd hl (by simp [Sess.idle])
    | step i env =>
      obtain ⟨r, β, o, k, ss, hi, hal, rfl⟩ := Conf.next_step hn
      have hlt : i < c.calls.length := (List.getElem?_eq_some_iff.mp hi).1
      have hstep : StepOf M serve ok s₀ c _ i env ⟨r, .op o k, ss⟩ o := ⟨hc, he, hn, hi, k, rfl⟩
      obtain ⟨h1, h2, h3⟩ := ih.lwp i _ hi c.db ((C r).rely_refl _ _) ((t.inv r _).mpr ih.inv) env
        hal (t.okOp hstep)
      have hfree : ∀ {j : Nat} {b : Live S E L σ ε α Req}, i ≠ j → c.calls[j]? = some b →
          Compatible M (opLocks M o env ss c.db) b.sess.held := fun hij hj =>
        Conf.next_compatible hn hi hij hj (ih.apart i _ _ _ hij hi hj)
      have hcase : ∀ {j : Nat} {b : Live S E L σ ε α Req}, (c.calls.set i
          ⟨r, k (opStep M o env ss c.db).reply, (opStep M o env ss c.db).sess⟩)[j]? = some b →
          (i = j ∧ b = ⟨r, k (opStep M o env ss c.db).reply, (opStep M o env ss c.db).sess⟩) ∨
          (i ≠ j ∧ c.calls[j]? = some b) := by
        intro j b hj
        by_cases hij : i = j
        · subst hij
          rw [List.getElem?_set_self hlt] at hj
          exact .inl ⟨rfl, (Option.some.inj hj).symm⟩
        · rw [List.getElem?_set_ne hij] at hj
          exact .inr ⟨hij, hj⟩
      refine ⟨(t.inv r _).mp h1, fun j b hj => ?_, fun j l a b hjl hj hl => ?_⟩
      · rcases hcase hj with ⟨-, rfl⟩ | ⟨hij, hj⟩
        · exact h3
        · have hb := ih.lwp j b hj
          obtain ⟨br, bp, bs⟩ := b
          cases bp with
          | ret x => trivial
          | fail e => trivial
          | op o' k' =>
            exact Prog.lwp_rely trivial (t.rely hstep hij hj ih.inv (hfree hij hj) h2) hb
      · rcases hcase hj with ⟨rfl, rfl⟩ | ⟨hij, hj⟩
        · rcases hcase hl with ⟨rfl, -⟩ | ⟨hil, hl⟩
          · exact absurd rfl hjl
          · exact fun x hx => hfree hil hl x (opStep_held o env ss c.db x hx)
        · rcases hcase hl with ⟨rfl, rfl⟩ | ⟨-, hl⟩
          · intro x hx y hy
            rw [t.sym]
            exact hfree hij hj y (opStep_held o env ss c.db y hy) x hx
          · exact ih.apart j l a b hjl hj hl

/-- **Every step keeps the guarantee of its call, under the locks it is done under.** -/
theorem LockTolerant.guar (t : LockTolerant M serve ok s₀ I C) {c c' : Conf S E L σ ε α Req}
    (hr : Reach M serve ok s₀ c) {i : Nat} {env : Env} (he : ok c (.step i env))
    (hn : c.next M serve (.step i env) = some c') :
    ∃ (a : Live S E L σ ε α Req) (held : List L), c.calls[i]? = some a ∧
      (C a.req).guar held c.db c'.db := by
  obtain ⟨r, β, o, k, ss, hi, hal, rfl⟩ := Conf.next_step hn
  have hinv := t.lockInv hr
  have hstep : StepOf M serve ok s₀ c _ i env ⟨r, .op o k, ss⟩ o := ⟨hr, he, hn, hi, k, rfl⟩
  exact ⟨_, _, hi, (hinv.lwp i _ hi c.db ((C r).rely_refl _ _) ((t.inv r _).mpr hinv.inv) env hal
    (t.okOp hstep)).2.1⟩

end Soundness

end Antimoney.Lib
