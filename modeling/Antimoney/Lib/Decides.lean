import Antimoney.Lib.Prog

/-!
# Calls that answer exactly when they should

A call decides a condition when it answers if the condition holds and fails if it does not. The
rules follow the program: each place where it may fail has to contradict the condition, and the
condition has to follow from the places that it passed.

* `Machine.unfailing`: the machine whose transaction control statements never fail.
* `Prog.Decides`, with a rule for each way to build a program.
* **`Prog.decides_run`**: what a run of such a call answers.
-/

namespace Antimoney.Lib

variable {S : Type → Type} {E Env L σ ε ε' α β : Type}

/-! ## Nothing fails -/

/-- The machine whose environment answers each statement as `A` says, and lets no transaction
control statement fail. -/
def Machine.unfailing (M : Machine S E Env L σ) (A : ∀ {β : Type}, S β → Env → σ → Bool) :
    Machine S E Env L σ :=
  { M.assuming A with down := fun _ => none }

section Unfailing

variable {M : Machine S E Env L σ} {A : ∀ {β : Type}, S β → Env → σ → Bool}

theorem soloStep_unfailing {β : Type} (o : Op S β) {env : Env} (h : M.down env = none)
    (t : Solo E σ) : soloStep (M.unfailing A) o env t = soloStep M o env t := by
  cases o with
  | stmt q => rfl
  | begin => simp only [soloStep, h, Machine.unfailing]
  | commit => simp only [soloStep, h, Machine.unfailing]
  | rollback => rfl

theorem soloAllowed_unfailing {β : Type} (o : Op S β) (env : Env) (t : Solo E σ) :
    soloAllowed (M.unfailing A) o env t = soloAllowed (M.assuming A) o env t := by
  cases o <;> rfl

theorem Prog.run_unfailing (p : Prog S E ε α) {envs : Nat → Env}
    (h : ∀ n, M.down (envs n) = none) (t : Solo E σ) :
    p.run (M.unfailing A) envs t = p.run M envs t := by
  induction p generalizing envs t with
  | ret a => rfl
  | fail e => rfl
  | op o k ih =>
    simp only [run, soloStep_unfailing o (h 0)]
    exact ih _ (fun n => h (n + 1)) _

theorem Prog.runAllowed_unfailing {p : Prog S E ε α} {envs : Nat → Env}
    (h : ∀ n, M.down (envs n) = none) {t : Solo E σ}
    (ha : p.runAllowed (M.assuming A) envs t = true) :
    p.runAllowed (M.unfailing A) envs t = true := by
  induction p generalizing envs t with
  | ret a => rfl
  | fail e => rfl
  | op o k ih =>
    have ho : soloStep (M.assuming A) o (envs 0) t = soloStep M o (envs 0) t := by cases o <;> rfl
    simp only [runAllowed, Bool.and_eq_true, ho] at ha
    simp only [runAllowed, soloAllowed_unfailing, soloStep_unfailing o (h 0), Bool.and_eq_true]
    exact ⟨ha.1, ih _ (fun n => h (n + 1)) ha.2⟩

/-- What holds for every environment holds when nothing fails. -/
theorem Prog.swp_unfailing {Q : Except ε α → Solo E σ → Prop} {p : Prog S E ε α} {t : Solo E σ}
    (hd : ∃ env, M.down env = none) (h : p.swp M Duty.none Q t) :
    p.swp (M.unfailing A) Duty.none Q t := by
  obtain ⟨quiet, hquiet⟩ := hd
  induction p generalizing t with
  | ret a => exact h
  | fail e => exact h
  | op o k ih =>
    intro env ha
    refine ⟨trivial, ih _ ?_⟩
    rw [soloAllowed_unfailing] at ha
    cases o with
    | stmt q => exact (h env (soloAllowed_of_assuming ha)).2
    | begin =>
      have hb := (h quiet rfl).2
      rwa [← soloStep_unfailing (A := A) (Op.begin : Op S Unit) hquiet] at hb
    | commit =>
      have hc := (h quiet rfl).2
      rwa [← soloStep_unfailing (A := A) (Op.commit : Op S Unit) hquiet] at hc
    | rollback => exact (h env rfl).2

end Unfailing

/-! ## The judgement -/

/-- How a call that decides `C` ends: with an answer of which `Q` holds, if `C` does; else with a
failure. -/
def Decided (C : Prop) (Q : α → Solo E σ → Prop) : Except ε α → Solo E σ → Prop
  | .ok a, t => C ∧ Q a t
  | .error _, _ => ¬ C

/-- **The call decides `C`**, and `Q` holds of its answer. -/
def Prog.Decides (M : Machine S E Env L σ) (C : Prop) (Q : α → Solo E σ → Prop)
    (p : Prog S E ε α) (t : Solo E σ) : Prop :=
  p.swp M Duty.none (Decided C Q) t

namespace Prog

variable {M : Machine S E Env L σ} {C C' : Prop} {Q : α → Solo E σ → Prop}
  {R : β → Solo E σ → Prop} {p : Prog S E ε α} {f : α → Prog S E ε β} {t : Solo E σ} {s v : σ}

theorem decides_ret {a : α} (hC : C) (h : Q a t) : (ret a : Prog S E ε α).Decides M C Q t := ⟨hC, h⟩

theorem decides_fail {e : ε} (hC : ¬ C) : (fail e : Prog S E ε α).Decides M C Q t := hC

theorem Decides.mono {Q' : α → Solo E σ → Prop} (h : p.Decides M C Q t) (hC : C ↔ C')
    (hQ : ∀ a t, C → Q a t → Q' a t) : p.Decides M C' Q' t := by
  refine swp_mono (fun r t' hr => ?_) h
  cases r with
  | error e => exact fun hc => hr (hC.mpr hc)
  | ok a => exact ⟨hC.mp hr.1, hQ a t' hr.1 hr.2⟩

/-- The rule of sequencing: the first part decides what the whole needs of it. -/
theorem decides_bind (hp : p.Decides M C Q t) (hC : C' → C)
    (hf : ∀ a t', C → Q a t' → (f a).Decides M C' R t') : (p.bind f).Decides M C' R t := by
  refine swp_bind (swp_mono (fun r t' hr => ?_) hp)
  cases r with
  | error e => exact fun hc => hr (hC hc)
  | ok a => exact hf a t' hr.1 hr.2

/-- The rule of a statement whose error the call looks at. -/
theorem decides_ask {γ : Type} {q : S γ} {f : Except E γ → Prog S E ε α} (hv : t.view = .ok v)
    (herr : ∀ env e, M.allowed q env v = true → M.exec q env v = .error e →
      (f (.error e)).Decides M C Q (t.abort e))
    (hok : ∀ env b v', M.allowed q env v = true → M.exec q env v = .ok (b, v') →
      (f (.ok b)).Decides M C Q (t.put v')) : ((ask q).bind f).Decides M C Q t :=
  swp_ask hv (fun _ _ => trivial) herr hok

/-- The rule of a statement whose error ends the call. -/
theorem decides_sql {γ : Type} {q : S γ} {wrap : E → ε} {f : γ → Prog S E ε α}
    (hv : t.view = .ok v)
    (herr : ∀ env e, M.allowed q env v = true → M.exec q env v = .error e → ¬ C)
    (hok : ∀ env b v', M.allowed q env v = true → M.exec q env v = .ok (b, v') →
      (f b).Decides M C Q (t.put v')) : ((sql wrap q).bind f).Decides M C Q t :=
  swp_stmt hv (fun _ _ => trivial) herr hok

/-- The rule of a transaction, of a machine whose control statements do not fail. -/
theorem decides_inTx {wrap : E → ε} (hdown : ∀ env, M.down env = none)
    (hbody : p.Decides M C (fun a t' => Q a (.idle t'.db)) (.tx s s)) :
    (inTx wrap p).Decides M C Q (.idle s) := by
  refine swp_inTx_down (fun _ _ => trivial) (fun _ _ => trivial) (fun env e he => ?_) ?_
  · exact absurd (he.symm.trans (hdown env)) (by simp)
  · refine swp_mono (fun r t' hr => ?_) hbody
    cases r with
    | error e => exact hr
    | ok a => exact hr

theorem decides_commit {wrap : E → ε} {f : Unit → Prog S E ε α} (hdown : ∀ env, M.down env = none)
    (h : (f ()).Decides M C Q (.idle v)) : ((commit wrap).bind f).Decides M C Q (.tx s v) := by
  intro env _
  refine ⟨trivial, ?_⟩
  simp only [soloStep, Solo.view_tx, hdown]
  exact h

/-- **What a run answers.** -/
theorem decides_run {envs : Nat → Env} (h : p.Decides M C Q t)
    (ha : p.runAllowed M envs t = true) :
    ((∃ a, (p.run M envs t).1 = .ok a) ↔ C) ∧
      ∀ a, (p.run M envs t).1 = .ok a → Q a (p.run M envs t).2 := by
  have hrun := run_of_swp h ha
  cases hr : (p.run M envs t).1 with
  | error e =>
    rw [hr] at hrun
    exact ⟨⟨fun ⟨a, hc⟩ => absurd hc (by simp), fun hc => absurd hc hrun⟩,
      fun a hc => absurd hc (by simp)⟩
  | ok a =>
    rw [hr] at hrun
    refine ⟨⟨fun _ => hrun.1, fun _ => ⟨a, rfl⟩⟩, fun a' he => ?_⟩
    exact Except.ok.inj he ▸ hrun.2

end Prog

end Antimoney.Lib
