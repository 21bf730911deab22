import Antimoney.Lib.Pool
import Mathlib.Algebra.BigOperators.Group.Finset.Basic
import Mathlib.Algebra.BigOperators.Group.Finset.Piecewise
import Mathlib.Algebra.GroupWithZero.Nat

/-!
# The log of a run

`Machine.logged` keeps, beside the state, a log of the statements committed so far: the number of
the call that issued each, and a note of it. What a statement does to the state is unchanged, so
the log only names what has happened, and a property of a history is a property of the log.

* `Machine.logged`; `Numbered`: calls are numbered by their place in the pool.
* **`Reach.logs`**: a step logs under the number of its call only; `sum_countP_id`.
* `Times`: a relation composed with itself a counted number of times.
-/

namespace Antimoney.Lib

variable {S : Type → Type} {E Env L σ ℓ ε α β Req : Type}

/-- A state with the log that led to it, newest first. -/
structure Logged (σ ℓ : Type) where
  data : σ
  log : List (Nat × ℓ)

/-- `y` comes from `x` with entries that satisfy `c` logged. -/
def Logged.Adds (c : Nat × ℓ → Prop) (x y : Logged σ ℓ) : Prop :=
  ∃ es, y.log = es ++ x.log ∧ ∀ e ∈ es, c e

theorem Logged.Adds.refl (c : Nat × ℓ → Prop) (x : Logged σ ℓ) : Adds c x x :=
  ⟨[], rfl, fun _ h => absurd h (by simp)⟩

theorem Logged.Adds.trans {c : Nat × ℓ → Prop} {x y z : Logged σ ℓ} (h : Adds c x y)
    (h' : Adds c y z) : Adds c x z := by
  obtain ⟨es, he, hc⟩ := h
  obtain ⟨es', he', hc'⟩ := h'
  refine ⟨es' ++ es, by rw [he', he, List.append_assoc], fun e hm => ?_⟩
  rcases List.mem_append.mp hm with hm | hm
  · exact hc' e hm
  · exact hc e hm

theorem Logged.Adds.mono {c c' : Nat × ℓ → Prop} (hc : ∀ e, c e → c' e) {x y : Logged σ ℓ}
    (h : Adds c x y) : Adds c' x y := by
  obtain ⟨es, he, h⟩ := h
  exact ⟨es, he, fun e hm => hc e (h e hm)⟩

theorem Logged.Adds.mem {c : Nat × ℓ → Prop} {x y : Logged σ ℓ} (h : Adds c x y) {e : Nat × ℓ}
    (he : e ∈ y.log) : e ∈ x.log ∨ c e := by
  obtain ⟨es, hy, hc⟩ := h
  rw [hy] at he
  rcases List.mem_append.mp he with h | h
  · exact .inr (hc e h)
  · exact .inl h

theorem Logged.Adds.subset {c : Nat × ℓ → Prop} {x y : Logged σ ℓ} (h : Adds c x y) {e : Nat × ℓ}
    (he : e ∈ x.log) : e ∈ y.log := by
  obtain ⟨es, hy, -⟩ := h
  rw [hy]
  exact List.mem_append_right es he

section Machine

variable (M : Machine S E Env L σ) (note : ∀ {β : Type}, S β → Env → σ → ℓ)

/-- The machine that also keeps the log. A step is supplied with the number of its call. -/
def Machine.logged : Machine S E (Nat × Env) L (Logged σ ℓ) where
  exec q env s :=
    (M.exec q env.2 s.data).map fun r => (r.1, ⟨r.2, (env.1, note q env.2 s.data) :: s.log⟩)
  write q env v s :=
    (M.write q env.2 v.data s.data).map fun x => ⟨x, (env.1, note q env.2 v.data) :: s.log⟩
  write_self {_ q env s s' b} h := by
    cases hx : M.exec q env.2 s.data with
    | error e =>
      rw [hx] at h
      exact absurd h (by simp [Except.map])
    | ok r =>
      rw [hx] at h
      obtain ⟨-, rfl⟩ := Prod.mk.inj (Except.ok.inj h)
      rw [M.write_self hx]
      rfl
  locks q env s := M.locks q env.2 s.data
  conflict := M.conflict
  down env := M.down env.2
  allowed q env s := M.allowed q env.2 s.data

variable {M} {note : ∀ {β : Type}, S β → Env → σ → ℓ}

/-- What a logged statement did. -/
theorem Machine.logged_exec {q : S β} {env : Nat × Env} {s s' : Logged σ ℓ} {b : β}
    (h : (M.logged note).exec q env s = .ok (b, s')) :
    M.exec q env.2 s.data = .ok (b, s'.data) ∧
      s'.log = (env.1, note q env.2 s.data) :: s.log := by
  unfold Machine.logged at h
  dsimp only at h
  cases hx : M.exec q env.2 s.data with
  | error e =>
    rw [hx] at h
    exact absurd h (by simp [Except.map])
  | ok r =>
    rw [hx] at h
    obtain ⟨rfl, rfl⟩ := Prod.mk.inj (Except.ok.inj h)
    exact ⟨rfl, rfl⟩

theorem Machine.logged_error {q : S β} {env : Nat × Env} {s : Logged σ ℓ} {e : E}
    (h : (M.logged note).exec q env s = .error e) : M.exec q env.2 s.data = .error e := by
  unfold Machine.logged at h
  dsimp only at h
  cases hx : M.exec q env.2 s.data with
  | error e' =>
    rw [hx] at h
    exact congrArg _ (Except.error.inj h)
  | ok r =>
    rw [hx] at h
    exact absurd h (by simp [Except.map])

/-- What the commit of a logged statement does. -/
theorem Machine.logged_write {q : S β} {env : Nat × Env} {v s s' : Logged σ ℓ}
    (h : (M.logged note).write q env v s = .ok s') :
    M.write q env.2 v.data s.data = .ok s'.data ∧
      s'.log = (env.1, note q env.2 v.data) :: s.log := by
  unfold Machine.logged at h
  dsimp only at h
  cases hx : M.write q env.2 v.data s.data with
  | error e =>
    rw [hx] at h
    exact absurd h (by simp [Except.map])
  | ok r =>
    rw [hx] at h
    obtain rfl := Except.ok.inj h
    exact ⟨rfl, rfl⟩

end Machine

/-! ## Numbered calls -/

/-- A request with the number of its call. -/
structure Arrival (Req : Type) where
  id : Nat
  req : Req

/-- Calls are numbered by their place in the pool, and each step is supplied with the number. -/
def Numbered (c : Conf S E L (Logged σ ℓ) ε α (Arrival Req)) :
    PoolEvent (Arrival Req) (Nat × Env) → Prop
  | .spawn r => r.id = c.calls.length
  | .step i env => env.1 = i

section Numbered

variable {M : Machine S E Env L σ} {note : ∀ {β : Type}, S β → Env → σ → ℓ}
  {serve : Arrival Req → Prog S E ε α}
  {ok : Conf S E L (Logged σ ℓ) ε α (Arrival Req) → PoolEvent (Arrival Req) (Nat × Env) → Prop}
  {s₀ : Logged σ ℓ} {c c' : Conf S E L (Logged σ ℓ) ε α (Arrival Req)}

theorem Reach.id_eq (hok : ∀ c e, ok c e → Numbered c e)
    (hr : Reach (M.logged note) serve ok s₀ c) {i : Nat}
    {a : Live S E L (Logged σ ℓ) ε α (Arrival Req)} (hi : c.calls[i]? = some a) : a.req.id = i := by
  induction hr generalizing i a with
  | start => exact absurd hi (by simp)
  | @event c c' e hc he hn ih =>
    cases e with
    | spawn r =>
      obtain rfl := Option.some.inj hn
      rcases Nat.lt_or_ge i c.calls.length with h | h
      · rw [List.getElem?_append_left h] at hi
        exact ih hi
      · rw [List.getElem?_append_right h] at hi
        obtain ⟨h0, rfl⟩ : i - c.calls.length = 0 ∧ _ := by
          simpa [List.getElem?_singleton] using hi
        have hnum : r.id = c.calls.length := hok _ _ he
        dsimp only
        omega
    | step j env =>
      obtain ⟨r, γ, o, k, ss, hj, -, rfl⟩ := Conf.next_step hn
      by_cases hij : j = i
      · subst hij
        rw [List.getElem?_set_self (List.getElem?_eq_some_iff.mp hj).1] at hi
        obtain rfl := Option.some.inj hi
        have h := ih hj
        exact h
      · rw [List.getElem?_set_ne hij] at hi
        exact ih hi

/-- Two places hold calls with different numbers. -/
theorem StepOf.id_ne (hok : ∀ c e, ok c e → Numbered c e) {i j : Nat} {env : Nat × Env}
    {a b : Live S E L (Logged σ ℓ) ε α (Arrival Req)} {o : Op S β}
    (h : StepOf (M.logged note) serve ok s₀ c c' i env a o) (hij : i ≠ j)
    (hj : c.calls[j]? = some b) : a.req.id ≠ b.req.id := by
  rw [h.reach.id_eq hok h.call, h.reach.id_eq hok hj]
  exact hij

/-- A program issues statements. -/
theorem Prog.issues_true (p : Prog S E ε α) : p.Issues fun _ => True := by
  induction p with
  | ret a => trivial
  | fail e => trivial
  | op o k ih =>
    refine ⟨?_, fun r => ih r⟩
    cases o <;> trivial

/-- The contract of a call about which only its number is known. -/
def Contract.byNumber (S : Type → Type) (E Env σ ℓ : Type) (id : Nat) :
    Contract S E (Nat × Env) (Logged σ ℓ) where
  inv _ := True
  rely _ _ := True
  guar _ x y := Logged.Adds (fun e => e.1 = id) x y
  ok _ env _ := env.1 = id
  rely_refl _ := trivial
  rely_trans _ _ := trivial
  guar_refl _ _ _ := Logged.Adds.refl _ _

theorem frame_byNumber (M : Machine S E Env L σ) (note : ∀ {β : Type}, S β → Env → σ → ℓ)
    (id : Nat) : Frame (M.logged note) (.byNumber S E Env σ ℓ id) (fun _ => True)
      (Logged.Adds fun e => e.1 = id) where
  refl := Logged.Adds.refl _
  trans := Logged.Adds.trans
  write q env s v v' b x y _ hok _ _ hw := by
    refine ⟨[_], (Machine.logged_write hw).2, fun e he => ?_⟩
    rw [List.mem_singleton.mp he]
    exact hok
  keeps _ _ _ _ _ h := ⟨trivial, h⟩

/-- **A step logs under the number of its call.** -/
theorem Reach.logs (hok : ∀ c e, ok c e → Numbered c e)
    (hr : Reach (M.logged note) serve ok s₀ c) {i : Nat} {env : Nat × Env}
    (he : ok c (.step i env)) (hn : c.next (M.logged note) serve (.step i env) = some c') :
    Logged.Adds (fun e => e.1 = i) c.db c'.db := by
  have t : Tolerant (M.logged note) serve ok s₀ (fun _ => True)
      (fun r => .byNumber S E Env σ ℓ r.id) (fun _ _ _ => True) (fun _ _ => True) :=
    { start := trivial
      inv := fun _ _ => Iff.rfl
      arrives := fun c r _ _ _ =>
        Prog.wp_frame (frame_byNumber M note r.id) (Prog.issues_true _) Sess.within_idle
      pairs := fun _ _ _ _ _ _ _ => ⟨trivial, trivial⟩
      supplied := fun h => (hok _ _ h.ok).trans (h.reach.id_eq hok h.call).symm
      rely := fun _ _ _ _ _ _ _ => trivial
      keep := fun _ _ _ _ _ _ => trivial }
  obtain ⟨r, β, o, k, ss, hi, hg⟩ := t.guar hr he hn
  rw [← hr.id_eq hok hi]
  exact hg

/-- The log only grows. -/
theorem Reach.log_mono (hok : ∀ c e, ok c e → Numbered c e)
    (hr : Reach (M.logged note) serve ok s₀ c) (hl : c.Leads (M.logged note) serve ok c') :
    Logged.Adds (fun _ => True) c.db c'.db :=
  hr.leads_rel (Logged.Adds.refl _) Logged.Adds.trans
    (fun hc he hn => (hc.logs hok he hn).mono fun _ _ => trivial) hl

/-- No statement is logged under the number of a call that has not arrived. -/
theorem Reach.log_lt (hok : ∀ c e, ok c e → Numbered c e)
    (hr : Reach (M.logged note) serve ok s₀ c) (h₀ : s₀.log = []) {e : Nat × ℓ}
    (he : e ∈ c.db.log) : e.1 < c.calls.length := by
  induction hr with
  | start =>
    rw [h₀] at he
    exact absurd he (by simp)
  | @event c c' ev hc hev hn ih =>
    cases ev with
    | spawn r =>
      obtain rfl := Option.some.inj hn
      rw [List.length_append]
      exact Nat.lt_add_right _ (ih he)
    | step i env =>
      have hlog := hc.logs hok hev hn
      obtain ⟨r, γ, o, k, ss, hi, -, rfl⟩ := Conf.next_step hn
      rw [List.length_set]
      rcases hlog.mem he with h | h
      · exact ih h
      · rw [h]
        exact (List.getElem?_eq_some_iff.mp hi).1

/-- The entries of a log, counted by the number of their call. -/
theorem sum_countP_id (p : Nat × ℓ → Bool) {l : List (Nat × ℓ)} {n : Nat}
    (h : ∀ e ∈ l, e.1 < n) :
    ((List.range n).map fun i => l.countP fun e => e.1 == i && p e).sum = l.countP p := by
  change (∑ i ∈ Finset.range n, l.countP fun e => e.1 == i && p e) = l.countP p
  induction l with
  | nil => simp
  | cons e l ih =>
    have hl := ih fun e' he' => h e' (.tail _ he')
    have hn : e.1 ∈ Finset.range n := Finset.mem_range.mpr (h e List.mem_cons_self)
    have hone : (∑ i ∈ Finset.range n, if (e.1 == i && p e) = true then 1 else 0) =
        if p e = true then 1 else 0 := by
      cases p e with
      | true => simpa using hn
      | false => simp
    simp only [List.countP_cons, Finset.sum_add_distrib, hl, hone]

end Numbered

/-! ## Counted composition -/

/-- `R` composed with itself, `n` times. -/
inductive Times (R : σ → σ → Prop) : Nat → σ → σ → Prop
  | zero (x : σ) : Times R 0 x x
  | succ {n : Nat} {x y z : σ} (h : Times R n x y) (hs : R y z) : Times R (n + 1) x z

namespace Times

variable {R : σ → σ → Prop} {x y z : σ} {n m : Nat}

theorem one (h : R x y) : Times R 1 x y := .succ (.zero x) h

theorem trans (h : Times R n x y) (h' : Times R m y z) : Times R (n + m) x z := by
  induction h' with
  | zero => exact h
  | succ _ hs ih => exact .succ (ih h) hs

theorem of_one (h : Times R 1 x y) : R x y := by
  cases h with
  | succ h hs => cases h with | zero => exact hs

/-- A preorder that contains `R` contains its compositions. -/
theorem rel {G : σ → σ → Prop} (hrefl : ∀ x, G x x) (htrans : ∀ {x y z}, G x y → G y z → G x z)
    (hR : ∀ {x y}, R x y → G x y) (h : Times R n x y) : G x y := by
  induction h with
  | zero => exact hrefl _
  | succ _ hs ih => exact htrans ih (hR hs)

end Times

end Antimoney.Lib
