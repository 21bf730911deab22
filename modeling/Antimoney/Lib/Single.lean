import Antimoney.Lib.Pool

/-!
# One of a kind

`μ` counts the things of a kind in the committed state. A call makes one at most, and only while there
is none, neither committed nor in the open transaction of another call.

* `Sess.Makes`: an open transaction that would commit a thing of the kind.
* `Prog.Once`: a program that issues one statement of a class at most.
* `AtMostOne`: there is one at most, committed or about to be; `AtMostOne.quiet` and
  `AtMostOne.making`: what a step does to that.
* **`Reach.atMostOne`**: no state reached has two.
-/

namespace Antimoney.Lib

variable {S : Type → Type} {E Env L σ ε α β Req : Type}

/-- The open transaction would make a thing of the kind. -/
def Sess.Makes (μ : σ → Nat) (ss : Sess E L σ) : Prop :=
  ∃ f, ss.pending = some f ∧ ∃ x y, f x = .ok y ∧ μ x < μ y

/-- It would make one at most. -/
def Sess.MakesOne (μ : σ → Nat) (ss : Sess E L σ) : Prop :=
  ∀ f, ss.pending = some f → ∀ x y, f x = .ok y → μ y ≤ μ x + 1

/-- A statement that makes `n` things of the kind at most. -/
def Making (M : Machine S E Env L σ) (μ : σ → Nat) (n : Nat) (q : S β) : Prop :=
  ∀ ⦃env v x y⦄, M.write q env v x = .ok y → μ y ≤ μ x + n

variable {M : Machine S E Env L σ} {μ : σ → Nat} {ss : Sess E L σ} {s : σ} {env : Env}

theorem Sess.not_makes_idle : ¬ (Sess.idle : Sess E L σ).Makes μ := by
  rintro ⟨f, hf, -⟩
  exact absurd hf (by simp [Sess.idle])

theorem Sess.makesOne_idle : (Sess.idle : Sess E L σ).MakesOne μ :=
  fun f hf => absurd hf (by simp [Sess.idle])

theorem Sess.not_makes {f : σ → Except E σ} {held : List L} (h : ∀ x y, f x = .ok y → μ y ≤ μ x) :
    ¬ (Sess.tx f held).Makes μ := by
  rintro ⟨g, hg, x, y, hxy, hlt⟩
  obtain rfl := Option.some.inj hg
  exact absurd (h x y hxy) (Nat.not_le.mpr hlt)

theorem Sess.le_of_not_makes {f : σ → Except E σ} (h : ¬ ss.Makes μ) (hf : ss.pending = some f)
    {x y : σ} (hxy : f x = .ok y) : μ y ≤ μ x :=
  Nat.le_of_not_lt fun hlt => h ⟨f, hf, x, y, hxy, hlt⟩

/-- What an operation does that makes none: at most it commits what was made. -/
structure QuietStep (μ : σ → Nat) (ss ss' : Sess E L σ) (s s' : σ) : Prop where
  makesOne : ss'.MakesOne μ
  makes : ss'.Makes μ → ss.Makes μ
  count : μ s' ≤ μ s ∨ ss.Makes μ ∧ ¬ ss'.Makes μ ∧ μ s' ≤ μ s + 1

theorem QuietStep.same {ss' : Sess E L σ} (h : ss'.MakesOne μ) (hm : ss'.Makes μ → ss.Makes μ) :
    QuietStep μ ss ss' s s := ⟨h, hm, .inl (Nat.le_refl _)⟩

theorem QuietStep.idle : QuietStep μ ss .idle s s :=
  .same Sess.makesOne_idle fun h => absurd h Sess.not_makes_idle

/-- What a pending change leaves, after one more write. -/
theorem ok_of_write {f : σ → Except E σ} {q : S β} {v x z : σ}
    (h : (f x >>= M.write q env v) = .ok z) : ∃ y, f x = .ok y ∧ M.write q env v y = .ok z := by
  cases hy : f x with
  | error e => exact absurd h (by simp [hy, Bind.bind, Except.bind])
  | ok y => exact ⟨y, rfl, by simpa [hy, Bind.bind, Except.bind] using h⟩

/-- A statement that makes none. -/
theorem quietStep_stmt {q : S β} (hq : Making M μ 0 q) (h : ss.MakesOne μ) :
    QuietStep μ ss (opStep M (.stmt q) env ss s).sess s (opStep M (.stmt q) env ss s).db := by
  obtain ⟨pending, held⟩ := ss
  cases pending with
  | none =>
    cases hx : M.exec q env s with
    | error e =>
      simp only [opStep, Sess.view, hx]
      exact .same h id
    | ok r =>
      simp only [opStep, Sess.view, hx]
      exact ⟨h, id, .inl (hq (M.write_self hx))⟩
  | some f =>
    cases hf : f s with
    | error e =>
      simp only [opStep, Sess.view, hf]
      exact .same h id
    | ok v =>
      cases hx : M.exec q env v with
      | error e =>
        simp only [opStep, Sess.view, hf, hx]
        refine .same (fun g hg x y hxy => ?_) fun hm => absurd hm (Sess.not_makes fun x y hxy => ?_)
        · obtain rfl := Option.some.inj hg
          exact absurd hxy (by simp)
        · exact absurd hxy (by simp)
      | ok r =>
        simp only [opStep, Sess.view, hf, hx]
        refine .same (fun g hg x z hxz => ?_) ?_
        · obtain rfl := Option.some.inj hg
          obtain ⟨y, hy, hz⟩ := ok_of_write hxz
          exact Nat.le_trans (hq hz) (h f rfl x y hy)
        · rintro ⟨g, hg, x, z, hxz, hlt⟩
          obtain rfl := Option.some.inj hg
          obtain ⟨y, hy, hz⟩ := ok_of_write hxz
          exact ⟨f, rfl, x, y, hy, Nat.lt_of_lt_of_le hlt (hq hz)⟩

/-- The other operations make none. -/
theorem quietStep_op {o : Op S β} (ho : ∀ q, o ≠ .stmt q) (h : ss.MakesOne μ) :
    QuietStep μ ss (opStep M o env ss s).sess s (opStep M o env ss s).db := by
  cases o with
  | stmt q => exact absurd rfl (ho q)
  | begin =>
    simp only [opStep]
    cases M.down env with
    | some e => exact .idle
    | none =>
      have hsame : ∀ x y, (Except.ok x : Except E σ) = .ok y → μ y ≤ μ x :=
        fun x y hxy => Nat.le_of_eq (congrArg μ (Except.ok.inj hxy).symm)
      refine .same (fun g hg x y hxy => ?_) fun hm => absurd hm (Sess.not_makes hsame)
      obtain rfl := Option.some.inj hg
      exact Nat.le_succ_of_le (hsame x y hxy)
  | commit =>
    simp only [opStep]
    cases M.down env with
    | some e => exact .idle
    | none =>
      obtain ⟨pending, held⟩ := ss
      cases pending with
      | none => exact .idle
      | some f =>
        cases hf : f s with
        | error e =>
          simp only [Sess.view, hf]
          exact .idle
        | ok v =>
          simp only [Sess.view, hf]
          refine ⟨Sess.makesOne_idle, fun hm => absurd hm Sess.not_makes_idle, ?_⟩
          rcases Nat.lt_or_ge (μ s) (μ v) with hlt | hle
          · exact .inr ⟨⟨f, rfl, s, v, hf, hlt⟩, Sess.not_makes_idle, h f rfl s v hf⟩
          · exact .inl hle
  | rollback => exact .idle

/-- A statement that makes one, issued while none is being made by its call. -/
theorem makingStep {q : S β} (hq : Making M μ 1 q) (h : ¬ ss.Makes μ) :
    (opStep M (.stmt q) env ss s).sess.MakesOne μ ∧
      ((opStep M (.stmt q) env ss s).db = s ∨
        ¬ (opStep M (.stmt q) env ss s).sess.Makes μ ∧
          μ (opStep M (.stmt q) env ss s).db ≤ μ s + 1) := by
  obtain ⟨pending, held⟩ := ss
  have hold : Sess.MakesOne μ (⟨pending, held⟩ : Sess E L σ) :=
    fun f hf x y hxy => Nat.le_succ_of_le (Sess.le_of_not_makes h hf hxy)
  cases pending with
  | none =>
    cases hx : M.exec q env s with
    | error e =>
      simp only [opStep, Sess.view, hx]
      exact ⟨hold, .inl trivial⟩
    | ok r =>
      simp only [opStep, Sess.view, hx]
      exact ⟨hold, .inr ⟨h, hq (M.write_self hx)⟩⟩
  | some f =>
    cases hf : f s with
    | error e =>
      simp only [opStep, Sess.view, hf]
      exact ⟨hold, .inl trivial⟩
    | ok v =>
      cases hx : M.exec q env v with
      | error e =>
        simp only [opStep, Sess.view, hf, hx]
        refine ⟨fun g hg x y hxy => ?_, .inl trivial⟩
        obtain rfl := Option.some.inj hg
        exact absurd hxy (by simp)
      | ok r =>
        simp only [opStep, Sess.view, hf, hx]
        refine ⟨fun g hg x z hxz => ?_, .inl trivial⟩
        obtain rfl := Option.some.inj hg
        obtain ⟨y, hy, hz⟩ := ok_of_write hxz
        exact Nat.le_trans (hq hz) (Nat.succ_le_succ (Sess.le_of_not_makes h rfl hy))

/-! ## Programs that make one at most -/

namespace Prog

/-- The program issues statements of `P₀`, and one of `P₁` at most. -/
def Once (P₀ P₁ : StmtClass S) : Prog S E ε α → Prop
  | .ret _ => True
  | .fail _ => True
  | .op o k => o.Within P₀ ∧ (∀ r, (k r).Once P₀ P₁) ∨ o.Within P₁ ∧ ∀ r, (k r).Issues P₀

variable {P₀ P₁ : StmtClass S} {ε' : Type}

theorem Issues.once {p : Prog S E ε α} (h : p.Issues P₀) : p.Once P₀ P₁ := by
  induction p with
  | ret a => trivial
  | fail e => trivial
  | op o k ih => exact .inl ⟨h.1, fun r => ih r (h.2 r)⟩

theorem once_bind {p : Prog S E ε α} {f : α → Prog S E ε β} (hp : p.Issues P₀)
    (hf : ∀ a, (f a).Once P₀ P₁) : (p.bind f).Once P₀ P₁ := by
  induction p with
  | ret a => exact hf a
  | fail e => trivial
  | op o k ih => exact .inl ⟨hp.1, fun r => ih r (hp.2 r)⟩

theorem Once.bind {p : Prog S E ε α} {f : α → Prog S E ε β} (hp : p.Once P₀ P₁)
    (hf : ∀ a, (f a).Issues P₀) : (p.bind f).Once P₀ P₁ := by
  induction p with
  | ret a => exact (hf a).once
  | fail e => trivial
  | op o k ih =>
    rcases hp with ⟨ho, hk⟩ | ⟨ho, hk⟩
    · exact .inl ⟨ho, fun r => ih r (hk r)⟩
    · exact .inr ⟨ho, fun r => issues_bind (hk r) hf⟩

theorem once_attempt {p : Prog S E ε α} (hp : p.Once P₀ P₁) :
    (p.attempt : Prog S E ε' (Except ε α)).Once P₀ P₁ := by
  induction p with
  | ret a => trivial
  | fail e => trivial
  | op o k ih =>
    rcases hp with ⟨ho, hk⟩ | ⟨ho, hk⟩
    · exact .inl ⟨ho, fun r => ih r (hk r)⟩
    · exact .inr ⟨ho, fun r => issues_attempt (hk r)⟩

theorem once_sql {wrap : E → ε} {q : S α} (h : P₁ q) : (sql wrap q).Once P₀ P₁ := by
  refine .inr ⟨h, fun r => ?_⟩
  cases r <;> trivial

theorem once_inTx {wrap : E → ε} {body : Prog S E ε α} (h : body.Once P₀ P₁) :
    (inTx wrap body).Once P₀ P₁ := by
  refine .inl ⟨trivial, fun r => ?_⟩
  cases r with
  | error e => trivial
  | ok _ =>
    exact Once.bind (once_attempt h) fun r => ⟨trivial, fun _ => issues_ofExcept r⟩

end Prog

/-! ## The pool -/

/-- There is at most one, committed or about to be. -/
structure AtMostOne (μ : σ → Nat) (c : Conf S E L σ ε α Req) : Prop where
  count : μ c.db ≤ 1
  makesOne : ∀ a ∈ c.calls, a.sess.MakesOne μ
  none : ∀ a ∈ c.calls, a.sess.Makes μ → μ c.db = 0
  one : ∀ (i j : Nat) (a b : Live S E L σ ε α Req), c.calls[i]? = some a → c.calls[j]? = some b →
    a.sess.Makes μ → b.sess.Makes μ → i = j

variable {c : Conf S E L σ ε α Req} {i : Nat} {a a' : Live S E L σ ε α Req}

/-- The call that stepped, or one of the others. -/
theorem getElem?_set_cases {j : Nat} {b : Live S E L σ ε α Req}
    (h : (c.calls.set i a')[j]? = some b) : j = i ∧ b = a' ∨ j ≠ i ∧ c.calls[j]? = some b := by
  by_cases hij : i = j
  · subst hij
    obtain ⟨hlt, rfl⟩ := List.getElem?_eq_some_iff.mp h
    exact .inl ⟨rfl, List.getElem_set_self hlt⟩
  · rw [List.getElem?_set_ne hij] at h
    exact .inr ⟨fun h => hij h.symm, h⟩

/-- A step that makes none. -/
theorem AtMostOne.quiet (h : AtMostOne μ c) (hi : c.calls[i]? = some a)
    (hq : QuietStep μ a.sess a'.sess c.db s) : AtMostOne μ ⟨s, c.calls.set i a'⟩ := by
  have ha := List.mem_of_getElem? hi
  -- a commit of what was made leaves no other call that makes one
  have hzero : ∀ (j : Nat) (b : Live S E L σ ε α Req), (c.calls.set i a')[j]? = some b →
      b.sess.Makes μ → μ s = 0 := by
    intro j b hj hb
    obtain ⟨k, b₀, hk, hkj, hb₀, hne⟩ : ∃ k b₀, c.calls[k]? = some b₀ ∧ k = j ∧ b₀.sess.Makes μ ∧
        (k = i → a'.sess.Makes μ) := by
      rcases getElem?_set_cases hj with ⟨rfl, rfl⟩ | ⟨hne, hj⟩
      · exact ⟨j, a, hi, rfl, hq.makes hb, fun _ => hb⟩
      · exact ⟨j, b, hj, rfl, hb, fun h => absurd h hne⟩
    have h0 := h.none b₀ (List.mem_of_getElem? hk) hb₀
    rcases hq.count with hle | ⟨hm, hno, -⟩
    · omega
    · exact absurd (hne (h.one k i b₀ a hk hi hb₀ hm)) hno
  refine ⟨?_, fun b hb => ?_, fun b hb hm => ?_, fun j k b d hj hk hb hd => ?_⟩
  · rcases hq.count with hle | ⟨hm, -, hle⟩
    · exact Nat.le_trans hle h.count
    · have h0 := h.none a ha hm
      dsimp only
      omega
  · obtain ⟨j, hj⟩ := List.getElem?_of_mem hb
    rcases getElem?_set_cases hj with ⟨-, rfl⟩ | ⟨-, hj⟩
    · exact hq.makesOne
    · exact h.makesOne b (List.mem_of_getElem? hj)
  · obtain ⟨j, hj⟩ := List.getElem?_of_mem hb
    exact hzero j b hj hm
  · rcases getElem?_set_cases hj with ⟨rfl, rfl⟩ | ⟨-, hj'⟩ <;>
      rcases getElem?_set_cases hk with ⟨rfl, rfl⟩ | ⟨-, hk'⟩
    · rfl
    · exact h.one j k a d hi hk' (hq.makes hb) hd
    · exact h.one j k b a hj' hi hb (hq.makes hd)
    · exact h.one j k b d hj' hk' hb hd

/-- A step that makes one, while there is none. -/
theorem AtMostOne.making (h : AtMostOne μ c) (h0 : μ c.db = 0)
    (hno : ∀ a ∈ c.calls, ¬ a.sess.Makes μ) (hone : a'.sess.MakesOne μ)
    (hs : s = c.db ∨ ¬ a'.sess.Makes μ ∧ μ s ≤ μ c.db + 1) :
    AtMostOne μ ⟨s, c.calls.set i a'⟩ := by
  have honly : ∀ (j : Nat) (b : Live S E L σ ε α Req), (c.calls.set i a')[j]? = some b →
      b.sess.Makes μ → j = i ∧ b = a' := by
    intro j b hj hb
    rcases getElem?_set_cases hj with h | ⟨-, hj⟩
    · exact h
    · exact absurd hb (hno b (List.mem_of_getElem? hj))
  refine ⟨?_, fun b hb => ?_, fun b hb hm => ?_, fun j k b d hj hk hb hd => ?_⟩
  · dsimp only
    rcases hs with rfl | ⟨-, hle⟩
    · omega
    · omega
  · obtain ⟨j, hj⟩ := List.getElem?_of_mem hb
    rcases getElem?_set_cases hj with ⟨-, rfl⟩ | ⟨-, hj⟩
    · exact hone
    · exact h.makesOne b (List.mem_of_getElem? hj)
  · obtain ⟨j, hj⟩ := List.getElem?_of_mem hb
    obtain ⟨-, rfl⟩ := honly j b hj hm
    rcases hs with rfl | ⟨hnot, -⟩
    · exact h0
    · exact absurd hm hnot
  · rw [(honly j b hj hb).1, (honly k d hk hd).1]

variable {serve : Req → Prog S E ε α} {ok : Conf S E L σ ε α Req → PoolEvent Req Env → Prop}
  {P : StmtClass S} {s₀ : σ}

/-- A call that has made none yet and may make one, or makes no more. -/
def Live.MayMake (μ : σ → Nat) (P₀ P₁ : StmtClass S) (a : Live S E L σ ε α Req) : Prop :=
  ¬ a.sess.Makes μ ∧ a.prog.Once P₀ P₁ ∨ a.prog.Issues P₀

/-- **At most one is made.** If every call makes one at most, and makes it only while there is none,
neither committed nor being made by another call, no state reached has two. -/
theorem Reach.atMostOne (h₀ : μ s₀ ≤ 1) (hP : ∀ {γ : Type} (q : S γ), P q → Making M μ 1 q)
    (harrives : ∀ c r, ok c (.spawn r) → (serve r).Once (Making M μ 0) P)
    (hok : ∀ (c : Conf S E L σ ε α Req) (i : Nat) (env : Env) (a : Live S E L σ ε α Req) (γ : Type)
      (q : S γ) (k : Except E γ → Prog S E ε α), ok c (.step i env) → c.calls[i]? = some a →
      a.prog = .op (.stmt q) k → P q →
      μ c.db = 0 ∧ ∀ j b, j ≠ i → c.calls[j]? = some b → ¬ b.sess.Makes μ)
    (hr : Reach M serve ok s₀ c) :
    AtMostOne μ c ∧ ∀ a ∈ c.calls, a.MayMake μ (Making M μ 0) P := by
  induction hr with
  | start => exact ⟨⟨h₀, by simp, by simp, by simp⟩, by simp⟩
  | @event c c' e _ he hn ih =>
    obtain ⟨h, hmay⟩ := ih
    cases e with
    | spawn r =>
      obtain rfl := Option.some.inj hn
      have hold : ∀ (j : Nat) (b : Live S E L σ ε α Req),
          (c.calls ++ [⟨r, serve r, .idle⟩])[j]? = some b → b.sess.Makes μ →
            c.calls[j]? = some b := by
        intro j b hj hb
        rcases Nat.lt_or_ge j c.calls.length with hlt | hge
        · rwa [List.getElem?_append_left hlt] at hj
        · rw [List.getElem?_append_right hge] at hj
          obtain ⟨-, rfl⟩ : j - c.calls.length = 0 ∧ _ := by
            simpa [List.getElem?_singleton] using hj
          exact absurd hb Sess.not_makes_idle
      refine ⟨⟨h.count, fun b hb => ?_, fun b hb hm => ?_, fun i j a b hi hj ha hb => ?_⟩,
        fun b hb => ?_⟩
      · rcases List.mem_append.mp hb with hb | hb
        · exact h.makesOne b hb
        · rw [List.mem_singleton.mp hb]
          exact Sess.makesOne_idle
      · obtain ⟨j, hj⟩ := List.getElem?_of_mem hb
        exact h.none b (List.mem_of_getElem? (hold j b hj hm)) hm
      · exact h.one i j a b (hold i a hi ha) (hold j b hj hb) ha hb
      · rcases List.mem_append.mp hb with hb | hb
        · exact hmay b hb
        · rw [List.mem_singleton.mp hb]
          exact .inl ⟨Sess.not_makes_idle, harrives c r he⟩
    | step i env =>
      obtain ⟨r, γ, o, k, ss, hi, -, rfl⟩ := Conf.next_step hn
      have hcall := List.mem_of_getElem? hi
      have hothers : ∀ (a' : Live S E L σ ε α Req), a'.MayMake μ (Making M μ 0) P →
          ∀ b ∈ c.calls.set i a', b.MayMake μ (Making M μ 0) P := by
        intro a' ha' b hb
        obtain ⟨j, hj⟩ := List.getElem?_of_mem hb
        rcases getElem?_set_cases hj with ⟨-, rfl⟩ | ⟨-, hj⟩
        · exact ha'
        · exact hmay b (List.mem_of_getElem? hj)
      have hquiet : o.Within (Making M μ 0) →
          QuietStep μ ss (opStep M o env ss c.db).sess c.db (opStep M o env ss c.db).db := by
        intro ho
        cases o with
        | stmt q => exact quietStep_stmt ho (h.makesOne _ hcall)
        | begin => exact quietStep_op (fun _ h => by cases h) (h.makesOne _ hcall)
        | commit => exact quietStep_op (fun _ h => by cases h) (h.makesOne _ hcall)
        | rollback => exact quietStep_op (fun _ h => by cases h) (h.makesOne _ hcall)
      rcases hmay _ hcall with ⟨hnot, ⟨ho, hk⟩ | ⟨ho, hk⟩⟩ | ⟨ho, hk⟩
      · exact ⟨h.quiet hi (hquiet ho), hothers _ (.inl ⟨fun hm => hnot ((hquiet ho).makes hm), hk _⟩)⟩
      · refine ⟨?_, hothers _ (.inr (hk _))⟩
        cases o with
        | stmt q =>
          obtain ⟨h0, hno⟩ := hok c i env _ γ q k he hi rfl ho
          have hall : ∀ b ∈ c.calls, ¬ b.sess.Makes μ := by
            intro b hb
            obtain ⟨j, hj⟩ := List.getElem?_of_mem hb
            by_cases hij : j = i
            · subst hij
              obtain rfl := Option.some.inj (hj.symm.trans hi)
              exact hnot
            · exact hno j b hij hj
          obtain ⟨hone, hs⟩ := @makingStep _ _ _ _ _ _ M μ ss c.db env q (hP q ho) hnot
          exact h.making h0 hall hone hs
        | begin => exact h.quiet hi (hquiet trivial)
        | commit => exact h.quiet hi (hquiet trivial)
        | rollback => exact h.quiet hi (hquiet trivial)
      · exact ⟨h.quiet hi (hquiet ho), hothers _ (.inr (hk _))⟩

end Antimoney.Lib
