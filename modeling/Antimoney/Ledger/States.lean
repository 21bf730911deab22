import Antimoney.Concurrent
import Antimoney.Effects

/-!
# The reconcile state machine

`reconcile_state` is a bare `CHAR(1)`. The server writes `n` and `c` when it inserts splits, `y` when
it reconciles them, and what the client asks for, `n` or `c`, when it toggles one. Two things leave
the documented machine: a file's states are stored as they are (`performImport`), and a toggle to `c`
also hits a reconciled split (`ToggleSplitAcknowledge`). Without them every state is one of the three
and moves as documented (**`runs_states`**); `runs_no_states` has a run for each.
-/

namespace Antimoney

open Antimoney.Lib Antimoney.Gnc Prog

/-! ## The machine -/

/-- One of the three states. -/
def IsState (st : String) : Prop := st = "n" ∨ st = "c" ∨ st = "y"

/-- Each stored split is in one of the three states. -/
def Db.States (db : Db) : Prop := ∀ sp ∈ db.splits, IsState sp.reconcileState

/-- How a toggle may move the state of a split. -/
inductive Toggles : String → String → Prop
  | same (st : String) : Toggles st st
  | acknowledge : Toggles "n" "c"
  | withdraw : Toggles "c" "n"
  | reopen : Toggles "y" "n"

/-- No toggle reconciles. -/
theorem Toggles.reconciled {a b : String} (h : Toggles a b) (hb : b = "y") : a = "y" := by
  cases h with
  | same => exact hb
  | _ => exact absurd hb (by decide)

theorem Toggles.not_cleared {a b : String} (h : Toggles a b) (ha : a = "y") (hb : b = "c") :
    False := by
  cases h with
  | same => exact absurd (ha.symm.trans hb) (by decide)
  | acknowledge | withdraw => exact absurd ha (by decide)
  | reopen => exact absurd hb (by decide)

/-- The event is a toggle. -/
def Event.toggles : Event → Bool
  | .request _ _ (.toggleAcknowledge _ _) => true
  | _ => false

/-- What the event may do to the state of a split that stays stored. -/
structure StateMoves (e : Event) (x y : Db) : Prop where
  reconciled : ∀ sp ∈ x.splits, ∀ sp' ∈ y.splits, sp'.guid = sp.guid →
    sp.reconcileState ≠ "y" → sp'.reconcileState = "y" → e.reconciles = true
  toggled : e.toggles = true → ∀ sp ∈ x.splits, ∀ sp' ∈ y.splits, sp'.guid = sp.guid →
    Toggles sp.reconcileState sp'.reconcileState

/-- No toggle to `c` hits a reconciled split, and the states of a file are among the three. -/
structure Event.KeepsStates (e : Event) (db : Db) : Prop where
  toggle : ∀ cfg book split g, e = .request cfg book (.toggleAcknowledge split "c") →
    split.parse = .ok g → ∀ sp ∈ db.splits, sp.guid = g → db.splitInBook book sp = true →
    sp.reconcileState ≠ "y"
  file : ∀ book file, e.file db = some (book, file) →
    ∀ t ∈ file.transactions, ∀ sp ∈ t.splits, IsState sp.reconcileState

/-! ## New splits -/

section New

variable {e : Event} {book : Guid} {req : CreateTransactionRequest}

/-- No new split is reconciled. -/
theorem Event.Requests.state (h : e.Requests book req) {sp : CreateSplitRequest}
    (hsp : sp ∈ req.splits) : sp.newState = "n" ∨ sp.newState = "c" := by
  cases h with
  | body cfg book req =>
    obtain ⟨sp, -, rfl⟩ := List.mem_map.mp hsp
    exact .inl rfl
  | csv cfg book account rs r =>
    obtain rfl := List.mem_singleton.mp hsp
    exact .inl rfl
  | bank cfg book rows row bank st _ =>
    right
    rcases List.mem_cons.mp hsp with rfl | hsp
    · rfl
    · obtain rfl := List.mem_singleton.mp hsp
      rfl

theorem Created.state {as : List Account} {t : Transaction} {rows : List Split}
    (hc : Created book req as t rows) (h : e.Requests book req) {row : Split} (hrow : row ∈ rows) :
    row.reconcileState = "n" ∨ row.reconcileState = "c" := by
  obtain ⟨valid, sum, splits, hvalid, -, hfor, -, hrows⟩ := hc.rows
  obtain ⟨sp, hsp, hof⟩ := exists_of_forall₂ hrows hrow
  obtain ⟨-, rfl⟩ := validSplits_filter hvalid
  have hvalid : ∀ sp ∈ req.splits.filter (·.valueNum != 0), sp.newState = "n" ∨ sp.newState = "c" :=
    fun sp hsp => h.state (List.mem_of_mem_filter hsp)
  rw [hof.reconcileState]
  rcases hfor with ⟨-, rfl⟩ | ⟨-, g, rfl⟩
  · exact hvalid sp hsp
  · rcases List.mem_append.mp hsp with hsp | hsp
    · exact hvalid sp hsp
    · obtain rfl := List.mem_singleton.mp hsp
      exact .inl rfl

theorem Chosen.state {req : UpdateTransactionRequest} {guid : Guid} {rows : List Split}
    (hc : Chosen req guid rows) {row : Split} (hrow : row ∈ rows) : row.reconcileState = "n" := by
  obtain ⟨splits, sum, -, -, -, -, hrows⟩ := hc.rows
  obtain ⟨sp, -, hof⟩ := exists_of_forall₂ hrows hrow
  exact hof.reconcileState

theorem Event.Requests.toggles (h : e.Requests book req) : e.toggles = false := by
  cases h <;> rfl

end New

/-! ## Effects -/

section Effects

variable {e : Event} {s x y : Db}

/-- A split is itself. -/
theorem StateMoves.refl (hs : s.Keyed) : StateMoves e s s := by
  have hsame : ∀ sp ∈ s.splits, ∀ sp' ∈ s.splits, sp'.guid = sp.guid → sp' = sp :=
    fun sp hsp sp' hsp' hg => List.inj_on_of_nodup_map hs.splits hsp' hsp hg
  constructor
  · intro sp hsp sp' hsp' hg hn hy
    exact absurd (hsame sp hsp sp' hsp' hg ▸ hy) hn
  · intro _ sp hsp sp' hsp' hg
    rw [hsame sp hsp sp' hsp' hg]
    exact .same _

/-- Splits go, and splits come that the event met no one with the identifier of. -/
theorem StateMoves.add (h : StateMoves e s x) {new : List Split}
    (hy : ∀ sp ∈ y.splits, sp ∈ x.splits ∨ sp ∈ new)
    (hnew : ∀ sp ∈ new, ∀ sp₀ ∈ s.splits, sp.guid ≠ sp₀.guid) : StateMoves e s y := by
  constructor
  · intro sp hsp sp' hsp' hg
    rcases hy sp' hsp' with hsp' | hsp'
    · exact h.reconciled sp hsp sp' hsp' hg
    · exact absurd hg (hnew sp' hsp' sp hsp)
  · intro ht sp hsp sp' hsp' hg
    rcases hy sp' hsp' with hsp' | hsp'
    · exact h.toggled ht sp hsp sp' hsp' hg
    · exact absurd hg (hnew sp' hsp' sp hsp)

/-- Splits go, and splits come that are not reconciled; the event is no toggle. -/
theorem StateMoves.insert (h : StateMoves e s x) (ht : e.toggles = false) {new : List Split}
    (hy : ∀ sp ∈ y.splits, sp ∈ x.splits ∨ sp ∈ new)
    (hnew : ∀ sp ∈ new, sp.reconcileState ≠ "y") : StateMoves e s y := by
  constructor
  · intro sp hsp sp' hsp' hg hn hyy
    rcases hy sp' hsp' with hsp' | hsp'
    · exact h.reconciled sp hsp sp' hsp' hg hn hyy
    · exact absurd hyy (hnew sp' hsp')
  · intro ht'
    rw [ht] at ht'
    exact absurd ht' (by simp)

/-- Splits go. -/
theorem StateMoves.subset (h : StateMoves e s x) (hy : ∀ sp ∈ y.splits, sp ∈ x.splits) : StateMoves e s y :=
  h.add (fun sp hsp => .inl (hy sp hsp)) fun sp (hsp : sp ∈ []) => absurd hsp (by simp)

theorem Db.States.subset (hx : x.States) (hy : ∀ sp ∈ y.splits, sp ∈ x.splits) : y.States :=
  fun sp hsp => hx sp (hy sp hsp)

/-- Splits come in one of the three states. -/
theorem Db.States.add (hx : x.States) {new : List Split}
    (hy : ∀ sp ∈ y.splits, sp ∈ x.splits ∨ sp ∈ new)
    (hnew : ∀ sp ∈ new, IsState sp.reconcileState) : y.States := by
  intro sp hsp
  rcases hy sp hsp with hsp | hsp
  · exact hx sp hsp
  · exact hnew sp hsp

theorem Db.States.set (hx : x.States) {book : Guid} {st : String} {c : Split → Bool}
    (hst : IsState st) : (setReconcileState book st c x).2.States := by
  intro sp hsp
  rcases mem_updateWhere_cases hsp with ⟨hsp, -⟩ | ⟨sp', hsp', -, rfl⟩
  · exact hx sp hsp
  · exact hst

/-- **The states stay among the three.** -/
theorem Effect.states (h : Effect e s x y) (he : e.KeepsStates s) (hx : x.States) : y.States := by
  cases h with
  | aside h => exact hx.subset fun _ hsp => h.splits ▸ hsp
  | account => exact hx.subset (by simp [Db.append])
  | drop h =>
    obtain ⟨rfl, -⟩ := Db.deleteAccounts_ok h
    exact hx
  | delete c => exact hx.subset fun _ h => List.mem_of_mem_filter h
  | clear book => exact hx.subset fun _ h => List.mem_of_mem_filter h
  | update => exact hx
  | toggle _ _ _ hst =>
    refine hx.set ?_
    rcases hst with rfl | rfl
    · exact .inl rfl
    · exact .inr (.inl rfl)
  | reconcile => exact hx.set (.inr (.inr rfl))
  | create hreq _ hc _ =>
    refine hx.add (fun sp hsp => List.mem_append.mp hsp) fun row hrow => ?_
    rcases hc.state hreq hrow with hst | hst
    · exact .inl hst
    · exact .inr (.inl hst)
  | edit _ _ hc hu _ =>
    exact hx.add (fun sp hsp => hu.splits hsp) fun row hrow => .inl (hc.state hrow)
  | restore hfile hsame h =>
    refine hx.add (fun sp hsp => Db.refill_splits hsp) fun sp hsp => ?_
    obtain ⟨t, ht, sp', hsp', hrow⟩ := h.split hsp
    rw [hrow.reconcileState]
    exact he.file _ _ hfile t ht sp' hsp'

/-- A toggle moves one split of the state it meets. -/
theorem toggle_moves {cfg : PlaidConfig} {book g : Guid} {split : GuidText} {state : String}
    (he : e = .request cfg book (.toggleAcknowledge split state)) (hkeep : e.KeepsStates s)
    (hs : s.Keyed) (hstates : s.States) (hg : split.parse = .ok g) (hst : state = "n" ∨ state = "c") :
    StateMoves e s (setReconcileState book state (·.guid == g) s).2 := by
  have hmove : ∀ sp ∈ s.splits, ∀ sp' ∈ (setReconcileState book state (·.guid == g) s).2.splits,
      sp'.guid = sp.guid → Toggles sp.reconcileState sp'.reconcileState := by
    intro sp hsp sp' hsp' hguid
    rcases mem_updateWhere_cases hsp' with ⟨hsp', -⟩ | ⟨sp₀, hsp₀, hit, rfl⟩
    · rw [List.inj_on_of_nodup_map hs.splits hsp' hsp hguid]
      exact .same _
    · obtain rfl := List.inj_on_of_nodup_map hs.splits hsp₀ hsp hguid
      obtain ⟨hit, hbook⟩ := Bool.and_eq_true_iff.mp hit
      rcases hst with rfl | rfl
      · rcases hstates sp₀ hsp with h | h | h
        · exact h ▸ .same _
        · exact h ▸ .withdraw
        · exact h ▸ .reopen
      · have hn := hkeep.toggle cfg book split g he hg sp₀ hsp (beq_iff_eq.mp hit) hbook
        rcases hstates sp₀ hsp with h | h | h
        · exact h ▸ .acknowledge
        · exact h ▸ .same _
        · exact absurd h hn
  constructor
  · intro sp hsp sp' hsp' hguid hn hy
    exact absurd ((hmove sp hsp sp' hsp' hguid).reconciled hy) hn
  · exact fun _ => hmove

/-- **States move as documented.** -/
theorem Effect.moves (h : Effect e s x y) (he : e.KeepsStates s) (hs : s.Keyed)
    (hstates : s.States) (hx : StateMoves e s x) : StateMoves e s y := by
  cases h with
  | aside h => exact hx.subset fun _ hsp => h.splits ▸ hsp
  | account => exact hx.subset (by simp [Db.append])
  | drop h =>
    obtain ⟨rfl, -⟩ := Db.deleteAccounts_ok h
    exact hx.subset fun _ h => h
  | delete c => exact hx.subset fun _ h => List.mem_of_mem_filter h
  | clear book => exact hx.subset fun _ h => List.mem_of_mem_filter h
  | update => exact hx.subset fun _ h => h
  | toggle hreq hxs hg hst =>
    subst hxs
    exact toggle_moves hreq he hs hstates hg hst
  | reconcile hrec =>
    refine ⟨fun _ _ _ _ _ _ _ => hrec, fun ht => ?_⟩
    cases e with
    | request cfg book req => cases req <;> simp_all [Event.reconciles, Event.toggles]
    | _ => simp [Event.toggles] at ht
  | create hreq _ hc _ =>
    refine hx.insert hreq.toggles (fun sp hsp => List.mem_append.mp hsp) fun row hrow => ?_
    rcases hc.state hreq hrow with hst | hst <;> simp [hst]
  | edit hreq _ hc hu _ =>
    refine hx.insert (hreq ▸ rfl) (fun sp hsp => hu.splits hsp) fun row hrow => ?_
    simp [hc.state hrow]
  | restore hfile hsame h =>
    refine hx.add (fun sp hsp => Db.refill_splits hsp) fun sp hsp sp₀ hsp₀ hg => ?_
    rw [← hsame.splits] at hsp₀
    exact Db.unused_split (h.split_new hsp) sp₀ hsp₀ hg.symm

end Effects

/-! ## Runs -/

/-- The condition on a step of a run. -/
def StatesKept (e : Event) (envs : Nat → Env) (db : Db) : Prop :=
  e.KeepsStates db ∧ Spared e envs db

theorem Runs.states {db : Db} (hr : Runs StatesKept db) : db.States :=
  hr.by_effects (fun _ _ _ h => h.2) (fun _ h => absurd h (by simp [Db.empty]))
    fun _ _ _ h _ _ _ _ _ _ hx he => he.states h.1 hx

/-- **The reconcile state machine.** In every run in which no toggle to `c` hits a reconciled split
and the imported files' states are among the three, so are all states, and each event moves them as
documented. -/
theorem runs_states {db : Db} (hr : Runs StatesKept db) :
    db.States ∧ ∀ e envs, mayServe e.call envs db = true → StatesKept e envs db →
      StateMoves e db (serve e.call envs db).2 := by
  refine ⟨hr.states, fun e envs ha hok => ?_⟩
  exact (serve_leads hr.stocked ha hok.2).invariant (.refl hr.keyed)
    fun _ _ _ _ hx he => he.moves hok.1 hr.keyed hr.states hx

/-- No toggle, and no file. -/
theorem statesKept_of {e : Event} {envs : Nat → Env} {db : Db} (ht : e.toggles = false)
    (hf : e.file db = none) : StatesKept e envs db := by
  refine ⟨⟨fun _ _ _ _ he => ?_, fun _ _ h => ?_⟩, fun _ _ h => ?_⟩
  · rw [he] at ht
    exact absurd ht (by simp [Event.toggles])
  · exact absurd (hf.symm.trans h) (by simp)
  · exact absurd (hf.symm.trans h) (by simp)

/-- The splits of a request are reconciled. -/
def reconcileSplit (split : Guid) : Event :=
  .request plainConfig 3 (.batchReconcile [split.text])

def toggleSplit (split : Guid) (state : String) : Event :=
  .request plainConfig 3 (.toggleAcknowledge split.text state)

/-- A purchase with its first split, 106, reconciled. -/
def statement : Db := (serve (reconcileSplit 106).call (calm 200) purchased).2

theorem statement_runs {ok : Event → (Nat → Env) → Db → Prop}
    (h : ∀ e envs db, e.toggles = false → e.file db = none → ok e envs db) : Runs ok statement :=
  .step _ _ (.step _ _ (registered_runs (h _ _ _ rfl rfl)) (by decide +kernel) (h _ _ _ rfl rfl))
    (by decide +kernel) (h _ _ _ rfl rfl)

/-- The reconciled split is reopened. -/
theorem runs_states_reopened :
    statement.splits.map (·.reconcileState) = ["y", "n"] ∧
      (serve (toggleSplit 106 "n").call (calm 300) statement).2.splits.map (·.reconcileState) =
        ["n", "n"] ∧
      statement.States ∧
      StateMoves (toggleSplit 106 "n") statement
        (serve (toggleSplit 106 "n").call (calm 300) statement).2 := by
  have hr : Runs StatesKept statement := statement_runs fun _ _ _ ht hf => statesKept_of ht hf
  refine ⟨by decide +kernel, by decide +kernel, (runs_states hr).1,
    (runs_states hr).2 _ _ (by decide +kernel) ⟨⟨?_, ?_⟩, ?_⟩⟩
  · intro cfg book split g he
    obtain ⟨-, -, hreq⟩ := Event.request.inj he
    exact absurd (Request.toggleAcknowledge.inj hreq).2 (by decide)
  · exact fun _ _ h => absurd h (by simp [Event.file, toggleSplit])
  · exact fun _ _ h => absurd h (by simp [Event.file, toggleSplit])

/-- A file with a voided split. -/
def voidFile : ExportData :=
  { smallFile with
    transactions := [⟨.uuid 42 .canonical, some 0, some 0, "opening",
      [⟨.uuid 43 .canonical, .uuid 41 .canonical, "", 0, 100, 0, 100, "v"⟩]⟩] }

/-- Importing that file stores its state; and a toggle moves a reconciled split to `c`. -/
theorem runs_no_states :
    (¬ ∀ db, Runs (fun _ _ _ => True) db → db.States) ∧
      ¬ ∀ db, Runs (fun _ _ _ => True) db → ∀ e envs, mayServe e.call envs db = true →
        StateMoves e db (serve e.call envs db).2 := by
  constructor
  · intro h
    have hstates := h _ (.step (.request plainConfig 3 (.importJson (some voidFile))) (calm 100)
      (registered_runs trivial) (by decide +kernel) trivial)
    have hvoid : (serve (Event.request plainConfig 3 (.importJson (some voidFile))).call (calm 100)
        registered).2.splits.map (·.reconcileState) = ["v"] := by
      decide +kernel
    obtain ⟨sp, hsp, hst⟩ := List.mem_map.mp (hvoid ▸ List.mem_singleton_self "v")
    rcases hstates sp hsp with h | h | h <;> exact absurd (hst.symm.trans h) (by decide)
  · intro h
    have hmoves := (h statement (statement_runs fun _ _ _ _ _ => trivial) (toggleSplit 106 "c")
      (calm 300) (by decide +kernel)).toggled rfl
    have hold : statement.splits.any (fun sp => sp.guid == 106 && sp.reconcileState == "y") = true :=
      by decide +kernel
    have hnew : (serve (toggleSplit 106 "c").call (calm 300) statement).2.splits.any
        (fun sp => sp.guid == 106 && sp.reconcileState == "c") = true := by
      decide +kernel
    obtain ⟨sp, hsp, hy⟩ := List.any_eq_true.mp hold
    obtain ⟨sp', hsp', hc⟩ := List.any_eq_true.mp hnew
    simp only [Bool.and_eq_true, beq_iff_eq] at hy hc
    have hmove := hmoves sp hsp sp' hsp' (hc.1.trans hy.1.symm)
    rw [hy.2, hc.2] at hmove
    exact hmove.not_cleared rfl rfl

end Antimoney
