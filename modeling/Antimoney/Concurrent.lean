import Antimoney.Lib.Log
import Antimoney.Writes

/-!
# The server, many calls at once

The events of `Antimoney.Server` as the calls of a pool: `Pool` over the database, and `Observed`
over the database with the log of what was committed, where calls are numbered.
-/

namespace Antimoney

open Antimoney.Lib Prog

/-- The server with its calls under way. -/
abbrev Pool := Conf Stmt SqlErr Lock Db Err Response Event

/-- A call of the pool. -/
abbrev PoolCall := Live Stmt SqlErr Lock Db Err Response Event

/-- A call arrives, or takes a step with what the environment supplies to it. -/
abbrev PoolStep := PoolEvent Event Env

/-- The interleavings from a database, by events that satisfy `ok`. -/
abbrev Interleaved (ok : Pool → PoolStep → Prop) (db : Db) : Pool → Prop :=
  Reach machine Event.call ok db

/-- Only events that satisfy `p` arrive. -/
def Spawning (p : Event → Bool) (_ : Pool) : PoolStep → Prop
  | .spawn e => p e = true
  | .step _ _ => True

/-- The test of an arrival that satisfies `p`. -/
def spawns (p : Event → Bool) (_ : Pool) : PoolStep → Bool
  | .spawn e => p e
  | .step _ _ => true

/-- The run of arrivals and steps from a database. -/
def poolRun (p : Event → Bool) (db : Db) (es : List PoolStep) : Option Pool :=
  Conf.run machine Event.call (spawns p) ⟨db, []⟩ es

theorem interleaved_of_run {p : Event → Bool} {db : Db} {es : List PoolStep} {c : Pool}
    (h : poolRun p db es = some c) : Interleaved (Spawning p) db c := by
  refine Reach.run (fun c e he => ?_) .start h
  cases e with
  | spawn e => exact he
  | step i env => trivial

/-- The test of an arrival that satisfies `p` while no other call is under way. -/
def spawnsAlone (p : Event → Bool) (c : Pool) : PoolStep → Bool
  | .spawn e => p e && c.calls.all fun a => a.prog.outcome.isSome
  | .step _ _ => true

/-- Reads keep any contract. -/
theorem frame_reads (C : Contract Stmt SqlErr Env Db) :
    Frame machine C (fun q => q.Reads) fun x y => y = x where
  refl _ := rfl
  trans h h' := h'.trans h
  write q env s v v' b x y hq _ _ _ hw := hq.write hw
  keeps o x y _ hx h := by
    rw [h]
    exact ⟨hx, C.guar_refl o x hx⟩

theorem selectItem_ok {item : GuidText} {book : Guid} {r : Option PlaidItem} {env : Env} {x y : Db}
    (h : (selectItem item book).sem env x = .ok (r, y)) :
    y = x ∧ ∃ g, item.parse = .ok g ∧ r = x.items.find? (isItem g book) := by
  obtain ⟨hf, rfl⟩ := Stmt.queryE_ok h
  obtain ⟨g, hg, hr⟩ := ok_bind hf
  exact ⟨rfl, g, hg, (Except.ok.inj hr).symm⟩

/-- `loadAndDecryptToken` among other calls: whatever its re-seal does, it answers what
`decryptToken` makes of the ciphertext it was given. -/
theorem loadAndDecryptToken_wp {Env' σ : Type} {M : Machine Stmt SqlErr Env' Lock σ}
    {C : Contract Stmt SqlErr Env' σ} {P : StmtClass Stmt} {W : σ → σ → Prop} {R : σ → Prop}
    {cfg : TokenConfig} {book : Guid} {item : GuidText} {itemId : String} {c : Ciphertext}
    {n : Nonce} {version : Nat} {s : σ} (hf : Frame M C P W) (hR : C.Stable R)
    (hW : ∀ x y, C.inv x → W x y → R x → R y) (hn : P (Stmt.askEnv Env.nonce))
    (hr : ∀ c n, P (resealStmt book item c n version)) (hs : R s) :
    (loadAndDecryptToken cfg book item itemId c n version).wp M C
      (fun r ss s => ss = .idle ∧ R s ∧
        ∀ d, r = .ok d → d = (decryptToken cfg book itemId c n).map Prod.fst) .idle s := by
  unfold loadAndDecryptToken
  split
  · rename_i e he
    rw [he]
    exact ⟨rfl, hs, fun d hd => (Except.ok.inj hd).symm⟩
  · rename_i token stale he
    rw [he]
    have hdone : ∀ d, Except.ok (ε := Err) (Except.ok (ε := DecryptErr) token) = .ok d →
        d = (Except.ok (ε := DecryptErr) (token, stale)).map Prod.fst :=
      fun d hd => (Except.ok.inj hd).symm
    split
    · refine wp_stmt_frame hf hR hW hn hs (fun _ e s hs _ _ => ⟨rfl, hs, fun _ h =>
        absurd h (by simp)⟩) fun _ fresh _ s _ hs _ _ _ _ => ?_
      exact wp_stmt_frame hf hR hW (hr _ _) hs (fun _ _ s hs _ _ => ⟨rfl, hs, hdone⟩)
        fun _ _ _ s _ hs _ _ _ _ => ⟨rfl, hs, hdone⟩
    · exact ⟨rfl, hs, hdone⟩

/-- What the log keeps of a statement: what it was about, what it was supplied, what it saw. -/
structure Note where
  tag : Tag
  env : Env
  view : Db

/-- The note of a statement. -/
def noteOf {β : Type} (q : Stmt β) (env : Env) (view : Db) : Note := ⟨q.tag, env, view⟩

/-- The database with the log of the committed statements. -/
def observed : Machine Stmt SqlErr (Nat × Env) Lock (Logged Db Note) := machine.logged noteOf

/-- The server with its calls under way and the log. -/
abbrev Observed := Conf Stmt SqlErr Lock (Logged Db Note) Err Response (Arrival Event)

/-- A call of such a pool. -/
abbrev ObservedCall := Live Stmt SqlErr Lock (Logged Db Note) Err Response (Arrival Event)

abbrev ObservedStep := PoolEvent (Arrival Event) (Nat × Env)

/-- The call an arrival makes. -/
def Lib.Arrival.call (a : Arrival Event) : Call Response := a.req.call

/-- Numbered events that satisfy `ok`. -/
def Numbering (ok : Observed → ObservedStep → Prop) (c : Observed) (e : ObservedStep) : Prop :=
  Numbered c e ∧ ok c e

/-- The interleavings from a database, by numbered events that satisfy `ok`, with their log. -/
abbrev Watched (ok : Observed → ObservedStep → Prop) (db : Db) : Observed → Prop :=
  Reach observed Arrival.call (Numbering ok) ⟨db, []⟩

/-- Only requests that satisfy `p` arrive, under any book. -/
def Arriving (p : Request → Bool) (_ : Observed) : ObservedStep → Prop
  | .spawn r => ∃ cfg book req, r.req = .request cfg book req ∧ p req = true
  | .step _ _ => True

/-- The test of a numbered arrival of a request that satisfies `p`. -/
def arrives (p : Request → Bool) (c : Observed) : ObservedStep → Bool
  | .spawn r => r.id == c.calls.length && match r.req with
    | .request _ _ req => p req
    | _ => false
  | .step i env => env.1 == i

theorem numbering_of_arrives {p : Request → Bool} {c : Observed} {e : ObservedStep}
    (h : arrives p c e = true) : Numbering (Arriving p) c e := by
  cases e with
  | spawn r =>
    simp only [arrives, Bool.and_eq_true, beq_iff_eq] at h
    refine ⟨h.1, ?_⟩
    obtain ⟨id, ev⟩ := r
    cases ev with
    | request cfg book req => exact ⟨cfg, book, req, rfl, h.2⟩
    | _ => exact absurd h.2 (by simp)
  | step i env => exact ⟨by simpa [arrives, Numbered] using h, trivial⟩

/-- The run of numbered arrivals and steps from a database. -/
def watchedRun (p : Request → Bool) (db : Db) (es : List ObservedStep) : Option Observed :=
  Conf.run observed Arrival.call (arrives p) ⟨⟨db, []⟩, []⟩ es

theorem watched_of_run {p : Request → Bool} {db : Db} {es : List ObservedStep} {c : Observed}
    (h : watchedRun p db es = some c) : Watched (Arriving p) db c :=
  Reach.run (fun _ _ => numbering_of_arrives) .start h

/-- Reads with tags that satisfy `c`, logged under the number of a call. -/
structure Looks (id : Nat) (c : Tag → Prop) (x y : Logged Db Note) : Prop where
  data : y.data = x.data
  log : Logged.Adds (fun e => e.1 = id ∧ c e.2.tag) x y

theorem Looks.of_write {β : Type} {q : Stmt β} {c : Tag → Prop} {env : Nat × Env}
    {v x y : Logged Db Note} (hq : q.Reads) (hc : c q.tag) (hw : observed.write q env v x = .ok y) :
    Looks env.1 c x y := by
  obtain ⟨hw, hl⟩ := Machine.logged_write hw
  refine ⟨hq.write hw, [_], hl, fun e he => ?_⟩
  rw [List.mem_singleton.mp he]
  exact ⟨rfl, hc⟩

/-- Such reads keep a contract that lets its call log them. -/
theorem frame_looks {C : Contract Stmt SqlErr (Nat × Env) (Logged Db Note)} {id : Nat}
    {c : Tag → Prop}
    (hid : ∀ {β : Type} (q : Stmt β) (env : Nat × Env) s, C.ok q env s → env.1 = id)
    (hk : ∀ {β : Type} (o : Op Stmt β) x y, C.inv x → Looks id c x y → C.inv y ∧ C.guar o x y) :
    Frame observed C (fun q => q.Reads ∧ c q.tag) (Looks id c) where
  refl x := ⟨rfl, .refl _ x⟩
  trans h h' := ⟨h'.data.trans h.data, h.log.trans h'.log⟩
  write q env s _ _ _ _ _ hq hok _ _ hw := hid q env s hok ▸ Looks.of_write hq.1 hq.2 hw
  keeps o x y _ hx h := hk o x y hx h

/-- The tag of the statement a call issues next. -/
def callTag {α : Type} : Call α → Option Tag
  | .op (.stmt q) _ => some q.tag
  | _ => none

/-- The tag of the statement that call `i` issues next. -/
def nextTag (c : Observed) (i : Nat) : Option Tag := (c.calls[i]?).bind fun a => callTag a.prog

theorem nextTag_of_step {ok : Observed → ObservedStep → Prop} {s₀ : Logged Db Note}
    {c c' : Observed} {i : Nat} {env : Nat × Env} {a : ObservedCall} {β : Type} {q : Stmt β}
    (h : StepOf observed Arrival.call ok s₀ c c' i env a (.stmt q)) : nextTag c i = some q.tag := by
  obtain ⟨k, hk⟩ := h.prog
  simp only [nextTag, h.call, Option.bind_some, hk, callTag]

/-- A registered user with a bank item: item 30 of book 3. -/
def banked : Db :=
  (serve (Event.request plainConfig 3 .plaidExchange).call
    (fun k => { calm 28 k with exchange := .ok ("access-1", "item-1", "Bank") }) registered).2

/-- A registered user whose account 12 is linked to the bank. -/
def linked : Db :=
  (serve (Event.request plainConfig 3 (.plaidLink (Guid.text 30) [⟨"checking", Guid.text 12⟩]
    true)).call (calm 40) banked).2

/-- A purchase of ten units on the linked account. -/
def bankTxn (id predecessor : String) (pending : Bool) : ApiTxn :=
  ⟨id, predecessor, some 19000, "food", 1000, "checking", pending⟩

/-- The linked book after a sync that brings these transactions. -/
def syncedWith (txns : List ApiTxn) : Db :=
  (serve (Event.request plainConfig 3 (.plaidSync (Guid.text 30))).call
    (fun k => { calm 60 k with sync := fun _ => .ok ⟨txns, [], [], 1, false⟩ }) linked).2

/-- The splits of a purchase from account 12. -/
def purchaseSplits (cents : Int64) : List CreateSplitRequest :=
  [⟨Guid.text 12, "", -cents, 100, -cents, 100, ""⟩, ⟨Guid.text 18, "", cents, 100, cents, 100, ""⟩]

/-- A registered user with a purchase, transaction 103 at version 1. -/
def purchased : Db :=
  (serve (Event.request plainConfig 3 (.createTransaction
    ⟨"", ⟨19000, 0⟩, "food", none, purchaseSplits 1000⟩)).call (calm 100) registered).2

theorem purchased_runs {ok : Event → (Nat → Env) → Db → Prop}
    (h : ∀ e envs db, ok e envs db) : Runs ok purchased :=
  .step _ _ (registered_runs (h _ _ _)) (by decide +kernel) (h _ _ _)

/-- The test of a numbered event. -/
def numbered (c : Observed) : ObservedStep → Bool
  | .spawn r => r.id == c.calls.length
  | .step i env => env.1 == i

theorem numbered_of_test {c : Observed} {e : ObservedStep} (h : numbered c e = true) :
    Numbered c e := by
  cases e <;> simpa [numbered, Numbered] using h

/-- The run of numbered events from a database. -/
def numberedRun (db : Db) (es : List ObservedStep) : Option Observed :=
  Conf.run observed Arrival.call numbered ⟨⟨db, []⟩, []⟩ es

end Antimoney
