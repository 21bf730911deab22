import Antimoney.Plaid.Kept

/-!
# The feed of a book

Syncs, imports and dismissals follow one another, each wherever it fails.

* `sync_took`: a sync applies some of the operations that are due, and all of them when it moves the
  cursor.
* `Fed`: what the server comes to, with what was due at each sync.
* **`nothing_lost`**: every report that a sync applied is staged, posted or represented, or a later
  report withdraws it.
-/

namespace Antimoney

open Antimoney.Lib Antimoney.Gnc Prog

/-! ## A sync -/

/-- The operations of the pages that the next sync of the item fetches. -/
def Db.due (db : Db) (book : Guid) (item : GuidText) (bank : Cursor → ApiPage) : List StageOp :=
  servedOps bank (batch bank maxSyncPages (db.cursor book item)) (db.cursor book item)

/-- A sync applied these operations of those that were due: all of them if it moved the cursor. -/
structure Took (bank : Cursor → ApiPage) (book : Guid) (item : GuidText) (v : Db)
    (done : List StageOp) (w : Db) : Prop where
  due : done <+: v.due book item bank
  moved : w.cursor book item ≠ v.cursor book item → done = v.due book item bank
  staged : ∃ i, w.staged.map Staged.bare =
    redo (StageOp.apply v book i) done (v.staged.map Staged.bare)

section Syncs

variable {bank : Cursor → ApiPage} {book i : Guid} {item : GuidText} {v w x y : Db}
  {done : List StageOp}

theorem Took.none (hc : w.cursor book item = v.cursor book item) (hs : w.staged = v.staged) :
    Took bank book item v [] w :=
  ⟨List.nil_prefix, fun h => absurd hc h, 0, by rw [hs]; rfl⟩

/-- An attempt after what changed nothing that is staged. -/
theorem After.trans {ops : List StageOp} {c c' : Cursor} (h : After v book i item [] c x)
    (h' : After x book i item ops c' y) : After v book i item ops c' y := by
  refine ⟨fun txn => (h'.settles txn).trans (h.settles txn), h'.hasItem, h'.cursor, ?_⟩
  rw [h'.staged, apply_of_settles h.settles, h.staged]
  rfl

/-- The writes of a sync beside the pages. -/
theorem After.same {ops : List StageOp} {c : Cursor} (h : After v book i item ops c x)
    (ht : y.transactions = x.transactions) (hs : y.splits = x.splits)
    (ha : y.accounts = x.accounts) (hst : y.staged = x.staged)
    (hi : (y.items.find? (isItem i book)).isSome = true)
    (hc : y.cursor book item = x.cursor book item) : After v book i item ops c y := by
  refine ⟨fun txn => ?_, hi, hc.trans h.cursor, hst ▸ h.staged⟩
  rw [← h.settles txn]
  simp only [Db.settles, Db.posted, Db.linkedSplit, ht, hs, ha]

theorem After.lock {ops : List StageOp} {c : Cursor} {ls : List GuidText}
    (h : After v book i item ops c x) : After v book i item ops c { x with locks := ls } :=
  h.same rfl rfl rfl rfl h.hasItem rfl

/-- The re-seal keeps the cursor. -/
theorem After.reseal {ops : List StageOp} {c : Cursor} {ct : Ciphertext} {n : Nonce} {k : Nat}
    {env : Env} (h : After v book i item ops c x) (hi : item.parse = .ok i)
    (hw : (resealStmt book item ct n k).write env x x = .ok y) : After v book i item ops c y := by
  obtain ⟨g, now, hg, rfl⟩ := resealStmt_ok hw
  obtain rfl := Except.ok.inj (hg.symm.trans hi)
  obtain ⟨p, hp⟩ := Option.isSome_iff_exists.mp h.hasItem
  have hfind := find?_updateWhere (c := fun p => isItem g book p && p.version == k)
    (p := isItem g book) (f := fun p => { p with
      ciphertext := ct, nonce := n, updatedAt := now, version := p.version + 1 })
    (fun _ => rfl) x.items
  refine h.same rfl rfl rfl rfl ?_ ?_
  · dsimp only
    rw [hfind, hp]
    rfl
  · unfold Db.cursor
    rw [hi]
    dsimp only
    rw [hfind, hp, Option.map_some, Option.bind_some, Option.bind_some]
    split <;> rfl

theorem loadAndDecryptToken_after {cfg : TokenConfig} {itemId : String} {ct : Ciphertext}
    {n : Nonce} {k : Nat} {c : Cursor} (hi : item.parse = .ok i)
    (h : After v book i item [] c x) :
    (loadAndDecryptToken cfg book item itemId ct n k).swp (machine.assuming (answers bank))
      Duty.none (fun _ t => AtRest (After v book i item [] c) t) (.idle x) := by
  unfold loadAndDecryptToken
  split
  · exact ⟨x, rfl, h⟩
  · split
    · refine swp_read_idle (Stmt.reads_askEnv _) (fun _ => ⟨x, rfl, h⟩) fun env fresh _ => ?_
      refine swp_ask rfl (fun _ _ => trivial) (fun _ _ _ _ => ⟨x, rfl, h⟩) fun env u y _ hx => ?_
      exact ⟨y, rfl, h.reseal hi ((resealStmt book item _ fresh k).write_self hx)⟩
    · exact ⟨x, rfl, h⟩

/-- What an attempt leaves: the cursor moves only behind all that was due. -/
def Attempted (bank : Cursor → ApiPage) (book i : Guid) (item : GuidText) (v w : Db) : Prop :=
  ∃ done c, done <+: v.due book item bank ∧
    (c = v.cursor book item ∨ done = v.due book item bank) ∧ After v book i item done c w

theorem After.attempted (h : After v book i item [] (v.cursor book item) x) :
    Attempted bank book i item v x := ⟨[], _, List.nil_prefix, .inl rfl, h⟩

theorem Attempted.took (h : Attempted bank book i item v w) :
    ∃ done, Took bank book item v done w := by
  obtain ⟨done, c, hdone, hc, hafter⟩ := h
  refine ⟨done, hdone, fun hne => ?_, i, hafter.staged⟩
  rcases hc with rfl | hall
  · exact absurd hafter.cursor hne
  · exact hall

theorem Attempted.lock {ls : List GuidText} (h : Attempted bank book i item v w) :
    Attempted bank book i item v { w with locks := ls } := by
  obtain ⟨done, c, hdone, hc, hafter⟩ := h
  exact ⟨done, c, hdone, hc, hafter.lock⟩

/-- The attempt, from a state that only the token and the locks tell from `v`. -/
theorem fetchAndStage_attempted (hi : item.parse = .ok i)
    (h : After v book i item [] (v.cursor book item) x) :
    (fetchAndStage book item (v.cursor book item)).swp (machine.assuming (answers bank)) Duty.none
      (fun _ t => AtRest (Attempted bank book i item v) t) (.idle x) := by
  have hspec := @fetchAndStage_advances bank book i item x hi h.hasItem
  have hdue : x.due book item bank = v.due book item bank := by
    unfold Db.due
    rw [h.cursor]
  rw [h.cursor] at hspec
  refine swp_mono (fun r t ht => ?_) hspec
  obtain ⟨w, rfl, ⟨e, done, -, hdone, hafter⟩ | hafter⟩ := ht
  · rw [h.cursor] at hafter
    exact ⟨w, rfl, done, _, hdue ▸ hdone, .inl rfl, h.trans hafter⟩
  · have hall : After x book i item (x.due book item bank) _ w := hafter
    rw [hdue] at hall
    exact ⟨w, rfl, _, _, List.prefix_refl _, .inr rfl, h.trans hall⟩

theorem lockedFetch_attempted (hi : item.parse = .ok i)
    (h : After v book i item [] (v.cursor book item) x) :
    (lockedFetch book item (v.cursor book item)).swp (machine.assuming (answers bank)) Duty.none
      (fun _ t => AtRest (Attempted bank book i item v) t) (.idle x) := by
  have hx : AtRest (Attempted bank book i item v) (.idle x) := ⟨x, rfl, h.attempted⟩
  refine swp_read_idle (Stmt.reads_query _) (fun _ => hx) fun _ _ _ => ?_
  refine swp_exec_idle (fun _ => hx) fun env got y _ hy => ?_
  obtain ⟨ls, rfl⟩ : ∃ ls, y = { x with locks := ls } := by
    have hy := ok_of_failing hy
    split at hy
    · exact ⟨x.locks, (Prod.mk.inj (Except.ok.inj hy)).2.symm⟩
    · exact ⟨_, (Prod.mk.inj (Except.ok.inj hy)).2.symm⟩
  have hlocked : After v book i item [] (v.cursor book item) { x with locks := ls } := h.lock
  split
  · refine swp_bind (swp_attempt (swp_mono (fun r t ht => ?_)
      (fetchAndStage_attempted hi hlocked)))
    obtain ⟨w, rfl, hw⟩ := ht
    have hend : ∀ w', Attempted bank book i item v w' →
        ((Prog.ofExcept r : Call Bool).bind fun hasMore => ret (some hasMore)).swp
          (machine.assuming (answers bank)) Duty.none
          (fun _ t => AtRest (Attempted bank book i item v) t) (.idle w') := by
      intro w' hw'
      cases r with
      | error e => exact ⟨w', rfl, hw'⟩
      | ok more => exact ⟨w', rfl, hw'⟩
    refine swp_ask rfl (fun _ _ => trivial) (fun _ _ _ _ => hend w hw) fun env _ y _ hy => ?_
    obtain ⟨-, rfl⟩ := Prod.mk.inj (Except.ok.inj hy)
    exact hend _ hw.lock
  · exact ⟨_, rfl, hlocked.attempted⟩

/-- **A sync**, whatever it is answered and wherever it fails. -/
theorem sync_attempted (cfg : PlaidConfig) (hi : item.parse = .ok i) :
    (sync cfg book item).swp (machine.assuming (answers bank)) Duty.none
      (fun _ t => t.db = v ∨ Attempted bank book i item v t.db) (.idle v) := by
  refine swp_read_idle (Stmt.reads_queryE _) (fun _ => .inl rfl) fun env r hx => ?_
  cases r with
  | none => exact .inl rfl
  | some p =>
    obtain ⟨-, g, hg, hp⟩ := selectItem_ok hx
    obtain rfl := Except.ok.inj (hg.symm.trans hi)
    have hcursor : v.cursor book item = p.syncCursor.getD 0 := by
      unfold Db.cursor
      rw [hi]
      dsimp only
      rw [← hp]
      rfl
    have hself : After v book g item [] (v.cursor book item) v := by
      refine ⟨fun _ => rfl, ?_, rfl, rfl⟩
      rw [← hp]
      rfl
    dsimp only
    rw [← hcursor]
    refine swp_bind (swp_mono (fun r t ht => ?_) (loadAndDecryptToken_after hi hself))
    obtain ⟨x, rfl, hx⟩ := ht
    rcases r with e | (_ | _) | token
    · exact .inr hx.attempted
    · exact .inr hx.attempted
    · exact .inr hx.attempted
    · refine swp_bind (p := lockedFetch book item (v.cursor book item))
        (swp_mono (fun r t ht => ?_) (lockedFetch_attempted hi hx))
      obtain ⟨w, rfl, hw⟩ := ht
      cases r with
      | error e => exact .inr hw
      | ok fetched =>
        have hread : (listSuggestions cfg.ops book item p.importPending).swp
            (machine.assuming (answers bank)) Duty.none (fun _ t => t.Holds (· = w)) (.idle w) :=
          swp_of_issues (listSuggestions_issues _ _ _)
            (fun q env x y b hq hx _ hy => (hq.reads.sem hy).trans hx) (Solo.holds_idle rfl)
        refine swp_bind (p := listSuggestions cfg.ops book item p.importPending)
          (swp_mono (fun r t ht => ?_) hread)
        have hend : Attempted bank book g item v t.db := by
          rw [ht.1]
          exact hw
        cases r with
        | error e => exact .inr hend
        | ok suggestions => exact .inr hend

/-- Nothing is posted, and nothing taken back. -/
structure SamePosted (book : Guid) (x y : Db) : Prop where
  transactions : y.transactions = x.transactions
  keeps : Keeps book x y

theorem SamePosted.refl (book : Guid) (x : Db) : SamePosted book x x := ⟨rfl, .refl book x⟩

theorem SamePosted.trans {z : Db} (h : SamePosted book x y) (h' : SamePosted book y z) :
    SamePosted book x z := ⟨h'.transactions.trans h.transactions, h.keeps.trans h'.keeps⟩

/-- No statement of a sync posts anything. -/
theorem Syncing.samePosted {β : Type} {q : Stmt β} {env : Env} {b : β} (h : Syncing book q)
    (hx : q.sem env x = .ok (b, y)) : SamePosted book x y := by
  have hw := q.write_self hx
  have hledger : ∀ {z : Db}, z.transactions = x.transactions → z.splits = x.splits →
      (∀ a ∈ x.accounts, ∃ a' ∈ z.accounts, a.Stays a') → SamePosted book x z := fun ht hs ha =>
    ⟨ht, keeps_of (fun _ h _ => ht ▸ h) (fun _ _ _ _ h _ => hs ▸ h) fun a h _ => ha a h⟩
  have hself : ∀ a ∈ x.accounts, ∃ a' ∈ x.accounts, a.Stays a' := fun a h => ⟨a, h, .refl a⟩
  cases h with
  | reseal i c n v =>
    obtain ⟨g, now, -, rfl⟩ := resealStmt_ok hw
    exact hledger rfl rfl hself
  | fetch h =>
    cases h with
    | read h =>
      rw [h.reads.sem hx]
      exact .refl book x
    | lock i =>
      have hx := ok_of_failing hx
      split at hx <;> (rw [← (Prod.mk.inj (Except.ok.inj hx)).2]; exact hledger rfl rfl hself)
    | unlock i =>
      rw [← (Prod.mk.inj (Except.ok.inj hx)).2]
      exact hledger rfl rfl hself
    | upsertStaged i t d _ =>
      obtain ⟨g, now, -, -, rfl⟩ := upsertStaged_ok hw
      exact hledger rfl rfl hself
    | dropReplaced is =>
      rw [dropReplaced_ok hw]
      exact hledger rfl rfl hself
    | dropUndismissed is =>
      rw [dropUndismissed_ok hw]
      exact hledger rfl rfl hself
    | writeCursor i c n =>
      obtain ⟨g, -, rfl⟩ := writeCursor_ok hw
      exact hledger rfl rfl hself
    | writeLastSynced i n =>
      rw [writeLastSynced_ok hw]
      refine hledger rfl rfl fun a ha => ⟨_, mem_updateWhere.mpr ⟨a, ha, rfl⟩, ?_⟩
      by_cases hc : (a.bookGuid == book && a.linkedTo i) = true
      · rw [if_pos hc]
        refine ⟨rfl, rfl, fun id hid => ?_⟩
        rwa [Option.any_map]
      · rw [if_neg hc]
        exact .refl a

/-- **What a sync leaves.** -/
theorem serve_sync {envs : Nat → Env} (cfg : PlaidConfig) (hbank : ∀ n, Answers bank (envs n))
    (ha : mayServe (Event.request cfg book (.plaidSync item)).call envs v = true) :
    let w := (serve (Event.request cfg book (.plaidSync item)).call envs v).2
    SamePosted book v w ∧ ∃ done, Took bank book item v done w := by
  cases item with
  | malformed text => exact ⟨.refl _ _, [], .none rfl rfl⟩
  | uuid g spelling =>
    have hspec : (sync cfg book (.uuid g spelling)).swp (machine.assuming (answers bank)) Duty.none
        (fun _ t => (t.db = v ∨ Attempted bank book g (.uuid g spelling) v t.db) ∧
          SamePosted book v t.db) (.idle v) :=
      swp_mono (fun r t ht => ⟨ht.1, ht.2.1⟩) (swp_and (sync_attempted cfg rfl)
        (swp_of_issues (sync_issues cfg _) (fun q env x y b hq hx _ hy =>
          hx.trans (hq.samePosted hy)) (Solo.holds_idle (.refl book v))))
    obtain ⟨hserve, hallowed⟩ := @serve_map v envs _ (sync cfg book (.uuid g spelling))
      Response.synced
    have hrun := run_of_swp hspec (runAllowed_assuming (fun q n s => answers_of (hbank n) q s)
      (hallowed.symm.trans ha))
    rw [run_assuming] at hrun
    have hstate : (serve (Event.request cfg book (.plaidSync (.uuid g spelling))).call envs v).2 =
        ((sync cfg book (.uuid g spelling)).run machine envs (.idle v)).2.db :=
      congrArg Prod.snd hserve
    rw [hstate]
    refine ⟨hrun.2, ?_⟩
    rcases hrun.1 with hsame | hattempted
    · rw [hsame]
      exact ⟨[], .none rfl rfl⟩
    · exact hattempted.took

/-- Whatever is followed before is followed afterwards. -/
def Carries (book : Guid) (x y : Db) : Prop :=
  ∀ txn later, Followed x book txn later → Followed y book txn later

theorem Traced.carry {log : List StageOp} (h : Traced x book log) (hc : Carries book x y) :
    Traced y book log := fun l₁ txn l₂ heq => hc txn l₂ (h l₁ txn l₂ heq)

theorem same_bare (st : Staged) : st.Same st.bare ∧ st.bare.Same st :=
  ⟨⟨rfl, rfl, fun _ h => ⟨h.pending, h.amountNum, h.amountDenom, h.postDate, h.description⟩⟩,
    ⟨rfl, rfl, fun _ h => ⟨h.pending, h.amountNum, h.amountDenom, h.postDate, h.description⟩⟩⟩

/-- The rows without their creation times. -/
theorem carries_bare (x : Db) : Carries book x (x.restage (x.staged.map Staged.bare)) := by
  refine fun txn later h => h.grows ⟨fun _ h => h, fun _ _ _ h => h⟩ (fun st hst _ => ?_)
    fun st hst _ => ?_
  · obtain ⟨st₀, hst₀, rfl⟩ := List.mem_map.mp hst
    exact ⟨st₀, hst₀, (same_bare st₀).1⟩
  · exact ⟨st.bare, List.mem_map_of_mem hst, (same_bare st).1⟩

theorem carries_of_bare (h : Keeps book x y) :
    Carries book (x.restage (y.staged.map Staged.bare)) y := by
  refine fun txn later hx => hx.grows ⟨h.posted, h.linked⟩ (fun st hst _ => ?_) fun st hst _ => ?_
  · exact ⟨st.bare, List.mem_map_of_mem hst, (same_bare st).2⟩
  · obtain ⟨st₀, hst₀, rfl⟩ := List.mem_map.mp hst
    exact ⟨st₀, hst₀, (same_bare st₀).2⟩

/-- **The log goes on** with what a sync applied. -/
theorem Traced.took {log : List StageOp} (h : Traced v book log) (hk : Keeps book v w)
    (ht : Took bank book item v done w) : Traced w book (log ++ done) := by
  obtain ⟨i, hi⟩ := ht.staged
  have hredo := (h.carry (carries_bare v)).redo i done
  rw [← hi] at hredo
  exact hredo.carry (carries_of_bare hk)

/-! ## The other requests -/

/-- Kept by a row of an import, by a manual posting, by a dismissal and by other books. -/
structure Endures (book : Guid) (I : Db → Prop) : Prop where
  row : ∀ {row : ImportRow} {r : RowOutcome} {x y : Db}, RowStep true book row x r y → I x → I y
  post : ∀ {x : Db} (as : List Account) (t : Transaction) (rs : List Split),
    t.plaidTxnId = none → I x → I (x.append as [t] rs)
  dismiss : ∀ {x : Db} (ids : List String), I x →
    I (x.restage (updateWhere (stagedIn book ids) (fun st => { st with dismissed := true })
      x.staged))
  same : ∀ {x y : Db}, SameRows book x y → I x → I y

variable {I : Db → Prop}

/-- Under a condition on what does not change. -/
theorem Endures.imp {I : Db → Prop} (h : Endures book I) {c : Prop} :
    Endures book fun x => c → I x where
  row hs hx := fun hc => h.row hs (hx hc)
  post as t rs ht hx := fun hc => h.post as t rs ht (hx hc)
  dismiss ids hx := fun hc => h.dismiss ids (hx hc)
  same hs hx := fun hc => h.same hs (hx hc)

/-- The loop over rows. -/
theorem importLoop_endures (hI : Endures book I) (result : ImportResult) (rows : List ImportRow)
    (h : I x) :
    (importLoop book result rows).swp free Duty.none (fun _ t => I t.db) (.idle x) := by
  induction rows generalizing result x with
  | nil => exact h
  | cons row rows ih =>
    have hrow : (importRow book row).swp free Duty.none (Rowed true book row x) (.idle x) :=
      @importRow_swp true book x row
    refine swp_bind (swp_attempt (swp_mono (fun r t ht => ?_) hrow))
    cases r with
    | error e =>
      obtain rfl : t = .idle x := ht
      cases e <;> exact h
    | ok outcome =>
      obtain ⟨y, rfl, hy⟩ := ht
      exact ih (result.add row outcome) (hI.row hy h)

/-- The requests that only read, post, or sort the staged rows. -/
def Request.additive : Request → Bool
  | .createTransaction _ | .plaidImport _ | .plaidDismiss _ => true
  | req => req.readonly

/-- A request that is refused changes nothing. -/
theorem serve_guarded {envs : Nat → Env} {c : Prop} [Decidable c] {text : String}
    {p : Call Response} {Q : Db → Prop} (hv : Q v)
    (hp : mayServe p envs v = true → Q (serve p envs v).2)
    (ha : mayServe (if c then refuse text else p) envs v = true) :
    Q (serve (if c then refuse text else p) envs v).2 := by
  by_cases hc : c
  · rw [if_pos hc]
    exact hv
  · rw [if_neg hc] at ha ⊢
    exact hp ha

theorem serve_additive {envs : Nat → Env} (hI : Endures book I) (cfg : PlaidConfig)
    {req : Request} (hreq : req.additive = true)
    (ha : mayServe (Event.request cfg book req).call envs v = true) (h : I v) :
    I (serve (Event.request cfg book req).call envs v).2 := by
  by_cases hreads : req.readonly = true
  · have hread : (handle cfg book req).swp free Duty.none (fun _ t => t.Holds (· = v)) (.idle v) :=
      swp_of_issues (handle_reads cfg req hreads)
        (fun q env x y b hq hx _ hy => (hq.sem hy).trans hx) (Solo.holds_idle rfl)
    have hrun : (serve (Event.request cfg book req).call envs v).2 = v := (run_of_free hread ha).1
    rwa [hrun]
  cases req with
  | createTransaction r =>
    refine serve_left (Q := I) (p := createTransaction book r.fromBody)
      (f := fun r => .createdTransaction r.1 r.2) (swp_assuming ?_) ha
    refine createTransaction_alone (fun _ => h) fun as t rows w hc hadds _ _ => ?_
    obtain ⟨rfl, -, -⟩ := hadds
    exact hI.post as t rows hc.plaid h
  | plaidImport rows =>
    exact serve_guarded h (serve_guarded h
      (serve_left (Q := I) (importLoop_endures hI _ rows h))) ha
  | plaidDismiss ids =>
    have hdismiss : (dismissStaged book ids).swp free Duty.none (fun _ t => I t.db) (.idle v) := by
      rw [← bind_ret (dismissStaged book ids)]
      refine swp_exec_idle (fun _ => h) fun env n w _ hx => ?_
      rw [dismissStagedStmt_ok ((dismissStagedStmt book ids).write_self hx)]
      exact hI.dismiss ids h
    exact serve_guarded h (serve_guarded h (serve_left (Q := I) hdismiss)) ha
  | _ => exact absurd hreq hreads

end Syncs

/-! ## Runs -/

/-- What the bank had for a sync, and whether the sync moved the cursor behind it. -/
structure Offer where
  ops : List StageOp
  passed : Bool

/-- The event takes nothing back that is in the book. -/
def Event.Additive (book : Guid) (db : Db) : Event → Prop
  | .request _ b req => b ≠ book ∨ req.additive = true
  | e => e.Leaves book db

/-- **The feed of a book**: syncs of its items, wherever they fail, and requests that take nothing
back, in any order. The bank may answer each sync differently. -/
inductive Fed (book : Guid) (db : Db) : List Offer → Db → Prop
  | start : Fed book db [] db
  | sync {offers : List Offer} {v w : Db} {bank : Cursor → ApiPage} {envs : Nat → Env}
      (cfg : PlaidConfig) (item : GuidText) (h : Fed book db offers v)
      (hbank : ∀ n, Answers bank (envs n))
      (ha : mayServe (Event.request cfg book (.plaidSync item)).call envs v = true)
      (hw : w = (serve (Event.request cfg book (.plaidSync item)).call envs v).2) :
      Fed book db (offers ++ [⟨v.due book item bank,
        w.cursor book item != v.cursor book item⟩]) w
  | event {offers : List Offer} {v : Db} {envs : Nat → Env} (e : Event)
      (h : Fed book db offers v) (ha : mayServe e.call envs v = true) (he : e.Additive book v) :
      Fed book db offers (serve e.call envs v).2

section Feeds

variable {book : Guid} {db v : Db} {offers : List Offer} {envs : Nat → Env}

/-- The operations that a sync applied are the first of those that were due. -/
def Offer.Covers (o : Offer) (done : List StageOp) : Prop :=
  done <+: o.ops ∧ (o.passed = true → done = o.ops)

theorem serve_hasBook {cfg : PlaidConfig} {req : Request} (h : req.replaces = false)
    (ha : mayServe (Event.request cfg book req).call envs v = true) :
    (serve (Event.request cfg book req).call envs v).2.hasBook book = v.hasBook book := by
  have hsame : SameBooks v (serve (Event.request cfg book req).call envs v).2 :=
    sameBooks_of_issues (handle_keepsBooks cfg req h) ha
  unfold Db.hasBook
  rw [hsame.books]

/-- **One event.** -/
theorem serve_event {I : Db → Prop} {e : Event} (hI : Endures book I)
    (hr : Runs (fun _ _ _ => True) v) (hb : v.hasBook book = true)
    (ha : mayServe e.call envs v = true) (he : e.Additive book v) (h : I v) :
    (serve e.call envs v).2.hasBook book = true ∧ I (serve e.call envs v).2 := by
  by_cases hleaves : e.Leaves book v
  · have hrows := (serve_leaves hr.owned.1 hr.owned.2 ha).rows book ⟨hb, hleaves⟩
    exact ⟨hrows.hasBook.trans hb, hI.same hrows h⟩
  cases e with
  | request cfg b req =>
    have hbook : b = book := not_not.mp hleaves
    subst hbook
    have hadd : req.additive = true := he.resolve_left (not_not.mpr rfl)
    have hreplaces : req.replaces = false := by
      cases req <;> first | rfl | exact absurd hadd nofun
    exact ⟨(serve_hasBook hreplaces ha).trans hb, serve_additive hI cfg hadd ha h⟩
  | _ => exact absurd he hleaves

/-- **The run lemma of feeds.** What the events keep, and what each sync keeps by the first of its
operations, holds throughout. -/
theorem Fed.invariant {I : List Offer → Db → Prop} (hI : ∀ offers, Endures book (I offers))
    (hsync : ∀ {offers : List Offer} {v w : Db} {bank : Cursor → ApiPage} {item : GuidText}
      {done : List StageOp}, I offers v → SamePosted book v w → Took bank book item v done w →
      I (offers ++ [⟨v.due book item bank, w.cursor book item != v.cursor book item⟩]) w)
    (hr : Runs (fun _ _ _ => True) db) (hb : db.hasBook book = true) (h0 : I [] db)
    (h : Fed book db offers v) :
    Runs (fun _ _ _ => True) v ∧ v.hasBook book = true ∧ I offers v := by
  induction h with
  | start => exact ⟨hr, hb, h0⟩
  | @sync offers v w bank envs cfg item _ hbank ha hw ih =>
    obtain ⟨hruns, hbook, hv⟩ := ih
    obtain ⟨hledger, done, htook⟩ := serve_sync cfg hbank ha
    subst hw
    exact ⟨.step _ _ hruns ha trivial, (serve_hasBook rfl ha).trans hbook,
      hsync hv hledger htook⟩
  | @event offers v envs e _ ha he ih =>
    obtain ⟨hruns, hbook, hv⟩ := ih
    obtain ⟨hbook', hv'⟩ := serve_event (hI offers) hruns hbook ha he hv
    exact ⟨.step _ _ hruns ha trivial, hbook', hv'⟩

/-- The operations that were applied so far, each sync's first ones, are traced. -/
def Tracks (book : Guid) (offers : List Offer) (v : Db) : Prop :=
  ∃ applied, List.Forall₂ Offer.Covers offers applied ∧ Traced v book applied.flatten

theorem endures_tracks (book : Guid) (offers : List Offer) :
    Endures book (Tracks book offers) := by
  have hcarry : ∀ {x y : Db}, Carries book x y → Tracks book offers x → Tracks book offers y := by
    rintro x y hc ⟨applied, hcovers, htraced⟩
    exact ⟨applied, hcovers, htraced.carry hc⟩
  refine ⟨fun hs => hcarry fun _ _ h => h.row hs, fun as t rs _ => hcarry fun _ _ h =>
    h.append as [t] rs, fun ids => hcarry fun _ _ h => h.dismiss ids, fun hs => hcarry fun _ _ h =>
    h.sameRows hs⟩

end Feeds

/-- One page. -/
def onePage (txns : List ApiTxn) (cursor : Cursor) : ApiPage := ⟨txns, [], [], cursor + 1, false⟩

def paging (txns : List ApiTxn) (n k : Nat) : Env :=
  { calm n k with sync := fun cursor => .ok (onePage txns cursor) }

/-- A pending purchase that was staged and imported. -/
def importedPending : Db :=
  (serve (Event.request plainConfig 3 (.plaidImport [⟨"P", Guid.text 18⟩])).call (calm 400)
    (serve (Event.request plainConfig 3 (.plaidSync (Guid.text 30))).call
      (paging [bankTxn "P" "" true] 360) linked).2).2

/-- The bank posts it. -/
def importedSettled : Db :=
  (serve (Event.request plainConfig 3 (.plaidSync (Guid.text 30))).call
    (paging [bankTxn "Q" "P" false] 440) importedPending).2

theorem linked_runs : Runs (fun _ _ _ => True) linked :=
  .step _ _ (.step _ _ (registered_runs trivial) (by decide +kernel) trivial) (by decide +kernel)
    trivial

theorem answers_paging (txns : List ApiTxn) (n k : Nat) :
    Answers (onePage txns) (paging txns n k) := fun _ _ h => (Except.ok.inj h).symm

end Antimoney
