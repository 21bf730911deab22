import Antimoney.Plaid.Categories
import Antimoney.Reads

/-!
# What `Sync` offers

The listing of `Sync` reads the staged rows, the linked accounts and the history, and changes
nothing.

* `Db.offered`: the staged rows it shows, each with its bank account.
* `listSuggestions_run`: it shows them in order, each with an answer of a search or none.
* **`sync_category_iff`**: no suggestion of `Sync` names the bank account itself as its category,
  whatever the environment does, exactly when no bank account is a candidate of its row.
-/

namespace Antimoney

open Antimoney.Lib Prog

namespace Db

/-- The accounts linked to an item: plaid account, guid, name. -/
def linkedAccounts (db : Db) (book : Guid) (item : GuidText) : List (String × Guid × String) :=
  (db.accounts.filter fun a => a.bookGuid == book && a.linkedTo item).filterMap
    fun a => a.plaid.map fun l => (l.accountId, a.guid, a.name)

/-- The staged rows the query of the listing answers. -/
def suggestionRows (db : Db) (book : Guid) (item : GuidText) (importPending : Bool) :
    Except SqlErr (List Staged) := do
  let i ← item.parse
  let rows ← rejectE db.replaced (db.staged.filter (db.listable book i importPending))
  return rows.insertionSort stagedLe

/-- The rows the listing shows, with their bank accounts. -/
def offered (db : Db) (book : Guid) (item : GuidText) (importPending : Bool) :
    Except SqlErr (List (Staged × Guid × String)) :=
  (db.suggestionRows book item importPending).map (mappedRows (db.linkedAccounts book item))

/-- The suggestion of a row: its category is an answer of a search, or there is none. -/
def Offers (db : Db) (ops : TextOps) (book : Guid) (row : Staged × Guid × String)
    (s : SyncSuggestion) : Prop :=
  ∃ o name, s = { suggestionOf (row, o) with suggestedCategoryName := name } ∧
    (o = none ∨ db.Suggests ops book row.1.description o)

end Db

/-! ## The calls of the listing -/

section Runs

variable {ops : TextOps} {book : Guid} {db : Db}

/-- A call that begins with a statement. -/
theorem run_exec {α β : Type} {text : String} {q : Stmt β} {k : β → Call α} (envs : Nat → Env) :
    ((exec text q).bind k).run machine envs (.idle db) =
      match q.sem (envs 0) db with
      | .ok (b, v) => (k b).run machine (fun n => envs (n + 1)) (.idle v)
      | .error e => (.error (.wrapped text e), .idle db) := by
  cases hx : q.sem (envs 0) db <;>
    simp [exec, sql, Prog.bind, Prog.run, soloStep, machine, hx]

/-- A call that begins with a query that may be refused. -/
theorem run_queryE {α β : Type} {text : String} {f : Db → Except SqlErr β} {k : β → Call α}
    (envs : Nat → Env) : ((exec text (.queryE f)).bind k).run machine envs (.idle db) =
      match if (envs 0).fail then .error .failed else f db with
      | .ok b => (k b).run machine (fun n => envs (n + 1)) (.idle db)
      | .error e => (.error (.wrapped text e), .idle db) := by
  rw [run_exec]
  by_cases hf : (envs 0).fail = true
  · simp [Stmt.queryE, Stmt.sql, Stmt.mk', hf]
  · cases hb : f db <;> simp [Stmt.queryE, Stmt.sql, Stmt.mk', hf, hb, Except.map]

/-- A call that begins with a query. -/
theorem run_query {α β : Type} {text : String} {f : Db → β} {k : β → Call α}
    (envs : Nat → Env) : ((exec text (.query f)).bind k).run machine envs (.idle db) =
      if (envs 0).fail then (.error (.wrapped text .failed), .idle db)
      else (k (f db)).run machine (fun n => envs (n + 1)) (.idle db) := by
  refine (run_queryE (f := fun db => .ok (f db)) envs).trans ?_
  by_cases hf : (envs 0).fail = true <;> simp [hf]

theorem selectLinkedAccounts_eq (book : Guid) (item : GuidText) :
    selectLinkedAccounts book item = .query fun db => db.linkedAccounts book item := rfl

theorem selectSuggestions_eq (book : Guid) (item : GuidText) (importPending : Bool) :
    selectSuggestions book item importPending =
      .queryE fun db => db.suggestionRows book item importPending := rfl

/-- The names are filled in. -/
theorem offers_of_zip {rows : List (Staged × Guid × String)} {cats : List (Option Guid)}
    (h : List.Forall₂ (fun d o => o = none ∨ db.Suggests ops book d o)
      (rows.map (·.1.description)) cats) (name : SyncSuggestion → String) :
    List.Forall₂ (db.Offers ops book) rows (((rows.zip cats).map suggestionOf).map
      fun s => { s with suggestedCategoryName := name s }) := by
  induction rows generalizing cats with
  | nil => exact .nil
  | cons row rows ih =>
    cases h with
    | cons ho hrest => exact .cons ⟨_, _, rfl, ho⟩ (ih hrest)

/-- The searches of a listing, whatever fails. -/
theorem suggestBatch_any (ops : TextOps) (book : Guid) (db : Db) (ds : List String)
    (envs : Nat → Env) :
    ∃ out, (suggestBatch ops book ds).run machine envs (.idle db) = (.ok out, .idle db) ∧
      List.Forall₂ (fun d o => o = none ∨ db.Suggests ops book d o) ds out := by
  refine suggestBatch_run ops book db (C := fun _ => True) (fun _ _ _ => trivial)
    (fun d o envs _ h => ?_) (fun _ _ h => .inr h) ds envs (fun _ => trivial) fun _ => trivial
  obtain ⟨o', ho', hs, -⟩ := suggest_run ops book db d envs
  rw [h] at ho'
  obtain rfl := Except.ok.inj (congrArg Prod.fst ho')
  exact hs

/-- What the end of a listing makes of its suggestions: an answer unless its query fails, and in
an answer nothing but names is filled in. -/
structure Named (env : Env) (suggestions : List SyncSuggestion)
    (r : Except Err (List SyncSuggestion)) : Prop where
  ok : env.fail = false → ∃ ss, r = .ok ss
  eq : ∀ ss, r = .ok ss → ∃ name : SyncSuggestion → String,
    ss = suggestions.map fun s => { s with suggestedCategoryName := name s }

/-- The end of a listing, which fills in names. -/
theorem run_names (book : Guid) (db : Db) (ids : List Guid)
    (suggestions : List SyncSuggestion) (envs : Nat → Env) :
    ∃ r, (if ids.isEmpty then ret suggestions
        else (exec "load category names" (selectNames book ids.dedup)).bind fun names =>
          ret (suggestions.map fun s =>
            { s with suggestedCategoryName := nameOf names s.suggestedCategoryGuid }) :
        Call (List SyncSuggestion)).run machine envs (.idle db) = (r, .idle db) ∧
      Named (envs 0) suggestions r := by
  by_cases he : ids.isEmpty = true
  · rw [if_pos he]
    refine ⟨_, rfl, fun _ => ⟨_, rfl⟩, fun ss h => ⟨fun s => s.suggestedCategoryName, ?_⟩⟩
    rw [← Except.ok.inj h, List.map_id']
  · rw [if_neg he]
    unfold selectNames
    rw [run_query]
    by_cases hf : (envs 0).fail = true
    · rw [if_pos hf]
      exact ⟨_, rfl, fun h => absurd hf (by simp [h]), fun ss h => absurd h (by simp)⟩
    · rw [if_neg hf]
      exact ⟨_, rfl, fun _ => ⟨_, rfl⟩, fun ss h => ⟨_, (Except.ok.inj h).symm⟩⟩

/-- **The listing** shows the rows it offers. -/
theorem listSuggestions_run (ops : TextOps) (book : Guid) (item : GuidText) (importPending : Bool)
    (db : Db) (envs : Nat → Env) :
    ∃ r, (listSuggestions ops book item importPending).run machine envs (.idle db) = (r, .idle db) ∧
      ∀ ss, r = .ok ss → ∃ rows, db.offered book item importPending = .ok rows ∧
        List.Forall₂ (db.Offers ops book) rows ss := by
  have herr : ∀ e : Err, ∃ r : Except Err (List SyncSuggestion),
      ((.error e, .idle db) : Except Err (List SyncSuggestion) × Solo SqlErr Db) = (r, .idle db) ∧
        ∀ ss, r = .ok ss → ∃ rows, db.offered book item importPending = .ok rows ∧
          List.Forall₂ (db.Offers ops book) rows ss := fun e =>
    ⟨_, rfl, fun ss h => absurd h (by simp)⟩
  unfold listSuggestions
  simp only [bind_eq, pure_eq]
  rw [selectLinkedAccounts_eq, selectSuggestions_eq, run_query]
  split
  · exact herr _
  rw [run_queryE]
  split
  · rename_i staged hstaged
    have hrows : db.suggestionRows book item importPending = .ok staged := ok_of_failing hstaged
    obtain ⟨cats, hcats, hall⟩ := suggestBatch_any ops book db
      ((mappedRows (db.linkedAccounts book item) staged).map (·.1.description))
      fun n => envs (n + 1 + 1)
    rw [(run_bind_ok hcats).1]
    obtain ⟨r, hr, -, hnames⟩ := run_names book db (cats.filterMap id)
      (((mappedRows (db.linkedAccounts book item) staged).zip cats).map suggestionOf) _
    refine ⟨r, hr, fun ss hss => ⟨_, by rw [Db.offered, hrows]; rfl, ?_⟩⟩
    obtain ⟨name, rfl⟩ := hnames ss hss
    exact offers_of_zip hall name
  · exact herr _

/-- The listing on a stream that supplies one thing, without failure. -/
theorem listSuggestions_steady (ops : TextOps) {item : GuidText} {importPending : Bool}
    (env : Env) (hf : env.fail = false) {rows : List (Staged × Guid × String)}
    (hrows : db.offered book item importPending = .ok rows) :
    ∃ ss, (listSuggestions ops book item importPending).run machine (fun _ => env) (.idle db) =
        (.ok ss, .idle db) ∧
      ∀ i row, rows[i]? = some row → ∃ s ∈ ss, s.bankAccountGuid = row.2.1 ∧
        s.suggestedCategoryGuid = db.suggestion ops book row.1.description
          (fun g => env.ties (Nat.pair i g)) fun g => env.ties (Nat.pair i g) := by
  obtain ⟨staged, hstaged, rfl⟩ := ok_map hrows
  unfold listSuggestions
  simp only [bind_eq, pure_eq]
  rw [selectLinkedAccounts_eq, selectSuggestions_eq, run_query, if_neg (by simp [hf]), run_queryE,
    if_neg (by simp [hf]), hstaged]
  dsimp only
  rw [(run_bind_ok (suggestBatch_steady _ hf)).1]
  obtain ⟨r, hr, hok, hnames⟩ := run_names book db
    (List.filterMap id (db.passed ops book .substring
      ((mappedRows (db.linkedAccounts book item) staged).map (·.1.description))
      (db.passed ops book .exact _ (List.map (fun _ => none) _) env.ties) env.ties)) _
    fun _ => env
  obtain ⟨ss, rfl⟩ := hok hf
  obtain ⟨name, rfl⟩ := hnames ss rfl
  refine ⟨_, hr, fun i row hi => ?_⟩
  have hd : ((mappedRows (db.linkedAccounts book item) staged).map (·.1.description))[i]? =
      some row.1.description := by rw [List.getElem?_map, hi, Option.map_some]
  have hcat := passed_passed ops book db env.ties env.ties hd
  have hzip := List.mem_of_getElem? ((List.getElem?_zip_eq_some (z := (row, _))).mpr ⟨hi, hcat⟩)
  exact ⟨_, List.mem_map_of_mem (List.mem_map_of_mem hzip), rfl, rfl⟩

/-! ### The listing only asks -/

theorem suggest_body (ops : TextOps) (book : Guid) (d : String) : (suggest ops book d).Body := by
  unfold suggest
  dsimp only
  split
  · trivial
  · refine body_ask fun r => ?_
    rcases r with e | _ | g
    · trivial
    · refine body_ask fun r => ?_
      cases r <;> trivial
    · trivial

theorem suggestPerRow_body (ops : TextOps) (book : Guid) (ds : List String) :
    (suggestPerRow ops book ds).Body := by
  induction ds with
  | nil => trivial
  | cons d ds ih => exact body_bind (suggest_body ops book d) fun _ => body_bind ih fun _ => trivial

theorem runPass_body (ops : TextOps) (book : Guid) (mode : MatchMode) (ds : List String)
    (out : List (Option Guid)) : (runPass ops book mode ds out).Body := by
  unfold runPass
  dsimp only
  split
  · trivial
  · refine body_ask fun r => ?_
    cases r <;> trivial

theorem suggestBatch_body (ops : TextOps) (book : Guid) (ds : List String) :
    (suggestBatch ops book ds).Body := by
  refine body_bind (runPass_body ..) fun out => ?_
  cases out with
  | none => exact suggestPerRow_body ..
  | some out =>
    refine body_bind (runPass_body ..) fun out => ?_
    cases out with
    | none => exact suggestPerRow_body ..
    | some out => trivial

theorem listSuggestions_body (ops : TextOps) (book : Guid) (item : GuidText)
    (importPending : Bool) : (listSuggestions ops book item importPending).Body := by
  refine body_sql fun linked => body_sql fun staged => ?_
  refine body_bind (suggestBatch_body ..) fun cats => ?_
  dsimp only
  split
  · trivial
  · exact body_sql fun _ => trivial

end Runs

/-! ## The end of `Sync` -/

section Sync

variable {cfg : PlaidConfig} {book : Guid} {item : GuidText} {db db₁ : Db} {envs : Nat → Env}
  {r : SyncResult}

/-- The result of a sync, by what it fetched. -/
def SyncResult.of (fetched : Option Bool) (suggestions : List SyncSuggestion) : SyncResult :=
  ⟨suggestions, fetched.getD false, fetched.isNone⟩

/-- **A sync that is answered** ends with the listing of the state it leaves, and so does one on
any stream that agrees up to there. -/
theorem sync_cut (h : (sync cfg book item).run machine envs (.idle db) = (.ok r, .idle db₁)) :
    ∃ g p fetched n, item.parse = .ok g ∧ db.items.find? (isItem g book) = some p ∧
      (listSuggestions cfg.ops book item p.importPending).run machine (fun k => envs (k + n))
        (.idle db₁) = (.ok r.suggestions, .idle db₁) ∧
      ∀ envs' : Nat → Env, (∀ k < n, envs' k = envs k) →
        (sync cfg book item).run machine envs' (.idle db) =
          ((listSuggestions cfg.ops book item p.importPending).bind fun ss =>
            ret (SyncResult.of fetched ss)).run machine (fun k => envs' (k + n)) (.idle db₁) := by
  unfold sync at h ⊢
  simp only [bind_eq, pure_eq] at h ⊢
  obtain ⟨found, t₁, n₁, h, hsel, hagree₁⟩ := run_bind_agree h
  have hfound : ∃ g, item.parse = .ok g ∧ found = db.items.find? (isItem g book) := by
    rw [← bind_ret (exec "" (selectItem item book))] at hsel
    obtain ⟨b, v, hx, hb⟩ := exec_ok hsel
    obtain ⟨-, g, hg, rfl⟩ := selectItem_ok hx
    exact ⟨g, hg, (Except.ok.inj (congrArg Prod.fst hb)).symm⟩
  obtain ⟨g, hg, rfl⟩ := hfound
  cases hp : db.items.find? (isItem g book) with
  | none =>
    rw [hp] at h
    exact absurd (congrArg Prod.fst h) (by simp [Prog.run])
  | some p =>
    rw [hp] at h hagree₁
    dsimp only at h hagree₁
    obtain ⟨token, t₂, n₂, h, -, hagree₂⟩ := run_bind_agree h
    rcases token with (_ | _) | token
    · exact absurd (congrArg Prod.fst h) (by simp [Prog.run])
    · exact absurd (congrArg Prod.fst h) (by simp [Prog.run])
    · dsimp only at h hagree₂
      obtain ⟨fetched, t₃, n₃, h, -, hagree₃⟩ := run_bind_agree h
      obtain ⟨ss, t₄, hlist, hret⟩ := run_bind_cut h
      obtain ⟨hr, rfl⟩ := Prod.mk.inj hret
      obtain rfl := Except.ok.inj hr
      -- the listing ends outside a transaction, so it began outside one
      have hidle : t₃ = .idle t₃.db := by
        have hwork := (body_idle_iff (listSuggestions_body ..)).mp (congrArg (·.2.work) hlist)
        cases t₃
        cases hwork
        rfl
      rw [hidle] at hlist hagree₃
      obtain ⟨r', hr', -⟩ := listSuggestions_run cfg.ops book item p.importPending t₃.db
        fun k => envs (k + n₃ + n₂ + n₁)
      have hdb : (.idle t₃.db : Solo SqlErr Db) = .idle db₁ :=
        (congrArg Prod.snd (hr'.symm.trans hlist))
      rw [hdb] at hlist hagree₃
      have hsum : ∀ k, k + (n₃ + n₂ + n₁) = k + n₃ + n₂ + n₁ := fun k => by omega
      refine ⟨g, p, fetched, n₃ + n₂ + n₁, hg, hp, ?_, fun envs' hagree => ?_⟩
      · simp only [hsum]
        exact hlist
      · simp only [hsum]
        rw [hagree₁ envs' fun k hk => hagree k (by omega)]
        rw [hagree₂ (fun k => envs' (k + n₁)) fun k hk => hagree _ (by omega)]
        exact hagree₃ (fun k => envs' (k + n₂ + n₁)) fun k hk => hagree _ (by omega)

/-- **A suggested category is never the bank account itself**, whatever the environment does,
exactly when no offered row has its bank account among the candidates of its description. -/
theorem sync_category_iff {g : Guid} {p : PlaidItem} (hk : db₁.Keyed) (hg : item.parse = .ok g)
    (hp : db.items.find? (isItem g book) = some p)
    (hrun : (sync cfg book item).run machine envs (.idle db) = (.ok r, .idle db₁)) :
    (∀ envs r, (sync cfg book item).run machine envs (.idle db) = (.ok r, .idle db₁) →
      ∀ s ∈ r.suggestions, s.suggestedCategoryGuid ≠ some s.bankAccountGuid) ↔
    ∀ rows, db₁.offered book item p.importPending = .ok rows →
      ∀ row ∈ rows, row.2.1 ∉ db₁.candidates cfg.ops book row.1.description := by
  have hitem : ∀ g' p', item.parse = .ok g' → db.items.find? (isItem g' book) = some p' →
      p' = p := by
    intro g' p' hg' hp'
    obtain rfl := Except.ok.inj (hg.symm.trans hg')
    exact Option.some.inj (hp'.symm.trans hp)
  constructor
  · intro h rows hrows row hrow hmem
    obtain ⟨i, hi, rfl⟩ := List.mem_iff_getElem.mp hrow
    obtain ⟨ties, hties⟩ := Db.exists_suggestion hk hmem
    obtain ⟨g', p', fetched, n, hg', hp', -, hagree⟩ := sync_cut hrun
    obtain rfl := hitem g' p' hg' hp'
    -- the same sync up to its listing, where the bank account comes first in the search of the row
    let env : Env := { calm 0 0 with ties := fun n => ties (Nat.unpair n).2 }
    have hsteady := hagree (fun k => if k < n then envs k else env) fun k hk => if_pos hk
    have hrest : (fun k => if k + n < n then envs (k + n) else env) = fun _ => env := by
      funext k
      exact if_neg (by omega)
    obtain ⟨ss, hss, hall⟩ := listSuggestions_steady cfg.ops env rfl hrows
    rw [hrest, (run_bind_ok hss).1] at hsteady
    obtain ⟨s, hs, hbank, hcat⟩ := hall i rows[i] (List.getElem?_eq_getElem hi)
    refine h _ _ hsteady s hs ?_
    simp only [env, Nat.unpair_pair, hties] at hcat
    rw [hcat, hbank]
  · intro h envs r hrun s hs hself
    obtain ⟨g', p', fetched, n, hg', hp', hlist, -⟩ := sync_cut hrun
    obtain rfl := hitem g' p' hg' hp'
    obtain ⟨r', hr', hrows⟩ := listSuggestions_run cfg.ops book item p'.importPending db₁
      fun k => envs (k + n)
    rw [hlist] at hr'
    obtain ⟨rows, hoff, hall⟩ := hrows _ (congrArg Prod.fst hr').symm
    obtain ⟨row, hrow, o, name, rfl, ho⟩ := exists_of_forall₂ hall hs
    rcases ho with rfl | ho
    · exact absurd hself (by simp [suggestionOf])
    · obtain rfl : o = some row.2.1 := hself
      exact h rows hoff row hrow ho.mem

end Sync

/-! ### A card that was paid from the bank -/

/-- The linked book, with the card linked too and paid from account 12. -/
def paidCard : Db :=
  (serve (Event.request plainConfig 3 (.createTransaction
    ⟨"", ⟨19000, 0⟩, "payment", none, [⟨Guid.text 12, "", -1000, 100, -1000, 100, ""⟩,
      ⟨Guid.text 15, "", 1000, 100, 1000, 100, ""⟩]⟩)).call (calm 100)
    (serve (Event.request plainConfig 3 (.plaidLink (Guid.text 30) [⟨"card", Guid.text 15⟩]
      true)).call (calm 60) linked).2).2

/-- The bank reports one transaction, on a plaid account. -/
def reporting (account : String) (k : Nat) : Env :=
  { calm 200 k with
    sync := fun _ => .ok ⟨[⟨"t1", "", some 19002, "payment", 1000, account, false⟩], [], [], 1,
      false⟩ }

/-- The paid card after a sync. -/
def paidCardSynced (account : String) : Db :=
  ((sync plainConfig 3 (Guid.text 30)).run machine (reporting account) (.idle paidCard)).2.db

theorem paidCard_runs : Runs (fun _ _ _ => True) paidCard :=
  .step _ _ (.step _ _ (.step _ _ (.step _ _ (registered_runs trivial) (by decide +kernel) trivial)
    (by decide +kernel) trivial) (by decide +kernel) trivial) (by decide +kernel) trivial

/-- A run of the sync, with the state it leaves. -/
theorem paidCard_sync (account : String) (h : account = "checking" ∨ account = "card") :
    ∃ r, (sync plainConfig 3 (Guid.text 30)).run machine (reporting account) (.idle paidCard) =
      (.ok r, .idle (paidCardSynced account)) := by
  have hidle : ((sync plainConfig 3 (Guid.text 30)).run machine (reporting account)
      (.idle paidCard)).2.work.isNone = true := by
    rcases h with rfl | rfl <;> decide +kernel
  have hok : ((sync plainConfig 3 (Guid.text 30)).run machine (reporting account)
      (.idle paidCard)).1.toOption.isSome = true := by
    rcases h with rfl | rfl <;> decide +kernel
  unfold paidCardSynced
  generalize (sync plainConfig 3 (Guid.text 30)).run machine (reporting account)
    (.idle paidCard) = x at hidle hok ⊢
  obtain ⟨o, s, w⟩ := x
  rw [Option.isNone_iff_eq_none] at hidle
  obtain rfl : w = none := hidle
  cases o with
  | error e => exact absurd hok (by simp [Except.toOption])
  | ok r => exact ⟨r, rfl⟩

/-- For the bank account the payment is suggested the card, never the bank account. -/
theorem paidCard_checking : (paidCardSynced "checking").Keyed ∧ ∀ envs r,
    (sync plainConfig 3 (Guid.text 30)).run machine envs (.idle paidCard) =
      (.ok r, .idle (paidCardSynced "checking")) →
    ∀ s ∈ r.suggestions, s.suggestedCategoryGuid ≠ some s.bankAccountGuid := by
  have hkeyed : (paidCardSynced "checking").Keyed := by
    constructor <;> decide +kernel
  obtain ⟨p, hp⟩ := Option.isSome_iff_exists.mp
    (show (paidCard.items.find? (isItem 30 3)).isSome = true by decide +kernel)
  obtain ⟨r, hrun⟩ := paidCard_sync "checking" (.inl rfl)
  refine ⟨hkeyed, (sync_category_iff hkeyed rfl hp hrun).mpr fun rows hrows row hrow => ?_⟩
  have hall : ∀ pending, ∀ row ∈ (((paidCardSynced "checking").offered 3 (Guid.text 30)
      pending).toOption.getD []), row.2.1 ∉
        (paidCardSynced "checking").candidates plainConfig.ops 3 row.1.description := by
    decide +kernel
  exact hall p.importPending row (by rw [hrows]; exact hrow)

/-- For the card it is suggested the card itself. -/
theorem paidCard_card : ¬ ∀ (cfg : PlaidConfig) (book : Guid) (item : GuidText) (envs : Nat → Env)
    (db : Db), Runs (fun _ _ _ => True) db →
    ∀ r, ((sync cfg book item).run machine envs (.idle db)).1 = .ok r →
      ∀ s ∈ r.suggestions, s.suggestedCategoryGuid ≠ some s.bankAccountGuid := by
  intro h
  have hself : (((sync plainConfig 3 (Guid.text 30)).run machine (reporting "card")
      (.idle paidCard)).1.toOption.any fun r => r.suggestions.any fun s =>
        s.suggestedCategoryGuid == some s.bankAccountGuid) = true := by decide +kernel
  obtain ⟨r, hr⟩ := paidCard_sync "card" (.inr rfl)
  rw [hr] at hself
  obtain ⟨s, hs, he⟩ := List.any_eq_true.mp hself
  exact h plainConfig 3 (Guid.text 30) (reporting "card") paidCard paidCard_runs r (by rw [hr]) s hs
    (beq_iff_eq.mp he)

end Antimoney
