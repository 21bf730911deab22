import Antimoney.Concurrent
import Antimoney.Lib.Steps
import Antimoney.Lib.Totals
import Antimoney.Restore.Keyed
import Mathlib.Data.Prod.Lex

/-!
# What the categorizer may suggest

A search ends with `ORDER BY t.post_date DESC, t.guid DESC` and takes the first row. Several splits
of the latest transaction may qualify, and nothing says which of them comes first.

* `Db.candidates`: the accounts of the latest rows of the pass that decides a description.
* `Suggests`: what a search may answer; `suggests_iff`: a candidate, and any of them.
* `suggest_run`, `suggestBatch_run`: what `Suggest` and `SuggestBatch` answer.
* **`suggestBatch_parity_iff`**: the two agree for every order of ties exactly when all candidates
  of each description are one account.
-/

namespace Antimoney

open Antimoney.Lib Prog

/-! ## The order of a search -/

/-- What `ORDER BY` compares. -/
def historyKey (r : Transaction × Split) : ℤ ×ₗ ℕ := toLex (r.1.postDate, r.1.guid)

section Order

variable {ties : Guid → Nat}

theorem historyLe_iff {a b : Transaction × Split} : historyLe ties a b ↔
    historyKey b < historyKey a ∨
      (historyKey a = historyKey b ∧ ties a.2.guid ≤ ties b.2.guid) := by
  have hkey : historyKey a = historyKey b ↔ a.1.postDate = b.1.postDate ∧ a.1.guid = b.1.guid := by
    simp [historyKey]
  have hlt : historyKey b < historyKey a ↔ b.1.postDate < a.1.postDate ∨
      (b.1.postDate = a.1.postDate ∧ b.1.guid < a.1.guid) := by
    simp only [historyKey, Prod.Lex.toLex_lt_toLex]
  rw [hkey, hlt]
  unfold historyLe
  constructor
  · rintro (h | ⟨h, h' | ⟨h', h''⟩⟩)
    · exact .inl (.inl h)
    · exact .inl (.inr ⟨h.symm, h'⟩)
    · exact .inr ⟨⟨h, h'⟩, h''⟩
  · rintro ((h | ⟨h, h'⟩) | ⟨⟨h, h'⟩, h''⟩)
    · exact .inl h
    · exact .inr ⟨h.symm, .inl h'⟩
    · exact .inr ⟨h, .inr ⟨h', h''⟩⟩

theorem historyLe_iff_toLex {a b : Transaction × Split} : historyLe ties a b ↔
    toLex (OrderDual.toDual (historyKey a), ties a.2.guid) ≤
      toLex (OrderDual.toDual (historyKey b), ties b.2.guid) := by
  rw [historyLe_iff, Prod.Lex.toLex_le_toLex, OrderDual.toDual_lt_toDual]
  simp

instance : IsTrans (Transaction × Split) (historyLe ties) :=
  ⟨fun _ _ _ h h' => historyLe_iff_toLex.mpr
    ((historyLe_iff_toLex.mp h).trans (historyLe_iff_toLex.mp h'))⟩

instance : Std.Total (historyLe ties) :=
  ⟨fun _ _ => (le_total _ _).imp historyLe_iff_toLex.mpr historyLe_iff_toLex.mpr⟩

end Order

/-- The rows that no row is later than. -/
def latest (rows : List (Transaction × Split)) : List (Transaction × Split) :=
  rows.filter fun r => rows.all fun x => decide (historyKey x ≤ historyKey r)

/-- A row that no row is later than. -/
structure IsLatest (rows : List (Transaction × Split)) (r : Transaction × Split) : Prop where
  mem : r ∈ rows
  le : ∀ x ∈ rows, historyKey x ≤ historyKey r

theorem mem_latest {rows : List (Transaction × Split)} {r : Transaction × Split} :
    r ∈ latest rows ↔ IsLatest rows r := by
  unfold latest
  rw [List.mem_filter, List.all_eq_true]
  constructor
  · rintro ⟨hmem, hle⟩
    exact ⟨hmem, fun x hx => of_decide_eq_true (hle x hx)⟩
  · rintro ⟨hmem, hle⟩
    exact ⟨hmem, fun x hx => decide_eq_true (hle x hx)⟩

/-- The account of the first row. -/
def topAccount (ties : Guid → Nat) (rows : List (Transaction × Split)) : Option Guid :=
  ((rows.insertionSort (historyLe ties)).head?).map (·.2.accountGuid)

theorem topAccount_eq_none_iff {ties : Guid → Nat} {rows : List (Transaction × Split)} :
    topAccount ties rows = none ↔ rows = [] := by
  unfold topAccount
  rw [Option.map_eq_none_iff, List.head?_eq_none_iff, ← List.length_eq_zero_iff,
    List.length_insertionSort, List.length_eq_zero_iff]

theorem mem_latest_of_topAccount {ties : Guid → Nat} {rows : List (Transaction × Split)} {g : Guid}
    (h : topAccount ties rows = some g) : g ∈ (latest rows).map (·.2.accountGuid) := by
  obtain ⟨r, hr, rfl⟩ := Option.map_eq_some_iff.mp h
  obtain ⟨hmem, hle⟩ := head_insertionSort hr
  refine List.mem_map_of_mem (mem_latest.mpr ⟨hmem, fun x hx => ?_⟩)
  rcases historyLe_iff.mp (hle x hx) with hlt | ⟨heq, -⟩
  · exact hlt.le
  · exact heq.ge

/-- **Any of the latest rows may come first.** -/
theorem exists_topAccount {rows : List (Transaction × Split)}
    (hn : ∀ a ∈ rows, ∀ b ∈ rows, a.2.guid = b.2.guid → a = b) {g : Guid}
    (h : g ∈ (latest rows).map (·.2.accountGuid)) : ∃ ties, topAccount ties rows = some g := by
  obtain ⟨r, hr, rfl⟩ := List.mem_map.mp h
  obtain ⟨hmem, hle⟩ := mem_latest.mp hr
  refine ⟨fun i => if i = r.2.guid then 0 else 1, ?_⟩
  unfold topAccount
  rw [head_insertionSort_eq hmem fun x hx hxr => ?_]
  · rfl
  · rcases historyLe_iff.mp hxr with hlt | ⟨-, hties⟩
    · exact absurd hlt (hle x hx).not_gt
    · by_cases hg : x.2.guid = r.2.guid
      · exact hn x hx r hmem hg
      · simp [hg] at hties

/-! ## What a search may answer -/

namespace Db

variable (db : Db) (ops : TextOps) (book : Guid)

/-- The rows of a pass for a description. -/
def pass (mode : MatchMode) (d : String) : List (Transaction × Split) :=
  db.matching ops book mode (mode.param (normalized ops d))

/-- The rows of the pass that decides: the exact one, if it finds any. -/
def decisive (d : String) : List (Transaction × Split) :=
  if normalized ops d = "" then []
  else if db.pass ops book .exact d = [] then db.pass ops book .substring d
  else db.pass ops book .exact d

/-- The accounts a search may answer for a description. -/
def candidates (d : String) : List Guid :=
  (latest (db.decisive ops book d)).map (·.2.accountGuid)

/-- The answer of a search, given the order of ties in each pass. -/
def suggestion (d : String) (ties ties' : Guid → Nat) : Option Guid :=
  if normalized ops d = "" then none
  else (topAccount ties (db.pass ops book .exact d)).or
    (topAccount ties' (db.pass ops book .substring d))

/-- `o` is an answer of a search. -/
def Suggests (d : String) (o : Option Guid) : Prop :=
  ∃ ties ties', o = db.suggestion ops book d ties ties'

variable {db ops book}

/-- The deciding pass answers. -/
theorem suggestion_eq (d : String) (ties ties' : Guid → Nat) :
    db.suggestion ops book d ties ties' =
      topAccount (if db.pass ops book .exact d = [] then ties' else ties)
        (db.decisive ops book d) := by
  unfold suggestion decisive
  by_cases hq : normalized ops d = ""
  · rw [if_pos hq, if_pos hq]
    rfl
  · rw [if_neg hq, if_neg hq]
    by_cases he : db.pass ops book .exact d = []
    · rw [if_pos he, if_pos he, topAccount_eq_none_iff.mpr he, Option.none_or]
    · rw [if_neg he, if_neg he]
      cases ht : topAccount ties (db.pass ops book .exact d) with
      | none => exact absurd (topAccount_eq_none_iff.mp ht) he
      | some g => rfl

/-- Rows of a search are told apart by their splits. -/
theorem matching_unique (hk : db.Keyed) {mode : MatchMode} {param : String}
    {a b : Transaction × Split} (ha : a ∈ db.matching ops book mode param)
    (hb : b ∈ db.matching ops book mode param) (h : a.2.guid = b.2.guid) : a = b := by
  have hrow : ∀ r ∈ db.matching ops book mode param,
      r.2 ∈ db.splits ∧ db.transactions.find? (·.guid == r.2.txGuid) = some r.1 := by
    intro r hr
    obtain ⟨s, hs, hr⟩ := List.mem_filterMap.mp hr
    obtain ⟨t, ht, hr⟩ := Option.bind_eq_some_iff.mp hr
    split at hr
    · obtain rfl := Option.some.inj hr
      exact ⟨hs, ht⟩
    · exact absurd hr (by simp)
  obtain ⟨hsa, hta⟩ := hrow a ha
  obtain ⟨hsb, htb⟩ := hrow b hb
  have hs : a.2 = b.2 := List.inj_on_of_nodup_map hk.splits hsa hsb h
  rw [hs, htb] at hta
  exact Prod.ext (Option.some.inj hta).symm hs

theorem decisive_unique (hk : db.Keyed) {d : String} {a b : Transaction × Split}
    (ha : a ∈ db.decisive ops book d) (hb : b ∈ db.decisive ops book d)
    (h : a.2.guid = b.2.guid) : a = b := by
  unfold decisive at ha hb
  split at ha
  · exact absurd ha (by simp)
  · rename_i hq
    rw [if_neg hq] at hb
    split at ha
    · rename_i he
      rw [if_pos he] at hb
      exact matching_unique hk ha hb h
    · rename_i he
      rw [if_neg he] at hb
      exact matching_unique hk ha hb h

/-- Each candidate is answered under some order of ties. -/
theorem exists_suggestion (hk : db.Keyed) {d : String} {g : Guid}
    (h : g ∈ db.candidates ops book d) : ∃ ties, db.suggestion ops book d ties ties = some g := by
  obtain ⟨ties, ht⟩ := exists_topAccount (fun a ha b hb => decisive_unique hk ha hb) h
  refine ⟨ties, ?_⟩
  rw [suggestion_eq]
  simpa using ht

/-- Only candidates are answered. -/
theorem Suggests.mem {d : String} {g : Guid} (h : db.Suggests ops book d (some g)) :
    g ∈ db.candidates ops book d := by
  obtain ⟨ties, ties', h⟩ := h
  rw [suggestion_eq] at h
  exact mem_latest_of_topAccount h.symm

/-- **What a search may answer**: any candidate, or nothing when there is none. -/
theorem suggests_iff (hk : db.Keyed) {d : String} {o : Option Guid} :
    db.Suggests ops book d o ↔
      (o = none ∧ db.candidates ops book d = []) ∨ ∃ g ∈ db.candidates ops book d, o = some g := by
  constructor
  · intro h
    cases o with
    | some g => exact .inr ⟨g, h.mem, rfl⟩
    | none =>
      obtain ⟨ties, ties', h⟩ := h
      rw [suggestion_eq] at h
      refine .inl ⟨rfl, ?_⟩
      unfold candidates
      rw [topAccount_eq_none_iff.mp h.symm]
      rfl
  · rintro (⟨rfl, hc⟩ | ⟨g, hg, rfl⟩)
    · refine ⟨fun _ => 0, fun _ => 0, ?_⟩
      cases hs : db.suggestion ops book d (fun _ => 0) fun _ => 0 with
      | none => rfl
      | some g =>
        have hmem : g ∈ db.candidates ops book d := Suggests.mem ⟨_, _, hs.symm⟩
        exact absurd hmem (by simp [hc])
    · obtain ⟨ties, ht⟩ := exists_suggestion hk hg
      exact ⟨ties, ties, ht.symm⟩

/-- When all candidates are one account, a search has one answer. -/
theorem Suggests.unique (hk : db.Keyed) {d : String}
    (h : ∀ g ∈ db.candidates ops book d, ∀ g' ∈ db.candidates ops book d, g = g')
    {o o' : Option Guid} (ho : db.Suggests ops book d o) (ho' : db.Suggests ops book d o') :
    o = o' := by
  rcases (suggests_iff hk).mp ho with ⟨rfl, hc⟩ | ⟨g, hg, rfl⟩
  · rcases (suggests_iff hk).mp ho' with ⟨rfl, -⟩ | ⟨g', hg', rfl⟩
    · rfl
    · exact absurd hg' (by simp [hc])
  · rcases (suggests_iff hk).mp ho' with ⟨rfl, hc⟩ | ⟨g', hg', rfl⟩
    · exact absurd hg (by simp [hc])
    · rw [h g hg g' hg']

end Db

/-! ## The searches of a call -/

section Runs

variable {ops : TextOps} {book : Guid} {db : Db}

/-- The reply to a query. -/
def Env.answer {β : Type} (env : Env) (b : β) : Except SqlErr β :=
  if env.fail then .error .failed else .ok b

theorem Env.answer_ok {β : Type} {env : Env} (h : env.fail = false) (b : β) :
    env.answer b = .ok b := by simp [answer, h]

theorem Env.answer_failed {β : Type} {env : Env} (h : env.fail = true) (b : β) :
    env.answer b = .error .failed := by simp [answer, h]

/-- A call that begins with a query whose order leaves ties. -/
theorem run_ordered {α β : Type} {f : (Guid → Nat) → Db → β} {k : Except SqlErr β → Call α}
    (envs : Nat → Env) :
    ((reply (.ordered fun ties => .query (f ties))).bind k).run machine envs (.idle db) =
      (k ((envs 0).answer (f (envs 0).ties db))).run machine (fun n => envs (n + 1))
        (.idle db) := by
  by_cases hf : (envs 0).fail = true
  · simp [reply, ask, Prog.bind, Prog.run, soloStep, machine, Stmt.ordered, Stmt.query, Stmt.sql,
      Stmt.mk', Env.answer, hf]
  · simp [reply, ask, Prog.bind, Prog.run, soloStep, machine, Stmt.ordered, Stmt.query, Stmt.sql,
      Stmt.mk', Env.answer, hf]

/-- A call that begins with a search. -/
theorem run_category {α : Type} {k : Except SqlErr (Option Guid) → Call α} (mode : MatchMode)
    (d : String) (envs : Nat → Env) :
    ((reply (selectCategory ops book mode (mode.param (normalized ops d)))).bind k).run machine envs
        (.idle db) =
      (k ((envs 0).answer (topAccount (envs 0).ties (db.pass ops book mode d)))).run machine
        (fun n => envs (n + 1)) (.idle db) :=
  run_ordered envs

/-- **`Suggest`** answers, with nothing when a statement of it fails. -/
theorem suggest_run (ops : TextOps) (book : Guid) (db : Db) (d : String) (envs : Nat → Env) :
    ∃ o, (suggest ops book d).run machine envs (.idle db) = (.ok o, .idle db) ∧
      (o = none ∨ db.Suggests ops book d o) ∧
      ((envs 0).fail = false → (envs 1).fail = false →
        o = db.suggestion ops book d (envs 0).ties (envs 1).ties) := by
  unfold suggest
  by_cases hq : normalized ops d = ""
  · simp only [hq, if_true]
    exact ⟨none, rfl, .inl rfl, fun _ _ => by rw [Db.suggestion, if_pos hq]⟩
  simp only [hq, if_false, bind_eq, pure_eq]
  have hs : ∀ o : Option Guid,
      o = db.suggestion ops book d (envs 0).ties (envs 1).ties → db.Suggests ops book d o :=
    fun o ho => ⟨_, _, ho⟩
  rw [run_category]
  by_cases hf : (envs 0).fail = true
  · rw [Env.answer_failed hf]
    exact ⟨none, rfl, .inl rfl, fun h => absurd hf (by simp [h])⟩
  rw [Env.answer_ok (Bool.eq_false_iff.mpr hf)]
  cases ht : topAccount (envs 0).ties (db.pass ops book .exact d) with
  | some g =>
    have hg : some g = db.suggestion ops book d (envs 0).ties (envs 1).ties := by
      rw [Db.suggestion, if_neg hq, ht, Option.some_or]
    exact ⟨some g, rfl, .inr (hs _ hg), fun _ _ => hg⟩
  | none =>
    dsimp only
    rw [run_category]
    by_cases hf' : (envs 1).fail = true
    · rw [Env.answer_failed hf']
      exact ⟨none, rfl, .inl rfl, fun _ h => absurd hf' (by simp [h])⟩
    · rw [Env.answer_ok (Bool.eq_false_iff.mpr hf')]
      have ho : topAccount (envs 1).ties (db.pass ops book .substring d) =
          db.suggestion ops book d (envs 0).ties (envs 1).ties := by
        rw [Db.suggestion, if_neg hq, ht, Option.none_or]
      exact ⟨_, rfl, .inr (hs _ ho), fun _ _ => ho⟩

/-- `suggestPerRow` on streams of a kind, whatever part of one is left. -/
theorem suggestPerRow_run {C : (Nat → Env) → Prop} {R : String → Option Guid → Prop}
    (hshift : ∀ envs n, C envs → C fun k => envs (k + n))
    (hR : ∀ d o envs, C envs →
      (suggest ops book d).run machine envs (.idle db) = (.ok o, .idle db) → R d o)
    (ds : List String) {envs : Nat → Env} (hC : C envs) :
    ∃ out, (suggestPerRow ops book ds).run machine envs (.idle db) = (.ok out, .idle db) ∧
      List.Forall₂ R ds out := by
  induction ds generalizing envs with
  | nil => exact ⟨[], rfl, .nil⟩
  | cons d ds ih =>
    obtain ⟨o, ho, -⟩ := suggest_run ops book db d envs
    obtain ⟨out, hout, hall⟩ := ih (hshift envs _ hC)
    refine ⟨o :: out, ?_, .cons (hR d o envs hC ho) hall⟩
    unfold suggestPerRow
    simp only [bind_eq, pure_eq]
    rw [(run_bind_ok ho).1, (run_bind_ok hout).1]
    rfl

/-! ### The passes of `SuggestBatch` -/

/-- Filling in what `h` finds at each index. -/
theorem getElem?_fillOut {α : Type} (h : α → Nat → Option Guid) (l : List α) (k : Nat)
    (out : List (Option Guid)) (i : Nat) :
    (fillOut out ((l.zipIdx k).filterMap fun r => (h r.1 r.2).map (Prod.mk r.2)))[i]? =
      (out[i]?).map fun o =>
        (if k ≤ i then (l[i - k]?).bind (h · i) else none).or o := by
  induction l generalizing k out with
  | nil => simp [fillOut]
  | cons a l ih =>
    have hnext : ∀ o : Option Guid, i ≠ k →
        (if k + 1 ≤ i then (l[i - (k + 1)]?).bind (h · i) else none).or o =
          (if k ≤ i then ((a :: l)[i - k]?).bind (h · i) else none).or o := by
      intro o hi
      by_cases hk : k + 1 ≤ i
      · have hsub : i - k = (i - (k + 1)) + 1 := by omega
        rw [if_pos hk, if_pos (by omega), hsub, List.getElem?_cons_succ]
      · rw [if_neg hk, if_neg (by omega)]
    rw [List.zipIdx_cons, List.filterMap_cons]
    cases ha : h a k with
    | none =>
      simp only [Option.map_none]
      rw [ih]
      by_cases hi : i = k
      · subst hi
        simp [ha]
      · simp only [hnext _ hi]
    | some g =>
      simp only [Option.map_some]
      rw [show ∀ rows, fillOut out ((k, g) :: rows) = fillOut (out.set k (some g)) rows from
        fun _ => rfl, ih]
      by_cases hi : i = k
      · subst hi
        by_cases hlt : i < out.length
        · simp [ha, hlt]
        · simp [hlt]
      · rw [List.getElem?_set_ne (Ne.symm hi)]
        simp only [hnext _ hi]

/-- What a pass leaves when it is answered. -/
def Db.passed (db : Db) (ops : TextOps) (book : Guid) (mode : MatchMode) (ds : List String)
    (out : List (Option Guid)) (ties : Guid → Nat) : List (Option Guid) :=
  fillOut out ((passPatterns ops mode out ds).filterMap fun p =>
    (topAccount (fun g => ties (Nat.pair p.2 g)) (db.matching ops book mode p.1)).map (Prod.mk p.2))

/-- What a pass finds at an index, by the description and the answer there. -/
def Db.passAnswer (db : Db) (ops : TextOps) (book : Guid) (mode : MatchMode) (ties : Guid → Nat)
    (x : String × Option Guid) (i : Nat) : Option Guid :=
  if x.2.isSome ∨ normalized ops x.1 = "" then none
  else topAccount (fun g => ties (Nat.pair i g)) (db.pass ops book mode x.1)

theorem passed_eq (mode : MatchMode) (ds : List String) (out : List (Option Guid))
    (ties : Guid → Nat) : db.passed ops book mode ds out ties =
      fillOut out (((ds.zip out).zipIdx 0).filterMap fun r =>
        (db.passAnswer ops book mode ties r.1 r.2).map (Prod.mk r.2)) := by
  unfold Db.passed passPatterns
  rw [List.filterMap_filterMap]
  congr 1
  refine List.filterMap_congr fun r _ => ?_
  unfold Db.passAnswer
  by_cases hskip : r.1.2.isSome ∨ normalized ops r.1.1 = ""
  · simp [hskip]
  · simp only [hskip, if_false, Option.bind_some]
    rfl

theorem passed_getElem? {mode : MatchMode} {ds : List String} {out : List (Option Guid)}
    (ties : Guid → Nat) {i : Nat} {d : String} {o : Option Guid} (hd : ds[i]? = some d)
    (ho : out[i]? = some o) : (db.passed ops book mode ds out ties)[i]? =
      some (o.or (if normalized ops d = "" then none
        else topAccount (fun g => ties (Nat.pair i g)) (db.pass ops book mode d))) := by
  have hzip : (ds.zip out)[i]? = some (d, o) := List.getElem?_zip_eq_some.mpr ⟨hd, ho⟩
  rw [passed_eq, getElem?_fillOut, ho]
  simp only [Nat.zero_le, if_true, Nat.sub_zero, Option.map_some, hzip, Option.bind_some]
  unfold Db.passAnswer
  cases o with
  | some g => simp
  | none => simp

theorem passed_length {mode : MatchMode} {ds : List String} {out : List (Option Guid)}
    (ties : Guid → Nat) : (db.passed ops book mode ds out ties).length = out.length := by
  unfold Db.passed fillOut
  generalize (passPatterns ops mode out ds).filterMap _ = rows
  induction rows generalizing out with
  | nil => rfl
  | cons r rows ih => rw [List.foldl_cons, ih, List.length_set]

/-- A pass asks at most once. It is answered, or its statement fails. -/
theorem run_pass {α : Type} {k : Option (List (Option Guid)) → Call α}
    {Q : Except Err α × Solo SqlErr Db → Prop} {mode : MatchMode} {ds : List String}
    {out : List (Option Guid)} {envs : Nat → Env}
    (hok : ∀ n ≤ 1, Q ((k (some (db.passed ops book mode ds out (envs 0).ties))).run machine
      (fun m => envs (m + n)) (.idle db)))
    (hfail : (envs 0).fail = true →
      Q ((k none).run machine (fun m => envs (m + 1)) (.idle db))) :
    Q (((runPass ops book mode ds out).bind k).run machine envs (.idle db)) := by
  unfold runPass
  by_cases he : (passPatterns ops mode out ds).isEmpty = true
  · have hpassed : db.passed ops book mode ds out (envs 0).ties = out := by
      simp [Db.passed, List.isEmpty_iff.mp he, fillOut]
    simp only [he, if_true]
    have hout := hok 0 (Nat.zero_le 1)
    rwa [hpassed] at hout
  · simp only [he, if_false, bind_eq, pure_eq, bind_assoc, selectCategories, Bool.false_eq_true]
    rw [run_ordered]
    by_cases hf : (envs 0).fail = true
    · rw [Env.answer_failed hf]
      exact hfail hf
    · rw [Env.answer_ok (Bool.eq_false_iff.mpr hf)]
      have hout := hok 1 le_rfl
      simp only [Db.passed, topAccount, Option.map_map] at hout
      exact hout

/-- The answers of both passes. -/
theorem passed_passed (ops : TextOps) (book : Guid) (db : Db) {ds : List String}
    (ties ties' : Guid → Nat) {i : Nat} {d : String} (hd : ds[i]? = some d) :
    (db.passed ops book .substring ds
      (db.passed ops book .exact ds (ds.map fun _ => none) ties) ties')[i]? =
      some (db.suggestion ops book d (fun g => ties (Nat.pair i g))
        fun g => ties' (Nat.pair i g)) := by
  have hnone : (ds.map fun _ => (none : Option Guid))[i]? = some none := by
    rw [List.getElem?_map, hd, Option.map_some]
  rw [passed_getElem? ties' hd (passed_getElem? ties hd hnone)]
  unfold Db.suggestion
  by_cases hq : normalized ops d = ""
  · simp [hq]
  · simp [hq]

/-- Both passes answer every description. -/
theorem passed_suggests (ds : List String) (ties ties' : Guid → Nat) :
    List.Forall₂ (db.Suggests ops book) ds (db.passed ops book .substring ds
      (db.passed ops book .exact ds (ds.map fun _ => none) ties) ties') := by
  refine List.forall₂_iff_get.mpr ⟨?_, fun i h h' => ?_⟩
  · rw [passed_length, passed_length, List.length_map]
  · have hi := passed_passed ops book db ties ties'
      (List.getElem?_eq_getElem h)
    exact ⟨_, _, Option.some.inj ((List.getElem?_eq_getElem h').symm.trans hi)⟩

/-- **`SuggestBatch`** answers, on a stream of which what is left after a failure is of a kind. -/
theorem suggestBatch_run (ops : TextOps) (book : Guid) (db : Db) {C : (Nat → Env) → Prop}
    {R : String → Option Guid → Prop}
    (hshift : ∀ envs n, C envs → C fun k => envs (k + n))
    (hR : ∀ d o envs, C envs →
      (suggest ops book d).run machine envs (.idle db) = (.ok o, .idle db) → R d o)
    (hsugg : ∀ d o, db.Suggests ops book d o → R d o) (ds : List String) (envs : Nat → Env)
    (h0 : (envs 0).fail = true → C fun k => envs (k + 1))
    (h1 : (envs 1).fail = true → C fun k => envs (k + 2)) :
    ∃ out, (suggestBatch ops book ds).run machine envs (.idle db) = (.ok out, .idle db) ∧
      List.Forall₂ R ds out := by
  unfold suggestBatch
  simp only [bind_eq, pure_eq]
  refine run_pass (Q := fun x => ∃ out, x = (.ok out, .idle db) ∧ List.Forall₂ R ds out)
    (fun n hn => ?_) fun hf => suggestPerRow_run hshift hR ds (h0 hf)
  refine run_pass (Q := fun x => ∃ out, x = (.ok out, .idle db) ∧ List.Forall₂ R ds out)
    (fun m hm => ?_) fun hf => suggestPerRow_run hshift hR ds ?_
  · exact ⟨_, rfl, (passed_suggests ds _ _).imp fun d o h => hsugg d o h⟩
  · obtain rfl | rfl : n = 0 ∨ n = 1 := by omega
    · exact h0 hf
    · exact h1 hf

/-- `SuggestBatch` on a stream that supplies one thing, without failure. -/
theorem suggestBatch_steady (ds : List String) {env : Env} (hf : env.fail = false) :
    (suggestBatch ops book ds).run machine (fun _ => env) (.idle db) =
      (.ok (db.passed ops book .substring ds
        (db.passed ops book .exact ds (ds.map fun _ => none) env.ties) env.ties), .idle db) := by
  unfold suggestBatch
  simp only [bind_eq, pure_eq]
  refine run_pass (Q := fun x => x = _) (fun n _ => ?_) fun h => absurd h (by simp [hf])
  exact run_pass (Q := fun x => x = _) (fun m _ => rfl) fun h => absurd h (by simp [hf])

/-- No statement fails on the stream. -/
def Smooth (envs : Nat → Env) : Prop := ∀ n, (envs n).fail = false

theorem Smooth.shift {envs : Nat → Env} (h : Smooth envs) (n : Nat) :
    Smooth fun k => envs (k + n) := fun k => h (k + n)

/-- On a smooth stream `Suggest` answers what the history says. -/
theorem suggests_of_smooth (d : String) (o : Option Guid) (envs : Nat → Env) (h : Smooth envs)
    (hrun : (suggest ops book d).run machine envs (.idle db) = (.ok o, .idle db)) :
    db.Suggests ops book d o := by
  obtain ⟨o', ho', -, hs⟩ := suggest_run ops book db d envs
  rw [hrun] at ho'
  obtain rfl := Except.ok.inj (congrArg Prod.fst ho')
  exact ⟨_, _, hs (h 0) (h 1)⟩

/-- **`SuggestBatch` answers as `Suggest` does**, also after a statement of it failed, if the
candidates of each description are one account, and for every order of ties only then. -/
theorem suggestBatch_parity_iff (hk : db.Keyed) (ds : List String) :
    (∀ envs envs' : Nat → Env, (∃ k < 2, ∀ n, n ≠ k → (envs n).fail = false) → Smooth envs' →
      ∃ out, (suggestBatch ops book ds).run machine envs (.idle db) = (.ok out, .idle db) ∧
        List.Forall₂ (fun d o => (suggest ops book d).run machine envs' (.idle db) =
          (.ok o, .idle db)) ds out) ↔
      ∀ d ∈ ds, ∀ g ∈ db.candidates ops book d, ∀ g' ∈ db.candidates ops book d, g = g' := by
  constructor
  · intro h d hd g hg g' hg'
    obtain ⟨i, hi, rfl⟩ := List.mem_iff_getElem.mp hd
    -- the search of this index puts `g` first, and the search alone puts `g'` first
    obtain ⟨ties, hties⟩ := Db.exists_suggestion hk hg
    obtain ⟨ties', hties'⟩ := Db.exists_suggestion hk hg'
    let env : Env := { calm 0 0 with ties := fun n => ties (Nat.unpair n).2 }
    let env' : Env := { calm 0 0 with ties := ties' }
    obtain ⟨out, hout, hall⟩ := h (fun _ => env) (fun _ => env')
      ⟨0, Nat.zero_lt_two, fun _ _ => rfl⟩ fun _ => rfl
    rw [suggestBatch_steady ds rfl] at hout
    obtain rfl := Except.ok.inj (congrArg Prod.fst hout)
    have hget := passed_passed ops book db env.ties env.ties
      (List.getElem?_eq_getElem hi)
    simp only [env, Nat.unpair_pair, hties] at hget
    obtain ⟨hi', hget⟩ := List.getElem?_eq_some_iff.mp hget
    have hone := (List.forall₂_iff_get.mp hall).2 i hi hi'
    simp only [List.get_eq_getElem] at hone
    rw [hget] at hone
    obtain ⟨o, ho, -, hs⟩ := suggest_run ops book db ds[i] fun _ => env'
    rw [hone] at ho
    have hgo := Except.ok.inj (congrArg Prod.fst ho)
    rw [hs rfl rfl, show env'.ties = ties' from rfl, hties'] at hgo
    exact Option.some.inj hgo
  · intro h envs envs' ⟨k, hk2, hfail⟩ hsmooth
    have hleft : ∀ m, k < m → Smooth fun n => envs (n + m) := fun m hm n => hfail _ (by omega)
    have h0 : (envs 0).fail = true → Smooth fun n => envs (n + 1) := fun hf => hleft 1 (by
      by_contra hk0
      exact absurd (hfail 0 (by omega)) (by simp [hf]))
    obtain ⟨out, hout, hall⟩ := suggestBatch_run ops book db (C := Smooth)
      (fun _ n h => h.shift n) suggests_of_smooth (fun _ _ h => h) ds envs h0 fun _ => hleft 2 hk2
    refine ⟨out, hout, List.forall₂_iff_get.mpr ⟨hall.length_eq, fun i hi hi' => ?_⟩⟩
    obtain ⟨o, ho, -, -⟩ := suggest_run ops book db ds[i] envs'
    have hone : db.Suggests ops book ds[i] out[i] := (List.forall₂_iff_get.mp hall).2 i hi hi'
    have ho' := suggests_of_smooth _ _ _ hsmooth ho
    simp only [List.get_eq_getElem]
    rw [Db.Suggests.unique hk (h _ (List.getElem_mem hi)) hone ho']
    exact ho

end Runs

/-! ### A transaction with two categories -/

/-- A purchase from account 12 under two categories. -/
def dividedSplits : List CreateSplitRequest :=
  [⟨Guid.text 12, "", -3000, 100, -3000, 100, ""⟩, ⟨Guid.text 18, "", 2000, 100, 2000, 100, ""⟩,
    ⟨Guid.text 19, "", 1000, 100, 1000, 100, ""⟩]

/-- The purchase of `purchased` and one under two categories. -/
def divided : Db :=
  (serve (Event.request plainConfig 3 (.createTransaction
    ⟨"", ⟨19001, 0⟩, "market", none, dividedSplits⟩)).call (calm 120) purchased).2

theorem divided_runs : Runs (fun _ _ _ => True) divided :=
  .step _ _ (purchased_runs fun _ _ _ => trivial) (by decide +kernel) trivial

/-- What `calm` supplies, with split 131 before the others. -/
def calmLate (k : Nat) : Env := { calm 0 k with ties := fun g => if g = 131 then 0 else 1 }

theorem divided_parity : divided.Keyed ∧ ∀ envs envs' : Nat → Env, Smooth envs → Smooth envs' →
    ∃ out, (suggestBatch plainConfig.ops 3 ["food", "", "food"]).run machine envs (.idle divided) =
        (.ok out, .idle divided) ∧
      List.Forall₂ (fun d o => (suggest plainConfig.ops 3 d).run machine envs' (.idle divided) =
        (.ok o, .idle divided)) ["food", "", "food"] out := by
  refine ⟨divided_runs.keyed, fun envs envs' h h' => ?_⟩
  refine (suggestBatch_parity_iff divided_runs.keyed ["food", "", "food"]).mpr ?_ envs envs'
    ⟨0, Nat.zero_lt_two, fun n _ => h n⟩ h'
  decide +kernel

/-- Two searches for one description, each taking another of the two splits first. -/
theorem divided_disparity : ¬ ∀ (db : Db) (d : String) (envs envs' : Nat → Env)
    (out : List (Option Guid)) (o : Option Guid),
    Runs (fun _ _ _ => True) db → Smooth envs → Smooth envs' →
    (suggestBatch plainConfig.ops 3 [d]).run machine envs (.idle db) = (.ok out, .idle db) →
    (suggest plainConfig.ops 3 d).run machine envs' (.idle db) = (.ok o, .idle db) →
    out = [o] := by
  intro h
  have hbatch : ((suggestBatch plainConfig.ops 3 ["market"]).run machine (calm 0)
      (.idle divided)).1 = .ok [some 18] := by decide +kernel
  have halone : ((suggest plainConfig.ops 3 "market").run machine calmLate (.idle divided)).1 =
      .ok (some 19) := by decide +kernel
  obtain ⟨o, ho, -, -⟩ := suggest_run plainConfig.ops 3 divided "market"
    calmLate
  have hcalm : ∀ n, Smooth fun k => calm 0 (k + n) := fun _ _ => rfl
  obtain ⟨out, hout, -⟩ := suggestBatch_run plainConfig.ops 3 divided (C := Smooth)
    (fun _ n h => h.shift n) suggests_of_smooth (fun _ _ h => h) ["market"] (calm 0)
    (fun _ => hcalm 1) fun _ => hcalm 2
  rw [hout] at hbatch
  rw [ho] at halone
  obtain rfl := Except.ok.inj hbatch
  obtain rfl := Except.ok.inj halone
  have hone := h divided "market" (calm 0) calmLate _ _ divided_runs (fun _ => rfl) (fun _ => rfl)
    hout ho
  exact absurd hone (by decide)

end Antimoney
