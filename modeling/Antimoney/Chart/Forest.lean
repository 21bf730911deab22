import Antimoney.Effects
import Antimoney.Lib.Forest
import Antimoney.Reads

/-!
# The chart of accounts is a forest

An account may be moved under any account that exists (`UpdateAccount`), and a file's accounts may
refer to each other in any way (`performImport`). The chart stays a forest as long as no account is
moved under itself or under an account below it, and every imported file is a forest itself.

* `Db.EndsAtTop`: following `parent_guid` ends at an account without a parent.
* `buildPath`: the walk of `components/AccountBreadcrumbs.tsx`.
* **`runs_forest`**: both end, in every state of every run that meets the condition; `runs_cycle` is
  a run that does not.
-/

namespace Antimoney

open Antimoney.Lib Antimoney.Gnc Prog

/-! ## Parents -/

/-- The parent of the account under `g`. -/
def Db.parentOf (db : Db) (g : Guid) : Option Guid :=
  (db.accounts.find? (·.guid == g)).bind (·.parentGuid)

/-- Following `parent_guid` from the account ends after finitely many steps at an account without
a parent. -/
inductive Db.EndsAtTop (db : Db) : Account → Prop
  | top {a : Account} (h : a.parentGuid = none) : db.EndsAtTop a
  | up {a b : Account} (h : a.parentGuid = some b.guid) (hb : b ∈ db.accounts)
      (he : db.EndsAtTop b) : db.EndsAtTop a

/-- Every way up ends. -/
def Db.Forest (db : Db) : Prop := ∀ g, Grounded db.parentOf g

section Parents

variable {x y : Db}

theorem Db.parentOf_of_mem (hn : (x.accounts.map (·.guid)).Nodup) {a : Account}
    (ha : a ∈ x.accounts) : x.parentOf a.guid = a.parentGuid := by
  simp [Db.parentOf, Db.find_account hn ha]

theorem Db.parentOf_of_not (g : Guid) (h : x.hasAccount g = false) : x.parentOf g = none := by
  have hf : x.accounts.find? (·.guid == g) = none :=
    List.find?_eq_none.mpr fun a ha => List.any_eq_false.mp h a ha
  simp [Db.parentOf, hf]

/-- A parent is that of an account. -/
theorem Db.parentOf_some {g p : Guid} (h : x.parentOf g = some p) :
    ∃ a ∈ x.accounts, a.guid = g ∧ a.parentGuid = some p := by
  obtain ⟨a, ha, hp⟩ := Option.bind_eq_some_iff.mp h
  exact ⟨a, List.mem_of_find?_eq_some ha, by simpa using List.find?_some ha, hp⟩

/-- Identifiers and parents decide the chart. -/
theorem Db.parentOf_congr (h : y.accounts.map (fun a => (a.guid, a.parentGuid)) =
    x.accounts.map fun a => (a.guid, a.parentGuid)) : y.parentOf = x.parentOf := by
  have hview : ∀ (db : Db) g, db.parentOf g = ((db.accounts.map fun a =>
      (a.guid, a.parentGuid)).find? fun r => r.1 == g).bind Prod.snd := by
    intro db g
    rw [List.find?_map, Option.bind_map]
    rfl
  funext g
  rw [hview, hview, h]

/-- Fewer accounts. -/
theorem Db.parentOf_of_subset (hn : (x.accounts.map (·.guid)).Nodup)
    (h : ∀ a ∈ y.accounts, a ∈ x.accounts) (g : Guid) :
    y.parentOf g = none ∨ y.parentOf g = x.parentOf g := by
  cases hp : y.parentOf g with
  | none => exact .inl rfl
  | some p =>
    obtain ⟨a, ha, rfl, hap⟩ := Db.parentOf_some hp
    exact .inr ((Db.parentOf_of_mem hn (h a ha)).trans hap).symm

theorem Db.Forest.congr (hx : x.Forest) (h : y.parentOf = x.parentOf) : y.Forest :=
  fun g => h ▸ hx g

theorem Db.Forest.subset (hx : x.Forest) (hn : (x.accounts.map (·.guid)).Nodup)
    (h : ∀ a ∈ y.accounts, a ∈ x.accounts) : y.Forest :=
  fun g => (hx g).cut (Db.parentOf_of_subset hn h)

/-- The parent of an account is an account. -/
theorem Db.Keyed.parent (hk : x.Keyed) {g p : Guid} (h : x.parentOf g = some p) :
    x.hasAccount p = true := by
  obtain ⟨a, ha, -, hp⟩ := Db.parentOf_some h
  have := hk.parents a ha
  rwa [hp] at this

/-- In a forest, following `parent_guid` ends. -/
theorem Db.Forest.endsAtTop (hx : x.Forest) (hk : x.Keyed) {a : Account} (ha : a ∈ x.accounts) :
    x.EndsAtTop a := by
  have hend : ∀ g, Grounded x.parentOf g → ∀ b ∈ x.accounts, b.guid = g → x.EndsAtTop b := by
    intro g hg
    induction hg with
    | @top g h =>
      rintro b hb rfl
      exact .top ((Db.parentOf_of_mem hk.accounts hb).symm.trans h)
    | @up g p h _ ih =>
      rintro b hb rfl
      obtain ⟨c, hc, he⟩ := List.any_eq_true.mp (hk.parent h)
      obtain rfl : c.guid = p := by simpa using he
      exact .up ((Db.parentOf_of_mem hk.accounts hb).symm.trans h) hc (ih c hc rfl)
  exact hend a.guid (hx a.guid) a ha rfl

end Parents

/-! ## The breadcrumbs -/

/-- The loop of `buildPath`, from `curr` at the head of the path; `none` when the fuel is out. -/
def buildPathFrom (allAccounts : List Account) :
    Nat → Account → List Account → Option (List Account)
  | 0, _, _ => none
  | n + 1, curr, path =>
    match curr.parentGuid with
    | none => some path
    | some p =>
      match allAccounts.find? (·.guid == p) with
      | none => some path
      | some parent =>
        if parent.accountType = "ROOT" then some path
        else buildPathFrom allAccounts n parent (parent :: path)

/-- `buildPath`, for at most `fuel` turns of its loop. -/
def buildPath (allAccounts : List Account) (fuel : Nat) (acc : Account) : Option (List Account) :=
  buildPathFrom allAccounts fuel acc [acc]

/-- **The walk ends** on every list of accounts of a forest, from any account. -/
theorem buildPath_ends {db : Db} (hf : db.Forest) (hk : db.Keyed) {accounts : List Account}
    (h : ∀ a ∈ accounts, a ∈ db.accounts) (acc : Account) :
    ∃ fuel, (buildPath accounts fuel acc).isSome = true := by
  have hwalk : ∀ g, Grounded db.parentOf g → ∀ (a : Account) path, a.parentGuid = some g →
      ∃ fuel, (buildPathFrom accounts fuel a path).isSome = true := by
    intro g hg
    induction hg with
    | @top g hg =>
      intro a path ha
      refine ⟨2, ?_⟩
      cases hp : accounts.find? (·.guid == g) with
      | none => simp [buildPathFrom, ha, hp]
      | some parent =>
        have hguid : parent.guid = g := by simpa using List.find?_some hp
        have hmem := h parent (List.mem_of_find?_eq_some hp)
        have hnone : parent.parentGuid = none := by
          rw [← Db.parentOf_of_mem hk.accounts hmem, hguid, hg]
        by_cases hroot : parent.accountType = "ROOT"
        · simp [buildPathFrom, ha, hp, hroot]
        · simp [buildPathFrom, ha, hp, hroot, hnone]
    | @up g p hg _ ih =>
      intro a path ha
      cases hp : accounts.find? (·.guid == g) with
      | none => exact ⟨1, by simp [buildPathFrom, ha, hp]⟩
      | some parent =>
        have hguid : parent.guid = g := by simpa using List.find?_some hp
        have hmem := h parent (List.mem_of_find?_eq_some hp)
        have hnext : parent.parentGuid = some p := by
          rw [← Db.parentOf_of_mem hk.accounts hmem, hguid, hg]
        by_cases hroot : parent.accountType = "ROOT"
        · exact ⟨1, by simp [buildPathFrom, ha, hp, hroot]⟩
        · obtain ⟨fuel, hfuel⟩ := ih parent (parent :: path) hnext
          exact ⟨fuel + 1, by simpa [buildPathFrom, ha, hp, hroot] using hfuel⟩
  cases hp : acc.parentGuid with
  | none => exact ⟨1, by simp [buildPath, buildPathFrom, hp]⟩
  | some g => exact hwalk g (hf g) acc [acc] hp

/-! ## Files -/

/-- The parent a file gives the account a text names. -/
def lastParent (accounts : List ExportAccount) (t : GuidText) : Option GuidText :=
  (lastAccount accounts t).bind (·.parentGuid)

/-- Following the parents within the file ends, from each account. -/
def ExportData.Forest (file : ExportData) : Prop :=
  ∀ a ∈ file.accounts, ∀ t, a.parentGuid = some t → Grounded (lastParent file.accounts) t

/-- A root above the top-level accounts keeps a file a forest. -/
theorem grounded_rootedWith {accounts : List ExportAccount} {root : Option Guid}
    (hnew : ∀ g, root = some g → ∀ a ∈ accounts, a.guid ≠ g.text)
    (h : ∀ a ∈ accounts, ∀ t, a.parentGuid = some t → Grounded (lastParent accounts) t) :
    ∀ a ∈ rootedWith accounts root, ∀ t, a.parentGuid = some t →
      Grounded (lastParent (rootedWith accounts root)) t := by
  cases root with
  | none => exact h
  | some g =>
    have hlast : ∀ t, lastParent (rootedWith accounts (some g)) t =
        (lastAccount accounts t).map fun a => a.parentGuid.getD g.text := by
      intro t
      rw [lastParent, lastAccount_rootedWith]
      cases lastAccount accounts t with
      | some a => simp [underRoot_parentGuid]
      | none =>
        -- the root itself has no parent
        by_cases hroot : (rootAcc g).guid = t
        · simp [hroot]
          rfl
        · simp [hroot]
    have htop : Grounded (lastParent (rootedWith accounts (some g))) g.text := by
      refine .top ((hlast _).trans ?_)
      rw [Option.map_eq_none_iff, lastAccount, List.find?_eq_none]
      exact fun a ha => by simpa using hnew g rfl a (List.mem_reverse.mp ha)
    have hkeep : ∀ t, Grounded (lastParent accounts) t →
        Grounded (lastParent (rootedWith accounts (some g))) t := by
      intro t ht
      induction ht with
      | @top t ht =>
        cases hf : lastAccount accounts t with
        | none => exact .top ((hlast t).trans (by rw [hf]; rfl))
        | some a =>
          have hnone : a.parentGuid = none := by simpa [lastParent, hf] using ht
          exact .up ((hlast t).trans (by simp [hf, hnone])) htop
      | @up t p ht _ ih =>
        cases hf : lastAccount accounts t with
        | none => exact absurd ht (by simp [lastParent, hf])
        | some a =>
          have hsome : a.parentGuid = some p := by simpa [lastParent, hf] using ht
          exact .up ((hlast t).trans (by simp [hf, hsome])) ih
    intro a ha t hat
    have hlist : rootedWith accounts (some g) = rootAcc g :: accounts.map (underRoot g) := rfl
    rw [hlist] at ha
    rcases List.mem_cons.mp ha with rfl | ha
    · exact absurd hat (by simp [rootAcc])
    · obtain ⟨b, hb, rfl⟩ := List.mem_map.mp ha
      rw [underRoot_parentGuid] at hat
      cases hp : b.parentGuid with
      | none =>
        obtain rfl : g.text = t := by simpa [hp] using hat
        exact htop
      | some q =>
        obtain rfl : q = t := by simpa [hp] using hat
        exact hkeep q (h b hb q hp)

/-! ## Imports -/

section Restore

variable {x : Db} {book top : Guid} {file : ExportData} {root : Option Guid}
  {renamed : List (ExportAccount × Guid)} {txns : List ImportTransaction} {as : List Account}
  {ts : List Transaction} {ss : List Split}

/-- A text of the renamed file that names none of its accounts does not read as a new identifier. -/
theorem Lands.parent_unnamed (h : Lands x book file root renamed txns as ts ss)
    {p : ExportAccount × Guid} (hp : p ∈ renamed) {t : GuidText} (ht : p.1.parentGuid = some t)
    (hnone : accountMap renamed t = none) : ∀ r ∈ as, t.parse ≠ .ok r.guid := by
  intro r hr hparse
  have hmem : p.1 ∈ rootedWith file.accounts root := h.names.accounts ▸ List.mem_map_of_mem hp
  have hfile : ∀ a ∈ file.accounts, a.parentGuid ≠ some t := fun a ha hat =>
    ExportData.parse_of_mentions (h.account_new hr).2 (ExportData.parent_mem ha hat) hparse
  cases root with
  | none => exact hfile p.1 hmem ht
  | some g =>
    rcases List.mem_cons.mp hmem with hroot | hmem
    · exact absurd ht (by rw [hroot]; simp [rootAcc])
    · obtain ⟨a, ha, he⟩ := List.mem_map.mp hmem
      cases hpa : a.parentGuid with
      | some q =>
        rw [hpa] at he
        rw [← show a = p.1 from he] at ht
        exact hfile a ha ht
      | none =>
        -- the account was put under the new root, which is in the map
        rw [hpa] at he
        obtain rfl : g.text = t := by simpa [← he] using ht
        obtain ⟨q, hq, hqr⟩ := List.mem_map.mp
          (show rootAcc g ∈ renamed.map Prod.fst from h.names.accounts ▸ List.mem_cons_self)
        have hfind := List.find?_eq_none.mp (Option.map_eq_none_iff.mp hnone) q
          (List.mem_reverse.mpr hq)
        exact absurd hfind (by simp [hqr, rootAcc])

/-- The account a text names has the parent the file gives it. -/
theorem lastParent_of_accountMap {t : GuidText} {g : Guid} (hg : accountMap renamed t = some g) :
    ∃ p ∈ renamed, p.2 = g ∧ lastParent (renamed.map Prod.fst) t = p.1.parentGuid := by
  obtain ⟨p, hp, rfl⟩ := Option.map_eq_some_iff.mp hg
  refine ⟨p, List.mem_reverse.mp (List.mem_of_find?_eq_some hp), rfl, ?_⟩
  rw [lastParent, lastAccount_renamed, hp]
  rfl

/-- **An import of a forest into a forest.** -/
theorem Lands.forest (h : Lands x book file root renamed txns as ts ss) (hk : x.Keyed)
    (hy : ((x.clearBook book).refill book top as ts ss).Keyed) (hx : x.Forest)
    (hfile : file.Forest) : ((x.clearBook book).refill book top as ts ss).Forest := by
  let y := (x.clearBook book).refill book top as ts ss
  have haccounts : y.accounts = deleteWhere (·.bookGuid == book) x.accounts ++ as := rfl
  have hfresh : ∀ r ∈ as, x.hasAccount r.guid = false := fun r hr =>
    List.any_eq_false.mpr fun a ha he =>
      Db.unused_account (h.account_new hr).1 a ha (beq_iff_eq.mp he)
  -- an old account keeps its way up
  have hold : ∀ g, (∀ r ∈ as, r.guid ≠ g) → Grounded y.parentOf g := by
    intro g hg
    have hparent : ∀ g p, (∀ r ∈ as, r.guid ≠ g) → y.parentOf g = some p →
        x.parentOf g = some p := by
      intro g p hg hp
      obtain ⟨a, ha, rfl, hap⟩ := Db.parentOf_some hp
      rw [haccounts] at ha
      rcases List.mem_append.mp ha with ha | ha
      · exact (Db.parentOf_of_mem hk.accounts (mem_deleteWhere.mp ha).1).trans hap
      · exact absurd rfl (hg a ha)
    have hnext : ∀ p, x.hasAccount p = true → ∀ r ∈ as, r.guid ≠ p := by
      rintro p hp r hr rfl
      exact Bool.false_ne_true ((hfresh r hr).symm.trans hp)
    induction hx g with
    | @top g hn =>
      refine .top (Option.eq_none_iff_forall_ne_some.mpr fun p hp => ?_)
      exact absurd (hn.symm.trans (hparent g p hg hp)) (by simp)
    | @up g p hp _ ih =>
      cases hyp : y.parentOf g with
      | none => exact .top hyp
      | some q =>
        obtain rfl := Option.some.inj (hp.symm.trans (hparent g q hg hyp))
        exact .up hyp (ih (hnext p (hk.parent hp)))
  have hroot : ∀ g, root = some g → ∀ a ∈ file.accounts, a.guid ≠ g.text := fun g hg a ha he =>
    ExportData.parse_of_mentions (h.names.root_new g hg).2 (ExportData.guid_mem ha)
      (congrArg GuidText.parse he)
  have hrooted := grounded_rootedWith hroot hfile
  rw [← h.names.accounts] at hrooted
  have hrow : ∀ {t : GuidText} {g : Guid}, accountMap renamed t = some g → ∃ p ∈ renamed,
      lastParent (renamed.map Prod.fst) t = p.1.parentGuid ∧ ∃ r ∈ as, r.guid = g ∧
        RenamedRow (fileMap root renamed) book p r ∧ y.parentOf g = r.parentGuid := by
    intro t g hg
    obtain ⟨p, hp, rfl, hlast⟩ := lastParent_of_accountMap hg
    obtain ⟨r, hr, hrow⟩ := exists_of_forall₂ h.accounts.flip hp
    refine ⟨p, hp, hlast, r, hr, hrow.guid, hrow, ?_⟩
    rw [← hrow.guid]
    exact Db.parentOf_of_mem hy.accounts (List.mem_append_right _ hr)
  -- what a text of the file leads to is grounded
  have htext : ∀ t, Grounded (lastParent (renamed.map Prod.fst)) t →
      (accountMap renamed t = none → ∀ r ∈ as, t.parse ≠ .ok r.guid) →
      ∀ g, (fileMap root renamed).Refers t g → Grounded y.parentOf g := by
    intro t ht
    induction ht with
    | @top t hn =>
      rintro hun g (hg | ⟨hnone, hg⟩)
      · obtain ⟨p, -, hlast, r, -, -, hr, hpar⟩ := hrow hg
        exact .top (hpar.trans (hr.top (hlast.symm.trans hn)))
      · exact hold g fun r hr he => hun hnone r hr (he ▸ hg)
    | @up t q hq _ ih =>
      rintro hun g (hg | ⟨hnone, hg⟩)
      · obtain ⟨p, hp, hlast, r, -, -, hr, hpar⟩ := hrow hg
        have hpq := hlast.symm.trans hq
        obtain ⟨g', hg', hrg⟩ := hr.under q hpq
        exact .up (hpar.trans hrg) (ih (h.parent_unnamed hp hpq) g' hg')
      · exact hold g fun r hr he => hun hnone r hr (he ▸ hg)
  intro g
  by_cases hg : ∀ r ∈ as, r.guid ≠ g
  · exact hold g hg
  · obtain ⟨r, hr, rfl⟩ : ∃ r ∈ as, r.guid = g := by simpa using hg
    have hpar : y.parentOf r.guid = r.parentGuid :=
      Db.parentOf_of_mem hy.accounts (List.mem_append_right _ hr)
    obtain ⟨p, hp, hrow⟩ := exists_of_forall₂ h.accounts hr
    cases ht : p.1.parentGuid with
    | none => exact .top (hpar.trans (hrow.top ht))
    | some t =>
      obtain ⟨g', hg', hrg⟩ := hrow.under t ht
      exact .up (hpar.trans hrg) (htext t (hrooted p.1 (List.mem_map_of_mem hp) t ht)
        (h.parent_unnamed hp ht) g' hg')

end Restore

/-! ## Runs -/

/-- An account is moved under no account at or below it, and an imported file is a forest. -/
structure Event.KeepsChart (e : Event) (db : Db) : Prop where
  moves : ∀ cfg book id req g p, e = .request cfg book (.updateAccount id req) →
    id.parse = .ok g → parseRef req.parentGuid = .ok (some p) →
    db.accounts.any (atVersion g book req.version) = true → ¬ Above db.parentOf g p
  file : ∀ book file, e.file db = some (book, file) → file.Forest

/-- No account is moved, and no file imported. -/
theorem Event.keepsChart_of {e : Event} {db : Db}
    (hm : ∀ cfg book id req, e ≠ .request cfg book (.updateAccount id req))
    (hf : e.file db = none) : e.KeepsChart db :=
  ⟨fun _ _ _ _ _ _ he => absurd he (hm _ _ _ _), fun _ _ h => absurd (hf.symm.trans h) (by simp)⟩

/-- **No effect of such an event breaks the forest.** -/
theorem Effect.forest {e : Event} {s x y : Db} (h : Effect e s x y) (he : e.KeepsChart s)
    (hk : x.Keyed) (hy : y.Keyed) (hx : x.Forest) : y.Forest := by
  cases h with
  | aside h =>
    refine hx.congr (Db.parentOf_congr (map_eq_iff_forall₂.mpr (h.accounts.flip.imp fun b a hab => ?_)))
    rw [hab.guid, hab.parentGuid]
  | @account a hnew hp =>
    have hfind : ∀ g, (x.append [a] [] []).parentOf g =
        ((x.accounts.find? (·.guid == g)).or ([a].find? (·.guid == g))).bind (·.parentGuid) := by
      intro g
      rw [Db.parentOf, ← List.find?_append]
      rfl
    have hnone : x.accounts.find? (·.guid == a.guid) = none :=
      List.find?_eq_none.mpr fun b hb => List.any_eq_false.mp hnew b hb
    refine fun g => (hx g).attach (c := a.guid) (fun j hj => ?_) fun p hap => ⟨hx p, ?_⟩
    · rw [hfind, Db.parentOf]
      have hj' : ¬ a.guid = j := fun he => hj he.symm
      cases x.accounts.find? (·.guid == j) <;> simp [hj']
    · -- the way up from the parent stays among the accounts there were
      have hparent : a.parentGuid = some p := by simpa [hfind, hnone] using hap
      rw [hparent] at hp
      refine not_above_of_closed (S := fun g => x.hasAccount g = true)
        (fun _ _ _ hkp => hk.parent hkp) hp ?_
      simp [hnew]
  | drop h =>
    obtain ⟨rfl, -⟩ := Db.deleteAccounts_ok h
    exact hx.subset hk.accounts fun a ha => (mem_deleteWhere.mp ha).1
  | delete c => exact hx.congr rfl
  | clear book => exact hx.subset hk.accounts fun a ha => (mem_deleteWhere.mp ha).1
  | toggle | reconcile => exact hx.congr rfl
  | create => exact hx.congr (Db.parentOf_congr (by simp [Db.append]))
  | edit he hfound hc hu hopen =>
    obtain ⟨f, -, -, rfl⟩ := hu.eq
    exact hx.congr rfl
  | restore hfile hsame h => exact h.forest hk hy hx (he.file _ _ hfile)
  | @update cfg book g id req p now hreq hxs hg hp hhit href =>
    subst hxs
    let z : Db := { x with
      accounts := updateWhere (atVersion g book req.version) (req.apply p now) x.accounts }
    have hguids : ∀ a : Account, (req.apply p now a).guid = a.guid := fun _ => rfl
    have hother : ∀ j, j ≠ g → z.parentOf j = x.parentOf j := by
      intro j hj
      cases hz : z.parentOf j with
      | none =>
        cases hxj : x.parentOf j with
        | none => rfl
        | some q =>
          obtain ⟨a, ha, rfl, haq⟩ := Db.parentOf_some hxj
          have hmiss : atVersion g book req.version a = false := by simp [atVersion, hj]
          have ha' : a ∈ z.accounts := mem_updateWhere.mpr ⟨a, ha, by simp [hmiss]⟩
          rw [Db.parentOf_of_mem hy.accounts ha', haq] at hz
          exact absurd hz (by simp)
      | some q =>
        obtain ⟨a, ha, rfl, haq⟩ := Db.parentOf_some hz
        rcases mem_updateWhere_cases ha with ⟨ha, -⟩ | ⟨b, -, hb, rfl⟩
        · exact ((Db.parentOf_of_mem hk.accounts ha).trans haq).symm
        · simp only [atVersion, Bool.and_eq_true, beq_iff_eq] at hb
          exact absurd hb.1.1 hj
    -- the row that is hit is the account under `g`
    obtain ⟨a, ha, hit⟩ := List.any_eq_true.mp hhit
    have hag : a.guid = g := by
      simp only [atVersion, Bool.and_eq_true, beq_iff_eq] at hit
      exact hit.1.1
    have hrow : z.parentOf g = (p <|> a.parentGuid) := by
      have hmem : req.apply p now a ∈ z.accounts := mem_updateWhere.mpr ⟨a, ha, by simp [hit]⟩
      rw [← hag, ← hguids a, Db.parentOf_of_mem hy.accounts hmem]
      rfl
    cases p with
    | none =>
      refine hx.congr (funext fun j => ?_)
      by_cases hj : j = g
      · rw [hj, hrow, ← hag, Db.parentOf_of_mem hk.accounts ha]
        rfl
      · exact hother j hj
    | some q =>
      refine fun j => (hx j).attach (c := g) hother fun q' hq' => ?_
      obtain rfl : q = q' := Option.some.inj (hrow.symm.trans hq')
      exact ⟨hx q, he.moves _ _ _ _ _ _ hreq hg hp hhit⟩

/-- The condition on a step of a run. -/
def ChartKept (e : Event) (envs : Nat → Env) (db : Db) : Prop := e.KeepsChart db ∧ Spared e envs db

theorem Runs.forest {db : Db} (hr : Runs ChartKept db) : db.Forest :=
  hr.by_effects (fun _ _ _ h => h.2) (fun _ => .top rfl)
    fun _ _ _ h _ _ _ _ hk hy hx he => he.forest h.1 hk hy hx

/-- **The chart is a forest.** In every state of every run in which no account is moved under itself
or below, and no imported file has a cycle: following `parent_guid` from any account ends at one
without a parent, and so does the walk of the breadcrumbs on every list that the server returns. -/
theorem runs_forest {db : Db} (hr : Runs ChartKept db) :
    (∀ a ∈ db.accounts, db.EndsAtTop a) ∧
    ∀ cfg book start stop envs rows db',
      mayServe (Event.request cfg book (.listAccounts start stop)).call envs db = true →
      serve (Event.request cfg book (.listAccounts start stop)).call envs db =
        (.ok (.accounts rows), db') →
      ∀ acc, ∃ fuel, (buildPath (rows.map (·.account)) fuel acc).isSome = true := by
  refine ⟨fun a ha => hr.forest.endsAtTop hr.keyed ha, ?_⟩
  intro cfg book start stop envs rows db' _ hs acc
  refine buildPath_ends hr.forest hr.keyed (fun a ha' => ?_) acc
  obtain ⟨b, hb, rfl⟩ := List.mem_map.mp ha'
  obtain ⟨a, ha, rfl⟩ := List.mem_map.mp ((serve_listAccounts hs).subset hb)
  exact (List.mem_filter.mp ((List.mem_insertionSort _).mp ha)).1

/-- In a state with the keys, an account whose way up ends is grounded. -/
theorem Db.EndsAtTop.grounded {db : Db} (hk : db.Keyed) {a : Account} (h : db.EndsAtTop a)
    (ha : a ∈ db.accounts) : Grounded db.parentOf a.guid := by
  induction h with
  | top h => exact .top ((Db.parentOf_of_mem hk.accounts ha).trans h)
  | up h hb _ ih => exact .up ((Db.parentOf_of_mem hk.accounts ha).trans h) (ih hb)

/-- An account gets another parent. -/
def moveAccount (account parent : Guid) : Event :=
  .request plainConfig 3 (.updateAccount account.text
    { name := none, description := none, placeholder := none, accountType := none,
      parentGuid := some parent.text, version := 1 })

/-- Moving the checking account from the assets to the liabilities leaves a forest. -/
theorem runs_forest_moved :
    (serve (moveAccount 12 8).call (calm 100) registered).2.parentOf 12 = some 8 ∧
      ∀ a ∈ (serve (moveAccount 12 8).call (calm 100) registered).2.accounts,
        (serve (moveAccount 12 8).call (calm 100) registered).2.EndsAtTop a := by
  refine ⟨by decide +kernel, (runs_forest (.step _ _ (registered_runs ⟨?_, ?_⟩)
    (by decide +kernel) ⟨⟨?_, ?_⟩, ?_⟩)).1⟩
  · exact Event.keepsChart_of (fun _ _ _ _ h => Event.noConfusion h) rfl
  · exact fun _ _ h => absurd h (by simp [Event.file])
  · intro cfg book id req g p he hg hp _
    obtain ⟨-, -, hreq⟩ := Event.request.inj he
    obtain ⟨rfl, rfl⟩ := Request.updateAccount.inj hreq
    obtain rfl : 12 = g := Except.ok.inj hg
    obtain rfl : 8 = p := Option.some.inj (Except.ok.inj hp)
    -- from 8 the way up is 8, 5
    refine not_above_of_closed (S := fun g => g = 8 ∨ g = 5) ?_ (.inl rfl) (by decide)
    rintro k q (rfl | rfl) hq
    · exact .inr (Option.some.inj (hq.symm.trans (by decide +kernel)))
    · exact absurd (hq.symm.trans (show registered.parentOf 5 = none by decide +kernel)) (by simp)
  · exact fun _ _ h => absurd h (by simp [Event.file, moveAccount])
  · exact fun _ _ h => absurd h (by simp [Event.file, moveAccount])

/-- Moving the assets under one of their own accounts makes a cycle. -/
theorem runs_cycle : ¬ ∀ db, Runs (fun _ _ _ => True) db → ∀ a ∈ db.accounts, db.EndsAtTop a := by
  intro h
  have hr : Runs (fun _ _ _ => True) (serve (moveAccount 7 12).call (calm 100) registered).2 :=
    .step _ _ (registered_runs trivial) (by decide +kernel) trivial
  have hany : (serve (moveAccount 7 12).call (calm 100) registered).2.hasAccount 7 = true := by
    decide +kernel
  obtain ⟨a, ha, hg⟩ := List.any_eq_true.mp hany
  have hgr := (h _ hr a ha).grounded hr.keyed ha
  rw [show a.guid = 7 from beq_iff_eq.mp hg] at hgr
  have hup : (serve (moveAccount 7 12).call (calm 100) registered).2.parentOf 7 = some 12 := by
    decide +kernel
  have hdown : (serve (moveAccount 7 12).call (calm 100) registered).2.parentOf 12 = some 7 := by
    decide +kernel
  exact not_grounded_of_above hup (.up hdown .self) hgr

end Antimoney
