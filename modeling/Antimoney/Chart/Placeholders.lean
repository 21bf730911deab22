import Antimoney.Concurrent
import Antimoney.Effects

/-!
# Placeholder accounts hold no entries

`CreateTransaction` and `UpdateTransaction` refuse splits on placeholder accounts, but nothing
refuses to make an account with entries a placeholder (`UpdateAccount`), or a file with entries on
placeholder accounts (`performImport`). Where neither happens, no placeholder account ever has an
entry (**`runs_noEntries`**); `runs_entries` is a run that leaves some.
-/

namespace Antimoney

open Antimoney.Lib Antimoney.Gnc Prog

/-- No stored split belongs to an account whose placeholder flag is set. -/
def Db.NoEntries (db : Db) : Prop :=
  ∀ a ∈ db.accounts, a.placeholder = true → ∀ sp ∈ db.splits, sp.accountGuid ≠ a.guid

/-- A split on the account the text names is not on a placeholder, once the file has replaced the
book: neither on one of the file, nor on one of another book. -/
def ExportData.Opens (file : ExportData) (db : Db) (book : Guid) (t : GuidText) : Prop :=
  match lastAccount file.accounts t with
  | some a => a.placeholder = false
  | none => ∀ a ∈ db.accounts, t.parse = .ok a.guid → a.bookGuid ≠ book → a.placeholder = false

/-- No account with entries is made a placeholder, and no file has entries on one. -/
structure Event.KeepsEmpty (e : Event) (db : Db) : Prop where
  marks : ∀ cfg book id req g p, e = .request cfg book (.updateAccount id req) →
    id.parse = .ok g → parseRef req.parentGuid = .ok p →
    db.accounts.any (atVersion g book req.version) = true → db.refOk p = true →
    req.placeholder = some true → ∀ sp ∈ db.splits, sp.accountGuid ≠ g
  file : ∀ book file, e.file db = some (book, file) →
    ∀ t ∈ file.transactions, ∀ sp ∈ t.splits, file.Opens db book sp.accountGuid

/-! ## Effects -/

section Effects

variable {x y : Db}

/-- Fewer accounts and splits. -/
theorem Db.NoEntries.subset (hx : x.NoEntries) (ha : ∀ a ∈ y.accounts, a ∈ x.accounts)
    (hs : ∀ sp ∈ y.splits, sp ∈ x.splits) : y.NoEntries :=
  fun a hay hp sp hsp => hx a (ha a hay) hp sp (hs sp hsp)

/-- An open account is no placeholder. -/
theorem Db.Keyed.open_ne (hk : x.Keyed) {book g : Guid} (h : x.Open book g) {a : Account}
    (ha : a ∈ x.accounts) (hp : a.placeholder = true) : g ≠ a.guid := by
  rintro rfl
  obtain ⟨b, hb, hg, -, hclosed⟩ := h
  rw [List.inj_on_of_nodup_map hk.accounts hb ha hg, hp] at hclosed
  exact Bool.false_ne_true hclosed.symm

/-- Rows on open accounts come in. -/
theorem Db.NoEntries.add (hx : x.NoEntries) (hk : x.Keyed) {book : Guid} {rows : List Split}
    (hopen : ∀ row ∈ rows, x.Open book row.accountGuid) (ha : y.accounts = x.accounts)
    (hs : ∀ sp ∈ y.splits, sp ∈ x.splits ∨ sp ∈ rows) : y.NoEntries := by
  intro a hay hp sp hsp
  rw [ha] at hay
  rcases hs sp hsp with hsp | hsp
  · exact hx a hay hp sp hsp
  · exact hk.open_ne (hopen sp hsp) hay hp

/-- The splits stay where they are. -/
theorem Db.NoEntries.states (hx : x.NoEntries) {c : Split → Bool} {state : String}
    (ha : y.accounts = x.accounts)
    (hs : y.splits = updateWhere c (fun sp => { sp with reconcileState := state }) x.splits) :
    y.NoEntries := by
  intro a hay hp sp hsp
  rw [ha] at hay
  rw [hs] at hsp
  rcases mem_updateWhere_cases hsp with ⟨hold, -⟩ | ⟨sp', hold, -, rfl⟩
  · exact hx a hay hp sp hold
  · exact hx a hay hp sp' hold

/-- **A file with no entries on placeholders.** -/
theorem Lands.noEntries {book top : Guid} {file : ExportData} {root : Option Guid}
    {renamed : List (ExportAccount × Guid)} {txns : List ImportTransaction} {as : List Account}
    {ts : List Transaction} {ss : List Split} (h : Lands x book file root renamed txns as ts ss)
    (hk : x.Keyed) (hy : ((x.clearBook book).refill book top as ts ss).Keyed) (hx : x.NoEntries)
    (hfile : ∀ t ∈ file.transactions, ∀ sp ∈ t.splits, file.Opens x book sp.accountGuid) :
    ((x.clearBook book).refill book top as ts ss).NoEntries := by
  intro a ha hp sp hsp he
  have hcases : a ∈ deleteWhere (·.bookGuid == book) x.accounts ∨ a ∈ as := List.mem_append.mp ha
  rcases Db.refill_splits hsp with hsp | hsp
  · rcases hcases with ha | ha
    · exact hx a (mem_deleteWhere.mp ha).1 hp sp hsp he
    · -- the split's account was there before the import
      obtain ⟨b, hb, hg⟩ := List.any_eq_true.mp (hk.split_account sp hsp)
      exact Db.unused_account (h.account_new ha).1 b hb ((beq_iff_eq.mp hg).trans he)
  · obtain ⟨t, ht, sp', hsp', hrow⟩ := h.split hsp
    have hopens := hfile t ht sp' hsp'
    rw [ExportData.Opens] at hopens
    rcases h.refers (ExportData.account_mem ht hsp') hrow.account with
      ⟨b, r, hlast, hr, hg, hpl⟩ | ⟨hlast, hparse, hnew⟩
    · have hr' : r ∈ ((x.clearBook book).refill book top as ts ss).accounts :=
        List.mem_append_right _ hr
      rw [hlast] at hopens
      rw [← List.inj_on_of_nodup_map hy.accounts hr' ha (hg.trans he), hpl, hopens] at hp
      exact Bool.false_ne_true hp
    · rw [hlast] at hopens
      rcases hcases with ha | ha
      · obtain ⟨ha, hbook⟩ := mem_deleteWhere.mp ha
        have hclosed := hopens a ha (he ▸ hparse) (by simpa using hbook)
        rw [hclosed] at hp
        exact Bool.false_ne_true hp
      · exact hnew a ha he.symm

end Effects

/-- **No effect of such an event puts an entry on a placeholder.** -/
theorem Effect.noEntries {e : Event} {s x y : Db} (h : Effect e s x y) (he : e.KeepsEmpty s)
    (hk : x.Keyed) (hy : y.Keyed) (hx : x.NoEntries) : y.NoEntries := by
  cases h with
  | aside h =>
    intro b hb hp sp hsp
    obtain ⟨a, ha, hab⟩ := exists_of_forall₂ h.accounts hb
    rw [h.splits] at hsp
    rw [hab.guid]
    exact hx a ha (hab.placeholder ▸ hp) sp hsp
  | @account a hnew hp =>
    intro b hb hpb sp hsp
    have hsp' : sp ∈ x.splits := by simpa [Db.append] using hsp
    rcases List.mem_append.mp (show b ∈ x.accounts ++ [a] from hb) with hb | hb
    · exact hx b hb hpb sp hsp'
    · obtain rfl := List.mem_singleton.mp hb
      intro hg
      have hthere := hk.split_account sp hsp'
      rw [hg, hnew] at hthere
      exact Bool.false_ne_true hthere
  | drop h =>
    obtain ⟨rfl, -⟩ := Db.deleteAccounts_ok h
    exact hx.subset (fun a ha => (mem_deleteWhere.mp ha).1) fun _ h => h
  | delete c => exact hx.subset (fun _ h => h) fun _ h => List.mem_of_mem_filter h
  | clear book =>
    exact hx.subset (fun _ h => (mem_deleteWhere.mp h).1) fun _ h => List.mem_of_mem_filter h
  | toggle | reconcile => exact hx.states rfl rfl
  | create _ _ _ hopen =>
    exact hx.add hk hopen (by simp [Db.append]) fun sp hsp => List.mem_append.mp hsp
  | edit _ _ _ hu hopen =>
    exact hx.add hk hopen hu.accounts fun _ hsp => hu.splits hsp
  | restore hfile hsame h =>
    refine h.noEntries hk hy hx fun t ht sp hsp => ?_
    have hopens := he.file _ _ hfile t ht sp hsp
    unfold ExportData.Opens at hopens ⊢
    rwa [hsame.accounts]
  | @update cfg book g id req p now hreq hxs hg hp hhit href =>
    subst hxs
    intro b hb hpb sp hsp
    rcases mem_updateWhere_cases hb with ⟨hb, -⟩ | ⟨a, ha, hit, rfl⟩
    · exact hx b hb hpb sp hsp
    · cases hmark : req.placeholder with
      | none => exact hx a ha (by simpa [UpdateAccountRequest.apply, hmark] using hpb) sp hsp
      | some mark =>
        obtain rfl : mark = true := by simpa [UpdateAccountRequest.apply, hmark] using hpb
        have hag : a.guid = g := by
          simp only [atVersion, Bool.and_eq_true, beq_iff_eq] at hit
          exact hit.1.1
        intro hsa
        exact he.marks _ _ _ _ _ _ hreq hg hp hhit href hmark sp hsp (hsa.trans hag)

/-! ## Runs -/

/-- The condition on a step of a run. -/
def EmptyKept (e : Event) (envs : Nat → Env) (db : Db) : Prop := e.KeepsEmpty db ∧ Spared e envs db

/-- **Placeholder accounts hold no entries.** In every state of every run in which no account with
entries is made a placeholder, and no imported file has entries on one. -/
theorem runs_noEntries {db : Db} (hr : Runs EmptyKept db) : db.NoEntries :=
  hr.by_effects (fun _ _ _ h => h.2) (fun _ h => absurd h (by simp [Db.empty]))
    fun _ _ _ h _ _ _ _ hk hy hx he => he.noEntries h.1 hk hy hx

/-- No account is updated, and no file imported. -/
theorem emptyKept_of {e : Event} {envs : Nat → Env} {db : Db}
    (hm : ∀ cfg book id req, e ≠ .request cfg book (.updateAccount id req))
    (hf : e.file db = none) : EmptyKept e envs db :=
  ⟨⟨fun _ _ _ _ _ _ he => absurd he (hm _ _ _ _), fun _ _ h => absurd (hf.symm.trans h) (by simp)⟩,
    fun _ _ h => absurd (hf.symm.trans h) (by simp)⟩

/-- An account is made a placeholder. -/
def markAccount (account : Guid) : Event :=
  .request plainConfig 3 (.updateAccount account.text
    { name := none, description := none, placeholder := some true, accountType := none,
      parentGuid := none, version := 1 })

/-- After a purchase from the checking account, the savings account can become a placeholder. -/
theorem runs_noEntries_savings :
    (serve (markAccount 13).call (calm 200) purchased).2.splits.length = 2 ∧
      (serve (markAccount 13).call (calm 200) purchased).2.NoEntries := by
  refine ⟨by decide +kernel, runs_noEntries (.step _ _ (.step _ _ (registered_runs ?_)
    (by decide +kernel) ?_) (by decide +kernel) ⟨⟨?_, ?_⟩, ?_⟩)⟩
  · exact emptyKept_of (fun _ _ _ _ h => Event.noConfusion h) rfl
  · exact emptyKept_of (fun _ _ _ _ h => by simp at h) rfl
  · intro cfg book id req g p he hg _ _ _ _
    obtain ⟨-, -, hreq⟩ := Event.request.inj he
    obtain ⟨rfl, -⟩ := Request.updateAccount.inj hreq
    obtain rfl : 13 = g := Except.ok.inj hg
    have hall : purchased.splits.all (·.accountGuid != 13) = true := by decide +kernel
    intro sp hsp
    simpa using List.all_eq_true.mp hall sp hsp
  · exact fun _ _ h => absurd h (by simp [Event.file, markAccount])
  · exact fun _ _ h => absurd h (by simp [Event.file, markAccount])

/-- After a purchase the checking account can become one as well. -/
theorem runs_entries : ¬ ∀ db, Runs (fun _ _ _ => True) db → db.NoEntries := by
  intro h
  have hr : Runs (fun _ _ _ => True) (serve (markAccount 12).call (calm 200) purchased).2 :=
    .step _ _ (.step _ _ (registered_runs trivial) (by decide +kernel) trivial)
      (by decide +kernel) trivial
  have hentry : (serve (markAccount 12).call (calm 200) purchased).2.accounts.any (fun a =>
      a.placeholder && (serve (markAccount 12).call (calm 200) purchased).2.splits.any
        fun sp => sp.accountGuid == a.guid) = true := by
    decide +kernel
  obtain ⟨a, ha, hany⟩ := List.any_eq_true.mp hentry
  obtain ⟨hp, hany⟩ := Bool.and_eq_true_iff.mp hany
  obtain ⟨sp, hsp, hg⟩ := List.any_eq_true.mp hany
  exact h _ hr a ha hp sp hsp (beq_iff_eq.mp hg)

end Antimoney
