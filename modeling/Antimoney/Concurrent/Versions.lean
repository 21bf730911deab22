import Antimoney.Concurrent
import Mathlib.Data.List.Pairwise

/-!
# Optimistic updates of accounts

Every write of an existing account raises its version by one, so a row at a version is the row that
was there when the version was reached, and an `UPDATE` that asks for the version meets just that
row.

* `Bumps`: what one write does to the accounts; `Syncing.bumps`, `Linking.bumps`, `Removing.bumps`.
* **`updateAccount_optimistic`**: over every interleaving of the writers of existing accounts.
-/

namespace Antimoney

open Antimoney.Lib Prog

/-! ## One write -/

/-- No account comes, some may go, and each that stays is as it was or one version on. -/
structure Bumps (x y : Db) : Prop where
  keys : (y.accounts.map (·.guid)).Sublist (x.accounts.map (·.guid))
  rows : ∀ b ∈ y.accounts, ∃ a ∈ x.accounts, a.guid = b.guid ∧ (b = a ∨ b.version = a.version + 1)

variable {x y z : Db}

theorem bumps_of_eq (h : y.accounts = x.accounts) : Bumps x y := by
  refine ⟨by rw [h], fun b hb => ?_⟩
  rw [h] at hb
  exact ⟨b, hb, rfl, .inl rfl⟩

theorem bumps_of_delete {c : Account → Bool} (h : y.accounts = deleteWhere c x.accounts) :
    Bumps x y := by
  refine ⟨?_, fun b hb => ?_⟩
  · rw [h]
    exact List.filter_sublist.map _
  · rw [h] at hb
    exact ⟨b, (mem_deleteWhere.mp hb).1, rfl, .inl rfl⟩

theorem bumps_of_update {c : Account → Bool} {f : Account → Account}
    (hf : ∀ a, (f a).guid = a.guid ∧ (f a).version = a.version + 1)
    (h : y.accounts = updateWhere c f x.accounts) : Bumps x y := by
  refine ⟨?_, fun b hb => ?_⟩
  · rw [h, map_updateWhere fun a => (hf a).1]
  · rw [h] at hb
    rcases mem_updateWhere_cases hb with ⟨hb, -⟩ | ⟨a, ha, -, rfl⟩
    · exact ⟨b, hb, rfl, .inl rfl⟩
    · exact ⟨a, ha, (hf a).1.symm, .inr (hf a).2⟩

/-- A statement whose writes only bump, and which is not an `UPDATE` of `UpdateAccount`. -/
structure Bumping {β : Type} (q : Stmt β) : Prop where
  write : ∀ {env : Env} {v x y : Db}, q.write env v x = .ok y → Bumps x y
  tag : ∀ book account version, q.tag ≠ .updateAccount book account version

theorem ByBook.not_updateAccount {book : Guid} {β : Type} {q : Stmt β} (h : ByBook book q)
    (b : Guid) (a : GuidText) (v : Int) : q.tag ≠ .updateAccount b a v := by
  cases h <;> exact fun h => nomatch h

theorem Reading.bumping {book : Guid} {β : Type} {q : Stmt β} (h : Reading book q) : Bumping q :=
  ⟨fun hw => by rw [h.reads.write hw]; exact bumps_of_eq rfl, h.named.not_updateAccount⟩

/-- Reads that name an account by its identifier alone. -/
theorem bumping_of_reads {β : Type} {q : Stmt β} (h : q.Reads) (ht : q.tag = .other) : Bumping q :=
  ⟨fun hw => by rw [h.write hw]; exact bumps_of_eq rfl, fun _ _ _ he => nomatch ht.symm.trans he⟩

theorem bumping_deleteAccount (account : GuidText) (book : Guid) :
    Bumping (deleteAccountStmt account book) := by
  refine ⟨fun hw => ?_, fun _ _ _ h => nomatch h⟩
  obtain ⟨g, -, rfl⟩ := deleteAccountStmt_ok hw
  exact bumps_of_delete rfl

theorem Fetching.bumping {book : Guid} {β : Type} {q : Stmt β} (h : Fetching book q) : Bumping q := by
  cases h with
  | read h => exact h.bumping
  | lock i =>
    refine ⟨fun hw => ?_, fun _ _ _ h => nomatch h⟩
    rcases tryAdvisoryLock_ok hw with ⟨-, rfl⟩ | ⟨-, rfl⟩ <;> exact bumps_of_eq rfl
  | unlock i =>
    refine ⟨fun hw => ?_, fun _ _ _ h => nomatch h⟩
    rw [advisoryUnlock_ok hw]
    exact bumps_of_eq rfl
  | upsertStaged i t d ht =>
    refine ⟨fun hw => ?_, fun _ _ _ h => nomatch h⟩
    obtain ⟨_, _, -, -, rfl⟩ := upsertStaged_ok hw
    exact bumps_of_eq rfl
  | dropReplaced is =>
    refine ⟨fun hw => ?_, fun _ _ _ h => nomatch h⟩
    rw [dropReplaced_ok hw]
    exact bumps_of_eq rfl
  | dropUndismissed is =>
    refine ⟨fun hw => ?_, fun _ _ _ h => nomatch h⟩
    rw [dropUndismissed_ok hw]
    exact bumps_of_eq rfl
  | writeCursor i c n =>
    refine ⟨fun hw => ?_, fun _ _ _ h => nomatch h⟩
    obtain ⟨_, -, rfl⟩ := writeCursor_ok hw
    exact bumps_of_eq rfl
  | writeLastSynced i n =>
    refine ⟨fun hw => ?_, fun _ _ _ h => nomatch h⟩
    rw [writeLastSynced_ok hw]
    refine bumps_of_update ?_ rfl
    exact fun _ => ⟨rfl, rfl⟩

theorem Syncing.bumping {book : Guid} {β : Type} {q : Stmt β} (h : Syncing book q) : Bumping q := by
  cases h with
  | fetch h => exact h.bumping
  | reseal i c n v =>
    refine ⟨fun hw => ?_, fun _ _ _ h => nomatch h⟩
    obtain ⟨_, _, -, rfl⟩ := resealStmt_ok hw
    exact bumps_of_eq rfl

theorem Linking.bumping {book : Guid} {item : GuidText} {β : Type} {q : Stmt β}
    (h : Linking book item q) : Bumping q := by
  cases h with
  | read h => exact h.bumping
  | updateLink a l =>
    refine ⟨fun hw => ?_, fun _ _ _ h => nomatch h⟩
    obtain ⟨_, _, -, -, rfl⟩ := updateLinkStmt_ok hw
    refine bumps_of_update ?_ rfl
    exact fun _ => ⟨rfl, rfl⟩
  | updateImportPending p =>
    refine ⟨fun hw => ?_, fun _ _ _ h => nomatch h⟩
    obtain ⟨_, _, -, rfl⟩ := updateImportPending_ok hw
    exact bumps_of_eq rfl

theorem Removing.bumping {book : Guid} {β : Type} {q : Stmt β} (h : Removing book q) :
    Bumping q := by
  cases h with
  | read h => exact h.bumping
  | reseal i c n v =>
    refine ⟨fun hw => ?_, fun _ _ _ h => nomatch h⟩
    obtain ⟨_, _, -, rfl⟩ := resealStmt_ok hw
    exact bumps_of_eq rfl
  | archiveItem i v =>
    refine ⟨fun hw => ?_, fun _ _ _ h => nomatch h⟩
    rw [archiveItem_ok hw]
    exact bumps_of_eq rfl
  | clearLinks i =>
    refine ⟨fun hw => ?_, fun _ _ _ h => nomatch h⟩
    rw [clearLinks_ok hw]
    refine bumps_of_update ?_ rfl
    exact fun _ => ⟨rfl, rfl⟩
  | deleteItem i v =>
    refine ⟨fun hw => ?_, fun _ _ _ h => nomatch h⟩
    rw [deleteItemStmt_ok hw]
    exact bumps_of_eq rfl

/-! ## Many writes -/

/-- What any number of writes does: each account that stays is as it was or later. -/
structure Aged (x y : Db) : Prop where
  keys : (y.accounts.map (·.guid)).Sublist (x.accounts.map (·.guid))
  rows : ∀ b ∈ y.accounts, ∃ a ∈ x.accounts, a.guid = b.guid ∧ (b = a ∨ a.version < b.version)

theorem Aged.refl (x : Db) : Aged x x := ⟨.refl _, fun b hb => ⟨b, hb, rfl, .inl rfl⟩⟩

theorem Aged.trans (h : Aged x y) (h' : Aged y z) : Aged x z := by
  refine ⟨h'.keys.trans h.keys, fun c hc => ?_⟩
  obtain ⟨b, hb, hbc, hcb⟩ := h'.rows c hc
  obtain ⟨a, ha, hab, hba⟩ := h.rows b hb
  refine ⟨a, ha, hab.trans hbc, ?_⟩
  rcases hcb with rfl | hlt
  · exact hba
  · rcases hba with rfl | hlt'
    · exact .inr hlt
    · exact .inr (Nat.lt_trans hlt' hlt)

theorem Bumps.aged (h : Bumps x y) : Aged x y := by
  refine ⟨h.keys, fun b hb => ?_⟩
  obtain ⟨a, ha, hg, hv⟩ := h.rows b hb
  refine ⟨a, ha, hg, hv.imp_right fun hv => ?_⟩
  rw [hv]
  exact Nat.lt_succ_self _

theorem aged_of_times {n : Nat} (h : Times Bumps n x y) : Aged x y :=
  h.rel Aged.refl Aged.trans Bumps.aged

/-- **A row at a version is the row that was there when the version was reached.** -/
theorem Aged.unchanged (h : Aged x y) (hk : (x.accounts.map (·.guid)).Nodup) {a b : Account}
    (ha : a ∈ x.accounts) (hb : b ∈ y.accounts) (hg : a.guid = b.guid)
    (hv : a.version = b.version) : a = b := by
  obtain ⟨a', ha', hg', hba⟩ := h.rows b hb
  obtain rfl : a' = a := List.inj_on_of_nodup_map hk ha' ha (hg'.trans hg.symm)
  rcases hba with rfl | hlt
  · rfl
  · omega

/-! ## `UpdateAccount` -/

/-- The note is of an `UPDATE` of `UpdateAccount` that met the account at the version. -/
def Note.Updates (n : Note) (account : Guid) (version : Int) : Prop :=
  ∃ book text, n.tag = .updateAccount book text version ∧ text.parse = .ok account ∧
    n.view.accounts.any (atVersion account book version) = true

/-- The notes the writes of a step leave in the log, one bump each. -/
structure Counted (es : List (Nat × Note)) (x y : Logged Db Note) : Prop where
  log : y.log = es ++ x.log
  bumps : Times Bumps es.length x.data y.data

/-- A step that meets no account in an `UPDATE` of `UpdateAccount`. -/
def CountsOther (x y : Logged Db Note) : Prop :=
  ∃ es, Counted es x y ∧ ∀ e ∈ es, ∀ g v, ¬ e.2.Updates g v

/-- A step whose updates met what was committed. -/
def Counts (x y : Logged Db Note) : Prop :=
  ∃ es, Counted es x y ∧ ∀ e ∈ es, ∀ g v, e.2.Updates g v → e.2.view = x.data

/-- An account that an update has met is past the version, and no two updates met one account at
one version. -/
structure Passed (s : Logged Db Note) : Prop where
  nodup : (s.data.accounts.map (·.guid)).Nodup
  past : ∀ e ∈ s.log, ∀ g (v : Int), e.2.Updates g v → ∀ a ∈ s.data.accounts, a.guid = g →
    v < a.version
  once : s.log.Pairwise fun e e' => ∀ g v, e.2.Updates g v → ¬ e'.2.Updates g v

variable {s s' : Logged Db Note}

theorem countsOther_refl (s : Logged Db Note) : CountsOther s s :=
  ⟨[], ⟨rfl, .zero _⟩, fun _ h => absurd h (by simp)⟩

theorem CountsOther.trans {s'' : Logged Db Note} (h : CountsOther s s') (h' : CountsOther s' s'') :
    CountsOther s s'' := by
  obtain ⟨es, ⟨hl, hb⟩, hn⟩ := h
  obtain ⟨es', ⟨hl', hb'⟩, hn'⟩ := h'
  refine ⟨es' ++ es, ⟨by rw [hl', hl, List.append_assoc], ?_⟩, fun e he => ?_⟩
  · rw [List.length_append, Nat.add_comm]
    exact hb.trans hb'
  · rcases List.mem_append.mp he with he | he
    · exact hn' e he
    · exact hn e he

theorem CountsOther.counts (h : CountsOther s s') : Counts s s' := by
  obtain ⟨es, hc, hn⟩ := h
  exact ⟨es, hc, fun e he g v hu => absurd hu (hn e he g v)⟩

/-- An account that has passed a version stays past it. -/
theorem past_of_aged {g : Guid} {v : Int} (h : Aged x y)
    (hp : ∀ a ∈ x.accounts, a.guid = g → v < a.version) :
    ∀ a ∈ y.accounts, a.guid = g → v < a.version := by
  intro b hb hg
  obtain ⟨a, ha, hab, hba⟩ := h.rows b hb
  have := hp a ha (hab.trans hg)
  rcases hba with rfl | hlt
  · exact this
  · omega

theorem Passed.countsOther (h : Passed s) (hc : CountsOther s s') : Passed s' := by
  obtain ⟨es, ⟨hl, hb⟩, hn⟩ := hc
  have ha := aged_of_times hb
  refine ⟨h.nodup.sublist ha.keys, fun e he g v hu => ?_, ?_⟩
  · rw [hl] at he
    rcases List.mem_append.mp he with he | he
    · exact absurd hu (hn e he g v)
    · exact past_of_aged ha (h.past e he g v hu)
  · rw [hl, List.pairwise_append]
    refine ⟨?_, h.once, fun e he e' _ g v hu => absurd hu (hn e he g v)⟩
    exact List.pairwise_of_forall_mem_list fun e he e' _ g v hu => absurd hu (hn e he g v)

/-- The contract of call `id`: what it logs is its own, and is counted. -/
def versionContract (id : Nat) : Contract Stmt SqlErr (Nat × Env) (Logged Db Note) where
  inv := Passed
  rely x y := ∀ e ∈ x.log, e ∈ y.log
  guar _ := Counts
  ok _ env _ := env.1 = id
  rely_refl _ _ h := h
  rely_trans h h' e he := h' e (h e he)
  guar_refl _ s _ := (countsOther_refl s).counts

theorem frame_version (id : Nat) : Frame observed (versionContract id) Bumping CountsOther where
  refl := countsOther_refl
  trans := CountsOther.trans
  write q env s v v' b x y hq _ _ _ hw := by
    obtain ⟨hw, hl⟩ := Machine.logged_write hw
    refine ⟨[_], ⟨hl, .one (hq.write hw)⟩, fun e he g v hu => ?_⟩
    obtain rfl := List.mem_singleton.mp he
    obtain ⟨book, text, ht, -⟩ := hu
    exact hq.tag book text v ht
  keeps _ _ _ _ h hc := ⟨h.countsOther hc, hc.counts⟩

/-- What is known of the outcome of an update: an answer means that its `UPDATE` met the account. -/
def UpdateOutcome (id : Nat) (text : GuidText) (version : Int) (s : Logged Db Note) : Prop :=
  ∃ n g, (id, n) ∈ s.log ∧ text.parse = .ok g ∧ n.Updates g version

theorem stable_updateOutcome {id : Nat} {text : GuidText} {version : Int} {id' : Nat} :
    (versionContract id').Stable (UpdateOutcome id text version) := by
  rintro s s' ⟨n, g, hn, h⟩ hr -
  exact ⟨n, g, hr _ hn, h⟩

theorem Passed.update {e : Nat × Note} {g : Guid} {v : Int} (h : Passed s)
    (hl : s'.log = e :: s.log) (hv : e.2.view = s.data) (ha : Aged s.data s'.data)
    (hu : ∀ g' v', e.2.Updates g' v' → g' = g ∧ v' = v)
    (hpast : e.2.Updates g v → ∀ a ∈ s'.data.accounts, a.guid = g → v < a.version) :
    Passed s' := by
  refine ⟨h.nodup.sublist ha.keys, fun e' he' g' v' hu' => ?_, ?_⟩
  · rw [hl] at he'
    rcases List.mem_cons.mp he' with rfl | he'
    · obtain ⟨rfl, rfl⟩ := hu g' v' hu'
      exact hpast hu'
    · exact past_of_aged ha (h.past e' he' g' v' hu')
  · rw [hl, List.pairwise_cons]
    refine ⟨fun e' he' g' v' hu₁ hu₂ => ?_, h.once⟩
    -- the account the new update met is past the version already
    obtain ⟨book, text, -, -, hany⟩ := hu₁
    rw [hv, List.any_eq_true] at hany
    obtain ⟨a, ha', hat⟩ := hany
    simp only [atVersion, Bool.and_eq_true, beq_iff_eq] at hat
    have := h.past e' he' g' v' hu₂ a ha' hat.1.1
    omega

/-- **`UpdateAccount` among other calls.** -/
theorem updateAccount_wp {id : Nat} {book : Guid} {text : GuidText} {req : UpdateAccountRequest}
    (s : Logged Db Note) :
    (updateAccount book text req).wp observed (versionContract id)
      (fun x _ s => ∀ a, x = .ok a → UpdateOutcome id text req.version s) .idle s := by
  have hf := frame_version id
  have htrue : (versionContract id).Stable fun _ => True := fun _ _ _ _ _ => trivial
  have hno : ∀ e : Err, ∀ s, ∀ a : Account, Except.error e = .ok a →
      UpdateOutcome id text req.version s := fun _ _ _ h => absurd h (by simp)
  refine wp_stmt_frame (R := fun _ => True) hf htrue (fun _ _ _ _ _ => trivial)
    (bumping_of_reads (Stmt.reads_askEnv _) rfl) trivial (fun _ e s _ _ _ => hno _ s) ?_
  intro _ now _ s _ _ _ _ _ _
  refine wp_stmt_idle (fun s' _ e _ _ _ _ => hno _ s') ?_
  intro s₁ env affected s₂ _ hi _ hid hx
  obtain ⟨hx, hl⟩ := Machine.logged_exec hx
  obtain ⟨g, p, hg, rfl, hs₂⟩ := updateAccountStmt_sem hx
  have hb : Bumps s₁.data s₂.data :=
    bumps_of_update (f := req.apply p now) (fun _ => ⟨rfl, rfl⟩) (by rw [hs₂])
  have hu : ∀ g' v', (noteOf (updateAccountStmt text book req now) env.2 s₁.data).Updates g' v' →
      g' = g ∧ v' = req.version := by
    rintro g' v' ⟨_, _, ht, hg', -⟩
    obtain ⟨rfl, rfl, rfl⟩ := Tag.updateAccount.inj ht
    exact ⟨Except.ok.inj (hg'.symm.trans hg), rfl⟩
  have hpast : (noteOf (updateAccountStmt text book req now) env.2 s₁.data).Updates g req.version →
      ∀ a ∈ s₂.data.accounts, a.guid = g → req.version < a.version := by
    rintro ⟨_, _, ht, -, hany⟩ b hbm hbg
    obtain ⟨rfl, rfl, -⟩ := Tag.updateAccount.inj ht
    obtain ⟨a₀, ha₀, hat₀⟩ := List.any_eq_true.mp hany
    have hg₀ : a₀.guid = g := by
      simp only [atVersion, Bool.and_eq_true, beq_iff_eq] at hat₀
      exact hat₀.1.1
    rw [hs₂] at hbm
    rcases mem_updateWhere_cases hbm with ⟨hb', hno'⟩ | ⟨a, ha, hat, rfl⟩
    · -- a row left alone would be a second row under the identifier
      obtain rfl := List.inj_on_of_nodup_map hi.nodup hb' ha₀ (hbg.trans hg₀.symm)
      rw [hno'] at hat₀
      exact absurd hat₀ (by simp)
    · simp only [atVersion, Bool.and_eq_true, beq_iff_eq] at hat
      simp only [UpdateAccountRequest.apply]
      omega
  have hcounts : Counts s₁ s₂ :=
    ⟨[_], ⟨hl, .one hb⟩, fun e he _ _ _ => by rw [List.mem_singleton.mp he]; rfl⟩
  refine ⟨hi.update hl rfl hb.aged hu hpast, hcounts, ?_⟩
  dsimp only [ret_bind]
  split
  · refine wp_stmt_frame (R := fun _ => True) hf htrue (fun _ _ _ _ _ => trivial)
      (Reading.bumping ⟨.accountExists _, Stmt.reads_queryE _⟩) trivial (fun _ e s _ _ _ => hno _ s) ?_
    intro _ r _ s _ _ _ _ _ _
    dsimp only [ret_bind]
    split <;> exact hno _ s
  · rename_i hne
    have hout : UpdateOutcome id text req.version s₂ := by
      refine ⟨_, g, by rw [hl, show env.1 = id from hid]; exact List.mem_cons_self, hg, ?_⟩
      refine ⟨book, text, rfl, hg, ?_⟩
      rw [List.any_eq_true]
      exact List.countP_pos_iff.mp (Nat.pos_of_ne_zero hne)
    refine wp_stmt_frame hf stable_updateOutcome (fun x y _ hc ho => ?_)
      (Reading.bumping ⟨.selectAccount _, Stmt.reads_queryE _⟩) hout (fun _ e s _ _ _ => hno _ s) ?_
    · obtain ⟨n, g, hn, h⟩ := ho
      obtain ⟨es, hc, -⟩ := hc
      exact ⟨n, g, by rw [hc.log]; exact List.mem_append_right _ hn, h⟩
    · intro _ r _ s _ hs _ _ _ _
      cases r with
      | none => exact hno _ s
      | some a => exact fun _ _ => hs

theorem deleteAccount_bumping (book : Guid) (account : GuidText) :
    (deleteAccount book account).Issues Bumping := by
  refine issues_reply (bumping_of_reads (Stmt.reads_queryE _) rfl) fun n => ?_
  split
  · trivial
  · refine issues_reply (bumping_of_reads (Stmt.reads_queryE _) rfl) fun n => ?_
    split
    · trivial
    · refine issues_exec (bumping_deleteAccount _ _) fun n => ?_
      split <;> trivial

/-! ## Every interleaving -/

/-- The requests that write existing accounts. -/
def Request.writesAccount : Request → Bool
  | .updateAccount _ _ | .deleteAccount _ | .plaidLink _ _ _ | .plaidSync _
  | .plaidDisconnect _ => true
  | _ => false

/-- Only requests that write existing accounts arrive. -/
abbrev AccountWriters : Observed → ObservedStep → Prop := Arriving Request.writesAccount

/-- The call asks to update the account, at the version. -/
def Asks (r : Arrival Event) (account : Guid) (version : Int) : Prop :=
  ∃ cfg book text req, r.req = .request cfg book (.updateAccount text req) ∧
    text.parse = .ok account ∧ req.version = version

/-- What holds of the outcome of a call: an update that was answered is in the log. -/
def updatePost (r : Arrival Event) (x : Except Err Response) (s : Logged Db Note) : Prop :=
  ∀ g v, Asks r g v → ∀ a, x = .ok a → ∃ n, (r.id, n) ∈ s.log ∧ n.Updates g v

theorem updatePost_of_other {r : Arrival Event} (h : ∀ g v, ¬ Asks r g v)
    (x : Except Err Response) (s : Logged Db Note) : updatePost r x s :=
  fun g v ha => absurd ha (h g v)

theorem accountWriter_wp {r : Arrival Event} (s : Logged Db Note)
    (h : ∃ cfg book req, r.req = .request cfg book req ∧ req.writesAccount = true) :
    r.call.wp observed (versionContract r.id) (fun x _ s => updatePost r x s) .idle s := by
  obtain ⟨id, e⟩ := r
  obtain ⟨cfg, book, req, rfl, hreq⟩ := h
  have hother : ∀ {req : Request}, (∀ text r, req ≠ .updateAccount text r) →
      (handle cfg book req).Issues Bumping →
      (handle cfg book req).wp observed (versionContract id)
        (fun x _ s => updatePost ⟨id, .request cfg book req⟩ x s) .idle s := by
    intro req hne hi
    refine wp_mono (fun x _ s _ => updatePost_of_other ?_ x s)
      (wp_frame (frame_version id) hi Sess.within_idle)
    rintro g v ⟨_, _, text, r, he, -⟩
    exact hne text r (Event.request.inj he).2.2
  cases req with
  | updateAccount text req =>
    refine wp_bind (wp_mono (fun x ss s hx => ?_) (updateAccount_wp s))
    cases x with
    | error e => exact fun _ _ _ _ h => absurd h (by simp)
    | ok a =>
      rintro g v ⟨_, _, text', req', he, hg, rfl⟩ _ -
      obtain ⟨rfl, rfl⟩ := Request.updateAccount.inj (Event.request.inj he).2.2
      obtain ⟨n, g', hn, hg', hu⟩ := hx a rfl
      obtain rfl := Except.ok.inj (hg.symm.trans hg')
      exact ⟨n, hn, hu⟩
  | deleteAccount text =>
    exact hother (fun _ _ => by simp) (issues_answer (deleteAccount_bumping book text))
  | plaidLink item ms p =>
    refine hother (fun _ _ => by simp) ?_
    simp only [handle]
    split
    · trivial
    · split
      · trivial
      · exact issues_answer ((linkAccounts_issues item ms p).mono fun _ h => h.bumping)
  | plaidSync item =>
    refine hother (fun _ _ => by simp) ?_
    simp only [handle]
    split
    · trivial
    · exact issues_answer ((sync_issues cfg item).mono fun _ h => h.bumping)
  | plaidDisconnect item =>
    refine hother (fun _ _ => by simp) ?_
    simp only [handle]
    split
    · trivial
    · exact issues_answer ((disconnect_issues cfg item).mono fun _ h => h.bumping)
  | _ => exact absurd hreq (by simp [Request.writesAccount])

theorem versions_tolerant {db : Db} (hk : (db.accounts.map (·.guid)).Nodup) :
    Tolerant observed Arrival.call (Numbering AccountWriters) ⟨db, []⟩ Passed
      (fun r => versionContract r.id) updatePost fun _ _ => True where
  start := ⟨hk, fun _ h => absurd h (by simp), .nil⟩
  inv _ _ := Iff.rfl
  arrives c r _ hok _ := accountWriter_wp c.db hok.2
  pairs _ _ _ _ _ _ _ := ⟨trivial, trivial⟩
  supplied h := h.ok.1.trans (h.reach.id_eq (fun _ _ h => h.1) h.call).symm
  rely _ _ _ _ hg _ _ := by
    obtain ⟨es, hc, -⟩ := hg
    exact fun e he => by rw [hc.log]; exact List.mem_append_right es he
  keep _ _ _ _ hg hp := by
    intro g v ha a hx
    obtain ⟨n, hn, hu⟩ := hp g v ha a hx
    obtain ⟨es, hc, -⟩ := hg
    exact ⟨n, by rw [hc.log]; exact List.mem_append_right es hn, hu⟩

/-- **No update of an account is lost.** In every interleaving of the requests that write existing
accounts, from any state:

* an account that an update meets at a version is the row it was when it reached the version;
* each write that a step commits leaves the accounts alone, takes some away, or raises versions by
  one;
* at most one update is answered for an account and a version. -/
theorem updateAccount_optimistic {db : Db} (hk : (db.accounts.map (·.guid)).Nodup) {c : Observed}
    (hr : Watched AccountWriters db c) :
    (∀ {c₁ c₂ : Observed} {i : Nat} {env : Nat × Env} {es : List (Nat × Note)} {n : Note}
      {g : Guid} {v : Int}, c.Leads observed Arrival.call (Numbering AccountWriters) c₁ →
      Numbering AccountWriters c₁ (.step i env) →
      c₁.next observed Arrival.call (.step i env) = some c₂ → c₂.db.log = es ++ c₁.db.log →
      (i, n) ∈ es → n.Updates g v →
      ∀ a ∈ c.db.data.accounts, a.guid = g → a.version = v → a ∈ c₁.db.data.accounts) ∧
    (∀ {c' : Observed} {i : Nat} {env : Nat × Env}, Numbering AccountWriters c (.step i env) →
      c.next observed Arrival.call (.step i env) = some c' →
      ∃ es, c'.db.log = es ++ c.db.log ∧ Times Bumps es.length c.db.data c'.db.data) ∧
    (∀ {i j : Nat} {a b : ObservedCall} {g : Guid} {v : Int} {x y : Response},
      c.calls[i]? = some a → c.calls[j]? = some b → Asks a.req g v → Asks b.req g v →
      a.prog.outcome = some (.ok x) → b.prog.outcome = some (.ok y) → i = j) := by
  have t := versions_tolerant hk
  have hnum : ∀ c e, Numbering AccountWriters c e → Numbered c e := fun _ _ h => h.1
  have hstep : ∀ {c₁ c₂ : Observed} {i : Nat} {env : Nat × Env}, Watched AccountWriters db c₁ →
      Numbering AccountWriters c₁ (.step i env) →
      c₁.next observed Arrival.call (.step i env) = some c₂ → Counts c₁.db c₂.db := by
    intro c₁ c₂ i env h₁ he hn
    obtain ⟨_, _, _, _, _, _, hg⟩ := t.guar h₁ he hn
    exact hg
  refine ⟨?_, ?_, ?_⟩
  · intro c₁ c₂ i env es n g v hl he hn hes hmem hu a ha hag hav
    have h₁ := hr.leads hl
    have haged : Aged c.db.data c₁.db.data :=
      hr.leads_rel (G := fun s s' => Aged s.data s'.data) (fun s => Aged.refl _) Aged.trans
        (fun hc he hn => by
          obtain ⟨_, hc, -⟩ := hstep hc he hn
          exact aged_of_times hc.bumps) hl
    obtain ⟨es', hc, hview⟩ := hstep h₁ he hn
    obtain rfl : es' = es := List.append_cancel_right (hc.log.symm.trans hes)
    have hv := hview _ hmem g v hu
    obtain ⟨book, text, -, -, hany⟩ := hu
    rw [hv, List.any_eq_true] at hany
    obtain ⟨b, hb, hat⟩ := hany
    simp only [atVersion, Bool.and_eq_true, beq_iff_eq] at hat
    have hab := haged.unchanged (t.poolInv hr).inv.nodup ha hb (hag.trans hat.1.1.symm)
      (by omega)
    rw [hab]
    exact hb
  · intro c' i env he hn
    obtain ⟨es, hc, -⟩ := hstep hr he hn
    exact ⟨es, hc.log, hc.bumps⟩
  · intro i j a b g v x y hi hj ha hb hx hy
    obtain ⟨n, hn, hu⟩ := t.done hr hi hx g v ha x rfl
    obtain ⟨m, hm, hu'⟩ := t.done hr hj hy g v hb y rfl
    rw [hr.id_eq hnum hi] at hn
    rw [hr.id_eq hnum hj] at hm
    by_contra hij
    have hne : (i, n) ≠ (j, m) := fun h => hij (Prod.mk.inj h).1
    have : Std.Symm fun e e' : Nat × Note => ∀ g v, e.2.Updates g v → ¬ e'.2.Updates g v :=
      ⟨fun _ _ h g v h₁ h₂ => h g v h₂ h₁⟩
    exact (t.poolInv hr).inv.once.forall hn hm hne g v hu hu'

/-- A request to rename account 12, at its first version. -/
def rename (name : String) : Event :=
  .request plainConfig 3 (.updateAccount (Guid.text 12) ⟨some name, none, none, none, none, 1⟩)

/-- Two updates of one account at one version, with their steps mixed. -/
def twoRenames : List ObservedStep :=
  [.spawn ⟨0, rename "Main"⟩, .spawn ⟨1, rename "Joint"⟩, .step 0 (0, calm 100 0),
   .step 1 (1, calm 100 1), .step 1 (1, calm 100 2), .step 0 (0, calm 100 3),
   .step 0 (0, calm 100 4), .step 1 (1, calm 100 5)]

/-- Of two such updates one is answered and the other refused. -/
theorem updateAccount_optimistic_renames : ∃ c, Watched AccountWriters registered c ∧
    c.calls.map (fun a => a.prog.outcome.map (·.toBool)) = [some false, some true] ∧
    ∀ (i j : Nat) (a b : ObservedCall) (x y : Response), c.calls[i]? = some a →
      c.calls[j]? = some b → Asks a.req 12 1 → Asks b.req 12 1 →
      a.prog.outcome = some (.ok x) → b.prog.outcome = some (.ok y) → i = j := by
  have hrun : ((watchedRun Request.writesAccount registered twoRenames).map fun c =>
      c.calls.map fun a => a.prog.outcome.map (·.toBool)) = some [some false, some true] := by
    decide +kernel
  obtain ⟨c, hc, ho⟩ := Option.map_eq_some_iff.mp hrun
  have hr : Watched AccountWriters registered c := watched_of_run hc
  refine ⟨c, hr, ho, fun i j a b x y hi hj ha hb hx hy => ?_⟩
  exact (updateAccount_optimistic (by decide +kernel) hr).2.2 hi hj ha hb hx hy

end Antimoney
