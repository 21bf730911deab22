import Antimoney.Ledger.Import
import Antimoney.Lib.Spacing
import Antimoney.Snapshots.Failures

/-!
# The snapshot scheduler

`internal/scheduler/snapshot_scheduler.go`: a tick purges, reads the configurations, and takes the
snapshot of each book that is due. A tick returns what it logs of snapshots.

A scheduled snapshot is due an interval after the last snapshot; the quota admits 23 in 24 hours.

* `Ticking`: a book between ticks, while nothing else takes scheduled snapshots of it.
* `ticking_spaced`: its scheduled snapshots keep the interval.
* **`scheduled_admitted_iff`**: the quota admits every snapshot that is due exactly when the interval
  of the frequency is over 3756 seconds: an hour is not.
-/

namespace Antimoney

open Antimoney.Lib Prog

/-! ## Statements -/

/-- `GetAllActiveConfigs`. -/
def selectActiveConfigs : Stmt (List SnapshotConfig) :=
  .rows fun db => db.configs.filter fun c => decide (0 < c.frequencyHours) || c.activeMode

/-- `GetLastSnapshotTime`. -/
def selectLastSnapshot (book : Guid) : Stmt (Option Time) :=
  .query fun db => ((db.snapshots.filter (·.bookGuid == book)).map (·.createdAt)).max?

/-- The last `updated_at` of a book's transactions and accounts; `GREATEST` ignores a `NULL`. -/
def Db.lastDataChange (db : Db) (book : Guid) : Option Time :=
  ((db.transactions.filter (·.bookGuid == book)).map (·.updatedAt) ++
    (db.accounts.filter (·.bookGuid == book)).map (·.updatedAt)).max?

/-- `GetLastDataChangeTime`. -/
def selectLastDataChange (book : Guid) : Stmt (Option Time) := .query fun db => db.lastDataChange book

/-! ## Durations -/

/-- `time.Second`, in nanoseconds. -/
def nanosPerSecond : Int := 1000000000

/-- `Time.Sub`, which stops at the ends of `int64`. -/
def subTime (t u : Time) : Int :=
  max Int64.minValue.toInt (min Int64.maxValue.toInt ((t - u) * nanosPerSecond))

/-- `time.Duration(cfg.FrequencyHours) * time.Hour`, which wraps. -/
def threshold (frequencyHours : Int) : Int := (Int64.ofInt frequencyHours * 3600000000000).toInt

/-- `activeSnapInterval`. -/
def activeSnapInterval : Int := 5 * 60 * nanosPerSecond

/-- `lastSnap == nil || now.Sub(*lastSnap) >= interval`. -/
def elapsed (now : Time) (interval : Int) (last : Option Time) : Bool :=
  last.all fun t => decide (interval ≤ subTime now t)

/-! ## A tick -/

/-- What a tick logs of a snapshot it tried to take. -/
structure Attempt where
  book : Guid
  trigger : SnapshotTrigger
  result : Except Err SnapshotSummary

/-- `TakeSnapshotForBook`, logged. -/
def attemptSnapshot (book : Guid) (trigger : SnapshotTrigger) : Call (List Attempt) := do
  let result ← (takeSnapshotForBook book "" trigger).attempt
  return [⟨book, trigger, result⟩]

/-- The frequency-based check. -/
def checkFrequency (cfg : SnapshotConfig) (now : Time) : Call (List Attempt) := do
  if 0 < cfg.frequencyHours then
    match ← reply (selectLastSnapshot cfg.bookGuid) with
    | .error _ => return []
    | .ok lastSnap =>
      if elapsed now (threshold cfg.frequencyHours) lastSnap then
        attemptSnapshot cfg.bookGuid .scheduled
      else return []
  else return []

/-- `processConfig`. -/
def processConfig (cfg : SnapshotConfig) (now : Time) : Call (List Attempt) := do
  if cfg.activeMode then
    match ← reply (selectLastDataChange cfg.bookGuid) with
    | .ok (some lastChange) =>
      if subTime now lastChange < activeSnapInterval then
        match ← reply (selectLastSnapshot cfg.bookGuid) with
        | .error _ => checkFrequency cfg now
        | .ok lastSnap =>
          if elapsed now activeSnapInterval lastSnap then attemptSnapshot cfg.bookGuid .active
          else checkFrequency cfg now
      else checkFrequency cfg now
    | _ => checkFrequency cfg now
  else checkFrequency cfg now

/-- The loop over the configurations. -/
def processConfigs (now : Time) : List SnapshotConfig → Call (List Attempt)
  | [] => return []
  | cfg :: cfgs => do
    let attempts ← processConfig cfg now
    let rest ← processConfigs now cfgs
    return attempts ++ rest

/-- `runTick` at a time. -/
def runTickAt (now : Time) : Call (List Attempt) := do
  let _ ← purgeExpiredSnapshots.attempt
  match ← reply selectActiveConfigs with
  | .error _ => return []
  | .ok configs => processConfigs now configs

/-- `runTick`. -/
def runTick : Call (List Attempt) := do
  let now ← exec "" timeNow
  runTickAt now

/-! ## The spacing -/

section Spacing

variable {book : Guid} {db v : Db} {now : Time}

/-- The times of a book's scheduled snapshots. -/
def Db.scheduledTimes (db : Db) (book : Guid) : List Time :=
  (db.snapshots.filter (ofKind book .scheduled)).map (·.createdAt)

/-- The seconds after which a scheduled snapshot leaves room for the next: 23 of them make a day. -/
def spacing : Int := 3757

/-- The scheduled snapshots of a book keep the spacing. -/
def KeepsSpacing (book : Guid) (db : Db) : Prop := Spaced spacing (db.scheduledTimes book)

theorem KeepsSpacing.noNew {db' : Db} (h : KeepsSpacing book db)
    (hn : NoNew book .scheduled db db') : KeepsSpacing book db' := h.sublist (hn.map _)

/-- **Room for one more**: fewer are recent than the quota admits. -/
theorem KeepsSpacing.room (h : KeepsSpacing book db)
    (hlast : ∀ t ∈ db.scheduledTimes book, t + spacing ≤ now) :
    db.snapshots.countP (recent book .scheduled now) < quotaScheduled := by
  have hkind : db.snapshots.filter (recent book .scheduled now) =
      (db.snapshots.filter (ofKind book .scheduled)).filter (recent book .scheduled now) := by
    rw [List.filter_filter]
    refine List.filter_congr fun s _ => ?_
    cases hr : recent book .scheduled now s with
    | false => rfl
    | true => simp [recent_ofKind hr]
  have hsub : ((db.snapshots.filter (recent book .scheduled now)).map (·.createdAt)).Sublist
      (db.scheduledTimes book) := by
    rw [hkind]
    exact List.filter_sublist.map _
  have hfit := @Spaced.length_mul_lt _ _ _ _ _ (now - 86400) (now - spacing) _ (h.sublist hsub)
    (fun t ht => ?_) (fun t ht => ?_) ?_
  · rw [List.countP_eq_length_filter]
    rw [List.length_map] at hfit
    unfold spacing at hfit
    by_contra hfull
    have hmany : 23 ≤ (db.snapshots.filter (recent book .scheduled now)).length := not_lt.mp hfull
    have hmany : (23 : ℤ) ≤ (db.snapshots.filter (recent book .scheduled now)).length := by
      exact_mod_cast hmany
    linarith only [hfit, hmany]
  · obtain ⟨s, hs, rfl⟩ := List.mem_map.mp ht
    have hrecent := (List.mem_filter.mp hs).2
    simp only [recent, Bool.and_eq_true, decide_eq_true_eq] at hrecent
    exact hrecent.2
  · have hlate := hlast t (hsub.subset ht)
    linarith only [hlate]
  · unfold spacing
    linarith only

/-- What is due is a spacing after the last snapshot. -/
theorem spacing_of_elapsed {f : Int} {t : Time} (hf : 3756 * nanosPerSecond < threshold f)
    (ht : threshold f ≤ subTime now t) : t + spacing ≤ now := by
  have hpos : ¬ threshold f ≤ Int64.minValue.toInt := by
    have hmin : Int64.minValue.toInt ≤ 3756 * nanosPerSecond := by decide
    exact not_le.mpr (lt_of_le_of_lt hmin hf)
  unfold subTime at ht
  have hle := ((le_max_iff.mp ht).resolve_left hpos).trans (min_le_right _ _)
  unfold nanosPerSecond at hf hle
  have hlt : 3756 < now - t := by linarith only [hf, hle]
  unfold spacing
  linarith only [Int.add_one_le_of_lt hlt]

theorem spacing_of_due {f : Int} (hf : 3756 * nanosPerSecond < threshold f)
    (he : elapsed now (threshold f)
      (((db.snapshots.filter (·.bookGuid == book)).map (·.createdAt)).max?) = true) :
    ∀ t ∈ db.scheduledTimes book, t + spacing ≤ now := by
  intro t ht
  obtain ⟨s, hs, rfl⟩ := List.mem_map.mp ht
  obtain ⟨hs, hkind⟩ := List.mem_filter.mp hs
  have hmem : s.createdAt ∈ (db.snapshots.filter (·.bookGuid == book)).map (·.createdAt) :=
    List.mem_map_of_mem (List.mem_filter.mpr ⟨hs, (Bool.and_eq_true_iff.mp hkind).1⟩)
  cases hm : ((db.snapshots.filter (·.bookGuid == book)).map (·.createdAt)).max? with
  | none => exact absurd (List.max?_eq_none_iff.mp hm) (List.ne_nil_of_mem hmem)
  | some l =>
    rw [hm] at he
    have hlast := spacing_of_elapsed hf (of_decide_eq_true he)
    linarith only [hlast, (List.max?_eq_some_iff.mp hm).2 _ hmem]

end Spacing

/-! ## A tick keeps the spacing -/

/-- The database, on a clock that is at `now` or later. -/
abbrev clocked (now : Time) : Machine Stmt SqlErr Env Lock Db :=
  machine.assuming fun _ env _ => decide (now ≤ env.now)

theorem clocked_now {β : Type} {q : Stmt β} {env : Env} {v : Db} {now : Time}
    (h : (clocked now).allowed q env v = true) : now ≤ env.now := by
  have h : (q.allowed env v && decide (now ≤ env.now)) = true := h
  exact of_decide_eq_true (Bool.and_eq_true_iff.mp h).2

/-- The quota refuses no scheduled snapshot of the book. -/
def Admits (book : Guid) (attempts : List Attempt) : Prop :=
  ∀ a ∈ attempts, a.book = book → a.trigger = .scheduled → a.result ≠ .error .snapshotQuotaExceeded

/-- What a tick, or a part of it, leaves and answers. -/
abbrev TickEnds (book : Guid) (r : Except Err (List Attempt)) (t : Solo SqlErr Db) : Prop :=
  AtRest (KeepsSpacing book) t ∧ ∀ as, r = .ok as → Admits book as

/-- A configuration leaves the spacing of a book: it is another book's, or its interval is long
enough. -/
def SnapshotConfig.Spares (cfg : SnapshotConfig) (book : Guid) : Prop :=
  cfg.bookGuid = book → cfg.activeMode = false ∧
    (0 < cfg.frequencyHours → 3756 * nanosPerSecond < threshold cfg.frequencyHours)

section Tick

variable {book b : Guid} {trigger : SnapshotTrigger} {v : Db} {now : Time} {cfg : SnapshotConfig}

theorem Snapshotting.noNew {β : Type} {q : Stmt β} {env : Env} {v' : Db} {x : β} (hne : b ≠ book)
    (hq : Snapshotting b q) (hx : q.sem env v = .ok (x, v')) : NoNew book .scheduled v v' := by
  have hw := q.write_self hx
  cases hq with
  | countRecent t => exact ((reads_countRecent b t).sem hx).symm ▸ .refl _
  | «export» hq => exact (hq.reads.sem hx).symm ▸ .refl _
  | rotateActive => exact (prunes_rotateActive hw).filter _
  | insertSnapshot l t d =>
    unfold NoNew
    rw [insertSnapshotStmt_ok hw]
    simp [ofKind, hne]

/-- Reading a book leaves everything as it is, and fails with the database. -/
theorem buildExportData_clocked (v : Db) :
    (buildExportData b).swp (clocked now) Duty.none
      (fun r t => t = .idle v ∧ ∀ e, r = .error e → ∃ text e', e = .wrapped text e') (.idle v) := by
  have hloop : ∀ ts, (exportTransactions ts).FailsOnly
      fun e => ∃ text e', e = .wrapped text e' := by
    intro ts
    induction ts with
    | nil => trivial
    | cons t ts ih => exact failsOnly_ask fun _ => failsOnly_bind ih fun _ => trivial
  have hfails : (buildExportData b).FailsOnly fun e => ∃ text e', e = .wrapped text e' := by
    refine failsOnly_bind (failsOnly_sql fun _ => ⟨_, _, rfl⟩) fun _ => ?_
    refine failsOnly_bind (failsOnly_sql fun _ => ⟨_, _, rfl⟩) fun ts => ?_
    exact failsOnly_bind (hloop ts) fun _ => trivial
  exact swp_failsOnly hfails (swp_assuming (buildExportData_still v))

/-- A snapshot of another book. -/
theorem attemptSnapshot_other (hne : b ≠ book) (h : KeepsSpacing book v) :
    (attemptSnapshot b trigger).swp (clocked now) Duty.none (TickEnds book) (.idle v) := by
  have hkeeps : (takeSnapshotForBook b "" trigger).swp machine Duty.none
      (fun _ t => t.Holds (KeepsSpacing book)) (.idle v) :=
    swp_of_issues (takeSnapshotForBook_issues "" trigger)
      (fun q env v v' x hq hv _ hx => hv.noNew (hq.noNew hne hx)) (Solo.holds_idle h)
  refine swp_bind (swp_attempt (swp_assuming (swp_mono (fun r t ht => ?_)
    (swp_and hkeeps (swp_body (takeSnapshotForBook_body "" trigger) rfl)))))
  obtain ⟨s, w⟩ := t
  obtain ⟨hs, rfl⟩ := ht
  refine ⟨⟨s, rfl, hs.1⟩, fun as has a ha hbook => absurd ?_ hne⟩
  obtain rfl := Except.ok.inj has
  obtain rfl := List.mem_singleton.mp ha
  exact hbook

/-- A scheduled snapshot that is due. -/
theorem attemptSnapshot_due (h : KeepsSpacing book v)
    (hlast : ∀ t ∈ v.scheduledTimes book, t + spacing ≤ now) :
    (attemptSnapshot book .scheduled).swp (clocked now) Duty.none (TickEnds book) (.idle v) := by
  have htake : (takeSnapshotForBook book "" .scheduled).swp (clocked now) Duty.none
      (fun r t => AtRest (KeepsSpacing book) t ∧ r ≠ .error .snapshotQuotaExceeded) (.idle v) := by
    have hrest : AtRest (KeepsSpacing book) (.idle v) := ⟨v, rfl, h⟩
    have hquota : (enforceSnapshotQuota book .scheduled).swp (clocked now) Duty.none
        (fun r t => t = .idle v ∧ ∀ e, r = .error e → ∃ e', e = .wrapped "quota check" e')
        (.idle v) := by
      refine swp_sql rfl (fun _ _ => trivial) (fun e => ⟨rfl, fun e' he => ⟨e, ?_⟩⟩) ?_
      · exact (Except.error.inj he).symm
      · intro env n v' ha hx
        obtain rfl := countRecentSnapshots_ok hx
        obtain rfl := (reads_countRecent book .scheduled).sem hx
        have hnow := clocked_now ha
        have hroom := h.room fun t ht => (hlast t ht).trans hnow
        dsimp only
        split
        · rename_i hfull
          exact absurd hfull (not_le.mpr hroom)
        · exact ⟨rfl, fun _ he => absurd he (by simp)⟩
    refine swp_bind (swp_mono (fun r t ht => ?_) hquota)
    obtain ⟨rfl, herr⟩ := ht
    cases r with
    | error e =>
      obtain ⟨e', rfl⟩ := herr e rfl
      exact ⟨hrest, by simp⟩
    | ok u =>
      dsimp only [Prog.ofExcept, ret_bind]
      refine swp_bind (swp_attempt (swp_mono (fun r t ht => ?_) (buildExportData_clocked v)))
      obtain ⟨rfl, herr⟩ := ht
      cases r with
      | error e =>
        obtain ⟨text, e', rfl⟩ := herr e rfl
        exact ⟨hrest, by simp [wrapBuild]⟩
      | ok data =>
        dsimp only [Prog.ofExcept, ret_bind]
        rw [← bind_ret (exec "insert snapshot" (insertSnapshotStmt book "" .scheduled data))]
        refine swp_sql rfl (fun _ _ => trivial) (fun e => ⟨hrest, by simp⟩) ?_
        intro env ss v' ha hx
        have hnow := clocked_now ha
        refine ⟨⟨v', rfl, ?_⟩, by simp⟩
        have hrow := insertSnapshotStmt_ok (v := v) (machine.write_self hx)
        have htimes : v'.scheduledTimes book = v.scheduledTimes book ++ [env.now] := by
          rw [hrow]
          simp [Db.scheduledTimes, ofKind]
        unfold KeepsSpacing
        rw [htimes]
        exact h.concat fun t ht => (hlast t ht).trans hnow
  refine swp_bind (swp_attempt (swp_mono (fun r t ht => ?_) htake))
  obtain ⟨hrest, hr⟩ := ht
  refine ⟨hrest, fun as has a ha _ _ => ?_⟩
  obtain rfl := Except.ok.inj has
  obtain rfl := List.mem_singleton.mp ha
  exact hr

/-- **The frequency-based check** of a configuration. -/
theorem checkFrequency_swp (hc : cfg.bookGuid = book →
      0 < cfg.frequencyHours → 3756 * nanosPerSecond < threshold cfg.frequencyHours)
    (h : KeepsSpacing book v) :
    (checkFrequency cfg now).swp (clocked now) Duty.none (TickEnds book) (.idle v) := by
  have hnone : TickEnds book (.ok []) (.idle v) := by
    refine ⟨⟨v, rfl, h⟩, fun as has a ha => absurd ha ?_⟩
    rw [← Except.ok.inj has]
    exact List.not_mem_nil
  unfold checkFrequency
  split
  · rename_i hpos
    refine swp_ask rfl (fun _ _ => trivial) (fun _ _ _ _ => hnone) fun env last v' _ hx => ?_
    have hx : (selectLastSnapshot cfg.bookGuid).sem env v = .ok (last, v') := hx
    obtain ⟨rfl, rfl⟩ := Stmt.query_ok hx
    dsimp only
    split
    · rename_i hdue
      by_cases hb : cfg.bookGuid = book
      · subst hb
        exact attemptSnapshot_due h (spacing_of_due (hc rfl hpos) hdue)
      · exact attemptSnapshot_other hb h
    · exact hnone
  · exact hnone

/-- **`processConfig`.** -/
theorem processConfig_swp (hc : cfg.Spares book) (h : KeepsSpacing book v) :
    (processConfig cfg now).swp (clocked now) Duty.none (TickEnds book) (.idle v) := by
  have hfrequency := @checkFrequency_swp _ _ now _ (fun hb => (hc hb).2) h
  unfold processConfig
  split
  · rename_i hactive
    have hother : cfg.bookGuid ≠ book := fun hb => absurd hactive (by simp [(hc hb).1])
    refine swp_ask_idle (Stmt.reads_query _) fun change => ?_
    split
    · split
      · refine swp_ask_idle (Stmt.reads_query _) fun last => ?_
        cases last with
        | error e => exact hfrequency
        | ok last =>
          dsimp only
          split
          · exact attemptSnapshot_other hother h
          · exact hfrequency
      · exact hfrequency
    · exact hfrequency
  · exact hfrequency

/-- The loop over the configurations. -/
theorem processConfigs_swp {cfgs : List SnapshotConfig} (hc : ∀ cfg ∈ cfgs, cfg.Spares book)
    (h : KeepsSpacing book v) :
    (processConfigs now cfgs).swp (clocked now) Duty.none (TickEnds book) (.idle v) := by
  induction cfgs generalizing v with
  | nil =>
    refine ⟨⟨v, rfl, h⟩, fun as has a ha => absurd ha ?_⟩
    rw [← Except.ok.inj has]
    exact List.not_mem_nil
  | cons cfg cfgs ih =>
    refine swp_bind (swp_mono (fun r t ht => ?_)
      (processConfig_swp (hc cfg List.mem_cons_self) h))
    obtain ⟨⟨w, rfl, hw⟩, hadmits⟩ := ht
    cases r with
    | error e => exact ⟨⟨w, rfl, hw⟩, fun _ he => absurd he (by simp)⟩
    | ok attempts =>
      dsimp only [Prog.ofExcept, ret_bind]
      refine swp_bind (swp_mono (fun r t ht => ?_) (ih (fun c hm => hc c (.tail _ hm)) hw))
      obtain ⟨hrest, hlater⟩ := ht
      cases r with
      | error e => exact ⟨hrest, fun _ he => absurd he (by simp)⟩
      | ok rest =>
        refine ⟨hrest, fun as has a ha => ?_⟩
        obtain rfl := Except.ok.inj has
        exact (List.mem_append.mp ha).elim (hadmits _ rfl a) (hlater _ rfl a)

/-- **A tick.** -/
theorem runTickAt_swp (hc : ∀ cfg ∈ v.configs, cfg.Spares book) (h : KeepsSpacing book v) :
    (runTickAt now).swp (clocked now) Duty.none (TickEnds book) (.idle v) := by
  have hpurge : purgeExpiredSnapshots.swp (clocked now) Duty.none
      (fun _ t => ∃ w, t = .idle w ∧ w.configs = v.configs ∧ KeepsSpacing book w) (.idle v) := by
    unfold purgeExpiredSnapshots
    rw [← bind_ret (exec _ purgeStmt)]
    refine swp_sql rfl (fun _ _ => trivial) (fun _ => ⟨v, rfl, rfl, h⟩) fun env u w _ hx => ?_
    have hx : machine.exec purgeStmt env v = .ok (u, w) := hx
    obtain ⟨c, rfl⟩ := purgeStmt_ok (v := v) (machine.write_self hx)
    exact ⟨_, rfl, rfl, h.noNew (List.filter_sublist.filter _)⟩
  refine swp_bind (swp_attempt (swp_mono (fun r t ht => ?_) hpurge))
  obtain ⟨w, rfl, hconfigs, hw⟩ := ht
  refine swp_ask rfl (fun _ _ => trivial) (fun _ _ _ _ => ?_) fun env cfgs w' _ hx => ?_
  · refine ⟨⟨w, rfl, hw⟩, fun as has a ha => absurd ha ?_⟩
    rw [← Except.ok.inj has]
    exact List.not_mem_nil
  · have hx : selectActiveConfigs.sem env w = .ok (cfgs, w') := hx
    obtain ⟨⟨rows, hrows, rfl⟩, rfl⟩ := Stmt.rowsE_ok hx
    refine processConfigs_swp (fun cfg hcfg => hc cfg ?_) hw
    obtain rfl := Except.ok.inj hrows
    exact hconfigs ▸ (List.mem_filter.mp (env.mem_received hcfg)).1

end Tick

/-! ## Ticks in sequence -/

/-- A tick in this environment: the clock does not go back, and the book's configuration takes no
active snapshots and has this frequency. -/
structure TicksOn (frequencyHours : Int) (book : Guid) (envs : Nat → Env) (db : Db) : Prop where
  allowed : runTick.runAllowed machine envs (.idle db) = true
  clock : ∀ n, (envs 0).now ≤ (envs n).now
  config : ∀ cfg ∈ db.configs, cfg.bookGuid = book →
    cfg.activeMode = false ∧ cfg.frequencyHours = frequencyHours

/-- **A book between ticks**, with the time of the last: whatever else happens takes no scheduled
snapshot of it. -/
inductive Ticking (frequencyHours : Int) (book : Guid) : Time → Db → Prop
  | start {db : Db} (t : Time) (h : db.scheduledTimes book = []) :
      Ticking frequencyHours book t db
  | other {t : Time} {db db' : Db} (hr : Ticking frequencyHours book t db)
      (hn : NoNew book .scheduled db db') : Ticking frequencyHours book t db'
  | tick {t : Time} {db : Db} {envs : Nat → Env} (hr : Ticking frequencyHours book t db)
      (ht : t ≤ (envs 0).now) (hk : TicksOn frequencyHours book envs db) :
      Ticking frequencyHours book (envs 0).now (runTick.run machine envs (.idle db)).2.db

section Ticks

variable {f : Int} {book : Guid} {t : Time} {db : Db} {envs : Nat → Env}

theorem runTick_run (envs : Nat → Env) (db : Db) :
    runTick.run machine envs (.idle db) =
        (runTickAt (envs 0).now).run machine (fun n => envs (n + 1)) (.idle db) ∧
      runTick.runAllowed machine envs (.idle db) =
        (runTickAt (envs 0).now).runAllowed machine (fun n => envs (n + 1)) (.idle db) :=
  ⟨run_sql (b := (envs 0).now) rfl, rfl⟩

/-- **What a tick does** to a book whose interval is long enough. -/
theorem TicksOn.keeps (hk : TicksOn f book envs db)
    (hf : 0 < f → 3756 * nanosPerSecond < threshold f) (h : KeepsSpacing book db) :
    KeepsSpacing book (runTick.run machine envs (.idle db)).2.db ∧
      ∀ as, (runTick.run machine envs (.idle db)).1 = .ok as → Admits book as := by
  obtain ⟨hrun, hallowed⟩ := runTick_run envs db
  have hspares : ∀ cfg ∈ db.configs, cfg.Spares book := by
    intro cfg hcfg hb
    obtain ⟨hactive, rfl⟩ := hk.config cfg hcfg hb
    exact ⟨hactive, hf⟩
  have hdone := run_of_swp (@runTickAt_swp _ _ (envs 0).now hspares h)
    (runAllowed_assuming (fun q n s => decide_eq_true (hk.clock (n + 1))) (hallowed ▸ hk.allowed))
  rw [run_assuming] at hdone
  rw [hrun]
  exact ⟨hdone.1.db, hdone.2⟩

/-- **The scheduled snapshots keep the spacing.** -/
theorem ticking_spaced (hf : 0 < f → 3756 * nanosPerSecond < threshold f)
    (hr : Ticking f book t db) : KeepsSpacing book db := by
  induction hr with
  | start t h =>
    unfold KeepsSpacing
    rw [h]
    exact .nil
  | other hr hn ih => exact ih.noNew hn
  | tick hr ht hk ih => exact (hk.keeps hf ih).1

end Ticks

/-! ## A quota used up by spacing alone -/

section Hourly

/-- A call alone in one environment: what it answers and leaves, supplied only what it may. -/
def Evals {α : Type} (env : Env) (s : Db) (p : Call α) (r : Except Err α) (s' : Db) : Prop :=
  p.run machine (fun _ => env) (.idle s) = (r, .idle s') ∧
    p.runAllowed machine (fun _ => env) (.idle s) = true

theorem evals_stmt {α β : Type} {env : Env} {s v s' : Db} {q : Stmt β} {b : β}
    {k : Except SqlErr β → Call α} {r : Except Err α} (hx : q.sem env s = .ok (b, v))
    (ha : q.allowed env s = true) (h : Evals env v (k (.ok b)) r s') :
    Evals env s (op (.stmt q) k) r s' := by
  have hx' : machine.exec q env s = .ok (b, v) := hx
  have ha' : machine.allowed q env s = true := ha
  unfold Evals
  simp only [run, runAllowed, soloStep, soloAllowed, Solo.view_idle, hx', ha', Solo.put_idle,
    Bool.true_and]
  exact h

theorem evals_ret {α : Type} {env : Env} {s : Db} {a : α} :
    Evals env s (ret a) (.ok a) s := ⟨rfl, rfl⟩

/-- What a snapshot of the registered user's book stores. -/
def exportedBook : ExportData :=
  ⟨((registered.accounts.filter (·.bookGuid == 3)).insertionSort parentLe).map Account.toExport, []⟩

/-- Snapshots 3756 seconds apart. -/
def spacedSnapshot (k : Nat) : Snapshot :=
  ⟨1000 + k, 3, "", .scheduled, exportedBook, 3756 * k⟩

/-- The registered user's book under a schedule, after some snapshots. -/
def scheduledBook (f : Int) (n : Nat) : Db :=
  { registered with
    configs := [⟨900, 3, f, 0, false, 0, 0⟩]
    snapshots := (List.range n).map spacedSnapshot }

/-- A calm environment that stands at the time of the next snapshot. -/
def tickEnv (n : Nat) : Env := { calm 0 0 with now := 3756 * n, guid := 1000 + n }

variable {f : Int} {n : Nat}

theorem scheduledBook_due (hf : threshold f ≤ 3756 * nanosPerSecond) :
    elapsed (3756 * n : Int) (threshold f) ((((scheduledBook f n).snapshots.filter
      (·.bookGuid == 3)).map (·.createdAt)).max?) = true := by
  cases hm : (((scheduledBook f n).snapshots.filter (·.bookGuid == 3)).map (·.createdAt)).max? with
  | none => rfl
  | some l =>
    obtain ⟨s, hs, rfl⟩ := List.mem_map.mp (List.max?_mem hm)
    obtain ⟨k, hk, rfl⟩ := List.mem_map.mp (List.mem_filter.mp hs).1
    have hk : k < n := List.mem_range.mp hk
    refine decide_eq_true (hf.trans ?_)
    have hmax : 3756 * nanosPerSecond ≤ Int64.maxValue.toInt := by decide
    have hgap : 3756 * nanosPerSecond ≤ (3756 * n - 3756 * k : Int) * nanosPerSecond := by
      unfold nanosPerSecond
      have hk : (k : Int) + 1 ≤ n := by exact_mod_cast hk
      linarith only [hk]
    exact le_max_of_le_right (le_min hmax hgap)

/-- **Up to the snapshot**, a tick finds it due. -/
theorem scheduledBook_tick (hpos : 0 < f) (hf : threshold f ≤ 3756 * nanosPerSecond)
    {r : Except Err SnapshotSummary} {s' : Db}
    (h : ∀ {β : Type} (k : Except Err SnapshotSummary → Call β) a s'',
      Evals (tickEnv n) s' (k r) a s'' →
      Evals (tickEnv n) (scheduledBook f n)
        ((takeSnapshotForBook 3 "" .scheduled).attempt.bind k) a s'') :
    Evals (tickEnv n) (scheduledBook f n) runTick (.ok [⟨3, .scheduled, r⟩]) s' := by
  refine evals_stmt (b := (3756 * n : Int)) (v := scheduledBook f n) rfl rfl ?_
  have hpurge : deleteWhere (fun s => (scheduledBook f n).configs.any fun c =>
      c.bookGuid == s.bookGuid && decide (0 < c.ttlHours) &&
        decide (s.createdAt < (3756 * n : Int) - c.ttlHours * 3600)) (scheduledBook f n).snapshots =
      (scheduledBook f n).snapshots := by
    simp [deleteWhere, scheduledBook]
  refine evals_stmt (b := ()) (v := scheduledBook f n) ?_ rfl ?_
  · have hsem : purgeStmt.sem (tickEnv n) (scheduledBook f n) = .ok ((), { scheduledBook f n with
        snapshots := deleteWhere (fun s => (scheduledBook f n).configs.any fun c =>
          c.bookGuid == s.bookGuid && decide (0 < c.ttlHours) &&
            decide (s.createdAt < (3756 * n : Int) - c.ttlHours * 3600))
              (scheduledBook f n).snapshots }) := rfl
    rw [hsem, hpurge]
  refine evals_stmt (b := [⟨900, 3, f, 0, false, 0, 0⟩]) (v := scheduledBook f n) ?_ rfl ?_
  · have hrows : ((scheduledBook f n).configs.filter fun c =>
        decide (0 < c.frequencyHours) || c.activeMode) = [⟨900, 3, f, 0, false, 0, 0⟩] := by
      simp [scheduledBook, hpos]
    have hsem : selectActiveConfigs.sem (tickEnv n) (scheduledBook f n) =
        .ok ((scheduledBook f n).configs.filter fun c =>
          decide (0 < c.frequencyHours) || c.activeMode, scheduledBook f n) := rfl
    rw [hsem, hrows]
  have hcheck : checkFrequency ⟨900, 3, f, 0, false, 0, 0⟩ (3756 * n : Int) =
      (reply (selectLastSnapshot 3)).bind fun
        | .error _ => ret []
        | .ok lastSnap => if elapsed (3756 * n : Int) (threshold f) lastSnap then
            attemptSnapshot 3 .scheduled else ret [] := by
    unfold checkFrequency
    rw [if_pos hpos]
    rfl
  have hloop : processConfigs (3756 * n : Int) [⟨900, 3, f, 0, false, 0, 0⟩] =
      (checkFrequency ⟨900, 3, f, 0, false, 0, 0⟩ (3756 * n : Int)).bind fun as => ret (as ++ []) := rfl
  dsimp only [ret_bind]
  rw [hloop, hcheck]
  refine evals_stmt (v := scheduledBook f n) rfl rfl ?_
  dsimp only [ret_bind]
  rw [if_pos (scheduledBook_due hf)]
  have hattempt : (attemptSnapshot 3 .scheduled).bind (fun as => ret (as ++ [])) =
      (takeSnapshotForBook 3 "" .scheduled).attempt.bind fun r =>
        (ret [⟨3, .scheduled, r⟩] : Call (List Attempt)) := bind_assoc _ _ _
  rw [hattempt]
  exact h _ _ _ evals_ret

/-- Below the quota it is taken. -/
theorem scheduledBook_taken (hpos : 0 < f) (hf : threshold f ≤ 3756 * nanosPerSecond)
    (hn : n < 23) :
    Evals (tickEnv n) (scheduledBook f n) runTick
      (.ok [⟨3, .scheduled, .ok (spacedSnapshot n).summary⟩]) (scheduledBook f (n + 1)) := by
  have hcount : (scheduledBook f n).snapshots.countP (recent 3 .scheduled (3756 * n : Int)) < 23 := by
    refine lt_of_le_of_lt List.countP_le_length ?_
    simpa [scheduledBook] using hn
  refine scheduledBook_tick hpos hf fun k a s'' hk => ?_
  refine evals_stmt (v := scheduledBook f n) rfl rfl ?_
  dsimp only [ret_bind]
  split
  · rename_i hfull
    exact absurd hfull (not_le.mpr hcount)
  · refine evals_stmt (b := exportedBook.accounts) (v := scheduledBook f n) rfl rfl ?_
    have hnone : registered.transactions = [] := by decide +kernel
    have hbook : registered.hasBook 3 = true := by decide +kernel
    have htxns : (selectExportTransactions 3).sem (tickEnv n) (scheduledBook f n) =
        .ok ([], scheduledBook f n) := by
      have hsem : (selectExportTransactions 3).sem (tickEnv n) (scheduledBook f n) =
          .ok (registered.transactions.filter (·.bookGuid == 3), scheduledBook f n) := rfl
      rw [hsem, hnone, List.filter_nil]
    have hsnapshots : (scheduledBook f (n + 1)).snapshots =
        (scheduledBook f n).snapshots ++ [spacedSnapshot n] := by
      simp [scheduledBook, List.range_succ]
    have hinsert : (insertSnapshotStmt 3 "" .scheduled exportedBook).sem (tickEnv n)
        (scheduledBook f n) = .ok ((spacedSnapshot n).summary, scheduledBook f (n + 1)) := by
      have hsem : (insertSnapshotStmt 3 "" .scheduled exportedBook).sem (tickEnv n)
          (scheduledBook f n) = (require (registered.hasBook 3) .foreignKey).bind fun _ =>
            .ok ((spacedSnapshot n).summary, { scheduledBook f n with
              snapshots := (scheduledBook f n).snapshots ++ [spacedSnapshot n] }) := rfl
      rw [hsem, hbook, ← hsnapshots]
      rfl
    have hunused : (insertSnapshotStmt 3 "" .scheduled exportedBook).allowed (tickEnv n)
        (scheduledBook f n) = true := by
      have hall : ∀ n < 23, (scheduledBook 1 n).unused (1000 + n) = true := by decide +kernel
      exact hall n hn
    refine evals_stmt htxns rfl ?_
    exact evals_stmt hinsert hunused hk

/-- The twenty-fourth is refused. -/
theorem scheduledBook_refused (hpos : 0 < f) (hf : threshold f ≤ 3756 * nanosPerSecond) :
    Evals (tickEnv 23) (scheduledBook f 23) runTick
      (.ok [⟨3, .scheduled, .error .snapshotQuotaExceeded⟩]) (scheduledBook f 23) := by
  refine scheduledBook_tick hpos hf fun k a s'' hk => ?_
  have hcount : (scheduledBook f 23).snapshots.countP (recent 3 .scheduled (3756 * 23 : Int)) =
      23 := by
    have hsnapshots : (scheduledBook f 23).snapshots = (List.range 23).map spacedSnapshot := rfl
    rw [hsnapshots]
    decide +kernel
  refine evals_stmt (v := scheduledBook f 23) rfl rfl ?_
  dsimp only [ret_bind]
  split
  · exact hk
  · rename_i hroom
    exact absurd hcount.ge hroom

theorem scheduledBook_ticksOn {a : Except Err (List Attempt)} {s' : Db}
    (h : Evals (tickEnv n) (scheduledBook f n) runTick a s') :
    TicksOn f 3 (fun _ => tickEnv n) (scheduledBook f n) where
  allowed := h.2
  clock _ := le_rfl
  config cfg hcfg _ := by
    obtain rfl := List.mem_singleton.mp hcfg
    exact ⟨rfl, rfl⟩

/-- Every 3756 seconds a tick takes a snapshot, up to the quota. -/
theorem scheduledBook_ticking (hpos : 0 < f) (hf : threshold f ≤ 3756 * nanosPerSecond)
    (hn : n ≤ 23) : ∃ t : Time, t ≤ 3756 * n ∧ Ticking f 3 t (scheduledBook f n) := by
  induction n with
  | zero => exact ⟨0, by simp, .start 0 rfl⟩
  | succ n ih =>
    obtain ⟨t, ht, hr⟩ := ih (by omega)
    have htaken := scheduledBook_taken hpos hf (show n < 23 by omega)
    have htick := @Ticking.tick _ _ _ _ (fun _ => tickEnv n) hr ht (scheduledBook_ticksOn htaken)
    rw [htaken.1] at htick
    refine ⟨3756 * n, ?_, htick⟩
    push_cast
    linarith only

/-- **The run that is refused.** -/
theorem scheduledBook_refuted (hpos : 0 < f) (hf : threshold f ≤ 3756 * nanosPerSecond) :
    ∃ (book : Guid) (t : Time) (db : Db) (envs : Nat → Env) (as : List Attempt),
      Ticking f book t db ∧ t ≤ (envs 0).now ∧ TicksOn f book envs db ∧
      (runTick.run machine envs (.idle db)).1 = .ok as ∧ ¬ Admits book as := by
  obtain ⟨t, ht, hr⟩ := scheduledBook_ticking hpos hf le_rfl
  have hrefused := scheduledBook_refused hpos hf
  refine ⟨3, t, _, fun _ => tickEnv 23, _, hr, ht, scheduledBook_ticksOn hrefused,
    congrArg Prod.fst hrefused.1, fun h => ?_⟩
  exact h _ List.mem_cons_self rfl rfl rfl

end Hourly

/-- **The quota admits what is due**, over all sequences of ticks, exactly when the interval of the
frequency is over 3756 seconds. -/
theorem scheduled_admitted_iff {f : Int} (hpos : 1 ≤ f) :
    (∀ book t db envs as, Ticking f book t db → t ≤ (envs 0).now → TicksOn f book envs db →
      (runTick.run machine envs (.idle db)).1 = .ok as → Admits book as) ↔
      3756 * nanosPerSecond < threshold f := by
  constructor
  · intro h
    by_contra hf
    obtain ⟨book, t, db, envs, as, hr, ht, hk, has, hnot⟩ :=
      scheduledBook_refuted (Int.lt_of_lt_of_le Int.zero_lt_one hpos) (not_lt.mp hf)
    exact hnot (h book t db envs as hr ht hk has)
  · intro hf book t db envs as hr _ hk has
    exact (hk.keeps (fun _ => hf) (ticking_spaced (fun _ => hf) hr)).2 as has

/-- Every two hours. -/
theorem scheduled_admitted_two : 3756 * nanosPerSecond < threshold 2 ∧
    ∀ book t db envs as, Ticking 2 book t db → t ≤ (envs 0).now → TicksOn 2 book envs db →
      (runTick.run machine envs (.idle db)).1 = .ok as → Admits book as :=
  ⟨by decide, (scheduled_admitted_iff (by decide)).mpr (by decide)⟩

/-- **Every hour is too often.** -/
theorem scheduled_not_admitted : ∃ (book : Guid) (t : Time) (db : Db) (envs : Nat → Env)
    (as : List Attempt), Ticking 1 book t db ∧ t ≤ (envs 0).now ∧ TicksOn 1 book envs db ∧
      (runTick.run machine envs (.idle db)).1 = .ok as ∧ ¬ Admits book as :=
  scheduledBook_refuted (by decide) (by decide)

end Antimoney
