import Mathlib.Data.List.Dedup
import Mathlib.Data.List.Pairwise
import Antimoney.Lib.Table

/-!
# One row per key

The deduplication of a table by a key that may be null, in SQL: of the rows with one key, the
one with the least `ctid` (physical position) is kept, the others are surplus.

`surplus_iff` says which rows go, `uniqueOn_deleteWhere` that deleting them leaves one row per
key, `surplus_of_uniqueOn` that a table with one row per key loses nothing.
-/

namespace Antimoney.Lib

variable {α κ : Type}

/-- One row per key, where nulls do not count: `UNIQUE (key)`. -/
def UniqueOn (key : α → Option κ) (t : List α) : Prop := (t.filterMap key).Nodup

instance [DecidableEq κ] (key : α → Option κ) (t : List α) : Decidable (UniqueOn key t) :=
  inferInstanceAs (Decidable (t.filterMap key).Nodup)

theorem uniqueOn_iff {key : α → Option κ} {t : List α} :
    UniqueOn key t ↔ t.Pairwise fun r r' => ∀ k, key r = some k → key r' ≠ some k := by
  unfold UniqueOn List.Nodup
  rw [List.pairwise_filterMap]
  constructor
  · intro h
    exact h.imp fun hr k hk hk' => hr k hk k hk' rfl
  · intro h
    exact h.imp fun hr k hk k' hk' (he : k = k') => hr k hk (by rw [he]; exact hk')

/-- Rows of one key are one row, where positions tell rows apart. -/
theorem UniqueOn.eq {key : α → Option κ} {t : List α} (h : UniqueOn key t) {r r' : α} {k : κ}
    (hr : r ∈ t) (hr' : r' ∈ t) (hk : key r = some k) (hk' : key r' = some k) : r = r' := by
  by_contra hne
  have hsymm : Std.Symm fun r r' => ∀ k, key r = some k → key r' ≠ some k :=
    ⟨fun _ _ h k hk hk' => h k hk' hk⟩
  exact (uniqueOn_iff.mp h).forall hr hr' hne k hk hk'

section Surplus

variable [DecidableEq κ]

/-- `SELECT min(ctid) FROM t WHERE key IS NOT NULL GROUP BY key`. -/
def firsts (ctid : α → Nat) (key : α → Option κ) (t : List α) : List Nat :=
  (t.filterMap key).dedup.filterMap fun k =>
    ((t.filter fun r => key r = some k).map ctid).min?

/-- `key IS NOT NULL AND ctid NOT IN (SELECT min(ctid) FROM t … GROUP BY key)`. -/
def surplus (ctid : α → Nat) (key : α → Option κ) (t : List α) (r : α) : Bool :=
  (key r).isSome && !(firsts ctid key t).contains (ctid r)

variable {ctid : α → Nat} {key : α → Option κ} {t : List α}

theorem mem_firsts {n : Nat} : n ∈ firsts ctid key t ↔
    ∃ r ∈ t, ctid r = n ∧ (key r).isSome ∧ ∀ r' ∈ t, key r' = key r → n ≤ ctid r' := by
  unfold firsts
  rw [List.mem_filterMap]
  constructor
  · rintro ⟨k, -, hk⟩
    obtain ⟨hmem, hle⟩ := List.min?_eq_some_iff.mp hk
    obtain ⟨r, hr, hn⟩ := List.mem_map.mp hmem
    obtain ⟨hr, hkey⟩ := List.mem_filter.mp hr
    have hkey : key r = some k := of_decide_eq_true hkey
    refine ⟨r, hr, hn, by simp [hkey], fun r' hr' hk' => hle _ ?_⟩
    exact List.mem_map.mpr ⟨r', List.mem_filter.mpr ⟨hr', by simp [hk', hkey]⟩, rfl⟩
  · rintro ⟨r, hr, hn, hsome, hle⟩
    obtain ⟨k, hk⟩ := Option.isSome_iff_exists.mp hsome
    refine ⟨k, List.mem_dedup.mpr (List.mem_filterMap.mpr ⟨r, hr, hk⟩), ?_⟩
    refine List.min?_eq_some_iff.mpr ⟨?_, ?_⟩
    · exact List.mem_map.mpr ⟨r, List.mem_filter.mpr ⟨hr, by simp [hk]⟩, hn⟩
    · intro m hm
      obtain ⟨r', hr', rfl⟩ := List.mem_map.mp hm
      obtain ⟨hr', hk'⟩ := List.mem_filter.mp hr'
      exact hle r' hr' (by rw [hk, of_decide_eq_true hk'])

/-- A row is surplus when an earlier one has its key. -/
theorem surplus_iff (hc : (t.map ctid).Nodup) {r : α} (hr : r ∈ t) :
    surplus ctid key t r = true ↔
      (key r).isSome ∧ ∃ r' ∈ t, key r' = key r ∧ ctid r' < ctid r := by
  have hinj := List.inj_on_of_nodup_map hc
  simp only [surplus, Bool.and_eq_true, Bool.not_eq_true', List.contains_eq_mem,
    decide_eq_false_iff_not, mem_firsts]
  refine and_congr_right fun hsome => ?_
  constructor
  · intro h
    by_contra hno
    refine h ⟨r, hr, rfl, hsome, fun r' hr' hk => ?_⟩
    by_contra hlt
    exact hno ⟨r', hr', hk, Nat.not_le.mp hlt⟩
  · rintro ⟨r', hr', hk, hlt⟩ ⟨x, hx, hxr, -, hle⟩
    obtain rfl : x = r := hinj hx hr hxr
    exact absurd (hle r' hr' hk) (Nat.not_le.mpr hlt)

theorem not_surplus_iff (hc : (t.map ctid).Nodup) {r : α} (hr : r ∈ t) (hk : (key r).isSome) :
    surplus ctid key t r = false ↔ ∀ r' ∈ t, key r' = key r → ctid r ≤ ctid r' := by
  rw [← Bool.not_eq_true, surplus_iff hc hr]
  constructor
  · intro h r' hr' hk'
    by_contra hlt
    exact h ⟨hk, r', hr', hk', Nat.not_le.mp hlt⟩
  · rintro h ⟨-, r', hr', hk', hlt⟩
    exact absurd (h r' hr' hk') (Nat.not_le.mpr hlt)

/-- Deleting the surplus rows leaves one row per key. -/
theorem uniqueOn_deleteWhere (hc : (t.map ctid).Nodup) :
    UniqueOn key (deleteWhere (surplus ctid key t) t) := by
  have hinj := List.inj_on_of_nodup_map hc
  refine uniqueOn_iff.mpr (List.Pairwise.imp_of_mem ?_ ((List.Nodup.of_map _ hc).filter _))
  intro r r' hr hr' hne k hk hk'
  obtain ⟨hr, hs⟩ := mem_deleteWhere.mp hr
  obtain ⟨hr', hs'⟩ := mem_deleteWhere.mp hr'
  have hle := (not_surplus_iff hc hr (by simp [hk])).mp hs r' hr' (hk'.trans hk.symm)
  have hle' := (not_surplus_iff hc hr' (by simp [hk'])).mp hs' r hr (hk.trans hk'.symm)
  exact hne (hinj hr hr' (Nat.le_antisymm hle hle'))

/-- Where there is one row per key, no row is surplus. -/
theorem surplus_of_uniqueOn (hc : (t.map ctid).Nodup) (hu : UniqueOn key t) {r : α} (hr : r ∈ t) :
    surplus ctid key t r = false := by
  by_contra hs
  obtain ⟨hk, r', hr', hk', hlt⟩ := (surplus_iff hc hr).mp (by simpa using hs)
  obtain ⟨k, hk⟩ := Option.isSome_iff_exists.mp hk
  obtain rfl : r' = r := hu.eq hr' hr (hk'.trans hk) hk
  exact absurd hlt (Nat.lt_irrefl _)

/-- No row is surplus exactly where there is one row per key. -/
theorem forall_not_surplus_iff (hc : (t.map ctid).Nodup) :
    (∀ r ∈ t, surplus ctid key t r = false) ↔ UniqueOn key t := by
  constructor
  · intro h
    have hkept : deleteWhere (surplus ctid key t) t = t :=
      List.filter_eq_self.mpr fun r hr => by simp [h r hr]
    exact hkept ▸ uniqueOn_deleteWhere hc
  · exact fun hu r hr => surplus_of_uniqueOn hc hu hr

end Surplus

/-- The deleted rows and the rows left are the table. -/
theorem deleteWhere_append_filter_perm (c : α → Bool) (t : List α) :
    (deleteWhere c t ++ t.filter c).Perm t := by
  unfold deleteWhere
  exact (List.perm_append_comm).trans (List.filter_append_perm c t)

/-- A table that lost rows is not the table it was. -/
theorem deleteWhere_perm_iff {c : α → Bool} {t : List α} :
    (deleteWhere c t).Perm t ↔ ∀ r ∈ t, c r = false := by
  constructor
  · intro h r hr
    have hself := List.length_filter_eq_length_iff.mp h.length_eq
    simpa using hself r hr
  · intro h
    have hkept : deleteWhere c t = t := List.filter_eq_self.mpr fun r hr => by simp [h r hr]
    rw [hkept]

/-- An update that clears the key leaves the keys of the rows it spared. -/
theorem filterMap_updateWhere_none {key : α → Option κ} {c : α → Bool} {f : α → α}
    (hf : ∀ r, c r = true → key (f r) = none) (t : List α) :
    (updateWhere c f t).filterMap key = (deleteWhere c t).filterMap key := by
  induction t with
  | nil => rfl
  | cons r t ih =>
    rw [updateWhere_cons, List.filterMap_cons, ih]
    by_cases h : c r = true
    · simp [deleteWhere, h, hf r h]
    · simp [deleteWhere, h, List.filterMap_cons]

end Antimoney.Lib
