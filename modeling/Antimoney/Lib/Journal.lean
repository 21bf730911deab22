import Mathlib.Algebra.BigOperators.Group.List.Basic
import Mathlib.Data.List.Nodup

/-!
# Journals

A journal is a list of keys and a list of entries under keys. It is `Sound` for a condition on
groups when keys are distinct, every entry is under one of them, and the entries under each key
satisfy the condition together.

* `Sound.append`, `Sound.post`: groups that satisfy the condition may be posted under new keys.
* `Sound.remove`: keys may go, with their entries.
* `Sound.replace`: the entries under a key may be exchanged for others that satisfy the condition.
* `sum_groups`: what the groups add up to is what the entries do.
-/

namespace Antimoney.Lib

/-- Keys, and entries under them. -/
structure Journal (κ α : Type) where
  keys : List κ
  entries : List (κ × α)

namespace Journal

variable {κ α : Type} [DecidableEq κ]

/-- The entries under `k`, in order. -/
def group (j : Journal κ α) (k : κ) : List α := (j.entries.filter fun e => e.1 = k).map Prod.snd

/-- The groups come in under their keys. -/
def post (gs : List (κ × List α)) (j : Journal κ α) : Journal κ α :=
  ⟨j.keys ++ gs.map Prod.fst, j.entries ++ gs.flatMap fun g => g.2.map (Prod.mk g.1)⟩

/-- The keys that `c` selects go, with their entries. -/
def remove (c : κ → Bool) (j : Journal κ α) : Journal κ α :=
  ⟨j.keys.filter fun k => !c k, j.entries.filter fun e => !c e.1⟩

/-- Other entries under `k`. -/
def replace (k : κ) (vs : List α) (j : Journal κ α) : Journal κ α :=
  ⟨j.keys, (j.entries.filter fun e => e.1 ≠ k) ++ vs.map (Prod.mk k)⟩

/-- A condition on groups holds throughout. -/
structure Sound (P : List α → Prop) (j : Journal κ α) : Prop where
  nodup : j.keys.Nodup
  closed : ∀ e ∈ j.entries, e.1 ∈ j.keys
  each : ∀ k ∈ j.keys, P (j.group k)

variable {P : List α → Prop} {j : Journal κ α}

theorem group_eq_nil {k : κ} (h : ∀ e ∈ j.entries, e.1 ≠ k) : j.group k = [] := by
  simp only [group, List.map_eq_nil_iff, List.filter_eq_nil_iff, decide_eq_true_eq]
  exact h

theorem filter_map_mk (k k' : κ) (vs : List α) :
    ((vs.map (Prod.mk k)).filter fun e => e.1 = k') = if k = k' then vs.map (Prod.mk k) else [] := by
  split
  · rename_i h
    exact List.filter_eq_self.mpr fun e he => by
      obtain ⟨v, -, rfl⟩ := List.mem_map.mp he
      exact decide_eq_true h
  · rename_i h
    refine List.filter_eq_nil_iff.mpr fun e he => ?_
    obtain ⟨v, -, rfl⟩ := List.mem_map.mp he
    simpa using h

/-- The entries of a list of groups that are under no key but theirs. -/
theorem group_groups {gs : List (κ × List α)} (hn : (gs.map Prod.fst).Nodup) {g : κ × List α}
    (hg : g ∈ gs) :
    (((gs.flatMap fun g => g.2.map (Prod.mk g.1)).filter fun e => e.1 = g.1).map Prod.snd) = g.2 := by
  induction gs with
  | nil => exact absurd hg (by simp)
  | cons a gs ih =>
    rw [List.map_cons, List.nodup_cons] at hn
    rw [List.flatMap_cons, List.filter_append, filter_map_mk]
    rcases List.mem_cons.mp hg with rfl | hg'
    · -- the later groups are under other keys
      have hrest : ((gs.flatMap fun g => g.2.map (Prod.mk g.1)).filter fun e => e.1 = g.1) = [] := by
        refine List.filter_eq_nil_iff.mpr fun e he => ?_
        obtain ⟨b, hb, he'⟩ := List.mem_flatMap.mp he
        obtain ⟨v, -, rfl⟩ := List.mem_map.mp he'
        simp only [decide_eq_true_eq]
        intro h
        exact hn.1 (h ▸ List.mem_map_of_mem hb)
      rw [if_pos rfl, hrest, List.append_nil, List.map_map]
      exact List.map_id _
    · have hne : a.1 ≠ g.1 := fun h => hn.1 (h ▸ List.mem_map_of_mem hg')
      rw [if_neg hne, List.nil_append]
      exact ih hn.2 hg'

/-- New keys come in, with entries of their own. -/
theorem Sound.append {ks : List κ} {es : List (κ × α)} (h : j.Sound P) (hn : (j.keys ++ ks).Nodup)
    (hc : ∀ e ∈ es, e.1 ∈ ks) (hes : ∀ k ∈ ks, P ((es.filter fun e => e.1 = k).map Prod.snd)) :
    (Journal.mk (j.keys ++ ks) (j.entries ++ es)).Sound P := by
  obtain ⟨-, -, hdis⟩ := List.nodup_append.mp hn
  refine ⟨hn, fun e he => ?_, fun k hk => ?_⟩
  · rcases List.mem_append.mp he with he | he
    · exact List.mem_append_left _ (h.closed e he)
    · exact List.mem_append_right _ (hc e he)
  · simp only [group, List.filter_append, List.map_append]
    rcases List.mem_append.mp hk with hk | hk
    · -- nothing new is under an old key
      have hnil : (es.filter fun e => e.1 = k) = [] := by
        refine List.filter_eq_nil_iff.mpr fun e he => ?_
        simp only [decide_eq_true_eq]
        exact fun heq => hdis k hk e.1 (hc e he) heq.symm
      rw [hnil, List.map_nil, List.append_nil]
      exact h.each k hk
    · -- nothing old is under a new key
      have hnil : j.group k = [] :=
        group_eq_nil fun e he heq => hdis e.1 (h.closed e he) k hk heq
      have hold : (j.entries.filter fun e => e.1 = k).map Prod.snd = [] := hnil
      rw [hold, List.nil_append]
      exact hes k hk

theorem Sound.post {gs : List (κ × List α)} (h : j.Sound P) (hn : (j.post gs).keys.Nodup)
    (hg : ∀ g ∈ gs, P g.2) : (j.post gs).Sound P := by
  have hn' : (j.keys ++ gs.map Prod.fst).Nodup := hn
  refine h.append hn' (fun e he => ?_) fun k hk => ?_
  · obtain ⟨g, hg', he'⟩ := List.mem_flatMap.mp he
    obtain ⟨v, -, rfl⟩ := List.mem_map.mp he'
    exact List.mem_map_of_mem hg'
  · obtain ⟨g, hg', rfl⟩ := List.mem_map.mp hk
    rw [group_groups (List.nodup_append.mp hn').2.1 hg']
    exact hg g hg'

theorem Sound.remove (c : κ → Bool) (h : j.Sound P) : (j.remove c).Sound P := by
  refine ⟨h.nodup.filter _, fun e he => ?_, fun k hk => ?_⟩
  · obtain ⟨he, hc⟩ := List.mem_filter.mp he
    exact List.mem_filter.mpr ⟨h.closed e he, hc⟩
  · obtain ⟨hk, hc⟩ := List.mem_filter.mp hk
    have : (j.remove c).group k = j.group k := by
      simp only [group, Journal.remove, List.filter_filter]
      refine congrArg _ (List.filter_congr fun e _ => ?_)
      by_cases he : e.1 = k
      · rw [he]
        simpa using hc
      · simp [he]
    rw [this]
    exact h.each k hk

theorem Sound.replace {k : κ} {vs : List α} (h : j.Sound P) (hk : k ∈ j.keys) (hv : P vs) :
    (j.replace k vs).Sound P := by
  refine ⟨h.nodup, fun e he => ?_, fun k' hk' => ?_⟩
  · rcases List.mem_append.mp he with he | he
    · exact h.closed e (List.mem_filter.mp he).1
    · obtain ⟨v, -, rfl⟩ := List.mem_map.mp he
      exact hk
  · simp only [group, Journal.replace, List.filter_append, List.map_append, List.filter_filter,
      filter_map_mk]
    by_cases hkk : k = k'
    · subst hkk
      have hnil : (j.entries.filter fun e => decide (e.1 = k) && decide (e.1 ≠ k)) = [] :=
        List.filter_eq_nil_iff.mpr fun e _ => by simp
      rw [hnil, if_pos rfl, List.map_nil, List.nil_append, List.map_map]
      exact (List.map_id vs).symm ▸ hv
    · have hsame : (j.entries.filter fun e => decide (e.1 = k') && decide (e.1 ≠ k)) =
          j.entries.filter fun e => e.1 = k' := by
        refine List.filter_congr fun e _ => ?_
        by_cases he : e.1 = k'
        · simp [he, Ne.symm hkk]
        · simp [he]
      rw [hsame, if_neg hkk, List.map_nil, List.append_nil]
      exact h.each k' hk'

/-! ## Sums -/

/-- Entries under distinct keys, summed key by key. -/
theorem sum_groups {M : Type} [AddCommGroup M] (f : α → M) (hn : j.keys.Nodup)
    (hc : ∀ e ∈ j.entries, e.1 ∈ j.keys) :
    (j.keys.map fun k => ((j.group k).map f).sum).sum = (j.entries.map fun e => f e.2).sum := by
  obtain ⟨ks, es⟩ := j
  simp only [group] at hn hc ⊢
  induction es with
  | nil => simp
  | cons e es ih =>
    have hcons : ∀ k, ((((e :: es).filter fun e => e.1 = k).map Prod.snd).map f).sum =
        (if k = e.1 then f e.2 else 0) + (((es.filter fun e => e.1 = k).map Prod.snd).map f).sum := by
      intro k
      by_cases hk : e.1 = k
      · simp [hk]
      · simp [hk, Ne.symm hk]
    have hone : (ks.map fun k => if k = e.1 then f e.2 else 0).sum = f e.2 := by
      rw [List.sum_map_ite_eq, List.count_eq_one_of_mem hn (hc e List.mem_cons_self), one_nsmul]
      simp
    simp only [hcons, List.sum_map_add, hone, List.map_cons, List.sum_cons]
    rw [ih fun e' he' => hc e' (List.mem_cons_of_mem _ he')]

end Journal

end Antimoney.Lib
