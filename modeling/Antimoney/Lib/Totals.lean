import Mathlib.Algebra.BigOperators.Group.List.Basic
import Mathlib.Data.List.Chain
import Mathlib.Data.List.Sort
import Mathlib.Tactic.Abel

/-!
# Running totals in another order

A list with a running total at each element, sorted stably by another relation. The totals still
add up exactly when every element is overtaken by the same amount (`addsUp_insertionSort_iff`): the
amounts listed before it and sorted after it, less those listed after it and sorted before it.

The stable sort is that of the list with its positions, by a relation that tells all of its elements
apart (`map_insertionSort_zipIdx`); there the total up to an element is a sum over a filter
(`addsUp_iff`).

Sorting a list of which a part is sorted already gives the sort of the whole
(`insertionSort_append_sorted`, `insertionSort_sorted_append`); the head of a sort is a least element
(`head_insertionSort`).
-/

namespace Antimoney.Lib

variable {α M : Type} [AddCommGroup M]

/-- Each total is the one before it and the element's own amount. -/
def AddsUp (total amount : α → M) (l : List α) : Prop :=
  l.IsChain fun x y => total y = total x + amount y

/-- A sum over a filter. -/
theorem sum_map_filter (p : α → Bool) (f : α → M) (l : List α) :
    ((l.filter p).map f).sum = (l.map fun x => if p x then f x else 0).sum := by
  induction l with
  | nil => rfl
  | cons x l ih =>
    by_cases hp : p x = true
    · rw [List.filter_cons_of_pos hp, List.map_cons, List.sum_cons, ih, List.map_cons,
        List.sum_cons, if_pos hp]
    · rw [List.filter_cons_of_neg hp, ih, List.map_cons, List.sum_cons, if_neg hp, zero_add]

/-! ## A list that is in order -/

section Sorted

variable {r : α → α → Prop} [DecidableRel r] {total amount : α → M} {l : List α}

/-- The amounts up to `x` in the order `r`. -/
def upTo (r : α → α → Prop) [DecidableRel r] (amount : α → M) (l : List α) (x : α) : M :=
  ((l.filter fun y => r y x).map amount).sum

theorem upTo_perm {l' : List α} (h : l.Perm l') (x : α) : upTo r amount l x = upTo r amount l' x :=
  ((h.filter _).map amount).sum_eq

/-- In order, the elements up to `x` are those listed up to it. -/
theorem upTo_append_cons {p q : List α} {x : α} (hr : r x x)
    (h : (p ++ x :: q).Pairwise fun x y => r x y ∧ ¬ r y x) :
    upTo r amount (p ++ x :: q) x = (p.map amount).sum + amount x := by
  obtain ⟨-, hq, hp⟩ := List.pairwise_append.mp h
  have hbefore : p.filter (fun y => r y x) = p :=
    List.filter_eq_self.mpr fun y hy => by simp [(hp y hy x (by simp)).1]
  have hafter : q.filter (fun y => r y x) = [] :=
    List.filter_eq_nil_iff.mpr fun y hy => by simp [((List.pairwise_cons.mp hq).1 y hy).2]
  unfold upTo
  rw [List.filter_append, hbefore, List.filter_cons_of_pos (by simpa using hr), hafter]
  simp

/-- Totals add up when all differ by the same from the amounts so far. -/
theorem addsUp_iff (hr : ∀ x, r x x) (h : l.Pairwise fun x y => r x y ∧ ¬ r y x) :
    AddsUp total amount l ↔
      ∃ c, ∀ x ∈ l, total x = c + upTo r amount l x := by
  have hnext : ∀ {x y : α} {p q : List α}, l = p ++ x :: y :: q →
      upTo r amount l y = upTo r amount l x + amount y := by
    rintro x y p q rfl
    have hsplit : p ++ x :: y :: q = (p ++ [x]) ++ y :: q := by simp
    rw [upTo_append_cons (hr x) h, hsplit, upTo_append_cons (hr y) (hsplit ▸ h)]
    simp
  constructor
  · intro hsum
    cases l with
    | nil => exact ⟨0, by simp⟩
    | cons a l =>
      have hchain : (a :: l).IsChain fun x y =>
          total x - upTo r amount (a :: l) x = total y - upTo r amount (a :: l) y := by
        refine List.isChain_iff_forall_rel_of_append_cons_cons.mpr fun x y p q hl => ?_
        have hstep := List.isChain_iff_forall_rel_of_append_cons_cons.mp hsum hl
        rw [hnext hl, hstep]
        abel
      refine ⟨total a - upTo r amount (a :: l) a, fun x hx => ?_⟩
      rcases List.mem_cons.mp hx with rfl | hx
      · abel
      · have hsame := List.rel_of_pairwise_cons (List.isChain_iff_pairwise.mp hchain) hx
        rw [hsame]
        abel
  · rintro ⟨c, hc⟩
    refine List.isChain_iff_forall_rel_of_append_cons_cons.mpr fun x y p q hl => ?_
    rw [hc x (by simp [hl]), hc y (by simp [hl]), hnext hl]
    abel

end Sorted

/-! ## A stable sort -/

section Stable

variable {r : α → α → Prop}

/-- `r`, and by position where it does not tell. -/
def stableLe (r : α → α → Prop) (x y : α × ℕ) : Prop := r x.1 y.1 ∧ (r y.1 x.1 → x.2 ≤ y.2)

instance [DecidableRel r] : DecidableRel (stableLe r) := fun x y => by
  unfold stableLe
  infer_instance

instance [Std.Total r] : Std.Total (stableLe r) where
  total x y := by
    unfold stableLe
    by_cases h : r x.1 y.1 <;> by_cases h' : r y.1 x.1
    · rcases Nat.le_total x.2 y.2 with hle | hle
      · exact Or.inl ⟨h, fun _ => hle⟩
      · exact Or.inr ⟨h', fun _ => hle⟩
    · exact Or.inl ⟨h, fun h'' => absurd h'' h'⟩
    · exact Or.inr ⟨h', fun h'' => absurd h'' h⟩
    · exact absurd (Std.Total.total (r := r) x.1 y.1) (by simp [h, h'])

instance [IsTrans α r] : IsTrans (α × ℕ) (stableLe r) where
  trans x y z hxy hyz := by
    have htrans : ∀ {a b c : α}, r a b → r b c → r a c := IsTrans.trans _ _ _
    exact ⟨htrans hxy.1 hyz.1, fun hzx =>
      Nat.le_trans (hxy.2 (htrans hyz.1 hzx)) (hyz.2 (htrans hzx hxy.1))⟩

variable [DecidableRel r]

theorem map_orderedInsert_position {x : α} {k : ℕ} {l : List (α × ℕ)} (h : ∀ y ∈ l, k ≤ y.2) :
    (l.orderedInsert (stableLe r) (x, k)).map Prod.fst = (l.map Prod.fst).orderedInsert r x := by
  induction l with
  | nil => rfl
  | cons y l ih =>
    have hle : k ≤ y.2 := h y List.mem_cons_self
    by_cases hxy : r x y.1
    · have hs : stableLe r (x, k) y := ⟨hxy, fun _ => hle⟩
      simp [hxy, hs]
    · have hs : ¬ stableLe r (x, k) y := fun hs => hxy hs.1
      simp [hxy, hs, ih fun z hz => h z (.tail _ hz)]

/-- **A stable sort** is the sort of the list with its positions. -/
theorem map_insertionSort_zipIdx (l : List α) (k : ℕ) :
    ((l.zipIdx k).insertionSort (stableLe r)).map Prod.fst = l.insertionSort r := by
  induction l generalizing k with
  | nil => rfl
  | cons x l ih =>
    rw [List.zipIdx_cons, List.insertionSort_cons, List.insertionSort_cons,
      map_orderedInsert_position, ih]
    intro y hy
    rw [List.mem_insertionSort] at hy
    have := List.le_snd_of_mem_zipIdx hy
    omega

/-- What overtakes an element that is listed after `before` and before `after`: the amounts that
come after it in the order `r`, less those that come before it there. -/
def overtaken (r : α → α → Prop) [DecidableRel r] (amount : α → M) (before : List α) (x : α)
    (after : List α) : M :=
  ((before.filter fun y => ¬ r y x).map amount).sum -
    ((after.filter fun y => ¬ r x y).map amount).sum

/-- Nothing is overtaken where the list is in order. -/
theorem overtaken_of_pairwise {amount : α → M} {a b : List α} {x : α}
    (h : (a ++ x :: b).Pairwise r) : overtaken r amount a x b = 0 := by
  obtain ⟨-, hb, ha⟩ := List.pairwise_append.mp h
  have hbefore : a.filter (fun y => ¬ r y x) = [] :=
    List.filter_eq_nil_iff.mpr fun y hy => by simp [ha y hy x (by simp)]
  have hafter : b.filter (fun y => ¬ r x y) = [] :=
    List.filter_eq_nil_iff.mpr fun y hy => by simp [(List.pairwise_cons.mp hb).1 y hy]
  rw [overtaken, hbefore, hafter]
  simp

theorem filter_zipIdx_before {x : α} {n : ℕ} (a : List α) (k : ℕ) (h : k + a.length ≤ n) :
    ((a.zipIdx k).filter fun y => stableLe r y (x, n)).map (fun y => y.1) =
      a.filter fun y => r y x := by
  induction a generalizing k with
  | nil => rfl
  | cons y a ih =>
    have hlen : k + 1 + a.length ≤ n := by
      rw [List.length_cons] at h
      omega
    have hle : stableLe r (y, k) (x, n) ↔ r y x := and_iff_left fun _ => by
      show k ≤ n
      omega
    rw [List.zipIdx_cons]
    by_cases hy : r y x
    · simp [hle, hy, ih (k + 1) hlen]
    · simp [hle, hy, ih (k + 1) hlen]

variable [Std.Total r]

theorem filter_zipIdx_after {x : α} {n : ℕ} (b : List α) (k : ℕ) (h : n < k) :
    ((b.zipIdx k).filter fun y => stableLe r y (x, n)).map (fun y => y.1) =
      b.filter fun y => ¬ r x y := by
  induction b generalizing k with
  | nil => rfl
  | cons y b ih =>
    have hle : stableLe r (y, k) (x, n) ↔ ¬ r x y := by
      unfold stableLe
      constructor
      · exact fun hs hxy => absurd (hs.2 hxy) (Nat.not_le.mpr h)
      · exact fun hxy => ⟨(Std.Total.total y x).resolve_right hxy, fun hyx => absurd hyx hxy⟩
    rw [List.zipIdx_cons]
    by_cases hy : r x y
    · simp [hle, hy, ih (k + 1) (by omega)]
    · simp [hle, hy, ih (k + 1) (by omega)]

/-- The amounts up to an element in the stable order. -/
theorem upTo_zipIdx (amount : α → M) (a b : List α) (x : α) :
    upTo (stableLe r) (fun y => amount y.1) ((a ++ x :: b).zipIdx) (x, a.length) =
      ((a.filter fun y => r y x).map amount).sum + amount x +
        ((b.filter fun y => ¬ r x y).map amount).sum := by
  have hself : stableLe r (x, a.length) (x, a.length) := Std.Refl.refl _
  have hbefore := congrArg (List.map amount) (filter_zipIdx_before (r := r) (x := x) (n := a.length) a 0 (Nat.zero_add _).le)
  have hafter := congrArg (List.map amount)
    (filter_zipIdx_after (r := r) (x := x) b (a.length + 1) (Nat.lt_succ_self _))
  rw [List.map_map] at hbefore hafter
  unfold upTo
  rw [List.zipIdx_append, List.zipIdx_cons, Nat.zero_add, List.filter_append,
    List.filter_cons_of_pos (by simpa using hself), List.map_append, List.sum_append, List.map_cons,
    List.sum_cons]
  simp only [Function.comp_def] at hbefore hafter
  rw [hbefore, hafter, add_assoc]

variable [IsTrans α r]

/-- The sorted positions are told apart. -/
theorem pairwise_insertionSort_zipIdx (l : List α) (k : ℕ) :
    ((l.zipIdx k).insertionSort (stableLe r)).Pairwise
      fun x y => stableLe r x y ∧ ¬ stableLe r y x := by
  have hsorted := List.pairwise_insertionSort (stableLe r) (l.zipIdx k)
  have hnodup : (((l.zipIdx k).insertionSort (stableLe r)).map Prod.snd).Nodup := by
    rw [((List.perm_insertionSort (stableLe r) (l.zipIdx k)).map Prod.snd).nodup_iff,
      List.zipIdx_map_snd]
    exact List.nodup_range' ..
  have hne := List.pairwise_map.mp hnodup
  refine (hsorted.and hne).imp ?_
  rintro x y ⟨hxy, hne⟩
  exact ⟨hxy, fun hyx => hne (Nat.le_antisymm (hxy.2 hyx.1) (hyx.2 hxy.1))⟩

/-- **Running totals in another order** add up when every element is overtaken by the same. -/
theorem addsUp_insertionSort_iff {total amount : α → M} {l : List α} {start : M}
    (h : ∀ a x b, l = a ++ x :: b → total x = start + (a.map amount).sum + amount x) :
    AddsUp total amount (l.insertionSort r) ↔
      ∃ c, ∀ a x b, l = a ++ x :: b → overtaken r amount a x b = c := by
  have hrefl : ∀ x, stableLe r x x := fun x => Std.Refl.refl x
  have hperm := List.perm_insertionSort (stableLe r) (l.zipIdx)
  have hterm : ∀ a x b, l = a ++ x :: b →
      total x = start + overtaken r amount a x b +
        upTo (stableLe r) (fun y => amount y.1) (l.zipIdx) (x, a.length) := by
    rintro a x b rfl
    have hsplit : (a.map amount).sum = ((a.filter fun y => r y x).map amount).sum +
        ((a.filter fun y => ¬ r y x).map amount).sum := by
      have hp := ((List.filter_append_perm (fun y => decide (r y x)) a).map amount).sum_eq
      rw [List.map_append, List.sum_append] at hp
      simpa using hp.symm
    rw [h a x b rfl, upTo_zipIdx, overtaken, hsplit]
    abel
  rw [← map_insertionSort_zipIdx l 0]
  unfold AddsUp
  rw [List.isChain_map]
  have hsorted : AddsUp (fun y : α × ℕ => total y.1) (fun y => amount y.1)
      ((l.zipIdx 0).insertionSort (stableLe r)) ↔ _ :=
    addsUp_iff hrefl (pairwise_insertionSort_zipIdx l 0)
  refine hsorted.trans ?_
  constructor
  · rintro ⟨c, hc⟩
    refine ⟨c - start, fun a x b hl => ?_⟩
    have hmem : (x, a.length) ∈ l.zipIdx := by
      rw [List.mk_mem_zipIdx_iff_getElem?, hl]
      simp
    have hx := hc (x, a.length) (hperm.mem_iff.mpr hmem)
    rw [upTo_perm hperm, hterm a x b hl] at hx
    have hx : start + overtaken r amount a x b = c := add_right_cancel hx
    rw [← hx]
    abel
  · rintro ⟨c, hc⟩
    refine ⟨start + c, ?_⟩
    rintro ⟨x, i⟩ hx
    have hi : l[i]? = some x := List.mk_mem_zipIdx_iff_getElem?.mp (hperm.mem_iff.mp hx)
    obtain ⟨hlt, hget⟩ := List.getElem?_eq_some_iff.mp hi
    have hl : l = l.take i ++ x :: l.drop (i + 1) := by
      rw [← hget, ← List.drop_eq_getElem_cons hlt, List.take_append_drop]
    have hlen : (l.take i).length = i := by
      rw [List.length_take]
      omega
    have hterm := hterm _ _ _ hl
    rw [hc _ _ _ hl, hlen] at hterm
    rw [upTo_perm hperm]
    exact hterm

end Stable

/-! ## Sorting what is sorted in part -/

section Parts

variable {r : α → α → Prop} [DecidableRel r]

theorem insertionSort_append (l m : List α) :
    (l ++ m).insertionSort r = l.foldr (List.orderedInsert r) (m.insertionSort r) :=
  List.foldr_append ..

variable [Std.Total r] [IsTrans α r]

theorem insertionSort_append_sorted (l m : List α) :
    (l ++ m.insertionSort r).insertionSort r = (l ++ m).insertionSort r := by
  rw [insertionSort_append, insertionSort_append,
    (List.pairwise_insertionSort r m).insertionSort_eq]

/-- Two insertions, of which the second is of a greater element. -/
theorem orderedInsert_comm {a b : α} (h : ¬ r a b) (l : List α) :
    (l.orderedInsert r b).orderedInsert r a = (l.orderedInsert r a).orderedInsert r b := by
  have hba : r b a := (Std.Total.total a b).resolve_left h
  induction l with
  | nil => simp [h, hba]
  | cons c l ih =>
    by_cases ha : r a c
    · have hb : r b c := IsTrans.trans _ _ _ hba ha
      simp [ha, hb, h, hba]
    · by_cases hb : r b c
      · simp [ha, hb, h]
      · simp [ha, hb, ih]

theorem foldr_orderedInsert (a : α) (q s : List α) :
    (q.orderedInsert r a).foldr (List.orderedInsert r) s =
      (q.foldr (List.orderedInsert r) s).orderedInsert r a := by
  induction q with
  | nil => rfl
  | cons b q ih =>
    by_cases hab : r a b
    · simp [hab]
    · simp [hab, ih, orderedInsert_comm hab]

theorem insertionSort_sorted_append (l m : List α) :
    (l.insertionSort r ++ m).insertionSort r = (l ++ m).insertionSort r := by
  rw [insertionSort_append, insertionSort_append]
  induction l with
  | nil => rfl
  | cons a l ih => rw [List.insertionSort_cons, foldr_orderedInsert, ih, List.foldr_cons]

/-! ### The first of a sort -/

theorem head_insertionSort {l : List α} {a : α} (h : (l.insertionSort r).head? = some a) :
    a ∈ l ∧ ∀ b ∈ l, r a b := by
  have hsorted := List.pairwise_insertionSort r l
  have hmem : ∀ b, b ∈ l.insertionSort r ↔ b ∈ l := fun b => List.mem_insertionSort r
  cases hs : l.insertionSort r with
  | nil => simp [hs] at h
  | cons c m =>
    rw [hs] at h hsorted hmem
    obtain rfl : c = a := by simpa using h
    refine ⟨(hmem c).mp List.mem_cons_self, fun b hb => ?_⟩
    rcases List.mem_cons.mp ((hmem b).mpr hb) with rfl | hbm
    · exact (Std.Total.total b b).elim id id
    · exact (List.pairwise_cons.mp hsorted).1 b hbm

/-- An element that no other one comes before is the first. -/
theorem head_insertionSort_eq {l : List α} {a : α} (ha : a ∈ l) (h : ∀ b ∈ l, r b a → b = a) :
    (l.insertionSort r).head? = some a := by
  cases hh : (l.insertionSort r).head? with
  | none =>
    rw [List.head?_eq_none_iff] at hh
    exact absurd ((List.mem_insertionSort r).mpr ha) (by simp [hh])
  | some b =>
    obtain ⟨hb, hle⟩ := head_insertionSort hh
    rw [h b hb (hle a ha)]

/-! ### The last of a sort -/

omit [Std.Total r] [IsTrans α r] in
/-- A greatest element that is strictly greater than those after it ends up last. -/
theorem insertionSort_last {l m : List α} {a : α} (hl : ∀ b ∈ l, r b a) (hm : ∀ b ∈ m, ¬ r a b) :
    (l ++ a :: m).insertionSort r = (l ++ m).insertionSort r ++ [a] := by
  have hend : ∀ s : List α, (∀ b ∈ s, ¬ r a b) → s.orderedInsert r a = s ++ [a] := by
    intro s hs
    induction s with
    | nil => rfl
    | cons b s ih =>
      rw [List.orderedInsert_of_not_le _ _ (hs b List.mem_cons_self),
        ih fun c hc => hs c (List.mem_cons_of_mem _ hc), List.cons_append]
  have hbefore : ∀ (b : α) (s : List α), r b a →
      (s ++ [a]).orderedInsert r b = s.orderedInsert r b ++ [a] := by
    intro b s hb
    induction s with
    | nil => simp [hb]
    | cons c s ih => by_cases hc : r b c <;> simp [hc, ih]
  induction l with
  | nil =>
    rw [List.nil_append, List.nil_append, List.insertionSort_cons]
    exact hend _ fun b hb => hm b ((List.mem_insertionSort r).mp hb)
  | cons b l ih =>
    rw [List.cons_append, List.insertionSort_cons,
      ih fun c hc => hl c (List.mem_cons_of_mem _ hc), hbefore b _ (hl b List.mem_cons_self),
      List.cons_append, List.insertionSort_cons]

/-! ### What a sort keeps -/

omit [Std.Total r] in
theorem filter_orderedInsert {p : α → Bool} {a : α} {s : List α} (hs : s.Pairwise r) :
    (s.orderedInsert r a).filter p =
      if p a then (s.filter p).orderedInsert r a else s.filter p := by
  induction s with
  | nil => by_cases hp : p a = true <;> simp [hp]
  | cons b s ih =>
    obtain ⟨hb, hs⟩ := List.pairwise_cons.mp hs
    by_cases hab : r a b
    · have hfront : (List.orderedInsert r a ((b :: s).filter p)) = a :: (b :: s).filter p := by
        have hle : ∀ c ∈ (b :: s).filter p, r a c := by
          intro c hc
          rcases List.mem_cons.mp (List.mem_of_mem_filter hc) with rfl | hc
          · exact hab
          · exact IsTrans.trans _ _ _ hab (hb c hc)
        cases hf : (b :: s).filter p with
        | nil => rfl
        | cons c s' =>
          rw [hf] at hle
          exact List.orderedInsert_cons_of_le _ _ (hle c List.mem_cons_self)
      rw [List.orderedInsert_cons_of_le _ _ hab, hfront, List.filter_cons]
    · rw [List.orderedInsert_of_not_le _ _ hab, List.filter_cons, List.filter_cons, ih hs]
      by_cases hpa : p a = true <;> by_cases hpb : p b = true <;> simp [hpa, hpb, hab]

/-- Sorting and leaving out may be done in either order. -/
theorem filter_insertionSort (p : α → Bool) (l : List α) :
    (l.insertionSort r).filter p = (l.filter p).insertionSort r := by
  induction l with
  | nil => rfl
  | cons a l ih =>
    rw [List.insertionSort_cons, filter_orderedInsert (List.pairwise_insertionSort r l), ih,
      List.filter_cons]
    by_cases hp : p a = true
    · rw [if_pos hp, if_pos hp, List.insertionSort_cons]
    · rw [if_neg hp, if_neg hp]

end Parts

end Antimoney.Lib
