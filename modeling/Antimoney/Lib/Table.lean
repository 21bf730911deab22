import Mathlib.Data.List.Forall2

/-!
# Tables as lists of rows

`UPDATE … WHERE` and `DELETE … WHERE` on a list of rows, and how they meet a filter that keeps
the rows of one owner: a change that only concerns rows the filter keeps can be made after the
filter (`updateWhere_filter`, `deleteWhere_filter`), and a change that concerns none of them is
not seen through it (`filter_updateWhere`, `filter_deleteWhere`).
-/

namespace Antimoney.Lib

variable {α : Type}

/-- `UPDATE t SET f WHERE c`. -/
def updateWhere (c : α → Bool) (f : α → α) (t : List α) : List α :=
  t.map fun r => if c r then f r else r

/-- `DELETE FROM t WHERE c`. -/
def deleteWhere (c : α → Bool) (t : List α) : List α := t.filter fun r => !c r

/-- The rows `c` selects, among those it selected in a table read earlier; `key` identifies rows. -/
def chosen {κ : Type} [BEq κ] (key : α → κ) (c : α → Bool) (earlier : List α) (r : α) : Bool :=
  c r && earlier.any fun x => key x == key r && c x

@[simp] theorem updateWhere_nil (c : α → Bool) (f : α → α) : updateWhere c f [] = [] := rfl

@[simp] theorem deleteWhere_nil (c : α → Bool) : deleteWhere c ([] : List α) = [] := rfl

theorem updateWhere_cons (c : α → Bool) (f : α → α) (r : α) (t : List α) :
    updateWhere c f (r :: t) = (if c r then f r else r) :: updateWhere c f t := rfl

@[simp] theorem mem_deleteWhere {c : α → Bool} {t : List α} {r : α} :
    r ∈ deleteWhere c t ↔ r ∈ t ∧ c r = false := by
  simp [deleteWhere]

theorem mem_updateWhere {c : α → Bool} {f : α → α} {t : List α} {r : α} :
    r ∈ updateWhere c f t ↔ ∃ x ∈ t, (if c x then f x else x) = r := by
  simp [updateWhere]

theorem updateWhere_append (c : α → Bool) (f : α → α) (t t' : List α) :
    updateWhere c f (t ++ t') = updateWhere c f t ++ updateWhere c f t' := List.map_append

/-- Two updates of the same rows. -/
theorem updateWhere_updateWhere {c : α → Bool} {f g : α → α} (hc : ∀ r, c (f r) = c r)
    (t : List α) : updateWhere c g (updateWhere c f t) = updateWhere c (g ∘ f) t := by
  unfold updateWhere
  rw [List.map_map]
  refine List.map_congr_left fun r _ => ?_
  by_cases h : c r = true
  · simp [h, hc]
  · simp [h]

/-- An update that no row matches. -/
theorem updateWhere_of_forall_not {c : α → Bool} {f : α → α} {t : List α}
    (h : ∀ r ∈ t, c r = false) : updateWhere c f t = t := by
  unfold updateWhere
  rw [List.map_congr_left (g := id) fun r hr => by simp [h r hr], List.map_id]

theorem deleteWhere_append (c : α → Bool) (t t' : List α) :
    deleteWhere c (t ++ t') = deleteWhere c t ++ deleteWhere c t' := List.filter_append ..

/-- A deletion of rows, after new ones: the old are left. -/
theorem deleteWhere_old_append {c : α → Bool} {t new : List α} (ho : ∀ r ∈ t, c r = false)
    (hn : ∀ r ∈ new, c r = true) : deleteWhere c (t ++ new) = t := by
  have hold : deleteWhere c t = t := List.filter_eq_self.mpr fun r hr => by simp [ho r hr]
  have hnew : deleteWhere c new = [] := List.filter_eq_nil_iff.mpr fun r hr => by simp [hn r hr]
  rw [deleteWhere_append, hold, hnew, List.append_nil]

/-- The rows a condition selects, where it selects the new ones. -/
theorem filter_old_append {c : α → Bool} {t new : List α} (ho : ∀ r ∈ t, c r = false)
    (hn : ∀ r ∈ new, c r = true) : (t ++ new).filter c = new := by
  rw [List.filter_append, List.filter_eq_nil_iff.mpr fun r hr => by simp [ho r hr],
    List.filter_eq_self.mpr hn, List.nil_append]

/-- A deletion that takes a row which `p` counts leaves fewer of them. -/
theorem countP_deleteWhere_lt {c p : α → Bool} {t : List α} {r : α} (hr : r ∈ t) (hp : p r = true)
    (hc : c r = true) : (deleteWhere c t).countP p < t.countP p := by
  rw [deleteWhere, List.countP_filter, List.countP_eq_length_filter, List.countP_eq_length_filter]
  have hsub : (t.filter fun a => p a && !c a) = (t.filter p).filter fun a => !c a :=
    (List.filter_filter ..).symm ▸ List.filter_congr fun a _ => Bool.and_comm ..
  rw [hsub]
  exact List.length_filter_lt_length_iff_exists.mpr ⟨r, List.mem_filter.mpr ⟨hr, hp⟩, by simp [hc]⟩

/-- A row after an update is the row as it was, or a matching row changed. -/
theorem mem_updateWhere_cases {c : α → Bool} {f : α → α} {t : List α} {r : α}
    (h : r ∈ updateWhere c f t) : (r ∈ t ∧ c r = false) ∨ ∃ x ∈ t, c x = true ∧ f x = r := by
  obtain ⟨x, hx, he⟩ := mem_updateWhere.mp h
  cases hc : c x with
  | true => exact Or.inr ⟨x, hx, hc, by rw [hc] at he; exact he⟩
  | false =>
    rw [hc] at he
    obtain rfl : x = r := he
    exact Or.inl ⟨hx, hc⟩

/-- The keys of a table after an update that keeps them. -/
theorem map_updateWhere {κ : Type} {key : α → κ} {c : α → Bool} {f : α → α}
    (hf : ∀ a, key (f a) = key a) (t : List α) : (updateWhere c f t).map key = t.map key := by
  rw [updateWhere, List.map_map]
  refine List.map_congr_left fun a _ => ?_
  simp only [Function.comp]
  split
  · exact hf a
  · rfl

/-- A search that the rewriting does not change finds the row, rewritten. -/
theorem find?_updateWhere {c p : α → Bool} {f : α → α} (hf : ∀ a, p (f a) = p a)
    (l : List α) : (updateWhere c f l).find? p =
      (l.find? p).map fun a => if c a then f a else a := by
  have hp : (p ∘ fun a => if c a then f a else a) = p := by
    funext a
    by_cases hc : c a = true
    · simp [hc, hf]
    · simp [hc]
  unfold updateWhere
  rw [List.find?_map, hp]

/-- An update relates each row to what becomes of it. -/
theorem forall₂_updateWhere {R : α → α → Prop} {c : α → Bool} {f : α → α} {t : List α}
    (hc : ∀ r ∈ t, c r = true → R r (f r)) (hn : ∀ r ∈ t, c r = false → R r r) :
    List.Forall₂ R t (updateWhere c f t) := by
  induction t with
  | nil => exact .nil
  | cons r t ih =>
    rw [updateWhere_cons]
    refine .cons ?_ (ih (fun x hx => hc x (.tail _ hx)) fun x hx => hn x (.tail _ hx))
    cases h : c r with
    | true => simpa using hc r List.mem_cons_self h
    | false => simpa using hn r List.mem_cons_self h

theorem forall₂_trans {β γ : Type} {R : α → β → Prop} {S : β → γ → Prop} {T : α → γ → Prop}
    (h : ∀ {a b c}, R a b → S b c → T a c) {t : List α} {t' : List β} {t'' : List γ}
    (h₁ : List.Forall₂ R t t') (h₂ : List.Forall₂ S t' t'') : List.Forall₂ T t t'' := by
  induction h₁ generalizing t'' with
  | nil =>
    cases h₂ with
    | nil => exact .nil
  | cons hr _ ih =>
    cases h₂ with
    | cons hr' h₂ => exact .cons (h hr hr') (ih h₂)

/-- A relation may use where its left rows come from. -/
theorem forall₂_mem {β : Type} {R : α → β → Prop} {t : List α} {t' : List β}
    (h : List.Forall₂ R t t') : List.Forall₂ (fun a b => a ∈ t ∧ R a b) t t' :=
  (List.forall₂_and_left _ _).mpr ⟨fun _ ha => ha, h⟩

theorem forall₂_mem_right {β : Type} {R : α → β → Prop} {t : List α} {t' : List β}
    (h : List.Forall₂ R t t') : List.Forall₂ (fun a b => b ∈ t' ∧ R a b) t t' :=
  (forall₂_mem h.flip).flip

/-- The rows of one owner, in a table that lists each owner's rows in turn. -/
theorem filter_flatMap_owned {β κ : Type} [DecidableEq κ] {key : α → κ} {f : α → List β}
    {t : List α} {a : α} (hn : (t.map key).Nodup) (ha : a ∈ t) :
    (t.flatMap fun x => (f x).map (Prod.mk (key x))).filter (fun p => p.1 == key a) =
      (f a).map (Prod.mk (key a)) := by
  have hown : ∀ x, key x = key a → ((f x).map (Prod.mk (key x))).filter (fun p => p.1 == key a) =
      (f x).map (Prod.mk (key x)) := by
    intro x hx
    exact List.filter_eq_self.mpr fun p hp => by
      obtain ⟨y, -, rfl⟩ := List.mem_map.mp hp
      simp [hx]
  have hother : ∀ x, key x ≠ key a →
      ((f x).map (Prod.mk (key x))).filter (fun p => p.1 == key a) = [] := by
    intro x hx
    exact List.filter_eq_nil_iff.mpr fun p hp => by
      obtain ⟨y, -, rfl⟩ := List.mem_map.mp hp
      simp [hx]
  induction t with
  | nil => exact absurd ha (by simp)
  | cons x t ih =>
    obtain ⟨hx, hn⟩ := List.nodup_cons.mp hn
    rw [List.flatMap_cons, List.filter_append]
    by_cases hk : key x = key a
    · have hrest : (t.flatMap fun x => (f x).map (Prod.mk (key x))).filter
          (fun p => p.1 == key a) = [] := by
        rw [List.filter_flatMap]
        refine List.flatMap_eq_nil_iff.mpr fun y hy => hother y fun he => hx ?_
        exact List.mem_map.mpr ⟨y, hy, he.trans hk.symm⟩
      have hxa : x = a := by
        rcases List.mem_cons.mp ha with rfl | ha
        · rfl
        · exact absurd (List.mem_map.mpr ⟨a, ha, hk.symm⟩) hx
      rw [hrest, List.append_nil, hown x hk, hxa]
    · have ha' : a ∈ t := (List.mem_cons.mp ha).resolve_left fun he => hk (he ▸ rfl)
      rw [hother x hk, List.nil_append, ih hn ha']

/-- Two lists have one image when each row has the image of the other's. -/
theorem map_eq_iff_forall₂ {β γ : Type} {f : α → γ} {g : β → γ} {t : List α} {t' : List β} :
    t.map f = t'.map g ↔ List.Forall₂ (fun a b => f a = g b) t t' := by
  rw [← List.forall₂_eq_eq_eq, List.forall₂_map_left_iff, List.forall₂_map_right_iff]

/-- The row a row came from. -/
theorem exists_of_forall₂ {β : Type} {R : α → β → Prop} {t : List α} {t' : List β} {b : β}
    (h : List.Forall₂ R t t') (hb : b ∈ t') : ∃ a ∈ t, R a b := by
  induction h with
  | nil => exact absurd hb (by simp)
  | @cons a b' t t' hr _ ih =>
    rcases List.mem_cons.mp hb with rfl | hb
    · exact ⟨a, List.mem_cons_self, hr⟩
    · obtain ⟨a', ha', hr'⟩ := ih hb
      exact ⟨a', .tail _ ha', hr'⟩

/-- Partners of a list with a last element. -/
theorem forall₂_concat_left {β : Type} {R : α → β → Prop} {l : List α} {a : α} {l' : List β}
    (h : List.Forall₂ R (l ++ [a]) l') : ∃ r b, l' = r ++ [b] ∧ List.Forall₂ R l r ∧ R a b := by
  have htake := List.forall₂_take_append _ _ _ h.flip
  have hdrop := List.forall₂_drop_append _ _ _ h.flip
  obtain ⟨b, rest, hb, hrest, hcons⟩ := List.forall₂_cons_right_iff.mp hdrop
  obtain rfl := List.forall₂_nil_right_iff.mp hrest
  refine ⟨l'.take l.length, b, ?_, htake.flip, hb⟩
  rw [← hcons, List.take_append_drop]

/-- At the table it was read from, a choice is the condition itself. -/
theorem chosen_self {κ : Type} [BEq κ] [ReflBEq κ] {key : α → κ} {c : α → Bool} {t : List α} {r : α}
    (hr : r ∈ t) : chosen key c t r = c r := by
  unfold chosen
  cases hc : c r with
  | false => rfl
  | true =>
    rw [Bool.true_and, List.any_eq_true]
    exact ⟨r, hr, by simp [hc]⟩

theorem updateWhere_congr {c c' : α → Bool} {f : α → α} {t : List α} (h : ∀ r ∈ t, c r = c' r) :
    updateWhere c f t = updateWhere c' f t :=
  List.map_congr_left fun r hr => by rw [h r hr]

theorem deleteWhere_congr {c c' : α → Bool} {t : List α} (h : ∀ r ∈ t, c r = c' r) :
    deleteWhere c t = deleteWhere c' t :=
  List.filter_congr fun r hr => by rw [h r hr]

/-- An update that keeps `p` on the rows it changes commutes with the filter `p`. -/
theorem updateWhere_filter {c p : α → Bool} {f : α → α} {t : List α}
    (hp : ∀ r ∈ t, c r = true → p (f r) = p r) :
    (updateWhere c f t).filter p = updateWhere c f (t.filter p) := by
  induction t with
  | nil => rfl
  | cons r t ih =>
    have ih' := ih fun x hx => hp x (List.mem_cons_of_mem _ hx)
    have hr := hp r List.mem_cons_self
    rw [updateWhere_cons]
    cases hc : c r with
    | true =>
      rw [if_pos rfl, List.filter_cons, List.filter_cons, hr hc, ih']
      cases p r with
      | true => simp [updateWhere_cons, hc]
      | false => simp
    | false =>
      rw [if_neg (by simp), List.filter_cons, List.filter_cons, ih']
      cases p r with
      | true => simp [updateWhere_cons, hc]
      | false => simp

/-- An update that touches no row of `p`, and makes none, is not seen through the filter `p`. -/
theorem filter_updateWhere {c p : α → Bool} {f : α → α} {t : List α}
    (hc : ∀ r ∈ t, c r = true → p r = false ∧ p (f r) = false) :
    (updateWhere c f t).filter p = t.filter p := by
  induction t with
  | nil => rfl
  | cons r t ih =>
    have ih' := ih fun x hx => hc x (List.mem_cons_of_mem _ hx)
    rw [updateWhere_cons]
    cases h : c r with
    | true =>
      obtain ⟨h1, h2⟩ := hc r List.mem_cons_self h
      rw [if_pos rfl, List.filter_cons, List.filter_cons, h1, h2, ih']
      simp
    | false => rw [if_neg (by simp), List.filter_cons, List.filter_cons, ih']

theorem deleteWhere_filter (c p : α → Bool) (t : List α) :
    (deleteWhere c t).filter p = deleteWhere c (t.filter p) := by
  simp only [deleteWhere, List.filter_filter, Bool.and_comm]

/-- A deletion that touches no row of `p` is not seen through the filter `p`. -/
theorem filter_deleteWhere {c p : α → Bool} {t : List α}
    (hc : ∀ r ∈ t, c r = true → p r = false) : (deleteWhere c t).filter p = t.filter p := by
  rw [deleteWhere, List.filter_filter]
  refine List.filter_congr fun r hr => ?_
  cases h : c r with
  | true => simp [hc r hr h]
  | false => simp

/-- A query for rows that all satisfy `p` reads the same through the filter `p`. -/
theorem filter_filter_of_imp {c p : α → Bool} {t : List α} (h : ∀ r ∈ t, c r = true → p r = true) :
    (t.filter p).filter c = t.filter c := by
  rw [List.filter_filter]
  refine List.filter_congr fun r hr => ?_
  cases hc : c r with
  | true => simp [h r hr hc]
  | false => simp

theorem any_filter_of_imp {c p : α → Bool} {t : List α} (h : ∀ r ∈ t, c r = true → p r = true) :
    (t.filter p).any c = t.any c := by
  rw [List.any_filter, Bool.eq_iff_iff, List.any_eq_true, List.any_eq_true]
  constructor
  · rintro ⟨r, hr, hc⟩
    exact ⟨r, hr, by simp only [Bool.and_eq_true] at hc; exact hc.2⟩
  · rintro ⟨r, hr, hc⟩
    exact ⟨r, hr, by simp only [Bool.and_eq_true]; exact ⟨h r hr hc, hc⟩⟩

theorem find?_filter_of_imp {c p : α → Bool} {t : List α} (h : ∀ r ∈ t, c r = true → p r = true) :
    (t.filter p).find? c = t.find? c := by
  rw [List.find?_filter]
  induction t with
  | nil => rfl
  | cons r t ih =>
    have ih' := ih fun x hx => h x (List.mem_cons_of_mem _ hx)
    rw [List.find?_cons, List.find?_cons, ih']
    cases hc : c r with
    | true => simp [h r List.mem_cons_self hc]
    | false => simp

theorem countP_filter_of_imp {c p : α → Bool} {t : List α}
    (h : ∀ r ∈ t, c r = true → p r = true) : (t.filter p).countP c = t.countP c := by
  rw [List.countP_eq_length_filter, List.countP_eq_length_filter, filter_filter_of_imp h]

end Antimoney.Lib
