import Mathlib.Data.List.Forall2

/-!
# Steps that may fail

When two steps answer, and when `List.mapM` does, in `Option` and in `Except`: exactly when every
step does, item by item.
-/

namespace Antimoney.Lib

section Option

variable {α β : Type} {f g : α → Option β}

theorem mapM_isSome {l : List α} (h : ∀ x ∈ l, (f x).isSome) : (l.mapM f).isSome := by
  induction l with
  | nil => rfl
  | cons x l ih =>
    obtain ⟨y, hy⟩ := Option.isSome_iff_exists.mp (h x List.mem_cons_self)
    obtain ⟨ys, hys⟩ := Option.isSome_iff_exists.mp (ih fun z hz => h z (List.mem_cons_of_mem _ hz))
    simp [List.mapM_cons, hy, hys]

theorem mapM_cons_some {x : α} {l : List α} {zs : List β} (h : (x :: l).mapM f = some zs) :
    ∃ y ys, f x = some y ∧ l.mapM f = some ys ∧ zs = y :: ys := by
  rw [List.mapM_cons] at h
  obtain ⟨y, hy, h⟩ := Option.bind_eq_some_iff.mp h
  obtain ⟨ys, hys, h⟩ := Option.bind_eq_some_iff.mp h
  exact ⟨y, ys, hy, hys, (Option.some.inj h).symm⟩

theorem mapM_mono (hfg : ∀ x y, f x = some y → g x = some y) {l : List α} {ys : List β}
    (h : l.mapM f = some ys) : l.mapM g = some ys := by
  induction l generalizing ys with
  | nil => exact h
  | cons x l ih =>
    obtain ⟨y, ys, hy, hys, rfl⟩ := mapM_cons_some h
    simp [List.mapM_cons, hfg x y hy, ih hys]

end Option

section Except

variable {α β ε ε' : Type} {f : α → Except ε β}

theorem bind_eq_ok_iff {x : Except ε α} {b : β} :
    (x >>= f) = .ok b ↔ ∃ a, x = .ok a ∧ f a = .ok b := by
  cases x <;> simp [Bind.bind, Except.bind]

theorem map_eq_ok_iff {g : α → β} {x : Except ε α} {b : β} :
    x.map g = .ok b ↔ ∃ a, x = .ok a ∧ g a = b := by
  cases x <;> simp [Except.map]

theorem mapError_eq_ok_iff {g : ε → ε'} {x : Except ε α} {a : α} :
    x.mapError g = .ok a ↔ x = .ok a := by
  cases x <;> simp [Except.mapError]

theorem mapM_cons_ok {x : α} {y : β} (h : f x = .ok y) (l : List α) :
    (x :: l).mapM f = (l.mapM f).map (y :: ·) := by
  rw [List.mapM_cons, h]
  cases hl : l.mapM f <;> rfl

theorem mapM_cons_error {x : α} {e : ε} (h : f x = .error e) (l : List α) :
    (x :: l).mapM f = .error e := by
  rw [List.mapM_cons, h]
  rfl

/-- Every step answers, and the answers are the list. -/
theorem mapM_eq_ok_iff {l : List α} {ys : List β} :
    l.mapM f = .ok ys ↔ List.Forall₂ (fun x y => f x = .ok y) l ys := by
  induction l generalizing ys with
  | nil =>
    rw [List.forall₂_nil_left_iff, List.mapM_nil]
    exact ⟨fun h => (Except.ok.inj h).symm, fun h => congrArg _ h.symm⟩
  | cons x l ih =>
    rw [List.forall₂_cons_left_iff]
    cases hx : f x with
    | error e =>
      rw [mapM_cons_error hx]
      refine iff_of_false (by simp) ?_
      rintro ⟨y, zs, hy, -⟩
      exact absurd hy (by simp)
    | ok y =>
      rw [mapM_cons_ok hx]
      constructor
      · intro h
        cases hl : l.mapM f with
        | error e =>
          rw [hl] at h
          exact absurd h (by simp [Except.map])
        | ok zs =>
          rw [hl] at h
          exact ⟨y, zs, rfl, ih.mp hl, (Except.ok.inj h).symm⟩
      · rintro ⟨y', zs, hy, hzs, rfl⟩
        obtain rfl := Except.ok.inj hy
        rw [ih.mpr hzs]
        rfl

/-- Some step fails. -/
theorem mapM_eq_error_iff {l : List α} :
    (∃ e, l.mapM f = .error e) ↔ ∃ x ∈ l, ∃ e, f x = .error e := by
  induction l with
  | nil => simp [List.mapM_nil, pure, Except.pure]
  | cons x l ih =>
    rw [List.exists_mem_cons_iff]
    cases hx : f x with
    | error e =>
      rw [mapM_cons_error hx]
      exact iff_of_true ⟨e, rfl⟩ (.inl ⟨e, rfl⟩)
    | ok y =>
      rw [mapM_cons_ok hx, ← ih]
      cases hl : l.mapM f with
      | error e => exact iff_of_true ⟨e, rfl⟩ (.inr ⟨e, rfl⟩)
      | ok zs => simp [Except.map]

end Except

end Antimoney.Lib
