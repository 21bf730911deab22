/-!
# Redo logs

Operations on a state, applied one after the other; states are told apart by a view of them. A crash
leaves the state after some of a log, and recovery applies the log again from its start.

* **`Crashed.redo`**: where each beginning of the log may be applied twice, recovery after any
  number of crashes shows what the log applied once shows.
-/

namespace Antimoney.Lib

variable {σ ο τ : Type}

/-- The state after the operations of a log. -/
def redo (step : ο → σ → σ) (log : List ο) (s : σ) : σ := log.foldl (fun s o => step o s) s

section Basic

variable {step : ο → σ → σ} {log log' : List ο} {o : ο} {s : σ}

@[simp] theorem redo_nil : redo step [] s = s := rfl

@[simp] theorem redo_cons : redo step (o :: log) s = redo step log (step o s) := rfl

theorem redo_append : redo step (log ++ log') s = redo step log' (redo step log s) :=
  List.foldl_append

theorem redo_concat : redo step (log ++ [o]) s = step o (redo step log s) := redo_append

/-- What each operation of the log keeps. -/
theorem redo_keeps {I : σ → Prop} (hI : ∀ o ∈ log, ∀ s, I s → I (step o s)) (h : I s) :
    I (redo step log s) := by
  induction log generalizing s with
  | nil => exact h
  | cons o log ih =>
    exact ih (fun o ho => hI o (List.mem_cons_of_mem _ ho)) (hI o List.mem_cons_self s h)

end Basic

/-- The states after attempts that crashed: some of the log was applied, again and again. -/
inductive Crashed (step : ο → σ → σ) (log : List ο) (s : σ) : σ → Prop
  | none : Crashed step log s s
  | again {t : σ} (h : Crashed step log s t) {done : List ο} (hd : done <+: log) :
      Crashed step log s (redo step done t)

section View

variable {step : ο → σ → σ} {log : List ο} {view : σ → τ} {I : σ → Prop} {s t : σ}

/-- A log does not tell apart what no operation tells apart. -/
theorem view_redo
    (hview : ∀ o ∈ log, ∀ s t, view s = view t → view (step o s) = view (step o t))
    (h : view s = view t) : view (redo step log s) = view (redo step log t) := by
  induction log generalizing s t with
  | nil => exact h
  | cons o log ih =>
    exact ih (fun o ho => hview o (List.mem_cons_of_mem _ ho)) (hview o List.mem_cons_self s t h)

/-- After one crash. -/
theorem redo_of_part
    (hview : ∀ o ∈ log, ∀ s t, view s = view t → view (step o s) = view (step o t))
    (htwice : ∀ done, done <+: log → ∀ s, I s →
      view (redo step done (redo step done s)) = view (redo step done s))
    {done : List ο} (hd : done <+: log) (hs : I s) :
    view (redo step log (redo step done s)) = view (redo step log s) := by
  have hsame := htwice done hd s hs
  obtain ⟨rest, rfl⟩ := hd
  rw [redo_append, redo_append]
  exact view_redo (fun o ho => hview o (List.mem_append_right _ ho)) hsame

theorem Crashed.keeps (hI : ∀ o ∈ log, ∀ s, I s → I (step o s)) (h : Crashed step log s t)
    (hs : I s) : I t := by
  induction h with
  | none => exact hs
  | again _ hd ih => exact redo_keeps (fun o ho => hI o (hd.subset ho)) ih

/-- **Recovery** shows what a clean run of the log shows. -/
theorem Crashed.redo (hI : ∀ o ∈ log, ∀ s, I s → I (step o s))
    (hview : ∀ o ∈ log, ∀ s t, view s = view t → view (step o s) = view (step o t))
    (htwice : ∀ done, done <+: log → ∀ s, I s →
      view (redo step done (redo step done s)) = view (redo step done s))
    (h : Crashed step log s t) (hs : I s) :
    view (Lib.redo step log t) = view (Lib.redo step log s) := by
  induction h with
  | none => rfl
  | again h hd ih => exact (redo_of_part hview htwice hd (h.keeps hI hs)).trans ih

end View

end Antimoney.Lib
