import Antimoney.Plaid.Categorizer
import Mathlib.Data.List.Infix

/-!
# The escaped pattern is literal

The substring pass of `Suggest` and `SuggestBatch` writes a description between two `%`, its own
metacharacters escaped. A match eats the escaped part character by character, and the `%` on
either side eats what is left.

Headline:
* **`like_escaped_iff`**: the test holds exactly of the texts that contain the description.
-/

namespace Antimoney

/-! ## One character of a pattern -/

/-- A character `LIKE` does not take for itself. -/
def LikeMeta (c : Char) : Prop := c = '\\' ∨ c = '%' ∨ c = '_'

instance (c : Char) : Decidable (LikeMeta c) := by unfold LikeMeta; infer_instance

theorem escapeLike_meta {c : Char} (h : LikeMeta c) (q : List Char) :
    escapeLike (c :: q) = '\\' :: c :: escapeLike q := if_pos h

theorem escapeLike_plain {c : Char} (h : ¬ LikeMeta c) (q : List Char) :
    escapeLike (c :: q) = c :: escapeLike q := if_neg h

/-- An escaped character matches itself. -/
theorem likeMatch_escaped (c x : Char) (p xs : List Char) :
    likeMatch ('\\' :: c :: p) (x :: xs) = (c == x && likeMatch p xs) := by
  rw [likeMatch]

theorem likeMatch_escaped_nil (c : Char) (p : List Char) :
    likeMatch ('\\' :: c :: p) [] = false := by
  rw [likeMatch]
  rintro _ _ _ _ h
  exact absurd h (by simp)

/-- A plain character matches itself. -/
theorem likeMatch_plain {c : Char} (h : ¬ LikeMeta c) (x : Char) (p xs : List Char) :
    likeMatch (c :: p) (x :: xs) = (c == x && likeMatch p xs) := by
  unfold LikeMeta at h
  push Not at h
  rw [likeMatch]
  all_goals simp_all

theorem likeMatch_plain_nil {c : Char} (h : ¬ LikeMeta c) (p : List Char) :
    likeMatch (c :: p) [] = false := by
  unfold LikeMeta at h
  push Not at h
  rw [likeMatch]
  all_goals simp_all

/-- `%` matches at every suffix of the text. -/
theorem likeMatch_percent (p s : List Char) :
    likeMatch ('%' :: p) s = true ↔ ∃ t, t <:+ s ∧ likeMatch p t = true := by
  rw [likeMatch]
  simp [List.any_eq_true, List.mem_tails]

/-! ## The escaped part -/

/-- What follows an escaped text is matched after that text. -/
theorem likeMatch_escapeLike (q p s : List Char) :
    likeMatch (escapeLike q ++ p) s = true ↔ ∃ t, s = q ++ t ∧ likeMatch p t = true := by
  induction q generalizing s with
  | nil => simp [escapeLike]
  | cons c q ih =>
    -- escaped or not, the first character of the text must be `c`
    have hcons : ∀ x xs, likeMatch (escapeLike (c :: q) ++ p) (x :: xs)
        = (c == x && likeMatch (escapeLike q ++ p) xs) := by
      intro x xs
      by_cases hm : LikeMeta c
      · rw [escapeLike_meta hm]
        exact likeMatch_escaped c x _ xs
      · rw [escapeLike_plain hm]
        exact likeMatch_plain hm x _ xs
    have hnil : likeMatch (escapeLike (c :: q) ++ p) [] = false := by
      by_cases hm : LikeMeta c
      · rw [escapeLike_meta hm]
        exact likeMatch_escaped_nil c _
      · rw [escapeLike_plain hm]
        exact likeMatch_plain_nil hm _
    cases s with
    | nil =>
      rw [hnil]
      simp
    | cons x xs =>
      rw [hcons, Bool.and_eq_true, ih, beq_iff_eq]
      constructor
      · rintro ⟨rfl, t, rfl, ht⟩
        exact ⟨t, rfl, ht⟩
      · rintro ⟨t, he, ht⟩
        obtain ⟨rfl, rfl⟩ := List.cons.inj he
        exact ⟨rfl, t, rfl, ht⟩

/-- The last `%` matches whatever is left. -/
theorem likeMatch_rest (t : List Char) : likeMatch ['%'] t = true := by
  rw [likeMatch_percent]
  exact ⟨[], List.nil_suffix, rfl⟩

/-- A text between two `%` is looked for anywhere. -/
theorem likeMatch_between (q s : List Char) :
    likeMatch ('%' :: escapeLike q ++ ['%']) s = true ↔ q <:+: s := by
  rw [List.cons_append, likeMatch_percent]
  constructor
  · rintro ⟨t, ⟨u, rfl⟩, ht⟩
    obtain ⟨v, rfl, -⟩ := (likeMatch_escapeLike q ['%'] t).mp ht
    exact ⟨u, v, by rw [List.append_assoc]⟩
  · rintro ⟨u, v, rfl⟩
    refine ⟨q ++ v, ⟨u, by rw [List.append_assoc]⟩, ?_⟩
    exact (likeMatch_escapeLike q ['%'] (q ++ v)).mpr ⟨v, rfl, likeMatch_rest v⟩

/-- The substring pass finds the descriptions that contain the searched one. -/
theorem substring_holds_iff (ops : TextOps) (q description : String) :
    MatchMode.substring.holds ops (MatchMode.substring.param q) description = true
      ↔ q.toList <:+: (ops.sqlLower description).toList := by
  simp only [MatchMode.holds, MatchMode.param, String.toList_ofList]
  exact likeMatch_between q.toList _

/-- **The escaping is literal**: the `LIKE` test of the substring pass holds of a text exactly when
the description is a contiguous part of it. -/
theorem like_escaped_iff (q s : String) :
    likeMatch ('%' :: (MatchMode.substring.param q).toList ++ ['%']) s.toList = true
      ↔ q.toList <:+: s.toList := by
  rw [MatchMode.param, String.toList_ofList]
  exact likeMatch_between q.toList s.toList

example : likeMatch ('%' :: escapeLike "100% _".toList ++ ['%']) "a 100% _b".toList = true := by
  decide

example : likeMatch ('%' :: escapeLike "100%".toList ++ ['%']) "1000".toList = false := by
  decide

end Antimoney
