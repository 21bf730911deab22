import Antimoney.GnuCash.Parser
import Mathlib.Data.List.Infix

/-!
# Reading a GnuCash file exactly

A file is refused when some value or quantity is not written as a fraction. Of a file that is read
the accounts, transactions and splits come over one for one, and every value and quantity is the one
written; but a minus sign after a slash stays in the denominator.

Headline:
* **`parseGnuCash_exact_iff`**: a file is read exactly unless it is accepted with a minus sign right
  after a slash.
-/

namespace Antimoney.GnuCash

open Antimoney.Gnc Antimoney.Lib

/-! ## Denominators -/

/-- The slash of a fraction is followed by a minus sign. -/
def SlashMinus (s : List Char) : Prop := ['/', '-'] <:+: s

theorem Decimal.slashMinus {s : List Char} {v : Int64} (h : Decimal s v) : ¬ SlashMinus s :=
  fun hs => h.notMem_slash (hs.mem (by simp))

/-- An integer other than zero is positive unless it is written with a minus sign. -/
theorem Decimal.pos_iff {s : List Char} {v : Int64} (h : Decimal s v) (h0 : v ≠ 0) :
    0 < v ↔ s.head? ≠ some '-' := by
  have hne : v.toInt ≠ 0 := fun hz => h0 (Int64.toInt_inj.mp hz)
  rw [Int64.lt_iff_toInt_lt, Int64.toInt_zero]
  cases h with
  | plain hd hv => exact iff_of_true (by omega) (hd.head?_ne rfl)
  | plus hd hv => exact iff_of_true (by omega) (by simp)
  | minus hd hv => exact iff_of_false (by omega) (by simp)

theorem slashMinus_fraction {a b : List Char} (ha : '/' ∉ a) (hb : '/' ∉ b) :
    SlashMinus (a ++ '/' :: b) ↔ b.head? = some '-' := by
  constructor
  · rintro ⟨u, w, h⟩
    -- there is one slash only
    have hsplit : a ++ '/' :: b = u ++ '/' :: ('-' :: w) := by simpa using h.symm
    obtain ⟨-, -, rfl⟩ := (List.append_cons_inj_of_notMem ha hb).mp hsplit
    rfl
  · intro h
    obtain ⟨w, rfl⟩ := List.head?_eq_some_iff.mp h
    exact ⟨a, w, by simp⟩

/-- A text that is read has a positive denominator unless a minus sign follows its slash. -/
theorem Written.denom_pos_iff {s : List Char} {r : Fraction} (h : Written s r) :
    0 < r.2 ↔ ¬ SlashMinus s := by
  cases h with
  | empty => exact iff_of_true (by decide) (by simp [SlashMinus])
  | whole h => exact iff_of_true (show (0 : Int64) < 1 by decide) h.slashMinus
  | fraction ha hb h0 =>
    rw [slashMinus_fraction ha.notMem_slash hb.notMem_slash]
    exact hb.pos_iff h0

/-! ## The file -/

/-- The texts of the values and quantities. -/
def GncV2.fractions (data : GncV2) : List String :=
  data.book.transactions.flatMap fun tx => tx.splits.flatMap fun sp => [sp.value, sp.quantity]

/-- A text that writes a fraction. -/
def WellFormed (val : String) : Prop := ∃ r, Written val.toList r

/-- A split with the value and the quantity written. -/
structure SplitRead (sp : GncSplit) (s : ExportSplit) : Prop where
  guid : s.guid = sp.id
  accountGuid : s.accountGuid = sp.account
  memo : s.memo = sp.memo
  reconcileState : s.reconcileState = sp.reconciledState
  value : ∃ r, Written sp.value.toList r ∧ Fraction.value (s.valueNum, s.valueDenom) = r.value
  quantity : ∃ r, Written sp.quantity.toList r ∧
    Fraction.value (s.quantityNum, s.quantityDenom) = r.value
  valueDenom_pos : 0 < s.valueDenom
  quantityDenom_pos : 0 < s.quantityDenom

structure TransactionRead (tx : GncTransaction) (t : ExportTransaction) : Prop where
  guid : t.guid = tx.id
  postDate : t.postDate = tx.datePosted
  enterDate : t.enterDate = tx.dateEntered
  description : t.description = tx.description
  splits : List.Forall₂ SplitRead tx.splits t.splits

structure AccountRead (acc : GncAccount) (a : ExportAccount) : Prop where
  guid : a.guid = acc.id
  name : a.name = acc.name
  accountType : a.accountType = acc.type
  parentGuid : a.parentGuid = acc.parent
  placeholder : a.placeholder = true ↔ ⟨"placeholder", "true"⟩ ∈ acc.slots
  description : a.description = acc.description

/-- A file read one for one, in order. -/
structure ReadExactly (data : GncV2) (e : ExportData) : Prop where
  accounts : List.Forall₂ AccountRead data.book.accounts e.accounts
  transactions : List.Forall₂ TransactionRead data.book.transactions e.transactions

/-! ## What is read -/

section Reading

variable {data : GncV2} {e : ExportData} {sp : GncSplit} {s : ExportSplit}

/-- The texts of a split are read as written. -/
theorem exportSplit_eq_ok_iff : exportSplit sp = .ok s ↔
    ∃ v q, Written sp.value.toList v ∧ Written sp.quantity.toList q ∧
      s = ⟨sp.id, sp.account, sp.memo, v.1, v.2, q.1, q.2, sp.reconciledState⟩ := by
  unfold exportSplit
  rw [bind_eq_ok_iff]
  constructor
  · rintro ⟨v, hv, h⟩
    obtain ⟨q, hq, h⟩ := bind_eq_ok_iff.mp h
    rw [mapError_eq_ok_iff, parseFraction_eq_ok_iff] at hv hq
    exact ⟨v, q, hv, hq, (Except.ok.inj h).symm⟩
  · rintro ⟨v, q, hv, hq, rfl⟩
    rw [← parseFraction_eq_ok_iff] at hv hq
    exact ⟨v, mapError_eq_ok_iff.mpr hv, bind_eq_ok_iff.mpr ⟨q, mapError_eq_ok_iff.mpr hq, rfl⟩⟩

/-- A split that is read is exact unless a minus sign follows a slash. -/
theorem splitRead_iff (h : exportSplit sp = .ok s) :
    SplitRead sp s ↔ ¬ SlashMinus sp.value.toList ∧ ¬ SlashMinus sp.quantity.toList := by
  obtain ⟨v, q, hv, hq, rfl⟩ := exportSplit_eq_ok_iff.mp h
  rw [← hv.denom_pos_iff, ← hq.denom_pos_iff]
  constructor
  · intro hr
    exact ⟨hr.valueDenom_pos, hr.quantityDenom_pos⟩
  · rintro ⟨hvd, hqd⟩
    exact ⟨rfl, rfl, rfl, rfl, ⟨v, hv, rfl⟩, ⟨q, hq, rfl⟩, hvd, hqd⟩

/-- A split that is refused has a text that writes no fraction. -/
theorem exportSplit_eq_error_iff : (∃ err, exportSplit sp = .error err) ↔
    ∃ t ∈ [sp.value, sp.quantity], ¬ WellFormed t := by
  have hok : (∃ s, exportSplit sp = .ok s) ↔ WellFormed sp.value ∧ WellFormed sp.quantity := by
    constructor
    · rintro ⟨s, h⟩
      obtain ⟨v, q, hv, hq, -⟩ := exportSplit_eq_ok_iff.mp h
      exact ⟨⟨v, hv⟩, ⟨q, hq⟩⟩
    · rintro ⟨⟨v, hv⟩, ⟨q, hq⟩⟩
      exact ⟨_, exportSplit_eq_ok_iff.mpr ⟨v, q, hv, hq, rfl⟩⟩
  have hexists : (∃ t ∈ [sp.value, sp.quantity], ¬ WellFormed t) ↔
      ¬ (WellFormed sp.value ∧ WellFormed sp.quantity) := by
    rw [not_and_or]
    simp
  rw [hexists, ← hok]
  cases exportSplit sp <;> simp

theorem exportAccount_read (acc : GncAccount) : AccountRead acc (exportAccount acc) := by
  refine ⟨rfl, rfl, rfl, rfl, ?_, rfl⟩
  rw [exportAccount, List.any_eq_true]
  constructor
  · rintro ⟨slot, hs, h⟩
    rw [Bool.and_eq_true, beq_iff_eq, beq_iff_eq] at h
    obtain ⟨hk, hv⟩ := h
    rw [← hk, ← hv]
    exact hs
  · intro h
    exact ⟨_, h, rfl⟩

/-- Lists that match item by item match better if every pair does. -/
theorem forall₂_iff {α β : Type} {R S : α → β → Prop} {P : α → Prop} {l : List α} {m : List β}
    (h : List.Forall₂ R l m) (hS : ∀ a b, R a b → (S a b ↔ P a)) :
    List.Forall₂ S l m ↔ ∀ a ∈ l, P a := by
  induction h with
  | nil => simp
  | cons hab _ ih => rw [List.forall₂_cons, List.forall_mem_cons, ih, hS _ _ hab]

variable {tx : GncTransaction} {t : ExportTransaction}

theorem exportTransaction_eq_ok_iff : exportTransaction tx = .ok t ↔
    ∃ splits, List.Forall₂ (fun sp s => exportSplit sp = .ok s) tx.splits splits ∧
      t = ⟨tx.id, tx.datePosted, tx.dateEntered, tx.description, splits⟩ := by
  unfold exportTransaction
  rw [bind_eq_ok_iff]
  constructor
  · rintro ⟨splits, hs, h⟩
    exact ⟨splits, mapM_eq_ok_iff.mp hs, (Except.ok.inj h).symm⟩
  · rintro ⟨splits, hs, rfl⟩
    exact ⟨splits, mapM_eq_ok_iff.mpr hs, rfl⟩

theorem transactionRead_iff (h : exportTransaction tx = .ok t) : TransactionRead tx t ↔
    ∀ sp ∈ tx.splits, ¬ SlashMinus sp.value.toList ∧ ¬ SlashMinus sp.quantity.toList := by
  obtain ⟨splits, hs, rfl⟩ := exportTransaction_eq_ok_iff.mp h
  refine Iff.trans ?_ (forall₂_iff hs fun _ _ hsp => splitRead_iff hsp)
  constructor
  · intro hr
    exact hr.splits
  · intro hr
    exact ⟨rfl, rfl, rfl, rfl, hr⟩

/-- A step fails after a list of steps only if one of them does. -/
theorem bind_pure_eq_error_iff {ε α β : Type} {x : Except ε α} {f : α → β} :
    (∃ err, (x >>= fun a => pure (f a)) = .error err) ↔ ∃ err, x = .error err := by
  cases x <;> simp [Bind.bind, Except.bind, pure, Except.pure]

theorem exportTransaction_eq_error_iff : (∃ err, exportTransaction tx = .error err) ↔
    ∃ sp ∈ tx.splits, ∃ x ∈ [sp.value, sp.quantity], ¬ WellFormed x := by
  unfold exportTransaction
  rw [bind_pure_eq_error_iff, mapM_eq_error_iff]
  simp only [exportSplit_eq_error_iff]

theorem mem_fractions {x : String} : x ∈ data.fractions ↔
    ∃ tx ∈ data.book.transactions, ∃ sp ∈ tx.splits, x ∈ [sp.value, sp.quantity] := by
  unfold GncV2.fractions
  simp only [List.mem_flatMap]

/-- **A file is refused** exactly when some value or quantity writes no fraction. -/
theorem parseGnuCash_eq_error_iff : (∃ err, parseGnuCash data = .error err) ↔
    ∃ x ∈ data.fractions, ¬ WellFormed x := by
  unfold parseGnuCash
  rw [bind_pure_eq_error_iff, mapM_eq_error_iff]
  simp only [exportTransaction_eq_error_iff, mem_fractions]
  constructor
  · rintro ⟨tx, htx, sp, hsp, x, hx, hw⟩
    exact ⟨x, ⟨tx, htx, sp, hsp, hx⟩, hw⟩
  · rintro ⟨x, ⟨tx, htx, sp, hsp, hx⟩, hw⟩
    exact ⟨tx, htx, sp, hsp, x, hx, hw⟩

/-- **A file that is read is read exactly** unless a minus sign follows a slash. -/
theorem readExactly_iff (h : parseGnuCash data = .ok e) :
    ReadExactly data e ↔ ∀ x ∈ data.fractions, ¬ SlashMinus x.toList := by
  obtain ⟨txns, htxns, h⟩ := bind_eq_ok_iff.mp h
  obtain rfl := Except.ok.inj h
  have hfractions : (∀ x ∈ data.fractions, ¬ SlashMinus x.toList) ↔
      ∀ tx ∈ data.book.transactions, ∀ sp ∈ tx.splits,
        ¬ SlashMinus sp.value.toList ∧ ¬ SlashMinus sp.quantity.toList := by
    simp only [mem_fractions]
    constructor
    · intro h tx htx sp hsp
      exact ⟨h _ ⟨tx, htx, sp, hsp, by simp⟩, h _ ⟨tx, htx, sp, hsp, by simp⟩⟩
    · rintro h x ⟨tx, htx, sp, hsp, hx⟩
      obtain ⟨hv, hq⟩ := h tx htx sp hsp
      rcases List.mem_pair.mp hx with rfl | rfl
      · exact hv
      · exact hq
  rw [hfractions]
  refine Iff.trans ?_ (forall₂_iff (mapM_eq_ok_iff.mp htxns) fun _ _ ht => transactionRead_iff ht)
  constructor
  · intro hr
    exact hr.transactions
  · intro hr
    refine ⟨?_, hr⟩
    rw [List.forall₂_map_right_iff, List.forall₂_same]
    exact fun acc _ => exportAccount_read acc

end Reading

/-- **GnuCash files are read exactly or refused** unless they are accepted with a minus sign right
after a slash. -/
theorem parseGnuCash_exact_iff (data : GncV2) :
    (((∃ err, parseGnuCash data = .error err) ↔ ∃ x ∈ data.fractions, ¬ WellFormed x) ∧
      ∀ e, parseGnuCash data = .ok e → ReadExactly data e) ↔
    (∃ x ∈ data.fractions, ¬ WellFormed x) ∨ ∀ x ∈ data.fractions, ¬ SlashMinus x.toList := by
  rw [and_iff_right parseGnuCash_eq_error_iff]
  cases hp : parseGnuCash data with
  | error err =>
    refine iff_of_true (fun e h => absurd h (by simp)) (.inl ?_)
    exact parseGnuCash_eq_error_iff.mp ⟨err, hp⟩
  | ok e =>
    have hwell : ¬ ∃ x ∈ data.fractions, ¬ WellFormed x := by
      rw [← parseGnuCash_eq_error_iff, hp]
      simp
    rw [or_iff_right hwell, ← readExactly_iff hp]
    constructor
    · intro h
      exact h e rfl
    · rintro h e' he
      obtain rfl := Except.ok.inj he
      exact h

/-- One transaction with one split, whose value and quantity is 150 over minus 100. -/
def negativeFraction : GncV2 :=
  let val := "150/" ++ "-100"
  ⟨⟨[], [⟨Guid.text 1, some 0, some 0, "food",
    [⟨Guid.text 2, "", "n", val, val, Guid.text 3⟩]⟩]⟩⟩

/-- It is accepted, with the denominator it writes. -/
theorem parseGnuCash_negative : ∃ e, parseGnuCash negativeFraction = .ok e ∧
    ¬ ReadExactly negativeFraction e := by
  have hp : parseGnuCash negativeFraction = .ok ⟨[], [⟨Guid.text 1, some 0, some 0, "food",
      [⟨Guid.text 2, Guid.text 3, "", 150, -100, 150, -100, "n"⟩]⟩]⟩ := by decide +kernel
  refine ⟨_, hp, fun h => ?_⟩
  obtain ⟨-, ⟨⟩ | ⟨ht, -⟩⟩ := h
  obtain ⟨⟩ | ⟨hs, -⟩ := ht.splits
  exact absurd hs.valueDenom_pos (by decide)

end Antimoney.GnuCash
