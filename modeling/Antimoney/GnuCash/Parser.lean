import Antimoney.Csv.Cells
import Antimoney.Gnc.Numeric
import Antimoney.Lib.Traverse

/-!
# GnuCash files

`internal/handlers/gnucash_parser.go` after decompression and decoding: a `GncV2` becomes an
`ExportData`, and the texts of its values and quantities are read by `parseFraction`.

* `parseInt_eq_ok_iff`: `strconv.ParseInt` reads the decimal `int64`s.
* `parseFraction_eq_ok_iff`: `parseFraction` reads nothing, one of them or two around a slash.
-/

namespace Antimoney.GnuCash

open Antimoney.Csv Antimoney.Gnc Antimoney.Lib

/-! ## The decoded file -/

structure GncSlot where
  key : String
  value : String
  deriving DecidableEq, Repr

structure GncAccount where
  id : GuidText
  name : String
  type : String
  description : String
  parent : Option GuidText
  slots : List GncSlot
  deriving DecidableEq, Repr

structure GncSplit where
  id : GuidText
  memo : String
  reconciledState : String
  value : String
  quantity : String
  account : GuidText
  deriving DecidableEq, Repr

/-- As in an `ExportTransaction`, a date is `none` when its text is not a timestamp. -/
structure GncTransaction where
  id : GuidText
  datePosted : Option Time
  dateEntered : Option Time
  description : String
  splits : List GncSplit
  deriving DecidableEq, Repr

structure GncBook where
  accounts : List GncAccount
  transactions : List GncTransaction
  deriving DecidableEq, Repr

structure GncV2 where
  book : GncBook
  deriving DecidableEq, Repr

/-! ## `strconv.ParseInt` -/

/-- `ErrSyntax` and `ErrRange`. -/
inductive NumErr where
  | errSyntax
  | errRange
  deriving DecidableEq, Repr

/-- A `NumError` of `ParseInt`. -/
structure NumError where
  num : String
  err : NumErr
  deriving DecidableEq, Repr

/-- The loop of `ParseUint` in base 10, for 64 bits. -/
def parseUint : Nat → List Char → Except NumErr Nat
  | n, [] => .ok n
  | n, c :: cs =>
    if isDigit c then
      if (2 ^ 64 - 1) / 10 + 1 ≤ n then .error .errRange
      else
        let n1 := n * 10 + (c.toNat - '0'.toNat)
        if 2 ^ 64 ≤ n1 then .error .errRange else parseUint n1 cs
    else .error .errSyntax

/-- `ParseInt` after the sign: `s0` is the whole text. -/
def parseSigned (s0 : List Char) (neg : Bool) (s : List Char) : Except NumError Int64 :=
  let failed := fun e => .error ⟨String.ofList s0, e⟩
  if s = [] then failed .errSyntax
  else
    match parseUint 0 s with
    | .error e => failed e
    | .ok un =>
      if (!neg && 2 ^ 63 ≤ un) || (neg && 2 ^ 63 < un) then failed .errRange
      else .ok (if neg then -Int64.ofNat un else Int64.ofNat un)

/-- `ParseInt(s, 10, 64)`. -/
def parseInt (s0 : List Char) : Except NumError Int64 :=
  match s0 with
  | '+' :: s => parseSigned s0 false s
  | '-' :: s => parseSigned s0 true s
  | s => parseSigned s0 false s

/-! ## `parseFraction` -/

inductive FractionError where
  | number (e : NumError)
  /-- `denominator cannot be zero`. -/
  | zeroDenominator
  /-- `invalid fraction format: %s`. -/
  | invalidFormat (val : String)
  deriving DecidableEq, Repr

/-- `parseFraction`. -/
def parseFraction (val : String) : Except FractionError Fraction :=
  if val = "" then .ok (0, 1)
  else
    match val.toList.splitOn '/' with
    | [a] => ((parseInt a).map fun num => (num, 1)).mapError .number
    | [a, b] => do
      let num ← (parseInt a).mapError .number
      let denom ← (parseInt b).mapError .number
      if denom = 0 then .error .zeroDenominator else .ok (num, denom)
    | _ => .error (.invalidFormat val)

/-! ## `ParseGnuCash` -/

/-- `failed to parse split value: %w`, `failed to parse split quantity: %w`. -/
inductive ParseError where
  | splitValue (e : FractionError)
  | splitQuantity (e : FractionError)
  deriving DecidableEq, Repr

/-- An account: a placeholder if some slot says so. -/
def exportAccount (acc : GncAccount) : ExportAccount where
  guid := acc.id
  name := acc.name
  accountType := acc.type
  parentGuid := acc.parent
  placeholder := acc.slots.any fun slot => slot.key == "placeholder" && slot.value == "true"
  description := acc.description

def exportSplit (sp : GncSplit) : Except ParseError ExportSplit := do
  let v ← (parseFraction sp.value).mapError .splitValue
  let q ← (parseFraction sp.quantity).mapError .splitQuantity
  return ⟨sp.id, sp.account, sp.memo, v.1, v.2, q.1, q.2, sp.reconciledState⟩

def exportTransaction (tx : GncTransaction) : Except ParseError ExportTransaction := do
  let splits ← tx.splits.mapM exportSplit
  return ⟨tx.id, tx.datePosted, tx.dateEntered, tx.description, splits⟩

/-- `ParseGnuCash`, of a file that is decoded. -/
def parseGnuCash (data : GncV2) : Except ParseError ExportData := do
  let transactions ← data.book.transactions.mapM exportTransaction
  return ⟨data.book.accounts.map exportAccount, transactions⟩

/-! ## What is read as an integer -/

/-- At least one digit, and nothing else. -/
structure Digits (s : List Char) : Prop where
  ne_nil : s ≠ []
  all : ∀ c ∈ s, isDigit c = true

/-- A decimal `int64`, as written: digits after at most one sign. -/
inductive Decimal : List Char → Int64 → Prop
  | plain {s : List Char} {v : Int64} (h : Digits s) (hv : v.toInt = (digitsNat s : ℤ)) :
    Decimal s v
  | plus {s : List Char} {v : Int64} (h : Digits s) (hv : v.toInt = (digitsNat s : ℤ)) :
    Decimal ('+' :: s) v
  | minus {s : List Char} {v : Int64} (h : Digits s) (hv : v.toInt = -(digitsNat s : ℤ)) :
    Decimal ('-' :: s) v

/-- The number written by digits after those of `n`. -/
def digitsFrom (n : Nat) (s : List Char) : Nat :=
  s.foldl (fun n c => 10 * n + (c.toNat - '0'.toNat)) n

theorem digitsFrom_zero (s : List Char) : digitsFrom 0 s = digitsNat s := rfl

theorem digitsFrom_cons (n : Nat) (c : Char) (s : List Char) :
    digitsFrom n (c :: s) = digitsFrom (10 * n + (c.toNat - '0'.toNat)) s := by
  unfold digitsFrom
  rw [List.foldl_cons]

theorem le_digitsFrom (n : Nat) (s : List Char) : n ≤ digitsFrom n s := by
  induction s generalizing n with
  | nil => exact le_refl n
  | cons c s ih =>
    rw [digitsFrom_cons]
    have := ih (10 * n + (c.toNat - '0'.toNat))
    omega

/-- The loop answers the number of the digits, if it is a `uint64`. -/
theorem parseUint_eq_ok_iff {n m : Nat} {s : List Char} (hn : n < 2 ^ 64) :
    parseUint n s = .ok m ↔
      (∀ c ∈ s, isDigit c = true) ∧ digitsFrom n s = m ∧ digitsFrom n s < 2 ^ 64 := by
  induction s generalizing n with
  | nil =>
    rw [parseUint, Except.ok.injEq]
    constructor
    · rintro rfl
      exact ⟨by simp, rfl, hn⟩
    · rintro ⟨-, h, -⟩
      exact h
  | cons c s ih =>
    rw [parseUint, List.forall_mem_cons, digitsFrom_cons, Nat.mul_comm n 10]
    by_cases hc : isDigit c = true
    · rw [if_pos hc]
      have hle := le_digitsFrom (10 * n + (c.toNat - '0'.toNat)) s
      by_cases hcut : (2 ^ 64 - 1) / 10 + 1 ≤ n
      · rw [if_pos hcut]
        refine iff_of_false (by simp) ?_
        rintro ⟨-, -, hlt⟩
        omega
      · rw [if_neg hcut]
        by_cases hlt : 2 ^ 64 ≤ 10 * n + (c.toNat - '0'.toNat)
        · rw [if_pos hlt]
          refine iff_of_false (by simp) ?_
          rintro ⟨-, -, hlt'⟩
          omega
        · rw [if_neg hlt, ih (not_le.mp hlt)]
          simp [hc]
    · rw [if_neg hc]
      exact iff_of_false (by simp) fun h => hc h.1.1

theorem toInt_ofNat {n : Nat} (h : n < 2 ^ 63) : (Int64.ofNat n).toInt = n :=
  Int64.toInt_ofNat_of_lt h

theorem toInt_neg_ofNat {n : Nat} (h : n ≤ 2 ^ 63) : (-Int64.ofNat n).toInt = -n :=
  Int64.toInt_neg_ofNat_of_le h

theorem parseSigned_eq_ok_iff {s0 s : List Char} {neg : Bool} {v : Int64} :
    parseSigned s0 neg s = .ok v ↔
      Digits s ∧ v.toInt = if neg then -(digitsNat s : ℤ) else digitsNat s := by
  unfold parseSigned
  by_cases hnil : s = []
  · rw [if_pos hnil]
    exact iff_of_false (by simp) fun h => h.1.ne_nil hnil
  rw [if_neg hnil]
  have hok : ∀ m, parseUint 0 s = .ok m ↔
      (∀ c ∈ s, isDigit c = true) ∧ digitsNat s = m ∧ digitsNat s < 2 ^ 64 :=
    fun m => parseUint_eq_ok_iff (by omega)
  have hge := v.le_toInt
  have hlt := v.toInt_lt
  cases hu : parseUint 0 s with
  | error e =>
    refine iff_of_false (by simp) ?_
    rintro ⟨hd, hv⟩
    -- the value is an `int64`, so the loop would have answered it
    have := (hok (digitsNat s)).mpr ⟨hd.all, rfl, by cases neg <;> simp at hv <;> omega⟩
    rw [hu] at this
    exact absurd this (by simp)
  | ok m =>
    obtain ⟨hall, rfl, h64⟩ := (hok m).mp hu
    have hd : Digits s := ⟨hnil, hall⟩
    rw [and_iff_right hd]
    dsimp only
    cases neg with
    | false =>
      by_cases hr : 2 ^ 63 ≤ digitsNat s
      · rw [if_pos (by simp; omega)]
        exact iff_of_false (by simp) fun h => by simp at h; omega
      · rw [if_neg (by simp; omega), Except.ok.injEq, ← Int64.toInt_inj]
        rw [if_neg (by simp), toInt_ofNat (not_le.mp hr), eq_comm]
        rfl
    | true =>
      by_cases hr : 2 ^ 63 < digitsNat s
      · rw [if_pos (by simp; omega)]
        exact iff_of_false (by simp) fun h => by simp at h; omega
      · rw [if_neg (by simp; omega), Except.ok.injEq, ← Int64.toInt_inj]
        rw [if_pos rfl, toInt_neg_ofNat (not_lt.mp hr), eq_comm]
        rfl

theorem parseInt_plain {s0 : List Char} (hp : s0.head? ≠ some '+') (hm : s0.head? ≠ some '-') :
    parseInt s0 = parseSigned s0 false s0 := by
  unfold parseInt
  split
  · exact absurd rfl hp
  · exact absurd rfl hm
  · rfl

theorem Digits.head?_ne {s : List Char} (h : Digits s) {c : Char} (hc : isDigit c = false) :
    s.head? ≠ some c := by
  intro hs
  have := h.all c (List.mem_of_mem_head? hs)
  simp [hc] at this

/-- **`ParseInt` reads the decimal `int64`s.** -/
theorem parseInt_eq_ok_iff (s : List Char) (v : Int64) : parseInt s = .ok v ↔ Decimal s v := by
  constructor
  · intro h
    unfold parseInt at h
    split at h
    · obtain ⟨hd, hv⟩ := parseSigned_eq_ok_iff.mp h
      exact .plus hd hv
    · obtain ⟨hd, hv⟩ := parseSigned_eq_ok_iff.mp h
      exact .minus hd hv
    · obtain ⟨hd, hv⟩ := parseSigned_eq_ok_iff.mp h
      exact .plain hd hv
  · intro h
    cases h with
    | plain hd hv =>
      rw [parseInt_plain (hd.head?_ne rfl) (hd.head?_ne rfl)]
      exact parseSigned_eq_ok_iff.mpr ⟨hd, hv⟩
    | plus hd hv => exact parseSigned_eq_ok_iff.mpr ⟨hd, hv⟩
    | minus hd hv => exact parseSigned_eq_ok_iff.mpr ⟨hd, hv⟩

/-! ## What is read as a fraction -/

/-- The two numbers a text writes: nothing, one integer, or two around a slash. -/
inductive Written : List Char → Fraction → Prop
  | empty : Written [] (0, 1)
  | whole {s : List Char} {n : Int64} (h : Decimal s n) : Written s (n, 1)
  | fraction {a b : List Char} {n d : Int64} (ha : Decimal a n) (hb : Decimal b d) (h0 : d ≠ 0) :
    Written (a ++ '/' :: b) (n, d)

theorem Digits.notMem {s : List Char} (h : Digits s) {c : Char} (hc : isDigit c = false) :
    c ∉ s := by
  intro hm
  have := h.all c hm
  simp [hc] at this

theorem Decimal.ne_nil {s : List Char} {v : Int64} (h : Decimal s v) : s ≠ [] := by
  cases h with
  | plain hd => exact hd.ne_nil
  | plus => simp
  | minus => simp

theorem Decimal.notMem_slash {s : List Char} {v : Int64} (h : Decimal s v) : '/' ∉ s := by
  cases h with
  | plain hd => exact hd.notMem rfl
  | plus hd => simpa using hd.notMem rfl
  | minus hd => simpa using hd.notMem rfl

theorem parseFraction_whole {val : String} (h0 : val ≠ "") (h : '/' ∉ val.toList) :
    parseFraction val = ((parseInt val.toList).map fun num => (num, 1)).mapError .number := by
  rw [parseFraction, if_neg h0, List.splitOn_eq_singleton h]

theorem parseFraction_fraction {val : String} {a b : List Char} (hv : val.toList = a ++ '/' :: b)
    (ha : '/' ∉ a) (hb : '/' ∉ b) : parseFraction val = (do
      let num ← (parseInt a).mapError .number
      let denom ← (parseInt b).mapError .number
      if denom = 0 then .error .zeroDenominator else .ok (num, denom)) := by
  have h0 : val ≠ "" := by
    rintro rfl
    exact absurd hv (by simp)
  rw [parseFraction, if_neg h0, hv, List.splitOn_append_cons_self_of_not_mem ha,
    List.splitOn_eq_singleton hb]

/-- **`parseFraction` reads what is written.** -/
theorem parseFraction_eq_ok_iff (val : String) (r : Fraction) :
    parseFraction val = .ok r ↔ Written val.toList r := by
  constructor
  · intro h
    unfold parseFraction at h
    split at h
    · rename_i h0
      rw [h0, ← Except.ok.inj h]
      exact .empty
    · have hval : ['/'].intercalate (val.toList.splitOn '/') = val.toList :=
        List.intercalate_splitOn '/'
      split at h
      · rename_i a hs
        rw [hs, List.intercalate_singleton] at hval
        rw [mapError_eq_ok_iff] at h
        obtain ⟨n, hn, rfl⟩ := map_eq_ok_iff.mp h
        rw [← hval]
        exact .whole ((parseInt_eq_ok_iff a n).mp hn)
      · rename_i a b hs
        rw [hs] at hval
        have hjoin : a ++ '/' :: b = val.toList := by simpa [List.intercalate] using hval
        obtain ⟨n, hn, h⟩ := bind_eq_ok_iff.mp h
        obtain ⟨d, hd, h⟩ := bind_eq_ok_iff.mp h
        rw [mapError_eq_ok_iff] at hn hd
        split at h
        · exact absurd h (by simp)
        · rename_i h0
          rw [← hjoin, ← Except.ok.inj h]
          exact .fraction ((parseInt_eq_ok_iff a n).mp hn) ((parseInt_eq_ok_iff b d).mp hd) h0
      · exact absurd h (by simp)
  · intro h
    generalize hs : val.toList = s at h
    cases h with
    | empty =>
      rw [parseFraction, if_pos (String.toList_eq_nil_iff.mp hs)]
    | whole h =>
      have h0 : val ≠ "" := by
        rintro rfl
        exact h.ne_nil (hs ▸ rfl)
      rw [parseFraction_whole h0 (hs ▸ h.notMem_slash), hs, (parseInt_eq_ok_iff _ _).mpr h]
      rfl
    | fraction ha hb h0 =>
      rw [parseFraction_fraction hs ha.notMem_slash hb.notMem_slash,
        (parseInt_eq_ok_iff _ _).mpr ha, (parseInt_eq_ok_iff _ _).mpr hb]
      exact if_neg h0

end Antimoney.GnuCash
