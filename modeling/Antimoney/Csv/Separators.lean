import Antimoney.Csv.Cells
import Mathlib.Data.List.TakeWhile

/-!
# The separator of a CSV file

With `LazyQuotes` and one column the comma reader takes any text, so the semicolons are never tried:
each line of a table joined with semicolons is a single cell, and no date ends in one.

* `csvFile_commas`: joined with commas a table is read as its cells.
* `semicolons_post_nothing`: joined with semicolons nothing of it is posted.
* **`separators_agree_iff`**: so the two files post the same when no row of the table is readable.
-/

namespace Antimoney

/-- The rows a CSV upload hands to `CreateTransaction`, in order. -/
def CsvFile.posts : CsvFile → List CsvRow
  | .invalid | .noRecords => []
  | .rows rs => rs

namespace Csv

/-- A table of cells without separators, quotes or line breaks. -/
structure Table (width : Nat) (rows : List (List Cell)) : Prop where
  width : ∀ row ∈ rows, row.length = width
  comma : ∀ row ∈ rows, ∀ c ∈ row, Plain ',' c
  semicolon : ∀ row ∈ rows, ∀ c ∈ row, ';' ∉ c

/-- The file of a table; the last row may end without a line break. -/
def fileText (sep : Char) (rows : List (List Cell)) (eol : Bool) : List Char :=
  if eol then tableText sep rows else (tableText sep rows).dropLast

/-- A data row with a date and an amount in the columns of the header. -/
structure Readable (cols : Columns) (row : List Cell) : Prop where
  date : (postDate (row.getD cols.dateIdx [])).isSome
  amount : (valNum (row.getD cols.amountIdx [])).isSome

instance (cols : Columns) (row : List Cell) : Decidable (Readable cols row) :=
  decidable_of_iff ((postDate (row.getD cols.dateIdx [])).isSome ∧
      (valNum (row.getD cols.amountIdx [])).isSome)
    ⟨fun h => ⟨h.1, h.2⟩, fun h => ⟨h.date, h.amount⟩⟩

/-! ## The last line break -/

/-- At the end of the file a line break says nothing new. -/
theorem finish_newline {comma : Char} (hc : Separates comma) {r : Reader}
    (h : (r.next comma '\n').mode = .line) : (r.next comma '\n').finish = r.finish := by
  unfold Reader.next at h ⊢
  cases hm : r.mode with
  | line => rfl
  | field =>
    have hstart : r.start comma '\n' = r.endRecord := if_pos rfl
    simp only [hstart, Reader.finish, hm]
    rfl
  | bare =>
    simp only [if_neg hc.newline.symm, if_true, Reader.finish, hm]
    rfl
  | quoted =>
    rw [hm] at h
    exact absurd h (by simp [Reader.push])
  | quote =>
    have hq : ('\n' : Char) ≠ '"' := by decide
    simp only [if_neg hq, if_neg hc.newline.symm, if_true, Reader.finish, hm]
    rfl

theorem records_dropLast {comma : Char} (hc : Separates comma) {rows : List (List Cell)}
    (hr : Rows comma rows) :
    records comma (tableText comma rows).dropLast = records comma (tableText comma rows) := by
  have hret : comma ≠ '\r' := by
    rintro rfl
    exact absurd hc.space (by decide)
  have hclean := ret_notMem_tableText hret hr
  have hall := foldl_table hc hr []
  unfold records
  rw [readLine_of_notMem fun h => hclean (List.dropLast_subset _ h), readLine_of_notMem hclean]
  rcases List.eq_nil_or_concat rows with rfl | ⟨init, last, rfl⟩
  · rfl
  · have htext : tableText comma (init.concat last) =
        tableText comma init ++ [comma].intercalate last ++ ['\n'] := by
      simp [tableText, rowText]
    rw [htext, List.foldl_append, List.foldl_cons, List.foldl_nil] at hall
    rw [htext, List.dropLast_concat, List.foldl_append (l := _ ++ _), List.foldl_cons,
      List.foldl_nil]
    exact (finish_newline hc (by rw [Reader.init, hall])).symm

theorem readAll_fileText {comma : Char} (hc : Separates comma) {rows : List (List Cell)}
    (hr : Rows comma rows) (eol : Bool) :
    readAll comma (fileText comma rows eol) = readAll comma (tableText comma rows) := by
  unfold fileText
  cases eol with
  | true => rfl
  | false =>
    unfold readAll
    simp only [Bool.false_eq_true, if_false, records_dropLast hc hr]

/-! ## The two files -/

theorem separates_comma : Separates ',' := ⟨by decide, by decide, by decide⟩

variable {width : Nat} {rows : List (List Cell)}

theorem length_intercalate (sep : Char) (row : List Cell) :
    row.length ≤ ([sep].intercalate row).length + 1 := by
  induction row with
  | nil => simp
  | cons c row ih =>
    by_cases hrow : row = []
    · subst hrow
      simp
    · rw [List.intercalate_cons_of_ne_nil hrow]
      simp only [List.length_append, List.length_cons, List.length_nil]
      omega

theorem Table.toRows {sep : Char} (h : Table width rows) (h3 : 3 ≤ width)
    (hs : ∀ row ∈ rows, ∀ c ∈ row, sep ∉ c) : Rows sep rows := by
  refine ⟨fun row hrow c hc => ?_, fun row hrow => ?_⟩
  · have hp := h.comma row hrow c hc
    exact ⟨hs row hrow c hc, hp.quote, hp.newline, hp.ret⟩
  · have hw := h.width row hrow
    have hlen := length_intercalate sep row
    constructor
    · rintro rfl
      simp at hw
      omega
    · intro he
      rw [he, List.length_nil] at hlen
      omega

/-- Joined with commas the table is read as its cells. -/
theorem read_commas (h : Table width rows) (h3 : 3 ≤ width) (eol : Bool) :
    readAll ',' (fileText ',' rows eol) = some (rows.map (·.map trimLeft)) := by
  have hr := h.toRows h3 fun row hrow c hc => (h.comma row hrow c hc).sep
  rw [readAll_fileText separates_comma hr, readAll_rows separates_comma hr h.width]

/-- Joined with semicolons each row is one cell to the comma reader, which does not fail. -/
theorem read_semicolons (h : Table width rows) (h3 : 3 ≤ width) (eol : Bool) :
    readAll ',' (fileText ';' rows eol) =
      some (rows.map fun row => [trimLeft ([';'].intercalate row)]) := by
  have hr := h.toRows h3 h.semicolon
  have hcomma : ∀ row ∈ rows, ∀ c ∈ row, ',' ∉ c := fun row hrow c hc => (h.comma row hrow c hc).sep
  have hs : Plain ',' [';'] := ⟨by decide, by decide, by decide, by decide⟩
  have hlines := rows_joined hs hr hcomma
  have hfile : fileText ';' rows eol = fileText ',' (rows.map (joined ';')) eol := by
    unfold fileText
    rw [tableText_joined ';' ',']
  rw [hfile, readAll_fileText separates_comma hlines, ← tableText_joined,
    readAll_lines separates_comma hs hr hcomma]

/-! ## What the columns hold -/

theorem columns_lt {header : List Cell} (h3 : 3 ≤ header.length) :
    max (columns header).dateIdx (max (columns header).descIdx (columns header).amountIdx) <
      header.length := by
  have hfind : ∀ (p : Cell → Bool) {i : Nat}, header.findIdx? p = some i → i < header.length :=
    fun p i hi => (List.findIdx?_eq_some_iff_getElem.mp hi).1
  unfold columns
  cases hd : header.findIdx? isDate with
  | none =>
    simp only [if_pos (show 1 < header.length by omega), if_pos (show 2 < header.length by omega),
      Option.getD_some]
    omega
  | some d =>
    cases ha : header.findIdx? isAmount with
    | none =>
      simp only [if_pos (show 1 < header.length by omega),
        if_pos (show 2 < header.length by omega), Option.getD_some]
      omega
    | some a =>
      have h1 := hfind _ hd
      have h2 := hfind _ ha
      cases hs : header.findIdx? isDescription with
      | none =>
        simp only [Option.getD_none]
        omega
      | some s =>
        have h3 := hfind _ hs
        simp only [Option.getD_some]
        omega

/-- A row with all its cells is handed on exactly when it is readable. -/
theorem csvRow_isSome_iff {cols : Columns} {row : List Cell}
    (hlen : max cols.dateIdx (max cols.descIdx cols.amountIdx) < row.length) :
    (csvRow cols row).isSome ↔ Readable cols row := by
  have hdate : postDate [] = none := by decide
  have hamount : valNum [] = none := by decide
  unfold csvRow
  rw [if_neg (not_le.mpr hlen)]
  by_cases hempty : row.getD cols.dateIdx [] = [] ∨ row.getD cols.amountIdx [] = []
  · rw [if_pos hempty]
    refine iff_of_false (by simp) fun hr => ?_
    rcases hempty with he | he
    · have h := hr.date
      rw [he, hdate] at h
      exact absurd h (by simp)
    · have h := hr.amount
      rw [he, hamount] at h
      exact absurd h (by simp)
  · rw [if_neg hempty]
    cases ha : valNum (row.getD cols.amountIdx []) with
    | none =>
      refine iff_of_false (by simp) fun hr => ?_
      have h := hr.amount
      rw [ha] at h
      exact absurd h (by simp)
    | some v =>
      cases hd : postDate (row.getD cols.dateIdx []) with
      | none =>
        refine iff_of_false (by simp) fun hr => ?_
        have h := hr.date
        rw [hd] at h
        exact absurd h (by simp)
      | some d => exact iff_of_true (by simp) ⟨by rw [hd]; rfl, by rw [ha]; rfl⟩

/-! ## No date has a semicolon -/

theorem mem_dropWhile_of_not {p : Char → Bool} {c : Char} {text : List Char} (hp : p c = false)
    (h : c ∈ text) : c ∈ text.dropWhile p := by
  rw [← List.takeWhile_append_dropWhile (p := p) (l := text), List.mem_append] at h
  rcases h with h | h
  · exact absurd (List.mem_takeWhile_imp h) (by simp [hp])
  · exact h

theorem semicolon_of_cons {d : Char} {rest : List Char} (hd : isDigit d = true)
    (h : ';' ∈ d :: rest) : ';' ∈ rest := by
  rcases List.mem_cons.mp h with rfl | h
  · exact absurd hd (by decide)
  · exact h

theorem getnum_semicolon {fixed : Bool} {text : List Char} {r : Nat × List Char}
    (h : getnum fixed text = some r) (hm : ';' ∈ text) : ';' ∈ r.2 := by
  unfold getnum at h
  split at h
  case h_1 a b rest =>
    split at h
    case isTrue ha =>
      have hb := semicolon_of_cons ha hm
      split at h
      case isTrue hdb =>
        obtain rfl := Option.some.inj h
        exact semicolon_of_cons hdb hb
      case isFalse =>
        split at h
        · exact absurd h (by simp)
        · obtain rfl := Option.some.inj h
          exact hb
    case isFalse => exact absurd h (by simp)
  case h_2 a =>
    split at h
    case isTrue ha => exact absurd (semicolon_of_cons ha.1 hm) (by simp)
    case isFalse => exact absurd h (by simp)
  case h_3 => exact absurd hm (by simp)

theorem inRange_rest {lo hi : Nat} {set : Nat → Parsed} {q : Nat × List Char}
    {r : Parsed × List Char} (h : inRange lo hi set q = some r) : r.2 = q.2 := by
  obtain ⟨n, rest⟩ := q
  rw [inRange] at h
  split at h
  · obtain rfl := Option.some.inj h
    rfl
  · exact absurd h (by simp)

theorem fraction_semicolon {p : Parsed} {text : List Char} (hm : ';' ∈ text) :
    ';' ∈ (fraction p text).2 := by
  unfold fraction
  split
  case h_1 point d rest =>
    split
    case isTrue h =>
      refine mem_dropWhile_of_not (by decide) ?_
      rcases List.mem_cons.mp hm with rfl | hm
      · exact absurd h.1 (by decide)
      · exact hm
    case isFalse => exact hm
  case h_2 => exact hm

/-- No element but the semicolon itself reads one. -/
theorem parseStd_semicolon {p : Parsed} {text : List Char} {std : Std} (hs : std ≠ .lit ';')
    {r : Parsed × List Char} (h : parseStd p text std = some r) (hm : ';' ∈ text) : ';' ∈ r.2 := by
  have hnum : ∀ {fixed : Bool} {lo hi : Nat} {set : Nat → Parsed} {r : Parsed × List Char},
      (getnum fixed text).bind (inRange lo hi set) = some r → ';' ∈ r.2 := by
    intro fixed lo hi set r h
    obtain ⟨q, hq, hr⟩ := Option.bind_eq_some_iff.mp h
    rw [inRange_rest hr]
    exact getnum_semicolon hq hm
  have hday : ∀ {fixed : Bool} {set : Nat × List Char → Parsed} {r : Parsed × List Char},
      ((getnum fixed text).map fun q => (set q, q.2)) = some r → ';' ∈ r.2 := by
    intro fixed set r h
    obtain ⟨q, hq, rfl⟩ := Option.map_eq_some_iff.mp h
    exact getnum_semicolon hq hm
  cases std with
  | longYear =>
    rw [parseStd] at h
    split at h
    case isTrue hy =>
      obtain rfl := Option.some.inj h
      rw [← List.take_append_drop 4 text, List.mem_append] at hm
      rcases hm with hm | hm
      · exact absurd (List.all_eq_true.mp hy.1 _ hm) (by decide)
      · exact hm
    case isFalse => exact absurd h (by simp)
  | zeroMonth | numMonth | hour | zeroMinute => exact hnum h
  | zeroDay | day => exact hday h
  | zeroSecond =>
    obtain ⟨q, hq, rfl⟩ := Option.map_eq_some_iff.mp h
    exact fraction_semicolon (hnum hq)
  | lit c =>
    obtain ⟨rest, hrest, rfl⟩ := Option.map_eq_some_iff.mp h
    have hc : c ≠ ';' := fun e => hs (by rw [e])
    unfold skip at hrest
    split at hrest
    case h_1 => exact absurd hm (by simp)
    case h_2 a rest' =>
      split at hrest
      case isTrue => exact absurd hrest (by simp)
      case isFalse ha =>
        have hm' : ';' ∈ rest' := by
          rcases List.mem_cons.mp hm with rfl | hm
          · exact absurd (not_not.mp ha).symm hc
          · exact hm
        obtain rfl := Option.some.inj hrest
        split
        · exact mem_dropWhile_of_not (by decide) hm'
        · exact hm'

theorem parseStds_semicolon {layout : List Std} (hs : .lit ';' ∉ layout) {p : Parsed}
    {text : List Char} {r : Parsed × List Char} (h : parseStds p text layout = some r)
    (hm : ';' ∈ text) : ';' ∈ r.2 := by
  induction layout generalizing p text with
  | nil =>
    obtain rfl := Option.some.inj h
    exact hm
  | cons std layout ih =>
    obtain ⟨q, hq, hr⟩ := Option.bind_eq_some_iff.mp h
    have hstd : std ≠ .lit ';' := fun e => hs (by simp [e])
    exact ih (fun hl => hs (List.mem_cons_of_mem _ hl)) hr (parseStd_semicolon hstd hq hm)

theorem timeParse_semicolon {text : List Char} {layout : List Std} (hs : .lit ';' ∉ layout)
    (hm : ';' ∈ text) : timeParse text layout = none := by
  unfold timeParse
  cases h : parseStds ⟨0, 1, 1, 0, 0, 0, 0⟩ text layout with
  | none => rfl
  | some r =>
    have hr : r.2 ≠ [] := List.ne_nil_of_mem (parseStds_semicolon hs h hm)
    exact if_neg fun hall => hr hall.1

theorem postDate_semicolon {cell : Cell} (hm : ';' ∈ cell) : postDate cell = none := by
  have hnone : dateFormats.findSome? (timeParse cell) = none := by
    rw [List.findSome?_eq_none_iff]
    intro layout hl
    refine timeParse_semicolon ?_ hm
    revert layout
    decide
  unfold postDate
  rw [hnone]
  rfl

/-! ## What is posted -/

theorem semicolon_intercalate {row : List Cell} (h : 2 ≤ row.length) :
    ';' ∈ [';'].intercalate row := by
  match row, h with
  | c :: d :: row, _ => simp [List.intercalate_cons_of_ne_nil]

/-- A line of the table joined with semicolons is no row to the header's columns. -/
theorem csvRow_line {cols : Columns} {row : List Cell} (h : 2 ≤ row.length) :
    csvRow cols [trimLeft ([';'].intercalate row)] = none := by
  have hmem : ';' ∈ trimLeft ([';'].intercalate row) :=
    mem_dropWhile_of_not (by decide) (semicolon_intercalate h)
  have hdate : cols.dateIdx = 0 → postDate ([trimLeft ([';'].intercalate row)].getD cols.dateIdx [])
      = none := by
    intro h0
    rw [h0]
    exact postDate_semicolon hmem
  unfold csvRow
  by_cases hlen : [trimLeft ([';'].intercalate row)].length ≤
      max cols.dateIdx (max cols.descIdx cols.amountIdx)
  · exact if_pos hlen
  · have h0 : cols.dateIdx = 0 := by
      rw [List.length_singleton] at hlen
      omega
    rw [if_neg hlen]
    dsimp only
    rw [hdate h0]
    split
    · rfl
    · cases valNum ([trimLeft ([';'].intercalate row)].getD cols.amountIdx []) <;> rfl

theorem posts_of_read {text : List Char} {header : List Cell} {body : List (List Cell)}
    (h : readAll ',' text = some (header :: body)) :
    (csvFile text).posts = body.filterMap (csvRow (columns header)) := by
  unfold csvFile
  rw [h]
  cases body <;> rfl

/-- **Joined with semicolons, nothing of a table is posted.** -/
theorem semicolons_post_nothing (h : Table width rows) (h3 : 3 ≤ width) (eol : Bool) :
    (csvFile (fileText ';' rows eol)).posts = [] := by
  have hread := read_semicolons h h3 eol
  cases rows with
  | nil =>
    unfold csvFile
    rw [hread]
    rfl
  | cons header body =>
    rw [posts_of_read hread, List.filterMap_eq_nil_iff]
    intro line hline
    obtain ⟨row, hrow, rfl⟩ := List.mem_map.mp hline
    have hw := h.width row (List.mem_cons_of_mem _ hrow)
    exact csvRow_line (by omega)

/-- The upload is answered with a count of nothing or refused, and leaves every state as it is. -/
theorem serve_semicolons (h : Table width rows) (h3 : 3 ≤ width) (eol : Bool) {cfg : PlaidConfig}
    {book : Guid} {account : GuidText} {envs : Nat → Env} {db : Db} :
    (serve (handle cfg book (.importCsv account (csvFile (fileText ';' rows eol)))) envs db).2 =
      db := by
  have hposts := semicolons_post_nothing h h3 eol
  by_cases hacc : account = .malformed ""
  · simp [handle, hacc, refuse, serve]
    rfl
  · cases hfile : csvFile (fileText ';' rows eol) with
    | invalid =>
      simp [handle, hacc, refuse, serve]
      rfl
    | noRecords =>
      simp [handle, hacc, serve]
      rfl
    | rows rs =>
      rw [hfile] at hposts
      obtain rfl : rs = [] := hposts
      simp [handle, hacc, serve, csvLoop]
      rfl

/-- The file of `TestCSVImportSmoke`. -/
def smoke : List (List Cell) :=
  [ ["Date".toList, "Description".toList, "Amount".toList],
    ["2026-01-02".toList, "Coffee".toList, "-4.50".toList],
    ["2026-01-03".toList, "Salary".toList, "1500.00".toList] ]

theorem smoke_table : Table 3 smoke where
  width := by decide
  comma := by
    intro row hrow c hc
    have h : ∀ row ∈ smoke, ∀ c ∈ row, ',' ∉ c ∧ '"' ∉ c ∧ '\n' ∉ c ∧ '\r' ∉ c := by decide
    obtain ⟨h1, h2, h3, h4⟩ := h row hrow c hc
    exact ⟨h1, h2, h3, h4⟩
  semicolon := by decide

end Csv

end Antimoney
