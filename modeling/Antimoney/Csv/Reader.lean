import Mathlib.Data.List.Basic

/-!
# The CSV reader

`encoding/csv` as `handleCSVImport` sets it up: `LazyQuotes`, `TrimLeadingSpace`, and the number of
fields of the first record asked of every other (`FieldsPerRecord = 0`). The reader takes one
character after the other; where a line may end or a field begin is its `Mode`.

**`readAll_rows`**: rows of cells without separator, quote or line break are read back as their
cells, without the white space these begin with. Read under a separator that is not in the text,
each line is one cell (`readAll_lines`).
-/

namespace Antimoney.Csv

/-- A field of a record, as the list of its characters. -/
abbrev Cell := List Char

/-- Where the reader stands. -/
inductive Mode where
  /-- at the start of a line; an empty one is skipped -/
  | line
  /-- at the start of a field, whose leading space is skipped -/
  | field
  | bare
  | quoted
  /-- behind a quote inside a quoted field -/
  | quote
  deriving DecidableEq, Repr

structure Reader where
  mode : Mode
  field : Cell
  record : List Cell
  records : List (List Cell)
  deriving DecidableEq, Repr

/-- `unicode.IsSpace`. -/
def isSpace (c : Char) : Bool :=
  c.toNat ∈ [0x9, 0xA, 0xB, 0xC, 0xD, 0x20, 0x85, 0xA0, 0x1680, 0x2000, 0x2001, 0x2002, 0x2003,
    0x2004, 0x2005, 0x2006, 0x2007, 0x2008, 0x2009, 0x200A, 0x2028, 0x2029, 0x202F, 0x205F, 0x3000]

namespace Reader

def init : Reader := ⟨.line, [], [], []⟩

def push (r : Reader) (c : Char) (mode : Mode) : Reader :=
  { r with mode := mode, field := r.field ++ [c] }

def endField (r : Reader) : Reader :=
  { r with mode := .field, field := [], record := r.record ++ [r.field] }

/-- The last field of a line ends the record. -/
def endRecord (r : Reader) : Reader :=
  { mode := .line, field := [], record := [], records := r.records ++ [r.record ++ [r.field]] }

/-- The first character of a field, or of the white space before it. -/
def start (comma : Char) (r : Reader) (c : Char) : Reader :=
  if c = '\n' then r.endRecord
  else if isSpace c then { r with mode := .field }
  else if c = '"' then { r with mode := .quoted }
  else if c = comma then r.endField
  else r.push c .bare

/-- One character of `readRecord`. -/
def next (comma : Char) (r : Reader) (c : Char) : Reader :=
  match r.mode with
  | .line => if c = '\n' then r else r.start comma c
  | .field => r.start comma c
  | .bare =>
    if c = comma then r.endField
    else if c = '\n' then r.endRecord
    else r.push c .bare
  | .quoted => if c = '"' then { r with mode := .quote } else r.push c .quoted
  | .quote =>
    if c = '"' then r.push c .quoted
    else if c = comma then r.endField
    else if c = '\n' then r.endRecord
    -- a bare quote inside the field (`LazyQuotes`)
    else (r.push '"' .quoted).push c .quoted

/-- The end of the file ends the record; a quoted field may still be open (`LazyQuotes`). -/
def finish (r : Reader) : List (List Cell) :=
  match r.mode with
  | .line => r.records
  | .field | .bare | .quoted | .quote => r.endRecord.records

end Reader

/-- `readLine`: `\r\n` is a line break, and a `\r` before the end of the file is dropped. -/
def readLine : List Char → List Char
  | [] => []
  | ['\r'] => []
  | '\r' :: '\n' :: text => '\n' :: readLine text
  | c :: text => c :: readLine text

/-- The records of a text, before their fields are counted. -/
def records (comma : Char) (text : List Char) : List (List Cell) :=
  ((readLine text).foldl (Reader.next comma) Reader.init).finish

/-- `ReadAll`; nothing for `ErrFieldCount`, the only error left under `LazyQuotes`. -/
def readAll (comma : Char) (text : List Char) : Option (List (List Cell)) :=
  if (records comma text).all (·.length == ((records comma text).headD []).length) then
    some (records comma text)
  else none

/-! ## Reading plain rows -/

/-- The text of a row: its cells joined by the separator, and a line break. -/
def rowText (sep : Char) (row : List Cell) : List Char := [sep].intercalate row ++ ['\n']

def tableText (sep : Char) (rows : List (List Cell)) : List Char := rows.flatMap (rowText sep)

/-- `TrimLeadingSpace`. -/
def trimLeft (cell : Cell) : Cell := cell.dropWhile isSpace

/-- What may separate fields. -/
structure Separates (comma : Char) : Prop where
  newline : comma ≠ '\n'
  space : isSpace comma = false
  quote : comma ≠ '"'

/-- A cell that stands for itself between separators. -/
structure Plain (sep : Char) (cell : Cell) : Prop where
  sep : sep ∉ cell
  quote : '"' ∉ cell
  newline : '\n' ∉ cell
  ret : '\r' ∉ cell

theorem Plain.of_cons {sep c : Char} {cell : Cell} (h : Plain sep (c :: cell)) :
    c ≠ sep ∧ c ≠ '"' ∧ c ≠ '\n' ∧ Plain sep cell := by
  refine ⟨fun e => h.sep (by simp [e]), fun e => h.quote (by simp [e]),
    fun e => h.newline (by simp [e]), ?_⟩
  exact ⟨fun hc => h.sep (List.mem_cons_of_mem _ hc), fun hc => h.quote (List.mem_cons_of_mem _ hc),
    fun hc => h.newline (List.mem_cons_of_mem _ hc), fun hc => h.ret (List.mem_cons_of_mem _ hc)⟩

namespace Reader

variable {comma : Char} {r : Reader} {cell : Cell}

theorem foldl_bare (hp : Plain comma cell) (hm : r.mode = .bare) :
    cell.foldl (next comma) r = { r with field := r.field ++ cell } := by
  induction cell generalizing r with
  | nil => simp
  | cons c cell ih =>
    obtain ⟨hsep, -, hnl, hp'⟩ := hp.of_cons
    have hstep : next comma r c = r.push c .bare := by
      unfold next
      rw [hm]
      simp only [if_neg hsep, if_neg hnl]
    rw [List.foldl_cons, hstep, ih hp' rfl]
    simp [push, hm]

/-- The reader `r'` stands behind a plain field that `r` stood before. -/
structure Behind (r r' : Reader) (cell : Cell) : Prop where
  field : r'.field = trimLeft cell
  record : r'.record = r.record
  records : r'.records = r.records
  mode : r'.mode = .bare ∨
    r'.field = [] ∧ (r'.mode = .field ∨ r'.mode = r.mode ∧ cell = [])

/-- What the reader makes of a plain field: its leading space is gone. -/
theorem foldl_cell (hp : Plain comma cell) (hm : r.mode = .line ∨ r.mode = .field)
    (hf : r.field = []) : Behind r (cell.foldl (next comma) r) cell := by
  induction cell generalizing r with
  | nil => exact ⟨hf, rfl, rfl, .inr ⟨hf, .inr ⟨rfl, rfl⟩⟩⟩
  | cons c cell ih =>
    obtain ⟨hsep, hquote, hnl, hp'⟩ := hp.of_cons
    have hstep : next comma r c = r.start comma c := by
      unfold next
      rcases hm with hm | hm <;> rw [hm]
      simp only [if_neg hnl]
    rw [List.foldl_cons, hstep]
    unfold start
    rw [if_neg hnl]
    by_cases hs : isSpace c = true
    · rw [if_pos hs]
      have h := ih (r := { r with mode := .field }) hp' (.inr rfl) hf
      refine ⟨?_, h.record, h.records, ?_⟩
      · rw [h.field]
        exact (List.dropWhile_cons_of_pos hs).symm
      · rcases h.mode with h' | ⟨h', h'' | ⟨h'', -⟩⟩
        · exact .inl h'
        · exact .inr ⟨h', .inl h''⟩
        · exact .inr ⟨h', .inl h''⟩
    · rw [if_neg hs, if_neg hquote, if_neg hsep, foldl_bare hp' rfl]
      refine ⟨?_, rfl, rfl, .inl rfl⟩
      have ht : trimLeft (c :: cell) = c :: cell := List.dropWhile_cons_of_neg hs
      rw [ht]
      simp [push, hf]

theorem Behind.next_comma {r' : Reader} (h : Behind r r' cell) (hc : Separates comma)
    (hm : r.mode = .line ∨ r.mode = .field) :
    next comma r' comma = ⟨.field, [], r.record ++ [trimLeft cell], r.records⟩ := by
  have hend : r'.endField = ⟨.field, [], r.record ++ [trimLeft cell], r.records⟩ := by
    unfold endField
    rw [h.field, h.record, h.records]
  have hstart : r'.start comma comma = r'.endField := by
    unfold start
    rw [if_neg hc.newline, if_neg (by simp [hc.space]), if_neg hc.quote, if_pos rfl]
  rw [← hend]
  unfold next
  rcases h.mode with hb | ⟨-, hb | ⟨hb, -⟩⟩
  · rw [hb]
    exact if_pos rfl
  · rw [hb]
    exact hstart
  · rcases hm with hm | hm <;> rw [hb, hm]
    · exact (if_neg hc.newline).trans hstart
    · exact hstart

/-- A line break ends the record, unless the line is empty. -/
theorem Behind.next_newline {r' : Reader} (h : Behind r r' cell) (hc : Separates comma)
    (hm : r.mode = .line ∧ cell ≠ [] ∨ r.mode = .field) :
    next comma r' '\n' = ⟨.line, [], [], r.records ++ [r.record ++ [trimLeft cell]]⟩ := by
  have hend : r'.endRecord = ⟨.line, [], [], r.records ++ [r.record ++ [trimLeft cell]]⟩ := by
    unfold endRecord
    rw [h.field, h.record, h.records]
  have hstart : r'.start comma '\n' = r'.endRecord := if_pos rfl
  rw [← hend]
  unfold next
  rcases h.mode with hb | ⟨-, hb | ⟨hb, he⟩⟩
  · rw [hb]
    exact (if_neg hc.newline.symm).trans (if_pos rfl)
  · rw [hb]
    exact hstart
  · rcases hm with ⟨-, hne⟩ | hm
    · exact absurd he hne
    · rw [hb, hm]
      exact hstart

/-- A row, from the start of its line or of a field. -/
theorem foldl_row (hc : Separates comma) {row : List Cell} (hp : ∀ c ∈ row, Plain comma c)
    (hne : row ≠ []) (hm : r.mode = .line ∧ [comma].intercalate row ≠ [] ∨ r.mode = .field)
    (hf : r.field = []) :
    (rowText comma row).foldl (next comma) r =
      ⟨.line, [], [], r.records ++ [r.record ++ row.map trimLeft]⟩ := by
  unfold rowText
  induction row generalizing r with
  | nil => exact absurd rfl hne
  | cons c row ih =>
    have hm' : r.mode = .line ∨ r.mode = .field := hm.imp And.left id
    have hb := foldl_cell (hp c List.mem_cons_self) hm' hf
    by_cases hrow : row = []
    · subst hrow
      have hm'' : r.mode = .line ∧ c ≠ [] ∨ r.mode = .field := by simpa using hm
      simpa using hb.next_newline hc hm''
    · have htail := ih (r := ⟨.field, [], r.record ++ [trimLeft c], r.records⟩)
        (fun x hx => hp x (List.mem_cons_of_mem _ hx)) hrow (.inr rfl) rfl
      rw [List.intercalate_cons_of_ne_nil hrow, List.append_assoc, List.append_assoc,
        List.foldl_append, List.singleton_append, List.foldl_cons, hb.next_comma hc hm', htail]
      simp

end Reader

theorem mem_intercalate {sep ch : Char} {row : List Cell} (h : ch ∈ [sep].intercalate row) :
    ch = sep ∨ ∃ c ∈ row, ch ∈ c := by
  induction row with
  | nil => exact absurd h (by simp)
  | cons c row ih =>
    by_cases hrow : row = []
    · subst hrow
      exact .inr ⟨c, List.mem_cons_self, by simpa using h⟩
    · rw [List.intercalate_cons_of_ne_nil hrow, List.append_assoc, List.mem_append,
        List.singleton_append, List.mem_cons] at h
      rcases h with h | h | h
      · exact .inr ⟨c, List.mem_cons_self, h⟩
      · exact .inl h
      · obtain h' | ⟨d, hd, hch⟩ := ih h
        · exact .inl h'
        · exact .inr ⟨d, List.mem_cons_of_mem _ hd, hch⟩

theorem readLine_of_notMem {text : List Char} (h : '\r' ∉ text) : readLine text = text := by
  induction text with
  | nil => rfl
  | cons c text ih =>
    have hc : c ≠ '\r' := fun e => h (by simp [e])
    have ih' := ih fun hm => h (List.mem_cons_of_mem _ hm)
    rw [readLine]
    · rw [ih']
    · exact fun e _ => hc e
    · exact fun _ e _ => hc e

/-- The rows of a text whose separator is `comma`: none is an empty line. -/
structure Rows (comma : Char) (rows : List (List Cell)) : Prop where
  plain : ∀ row ∈ rows, ∀ c ∈ row, Plain comma c
  nonempty : ∀ row ∈ rows, row ≠ [] ∧ [comma].intercalate row ≠ []

theorem Rows.tail {comma : Char} {row : List Cell} {rows : List (List Cell)}
    (h : Rows comma (row :: rows)) : Rows comma rows :=
  ⟨fun x hx => h.plain x (List.mem_cons_of_mem _ hx),
    fun x hx => h.nonempty x (List.mem_cons_of_mem _ hx)⟩

/-- One record of each row. -/
theorem foldl_table {comma : Char} (hc : Separates comma) {rows : List (List Cell)}
    (hr : Rows comma rows) (done : List (List Cell)) :
    (tableText comma rows).foldl (Reader.next comma) ⟨.line, [], [], done⟩ =
      ⟨.line, [], [], done ++ rows.map (·.map trimLeft)⟩ := by
  unfold tableText
  induction rows generalizing done with
  | nil => simp
  | cons row rows ih =>
    obtain ⟨hne, htext⟩ := hr.nonempty row List.mem_cons_self
    have hrow := Reader.foldl_row (r := ⟨.line, [], [], done⟩) hc
      (hr.plain row List.mem_cons_self) hne (.inl ⟨rfl, htext⟩) rfl
    rw [List.flatMap_cons, List.foldl_append, hrow, ih hr.tail]
    simp

theorem ret_notMem_tableText {comma : Char} (hs : comma ≠ '\r') {rows : List (List Cell)}
    (hr : Rows comma rows) : '\r' ∉ tableText comma rows := by
  unfold tableText rowText
  intro h
  obtain ⟨row, hrow, hmem⟩ := List.mem_flatMap.mp h
  rcases List.mem_append.mp hmem with hmem | hmem
  · obtain e | ⟨c, hc, hmem⟩ := mem_intercalate hmem
    · exact hs e.symm
    · exact (hr.plain row hrow c hc).ret hmem
  · exact absurd hmem (by decide)

/-- **Rows are read back as their cells**, trimmed on the left. -/
theorem readAll_rows {comma : Char} {width : Nat} (hc : Separates comma) {rows : List (List Cell)}
    (hr : Rows comma rows) (hw : ∀ row ∈ rows, row.length = width) :
    readAll comma (tableText comma rows) = some (rows.map (·.map trimLeft)) := by
  have hret : comma ≠ '\r' := by
    rintro rfl
    exact absurd hc.space (by decide)
  have hrec : records comma (tableText comma rows) = rows.map (·.map trimLeft) := by
    unfold records
    rw [readLine_of_notMem (ret_notMem_tableText hret hr)]
    have h := foldl_table hc hr []
    rw [Reader.init, h]
    rfl
  unfold readAll
  rw [hrec, if_pos]
  rw [List.all_eq_true]
  intro r hmem
  obtain ⟨row, hrow, rfl⟩ := List.mem_map.mp hmem
  cases rows with
  | nil => exact absurd hrow (by simp)
  | cons first rows =>
    have h1 := hw row hrow
    have h2 := hw first List.mem_cons_self
    simp [h1, h2]

/-- Joined with a separator the reader does not look for, each row is a single cell. -/
def joined (sep : Char) (row : List Cell) : List Cell := [[sep].intercalate row]

theorem tableText_joined (sep comma : Char) (rows : List (List Cell)) :
    tableText sep rows = tableText comma (rows.map (joined sep)) := by
  unfold tableText rowText joined
  rw [List.flatMap_map]
  simp

theorem rows_joined {comma sep : Char} (hs : Plain comma [sep]) {rows : List (List Cell)}
    (hr : Rows sep rows) (hcomma : ∀ row ∈ rows, ∀ c ∈ row, comma ∉ c) :
    Rows comma (rows.map (joined sep)) := by
  constructor
  · intro line hline c hmem
    obtain ⟨row, hrow, rfl⟩ := List.mem_map.mp hline
    obtain rfl := List.mem_singleton.mp hmem
    have hnot : ∀ ch : Char, ch ∉ [sep] → (∀ x ∈ row, ch ∉ x) → ch ∉ [sep].intercalate row := by
      intro ch hsep hcells hmem
      obtain e | ⟨x, hx, hch⟩ := mem_intercalate hmem
      · exact hsep (by simp [e])
      · exact hcells x hx hch
    exact ⟨hnot _ hs.sep (hcomma row hrow),
      hnot _ hs.quote fun x hx => (hr.plain row hrow x hx).quote,
      hnot _ hs.newline fun x hx => (hr.plain row hrow x hx).newline,
      hnot _ hs.ret fun x hx => (hr.plain row hrow x hx).ret⟩
  · intro line hline
    obtain ⟨row, hrow, rfl⟩ := List.mem_map.mp hline
    exact ⟨by simp [joined], by simpa [joined] using (hr.nonempty row hrow).2⟩

/-- **Under a separator that is not in the text each line is one cell.** -/
theorem readAll_lines {comma sep : Char} (hc : Separates comma) (hs : Plain comma [sep])
    {rows : List (List Cell)} (hr : Rows sep rows) (hcomma : ∀ row ∈ rows, ∀ c ∈ row, comma ∉ c) :
    readAll comma (tableText sep rows) =
      some (rows.map fun row => [trimLeft ([sep].intercalate row)]) := by
  have hwidth : ∀ line ∈ rows.map (joined sep), line.length = 1 := by
    intro line hline
    obtain ⟨row, -, rfl⟩ := List.mem_map.mp hline
    rfl
  rw [tableText_joined sep comma, readAll_rows hc (rows_joined hs hr hcomma) hwidth]
  simp [joined]

end Antimoney.Csv
