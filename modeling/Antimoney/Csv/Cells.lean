import Antimoney.Csv.Reader
import Antimoney.Floats
import Antimoney.Server

/-!
# The cells of a CSV file

`handleCSVImport` between the reader and `CreateTransaction`: which columns it takes, how it reads
a date and an amount, and the rows that are left (`csvFile`).
-/

namespace Antimoney.Csv

/-! ## Amounts -/

def isDigit (c : Char) : Bool := '0' ≤ c && c ≤ '9'

/-- The amount cleaned: currency symbols and spaces go, and a comma is a thousands separator unless
it alone is followed by two characters. -/
def cleanAmount (cell : Cell) : List Char :=
  let kept := cell.filter fun c => isDigit c || c == '-' || c == '.' || c == ','
  if ',' ∈ cell ∧ '.' ∈ cell then kept.filter (· ≠ ',')
  else if ',' ∈ kept then
    match kept.splitOn ',' with
    | [whole, cents] =>
      if cents.length = 2 then whole ++ '.' :: cents else kept.filter (· ≠ ',')
    | _ => kept.filter (· ≠ ',')
  else kept

/-- The number a list of digits writes. -/
def digitsNat (digits : List Char) : Nat :=
  digits.foldl (fun n c => 10 * n + (c.toNat - '0'.toNat)) 0

/-- The number written as digits with at most one point among them. -/
def parseDecimal (number : List Char) : Option ℚ :=
  let whole := number.takeWhile isDigit
  let rest := number.dropWhile isDigit
  let frac := rest.tail
  if rest = [] ∨ rest.head? = some '.' ∧ frac.all isDigit then
    if whole ++ frac = [] then none else some (digitsNat (whole ++ frac) / 10 ^ frac.length)
  else none

/-- `strconv.ParseFloat` of a text of digits, points and minus signs. What rounds to `2 ^ 1024` is
out of range. -/
def parseFloat (text : List Char) : Option ℚ := do
  let neg := text.head? = some '-'
  let exact ← parseDecimal (if neg then text.tail else text)
  let amount := float64 (if neg then -exact else exact)
  if 2 ^ 1024 ≤ |amount| then none else some amount

/-- `valNum`: the cents of a cell, `int64(amount * 100)`. -/
def valNum (cell : Cell) : Option Int64 :=
  (parseFloat (cleanAmount cell)).map fun amount => goInt64 (float64 (amount * 100))

/-! ## Dates -/

/-- An element of a layout of `time.Parse`. -/
inductive Std where
  | longYear
  | zeroMonth
  | numMonth
  | zeroDay
  | day
  | hour
  | zeroMinute
  | zeroSecond
  | lit (c : Char)
  deriving DecidableEq, Repr

/-- The locals of `time.Parse`. -/
structure Parsed where
  year : Nat
  month : Nat
  day : Nat
  hour : Nat
  min : Nat
  sec : Nat
  nsec : Nat
  deriving DecidableEq, Repr

/-- `getnum`: two digits, or one where `fixed` does not ask for both. -/
def getnum (fixed : Bool) : List Char → Option (Nat × List Char)
  | a :: b :: rest =>
    if isDigit a then
      if isDigit b then some (digitsNat [a, b], rest)
      else if fixed then none else some (digitsNat [a], b :: rest)
    else none
  | [a] => if isDigit a ∧ !fixed then some (digitsNat [a], []) else none
  | [] => none

/-- `skip` of one character: a space stands for any number of them, and for none at the end. -/
def skip (c : Char) : List Char → Option (List Char)
  | [] => if c = ' ' then some [] else none
  | a :: rest => if a ≠ c then none else some (if c = ' ' then rest.dropWhile (· == ' ') else rest)

/-- A number within bounds, put where it belongs. -/
def inRange (lo hi : Nat) (set : Nat → Parsed) : Nat × List Char → Option (Parsed × List Char)
  | (n, rest) => if lo ≤ n ∧ n ≤ hi then some (set n, rest) else none

/-- A fraction behind the seconds, which no layout has: nine digits of it count. -/
def fraction (p : Parsed) : List Char → Parsed × List Char
  | point :: d :: rest =>
    if (point = '.' ∨ point = ',') ∧ isDigit d then
      let digits := ((d :: rest).takeWhile isDigit).take 9
      ({ p with nsec := digitsNat digits * 10 ^ (9 - digits.length) },
        (d :: rest).dropWhile isDigit)
    else (p, point :: d :: rest)
  | rest => (p, rest)

/-- One element of the layout. -/
def parseStd (p : Parsed) (text : List Char) : Std → Option (Parsed × List Char)
  | .longYear =>
    if (text.take 4).all isDigit ∧ 4 ≤ text.length then
      some ({ p with year := digitsNat (text.take 4) }, text.drop 4)
    else none
  | .zeroMonth => (getnum true text).bind (inRange 1 12 fun n => { p with month := n })
  | .numMonth => (getnum false text).bind (inRange 1 12 fun n => { p with month := n })
  | .zeroDay => (getnum true text).map fun r => ({ p with day := r.1 }, r.2)
  | .day => (getnum false text).map fun r => ({ p with day := r.1 }, r.2)
  | .hour => (getnum false text).bind (inRange 0 23 fun n => { p with hour := n })
  | .zeroMinute => (getnum true text).bind (inRange 0 59 fun n => { p with min := n })
  | .zeroSecond =>
    ((getnum true text).bind (inRange 0 59 fun n => { p with sec := n })).map fun r =>
      fraction r.1 r.2
  | .lit c => (skip c text).map fun rest => (p, rest)

def isLeap (year : Nat) : Bool := year % 4 == 0 && (year % 100 != 0 || year % 400 == 0)

def daysIn (year month : Nat) : Nat :=
  if month = 2 then (if isLeap year then 29 else 28)
  else if month ∈ [4, 6, 9, 11] then 30 else 31

/-- `time.Date`'s days, from 1970. -/
def daysSinceEpoch (p : Parsed) : Day :=
  let y : Int := p.year - 1
  let before : Nat := ((List.range (p.month - 1)).map fun m => daysIn p.year (m + 1)).sum
  365 * y + y / 4 - y / 100 + y / 400 + before + (p.day - 1) - 719162

/-- The elements of a layout in turn. -/
def parseStds (p : Parsed) (text : List Char) : List Std → Option (Parsed × List Char)
  | [] => some (p, text)
  | std :: layout => (parseStd p text std).bind fun r => parseStds r.1 r.2 layout

/-- `time.Parse`: the layout to the end of the text, and a day its month has. -/
def timeParse (text : List Char) (layout : List Std) : Option Parsed :=
  (parseStds ⟨0, 1, 1, 0, 0, 0, 0⟩ text layout).bind fun r =>
    if r.2 = [] ∧ 1 ≤ r.1.day ∧ r.1.day ≤ daysIn r.1.year r.1.month then some r.1 else none

/-- `dateFormats`. -/
def dateFormats : List (List Std) :=
  [ [.longYear, .lit '-', .zeroMonth, .lit '-', .zeroDay],
    [.zeroDay, .lit '/', .zeroMonth, .lit '/', .longYear],
    [.zeroMonth, .lit '/', .zeroDay, .lit '/', .longYear],
    [.longYear, .lit '/', .zeroMonth, .lit '/', .zeroDay],
    [.zeroDay, .lit '-', .zeroMonth, .lit '-', .longYear],
    [.numMonth, .lit '/', .day, .lit '/', .longYear],
    [.day, .lit '/', .numMonth, .lit '/', .longYear],
    [.longYear, .lit '-', .zeroMonth, .lit '-', .zeroDay, .lit ' ', .hour, .lit ':', .zeroMinute,
      .lit ':', .zeroSecond] ]

/-- `postDate`: the first format that fits; the zero time counts as none (`IsZero`). -/
def postDate (cell : Cell) : Option GoTime :=
  (dateFormats.findSome? (timeParse cell)).bind fun p =>
    if p = ⟨1, 1, 1, 0, 0, 0, 0⟩ then none
    else some ⟨daysSinceEpoch p, p.hour * 3600 + p.min * 60 + p.sec⟩

/-! ## Columns and rows -/

/-- `strings.ToLower`, as far as ASCII keywords are found in its result: besides the capitals, `İ`
and the Kelvin sign have ASCII lower cases. -/
def toLower (cell : Cell) : Cell :=
  cell.map fun c => if c.toNat = 0x130 then 'i' else if c.toNat = 0x212A then 'k' else c.toLower

/-- `strings.Contains(colLower, keyword)`. -/
def mentions (cell : Cell) (keyword : String) : Bool :=
  decide (keyword.toList <:+: toLower cell)

/-- The columns that hold the date, the description and the amount. -/
structure Columns where
  dateIdx : Nat
  descIdx : Nat
  amountIdx : Nat
  deriving DecidableEq, Repr

def isDate (col : Cell) : Bool := mentions col "date"

def isDescription (col : Cell) : Bool :=
  mentions col "description" || mentions col "memo" || mentions col "payee"

/-- A lower case word is equal under folding to `amount` or `value` only when it is that word. -/
def isAmount (col : Cell) : Bool :=
  mentions col "amount num" || toLower col == "amount".toList ||
    mentions col "value num" || toLower col == "value".toList

/-- The header detection, with its fallback to positions. -/
def columns (header : List Cell) : Columns :=
  let descIdx := header.findIdx? isDescription
  match header.findIdx? isDate, header.findIdx? isAmount with
  | some d, some a => ⟨d, descIdx.getD d, a⟩
  | _, _ =>
    ⟨0, (if 1 < header.length then some 1 else descIdx).getD 0, if 2 < header.length then 2 else 1⟩

/-- A data row that reaches `CreateTransaction`; any other is skipped. -/
def csvRow (cols : Columns) (row : List Cell) : Option CsvRow :=
  if row.length ≤ max cols.dateIdx (max cols.descIdx cols.amountIdx) then none
  else
    let dateStr := row.getD cols.dateIdx []
    let amountStr := row.getD cols.amountIdx []
    if dateStr = [] ∨ amountStr = [] then none
    else do
      let valNum ← valNum amountStr
      let postDate ← postDate dateStr
      return ⟨postDate, String.ofList (row.getD cols.descIdx []), valNum⟩

/-- What `handleCSVImport` makes of a file: semicolons are tried when the commas fail. -/
def csvFile (text : List Char) : CsvFile :=
  match (readAll ',' text).orElse fun _ => readAll ';' text with
  | none => .invalid
  | some [] | some [_] => .noRecords
  | some (header :: rows) => .rows (rows.filterMap (csvRow (columns header)))

end Antimoney.Csv
