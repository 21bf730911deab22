import Antimoney.Plaid.Crypto
import Antimoney.Services.Register
import Mathlib.Data.Nat.Pairing

/-!
# The categorizer

`internal/plaid/categorizer.go`. Case folding and trimming depend on Unicode tables that are not
part of the repository: `TextOps` stands for them.
-/

namespace Antimoney

open Antimoney.Lib

/-- The text functions of Go and of the database. -/
structure TextOps where
  /-- `strings.ToLower`. -/
  toLower : String → String
  /-- `strings.TrimSpace`. -/
  trimSpace : String → String
  /-- SQL `LOWER`. -/
  sqlLower : String → String

/-- SQL `TRIM`: blanks at both ends. -/
def sqlTrim (s : String) : String :=
  String.ofList (((s.toList.dropWhile (· == ' ')).reverse.dropWhile (· == ' ')).reverse)

/-- `strings.NewReplacer` of the `LIKE` metacharacters. -/
def escapeLike : List Char → List Char
  | [] => []
  | c :: cs =>
    if c = '\\' ∨ c = '%' ∨ c = '_' then '\\' :: c :: escapeLike cs else c :: escapeLike cs

/-- SQL `LIKE … ESCAPE '\'`: the pattern first. -/
def likeMatch : List Char → List Char → Bool
  | [], s => s.isEmpty
  | '\\' :: c :: p, x :: xs => c == x && likeMatch p xs
  | '\\' :: _, _ => false
  | '%' :: p, s => s.tails.any (likeMatch p)
  | '_' :: p, _ :: xs => likeMatch p xs
  | c :: p, x :: xs => c == x && likeMatch p xs
  | _ :: _, [] => false

/-- The two conditions of the passes. -/
inductive MatchMode where
  | exact
  | substring
  deriving DecidableEq, Repr

/-- A description meets a condition with a parameter. -/
def MatchMode.holds (ops : TextOps) (mode : MatchMode) (param description : String) : Bool :=
  match mode with
  | .exact => ops.sqlLower (sqlTrim description) == param
  | .substring =>
    likeMatch ('%' :: param.toList ++ ['%']) (ops.sqlLower description).toList

/-- The normalized description of the search. -/
def normalized (ops : TextOps) (description : String) : String :=
  ops.toLower (ops.trimSpace description)

/-- The parameter of a pass. -/
def MatchMode.param (mode : MatchMode) (q : String) : String :=
  match mode with
  | .exact => q
  | .substring => String.ofList (escapeLike q.toList)

/-- `ORDER BY t.post_date DESC, t.guid DESC`, ties by rank. -/
def historyLe (ties : Guid → Nat) (a b : Transaction × Split) : Prop :=
  b.1.postDate < a.1.postDate ∨ (a.1.postDate = b.1.postDate ∧
    (b.1.guid < a.1.guid ∨ (a.1.guid = b.1.guid ∧ ties a.2.guid ≤ ties b.2.guid)))

instance (ties : Guid → Nat) : DecidableRel (historyLe ties) := fun a b => by
  unfold historyLe
  infer_instance

/-- The account types of the bank side. -/
def bankTypes : List String := ["BANK", "ASSET", "CASH", "ROOT"]

/-- An account of the book that may be suggested. -/
def Db.counterAccount (db : Db) (book g : Guid) : Bool :=
  db.accounts.any fun a => a.guid == g && a.bookGuid == book && !bankTypes.contains a.accountType

/-- The joined rows of the search: the splits, on such accounts, of the book's transactions that
match. -/
def Db.matching (db : Db) (ops : TextOps) (book : Guid) (mode : MatchMode) (param : String) :
    List (Transaction × Split) :=
  db.joinTxns fun t s =>
    t.bookGuid == book && mode.holds ops param t.description && db.counterAccount book s.accountGuid

/-- The rows in order. -/
def Db.history (db : Db) (ops : TextOps) (book : Guid) (mode : MatchMode) (param : String)
    (ties : Guid → Nat) : List (Transaction × Split) :=
  (db.matching ops book mode param).insertionSort (historyLe ties)

/-- `baseSQL`: the first row. -/
def selectCategory (ops : TextOps) (book : Guid) (mode : MatchMode) (param : String) :
    Stmt (Option Guid) :=
  .ordered fun ties => .query fun db =>
    ((db.history ops book mode param ties).head?).map (·.2.accountGuid)

/-- `batchSQL`: the first row of each pattern; the rows of each may tie in an order of its own. -/
def selectCategories (ops : TextOps) (book : Guid) (mode : MatchMode)
    (pats : List (String × Nat)) : Stmt (List (Nat × Guid)) :=
  .ordered fun ties => .query fun db => pats.filterMap fun p =>
    ((db.history ops book mode p.1 fun g => ties (Nat.pair p.2 g)).head?).map
      fun r => (p.2, r.2.accountGuid)

/-- `Suggest`. -/
def suggest (ops : TextOps) (book : Guid) (description : String) : Call (Option Guid) := do
  let q := normalized ops description
  if q = "" then return none
  else
    match ← reply (selectCategory ops book .exact (MatchMode.exact.param q)) with
    | .error _ => return none
    | .ok (some g) => return some g
    | .ok none =>
      match ← reply (selectCategory ops book .substring (MatchMode.substring.param q)) with
      | .error _ => return none
      | .ok r => return r

/-- `suggestPerRow`. -/
def suggestPerRow (ops : TextOps) (book : Guid) : List String → Call (List (Option Guid))
  | [] => return []
  | d :: ds => do
    let g ← suggest ops book d
    let gs ← suggestPerRow ops book ds
    return g :: gs

/-- The patterns of a pass: the descriptions not blank and not answered yet, with their indices. -/
def passPatterns (ops : TextOps) (mode : MatchMode) (out : List (Option Guid))
    (descriptions : List String) : List (String × Nat) :=
  ((descriptions.zip out).zipIdx).filterMap fun r =>
    let q := normalized ops r.1.1
    if r.1.2.isSome ∨ q = "" then none else some (mode.param q, r.2)

/-- `out[orig] = guid`, row by row. -/
def fillOut (out : List (Option Guid)) (rows : List (Nat × Guid)) : List (Option Guid) :=
  rows.foldl (fun out r => out.set r.1 (some r.2)) out

/-- `runBatch` over the patterns of a pass; nothing is asked when there are none. -/
def runPass (ops : TextOps) (book : Guid) (mode : MatchMode) (descriptions : List String)
    (out : List (Option Guid)) : Call (Option (List (Option Guid))) := do
  let pats := passPatterns ops mode out descriptions
  if pats.isEmpty then return some out
  else
    match ← reply (selectCategories ops book mode pats) with
    | .error _ => return none
    | .ok rows => return some (fillOut out rows)

/-- `SuggestBatch`. -/
def suggestBatch (ops : TextOps) (book : Guid) (descriptions : List String) :
    Call (List (Option Guid)) := do
  let out := descriptions.map fun _ => none
  match ← runPass ops book .exact descriptions out with
  | none => suggestPerRow ops book descriptions
  | some out =>
    match ← runPass ops book .substring descriptions out with
    | none => suggestPerRow ops book descriptions
    | some out => return out

end Antimoney
