import Antimoney.Writes

/-!
# What the reads answer

A request that only reads answers what its query finds in the state it meets, up to where the read
was cut short.
-/

namespace Antimoney

open Antimoney.Lib Antimoney.Gnc Prog

theorem Env.received_isPrefix {β : Type} (env : Env) (rows : List β) : env.received rows <+: rows := by
  unfold Env.received
  split
  · exact List.prefix_rfl
  · exact List.take_prefix _ _

/-- A call that begins with a statement and is answered. -/
theorem exec_ok {α β : Type} {envs : Nat → Env} {text : String} {q : Stmt β} {f : β → Call α}
    {db : Db} {a : α} {t : Solo SqlErr Db} (h : ((exec text q).bind f).run machine envs (.idle db) = (.ok a, t)) :
    ∃ b v, q.sem (envs 0) db = .ok (b, v) ∧
      (f b).run machine (fun n => envs (n + 1)) (.idle v) = (.ok a, t) :=
  run_sql_ok h

/-- A call that is answered. -/
theorem serve_ok {p : Call Response} {envs : Nat → Env} {db db' : Db} {a : Response}
    (h : serve p envs db = (.ok a, db')) :
    ∃ t, p.run machine envs (.idle db) = (.ok a, t) ∧ t.db = db' := by
  obtain ⟨h₁, h₂⟩ := Prod.mk.inj h
  exact ⟨_, Prod.ext h₁ rfl, h₂⟩

/-- A quantity, as the tree adds it up; one with denominator zero does not count. -/
def Split.amount (s : Split) : ℚ := Fraction.value (s.quantityNum, s.quantityDenom)

theorem sumQuantities_eq (splits : List Split) :
    sumQuantities splits = (splits.map Split.amount).sum := by
  unfold sumQuantities
  induction splits with
  | nil => rfl
  | cons s splits ih =>
    by_cases h : s.quantityDenom = 0
    · simp [Split.quantity, Split.amount, Fraction.value, h, ih]
    · simp [Split.quantity, Split.amount, Fraction.value, h, ih]

/-- The rows of the tree. -/
def Db.tree (db : Db) (book : Guid) (start stop : Option Time) : List AccountBalance :=
  ((db.accounts.filter (·.bookGuid == book)).insertionSort treeLe).map
    (db.accountBalance start stop)

/-- The tree a request is answered. -/
theorem serve_listAccounts {cfg : PlaidConfig} {book : Guid} {start stop : Option (Option Time)}
    {envs : Nat → Env} {db db' : Db} {rows : List AccountBalance}
    (hs : serve (Event.request cfg book (.listAccounts start stop)).call envs db =
      (.ok (.accounts rows), db')) :
    rows <+: db.tree book start.join stop.join := by
  obtain ⟨t, h, -⟩ := serve_ok hs
  obtain ⟨b, v, hx, h⟩ := exec_ok h
  obtain rfl := Response.accounts.inj (Except.ok.inj (congrArg Prod.fst h))
  obtain ⟨⟨all, hall, rfl⟩, -⟩ := Stmt.rowsE_ok hx
  obtain ⟨-, hall⟩ := require_bind hall
  obtain rfl := Except.ok.inj hall
  exact (envs 0).received_isPrefix _

end Antimoney
