import Antimoney.Founding.Registration

/-!
# Who owns a book

A book belongs to the user it was made for. Rows of `users` and `books` come, but none goes, and
none of them changes hands.

* `handle_keepsOwners`: a request leaves both tables, but for the roots of books.
* `registerUser_enrolls`: a registration adds to them, and what it answers is in them.
-/

namespace Antimoney

open Antimoney.Lib Prog

/-- The book, with the user it belongs to. -/
def Book.owner (b : Book) : Guid × Guid := (b.guid, b.userId)

/-- The books of the database, with their users. -/
def Db.owners (db : Db) : List (Guid × Guid) := db.books.map Book.owner

/-- Users and books come after those that are there. -/
structure Enrolls (x y : Db) : Prop where
  users : x.users <+: y.users
  owners : x.owners <+: y.owners

/-- Users and books have keys of their own. -/
structure Db.Named (db : Db) : Prop where
  users : (db.users.map (·.id)).Nodup
  books : (db.owners.map Prod.fst).Nodup

/-- The statement leaves the users, and the books with the users they belong to. -/
def KeepsOwners {β : Type} (q : Stmt β) : Prop :=
  ∀ ⦃env : Env⦄ ⦃v v' : Db⦄ ⦃b : β⦄, q.sem env v = .ok (b, v') →
    v'.users = v.users ∧ v'.owners = v.owners

theorem Enrolls.refl (x : Db) : Enrolls x x := ⟨List.prefix_rfl, List.prefix_rfl⟩

theorem Enrolls.trans {x y z : Db} (h : Enrolls x y) (h' : Enrolls y z) : Enrolls x z :=
  ⟨h.users.trans h'.users, h.owners.trans h'.owners⟩

theorem Db.named_empty : Db.empty.Named := by
  constructor <;> simp [Db.empty, Db.owners]

/-- One user owns a book. -/
theorem Db.Named.owner_unique {db : Db} (h : db.Named) {book u u' : Guid}
    (hu : (book, u) ∈ db.owners) (hu' : (book, u') ∈ db.owners) : u = u' :=
  congrArg Prod.snd (List.inj_on_of_nodup_map h.books hu hu' rfl)

section Statements

variable {book : Guid} {β : Type} {q : Stmt β}

theorem keepsOwners_of (h : KeepsBooks q) : KeepsOwners q := by
  intro env v v' b hx
  have hsame := h hx
  exact ⟨hsame.users, congrArg (List.map Book.owner) hsame.books⟩

theorem keepsOwners_setBookRoot (r : Option Guid) : KeepsOwners (setBookRoot book r) := by
  intro env v v' b hx
  rw [(setBookRoot_ok ((setBookRoot book r).write_self hx)).2]
  refine ⟨rfl, map_updateWhere ?_ v.books⟩
  exact fun _ => rfl

theorem keepsOwners_insertSeedAccount (d : AcctDef) (p : Option Guid) (ph : Bool) :
    KeepsOwners (insertSeedAccountStmt book d p ph) := by
  intro env v v' b hx
  obtain ⟨a, -, -, rfl⟩ :=
    insertSeedAccountStmt_ok ((insertSeedAccountStmt book d p ph).write_self hx)
  exact ⟨rfl, rfl⟩

theorem Importing.keepsOwners (h : Importing book q) : KeepsOwners q := by
  cases h with
  | setBookRoot r => exact keepsOwners_setBookRoot r
  | read h => exact keepsOwners_of h.keepsBooks
  | deleteBookSplits => exact keepsOwners_of (Posting.keepsBooks (@Posting.deleteBookSplits book))
  | deleteBookTransactions =>
    exact keepsOwners_of (Posting.keepsBooks (@Posting.deleteBookTransactions book))
  | deleteBookAccounts => exact keepsOwners_of (ByBook.keepsBooks (@ByBook.deleteBookAccounts book))
  | insertImportAccount a =>
    exact keepsOwners_of (Amending.keepsBooks (@Amending.insertImportAccount book a))
  | updateHierarchy a p =>
    exact keepsOwners_of (Amending.keepsBooks (@Amending.updateHierarchy book a p))
  | insertImportTransaction t =>
    exact keepsOwners_of (Posting.keepsBooks (@Posting.insertImportTransaction book t))
  | insertImportSplit t s =>
    exact keepsOwners_of (Posting.keepsBooks (@Posting.insertImportSplit book t s))

theorem Snapshotting.keepsOwners (h : Snapshotting book q) : KeepsOwners q :=
  keepsOwners_of h.keepsBooks

end Statements

/-! ## Calls -/

section Calls

variable {α : Type} {book : Guid} {db v : Db} {envs : Nat → Env}

theorem seedUserBook_keepsOwners : (seedUserBook book).Issues KeepsOwners :=
  seeding_issues keepsOwners_insertSeedAccount keepsOwners_setBookRoot

/-- **A request** leaves users and books with their owners. -/
theorem handle_keepsOwners (cfg : PlaidConfig) (req : Request) :
    (handle cfg book req).Issues KeepsOwners := by
  have himport : ∀ file, (performImport book file).Issues KeepsOwners := fun file =>
    (performImport_issues file).mono fun _ hq => hq.keepsOwners
  have hbackup : ∀ label, (autoBackup book label).Issues KeepsOwners := fun label =>
    (autoBackup_issues label).mono fun _ hq => hq.keepsOwners
  by_cases hreplaces : req.replaces = false
  · exact (handle_keepsBooks cfg req hreplaces).mono fun _ hq => keepsOwners_of hq
  cases req with
  | importJson file =>
    cases file with
    | none => trivial
    | some file => exact issues_answer (himport file)
  | importGnuCash file =>
    cases file with
    | none => trivial
    | some file => exact issues_answer (issues_bind (hbackup _) fun _ => himport file)
  | restoreSnapshot id =>
    refine issues_answer (issues_bind ?_ fun snap => issues_bind (hbackup _) fun _ =>
      himport snap.data)
    exact (getSnapshot_reads id).mono fun _ hq => keepsOwners_of hq.keepsBooks
  | factoryReset =>
    refine issues_answer (issues_bind (issues_inTx ?_) fun _ => seedUserBook_keepsOwners)
    refine issues_exec (keepsOwners_setBookRoot none) fun _ => ?_
    refine issues_exec (Importing.keepsOwners .deleteBookSplits) fun _ => ?_
    refine issues_exec (Importing.keepsOwners .deleteBookTransactions) fun _ => ?_
    exact issues_exec (Importing.keepsOwners .deleteBookAccounts) fun _ => issues_commit
  | _ => exact absurd rfl hreplaces

/-- Calls of such statements. -/
theorem owners_of_issues {p : Call α} (hp : p.Issues KeepsOwners) :
    p.swp (machine.assuming fun _ _ _ => true) Duty.none
      (fun _ t => t.db.users = db.users ∧ t.db.owners = db.owners) (.idle db) := by
  refine swp_assuming (swp_mono (fun _ _ ht => ht.1) (swp_of_issues
    (I := fun w => w.users = db.users ∧ w.owners = db.owners) hp
    (fun _ _ _ _ _ hq hv _ hx => ?_) (Solo.holds_idle ⟨rfl, rfl⟩)))
  exact ⟨(hq hx).1.trans hv.1, (hq hx).2.trans hv.2⟩

/-- A user comes, under a new identifier. -/
theorem Db.Named.addUser (h : v.Named) (user : User) (hg : v.unused user.id = true) :
    ({ v with users := v.users ++ [user] } : Db).Named := by
  simp only [Db.unused, Bool.and_eq_true, List.all_eq_true, bne_iff_ne] at hg
  refine ⟨nodup_append_key h.users (List.any_eq_false.mpr fun u hu => ?_), h.books⟩
  simpa using hg.1.1.1.1.1.1.1 u hu

/-- A book comes, under a new identifier. -/
theorem Db.Named.addBook (h : v.Named) (b : Book) (hg : v.unused b.guid = true) :
    ({ v with books := v.books ++ [b] } : Db).Named := by
  simp only [Db.unused, Bool.and_eq_true, List.all_eq_true, bne_iff_ne] at hg
  have howners : ({ v with books := v.books ++ [b] } : Db).owners = v.owners ++ [b.owner] := by
    simp [Db.owners]
  refine ⟨h.users, howners ▸ nodup_append_key h.books (List.any_eq_false.mpr fun o ho => ?_)⟩
  obtain ⟨b', hb', rfl⟩ := List.mem_map.mp ho
  simpa [Book.owner] using hg.1.1.1.1.1.1.2 b' hb'

/-- What a registration leaves: a user at most, with a book at most, and what it answers. -/
structure Enrolled (x y : Db) (email : String) (r : Except Err (Guid × Guid)) : Prop where
  enrolls : Enrolls x y
  named : y.Named
  answer : ∀ a, r = .ok a → (∀ u ∈ x.users, u.id ≠ a.1) ∧ (a.2, a.1) ∈ y.owners ∧
    ∃ u ∈ y.users, u.id = a.1 ∧ u.email = email

/-- **A registration.** -/
theorem registerUser_enrolls (email name : String) (h : db.Named) :
    (registerUser email name).swp (machine.assuming fun _ _ _ => true) Duty.none
      (fun r t => Enrolled db t.db email r) (.idle db) := by
  have herr : ∀ {y : Db} (e : Err), Enrolls db y → y.Named →
      Enrolled db y email (.error e) := fun e hy hn => ⟨hy, hn, fun _ he => absurd he nofun⟩
  refine swp_ask_idle (Stmt.reads_query _) fun found => ?_
  split
  · exact herr _ (.refl db) h
  refine swp_exec_idle (fun e => herr e (.refl db) h) fun env user x ha hx => ?_
  have ha : (db.unused env.guid && true) = true := ha
  rw [Bool.and_true] at ha
  obtain ⟨-, hx⟩ := require_bind (ok_of_failing hx)
  obtain ⟨-, hx⟩ := require_bind hx
  obtain ⟨rfl, rfl⟩ := Prod.mk.inj (Except.ok.inj hx)
  have hnamed := h.addUser ⟨env.guid, email, name⟩ ha
  have husers : Enrolls db { db with users := db.users ++ [⟨env.guid, email, name⟩] } :=
    ⟨List.prefix_append _ _, List.prefix_rfl⟩
  refine swp_exec_idle (fun e => herr e husers hnamed) fun env' book y ha' hy => ?_
  have ha' : (Db.unused _ env'.guid && true) = true := ha'
  rw [Bool.and_true] at ha'
  obtain ⟨-, hy⟩ := require_bind (ok_of_failing hy)
  obtain ⟨rfl, rfl⟩ := Prod.mk.inj (Except.ok.inj hy)
  have hnamed' := hnamed.addBook ⟨env'.guid, none, env.guid⟩ ha'
  refine swp_bind (swp_mono (fun r t ht => ?_) (owners_of_issues seedUserBook_keepsOwners))
  obtain ⟨hu, ho⟩ := ht
  have henrolls : Enrolls db t.db := by
    refine ⟨hu ▸ husers.users, ho ▸ ?_⟩
    simp [Db.owners]
  have hn : t.db.Named := ⟨hu ▸ hnamed'.users, ho ▸ hnamed'.books⟩
  cases r with
  | error e => exact herr e henrolls hn
  | ok _ =>
    refine ⟨henrolls, hn, fun a he => ?_⟩
    obtain rfl := Except.ok.inj he
    refine ⟨fun u hu' => ?_, ho ▸ ?_, ⟨env.guid, email, name⟩, hu ▸ ?_, rfl, rfl⟩
    · simp only [Db.unused, Bool.and_eq_true, List.all_eq_true, bne_iff_ne] at ha
      exact ha.1.1.1.1.1.1.1 u hu'
    · simp [Db.owners, Book.owner]
    · simp

end Calls

end Antimoney
