import Antimoney.Db.Schema
import Mathlib.Data.List.Basic
import Mathlib.Logic.Function.Basic

/-!
# The login limit

`AllowLogin` of `internal/ratelimit/ratelimit.go` behind the login route of `cmd/server/main.go`.
Any number of requests run at once, on any connections; a request's commands reach Redis one at a
time, before `middleware.Timeout` cancels it, in any order with those of the others. No proxy header
is sent, so `middleware.RealIP` leaves `RemoteAddr` as `net/http` sets it: address and port.

The text of a UTC minute in a key is taken as the number of the minute, and a counter as a natural.

Headline:
* **`login_limit_iff`**: at most ten logins of an address are let through in a minute exactly if
  ten at most are asked for, or all come over one port.
-/

namespace Antimoney.Ratelimit

/-! ## A cap for each class -/

section Classes

variable {α β : Type} [DecidableEq β] {l : List α} {f : α → β} {p : α → Bool} {cap : Nat}

/-- What two classes hold, they hold apart. -/
theorem countP_add_le {b c : β} (h : b ≠ c) :
    l.countP (fun x => p x && f x == b) + l.countP (fun x => p x && f x == c) ≤ l.countP p := by
  induction l with
  | nil => simp
  | cons x l ih =>
    simp only [List.countP_cons]
    by_cases hp : p x = true
    · by_cases hb : f x = b
      · have hc : f x ≠ c := fun hc => h (hb.symm.trans hc)
        simp only [hp, hb, beq_iff_eq, Bool.true_and, h, if_true, if_false]
        omega
      · by_cases hc : f x = c
        · simp only [hp, hc, beq_iff_eq, Bool.true_and, h.symm, if_true, if_false]
          omega
        · simp only [hp, hb, hc, beq_iff_eq, Bool.true_and, if_true, if_false]
          omega
    · simpa [hp] using ih

/-- With a cap for each class, the cap holds of all exactly if all are few, or of one class. -/
theorem countP_le_cap_iff (hcap : 0 < cap)
    (h : ∀ b, l.countP (fun x => p x && f x == b) = min (l.countP fun x => f x == b) cap) :
    l.countP p ≤ cap ↔ l.length ≤ cap ∨ ∃ b, ∀ x ∈ l, f x = b := by
  constructor
  · intro hp
    by_contra hno
    obtain ⟨hlen, hmany⟩ := not_or.mp hno
    by_cases hfull : ∃ b, cap ≤ l.countP fun x => f x == b
    · -- one class is full, and something is of another
      obtain ⟨b, hb⟩ := hfull
      obtain ⟨x, hx, hxb⟩ : ∃ x ∈ l, f x ≠ b := by
        by_contra hall
        exact hmany ⟨b, fun x hx => by_contra fun hxb => hall ⟨x, hx, hxb⟩⟩
      have hone : 0 < l.countP fun y => f y == f x :=
        List.countP_pos_iff.mpr ⟨x, hx, beq_self_eq_true _⟩
      have hadd := @countP_add_le _ _ _ l f p b (f x) (Ne.symm hxb)
      rw [h, h] at hadd
      omega
    · -- no class is full, so everything is let through
      refine hlen ?_
      rw [← List.countP_eq_length.mpr fun x hx => ?_]
      · exact hp
      · have hlt : l.countP (fun y => f y == f x) < cap :=
          Nat.lt_of_not_le fun hle => hfull ⟨f x, hle⟩
        have hall := h (f x)
        rw [Nat.min_eq_left (Nat.le_of_lt hlt), ← List.countP_filter, List.countP_eq_length_filter (p := (f · == f x)),
          List.countP_eq_length] at hall
        exact hall x (List.mem_filter.mpr ⟨hx, beq_self_eq_true _⟩)
  · rintro (hlen | ⟨b, hb⟩)
    · exact Nat.le_trans List.countP_le_length hlen
    · have hsame : l.countP p = l.countP fun x => p x && f x == b :=
        List.countP_congr fun x hx => by simp [hb x hx]
      rw [hsame, h]
      exact Nat.min_le_right _ _

end Classes

/-! ## Redis -/

/-- `login:ip:%s:%s`. -/
structure LoginKey where
  ip : String
  minute : Int
  deriving DecidableEq, Repr

structure Entry where
  count : Nat
  expireAt : Option Time
  deriving DecidableEq, Repr

abbrev Redis := LoginKey → Option Entry

namespace Redis

/-- What is stored under a key and has not expired. -/
def get (r : Redis) (now : Time) (key : LoginKey) : Option Entry :=
  (r key).filter fun e => e.expireAt.all fun t => now < t

/-- `INCR`. -/
def incr (r : Redis) (now : Time) (key : LoginKey) : Redis × Nat :=
  let e := (r.get now key).getD ⟨0, none⟩
  (Function.update r key (some { e with count := e.count + 1 }), e.count + 1)

/-- `EXPIRE`. -/
def expire (r : Redis) (now : Time) (key : LoginKey) (ttl : Int) : Redis :=
  match r.get now key with
  | none => r
  | some e => Function.update r key (some { e with expireAt := some (now + ttl) })

end Redis

/-! ## The login route -/

def loginPerMinuteCap : Nat := 10

/-- `RemoteAddr`: `net.JoinHostPort` of the address and port of a connection. -/
def remoteAddr (ip : String) (port : UInt16) : String :=
  if ':' ∈ ip.toList then "[" ++ ip ++ "]:" ++ toString port.toNat
  else ip ++ ":" ++ toString port.toNat

/-- A request in `AllowLogin`: its connection, the reading of the clock, the reply of `Incr`, and
whether `Expire` was sent. -/
structure Login where
  ip : String
  port : UInt16
  now : Time
  count : Option Nat
  expired : Bool
  deriving DecidableEq, Repr

namespace Login

/-- The key of a request: the route passes `r.RemoteAddr`. -/
def key (l : Login) : LoginKey := ⟨remoteAddr l.ip l.port, l.now / 60⟩

/-- The counter was incremented. -/
def counted (l : Login) : Bool := l.count.isSome

/-- `AllowLogin` answers `true`, whatever becomes of `Expire`. -/
def allowed (l : Login) : Bool := l.count.any (· ≤ loginPerMinuteCap)

end Login

structure Server where
  clock : Time
  redis : Redis
  logins : List Login

inductive Event where
  | wait (t : Time)
  | arrive (ip : String) (port : UInt16)
  /-- The next command of a request, before `middleware.Timeout` ends it. -/
  | command (i : Nat)

namespace Server

/-- Time passes, a request arrives, or one of the requests sends its next command. -/
def next (s : Server) : Event → Option Server
  | .wait t => if s.clock ≤ t then some { s with clock := t } else none
  | .arrive ip port =>
    some { s with logins := s.logins ++ [⟨ip, port, s.clock, none, false⟩] }
  | .command i =>
    match s.logins[i]? with
    | none => none
    | some l =>
      if l.now + 30 < s.clock then none
      else
        match l.count with
        | none =>
          let (redis, count) := s.redis.incr s.clock l.key
          some { s with redis, logins := s.logins.set i { l with count := some count } }
        | some count =>
          if count = 1 ∧ !l.expired then
            some { s with
              redis := s.redis.expire s.clock l.key 120
              logins := s.logins.set i { l with expired := true } }
          else none

/-- A run from before the first request. -/
inductive Reach : Server → Prop
  | start (clock : Time) : Reach ⟨clock, fun _ => none, []⟩
  | step {s s' : Server} {e : Event} (hr : Reach s) (h : s.next e = some s') : Reach s'

/-- The logins of an address and a UTC minute that asked the counter. -/
def asked (s : Server) (ip : String) (minute : Int) : List Login :=
  s.logins.filter fun l => l.counted && (l.ip == ip && l.now / 60 == minute)

/-- Those that are let through to `Login`. -/
def letThrough (s : Server) (ip : String) (minute : Int) : List Login :=
  (s.asked ip minute).filter Login.allowed

end Server

/-! ## A connection has a key of its own -/

/-- The address of a `RemoteAddr`, as characters. -/
def hostChars (ip : String) : List Char :=
  if ':' ∈ ip.toList then '[' :: ip.toList ++ [']'] else ip.toList

theorem remoteAddr_toList (ip : String) (port : UInt16) :
    (remoteAddr ip port).toList = hostChars ip ++ ':' :: Nat.toDigits 10 port.toNat := by
  unfold remoteAddr hostChars
  split <;> simp [Nat.toString_eq_repr, Nat.toList_repr]

theorem hostChars_inj {ip ip' : String} (h : hostChars ip = hostChars ip') : ip = ip' := by
  unfold hostChars at h
  by_cases hc : ':' ∈ ip.toList <;> by_cases hc' : ':' ∈ ip'.toList
  · rw [if_pos hc, if_pos hc'] at h
    exact String.toList_inj.mp (List.append_cancel_right (List.cons.inj h).2)
  · rw [if_pos hc, if_neg hc'] at h
    exact absurd (h ▸ List.mem_append_left _ (List.mem_cons_of_mem _ hc)) hc'
  · rw [if_neg hc, if_pos hc'] at h
    exact absurd (h ▸ List.mem_append_left _ (List.mem_cons_of_mem _ hc')) hc
  · rw [if_neg hc, if_neg hc'] at h
    exact String.toList_inj.mp h

theorem toDigits_inj {m n : Nat} (h : Nat.toDigits 10 m = Nat.toDigits 10 n) : m = n := by
  rw [← Nat.ofDigitChars_toDigits (b := 10) (n := m) (by decide) (by decide), h,
    Nat.ofDigitChars_toDigits (by decide) (by decide)]

theorem colon_notMem_toDigits (n : Nat) : ':' ∉ Nat.toDigits 10 n := fun h =>
  absurd (Nat.isDigit_of_mem_toDigits (by decide) (by decide) h) (by decide)

/-- Texts are split at their last `c` in one way. -/
theorem append_cons_inj_last {α : Type} {a b a' b' : List α} {c : α} (hb : c ∉ b) (hb' : c ∉ b')
    (h : a ++ c :: b = a' ++ c :: b') : a = a' ∧ b = b' := by
  rcases List.append_eq_append_iff.mp h with ⟨d, rfl, hd⟩ | ⟨d, rfl, hd⟩
  · cases d with
    | nil => exact ⟨(List.append_nil a).symm, (List.cons.inj hd).2⟩
    | cons x d =>
      obtain ⟨-, rfl⟩ := List.cons.inj hd
      exact absurd (List.mem_append_right d List.mem_cons_self) hb
  · cases d with
    | nil => exact ⟨List.append_nil a', (List.cons.inj hd).2.symm⟩
    | cons x d =>
      obtain ⟨-, rfl⟩ := List.cons.inj hd
      exact absurd (List.mem_append_right d List.mem_cons_self) hb'

/-- Two connections have different texts. -/
theorem remoteAddr_inj {ip ip' : String} {port port' : UInt16}
    (h : remoteAddr ip port = remoteAddr ip' port') : ip = ip' ∧ port = port' := by
  have hlist := congrArg String.toList h
  rw [remoteAddr_toList, remoteAddr_toList] at hlist
  obtain ⟨hhost, hport⟩ := append_cons_inj_last (colon_notMem_toDigits _)
    (colon_notMem_toDigits _) hlist
  exact ⟨hostChars_inj hhost, UInt16.toNat_inj.mp (toDigits_inj hport)⟩

/-! ## The counters -/

/-- The requests that asked a counter. -/
def tally (logins : List Login) (key : LoginKey) : Nat :=
  logins.countP fun l => l.counted && l.key == key

/-- Those of them that are allowed. -/
def passed (logins : List Login) (key : LoginKey) : Nat :=
  logins.countP fun l => l.allowed && l.key == key

section Tally

variable {logins : List Login} {i : Nat} {l : Login}

theorem countP_set_of_not {p : Login → Bool} (hi : logins[i]? = some l) (hl : p l = false)
    (x : Login) : (logins.set i x).countP p = logins.countP p + if p x then 1 else 0 := by
  obtain ⟨hlt, he⟩ := List.getElem?_eq_some_iff.mp hi
  rw [List.countP_set hlt, he, hl]
  rfl

theorem countP_set_of_eq {p : Login → Bool} (hi : logins[i]? = some l) {x : Login}
    (h : p x = p l) : (logins.set i x).countP p = logins.countP p := by
  obtain ⟨hlt, he⟩ := List.getElem?_eq_some_iff.mp hi
  rw [List.countP_set hlt, he, h]
  have hle := List.boole_getElem_le_countP (p := p) hlt
  rw [he] at hle
  omega

/-- Asking a counter adds one to it, and to no other. -/
theorem tally_asked (hi : logins[i]? = some l) (hc : l.count = none) (n : Nat) (key : LoginKey) :
    tally (logins.set i { l with count := some n }) key =
      tally logins key + if l.key = key then 1 else 0 := by
  unfold tally
  rw [countP_set_of_not hi (by simp [Login.counted, hc])]
  have hkey : Login.key { l with count := some n } = l.key := rfl
  simp [Login.counted, hkey]

theorem passed_asked (hi : logins[i]? = some l) (hc : l.count = none) (n : Nat) (key : LoginKey) :
    passed (logins.set i { l with count := some n }) key =
      passed logins key + if l.key = key ∧ n ≤ loginPerMinuteCap then 1 else 0 := by
  unfold passed
  rw [countP_set_of_not hi (by simp [Login.allowed, hc])]
  have hkey : Login.key { l with count := some n } = l.key := rfl
  by_cases hk : l.key = key <;> by_cases hn : n ≤ loginPerMinuteCap <;>
    simp [Login.allowed, hkey, hk, hn]

theorem tally_expired (hi : logins[i]? = some l) (key : LoginKey) :
    tally (logins.set i { l with expired := true }) key = tally logins key :=
  countP_set_of_eq hi rfl

theorem passed_expired (hi : logins[i]? = some l) (key : LoginKey) :
    passed (logins.set i { l with expired := true }) key = passed logins key :=
  countP_set_of_eq hi rfl

theorem tally_pos (hi : logins[i]? = some l) (hc : l.count.isSome = true) :
    0 < tally logins l.key :=
  List.countP_pos_iff.mpr ⟨l, List.mem_of_getElem? hi, by simp [Login.counted, hc]⟩

theorem tally_arrived (hc : l.count = none) (key : LoginKey) :
    tally (logins ++ [l]) key = tally logins key := by
  simp [tally, List.countP_append, Login.counted, hc]

theorem passed_arrived (hc : l.count = none) (key : LoginKey) :
    passed (logins ++ [l]) key = passed logins key := by
  simp [passed, List.countP_append, Login.allowed, hc]

end Tally

namespace Server

/-- What holds of a server in every run: each counter is the number of requests that asked it, it
does not expire before they have all asked, and the first ten of them are allowed. -/
structure Counts (s : Server) : Prop where
  now_le : ∀ l ∈ s.logins, l.now ≤ s.clock
  unasked : ∀ key, tally s.logins key = 0 → s.redis key = none
  entry : ∀ key, 0 < tally s.logins key → ∃ e, s.redis key = some e ∧
    e.count = tally s.logins key ∧ ∀ t, e.expireAt = some t → 60 * key.minute + 120 ≤ t
  passed : ∀ key, passed s.logins key = min (tally s.logins key) loginPerMinuteCap

variable {s s' : Server}

/-- The 30 seconds of a request end before the two minutes of a counter. -/
theorem before_expiry {clock now t : Int} (h : clock ≤ now + 30)
    (ht : 60 * (now / 60) + 120 ≤ t) : clock < t := by omega

/-- A counter outlives its minute by a minute. -/
theorem expiry_le {clock now : Int} (h : now ≤ clock) : 60 * (now / 60) + 120 ≤ clock + 120 := by
  omega

/-- A request that may still send a command finds the counter as it was left. -/
theorem Counts.get (h : s.Counts) {l : Login} (hl : s.clock ≤ l.now + 30) :
    s.redis.get s.clock l.key = s.redis l.key := by
  unfold Redis.get
  cases hk : s.redis l.key with
  | none => rfl
  | some e =>
    rw [Option.filter_some, if_pos]
    cases ht : e.expireAt with
    | none => rfl
    | some t =>
      obtain hzero | hpos := Nat.eq_zero_or_pos (tally s.logins l.key)
      · exact absurd ((h.unasked l.key hzero).symm.trans hk) (by simp)
      · obtain ⟨e', he', -, hexp⟩ := h.entry l.key hpos
        obtain rfl := Option.some.inj (he'.symm.trans hk)
        exact decide_eq_true (before_expiry hl (hexp t ht))

theorem Counts.start (clock : Time) : Counts ⟨clock, fun _ => none, []⟩ where
  now_le := fun l hl => absurd hl (by simp)
  unasked := fun _ _ => rfl
  entry := fun _ h => absurd h (Nat.lt_irrefl 0)
  passed := fun _ => rfl

theorem Counts.wait (h : s.Counts) {t : Time} (ht : s.clock ≤ t) : Counts { s with clock := t } :=
  ⟨fun l hl => Int.le_trans (h.now_le l hl) ht, h.unasked, h.entry, h.passed⟩

theorem Counts.arrive (h : s.Counts) (ip : String) (port : UInt16) :
    Counts { s with logins := s.logins ++ [⟨ip, port, s.clock, none, false⟩] } := by
  refine ⟨fun l hl => ?_, fun key hk => ?_, fun key hk => ?_, fun key => ?_⟩
  · rcases List.mem_append.mp hl with hold | hnew
    · exact h.now_le l hold
    · obtain rfl := List.mem_singleton.mp hnew
      exact Int.le_refl s.clock
  · exact h.unasked key ((tally_arrived rfl key).symm.trans hk)
  · rw [tally_arrived rfl] at hk ⊢
    exact h.entry key hk
  · rw [tally_arrived rfl, passed_arrived rfl]
    exact h.passed key

/-- The reply of `Incr` is one more than the requests before. -/
theorem Counts.incr_reply (h : s.Counts) {l : Login} (hl : s.clock ≤ l.now + 30) :
    (s.redis.incr s.clock l.key).2 = tally s.logins l.key + 1 := by
  unfold Redis.incr
  rw [h.get hl]
  obtain hzero | hpos := Nat.eq_zero_or_pos (tally s.logins l.key)
  · rw [h.unasked l.key hzero, hzero]
    rfl
  · obtain ⟨e, he, hcount, -⟩ := h.entry l.key hpos
    rw [he, ← hcount]
    rfl

theorem mem_set_now {logins : List Login} {clock : Time} (h : ∀ l ∈ logins, l.now ≤ clock)
    {i : Nat} {l x : Login} (hi : logins[i]? = some l) (hx : x.now = l.now) :
    ∀ y ∈ logins.set i x, y.now ≤ clock := by
  intro y hy
  rcases List.mem_or_eq_of_mem_set hy with hold | rfl
  · exact h y hold
  · rw [hx]
    exact h l (List.mem_of_getElem? hi)

theorem Counts.incr (h : s.Counts) {i : Nat} {l : Login} (hi : s.logins[i]? = some l)
    (hl : s.clock ≤ l.now + 30) (hc : l.count = none) :
    Counts { s with
      redis := (s.redis.incr s.clock l.key).1
      logins := s.logins.set i { l with count := some (s.redis.incr s.clock l.key).2 } } := by
  have hreply := h.incr_reply hl
  refine ⟨mem_set_now h.now_le hi rfl, fun key hk => ?_, fun key hk => ?_, fun key => ?_⟩
  · rw [tally_asked hi hc] at hk
    have hkey : key ≠ l.key := by
      rintro rfl
      rw [if_pos rfl] at hk
      omega
    exact (Function.update_of_ne hkey _ _).trans (h.unasked key (by omega))
  · by_cases hkey : key = l.key
    · subst hkey
      refine ⟨_, Function.update_self _ _ _, ?_, fun t ht => ?_⟩
      · rw [tally_asked hi hc, if_pos rfl, ← hreply]
        rfl
      · rw [h.get hl] at ht
        obtain hzero | hpos := Nat.eq_zero_or_pos (tally s.logins l.key)
        · rw [h.unasked l.key hzero] at ht
          exact absurd ht (by simp)
        · obtain ⟨e, he, -, hexp⟩ := h.entry l.key hpos
          rw [he] at ht
          exact hexp t ht
    · rw [tally_asked hi hc, if_neg (Ne.symm hkey)] at hk ⊢
      obtain ⟨e, he, hcount, hexp⟩ := h.entry key hk
      exact ⟨e, (Function.update_of_ne hkey _ _).trans he, hcount, hexp⟩
  · rw [tally_asked hi hc, passed_asked hi hc, hreply, h.passed]
    by_cases hk : l.key = key
    · rw [hk, if_pos rfl]
      by_cases hle : tally s.logins key + 1 ≤ loginPerMinuteCap
      · rw [if_pos ⟨rfl, hle⟩]
        omega
      · rw [if_neg fun h => hle h.2]
        omega
    · rw [if_neg hk, if_neg fun h => hk h.1]
      rfl

theorem Counts.expire (h : s.Counts) {i : Nat} {l : Login} (hi : s.logins[i]? = some l)
    (hl : s.clock ≤ l.now + 30) (hc : l.count.isSome = true) :
    Counts { s with
      redis := s.redis.expire s.clock l.key 120
      logins := s.logins.set i { l with expired := true } } := by
  obtain ⟨e, he, hcount, -⟩ := h.entry l.key (tally_pos hi hc)
  have hredis : s.redis.expire s.clock l.key 120 =
      Function.update s.redis l.key (some { e with expireAt := some (s.clock + 120) }) := by
    unfold Redis.expire
    rw [h.get hl, he]
  refine ⟨mem_set_now h.now_le hi rfl, fun key hk => ?_, fun key hk => ?_, fun key => ?_⟩
  · rw [tally_expired hi] at hk
    have hkey : key ≠ l.key := by
      rintro rfl
      exact absurd hk (Nat.ne_of_gt (tally_pos hi hc))
    exact (congrFun hredis key).trans ((Function.update_of_ne hkey _ _).trans (h.unasked key hk))
  · rw [tally_expired hi] at hk ⊢
    rw [hredis]
    by_cases hkey : key = l.key
    · subst hkey
      refine ⟨_, Function.update_self _ _ _, hcount, fun t ht => ?_⟩
      rw [← Option.some.inj ht]
      exact expiry_le (h.now_le l (List.mem_of_getElem? hi))
    · obtain ⟨e', he', hrest⟩ := h.entry key hk
      exact ⟨e', (Function.update_of_ne hkey _ _).trans he', hrest⟩
  · rw [tally_expired hi, passed_expired hi]
    exact h.passed key

theorem Counts.next (h : s.Counts) {e : Event} (hs : s.next e = some s') : s'.Counts := by
  cases e with
  | wait t =>
    simp only [Server.next] at hs
    split at hs
    · rename_i ht
      obtain rfl := Option.some.inj hs
      exact h.wait ht
    · exact absurd hs (by simp)
  | arrive ip port =>
    obtain rfl := Option.some.inj hs
    exact h.arrive ip port
  | command i =>
    simp only [Server.next] at hs
    split at hs
    · exact absurd hs (by simp)
    · rename_i l hi
      split at hs
      · exact absurd hs (by simp)
      · rename_i hl
        split at hs
        · rename_i hc
          obtain rfl := Option.some.inj hs
          exact h.incr hi (Int.not_lt.mp hl) hc
        · rename_i count hc
          split at hs
          · obtain rfl := Option.some.inj hs
            exact h.expire hi (Int.not_lt.mp hl) (by simp [hc])
          · exact absurd hs (by simp)

theorem Reach.counts (hr : Reach s) : s.Counts := by
  induction hr with
  | start clock => exact Counts.start clock
  | step _ hs ih => exact ih.next hs

/-! ## The limit of an address -/

theorem mem_asked {ip : String} {minute : Int} {l : Login} : l ∈ s.asked ip minute ↔
    l ∈ s.logins ∧ l.counted = true ∧ l.ip = ip ∧ l.now / 60 = minute := by
  simp [asked]

/-- Of the requests of an address in a minute, those over a port share a counter. -/
theorem countP_asked (s : Server) (ip : String) (minute : Int) (port : UInt16) (p : Login → Bool)
    (hp : ∀ l, p l = true → l.counted = true) :
    (s.asked ip minute).countP (fun l => p l && l.port == port) =
      s.logins.countP fun l => p l && l.key == ⟨remoteAddr ip port, minute⟩ := by
  rw [asked, List.countP_filter]
  refine List.countP_congr fun l _ => ?_
  have hkey : l.key = ⟨remoteAddr ip port, minute⟩ ↔
      l.ip = ip ∧ l.port = port ∧ l.now / 60 = minute := by
    rw [Login.key, LoginKey.mk.injEq]
    constructor
    · rintro ⟨hr, hm⟩
      obtain ⟨hip, hport⟩ := remoteAddr_inj hr
      exact ⟨hip, hport, hm⟩
    · rintro ⟨rfl, rfl, hm⟩
      exact ⟨rfl, hm⟩
  have hpc := hp l
  simp only [Bool.and_eq_true, beq_iff_eq, hkey]
  tauto

end Server

open Server

/-- **The login limit of an address**: in every run at most ten of its logins in a UTC minute are
let through exactly if ten at most are asked for, or all of them come over one port. -/
theorem login_limit_iff {s : Server} (hr : s.Reach) (ip : String) (minute : Int) :
    (s.letThrough ip minute).length ≤ 10 ↔
      (s.asked ip minute).length ≤ 10 ∨ ∃ port, ∀ l ∈ s.asked ip minute, l.port = port := by
  have hallowed : ∀ l : Login, l.allowed = true → l.counted = true := by
    intro l h
    unfold Login.allowed at h
    unfold Login.counted
    cases hc : l.count with
    | none => simp [hc] at h
    | some n => rfl
  rw [letThrough, ← List.countP_eq_length_filter]
  refine countP_le_cap_iff (by decide) fun port => ?_
  have hpassed := hr.counts.passed ⟨remoteAddr ip port, minute⟩
  rw [countP_asked s ip minute port Login.allowed hallowed]
  refine hpassed.trans (congrArg (min · 10) ?_)
  rw [tally, ← countP_asked s ip minute port Login.counted fun _ h => h]
  refine List.countP_congr fun l hl => ?_
  simp [(mem_asked.mp hl).2.1]

/-! ### Eleven logins -/

/-- A login at noon over each of these ports, one after the other. -/
def attempts (ports : List UInt16) : List Event :=
  ports.zipIdx.flatMap fun r => [.arrive "203.0.113.7" r.1, .command r.2]

/-- The server after these events. -/
def Server.run (s : Server) (es : List Event) : Option Server := es.foldlM next s

theorem Server.Reach.run {s s' : Server} {es : List Event} (hr : s.Reach)
    (h : s.run es = some s') : s'.Reach := by
  induction es generalizing s with
  | nil =>
    obtain rfl := Option.some.inj h
    exact hr
  | cons e es ih =>
    rw [Server.run, List.foldlM_cons] at h
    obtain ⟨t, ht, h⟩ := Option.bind_eq_some_iff.mp h
    exact ih (hr.step ht) h

/-- The server before the first request, at noon. -/
def noon : Server := ⟨43200, fun _ => none, []⟩

/-- The logins that asked and those let through, after these attempts. -/
theorem exists_attempts {ports : List UInt16} {asked letThrough : List UInt16}
    (h : ((noon.run (attempts ports)).map fun s =>
      ((s.asked "203.0.113.7" 720).map Login.port,
        (s.letThrough "203.0.113.7" 720).map Login.port)) = some (asked, letThrough)) :
    ∃ s : Server, s.Reach ∧ (s.asked "203.0.113.7" 720).map Login.port = asked ∧
      (s.letThrough "203.0.113.7" 720).map Login.port = letThrough := by
  obtain ⟨s, hs, he⟩ := Option.map_eq_some_iff.mp h
  obtain ⟨hasked, hlet⟩ := Prod.mk.inj he
  exact ⟨s, (Reach.start 43200).run hs, hasked, hlet⟩

/-- Over one connection the eleventh login is refused. -/
theorem login_limit_connection : ∃ s : Server, s.Reach ∧
    (s.asked "203.0.113.7" 720).length = 11 ∧ (s.letThrough "203.0.113.7" 720).length ≤ 10 := by
  obtain ⟨s, hr, hasked, -⟩ := @exists_attempts (List.replicate 11 40000) (List.replicate 11 40000)
    (List.replicate 10 40000) (by decide +kernel)
  refine ⟨s, hr, ?_, (login_limit_iff hr _ _).mpr (.inr ⟨40000, fun l hl => ?_⟩)⟩
  · rw [← List.length_map (f := Login.port), hasked]
    rfl
  · have := List.mem_map_of_mem (f := Login.port) hl
    rw [hasked] at this
    exact List.eq_of_mem_replicate this

/-- Over two connections eleven logins of one address are let through in one minute. -/
theorem login_limit_exceeded : ∃ s : Server, s.Reach ∧
    ¬ (s.letThrough "203.0.113.7" 720).length ≤ 10 := by
  obtain ⟨s, hr, -, hlet⟩ := @exists_attempts (40001 :: List.replicate 10 40000)
    (40001 :: List.replicate 10 40000) (40001 :: List.replicate 10 40000) (by decide +kernel)
  refine ⟨s, hr, ?_⟩
  rw [← List.length_map (f := Login.port), hlet]
  decide

end Antimoney.Ratelimit
