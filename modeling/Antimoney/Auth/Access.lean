import Antimoney.Auth.Sessions
import Antimoney.Founding.Owners
import Antimoney.Tenants.Apart

/-!
# Who may change a book

Signatures are ideal: a token that verifies was signed by the server. `newJTI` never draws an
identifier twice, and the clock does not go back.

* `Site.Sound`: each token goes with a user and a book of that user; the revocation list holds the
  sessions that were logged out, until they expire.
* **`session_lasts`**: a session lasts from its login to its logout, or for seven days.
* **`signed_out`**: without a session of its owner, nothing changes the rows of a book.
-/

namespace Antimoney.Auth

open Antimoney.Lib Prog

/-! ## Runs -/

/-- The server, with the claims it has signed and the sessions it has ended. -/
structure Site where
  world : World
  clock : Time
  issued : List Claims
  ended : List String

/-- A request, or what the scheduler does. -/
inductive Input where
  | http (req : HttpRequest) (e : HttpEnv)
  | tick (ev : Event) (envs : Nat → Env)

/-- The claims of the token that is handed out. -/
def Answer.claims : Answer → Option Claims
  | .signedIn _ _ c => some c
  | _ => none

/-- The headers that carry a token. -/
def HttpRequest.headers : HttpRequest → Option Headers
  | .me headers | .logout headers | .api headers _ => some headers
  | _ => none

/-- The session that a request ends: a valid token comes with a logout, and Redis takes the key. -/
def HttpRequest.ends (p : Packages) (cfg : Config) (e : HttpEnv) : HttpRequest → Option String
  | .logout headers =>
    if cfg.limiter && e.redis && tokenFromRequest headers != "" then
      (parseToken p e.now (tokenFromRequest headers)).map (·.jti)
    else none
  | _ => none

/-- What the server is supplied during a request is what it may be. -/
def HttpRequest.Supplied (p : Packages) (cfg : Config) (w : World) (e : HttpEnv) :
    HttpRequest → Prop
  | .register (some req) =>
    mayServe (registerCall (p.generate req.password e.salt) req.email req.name) e.envs w.db = true
  | .login (some req) =>
    (loginCall p w.hashes req).runAllowed machine e.envs (.idle w.db) = true
  | .api headers req => ∀ c, requireAuth p cfg w e headers = .ok c →
    mayServe (handle cfg.plaid c.bookGuid req) e.envs w.db = true
  | _ => True

namespace Site

variable (p : Packages) (cfg : Config)

/-- Before the first request. -/
def start (clock : Time) : Site := ⟨⟨Db.empty, fun _ => none, fun _ => none⟩, clock, [], []⟩

/-- What an input leaves. -/
def next (s : Site) : Input → Site
  | .http req e =>
    let r := s.world.respond p cfg e req
    ⟨r.2, e.now, s.issued ++ r.1.claims.toList, s.ended ++ (req.ends p cfg e).toList⟩
  | .tick ev envs => { s with world := { s.world with db := (serve ev.call envs s.world.db).2 } }

/-- The clock goes on, identifiers are new, signatures cannot be forged, and what the server is
supplied is what it may be. -/
structure FairHttp (s : Site) (req : HttpRequest) (e : HttpEnv) : Prop where
  clock : s.clock ≤ e.now
  jti : e.jti ≠ "" ∧ ∀ c ∈ s.issued, c.jti ≠ e.jti
  signed : ∀ headers, req.headers = some headers → ∀ c,
    p.verify (tokenFromRequest headers) = some c → c ∈ s.issued
  supplied : req.Supplied p cfg s.world e

/-- The inputs that come. -/
def Fair (s : Site) : Input → Prop
  | .http req e => FairHttp p cfg s req e
  | .tick ev envs => mayServe ev.call envs s.world.db = true ∧
      ((∃ book label trigger, ev = .scheduled book label trigger) ∨ ev = .purge)

/-- **The runs of the server** from a state of it, where each input meets `ok`. -/
inductive Goes (ok : Site → Input → Prop) (s : Site) : Site → Prop
  | refl : Goes ok s s
  | step {t : Site} (i : Input) (h : Goes ok s t) (hf : t.Fair p cfg i) (hok : ok t i) :
      Goes ok s (t.next p cfg i)

end Site

/-! ## What a request does -/

section Requests

variable {p : Packages} {cfg : Config} {w : World} {e : HttpEnv}

/-- The token of the answer, and the user it is for. -/
structure SignsIn (w w' : World) (e : HttpEnv) (c : Claims) : Prop where
  owner : (c.bookGuid, c.userId) ∈ w'.db.owners
  jti : c.jti = e.jti
  lifetime : c.expiresAt = c.issuedAt + tokenLifetime

/-- **A registration** makes a user and a book of its own. -/
structure Registered (w w' : World) (e : HttpEnv) (a : Answer) : Prop where
  rows : Retains (fun o => w.db.hasBook o = true) w.db w'.db
  enrolls : Enrolls w.db w'.db
  named : w'.db.Named
  hashes : ∀ u ∈ w.db.users, w'.hashes u.id = w.hashes u.id
  blacklist : w'.blacklist = w.blacklist
  answer : ∀ c, a.claims = some c → SignsIn w w' e c ∧ ∀ u ∈ w.db.users, u.id ≠ c.userId

theorem register_claims {req : RegisterRequest} {c : Claims}
    (h : (World.register p w e req).1.claims = some c) : ∃ user book,
    (serve (registerCall (p.generate req.password e.salt) req.email req.name) e.envs w.db).1 =
      .ok (.signedUp user book) ∧ c = newClaims e user book req.email req.name := by
  unfold World.register at h
  dsimp only at h
  split at h
  · rename_i user book hr
    exact ⟨user, book, hr, (Option.some.inj h).symm⟩
  · exact absurd h nofun
  · exact absurd h nofun
  · exact absurd h nofun

/-- A password that cannot be hashed is refused. -/
theorem registerCall_none (email name : String) (db : Db) :
    (registerCall none email name).swp free Duty.none
      (fun r t => t = .idle db ∧ ∃ err, r = .error err) (.idle db) := by
  refine swp_ask_idle (Stmt.reads_query _) fun found => ?_
  split
  · exact ⟨rfl, _, rfl⟩
  · exact ⟨rfl, _, rfl⟩

theorem storeHash_old {old new : Db} {hash : Option String} {hashes : Guid → Option String}
    {u : User} (hu : u ∈ old.users) : storeHash old new hash hashes u.id = hashes u.id := by
  have hany : old.users.any (·.id == u.id) = true :=
    List.any_eq_true.mpr ⟨u, hu, beq_self_eq_true _⟩
  simp [storeHash, hany]

theorem register_registers {req : RegisterRequest} (hs : w.db.Stocked) (ho : w.db.Owned)
    (hn : w.db.Named)
    (ha : mayServe (registerCall (p.generate req.password e.salt) req.email req.name) e.envs w.db =
      true) :
    Registered w (World.register p w e req).2 e (World.register p w e req).1 := by
  cases hhash : p.generate req.password e.salt with
  | none =>
    rw [hhash] at ha
    obtain ⟨hidle, err, herr⟩ := run_of_free (registerCall_none req.email req.name w.db) ha
    have hdb : (World.register p w e req).2.db = w.db := by
      simp only [World.register, hhash]
      exact congrArg Solo.db hidle
    refine ⟨by rw [hdb]; exact .refl hs ho, by rw [hdb]; exact .refl w.db, by rw [hdb]; exact hn,
      fun u hu => storeHash_old hu, rfl, fun c hc => ?_⟩
    obtain ⟨user, book, hr, -⟩ := register_claims hc
    rw [hhash] at hr
    exact absurd (herr.symm.trans hr) nofun
  | some hash =>
    rw [hhash] at ha
    obtain ⟨hserve, hallowed⟩ := @serve_map w.db e.envs _ (registerUser req.email req.name)
      fun r => .signedUp r.1 r.2
    obtain ⟨hrows, hrolls⟩ := run_of_free (swp_and (registerUser_retains req.email req.name hs ho)
      (registerUser_enrolls req.email req.name hn)) (hallowed.symm.trans ha)
    have hdb : (World.register p w e req).2.db =
        ((registerUser req.email req.name).run machine e.envs (.idle w.db)).2.db := by
      simp only [World.register, hhash]
      exact congrArg Prod.snd hserve
    rw [← hdb] at hrows hrolls
    refine ⟨hrows, hrolls.enrolls, hrolls.named, fun u hu => storeHash_old hu, rfl, fun c hc => ?_⟩
    obtain ⟨user, book, hr, rfl⟩ := register_claims hc
    rw [hhash] at hr
    have hmap : ((registerUser req.email req.name).run machine e.envs (.idle w.db)).1.map
        (fun r => Response.signedUp r.1 r.2) = .ok (.signedUp user book) :=
      (congrArg Prod.fst hserve).symm.trans hr
    cases hrun : ((registerUser req.email req.name).run machine e.envs (.idle w.db)).1 with
    | error err =>
      rw [hrun] at hmap
      exact absurd hmap nofun
    | ok a =>
      rw [hrun] at hmap
      obtain ⟨rfl, rfl⟩ := Response.signedUp.inj (Except.ok.inj hmap)
      obtain ⟨hnew, howner, -⟩ := hrolls.answer a hrun
      exact ⟨⟨howner, rfl, rfl⟩, hnew⟩

/-- **A login** changes nothing, and signs in the user whose password it carries. -/
theorem login_signsIn {req : LoginRequest} {c : Claims}
    (ha : (loginCall p w.hashes req).runAllowed machine e.envs (.idle w.db) = true)
    (hc : (World.login p w e req).1.claims = some c) :
    SignsIn w w e c ∧ ∃ u ∈ w.db.users, u.email = req.email ∧ u.id = c.userId ∧
      ((w.hashes u.id).any fun hash => p.compare hash req.password) = true := by
  have hspec : (loginCall p w.hashes req).swp free Duty.none
      (fun r _ => ∀ user book, r = .ok (some (user, book)) → user ∈ w.db.users ∧
        user.email = req.email ∧ (book, user.id) ∈ w.db.owners ∧
        ((w.hashes user.id).any fun hash => p.compare hash req.password) = true)
      (.idle w.db) := by
    refine swp_read_idle (Stmt.reads_query _) (fun _ _ _ h => by cases h) fun env found hx => ?_
    cases found with
    | none => exact fun _ _ h => by cases h
    | some user =>
      have hfound : w.db.users.find? (·.email == req.email) = some user :=
        (Stmt.query_ok hx).1.symm
      dsimp only
      split
      · rename_i hpw
        refine swp_read_idle (Stmt.reads_query _) (fun _ _ _ h => by cases h)
          fun env' found' hx' => ?_
        cases found' with
        | none => exact fun _ _ h => by cases h
        | some book =>
          intro user' book' h
          obtain ⟨rfl, rfl⟩ := Prod.mk.inj (Option.some.inj (Except.ok.inj h))
          obtain ⟨b, hb, rfl⟩ := Option.map_eq_some_iff.mp (Stmt.query_ok hx').1.symm
          have howner : b.userId = user.id := by simpa using List.find?_some hb
          refine ⟨List.mem_of_find?_eq_some hfound, by simpa using List.find?_some hfound, ?_, hpw⟩
          exact List.mem_map.mpr ⟨b, List.mem_of_find?_eq_some hb, by rw [Book.owner, howner]⟩
      · exact fun _ _ h => by cases h
  have hrun := run_of_free hspec ha
  unfold World.login at hc
  dsimp only at hc
  split at hc
  · rename_i user book hr
    obtain rfl := Option.some.inj hc
    obtain ⟨hu, hemail, howner, hpw⟩ := hrun user book hr
    exact ⟨⟨howner, rfl, rfl⟩, user, hu, hemail, rfl, hpw⟩
  · cases hc
  · cases hc

/-- What an answer to a request leaves, in the order of the routes. -/
inductive Responds (p : Packages) (cfg : Config) (w : World) (e : HttpEnv) :
    HttpRequest → Answer × World → Prop
  | plain {req : HttpRequest} {a : Answer} (h : a.claims = none) (he : req.ends p cfg e = none) :
      Responds p cfg w e req (a, w)
  | register (req : RegisterRequest) :
      Responds p cfg w e (.register (some req)) (World.register p w e req)
  | login (req : LoginRequest) : Responds p cfg w e (.login (some req)) (World.login p w e req)
  | logout (headers : Headers) :
      Responds p cfg w e (.logout headers) (.noContent, World.logout p cfg w e headers)
  | api {headers : Headers} {c : Claims} {req : Request}
      (h : requireAuth p cfg w e headers = .ok c) :
      Responds p cfg w e (.api headers req)
        (.api (serve (handle cfg.plaid c.bookGuid req) e.envs w.db).1,
          { w with db := (serve (handle cfg.plaid c.bookGuid req) e.envs w.db).2 })

theorem respond_responds (req : HttpRequest) :
    Responds p cfg w e req (w.respond p cfg e req) := by
  cases req with
  | register body =>
    simp only [World.respond]
    split
    · exact .plain rfl rfl
    · cases body with
      | none => exact .plain rfl rfl
      | some req =>
        dsimp only
        split
        · exact .plain rfl rfl
        · split
          · exact .plain rfl rfl
          · exact .register req
  | login body =>
    simp only [World.respond]
    split
    · exact .plain rfl rfl
    · cases body with
      | none => exact .plain rfl rfl
      | some req => exact .login req
  | me headers =>
    refine .plain ?_ rfl
    unfold World.me
    split
    · rfl
    · split <;> rfl
  | logout headers => exact .logout headers
  | api headers req =>
    simp only [World.respond]
    split
    · exact .plain rfl rfl
    · rename_i c h
      exact .api h

end Requests

/-! ## What every run keeps -/

/-- Each token goes with a user and a book of that user; the revocation list holds the sessions
that were ended, as long as their tokens are good for. -/
structure Site.Sound (s : Site) : Prop where
  stocked : s.world.db.Stocked
  owned : s.world.db.Owned
  named : s.world.db.Named
  owners : ∀ c ∈ s.issued, (c.bookGuid, c.userId) ∈ s.world.db.owners
  lifetime : ∀ c ∈ s.issued, c.expiresAt = c.issuedAt + tokenLifetime
  jtis : (s.issued.map (·.jti)).Nodup
  jti_ne : ∀ c ∈ s.issued, c.jti ≠ ""
  ended : ∀ j ∈ s.ended, ∃ c ∈ s.issued, c.jti = j
  listed : ∀ c ∈ s.issued,
    s.world.blacklist c.jti = if c.jti ∈ s.ended then some c.expiresAt else none
  unlisted : ∀ j t, s.world.blacklist j = some t → ∃ c ∈ s.issued, c.jti = j

theorem Site.sound_start (clock : Time) : (Site.start clock).Sound := by
  have hnone : ∀ {P : Claims → Prop}, ∀ c ∈ (Site.start clock).issued, P c :=
    fun _ h => absurd h List.not_mem_nil
  refine ⟨Db.stocked_empty, Db.owned_empty, Db.named_empty, hnone, hnone, List.nodup_nil, hnone,
    ?_, hnone, ?_⟩
  · exact fun _ h => absurd h List.not_mem_nil
  · exact fun _ _ h => absurd h nofun

section Sound

variable {p : Packages} {cfg : Config} {s : Site} {w : World} {now : Time} {e : HttpEnv}

/-- The database changes, and loses no owner. -/
theorem Site.Sound.change (h : s.Sound) (hs : w.db.Stocked) (ho : w.db.Owned) (hn : w.db.Named)
    (hg : s.world.db.owners <+: w.db.owners) (hb : w.blacklist = s.world.blacklist) :
    Site.Sound ⟨w, now, s.issued, s.ended⟩ :=
  ⟨hs, ho, hn, fun c hc => hg.subset (h.owners c hc), h.lifetime, h.jtis, h.jti_ne, h.ended,
    fun c hc => (congrFun hb c.jti).trans (h.listed c hc),
    fun j t hj => h.unlisted j t ((congrFun hb j).symm.trans hj)⟩

/-- A token is handed out, with a new identifier. -/
theorem Site.Sound.issue (h : s.Sound) {c : Claims}
    (ho : (c.bookGuid, c.userId) ∈ s.world.db.owners)
    (hl : c.expiresAt = c.issuedAt + tokenLifetime) (hne : c.jti ≠ "")
    (hnew : ∀ c' ∈ s.issued, c'.jti ≠ c.jti) :
    ({ s with issued := s.issued ++ [c] } : Site).Sound := by
  have hcases : ∀ {P : Claims → Prop}, (∀ c ∈ s.issued, P c) → P c →
      ∀ c' ∈ s.issued ++ [c], P c' := by
    intro P hold hc c' hc'
    rcases List.mem_append.mp hc' with hc' | hc'
    · exact hold c' hc'
    · exact List.mem_singleton.mp hc' ▸ hc
  have hended : c.jti ∉ s.ended := by
    intro hj
    obtain ⟨c', hc', he⟩ := h.ended c.jti hj
    exact hnew c' hc' he
  refine ⟨h.stocked, h.owned, h.named, hcases h.owners ho, hcases h.lifetime hl, ?_,
    hcases h.jti_ne hne, ?_,
    hcases h.listed ?_, ?_⟩
  · rw [List.map_append, List.map_singleton, List.nodup_append]
    refine ⟨h.jtis, List.nodup_singleton _, fun j hj j' hj' he => ?_⟩
    obtain ⟨c', hc', rfl⟩ := List.mem_map.mp hj
    exact hnew c' hc' (he.trans (List.mem_singleton.mp hj'))
  · intro j hj
    obtain ⟨c', hc', he⟩ := h.ended j hj
    exact ⟨c', List.mem_append_left _ hc', he⟩
  · rw [if_neg hended]
    cases hb : s.world.blacklist c.jti with
    | none => rfl
    | some t =>
      obtain ⟨c', hc', he⟩ := h.unlisted c.jti t hb
      exact absurd he (hnew c' hc')
  · intro j t hj
    obtain ⟨c', hc', he⟩ := h.unlisted j t hj
    exact ⟨c', List.mem_append_left _ hc', he⟩

/-- A session is ended, and listed until its token expires. -/
theorem Site.Sound.revoke (h : s.Sound) {c : Claims} (hc : c ∈ s.issued) :
    Site.Sound ⟨{ s.world with
      blacklist := Function.update s.world.blacklist c.jti (some c.expiresAt) }, now, s.issued,
      s.ended ++ [c.jti]⟩ := by
  refine ⟨h.stocked, h.owned, h.named, h.owners, h.lifetime, h.jtis, h.jti_ne, ?_,
    fun c' hc' => ?_, ?_⟩
  · intro j hj
    rcases List.mem_append.mp hj with hj | hj
    · exact h.ended j hj
    · exact ⟨c, hc, (List.mem_singleton.mp hj).symm⟩
  · by_cases hsame : c'.jti = c.jti
    · obtain rfl : c' = c := List.inj_on_of_nodup_map h.jtis hc' hc hsame
      simp
    · simp only [Function.update_of_ne hsame]
      rw [h.listed c' hc']
      simp [hsame]
  · intro j t hj
    by_cases hsame : j = c.jti
    · exact ⟨c, hc, hsame.symm⟩
    · simp only [Function.update_of_ne hsame] at hj
      exact h.unlisted j t hj

/-- A valid token is one that was handed out and has not expired. -/
theorem parseToken_iff {tokenStr : String} {c : Claims} :
    parseToken p now tokenStr = some c ↔ p.verify tokenStr = some c ∧ now < c.expiresAt := by
  simp [parseToken, Option.filter_eq_some_iff]

/-- The claims a request goes on with come from a token that verifies. -/
theorem verify_of_requireAuth {headers : Headers} {c : Claims}
    (h : requireAuth p cfg w e headers = .ok c) : tokenFromRequest headers ≠ "" ∧
      p.verify (tokenFromRequest headers) = some c ∧ e.now < c.expiresAt ∧
      isTokenRevoked cfg e w.blacklist c.jti = false := by
  unfold requireAuth at h
  dsimp only at h
  split at h
  · exact absurd h nofun
  rename_i hne
  split at h
  · exact absurd h nofun
  rename_i c' hparse
  split at h
  · exact absurd h nofun
  rename_i hlive
  obtain rfl := Except.ok.inj h
  obtain ⟨hverify, hexp⟩ := parseToken_iff.mp hparse
  exact ⟨hne, hverify, hexp, by simpa using hlive⟩

/-- **One request.** -/
theorem Site.Sound.http {req : HttpRequest} (h : s.Sound) (hf : s.FairHttp p cfg req e) :
    (s.next p cfg (.http req e)).Sound := by
  have hr := @respond_responds p cfg s.world e req
  dsimp only [Site.next]
  generalize s.world.respond p cfg e req = r at hr
  have hsame : Site.Sound ⟨s.world, e.now, s.issued, s.ended⟩ :=
    h.change h.stocked h.owned h.named List.prefix_rfl rfl
  cases hr with
  | plain hc he => simpa [hc, he] using hsame
  | register req =>
    have hreg := register_registers h.stocked h.owned h.named hf.supplied
    have hnext : Site.Sound ⟨(World.register p s.world e req).2, e.now, s.issued, s.ended⟩ :=
      h.change hreg.rows.stocked hreg.rows.owned hreg.named hreg.enrolls.owners hreg.blacklist
    cases hclaims : (World.register p s.world e req).1.claims with
    | none => simpa [hclaims, HttpRequest.ends] using hnext
    | some c =>
      obtain ⟨hsigns, -⟩ := hreg.answer c hclaims
      have hissue := hnext.issue hsigns.owner hsigns.lifetime (hsigns.jti ▸ hf.jti.1)
        (hsigns.jti ▸ hf.jti.2)
      simpa [hclaims, HttpRequest.ends] using hissue
  | login req =>
    have hnext : Site.Sound ⟨(World.login p s.world e req).2, e.now, s.issued, s.ended⟩ := hsame
    cases hclaims : (World.login p s.world e req).1.claims with
    | none => simpa [hclaims, HttpRequest.ends] using hnext
    | some c =>
      obtain ⟨hsigns, -⟩ := login_signsIn hf.supplied hclaims
      have hissue := hnext.issue hsigns.owner hsigns.lifetime (hsigns.jti ▸ hf.jti.1)
        (hsigns.jti ▸ hf.jti.2)
      simpa [hclaims, HttpRequest.ends] using hissue
  | logout headers =>
    dsimp only [Answer.claims, Option.toList, HttpRequest.ends]
    rw [List.append_nil]
    unfold World.logout
    dsimp only
    split
    · rename_i hempty
      simpa [hempty] using hsame
    split
    · rename_i hparse
      simpa [hparse] using hsame
    rename_i hne _ c hparse
    have hc : c ∈ s.issued := hf.signed headers rfl c (parseToken_iff.mp hparse).1
    have hexp : e.now < c.expiresAt := (parseToken_iff.mp hparse).2
    have hjti := h.jti_ne c hc
    by_cases hup : (cfg.limiter && e.redis) = true
    · obtain ⟨hlimiter, hredis⟩ := (Bool.and_eq_true _ _).mp hup
      have hrevoke : revokeToken cfg e s.world.blacklist c.jti (c.expiresAt - e.now) =
          Function.update s.world.blacklist c.jti (some c.expiresAt) := by
        have hpos : ¬ c.expiresAt - e.now ≤ 0 := by
          have := Int.sub_pos_of_lt hexp
          exact not_le.mpr this
        have hat : e.now + (c.expiresAt - e.now) = c.expiresAt := add_sub_cancel _ _
        simp [revokeToken, hlimiter, hredis, hjti, hpos, hat]
      rw [hrevoke]
      have hrevoked := @Site.Sound.revoke s e.now h c hc
      simpa [hup, hne, hparse] using hrevoked
    · have hkeep : revokeToken cfg e s.world.blacklist c.jti (c.expiresAt - e.now) =
          s.world.blacklist := by
        unfold revokeToken
        split
        · rfl
        · rename_i hno
          have hredis : e.redis = false := by
            simp only [Bool.or_eq_true, Bool.not_eq_true', not_or, Bool.not_eq_false] at hno
            simpa [hno.1.1] using hup
          simp [hredis]
      rw [hkeep]
      simpa [hup] using hsame
  | @api headers c req hauth =>
    have hconfined : Confined c.bookGuid s.world.db
        (serve (handle cfg.plaid c.bookGuid req) e.envs s.world.db).2 :=
      run_of_free (handle_confined cfg.plaid req h.stocked h.owned) (hf.supplied c hauth)
    obtain ⟨hu, ho⟩ := run_of_free (owners_of_issues (handle_keepsOwners cfg.plaid req))
      (hf.supplied c hauth)
    have hnamed : (serve (handle cfg.plaid c.bookGuid req) e.envs s.world.db).2.Named :=
      ⟨hu ▸ h.named.users, ho ▸ h.named.books⟩
    have hnext : Site.Sound ⟨{ s.world with
        db := (serve (handle cfg.plaid c.bookGuid req) e.envs s.world.db).2 }, e.now, s.issued,
        s.ended⟩ :=
      h.change hconfined.stocked hconfined.owned hnamed (ho ▸ List.prefix_rfl) rfl
    simpa [Answer.claims, HttpRequest.ends] using hnext

theorem tick_keepsOwners {ev : Event} {envs : Nat → Env} (hf : s.Fair p cfg (.tick ev envs)) :
    (serve ev.call envs s.world.db).2.users = s.world.db.users ∧
      (serve ev.call envs s.world.db).2.owners = s.world.db.owners := by
  obtain ⟨ha, hev⟩ := hf
  have hkeeps : ev.call.Issues KeepsOwners := by
    rcases hev with ⟨book, label, trigger, rfl⟩ | rfl
    · have hsnap := @takeSnapshotForBook_issues book label trigger
      exact issues_answer (hsnap.mono fun _ hq => hq.keepsOwners)
    · exact issues_exec (keepsOwners_of keepsBooks_purge) fun _ => trivial
  exact run_of_free (owners_of_issues hkeeps) ha

/-- **What the scheduler does.** -/
theorem Site.Sound.tick {ev : Event} {envs : Nat → Env} (h : s.Sound)
    (hf : s.Fair p cfg (.tick ev envs)) : (s.next p cfg (.tick ev envs)).Sound := by
  have hserve := serve_leaves h.stocked h.owned hf.1
  obtain ⟨hu, ho⟩ := tick_keepsOwners hf
  have hnamed : (serve ev.call envs s.world.db).2.Named :=
    ⟨hu ▸ h.named.users, ho ▸ h.named.books⟩
  exact h.change hserve.stocked hserve.owned hnamed (ho ▸ List.prefix_rfl) rfl

/-- **What every run keeps.** -/
theorem Site.Goes.sound {ok : Site → Input → Prop} {t : Site} (h : Goes p cfg ok s t)
    (hs : s.Sound) : t.Sound := by
  induction h with
  | refl => exact hs
  | step i _ hf _ ih =>
    cases i with
    | http req e => exact ih.http hf
    | tick ev envs => exact ih.tick hf

end Sound

/-! ## Sessions -/

section Sessions

variable {p : Packages} {cfg : Config} {s t : Site} {e : HttpEnv} {headers : Headers} {c : Claims}

/-- While Redis answers, the sessions that are refused are those that were ended. -/
theorem isTokenRevoked_iff (h : s.Sound) (hlimiter : cfg.limiter = true) (hredis : e.redis = true)
    (hc : c ∈ s.issued) (hexp : e.now < c.expiresAt) :
    isTokenRevoked cfg e s.world.blacklist c.jti = true ↔ c.jti ∈ s.ended := by
  have hjti := h.jti_ne c hc
  by_cases hended : c.jti ∈ s.ended
  · simp [isTokenRevoked, hlimiter, hredis, hjti, h.listed c hc, hended, hexp]
  · simp [isTokenRevoked, hlimiter, hredis, hjti, h.listed c hc, hended]

/-! ### One session -/

/-- The claims of the first token. -/
def firstClaims : Claims := ⟨2, 3, "ana@example.org", "Ana", "a", tokenLifetime, 0⟩

/-- Only the first token verifies. -/
def oneToken : Packages :=
  { sign := fun c => c.jti, verify := fun t => if t = "a" then some firstClaims else none,
    generate := fun pw _ => some pw, compare := fun h pw => h == pw,
    isUpper := Char.isUpper, isLower := Char.isLower, isDigit := Char.isDigit }

/-- The server has Redis. -/
def limited : Config := ⟨plainConfig, true⟩

/-- Nothing fails, and Redis answers. -/
def calmAt (n : Nat) (now : Time) (jti : String) : HttpEnv := ⟨calm n, now, jti, 0, true, true⟩

/-- The headers with the first token. -/
def bearer : Headers := ⟨"Bearer a", none⟩

/-- After Ana's registration. -/
def enrolled : Site :=
  (Site.start 0).next oneToken limited
    (.http (.register (some ⟨"ana@example.org", "Secret123", "Ana"⟩)) (calmAt 1 0 "a"))

/-- After Ana's logout. -/
def loggedOut : Site := enrolled.next oneToken limited (.http (.logout bearer) (calmAt 50 100 "-"))

/-- After an attempt with the token to reset Ana's book. -/
def refused : Site :=
  loggedOut.next oneToken limited (.http (.api bearer .factoryReset) (calmAt 60 200 "-"))

theorem oneToken_verify {str : String} (h : oneToken.verify str = some c) : c = firstClaims := by
  dsimp only [oneToken] at h
  split at h
  · exact (Option.some.inj h).symm
  · exact absurd h nofun

/-- Where the first token is the only one, the rules for tokens hold. -/
theorem fairHttp_oneToken {req : HttpRequest} (hi : s.issued = [firstClaims])
    (hclock : s.clock ≤ e.now) (hjti : e.jti ≠ "" ∧ e.jti ≠ "a")
    (hs : req.Supplied oneToken limited s.world e) : s.FairHttp oneToken limited req e := by
  refine ⟨hclock, ⟨hjti.1, fun c hc => ?_⟩, fun headers _ c hc => ?_, hs⟩
  · rw [hi] at hc
    rw [List.eq_of_mem_singleton hc]
    exact hjti.2.symm
  · rw [hi, oneToken_verify hc]
    exact List.mem_singleton_self _

theorem enrolled_issued : enrolled.issued = [firstClaims] := by decide +kernel

theorem loggedOut_issued : loggedOut.issued = [firstClaims] ∧ loggedOut.ended = ["a"] := by
  decide +kernel

theorem goes_enrolled : Site.Goes oneToken limited (fun _ _ => True) (.start 0) enrolled := by
  refine .step _ .refl ⟨by decide, by decide, nofun, ?_⟩ trivial
  change mayServe _ _ _ = true
  decide +kernel

theorem goes_loggedOut : Site.Goes oneToken limited (fun _ _ => True) (.start 0) loggedOut :=
  .step _ goes_enrolled
    (fairHttp_oneToken enrolled_issued (by decide +kernel) (by decide) trivial) trivial

/-- **A session lasts** from its login until it is logged out, or for seven days. -/
theorem session_lasts {clock : Time} (hr : Site.Goes p cfg (fun _ _ => True) (.start clock) s)
    (hlimiter : cfg.limiter = true) (hredis : e.redis = true)
    (hsigned : ∀ c, p.verify (tokenFromRequest headers) = some c → c ∈ s.issued) :
    requireAuth p cfg s.world e headers = .ok c ↔
      (tokenFromRequest headers ≠ "" ∧ p.verify (tokenFromRequest headers) = some c) ∧
        e.now < c.issuedAt + tokenLifetime ∧ c.jti ∉ s.ended := by
  have hs := hr.sound (Site.sound_start clock)
  constructor
  · intro h
    obtain ⟨hne, hverify, hexp, hlive⟩ := verify_of_requireAuth h
    have hc := hsigned c hverify
    refine ⟨⟨hne, hverify⟩, hs.lifetime c hc ▸ hexp, fun hended => ?_⟩
    rw [(isTokenRevoked_iff hs hlimiter hredis hc hexp).mpr hended] at hlive
    exact absurd hlive nofun
  · rintro ⟨⟨hne, hverify⟩, hexp, hended⟩
    have hc := hsigned c hverify
    rw [← hs.lifetime c hc] at hexp
    have hlive : ¬ isTokenRevoked cfg e s.world.blacklist c.jti = true := fun hrevoked =>
      hended ((isTokenRevoked_iff hs hlimiter hredis hc hexp).mp hrevoked)
    simp only [requireAuth, if_neg hne, parseToken_iff.mpr ⟨hverify, hexp⟩, if_neg hlive]

/-- The token is accepted before the logout and refused after it. -/
theorem session_lasts_logout :
    requireAuth oneToken limited enrolled.world (calmAt 50 90 "-") bearer = .ok firstClaims ∧
      requireAuth oneToken limited loggedOut.world (calmAt 50 110 "-") bearer ≠
        .ok firstClaims := by
  have hbearer : tokenFromRequest bearer ≠ "" ∧
      oneToken.verify (tokenFromRequest bearer) = some firstClaims := by decide
  constructor
  · refine (session_lasts goes_enrolled rfl rfl fun c hc => ?_).mpr
      ⟨hbearer, by decide, by decide +kernel⟩
    rw [enrolled_issued, oneToken_verify hc]
    exact List.mem_singleton_self _
  · rw [ne_eq, session_lasts goes_loggedOut rfl rfl fun c hc => ?_]
    · rw [loggedOut_issued.2]
      exact fun h => h.2.2 (List.mem_singleton_self _)
    · rw [loggedOut_issued.1, oneToken_verify hc]
      exact List.mem_singleton_self _

/-! ## Owners -/

/-- One request that no session of the owner makes. -/
theorem http_sameRows {req : HttpRequest} {o u : Guid} (h : s.Sound) (hf : s.FairHttp p cfg req e)
    (ho : (o, u) ∈ s.world.db.owners)
    (hno : ∀ headers q, req = .api headers q → ∀ c, requireAuth p cfg s.world e headers = .ok c →
      c.userId ≠ u) : SameRows o s.world.db (s.next p cfg (.http req e)).world.db := by
  have hbook : s.world.db.hasBook o = true := by
    obtain ⟨b, hb, he⟩ := List.mem_map.mp ho
    exact List.any_eq_true.mpr ⟨b, hb, beq_iff_eq.mpr (congrArg Prod.fst he)⟩
  have hr := @respond_responds p cfg s.world e req
  dsimp only [Site.next]
  generalize s.world.respond p cfg e req = r at hr
  cases hr with
  | plain hc he => exact .refl o _
  | register req =>
    exact (register_registers h.stocked h.owned h.named hf.supplied).rows.rows o hbook
  | login req => exact .refl o _
  | logout headers =>
    have hdb : (World.logout p cfg s.world e headers).db = s.world.db := by
      unfold World.logout
      dsimp only
      split
      · rfl
      · split <;> rfl
    rw [hdb]
    exact .refl o _
  | @api headers c q hauth =>
    have hconfined : Confined c.bookGuid s.world.db
        (serve (handle cfg.plaid c.bookGuid q) e.envs s.world.db).2 :=
      run_of_free (handle_confined cfg.plaid q h.stocked h.owned) (hf.supplied c hauth)
    refine hconfined.others o fun he => hno headers q rfl c hauth ?_
    have hc := hf.signed headers rfl c (verify_of_requireAuth hauth).2.1
    exact h.named.owner_unique (he ▸ h.owners c hc) ho

/-- Nobody has a session of the user: each was ended, or its token has expired. -/
def Site.SignedOut (s : Site) (u : Guid) : Prop :=
  ∀ c ∈ s.issued, c.userId = u → c.jti ∈ s.ended ∨ c.expiresAt ≤ s.clock

/-- Redis answers, no login is made with the password of the user, and the scheduler leaves the
book alone. -/
def Outside (p : Packages) (o : Guid) (user : User) (hash : Option String) (s : Site) :
    Input → Prop
  | .http (.login (some req)) e => e.redis = true ∧
      (req.email = user.email → (hash.any fun h => p.compare h req.password) = false)
  | .http _ e => e.redis = true
  | .tick ev _ => ev.Leaves o s.world.db

/-- While the user is signed out. -/
structure Shut (o : Guid) (user : User) (s t : Site) : Prop where
  sound : t.Sound
  owner : (o, user.id) ∈ t.world.db.owners
  found : user ∈ t.world.db.users
  hash : t.world.hashes user.id = s.world.hashes user.id
  signedOut : t.SignedOut user.id
  rows : SameRows o s.world.db t.world.db

theorem Outside.redis {o : Guid} {user : User} {hash : Option String} {req : HttpRequest}
    (h : Outside p o user hash s (.http req e)) : e.redis = true := by
  cases req with
  | login body =>
    cases body with
    | none => exact h
    | some req => exact h.1
  | _ => exact h

/-- A request that is let through is of another user's session. -/
theorem Shut.stranger {o : Guid} {user : User} (h : Shut o user s t) (hlimiter : cfg.limiter = true)
    (hredis : e.redis = true) (hclock : t.clock ≤ e.now)
    (hsigned : ∀ c, p.verify (tokenFromRequest headers) = some c → c ∈ t.issued)
    (hauth : requireAuth p cfg t.world e headers = .ok c) : c.userId ≠ user.id := by
  intro hu
  obtain ⟨-, hverify, hexp, hlive⟩ := verify_of_requireAuth hauth
  have hc := hsigned c hverify
  rcases h.signedOut c hc hu with hended | hexpired
  · rw [(isTokenRevoked_iff h.sound hlimiter hredis hc hexp).mpr hended] at hlive
    exact absurd hlive nofun
  · exact absurd (hexpired.trans hclock) (not_le.mpr hexp)

/-- What a request leaves of the user: a token is for another one, unless the password is right. -/
structure Foreign (user : User) (w w' : World) (req : HttpRequest) (a : Answer) : Prop where
  owners : w.db.owners <+: w'.db.owners
  users : w.db.users <+: w'.db.users
  hash : w'.hashes user.id = w.hashes user.id
  claims : ∀ c, a.claims = some c → c.userId = user.id → ∃ body, req = .login (some body) ∧
    body.email = user.email ∧ ((w.hashes user.id).any fun h => p.compare h body.password) = true

theorem respond_foreign {user : User} {req : HttpRequest} (h : t.Sound)
    (hf : t.FairHttp p cfg req e) (hu : user ∈ t.world.db.users) :
    Foreign (p := p) user t.world (t.world.respond p cfg e req).2 req
      (t.world.respond p cfg e req).1 := by
  have hr := @respond_responds p cfg t.world e req
  generalize t.world.respond p cfg e req = r at hr
  cases hr with
  | plain hc he => exact ⟨List.prefix_rfl, List.prefix_rfl, rfl, fun c hc' => by simp [hc] at hc'⟩
  | register req =>
    have hreg := register_registers h.stocked h.owned h.named hf.supplied
    exact ⟨hreg.enrolls.owners, hreg.enrolls.users, hreg.hashes user hu, fun c hc he =>
      absurd he.symm ((hreg.answer c hc).2 user hu)⟩
  | login req =>
    refine ⟨List.prefix_rfl, List.prefix_rfl, rfl, fun c hc he => ?_⟩
    obtain ⟨-, u, hu', hemail, hid, hpw⟩ := login_signsIn hf.supplied hc
    have hsame : u = user := List.inj_on_of_nodup_map h.named.users hu' hu (hid.trans he)
    exact ⟨req, rfl, hsame ▸ hemail.symm, hsame ▸ hpw⟩
  | logout headers =>
    have hw : (World.logout p cfg t.world e headers).db = t.world.db ∧
        (World.logout p cfg t.world e headers).hashes = t.world.hashes := by
      unfold World.logout
      dsimp only
      split
      · exact ⟨rfl, rfl⟩
      · split <;> exact ⟨rfl, rfl⟩
    refine ⟨?_, ?_, congrFun hw.2 _, fun c hc => absurd hc nofun⟩
    · rw [hw.1]
    · rw [hw.1]
  | @api headers c q hauth =>
    obtain ⟨hu', ho⟩ := run_of_free (owners_of_issues (handle_keepsOwners cfg.plaid q))
      (hf.supplied c hauth)
    refine ⟨?_, ?_, rfl, fun c hc => absurd hc nofun⟩
    · exact (show _ = _ from ho) ▸ List.prefix_rfl
    · exact (show _ = _ from hu') ▸ List.prefix_rfl

/-- **One request** while the user is signed out. -/
theorem Shut.http {o : Guid} {user : User} {req : HttpRequest} (h : Shut o user s t)
    (hlimiter : cfg.limiter = true) (hf : t.FairHttp p cfg req e)
    (hok : Outside p o user (s.world.hashes user.id) t (.http req e)) :
    Shut o user s (t.next p cfg (.http req e)) := by
  have hrows := http_sameRows h.sound hf h.owner fun headers q hq c hauth =>
    h.stranger hlimiter hok.redis hf.clock (hf.signed headers (hq ▸ rfl)) hauth
  have hforeign := respond_foreign h.sound hf h.found
  refine ⟨h.sound.http hf, hforeign.owners.subset h.owner, hforeign.users.subset h.found,
    hforeign.hash.trans h.hash, fun c hc hu => ?_, h.rows.trans hrows⟩
  rcases List.mem_append.mp hc with hc | hc
  · rcases h.signedOut c hc hu with hended | hexpired
    · exact .inl (List.mem_append_left _ hended)
    · exact .inr (hexpired.trans hf.clock)
  · -- a token of the user takes the password
    obtain ⟨body, rfl, hemail, hpw⟩ := hforeign.claims c (Option.mem_toList.mp hc) hu
    rw [h.hash, hok.2 hemail] at hpw
    exact absurd hpw nofun

/-- **What the scheduler does** while the user is signed out. -/
theorem Shut.tick {o : Guid} {user : User} {hash : Option String} {ev : Event} {envs : Nat → Env}
    (h : Shut o user s t) (hf : t.Fair p cfg (.tick ev envs))
    (hok : Outside p o user hash t (.tick ev envs)) :
    Shut o user s (t.next p cfg (.tick ev envs)) := by
  have hserve := serve_leaves h.sound.stocked h.sound.owned hf.1
  obtain ⟨hu, ho⟩ := tick_keepsOwners hf
  have hbook : t.world.db.hasBook o = true := by
    obtain ⟨b, hb, he⟩ := List.mem_map.mp h.owner
    exact List.any_eq_true.mpr ⟨b, hb, beq_iff_eq.mpr (congrArg Prod.fst he)⟩
  refine ⟨h.sound.tick hf, ?_, ?_, h.hash, h.signedOut, h.rows.trans (hserve.rows o ⟨hbook, hok⟩)⟩
  · exact (show _ = _ from ho) ▸ h.owner
  · exact (show _ = _ from hu) ▸ h.found

/-- **Without a session of its owner nobody changes a book.** Once the user is signed out
everywhere, and as long as no login is made with the password, whatever requests come, in any order
and however they fail, leave the rows of the user's book as they are. -/
theorem signed_out {clock : Time} {o : Guid} {user : User}
    (hr : Site.Goes p cfg (fun _ _ => True) (.start clock) s) (hlimiter : cfg.limiter = true)
    (hu : user ∈ s.world.db.users) (ho : (o, user.id) ∈ s.world.db.owners)
    (hout : s.SignedOut user.id)
    (h : Site.Goes p cfg (Outside p o user (s.world.hashes user.id)) s t) :
    SameRows o s.world.db t.world.db := by
  have hs := hr.sound (Site.sound_start clock)
  have hshut : Shut o user s t := by
    induction h with
    | refl => exact ⟨hs, ho, hu, rfl, hout, .refl o _⟩
    | step i _ hf hok ih =>
      cases i with
      | http req e => exact ih.http hlimiter hf hok
      | tick ev envs => exact ih.tick hf hok
  exact hshut.rows

/-- After the logout, the reset with the old token is refused and a registration leaves the book. -/
theorem signed_out_refused : SameRows 3 loggedOut.world.db
    (refused.next oneToken limited
      (.http (.register (some ⟨"bob@example.org", "Secret123", "Bob"⟩))
        (calmAt 100 300 "b"))).world.db := by
  have hout : loggedOut.SignedOut 2 := by
    intro c hc _
    rw [loggedOut_issued.1] at hc
    rw [List.eq_of_mem_singleton hc, loggedOut_issued.2]
    exact .inl (List.mem_singleton_self _)
  refine @signed_out oneToken limited loggedOut _ 0 3 ⟨2, "ana@example.org", "Ana"⟩
    goes_loggedOut rfl (by decide +kernel) (by decide +kernel) hout
    (.step _ (.step _ .refl (fairHttp_oneToken loggedOut_issued.1 (by decide +kernel) (by decide) ?_)
      rfl) (fairHttp_oneToken ?_ (by decide +kernel) (by decide) ?_) rfl)
  · -- the token is refused
    have hrefused : requireAuth oneToken limited loggedOut.world (calmAt 60 200 "-") bearer =
        .error "token has been revoked" := by decide +kernel
    intro c hc
    exact absurd (hrefused.symm.trans hc) nofun
  · decide +kernel
  · change mayServe _ _ _ = true
    decide +kernel

end Sessions

end Antimoney.Auth
