import Antimoney.Server

/-!
# Sessions

`internal/auth/auth.go`, the revocation list of `internal/ratelimit/ratelimit.go` and the `/auth`
routes of `cmd/server/main.go`. The jwt and bcrypt packages and the Unicode tables are parameters.
Whether `AllowRegistration` and `AllowLogin` let a request through is up to the environment.

* `requireAuth`: the check in front of every route under `/api`.
* `World.respond`: what the server answers to a request, and what it leaves.
-/

namespace Antimoney.Auth

open Antimoney.Lib

/-! ## Tokens -/

/-- `Claims`; the `NumericDate`s are in seconds. -/
structure Claims where
  userId : Guid
  bookGuid : Guid
  email : String
  name : String
  jti : String
  expiresAt : Time
  issuedAt : Time
  deriving DecidableEq, Repr

/-- The packages the server calls. -/
structure Packages where
  /-- `SignedString` with HS256 and the secret. -/
  sign : Claims → String
  /-- The claims of a token whose HMAC signature under the secret is right. -/
  verify : String → Option Claims
  /-- `bcrypt.GenerateFromPassword`, with the salt it draws. -/
  generate : String → Nat → Option String
  /-- `bcrypt.CompareHashAndPassword` finds no mismatch. -/
  compare : String → String → Bool
  isUpper : Char → Bool
  isLower : Char → Bool
  isDigit : Char → Bool

structure Config where
  plaid : PlaidConfig
  /-- The limiter is not nil: the Redis URL could be parsed. -/
  limiter : Bool

/-- What a request finds around it. -/
structure HttpEnv where
  envs : Nat → Env
  now : Time
  /-- What `newJTI` draws. -/
  jti : String
  salt : Nat
  /-- `AllowRegistration` or `AllowLogin` says yes. -/
  allow : Bool
  /-- Redis answers. -/
  redis : Bool

/-- The headers `TokenFromRequest` reads: `Authorization`, empty if absent, and the cookie. -/
structure Headers where
  authorization : String
  cookie : Option String
  deriving DecidableEq, Repr

/-- `TokenFromRequest`. -/
def tokenFromRequest (r : Headers) : String :=
  if "Bearer ".toList.isPrefixOf r.authorization.toList then
    String.ofList (r.authorization.toList.drop "Bearer ".length)
  else r.cookie.getD ""

/-- Seven days. -/
def tokenLifetime : Time := 7 * 24 * 60 * 60

/-- The claims of `GenerateToken`. -/
def newClaims (e : HttpEnv) (userId bookGuid : Guid) (email name : String) : Claims :=
  ⟨userId, bookGuid, email, name, e.jti, e.now + tokenLifetime, e.now⟩

/-- `ParseToken`: the signature holds and the token has not expired. -/
def parseToken (p : Packages) (now : Time) (tokenStr : String) : Option Claims :=
  (p.verify tokenStr).filter fun c => now < c.expiresAt

/-! ## Revocation -/

/-- The keys `jti:revoked:%s` of Redis, with the time they expire at. -/
abbrev Blacklist := String → Option Time

/-- `RevokeToken`: `SET` with a time to live. -/
def revokeToken (cfg : Config) (e : HttpEnv) (b : Blacklist) (jti : String) (ttl : Time) :
    Blacklist :=
  if !cfg.limiter || jti == "" || decide (ttl ≤ 0) then b
  else if e.redis then Function.update b jti (some (e.now + ttl))
  else b

/-- `IsTokenRevoked`: `EXISTS`; no, if Redis does not answer. -/
def isTokenRevoked (cfg : Config) (e : HttpEnv) (b : Blacklist) (jti : String) : Bool :=
  if !cfg.limiter || jti == "" then false
  else e.redis && (b jti).any fun t => e.now < t

/-! ## The server -/

structure World where
  db : Db
  /-- `password_hash` of the rows of `users`. -/
  hashes : Guid → Option String
  blacklist : Blacklist

structure RegisterRequest where
  email : String
  password : String
  name : String
  deriving DecidableEq, Repr

structure LoginRequest where
  email : String
  password : String
  deriving DecidableEq, Repr

/-- A request; a body is `none` if it cannot be decoded. -/
inductive HttpRequest where
  | register (body : Option RegisterRequest)
  | login (body : Option LoginRequest)
  | me (headers : Headers)
  | logout (headers : Headers)
  | api (headers : Headers) (req : Request)

inductive Answer where
  | error (status : Nat) (text : String)
  /-- `AuthResponse`: the token, with the claims it was made from. -/
  | signedIn (status : Nat) (token : String) (claims : Claims)
  | me (claims : Claims)
  | noContent
  | api (answer : Except Err Response)

/-- `RequireAuth`: the claims the request goes on with, or the text it is refused with. -/
def requireAuth (p : Packages) (cfg : Config) (w : World) (e : HttpEnv) (headers : Headers) :
    Except String Claims :=
  let tokenStr := tokenFromRequest headers
  if tokenStr = "" then .error "missing authorization"
  else match parseToken p e.now tokenStr with
    | none => .error "invalid or expired token"
    | some c =>
      if isTokenRevoked cfg e w.blacklist c.jti then .error "token has been revoked"
      else .ok c

/-! ### Passwords -/

/-- `validatePassword`; the length is in bytes. -/
def validatePassword (p : Packages) (pw : String) : Option String :=
  if pw.utf8ByteSize < 8 then some "password must be at least 8 characters"
  else
    let hasUpper := pw.toList.any p.isUpper
    let hasLower := pw.toList.any fun c => !p.isUpper c && p.isLower c
    let hasDigit := pw.toList.any fun c => !p.isUpper c && !p.isLower c && p.isDigit c
    if !hasUpper then some "password must contain at least one uppercase letter"
    else if !hasLower then some "password must contain at least one lowercase letter"
    else if !hasDigit then some "password must contain at least one number"
    else none

/-- `Register` up to the token; a password that cannot be hashed is refused after the e-mail. -/
def registerCall (hash : Option String) (email name : String) : Call Response :=
  match hash with
  | some _ => (Event.signUp email name).call
  | none => do
    let found ← reply (emailExists email)
    if countOrZero found false then .fail .emailTaken else .fail (.message "hash password")

/-- The rows of `users` that came have the hash. -/
def storeHash (old new : Db) (hash : Option String) (hashes : Guid → Option String) (u : Guid) :
    Option String :=
  if new.users.any (·.id == u) && !old.users.any (·.id == u) then hash else hashes u

/-- `SELECT id, password_hash, name FROM users WHERE email = $1`. -/
def selectUser (email : String) : Stmt (Option User) :=
  .query fun db => db.users.find? (·.email == email)

/-- `SELECT guid FROM books WHERE user_id = $1 LIMIT 1`. -/
def selectUserBook (user : Guid) : Stmt (Option Guid) :=
  .query fun db => (db.books.find? (·.userId == user)).map (·.guid)

/-- `Login` up to the token: the user and the book, `none` for `ErrInvalidCreds`. -/
def loginCall (p : Packages) (hashes : Guid → Option String) (req : LoginRequest) :
    Call (Option (User × Guid)) := do
  match ← exec "" (selectUser req.email) with
  | none => return none
  | some user =>
    if (hashes user.id).any fun hash => p.compare hash req.password then
      match ← exec "find book" (selectUserBook user.id) with
      | none => .fail (.message "find book")
      | some book => return some (user, book)
    else return none

/-! ### Routes -/

namespace World

variable (p : Packages) (cfg : Config) (w : World) (e : HttpEnv)

/-- The answer that carries a new token. -/
def signIn (status : Nat) (userId bookGuid : Guid) (email name : String) : Answer :=
  let claims := newClaims e userId bookGuid email name
  .signedIn status (p.sign claims) claims

def register (req : RegisterRequest) : Answer × World :=
  let hash := p.generate req.password e.salt
  let r := serve (registerCall hash req.email req.name) e.envs w.db
  let answer := match r.1 with
    | .ok (.signedUp user book) => signIn p e 201 user book req.email req.name
    | .ok _ => .error 500 "registration failed"
    | .error .emailTaken => .error 409 "email already in use"
    | .error _ => .error 500 "registration failed"
  (answer, { w with db := r.2, hashes := storeHash w.db r.2 hash w.hashes })

def login (req : LoginRequest) : Answer × World :=
  let answer := match ((loginCall p w.hashes req).run machine e.envs (.idle w.db)).1 with
    | .ok (some (user, book)) => signIn p e 200 user.id book req.email user.name
    | .ok none => .error 401 "invalid email or password"
    | .error _ => .error 500 "login failed"
  (answer, w)

/-- `/auth/me`. -/
def me (headers : Headers) : Answer :=
  match parseToken p e.now (tokenFromRequest headers) with
  | none => .error 401 "invalid token"
  | some c =>
    if isTokenRevoked cfg e w.blacklist c.jti then .error 401 "token has been revoked"
    else .me c

/-- `/auth/logout`. -/
def logout (headers : Headers) : World :=
  let tokenStr := tokenFromRequest headers
  if tokenStr = "" then w
  else match parseToken p e.now tokenStr with
    | none => w
    | some c => { w with blacklist := revokeToken cfg e w.blacklist c.jti (c.expiresAt - e.now) }

/-- **What the server answers**, and what it leaves. -/
def respond : HttpRequest → Answer × World
  | .register body =>
    if cfg.limiter && !e.allow then
      (.error 429 "registration limit reached, try again tomorrow", w)
    else match body with
      | none => (.error 400 "invalid request body", w)
      | some req =>
        if req.email = "" ∨ req.password = "" then
          (.error 400 "email and password are required", w)
        else match validatePassword p req.password with
          | some text => (.error 400 text, w)
          | none => register p w e req
  | .login body =>
    if cfg.limiter && !e.allow then
      (.error 429 "too many login attempts, try again later", w)
    else match body with
      | none => (.error 400 "invalid request body", w)
      | some req => login p w e req
  | .me headers => (me p cfg w e headers, w)
  | .logout headers => (.noContent, logout p cfg w e headers)
  | .api headers req =>
    match requireAuth p cfg w e headers with
    | .error text => (.error 401 text, w)
    | .ok c =>
      let r := serve (handle cfg.plaid c.bookGuid req) e.envs w.db
      (.api r.1, { w with db := r.2 })

end World

end Antimoney.Auth
