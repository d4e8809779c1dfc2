import TakaFlow.Accounts

/-!
# Sessions

Logging in, rotating a refresh token and logging out. The tables are those of users, of refresh
tokens and of audit logs; what `register` does to the others is in `register`.
-/

namespace TakaFlow

open Txn

namespace errors

def unauthenticated (message : String) : DomainError := { code := .unauthenticated, message }

def invalidCredentials : DomainError :=
  { code := .invalidCredentials, message := "Phone or password is incorrect" }

def forbidden (message : String) : DomainError := { code := .forbidden, message }

end errors

/-! ### The store -/

/-- `families` are the identifiers `randomUUID` has handed out for the sessions committed so far:
it does not return one of them again. -/
structure AuthStore where
  users : Table User.id := {}
  refreshTokens : Table RefreshToken.id := {}
  auditLogs : Table AuditLog.id := {}
  families : Table (id : Uuid → Uuid) := {}

/-- What a transaction can hold. All but the last are locks: unpublished entries of the unique
indexes, rows of `refresh_tokens` (also while they are being inserted), and an identifier just
drawn. The last is a mark: an `UPDATE` has passed over a row it meant to change. -/
inductive AuthToken where
  | phone (phone : String)
  | tokenHash (hash : String)
  | user (id : Uuid)
  | auditLog (id : ℕ)
  | refreshToken (id : Uuid)
  | family (id : Uuid)
  | passed (id : Uuid)
  deriving DecidableEq

def AuthToken.isLock : AuthToken → Bool
  | .passed _ => false
  | _ => true

abbrev AuthTx (α : Type) : Type 1 := Program AuthStore AuthToken DriverError Env Empty Error α

abbrev AuthQuery (ρ : Type) : Type := Stmt AuthStore AuthToken DriverError Env ρ

namespace AuthStore

variable (d : AuthStore)

/-- `WHERE phone = $1`. -/
def userByPhone (phone : String) : Option User := d.users.rows.find? fun u => u.phone = phone

/-- `WHERE token_hash = $1`. -/
def tokenByHash (hash : String) : Option RefreshToken :=
  d.refreshTokens.rows.find? fun r => r.tokenHash = hash

/-- `WHERE family_id = $1`. -/
def tokensOf (familyId : Uuid) : List RefreshToken :=
  d.refreshTokens.rows.filter fun r => r.familyId = familyId

def insertUser (r : User) : AuthStore := { d with users := d.users.insert r }

def insertToken (r : RefreshToken) : AuthStore :=
  { d with refreshTokens := d.refreshTokens.insert r }

def insertAudit (r : AuditLog) : AuthStore := { d with auditLogs := d.auditLogs.insert r }

def insertFamily (id : Uuid) : AuthStore := { d with families := d.families.insert id }

/-- `SET revoked_at = $2, replaced_by = $3 WHERE id = $1`. -/
def replaceToken (id : Uuid) (now : Timestamp) (replacedBy : Uuid) : AuthStore :=
  { d with
    refreshTokens := d.refreshTokens.modify id fun r =>
      { r with revokedAt := some now, replacedBy := some replacedBy } }

/-- `SET revoked_at = $2 WHERE id = $1`. -/
def revokeToken (id : Uuid) (now : Timestamp) : AuthStore :=
  { d with refreshTokens := d.refreshTokens.modify id fun r => { r with revokedAt := some now } }

end AuthStore

/-! ### Inputs and outcomes -/

/-- The platform and `verifySecret`. -/
structure AuthPlatform extends Platform where
  verifySecret : (hash plain : String) → Bool

/-- The account of an `AuthResult`. -/
structure AccountSummary where
  id : Uuid
  balanceMinor : ℤ

structure LoginInput where
  phone : String
  password : String

/-- What `refresh` finds out before it answers: after the commit the last two are errors. -/
inductive RefreshOutcome where
  | rotated (result : Json)
  | reuseDetected
  | alreadyRevoked

/-! ### Statements -/

namespace auth

/-- `tx.query`. -/
abbrev query {ρ : Type} (s : AuthQuery ρ) : AuthTx ρ := Program.exec Error.ofDriver s

def fail {α : Type} (e : DomainError) : AuthTx α := .throw (.domain e)

/-- `if (!p) throw e`. -/
def require (p : Prop) [Decidable p] (e : DomainError) : AuthTx Unit :=
  if p then .ret () else fail e

/-- `if (!o) throw e`. -/
def orFail {α : Type} (o : Option α) (e : DomainError) : AuthTx α :=
  match o with
  | some a => .ret a
  | none => fail e

def dateNow : AuthTx (Millis × Env) := .input fun t x => .ret (toMillis t, x)

/-- `randomUUID`, where it names a new family. -/
def randomFamily : AuthQuery Uuid := fun _ x d taken =>
  if d.families.has x.uuid || taken (.family x.uuid) then .blocked (.family x.uuid)
  else .done x.uuid (fun d => d.insertFamily x.uuid) [.family x.uuid]

def insertUserRow (input : RegisterInput) : AuthQuery User :=
  let row := fun (now : Timestamp) (x : Env) =>
    ({ id := x.uuid, phone := input.phone, name := input.name, passwordHash := input.passwordHash,
       pinHash := input.pinHash, createdAt := now } : User)
  Stmt.insertUnique (.phone input.phone) (fun d => (d.userByPhone input.phone).isSome)
    (.failed duplicateId) (fun x => [.user x.uuid]) (fun x d => !d.users.has x.uuid) duplicateId
    (fun now x d => d.insertUser (row now x)) row

def insertAuditRow (actorUserId : Option Uuid) (action entityType : String)
    (entityId : Option Uuid) (metadata : Fields) (context : RequestContext) : AuthQuery AuditLog :=
  let row := fun (now : Timestamp) (x : Env) =>
    ({ id := x.serial, actorUserId, action, entityType, entityId, metadata, ip := context.ip,
       userAgent := context.userAgent, requestId := context.requestId, createdAt := now } :
      AuditLog)
  Stmt.insert (fun x => [.auditLog x.serial]) [] (fun x d => !d.auditLogs.has x.serial) duplicateId
    (fun now x d => d.insertAudit (row now x)) row

def insertRefreshToken (userId familyId : Uuid) (tokenHash : String) (expiresAt : Timestamp)
    (context : RequestContext) : AuthQuery RefreshToken :=
  let row := fun (now : Timestamp) (x : Env) =>
    ({ id := x.uuid, userId, familyId, tokenHash, expiresAt, userAgent := context.userAgent,
       ip := context.ip, createdAt := now } : RefreshToken)
  Stmt.insertUnique (.tokenHash tokenHash) (fun d => (d.tokenByHash tokenHash).isSome)
    (.failed duplicateId) (fun x => [.refreshToken x.uuid])
    (fun x d => !d.refreshTokens.has x.uuid) duplicateId
    (fun now x d => d.insertToken (row now x)) row

def findUserByPhone (phone : String) : AuthQuery (Option User) :=
  Stmt.select fun _ d => d.userByPhone phone

def findUserById (id : Uuid) : AuthQuery (Option User) := Stmt.select fun _ d => d.users.get? id

/-- `SELECT ... WHERE token_hash = $1 FOR UPDATE`. -/
def findRefreshTokenByHash (tokenHash : String) : AuthQuery (Option RefreshToken) :=
  Stmt.selectForUpdate (fun _ d => d.tokenByHash tokenHash) fun r => .refreshToken r.id

def markRefreshTokenReplaced (tokenId replacedBy : Uuid) : AuthQuery (Option RefreshToken) :=
  Stmt.update (fun _ d => d.refreshTokens.get? tokenId) (fun r => .refreshToken r.id)
    fun now r d => d.replaceToken r.id now replacedBy

/-- `UPDATE ... WHERE token_hash = $1 AND revoked_at IS NULL`. -/
def revokeTokenByHash (tokenHash : String) : AuthQuery (Option RefreshToken) :=
  Stmt.update (fun _ d => (d.tokenByHash tokenHash).filter fun r => r.revokedAt = none)
    (fun r => .refreshToken r.id) fun now r d => d.revokeToken r.id now

/-- The rows an `UPDATE ... WHERE family_id = $1 AND revoked_at IS NULL` finds when it starts. -/
def selectLive (familyId : Uuid) : AuthQuery (List Uuid) :=
  Stmt.select fun _ d =>
    ((d.tokensOf familyId).filter fun r => r.revokedAt = none).map RefreshToken.id

/-- One of these rows: the `UPDATE` waits for it and checks its condition again. -/
def revokeRow (tokenId : Uuid) : AuthQuery ℕ := fun now _ d taken =>
  match (d.refreshTokens.get? tokenId).filter fun r => r.revokedAt = none with
  | none => .done 0 id [.passed tokenId]
  | some r =>
    if taken (.refreshToken r.id) then .blocked (.refreshToken r.id)
    else .done 1 (fun d => d.revokeToken r.id now) [.refreshToken r.id]

def revokeRows : List Uuid → AuthTx ℕ
  | [] => .ret 0
  | id :: ids => do
    let n ← query (revokeRow id)
    let m ← revokeRows ids
    return n + m

/-- `revokeFamily`: one statement, which looks for its rows once and then takes them in turn. -/
def revokeFamily (familyId : Uuid) : AuthTx ℕ := do
  let ids ← query (selectLive familyId)
  revokeRows ids

/-! ### The service -/

structure Issued where
  accessToken : String
  refreshToken : String
  tokenId : Uuid

def issueSession (P : AuthPlatform) (user : User) (familyId : Uuid) (context : RequestContext) :
    AuthTx Issued := do
  let drawn ← dateNow
  let refreshToken := P.base64url ((List.range 32).map drawn.2.bytes)
  let accessToken := P.signJwt user.phone drawn.2.uuid user.id (ofMillis drawn.1)
  let token ← query (insertRefreshToken user.id familyId (P.sha256 refreshToken)
    (ofMillis (drawn.1 + P.config.refreshTokenTtlSeconds * 1000)) context)
  return { accessToken, refreshToken, tokenId := token.id }

/-- `AuthResult`; a refresh leaves the account out. -/
def authResult (P : AuthPlatform) (user : User) (account : Option AccountSummary)
    (session : Issued) : Json :=
  .obj (("user", .obj [("id", .uuid user.id), ("phone", .str user.phone),
      ("name", .str user.name)]) ::
    (account.toList.map fun a =>
      ("account", .obj [("id", .uuid a.id), ("balance", money a.balanceMinor)])) ++
    [("accessToken", .str session.accessToken), ("refreshToken", .str session.refreshToken),
      ("expiresIn", .nat P.config.accessTokenTtlSeconds)])

/-- `register`, given the account and the mint its other statements make. -/
def register (P : AuthPlatform) (input : RegisterInput) (account : AccountSummary)
    (mintReference : String) (context : RequestContext) : AuthTx Json :=
  (do
    let user ← query (insertUserRow input)
    let _ ← query (insertAuditRow (some user.id) "USER_REGISTERED" "user" (some user.id)
      [("accountId", .uuid account.id), ("mintReference", .str mintReference)] context)
    let family ← query randomFamily
    let session ← issueSession P user family context
    return authResult P user (some account) session).tryCatch
    fun e => .throw (translateDuplicate e)

def decoyHash : String :=
  "$argon2id$v=19$m=19456,t=2,p=1$c29tZXNhbHRzb21lc2FsdA$" ++
    "Qw3sHwGYyGCFVPz9Zq7uJ7dJ3v0e9nJ1t2xQK5xW8Yk"

/-- `login`, given what `findAccountByUserId` finds. -/
def login (P : AuthPlatform) (input : LoginInput) (account : Option AccountSummary)
    (context : RequestContext) : AuthTx Json := do
  let found ← query (findUserByPhone input.phone)
  let passwordOk := P.verifySecret (found.elim decoyHash User.passwordHash) input.password
  let user ← orFail found errors.invalidCredentials
  require (passwordOk = true) errors.invalidCredentials
  require (user.status = .active) (errors.forbidden "This account is suspended")
  let account ← orFail account (errors.notFound "Account")
  let family ← query randomFamily
  let session ← issueSession P user family context
  let _ ← query (insertAuditRow (some user.id) "USER_LOGIN" "user" (some user.id) [] context)
  return authResult P user (some account) session

def refresh (P : AuthPlatform) (refreshTokenPlain : String) (context : RequestContext) :
    AuthTx RefreshOutcome := do
  let existing ← query (findRefreshTokenByHash (P.sha256 refreshTokenPlain))
  let existing ← orFail existing (errors.unauthenticated "Invalid refresh token")
  if existing.revokedAt ≠ none ∧ existing.replacedBy = none then return .alreadyRevoked
  else if existing.revokedAt ≠ none then
    let revoked ← revokeFamily existing.familyId
    let _ ← query (insertAuditRow (some existing.userId) "REFRESH_TOKEN_REUSE_DETECTED" "session"
      (some existing.familyId) [("revokedSessions", .nat revoked)] context)
    return .reuseDetected
  else
    let drawn ← dateNow
    require (drawn.1 < toMillis existing.expiresAt) (errors.unauthenticated "Refresh token expired")
    let user ← query (findUserById existing.userId)
    let user ← orFail user (errors.unauthenticated "Session is no longer valid")
    require (user.status = .active) (errors.unauthenticated "Session is no longer valid")
    let session ← issueSession P user existing.familyId context
    let _ ← query (markRefreshTokenReplaced existing.id session.tokenId)
    return .rotated (authResult P user none session)

def logout (P : AuthPlatform) (refreshTokenPlain : String) : AuthTx Unit := do
  let _ ← query (revokeTokenByHash (P.sha256 refreshTokenPlain))
  return ()

end auth

/-! ### The system -/

inductive AuthCall where
  | register (input : RegisterInput) (account : AccountSummary) (mintReference : String)
    (context : RequestContext)
  | login (input : LoginInput) (account : Option AccountSummary) (context : RequestContext)
  | refresh (refreshTokenPlain : String) (context : RequestContext)
  | logout (refreshTokenPlain : String)

inductive AuthReply where
  | session (result : Json)
  | refreshed (outcome : RefreshOutcome)
  | loggedOut

def authCall (P : AuthPlatform) : AuthCall → AuthTx AuthReply
  | .register input account mintReference context => do
    let result ← auth.register P input account mintReference context
    return .session result
  | .login input account context => do
    let result ← auth.login P input account context
    return .session result
  | .refresh refreshTokenPlain context => do
    let outcome ← auth.refresh P refreshTokenPlain context
    return .refreshed outcome
  | .logout refreshTokenPlain => do
    auth.logout P refreshTokenPlain
    return .loggedOut

abbrev AuthState : Type 1 :=
  Sys AuthStore AuthToken DriverError Env Empty Error AuthReply AuthCall

abbrev AuthRecord : Type := Commit AuthStore Empty AuthReply AuthCall

end TakaFlow
