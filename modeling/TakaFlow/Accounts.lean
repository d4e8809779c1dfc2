import TakaFlow.Requests

/-!
# Registration, freezing and closing
-/

namespace TakaFlow

open Txn

/-! ### Registration -/

structure RegisterInput where
  phone : String
  name : String
  passwordHash : String
  pinHash : String

structure IssuedSession where
  accessToken : String
  refreshToken : String

/-- `issueSession`: a refresh token is stored as its hash. -/
def issueSession (P : Platform) (user : User) (familyId : Uuid) (context : RequestContext) :
    Tx IssuedSession := do
  let drawn ← dateNow
  let refreshToken := P.base64url ((List.range 32).map drawn.2.bytes)
  let accessToken := P.signJwt user.phone drawn.2.uuid user.id (ofMillis drawn.1)
  let _ ← query (insertTokenRow user.id familyId (P.sha256 refreshToken)
    (ofMillis (drawn.1 + P.config.refreshTokenTtlSeconds * 1000)) context)
  return { accessToken, refreshToken }

def authResult (P : Platform) (user : User) (account : Account) (balanceMinor : ℤ)
    (session : IssuedSession) : Json :=
  .obj [("user", .obj [("id", .uuid user.id), ("phone", .str user.phone),
      ("name", .str user.name)]),
    ("account", .obj [("id", .uuid account.id), ("balance", money balanceMinor)]),
    ("accessToken", .str session.accessToken), ("refreshToken", .str session.refreshToken),
    ("expiresIn", .nat P.config.accessTokenTtlSeconds)]

/-- `UNIQUE_VIOLATION` of the registration. -/
def translateDuplicate (e : Error) : Error :=
  if pgErrorCode e = some PgError.uniqueViolation then
    .domain (errors.duplicate "An account with this phone number already exists")
  else e

/-- `register`, once the secrets are hashed. -/
def register (P : Platform) (input : RegisterInput) (context : RequestContext) : Tx Reply :=
  (do
    let user ← query (insertUserRow input.phone input.name input.passwordHash input.pinHash)
    let account ← query (insertAccountRow user.id)
    let drawn ← dateNow
    let mint ← postDoubleEntry
      { fromAccountId := pickTreasuryStripe drawn.2.stripe
        toAccountId := account.id
        amountMinor := P.config.signupBonusMinor
        type := .mint
        note := some "Welcome bonus" }
    let _ ← enqueueEvent .userRegistered "user" user.id
      [("userId", .uuid user.id), ("phone", .str user.phone), ("name", .str user.name),
        ("accountId", .uuid account.id),
        ("bonusMinor", .str (toString P.config.signupBonusMinor)),
        ("transferReference", .str mint.reference)]
    trackWrite P [some user.id]
    let _ ← insertAuditLog (some user.id) "USER_REGISTERED" "user" (some user.id)
      [("accountId", .uuid account.id), ("mintReference", .str mint.reference)] context
    let family ← dateNow
    let session ← issueSession P user family.2.uuid context
    return Reply.dto (authResult P user account mint.receiverBalanceAfter session)).tryCatch
    fun e => .throw (translateDuplicate e)

/-! ### Freezing -/

/-- `setOwnFreeze`, once the PIN is verified where it is needed. -/
def setOwnFreeze (userId : Uuid) (frozen : Bool) (context : RequestContext) : Tx Reply := do
  let account ← query (selectAccountOfUserForUpdate userId)
  let account ← orFail account (errors.notFound "Account")
  require (account.status ≠ .closed) (errors.invalidState
    "A closed account cannot be frozen or unfrozen" [("status", .str "CLOSED")])
  let target : AccountStatus := if frozen then .frozen else .active
  let reply : Reply := .dto (.obj [("id", .uuid account.id), ("status", .str target.text),
    ("balance", money account.balanceMinor), ("frozen", .bool frozen)])
  if account.status = target then return reply
  else
    let _ ← query (updateAccountStatus account.id target)
    let _ ← enqueueEvent (if frozen then .accountFrozen else .accountUnfrozen) "account" account.id
      [("userId", .uuid userId), ("accountId", .uuid account.id)]
    let _ ← insertAuditLog (some userId) (if frozen then "SELF_FREEZE" else "SELF_UNFREEZE")
      "account" (some account.id)
      [("from", .str account.status.text), ("to", .str target.text)] context
    return reply

/-- The two states an operator can set. -/
inductive OperatorStatus where
  | active
  | frozen
  deriving DecidableEq

def OperatorStatus.status : OperatorStatus → AccountStatus
  | active => .active
  | frozen => .frozen

def accountAdminView (account : Account) (user : User) : Json :=
  .obj [("userId", .uuid user.id), ("name", .str user.name), ("phone", .str user.phone),
    ("accountId", .uuid account.id), ("status", .str account.status.text),
    ("balance", money account.balanceMinor)]

/-- The operator's `setAccountStatus`. -/
def setAccountStatus (userId : Uuid) (status : OperatorStatus) (reason : Option String)
    (actorLabel : String) (context : RequestContext) : Tx Reply := do
  let account ← query (selectAccountOfUserForUpdate userId)
  let account ← orFail account (errors.notFound "Account")
  require (account.status ≠ .closed) (errors.invalidState
    "A closed account cannot be reopened" [("status", .str "CLOSED")])
  let _ ← query (updateAccountStatus account.id status.status)
  let _ ← insertAuditLog none
    (if status = .frozen then "ACCOUNT_FROZEN" else "ACCOUNT_UNFROZEN") "account" (some account.id)
    [("operator", .str actorLabel), ("reason", .ofOption reason), ("targetUserId", .uuid userId)]
    context
  let view ← query (selectAccountView account.id)
  match view with
  | none => .throw (.internal "Cannot read properties of undefined")
  | some (row, user) => return .dto (accountAdminView row user)

/-- Closing an account: no endpoint does it, an operator's console does. -/
def closeAccount (userId : Uuid) : Tx Reply := do
  let found ← query (updateAccountClosed userId)
  return .count (if found.isSome then 1 else 0)

end TakaFlow
