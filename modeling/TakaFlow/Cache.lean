import TakaFlow.System
import TakaFlow.Lib.Deadline
import TakaFlow.Lib.Machine

/-!
# The balance cache

Redis holds a balance and its version for some accounts. `writeBalance` stores a pair unless a
version at least as high is there; the hooks of committed movements call it, at any time and in any
order or never, and so does `GET /accounts/me`.
-/

namespace TakaFlow

open Txn

structure CachedBalance where
  version : ℕ
  balanceMinor : ℤ
  deriving DecidableEq

/-! ### What is stored under a key -/

/-- `${version}:${balance}`. -/
def CachedBalance.raw (value : CachedBalance) : String :=
  toString value.version ++ ":" ++ toString value.balanceMinor

/-- What `readBalance` makes of a stored string. -/
def parseBalance (raw : String) : Option CachedBalance :=
  let cs := raw.toList
  if ':' ∈ cs then do
    let version ← digits? (cs.takeWhile (· ≠ ':'))
    let balanceMinor ← signedDigits? ((cs.dropWhile (· ≠ ':')).drop 1)
    return { version, balanceMinor }
  else none

/-- `tonumber(string.match(current, '^(%d+):'))`. -/
def storedVersion (raw : String) : Option ℕ :=
  let cs := raw.toList
  match cs.dropWhile Char.isDigit with
  | ':' :: _ => digits? (cs.takeWhile Char.isDigit)
  | _ => none

/-- `CAS_SCRIPT`: the string it sets, if it sets one. -/
def casScript (current : Option String) (value : CachedBalance) : Option String :=
  match current.bind storedVersion with
  | some stored => if value.version ≤ stored then none else some value.raw
  | none => some value.raw

/-! ### `GET /accounts/me` -/

/-- A payment out of an account since `t`, standing or reversed. -/
def isSpent (accountId : Uuid) (since : ℤ) (t : Transfer) : Bool :=
  t.fromAccountId = accountId ∧
    (t.type = .p2p ∨ t.type = .requestSettlement ∨ t.type = .scheduled) ∧ since ≤ t.createdAt

/-- `spentLast24h`, read at `now`. -/
def Database.spentLast24h (d : Database) (accountId : Uuid) (now : Timestamp) : ℤ :=
  ((d.transfers.rows.filter (isSpent accountId (windowStart now secondsPerDay))).map
    Transfer.amountMinor).sum

/-- Does the cached balance replace the one of the row? -/
def useCache (account : Account) (cached : Option CachedBalance) : Bool :=
  cached.any fun value => account.version < value.version

/-- The body of the response. -/
structure AccountView where
  id : Uuid
  status : AccountStatus
  balanceMinor : ℤ
  spentLast24hMinor : ℤ
  servedFromCache : Bool

def accountView (account : Account) (cached : Option CachedBalance) (spent : ℤ) : AccountView :=
  { id := account.id
    status := account.status
    balanceMinor :=
      if useCache account cached then
        (cached.map CachedBalance.balanceMinor).getD account.balanceMinor
      else account.balanceMinor
    spentLast24hMinor := spent
    servedFromCache := useCache account cached }

/-- Where a request is: it has read the row, then the cache. -/
inductive ReadPhase where
  | begun
  | failed (e : DomainError)
  | found (account : Account)
  | consulted (account : Account) (cached : Option CachedBalance)
  | replied (account : Account) (cached : Option CachedBalance) (view : AccountView)

structure BalanceRead where
  userId : Uuid
  phase : ReadPhase := .begun

/-! ### The system with its cache -/

inductive CacheEvent where
  | stored (accountId : Uuid) (value : CachedBalance)
  | dropped (accountId : Uuid)
  deriving DecidableEq

/-- The transactions, the cache, everything that ever happened to it and the requests. -/
structure CacheState where
  timed : Timed Database Token DriverError Env Hook Error Reply Call
  cache : Uuid → Option String := fun _ => none
  log : List CacheEvent := []
  reads : List BalanceRead := []

/-- `db` is a step of the transactions, `publish` the write of a value of a hook of a commit, and
`drop` the end of a key: it expires, is evicted or invalidated. The others are steps of a request;
its own write can come late, too. -/
inductive CacheStep where
  | db (e : Step)
  | publish (commit hook value : ℕ)
  | drop (accountId : Uuid)
  | begin (userId : Uuid)
  | load (i : ℕ)
  | consult (i : ℕ) (available : Bool)
  | writeBack (i : ℕ)
  | reply (i : ℕ)

namespace CacheState

variable (s : CacheState)

def start (t : Timestamp) : CacheState := { timed := { sys := Sys.start seed t } }

def db : Database := s.timed.sys.db

def history : List Record := s.timed.sys.history

/-- `writeBalance`, where Redis runs the script. -/
def writeBalance (accountId : Uuid) (value : CachedBalance) : CacheState :=
  match casScript (s.cache accountId) value with
  | none => s
  | some raw =>
    { s with
      cache := Function.update s.cache accountId (some raw)
      log := s.log ++ [.stored accountId value] }

def put (i : ℕ) (r : BalanceRead) (phase : ReadPhase) : CacheState :=
  { s with reads := s.reads.set i { r with phase } }

/-- The write of one value of a hook. -/
def published (commit hook value : ℕ) : Option (Uuid × CachedBalance) := do
  let r ← s.history[commit]?
  let h ← r.hooks[hook]?
  let .writeBalances values := h | none
  let (accountId, balanceMinor, version) ← values[value]?
  return (accountId, { version, balanceMinor })

/-- The next phase of a request that has begun. -/
def load (r : BalanceRead) : Option ReadPhase :=
  match r.phase with
  | .begun =>
    match s.db.accountOf r.userId with
    | none => some (.failed (errors.notFound "Account"))
    | some account => some (.found account)
  | _ => none

/-- The next phase of one that has read the row; `readBalance` may find Redis unavailable. -/
def consult (r : BalanceRead) (available : Bool) : Option ReadPhase :=
  match r.phase with
  | .found account =>
    some (.consulted account (if available then (s.cache account.id).bind parseBalance else none))
  | _ => none

/-- What a request writes back. -/
def writesBack (r : BalanceRead) : Option (Uuid × CachedBalance) :=
  match r.phase with
  | .consulted account cached | .replied account cached _ =>
    if useCache account cached then none
    else some (account.id, { version := account.version, balanceMinor := account.balanceMinor })
  | _ => none

/-- The end of one that has consulted the cache. -/
def reply (r : BalanceRead) : Option ReadPhase :=
  match r.phase with
  | .consulted account cached =>
    some (.replied account cached
      (accountView account cached (s.db.spentLast24h account.id s.timed.sys.clock)))
  | _ => none

def next (P : Platform) (s : CacheState) : CacheStep → Option CacheState
  | .db e => (s.timed.next .deadline (body P) e).map fun timed => { s with timed }
  | .publish commit hook value =>
    (s.published commit hook value).map fun w => s.writeBalance w.1 w.2
  | .drop accountId =>
    some { s with
      cache := Function.update s.cache accountId none
      log := s.log ++ [.dropped accountId] }
  | .begin userId => some { s with reads := s.reads ++ [{ userId }] }
  | .load i => s.reads[i]?.bind fun r => (s.load r).map (s.put i r)
  | .consult i available => s.reads[i]?.bind fun r => (s.consult r available).map (s.put i r)
  | .writeBack i => s.reads[i]?.bind fun r => (writesBack r).map fun w => s.writeBalance w.1 w.2
  | .reply i => s.reads[i]?.bind fun r => (s.reply r).map (s.put i r)

end CacheState

end TakaFlow
