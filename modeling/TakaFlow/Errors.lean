import Mathlib.Data.Rat.Init
import Mathlib.Data.Int.Notation
import TakaFlow.Lib.Session

/-!
# Values, domain errors and database errors
-/

namespace TakaFlow

open Txn

/-- A JSON value. A finite JavaScript number is a rational. -/
inductive Json where
  | null
  | bool (b : Bool)
  | num (q : ℚ)
  | str (s : String)
  | arr (items : List Json)
  | obj (members : List (String × Json))

/-- The members of an object, as written at its construction. -/
abbrev Fields := List (String × Json)

namespace Json

def ofOption : Option String → Json
  | none => .null
  | some s => .str s

def nat (n : ℕ) : Json := .num n

/-- `json.name`. -/
def field (name : String) : Json → Option Json
  | obj members => members.lookup name
  | _ => none

end Json

inductive ErrorCode where
  | validationError
  | unauthenticated
  | invalidCredentials
  | invalidPin
  | pinLocked
  | forbidden
  | accountFrozen
  | notFound
  | idempotencyKeyReuse
  | requestInProgress
  | invalidState
  | insufficientFunds
  | limitExceeded
  | selfTransfer
  | duplicate
  | rateLimited
  | internal
  | serviceUnavailable
  deriving DecidableEq

namespace ErrorCode

def text : ErrorCode → String
  | validationError => "VALIDATION_ERROR"
  | unauthenticated => "UNAUTHENTICATED"
  | invalidCredentials => "INVALID_CREDENTIALS"
  | invalidPin => "INVALID_PIN"
  | pinLocked => "PIN_LOCKED"
  | forbidden => "FORBIDDEN"
  | accountFrozen => "ACCOUNT_FROZEN"
  | notFound => "NOT_FOUND"
  | idempotencyKeyReuse => "IDEMPOTENCY_KEY_REUSE"
  | requestInProgress => "REQUEST_IN_PROGRESS"
  | invalidState => "INVALID_STATE"
  | insufficientFunds => "INSUFFICIENT_FUNDS"
  | limitExceeded => "LIMIT_EXCEEDED"
  | selfTransfer => "SELF_TRANSFER"
  | duplicate => "DUPLICATE"
  | rateLimited => "RATE_LIMITED"
  | internal => "INTERNAL"
  | serviceUnavailable => "SERVICE_UNAVAILABLE"

/-- `STATUS_BY_CODE`. -/
def status : ErrorCode → ℕ
  | validationError => 400
  | unauthenticated => 401
  | invalidCredentials => 401
  | invalidPin => 401
  | pinLocked => 423
  | forbidden => 403
  | accountFrozen => 403
  | notFound => 404
  | idempotencyKeyReuse => 409
  | requestInProgress => 409
  | invalidState => 409
  | duplicate => 409
  | insufficientFunds => 422
  | limitExceeded => 422
  | selfTransfer => 422
  | rateLimited => 429
  | internal => 500
  | serviceUnavailable => 503

end ErrorCode

structure DomainError where
  code : ErrorCode
  message : String
  details : Fields := []
  headers : List (String × String) := []

namespace errors

def validation (message : String) (details : Fields := []) : DomainError :=
  { code := .validationError, message, details }

def accountFrozen (message : String) : DomainError := { code := .accountFrozen, message }

def notFound (what : String) : DomainError := { code := .notFound, message := what ++ " not found" }

def idempotencyKeyReuse : DomainError :=
  { code := .idempotencyKeyReuse
    message := "This Idempotency-Key was already used with a different request body" }

def requestInProgress : DomainError :=
  { code := .requestInProgress
    message := "An identical request is currently being processed"
    headers := [("Retry-After", "1")] }

def invalidState (message : String) (details : Fields := []) : DomainError :=
  { code := .invalidState, message, details }

def insufficientFunds (balanceMinor requiredMinor : ℤ) : DomainError :=
  { code := .insufficientFunds
    message := "Insufficient balance for this transfer"
    details := [("balanceMinor", .str (toString balanceMinor)),
      ("requiredMinor", .str (toString requiredMinor))] }

def limitExceeded (message : String) (details : Fields := []) : DomainError :=
  { code := .limitExceeded, message, details }

def selfTransfer : DomainError :=
  { code := .selfTransfer, message := "You cannot send money to yourself" }

def duplicate (message : String) : DomainError := { code := .duplicate, message }

def rateLimited (retryAfterSeconds : ℤ) : DomainError :=
  { code := .rateLimited
    message := "Too many requests"
    headers := [("Retry-After", toString retryAfterSeconds)] }

def unavailable (message : String) : DomainError :=
  { code := .serviceUnavailable, message, headers := [("Retry-After", "2")] }

end errors

/-- An error reported by Postgres: its SQLSTATE and the constraint it names. -/
structure PgError where
  code : String
  constraint : Option String := none
  deriving DecidableEq

namespace PgError

def uniqueViolation : String := "23505"
def checkViolation : String := "23514"
def lockNotAvailable : String := "55P03"
def inFailedSqlTransaction : String := "25P02"
def invalidSavepoint : String := "3B001"

end PgError

/-- What issuing a statement can raise: `tx.query` refuses once the deadline has passed, without
asking the server; everything else comes from Postgres. -/
inductive DriverError where
  | deadline
  | pg (e : PgError)
  deriving DecidableEq

instance : Driver DriverError where
  aborts
    | .deadline => false
    | .pg _ => true
  inFailedTransaction := .pg { code := PgError.inFailedSqlTransaction }
  noSuchSavepoint := .pg { code := PgError.invalidSavepoint }

/-- What a callback throws: a `DomainError`, a database error or a plain `Error`. -/
inductive Error where
  | domain (e : DomainError)
  | driver (e : PgError)
  | internal (message : String)

/-- The exception a statement raises inside the callback. -/
def Error.ofDriver : DriverError → Error
  | .deadline =>
    .domain (errors.unavailable
      "Transaction exceeded its time budget and was abandoned to release locks")
  | .pg e => .driver e

/-- `pgErrorCode`. A `DomainError` carries a code too, but never a SQLSTATE. -/
def pgErrorCode : Error → Option String
  | .driver e => some e.code
  | .domain e => some e.code.text
  | .internal _ => none

def pgConstraint : Error → Option String
  | .driver e => e.constraint
  | _ => none

end TakaFlow
