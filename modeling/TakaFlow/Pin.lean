import TakaFlow.Auth
import TakaFlow.Lib.Machine

/-!
# The PIN

`verifyPin` reads the row of the user, compares the PIN outside any transaction, and writes the
counter in a transaction of its own. Any number of calls do so at once.
-/

namespace TakaFlow

open Txn

structure PinConfig where
  maxPinAttempts : ℕ := 5
  pinLockoutMinutes : ℕ := 15
  positive : 0 < maxPinAttempts ∧ 0 < pinLockoutMinutes := by decide

/-- The columns of `users` that `verifyPin` reads. -/
structure PinUser where
  id : Uuid
  pinHash : String
  failedPinAttempts : ℕ := 0
  pinLockedUntil : Option Timestamp := none
  status : UserStatus := .active

namespace errors

def invalidPin (attemptsRemaining : ℕ) : DomainError :=
  { code := .invalidPin
    message := "Transaction PIN is incorrect"
    details := [("attemptsRemaining", .nat attemptsRemaining)] }

def pinLocked (lockedUntil : Timestamp) : DomainError :=
  { code := .pinLocked
    message := "Too many incorrect PIN attempts"
    details := [("lockedUntil", .date lockedUntil)] }

end errors

/-! ### The parts of a call -/

/-- `until.getTime() > Date.now()`. -/
def inFuture (lockedUntil : Option Timestamp) (now : Timestamp) : Bool :=
  lockedUntil.any fun t => toMillis now < toMillis t

/-- What `verifyPin` checks of the row it has read. -/
def checkPinUser (row : Option PinUser) (now : Timestamp) : Except DomainError PinUser :=
  match row with
  | none => .error (errors.notFound "User")
  | some user =>
    if user.status ≠ .active then .error (errors.forbidden "This account is suspended")
    else if inFuture user.pinLockedUntil now then
      .error (errors.pinLocked (user.pinLockedUntil.getD 0))
    else .ok user

def lockoutMicros (c : PinConfig) : ℕ := c.pinLockoutMinutes * 60 * 1000000

/-- The `UPDATE` of `recordFailedAttempt`. -/
def recordFailedAttempt (c : PinConfig) (now : Timestamp) (user : PinUser) : PinUser :=
  { user with
    failedPinAttempts := user.failedPinAttempts + 1
    pinLockedUntil :=
      if c.maxPinAttempts ≤ user.failedPinAttempts + 1 then some (now + lockoutMicros c)
      else user.pinLockedUntil }

/-- The `UPDATE` of `clearFailedAttempts`. -/
def clearFailedAttempts (user : PinUser) : PinUser :=
  { user with failedPinAttempts := 0, pinLockedUntil := none }

/-- The error after a wrong PIN. -/
def wrongPin (c : PinConfig) (attempts : ℕ) (now : Timestamp) : DomainError :=
  if c.maxPinAttempts - attempts = 0 then errors.pinLocked (now + lockoutMicros c)
  else errors.invalidPin (c.maxPinAttempts - attempts)

/-! ### Calls -/

/-- Where a call is. The last two before it returns have compared the PIN and are about to write:
the transaction that does it may have begun. -/
inductive PinPhase where
  | begun
  | loaded (row : Option PinUser)
  | checked (user : PinUser)
  | failing (began : Option Timestamp)
  | clearing (began : Option Timestamp)
  | returned (result : Except DomainError Unit)
  | crashed

structure PinCall where
  userId : Uuid
  pin : String
  phase : PinPhase := .begun

/-- What happened to a user: a wrong PIN was compared with the hash, the lock was set, or a PIN
was accepted or the lock cleared, with the lock there was then. -/
inductive PinEvent where
  | wrong (userId : Uuid)
  | locked (userId : Uuid)
  | cleared (userId : Uuid) (lockedUntil : Option Timestamp) (instant : Timestamp)
  | accepted (userId : Uuid) (lockedUntil : Option Timestamp) (instant : Timestamp)

structure PinState where
  now : Timestamp := 0
  users : Table PinUser.id := {}
  calls : List PinCall := []
  log : List PinEvent := []

inductive PinStep where
  | register (id : Uuid) (pinHash : String)
  | tick (n : ℕ)
  | begin (userId : Uuid) (pin : String)
  | read (i : ℕ)
  | check (i : ℕ)
  | compare (i : ℕ)
  | start (i : ℕ)
  | commit (i : ℕ)
  | abort (i : ℕ) (error : Option DomainError)
  | crash (i : ℕ)

namespace PinState

variable (s : PinState)

def put (i : ℕ) (x : PinCall) (phase : PinPhase) : PinState :=
  { s with calls := s.calls.set i { x with phase } }

def note (events : List PinEvent) : PinState := { s with log := s.log ++ events }

def lockedUntil (userId : Uuid) : Option Timestamp :=
  (s.users.get? userId).bind PinUser.pinLockedUntil

/-- One step of the system. A transaction that is rolled back is retried or gives the call its
error. -/
def next (c : PinConfig) (verifySecret : (hash plain : String) → Bool) (s : PinState) :
    PinStep → Option PinState
  | .register id pinHash =>
    if s.users.has id then none else some { s with users := s.users.insert { id, pinHash } }
  | .tick n => some { s with now := s.now + n }
  | .begin userId pin => some { s with calls := s.calls ++ [{ userId, pin }] }
  | .read i => do
    let x ← s.calls[i]?
    let .begun := x.phase | none
    return s.put i x (.loaded (s.users.get? x.userId))
  | .check i => do
    let x ← s.calls[i]?
    let .loaded row := x.phase | none
    match checkPinUser row s.now with
    | .error e => return s.put i x (.returned (.error e))
    | .ok user => return s.put i x (.checked user)
  | .compare i => do
    let x ← s.calls[i]?
    let .checked user := x.phase | none
    if verifySecret user.pinHash x.pin then
      if 0 < user.failedPinAttempts ∨ user.pinLockedUntil ≠ none then
        return s.put i x (.clearing none)
      else
        return (s.put i x (.returned (.ok ()))).note
          [.accepted x.userId (s.lockedUntil x.userId) s.now]
    else return (s.put i x (.failing none)).note [.wrong x.userId]
  | .start i => do
    let x ← s.calls[i]?
    match x.phase with
    | .failing none => return s.put i x (.failing (some s.now))
    | .clearing none => return s.put i x (.clearing (some s.now))
    | _ => none
  | .commit i => do
    let x ← s.calls[i]?
    match x.phase with
    | .failing (some began) =>
      let users := s.users.modify x.userId (recordFailedAttempt c began)
      let attempts := ((users.get? x.userId).map PinUser.failedPinAttempts).getD 0
      let done := { s.put i x (.returned (.error (wrongPin c attempts s.now))) with users }
      return done.note (if c.maxPinAttempts ≤ attempts then [.locked x.userId] else [])
    | .clearing (some _) =>
      let done := { s.put i x (.returned (.ok ())) with
        users := s.users.modify x.userId clearFailedAttempts }
      return done.note [.cleared x.userId (s.lockedUntil x.userId) s.now,
        .accepted x.userId (s.lockedUntil x.userId) s.now]
    | _ => none
  | .abort i error => do
    let x ← s.calls[i]?
    match x.phase with
    | .failing (some _) =>
      return s.put i x (error.elim (.failing none) fun e => .returned (.error e))
    | .clearing (some _) =>
      return s.put i x (error.elim (.clearing none) fun e => .returned (.error e))
    | _ => none
  | .crash i => do
    let x ← s.calls[i]?
    return s.put i x .crashed

end PinState

end TakaFlow
