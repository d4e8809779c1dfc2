import TakaFlow.Requests

/-!
# Scheduled transfers and their worker
-/

namespace TakaFlow

open Txn

def scheduleDTO (s : Schedule) (payee : Party) : Json :=
  .obj [("id", .uuid s.id), ("status", .str s.status.text),
    ("intervalKind", .str s.intervalKind.text), ("amount", money s.amountMinor),
    ("note", .ofOption s.note), ("payee", payee.json),
    ("nextRunAt", if s.status = .active ∨ s.status = .paused then .date s.nextRunAt else .null),
    ("remainingRuns", (s.remainingRuns.map fun n => Json.num n).getD .null),
    ("lastRunAt", .dateOfOption s.lastRunAt), ("createdAt", .date s.createdAt)]

/-! ### Create -/

structure CreateScheduleInput where
  toPhone : String
  amountMinor : ℤ
  note : Option String := none
  intervalKind : IntervalKind
  startAt : Millis
  totalRuns : Option ℕ := none

/-- What `createScheduleSchema` lets pass. -/
structure CreateScheduleInput.Parsed (input : CreateScheduleInput) : Prop where
  amountMinor : 0 < input.amountMinor ∧ input.amountMinor < 10 ^ 16
  note : ∀ note ∈ input.note, note.length ≤ 140
  totalRuns : ∀ n ∈ input.totalRuns, 1 ≤ n ∧ n ≤ 120
  once : input.intervalKind ≠ .once ∨ input.totalRuns.getD 1 = 1

def createScheduleEndpoint : String := "POST /api/v1/schedules"

/-- The work of `createSchedule` under its key. -/
def createScheduleWork (ownerUserId : Uuid) (input : CreateScheduleInput)
    (context : RequestContext) : Tx (ℕ × Json) := do
  let payee ← requirePayee input.toPhone "User"
  require (payee.userId ≠ ownerUserId) errors.selfTransfer
  let created ← query (insertScheduleRow ownerUserId payee.userId input.amountMinor input.note
    input.intervalKind (ofMillis input.startAt)
    (if input.intervalKind = .once then some 1 else input.totalRuns.map fun n => (n : ℤ)))
  let _ ← insertAuditLog (some ownerUserId) "SCHEDULE_CREATED" "scheduled_transfer"
    (some created.id)
    [("payeeUserId", .uuid payee.userId), ("amountMinor", .str (toString created.amountMinor)),
      ("intervalKind", .str created.intervalKind.text), ("startAt", .date created.nextRunAt)]
    context
  return (201, .obj [("schedule", scheduleDTO created ⟨payee.name, payee.phone⟩)])

/-- `createSchedule`, once the PIN is verified. -/
def createSchedule (P : Platform) (ownerUserId : Uuid) (idempotencyKey : String)
    (input : CreateScheduleInput) (rawBody : Json) (context : RequestContext) : Tx Reply := do
  requireLimits P "scheduled amount" [] input.amountMinor
  let drawn ← dateNow
  require (drawn.1 ≤ input.startAt)
    (errors.validation "A schedule cannot start in the past")
  idempotently ownerUserId idempotencyKey createScheduleEndpoint
    (hashRequest P createScheduleEndpoint rawBody)
    fun _ => createScheduleWork ownerUserId input context

/-! ### Owner transitions -/

/-- The states an owner can ask for. -/
inductive ScheduleTarget where
  | paused
  | active
  | cancelled
  deriving DecidableEq

namespace ScheduleTarget

def status : ScheduleTarget → ScheduleStatus
  | paused => .paused
  | active => .active
  | cancelled => .cancelled

/-- `LEGAL_FROM`. -/
def legalFrom : ScheduleTarget → List ScheduleStatus
  | paused => [.active]
  | active => [.paused]
  | cancelled => [.active, .paused]

end ScheduleTarget

def payeeOf (payeeUserId : Uuid) : Tx Party := do
  let user ← findUserById payeeUserId
  return partyOf user

/-- Nothing was updated: the state it is already in is success, anything else an error. -/
def transitionAgain (ownerUserId scheduleId : Uuid) (target : ScheduleTarget) : Tx Reply := do
  let existing ← query (selectSchedule scheduleId)
  let existing ← orFail existing (errors.notFound "Schedule")
  require (existing.ownerUserId = ownerUserId) (errors.notFound "Schedule")
  require (existing.status = target.status) (errors.invalidState
    ("This schedule is " ++ existing.status.lower) [("status", .str existing.status.text)])
  let payee ← payeeOf existing.payeeUserId
  return .dto (scheduleDTO existing payee)

/-- The owner's `transition`. -/
def transitionSchedule (ownerUserId scheduleId : Uuid) (target : ScheduleTarget)
    (context : RequestContext) : Tx Reply := do
  let updated ← query
    (updateScheduleStatus scheduleId ownerUserId target.status target.legalFrom)
  match updated with
  | none => transitionAgain ownerUserId scheduleId target
  | some s =>
    let _ ← insertAuditLog (some ownerUserId) ("SCHEDULE_" ++ target.status.text)
      "scheduled_transfer" (some s.id) [] context
    let payee ← payeeOf s.payeeUserId
    return .dto (scheduleDTO s payee)

def pauseSchedule (ownerUserId id : Uuid) (context : RequestContext) : Tx Reply :=
  transitionSchedule ownerUserId id .paused context

def resumeSchedule (ownerUserId id : Uuid) (context : RequestContext) : Tx Reply :=
  transitionSchedule ownerUserId id .active context

def cancelSchedule (ownerUserId id : Uuid) (context : RequestContext) : Tx Reply :=
  transitionSchedule ownerUserId id .cancelled context

/-- The operator's `POST /admin/schedules/:id/due`. -/
def makeScheduleDue (id : Uuid) : Tx Reply := do
  let found ← query (updateScheduleDue id)
  let _ ← orFail found (errors.notFound "Active schedule")
  return .dto (.obj [("ok", .bool true)])

/-! ### The worker -/

/-- `advanceSchedule`. -/
def advanceSchedule (P : Platform) (schedule : Schedule) (consumeRun : Bool) : Tx Unit := do
  let _ ← query (updateScheduleAdvance P schedule.id schedule.intervalKind consumeRun)
  return ()

def settleOccurrence (id : Uuid) (status : OccurrenceStatus) (transferId : Option Uuid)
    (failureReason : Option String) : Tx Unit := do
  let _ ← query (updateOccurrence id status transferId failureReason)
  return ()

/-- `RETRYABLE_CODES`. -/
def retryableCodes : List ErrorCode := [.insufficientFunds, .limitExceeded, .serviceUnavailable]

/-- The payment itself. -/
def pay (P : Platform) (schedule : Schedule) : Tx PostedTransfer := do
  let fromAccountId ← query (selectAccountIdForUser schedule.ownerUserId)
  let toAccountId ← query (selectAccountIdForUser schedule.payeeUserId)
  let missing : DomainError := { code := .notFound, message := "Account no longer exists" }
  let fromAccountId ← orFail fromAccountId missing
  let toAccountId ← orFail toAccountId missing
  requireDailyLimit P fromAccountId schedule.amountMinor fun spent =>
    { code := .limitExceeded
      message := "Scheduled payment would exceed the daily limit"
      details := [("dailyLimitMinor", .str (toString P.config.dailyTransferLimitMinor)),
        ("alreadySentMinor", .str (toString spent))] }
  postDoubleEntry
    { fromAccountId, toAccountId, amountMinor := schedule.amountMinor, type := .scheduled,
      note := schedule.note }

def scheduleEvent (eventType : EventType) (schedule : Schedule) (rest : Fields) : Tx OutboxEvent :=
  enqueueEvent eventType "scheduled_transfer" schedule.id
    ([("scheduleId", .uuid schedule.id), ("ownerUserId", .uuid schedule.ownerUserId),
      ("amountMinor", .str (toString schedule.amountMinor))] ++ rest)

/-- An occurrence missed by more than the grace period. -/
def skipOccurrence (P : Platform) (schedule : Schedule) (occurrenceId : Uuid) (lateBy : ℤ) :
    Tx RunOutcome := do
  settleOccurrence occurrenceId .skipped none
    (some ("Missed its window by " ++ toString (roundSeconds lateBy) ++ "s"))
  advanceSchedule P schedule false
  let _ ← scheduleEvent .scheduleSkipped schedule [("dueAt", .date schedule.nextRunAt)]
  return .skipped

/-- The payment under its savepoint, and what follows it. -/
def payOccurrence (P : Platform) (schedule : Schedule) (occurrenceId : Uuid) : Tx RunOutcome := do
  let transfer ← pay P schedule
  Program.control Error.ofDriver .release
  settleOccurrence occurrenceId .paid (some transfer.id) none
  advanceSchedule P schedule true
  let _ ← enqueueEvent .moneyReceived "transfer" transfer.id
    [("transferId", .uuid transfer.id), ("reference", .str transfer.reference),
      ("senderUserId", .uuid schedule.ownerUserId),
      ("recipientUserId", .uuid schedule.payeeUserId),
      ("amountMinor", .str (toString transfer.amountMinor)), ("note", .ofOption transfer.note)]
  let _ ← scheduleEvent .schedulePaid schedule [("reference", .str transfer.reference)]
  return .paid

/-- What follows a payment that was refused. -/
def failOccurrence (P : Platform) (schedule : Schedule) (occurrence : Occurrence)
    (e : DomainError) : Tx RunOutcome := do
  Program.control Error.ofDriver .rollback
  if e.code ∈ retryableCodes ∧ occurrence.attempts < P.config.scheduleMaxAttempts then
    let _ ← query (updateScheduleRetry schedule.id
      (P.config.scheduleRetryBaseSeconds * 2 ^ (occurrence.attempts - 1)))
    return .deferred
  else
    settleOccurrence occurrence.id .failed none (some e.message)
    advanceSchedule P schedule false
    let _ ← scheduleEvent .scheduleFailed schedule
      [("reason", .str e.message), ("code", .str e.code.text)]
    return .failed

/-- One claimed occurrence. -/
def runOccurrence (P : Platform) (schedule : Schedule) (occurrence : Occurrence) :
    Tx RunOutcome := do
  let drawn ← dateNow
  let lateBy : ℤ := (drawn.1 : ℤ) - toMillis schedule.nextRunAt
  if (P.config.scheduleCatchupGraceMs : ℤ) < lateBy then
    skipOccurrence P schedule occurrence.id lateBy
  else
    Program.control Error.ofDriver .set
    (payOccurrence P schedule occurrence.id).tryCatch fun
      | .domain e => failOccurrence P schedule occurrence e
      | e => .throw e

/-- `runSchedule`: one schedule, one transaction. -/
def runSchedule (P : Platform) (scheduleId : Uuid) : Tx Reply := do
  let schedule ← query (selectDueSchedule scheduleId)
  match schedule with
  | none => return .run .notClaimed
  | some schedule =>
    let occurrence ← query (upsertOccurrence schedule.id schedule.nextRunAt)
    match occurrence with
    | none =>
      advanceSchedule P schedule false
      return .run .duplicate
    | some occurrence =>
      let outcome ← runOccurrence P schedule occurrence
      return .run outcome

end TakaFlow
