import Mathlib.Data.List.Sort
import TakaFlow.Cursor
import TakaFlow.Lib.Faults
import TakaFlow.Notifications
import TakaFlow.Statements

/-!
# The outbox dispatcher

Each dispatcher claims due events that no other one has locked and hands them to their consumers,
one savepoint for each. The tables are those of events and notifications and the identifiers of
the users.
-/

namespace TakaFlow

open Txn

def maxAttempts : ℕ := 5

/-! ### The store -/

inductive OutboxStatus where
  | pending
  | processed
  | failed
  deriving DecidableEq

/-- A row of `outbox_events`. -/
structure OutboxRow where
  event : OutboxEvent
  status : OutboxStatus := .pending
  attempts : ℕ := 0
  lastError : Option String := none
  nextAttemptAt : Timestamp
  processedAt : Option Timestamp := none

def OutboxRow.id (r : OutboxRow) : Uuid := r.event.id

structure Notification where
  id : Uuid
  userId : Uuid
  eventId : Uuid
  type : String
  payload : Fields
  readAt : Option Timestamp := none
  createdAt : Timestamp

structure OutboxStore where
  users : List Uuid := []
  events : Table OutboxRow.id := {}
  notifications : Table Notification.id := {}

inductive OutboxTable where
  | events
  | notifications
  deriving DecidableEq

/-- Locks of rows, and unpublished entries of unique indexes. -/
inductive OutboxToken where
  | event (id : Uuid)
  | notification (userId eventId : Uuid)
  | notificationRow (id : Uuid)
  | user (id : Uuid)
  | fresh (table : OutboxTable) (id : Uuid)
  deriving DecidableEq

/-- A fresh identifier, and what the server has against an `INSERT` that would have succeeded. -/
structure OutboxEnv where
  uuid : Uuid := 0
  refusal : Option PgError := none

/-- The input function of the type `uuid`, and the messages of database errors. -/
structure OutboxPlatform where
  uuidIn : String → Option Uuid
  pgMessage : PgError → String

abbrev OutboxTx (α : Type) : Type 1 :=
  Program OutboxStore OutboxToken DriverError OutboxEnv Empty Error α

abbrev OutboxQuery (ρ : Type) : Type := Stmt OutboxStore OutboxToken DriverError OutboxEnv ρ

namespace OutboxStore

variable (d : OutboxStore)

/-- `ON CONFLICT (user_id, event_id)`. -/
def notified (userId eventId : Uuid) : Bool :=
  d.notifications.rows.any fun n => n.userId = userId ∧ n.eventId = eventId

def insertUser (id : Uuid) : OutboxStore := { d with users := d.users ++ [id] }

def insertEvent (r : OutboxRow) : OutboxStore := { d with events := d.events.insert r }

def insertNotification (n : Notification) : OutboxStore :=
  { d with notifications := d.notifications.insert n }

/-- `SET status = 'PROCESSED', processed_at = now(), attempts = attempts + 1 WHERE id = $1`. -/
def setProcessed (id : Uuid) (now : Timestamp) : OutboxStore :=
  { d with
    events := d.events.modify id fun r =>
      { r with status := .processed, processedAt := some now, attempts := r.attempts + 1 } }

/-- `SET status = $2, attempts = $3, last_error = $4, next_attempt_at = $5 WHERE id = $1`. -/
def setFailed (id : Uuid) (status : OutboxStatus) (attempts : ℕ) (lastError : String)
    (nextAttemptAt : Timestamp) : OutboxStore :=
  { d with
    events := d.events.modify id fun r =>
      { r with status, attempts, lastError := some lastError, nextAttemptAt } }

def setRead (id : Uuid) (now : Timestamp) : OutboxStore :=
  { d with notifications := d.notifications.modify id fun n => { n with readAt := some now } }

end OutboxStore

/-! ### Statements -/

namespace outbox

def query {ρ : Type} (s : OutboxQuery ρ) : OutboxTx ρ := Program.exec Error.ofDriver s

def control (cmd : SavepointCmd) : OutboxTx Unit := Program.control Error.ofDriver cmd

/-- `ORDER BY created_at LIMIT $1 FOR UPDATE SKIP LOCKED`. -/
def dueEvents (limit : ℕ) (now : Timestamp) (d : OutboxStore) (taken : OutboxToken → Bool) :
    List OutboxRow :=
  (((d.events.rows.filter fun r => r.status = .pending ∧ r.nextAttemptAt ≤ now).insertionSort
    fun a b => a.event.createdAt ≤ b.event.createdAt).filter
      fun r => !taken (.event r.id)).take limit

def selectDueEvents (batchSize : ℕ) : OutboxQuery (List OutboxRow) := fun now _ d taken =>
  let rows := dueEvents batchSize now d taken
  .done rows (fun d => d) (rows.map fun r => .event r.id)

def newNotification (id userId eventId : Uuid) (input : NotifyInput) (now : Timestamp) :
    Notification :=
  { id, userId, eventId, type := input.type, payload := input.payload, createdAt := now }

def foreignKeyViolation : String := "23503"

/-- `INSERT INTO notifications ... ON CONFLICT (user_id, event_id) DO NOTHING`. -/
def insertNotification (P : OutboxPlatform) (eventId : Uuid) (input : NotifyInput) :
    OutboxQuery Unit := fun now x d taken =>
  match P.uuidIn input.userId with
  | none => .failed (.pg { code := PgError.invalidTextRepresentation })
  | some userId =>
    if d.notified userId eventId then .done () (fun d => d) []
    else if taken (.notification userId eventId) then .blocked (.notification userId eventId)
    else if d.notifications.has x.uuid || taken (.fresh .notifications x.uuid) then
      .failed duplicateId
    else if userId ∉ d.users then .failed (.pg { code := foreignKeyViolation })
    else
      match x.refusal with
      | some e => .failed (.pg e)
      | none =>
        .done () (fun d => d.insertNotification (newNotification x.uuid userId eventId input now))
          [.notification userId eventId, .fresh .notifications x.uuid]

def updateProcessed (id : Uuid) : OutboxQuery (Option OutboxRow) :=
  Stmt.update (fun _ d => d.events.get? id) (fun r => .event r.id) fun now _ d =>
    d.setProcessed id now

def updateFailed (id : Uuid) (status : OutboxStatus) (attempts : ℕ) (lastError : String)
    (seconds : ℕ) : OutboxQuery (Option OutboxRow) :=
  Stmt.update (fun _ d => d.events.get? id) (fun r => .event r.id) fun now _ d =>
    d.setFailed id status attempts lastError (now + seconds * microsPerSecond)

/-! ### The dispatcher -/

structure DispatchResult where
  claimed : ℕ := 0
  processed : ℕ := 0
  failed : ℕ := 0
  notifications : ℕ := 0
  deriving DecidableEq

/-- `handleEvent`. -/
def handleEvent (P : OutboxPlatform) (event : OutboxEvent) : OutboxTx ℕ :=
  match notificationOf event.eventType event.payload with
  | .error e => .throw e
  | .ok none => .ret 0
  | .ok (some input) => do
    query (insertNotification P event.id input)
    .ret 1

/-- `error.message`. -/
def message (P : OutboxPlatform) : Error → String
  | .domain e => e.message
  | .driver e => P.pgMessage e
  | .internal message => message

/-- The first `n` code units; half a character is replaced. -/
def sliceUnits : ℕ → List Char → List Char
  | _, [] => []
  | 0, _ => []
  | n + 1, c :: cs =>
    if c.toNat < 0x10000 then c :: sliceUnits n cs
    else match n with
      | 0 => [Char.ofNat 0xFFFD]
      | n + 1 => c :: sliceUnits n cs

/-- `2 ** attempts` seconds, up to five minutes. -/
def backoffSeconds (attempts : ℕ) : ℕ := min (2 ^ attempts) 300

/-- The body of the `try`. -/
def deliver (P : OutboxPlatform) (row : OutboxRow) (result : DispatchResult) :
    OutboxTx DispatchResult := do
  let delivered ← handleEvent P row.event
  control .release
  let _ ← query (updateProcessed row.id)
  .ret { result with
    processed := result.processed + 1
    notifications := result.notifications + delivered }

/-- The `catch`. -/
def charge (P : OutboxPlatform) (row : OutboxRow) (result : DispatchResult) (error : Error) :
    OutboxTx DispatchResult := do
  control .rollback
  let attempts := row.attempts + 1
  let exhausted := maxAttempts ≤ attempts
  let _ ← query (updateFailed row.id (if exhausted then .failed else .pending) attempts
    (.ofList (sliceUnits 500 (message P error).toList)) (backoffSeconds attempts))
  .ret { result with failed := result.failed + 1 }

def dispatchRow (P : OutboxPlatform) (row : OutboxRow) (result : DispatchResult) :
    OutboxTx DispatchResult := do
  control .set
  Program.tryCatch (deliver P row result) (charge P row result)

def dispatchRows (P : OutboxPlatform) : List OutboxRow → DispatchResult → OutboxTx DispatchResult
  | [], result => .ret result
  | row :: rows, result => do
    let result ← dispatchRow P row result
    dispatchRows P rows result

/-- `dispatchBatch`. -/
def dispatchBatch (P : OutboxPlatform) (batchSize : ℕ) : OutboxTx DispatchResult := do
  let rows ← query (selectDueEvents batchSize)
  dispatchRows P rows { claimed := rows.length }

/-! ### The others -/

/-- What an event is enqueued with. -/
structure NewEvent where
  eventType : EventType
  aggregateType : String
  aggregateId : Uuid
  payload : Fields

def insertUserRow (id : Uuid) : OutboxQuery Unit := fun _ _ d taken =>
  if id ∈ d.users ∨ taken (.user id) = true then .failed duplicateId
  else .done () (fun d => d.insertUser id) [.user id]

def newRow (id : Uuid) (e : NewEvent) (now : Timestamp) : OutboxRow :=
  { event :=
      { id
        eventType := e.eventType
        aggregateType := e.aggregateType
        aggregateId := e.aggregateId
        payload := e.payload
        createdAt := now }
    nextAttemptAt := now }

/-- `enqueueEvent`. -/
def insertEventRow (e : NewEvent) : OutboxQuery Uuid :=
  Stmt.insert (fun x => [.fresh .events x.uuid]) [] (fun x d => !d.events.has x.uuid) duplicateId
    (fun now x d => d.insertEvent (newRow x.uuid e now)) fun _ x => x.uuid

/-- What any other transaction does here: it inserts users, and then `enqueueEvents`. -/
def produce (users : List Uuid) (events : List NewEvent) : OutboxTx Unit := do
  users.forM fun id => query (insertUserRow id)
  events.forM fun e => do
    let _ ← query (insertEventRow e)
    .ret ()

/-- `POST /notifications/:id/read`. -/
def markRead (id userId : Uuid) : OutboxTx Unit := do
  let _ ← query (Stmt.update
    (fun _ d => (d.notifications.get? id).filter fun n => n.userId = userId ∧ n.readAt = none)
    (fun n => .notificationRow n.id) fun now n d => d.setRead n.id now)
  .ret ()

end outbox

/-! ### The system -/

inductive OutboxCall where
  | dispatch (batchSize : ℕ)
  | produce (users : List Uuid) (events : List outbox.NewEvent)
  | markRead (id userId : Uuid)

inductive OutboxReply where
  | dispatched (result : outbox.DispatchResult)
  | done

def outboxBody (P : OutboxPlatform) : OutboxCall → OutboxTx OutboxReply
  | .dispatch batchSize => do
    let result ← outbox.dispatchBatch P batchSize
    .ret (.dispatched result)
  | .produce users events => do
    outbox.produce users events
    .ret .done
  | .markRead id userId => do
    outbox.markRead id userId
    .ret .done

abbrev OutboxState : Type 1 :=
  Sys OutboxStore OutboxToken DriverError OutboxEnv Empty Error OutboxReply OutboxCall

abbrev OutboxStep : Type := Event DriverError OutboxEnv OutboxCall

abbrev OutboxRecord : Type := Commit OutboxStore Empty OutboxReply OutboxCall

end TakaFlow
