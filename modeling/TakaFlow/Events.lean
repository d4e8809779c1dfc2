import Mathlib.Data.List.ReduceOption
import TakaFlow.Statements

/-!
# Outbox, audit log, write tracking and replies
-/

namespace TakaFlow

open Txn

/-- `enqueueEvent`. -/
def enqueueEvent (eventType : EventType) (aggregateType : String) (aggregateId : Uuid)
    (payload : Fields) : Tx OutboxEvent :=
  query (insertEventRow eventType aggregateType aggregateId payload)

/-- `insertAuditLog`. -/
def insertAuditLog (actorUserId : Option Uuid) (action entityType : String)
    (entityId : Option Uuid) (metadata : Fields) (context : RequestContext) : Tx AuditLog :=
  query (insertAuditRow actorUserId action entityType entityId metadata context)

/-- `trackWrite`: nothing without a replica. -/
def trackWrite (P : Platform) (userIds : List (Option Uuid)) : Tx Unit :=
  if P.config.replica ∧ userIds.reduceOption ≠ [] then do
    let lsn ← query selectCurrentLsn
    if lsn = "" then .ret ()
    else .afterCommit (.trackLsn userIds.reduceOption lsn) (.ret ())
  else .ret ()

/-- `findUserById`, inside a transaction. -/
def findUserById (id : Uuid) : Tx (Option User) := query (selectUser id)

/-- `RunOutcome` of the schedule worker. -/
inductive RunOutcome where
  | paid
  | failed
  | deferred
  | skipped
  | duplicate
  | notClaimed
  deriving DecidableEq

/-- What the modelled functions return. -/
inductive Reply where
  /-- Status and body of an idempotent endpoint, and whether they are a replay. -/
  | outcome (status : ℕ) (body : Json) (replayed : Bool)
  | dto (body : Json)
  | count (n : ℕ)
  | run (outcome : RunOutcome)

end TakaFlow
