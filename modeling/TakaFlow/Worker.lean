import TakaFlow.Schedules
import TakaFlow.Transactions

/-!
# The ticks of the schedule worker
-/

namespace TakaFlow

open Txn

/-! ### Counters -/

structure ScheduleTickResult where
  claimed : ℕ := 0
  paid : ℕ := 0
  failed : ℕ := 0
  deferred : ℕ := 0
  skipped : ℕ := 0
  duplicate : ℕ := 0
  deriving DecidableEq

namespace ScheduleTickResult

/-- The counters after one more outcome. -/
def count (result : ScheduleTickResult) (outcome : RunOutcome) : ScheduleTickResult :=
  { claimed := if outcome ≠ .notClaimed then result.claimed + 1 else result.claimed
    paid := if outcome = .paid then result.paid + 1 else result.paid
    failed := if outcome = .failed then result.failed + 1 else result.failed
    deferred := if outcome = .deferred then result.deferred + 1 else result.deferred
    skipped := if outcome = .skipped then result.skipped + 1 else result.skipped
    duplicate := if outcome = .duplicate then result.duplicate + 1 else result.duplicate }

end ScheduleTickResult

/-! ### Ticks -/

section

variable {W E : Type}

/-- The loop over the due schedules. An error ends it. -/
def runEach (run : Uuid → W → Except E RunOutcome × W) :
    List Uuid → ScheduleTickResult → W → Except E ScheduleTickResult × W
  | [], result, w => (.ok result, w)
  | id :: ids, result, w =>
    match run id w with
    | (.error e, w) => (.error e, w)
    | (.ok outcome, w) => runEach run ids (result.count outcome) w

/-- `runDueSchedules`, by what finds the due schedules and what runs one of them. -/
def runDueSchedulesBy (find : W → Except E (List Uuid) × W)
    (run : Uuid → W → Except E RunOutcome × W) (w : W) : Except E ScheduleTickResult × W :=
  match find w with
  | (.error e, w) => (.error e, w)
  | (.ok dueIds, w) => if dueIds = [] then (.ok {}, w) else runEach run dueIds {} w

end

/-- What a transaction of the database finds around it. -/
abbrev Surroundings : Type := World Database Token Env Hook

def findDueScheduleIds (limit : ℕ) : Tx (List Uuid) :=
  query (selectDueScheduleIds limit)

/-- `runSchedule` replies with an outcome only. -/
def Reply.ran : Reply → RunOutcome
  | .run ran => ran
  | _ => .notClaimed

/-- `runSchedule`. -/
def visitSchedule (P : Platform) (id : Uuid) (w : Surroundings) :
    Except (Option Error) RunOutcome × Surroundings :=
  ((withTransaction (runSchedule P id) {} w).1.map Reply.ran,
    (withTransaction (runSchedule P id) {} w).2)

def runDueSchedules (P : Platform) (limit : ℕ) (w : Surroundings) :
    Except (Option Error) ScheduleTickResult × Surroundings :=
  runDueSchedulesBy (withReadTransaction (findDueScheduleIds limit)) (visitSchedule P) w

end TakaFlow
