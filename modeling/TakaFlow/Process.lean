import TakaFlow.Config
import TakaFlow.Lib.Machine

/-!
# The process

The worker loops of a process, the requests it is serving, and its shutdown. A turn of the event
loop is one step.
-/

namespace TakaFlow

/-! ### A worker -/

/-- A pending `setTimeout`. -/
structure Timeout where
  id : ℕ
  delay : ℕ
  deriving DecidableEq

/-- The variables of `startLoop`, the timeouts and the ticks that are pending, and how the last tick
ended: with work, without, or thrown. The promise in `inFlight` is that of a tick. -/
structure WorkerLoop where
  intervalMs : ℕ
  stopped : Bool := false
  timer : Option ℕ := none
  inFlight : Option ℕ := none
  timeouts : List Timeout := []
  ticks : List ℕ := []
  issued : ℕ := 0
  outcome : Option Bool := none
  deriving DecidableEq

namespace WorkerLoop

variable (loop : WorkerLoop)

def schedule (delay : ℕ) : WorkerLoop :=
  if loop.stopped then loop
  else
    { loop with
      timer := some loop.issued
      timeouts := loop.timeouts ++ [{ id := loop.issued, delay }]
      issued := loop.issued + 1 }

/-- `startLoop`. -/
def start (intervalMs : ℕ) : WorkerLoop := { intervalMs : WorkerLoop }.schedule intervalMs

/-- A timeout is due. -/
def tick (timeout : Timeout) : WorkerLoop :=
  { loop with
    timeouts := loop.timeouts.erase timeout
    inFlight := some loop.issued
    ticks := loop.ticks ++ [loop.issued]
    issued := loop.issued + 1 }

/-- `run` has said whether there was work, or thrown. -/
def ended (tick : ℕ) (hadWork : Option Bool) : WorkerLoop :=
  { loop with ticks := loop.ticks.erase tick, outcome := hadWork }.schedule
    (if hadWork = some true then 0 else loop.intervalMs)

/-- `stop`, up to its `await`. -/
def stop : WorkerLoop :=
  { loop with
    stopped := true
    timeouts := loop.timeouts.filter fun timeout => loop.timer ≠ some timeout.id }

/-- Has the promise in `inFlight` resolved? -/
def isSettled : Bool :=
  match loop.inFlight with
  | none => true
  | some tick => tick ∉ loop.ticks

end WorkerLoop

/-! ### The shutdown -/

/-- What a call of `shutdown` awaits. -/
inductive ShutdownPhase where
  | closeApp
  | stopWorkers
  | closePool
  | closeReplicaPool
  | closeRedis
  deriving DecidableEq

/-- The variables of `main` and `app`, with the requests that are being served, the calls of
`shutdown` that have passed its guard, the pools, and the exit code. -/
structure Process where
  workers : List WorkerLoop
  shuttingDown : Bool := false
  closing : Bool := false
  listening : Bool := true
  requests : ℕ := 0
  shutdowns : List ShutdownPhase := []
  poolOpen : Bool := true
  replicaPoolOpen : Bool := true
  redisOpen : Bool := true
  exitCode : Option ℕ := none

/-- `startWorkers`, in a process that has begun to listen. -/
def Process.start (scheduleTickMs : ℕ) : Process :=
  { workers := [.start 500, .start 60000, .start scheduleTickMs] }

/-- A request arrives or is answered; a timeout of a worker is due; a tick ends; a signal or an
unhandled rejection arrives; what a shutdown awaits resolves or rejects; the grace of the shutdown
is over. -/
inductive ProcessEvent where
  | request
  | response
  | due (i : ℕ) (timeout : Timeout)
  | ended (i tick : ℕ) (hadWork : Option Bool)
  | signal
  | resolved (j : ℕ)
  | rejected (j : ℕ)
  | timedOut

namespace Process

variable (p : Process)

def put (i : ℕ) (loop : WorkerLoop) : Process := { p with workers := p.workers.set i loop }

/-- `shutdown`, up to the `await` of `app.close`. -/
def shutdown : Process :=
  if p.closing then p
  else
    { p with
      closing := true
      shuttingDown := true
      listening := false
      shutdowns := p.shutdowns ++ [.closeApp] }

/-- What a shutdown awaits is done, and it goes on to the next. The server waits for its requests,
and `stop` for the ticks. -/
def resolved (j : ℕ) : ShutdownPhase → Option Process
  | .closeApp =>
    if p.requests = 0 then
      some { p with
        workers := p.workers.map WorkerLoop.stop, shutdowns := p.shutdowns.set j .stopWorkers }
    else none
  | .stopWorkers =>
    if p.workers.all WorkerLoop.isSettled then
      some { p with poolOpen := false, shutdowns := p.shutdowns.set j .closePool }
    else none
  | .closePool =>
    some { p with replicaPoolOpen := false, shutdowns := p.shutdowns.set j .closeReplicaPool }
  | .closeReplicaPool =>
    some { p with redisOpen := false, shutdowns := p.shutdowns.set j .closeRedis }
  | .closeRedis => some { p with exitCode := some 0 }

def next (p : Process) (e : ProcessEvent) : Option Process :=
  if p.exitCode.isSome then none
  else
    match e with
    | .request => if p.listening then some { p with requests := p.requests + 1 } else none
    | .response => if 0 < p.requests then some { p with requests := p.requests - 1 } else none
    | .due i timeout => do
      let loop ← p.workers[i]?
      if timeout ∈ loop.timeouts then some (p.put i (loop.tick timeout)) else none
    | .ended i tick hadWork => do
      let loop ← p.workers[i]?
      if tick ∈ loop.ticks then some (p.put i (loop.ended tick hadWork)) else none
    | .signal => some p.shutdown
    | .resolved j => do
      let phase ← p.shutdowns[j]?
      p.resolved j phase
    | .rejected j => if j < p.shutdowns.length then some { p with exitCode := some 1 } else none
    | .timedOut => if p.shutdowns ≠ [] then some { p with exitCode := some 1 } else none

end Process

end TakaFlow
