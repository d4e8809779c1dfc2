import Mathlib.Data.Rat.Floor
import TakaFlow.Format

/-!
# The transaction boundary

`withTransaction` against a pool, a server and a clock that may do anything at any request.
-/

namespace TakaFlow

open Txn

/-! ### Options -/

inductive IsolationLevel where
  | readCommitted
  | repeatableRead
  | serializable

def IsolationLevel.text : IsolationLevel → String
  | readCommitted => "READ COMMITTED"
  | repeatableRead => "REPEATABLE READ"
  | serializable => "SERIALIZABLE"

structure TransactionOptions where
  isolationLevel : IsolationLevel := .readCommitted
  readOnly : Bool := false
  maxAttempts : ℚ := 3
  lockTimeoutMs : ℕ := 3000
  statementTimeoutMs : ℕ := 5000
  deadlineMs : ℕ := 5000

/-- The one round trip that opens a transaction. -/
def TransactionOptions.preamble (options : TransactionOptions) : String :=
  "BEGIN ISOLATION LEVEL " ++ options.isolationLevel.text ++
    (if options.readOnly then " READ ONLY" else "") ++ ";" ++
    "SET LOCAL lock_timeout = " ++ toString options.lockTimeoutMs ++ ";" ++
    "SET LOCAL statement_timeout = " ++ toString options.statementTimeoutMs ++ ";"

/-- `RETRYABLE`: a serialization failure or a deadlock. -/
def retryable : List String := ["40001", "40P01"]

def isRetryable (error : Error) : Bool :=
  (pgErrorCode error).any (· ∈ retryable)

/-! ### The world around a call -/

/-- Why a request fails: the server refuses it, or its answer is lost. A conflict is something the
server reports, and then it has not carried out the request. -/
structure Fault where
  error : PgError
  processed : Bool := false
  conflict : processed = true → isRetryable (.driver error) = false := by decide

/-- What the world decides about one request: the time, an external input, the client that the pool
hands out, what others commit before it, what a statement sees of the committed state, the tokens of
others, and whether the request fails. -/
structure Moment (σ τ ι : Type) where
  clock : Timestamp
  input : ι
  client : ℕ := 0
  others : σ → σ := id
  view : σ → σ := id
  taken : τ → Bool := fun _ => false
  fault : Option Fault := none

/-- A client outside of a transaction. It is broken once its connection is lost, or a `ROLLBACK`
has failed: its transaction stays aborted. -/
inductive Pooled where
  | idle
  | broken
  deriving DecidableEq

/-- What a call shows of itself. -/
inductive Action (η : Type) where
  | connected (client : ℕ)
  | sent (client : ℕ) (preamble : String)
  | committed (client : ℕ)
  | ran (hook : η) (failed : Bool)
  | failed (e : Error)
  | released (client : ℕ)

/-- The world of a call: what is to come, the committed state, the clients of the pool, the effects
that the call has committed and the trace that it has left. -/
structure World (σ τ ι η : Type) where
  moments : ℕ → Moment σ τ ι
  time : ℕ := 0
  db : σ
  pool : ℕ → Pooled := fun _ => .idle
  effects : List (σ → σ) := []
  trace : List (Action η) := []

variable {σ τ ι η α ρ : Type}

namespace World

variable (w : World σ τ ι η)

/-- The moment of the next request. -/
def now : Moment σ τ ι := w.moments w.time

/-- `Date.now()`. -/
def dateNow : Millis := toMillis w.now.clock

/-- The request has been served. -/
def tick : World σ τ ι η := { w with time := w.time + 1, db := w.now.others w.db }

def log (actions : List (Action η)) : World σ τ ι η := { w with trace := w.trace ++ actions }

def commit (write : σ → σ) : World σ τ ι η :=
  { w with db := write w.db, effects := w.effects ++ [write] }

def release (client : ℕ) (p : Pooled) : World σ τ ι η :=
  { w with
    pool := fun i => if i = client then p else w.pool i
    trace := w.trace ++ [.released client] }

end World

/-! ### The statements of a callback -/

/-- The answer of the server to a statement. One that waits for a lock to the end is refused. -/
def World.answer (w : World σ τ ι η) (c : Ctx σ τ η) (s : Stmt σ τ DriverError ι ρ) :
    Except DriverError ρ × Ctx σ τ η :=
  let refuse (e : PgError) : Except DriverError ρ × Ctx σ τ η :=
    (.error (.pg e), c.fail (DriverError.pg e))
  match w.now.fault with
  | some f => refuse f.error
  | none =>
    if c.aborted then refuse { code := PgError.inFailedSqlTransaction }
    else match s c.now w.now.input (c.write (w.now.view (w.now.others w.db))) w.now.taken with
      | .done r w acquired => (.ok r, c.done w acquired)
      | .blocked _ => refuse { code := PgError.lockNotAvailable }
      | .failed e => (.error e, c.fail e)

/-- The answer to a savepoint command. -/
def World.control (w : World σ τ ι η) (c : Ctx σ τ η) (cmd : SavepointCmd) :
    Except DriverError Unit × Ctx σ τ η :=
  let refuse (e : PgError) : Except DriverError Unit × Ctx σ τ η :=
    (.error (.pg e), c.fail (DriverError.pg e))
  match w.now.fault with
  | some f => refuse f.error
  | none =>
    match cmd, c.saves, c.aborted with
    | .rollback, s :: _, _ => (.ok (), c.restore s)
    | .rollback, [], _ => refuse { code := PgError.invalidSavepoint }
    | _, _, true => refuse { code := PgError.inFailedSqlTransaction }
    | .set, _, false => (.ok (), c.save)
    | .release, _ :: _, false => (.ok (), c.release)
    | .release, [], false => refuse { code := PgError.invalidSavepoint }

/-- `tx.query`: past the deadline a request is not sent. -/
def World.query (w : World σ τ ι η) (deadlineAt : Millis) (c : Ctx σ τ η)
    (answer : Except DriverError ρ × Ctx σ τ η) : Except DriverError ρ × Ctx σ τ η :=
  if deadlineAt < w.dateNow then (.error .deadline, c) else answer

/-- The run of a callback. -/
def perform (deadlineAt : Millis) : Program σ τ DriverError ι η Error α → Ctx σ τ η → World σ τ ι η →
    Except Error α × Ctx σ τ η × World σ τ ι η
  | .ret a, c, w => (.ok a, c, w)
  | .throw e, c, w => (.error e, c, w)
  | .input k, c, w => perform deadlineAt (k w.now.clock w.now.input) c w.tick
  | .query s k, c, w =>
    let (answer, c') := w.query deadlineAt c (w.answer c s)
    perform deadlineAt (k answer) c' w.tick
  | .savepoint cmd k, c, w =>
    let (answer, c') := w.query deadlineAt c (w.control c cmd)
    perform deadlineAt (k answer) c' w.tick
  | .afterCommit h k, c, w => perform deadlineAt k (c.hook h) w

/-! ### One attempt -/

/-- `BEGIN`, of a client of the pool. One with an aborted transaction refuses it. -/
def Moment.begin (m : Moment σ τ ι) (p : Pooled) : Except PgError (Ctx σ τ η) :=
  match m.fault, p with
  | some f, _ => .error f.error
  | none, .broken => .error { code := PgError.inFailedSqlTransaction }
  | none, .idle => .ok (.start m.clock)

/-- `COMMIT`, of an aborted transaction a rollback. -/
def World.commitAs (w : World σ τ ι η) (client : ℕ) (c : Ctx σ τ η) :
    Except PgError Unit × World σ τ ι η :=
  let done := if c.aborted then w.tick else w.tick.commit c.write
  match w.now.fault with
  | none => (.ok (), done.log [.committed client])
  | some f => (.error f.error, if f.processed then done else w.tick)

/-- The hooks run one after the other, and a failure is logged only. -/
def World.runHooks (w : World σ τ ι η) : List η → World σ τ ι η
  | [] => w
  | h :: hooks => (w.tick.log [.ran h w.now.fault.isSome]).runHooks hooks

/-- The body of the `try`. -/
def tryAttempt (fn : Program σ τ DriverError ι η Error α) (options : TransactionOptions)
    (client : ℕ) (w : World σ τ ι η) : Except Error α × World σ τ ι η :=
  let deadlineAt := w.dateNow + options.deadlineMs
  let w := w.tick.log [.sent client options.preamble]
  match w.now.begin (w.pool client) with
  | .error e => (.error (.driver e), w.tick)
  | .ok c =>
    let w := w.tick
    if deadlineAt < w.dateNow then
      (.error (.domain (errors.unavailable
        "Transaction budget was exhausted before any work began")), w.tick)
    else match perform deadlineAt fn c w.tick with
      | (.error e, _, w) => (.error e, w)
      | (.ok a, c, w) =>
        match w.commitAs client c with
        | (.error e, w) => (.error (.driver e), w)
        | (.ok _, w) => (.ok a, w.runHooks c.hooks)

/-- One attempt with a client: the `try`, the `catch` with its `ROLLBACK`, and the `finally`. -/
def attempt (fn : Program σ τ DriverError ι η Error α) (options : TransactionOptions)
    (client : ℕ) (w : World σ τ ι η) : Except Error α × World σ τ ι η :=
  match tryAttempt fn options client w with
  | (.ok a, w) => (.ok a, w.release client .idle)
  | (.error e, w) =>
    let p := if w.now.fault.isSome then .broken else .idle
    (.error e, (w.tick.log [.failed e]).release client p)

/-! ### The loop -/

/-- The attempts that remain. What is thrown after the last one is `lastError`. -/
def attempts (fn : Program σ τ DriverError ι η Error α) (options : TransactionOptions) :
    ℕ → (attempt : ℕ) → (lastError : Option Error) → World σ τ ι η →
      Except (Option Error) α × World σ τ ι η
  | 0, _, lastError, w => (.error lastError, w)
  | remaining + 1, n, _, w =>
    -- `pool.connect` stands before the `try`.
    match w.now.fault with
    | some f => (.error (some (.driver f.error)), w.tick.log [.failed (.driver f.error)])
    | none =>
      match attempt fn options w.now.client (w.tick.log [.connected w.now.client]) with
      | (.ok a, w) => (.ok a, w)
      | (.error e, w) =>
        if isRetryable e ∧ n < options.maxAttempts then
          attempts fn options remaining (n + 1) (some e) w
        else (.error (some e), w)

def withTransaction (fn : Program σ τ DriverError ι η Error α) (options : TransactionOptions)
    (w : World σ τ ι η) : Except (Option Error) α × World σ τ ι η :=
  attempts fn options ⌊options.maxAttempts⌋₊ 1 none w

def withReadTransaction (fn : Program σ τ DriverError ι η Error α) (w : World σ τ ι η) :
    Except (Option Error) α × World σ τ ι η :=
  withTransaction fn { readOnly := true, maxAttempts := 1 } w

end TakaFlow
