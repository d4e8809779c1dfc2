import TakaFlow.Idempotency
import TakaFlow.Lib.Machine
import TakaFlow.Lib.Table

/-!
# Migrations

Each runner has one connection, takes the advisory lock on it, and applies what is not recorded
yet, one transaction for each file. Runners start at any time, with the files of their own build.
A connection can be lost at any point, and then the server releases its lock.

A connection is one session of the server here. A pooler in transaction mode gives the statements of
a client to several sessions, and the lock of one is not the lock of another.
-/

namespace TakaFlow

open Txn

/-! ### Files -/

structure MigrationFile where
  name : String
  sql : String
  checksum : String
  deriving DecidableEq

/-- Names and contents. -/
structure Directory where
  files : List (String × String)
  nodup : (files.map Prod.fst).Nodup

/-- `createHash('sha256').update(sql).digest('hex').slice(0, 16)`. -/
def checksumOf (sha256 : String → String) (sql : String) : String :=
  .ofList ((sha256 sql).toList.take 16)

/-- `loadMigrations`. -/
def loadMigrations (sha256 : String → String) (migrationsDir : Directory) : List MigrationFile :=
  ((migrationsDir.files.filter fun f => ".sql".toList.isSuffixOf f.1.toList).foldr insertMember
    []).map fun f => { name := f.1, sql := f.2, checksum := checksumOf sha256 f.2 }

/-! ### The database -/

/-- A row of `schema_migrations`. -/
structure MigrationRow where
  name : String
  checksum : String
  deriving DecidableEq

def MigrationFile.row (m : MigrationFile) : MigrationRow := ⟨m.name, m.checksum⟩

/-! ### Runners -/

/-- What `runMigrations` returns. -/
structure MigrationResult where
  applied : List String
  alreadyApplied : ℕ
  deriving DecidableEq

/-- The statement that is next in the transaction of a migration. -/
inductive MigrationStmt where
  | begin
  | script
  | insert
  | commit
  deriving DecidableEq

/-- What a runner does next: create the table, take the lock, read the table, read the files, look
at the next file, apply one, roll back, or unlock. -/
inductive RunnerPhase where
  | creating
  | locking
  | selecting
  | loading (previous : List MigrationRow)
  | looping (previous : List MigrationRow) (migrations : List MigrationFile)
      (applied : List String)
  | applying (previous : List MigrationRow) (migration : MigrationFile)
      (migrations : List MigrationFile) (applied : List String) (next : MigrationStmt)
  | undoing (error : String)
  | unlocking (outcome : Except String MigrationResult)
  | ended (outcome : Except String MigrationResult)
  | crashed

structure Runner where
  migrationsDir : Directory
  phase : RunnerPhase := .creating

/-- `lock` is the runner whose connection holds the advisory lock, `log` the scripts that have
taken effect, each with the runner that applied it. -/
structure MigrationState where
  table : Table MigrationRow.name := {}
  lock : Option ℕ := none
  runners : List Runner := []
  log : List (ℕ × MigrationFile) := []

/-- A statement can fail, and a process can crash; `done` says whether a `COMMIT` had gone through.
`disconnect` closes the connection of a runner that has ended. -/
inductive MigrationStep where
  | start (migrationsDir : Directory)
  | step (i : ℕ)
  | fail (i : ℕ) (message : String) (done : Bool)
  | crash (i : ℕ) (done : Bool)
  | disconnect (i : ℕ)

namespace MigrationState

variable (sha256 : String → String) (s : MigrationState)

def put (i : ℕ) (r : Runner) (phase : RunnerPhase) : MigrationState :=
  { s with runners := s.runners.set i { r with phase } }

def acquire (i : ℕ) : MigrationState := { s with lock := some i }

def release (i : ℕ) : MigrationState := if s.lock = some i then { s with lock := none } else s

/-- `COMMIT` of a migration. -/
def commit (i : ℕ) (m : MigrationFile) : MigrationState :=
  { s with table := s.table.insert m.row, log := s.log ++ [(i, m)] }

/-- The commit that a runner has asked for. -/
def commitIf (i : ℕ) (phase : RunnerPhase) (done : Bool) : MigrationState :=
  match phase with
  | .applying _ m _ _ .commit => if done then s.commit i m else s
  | _ => s

def changedMessage (m : MigrationFile) (seen : String) : String :=
  "Migration " ++ m.name ++ " changed after it was applied (recorded " ++ seen ++ ", file " ++
    m.checksum ++ "). Add a new migration instead of editing an applied one."

def failedMessage (m : MigrationFile) (message : String) : String :=
  "Migration " ++ m.name ++ " failed: " ++ message

def duplicateName : String :=
  "duplicate key value violates unique constraint \"schema_migrations_pkey\""

/-- The turn of a runner, where nothing fails. -/
def advance (i : ℕ) (r : Runner) : Option MigrationState :=
  match r.phase with
  | .creating => some (s.put i r .locking)
  | .locking => if s.lock = none then some ((s.acquire i).put i r .selecting) else none
  | .selecting => some (s.put i r (.loading s.table.rows))
  | .loading previous =>
    some (s.put i r (.looping previous (loadMigrations sha256 r.migrationsDir) []))
  | .looping previous [] applied =>
    some (s.put i r (.unlocking (.ok { applied, alreadyApplied := previous.length })))
  | .looping previous (m :: migrations) applied =>
    match previous.find? fun row => row.name = m.name with
    | some row =>
      if row.checksum ≠ m.checksum then
        some (s.put i r (.unlocking (.error (changedMessage m row.checksum))))
      else some (s.put i r (.looping previous migrations applied))
    | none => some (s.put i r (.applying previous m migrations applied .begin))
  | .applying previous m migrations applied next =>
    match next with
    | .begin => some (s.put i r (.applying previous m migrations applied .script))
    | .script => some (s.put i r (.applying previous m migrations applied .insert))
    | .insert =>
      if s.table.has m.name then some (s.put i r (.undoing (failedMessage m duplicateName)))
      else some (s.put i r (.applying previous m migrations applied .commit))
    | .commit => some ((s.commit i m).put i r (.looping previous migrations (applied ++ [m.name])))
  | .undoing error => some (s.put i r (.unlocking (.error error)))
  | .unlocking outcome => some ((s.release i).put i r (.ended outcome))
  | .ended _ => none
  | .crashed => none

/-- Where a failed statement leads. An unlock that fails keeps the lock. -/
def thrown (message : String) : RunnerPhase → Option RunnerPhase
  | .applying _ m _ _ _ => some (.undoing (failedMessage m message))
  | .unlocking outcome => some (.ended outcome)
  | .looping _ _ _ => none
  | .ended _ => none
  | .crashed => none
  | _ => some (.unlocking (.error message))

def isOver : RunnerPhase → Bool
  | .ended _ => true
  | .crashed => true
  | _ => false

def next (s : MigrationState) : MigrationStep → Option MigrationState
  | .start migrationsDir => some { s with runners := s.runners ++ [{ migrationsDir }] }
  | .step i => do
    let r ← s.runners[i]?
    s.advance sha256 i r
  | .fail i message done => do
    let r ← s.runners[i]?
    let phase ← thrown message r.phase
    return (s.commitIf i r.phase done).put i r phase
  | .crash i done => do
    let r ← s.runners[i]?
    if isOver r.phase then none
    else return ((s.commitIf i r.phase done).release i).put i r .crashed
  | .disconnect i => do
    let r ← s.runners[i]?
    if isOver r.phase ∧ s.lock = some i then return s.release i else none

end MigrationState

end TakaFlow
