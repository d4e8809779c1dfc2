import Mathlib.Data.List.ReduceOption
import Mathlib.Logic.Function.Basic
import TakaFlow.Lib.Machine
import TakaFlow.Listings

/-!
# Read routing

The primary writes a log, and a replica replays it. A transaction that tracks its write reads the
end of the log before its commit record is there, and a hook stores that position in Redis for each
of its users. A read on behalf of a user looks the position up and goes to the replica or to the
primary.
-/

namespace TakaFlow

/-- A position in the write-ahead log. -/
abbrev Lsn : Type := ℕ

def writeTrackingTtlSeconds : ℕ := 30

def writeTrackingTtl : ℕ := writeTrackingTtlSeconds * microsPerSecond

/-! ### The parties -/

/-- A position under `wlsn:${userId}`. -/
structure StoredLsn where
  lsn : Lsn
  expiresAt : Timestamp
  deriving DecidableEq

/-- A transaction that calls `trackWrite`, up to the return of its `withTransaction`. -/
structure TrackedWrite where
  /-- Whom it tracks. -/
  targets : List Uuid := []
  /-- The position for the hook. -/
  lsn : Option Lsn := none
  /-- The end of its commit record. -/
  record : Option Lsn := none
  /-- When Redis has stored the position for whom. -/
  published : List (Uuid × Timestamp) := []
  returnedAt : Option Timestamp := none

deriving instance DecidableEq for ServedBy

/-- Where a call of `withRoutedRead` is: it has asked Redis, it has the position, it may use the
replica, it has to use the primary, or its queries have seen these transactions. -/
inductive RoutedPhase where
  | started
  | looked (requiredLsn : Option Lsn)
  | cleared
  | fallback
  | served (servedBy : ServedBy) (visible : List ℕ)
  deriving DecidableEq

/-- `owed` are the transactions of the user that had returned when the call began, not longer ago
than positions are kept. -/
structure RoutedRead where
  userId : Option Uuid
  /-- Redis has not answered the call's `GET`. -/
  unanswered : Bool := false
  owed : List ℕ
  phase : RoutedPhase

structure RouterState where
  now : Timestamp := 0
  walInsertLsn : Lsn := 0
  walReplayLsn : Lsn := 0
  redis : Uuid → Option StoredLsn := fun _ => none
  writes : List TrackedWrite := []
  reads : List RoutedRead := []

/-- `append` is what others write to the log, `publish` a `SET` of the hook of a transaction, which
Redis may run at any time or never, and `lose` the loss of a key before its time. A `GET` that is
not `answered` finds Redis unavailable; `fail` is an error of the replica. -/
inductive RouterStep where
  | tick (n : ℕ)
  | append (n : ℕ)
  | replay (n : ℕ)
  | lose (userId : Uuid)
  | begin
  | track (i : ℕ) (userIds : List (Option Uuid))
  | commit (i : ℕ) (n : ℕ)
  | publish (i : ℕ) (userId : Uuid)
  | finish (i : ℕ)
  | read (userId : Option Uuid)
  | lookup (i : ℕ) (answered : Bool)
  | check (i : ℕ)
  | fail (i : ℕ)
  | serve (i : ℕ)

/-! ### Writing -/

namespace TrackedWrite

variable (w : TrackedWrite)

/-- `trackWrite`, where the log ends at `lsn`: without a replica there is nothing to be behind. -/
def trackWrite (replica : Bool) (lsn : Lsn) (userIds : List (Option Uuid)) : TrackedWrite :=
  { w with
    targets := userIds.reduceOption
    lsn := if replica = true ∧ userIds.reduceOption ≠ [] then some lsn else none }

/-- Is the transaction one that the reads of a user have to show? -/
def IsOwed (userId : Uuid) (now : Timestamp) : Prop :=
  userId ∈ w.targets ∧ (∃ t ∈ w.returnedAt, now < t + writeTrackingTtl) ∧
    ∀ p ∈ w.published, p.1 = userId → now < p.2 + writeTrackingTtl

instance (userId : Uuid) (now : Timestamp) : Decidable (w.IsOwed userId now) :=
  inferInstanceAs (Decidable (_ ∧ _ ∧ _))

end TrackedWrite

namespace RouterState

variable (s : RouterState)

def putWrite (i : ℕ) (w : TrackedWrite) : RouterState := { s with writes := s.writes.set i w }

def putRead (i : ℕ) (r : RoutedRead) : RouterState := { s with reads := s.reads.set i r }

/-- `SET wlsn:${userId} lsn EX 30`. -/
def set (userId : Uuid) (lsn : Lsn) : RouterState :=
  { s with
    redis := Function.update s.redis userId (some ⟨lsn, s.now + writeTrackingTtl⟩) }

/-! ### Reading -/

/-- `GET wlsn:${userId}`. -/
def get (userId : Uuid) : Option Lsn :=
  ((s.redis userId).filter fun p => s.now < p.expiresAt).map StoredLsn.lsn

def requiredLsn (userId : Option Uuid) (answered : Bool) : Option Lsn :=
  if answered then userId.bind s.get else none

/-- `pg_last_wal_replay_lsn() >= $1`. -/
def replicaHasCaughtUp (lsn : Lsn) : Bool := lsn ≤ s.walReplayLsn

/-- The transactions with these commit records. -/
def recorded (p : Lsn → Bool) : List ℕ :=
  (List.range s.writes.length).filter fun j => (s.writes[j]?.bind TrackedWrite.record).any p

/-- What a query sees. -/
def visible : ServedBy → List ℕ
  | .primary => s.recorded fun _ => true
  | .replica => s.recorded fun record => record ≤ s.walReplayLsn

/-- What a read for a user has to show. -/
def owed (userId : Option Uuid) : List ℕ :=
  (List.range s.writes.length).filter fun j =>
    userId.any fun u => s.writes[j]?.any fun w => w.IsOwed u s.now

/-- A call of `withRoutedRead` begins. -/
def beginRead (replica : Bool) (userId : Option Uuid) : RoutedRead :=
  { userId
    owed := s.owed userId
    phase := if replica then .started else .fallback }

/-- Redis answers, or `tryRedis` gives up on it. -/
def lookedUp (r : RoutedRead) (answered : Bool) : Option RoutedRead :=
  match r.phase with
  | .started =>
    some { r with
      unanswered := !answered
      phase := .looked (s.requiredLsn r.userId answered) }
  | _ => none

/-- The replica is asked, where there is a position to ask about. -/
def checked (r : RoutedRead) : Option RoutedRead :=
  match r.phase with
  | .looked none => some { r with phase := .cleared }
  | .looked (some lsn) =>
    some { r with phase := if s.replicaHasCaughtUp lsn then .cleared else .fallback }
  | _ => none

/-- Where a read goes that fails on the replica. -/
def failed (r : RoutedRead) : Option RoutedRead :=
  match r.phase with
  | .looked _ | .cleared => some { r with phase := .fallback }
  | _ => none

def served (r : RoutedRead) : Option RoutedRead :=
  match r.phase with
  | .cleared => some { r with phase := .served .replica (s.visible .replica) }
  | .fallback => some { r with phase := .served .primary (s.visible .primary) }
  | _ => none

/-! ### The system -/

def next (replica : Bool) (s : RouterState) : RouterStep → Option RouterState
  | .tick n => some { s with now := s.now + n }
  | .append n => some { s with walInsertLsn := s.walInsertLsn + n }
  | .replay n =>
    if s.walReplayLsn + n ≤ s.walInsertLsn then
      some { s with walReplayLsn := s.walReplayLsn + n }
    else none
  | .lose userId => some { s with redis := Function.update s.redis userId none }
  | .begin => some { s with writes := s.writes ++ [{}] }
  | .track i userIds => do
    let w ← s.writes[i]?
    if w.record = none ∧ w.targets = [] then
      some (s.putWrite i (w.trackWrite replica s.walInsertLsn userIds))
    else none
  | .commit i n => do
    let w ← s.writes[i]?
    if w.record = none then
      let record := s.walInsertLsn + n + 1
      some { s.putWrite i { w with record := some record } with walInsertLsn := record }
    else none
  | .publish i userId => do
    let w ← s.writes[i]?
    let lsn ← w.lsn
    if w.record ≠ none ∧ userId ∈ w.targets then
      some ((s.putWrite i { w with published := (userId, s.now) :: w.published }).set userId lsn)
    else none
  | .finish i => do
    let w ← s.writes[i]?
    if w.record ≠ none ∧ w.returnedAt = none then
      some (s.putWrite i { w with returnedAt := some s.now })
    else none
  | .read userId => some { s with reads := s.reads ++ [s.beginRead replica userId] }
  | .lookup i answered =>
    s.reads[i]?.bind fun r => (s.lookedUp r answered).map (s.putRead i)
  | .check i => s.reads[i]?.bind fun r => (s.checked r).map (s.putRead i)
  | .fail i => s.reads[i]?.bind fun r => (failed r).map (s.putRead i)
  | .serve i => s.reads[i]?.bind fun r => (s.served r).map (s.putRead i)

end RouterState

end TakaFlow
