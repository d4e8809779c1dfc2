import TakaFlow.Lib.Program

/-!
# Interleaved sessions over one committed state

Each session runs one program at READ COMMITTED: a statement sees the latest committed state
under the session's own writes, tokens are held to the end of the transaction, and nothing a
session writes is visible to another one before it commits. Sessions interleave statement by
statement; any statement may fail, and any session may crash, at any point.
-/

namespace Txn

variable {σ τ δ ι η ε α κ : Type}

/-- How a driver reports errors: which ones leave the transaction aborted on the server, the
error of every further statement there, and the one for a savepoint that does not exist. -/
class Driver (δ : Type) where
  aborts : δ → Bool
  inFailedTransaction : δ
  noSuchSavepoint : δ

/-- The state of a running transaction. `write` is the effect it will have if it commits; it is
also what the transaction sees on top of the committed state. Hooks survive a rollback to a
savepoint, since the database knows nothing about them. -/
@[ext]
structure Ctx (σ τ η : Type) where
  now : ℕ
  write : σ → σ := id
  tokens : List τ := []
  saves : List ((σ → σ) × List τ) := []
  aborted : Bool := false
  hooks : List η := []

namespace Ctx

def start (now : ℕ) : Ctx σ τ η := { now := now }

/-- A statement succeeded with these writes and tokens. -/
def done (c : Ctx σ τ η) (w : σ → σ) (acquired : List τ) : Ctx σ τ η :=
  { c with write := w ∘ c.write, tokens := acquired ++ c.tokens }

/-- A statement failed. -/
def fail [Driver δ] (c : Ctx σ τ η) (e : δ) : Ctx σ τ η :=
  { c with aborted := c.aborted || Driver.aborts e }

def hook (c : Ctx σ τ η) (h : η) : Ctx σ τ η := { c with hooks := c.hooks ++ [h] }

def save (c : Ctx σ τ η) : Ctx σ τ η := { c with saves := (c.write, c.tokens) :: c.saves }

def release (c : Ctx σ τ η) : Ctx σ τ η := { c with saves := c.saves.tail }

/-- Undo the writes after a savepoint and release the tokens acquired after it. -/
def restore (c : Ctx σ τ η) (s : (σ → σ) × List τ) : Ctx σ τ η :=
  { c with write := s.1, tokens := s.2, aborted := false }

section simps

variable [Driver δ] (c : Ctx σ τ η) (w : σ → σ) (l : List τ) (e : δ) (h : η)
  (s : (σ → σ) × List τ)

@[simp] lemma start_now (n : ℕ) : (start n : Ctx σ τ η).now = n := rfl
@[simp] lemma start_write (n : ℕ) : (start n : Ctx σ τ η).write = id := rfl
@[simp] lemma start_tokens (n : ℕ) : (start n : Ctx σ τ η).tokens = [] := rfl
@[simp] lemma start_saves (n : ℕ) : (start n : Ctx σ τ η).saves = [] := rfl
@[simp] lemma start_aborted (n : ℕ) : (start n : Ctx σ τ η).aborted = false := rfl
@[simp] lemma done_now : (c.done w l).now = c.now := rfl
@[simp] lemma done_write : (c.done w l).write = w ∘ c.write := rfl
@[simp] lemma done_tokens : (c.done w l).tokens = l ++ c.tokens := rfl
@[simp] lemma done_saves : (c.done w l).saves = c.saves := rfl
@[simp] lemma done_aborted : (c.done w l).aborted = c.aborted := rfl
@[simp] lemma done_id_nil : c.done id [] = c := rfl
@[simp] lemma fail_now : (c.fail e).now = c.now := rfl
@[simp] lemma fail_write : (c.fail e).write = c.write := rfl
@[simp] lemma fail_tokens : (c.fail e).tokens = c.tokens := rfl
@[simp] lemma fail_saves : (c.fail e).saves = c.saves := rfl
@[simp] lemma hook_now : (c.hook h).now = c.now := rfl
@[simp] lemma hook_write : (c.hook h).write = c.write := rfl
@[simp] lemma hook_tokens : (c.hook h).tokens = c.tokens := rfl
@[simp] lemma hook_saves : (c.hook h).saves = c.saves := rfl
@[simp] lemma hook_aborted : (c.hook h).aborted = c.aborted := rfl
@[simp] lemma save_now : c.save.now = c.now := rfl
@[simp] lemma save_write : c.save.write = c.write := rfl
@[simp] lemma save_tokens : c.save.tokens = c.tokens := rfl
@[simp] lemma save_saves : c.save.saves = (c.write, c.tokens) :: c.saves := rfl
@[simp] lemma save_aborted : c.save.aborted = c.aborted := rfl
@[simp] lemma release_now : c.release.now = c.now := rfl
@[simp] lemma release_write : c.release.write = c.write := rfl
@[simp] lemma release_tokens : c.release.tokens = c.tokens := rfl
@[simp] lemma release_saves : c.release.saves = c.saves.tail := rfl
@[simp] lemma release_aborted : c.release.aborted = c.aborted := rfl
@[simp] lemma restore_now : (c.restore s).now = c.now := rfl
@[simp] lemma restore_write : (c.restore s).write = s.1 := rfl
@[simp] lemma restore_tokens : (c.restore s).tokens = s.2 := rfl
@[simp] lemma restore_saves : (c.restore s).saves = c.saves := rfl
@[simp] lemma restore_aborted : (c.restore s).aborted = false := rfl

end simps

end Ctx

/-- Where a session is. `lost` is a normal return whose `COMMIT` met an aborted transaction, which
the server turns into a rollback. -/
inductive Phase (σ τ δ ι η ε α : Type) : Type 1 where
  | running (p : Program σ τ δ ι η ε α)
  | committed (a : α)
  | lost (a : α)
  | failed (e : ε)
  | crashed

/-- One attempt at one call. -/
structure Session (σ τ δ ι η ε α κ : Type) : Type 1 where
  call : κ
  ctx : Ctx σ τ η
  phase : Phase σ τ δ ι η ε α

/-- The record of one commit. -/
structure Commit (σ η α κ : Type) where
  session : ℕ
  call : κ
  now : ℕ
  reply : α
  hooks : List η
  before : σ
  after : σ

/-- The system: the committed state, a clock, all sessions ever begun, and the commits in order. -/
structure Sys (σ τ δ ι η ε α κ : Type) : Type 1 where
  db : σ
  clock : ℕ
  sessions : List (Session σ τ δ ι η ε α κ) := []
  history : List (Commit σ η α κ) := []

/-- One step of the system. A retry of a call is a further `begin` of it. -/
inductive Event (δ ι κ : Type) where
  | begin (call : κ)
  | step (i : ℕ) (x : ι)
  | fault (i : ℕ) (e : δ)
  | finish (i : ℕ)
  | crash (i : ℕ)
  | tick (d : ℕ)

namespace Sys

def start (db : σ) (clock : ℕ) : Sys σ τ δ ι η ε α κ := { db := db, clock := clock }

/-- Does a session other than `i` hold this token? -/
def takenByOthers [DecidableEq τ] (s : Sys σ τ δ ι η ε α κ) (i : ℕ) (l : τ) : Bool :=
  (List.range s.sessions.length).any fun j =>
    j ≠ i && (s.sessions[j]?).any fun x => decide (l ∈ x.ctx.tokens)

/-- Replace session `i`. -/
def put (s : Sys σ τ δ ι η ε α κ) (i : ℕ) (x : Session σ τ δ ι η ε α κ) :
    Sys σ τ δ ι η ε α κ :=
  { s with sessions := s.sessions.set i x }

/-- The next action of a running session. -/
def advance [DecidableEq τ] [Driver δ] (s : Sys σ τ δ ι η ε α κ) (i : ℕ)
    (x : ι) (c : Ctx σ τ η) (p : Program σ τ δ ι η ε α) :
    Option (Ctx σ τ η × Program σ τ δ ι η ε α) :=
  match p with
  | .ret _ => none
  | .throw _ => none
  | .input k => some (c, k s.clock x)
  | .afterCommit h k => some (c.hook h, k)
  | .query q k =>
    if c.aborted then
      some (c.fail (Driver.inFailedTransaction (δ := δ)), k (.error Driver.inFailedTransaction))
    else match q c.now x (c.write s.db) (s.takenByOthers i) with
      | .done r w acquired => some (c.done w acquired, k (.ok r))
      | .blocked _ => none
      | .failed e => some (c.fail e, k (.error e))
  | .savepoint cmd k =>
    match cmd, c.saves, c.aborted with
    | .rollback, sv :: _, _ => some (c.restore sv, k (.ok ()))
    | .rollback, [], _ =>
      some (c.fail (Driver.noSuchSavepoint (δ := δ)), k (.error Driver.noSuchSavepoint))
    | _, _, true =>
      some (c.fail (Driver.inFailedTransaction (δ := δ)), k (.error Driver.inFailedTransaction))
    | .set, _, false => some (c.save, k (.ok ()))
    | .release, _ :: _, false => some (c.release, k (.ok ()))
    | .release, [], false =>
      some (c.fail (Driver.noSuchSavepoint (δ := δ)), k (.error Driver.noSuchSavepoint))

/-- The continuation after a failed statement or savepoint command. -/
def faulted [Driver δ] (e : δ) (c : Ctx σ τ η) (p : Program σ τ δ ι η ε α) :
    Option (Ctx σ τ η × Program σ τ δ ι η ε α) :=
  match p with
  | .query _ k => some (c.fail e, k (.error e))
  | .savepoint _ k => some (c.fail e, k (.error e))
  | _ => none

/-- A finished session keeps its start time and holds nothing. -/
def close (x : Session σ τ δ ι η ε α κ) (ph : Phase σ τ δ ι η ε α) : Session σ τ δ ι η ε α κ :=
  { x with ctx := .start x.ctx.now, phase := ph }

/-- The system's transition function; `none` where the event cannot happen. -/
def step [DecidableEq τ] [Driver δ] (body : κ → Program σ τ δ ι η ε α)
    (s : Sys σ τ δ ι η ε α κ) : Event δ ι κ → Option (Sys σ τ δ ι η ε α κ)
  | .begin call =>
    some { s with sessions := s.sessions ++ [⟨call, .start s.clock, .running (body call)⟩] }
  | .tick d => some { s with clock := s.clock + d }
  | .step i x => do
    let ss ← s.sessions[i]?
    let .running p := ss.phase | none
    let (c, p') ← s.advance i x ss.ctx p
    return s.put i { ss with ctx := c, phase := .running p' }
  | .fault i e => do
    let ss ← s.sessions[i]?
    let .running p := ss.phase | none
    let (c, p') ← faulted e ss.ctx p
    return s.put i { ss with ctx := c, phase := .running p' }
  | .crash i => do
    let ss ← s.sessions[i]?
    let .running _ := ss.phase | none
    return s.put i (close ss .crashed)
  | .finish i => do
    let ss ← s.sessions[i]?
    match ss.phase with
    | .running (.throw e) => return s.put i (close ss (.failed e))
    | .running (.ret a) =>
      if ss.ctx.aborted then return s.put i (close ss (.lost a))
      else
        let db' := ss.ctx.write s.db
        return { s.put i (close ss (.committed a)) with
          db := db'
          history := s.history ++
            [⟨i, ss.call, ss.ctx.now, a, ss.ctx.hooks, s.db, db'⟩] }
    | _ => none

/-- Run a list of events, without those that cannot happen and those that are not allowed. -/
def play [DecidableEq τ] [Driver δ] (body : κ → Program σ τ δ ι η ε α)
    (allowed : Sys σ τ δ ι η ε α κ → Event δ ι κ → Bool) (s : Sys σ τ δ ι η ε α κ) :
    List (Event δ ι κ) → Sys σ τ δ ι η ε α κ
  | [] => s
  | e :: es => (if allowed s e then (s.step body e).getD s else s).play body allowed es

end Sys

/-- The tokens that executing the next statement of session `i` would acquire. -/
def Sys.acquires [DecidableEq τ] (s : Sys σ τ δ ι η ε α κ) (i : ℕ) (x : ι) : List τ :=
  match s.sessions[i]? with
  | some ⟨_, c, .running (.query q _)⟩ =>
    match q c.now x (c.write s.db) (s.takenByOthers i) with
    | .done _ _ acquired => if c.aborted then [] else acquired
    | _ => []
  | _ => []

/-- States reachable by events that all meet the condition `ok`. -/
inductive Reaches [DecidableEq τ] [Driver δ] (body : κ → Program σ τ δ ι η ε α)
    (ok : Sys σ τ δ ι η ε α κ → Event δ ι κ → Prop) (s₀ : Sys σ τ δ ι η ε α κ) :
    Sys σ τ δ ι η ε α κ → Prop where
  | refl : Reaches body ok s₀ s₀
  | step {s s'} {e : Event δ ι κ} (h : Reaches body ok s₀ s) (hok : ok s e)
      (hs : s.step body e = some s') : Reaches body ok s₀ s'

end Txn
