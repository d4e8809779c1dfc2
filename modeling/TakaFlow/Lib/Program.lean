import Mathlib.Logic.Function.Basic
import Mathlib.Data.List.Basic

/-!
# Transaction programs

A transaction is a program that talks to a database one statement at a time. Between two
statements other transactions run, so the meaning of a program is not a function of the state it
starts from: `Program` only records which statement comes next and what is done with its rows.

The library is parametric in the database `σ`, the tokens `τ` a transaction may hold (its locks),
the errors `δ` of the driver, the external inputs `ι` (random numbers, identifiers), the hooks `η`
that run after a commit and the exceptions `ε` of the program.
-/

namespace Txn

/-- What one statement does on the state it sees: it returns rows together with its writes and
the tokens it acquires, it waits for a token that another transaction holds, or it fails. -/
inductive Outcome (σ τ δ ρ : Type) where
  | done (rows : ρ) (write : σ → σ) (acquired : List τ)
  | blocked (on : τ)
  | failed (e : δ)

/-- A statement reads the start time of its transaction, an external input, the state visible to
it and the tokens held by the other transactions. -/
abbrev Stmt (σ τ δ ι ρ : Type) : Type := ℕ → ι → σ → (τ → Bool) → Outcome σ τ δ ρ

/-- Savepoint commands. `rollback` undoes everything after the latest savepoint and keeps it. -/
inductive SavepointCmd where
  | set
  | release
  | rollback
  deriving DecidableEq

/-- A program of one transaction, up to its commit. A clock reading is an input like any other. -/
inductive Program (σ τ δ ι η ε α : Type) : Type 1 where
  | ret (a : α)
  | throw (e : ε)
  | input (k : ℕ → ι → Program σ τ δ ι η ε α)
  | query {ρ : Type} (s : Stmt σ τ δ ι ρ) (k : Except δ ρ → Program σ τ δ ι η ε α)
  | savepoint (cmd : SavepointCmd) (k : Except δ Unit → Program σ τ δ ι η ε α)
  | afterCommit (h : η) (k : Program σ τ δ ι η ε α)

namespace Program

variable {σ τ δ ι η ε α β : Type}

/-- Sequencing: continue with `f` where the first program returns. -/
def bind (p : Program σ τ δ ι η ε α) (f : α → Program σ τ δ ι η ε β) :
    Program σ τ δ ι η ε β :=
  match p with
  | .ret a => f a
  | .throw e => .throw e
  | .input k => .input fun t x => (k t x).bind f
  | .query s k => .query s fun r => (k r).bind f
  | .savepoint cmd k => .savepoint cmd fun r => (k r).bind f
  | .afterCommit h k => .afterCommit h (k.bind f)

/-- Exception handler: continue with `h` where the program throws. -/
def tryCatch (p : Program σ τ δ ι η ε α) (h : ε → Program σ τ δ ι η ε α) :
    Program σ τ δ ι η ε α :=
  match p with
  | .ret a => .ret a
  | .throw e => h e
  | .input k => .input fun t x => (k t x).tryCatch h
  | .query s k => .query s fun r => (k r).tryCatch h
  | .savepoint cmd k => .savepoint cmd fun r => (k r).tryCatch h
  | .afterCommit x k => .afterCommit x (k.tryCatch h)

instance : Monad (Program σ τ δ ι η ε) where
  pure := .ret
  bind := bind

@[simp] lemma pure_eq (a : α) : (pure a : Program σ τ δ ι η ε α) = .ret a := rfl

@[simp] lemma bind_eq (p : Program σ τ δ ι η ε α) (f : α → Program σ τ δ ι η ε β) :
    p >>= f = p.bind f := rfl

lemma bind_assoc {γ : Type} (p : Program σ τ δ ι η ε α) (f : α → Program σ τ δ ι η ε β)
    (g : β → Program σ τ δ ι η ε γ) : (p.bind f).bind g = p.bind fun a => (f a).bind g := by
  induction p with
  | ret a => rfl
  | throw e => rfl
  | input k ih => exact congrArg Program.input (funext fun t => funext fun x => ih t x)
  | query s k ih => exact congrArg (Program.query s) (funext fun r => ih r)
  | savepoint cmd k ih => exact congrArg (Program.savepoint cmd) (funext fun r => ih r)
  | afterCommit h k ih => exact congrArg (Program.afterCommit h) ih

lemma bind_ret (p : Program σ τ δ ι η ε α) : p.bind .ret = p := by
  induction p with
  | ret a => rfl
  | throw e => rfl
  | input k ih => exact congrArg Program.input (funext fun t => funext fun x => ih t x)
  | query s k ih => exact congrArg (Program.query s) (funext fun r => ih r)
  | savepoint cmd k ih => exact congrArg (Program.savepoint cmd) (funext fun r => ih r)
  | afterCommit h k ih => exact congrArg (Program.afterCommit h) ih

/-- Issue one statement; a driver error becomes the exception `raise e`. -/
def exec {ρ : Type} (raise : δ → ε) (s : Stmt σ τ δ ι ρ) : Program σ τ δ ι η ε ρ :=
  .query s fun
    | .ok r => .ret r
    | .error e => .throw (raise e)

/-- Issue one savepoint command. -/
def control (raise : δ → ε) (cmd : SavepointCmd) : Program σ τ δ ι η ε Unit :=
  .savepoint cmd fun
    | .ok _ => .ret ()
    | .error e => .throw (raise e)

end Program

/-! ### Statement forms

The statements of a repository are instances of these five. Every write assigns columns to
values computed when the statement runs, never when the transaction commits. -/

namespace Stmt

variable {σ τ δ ι ρ κ : Type}

/-- A plain read. It takes no lock and sees the latest committed state and its own writes. -/
def select (f : ℕ → σ → ρ) : Stmt σ τ δ ι ρ :=
  fun now _ v _ => .done (f now v) id []

/-- A read that leaves a mark: nothing blocks on it, and several transactions may carry it. -/
def selectMarking (f : ℕ → σ → ρ) (mark : τ) : Stmt σ τ δ ι ρ :=
  fun now _ v _ => .done (f now v) id [mark]

/-- `SELECT ... FOR UPDATE` of at most one row: it waits for the row, re-evaluates the predicate
on the latest version, and holds the row to the end of the transaction. -/
def selectForUpdate (find : ℕ → σ → Option ρ) (lock : ρ → τ) : Stmt σ τ δ ι (Option ρ) :=
  fun now _ v taken =>
    match find now v with
    | none => .done none id []
    | some r => if taken (lock r) then .blocked (lock r) else .done (some r) id [lock r]

/-- `UPDATE ... WHERE ...` of at most one row. The row it found is returned, as it was before. -/
def update (find : ℕ → σ → Option ρ) (lock : ρ → τ) (set : ℕ → ρ → σ → σ) :
    Stmt σ τ δ ι (Option ρ) :=
  fun now _ v taken =>
    match find now v with
    | none => .done none id []
    | some r =>
      if taken (lock r) then .blocked (lock r) else .done (some r) (set now r) [lock r]

/-- `INSERT` of rows under generated identifiers. An identifier already in use, or just being
inserted by another transaction, is a duplicate. `marks` are the other tokens acquired. -/
def insert (fresh : ι → List τ) (marks : List τ) (unused : ι → σ → Bool) (dup : δ)
    (set : ℕ → ι → σ → σ) (out : ℕ → ι → ρ) : Stmt σ τ δ ι ρ :=
  fun now x v taken =>
    if unused x v && (fresh x).all fun l => !taken l then
      .done (out now x) (set now x) (fresh x ++ marks)
    else .failed dup

/-- `INSERT` under a unique key: wait while another transaction is inserting the same key. -/
def insertUnique (key : τ) (conflict : σ → Bool) (onConflict : Outcome σ τ δ ρ)
    (fresh : ι → List τ) (unused : ι → σ → Bool) (dup : δ) (set : ℕ → ι → σ → σ)
    (out : ℕ → ι → ρ) : Stmt σ τ δ ι ρ :=
  fun now x v taken =>
    if conflict v then onConflict
    else if taken key then .blocked key
    else insert fresh [key] unused dup set out now x v taken

end Stmt

end Txn
