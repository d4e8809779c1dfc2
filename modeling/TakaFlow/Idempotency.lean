import TakaFlow.Events

/-!
# Exactly-once request handling

The key is claimed by the first statement of the transaction that does the work and completed by
its last one.
-/

namespace TakaFlow

open Txn

/-! ### Request hashes -/

/-- The UTF-16 code units of a string, by which JavaScript compares strings. -/
def codeUnits (s : String) : List ℕ :=
  s.toList.flatMap fun c =>
    if c.toNat < 0x10000 then [c.toNat]
    else [0xD800 + (c.toNat - 0x10000) / 0x400, 0xDC00 + (c.toNat - 0x10000) % 0x400]

/-- Insert a member by its name, after the names that are not greater. -/
def insertMember {α : Type} (m : String × α) : List (String × α) → List (String × α)
  | [] => [m]
  | n :: l => if codeUnits m.1 < codeUnits n.1 then m :: n :: l else n :: insertMember m l

mutual

/-- `canonicalize`: members in the order of their names at every depth. -/
def canonicalize (P : Platform) : Json → String
  | .null => "null"
  | .bool true => "true"
  | .bool false => "false"
  | .num q => P.stringifyNumber q
  | .str s => P.stringifyString s
  | .arr items => "[" ++ ",".intercalate (canonicalizeItems P items) ++ "]"
  | .obj members =>
    "\x7b" ++ ",".intercalate (((canonicalizeMembers P members).foldr insertMember []).map
      fun m => P.stringifyString m.1 ++ ":" ++ m.2) ++ "\x7d"

def canonicalizeItems (P : Platform) : List Json → List String
  | [] => []
  | v :: l => canonicalize P v :: canonicalizeItems P l

def canonicalizeMembers (P : Platform) : List (String × Json) → List (String × String)
  | [] => []
  | (k, v) :: l => (k, canonicalize P v) :: canonicalizeMembers P l

end

/-- `hashRequest`. -/
def hashRequest (P : Platform) (endpoint : String) (body : Json) : String :=
  P.sha256 (endpoint ++ "\n" ++ canonicalize P body)

/-! ### Claim and completion -/

inductive IdempotencyClaim where
  | claimed (id : Uuid)
  | replay (status : ℕ) (body : Json)
  | mismatch

/-- What a key that exists already means for the request at hand. -/
def resolveClaim (existing : IdempotencyKey) (requestHash : String) : Tx IdempotencyClaim :=
  if existing.requestHash ≠ requestHash then .ret .mismatch
  else match existing.state, existing.responseStatus, existing.responseBody with
    | .completed, some status, body => .ret (.replay status (body.getD .null))
    | _, _, _ => fail errors.requestInProgress

/-- `LOCK_NOT_AVAILABLE` while waiting on a duplicate. -/
def translateWait (e : Error) : Error :=
  if pgErrorCode e = some PgError.lockNotAvailable then .domain errors.requestInProgress else e

def claimIdempotencyKey (userId : Uuid) (key endpoint requestHash : String) :
    Tx IdempotencyClaim := do
  let inserted ← (query (insertIdempotencyKey userId key endpoint requestHash)).tryCatch
    fun e => .throw (translateWait e)
  match inserted with
  | some id => return .claimed id
  | none =>
    let existing ← query (selectIdempotencyKey userId key)
    let existing ← orFail existing errors.requestInProgress
    resolveClaim existing requestHash

def completeIdempotencyKey (id : Uuid) (status : ℕ) (body : Json) : Tx Unit := do
  let _ ← query (updateIdempotencyKey id status body)
  return ()

/-- The callback every idempotent endpoint passes to `withTransaction`: claim, refuse a mismatch,
return a replay, and otherwise work and complete. -/
def idempotently (userId : Uuid) (key endpoint requestHash : String)
    (work : Uuid → Tx (ℕ × Json)) : Tx Reply := do
  let claim ← claimIdempotencyKey userId key endpoint requestHash
  match claim with
  | .mismatch => fail errors.idempotencyKeyReuse
  | .replay status body => return .outcome status body true
  | .claimed id =>
    let result ← work id
    completeIdempotencyKey id result.1 result.2
    return .outcome result.1 result.2 false

end TakaFlow
