import Mathlib.Algebra.Group.Nat.Defs
import Mathlib.Data.List.DropRight
import Mathlib.Data.Prod.Lex
import TakaFlow.Config
import TakaFlow.Lib.Base64
import TakaFlow.Lib.Keyset

/-!
# Cursors

A cursor is the creation time and the identifier of the last row of a page, as texts. The texts go
back to Postgres, which casts them.
-/

namespace TakaFlow

open Txn

/-! ### Timestamps as text -/

/-- `t::text` and `s::timestamptz`. -/
structure TimestampText where
  text : Timestamp → String
  cast : String → Option Timestamp

def isHexDigit (c : Char) : Bool :=
  c.isDigit || ('a' ≤ c && c ≤ 'f') || ('A' ≤ c && c ≤ 'F')

/-- Does a character of a pattern let this one pass? A `d` stands for `\d`, an `x` for a
hexadecimal digit and a blank for `[ T]`. -/
def admits (c pattern : Char) : Bool :=
  if pattern = 'd' then c.isDigit
  else if pattern = 'x' then isHexDigit c
  else if pattern = ' ' then c = ' ' || c = 'T'
  else c = pattern

def fits (pattern : String) (cs : List Char) : Bool := cs.isEqv pattern.toList admits

/-- What is left after `(\.\d+)?`. -/
def afterFraction : List Char → List Char
  | '.' :: c :: cs => if c.isDigit then cs.dropWhile Char.isDigit else '.' :: c :: cs
  | cs => cs

/-- `([+-]\d{2}(:?\d{2})?|Z)?$`. -/
def isZone : List Char → Bool
  | [] => true
  | ['Z'] => true
  | c :: cs => (c = '+' || c = '-') && (fits "dd" cs || fits "dddd" cs || fits "dd:dd" cs)

/-- `PG_TIMESTAMP.test`. -/
def isPgTimestamp (value : String) : Bool :=
  fits "dddd-dd-dd dd:dd:dd" (value.toList.take 19) &&
    isZone (afterFraction (value.toList.drop 19))

def asPgTimestamp (P : Platform) (value : String) : Except Error String :=
  if isPgTimestamp value then .ok value
  else .error (.internal ("Not a Postgres timestamp: " ++ P.stringifyString value))

/-! ### Identifiers as text -/

namespace PgError

def numericValueOutOfRange : String := "22003"
def invalidDatetimeFormat : String := "22007"
def invalidTextRepresentation : String := "22P02"

end PgError

/-- The type of a tiebreaker: its text and the cast back. -/
structure IdColumn where
  text : ℕ → String
  cast : String → Except PgError ℕ

def bigintLimit : ℕ := 2 ^ 63

/-- `id::text` and `s::bigint`, of a text without a sign. -/
def bigintColumn : IdColumn where
  text := toString
  cast s :=
    match digits? s.toList with
    | none => .error { code := PgError.invalidTextRepresentation }
    | some n =>
      if n < bigintLimit then .ok n else .error { code := PgError.numericValueOutOfRange }

def hexValue (c : Char) : ℕ :=
  if c.isDigit then c.toNat - 48 else (c.toLower.toNat - 87)

/-- `/^[0-9a-f]{8}-[0-9a-f]{4}-[0-9a-f]{4}-[0-9a-f]{4}-[0-9a-f]{12}$/i`. -/
def isUuid (cs : List Char) : Bool := fits "xxxxxxxx-xxxx-xxxx-xxxx-xxxxxxxxxxxx" cs

/-- `s::uuid`, of a text in the usual form or of digits only, which are too few. -/
def uuidColumn : IdColumn where
  text := uuidText
  cast s :=
    if isUuid s.toList then
      .ok ((s.toList.filter (· ≠ '-')).foldl (fun n c => n * 16 + hexValue c) 0)
    else .error { code := PgError.invalidTextRepresentation }

/-! ### Cursors -/

structure Cursor where
  createdAt : String
  id : String
  deriving DecidableEq

def encodeCursor (cursor : Cursor) : String :=
  Base64.encodeText (cursor.createdAt ++ "|" ++ cursor.id)

def invalidCursor : DomainError := errors.validation "Invalid pagination cursor"

/-- Tiebreakers are uuids or bigints. -/
def isId (id : List Char) : Bool :=
  isUuid id || (1 ≤ id.length && id.length ≤ 19 && id.all Char.isDigit)

/-- Bytes that are not text decode to replacement characters, which no valid cursor has. -/
def decodeCursor (raw : Option String) : Except DomainError (Option Cursor) :=
  match raw with
  | none => .ok none
  | some raw =>
    if raw = "" then .ok none
    else
      match Base64.decodeText? raw with
      | none => .error invalidCursor
      | some decoded =>
        if '|' ∈ decoded.toList then
          let rawTimestamp := (decoded.toList.rdropWhile (· ≠ '|')).dropLast
          let id := decoded.toList.rtakeWhile (· ≠ '|')
          if isId id && isPgTimestamp (.ofList rawTimestamp) then
            .ok (some { createdAt := .ofList rawTimestamp, id := .ofList id })
          else .error invalidCursor
        else .error invalidCursor

/-! ### Pages -/

structure Page where
  items : List Json
  nextCursor : Option String

section

variable {α : Type} (P : Platform) (T : TimestampText) (I : IdColumn)

/-- The cursor of a row's `(created_at, id)`. -/
def cursorAt (place : ℕ ×ₗ ℕ) : Cursor :=
  { createdAt := T.text (ofLex place).1, id := I.text (ofLex place).2 }

/-- `($1::timestamptz, $2::bigint)`, or `uuid`. -/
def Cursor.place (cursor : Cursor) : Except Error (ℕ ×ₗ ℕ) :=
  match T.cast cursor.createdAt, I.cast cursor.id with
  | none, _ => .error (.driver { code := PgError.invalidDatetimeFormat })
  | some _, .error e => .error (.driver e)
  | some t, .ok id => .ok (toLex (t, id))

def Cursor.place? : Option Cursor → Except Error (Option (ℕ ×ₗ ℕ))
  | none => .ok none
  | some cursor => (cursor.place T I).map some

/-- The rows below a cursor, `ORDER BY created_at DESC, id DESC LIMIT limit`, with their creation
times as text. -/
def selectPage (place : α → ℕ ×ₗ ℕ) (limit : ℕ) (cursor : Option Cursor) (rows : List α) :
    Except Error (List α) := do
  let after ← Cursor.place? T I cursor
  let found := Keyset.page place limit after rows
  let _ ← found.mapM fun row => asPgTimestamp P (T.text (ofLex (place row)).1)
  return found

/-- The items of a page and the anchor of the next one. -/
def toPage (place : α → ℕ ×ₗ ℕ) (rows : List α) (limit : ℕ) :
    Except Error (List α × Option String) :=
  if rows.length ≤ limit then .ok (rows, none)
  else
    match (rows.take limit).getLast? with
    | none => .error (.internal "Cannot read properties of undefined (reading 'createdAtRaw')")
    | some last => .ok (rows.take limit, some (encodeCursor (cursorAt T I (place last))))

/-- A list endpoint: it decodes the cursor, selects a row more than fits and makes a page of them. -/
def listPage (place : α → ℕ ×ₗ ℕ) (dto : α → Json) (limit : ℕ) (cursor : Option String)
    (rows : List α) : Except Error Page := do
  let cursor ← (decodeCursor cursor).mapError Error.domain
  let found ← selectPage P T I place (limit + 1) cursor rows
  let page ← toPage T I place found limit
  return { items := page.1.map dto, nextCursor := page.2 }

end

end TakaFlow
