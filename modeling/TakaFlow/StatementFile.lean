import TakaFlow.Listings

/-!
# The statement as a file
-/

namespace TakaFlow

/-- `COLUMNS`. -/
def statementColumns : List String :=
  ["date", "reference", "type", "direction", "counterparty", "counterparty_phone", "amount_bdt",
    "amount_minor", "balance_after_bdt", "note"]

/-- `/^[=+\-@\t\r]/.test`: a spreadsheet would take the text for a formula. -/
def isDangerous (value : String) : Bool :=
  ['=', '+', '-', '@', '\t', '\r'].any fun c => value.toList.head? = some c

def csvField (value : Option String) : String :=
  match value with
  | none => ""
  | some value =>
    if value = "" then ""
    else
      let shown := if isDangerous value then "'" ++ value else value
      let escaped := shown.toList.flatMap fun c => if c = '"' then ['"', '"'] else [c]
      if escaped.any fun c => c = '"' || c = ',' || c = '\r' || c = '\n' then
        "\"" ++ String.ofList escaped ++ "\""
      else String.ofList escaped

/-- The `fields` of `csvRow`. -/
def statementFields (entry : HistoryEntry) : List (Option String) :=
  [some (toISOString (toMillis entry.createdAt)), some entry.reference, some entry.type.text,
    some (match entry.direction with | .credit => "IN" | .debit => "OUT"),
    some entry.counterpartyName, entry.counterpartyPhone, some (formatTaka entry.amountMinor),
    some (toString entry.amountMinor), some (formatTaka entry.balanceAfterMinor), entry.note]

def csvRow (entry : HistoryEntry) : String :=
  String.intercalate "," ((statementFields entry).map csvField) ++ "\r\n"

/-! ### The export -/

/-- `PAGE_SIZE`. -/
def pageSize : ℕ := 500

/-- Dates are milliseconds. -/
structure StatementWindow where
  accountId : Uuid
  from_ : Option ℤ := none
  to_ : Option ℤ := none

section

variable (P : Platform) (T : TimestampText) (window : StatementWindow)

/-- The rows of the chunks after a cursor, and how the export ends. Every page is read in a
transaction of its own, from the state the database is in by then. `none` is an export that goes on
after so many pages. -/
def statementRows (to_ : ℤ) :
    ℕ → Option Cursor → (ℕ → Database) → Option (List (List HistoryRow) × Option Error)
  | 0, _, _ => none
  | fuel + 1, cursor, reads =>
    match selectHistory P T window.accountId { from_ := window.from_, to_ := some to_ } pageSize
        cursor (reads 0) with
    | .error e => some ([], some e)
    | .ok rows =>
      match rows.getLast? with
      | none => some ([], none)
      | some last =>
        if rows.length < pageSize then some ([rows], none)
        else
          (statementRows to_ fuel (some (cursorAt T bigintColumn last.place))
            fun n => reads (n + 1)).map fun rest => (rows :: rest.1, rest.2)

/-- A byte-order mark, the columns and the rows. -/
def statementText (chunks : List (List HistoryRow)) : List String :=
  "\uFEFF" :: (String.intercalate "," statementColumns ++ "\r\n") ::
    chunks.map fun rows => String.join (rows.map fun row => csvRow (mapEntry row))

def statementChunks (now : Millis) (fuel : ℕ) (reads : ℕ → Database) :
    Option (List String × Option Error) :=
  (statementRows P T window (window.to_.getD now) fuel none reads).map fun rows =>
    (statementText rows.1, rows.2)

end

end TakaFlow
