import Mathlib.Data.List.DropRight
import TakaFlow.Config
import TakaFlow.Format

/-!
# Amounts typed in

The backend and the frontend have a parser of amounts each.
-/

namespace TakaFlow

/-! ### The texts of JavaScript -/

/-- White space and line terminators. -/
def isSpace (c : Char) : Bool :=
  c = '\t' || c = '\n' || c.toNat = 0x0B || c.toNat = 0x0C || c = '\r' || c = ' ' ||
    c.toNat = 0xA0 || c.toNat = 0x1680 || (0x2000 ≤ c.toNat && c.toNat ≤ 0x200A) ||
    c.toNat = 0x2028 || c.toNat = 0x2029 || c.toNat = 0x202F || c.toNat = 0x205F ||
    c.toNat = 0x3000 || c.toNat = 0xFEFF

/-- `String.prototype.trim`. -/
def trim (cs : List Char) : List Char := (cs.dropWhile isSpace).rdropWhile isSpace

/-- `s.padEnd(width, '0')`. -/
def padEnd (width : ℕ) (cs : List Char) : List Char := cs ++ List.replicate (width - cs.length) '0'

/-- The value of a digit, letters included. -/
def digitValue? (c : Char) : Option ℕ :=
  if c.isDigit then some (c.toNat - 48)
  else if c.isAlpha then some (c.toLower.toNat - 87)
  else none

/-- The digits of a number to a base. -/
def radixDigits? (base : ℕ) (cs : List Char) : Option ℕ :=
  if cs = [] then none
  else cs.foldlM (fun n c => do
    let v ← digitValue? c
    if v < base then return n * base + v else none) 0

/-- `BigInt` of a string; a `SyntaxError` is `none`. -/
def bigInt? (cs : List Char) : Option ℤ :=
  match trim cs with
  | [] => some 0
  | '0' :: 'x' :: ds | '0' :: 'X' :: ds => (radixDigits? 16 ds).map Int.ofNat
  | '0' :: 'o' :: ds | '0' :: 'O' :: ds => (radixDigits? 8 ds).map Int.ofNat
  | '0' :: 'b' :: ds | '0' :: 'B' :: ds => (radixDigits? 2 ds).map Int.ofNat
  | '+' :: ds => (digits? ds).map Int.ofNat
  | cs => signedDigits? cs

/-! ### The parser of the backend -/

/-- The groups of `/^(-?)(\d+)(?:\.(\d{1,2}))?$/`. -/
def matchTaka (cs : List Char) : Option (Bool × List Char × Option (List Char)) :=
  let sign := decide (cs.head? = some '-')
  let unsigned := if sign then cs.drop 1 else cs
  let whole := unsigned.takeWhile Char.isDigit
  if whole = [] then none
  else
    match unsigned.dropWhile Char.isDigit with
    | [] => some (sign, whole, none)
    | c :: fraction =>
      if c = '.' ∧ fraction.all Char.isDigit ∧ 1 ≤ fraction.length ∧ fraction.length ≤ 2 then
        some (sign, whole, some fraction)
      else none

/-- `takaToMinor`. -/
def takaToMinor (P : Platform) (input : String) : Except String ℤ :=
  match matchTaka (trim input.toList) with
  | none => .error ("Not a valid Taka amount: " ++ P.stringifyString input)
  | some (sign, whole, fraction) =>
    let poisha : ℤ := Nat.ofDigitChars 10 whole 0 * 100 +
      Nat.ofDigitChars 10 (padEnd 2 (fraction.getD ['0'])) 0
    .ok (if sign then -poisha else poisha)

/-! ### The input field of the frontend -/

namespace Ui

/-- `toMinor`: the first two parts between dots. -/
def toMinor (text : String) : Option String :=
  let clean := trim (text.toList.filter (· ≠ ','))
  if clean = [] then some "0"
  else do
    let whole := clean.takeWhile (· ≠ '.')
    let fraction := ((clean.dropWhile (· ≠ '.')).drop 1).takeWhile (· ≠ '.')
    let poisha := (fraction ++ ['0', '0']).take 2
    let wholeTaka ← bigInt? (if whole = [] then ['0'] else whole)
    let rest ← bigInt? poisha
    return toString (wholeTaka * 100 + rest)

/-- `formatMinorForInput`. -/
def formatMinorForInput (minor : String) : Option String := do
  let value ← bigInt? minor.toList
  return toString (value.tdiv 100) ++ "." ++
    String.ofList (List.leftpad 2 '0' (toString (value.tmod 100)).toList)

end Ui

end TakaFlow
