import TakaFlow.Errors

/-!
# Text: identifiers, dates, money and references

Instants are microseconds since the epoch, the resolution of `timestamptz`; a JavaScript `Date`
keeps milliseconds.
-/

namespace TakaFlow

abbrev Uuid := ℕ

/-- Microseconds since 1970-01-01 UTC. -/
abbrev Timestamp := ℕ

/-- Milliseconds since 1970-01-01 UTC: the value of a `Date`. -/
abbrev Millis := ℕ

/-- What a timestamp keeps of itself in a `Date`. -/
def toMillis (t : Timestamp) : Millis := t / 1000

def ofMillis (t : Millis) : Timestamp := t * 1000

/-- `padStart(width, '0')` of a number. -/
def padNat (width n : ℕ) : String :=
  let s := toString n
  String.ofList (List.replicate (width - s.length) '0') ++ s

/-- `/^\d+$/`, and the number. -/
def digits? (cs : List Char) : Option ℕ :=
  if cs ≠ [] ∧ cs.all Char.isDigit then some (Nat.ofDigitChars 10 cs 0) else none

lemma digits?_toDigits (n : ℕ) : digits? (Nat.toDigits 10 n) = some n := by
  have hall : (Nat.toDigits 10 n).all Char.isDigit = true :=
    List.all_eq_true.mpr fun c hc => Nat.isDigit_of_mem_toDigits (by decide) (by decide) hc
  rw [digits?, if_pos ⟨Nat.toDigits_ne_nil, hall⟩, Nat.ofDigitChars_ten_toDigits]

lemma isDigit_ne {c d : Char} (hc : c.isDigit = true) (hd : d.isDigit = false) : c ≠ d := by
  rintro rfl
  rw [hc] at hd
  cases hd

/-- `/^-?\d+$/`, and the number. -/
def signedDigits? : List Char → Option ℤ
  | '-' :: cs => (digits? cs).map fun n => -(n : ℤ)
  | cs => (digits? cs).map Int.ofNat

/-- The characters of an integer: a sign and digits. -/
def signedDigits (z : ℤ) : List Char :=
  match z with
  | .ofNat n => Nat.toDigits 10 n
  | .negSucc n => '-' :: Nat.toDigits 10 (n + 1)

lemma toList_toString_int (z : ℤ) : (toString z).toList = signedDigits z := by
  cases z with
  | ofNat n => exact Nat.toList_repr
  | negSucc n =>
    change ("-" ++ (n + 1).repr).toList = _
    rw [String.toList_append, Nat.toList_repr]
    rfl

lemma signedDigits?_signedDigits (z : ℤ) : signedDigits? (signedDigits z) = some z := by
  cases z with
  | ofNat n =>
    have hcase : signedDigits? (Nat.toDigits 10 n) =
        (digits? (Nat.toDigits 10 n)).map Int.ofNat := by
      unfold signedDigits?
      split
      · rename_i cs hcs
        have hmem : '-' ∈ Nat.toDigits 10 n := by
          rw [hcs]
          exact List.mem_cons_self
        have hdigit := Nat.isDigit_of_mem_toDigits (by decide) (by decide) hmem
        cases hdigit
      · rfl
    rw [signedDigits, hcase, digits?_toDigits]
    rfl
  | negSucc n =>
    simp only [signedDigits, signedDigits?, digits?_toDigits]
    rfl

lemma signedDigits_inj {a b : ℤ} (h : signedDigits a = signedDigits b) : a = b := by
  have hread := congrArg signedDigits? h
  rwa [signedDigits?_signedDigits, signedDigits?_signedDigits, Option.some_inj] at hread

lemma toString_int_inj {a b : ℤ} (h : toString a = toString b) : a = b := by
  apply signedDigits_inj
  rw [← toList_toString_int, h, toList_toString_int]

/-- The hexadecimal digits of `n`, exactly `width` of them. -/
def hexDigits : ℕ → ℕ → List Char
  | 0, _ => []
  | width + 1, n => hexDigits width (n / 16) ++ [Nat.digitChar (n % 16)]

/-- The text of a uuid. -/
def uuidText (id : Uuid) : String :=
  let ds := hexDigits 32 id
  String.intercalate "-" <| [ds.take 8, (ds.drop 8).take 4, (ds.drop 12).take 4,
    (ds.drop 16).take 4, ds.drop 20].map String.ofList

def Json.uuid (id : Uuid) : Json := .str (uuidText id)

/-! ### Civil dates -/

structure Civil where
  year : ℕ
  month : ℕ
  day : ℕ
  deriving DecidableEq

/-- The date of the `days`-th day after 1970-01-01, counting years from March. -/
def civilOfDays (days : ℕ) : Civil :=
  let z := days + 719468
  let era := z / 146097
  let doe := z % 146097
  let yoe := (doe - doe / 1460 + doe / 36524 - doe / 146096) / 365
  let doy := doe - (365 * yoe + yoe / 4 - yoe / 100)
  let mp := (5 * doy + 2) / 153
  let month := if mp < 10 then mp + 3 else mp - 9
  { year := yoe + era * 400 + (if month ≤ 2 then 1 else 0)
    month := month
    day := doy - (153 * mp + 2) / 5 + 1 }

/-- The inverse: days from 1970-01-01 to a date. -/
def daysOfCivil (c : Civil) : ℕ :=
  let y := if c.month ≤ 2 then c.year - 1 else c.year
  let era := y / 400
  let yoe := y % 400
  let mp := if c.month > 2 then c.month - 3 else c.month + 9
  let doy := (153 * mp + 2) / 5 + c.day - 1
  era * 146097 + (yoe * 365 + yoe / 4 - yoe / 100 + doy) - 719468

def msPerDay : ℕ := 24 * 60 * 60 * 1000

/-- The year of a date text: four digits, and from 10000 on a sign and six. -/
def isoYear (year : ℕ) : String :=
  if year < 10000 then padNat 4 year else "+" ++ padNat 6 year

/-- `Date.prototype.toISOString`. -/
def toISOString (t : Millis) : String :=
  let c := civilOfDays (t / msPerDay)
  let ms := t % msPerDay
  isoYear c.year ++ "-" ++ padNat 2 c.month ++ "-" ++ padNat 2 c.day ++ "T" ++
    padNat 2 (ms / 3600000) ++ ":" ++ padNat 2 (ms / 60000 % 60) ++ ":" ++
    padNat 2 (ms / 1000 % 60) ++ "." ++ padNat 3 (ms % 1000) ++ "Z"

/-- A timestamp on the wire: it passes through a `Date`. -/
def Json.date (t : Timestamp) : Json := .str (toISOString (toMillis t))

def Json.dateOfOption : Option Timestamp → Json
  | none => .null
  | some t => .date t

/-- `Date.UTC(year, month - 1, day)` in days, with a month or a day out of range carried over. -/
def utcDays (year month day : ℕ) : ℕ :=
  let months := year * 12 + month - 1
  daysOfCivil ⟨months / 12, months % 12 + 1, 1⟩ + day - 1

/-! ### Money -/

/-- Group digits in threes from the right; the digits come in reversed. -/
def groupThrees : List Char → List Char
  | a :: b :: c :: d :: l => a :: b :: c :: ',' :: groupThrees (d :: l)
  | l => l

/-- `formatTaka`. -/
def formatTaka (minor : ℤ) : String :=
  let abs := minor.natAbs
  (if minor < 0 then "-" else "") ++
    String.ofList (groupThrees (toString (abs / 100)).toList.reverse).reverse ++
    "." ++ padNat 2 (abs % 100)

/-- `money`: the shape of an amount at the API boundary. -/
def money (minor : ℤ) : Json :=
  .obj [("minor", .str (toString minor)), ("formatted", .str (formatTaka minor)),
    ("currency", .str "BDT")]

/-! ### Transfer references -/

/-- Crockford's alphabet: no I, L, O, U. -/
def base32 : List Char := "0123456789ABCDEFGHJKMNPQRSTVWXYZ".toList

/-- The `i`-th character of the suffix: five of the forty bits. -/
def suffixChar (bytes : ℕ → Fin 256) (i : ℕ) : Char :=
  let bitOffset := i * 5
  let byteIndex := bitOffset / 8
  let shift := bitOffset % 8
  let next := if byteIndex + 1 < 5 then (bytes (byteIndex + 1)).val else 0
  let chunk := ((bytes byteIndex).val * 256 + next) >>> (11 - shift)
  base32.getD (chunk % 32) '0'

/-- `generateReference`, from the instant and five random bytes. -/
def generateReference (now : Millis) (bytes : ℕ → Fin 256) : String :=
  let c := civilOfDays (now / msPerDay)
  "TF" ++ padNat 2 (c.year % 100) ++ padNat 2 c.month ++ padNat 2 c.day ++
    String.ofList ((List.range 8).map (suffixChar bytes))

/-- The number two decimal digits stand for. -/
def twoDigits (a b : Char) : Option ℕ :=
  if a.isDigit && b.isDigit then some ((a.toNat - 48) * 10 + (b.toNat - 48)) else none

/-- `referenceDateRange`: the UTC day a reference names. -/
def referenceDateRange (reference : String) : Option (Timestamp × Timestamp) :=
  match reference.toList with
  | 'T' :: 'F' :: y₁ :: y₂ :: m₁ :: m₂ :: d₁ :: d₂ :: suffix => do
    let yy ← twoDigits y₁ y₂
    let mm ← twoDigits m₁ m₂
    let dd ← twoDigits d₁ d₂
    if suffix.length = 8 ∧ suffix.all fun c => c.isDigit || c.isUpper then
      let start := utcDays (2000 + yy) mm dd * msPerDay
      some (ofMillis start, ofMillis (start + msPerDay))
    else none
  | _ => none

end TakaFlow
