import TakaFlow.Amounts
import TakaFlow.Calendar
import TakaFlow.Spec.Cursors

/-!
# What the queries make of a cursor

A cursor that passes its checks has the shape of a timestamp and of some identifier. The query that
it is handed to casts both, and may refuse either.
-/

namespace TakaFlow

/-! ### Instants -/

/-- The fields of a text in the shape of a timestamp. -/
structure DateTime where
  date : Civil
  hour : ℕ
  minute : ℕ
  second : ℕ
  fraction : List Char
  zoneHour : ℕ
  zoneMinute : ℕ

def numberAt (cs : List Char) (start length : ℕ) : ℕ :=
  Nat.ofDigitChars 10 ((cs.drop start).take length) 0

def dateTimeOf (cs : List Char) : DateTime :=
  let zone := (afterFraction (cs.drop 19)).filter Char.isDigit
  { date := ⟨numberAt cs 0 4, numberAt cs 5 2, numberAt cs 8 2⟩
    hour := numberAt cs 11 2
    minute := numberAt cs 14 2
    second := numberAt cs 17 2
    fraction := match cs.drop 19 with
      | '.' :: rest => rest.takeWhile Char.isDigit
      | _ => []
    zoneHour := numberAt zone 0 2
    zoneMinute := numberAt zone 2 2 }

/-- A fraction of a second of no microseconds. -/
def DateTime.onTheSecond (x : DateTime) : Bool :=
  2 * 1000000 * Nat.ofDigitChars 10 x.fraction 0 ≤ 10 ^ x.fraction.length

/-- There is such an instant: a date of the calendar, a time of up to 24 hours in which a minute
may have another second, and a zone within 16 hours. -/
def DateTime.Exists (x : DateTime) : Prop :=
  1 ≤ x.date.year ∧
    (1 ≤ x.date.month ∧ x.date.month ≤ 12 ∧
      1 ≤ x.date.day ∧ x.date.day ≤ daysInMonth x.date.year x.date.month) ∧
    (x.hour ≤ 23 ∨ x.hour = 24 ∧ x.minute = 0 ∧ x.second = 0 ∧ x.onTheSecond = true) ∧
    x.minute ≤ 59 ∧ x.second ≤ 60 ∧ x.zoneHour ≤ 15 ∧ x.zoneMinute ≤ 59

instance (x : DateTime) : Decidable x.Exists := inferInstanceAs (Decidable (_ ∧ _))

/-- Postgres casts a text in the shape of a timestamp iff its fields are in range. -/
def TimestampText.Documented (T : TimestampText) : Prop :=
  ∀ s, isPgTimestamp s = true → ((∃ t, T.cast s = some t) ↔ (dateTimeOf s.toList).Exists)

/-! ### Identifiers -/

/-- The endpoints that page. -/
inductive Listing where
  | history
  | requests
  | schedules

namespace Listing

/-- The column that the identifier of a cursor is compared with. -/
def column : Listing → IdColumn
  | history => bigintColumn
  | requests => uuidColumn
  | schedules => uuidColumn

/-- The identifiers that its type has. -/
def takes (listing : Listing) (id : List Char) : Bool :=
  match listing with
  | history => (digits? id).any (· < bigintLimit)
  | requests => isUuid id
  | schedules => isUuid id

lemma cast_column (listing : Listing) (id : List Char) :
    (∃ n, listing.column.cast (.ofList id) = .ok n) ↔ listing.takes id = true := by
  have huuid : (∃ n, uuidColumn.cast (.ofList id) = .ok n) ↔ isUuid id = true := by
    simp only [uuidColumn, String.toList_ofList]
    split
    · exact iff_of_true ⟨_, rfl⟩ ‹_›
    · exact iff_of_false (by rintro ⟨_, ⟨⟩⟩) ‹_›
  cases listing with
  | history =>
    simp only [column, bigintColumn, takes, String.toList_ofList]
    cases digits? id with
    | none => exact iff_of_false (by rintro ⟨_, ⟨⟩⟩) Bool.false_ne_true
    | some n =>
      simp only [Option.any_some, decide_eq_true_eq]
      split
      · exact iff_of_true ⟨_, rfl⟩ ‹_›
      · exact iff_of_false (by rintro ⟨_, ⟨⟩⟩) ‹_›
  | requests => exact huuid
  | schedules => exact huuid

end Listing

/-! ### What becomes of a cursor -/

section

variable {T : TimestampText}

/-- A cursor is refused as invalid input, or the query can use it. -/
def Received (T : TimestampText) (listing : Listing) (raw : String) : Prop :=
  match decodeCursor (some raw) with
  | .error e => e.code = .validationError
  | .ok none => True
  | .ok (some cursor) => ∃ place, cursor.place T listing.column = .ok place

/-- If the text in a cursor has the shape of a timestamp and an identifier, then there is such an
instant, and the identifier is of the type of this listing. -/
def Castable (listing : Listing) (raw : String) : Prop :=
  raw ≠ "" → ∀ decoded, Base64.decodeText? raw = some decoded →
    ∀ ts id, decoded.toList = ts ++ '|' :: id → '|' ∉ id → isPgTimestamp (.ofList ts) = true →
      isId id = true → (dateTimeOf ts).Exists ∧ listing.takes id = true

lemma place_iff (hT : T.Documented) (listing : Listing) {ts id : List Char}
    (hcreated : isPgTimestamp (.ofList ts) = true) :
    (∃ place, Cursor.place T listing.column ⟨.ofList ts, .ofList id⟩ = .ok place) ↔
      (dateTimeOf ts).Exists ∧ listing.takes id = true := by
  have hcast := hT _ hcreated
  rw [String.toList_ofList] at hcast
  rw [← hcast, ← listing.cast_column]
  simp only [Cursor.place]
  cases T.cast (.ofList ts) with
  | none => exact iff_of_false (by rintro ⟨_, ⟨⟩⟩) (by rintro ⟨⟨_, ⟨⟩⟩, -⟩)
  | some t =>
    cases listing.column.cast (.ofList id) with
    | error e => exact iff_of_false (by rintro ⟨_, ⟨⟩⟩) (by rintro ⟨-, _, ⟨⟩⟩)
    | ok n => exact iff_of_true ⟨_, rfl⟩ ⟨⟨t, rfl⟩, ⟨n, rfl⟩⟩

/-- Where a text has a separator it has a last one. -/
lemma exists_split {cs : List Char} (h : '|' ∈ cs) :
    ∃ ts id, cs = ts ++ '|' :: id ∧ '|' ∉ id := by
  obtain ⟨as, bs, hsplit, hnot⟩ := List.eq_append_cons_of_mem (List.mem_reverse.mpr h)
  refine ⟨bs.reverse, as.reverse, ?_, fun hmem => hnot (List.mem_reverse.mp hmem)⟩
  rw [← List.reverse_reverse cs, hsplit]
  simp

lemma received_iff (hT : T.Documented) (listing : Listing) (raw : String) :
    Received T listing raw ↔ Castable listing raw := by
  by_cases hne : raw = ""
  · exact iff_of_true (by rw [hne]; trivial) fun h => absurd hne h
  cases hdecode : Base64.decodeText? raw with
  | none =>
    refine iff_of_true ?_ fun _ decoded h => nomatch hdecode.symm.trans h
    simp only [Received, decodeCursor, if_neg hne, hdecode]
    rfl
  | some decoded =>
    by_cases hmem : '|' ∈ decoded.toList
    · obtain ⟨ts, id, hsplit, hsep⟩ := exists_split hmem
      have hcastable : Castable listing raw ↔ (isPgTimestamp (.ofList ts) = true →
          isId id = true → (dateTimeOf ts).Exists ∧ listing.takes id = true) := by
        constructor
        · exact fun h => h hne decoded hdecode ts id hsplit hsep
        · intro h _ decoded' hdecode' ts' id' hsplit' hsep'
          cases hdecode.symm.trans hdecode'
          obtain ⟨hid, hts⟩ := rtakeWhile_separator ts hsep
          obtain ⟨hid', hts'⟩ := rtakeWhile_separator ts' hsep'
          rw [← hsplit] at hid hts
          rw [← hsplit'] at hid' hts'
          rw [← hid', ← hts', hid, hts]
          exact h
      rw [hcastable]
      simp only [Received, decodeCursor_of_split hne hdecode hsplit hsep]
      by_cases hvalid : isId id = true ∧ isPgTimestamp (.ofList ts) = true
      · rw [hvalid.1, hvalid.2]
        simp only [Bool.and_self, if_true]
        rw [place_iff hT listing hvalid.2]
        exact ⟨fun h _ _ => h, fun h => h trivial trivial⟩
      · have hrefused : (isId id && isPgTimestamp (.ofList ts)) = false := by
          rwa [← Bool.not_eq_true, Bool.and_eq_true]
        rw [hrefused]
        exact iff_of_true rfl fun hts hid => absurd ⟨hid, hts⟩ hvalid
    · refine iff_of_true ?_ fun _ decoded' hdecode' ts id hsplit _ => ?_
      · simp only [Received, decodeCursor, if_neg hne, hdecode, if_neg hmem]
        rfl
      · cases hdecode.symm.trans hdecode'
        exact absurd (by rw [hsplit]; simp) hmem

end

/-! ### A server in UTC -/

/-- The instant of a date and a time. Those before 1970, when there were no rows, are all the
same. -/
def DateTime.instant (x : DateTime) (eastward : Bool) : Timestamp :=
  let zone := (x.zoneHour * 60 + x.zoneMinute) * 60
  let seconds := daysOfCivil x.date * 86400 + x.hour * 3600 + x.minute * 60 + x.second
  (if eastward then seconds - zone else seconds + zone) * 1000000 +
    Nat.ofDigitChars 10 (padEnd 6 (x.fraction.take 6)) 0

/-- `text` and `timestamptz` in a session whose time zone is UTC, fractions in full. -/
def utcText : TimestampText where
  text t :=
    let c := civilOfDays (t / 86400000000)
    padNat 4 c.year ++ "-" ++ padNat 2 c.month ++ "-" ++ padNat 2 c.day ++ " " ++
      padNat 2 (t / 3600000000 % 24) ++ ":" ++ padNat 2 (t / 60000000 % 60) ++ ":" ++
      padNat 2 (t / 1000000 % 60) ++ "." ++ padNat 6 (t % 1000000) ++ "+00"
  cast s :=
    if isPgTimestamp s = true ∧ (dateTimeOf s.toList).Exists then
      some ((dateTimeOf s.toList).instant ('-' ∉ s.toList.drop 19))
    else none

lemma documented_utcText : utcText.Documented := by
  intro s hs
  simp only [utcText]
  split
  · rename_i hexists
    exact iff_of_true ⟨_, rfl⟩ hexists.2
  · rename_i hnot
    exact iff_of_false (fun h => nomatch h) fun h => hnot ⟨hs, h⟩

/-- The cursor of an entry. -/
def entryCursor : Cursor := ⟨"2026-08-29 06:12:31.848125+00", "17"⟩

/-- The text of `2026-13-01 00:00:00+00|17`, with padding and more after it. -/
def paddedCursor : String := "MjAyNi0xMy0wMSAwMDowMDowMCswMHwxNw=AAAA"

example : Base64.decodeText? paddedCursor = some "2026-13-01 00:00:00+00|17" := by decide +kernel

end TakaFlow
