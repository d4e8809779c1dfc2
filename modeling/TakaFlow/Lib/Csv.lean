import Mathlib.Data.List.Forall2

/-!
# Comma-separated values

A reader of RFC 4180: records end with a line break, fields are separated by commas, and a field
that is enclosed in quotes may hold commas, line breaks and doubled quotes.
-/

namespace Csv

abbrev Field := List Char

abbrev Record := List Field

/-! ### The reader -/

/-- Where the reader stands: before a record or a field, in a field, within quotes, after a quote
that closes or is the first of two, and within a line break. -/
inductive Place where
  | line
  | start
  | plain
  | quoted
  | closing
  | break
  deriving DecidableEq

/-- One more character in front of the first field. -/
def push (c : Char) : List Record → List Record
  | (f :: fs) :: rs => ((c :: f) :: fs) :: rs
  | rs => rs

/-- One more field in front of the first record. -/
def separate : List Record → List Record
  | fs :: rs => ([] :: fs) :: rs
  | rs => rs

/-- What is left to read, with what is left of the present field in front. -/
def read : Place → List Char → Option (List Record)
  | .line, [] => some []
  | .start, [] | .plain, [] | .closing, [] => some [[[]]]
  | .quoted, [] | .break, [] => none
  | .break, c :: cs => if c = '\n' then (read .line cs).map ([[]] :: ·) else none
  | .quoted, c :: cs => if c = '"' then read .closing cs else (read .quoted cs).map (push c)
  | place, c :: cs =>
    if c = ',' then (read .start cs).map separate
    else if c = '\r' then read .break cs
    else if c = '"' then
      match place with
      | .plain => none
      | .closing => (read .quoted cs).map (push c)
      | _ => read .quoted cs
    else if c = '\n' ∨ place = .closing then none
    else (read .plain cs).map (push c)

/-- The records of a text. -/
def records (text : String) : Option (List (List String)) :=
  (read .line text.toList).map fun rs => rs.map fun fs => fs.map String.ofList

/-! ### The grammar -/

def isSpecial (c : Char) : Bool := c = '"' || c = ',' || c = '\r' || c = '\n'

/-- Quotes within quotes are doubled. -/
def escape (f : Field) : List Char := f.flatMap fun c => if c = '"' then ['"', '"'] else [c]

/-- The texts of a field. -/
inductive FieldText (f : Field) : List Char → Prop where
  | plain (h : ∀ c ∈ f, isSpecial c = false) : FieldText f f
  | quoted : FieldText f ('"' :: (escape f ++ ['"']))

/-- The texts of a record. -/
inductive RecordText : Record → List Char → Prop where
  | last {f : Field} {text : List Char} (h : FieldText f text) :
      RecordText [f] (text ++ ['\r', '\n'])
  | cons {f : Field} {text rest : List Char} {fs : Record} (h : FieldText f text)
      (hrest : RecordText fs rest) : RecordText (f :: fs) (text ++ ',' :: rest)

/-! ### Everything written is read back -/

/-- More characters in front of the first field. -/
def pushAll (f : Field) (rs : List Record) : List Record := f.foldr push rs

@[simp] lemma pushAll_nil (rs : List Record) : pushAll [] rs = rs := rfl

@[simp] lemma pushAll_cons (c : Char) (f : Field) (rs : List Record) :
    pushAll (c :: f) rs = push c (pushAll f rs) := rfl

lemma pushAll_eq (f g : Field) (fs : Record) (rs : List Record) :
    pushAll f ((g :: fs) :: rs) = ((f ++ g) :: fs) :: rs := by
  induction f with
  | nil => rfl
  | cons c f ih =>
    rw [pushAll_cons, ih]
    rfl

@[simp] lemma map_pushAll_nil (rs : Option (List Record)) : rs.map (pushAll []) = rs := by
  cases rs <;> rfl

lemma map_pushAll_cons (c : Char) (f : Field) (rs : Option (List Record)) :
    rs.map (pushAll (c :: f)) = (rs.map (pushAll f)).map (push c) := by
  cases rs <;> rfl

lemma read_plain {f : Field} (h : ∀ c ∈ f, isSpecial c = false) (rest : List Char) :
    read .plain (f ++ rest) = (read .plain rest).map (pushAll f) := by
  induction f with
  | nil => rw [map_pushAll_nil, List.nil_append]
  | cons c f ih =>
    have hc := h c List.mem_cons_self
    simp only [isSpecial, Bool.or_eq_false_iff, decide_eq_false_iff_not] at hc
    have hrest := ih fun d hd => h d (List.mem_cons_of_mem _ hd)
    rw [map_pushAll_cons, ← hrest]
    simp [read, hc]

/-- Quotes are read up to the one that closes. -/
lemma read_quoted (f : Field) (rest : List Char) :
    read .quoted (escape f ++ '"' :: rest) = (read .closing rest).map (pushAll f) := by
  induction f with
  | nil => simp [escape, read]
  | cons c f ih =>
    rw [map_pushAll_cons, ← ih]
    by_cases hc : c = '"'
    · subst hc
      simp [escape, read]
    · simp [escape, read, hc]

/-- A field ends where a comma or a line break begins, however it was written. -/
lemma read_fieldText {f : Field} {text : List Char} (h : FieldText f text) {place : Place}
    (hplace : place = .line ∨ place = .start) {d : Char} (hd : d = ',' ∨ d = '\r')
    (rest : List Char) :
    read place (text ++ d :: rest) = (read .plain (d :: rest)).map (pushAll f) := by
  cases h with
  | plain h =>
    rw [← read_plain h]
    cases f with
    | nil => rcases hplace with rfl | rfl <;> rcases hd with rfl | rfl <;> simp [read]
    | cons c f =>
      have hc := h c List.mem_cons_self
      simp only [isSpecial, Bool.or_eq_false_iff, decide_eq_false_iff_not] at hc
      rcases hplace with rfl | rfl <;> simp [read, hc]
  | quoted =>
    have hclosing : read .closing (d :: rest) = read .plain (d :: rest) := by
      rcases hd with rfl | rfl <;> simp [read]
    have hopen : read place ('"' :: (escape f ++ '"' :: d :: rest)) =
        read .quoted (escape f ++ '"' :: d :: rest) := by
      rcases hplace with rfl | rfl <;> simp [read]
    rw [← hclosing, ← read_quoted, ← hopen]
    simp

lemma read_recordText {fs : Record} {text : List Char} (h : RecordText fs text) {place : Place}
    (hplace : place = .line ∨ place = .start) (rest : List Char) :
    read place (text ++ rest) = (read .line rest).map (fs :: ·) := by
  induction h generalizing place with
  | @last f text h =>
    have hbreak : read .plain ('\r' :: '\n' :: rest) = (read .line rest).map ([[]] :: ·) := by
      simp [read]
    rw [List.append_assoc, List.cons_append, read_fieldText h hplace (.inr rfl)]
    rw [List.cons_append, List.nil_append, hbreak, Option.map_map]
    refine congrArg (fun g => Option.map g (read .line rest)) (funext fun rs => ?_)
    rw [Function.comp_apply, pushAll_eq, List.append_nil]
  | @cons f text texts fs h hrest ih =>
    have hcomma : read .plain (',' :: (texts ++ rest)) =
        (read .start (texts ++ rest)).map separate := by
      simp [read]
    rw [List.append_assoc, List.cons_append, read_fieldText h hplace (.inl rfl), hcomma,
      ih (.inr rfl), Option.map_map, Option.map_map]
    refine congrArg (fun g => Option.map g (read .line rest)) (funext fun rs => ?_)
    rw [Function.comp_apply, Function.comp_apply, separate, pushAll_eq, List.append_nil]

/-- Every file that is written is read back. -/
theorem read_file {rs : List Record} {texts : List (List Char)}
    (h : List.Forall₂ RecordText rs texts) : read .line texts.flatten = some rs := by
  induction h with
  | nil => rfl
  | cons h _ ih =>
    rw [List.flatten_cons, read_recordText h (.inl rfl), ih]
    rfl

/-! ### Joined texts -/

lemma recordText_intercalate {fs : Record} {texts : List (List Char)} (hne : fs ≠ [])
    (h : List.Forall₂ FieldText fs texts) :
    RecordText fs ([','].intercalate texts ++ ['\r', '\n']) := by
  induction h with
  | nil => exact absurd rfl hne
  | @cons f text fs texts hf h ih =>
    cases h with
    | nil =>
      rw [List.intercalate_singleton]
      exact .last hf
    | cons hg h =>
      have hrest := ih (List.cons_ne_nil _ _)
      rw [List.intercalate_cons_cons, List.append_assoc, List.append_assoc]
      exact .cons hf hrest

end Csv
