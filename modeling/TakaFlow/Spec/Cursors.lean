import Mathlib.Algebra.Group.Nat.Defs
import Mathlib.Data.Nat.Digits.Defs
import TakaFlow.Cursor

/-!
# What cursors bring back

A cursor made of a row decodes to the place of that row, and the pages of a list are the pages of
its rows.
-/

namespace TakaFlow

/-! ### Patterns -/

section patterns

variable {cs cs' ps ps' : List Char}

lemma isEqv_append (h : cs.isEqv ps admits = true) (h' : cs'.isEqv ps' admits = true) :
    (cs ++ cs').isEqv (ps ++ ps') admits = true := by
  induction cs generalizing ps with
  | nil =>
    cases ps with
    | nil => exact h'
    | cons p ps => cases h
  | cons c cs ih =>
    cases ps with
    | nil => cases h
    | cons p ps =>
      rw [List.isEqv_cons_cons, Bool.and_eq_true] at h
      rw [List.cons_append, List.cons_append, List.isEqv_cons_cons, Bool.and_eq_true]
      exact ⟨h.1, ih h.2⟩

/-- Every character is let pass by some character of the pattern. -/
lemma exists_admits (h : cs.isEqv ps admits = true) : ∀ c ∈ cs, ∃ p ∈ ps, admits c p = true := by
  induction cs generalizing ps with
  | nil => nofun
  | cons c cs ih =>
    cases ps with
    | nil => cases h
    | cons p ps =>
      rw [List.isEqv_cons_cons, Bool.and_eq_true] at h
      rintro c' hc
      obtain rfl | hc := List.mem_cons.mp hc
      · exact ⟨p, List.mem_cons_self, h.1⟩
      · obtain ⟨p', hp', hadmits⟩ := ih h.2 c' hc
        exact ⟨p', List.mem_cons_of_mem _ hp', hadmits⟩

lemma isEqv_hex (h : ∀ c ∈ cs, isHexDigit c = true) :
    cs.isEqv (List.replicate cs.length 'x') admits = true := by
  induction cs with
  | nil => rfl
  | cons c cs ih =>
    rw [List.length_cons, List.replicate_succ, List.isEqv_cons_cons, Bool.and_eq_true]
    exact ⟨h c List.mem_cons_self, ih fun c' hc' => h c' (List.mem_cons_of_mem _ hc')⟩

end patterns

/-! ### Uuids -/

lemma length_hexDigits (width n : ℕ) : (hexDigits width n).length = width := by
  induction width generalizing n with
  | zero => rfl
  | succ width ih => rw [hexDigits, List.length_append, ih, List.length_singleton]

lemma digitChar_spec : ∀ m < 16, isHexDigit (Nat.digitChar m) = true ∧
    hexValue (Nat.digitChar m) = m ∧ Nat.digitChar m ≠ '-' := by decide

lemma mem_hexDigits {width n : ℕ} : ∀ c ∈ hexDigits width n, isHexDigit c = true ∧ c ≠ '-' := by
  induction width generalizing n with
  | zero => nofun
  | succ width ih =>
    intro c hc
    rw [hexDigits, List.mem_append, List.mem_singleton] at hc
    obtain hc | rfl := hc
    · exact ih c hc
    · obtain ⟨hhex, -, hne⟩ := digitChar_spec (n % 16) (Nat.mod_lt _ (by decide))
      exact ⟨hhex, hne⟩

/-- The digits are those of the number. -/
lemma foldl_hexDigits {width n : ℕ} (h : n < 16 ^ width) :
    (hexDigits width n).foldl (fun n c => n * 16 + hexValue c) 0 = n := by
  induction width generalizing n with
  | zero =>
    rw [pow_zero, Nat.lt_one_iff] at h
    exact h.symm
  | succ width ih =>
    have hdiv : n / 16 < 16 ^ width := Nat.div_lt_of_lt_mul (by rwa [← pow_succ'])
    rw [hexDigits, List.foldl_append, ih hdiv, List.foldl_cons, List.foldl_nil,
      (digitChar_spec (n % 16) (Nat.mod_lt _ (by decide))).2.1]
    exact Nat.div_add_mod' n 16

/-- The five groups of a uuid. -/
lemma toList_uuidText (id : Uuid) : ∃ a b c d e : List Char,
    (uuidText id).toList = a ++ '-' :: (b ++ '-' :: (c ++ '-' :: (d ++ '-' :: e))) ∧
      a ++ (b ++ (c ++ (d ++ e))) = hexDigits 32 id ∧ a.length = 8 ∧ b.length = 4 ∧ c.length = 4 ∧
        d.length = 4 ∧ e.length = 12 := by
  have hlen := length_hexDigits 32 id
  refine ⟨(hexDigits 32 id).take 8, ((hexDigits 32 id).drop 8).take 4,
    ((hexDigits 32 id).drop 12).take 4, ((hexDigits 32 id).drop 16).take 4,
    (hexDigits 32 id).drop 20, ?_, ?_, ?_⟩
  · simp [uuidText]
  · have hsplit : ∀ m, (hexDigits 32 id).drop m =
        ((hexDigits 32 id).drop m).take 4 ++ (hexDigits 32 id).drop (m + 4) := by
      intro m
      rw [← List.drop_drop, List.take_append_drop]
    rw [← hsplit 16, ← hsplit 12, ← hsplit 8, List.take_append_drop]
  · simp only [List.length_take, List.length_drop, hlen]
    decide

lemma isUuid_uuidText (id : Uuid) : isUuid (uuidText id).toList = true := by
  obtain ⟨a, b, c, d, e, htext, hdigits, ha, hb, hc, hd, he⟩ := toList_uuidText id
  have hhex : ∀ l : List Char, (∀ x ∈ l, x ∈ hexDigits 32 id) →
      l.isEqv (List.replicate l.length 'x') admits = true :=
    fun l hl => isEqv_hex fun x hx => (mem_hexDigits x (hl x hx)).1
  rw [← hdigits] at hhex
  have hdash : ['-'].isEqv ['-'] admits = true := by decide
  have ha' := hhex a fun x hx => by simp [hx]
  have hb' := hhex b fun x hx => by simp [hx]
  have hc' := hhex c fun x hx => by simp [hx]
  have hd' := hhex d fun x hx => by simp [hx]
  have he' := hhex e fun x hx => by simp [hx]
  have hall := isEqv_append ha' (isEqv_append hdash (isEqv_append hb' (isEqv_append hdash
    (isEqv_append hc' (isEqv_append hdash (isEqv_append hd' (isEqv_append hdash he')))))))
  rw [ha, hb, hc, hd, he] at hall
  rw [htext]
  exact hall

lemma filter_uuidText (id : Uuid) :
    (uuidText id).toList.filter (· ≠ '-') = hexDigits 32 id := by
  obtain ⟨a, b, c, d, e, htext, hdigits, -⟩ := toList_uuidText id
  have hkeep : ∀ l : List Char, (∀ x ∈ l, x ∈ hexDigits 32 id) → l.filter (· ≠ '-') = l := by
    intro l hl
    rw [List.filter_eq_self]
    exact fun x hx => decide_eq_true (mem_hexDigits x (hl x hx)).2
  rw [← hdigits] at hkeep ⊢
  rw [htext]
  simp only [List.filter_append, List.filter_cons, ne_eq, not_true_eq_false, decide_false,
    Bool.false_eq_true, if_false]
  rw [hkeep a fun x hx => by simp [hx], hkeep b fun x hx => by simp [hx],
    hkeep c fun x hx => by simp [hx], hkeep d fun x hx => by simp [hx],
    hkeep e fun x hx => by simp [hx]]

/-! ### Columns -/

/-- The text of an identifier is valid in a cursor and casts back. -/
structure IdColumn.Exact (I : IdColumn) (id : ℕ) : Prop where
  cast : I.cast (I.text id) = .ok id
  valid : isId (I.text id).toList = true

lemma uuidColumn_exact {id : Uuid} (h : id < 2 ^ 128) : uuidColumn.Exact id where
  cast := by
    simp only [uuidColumn]
    rw [if_pos (isUuid_uuidText id), filter_uuidText,
      foldl_hexDigits (h.trans_eq (by decide))]
  valid := by
    simp only [uuidColumn]
    rw [isId, isUuid_uuidText, Bool.true_or]

lemma bigintColumn_exact {id : ℕ} (h : id < bigintLimit) : bigintColumn.Exact id := by
  have htext : (bigintColumn.text id).toList = Nat.toDigits 10 id := Nat.toList_repr
  have hlength : (Nat.toDigits 10 id).length ≤ 19 :=
    Nat.toDigits_length 10 id 19 (by decide) (h.trans (by decide))
  have hpos : 1 ≤ (Nat.toDigits 10 id).length := Nat.length_toDigits_pos
  have hall : (Nat.toDigits 10 id).all Char.isDigit = true :=
    List.all_eq_true.mpr fun c hc => Nat.isDigit_of_mem_toDigits (by decide) (by decide) hc
  constructor
  · simp only [bigintColumn] at htext ⊢
    rw [htext, digits?_toDigits]
    exact if_pos h
  · rw [htext, isId, hall, decide_eq_true hlength, decide_eq_true hpos]
    exact Bool.or_true _

/-- No identifier has a separator. -/
lemma not_mem_of_isId {cs : List Char} (h : isId cs = true) : '|' ∉ cs := by
  intro hmem
  rw [isId, Bool.or_eq_true, Bool.and_eq_true] at h
  obtain h | h := h
  · obtain ⟨p, hp, hadmits⟩ := exists_admits h '|' hmem
    have hnone : ("xxxxxxxx-xxxx-xxxx-xxxx-xxxxxxxxxxxx".toList.all
        fun p => !admits '|' p) = true := by decide
    have hnot := List.all_eq_true.mp hnone p hp
    rw [hadmits] at hnot
    cases hnot
  · have hdigit := List.all_eq_true.mp h.2 '|' hmem
    cases hdigit

/-! ### Cursors -/

/-- What Postgres shows of an instant is a timestamp to the cursor, and casts back. -/
structure TimestampText.Exact (T : TimestampText) (t : Timestamp) : Prop where
  cast : T.cast (T.text t) = some t
  valid : isPgTimestamp (T.text t) = true

section

variable {α : Type} {P : Platform} {T : TimestampText} {I : IdColumn} {p : ℕ ×ₗ ℕ}

/-- Both parts of a place are exact as texts. -/
structure Legible (T : TimestampText) (I : IdColumn) (p : ℕ ×ₗ ℕ) : Prop where
  createdAt : T.Exact (ofLex p).1
  id : I.Exact (ofLex p).2

lemma encodeCursor_ne_empty (cursor : Cursor) : encodeCursor cursor ≠ "" := by
  intro h
  have hback := Base64.decodeText?_encodeText (cursor.createdAt ++ "|" ++ cursor.id)
  rw [← encodeCursor, h] at hback
  have hempty : Base64.decodeText? "" = some "" := by decide
  rw [hempty, Option.some_inj] at hback
  have hlength := congrArg (fun s : String => s.toList.length) hback
  simp at hlength

/-- What stands before and after the last separator. -/
lemma rtakeWhile_separator (ts : List Char) {id : List Char} (hsep : '|' ∉ id) :
    (ts ++ '|' :: id).rtakeWhile (· ≠ '|') = id ∧
      ((ts ++ '|' :: id).rdropWhile (· ≠ '|')).dropLast = ts := by
  have hkeep : ∀ c ∈ id.reverse, decide (c ≠ '|') = true := by
    intro c hc
    exact decide_eq_true fun heq => hsep (heq ▸ List.mem_reverse.mp hc)
  constructor
  · rw [List.rtakeWhile, List.reverse_append, List.reverse_cons, List.append_assoc,
      List.takeWhile_append_of_pos hkeep]
    simp
  · rw [List.rdropWhile, List.reverse_append, List.reverse_cons, List.append_assoc,
      List.dropWhile_append_of_pos hkeep]
    simp

/-- What a cursor decodes to, by its two parts. -/
lemma decodeCursor_of_split {raw decoded : String} {ts id : List Char} (hne : raw ≠ "")
    (hdecode : Base64.decodeText? raw = some decoded) (hsplit : decoded.toList = ts ++ '|' :: id)
    (hsep : '|' ∉ id) : decodeCursor (some raw) =
      if isId id && isPgTimestamp (.ofList ts) then .ok (some ⟨.ofList ts, .ofList id⟩)
      else .error invalidCursor := by
  obtain ⟨hid, hcreated⟩ := rtakeWhile_separator ts hsep
  simp only [decodeCursor, if_neg hne, hdecode, hsplit, hid, hcreated]
  rw [if_pos (by simp)]

/-- A cursor decodes to itself. -/
theorem decodeCursor_encodeCursor {cursor : Cursor} (hid : isId cursor.id.toList = true)
    (hcreated : isPgTimestamp cursor.createdAt = true) :
    decodeCursor (some (encodeCursor cursor)) = .ok (some cursor) := by
  have hlist : (cursor.createdAt ++ "|" ++ cursor.id).toList =
      cursor.createdAt.toList ++ '|' :: cursor.id.toList := by
    simp [String.toList_append]
  rw [decodeCursor_of_split (encodeCursor_ne_empty cursor) (Base64.decodeText?_encodeText _) hlist
    (not_mem_of_isId hid), String.ofList_toList, String.ofList_toList, hid, hcreated]
  rfl

lemma Legible.decodeCursor (h : Legible T I p) :
    decodeCursor (some (encodeCursor (cursorAt T I p))) = .ok (some (cursorAt T I p)) :=
  decodeCursor_encodeCursor h.id.valid h.createdAt.valid

lemma Legible.place (h : Legible T I p) : (cursorAt T I p).place T I = .ok p := by
  simp only [Cursor.place, cursorAt, h.createdAt.cast, h.id.cast]
  rfl

/-! ### Pages -/

variable {place : α → ℕ ×ₗ ℕ} {rows : List α} {limit : ℕ} {after : Option (ℕ ×ₗ ℕ)}

/-- `nextCursor` as a place. -/
def codeOf (T : TimestampText) (I : IdColumn) (p : ℕ ×ₗ ℕ) : String := encodeCursor (cursorAt T I p)

lemma decodeCursor_map (h : ∀ p ∈ after, Legible T I p) :
    decodeCursor (after.map (codeOf T I)) = .ok (after.map (cursorAt T I)) := by
  cases after with
  | none => rfl
  | some p => exact (h p rfl).decodeCursor

lemma mem_of_mem_page {a : α} (h : a ∈ Keyset.page place limit after rows) : a ∈ rows :=
  (Keyset.mem_below.mp (List.mem_of_mem_take h)).1

lemma selectPage_eq (hrows : ∀ a ∈ rows, Legible T I (place a))
    (hafter : ∀ p ∈ after, Legible T I p) :
    selectPage P T I place limit (after.map (cursorAt T I)) rows =
      .ok (Keyset.page place limit after rows) := by
  have htexts : ∀ l : List α, (∀ a ∈ l, a ∈ rows) →
      ∃ texts, l.mapM (fun row => asPgTimestamp P (T.text (ofLex (place row)).1)) = .ok texts := by
    intro l hl
    induction l with
    | nil => exact ⟨[], rfl⟩
    | cons a l ih =>
      obtain ⟨texts, htexts⟩ := ih fun b hb => hl b (List.mem_cons_of_mem _ hb)
      have hvalid := (hrows a (hl a List.mem_cons_self)).createdAt.valid
      rw [List.mapM_cons, asPgTimestamp, if_pos hvalid, htexts]
      exact ⟨_, rfl⟩
  have hplace : Cursor.place? T I (after.map (cursorAt T I)) = .ok after := by
    cases after with
    | none => rfl
    | some p =>
      rw [Option.map_some, Cursor.place?, (hafter p rfl).place]
      rfl
  obtain ⟨texts, htexts⟩ := htexts (Keyset.page place limit after rows) fun a => mem_of_mem_page
  simp only [selectPage, hplace, htexts, bind, Except.bind, pure, Except.pure]

lemma toPage_eq (hlimit : 0 < limit) : toPage T I place rows limit =
    .ok (rows.take limit, (Keyset.next place limit rows).map (codeOf T I)) := by
  unfold toPage Keyset.next
  split_ifs with hlength
  · rw [List.take_of_length_le hlength]
    rfl
  · cases hlast : (rows.take limit).getLast? with
    | none =>
      rw [List.getLast?_eq_none_iff, List.take_eq_nil_iff] at hlast
      obtain rfl | rfl := hlast
      · exact absurd hlimit (lt_irrefl 0)
      · exact absurd (Nat.zero_le limit) hlength
    | some last => rfl

/-- The page at a cursor that was made of a place. -/
lemma listPage_eq {dto : α → Json} (hlimit : 0 < limit)
    (hrows : ∀ a ∈ rows, Legible T I (place a)) (hafter : ∀ p ∈ after, Legible T I p) :
    listPage P T I place dto limit (after.map (codeOf T I)) rows =
      .ok { items := (Keyset.page place limit after rows).map dto
            nextCursor := (Keyset.next place limit
              (Keyset.page place (limit + 1) after rows)).map (codeOf T I) } := by
  simp only [listPage, decodeCursor_map hafter, selectPage_eq hrows hafter, toPage_eq hlimit,
    Keyset.take_page, Except.mapError, bind, Except.bind, pure, Except.pure]

end

end TakaFlow
