import Mathlib.Data.List.Basic
import Mathlib.Data.List.Forall2
import Mathlib.Data.List.Lex
import Mathlib.Data.List.Perm.Basic
import TakaFlow.Idempotency
import TakaFlow.Lib.Quoting
import TakaFlow.System

/-!
# What a request hash is made of

Two requests have the same text iff they go to the same endpoint and their bodies are the same up
to the order of members.
-/

namespace TakaFlow

open scoped List

/-! ### Values up to the order of members -/

namespace Json

/-- The same value, with the members of every object in some order. -/
inductive Same : Json → Json → Prop where
  | null : Same .null .null
  | bool (b : Bool) : Same (.bool b) (.bool b)
  | num (q : ℚ) : Same (.num q) (.num q)
  | str (s : String) : Same (.str s) (.str s)
  | arr {l l' : List Json} (h : List.Forall₂ Same l l') : Same (.arr l) (.arr l')
  | obj {m m' m'' : Fields} (order : m ~ m'') (names : m''.map Prod.fst = m'.map Prod.fst)
      (values : List.Forall₂ Same (m''.map Prod.snd) (m'.map Prod.snd)) : Same (.obj m) (.obj m')

/-- The numbers of JavaScript that are finite. -/
def IsDouble (q : ℚ) : Prop :=
  ∃ m e : ℤ, |m| < 2 ^ 53 ∧ -1074 ≤ e ∧ e ≤ 971 ∧ q = m * (2 : ℚ) ^ e

/-- A value that JavaScript has: its numbers are doubles, and the members of an object have
different names. -/
inductive WellFormed : Json → Prop where
  | null : WellFormed .null
  | bool (b : Bool) : WellFormed (.bool b)
  | num {q : ℚ} (h : IsDouble q) : WellFormed (.num q)
  | str (s : String) : WellFormed (.str s)
  | arr {l : List Json} (h : ∀ v ∈ l, WellFormed v) : WellFormed (.arr l)
  | obj {m : Fields} (names : (m.map Prod.fst).Nodup) (h : ∀ e ∈ m, WellFormed e.2) :
      WellFormed (.obj m)

/-- Induction on values. -/
theorem induction {motive : Json → Prop} (null : motive .null) (bool : ∀ b, motive (.bool b))
    (num : ∀ q, motive (.num q)) (str : ∀ s, motive (.str s))
    (arr : ∀ l, (∀ v ∈ l, motive v) → motive (.arr l))
    (obj : ∀ m : Fields, (∀ e ∈ m, motive e.2) → motive (.obj m)) : ∀ v, motive v
  | .null => null
  | .bool b => bool b
  | .num q => num q
  | .str s => str s
  | .arr l => arr l fun v _ => induction null bool num str arr obj v
  | .obj m => obj m fun e _ => induction null bool num str arr obj e.2
termination_by v => sizeOf v
decreasing_by
  · rename_i hv
    have := List.sizeOf_lt_of_mem hv
    simp
    omega
  · rename_i he
    have := List.sizeOf_lt_of_mem he
    cases e
    simp at this ⊢
    omega

end Json

/-! ### Names in order -/

/-- The code units of a character. -/
def unitsOf (c : Char) : List ℕ :=
  if c.toNat < 0x10000 then [c.toNat]
  else [0xD800 + (c.toNat - 0x10000) / 0x400, 0xDC00 + (c.toNat - 0x10000) % 0x400]

lemma unitsOf_inj {c d : Char} {l l' : List ℕ} (h : unitsOf c ++ l = unitsOf d ++ l') :
    c = d ∧ l = l' := by
  have hc := c.valid
  have hd := d.valid
  unfold UInt32.isValidChar Nat.isValidChar at hc hd
  change c.toNat < 0xD800 ∨ 0xDFFF < c.toNat ∧ c.toNat < 0x110000 at hc
  change d.toNat < 0xD800 ∨ 0xDFFF < d.toNat ∧ d.toNat < 0x110000 at hd
  unfold unitsOf at h
  split at h <;> split at h <;>
    simp only [List.cons_append, List.nil_append, List.cons.injEq] at h
  · exact ⟨Char.toNat_inj.mp h.1, h.2⟩
  · omega
  · omega
  · obtain ⟨hhigh, hlow, hrest⟩ := h
    exact ⟨Char.toNat_inj.mp (by omega), hrest⟩

lemma codeUnits_inj {s t : String} (h : codeUnits s = codeUnits t) : s = t := by
  have hlists : ∀ l l' : List Char, l.flatMap unitsOf = l'.flatMap unitsOf → l = l' := by
    intro l
    induction l with
    | nil =>
      intro l' h
      cases l' with
      | nil => rfl
      | cons d l' =>
        rw [List.flatMap_cons, unitsOf] at h
        split at h <;> cases h
    | cons c l ih =>
      intro l' h
      cases l' with
      | nil =>
        rw [List.flatMap_cons, unitsOf] at h
        split at h <;> cases h
      | cons d l' =>
        obtain ⟨rfl, hrest⟩ := unitsOf_inj h
        rw [ih l' hrest]
  exact String.toList_inj.mp (hlists _ _ h)

section sorting

variable {α β : Type}

/-- Members in the order of their names. -/
def sortMembers (m : List (String × α)) : List (String × α) := m.foldr insertMember []

lemma perm_insertMember (e : String × α) (l : List (String × α)) : insertMember e l ~ e :: l := by
  induction l with
  | nil => exact List.Perm.refl _
  | cons n l ih =>
    rw [insertMember]
    split
    · exact List.Perm.refl _
    · exact (ih.cons n).trans (List.Perm.swap e n l)

lemma perm_sortMembers (m : List (String × α)) : sortMembers m ~ m := by
  induction m with
  | nil => exact List.Perm.refl _
  | cons e m ih => exact (perm_insertMember e _).trans (ih.cons e)

/-- No name is before the one that it follows. -/
def NamesInOrder (l : List (String × α)) : Prop :=
  l.Pairwise fun a b => codeUnits a.1 ≤ codeUnits b.1

lemma NamesInOrder.insertMember {l : List (String × α)} (h : NamesInOrder l) (e : String × α) :
    NamesInOrder (insertMember e l) := by
  induction l with
  | nil => exact List.pairwise_singleton _ _
  | cons n l ih =>
    obtain ⟨hn, hl⟩ := List.pairwise_cons.mp h
    rw [TakaFlow.insertMember]
    split
    · rename_i hlt
      refine List.pairwise_cons.mpr ⟨fun b hb => ?_, h⟩
      have hle := le_of_lt hlt
      obtain rfl | hb := List.mem_cons.mp hb
      · exact hle
      · exact hle.trans (hn b hb)
    · rename_i hnot
      refine List.pairwise_cons.mpr ⟨fun b hb => ?_, ih hl⟩
      obtain rfl | hb := List.mem_cons.mp ((perm_insertMember e l).mem_iff.mp hb)
      · exact not_lt.mp hnot
      · exact hn b hb

lemma namesInOrder_sortMembers (m : List (String × α)) : NamesInOrder (sortMembers m) := by
  induction m with
  | nil => exact List.Pairwise.nil
  | cons e m ih => exact ih.insertMember e

/-- Sorting removes the order and nothing else. -/
lemma sortMembers_eq_of_perm {m m' : List (String × α)} (hnames : (m.map Prod.fst).Nodup)
    (h : m ~ m') : sortMembers m = sortMembers m' := by
  refine List.Perm.eq_of_pairwise (fun a b ha hb hab hba => ?_) (namesInOrder_sortMembers m)
    (namesInOrder_sortMembers m') ((perm_sortMembers m).trans (h.trans (perm_sortMembers m').symm))
  have ha := (perm_sortMembers m).mem_iff.mp ha
  have hb := h.mem_iff.mpr ((perm_sortMembers m').mem_iff.mp hb)
  exact List.inj_on_of_nodup_map hnames ha hb (codeUnits_inj (le_antisymm hab hba))

lemma map_insertMember (f : α → β) (e : String × α) (l : List (String × α)) :
    (insertMember e l).map (Prod.map id f) =
      insertMember (Prod.map id f e) (l.map (Prod.map id f)) := by
  induction l with
  | nil => rfl
  | cons n l ih =>
    rw [insertMember, List.map_cons, insertMember]
    split
    · rename_i hlt
      exact (if_pos hlt).symm
    · rename_i hnot
      rw [List.map_cons, ih]
      exact (if_neg hnot).symm

lemma map_sortMembers (f : α → β) (m : List (String × α)) :
    (sortMembers m).map (Prod.map id f) = sortMembers (m.map (Prod.map id f)) := by
  induction m with
  | nil => rfl
  | cons e m ih =>
    rw [sortMembers, List.foldr_cons, map_insertMember, ← sortMembers, ih]
    rfl

end sorting

/-! ### Joined texts -/

section joined

variable {α : Type} {text : α → List Char} {R : α → α → Prop} {close : Char}

/-- What may come after a value. -/
def Delimited (r : List Char) : Prop := ∀ c ∈ r.head?, c = ',' ∨ c = ']' ∨ c = '\x7d'

lemma intercalate_cons (a : List Char) (l : List (List Char)) :
    [','].intercalate (a :: l) = a ++ l.flatMap (',' :: ·) := by
  induction l generalizing a with
  | nil => simp
  | cons b l ih => rw [List.intercalate_cons_cons, ih, List.flatMap_cons]; simp

/-- Lists of texts that can be told apart can be told apart after their first one. -/
lemma tails_inj (hclose : close = ']' ∨ close = '\x7d') {l l' : List α}
    (htext : ∀ a ∈ l, ∀ b ∈ l', ∀ r r', Delimited r → Delimited r' →
      text a ++ r = text b ++ r' → R a b ∧ r = r') {r r' : List Char}
    (h : (l.map text).flatMap (',' :: ·) ++ close :: r =
      (l'.map text).flatMap (',' :: ·) ++ close :: r') : List.Forall₂ R l l' ∧ r = r' := by
  have hcomma : close ≠ ',' := by
    rcases hclose with rfl | rfl <;> decide
  have hdelimited : ∀ (l : List α) (r : List Char),
      Delimited ((l.map text).flatMap (',' :: ·) ++ close :: r) := by
    intro l r c hc
    cases l with
    | nil =>
      cases hc
      exact .inr hclose
    | cons a l =>
      cases hc
      exact .inl rfl
  induction l generalizing l' with
  | nil =>
    cases l' with
    | nil => exact ⟨.nil, List.tail_eq_of_cons_eq h⟩
    | cons b l' => exact absurd (List.head_eq_of_cons_eq h) hcomma
  | cons a l ih =>
    cases l' with
    | nil => exact absurd (List.head_eq_of_cons_eq h).symm hcomma
    | cons b l' =>
      simp only [List.map_cons, List.flatMap_cons, List.cons_append, List.append_assoc,
        List.cons.injEq, true_and] at h
      obtain ⟨hab, hrest⟩ := htext a List.mem_cons_self b List.mem_cons_self _ _
        (hdelimited l r) (hdelimited l' r') h
      obtain ⟨hforall, hr⟩ := ih (fun a ha b hb => htext a (List.mem_cons_of_mem _ ha) b
        (List.mem_cons_of_mem _ hb)) hrest
      exact ⟨.cons hab hforall, hr⟩

/-- A text that begins with another character than this one. -/
def BeginsApart (close : Char) (t : List Char) : Prop := ∃ c t', t = c :: t' ∧ c ≠ close

/-- Two lists of texts that can be told apart can be told apart when joined. -/
lemma joined_inj (hclose : close = ']' ∨ close = '\x7d') {l l' : List α}
    (htext : ∀ a ∈ l, ∀ b ∈ l', ∀ r r', Delimited r → Delimited r' →
      text a ++ r = text b ++ r' → R a b ∧ r = r')
    (hl : ∀ a ∈ l, BeginsApart close (text a)) (hl' : ∀ b ∈ l', BeginsApart close (text b))
    {r r' : List Char} (h : [','].intercalate (l.map text) ++ close :: r =
      [','].intercalate (l'.map text) ++ close :: r') : List.Forall₂ R l l' ∧ r = r' := by
  cases l with
  | nil =>
    cases l' with
    | nil => exact ⟨.nil, List.tail_eq_of_cons_eq h⟩
    | cons b l' =>
      obtain ⟨c, t, hb, hne⟩ := hl' b List.mem_cons_self
      rw [List.map_cons, intercalate_cons, hb] at h
      exact absurd (List.head_eq_of_cons_eq h).symm hne
  | cons a l =>
    cases l' with
    | nil =>
      obtain ⟨c, t, ha, hne⟩ := hl a List.mem_cons_self
      rw [List.map_cons, intercalate_cons, ha] at h
      exact absurd (List.head_eq_of_cons_eq h) hne
    | cons b l' =>
      rw [List.map_cons, List.map_cons, intercalate_cons, intercalate_cons] at h
      exact tails_inj hclose htext (congrArg (',' :: ·) h)

end joined

/-! ### The texts of values -/

/-- The characters of numbers. -/
def isNumberChar (c : Char) : Bool := c.isDigit || c = '+' || c = '-' || c = '.' || c = 'e'

/-- What `JSON.stringify` makes of strings and of numbers: quoted strings, and different texts for
different numbers. -/
structure Platform.Stringifies (P : Platform) : Prop where
  string : ∀ s, (P.stringifyString s).toList = Quoting.quote s.toList
  numberChars : ∀ q, Json.IsDouble q → (P.stringifyNumber q).toList ≠ [] ∧
    ∀ c ∈ (P.stringifyNumber q).toList, isNumberChar c = true
  number : ∀ q q', Json.IsDouble q → Json.IsDouble q' →
    P.stringifyNumber q = P.stringifyNumber q' → q = q'

section

variable (P : Platform)

def Json.text (v : Json) : List Char := (canonicalize P v).toList

def memberText (e : String × Json) : List Char :=
  (P.stringifyString e.1).toList ++ ':' :: e.2.text P

variable {P}

lemma canonicalizeItems_eq (l : List Json) : canonicalizeItems P l = l.map (canonicalize P) := by
  induction l with
  | nil => rfl
  | cons v l ih => rw [canonicalizeItems, ih, List.map_cons]

lemma canonicalizeMembers_eq (m : Fields) :
    canonicalizeMembers P m = m.map (Prod.map id (canonicalize P)) := by
  induction m with
  | nil => rfl
  | cons e m ih => rw [canonicalizeMembers, ih, List.map_cons]; rfl

lemma text_null : Json.null.text P = ['n', 'u', 'l', 'l'] := by
  rw [Json.text, canonicalize, String.toList_ofList]

lemma text_true : (Json.bool true).text P = ['t', 'r', 'u', 'e'] := by
  rw [Json.text, canonicalize, String.toList_ofList]

lemma text_false : (Json.bool false).text P = ['f', 'a', 'l', 's', 'e'] := by
  rw [Json.text, canonicalize, String.toList_ofList]

lemma text_arr (l : List Json) : (Json.arr l).text P =
    '[' :: ([','].intercalate (l.map (Json.text P)) ++ [']']) := by
  have htexts : (l.map (canonicalize P)).map String.toList = l.map (Json.text P) :=
    List.map_map
  rw [Json.text, canonicalize, canonicalizeItems_eq, String.toList_append, String.toList_append,
    String.toList_intercalate, htexts]
  rfl

lemma text_obj (m : Fields) : (Json.obj m).text P =
    '\x7b' :: ([','].intercalate ((sortMembers m).map (memberText P)) ++ ['\x7d']) := by
  have htexts : ((sortMembers (m.map (Prod.map id (canonicalize P)))).map fun e =>
      P.stringifyString e.1 ++ ":" ++ e.2).map String.toList =
        (sortMembers m).map (memberText P) := by
    rw [← map_sortMembers, List.map_map, List.map_map]
    refine List.map_congr_left fun e _ => ?_
    simp [memberText, Json.text]
  rw [sortMembers] at htexts
  rw [Json.text, canonicalize, canonicalizeMembers_eq, String.toList_append, String.toList_append,
    String.toList_intercalate, htexts]
  rfl

end

section

variable {P : Platform} (hP : P.Stringifies)

/-! ### What a text begins with -/

/-- The first character of the text of a value; a zero stands for the characters of numbers. -/
def Json.mark : Json → Char
  | .null => 'n'
  | .bool true => 't'
  | .bool false => 'f'
  | .num _ => '0'
  | .str _ => '"'
  | .arr _ => '['
  | .obj _ => '\x7b'

def markOf (c : Char) : Char := if isNumberChar c then '0' else c

include hP in
lemma exists_mark {v : Json} (hv : v.WellFormed) :
    ∃ c t, v.text P = c :: t ∧ markOf c = v.mark := by
  cases hv with
  | null => exact ⟨'n', ['u', 'l', 'l'], text_null, rfl⟩
  | bool b =>
    cases b with
    | false => exact ⟨'f', ['a', 'l', 's', 'e'], text_false, rfl⟩
    | true => exact ⟨'t', ['r', 'u', 'e'], text_true, rfl⟩
  | @num q h =>
    obtain ⟨hne, hchars⟩ := hP.numberChars q h
    obtain ⟨c, t, hct⟩ := List.exists_cons_of_ne_nil hne
    refine ⟨c, t, hct, if_pos (hchars c ?_)⟩
    rw [hct]
    exact List.mem_cons_self
  | str s => exact ⟨_, _, hP.string s, rfl⟩
  | arr h => exact ⟨_, _, text_arr _, rfl⟩
  | obj names h => exact ⟨_, _, text_obj _, rfl⟩

include hP in
lemma beginsApart_text {v : Json} (hv : v.WellFormed) {close : Char}
    (hclose : close = ']' ∨ close = '\x7d') : BeginsApart close (v.text P) := by
  obtain ⟨c, t, hct, hmark⟩ := exists_mark hP hv
  refine ⟨c, t, hct, ?_⟩
  rintro rfl
  have hne : v.mark ≠ ']' ∧ v.mark ≠ '\x7d' := by
    unfold Json.mark
    split <;> decide
  rcases hclose with rfl | rfl
  · exact hne.1 hmark.symm
  · exact hne.2 hmark.symm

include hP in
lemma beginsApart_memberText (e : String × Json) {close : Char}
    (hclose : close = ']' ∨ close = '\x7d') : BeginsApart close (memberText P e) := by
  refine ⟨'"', (Quoting.escape e.1.toList ++ ['"']) ++ ':' :: e.2.text P, ?_, ?_⟩
  · rw [memberText, hP.string]
    rfl
  · rcases hclose with rfl | rfl <;> decide

/-! ### From values to texts -/

lemma map_eq_of_forall₂ {l l' : List Json} (h : List.Forall₂ Json.Same l l')
    (hl : ∀ v ∈ l, ∀ w, v.Same w → canonicalize P v = canonicalize P w) :
    l.map (canonicalize P) = l'.map (canonicalize P) := by
  induction h with
  | nil => rfl
  | @cons v w l l' hvw h ih =>
    rw [List.map_cons, List.map_cons, hl v List.mem_cons_self w hvw,
      ih fun v hv => hl v (List.mem_cons_of_mem _ hv)]

lemma members_eq {m m' : Fields} (hnames : m.map Prod.fst = m'.map Prod.fst)
    (hvalues : (m.map Prod.snd).map (canonicalize P) = (m'.map Prod.snd).map (canonicalize P)) :
    m.map (Prod.map id (canonicalize P)) = m'.map (Prod.map id (canonicalize P)) := by
  induction m generalizing m' with
  | nil =>
    cases m' with
    | nil => rfl
    | cons e' m' => cases hnames
  | cons e m ih =>
    cases m' with
    | nil => cases hnames
    | cons e' m' =>
      obtain ⟨hname, hnames⟩ := List.cons.inj hnames
      obtain ⟨hvalue, hvalues⟩ := List.cons.inj hvalues
      exact congrArg₂ List.cons (Prod.ext hname hvalue) (ih hnames hvalues)

/-- The order of members does not show. -/
lemma canonicalize_of_same (a : Json) (ha : a.WellFormed) :
    ∀ b, a.Same b → canonicalize P a = canonicalize P b := by
  induction a using Json.induction with
  | null => rintro b ⟨⟩; rfl
  | bool => rintro b ⟨⟩; rfl
  | num => rintro b ⟨⟩; rfl
  | str => rintro b ⟨⟩; rfl
  | arr l ih =>
    intro b h
    cases h with
    | @arr _ l' h =>
      cases ha with
      | arr hl =>
        rw [canonicalize, canonicalize, canonicalizeItems_eq, canonicalizeItems_eq,
          map_eq_of_forall₂ h fun v hv => ih v hv (hl v hv)]
  | obj m ih =>
    intro b h
    cases h with
    | @obj _ m' m'' order names values =>
      cases ha with
      | obj hnames hm =>
        have hvalues := map_eq_of_forall₂ (P := P) values fun v hv => by
          obtain ⟨e, he, rfl⟩ := List.mem_map.mp hv
          have he := order.mem_iff.mpr he
          exact ih e he (hm e he)
        have hsorted : sortMembers (canonicalizeMembers P m) =
            sortMembers (canonicalizeMembers P m') := by
          rw [canonicalizeMembers_eq, canonicalizeMembers_eq, ← members_eq names hvalues]
          refine sortMembers_eq_of_perm ?_ (order.map _)
          rw [List.map_map]
          exact hnames
        simp only [sortMembers] at hsorted
        rw [canonicalize, canonicalize, hsorted]

/-! ### From texts to values -/

include hP in
lemma mark_eq {a b : Json} (ha : a.WellFormed) (hb : b.WellFormed) {r r' : List Char}
    (h : a.text P ++ r = b.text P ++ r') : a.mark = b.mark := by
  obtain ⟨c, t, hct, hc⟩ := exists_mark hP ha
  obtain ⟨d, u, hdu, hd⟩ := exists_mark hP hb
  rw [hct, hdu] at h
  rw [← hc, ← hd, List.head_eq_of_cons_eq h]

include hP in
/-- A number ends where something else begins. -/
lemma number_inj {q q' : ℚ} (hq : Json.IsDouble q) (hq' : Json.IsDouble q') {r r' : List Char}
    (hr : Delimited r) (hr' : Delimited r')
    (h : (Json.num q).text P ++ r = (Json.num q').text P ++ r') : q = q' ∧ r = r' := by
  have htake : ∀ (q : ℚ) (r : List Char), Json.IsDouble q → Delimited r →
      ((Json.num q).text P ++ r).takeWhile isNumberChar = (Json.num q).text P := by
    intro q r hq hr
    have hchars := (hP.numberChars q hq).2
    have hnil : r.takeWhile isNumberChar = [] := by
      cases r with
      | nil => rfl
      | cons c r =>
        refine List.takeWhile_cons_of_neg ?_
        rcases hr c rfl with rfl | rfl | rfl <;> decide
    rw [List.takeWhile_append_of_pos (by simpa only [Json.text, canonicalize] using hchars), hnil,
      List.append_nil]
  have htext : (Json.num q).text P = (Json.num q').text P := by
    rw [← htake q r hq hr, h, htake q' r' hq' hr']
  rw [htext] at h
  refine ⟨hP.number q q' hq hq' ?_, List.append_cancel_left h⟩
  simp only [Json.text, canonicalize] at htext
  exact String.toList_inj.mp htext

include hP in
/-- A member is told apart by its name, and then by its value. -/
lemma same_member {e e' : String × Json}
    (he : ∀ b : Json, b.WellFormed → ∀ r r', Delimited r → Delimited r' →
      e.2.text P ++ r = b.text P ++ r' → e.2.Same b ∧ r = r') (he' : e'.2.WellFormed) :
    ∀ r r', Delimited r → Delimited r' → memberText P e ++ r = memberText P e' ++ r' →
      (e.1 = e'.1 ∧ e.2.Same e'.2) ∧ r = r' := by
  intro r r' hr hr' h
  rw [memberText, memberText, hP.string, hP.string, List.append_assoc, List.append_assoc] at h
  obtain ⟨hname, hrest⟩ := Quoting.quote_inj h
  obtain ⟨hsame, hrest⟩ := he e'.2 he' r r' hr hr' (List.tail_eq_of_cons_eq hrest)
  exact ⟨⟨String.toList_inj.mp hname, hsame⟩, hrest⟩

/-- Objects are the same if their members are, in the order of their names. -/
lemma same_of_sorted {m m' : Fields}
    (h : List.Forall₂ (fun e e' : String × Json => e.1 = e'.1 ∧ e.2.Same e'.2) (sortMembers m)
      (sortMembers m')) : (Json.obj m).Same (.obj m') := by
  obtain ⟨m'', hperm, hforall⟩ : Relation.Comp List.Perm (List.Forall₂
      fun e e' : String × Json => e.1 = e'.1 ∧ e.2.Same e'.2) (sortMembers m) m' := by
    rw [← List.forall₂_comp_perm_eq_perm_comp_forall₂]
    exact ⟨sortMembers m', h, perm_sortMembers m'⟩
  refine .obj ((perm_sortMembers m).symm.trans hperm) ?_ ?_
  · clear hperm h
    induction hforall with
    | nil => rfl
    | cons hfields _ ih => exact congrArg₂ List.cons hfields.1 ih
  · rw [List.forall₂_map_left_iff, List.forall₂_map_right_iff]
    exact hforall.imp fun _ _ h => h.2

include hP in
/-- A text is the text of one value, up to the order of members. -/
lemma same_of_text (a : Json) (ha : a.WellFormed) : ∀ b : Json, b.WellFormed →
    ∀ r r', Delimited r → Delimited r' → a.text P ++ r = b.text P ++ r' → a.Same b ∧ r = r' := by
  induction a using Json.induction with
  | null =>
    intro b hb r r' hr hr' h
    have hmark := mark_eq hP ha hb h
    cases hb with
    | null => exact ⟨.null, List.append_cancel_left h⟩
    | bool b => cases b <;> cases hmark
    | _ => cases hmark
  | bool b =>
    intro b' hb r r' hr hr' h
    have hmark := mark_eq hP ha hb h
    cases hb with
    | bool b' =>
      obtain rfl : b = b' := by cases b <;> cases b' <;> first | rfl | cases hmark
      exact ⟨.bool b, List.append_cancel_left h⟩
    | _ => cases b <;> cases hmark
  | num q =>
    intro b hb r r' hr hr' h
    have hmark := mark_eq hP ha hb h
    cases hb with
    | @num q' hq' =>
      cases ha with
      | num hq =>
        obtain ⟨rfl, hrest⟩ := number_inj hP hq hq' hr hr' h
        exact ⟨.num q, hrest⟩
    | bool b => cases b <;> cases hmark
    | _ => cases hmark
  | str s =>
    intro b hb r r' hr hr' h
    have hmark := mark_eq hP ha hb h
    cases hb with
    | str s' =>
      simp only [Json.text, canonicalize, hP.string] at h
      obtain ⟨hs, hrest⟩ := Quoting.quote_inj h
      rw [String.toList_inj.mp hs]
      exact ⟨.str s', hrest⟩
    | bool b => cases b <;> cases hmark
    | _ => cases hmark
  | arr l ih =>
    intro b hb r r' hr hr' h
    have hmark := mark_eq hP ha hb h
    cases hb with
    | @arr l' hl' =>
      cases ha with
      | arr hl =>
        rw [text_arr, text_arr, List.cons_append, List.cons_append, List.append_assoc,
          List.append_assoc] at h
        obtain ⟨hforall, hrest⟩ := joined_inj (R := Json.Same) (.inl rfl)
          (fun v hv w hw => ih v hv (hl v hv) w (hl' w hw))
          (fun v hv => beginsApart_text hP (hl v hv) (.inl rfl))
          (fun w hw => beginsApart_text hP (hl' w hw) (.inl rfl)) (List.tail_eq_of_cons_eq h)
        exact ⟨.arr hforall, hrest⟩
    | bool b => cases b <;> cases hmark
    | _ => cases hmark
  | obj m ih =>
    intro b hb r r' hr hr' h
    have hmark := mark_eq hP ha hb h
    cases hb with
    | @obj m' names' hm' =>
      cases ha with
      | obj names hm =>
        rw [text_obj, text_obj, List.cons_append, List.cons_append, List.append_assoc,
          List.append_assoc] at h
        obtain ⟨hforall, hrest⟩ := joined_inj
          (R := fun e e' : String × Json => e.1 = e'.1 ∧ e.2.Same e'.2) (.inr rfl)
          (fun e he e' he' => same_member hP (ih e ((perm_sortMembers m).mem_iff.mp he)
            (hm e ((perm_sortMembers m).mem_iff.mp he))) (hm' e'
              ((perm_sortMembers m').mem_iff.mp he')))
          (fun e _ => beginsApart_memberText hP e (.inr rfl))
          (fun e _ => beginsApart_memberText hP e (.inr rfl)) (List.tail_eq_of_cons_eq h)
        exact ⟨same_of_sorted hforall, hrest⟩
    | bool b => cases b <;> cases hmark
    | _ => cases hmark

end

/-! ### The guarantee -/

/-- What stands before a separator and after it. -/
lemma separator_inj {c : Char} {l l' r r' : List Char} (hl : c ∉ l) (hl' : c ∉ l')
    (h : l ++ c :: r = l' ++ c :: r') : l = l' ∧ r = r' := by
  have htake : ∀ l r : List Char, c ∉ l → (l ++ c :: r).takeWhile (· ≠ c) = l := by
    intro l r hl
    have hkeep : ∀ d ∈ l, decide (d ≠ c) = true := fun d hd =>
      decide_eq_true fun heq => hl (heq ▸ hd)
    rw [List.takeWhile_append_of_pos hkeep]
    simp
  have hfirst : l = l' := by rw [← htake l r hl, h, htake l' r' hl']
  rw [hfirst] at h
  exact ⟨hfirst, List.tail_eq_of_cons_eq (List.append_cancel_left h)⟩

/-- Two bodies have the same text iff they are the same up to the order of members, and two requests
are hashed from the same text iff, besides, their endpoints are equal. -/
theorem request_text {P : Platform} (hP : P.Stringifies) {a b : Json} (ha : a.WellFormed)
    (hb : b.WellFormed) :
    (canonicalize P a = canonicalize P b ↔ a.Same b) ∧
    ∀ endpoint endpoint' : String, '\n' ∉ endpoint.toList → '\n' ∉ endpoint'.toList →
      (endpoint ++ "\n" ++ canonicalize P a = endpoint' ++ "\n" ++ canonicalize P b ↔
        endpoint = endpoint' ∧ a.Same b) := by
  have hsame : canonicalize P a = canonicalize P b ↔ a.Same b := by
    refine ⟨fun h => ?_, canonicalize_of_same a ha b⟩
    have htext : a.text P ++ [] = b.text P ++ [] := by rw [Json.text, h]; rfl
    exact (same_of_text hP a ha b hb [] [] nofun nofun htext).1
  refine ⟨hsame, fun endpoint endpoint' hline hline' => ?_⟩
  rw [← hsame]
  constructor
  · intro h
    have hbreak : "\n".toList = ['\n'] := String.toList_ofList
    have hlists := congrArg String.toList h
    rw [String.toList_append, String.toList_append, String.toList_append, String.toList_append,
      hbreak, List.append_assoc, List.append_assoc] at hlists
    obtain ⟨hendpoint, hbody⟩ := separator_inj hline hline' hlists
    exact ⟨String.toList_inj.mp hendpoint, String.toList_inj.mp hbody⟩
  · rintro ⟨rfl, hbody⟩
    rw [hbody]

/-! ### Two orders of one request -/

/-- A numeral for every number, the usual one for integers. -/
def numeral (q : ℚ) : String :=
  if q.den = 1 then toString q.num else toString q.num ++ "e" ++ toString q.den

def quoting : Platform :=
  { sample with
    stringifyString := fun s => .ofList (Quoting.quote s.toList)
    stringifyNumber := numeral }

lemma toList_numeral (q : ℚ) : (numeral q).toList =
    signedDigits q.num ++ if q.den = 1 then [] else 'e' :: Nat.toDigits 10 q.den := by
  rw [numeral]
  split
  · rw [toList_toString_int, List.append_nil]
  · have hden : (toString q.den).toList = Nat.toDigits 10 q.den := Nat.toList_repr
    rw [String.toList_append, String.toList_append, toList_toString_int, hden,
      String.toList_ofList, List.append_assoc]
    rfl

lemma mem_signedDigits {z : ℤ} {c : Char} (h : c ∈ signedDigits z) :
    c.isDigit = true ∨ c = '-' := by
  cases z with
  | ofNat n => exact .inl (Nat.isDigit_of_mem_toDigits (by decide) (by decide) h)
  | negSucc n =>
    obtain rfl | h := List.mem_cons.mp h
    · exact .inr rfl
    · exact .inl (Nat.isDigit_of_mem_toDigits (by decide) (by decide) h)

lemma signedDigits_ne_nil (z : ℤ) : signedDigits z ≠ [] := by
  cases z with
  | ofNat n => exact Nat.toDigits_ne_nil
  | negSucc n => exact List.cons_ne_nil _ _

lemma isNumberChar_of_isDigit {c : Char} (h : c.isDigit = true) : isNumberChar c = true := by
  simp [isNumberChar, h]

lemma e_not_mem_signedDigits (z : ℤ) : 'e' ∉ signedDigits z := by
  intro h
  rcases mem_signedDigits h with h | h <;> cases h

lemma numeral_inj {q q' : ℚ} (h : numeral q = numeral q') : q = q' := by
  have hlists : (numeral q).toList = (numeral q').toList := by rw [h]
  rw [toList_numeral, toList_numeral] at hlists
  split at hlists <;> split at hlists
  · rename_i hden hden'
    rw [List.append_nil, List.append_nil] at hlists
    exact Rat.ext (signedDigits_inj hlists) (hden.trans hden'.symm)
  · rw [List.append_nil] at hlists
    exact absurd (by rw [hlists]; simp) (e_not_mem_signedDigits q.num)
  · rw [List.append_nil] at hlists
    exact absurd (by rw [← hlists]; simp) (e_not_mem_signedDigits q'.num)
  · obtain ⟨hnum, hden⟩ := separator_inj (e_not_mem_signedDigits _) (e_not_mem_signedDigits _)
      hlists
    have hread := congrArg (fun ds => Nat.ofDigitChars 10 ds 0) hden
    simp only [Nat.ofDigitChars_ten_toDigits] at hread
    exact Rat.ext (signedDigits_inj hnum) hread

lemma stringifies_quoting : quoting.Stringifies where
  string _ := String.toList_ofList
  numberChars q _ := by
    change (numeral q).toList ≠ [] ∧ ∀ c ∈ (numeral q).toList, isNumberChar c = true
    rw [toList_numeral]
    constructor
    · intro hnil
      exact signedDigits_ne_nil q.num (List.append_eq_nil_iff.mp hnil).1
    · intro c hc
      obtain hc | hc := List.mem_append.mp hc
      · obtain hdigit | rfl := mem_signedDigits hc
        · exact isNumberChar_of_isDigit hdigit
        · rfl
      · split at hc
        · cases hc
        · obtain rfl | hc := List.mem_cons.mp hc
          · rfl
          · exact isNumberChar_of_isDigit
              (Nat.isDigit_of_mem_toDigits (by decide) (by decide) hc)
  number _ _ _ _ h := numeral_inj h

/-- A request with its members in two orders. -/
def requestBody : Json := .obj [("toPhone", .str "01711111111"), ("amountMinor", .num 2500)]

def reorderedBody : Json := .obj [("amountMinor", .num 2500), ("toPhone", .str "01711111111")]

theorem request_text_reordered :
    canonicalize quoting requestBody = canonicalize quoting reorderedBody := by
  have hdouble : Json.IsDouble 2500 := ⟨2500, 0, by decide, by decide, by decide, by norm_num⟩
  have hbody : requestBody.WellFormed := by
    refine .obj (by decide) fun e he => ?_
    simp only [List.mem_cons, List.not_mem_nil, or_false] at he
    rcases he with rfl | rfl
    · exact .str _
    · exact .num hdouble
  have hreordered : reorderedBody.WellFormed := by
    refine .obj (by decide) fun e he => ?_
    simp only [List.mem_cons, List.not_mem_nil, or_false] at he
    rcases he with rfl | rfl
    · exact .num hdouble
    · exact .str _
  refine (request_text stringifies_quoting hbody hreordered).1.mpr ?_
  exact .obj (List.Perm.swap _ _ _) rfl (.cons (.num _) (.cons (.str _) .nil))

end TakaFlow
