import TakaFlow.Amounts

/-!
# Amounts as text

What the backend writes, both parsers read back, and what both accept means the same to both.
-/

namespace TakaFlow

/-! ### White space -/

lemma isSpace_of_isDigit {c : Char} (h : c.isDigit = true) : isSpace c = false := by
  have hrange : 48 ≤ c.toNat ∧ c.toNat ≤ 57 := by
    simp only [Char.isDigit, Bool.and_eq_true, decide_eq_true_eq, UInt32.le_iff_toNat_le] at h
    exact h
  have hne : ∀ d : Char, d.isDigit = false → c ≠ d := fun d hd => isDigit_ne h hd
  simp only [isSpace, Bool.or_eq_false_iff, Bool.and_eq_false_iff, decide_eq_false_iff_not]
  have h₁ := hne '\t' rfl
  have h₂ := hne '\n' rfl
  have h₃ := hne '\r' rfl
  have h₄ := hne ' ' rfl
  refine ⟨⟨⟨⟨⟨⟨⟨⟨⟨⟨⟨⟨⟨⟨h₁, h₂⟩, ?_⟩, ?_⟩, h₃⟩, h₄⟩, ?_⟩, ?_⟩, ?_⟩, ?_⟩, ?_⟩, ?_⟩, ?_⟩, ?_⟩, ?_⟩
  all_goals omega

lemma trim_eq_self {cs : List Char} (h : ∀ c ∈ cs, isSpace c = false) : trim cs = cs := by
  have hdrop : cs.dropWhile isSpace = cs := by
    cases cs with
    | nil => rfl
    | cons c cs =>
      rw [List.dropWhile_cons_of_neg]
      rw [h c List.mem_cons_self]
      exact Bool.false_ne_true
  rw [trim, hdrop, List.rdropWhile_eq_self_iff]
  intro hne
  rw [h _ (List.getLast_mem hne)]
  exact Bool.false_ne_true

/-- Trimming takes away nothing but space. -/
lemma mem_of_trim {cs : List Char} {c : Char} (h : c ∈ cs) :
    isSpace c = true ∨ c ∈ trim cs := by
  rw [← List.takeWhile_append_dropWhile (p := isSpace) (l := cs), List.mem_append] at h
  rcases h with h | h
  · exact .inl (List.mem_takeWhile_imp h)
  · rw [← List.rdropWhile_append_rtakeWhile (p := isSpace) (l := cs.dropWhile isSpace),
      List.mem_append] at h
    rcases h with h | h
    · exact .inr h
    · exact .inl (List.mem_rtakeWhile_imp h)

/-! ### Numbers -/

/-- The characters of a number with a sign, or without one. -/
def signed (sign : Bool) (cs : List Char) : List Char := if sign then '-' :: cs else cs

lemma bigInt?_signed {cs : List Char} (sign : Bool) (hne : cs ≠ [])
    (h : ∀ c ∈ cs, c.isDigit = true) : bigInt? (signed sign cs) =
      some (if sign then -(Nat.ofDigitChars 10 cs 0 : ℤ) else Nat.ofDigitChars 10 cs 0) := by
  have hdigits : digits? cs = some (Nat.ofDigitChars 10 cs 0) :=
    if_pos ⟨hne, List.all_eq_true.mpr h⟩
  have htrim : trim (signed sign cs) = signed sign cs := by
    refine trim_eq_self fun c hc => ?_
    cases sign with
    | false => exact isSpace_of_isDigit (h c hc)
    | true =>
      obtain rfl | hc := List.mem_cons.mp hc
      · rfl
      · exact isSpace_of_isDigit (h c hc)
  unfold bigInt?
  rw [htrim]
  cases sign with
  | false =>
    simp only [signed, Bool.false_eq_true, if_false]
    split
    · exact absurd rfl hne
    · exact absurd (h 'x' (by simp)) (by decide)
    · exact absurd (h 'X' (by simp)) (by decide)
    · exact absurd (h 'o' (by simp)) (by decide)
    · exact absurd (h 'O' (by simp)) (by decide)
    · exact absurd (h 'b' (by simp)) (by decide)
    · exact absurd (h 'B' (by simp)) (by decide)
    · exact absurd (h '+' (by simp)) (by decide)
    · unfold signedDigits?
      split
      · exact absurd (h '-' (by simp)) (by decide)
      · rw [hdigits]
        rfl
  | true =>
    simp only [signed, if_true]
    simp [signedDigits?, hdigits]

/-! ### What is accepted -/

/-- The amounts that can be typed in. -/
structure TakaText where
  sign : Bool
  whole : List Char
  fraction : Option (List Char)
  whole_ne : whole ≠ []
  whole_digits : ∀ c ∈ whole, c.isDigit = true
  fraction_digits : ∀ f ∈ fraction, ∀ c ∈ f, c.isDigit = true
  fraction_length : ∀ f ∈ fraction, 1 ≤ f.length ∧ f.length ≤ 2

namespace TakaText

variable (t : TakaText)

def point : List Char := (t.fraction.map ('.' :: ·)).getD []

def chars : List Char := signed t.sign (t.whole ++ t.point)

def poisha : List Char := padEnd 2 (t.fraction.getD ['0'])

def minor : ℤ :=
  let abs : ℤ := Nat.ofDigitChars 10 t.whole 0 * 100 + Nat.ofDigitChars 10 t.poisha 0
  if t.sign then -abs else abs

variable {t}

lemma takeWhile_whole : (t.whole ++ t.point).takeWhile Char.isDigit = t.whole := by
  rw [List.takeWhile_append_of_pos t.whole_digits]
  cases hf : t.fraction with
  | none => simp [point, hf]
  | some f => simp [point, hf]

lemma dropWhile_whole : (t.whole ++ t.point).dropWhile Char.isDigit = t.point := by
  rw [List.dropWhile_append_of_pos t.whole_digits]
  cases hf : t.fraction with
  | none => simp [point, hf]
  | some f => simp [point, hf]

/-- The first character of a number is not a sign. -/
lemma head?_ne : (t.whole ++ t.point).head? ≠ some '-' := by
  intro h
  obtain ⟨c, cs, hcs⟩ := List.exists_cons_of_ne_nil t.whole_ne
  rw [hcs] at h
  have hdigit := t.whole_digits '-' (by rw [hcs, ← Option.some.inj h]; exact List.mem_cons_self)
  cases hdigit

lemma head?_chars : decide (t.chars.head? = some '-') = t.sign := by
  unfold chars signed
  split
  · rename_i hsign
    rw [hsign]
    rfl
  · rename_i hsign
    rw [Bool.not_eq_true] at hsign
    rw [hsign, decide_eq_false_iff_not]
    exact head?_ne

lemma unsigned_chars : (if t.sign then t.chars.drop 1 else t.chars) = t.whole ++ t.point := by
  unfold chars signed
  split <;> rfl

lemma matchTaka_chars : matchTaka t.chars = some (t.sign, t.whole, t.fraction) := by
  simp only [matchTaka]
  rw [head?_chars, unsigned_chars, takeWhile_whole, dropWhile_whole, if_neg t.whole_ne]
  cases hf : t.fraction with
  | none => simp [point, hf]
  | some f =>
    have hlength := t.fraction_length f hf
    have hdigits : f.all Char.isDigit = true := List.all_eq_true.mpr (t.fraction_digits f hf)
    simp [point, hf, hdigits, hlength]

/-- Whatever the pattern matches is such an amount. -/
lemma of_matchTaka {cs whole : List Char} {sign : Bool} {fraction : Option (List Char)}
    (h : matchTaka cs = some (sign, whole, fraction)) :
    ∃ t : TakaText, t.chars = cs ∧ t.sign = sign ∧ t.whole = whole ∧ t.fraction = fraction := by
  simp only [matchTaka] at h
  generalize hsign : decide (cs.head? = some '-') = s at h
  have hcs : cs = signed s (if s then cs.drop 1 else cs) := by
    cases cs with
    | nil =>
      rw [← hsign]
      rfl
    | cons c cs =>
      cases s with
      | false => rfl
      | true =>
        rw [decide_eq_true_eq, List.head?_cons, Option.some_inj] at hsign
        rw [hsign]
        rfl
  generalize (if s then cs.drop 1 else cs) = unsigned at h hcs
  have hsplit := List.takeWhile_append_dropWhile (p := Char.isDigit) (l := unsigned)
  have hwhole : ∀ c ∈ unsigned.takeWhile Char.isDigit, c.isDigit = true := fun c hc =>
    List.mem_takeWhile_imp hc
  split at h
  · cases h
  · rename_i hne
    split at h
    · rename_i hnil
      cases h
      refine ⟨⟨_, _, none, hne, hwhole, nofun, nofun⟩, ?_, rfl, rfl, rfl⟩
      rw [hnil] at hsplit
      rw [hcs]
      exact congrArg (signed _) hsplit
    · rename_i c f hcons
      split at h
      · rename_i hfraction
        obtain ⟨rfl, hdigits, hlength⟩ := hfraction
        cases h
        refine ⟨⟨_, _, some f, hne, hwhole, ?_, ?_⟩, ?_, rfl, rfl, rfl⟩
        · rintro g ⟨⟩
          exact List.all_eq_true.mp hdigits
        · rintro g ⟨⟩
          exact hlength
        · rw [hcons] at hsplit
          rw [hcs]
          exact congrArg (signed _) hsplit
      · cases h

/-- Nothing in an amount is space, or a comma. -/
lemma mem_chars {c : Char} (h : c ∈ t.chars) : isSpace c = false ∧ c ≠ ',' := by
  have hdigit : ∀ c : Char, c.isDigit = true → isSpace c = false ∧ c ≠ ',' := fun c hc =>
    ⟨isSpace_of_isDigit hc, isDigit_ne hc rfl⟩
  have hunsigned : ∀ c ∈ t.whole ++ t.point, isSpace c = false ∧ c ≠ ',' := by
    intro c hc
    rcases List.mem_append.mp hc with hc | hc
    · exact hdigit c (t.whole_digits c hc)
    · unfold point at hc
      cases hf : t.fraction with
      | none =>
        rw [hf] at hc
        cases hc
      | some f =>
        rw [hf] at hc
        obtain rfl | hc := List.mem_cons.mp hc
        · exact ⟨rfl, by decide⟩
        · exact hdigit c (t.fraction_digits f hf c hc)
  unfold chars signed at h
  split at h
  · obtain rfl | h := List.mem_cons.mp h
    · exact ⟨rfl, by decide⟩
    · exact hunsigned c h
  · exact hunsigned c h

/-- The parser of the backend. -/
lemma takaToMinor_eq {P : Platform} {input : String} {m : ℤ} :
    takaToMinor P input = .ok m ↔ ∃ t : TakaText, trim input.toList = t.chars ∧ t.minor = m := by
  unfold takaToMinor
  constructor
  · intro h
    split at h
    · cases h
    · rename_i sign whole fraction hmatch
      obtain ⟨t, hchars, rfl, rfl, rfl⟩ := of_matchTaka hmatch
      exact ⟨t, hchars.symm, Except.ok.inj h⟩
  · rintro ⟨t, hchars, rfl⟩
    rw [hchars, matchTaka_chars]
    rfl

lemma poisha_digits : ∀ c ∈ t.poisha, c.isDigit = true := by
  intro c hc
  unfold poisha padEnd at hc
  rcases List.mem_append.mp hc with hc | hc
  · cases hf : t.fraction with
    | none =>
      rw [hf] at hc
      rw [List.mem_singleton.mp hc]
      rfl
    | some f =>
      rw [hf] at hc
      exact t.fraction_digits f hf c hc
  · rw [List.eq_of_mem_replicate hc]
    rfl

lemma length_poisha : t.poisha.length = 2 := by
  have hlength : (t.fraction.getD ['0']).length ≤ 2 := by
    cases hf : t.fraction with
    | none => decide
    | some f => exact (t.fraction_length f hf).2
  rw [poisha, padEnd, List.length_append, List.length_replicate]
  omega

/-- The part before the point, with its sign, and the rest. -/
lemma takeWhile_chars : t.chars.takeWhile (· ≠ '.') = signed t.sign t.whole ∧
    t.chars.dropWhile (· ≠ '.') = t.point := by
  have hchars : t.chars = signed t.sign t.whole ++ t.point := by
    unfold chars signed
    split <;> rfl
  have hbefore : ∀ c ∈ signed t.sign t.whole, decide (c ≠ '.') = true := by
    intro c hc
    rw [decide_eq_true_eq]
    unfold signed at hc
    split at hc
    · obtain rfl | hc := List.mem_cons.mp hc
      · decide
      · exact isDigit_ne (t.whole_digits c hc) rfl
    · exact isDigit_ne (t.whole_digits c hc) rfl
  rw [hchars, List.takeWhile_append_of_pos hbefore, List.dropWhile_append_of_pos hbefore]
  cases hf : t.fraction with
  | none => simp [point, hf]
  | some f => simp [point, hf]

/-- What the frontend makes of the part after the point. -/
lemma take_fraction : (((t.point.drop 1).takeWhile (· ≠ '.')) ++ ['0', '0']).take 2 = t.poisha := by
  cases hf : t.fraction with
  | none => simp [point, poisha, padEnd, hf]
  | some f =>
    have hf' : f.takeWhile (· ≠ '.') = f := by
      rw [List.takeWhile_eq_self_iff]
      intro c hc
      rw [decide_eq_true_eq]
      exact isDigit_ne (t.fraction_digits f hf c hc) rfl
    have hlength := t.fraction_length f hf
    simp only [point, poisha, padEnd, hf, Option.map_some, Option.getD_some, List.drop_succ_cons,
      List.drop_zero]
    rw [hf', List.take_append, List.take_of_length_le hlength.2]
    obtain h | h : f.length = 1 ∨ f.length = 2 := by omega
    · rw [h]
      rfl
    · rw [h]
      rfl

/-- The parser of the frontend. -/
lemma toMinor_eq {text : String} (htext : trim (text.toList.filter (· ≠ ',')) = t.chars)
    (h : 0 ≤ t.minor) : Ui.toMinor text = some (toString t.minor) := by
  have hsigned : signed t.sign t.whole ≠ [] := by
    unfold signed
    split
    · exact List.cons_ne_nil _ _
    · exact t.whole_ne
  have hne : t.chars ≠ [] := by
    intro hnil
    have hwhole := takeWhile_chars (t := t)
    rw [hnil] at hwhole
    exact hsigned hwhole.1.symm
  have hpoisha := bigInt?_signed false (List.ne_nil_of_length_pos (by rw [length_poisha]; decide))
    t.poisha_digits
  simp only [signed, Bool.false_eq_true, if_false] at hpoisha
  simp only [Ui.toMinor]
  rw [htext, if_neg hne, takeWhile_chars.1, takeWhile_chars.2, take_fraction, if_neg hsigned,
    bigInt?_signed t.sign t.whole_ne t.whole_digits, hpoisha]
  refine congrArg some (congrArg toString ?_)
  simp only [minor] at h ⊢
  split at h
  · rename_i hsign
    rw [if_pos hsign, if_pos hsign]
    omega
  · rename_i hsign
    rw [if_neg hsign, if_neg hsign]

end TakaText

/-! ### What is written -/

/-- A whole part in groups of three, and two decimals. -/
structure GroupedText where
  sign : Bool
  first : List Char
  groups : List (List Char)
  poisha : List Char
  digits : ∀ c ∈ first ++ groups.flatten ++ poisha, c.isDigit = true
  first_length : 1 ≤ first.length ∧ first.length ≤ 3
  groups_length : ∀ g ∈ groups, g.length = 3
  poisha_length : poisha.length = 2
  no_leading_zero : first.head? = some '0' → first = ['0'] ∧ groups = []

def GroupedText.chars (t : GroupedText) : List Char :=
  signed t.sign (t.first ++ t.groups.flatMap (',' :: ·) ++ '.' :: t.poisha)

lemma toList_formatTaka (m : ℤ) : (formatTaka m).toList = signed (decide (m < 0))
    ((groupThrees (Nat.toDigits 10 (m.natAbs / 100)).reverse).reverse ++
      '.' :: (padNat 2 (m.natAbs % 100)).toList) := by
  have hdigits : (toString (m.natAbs / 100)).toList = Nat.toDigits 10 (m.natAbs / 100) :=
    Nat.toList_repr
  simp only [formatTaka, String.toList_append, String.toList_ofList, hdigits, signed]
  by_cases h : m < 0
  · simp [h]
  · simp [h]

lemma groupThrees_of_short {l : List Char} (h : l.length ≤ 3) : groupThrees l = l := by
  match l, h with
  | [], _ => rfl
  | [_], _ => rfl
  | [_, _], _ => rfl
  | [_, _, _], _ => rfl

lemma length_le_of_short {l : List Char}
    (h : ∀ a b c d l', l = a :: b :: c :: d :: l' → False) : l.length ≤ 3 := by
  match l with
  | [] => exact Nat.zero_le _
  | [_] => exact Nat.le_add_left _ _
  | [_, _] => exact Nat.le_add_left _ _
  | [_, _, _] => exact Nat.le_add_left _ _
  | a :: b :: c :: d :: l' => exact (h a b c d l' rfl).elim

/-- The groups that are written. -/
lemma groupThrees_spec (l : List Char) (hne : l ≠ []) : ∃ first groups,
    (groupThrees l).reverse = first ++ List.flatMap (',' :: ·) groups ∧
      first ++ groups.flatten = l.reverse ∧ (1 ≤ first.length ∧ first.length ≤ 3) ∧
      ∀ g ∈ groups, g.length = 3 := by
  induction l using groupThrees.induct with
  | case1 a b c d l ih =>
    obtain ⟨first, groups, hgrouped, hflat, hfirst, hgroups⟩ := ih (List.cons_ne_nil _ _)
    refine ⟨first, groups ++ [[c, b, a]], ?_, ?_, hfirst, ?_⟩
    · simp [groupThrees, hgrouped]
    · rw [List.flatten_append, ← List.append_assoc, hflat]
      simp
    · intro g hg
      rcases List.mem_append.mp hg with hg | hg
      · exact hgroups g hg
      · rw [List.mem_singleton.mp hg]
        rfl
  | case2 l hshort =>
    have hlength : l.length ≤ 3 := length_le_of_short hshort
    refine ⟨l.reverse, [], ?_, by simp, ?_, nofun⟩
    · rw [groupThrees_of_short hlength]
      simp
    · rw [List.length_reverse]
      exact ⟨List.length_pos_of_ne_nil hne, hlength⟩

/-- Without its commas a number is as it was. -/
lemma filter_groupThrees (l : List Char) (h : ∀ c ∈ l, c ≠ ',') :
    (groupThrees l).filter (· ≠ ',') = l := by
  induction l using groupThrees.induct with
  | case1 a b c d l ih =>
    have ha := h a (by simp)
    have hb := h b (by simp)
    have hc := h c (by simp)
    have hrest := ih fun e he => h e (by simp [List.mem_cons.mp he])
    simp only [ne_eq, decide_not] at hrest
    simp [groupThrees, ha, hb, hc, hrest]
  | case2 l hshort =>
    rw [groupThrees_of_short (length_le_of_short hshort), List.filter_eq_self]
    intro c hc
    rw [decide_eq_true_eq]
    exact h c hc

/-- Numbers begin with a zero only if they are zero. -/
lemma head?_toDigits (n : ℕ) : (Nat.toDigits 10 n).head? = some '0' → n = 0 := by
  induction n using Nat.strong_induction_on with
  | _ n ih =>
    intro h
    rcases lt_or_ge n 10 with hlt | hle
    · rw [Nat.toDigits_of_lt_base hlt, List.head?_cons, Option.some_inj] at h
      have hinj : ∀ m < 10, Nat.digitChar m = '0' → m = 0 := by decide
      exact hinj n hlt h
    · rw [Nat.toDigits_of_base_le (by decide) hle, List.head?_append_of_ne_nil _
        Nat.toDigits_ne_nil] at h
      have hzero := ih (n / 10) (by omega) h
      omega

lemma padNat_spec : ∀ n < 100, (padNat 2 n).toList.length = 2 ∧
    (padNat 2 n).toList.all Char.isDigit = true ∧
    Nat.ofDigitChars 10 (padNat 2 n).toList 0 = n := by decide +kernel

lemma isDigit_of_mem_toDigits {n : ℕ} {c : Char} (h : c ∈ Nat.toDigits 10 n) :
    c.isDigit = true :=
  Nat.isDigit_of_mem_toDigits (by decide) (by decide) h

/-- What is written is in groups. -/
lemma formatTaka_grouped (m : ℤ) :
    ∃ t : GroupedText, (formatTaka m).toList = t.chars ∧ t.sign = decide (m < 0) := by
  obtain ⟨first, groups, hgrouped, hflat, hfirst, hgroups⟩ :=
    groupThrees_spec (Nat.toDigits 10 (m.natAbs / 100)).reverse
      (by rw [Ne, List.reverse_eq_nil_iff]; exact Nat.toDigits_ne_nil)
  rw [List.reverse_reverse] at hflat
  obtain ⟨hlength, hpoisha, -⟩ := padNat_spec (m.natAbs % 100) (Nat.mod_lt _ (by decide))
  rw [toList_formatTaka, hgrouped]
  generalize (padNat 2 (m.natAbs % 100)).toList = poisha at hlength hpoisha ⊢
  refine ⟨⟨decide (m < 0), first, groups, poisha, ?_, hfirst, hgroups, hlength, ?_⟩, rfl, rfl⟩
  · rw [hflat]
    intro c hc
    rcases List.mem_append.mp hc with hc | hc
    · exact isDigit_of_mem_toDigits hc
    · exact List.all_eq_true.mp hpoisha c hc
  · intro hzero
    have hhead : (Nat.toDigits 10 (m.natAbs / 100)).head? = some '0' := by
      rw [← hflat, List.head?_append, hzero]
      rfl
    rw [head?_toDigits _ hhead, Nat.toDigits_zero] at hflat
    cases groups with
    | nil =>
      rw [List.flatten_nil, List.append_nil] at hflat
      exact ⟨hflat, rfl⟩
    | cons g groups =>
      have hlengths := congrArg List.length hflat
      have hg := hgroups g List.mem_cons_self
      simp only [List.length_append, List.flatten_cons, List.length_singleton] at hlengths
      omega

/-- A number of poisha, written with two decimals. -/
lemma exists_takaText (sign : Bool) (n : ℕ) : ∃ t : TakaText,
    t.chars = signed sign (Nat.toDigits 10 (n / 100) ++ '.' :: (padNat 2 (n % 100)).toList) ∧
      t.minor = if sign then -(n : ℤ) else n := by
  obtain ⟨hlength, hpoisha, hvalue⟩ := padNat_spec (n % 100) (Nat.mod_lt _ (by decide))
  have hwhole : Nat.ofDigitChars 10 (Nat.toDigits 10 (n / 100)) 0 = n / 100 :=
    Nat.ofDigitChars_ten_toDigits
  have hne : Nat.toDigits 10 (n / 100) ≠ [] := Nat.toDigits_ne_nil
  have hdigits : ∀ c ∈ Nat.toDigits 10 (n / 100), c.isDigit = true := fun c hc =>
    isDigit_of_mem_toDigits hc
  generalize (padNat 2 (n % 100)).toList = poisha at hlength hpoisha hvalue ⊢
  generalize Nat.toDigits 10 (n / 100) = whole at hwhole hne hdigits ⊢
  refine ⟨⟨sign, whole, some poisha, hne, hdigits, ?_, ?_⟩, rfl, ?_⟩
  · rintro f ⟨⟩
    exact List.all_eq_true.mp hpoisha
  · rintro f ⟨⟩
    omega
  · have hpad : padEnd 2 poisha = poisha := by
      rw [padEnd, hlength]
      exact List.append_nil _
    simp only [TakaText.minor, TakaText.poisha, Option.getD_some, hpad, hwhole, hvalue]
    split <;> omega

/-- What is written, without the commas. -/
lemma formatTaka_taka (m : ℤ) : ∃ t : TakaText,
    (formatTaka m).toList.filter (· ≠ ',') = t.chars ∧ t.minor = m := by
  obtain ⟨t, hchars, hminor⟩ := exists_takaText (decide (m < 0)) m.natAbs
  refine ⟨t, ?_, ?_⟩
  · have hfilter : ∀ cs : List Char, (∀ c ∈ cs, c.isDigit = true) →
        cs.filter (· ≠ ',') = cs := by
      intro cs hcs
      rw [List.filter_eq_self]
      intro c hc
      rw [decide_eq_true_eq]
      exact isDigit_ne (hcs c hc) rfl
    have hgroups := filter_groupThrees (Nat.toDigits 10 (m.natAbs / 100)).reverse fun c hc =>
      isDigit_ne (isDigit_of_mem_toDigits (List.mem_reverse.mp hc)) rfl
    have hpoisha := List.all_eq_true.mp
      (padNat_spec (m.natAbs % 100) (Nat.mod_lt _ (by decide))).2.1
    rw [toList_formatTaka, hchars]
    generalize (padNat 2 (m.natAbs % 100)).toList = poisha at hpoisha ⊢
    generalize Nat.toDigits 10 (m.natAbs / 100) = whole at hgroups ⊢
    have hunsigned : ((groupThrees whole.reverse).reverse ++ '.' :: poisha).filter (· ≠ ',') =
        whole ++ '.' :: poisha := by
      rw [List.filter_append, List.filter_reverse, hgroups, List.reverse_reverse]
      exact congrArg (whole ++ '.' :: ·) (hfilter poisha hpoisha)
    unfold signed
    split
    · rw [List.filter_cons_of_pos (by decide), hunsigned]
    · exact hunsigned
  · rw [hminor]
    simp only [decide_eq_true_eq]
    split <;> omega

lemma trim_chars (t : TakaText) : trim t.chars = t.chars :=
  trim_eq_self fun _ hc => (TakaText.mem_chars hc).1

lemma filter_chars (t : TakaText) : t.chars.filter (· ≠ ',') = t.chars := by
  rw [List.filter_eq_self]
  intro c hc
  rw [decide_eq_true_eq]
  exact (TakaText.mem_chars hc).2

/-- The amount that a field begins with is the amount it stands for. -/
lemma toMinor_formatMinorForInput {m : ℤ} (h : 0 ≤ m) :
    (Ui.formatMinorForInput (toString m)).bind Ui.toMinor = some (toString m) := by
  obtain ⟨n, rfl⟩ := Int.eq_ofNat_of_zero_le h
  have hvalue : bigInt? (toString (n : ℤ)).toList = some (n : ℤ) := by
    have hread := bigInt?_signed false Nat.toDigits_ne_nil fun c (hc : c ∈ Nat.toDigits 10 n) =>
      isDigit_of_mem_toDigits hc
    simp only [signed, Bool.false_eq_true, if_false, Nat.ofDigitChars_ten_toDigits] at hread
    rw [toList_toString_int]
    exact hread
  obtain ⟨t, hchars, hminor⟩ := exists_takaText false n
  simp only [Ui.formatMinorForInput, hvalue, Option.bind_eq_bind, Option.bind_some, pure]
  have htext : (toString ((n : ℤ).tdiv 100) ++ "." ++
      String.ofList (List.leftpad 2 '0' (toString ((n : ℤ).tmod 100)).toList)).toList =
        t.chars := by
    have hpad : (padNat 2 (n % 100)).toList = List.leftpad 2 '0' (Nat.toDigits 10 (n % 100)) := by
      have hdigits : (toString (n % 100)).toList = Nat.toDigits 10 (n % 100) := Nat.toList_repr
      rw [padNat, String.toList_append, String.toList_ofList, ← String.length_toList, hdigits]
      rfl
    have hdiv : toString ((n : ℤ).tdiv 100) = toString ((n / 100 : ℕ) : ℤ) := rfl
    have hmod : toString ((n : ℤ).tmod 100) = toString ((n % 100 : ℕ) : ℤ) := rfl
    rw [hchars, hdiv, hmod, hpad, String.toList_append, String.toList_append,
      toList_toString_int, toList_toString_int, List.append_assoc, String.toList_ofList,
      String.toList_ofList]
    rfl
  have hminor : t.minor = n := hminor
  have hfield := TakaText.toMinor_eq (by rw [htext, filter_chars, trim_chars]) (hminor ▸ h)
  rw [hfield, hminor]

/-- Both parsers read what is written, and agree on what both accept. -/
theorem amount_text (P : Platform) :
    (∀ m : ℤ, ∃ t : GroupedText, (formatTaka m).toList = t.chars ∧ t.sign = decide (m < 0)) ∧
    (∀ m : ℤ, takaToMinor P (.ofList ((formatTaka m).toList.filter (· ≠ ','))) = .ok m) ∧
    (∀ m : ℤ, 0 ≤ m → Ui.toMinor (formatTaka m) = some (toString m)) ∧
    ∀ (input : String) (m : ℤ), takaToMinor P input = .ok m → 0 ≤ m →
      Ui.toMinor input = some (toString m) := by
  refine ⟨formatTaka_grouped, fun m => ?_, fun m hm => ?_, fun input m h hm => ?_⟩
  · obtain ⟨t, hchars, rfl⟩ := formatTaka_taka m
    refine TakaText.takaToMinor_eq.mpr ⟨t, ?_, rfl⟩
    rw [String.toList_ofList, hchars, trim_chars]
  · obtain ⟨t, hchars, rfl⟩ := formatTaka_taka m
    refine TakaText.toMinor_eq ?_ hm
    rw [hchars, trim_chars]
  · obtain ⟨t, hchars, rfl⟩ := TakaText.takaToMinor_eq.mp h
    refine TakaText.toMinor_eq ?_ hm
    have hcommas : input.toList.filter (· ≠ ',') = input.toList := by
      rw [List.filter_eq_self]
      intro c hc
      rw [decide_eq_true_eq]
      rcases mem_of_trim hc with hspace | hc
      · rintro rfl
        cases hspace
      · rw [hchars] at hc
        exact (TakaText.mem_chars hc).2
    rw [hcommas, hchars]

end TakaFlow
