import Mathlib.Data.List.GetD
import TakaFlow.Safety.References

/-!
# The text of a reference

Forty random bits are written as eight characters of five bits, and the day in front of them is the
one that is read back.
-/

namespace TakaFlow

/-! ### Five bits of forty -/

/-- The forty bits as a number. -/
def fortyBits (bytes : ℕ → Fin 256) : ℕ :=
  (bytes 0).val * 2 ^ 32 + (bytes 1).val * 2 ^ 24 + (bytes 2).val * 2 ^ 16 + (bytes 3).val * 2 ^ 8 +
    (bytes 4).val

/-- The bytes of a number of forty bits. -/
def bytesOf (n : ℕ) (i : ℕ) : Fin 256 := ⟨n / 256 ^ (4 - i) % 256, Nat.mod_lt _ (by decide)⟩

lemma fortyBits_bytesOf {n : ℕ} (h : n < 2 ^ 40) : fortyBits (bytesOf n) = n := by
  simp only [fortyBits, bytesOf]
  omega

lemma fortyBits_inj {bytes bytes' : ℕ → Fin 256} :
    fortyBits bytes = fortyBits bytes' ↔ ∀ i < 5, bytes i = bytes' i := by
  constructor
  · intro h
    have hb := fun i => (bytes i).isLt
    have hb' := fun i => (bytes' i).isLt
    have h₀ := hb 0; have h₁ := hb 1; have h₂ := hb 2; have h₃ := hb 3; have h₄ := hb 4
    have h₀' := hb' 0; have h₁' := hb' 1; have h₂' := hb' 2; have h₃' := hb' 3
    have h₄' := hb' 4
    unfold fortyBits at h
    intro i hi
    refine Fin.ext ?_
    obtain rfl | rfl | rfl | rfl | rfl : i = 0 ∨ i = 1 ∨ i = 2 ∨ i = 3 ∨ i = 4 := by omega
    all_goals omega
  · intro h
    unfold fortyBits
    rw [h 0 (by decide), h 1 (by decide), h 2 (by decide), h 3 (by decide), h 4 (by decide)]

/-- The characters are the digits of that number to the base 32. -/
lemma suffixChar_eq (bytes : ℕ → Fin 256) {i : ℕ} (hi : i < 8) :
    suffixChar bytes i = base32.getD (fortyBits bytes / 32 ^ (7 - i) % 32) '0' := by
  have h₁ := (bytes 1).isLt
  have h₂ := (bytes 2).isLt
  have h₃ := (bytes 3).isLt
  have h₄ := (bytes 4).isLt
  have hchunk : ∀ i < 8, (((bytes (i * 5 / 8)).val * 256 +
      if i * 5 / 8 + 1 < 5 then (bytes (i * 5 / 8 + 1)).val else 0) >>> (11 - i * 5 % 8)) % 32 =
        fortyBits bytes / 32 ^ (7 - i) % 32 := by
    intro i hi
    unfold fortyBits
    obtain rfl | rfl | rfl | rfl | rfl | rfl | rfl | rfl : i = 0 ∨ i = 1 ∨ i = 2 ∨ i = 3 ∨ i = 4 ∨
      i = 5 ∨ i = 6 ∨ i = 7 := by omega
    all_goals
      simp only [Nat.shiftRight_eq_div_pow]
      norm_num
      omega
  exact congrArg (fun n => base32.getD n '0') (hchunk i hi)

/-! ### Digits to the base 32 -/

/-- The number that eight digits stand for. -/
def ofDigits32 (f : ℕ → ℕ) : ℕ :=
  f 0 * 32 ^ 7 + f 1 * 32 ^ 6 + f 2 * 32 ^ 5 + f 3 * 32 ^ 4 + f 4 * 32 ^ 3 + f 5 * 32 ^ 2 +
    f 6 * 32 + f 7

lemma ofDigits32_spec {f : ℕ → ℕ} (h : ∀ i, f i < 32) :
    ofDigits32 f < 2 ^ 40 ∧ ∀ i < 8, ofDigits32 f / 32 ^ (7 - i) % 32 = f i := by
  have h₀ := h 0; have h₁ := h 1; have h₂ := h 2; have h₃ := h 3
  have h₄ := h 4; have h₅ := h 5; have h₆ := h 6; have h₇ := h 7
  unfold ofDigits32
  refine ⟨by omega, fun i hi => ?_⟩
  obtain rfl | rfl | rfl | rfl | rfl | rfl | rfl | rfl : i = 0 ∨ i = 1 ∨ i = 2 ∨ i = 3 ∨ i = 4 ∨
    i = 5 ∨ i = 6 ∨ i = 7 := by omega
  all_goals
    norm_num
    omega

lemma eq_ofDigits32 {n : ℕ} (h : n < 2 ^ 40) : n = ofDigits32 fun i => n / 32 ^ (7 - i) % 32 := by
  simp only [ofDigits32]
  norm_num
  omega

lemma base32_inj : ∀ m < 32, ∀ n < 32, base32.getD m '0' = base32.getD n '0' → m = n := by
  decide +kernel

/-! ### Suffixes -/

/-- The eight characters at the end. -/
def suffixOf (bytes : ℕ → Fin 256) : List Char := (List.range 8).map (suffixChar bytes)

lemma mem_suffixOf {bytes : ℕ → Fin 256} : ∀ c ∈ suffixOf bytes, c ∈ base32 := by
  intro c hc
  obtain ⟨i, hi, rfl⟩ := List.mem_map.mp hc
  have hdigit : fortyBits bytes / 32 ^ (7 - i) % 32 < base32.length :=
    Nat.mod_lt _ (by decide)
  rw [suffixChar_eq bytes (List.mem_range.mp hi), List.getD_eq_getElem _ _ hdigit]
  exact List.getElem_mem hdigit

/-- Different bytes have different suffixes. -/
lemma suffixOf_inj {bytes bytes' : ℕ → Fin 256} :
    suffixOf bytes = suffixOf bytes' ↔ ∀ i < 5, bytes i = bytes' i := by
  have hlt : ∀ bytes : ℕ → Fin 256, fortyBits bytes < 2 ^ 40 := by
    intro bytes
    have h₀ := (bytes 0).isLt
    have h₁ := (bytes 1).isLt
    have h₂ := (bytes 2).isLt
    have h₃ := (bytes 3).isLt
    have h₄ := (bytes 4).isLt
    unfold fortyBits
    omega
  rw [← fortyBits_inj]
  constructor
  · intro h
    have hdigit : ∀ i < 8, fortyBits bytes / 32 ^ (7 - i) % 32 =
        fortyBits bytes' / 32 ^ (7 - i) % 32 := by
      intro i hi
      have hchar := List.map_inj_left.mp h i (List.mem_range.mpr hi)
      rw [suffixChar_eq bytes hi, suffixChar_eq bytes' hi] at hchar
      exact base32_inj _ (Nat.mod_lt _ (by decide)) _ (Nat.mod_lt _ (by decide)) hchar
    rw [eq_ofDigits32 (hlt bytes), eq_ofDigits32 (hlt bytes')]
    simp only [ofDigits32]
    rw [hdigit 0 (by decide), hdigit 1 (by decide), hdigit 2 (by decide), hdigit 3 (by decide),
      hdigit 4 (by decide), hdigit 5 (by decide), hdigit 6 (by decide), hdigit 7 (by decide)]
  · intro h
    refine List.map_congr_left fun i hi => ?_
    rw [suffixChar_eq bytes (List.mem_range.mp hi), suffixChar_eq bytes' (List.mem_range.mp hi), h]

/-- Every eight characters of the alphabet are the suffix of some bytes. -/
lemma exists_suffixOf {suffix : List Char} (hlength : suffix.length = 8)
    (hchars : ∀ c ∈ suffix, c ∈ base32) : ∃ bytes, suffixOf bytes = suffix := by
  have hdigit : ∀ i, ∃ n < 32, i < 8 → suffix.getD i '0' = base32.getD n '0' := by
    intro i
    by_cases hi : i < suffix.length
    · have hmem := hchars _ (List.getElem_mem hi)
      obtain ⟨n, hn, hget⟩ := List.mem_iff_getElem.mp hmem
      refine ⟨n, hn, fun _ => ?_⟩
      rw [List.getD_eq_getElem _ _ hi, List.getD_eq_getElem _ _ hn, hget]
    · exact ⟨0, by decide, fun h => absurd (hlength ▸ h) hi⟩
  choose f hf hget using hdigit
  obtain ⟨hlt, hback⟩ := ofDigits32_spec hf
  refine ⟨bytesOf (ofDigits32 f), ?_⟩
  refine List.ext_getElem (by simp [suffixOf, hlength]) fun i hi hi' => ?_
  have hi8 : i < 8 := hlength ▸ hi'
  simp only [suffixOf, List.getElem_map, List.getElem_range]
  rw [suffixChar_eq _ hi8, fortyBits_bytesOf hlt, hback i hi8, ← hget i hi8,
    List.getD_eq_getElem _ _ hi']

/-! ### References -/

/-- The first eight characters. -/
def datePart (now : Millis) : String :=
  let c := civilOfDays (now / msPerDay)
  "TF" ++ padNat 2 (c.year % 100) ++ padNat 2 c.month ++ padNat 2 c.day

lemma generateReference_eq (now : Millis) (bytes : ℕ → Fin 256) :
    generateReference now bytes = datePart now ++ String.ofList (suffixOf bytes) := rfl

lemma length_datePart (now : Millis) : (datePart now).toList.length = 8 := by
  obtain ⟨⟨-, hmonth⟩, -, hday⟩ := valid_civilOfDays (now / msPerDay)
  unfold datePart
  generalize civilOfDays (now / msPerDay) = c at *
  have hlength : daysInMonth c.year c.month ≤ 31 := by
    unfold daysInMonth
    split_ifs <;> decide
  obtain ⟨y₁, -, y₂, -, hy, -⟩ := toList_padNat (c.year % 100) (by omega)
  obtain ⟨m₁, -, m₂, -, hm, -⟩ := toList_padNat c.month (by omega)
  obtain ⟨d₁, -, d₂, -, hd, -⟩ := toList_padNat c.day (by omega)
  simp [String.toList_append, hy, hm, hd]

lemma drop_generateReference (now : Millis) (bytes : ℕ → Fin 256) :
    (generateReference now bytes).toList.drop 8 = suffixOf bytes := by
  rw [generateReference_eq, String.toList_append, String.toList_ofList,
    List.drop_left' (length_datePart now)]

/-- Nothing is lost: the range that is read back is the UTC day of the instant, the suffix keeps to
the alphabet, and the bytes of a day are its references, one for one. -/
theorem references_lossless {now : Millis}
    (h : 2000 ≤ (civilOfDays (now / msPerDay)).year ∧ (civilOfDays (now / msPerDay)).year ≤ 2099)
    (bytes : ℕ → Fin 256) :
    (∃ start stop, referenceDateRange (generateReference now bytes) = some (start, stop) ∧
      ∀ t : Timestamp, start ≤ t ∧ t < stop ↔ utcDay t = now / msPerDay) ∧
    (((generateReference now bytes).toList.drop 8).length = 8 ∧
      ∀ c ∈ (generateReference now bytes).toList.drop 8, c ∈ base32) ∧
    (∀ now' bytes', now' / msPerDay = now / msPerDay →
      (generateReference now bytes = generateReference now' bytes' ↔
        ∀ i < 5, bytes i = bytes' i)) ∧
    ∀ suffix : List Char, suffix.length = 8 → (∀ c ∈ suffix, c ∈ base32) →
      ∃ bytes', (generateReference now bytes').toList = (datePart now).toList ++ suffix := by
  refine ⟨⟨_, _, referenceDateRange_generate h, fun t => ?_⟩, ?_, ?_, ?_⟩
  · have hday : utcDay (ofMillis now) = now / msPerDay := by
      rw [utcDay, toMillis, ofMillis, Nat.mul_div_cancel _ (by decide)]
    rw [← hday]
    exact inRange_iff
  · rw [drop_generateReference]
    exact ⟨by simp [suffixOf], mem_suffixOf⟩
  · intro now' bytes' hday
    have hdate : datePart now' = datePart now := by
      rw [datePart, hday, datePart]
    rw [← suffixOf_inj, generateReference_eq, generateReference_eq, hdate, String.append_right_inj,
      String.ofList_inj]
  · intro suffix hlength hchars
    obtain ⟨bytes', rfl⟩ := exists_suffixOf hlength hchars
    refine ⟨bytes', ?_⟩
    rw [generateReference_eq, String.toList_append, String.toList_ofList]

/-- Noon on the 29th of August 2026. -/
theorem references_lossless_august : civilOfDays (1788004800000 / msPerDay) = ⟨2026, 8, 29⟩ ∧
    generateReference 1788004800000 (fun i => Fin.ofNat 256 (50 * i)) = "TF26082900S695P8" ∧
    ∃ start stop, referenceDateRange
        (generateReference 1788004800000 fun i => Fin.ofNat 256 (50 * i)) = some (start, stop) ∧
      ∀ t : Timestamp, start ≤ t ∧ t < stop ↔ utcDay t = 1788004800000 / msPerDay :=
  ⟨by decide, by decide +kernel, (references_lossless (by decide) _).1⟩

end TakaFlow
