import Mathlib.Data.List.Basic
import Mathlib.Data.List.TakeWhile

/-!
# Base64url

Three bytes are written as four characters of six bits each, without padding. Decoding looks at the
low byte of every UTF-16 code unit. It takes the characters of both alphabets up to the first
padding and leaves out every other one.
-/

namespace Base64

/-! ### Groups of six bits -/

/-- The groups of six bits. -/
def sextets : List UInt8 → List ℕ
  | a :: b :: c :: l =>
    a.toNat / 4 :: (a.toNat % 4 * 16 + b.toNat / 16) :: (b.toNat % 16 * 4 + c.toNat / 64) ::
      c.toNat % 64 :: sextets l
  | [a, b] => [a.toNat / 4, a.toNat % 4 * 16 + b.toNat / 16, b.toNat % 16 * 4]
  | [a] => [a.toNat / 4, a.toNat % 4 * 16]
  | [] => []

/-- The bytes that are complete. -/
def bytes : List ℕ → List UInt8
  | p :: q :: r :: s :: l =>
    .ofNat (p * 4 + q / 16) :: .ofNat (q % 16 * 16 + r / 4) :: .ofNat (r % 4 * 64 + s) :: bytes l
  | [p, q, r] => [.ofNat (p * 4 + q / 16), .ofNat (q % 16 * 16 + r / 4)]
  | [p, q] => [.ofNat (p * 4 + q / 16)]
  | [_] => []
  | [] => []

lemma ofNat_eq {a : UInt8} {n : ℕ} (h : n = a.toNat) : UInt8.ofNat n = a := by
  rw [h, UInt8.ofNat_toNat]

@[simp] lemma bytes_sextets (l : List UInt8) : bytes (sextets l) = l := by
  fun_induction sextets l with
  | case1 a b c l ih =>
    have hb := b.toNat_lt
    have hc := c.toNat_lt
    rw [bytes, ih, ofNat_eq (a := a) (by omega), ofNat_eq (a := b) (by omega),
      ofNat_eq (a := c) (by omega)]
  | case2 a b =>
    have hb := b.toNat_lt
    rw [bytes, ofNat_eq (a := a) (by omega), ofNat_eq (a := b) (by omega)]
  | case3 a => rw [bytes, ofNat_eq (a := a) (by omega)]
  | case4 => rfl

lemma lt_of_mem_sextets {l : List UInt8} : ∀ n ∈ sextets l, n < 64 := by
  fun_induction sextets l with
  | case1 a b c l ih =>
    have ha := a.toNat_lt
    have hb := b.toNat_lt
    have hc := c.toNat_lt
    simp only [List.forall_mem_cons]
    exact ⟨by omega, by omega, by omega, by omega, ih⟩
  | case2 a b =>
    have ha := a.toNat_lt
    have hb := b.toNat_lt
    simp only [List.forall_mem_cons]
    exact ⟨by omega, by omega, by omega, nofun⟩
  | case3 a =>
    have ha := a.toNat_lt
    simp only [List.forall_mem_cons]
    exact ⟨by omega, by omega, nofun⟩
  | case4 => nofun

/-! ### Characters -/

def alphabet : List Char :=
  "ABCDEFGHIJKLMNOPQRSTUVWXYZabcdefghijklmnopqrstuvwxyz0123456789-_".toList

def digit (n : ℕ) : Char := alphabet.getD n 'A'

/-- The six bits of a character of one of the alphabets. -/
def value? (c : Char) : Option ℕ :=
  if c = '+' then some 62
  else if c = '/' then some 63
  else alphabet.idxOf? c

lemma value?_digit : ∀ n < 64, value? (digit n) = some n := by decide +kernel

/-- The UTF-16 code units of a character. -/
def units (c : Char) : List ℕ :=
  if c.toNat < 0x10000 then [c.toNat]
  else [0xD800 + (c.toNat - 0x10000) / 0x400, 0xDC00 + (c.toNat - 0x10000) % 0x400]

/-- What the decoder sees of a character. -/
def lowBytes (c : Char) : List Char := (units c).map fun u => .ofNat (u % 256)

lemma lowBytes_digit : ∀ n < 64, lowBytes (digit n) = [digit n] ∧ digit n ≠ '=' := by
  decide +kernel

/-- `Buffer.toString('base64url')`. -/
def encode (l : List UInt8) : List Char := (sextets l).map digit

/-- `Buffer.from(s, 'base64url')`. -/
def decode (s : List Char) : List UInt8 :=
  bytes (((s.flatMap lowBytes).takeWhile (· ≠ '=')).filterMap value?)

/-- What has been encoded is seen as it is. -/
lemma flatMap_lowBytes_encode (l : List UInt8) : (encode l).flatMap lowBytes = encode l := by
  have hdigits : ∀ n ∈ sextets l, lowBytes (digit n) = [digit n] :=
    fun n hn => (lowBytes_digit n (lt_of_mem_sextets n hn)).1
  rw [encode, List.flatMap_map, List.flatMap_congr hdigits, ← List.map_eq_flatMap]

/-- There is no padding. -/
lemma takeWhile_encode (l : List UInt8) : (encode l).takeWhile (· ≠ '=') = encode l := by
  refine List.takeWhile_eq_self_iff.mpr fun c hc => ?_
  obtain ⟨n, hn, rfl⟩ := List.mem_map.mp hc
  exact decide_eq_true (lowBytes_digit n (lt_of_mem_sextets n hn)).2

@[simp] lemma decode_encode (l : List UInt8) : decode (encode l) = l := by
  have hvalues : (encode l).filterMap value? = sextets l := by
    rw [encode, List.filterMap_map]
    refine (List.filterMap_congr fun n hn => ?_).trans List.filterMap_some
    exact value?_digit n (lt_of_mem_sextets n hn)
  rw [decode, flatMap_lowBytes_encode, takeWhile_encode, hvalues, bytes_sextets]

/-! ### Text -/

/-- `Buffer.from(text, 'utf8').toString('base64url')`. -/
def encodeText (text : String) : String := .ofList (encode text.toByteArray.data.toList)

/-- `Buffer.from(raw, 'base64url').toString('utf8')`, for bytes that are text. -/
def decodeText? (raw : String) : Option String := String.fromUTF8? ⟨(decode raw.toList).toArray⟩

@[simp] lemma decodeText?_encodeText (text : String) :
    decodeText? (encodeText text) = some text := by
  have hbytes : (⟨(decode (encodeText text).toList).toArray⟩ : ByteArray) = text.toByteArray := by
    rw [encodeText, String.toList_ofList, decode_encode, Array.toArray_toList]
  rw [decodeText?, hbytes, String.fromUTF8?, dif_pos text.isValidUTF8]
  rfl

end Base64
