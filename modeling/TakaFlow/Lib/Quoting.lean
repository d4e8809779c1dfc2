import Mathlib.Data.List.Basic

/-!
# Quoted strings

How JSON writes a string: within quotes, with the quotes, backslashes and control characters of the
string escaped. Where a quoted string ends can be told from the text.
-/

namespace Quoting

/-! ### Writing -/

/-- One character within quotes. -/
def escapeChar (c : Char) : List Char :=
  if c = '"' then ['\\', '"']
  else if c = '\\' then ['\\', '\\']
  else if c.toNat = 8 then ['\\', 'b']
  else if c.toNat = 9 then ['\\', 't']
  else if c.toNat = 10 then ['\\', 'n']
  else if c.toNat = 12 then ['\\', 'f']
  else if c.toNat = 13 then ['\\', 'r']
  else if c.toNat < 32 then
    ['\\', 'u', '0', '0', Nat.digitChar (c.toNat / 16), Nat.digitChar (c.toNat % 16)]
  else [c]

def escape (cs : List Char) : List Char := cs.flatMap escapeChar

/-- A string within quotes. -/
def quote (cs : List Char) : List Char := '"' :: (escape cs ++ ['"'])

/-! ### Reading -/

/-- The control character of two hexadecimal digits. -/
def control (a b : Char) : Char :=
  Char.ofNat ((if a = '1' then 16 else 0) + if b.isDigit then b.toNat - 48 else b.toNat - 87)

/-- The first character within quotes, and the rest. -/
def unescape : List Char → Option (Char × List Char)
  | '\\' :: 'b' :: rest => some (Char.ofNat 8, rest)
  | '\\' :: 't' :: rest => some (Char.ofNat 9, rest)
  | '\\' :: 'n' :: rest => some (Char.ofNat 10, rest)
  | '\\' :: 'f' :: rest => some (Char.ofNat 12, rest)
  | '\\' :: 'r' :: rest => some (Char.ofNat 13, rest)
  | '\\' :: 'u' :: '0' :: '0' :: a :: b :: rest => some (control a b, rest)
  | '\\' :: c :: rest => some (c, rest)
  | '"' :: _ => none
  | c :: rest => some (c, rest)
  | [] => none

lemma control_digits : ∀ n < 32, control (Nat.digitChar (n / 16)) (Nat.digitChar (n % 16)) =
    Char.ofNat n := by decide

lemma unescape_escapeChar (c : Char) (rest : List Char) :
    unescape (escapeChar c ++ rest) = some (c, rest) := by
  have hchar : ∀ n, c.toNat = n → Char.ofNat n = c := fun n hn => hn ▸ Char.ofNat_toNat c
  unfold escapeChar
  split_ifs with hquote hslash h8 h9 h10 h12 h13 hcontrol
  · rw [hquote]
    rfl
  · rw [hslash]
    rfl
  · exact congrArg (fun c => some (c, rest)) (hchar 8 h8)
  · exact congrArg (fun c => some (c, rest)) (hchar 9 h9)
  · exact congrArg (fun c => some (c, rest)) (hchar 10 h10)
  · exact congrArg (fun c => some (c, rest)) (hchar 12 h12)
  · exact congrArg (fun c => some (c, rest)) (hchar 13 h13)
  · refine congrArg (fun c => some (c, rest)) ?_
    rw [control_digits _ hcontrol]
    exact Char.ofNat_toNat c
  · rw [List.singleton_append, unescape.eq_def]
    split <;> simp_all

/-! ### Where a quoted string ends -/

section

variable {s s' r r' : List Char}

lemma escape_inj (h : escape s ++ '"' :: r = escape s' ++ '"' :: r') : s = s' ∧ r = r' := by
  have hnone : ∀ l : List Char, unescape ('"' :: l) = none := fun _ => rfl
  have hcons : ∀ (c : Char) (l t : List Char), escape (c :: l) ++ t =
      escapeChar c ++ (escape l ++ t) := by
    intro c l t
    rw [escape, List.flatMap_cons, List.append_assoc]
    rfl
  induction s generalizing s' with
  | nil =>
    cases s' with
    | nil => exact ⟨rfl, List.tail_eq_of_cons_eq h⟩
    | cons c' s' =>
      have hread := congrArg unescape h
      rw [hcons, unescape_escapeChar] at hread
      exact absurd ((hnone r).symm.trans hread) (Option.some_ne_none _).symm
  | cons c s ih =>
    have hread := congrArg unescape h
    rw [hcons, unescape_escapeChar] at hread
    cases s' with
    | nil => exact absurd (hread.trans (hnone r')) (Option.some_ne_none _)
    | cons c' s' =>
      rw [hcons, unescape_escapeChar, Option.some_inj] at hread
      obtain ⟨rfl, hrest⟩ := Prod.mk.inj hread
      obtain ⟨rfl, rfl⟩ := ih hrest
      exact ⟨rfl, rfl⟩

/-- A quoted string is the only one that its text begins with. -/
theorem quote_inj (h : quote s ++ r = quote s' ++ r') : s = s' ∧ r = r' := by
  simp only [quote, List.cons_append, List.append_assoc, List.nil_append] at h
  exact escape_inj (List.tail_eq_of_cons_eq h)

end

end Quoting
