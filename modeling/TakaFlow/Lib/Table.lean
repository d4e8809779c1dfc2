import Mathlib.Data.List.Nodup
import Mathlib.Data.List.Lemmas
import Mathlib.Algebra.BigOperators.Group.List.Basic
import Mathlib.Tactic.Abel
import Mathlib.Tactic.Linarith

/-!
# Tables with a primary key

A table is a list of rows, in the order they were inserted, in which no two rows have the same
key. `insert` does nothing where the key is present; `modify` changes the columns of one row and
never its key.
-/

namespace Txn

variable {α κ : Type}

lemma nodup_map_nil (key : α → κ) : (([] : List α).map key).Nodup := List.nodup_nil

/-- Rows with pairwise different keys. -/
structure Table (key : α → κ) where
  rows : List α := []
  nodup : (rows.map key).Nodup := by first | exact nodup_map_nil _ | simp

namespace Table

variable [DecidableEq κ] {key : α → κ} (t : Table key) (k k' : κ) (a b : α) (f : α → α)

instance : Membership α (Table key) := ⟨fun t a => a ∈ t.rows⟩

omit [DecidableEq κ] in
lemma mem_def : a ∈ t ↔ a ∈ t.rows := Iff.rfl

omit [DecidableEq κ] in
lemma ext_rows {t t' : Table key} (h : t.rows = t'.rows) : t = t' := by
  cases t; cases t'; simp_all

/-- The row with a key. -/
def get? : Option α := t.rows.find? fun a => key a = k

/-- Is there a row with this key? -/
def has : Bool := (t.get? k).isSome

/-- The rows after `INSERT`. -/
def insertRows : List α := if t.has (key a) then t.rows else t.rows ++ [a]

lemma get?_eq_none : t.get? k = none ↔ ∀ a ∈ t.rows, key a ≠ k := by
  simp [get?, List.find?_eq_none]

lemma has_eq_false : t.has k = false ↔ t.get? k = none := by
  simp [has]

lemma nodup_insertRows : ((t.insertRows a).map key).Nodup := by
  unfold insertRows
  cases h : t.has (key a) with
  | true => simpa using t.nodup
  | false =>
    rw [has_eq_false, get?_eq_none] at h
    simp only [Bool.false_eq_true, if_false, List.map_append, List.map_cons, List.map_nil]
    refine t.nodup.append (by simp) ?_
    simpa using h

/-- `INSERT`, under a key that is not there yet. -/
def insert : Table key := ⟨t.insertRows a, t.nodup_insertRows a⟩

/-- `UPDATE` of the row with a key. -/
def modify (hf : ∀ a, key (f a) = key a := by intro; rfl) : Table key where
  rows := t.rows.map fun a => if key a = k then f a else a
  nodup := by
    have : (key ∘ fun a => if key a = k then f a else a) = key := by
      funext a
      by_cases h : key a = k <;> simp [h, hf]
    rw [List.map_map, this]
    exact t.nodup

/-! ### Lookups -/

variable {t k k' a b f}

lemma mem_of_get? (h : t.get? k = some a) : a ∈ t := List.mem_of_find?_eq_some h

lemma key_of_get? (h : t.get? k = some a) : key a = k := by
  simpa using List.find?_some h

lemma get?_of_mem (h : a ∈ t) : t.get? (key a) = some a := by
  obtain ⟨rows, hn⟩ := t
  change a ∈ rows at h
  unfold get?
  induction rows with
  | nil => cases h
  | cons b l ih =>
    rw [List.map_cons, List.nodup_cons] at hn
    rcases List.mem_cons.mp h with rfl | h
    · simp
    · have hne : key b ≠ key a := fun he => hn.1 (he ▸ List.mem_map_of_mem h)
      simpa [List.find?_cons, hne] using ih hn.2 h

lemma get?_eq_some : t.get? k = some a ↔ a ∈ t ∧ key a = k :=
  ⟨fun h => ⟨mem_of_get? h, key_of_get? h⟩, fun ⟨h, hk⟩ => hk ▸ get?_of_mem h⟩

/-- A key selects one row at most. -/
lemma filter_key : (t.rows.filter fun b => key b = k) = (t.get? k).toList := by
  obtain ⟨rows, hn⟩ := t
  change (rows.filter fun b => key b = k) = (rows.find? fun b => key b = k).toList
  induction rows with
  | nil => rfl
  | cons b rows ih =>
    rw [List.map_cons, List.nodup_cons] at hn
    by_cases hb : key b = k
    · have hnone : (rows.filter fun c => key c = k) = [] := by
        rw [List.filter_eq_nil_iff]
        intro c hc
        rw [decide_eq_true_eq]
        exact fun he => hn.1 (List.mem_map.mpr ⟨c, hc, he.trans hb.symm⟩)
      rw [List.filter_cons_of_pos (by simpa using hb), hnone,
        List.find?_cons_of_pos (by simpa using hb)]
      rfl
    · rw [List.filter_cons_of_neg (by simpa using hb), List.find?_cons_of_neg (by simpa using hb)]
      exact ih hn.2

lemma eq_of_mem (ha : a ∈ t) (hb : b ∈ t) (h : key a = key b) : a = b := by
  have := get?_of_mem ha
  rw [h, get?_of_mem hb] at this
  exact (Option.some.inj this).symm

lemma get?_insert : (t.insert a).get? k = (t.get? k).or (if key a = k then some a else none) := by
  change (t.insertRows a).find? _ = _
  unfold insertRows
  cases h : t.has (key a) with
  | true =>
    simp only [if_true]
    change t.get? k = _
    cases hk : t.get? k with
    | some b => rfl
    | none =>
      have : key a ≠ k := by
        rintro rfl
        rw [← has_eq_false, h] at hk
        cases hk
      simp [this]
  | false =>
    simp only [Bool.false_eq_true, if_false, get?, List.find?_append, List.find?_singleton]
    congr 1
    by_cases hk : key a = k <;> simp [hk]

lemma get?_insert_of_ne (h : key a ≠ k) : (t.insert a).get? k = t.get? k := by
  simp [get?_insert, h]

lemma get?_insert_of_some (h : t.get? k = some b) : (t.insert a).get? k = some b := by
  simp [get?_insert, h]

lemma get?_insert_self (h : t.get? (key a) = none) : (t.insert a).get? (key a) = some a := by
  simp [get?_insert, h]

lemma rows_insert (h : t.get? (key a) = none) : (t.insert a).rows = t.rows ++ [a] := by
  simp [insert, insertRows, has, h]

lemma mem_insert (h : t.get? (key a) = none) : b ∈ t.insert a ↔ b ∈ t ∨ b = a := by
  simp [mem_def, rows_insert h]

lemma mem_insert_or (h : b ∈ t.insert a) : b ∈ t ∨ b = a := by
  change b ∈ t.insertRows a at h
  unfold insertRows at h
  split at h
  · exact .inl h
  · exact (List.mem_append.mp h).imp_right List.mem_singleton.mp

lemma mem_insert_of_mem (h : b ∈ t) : b ∈ t.insert a := by
  have := get?_of_mem h
  exact mem_of_get? (get?_insert_of_some (a := a) this)

lemma has_insert : (t.insert a).has k = (t.has k || decide (key a = k)) := by
  simp only [has, get?_insert]
  cases t.get? k <;> by_cases h : key a = k <;> simp [h]

variable {hf : ∀ a, key (f a) = key a}

lemma get?_modify :
    (t.modify k f hf).get? k' = (t.get? k').map fun a => if key a = k then f a else a := by
  change List.find? _ (t.rows.map _) = (t.rows.find? _).map _
  induction t.rows with
  | nil => rfl
  | cons b l ih =>
    have hb : key (if key b = k then f b else b) = key b := by
      by_cases h : key b = k <;> simp [h, hf]
    simp only [List.map_cons, List.find?_cons, hb]
    by_cases h : key b = k' <;> simp [h, ih]

lemma get?_modify_self : (t.modify k f hf).get? k = (t.get? k).map f := by
  rw [get?_modify]
  cases h : t.get? k with
  | none => rfl
  | some a => simp [key_of_get? h]

lemma get?_modify_of_ne (h : k' ≠ k) : (t.modify k f hf).get? k' = t.get? k' := by
  rw [get?_modify]
  cases hk : t.get? k' with
  | none => rfl
  | some a => simp [key_of_get? hk, h]

lemma has_modify : (t.modify k f hf).has k' = t.has k' := by
  simp [has, get?_modify]

lemma mem_modify : b ∈ t.modify k f hf ↔ ∃ a ∈ t, b = if key a = k then f a else a := by
  simp [mem_def, modify, eq_comm]

/-! ### What stays -/

/-- The row with a key, if there is one, is the same in both tables. -/
def Keeps (t t' : Table key) (k : κ) : Prop := ∀ a, t.get? k = some a → t'.get? k = some a

variable {t' t'' : Table key}

lemma Keeps.refl : Keeps t t k := fun _ h => h

lemma Keeps.trans (h : Keeps t t' k) (h' : Keeps t' t'' k) : Keeps t t'' k :=
  fun a ha => h' a (h a ha)

lemma keeps_insert : Keeps t (t.insert a) k := fun _ h => get?_insert_of_some h

lemma keeps_modify (h : k' ≠ k) : Keeps t (t.modify k f hf) k' := fun _ ha => by
  rwa [get?_modify_of_ne h]

/-! ### Filters -/

variable {p : α → Bool}

lemma find?_insert_none (h : t.rows.find? p = none) (ha : p a = false) :
    (t.insert a).rows.find? p = none := by
  change (t.insertRows a).find? p = none
  unfold insertRows
  split
  · exact h
  · simp [h, ha]

lemma find?_modify_none (h : t.rows.find? p = none) (hp : ∀ a, p (f a) = p a) :
    (t.modify k f hf).rows.find? p = none := by
  rw [List.find?_eq_none] at h ⊢
  intro b hb
  obtain ⟨a, ha, rfl⟩ := mem_modify.mp hb
  split
  · rw [hp]; exact h a ha
  · exact h a ha

lemma find?_insert_of_not (ha : p a = false) :
    (t.insert a).rows.find? p = t.rows.find? p := by
  change (t.insertRows a).find? p = _
  unfold insertRows
  split
  · rfl
  · simp [ha]

lemma find?_modify_of_not (hp : ∀ a, p (f a) = p a) (hid : ∀ a, p a = true → f a = a) :
    (t.modify k f hf).rows.find? p = t.rows.find? p := by
  simp only [modify]
  induction t.rows with
  | nil => rfl
  | cons b l ih =>
    rw [List.map_cons, List.find?_cons, List.find?_cons, ih]
    by_cases hk : key b = k
    · simp only [hk, if_true, hp]
      cases hb : p b with
      | true => simp [hid b hb]
      | false => rfl
    · simp only [hk, if_false]

lemma find?_insert_of_some (h : t.rows.find? p = some b) :
    (t.insert a).rows.find? p = some b := by
  change (t.insertRows a).find? p = some b
  unfold insertRows
  split
  · exact h
  · simp [h]

/-- A row found is found again after an `UPDATE` that keeps what it is found by. -/
lemma find?_modify_of_some (h : t.rows.find? p = some b) (hp : ∀ a, p (f a) = p a) :
    (t.modify k f hf).rows.find? p = some (if key b = k then f b else b) := by
  simp only [modify]
  rw [List.find?_map]
  have hcongr : p ∘ (fun a => if key a = k then f a else a) = p := by
    funext a
    rw [Function.comp_apply]
    split
    · exact hp a
    · rfl
  rw [hcongr, h]
  rfl

/-- A condition that a key is found by finds one row at most. -/
lemma length_filter_le_one (h : ∀ a, p a = true → key a = k) :
    (t.rows.filter p).length ≤ 1 := by
  have hsub : (t.rows.filter p).Sublist (t.rows.filter fun a => key a = k) :=
    List.monotone_filter_right _ fun a ha => decide_eq_true (h a ha)
  refine hsub.length_le.trans ?_
  rw [filter_key]
  cases t.get? k <;> simp

lemma filter_insert_of_not (ha : p a = false) : (t.insert a).rows.filter p = t.rows.filter p := by
  change (t.insertRows a).filter p = _
  unfold insertRows
  split
  · rfl
  · simp [ha]

lemma length_filter_modify (hp : ∀ a, p (f a) = p a) :
    ((t.modify k f hf).rows.filter p).length = (t.rows.filter p).length := by
  have : (p ∘ fun a => if key a = k then f a else a) = p := by
    funext a
    by_cases h : key a = k <;> simp [h, hp]
  simp only [modify, List.filter_map, List.length_map, this]

/-! ### Sums over the rows -/

variable {M : Type} [AddCommGroup M] (g : α → M)

/-- The sum of a column. -/
def sum (t : Table key) (g : α → M) : M := (t.rows.map g).sum

lemma sum_insert (h : t.get? (key a) = none) : (t.insert a).sum g = t.sum g + g a := by
  simp [sum, rows_insert h]

omit [DecidableEq κ] in
lemma sum_eq_zero (h : ∀ b ∈ t, g b = 0) : t.sum g = 0 :=
  List.sum_eq_zero fun x hx => by
    obtain ⟨b, hb, rfl⟩ := List.mem_map.mp hx
    exact h b hb

omit [DecidableEq κ] in
/-- Only one row counts. -/
lemma sum_eq_single (ha : a ∈ t) (h : ∀ b ∈ t, key b ≠ key a → g b = 0) : t.sum g = g a := by
  obtain ⟨rows, hn⟩ := t
  change a ∈ rows at ha
  change ∀ b ∈ rows, key b ≠ key a → g b = 0 at h
  unfold sum
  change (rows.map g).sum = g a
  induction rows with
  | nil => cases ha
  | cons b l ih =>
    rw [List.map_cons, List.nodup_cons] at hn
    rw [List.map_cons, List.sum_cons]
    rcases List.mem_cons.mp ha with rfl | ha
    · have hrest : (l.map g).sum = 0 := by
        refine List.sum_eq_zero fun x hx => ?_
        obtain ⟨c, hc, rfl⟩ := List.mem_map.mp hx
        exact h c (List.mem_cons_of_mem _ hc) fun he => hn.1 (he ▸ List.mem_map_of_mem hc)
      rw [hrest, add_zero]
    · have hne : key b ≠ key a := fun he => hn.1 (he ▸ List.mem_map_of_mem ha)
      rw [h b List.mem_cons_self hne, zero_add]
      exact ih hn.2 ha fun c hc => h c (List.mem_cons_of_mem _ hc)

lemma sum_modify (h : t.get? k = some a) :
    (t.modify k f hf).sum g = t.sum g + (g (f a) - g a) := by
  obtain ⟨rows, hn⟩ := t
  unfold sum modify
  obtain ⟨hm, rfl⟩ := get?_eq_some.mp h
  change a ∈ rows at hm
  clear h
  induction rows with
  | nil => cases hm
  | cons b l ih =>
    rw [List.map_cons, List.nodup_cons] at hn
    simp only [List.map_cons, List.sum_cons]
    rcases List.mem_cons.mp hm with rfl | hm
    · have : l.map (fun b => if key b = key a then f b else b) = l := by
        conv_rhs => rw [← List.map_id l]
        refine List.map_congr_left fun b hb => ?_
        have : key b ≠ key a := fun he => hn.1 (he ▸ List.mem_map_of_mem hb)
        simp [this]
      simp only [if_true, this]
      abel
    · have hne : key b ≠ key a := fun he => hn.1 (he ▸ List.mem_map_of_mem hm)
      have := ih hn.2 hm
      simp only [hne, if_false]
      rw [this]
      abel

/-- An update that leaves a non-negative column alone and drops out of a filter lowers its sum. -/
lemma sum_filter_modify_le {c : α → ℤ} {p : α → Bool} (hc : ∀ a ∈ t, 0 ≤ c a)
    (hp : ∀ a, p (f a) = true → p a = true) (hcf : ∀ a, c (f a) = c a) :
    (((t.modify k f hf).rows.filter p).map c).sum ≤ ((t.rows.filter p).map c).sum := by
  change ∀ a ∈ t.rows, 0 ≤ c a at hc
  simp only [modify]
  generalize t.rows = rows at hc
  induction rows with
  | nil => exact le_refl _
  | cons b l ih =>
    have hb : 0 ≤ c b := hc b (by simp)
    have ih := ih fun a ha => hc a (by simp [ha])
    rw [List.map_cons, List.filter_cons, List.filter_cons]
    by_cases hk : key b = k
    · simp only [hk, if_true]
      cases h₁ : p (f b) with
      | true => simpa [hp b h₁, hcf] using ih
      | false =>
        cases h₂ : p b with
        | true =>
          simp only [Bool.false_eq_true, if_false, if_true, List.map_cons, List.sum_cons]
          linarith
        | false => simpa using ih
    · simp only [hk, if_false]
      cases h₂ : p b <;> simpa using ih

end Table

end Txn
