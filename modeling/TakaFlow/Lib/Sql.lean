import Mathlib.Data.List.Dedup
import Mathlib.Data.List.ReduceOption
import Mathlib.Algebra.BigOperators.Group.List.Basic
import Mathlib.Algebra.Ring.Int.Defs

/-!
# Aggregates of SQL

Truth values with an unknown, outer joins, groups and aggregates that leave `NULL` out. A null
is `none`.
-/

namespace Sql

variable {α β γ κ : Type}

/-! ### Truth values -/

/-- True, false or unknown. -/
abbrev Truth := Option Bool

/-- `OR` of three values. -/
def Truth.or : Truth → Truth → Truth
  | some true, _ => some true
  | some false, p => p
  | none, some true => some true
  | none, _ => none

/-- `WHERE` and `HAVING` keep what is true. -/
def Truth.holds (p : Truth) : Prop := p = some true

instance (p : Truth) : Decidable p.holds := inferInstanceAs (Decidable (p = some true))

lemma Truth.holds_or {p q : Truth} : (p.or q).holds ↔ p.holds ∨ q.holds := by
  rcases p with _ | _ | _ <;> rcases q with _ | _ | _ <;> simp [Truth.or, Truth.holds]

/-- `<>`. -/
def ne [DecidableEq α] : Option α → Option α → Truth
  | some a, some b => some (decide (a ≠ b))
  | _, _ => none

@[simp] lemma holds_ne_some [DecidableEq α] {a b : α} :
    (ne (some a) (some b)).holds ↔ a ≠ b := by
  simp [ne, Truth.holds]

@[simp] lemma not_holds_ne_none [DecidableEq α] {b : Option α} : ¬ (ne none b).holds := by
  simp [ne, Truth.holds]

/-! ### Aggregates -/

lemma reduceOption_map_some (f : α → β) (l : List α) :
    (l.map fun a => some (f a)).reduceOption = l.map f := by
  induction l with
  | nil => rfl
  | cons a l ih => rw [List.map_cons, List.reduceOption_cons_of_some, ih, List.map_cons]

/-- `count(x)`. -/
def count (xs : List (Option α)) : ℕ := xs.reduceOption.length

/-- `SUM(x)`: null where there is nothing to add. -/
def sum (xs : List (Option ℤ)) : Option ℤ :=
  match xs.reduceOption with
  | [] => none
  | n :: ns => some (n :: ns).sum

/-- `MIN(x)`. -/
def min (xs : List (Option ℤ)) : Option ℤ := xs.reduceOption.min?

/-- `MAX(x)`. -/
def max (xs : List (Option ℤ)) : Option ℤ := xs.reduceOption.max?

/-- `COALESCE(x, a)`. -/
def coalesce (x : Option α) (a : α) : α := x.getD a

lemma coalesce_sum_zero (xs : List (Option ℤ)) :
    coalesce (sum xs) 0 = xs.reduceOption.sum := by
  unfold coalesce sum
  cases xs.reduceOption <;> rfl

/-! ### Joins -/

/-- `JOIN`. -/
def join (on : α → β → Bool) (l : List α) (r : List β) : List (α × β) :=
  l.flatMap fun a => (r.filter (on a)).map fun b => (a, b)

/-- `LEFT JOIN`: a row of the left side without a match is kept with a null. -/
def leftJoin (on : α → β → Bool) (l : List α) (r : List β) : List (α × Option β) :=
  l.flatMap fun a =>
    match r.filter (on a) with
    | [] => [(a, none)]
    | b :: bs => (b :: bs).map fun b => (a, some b)

section join

variable {on : α → β → Bool} {l : List α} {r : List β}

/-- A join with one match at most repeats no row. -/
lemma map_fst_join_sublist (h : ∀ a, (r.filter (on a)).length ≤ 1) :
    ((join on l r).map Prod.fst).Sublist l := by
  unfold join
  induction l with
  | nil => exact List.Sublist.refl _
  | cons a l ih =>
    have ha := h a
    rw [List.flatMap_cons, List.map_append, List.map_map]
    cases hr : r.filter (on a) with
    | nil => exact ih.cons a
    | cons b bs =>
      rw [hr, List.length_cons, Nat.succ_le_succ_iff, Nat.le_zero, List.length_eq_zero_iff] at ha
      rw [ha]
      exact ih.cons_cons a

lemma mem_leftJoin_some {a : α} {b : β} :
    (a, some b) ∈ leftJoin on l r ↔ a ∈ l ∧ b ∈ r ∧ on a b = true := by
  unfold leftJoin
  rw [List.mem_flatMap]
  constructor
  · rintro ⟨a', ha', hmem⟩
    cases hr : r.filter (on a') with
    | nil =>
      rw [hr, List.mem_singleton] at hmem
      cases hmem
    | cons c cs =>
      rw [hr] at hmem
      obtain ⟨c', hc', heq⟩ := List.mem_map.mp hmem
      cases heq
      rw [← hr, List.mem_filter] at hc'
      exact ⟨ha', hc'⟩
  · rintro ⟨ha, hb⟩
    refine ⟨a, ha, ?_⟩
    rw [← List.mem_filter] at hb
    cases hr : r.filter (on a) with
    | nil =>
      rw [hr] at hb
      cases hb
    | cons c cs =>
      rw [hr] at hb
      exact List.mem_map_of_mem hb

/-- Every row of the left side is there. -/
lemma mem_fst_leftJoin {a : α} : a ∈ (leftJoin on l r).map Prod.fst ↔ a ∈ l := by
  unfold leftJoin
  induction l with
  | nil => simp
  | cons b l ih =>
    rw [List.flatMap_cons, List.map_append, List.mem_append, ih, List.mem_cons]
    cases hr : r.filter (on b) with
    | nil => simp
    | cons c cs =>
      have hrow : a ∈ (((c :: cs).map fun c => (b, some c)).map Prod.fst) ↔ a = b := by
        constructor
        · intro h
          obtain ⟨p, hp, rfl⟩ := List.mem_map.mp h
          obtain ⟨c', -, rfl⟩ := List.mem_map.mp hp
          rfl
        · rintro rfl
          simp
      rw [hrow]

/-- A condition on the left side can be checked before the join. -/
lemma filter_leftJoin (p : α → Bool) :
    (leftJoin on l r).filter (fun q => p q.1) = leftJoin on (l.filter p) r := by
  unfold leftJoin
  induction l with
  | nil => rfl
  | cons a l ih =>
    rw [List.flatMap_cons, List.filter_append, ih, List.filter_cons]
    cases hp : p a with
    | true =>
      rw [if_pos rfl, List.flatMap_cons]
      congr 1
      cases r.filter (on a) with
      | nil => simp [hp]
      | cons b bs =>
        rw [List.filter_eq_self]
        intro q hq
        obtain ⟨c, -, rfl⟩ := List.mem_map.mp hq
        exact hp
    | false =>
      rw [if_neg Bool.false_ne_true]
      have hnone : ((match r.filter (on a) with
          | [] => [(a, none)]
          | b :: bs => (b :: bs).map fun b => (a, some b)) : List (α × Option β)).filter
          (fun q => p q.1) = [] := by
        rw [List.filter_eq_nil_iff]
        intro q hq
        have hfst : q.1 = a := by
          cases hr : r.filter (on a) with
          | nil =>
            rw [hr] at hq
            rw [List.mem_singleton.mp hq]
          | cons b bs =>
            rw [hr] at hq
            obtain ⟨c, -, rfl⟩ := List.mem_map.mp hq
            rfl
        rw [hfst, hp]
        exact Bool.false_ne_true
      rw [hnone, List.nil_append]

lemma mem_join {a : α} {b : β} : (a, b) ∈ join on l r ↔ a ∈ l ∧ b ∈ r ∧ on a b = true := by
  simp [join, and_assoc]

/-- A join along a foreign key keeps the rows of the left side. -/
lemma map_fst_join (h : ∀ a ∈ l, ∃ b, r.filter (on a) = [b]) : (join on l r).map Prod.fst = l := by
  unfold join
  induction l with
  | nil => rfl
  | cons a l ih =>
    obtain ⟨b, hb⟩ := h a List.mem_cons_self
    rw [List.flatMap_cons, List.map_append, ih fun a ha => h a (List.mem_cons_of_mem _ ha), hb]
    rfl

/-- An outer join with at most one match keeps the rows of the left side. -/
lemma map_fst_leftJoin (h : ∀ a ∈ l, (r.filter (on a)).length ≤ 1) :
    (leftJoin on l r).map Prod.fst = l := by
  unfold leftJoin
  induction l with
  | nil => rfl
  | cons a l ih =>
    have ha := h a List.mem_cons_self
    rw [List.flatMap_cons, List.map_append, ih fun a ha => h a (List.mem_cons_of_mem _ ha)]
    cases hr : r.filter (on a) with
    | nil => rfl
    | cons b bs =>
      rw [hr, List.length_cons, Nat.succ_le_succ_iff, Nat.le_zero, List.length_eq_zero_iff] at ha
      rw [ha]
      rfl

/-- What tells the rows of the left side apart tells those of the join apart. -/
lemma nodup_join {f : α → γ} (h : ∀ a, (r.filter (on a)).length ≤ 1) (hl : (l.map f).Nodup) :
    ((join on l r).map fun q => f q.1).Nodup := by
  have hrows := hl.sublist ((map_fst_join_sublist (l := l) h).map f)
  rwa [List.map_map] at hrows

lemma nodup_leftJoin {f : α → γ} (h : ∀ a, (r.filter (on a)).length ≤ 1) (hl : (l.map f).Nodup) :
    ((leftJoin on l r).map fun q => f q.1).Nodup := by
  rw [← map_fst_leftJoin (l := l) fun a _ => h a, List.map_map] at hl
  exact hl

/-- `FILTER`, on a condition about the right side. -/
lemma filter_snd_leftJoin (p : β → Bool) (f : β → γ) :
    (((leftJoin on l r).filter fun q => q.2.any p).map fun q => q.2.map f).reduceOption =
      ((l.flatMap fun a => r.filter (on a)).filter p).map f := by
  unfold leftJoin
  induction l with
  | nil => rfl
  | cons a l ih =>
    rw [List.flatMap_cons, List.filter_append, List.map_append, List.reduceOption_append, ih,
      List.flatMap_cons, List.filter_append, List.map_append]
    congr 1
    cases r.filter (on a) with
    | nil => rfl
    | cons b bs =>
      simp only [List.filter_map, Function.comp_def, Option.any_some, List.map_map,
        Option.map_some]
      exact reduceOption_map_some f _

/-- What an aggregate over the right side sees. -/
lemma reduceOption_leftJoin (f : β → γ) :
    ((leftJoin on l r).map fun q => q.2.map f).reduceOption =
      (l.flatMap fun a => r.filter (on a)).map f := by
  unfold leftJoin
  induction l with
  | nil => rfl
  | cons a l ih =>
    rw [List.flatMap_cons, List.map_append, List.reduceOption_append, ih, List.flatMap_cons,
      List.map_append]
    congr 1
    cases r.filter (on a) with
    | nil => rfl
    | cons b bs =>
      simp only [List.map_map, Function.comp_def, Option.map_some]
      exact reduceOption_map_some f (b :: bs)

/-- A null on the right side stands for a row without a match. -/
lemma mem_leftJoin_none {a : α} :
    (a, none) ∈ leftJoin on l r ↔ a ∈ l ∧ ∀ b ∈ r, on a b = false := by
  unfold leftJoin
  rw [List.mem_flatMap]
  constructor
  · rintro ⟨a', ha', hmem⟩
    cases hr : r.filter (on a') with
    | nil =>
      rw [hr] at hmem
      cases List.mem_singleton.mp hmem
      refine ⟨ha', fun b hb => ?_⟩
      simpa using List.filter_eq_nil_iff.mp hr b hb
    | cons b bs =>
      rw [hr] at hmem
      obtain ⟨c, -, hc⟩ := List.mem_map.mp hmem
      cases hc
  · rintro ⟨ha, hnone⟩
    refine ⟨a, ha, ?_⟩
    have hr : r.filter (on a) = [] := by
      rw [List.filter_eq_nil_iff]
      intro b hb
      rw [hnone b hb]
      exact Bool.false_ne_true
    rw [hr]
    exact List.mem_singleton_self _

end join

/-! ### Groups -/

section group

variable [DecidableEq κ] (key : α → κ) (rows : List α)

/-- `GROUP BY key`: each key with its rows. -/
def groupBy : List (κ × List α) :=
  ((rows.map key).dedup).map fun k => (k, rows.filter fun a => key a = k)

/-- The groups are those of the rows. -/
lemma forall_mem_groupBy {p : κ → List α → Prop} :
    (∀ g ∈ groupBy key rows, p g.1 g.2) ↔
      ∀ a ∈ rows, p (key a) (rows.filter fun b => key b = key a) := by
  unfold groupBy
  simp only [List.mem_map, List.mem_dedup]
  constructor
  · intro h a ha
    exact h _ ⟨key a, ⟨a, ha, rfl⟩, rfl⟩
  · rintro h g ⟨k, ⟨a, ha, rfl⟩, rfl⟩
    exact h a ha

/-- `GROUP BY key HAVING p`. -/
def groupByHaving (p : κ → List α → Truth) : List (κ × List α) :=
  (groupBy key rows).filter fun g => decide (p g.1 g.2).holds

lemma groupByHaving_eq_nil {p : κ → List α → Truth} :
    groupByHaving key rows p = [] ↔
      ∀ a ∈ rows, ¬ (p (key a) (rows.filter fun b => key b = key a)).holds := by
  unfold groupByHaving
  rw [List.filter_eq_nil_iff,
    ← forall_mem_groupBy (p := fun k g => ¬ (p k g).holds)]
  simp

/-- No row of the left side whose group meets the condition. -/
lemma groupByHaving_leftJoin_eq_nil (key : α → κ) {on : α → β → Bool} {l : List α} {r : List β}
    {p : κ → List (α × Option β) → Truth} :
    groupByHaving (fun q => key q.1) (leftJoin on l r) p = [] ↔
      ∀ a ∈ l, ¬ (p (key a) (leftJoin on (l.filter fun b => key b = key a) r)).holds := by
  rw [groupByHaving_eq_nil]
  constructor
  · intro h a ha
    have hfst : a ∈ (leftJoin on l r).map Prod.fst := mem_fst_leftJoin.mpr ha
    obtain ⟨q, hq, rfl⟩ := List.mem_map.mp hfst
    rw [← filter_leftJoin]
    exact h q hq
  · intro h q hq
    rw [filter_leftJoin fun b => decide (key b = key q.1)]
    exact h q.1 (mem_fst_leftJoin.mp (List.mem_map_of_mem hq))

omit [DecidableEq κ] in
/-- A finer key. -/
lemma nodup_map_of_comp {key : α → κ} (f : κ → γ) {rows : List α}
    (h : (rows.map fun a => f (key a)).Nodup) : (rows.map key).Nodup := by
  rw [show (fun a => f (key a)) = f ∘ key from rfl, ← List.map_map] at h
  exact h.of_map f

/-- Where the keys are different every group is one row. -/
lemma filter_eq_singleton {key : α → κ} {rows : List α} (h : (rows.map key).Nodup) {a : α}
    (ha : a ∈ rows) : (rows.filter fun b => key b = key a) = [a] := by
  induction rows with
  | nil => cases ha
  | cons b rows ih =>
    rw [List.map_cons, List.nodup_cons] at h
    rcases List.mem_cons.mp ha with rfl | ha
    · have hnone : (rows.filter fun b => key b = key a) = [] := by
        rw [List.filter_eq_nil_iff]
        intro c hc
        rw [decide_eq_true_eq]
        exact fun he => h.1 (he ▸ List.mem_map_of_mem hc)
      rw [List.filter_cons_of_pos (by simp), hnone]
    · have hne : key b ≠ key a := fun he => h.1 (he ▸ List.mem_map_of_mem ha)
      rw [List.filter_cons_of_neg (by simpa using hne), ih h.2 ha]

/-- Where they are not, some group has two. -/
lemma exists_two_le_length {key : α → κ} {rows : List α} (h : ¬ (rows.map key).Nodup) :
    ∃ a ∈ rows, 2 ≤ (rows.filter fun b => key b = key a).length := by
  rw [List.nodup_iff_count_le_one, not_forall] at h
  obtain ⟨k, hk⟩ := h
  have hmem : k ∈ rows.map key := List.count_pos_iff.mp (by omega)
  obtain ⟨a, ha, rfl⟩ := List.mem_map.mp hmem
  refine ⟨a, ha, ?_⟩
  rw [List.count, List.countP_map, List.countP_eq_length_filter] at hk
  have hsame : (fun b => decide (key b = key a)) = ((fun b => b == key a) ∘ key) := by
    funext b
    by_cases hb : key b = key a <;> simp [hb]
  rw [hsame]
  omega

end group

end Sql
