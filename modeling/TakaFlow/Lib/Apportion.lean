import Mathlib.Algebra.BigOperators.Fin
import Mathlib.Algebra.Order.BigOperators.Group.Finset
import Mathlib.Data.Fintype.Card
import Mathlib.Order.Interval.Finset.Fin
import Mathlib.Tactic.Linarith

/-!
# Apportionment by largest remainders

A total is divided in proportion to quotas. Everyone gets the whole part of their quota, and what
is left over goes, one unit each, to those with the largest remainders; the earlier one is preferred
where remainders are equal.
-/

namespace Apportion

/-! ### Places in an order -/

section

variable {α : Type} {before : α → α → Bool} {l : List α} {a : α}

/-- The first elements of a list in order are those with few others before them. -/
lemma mem_take_iff (hirrefl : ∀ a, before a a = false)
    (hasymm : ∀ a b, before a b = true → before b a = false)
    (h : l.Pairwise fun a b => before a b = true) (ha : a ∈ l) (k : ℕ) :
    a ∈ l.take k ↔ l.countP (fun b => before b a) < k := by
  induction l generalizing k with
  | nil => cases ha
  | cons b l ih =>
    obtain ⟨hb, hl⟩ := List.pairwise_cons.mp h
    cases k with
    | zero => simp
    | succ k =>
      rw [List.take_succ_cons, List.mem_cons]
      obtain rfl | ha := List.mem_cons.mp ha
      · have hnone : (a :: l).countP (fun b => before b a) = 0 := by
          rw [List.countP_eq_zero]
          intro c hc
          obtain rfl | hc := List.mem_cons.mp hc
          · rw [hirrefl]
            exact Bool.false_ne_true
          · rw [hasymm a c (hb c hc)]
            exact Bool.false_ne_true
        rw [hnone]
        exact iff_of_true (.inl rfl) k.succ_pos
      · have hne : a ≠ b := by
          intro heq
          have hself := hb a ha
          rw [heq, hirrefl] at hself
          cases hself
        have hcount : (b :: l).countP (fun b => before b a) =
            l.countP (fun b => before b a) + 1 := List.countP_cons_of_pos (hb a ha)
        rw [hcount, Nat.succ_lt_succ_iff, ← ih hl ha]
        exact or_iff_right hne

end

/-! ### Shares -/

variable {ι : Type} [Fintype ι] [LinearOrder ι] (x : ι → ℤ) (W total : ℤ)

/-- `j` has the larger remainder, or the same one and comes first. -/
def Ahead (j i : ι) : Prop := x i % W < x j % W ∨ x j % W = x i % W ∧ j < i

instance (j i : ι) : Decidable (Ahead x W j i) := inferInstanceAs (Decidable (_ ∨ _))

def rank (i : ι) : ℕ := (Finset.univ.filter fun j => Ahead x W j i).card

def leftover : ℤ := total - ∑ i, x i / W

def share (i : ι) : ℤ := x i / W + if (rank x W i : ℤ) < leftover x W total then 1 else 0

variable {x W total} {i j k : ι}

omit [Fintype ι] in
lemma Ahead.irrefl (i : ι) : ¬ Ahead x W i i := by
  rintro (h | ⟨-, h⟩)
  · exact lt_irrefl _ h
  · exact lt_irrefl _ h

omit [Fintype ι] in
lemma Ahead.trans (hij : Ahead x W i j) (hjk : Ahead x W j k) : Ahead x W i k := by
  rcases hij with hij | ⟨hij, hlt⟩
  · rcases hjk with hjk | ⟨hjk, -⟩
    · exact .inl (hjk.trans hij)
    · exact .inl (hjk ▸ hij)
  · rcases hjk with hjk | ⟨hjk, hlt'⟩
    · exact .inl (hij ▸ hjk)
    · exact .inr ⟨hij.trans hjk, hlt.trans hlt'⟩

omit [Fintype ι] in
lemma Ahead.connected (h : i ≠ j) : Ahead x W i j ∨ Ahead x W j i := by
  rcases lt_trichotomy (x i % W) (x j % W) with hlt | heq | hgt
  · exact .inr (.inl hlt)
  · rcases lt_or_gt_of_ne h with hlt | hgt
    · exact .inl (.inr ⟨heq, hlt⟩)
    · exact .inr (.inr ⟨heq.symm, hgt⟩)
  · exact .inl (.inl hgt)

/-! ### Ranks -/

lemma Ahead.rank_lt (h : Ahead x W i j) : rank x W i < rank x W j := by
  refine Finset.card_lt_card ⟨fun k hk => ?_, fun hsub => ?_⟩
  · rw [Finset.mem_filter] at hk ⊢
    exact ⟨hk.1, hk.2.trans h⟩
  · have hi := hsub (Finset.mem_filter.mpr ⟨Finset.mem_univ i, h⟩)
    exact Ahead.irrefl i (Finset.mem_filter.mp hi).2

lemma rank_injective : Function.Injective (rank x W) := by
  intro i j h
  by_contra hne
  rcases Ahead.connected (x := x) (W := W) hne with hahead | hahead
  · exact hahead.rank_lt.ne h
  · exact hahead.rank_lt.ne h.symm

lemma rank_lt_card (i : ι) : rank x W i < Fintype.card ι := by
  refine Finset.card_lt_card ⟨Finset.filter_subset _ _, fun hsub => ?_⟩
  exact Ahead.irrefl i (Finset.mem_filter.mp (hsub (Finset.mem_univ i))).2

/-- Ranks are the numbers from zero on. -/
lemma card_rank_lt {n : ℕ} (h : n ≤ Fintype.card ι) :
    (Finset.univ.filter fun i => rank x W i < n).card = n := by
  have himage : Finset.univ.image (rank x W) = Finset.range (Fintype.card ι) := by
    refine Finset.eq_of_subset_of_card_le (fun m hm => ?_) ?_
    · obtain ⟨i, -, rfl⟩ := Finset.mem_image.mp hm
      exact Finset.mem_range.mpr (rank_lt_card i)
    · rw [Finset.card_image_of_injective _ rank_injective, Finset.card_range]
      exact le_refl _
  have hfilter : (Finset.univ.filter fun i => rank x W i < n).image (rank x W) =
      Finset.range n := by
    have hswap := Finset.filter_image (f := rank x W) (s := Finset.univ) (p := fun m => m < n)
    rw [← hswap, himage]
    ext m
    rw [Finset.mem_filter, Finset.mem_range, Finset.mem_range]
    exact ⟨And.right, fun hm => ⟨hm.trans_le h, hm⟩⟩
  rw [← Finset.card_image_of_injective _ rank_injective, hfilter, Finset.card_range]

/-! ### What is left over -/

section

variable (hW : 0 < W) (hx : ∑ i, x i = total * W)

omit [LinearOrder ι] in
include hx in
/-- What is left over is what the remainders add up to. -/
lemma leftover_mul : leftover x W total * W = ∑ i, x i % W := by
  have hsplit : ∑ i, x i = (∑ i, x i / W) * W + ∑ i, x i % W := by
    rw [Finset.sum_mul, ← Finset.sum_add_distrib]
    exact Finset.sum_congr rfl fun i _ => (Int.ediv_mul_add_emod (x i) W).symm
  rw [leftover, sub_mul]
  linarith

omit [LinearOrder ι] in
include hW hx in
lemma leftover_nonneg : 0 ≤ leftover x W total := by
  have hsum : 0 ≤ leftover x W total * W := by
    rw [leftover_mul hx]
    exact Finset.sum_nonneg fun i _ => Int.emod_nonneg _ hW.ne'
  exact nonneg_of_mul_nonneg_left hsum hW

omit [LinearOrder ι] in
include hW hx in
/-- No more is left over than there are remainders. -/
lemma leftover_le :
    leftover x W total ≤ (Finset.univ.filter fun i => 0 < x i % W).card := by
  have hbound : ∑ i, x i % W ≤ ∑ i, if 0 < x i % W then W else 0 := by
    refine Finset.sum_le_sum fun i _ => ?_
    split
    · exact (Int.emod_lt_of_pos _ hW).le
    · rename_i hzero
      exact not_lt.mp hzero
  rw [← leftover_mul hx, ← Finset.sum_filter, Finset.sum_const, nsmul_eq_mul] at hbound
  exact le_of_mul_le_mul_right hbound hW

include hW hx in
/-- Only remainders are rounded up. -/
lemma remainder_pos (h : (rank x W i : ℤ) < leftover x W total) : 0 < x i % W := by
  refine lt_of_le_of_ne (Int.emod_nonneg _ hW.ne') fun hzero => ?_
  have hahead : (Finset.univ.filter fun j => 0 < x j % W) ⊆
      Finset.univ.filter fun j => Ahead x W j i := by
    intro j hj
    rw [Finset.mem_filter] at hj ⊢
    exact ⟨hj.1, .inl (hzero ▸ hj.2)⟩
  have hcard := Finset.card_le_card hahead
  have hle := leftover_le hW hx
  unfold rank at h
  omega

/-! ### The guarantees -/

include hW hx in
/-- Nothing is lost and nothing is invented. -/
theorem sum_share : ∑ i, share x W total i = total := by
  have hnonneg := leftover_nonneg hW hx
  have hle : (leftover x W total).toNat ≤ Fintype.card ι := by
    have hle := leftover_le hW hx
    have hcard := Finset.card_filter_le Finset.univ fun i => 0 < x i % W
    rw [Finset.card_univ] at hcard
    omega
  have hfilter : (Finset.univ.filter fun i => (rank x W i : ℤ) < leftover x W total) =
      Finset.univ.filter fun i => rank x W i < (leftover x W total).toNat :=
    Finset.filter_congr fun i _ => by omega
  simp only [share]
  rw [Finset.sum_add_distrib, ← Finset.sum_filter, Finset.sum_const, hfilter, card_rank_lt hle,
    nsmul_eq_mul, mul_one, Int.toNat_of_nonneg hnonneg, leftover]
  exact add_sub_cancel _ _

lemma share_eq_or (i : ι) : share x W total i = x i / W ∨ share x W total i = x i / W + 1 := by
  unfold share
  split
  · exact .inr rfl
  · exact .inl (add_zero _)

/-- The units left over go to those who are ahead. -/
lemma share_eq_succ_iff :
    share x W total i = x i / W + 1 ↔ (rank x W i : ℤ) < leftover x W total := by
  unfold share
  split
  · exact iff_of_true rfl ‹_›
  · exact iff_of_false (by omega) ‹_›

include hW hx in
lemma share_of_zero (h : x i = 0) : share x W total i = 0 := by
  have hrank : ¬ (rank x W i : ℤ) < leftover x W total := by
    intro hlt
    have hpos := remainder_pos hW hx hlt
    rw [h, Int.zero_emod] at hpos
    exact lt_irrefl _ hpos
  rw [share, if_neg hrank, h, Int.zero_ediv, add_zero]

lemma share_le_of_ahead (hdiv : x i / W = x j / W) (h : Ahead x W j i) :
    share x W total i ≤ share x W total j := by
  have hrank := h.rank_lt
  unfold share
  split <;> split <;> omega

include hW in
/-- A larger quota has no smaller share. -/
theorem share_mono (h : x i < x j) : share x W total i ≤ share x W total j := by
  rcases (Int.ediv_le_ediv hW h.le).lt_or_eq with hdiv | hdiv
  · have hi : share x W total i = x i / W ∨ share x W total i = x i / W + 1 := share_eq_or i
    have hj : share x W total j = x j / W ∨ share x W total j = x j / W + 1 := share_eq_or j
    omega
  · refine share_le_of_ahead hdiv (.inl ?_)
    have hi := Int.ediv_mul_add_emod (x i) W
    have hj := Int.ediv_mul_add_emod (x j) W
    rw [← hdiv] at hj
    omega

/-- Of two equal quotas the earlier one gets at most one unit more. -/
theorem share_of_eq (h : x i = x j) (hij : i < j) :
    share x W total j ≤ share x W total i ∧ share x W total i ≤ share x W total j + 1 := by
  refine ⟨share_le_of_ahead (by rw [h]) (.inr ⟨by rw [h], hij⟩), ?_⟩
  unfold share
  rw [h]
  split <;> split <;> omega

end

/-! ### Equal quotas -/

section

variable {n : ℕ} {x : Fin n → ℤ} {W total c : ℤ}

lemma rank_of_const (h : ∀ i, x i = c) (i : Fin n) : rank x W i = i := by
  have hfilter : (Finset.univ.filter fun j => Ahead x W j i) = Finset.Iio i := by
    ext j
    rw [Finset.mem_filter, Finset.mem_Iio, Ahead, h i, h j]
    simp
  rw [rank, hfilter, Fin.card_Iio]

/-- The first ones get one more. -/
theorem share_of_const (h : ∀ i, x i = c) (i : Fin n) :
    share x W total i = c / W + if (i : ℤ) < total - n * (c / W) then 1 else 0 := by
  have hsum : ∑ j, x j / W = n * (c / W) := by
    rw [Finset.sum_congr rfl fun j _ => congrArg (· / W) (h j), Finset.sum_const, nsmul_eq_mul,
      Finset.card_univ, Fintype.card_fin]
  rw [share, h i, rank_of_const h, leftover, hsum]

end

end Apportion
