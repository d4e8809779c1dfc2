import Mathlib.Data.List.FinRange
import TakaFlow.Lib.Apportion
import TakaFlow.Splits

/-!
# Fair splits

A split by weights is an apportionment by largest remainders, and an even split is one between
equal weights.
-/

namespace TakaFlow

open Apportion

/-! ### Handing out -/

/-- The first positions get a unit each. -/
lemma getElem?_handOut {is : List ℕ} (his : is.Nodup) (leftover : ℤ) (shares : List ℤ) (i : ℕ) :
    (handOut is leftover shares)[i]? =
      shares[i]?.map fun s => if i ∈ is.take leftover.toNat then s + 1 else s := by
  induction is generalizing leftover shares with
  | nil => simp [handOut]
  | cons j is ih =>
    obtain ⟨hj, his⟩ := List.nodup_cons.mp his
    rw [handOut]
    split
    · rename_i hle
      rw [Int.toNat_of_nonpos hle, List.take_zero]
      simp
    · rename_i hpos
      have hsucc : leftover.toNat = (leftover - 1).toNat + 1 := by omega
      rw [ih his, List.getElem?_modify, hsucc, List.take_succ_cons, Option.map_eq_map,
        Option.map_map]
      congr 1
      funext s
      by_cases hij : j = i
      · subst hij
        have hnot : j ∉ is.take (leftover - 1).toNat := fun h => hj (List.mem_of_mem_take h)
        simpa using hnot
      · simp [hij, Ne.symm hij]

/-! ### The order of the remainders -/

/-- A larger remainder, or the same one at an earlier position. -/
def precedes (a b : ℤ × ℕ) : Bool := decide (b.1 < a.1 ∨ a.1 = b.1 ∧ a.2 < b.2)

lemma precedes_irrefl (a : ℤ × ℕ) : precedes a a = false := by
  simp [precedes]

lemma precedes_asymm (a b : ℤ × ℕ) (h : precedes a b = true) : precedes b a = false := by
  simp only [precedes, decide_eq_true_eq, decide_eq_false_iff_not] at h ⊢
  omega

/-- The comparison of `remainders.sort`. -/
abbrev remaindersFirst (a b : ℤ × ℕ) : Prop := if a.1 = b.1 then a.2 ≤ b.2 else b.1 < a.1

lemma pairwise_precedes {l : List (ℤ × ℕ)} (h : l.Nodup) :
    (l.insertionSort remaindersFirst).Pairwise fun a b => precedes a b = true := by
  have : Std.Total remaindersFirst := ⟨fun a b => by
    unfold remaindersFirst
    split <;> split <;> omega⟩
  have : IsTrans (ℤ × ℕ) remaindersFirst := ⟨fun a b c => by
    unfold remaindersFirst
    split <;> split <;> split <;> omega⟩
  have hsorted := List.pairwise_insertionSort remaindersFirst l
  have hnodup := (List.perm_insertionSort remaindersFirst l).nodup_iff.mpr h
  refine hsorted.imp₂ (fun a b hab hne => ?_) hnodup
  have hne : a.1 = b.1 → a.2 ≠ b.2 := fun h₁ h₂ => hne (Prod.ext h₁ h₂)
  unfold remaindersFirst at hab
  unfold precedes
  split at hab <;> simp only [decide_eq_true_eq] <;> omega

/-! ### Splits by weight are apportionments -/

section

variable (totalMinor : ℤ) (weights : List ℤ)

/-- What each weight is worth, times the sum of the weights. -/
def quota (i : Fin weights.length) : ℤ := totalMinor * weights[i]

lemma sum_quota : ∑ i, quota totalMinor weights i = totalMinor * weights.sum := by
  simp only [quota]
  rw [← Finset.mul_sum]
  exact congrArg (totalMinor * ·) (Fin.sum_univ_getElem weights)

lemma map_div_eq : (weights.map fun w => totalMinor * w / weights.sum) =
    List.ofFn fun i => quota totalMinor weights i / weights.sum := by
  refine List.ext_getElem (by simp) fun i h₁ h₂ => ?_
  rw [List.getElem_map, List.getElem_ofFn]
  rfl

lemma zipIdx_eq_map : weights.zipIdx =
    (List.finRange weights.length).map fun i => (weights[i], i.val) := by
  refine List.ext_getElem (by simp) fun i h₁ h₂ => ?_
  simp

lemma card_filter_eq_countP {n : ℕ} (p : Fin n → Prop) [DecidablePred p] :
    (Finset.univ.filter p).card = (List.finRange n).countP fun i => decide (p i) := by
  rw [List.countP_eq_length_filter]
  rfl

/-- The remainder of the weight at a position. -/
def remainderAt (i : Fin weights.length) : ℤ × ℕ :=
  (quota totalMinor weights i % weights.sum, i.val)

/-- The remainders, each with its position. -/
lemma remainders_eq (h : 0 ≤ totalMinor) (hweights : ∀ w ∈ weights, 0 ≤ w) :
    (weights.zipIdx.map fun w => ((totalMinor * w.1).tmod weights.sum, w.2)) =
      (List.finRange weights.length).map (remainderAt totalMinor weights) := by
  rw [zipIdx_eq_map, List.map_map]
  refine List.map_congr_left fun i _ => ?_
  have hw := hweights weights[i] (List.getElem_mem _)
  exact Prod.ext (Int.tmod_eq_emod_of_nonneg (Int.mul_nonneg h hw)) rfl

/-- How many remainders go before that of the weight at a position. -/
def remaindersAhead (i : ℕ) (w : ℤ) : ℕ :=
  weights.zipIdx.countP fun v =>
    precedes (totalMinor * v.1 % weights.sum, v.2) (totalMinor * w % weights.sum, i)

lemma rank_quota (i : Fin weights.length) :
    rank (quota totalMinor weights) weights.sum i =
      remaindersAhead totalMinor weights i weights[i] := by
  rw [rank, card_filter_eq_countP, remaindersAhead, zipIdx_eq_map, List.countP_map]
  rfl

variable {totalMinor weights}

/-- Every position is in the order once. -/
lemma nodup_order : ((((List.finRange weights.length).map
    (remainderAt totalMinor weights)).insertionSort remaindersFirst).map Prod.snd).Nodup := by
  have hperm := (List.perm_insertionSort remaindersFirst
    ((List.finRange weights.length).map (remainderAt totalMinor weights))).map Prod.snd
  rw [hperm.nodup_iff, List.map_map]
  exact (List.nodup_finRange _).map Fin.val_injective

variable (totalMinor) in
/-- The positions that get one more. -/
lemma mem_order_iff (i : Fin weights.length) (k : ℕ) :
    i.val ∈ ((((List.finRange weights.length).map
        (remainderAt totalMinor weights)).insertionSort remaindersFirst).map Prod.snd).take k ↔
      rank (quota totalMinor weights) weights.sum i < k := by
  generalize hl : (List.finRange weights.length).map (remainderAt totalMinor weights) = l
  have hnodup : l.Nodup := by
    rw [← hl]
    refine (List.nodup_finRange _).map fun a b hab => ?_
    exact Fin.ext (congrArg Prod.snd hab)
  have hperm := List.perm_insertionSort remaindersFirst l
  have hmem : remainderAt totalMinor weights i ∈ l.insertionSort remaindersFirst := by
    rw [hperm.mem_iff, ← hl]
    exact List.mem_map_of_mem (List.mem_finRange i)
  have htake := mem_take_iff precedes_irrefl precedes_asymm (pairwise_precedes hnodup) hmem k
  have hcount : (l.insertionSort remaindersFirst).countP
      (fun b => precedes b (remainderAt totalMinor weights i)) =
        rank (quota totalMinor weights) weights.sum i := by
    rw [hperm.countP_eq, ← hl, List.countP_map, rank, card_filter_eq_countP]
    rfl
  rw [← hcount, ← htake, ← List.map_take, List.mem_map]
  constructor
  · rintro ⟨a, ha, hai⟩
    have hal := hperm.mem_iff.mp (List.mem_of_mem_take ha)
    rw [← hl] at hal
    obtain ⟨j, -, rfl⟩ := List.mem_map.mp hal
    cases Fin.ext hai
    exact ha
  · exact fun h => ⟨_, h, rfl⟩

lemma allocateByWeight_eq (h : 0 ≤ totalMinor) (hweights : ∀ w ∈ weights, 0 ≤ w)
    (hsum : 0 < weights.sum) : allocateByWeight totalMinor weights =
      .ok (List.ofFn (share (quota totalMinor weights) weights.sum totalMinor)) := by
  have hne : weights ≠ [] := by
    rintro rfl
    exact lt_irrefl _ hsum
  have hany : weights.any (· < 0) = false := by
    rw [List.any_eq_false]
    intro w hw
    rw [decide_eq_true_eq]
    exact (hweights w hw).not_gt
  have hshares : (weights.map fun w => (totalMinor * w).tdiv weights.sum) =
      List.ofFn fun i => quota totalMinor weights i / weights.sum := by
    rw [← map_div_eq]
    refine List.map_congr_left fun w hw => ?_
    exact Int.tdiv_eq_ediv_of_nonneg (Int.mul_nonneg h (hweights w hw))
  simp only [allocateByWeight, hne, hany, hsum.ne', if_false, Bool.false_eq_true]
  rw [remainders_eq totalMinor weights h hweights, hshares, List.sum_ofFn]
  refine congrArg Except.ok (List.ext_getElem? fun i => ?_)
  rw [getElem?_handOut nodup_order]
  by_cases hi : i < weights.length
  · rw [List.getElem?_eq_getElem (by simpa using hi), List.getElem?_eq_getElem (by simpa using hi),
      List.getElem_ofFn, List.getElem_ofFn, Option.map_some, Option.some_inj]
    have hmem := mem_order_iff totalMinor ⟨i, hi⟩
      (leftover (quota totalMinor weights) weights.sum totalMinor).toNat
    rw [Int.lt_toNat] at hmem
    rw [share]
    by_cases hlt : (rank (quota totalMinor weights) weights.sum ⟨i, hi⟩ : ℤ) <
      leftover (quota totalMinor weights) weights.sum totalMinor
    · rw [if_pos hlt]
      exact if_pos (hmem.mpr hlt)
    · rw [if_neg hlt, add_zero]
      exact if_neg fun hi => hlt (hmem.mp hi)
  · rw [List.getElem?_eq_none (by simpa using hi), List.getElem?_eq_none (by simpa using hi)]
    rfl

end

/-! ### The guarantee -/

/-- What is fair. -/
structure FairSplit (totalMinor : ℤ) (weights shares : List ℤ) : Prop where
  length : shares.length = weights.length
  sum : shares.sum = totalMinor
  floor {i : ℕ} {w s : ℤ} (hw : weights[i]? = some w) (hs : shares[i]? = some s) :
    s = totalMinor * w / weights.sum ∨ s = totalMinor * w / weights.sum + 1
  /-- One more for the largest remainders, as many as there are units left over. -/
  extra {i : ℕ} {w s : ℤ} (hw : weights[i]? = some w) (hs : shares[i]? = some s) :
    s = totalMinor * w / weights.sum + 1 ↔ (remaindersAhead totalMinor weights i w : ℤ) <
      totalMinor - (weights.map fun v => totalMinor * v / weights.sum).sum
  zero {i : ℕ} {s : ℤ} (hw : weights[i]? = some 0) (hs : shares[i]? = some s) : s = 0
  mono {i j : ℕ} {v w s t : ℤ} (hv : weights[i]? = some v) (hw : weights[j]? = some w)
    (hs : shares[i]? = some s) (ht : shares[j]? = some t) (h : v < w) : s ≤ t
  even {i j : ℕ} {w s t : ℤ} (hi : weights[i]? = some w) (hj : weights[j]? = some w)
    (hs : shares[i]? = some s) (ht : shares[j]? = some t) (h : i < j) : t ≤ s ∧ s ≤ t + 1

section

variable {totalMinor : ℤ} {weights : List ℤ}

lemma getElem?_share {i : ℕ} {w s : ℤ} (hw : weights[i]? = some w)
    (hs : (List.ofFn (share (quota totalMinor weights) weights.sum totalMinor))[i]? = some s) :
    ∃ h : i < weights.length, w = weights[i] ∧
      s = share (quota totalMinor weights) weights.sum totalMinor ⟨i, h⟩ := by
  obtain ⟨h, rfl⟩ := List.getElem?_eq_some_iff.mp hw
  refine ⟨h, rfl, ?_⟩
  rw [List.getElem?_ofFn, dif_pos h, Option.some_inj] at hs
  exact hs.symm

lemma fairSplit_ofFn (h : 0 ≤ totalMinor) (hsum : 0 < weights.sum) :
    FairSplit totalMinor weights
      (List.ofFn (share (quota totalMinor weights) weights.sum totalMinor)) where
  length := List.length_ofFn
  sum := by rw [List.sum_ofFn, sum_share hsum (sum_quota totalMinor weights)]
  floor hw hs := by
    obtain ⟨hi, rfl, rfl⟩ := getElem?_share hw hs
    exact share_eq_or _
  extra hw hs := by
    obtain ⟨hi, rfl, rfl⟩ := getElem?_share hw hs
    rw [map_div_eq, List.sum_ofFn]
    have hrank := rank_quota totalMinor weights ⟨_, hi⟩
    exact hrank ▸ share_eq_succ_iff
  zero hw hs := by
    obtain ⟨hi, hzero, rfl⟩ := getElem?_share hw hs
    refine share_of_zero hsum (sum_quota totalMinor weights) ?_
    exact (congrArg (totalMinor * ·) hzero.symm).trans (mul_zero _)
  mono hv hw hs ht hlt := by
    obtain ⟨hi, rfl, rfl⟩ := getElem?_share hv hs
    obtain ⟨hj, rfl, rfl⟩ := getElem?_share hw ht
    rcases h.eq_or_lt with rfl | hpos
    · have hsum' := sum_quota 0 weights
      rw [share_of_zero hsum hsum' (zero_mul _), share_of_zero hsum hsum' (zero_mul _)]
    · exact share_mono hsum (Int.mul_lt_mul_of_pos_left hlt hpos)
  even hi hj hs ht hlt := by
    obtain ⟨hi, rfl, rfl⟩ := getElem?_share hi hs
    obtain ⟨hj, heq, rfl⟩ := getElem?_share hj ht
    exact share_of_eq (congrArg (totalMinor * ·) heq) hlt

/-- Equal weights are as good as none. -/
lemma allocateByWeight_replicate {n : ℕ} {w : ℤ} (h : 0 ≤ totalMinor) (hn : 0 < n) (hw : 0 < w) :
    allocateByWeight totalMinor (List.replicate n w) = allocateEvenly totalMinor n := by
  have hn' : (0 : ℤ) < n := by exact_mod_cast hn
  have hsum : (List.replicate n w).sum = n * w := by rw [List.sum_replicate, nsmul_eq_mul]
  have hpos : 0 < (List.replicate n w).sum := hsum ▸ Int.mul_pos hn' hw
  have hweights : ∀ v ∈ List.replicate n w, 0 ≤ v := by
    intro v hv
    rw [List.eq_of_mem_replicate hv]
    exact hw.le
  have hshare : ∀ i, share (quota totalMinor (List.replicate n w)) (List.replicate n w).sum
      totalMinor i = totalMinor / n + if (i : ℤ) < totalMinor % n then 1 else 0 := by
    intro i
    have hquota : ∀ i, quota totalMinor (List.replicate n w) i = totalMinor * w := fun i =>
      congrArg (totalMinor * ·) (List.getElem_replicate _)
    have hrest : totalMinor - (List.replicate n w).length * (totalMinor / n) = totalMinor % n := by
      rw [List.length_replicate, Int.emod_def]
    rw [share_of_const hquota, hsum, Int.mul_ediv_mul_of_pos_left _ _ hw, hrest]
  have hmod := Int.emod_nonneg totalMinor hn'.ne'
  rw [allocateByWeight_eq h hweights hpos, allocateEvenly, if_neg hn.ne', if_neg h.not_gt]
  refine congrArg Except.ok (List.ext_getElem (by simp) fun i h₁ h₂ => ?_)
  rw [List.getElem_ofFn, List.getElem_map, List.getElem_range, hshare]
  by_cases hi : (i : ℤ) < totalMinor % n
  · rw [if_pos hi, if_pos (by omega)]
  · rw [if_neg hi, if_neg (by omega), add_zero]

end

/-- Splits by weight are fair, and agree with even splits where the weights are equal. -/
theorem fair_split {totalMinor : ℤ} (h : 0 ≤ totalMinor) :
    (∀ weights : List ℤ, (∀ w ∈ weights, 0 ≤ w) → 0 < weights.sum →
      ∃ shares, allocateByWeight totalMinor weights = .ok shares ∧
        FairSplit totalMinor weights shares) ∧
    ∀ (n : ℕ) (w : ℤ), 1 ≤ n → 0 < w →
      allocateByWeight totalMinor (List.replicate n w) = allocateEvenly totalMinor n :=
  ⟨fun _ hweights hsum => ⟨_, allocateByWeight_eq h hweights hsum, fairSplit_ofFn h hsum⟩,
    fun _ _ hn hw => allocateByWeight_replicate h hn hw⟩

/-- A taka between weights of one, none and five, and between three. -/
theorem fair_split_taka : (∃ shares, allocateByWeight 100 [1, 0, 5] = .ok shares ∧
      FairSplit 100 [1, 0, 5] shares) ∧
    allocateByWeight 100 (List.replicate 3 7) = allocateEvenly 100 3 :=
  ⟨(fair_split (by decide)).1 [1, 0, 5] (by decide) (by decide),
    (fair_split (by decide)).2 3 7 (by decide) (by decide)⟩

end TakaFlow
