import TakaFlow.Lib.Soundness
import Mathlib.Logic.Relation

/-!
# The wait-for graph

Sessions wait for tokens that other sessions hold. Where every session only waits for tokens above
those it holds, nobody waits for itself, not even through others.
-/

namespace Txn

variable {σ τ δ ι η ε α κ : Type} [DecidableEq τ]

namespace Sys

variable (s : Sys σ τ δ ι η ε α κ)

/-- The token that the next statement of session `i` waits for. -/
def blockedOn (i : ℕ) (x : ι) : Option τ :=
  match s.sessions[i]? with
  | some ⟨_, c, .running (.query q _)⟩ =>
    match q c.now x (c.write s.db) (s.takenByOthers i) with
    | .blocked l => if c.aborted then none else some l
    | _ => none
  | _ => none

/-- Session `i` waits for a token that session `j` holds. -/
def WaitsFor (i j : ℕ) : Prop :=
  ∃ x l y, s.blockedOn i x = some l ∧ j ≠ i ∧ s.sessions[j]? = some y ∧ l ∈ y.ctx.tokens

end Sys

variable {s : Sys σ τ δ ι η ε α κ} {D : Discipline σ τ}
  {post : κ → ℕ → α → List η → σ → σ → Prop} {d₀ : σ} [Driver δ]

/-- A session waits as the discipline allows. -/
lemma Sys.Inv.mayWait (h : s.Inv D post d₀) {i : ℕ} {x : ι} {l : τ}
    (hl : s.blockedOn i x = some l) :
    ∃ y, s.sessions[i]? = some y ∧ D.mayWait y.ctx.tokens l := by
  unfold Sys.blockedOn at hl
  split at hl
  · rename_i call c ρ q k hi
    refine ⟨_, hi, ?_⟩
    have hrun := (h.sessions i _ hi).2.2
    split at hl
    · rename_i heq
      cases ha : c.aborted with
      | true =>
        rw [ha] at hl
        cases hl
      | false =>
        rw [ha] at hl
        cases hl
        have hx := (hrun s.db Discipline.rely_refl).2 ha x (s.takenByOthers i) (h.own hi)
        simp only [heq] at hx
        exact hx
    · cases hl
  · cases hl

/-- The rank of what is held grows along the graph. -/
lemma Sys.Inv.rank_lt (h : s.Inv D post d₀) {rank : τ → Option ℕ}
    (hrank : ∀ held l, D.mayWait held l →
      ∃ n, rank l = some n ∧ ∀ x ∈ held, ∀ m, rank x = some m → m < n)
    {i j : ℕ} (hij : Relation.TransGen s.WaitsFor i j) :
    ∃ n x y l, s.sessions[i]? = some x ∧ (∀ l' ∈ x.ctx.tokens, ∀ m, rank l' = some m → m < n) ∧
      s.sessions[j]? = some y ∧ l ∈ y.ctx.tokens ∧ rank l = some n := by
  induction hij with
  | single hij =>
    obtain ⟨input, l, y, hblocked, -, hj, hheld⟩ := hij
    obtain ⟨x, hi, hwait⟩ := h.mayWait hblocked
    obtain ⟨n, hn, hbelow⟩ := hrank _ _ hwait
    exact ⟨n, x, y, l, hi, hbelow, hj, hheld, hn⟩
  | tail _ hjk ih =>
    obtain ⟨n, x, y, l, hi, hbelow, hj, hheld, hn⟩ := ih
    obtain ⟨input, l', z, hblocked, -, hk, hheld'⟩ := hjk
    obtain ⟨y', hj', hwait⟩ := h.mayWait hblocked
    obtain ⟨n', hn', hbelow'⟩ := hrank _ _ hwait
    rw [hj] at hj'
    cases hj'
    have hlt := hbelow' l hheld n hn
    exact ⟨n', x, z, l', hi, fun u hu m hm => Nat.lt_trans (hbelow u hu m hm) hlt, hk, hheld', hn'⟩

/-- The graph has no cycle. -/
theorem Sys.Inv.waitsFor_acyclic (h : s.Inv D post d₀) (rank : τ → Option ℕ)
    (hrank : ∀ held l, D.mayWait held l →
      ∃ n, rank l = some n ∧ ∀ x ∈ held, ∀ m, rank x = some m → m < n) (i : ℕ) :
    ¬ Relation.TransGen s.WaitsFor i i := by
  intro hii
  obtain ⟨n, x, y, l, hi, hbelow, hi', hheld, hn⟩ := h.rank_lt hrank hii
  rw [hi] at hi'
  cases hi'
  exact Nat.lt_irrefl n (hbelow l hheld n hn)

end Txn
