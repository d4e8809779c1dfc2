import TakaFlow.Lib.WaitsFor
import TakaFlow.Spec.System

/-!
# No deadlock

Locks are waited for in one order: keys and phone numbers, the advisory lock of a sender, the row
an operation is about, its occurrence, and then the accounts by their identifiers.
-/

namespace TakaFlow

open Txn

/-- In no reachable state does a session wait, through any number of others, for itself. -/
theorem waits_acyclic {P : Platform} {s : State} (h : Reachable P s) (i : ℕ) :
    ¬ Relation.TransGen s.WaitsFor i i :=
  h.sound.waitsFor_acyclic Token.rank (fun _ _ hwait => hwait) i

/-- Two payments under one key: the second waits for the first, which is about to commit. -/
def duplicateRun : List Step :=
  session 0 100 asha ++ session 1 200 babu ++
    .begin (.sendMoney 100 "k" ⟨"01722222222", 2500, none⟩ .null {}) :: advance 2 5 300 ++
    .begin (.sendMoney 100 "k" ⟨"01722222222", 2500, none⟩ .null {}) :: advance 3 5 400

theorem waits_acyclic_duplicate :
    (State.after sample duplicateRun).WaitsFor 3 2 ∧
      ¬ Relation.TransGen (State.after sample duplicateRun).WaitsFor 2 2 := by
  constructor
  · have hheld : ((State.after sample duplicateRun).sessions[2]?.any fun y =>
        decide (Token.idempotencyKey 100 "k" ∈ y.ctx.tokens)) = true := by decide +kernel
    obtain ⟨y, hy, hl⟩ := (Option.any_eq_true _ _).mp hheld
    exact ⟨drawn 0, .idempotencyKey 100 "k", y, by decide +kernel, by decide, hy,
      of_decide_eq_true hl⟩
  · exact waits_acyclic (reachable_after sample duplicateRun) 2

end TakaFlow
