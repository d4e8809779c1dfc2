import Mathlib.Data.List.Basic

/-!
# Runs of a step function

A machine moves from state to state on events; some events cannot happen in some states.
-/

namespace Machine

universe u v

variable {σ : Type u} {ε : Type v} (next : σ → ε → Option σ)

/-- The states reached from a state by events that all meet a condition. -/
inductive Reached (ok : σ → ε → Prop) (s₀ : σ) : σ → Prop where
  | start : Reached ok s₀ s₀
  | next {s s' : σ} {e : ε} (h : Reached ok s₀ s) (hok : ok s e) (hs : next s e = some s') :
      Reached ok s₀ s'

/-- Run a list of events, without those that cannot happen and those that are not allowed. -/
def play (allowed : σ → ε → Bool) (s : σ) : List ε → σ
  | [] => s
  | e :: es => play allowed (if allowed s e then (next s e).getD s else s) es

namespace Reached

variable {next} {ok : σ → ε → Prop} {s₀ s : σ}

/-- What holds at first and every step preserves holds throughout. -/
lemma invariant {I : σ → Prop} (h₀ : I s₀)
    (hstep : ∀ s e s', I s → ok s e → next s e = some s' → I s')
    (h : Reached next ok s₀ s) : I s := by
  induction h with
  | start => exact h₀
  | next _ hok hs ih => exact hstep _ _ _ ih hok hs

/-- A list of events leads to a reached state. -/
lemma play {allowed : σ → ε → Bool} (hok : ∀ s e, allowed s e = true → ok s e) (es : List ε)
    (h : Reached next ok s₀ s) : Reached next ok s₀ (Machine.play next allowed s es) := by
  induction es generalizing s with
  | nil => exact h
  | cons e es ih =>
    refine ih ?_
    split
    · cases hs : next s e with
      | none => exact h
      | some s' => exact .next h (hok s e ‹_›) hs
    · exact h

end Reached

end Machine
