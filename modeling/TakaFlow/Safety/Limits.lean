import TakaFlow.Spec.Pace

/-!
# The limits of a single payment

The amount of a payment is checked where it is asked for, and never again where the money moves.
One of the places that ask, `createSplit`, checks the lower limit of its legs only.
-/

namespace TakaFlow

open Txn

/-- No leg of a split that `createSplit` lets pass is above the upper limit. -/
def LegsWithin (P : Platform) : Call → Prop
  | .createSplit _ _ input _ _ => ∀ shares, Shares P input shares →
    ∀ share ∈ legShares input shares, share ≤ P.config.maxTransferMinor
  | _ => True

/-- The condition on the steps of a run. -/
def LegsWithinAt (P : Platform) (_ : State) : Step → Prop
  | .begin call => LegsWithin P call
  | _ => True

/-- Requests, schedules and payments are within the limits. -/
structure Limited (P : Platform) (d : Database) : Prop where
  requests : ∀ r ∈ d.moneyRequests, Within P r.amountMinor
  schedules : ∀ s ∈ d.schedules, Within P s.amountMinor
  transfers : ∀ t ∈ d.transfers, t.IsPayment → Within P t.amountMinor

namespace Limited

variable {P : Platform} {watched : Token → Prop} {may : ℕ → Database → Token → Prop}
  {now : Timestamp} {call : Call} {x y : Database}

lemma seed : Limited P seed := ⟨nofun, nofun, nofun⟩

/-- What `Bounded` leaves open is what the condition asks of splits. -/
lemma within {amountMinor : ℤ} (hcall : LegsWithin P call) (h : Bounded P call amountMinor) :
    Within P amountMinor := by
  rcases h with h | ⟨user, key, input, raw, context, shares, rfl, hshares, hmem⟩
  · exact h
  · exact ⟨hshares.min _ hmem, hcall shares hshares _ hmem⟩

lemma step_requests (h : Limited P x) (hstep : Performs P watched may now call x y)
    (hcall : LegsWithin P call) : ∀ r ∈ y.moneyRequests, Within P r.amountMinor := by
  intro r hr
  have hturn := hstep.turn r.id
  rw [Table.get?_of_mem hr] at hturn
  generalize hbefore : x.moneyRequests.get? r.id = before at hturn
  cases hturn with
  | same => exact h.requests r (Table.mem_of_get? hbefore)
  | created pending unsettled bounded => exact within hcall bounded
  | @ended r target reason justified pending unpaid =>
    exact h.requests r (Table.mem_of_get? hbefore)
  | @accepted r m justified pending settles => exact h.requests r (Table.mem_of_get? hbefore)

lemma step_schedules (h : Limited P x) (hstep : Performs P watched may now call x y) :
    ∀ s ∈ y.schedules, Within P s.amountMinor := by
  intro s hs
  obtain ⟨ended, hpace, -⟩ := hstep.pace s.id
  rw [Table.get?_of_mem hs] at hpace
  generalize hbefore : x.schedules.get? s.id = before at hpace
  cases hpace with
  | same => exact h.schedules s (Table.mem_of_get? hbefore)
  | created called row within => exact within
  | @changes s₀ _ changes =>
    rw [changes.keeps.amountMinor]
    exact h.schedules s₀ (Table.mem_of_get? hbefore)
  | @deferred s₀ _ active => exact h.schedules s₀ (Table.mem_of_get? hbefore)
  | @settled s₀ _ active outcome =>
    rw [(s₀.keeps_advance P false now).amountMinor]
    exact h.schedules s₀ (Table.mem_of_get? hbefore)
  | @paid s₀ active =>
    rw [(s₀.keeps_advance P true now).amountMinor]
    exact h.schedules s₀ (Table.mem_of_get? hbefore)

lemma step_transfers (h : Limited P x) (hstep : Moves P watched may now call x y) :
    ∀ t ∈ y.transfers, t.IsPayment → Within P t.amountMinor := by
  intro t ht hpayment
  have htables : ∀ {z : Database}, y.books = z.books → t ∈ z.transfers :=
    fun hz => (Database.tables_of_books hz).2.1 ▸ ht
  cases hstep with
  | still books => exact h.transfers t (htables books) hpayment
  | @status a status version found legal books =>
    exact h.transfers t (htables (z := x.setAccount { a with status, version }) books) hpayment
  | pays enabled createdAt reversalOf authorized capped books =>
    rcases (Movement.mem_transfers enabled).mp (htables books) with ht | rfl
    · exact h.transfers t ht hpayment
    · generalize Transfer.type _ = type at authorized
      cases authorized with
      | sent within paced => exact within
      | settles found amount settles => exact amount ▸ h.requests _ found
      | scheduled found amount => exact amount ▸ h.schedules _ found
  | mints unused row enabled type reversalOf createdAt books =>
    rcases (Movement.mem_transfers enabled).mp (htables books) with ht | rfl
    · exact h.transfers t ht hpayment
    · rw [Transfer.IsPayment, type] at hpayment
      simp at hpayment
  | reverses called found standing type sender window enabled executes books =>
    obtain ⟨note, keyId, executes⟩ := executes
    rcases (Movement.mem_transfers enabled).mp (htables books) with ht | rfl
    · rcases (Database.mem_setTransfer_reversed found).mp ht with rfl | ⟨ht, -⟩
      · have hold := h.transfers _ found hpayment
        exact hold
      · exact h.transfers t ht hpayment
    · rw [Transfer.IsPayment, executes.type] at hpayment
      simp at hpayment

/-- The step lemma. -/
lemma step (h : Limited P x) (hstep : Performs P watched may now call x y)
    (hcall : LegsWithin P call) : Limited P y :=
  ⟨h.step_requests hstep hcall, h.step_schedules hstep, h.step_transfers hstep.moves⟩

end Limited

/-! ### The limits, and where they fail -/

/-- In a run whose splits have no leg above the limit every payment is within the limits. -/
theorem payments_within {P : Platform} {s : State} (h : ReachableIf P (LegsWithinAt P) s) :
    ∀ t ∈ s.db.transfers, t.IsPayment → Within P t.amountMinor := by
  have hsound := h.reachable.sound
  have hcalls := h.calls (p := LegsWithin P) fun _ _ hcall => hcall
  have hlimited : Limited P s.db := hsound.linked.invariant .seed fun r hr hbefore =>
    hbefore.step (hsound.advances hr).performs (hcalls r hr)
  exact hlimited.transfers

/-- Babu splits a bill with Asha alone, without a share of his own, and Asha accepts. -/
def splitRun (totalAmountMinor : ℤ) : List Step :=
  session 0 100 asha ++ session 1 200 babu ++
    session 2 300 (.createSplit 200 "s" ⟨totalAmountMinor, "Rent", [⟨"01711111111", none⟩], false,
      1, 7⟩ .null {}) ++
    session 3 400 (.acceptRequest 100 305 "a" .null {})

/-- A bill below the limit is within the condition. -/
lemma splitRun_within : ∀ e ∈ splitRun 2500, ∀ s, LegsWithinAt sample s e := by
  have hallocate : allocate ⟨2500, "Rent", [⟨"01711111111", none⟩], false, 1, 7⟩ = .ok [2500] := by
    decide +kernel
  have hsession : ∀ i k call, LegsWithin sample call →
      ∀ e ∈ session i k call, ∀ s, LegsWithinAt sample s e :=
    fun i k call hcall => forall_session (fun _ => hcall) (fun _ _ _ => trivial) fun _ _ => trivial
  simp only [splitRun, List.forall_mem_append]
  refine ⟨⟨⟨hsession _ _ _ trivial, hsession _ _ _ trivial⟩, hsession _ _ _ ?_⟩,
    hsession _ _ _ trivial⟩
  intro shares hshares share hmem
  cases Except.ok.inj (hallocate.symm.trans hshares.allocated)
  simp only [legShares, Bool.false_eq_true, if_false, List.mem_singleton] at hmem
  rw [hmem]
  decide

theorem payments_within_splitRun :
    (State.after sample (splitRun 2500)).db.transfers.rows.length = 3 ∧
      ∀ t ∈ (State.after sample (splitRun 2500)).db.transfers, t.IsPayment →
        Within sample t.amountMinor :=
  ⟨by decide +kernel, payments_within (reachableIf_after sample _ splitRun_within)⟩

/-- With a bill of 80,000.00 one payment is above the limit. -/
theorem payments_within_fails : ¬ ∀ s, Reachable sample s →
    ∀ t ∈ s.db.transfers, t.IsPayment → Within sample t.amountMinor := by
  intro h
  have hpaid : ((State.after sample (splitRun 8000000)).db.transfers.rows.any fun t =>
      decide (t.type = .requestSettlement ∧ t.amountMinor = 8000000)) = true := by decide +kernel
  obtain ⟨t, ht, hp⟩ := List.any_eq_true.mp hpaid
  obtain ⟨htype, hamount⟩ := of_decide_eq_true hp
  have hwithin := h _ (reachable_after sample (splitRun 8000000)) t ht (.inr (.inl htype))
  have hmax := hwithin.2
  rw [hamount] at hmax
  exact absurd hmax (by decide)

end TakaFlow
