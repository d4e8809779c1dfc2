import TakaFlow.Cache
import TakaFlow.Safety.Reversal

/-!
# The daily total that is shown

The indicator of the app counts all payments of the last day, and the limit only those that were
not reversed.
-/

namespace TakaFlow

open Txn

/-! ### What transfers are -/

/-- Every transfer moves something. -/
def Database.Positive (d : Database) : Prop := ∀ t ∈ d.transfers, 0 < t.amountMinor

/-- Reversed payments are older than that. -/
def ReversedBefore (since : ℤ) (d : Database) : Prop :=
  ∀ t ∈ d.transfers, t.status = .reversed → (t.createdAt : ℤ) < since

/-- The commit reverses no payment of the day before it began. -/
def ReversesOld (_call : Call) (now : Timestamp) (x y : Database) : Prop :=
  ∀ t ∈ y.transfers, t.status = .reversed → t ∉ x.transfers →
    (t.createdAt : ℤ) < windowStart now secondsPerDay

section

variable {P : Platform} {watched : Token → Prop} {may : ℕ → Database → Token → Prop}
  {now : Timestamp} {call : Call} {x y : Database}

/-- The transfers after a commit: old ones, old ones that are reversed now, and a new one. -/
lemma Moves.transfer_cases (h : Moves P watched may now call x y) {t : Transfer}
    (ht : t ∈ y.transfers) : t ∈ x.transfers ∨ (∃ t₀ ∈ x.transfers, t = t₀.reversed) ∨
      0 < t.amountMinor ∧ t.status = .completed := by
  have hold : ∀ {z : Database} {m : Movement}, m.Enabled z → y.transfers = (m.apply z).transfers →
      t ∈ z.transfers ∨ 0 < t.amountMinor ∧ t.status = .completed := by
    intro z m hm hy
    rw [hy, Movement.mem_transfers hm] at ht
    obtain ht | rfl := ht
    · exact .inl ht
    · exact .inr ⟨m.positive, m.standing⟩
  cases h with
  | still books => exact .inl ((Database.tables_of_books books).2.1 ▸ ht)
  | @status a status version found legal books =>
    exact .inl ((Database.tables_of_books (d := x.setAccount _) books).2.1 ▸ ht)
  | pays enabled createdAt reversalOf authorized capped books =>
    exact (hold enabled (Database.tables_of_books books).2.1).imp_right .inr
  | mints unused row enabled type reversalOf createdAt books =>
    exact (hold enabled (Database.tables_of_books books).2.1).imp_right .inr
  | reverses called found standing type sender window enabled executes books =>
    obtain ht | ht := hold enabled (Database.tables_of_books books).2.1
    · obtain rfl | ht := (Database.mem_setTransfer_reversed found).mp ht
      · exact .inr (.inl ⟨_, found, rfl⟩)
      · exact .inl ht.1
    · exact .inr (.inr ht)

lemma Database.Positive.step (h : Moves P watched may now call x y) (hx : x.Positive) :
    y.Positive := by
  intro t ht
  obtain ht | ⟨t₀, ht₀, rfl⟩ | ht := h.transfer_cases ht
  · exact hx t ht
  · exact hx t₀ ht₀
  · exact ht.1

lemma ReversedBefore.step {since : ℤ} (h : ReversesOld call now x y)
    (hnow : windowStart now secondsPerDay ≤ since) (hx : ReversedBefore since x) :
    ReversedBefore since y := by
  intro t ht hstatus
  by_cases hold : t ∈ x.transfers
  · exact hx t hold hstatus
  · exact (h t ht hstatus hold).trans_le hnow

end

/-- No commit is of a transaction that begins later. -/
lemma Reachable.now_le_clock {P : Platform} {s : State} (h : Reachable P s) :
    ∀ r ∈ s.history, r.now ≤ s.clock := by
  obtain ⟨t, h⟩ := h
  induction h with
  | refl => exact fun _ hr => nomatch hr
  | @step s s' e hreach _ hs ih =>
    cases Sys.step_cases hs with
    | tick n => exact fun r hr => (ih r hr).trans (Nat.le_add_right _ _)
    | @commit i ss a hi hphase ha =>
      intro r hr
      obtain hr | hr := List.mem_append.mp hr
      · exact ih r hr
      · rw [List.mem_singleton.mp hr]
        exact ((Reachable.sound ⟨t, hreach⟩).sessions i ss hi).1
    | _ => exact ih

/-! ### Both totals -/

section

variable {d : Database} {accountId : Uuid} {now : Timestamp}

/-- The payments that are shown and those that are not counted any more. -/
lemma spentLast24h_eq (d : Database) (accountId : Uuid) (now : Timestamp) :
    d.spentLast24h accountId now = d.outboundTotal accountId (windowStart now secondsPerDay) +
      ((d.transfers.rows.filter fun t => isSpent accountId (windowStart now secondsPerDay) t &&
        decide (t.status = .reversed)).map Transfer.amountMinor).sum := by
  unfold Database.spentLast24h Database.outboundTotal
  induction d.transfers.rows with
  | nil => rfl
  | cons t l ih =>
    have hcases : Database.isOutbound accountId (windowStart now secondsPerDay) t =
        (isSpent accountId (windowStart now secondsPerDay) t && decide (t.status = .completed)) := by
      rw [Database.isOutbound, isSpent, ← Bool.decide_and]
      refine decide_eq_decide.mpr ?_
      tauto
    rw [List.filter_cons, List.filter_cons, List.filter_cons, hcases]
    cases isSpent accountId (windowStart now secondsPerDay) t with
    | false => exact ih
    | true =>
      cases hstatus : t.status with
      | completed =>
        simp only [if_true, Bool.true_and, decide_true, List.map_cons, List.sum_cons, ih,
          reduceCtorEq, decide_false, Bool.false_eq_true, if_false]
        rw [add_assoc]
      | reversed =>
        simp only [if_true, Bool.true_and, decide_true, List.map_cons, List.sum_cons, ih,
          reduceCtorEq, decide_false, Bool.false_eq_true, if_false]
        rw [add_left_comm]

/-- They agree iff no payment of the last day has been reversed. -/
lemma spentLast24h_eq_iff (h : d.Positive) :
    d.spentLast24h accountId now = d.outboundTotal accountId (windowStart now secondsPerDay) ↔
      ∀ t ∈ d.transfers, isSpent accountId (windowStart now secondsPerDay) t = true →
        t.status ≠ .reversed := by
  have hpositive : ∀ l : List Transfer, (∀ t ∈ l, 0 < t.amountMinor) →
      0 ≤ (l.map Transfer.amountMinor).sum ∧ ((l.map Transfer.amountMinor).sum = 0 → l = []) := by
    intro l hl
    induction l with
    | nil => exact ⟨le_refl _, fun _ => rfl⟩
    | cons t l ih =>
      have ht := hl t List.mem_cons_self
      have hrest := (ih fun u hu => hl u (List.mem_cons_of_mem _ hu)).1
      rw [List.map_cons, List.sum_cons]
      exact ⟨by omega, fun hsum => by omega⟩
  rw [spentLast24h_eq, add_eq_left]
  constructor
  · intro hsum t ht hspent hstatus
    have hnil := (hpositive _ fun t ht => h t (List.mem_of_mem_filter ht)).2 hsum
    rw [List.filter_eq_nil_iff] at hnil
    exact hnil t ht (by rw [hspent, hstatus]; rfl)
  · intro hall
    rw [List.filter_eq_nil_iff.mpr, List.map_nil, List.sum_nil]
    intro t ht
    rw [Bool.and_eq_true, decide_eq_true_eq]
    exact fun hboth => hall t ht hboth.1 hboth.2

end

/-! ### The guarantee -/

/-- Whenever it is read, the total that is shown is the one that is enforced iff no payment of the
last day has been reversed; in a run that never reverses a payment of the last day, they agree. -/
theorem limit_shown {P : Platform} {s : State} (h : Reachable P s) :
    (∀ accountId now,
      s.db.spentLast24h accountId now =
          s.db.outboundTotal accountId (windowStart now secondsPerDay) ↔
        ∀ t ∈ s.db.transfers, isSpent accountId (windowStart now secondsPerDay) t = true →
          t.status ≠ .reversed) ∧
    ((∀ r ∈ s.history, ReversesOld r.call r.now r.before r.after) → ∀ accountId,
      s.db.spentLast24h accountId s.clock =
        s.db.outboundTotal accountId (windowStart s.clock secondsPerDay)) := by
  have hsound := h.sound
  have hpositive : s.db.Positive :=
    hsound.invariant (I := fun d => d.Positive) nofun fun _ _ _ _ hadv hx =>
      hx.step hadv.performs.moves
  refine ⟨fun accountId now => spentLast24h_eq_iff hpositive, fun hold accountId => ?_⟩
  have hbefore : ReversedBefore (windowStart s.clock secondsPerDay) s.db := by
    refine hsound.linked.invariant (I := fun d => ReversedBefore _ d) nofun fun r hr hx => ?_
    refine hx.step (hold r hr) ?_
    have hnow := h.now_le_clock r hr
    unfold windowStart
    omega
  refine (spentLast24h_eq_iff hpositive).mpr fun t ht hspent hstatus => ?_
  have hlt := hbefore t ht hstatus
  rw [isSpent, decide_eq_true_eq] at hspent
  exact absurd hspent.2.2 hlt.not_ge

/-- Two totals after a payment that stands. -/
theorem limit_shown_sample :
    (State.after sample sampleRun).db.spentLast24h 101 (State.after sample sampleRun).clock = 2500 ∧
      (State.after sample sampleRun).db.spentLast24h 101 (State.after sample sampleRun).clock =
        (State.after sample sampleRun).db.outboundTotal 101
          (windowStart (State.after sample sampleRun).clock secondsPerDay) := by
  have hstanding : ((State.after sample sampleRun).db.transfers.rows.all fun t =>
      t.status = .completed) = true := by decide +kernel
  refine ⟨by decide +kernel, ((limit_shown (reachable_after sample sampleRun)).1 _ _).mpr ?_⟩
  intro t ht _ hstatus
  have hcompleted := of_decide_eq_true (List.all_eq_true.mp hstanding t ht)
  rw [hstatus] at hcompleted
  cases hcompleted

/-- Asha has taken her payment back, and is shown it as spent. -/
theorem reversed_payment_shown : ¬ ∀ s, Reachable sample s → ∀ accountId,
    s.db.spentLast24h accountId s.clock =
      s.db.outboundTotal accountId (windowStart s.clock secondsPerDay) := by
  intro h
  have hequal := h _ (reachable_after sample reversedRun) 101
  exact absurd hequal (by decide +kernel)

end TakaFlow
