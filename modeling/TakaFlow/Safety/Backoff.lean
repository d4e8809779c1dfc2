import TakaFlow.Safety.Deliveries

/-!
# Retries of an event

Attempts are counted exactly, end after `maxAttempts` and stay apart by the backoff, whatever
dispatchers run.
-/

namespace TakaFlow

open Txn

def attemptsAt (d : OutboxStore) (id : Uuid) : ℕ :=
  ((d.events.get? id).map OutboxRow.attempts).getD 0

/-- What a dispatcher makes of an event: all that it writes to the row but for the counter. -/
def OutboxRow.outcome (row : OutboxRow) :
    OutboxStatus × Option String × Timestamp × Option Timestamp :=
  (row.status, row.lastError, row.nextAttemptAt, row.processedAt)

def outcomeAt (d : OutboxStore) (id : Uuid) :
    Option (OutboxStatus × Option String × Timestamp × Option Timestamp) :=
  (d.events.get? id).map OutboxRow.outcome

def OutboxCall.isDispatch : OutboxCall → Bool
  | .dispatch _ => true
  | _ => false

/-- A dispatcher has processed the event, put it off or given it up. Whether it has counted that
does not matter here. -/
def isTry (id : Uuid) (call : OutboxCall) (d d' : OutboxStore) : Bool :=
  call.isDispatch && outcomeAt d id ≠ outcomeAt d' id

/-- The commits that handled an event, in order. -/
def tries (id : Uuid) (history : List OutboxRecord) : List OutboxRecord :=
  history.filter fun r => isTry id r.call r.before r.after

/-- The backoff after the first try is over when the second one begins. -/
def WaitsBetween (id : Uuid) (r₁ r₂ : OutboxRecord) : Prop :=
  r₁.now + outbox.backoffSeconds (attemptsAt r₁.after id) * microsPerSecond ≤ r₂.now

structure RetriesHold (P : OutboxPlatform) (id : Uuid) (s : OutboxState) : Prop where
  /-- A try is of an event that is pending and due. -/
  handled : ∀ r ∈ tries id s.history, ∃ row, ∃ what : Handling,
    r.before.events.get? id = some row ∧ row.status = .pending ∧ row.nextAttemptAt ≤ r.now ∧
    r.after.events.get? id = some (what.close P r.now row row)
  /-- The other commits of dispatchers leave the event alone, its counter as well. -/
  others : ∀ r ∈ s.history, r.call.isDispatch = true → r ∉ tries id s.history →
    r.after.events.get? id = r.before.events.get? id
  /-- The counter is the number of tries. -/
  counted : attemptsAt s.db id = (tries id s.history).length
  bounded : (tries id s.history).length ≤ maxAttempts
  apart : (tries id s.history).Pairwise (WaitsBetween id)

section

variable {P : OutboxPlatform} {faulty : Prop} {now : Timestamp} {d d' : OutboxStore}
  {call : OutboxCall} {reply : OutboxReply} {hooks : List Empty} {id : Uuid} {row : OutboxRow}

lemma attemptsAt_of_some (h : d.events.get? id = some row) : attemptsAt d id = row.attempts := by
  unfold attemptsAt
  rw [h]
  rfl

lemma attemptsAt_of_none (h : d.events.get? id = none) : attemptsAt d id = 0 := by
  unfold attemptsAt
  rw [h]
  rfl

/-! ### What a commit does to an event -/

/-- A commit leaves an event alone, inserts it, or handles it once it is due. -/
inductive RowMove (P : OutboxPlatform) (call : OutboxCall) (now : Timestamp) (id : Uuid)
    (d d' : OutboxStore) : Prop where
  | same (h : d'.events.get? id = d.events.get? id)
  | inserted (row : OutboxRow) (hcall : call.isDispatch = false) (hbefore : d.events.get? id = none)
      (hafter : d'.events.get? id = some row) (hattempts : row.attempts = 0)
  | handled (row : OutboxRow) (what : Handling) (hcall : call.isDispatch = true)
      (hbefore : d.events.get? id = some row)
      (hpending : row.status = .pending) (hdue : row.nextAttemptAt ≤ now)
      (hafter : d'.events.get? id = some (what.close P now row row))

lemma Produced.rowMove (h : Produced d d') (hcall : call.isDispatch = false) :
    RowMove P call now id d d' := by
  cases hbefore : d.events.get? id with
  | some row =>
    refine .same ?_
    rw [hbefore]
    exact h.events id row hbefore
  | none =>
    cases hafter : d'.events.get? id with
    | none =>
      refine .same ?_
      rw [hbefore, hafter]
    | some row =>
      refine .inserted row hcall hbefore hafter ?_
      have hid : row.id = id := Table.key_of_get? hafter
      obtain hold | ⟨-, -, hattempts⟩ := h.added row (Table.mem_of_get? hafter)
      · have hget := Table.get?_of_mem hold
        rw [hid, hbefore] at hget
        cases hget
      · exact hattempts

lemma OutboxCommit.rowMove (h : OutboxCommit P faulty call now reply hooks d d') :
    RowMove P call now id d d' := by
  cases call with
  | dispatch limit =>
    obtain ⟨result, rows, ps, rfl, hbatch⟩ := h.dispatched
    have hhandleable := hbatch.handleable
    by_cases hhandled : ∃ p ∈ ps, p.1.id = id
    · obtain ⟨p, hp, rfl⟩ := hhandled
      obtain ⟨hbefore, hpending⟩ := hhandleable.pending p hp
      obtain ⟨-, -, hdue⟩ := hbatch.due p.1 (hbatch.handled.subset (List.mem_map_of_mem hp))
      refine .handled p.1 p.2 rfl hbefore hpending hdue ?_
      rw [hbatch.after]
      exact (hhandleable.get?_effects hp).1
    · refine .same ?_
      rw [hbatch.after]
      exact HandledEvent.get?_effects fun p hp hid => hhandled ⟨p, hp, hid⟩
  | produce users events =>
    cases reply with
    | dispatched result => cases h
    | done => exact Produced.rowMove h rfl
  | markRead notification userId =>
    cases reply with
    | dispatched result => cases h
    | done =>
      obtain rfl | rfl := h
      · exact .same rfl
      · exact .same rfl

lemma attempts_close (what : Handling) :
    (what.close P now row row).attempts = row.attempts + 1 := by
  cases what <;> rfl

/-- A pending event that was just handled waits for its backoff. -/
lemma nextAttemptAt_close {what : Handling}
    (hpending : (what.close P now row row).status = .pending) :
    (what.close P now row row).nextAttemptAt =
      now + outbox.backoffSeconds (row.attempts + 1) * microsPerSecond := by
  cases what with
  | charged error => rfl
  | ignored => cases hpending
  | duplicate => cases hpending
  | delivered n => cases hpending

/-- An event that is handled once it is due is put off, processed or given up. -/
lemma outcome_close_ne (what : Handling) (hpending : row.status = .pending)
    (hdue : row.nextAttemptAt ≤ now) : row.outcome ≠ (what.close P now row row).outcome := by
  intro heq
  have hstatus := congrArg Prod.fst heq
  have hnext := congrArg (fun o => o.2.2.1) heq
  simp only [OutboxRow.outcome] at hstatus hnext
  cases what with
  | charged error =>
    have hseconds : 0 < outbox.backoffSeconds (row.attempts + 1) * microsPerSecond :=
      Nat.mul_pos (lt_min (Nat.two_pow_pos _) (by decide)) (by decide)
    change row.nextAttemptAt =
      now + outbox.backoffSeconds (row.attempts + 1) * microsPerSecond at hnext
    rw [hnext] at hdue
    exact absurd hdue (Nat.not_le.mpr (Nat.lt_add_of_pos_right hseconds))
  | ignored =>
    rw [hpending] at hstatus
    cases hstatus
  | duplicate =>
    rw [hpending] at hstatus
    cases hstatus
  | delivered n =>
    rw [hpending] at hstatus
    cases hstatus

lemma isTry_of_same (h : d'.events.get? id = d.events.get? id) : isTry id call d d' = false := by
  rw [isTry, outcomeAt, outcomeAt, h]
  simp

lemma isTry_of_handled {what : Handling} (hcall : call.isDispatch = true)
    (hbefore : d.events.get? id = some row) (hpending : row.status = .pending)
    (hdue : row.nextAttemptAt ≤ now)
    (hafter : d'.events.get? id = some (what.close P now row row)) :
    isTry id call d d' = true := by
  rw [isTry, hcall, Bool.true_and, decide_eq_true_eq, outcomeAt, outcomeAt, hbefore, hafter]
  exact fun heq => outcome_close_ne what hpending hdue (Option.some.inj heq)

/-- What a try does. -/
lemma RowMove.of_try (h : RowMove P call now id d d') (htry : isTry id call d d' = true) :
    ∃ row, ∃ what : Handling, d.events.get? id = some row ∧ row.status = .pending ∧
      row.nextAttemptAt ≤ now ∧ d'.events.get? id = some (what.close P now row row) := by
  cases h with
  | same hsame =>
    rw [isTry_of_same hsame] at htry
    cases htry
  | inserted row hcall =>
    rw [isTry, hcall] at htry
    cases htry
  | handled row what hcall hbefore hpending hdue hafter =>
    exact ⟨row, what, hbefore, hpending, hdue, hafter⟩

/-- What another batch does. -/
lemma RowMove.of_not_try (h : RowMove P call now id d d') (hcall : call.isDispatch = true)
    (hnot : isTry id call d d' = false) : d'.events.get? id = d.events.get? id := by
  cases h with
  | same hsame => exact hsame
  | inserted row hproduce =>
    rw [hproduce] at hcall
    cases hcall
  | handled row what hcall hbefore hpending hdue hafter =>
    rw [isTry_of_handled hcall hbefore hpending hdue hafter] at hnot
    cases hnot

/-! ### Every run -/

/-- While an event is pending, every try so far has had its backoff. -/
def WaitsFor (id : Uuid) (d : OutboxStore) (r : OutboxRecord) : Prop :=
  ∀ row, d.events.get? id = some row → row.status = .pending →
    r.now + outbox.backoffSeconds (attemptsAt r.after id) * microsPerSecond ≤ row.nextAttemptAt

structure RetryInv (id : Uuid) (done : List OutboxRecord) (d : OutboxStore) : Prop where
  counted : attemptsAt d id = (tries id done).length
  bounded : attemptsAt d id ≤ maxAttempts
  apart : (tries id done).Pairwise (WaitsBetween id)
  waits : ∀ r ∈ tries id done, WaitsFor id d r

lemma tries_concat_of_not {done : List OutboxRecord} {r : OutboxRecord}
    (h : isTry id r.call r.before r.after = false) : tries id (done ++ [r]) = tries id done := by
  unfold tries
  rw [List.filter_append, List.filter_cons_of_neg (Bool.not_eq_true _ ▸ h)]
  exact List.append_nil _

lemma tries_concat_of {done : List OutboxRecord} {r : OutboxRecord}
    (h : isTry id r.call r.before r.after = true) :
    tries id (done ++ [r]) = tries id done ++ [r] := by
  unfold tries
  rw [List.filter_append, List.filter_cons_of_pos, List.filter_nil]
  exact h

/-- A commit that handles something else. -/
lemma RetryInv.keep {done : List OutboxRecord} {r : OutboxRecord}
    (h : RetryInv id done r.before) (hnot : isTry id r.call r.before r.after = false)
    (hattempts : attemptsAt r.after id = attemptsAt r.before id)
    (hwaits : ∀ q ∈ tries id done, WaitsFor id r.after q) :
    RetryInv id (done ++ [r]) r.after := by
  constructor
  · rw [tries_concat_of_not hnot, hattempts]
    exact h.counted
  · rw [hattempts]
    exact h.bounded
  · rw [tries_concat_of_not hnot]
    exact h.apart
  · rw [tries_concat_of_not hnot]
    exact hwaits

/-- The step lemma. -/
lemma RetryInv.commit {done : List OutboxRecord} {r : OutboxRecord}
    (h : RetryInv id done r.before) (hinv : OutboxInv P r.before)
    (hcommit : OutboxCommit P faulty r.call r.now r.reply r.hooks r.before r.after) :
    RetryInv id (done ++ [r]) r.after := by
  have hmove : RowMove P r.call r.now id r.before r.after := hcommit.rowMove
  cases hmove with
  | same hsame =>
    refine h.keep (isTry_of_same hsame) ?_ fun q hq row hrow => ?_
    · rw [attemptsAt, attemptsAt, hsame]
    · rw [hsame] at hrow
      exact h.waits q hq row hrow
  | inserted row hcall hbefore hafter hattempts =>
    have hzero := attemptsAt_of_none hbefore
    have hnil : tries id done = [] := by
      rw [← List.length_eq_zero_iff, ← h.counted, hzero]
    refine h.keep (by rw [isTry, hcall]; rfl) ?_ fun q hq => ?_
    · rw [hzero, attemptsAt_of_some hafter, hattempts]
    · rw [hnil] at hq
      exact absurd hq List.not_mem_nil
  | handled row what hcall hbefore hpending hdue hafter =>
    have hattempts : attemptsAt r.after id = attemptsAt r.before id + 1 := by
      rw [attemptsAt_of_some hbefore, attemptsAt_of_some hafter, attempts_close]
    have hnew : tries id (done ++ [r]) = tries id done ++ [r] :=
      tries_concat_of (isTry_of_handled hcall hbefore hpending hdue hafter)
    -- A try comes once the event is due, that is, after every backoff before it.
    have hdone : ∀ q ∈ tries id done, WaitsBetween id q r := by
      intro q hq
      exact (h.waits q hq row hbefore hpending).trans hdue
    constructor
    · rw [hnew, hattempts, h.counted, List.length_append, List.length_singleton]
    · rw [hattempts, attemptsAt_of_some hbefore]
      exact ((hinv.rows row (Table.mem_of_get? hbefore)).pending hpending).1
    · rw [hnew, List.pairwise_append]
      refine ⟨h.apart, List.pairwise_singleton _ _, fun q hq q' hq' => ?_⟩
      rw [List.mem_singleton.mp hq']
      exact hdone q hq
    · intro q hq row' hrow' hpending'
      rw [hafter] at hrow'
      cases hrow'
      have hnext := nextAttemptAt_close hpending'
      rw [hnew] at hq
      rw [hnext]
      obtain hq | hq := List.mem_append.mp hq
      · exact (hdone q hq).trans (Nat.le_add_right _ _)
      · rw [List.mem_singleton.mp hq, hattempts, attemptsAt_of_some hbefore]

/-- In every run, with any faults and crashes, the attempts of an event are as many as the commits
that handled it, at most `maxAttempts`, and after the `k`-th one the next comes no sooner
than `min(2 ^ k, 300)` seconds later. -/
theorem retries_back_off {s : OutboxState} {t : ℕ} (id : Uuid)
    (h : Reaches (outboxBody P) (fun _ _ => True) (Sys.start {} t) s) : RetriesHold P id s := by
  have hreaches : Reaches (outboxBody P) (fun _ e => e.Admitted True) (Sys.start {} t) s := by
    refine h.mono fun _ e _ => ?_
    cases e with
    | fault i e => trivial
    | begin call => trivial
    | step i x => trivial
    | finish i => trivial
    | crash i => trivial
    | tick n => trivial
  have hmeets := outbox_meets hreaches
  have hinv : ∀ r ∈ s.history, OutboxInv P r.before := fun r hr =>
    (hmeets.linked.invariant_mem outboxInv_empty
      (fun r hr hd => (hmeets.commits r hr).1.inv hd) r hr).1
  have hretry : RetryInv id s.history s.db := by
    refine hmeets.linked.accumulate (I := RetryInv id) ?_ fun done r hr hd =>
      hd.commit (hinv r hr) (hmeets.commits r hr).1
    exact ⟨rfl, Nat.zero_le _, List.Pairwise.nil, fun q hq => absurd hq List.not_mem_nil⟩
  refine ⟨fun r hr => ?_, fun r hr hcall hnot => ?_, hretry.counted, ?_, hretry.apart⟩
  · obtain ⟨hr, htry⟩ := List.mem_filter.mp hr
    exact (hmeets.commits r hr).1.rowMove.of_try htry
  · refine (hmeets.commits r hr).1.rowMove.of_not_try hcall ?_
    exact Bool.eq_false_iff.mpr fun htry => hnot (List.mem_filter.mpr ⟨hr, htry⟩)
  · rw [← hretry.counted]
    exact hretry.bounded

end

/-! ### A run -/

/-- Both attempts of an event fail, and the second comes when the backoff is over. -/
def retryRun : List OutboxStep :=
  outboxRun ++ [.tick 1000000, .begin (.dispatch 50), .step 4 {}, .finish 4, .tick 1000000,
    .begin (.dispatch 50)] ++ List.replicate 6 (.step 5 {}) ++ [.finish 5]

theorem retries_back_off_retryRun :
    (tries 100 (outboxAfter retryRun).history).map (fun r => r.now) =
        [1800000000000000, 1800000002000000] ∧
      RetriesHold outboxSample 100 (outboxAfter retryRun) :=
  ⟨by decide +kernel, retries_back_off 100 (.play (fun _ _ _ => trivial) _ .refl)⟩

end TakaFlow
