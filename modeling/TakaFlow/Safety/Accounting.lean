import TakaFlow.Spec.Pace

/-!
# The runs of a schedule

A schedule with a number of runs is owed that many payments, no fewer and no more. Missed, failed
and repeated occurrences cost it none.
-/

namespace TakaFlow

open Txn

/-- The commit creates the schedule from the input. -/
structure Creates (r : Record) (input : CreateScheduleInput) (p : Schedule) : Prop where
  called : ∃ user key raw context, r.call = .createSchedule user key input raw context
  row : p ∈ r.after.schedules
  unused : r.before.schedules.has p.id = false

/-- A schedule of this input of which so many occurrences have been paid. -/
structure Accounted (input : CreateScheduleInput) (q : Schedule) (paid : ℤ) : Prop where
  interval : q.intervalKind = input.intervalKind
  recurring : input.intervalKind ≠ .once → ∀ n : ℕ, input.totalRuns = some n →
    ∃ k, q.remainingRuns = some k ∧ 0 ≤ k ∧ k + paid = n ∧ (q.status = .completed ↔ k = 0)
  endless : input.intervalKind ≠ .once → input.totalRuns = none →
    q.remainingRuns = none ∧ q.status ≠ .completed
  once : input.intervalKind = .once → paid ≤ 1 ∧ (q.status ≠ .completed → paid = 0)

/-! ### One step -/

section

variable {P : Platform} {watched : Token → Prop} {may : ℕ → Database → Token → Prop}
  {now : Timestamp} {call : Call} {x y : Database} {input : CreateScheduleInput}
  {s q q' : Schedule} {count : ℤ} {id : Uuid} {ended : Option OccurrenceStatus}

lemma Schedule.nudge_runs (s : Schedule) (now : Timestamp) :
    (s.nudge now).intervalKind = s.intervalKind ∧
      (s.nudge now).remainingRuns = s.remainingRuns ∧ (s.nudge now).status = s.status := by
  unfold nudge
  generalize now - microsPerSecond = due
  exact ⟨rfl, rfl, rfl⟩

/-- The account depends on what runs change only. -/
lemma Accounted.congr (h : Accounted input q count) (hi : q'.intervalKind = q.intervalKind)
    (hr : q'.remainingRuns = q.remainingRuns)
    (hs : q'.status = .completed ↔ q.status = .completed) : Accounted input q' count := by
  constructor
  · rw [hi, h.interval]
  · intro hne n hn
    rw [hr, hs]
    exact h.recurring hne n hn
  · intro hne hn
    obtain ⟨hremaining, hstatus⟩ := h.endless hne hn
    exact ⟨hr.trans hremaining, fun hc => hstatus (hs.mp hc)⟩
  · intro ho
    obtain ⟨hle, hzero⟩ := h.once ho
    exact ⟨hle, fun hc => hzero fun hq => hc (hs.mpr hq)⟩

/-- The end of an occurrence that was not paid costs no run. -/
lemma Accounted.missed (h : Accounted input q count) (hactive : q.status = .active) :
    Accounted input (q.advance P false now) count := by
  have hnot : q.status ≠ .completed := by rw [hactive]; nofun
  by_cases hkind : q.intervalKind = .once
  · have honce := h.interval.symm.trans hkind
    rw [Schedule.advance_once hkind]
    refine ⟨h.interval, fun hne => absurd honce hne, fun hne => absurd honce hne, fun _ => ?_⟩
    exact ⟨(h.once honce).1, fun hc => absurd rfl hc⟩
  · rw [Schedule.advance_recurring hkind]
    have hne : input.intervalKind ≠ .once := h.interval ▸ hkind
    constructor
    · exact h.interval
    · intro _ n hn
      obtain ⟨k, hk, hnonneg, hsum, hcompleted⟩ := h.recurring hne n hn
      have hk0 : k ≠ 0 := fun h0 => hnot (hcompleted.mpr h0)
      refine ⟨k, by simp [Schedule.next, hk], hnonneg, hsum, ?_⟩
      have hpos : ¬ k ≤ 0 := by omega
      simp only [Schedule.next, hk, Option.map_some, Option.any_some, Bool.false_eq_true, if_false,
        decide_eq_true_eq, hpos, hcompleted]
    · intro _ hn
      obtain ⟨hremaining, hstatus⟩ := h.endless hne hn
      exact ⟨by simp [Schedule.next, hremaining], by simpa [Schedule.next, hremaining]⟩
    · exact fun ho => absurd ho hne

/-- A paid occurrence costs one run. -/
lemma Accounted.paid (h : Accounted input q count) (hactive : q.status = .active) :
    Accounted input (q.advance P true now) (count + 1) := by
  have hnot : q.status ≠ .completed := by rw [hactive]; nofun
  by_cases hkind : q.intervalKind = .once
  · have honce := h.interval.symm.trans hkind
    rw [Schedule.advance_once hkind]
    refine ⟨h.interval, fun hne => absurd honce hne, fun hne => absurd honce hne, fun _ => ?_⟩
    have hzero := (h.once honce).2 hnot
    exact ⟨by omega, fun hc => absurd rfl hc⟩
  · rw [Schedule.advance_recurring hkind]
    have hne : input.intervalKind ≠ .once := h.interval ▸ hkind
    constructor
    · exact h.interval
    · intro _ n hn
      obtain ⟨k, hk, hnonneg, hsum, hcompleted⟩ := h.recurring hne n hn
      have hk0 : k ≠ 0 := fun h0 => hnot (hcompleted.mpr h0)
      have hmax : max (k - 1) 0 = k - 1 := by omega
      refine ⟨k - 1, by simp [Schedule.next, hk, hmax], by omega, by omega, ?_⟩
      by_cases hlast : k - 1 ≤ 0
      · have hzero : k - 1 = 0 := by omega
        simp [Schedule.next, hk, hzero]
      · have hzero : k - 1 ≠ 0 := by omega
        simp [Schedule.next, hk, hlast, hzero, hnot]
    · intro _ hn
      obtain ⟨hremaining, hstatus⟩ := h.endless hne hn
      exact ⟨by simp [Schedule.next, hremaining], by simpa [Schedule.next, hremaining]⟩
    · exact fun ho => absurd ho hne

lemma Accounted.changes (h : Accounted input q count) (hc : q.Changes P now x q') :
    Accounted input q' count := by
  cases hc with
  | @transition target legal =>
    refine h.congr rfl rfl ?_
    constructor
    · intro hstatus
      change target.status = .completed at hstatus
      cases target <;> cases hstatus
    · intro hstatus
      rw [hstatus] at legal
      cases target <;> simp [ScheduleTarget.legalFrom] at legal
  | nudge active =>
    obtain ⟨hkind, hremaining, hstatus⟩ := q.nudge_runs now
    exact h.congr hkind hremaining (by rw [hstatus])
  | duplicate active found settled => exact h.missed active

/-- The account after one commit. -/
lemma Accounted.pace {after : Option Schedule} (h : Accounted input q count)
    (hp : Pace P now call x (some q) after ended) : ∃ q', after = some q' ∧
      Accounted input q' (count + if ended = some .paid then 1 else 0) := by
  cases hp with
  | same => exact ⟨q, rfl, by simpa using h⟩
  | changes changes => exact ⟨_, rfl, by simpa using h.changes changes⟩
  | @deferred _ retryAt active =>
    have hsame : Accounted input { q with retryAfter := some retryAt } count :=
      h.congr rfl rfl Iff.rfl
    exact ⟨_, rfl, by simpa using hsame⟩
  | settled active outcome =>
    refine ⟨_, rfl, ?_⟩
    have hmissed : Accounted input (q.advance P false now) count := h.missed active
    rcases outcome with rfl | rfl
    · simpa using hmissed
    · simpa using hmissed
  | paid active => exact ⟨_, rfl, by simpa using h.paid active⟩

/-- No schedule is dropped, and none that is missing has runs. -/
lemma Pace.of_none {before : Option Schedule} (h : Pace P now call x before none ended) :
    before = none ∧ ended = none := by
  cases h with
  | same => exact ⟨rfl, rfl⟩

/-- A schedule that is created owes all its runs. -/
lemma Pace.created_eq {user : Uuid} {key : String} {raw : Json} {context : RequestContext}
    (h : Pace P now call x none (some s) ended)
    (hcall : call = .createSchedule user key input raw context) :
    ended = none ∧ ∃ payeeUserId, s = newSchedule s.id user payeeUserId input now := by
  generalize hbefore : (none : Option Schedule) = before at h
  generalize hafter : some s = after at h
  cases h with
  | same =>
    rw [← hbefore] at hafter
    cases hafter
  | created called row within =>
    cases hafter
    rw [hcall] at called
    cases called
    exact ⟨rfl, _, row⟩
  | changes => cases hbefore
  | deferred => cases hbefore
  | settled => cases hbefore
  | paid => cases hbefore

lemma Accounted.new {user payeeUserId : Uuid} (hinput : input.Parsed) :
    Accounted input (newSchedule id user payeeUserId input now) 0 := by
  constructor
  · rfl
  · intro hne n hn
    have hpos := (hinput.totalRuns n hn).1
    refine ⟨n, by simp [newSchedule, hne, hn], by omega, by omega, ?_⟩
    have hactive : (newSchedule id user payeeUserId input now).status ≠ .completed := nofun
    constructor
    · exact fun hc => absurd hc hactive
    · intro h0
      omega
  · exact fun hne hn => ⟨by simp [newSchedule, hne, hn], nofun⟩
  · exact fun _ => ⟨by omega, fun _ => rfl⟩

/-- Occurrences belong to schedules. -/
def Placed (d : Database) : Prop :=
  ∀ id, d.schedules.get? id = none → ∀ status ≠ .pending, d.runs id status = 0

lemma Placed.step (h : Placed x) (hstep : Performs P watched may now call x y) : Placed y := by
  intro id hnone status hstatus
  obtain ⟨ended, hpace, hruns⟩ := hstep.pace id
  rw [hnone] at hpace
  obtain ⟨hbefore, rfl⟩ := hpace.of_none
  have hcount := hruns status hstatus
  rw [h id hbefore status hstatus] at hcount
  simpa using hcount

/-- The schedule of the input and its paid occurrences are in order. -/
def Counted (input : CreateScheduleInput) (id : Uuid) (d : Database) : Prop :=
  ∃ q, d.schedules.get? id = some q ∧ Accounted input q (d.runs id .paid)

lemma Counted.step (h : Counted input id x) (hstep : Performs P watched may now call x y) :
    Counted input id y := by
  obtain ⟨q, hget, hq⟩ := h
  obtain ⟨ended, hpace, hruns⟩ := hstep.pace id
  rw [hget] at hpace
  obtain ⟨q', hget', hq'⟩ := hq.pace hpace
  refine ⟨q', hget', ?_⟩
  rw [hruns .paid nofun]
  exact hq'

lemma Counted.created {r : Record} (hstep : Performs P watched may r.now r.call r.before r.after)
    (hplaced : Placed r.before) (h : Creates r input s) (hinput : input.Parsed) :
    Counted input s.id r.after := by
  obtain ⟨user, key, raw, context, hcall⟩ := h.called
  have hnone := (Table.has_eq_false _ _).mp h.unused
  have hget := Table.get?_of_mem h.row
  obtain ⟨ended, hpace, hruns⟩ := hstep.pace s.id
  rw [hnone, hget] at hpace
  obtain ⟨rfl, payeeUserId, hrow⟩ := hpace.created_eq hcall
  refine ⟨s, hget, ?_⟩
  have hcount := hruns .paid nofun
  rw [hplaced s.id hnone .paid nofun] at hcount
  rw [hcount, hrow]
  simpa using Accounted.new hinput

end

/-! ### The guarantee -/

/-- Schedules and their runs in a run of the system. -/
structure RunsHold (s : State) : Prop where
  /-- What is left and what has been paid make up what was asked for, and the schedule is complete
  exactly when everything has been paid. -/
  recurring : ∀ r ∈ s.history, ∀ input p, Creates r input p → input.Parsed →
    input.intervalKind ≠ .once → ∀ n : ℕ, input.totalRuns = some n →
      ∃ q ∈ s.db.schedules, q.id = p.id ∧
        (∃ k, q.remainingRuns = some k ∧ 0 ≤ k ∧ k + s.db.runs p.id .paid = n) ∧
        (q.status = .completed ↔ s.db.runs p.id .paid = n)
  endless : ∀ r ∈ s.history, ∀ input p, Creates r input p → input.Parsed →
    input.intervalKind ≠ .once → input.totalRuns = none →
      ∃ q ∈ s.db.schedules, q.id = p.id ∧ q.status ≠ .completed
  once : ∀ r ∈ s.history, ∀ input p, Creates r input p → input.Parsed →
    input.intervalKind = .once → s.db.runs p.id .paid ≤ 1
  /-- A completed schedule stays completed, and none of its occurrences is paid. -/
  finished : ∀ r ∈ s.history, ∀ q ∈ r.before.schedules, q.status = .completed →
    (∃ q' ∈ r.after.schedules, q'.id = q.id ∧ q'.status = .completed) ∧
      r.after.runs q.id .paid = r.before.runs q.id .paid

lemma Pace.finished {P : Platform} {now : Timestamp} {call : Call} {x : Database} {q : Schedule}
    {after : Option Schedule} {ended : Option OccurrenceStatus}
    (h : Pace P now call x (some q) after ended) (hq : q.status = .completed) :
    ended = none ∧ ∃ q', after = some q' ∧ q'.status = .completed := by
  cases h with
  | same => exact ⟨rfl, q, rfl, hq⟩
  | changes changes =>
    cases changes with
    | @transition target legal =>
      rw [hq] at legal
      cases target <;> simp [ScheduleTarget.legalFrom] at legal
    | nudge active => cases hq.symm.trans active
    | duplicate active found settled => cases hq.symm.trans active
  | deferred active => cases hq.symm.trans active
  | settled active outcome => cases hq.symm.trans active
  | paid active => cases hq.symm.trans active

theorem runs_hold {P : Platform} {s : State} (h : Reachable P s) : RunsHold s := by
  have hsound := h.sound
  have hplaced : ∀ r ∈ s.history, Placed r.before := fun r hr =>
    (hsound.invariant_mem (I := Placed) (fun _ _ _ _ => rfl)
      (fun _ _ _ _ hstep hx => hx.step hstep.performs) hr).1
  have hcounted : ∀ r ∈ s.history, ∀ input p, Creates r input p → input.Parsed →
      Counted input p.id s.db := by
    intro r hr input p hcreates hinput
    refine hsound.linked.since hr ?_ fun q hq hx => hx.step (hsound.advances hq).performs
    exact .created (hsound.advances hr).performs (hplaced r hr) hcreates hinput
  constructor
  · intro r hr input p hcreates hinput hne n hn
    obtain ⟨q, hget, hq⟩ := hcounted r hr input p hcreates hinput
    obtain ⟨k, hk, hnonneg, hsum, hcompleted⟩ := hq.recurring hne n hn
    refine ⟨q, Table.mem_of_get? hget, Table.key_of_get? hget, ⟨k, hk, hnonneg, hsum⟩, ?_⟩
    rw [hcompleted]
    omega
  · intro r hr input p hcreates hinput hne hn
    obtain ⟨q, hget, hq⟩ := hcounted r hr input p hcreates hinput
    exact ⟨q, Table.mem_of_get? hget, Table.key_of_get? hget, (hq.endless hne hn).2⟩
  · intro r hr input p hcreates hinput ho
    obtain ⟨q, hget, hq⟩ := hcounted r hr input p hcreates hinput
    exact_mod_cast (hq.once ho).1
  · intro r hr q hq hstatus
    obtain ⟨ended, hpace, hruns⟩ := (hsound.advances hr).performs.pace q.id
    rw [Table.get?_of_mem hq] at hpace
    obtain ⟨rfl, q', hget, hstatus'⟩ := hpace.finished hstatus
    refine ⟨⟨q', Table.mem_of_get? hget, Table.key_of_get? hget, hstatus'⟩, ?_⟩
    simpa using hruns .paid nofun

/-- A schedule of two runs, paused between them, and one that runs once. -/
def countedRun : List Step :=
  session 0 100 asha ++ session 1 200 babu ++
    session 2 300 (.createSchedule 100 "k"
      { toPhone := "01722222222", amountMinor := 2500, intervalKind := .daily,
        startAt := 1800000000000, totalRuns := some 2 } .null {}) ++
    session 3 400 (.createSchedule 100 "l"
      { toPhone := "01722222222", amountMinor := 2500, intervalKind := .once,
        startAt := 1800000000000 } .null {}) ++
    session 4 500 (.runSchedule 303) ++ session 5 600 (.pauseSchedule 100 303 {}) ++
    session 6 700 (.runSchedule 403) ++ session 7 800 (.resumeSchedule 100 303 {}) ++
    [.tick (secondsPerDay * microsPerSecond)] ++ session 8 900 (.runSchedule 303)

theorem runs_hold_countedRun :
    (State.after sample countedRun).db.schedules.rows.map
        (fun q => (q.id, q.status, q.remainingRuns)) =
        [(303, .completed, some 0), (403, .completed, some 0)] ∧
      (State.after sample countedRun).db.runs 303 .paid = 2 ∧
      RunsHold (State.after sample countedRun) :=
  ⟨by decide +kernel, by decide +kernel, runs_hold (reachable_after sample countedRun)⟩

/-- The call creates a schedule without a number of runs. -/
def Call.isUncounted : Call → Bool
  | .createSchedule _ _ input _ _ => input.totalRuns.isNone
  | _ => false

/-- A schedule that runs once has no number of runs, and is completed. -/
theorem uncounted_completes :
    ∃ r ∈ (State.after sample countedRun).history, ∃ input p, Creates r input p ∧
      input.totalRuns = none ∧
      ∃ q ∈ (State.after sample countedRun).db.schedules, q.id = p.id ∧ q.status = .completed := by
  have hfound : ((State.after sample countedRun).history.any fun r =>
      r.call.isUncounted && r.after.schedules.rows.any fun p =>
        !r.before.schedules.has p.id &&
          (State.after sample countedRun).db.schedules.rows.any fun q =>
            q.id = p.id && q.status = .completed) = true := by decide +kernel
  simp only [List.any_eq_true, Bool.and_eq_true, Bool.not_eq_true', decide_eq_true_eq] at hfound
  obtain ⟨r, hr, hcall, p, hp, hunused, q, hq, hid, hstatus⟩ := hfound
  cases hc : r.call with
  | createSchedule user key input raw context =>
    rw [hc] at hcall
    have hnone : input.totalRuns = none := Option.isNone_iff_eq_none.mp hcall
    exact ⟨r, hr, input, p, ⟨⟨user, key, raw, context, hc⟩, hp, hunused⟩, hnone, q, hq, hid,
      hstatus⟩
  | _ =>
    rw [hc] at hcall
    cases hcall

end TakaFlow
