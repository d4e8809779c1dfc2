import TakaFlow.Spec.Alone
import TakaFlow.Spec.Pace
import TakaFlow.Worker

/-!
# One visit of the worker

What `runSchedule` commits when nobody else is about: nothing, a late occurrence skipped, or one
attempt at an occurrence that is in time.
-/

namespace TakaFlow

open Txn

/-! ### Statements that nobody contends -/

section

variable {α : Type} {now : Timestamp} {input : Env} {d : Database} {write : Database → Database}
  {acquired : List Token}

lemma updateRow_done {find : Timestamp → Database → Option α} {lock : α → Token}
    {assign : Timestamp → α → α} {put : α → Database → Database} {row : α} {r : Option α}
    (hrow : find now d = some row)
    (h : updateRow find lock assign put now input d (fun _ => false) = .done r write acquired) :
    write = put (assign now row) := by
  simp only [updateRow, Stmt.update, hrow, Option.map_some, Bool.false_eq_true, if_false] at h
  cases h
  rfl

lemma insertRow_done {table : TableName} {id : Env → ℕ} {put : α → Database → Database}
    {row : Timestamp → Env → α} {r : α}
    (h : insertRow table id put row now input d (fun _ => false) = .done r write acquired) :
    d.has table (id input) = false ∧ write = put (row now input) := by
  unfold insertRow Stmt.insert at h
  split at h
  · rename_i hunused
    cases h
    exact ⟨by simpa using hunused, rfl⟩
  · cases h

lemma selectDueSchedule_done {id : Uuid} {r : Option Schedule}
    (h : selectDueSchedule id now input d (fun _ => false) = .done r write acquired) :
    (write = fun d => d) ∧ match r with
      | none => ∀ s, ¬ Due now id s d
      | some s => Due now id s d := by
  unfold selectDueSchedule at h
  cases hf : (d.schedules.get? id).filter fun s =>
      s.status = .active ∧ s.nextRunAt ≤ now ∧ (s.retryAfter.getD now) ≤ now with
  | none =>
    rw [hf] at h
    cases h
    refine ⟨rfl, fun s hdue => ?_⟩
    rw [Option.filter_eq_none_iff] at hf
    exact hf s hdue.found (by simpa using ⟨hdue.active, hdue.due, hdue.retry⟩)
  | some s =>
    rw [hf] at h
    obtain ⟨hfound, hp⟩ := Option.filter_eq_some_iff.mp hf
    simp only [decide_eq_true_eq] at hp
    simp only [Bool.false_eq_true, if_false] at h
    cases h
    exact ⟨rfl, hfound, hp.1, hp.2.1, hp.2.2⟩

lemma upsertOccurrence_done {scheduleId : Uuid} {dueAt : Timestamp} {r : Option Occurrence}
    (h : upsertOccurrence scheduleId dueAt now input d (fun _ => false) =
      .done r write acquired) :
    match r with
      | none => write = id ∧
          ∃ o, d.occurrenceAt (scheduleId, dueAt) = some o ∧ o.status ≠ .pending
      | some o => Upserted scheduleId dueAt o d (write d) := by
  unfold upsertOccurrence at h
  simp only [Bool.false_eq_true, if_false] at h
  cases ho : d.occurrenceAt (scheduleId, dueAt) with
  | some o =>
    rw [ho] at h
    by_cases hpending : o.status = .pending
    · simp only [if_pos hpending] at h
      cases h
      exact .retry ho hpending
    · simp only [if_neg hpending] at h
      cases h
      exact ⟨rfl, o, rfl, hpending⟩
  | none =>
    rw [ho] at h
    simp only [Bool.not_false, Bool.and_true] at h
    split at h
    · rename_i hunused
      cases h
      exact .first ho ((Bool.not_eq_true' _).mp hunused)
    · cases h

end

/-! ### What a visit commits -/

/-- More than the grace period has passed. -/
def Missed (P : Platform) (now dueAt : Timestamp) : Prop :=
  (P.config.scheduleCatchupGraceMs : ℤ) < (toMillis now : ℤ) - toMillis dueAt

/-- What the owner is told about a skipped occurrence. -/
def Schedule.skipPayload (s : Schedule) : Fields :=
  [("scheduleId", .uuid s.id), ("ownerUserId", .uuid s.ownerUserId),
    ("amountMinor", .str (toString s.amountMinor)), ("dueAt", .date s.nextRunAt)]

/-- The row of the event. -/
def Schedule.skipEvent (s : Schedule) (id : Uuid) (now : Timestamp) : OutboxEvent :=
  { id
    eventType := .scheduleSkipped
    aggregateType := "scheduled_transfer"
    aggregateId := s.id
    payload := s.skipPayload
    createdAt := now }

/-- The occurrence has not come to an end. -/
def Unsettled (key : OccurrenceKey) (d : Database) : Prop :=
  ∀ o ∈ d.occurrenceAt key, o.status = .pending

instance (key : OccurrenceKey) (d : Database) : Decidable (Unsettled key d) :=
  inferInstanceAs (Decidable (∀ o ∈ d.occurrenceAt key, o.status = .pending))

instance (P : Platform) (now dueAt : Timestamp) : Decidable (Missed P now dueAt) :=
  inferInstanceAs (Decidable ((P.config.scheduleCatchupGraceMs : ℤ) <
    (toMillis now : ℤ) - toMillis dueAt))

/-- A payment has been attempted. -/
def RunOutcome.Attempts (outcome : RunOutcome) : Prop :=
  outcome = .paid ∨ outcome = .failed ∨ outcome = .deferred

/-- The commit of a visit to one schedule, without interference. -/
inductive Visit (P : Platform) (now : Timestamp) (id : Uuid) :
    RunOutcome → Database → Database → Prop where
  | notDue {x : Database} (notDue : ∀ s, ¬ Due now id s x) : Visit P now id .notClaimed x x
  | duplicate {x : Database} {s : Schedule} {o : Occurrence} (due : Due now id s x)
      (found : x.occurrenceAt (s.id, s.nextRunAt) = some o) (settled : o.status ≠ .pending) :
      Visit P now id .duplicate x (x.setSchedule (s.advance P false now))
  | skipped {x z : Database} {s : Schedule} {o : Occurrence} {reason : String} {eventId : Uuid}
      (due : Due now id s x) (upserted : Upserted s.id s.nextRunAt o x z)
      (missed : Missed P now s.nextRunAt) (unused : x.outboxEvents.has eventId = false) :
      Visit P now id .skipped x
        (((z.setOccurrence (o.settle .skipped none (some reason) now)).setSchedule
          (s.advance P false now)).insertEvent (s.skipEvent eventId now))
  | attempted {x y : Database} {s : Schedule} {outcome : RunOutcome} (due : Due now id s x)
      (unsettled : Unsettled (s.id, s.nextRunAt) x) (inTime : ¬ Missed P now s.nextRunAt)
      (attempts : outcome.Attempts)
      (ran : Ran P (fun _ => False) now id outcome x y) : Visit P now id outcome x y

/-! ### The visit -/

section

variable {P : Platform} {now : Timestamp} {id : Uuid} {d : Database} {s : Schedule}
  {o : Occurrence} {deadlineAt : Millis} {w w' : Surroundings}
  {c c' : Ctx Database Token Hook}

lemma Upserted.unsettled {z : Database} (h : Upserted s.id s.nextRunAt o d z) :
    Unsettled (s.id, s.nextRunAt) d := by
  intro o' ho'
  rw [Option.mem_def] at ho'
  cases h with
  | first none => rw [none] at ho'; cases ho'
  | retry found pending => rw [found] at ho'; cases ho'; exact pending

/-- An attempt at a payment has one of three outcomes. -/
lemma yields_attempt :
    Yields now RunOutcome.Attempts
      ((Program.control Error.ofDriver .set).bind fun _ => (payOccurrence P s o.id).tryCatch fun
        | .domain e => failOccurrence P s o e
        | e => .throw e) := by
  refine .bind fun _ => .tryCatch ?_ fun e => ?_
  · refine .bind fun _ => .bind fun _ => .bind fun _ => .bind fun _ => .bind fun _ => .bind fun _ => ?_
    exact .inl rfl
  · cases e with
    | domain e =>
      refine .bind fun _ => ?_
      split
      · exact .bind fun _ => .inr (.inr rfl)
      · exact .bind fun _ => .bind fun _ => .bind fun _ => .inr (.inl rfl)
    | driver e => trivial
    | internal e => trivial

/-- The row of a claimed schedule, as the transaction sees it. -/
lemma Due.row (hdue : Due now id s d) {z : Database} (hz : z.schedules = d.schedules) :
    z.schedules.get? s.id = some s := by
  rw [hz, Table.key_of_get? hdue.found]
  exact hdue.found

/-- `advanceSchedule` of a row that is there. -/
lemma advanceSchedule_alone {α : Type} {consumeRun : Bool} {f : Unit → Tx α} {a : α}
    (h : Alone now d w) (hrow : (c.write d).schedules.get? s.id = some s) (hnow : c.now = now)
    (hrun : perform deadlineAt ((advanceSchedule P s consumeRun).bind f) c w = (.ok a, c', w')) :
    ∃ acquired, perform deadlineAt (f ())
      (c.done (fun x => x.setSchedule (s.advance P consumeRun now)) acquired) w.tick =
        (.ok a, c', w') := by
  simp only [advanceSchedule, Program.bind_eq, Program.pure_eq, Program.bind_assoc] at hrun
  obtain ⟨r, write, acquired, hdone, hrun⟩ := h.perform_exec hrun
  have hwrite := updateRow_done hrow hdone
  rw [hnow] at hwrite
  subst hwrite
  exact ⟨acquired, hrun⟩

/-- The late path, statement by statement. -/
lemma skipOccurrence_alone {lateBy : ℤ} {f : RunOutcome → Tx Reply} {reply : Reply}
    (h : Alone now d w) (hnow : c.now = now) (hdue : Due now id s d)
    (hup : Upserted s.id s.nextRunAt o d (c.write d)) (hmissed : Missed P now s.nextRunAt)
    (hrun : perform deadlineAt ((skipOccurrence P s o.id lateBy).bind f) c w =
      (.ok reply, c', w')) :
    ∃ c₁ w₁, Visit P now id .skipped d (c₁.write d) ∧
      perform deadlineAt (f .skipped) c₁ w₁ = (.ok reply, c', w') := by
  simp only [skipOccurrence, settleOccurrence, scheduleEvent, enqueueEvent, Program.bind_eq,
    Program.pure_eq, Program.bind_assoc] at hrun
  obtain ⟨r, write, acquired, hdone, hrun⟩ := h.perform_exec hrun
  have hwrite := updateRow_done hup.get? hdone
  rw [hnow] at hwrite
  subst hwrite
  have hrow : ∀ settled, ((c.done (fun d => d.setOccurrence settled) acquired).write
      d).schedules.get? s.id = some s :=
    fun settled => hdue.row (z := (c.write d).setOccurrence settled) hup.tables.2.2.2
  obtain ⟨acquired', hrun⟩ := advanceSchedule_alone h.tick (hrow _) hnow hrun
  obtain ⟨e, write, acquired'', hdone, hrun⟩ := h.tick.tick.perform_exec hrun
  obtain ⟨hunused, hwrite⟩ := insertRow_done hdone
  subst hwrite
  refine ⟨_, _, ?_, hrun⟩
  have hevents : ((c.write d).outboxEvents).has w.tick.tick.now.input.uuid = false := hunused
  rw [hup.rest] at hevents
  have hvisited := @Visit.skipped P _ _ _ _ _ _
    ("Missed its window by " ++ toString (roundSeconds lateBy) ++ "s") _
    hdue hup hmissed hevents
  rw [← hnow] at hvisited ⊢
  exact hvisited

/-- What `runSchedule` commits. -/
lemma runSchedule_ensures : Alone.Ensures now d (runSchedule P id) fun reply y =>
    ∃ outcome, reply = .run outcome ∧ Visit P now id outcome d y := by
  intro deadlineAt w w' reply c h hrun
  have hall : wp (discipline (fun _ => False) fun _ _ _ => True) (runSchedule P id) _ _
      (.start now) d := wp_runSchedule
  obtain ⟨haborted, ⟨⟨outcome, hreply, hran⟩, -⟩, -⟩ :=
    h.wp (fun _ _ _ => trivial) hall le_rfl hrun d Discipline.rely_refl
  refine ⟨haborted, outcome, hreply, ?_⟩
  subst hreply
  simp only [runSchedule, Program.bind_eq, Program.pure_eq] at hrun
  obtain ⟨found, write, acquired, hdone, hrun⟩ := h.perform_exec hrun
  obtain ⟨rfl, hfound⟩ := selectDueSchedule_done hdone
  cases found with
  | none =>
    cases hrun
    exact .notDue hfound
  | some s =>
    have hdue : Due now id s d := hfound
    obtain ⟨claimed, write, acquired', hdone, hrun⟩ := h.tick.perform_exec hrun
    have hclaimed := upsertOccurrence_done hdone
    cases claimed with
    | none =>
      obtain ⟨rfl, o, ho, hsettled⟩ := hclaimed
      obtain ⟨acquired'', hrun⟩ := advanceSchedule_alone h.tick.tick (hdue.row rfl) rfl hrun
      cases hrun
      exact .duplicate hdue ho hsettled
    | some o =>
      have hup : Upserted s.id s.nextRunAt o d (write d) := hclaimed
      change perform deadlineAt ((runOccurrence P s o).bind fun outcome =>
        .ret (Reply.run outcome)) _ _ = _ at hrun
      simp only [runOccurrence, Program.bind_eq, dateNow, Program.bind] at hrun
      rw [h.tick.tick.perform_input] at hrun
      split at hrun
      · rename_i hmissed
        obtain ⟨c₁, w₁, hvisited, hrun⟩ :=
          skipOccurrence_alone h.tick.tick.tick rfl hdue hup hmissed hrun
        cases hrun
        exact hvisited
      · rename_i hmissed
        have hreplies : ∀ outcome' : RunOutcome, outcome'.Attempts → Yields now
            (fun reply => ∃ outcome : RunOutcome, reply = .run outcome ∧ outcome.Attempts)
            (Program.ret (Reply.run outcome') : Tx Reply) := fun outcome' h => ⟨outcome', rfl, h⟩
        obtain ⟨outcome', heq, hattempts⟩ :=
          (yields_attempt.andThen hreplies).perform h.tick.tick.tick hrun
        cases heq
        exact .attempted hdue hup.unsettled hmissed hattempts hran

/-- A visit that ends well. -/
lemma visitSchedule_alone {outcome : RunOutcome} (h : Alone now d w)
    (hrun : visitSchedule P id w = (.ok outcome, w')) :
    ∃ d', Alone now d' w' ∧ Visit P now id outcome d d' := by
  unfold visitSchedule at hrun
  cases hcall : (withTransaction (runSchedule P id) {} w).1 with
  | error e =>
    rw [hcall] at hrun
    cases hrun
  | ok reply =>
    rw [hcall] at hrun
    obtain ⟨d', hd', outcome', hreply, hvisited⟩ :=
      h.withTransaction runSchedule_ensures (Prod.ext hcall rfl)
    subst hreply
    cases hrun
    exact ⟨d', hd', hvisited⟩

/-! ### Ticks -/

/-- The schedules that a tick finds. -/
def Database.dueIds (d : Database) (now : Timestamp) (limit : ℕ) : List Uuid :=
  (((d.schedules.rows.filter fun s => s.IsDue now).insertionSort fun a b =>
    a.nextRunAt ≤ b.nextRunAt).take limit).map Schedule.id

lemma findDueScheduleIds_ensures {limit : ℕ} :
    Alone.Ensures now d (findDueScheduleIds limit) fun ids y =>
      ids = d.dueIds now limit ∧ y = d := by
  intro deadlineAt w w' ids c h hrun
  rw [findDueScheduleIds, ← Program.bind_ret (query _)] at hrun
  obtain ⟨r, write, acquired, hdone, hrun⟩ := h.perform_exec hrun
  cases hdone
  cases hrun
  exact ⟨rfl, rfl, rfl⟩

/-- The visits of a tick, one after the other. -/
inductive Visits (P : Platform) (now : Timestamp) : List Uuid → Database → Database → Prop where
  | nil (x : Database) : Visits P now [] x x
  | cons {id : Uuid} {ids : List Uuid} {outcome : RunOutcome} {x y z : Database}
      (visited : Visit P now id outcome x y) (rest : Visits P now ids y z) :
      Visits P now (id :: ids) x z

lemma runEach_alone {ids : List Uuid} {result result' : ScheduleTickResult} (h : Alone now d w)
    (hrun : runEach (visitSchedule P) ids result w = (.ok result', w')) :
    ∃ d', Alone now d' w' ∧ Visits P now ids d d' := by
  induction ids generalizing d result w with
  | nil =>
    cases hrun
    exact ⟨d, h, .nil d⟩
  | cons id ids ih =>
    unfold runEach at hrun
    split at hrun
    · cases hrun
    · rename_i outcome w₁ hvisit
      obtain ⟨d₁, h₁, hvisited⟩ := visitSchedule_alone h hvisit
      obtain ⟨d', h', hvisits⟩ := ih h₁ hrun
      exact ⟨d', h', .cons hvisited hvisits⟩

/-- A tick that ends well visits the schedules it has found. -/
theorem runDueSchedules_alone {limit : ℕ} {result : ScheduleTickResult} (h : Alone now d w)
    (hrun : runDueSchedules P limit w = (.ok result, w')) :
    ∃ d', Alone now d' w' ∧ Visits P now (d.dueIds now limit) d d' := by
  unfold runDueSchedules runDueSchedulesBy at hrun
  split at hrun
  · cases hrun
  · rename_i ids w₁ hfind
    obtain ⟨d₁, h₁, rfl, rfl⟩ := h.withTransaction findDueScheduleIds_ensures hfind
    split at hrun
    · rename_i hnil
      cases hrun
      rw [hnil]
      exact ⟨_, h₁, .nil _⟩
    · exact runEach_alone h₁ hrun

end

end TakaFlow
