import TakaFlow.Spec.Pace

/-!
# What commits do to due times

`next_run_at` is written by five statements: those that create a schedule, let its owner pause,
resume or cancel it, let an operator make it due, and the two of the worker.
-/

namespace TakaFlow

open Txn

/-- Whoever owns a schedule asks for one of its transitions. -/
def Call.Asks (userId scheduleId : Uuid) : ScheduleTarget → Call → Prop
  | .paused, call => ∃ context, call = .pauseSchedule userId scheduleId context
  | .active, call => ∃ context, call = .resumeSchedule userId scheduleId context
  | .cancelled, call => ∃ context, call = .cancelSchedule userId scheduleId context

/-- The tables of schedules and of their occurrences. -/
def Database.plans (d : Database) : Database :=
  { schedules := d.schedules, occurrences := d.occurrences }

section

variable (P : Platform) (watched : Token → Prop) (now : Timestamp) (x y : Database)

/-- The step from `x` to `y`, as the schedules see it. -/
inductive Planning (call : Call) : Prop where
  | still (plans : y.plans = x.plans)
  | created {user payeeUserId : Uuid} {key : String} {input : CreateScheduleInput} {raw : Json}
      {context : RequestContext} {s : Schedule}
      (called : call = .createSchedule user key input raw context)
      (row : s = newSchedule s.id user payeeUserId input now)
      (unused : x.schedules.has s.id = false) (plans : y.plans = (x.insertSchedule s).plans)
  | transitioned {user id : Uuid} {target : ScheduleTarget} {s : Schedule}
      (called : call.Asks user id target) (found : x.schedules.get? id = some s)
      (owner : s.ownerUserId = user) (legal : s.status ∈ target.legalFrom)
      (plans : y.plans = (x.setSchedule (s.transition target.status now)).plans)
  | nudged {id : Uuid} {s : Schedule} (called : call = .makeScheduleDue id)
      (found : x.schedules.get? id = some s) (active : s.status = .active)
      (plans : y.plans = (x.setSchedule (s.nudge now)).plans)
  | ran {id : Uuid} {outcome : RunOutcome} (called : call = .runSchedule id)
      (ran : Ran P watched now id outcome x y)

end

section refinement

variable {P : Platform} {watched : Token → Prop} {may : ℕ → Database → Token → Prop}
  {now : Timestamp} {x y : Database}

lemma Notes.plans {contents : List Content} (h : Notes now contents x y) : y.plans = x.plans := by
  rw [h.rest]
  rfl

/-- Work that leaves the schedules alone. -/
lemma Idempotent.plans {userId : Uuid} {key endpoint requestHash : String}
    {work : Uuid → ℕ × Json → Database → Database → Prop} {reply : Reply}
    (h : Idempotent userId key endpoint requestHash work now reply x y)
    (hwork : ∀ id result d e, work id result d e → e.plans = d.plans) : y.plans = x.plans := by
  cases h with
  | replay => rfl
  | @fresh _ e _ _ _ hdone _ =>
    have hplans : e.plans = (x.insertKey _).plans := hwork _ _ _ _ hdone
    exact hplans

lemma Terminated.plans {userId requestId : Uuid} {target : Termination}
    {reason : Option String} {reply : Reply}
    (h : Terminated now userId requestId target reason reply x y) : y.plans = x.plans := by
  cases h with
  | again => rfl
  | first _ _ _ notes => exact notes.plans

lemma Transitioned.planning {userId scheduleId : Uuid} {target : ScheduleTarget} {reply : Reply}
    {call : Call} (h : Transitioned now userId scheduleId target reply x y)
    (hcall : call.Asks userId scheduleId target) : Planning P watched now x y call := by
  cases h with
  | again => exact .still rfl
  | first found owner legal notes => exact .transitioned hcall found owner legal notes.plans

/-- Every commit does one of these. -/
theorem CommitSpec.planning {call : Call} {reply : Reply}
    (h : CommitSpec P watched may now call reply x y) : Planning P watched now x y call := by
  cases call with
  | register input context =>
    obtain ⟨user, account, m, z, h⟩ := h
    obtain ⟨token, rfl⟩ := h.session
    exact .still h.notes.plans
  | sendMoney => exact .still (h.2.plans fun _ _ _ _ ⟨_, _, _, hs⟩ => hs.notes.plans)
  | reverseTransfer =>
    exact .still (Idempotent.plans h fun _ _ _ _ ⟨_, _, _, hr⟩ => hr.notes.plans)
  | createRequest => exact .still (h.2.plans fun _ _ _ _ ⟨_, _, _, hr⟩ => hr.notes.plans)
  | acceptRequest =>
    exact .still (Idempotent.plans h fun _ _ _ _ ⟨_, _, _, _, hr⟩ => hr.notes.plans)
  | declineRequest => exact .still (Terminated.plans h)
  | cancelRequest => exact .still (Terminated.plans h)
  | expireRequests =>
    obtain ⟨rows, -, h⟩ := h
    refine .still (h.notes.plans.trans ?_)
    rw [Database.expire_rest]
    rfl
  | createSplit =>
    obtain ⟨shares, -, h⟩ := h
    refine .still (h.plans fun _ _ _ _ ⟨_, _, _, hr⟩ => hr.notes.plans.trans ?_)
    rw [Database.insertRequests_rest]
    rfl
  | createSchedule =>
    cases h.2 with
    | replay => exact .still rfl
    | fresh _ hdone =>
      obtain ⟨payee, s, -, hs⟩ := hdone
      exact .created rfl hs.row hs.unused hs.notes.plans
  | pauseSchedule user id context => exact Transitioned.planning h ⟨context, rfl⟩
  | resumeSchedule user id context => exact Transitioned.planning h ⟨context, rfl⟩
  | cancelSchedule user id context => exact Transitioned.planning h ⟨context, rfl⟩
  | makeScheduleDue id =>
    obtain ⟨s, h⟩ := h
    exact .nudged rfl h.found h.active (congrArg Database.plans h.row)
  | runSchedule id =>
    obtain ⟨outcome, -, h⟩ := h
    exact .ran rfl h
  | setOwnFreeze =>
    cases h with
    | same => exact .still rfl
    | set _ _ _ notes => exact .still notes.plans
  | setAccountStatus =>
    obtain ⟨a, h⟩ := h
    exact .still h.notes.plans
  | closeAccount =>
    cases h with
    | none => exact .still rfl
    | set => exact .still rfl

end refinement

/-! ### Visits of the worker -/

/-- A visit that claims an occurrence, and leaves its row and that of its schedule: the occurrence
is still pending and due, or it has come to an end. -/
structure Visited (now : Timestamp) (x y : Database) (s s' : Schedule) (o o' : Occurrence) :
    Prop where
  due : Due now s.id s x
  upserted : ∃ z, Upserted s.id s.nextRunAt o x z
  row : y.occurrences.get? o.id = some o'
  others : ∀ id, id ≠ o.id → y.occurrences.get? id = x.occurrences.get? id
  schedules : y.schedules = (x.setSchedule s').schedules
  reassigns : s.Reassigns s'
  same : o'.id = o.id ∧ o'.key = o.key
  outcome : o' = o ∧ s'.nextRunAt = s.nextRunAt ∨ o'.status ≠ .pending

section

variable {P : Platform} {watched : Token → Prop} {now : Timestamp} {x y z : Database}
  {s s' : Schedule} {o : Occurrence}

/-- Only the schedules matter to the schedules. -/
lemma Database.setSchedule_congr (h : z.schedules = x.schedules) (s : Schedule) :
    (z.setSchedule s).schedules = (x.setSchedule s).schedules := by
  unfold setSchedule
  rw [h]

/-- The occurrence of a visit has come to an end. -/
lemma Upserted.visited {id : Uuid} {status : OccurrenceStatus} {transferId : Option Uuid}
    {reason : Option String} (h : Upserted s.id s.nextRunAt o x z) (due : Due now id s x)
    (hz : y.plans =
      ((z.setOccurrence (o.settle status transferId reason now)).setSchedule s').plans)
    (hs : s.Reassigns s') (hstatus : status ≠ .pending) :
    Visited now x y s s' o (o.settle status transferId reason now) := by
  have hoccurrences : y.occurrences =
      (z.setOccurrence (o.settle status transferId reason now)).occurrences :=
    (congrArg Database.occurrences hz :)
  have hschedules : y.schedules = (z.setSchedule s').schedules :=
    (congrArg Database.schedules hz :)
  have hget : ∀ i, y.occurrences.get? i =
      if i = o.id then some (o.settle status transferId reason now) else x.occurrences.get? i := by
    intro i
    rw [hoccurrences]
    exact h.settled_get? rfl i
  exact
    { due := due.get?.2
      upserted := ⟨z, h⟩
      row := (hget _).trans (if_pos rfl)
      others := fun i hi => (hget i).trans (if_neg hi)
      schedules := hschedules.trans (Database.setSchedule_congr h.tables.2.2.2 s')
      reassigns := hs
      same := ⟨rfl, rfl⟩
      outcome := .inr hstatus }

/-- What a visit does to the schedules. -/
lemma Ran.visited {id : Uuid} {outcome : RunOutcome} (h : Ran P watched now id outcome x y) :
    y.plans = x.plans ∨
      (∃ s o, Due now s.id s x ∧ x.occurrenceAt (s.id, s.nextRunAt) = some o ∧
        o.status ≠ .pending ∧ y.plans = (x.setSchedule (s.advance P false now)).plans) ∨
      ∃ s s' o o', Visited now x y s s' o o' := by
  cases h with
  | notClaimed => exact .inl rfl
  | duplicate due found settled =>
    exact .inr (.inl ⟨_, _, due.get?.2, found, settled, rfl⟩)
  | skipped due upserted _ notes =>
    exact .inr (.inr ⟨_, _, _, _, upserted.visited due notes.plans
      (Schedule.reassigns_advance _ P false now) nofun⟩)
  | paid due upserted _ _ _ _ _ _ notes =>
    exact .inr (.inr ⟨_, _, _, _, upserted.visited due notes.plans
      (Schedule.reassigns_advance _ P true now) nofun⟩)
  | @deferred _ z s o retryAt due upserted _ _ =>
    refine .inr (.inr ⟨s, { s with retryAfter := some retryAt }, o, o, ?_⟩)
    exact
      { due := due.get?.2
        upserted := ⟨z, upserted⟩
        row := upserted.get?
        others := fun i hi => upserted.get?_of_ne hi
        schedules := Database.setSchedule_congr upserted.tables.2.2.2 _
        reassigns := rfl
        same := ⟨rfl, rfl⟩
        outcome := .inl ⟨rfl, rfl⟩ }
  | failed due upserted notes =>
    exact .inr (.inr ⟨_, _, _, _, upserted.visited due notes.plans
      (Schedule.reassigns_advance _ P false now) nofun⟩)

end

end TakaFlow
