import TakaFlow.Safety.Payments
import TakaFlow.Spec.Planning

/-!
# Deferred occurrences

An occurrence that is put off stays the current one of its schedule, unless a resumption or an
operator moves the due time of the schedule meanwhile.
-/

namespace TakaFlow

open Txn

/-- The due time a resumption or the operator's statement moves a schedule to. -/
def Schedule.movedTo (s : Schedule) (call : Call) (now : Timestamp) : Option Timestamp :=
  match call with
  | .resumeSchedule user id _ =>
    if s.id = id ∧ s.ownerUserId = user ∧ s.status = .paused ∧ s.nextRunAt < now then some now
    else none
  | .makeScheduleDue id =>
    if s.id = id ∧ s.status = .active then some (now - microsPerSecond) else none
  | _ => none

/-- The commit moves no schedule away from a pending occurrence. -/
def KeepsDue (call : Call) (now : Timestamp) (x _y : Database) : Prop :=
  ∀ o ∈ x.occurrences.rows, o.status = .pending → ∀ s ∈ x.schedules.rows, s.id = o.scheduleId →
    ∀ t ∈ s.movedTo call now, t = o.dueAt

instance (call : Call) (now : Timestamp) (x y : Database) : Decidable (KeepsDue call now x y) := by
  unfold KeepsDue
  infer_instance

/-- Every pending occurrence is the current one of its schedule. -/
def Database.Current (d : Database) : Prop :=
  ∀ o ∈ d.occurrences, o.status = .pending →
    ∃ s, d.schedules.get? o.scheduleId = some s ∧ s.nextRunAt = o.dueAt

/-- A pending occurrence keeps its identity, and no other one of its schedule is attempted. -/
def StaysWith (x y : Database) : Prop :=
  ∀ o ∈ x.occurrences, o.status = .pending →
    (∃ o' ∈ y.occurrences, o'.id = o.id ∧ o'.key = o.key) ∧
      ∀ o' ∈ y.occurrences, o'.scheduleId = o.scheduleId → o' ∈ x.occurrences ∨ o'.id = o.id

/-- One key names one occurrence. -/
def Database.Apart (d : Database) : Prop :=
  ∀ o ∈ d.occurrences, ∀ o' ∈ d.occurrences, o.key = o'.key → o = o'

section

variable {P : Platform} {watched : Token → Prop} {now : Timestamp} {call : Call} {x y : Database}
  {s s' : Schedule} {o o' : Occurrence}

lemma Schedule.movedTo_resume {user id : Uuid} {context : RequestContext}
    (hid : s.id = id) (howner : s.ownerUserId = user) (hstatus : s.status = .paused)
    (hlt : s.nextRunAt < now) :
    s.movedTo (.resumeSchedule user id context) now = some now :=
  if_pos ⟨hid, howner, hstatus, hlt⟩

lemma Schedule.movedTo_due {id : Uuid} (hid : s.id = id) (hstatus : s.status = .active) :
    s.movedTo (.makeScheduleDue id) now = some (now - microsPerSecond) :=
  if_pos ⟨hid, hstatus⟩

lemma StaysWith.of_same (h : y.occurrences = x.occurrences) : StaysWith x y := by
  intro o ho _
  rw [h]
  exact ⟨⟨o, ho, rfl, rfl⟩, fun o' ho' _ => .inl ho'⟩

namespace Database.Current

lemma of_same (h : x.Current) (hplans : y.plans = x.plans) : y.Current := by
  have hs : y.schedules = x.schedules := (congrArg Database.schedules hplans :)
  have ho : y.occurrences = x.occurrences := (congrArg Database.occurrences hplans :)
  unfold Current
  rw [hs, ho]
  exact h

/-- A schedule is written, and its pending occurrences are due when it is. -/
lemma setSchedule (h : x.Current) (hfound : x.schedules.get? s.id = some s)
    (hs : s.Reassigns s') (hplans : y.plans = (x.setSchedule s').plans)
    (hdue : ∀ o ∈ x.occurrences, o.status = .pending → o.scheduleId = s.id →
      s'.nextRunAt = o.dueAt) : y.Current := by
  refine of_same (x := x.setSchedule s') (fun o ho hpending => ?_) hplans
  by_cases hid : o.scheduleId = s.id
  · refine ⟨s', ?_, hdue o ho hpending hid⟩
    rw [hid]
    exact Database.get?_setSchedule hfound hs
  · rw [Database.get?_setSchedule_of_ne hs hid]
    exact h o ho hpending

/-- The due time of a schedule with a pending occurrence. -/
lemma due (h : x.Current) (hfound : x.schedules.get? s.id = some s) (ho : o ∈ x.occurrences)
    (hpending : o.status = .pending) (hid : o.scheduleId = s.id) :
    o.key = (s.id, s.nextRunAt) := by
  obtain ⟨q, hq, hdue⟩ := h o ho hpending
  rw [hid, hfound] at hq
  cases hq
  rw [Occurrence.key, hid, hdue]

/-- A visit of the worker finds the pending occurrence of its schedule, if it has one. -/
lemma visited (h : x.Current) (hapart : x.Apart) (hv : Visited now x y s s' o o')
    {q : Occurrence} (hq : q ∈ x.occurrences) (hpending : q.status = .pending)
    (hid : q.scheduleId = s.id) : q.id = o.id := by
  have hkey := h.due hv.due.found hq hpending hid
  obtain ⟨z, hup⟩ := hv.upserted
  cases hup with
  | first none unused =>
    have hne := List.find?_eq_none.mp none q hq
    rw [decide_eq_true_eq] at hne
    exact absurd hkey hne
  | @retry _ p found pending =>
    have hp := occurrenceAt_mem found
    rw [hapart q hq p hp.1 (hkey.trans hp.2.symm)]

end Database.Current

lemma Visited.current (hv : Visited now x y s s' o o') (h : x.Current) (hapart : x.Apart) :
    y.Current := by
  intro q hq hpending
  have hget := Table.get?_of_mem hq
  obtain ⟨z, hup⟩ := hv.upserted
  by_cases hid : q.id = o.id
  · rw [hid, hv.row] at hget
    obtain rfl : q = o' := (Option.some.inj hget).symm
    obtain ⟨hsame, hdue⟩ | hended := hv.outcome
    · have hkey : q.key = (s.id, s.nextRunAt) := hv.same.2.trans hup.key
      obtain ⟨hqs, hqd⟩ := Prod.mk.inj hkey
      refine ⟨s', ?_, hdue.trans hqd.symm⟩
      rw [hqs, hv.schedules]
      exact Database.get?_setSchedule hv.due.found hv.reassigns
    · exact absurd hpending hended
  · rw [hv.others _ hid] at hget
    have hqx := Table.mem_of_get? hget
    have hne : q.scheduleId ≠ s.id := fun heq => hid (h.visited hapart hv hqx hpending heq)
    rw [hv.schedules, Database.get?_setSchedule_of_ne hv.reassigns hne]
    exact h q hqx hpending

lemma Visited.follows (hv : Visited now x y s s' o o') (h : x.Current) (hapart : x.Apart) :
    StaysWith x y := by
  intro q hq hpending
  have hget := Table.get?_of_mem hq
  have hback : ∀ p ∈ y.occurrences, p.id ≠ o.id → p ∈ x.occurrences := fun p hp hne =>
    Table.mem_of_get? ((hv.others _ hne).symm.trans (Table.get?_of_mem hp))
  obtain ⟨z, hup⟩ := hv.upserted
  by_cases hid : q.id = o.id
  · refine ⟨⟨o', Table.mem_of_get? hv.row, hv.same.1.trans hid.symm, hv.same.2.trans ?_⟩,
      fun p hp _ => ?_⟩
    · have hclaims := hup.claims
      rw [← hid, hget] at hclaims
      cases hclaims with
      | retry => rfl
    · by_cases hp' : p.id = o.id
      · exact .inr (hp'.trans hid.symm)
      · exact .inl (hback p hp hp')
  · refine ⟨⟨q, Table.mem_of_get? ((hv.others _ hid).trans hget), rfl, rfl⟩, fun p hp hps => ?_⟩
    by_cases hp' : p.id = o.id
    · have hpo : p = o' := by
        have hgetp := Table.get?_of_mem hp
        rw [hp', hv.row] at hgetp
        exact (Option.some.inj hgetp).symm
      have hps' : p.scheduleId = s.id := by
        have hkey : o'.key = (s.id, s.nextRunAt) := hv.same.2.trans hup.key
        rw [hpo]
        exact congrArg Prod.fst hkey
      exact absurd (h.visited hapart hv hq hpending (hps.symm.trans hps')) hid
    · exact .inl (hback p hp hp')

/-- The step lemma. -/
lemma Planning.current (hp : Planning P watched now x y call) (h : x.Current) (hapart : x.Apart)
    (hkeeps : KeepsDue call now x y) : y.Current ∧ StaysWith x y := by
  cases hp with
  | still plans =>
    exact ⟨h.of_same plans, .of_same (congrArg Database.occurrences plans :)⟩
  | @created user payeeUserId key input raw context s called row unused plans =>
    refine ⟨.of_same (x := x.insertSchedule s) (fun o ho hpending => ?_) plans,
      .of_same (congrArg Database.occurrences plans :)⟩
    obtain ⟨q, hq, hdue⟩ := h o ho hpending
    exact ⟨q, Table.get?_insert_of_some hq, hdue⟩
  | @transitioned user id target s called found owner legal plans =>
    have hid : s.id = id := Table.key_of_get? found
    subst hid
    have hs : s.Reassigns (s.transition target.status now) := rfl
    refine ⟨h.setSchedule found hs plans fun o ho hpending hos => ?_,
      .of_same (congrArg Database.occurrences plans :)⟩
    have hdue : s.nextRunAt = o.dueAt := (congrArg Prod.snd (h.due found ho hpending hos)).symm
    change (if _ then now else s.nextRunAt) = o.dueAt
    split_ifs with hmoves
    · obtain ⟨htarget, hlt⟩ := hmoves
      cases target with
      | active =>
        obtain ⟨context, rfl⟩ := called
        have hpaused : s.status = .paused := List.mem_singleton.mp legal
        exact hkeeps o ho hpending s (Table.mem_of_get? found) hos.symm now
          (Schedule.movedTo_resume rfl owner hpaused hlt)
      | _ => cases htarget
    · exact hdue
  | @nudged id s called found active plans =>
    have hid : s.id = id := Table.key_of_get? found
    subst hid called
    refine ⟨h.setSchedule found (s.reassigns_nudge now) plans fun o ho hpending hos => ?_,
      .of_same (congrArg Database.occurrences plans :)⟩
    exact hkeeps o ho hpending s (Table.mem_of_get? found) hos.symm _
      (Schedule.movedTo_due rfl active)
  | ran called ran =>
    obtain hplans | ⟨s, o, due, found, settled, hplans⟩ | ⟨s, s', o, o', hv⟩ := ran.visited
    · exact ⟨h.of_same hplans, .of_same (congrArg Database.occurrences hplans :)⟩
    · refine ⟨h.setSchedule due.found (s.reassigns_advance P false now) hplans
        fun q hq hpending hqs => ?_, .of_same (congrArg Database.occurrences hplans :)⟩
      obtain ⟨ho, hkey⟩ := occurrenceAt_mem found
      have hsame := hapart q hq o ho ((h.due due.found hq hpending hqs).trans hkey.symm)
      exact absurd (hsame ▸ hpending) settled
    · exact ⟨hv.current h hapart, hv.follows h hapart⟩

end

/-! ### The guarantee -/

/-- No occurrence is abandoned in a run. -/
structure NoneAbandoned (s : State) : Prop where
  current : ∀ o ∈ s.db.occurrences, o.status = .pending →
    ∃ p ∈ s.db.schedules, p.id = o.scheduleId ∧ p.nextRunAt = o.dueAt
  /-- A pending occurrence is retried under its identity, and stands behind no other one. -/
  followed : ∀ r ∈ s.history, StaysWith r.before r.after

/-- No occurrence is abandoned while no resumption and no operator moves the due time of a schedule
that has a pending occurrence. -/
theorem deferrals_hold {P : Platform} {s : State}
    (h : ReachableIf P (fun s e => s.AtCommit KeepsDue e) s) : NoneAbandoned s := by
  have hsound := h.reachable.sound
  obtain ⟨t, hreaches⟩ := h
  have hkeeps := hreaches.atCommit fun _ _ hok => hok
  have hstep : ∀ r ∈ s.history, r.before.Apart ∧ r.before.Current →
      (r.after.Apart ∧ r.after.Current) ∧ StaysWith r.before r.after := by
    rintro r hr ⟨hapart, hcurrent⟩
    have hafter : Payments P r.after := (hsound.invariant_mem (.seed P)
      (fun _ _ _ _ hstep hx => hx.step hstep) hr).2
    obtain ⟨hcurrent', hfollows⟩ :=
      (hsound.commits r hr).1.planning.current hcurrent hapart (hkeeps r hr)
    exact ⟨⟨hafter.apart, hcurrent'⟩, hfollows⟩
  have hseed : seed.Apart ∧ seed.Current := ⟨nofun, nofun⟩
  constructor
  · intro o ho hpending
    obtain ⟨-, hcurrent⟩ := hsound.linked.invariant (I := fun d => d.Apart ∧ d.Current) hseed
      fun r hr hx => (hstep r hr hx).1
    obtain ⟨p, hget, hdue⟩ := hcurrent o ho hpending
    exact ⟨p, Table.mem_of_get? hget, Table.key_of_get? hget, hdue⟩
  · intro r hr
    have hbefore := (hsound.linked.invariant_mem (I := fun d => d.Apart ∧ d.Current) hseed
      (fun r hr hx => (hstep r hr hx).1) r hr).1
    exact (hstep r hr hbefore).2

/-- Asha cannot pay an occurrence, and an operator makes her schedule due. -/
def deferredRun : List Step :=
  session 0 100 asha ++ session 1 200 babu ++
    session 2 300 (.createSchedule 100 "k"
      { toPhone := "01722222222", amountMinor := 5000000, intervalKind := .daily,
        startAt := 1800000000000 } .null {}) ++
    session 3 400 (.sendMoney 100 "l" ⟨"01722222222", 5000000, none⟩ .null {}) ++
    session 4 500 (.sendMoney 100 "m" ⟨"01722222222", 4900000, none⟩ .null {}) ++
    .tick (2 * microsPerSecond) :: session 5 600 (.runSchedule 303) ++
    session 6 700 (.makeScheduleDue 303) ++ [.crash 6] ++
    session 7 800 (.sendMoney 200 "n" ⟨"01711111111", 5000000, none⟩ .null {}) ++
    .tick (1000 * microsPerSecond) :: session 8 900 (.runSchedule 303)

/-- The steps that move no schedule away from a pending occurrence. -/
def keepsDue (s : State) (e : Step) : Bool :=
  s.meetsAtCommit (fun call now x y => decide (KeepsDue call now x y)) e

/-- The operator has to wait and gives up, and the occurrence is paid after all. -/
theorem deferrals_hold_deferredRun :
    (State.afterIf sample keepsDue deferredRun).db.occurrences.rows.map
        (fun o => (o.id, o.dueAt, o.status)) = [(601, 1800000000000000, .paid)] ∧
      (State.afterIf sample keepsDue deferredRun).history.map Commit.session =
        [0, 1, 2, 3, 4, 5, 7, 8] ∧
      NoneAbandoned (State.afterIf sample keepsDue deferredRun) :=
  ⟨by decide +kernel, by decide +kernel, deferrals_hold (reachableIf_afterIf
    (fun _ _ h => Sys.atCommit_of_meets (fun _ _ _ _ hk => of_decide_eq_true hk) h)
    sample deferredRun)⟩

/-- The operator's statement gives the schedule another due time, and the occurrence stays pending
behind the one that is paid. -/
theorem deferral_abandoned : ∃ s, Reachable sample s ∧
    (∃ o ∈ s.db.occurrences, ∃ o' ∈ s.db.occurrences, o.scheduleId = o'.scheduleId ∧
      o.status = .pending ∧ o'.status = .paid ∧ o.dueAt < o'.dueAt) ∧ ¬ NoneAbandoned s := by
  refine ⟨_, reachable_after sample deferredRun, ?_, fun h => ?_⟩
  · have hfound : ((State.after sample deferredRun).db.occurrences.rows.any fun o =>
        (State.after sample deferredRun).db.occurrences.rows.any fun o' =>
          o.scheduleId = o'.scheduleId ∧ o.status = .pending ∧ o'.status = .paid ∧
            o.dueAt < o'.dueAt) = true := by decide +kernel
    simp only [List.any_eq_true, decide_eq_true_eq] at hfound
    exact hfound
  · have hlost : ((State.after sample deferredRun).db.occurrences.rows.any fun o =>
        o.status = .pending &&
          (State.after sample deferredRun).db.schedules.rows.all fun p =>
            !decide (p.id = o.scheduleId ∧ p.nextRunAt = o.dueAt)) = true := by decide +kernel
    simp only [List.any_eq_true, Bool.and_eq_true, List.all_eq_true, Bool.not_eq_true',
      decide_eq_true_eq, decide_eq_false_iff_not] at hlost
    obtain ⟨o, ho, hpending, hall⟩ := hlost
    obtain ⟨p, hp, hcurrent⟩ := h.current o ho hpending
    exact hall p hp hcurrent

end TakaFlow
