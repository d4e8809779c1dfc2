import Mathlib.Algebra.Order.BigOperators.Group.List
import TakaFlow.Spec.Visits

/-!
# What a visit does to each schedule

A visit leaves all schedules alone but one. That one passes over an occurrence that has come to an
end before, brings one to an end, or puts it off. Each of the three lowers what is left to do.
-/

namespace TakaFlow

open Txn

/-! ### What is looked at -/

/-- What the owner of a schedule has been told about skipped occurrences, in order. -/
def Database.skips (d : Database) (id : Uuid) : List Fields :=
  (d.outboxEvents.rows.filter fun e =>
    e.eventType = .scheduleSkipped ∧ e.aggregateId = id).map OutboxEvent.payload

/-- How often the occurrence that is due has been attempted. -/
def Database.attemptsAt (d : Database) (s : Schedule) : ℕ :=
  (d.occurrenceAt (s.id, s.nextRunAt)).elim 0 Occurrence.attempts

/-- A commit that has nothing to do with the schedule. -/
structure Untouched (id : Uuid) (x y : Database) : Prop where
  row : y.schedules.get? id = x.schedules.get? id
  occurrences : ∀ t, y.occurrenceAt (id, t) = x.occurrenceAt (id, t)
  runs : y.runs id .paid = x.runs id .paid
  skips : y.skips id = x.skips id

/-- How an occurrence may end: after the grace period it is not paid any more. -/
inductive Verdict (P : Platform) (now dueAt : Timestamp) : OccurrenceStatus → Prop where
  | skipped (missed : Missed P now dueAt) : Verdict P now dueAt .skipped
  | paid (inTime : ¬ Missed P now dueAt) : Verdict P now dueAt .paid
  | failed (inTime : ¬ Missed P now dueAt) : Verdict P now dueAt .failed

/-- A commit that deals with the occurrence that is due. -/
inductive Headway (P : Platform) (now : Timestamp) (s : Schedule) (x y : Database) : Prop where
  | passed {o : Occurrence} (found : x.occurrenceAt (s.id, s.nextRunAt) = some o)
      (settled : o.status ≠ .pending)
      (row : y.schedules.get? s.id = some (s.advance P false now))
      (occurrences : ∀ t, y.occurrenceAt (s.id, t) = x.occurrenceAt (s.id, t))
      (runs : y.runs s.id .paid = x.runs s.id .paid) (skips : y.skips s.id = x.skips s.id)
  | ended {o : Occurrence} (unsettled : Unsettled (s.id, s.nextRunAt) x)
      (verdict : Verdict P now s.nextRunAt o.status)
      (row : y.schedules.get? s.id = some (s.advance P (o.status = .paid) now))
      (occurrences : ∀ t, y.occurrenceAt (s.id, t) =
        if t = s.nextRunAt then some o else x.occurrenceAt (s.id, t))
      (runs : y.runs s.id .paid = x.runs s.id .paid + if o.status = .paid then 1 else 0)
      (skips : y.skips s.id =
        x.skips s.id ++ if o.status = .skipped then [s.skipPayload] else [])
  | deferred {o : Occurrence} {retryAt : Timestamp} (unsettled : Unsettled (s.id, s.nextRunAt) x)
      (inTime : ¬ Missed P now s.nextRunAt) (status : o.status = .pending)
      (more : x.attemptsAt s < o.attempts) (attempts : o.attempts < P.config.scheduleMaxAttempts)
      (row : y.schedules.get? s.id = some { s with retryAfter := some retryAt })
      (occurrences : ∀ t, y.occurrenceAt (s.id, t) =
        if t = s.nextRunAt then some o else x.occurrenceAt (s.id, t))
      (runs : y.runs s.id .paid = x.runs s.id .paid) (skips : y.skips s.id = x.skips s.id)

/-! ### Occurrences -/

section

variable {scheduleId id : Uuid} {dueAt now : Timestamp} {o o' : Occurrence} {x y z d : Database}

lemma occurrenceAt_setOccurrence_self (h : d.occurrenceAt o.key = some o) (hid : o'.id = o.id)
    (hs : o'.scheduleId = o.scheduleId) (hd : o'.dueAt = o.dueAt) :
    (d.setOccurrence o').occurrenceAt o.key = some o' := by
  have hkey : o.key = o'.key := by simp only [Occurrence.key, hs, hd]
  simp only [Database.occurrenceAt, Database.setOccurrence] at h ⊢
  rw [Table.find?_modify_of_some h, if_pos hid.symm, if_pos hkey]
  · rw [← hid, ← hs, ← hd]
  · intro r
    split <;> rfl

/-- A claim makes or changes one occurrence. -/
lemma Upserted.occurrenceAt (h : Upserted scheduleId dueAt o x z) (k : OccurrenceKey) :
    z.occurrenceAt k = if k = (scheduleId, dueAt) then some o else x.occurrenceAt k := by
  cases h with
  | @first _ i none unused =>
    have hrows := Table.rows_insert
      (a := ({ id := i, scheduleId, dueAt, attempts := 1 } : Occurrence))
      ((Table.has_eq_false _ _).mp unused)
    simp only [Database.occurrenceAt, Database.insertOccurrence] at none ⊢
    rw [hrows, List.find?_append, List.find?_singleton]
    by_cases hk : k = (scheduleId, dueAt)
    · rw [hk, none, if_pos rfl]
      simp [Occurrence.key]
    · rw [if_neg hk]
      simp [Occurrence.key, Ne.symm hk]
  | @retry _ o found pending =>
    have hkey := (occurrenceAt_mem found).2
    by_cases hk : k = (scheduleId, dueAt)
    · rw [if_pos hk, hk, ← hkey]
      rw [← hkey] at found
      exact occurrenceAt_setOccurrence_self found rfl rfl rfl
    · rw [if_neg hk]
      exact occurrenceAt_setOccurrence_of_ne x { o with attempts := o.attempts + 1 } (hkey ▸ hk)

/-- So does its end. -/
lemma Upserted.settled_occurrenceAt {status : OccurrenceStatus} {transferId : Option Uuid}
    {reason : Option String} (h : Upserted scheduleId dueAt o x z)
    (hy : y.occurrences = z.occurrences) (k : OccurrenceKey) :
    (y.setOccurrence (o.settle status transferId reason now)).occurrenceAt k =
      if k = (scheduleId, dueAt) then some (o.settle status transferId reason now)
      else x.occurrenceAt k := by
  have hsame : ∀ k, y.occurrenceAt k = z.occurrenceAt k := fun k => by
    simp only [Database.occurrenceAt, hy]
  by_cases hk : k = (scheduleId, dueAt)
  · have hrow : y.occurrenceAt o.key = some o := by
      rw [hsame, h.occurrenceAt, if_pos h.key]
    rw [if_pos hk, hk, ← h.key]
    exact occurrenceAt_setOccurrence_self hrow rfl rfl rfl
  · have hne : k ≠ (o.settle status transferId reason now).key := fun he => hk (he.trans h.key)
    rw [if_neg hk, occurrenceAt_setOccurrence_of_ne _ _ hne, hsame, h.occurrenceAt, if_neg hk]

/-! ### Events -/

/-- A transaction that skips nothing tells nobody so. -/
lemma Notes.skips {contents : List Content} (h : Notes now contents x y)
    (hnone : ∀ k ∈ contents, k.eventType ≠ .scheduleSkipped) (id : Uuid) :
    y.skips id = x.skips id := by
  obtain ⟨rows, hrows, hcontents, -⟩ := h.events
  have hnil : (rows.filter fun e =>
      e.eventType = .scheduleSkipped ∧ e.aggregateId = id) = [] := by
    rw [List.filter_eq_nil_iff]
    intro e he hskipped
    rw [decide_eq_true_eq] at hskipped
    have hmem : e.content ∈ contents := hcontents ▸ List.mem_map_of_mem he
    exact hnone _ hmem hskipped.1
  unfold Database.skips
  rw [hrows, List.filter_append, hnil, List.append_nil]

lemma skips_insertEvent {s : Schedule} {eventId : Uuid}
    (hunused : x.outboxEvents.has eventId = false) :
    (x.insertEvent (s.skipEvent eventId now)).skips id =
      x.skips id ++ if s.id = id then [s.skipPayload] else [] := by
  have hrows := Table.rows_insert (a := s.skipEvent eventId now)
    ((Table.has_eq_false _ _).mp hunused)
  unfold Database.skips
  simp only [Database.insertEvent, hrows, List.filter_append, List.map_append]
  congr 1
  by_cases hid : s.id = id
  · simp [Schedule.skipEvent, hid]
  · simp [Schedule.skipEvent, hid]

end

/-! ### One visit -/

section

variable {P : Platform} {now : Timestamp} {id : Uuid} {x y z w : Database} {s s' : Schedule}
  {o : Occurrence} {outcome : RunOutcome}

/-- A claim is one more attempt. -/
lemma Upserted.attemptsAt_lt (h : Upserted s.id s.nextRunAt o x z) :
    x.attemptsAt s < o.attempts := by
  unfold Database.attemptsAt
  cases h with
  | first none unused =>
    rw [none]
    exact Nat.one_pos
  | retry found pending =>
    rw [found]
    exact Nat.lt_succ_self _

/-- A commit that gives the claimed occurrence of a schedule its end. -/
structure Ending (s s' : Schedule) (o : Occurrence) (x y : Database) : Prop where
  row : y.schedules.get? s.id = some s'
  occurrences : ∀ t, y.occurrenceAt (s.id, t) =
    if t = s.nextRunAt then some o else x.occurrenceAt (s.id, t)
  runs : y.runs s.id .paid = x.runs s.id .paid + if o.status = .paid then 1 else 0
  others : ∀ i, i ≠ s.id → y.schedules.get? i = x.schedules.get? i ∧
    (∀ t, y.occurrenceAt (i, t) = x.occurrenceAt (i, t)) ∧ y.runs i .paid = x.runs i .paid

lemma Upserted.ending {status : OccurrenceStatus} {transferId : Option Uuid}
    {reason : Option String} (h : Upserted s.id s.nextRunAt o x z)
    (hfound : x.schedules.get? s.id = some s) (hs : s.Reassigns s')
    (hschedules : y.schedules = (x.setSchedule s').schedules)
    (hoccurrences : y.occurrences =
      (z.setOccurrence (o.settle status transferId reason now)).occurrences) :
    Ending s s' (o.settle status transferId reason now) x y := by
  have hat : ∀ k, y.occurrenceAt k = if k = (s.id, s.nextRunAt) then
      some (o.settle status transferId reason now) else x.occurrenceAt k := by
    intro k
    rw [← h.settled_occurrenceAt (z := z) rfl k]
    simp only [Database.occurrenceAt, hoccurrences]
  have hown : (o.settle status transferId reason now).scheduleId = s.id := h.scheduleId_eq
  have hruns : ∀ i, (y.runs i .paid : ℤ) =
      x.runs i .paid + Database.run i .paid (o.settle status transferId reason now) := by
    intro i
    rw [Database.runs_eq, Database.runs_eq, hoccurrences]
    exact h.settled_sum rfl (run_pending (by rintro ⟨⟩))
  constructor
  · rw [hschedules]
    exact Database.get?_setSchedule hfound hs
  · intro t
    rw [hat]
    simp only [Prod.mk.injEq, true_and]
  · have hsum := hruns s.id
    rw [Database.run] at hsum
    simp only [hown, true_and] at hsum
    by_cases hpaid : (o.settle status transferId reason now).status = .paid
    · rw [if_pos hpaid] at hsum ⊢
      omega
    · rw [if_neg hpaid] at hsum ⊢
      omega
  · intro i hi
    refine ⟨?_, fun t => ?_, ?_⟩
    · rw [hschedules]
      exact Database.get?_setSchedule_of_ne hs hi
    · rw [hat, if_neg fun he => hi (congrArg Prod.fst he)]
    · have hsum := hruns i
      rw [Database.run, if_neg fun he => hi (he.1.symm.trans hown), add_zero] at hsum
      exact Int.ofNat_inj.mp hsum

lemma Ending.headway {paid : Bool} (h : Ending s (s.advance P paid now) o x y)
    (hpaid : paid = decide (o.status = .paid)) (hunsettled : Unsettled (s.id, s.nextRunAt) x)
    (hverdict : Verdict P now s.nextRunAt o.status)
    (hskips : ∀ i, y.skips i =
      x.skips i ++ if s.id = i ∧ o.status = .skipped then [s.skipPayload] else []) :
    Headway P now s x y ∧ ∀ i, i ≠ s.id → Untouched i x y := by
  subst hpaid
  constructor
  · refine .ended hunsettled hverdict h.row h.occurrences h.runs ?_
    rw [hskips]
    simp only [true_and]
  · intro i hi
    obtain ⟨hrow, hoccurrences, hruns⟩ := h.others i hi
    refine ⟨hrow, hoccurrences, hruns, ?_⟩
    rw [hskips, if_neg fun he => hi he.1.symm, List.append_nil]

/-- A visit claims nothing, or makes headway with one schedule. -/
theorem Visit.headway (h : Visit P now id outcome x y) :
    (y = x ∧ ∀ s, ¬ Due now id s x) ∨
      ∃ s, s.id = id ∧ Due now s.id s x ∧ Headway P now s x y ∧ ∀ i, i ≠ s.id → Untouched i x y := by
  cases h with
  | notDue notDue => exact .inl ⟨rfl, notDue⟩
  | @duplicate _ s o due found settled =>
    have hs := s.reassigns_advance P false now
    refine .inr ⟨s, Table.key_of_get? due.found, due.get?.2, ?_, ?_⟩
    · exact .passed found settled (Database.get?_setSchedule due.get?.1 hs) (fun _ => rfl) rfl rfl
    · intro i hi
      exact ⟨Database.get?_setSchedule_of_ne hs hi, fun _ => rfl, rfl, rfl⟩
  | @skipped _ z s o reason eventId due upserted missed unused =>
    have hs := s.reassigns_advance P false now
    have hz := upserted.rest
    have hend : Ending s (s.advance P false now) (o.settle .skipped none (some reason) now) x
        (((z.setOccurrence (o.settle .skipped none (some reason) now)).setSchedule
          (s.advance P false now)).insertEvent (s.skipEvent eventId now)) :=
      upserted.ending due.get?.1 hs (by rw [hz]; rfl) rfl
    refine .inr ⟨s, Table.key_of_get? due.found, due.get?.2, ?_⟩
    refine hend.headway rfl upserted.unsettled (.skipped missed) fun i => ?_
    rw [skips_insertEvent (by rw [hz]; exact unused), hz]
    simp only [Occurrence.settle, and_true]
    rfl
  | @attempted _ _ s _ due unsettled inTime attempts ran =>
    refine .inr ⟨s, Table.key_of_get? due.found, due.get?.2, ?_⟩
    cases ran with
    | notClaimed => rcases attempts with h | h | h <;> cases h
    | duplicate => rcases attempts with h | h | h <;> cases h
    | skipped => rcases attempts with h | h | h <;> cases h
    | @paid _ _ z s₁ o m due₁ upserted late sender recipient capped enabled executes notes =>
      cases due.found.symm.trans due₁.found
      have hs := s.reassigns_advance P true now
      have hz := upserted.rest
      have hend : Ending s (s.advance P true now) (o.settle .paid (some m.transfer.id) none now)
          x y := by
        refine upserted.ending due.get?.1 hs ?_ notes.occurrences
        rw [notes.schedules, hz]
        rfl
      refine hend.headway rfl unsettled (.paid inTime) fun i => ?_
      rw [notes.skips (by simp [Transfer.event, Schedule.event]), hz]
      simp only [Occurrence.settle, reduceCtorEq, and_false, if_false, List.append_nil]
      rfl
    | @deferred _ z s₁ o retryAt due₁ upserted limited later =>
      cases due.found.symm.trans due₁.found
      have hs : s.Reassigns { s with retryAfter := some retryAt } := rfl
      have hz := upserted.rest
      have hschedules : (z.setSchedule { s with retryAfter := some retryAt }).schedules =
          (x.setSchedule { s with retryAfter := some retryAt }).schedules := by
        rw [hz]
        rfl
      have hskips : ∀ i, (z.setSchedule { s with retryAfter := some retryAt }).skips i =
          x.skips i := by
        intro i
        rw [hz]
        rfl
      have hrow : (z.setSchedule { s with retryAfter := some retryAt }).schedules.get? s.id =
          some { s with retryAfter := some retryAt } := by
        rw [hschedules]
        exact Database.get?_setSchedule due.get?.1 hs
      have hruns : ∀ i, z.runs i .paid = x.runs i .paid := by
        intro i
        have hsum : z.occurrences.sum (Database.run i .paid) =
            x.occurrences.sum (Database.run i .paid) := upserted.sum (run_pending (by rintro ⟨⟩))
        rw [← Database.runs_eq, ← Database.runs_eq] at hsum
        exact Int.ofNat_inj.mp hsum
      constructor
      · refine .deferred unsettled inTime upserted.pending upserted.attemptsAt_lt limited hrow ?_ ?_
          (hskips s.id)
        · intro t
          refine (upserted.occurrenceAt (s.id, t)).trans ?_
          simp only [Prod.mk.injEq, true_and]
        · exact hruns s.id
      · intro i hi
        refine ⟨?_, fun t => ?_, hruns i, hskips i⟩
        · rw [hschedules]
          exact Database.get?_setSchedule_of_ne hs hi
        · refine (upserted.occurrenceAt (i, t)).trans ?_
          rw [if_neg fun he => hi (congrArg Prod.fst he)]
    | @failed _ _ z s₁ o reason due₁ upserted notes =>
      cases due.found.symm.trans due₁.found
      have hs := s.reassigns_advance P false now
      have hz := upserted.rest
      have hend : Ending s (s.advance P false now) (o.settle .failed none (some reason) now)
          x y := by
        refine upserted.ending due.get?.1 hs ?_ notes.occurrences
        rw [notes.schedules, hz]
        rfl
      refine hend.headway rfl unsettled (.failed inTime) fun i => ?_
      rw [notes.skips (by simp [Schedule.event]), hz]
      simp only [Occurrence.settle, reduceCtorEq, and_false, if_false, List.append_nil]
      rfl

/-! ### What is left to do -/

/-- Every interval leads to a later instant. -/
def Platform.Forward (P : Platform) : Prop := ∀ kind, kind ≠ .once → ∀ t, t < P.step kind t

/-- A bound on the visits that can still make headway with a schedule: the instants up to `now`
where it may fall due, and at each of them the attempts that are allowed. -/
def Database.backlog (d : Database) (P : Platform) (now : Timestamp) (id : Uuid) : ℕ :=
  match d.schedules.get? id with
  | none => 0
  | some s =>
    if s.status = .active then
      (now + 1 - s.nextRunAt) * (P.config.scheduleMaxAttempts + 1) +
        (P.config.scheduleMaxAttempts - d.attemptsAt s)
    else 0

lemma Untouched.backlog_eq (h : Untouched id x y) : y.backlog P now id = x.backlog P now id := by
  unfold Database.backlog
  rw [h.row]
  cases hrow : x.schedules.get? id with
  | none => rfl
  | some s =>
    have hid := Table.key_of_get? hrow
    simp only [Database.attemptsAt, hid, h.occurrences]

/-- What is left at a later instant is less than one instant is worth. -/
lemma backlog_later {now dueAt dueAt' : ℕ} (most attempts attempts' : ℕ) (hdue : dueAt ≤ now)
    (hlater : dueAt < dueAt') :
    (now + 1 - dueAt') * (most + 1) + (most - attempts') <
      (now + 1 - dueAt) * (most + 1) + (most - attempts) := by
  have hfewer : (now + 1 - dueAt' + 1) * (most + 1) ≤ (now + 1 - dueAt) * (most + 1) :=
    Nat.mul_le_mul_right _ (by omega)
  rw [Nat.add_mul, Nat.one_mul] at hfewer
  calc (now + 1 - dueAt') * (most + 1) + (most - attempts')
      < (now + 1 - dueAt') * (most + 1) + (most + 1) :=
        Nat.add_lt_add_left (by omega) _
    _ ≤ (now + 1 - dueAt) * (most + 1) := hfewer
    _ ≤ (now + 1 - dueAt) * (most + 1) + (most - attempts) := Nat.le_add_right _ _

/-- Once the schedule has moved on, there is less to do. -/
lemma backlog_advance (hP : P.Forward) {paid : Bool} (due : Due now s.id s x)
    (hrow : y.schedules.get? s.id = some (s.advance P paid now)) :
    y.backlog P now s.id < x.backlog P now s.id := by
  unfold Database.backlog
  rw [hrow, due.found]
  simp only [if_pos due.active]
  by_cases hkind : s.intervalKind = .once
  · have hdone : (s.advance P paid now).status ≠ .active := by
      rw [Schedule.advance_once hkind]
      nofun
    rw [if_neg hdone]
    refine Nat.add_pos_left (Nat.mul_pos ?_ (Nat.succ_pos _)) _
    exact Nat.sub_pos_of_lt (Nat.lt_succ_of_le due.due)
  · have hlater : s.nextRunAt < (s.advance P paid now).nextRunAt := by
      rw [Schedule.advance_recurring hkind]
      exact hP s.intervalKind hkind s.nextRunAt
    have hless := backlog_later P.config.scheduleMaxAttempts (x.attemptsAt s)
      (y.attemptsAt (s.advance P paid now)) due.due hlater
    split
    · exact hless
    · exact Nat.zero_lt_of_lt hless

lemma Headway.backlog_lt (hP : P.Forward) (h : Headway P now s x y) (due : Due now s.id s x) :
    y.backlog P now s.id < x.backlog P now s.id := by
  cases h with
  | passed found settled row => exact backlog_advance hP due row
  | ended unsettled verdict row => exact backlog_advance hP due row
  | @deferred o retryAt unsettled inTime status more attempts row occurrences =>
    have hat : y.attemptsAt { s with retryAfter := some retryAt } = o.attempts := by
      unfold Database.attemptsAt
      simp only [occurrences, if_true, Option.elim_some]
    unfold Database.backlog
    rw [row, due.found]
    simp only [if_pos due.active, hat]
    omega

/-- The sum over these schedules. -/
def Database.backlogOf (d : Database) (P : Platform) (now : Timestamp) (ids : List Uuid) : ℕ :=
  (ids.map (d.backlog P now)).sum

/-- A visit adds nothing to what is left to do. -/
lemma Visit.backlog_le (hP : P.Forward) (h : Visit P now id outcome x y) (i : Uuid) :
    y.backlog P now i ≤ x.backlog P now i := by
  obtain ⟨rfl, -⟩ | ⟨s, -, due, headway, others⟩ := h.headway
  · exact le_rfl
  · by_cases hi : i = s.id
    · rw [hi]
      exact (headway.backlog_lt hP due).le
    · exact (others i hi).backlog_eq.le

lemma Visits.backlog_le {ids : List Uuid} (hP : P.Forward) (h : Visits P now ids x y) (i : Uuid) :
    y.backlog P now i ≤ x.backlog P now i := by
  induction h with
  | nil x => exact le_rfl
  | cons visited rest ih => exact ih.trans (visited.backlog_le hP i)

/-- The first of the due schedules is visited while it is due. -/
lemma Visits.backlog_lt {ids : List Uuid} (hP : P.Forward) (h : Visits P now (id :: ids) x y)
    (due : Due now id s x) : y.backlog P now id < x.backlog P now id := by
  cases h with
  | cons visited rest =>
    obtain ⟨-, hnot⟩ | ⟨s, rfl, due', headway, -⟩ := visited.headway
    · exact absurd due (hnot _)
    · exact (rest.backlog_le hP _).trans_lt (headway.backlog_lt hP due')

/-! ### The tick -/

lemma mem_dueIds {limit : ℕ} (h : id ∈ x.dueIds now limit) : ∃ s, Due now id s x := by
  unfold Database.dueIds at h
  obtain ⟨s, hs, rfl⟩ := List.mem_map.mp h
  have hs := List.mem_of_mem_take hs
  rw [List.mem_insertionSort] at hs
  obtain ⟨hmem, hdue⟩ := List.mem_filter.mp hs
  rw [decide_eq_true_eq] at hdue
  exact ⟨s, Table.get?_of_mem hmem, hdue.1, hdue.2.1, hdue.2.2⟩

/-- As long as a schedule is due, a tick finds one. -/
lemma dueIds_ne_nil {limit : ℕ} (hlimit : 0 < limit) (due : Due now id s x) :
    x.dueIds now limit ≠ [] := by
  intro hnil
  unfold Database.dueIds at hnil
  rw [List.map_eq_nil_iff, List.take_eq_nil_iff] at hnil
  have hmem : s ∈ (x.schedules.rows.filter fun s => s.IsDue now).insertionSort fun a b =>
      a.nextRunAt ≤ b.nextRunAt := by
    rw [List.mem_insertionSort, List.mem_filter, decide_eq_true_eq]
    exact ⟨Table.mem_of_get? due.found, due.active, due.due, due.retry⟩
  obtain hzero | hnil := hnil
  · omega
  · rw [hnil] at hmem
    cases hmem

/-- A tick that finds a schedule leaves less to do. -/
theorem Visits.backlogOf_lt {limit : ℕ} {ids : List Uuid} (hP : P.Forward)
    (h : Visits P now (x.dueIds now limit) x y) (hne : x.dueIds now limit ≠ [])
    (hids : ∀ s ∈ x.schedules, s.id ∈ ids) : y.backlogOf P now ids < x.backlogOf P now ids := by
  obtain ⟨i, rest, hdue⟩ := List.exists_cons_of_ne_nil hne
  obtain ⟨s, due⟩ : ∃ s, Due now i s x := mem_dueIds (hdue ▸ List.mem_cons_self)
  rw [hdue] at h
  refine List.sum_lt_sum _ _ (fun j _ => h.backlog_le hP j) ⟨i, ?_, h.backlog_lt hP due⟩
  rw [← Table.key_of_get? due.found]
  exact hids s (Table.mem_of_get? due.found)

/-! ### The schedules there are -/

lemma Headway.row (h : Headway P now s x y) : ∃ s', y.schedules.get? s.id = some s' := by
  cases h with
  | passed found settled row => exact ⟨_, row⟩
  | ended unsettled verdict row => exact ⟨_, row⟩
  | deferred unsettled inTime status more attempts row => exact ⟨_, row⟩

/-- A tick creates no schedule. -/
lemma Visits.known {ids : List Uuid} (h : Visits P now ids x y) (hs : s ∈ y.schedules) :
    ∃ s₀ ∈ x.schedules, s₀.id = s.id := by
  induction h generalizing s with
  | nil x => exact ⟨s, hs, rfl⟩
  | cons visited rest ih =>
    obtain ⟨s₁, hs₁, hid⟩ := ih hs
    obtain ⟨rfl, -⟩ | ⟨s', -, due, -, others⟩ := visited.headway
    · exact ⟨s₁, hs₁, hid⟩
    · by_cases he : s₁.id = s'.id
      · exact ⟨s', Table.mem_of_get? due.found, he.symm.trans hid⟩
      · have hrow := (others s₁.id he).row
        rw [Table.get?_of_mem hs₁] at hrow
        exact ⟨s₁, Table.mem_of_get? hrow.symm, hid⟩

end

end TakaFlow
