import TakaFlow.Calendar
import TakaFlow.Safety.Deferral

/-!
# The days of a monthly schedule

Each due time is computed from the one before it, so a day that a short month has cut off does not
come back.
-/

namespace TakaFlow

open Txn

/-! ### The dates -/

/-- The instant is that of the first due time in the `k`-th month after it, or on its last day. -/
def OnItsDay (start : Timestamp) (k : ℕ) (t : Timestamp) : Prop :=
  civilDate t = clampedDate ((civilDate start).monthIndex + k) (civilDate start).day ∧
    t % microsPerDay = start % microsPerDay

/-- No month up to the `k`-th one is shorter than its due day. -/
def Unclamped (start : Timestamp) (k : ℕ) : Prop :=
  ∀ j, 1 ≤ j → j ≤ k →
    min (civilDate start).day (monthDays ((civilDate start).monthIndex + k)) ≤
      monthDays ((civilDate start).monthIndex + j)

section

variable (start : Timestamp)

/-- The due day is the right one iff no shorter month has come before it. -/
lemma onItsDay_iff (k : ℕ) : OnItsDay start k (addMonthUtc^[k] start) ↔ Unclamped start k := by
  obtain ⟨day, hdate, hday⟩ := civilDate_iterate (valid_civilDate start).eq_index k
  have hfirst := (valid_civilDate start).day_le
  unfold OnItsDay Unclamped
  generalize (civilDate start).monthIndex = i at *
  generalize (civilDate start).day = d at *
  rw [iterate_mod, hdate, clampedDate, Civil.mk.injEq]
  have hle : day ≤ min d (monthDays (i + k)) := by
    obtain ⟨hd, hall⟩ := (hday day).mp le_rfl
    refine le_min hd ?_
    cases k with
    | zero =>
      rw [Nat.add_zero]
      exact hd.trans hfirst
    | succ k => exact hall (k + 1) (Nat.le_add_left 1 k) le_rfl
  constructor
  · rintro ⟨⟨-, -, heq⟩, -⟩
    exact ((hday _).mp heq.symm.le).2
  · intro hall
    exact ⟨⟨rfl, rfl, le_antisymm hle ((hday _).mpr ⟨min_le_left _ _, hall⟩)⟩, rfl⟩

/-- A year that is not a leap year comes soon. -/
lemma exists_common_year (year : ℕ) : ∃ y, year < y ∧ isLeap y = false := by
  by_cases h : isLeap (year + 1) = true
  · refine ⟨year + 2, by omega, ?_⟩
    unfold isLeap at *
    simp only [decide_eq_true_eq, decide_eq_false_iff_not] at *
    omega
  · exact ⟨year + 1, by omega, Bool.eq_false_iff.mpr h⟩

/-- All due days are the right ones iff every month has that day. -/
lemma unclamped_forever_iff : (∀ k, Unclamped start k) ↔ (civilDate start).day ≤ 28 := by
  have hfirst := (valid_civilDate start).day_le
  unfold Unclamped
  generalize (civilDate start).monthIndex = i at *
  generalize (civilDate start).day = d at *
  constructor
  · intro h
    -- The March after the next February of 28 days.
    obtain ⟨y, hy, hcommon⟩ := exists_common_year (i / 12)
    have hfebruary : monthDays (y * 12 + 1) = 28 := by
      unfold monthDays daysInMonth
      rw [show (y * 12 + 1) / 12 = y by omega, show (y * 12 + 1) % 12 + 1 = 2 by omega,
        if_pos rfl, hcommon]
      rfl
    have hmarch : monthDays (y * 12 + 2) = 31 := by
      unfold monthDays daysInMonth
      rw [show (y * 12 + 2) % 12 + 1 = 3 by omega]
      rfl
    have hclamped := h (y * 12 + 2 - i) (y * 12 + 1 - i) (by omega) (by omega)
    rw [show i + (y * 12 + 2 - i) = y * 12 + 2 by omega,
      show i + (y * 12 + 1 - i) = y * 12 + 1 by omega, hfebruary, hmarch] at hclamped
    have hbounds := monthDays_bounds i
    omega
  · intro hd k j _ _
    have hbounds := monthDays_bounds (i + j)
    omega

/-- The due times are different. -/
lemma addMonthUtc_injective : Function.Injective fun k => addMonthUtc^[k] start := by
  intro k k' h
  obtain ⟨day, hdate, -⟩ := civilDate_iterate (valid_civilDate start).eq_index k
  obtain ⟨day', hdate', -⟩ := civilDate_iterate (valid_civilDate start).eq_index k'
  have heq : civilDate (addMonthUtc^[k] start) = civilDate (addMonthUtc^[k'] start) :=
    congrArg civilDate h
  rw [hdate, hdate', Civil.mk.injEq] at heq
  generalize (civilDate start).monthIndex = i at *
  omega

end

/-! ### The occurrences of a schedule -/

/-- The due times of the occurrences, in the order in which they were first claimed. -/
def Database.dues (d : Database) (scheduleId : Uuid) : List Timestamp :=
  (d.occurrences.rows.filter fun o => o.scheduleId = scheduleId).map Occurrence.dueAt

section

variable {d x y z : Database} {id : Uuid} {dueAt : Timestamp} {o : Occurrence}

lemma Database.dues_congr (h : y.occurrences = x.occurrences) (id : Uuid) :
    y.dues id = x.dues id := by
  rw [dues, h, dues]

/-- An `UPDATE` leaves the due time. -/
lemma Database.dues_setOccurrence (d : Database) (o : Occurrence) (id : Uuid) :
    (d.setOccurrence o).dues id = d.dues id := by
  unfold dues setOccurrence Table.modify
  simp only
  induction d.occurrences.rows with
  | nil => rfl
  | cons q rows ih =>
    have hsame : ∀ q' : Occurrence, q'.scheduleId = q.scheduleId → q'.dueAt = q.dueAt →
        ∀ qs qs' : List Occurrence, (qs.filter fun o => o.scheduleId = id).map Occurrence.dueAt =
          (qs'.filter fun o => o.scheduleId = id).map Occurrence.dueAt →
        ((q' :: qs).filter fun o => o.scheduleId = id).map Occurrence.dueAt =
          ((q :: qs').filter fun o => o.scheduleId = id).map Occurrence.dueAt := by
      intro q' hs hd qs qs' hrest
      simp only [List.filter_cons, hs]
      split
      · rw [List.map_cons, List.map_cons, hd, hrest]
      · exact hrest
    rw [List.map_cons]
    refine hsame _ ?_ ?_ _ _ ih
    · split
      · split <;> rfl
      · rfl
    · split
      · split <;> rfl
      · rfl

lemma Database.mem_dues : dueAt ∈ d.dues id ↔ ∃ o, d.occurrenceAt (id, dueAt) = some o := by
  unfold dues
  rw [List.mem_map, ← Option.isSome_iff_exists, Database.occurrenceAt, List.find?_isSome]
  constructor
  · rintro ⟨o, ho, rfl⟩
    obtain ⟨hmem, hid⟩ := List.mem_filter.mp ho
    refine ⟨o, hmem, ?_⟩
    rw [decide_eq_true_eq, Occurrence.key, of_decide_eq_true hid]
  · rintro ⟨o, hmem, hkey⟩
    rw [decide_eq_true_eq] at hkey
    obtain ⟨hid, hdue⟩ := Prod.mk.inj hkey
    exact ⟨o, List.mem_filter.mpr ⟨hmem, decide_eq_true hid⟩, hdue⟩

/-- A claim adds the due time, or finds it. -/
lemma Upserted.dues (h : Upserted id dueAt o x z) :
    z.dues id = (if dueAt ∈ x.dues id then x.dues id else x.dues id ++ [dueAt]) ∧
      ∀ id', id' ≠ id → z.dues id' = x.dues id' := by
  cases h with
  | @first _ i none unused =>
    have hrows := Table.rows_insert (a := (⟨i, id, dueAt, .pending, Option.none, Option.none, 1,
      Option.none⟩ : Occurrence)) ((Table.has_eq_false _ _).mp unused)
    have hnew : dueAt ∉ x.dues id := by
      rw [Database.mem_dues, none]
      nofun
    rw [if_neg hnew]
    unfold Database.dues Database.insertOccurrence
    simp only [hrows, List.filter_append, List.map_append]
    refine ⟨by simp, fun id' hne => ?_⟩
    have hother : ¬ id = id' := hne.symm
    simp [hother]
  | @retry _ o found pending =>
    rw [if_pos (Database.mem_dues.mpr ⟨o, found⟩)]
    exact ⟨Database.dues_setOccurrence _ _ _, fun id' _ => Database.dues_setOccurrence _ _ _⟩

end

/-! ### The march of due times -/

/-- The occurrences are the first due times, one each, and the next one is the last of them or the
one after it. -/
structure Marches (step : Timestamp → Timestamp) (start : Timestamp) (dues : List Timestamp)
    (next : Timestamp) : Prop where
  claimed : dues = (List.range dues.length).map fun k => step^[k] start
  current : next = step^[dues.length] start ∨
    0 < dues.length ∧ next = step^[dues.length - 1] start

namespace Marches

variable {step : Timestamp → Timestamp} {start next : Timestamp} {dues : List Timestamp}

lemma init : Marches step start [] start := ⟨rfl, .inl rfl⟩

lemma mem_iff (h : Marches step start dues next) {t : Timestamp} :
    t ∈ dues ↔ ∃ k < dues.length, step^[k] start = t := by
  conv_lhs => rw [h.claimed]
  simp only [List.mem_map, List.mem_range]

lemma mem_claim (next : Timestamp) (dues : List Timestamp) :
    next ∈ if next ∈ dues then dues else dues ++ [next] := by
  split
  · assumption
  · exact List.mem_concat_self

/-- The next due time is claimed. -/
lemma claim (h : Marches step start dues next) :
    Marches step start (if next ∈ dues then dues else dues ++ [next]) next := by
  obtain hnext | ⟨hpos, hnext⟩ := h.current
  · split
    · exact h
    · refine ⟨?_, .inr ⟨by simp, by simpa using hnext⟩⟩
      rw [List.length_append, List.length_singleton, List.range_succ, List.map_append, ← h.claimed,
        hnext]
      rfl
  · rw [if_pos (h.mem_iff.mpr ⟨_, by omega, hnext.symm⟩)]
    exact h

/-- A claimed due time is followed by the one after it. -/
lemma advance (h : Marches step start dues next) (hmem : next ∈ dues)
    (hinj : Function.Injective fun k => step^[k] start) : Marches step start dues (step next) := by
  refine ⟨h.claimed, .inl ?_⟩
  obtain hnext | ⟨hpos, hnext⟩ := h.current
  · obtain ⟨k, hk, hstep⟩ := h.mem_iff.mp hmem
    have hsame : k = dues.length := hinj (hstep.trans hnext)
    omega
  · rw [hnext, ← Function.iterate_succ_apply' step, Nat.succ_eq_add_one, Nat.sub_add_cancel hpos]

end Marches

/-- The commit does not move the due time of the schedule, as a resumption or the operator may. -/
def StaysDue (id : Uuid) (call : Call) (now : Timestamp) (x _y : Database) : Prop :=
  ∀ p ∈ x.schedules.rows, p.id = id → p.movedTo call now = none

instance (id : Uuid) (call : Call) (now : Timestamp) (x y : Database) :
    Decidable (StaysDue id call now x y) := by
  unfold StaysDue
  infer_instance

/-- The invariant of one monthly schedule. -/
structure MarchesMonthly (P : Platform) (id : Uuid) (d : Database) : Prop where
  unused : d.schedules.get? id = none → d.dues id = []
  marches : ∀ p, d.schedules.get? id = some p → p.intervalKind = .monthly →
    ∃ start, Marches P.addMonth start (d.dues id) p.nextRunAt

namespace MarchesMonthly

variable {P : Platform} {watched : Token → Prop} {now : Timestamp} {call : Call}
  {x y z : Database} {s s' : Schedule} {id : Uuid} {o o' : Occurrence}

lemma congr (h : MarchesMonthly P id x) (hplans : y.plans = x.plans) : MarchesMonthly P id y := by
  have hs : y.schedules = x.schedules := (congrArg Database.schedules hplans :)
  have hd : y.dues id = x.dues id := Database.dues_congr (congrArg Database.occurrences hplans :) id
  refine ⟨fun hnone => ?_, fun p hget hkind => ?_⟩
  · rw [hd]
    exact h.unused (hs ▸ hnone)
  · rw [hd]
    exact h.marches p (hs ▸ hget) hkind

/-- An `UPDATE` of a schedule, and the claim of one of its occurrences before it. -/
lemma setSchedule (h : MarchesMonthly P id x) (hfound : x.schedules.get? s.id = some s)
    (hs : s.Reassigns s') (hz : z.schedules = x.schedules)
    (hothers : s.id ≠ id → z.dues id = x.dues id)
    (hplans : y.plans = (z.setSchedule s').plans)
    (hself : s.id = id → ∀ start, Marches P.addMonth start (x.dues id) s.nextRunAt →
      s.intervalKind = .monthly → Marches P.addMonth start (z.dues id) s'.nextRunAt) :
    MarchesMonthly P id y := by
  refine congr (x := z.setSchedule s') ?_ hplans
  have hdues : (z.setSchedule s').dues id = z.dues id := rfl
  by_cases hid : s.id = id
  · subst hid
    have hget : (z.setSchedule s').schedules.get? s.id = some s' :=
      Database.get?_setSchedule (hz ▸ hfound) hs
    refine ⟨fun hnone => ?_, fun p hp hkind => ?_⟩
    · rw [hget] at hnone
      cases hnone
    · rw [hget] at hp
      cases hp
      have hsame : s'.intervalKind = s.intervalKind := (congrArg Schedule.intervalKind hs :)
      have hmonthly : s.intervalKind = .monthly := hsame ▸ hkind
      obtain ⟨start, hmarches⟩ := h.marches s hfound hmonthly
      rw [hdues]
      exact ⟨start, hself rfl start hmarches hmonthly⟩
  · have hget : (z.setSchedule s').schedules.get? id = x.schedules.get? id := by
      rw [Database.get?_setSchedule_of_ne hs (Ne.symm hid), hz]
    refine ⟨fun hnone => ?_, fun p hp hkind => ?_⟩
    · rw [hdues, hothers hid]
      exact h.unused (hget ▸ hnone)
    · rw [hdues, hothers hid]
      exact h.marches p (hget ▸ hp) hkind

/-- A visit that claims an occurrence and moves on to the next one. -/
lemma advances {consumeRun : Bool} (h : MarchesMonthly P id x) (due : Due now s.id s x)
    (upserted : Upserted s.id s.nextRunAt o x z)
    (hplans : y.plans = ((z.setOccurrence o').setSchedule (s.advance P consumeRun now)).plans)
    (hinj : ∀ start, Function.Injective fun k => P.addMonth^[k] start) :
    MarchesMonthly P id y := by
  obtain ⟨hdues, hothers⟩ := upserted.dues
  refine h.setSchedule (z := z.setOccurrence o') due.found (s.reassigns_advance P consumeRun now)
    upserted.tables.2.2.2 (fun hne => ?_) hplans fun hid start hmarches hmonthly => ?_
  · rw [Database.dues_setOccurrence, hothers id (Ne.symm hne)]
  · subst hid
    have hclaim := hmarches.claim
    rw [← hdues] at hclaim
    have hmem : s.nextRunAt ∈ z.dues s.id := by
      rw [hdues]
      exact Marches.mem_claim _ _
    rw [Database.dues_setOccurrence, Schedule.advance_recurring (by rw [hmonthly]; nofun), hmonthly]
    exact hclaim.advance hmem (hinj start)

/-- The step lemma. -/
lemma step (h : MarchesMonthly P id x) (hp : Planning P watched now x y call)
    (hstays : StaysDue id call now x y)
    (hinj : ∀ start, Function.Injective fun k => P.addMonth^[k] start) :
    MarchesMonthly P id y := by
  cases hp with
  | still plans => exact h.congr plans
  | @created user payeeUserId key input raw context s called row unused plans =>
    refine congr (x := x.insertSchedule s) ?_ plans
    have hdues : (x.insertSchedule s).dues id = x.dues id := rfl
    have hnone := (Table.has_eq_false _ _).mp unused
    by_cases hid : s.id = id
    · subst hid
      have hget : (x.insertSchedule s).schedules.get? s.id = some s :=
        Table.get?_insert_self hnone
      refine ⟨fun hnone => ?_, fun p hp _ => ⟨p.nextRunAt, ?_⟩⟩
      · rw [hget] at hnone
        cases hnone
      · rw [hdues, h.unused hnone]
        exact .init
    · have hget : (x.insertSchedule s).schedules.get? id = x.schedules.get? id :=
        Table.get?_insert_of_ne hid
      refine ⟨fun hnone => ?_, fun p hp hkind => ?_⟩
      · rw [hdues]
        exact h.unused (hget ▸ hnone)
      · rw [hdues]
        exact h.marches p (hget ▸ hp) hkind
  | @transitioned user scheduleId target s called found owner legal plans =>
    have hid : s.id = scheduleId := Table.key_of_get? found
    subst hid
    have hs : s.Reassigns (s.transition target.status now) := rfl
    refine h.setSchedule found hs rfl (fun _ => rfl) plans fun hsame start hmarches _ => ?_
    suffices hdue : (s.transition target.status now).nextRunAt = s.nextRunAt by
      rw [hdue]
      exact hmarches
    unfold Schedule.transition
    simp only
    split_ifs with hmoves
    · obtain ⟨htarget, hlt⟩ := hmoves
      cases target with
      | active =>
        obtain ⟨context, rfl⟩ := called
        have hpaused : s.status = .paused := List.mem_singleton.mp legal
        have hmoved : s.movedTo (.resumeSchedule _ s.id context) now = some now :=
          Schedule.movedTo_resume rfl owner hpaused hlt
        rw [hstays s (Table.mem_of_get? found) hsame] at hmoved
        cases hmoved
      | _ => cases htarget
    · rfl
  | @nudged scheduleId s called found active plans =>
    have hid : s.id = scheduleId := Table.key_of_get? found
    subst hid called
    refine h.setSchedule found (s.reassigns_nudge now) rfl (fun _ => rfl) plans
      fun hsame _ _ _ => ?_
    have hmoved : s.movedTo (.makeScheduleDue s.id) now = some (now - microsPerSecond) :=
      Schedule.movedTo_due rfl active
    rw [hstays s (Table.mem_of_get? found) hsame] at hmoved
    cases hmoved
  | ran called ran =>
    cases ran with
    | notClaimed => exact h
    | @duplicate _ s o due found settled =>
      refine h.setSchedule due.get?.1 (s.reassigns_advance P false now) rfl (fun _ => rfl) rfl
        fun hsame start hmarches hmonthly => ?_
      have hmem : s.nextRunAt ∈ x.dues s.id := Database.mem_dues.mpr ⟨o, found⟩
      rw [Schedule.advance_recurring (by rw [hmonthly]; nofun), hmonthly]
      exact hmarches.advance (hsame ▸ hmem) (hinj start)
    | skipped due upserted _ notes => exact h.advances due.get?.2 upserted notes.plans hinj
    | paid due upserted _ _ _ _ _ _ notes =>
      exact h.advances due.get?.2 upserted notes.plans hinj
    | @deferred _ z s o retryAt due upserted _ _ =>
      obtain ⟨hdues, hothers⟩ := upserted.dues
      have hs : s.Reassigns { s with retryAfter := some retryAt } := rfl
      refine h.setSchedule due.get?.1 hs upserted.tables.2.2.2
        (fun hne => hothers id (Ne.symm hne)) rfl fun hsame start hmarches _ => ?_
      subst hsame
      rw [hdues]
      exact hmarches.claim
    | failed due upserted notes => exact h.advances due.get?.2 upserted notes.plans hinj

end MarchesMonthly

/-! ### The guarantee -/

/-- The due times of a schedule until now. -/
def Database.dueTimes (d : Database) (p : Schedule) : List Timestamp :=
  if p.nextRunAt ∈ d.dues p.id then d.dues p.id else d.dues p.id ++ [p.nextRunAt]

/-- The due times of a schedule, counted from the first one. -/
structure Monthly (start : Timestamp) (dues : List Timestamp) : Prop where
  first : dues.head? = some start
  /-- A due time falls on its day iff no shorter month has come before it. -/
  days : ∀ k t, dues[k]? = some t → (OnItsDay start k t ↔ Unclamped start k)
  /-- Every month that may come has its day iff the first one is among the first 28. -/
  forever : (∀ k, Unclamped start k) ↔ (civilDate start).day ≤ 28

lemma Marches.monthly {start next : Timestamp} {dues : List Timestamp}
    (h : Marches addMonthUtc start dues next) (hnext : next ∈ dues) : Monthly start dues := by
  constructor
  · obtain ⟨k, hk, -⟩ := h.mem_iff.mp hnext
    rw [h.claimed, List.head?_eq_getElem?, List.getElem?_map,
      List.getElem?_range (Nat.zero_lt_of_lt hk)]
    rfl
  · intro k t ht
    rw [h.claimed, List.getElem?_map] at ht
    obtain ⟨j, hj, rfl⟩ := Option.map_eq_some_iff.mp ht
    obtain ⟨-, rfl⟩ := List.getElem?_eq_some_iff.mp hj
    rw [List.getElem_range]
    exact onItsDay_iff start k
  · exact unclamped_forever_iff start

/-- Unless its due time is moved, a monthly schedule stays on its day as long as no month before
was too short for it. -/
theorem monthly_dates {P : Platform} {s : State} {id : Uuid}
    (hadd : ∀ t, P.addMonth t = addMonthUtc t)
    (h : ReachableIf P (fun s e => s.AtCommit (StaysDue id) e) s) :
    ∀ p ∈ s.db.schedules, p.id = id → p.intervalKind = .monthly →
      ∃ start, Monthly start (s.db.dueTimes p) := by
  have hsound := h.reachable.sound
  obtain ⟨t, hreaches⟩ := h
  have hstays := hreaches.atCommit fun _ _ hok => hok
  have heq : P.addMonth = addMonthUtc := funext hadd
  have hinj : ∀ start, Function.Injective fun k => P.addMonth^[k] start := by
    rw [heq]
    exact addMonthUtc_injective
  have hmarches : MarchesMonthly P id s.db := by
    refine hsound.linked.invariant (I := MarchesMonthly P id) ⟨fun _ => rfl, nofun⟩
      fun r hr hx => ?_
    exact hx.step (hsound.commits r hr).1.planning (hstays r hr) hinj
  rintro p hp rfl hmonthly
  obtain ⟨start, hstart⟩ := hmarches.marches p (Table.get?_of_mem hp) hmonthly
  exact ⟨start, (heq ▸ hstart).claim.monthly (Marches.mem_claim _ _)⟩

/-- A platform whose months are those of the calendar. -/
def calendarSample : Platform := { sample with addMonth := addMonthUtc }

/-- Asha pays rent to Babu from the 31st of January 2027 on. -/
def rentRun : List Step :=
  session 0 100 asha ++ session 1 200 babu ++
    session 2 300 (.createSchedule 100 "k"
      { toPhone := "01722222222", amountMinor := 5000, intervalKind := .monthly,
        startAt := 1801382400000 } .null {}) ++
    .tick (16 * microsPerDay) :: session 3 400 (.runSchedule 303) ++
    .tick (28 * microsPerDay) :: session 4 500 (.runSchedule 303) ++
    .tick (28 * microsPerDay) :: session 5 600 (.runSchedule 303)

/-- The steps that leave the due time of her schedule. -/
def staysDue (s : State) (e : Step) : Bool :=
  s.meetsAtCommit (fun call now x y => decide (StaysDue 303 call now x y)) e

lemma reachableIf_rentRun : ReachableIf calendarSample
    (fun s e => s.AtCommit (StaysDue 303) e) (State.afterIf calendarSample staysDue rentRun) :=
  reachableIf_afterIf (fun _ _ h => Sys.atCommit_of_meets
    (fun _ _ _ _ hk => of_decide_eq_true hk) h) calendarSample rentRun

/-- The rent falls due on the last of February, and on the 28th from then on. -/
theorem monthly_dates_rentRun :
    (State.afterIf calendarSample staysDue rentRun).db.schedules.rows.map
        (fun p => ((State.afterIf calendarSample staysDue rentRun).db.dueTimes p).map civilDate) =
      [[⟨2027, 1, 31⟩, ⟨2027, 2, 28⟩, ⟨2027, 3, 28⟩, ⟨2027, 4, 28⟩]] ∧
    ∀ p ∈ (State.afterIf calendarSample staysDue rentRun).db.schedules, p.id = 303 →
      p.intervalKind = .monthly →
      ∃ start, Monthly start ((State.afterIf calendarSample staysDue rentRun).db.dueTimes p) :=
  ⟨by decide +kernel, monthly_dates (fun _ => rfl) reachableIf_rentRun⟩

/-- March has a 31st, but the rent is due on the 28th. -/
theorem rent_drifts : ∃ s, ReachableIf calendarSample (fun s e => s.AtCommit (StaysDue 303) e) s ∧
    ∃ p ∈ s.db.schedules, p.id = 303 ∧ p.intervalKind = .monthly ∧
      ∃ start t, (s.db.dueTimes p).head? = some start ∧ (s.db.dueTimes p)[2]? = some t ∧
        (civilDate start).day = 31 ∧ civilDate t = ⟨2027, 3, 28⟩ ∧ ¬ OnItsDay start 2 t := by
  refine ⟨_, reachableIf_rentRun, ?_⟩
  have hfound : ((State.afterIf calendarSample staysDue rentRun).db.schedules.rows.any fun p =>
      p.id = 303 ∧ p.intervalKind = .monthly ∧
        (State.afterIf calendarSample staysDue rentRun).db.dueTimes p =
          [1801382400000000, 1803801600000000, 1806220800000000, 1808899200000000]) = true := by
    decide +kernel
  simp only [List.any_eq_true, decide_eq_true_eq] at hfound
  obtain ⟨p, hp, hid, hkind, hdues⟩ := hfound
  refine ⟨p, hp, hid, hkind, 1801382400000000, 1806220800000000, ?_, ?_, ?_, ?_, ?_⟩
  · rw [hdues]
    rfl
  · rw [hdues]
    rfl
  · decide +kernel
  · decide +kernel
  · rintro ⟨hday, -⟩
    revert hday
    decide +kernel

end TakaFlow
