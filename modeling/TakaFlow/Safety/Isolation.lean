import TakaFlow.System
import TakaFlow.Worker

/-!
# One bad schedule and the others

An error of one schedule ends the tick it happens in.
-/

namespace TakaFlow

open Txn

section

variable {W E : Type}

/-- The calls that a tick makes, with their outcomes. -/
abbrev Calls (E : Type) : Type := List (Uuid × Except E RunOutcome)

/-- `run`, with a record of the calls. -/
def recorded (run : Uuid → W → Except E RunOutcome × W) (id : Uuid) (w : W × Calls E) :
    Except E RunOutcome × W × Calls E :=
  ((run id w.1).1, (run id w.1).2, w.2 ++ [(id, (run id w.1).1)])

/-- `find`, with a record of the calls. -/
def unrecorded (find : W → Except E (List Uuid) × W) (w : W × Calls E) :
    Except E (List Uuid) × W × Calls E :=
  ((find w.1).1, (find w.1).2, w.2)

/-- The outcomes of all schedules of a list, each run in its turn. -/
def outcomes (run : Uuid → W → Except E RunOutcome × W) : List Uuid → W → Calls E
  | [], _ => []
  | id :: ids, w => (id, (run id w).1) :: outcomes run ids (run id w).2

/-- The counters of the runs that committed. -/
def ScheduleTickResult.ofCalls (calls : Calls E) : ScheduleTickResult :=
  let times (outcome : RunOutcome) : ℕ := calls.countP fun call => call.2.toOption = some outcome
  { claimed := calls.countP fun call => call.2.toOption.any (· ≠ .notClaimed)
    paid := times .paid
    failed := times .failed
    deferred := times .deferred
    skipped := times .skipped
    duplicate := times .duplicate }

/-- Every schedule that is found is run, and the tick counts the runs that committed. -/
structure Isolates (dueIds : List Uuid) (result : Except E ScheduleTickResult)
    (calls : Calls E) : Prop where
  attempted : calls.map Prod.fst = dueIds
  counted : result = .ok (.ofCalls calls)

variable {find : W → Except E (List Uuid) × W} {run : Uuid → W → Except E RunOutcome × W}
  {w w₁ : W} {ids dueIds : List Uuid} {result : ScheduleTickResult} {calls : Calls E}

lemma outcomes_ids : (outcomes run ids w).map Prod.fst = ids := by
  induction ids generalizing w with
  | nil => rfl
  | cons id ids ih => rw [outcomes, List.map_cons, ih]

lemma ScheduleTickResult.ofCalls_append_ok (id : Uuid) (outcome : RunOutcome) :
    ofCalls (calls ++ [(id, .ok outcome)]) = (ofCalls calls).count outcome := by
  unfold ofCalls count
  simp only [List.countP_append, List.countP_singleton]
  cases outcome <;> rfl

lemma runEach_recorded_ok {id : Uuid} {outcome : RunOutcome} (h : (run id w).1 = .ok outcome) :
    runEach (recorded run) (id :: ids) result (w, calls) =
      runEach (recorded run) ids (result.count outcome)
        ((run id w).2, calls ++ [(id, .ok outcome)]) := by
  rw [runEach, show recorded run id (w, calls) =
    (.ok outcome, (run id w).2, calls ++ [(id, .ok outcome)]) by rw [recorded, h]]

/-- The calls of the loop, while no run throws. -/
lemma runEach_ok (calls : Calls E)
    (h : ∀ call ∈ outcomes run ids w, ∃ outcome, call.2 = .ok outcome) :
    ∃ w', runEach (recorded run) ids (.ofCalls calls) (w, calls) =
      (.ok (.ofCalls (calls ++ outcomes run ids w)), w', calls ++ outcomes run ids w) := by
  induction ids generalizing w calls with
  | nil =>
    rw [outcomes, List.append_nil]
    exact ⟨w, rfl⟩
  | cons id ids ih =>
    rw [outcomes] at h
    obtain ⟨outcome, hok⟩ := h _ List.mem_cons_self
    have hrun : (run id w).1 = .ok outcome := hok
    obtain ⟨w', hrest⟩ : ∃ w', runEach (recorded run) ids
        (.ofCalls (calls ++ [(id, .ok outcome)])) ((run id w).2, calls ++ [(id, .ok outcome)]) =
          (.ok (.ofCalls (calls ++ [(id, .ok outcome)] ++ outcomes run ids (run id w).2)), w',
            calls ++ [(id, .ok outcome)] ++ outcomes run ids (run id w).2) :=
      ih _ fun call hcall => h call (List.mem_cons_of_mem _ hcall)
    refine ⟨w', ?_⟩
    rw [runEach_recorded_ok hrun, ← ScheduleTickResult.ofCalls_append_ok id, hrest, outcomes, hrun,
      ← List.append_cons]

/-- The calls of the loop, up to the first run that throws. -/
lemma runEach_error {before after : Calls E} {id : Uuid} {e : E}
    (h : outcomes run ids w = before ++ (id, .error e) :: after)
    (hbefore : ∀ call ∈ before, ∃ outcome, call.2 = .ok outcome) :
    ∃ w', runEach (recorded run) ids result (w, calls) =
      (.error e, w', calls ++ before ++ [(id, .error e)]) := by
  induction before generalizing ids w result calls with
  | nil =>
    cases ids with
    | nil => cases h
    | cons i ids =>
      obtain ⟨hcall, -⟩ := List.cons.inj h
      obtain ⟨rfl, hrun⟩ := Prod.mk.inj hcall
      refine ⟨(run i w).2, ?_⟩
      rw [runEach, show recorded run i (w, calls) =
        (.error e, (run i w).2, calls ++ [(i, .error e)]) by rw [recorded, hrun], List.append_nil]
  | cons call before ih =>
    cases ids with
    | nil => cases h
    | cons i ids =>
      obtain ⟨hcall, hrest⟩ := List.cons.inj h
      obtain ⟨outcome, hok⟩ := hbefore call List.mem_cons_self
      subst hcall
      have hrun : (run i w).1 = .ok outcome := hok
      obtain ⟨w', htail⟩ : ∃ w', runEach (recorded run) ids (result.count outcome)
          ((run i w).2, calls ++ [(i, .ok outcome)]) =
            (.error e, w', calls ++ [(i, .ok outcome)] ++ before ++ [(id, .error e)]) :=
        ih hrest fun call hcall => hbefore call (List.mem_cons_of_mem _ hcall)
      refine ⟨w', ?_⟩
      rw [runEach_recorded_ok hrun, htail, hrun, ← List.append_cons]

/-- Either no call throws, or there is a first one that does. -/
lemma all_ok_or_first_error (calls : Calls E) :
    (∀ call ∈ calls, ∃ outcome, call.2 = .ok outcome) ∨
      ∃ before id e after, calls = before ++ (id, .error e) :: after ∧
        ∀ call ∈ before, ∃ outcome, call.2 = .ok outcome := by
  induction calls with
  | nil => exact .inl nofun
  | cons call calls ih =>
    obtain ⟨id, outcome | e⟩ := call
    · exact .inr ⟨[], id, outcome, calls, rfl, nofun⟩
    · obtain hall | ⟨before, id', e', after, heq, hbefore⟩ := ih
      · refine .inl fun call hcall => ?_
        obtain rfl | hcall := List.mem_cons.mp hcall
        · exact ⟨e, rfl⟩
        · exact hall call hcall
      · refine .inr ⟨(id, .ok e) :: before, id', e', after, congrArg _ heq, fun call hcall => ?_⟩
        obtain rfl | hcall := List.mem_cons.mp hcall
        · exact ⟨e, rfl⟩
        · exact hbefore call hcall

variable (run) in
/-- The calls and the result of a tick, by the outcomes that its schedules have in their turn. -/
lemma tick_cases (hfind : find w = (.ok dueIds, w₁)) :
    (∃ w', (∀ call ∈ outcomes run dueIds w₁, ∃ outcome, call.2 = .ok outcome) ∧
      runDueSchedulesBy (unrecorded find) (recorded run) (w, []) =
        (.ok (.ofCalls (outcomes run dueIds w₁)), w', outcomes run dueIds w₁)) ∨
    ∃ w' before id e after, outcomes run dueIds w₁ = before ++ (id, .error e) :: after ∧
      runDueSchedulesBy (unrecorded find) (recorded run) (w, []) =
        (.error e, w', before ++ [(id, .error e)]) := by
  have hloop : runDueSchedulesBy (unrecorded find) (recorded run) (w, []) =
      runEach (recorded run) dueIds {} (w₁, []) := by
    unfold runDueSchedulesBy unrecorded
    simp only [hfind]
    split
    · rename_i hnil
      rw [hnil]
      rfl
    · rfl
  rw [hloop]
  obtain hall | ⟨before, id, e, after, heq, hbefore⟩ :=
    all_ok_or_first_error (outcomes run dueIds w₁)
  · obtain ⟨w', hrun⟩ : ∃ w', runEach (recorded run) dueIds {} (w₁, []) =
        (.ok (.ofCalls (outcomes run dueIds w₁)), w', outcomes run dueIds w₁) := runEach_ok [] hall
    exact .inl ⟨w', hall, hrun⟩
  · obtain ⟨w', hrun⟩ : ∃ w', runEach (recorded run) dueIds {} (w₁, []) =
        (.error e, w', before ++ [(id, .error e)]) := runEach_error heq hbefore
    exact .inr ⟨w', before, id, e, after, heq, hrun⟩

/-- A tick runs every schedule it has found and counts what was committed iff no run throws. -/
theorem schedules_isolated (hfind : find w = (.ok dueIds, w₁)) :
    Isolates dueIds (runDueSchedulesBy (unrecorded find) (recorded run) (w, [])).1
        (runDueSchedulesBy (unrecorded find) (recorded run) (w, [])).2.2 ↔
      ∀ call ∈ outcomes run dueIds w₁, ∃ outcome, call.2 = .ok outcome := by
  obtain ⟨w', hall, htick⟩ | ⟨w', before, id, e, after, heq, htick⟩ :=
    tick_cases run hfind
  · rw [htick]
    exact ⟨fun _ => hall, fun _ => Isolates.mk outcomes_ids rfl⟩
  · rw [htick]
    refine ⟨fun h => (nomatch h.counted), fun hall => ?_⟩
    obtain ⟨outcome, hok⟩ := hall (id, .error e) (by simp [heq])
    cases hok

end

/-! ### A tick with two schedules -/

/-- Asha and Babu each have the other one paid daily. -/
def twoSchedules : List Step :=
  session 0 100 asha ++ session 1 200 babu ++
    session 2 300 (.createSchedule 100 "k"
      { toPhone := "01722222222", amountMinor := 5000, intervalKind := .daily,
        startAt := 1800000000000 } .null {}) ++
    session 3 400 (.createSchedule 200 "l"
      { toPhone := "01711111111", amountMinor := 7000, intervalKind := .daily,
        startAt := 1800000000500 } .null {})

/-- Both schedules are due, and others hold the rows of these accounts. -/
def bothDue (locked : List Uuid) : Surroundings where
  moments t :=
    { clock := 1800000002000000
      input := drawn (1000 + t)
      taken := fun l => locked.any fun id => l = .account id }
  db := (State.after sample twoSchedules).db

/-- A tick of the worker there, with a record of the calls. -/
def tickBothDue (locked : List Uuid) :
    Except (Option Error) ScheduleTickResult × Surroundings × Calls (Option Error) :=
  runDueSchedulesBy (unrecorded (withReadTransaction (findDueScheduleIds 50)))
    (recorded (visitSchedule sample)) (bothDue locked, [])

lemma eq_ok_of_toOption {E α : Type} {x : Except E α} {a : α} (h : x.toOption = some a) :
    x = .ok a := by
  cases x with
  | error e => cases h
  | ok b => exact congrArg _ (Option.some.inj h)

/-- Both schedules are paid when nobody else is about. -/
theorem schedules_isolated_bothDue :
    (tickBothDue []).1.toOption = some { claimed := 2, paid := 2 } ∧
      (Isolates [303, 403] (tickBothDue []).1 (tickBothDue []).2.2 ↔
        ∀ call ∈ outcomes (visitSchedule sample) [303, 403]
          (withReadTransaction (findDueScheduleIds 50) (bothDue [])).2,
          ∃ outcome, call.2 = .ok outcome) := by
  have hfind : (withReadTransaction (findDueScheduleIds 50) (bothDue [])).1 = .ok [303, 403] :=
    eq_ok_of_toOption (by decide +kernel)
  refine ⟨by decide +kernel, ?_⟩
  unfold tickBothDue
  exact schedules_isolated (Prod.ext hfind rfl)

/-- Another transaction keeps Asha's account to the end, and Babu's schedule is not run either. -/
theorem bad_schedule_stops_others :
    (withReadTransaction (findDueScheduleIds 50) (bothDue [101])).1 = .ok [303, 403] ∧
      (tickBothDue [101]).2.2.map Prod.fst = [303] ∧
      ¬ Isolates [303, 403] (tickBothDue [101]).1 (tickBothDue [101]).2.2 := by
  have hcalls : (tickBothDue [101]).2.2.map Prod.fst = [303] := by decide +kernel
  refine ⟨eq_ok_of_toOption (by decide +kernel), hcalls, fun h => ?_⟩
  have hall := h.attempted
  rw [hcalls] at hall
  cases hall

end TakaFlow
