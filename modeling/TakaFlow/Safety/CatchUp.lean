import TakaFlow.Safety.Isolation
import TakaFlow.Spec.Headway

/-!
# Catching up after an outage

The worker comes back to a recurring schedule with any number of occurrences missed. Tick after tick
they are skipped, one each, until the one is reached that may still be paid, or none is left.
-/

namespace TakaFlow

open Txn

/-! ### Where a schedule has got to -/

/-- The instants at which a recurring schedule falls due. -/
def Schedule.dueAt (s : Schedule) (P : Platform) (i : ℕ) : Timestamp :=
  (P.step s.intervalKind)^[i] s.nextRunAt

/-- What has become of an occurrence of `x` that `y` has left behind. -/
inductive Behind (P : Platform) (now : Timestamp) (s : Schedule) (x y : Database)
    (t : Timestamp) : Prop where
  /-- It had come to an end before. -/
  | before (settled : ¬ Unsettled (s.id, t) x)
      (same : y.occurrenceAt (s.id, t) = x.occurrenceAt (s.id, t))
  | ended {o : Occurrence} (unsettled : Unsettled (s.id, t) x)
      (row : y.occurrenceAt (s.id, t) = some o) (verdict : Verdict P now t o.status)

/-- The occurrence that `y` has come to may have been put off, the others have not been touched. -/
inductive Ahead (P : Platform) (now : Timestamp) (s s' : Schedule) (x y : Database)
    (t : Timestamp) : Prop where
  | same (same : y.occurrenceAt (s.id, t) = x.occurrenceAt (s.id, t))
  | deferred {o : Occurrence} (current : t = s'.nextRunAt) (due : t ≤ now)
      (inTime : ¬ Missed P now t) (unsettled : Unsettled (s.id, t) x)
      (row : y.occurrenceAt (s.id, t) = some o) (pending : o.status = .pending)

/-- The occurrences that are skipped: those missed by more than the grace period that had not come
to an end. -/
def Schedule.skipped (s : Schedule) (P : Platform) (now : Timestamp) (x : Database) (k : ℕ) :
    List Timestamp :=
  ((List.range k).map (s.dueAt P)).filter fun t => Missed P now t ∧ Unsettled (s.id, t) x

/-- The schedule `s` of `x` has become `s'` in `y`, and `k` of its occurrences lie behind it. -/
structure Passed (P : Platform) (now : Timestamp) (s s' : Schedule) (x y : Database) (k : ℕ) :
    Prop where
  row : y.schedules.get? s.id = some s'
  reassigns : s.Reassigns s'
  next : s'.nextRunAt = s.dueAt P k
  due : ∀ i < k, s.dueAt P i ≤ now
  behind : ∀ i < k, Behind P now s x y (s.dueAt P i)
  ahead : ∀ t, (∀ i < k, t ≠ s.dueAt P i) → Ahead P now s s' x y t
  /-- One event for each occurrence that was skipped, in the order in which they were due. -/
  skips : y.skips s.id =
    x.skips s.id ++ (s.skipped P now x k).map fun t => { s with nextRunAt := t }.skipPayload
  paid : y.runs s.id .paid = x.runs s.id .paid ∨
    y.runs s.id .paid = x.runs s.id .paid + 1 ∧ now < s'.nextRunAt
  /-- Only what was paid counts. -/
  remaining : s'.remainingRuns = s.remainingRuns.map fun n =>
    if y.runs s.id .paid = x.runs s.id .paid then n else max (n - 1) 0
  status : s'.status = s.status ∨ s'.status = .completed
  idle : s.status ≠ .active → s' = s

/-! ### The instants at which it is due -/

section

variable {P : Platform} {now : Timestamp} {s s' s'' : Schedule} {x y z : Database} {k i j : ℕ}
  {t : Timestamp}

lemma Schedule.dueAt_succ (s : Schedule) (P : Platform) (i : ℕ) :
    s.dueAt P (i + 1) = P.step s.intervalKind (s.dueAt P i) :=
  Function.iterate_succ_apply' _ _ _

lemma Schedule.dueAt_strictMono (hP : P.Forward) (hkind : s.intervalKind ≠ .once) :
    StrictMono (s.dueAt P) := by
  refine strictMono_nat_of_lt_succ fun i => ?_
  rw [s.dueAt_succ]
  exact hP s.intervalKind hkind _

/-- The interval is longer than the grace period. -/
def Schedule.OutlastsGrace (s : Schedule) (P : Platform) : Prop :=
  ∀ t, (P.config.scheduleCatchupGraceMs : ℤ) <
    (toMillis (P.step s.intervalKind t) : ℤ) - toMillis t

/-- Once an occurrence is in time, the next one is not due. -/
lemma Schedule.OutlastsGrace.next_later (h : s.OutlastsGrace P) (ht : ¬ Missed P now t) :
    now < P.step s.intervalKind t := by
  have hlong : (P.config.scheduleCatchupGraceMs : ℤ) <
      (toMillis (P.step s.intervalKind t) : ℤ) - toMillis t := h t
  unfold Missed at ht
  have hlater : (toMillis now : ℤ) < toMillis (P.step s.intervalKind t) := by linarith
  by_contra hle
  have hle' : toMillis (P.step s.intervalKind t) ≤ toMillis now :=
    Nat.div_le_div_right (not_lt.mp hle)
  exact absurd (Int.ofNat_le.mpr hle') (not_le.mpr hlater)

/-- So no two occurrences are in time. -/
lemma Schedule.OutlastsGrace.unique (h : s.OutlastsGrace P) (hP : P.Forward)
    (hkind : s.intervalKind ≠ .once) (hi : s.dueAt P i ≤ now) (hj : s.dueAt P j ≤ now)
    (hti : ¬ Missed P now (s.dueAt P i)) (htj : ¬ Missed P now (s.dueAt P j)) : i = j := by
  have hmono := s.dueAt_strictMono hP hkind
  have hnot : ∀ i j, ¬ Missed P now (s.dueAt P i) → s.dueAt P j ≤ now → j ≤ i := by
    intro i j hti hj
    have hlater := h.next_later hti
    rw [← s.dueAt_succ] at hlater
    exact Nat.lt_succ_iff.mp (hmono.lt_iff_lt.mp (hj.trans_lt hlater))
  exact le_antisymm (hnot j i htj hi) (hnot i j hti hj)

/-! ### The schedule at first -/

lemma Passed.refl (hfound : x.schedules.get? s.id = some s) : Passed P now s s x x 0 where
  row := hfound
  reassigns := rfl
  next := rfl
  due := nofun
  behind := nofun
  ahead t _ := .same rfl
  skips := (List.append_nil _).symm
  paid := .inl rfl
  remaining := by simp
  status := .inl rfl
  idle _ := rfl

/-! ### One commit -/

/-- What lay behind it still does. -/
lemma Behind.of_same (h : Behind P now s x y t)
    (hsame : z.occurrenceAt (s.id, t) = y.occurrenceAt (s.id, t)) : Behind P now s x z t := by
  cases h with
  | before settled same => exact .before settled (hsame.trans same)
  | ended unsettled row verdict => exact .ended unsettled (hsame.trans row) verdict

lemma Ahead.of_same (h : Ahead P now s s' x y t) (hne : t ≠ s'.nextRunAt)
    (hsame : z.occurrenceAt (s.id, t) = y.occurrenceAt (s.id, t)) :
    Ahead P now s s'' x z t := by
  cases h with
  | same same => exact .same (hsame.trans same)
  | deferred current => exact absurd current hne

lemma Verdict.skipped_iff {status : OccurrenceStatus} (h : Verdict P now t status) :
    status = .skipped ↔ Missed P now t := by
  cases h with
  | skipped missed => exact iff_of_true rfl missed
  | paid inTime => exact iff_of_false nofun inTime
  | failed inTime => exact iff_of_false nofun inTime

/-- An occurrence that has not been left behind is unsettled in both states or in neither. -/
lemma Ahead.unsettled (h : Ahead P now s s' x y t) :
    Unsettled (s.id, t) y ↔ Unsettled (s.id, t) x := by
  cases h with
  | same same => rw [Unsettled, Unsettled, same]
  | deferred current due inTime unsettled row pending =>
    refine ⟨fun _ => unsettled, fun _ o ho => ?_⟩
    rw [row] at ho
    cases ho
    exact pending

lemma Schedule.skipped_succ (s : Schedule) (P : Platform) (now : Timestamp) (x : Database)
    (k : ℕ) : s.skipped P now x (k + 1) = s.skipped P now x k ++
      if Missed P now (s.dueAt P k) ∧ Unsettled (s.id, s.dueAt P k) x then [s.dueAt P k]
      else [] := by
  unfold skipped
  rw [List.range_succ, List.map_append, List.filter_append, List.map_singleton,
    List.filter_singleton]
  simp only [Bool.cond_decide]

/-- The schedule moves on: what it leaves behind is the occurrence that was due. -/
lemma Passed.advance {ended : Bool} (hP : P.Forward) (hkind : s.intervalKind ≠ .once)
    (h : Passed P now s s' x y k) (due : Due now s.id s' y)
    (hrow : z.schedules.get? s.id = some (s'.advance P ended now))
    (hbehind : Behind P now s x z s'.nextRunAt)
    (hsame : ∀ t, t ≠ s'.nextRunAt → z.occurrenceAt (s.id, t) = y.occurrenceAt (s.id, t))
    (hruns : z.runs s.id .paid = y.runs s.id .paid + if ended then 1 else 0)
    (hended : ended = true → now < P.step s.intervalKind s'.nextRunAt)
    (hskips : z.skips s.id = y.skips s.id ++
      if Missed P now s'.nextRunAt ∧ Unsettled (s.id, s'.nextRunAt) x then [s'.skipPayload]
      else []) : Passed P now s (s'.advance P ended now) x z (k + 1) := by
  have hmono := s.dueAt_strictMono hP hkind
  have hreassigns : s.Reassigns (s'.advance P ended now) := by
    have hs := h.reassigns
    have hs' := s'.reassigns_advance P ended now
    unfold Schedule.Reassigns at hs hs' ⊢
    rw [hs', hs]
  have hkind' : s'.intervalKind = s.intervalKind := (congrArg Schedule.intervalKind h.reassigns :)
  have hadvance := @Schedule.advance_recurring P s' now (hkind'.trans_ne hkind) ended
  have hnext : (s'.advance P ended now).nextRunAt = P.step s.intervalKind s'.nextRunAt := by
    rw [hadvance, hkind']
    rfl
  have hunpaid : y.runs s.id .paid = x.runs s.id .paid := by
    obtain hsame | ⟨-, hlater⟩ := h.paid
    · exact hsame
    · exact absurd due.due (not_le.mpr hlater)
  have hnot : ∀ i < k, s.dueAt P i ≠ s'.nextRunAt := by
    intro i hi
    rw [h.next]
    exact (hmono hi).ne
  constructor
  · exact hrow
  · exact hreassigns
  · rw [hnext, h.next, s.dueAt_succ]
  · intro i hi
    obtain hi | rfl := Nat.lt_succ_iff_lt_or_eq.mp hi
    · exact h.due i hi
    · rw [← h.next]
      exact due.due
  · intro i hi
    obtain hi | rfl := Nat.lt_succ_iff_lt_or_eq.mp hi
    · exact (h.behind i hi).of_same (hsame _ (hnot i hi))
    · rw [← h.next]
      exact hbehind
  · intro t ht
    have hne : t ≠ s'.nextRunAt := by
      rw [h.next]
      exact ht k (Nat.lt_succ_self k)
    exact (h.ahead t fun i hi => ht i (hi.trans (Nat.lt_succ_self k))).of_same hne (hsame t hne)
  · have hpayload : s'.skipPayload = { s with nextRunAt := s.dueAt P k }.skipPayload := by
      rw [← h.next, h.reassigns]
      rfl
    rw [hskips, h.skips, s.skipped_succ, h.next, hpayload, List.map_append, List.append_assoc]
    split <;> rfl
  · cases ended with
    | true => exact .inr ⟨by rw [hruns, hunpaid, if_pos rfl], hnext ▸ hended rfl⟩
    | false => exact .inl (by rw [hruns, hunpaid, if_neg nofun, Nat.add_zero])
  · have hremaining : s'.remainingRuns = s.remainingRuns := by
      rw [h.remaining, hunpaid]
      simp
    rw [hadvance, hruns, hunpaid]
    cases ended with
    | true => simp [Schedule.next, hremaining]
    | false => simp [Schedule.next, hremaining]
  · have hactive : s'.status = s.status := h.status.resolve_right (by rw [due.active]; nofun)
    rw [hadvance, ← hactive]
    by_cases hlast : (s'.remainingRuns.map fun n => if ended then n - 1 else n).any (· ≤ 0)
    · exact .inr (if_pos hlast)
    · exact .inl (if_neg hlast)
  · intro hidle
    have hsame := h.idle hidle
    rw [hsame] at due
    exact absurd due.active hidle

/-- One visit to the schedule. -/
lemma Passed.headway (hP : P.Forward) (hkind : s.intervalKind ≠ .once) (hlong : s.OutlastsGrace P)
    (h : Passed P now s s' x y k) (due : Due now s.id s' y) (hheadway : Headway P now s' y z) :
    ∃ k s'', Passed P now s s'' x z k := by
  have hid : s'.id = s.id := h.reassigns.id
  have hkind' : s'.intervalKind = s.intervalKind := (congrArg Schedule.intervalKind h.reassigns :)
  have hmono := s.dueAt_strictMono hP hkind
  have hahead : Ahead P now s s' x y s'.nextRunAt := by
    refine h.ahead _ fun i hi => ?_
    rw [h.next]
    exact (hmono hi).ne'
  cases hheadway with
  | @passed o found settled row occurrences runs skips =>
    rw [hid] at found row occurrences runs skips
    have hsettled : ¬ Unsettled (s.id, s'.nextRunAt) y := fun hu => settled (hu o found)
    have hsettled' := hahead.unsettled.not.mp hsettled
    refine ⟨_, _, h.advance hP hkind due row (.before hsettled' ?_) (fun t _ => occurrences t)
      runs nofun ?_⟩
    · rw [occurrences]
      cases hahead with
      | same same => exact same
      | deferred current due inTime unsettled => exact absurd unsettled hsettled'
    · rw [if_neg fun hc => hsettled' hc.2, List.append_nil]
      exact skips
  | @ended o unsettled verdict row occurrences runs skips =>
    rw [hid] at unsettled row occurrences runs skips
    have hunsettled := hahead.unsettled.mp unsettled
    refine ⟨_, _, h.advance hP hkind due row (.ended hunsettled ?_ verdict) ?_ ?_ ?_ ?_⟩
    · rw [occurrences, if_pos rfl]
    · intro t ht
      rw [occurrences, if_neg ht]
    · simpa using runs
    · intro hpaid
      rw [decide_eq_true_eq] at hpaid
      rw [hpaid] at verdict
      cases verdict with
      | paid inTime => exact hlong.next_later inTime
    · rw [skips]
      simp only [verdict.skipped_iff, hunsettled, and_true]
  | @deferred o retryAt unsettled inTime status more attempts row occurrences runs skips =>
    rw [hid] at unsettled row occurrences runs skips
    have hunsettled := hahead.unsettled.mp unsettled
    refine ⟨k, _, row, ?_, h.next, h.due, ?_, ?_, ?_, ?_, ?_,
      h.status, ?_⟩
    · have hs := h.reassigns
      unfold Schedule.Reassigns at hs ⊢
      rw [hs]
    · intro i hi
      refine (h.behind i hi).of_same ?_
      rw [occurrences, if_neg (by rw [h.next]; exact (hmono hi).ne)]
    · intro t ht
      by_cases hcurrent : t = s'.nextRunAt
      · rw [hcurrent]
        refine .deferred rfl due.due inTime hunsettled ?_ status
        rw [occurrences, if_pos rfl]
      · refine (h.ahead t ht).of_same hcurrent ?_
        rw [occurrences, if_neg hcurrent]
    · rw [skips, h.skips]
    · rw [runs]
      exact h.paid
    · rw [runs]
      exact h.remaining
    · intro hidle
      have hsame := h.idle hidle
      rw [hsame] at due
      exact absurd due.active hidle

lemma Passed.untouched (h : Passed P now s s' x y k) (hu : Untouched s.id y z) :
    Passed P now s s' x z k where
  row := hu.row.trans h.row
  reassigns := h.reassigns
  next := h.next
  due := h.due
  behind i hi := (h.behind i hi).of_same (hu.occurrences _)
  ahead t ht := by
    cases h.ahead t ht with
    | same same => exact .same ((hu.occurrences t).trans same)
    | deferred current due inTime unsettled row pending =>
      exact .deferred current due inTime unsettled ((hu.occurrences t).trans row) pending
  skips := hu.skips.trans h.skips
  paid := by
    rw [hu.runs]
    exact h.paid
  remaining := by
    rw [hu.runs]
    exact h.remaining
  status := h.status
  idle := h.idle

/-- A tick, whatever other schedules it visits. -/
lemma Passed.visits {ids : List Uuid} (hP : P.Forward) (hkind : s.intervalKind ≠ .once)
    (hlong : s.OutlastsGrace P) (h : Passed P now s s' x y k) (hvisits : Visits P now ids y z) :
    ∃ k s'', Passed P now s s'' x z k := by
  induction hvisits generalizing k s' with
  | nil y => exact ⟨k, s', h⟩
  | @cons id ids outcome y y' z visited rest ih =>
    obtain ⟨rfl, -⟩ | ⟨s₁, -, due, headway, others⟩ := visited.headway
    · exact ih h
    by_cases hs : s₁.id = s.id
    · have heq : s' = s₁ := by
        have hfound := due.found
        rw [hs, h.row] at hfound
        exact Option.some.inj hfound
      subst heq
      rw [hs] at due
      obtain ⟨k', s'', hpassed⟩ := h.headway hP hkind hlong due headway
      exact ih hpassed
    · exact ih (h.untouched (others s.id (Ne.symm hs)))

/-! ### Attempts -/

/-- A payment for the occurrence has been attempted. -/
def Tried (s : Schedule) (x y : Database) (t : Timestamp) : Prop :=
  ∃ o, y.occurrenceAt (s.id, t) = some o ∧ x.occurrenceAt (s.id, t) ≠ some o ∧
    o.status ≠ .skipped

lemma Passed.tried (h : Passed P now s s' x y k) (ht : Tried s x y t) :
    ¬ Missed P now t ∧ t ≤ now ∧ ∃ i, t = s.dueAt P i := by
  obtain ⟨o, ho, hnew, hstatus⟩ := ht
  by_cases hbehind : ∃ i < k, t = s.dueAt P i
  · obtain ⟨i, hi, rfl⟩ := hbehind
    cases h.behind i hi with
    | before settled same => exact absurd (same.symm.trans ho) hnew
    | ended unsettled row verdict =>
      cases ho.symm.trans row
      exact ⟨fun hmissed => hstatus (verdict.skipped_iff.mpr hmissed), h.due i hi, i, rfl⟩
  · cases h.ahead t fun i hi he => hbehind ⟨i, hi, he⟩ with
    | same same => exact absurd (same.symm.trans ho) hnew
    | deferred current due inTime => exact ⟨inTime, due, k, current.trans h.next⟩

/-- What a maintainer may expect of a schedule after an outage. -/
structure CaughtUp (P : Platform) (now : Timestamp) (s s' : Schedule) (x y : Database) (k : ℕ) :
    Prop extends Passed P now s s' x y k where
  /-- An attempt at a payment, and so a payment, is not made after the grace period. -/
  inTime : ∀ t, Tried s x y t → ¬ Missed P now t
  once : ∀ t t', Tried s x y t → Tried s x y t' → t = t'

lemma Passed.caughtUp (hP : P.Forward) (hkind : s.intervalKind ≠ .once)
    (hlong : s.OutlastsGrace P) (h : Passed P now s s' x y k) : CaughtUp P now s s' x y k where
  toPassed := h
  inTime t ht := (h.tried ht).1
  once t t' ht ht' := by
    obtain ⟨hin, hdue, i, rfl⟩ := h.tried ht
    obtain ⟨hin', hdue', j, rfl⟩ := h.tried ht'
    rw [hlong.unique hP hkind hdue hdue' hin hin']

/-! ### Ticks -/

/-- A schedule that is not due. -/
inductive AtRest (now : Timestamp) (s s' : Schedule) : Prop where
  | future (later : now < s'.nextRunAt)
  | completed (status : s'.status = .completed)
  | deferred {retryAt : Timestamp} (retry : s'.retryAfter = some retryAt) (later : now < retryAt)
  | idle (inactive : s.status ≠ .active) (same : s' = s)

lemma Passed.atRest (h : Passed P now s s' x y k) (hnot : ¬ Due now s.id s' y) :
    AtRest now s s' := by
  by_cases hactive : s'.status = .active
  · by_cases hdue : s'.nextRunAt ≤ now
    · have hretry : ¬ s'.retryAfter.getD now ≤ now :=
        fun hretry => hnot ⟨h.row, hactive, hdue, hretry⟩
      cases hr : s'.retryAfter with
      | none =>
        rw [hr] at hretry
        exact absurd le_rfl hretry
      | some r =>
        rw [hr] at hretry
        exact .deferred hr (not_le.mp hretry)
    · exact .future (not_le.mp hdue)
  · obtain hsame | hcompleted := h.status
    · have hidle : s.status ≠ .active := hsame ▸ hactive
      exact .idle hidle (h.idle hidle)
    · exact .completed hcompleted

/-- The world after so many ticks. -/
def ticked (P : Platform) (limit : ℕ) (w : Surroundings) : ℕ → Surroundings
  | 0 => w
  | n + 1 => (runDueSchedules P limit (ticked P limit w n)).2

/-- Nothing unexpected happens in the first ticks. -/
def Smooth (P : Platform) (limit : ℕ) (w : Surroundings) (n : ℕ) : Prop :=
  ∀ m < n, ∃ result, (runDueSchedules P limit (ticked P limit w m)).1 = .ok result

variable {limit n : ℕ} {w : Surroundings}

/-- One more tick. -/
lemma tick_visits (h : Alone now y (ticked P limit w n))
    (hok : ∃ result, (runDueSchedules P limit (ticked P limit w n)).1 = .ok result) :
    ∃ z, Alone now z (ticked P limit w (n + 1)) ∧ Visits P now (y.dueIds now limit) y z := by
  obtain ⟨result, hok⟩ := hok
  exact runDueSchedules_alone h (Prod.ext hok rfl)

/-- The schedules after some ticks, and what is left to do if one is still due. -/
lemma ticks_passed {ids : List Uuid} (hw : Alone now x w) (hP : P.Forward)
    (hfound : x.schedules.get? s.id = some s) (hkind : s.intervalKind ≠ .once)
    (hlong : s.OutlastsGrace P) (hids : ∀ s ∈ x.schedules, s.id ∈ ids)
    (hsmooth : Smooth P limit w n) :
    ∃ y, Alone now y (ticked P limit w n) ∧ (∀ s ∈ y.schedules, s.id ∈ ids) ∧
      (∃ k s', Passed P now s s' x y k) ∧
      (y.dueIds now limit ≠ [] → y.backlogOf P now ids + n ≤ x.backlogOf P now ids) := by
  induction n with
  | zero => exact ⟨x, hw, hids, ⟨0, s, .refl hfound⟩, fun _ => le_rfl⟩
  | succ n ih =>
    obtain ⟨y, hy, hknown, ⟨k, s', hpassed⟩, hbacklog⟩ :=
      ih fun m hm => hsmooth m (hm.trans (Nat.lt_succ_self n))
    obtain ⟨z, hz, hvisits⟩ := tick_visits hy (hsmooth n (Nat.lt_succ_self n))
    refine ⟨z, hz, ?_, hpassed.visits hP hkind hlong hvisits, ?_⟩
    · intro s₁ hs₁
      obtain ⟨s₀, hs₀, hid⟩ := hvisits.known hs₁
      exact hid ▸ hknown s₀ hs₀
    · intro hne
      by_cases hnil : y.dueIds now limit = []
      · -- A tick that finds nothing changes nothing.
        rw [hnil] at hvisits
        cases hvisits
        exact absurd hnil hne
      · have hless := hvisits.backlogOf_lt hP hnil hknown
        have hbound := hbacklog hnil
        omega

/-- Ticks at one reading of the clock come to an end, whatever else is due and however much was
missed. -/
theorem catch_up (hw : Alone now w.db w) (hP : P.Forward) (hlimit : 0 < limit)
    (hfound : w.db.schedules.get? s.id = some s) (hkind : s.intervalKind ≠ .once)
    (hlong : s.OutlastsGrace P) :
    ∃ N, ∀ n, Smooth P limit w n → ∃ k s',
      CaughtUp P now s s' w.db (ticked P limit w n).db k ∧ (N ≤ n → AtRest now s s') := by
  have hids : ∀ s ∈ w.db.schedules, s.id ∈ w.db.schedules.rows.map Schedule.id :=
    fun s hs => List.mem_map_of_mem hs
  refine ⟨w.db.backlogOf P now (w.db.schedules.rows.map Schedule.id) + 1, fun n hsmooth => ?_⟩
  obtain ⟨y, hy, hknown, ⟨k, s', hpassed⟩, hbacklog⟩ :=
    ticks_passed hw hP hfound hkind hlong hids hsmooth
  rw [hy.db]
  refine ⟨k, s', hpassed.caughtUp hP hkind hlong, fun hn => hpassed.atRest fun hdue => ?_⟩
  have hbound := hbacklog (dueIds_ne_nil hlimit hdue)
  omega

end

/-! ### Four days later -/

/-- The worker is back three days and an hour after the first of the daily payments was due. -/
def outage : Surroundings where
  moments t :=
    { clock := 1800000000000000 + (3 * secondsPerDay + 3600) * microsPerSecond
      input := drawn (1000 + t) }
  db := (State.after sample twoSchedules).db

lemma forward_sample : sample.Forward := by
  intro kind hkind t
  cases kind with
  | once => exact absurd rfl hkind
  | daily => exact Nat.lt_add_of_pos_right (by decide)
  | weekly => exact Nat.lt_add_of_pos_right (by decide)
  | monthly => exact Nat.lt_add_of_pos_right (by decide)

lemma outlastsGrace_sample {s : Schedule} (h : s.intervalKind = .daily) :
    s.OutlastsGrace sample := by
  intro t
  rw [h]
  have hstep : toMillis (sample.step .daily t) = toMillis t + secondsPerDay * 1000 := by
    change (t + secondsPerDay * microsPerSecond) / 1000 = _
    rw [show secondsPerDay * microsPerSecond = 1000 * (secondsPerDay * 1000) from rfl,
      Nat.add_mul_div_left _ _ (by decide)]
    rfl
  rw [hstep]
  push_cast
  have hgrace : (sample.config.scheduleCatchupGraceMs : ℤ) < secondsPerDay * 1000 := by decide
  linarith

lemma smooth_outage : Smooth sample 50 outage 5 := by
  have hall : ∀ m < 5, ((runDueSchedules sample 50 (ticked sample 50 outage m)).1.toOption).isSome =
      true := by decide +kernel
  intro m hm
  obtain ⟨result, hresult⟩ := Option.isSome_iff_exists.mp (hall m hm)
  exact ⟨result, eq_ok_of_toOption hresult⟩

/-- Three occurrences are skipped, the fourth is paid. -/
theorem catch_up_outage :
    Smooth sample 50 outage 5 ∧
    (((ticked sample 50 outage 5).db.runs 303 .skipped, (ticked sample 50 outage 5).db.runs 303 .paid,
        ((ticked sample 50 outage 5).db.skips 303).length) = (3, 1, 3)) ∧
      ∃ s, outage.db.schedules.get? 303 = some s ∧ ∃ N, ∀ n, Smooth sample 50 outage n → ∃ k s',
        CaughtUp sample (1800000000000000 + (3 * secondsPerDay + 3600) * microsPerSecond) s s'
          outage.db (ticked sample 50 outage n).db k ∧
        (N ≤ n → AtRest (1800000000000000 + (3 * secondsPerDay + 3600) * microsPerSecond) s s') := by
  refine ⟨smooth_outage, by decide +kernel, ?_⟩
  have hrow : (outage.db.schedules.get? 303).map Schedule.intervalKind = some .daily := by
    decide +kernel
  obtain ⟨s, hs, hdaily⟩ := Option.map_eq_some_iff.mp hrow
  have hid : s.id = 303 := Table.key_of_get? hs
  refine ⟨s, hs, catch_up ⟨rfl, fun _ => rfl, fun _ => rfl, fun _ => rfl, fun _ _ => rfl⟩
    forward_sample (by decide) (hid ▸ hs) (by rw [hdaily]; nofun) (outlastsGrace_sample hdaily)⟩

end TakaFlow
