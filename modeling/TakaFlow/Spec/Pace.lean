import TakaFlow.Spec.Turns

/-!
# What effects do to schedules and occurrences

A schedule is created, changed by its owner or an operator, put off, or moved on once one of its
occurrences has come to an end. An occurrence ends once.
-/

namespace TakaFlow

open Txn

/-! ### The table of schedules -/

/-- The new row differs in assigned columns only. -/
def Schedule.Reassigns (s s' : Schedule) : Prop :=
  s' = { s with
    nextRunAt := s'.nextRunAt
    retryAfter := s'.retryAfter
    remainingRuns := s'.remainingRuns
    status := s'.status
    lastRunAt := s'.lastRunAt }

namespace Schedule

variable {s s' : Schedule} {P : Platform} {now : Timestamp} {x : Database}

lemma Reassigns.id (h : s.Reassigns s') : s'.id = s.id := (congrArg Schedule.id h :)

lemma reassigns_advance (s : Schedule) (P : Platform) (consumeRun : Bool) (now : Timestamp) :
    s.Reassigns (s.advance P consumeRun now) := by
  unfold Reassigns advance
  split <;> rfl

lemma reassigns_due (s : Schedule) (due : Timestamp) :
    s.Reassigns { s with nextRunAt := due, retryAfter := none } := rfl

lemma reassigns_nudge (s : Schedule) (now : Timestamp) : s.Reassigns (s.nudge now) :=
  s.reassigns_due _

lemma Changes.reassigns (h : s.Changes P now x s') : s.Reassigns s' := by
  cases h with
  | transition => rfl
  | nudge => exact s.reassigns_nudge now
  | duplicate => exact s.reassigns_advance P false now

end Schedule

namespace Database

variable {d : Database} {s s' : Schedule} {o : Occurrence} {id : Uuid}

lemma get?_setSchedule (h : d.schedules.get? s.id = some s) (hs : s.Reassigns s') :
    (d.setSchedule s').schedules.get? s.id = some s' := by
  unfold setSchedule
  rw [hs.id, Table.get?_modify_self, h, Option.map_some]
  exact congrArg some hs.symm

lemma get?_setSchedule_of_ne (hs : s.Reassigns s') (hne : id ≠ s.id) :
    (d.setSchedule s').schedules.get? id = d.schedules.get? id := by
  unfold setSchedule
  rw [hs.id, Table.get?_modify_of_ne hne]

/-! ### The table of occurrences -/

/-- How many occurrences of a schedule are in a state. -/
def runs (d : Database) (scheduleId : Uuid) (status : OccurrenceStatus) : ℕ :=
  d.occurrences.rows.countP fun o => o.scheduleId = scheduleId ∧ o.status = status

/-- What one occurrence adds to that. -/
def run (scheduleId : Uuid) (status : OccurrenceStatus) (o : Occurrence) : ℤ :=
  if o.scheduleId = scheduleId ∧ o.status = status then 1 else 0

lemma runs_eq (d : Database) (scheduleId : Uuid) (status : OccurrenceStatus) :
    (d.runs scheduleId status : ℤ) = d.occurrences.sum (run scheduleId status) := by
  unfold runs run Table.sum
  induction d.occurrences.rows with
  | nil => rfl
  | cons o rows ih =>
    rw [List.countP_cons, List.map_cons, List.sum_cons, ← ih]
    by_cases h : o.scheduleId = scheduleId ∧ o.status = status
    · simp [h, add_comm]
    · simp [h]

/-- An occurrence is replaced by one of the same key. -/
lemma sum_setOccurrence (g : Occurrence → ℤ) (o' : Occurrence)
    (h : d.occurrences.get? o.id = some o) (hid : o'.id = o.id)
    (hs : o'.scheduleId = o.scheduleId) (hd : o'.dueAt = o.dueAt) :
    (d.setOccurrence o').occurrences.sum g = d.occurrences.sum g + (g o' - g o) := by
  have hkey : o.key = o'.key := by simp only [Occurrence.key, hs, hd]
  have hrow : (if o.key = o'.key then
      { o with
        status := o'.status
        transferId := o'.transferId
        failureReason := o'.failureReason
        attempts := o'.attempts
        completedAt := o'.completedAt } else o) = o' := by
    rw [if_pos hkey, ← hid, ← hs, ← hd]
  unfold setOccurrence
  rw [hid, Table.sum_modify g h, hrow]

lemma get?_setOccurrence_of_ne (h : id ≠ o.id) :
    (d.setOccurrence o).occurrences.get? id = d.occurrences.get? id := by
  unfold setOccurrence
  rw [Table.get?_modify_of_ne h]

end Database

/-! ### Claims -/

section claims

variable {scheduleId id : Uuid} {dueAt now : Timestamp} {o : Occurrence} {x y z : Database}

/-- The row a worker works on, from the one that was there before. -/
inductive Claims (x : Database) : Option Occurrence → Occurrence → Prop where
  | first {o : Occurrence} (unused : x.occurrenceAt o.key = none) (pending : o.status = .pending)
      (unpaid : o.transferId = none) (attempts : o.attempts = 1) : Claims x none o
  | retry {o : Occurrence} (pending : o.status = .pending) :
      Claims x (some o) { o with attempts := o.attempts + 1 }

lemma Claims.pending {before : Option Occurrence} (h : Claims x before o) :
    o.status = .pending := by
  cases h with
  | first unused pending unpaid attempts => exact pending
  | retry pending => exact pending

lemma Upserted.claims (h : Upserted scheduleId dueAt o x z) :
    Claims x (x.occurrences.get? o.id) o := by
  cases h with
  | first none unused =>
    rw [(Table.has_eq_false _ _).mp unused]
    exact .first none rfl rfl rfl
  | @retry _ o found pending =>
    change Claims x (x.occurrences.get? o.id) _
    rw [Table.get?_of_mem (occurrenceAt_mem found).1]
    exact .retry pending

/-- A claim touches no other table. -/
lemma Upserted.tables (h : Upserted scheduleId dueAt o x z) :
    z.users = x.users ∧ z.transfers = x.transfers ∧ z.moneyRequests = x.moneyRequests ∧
      z.schedules = x.schedules := by
  rw [h.rest]
  exact ⟨rfl, rfl, rfl, rfl⟩

/-- A claim touches no other row. -/
lemma Upserted.get?_of_ne (h : Upserted scheduleId dueAt o x z) (hne : id ≠ o.id) :
    z.occurrences.get? id = x.occurrences.get? id := by
  cases h with
  | first none unused => exact Table.get?_insert_of_ne (Ne.symm hne)
  | @retry _ o found pending =>
    exact Database.get?_setOccurrence_of_ne (o := { o with attempts := o.attempts + 1 }) hne

/-- A claim ends nothing. -/
lemma Upserted.sum {g : Occurrence → ℤ} (h : Upserted scheduleId dueAt o x z)
    (hg : ∀ o : Occurrence, o.status = .pending → g o = 0) :
    z.occurrences.sum g = x.occurrences.sum g := by
  cases h with
  | first none unused =>
    change (x.occurrences.insert _).sum _ = _
    rw [Table.sum_insert _ ((Table.has_eq_false _ _).mp unused), hg _ rfl, add_zero]
  | @retry _ o found pending =>
    have hrow := Table.get?_of_mem (occurrenceAt_mem found).1
    rw [Database.sum_setOccurrence _ { o with attempts := o.attempts + 1 } hrow rfl rfl rfl,
      hg { o with attempts := o.attempts + 1 } pending, hg o pending, sub_zero, add_zero]

lemma Upserted.scheduleId_eq (h : Upserted scheduleId dueAt o x z) : o.scheduleId = scheduleId :=
  congrArg Prod.fst h.key

/-- The end of a claimed occurrence. -/
lemma Upserted.settled_get? {status : OccurrenceStatus} {transferId : Option Uuid}
    {reason : Option String} (h : Upserted scheduleId dueAt o x z)
    (hy : y.occurrences = z.occurrences) (id : Uuid) :
    (y.setOccurrence (o.settle status transferId reason now)).occurrences.get? id =
      if id = o.id then some (o.settle status transferId reason now)
      else x.occurrences.get? id := by
  by_cases hid : id = o.id
  · have hrow : y.occurrences.get? o.id = some o := hy ▸ h.get?
    rw [if_pos hid, hid]
    exact get?_setOccurrence hrow rfl rfl rfl
  · rw [if_neg hid,
      Database.get?_setOccurrence_of_ne (o := o.settle status transferId reason now) hid, hy,
      h.get?_of_ne hid]

lemma Upserted.settled_sum {g : Occurrence → ℤ} {status : OccurrenceStatus}
    {transferId : Option Uuid} {reason : Option String} (h : Upserted scheduleId dueAt o x z)
    (hy : y.occurrences = z.occurrences) (hg : ∀ o : Occurrence, o.status = .pending → g o = 0) :
    (y.setOccurrence (o.settle status transferId reason now)).occurrences.sum g =
      x.occurrences.sum g + g (o.settle status transferId reason now) := by
  have hrow : y.occurrences.get? o.id = some o := hy ▸ h.get?
  rw [Database.sum_setOccurrence _ (o.settle status transferId reason now) hrow rfl rfl rfl,
    hg o h.pending, sub_zero, hy, h.sum hg]

lemma run_pending {status : OccurrenceStatus} (hs : status ≠ .pending) (o : Occurrence)
    (h : o.status = .pending) : Database.run id status o = 0 := by
  rw [Database.run, if_neg]
  rintro ⟨-, rfl⟩
  exact hs h

end claims

/-! ### One schedule -/

section

variable (P : Platform) (now : Timestamp) (call : Call) (x y : Database)

/-- The row of one schedule before and after a commit, and how an occurrence of it has ended. -/
inductive Pace : Option Schedule → Option Schedule → Option OccurrenceStatus → Prop where
  | same (o : Option Schedule) : Pace o o none
  | created {user payeeUserId : Uuid} {key : String} {input : CreateScheduleInput} {raw : Json}
      {context : RequestContext} {s : Schedule}
      (called : call = .createSchedule user key input raw context)
      (row : s = newSchedule s.id user payeeUserId input now) (within : Within P s.amountMinor) :
      Pace none (some s) none
  | changes {s s' : Schedule} (changes : s.Changes P now x s') : Pace (some s) (some s') none
  | deferred {s : Schedule} {retryAt : Timestamp} (active : s.status = .active) :
      Pace (some s) (some { s with retryAfter := some retryAt }) none
  | settled {s : Schedule} {status : OccurrenceStatus} (active : s.status = .active)
      (outcome : status = .skipped ∨ status = .failed) :
      Pace (some s) (some (s.advance P false now)) (some status)
  | paid {s : Schedule} (active : s.status = .active) :
      Pace (some s) (some (s.advance P true now)) (some .paid)

/-! ### One occurrence -/

/-- The payment of an occurrence: the movement a commit makes for a schedule. -/
structure Pays (s : Schedule) (m : Movement) : Prop where
  called : call = .runSchedule s.id
  due : Due now s.id s x
  sender : Owns s.ownerUserId m.sender.id x
  recipient : Owns s.payeeUserId m.receiver.id x
  amountMinor : m.transfer.amountMinor = s.amountMinor
  type : m.transfer.type = .scheduled
  enabled : m.Enabled x
  transfers : y.transfers = (m.apply x).transfers

/-- How the attempt at a claimed occurrence ends. -/
inductive Ends : Occurrence → Occurrence → Prop where
  | deferred {o : Occurrence} (attempts : o.attempts < P.config.scheduleMaxAttempts) : Ends o o
  | settled {o : Occurrence} {status : OccurrenceStatus} {reason : Option String}
      (outcome : status = .skipped ∨ status = .failed) : Ends o (o.settle status none reason now)
  | paid {o : Occurrence} {s : Schedule} {m : Movement} (schedule : o.scheduleId = s.id)
      (pays : Pays now call x y s m) : Ends o (o.settle .paid (some m.transfer.id) none now)

/-- What a commit does to the table of occurrences. -/
inductive Attempt : Prop where
  | still (occurrences : y.occurrences = x.occurrences)
  | made {o o' : Occurrence} (claims : Claims x (x.occurrences.get? o.id) o)
      (row : y.occurrences.get? o.id = some o')
      (others : ∀ id, id ≠ o.id → y.occurrences.get? id = x.occurrences.get? id)
      (ends : Ends P now call x y o o')

end

section

variable {P : Platform} {watched : Token → Prop} {may : ℕ → Database → Token → Prop}
  {now : Timestamp} {call : Call} {x y : Database}

lemma Due.get? {id : Uuid} {s : Schedule} (h : Due now id s x) :
    x.schedules.get? s.id = some s ∧ Due now s.id s x := by
  have hid := Table.key_of_get? h.found
  rw [hid]
  exact ⟨h.found, h⟩

/-- An `UPDATE` of one schedule, seen from all of them. -/
lemma pace_setSchedule {z : Database} {s s' : Schedule} {ended : Option OccurrenceStatus}
    (hfound : x.schedules.get? s.id = some s) (hz : z.schedules = x.schedules)
    (hs : s.Reassigns s') (h : Pace P now call x (some s) (some s') ended) (id : Uuid) :
    Pace P now call x (x.schedules.get? id) ((z.setSchedule s').schedules.get? id)
      (if s.id = id then ended else none) := by
  by_cases hid : id = s.id
  · rw [hid, if_pos rfl, hfound, Database.get?_setSchedule (hz ▸ hfound) hs]
    exact h
  · rw [if_neg (Ne.symm hid), Database.get?_setSchedule_of_ne hs hid, hz]
    exact .same _

/-- Every schedule keeps one of these paces, and its occurrences are counted. -/
theorem Performs.pace (h : Performs P watched may now call x y) (id : Uuid) :
    ∃ ended, Pace P now call x (x.schedules.get? id) (y.schedules.get? id) ended ∧
      ∀ status ≠ .pending, (y.runs id status : ℤ) =
        x.runs id status + if ended = some status then 1 else 0 := by
  obtain ⟨z, contents, h, hcore, -⟩ := h
  have hschedules : y.schedules = z.schedules := (congrArg Database.schedules hcore :)
  have hoccurrences : y.occurrences = z.occurrences := (congrArg Database.occurrences hcore :)
  simp only [Database.runs_eq]
  rw [hschedules, hoccurrences]
  have hstill : z.schedules = x.schedules → z.occurrences = x.occurrences →
      ∃ ended, Pace P now call x (x.schedules.get? id) (z.schedules.get? id) ended ∧
        ∀ status ≠ .pending, z.occurrences.sum (Database.run id status) =
          x.occurrences.sum (Database.run id status) + if ended = some status then 1 else 0 := by
    intro hs ho
    rw [hs, ho]
    exact ⟨none, .same _, by simp⟩
  cases h with
  | @scheduled user payeeUserId key input raw context s called row unused within =>
    refine ⟨none, ?_, by simp; intro _ _; rfl⟩
    by_cases hid : s.id = id
    · have hnone := (Table.has_eq_false _ _).mp unused
      change Pace P now call x (x.schedules.get? id) ((x.schedules.insert s).get? id) none
      rw [← hid, hnone, Table.get?_insert_self hnone]
      exact .created called row within
    · change Pace P now call x (x.schedules.get? id) ((x.schedules.insert s).get? id) none
      rw [Table.get?_insert_of_ne hid]
      exact .same _
  | @rescheduled s s' found changes =>
    refine ⟨_, pace_setSchedule found rfl changes.reassigns (.changes changes) id, ?_⟩
    intro status hstatus
    simp only [ite_self, reduceCtorEq, if_false, add_zero]
    rfl
  | @deferred _ s o w retryAt called due upserted attempts =>
    have hw := upserted.tables.2.2.2
    have hs : s.Reassigns { s with retryAfter := some retryAt } := rfl
    refine ⟨_, pace_setSchedule due.get?.1 hw hs (.deferred due.active) id, ?_⟩
    intro status hstatus
    simp only [ite_self, reduceCtorEq, if_false, add_zero]
    exact upserted.sum (run_pending hstatus)
  | @settled _ s o w status reason event called due upserted outcome =>
    have hw := upserted.tables.2.2.2
    have houtcome : status = .skipped ∨ status = .failed := outcome.imp And.left And.left
    refine ⟨_, pace_setSchedule (z := w.setOccurrence _) due.get?.1 hw
      (s.reassigns_advance P false now) (.settled due.active houtcome) id, ?_⟩
    intro status' hstatus
    refine (upserted.settled_sum rfl (run_pending hstatus)).trans ?_
    simp only [Database.run, Occurrence.settle, upserted.scheduleId_eq]
    by_cases hid : s.id = id <;> simp [hid]
  | @paid _ s o w m called due upserted sender recipient capped enabled executes =>
    have hw := upserted.tables.2.2.2
    refine ⟨_, pace_setSchedule (z := (m.apply w).setOccurrence _) due.get?.1 hw
      (s.reassigns_advance P true now) (.paid due.active) id, ?_⟩
    intro status' hstatus
    refine (upserted.settled_sum (y := m.apply w) rfl (run_pending hstatus)).trans ?_
    simp only [Database.run, Occurrence.settle, upserted.scheduleId_eq]
    by_cases hid : s.id = id <;> simp [hid]
  | requested =>
    rw [Database.insertRequests_rest] at hstill ⊢
    exact hstill rfl rfl
  | expired =>
    rw [Database.expire_rest] at hstill ⊢
    exact hstill rfl rfl
  | idle => exact hstill rfl rfl
  | registered => exact hstill rfl rfl
  | sent => exact hstill rfl rfl
  | reversed => exact hstill rfl rfl
  | accepted => exact hstill rfl rfl
  | terminated => exact hstill rfl rfl
  | status => exact hstill rfl rfl

/-- What a schedule pays stays. -/
lemma Schedule.Reassigns.keeps {s s' : Schedule} (h : s.Reassigns s') : s.Keeps s' :=
  ⟨h.id, (congrArg Schedule.ownerUserId h :), (congrArg Schedule.payeeUserId h :),
    (congrArg Schedule.amountMinor h :)⟩

lemma Pace.keeps {s : Schedule} {after : Option Schedule} {ended : Option OccurrenceStatus}
    (h : Pace P now call x (some s) after ended) : ∃ s', after = some s' ∧ s.Keeps s' := by
  cases h with
  | same => exact ⟨s, rfl, rfl, rfl, rfl, rfl⟩
  | changes changes => exact ⟨_, rfl, changes.keeps⟩
  | deferred active => exact ⟨_, rfl, rfl, rfl, rfl, rfl⟩
  | settled active outcome => exact ⟨_, rfl, s.keeps_advance P false now⟩
  | paid active => exact ⟨_, rfl, s.keeps_advance P true now⟩

lemma Performs.keeps (h : Performs P watched may now call x y) {s : Schedule}
    (hs : s ∈ x.schedules) : ∃ s' ∈ y.schedules, s.Keeps s' := by
  obtain ⟨ended, hpace, -⟩ := h.pace s.id
  rw [Table.get?_of_mem hs] at hpace
  obtain ⟨s', hget, hkeeps⟩ := hpace.keeps
  exact ⟨s', Table.mem_of_get? hget, hkeeps⟩

/-- The movement the worker makes for a claimed occurrence. -/
lemma Upserted.pays {i : Uuid} {s : Schedule} {o : Occurrence} {m : Movement} {w : Database}
    (upserted : Upserted s.id s.nextRunAt o x w) (called : call = .runSchedule i)
    (due : Due now i s x) (sender : Owns s.ownerUserId m.sender.id x)
    (recipient : Owns s.payeeUserId m.receiver.id x) (enabled : m.Enabled x)
    (executes : m.Executes
      { fromAccountId := m.sender.id
        toAccountId := m.receiver.id
        amountMinor := s.amountMinor
        type := .scheduled
        note := s.note } now)
    (hy : y.transfers = (m.apply w).transfers) : Pays now call x y s m where
  called := (Table.key_of_get? due.found : s.id = i) ▸ called
  due := due.get?.2
  sender := sender
  recipient := recipient
  amountMinor := executes.amountMinor
  type := executes.type
  enabled := enabled
  transfers := by
    rw [hy]
    exact congrArg (fun t => t.insert m.transfer) upserted.tables.2.1

/-- A commit attempts one occurrence, or none. -/
theorem Performs.attempt (h : Performs P watched may now call x y) : Attempt P now call x y := by
  obtain ⟨z, contents, h, hcore, -⟩ := h
  have hoccurrences : y.occurrences = z.occurrences := (congrArg Database.occurrences hcore :)
  have htransfers : y.transfers = z.transfers := (congrArg Database.transfers hcore :)
  cases h with
  | @deferred _ s o w retryAt called due upserted attempts =>
    have hrow : y.occurrences.get? o.id = some o := hoccurrences ▸ upserted.get?
    refine .made upserted.claims hrow (fun id hid => ?_) (.deferred attempts)
    rw [hoccurrences]
    exact upserted.get?_of_ne hid
  | @settled _ s o w status reason event called due upserted outcome =>
    have hget : ∀ id, y.occurrences.get? id =
        if id = o.id then some (o.settle status none reason now) else x.occurrences.get? id := by
      intro id
      rw [hoccurrences]
      exact upserted.settled_get? rfl id
    refine .made upserted.claims ((hget _).trans (if_pos rfl))
      (fun id hid => (hget _).trans (if_neg hid)) ?_
    exact .settled (outcome.imp And.left And.left)
  | @paid i s o w m called due upserted sender recipient capped enabled executes =>
    have hget : ∀ id, y.occurrences.get? id =
        if id = o.id then some (o.settle .paid (some m.transfer.id) none now)
        else x.occurrences.get? id := by
      intro id
      rw [hoccurrences]
      exact upserted.settled_get? (y := m.apply w) rfl id
    refine .made upserted.claims ((hget _).trans (if_pos rfl))
      (fun id hid => (hget _).trans (if_neg hid)) (.paid upserted.scheduleId_eq ?_)
    exact upserted.pays called due sender recipient enabled executes htransfers
  | requested =>
    rw [Database.insertRequests_rest] at hoccurrences
    exact .still hoccurrences
  | expired =>
    rw [Database.expire_rest] at hoccurrences
    exact .still hoccurrences
  | idle => exact .still hoccurrences
  | registered => exact .still hoccurrences
  | sent => exact .still hoccurrences
  | reversed => exact .still hoccurrences
  | accepted => exact .still hoccurrences
  | terminated => exact .still hoccurrences
  | scheduled => exact .still hoccurrences
  | rescheduled => exact .still hoccurrences
  | status => exact .still hoccurrences

/-! ### New transfers -/

/-- Why a transfer is in the later state but not in the earlier one. -/
inductive Fresh (now : Timestamp) (call : Call) (x y : Database) : Transfer → Prop where
  | minted {t : Transfer} (type : t.type = .mint) : Fresh now call x y t
  | sent {t : Transfer} (type : t.type = .p2p) : Fresh now call x y t
  | reverses {t : Transfer} (type : t.type = .reversal) : Fresh now call x y t
  | settles {r : MoneyRequest} {m : Movement} (found : x.moneyRequests.get? r.id = some r)
      (pending : r.status = .pending) (type : m.transfer.type = .requestSettlement)
      (row : y.moneyRequests.get? r.id = some (r.accept m.transfer.id now)) :
      Fresh now call x y m.transfer
  | pays {o : Occurrence} {s : Schedule} {m : Movement} (schedule : o.scheduleId = s.id)
      (pays : Pays now call x y s m)
      (row : y.occurrences.get? o.id = some (o.settle .paid (some m.transfer.id) none now)) :
      Fresh now call x y m.transfer

/-- Every new transfer has its reason. -/
theorem Performs.fresh (h : Performs P watched may now call x y) {t : Transfer}
    (ht : t ∈ y.transfers) (hnew : x.transfers.has t.id = false) : Fresh now call x y t := by
  obtain ⟨z, contents, h, hcore, -⟩ := h
  have hoccurrences : y.occurrences = z.occurrences := (congrArg Database.occurrences hcore :)
  have hrequests : y.moneyRequests = z.moneyRequests := (congrArg Database.moneyRequests hcore :)
  have htransfers : y.transfers = z.transfers := (congrArg Database.transfers hcore :)
  have hnone : x.transfers.get? t.id = none := (Table.has_eq_false _ _).mp hnew
  have hold : t ∉ x.transfers := by
    intro hmem
    rw [Table.get?_of_mem hmem] at hnone
    cases hnone
  rw [htransfers] at ht
  cases h with
  | @accepted r m justified found pending sender recipient capped settles enabled executes =>
    obtain ⟨keyId, executes⟩ := executes
    rcases (Movement.mem_transfers enabled).mp ht with ht | rfl
    · exact absurd ht hold
    · have hfound : (m.apply x).moneyRequests.get? r.id = some r := found
      refine .settles found pending executes.type ?_
      rw [hrequests, Database.get?_accept hfound]
  | @paid i s o w m called due upserted sender recipient capped enabled executes =>
    have hpays := upserted.pays called due sender recipient enabled executes htransfers
    have hx : t ∈ (m.apply x).transfers := hpays.transfers ▸ htransfers ▸ ht
    rcases (Movement.mem_transfers enabled).mp hx with ht | rfl
    · exact absurd ht hold
    · refine .pays upserted.scheduleId_eq hpays ?_
      rw [hoccurrences]
      exact (upserted.settled_get? (y := m.apply w) rfl o.id).trans (if_pos rfl)
  | registered userUnused unused row enabled stripe executes =>
    rcases (Movement.mem_transfers enabled).mp ht with ht | rfl
    · exact absurd ht hold
    · exact .minted executes.type
  | sent enabled type reversalOf createdAt within capped paced alert =>
    rcases (Movement.mem_transfers enabled).mp ht with ht | rfl
    · exact absurd ht hold
    · exact .sent type
  | reversed called found standing type sender window enabled executes =>
    obtain ⟨note, keyId, executes⟩ := executes
    rcases (Movement.mem_transfers enabled).mp ht with ht | rfl
    · rcases (Database.mem_setTransfer_reversed found).mp ht with rfl | ⟨ht, -⟩
      · have hsome := Table.get?_of_mem found
        cases hnone.symm.trans hsome
      · exact absurd ht hold
    · exact .reverses executes.type
  | requested =>
    rw [Database.insertRequests_rest] at ht
    exact absurd ht hold
  | expired =>
    rw [Database.expire_rest] at ht
    exact absurd ht hold
  | deferred called due upserted attempts =>
    rw [upserted.rest] at ht
    exact absurd ht hold
  | settled called due upserted outcome =>
    rw [upserted.rest] at ht
    exact absurd ht hold
  | idle => exact absurd ht hold
  | terminated => exact absurd ht hold
  | scheduled => exact absurd ht hold
  | rescheduled => exact absurd ht hold
  | status => exact absurd ht hold

end

end TakaFlow
