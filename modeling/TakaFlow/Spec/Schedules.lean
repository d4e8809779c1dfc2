import TakaFlow.Schedules
import TakaFlow.Spec.Requests

/-!
# What schedules and their worker commit
-/

namespace TakaFlow

open Txn

variable {watched : Token → Prop} {may : ℕ → Database → Token → Prop}

/-! ### Creating -/

/-- The row of a schedule as it is created. -/
def newSchedule (id ownerUserId payeeUserId : Uuid) (input : CreateScheduleInput)
    (now : Timestamp) : Schedule :=
  { id
    ownerUserId
    payeeUserId
    amountMinor := input.amountMinor
    note := input.note
    intervalKind := input.intervalKind
    nextRunAt := ofMillis input.startAt
    remainingRuns := if input.intervalKind = .once then some 1
      else input.totalRuns.map fun n => (n : ℤ)
    createdAt := now }

/-- The commit of a `createSchedule` of its own key. -/
structure ScheduleCreated (now : Timestamp) (ownerUserId : Uuid) (input : CreateScheduleInput)
    (payee : PayeeAccount) (created : Schedule) (x y : Database) : Prop where
  other : payee.userId ≠ ownerUserId
  unused : x.schedules.has created.id = false
  row : created = newSchedule created.id ownerUserId payee.userId input now
  notes : Notes now [] (x.insertSchedule created) y

lemma wp_createScheduleWork {ownerUserId : Uuid} {input : CreateScheduleInput}
    {context : RequestContext} {now : Timestamp} {r : IdempotencyKey} {d : Database}
    (h : Claiming watched may now r d) :
    wp (discipline watched may) (createScheduleWork ownerUserId input context)
      (Worked watched may now r fun result x y => ∃ payee created,
        result = (201, .obj [("schedule", scheduleDTO created ⟨payee.name, payee.phone⟩)]) ∧
          ScheduleCreated now ownerUserId input payee created x y)
      (fun _ _ _ => True) (claimed now r) d := by
  have hR := Throws.of_true (ε := Error) (claimed now r) (Unclaimed r)
  simp only [createScheduleWork, Program.bind_eq, Program.pure_eq, wp_bind]
  refine wp_requirePayee (fun _ => rfl) hR h fun d payee _ hd => ?_
  refine wp_require hR hd fun hother => ?_
  refine wp_insertRow grows_insertSchedule (fun _ => framed_insertSchedule (by simp)) hR hd
    fun c d x hd => ?_
  refine hd.noting.insertAuditLog hR fun c d a hn => ?_
  refine hn.worked (fun _ => rfl) (fun _ _ => .nil _) fun d z hp hnotes =>
    ⟨payee, newSchedule x.uuid ownerUserId payee.userId input now, rfl, ?_⟩
  exact
    { other := hother
      unused := hp.2
      row := rfl
      notes := hnotes }

/-! ### Owner transitions -/

/-- The commit of a pause, a resumption or a cancellation. -/
inductive Transitioned (now : Timestamp) (ownerUserId scheduleId : Uuid)
    (target : ScheduleTarget) : Reply → Database → Database → Prop where
  | first {x y : Database} {s : Schedule} {payee : Party}
      (found : x.schedules.get? scheduleId = some s) (owner : s.ownerUserId = ownerUserId)
      (legal : s.status ∈ target.legalFrom)
      (notes : Notes now [] (x.setSchedule (s.transition target.status now)) y) :
      Transitioned now ownerUserId scheduleId target
        (.dto (scheduleDTO (s.transition target.status now) payee)) x y
  | again {x : Database} {existing : Schedule} {payee : Party}
      (owner : existing.ownerUserId = ownerUserId) (status : existing.status = target.status) :
      Transitioned now ownerUserId scheduleId target (.dto (scheduleDTO existing payee)) x x

lemma wp_transitionSchedule {ownerUserId scheduleId : Uuid} {target : ScheduleTarget}
    {context : RequestContext} {now : ℕ} {d : Database} :
    wp (discipline watched may) (transitionSchedule ownerUserId scheduleId target context)
      (Commits (discipline watched may) fun reply hs x y =>
        Transitioned now ownerUserId scheduleId target reply x y ∧ Published hs y)
      (fun _ _ _ => True) (.start now) d := by
  have hR := Throws.of_true (ε := Error) (Ctx.start now : Ctx Database Token Hook) fun _ => True
  simp only [transitionSchedule, Program.bind_eq, Program.pure_eq, wp_bind]
  refine wp_updateRow hR (.begin watched may now d) (fun d r _ _ => .inr ?_) (fun d r _ _ => ?_)
    grows_setSchedule (fun d hd _ => ?_) fun c d s hd hf => ?_
  · exact Below.mayWait (n := 2) (by simp) rfl
  · exact framed_setSchedule List.mem_cons_self
  · simp only [transitionAgain, payeeOf, Program.bind_eq, Program.pure_eq, wp_bind]
    refine wp_read hR hd fun d hd => wp_orFail hR hd fun existing _ => ?_
    refine wp_require hR hd fun howner => wp_require hR hd fun hstatus => ?_
    refine wp_findUserById hR hd fun d hd => ?_
    simp only [wp_ret]
    exact hd.toProgress.commits rfl fun d _ => ⟨⟨.again howner hstatus, .nil d⟩, Later.refl d⟩
  · obtain ⟨hfound, hp⟩ := Option.filter_eq_some_iff.mp hf
    simp only [decide_eq_true_eq] at hp
    have hid : s.id = scheduleId := Table.key_of_get? hfound
    have hd := hd.learn (F := fun d => d.schedules.get? scheduleId = some s)
      (stable_agree (l := .schedule scheduleId) (by simp [Schedule.transition, hid]) rfl
        fun _ _ ha h => ha.1 _ h) hfound
    simp only [payeeOf, Program.bind_eq, Program.pure_eq, wp_bind]
    refine hd.noting.insertAuditLog hR fun c d a hn => ?_
    refine hn.findUserById hR fun d payee hn => ?_
    simp only [wp_ret]
    exact hn.commits rfl fun d y _ honly hp' hnotes =>
      ⟨.first hp'.2 hp.1 hp.2 hnotes, (Published.nil y).only honly⟩

/-- A schedule made due by an operator. -/
def Schedule.nudge (s : Schedule) (now : Timestamp) : Schedule :=
  { s with nextRunAt := now - microsPerSecond, retryAfter := none }

/-- The commit of the operator's statement. -/
structure MadeDue (now : Timestamp) (id : Uuid) (s : Schedule) (x y : Database) : Prop where
  found : x.schedules.get? id = some s
  active : s.status = .active
  row : y = x.setSchedule (s.nudge now)

lemma wp_makeScheduleDue {id : Uuid} {now : ℕ} {d : Database} :
    wp (discipline watched may) (makeScheduleDue id)
      (Commits (discipline watched may) fun _ hs x y =>
        (∃ s, MadeDue now id s x y) ∧ Published hs y)
      (fun _ _ _ => True) (.start now) d := by
  have hR := Throws.of_true (ε := Error) (Ctx.start now : Ctx Database Token Hook) fun _ => True
  simp only [makeScheduleDue, Program.bind_eq, Program.pure_eq, wp_bind]
  refine wp_updateRow hR (.begin watched may now d) (fun d r _ _ => .inr ?_) (fun d r _ _ => ?_)
    grows_setSchedule (fun d hd _ => wp_orFail hR hd (by rintro _ ⟨⟩)) fun c d s hd hf => ?_
  · exact Below.mayWait (n := 2) (by simp) rfl
  · exact framed_setSchedule List.mem_cons_self
  obtain ⟨hfound, hp⟩ := Option.filter_eq_some_iff.mp hf
  simp only [decide_eq_true_eq] at hp
  have hid : s.id = id := Table.key_of_get? hfound
  have hd := hd.learn (F := fun d => d.schedules.get? id = some s)
    (stable_agree (l := .schedule id) (by simp [hid]) rfl fun _ _ ha h => ha.1 _ h) hfound
  refine wp_orFail hR hd fun _ _ => hd.toProgress.commits rfl fun d hp' => ?_
  exact ⟨⟨⟨s, hp'.2, hp, rfl⟩, .nil _⟩, (grows_setSchedule _).later d⟩

/-! ### Claiming an occurrence -/

/-- A schedule as the worker claims it. -/
structure Due (now : Timestamp) (scheduleId : Uuid) (s : Schedule) (x : Database) : Prop where
  found : x.schedules.get? scheduleId = some s
  active : s.status = .active
  due : s.nextRunAt ≤ now
  retry : s.retryAfter.getD now ≤ now

/-- An occurrence as the worker claims it: a new row, or one more attempt at a pending one. -/
inductive Upserted (scheduleId : Uuid) (dueAt : Timestamp) :
    Occurrence → Database → Database → Prop where
  | first {x : Database} {id : Uuid} (none : x.occurrenceAt (scheduleId, dueAt) = none)
      (unused : x.occurrences.has id = false) :
      Upserted scheduleId dueAt { id, scheduleId, dueAt, attempts := 1 } x
        (x.insertOccurrence { id, scheduleId, dueAt, attempts := 1 })
  | retry {x : Database} {o : Occurrence} (found : x.occurrenceAt (scheduleId, dueAt) = some o)
      (pending : o.status = .pending) :
      Upserted scheduleId dueAt { o with attempts := o.attempts + 1 } x
        (x.setOccurrence { o with attempts := o.attempts + 1 })

lemma occurrenceAt_mem {d : Database} {k : OccurrenceKey} {o : Occurrence}
    (h : d.occurrenceAt k = some o) : o ∈ d.occurrences ∧ o.key = k :=
  ⟨List.mem_of_find?_eq_some h, by simpa using List.find?_some h⟩

lemma get?_setOccurrence {d : Database} {o o' : Occurrence}
    (h : d.occurrences.get? o.id = some o) (hid : o'.id = o.id) (hs : o'.scheduleId = o.scheduleId)
    (hd : o'.dueAt = o.dueAt) : (d.setOccurrence o').occurrences.get? o'.id = some o' := by
  simp only [Database.setOccurrence]
  rw [Table.get?_modify_self, hid, h, Option.map_some, if_pos]
  · cases o'
    cases o
    simp_all
  · simp [Occurrence.key, hs, hd]

namespace Upserted

variable {scheduleId : Uuid} {dueAt : Timestamp} {o : Occurrence} {x z : Database}

lemma key (h : Upserted scheduleId dueAt o x z) : o.key = (scheduleId, dueAt) := by
  cases h with
  | first => rfl
  | retry found => exact (occurrenceAt_mem found).2

lemma pending (h : Upserted scheduleId dueAt o x z) : o.status = .pending := by
  cases h with
  | first => rfl
  | retry _ pending => exact pending

/-- The claimed row is there. -/
lemma get? (h : Upserted scheduleId dueAt o x z) : z.occurrences.get? o.id = some o := by
  cases h with
  | first _ unused => exact Table.get?_insert_self ((Table.has_eq_false _ _).mp unused)
  | retry found =>
    exact get?_setOccurrence (Table.get?_of_mem (occurrenceAt_mem found).1) rfl rfl rfl

end Upserted

section rules

variable {c₀ c : Ctx Database Token Hook} {P₀ P : Database → Prop} {d : Database}
  {l : List Token} {w : Database → Database} {hs : List Hook}
  {R : Error → Ctx Database Token Hook → Database → Prop}

/-- A claimed schedule does not change any more. -/
lemma wp_selectDueSchedule {id : Uuid}
    {Q : Option Schedule → Ctx Database Token Hook → Database → Prop}
    (hsame : ∀ d, (w (c₀.write d)).schedules = d.schedules)
    (hR : Throws R c₀ P₀) (h : Doing watched may c₀ P₀ c d l w hs P)
    (hnone : ∀ d, Doing watched may c₀ P₀ c d l w hs P → Q none c d)
    (hsome : ∀ c d s, s.id = id → Doing watched may c₀ P₀ c d (.schedule s.id :: l) w hs
      (fun d => P d ∧ Due c₀.now id s d) → Q (some s) c d) :
    wp (discipline watched may) (query (selectDueSchedule id)) Q R c d := by
  refine wp_exec hR h.toProgress fun d x taken hp _ => ?_
  have hd : Doing watched may c₀ P₀ c d l w hs P := ⟨hp, h.began, h.grows⟩
  unfold selectDueSchedule
  rw [hsame]
  cases hf : (d.schedules.get? id).filter _ with
  | none => exact fun _ _ => ⟨by simp, Discipline.framed_id, hnone d hd⟩
  | some s =>
    obtain ⟨hfound, hpred⟩ := Option.filter_eq_some_iff.mp hf
    simp only [decide_eq_true_eq] at hpred
    have hid : s.id = id := Table.key_of_get? hfound
    cases ht : taken (.schedule s.id) with
    | true =>
      simp only [ht, if_true]
      exact fun _ _ => ⟨by simp, Discipline.framed_id, hnone d hd⟩
    | false =>
      simp only [ht, Bool.false_eq_true, if_false]
      refine fun _ _ => ⟨by simp [ht], Discipline.framed_id, hsome _ d s hid ?_⟩
      refine Doing.learn ⟨hp.read, h.began, h.grows⟩ ?_ ⟨hfound, hpred.1, hpred.2.1, hpred.2.2⟩
      exact stable_agree (l := .schedule id) (by simp [hid]) rfl
        fun _ _ ha hdue => { hdue with found := ha.1 _ hdue.found }

/-- A claimed occurrence does not change any more, nor does one that is settled. -/
lemma wp_upsertOccurrence {scheduleId : Uuid} {dueAt : Timestamp}
    {Q : Option Occurrence → Ctx Database Token Hook → Database → Prop}
    (hsame : ∀ d, w (c₀.write d) = d) (hl : .schedule scheduleId ∈ l ++ c₀.tokens)
    (hbelow : Below 3 (l ++ c₀.tokens))
    (hR : Throws R c₀ P₀) (h : Doing watched may c₀ P₀ c d l w hs P)
    (hnone : ∀ c d l', Doing watched may c₀ P₀ c d (l' ++ l) w hs (fun d => P d ∧
      ∃ o, d.occurrenceAt (scheduleId, dueAt) = some o ∧ o.status ≠ .pending) → Q none c d)
    (hsome : ∀ c d o l' w' P', .occurrence (scheduleId, dueAt) ∈ l' → Below 4 l' →
      (∀ x, w' x = { x with occurrences := (w' x).occurrences }) →
      Doing watched may c₀ P₀ c d (l' ++ l) (w' ∘ w) hs P' →
      (∀ d, P' d → P d ∧ Upserted scheduleId dueAt o d (w' d)) → Q (some o) c d) :
    wp (discipline watched may) (query (upsertOccurrence scheduleId dueAt)) Q R c d := by
  refine wp_exec hR h.toProgress fun d x taken hp _ => ?_
  unfold upsertOccurrence
  rw [hsame]
  -- The lock of the schedule protects its occurrences.
  have hstable : ∀ (l' : List Token) (p : Option Occurrence → Prop),
      (discipline watched may).Stable (l' ++ l ++ c₀.tokens)
        fun d => p (d.occurrenceAt (scheduleId, dueAt)) := by
    refine fun l' p => stable_agree (l := .schedule scheduleId) ?_ rfl fun _ _ ha hd => ?_
    · rw [List.append_assoc]
      exact List.mem_append_right _ hl
    · rwa [ha.2]
  cases ht : taken (.occurrence (scheduleId, dueAt)) with
  | true =>
    simp only [ht, if_true]
    exact hbelow.mayWait rfl
  | false =>
    simp only [ht, Bool.false_eq_true, if_false]
    cases ho : d.occurrenceAt (scheduleId, dueAt) with
    | some o =>
      obtain ⟨-, hkey⟩ := occurrenceAt_mem ho
      by_cases hpending : o.status = .pending
      · simp only [if_pos hpending]
        intro _ _
        refine ⟨by simp [ht], framed_setOccurrence ?_, ?_⟩
        · rw [show o.scheduleId = scheduleId from congrArg Prod.fst hkey]
          exact List.mem_append_right _ hl
        · have hd := (Doing.mk hp h.began h.grows).done
            (grows_setOccurrence { o with attempts := o.attempts + 1 })
            [.occurrence (scheduleId, dueAt)]
          refine hsome _ d _ [.occurrence (scheduleId, dueAt)] _ _ (by simp)
            (by simp [Token.rank]) (fun _ => rfl) (hd.learn (hstable _ (· = some o)) ho)
            fun d hp => ⟨hp.1, ?_⟩
          exact .retry hp.2 hpending
      · simp only [if_neg hpending]
        intro _ _
        refine ⟨by simp [ht], Discipline.framed_id, hnone _ d [.occurrence (scheduleId, dueAt)] ?_⟩
        exact Doing.learn ⟨hp.read, h.began, h.grows⟩
          (hstable _ fun q => ∃ o, q = some o ∧ o.status ≠ .pending) ⟨o, ho, hpending⟩
    | none =>
      cases hu : !d.has .occurrences x.uuid && !taken (.fresh .occurrences x.uuid) with
      | false => simp
      | true =>
        simp only [Bool.and_eq_true, Bool.not_eq_true'] at hu
        simp only [if_true]
        intro _ _
        refine ⟨by simp [ht, hu.2], framed_insertOccurrence (by simp)
          (List.mem_append_right _ hl), ?_⟩
        have hd := (Doing.mk hp h.began h.grows).done
          (grows_insertOccurrence { id := x.uuid, scheduleId, dueAt, attempts := 1 })
          [.fresh .occurrences x.uuid, .occurrence (scheduleId, dueAt)]
        have hd := hd.learn (hstable _ (· = none)) ho
        have hd := hd.learn (stable_unused Adds.id (t := .occurrences) (i := x.uuid)
          (by simp)) hu.1
        exact hsome _ d _ [.fresh .occurrences x.uuid, .occurrence (scheduleId, dueAt)] _ _
          (by simp) (by simp [Token.rank]) (fun _ => rfl) hd
          fun d hp => ⟨hp.1.1, .first hp.1.2 hp.2⟩

/-! ### Settling and advancing -/

/-- What `advanceSchedule` makes of a schedule. -/
def Schedule.advance (s : Schedule) (P : Platform) (consumeRun : Bool) (now : Timestamp) :
    Schedule :=
  if s.intervalKind = .once then s.complete now else s.next P s.intervalKind consumeRun now

lemma Schedule.advance_once {P : Platform} {s : Schedule} {now : Timestamp}
    (h : s.intervalKind = .once) (consumeRun : Bool) :
    s.advance P consumeRun now = s.complete now := by
  rw [advance, if_pos h]

lemma Schedule.advance_recurring {P : Platform} {s : Schedule} {now : Timestamp}
    (h : s.intervalKind ≠ .once) (consumeRun : Bool) :
    s.advance P consumeRun now = s.next P s.intervalKind consumeRun now := by
  rw [advance, if_neg h]

lemma Schedule.advance_id (s : Schedule) (P : Platform) (consumeRun : Bool) (now : Timestamp) :
    (s.advance P consumeRun now).id = s.id := by
  unfold advance
  split <;> rfl

lemma wp_advanceSchedule {P' : Platform} {s : Schedule} {consumeRun : Bool}
    {Q : Unit → Ctx Database Token Hook → Database → Prop}
    (hR : Throws R c₀ P₀) (h : Doing watched may c₀ P₀ c d l w hs P)
    (hrow : ∀ d, P d → (w (c₀.write d)).schedules.get? s.id = some s)
    (hl : .schedule s.id ∈ l ++ c₀.tokens)
    (hk : ∀ c d, Doing watched may c₀ P₀ c d (.schedule s.id :: l)
      ((fun d => d.setSchedule (s.advance P' consumeRun c₀.now)) ∘ w) hs P → Q () c d) :
    wp (discipline watched may) (advanceSchedule P' s consumeRun) Q R c d := by
  simp only [advanceSchedule, Program.bind_eq, Program.pure_eq, wp_bind, wp_ret]
  have hid := s.advance_id P' consumeRun c₀.now
  refine wp_updateRow hR h (fun d r hp hr => .inl ?_) (fun d r hp hr => ?_) grows_setSchedule
    (fun d hd hr => ?_) fun c d r hd hr => ?_
  · cases (hrow d hp).symm.trans hr
    change Token.schedule (s.advance P' consumeRun c₀.now).id ∈ _ ∧ _
    exact hid ▸ ⟨hl, rfl⟩
  · exact framed_setSchedule List.mem_cons_self
  · cases (hrow d hd.holds).symm.trans hr
  · cases (hrow d hd.holds).symm.trans hr
    refine hk c d ?_
    rw [← hid]
    exact hd

lemma wp_settleOccurrence {o : Occurrence} {status : OccurrenceStatus} {transferId : Option Uuid}
    {failureReason : Option String} {Q : Unit → Ctx Database Token Hook → Database → Prop}
    (hR : Throws R c₀ P₀) (h : Doing watched may c₀ P₀ c d l w hs P)
    (hrow : ∀ d, P d → (w (c₀.write d)).occurrences.get? o.id = some o)
    (hl : .occurrence o.key ∈ l ++ c₀.tokens) (hs' : .schedule o.scheduleId ∈ l ++ c₀.tokens)
    (hk : ∀ c d, Doing watched may c₀ P₀ c d (.occurrence o.key :: l)
      ((fun d => d.setOccurrence (o.settle status transferId failureReason c₀.now)) ∘ w) hs P →
      Q () c d) :
    wp (discipline watched may) (settleOccurrence o.id status transferId failureReason)
      Q R c d := by
  simp only [settleOccurrence, Program.bind_eq, Program.pure_eq, wp_bind, wp_ret]
  refine wp_updateRow hR h (fun d r hp hr => .inl ?_) (fun d r hp hr => ?_) grows_setOccurrence
    (fun d hd hr => ?_) fun c d r hd hr => ?_
  · cases (hrow d hp).symm.trans hr
    exact ⟨hl, rfl⟩
  · cases (hrow d hp).symm.trans hr
    exact framed_setOccurrence (List.mem_cons_of_mem _ hs')
  · cases (hrow d hd.holds).symm.trans hr
  · cases (hrow d hd.holds).symm.trans hr
    exact hk c d hd

/-- The payment itself. -/
lemma wp_pay {P' : Platform} {s : Schedule}
    {Q : PostedTransfer → Ctx Database Token Hook → Database → Prop}
    (hR : Throws R c₀ P₀) (h : Doing watched may c₀ P₀ c d l w hs P)
    (hbelow : Below 4 (l ++ c₀.tokens))
    (haccounts : ∀ d, (w (c₀.write d)).accounts = d.accounts)
    (htransfers : ∀ d, (w (c₀.write d)).transfers = d.transfers)
    (hk : ∀ c d (m : Movement) l' P₁, m.Executes
        { fromAccountId := m.sender.id
          toAccountId := m.receiver.id
          amountMinor := s.amountMinor
          type := .scheduled
          note := s.note } c₀.now →
      Doing watched may c₀ P₀ c d (l' ++ l) (m.apply ∘ w) (hs ++ [m.hook]) P₁ →
      (∀ d, P₁ d → P d ∧ Owns s.ownerUserId m.sender.id d ∧ Owns s.payeeUserId m.receiver.id d ∧
        Capped watched P'.config.dailyTransferLimitMinor m.sender.id
          (windowStart c₀.now secondsPerDay) s.amountMinor d ∧
        m.Enabled (w (c₀.write d))) → Q m.posted c d) :
    wp (discipline watched may) (pay P' s) Q R c d := by
  simp only [pay, Program.bind_eq, wp_bind]
  refine wp_selectAccountIdForUser haccounts hR h fun d o hd => ?_
  refine wp_selectAccountIdForUser haccounts hR hd fun d o' hd => ?_
  refine wp_orFail hR hd fun fromAccountId ho => ?_
  refine wp_orFail hR hd fun toAccountId ho' => ?_
  subst ho ho'
  refine wp_requireDailyLimit htransfers hR hd fun c d hd => ?_
  refine wp_postDoubleEntry hR hd (by simpa [Token.rank] using hbelow)
    (shields_of_same haccounts) (fun _ => by simp) (by rintro ⟨⟩) fun c d m l' hm hd => ?_
  have hsid : m.sender.id = fromAccountId := hm.sender
  have hrid : m.receiver.id = toAccountId := hm.receiver
  subst hsid hrid
  refine hk c d m (l' ++ [.spend m.sender.id]) _ hm
    (by simpa only [List.append_assoc, List.cons_append, List.nil_append] using hd) fun d hp => ?_
  obtain ⟨⟨⟨⟨hp, hsender⟩, hrecipient⟩, hcapped⟩, henabled, -⟩ := hp
  exact ⟨hp, hsender _ rfl, hrecipient _ rfl, hcapped, henabled⟩

end rules

/-! ### Running -/

/-- The commit of one visit of the worker to one schedule. -/
inductive Ran (P : Platform) (watched : Token → Prop) (now : Timestamp) (scheduleId : Uuid) :
    RunOutcome → Database → Database → Prop where
  | notClaimed {x : Database} : Ran P watched now scheduleId .notClaimed x x
  | duplicate {x : Database} {s : Schedule} {o : Occurrence} (due : Due now scheduleId s x)
      (found : x.occurrenceAt (s.id, s.nextRunAt) = some o) (settled : o.status ≠ .pending) :
      Ran P watched now scheduleId .duplicate x (x.setSchedule (s.advance P false now))
  | skipped {x y z : Database} {s : Schedule} {o : Occurrence} {reason : String}
      (due : Due now scheduleId s x) (upserted : Upserted s.id s.nextRunAt o x z)
      (late : ∃ t, now ≤ t ∧
        (P.config.scheduleCatchupGraceMs : ℤ) < (toMillis t : ℤ) - toMillis s.nextRunAt)
      (notes : Notes now [s.event .scheduleSkipped]
        ((z.setOccurrence (o.settle .skipped none (some reason) now)).setSchedule
          (s.advance P false now)) y) :
      Ran P watched now scheduleId .skipped x y
  | paid {x y z : Database} {s : Schedule} {o : Occurrence} {m : Movement}
      (due : Due now scheduleId s x) (upserted : Upserted s.id s.nextRunAt o x z)
      (inTime : ∃ t, now ≤ t ∧
        (toMillis t : ℤ) - toMillis s.nextRunAt ≤ P.config.scheduleCatchupGraceMs)
      (sender : Owns s.ownerUserId m.sender.id x) (recipient : Owns s.payeeUserId m.receiver.id x)
      (capped : Capped watched P.config.dailyTransferLimitMinor m.sender.id
        (windowStart now secondsPerDay) s.amountMinor x)
      (enabled : m.Enabled z)
      (executes : m.Executes
        { fromAccountId := m.sender.id
          toAccountId := m.receiver.id
          amountMinor := s.amountMinor
          type := .scheduled
          note := s.note } now)
      (notes : Notes now [m.transfer.event .moneyReceived,
          s.event .schedulePaid]
        (((m.apply z).setOccurrence (o.settle .paid (some m.transfer.id) none now)).setSchedule
          (s.advance P true now)) y) :
      Ran P watched now scheduleId .paid x y
  | deferred {x z : Database} {s : Schedule} {o : Occurrence} {retryAt : Timestamp}
      (due : Due now scheduleId s x) (upserted : Upserted s.id s.nextRunAt o x z)
      (attempts : o.attempts < P.config.scheduleMaxAttempts) (later : now ≤ retryAt) :
      Ran P watched now scheduleId .deferred x
        (z.setSchedule { s with retryAfter := some retryAt })
  | failed {x y z : Database} {s : Schedule} {o : Occurrence} {reason : String}
      (due : Due now scheduleId s x) (upserted : Upserted s.id s.nextRunAt o x z)
      (notes : Notes now [s.event .scheduleFailed]
        ((z.setOccurrence (o.settle .failed none (some reason) now)).setSchedule
          (s.advance P false now)) y) :
      Ran P watched now scheduleId .failed x y

/-- The worker holds a due schedule and its pending occurrence, and `P` says so. -/
structure Holding (watched : Token → Prop) (may : ℕ → Database → Token → Prop) (now : Timestamp)
    (scheduleId : Uuid) (s : Schedule) (o : Occurrence) (c : Ctx Database Token Hook)
    (P : Database → Prop) (d : Database) : Prop where
  began : c.now = now
  aborted : c.aborted = false
  schedule : .schedule s.id ∈ c.tokens
  occurrence : .occurrence o.key ∈ c.tokens
  below : Below 4 c.tokens
  writes : ∀ x, c.write x = { x with occurrences := (c.write x).occurrences }
  grows : Grows c.write
  stable : (discipline watched may).Stable c.tokens P
  knows : ∀ d, P d → Due now scheduleId s d ∧ Upserted s.id s.nextRunAt o d (c.write d)
  holds : P d

/-- The payment was rolled back to its savepoint. -/
def Reply.Refused (reply : Reply) : Prop := reply = .run .deferred ∨ reply = .run .failed

/-- What a session of the worker commits to. -/
abbrev Runs (P : Platform) (watched : Token → Prop) (may : ℕ → Database → Token → Prop)
    (now : Timestamp) (scheduleId : Uuid) (outcome : RunOutcome) (c : Ctx Database Token Hook)
    (d : Database) : Prop :=
  Commits (discipline watched may) (fun reply hs x y => (∃ outcome, reply = .run outcome ∧
    Ran P watched now scheduleId outcome x y) ∧ (Published hs y ∨ reply.Refused))
    (Reply.run outcome) c d

section running

variable {P : Platform} {now : Timestamp} {scheduleId : Uuid} {s : Schedule} {o : Occurrence}
  {c : Ctx Database Token Hook} {K : Database → Prop} {d : Database}

namespace Holding

lemma doing (h : Holding watched may now scheduleId s o c K d) :
    Doing watched may c K c d [] id [] K := .start h.grows h.stable h.holds

/-- The row of the schedule in the view, before and after the claim of the occurrence. -/
lemma schedule_row (h : Holding watched may now scheduleId s o c K d) {d : Database} (hk : K d) :
    (c.write d).schedules.get? s.id = some s := by
  obtain ⟨hdue, -⟩ := h.knows d hk
  rw [h.writes, Table.key_of_get? hdue.found]
  exact hdue.found

lemma scheduleId_eq (h : Holding watched may now scheduleId s o c K d) :
    .schedule o.scheduleId ∈ c.tokens := by
  obtain ⟨-, hup⟩ := h.knows d h.holds
  rw [show o.scheduleId = s.id from congrArg Prod.fst hup.key]
  exact h.schedule

lemma occurrence_row (h : Holding watched may now scheduleId s o c K d) {d : Database}
    (hk : K d) : (c.write d).occurrences.get? o.id = some o := (h.knows d hk).2.get?

lemma accounts (h : Holding watched may now scheduleId s o c K d) (x : Database) :
    (c.write x).accounts = x.accounts := by
  rw [h.writes]

lemma transfers (h : Holding watched may now scheduleId s o c K d) (x : Database) :
    (c.write x).transfers = x.transfers := by
  rw [h.writes]

/-- A rollback to the savepoint leads back to the claim. -/
lemma restore (h : Holding watched may now scheduleId s o c K d) {c' : Ctx Database Token Hook}
    {d' : Database} (hnow : c'.now = c.now) (hk : K d') :
    Holding watched may now scheduleId s o (c'.restore (c.write, c.tokens)) K d' :=
  { h with
    began := hnow.trans h.began
    aborted := rfl
    holds := hk }

end Holding

lemma wp_skipOccurrence {lateBy : ℤ} (h : Holding watched may now scheduleId s o c K d)
    (hhooks : c.hooks = [])
    (hlate : ∃ t, now ≤ t ∧
      (P.config.scheduleCatchupGraceMs : ℤ) < (toMillis t : ℤ) - toMillis s.nextRunAt) :
    wp (discipline watched may) (skipOccurrence P s o.id lateBy)
      (Runs P watched may now scheduleId) (fun _ _ _ => True) c d := by
  have hR := Throws.of_true (ε := Error) c K
  simp only [skipOccurrence, scheduleEvent, Program.bind_eq, Program.pure_eq, wp_bind]
  refine wp_settleOccurrence hR h.doing (fun d hk => h.occurrence_row hk) h.occurrence
    h.scheduleId_eq fun c' d hd => ?_
  refine wp_advanceSchedule hR hd (fun d hk => h.schedule_row hk)
    (List.mem_append_right _ h.schedule) fun c' d hd => ?_
  refine hd.noting.enqueueEvent hR fun c' d e hn => ?_
  rw [wp_ret]
  refine hn.commits h.aborted fun d y _ honly hk hnotes => ⟨⟨_, rfl, ?_⟩, .inl ?_⟩
  · obtain ⟨hdue, hup⟩ := h.knows d hk
    rw [h.began] at hnotes
    exact .skipped hdue hup hlate hnotes
  · rw [hhooks] at honly
    exact (Published.nil y).only honly

lemma wp_failOccurrence {e : DomainError} {c' : Ctx Database Token Hook} {d' : Database}
    (h : Holding watched may now scheduleId s o c K d) (hnow : c'.now = c.now)
    (hsaves : c'.saves = [(c.write, c.tokens)]) (hsub : c.tokens ⊆ c'.tokens) (hk : K d') :
    wp (discipline watched may) (failOccurrence P s o e)
      (Runs P watched may now scheduleId) (fun _ _ _ => True) c' d' := by
  simp only [failOccurrence, Program.bind_eq, wp_bind]
  refine wp_rollback hsaves hsub h.stable hk (fun _ _ _ _ => trivial) fun d hprog => ?_
  have h' := h.restore hnow hprog.holds
  have hR := Throws.of_true (ε := Error) (c'.restore (c.write, c.tokens)) K
  split
  · rename_i hretry
    simp only [Program.pure_eq, wp_bind, wp_ret]
    refine wp_updateRow hR h'.doing (fun d r hp hr => .inl ?_) (fun d r hp hr => ?_)
      grows_setSchedule (fun d hd hr => ?_) fun c' d r hd hr => ?_
    · cases (h'.schedule_row hp).symm.trans hr
      exact ⟨h.schedule, rfl⟩
    · exact framed_setSchedule List.mem_cons_self
    · cases (h'.schedule_row hd.holds).symm.trans hr
    · cases (h'.schedule_row hd.holds).symm.trans hr
      refine hd.toProgress.commits h'.aborted fun d hk =>
        ⟨⟨⟨_, rfl, ?_⟩, .inr (.inl rfl)⟩, ?_⟩
      · obtain ⟨hdue, hup⟩ := h'.knows d hk
        refine .deferred hdue hup hretry.2 ?_
        rw [h'.began]
        exact Nat.le_add_right _ _
      · exact (h.grows.later d).trans ((grows_setSchedule _).later _)
  · simp only [scheduleEvent, Program.pure_eq, wp_bind]
    refine wp_settleOccurrence hR h'.doing (fun d hk => h'.occurrence_row hk) h'.occurrence
      h'.scheduleId_eq fun c' d hd => ?_
    refine wp_advanceSchedule hR hd (fun d hk => h'.schedule_row hk)
      (List.mem_append_right _ h'.schedule) fun c' d hd => ?_
    refine hd.noting.enqueueEvent hR fun c' d e hn => ?_
    rw [wp_ret]
    refine hn.commits h'.aborted fun d y _ _ hk hnotes => ⟨⟨_, rfl, ?_⟩, .inr (.inr rfl)⟩
    obtain ⟨hdue, hup⟩ := h'.knows d hk
    rw [h'.began] at hnotes
    exact .failed hdue hup hnotes

/-- The payment, up to the commit of what it did or of what is left after its rollback. -/
lemma wp_payOccurrence (h : Holding watched may now scheduleId s o c K d)
    (hsaves : c.saves = []) (hhooks : c.hooks = [])
    (hin : ∃ t, now ≤ t ∧
      (toMillis t : ℤ) - toMillis s.nextRunAt ≤ P.config.scheduleCatchupGraceMs)
    {R : Error → Ctx Database Token Hook → Database → Prop}
    (hR : Throws R c.save K)
    (hR' : ∀ e (c' : Ctx Database Token Hook) d, c'.saves = [] → R e c' d) :
    wp (discipline watched may) (payOccurrence P s o.id) (Runs P watched may now scheduleId) R
      c.save d := by
  simp only [payOccurrence, scheduleEvent, Program.bind_eq, Program.pure_eq, wp_bind]
  have hsaved : Holding watched may now scheduleId s o c.save K d := { h with }
  refine wp_pay hR hsaved.doing hsaved.below hsaved.accounts hsaved.transfers
    fun c' d m l' F hm hd hF => ?_
  -- The savepoint is gone: what follows belongs to the transaction itself.
  refine wp_release hR hd.toProgress fun d hprog => ?_
  have hwrite : c'.release.write = m.apply ∘ c.write := hd.write
  have htokens : ∀ y ∈ c.tokens, y ∈ c'.release.tokens := fun y hy => by
    rw [Ctx.release_tokens, hd.tokens]
    exact List.mem_append_right _ hy
  have hstarted : c'.release.now = now := hd.now.trans h.began
  have haborted : c'.release.aborted = false := hd.aborted.trans h.aborted
  have hhooks' : c'.release.hooks = [m.hook] := by
    change c'.hooks = _
    rw [hd.hooks]
    change c.hooks ++ _ = _
    rw [hhooks]
    rfl
  have hsaves' : c'.release.saves = [] := by
    rw [Ctx.release_saves, hd.saves, Ctx.save_saves, List.tail_cons, hsaves]
  have hR₁ : Throws R c'.release F := fun e c₁ d _ hs _ _ => hR' e c₁ d (hs.trans hsaves')
  have hd : Doing watched may c'.release F c'.release d [] id [] F := by
    refine ⟨hprog, ?_, .id⟩
    rw [hwrite]
    exact m.grows.comp h.grows
  have hrows : ∀ d, F d → (c'.release.write d).occurrences.get? o.id = some o ∧
      (c'.release.write d).schedules.get? s.id = some s := by
    intro d hf
    rw [hwrite]
    exact ⟨h.occurrence_row (hF d hf).1, h.schedule_row (hF d hf).1⟩
  refine wp_settleOccurrence hR₁ hd (fun d hf => (hrows d hf).1) (htokens _ h.occurrence)
    (htokens _ h.scheduleId_eq) fun c₁ d hd => ?_
  refine wp_advanceSchedule hR₁ hd (fun d hf => (hrows d hf).2)
    (List.mem_append_right _ (htokens _ h.schedule)) fun c₁ d hd => ?_
  refine hd.noting.enqueueEvent hR₁ fun c₁ d e hn => ?_
  refine hn.enqueueEvent hR₁ fun c₁ d e hn => ?_
  rw [wp_ret]
  refine hn.commits haborted fun d y _ honly hf hnotes => ⟨⟨_, rfl, ?_⟩, .inl ?_⟩
  all_goals obtain ⟨hk, hsender, hrecipient, hcapped, henabled⟩ := hF d hf
  rotate_left
  · rw [List.append_nil, hhooks'] at honly
    refine ((Movement.published henabled).only honly).congr (hnotes.accounts.trans ?_)
    rw [hwrite]
    rfl
  obtain ⟨hdue, hup⟩ := h.knows d hk
  have hnow : c.save.now = now := h.began
  rw [hstarted, hwrite] at hnotes
  rw [hnow] at hcapped hm
  exact .paid hdue hup hin hsender hrecipient hcapped henabled hm hnotes

/-- One visit. -/
lemma wp_runSchedule {now : ℕ} :
    wp (discipline watched may) (runSchedule P scheduleId)
      (Commits (discipline watched may) fun reply hs x y => (∃ outcome, reply = .run outcome ∧
        Ran P watched now scheduleId outcome x y) ∧ (Published hs y ∨ reply.Refused))
      (fun _ _ _ => True) (.start now) d := by
  have hR := Throws.of_true (ε := Error) (Ctx.start now : Ctx Database Token Hook) fun _ => True
  simp only [runSchedule, Program.bind_eq, Program.pure_eq, wp_bind]
  refine wp_selectDueSchedule (fun _ => rfl) hR (.begin watched may now d) (fun d hd => ?_)
    fun c d s hid hd => ?_
  · exact hd.toProgress.commits rfl fun d _ =>
      ⟨⟨⟨_, rfl, .notClaimed⟩, .inl (.nil d)⟩, Later.refl d⟩
  simp only [wp_bind]
  refine wp_upsertOccurrence (fun _ => rfl) (by simp) (by simp [Token.rank]) hR hd
    (fun c d l' hd => ?_) fun c d o l' w F hl' hbelow hw hd hF => ?_
  · simp only [wp_bind]
    refine wp_advanceSchedule (s := s) hR hd (fun d hp => ?_) (by simp) fun c d hd => ?_
    · rw [hid]
      exact hp.1.2.found
    · refine hd.toProgress.commits rfl fun d hp =>
        ⟨⟨⟨_, rfl, ?_⟩, .inl (.nil _)⟩, (grows_setSchedule _).later d⟩
      obtain ⟨⟨-, hdue⟩, o, ho, hsettled⟩ := hp
      exact .duplicate hdue ho hsettled
  -- The occurrence is claimed.
  have htokens : c.tokens = l' ++ [.schedule s.id] := by simpa using hd.tokens
  have hwrite : c.write = w := hd.write
  have hup := (hF d hd.holds).2
  have h : Holding watched may now scheduleId s o c F d :=
    { began := hd.now
      aborted := hd.aborted
      schedule := by simp [htokens]
      occurrence := by rw [htokens, hup.key]; exact List.mem_append_left _ hl'
      below := by simp [htokens, hbelow, Token.rank]
      writes := by rw [hwrite]; exact hw
      grows := by rw [hwrite]; exact hd.grows
      stable := hd.stable
      knows := fun d hf => ⟨(hF d hf).1.2, by rw [hwrite]; exact (hF d hf).2⟩
      holds := hd.holds }
  have hsaves : c.saves = [] := hd.saves
  have hhooks : c.hooks = [] := hd.hooks
  have hR' := Throws.of_true (ε := Error) c F
  simp only [runOccurrence, wp_bind, Program.bind_eq, wp_ret]
  refine wp_dateNow h.doing fun t x ht => ?_
  rw [h.began] at ht
  split
  · rename_i hlate
    exact wp_skipOccurrence h hhooks ⟨t, ht, hlate⟩
  · rename_i hlate
    simp only [wp_bind, wp_tryCatch]
    refine wp_set hR' h.doing.toProgress fun d hprog => ?_
    have h : Holding watched may now scheduleId s o c F d := { h with holds := hprog.holds }
    refine wp_payOccurrence h hsaves hhooks ⟨t, ht, not_lt.mp hlate⟩ ?_ ?_
    · intro e c' d' hnow hs hsub hf
      cases e with
      | domain e =>
        refine wp_failOccurrence h hnow ?_ hsub hf
        rw [hs, Ctx.save_saves, hsaves]
      | driver e => trivial
      | internal e => trivial
    · intro e c' d' hs
      cases e with
      | domain e =>
        simp only [failOccurrence, Program.bind_eq, wp_bind]
        exact wp_rollback_nil hs fun _ _ _ => trivial
      | driver e => trivial
      | internal e => trivial

end running

end TakaFlow
