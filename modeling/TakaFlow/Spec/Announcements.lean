import TakaFlow.Spec.Pace

/-!
# Events and what they announce

Every row says which events there should be about it. An effect adds exactly the events by which
what the rows say changes.
-/

namespace TakaFlow

open Txn

/-! ### What rows announce -/

/-- The event that announces the end of a request. -/
def RequestStatus.announcement : RequestStatus → Option EventType
  | pending => none
  | accepted => some .requestAccepted
  | declined => some .requestDeclined
  | cancelled => some .requestCancelled
  | expired => some .requestExpired

/-- The event that announces the end of an occurrence. -/
def OccurrenceStatus.announcement : OccurrenceStatus → Option EventType
  | pending => none
  | paid => some .schedulePaid
  | failed => some .scheduleFailed
  | skipped => some .scheduleSkipped

/-- Events about accounts and alerts leave no row that says so. -/
def EventType.IsRecorded (type : EventType) : Prop :=
  type ≠ .accountFrozen ∧ type ≠ .accountUnfrozen ∧ type ≠ .securityAlert

instance (type : EventType) : Decidable type.IsRecorded :=
  inferInstanceAs (Decidable (_ ≠ _ ∧ _ ≠ _ ∧ _ ≠ _))

section

variable (type : EventType) (id : Uuid)

/-- The part of a row, and of an event, in the events of a type about `id`. -/
def User.announces (u : User) : ℤ := if u.id = id ∧ type = .userRegistered then 1 else 0

def Transfer.announces (t : Transfer) : ℤ :=
  if t.id = id ∧ (type = .moneyReceived ∧ (t.type = .p2p ∨ t.type = .scheduled) ∨
    type = .transferReversed ∧ t.status = .reversed) then 1 else 0

def MoneyRequest.announces (r : MoneyRequest) : ℤ :=
  if r.id = id ∧ (type = .requestCreated ∨ r.status.announcement = some type) then 1 else 0

def Occurrence.announces (o : Occurrence) : ℤ :=
  if o.scheduleId = id ∧ o.status.announcement = some type then 1 else 0

def Content.announces (k : Content) : ℤ :=
  if k.aggregateId = id ∧ k.eventType = type then 1 else 0

/-- How many events of the type about `id` there should be. -/
def Database.happened (d : Database) : ℤ :=
  d.users.sum (User.announces type id) + d.transfers.sum (Transfer.announces type id) +
    d.moneyRequests.sum (MoneyRequest.announces type id) +
    d.occurrences.sum (Occurrence.announces type id)

/-- How many there are. -/
def Database.announced (d : Database) : ℕ :=
  d.outboxEvents.rows.countP fun e => e.aggregateId = id ∧ e.eventType = type

end

/-! ### Sums over the tables -/

namespace Database

variable {d : Database} {r : MoneyRequest} {rows : List MoneyRequest} {now : Timestamp}
  (g : MoneyRequest → ℤ)

lemma sum_transition {target : RequestStatus} {reason : Option String}
    (h : d.moneyRequests.get? r.id = some r) :
    (d.setRequest (r.transition target reason now)).moneyRequests.sum g =
      d.moneyRequests.sum g + (g (r.transition target reason now) - g r) := by
  unfold setRequest
  rw [show (r.transition target reason now).id = r.id from rfl, Table.sum_modify g h]
  rfl

lemma sum_accept {transferId : Uuid} (h : d.moneyRequests.get? r.id = some r) :
    (d.setRequest (r.accept transferId now)).moneyRequests.sum g =
      d.moneyRequests.sum g + (g (r.accept transferId now) - g r) := by
  unfold setRequest
  rw [show (r.accept transferId now).id = r.id from rfl, Table.sum_modify g h]
  rfl

lemma sum_expire (hfound : ∀ r ∈ rows, d.moneyRequests.get? r.id = some r)
    (hapart : (rows.map MoneyRequest.id).Nodup) :
    (d.expire now rows).moneyRequests.sum g = d.moneyRequests.sum g +
      (rows.map fun r => g (r.transition .expired none now) - g r).sum := by
  induction rows generalizing d with
  | nil => simp [expire]
  | cons q rows ih =>
    rw [List.map_cons, List.nodup_cons] at hapart
    have hfound' : ∀ p ∈ rows,
        (d.setRequest (q.transition .expired none now)).moneyRequests.get? p.id = some p := by
      intro p hp
      have hne : p.id ≠ (q.transition .expired none now).id :=
        fun heq => hapart.1 (heq ▸ List.mem_map_of_mem hp)
      rw [get?_setRequest_of_ne hne]
      exact hfound p (List.mem_cons_of_mem _ hp)
    calc (d.expire now (q :: rows)).moneyRequests.sum g
        = (d.setRequest (q.transition .expired none now)).moneyRequests.sum g +
            (rows.map fun r => g (r.transition .expired none now) - g r).sum :=
          ih hfound' hapart.2
      _ = _ := by
        rw [sum_transition g (hfound q List.mem_cons_self), List.map_cons, List.sum_cons, add_assoc]

lemma sum_insertRequests (hunused : ∀ r ∈ rows, d.moneyRequests.has r.id = false)
    (hapart : (rows.map MoneyRequest.id).Nodup) :
    (d.insertRequests rows).moneyRequests.sum g = d.moneyRequests.sum g + (rows.map g).sum := by
  induction rows generalizing d with
  | nil => simp [insertRequests]
  | cons q rows ih =>
    rw [List.map_cons, List.nodup_cons] at hapart
    have hnone := (Table.has_eq_false _ _).mp (hunused q List.mem_cons_self)
    have hunused' : ∀ p ∈ rows, (d.insertRequest q).moneyRequests.has p.id = false := by
      intro p hp
      have hne : q.id ≠ p.id := fun heq => hapart.1 (heq ▸ List.mem_map_of_mem hp)
      change (d.moneyRequests.insert q).has p.id = false
      rw [Table.has_insert, hunused p (List.mem_cons_of_mem _ hp), decide_eq_false hne]
      rfl
    calc (d.insertRequests (q :: rows)).moneyRequests.sum g
        = (d.insertRequest q).moneyRequests.sum g + (rows.map g).sum := ih hunused' hapart.2
      _ = _ := by
        rw [show (d.insertRequest q).moneyRequests.sum g = d.moneyRequests.sum g + g q from
          Table.sum_insert g hnone, List.map_cons, List.sum_cons, add_assoc]

lemma sum_setTransfer_reversed {t : Transfer} (g : Transfer → ℤ) (h : t ∈ d.transfers) :
    (d.setTransfer t.reversed).transfers.sum g =
      d.transfers.sum g + (g t.reversed - g t) := by
  unfold setTransfer
  rw [show t.reversed.id = t.id from rfl, Table.sum_modify g (Table.get?_of_mem h)]
  rfl

end Database

lemma Movement.sum_transfers {m : Movement} {d : Database} (g : Transfer → ℤ) (h : m.Enabled d) :
    (m.apply d).transfers.sum g = d.transfers.sum g + g m.transfer :=
  Table.sum_insert g ((Table.has_eq_false _ _).mp h.transfer)

/-! ### One commit -/

section

variable {P : Platform} {watched : Token → Prop} {may : ℕ → Database → Token → Prop}
  {now : Timestamp} {call : Call} {x y z : Database} {contents : List Content} {type : EventType}
  {id : Uuid}

/-- Of the contents that are emitted each is in the outbox once. -/
lemma Emits.announced (h : Emits now contents x y) (type : EventType) (id : Uuid) :
    (y.announced type id : ℤ) = x.announced type id +
      (contents.map (Content.announces type id)).sum := by
  obtain ⟨rows, hrows, rfl, -⟩ := h
  unfold Database.announced
  rw [hrows, List.countP_append, Nat.cast_add, List.map_map]
  congr 1
  clear hrows
  induction rows with
  | nil => rfl
  | cons e rows ih =>
    rw [List.countP_cons, List.map_cons, List.sum_cons, Nat.cast_add, ih, add_comm]
    congr 1
    simp only [Function.comp_apply, Content.announces, OutboxEvent.content, decide_eq_true_eq]
    by_cases h : e.aggregateId = id ∧ e.eventType = type <;> simp [h]

lemma announces_quiet (htype : type.IsRecorded)
    (h : ∀ k ∈ contents, ¬ k.eventType.IsRecorded) :
    (contents.map (Content.announces type id)).sum = 0 := by
  induction contents with
  | nil => rfl
  | cons k contents ih =>
    have hk : k.eventType ≠ type := fun heq => h k List.mem_cons_self (heq ▸ htype)
    rw [List.map_cons, List.sum_cons, ih fun k' hk' => h k' (List.mem_cons_of_mem _ hk'), add_zero,
      Content.announces, if_neg fun hand => hk hand.2]

/-- A payment announces itself to its recipient. -/
lemma Movement.announces_payment (m : Movement)
    (h : m.transfer.type = .p2p ∨ m.transfer.type = .scheduled) :
    m.transfer.announces type id = (m.transfer.event .moneyReceived).announces type id := by
  simp only [Transfer.announces, Content.announces, Transfer.event, m.standing, h, and_true,
    reduceCtorEq, and_false, or_false, eq_comm (a := EventType.moneyReceived)]

/-- Other movements announce nothing of their own. -/
lemma Movement.announces_other (m : Movement)
    (h : m.transfer.type ≠ .p2p ∧ m.transfer.type ≠ .scheduled) :
    m.transfer.announces type id = 0 := by
  simp only [Transfer.announces, m.standing, h.1, h.2, or_self, and_false, reduceCtorEq, if_false]

lemma MoneyRequest.announces_created (r : MoneyRequest) (h : r.status = .pending) :
    r.announces type id = (r.event .requestCreated).announces type id := by
  simp only [MoneyRequest.announces, Content.announces, MoneyRequest.event, h,
    RequestStatus.announcement, reduceCtorEq, or_false, eq_comm (a := EventType.requestCreated)]

/-- The end of a request adds the event of its new status. -/
lemma MoneyRequest.announces_ended (r r' : MoneyRequest) {ended : EventType} (hid : r'.id = r.id)
    (h : r.status = .pending) (hended : r'.status.announcement = some ended) :
    r'.announces type id - r.announces type id = (r.event ended).announces type id := by
  have hne : ended ≠ .requestCreated := by
    rintro rfl
    cases hs : r'.status <;> rw [hs] at hended <;> cases hended
  have hpending : r.status.announcement = none := by rw [h]; rfl
  simp only [MoneyRequest.announces, Content.announces, MoneyRequest.event, hpending, hid, hended,
    reduceCtorEq, or_false, Option.some.injEq]
  by_cases hr : r.id = id
  · by_cases hc : type = .requestCreated
    · simp [hr, hc, hne]
    · simp [hr, hc]
  · simp [hr]

lemma Occurrence.announces_pending (o : Occurrence) (h : o.status = .pending) :
    o.announces type id = 0 := by
  simp [Occurrence.announces, h, OccurrenceStatus.announcement]

lemma sum_map_congr {α : Type} {rows : List α} {f g : α → ℤ} (h : ∀ r ∈ rows, f r = g r) :
    (rows.map f).sum = (rows.map g).sum := by
  rw [List.map_congr_left h]

/-- The rows change by what the effect emits. -/
lemma Effect.happened (h : Effect P watched may now call x z contents) (htype : type.IsRecorded)
    (id : Uuid) :
    z.happened type id = x.happened type id + (contents.map (Content.announces type id)).sum := by
  cases h with
  | idle => simp
  | @registered user account m userUnused unused row enabled stripe executes =>
    have hmint : m.transfer.type = .mint := executes.type
    have husers :=
      Table.sum_insert (User.announces type id) ((Table.has_eq_false _ _).mp userUnused)
    have htransfers := Movement.sum_transfers (Transfer.announces type id) enabled
    rw [m.announces_other (by simp [hmint]), add_zero] at htransfers
    change (x.users.insert user).sum _ + (m.apply (x.insertAccount account)).transfers.sum _ +
      x.moneyRequests.sum _ + x.occurrences.sum _ = _
    rw [husers, htransfers, Database.happened]
    simp only [User.announces, Content.announces, List.map_cons, List.map_nil, List.sum_singleton,
      eq_comm (a := EventType.userRegistered)]
    change _ + x.transfers.sum _ + _ + _ = _
    omega
  | @sent m alerts enabled type' reversalOf createdAt within capped paced alert reference =>
    have htransfers := Movement.sum_transfers (Transfer.announces type id) enabled
    have halerts : (alerts.map (Content.announces type id)).sum = 0 :=
      announces_quiet htype fun k hk hrec => hrec.2.2 (alert k hk)
    change x.users.sum _ + (m.apply x).transfers.sum _ + x.moneyRequests.sum _ +
      x.occurrences.sum _ = _
    rw [htransfers, m.announces_payment (.inl type'), Database.happened, List.map_cons,
      List.sum_cons, halerts]
    omega
  | @reversed _ _ _ _ _ original m _ found standing type' sender window enabled executes =>
    obtain ⟨note, keyId, executes⟩ := executes
    have hreversal : m.transfer.type = .reversal := executes.type
    have htransfers := Movement.sum_transfers (Transfer.announces type id) enabled
    rw [m.announces_other (by simp [hreversal]), add_zero,
      Database.sum_setTransfer_reversed _ found] at htransfers
    have hrow : original.reversed.announces type id - original.announces type id =
        (original.event .transferReversed).announces type id := by
      simp only [Transfer.announces, Transfer.reversed, Content.announces, Transfer.event, standing]
      by_cases hid : original.id = id
      · by_cases hr : type = .transferReversed
        · simp [hid, hr]
        · simp [hid, hr, Ne.symm hr]
      · simp [hid]
    change x.users.sum _ + (m.apply (x.setTransfer original.reversed)).transfers.sum _ +
      x.moneyRequests.sum _ + x.occurrences.sum _ = _
    rw [htransfers, hrow, Database.happened, List.map_singleton, List.sum_singleton]
    omega
  | @requested rows unused apart pending unsettled bounded =>
    have hrequests := Database.sum_insertRequests (MoneyRequest.announces type id) unused apart
    have hrows : (rows.map (MoneyRequest.announces type id)).sum =
        (rows.map fun r => (r.event .requestCreated).announces type id).sum :=
      sum_map_congr fun r hr => r.announces_created (pending r hr)
    rw [Database.insertRequests_rest]
    change x.users.sum _ + x.transfers.sum _ + (x.insertRequests rows).moneyRequests.sum _ +
      x.occurrences.sum _ = _
    rw [hrequests, hrows, Database.happened, List.map_map]
    simp only [Function.comp_def]
    omega
  | @accepted r m justified found pending sender recipient capped settles enabled executes =>
    obtain ⟨keyId, executes⟩ := executes
    have hsettlement : m.transfer.type = .requestSettlement := executes.type
    have htransfers := Movement.sum_transfers (Transfer.announces type id) enabled
    rw [m.announces_other (by simp [hsettlement]), add_zero] at htransfers
    have hfound : (m.apply x).moneyRequests.get? r.id = some r := found
    have hrequests : ((m.apply x).setRequest (r.accept m.transfer.id now)).moneyRequests.sum
        (MoneyRequest.announces type id) = _ := Database.sum_accept _ hfound
    have hrow : (r.accept m.transfer.id now).announces type id - r.announces type id =
        (r.event .requestAccepted).announces type id := r.announces_ended _ rfl pending rfl
    change x.users.sum _ + (m.apply x).transfers.sum _ +
      ((m.apply x).setRequest (r.accept m.transfer.id now)).moneyRequests.sum _ +
      x.occurrences.sum _ = _
    rw [htransfers, hrequests, hrow, Database.happened, List.map_singleton, List.sum_singleton]
    change _ + _ + (x.moneyRequests.sum _ + _) + _ = _
    omega
  | @terminated r target reason justified found pending =>
    have hrequests : (x.setRequest (r.transition target.status reason now)).moneyRequests.sum
        (MoneyRequest.announces type id) = _ := Database.sum_transition _ found
    have hrow : (r.transition target.status reason now).announces type id - r.announces type id =
        (r.event target.eventType).announces type id :=
      r.announces_ended _ rfl pending (by cases target <;> rfl)
    change x.users.sum _ + x.transfers.sum _ +
      (x.setRequest (r.transition target.status reason now)).moneyRequests.sum _ +
      x.occurrences.sum _ = _
    rw [hrequests, hrow, Database.happened, List.map_singleton, List.sum_singleton]
    omega
  | @expired rows justified found pending apart =>
    have hrequests : (x.expire now rows).moneyRequests.sum (MoneyRequest.announces type id) = _ :=
      Database.sum_expire _ found apart
    have hrows : (rows.map fun r => (r.transition .expired none now).announces type id -
        r.announces type id).sum =
        (rows.map fun r => (r.event .requestExpired).announces type id).sum :=
      sum_map_congr fun r hr => r.announces_ended _ rfl (pending r hr) rfl
    rw [Database.expire_rest]
    change x.users.sum _ + x.transfers.sum _ + (x.expire now rows).moneyRequests.sum _ +
      x.occurrences.sum _ = _
    rw [hrequests, hrows, Database.happened, List.map_map]
    simp only [Function.comp_def]
    omega
  | deferred called due upserted attempts =>
    have hoccurrences : _ = x.occurrences.sum (Occurrence.announces type id) :=
      upserted.sum fun o => o.announces_pending
    obtain ⟨hu, ht, hr, -⟩ := upserted.tables
    rw [List.map_nil, List.sum_nil, add_zero, Database.happened, Database.happened, ← hoccurrences,
      ← hu, ← ht, ← hr]
    rfl
  | @settled _ s o w status reason event called due upserted outcome =>
    have hoccurrences : (w.setOccurrence (o.settle status none reason now)).occurrences.sum
        (Occurrence.announces type id) = _ :=
      upserted.settled_sum rfl fun o => o.announces_pending
    have hrow : (o.settle status none reason now).announces type id =
        (s.event event).announces type id := by
      simp only [Occurrence.announces, Occurrence.settle, upserted.scheduleId_eq, Content.announces,
        Schedule.event]
      rcases outcome with ⟨rfl, rfl⟩ | ⟨rfl, rfl⟩ <;>
        simp only [OccurrenceStatus.announcement, Option.some.injEq] <;> congr
    obtain ⟨hu, ht, hr, -⟩ := upserted.tables
    change w.users.sum _ + w.transfers.sum _ + w.moneyRequests.sum _ +
      (w.setOccurrence (o.settle status none reason now)).occurrences.sum _ = _
    rw [hoccurrences, hrow, hu, ht, hr, Database.happened, List.map_singleton, List.sum_singleton]
    omega
  | @paid _ s o w m called due upserted sender recipient capped enabled executes =>
    have hscheduled : m.transfer.type = .scheduled := executes.type
    have htransfers := Movement.sum_transfers (Transfer.announces type id) enabled
    rw [m.announces_payment (.inr hscheduled)] at htransfers
    have hoccurrences : ((m.apply w).setOccurrence
        (o.settle .paid (some m.transfer.id) none now)).occurrences.sum
        (Occurrence.announces type id) = _ :=
      upserted.settled_sum rfl fun o => o.announces_pending
    have hrow : (o.settle .paid (some m.transfer.id) none now).announces type id =
        (s.event .schedulePaid).announces type id := by
      simp only [Occurrence.announces, Occurrence.settle, upserted.scheduleId_eq, Content.announces,
        Schedule.event, OccurrenceStatus.announcement, Option.some.injEq]
      congr
    obtain ⟨hu, ht, hr, -⟩ := upserted.tables
    have happly : (m.apply w).transfers = (m.apply x).transfers :=
      congrArg (fun t => t.insert m.transfer) ht
    change w.users.sum _ + (m.apply w).transfers.sum _ + w.moneyRequests.sum _ +
      ((m.apply w).setOccurrence (o.settle .paid (some m.transfer.id) none now)).occurrences.sum _ =
        _
    rw [happly, htransfers, hoccurrences, hrow, hu, hr, Database.happened, List.map_cons,
      List.map_singleton, List.sum_cons, List.sum_singleton]
    omega
  | scheduled => exact (add_zero _).symm
  | rescheduled => exact (add_zero _).symm
  | status found legal quiet =>
    rw [announces_quiet htype, add_zero]
    · rfl
    · intro k hk hrec
      exact (quiet k hk).elim hrec.1 hrec.2.1

/-- What happens is announced, by the same commit and once. -/
theorem Performs.announces (h : Performs P watched may now call x y) (htype : type.IsRecorded)
    (id : Uuid) :
    (y.announced type id : ℤ) - y.happened type id = x.announced type id - x.happened type id := by
  obtain ⟨z, contents, h, hcore, hemits⟩ := h
  have hhappened : y.happened type id = z.happened type id := by
    have hcore' : y.core.happened type id = z.core.happened type id := by rw [hcore]
    exact hcore'
  rw [hhappened, h.happened htype id, hemits.announced type id]
  omega

end

/-! ### Every run -/

section

variable {P : Platform} {watched : Token → Prop} {may : ℕ → Database → Token → Prop} {s : State}
  {d : Database} {type : EventType}

/-- The outbox holds what has happened, once. -/
theorem Sound.announced (h : Sound P watched may s) (htype : type.IsRecorded) (id : Uuid) :
    (s.db.announced type id : ℤ) = s.db.happened type id := by
  have hdiff : (s.db.announced type id : ℤ) - s.db.happened type id = 0 :=
    h.invariant (I := fun d => (d.announced type id : ℤ) - d.happened type id = 0) rfl
      fun _ _ _ _ hstep hx => (hstep.performs.announces htype id).trans hx
  omega

namespace Database

variable {id : Uuid}

lemma sum_users_eq_zero (h : type ≠ .userRegistered) :
    d.users.sum (User.announces type id) = 0 :=
  Table.sum_eq_zero _ fun u _ => by simp [User.announces, h]

lemma sum_transfers_eq_zero (h : type ≠ .moneyReceived) (h' : type ≠ .transferReversed) :
    d.transfers.sum (Transfer.announces type id) = 0 :=
  Table.sum_eq_zero _ fun t _ => by simp [Transfer.announces, h, h']

lemma sum_requests_eq_zero (h : type ≠ .requestCreated)
    (h' : ∀ status : RequestStatus, status.announcement ≠ some type) :
    d.moneyRequests.sum (MoneyRequest.announces type id) = 0 :=
  Table.sum_eq_zero _ fun r _ => by simp [MoneyRequest.announces, h, h']

lemma sum_occurrences_eq_zero
    (h : ∀ status : OccurrenceStatus, status.announcement ≠ some type) :
    d.occurrences.sum (Occurrence.announces type id) = 0 :=
  Table.sum_eq_zero _ fun o _ => by simp [Occurrence.announces, h]

/-- Users announce that they have registered. -/
lemma happened_user {u : User} (hu : u ∈ d.users) : d.happened .userRegistered u.id = 1 := by
  have hrow : d.users.sum (User.announces .userRegistered u.id) =
      u.announces .userRegistered u.id := by
    refine Table.sum_eq_single _ hu fun v _ hne => ?_
    rw [User.announces, if_neg fun hand => hne hand.1]
  rw [happened, hrow, sum_transfers_eq_zero, sum_requests_eq_zero, sum_occurrences_eq_zero]
  · simp [User.announces]
  · intro status
    cases status <;> nofun
  · nofun
  · intro status
    cases status <;> nofun
  · nofun
  · nofun

/-- Transfers announce that they have been made, or reversed. -/
lemma happened_transfer {t : Transfer} (ht : t ∈ d.transfers)
    (h : type = .moneyReceived ∨ type = .transferReversed) :
    d.happened type t.id = t.announces type t.id := by
  have hrow : d.transfers.sum (Transfer.announces type t.id) = t.announces type t.id := by
    refine Table.sum_eq_single _ ht fun u _ hne => ?_
    rw [Transfer.announces, if_neg fun hand => hne hand.1]
  rw [happened, hrow, sum_users_eq_zero, sum_requests_eq_zero, sum_occurrences_eq_zero]
  · simp
  · intro status
    rcases h with rfl | rfl <;> cases status <;> nofun
  · rcases h with rfl | rfl <;> nofun
  · intro status
    rcases h with rfl | rfl <;> cases status <;> nofun
  · rcases h with rfl | rfl <;> nofun

/-- Requests announce how they have ended. -/
lemma happened_request {q : MoneyRequest} {status : RequestStatus} (hq : q ∈ d.moneyRequests)
    (h : status.announcement = some type) :
    d.happened type q.id = if q.status = status then 1 else 0 := by
  have hrequest : d.moneyRequests.sum (MoneyRequest.announces type q.id) =
      q.announces type q.id := by
    refine Table.sum_eq_single _ hq fun r _ hne => ?_
    rw [MoneyRequest.announces, if_neg fun hand => hne hand.1]
  have hrow : q.announces type q.id = if q.status = status then 1 else 0 := by
    cases status <;> cases h <;> cases hs : q.status <;>
      simp [MoneyRequest.announces, hs, RequestStatus.announcement]
  rw [happened, hrequest, hrow, sum_users_eq_zero, sum_transfers_eq_zero, sum_occurrences_eq_zero]
  · simp
  · intro status'
    cases status <;> cases h <;> cases status' <;> nofun
  · cases status <;> cases h <;> nofun
  · cases status <;> cases h <;> nofun
  · cases status <;> cases h <;> nofun

/-- Occurrences announce how they have ended, each under its schedule. -/
lemma happened_occurrences {status : OccurrenceStatus} (h : status.announcement = some type)
    (id : Uuid) : d.happened type id = d.runs id status := by
  have hruns : d.occurrences.sum (Occurrence.announces type id) = d.runs id status := by
    rw [runs_eq]
    congr 1
    funext o
    cases status <;> cases h <;> cases hs : o.status <;>
      simp [Occurrence.announces, run, hs, OccurrenceStatus.announcement]
  rw [happened, hruns, sum_users_eq_zero, sum_transfers_eq_zero, sum_requests_eq_zero]
  · simp
  · cases status <;> cases h <;> rintro ⟨⟩
  · intro status'
    cases status <;> cases h <;> cases status' <;> rintro ⟨⟩
  · cases status <;> cases h <;> rintro ⟨⟩
  · cases status <;> cases h <;> rintro ⟨⟩
  · cases status <;> cases h <;> rintro ⟨⟩

end Database

end

end TakaFlow
