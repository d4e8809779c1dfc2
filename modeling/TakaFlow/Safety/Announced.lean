import TakaFlow.Safety.Payments
import TakaFlow.Spec.Announcements

/-!
# Events and what happened

The outbox holds an event exactly for what has happened, with the amount it was about.
-/

namespace TakaFlow

open Txn

/-- The content is about a row that is there, and names its amount. -/
inductive Told (d : Database) : Content → Prop where
  | transfer {t : Transfer} {type : EventType} (row : t ∈ d.transfers)
      (about : type = .moneyReceived ∨ type = .transferReversed) : Told d (t.event type)
  | request {r : MoneyRequest} {type : EventType} (row : r ∈ d.moneyRequests)
      (about : type ∈ [.requestCreated, .requestAccepted, .requestDeclined, .requestCancelled,
        .requestExpired]) : Told d (r.event type)
  | schedule {p : Schedule} {type : EventType} (row : p ∈ d.schedules)
      (about : type ∈ [.schedulePaid, .scheduleFailed, .scheduleSkipped]) : Told d (p.event type)
  | user {u : User} {t : Transfer} (row : u ∈ d.users) (bonus : t ∈ d.transfers)
      (type : t.type = .mint) (recipient : Owns u.id t.toAccountId d) :
      Told d ⟨.userRegistered, "user", u.id, amountText t.amountMinor⟩
  | unrecorded {k : Content} (other : ¬ k.eventType.IsRecorded) : Told d k

section

variable {P : Platform} {watched : Token → Prop} {may : ℕ → Database → Token → Prop}
  {now : Timestamp} {call : Call} {x y z : Database} {k : Content} {contents : List Content}

/-- What events tell is about these tables only. -/
lemma Told.core (h : Told z k) (hcore : y.core = z.core) : Told y k := by
  have husers : y.users = z.users := (congrArg Database.users hcore :)
  have haccounts : y.accounts = z.accounts := (congrArg Database.accounts hcore :)
  have htransfers : y.transfers = z.transfers := (congrArg Database.transfers hcore :)
  have hrequests : y.moneyRequests = z.moneyRequests := (congrArg Database.moneyRequests hcore :)
  have hschedules : y.schedules = z.schedules := (congrArg Database.schedules hcore :)
  cases h with
  | transfer row about => exact .transfer (htransfers ▸ row) about
  | request row about => exact .request (hrequests ▸ row) about
  | schedule row about => exact .schedule (hschedules ▸ row) about
  | user row bonus type recipient =>
    obtain ⟨a, ha, hrest⟩ := recipient
    exact .user (husers ▸ row) (htransfers ▸ bonus) type ⟨a, haccounts ▸ ha, hrest⟩
  | unrecorded other => exact .unrecorded other

/-- A request stays, with its amount. -/
lemma Turn.event {r : MoneyRequest} {after : Option MoneyRequest} (type : EventType)
    (h : Turn P now call x y (some r) after) :
    ∃ r', after = some r' ∧ r'.event type = r.event type := by
  cases h with
  | same => exact ⟨r, rfl, rfl⟩
  | ended justified pending unpaid => exact ⟨_, rfl, rfl⟩
  | accepted justified pending settles => exact ⟨_, rfl, rfl⟩

lemma Schedule.Keeps.event {p p' : Schedule} (h : p.Keeps p') (type : EventType) :
    p'.event type = p.event type := by
  rw [Schedule.event, Schedule.event, h.id, h.amountMinor]

lemma Transfer.event_of_core {t t' : Transfer} (h : t'.core = t.core) (type : EventType) :
    t'.event type = t.event type := by
  have hid : t'.id = t.id := (congrArg Transfer.id h :)
  have hamount : t'.amountMinor = t.amountMinor := (congrArg Transfer.amountMinor h :)
  rw [Transfer.event, Transfer.event, hid, hamount]

/-- What was told once stays true. -/
lemma Told.later (h : Told x k) (hstep : Advances P watched may now call x y) : Told y k := by
  cases h with
  | @transfer t type row about =>
    obtain ⟨t', ht', hcore⟩ := hstep.later.transfers t row
    rw [← Transfer.event_of_core hcore type]
    exact .transfer ht' about
  | @request r type row about =>
    have hturn := hstep.performs.turn r.id
    rw [Table.get?_of_mem row] at hturn
    obtain ⟨r', hget, hevent⟩ := hturn.event type
    rw [← hevent]
    exact .request (Table.mem_of_get? hget) about
  | @schedule p type row about =>
    obtain ⟨p', hp', hkeeps⟩ := hstep.performs.keeps row
    rw [← hkeeps.event type]
    exact .schedule hp' about
  | @user u t row bonus type recipient =>
    obtain ⟨t', ht', hcore⟩ := hstep.later.transfers t bonus
    have hamount : t'.amountMinor = t.amountMinor := (congrArg Transfer.amountMinor hcore :)
    have hto : t'.toAccountId = t.toAccountId := (congrArg Transfer.toAccountId hcore :)
    rw [← hamount]
    exact .user (hstep.later.users u row) ht' ((congrArg Transfer.type hcore).trans type)
      (hto.symm ▸ recipient.later hstep.later)
  | unrecorded other => exact .unrecorded other

/-- The bonus goes to the account of the new user. -/
lemma Movement.owns_bonus {d : Database} {m : Movement} {account : Account} {userId : Uuid}
    (unused : d.accounts.has account.id = false) (owner : account.userId = some userId)
    (enabled : m.Enabled (d.insertAccount account)) (hid : m.receiver.id = account.id) :
    Owns userId m.transfer.toAccountId (m.apply (d.insertAccount account)) := by
  have hrow : (d.accounts.insert account).get? account.id = some account :=
    Table.get?_insert_self ((Table.has_eq_false _ _).mp unused)
  have hsame : (d.accounts.insert account).get? m.receiver.id = some m.receiver := enabled.receiver
  rw [hid, hrow] at hsame
  have howner : m.receiver.userId = some userId := Option.some.inj hsame ▸ owner
  have hget := Movement.account_apply enabled m.receiver.id
  rw [if_neg m.apart.symm, if_pos rfl] at hget
  exact ⟨_, Table.mem_of_get? hget, m.destination.symm, howner⟩

/-- An advanced schedule is still there. -/
lemma Upserted.mem_advance {p : Schedule} {o : Occurrence} {w : Database}
    (h : Upserted p.id p.nextRunAt o x w) (hp : x.schedules.get? p.id = some p)
    (hz : z.schedules = w.schedules) (consumeRun : Bool) :
    p.advance P consumeRun now ∈ (z.setSchedule (p.advance P consumeRun now)).schedules := by
  have hfound : z.schedules.get? p.id = some p := by rw [hz, h.tables.2.2.2, hp]
  have hget := Database.get?_setSchedule hfound (p.reassigns_advance P consumeRun now)
  exact Table.mem_of_get? hget

/-- An effect tells what it does. -/
lemma Effect.told (h : Effect P watched may now call x z contents) (hk : k ∈ contents) :
    Told z k := by
  have hmoved : ∀ {m : Movement} {d : Database}, m.Enabled d →
      m.transfer ∈ (m.apply d).transfers :=
    fun hm => (Movement.mem_transfers hm).mpr (.inr rfl)
  cases h with
  | @registered user account m userUnused unused row enabled stripe executes =>
    rw [List.mem_singleton.mp hk]
    have hamount : m.transfer.amountMinor = P.config.signupBonusMinor := executes.amountMinor
    rw [← hamount]
    have huser : user ∈ x.users.insert user :=
      (Table.mem_insert ((Table.has_eq_false _ _).mp userUnused)).mpr (.inr rfl)
    have howner : account.userId = some user.id := by rw [row]; rfl
    have henabled : m.Enabled ((x.insertUser user).insertAccount account) :=
      enabled.congr rfl rfl rfl
    exact .user huser (hmoved henabled) executes.type
      (Movement.owns_bonus unused howner henabled executes.receiver)
  | @sent m alerts enabled type reversalOf createdAt within capped paced alert =>
    rcases List.mem_cons.mp hk with rfl | hk
    · exact .transfer (hmoved enabled) (.inl rfl)
    · exact .unrecorded fun hrec => hrec.2.2 (alert k hk)
  | @reversed _ _ _ _ _ original m _ found standing type sender window enabled executes =>
    rw [List.mem_singleton.mp hk]
    have hrow : original.reversed ∈ (m.apply (x.setTransfer original.reversed)).transfers :=
      (Movement.mem_transfers enabled).mpr
        (.inl ((Database.mem_setTransfer_reversed found).mpr (.inl rfl)))
    exact .transfer (t := original.reversed) hrow (.inr rfl)
  | @requested rows unused apart pending unsettled bounded =>
    obtain ⟨r, hr, rfl⟩ := List.mem_map.mp hk
    exact .request (Table.mem_of_get? (Database.get?_insertRequests hr unused apart)) (by simp)
  | @accepted r m justified found pending =>
    rw [List.mem_singleton.mp hk]
    have hfound : (m.apply x).moneyRequests.get? r.id = some r := found
    have hrow : r.accept m.transfer.id now ∈
        ((m.apply x).setRequest (r.accept m.transfer.id now)).moneyRequests :=
      Table.mem_of_get? (Database.get?_accept hfound)
    exact .request (r := r.accept m.transfer.id now) hrow (by simp)
  | @terminated r target reason justified found pending =>
    rw [List.mem_singleton.mp hk]
    have hrow : r.transition target.status reason now ∈
        (x.setRequest (r.transition target.status reason now)).moneyRequests :=
      Table.mem_of_get? (Database.get?_transition found)
    refine .request (r := r.transition target.status reason now) hrow ?_
    cases target <;> simp [Termination.eventType]
  | @expired rows justified found pending apart =>
    obtain ⟨r, hr, rfl⟩ := List.mem_map.mp hk
    have hrow : r.transition .expired none now ∈ (x.expire now rows).moneyRequests :=
      Table.mem_of_get? (Database.get?_expire hr found apart)
    exact .request (r := r.transition .expired none now) hrow (by simp)
  | @settled i p o w status reason event called due upserted outcome =>
    rw [List.mem_singleton.mp hk, ← (p.keeps_advance P false now).event]
    refine .schedule (upserted.mem_advance due.get?.1 rfl false) ?_
    rcases outcome with ⟨-, rfl⟩ | ⟨-, rfl⟩ <;> simp
  | @paid i p o w m called due upserted sender recipient capped enabled executes =>
    have htransfers : (m.apply w).transfers = (m.apply x).transfers :=
      congrArg (fun t => t.insert m.transfer) upserted.tables.2.1
    rcases List.mem_cons.mp hk with rfl | hk
    · have hrow : m.transfer ∈ (m.apply w).transfers := htransfers ▸ hmoved enabled
      exact .transfer hrow (.inl rfl)
    · rw [List.mem_singleton.mp hk, ← (p.keeps_advance P true now).event]
      exact .schedule (upserted.mem_advance due.get?.1 rfl true) (by simp)
  | idle => cases hk
  | scheduled => cases hk
  | rescheduled => cases hk
  | deferred => cases hk
  | status found legal quiet =>
    exact .unrecorded fun hrec => (quiet k hk).elim hrec.1 hrec.2.1

/-- The step lemma. -/
lemma Told.step (h : ∀ e ∈ x.outboxEvents, Told x e.content)
    (hstep : Advances P watched may now call x y) : ∀ e ∈ y.outboxEvents, Told y e.content := by
  obtain ⟨z, contents, heffect, hcore, rows, hrows, rfl, -⟩ := hstep.performs
  intro e he
  have hmem : e ∈ x.outboxEvents.rows ++ rows := hrows ▸ he
  rcases List.mem_append.mp hmem with hold | hnew
  · exact (h e hold).later hstep
  · exact (heffect.told (List.mem_map_of_mem hnew)).core hcore

end

/-! ### The guarantee -/

/-- Events in a run. -/
structure AnnouncementsHold (s : State) : Prop where
  /-- Payments to users and scheduled ones, and no other transfers, are announced as received. -/
  moneyReceived : ∀ t ∈ s.db.transfers, s.db.announced .moneyReceived t.id =
    if t.type = .p2p ∨ t.type = .scheduled then 1 else 0
  requestAccepted : ∀ q ∈ s.db.moneyRequests, s.db.announced .requestAccepted q.id =
    if q.status = .accepted then 1 else 0
  transferReversed : ∀ t ∈ s.db.transfers, s.db.announced .transferReversed t.id =
    if t.status = .reversed then 1 else 0
  /-- A schedule has an event for each occurrence that has ended in this way. -/
  occurrences : ∀ p ∈ s.db.schedules, ∀ status type, status.announcement = some type →
    s.db.announced type p.id = s.db.runs p.id status
  userRegistered : ∀ u ∈ s.db.users, s.db.announced .userRegistered u.id = 1
  /-- Every event is about a row that is there, and names its amount. -/
  told : ∀ e ∈ s.db.outboxEvents, Told s.db e.content
  /-- The amount of a schedule is the one in the ledger. -/
  payment : ∀ o ∈ s.db.occurrences, ∀ t ∈ s.db.transfers, o.transferId = some t.id →
    ∃ p ∈ s.db.schedules, p.id = o.scheduleId ∧ t.amountMinor = p.amountMinor

theorem announcements_hold {P : Platform} {s : State} (h : Reachable P s) :
    AnnouncementsHold s := by
  have hsound := h.sound
  have hcount : ∀ type id, type.IsRecorded → (s.db.announced type id : ℤ) = s.db.happened type id :=
    fun type id htype => hsound.announced htype id
  constructor
  · intro t ht
    have hevents := hcount .moneyReceived t.id (by decide)
    rw [Database.happened_transfer ht (.inl rfl)] at hevents
    simp only [Transfer.announces, true_and, reduceCtorEq, false_and, or_false] at hevents
    exact_mod_cast hevents
  · intro q hq
    have hevents := hcount .requestAccepted q.id (by decide)
    have hrow : s.db.happened .requestAccepted q.id = if q.status = .accepted then 1 else 0 :=
      Database.happened_request hq rfl
    rw [hrow] at hevents
    exact_mod_cast hevents
  · intro t ht
    have hevents := hcount .transferReversed t.id (by decide)
    rw [Database.happened_transfer ht (.inr rfl)] at hevents
    simp only [Transfer.announces, true_and, reduceCtorEq, false_and, false_or] at hevents
    exact_mod_cast hevents
  · intro p _ status type htype
    have hrecorded : type.IsRecorded := by
      cases status <;> cases htype <;> decide
    have hevents := hcount type p.id hrecorded
    rw [Database.happened_occurrences htype] at hevents
    exact_mod_cast hevents
  · intro u hu
    have hevents := hcount .userRegistered u.id (by decide)
    rw [Database.happened_user hu] at hevents
    exact_mod_cast hevents
  · exact hsound.invariant (I := fun d => ∀ e ∈ d.outboxEvents, Told d e.content)
      (fun _ he => absurd he List.not_mem_nil)
      fun _ _ _ _ hstep hx => Told.step hx hstep
  · intro o ho t ht hid
    have hdb : Payments P s.db :=
      hsound.invariant (.seed P) fun _ _ _ _ hstep hx => hx.step hstep
    obtain ⟨-, p, hp, hpid, t', ht', heq, hpayment⟩ := hdb.paid o ho _ hid
    obtain rfl := Table.eq_of_mem ht' ht heq
    exact ⟨p, hp, hpid, hpayment.amountMinor⟩

/-- A transfer that is reversed, and a schedule paid once. -/
def eventfulRun : List Step :=
  session 0 100 asha ++ session 1 200 babu ++
    session 2 300 (.createSchedule 100 "k"
      { toPhone := "01722222222", amountMinor := 2500, intervalKind := .once,
        startAt := 1800000000000 } .null {}) ++
    session 3 400 (.runSchedule 303) ++ [.tick (secondsPerDay * microsPerSecond)] ++
    session 4 500 (.sendMoney 100 "l" ⟨"01722222222", 700, none⟩ .null {}) ++
    session 5 600 (.reverseTransfer 100 "TF27011600000000" "m" .null {})

theorem announcements_hold_eventfulRun :
    (State.after sample eventfulRun).db.outboxEvents.rows.map
        (fun e => (e.eventType, e.aggregateId)) =
        [(.userRegistered, 100), (.userRegistered, 200), (.moneyReceived, 412),
          (.schedulePaid, 303), (.moneyReceived, 511), (.transferReversed, 511)] ∧
      AnnouncementsHold (State.after sample eventfulRun) :=
  ⟨by decide +kernel, announcements_hold (reachable_after sample eventfulRun)⟩

end TakaFlow
