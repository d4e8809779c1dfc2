import TakaFlow.Spec.System

/-!
# The abstract model

Seen from its users, accounts, transfers, entries, requests, schedules and occurrences, the backend
is a machine with few moves. `Effect` lists them, each with the facts that hold when it is made, and
every commit is one of them.
-/

namespace TakaFlow

open Txn

/-- The tables the abstract model is about. -/
def Database.core (d : Database) : Database :=
  { users := d.users
    accounts := d.accounts
    transfers := d.transfers
    ledgerEntries := d.ledgerEntries
    moneyRequests := d.moneyRequests
    schedules := d.schedules
    occurrences := d.occurrences }

/-- The events of `y` are those of `x` and then these. -/
def Emits (now : Timestamp) (contents : List Content) (x y : Database) : Prop :=
  ∃ rows : List OutboxEvent, y.outboxEvents.rows = x.outboxEvents.rows ++ rows ∧
    rows.map OutboxEvent.content = contents ∧ ∀ e ∈ rows, e.createdAt = now

lemma Emits.refl (now : Timestamp) (x : Database) : Emits now [] x x :=
  ⟨[], by simp⟩

lemma Notes.core {now : Timestamp} {contents : List Content} {x y : Database}
    (h : Notes now contents x y) : y.core = x.core := by
  rw [h.rest]
  rfl

/-- How the new schedule relates to the one it replaces. -/
structure Schedule.Keeps (s s' : Schedule) : Prop where
  id : s'.id = s.id
  ownerUserId : s'.ownerUserId = s.ownerUserId
  payeeUserId : s'.payeeUserId = s.payeeUserId
  amountMinor : s'.amountMinor = s.amountMinor

/-- What happens to a schedule apart from its runs: an owner's transition, the operator's statement,
and a run that finds its occurrence settled. -/
inductive Schedule.Changes (P : Platform) (now : Timestamp) (x : Database) (s : Schedule) :
    Schedule → Prop where
  | transition {target : ScheduleTarget} (legal : s.status ∈ target.legalFrom) :
      s.Changes P now x (s.transition target.status now)
  | nudge (active : s.status = .active) : s.Changes P now x (s.nudge now)
  | duplicate {o : Occurrence} (active : s.status = .active)
      (found : x.occurrenceAt (s.id, s.nextRunAt) = some o) (settled : o.status ≠ .pending) :
      s.Changes P now x (s.advance P false now)

/-- Who may end a request in which way, and when. -/
def Justified (call : Call) (now : Timestamp) (r : MoneyRequest) : RequestStatus → Prop
  | .pending => False
  | .accepted => now < r.expiresAt ∧
    ∃ key raw context, call = .acceptRequest r.payerUserId r.id key raw context
  | .declined => ∃ reason context, call = .declineRequest r.payerUserId r.id reason context
  | .cancelled => ∃ context, call = .cancelRequest r.requesterUserId r.id context
  | .expired => r.expiresAt ≤ now ∧ ∃ batchSize, call = .expireRequests batchSize

/-- What a call that began at `now` does, and the events it emits. -/
inductive Effect (P : Platform) (watched : Token → Prop) (may : ℕ → Database → Token → Prop)
    (now : Timestamp) (call : Call) (x : Database) : Database → List Content → Prop where
  | idle : Effect P watched may now call x x []
  | registered {user : User} {account : Account} {m : Movement}
      (userUnused : x.users.has user.id = false) (unused : x.accounts.has account.id = false)
      (row : account = newAccount account.id user.id)
      (enabled : m.Enabled (x.insertAccount account)) (stripe : m.sender.id ∈ treasuryAccountIds)
      (executes : m.Executes
        { fromAccountId := m.sender.id
          toAccountId := account.id
          amountMinor := P.config.signupBonusMinor
          type := .mint
          note := some "Welcome bonus" } now) :
      Effect P watched may now call x (m.apply ((x.insertUser user).insertAccount account))
        [⟨.userRegistered, "user", user.id, amountText P.config.signupBonusMinor⟩]
  | sent {m : Movement} {alerts : List Content} (enabled : m.Enabled x)
      (type : m.transfer.type = .p2p) (reversalOf : m.transfer.reversalOf = none)
      (createdAt : m.transfer.createdAt = now) (within : Within P m.transfer.amountMinor)
      (capped : Capped watched P.config.dailyTransferLimitMinor m.sender.id
        (windowStart now secondsPerDay) m.transfer.amountMinor x)
      (paced : Paced watched m.sender.id (windowStart now P.policy.windowSeconds)
        P.policy.maxTransfers x)
      (alert : ∀ k ∈ alerts, k.eventType = .securityAlert)
      (reference : ∃ t bytes, now ≤ t ∧
        m.transfer.reference = generateReference (toMillis t) bytes) :
      Effect P watched may now call x (m.apply x)
        (m.transfer.event .moneyReceived :: alerts)
  | reversed {user : Uuid} {reference key : String} {raw : Json} {context : RequestContext}
      {original : Transfer} {m : Movement}
      (called : call = .reverseTransfer user reference key raw context)
      (found : original ∈ x.transfers) (standing : original.status = .completed)
      (type : original.type ≠ .mint ∧ original.type ≠ .reversal)
      (sender : Owns user original.fromAccountId x)
      (window : ∃ t, now ≤ t ∧
        (toMillis t : ℤ) - toMillis original.createdAt ≤ P.config.reversalWindowSeconds * 1000)
      (enabled : m.Enabled (x.setTransfer original.reversed))
      (executes : ∃ note keyId, m.Executes
        { fromAccountId := original.toAccountId
          toAccountId := original.fromAccountId
          amountMinor := original.amountMinor
          type := .reversal
          note
          idempotencyKeyId := keyId
          reversalOf := some original.id } now) :
      Effect P watched may now call x (m.apply (x.setTransfer original.reversed))
        [original.event .transferReversed]
  | requested {rows : List MoneyRequest} (unused : ∀ r ∈ rows, x.moneyRequests.has r.id = false)
      (apart : (rows.map MoneyRequest.id).Nodup) (pending : ∀ r ∈ rows, r.status = .pending)
      (unsettled : ∀ r ∈ rows, r.settledTransferId = none)
      (bounded : ∀ r ∈ rows, Within P r.amountMinor ∨
        ∃ user key input raw context shares, call = .createSplit user key input raw context ∧
          Shares P input shares ∧ r.amountMinor ∈ legShares input shares)
      (payers : ∀ r ∈ rows, r.splitId.isSome → ∃ accountId, Owns r.payerUserId accountId x) :
      Effect P watched may now call x (x.insertRequests rows)
        (rows.map fun r => r.event .requestCreated)
  | accepted {r : MoneyRequest} {m : Movement} (justified : Justified call now r .accepted)
      (found : x.moneyRequests.get? r.id = some r) (pending : r.status = .pending)
      (sender : Owns r.payerUserId m.sender.id x)
      (recipient : Owns r.requesterUserId m.receiver.id x)
      (capped : Capped watched P.config.dailyTransferLimitMinor m.sender.id
        (windowStart now secondsPerDay) r.amountMinor x)
      (settles : Settles watched may now m.sender.id x) (enabled : m.Enabled x)
      (executes : ∃ keyId, m.Executes
        { fromAccountId := m.sender.id
          toAccountId := m.receiver.id
          amountMinor := r.amountMinor
          type := .requestSettlement
          note := r.note
          idempotencyKeyId := keyId } now) :
      Effect P watched may now call x ((m.apply x).setRequest (r.accept m.transfer.id now))
        [r.event .requestAccepted]
  | terminated {r : MoneyRequest} {target : Termination} {reason : Option String}
      (justified : Justified call now r target.status)
      (found : x.moneyRequests.get? r.id = some r) (pending : r.status = .pending) :
      Effect P watched may now call x (x.setRequest (r.transition target.status reason now))
        [r.event target.eventType]
  | expired {rows : List MoneyRequest} (justified : ∀ r ∈ rows, Justified call now r .expired)
      (found : ∀ r ∈ rows, x.moneyRequests.get? r.id = some r)
      (pending : ∀ r ∈ rows, r.status = .pending) (apart : (rows.map MoneyRequest.id).Nodup) :
      Effect P watched may now call x (x.expire now rows)
        (rows.map fun r => r.event .requestExpired)
  | scheduled {user payeeUserId : Uuid} {key : String} {input : CreateScheduleInput} {raw : Json}
      {context : RequestContext} {s : Schedule}
      (called : call = .createSchedule user key input raw context)
      (row : s = newSchedule s.id user payeeUserId input now)
      (unused : x.schedules.has s.id = false) (within : Within P s.amountMinor) :
      Effect P watched may now call x (x.insertSchedule s) []
  | rescheduled {s s' : Schedule} (found : x.schedules.get? s.id = some s)
      (changes : s.Changes P now x s') :
      Effect P watched may now call x (x.setSchedule s') []
  | deferred {id : Uuid} {s : Schedule} {o : Occurrence} {z : Database} {retryAt : Timestamp}
      (called : call = .runSchedule id) (due : Due now id s x)
      (upserted : Upserted s.id s.nextRunAt o x z)
      (attempts : o.attempts < P.config.scheduleMaxAttempts) :
      Effect P watched may now call x (z.setSchedule { s with retryAfter := some retryAt }) []
  | settled {id : Uuid} {s : Schedule} {o : Occurrence} {z : Database}
      {status : OccurrenceStatus} {reason : Option String} {event : EventType}
      (called : call = .runSchedule id) (due : Due now id s x)
      (upserted : Upserted s.id s.nextRunAt o x z)
      (outcome : status = .skipped ∧ event = .scheduleSkipped ∨
        status = .failed ∧ event = .scheduleFailed) :
      Effect P watched may now call x
        ((z.setOccurrence (o.settle status none reason now)).setSchedule (s.advance P false now))
        [s.event event]
  | paid {id : Uuid} {s : Schedule} {o : Occurrence} {z : Database} {m : Movement}
      (called : call = .runSchedule id) (due : Due now id s x)
      (upserted : Upserted s.id s.nextRunAt o x z)
      (sender : Owns s.ownerUserId m.sender.id x) (recipient : Owns s.payeeUserId m.receiver.id x)
      (capped : Capped watched P.config.dailyTransferLimitMinor m.sender.id
        (windowStart now secondsPerDay) s.amountMinor x)
      (enabled : m.Enabled x)
      (executes : m.Executes
        { fromAccountId := m.sender.id
          toAccountId := m.receiver.id
          amountMinor := s.amountMinor
          type := .scheduled
          note := s.note } now) :
      Effect P watched may now call x (((m.apply z).setOccurrence
          (o.settle .paid (some m.transfer.id) none now)).setSchedule (s.advance P true now))
        [m.transfer.event .moneyReceived, s.event .schedulePaid]
  | status {a : Account} {status : AccountStatus} {version : ℕ} {contents : List Content}
      (found : x.accounts.get? a.id = some a)
      (legal : a.status ≠ .closed ∨ ∃ user, call = .closeAccount user ∧ status = .closed)
      (quiet : ∀ k ∈ contents, k.eventType = .accountFrozen ∨ k.eventType = .accountUnfrozen) :
      Effect P watched may now call x (x.setAccount { a with status, version }) contents

/-- The commit does one of these, and otherwise touches only tables without money. -/
def Performs (P : Platform) (watched : Token → Prop) (may : ℕ → Database → Token → Prop)
    (now : Timestamp) (call : Call) (x y : Database) : Prop :=
  ∃ z contents, Effect P watched may now call x z contents ∧ y.core = z.core ∧
    Emits now contents x y

/-! ### Every commit is an effect -/

section refinement

variable {P : Platform} {watched : Token → Prop} {may : ℕ → Database → Token → Prop}
  {now : Timestamp} {call : Call} {x y : Database}

/-- The notes a commit leaves are what it emits. -/
lemma Effect.performs {contents : List Content} {x₀ y₀ z : Database}
    (h : Effect P watched may now call x₀ z contents) (hn : Notes now contents x y)
    (hx : x.core = z.core) (hevents : x.outboxEvents = x₀.outboxEvents)
    (hy : y₀.core = y.core) (hevents' : y₀.outboxEvents = y.outboxEvents) :
    Performs P watched may now call x₀ y₀ := by
  refine ⟨z, contents, h, hy.trans (hn.core.trans hx), ?_⟩
  rw [Emits, hevents', ← hevents]
  exact hn.events

lemma Performs.idle (x : Database) : Performs P watched may now call x x :=
  ⟨x, [], .idle, rfl, .refl now x⟩

/-- A move that sees the same accounts, transfers and entries. -/
lemma Movement.Enabled.congr {m : Movement} (h : m.Enabled y) (ha : y.accounts = x.accounts)
    (ht : y.transfers = x.transfers) (hl : y.ledgerEntries = x.ledgerEntries) : m.Enabled x where
  sender := ha ▸ h.sender
  receiver := ha ▸ h.receiver
  transfer := ht ▸ h.transfer
  debit := hl ▸ h.debit
  credit := hl ▸ h.credit

/-- Under an idempotency key nothing happens a second time. -/
lemma Idempotent.performs {userId : Uuid} {key endpoint requestHash : String}
    {work : Uuid → ℕ × Json → Database → Database → Prop} {reply : Reply}
    (h : Idempotent userId key endpoint requestHash work now reply x y)
    (hwork : ∀ r result e e', work r.id result (x.insertKey r) e → e'.core = e.core →
      e'.outboxEvents = e.outboxEvents → Performs P watched may now call x e') :
    Performs P watched may now call x y := by
  cases h with
  | replay => exact .idle x
  | @fresh _ _ _ result _ hdone _ => exact hwork (claimRow _ _ _ _ _ _) result _ _ hdone rfl rfl

lemma Transitioned.performs {userId scheduleId : Uuid} {target : ScheduleTarget} {reply : Reply}
    (h : Transitioned now userId scheduleId target reply x y) :
    Performs P watched may now call x y := by
  cases h with
  | again => exact .idle x
  | @first _ _ s _ found owner legal notes =>
    have hid := Table.key_of_get? found
    have h : Effect P watched may now call x (x.setSchedule (s.transition target.status now)) [] :=
      .rescheduled (s := s) (hid.symm ▸ found) (.transition legal)
    exact h.performs notes rfl rfl rfl rfl

lemma Terminated.performs {userId requestId : Uuid} {target : Termination}
    {reason : Option String} {reply : Reply}
    (h : Terminated now userId requestId target reason reply x y)
    (hcall : ∀ r : MoneyRequest, r.id = requestId → r.actor target.actorColumn = userId →
      Justified call now r target.status) :
    Performs P watched may now call x y := by
  cases h with
  | again => exact .idle x
  | @first _ _ r _ found actor pending notes =>
    have hid := Table.key_of_get? found
    have h : Effect P watched may now call x
        (x.setRequest (r.transition target.status reason now)) _ :=
      .terminated (hcall r hid actor) (hid.symm ▸ found) pending
    exact h.performs notes rfl rfl rfl rfl

lemma Schedule.keeps_advance (s : Schedule) (P : Platform) (consumeRun : Bool)
    (now : Timestamp) : s.Keeps (s.advance P consumeRun now) := by
  unfold advance
  split <;> exact ⟨rfl, rfl, rfl, rfl⟩

lemma Schedule.keeps_nudge (s : Schedule) (now : Timestamp) : s.Keeps (s.nudge now) := by
  unfold nudge
  -- The instant itself must not be evaluated.
  generalize now - microsPerSecond = due
  exact ⟨rfl, rfl, rfl, rfl⟩

lemma Schedule.Changes.keeps {s s' : Schedule} (h : s.Changes P now x s') : s.Keeps s' := by
  cases h with
  | transition => exact ⟨rfl, rfl, rfl, rfl⟩
  | nudge => exact s.keeps_nudge now
  | duplicate => exact s.keeps_advance P false now

/-- A claim changes no other table than that of the occurrences. -/
lemma Upserted.rest {scheduleId : Uuid} {dueAt : Timestamp} {o : Occurrence} {z : Database}
    (h : Upserted scheduleId dueAt o x z) : z = { x with occurrences := z.occurrences } := by
  cases h <;> rfl

lemma Ran.performs {scheduleId : Uuid} {outcome : RunOutcome}
    (hcall : call = .runSchedule scheduleId) (h : Ran P watched now scheduleId outcome x y) :
    Performs P watched may now call x y := by
  cases h with
  | notClaimed => exact .idle x
  | duplicate due found settled =>
    have hid := Table.key_of_get? due.found
    have h : Effect P watched may now call x (x.setSchedule _) [] :=
      .rescheduled (hid.symm ▸ due.found) (.duplicate due.active found settled)
    exact h.performs .refl rfl rfl rfl rfl
  | @skipped _ _ z s o reason due upserted late notes =>
    have hrest := upserted.rest
    have h : Effect P watched may now call x ((z.setOccurrence
        (o.settle .skipped none (some reason) now)).setSchedule (s.advance P false now)) _ :=
      .settled hcall due upserted (.inl ⟨rfl, rfl⟩)
    exact h.performs notes rfl (by rw [hrest]; rfl) rfl rfl
  | @failed _ _ z s o reason due upserted notes =>
    have hrest := upserted.rest
    have h : Effect P watched may now call x ((z.setOccurrence
        (o.settle .failed none (some reason) now)).setSchedule (s.advance P false now)) _ :=
      .settled hcall due upserted (.inr ⟨rfl, rfl⟩)
    exact h.performs notes rfl (by rw [hrest]; rfl) rfl rfl
  | @deferred _ z s _ retryAt due upserted attempts later =>
    have hrest := upserted.rest
    have h : Effect P watched may now call x
        (z.setSchedule { s with retryAfter := some retryAt }) [] :=
      .deferred hcall due upserted attempts
    exact h.performs .refl rfl (by rw [hrest]; rfl) rfl rfl
  | paid due upserted inTime sender recipient capped enabled executes notes =>
    have hrest := upserted.rest
    have henabled := enabled.congr (x := x) (by rw [hrest]) (by rw [hrest]) (by rw [hrest])
    have h : Effect P watched may now call x _ _ :=
      .paid hcall due upserted sender recipient capped henabled executes
    exact h.performs notes rfl (by rw [hrest]; rfl) rfl rfl

lemma OwnFreeze.performs {userId : Uuid} {frozen : Bool} (h : OwnFreeze now userId frozen x y) :
    Performs P watched may now call x y := by
  cases h with
  | same => exact .idle x
  | @set _ a owner found notClosed notes =>
    have h : Effect P watched may now call x
        (x.setAccount (a.withStatus (if frozen then .frozen else .active)))
        [⟨if frozen then .accountFrozen else .accountUnfrozen, "account", a.id, none⟩] :=
      .status found (.inl notClosed) (by cases frozen <;> simp)
    exact h.performs notes rfl rfl rfl rfl

lemma Closed.performs {userId : Uuid} (hcall : call = .closeAccount userId)
    (h : Closed userId x y) : Performs P watched may now call x y := by
  cases h with
  | none => exact .idle x
  | @set a owner found =>
    have h : Effect P watched may now call x (x.setAccount { a with status := .closed }) [] :=
      .status found (.inr ⟨userId, hcall, rfl⟩) (by simp)
    exact h.performs .refl rfl rfl rfl rfl

/-- What a call is specified to commit is one move of the abstract model. -/
theorem CommitSpec.performs {reply : Reply} (h : CommitSpec P watched may now call reply x y) :
    Performs P watched may now call x y := by
  cases call with
  | register input context =>
    obtain ⟨user, account, m, z, h⟩ := h
    obtain ⟨token, rfl⟩ := h.session
    have heffect : Effect P watched may now (.register input context) x
        (m.apply ((x.insertUser user).insertAccount account)) _ :=
      .registered h.userUnused h.accountUnused h.accountRow (h.enabled.congr rfl rfl rfl) h.stripe
        h.executes
    exact heffect.performs h.notes rfl rfl rfl rfl
  | sendMoney user key input raw context =>
    obtain ⟨hwithin, h⟩ := h
    refine h.performs fun r result e e' hdone hcore hevents => ?_
    obtain ⟨m, payee, _, hs⟩ := hdone
    have hamount : m.transfer.amountMinor = input.amountMinor := hs.executes.amountMinor
    have heffect : Effect P watched may now (.sendMoney user key input raw context) x (m.apply x)
        (m.transfer.event .moneyReceived :: if isAnomalous P m.transfer.amountMinor then
          [m.transfer.event .securityAlert] else []) := by
      refine .sent (hs.enabled.congr rfl rfl rfl) hs.executes.type hs.executes.reversalOf
        hs.executes.createdAt (hamount.symm ▸ hwithin) (hamount.symm ▸ hs.capped) hs.paced ?_
        hs.executes.reference
      split <;> simp [Transfer.event]
    exact heffect.performs hs.notes rfl rfl hcore hevents
  | reverseTransfer user reference key raw context =>
    refine h.performs fun r result e e' hdone hcore hevents => ?_
    obtain ⟨original, m, _, hr⟩ := hdone
    have heffect : Effect P watched may now (.reverseTransfer user reference key raw context) x
        (m.apply (x.setTransfer original.reversed))
        [original.event .transferReversed] :=
      .reversed rfl hr.found hr.standing hr.type hr.sender hr.window (hr.enabled.congr rfl rfl rfl)
        ⟨_, _, hr.executes⟩
    exact heffect.performs hr.notes rfl rfl hcore hevents
  | createRequest user key input raw context =>
    obtain ⟨hwithin, h⟩ := h
    refine h.performs fun r result e e' hdone hcore hevents => ?_
    obtain ⟨payer, created, _, hr⟩ := hdone
    obtain ⟨t, -, hrow⟩ := hr.row
    have heffect : Effect P watched may now (.createRequest user key input raw context) x
        (x.insertRequests [created])
        ([created].map fun r => r.event .requestCreated) := by
      refine .requested ?_ (by simp) ?_ ?_ ?_ ?_
      all_goals simp only [List.mem_singleton, forall_eq]
      · exact hr.unused
      all_goals rw [hrow]
      · rfl
      · rfl
      · exact .inl hwithin
      · rintro ⟨⟩
    exact heffect.performs hr.notes rfl rfl hcore hevents
  | acceptRequest user id key raw context =>
    refine h.performs fun r result e e' hdone hcore hevents => ?_
    obtain ⟨request, m, requester, _, hr⟩ := hdone
    have hid := Table.key_of_get? hr.found
    have heffect : Effect P watched may now (.acceptRequest user id key raw context) x
        ((m.apply x).setRequest (request.accept m.transfer.id now)) _ :=
      .accepted ⟨hr.unexpired, key, raw, context, by rw [hr.payer, hid]⟩ (hid.symm ▸ hr.found)
        hr.pending (hr.payer.symm ▸ hr.sender) hr.recipient hr.capped hr.settles
        (hr.enabled.congr rfl rfl rfl) ⟨_, hr.executes⟩
    exact heffect.performs hr.notes rfl rfl hcore hevents
  | declineRequest user request reason context =>
    refine Terminated.performs h fun r hid hactor => ⟨reason, context, ?_⟩
    rw [hid, ← hactor]
    rfl
  | cancelRequest user request context =>
    refine Terminated.performs h fun r hid hactor => ⟨context, ?_⟩
    rw [hid, ← hactor]
    rfl
  | expireRequests batchSize =>
    obtain ⟨rows, -, h⟩ := h
    have heffect : Effect P watched may now (.expireRequests batchSize) x (x.expire now rows) _ :=
      .expired (fun r hr => ⟨h.due r hr, batchSize, rfl⟩) h.found h.pending h.apart
    exact heffect.performs h.notes rfl (by rw [Database.expire_rest]) rfl rfl
  | createSplit user key input raw context =>
    obtain ⟨shares, hshares, h⟩ := h
    refine h.performs fun r result e e' hdone hcore hevents => ?_
    obtain ⟨payers, split, created, hr⟩ := hdone
    obtain ⟨t, -, hasked⟩ := hr.asked
    have heffect : Effect P watched may now (.createSplit user key input raw context) x
        (x.insertRequests created)
        (created.map fun r => r.event .requestCreated) := by
      have hleg : ∀ r ∈ created, ∃ leg ∈ payers.zip (legShares input shares),
          leg.1.userId = r.payerUserId ∧ leg.2 = r.amountMinor := by
        intro r hr
        have hmem := List.mem_map_of_mem (f := fun r => (r.payerUserId, r.amountMinor)) hr
        rw [hasked.legs, List.mem_map] at hmem
        obtain ⟨leg, hleg, heq⟩ := hmem
        exact ⟨leg, hleg, Prod.mk.inj heq⟩
      refine .requested hr.unused hr.apart (fun r hr => ?_) (fun r hr => ?_)
        (fun r hr => .inr ?_) fun q hq _ => ?_
      · rw [hasked.rows r hr]
        rfl
      · rw [hasked.rows r hr]
        rfl
      · obtain ⟨leg, hmem, -, hamount⟩ := hleg r hr
        exact ⟨_, _, _, _, _, shares, rfl, hshares, hamount ▸ (List.of_mem_zip hmem).2⟩
      · obtain ⟨leg, hmem, hpayer, -⟩ := hleg q hq
        exact ⟨leg.1.accountId, hpayer ▸ hr.known leg.1 (List.of_mem_zip hmem).1⟩
    refine heffect.performs hr.notes ?_ ?_ hcore hevents
    · have hrows : (((x.insertKey r).insertSplit split).insertRequests created).moneyRequests =
          (x.insertRequests created).moneyRequests := Database.insertRequests_congr created rfl
      rw [Database.insertRequests_rest, hrows, Database.insertRequests_rest x]
      rfl
    · rw [Database.insertRequests_rest]
      rfl
  | createSchedule user key input raw context =>
    obtain ⟨hwithin, h⟩ := h
    refine h.performs fun r result e e' hdone hcore hevents => ?_
    obtain ⟨payee, created, _, hs⟩ := hdone
    have heffect : Effect P watched may now (.createSchedule user key input raw context) x
        (x.insertSchedule created) [] := by
      refine .scheduled rfl hs.row hs.unused ?_
      rw [hs.row]
      exact hwithin
    exact heffect.performs hs.notes rfl rfl hcore hevents
  | pauseSchedule user id context => exact Transitioned.performs h
  | resumeSchedule user id context => exact Transitioned.performs h
  | cancelSchedule user id context => exact Transitioned.performs h
  | makeScheduleDue id =>
    obtain ⟨s, h⟩ := h
    have hid := Table.key_of_get? h.found
    have heffect : Effect P watched may now (.makeScheduleDue id) x
        (x.setSchedule (s.nudge now)) [] :=
      .rescheduled (hid.symm ▸ h.found) (.nudge h.active)
    rw [h.row]
    exact heffect.performs .refl rfl rfl rfl rfl
  | runSchedule id =>
    obtain ⟨outcome, -, h⟩ := h
    exact h.performs rfl
  | setOwnFreeze user frozen context => exact OwnFreeze.performs h
  | setAccountStatus user status reason label context =>
    obtain ⟨a, h⟩ := h
    have heffect : Effect P watched may now (.setAccountStatus user status reason label context) x
        (x.setAccount (a.withStatus status.status)) [] :=
      .status h.found (.inl h.notClosed) (by simp)
    exact heffect.performs h.notes rfl rfl rfl rfl
  | closeAccount user => exact Closed.performs rfl h

end refinement

/-! ### Commits of a run -/

/-- One commit: a move of the abstract model that undoes nothing. -/
structure Advances (P : Platform) (watched : Token → Prop) (may : ℕ → Database → Token → Prop)
    (now : Timestamp) (call : Call) (x y : Database) : Prop where
  performs : Performs P watched may now call x y
  later : Later x y

section runs

variable {P : Platform} {watched : Token → Prop} {may : ℕ → Database → Token → Prop} {s : State}

lemma Sound.advances (h : Sound P watched may s) {r : Record} (hr : r ∈ s.history) :
    Advances P watched may r.now r.call r.before r.after := by
  obtain ⟨hspec, hlater⟩ := h.commits r hr
  exact ⟨hspec.performs, hlater⟩

/-- What every commit preserves holds at the end of a run. -/
theorem Sound.invariant {I : Database → Prop} (h : Sound P watched may s) (hseed : I seed)
    (hstep : ∀ now call x y, Advances P watched may now call x y → I x → I y) : I s.db :=
  h.linked.invariant hseed fun _ hr => hstep _ _ _ _ (h.advances hr)

/-- It holds before and after each commit, too. -/
theorem Sound.invariant_mem {I : Database → Prop} (h : Sound P watched may s) (hseed : I seed)
    (hstep : ∀ now call x y, Advances P watched may now call x y → I x → I y) {r : Record}
    (hr : r ∈ s.history) : I r.before ∧ I r.after :=
  h.linked.invariant_mem hseed (fun _ hr => hstep _ _ _ _ (h.advances hr)) r hr

end runs

end TakaFlow
