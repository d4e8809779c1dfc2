import TakaFlow.Lib.History
import TakaFlow.Spec.Dispatch

/-!
# Deliveries

Whatever dispatchers run side by side, whichever handlers fail and wherever sessions crash, each
committed event is told once if it is processed and not at all otherwise.
-/

namespace TakaFlow

open Txn

/-! ### The statement -/

/-- The notifications of an event. -/
def OutboxStore.notificationsOf (d : OutboxStore) (eventId : Uuid) : List Notification :=
  d.notifications.rows.filter fun n => n.eventId = eventId

/-- Whom an event is for, and what they are told: its type has a consumer, and its payload has
what the consumer needs. -/
def OutboxRow.IsFor (P : OutboxPlatform) (row : OutboxRow) (userId : Uuid) (input : NotifyInput) :
    Prop :=
  notificationOf row.event.eventType row.event.payload = .ok (some input) ∧
    P.uuidIn input.userId = some userId

/-- A status and the attempts it goes with. -/
def OutboxRow.Regular (row : OutboxRow) : Prop :=
  (row.status = .pending ∧ row.attempts < maxAttempts) ∨ row.status = .processed ∨
    (row.status = .failed ∧ row.attempts = maxAttempts)

/-- The event of the row is told exactly once if it is processed, and else not at all. -/
structure OutboxRow.Told (P : OutboxPlatform) (d : OutboxStore) (row : OutboxRow) : Prop where
  exactlyOnce : ∀ userId input, row.IsFor P userId input → (row.status = .processed ↔
    ∃ n, d.notificationsOf row.id = [n] ∧ n.userId = userId ∧ n.type = input.type ∧
      n.payload = input.payload)
  silent : row.status ≠ .processed → d.notificationsOf row.id = []

/-- What a commit leaves of a row. -/
def OutboxRow.Survives (row : OutboxRow) (d : OutboxStore) : Prop :=
  ∃ row' ∈ d.events, row'.event = row.event ∧ (row.status ≠ .pending → row' = row)

structure DeliveriesHold (P : OutboxPlatform) (s : OutboxState) : Prop where
  regular : ∀ row ∈ s.db.events, row.Regular
  told : ∀ row ∈ s.db.events, row.Told P s.db
  survives : ∀ r ∈ s.history, ∀ row ∈ r.before.events, row.Survives r.after

/-- A claimed event is handled as if there were no other: it is delivered, nobody is interested,
or its handler fails and it alone is charged. -/
def HandledAlone (P : OutboxPlatform) (now : Timestamp) (d d' : OutboxStore) (row : OutboxRow) :
    Prop :=
  ∃ what : Handling, HandledEvent.Fits P now False d (row, what) ∧ what ≠ .duplicate ∧
    d'.events.get? row.id = some (what.close P now row row) ∧
    ∀ n, what.note? = some n → n ∈ d'.notifications

/-- Batches commit, and handle the events they have claimed one independently of the other. -/
structure BatchesIndependent (P : OutboxPlatform) (s : OutboxState) : Prop where
  handled : ∀ r ∈ s.history, ∀ limit, r.call = .dispatch limit → ∃ rows : List OutboxRow,
    rows.length ≤ limit ∧
    (∀ row ∈ rows, row ∈ r.before.events ∧ row.status = .pending ∧ row.nextAttemptAt ≤ r.now) ∧
    (∀ row ∈ rows, HandledAlone P r.now r.before r.after row) ∧
    (∀ id, (∀ row ∈ rows, row.id ≠ id) → r.after.events.get? id = r.before.events.get? id) ∧
    ∃ result, r.reply = .dispatched result ∧ result.claimed = rows.length ∧
      result.processed + result.failed = rows.length
  commits : ∀ x ∈ s.sessions, ∀ limit, x.call = .dispatch limit →
    (∀ error, x.phase ≠ .failed error) ∧ ∀ reply, x.phase ≠ .lost reply

/-! ### The invariant -/

/-- A processed event and its notification, if anyone is told. -/
def OutboxRow.Settled (P : OutboxPlatform) (d : OutboxStore) (row : OutboxRow) : Prop :=
  (notificationOf row.event.eventType row.event.payload = .ok none ∧
    d.notificationsOf row.id = []) ∨
  ∃ userId input n, row.IsFor P userId input ∧ d.notificationsOf row.id = [n] ∧
    n.userId = userId ∧ n.type = input.type ∧ n.payload = input.payload

structure OutboxRow.Holds (P : OutboxPlatform) (d : OutboxStore) (row : OutboxRow) : Prop where
  regular : row.Regular
  silent : row.status ≠ .processed → d.notificationsOf row.id = []
  settled : row.status = .processed → row.Settled P d

structure OutboxInv (P : OutboxPlatform) (d : OutboxStore) : Prop where
  rows : ∀ row ∈ d.events, row.Holds P d
  known : ∀ n ∈ d.notifications, (d.events.get? n.eventId).isSome = true

section

variable {P : OutboxPlatform} {faulty : Prop} {now : Timestamp} {d d' : OutboxStore}
  {row : OutboxRow} {p : HandledEvent} {ps : List HandledEvent}

lemma OutboxRow.Holds.told (h : row.Holds P d) : row.Told P d := by
  refine ⟨fun userId input hfor => ⟨fun hprocessed => ?_, fun hone => ?_⟩, h.silent⟩
  · obtain ⟨hnone, -⟩ | ⟨userId', input', n, hfor', hone, htold⟩ := h.settled hprocessed
    · rw [hfor.1] at hnone
      cases hnone
    · have hinput := hfor.1.symm.trans hfor'.1
      cases hinput
      have huser := hfor.2.symm.trans hfor'.2
      cases huser
      exact ⟨n, hone, htold⟩
  · by_contra hnot
    obtain ⟨n, hone, -⟩ := hone
    rw [h.silent hnot] at hone
    cases hone

/-- What holds of a row depends on its own notifications only. -/
lemma OutboxRow.Holds.congr (hsame : d'.notificationsOf row.id = d.notificationsOf row.id)
    (h : row.Holds P d) : row.Holds P d' := by
  refine ⟨h.regular, ?_, ?_⟩
  · rw [hsame]
    exact h.silent
  · unfold OutboxRow.Settled
    rw [hsame]
    exact h.settled

lemma mem_notificationsOf {n : Notification} {id : Uuid} :
    n ∈ d.notificationsOf id ↔ n ∈ d.notifications ∧ n.eventId = id := by
  unfold OutboxStore.notificationsOf
  rw [List.mem_filter, decide_eq_true_eq]
  rfl

/-- A new event has not been told. -/
lemma OutboxInv.unknown (h : OutboxInv P d) {id : Uuid} (hid : d.events.get? id = none) :
    d.notificationsOf id = [] := by
  rw [List.eq_nil_iff_forall_not_mem]
  intro n hn
  obtain ⟨hmem, hevent⟩ := mem_notificationsOf.mp hn
  have hsome := h.known n hmem
  rw [hevent, hid] at hsome
  cases hsome

lemma OutboxInv.produced (h : OutboxInv P d) (hd : Produced d d') : OutboxInv P d' := by
  have hsame : ∀ id, d'.notificationsOf id = d.notificationsOf id := by
    intro id
    unfold OutboxStore.notificationsOf
    rw [hd.notifications]
  constructor
  · intro row hrow
    obtain hold | ⟨hnone, hpending, hattempts⟩ := hd.added row hrow
    · exact (h.rows row hold).congr (hsame _)
    · refine ⟨.inl ⟨hpending, by rw [hattempts]; decide⟩, fun _ => ?_, fun hprocessed => ?_⟩
      · rw [hsame, h.unknown hnone]
      · rw [hpending] at hprocessed
        cases hprocessed
  · intro n hn
    rw [hd.notifications] at hn
    obtain ⟨row, hrow⟩ := Option.isSome_iff_exists.mp (h.known n hn)
    rw [hd.events _ row hrow]
    rfl

/-! ### Reading a notification -/

lemma notificationsOf_setRead (id eventId : Uuid) :
    (d.setRead id now).notificationsOf eventId = (d.notificationsOf eventId).map fun n =>
      if n.id = id then { n with readAt := some now } else n := by
  unfold OutboxStore.notificationsOf OutboxStore.setRead Table.modify
  simp only
  rw [List.filter_map]
  congr 1
  refine List.filter_congr fun n _ => ?_
  rw [Function.comp_apply]
  split <;> rfl

lemma OutboxRow.Holds.read {id : Uuid} (h : row.Holds P d) : row.Holds P (d.setRead id now) := by
  refine ⟨h.regular, fun hnot => ?_, fun hprocessed => ?_⟩
  · rw [notificationsOf_setRead, h.silent hnot]
    rfl
  · obtain ⟨hnone, hnil⟩ | ⟨userId, input, n, hfor, hone, huser, htype, hpayload⟩ :=
      h.settled hprocessed
    · refine .inl ⟨hnone, ?_⟩
      rw [notificationsOf_setRead, hnil]
      rfl
    · refine .inr ⟨userId, input, if n.id = id then { n with readAt := some now } else n, hfor,
        ?_, ?_, ?_, ?_⟩
      · rw [notificationsOf_setRead, hone]
        rfl
      all_goals split <;> assumption

lemma OutboxInv.read {id : Uuid} (h : OutboxInv P d) : OutboxInv P (d.setRead id now) := by
  constructor
  · intro row hrow
    exact (h.rows row hrow).read
  · intro n hn
    simp only [OutboxStore.setRead, Table.mem_modify] at hn
    obtain ⟨m, hm, rfl⟩ := hn
    have hevent : (if m.id = id then { m with readAt := some now } else m).eventId = m.eventId := by
      split <;> rfl
    rw [hevent]
    exact h.known m hm

/-! ### One event -/

/-- An event in the table after one is handled: that one, or another as it was. -/
lemma mem_effect (hrow : d.events.get? p.1.id = some p.1) {r : OutboxRow}
    (hr : r ∈ (p.effect P now d).events) :
    r = p.2.close P now p.1 p.1 ∨ (r ∈ d.events ∧ r.id ≠ p.1.id) := by
  have hget := Table.get?_of_mem hr
  by_cases hid : r.id = p.1.id
  · rw [hid, HandledEvent.get?_effect, hrow] at hget
    simp only [Option.map_some, if_true, Option.some.injEq] at hget
    exact .inl hget.symm
  · rw [HandledEvent.get?_effect_of_ne hid] at hget
    exact .inr ⟨Table.mem_of_get? hget, hid⟩

lemma notificationsOf_effect_of_none (hnote : p.2.note? = none) (id : Uuid) :
    (p.effect P now d).notificationsOf id = d.notificationsOf id := by
  unfold OutboxStore.notificationsOf
  rw [HandledEvent.notifications_effect, HandledEvent.notify, hnote]

lemma notificationsOf_effect_of_some {n : Notification} (hnote : p.2.note? = some n)
    (hunused : d.notifications.get? n.id = none) (id : Uuid) :
    (p.effect P now d).notificationsOf id =
      d.notificationsOf id ++ if n.eventId = id then [n] else [] := by
  unfold OutboxStore.notificationsOf
  rw [HandledEvent.notifications_effect, HandledEvent.notify, hnote]
  change (d.notifications.insert n).rows.filter _ = _
  rw [Table.rows_insert hunused, List.filter_append, List.filter_singleton]
  by_cases hevent : n.eventId = id
  · simp [hevent]
  · simp [hevent]

/-- It is enough to look at the event itself. -/
lemma OutboxInv.effect_of (h : OutboxInv P d) (hrow : d.events.get? p.1.id = some p.1)
    (hself : (p.2.close P now p.1 p.1).Holds P (p.effect P now d))
    (hothers : ∀ id, id ≠ p.1.id →
      (p.effect P now d).notificationsOf id = d.notificationsOf id) :
    OutboxInv P (p.effect P now d) := by
  constructor
  · intro r hr
    obtain rfl | ⟨hr, hid⟩ := mem_effect hrow hr
    · exact hself
    · exact (h.rows r hr).congr (hothers r.id hid)
  · intro n hn
    rw [HandledEvent.get?_effect, Option.isSome_map]
    by_cases hid : n.eventId = p.1.id
    · rw [hid, hrow]
      rfl
    · have hmem : n ∈ d.notificationsOf n.eventId := by
        rw [← hothers _ hid]
        exact mem_notificationsOf.mpr ⟨hn, rfl⟩
      exact h.known n (mem_notificationsOf.mp hmem).1

lemma OutboxRow.Holds.pending (h : row.Holds P d) (hpending : row.status = .pending) :
    row.attempts < maxAttempts ∧ d.notificationsOf row.id = [] := by
  constructor
  · obtain ⟨-, hlt⟩ | hprocessed | ⟨hfailed, -⟩ := h.regular
    · exact hlt
    · rw [hpending] at hprocessed
      cases hprocessed
    · rw [hpending] at hfailed
      cases hfailed
  · refine h.silent ?_
    rw [hpending]
    intro hne
    cases hne

/-- A charged event is pending again or has failed for good. -/
lemma regular_of_charged {error : Error} (h : row.attempts < maxAttempts) :
    ((Handling.charged error).close P now row row).Regular := by
  unfold Handling.close OutboxRow.Regular
  by_cases hexhausted : maxAttempts ≤ row.attempts + 1
  · refine .inr (.inr ⟨if_pos hexhausted, ?_⟩)
    exact Nat.le_antisymm h hexhausted
  · exact .inl ⟨if_neg hexhausted, Nat.lt_of_not_le hexhausted⟩

lemma not_processed_of_charged {error : Error} :
    ((Handling.charged error).close P now row row).status ≠ .processed := by
  change (if maxAttempts ≤ row.attempts + 1 then OutboxStatus.failed else .pending) ≠ .processed
  split
  · intro h
    cases h
  · intro h
    cases h

/-- The step lemma: an event is handled while it is pending. -/
lemma OutboxInv.effect (h : OutboxInv P d) (hrow : d.events.get? p.1.id = some p.1)
    (hpending : p.1.status = .pending) (hfits : p.Fits P now faulty d) :
    OutboxInv P (p.effect P now d) := by
  obtain ⟨hattempts, hnil⟩ := (h.rows p.1 (Table.mem_of_get? hrow)).pending hpending
  obtain ⟨row, what⟩ := p
  cases what with
  | ignored =>
    have hsame : ∀ id, (HandledEvent.effect P now (row, .ignored) d).notificationsOf id =
        d.notificationsOf id := notificationsOf_effect_of_none rfl
    refine h.effect_of hrow ⟨.inr (.inl rfl), fun hnot => absurd rfl hnot, fun _ => .inl ⟨hfits, ?_⟩⟩
      fun id _ => hsame id
    exact (hsame row.id).trans hnil
  | duplicate =>
    -- A pending event has not been told anyone.
    obtain ⟨n, hn, hevent⟩ := hfits
    have hmem : n ∈ d.notificationsOf row.id := mem_notificationsOf.mpr ⟨hn, hevent⟩
    rw [hnil] at hmem
    exact absurd hmem List.not_mem_nil
  | delivered n =>
    obtain ⟨input, hhandler, huser, hnew, hknown, hunused⟩ := hfits
    have hevent : n.eventId = row.id := by
      rw [hnew]
      rfl
    have hnotes : ∀ id, (HandledEvent.effect P now (row, .delivered n) d).notificationsOf id =
        d.notificationsOf id ++ if n.eventId = id then [n] else [] :=
      notificationsOf_effect_of_some rfl hunused
    refine h.effect_of hrow ⟨.inr (.inl rfl), fun hnot => absurd rfl hnot, fun _ => .inr ?_⟩
      fun id hid => ?_
    · refine ⟨n.userId, input, n, ⟨hhandler, huser⟩, ?_, rfl, ?_, ?_⟩
      · refine (hnotes row.id).trans ?_
        rw [hnil, if_pos hevent]
        rfl
      · rw [hnew]
        rfl
      · rw [hnew]
        rfl
    · rw [hnotes, hevent, if_neg (Ne.symm hid), List.append_nil]
  | charged error =>
    have hsame : ∀ id, (HandledEvent.effect P now (row, .charged error) d).notificationsOf id =
        d.notificationsOf id := notificationsOf_effect_of_none rfl
    refine h.effect_of hrow ⟨regular_of_charged hattempts, fun _ => (hsame row.id).trans hnil,
      fun hprocessed => absurd hprocessed not_processed_of_charged⟩ fun id _ => hsame id

/-! ### A batch -/

/-- A note that is not in use before a batch, nor one of its own, is not in use after it. -/
lemma get?_effects_of_none {k : Uuid} (h : d.notifications.get? k = none)
    (hk : k ∉ (HandledEvent.notes ps).map Notification.id) :
    (HandledEvent.effects P now ps d).notifications.get? k = none := by
  rw [Table.get?_eq_none] at h ⊢
  intro n hn
  obtain hn | hn := HandledEvent.mem_effects hn
  · exact h n hn
  · rintro rfl
    exact hk (List.mem_map_of_mem hn)

/-- What a list of handled events has to satisfy. -/
structure Handleable (P : OutboxPlatform) (faulty : Prop) (now : Timestamp) (d : OutboxStore)
    (ps : List HandledEvent) : Prop where
  nodup : (ps.map fun p => p.1.id).Nodup
  pending : ∀ p ∈ ps, d.events.get? p.1.id = some p.1 ∧ p.1.status = .pending
  fits : ∀ p ∈ ps, p.Fits P now faulty d
  distinct : ((HandledEvent.notes ps).map Notification.id).Nodup

/-- The last event of a batch is handled in the state that the others leave. -/
lemma Handleable.last (h : Handleable P faulty now d (ps ++ [p])) :
    Handleable P faulty now d ps ∧
      (HandledEvent.effects P now ps d).events.get? p.1.id = some p.1 ∧ p.1.status = .pending ∧
      p.Fits P now faulty (HandledEvent.effects P now ps d) := by
  have hmem : p ∈ ps ++ [p] := List.mem_append_right _ List.mem_cons_self
  have hnodup := h.nodup
  rw [List.map_append, List.nodup_append] at hnodup
  have hdistinct := h.distinct
  rw [HandledEvent.notes_concat, List.map_append, List.nodup_append] at hdistinct
  have hfirst : Handleable P faulty now d ps :=
    ⟨hnodup.1, fun q hq => h.pending q (List.mem_append_left _ hq),
      fun q hq => h.fits q (List.mem_append_left _ hq), hdistinct.1⟩
  refine ⟨hfirst, ?_, (h.pending p hmem).2, ?_⟩
  · rw [HandledEvent.get?_effects]
    · exact (h.pending p hmem).1
    · intro q hq
      exact hnodup.2.2 q.1.id (List.mem_map.mpr ⟨q, hq, rfl⟩) p.1.id (by simp)
  · refine (h.fits p hmem).later HandledEvent.later_effects fun n hn hunused => ?_
    refine get?_effects_of_none hunused fun hmem => ?_
    refine hdistinct.2.2 n.id hmem n.id ?_ rfl
    rw [hn]
    exact List.mem_singleton.mpr rfl

lemma OutboxInv.effects (h : OutboxInv P d) (hps : Handleable P faulty now d ps) :
    OutboxInv P (HandledEvent.effects P now ps d) := by
  induction ps using List.reverseRecOn with
  | nil => exact h
  | append_singleton ps p ih =>
    obtain ⟨hfirst, hrow, hpending, hfits⟩ := hps.last
    rw [HandledEvent.effects_concat]
    exact (ih hfirst).effect hrow hpending hfits

/-- What a batch leaves of an event it handles. -/
lemma Handleable.get?_effects (h : Handleable P faulty now d ps) (hp : p ∈ ps) :
    (HandledEvent.effects P now ps d).events.get? p.1.id = some (p.2.close P now p.1 p.1) ∧
      ∀ n, p.2.note? = some n → n ∈ (HandledEvent.effects P now ps d).notifications := by
  induction ps using List.reverseRecOn with
  | nil => exact absurd hp List.not_mem_nil
  | append_singleton ps q ih =>
    obtain ⟨hfirst, hrow, -, hfits⟩ := h.last
    rw [HandledEvent.effects_concat]
    obtain hp | hp := List.mem_append.mp hp
    · obtain ⟨hget, hnote⟩ := ih hfirst hp
      have hne : p.1.id ≠ q.1.id := by
        have hnodup := h.nodup
        rw [List.map_append, List.nodup_append] at hnodup
        exact hnodup.2.2 p.1.id (List.mem_map.mpr ⟨p, hp, rfl⟩) q.1.id (by simp)
      rw [HandledEvent.get?_effect_of_ne hne]
      exact ⟨hget, fun n hn => HandledEvent.mem_notify_of_mem (hnote n hn)⟩
    · cases List.mem_singleton.mp hp
      constructor
      · rw [HandledEvent.get?_effect, hrow]
        simp
      · intro n hn
        have hunused : (HandledEvent.effects P now ps d).notifications.get? n.id = none := by
          obtain ⟨row, what⟩ := p
          cases what with
          | delivered m =>
            cases hn
            obtain ⟨-, -, -, -, -, hunused⟩ := hfits
            exact hunused
          | ignored => cases hn
          | duplicate => cases hn
          | charged error => cases hn
        rw [HandledEvent.notifications_effect, HandledEvent.notify, hn]
        exact (Table.mem_insert hunused).mpr (.inr rfl)

variable {limit : ℕ} {result : outbox.DispatchResult} {rows : List OutboxRow}

lemma BatchOf.handleable (h : BatchOf P faulty now limit result d d' rows ps) :
    Handleable P faulty now d ps := by
  refine ⟨?_, fun p hp => ?_, h.fits, h.distinct⟩
  · have hsub := h.handled.map OutboxRow.id
    rw [List.map_map] at hsub
    exact h.nodup.sublist hsub
  · obtain ⟨hget, hpending, -⟩ := h.due p.1 (h.handled.subset (List.mem_map_of_mem hp))
    exact ⟨hget, hpending⟩

lemma count_total (r : outbox.DispatchResult) :
    (HandledEvent.count ps r).claimed = r.claimed ∧
      (HandledEvent.count ps r).processed + (HandledEvent.count ps r).failed =
        r.processed + r.failed + ps.length := by
  induction ps using List.reverseRecOn with
  | nil => exact ⟨rfl, rfl⟩
  | append_singleton ps p ih =>
    obtain ⟨hclaimed, htotal⟩ := ih
    rw [HandledEvent.count_concat, List.length_append, List.length_singleton]
    cases p.2 with
    | charged error =>
      refine ⟨hclaimed, ?_⟩
      simp only [Handling.count]
      omega
    | ignored =>
      refine ⟨hclaimed, ?_⟩
      simp only [Handling.count]
      omega
    | duplicate =>
      refine ⟨hclaimed, ?_⟩
      simp only [Handling.count]
      omega
    | delivered n =>
      refine ⟨hclaimed, ?_⟩
      simp only [Handling.count]
      omega

/-! ### A commit -/

variable {call : OutboxCall} {reply : OutboxReply} {hooks : List Empty}

lemma OutboxCommit.inv (h : OutboxCommit P faulty call now reply hooks d d')
    (hd : OutboxInv P d) : OutboxInv P d' := by
  cases call with
  | dispatch limit =>
    cases reply with
    | dispatched result =>
      obtain ⟨rows, ps, hbatch⟩ := h
      rw [hbatch.after]
      exact hd.effects hbatch.handleable
    | done => cases h
  | produce users events =>
    cases reply with
    | dispatched result => cases h
    | done => exact hd.produced h
  | markRead id userId =>
    cases reply with
    | dispatched result => cases h
    | done =>
      obtain rfl | rfl := h
      · exact hd
      · exact hd.read

lemma close_event (what : Handling) : (what.close P now row row).event = row.event := by
  cases what <;> rfl

/-- Only pending events change, and only in how they have fared. -/
lemma OutboxCommit.survives (h : OutboxCommit P faulty call now reply hooks d d')
    (hrow : row ∈ d.events) : row.Survives d' := by
  have hget := Table.get?_of_mem hrow
  cases call with
  | dispatch limit =>
    cases reply with
    | dispatched result =>
      obtain ⟨rows, ps, hbatch⟩ := h
      have hhandleable := hbatch.handleable
      rw [hbatch.after]
      by_cases hhandled : ∃ p ∈ ps, p.1.id = row.id
      · obtain ⟨p, hp, hid⟩ := hhandled
        obtain ⟨hbefore, hpending⟩ := hhandleable.pending p hp
        rw [hid, hget] at hbefore
        cases hbefore
        have hafter := (hhandleable.get?_effects hp).1
        exact ⟨_, Table.mem_of_get? hafter, close_event _, fun hnot => absurd hpending hnot⟩
      · have hsame : (HandledEvent.effects P now ps d).events.get? row.id = some row := by
          rw [HandledEvent.get?_effects fun p hp hid => hhandled ⟨p, hp, hid⟩]
          exact hget
        exact ⟨row, Table.mem_of_get? hsame, rfl, fun _ => rfl⟩
    | done => cases h
  | produce users events =>
    cases reply with
    | dispatched result => cases h
    | done => exact ⟨row, Table.mem_of_get? (h.events row.id row hget), rfl, fun _ => rfl⟩
  | markRead id userId =>
    cases reply with
    | dispatched result => cases h
    | done =>
      obtain rfl | rfl := h
      · exact ⟨row, hrow, rfl, fun _ => rfl⟩
      · exact ⟨row, hrow, rfl, fun _ => rfl⟩

lemma OutboxCommit.dispatched (h : OutboxCommit P faulty (.dispatch limit) now reply hooks d d') :
    ∃ result rows ps, reply = .dispatched result ∧
      BatchOf P faulty now limit result d d' rows ps := by
  cases reply with
  | dispatched result =>
    obtain ⟨rows, ps, hbatch⟩ := h
    exact ⟨result, rows, ps, rfl, hbatch⟩
  | done => cases h

/-- In a batch without faults every claimed event is handled. -/
lemma BatchOf.handledAlone (h : BatchOf P faulty now limit result d d' rows ps)
    (hnot : ¬faulty) (hd : OutboxInv P d) (hrow : row ∈ rows) : HandledAlone P now d d' row := by
  have hhandleable := h.handleable
  rw [← (h.complete hnot).1] at hrow
  obtain ⟨⟨row, what⟩, hp, rfl⟩ := List.mem_map.mp hrow
  obtain ⟨hget, hpending⟩ := hhandleable.pending _ hp
  obtain ⟨hafter, hnotes⟩ := hhandleable.get?_effects hp
  have hfits := h.fits _ hp
  refine ⟨what, ?_, ?_, ?_, ?_⟩
  · cases what with
    | charged error => exact .inr (hfits.resolve_left hnot)
    | ignored => exact hfits
    | duplicate => exact hfits
    | delivered n => exact hfits
  · rintro rfl
    obtain ⟨n, hn, hevent⟩ := hfits
    have hmem : n ∈ d.notificationsOf row.id := mem_notificationsOf.mpr ⟨hn, hevent⟩
    rw [((hd.rows row (Table.mem_of_get? hget)).pending hpending).2] at hmem
    exact absurd hmem List.not_mem_nil
  · rw [h.after]
    exact hafter
  · rw [h.after]
    exact hnotes

/-! ### Every run -/

lemma outboxInv_empty : OutboxInv P {} :=
  ⟨fun _ h => absurd h List.not_mem_nil, fun _ h => absurd h List.not_mem_nil⟩

variable {s : OutboxState} {t : ℕ}

lemma outbox_meets
    (h : Reaches (outboxBody P) (fun _ e => e.Admitted faulty) (Sys.start {} t) s) :
    s.Meets outboxDiscipline faulty (OutboxCommit P faulty) (OutboxCall.Fails faulty) {} :=
  h.meets (fun call now d => wpIf_outboxBody call now d) fun _ _ he => he

end

/-! ### A run -/

def outboxSample : OutboxPlatform where
  uuidIn s := if s = "00000000-0000-0000-0000-000000000007" then some 7 else none
  pgMessage e := e.code

/-- A payment to user 7, and one whose amount is no number. -/
def sampleEvents : List outbox.NewEvent :=
  [{ eventType := .moneyReceived, aggregateType := "transfer", aggregateId := 20
     payload := [("recipientUserId", .str "00000000-0000-0000-0000-000000000007"),
       ("amountMinor", .str "taka")] },
   { eventType := .moneyReceived, aggregateType := "transfer", aggregateId := 21
     payload := [("recipientUserId", .str "00000000-0000-0000-0000-000000000007"),
       ("amountMinor", .str "50000"), ("reference", .str "TF21")] }]

/-- Two dispatchers; the first crashes once it has claimed both events. -/
def outboxRun : List OutboxStep :=
  [.begin (.produce [7] sampleEvents), .step 0 {}, .step 0 { uuid := 100 },
    .step 0 { uuid := 101 }, .finish 0, .begin (.dispatch 50), .step 1 {},
    .begin (.dispatch 50), .step 2 {}, .finish 2, .crash 1, .begin (.dispatch 50)] ++
  (List.replicate 8 (.step 3 { uuid := 200 })) ++ [.finish 3]

def outboxAfter (events : List OutboxStep) : OutboxState :=
  (Sys.start {} 1800000000000000).play (outboxBody outboxSample) (fun _ e => !e.isFault) events

end TakaFlow
