import TakaFlow.Outbox

/-!
# What a batch of events commits to

The writes of a batch, and those that each of its savepoints would restore, are the effects of
handled events, one after the other.
-/

namespace TakaFlow

open Txn

/-! ### What the tokens protect -/

def OutboxStore.hasRow (d : OutboxStore) : OutboxTable → Uuid → Bool
  | .events, id => d.events.has id
  | .notifications, id => d.notifications.has id

/-- The two states do not differ in what the token protects. -/
def OutboxAgree : OutboxToken → OutboxStore → OutboxStore → Prop
  | .event id, d, d' => d.events.Keeps d'.events id
  | .fresh table id, d, d' => d.hasRow table id = false → d'.hasRow table id = false
  | _, _, _ => True

/-- All of a notification but when it was read. -/
def Notification.core (n : Notification) : Notification := { n with readAt := none }

/-- A later committed state: users stay, and notifications are at most read. -/
structure OutboxLater (d d' : OutboxStore) : Prop where
  users : ∀ u ∈ d.users, u ∈ d'.users
  notifications : ∀ n ∈ d.notifications, ∃ n' ∈ d'.notifications, n'.core = n.core

namespace OutboxLater

variable {d d' d'' : OutboxStore}

lemma refl (d : OutboxStore) : OutboxLater d d := ⟨fun _ h => h, fun n h => ⟨n, h, rfl⟩⟩

lemma trans (h : OutboxLater d d') (h' : OutboxLater d' d'') : OutboxLater d d'' := by
  constructor
  · intro u hu
    exact h'.users u (h.users u hu)
  · intro n hn
    obtain ⟨n', hn', hcore⟩ := h.notifications n hn
    obtain ⟨n'', hn'', hcore'⟩ := h'.notifications n' hn'
    exact ⟨n'', hn'', hcore'.trans hcore⟩

end OutboxLater

lemma OutboxAgree.refl (l : OutboxToken) (d : OutboxStore) : OutboxAgree l d d := by
  cases l with
  | event id => exact Table.Keeps.refl
  | fresh table id => exact fun h => h
  | notification userId eventId => trivial
  | notificationRow id => trivial
  | user id => trivial

lemma OutboxAgree.trans (l : OutboxToken) (d d' d'' : OutboxStore) (h : OutboxAgree l d d')
    (h' : OutboxAgree l d' d'') : OutboxAgree l d d'' := by
  cases l with
  | event id => exact Table.Keeps.trans h h'
  | fresh table id => exact fun hd => h' (h hd)
  | notification userId eventId => trivial
  | notificationRow id => trivial
  | user id => trivial

/-- The discipline of the outbox; every run follows it. -/
def outboxDiscipline : Discipline OutboxStore OutboxToken where
  lock _ := True
  watched _ := False
  may _ _ _ := True
  agree := OutboxAgree
  mono := OutboxLater
  mayWait _ _ := True
  agree_refl := OutboxAgree.refl
  agree_trans := OutboxAgree.trans
  mono_refl := OutboxLater.refl
  mono_trans _ _ _ := OutboxLater.trans

section writes

variable {d d' : OutboxStore} {held : List OutboxToken}

lemma outboxDiscipline_excl (l : OutboxToken) : outboxDiscipline.excl l := .inl trivial

lemma keeps_of_rely {id : Uuid} (h : outboxDiscipline.rely held d d') (hl : .event id ∈ held) :
    d.events.Keeps d'.events id := h.2 _ hl (outboxDiscipline_excl _)

lemma hasRow_of_rely (table : OutboxTable) {id : Uuid} (h : outboxDiscipline.rely held d d')
    (hl : .fresh table id ∈ held) (hd : d.hasRow table id = false) :
    d'.hasRow table id = false := h.2 _ hl (outboxDiscipline_excl _) hd

lemma later_of_rely (h : outboxDiscipline.rely held d d') : OutboxLater d d' := h.1

/-- An `UPDATE` of an event stays under its lock. -/
lemma framed_modifyEvent {id : Uuid} (f : OutboxRow → OutboxRow) (hf : ∀ r, (f r).id = r.id)
    (hl : .event id ∈ held) : outboxDiscipline.Framed held fun d =>
      { d with events := d.events.modify id f hf } := by
  intro l _ hnot d
  cases l with
  | event id' =>
    have hne : id' ≠ id := by
      rintro rfl
      exact hnot hl
    intro r hr
    have hget : (d.events.modify id f hf).get? id' = d.events.get? id' := by
      rw [Table.get?_modify_of_ne hne]
    exact hget.trans hr
  | fresh table id' =>
    cases table with
    | events =>
      intro hd
      have hhas : (d.events.modify id f hf).has id' = d.events.has id' := by
        rw [Table.has_modify]
      exact hhas.trans hd
    | notifications => exact fun hd => hd
  | notification userId eventId => trivial
  | notificationRow id => trivial
  | user id => trivial

lemma framed_insertNotification {n : Notification} (hl : .fresh .notifications n.id ∈ held) :
    outboxDiscipline.Framed held fun d => d.insertNotification n := by
  intro l _ hnot d
  cases l with
  | event id => exact Table.Keeps.refl
  | fresh table id =>
    cases table with
    | events => exact fun hd => hd
    | notifications =>
      intro hd
      have hne : n.id ≠ id := by
        rintro rfl
        exact hnot hl
      change (d.notifications.insert n).has id = false
      rw [Table.has_insert, decide_eq_false hne, Bool.or_false]
      exact hd
  | notification userId eventId => trivial
  | notificationRow id => trivial
  | user id => trivial

lemma framed_addEvent {r : OutboxRow} (hl : .fresh .events r.id ∈ held) :
    outboxDiscipline.Framed held fun d => d.insertEvent r := by
  intro l _ hnot d
  cases l with
  | event id => exact Table.keeps_insert
  | fresh table id =>
    cases table with
    | notifications => exact fun hd => hd
    | events =>
      intro hd
      have hne : r.id ≠ id := by
        rintro rfl
        exact hnot hl
      change (d.events.insert r).has id = false
      rw [Table.has_insert, decide_eq_false hne, Bool.or_false]
      exact hd
  | notification userId eventId => trivial
  | notificationRow id => trivial
  | user id => trivial

lemma framed_addUser (id : Uuid) :
    outboxDiscipline.Framed held fun d => d.insertUser id := by
  intro l _ _ d
  cases l with
  | event id => exact Table.Keeps.refl
  | fresh table id => cases table <;> exact fun hd => hd
  | notification userId eventId => trivial
  | notificationRow id => trivial
  | user id => trivial

lemma framed_setRead (id : Uuid) (now : Timestamp) :
    outboxDiscipline.Framed held fun d => d.setRead id now := by
  intro l _ _ d
  cases l with
  | event id' => exact Table.Keeps.refl
  | fresh table id' =>
    cases table with
    | events => exact fun hd => hd
    | notifications =>
      intro hd
      change (d.setRead id now).notifications.has id' = false
      unfold OutboxStore.setRead
      rw [Table.has_modify]
      exact hd
  | notification userId eventId => trivial
  | notificationRow id => trivial
  | user id => trivial

lemma later_setRead (id : Uuid) (now : Timestamp) : OutboxLater d (d.setRead id now) := by
  refine ⟨fun _ h => h, fun m h => ?_⟩
  unfold OutboxStore.setRead
  simp only [Table.mem_modify]
  by_cases hm : m.id = id
  · refine ⟨{ m with readAt := some now }, ⟨m, h, ?_⟩, rfl⟩
    rw [if_pos hm]
  · refine ⟨m, ⟨m, h, ?_⟩, rfl⟩
    rw [if_neg hm]

end writes

/-! ### Handled events -/

/-- What comes of a claimed event: nobody is told, a notification is inserted, it was there
already, or an attempt is charged. -/
inductive Handling where
  | ignored
  | duplicate
  | delivered (note : Notification)
  | charged (error : Error)

namespace Handling

/-- The notification it inserts. -/
def note? : Handling → Option Notification
  | .delivered note => some note
  | _ => none

/-- The last statement of the event. -/
def close (P : OutboxPlatform) (now : Timestamp) (row : OutboxRow) :
    Handling → OutboxRow → OutboxRow
  | .charged error => fun r =>
    { r with
      status := if maxAttempts ≤ row.attempts + 1 then .failed else .pending
      attempts := row.attempts + 1
      lastError := some (.ofList (outbox.sliceUnits 500 (outbox.message P error).toList))
      nextAttemptAt := now + outbox.backoffSeconds (row.attempts + 1) * microsPerSecond }
  | _ => fun r =>
    { r with status := .processed, processedAt := some now, attempts := r.attempts + 1 }

lemma id_close {P : OutboxPlatform} {now : Timestamp} {row : OutboxRow} (s : Handling)
    (r : OutboxRow) : (s.close P now row r).id = r.id := by
  cases s <;> rfl

def count : Handling → outbox.DispatchResult → outbox.DispatchResult
  | .ignored, r => { r with processed := r.processed + 1 }
  | .duplicate, r => { r with processed := r.processed + 1, notifications := r.notifications + 1 }
  | .delivered _, r =>
    { r with processed := r.processed + 1, notifications := r.notifications + 1 }
  | .charged _, r => { r with failed := r.failed + 1 }

end Handling

/-- A claimed event and what comes of it. -/
abbrev HandledEvent := OutboxRow × Handling

namespace HandledEvent

variable (P : OutboxPlatform) (now : Timestamp)

def notify (p : HandledEvent) (d : OutboxStore) : OutboxStore :=
  match p.2.note? with
  | none => d
  | some n => d.insertNotification n

def effect (p : HandledEvent) (d : OutboxStore) : OutboxStore :=
  { p.notify d with
    events := (p.notify d).events.modify p.1.id (p.2.close P now p.1) p.2.id_close }

/-- The writes of a batch, in order. -/
def effects : List HandledEvent → OutboxStore → OutboxStore
  | [], d => d
  | p :: ps, d => effects ps (p.effect P now d)

def notes (ps : List HandledEvent) : List Notification := ps.filterMap fun p => p.2.note?

def count (ps : List HandledEvent) (r : outbox.DispatchResult) : outbox.DispatchResult :=
  ps.foldl (fun r p => p.2.count r) r

/-- What a handler can fail with. -/
def HandlerError (e : OutboxEvent) (error : Error) : Prop :=
  notificationOf e.eventType e.payload = .error error ∨
    ∃ input pgError, notificationOf e.eventType e.payload = .ok (some input) ∧
      error = .driver pgError

/-- This can come of the event. -/
def Fits (faulty : Prop) (d : OutboxStore) (p : HandledEvent) : Prop :=
  match p.2 with
  | .ignored => notificationOf p.1.event.eventType p.1.event.payload = .ok none
  | .duplicate => ∃ n ∈ d.notifications, n.eventId = p.1.id
  | .delivered n => ∃ input,
      notificationOf p.1.event.eventType p.1.event.payload = .ok (some input) ∧
      P.uuidIn input.userId = some n.userId ∧
      n = outbox.newNotification n.id n.userId p.1.id input now ∧ n.userId ∈ d.users ∧
      d.notifications.get? n.id = none
  | .charged error => faulty ∨ HandlerError p.1.event error

/-! ### The effects -/

variable {P now} {p : HandledEvent} {ps qs : List HandledEvent} {d d' : OutboxStore}

@[simp] lemma effects_nil : effects P now [] d = d := rfl

@[simp] lemma effects_cons : effects P now (p :: ps) d = effects P now ps (p.effect P now d) := rfl

lemma effects_concat : effects P now (ps ++ [p]) d = p.effect P now (effects P now ps d) := by
  induction ps generalizing d with
  | nil => rfl
  | cons q ps ih => exact ih

@[simp] lemma notes_concat : notes (ps ++ [p]) = notes ps ++ p.2.note?.toList := by
  unfold notes
  rw [List.filterMap_append]
  cases h : p.2.note? with
  | none => simp [h]
  | some n => simp [h]

@[simp] lemma count_concat (r : outbox.DispatchResult) :
    count (ps ++ [p]) r = p.2.count (count ps r) := by
  simp [count]

@[simp] lemma events_notify : (p.notify d).events = d.events := by
  unfold notify
  cases p.2.note? <;> rfl

@[simp] lemma users_effect : (p.effect P now d).users = d.users := by
  unfold effect notify
  cases p.2.note? <;> rfl

lemma notifications_effect : (p.effect P now d).notifications = (p.notify d).notifications := rfl

lemma get?_effect (id : Uuid) : (p.effect P now d).events.get? id =
    (d.events.get? id).map fun r => if r.id = p.1.id then p.2.close P now p.1 r else r := by
  unfold effect
  rw [Table.get?_modify, events_notify]

lemma get?_effect_of_ne {id : Uuid} (h : id ≠ p.1.id) :
    (p.effect P now d).events.get? id = d.events.get? id := by
  unfold effect
  rw [Table.get?_modify_of_ne h, events_notify]

/-- Events that are not handled stay as they are. -/
lemma get?_effects {id : Uuid} (h : ∀ p ∈ ps, p.1.id ≠ id) :
    (effects P now ps d).events.get? id = d.events.get? id := by
  induction ps generalizing d with
  | nil => rfl
  | cons p ps ih =>
    rw [effects_cons, ih fun q hq => h q (List.mem_cons_of_mem _ hq)]
    exact get?_effect_of_ne (Ne.symm (h p List.mem_cons_self))

@[simp] lemma users_effects : (effects P now ps d).users = d.users := by
  induction ps generalizing d with
  | nil => rfl
  | cons p ps ih => rw [effects_cons, ih, users_effect]

lemma mem_notify {n : Notification} (h : n ∈ (p.notify d).notifications) :
    n ∈ d.notifications ∨ p.2.note? = some n := by
  unfold notify at h
  cases hnote : p.2.note? with
  | none =>
    rw [hnote] at h
    exact .inl h
  | some m =>
    rw [hnote] at h
    obtain h | rfl := Table.mem_insert_or h
    · exact .inl h
    · exact .inr rfl

/-- A notification that a batch leaves was there or is one of its own. -/
lemma mem_effects {n : Notification} (h : n ∈ (effects P now ps d).notifications) :
    n ∈ d.notifications ∨ n ∈ notes ps := by
  induction ps generalizing d with
  | nil => exact .inl h
  | cons p ps ih =>
    obtain h | h := ih h
    · obtain h | h := mem_notify h
      · exact .inl h
      · exact .inr (List.mem_filterMap.mpr ⟨p, List.mem_cons_self, h⟩)
    · obtain ⟨q, hq, hn⟩ := List.mem_filterMap.mp h
      exact .inr (List.mem_filterMap.mpr ⟨q, List.mem_cons_of_mem _ hq, hn⟩)

lemma mem_notify_of_mem {n : Notification} (h : n ∈ d.notifications) :
    n ∈ (p.notify d).notifications := by
  unfold notify
  cases p.2.note? with
  | none => exact h
  | some m => exact Table.mem_insert_of_mem h

lemma mem_effects_of_mem {n : Notification} (h : n ∈ d.notifications) :
    n ∈ (effects P now ps d).notifications := by
  induction ps generalizing d with
  | nil => exact h
  | cons p ps ih => exact ih (mem_notify_of_mem h)

lemma has_notify {k : Uuid} (h : (p.notify d).notifications.has k = false) :
    d.notifications.has k = false ∧ ∀ n, p.2.note? = some n → n.id ≠ k := by
  unfold notify at h
  cases hnote : p.2.note? with
  | none =>
    rw [hnote] at h
    refine ⟨h, fun n hn => ?_⟩
    cases hn
  | some m =>
    rw [hnote] at h
    change (d.notifications.insert m).has k = false at h
    rw [Table.has_insert, Bool.or_eq_false_iff, decide_eq_false_iff_not] at h
    refine ⟨h.1, fun n hn => ?_⟩
    cases hn
    exact h.2

/-- An identifier not in use after a batch is none of its own. -/
lemma has_effects {k : Uuid} (h : (effects P now ps d).notifications.has k = false) :
    d.notifications.has k = false ∧ k ∉ (notes ps).map Notification.id := by
  induction ps generalizing d with
  | nil => exact ⟨h, List.not_mem_nil⟩
  | cons p ps ih =>
    obtain ⟨hrest, hnotes⟩ := ih h
    obtain ⟨hd, hp⟩ := has_notify hrest
    refine ⟨hd, fun hk => ?_⟩
    obtain ⟨n, hn, hid⟩ := List.mem_map.mp hk
    obtain ⟨q, hq, hnote⟩ := List.mem_filterMap.mp hn
    obtain rfl | hq := List.mem_cons.mp hq
    · exact hp n hnote hid
    · exact hnotes (List.mem_map.mpr ⟨n, List.mem_filterMap.mpr ⟨q, hq, hnote⟩, hid⟩)

lemma later_effects : OutboxLater d (effects P now ps d) := by
  constructor
  · intro u hu
    rw [users_effects]
    exact hu
  · intro n hn
    exact ⟨n, mem_effects_of_mem hn, rfl⟩

/-- What comes of an event is decided by what no one else changes. -/
lemma Fits.later {faulty : Prop} (hlater : OutboxLater d d')
    (hfresh : ∀ n, p.2.note? = some n → d.notifications.get? n.id = none →
      d'.notifications.get? n.id = none)
    (h : p.Fits P now faulty d) : p.Fits P now faulty d' := by
  obtain ⟨row, what⟩ := p
  cases what with
  | ignored => exact h
  | charged error => exact h
  | duplicate =>
    obtain ⟨n, hn, hevent⟩ := h
    obtain ⟨n', hn', hcore⟩ := hlater.notifications n hn
    have heventId : n'.core.eventId = n.core.eventId := by rw [hcore]
    exact ⟨n', hn', heventId.trans hevent⟩
  | delivered n =>
    obtain ⟨input, hhandler, huser, hnew, hknown, hunused⟩ := h
    exact ⟨input, hhandler, huser, hnew, hlater.users _ hknown, hfresh n rfl hunused⟩

lemma Fits.eventId {faulty : Prop} {n : Notification} (h : p.Fits P now faulty d)
    (hn : p.2.note? = some n) : n.eventId = p.1.id := by
  obtain ⟨row, what⟩ := p
  cases what with
  | delivered m =>
    cases hn
    obtain ⟨input, -, -, hnew, -⟩ := h
    rw [hnew]
    rfl
  | ignored => cases hn
  | duplicate => cases hn
  | charged error => cases hn

end HandledEvent

/-! ### The invariant of the loop -/

section batch

variable (P : OutboxPlatform) (faulty : Prop) (now : Timestamp) (rows done : List OutboxRow)

/-- The writes and tokens of a session, or those it saved: the effects of events it has handled. -/
structure Undo (ps : List HandledEvent) (sv : (OutboxStore → OutboxStore) × List OutboxToken)
    (d : OutboxStore) : Prop where
  write : sv.1 = HandledEvent.effects P now ps
  claims : ∀ row ∈ rows, .event row.id ∈ sv.2
  fresh : ∀ n ∈ HandledEvent.notes ps, .fresh .notifications n.id ∈ sv.2
  handled : (ps.map Prod.fst).Sublist done
  fits : ∀ p ∈ ps, p.Fits P now faulty d
  distinct : ((HandledEvent.notes ps).map Notification.id).Nodup

/-- Without faults no event has been left out, and all are counted. -/
def Complete (result : outbox.DispatchResult) (ps : List HandledEvent) : Prop :=
  ¬faulty → ps.map Prod.fst = done ∧ result = HandledEvent.count ps { claimed := rows.length }

def Exact (result : outbox.DispatchResult) (sv : (OutboxStore → OutboxStore) × List OutboxToken)
    (d : OutboxStore) : Prop :=
  ∃ ps, Undo P faulty now rows done ps sv d ∧ Complete faulty rows done result ps

/-- What holds at any point of a batch. -/
structure MidBatch (c : Ctx OutboxStore OutboxToken Empty) (d : OutboxStore) : Prop where
  sound : c.Sound outboxDiscipline
  began : c.now = now
  holds : ∀ row ∈ rows, .event row.id ∈ c.tokens
  claimed : ∀ row ∈ rows, d.events.get? row.id = some row
  saves : ∀ sv ∈ c.saves, ∃ ps, Undo P faulty now rows done ps sv d

/-- What holds between two events. -/
structure Between (result : outbox.DispatchResult) (c : Ctx OutboxStore OutboxToken Empty)
    (d : OutboxStore) : Prop extends MidBatch P faulty now rows done c d where
  running : c.aborted = false
  exact : Exact P faulty now rows done result (c.write, c.tokens) d

/-- The latest savepoint is that of the event being handled. -/
def Recoverable (result : outbox.DispatchResult) (c : Ctx OutboxStore OutboxToken Empty)
    (d : OutboxStore) : Prop :=
  ∃ sv rest, c.saves = sv :: rest ∧ Exact P faulty now rows done result sv d

/-- What holds once the handler has returned. -/
structure Noticed (row : OutboxRow) (result : outbox.DispatchResult) (delivered : ℕ)
    (c : Ctx OutboxStore OutboxToken Empty) (d : OutboxStore) : Prop
    extends MidBatch P faulty now rows done c d where
  running : c.aborted = false
  recoverable : Recoverable P faulty now rows done result c d
  noticed : ∃ ps w what, c.write = HandledEvent.notify (row, what) ∘ w ∧
    Undo P faulty now rows done ps (w, c.tokens) d ∧ Complete faulty rows done result ps ∧
    HandledEvent.Fits P now faulty d (row, what) ∧
    (∀ n, what.note? = some n → .fresh .notifications n.id ∈ c.tokens ∧
      n.id ∉ (HandledEvent.notes ps).map Notification.id) ∧
    (what.close P now row = fun r =>
      { r with status := .processed, processedAt := some now, attempts := r.attempts + 1 }) ∧
    what.count result = { result with
      processed := result.processed + 1
      notifications := result.notifications + delivered }

variable {P faulty now rows done} {ps : List HandledEvent} {row : OutboxRow}
  {sv : (OutboxStore → OutboxStore) × List OutboxToken} {c : Ctx OutboxStore OutboxToken Empty}
  {d d' : OutboxStore} {result : outbox.DispatchResult}

namespace Undo

lemma of_rely (hr : outboxDiscipline.rely sv.2 d d') (h : Undo P faulty now rows done ps sv d) :
    Undo P faulty now rows done ps sv d' := by
  refine ⟨h.write, h.claims, h.fresh, h.handled, fun p hp => ?_, h.distinct⟩
  refine (h.fits p hp).later (later_of_rely hr) fun n hn hunused => ?_
  have hmem : n ∈ HandledEvent.notes ps := List.mem_filterMap.mpr ⟨p, hp, hn⟩
  rw [← Table.has_eq_false] at hunused ⊢
  exact hasRow_of_rely .notifications hr (h.fresh n hmem) hunused

lemma next (h : Undo P faulty now rows done ps sv d) :
    Undo P faulty now rows (done ++ [row]) ps sv d :=
  { h with handled := h.handled.trans (List.sublist_append_left _ _) }

/-- One more event is handled, in one statement or two. -/
lemma add {what : Handling} (acq : List OutboxToken) (h : Undo P faulty now rows done ps sv d)
    (hfits : HandledEvent.Fits P now faulty d (row, what))
    (hnote : ∀ n, what.note? = some n → .fresh .notifications n.id ∈ sv.2 ∧
      n.id ∉ (HandledEvent.notes ps).map Notification.id) :
    Undo P faulty now rows (done ++ [row]) (ps ++ [(row, what)])
      (HandledEvent.effect P now (row, what) ∘ sv.1, acq ++ sv.2) d where
  write := by
    funext d
    rw [HandledEvent.effects_concat, ← h.write]
    rfl
  claims r hr := List.mem_append_right _ (h.claims r hr)
  fresh n hn := by
    rw [HandledEvent.notes_concat] at hn
    obtain hn | hn := List.mem_append.mp hn
    · exact List.mem_append_right _ (h.fresh n hn)
    · exact List.mem_append_right _ (hnote n (Option.mem_toList.mp hn)).1
  handled := by
    rw [List.map_append]
    exact h.handled.append (List.Sublist.refl _)
  fits p hp := by
    obtain hp | hp := List.mem_append.mp hp
    · exact h.fits p hp
    · rw [List.mem_singleton.mp hp]
      exact hfits
  distinct := by
    rw [HandledEvent.notes_concat, List.map_append]
    cases hwhat : what.note? with
    | none => simpa using h.distinct
    | some n =>
      refine h.distinct.append (by simp) ?_
      simpa using (hnote n hwhat).2

/-- An event not handled yet is still as it was claimed. -/
lemma get?_write (h : Undo P faulty now rows done ps sv d) (hnew : ∀ r ∈ done, r.id ≠ row.id) :
    (sv.1 d').events.get? row.id = d'.events.get? row.id := by
  rw [h.write]
  refine HandledEvent.get?_effects fun p hp => ?_
  exact hnew p.1 (h.handled.subset (List.mem_map_of_mem hp))

end Undo

lemma Exact.of_rely (hr : outboxDiscipline.rely sv.2 d d')
    (h : Exact P faulty now rows done result sv d) :
    Exact P faulty now rows done result sv d' := by
  obtain ⟨ps, hundo, hcomplete⟩ := h
  exact ⟨ps, hundo.of_rely hr, hcomplete⟩

/-- A context's savepoints hold no more than the context. -/
lemma rely_of_saved (hs : c.Sound outboxDiscipline) (hr : outboxDiscipline.rely c.tokens d d')
    (hsv : sv ∈ c.saves) : outboxDiscipline.rely sv.2 d d' := by
  have hnested := (List.pairwise_cons.mp hs.nested).1 sv hsv
  exact Discipline.rely_anti hnested hr

lemma MidBatch.of_rely (hr : outboxDiscipline.rely c.tokens d d')
    (h : MidBatch P faulty now rows done c d) : MidBatch P faulty now rows done c d' := by
  refine ⟨h.sound, h.began, h.holds, fun row hrow => ?_, fun sv hsv => ?_⟩
  · exact keeps_of_rely hr (h.holds row hrow) row (h.claimed row hrow)
  · obtain ⟨ps, hundo⟩ := h.saves sv hsv
    exact ⟨ps, hundo.of_rely (rely_of_saved h.sound hr hsv)⟩

lemma MidBatch.next (h : MidBatch P faulty now rows done c d) :
    MidBatch P faulty now rows (done ++ [row]) c d := by
  refine { h with saves := fun sv hsv => ?_ }
  obtain ⟨ps, hundo⟩ := h.saves sv hsv
  exact ⟨ps, hundo.next⟩

lemma Between.of_rely (hr : outboxDiscipline.rely c.tokens d d')
    (h : Between P faulty now rows done result c d) : Between P faulty now rows done result c d' :=
  ⟨h.toMidBatch.of_rely hr, h.running, h.exact.of_rely hr⟩

lemma Recoverable.of_rely (hs : c.Sound outboxDiscipline)
    (hr : outboxDiscipline.rely c.tokens d d') (h : Recoverable P faulty now rows done result c d) :
    Recoverable P faulty now rows done result c d' := by
  obtain ⟨sv, rest, hsaves, hexact⟩ := h
  refine ⟨sv, rest, hsaves, hexact.of_rely (rely_of_saved hs hr ?_)⟩
  rw [hsaves]
  exact List.mem_cons_self

lemma Noticed.of_rely {delivered : ℕ} (hr : outboxDiscipline.rely c.tokens d d')
    (h : Noticed P faulty now rows done row result delivered c d) :
    Noticed P faulty now rows done row result delivered c d' := by
  refine ⟨h.toMidBatch.of_rely hr, h.running, h.recoverable.of_rely h.sound hr, ?_⟩
  obtain ⟨ps, w, what, hw, hundo, hcomplete, hfits, hnote, hclose, hcount⟩ := h.noticed
  refine ⟨ps, w, what, hw, hundo.of_rely hr, hcomplete, ?_, hnote, hclose, hcount⟩
  refine hfits.later (later_of_rely hr) fun n hn hunused => ?_
  rw [← Table.has_eq_false] at hunused ⊢
  exact hasRow_of_rely .notifications hr (hnote n hn).1 hunused

/-! ### The statements of one event -/

/-- The `catch`: whatever went wrong is undone and an attempt is charged. -/
lemma wpIf_charge {error : Error} (hrow : row ∈ rows) (hnew : ∀ r ∈ done, r.id ≠ row.id)
    (hcause : faulty ∨ HandledEvent.HandlerError row.event error)
    (hrecover : faulty ∨ Recoverable P faulty now rows done result c d)
    (h : MidBatch P faulty now rows done c d) :
    wpIf outboxDiscipline faulty (outbox.charge P row result error)
      (Between P faulty now rows (done ++ [row])) (fun _ _ _ => faulty) c d := by
  simp only [outbox.charge, outbox.control, outbox.query, Program.bind_eq, wpIf_bind]
  rw [wpIf_control]
  intro d₁ hr₁
  replace h := h.of_rely hr₁
  constructor
  · rintro (hfaulty | hnone) e
    · exact hfaulty
    · obtain hfaulty | ⟨sv, rest, hsaves, -⟩ := hrecover
      · exact hfaulty
      · rw [Ctx.control, hsaves] at hnone
        cases hnone
  intro c' hc'
  obtain ⟨sv, hsv, rfl⟩ := Option.map_eq_some_iff.mp hc'
  obtain ⟨rest, hrest⟩ := List.head?_eq_some_iff.mp hsv
  obtain ⟨hsound, -⟩ := h.sound.restore hrest
  -- What the rollback brings back holds exactly the events before this one.
  have hexact : Exact P faulty now rows done result sv d₁ := by
    obtain hfaulty | hrecover := hrecover
    · obtain ⟨ps, hundo⟩ := h.saves sv (by rw [hrest]; exact List.mem_cons_self)
      exact ⟨ps, hundo, fun hnot => absurd hfaulty hnot⟩
    · obtain ⟨sv', rest', hsaves, hexact⟩ := hrecover
      rw [hrest] at hsaves
      cases hsaves
      refine hexact.of_rely (rely_of_saved h.sound hr₁ ?_)
      rw [hrest]
      exact List.mem_cons_self
  rw [wpIf_exec]
  intro d₂ hr₂
  replace hexact := hexact.of_rely hr₂
  have hbatch : MidBatch P faulty now rows done (c.restore sv) d₂ := by
    obtain ⟨ps, hundo, -⟩ := hexact
    have h₁ : MidBatch P faulty now rows done (c.restore sv) d₁ :=
      ⟨hsound, h.began, hundo.claims, h.claimed, h.saves⟩
    exact h₁.of_rely hr₂
  constructor
  · rintro (hfaulty | haborted) e
    · exact hfaulty
    · cases haborted
  intro _ x taken hown
  obtain ⟨ps, hundo, hcomplete⟩ := hexact
  have hfind : ((c.restore sv).write d₂).events.get? row.id = some row :=
    (hundo.get?_write hnew).trans (hbatch.claimed row hrow)
  have hfree : taken (.event row.id) = false :=
    hown _ (hbatch.holds row hrow) (outboxDiscipline_excl _)
  simp only [outbox.updateFailed, Stmt.update, hfind, hfree]
  have hframed : outboxDiscipline.Framed ([.event row.id] ++ (c.restore sv).tokens)
      (fun d => d.setFailed row.id (if maxAttempts ≤ row.attempts + 1 then .failed else .pending)
        (row.attempts + 1) (.ofList (outbox.sliceUnits 500 (outbox.message P error).toList))
        ((c.restore sv).now + outbox.backoffSeconds (row.attempts + 1) * microsPerSecond)) :=
    framed_modifyEvent _ _ List.mem_cons_self
  refine ⟨fun l hl _ => ?_, hframed, ?_⟩
  · rw [List.mem_singleton.mp hl]
    exact hfree
  have hfits : HandledEvent.Fits P now faulty d₂ (row, .charged error) := hcause
  have hadd := hundo.add [.event row.id] hfits fun n hn => by cases hn
  have hbegan : c.now = now := h.began
  refine ⟨⟨hbatch.sound.done hframed, hbegan, ?_, hbatch.claimed,
    hbatch.next.saves⟩, rfl, ps ++ [(row, .charged error)], ?_, ?_⟩
  · exact fun r hr => List.mem_cons_of_mem _ (hbatch.holds r hr)
  · rw [← hbegan] at hadd ⊢
    exact hadd
  · intro hnot
    obtain ⟨hdone, hcount⟩ := hcomplete hnot
    rw [List.map_append, hdone, HandledEvent.count_concat, ← hcount]
    exact ⟨rfl, rfl⟩

/-- Where the handler fails, its event can be charged. -/
def Broken (row : OutboxRow) (result : outbox.DispatchResult) (P : OutboxPlatform) (faulty : Prop)
    (now : Timestamp) (rows done : List OutboxRow) (error : Error)
    (c : Ctx OutboxStore OutboxToken Empty) (d : OutboxStore) : Prop :=
  MidBatch P faulty now rows done c d ∧
    (faulty ∨ HandledEvent.HandlerError row.event error) ∧
    (faulty ∨ Recoverable P faulty now rows done result c d)

/-- An event that leads to no row. -/
lemma Between.noticed (what : Handling) {delivered : ℕ}
    (h : Between P faulty now rows done result c d)
    (hrecover : Recoverable P faulty now rows done result c d) (hnote : what.note? = none)
    (hfits : HandledEvent.Fits P now faulty d (row, what))
    (hclose : what.close P now row = fun r =>
      { r with status := .processed, processedAt := some now, attempts := r.attempts + 1 })
    (hcount : what.count result = { result with
      processed := result.processed + 1
      notifications := result.notifications + delivered }) :
    Noticed P faulty now rows done row result delivered c d := by
  refine ⟨h.toMidBatch, h.running, hrecover, ?_⟩
  obtain ⟨ps, hundo, hcomplete⟩ := h.exact
  refine ⟨ps, c.write, what, ?_, hundo, hcomplete, hfits, fun n hn => ?_, hclose, hcount⟩
  · funext d
    simp [HandledEvent.notify, hnote]
  · rw [hnote] at hn
    cases hn

/-- The row of an event that is delivered. -/
lemma Between.inserted {id userId : Uuid} {input : NotifyInput} {l : OutboxToken}
    (h : Between P faulty now rows done result c d)
    (hrecover : Recoverable P faulty now rows done result c d)
    (hhandler : notificationOf row.event.eventType row.event.payload = .ok (some input))
    (huser : P.uuidIn input.userId = some userId) (hknown : userId ∈ (c.write d).users)
    (hunused : (c.write d).notifications.has id = false) :
    outboxDiscipline.Framed ([l, .fresh .notifications id] ++ c.tokens)
        (fun d => d.insertNotification (outbox.newNotification id userId row.id input c.now)) ∧
      Noticed P faulty now rows done row result 1
        (c.done
          (fun d => d.insertNotification (outbox.newNotification id userId row.id input c.now))
          [l, .fresh .notifications id]) d := by
  obtain ⟨ps, hundo, hcomplete⟩ := h.exact
  have hwrite : c.write d = HandledEvent.effects P now ps d := by rw [← hundo.write]
  have hbegan : c.now = now := h.began
  rw [hbegan]
  rw [hwrite] at hknown hunused
  rw [HandledEvent.users_effects] at hknown
  obtain ⟨hd, hnotes⟩ := HandledEvent.has_effects hunused
  have hframed : outboxDiscipline.Framed ([l, .fresh .notifications id] ++ c.tokens)
      (fun d => d.insertNotification (outbox.newNotification id userId row.id input now)) :=
    framed_insertNotification (List.mem_cons_of_mem _ List.mem_cons_self)
  have hsub : c.tokens ⊆ [l, .fresh .notifications id] ++ c.tokens := List.subset_append_right _ _
  refine ⟨hframed, ⟨h.sound.done hframed, hbegan, fun r hr => hsub (h.holds r hr), h.claimed,
    h.saves⟩, h.running, hrecover, ps, c.write,
    .delivered (outbox.newNotification id userId row.id input now), rfl, ?_, hcomplete, ?_, ?_,
    rfl, rfl⟩
  · exact ⟨hundo.write, fun r hr => hsub (hundo.claims r hr), fun n hn => hsub (hundo.fresh n hn),
      hundo.handled, hundo.fits, hundo.distinct⟩
  · refine ⟨input, hhandler, huser, rfl, hknown, ?_⟩
    rwa [← Table.has_eq_false]
  · intro n hn
    cases hn
    exact ⟨List.mem_cons_of_mem _ List.mem_cons_self, hnotes⟩

lemma wpIf_handleEvent (hnew : ∀ r ∈ done, r.id ≠ row.id)
    (h : Between P faulty now rows done result c d)
    (hrecover : Recoverable P faulty now rows done result c d) :
    wpIf outboxDiscipline faulty (outbox.handleEvent P row.event)
      (Noticed P faulty now rows done row result) (Broken row result P faulty now rows done)
      c d := by
  unfold outbox.handleEvent
  cases hhandler : notificationOf row.event.eventType row.event.payload with
  | error error => exact ⟨h.toMidBatch, .inr (.inl hhandler), .inr hrecover⟩
  | ok notification =>
    cases notification with
    | none => exact h.noticed .ignored hrecover rfl hhandler rfl rfl
    | some input =>
      simp only [outbox.query, Program.bind_eq, wpIf_bind]
      rw [wpIf_exec]
      intro d₁ hr₁
      replace hrecover := hrecover.of_rely h.sound hr₁
      replace h := h.of_rely hr₁
      have hbatch := h.toMidBatch
      have hfailed : ∀ e, (faulty ∨ ∃ pgError, e = .pg pgError) →
          Broken row result P faulty now rows done (Error.ofDriver e) (c.fail e) d₁ := by
        intro e he
        refine ⟨⟨hbatch.sound.fail e, hbatch.began, hbatch.holds, hbatch.claimed,
          hbatch.saves⟩, ?_, .inr hrecover⟩
        refine he.imp_right ?_
        rintro ⟨pgError, rfl⟩
        exact .inr ⟨input, pgError, hhandler, rfl⟩
      constructor
      · rintro (hfaulty | haborted) e
        · exact hfailed e (.inl hfaulty)
        · rw [h.running] at haborted
          cases haborted
      intro _ x taken hown
      unfold outbox.insertNotification
      cases huser : P.uuidIn input.userId with
      | none => exact hfailed _ (.inr ⟨_, rfl⟩)
      | some userId =>
        obtain ⟨ps, hundo, hcomplete⟩ := h.exact
        have hwrite : c.write d₁ = HandledEvent.effects P now ps d₁ := by rw [← hundo.write]
        simp only
        split_ifs with hnotified htaken hunused hknown
        · -- The row is there: another event's has another event's identifier.
          refine ⟨fun l hl => absurd hl List.not_mem_nil,
            Discipline.framed_id.anti (List.nil_subset _), ?_⟩
          refine h.noticed .duplicate hrecover rfl ?_ rfl rfl
          obtain ⟨n, hn, hids⟩ := List.any_eq_true.mp hnotified
          obtain ⟨-, hevent⟩ := of_decide_eq_true hids
          rw [hwrite] at hn
          obtain hn | hn := HandledEvent.mem_effects hn
          · exact ⟨n, hn, hevent⟩
          · obtain ⟨p, hp, hnote⟩ := List.mem_filterMap.mp hn
            have heventId := (hundo.fits p hp).eventId hnote
            refine absurd (heventId.symm.trans hevent) (hnew p.1 ?_)
            exact hundo.handled.subset (List.mem_map_of_mem hp)
        · trivial
        · exact hfailed _ (.inr ⟨_, rfl⟩)
        · cases hrefusal : x.refusal with
          | some e => exact hfailed _ (.inr ⟨e, rfl⟩)
          | none =>
            rw [Bool.or_eq_true, not_or, Bool.not_eq_true, Bool.not_eq_true] at hunused
            obtain ⟨hframed, hnoticed⟩ := h.inserted (l := .notification userId row.id)
              hrecover hhandler huser hknown hunused.1
            refine ⟨fun l hl _ => ?_, hframed, hnoticed⟩
            obtain rfl | hl := List.mem_cons.mp hl
            · rwa [Bool.not_eq_true] at htaken
            · rw [List.mem_singleton.mp hl]
              exact hunused.2
        · exact hfailed _ (.inr ⟨_, rfl⟩)

/-- The `try`, once the handler has returned. -/
lemma wpIf_settle {delivered : ℕ} (hrow : row ∈ rows) (hnew : ∀ r ∈ done, r.id ≠ row.id)
    (h : Noticed P faulty now rows done row result delivered c d) :
    wpIf outboxDiscipline faulty
      ((outbox.control .release).bind fun _ => (outbox.query (outbox.updateProcessed row.id)).bind
        fun _ => .ret { result with
          processed := result.processed + 1
          notifications := result.notifications + delivered })
      (Between P faulty now rows (done ++ [row])) (Broken row result P faulty now rows done)
      c d := by
  simp only [outbox.control, outbox.query, wpIf_bind]
  rw [wpIf_control]
  intro d₁ hr₁
  replace h := h.of_rely hr₁
  have hbatch := h.toMidBatch
  constructor
  · rintro (hfaulty | hnone) e
    · exact ⟨⟨hbatch.sound.fail e, hbatch.began, hbatch.holds, hbatch.claimed,
        hbatch.saves⟩, .inl hfaulty, .inl hfaulty⟩
    · obtain ⟨sv, rest, hsaves, -⟩ := h.recoverable
      simp [Ctx.control, h.running, hsaves] at hnone
  intro c' hc'
  simp only [Ctx.control, Option.ite_none_left_eq_some] at hc'
  obtain ⟨-, hc'⟩ := hc'
  cases hc'
  rw [wpIf_exec]
  intro d₂ hr₂
  replace h := Noticed.of_rely (c := c) hr₂ h
  have hbatch : MidBatch P faulty now rows done c.release d₂ :=
    ⟨h.sound.release, h.began, h.holds, h.claimed, fun sv hsv =>
      h.saves sv (List.mem_of_mem_tail hsv)⟩
  constructor
  · rintro (hfaulty | haborted) e
    · exact ⟨⟨hbatch.sound.fail e, hbatch.began, hbatch.holds, hbatch.claimed,
        hbatch.saves⟩, .inl hfaulty, .inl hfaulty⟩
    · rw [Ctx.release_aborted, h.running] at haborted
      cases haborted
  intro _ x taken hown
  obtain ⟨ps, w, what, hw, hundo, hcomplete, hfits, hnote, hclose, hcount⟩ := h.noticed
  have hfind : (c.release.write d₂).events.get? row.id = some row := by
    rw [Ctx.release_write, hw, Function.comp_apply, HandledEvent.events_notify]
    exact (hundo.get?_write hnew).trans (hbatch.claimed row hrow)
  have hfree : taken (.event row.id) = false :=
    hown _ (hbatch.holds row hrow) (outboxDiscipline_excl _)
  simp only [outbox.updateProcessed, Stmt.update, hfind, hfree]
  have hframed : outboxDiscipline.Framed ([.event row.id] ++ c.release.tokens)
      (fun d => d.setProcessed row.id c.release.now) :=
    framed_modifyEvent _ _ List.mem_cons_self
  refine ⟨fun l hl _ => ?_, hframed, ?_⟩
  · rw [List.mem_singleton.mp hl]
    exact hfree
  have hadd := hundo.add [.event row.id] hfits hnote
  have heffect : (fun d : OutboxStore => d.setProcessed row.id c.release.now) ∘ c.release.write =
      HandledEvent.effect P now (row, what) ∘ w := by
    rw [Ctx.release_write, Ctx.release_now, h.began, hw]
    funext d
    simp only [Function.comp_apply, HandledEvent.effect, OutboxStore.setProcessed, hclose]
  refine ⟨⟨hbatch.sound.done hframed, h.began, ?_, hbatch.claimed, hbatch.next.saves⟩,
    h.running, ps ++ [(row, what)], ?_, fun hnot => ?_⟩
  · exact fun r hr => List.mem_cons_of_mem _ (hbatch.holds r hr)
  · rw [Ctx.done_write, heffect]
    exact hadd
  · obtain ⟨hdone, hcounted⟩ := hcomplete hnot
    rw [List.map_append, hdone, HandledEvent.count_concat, ← hcounted, hcount]
    exact ⟨rfl, rfl⟩

/-- One event of a batch. -/
lemma wpIf_dispatchRow (hrow : row ∈ rows) (hnew : ∀ r ∈ done, r.id ≠ row.id)
    (h : Between P faulty now rows done result c d) :
    wpIf outboxDiscipline faulty (outbox.dispatchRow P row result)
      (Between P faulty now rows (done ++ [row])) (fun _ _ _ => faulty) c d := by
  unfold outbox.dispatchRow outbox.control
  rw [Program.bind_eq, wpIf_bind, wpIf_control]
  intro d₁ hr₁
  replace h := h.of_rely hr₁
  constructor
  · rintro (hfaulty | hnone) e
    · exact hfaulty
    · simp [Ctx.control, h.running] at hnone
  intro c' hc'
  simp only [Ctx.control, Option.ite_none_left_eq_some] at hc'
  obtain ⟨-, hc'⟩ := hc'
  cases hc'
  have hsaved : Between P faulty now rows done result c.save d₁ := by
    refine ⟨⟨h.sound.save, h.began, h.holds, h.claimed, fun sv hsv => ?_⟩, h.running, h.exact⟩
    obtain rfl | hsv := List.mem_cons.mp hsv
    · obtain ⟨ps, hundo, -⟩ := h.exact
      exact ⟨ps, hundo⟩
    · exact h.saves sv hsv
  have hrecover : Recoverable P faulty now rows done result c.save d₁ :=
    ⟨(c.write, c.tokens), c.saves, rfl, h.exact⟩
  rw [wpIf_tryCatch]
  unfold outbox.deliver
  rw [Program.bind_eq, wpIf_bind]
  have hhandled := wpIf_handleEvent hnew hsaved hrecover
  refine wpIf_mono (fun delivered c d h => ?_) (fun error c d h => ?_) hhandled
  · refine wpIf_mono (fun _ _ _ h => h) (fun error c d h => ?_) (wpIf_settle hrow hnew h)
    exact wpIf_charge hrow hnew h.2.1 h.2.2 h.1
  · exact wpIf_charge hrow hnew h.2.1 h.2.2 h.1

/-- The loop, by induction on the events left. -/
lemma wpIf_dispatchRows {rest : List OutboxRow} (hsub : rest ⊆ rows)
    (hnodup : ((done ++ rest).map OutboxRow.id).Nodup)
    (h : Between P faulty now rows done result c d) :
    wpIf outboxDiscipline faulty (outbox.dispatchRows P rest result)
      (Between P faulty now rows (done ++ rest)) (fun _ _ _ => faulty) c d := by
  induction rest generalizing done result c d with
  | nil =>
    rw [List.append_nil]
    exact h
  | cons row rest ih =>
    have hnew : ∀ r ∈ done, r.id ≠ row.id := by
      intro r hr heq
      rw [List.map_append, List.nodup_append] at hnodup
      refine hnodup.2.2 r.id (List.mem_map_of_mem hr) row.id ?_ heq
      exact List.mem_map_of_mem List.mem_cons_self
    unfold outbox.dispatchRows
    rw [Program.bind_eq, wpIf_bind]
    have hone := wpIf_dispatchRow (hsub List.mem_cons_self) hnew h
    refine wpIf_mono (fun result c d h => ?_) (fun _ _ _ h => h) hone
    have hrest := ih (fun r hr => hsub (List.mem_cons_of_mem _ hr)) (by simpa using hnodup) h
    simpa using hrest

end batch

/-! ### A batch -/

section

variable {P : OutboxPlatform} {faulty : Prop} {now : Timestamp} {limit : ℕ} {d : OutboxStore}
  {taken : OutboxToken → Bool} {row : OutboxRow} {c : Ctx OutboxStore OutboxToken Empty}

lemma of_mem_dueEvents (h : row ∈ outbox.dueEvents limit now d taken) :
    d.events.get? row.id = some row ∧ row.status = .pending ∧ row.nextAttemptAt ≤ now ∧
      taken (.event row.id) = false := by
  have hfree := List.mem_filter.mp (List.mem_of_mem_take h)
  have hdue := List.mem_filter.mp ((List.mem_insertionSort _).mp hfree.1)
  obtain ⟨hpending, hat⟩ := of_decide_eq_true hdue.2
  exact ⟨Table.get?_of_mem hdue.1, hpending, hat, by simpa using hfree.2⟩

lemma nodup_dueEvents : ((outbox.dueEvents limit now d taken).map OutboxRow.id).Nodup := by
  have hfiltered : ((d.events.rows.filter fun r => r.status = .pending ∧
      r.nextAttemptAt ≤ now).map OutboxRow.id).Nodup :=
    d.events.nodup.sublist (List.filter_sublist.map _)
  have hsorted := ((List.perm_insertionSort (fun a b : OutboxRow =>
    a.event.createdAt ≤ b.event.createdAt) _).map OutboxRow.id).nodup_iff.mpr hfiltered
  exact hsorted.sublist (((List.take_sublist _ _).trans List.filter_sublist).map _)

/-- What the commit of a batch amounts to. Without faults every claimed event is handled. -/
structure BatchOf (P : OutboxPlatform) (faulty : Prop) (now : Timestamp) (limit : ℕ)
    (result : outbox.DispatchResult) (d d' : OutboxStore) (rows : List OutboxRow)
    (ps : List HandledEvent) : Prop where
  few : rows.length ≤ limit
  nodup : (rows.map OutboxRow.id).Nodup
  due : ∀ row ∈ rows, d.events.get? row.id = some row ∧ row.status = .pending ∧
    row.nextAttemptAt ≤ now
  handled : (ps.map Prod.fst).Sublist rows
  fits : ∀ p ∈ ps, p.Fits P now faulty d
  distinct : ((HandledEvent.notes ps).map Notification.id).Nodup
  after : d' = HandledEvent.effects P now ps d
  complete : Complete faulty rows rows result ps

def DispatchedBatch (P : OutboxPlatform) (faulty : Prop) (now : Timestamp) (limit : ℕ)
    (result : outbox.DispatchResult) (d d' : OutboxStore) : Prop :=
  ∃ rows ps, BatchOf P faulty now limit result d d' rows ps

lemma wpIf_dispatchBatch :
    wpIf outboxDiscipline faulty (outbox.dispatchBatch P limit)
      (Commits outboxDiscipline fun result _ d d' => DispatchedBatch P faulty now limit result d d')
      (fun _ _ _ => faulty) (.start now) d := by
  unfold outbox.dispatchBatch outbox.query
  rw [Program.bind_eq, wpIf_bind, wpIf_exec]
  intro d₁ _
  constructor
  · rintro (hfaulty | haborted) e
    · exact hfaulty
    · cases haborted
  intro _ x taken _
  set rows := outbox.dueEvents limit now d₁ taken with hrows
  have hdue : ∀ row ∈ rows, d₁.events.get? row.id = some row ∧ row.status = .pending ∧
      row.nextAttemptAt ≤ now ∧ taken (.event row.id) = false :=
    fun row hrow => of_mem_dueEvents (hrows ▸ hrow)
  have hnodup : (rows.map OutboxRow.id).Nodup := hrows ▸ nodup_dueEvents
  have hfew : rows.length ≤ limit := by
    rw [hrows]
    exact List.length_take_le _ _
  have hframed : outboxDiscipline.Framed
      ((rows.map fun r => .event r.id) ++
        (Ctx.start now : Ctx OutboxStore OutboxToken Empty).tokens) fun d => d :=
    Discipline.framed_id.anti (List.nil_subset _)
  have hstart : Between P faulty now rows [] { claimed := rows.length }
      ((Ctx.start now).done (fun d => d) (rows.map fun r => .event r.id)) d₁ := by
    have hclaims : ∀ row ∈ rows, OutboxToken.event row.id ∈
        (rows.map fun r => OutboxToken.event r.id) ++ [] := by
      intro row hrow
      rw [List.append_nil]
      exact List.mem_map.mpr ⟨row, hrow, rfl⟩
    refine ⟨⟨(Ctx.Sound.start now).done hframed, rfl, hclaims, fun row hrow => (hdue row hrow).1,
      fun sv hsv => absurd hsv List.not_mem_nil⟩, rfl, [], ?_, fun _ => ⟨rfl, rfl⟩⟩
    exact ⟨rfl, hclaims, fun n hn => absurd hn List.not_mem_nil, List.nil_sublist _,
      fun p hp => absurd hp List.not_mem_nil, List.nodup_nil⟩
  refine ⟨fun l hl _ => ?_, hframed, ?_⟩
  · obtain ⟨row, hrow, rfl⟩ := List.mem_map.mp hl
    exact (hdue row hrow).2.2.2
  have hdistinct : (([] ++ rows).map OutboxRow.id).Nodup := by simpa using hnodup
  have hloop := wpIf_dispatchRows (List.Subset.refl rows) hdistinct hstart
  refine wpIf_mono (fun result c d h d' hr => ?_) (fun _ _ _ h => h) hloop
  replace h := h.of_rely hr
  obtain ⟨ps, hundo, hcomplete⟩ := h.exact
  rw [List.nil_append] at hundo hcomplete
  have hwrite : c.write d' = HandledEvent.effects P now ps d' := by rw [← hundo.write]
  rw [hwrite]
  refine ⟨h.running, ⟨rows, ps, hfew, hnodup, fun row hrow => ?_, hundo.handled, hundo.fits,
    hundo.distinct, rfl, hcomplete⟩, HandledEvent.later_effects⟩
  exact ⟨h.claimed row hrow, (hdue row hrow).2.1, (hdue row hrow).2.2.1⟩

/-! ### The other calls -/

/-- What a producer may have done: events are new, pending and never attempted. -/
structure Produced (d d' : OutboxStore) : Prop where
  notifications : d'.notifications = d.notifications
  users : ∀ u ∈ d.users, u ∈ d'.users
  events : ∀ id, d.events.Keeps d'.events id
  added : ∀ r ∈ d'.events, r ∈ d.events ∨
    d.events.get? r.id = none ∧ r.status = .pending ∧ r.attempts = 0

lemma Produced.refl (d : OutboxStore) : Produced d d :=
  ⟨rfl, fun _ h => h, fun _ => Table.Keeps.refl, fun _ h => .inl h⟩

lemma Produced.trans {d d' d'' : OutboxStore} (h : Produced d d') (h' : Produced d' d'') :
    Produced d d'' := by
  constructor
  · exact h'.notifications.trans h.notifications
  · exact fun u hu => h'.users u (h.users u hu)
  · exact fun id => (h.events id).trans (h'.events id)
  · intro r hr
    obtain hr | ⟨hnone, hnew⟩ := h'.added r hr
    · exact h.added r hr
    · refine .inr ⟨?_, hnew⟩
      cases hget : d.events.get? r.id with
      | none => rfl
      | some q =>
        rw [h.events r.id q hget] at hnone
        cases hnone

lemma produced_insertUser (d : OutboxStore) (id : Uuid) : Produced d (d.insertUser id) :=
  ⟨rfl, fun _ h => List.mem_append_left _ h, fun _ => Table.Keeps.refl, fun _ h => .inl h⟩

lemma produced_insertEvent (d : OutboxStore) (id : Uuid) (e : outbox.NewEvent) (now : Timestamp) :
    Produced d (d.insertEvent (outbox.newRow id e now)) := by
  refine ⟨rfl, fun _ h => h, fun _ => Table.keeps_insert, fun r hr => ?_⟩
  cases hget : d.events.get? r.id with
  | some q =>
    have hq := Table.get?_insert_of_some (a := outbox.newRow id e now) hget
    cases (Table.get?_of_mem hr).symm.trans hq
    exact .inl (Table.mem_of_get? hget)
  | none =>
    obtain hr | rfl := Table.mem_insert_or hr
    · exact .inl hr
    · exact .inr ⟨rfl, rfl, rfl⟩

/-- The invariant of a producer. -/
structure Producing (c : Ctx OutboxStore OutboxToken Empty) : Prop where
  running : c.aborted = false
  produced : ∀ d, Produced d (c.write d)

lemma Producing.done {w : OutboxStore → OutboxStore} {acq : List OutboxToken} (h : Producing c)
    (hw : ∀ d, Produced d (w d)) : Producing (c.done w acq) :=
  ⟨h.running, fun d => (h.produced d).trans (hw (c.write d))⟩

lemma wpIf_produce {users : List Uuid} {events : List outbox.NewEvent} :
    wpIf outboxDiscipline faulty (outbox.produce users events)
      (Commits outboxDiscipline fun _ _ d d' => Produced d d') (fun _ _ _ => True)
      (.start now) d := by
  unfold outbox.produce outbox.query
  rw [Program.bind_eq, wpIf_bind]
  have hstart : Producing (Ctx.start now) := ⟨rfl, Produced.refl⟩
  have husers : ∀ id (c : Ctx OutboxStore OutboxToken Empty) (d : OutboxStore), Producing c →
      wpIf outboxDiscipline faulty
        (Program.exec (ε := Error) Error.ofDriver (outbox.insertUserRow id))
        (fun _ c _ => Producing c) (fun _ _ _ => True) c d := by
    intro id c d h
    rw [wpIf_exec]
    refine fun d' _ => ⟨fun _ _ => trivial, fun _ x taken _ => ?_⟩
    unfold outbox.insertUserRow
    split_ifs with htaken
    · trivial
    · refine ⟨fun l hl _ => ?_, framed_addUser id, h.done fun d => produced_insertUser d id⟩
      rw [List.mem_singleton.mp hl]
      exact Bool.eq_false_iff.mpr fun ht => htaken (.inr ht)
  have hevents : ∀ e (c : Ctx OutboxStore OutboxToken Empty) (d : OutboxStore), Producing c →
      wpIf outboxDiscipline faulty
        ((Program.exec (ε := Error) Error.ofDriver (outbox.insertEventRow e)).bind fun _ => .ret ())
        (fun _ c _ => Producing c) (fun _ _ _ => True) c d := by
    intro e c d h
    rw [wpIf_bind, wpIf_exec]
    refine fun d' _ => ⟨fun _ _ => trivial, fun _ x taken _ => ?_⟩
    unfold outbox.insertEventRow Stmt.insert
    simp only
    split_ifs with hfree
    · refine ⟨fun l hl _ => ?_, framed_addEvent List.mem_cons_self,
        h.done fun d => produced_insertEvent d x.uuid e c.now⟩
      rw [Bool.and_eq_true, List.all_eq_true] at hfree
      rw [List.append_nil] at hl
      simpa using hfree.2 l hl
    · trivial
  refine wpIf_mono (fun _ c d h => ?_) (fun _ _ _ h => h)
    (wpIf_forM (I := fun c _ => Producing c) husers hstart)
  refine wpIf_mono (fun _ c d h d' _ => ?_) (fun _ _ _ h => h)
    (wpIf_forM (I := fun c _ => Producing c) hevents h)
  have hd := h.produced d'
  refine ⟨h.running, hd, hd.users, fun n hn => ⟨n, ?_, rfl⟩⟩
  rw [hd.notifications]
  exact hn

lemma wpIf_markRead {id userId : Uuid} :
    wpIf outboxDiscipline faulty (outbox.markRead id userId)
      (Commits outboxDiscipline fun _ _ d d' => d' = d ∨ d' = d.setRead id now)
      (fun _ _ _ => True) (.start now) d := by
  unfold outbox.markRead outbox.query
  rw [Program.bind_eq, wpIf_bind, wpIf_exec]
  refine fun d₁ _ => ⟨fun _ _ => trivial, fun _ x taken _ => ?_⟩
  simp only [Stmt.update, Ctx.start_write, id_eq]
  cases hfind : (d₁.notifications.get? id).filter fun n => n.userId = userId ∧ n.readAt = none with
  | none =>
    refine ⟨fun l hl => absurd hl List.not_mem_nil, Discipline.framed_id, fun d' _ => ?_⟩
    exact ⟨rfl, .inl rfl, OutboxLater.refl _⟩
  | some n =>
    have hid : n.id = id := Table.key_of_get? (Option.filter_eq_some_iff.mp hfind).1
    cases htaken : taken (.notificationRow n.id) with
    | true => simp only [htaken, if_true]
    | false =>
      simp only [htaken, Bool.false_eq_true, if_false]
      refine ⟨fun l hl _ => ?_, framed_setRead n.id now, fun d' _ => ?_⟩
      · rw [List.mem_singleton.mp hl]
        exact htaken
      · rw [← hid]
        exact ⟨rfl, .inr rfl, later_setRead n.id now⟩

/-- What a call commits to. -/
def OutboxCommit (P : OutboxPlatform) (faulty : Prop) (call : OutboxCall) (now : Timestamp)
    (reply : OutboxReply) (_ : List Empty) (d d' : OutboxStore) : Prop :=
  match call, reply with
  | .dispatch limit, .dispatched result => DispatchedBatch P faulty now limit result d d'
  | .produce _ _, .done => Produced d d'
  | .markRead id _, .done => d' = d ∨ d' = d.setRead id now
  | _, _ => False

/-- Only faults from outside make a batch fail. -/
def OutboxCall.Fails (faulty : Prop) : OutboxCall → Prop
  | .dispatch _ => faulty
  | _ => True

lemma wpIf_outboxBody (call : OutboxCall) (now : Timestamp) (d : OutboxStore) :
    wpIf outboxDiscipline faulty (outboxBody P call)
      (Commits outboxDiscipline (OutboxCommit P faulty call now)) (fun _ _ _ => call.Fails faulty)
      (.start now) d := by
  cases call with
  | dispatch limit =>
    simp only [outboxBody, Program.bind_eq, wpIf_bind]
    exact wpIf_mono (fun _ _ _ h => h) (fun _ _ _ h => h) wpIf_dispatchBatch
  | produce users events =>
    simp only [outboxBody, Program.bind_eq, wpIf_bind]
    exact wpIf_mono (fun _ _ _ h => h) (fun _ _ _ h => h) wpIf_produce
  | markRead id userId =>
    simp only [outboxBody, Program.bind_eq, wpIf_bind]
    exact wpIf_mono (fun _ _ _ h => h) (fun _ _ _ h => h) wpIf_markRead

end

end TakaFlow
