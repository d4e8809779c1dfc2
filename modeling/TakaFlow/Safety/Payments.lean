import TakaFlow.Spec.Pace

/-!
# Scheduled payments

An occurrence is paid once or not at all, by one transfer of what its schedule says, and never for
a schedule that its owner has stopped.
-/

namespace TakaFlow

open Txn

/-- The transfer pays one run of the schedule. -/
structure Payment (d : Database) (s : Schedule) (t : Transfer) : Prop where
  type : t.type = .scheduled
  amountMinor : t.amountMinor = s.amountMinor
  owner : Owns s.ownerUserId t.fromAccountId d
  payee : Owns s.payeeUserId t.toAccountId d

/-- The invariant of occurrences and their payments. -/
structure Payments (P : Platform) (d : Database) : Prop where
  apart : ∀ o ∈ d.occurrences, ∀ o' ∈ d.occurrences, o.key = o'.key → o = o'
  attempts : ∀ o ∈ d.occurrences, o.attempts ≤ P.config.scheduleMaxAttempts ∧
    (o.status = .pending → o.attempts < P.config.scheduleMaxAttempts)
  paid : ∀ o ∈ d.occurrences, ∀ id, o.transferId = some id → o.status = .paid ∧
    ∃ s ∈ d.schedules, s.id = o.scheduleId ∧ ∃ t ∈ d.transfers, t.id = id ∧ Payment d s t
  linked : ∀ o ∈ d.occurrences, o.status = .paid → o.transferId.isSome
  single : ∀ o ∈ d.occurrences, ∀ o' ∈ d.occurrences, o.transferId.isSome →
    o.transferId = o'.transferId → o = o'
  all : ∀ t ∈ d.transfers, t.type = .scheduled →
    ∃ o ∈ d.occurrences, o.transferId = some t.id

section

variable {P : Platform} {watched : Token → Prop} {may : ℕ → Database → Token → Prop}
  {now : Timestamp} {call : Call} {x y : Database}

lemma Payment.later {s s' : Schedule} {t t' : Transfer} (h : Payment x s t) (hl : Later x y)
    (hs : s.Keeps s') (hcore : t'.core = t.core) : Payment y s' t' := by
  have hfrom : t'.fromAccountId = t.fromAccountId := (congrArg Transfer.fromAccountId hcore :)
  have hto : t'.toAccountId = t.toAccountId := (congrArg Transfer.toAccountId hcore :)
  have hamount : t'.amountMinor = t.amountMinor := (congrArg Transfer.amountMinor hcore :)
  constructor
  · exact (congrArg Transfer.type hcore).trans h.type
  · rw [hamount, h.amountMinor, hs.amountMinor]
  · rw [hfrom, hs.ownerUserId]
    exact h.owner.later hl
  · rw [hto, hs.payeeUserId]
    exact h.payee.later hl

lemma Pays.mem {s : Schedule} {m : Movement} (h : Pays now call x y s m) :
    m.transfer ∈ y.transfers := by
  rw [h.transfers]
  exact (Movement.mem_transfers h.enabled).mpr (.inr rfl)

lemma Pays.payment {s s' : Schedule} {m : Movement} (h : Pays now call x y s m)
    (hl : Later x y) (hs : s.Keeps s') : Payment y s' m.transfer := by
  constructor
  · exact h.type
  · rw [h.amountMinor, hs.amountMinor]
  · rw [hs.ownerUserId, m.source]
    exact h.sender.later hl
  · rw [hs.payeeUserId, m.destination]
    exact h.recipient.later hl

/-- The row an attempt leaves is that of the same occurrence. -/
lemma Ends.key {o q : Occurrence} (h : Ends P now call x y o q) : q.key = o.key := by
  cases h <;> rfl

/-- An occurrence that has ended is left alone. -/
lemma Attempt.terminal {q : Occurrence} (h : Attempt P now call x y) (hq : q ∈ x.occurrences)
    (hstatus : q.status ≠ .pending) : q ∈ y.occurrences := by
  have hget := Table.get?_of_mem hq
  cases h with
  | still occurrences => exact occurrences ▸ hq
  | @made o o' claims row others ends =>
    by_cases hid : q.id = o.id
    · rw [← hid, hget] at claims
      cases claims with
      | retry pending => exact absurd pending hstatus
    · rw [← others _ hid] at hget
      exact Table.mem_of_get? hget

end

namespace Payments

variable {P : Platform} {watched : Token → Prop} {may : ℕ → Database → Token → Prop}
  {now : Timestamp} {call : Call} {x y : Database}

lemma seed (P : Platform) : Payments P seed := ⟨nofun, nofun, nofun, nofun, nofun, nofun⟩

/-- A pending occurrence is not paid. -/
lemma unpaid {o : Occurrence} (h : Payments P x) (ho : o ∈ x.occurrences)
    (hpending : o.status = .pending) : o.transferId = none := by
  cases hs : o.transferId with
  | none => rfl
  | some id =>
    have hpaid := (h.paid o ho id hs).1
    rw [hpending] at hpaid
    cases hpaid

/-! ### The claimed row -/

lemma max_pos (P : Platform) : 1 ≤ P.config.scheduleMaxAttempts :=
  P.config.positive _ (by simp)

/-- What a worker claims is unpaid and has attempts left. -/
lemma claimed {o : Occurrence} (h : Payments P x) (hc : Claims x (x.occurrences.get? o.id) o) :
    o.transferId = none ∧ o.attempts ≤ P.config.scheduleMaxAttempts := by
  generalize hbefore : x.occurrences.get? o.id = before at hc
  cases hc with
  | first unused pending unpaid attempts => exact ⟨unpaid, attempts ▸ max_pos P⟩
  | @retry o₀ pending =>
    have ho := Table.mem_of_get? hbefore
    exact ⟨h.unpaid (o := o₀) ho pending, (h.attempts o₀ ho).2 pending⟩

/-- No other row has its key. -/
lemma only {o q : Occurrence} (h : Payments P x) (hc : Claims x (x.occurrences.get? o.id) o)
    (hq : q ∈ x.occurrences) (hkey : q.key = o.key) : q.id = o.id := by
  generalize hbefore : x.occurrences.get? o.id = before at hc
  cases hc with
  | first unused pending unpaid attempts =>
    have hnone := List.find?_eq_none.mp unused q hq
    rw [decide_eq_true_eq] at hnone
    exact absurd hkey hnone
  | @retry o₀ pending =>
    have hsame := h.apart q hq o₀ (Table.mem_of_get? hbefore) hkey
    rw [hsame]

/-- How a row of the later state came about. -/
inductive Origin (P : Platform) (now : Timestamp) (call : Call) (x y : Database)
    (q : Occurrence) : Prop where
  | old (found : x.occurrences.get? q.id = some q)
  | made {o : Occurrence} (claims : Claims x (x.occurrences.get? o.id) o) (id : q.id = o.id)
      (others : ∀ id, id ≠ o.id → y.occurrences.get? id = x.occurrences.get? id)
      (ends : Ends P now call x y o q)

lemma origin (hstep : Performs P watched may now call x y) {q : Occurrence}
    (hq : q ∈ y.occurrences) : Origin P now call x y q := by
  have hget := Table.get?_of_mem hq
  cases hstep.attempt with
  | still occurrences => exact .old (occurrences ▸ hget)
  | @made o o' claims row others ends =>
    by_cases hid : q.id = o.id
    · rw [hid, row] at hget
      cases hget
      exact .made claims hid others ends
    · exact .old (others _ hid ▸ hget)

/-- The step lemma. -/
lemma step (h : Payments P x) (hstep : Advances P watched may now call x y) : Payments P y := by
  have horigin : ∀ q ∈ y.occurrences, Origin P now call x y q :=
    fun q hq => origin hstep.performs hq
  -- What was paid before was not paid by a new transfer.
  have hnew : ∀ q ∈ x.occurrences, ∀ {s : Schedule} {m : Movement}, Pays now call x y s m →
      q.transferId ≠ some m.transfer.id := by
    intro q hq s m hpays hid
    obtain ⟨-, s, -, -, t, ht, htid, -⟩ := h.paid q hq _ hid
    have hnone := (Table.has_eq_false _ _).mp hpays.enabled.transfer
    rw [← htid, Table.get?_of_mem ht] at hnone
    cases hnone
  constructor
  · intro q hq q' hq' hkey
    cases horigin q hq with
    | old found =>
      have hmem := Table.mem_of_get? found
      cases horigin q' hq' with
      | old found' => exact h.apart q hmem q' (Table.mem_of_get? found') hkey
      | made claims id others ends =>
        exact Table.eq_of_mem hq hq' ((h.only claims hmem (hkey.trans ends.key)).trans id.symm)
    | @made o claims id others ends =>
      refine Table.eq_of_mem hq hq' (id.trans (Eq.symm ?_))
      by_contra hne
      have hget := Table.get?_of_mem hq'
      rw [others _ hne] at hget
      exact hne (h.only claims (Table.mem_of_get? hget) (hkey.symm.trans ends.key))
  · intro q hq
    cases horigin q hq with
    | old found => exact h.attempts q (Table.mem_of_get? found)
    | made claims id others ends =>
      have hattempts := (h.claimed claims).2
      cases ends with
      | deferred attempts => exact ⟨hattempts, fun _ => attempts⟩
      | @settled status reason outcome =>
        refine ⟨hattempts, fun hpending => ?_⟩
        rcases outcome with rfl | rfl
        · cases hpending
        · cases hpending
      | paid schedule pays => exact ⟨hattempts, nofun⟩
  · intro q hq id hid
    cases horigin q hq with
    | old found =>
      obtain ⟨hstatus, s, hs, hsid, t, ht, htid, hpayment⟩ :=
        h.paid q (Table.mem_of_get? found) id hid
      obtain ⟨s', hs', hkeeps⟩ := hstep.performs.keeps hs
      obtain ⟨t', ht', hcore⟩ := hstep.later.transfers t ht
      have htid' : t'.id = t.id := (congrArg Transfer.id hcore :)
      exact ⟨hstatus, s', hs', hkeeps.id.trans hsid, t', ht', htid'.trans htid,
        hpayment.later hstep.later hkeeps hcore⟩
    | made claims _ others ends =>
      cases ends with
      | deferred attempts => cases hid.symm.trans (h.claimed claims).1
      | settled outcome => cases hid
      | @paid s m schedule pays =>
        cases hid
        obtain ⟨s', hs', hkeeps⟩ := hstep.performs.keeps (Table.mem_of_get? pays.due.found)
        exact ⟨rfl, s', hs', hkeeps.id.trans schedule.symm, m.transfer, pays.mem, rfl,
          pays.payment hstep.later hkeeps⟩
  · intro q hq hstatus
    cases horigin q hq with
    | old found => exact h.linked q (Table.mem_of_get? found) hstatus
    | made claims id others ends =>
      cases ends with
      | deferred attempts => cases hstatus.symm.trans claims.pending
      | settled outcome =>
        change _ = OccurrenceStatus.paid at hstatus
        rcases outcome with rfl | rfl
        · cases hstatus
        · cases hstatus
      | paid schedule pays => rfl
  · intro q hq q' hq' hsome heq
    -- Of the others none is touched by a payment.
    have hmixed : ∀ p ∈ y.occurrences, ∀ {o : Occurrence} {s : Schedule} {m : Movement},
        Pays now call x y s m → p.transferId = some m.transfer.id →
        (∀ id, id ≠ o.id → y.occurrences.get? id = x.occurrences.get? id) → p.id = o.id := by
      intro p hp o s m hpays hpid others
      by_contra hne
      have hget := Table.get?_of_mem hp
      rw [others p.id hne] at hget
      exact hnew p (Table.mem_of_get? hget) hpays hpid
    cases horigin q hq with
    | old found =>
      have hmem := Table.mem_of_get? found
      cases horigin q' hq' with
      | old found' => exact h.single q hmem q' (Table.mem_of_get? found') hsome heq
      | made claims id others ends =>
        cases ends with
        | deferred attempts =>
          rw [heq, (h.claimed claims).1] at hsome
          cases hsome
        | settled outcome =>
          rw [heq] at hsome
          cases hsome
        | paid schedule pays => exact absurd heq (hnew q hmem pays)
    | made claims id others ends =>
      cases ends with
      | deferred attempts =>
        rw [(h.claimed claims).1] at hsome
        cases hsome
      | settled outcome => cases hsome
      | paid schedule pays =>
        have hid := hmixed q' hq' pays heq.symm others
        exact Table.eq_of_mem hq hq' (id.trans hid.symm)
  · intro t ht htype
    by_cases hold : x.transfers.has t.id = true
    · obtain ⟨t₀, hget⟩ := Option.isSome_iff_exists.mp hold
      have ht₀ := Table.mem_of_get? hget
      have hid₀ : t₀.id = t.id := Table.key_of_get? hget
      obtain ⟨t', ht', hcore⟩ := hstep.later.transfers t₀ ht₀
      have hid' : t'.id = t₀.id := (congrArg Transfer.id hcore :)
      obtain rfl : t' = t := Table.eq_of_mem ht' ht (hid'.trans hid₀)
      have htype₀ : t₀.type = .scheduled := (congrArg Transfer.type hcore).symm.trans htype
      obtain ⟨o, ho, hpaid⟩ := h.all t₀ ht₀ htype₀
      have hstatus := (h.paid o ho _ hpaid).1
      have hkeep := hstep.performs.attempt.terminal ho (by rw [hstatus]; nofun)
      exact ⟨o, hkeep, hpaid.trans (congrArg some hid₀)⟩
    · cases hstep.performs.fresh ht (Bool.not_eq_true _ ▸ hold) with
      | pays schedule pays row => exact ⟨_, Table.mem_of_get? row, rfl⟩
      | minted type => cases type.symm.trans htype
      | sent type => cases type.symm.trans htype
      | reverses type => cases type.symm.trans htype
      | settles found pending type row => cases type.symm.trans htype

end Payments

/-! ### The guarantee -/

/-- Scheduled payments in a run. -/
structure PaymentsHold (P : Platform) (s : State) : Prop where
  /-- A schedule and an instant name one occurrence, and one transfer at most pays it. -/
  once : ∀ o ∈ s.db.occurrences, ∀ o' ∈ s.db.occurrences, o.key = o'.key → o = o'
  /-- An occurrence is paid iff a scheduled transfer pays it, and then one does. -/
  paid : ∀ o ∈ s.db.occurrences, o.status = .paid ↔
    ∃! t, t ∈ s.db.transfers ∧ t.type = .scheduled ∧ o.transferId = some t.id
  /-- Every scheduled transfer pays one occurrence, which is paid. -/
  pays : ∀ t ∈ s.db.transfers, t.type = .scheduled →
    ∃! o, o ∈ s.db.occurrences ∧ o.status = .paid ∧ o.transferId = some t.id
  /-- It moves the amount of the schedule from its owner to its payee. -/
  payment : ∀ o ∈ s.db.occurrences, ∀ t ∈ s.db.transfers, o.transferId = some t.id →
    ∃ p ∈ s.db.schedules, p.id = o.scheduleId ∧ Payment s.db p t
  /-- An occurrence that has ended does not change. -/
  terminal : ∀ r ∈ s.history, ∀ o ∈ r.before.occurrences, o.status ≠ .pending →
    o ∈ r.after.occurrences
  /-- A payment commits for a schedule that is active only. -/
  active : ∀ r ∈ s.history, ∀ t ∈ r.after.transfers, t.type = .scheduled →
    r.before.transfers.has t.id = false → ∃ p ∈ r.before.schedules,
      r.call = .runSchedule p.id ∧ p.status = .active ∧ ∃ o ∈ r.after.occurrences,
        o.scheduleId = p.id ∧ o.transferId = some t.id
  attempts : ∀ o ∈ s.db.occurrences, o.attempts ≤ P.config.scheduleMaxAttempts

theorem payments_hold {P : Platform} {s : State} (h : Reachable P s) : PaymentsHold P s := by
  have hsound := h.sound
  have hdb : Payments P s.db := hsound.invariant (.seed P) fun _ _ _ _ hstep hx => hx.step hstep
  constructor
  · exact hdb.apart
  · intro o ho
    constructor
    · intro hstatus
      obtain ⟨id, hid⟩ := Option.isSome_iff_exists.mp (hdb.linked o ho hstatus)
      obtain ⟨-, p, -, -, t, ht, rfl, hpayment⟩ := hdb.paid o ho id hid
      refine ⟨t, ⟨ht, hpayment.type, hid⟩, ?_⟩
      rintro t' ⟨ht', -, hid'⟩
      exact Table.eq_of_mem ht' ht (Option.some.inj (hid'.symm.trans hid))
    · rintro ⟨t, ⟨-, -, hid⟩, -⟩
      exact (hdb.paid o ho _ hid).1
  · intro t ht htype
    obtain ⟨o, ho, hid⟩ := hdb.all t ht htype
    refine ⟨o, ⟨ho, (hdb.paid o ho _ hid).1, hid⟩, ?_⟩
    rintro o' ⟨ho', -, hid'⟩
    exact hdb.single o' ho' o ho (by rw [hid']; rfl) (hid'.trans hid.symm)
  · intro o ho t ht hid
    obtain ⟨-, p, hp, hpid, t', ht', heq, hpayment⟩ := hdb.paid o ho _ hid
    obtain rfl := Table.eq_of_mem ht' ht heq
    exact ⟨p, hp, hpid, hpayment⟩
  · intro r hr o ho hstatus
    exact (hsound.advances hr).performs.attempt.terminal ho hstatus
  · intro r hr t ht htype hnew
    cases (hsound.advances hr).performs.fresh ht hnew with
    | pays schedule pays row =>
      exact ⟨_, Table.mem_of_get? pays.due.found, pays.called, pays.due.active, _,
        Table.mem_of_get? row, schedule, rfl⟩
    | minted type => cases type.symm.trans htype
    | sent type => cases type.symm.trans htype
    | reverses type => cases type.symm.trans htype
    | settles found pending type row => cases type.symm.trans htype
  · exact fun o ho => (hdb.attempts o ho).1

/-- A schedule of two runs. A second worker comes while the first one works on the first run. -/
def scheduledRun : List Step :=
  session 0 100 asha ++ session 1 200 babu ++
    session 2 300 (.createSchedule 100 "k"
      { toPhone := "01722222222", amountMinor := 2500, intervalKind := .daily,
        startAt := 1800000000000, totalRuns := some 2 } .null {}) ++
    .begin (.runSchedule 303) :: advance 3 2 400 ++ session 4 500 (.runSchedule 303) ++
    advance 3 40 410 ++ [.finish 3, .tick (secondsPerDay * microsPerSecond)] ++
    session 5 600 (.runSchedule 303)

theorem payments_hold_scheduledRun :
    (State.after sample scheduledRun).db.occurrences.rows.map
        (fun o => (o.id, o.status, o.transferId)) =
        [(401, .paid, some 420), (601, .paid, some 612)] ∧
      (State.after sample scheduledRun).history.map Commit.session = [0, 1, 2, 4, 3, 5] ∧
      PaymentsHold sample (State.after sample scheduledRun) :=
  ⟨by decide +kernel, by decide +kernel, payments_hold (reachable_after sample scheduledRun)⟩

end TakaFlow
