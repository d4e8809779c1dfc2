import TakaFlow.Spec.Announcements

/-!
# The life of a request

A request ends once, by the right party and in time, and it is accepted exactly when one transfer
has paid it.
-/

namespace TakaFlow

open Txn

/-- The transfer pays the request. -/
structure Settlement (d : Database) (r : MoneyRequest) (t : Transfer) : Prop where
  type : t.type = .requestSettlement
  amountMinor : t.amountMinor = r.amountMinor
  payer : Owns r.payerUserId t.fromAccountId d
  requester : Owns r.requesterUserId t.toAccountId d

/-- The invariant of requests and their settlements. -/
structure Settlements (d : Database) : Prop where
  settled : ∀ r ∈ d.moneyRequests, ∀ id, r.settledTransferId = some id →
    r.status = .accepted ∧ ∃ t ∈ d.transfers, t.id = id ∧ Settlement d r t
  accepted : ∀ r ∈ d.moneyRequests, r.status = .accepted → r.settledTransferId.isSome
  apart : ∀ r ∈ d.moneyRequests, ∀ r' ∈ d.moneyRequests, r.settledTransferId.isSome →
    r.settledTransferId = r'.settledTransferId → r = r'
  all : ∀ t ∈ d.transfers, t.type = .requestSettlement →
    ∃ r ∈ d.moneyRequests, r.settledTransferId = some t.id

/-- What a transfer is stays, up to its status. -/
lemma Settlement.later {x y : Database} {r : MoneyRequest} {t t' : Transfer}
    (h : Settlement x r t) (hl : Later x y) (hcore : t'.core = t.core) : Settlement y r t' := by
  have hfrom : t'.fromAccountId = t.fromAccountId := (congrArg Transfer.fromAccountId hcore :)
  have hto : t'.toAccountId = t.toAccountId := (congrArg Transfer.toAccountId hcore :)
  constructor
  · exact (congrArg Transfer.type hcore).trans h.type
  · exact (congrArg Transfer.amountMinor hcore).trans h.amountMinor
  · exact hfrom ▸ h.payer.later hl
  · exact hto ▸ h.requester.later hl

namespace Settlements

variable {P : Platform} {watched : Token → Prop} {may : ℕ → Database → Token → Prop}
  {now : Timestamp} {call : Call} {x y : Database}

lemma seed : Settlements seed := ⟨nofun, nofun, nofun, nofun⟩

/-- A pending request is not paid. -/
lemma unsettled {r : MoneyRequest} (h : Settlements x) (hr : r ∈ x.moneyRequests)
    (hpending : r.status = .pending) : r.settledTransferId = none := by
  cases hs : r.settledTransferId with
  | none => rfl
  | some id =>
    have haccepted := (h.settled r hr id hs).1
    rw [hpending] at haccepted
    cases haccepted

/-- How a row of the later state came about. -/
inductive Origin (x y : Database) (r : MoneyRequest) : Prop where
  | old (found : x.moneyRequests.get? r.id = some r)
  | unpaid (none : r.settledTransferId = none) (status : r.status ≠ .accepted)
  | paid {r₀ : MoneyRequest} {m : Movement} (id : r₀.id = r.id)
      (settled : r.settledTransferId = some m.transfer.id) (status : r.status = .accepted)
      (amountMinor : r.amountMinor = r₀.amountMinor) (payer : r.payerUserId = r₀.payerUserId)
      (requester : r.requesterUserId = r₀.requesterUserId) (settles : Settles.By x y r₀ m)

lemma origin (h : Settlements x) (hstep : Performs P watched may now call x y) {r : MoneyRequest}
    (hr : r ∈ y.moneyRequests) : Origin x y r := by
  have hturn := hstep.turn r.id
  rw [Table.get?_of_mem hr] at hturn
  generalize hbefore : x.moneyRequests.get? r.id = before at hturn
  cases hturn with
  | same => exact .old hbefore
  | created pending unsettled bounded => exact .unpaid unsettled (by simp [pending])
  | @ended r₀ target reason justified pending unpaid =>
    exact .unpaid (h.unsettled (r := r₀) (Table.mem_of_get? hbefore) pending) unpaid
  | @accepted r₀ m justified pending settles =>
    exact .paid (Eq.refl r₀.id) rfl rfl rfl rfl rfl settles

/-- The step lemma. -/
lemma step (h : Settlements x) (hstep : Advances P watched may now call x y) : Settlements y := by
  have horigin : ∀ r ∈ y.moneyRequests, Origin x y r := fun r hr => h.origin hstep.performs hr
  have hpaid : ∀ {r₀ : MoneyRequest} {m : Movement}, Settles.By x y r₀ m →
      m.transfer ∈ y.transfers := fun hs => by
    rw [hs.transfers]
    exact (Movement.mem_transfers hs.enabled).mpr (.inr rfl)
  -- What was paid before was not paid by a new transfer.
  have hnew : ∀ r ∈ x.moneyRequests, ∀ {r₀ : MoneyRequest} {m : Movement}, Settles.By x y r₀ m →
      r.settledTransferId ≠ some m.transfer.id := by
    intro r hr r₀ m hs hid
    obtain ⟨-, t, ht, htid, -⟩ := h.settled r hr _ hid
    have hnone := (Table.has_eq_false _ _).mp hs.enabled.transfer
    rw [← htid, Table.get?_of_mem ht] at hnone
    cases hnone
  constructor
  · intro r hr id hid
    cases horigin r hr with
    | old found =>
      obtain ⟨hstatus, t, ht, htid, hsettlement⟩ := h.settled r (Table.mem_of_get? found) id hid
      obtain ⟨t', ht', hcore⟩ := hstep.later.transfers t ht
      have hid' : t'.id = t.id := (congrArg Transfer.id hcore :)
      exact ⟨hstatus, t', ht', hid'.trans htid, hsettlement.later hstep.later hcore⟩
    | unpaid none status =>
      rw [none] at hid
      cases hid
    | @paid r₀ m _ settled status amountMinor payer requester settles =>
      rw [settled] at hid
      cases hid
      refine ⟨status, m.transfer, hpaid settles, rfl, settles.type, ?_, ?_, ?_⟩
      · rw [amountMinor, settles.amountMinor]
      · rw [payer, m.source]
        exact settles.sender.later hstep.later
      · rw [requester, m.destination]
        exact settles.recipient.later hstep.later
  · intro r hr hstatus
    cases horigin r hr with
    | old found => exact h.accepted r (Table.mem_of_get? found) hstatus
    | unpaid none status => exact absurd hstatus status
    | paid _ settled =>
      rw [settled]
      rfl
  · intro r hr r' hr' hsome heq
    -- Of the others none is touched by a settlement.
    have hmixed : ∀ p ∈ y.moneyRequests, ∀ {r₀ : MoneyRequest} {m : Movement},
        Settles.By x y r₀ m → p.settledTransferId = some m.transfer.id → p.id = r₀.id := by
      intro p hp r₀ m hs hpid
      by_contra hne
      have hget := Table.get?_of_mem hp
      rw [hs.others p.id hne] at hget
      exact hnew p (Table.mem_of_get? hget) hs hpid
    cases horigin r hr with
    | old found =>
      cases horigin r' hr' with
      | old found' =>
        exact h.apart r (Table.mem_of_get? found) r' (Table.mem_of_get? found') hsome heq
      | unpaid none =>
        rw [heq, none] at hsome
        cases hsome
      | paid _ settled _ _ _ _ settles =>
        exact absurd (heq.trans settled) (hnew r (Table.mem_of_get? found) settles)
    | unpaid none =>
      rw [none] at hsome
      cases hsome
    | paid id settled _ _ _ _ settles =>
      have hid := hmixed r' hr' settles (heq.symm.trans settled)
      exact Table.eq_of_mem hr hr' (id.symm.trans hid.symm)
  · intro t ht htype
    by_cases hold : x.transfers.has t.id = true
    · obtain ⟨t₀, hget⟩ := Option.isSome_iff_exists.mp hold
      have ht₀ := Table.mem_of_get? hget
      have hid₀ : t₀.id = t.id := Table.key_of_get? hget
      obtain ⟨t', ht', hcore⟩ := hstep.later.transfers t₀ ht₀
      have hid' : t'.id = t₀.id := (congrArg Transfer.id hcore :)
      obtain rfl : t' = t := Table.eq_of_mem ht' ht (hid'.trans hid₀)
      have htype₀ : t₀.type = .requestSettlement := (congrArg Transfer.type hcore).symm.trans htype
      obtain ⟨r, hr, hsettled⟩ := h.all t₀ ht₀ htype₀
      have hstatus := (h.settled r hr _ hsettled).1
      have hturn := hstep.performs.turn r.id
      rw [Table.get?_of_mem hr] at hturn
      generalize hafter : y.moneyRequests.get? r.id = after at hturn
      cases hturn with
      | same => exact ⟨r, Table.mem_of_get? hafter, hsettled.trans (congrArg some hid₀)⟩
      | ended justified pending unpaid =>
        rw [hstatus] at pending
        cases pending
      | accepted justified pending settles =>
        rw [hstatus] at pending
        cases pending
    · cases hstep.performs.fresh ht (Bool.not_eq_true _ ▸ hold) with
      | settles found pending type row => exact ⟨_, Table.mem_of_get? row, rfl⟩
      | minted type => cases type.symm.trans htype
      | sent type => cases type.symm.trans htype
      | reverses type => cases type.symm.trans htype
      | pays schedule pays row => cases pays.type.symm.trans htype

end Settlements

/-! ### The guarantee -/

/-- The row of a request after a commit. -/
def Follows (r : Record) (q q' : MoneyRequest) : Prop :=
  q' = q ∨ q.status = .pending ∧ q'.status ≠ .pending ∧ Justified r.call r.now q q'.status

/-- A decline or a cancellation by this call. -/
def Terminates (call : Call) (requestId : Uuid) : Prop :=
  (∃ user reason context, call = .declineRequest user requestId reason context) ∨
    ∃ user context, call = .cancelRequest user requestId context

/-- Requests in a run. -/
structure RequestsHold (s : State) : Prop where
  /-- A commit leaves a request as it is, or ends one that was pending, as its call may. -/
  once : ∀ r ∈ s.history, ∀ q ∈ r.before.moneyRequests,
    ∃ q' ∈ r.after.moneyRequests, q'.id = q.id ∧ Follows r q q'
  /-- It is accepted iff exactly one transfer has settled it. -/
  accepted : ∀ q ∈ s.db.moneyRequests, q.status = .accepted ↔
    ∃! t, t ∈ s.db.transfers ∧ t.type = .requestSettlement ∧ q.settledTransferId = some t.id
  /-- That transfer pays it, and pays no other request. -/
  settlement : ∀ q ∈ s.db.moneyRequests, ∀ t ∈ s.db.transfers, q.settledTransferId = some t.id →
    Settlement s.db q t ∧ ∀ q' ∈ s.db.moneyRequests, q'.settledTransferId = some t.id → q' = q
  /-- Every settlement settles a request. -/
  settles : ∀ t ∈ s.db.transfers, t.type = .requestSettlement →
    ∃ q ∈ s.db.moneyRequests, q.settledTransferId = some t.id
  /-- The end of a request, and nothing else, is announced, once. -/
  announced : ∀ q ∈ s.db.moneyRequests, ∀ status type, status.announcement = some type →
    s.db.announced type q.id = if q.status = status then 1 else 0
  /-- A repeated decline or cancellation writes nothing. -/
  repeated : ∀ r ∈ s.history, ∀ q ∈ r.before.moneyRequests, Terminates r.call q.id →
    q.status ≠ .pending → r.after = r.before

/-- What one turn does to a row. -/
lemma Turn.follows {P : Platform} {r : Record} {q : MoneyRequest} {after : Option MoneyRequest}
    (h : Turn P r.now r.call r.before r.after (some q) after) :
    ∃ q', after = some q' ∧ q'.id = q.id ∧ Follows r q q' := by
  cases h with
  | same => exact ⟨q, rfl, rfl, .inl rfl⟩
  | @ended _ target reason justified pending unpaid =>
    refine ⟨_, rfl, rfl, .inr ⟨pending, ?_, justified⟩⟩
    rintro htarget
    change target = .pending at htarget
    rw [htarget] at justified
    exact justified
  | accepted justified pending settles => exact ⟨_, rfl, rfl, .inr ⟨pending, nofun, justified⟩⟩

/-- A repeat finds the request as it left it. -/
lemma CommitSpec.repeated {P : Platform} {watched : Token → Prop}
    {may : ℕ → Database → Token → Prop} {now : Timestamp} {call : Call} {reply : Reply}
    {x y : Database} (h : CommitSpec P watched may now call reply x y) {q : MoneyRequest}
    (hq : q ∈ x.moneyRequests) (hcall : Terminates call q.id) (hstatus : q.status ≠ .pending) :
    y = x := by
  have hterminated : ∀ {user target reason}, Terminated now user q.id target reason reply x y →
      y = x := by
    intro user target reason h
    cases h with
    | first found actor pending notes =>
      rw [Table.get?_of_mem hq] at found
      cases found
      exact absurd pending hstatus
    | again actor status => rfl
  rcases hcall with ⟨user, reason, context, rfl⟩ | ⟨user, context, rfl⟩
  · exact hterminated h
  · exact hterminated h

/-- Requests end once, and are paid once, in every run. -/
theorem requests_hold {P : Platform} {s : State} (h : Reachable P s) : RequestsHold s := by
  have hsound := h.sound
  have hdb : Settlements s.db := hsound.invariant .seed fun _ _ _ _ hstep hx => hx.step hstep
  have hsettlement : ∀ q ∈ s.db.moneyRequests, ∀ t ∈ s.db.transfers,
      q.settledTransferId = some t.id → q.status = .accepted ∧ Settlement s.db q t := by
    intro q hq t ht hid
    obtain ⟨hstatus, t', ht', heq, hs⟩ := hdb.settled q hq _ hid
    exact ⟨hstatus, Table.eq_of_mem ht' ht heq ▸ hs⟩
  constructor
  · intro r hr q hq
    have hturn := (hsound.advances hr).performs.turn q.id
    rw [Table.get?_of_mem hq] at hturn
    obtain ⟨q', hget, hid, hfollows⟩ := hturn.follows
    exact ⟨q', Table.mem_of_get? hget, hid, hfollows⟩
  · intro q hq
    constructor
    · intro hstatus
      obtain ⟨id, hid⟩ := Option.isSome_iff_exists.mp (hdb.accepted q hq hstatus)
      obtain ⟨-, t, ht, rfl, hs⟩ := hdb.settled q hq id hid
      refine ⟨t, ⟨ht, hs.type, hid⟩, ?_⟩
      rintro t' ⟨ht', -, hid'⟩
      exact Table.eq_of_mem ht' ht (Option.some.inj (hid'.symm.trans hid))
    · rintro ⟨t, ⟨ht, -, hid⟩, -⟩
      exact (hsettlement q hq t ht hid).1
  · intro q hq t ht hid
    refine ⟨(hsettlement q hq t ht hid).2, fun q' hq' hid' => ?_⟩
    exact hdb.apart q' hq' q hq (by rw [hid']; rfl) (hid'.trans hid.symm)
  · exact hdb.all
  · intro q hq status type htype
    have hrecorded : type.IsRecorded := by
      cases status <;> cases htype <;> exact ⟨nofun, nofun, nofun⟩
    have hcount := hsound.announced hrecorded q.id
    rw [Database.happened_request hq htype] at hcount
    split at hcount <;> rename_i hs
    · rw [if_pos hs]
      exact_mod_cast hcount
    · rw [if_neg hs]
      exact_mod_cast hcount
  · intro r hr q hq hcall hstatus
    exact (hsound.commits r hr).1.repeated hq hcall hstatus

/-- One request is accepted, one declined twice. -/
def requestRun : List Step :=
  session 0 100 asha ++ session 1 200 babu ++
    session 2 300 (.createRequest 200 "k" ⟨"01711111111", 2500, none, 7⟩ .null {}) ++
    session 3 400 (.createRequest 200 "l" ⟨"01711111111", 2500, none, 7⟩ .null {}) ++
    session 4 500 (.acceptRequest 100 304 "m" .null {}) ++
    session 5 600 (.declineRequest 100 404 none {}) ++
    session 6 700 (.declineRequest 100 404 none {})

theorem requests_hold_requestRun :
    (State.after sample requestRun).db.moneyRequests.rows.map MoneyRequest.status =
        [.accepted, .declined] ∧
      (State.after sample requestRun).history.map Commit.session = [0, 1, 2, 3, 4, 5, 6] ∧
      RequestsHold (State.after sample requestRun) :=
  ⟨by decide +kernel, by decide +kernel, requests_hold (reachable_after sample requestRun)⟩

end TakaFlow
