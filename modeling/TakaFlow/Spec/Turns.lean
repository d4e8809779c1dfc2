import TakaFlow.Spec.Money

/-!
# What effects do to requests

A request is created, ends once, in one of four ways, or is left alone.
-/

namespace TakaFlow

open Txn

/-! ### The table of requests -/

namespace Database

variable {d : Database} {r r' : MoneyRequest} {now : Timestamp} {rows : List MoneyRequest}
  {id : Uuid}

/-- The row an `UPDATE` of a request leaves. -/
lemma get?_setRequest (d : Database) (r : MoneyRequest) (id : Uuid) :
    (d.setRequest r).moneyRequests.get? id =
      if id = r.id then (d.moneyRequests.get? id).map fun q =>
        { q with
          status := r.status
          settledTransferId := r.settledTransferId
          declineReason := r.declineReason
          version := r.version
          updatedAt := r.updatedAt }
      else d.moneyRequests.get? id := by
  unfold setRequest
  by_cases h : id = r.id
  · rw [if_pos h, h, Table.get?_modify_self]
  · rw [if_neg h, Table.get?_modify_of_ne h]

lemma get?_setRequest_of_ne (h : id ≠ r.id) :
    (d.setRequest r).moneyRequests.get? id = d.moneyRequests.get? id := by
  rw [get?_setRequest, if_neg h]

lemma get?_transition {target : RequestStatus} {reason : Option String}
    (h : d.moneyRequests.get? r.id = some r) :
    (d.setRequest (r.transition target reason now)).moneyRequests.get? r.id =
      some (r.transition target reason now) := by
  have hid : r.id = (r.transition target reason now).id := rfl
  rw [get?_setRequest, if_pos hid, h]
  rfl

lemma get?_accept {transferId : Uuid} (h : d.moneyRequests.get? r.id = some r) :
    (d.setRequest (r.accept transferId now)).moneyRequests.get? r.id =
      some (r.accept transferId now) := by
  have hid : r.id = (r.accept transferId now).id := rfl
  rw [get?_setRequest, if_pos hid, h]
  rfl

/-- A batch expires its rows and no other. -/
lemma get?_expire_of_not_mem (h : id ∉ rows.map MoneyRequest.id) :
    (d.expire now rows).moneyRequests.get? id = d.moneyRequests.get? id := by
  induction rows generalizing d with
  | nil => rfl
  | cons q rows ih =>
    rw [List.map_cons, List.mem_cons, not_or] at h
    calc (d.expire now (q :: rows)).moneyRequests.get? id
        = (d.setRequest (q.transition .expired none now)).moneyRequests.get? id := ih h.2
      _ = d.moneyRequests.get? id := get?_setRequest_of_ne h.1

lemma get?_expire (hr : r ∈ rows) (hfound : ∀ q ∈ rows, d.moneyRequests.get? q.id = some q)
    (hapart : (rows.map MoneyRequest.id).Nodup) :
    (d.expire now rows).moneyRequests.get? r.id = some (r.transition .expired none now) := by
  induction rows generalizing d with
  | nil => cases hr
  | cons q rows ih =>
    rw [List.map_cons, List.nodup_cons] at hapart
    have hne : ∀ p ∈ rows, p.id ≠ q.id :=
      fun p hp heq => hapart.1 (heq ▸ List.mem_map_of_mem hp)
    rcases List.mem_cons.mp hr with rfl | hr
    · calc (d.expire now (r :: rows)).moneyRequests.get? r.id
          = (d.setRequest (r.transition .expired none now)).moneyRequests.get? r.id :=
            get?_expire_of_not_mem hapart.1
        _ = some (r.transition .expired none now) := get?_transition (hfound r hr)
    · refine ih hr (fun p hp => ?_) hapart.2
      rw [get?_setRequest_of_ne (r := q.transition .expired none now) (hne p hp)]
      exact hfound p (List.mem_cons_of_mem _ hp)

lemma get?_insertRequests_of_not_mem (h : id ∉ rows.map MoneyRequest.id) :
    (d.insertRequests rows).moneyRequests.get? id = d.moneyRequests.get? id := by
  induction rows generalizing d with
  | nil => rfl
  | cons q rows ih =>
    rw [List.map_cons, List.mem_cons, not_or] at h
    calc (d.insertRequests (q :: rows)).moneyRequests.get? id
        = (d.insertRequest q).moneyRequests.get? id := ih h.2
      _ = d.moneyRequests.get? id := Table.get?_insert_of_ne (Ne.symm h.1)

lemma get?_insertRequests (hr : r ∈ rows) (hunused : ∀ q ∈ rows, d.moneyRequests.has q.id = false)
    (hapart : (rows.map MoneyRequest.id).Nodup) :
    (d.insertRequests rows).moneyRequests.get? r.id = some r := by
  induction rows generalizing d with
  | nil => cases hr
  | cons q rows ih =>
    rw [List.map_cons, List.nodup_cons] at hapart
    have hnone := (Table.has_eq_false _ _).mp (hunused q List.mem_cons_self)
    rcases List.mem_cons.mp hr with rfl | hr
    · calc (d.insertRequests (r :: rows)).moneyRequests.get? r.id
          = (d.insertRequest r).moneyRequests.get? r.id :=
            get?_insertRequests_of_not_mem hapart.1
        _ = some r := Table.get?_insert_self hnone
    · refine ih hr (fun p hp => ?_) hapart.2
      have hne : q.id ≠ p.id := fun heq => hapart.1 (heq ▸ List.mem_map_of_mem hp)
      change (d.moneyRequests.insert q).has p.id = false
      rw [Table.has_insert, hunused p (List.mem_cons_of_mem _ hp), decide_eq_false hne]
      rfl

end Database

/-! ### One request -/

section

variable (P : Platform) (now : Timestamp) (call : Call) (x y : Database)

/-- What a request may be created for. -/
def Bounded (call : Call) (amountMinor : ℤ) : Prop :=
  Within P amountMinor ∨ ∃ user key input raw context shares,
    call = .createSplit user key input raw context ∧ Shares P input shares ∧
      amountMinor ∈ legShares input shares

/-- A settlement of a request: the movement a commit makes. -/
structure Settles.By (r : MoneyRequest) (m : Movement) : Prop where
  sender : Owns r.payerUserId m.sender.id x
  recipient : Owns r.requesterUserId m.receiver.id x
  amountMinor : m.transfer.amountMinor = r.amountMinor
  type : m.transfer.type = .requestSettlement
  enabled : m.Enabled x
  transfers : y.transfers = (m.apply x).transfers
  others : ∀ id, id ≠ r.id → y.moneyRequests.get? id = x.moneyRequests.get? id

/-- The row of one request before and after a commit. -/
inductive Turn : Option MoneyRequest → Option MoneyRequest → Prop where
  | same (o : Option MoneyRequest) : Turn o o
  | created {r : MoneyRequest} (pending : r.status = .pending)
      (unsettled : r.settledTransferId = none) (bounded : Bounded P call r.amountMinor)
      (payer : r.splitId.isSome → ∃ accountId, Owns r.payerUserId accountId x) :
      Turn none (some r)
  | ended {r : MoneyRequest} {target : RequestStatus} {reason : Option String}
      (justified : Justified call now r target) (pending : r.status = .pending)
      (unpaid : target ≠ .accepted) : Turn (some r) (some (r.transition target reason now))
  | accepted {r : MoneyRequest} {m : Movement} (justified : Justified call now r .accepted)
      (pending : r.status = .pending) (settles : Settles.By x y r m) :
      Turn (some r) (some (r.accept m.transfer.id now))

end

variable {P : Platform} {watched : Token → Prop} {may : ℕ → Database → Token → Prop}
  {now : Timestamp} {call : Call} {x y : Database}

lemma Termination.unpaid (target : Termination) : target.status ≠ .accepted := by
  cases target <;> nofun

/-- Every request takes one of these turns. -/
theorem Performs.turn (h : Performs P watched may now call x y) (id : Uuid) :
    Turn P now call x y (x.moneyRequests.get? id) (y.moneyRequests.get? id) := by
  obtain ⟨z, contents, h, hcore, -⟩ := h
  have hrequests : y.moneyRequests = z.moneyRequests := (congrArg Database.moneyRequests hcore :)
  have htransfers : y.transfers = z.transfers := (congrArg Database.transfers hcore :)
  rw [hrequests]
  cases h with
  | @requested rows unused apart pending unsettled bounded payers =>
    by_cases hid : id ∈ rows.map MoneyRequest.id
    · obtain ⟨r, hr, rfl⟩ := List.mem_map.mp hid
      rw [Database.get?_insertRequests hr unused apart, (Table.has_eq_false _ _).mp (unused r hr)]
      exact .created (pending r hr) (unsettled r hr) (bounded r hr) (payers r hr)
    · rw [Database.get?_insertRequests_of_not_mem hid]
      exact .same _
  | @accepted r m justified found pending sender recipient capped settles enabled executes =>
    obtain ⟨keyId, executes⟩ := executes
    by_cases hid : id = r.id
    · have hfound : (m.apply x).moneyRequests.get? r.id = some r := found
      rw [hid, found, Database.get?_accept hfound]
      refine .accepted justified pending
        ⟨sender, recipient, executes.amountMinor, executes.type, enabled, htransfers, ?_⟩
      intro i hi
      rw [hrequests, Database.get?_setRequest_of_ne (r := r.accept m.transfer.id now) hi]
      rfl
    · rw [Database.get?_setRequest_of_ne (r := r.accept m.transfer.id now) hid]
      exact .same _
  | @terminated r target reason justified found pending =>
    by_cases hid : id = r.id
    · rw [hid, found, Database.get?_transition found]
      exact .ended justified pending target.unpaid
    · rw [Database.get?_setRequest_of_ne (r := r.transition target.status reason now) hid]
      exact .same _
  | @expired rows justified found pending apart =>
    by_cases hid : id ∈ rows.map MoneyRequest.id
    · obtain ⟨r, hr, rfl⟩ := List.mem_map.mp hid
      rw [Database.get?_expire hr found apart, found r hr]
      exact .ended (justified r hr) (pending r hr) nofun
    · rw [Database.get?_expire_of_not_mem hid]
      exact .same _
  | deferred called due upserted attempts =>
    rw [upserted.rest]
    exact .same _
  | settled called due upserted outcome =>
    rw [upserted.rest]
    exact .same _
  | paid called due upserted sender recipient capped enabled executes =>
    rw [upserted.rest]
    exact .same _
  | idle => exact .same _
  | registered => exact .same _
  | sent => exact .same _
  | reversed => exact .same _
  | scheduled => exact .same _
  | rescheduled => exact .same _
  | status => exact .same _

end TakaFlow
