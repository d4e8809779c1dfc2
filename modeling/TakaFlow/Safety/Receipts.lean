import TakaFlow.Safety.Books
import TakaFlow.Spec.Bank

/-!
# Receipts are backed

What a payment, a settlement or a reversal answers is what the books say at that commit, and they
say so ever after.
-/

namespace TakaFlow

open Txn

/-- The user a money endpoint answers with the user's own balance. -/
def Call.holder? : Call → Option Uuid
  | .sendMoney user _ _ _ _ => some user
  | .acceptRequest user _ _ _ _ => some user
  | .reverseTransfer user _ _ _ _ => some user
  | _ => none

/-- The body tells of this transfer, and shows the balance of this entry of it. -/
inductive Tells (t : Transfer) (e : LedgerEntry) : Json → Prop where
  | sent {posted : PostedTransfer} {payee : PayeeAccount} {flagged : Bool}
      (reference : posted.reference = t.reference) (amount : posted.amountMinor = t.amountMinor)
      (type : posted.type = t.type) (createdAt : posted.createdAt = t.createdAt)
      (direction : e.direction = .debit) (balance : posted.senderBalanceAfter = e.balanceAfter) :
      Tells t e (transferReceipt posted payee flagged)
  | accepted {request : MoneyRequest} {user : Uuid} {requester : Option User}
      {posted : PostedTransfer} (reference : posted.reference = t.reference)
      (amount : posted.amountMinor = t.amountMinor) (settled : posted.id = t.id)
      (createdAt : posted.createdAt = t.createdAt) (asked : request.amountMinor = t.amountMinor)
      (direction : e.direction = .debit) (balance : posted.senderBalanceAfter = e.balanceAfter) :
      Tells t e (acceptResult request user requester posted)
  | reversed {original : Transfer} {posted : PostedTransfer}
      (reference : posted.reference = t.reference) (original_ : t.reversalOf = some original.id)
      (amount : original.amountMinor = t.amountMinor) (createdAt : posted.createdAt = t.createdAt)
      (direction : e.direction = .credit) (balance : posted.receiverBalanceAfter = e.balanceAfter) :
      Tells t e (reversalResult original posted)

/-- The transfer is there but for its status, and the entry with it, in an account of the user. -/
structure InBooks (user : Uuid) (t : Transfer) (e : LedgerEntry) (d : Database) : Prop where
  transfer : ∃ t' ∈ d.transfers, t'.core = t.core
  entry : e ∈ d.ledgerEntries
  transferId : e.transferId = t.id
  owner : Owns user e.accountId d

/-- A receipt of a commit that led to `x`, in a later state. -/
def Backed (user : Uuid) (body : Json) (x d : Database) : Prop :=
  ∃ t e, Tells t e body ∧ InBooks user t e d ∧
    ∃ a, x.accounts.get? e.accountId = some a ∧ a.balanceMinor = e.balanceAfter

section

variable {P : Platform} {watched : Token → Prop} {may : ℕ → Database → Token → Prop}
  {now : Timestamp} {call : Call} {reply : Reply} {x y z d : Database} {m : Movement}
  {user : Uuid} {body : Json} {order : Option BankOrder}

/-- Entries stay. -/
lemma Turns.entries (h : Turns P x y order) : ∀ e ∈ x.ledgerEntries, e ∈ y.ledgerEntries := by
  have happly : ∀ {m : Movement} {z : Database}, m.Enabled z → z.ledgerEntries = x.ledgerEntries →
      y.books = (m.apply z).books → ∀ e ∈ x.ledgerEntries, e ∈ y.ledgerEntries := by
    intro m z henabled hz books e he
    rw [(Database.tables_of_books books).2.2, Table.mem_def, Movement.entries_apply henabled, hz]
    exact List.mem_append_left _ he
  intro e he
  cases h with
  | rest users books => exact (Database.tables_of_books books).2.2 ▸ he
  | set found legal users books => exact (Database.tables_of_books books).2.2 ▸ he
  | pay accounts entries transfers type enabled users books =>
    exact happly enabled entries books e he
  | enrol userUnused phone unused row enabled stripe receiver type amount users books =>
    exact happly enabled rfl books e he

lemma Backed.step (h : Backed user body z x) (ht : Turns P x y order) (hl : Later x y) :
    Backed user body z y := by
  obtain ⟨t, e, htells, hbooks, hbalance⟩ := h
  refine ⟨t, e, htells, ⟨?_, ht.entries e hbooks.entry, hbooks.transferId, ?_⟩, hbalance⟩
  · obtain ⟨t', ht', hcore⟩ := hbooks.transfer
    obtain ⟨t'', ht'', hcore'⟩ := hl.transfers t' ht'
    exact ⟨t'', ht'', hcore'.trans hcore⟩
  · exact hbooks.owner.later hl

/-- The debit of a movement, in the state it leaves. -/
lemma Movement.backed_debit (h : m.Enabled z) (hy : y.books = (m.apply z).books)
    (howns : Owns user m.sender.id y) (htells : Tells m.transfer m.debit body) :
    Backed user body y y := by
  obtain ⟨haccounts, htransfers, hentries⟩ := Database.tables_of_books hy
  refine ⟨m.transfer, m.debit, htells, ⟨⟨m.transfer, ?_, rfl⟩, ?_, rfl, ?_⟩, ?_⟩
  · rw [htransfers]
    exact (Movement.mem_transfers h).mpr (.inr rfl)
  · rw [hentries, Table.mem_def, Movement.entries_apply h]
    simp
  · change Owns user m.transfer.fromAccountId y
    rw [m.source]
    exact howns
  · refine ⟨m.sender.addBalance (-m.transfer.amountMinor), ?_, rfl⟩
    change y.accounts.get? m.transfer.fromAccountId = _
    rw [haccounts, Movement.account_apply h, m.source, if_pos rfl]

/-- The credit of a movement. -/
lemma Movement.backed_credit (h : m.Enabled z) (hy : y.books = (m.apply z).books)
    (howns : Owns user m.receiver.id y) (htells : Tells m.transfer m.credit body) :
    Backed user body y y := by
  obtain ⟨haccounts, htransfers, hentries⟩ := Database.tables_of_books hy
  refine ⟨m.transfer, m.credit, htells, ⟨⟨m.transfer, ?_, rfl⟩, ?_, rfl, ?_⟩, ?_⟩
  · rw [htransfers]
    exact (Movement.mem_transfers h).mpr (.inr rfl)
  · rw [hentries, Table.mem_def, Movement.entries_apply h]
    simp
  · change Owns user m.transfer.toAccountId y
    rw [m.destination]
    exact howns
  · refine ⟨m.receiver.addBalance m.transfer.amountMinor, ?_, rfl⟩
    change y.accounts.get? m.transfer.toAccountId = _
    rw [haccounts, Movement.account_apply h, m.destination, if_neg m.apart.symm, if_pos rfl]

/-- The commit of a money endpoint that is no replay. -/
lemma CommitSpec.backed {status : ℕ}
    (h : CommitSpec P watched may now call (.outcome status body false) x y) (hl : Later x y)
    (huser : call.holder? = some user) : Backed user body y y := by
  cases call with
  | sendMoney user' key input raw context =>
    cases huser
    cases h.2 with
    | fresh hclaim hwork hkeys =>
      obtain ⟨m, payee, rfl, hs⟩ := hwork
      have howns : Owns user m.sender.id x := hs.sender
      refine Movement.backed_debit hs.enabled hs.notes.turns.2 (howns.later hl) ?_
      exact .sent rfl rfl rfl rfl rfl rfl
  | acceptRequest user' id key raw context =>
    cases huser
    cases h with
    | fresh hclaim hwork hkeys =>
      obtain ⟨request, m, requester, rfl, hr⟩ := hwork
      have howns : Owns user m.sender.id x := hr.sender
      refine Movement.backed_debit hr.enabled hr.notes.turns.2 (howns.later hl) ?_
      exact .accepted rfl rfl rfl rfl hr.executes.amountMinor.symm rfl rfl
  | reverseTransfer user' reference key raw context =>
    cases huser
    cases h with
    | fresh hclaim hwork hkeys =>
      obtain ⟨original, m, rfl, hr⟩ := hwork
      have hreceiver : m.receiver.id = original.fromAccountId := hr.executes.receiver
      have howns : Owns user original.fromAccountId x := hr.sender
      rw [← hreceiver] at howns
      refine Movement.backed_credit hr.enabled hr.notes.turns.2 (howns.later hl) ?_
      exact .reversed rfl hr.executes.reversalOf hr.executes.amountMinor.symm rfl rfl rfl
  | _ => cases huser

end

/-- Every receipt of a payment, a settlement or a reversal names a transfer of that amount and
shows the balance of the caller after it: it is the balance of the account at that commit, and the
entry that says so is in the books in every later state. -/
theorem receipts_backed {P : Platform} {s : State} (h : Reachable P s) :
    ∀ r ∈ s.history, ∀ user status body, r.call.holder? = some user →
      r.reply = .outcome status body false → Backed user body r.after s.db := by
  have hsound := h.sound
  refine hsound.linked.accumulate (I := fun done d => ∀ r ∈ done, ∀ user status body,
    r.call.holder? = some user → r.reply = .outcome status body false →
      Backed user body r.after d) (fun r hr => absurd hr List.not_mem_nil) ?_
  intro done r hr hdone q hq user status body huser hreply
  obtain ⟨hspec, hlater⟩ := hsound.commits r hr
  obtain hq | hq := List.mem_append.mp hq
  · obtain ⟨order, -, hturns⟩ := hspec.turns
    exact (hdone q hq user status body huser hreply).step hturns hlater
  · cases List.mem_singleton.mp hq
    rw [hreply] at hspec
    exact hspec.backed hlater huser

/-- Asha is told what she has left. -/
theorem receipts_backed_sampleRun :
    ((State.after sample sampleRun).history.filter fun r => r.call.holder?.isSome).length = 1 ∧
      ∀ r ∈ (State.after sample sampleRun).history, ∀ user status body,
        r.call.holder? = some user → r.reply = .outcome status body false →
          Backed user body r.after (State.after sample sampleRun).db :=
  ⟨by decide +kernel, receipts_backed (reachable_after sample sampleRun)⟩

end TakaFlow
