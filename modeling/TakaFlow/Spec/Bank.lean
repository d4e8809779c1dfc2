import TakaFlow.Lib.Bank
import TakaFlow.Spec.Money

/-!
# The bank behind the calls

Seen from its accounts alone the backend is a bank that serves orders. `Orders` says which order a
call gives and what its reply says of it; `Turns` is what a commit that serves it writes.
-/

namespace TakaFlow

open Txn Banking

/-- What the statuses of an account allow. Only a console ever touches a closed one. -/
def accountRules : Rules AccountStatus where
  opening := .active
  pays status := status = .active
  receives status := status ≠ .closed
  follows status next := status ≠ .closed ∨ next = .closed

def Account.purse (a : Account) : Purse Uuid AccountStatus :=
  { owner := a.userId, status := a.status, balance := a.balanceMinor }

/-- The accounts as purses. -/
def Database.bank (d : Database) : Bank Uuid Uuid AccountStatus :=
  fun id => (d.accounts.get? id).map Account.purse

abbrev BankOrder : Type := Order Uuid Uuid AccountStatus

/-- The calls that give no order, whatever they reply. -/
def Call.quiet : Call → Bool
  | .createRequest _ _ _ _ _ => true
  | .declineRequest _ _ _ _ => true
  | .cancelRequest _ _ _ => true
  | .expireRequests _ => true
  | .createSplit _ _ _ _ _ => true
  | .createSchedule _ _ _ _ _ => true
  | .pauseSchedule _ _ _ => true
  | .resumeSchedule _ _ _ => true
  | .cancelSchedule _ _ _ => true
  | .makeScheduleDue _ => true
  | _ => false

/-- The order that a call gives the bank when it commits with this reply. -/
inductive Orders (P : Platform) (x : Database) : Call → Reply → Option BankOrder → Prop where
  | registers {input : RegisterInput} {context : RequestContext} {reply : Reply}
      {user account stripe : Uuid} :
      Orders P x (.register input context) reply
        (some (.enrol user account stripe P.config.signupBonusMinor))
  | sends {user payeeUser payer payee : Uuid} {key : String} {input : CreateTransferInput}
      {raw body : Json} {context : RequestContext} {status : ℕ} (sender : Owns user payer x)
      (recipient : Owns payeeUser payee x) :
      Orders P x (.sendMoney user key input raw context) (.outcome status body false)
        (some (.pay payer payee input.amountMinor))
  | accepts {user request payer payee : Uuid} {key : String} {raw body : Json}
      {context : RequestContext} {status : ℕ} {r : MoneyRequest}
      (found : x.moneyRequests.get? request = some r) (pending : r.status = .pending)
      (payerUser : r.payerUserId = user) (sender : Owns user payer x)
      (recipient : Owns r.requesterUserId payee x) :
      Orders P x (.acceptRequest user request key raw context) (.outcome status body false)
        (some (.pay payer payee r.amountMinor))
  | reverses {user : Uuid} {reference key : String} {raw body : Json} {context : RequestContext}
      {status : ℕ} {original : Transfer} (found : original ∈ x.transfers)
      (named : original.reference = reference) (standing : original.status = .completed)
      (type : original.type ≠ .mint ∧ original.type ≠ .reversal)
      (sender : Owns user original.fromAccountId x) :
      Orders P x (.reverseTransfer user reference key raw context) (.outcome status body false)
        (some (.pay original.toAccountId original.fromAccountId original.amountMinor))
  | runs {id payer payee : Uuid} {s : Schedule} (found : x.schedules.get? id = some s)
      (active : s.status = .active) (sender : Owns s.ownerUserId payer x)
      (recipient : Owns s.payeeUserId payee x) :
      Orders P x (.runSchedule id) (.run .paid) (some (.pay payer payee s.amountMinor))
  | freezes {user account : Uuid} {frozen : Bool} {context : RequestContext} {reply : Reply}
      (owner : Owns user account x) :
      Orders P x (.setOwnFreeze user frozen context) reply
        (some (.set account (if frozen then .frozen else .active)))
  | frozenAlready {user : Uuid} {account : Account} {frozen : Bool} {context : RequestContext}
      {reply : Reply} (owner : Owns user account.id x)
      (found : x.accounts.get? account.id = some account)
      (status : account.status = if frozen then .frozen else .active) :
      Orders P x (.setOwnFreeze user frozen context) reply none
  | sets {user account : Uuid} {status : OperatorStatus} {reason : Option String}
      {actorLabel : String} {context : RequestContext} {reply : Reply}
      (owner : Owns user account x) :
      Orders P x (.setAccountStatus user status reason actorLabel context) reply
        (some (.set account status.status))
  | closes {user account : Uuid} {reply : Reply} (owner : Owns user account x) :
      Orders P x (.closeAccount user) reply (some (.set account .closed))
  | closesNone {user : Uuid} {reply : Reply} : Orders P x (.closeAccount user) reply none
  | replays {call : Call} {status : ℕ} {body : Json} :
      Orders P x call (.outcome status body true) none
  | waits {id : Uuid} {outcome : RunOutcome} (unpaid : outcome ≠ .paid) :
      Orders P x (.runSchedule id) (.run outcome) none
  | quiet {call : Call} {reply : Reply} (quiet : call.quiet = true) : Orders P x call reply none

/-- What the commit of an order does to users, accounts, transfers and entries. -/
inductive Turns (P : Platform) (x y : Database) : Option BankOrder → Prop where
  | rest (users : y.users = x.users) (books : y.books = x.books) : Turns P x y none
  | enrol {user : User} {account : Account} {m : Movement}
      (userUnused : x.users.has user.id = false) (phone : x.userByPhone user.phone = none)
      (unused : x.accounts.has account.id = false)
      (row : account = newAccount account.id user.id)
      (enabled : m.Enabled (x.insertAccount account)) (stripe : m.sender.id ∈ treasuryAccountIds)
      (receiver : m.receiver.id = account.id) (type : m.transfer.type = .mint)
      (amount : m.transfer.amountMinor = P.config.signupBonusMinor)
      (users : y.users = x.users.insert user)
      (books : y.books = (m.apply (x.insertAccount account)).books) :
      Turns P x y (some (.enrol user.id account.id m.sender.id P.config.signupBonusMinor))
  | pay {m : Movement} {z : Database} (accounts : z.accounts = x.accounts)
      (entries : z.ledgerEntries = x.ledgerEntries)
      (transfers : ∀ t ∈ z.transfers, ∃ t' ∈ x.transfers, t'.core = t.core)
      (type : m.transfer.type ≠ .mint) (enabled : m.Enabled z) (users : y.users = x.users)
      (books : y.books = (m.apply z).books) :
      Turns P x y (some (.pay m.sender.id m.receiver.id m.transfer.amountMinor))
  | set {a : Account} {status : AccountStatus} {version : ℕ}
      (found : x.accounts.get? a.id = some a) (legal : a.status ≠ .closed ∨ status = .closed)
      (users : y.users = x.users)
      (books : y.books = (x.setAccount { a with status, version }).books) :
      Turns P x y (some (.set a.id status))

section turns

variable {P : Platform} {watched : Token → Prop} {may : ℕ → Database → Token → Prop}
  {now : Timestamp} {call : Call} {reply : Reply} {x y z : Database} {order : Option BankOrder}

/-- Events and audit rows are no business of the bank. -/
lemma Notes.turns {contents : List Content} (h : Notes now contents z y) :
    y.users = z.users ∧ y.books = z.books := by
  rw [h.rest]
  exact ⟨rfl, rfl⟩

lemma Turns.congr {y' : Database} (h : Turns P x y order) (hu : y'.users = y.users)
    (hb : y'.books = y.books) : Turns P x y' order := by
  cases h with
  | rest users books => exact .rest (hu.trans users) (hb.trans books)
  | enrol userUnused phone unused row enabled stripe receiver type amount users books =>
    exact .enrol userUnused phone unused row enabled stripe receiver type amount (hu.trans users)
      (hb.trans books)
  | pay accounts entries transfers type enabled users books =>
    exact .pay accounts entries transfers type enabled (hu.trans users) (hb.trans books)
  | set found legal users books => exact .set found legal (hu.trans users) (hb.trans books)

lemma Turns.refl (x : Database) : Turns P x x none := .rest rfl rfl

/-- A movement in a state with the same tables of the ledger. -/
lemma Turns.moved {m : Movement} (type : m.transfer.type ≠ .mint) (enabled : m.Enabled x)
    (users : y.users = x.users) (books : y.books = (m.apply x).books) :
    Turns P x y (some (.pay m.sender.id m.receiver.id m.transfer.amountMinor)) :=
  .pay rfl rfl (fun t ht => ⟨t, ht, rfl⟩) type enabled users books

/-- What is done under an idempotency key is done from the state before it. -/
lemma Idempotent.turns {userId : Uuid} {key endpoint requestHash : String}
    {work : Uuid → ℕ × Json → Database → Database → Prop}
    (h : Idempotent userId key endpoint requestHash work now reply x y)
    (hwork : ∀ r result e status body, work r.id result (x.insertKey r) e →
      reply = .outcome status body false → ∃ order, Orders P x call reply order ∧
        Turns P x e order) :
    ∃ order, Orders P x call reply order ∧ Turns P x y order := by
  cases h with
  | replay => exact ⟨none, .replays, .refl x⟩
  | @fresh _ e _ result _ hdone _ =>
    obtain ⟨order, horders, hturns⟩ := hwork (claimRow _ _ _ _ _ _) result e _ _ hdone rfl
    exact ⟨order, horders, hturns.congr rfl rfl⟩

lemma Transitioned.turns {userId scheduleId : Uuid} {target : ScheduleTarget}
    (h : Transitioned now userId scheduleId target reply x y) : Turns P x y none := by
  cases h with
  | first found owner legal notes => exact .rest notes.turns.1 notes.turns.2
  | again => exact .refl x

lemma Terminated.turns {userId requestId : Uuid} {target : Termination} {reason : Option String}
    (h : Terminated now userId requestId target reason reply x y) : Turns P x y none := by
  cases h with
  | first found actor pending notes => exact .rest notes.turns.1 notes.turns.2
  | again => exact .refl x

/-- A run pays what its schedule says, or leaves the accounts alone. -/
lemma Ran.turns {scheduleId : Uuid} {outcome : RunOutcome}
    (h : Ran P watched now scheduleId outcome x y) :
    ∃ order, Orders P x (.runSchedule scheduleId) (.run outcome) order ∧ Turns P x y order := by
  cases h with
  | notClaimed => exact ⟨none, .waits RunOutcome.noConfusion, .refl x⟩
  | duplicate => exact ⟨none, .waits RunOutcome.noConfusion, .rest rfl rfl⟩
  | skipped due upserted late notes =>
    refine ⟨none, .waits RunOutcome.noConfusion, ?_⟩
    obtain ⟨hu, hb⟩ := notes.turns
    rw [upserted.rest] at hu hb
    exact .rest hu hb
  | failed due upserted notes =>
    refine ⟨none, .waits RunOutcome.noConfusion, ?_⟩
    obtain ⟨hu, hb⟩ := notes.turns
    rw [upserted.rest] at hu hb
    exact .rest hu hb
  | deferred due upserted attempts later =>
    refine ⟨none, .waits RunOutcome.noConfusion, ?_⟩
    rw [upserted.rest]
    exact .rest rfl rfl
  | @paid _ _ _ s _ m due upserted inTime sender recipient capped enabled executes notes =>
    obtain ⟨hu, hb⟩ := notes.turns
    have hrest := upserted.rest
    rw [hrest] at hu hb
    have henabled := enabled.congr (x := x) (by rw [hrest]) (by rw [hrest]) (by rw [hrest])
    have hamount : m.transfer.amountMinor = s.amountMinor := executes.amountMinor
    refine ⟨_, .runs due.found due.active sender recipient, ?_⟩
    rw [← hamount]
    refine .moved (fun ht => ?_) henabled hu hb
    rw [executes.type] at ht
    cases ht

/-- Every commit serves at most one order, the one its call has given. -/
theorem CommitSpec.turns (h : CommitSpec P watched may now call reply x y) :
    ∃ order, Orders P x call reply order ∧ Turns P x y order := by
  cases call with
  | register input context =>
    obtain ⟨user, account, m, z, h⟩ := h
    obtain ⟨token, rfl⟩ := h.session
    obtain ⟨hu, hb⟩ := h.notes.turns
    have hphone : user.phone = input.phone := by rw [h.userRow]; rfl
    refine ⟨some (.enrol user.id account.id m.sender.id P.config.signupBonusMinor), .registers, ?_⟩
    exact .enrol h.userUnused (hphone.symm ▸ h.phone) h.accountUnused h.accountRow
      (h.enabled.congr rfl rfl rfl) h.stripe h.executes.receiver h.executes.type
      h.executes.amountMinor hu hb
  | sendMoney user key input raw context =>
    refine h.2.turns fun r result e status body hdone hreply => ?_
    obtain ⟨m, payee, -, hs⟩ := hdone
    obtain ⟨hu, hb⟩ := hs.notes.turns
    rw [hreply]
    refine ⟨_, .sends hs.sender hs.recipient, ?_⟩
    have hamount : m.transfer.amountMinor = input.amountMinor := hs.executes.amountMinor
    rw [← hamount]
    refine .moved (fun ht => ?_) (hs.enabled.congr rfl rfl rfl) hu hb
    rw [hs.executes.type] at ht
    cases ht
  | reverseTransfer user reference key raw context =>
    refine Idempotent.turns h fun r result e status body hdone hreply => ?_
    obtain ⟨original, m, -, hr⟩ := hdone
    obtain ⟨hu, hb⟩ := hr.notes.turns
    rw [hreply]
    refine ⟨_, .reverses hr.found hr.named hr.standing hr.type hr.sender, ?_⟩
    have hsender : m.sender.id = original.toAccountId := hr.executes.sender
    have hreceiver : m.receiver.id = original.fromAccountId := hr.executes.receiver
    have hamount : m.transfer.amountMinor = original.amountMinor := hr.executes.amountMinor
    rw [← hsender, ← hreceiver, ← hamount]
    refine .pay rfl rfl (fun t ht => ?_) (fun ht => ?_)
      (z := x.setTransfer original.reversed) (hr.enabled.congr rfl rfl rfl) hu hb
    · obtain ⟨u, hmem, rfl⟩ := Database.mem_setTransfer.mp ht
      refine ⟨u, hmem, ?_⟩
      split <;> rfl
    · rw [hr.executes.type] at ht
      cases ht
  | createRequest user key input raw context =>
    refine h.2.turns fun r result e status body hdone _ => ⟨none, .quiet rfl, ?_⟩
    obtain ⟨payer, created, -, hr⟩ := hdone
    exact .rest hr.notes.turns.1 hr.notes.turns.2
  | acceptRequest user id key raw context =>
    refine Idempotent.turns h fun r result e status body hdone hreply => ?_
    obtain ⟨request, m, requester, -, hr⟩ := hdone
    obtain ⟨hu, hb⟩ := hr.notes.turns
    rw [hreply]
    refine ⟨_, .accepts hr.found hr.pending hr.payer hr.sender hr.recipient, ?_⟩
    have hamount : m.transfer.amountMinor = request.amountMinor := hr.executes.amountMinor
    rw [← hamount]
    refine .moved (fun ht => ?_) (hr.enabled.congr rfl rfl rfl) hu hb
    rw [hr.executes.type] at ht
    cases ht
  | declineRequest user request reason context => exact ⟨none, .quiet rfl, Terminated.turns h⟩
  | cancelRequest user request context => exact ⟨none, .quiet rfl, Terminated.turns h⟩
  | expireRequests batchSize =>
    obtain ⟨rows, -, h⟩ := h
    obtain ⟨hu, hb⟩ := h.notes.turns
    rw [Database.expire_rest] at hu hb
    exact ⟨none, .quiet rfl, .rest hu hb⟩
  | createSplit user key input raw context =>
    obtain ⟨shares, -, h⟩ := h
    refine h.turns fun r result e status body hdone _ => ⟨none, .quiet rfl, ?_⟩
    obtain ⟨payers, split, created, hr⟩ := hdone
    obtain ⟨hu, hb⟩ := hr.notes.turns
    rw [Database.insertRequests_rest] at hu hb
    exact .rest hu hb
  | createSchedule user key input raw context =>
    refine h.2.turns fun r result e status body hdone _ => ⟨none, .quiet rfl, ?_⟩
    obtain ⟨payee, created, -, hs⟩ := hdone
    exact .rest hs.notes.turns.1 hs.notes.turns.2
  | pauseSchedule user id context => exact ⟨none, .quiet rfl, Transitioned.turns h⟩
  | resumeSchedule user id context => exact ⟨none, .quiet rfl, Transitioned.turns h⟩
  | cancelSchedule user id context => exact ⟨none, .quiet rfl, Transitioned.turns h⟩
  | makeScheduleDue id =>
    obtain ⟨s, h⟩ := h
    rw [h.row]
    exact ⟨none, .quiet rfl, .rest rfl rfl⟩
  | runSchedule id =>
    obtain ⟨outcome, rfl, h⟩ := h
    exact h.turns
  | setOwnFreeze user frozen context =>
    cases h with
    | same owner found status => exact ⟨none, .frozenAlready owner found status, .refl x⟩
    | set owner found notClosed notes =>
      obtain ⟨hu, hb⟩ := notes.turns
      exact ⟨_, .freezes owner, .set found (.inl notClosed) hu hb⟩
  | setAccountStatus user status reason label context =>
    obtain ⟨account, h⟩ := h
    obtain ⟨hu, hb⟩ := h.notes.turns
    exact ⟨_, .sets h.owner, .set h.found (.inl h.notClosed) hu hb⟩
  | closeAccount user =>
    cases h with
    | none => exact ⟨none, .closesNone, .refl x⟩
    | set owner found => exact ⟨_, .closes owner, .set found (.inr rfl) rfl rfl⟩

end turns

end TakaFlow
