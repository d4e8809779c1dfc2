import TakaFlow.Spec.System
import TakaFlow.Lib.Deadline

/-!
# What is published

The versions of an account tell its balances apart, and the hooks of a commit publish rows that it
leaves.
-/

namespace TakaFlow

open Txn

/-! ### Versions -/

/-- A later row of the same account: its version has grown, or it has the same version and
balance. -/
def Account.Revised (a b : Account) : Prop :=
  a.version < b.version ∨ a.version = b.version ∧ a.balanceMinor = b.balanceMinor

namespace Account.Revised

variable {a b c : Account}

lemma refl (a : Account) : a.Revised a := .inr ⟨rfl, rfl⟩

lemma trans (h : a.Revised b) (h' : b.Revised c) : a.Revised c := by
  rcases h with h | ⟨hv, hb⟩
  · rcases h' with h' | ⟨hv', -⟩
    · exact .inl (h.trans h')
    · exact .inl (hv' ▸ h)
  · rcases h' with h' | ⟨hv', hb'⟩
    · exact .inl (hv ▸ h')
    · exact .inr ⟨hv.trans hv', hb.trans hb'⟩

lemma balance (h : a.Revised b) (hv : b.version = a.version) :
    a.balanceMinor = b.balanceMinor := by
  rcases h with h | h
  · exact absurd hv h.ne'
  · exact h.2

end Account.Revised

/-- Every account is still there, as a later row. -/
def Revises (x y : Database) : Prop :=
  ∀ id a, x.accounts.get? id = some a → ∃ b, y.accounts.get? id = some b ∧ a.Revised b

namespace Revises

variable {x y z : Database}

lemma of_same (h : y.accounts = x.accounts) : Revises x y := by
  intro id a ha
  rw [h]
  exact ⟨a, ha, .refl a⟩

lemma trans (h : Revises x y) (h' : Revises y z) : Revises x z := by
  intro id a ha
  obtain ⟨b, hb, hab⟩ := h id a ha
  obtain ⟨c, hc, hbc⟩ := h' id b hb
  exact ⟨c, hc, hab.trans hbc⟩

lemma setAccount {r : Account} (h : ∀ a, x.accounts.get? r.id = some a →
    a.version < r.version ∨ a.version = r.version ∧ a.balanceMinor = r.balanceMinor) :
    Revises x (x.setAccount r) := by
  intro id a ha
  rw [Database.account_setAccount]
  by_cases hid : id = r.id
  · subst hid
    rw [if_pos rfl, ha]
    exact ⟨_, rfl, h a ha⟩
  · rw [if_neg hid]
    exact ⟨a, ha, .refl a⟩

/-- The status of an account changes, with or without its version. -/
lemma status {a : Account} {status : AccountStatus} {version : ℕ}
    (ha : x.accounts.get? a.id = some a) (hv : a.version ≤ version) :
    Revises x (x.setAccount { a with status, version }) := by
  refine setAccount fun b hb => ?_
  cases ha.symm.trans hb
  exact (Nat.lt_or_eq_of_le hv).imp_right (⟨·, rfl⟩)

lemma insertAccount (r : Account) : Revises x (x.insertAccount r) := fun _ a ha =>
  ⟨a, Table.get?_insert_of_some ha, .refl a⟩

lemma movement {m : Movement} (h : m.Enabled x) : Revises x (m.apply x) := by
  have hsender : Revises x (x.setAccount (m.sender.addBalance (-m.transfer.amountMinor))) := by
    refine setAccount fun b hb => ?_
    cases h.sender.symm.trans hb
    exact .inl (Nat.lt_succ_self _)
  refine hsender.trans (setAccount (x := x.setAccount _) fun b hb => ?_)
  rw [Database.account_setAccount] at hb
  change (if m.receiver.id = m.sender.id then _ else _) = some b at hb
  rw [if_neg m.apart.symm] at hb
  cases h.receiver.symm.trans hb
  exact .inl (Nat.lt_succ_self _)

end Revises

section refinement

variable {P : Platform} {watched : Token → Prop} {may : ℕ → Database → Token → Prop}
  {now : Timestamp} {x y : Database}

lemma Notes.revises {contents : List Content} {z : Database} (h : Notes now contents y z)
    (hxy : Revises x y) : Revises x z := hxy.trans (.of_same h.accounts)

lemma Idempotent.revises {userId : Uuid} {key endpoint requestHash : String}
    {work : Uuid → ℕ × Json → Database → Database → Prop} {reply : Reply}
    (h : Idempotent userId key endpoint requestHash work now reply x y)
    (hwork : ∀ id result d e, work id result d e → Revises d e) : Revises x y := by
  cases h with
  | replay => exact .of_same rfl
  | @fresh _ e _ _ _ hdone _ =>
    have hrevises : Revises (x.insertKey _) e := hwork _ _ _ _ hdone
    exact (Revises.of_same rfl).trans (hrevises.trans (.of_same rfl))

lemma Terminated.revises {userId requestId : Uuid} {target : Termination}
    {reason : Option String} {reply : Reply}
    (h : Terminated now userId requestId target reason reply x y) : Revises x y := by
  cases h with
  | again => exact .of_same rfl
  | first _ _ _ notes => exact .of_same notes.accounts

lemma Transitioned.revises {userId scheduleId : Uuid} {target : ScheduleTarget} {reply : Reply}
    (h : Transitioned now userId scheduleId target reply x y) : Revises x y := by
  cases h with
  | again => exact .of_same rfl
  | first _ _ _ notes => exact .of_same notes.accounts

lemma Upserted.revises {scheduleId : Uuid} {dueAt : Timestamp} {o : Occurrence} {z : Database}
    (h : Upserted scheduleId dueAt o x z) : Revises x z := by
  cases h <;> exact .of_same rfl

lemma Ran.revises {scheduleId : Uuid} {outcome : RunOutcome}
    (h : Ran P watched now scheduleId outcome x y) : Revises x y := by
  cases h with
  | notClaimed => exact .of_same rfl
  | duplicate => exact .of_same rfl
  | skipped _ upserted _ notes => exact upserted.revises.trans (.of_same notes.accounts)
  | paid _ upserted _ _ _ _ enabled _ notes =>
    exact upserted.revises.trans ((Revises.movement enabled).trans (.of_same notes.accounts))
  | deferred _ upserted _ _ => exact upserted.revises.trans (.of_same rfl)
  | failed _ upserted notes => exact upserted.revises.trans (.of_same notes.accounts)

/-- Every commit revises the accounts. -/
theorem CommitSpec.revises {call : Call} {reply : Reply}
    (h : CommitSpec P watched may now call reply x y) : Revises x y := by
  cases call with
  | register input context =>
    obtain ⟨user, account, m, z, h⟩ := h
    obtain ⟨token, rfl⟩ := h.session
    have hopened : Revises x ((x.insertUser user).insertAccount account) :=
      (Revises.of_same rfl).trans (.insertAccount (x := x.insertUser user) account)
    exact (hopened.trans (.movement h.enabled)).trans (.of_same h.notes.accounts)
  | sendMoney =>
    exact h.2.revises fun _ _ _ _ ⟨_, _, _, hs⟩ => hs.notes.revises (.movement hs.enabled)
  | reverseTransfer =>
    refine Idempotent.revises h fun _ _ d _ ⟨original, _, _, hr⟩ => hr.notes.revises ?_
    have hmoved := Revises.movement hr.enabled
    exact (Revises.of_same (y := d.setTransfer original.reversed) rfl).trans hmoved
  | createRequest =>
    exact h.2.revises fun _ _ _ _ ⟨_, _, _, hr⟩ => .of_same hr.notes.accounts
  | acceptRequest =>
    refine Idempotent.revises h fun _ _ _ _ ⟨_, _, _, _, hr⟩ => hr.notes.revises ?_
    exact (Revises.movement hr.enabled).trans (.of_same rfl)
  | declineRequest => exact Terminated.revises h
  | cancelRequest => exact Terminated.revises h
  | expireRequests =>
    obtain ⟨rows, -, h⟩ := h
    refine .of_same (h.notes.accounts.trans ?_)
    rw [Database.expire_rest]
  | createSplit =>
    obtain ⟨shares, -, h⟩ := h
    refine h.revises fun _ _ _ _ ⟨_, _, _, hr⟩ => .of_same (hr.notes.accounts.trans ?_)
    rw [Database.insertRequests_rest]
    rfl
  | createSchedule =>
    exact h.2.revises fun _ _ _ _ ⟨_, _, _, hs⟩ => .of_same hs.notes.accounts
  | pauseSchedule => exact Transitioned.revises h
  | resumeSchedule => exact Transitioned.revises h
  | cancelSchedule => exact Transitioned.revises h
  | makeScheduleDue id =>
    obtain ⟨s, h⟩ := h
    rw [h.row]
    exact .of_same rfl
  | runSchedule id =>
    obtain ⟨outcome, -, h⟩ := h
    exact h.revises
  | setOwnFreeze =>
    cases h with
    | same => exact .of_same rfl
    | set _ found _ notes => exact notes.revises (.status found (Nat.le_succ _))
  | setAccountStatus =>
    obtain ⟨a, h⟩ := h
    exact h.notes.revises (.status h.found (Nat.le_succ _))
  | closeAccount =>
    cases h with
    | none => exact .of_same rfl
    | set _ found => exact .status found (Nat.le_refl _)

end refinement

/-! ### The hooks of a payment that was refused -/

section deadlines

variable {P : Platform}

/-- A program of the backend without hooks. -/
abbrev PlainTx {α : Type} (p : Tx α) : Prop := Program.Plain .deadline p

lemma plain_require {p : Prop} [Decidable p] {e : DomainError} : PlainTx (require p e) :=
  .ite (.ret ()) (.throw _)

lemma plain_orFail {α : Type} {o : Option α} {e : DomainError} : PlainTx (orFail o e) := by
  cases o with
  | none => exact .throw _
  | some a => exact .ret a

lemma plain_dateNow : PlainTx dateNow := .input fun _ _ => .ret _

lemma plain_settleOccurrence {id : Uuid} {status : OccurrenceStatus} {transferId : Option Uuid}
    {failureReason : Option String} :
    PlainTx (settleOccurrence id status transferId failureReason) :=
  (Program.Plain.exec _ _).bind fun _ => .ret _

lemma plain_advanceSchedule {s : Schedule} {consumeRun : Bool} :
    PlainTx (advanceSchedule P s consumeRun) :=
  (Program.Plain.exec _ _).bind fun _ => .ret _

lemma plain_skipOccurrence {s : Schedule} {id : Uuid} {lateBy : ℤ} :
    PlainTx (skipOccurrence P s id lateBy) :=
  plain_settleOccurrence.bind fun _ => plain_advanceSchedule.bind fun _ =>
    (Program.Plain.exec _ _).bind fun _ => .ret _

lemma plain_failOccurrence {s : Schedule} {o : Occurrence} {e : DomainError} :
    PlainTx (failOccurrence P s o e) := by
  refine (Program.Plain.control _ _).bind fun _ => .ite ?_ ?_
  · exact (Program.Plain.exec _ _).bind fun _ => .ret _
  · exact plain_settleOccurrence.bind fun _ => plain_advanceSchedule.bind fun _ =>
      (Program.Plain.exec _ _).bind fun _ => .ret _

lemma plain_updateBalances {pair : LockedPair} {amountMinor : ℤ} :
    PlainTx (updateBalances pair amountMinor) :=
  Program.Plain.rethrow ((Program.Plain.exec _ _).bind fun _ =>
    (Program.Plain.exec _ _).bind fun _ => .ret _) _

lemma plain_lockAccountPair {from_ to_ : Uuid} : PlainTx (lockAccountPair from_ to_) :=
  plain_require.bind fun _ => (Program.Plain.exec _ _).bind fun _ => plain_orFail.bind fun _ =>
    (Program.Plain.exec _ _).bind fun _ => plain_orFail.bind fun _ => .ret _

variable {R : Bool → List Hook → Error → Prop}

/-- A movement registers its hook last. -/
lemma ends_postDoubleEntry {command : PostDoubleEntryCommand} {hs : List Hook}
    {Q : Bool → List Hook → PostedTransfer → Prop} (hQ : ∀ x posted, Q false (hs ++ [x]) posted)
    (hR : ∀ late e, R late hs e) :
    (postDoubleEntry command).Ends DriverError.deadline Q R false hs := by
  simp only [postDoubleEntry, Program.bind_eq, Program.ends_bind]
  refine plain_require _ _ _ (fun _ => ?_) hR
  refine plain_lockAccountPair _ _ _ (fun pair => ?_) hR
  refine plain_require _ _ _ (fun _ => ?_) hR
  refine plain_require _ _ _ (fun _ => ?_) hR
  refine plain_require _ _ _ (fun _ => ?_) hR
  refine plain_updateBalances _ _ _ (fun _ => ?_) hR
  refine plain_dateNow _ _ _ (fun _ => ?_) hR
  refine Program.Plain.exec _ _ _ _ _ (fun _ => ?_) hR
  exact hQ _ _

lemma ends_pay {s : Schedule} {hs : List Hook} {Q : Bool → List Hook → PostedTransfer → Prop}
    (hQ : ∀ x posted, Q false (hs ++ [x]) posted) (hR : ∀ late e, R late hs e) :
    (pay P s).Ends DriverError.deadline Q R false hs := by
  simp only [pay, requireDailyLimit, Program.bind_eq, Program.ends_bind]
  refine Program.Plain.exec _ _ _ _ _ (fun _ => ?_) hR
  refine Program.Plain.exec _ _ _ _ _ (fun _ => ?_) hR
  refine plain_orFail _ _ _ (fun _ => ?_) hR
  refine plain_orFail _ _ _ (fun _ => ?_) hR
  refine Program.Plain.exec _ _ _ _ _ (fun _ => ?_) hR
  refine plain_require _ _ _ (fun _ => ?_) hR
  exact ends_postDoubleEntry hQ hR

/-- A refused payment leaves no hook. -/
def Unhooked (hs : List Hook) (reply : Reply) : Prop := reply.Refused → hs = []

/-- The handler of the worker gives up after an error of the server, and when it is late. -/
lemma issued_handled {α β : Type} {Q : Bool → List Hook → α → Prop}
    {Q' : Bool → List Hook → β → Prop} {handler : DomainError → Tx β} {hs : List Hook}
    (hlate : ∀ e hs, (handler e).Ends DriverError.deadline Q' (fun _ _ _ => True) true hs)
    (hQ : ∀ a, Q false hs a) :
    Program.Issued Q (fun late hs e => Program.Ends DriverError.deadline Q' (fun _ _ _ => True) late
      hs (match e with
        | .domain e => handler e
        | e => .throw e)) Error.ofDriver .deadline false hs where
  answered _ := hQ
  refused _ e he := by
    cases e with
    | deadline => exact absurd rfl he
    | pg e => trivial
  passed := hlate _ hs

lemma ends_runOccurrence {s : Schedule} {o : Occurrence} :
    (runOccurrence P s o).Ends DriverError.deadline (fun _ hs outcome => Unhooked hs (.run outcome))
      (fun _ _ _ => True) false [] := by
  simp only [runOccurrence, Program.bind_eq, Program.ends_bind]
  refine plain_dateNow _ _ _ (fun _ => ?_) (fun _ _ => trivial)
  split
  · exact plain_skipOccurrence _ _ _ (fun _ _ => rfl) fun _ _ => trivial
  simp only [Program.ends_bind, Program.ends_tryCatch]
  refine Program.Plain.control _ _ _ _ _ (fun _ => ?_) fun _ _ => trivial
  -- After its deadline a transaction cannot go back to its savepoint.
  have hlate : ∀ (e : DomainError) (hs : List Hook), (failOccurrence P s o e).Ends
      DriverError.deadline (fun _ hs outcome => Unhooked hs (.run outcome)) (fun _ _ _ => True)
        true hs := by
    intro e hs
    simp only [failOccurrence, Program.bind_eq, Program.ends_bind]
    exact Program.ends_control ⟨by rintro ⟨⟩, by rintro ⟨⟩, trivial⟩
  simp only [payOccurrence, settleOccurrence, advanceSchedule, scheduleEvent, enqueueEvent,
    Program.bind_eq, Program.pure_eq, Program.ends_bind, Program.ends_ret]
  refine ends_pay (fun x posted => ?_) fun late e => ?_
  · -- The errors that follow are of the server, or of the deadline.
    refine Program.ends_control (issued_handled hlate fun _ => ?_)
    refine Program.ends_exec (issued_handled hlate fun _ => ?_)
    refine Program.ends_exec (issued_handled hlate fun _ => ?_)
    refine Program.ends_exec (issued_handled hlate fun _ => ?_)
    refine Program.ends_exec (issued_handled hlate fun _ => ?_)
    rintro (h | h) <;> cases h
  · cases e with
    | domain e =>
      cases late with
      | false => exact plain_failOccurrence _ _ _ (fun _ _ => rfl) fun _ _ => trivial
      | true => exact hlate e []
    | driver e => trivial
    | internal e => trivial

/-- No call that ends in a refused payment has a hook. -/
lemma ends_body (call : Call) : (body P call).Ends DriverError.deadline
    (fun _ hs reply => (∃ id, call = .runSchedule id) → Unhooked hs reply) (fun _ _ _ => True)
      false [] := by
  cases call with
  | runSchedule id =>
    simp only [body, runSchedule, Program.bind_eq, Program.ends_bind]
    refine Program.Plain.exec _ _ _ _ _ (fun schedule => ?_) fun _ _ => trivial
    cases schedule with
    | none => exact fun _ _ => rfl
    | some schedule =>
      simp only [Program.ends_bind]
      refine Program.Plain.exec _ _ _ _ _ (fun occurrence => ?_) fun _ _ => trivial
      cases occurrence with
      | none =>
        simp only [Program.ends_bind]
        exact plain_advanceSchedule _ _ _ (fun _ _ _ => rfl) fun _ _ => trivial
      | some occurrence =>
        simp only [Program.ends_bind]
        exact ends_runOccurrence.mono (fun _ _ _ h _ => h) fun _ _ _ _ => trivial
  | _ => exact .of_forall (by rintro _ _ _ ⟨_, ⟨⟩⟩) fun _ _ _ => trivial

end deadlines

end TakaFlow
