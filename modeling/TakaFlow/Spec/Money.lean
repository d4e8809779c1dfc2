import TakaFlow.Spec.Effects

/-!
# What effects do to money

Of all moves of the abstract model only five matter to accounts, transfers and entries: none, a
change of status, a payment, the minting of a bonus and a reversal.
-/

namespace TakaFlow

open Txn

/-- The tables of the ledger. -/
def Database.books (d : Database) : Database :=
  { accounts := d.accounts, transfers := d.transfers, ledgerEntries := d.ledgerEntries }

/-- A payment from one user to another. -/
def Transfer.IsPayment (t : Transfer) : Prop :=
  t.type = .p2p ∨ t.type = .requestSettlement ∨ t.type = .scheduled

section

variable (P : Platform) (watched : Token → Prop) (may : ℕ → Database → Token → Prop)
  (now : Timestamp) (call : Call) (x y : Database)

/-- How a payment came about. -/
inductive Authorized (m : Movement) : TransferType → Prop where
  | sent (within : Within P m.transfer.amountMinor)
      (paced : Paced watched m.sender.id (windowStart now P.policy.windowSeconds)
        P.policy.maxTransfers x) : Authorized m .p2p
  | settles {r : MoneyRequest} (found : r ∈ x.moneyRequests)
      (amount : m.transfer.amountMinor = r.amountMinor)
      (settles : Settles watched may now m.sender.id x) : Authorized m .requestSettlement
  | scheduled {s : Schedule} (found : s ∈ x.schedules)
      (amount : m.transfer.amountMinor = s.amountMinor) : Authorized m .scheduled

/-- The step from `x` to `y`, as the ledger sees it. -/
inductive Moves : Prop where
  | still (books : y.books = x.books) : Moves
  | status {a : Account} {status : AccountStatus} {version : ℕ}
      (found : x.accounts.get? a.id = some a)
      (legal : a.status ≠ .closed ∨ ∃ user, call = .closeAccount user ∧ status = .closed)
      (books : y.books = (x.setAccount { a with status, version }).books) : Moves
  | pays {m : Movement} (enabled : m.Enabled x) (createdAt : m.transfer.createdAt = now)
      (reversalOf : m.transfer.reversalOf = none)
      (authorized : Authorized P watched may now x m m.transfer.type)
      (capped : Capped watched P.config.dailyTransferLimitMinor m.sender.id
        (windowStart now secondsPerDay) m.transfer.amountMinor x)
      (books : y.books = (m.apply x).books) : Moves
  | mints {userId : Uuid} {account : Account} {m : Movement}
      (unused : x.accounts.has account.id = false)
      (row : account = newAccount account.id userId)
      (enabled : m.Enabled (x.insertAccount account)) (type : m.transfer.type = .mint)
      (reversalOf : m.transfer.reversalOf = none) (createdAt : m.transfer.createdAt = now)
      (books : y.books = (m.apply (x.insertAccount account)).books) : Moves
  | reverses {user : Uuid} {reference key : String} {raw : Json} {context : RequestContext}
      {original : Transfer} {m : Movement}
      (called : call = .reverseTransfer user reference key raw context)
      (found : original ∈ x.transfers) (standing : original.status = .completed)
      (type : original.type ≠ .mint ∧ original.type ≠ .reversal)
      (sender : Owns user original.fromAccountId x)
      (window : ∃ t, now ≤ t ∧
        (toMillis t : ℤ) - toMillis original.createdAt ≤ P.config.reversalWindowSeconds * 1000)
      (enabled : m.Enabled (x.setTransfer original.reversed))
      (executes : ∃ note keyId, m.Executes
        { fromAccountId := original.toAccountId
          toAccountId := original.fromAccountId
          amountMinor := original.amountMinor
          type := .reversal
          note
          idempotencyKeyId := keyId
          reversalOf := some original.id } now)
      (books : y.books = (m.apply (x.setTransfer original.reversed)).books) : Moves

end

variable {P : Platform} {watched : Token → Prop} {may : ℕ → Database → Token → Prop}
  {now : Timestamp} {call : Call} {x y : Database}

/-- Equal books are equal tables. -/
lemma Database.tables_of_books {d d' : Database} (h : d'.books = d.books) :
    d'.accounts = d.accounts ∧ d'.transfers = d.transfers ∧ d'.ledgerEntries = d.ledgerEntries :=
  ⟨(congrArg Database.accounts h :), (congrArg Database.transfers h :),
    (congrArg Database.ledgerEntries h :)⟩

theorem Performs.moves (h : Performs P watched may now call x y) :
    Moves P watched may now call x y := by
  obtain ⟨z, contents, h, hcore, -⟩ := h
  have hbooks : y.core.books = z.core.books := congrArg Database.books hcore
  change y.books = z.books at hbooks
  cases h with
  | idle => exact .still hbooks
  | registered userUnused unused row enabled stripe executes =>
    exact .mints unused row enabled executes.type executes.reversalOf executes.createdAt hbooks
  | sent enabled type reversalOf createdAt within capped paced alert =>
    exact .pays enabled createdAt reversalOf (type.symm ▸ .sent within paced) capped hbooks
  | reversed called found standing type sender window enabled executes =>
    exact .reverses called found standing type sender window enabled executes hbooks
  | requested =>
    rw [Database.insertRequests_rest] at hbooks
    exact .still hbooks
  | accepted justified found pending sender recipient capped settles enabled executes =>
    obtain ⟨keyId, executes⟩ := executes
    have hamount := executes.amountMinor
    exact .pays enabled executes.createdAt executes.reversalOf
      (executes.type.symm ▸ .settles (Table.mem_of_get? found) hamount settles)
      (hamount.symm ▸ capped) hbooks
  | terminated => exact .still hbooks
  | expired =>
    rw [Database.expire_rest] at hbooks
    exact .still hbooks
  | scheduled => exact .still hbooks
  | rescheduled => exact .still hbooks
  | deferred called due upserted attempts =>
    rw [upserted.rest] at hbooks
    exact .still hbooks
  | settled called due upserted outcome =>
    rw [upserted.rest] at hbooks
    exact .still hbooks
  | paid called due upserted sender recipient capped enabled executes =>
    rw [upserted.rest] at hbooks
    have hamount := executes.amountMinor
    exact .pays enabled executes.createdAt executes.reversalOf
      (executes.type.symm ▸ .scheduled (Table.mem_of_get? due.found) hamount)
      (hamount.symm ▸ capped) hbooks
  | status found legal quiet => exact .status found legal hbooks

/-! ### What a movement leaves -/

namespace Database

variable {d : Database} {a r : Account}

lemma mem_setTransfer {r t : Transfer} :
    t ∈ (d.setTransfer r).transfers ↔
      ∃ u ∈ d.transfers, t = if u.id = r.id then { u with status := r.status } else u := by
  simp only [setTransfer, Table.mem_modify]

/-- The transfers after one of them has been reversed. -/
lemma mem_setTransfer_reversed {t original : Transfer} (h : original ∈ d.transfers) :
    t ∈ (d.setTransfer original.reversed).transfers ↔
      t = original.reversed ∨ (t ∈ d.transfers ∧ t.id ≠ original.id) := by
  rw [mem_setTransfer]
  change (∃ u ∈ d.transfers, t = if u.id = original.id then u.reversed else u) ↔ _
  constructor
  · rintro ⟨u, hu, rfl⟩
    by_cases hid : u.id = original.id
    · rw [if_pos hid, Table.eq_of_mem hu h hid]
      exact .inl rfl
    · rw [if_neg hid]
      exact .inr ⟨hu, hid⟩
  · rintro (rfl | ⟨ht, hid⟩)
    · exact ⟨original, h, by rw [if_pos rfl]⟩
    · exact ⟨t, ht, by rw [if_neg hid]⟩

lemma sum_setAccount (g : Account → ℤ) (h : d.accounts.get? r.id = some a) :
    (d.setAccount r).accounts.sum g = d.accounts.sum g + (g { a with
      status := r.status, balanceMinor := r.balanceMinor, version := r.version } - g a) := by
  unfold setAccount
  rw [Table.sum_modify g h]

end Database

namespace Movement

variable {m : Movement} {d : Database}

lemma transfers_apply (h : m.Enabled d) :
    (m.apply d).transfers.rows = d.transfers.rows ++ [m.transfer] :=
  Table.rows_insert ((Table.has_eq_false _ _).mp h.transfer)

lemma mem_transfers (h : m.Enabled d) {t : Transfer} :
    t ∈ (m.apply d).transfers ↔ t ∈ d.transfers ∨ t = m.transfer :=
  Table.mem_insert ((Table.has_eq_false _ _).mp h.transfer)

lemma entries_apply (h : m.Enabled d) :
    (m.apply d).ledgerEntries.rows = d.ledgerEntries.rows ++ [m.debit, m.credit] := by
  have hdebit : d.ledgerEntries.get? m.debit.id = none := (Table.has_eq_false _ _).mp h.debit
  have hcredit : d.ledgerEntries.get? m.credit.id = none := (Table.has_eq_false _ _).mp h.credit
  have hne : m.debit.id ≠ m.credit.id := m.serials
  have hnone : (d.ledgerEntries.insert m.debit).get? m.credit.id = none := by
    rw [Table.get?_insert_of_ne hne, hcredit]
  change ((d.ledgerEntries.insert m.debit).insert m.credit).rows = _
  rw [Table.rows_insert hnone, Table.rows_insert hdebit]
  simp

lemma account_apply (h : m.Enabled d) (id : Uuid) :
    (m.apply d).accounts.get? id =
      if id = m.sender.id then some (m.sender.addBalance (-m.transfer.amountMinor))
      else if id = m.receiver.id then some (m.receiver.addBalance m.transfer.amountMinor)
      else d.accounts.get? id := by
  change ((d.setAccount _).setAccount _).accounts.get? id = _
  simp only [Database.account_setAccount, Account.addBalance]
  by_cases hs : id = m.sender.id
  · rw [if_neg (hs.symm ▸ m.apart), if_pos hs, if_pos hs, hs, h.sender]
    rfl
  · rw [if_neg hs, if_neg hs]
    by_cases hr : id = m.receiver.id
    · rw [if_pos hr, if_pos hr, hr, h.receiver]
      rfl
    · rw [if_neg hr, if_neg hr]

/-- The accounts after a movement: both sides, and all others as they were. -/
lemma account_cases (h : m.Enabled d) {a : Account} (ha : a ∈ (m.apply d).accounts) :
    a = m.sender.addBalance (-m.transfer.amountMinor) ∨
      a = m.receiver.addBalance m.transfer.amountMinor ∨
      (a ∈ d.accounts ∧ a.id ≠ m.sender.id ∧ a.id ≠ m.receiver.id) := by
  have hget := Table.get?_of_mem ha
  rw [account_apply h] at hget
  split at hget
  · cases hget
    exact .inl rfl
  · split at hget
    · cases hget
      exact .inr (.inl rfl)
    · exact .inr (.inr ⟨Table.mem_of_get? hget, ‹_›, ‹_›⟩)

/-- The sum of a column of the accounts changes by the changes on both sides. -/
lemma sum_accounts (h : m.Enabled d) (g : Account → ℤ) : (m.apply d).accounts.sum g =
    d.accounts.sum g + (g (m.sender.addBalance (-m.transfer.amountMinor)) - g m.sender) +
      (g (m.receiver.addBalance m.transfer.amountMinor) - g m.receiver) := by
  let d' := d.setAccount (m.sender.addBalance (-m.transfer.amountMinor))
  have hreceiver : d'.accounts.get? m.receiver.id = some m.receiver := by
    simp only [d', Database.account_setAccount, Account.addBalance, if_neg m.apart.symm, h.receiver]
  have hsum : d'.accounts.sum g =
      d.accounts.sum g + (g (m.sender.addBalance (-m.transfer.amountMinor)) - g m.sender) :=
    Database.sum_setAccount g h.sender
  calc (m.apply d).accounts.sum g
      = d'.accounts.sum g + (g (m.receiver.addBalance m.transfer.amountMinor) - g m.receiver) :=
        Database.sum_setAccount g hreceiver
    _ = _ := by rw [hsum]

end Movement

end TakaFlow
