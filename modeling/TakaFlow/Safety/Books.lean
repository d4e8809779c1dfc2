import TakaFlow.Spec.Money

/-!
# The books balance

Money is neither made nor lost: what one account gives another one gets, every balance is what the
entries of its account add up to, and only the treasury owes anything.
-/

namespace TakaFlow

open Txn

namespace Database

variable (d : Database)

/-- The signed sum of the entries of an account. -/
def posted (accountId : Uuid) : ℤ :=
  ((d.ledgerEntries.rows.filter fun e => e.accountId = accountId).map LedgerEntry.signed).sum

/-- The entries of a transfer. -/
def entriesOf (transferId : Uuid) : List LedgerEntry :=
  d.ledgerEntries.rows.filter fun e => e.transferId = transferId

end Database

/-- The invariant of the ledger. -/
structure Books (d : Database) : Prop where
  total : d.accounts.sum Account.balanceMinor = 0
  balance : ∀ a ∈ d.accounts, a.balanceMinor = d.posted a.id
  entered : ∀ t ∈ d.transfers, ∃ i j b b', d.entriesOf t.id = [t.debit i b, t.credit j b']
  transfers : ∀ e ∈ d.ledgerEntries, d.transfers.has e.transferId = true
  accounts : ∀ e ∈ d.ledgerEntries, d.accounts.has e.accountId = true
  users : ∀ a ∈ d.accounts, a.type = .user → 0 ≤ a.balanceMinor

namespace Books

variable {d x y : Database}

lemma seed : Books seed where
  total := by decide
  balance := by decide
  entered := nofun
  transfers := nofun
  accounts := nofun
  users := by decide

/-- The invariant is about the tables of the ledger. -/
lemma congr (h : y.books = x.books) (hx : Books x) : Books y := by
  have hbooks : Books x.books :=
    ⟨hx.total, hx.balance, hx.entered, hx.transfers, hx.accounts, hx.users⟩
  rw [← h] at hbooks
  exact ⟨hbooks.total, hbooks.balance, hbooks.entered, hbooks.transfers, hbooks.accounts,
    hbooks.users⟩

/-- A new account has no entries. -/
lemma insertAccount {a : Account} (h : Books d) (hunused : d.accounts.has a.id = false)
    (hempty : a.balanceMinor = 0) : Books (d.insertAccount a) := by
  have hnone := (Table.has_eq_false _ _).mp hunused
  constructor
  · change (d.accounts.insert a).sum _ = 0
    rw [Table.sum_insert _ hnone, h.total, hempty, add_zero]
  · intro b hb
    rcases (Table.mem_insert hnone).mp hb with hb | rfl
    · exact h.balance b hb
    · have hnil : d.ledgerEntries.rows.filter (fun e => e.accountId = b.id) = [] := by
        simp only [List.filter_eq_nil_iff, decide_eq_true_eq]
        rintro e he heq
        have := h.accounts e he
        rw [heq, hunused] at this
        cases this
      change b.balanceMinor = d.posted b.id
      rw [Database.posted, hnil, hempty]
      rfl
  · exact h.entered
  · exact h.transfers
  · intro e he
    change (d.accounts.insert a).has e.accountId = true
    rw [Table.has_insert, h.accounts e he, Bool.true_or]
  · intro b hb hu
    rcases (Table.mem_insert hnone).mp hb with hb | rfl
    · exact h.users b hb hu
    · exact hempty.symm.le

/-- A change of status moves no money. -/
lemma setStatus {a : Account} {status : AccountStatus} {version : ℕ} (h : Books d)
    (ha : d.accounts.get? a.id = some a) : Books (d.setAccount { a with status, version }) := by
  have hrows : ∀ b ∈ (d.setAccount { a with status, version }).accounts,
      ∃ c ∈ d.accounts, c.id = b.id ∧ c.type = b.type ∧ c.balanceMinor = b.balanceMinor := by
    intro b hb
    have hget := Table.get?_of_mem hb
    rw [Database.account_setAccount] at hget
    split at hget
    · rename_i hid
      change b.id = a.id at hid
      rw [hid, ha] at hget
      cases hget
      exact ⟨a, Table.mem_of_get? ha, rfl, rfl, rfl⟩
    · exact ⟨b, Table.mem_of_get? hget, rfl, rfl, rfl⟩
  constructor
  · have hsum := Database.sum_setAccount (r := { a with status, version }) Account.balanceMinor ha
    rw [hsum, h.total]
    simp
  · intro b hb
    obtain ⟨c, hc, hid, -, hbalance⟩ := hrows b hb
    rw [← hbalance, h.balance c hc, hid]
    rfl
  · exact h.entered
  · exact h.transfers
  · intro e he
    simp only [Database.setAccount, Table.has_modify]
    exact h.accounts e he
  · intro b hb hu
    obtain ⟨c, hc, -, htype, hbalance⟩ := hrows b hb
    exact hbalance ▸ h.users c hc (htype.trans hu)

/-- The status of a transfer is no part of its entries. -/
lemma setTransfer {t : Transfer} (h : Books d) : Books (d.setTransfer t) where
  total := h.total
  balance := h.balance
  entered := by
    intro u hu
    simp only [Database.setTransfer] at hu
    obtain ⟨v, hv, rfl⟩ := Table.mem_modify.mp hu
    obtain ⟨i, j, b, b', hentries⟩ := h.entered v hv
    refine ⟨i, j, b, b', ?_⟩
    split <;> exact hentries
  transfers := by
    intro e he
    simp only [Database.setTransfer, Table.has_modify]
    exact h.transfers e he
  accounts := h.accounts
  users := h.users

/-! ### A movement -/

/-- A movement adds one entry on each side. -/
lemma posted_apply {m : Movement} (h : m.Enabled d) (id : Uuid) :
    (m.apply d).posted id = d.posted id +
      (if m.sender.id = id then -m.transfer.amountMinor else 0) +
        (if m.receiver.id = id then m.transfer.amountMinor else 0) := by
  have hdebit : m.debit.accountId = m.sender.id := m.source
  have hcredit : m.credit.accountId = m.receiver.id := m.destination
  have hsigned : m.debit.signed = -m.transfer.amountMinor ∧
      m.credit.signed = m.transfer.amountMinor := ⟨rfl, rfl⟩
  simp only [Database.posted, Movement.entries_apply h, List.filter_append, List.map_append,
    List.sum_append, List.filter_cons, List.filter_nil, hdebit, hcredit, add_assoc]
  congr 1
  by_cases hs : m.sender.id = id <;> by_cases hr : m.receiver.id = id <;> simp [hs, hr, hsigned]

lemma entriesOf_apply {m : Movement} (h : m.Enabled d) (id : Uuid) :
    (m.apply d).entriesOf id =
      d.entriesOf id ++ if m.transfer.id = id then [m.debit, m.credit] else [] := by
  have hids : m.debit.transferId = m.transfer.id ∧ m.credit.transferId = m.transfer.id := ⟨rfl, rfl⟩
  simp only [Database.entriesOf, Movement.entries_apply h, List.filter_append, List.filter_cons,
    List.filter_nil, hids]
  by_cases hid : m.transfer.id = id <;> simp [hid]

/-- A movement keeps the books: this is where the checks under the locks are needed. -/
lemma apply {m : Movement} (h : Books d) (hm : m.Enabled d) : Books (m.apply d) := by
  have hpositive := m.positive
  have hs := h.balance m.sender (Table.mem_of_get? hm.sender)
  have hr := h.balance m.receiver (Table.mem_of_get? hm.receiver)
  constructor
  · rw [Movement.sum_accounts hm, h.total]
    simp only [Account.addBalance]
    omega
  · intro a ha
    rw [posted_apply hm]
    rcases Movement.account_cases hm ha with rfl | rfl | ⟨ha, hsa, hra⟩
    · simp [m.apart.symm, hs]
    · simp [m.apart, hr]
    · rw [if_neg hsa.symm, if_neg hra.symm, add_zero, add_zero]
      exact h.balance a ha
  · intro t ht
    rw [entriesOf_apply hm]
    rcases (Movement.mem_transfers hm).mp ht with ht | rfl
    · have hne : m.transfer.id ≠ t.id := by
        intro heq
        have hnone := (Table.has_eq_false _ _).mp hm.transfer
        rw [heq, Table.get?_of_mem ht] at hnone
        cases hnone
      rw [if_neg hne, List.append_nil]
      exact h.entered t ht
    · -- The identifier is new, so no entry carries it.
      have hnil : d.entriesOf m.transfer.id = [] := by
        simp only [Database.entriesOf, List.filter_eq_nil_iff, decide_eq_true_eq]
        rintro e he heq
        have := h.transfers e he
        rw [heq, hm.transfer] at this
        cases this
      rw [if_pos rfl, hnil]
      exact ⟨_, _, _, _, rfl⟩
  · intro e he
    change (d.transfers.insert m.transfer).has e.transferId = true
    rw [Table.has_insert, Bool.or_eq_true, decide_eq_true_eq]
    rw [Table.mem_def, Movement.entries_apply hm, List.mem_append] at he
    rcases he with he | he
    · exact .inl (h.transfers e he)
    · simp only [List.mem_cons, List.not_mem_nil, or_false] at he
      rcases he with rfl | rfl <;> exact .inr rfl
  · intro e he
    have hhas : ∀ id, d.accounts.has id = true → (m.apply d).accounts.has id = true := by
      intro id hid
      change ((d.setAccount _).setAccount _).accounts.has id = true
      simpa only [Database.setAccount, Table.has_modify] using hid
    rw [Table.mem_def, Movement.entries_apply hm, List.mem_append] at he
    rcases he with he | he
    · exact hhas _ (h.accounts e he)
    · simp only [List.mem_cons, List.not_mem_nil, or_false] at he
      rcases he with rfl | rfl
      · change (m.apply d).accounts.has m.transfer.fromAccountId = true
        exact hhas _ (by rw [m.source, Table.has, hm.sender]; rfl)
      · change (m.apply d).accounts.has m.transfer.toAccountId = true
        exact hhas _ (by rw [m.destination, Table.has, hm.receiver]; rfl)
  · intro a ha hu
    rcases Movement.account_cases hm ha with rfl | rfl | ⟨ha, -, -⟩
    · rw [Account.addBalance_balanceMinor]
      rcases m.funds with hsystem | hfunds
      · rw [Account.addBalance_type, hsystem] at hu
        cases hu
      · omega
    · have := h.users m.receiver (Table.mem_of_get? hm.receiver) hu
      rw [Account.addBalance_balanceMinor]
      omega
    · exact h.users a ha hu

/-! ### Every commit -/

/-- The step lemma. -/
lemma step {P : Platform} {watched : Token → Prop} {may : ℕ → Database → Token → Prop}
    {now : Timestamp} {call : Call} (hstep : Advances P watched may now call x y) (h : Books x) :
    Books y := by
  cases hstep.performs.moves with
  | still books => exact h.congr books
  | status found legal books => exact (h.setStatus found).congr books
  | pays enabled createdAt reversalOf authorized capped books =>
    exact (h.apply enabled).congr books
  | mints unused row enabled type reversalOf createdAt books =>
    exact ((h.insertAccount unused (by rw [row]; rfl)).apply enabled).congr books
  | reverses called found standing type sender window enabled executes books =>
    exact (h.setTransfer.apply enabled).congr books

end Books

/-! ### The guarantee -/

/-- Two entries, one on each side of a transfer, both of its amount and of its instant. -/
structure Entered (t : Transfer) (debit credit : LedgerEntry) : Prop where
  debitSide : debit.direction = .debit ∧ debit.accountId = t.fromAccountId
  debitAmount : debit.amountMinor = t.amountMinor
  debitInstant : debit.createdAt = t.createdAt
  creditSide : credit.direction = .credit ∧ credit.accountId = t.toAccountId
  creditAmount : credit.amountMinor = t.amountMinor
  creditInstant : credit.createdAt = t.createdAt

/-- What balanced books are. -/
structure Balanced (d : Database) : Prop where
  total : (d.accounts.rows.map Account.balanceMinor).sum = 0
  balance : ∀ a ∈ d.accounts, a.balanceMinor = d.posted a.id
  entered : ∀ t ∈ d.transfers, ∃ debit credit,
    d.entriesOf t.id = [debit, credit] ∧ Entered t debit credit
  users : ∀ a ∈ d.accounts, a.type = .user → 0 ≤ a.balanceMinor

/-- The books balance in every reachable state. No statement of the model checks a balance, so the
last part is due to the check under the locks alone. -/
theorem books_balance {P : Platform} {s : State} (h : Reachable P s) : Balanced s.db := by
  have hbooks : Books s.db := h.sound.invariant .seed fun _ _ _ _ => .step
  constructor
  · exact hbooks.total
  · exact hbooks.balance
  · intro t ht
    obtain ⟨i, j, b, b', hentries⟩ := hbooks.entered t ht
    exact ⟨_, _, hentries, ⟨⟨rfl, rfl⟩, rfl, rfl, ⟨rfl, rfl⟩, rfl, rfl⟩⟩
  · exact hbooks.users

theorem books_balance_sample : (State.after sample sampleRun).db.transfers.rows.length = 3 ∧
    Balanced (State.after sample sampleRun).db :=
  ⟨by decide +kernel, books_balance (reachable_after sample sampleRun)⟩

end TakaFlow
