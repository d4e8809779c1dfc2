import TakaFlow.Safety.Books
import TakaFlow.Safety.Supply
import TakaFlow.Spec.Endurance

/-!
# History does not change

The ledger only grows at its end. So what an account had in any earlier state is still in the ledger
of today, and no user is overdrawn anywhere in it, between the two entries of a transfer included.
-/

namespace TakaFlow

open Txn

/-! ### Balances of the past -/

/-- What the first `n` entries of the ledger leave on an account. -/
def Database.balanceAt (d : Database) (n : ℕ) (accountId : Uuid) : ℤ :=
  (((d.ledgerEntries.rows.take n).filter fun e => e.accountId = accountId).map
    LedgerEntry.signed).sum

/-- The entries say what they leave, and no user is overdrawn on the way. -/
structure Journal (d : Database) : Prop where
  books : Books d
  recorded : ∀ n e, d.ledgerEntries.rows[n]? = some e →
    e.balanceAfter = d.balanceAt (n + 1) e.accountId
  solvent : ∀ n, ∀ h ∈ d.holders, h.type = .user → 0 ≤ d.balanceAt n h.id

section

variable {P : Platform} {watched : Token → Prop} {may : ℕ → Database → Token → Prop}
  {now : Timestamp} {call : Call} {d x y : Database} {m : Movement}

namespace Database

lemma balanceAt_congr (h : y.ledgerEntries = x.ledgerEntries) (n : ℕ) (accountId : Uuid) :
    y.balanceAt n accountId = x.balanceAt n accountId := by
  rw [balanceAt, h, balanceAt]

/-- Entries that come later do not matter. -/
lemma balanceAt_of_prefix (h : x.ledgerEntries.rows <+: y.ledgerEntries.rows) {n : ℕ}
    (hn : n ≤ x.ledgerEntries.rows.length) (accountId : Uuid) :
    y.balanceAt n accountId = x.balanceAt n accountId := by
  obtain ⟨more, hmore⟩ := h
  rw [balanceAt, ← hmore, List.take_append_of_le_length hn, balanceAt]

lemma balanceAt_of_le {n : ℕ} (hn : d.ledgerEntries.rows.length ≤ n) (accountId : Uuid) :
    d.balanceAt n accountId = d.posted accountId := by
  rw [balanceAt, List.take_of_length_le hn, posted]

/-- An account that is not there has no entries. -/
lemma balanceAt_of_unused (h : Books d) {accountId : Uuid}
    (hunused : d.accounts.has accountId = false) (n : ℕ) : d.balanceAt n accountId = 0 := by
  have hnil : (d.ledgerEntries.rows.take n).filter (fun e => e.accountId = accountId) = [] := by
    simp only [List.filter_eq_nil_iff, decide_eq_true_eq]
    rintro e he rfl
    have hhas := h.accounts e (List.mem_of_mem_take he)
    rw [hunused] at hhas
    cases hhas
  rw [balanceAt, hnil]
  rfl

end Database

lemma Books.posted_nonneg {h : Holder} (hd : Books d) (hh : h ∈ d.holders) (hu : h.type = .user) :
    0 ≤ d.posted h.id := by
  obtain ⟨a, ha, rfl⟩ := Database.mem_holders.mp hh
  have hbalance := hd.balance a ha
  have husers := hd.users a ha hu
  rwa [hbalance] at husers

namespace Movement

lemma length_entries (h : m.Enabled d) :
    (m.apply d).ledgerEntries.rows.length = d.ledgerEntries.rows.length + 2 := by
  rw [entries_apply h, List.length_append]
  rfl

/-- Between the two entries only the sender's balance has changed. -/
lemma balanceAt_debit (h : m.Enabled d) (accountId : Uuid) :
    (m.apply d).balanceAt (d.ledgerEntries.rows.length + 1) accountId =
      d.posted accountId + if m.sender.id = accountId then -m.transfer.amountMinor else 0 := by
  have hdebit : m.debit.accountId = m.sender.id := m.source
  have hsigned : m.debit.signed = -m.transfer.amountMinor := rfl
  have htake : (m.apply d).ledgerEntries.rows.take (d.ledgerEntries.rows.length + 1) =
      d.ledgerEntries.rows ++ [m.debit] := by
    rw [entries_apply h, List.take_length_add_append]
    rfl
  rw [Database.balanceAt, htake, List.filter_append, List.map_append, List.sum_append,
    Database.posted]
  congr 1
  by_cases hs : m.sender.id = accountId <;> simp [hdebit, hs, hsigned]

/-- Not even there is a user overdrawn: this is due to the check of the funds. -/
lemma solvent_between (h : m.Enabled d) (hbooks : Books d) {a : Account} (ha : a ∈ d.accounts)
    (hu : a.type = .user) : 0 ≤ (m.apply d).balanceAt (d.ledgerEntries.rows.length + 1) a.id := by
  have hbalance := hbooks.balance a ha
  have husers := hbooks.users a ha hu
  rw [balanceAt_debit h]
  by_cases hid : m.sender.id = a.id
  · have heq : m.sender = a := Table.eq_of_mem (Table.mem_of_get? h.sender) ha hid
    rw [if_pos hid]
    obtain hsystem | hfunds := m.funds
    · rw [heq, hu] at hsystem
      cases hsystem
    · rw [heq] at hfunds
      omega
  · rw [if_neg hid, add_zero]
    omega

end Movement

namespace Journal

lemma seed : Journal seed where
  books := .seed
  recorded n e he := by cases he
  solvent n h _ _ := by
    have hnil : TakaFlow.seed.balanceAt n h.id = 0 := by
      change (((([] : List LedgerEntry).take n).filter _).map LedgerEntry.signed).sum = 0
      rw [List.take_nil]
      rfl
    exact hnil.ge

/-- The ledger stays, and so do the accounts. -/
lemma stays (h : Journal x) (hy : Books y) (hentries : y.ledgerEntries = x.ledgerEntries)
    (hholders : y.holders = x.holders) : Journal y where
  books := hy
  recorded n e he := by
    rw [hentries] at he
    rw [Database.balanceAt_congr hentries]
    exact h.recorded n e he
  solvent n a ha hu := by
    rw [hholders] at ha
    rw [Database.balanceAt_congr hentries]
    exact h.solvent n a ha hu

lemma insertAccount {a : Account} (h : Journal d) (hunused : d.accounts.has a.id = false)
    (hempty : a.balanceMinor = 0) : Journal (d.insertAccount a) where
  books := h.books.insertAccount hunused hempty
  recorded := h.recorded
  solvent n b hb hu := by
    rw [Database.holders_insertAccount hunused, List.mem_append] at hb
    obtain hb | hb := hb
    · exact h.solvent n b hb hu
    · rw [List.mem_singleton.mp hb]
      exact (Database.balanceAt_of_unused h.books hunused n).ge

/-- What a movement adds to the ledger. -/
lemma apply (h : Journal d) (hm : m.Enabled d) : Journal (m.apply d) := by
  have hbooks := h.books.apply hm
  have hprefix := Movement.entries_prefix hm
  have hlength := Movement.length_entries hm
  have hsender := h.books.balance m.sender (Table.mem_of_get? hm.sender)
  have hreceiver := h.books.balance m.receiver (Table.mem_of_get? hm.receiver)
  constructor
  · exact hbooks
  · intro n e he
    rw [Movement.entries_apply hm] at he
    obtain hn | hn := Nat.lt_or_ge n d.ledgerEntries.rows.length
    · rw [List.getElem?_append_left hn] at he
      rw [Database.balanceAt_of_prefix hprefix hn]
      exact h.recorded n e he
    · rw [List.getElem?_append_right hn] at he
      obtain ⟨k, rfl⟩ := Nat.exists_eq_add_of_le hn
      rw [Nat.add_sub_cancel_left] at he
      match k, he with
      | 0, he =>
        cases he
        have hdebit : m.debit.accountId = m.sender.id := m.source
        rw [Nat.add_zero, hdebit, Movement.balanceAt_debit hm, if_pos rfl, ← hsender]
        rfl
      | 1, he =>
        cases he
        have hcredit : m.credit.accountId = m.receiver.id := m.destination
        rw [hcredit, Database.balanceAt_of_le hlength.le, Books.posted_apply hm, if_neg m.apart,
          if_pos rfl, add_zero, ← hreceiver]
        rfl
  · intro n b hb hu
    have hb' : b ∈ d.holders := Movement.holders_apply m d ▸ hb
    obtain hn | hn := Nat.lt_or_ge d.ledgerEntries.rows.length n
    · obtain ⟨k, rfl⟩ := Nat.exists_eq_add_of_lt hn
      cases k with
      | zero =>
        obtain ⟨a, ha, rfl⟩ := Database.mem_holders.mp hb'
        rw [Nat.add_zero]
        exact Movement.solvent_between hm h.books ha hu
      | succ k =>
        rw [Database.balanceAt_of_le (by omega)]
        exact hbooks.posted_nonneg hb hu
    · rw [Database.balanceAt_of_prefix hprefix hn]
      exact h.solvent n b hb' hu

/-- The step lemma. -/
lemma step (hstep : Advances P watched may now call x y) (h : Journal x) : Journal y := by
  have hy : Books y := h.books.step hstep
  have hstays : ∀ {z : Database}, Journal z → y.books = z.books → Journal y := by
    intro z hz hbooks
    exact hz.stays hy (Database.tables_of_books hbooks).2.2 (Database.holders_of_books hbooks)
  cases hstep.performs.moves with
  | still books => exact hstays h books
  | status found legal books =>
    exact hstays (h.stays (h.books.setStatus found) rfl (Database.holders_setAccount _ _)) books
  | pays enabled createdAt reversalOf authorized capped books =>
    exact hstays (h.apply enabled) books
  | mints unused row enabled type reversalOf createdAt books =>
    exact hstays ((h.insertAccount unused (by rw [row]; rfl)).apply enabled) books
  | reverses called found standing type sender window enabled executes books =>
    exact hstays ((h.stays h.books.setTransfer rfl rfl).apply enabled) books

end Journal

/-! ### The ledger only grows -/

/-- The run lemma. -/
lemma Leads.entries_prefix {s s' : State} (h : Leads P s s') (hs : Reachable P s) :
    s.db.ledgerEntries.rows <+: s'.db.ledgerEntries.rows := by
  induction h with
  | refl => exact List.prefix_refl _
  | @step u u' e h _ hstep ih =>
    have hu : Reachable P u' := Leads.reachable (h.step trivial hstep) hs
    obtain ⟨hdb, -⟩ | ⟨r, hhistory, hbefore, hafter⟩ := Sys.db_of_step hstep
    · rwa [hdb]
    · have hr : r ∈ u'.history := by simp [hhistory]
      have hmoves := (hu.sound.advances hr).performs.moves.entries_prefix
      rw [hbefore, hafter] at hmoves
      exact ih.trans hmoves

/-! ### The guarantee -/

/-- The later ledger continues the earlier one and still knows all its balances. Each of its entries
says what the ledger leaves up to there, and no user owes anything at any entry. -/
structure Remembers (x y : Database) : Prop where
  entries : x.ledgerEntries.rows <+: y.ledgerEntries.rows
  balances : ∀ a ∈ x.accounts, y.balanceAt x.ledgerEntries.rows.length a.id = a.balanceMinor
  recorded : ∀ n e, y.ledgerEntries.rows[n]? = some e →
    e.balanceAfter = y.balanceAt (n + 1) e.accountId
  solvent : ∀ n, ∀ a ∈ y.accounts, a.type = .user → 0 ≤ y.balanceAt n a.id

/-- What any state that the run has been in says about balances can be read off the ledger of any
later one. -/
theorem history_stands {s s' : State} (hs : Reachable P s) (h : Leads P s s') :
    Remembers s.db s'.db := by
  have hprefix := h.entries_prefix hs
  have hbooks : Books s.db := hs.sound.invariant .seed fun _ _ _ _ => .step
  have hjournal : Journal s'.db :=
    (h.reachable hs).sound.invariant .seed fun _ _ _ _ => .step
  constructor
  · exact hprefix
  · intro a ha
    rw [Database.balanceAt_of_prefix hprefix (le_refl _), Database.balanceAt_of_le (le_refl _)]
    exact (hbooks.balance a ha).symm
  · exact hjournal.recorded
  · intro n a ha hu
    exact hjournal.solvent n a.holder (Database.mem_holders.mpr ⟨a, ha, rfl⟩) hu

end

/-- Asha and Babu have registered. -/
def enrolled : State := State.after sample (session 0 100 asha ++ session 1 200 babu)

/-- Then Asha pays Babu. -/
def enrolledThenPaid : State :=
  enrolled.play (body sample) (fun _ _ => true)
    (session 2 300 (.sendMoney 100 "k" ⟨"01722222222", 2500, none⟩ .null {}))

theorem history_stands_enrolled :
    enrolled.db.ledgerEntries.rows.length = 4 ∧
      enrolledThenPaid.db.ledgerEntries.rows.length = 6 ∧
      Remembers enrolled.db enrolledThenPaid.db :=
  ⟨by decide +kernel, by decide +kernel,
    history_stands (reachable_after sample _) (.playAll _ (fun _ _ _ => trivial) .refl)⟩

end TakaFlow
