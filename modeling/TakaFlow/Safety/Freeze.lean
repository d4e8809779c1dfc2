import TakaFlow.Spec.Money

/-!
# A frozen account pays nothing

The status of an account is checked under its row lock, so in commit order no payment out of an
account comes between its freeze and the change back, and a closed account stays as it is.
-/

namespace TakaFlow

open Txn

/-- The account is frozen or closed. -/
def Stopped (id : Uuid) (d : Database) : Prop :=
  ∃ a, d.accounts.get? id = some a ∧ a.status ≠ .active

/-- The commit makes a transfer out of the account. -/
def Debits (r : Record) (id : Uuid) : Prop :=
  ∃ t ∈ r.after.transfers, r.before.transfers.has t.id = false ∧ t.fromAccountId = id

/-- The commit makes a transfer to the account. -/
def Credits (r : Record) (id : Uuid) : Prop :=
  ∃ t ∈ r.after.transfers, r.before.transfers.has t.id = false ∧ t.toAccountId = id

/-! ### What one commit does -/

section

variable {P : Platform} {watched : Token → Prop} {may : ℕ → Database → Token → Prop}
  {now : Timestamp} {call : Call} {x y : Database} {t : Transfer} {a : Account} {m : Movement}

/-- The accounts of a movement are known by their identifiers. -/
lemma Movement.Enabled.sides (h : m.Enabled x) (ha : a ∈ x.accounts) :
    (a.id = m.sender.id → a = m.sender) ∧ (a.id = m.receiver.id → a = m.receiver) := by
  have hget := Table.get?_of_mem ha
  constructor
  · intro hid
    rw [hid, h.sender] at hget
    exact (Option.some.inj hget).symm
  · intro hid
    rw [hid, h.receiver] at hget
    exact (Option.some.inj hget).symm

/-- A new transfer was made by a movement between accounts that were as they are in `x`. -/
lemma Moves.new_transfer (h : Moves P watched may now call x y) (ht : t ∈ y.transfers)
    (hnew : x.transfers.has t.id = false) :
    ∃ m : Movement, t = m.transfer ∧
      (∀ a ∈ x.accounts, a.id = m.sender.id → a = m.sender) ∧
      ∀ a ∈ x.accounts, a.id = m.receiver.id → a = m.receiver := by
  have hsame : ∀ u ∈ x.transfers, x.transfers.has u.id = false → False := by
    intro u hu hunused
    rw [Table.has_eq_false, Table.get?_of_mem hu] at hunused
    cases hunused
  have hold : t ∈ x.transfers → False := fun h => hsame t h hnew
  have hbooks : ∀ {z : Database}, y.books = z.books → t ∈ z.transfers := by
    intro z hz
    exact (Database.tables_of_books hz).2.1 ▸ ht
  cases h with
  | still books => exact (hold (hbooks books)).elim
  | @status a status version found legal books =>
    exact (hold (hbooks (z := x.setAccount { a with status, version }) books)).elim
  | @pays m enabled createdAt reversalOf authorized capped books =>
    rcases (Movement.mem_transfers enabled).mp (hbooks books) with h | rfl
    · exact (hold h).elim
    · exact ⟨m, rfl, fun a ha => (enabled.sides ha).1, fun a ha => (enabled.sides ha).2⟩
  | @mints userId account m unused row enabled type reversalOf createdAt books =>
    rcases (Movement.mem_transfers enabled).mp (hbooks books) with h | rfl
    · exact (hold h).elim
    · have hmem : ∀ a ∈ x.accounts, a ∈ (x.insertAccount account).accounts :=
        fun a ha => Table.mem_insert_of_mem ha
      exact ⟨m, rfl, fun a ha => (enabled.sides (hmem a ha)).1,
        fun a ha => (enabled.sides (hmem a ha)).2⟩
  | @reverses _ _ _ _ _ original m _ found standing type sender window enabled executes books =>
    rcases (Movement.mem_transfers enabled).mp (hbooks books) with h | rfl
    · rcases (Database.mem_setTransfer_reversed found).mp h with rfl | ⟨h, -⟩
      · exact (hsame _ found hnew).elim
      · exact (hsame t h hnew).elim
    · exact ⟨m, rfl, fun a ha => (enabled.sides ha).1, fun a ha => (enabled.sides ha).2⟩

/-- A movement leaves a closed account as it is. -/
lemma Movement.Enabled.keeps_closed (h : m.Enabled x) (ha : a ∈ x.accounts)
    (hclosed : a.status = .closed) : a ∈ (m.apply x).accounts := by
  obtain ⟨hs, hr⟩ := h.sides ha
  have hget : (m.apply x).accounts.get? a.id = some a := by
    rw [Movement.account_apply h, if_neg, if_neg]
    · exact Table.get?_of_mem ha
    · intro hid
      exact m.notClosed (hr hid ▸ hclosed)
    · intro hid
      have hactive := m.active
      rw [← hs hid, hclosed] at hactive
      cases hactive
  exact Table.mem_of_get? hget

/-- Only a further closing touches a closed account. -/
lemma Moves.keeps_closed (h : Moves P watched may now call x y) (ha : a ∈ x.accounts)
    (hclosed : a.status = .closed) (hcall : ∀ user, call ≠ .closeAccount user) :
    a ∈ y.accounts := by
  have hbooks : ∀ {z : Database}, y.books = z.books → a ∈ z.accounts → a ∈ y.accounts := by
    intro z hz hmem
    exact (Database.tables_of_books hz).1.symm ▸ hmem
  cases h with
  | still books => exact hbooks books ha
  | @status b status version found legal books =>
    refine hbooks books ?_
    have hne : a.id ≠ b.id := by
      intro hid
      have hget := Table.get?_of_mem ha
      rw [hid, found] at hget
      cases hget
      rcases legal with h | ⟨user, h, -⟩
      · exact h hclosed
      · exact hcall user h
    have hget : (x.setAccount { b with status, version }).accounts.get? a.id = some a := by
      rw [Database.account_setAccount, if_neg hne, Table.get?_of_mem ha]
    exact Table.mem_of_get? hget
  | pays enabled createdAt reversalOf authorized capped books =>
    exact hbooks books (enabled.keeps_closed ha hclosed)
  | mints unused row enabled type reversalOf createdAt books =>
    exact hbooks books (enabled.keeps_closed (Table.mem_insert_of_mem ha) hclosed)
  | reverses called found standing type sender window enabled executes books =>
    exact hbooks books (enabled.keeps_closed ha hclosed)

end

/-! ### The guarantee -/

/-- What a freeze and a closing mean for the commits of a run. -/
structure FreezesHold (s : State) : Prop where
  /-- No payment comes after a commit that stopped the account and before one that sets it free. -/
  frozen : ∀ id before r between q after,
    s.history = before ++ r :: (between ++ q :: after) → Stopped id r.after →
    (∀ p ∈ between, Stopped id p.after) → ¬ Debits q id
  /-- A closed account gets no money. -/
  uncredited : ∀ r ∈ s.history, ∀ a ∈ r.before.accounts, a.status = .closed → ¬ Credits r a.id
  /-- A closed account stays as it is, whatever is done but closing it again. -/
  closed : ∀ r ∈ s.history, ∀ a ∈ r.before.accounts, a.status = .closed →
    (∀ user, r.call ≠ .closeAccount user) → a ∈ r.after.accounts

/-- Freezes hold in every run. -/
theorem freezes_hold {P : Platform} {s : State} (h : Reachable P s) : FreezesHold s := by
  have hsound := h.sound
  constructor
  · intro id before r between q after hhistory hr hbetween hdebits
    have hlinked := hsound.linked
    rw [hhistory] at hlinked
    obtain ⟨d, -, hlinked⟩ := hlinked.split
    obtain ⟨a, hget, hstatus⟩ : Stopped id q.before := hlinked.next hr hbetween
    obtain ⟨t, ht, hnew, hfrom⟩ := hdebits
    have hq : q ∈ s.history := by
      rw [hhistory]
      simp
    obtain ⟨m, rfl, hsender, -⟩ := (hsound.advances hq).performs.moves.new_transfer ht hnew
    have hid : a.id = m.sender.id := by
      rw [Table.key_of_get? hget, ← hfrom, m.source]
    exact hstatus (hsender a (Table.mem_of_get? hget) hid ▸ m.active)
  · rintro r hr a ha hclosed ⟨t, ht, hnew, hto⟩
    obtain ⟨m, rfl, -, hreceiver⟩ := (hsound.advances hr).performs.moves.new_transfer ht hnew
    have hid : a.id = m.receiver.id := by
      rw [← hto, m.destination]
    exact m.notClosed (hreceiver a ha hid ▸ hclosed)
  · intro r hr a ha hclosed hcall
    exact (hsound.advances hr).performs.moves.keeps_closed ha hclosed hcall

/-- Asha freezes her account, tries to pay, and pays after the freeze is over. -/
def frozenRun : List Step :=
  session 0 100 asha ++ session 1 200 babu ++ session 2 300 (.setOwnFreeze 100 true {}) ++
    session 3 400 (.sendMoney 100 "k" ⟨"01722222222", 2500, none⟩ .null {}) ++
    session 4 500 (.setOwnFreeze 100 false {}) ++
    session 5 600 (.sendMoney 100 "k" ⟨"01722222222", 2500, none⟩ .null {})

theorem freezes_hold_frozenRun :
    (State.after sample frozenRun).history.map Commit.session = [0, 1, 2, 4, 5] ∧
      FreezesHold (State.after sample frozenRun) :=
  ⟨by decide +kernel, freezes_hold (reachable_after sample frozenRun)⟩

end TakaFlow
