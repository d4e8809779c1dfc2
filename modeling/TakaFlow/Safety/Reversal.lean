import TakaFlow.Spec.Money
import TakaFlow.Safety.Books

/-!
# Reversals

A transfer is reversed exactly when one reversal compensates it. The change of status and the
compensating movement are one commit, so that an attempt that is refused leaves nothing.
-/

namespace TakaFlow

open Txn

/-- The second transfer moves the money of the first one back. -/
structure Mirrors (t u : Transfer) : Prop where
  type : u.type = .reversal
  amountMinor : u.amountMinor = t.amountMinor
  fromAccountId : u.fromAccountId = t.toAccountId
  toAccountId : u.toAccountId = t.fromAccountId

/-- The invariant of reversals. -/
structure Compensated (d : Database) : Prop where
  /-- What names a transfer as its original mirrors one. -/
  mirrors : ∀ u ∈ d.transfers, ∀ id, u.reversalOf = some id →
    ∃ t ∈ d.transfers, t.id = id ∧ t.status = .reversed ∧ Mirrors t u
  reversed : ∀ t ∈ d.transfers, t.status = .reversed →
    ∃ u ∈ d.transfers, u.reversalOf = some t.id
  once : ∀ u ∈ d.transfers, ∀ u' ∈ d.transfers, u.reversalOf.isSome → u.reversalOf = u'.reversalOf →
    u = u'

namespace Compensated

variable {d x y : Database} {m : Movement}

lemma seed : Compensated seed := ⟨nofun, nofun, nofun⟩

lemma congr (h : y.transfers = x.transfers) (hx : Compensated x) : Compensated y :=
  ⟨h ▸ hx.mirrors, h ▸ hx.reversed, h ▸ hx.once⟩

/-- A payment is no reversal. -/
lemma apply (h : Compensated d) (hm : m.Enabled d) (hnone : m.transfer.reversalOf = none) :
    Compensated (m.apply d) := by
  constructor
  · intro u hu id hid
    rcases (Movement.mem_transfers hm).mp hu with hu | rfl
    · obtain ⟨t, ht, hrest⟩ := h.mirrors u hu id hid
      exact ⟨t, (Movement.mem_transfers hm).mpr (.inl ht), hrest⟩
    · rw [hnone] at hid
      cases hid
  · intro t ht hstatus
    rcases (Movement.mem_transfers hm).mp ht with ht | rfl
    · obtain ⟨u, hu, hid⟩ := h.reversed t ht hstatus
      exact ⟨u, (Movement.mem_transfers hm).mpr (.inl hu), hid⟩
    · rw [m.standing] at hstatus
      cases hstatus
  · intro u hu u' hu' hsome heq
    rcases (Movement.mem_transfers hm).mp hu with hu | rfl
    · rcases (Movement.mem_transfers hm).mp hu' with hu' | rfl
      · exact h.once u hu u' hu' hsome heq
      · rw [heq, hnone] at hsome
        cases hsome
    · rw [hnone] at hsome
      cases hsome

/-- A reversal changes the status of its original and mirrors it. -/
lemma reverse {original : Transfer} (h : Compensated d) (hfound : original ∈ d.transfers)
    (hstanding : original.status = .completed) (hm : m.Enabled (d.setTransfer original.reversed))
    (hof : m.transfer.reversalOf = some original.id) (hmirrors : Mirrors original m.transfer) :
    Compensated (m.apply (d.setTransfer original.reversed)) := by
  have hmem : ∀ t, t ∈ (m.apply (d.setTransfer original.reversed)).transfers ↔
      (t = original.reversed ∨ (t ∈ d.transfers ∧ t.id ≠ original.id)) ∨ t = m.transfer := by
    intro t
    rw [Movement.mem_transfers hm, Database.mem_setTransfer_reversed hfound]
  -- Every row was there before, up to its status.
  have hold : ∀ t, (t = original.reversed ∨ (t ∈ d.transfers ∧ t.id ≠ original.id)) →
      ∃ t₀ ∈ d.transfers, t₀.reversalOf = t.reversalOf ∧ t₀.id = t.id ∧ t₀.core = t.core := by
    rintro t (rfl | ⟨ht, -⟩)
    · exact ⟨original, hfound, rfl, rfl, rfl⟩
    · exact ⟨t, ht, rfl, rfl, rfl⟩
  -- The original is not reversed yet, so nothing names it.
  have hnone : ∀ u ∈ d.transfers, u.reversalOf ≠ some original.id := by
    intro u hu hid
    obtain ⟨t, ht, heq, hreversed, -⟩ := h.mirrors u hu _ hid
    rw [Table.eq_of_mem ht hfound heq, hstanding] at hreversed
    cases hreversed
  constructor
  · intro u hu id hid
    rcases (hmem u).mp hu with hu | rfl
    · obtain ⟨u₀, hu₀, hof₀, -, hcore⟩ := hold u hu
      obtain ⟨t, ht, rfl, hreversed, hmirror⟩ := h.mirrors u₀ hu₀ id (hof₀.trans hid)
      have hne : t.id ≠ original.id := fun heq => hnone u₀ hu₀ (heq ▸ hof₀.trans hid)
      refine ⟨t, (hmem t).mpr (.inl (.inr ⟨ht, hne⟩)), rfl, hreversed, ?_⟩
      constructor
      · exact (congrArg Transfer.type hcore).symm.trans hmirror.type
      · exact (congrArg Transfer.amountMinor hcore).symm.trans hmirror.amountMinor
      · exact (congrArg Transfer.fromAccountId hcore).symm.trans hmirror.fromAccountId
      · exact (congrArg Transfer.toAccountId hcore).symm.trans hmirror.toAccountId
    · rw [hof] at hid
      cases hid
      exact ⟨original.reversed, (hmem _).mpr (.inl (.inl rfl)), rfl, rfl, hmirrors.type,
        hmirrors.amountMinor, hmirrors.fromAccountId, hmirrors.toAccountId⟩
  · intro t ht hstatus
    rcases (hmem t).mp ht with (rfl | ⟨ht, hne⟩) | rfl
    · exact ⟨m.transfer, (hmem _).mpr (.inr rfl), hof⟩
    · obtain ⟨u, hu, hid⟩ := h.reversed t ht hstatus
      by_cases heq : u.id = original.id
      · refine ⟨original.reversed, (hmem _).mpr (.inl (.inl rfl)), ?_⟩
        rw [← hid, Table.eq_of_mem hu hfound heq]
        rfl
      · exact ⟨u, (hmem u).mpr (.inl (.inr ⟨hu, heq⟩)), hid⟩
    · rw [m.standing] at hstatus
      cases hstatus
  · intro u hu u' hu' hsome heq
    have hsame : ∀ v, (v = original.reversed ∨ (v ∈ d.transfers ∧ v.id ≠ original.id)) →
        v.reversalOf ≠ m.transfer.reversalOf := by
      intro v hv hveq
      obtain ⟨v₀, hv₀, hof₀, -⟩ := hold v hv
      exact hnone v₀ hv₀ (hof₀.trans (hveq.trans hof))
    rcases (hmem u).mp hu with hu | rfl <;> rcases (hmem u').mp hu' with hu' | rfl
    · obtain ⟨u₀, hu₀, hof₀, hid₀, -⟩ := hold u hu
      obtain ⟨u₁, hu₁, hof₁, hid₁, -⟩ := hold u' hu'
      have hids : u.id = u'.id := by
        rw [← hid₀, ← hid₁, h.once u₀ hu₀ u₁ hu₁ (hof₀ ▸ hsome) (by rw [hof₀, hof₁, heq])]
      exact Table.eq_of_mem (Database.mem_setTransfer_reversed hfound |>.mpr hu)
        (Database.mem_setTransfer_reversed hfound |>.mpr hu') hids
    · exact (hsame u hu heq).elim
    · exact (hsame u' hu' heq.symm).elim
    · rfl

/-- The step lemma. -/
lemma step {P : Platform} {watched : Token → Prop} {may : ℕ → Database → Token → Prop}
    {now : Timestamp} {call : Call} (hstep : Moves P watched may now call x y)
    (h : Compensated x) : Compensated y := by
  cases hstep with
  | still books => exact h.congr (Database.tables_of_books books).2.1
  | @status a status version found legal books =>
    exact h.congr (x := x) (Database.tables_of_books books).2.1
  | pays enabled createdAt reversalOf authorized capped books =>
    exact (h.apply enabled reversalOf).congr (Database.tables_of_books books).2.1
  | @mints userId account m unused row enabled type reversalOf createdAt books =>
    have h' : Compensated (x.insertAccount account) := congr (x := x) rfl h
    exact (h'.apply enabled reversalOf).congr (Database.tables_of_books books).2.1
  | @reverses _ _ _ _ _ original m _ found standing type sender window enabled executes books =>
    obtain ⟨note, keyId, executes⟩ := executes
    have hmirrors : Mirrors original m.transfer :=
      ⟨executes.type, executes.amountMinor, m.source.trans executes.sender,
        m.destination.trans executes.receiver⟩
    exact (h.reverse found standing enabled executes.reversalOf hmirrors).congr
      (Database.tables_of_books books).2.1

end Compensated

/-! ### The entries of a transfer -/

section

variable {P : Platform} {watched : Token → Prop} {may : ℕ → Database → Token → Prop}
  {now : Timestamp} {call : Call} {x y : Database} {t : Transfer} {m : Movement}

lemma Movement.Enabled.keeps_entries (h : m.Enabled x) (ht : t ∈ x.transfers) :
    (m.apply x).entriesOf t.id = x.entriesOf t.id := by
  have hne : m.transfer.id ≠ t.id := by
    intro heq
    have hnone := (Table.has_eq_false _ _).mp h.transfer
    rw [heq, Table.get?_of_mem ht] at hnone
    cases hnone
  rw [Books.entriesOf_apply h, if_neg hne, List.append_nil]

/-- The entries of a transfer never change. -/
lemma Moves.keeps_entries (h : Moves P watched may now call x y) (ht : t ∈ x.transfers) :
    y.entriesOf t.id = x.entriesOf t.id := by
  have hbooks : ∀ {z : Database}, y.books = z.books → y.entriesOf t.id = z.entriesOf t.id := by
    intro z hz
    rw [Database.entriesOf, (Database.tables_of_books hz).2.2]
    rfl
  cases h with
  | still books => exact hbooks books
  | @status a status version found legal books =>
    exact hbooks (z := x.setAccount { a with status, version }) books
  | pays enabled createdAt reversalOf authorized capped books =>
    exact (hbooks books).trans (enabled.keeps_entries ht)
  | mints unused row enabled type reversalOf createdAt books =>
    exact (hbooks books).trans (enabled.keeps_entries ht)
  | @reverses _ _ _ _ _ original m _ found standing type sender window enabled executes books =>
    obtain ⟨t', ht', hid⟩ : ∃ t' ∈ (x.setTransfer original.reversed).transfers, t'.id = t.id := by
      by_cases heq : t.id = original.id
      · exact ⟨_, (Database.mem_setTransfer_reversed found).mpr (.inl rfl), heq.symm⟩
      · exact ⟨t, (Database.mem_setTransfer_reversed found).mpr (.inr ⟨ht, heq⟩), rfl⟩
    exact (hbooks books).trans (hid ▸ enabled.keeps_entries ht')

end

/-! ### Who reverses -/

/-- The commit of a reversal: the sender of the original asked for it in time. -/
structure ReversedBy (P : Platform) (r : Record) (t : Transfer) (u : Transfer) : Prop where
  called : ∃ user reference key raw context,
    r.call = .reverseTransfer user reference key raw context ∧ Owns user t.fromAccountId r.before
  standing : t.status = .completed
  type : t.type ≠ .mint ∧ t.type ≠ .reversal
  /-- `Date.now()` at the check, some time after the transaction began. -/
  window : ∃ clock, r.now ≤ clock ∧
    (toMillis clock : ℤ) - toMillis t.createdAt ≤ P.config.reversalWindowSeconds * 1000
  createdAt : u.createdAt = r.now
  mirrors : Mirrors t u
  /-- The recipient could pay, and neither side was barred from it. -/
  recipient : ∃ a ∈ r.before.accounts, a.id = t.toAccountId ∧ a.status = .active ∧
    (a.type = .system ∨ t.amountMinor ≤ a.balanceMinor)
  sender : ∃ a ∈ r.before.accounts, a.id = t.fromAccountId ∧ a.status ≠ .closed

/-- What one commit does to transfers: nothing to those that are there, unless it reverses one. -/
lemma Moves.reversedBy {P : Platform} {watched : Token → Prop}
    {may : ℕ → Database → Token → Prop} {r : Record}
    (h : Moves P watched may r.now r.call r.before r.after) {t : Transfer}
    (ht : t ∈ r.before.transfers) :
    t ∈ r.after.transfers ∨ t.reversed ∈ r.after.transfers ∧
      ∃ u ∈ r.after.transfers, r.before.transfers.has u.id = false ∧ u.reversalOf = some t.id ∧
        ReversedBy P r t u := by
  cases h with
  | still books => exact .inl ((Database.tables_of_books books).2.1.symm ▸ ht)
  | @status a status version found legal books =>
    exact .inl ((Database.tables_of_books (d := r.before.setAccount _) books).2.1.symm ▸ ht)
  | pays enabled createdAt reversalOf authorized capped books =>
    exact .inl ((Database.tables_of_books books).2.1.symm ▸
      (Movement.mem_transfers enabled).mpr (.inl ht))
  | mints unused row enabled type reversalOf createdAt books =>
    exact .inl ((Database.tables_of_books books).2.1.symm ▸
      (Movement.mem_transfers enabled).mpr (.inl ht))
  | @reverses user _ _ _ _ original m called found standing type sender window enabled executes
      books =>
    have htables := (Database.tables_of_books books).2.1
    by_cases heq : t.id = original.id
    · rw [Table.eq_of_mem ht found heq]
      refine .inr ⟨?_, m.transfer, ?_, ?_, ?_⟩
      · rw [htables]
        exact (Movement.mem_transfers enabled).mpr
          (.inl ((Database.mem_setTransfer_reversed found).mpr (.inl rfl)))
      · rw [htables]
        exact (Movement.mem_transfers enabled).mpr (.inr rfl)
      · have hunused := enabled.transfer
        simpa only [Database.setTransfer, Table.has_modify] using hunused
      · obtain ⟨note, keyId, executes⟩ := executes
        have hmirrors : Mirrors original m.transfer :=
          ⟨executes.type, executes.amountMinor, m.source.trans executes.sender,
            m.destination.trans executes.receiver⟩
        refine ⟨executes.reversalOf, ⟨_, _, _, _, _, called, sender⟩, standing, type, window,
          executes.createdAt, hmirrors, ?_, ?_⟩
        · exact ⟨m.sender, Table.mem_of_get? enabled.sender, executes.sender, m.active,
            hmirrors.amountMinor ▸ m.funds⟩
        · exact ⟨m.receiver, Table.mem_of_get? enabled.receiver, executes.receiver, m.notClosed⟩
    · refine .inl ?_
      rw [htables]
      exact (Movement.mem_transfers enabled).mpr
        (.inl ((Database.mem_setTransfer_reversed found).mpr (.inr ⟨ht, heq⟩)))

/-- A call that returns repeats an answer or has reversed the transfer it names. -/
lemma reversed_of_commitSpec {P : Platform} {watched : Token → Prop}
    {may : ℕ → Database → Token → Prop} {now : Timestamp} {user : Uuid} {reference key : String}
    {raw : Json} {context : RequestContext} {reply : Reply} {x y : Database}
    (h : CommitSpec P watched may now (.reverseTransfer user reference key raw context) reply x y) :
    y = x ∨ ∃ t ∈ x.transfers, t.reference = reference ∧ t.status = .completed ∧
      t.reversed ∈ y.transfers := by
  cases h with
  | replay => exact .inl rfl
  | fresh hclaim hwork hkeys =>
    obtain ⟨t, m, -, hr⟩ := hwork
    refine .inr ⟨t, hr.found, hr.named, hr.standing, ?_⟩
    rw [hr.notes.rest]
    exact (Movement.mem_transfers hr.enabled).mpr
      (.inl ((Database.mem_setTransfer_reversed hr.found).mpr (.inl rfl)))

/-! ### The guarantee -/

/-- Reversals in a run. -/
structure ReversalsHold (P : Platform) (s : State) : Prop where
  /-- A transfer is reversed iff exactly one reversal names it. -/
  once : ∀ t ∈ s.db.transfers, t.status = .reversed ↔
    ∃! u, u ∈ s.db.transfers ∧ u.type = .reversal ∧ u.reversalOf = some t.id
  /-- What names it moves its amount back. -/
  mirrors : ∀ t ∈ s.db.transfers, ∀ u ∈ s.db.transfers, u.reversalOf = some t.id → Mirrors t u
  /-- A commit leaves a transfer as it is, or its sender reverses it. -/
  sender : ∀ r ∈ s.history, ∀ t ∈ r.before.transfers,
    t ∈ r.after.transfers ∨ t.reversed ∈ r.after.transfers ∧
      ∃ u ∈ r.after.transfers, r.before.transfers.has u.id = false ∧ u.reversalOf = some t.id ∧
        ReversedBy P r t u
  /-- Its entries stay. -/
  entries : ∀ r ∈ s.history, ∀ t ∈ r.before.transfers,
    r.after.entriesOf t.id = r.before.entriesOf t.id
  /-- Each session is among the commits or has left nothing, and only commits make the state. -/
  refused : (∀ i x, s.sessions[i]? = some x → Ended s i x.phase) ∧ Linked seed s.history s.db
  /-- A call that returns repeats an answer or has reversed the transfer it names. -/
  returned : ∀ r ∈ s.history, ∀ user reference key raw context,
    r.call = .reverseTransfer user reference key raw context →
    r.after = r.before ∨ ∃ t ∈ r.before.transfers, t.reference = reference ∧
      t.status = .completed ∧ t.reversed ∈ r.after.transfers

/-- Reversals are exact in every run. -/
theorem reversals_hold {P : Platform} {s : State} (h : Reachable P s) : ReversalsHold P s := by
  have hsound := h.sound
  have hstep : ∀ now call x y, Advances P (fun _ => False) (fun _ _ _ => True) now call x y →
      Compensated x → Compensated y := fun _ _ _ _ hadv hx => .step hadv.performs.moves hx
  have hdb : Compensated s.db := hsound.invariant .seed hstep
  have hmirrors : ∀ t ∈ s.db.transfers, ∀ u ∈ s.db.transfers, u.reversalOf = some t.id →
      t.status = .reversed ∧ Mirrors t u := by
    intro t ht u hu hid
    obtain ⟨t', ht', heq, hstatus, hmirror⟩ := hdb.mirrors u hu _ hid
    rw [← Table.eq_of_mem ht' ht heq]
    exact ⟨hstatus, hmirror⟩
  constructor
  · intro t ht
    constructor
    · intro hstatus
      obtain ⟨u, hu, hid⟩ := hdb.reversed t ht hstatus
      refine ⟨u, ⟨hu, (hmirrors t ht u hu hid).2.type, hid⟩, ?_⟩
      rintro u' ⟨hu', -, hid'⟩
      exact hdb.once u' hu' u hu (by rw [hid']; rfl) (hid'.trans hid.symm)
    · rintro ⟨u, ⟨hu, -, hid⟩, -⟩
      exact (hmirrors t ht u hu hid).1
  · intro t ht u hu hid
    exact (hmirrors t ht u hu hid).2
  · intro r hr t ht
    exact (hsound.advances hr).performs.moves.reversedBy ht
  · intro r hr t ht
    exact (hsound.advances hr).performs.moves.keeps_entries ht
  · exact ⟨fun i x hx => h.ended hx, hsound.linked⟩
  · intro r hr user reference key raw context hcall
    have hspec := (hsound.commits r hr).1
    rw [hcall] at hspec
    exact reversed_of_commitSpec hspec

/-- Asha pays Babu on the next day, takes it back, and fails to take it back again. -/
def reversedRun : List Step :=
  session 0 100 asha ++ session 1 200 babu ++ .tick (secondsPerDay * microsPerSecond) ::
    session 2 300 (.sendMoney 100 "k" ⟨"01722222222", 2500, none⟩ .null {}) ++
    session 3 400 (.reverseTransfer 100 "TF27011600000000" "r" .null {}) ++
    session 4 500 (.reverseTransfer 100 "TF27011600000000" "s" .null {})

theorem reversals_hold_reversedRun :
    (State.after sample reversedRun).history.map Commit.session = [0, 1, 2, 3] ∧
      ReversalsHold sample (State.after sample reversedRun) :=
  ⟨by decide +kernel, reversals_hold (reachable_after sample reversedRun)⟩

end TakaFlow
