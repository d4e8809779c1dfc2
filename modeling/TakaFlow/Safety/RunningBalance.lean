import TakaFlow.History
import TakaFlow.Safety.Books

/-!
# The running balance of a statement

Balances are fixed in the order in which the account is locked, and statements are listed in the
order in which transactions begin.
-/

namespace TakaFlow

open Txn

/-! ### Statements -/

/-- The entries of an account. -/
def Database.entriesFor (d : Database) (accountId : Uuid) : List LedgerEntry :=
  d.ledgerEntries.rows.filter fun e => e.accountId = accountId

/-- The statement of an account, newest first. -/
def Database.statement (d : Database) (accountId : Uuid) : List LedgerEntry :=
  Keyset.listing LedgerEntry.place (d.entriesFor accountId)

/-- Every entry continues from the one listed below it, and the oldest from nothing. -/
def RunningBalance : List LedgerEntry → Prop
  | [] => True
  | e :: older =>
    e.balanceAfter = (older.head?.map LedgerEntry.balanceAfter).getD 0 + e.signed ∧
      RunningBalance older

/-- All statements add up. -/
def Database.AddsUp (d : Database) : Prop := ∀ accountId, RunningBalance (d.statement accountId)

/-- The commit adds no entry below an entry that the account has already. -/
def InOrder (_call : Call) (_now : Timestamp) (x y : Database) : Prop :=
  ∀ e ∈ y.ledgerEntries.rows, e ∉ x.ledgerEntries.rows →
    ∀ e' ∈ x.ledgerEntries.rows, e'.accountId = e.accountId → e'.place < e.place

/-- The entries of an account stay, or one is added that continues from all of them. -/
inductive Continues (x y : Database) (accountId : Uuid) : Prop where
  | same (entries : y.entriesFor accountId = x.entriesFor accountId)
  | next (e : LedgerEntry) (entries : y.entriesFor accountId = x.entriesFor accountId ++ [e])
    (balance : e.balanceAfter = x.posted accountId + e.signed) (moves : e.signed ≠ 0)

section

variable {P : Platform} {watched : Token → Prop} {may : ℕ → Database → Token → Prop}
  {now : Timestamp} {call : Call} {d x y z : Database} {accountId : Uuid} {e : LedgerEntry}

/-- The newest balance is the sum of all entries. -/
lemma RunningBalance.newest {l : List LedgerEntry} (h : RunningBalance l) :
    (l.head?.map LedgerEntry.balanceAfter).getD 0 = (l.map LedgerEntry.signed).sum := by
  induction l with
  | nil => rfl
  | cons e older ih =>
    obtain ⟨hbalance, holder⟩ := h
    rw [List.head?_cons, Option.map_some, Option.getD_some, hbalance, ih holder, List.map_cons,
      List.sum_cons, add_comm]

lemma sum_statement (d : Database) (accountId : Uuid) :
    ((d.statement accountId).map LedgerEntry.signed).sum = d.posted accountId :=
  ((Keyset.perm_listing _).map _).sum_eq

/-- The places of entries are different. -/
lemma nodup_places (d : Database) (accountId : Uuid) :
    ((d.entriesFor accountId).map LedgerEntry.place).Nodup := by
  have hids := (d.ledgerEntries.nodup.sublist (List.filter_sublist.map _) :
    ((d.entriesFor accountId).map LedgerEntry.id).Nodup)
  refine List.pairwise_map.mpr ((List.pairwise_map.mp hids).imp fun {e f} hne heq => hne ?_)
  exact congrArg (fun p : ℕ ×ₗ ℕ => (ofLex p).2) heq

/-! ### Every commit -/

lemma Database.entriesFor_congr (h : y.ledgerEntries = x.ledgerEntries) (accountId : Uuid) :
    y.entriesFor accountId = x.entriesFor accountId := by
  rw [entriesFor, h, entriesFor]

/-- A movement adds an entry to the statements of two accounts. -/
lemma Movement.continues {m : Movement} (h : m.Enabled d) (hbooks : Books d) (accountId : Uuid) :
    Continues d (m.apply d) accountId := by
  have hpositive := m.positive
  have hdebit : m.debit.accountId = m.sender.id := m.source
  have hcredit : m.credit.accountId = m.receiver.id := m.destination
  have hs := hbooks.balance m.sender (Table.mem_of_get? h.sender)
  have hr := hbooks.balance m.receiver (Table.mem_of_get? h.receiver)
  have hentries : (m.apply d).entriesFor accountId = d.entriesFor accountId ++
      [m.debit, m.credit].filter fun e => e.accountId = accountId := by
    rw [Database.entriesFor, Movement.entries_apply h, List.filter_append, Database.entriesFor]
  by_cases hsender : m.sender.id = accountId
  · have hother : ¬ m.receiver.id = accountId := fun heq => m.apart (hsender.trans heq.symm)
    have hnegative : m.debit.signed = -m.transfer.amountMinor := rfl
    refine .next m.debit ?_ ?_ ?_
    · rw [hentries]
      simp [hdebit, hcredit, hsender, hother]
    · rw [← hsender, ← hs, hnegative]
      rfl
    · rw [hnegative]
      omega
  · by_cases hreceiver : m.receiver.id = accountId
    · have hamount : m.credit.signed = m.transfer.amountMinor := rfl
      refine .next m.credit ?_ ?_ ?_
      · rw [hentries]
        simp [hdebit, hcredit, hsender, hreceiver]
      · rw [← hreceiver, ← hr, hamount]
        rfl
      · rw [hamount]
        omega
    · refine .same ?_
      rw [hentries]
      simp [hdebit, hcredit, hsender, hreceiver]

/-- Only the tables of the ledger matter. -/
lemma Continues.congr (h : Continues x y accountId) (hx : x.ledgerEntries = d.ledgerEntries)
    (hy : z.ledgerEntries = y.ledgerEntries) : Continues d z accountId := by
  cases h with
  | same entries =>
    rw [Database.entriesFor_congr hx, ← Database.entriesFor_congr hy] at entries
    exact .same entries
  | next e entries balance moves =>
    rw [Database.entriesFor_congr hx, ← Database.entriesFor_congr hy] at entries
    rw [Database.posted, hx] at balance
    exact .next e entries balance moves

/-- What a commit does to a statement. -/
lemma Moves.continues (h : Moves P watched may now call x y) (hbooks : Books x)
    (accountId : Uuid) : Continues x y accountId := by
  cases h with
  | still books =>
    exact .same (Database.entriesFor_congr (Database.tables_of_books books).2.2 accountId)
  | status found legal books =>
    exact .same (Database.entriesFor_congr (Database.tables_of_books books).2.2 accountId)
  | pays enabled createdAt reversalOf authorized capped books =>
    exact (Movement.continues enabled hbooks accountId).congr rfl
      (Database.tables_of_books books).2.2
  | mints unused row enabled type reversalOf createdAt books =>
    exact (Movement.continues enabled (hbooks.insertAccount unused (by rw [row]; rfl))
      accountId).congr rfl (Database.tables_of_books books).2.2
  | reverses called found standing type sender window enabled executes books =>
    exact (Movement.continues enabled hbooks.setTransfer accountId).congr rfl
      (Database.tables_of_books books).2.2

/-- A statement goes on adding up iff its new entry is the newest. -/
lemma Continues.runningBalance_iff (h : Continues x y accountId)
    (hx : RunningBalance (x.statement accountId)) :
    RunningBalance (y.statement accountId) ↔
      ∀ e ∈ y.entriesFor accountId, e ∉ x.entriesFor accountId →
        ∀ e' ∈ x.entriesFor accountId, e'.place < e.place := by
  cases h with
  | same entries =>
    unfold Database.statement at *
    rw [entries]
    exact ⟨fun _ e he hnew => absurd he hnew, fun _ => hx⟩
  | next e entries balance moves =>
    have hplaces := nodup_places y accountId
    rw [entries] at hplaces
    have hnew : ∀ f ∈ x.entriesFor accountId ++ [e], f ∉ x.entriesFor accountId → f = e := by
      intro f hf hnot
      obtain hf | hf := List.mem_append.mp hf
      · exact absurd hf hnot
      · exact List.mem_singleton.mp hf
    have hfresh : e ∉ x.entriesFor accountId := by
      intro he
      rw [List.map_append, List.map_singleton, List.nodup_append] at hplaces
      exact hplaces.2.2 e.place (List.mem_map_of_mem he) e.place List.mem_cons_self rfl
    have hsum := sum_statement x accountId
    obtain ⟨newer, older, hold, hlisted, hnewest⟩ := Keyset.listing_append_singleton hplaces
    unfold Database.statement at *
    rw [entries, hlisted]
    rw [hold] at hx hsum
    constructor
    · intro hrunning
      cases newer with
      | nil =>
        intro f hf hnot
        rw [hnew f hf hnot]
        exact hnewest.mp rfl
      | cons f newer =>
        -- Both statements end in the same balance, though the new one has one more entry.
        have hbefore := hx.newest
        have hafter := hrunning.newest
        simp only [List.cons_append, List.head?_cons, List.map_cons, List.sum_cons,
          List.map_append, List.sum_append] at hbefore hafter hsum
        exact absurd (by omega) moves
    · intro horder
      have hnil : newer = [] := hnewest.mpr (horder e List.mem_concat_self hfresh)
      subst hnil
      refine ⟨?_, hx⟩
      have hbefore := hx.newest
      simp only [List.nil_append] at hbefore hsum ⊢
      rw [hbefore, hsum, balance]

/-- Statements go on adding up iff the new entries are the newest of their accounts. -/
lemma addsUp_iff (h : ∀ accountId, Continues x y accountId) (hx : x.AddsUp) :
    y.AddsUp ↔ InOrder call now x y := by
  have hmem : ∀ (d : Database) (f : LedgerEntry) (id : Uuid),
      f ∈ d.entriesFor id ↔ f ∈ d.ledgerEntries.rows ∧ f.accountId = id := by
    intro d f id
    rw [Database.entriesFor, List.mem_filter, decide_eq_true_eq]
  constructor
  · intro hy e he hnew e' he' hid
    refine ((h e.accountId).runningBalance_iff (hx e.accountId)).mp (hy e.accountId) e
      ((hmem y e _).mpr ⟨he, rfl⟩) (fun hold => hnew ((hmem x e _).mp hold).1) e'
      ((hmem x e' _).mpr ⟨he', hid⟩)
  · intro horder accountId
    refine ((h accountId).runningBalance_iff (hx accountId)).mpr fun e he hnew e' he' => ?_
    obtain ⟨hey, hid⟩ := (hmem y e accountId).mp he
    obtain ⟨hex', hid'⟩ := (hmem x e' accountId).mp he'
    exact horder e hey (fun hold => hnew ((hmem x e accountId).mpr ⟨hold, hid⟩)) e' hex'
      (hid'.trans hid.symm)

end

/-! ### The guarantee -/

/-- All statements of a run add up, in every state, iff no commit adds an entry below an older one
of its account. -/
theorem statements_add_up {P : Platform} {s : State} (h : Reachable P s) :
    (s.db.AddsUp ∧ ∀ r ∈ s.history, r.after.AddsUp) ↔
      ∀ r ∈ s.history, InOrder r.call r.now r.before r.after := by
  have hsound := h.sound
  have hbooks : ∀ r ∈ s.history, Books r.before := fun r hr =>
    (hsound.invariant_mem .seed (fun _ _ _ _ => Books.step) hr).1
  have hseed : seed.AddsUp := fun _ => trivial
  have hstep : ∀ r ∈ s.history, r.before.AddsUp →
      (r.after.AddsUp ↔ InOrder r.call r.now r.before r.after) := by
    intro r hr hx
    exact addsUp_iff (fun accountId =>
      (hsound.advances hr).performs.moves.continues (hbooks r hr) accountId) hx
  constructor
  · rintro ⟨-, hall⟩ r hr
    have hbefore := (hsound.linked.invariant_mem hseed (fun r hr _ => hall r hr) r hr).1
    exact (hstep r hr hbefore).mp (hall r hr)
  · intro horder
    have hafter : ∀ r ∈ s.history, r.before.AddsUp → r.after.AddsUp :=
      fun r hr hx => (hstep r hr hx).mpr (horder r hr)
    exact ⟨hsound.linked.invariant hseed hafter,
      fun r hr => (hsound.linked.invariant_mem hseed hafter r hr).2⟩

/-- Asha's payment begins before Babu's and is committed after it. -/
def overtakenRun : List Step :=
  session 0 100 asha ++ session 1 200 babu ++
    .begin (.sendMoney 100 "k" ⟨"01722222222", 2500, none⟩ .null {}) :: .tick microsPerSecond ::
    session 3 300 (.sendMoney 200 "l" ⟨"01711111111", 1000, none⟩ .null {}) ++
    advance 2 40 400 ++ [.finish 2]

/-- The statements of two payments, one after the other. -/
theorem statements_add_up_sample :
    ((State.after sample sampleRun).db.statement 101).map LedgerEntry.balanceAfter =
        [9997500, 10000000] ∧
      (((State.after sample sampleRun).db.AddsUp ∧
          ∀ r ∈ (State.after sample sampleRun).history, r.after.AddsUp) ↔
        ∀ r ∈ (State.after sample sampleRun).history, InOrder r.call r.now r.before r.after) :=
  ⟨by decide +kernel, statements_add_up (reachable_after sample sampleRun)⟩

/-- The newest balance of such a statement is not the sum of its entries. -/
lemma not_addsUp {d : Database} {accountId : Uuid}
    (h : ((d.statement accountId).map fun e => (e.signed, e.balanceAfter)) =
      [(1000, 10001000), (-2500, 9998500), (10000000, 10000000)]) : ¬ d.AddsUp := by
  intro hall
  have hsigned : (d.statement accountId).map LedgerEntry.signed = [1000, -2500, 10000000] := by
    have hfst := congrArg (List.map Prod.fst) h
    rwa [List.map_map] at hfst
  have hbalances : (d.statement accountId).map LedgerEntry.balanceAfter =
      [10001000, 9998500, 10000000] := by
    have hsnd := congrArg (List.map Prod.snd) h
    rwa [List.map_map] at hsnd
  have hnewest := (hall accountId).newest
  rw [← List.head?_map, hbalances, hsigned] at hnewest
  exact absurd hnewest (by decide)

/-- Asha's statement lists her payment below Babu's, and neither balance continues the other. -/
theorem statement_out_of_order : ∃ s, Reachable sample s ∧
    ((s.db.statement 101).map fun e => (e.signed, e.balanceAfter)) =
      [(1000, 10001000), (-2500, 9998500), (10000000, 10000000)] ∧ ¬ s.db.AddsUp := by
  have hlisted : (((State.after sample overtakenRun).db.statement 101).map
      fun e => (e.signed, e.balanceAfter)) =
        [(1000, 10001000), (-2500, 9998500), (10000000, 10000000)] := by decide +kernel
  exact ⟨_, reachable_after sample overtakenRun, hlisted, not_addsUp hlisted⟩

end TakaFlow
