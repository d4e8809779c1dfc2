import TakaFlow.Safety.Books
import TakaFlow.Safety.ExactlyOnce
import TakaFlow.Safety.Reconciled
import TakaFlow.Safety.Supply

/-!
# The backend passes its own reconciliation

A report that sees one committed state finds nothing, whatever the run that led there. So a finding
is due to something else than the calls.
-/

namespace TakaFlow

open Txn

/-! ### What a report sees -/

/-- The rows a report sees are those of the state. -/
structure Database.ReadsAs (d : Database) (r : Relations) : Prop where
  accounts : r.accounts.rows = d.accounts.rows
  transfers : r.transfers.rows = d.transfers.rows
  ledgerEntries : r.ledgerEntries.rows = d.ledgerEntries.rows
  idempotencyKeys : r.idempotencyKeys.rows = d.idempotencyKeys.rows

/-- A transfer moves something between two accounts that are there. -/
structure Sided (d : Database) (t : Transfer) : Prop where
  positive : 0 < t.amountMinor
  apart : t.fromAccountId ≠ t.toAccountId
  sender : ∃ a ∈ d.accounts, a.id = t.fromAccountId
  receiver : ∃ a ∈ d.accounts, a.id = t.toAccountId

section

variable {P : Platform} {x y z d : Database} {m : Movement} {t t' : Transfer}
  {order : Option BankOrder}

lemma Sided.later (h : Sided x t') (hl : Later x y) (hcore : t'.core = t.core) : Sided y t := by
  have hamount : t'.core.amountMinor = t.core.amountMinor := congrArg Transfer.amountMinor hcore
  have hfrom : t'.core.fromAccountId = t.core.fromAccountId :=
    congrArg Transfer.fromAccountId hcore
  have hto : t'.core.toAccountId = t.core.toAccountId := congrArg Transfer.toAccountId hcore
  change t'.amountMinor = t.amountMinor at hamount
  change t'.fromAccountId = t.fromAccountId at hfrom
  change t'.toAccountId = t.toAccountId at hto
  have hthere : ∀ {id : Uuid}, (∃ a ∈ x.accounts, a.id = id) → ∃ a ∈ y.accounts, a.id = id := by
    rintro id ⟨a, ha, rfl⟩
    obtain ⟨b, hb, hid, -⟩ := hl.accounts a ha
    exact ⟨b, hb, hid⟩
  constructor
  · exact hamount ▸ h.positive
  · rw [← hfrom, ← hto]
    exact h.apart
  · exact hfrom ▸ hthere h.sender
  · exact hto ▸ hthere h.receiver

/-- The transfer of a movement. -/
lemma Movement.Enabled.sided (h : m.Enabled z)
    (hl : ∀ a ∈ z.accounts, ∃ b ∈ y.accounts, b.id = a.id) : Sided y m.transfer := by
  obtain ⟨a, ha, hsender⟩ := hl _ (Table.mem_of_get? h.sender)
  obtain ⟨b, hb, hreceiver⟩ := hl _ (Table.mem_of_get? h.receiver)
  constructor
  · exact m.positive
  · rw [m.source, m.destination]
    exact m.apart
  · exact ⟨a, ha, by rw [hsender, m.source]⟩
  · exact ⟨b, hb, by rw [hreceiver, m.destination]⟩

lemma Movement.accounts_apply (hy : y.books = (m.apply z).books) :
    ∀ a ∈ z.accounts, ∃ b ∈ y.accounts, b.id = a.id := by
  intro a ha
  obtain ⟨b, hb, hid, -⟩ := (m.grows.later z).accounts a ha
  rw [← (Database.tables_of_books hy).1] at hb
  exact ⟨b, hb, hid⟩

/-- The step lemma. -/
lemma Turns.sided (h : Turns P x y order) (hl : Later x y) (hx : ∀ t ∈ x.transfers, Sided x t) :
    ∀ t ∈ y.transfers, Sided y t := by
  intro t ht
  cases h with
  | rest users books =>
    rw [(Database.tables_of_books books).2.1] at ht
    exact (hx t ht).later hl rfl
  | set found legal users books =>
    rw [(Database.tables_of_books books).2.1] at ht
    exact (hx t ht).later hl rfl
  | pay accounts entries transfers type enabled users books =>
    rw [(Database.tables_of_books books).2.1] at ht
    obtain ht | rfl := (Movement.mem_transfers enabled).mp ht
    · obtain ⟨t', ht', hcore⟩ := transfers t ht
      exact (hx t' ht').later hl hcore
    · exact enabled.sided (Movement.accounts_apply books)
  | enrol userUnused phone unused row enabled stripe receiver type amount users books =>
    rw [(Database.tables_of_books books).2.1] at ht
    obtain ht | rfl := (Movement.mem_transfers enabled).mp ht
    · exact (hx t ht).later hl rfl
    · exact enabled.sided (Movement.accounts_apply books)

/-- What of a state a report depends on. -/
structure Presentable (P : Platform) (done : List Record) (d : Database) : Prop where
  books : Books d
  sided : ∀ t ∈ d.transfers, Sided d t
  serving : Serving P done d
  filing : Filing P done d

lemma presentable {s : State} (h : Reachable P s) : Presentable P s.history s.db := by
  have hsound := h.sound
  refine hsound.linked.accumulate (I := Presentable P) ?_ fun done r hr hp => ?_
  · refine ⟨.seed, fun t ht => absurd ht List.not_mem_nil, ?_, .start⟩
    exact ⟨.seed, [], .nil, rfl, by simp [TakaFlow.seed]⟩
  · have hspec := hsound.commits r hr
    obtain ⟨order, -, ht⟩ := hspec.1.turns
    have hadvances := hsound.advances hr
    exact ⟨hp.books.step hadvances, ht.sided hadvances.later hp.sided, hp.serving.step hspec.1,
      hp.filing.step hspec.1⟩

/-! ### The report -/

namespace Presentable

variable {done : List Record} {r : Relations} {now : Timestamp}

/-- The rows keep the constraints of the schema, so a report can see them. -/
lemma exists_shows (h : Presentable P done d) : ∃ r, d.ReadsAs r := by
  have hkeys : (d.transfers.rows.map Transfer.key).Nodup :=
    Sql.nodup_map_of_comp Prod.fst d.transfers.nodup
  have hentryKeys : (d.ledgerEntries.rows.map LedgerEntry.key).Nodup :=
    Sql.nodup_map_of_comp Prod.fst d.ledgerEntries.nodup
  have hhas : ∀ {id : Uuid}, (∃ a ∈ d.accounts, a.id = id) → d.accounts.has id = true := by
    rintro id ⟨a, ha, rfl⟩
    unfold Table.has
    rw [Table.get?_of_mem ha]
    rfl
  have hentries : ∀ e ∈ d.ledgerEntries.rows, 0 < e.amountMinor := by
    intro e he
    have hthere := h.books.transfers e he
    obtain ⟨t, ht⟩ := Option.isSome_iff_exists.mp hthere
    have hid : t.id = e.transferId := Table.key_of_get? ht
    obtain ⟨i, j, b, b', heq⟩ := h.books.entered t (Table.mem_of_get? ht)
    have hmem : e ∈ d.entriesOf t.id := List.mem_filter.mpr ⟨he, decide_eq_true hid.symm⟩
    rw [heq] at hmem
    have hpositive := (h.sided t (Table.mem_of_get? ht)).positive
    obtain rfl | hmem := List.mem_cons.mp hmem
    · exact hpositive
    · rw [List.mem_singleton.mp hmem]
      exact hpositive
  refine ⟨{ accounts := d.accounts, transfers := ⟨d.transfers.rows, hkeys⟩
            ledgerEntries := ⟨d.ledgerEntries.rows, hentryKeys⟩
            idempotencyKeys := d.idempotencyKeys
            holders := fun a ha => ?_, amounts := fun t ht => (h.sided t ht).positive
            sides := fun t ht => ?_, entryAmounts := hentries
            entryAccounts := h.books.accounts }, rfl, rfl, rfl, rfl⟩
  · exact h.serving.holders.kinds _ (Database.mem_holders.mpr ⟨a, ha, rfl⟩)
  · have hsided := h.sided t ht
    exact ⟨hsided.apart, hhas hsided.sender, hhas hsided.receiver⟩

/-- No two rows of `transfers` have one identifier. -/
lemma distinct (hr : d.ReadsAs r) : r.Distinct := by
  unfold Relations.Distinct
  rw [hr.transfers]
  exact Sql.nodup_map_of_comp Prod.fst d.transfers.nodup

/-- Both entries of a transfer carry its instant. -/
lemma doubled (h : Presentable P done d) (hr : d.ReadsAs r) {t : Transfer}
    (ht : t ∈ r.transfers.rows) : Doubled t.amountMinor (r.entriesOf t) := by
  rw [hr.transfers] at ht
  obtain ⟨i, j, b, b', heq⟩ := h.books.entered t ht
  have hentries : r.entriesOf t = [t.debit i b, t.credit j b'] := by
    unfold Relations.entriesOf
    rw [hr.ledgerEntries]
    have hsplit : (d.ledgerEntries.rows.filter fun e => e.transferId = t.id ∧
        e.createdAt = t.createdAt) =
          (d.entriesOf t.id).filter fun e => e.createdAt = t.createdAt := by
      unfold Database.entriesOf
      rw [List.filter_filter]
      refine List.filter_congr fun e _ => ?_
      rw [Bool.decide_and, Bool.and_comm]
    rw [hsplit, heq]
    refine List.filter_eq_self.mpr fun e he => ?_
    obtain rfl | he := List.mem_cons.mp he
    · exact decide_eq_true rfl
    · rw [List.mem_singleton.mp he]
      exact decide_eq_true rfl
  rw [hentries]
  exact ⟨rfl, rfl⟩

lemma sound (h : Presentable P done d) (hr : d.ReadsAs r) : r.Sound now := by
  constructor
  · rw [hr.accounts]
    exact h.books.total
  · intro a ha
    rw [hr.accounts] at ha
    rw [hr.ledgerEntries]
    exact h.books.balance a ha
  · intro e he
    rw [hr.ledgerEntries] at he
    obtain ⟨t, ht⟩ := Option.isSome_iff_exists.mp (h.books.transfers e he)
    have hmem := Table.mem_of_get? ht
    have hid : t.id = e.transferId := Table.key_of_get? ht
    obtain ⟨i, j, b, b', heq⟩ := h.books.entered t hmem
    have he' : e ∈ d.entriesOf t.id := List.mem_filter.mpr ⟨he, decide_eq_true hid.symm⟩
    rw [heq] at he'
    refine ⟨t, hr.transfers ▸ hmem, hid, ?_⟩
    obtain rfl | he' := List.mem_cons.mp he'
    · rfl
    · rw [List.mem_singleton.mp he']
      rfl
  · intro a ha
    rw [hr.accounts] at ha
    exact h.books.users a ha
  · intro row hrow hstate
    rw [hr.idempotencyKeys] at hrow
    obtain ⟨q, -, hfiled⟩ := h.filing.rows row hrow
    rw [hfiled.state] at hstate
    cases hstate

end Presentable

/-- A report that passes, with the money of the users and of the treasury. -/
structure CleanReport (P : Platform) (d : Database) (report : Report) : Prop where
  pass : report.pass = true
  checks : ∀ check ∈ report.checks, check.pass = true
  userMoney : report.totals.userMoney =
    formatTaka (P.config.signupBonusMinor * d.users.rows.length)
  net : report.totals.net = formatTaka 0

/-- There is a report of every reachable state, and every report of it passes all its checks. -/
theorem reconcile_passes {s : State} (h : Reachable P s) (now : Timestamp) :
    (∃ r, s.db.ReadsAs r) ∧ ∀ r, s.db.ReadsAs r →
      ∃ report, reconcile.evalAt now () r = some report ∧ CleanReport P s.db report := by
  have hp := presentable h
  refine ⟨hp.exists_shows, fun r hr => ⟨_, evalAt_reconcile now r, ?_⟩⟩
  have hpass : (r.reconciled now).pass = true := by
    rw [Relations.pass_reconciled]
    refine ⟨hp.sound hr, fun t ht => ?_⟩
    rw [Relations.Distinct.groupEntries (Presentable.distinct hr) ht]
    exact hp.doubled hr ht
  constructor
  · exact hpass
  · exact List.all_eq_true.mp hpass
  · simp only [Relations.reconciled, report, Relations.totals, Sql.coalesce_sum_zero,
      Sql.reduceOption_map_some, hr.accounts, hp.serving.supplied.users]
  · simp only [Relations.reconciled, report, Relations.totals, Sql.coalesce_sum_zero,
      Sql.reduceOption_map_some, hr.accounts, List.filter_true]
    exact congrArg formatTaka hp.books.total

end

theorem reconcile_passes_sampleRun :
    (State.after sample sampleRun).db.transfers.rows.length = 3 ∧
      (∃ r, (State.after sample sampleRun).db.ReadsAs r) ∧
      ∀ r, (State.after sample sampleRun).db.ReadsAs r →
        ∃ report, reconcile.evalAt 0 () r = some report ∧
          CleanReport sample (State.after sample sampleRun).db report :=
  ⟨by decide +kernel, reconcile_passes (reachable_after sample sampleRun) 0⟩

end TakaFlow
