import TakaFlow.Lib.Drain
import TakaFlow.Safety.Paging
import TakaFlow.Safety.RunningBalance
import TakaFlow.Safety.References
import TakaFlow.StatementFile

/-!
# What a statement shows

The upper bound of an export is fixed when it starts, but a transaction is as old as its beginning:
one that has begun before may commit entries below that bound while the pages are read.
-/

namespace TakaFlow

open Txn Keyset

/-! ### The entries of a window -/

/-- The entry belongs to the account, and to the window up to this date. -/
def StatementWindow.covers (window : StatementWindow) (to_ : ℤ) (e : LedgerEntry) : Prop :=
  e.accountId = window.accountId ∧ (∀ t ∈ window.from_, t * 1000 ≤ (e.createdAt : ℤ)) ∧
    (e.createdAt : ℤ) < to_ * 1000

instance (window : StatementWindow) (to_ : ℤ) (e : LedgerEntry) :
    Decidable (window.covers to_ e) := inferInstanceAs (Decidable (_ ∧ _))

def Database.covered (d : Database) (window : StatementWindow) (to_ : ℤ) : List LedgerEntry :=
  d.ledgerEntries.rows.filter (window.covers to_)

/-- The filters of an export. -/
def StatementWindow.query (window : StatementWindow) (to_ : ℤ) : HistoryQuery :=
  { from_ := window.from_, to_ := some to_ }

/-- The rows that the pages are made of. -/
def Database.windowRows (d : Database) (window : StatementWindow) (to_ : ℤ) : List HistoryRow :=
  d.matchingRows window.accountId (window.query to_)

/-- The entries in the window that are committed after the export has started (`d`) and before its
page `i` is read are above all entries that are left for that page, at each of the pages that the
entries in `d` take. -/
def Undisturbed (d : Database) (window : StatementWindow) (to_ : ℤ) (reads : ℕ → Database) : Prop :=
  ∀ i ≤ (d.covered window to_).length / pageSize, ∀ e ∈ (reads i).covered window to_,
    e ∉ d.covered window to_ →
      (d.covered window to_).countP (fun e' => e.place < e'.place) < pageSize * i

/-- The exported rows are those of the entries that had been committed at the start. -/
def ViewOf (d : Database) (window : StatementWindow) (to_ : ℤ)
    (chunks : List (List HistoryRow)) : Prop :=
  ∀ e, e ∈ chunks.flatten.map HistoryRow.entry ↔ e ∈ d.covered window to_

section

variable {P : Platform} {T : TimestampText} {d x y : Database} {window : StatementWindow} {to_ : ℤ}
  {e : LedgerEntry}

lemma mem_covered : e ∈ d.covered window to_ ↔ e ∈ d.ledgerEntries ∧ window.covers to_ e := by
  rw [Database.covered, List.mem_filter, decide_eq_true_eq]
  rfl

/-- Every entry has its row. -/
lemma Books.historyRow_of_entry (h : Books d) (he : e ∈ d.ledgerEntries) :
    ∃ row ∈ d.historyRows, row.entry = e := by
  obtain ⟨t, ht⟩ := Option.isSome_iff_exists.mp (h.transfers e he)
  have htmem : t ∈ d.transfers := Table.mem_of_get? ht
  have htid : t.id = e.transferId := Table.key_of_get? ht
  obtain ⟨i, j, b, b', hentries⟩ := h.entered t htmem
  have hmem : e ∈ d.entriesOf t.id := by
    rw [Database.entriesOf, List.mem_filter, decide_eq_true_eq]
    exact ⟨he, htid.symm⟩
  have hside : e.createdAt = t.createdAt ∧ t.Touches (counterpartyAccountId e t) := by
    rw [hentries] at hmem
    obtain rfl | hmem := List.mem_cons.mp hmem
    · exact ⟨rfl, .inr rfl⟩
    · rw [List.mem_singleton.mp hmem]
      exact ⟨rfl, .inl rfl⟩
  obtain ⟨ca, hca, hcaid⟩ := h.has_account htmem hside.2
  have hrow : ((e, t), ca) ∈ d.historyRows.map Prod.fst := by
    refine Sql.mem_fst_leftJoin.mpr (Sql.mem_join.mpr ⟨Sql.mem_join.mpr ⟨he, htmem, ?_⟩, hca, ?_⟩)
    · rw [decide_eq_true_eq]
      exact ⟨htid, hside.1.symm⟩
    · rw [decide_eq_true_eq]
      exact hcaid
  obtain ⟨row, hmem, hfst⟩ := List.mem_map.mp hrow
  refine ⟨row, hmem, ?_⟩
  rw [HistoryRow.entry, hfst]

lemma selects_query {row : HistoryRow} :
    (window.query to_).selects window.accountId row = true ↔ window.covers to_ row.entry := by
  unfold HistoryQuery.selects StatementWindow.query StatementWindow.covers
  cases window.from_ with
  | none => simp
  | some t => simp [and_assoc]

/-- The rows of the window are those of its entries. -/
lemma Books.mem_windowRows (h : Books d) :
    e ∈ (d.windowRows window to_).map HistoryRow.entry ↔ e ∈ d.covered window to_ := by
  rw [mem_covered]
  constructor
  · intro hmem
    obtain ⟨row, hrow, rfl⟩ := List.mem_map.mp hmem
    obtain ⟨hrow, hselects⟩ := List.mem_filter.mp hrow
    exact ⟨(Database.mem_historyRows hrow).1, selects_query.mp hselects⟩
  · rintro ⟨he, hcovers⟩
    obtain ⟨row, hrow, rfl⟩ := h.historyRow_of_entry he
    exact List.mem_map_of_mem (List.mem_filter.mpr ⟨hrow, selects_query.mpr hcovers⟩)

/-! ### Reading the pages -/

/-- The export reads until a page is not full. -/
lemma statementRows_of_drain (reads : ℕ → Database) {after : Option (ℕ ×ₗ ℕ)}
    {pages : List (List HistoryRow)}
    (h : Drain HistoryRow.place pageSize after (fun n => (reads n).windowRows window to_) pages)
    (hshown : ∀ n, (reads n).Shown T) (hafter : ∀ p ∈ after, Legible T bigintColumn p) :
    ∃ fuel chunks, statementRows P T window to_ fuel (after.map (cursorAt T bigintColumn)) reads =
      some (chunks, none) ∧ chunks.flatten = pages.flatten := by
  generalize hrows : (fun n => (reads n).windowRows window to_) = rows at h
  induction h generalizing reads with
  | @last after rows short =>
    subst hrows
    have hselect : selectHistory P T window.accountId (window.query to_) pageSize
        (after.map (cursorAt T bigintColumn)) (reads 0) = .ok (page HistoryRow.place pageSize after
          ((reads 0).windowRows window to_)) :=
      selectHistory_eq rfl (hshown 0) hafter
    refine ⟨1, ?_⟩
    rw [StatementWindow.query] at hselect
    simp only [statementRows, hselect, if_pos short]
    cases hlast : (page HistoryRow.place pageSize after
        ((reads 0).windowRows window to_)).getLast? with
    | none =>
      rw [List.getLast?_eq_none_iff] at hlast
      exact ⟨[], rfl, by rw [hlast]; rfl⟩
    | some last => exact ⟨_, rfl, rfl⟩
  | @more after rows pages b full lowest rest ih =>
    subst hrows
    have hselect : selectHistory P T window.accountId (window.query to_) pageSize
        (after.map (cursorAt T bigintColumn)) (reads 0) = .ok (page HistoryRow.place pageSize after
          ((reads 0).windowRows window to_)) :=
      selectHistory_eq rfl (hshown 0) hafter
    have hb : ∀ p ∈ some b.place, Legible T bigintColumn p := by
      rintro p ⟨rfl⟩
      exact (hshown 0).history b (mem_of_page (List.mem_of_getLast? lowest)).1
    obtain ⟨fuel, chunks, hchunks, hflat⟩ :=
      ih (fun n => reads (n + 1)) (fun n => hshown (n + 1)) hb rfl
    refine ⟨fuel + 1, page HistoryRow.place pageSize after
      ((reads 0).windowRows window to_) :: chunks, ?_, ?_⟩
    · rw [StatementWindow.query] at hselect
      rw [Option.map_some] at hchunks
      simp only [statementRows, hselect, lowest, full, lt_irrefl, if_false, hchunks,
        Option.map_some]
    · rw [List.flatten_cons, List.flatten_cons, hflat]

/-! ### The view -/

/-- Two entries at one place are one. -/
lemma eq_of_place {e' : LedgerEntry} (he : e ∈ d.ledgerEntries) (he' : e' ∈ d.ledgerEntries)
    (h : e.place = e'.place) : e = e' :=
  Table.eq_of_mem he he' (congrArg (fun p : ℕ ×ₗ ℕ => (ofLex p).2) h)

/-- The places of the entries of a window, newest first. -/
def Database.coveredPlaces (d : Database) (window : StatementWindow) (to_ : ℤ) :
    List (ℕ ×ₗ ℕ) :=
  (listing LedgerEntry.place (d.covered window to_)).map LedgerEntry.place

lemma mem_coveredPlaces {k : ℕ ×ₗ ℕ} :
    k ∈ d.coveredPlaces window to_ ↔ ∃ e ∈ d.covered window to_, e.place = k := by
  simp [Database.coveredPlaces]

lemma descending_coveredPlaces : (d.coveredPlaces window to_).Pairwise (· > ·) := by
  have hids : ((d.covered window to_).map LedgerEntry.id).Nodup :=
    d.ledgerEntries.nodup.sublist (List.filter_sublist.map _)
  exact List.pairwise_map.mpr (descending_listing (nodup_place hids))

/-- What is read later of the entries that were there at first. -/
lemma Endures.covered (h : Endures x y) (he : e ∈ x.covered window to_) :
    e ∈ y.covered window to_ := by
  obtain ⟨he, hcovers⟩ := mem_covered.mp he
  exact mem_covered.mpr ⟨h.entries e he, hcovers⟩

/-- Among entries that are read later, those that were there at first are known by their places. -/
lemma Endures.mem_coveredPlaces_iff (h : Endures x y) (he : e ∈ y.ledgerEntries) :
    e.place ∈ x.coveredPlaces window to_ ↔ e ∈ x.covered window to_ := by
  rw [mem_coveredPlaces]
  constructor
  · rintro ⟨e', he', hplace⟩
    have hsame := eq_of_place (h.entries e' (mem_covered.mp he').1) he hplace
    exact hsame ▸ he'
  · exact fun he => ⟨e, he, rfl⟩

variable {s : State}

lemma endures_reads {reads : ℕ → State} (h : Reachable P s) (hfirst : Leads P s (reads 0))
    (hnext : ∀ n, Leads P (reads n) (reads (n + 1))) :
    ∀ n, Reachable P (reads n) ∧ Endures s.db (reads n).db := by
  intro n
  induction n with
  | zero => exact ⟨hfirst.reachable h, hfirst.endures h⟩
  | succ n ih => exact ⟨(hnext n).reachable ih.1, ih.2.trans ((hnext n).endures ih.1)⟩

/-- An export whose upper bound is the time at which it starts shows the entries that had been
committed by then iff it is undisturbed. -/
theorem statement_view (h : Reachable P s) (accountId : Uuid) (from_ : Option ℤ)
    (reads : ℕ → State) (hfirst : Leads P s (reads 0))
    (hnext : ∀ n, Leads P (reads n) (reads (n + 1))) (hshown : ∀ n, (reads n).db.Shown T) :
    ∃ fuel chunks, statementChunks P T ⟨accountId, from_, none⟩ (toMillis s.clock) fuel
        (fun n => (reads n).db) = some (statementText chunks, none) ∧
      Descending HistoryRow.place chunks.flatten ∧
      (ViewOf s.db ⟨accountId, from_, none⟩ (toMillis s.clock) chunks ↔
        Undisturbed s.db ⟨accountId, from_, none⟩ (toMillis s.clock) fun n => (reads n).db) := by
  generalize hw : (⟨accountId, from_, none⟩ : StatementWindow) = window
  generalize hto : ((toMillis s.clock : ℕ) : ℤ) = to_
  have hreads := endures_reads h hfirst hnext
  have hbooks : ∀ n, Books (reads n).db := fun n =>
    (hreads n).1.sound.invariant .seed fun _ _ _ _ => .step
  have hkeys : ∀ n, (((reads n).db.windowRows window to_).map HistoryRow.place).Nodup :=
    fun n => nodup_matchingRows
  have hentry : ∀ n, ∀ row ∈ (reads n).db.windowRows window to_,
      row.entry ∈ (reads n).db.covered window to_ :=
    fun n row hrow => (hbooks n).mem_windowRows.mp (List.mem_map_of_mem hrow)
  obtain ⟨pages, hdrain⟩ := Drain.terminates (by decide : 0 < pageSize) none
    (fun n => (reads n).db.windowRows window to_) hkeys
  obtain ⟨fuel, chunks, hchunks, hflat⟩ :=
    statementRows_of_drain (P := P) (T := T) _ hdrain hshown nofun
  have hexact := hdrain.exact_iff (by decide) hkeys
    (fun n a ha => by
      obtain ⟨b, hb, hplace⟩ := ((hnext n).endures (hreads n).1).matchingRows ha
      exact hplace ▸ List.mem_map_of_mem hb)
    (show (s.db.coveredPlaces window to_).Pairwise (· > ·) from descending_coveredPlaces) nofun
    (fun n k hk => by
      obtain ⟨e, he, rfl⟩ := mem_coveredPlaces.mp hk
      obtain ⟨row, hrow, rfl⟩ := List.mem_map.mp
        ((hbooks n).mem_windowRows.mpr ((hreads n).2.covered he))
      exact List.mem_map_of_mem hrow)
  have hpage : ∀ row ∈ pages.flatten, ∃ n, row.entry ∈ (reads n).db.ledgerEntries := by
    intro row hrow
    obtain ⟨n, hn⟩ := hdrain.mem hrow
    exact ⟨n, (mem_covered.mp (hentry n row hn)).1⟩
  have hview : ViewOf s.db window to_ chunks ↔
      pages.flatten.map HistoryRow.place = s.db.coveredPlaces window to_ := by
    rw [ViewOf, hflat]
    constructor
    · intro hall
      refine Drain.keys_ext (List.pairwise_map.mpr (hdrain.descending hkeys).1)
        descending_coveredPlaces fun k => ?_
      rw [mem_coveredPlaces]
      constructor
      · intro hk
        obtain ⟨row, hrow, rfl⟩ := List.mem_map.mp hk
        exact ⟨row.entry, (hall _).mp (List.mem_map_of_mem hrow), rfl⟩
      · rintro ⟨e, he, rfl⟩
        obtain ⟨row, hrow, rfl⟩ := List.mem_map.mp ((hall e).mpr he)
        exact List.mem_map_of_mem hrow
    · intro hplaces e
      constructor
      · intro he
        obtain ⟨row, hrow, rfl⟩ := List.mem_map.mp he
        obtain ⟨n, hn⟩ := hpage row hrow
        refine ((hreads n).2.mem_coveredPlaces_iff hn).mp ?_
        rw [← hplaces]
        exact List.mem_map_of_mem hrow
      · intro he
        have hk := mem_coveredPlaces.mpr ⟨e, he, rfl⟩
        rw [← hplaces] at hk
        obtain ⟨row, hrow, hplace⟩ := List.mem_map.mp hk
        obtain ⟨n, hn⟩ := hpage row hrow
        have hsame := eq_of_place hn ((hreads n).2.entries e (mem_covered.mp he).1) hplace
        exact hsame ▸ List.mem_map_of_mem hrow
  have hlength : (s.db.coveredPlaces window to_).length = (s.db.covered window to_).length := by
    rw [Database.coveredPlaces, List.length_map, (perm_listing _).length_eq]
  have hcount : ∀ p : ℕ ×ₗ ℕ, (s.db.coveredPlaces window to_).countP (p < ·) =
      (s.db.covered window to_).countP fun e' => p < e'.place := by
    intro p
    rw [Database.coveredPlaces, List.countP_map, (perm_listing _).countP_eq]
    rfl
  refine ⟨fuel, chunks, ?_, ?_, hview.trans (hexact.trans ?_)⟩
  · have hbound : window.to_.getD ((toMillis s.clock : ℕ) : ℤ) = to_ := by
      rw [← hw, ← hto]
      rfl
    rw [Option.map_none] at hchunks
    rw [statementChunks, hbound, hchunks]
    rfl
  · rw [hflat]
    exact (hdrain.descending hkeys).1
  · rw [hlength]
    unfold Undisturbed
    constructor
    · intro hcond i hi e he hnew
      obtain ⟨row, hrow, rfl⟩ := List.mem_map.mp ((hbooks i).mem_windowRows.mpr he)
      rw [← hcount]
      refine hcond i hi row hrow nofun fun hk => hnew ?_
      exact ((hreads i).2.mem_coveredPlaces_iff (mem_covered.mp he).1).mp hk
    · intro hcond i hi row hrow _ hnew
      have he := hentry i row hrow
      rw [hcount]
      refine hcond i hi row.entry he fun hmem => hnew ?_
      exact ((hreads i).2.mem_coveredPlaces_iff (mem_covered.mp he).1).mpr hmem

end

/-- Asha pays Babu again a second after the export of her statement has started. -/
def paidAgain : State :=
  (State.after sample sampleRun).play (body sample) (fun _ _ => true) (.tick microsPerSecond ::
    session 3 400 (.sendMoney 100 "l" ⟨"01722222222", 700, none⟩ .null {}))

/-- And again after the first page. -/
def paidOnceMore : State :=
  paidAgain.play (body sample) (fun _ _ => true) (.tick microsPerSecond ::
    session 4 500 (.sendMoney 100 "m" ⟨"01722222222", 900, none⟩ .null {}))

def exportReads : ℕ → State
  | 0 => paidAgain
  | _ + 1 => paidOnceMore

lemma shown_exportReads (n : ℕ) : (exportReads n).db.Shown utcText := by
  have hagain : paidAgain.db.Shown utcText :=
    ⟨show ∀ e ∈ paidAgain.db.ledgerEntries.rows, _ by decide +kernel,
      show ∀ r ∈ paidAgain.db.moneyRequests.rows, _ by decide +kernel,
      show ∀ s ∈ paidAgain.db.schedules.rows, _ by decide +kernel⟩
  have honce : paidOnceMore.db.Shown utcText :=
    ⟨show ∀ e ∈ paidOnceMore.db.ledgerEntries.rows, _ by decide +kernel,
      show ∀ r ∈ paidOnceMore.db.moneyRequests.rows, _ by decide +kernel,
      show ∀ s ∈ paidOnceMore.db.schedules.rows, _ by decide +kernel⟩
  cases n with
  | zero => exact hagain
  | succ n => exact honce

/-- The statement does not show what is paid while it is exported. -/
theorem statement_view_sample : ∃ fuel chunks, statementChunks sample utcText ⟨101, none, none⟩
      (toMillis (State.after sample sampleRun).clock) fuel (fun n => (exportReads n).db) =
        some (statementText chunks, none) ∧
    Descending HistoryRow.place chunks.flatten ∧
    ViewOf (State.after sample sampleRun).db ⟨101, none, none⟩
      (toMillis (State.after sample sampleRun).clock) chunks := by
  have hfirst : Leads sample (State.after sample sampleRun) paidAgain :=
    .playAll _ (fun _ _ _ => trivial) .refl
  have hsecond : Leads sample paidAgain paidOnceMore := .playAll _ (fun _ _ _ => trivial) .refl
  have hnext : ∀ n, Leads sample (exportReads n) (exportReads (n + 1)) := by
    intro n
    cases n with
    | zero => exact hsecond
    | succ n => exact .refl
  -- The window is over when they are paid.
  have hcovered : ∀ n, (exportReads n).db.covered ⟨101, none, none⟩
        (toMillis (State.after sample sampleRun).clock) =
      (State.after sample sampleRun).db.covered ⟨101, none, none⟩
        (toMillis (State.after sample sampleRun).clock) := by
    intro n
    cases n with
    | zero => exact show paidAgain.db.covered _ _ = _ by decide +kernel
    | succ n => exact show paidOnceMore.db.covered _ _ = _ by decide +kernel
  obtain ⟨fuel, chunks, hchunks, hdescending, hview⟩ := statement_view
    (reachable_after sample sampleRun) 101 none exportReads hfirst hnext shown_exportReads
  refine ⟨fuel, chunks, hchunks, hdescending, hview.mpr fun i _ e he hnew => ?_⟩
  rw [hcovered i] at he
  exact absurd he hnew

/-! ### A payment in flight -/

/-- All that is left to do of Asha's payment is its `COMMIT`. -/
def inFlight : State :=
  State.after sample (session 0 100 asha ++ session 1 200 babu ++
    .begin (.sendMoney 100 "k" ⟨"01722222222", 2500, none⟩ .null {}) :: advance 2 40 300 ++
    [.tick microsPerSecond])

def committed : State := inFlight.play (body sample) (fun _ _ => true) [.finish 2]

/-- The payment is in the statement, though it had not been committed when the export started. -/
theorem statement_disturbed : ¬ ∀ (s : State), Reachable sample s → ∀ (accountId : Uuid)
    (from_ : Option ℤ) (reads : ℕ → State), Leads sample s (reads 0) →
    (∀ n, Leads sample (reads n) (reads (n + 1))) → (∀ n, (reads n).db.Shown utcText) →
    ∀ fuel chunks, statementRows sample utcText ⟨accountId, from_, none⟩ (toMillis s.clock) fuel
      none (fun n => (reads n).db) = some (chunks, none) →
    ViewOf s.db ⟨accountId, from_, none⟩ (toMillis s.clock) chunks := by
  intro h
  have hleads : Leads sample inFlight committed := .playAll _ (fun _ _ _ => trivial) .refl
  have hshown : committed.db.Shown utcText :=
    ⟨show ∀ e ∈ committed.db.ledgerEntries.rows, _ by decide +kernel,
      show ∀ r ∈ committed.db.moneyRequests.rows, _ by decide +kernel,
      show ∀ s ∈ committed.db.schedules.rows, _ by decide +kernel⟩
  have hbefore : (inFlight.db.covered ⟨101, none, none⟩ (toMillis inFlight.clock)).map
      LedgerEntry.id = [217] := by decide +kernel
  have hexport : ((statementRows sample utcText ⟨101, none, none⟩ (toMillis inFlight.clock) 1 none
      fun _ => committed.db).map fun rows =>
        (rows.1.flatten.map fun row => row.entry.id, rows.2.isNone)) =
          some ([622, 217], true) := by decide +kernel
  obtain ⟨⟨chunks, error⟩, hchunks, hids⟩ := Option.map_eq_some_iff.mp hexport
  simp only [Prod.mk.injEq, Option.isNone_iff_eq_none] at hids
  obtain ⟨hids, rfl⟩ := hids
  have hview := h inFlight (reachable_after sample _) 101 none (fun _ => committed) hleads
    (fun _ => .refl) (fun _ => hshown) 1 chunks hchunks
  have hpaid : 622 ∈ chunks.flatten.map fun row => row.entry.id := by
    rw [hids]
    exact List.mem_cons_self
  obtain ⟨row, hrow, hid⟩ := List.mem_map.mp hpaid
  have hmem := List.mem_map_of_mem (f := LedgerEntry.id)
    ((hview row.entry).mp (List.mem_map_of_mem hrow))
  rw [hbefore, hid] at hmem
  exact absurd hmem (by decide)

end TakaFlow
