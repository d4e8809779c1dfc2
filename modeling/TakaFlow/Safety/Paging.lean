import TakaFlow.Listings
import TakaFlow.Safety.CursorCasts
import TakaFlow.Safety.ReadYourWrites
import TakaFlow.Spec.Endurance

/-!
# Nothing is lost between pages

Rows are added while a list is paged through, below the cursor as well as above it. What was there
before the first page is on one of the pages, and nothing is on two, as long as no page is read from
a replica that has not got so far.
-/

namespace TakaFlow

open Txn

/-! ### Following a cursor -/

/-- The pages that are answered when `nextCursor` is followed until it is null, each from what its
own request reads. -/
inductive Followed {ρ : Type} (list : Option String → ρ → Except Error Page) :
    Option String → List ρ → List Page → Prop where
  | last {cursor : Option String} {r : ρ} {page : Page} (answer : list cursor r = .ok page)
      (stop : page.nextCursor = none) : Followed list cursor [r] [page]
  | more {cursor : Option String} {next : String} {r : ρ} {page : Page} {rs : List ρ}
      {pages : List Page} (answer : list cursor r = .ok page)
      (follow : page.nextCursor = some next) (rest : Followed list (some next) rs pages) :
      Followed list cursor (r :: rs) (page :: pages)

/-- The pages list these rows. `before` are the rows of the state that all requests come after, and
`reads` are the rows that each of them reads. -/
structure Lists {α : Type} (place : α → ℕ ×ₗ ℕ) (dto : α → Json) (before : List α)
    (reads : List (List α)) (pages : List Page) (listed : List (List α)) : Prop where
  items : pages.map Page.items = listed.map (List.map dto)
  read : ∀ (i : ℕ) (rows found : List α), reads[i]? = some rows → listed[i]? = some found →
    found ⊆ rows
  descending : Keyset.Descending place listed.flatten
  /-- Exactly once. -/
  once : ∀ a ∈ before, (listed.flatten.map place).count (place a) = 1
  /-- `nextCursor` is null iff no row of that read is below all that is listed up to this page. -/
  next : ∀ (i : ℕ) (page : Page) (rows : List α), pages[i]? = some page → reads[i]? = some rows →
    (page.nextCursor = none ↔
      ∀ a ∈ rows, ∃ b ∈ (listed.take (i + 1)).flatten, place b ≤ place a)

/-- One page for each request. -/
lemma Followed.length {ρ : Type} {list : Option String → ρ → Except Error Page}
    {cursor : Option String} {rs : List ρ} {pages : List Page} (h : Followed list cursor rs pages) :
    pages.length = rs.length := by
  induction h with
  | last answer stop => rfl
  | more answer follow rest ih => rw [List.length_cons, List.length_cons, ih]

/-- What was there before the first page has been read. -/
lemma Lists.of_before {α ρ : Type} {place : α → ℕ ×ₗ ℕ} {dto : α → Json} {before : List α}
    {list : Option String → ρ → Except Error Page} {cursor : Option String} {rs : List ρ}
    {rowsAt : ρ → List α} {pages : List Page} {listed : List (List α)}
    (h : Lists place dto before (rs.map rowsAt) pages listed)
    (hfollowed : Followed list cursor rs pages) {a : α} (ha : a ∈ before) :
    ∃ r ∈ rs, place a ∈ (rowsAt r).map place := by
  have hcount : 0 < (listed.flatten.map place).count (place a) := by
    rw [h.once a ha]
    exact Nat.one_pos
  obtain ⟨b, hb, hplace⟩ := List.mem_map.mp (List.count_pos_iff.mp hcount)
  obtain ⟨found, hfound, hmem⟩ := List.mem_flatten.mp hb
  obtain ⟨i, hi, rfl⟩ := List.mem_iff_getElem.mp hfound
  have hlisted : pages.length = listed.length := by simpa using congrArg List.length h.items
  have hr : i < rs.length := by
    have := hfollowed.length
    omega
  have hread : (rs.map rowsAt)[i]? = some (rowsAt rs[i]) := by
    rw [List.getElem?_map, List.getElem?_eq_getElem hr]
    rfl
  refine ⟨rs[i], List.getElem_mem hr, List.mem_map.mpr ⟨b, ?_, hplace⟩⟩
  exact h.read i _ _ hread (List.getElem?_eq_getElem hi) hmem

section

variable {α ρ : Type} {T : TimestampText} {I : IdColumn} {place : α → ℕ ×ₗ ℕ} {dto : α → Json}
  {limit : ℕ} {rowsAt : ρ → List α} {list : Option String → ρ → Except Error Page}

/-- A request at a place answers with the page there. -/
def Answers (T : TimestampText) (I : IdColumn) (place : α → ℕ ×ₗ ℕ) (dto : α → Json) (limit : ℕ)
    (rowsAt : ρ → List α) (list : Option String → ρ → Except Error Page) (r : ρ) : Prop :=
  ∀ after : Option (ℕ ×ₗ ℕ), (∀ p ∈ after, Legible T I p) →
    list (after.map (codeOf T I)) r =
      .ok { items := (Keyset.page place limit after (rowsAt r)).map dto
            nextCursor := (Keyset.next place limit
              (Keyset.page place (limit + 1) after (rowsAt r))).map (codeOf T I) }

/-- A traversal of the rows is followed by its cursors. -/
lemma followed_of_traversal {rs : List ρ} {listed : List (List α)} {after : Option (ℕ ×ₗ ℕ)}
    (h : Keyset.Traversal place limit after (rs.map rowsAt) listed)
    (hanswers : ∀ r ∈ rs, Answers T I place dto limit rowsAt list r)
    (hlegible : ∀ r ∈ rs, ∀ a ∈ rowsAt r, Legible T I (place a))
    (hkeys : ∀ r ∈ rs, ((rowsAt r).map place).Nodup) (hafter : ∀ p ∈ after, Legible T I p) :
    ∃ pages, Followed list (after.map (codeOf T I)) rs pages ∧
      pages.map Page.items = listed.map (List.map dto) ∧
      ∀ i page, pages[i]? = some page → (page.nextCursor = none ↔ i + 1 = pages.length) := by
  generalize hreads : rs.map rowsAt = reads at h
  induction h generalizing rs with
  | @last after rows stop =>
    obtain ⟨r, rfl, rfl⟩ := List.map_eq_singleton_iff.mp hreads
    have hanswer := hanswers r List.mem_cons_self after hafter
    rw [stop] at hanswer
    refine ⟨_, .last hanswer rfl, rfl, ?_⟩
    intro i page hpage
    cases i with
    | zero =>
      cases hpage
      exact iff_of_true rfl rfl
    | succ i => cases hpage
  | @more after rows reads listed k follow rest ih =>
    obtain ⟨r, rs, rfl, rfl, rfl⟩ := List.map_eq_cons_iff.mp hreads
    have hanswer := hanswers r List.mem_cons_self after hafter
    rw [follow] at hanswer
    obtain ⟨-, ⟨b, hb, rfl⟩, -⟩ := Keyset.next_eq_some (hkeys r List.mem_cons_self) follow
    have hk : ∀ p ∈ some (place b), Legible T I p := by
      rintro p ⟨rfl⟩
      exact hlegible r List.mem_cons_self b (mem_of_mem_page hb)
    obtain ⟨pages, hfollowed, hitems, hnext⟩ := ih
      (fun r hr => hanswers r (List.mem_cons_of_mem _ hr))
      (fun r hr => hlegible r (List.mem_cons_of_mem _ hr))
      (fun r hr => hkeys r (List.mem_cons_of_mem _ hr)) hk rfl
    refine ⟨_, .more hanswer rfl hfollowed, ?_, ?_⟩
    · rw [List.map_cons, hitems, List.map_cons]
    · intro i page hpage
      cases i with
      | zero =>
        cases hpage
        have hpages : pages ≠ [] := by cases hfollowed <;> exact List.cons_ne_nil _ _
        refine iff_of_false (Option.some_ne_none _) fun hlength => hpages ?_
        exact List.eq_nil_of_length_eq_zero (Nat.succ_injective hlength).symm
      | succ i => exact (hnext i page hpage).trans Nat.succ_inj.symm

/-- Whatever is read meanwhile, following the cursors comes to an end, and the pages list what was
there at every read. -/
lemma exists_lists (hlimit : 0 < limit) (reads : ℕ → ρ)
    (hanswers : ∀ n, Answers T I place dto limit rowsAt list (reads n))
    (hlegible : ∀ n, ∀ a ∈ rowsAt (reads n), Legible T I (place a))
    (hkeys : ∀ n, ((rowsAt (reads n)).map place).Nodup) {before : List α}
    (hthere : ∀ n, ∀ a ∈ before, place a ∈ (rowsAt (reads n)).map place) :
    ∃ n pages listed, Followed list none ((List.range n).map reads) pages ∧
      Lists place dto before (((List.range n).map reads).map rowsAt) pages listed := by
  obtain ⟨n, listed, htraversal⟩ :=
    Keyset.Traversal.terminates limit none (fun n => rowsAt (reads n)) hkeys
  have hreads : (List.range n).map (fun n => rowsAt (reads n)) =
      ((List.range n).map reads).map rowsAt := List.map_map.symm
  rw [hreads] at htraversal
  have hmem : ∀ {p : ρ → Prop}, (∀ n, p (reads n)) → ∀ r ∈ (List.range n).map reads, p r := by
    intro p hp r hr
    obtain ⟨i, -, rfl⟩ := List.mem_map.mp hr
    exact hp i
  have hnodup : ∀ rows ∈ ((List.range n).map reads).map rowsAt, (rows.map place).Nodup := by
    intro rows hrows
    obtain ⟨r, hr, rfl⟩ := List.mem_map.mp hrows
    exact hmem (p := fun r => ((rowsAt r).map place).Nodup) hkeys r hr
  obtain ⟨pages, hfollowed, hitems, hnext⟩ := followed_of_traversal htraversal (hmem hanswers)
    (hmem hlegible) (hmem hkeys) nofun
  obtain ⟨hdescending, -⟩ := htraversal.descending hnodup
  have hlength : pages.length = listed.length := by simpa using congrArg List.length hitems
  refine ⟨n, pages, listed, hfollowed, hitems, ?_, hdescending, ?_, ?_⟩
  · exact fun i rows found hrows hfound => htraversal.mem hrows hfound
  · intro a ha
    refine List.count_eq_one_of_mem hdescending.nodup (htraversal.complete hlimit hnodup ?_ nofun)
    intro rows hrows
    obtain ⟨r, hr, rfl⟩ := List.mem_map.mp hrows
    exact hmem (p := fun r => place a ∈ (rowsAt r).map place) (fun n => hthere n a ha) r hr
  · intro i page rows hpage hrows
    rw [hnext i page hpage, hlength, htraversal.last_iff hlimit hnodup hrows]
    exact forall₂_congr fun a _ => ⟨fun h => h nofun, fun h _ => h⟩

end

/-! ### The rows of a state -/

section rows

variable {d x y : Database} {accountId userId : Uuid} {q : HistoryQuery}

/-- Two rows at one place would be one row. -/
lemma nodup_place {α : Type} {place : α → ℕ ×ₗ ℕ} {rows : List α}
    (h : (rows.map fun a => (ofLex (place a)).2).Nodup) : (rows.map place).Nodup :=
  Sql.nodup_map_of_comp (fun p : ℕ ×ₗ ℕ => (ofLex p).2) h

lemma nodup_matchingRows : ((d.matchingRows accountId q).map HistoryRow.place).Nodup := by
  have hentries : (d.historyRows.map fun row => row.1.1.1.id).Nodup := by
    refine Sql.nodup_leftJoin (f := fun p : (LedgerEntry × Transfer) × Account => p.1.1.id)
      (fun p => d.users.length_filter_le_one (k := p.2.userId.getD 0) fun u hu => ?_)
      (Sql.nodup_join (f := fun p : LedgerEntry × Transfer => p.1.id)
        (fun p => d.accounts.length_filter_le_one fun a ha => of_decide_eq_true ha)
        (Sql.nodup_join (f := LedgerEntry.id)
          (fun e => d.transfers.length_filter_le_one fun t ht => (of_decide_eq_true ht).1)
          d.ledgerEntries.nodup))
    rw [of_decide_eq_true hu]
    rfl
  exact nodup_place (hentries.sublist (List.filter_sublist.map _))

lemma nodup_requestRows {role : Role} {status : Option RequestStatus} :
    ((d.requestRows userId role status).map RequestRow.place).Nodup := by
  refine nodup_place (List.Nodup.sublist (List.filter_sublist.map _) ?_)
  refine Sql.nodup_leftJoin (f := fun p : MoneyRequest × User => p.1.id)
    (fun p => d.transfers.length_filter_le_one (k := p.1.settledTransferId.getD 0) fun t ht => ?_)
    (Sql.nodup_join (f := MoneyRequest.id)
      (fun r => d.users.length_filter_le_one fun u hu => of_decide_eq_true hu)
      d.moneyRequests.nodup)
  rw [of_decide_eq_true ht]
  rfl

lemma nodup_scheduleRows {status : Option ScheduleStatus} :
    ((d.scheduleRows userId status).map ScheduleRow.place).Nodup := by
  refine nodup_place (List.Nodup.sublist (List.filter_sublist.map _) ?_)
  exact Sql.nodup_join (f := Schedule.id)
    (fun s => d.users.length_filter_le_one fun u hu => of_decide_eq_true hu) d.schedules.nodup

/-- What is listed in the first state is listed in the second, at the same place. -/
lemma Endures.matchingRows (h : Endures x y) {row : HistoryRow}
    (hrow : row ∈ x.matchingRows accountId q) :
    ∃ row' ∈ y.matchingRows accountId q, row'.place = row.place := by
  obtain ⟨hrow, hselects⟩ := List.mem_filter.mp hrow
  obtain ⟨⟨⟨e, t⟩, ca⟩, cu⟩ := row
  have hjoin := Sql.mem_fst_leftJoin.mp (List.mem_map_of_mem hrow)
  obtain ⟨hpair, hca, hother⟩ := Sql.mem_join.mp hjoin
  obtain ⟨he, ht, htransfer⟩ := Sql.mem_join.mp hpair
  rw [decide_eq_true_eq] at hother htransfer
  obtain ⟨t', ht', hcore⟩ := h.later.transfers t ht
  obtain ⟨ca', hca', hcaid, hcauser, -⟩ := h.later.accounts ca hca
  have htid : t'.id = t.id := (congrArg Transfer.id hcore :)
  have htcreated : t'.createdAt = t.createdAt := (congrArg Transfer.createdAt hcore :)
  have httype : t'.type = t.type := (congrArg Transfer.type hcore :)
  have htfrom : t'.fromAccountId = t.fromAccountId := (congrArg Transfer.fromAccountId hcore :)
  have htto : t'.toAccountId = t.toAccountId := (congrArg Transfer.toAccountId hcore :)
  have hjoin' : ((e, t'), ca') ∈ Sql.join (fun (q : LedgerEntry × Transfer) (ca : Account) =>
        ca.id = counterpartyAccountId q.1 q.2)
      (Sql.join (fun (e : LedgerEntry) (t : Transfer) =>
          t.id = e.transferId ∧ t.createdAt = e.createdAt)
        y.ledgerEntries.rows y.transfers.rows)
      y.accounts.rows := by
    refine Sql.mem_join.mpr ⟨Sql.mem_join.mpr ⟨h.entries e he, ht', ?_⟩, hca', ?_⟩
    · rw [decide_eq_true_eq, htid, htcreated]
      exact htransfer
    · rw [decide_eq_true_eq, hcaid, hother]
      simp only [counterpartyAccountId, htfrom, htto]
  -- The filters see the same entry, a transfer of the same type and the same user.
  suffices huser : ∃ cu' : Option User, (((e, t'), ca'), cu') ∈ y.historyRows ∧
      ∀ u ∈ cu, cu' = some u by
    obtain ⟨cu', hrow', hcu⟩ := huser
    refine ⟨_, List.mem_filter.mpr ⟨hrow', ?_⟩, rfl⟩
    simp only [HistoryQuery.selects, HistoryRow.entry, HistoryRow.transfer, httype,
      Bool.and_eq_true] at hselects ⊢
    refine ⟨hselects.1, ?_⟩
    cases cu with
    | none =>
      cases hphone : q.counterpartyPhone with
      | none => rfl
      | some phone =>
        have hempty := hselects.2
        rw [hphone] at hempty
        simp only [Option.all_some, Option.any_none, Bool.or_false] at hempty
        rw [Option.all_some, hempty, Bool.true_or]
    | some u =>
      rw [hcu u rfl]
      exact hselects.2
  cases cu with
  | none =>
    have hrows : ((e, t'), ca') ∈ y.historyRows.map Prod.fst := Sql.mem_fst_leftJoin.mpr hjoin'
    obtain ⟨⟨p, cu'⟩, hmem, hfst⟩ := List.mem_map.mp hrows
    cases hfst
    exact ⟨cu', hmem, nofun⟩
  | some u =>
    obtain ⟨-, hu, howns⟩ := Sql.mem_leftJoin_some.mp hrow
    rw [decide_eq_true_eq] at howns
    refine ⟨some u, Sql.mem_leftJoin_some.mpr ⟨hjoin', h.later.users u hu, ?_⟩, fun v hv => hv⟩
    rw [decide_eq_true_eq, hcauser]
    exact howns

lemma Endures.requestRows (h : Endures x y) {role : Role} {row : RequestRow}
    (hrow : row ∈ x.requestRows userId role none) :
    ∃ row' ∈ y.requestRows userId role none, row'.place = row.place := by
  obtain ⟨hrow, hself⟩ := List.mem_filter.mp hrow
  obtain ⟨⟨r, u⟩, t⟩ := row
  obtain ⟨hr, hu, hother⟩ := Sql.mem_join.mp (Sql.mem_fst_leftJoin.mp (List.mem_map_of_mem hrow))
  obtain ⟨r', hr', hid, hcreated, hpayer, hrequester⟩ := h.requests r hr
  have hsides : role.self r' = role.self r ∧ role.other r' = role.other r := by
    cases role with
    | incoming => exact ⟨hpayer, hrequester⟩
    | outgoing => exact ⟨hrequester, hpayer⟩
  have hjoin : (r', u) ∈ Sql.join (fun (r : MoneyRequest) (u : User) => u.id = role.other r)
      y.moneyRequests.rows y.users.rows := by
    refine Sql.mem_join.mpr ⟨hr', h.later.users u hu, ?_⟩
    rw [hsides.2]
    exact hother
  have hrows : (r', u) ∈ (Sql.leftJoin (fun (q : MoneyRequest × User) (t : Transfer) =>
      q.1.settledTransferId = some t.id) (Sql.join (fun (r : MoneyRequest) (u : User) =>
        u.id = role.other r) y.moneyRequests.rows y.users.rows) y.transfers.rows).map Prod.fst :=
    Sql.mem_fst_leftJoin.mpr hjoin
  obtain ⟨⟨p, t'⟩, hmem, hfst⟩ := List.mem_map.mp hrows
  cases hfst
  refine ⟨_, List.mem_filter.mpr ⟨hmem, ?_⟩, ?_⟩
  · rw [hsides.1]
    exact hself
  · simp only [RequestRow.place, hid, hcreated]

lemma Endures.scheduleRows (h : Endures x y) {row : ScheduleRow}
    (hrow : row ∈ x.scheduleRows userId none) :
    ∃ row' ∈ y.scheduleRows userId none, row'.place = row.place := by
  obtain ⟨hrow, howner⟩ := List.mem_filter.mp hrow
  obtain ⟨s, u⟩ := row
  obtain ⟨hs, hu, hpayee⟩ := Sql.mem_join.mp hrow
  obtain ⟨s', hs', heq⟩ := h.schedules s hs
  rw [heq] at hs'
  refine ⟨(_, u), List.mem_filter.mpr ⟨Sql.mem_join.mpr ⟨hs', h.later.users u hu, hpayee⟩, ?_⟩, ?_⟩
  · exact howner
  · rfl

end rows

/-! ### The three lists -/

/-- What Postgres shows of creation times casts back, and identifiers have the types of their
columns. -/
structure Database.Shown (T : TimestampText) (d : Database) : Prop where
  entries : ∀ e ∈ d.ledgerEntries, T.Exact e.createdAt ∧ e.id < bigintLimit
  requests : ∀ r ∈ d.moneyRequests, T.Exact r.createdAt ∧ r.id < 2 ^ 128
  schedules : ∀ s ∈ d.schedules, T.Exact s.createdAt ∧ s.id < 2 ^ 128

/-- What a request for a page of the history reads: the account in one state, and the entries in
another, at the primary or at a replica. -/
structure HistoryRead where
  lookup : Database
  servedBy : ServedBy
  found : Database

def historyPage (P : Platform) (T : TimestampText) (userId : Uuid) (query : HistoryQuery)
    (cursor : Option String) (r : HistoryRead) : Except Error Page :=
  (listHistory P T userId { query with cursor } r.lookup r.servedBy r.found).map
    HistoryPage.toPage

def requestsPage (P : Platform) (T : TimestampText) (userId : Uuid) (role : Role) (limit : ℕ)
    (cursor : Option String) (d : Database) : Except Error Page :=
  listRequests P T userId { role, limit, cursor } d

def schedulesPage (P : Platform) (T : TimestampText) (ownerUserId : Uuid) (limit : ℕ)
    (cursor : Option String) (d : Database) : Except Error Page :=
  listSchedules P T ownerUserId { limit, cursor } d

section

variable {P : Platform} {T : TimestampText} {d x : Database} {userId : Uuid}

lemma Database.Shown.history (h : d.Shown T) {accountId : Uuid} {q : HistoryQuery} :
    ∀ row ∈ d.matchingRows accountId q, Legible T bigintColumn row.place := by
  intro row hrow
  obtain ⟨hrow, -⟩ := List.mem_filter.mp hrow
  have hjoin := Sql.mem_fst_leftJoin.mp (List.mem_map_of_mem hrow)
  obtain ⟨he, -, -⟩ := Sql.mem_join.mp (Sql.mem_join.mp hjoin).1
  obtain ⟨hcreated, hid⟩ := h.entries row.entry he
  exact ⟨hcreated, bigintColumn_exact hid⟩

lemma Database.Shown.requestRows (h : d.Shown T) {role : Role} {status : Option RequestStatus} :
    ∀ row ∈ d.requestRows userId role status, Legible T uuidColumn row.place := by
  intro row hrow
  obtain ⟨hrow, -⟩ := List.mem_filter.mp hrow
  obtain ⟨hr, -⟩ := Sql.mem_join.mp (Sql.mem_fst_leftJoin.mp (List.mem_map_of_mem hrow))
  obtain ⟨hcreated, hid⟩ := h.requests row.1.1 hr
  exact ⟨hcreated, uuidColumn_exact hid⟩

lemma Database.Shown.scheduleRows (h : d.Shown T) {status : Option ScheduleStatus} :
    ∀ row ∈ d.scheduleRows userId status, Legible T uuidColumn row.place := by
  intro row hrow
  obtain ⟨hrow, -⟩ := List.mem_filter.mp hrow
  obtain ⟨hs, -⟩ := Sql.mem_join.mp hrow
  obtain ⟨hcreated, hid⟩ := h.schedules row.1 hs
  exact ⟨hcreated, uuidColumn_exact hid⟩

/-- The rows of a page, for filters that the query takes. -/
lemma selectHistory_eq {accountId : Uuid} {query : HistoryQuery} {limit : ℕ}
    {after : Option (ℕ ×ₗ ℕ)} (hcasts : query.castsAmounts = true) (hshown : d.Shown T)
    (hafter : ∀ p ∈ after, Legible T bigintColumn p) :
    selectHistory P T accountId query limit (after.map (cursorAt T bigintColumn)) d =
      .ok (Keyset.page HistoryRow.place limit after (d.matchingRows accountId query)) := by
  rw [selectHistory, if_pos hcasts]
  exact selectPage_eq hshown.history hafter

/-- A page of the history. -/
lemma answers_history {account : Account} {query : HistoryQuery} {r : HistoryRead}
    (haccount : r.lookup.accountOf userId = some account) (horder : query.inOrder = true)
    (hcasts : query.castsAmounts = true) (hshown : r.found.Shown T) :
    Answers T bigintColumn HistoryRow.place (fun row => historyItemDTO (mapEntry row)) query.limit
      (fun r => r.found.matchingRows account.id query) (historyPage P T userId query) r := by
  intro after hafter
  have hselect : ∀ cursor limit, selectHistory P T account.id { query with cursor } limit
      (after.map (cursorAt T bigintColumn)) r.found =
        .ok (Keyset.page HistoryRow.place limit after (r.found.matchingRows account.id query)) :=
    fun _ _ => selectHistory_eq hcasts hshown hafter
  unfold historyPage listHistory
  rw [haccount]
  simp only [if_pos (show HistoryQuery.inOrder { query with cursor := after.map _ } = true from
    horder), decodeCursor_map hafter, hselect, Except.mapError, bind, Except.bind, pure,
    Except.pure, Except.map]
  rw [← Keyset.take_page query.limit]
  generalize Keyset.page HistoryRow.place (query.limit + 1) after
    (r.found.matchingRows account.id query) = found
  by_cases hmore : query.limit < found.length
  · simp only [if_pos hmore, Keyset.next, if_neg hmore.not_ge, Option.map_map]
    rfl
  · simp only [if_neg hmore, Keyset.next, if_pos (not_lt.mp hmore),
      List.take_of_length_le (not_lt.mp hmore)]
    rfl

/-- The filters are in order and amounts. -/
def HistoryQuery.Accepted (q : HistoryQuery) : Prop := q.inOrder = true ∧ q.castsAmounts = true

/-- Other filters have no pages. -/
lemma historyPage_refused {query : HistoryQuery} (hrefused : ¬ query.Accepted)
    (cursor : Option String) (r : HistoryRead) :
    ∃ e, historyPage P T userId query cursor r = .error e := by
  unfold historyPage listHistory
  cases r.lookup.accountOf userId with
  | none => exact ⟨_, rfl⟩
  | some account =>
    by_cases horder : query.inOrder = true
    · have hcasts : query.castsAmounts ≠ true := fun h => hrefused ⟨horder, h⟩
      simp only [if_pos (show HistoryQuery.inOrder { query with cursor } = true from horder)]
      cases decodeCursor cursor with
      | error e => exact ⟨_, rfl⟩
      | ok cursor' =>
        simp only [selectHistory, if_neg (show HistoryQuery.castsAmounts { query with cursor } ≠
          true from hcasts), Except.mapError, bind, Except.bind, Except.map]
        exact ⟨_, rfl⟩
    · simp only [if_neg (show HistoryQuery.inOrder { query with cursor } ≠ true from horder)]
      exact ⟨_, rfl⟩

/-- A state of the database that the run comes to after this one. -/
def After (P : Platform) (s : State) (d : Database) : Prop := ∃ s', Leads P s s' ∧ s'.db = d

lemma After.endures {s : State} (h : After P s d) (hs : Reachable P s) : Endures s.db d := by
  obtain ⟨s', hleads, rfl⟩ := h
  exact hleads.endures hs

/-- The pages of the three lists, each followed from the first one, with every page read from any
state that the run comes to. -/
theorem pages_complete {s : State} (h : Reachable P s) (userId : Uuid) :
    (∀ (query : HistoryQuery) (account : Account), s.db.accountOf userId = some account →
      1 ≤ query.limit → ∀ reads : ℕ → HistoryRead,
      (∀ n, After P s (reads n).lookup ∧ After P s (reads n).found ∧ (reads n).found.Shown T) →
        (query.Accepted → ∃ n pages listed,
          Followed (historyPage P T userId query) none ((List.range n).map reads) pages ∧
            Lists HistoryRow.place (fun row => historyItemDTO (mapEntry row))
              (s.db.matchingRows account.id query)
              (((List.range n).map reads).map fun r => r.found.matchingRows account.id query)
              pages listed) ∧
        (¬ query.Accepted → ∀ cursor n, ∃ e,
          historyPage P T userId query cursor (reads n) = .error e)) ∧
    (∀ (role : Role) (limit : ℕ), 1 ≤ limit → ∀ reads : ℕ → Database,
      (∀ n, After P s (reads n) ∧ (reads n).Shown T) → ∃ n pages listed,
        Followed (requestsPage P T userId role limit) none ((List.range n).map reads) pages ∧
          Lists RequestRow.place (RequestRow.dto userId) (s.db.requestRows userId role none)
            (((List.range n).map reads).map fun d => d.requestRows userId role none)
            pages listed) ∧
    ∀ (limit : ℕ), 1 ≤ limit → ∀ reads : ℕ → Database,
      (∀ n, After P s (reads n) ∧ (reads n).Shown T) → ∃ n pages listed,
        Followed (schedulesPage P T userId limit) none ((List.range n).map reads) pages ∧
          Lists ScheduleRow.place ScheduleRow.dto (s.db.scheduleRows userId none)
            (((List.range n).map reads).map fun d => d.scheduleRows userId none)
            pages listed := by
  refine ⟨?_, ?_, ?_⟩
  · intro query account haccount hlimit reads hreads
    refine ⟨fun haccepted => ?_, fun hrefused cursor n => historyPage_refused hrefused cursor _⟩
    refine exists_lists (T := T) (I := bigintColumn) hlimit reads (fun n => ?_)
      (fun n => (hreads n).2.2.history) (fun n => nodup_matchingRows) fun n row hrow => ?_
    · obtain ⟨account', haccount', hid⟩ :=
        ((hreads n).1.endures h).accounts userId account haccount
      have hanswers : Answers T bigintColumn HistoryRow.place
          (fun row => historyItemDTO (mapEntry row)) query.limit
          (fun r => r.found.matchingRows account'.id query) (historyPage P T userId query)
          (reads n) := answers_history haccount' haccepted.1 haccepted.2 (hreads n).2.2
      rwa [hid] at hanswers
    · obtain ⟨row', hrow', hplace⟩ := ((hreads n).2.1.endures h).matchingRows hrow
      exact hplace ▸ List.mem_map_of_mem hrow'
  · intro role limit hlimit reads hreads
    refine exists_lists (T := T) (I := uuidColumn) hlimit reads (fun n after hafter => ?_)
      (fun n => (hreads n).2.requestRows) (fun n => nodup_requestRows) fun n row hrow => ?_
    · exact listPage_eq hlimit (hreads n).2.requestRows hafter
    · obtain ⟨row', hrow', hplace⟩ := ((hreads n).1.endures h).requestRows hrow
      exact hplace ▸ List.mem_map_of_mem hrow'
  · intro limit hlimit reads hreads
    refine exists_lists (T := T) (I := uuidColumn) hlimit reads (fun n after hafter => ?_)
      (fun n => (hreads n).2.scheduleRows) (fun n => nodup_scheduleRows) fun n row hrow => ?_
    · exact listPage_eq hlimit (hreads n).2.scheduleRows hafter
    · obtain ⟨row', hrow', hplace⟩ := ((hreads n).1.endures h).scheduleRows hrow
      exact hplace ▸ List.mem_map_of_mem hrow'

end

/-! ### A payment between two pages -/

/-- Asha pays Babu again. -/
def meanwhile : State :=
  (State.after sample sampleRun).play (body sample) (fun _ _ => true)
    (session 3 400 (.sendMoney 100 "l" ⟨"01722222222", 700, none⟩ .null {}))

lemma leads_meanwhile : Leads sample (State.after sample sampleRun) meanwhile :=
  .playAll _ (fun _ _ _ => trivial) .refl

/-- The first page is read in one state and the other ones in another. -/
def readsBetween (s s' : State) : ℕ → HistoryRead
  | 0 => ⟨s.db, .primary, s.db⟩
  | _ => ⟨s'.db, .replica, s'.db⟩

instance (t : Timestamp) : Decidable (utcText.Exact t) :=
  decidable_of_iff (utcText.cast (utcText.text t) = some t ∧ isPgTimestamp (utcText.text t) = true)
    ⟨fun h => ⟨h.1, h.2⟩, fun h => ⟨h.cast, h.valid⟩⟩

lemma shown_sampleRun : (State.after sample sampleRun).db.Shown utcText where
  entries := show ∀ e ∈ (State.after sample sampleRun).db.ledgerEntries.rows, _ by decide +kernel
  requests := show ∀ r ∈ (State.after sample sampleRun).db.moneyRequests.rows, _ by decide +kernel
  schedules := show ∀ s ∈ (State.after sample sampleRun).db.schedules.rows, _ by decide +kernel

theorem pages_complete_meanwhile : ∃ n pages listed,
    Followed (historyPage sample utcText 100 { limit := 1 }) none
        ((List.range n).map (readsBetween (State.after sample sampleRun) meanwhile)) pages ∧
      Lists HistoryRow.place (fun row => historyItemDTO (mapEntry row))
        ((State.after sample sampleRun).db.matchingRows 101 { limit := 1 })
        (((List.range n).map (readsBetween (State.after sample sampleRun) meanwhile)).map
          fun r => r.found.matchingRows 101 { limit := 1 }) pages listed := by
  have haccount : ((State.after sample sampleRun).db.accountOf 100).map Account.id = some 101 := by
    decide +kernel
  obtain ⟨account, hfound, hid⟩ := Option.map_eq_some_iff.mp haccount
  have hshown : meanwhile.db.Shown utcText :=
    ⟨show ∀ e ∈ meanwhile.db.ledgerEntries.rows, _ by decide +kernel,
      show ∀ r ∈ meanwhile.db.moneyRequests.rows, _ by decide +kernel,
      show ∀ s ∈ meanwhile.db.schedules.rows, _ by decide +kernel⟩
  have hreads : ∀ {s s' : State}, Leads sample s s' → s.db.Shown utcText → s'.db.Shown utcText →
      ∀ n, After sample s (readsBetween s s' n).lookup ∧
        After sample s (readsBetween s s' n).found ∧
        (readsBetween s s' n).found.Shown utcText := by
    intro s s' hleads hs hs' n
    cases n with
    | zero => exact ⟨⟨s, .refl, rfl⟩, ⟨s, .refl, rfl⟩, hs⟩
    | succ n => exact ⟨⟨s', hleads, rfl⟩, ⟨s', hleads, rfl⟩, hs'⟩
  have hpages := (pages_complete (T := utcText) (reachable_after sample sampleRun) 100).1
    { limit := 1 } account hfound (le_refl 1) _ (hreads leads_meanwhile shown_sampleRun hshown)
  rw [hid] at hpages
  exact hpages.1 ⟨rfl, rfl⟩

/-! ### A replica that is behind -/

/-- A state of the database that the run has been in on the way to this one. -/
def Before (P : Platform) (s : State) (d : Database) : Prop :=
  ∃ s₀, Reachable P s₀ ∧ Leads P s₀ s ∧ s₀.db = d

/-- Redis keeps the position of a write for half a minute. After that the replica is read without
having replayed the write, and without being asked. -/
def forgottenRun : List RouterStep :=
  tracked ++ [.publish 0 7, .finish 0, .tick (31 * microsPerSecond)] ++ routed 0 1

/-- The account is read in the state there is, and the entries at a replica that is behind. -/
def readsBehind (s₀ s : State) : ℕ → HistoryRead := fun _ => ⟨s.db, .replica, s₀.db⟩

/-- The pages cannot list what the replica has not replayed. -/
lemma not_lists_readsBehind {s₀ s : State} {accountId : Uuid} {query : HistoryQuery}
    {list : Option String → HistoryRead → Except Error Page} {dto : HistoryRow → Json} {n : ℕ}
    {pages : List Page} {listed : List (List HistoryRow)} {row : HistoryRow}
    (hrow : row ∈ s.db.matchingRows accountId query)
    (hmissed : row.place ∉ (s₀.db.matchingRows accountId query).map HistoryRow.place)
    (hfollowed : Followed list none ((List.range n).map (readsBehind s₀ s)) pages) :
    ¬ Lists HistoryRow.place dto (s.db.matchingRows accountId query)
      (((List.range n).map (readsBehind s₀ s)).map fun r => r.found.matchingRows accountId query)
      pages listed := by
  intro hlists
  obtain ⟨r, hr, hmem⟩ := hlists.of_before hfollowed hrow
  obtain ⟨i, -, rfl⟩ := List.mem_map.mp hr
  exact hmissed hmem

/-- The router serves such a read from the replica, and where all pages are read there, an entry that
was committed before the first page is on none of them. -/
theorem pages_miss_entry :
    (RouterState.after (fun s e => decide (KeepsTrack true s e)) forgottenRun).reads.map
        RoutedRead.phase = [.served .replica []] ∧
      ¬ ∀ s : State, Reachable sample s → ∀ (userId : Uuid) (query : HistoryQuery)
        (account : Account), s.db.accountOf userId = some account → 1 ≤ query.limit →
        ∀ reads : ℕ → HistoryRead,
          (∀ n, After sample s (reads n).lookup ∧ (After sample s (reads n).found ∨
            (reads n).servedBy = .replica ∧ Before sample s (reads n).found) ∧
              (reads n).found.Shown utcText) → query.Accepted → ∃ n pages listed,
            Followed (historyPage sample utcText userId query) none
                ((List.range n).map reads) pages ∧
              Lists HistoryRow.place (fun row => historyItemDTO (mapEntry row))
                (s.db.matchingRows account.id query)
                (((List.range n).map reads).map fun r => r.found.matchingRows account.id query)
                pages listed := by
  refine ⟨by decide, fun h => ?_⟩
  have hreads : ∀ {s₀ s : State}, Reachable sample s₀ → Leads sample s₀ s → s₀.db.Shown utcText →
      ∀ n, After sample s (readsBehind s₀ s n).lookup ∧
        (After sample s (readsBehind s₀ s n).found ∨ (readsBehind s₀ s n).servedBy = .replica ∧
          Before sample s (readsBehind s₀ s n).found) ∧
        (readsBehind s₀ s n).found.Shown utcText := by
    intro s₀ s hs₀ hleads hshown n
    exact ⟨⟨s, .refl, rfl⟩, .inr ⟨rfl, s₀, hs₀, hleads, rfl⟩, hshown⟩
  have haccount : (meanwhile.db.accountOf 100).map Account.id = some 101 := by decide +kernel
  obtain ⟨account, hfound, hid⟩ := Option.map_eq_some_iff.mp haccount
  have hreachable := reachable_after sample sampleRun
  obtain ⟨n, pages, listed, hfollowed, hlists⟩ := h meanwhile
    (leads_meanwhile.reachable hreachable) 100 {} account hfound (by decide) _
    (hreads hreachable leads_meanwhile shown_sampleRun) ⟨rfl, rfl⟩
  rw [hid] at hlists
  have hmissed : ((meanwhile.db.matchingRows 101 {}).any fun row => decide (row.place ∉
      ((State.after sample sampleRun).db.matchingRows 101 {}).map HistoryRow.place)) = true := by
    decide +kernel
  obtain ⟨row, hrow, hnot⟩ := List.any_eq_true.mp hmissed
  exact not_lists_readsBehind hrow (of_decide_eq_true hnot) hfollowed hlists

end TakaFlow
