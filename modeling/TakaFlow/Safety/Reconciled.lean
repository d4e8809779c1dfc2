import TakaFlow.Reconciliation

/-!
# What reconciliation finds

The report against the invariants it is there to check.
-/

namespace TakaFlow

open Txn

/-- One `DEBIT` and one `CREDIT`, each of the amount. -/
def Doubled (amountMinor : ℤ) (entries : List LedgerEntry) : Prop :=
  (entries.filter fun e => e.direction = .debit).map LedgerEntry.amountMinor = [amountMinor] ∧
    (entries.filter fun e => e.direction = .credit).map LedgerEntry.amountMinor = [amountMinor]

instance (amountMinor : ℤ) (entries : List LedgerEntry) : Decidable (Doubled amountMinor entries) :=
  inferInstanceAs (Decidable (_ ∧ _))

/-- A double entry is two entries. -/
lemma Doubled.length {amountMinor : ℤ} {entries : List LedgerEntry}
    (h : Doubled amountMinor entries) : entries.length = 2 := by
  have hd := congrArg List.length h.1
  have hc := congrArg List.length h.2
  have hsplit := List.length_eq_length_filter_add (l := entries) fun e => e.direction = .debit
  have hrest : (entries.filter fun e => !decide (e.direction = .debit)) =
      entries.filter fun e => e.direction = .credit := by
    congr 1
    funext e
    cases e.direction <;> rfl
  rw [hrest] at hsplit
  simp only [List.length_map, List.length_singleton] at hd hc
  omega

/-- Two entries of opposite sides whose least and greatest amounts are the amount. -/
lemma doubled_pair {amountMinor : ℤ} {e f : LedgerEntry} (he : 0 < e.amountMinor)
    (hf : 0 < f.amountMinor) :
    Doubled amountMinor [e, f] ↔ e.signed + f.signed = 0 ∧
      min e.amountMinor f.amountMinor = amountMinor ∧
      max e.amountMinor f.amountMinor = amountMinor := by
  unfold Doubled LedgerEntry.signed
  cases hde : e.direction <;> cases hdf : f.direction <;> simp [hde, hdf] <;> omega

namespace Relations

/-- The third check asks for one double entry of each group. -/
lemma not_isUnbalanced {amountMinor : ℤ} {rows : List (Transfer × Option LedgerEntry)}
    {entries : List LedgerEntry} (hpos : ∀ e ∈ entries, 0 < e.amountMinor)
    (hid : (rows.map fun q => q.2.map LedgerEntry.id).reduceOption = entries.map LedgerEntry.id)
    (hamount : (rows.map fun q => q.2.map LedgerEntry.amountMinor).reduceOption =
      entries.map LedgerEntry.amountMinor)
    (hsigned : (rows.map fun q => q.2.map LedgerEntry.signed).reduceOption =
      entries.map LedgerEntry.signed) :
    ¬ (isUnbalanced amountMinor rows).holds ↔ Doubled amountMinor entries := by
  unfold isUnbalanced
  simp only [Sql.Truth.holds_or, Sql.holds_ne_some, not_or, not_not]
  have hcount : Sql.count (rows.map fun q => q.2.map LedgerEntry.id) = entries.length := by
    rw [Sql.count, hid, List.length_map]
  rw [hcount]
  by_cases hlength : entries.length = 2
  · obtain ⟨e, f, rfl⟩ := List.length_eq_two.mp hlength
    have he : 0 < e.amountMinor := hpos e (by simp)
    have hf : 0 < f.amountMinor := hpos f (by simp)
    have hsum : Sql.coalesce (signedSum rows) 1 = e.signed + f.signed := by
      simp [Sql.coalesce, signedSum, Sql.sum, hsigned]
    have hmin : Sql.min (rows.map fun q => q.2.map LedgerEntry.amountMinor) =
        some (min e.amountMinor f.amountMinor) := by
      simp [Sql.min, hamount]
    have hmax : Sql.max (rows.map fun q => q.2.map LedgerEntry.amountMinor) =
        some (max e.amountMinor f.amountMinor) := by
      simp [Sql.max, hamount]
    rw [hsum, hmin, hmax, Sql.holds_ne_some, Sql.holds_ne_some, not_not, not_not,
      doubled_pair he hf, and_iff_right hlength]
  · constructor
    · rintro ⟨⟨h, -⟩, -⟩
      exact absurd h hlength
    · intro h
      exact absurd h.length hlength

variable (d : Relations) (now : Timestamp)

/-- The entries of a row of `transfers`. -/
def entriesOf (t : Transfer) : List LedgerEntry :=
  d.ledgerEntries.rows.filter fun e => e.transferId = t.id ∧ e.createdAt = t.createdAt

/-- The entries of all the rows with the identifier and the amount of a row. -/
def groupEntries (t : Transfer) : List LedgerEntry :=
  (d.transfers.rows.filter fun u => (u.id, u.amountMinor) = (t.id, t.amountMinor)).flatMap
    d.entriesOf

/-- What the report is to find, apart from the entries of the transfers. -/
structure Sound : Prop where
  conserved : (d.accounts.rows.map Account.balanceMinor).sum = 0
  matched : ∀ a ∈ d.accounts.rows, a.balanceMinor =
    ((d.ledgerEntries.rows.filter fun e => e.accountId = a.id).map LedgerEntry.signed).sum
  covered : ∀ e ∈ d.ledgerEntries.rows, ∃ t ∈ d.transfers.rows,
    t.id = e.transferId ∧ t.createdAt = e.createdAt
  nonnegative : ∀ a ∈ d.accounts.rows, a.type = .user → 0 ≤ a.balanceMinor
  settled : ∀ r ∈ d.idempotencyKeys.rows, r.state = .inProgress →
    now ≤ r.createdAt + microsPerMinute

/-- What the report is to find. -/
def Exact : Prop :=
  d.Sound now ∧ ∀ t ∈ d.transfers.rows, Doubled t.amountMinor (d.entriesOf t)

/-- No two rows of `transfers` have one identifier and one amount. -/
def Distinct : Prop := (d.transfers.rows.map fun t => (t.id, t.amountMinor)).Nodup

variable {d now}

/-! ### The checks -/

lemma net_eq : d.net = (d.accounts.rows.map Account.balanceMinor).sum := by
  rw [net, Sql.coalesce_sum_zero, Sql.reduceOption_map_some]

/-- Balances and entries agree. -/
lemma drifted_eq_nil : d.drifted = [] ↔ ∀ a ∈ d.accounts.rows, a.balanceMinor =
    ((d.ledgerEntries.rows.filter fun e => e.accountId = a.id).map LedgerEntry.signed).sum := by
  have hnodup : (d.accounts.rows.map fun a => (a.id, a.balanceMinor)).Nodup :=
    Sql.nodup_map_of_comp Prod.fst d.accounts.nodup
  unfold drifted
  refine List.map_eq_nil_iff.trans
    ((Sql.groupByHaving_leftJoin_eq_nil fun a : Account => (a.id, a.balanceMinor)).trans ?_)
  refine forall₂_congr fun a ha => ?_
  rw [Sql.holds_ne_some, not_not, Sql.filter_eq_singleton hnodup ha, signedSum,
    Sql.coalesce_sum_zero, Sql.reduceOption_leftJoin, List.flatMap_singleton]

/-- The entries of every group are one double entry. -/
lemma unbalanced_eq_nil : d.unbalanced = [] ↔
    ∀ t ∈ d.transfers.rows, Doubled t.amountMinor (d.groupEntries t) := by
  unfold unbalanced
  refine List.map_eq_nil_iff.trans
    ((Sql.groupByHaving_leftJoin_eq_nil fun t : Transfer => (t.id, t.amountMinor)).trans ?_)
  refine forall₂_congr fun t ht => ?_
  refine not_isUnbalanced ?_ (Sql.reduceOption_leftJoin _)
    (Sql.reduceOption_leftJoin _) (Sql.reduceOption_leftJoin _)
  intro e he
  obtain ⟨u, -, he⟩ := List.mem_flatMap.mp he
  exact d.entryAmounts e (List.mem_of_mem_filter he)

/-- Every entry has its transfer. -/
lemma orphans_eq_nil : d.orphans = [] ↔ ∀ e ∈ d.ledgerEntries.rows,
    ∃ t ∈ d.transfers.rows, t.id = e.transferId ∧ t.createdAt = e.createdAt := by
  unfold orphans
  rw [List.map_eq_nil_iff, List.dedup_eq_nil, List.map_eq_nil_iff, List.filter_eq_nil_iff]
  constructor
  · intro h e he
    by_contra hnone
    refine h (e, none) (Sql.mem_leftJoin_none.mpr ⟨he, fun t ht => ?_⟩) rfl
    rw [decide_eq_false_iff_not]
    exact fun hkey => hnone ⟨t, ht, hkey⟩
  · rintro h ⟨e, _ | t⟩ hq
    · obtain ⟨he, hnone⟩ := Sql.mem_leftJoin_none.mp hq
      obtain ⟨t, ht, hkey⟩ := h e he
      exact absurd hkey (of_decide_eq_false (hnone t ht))
    · exact Bool.false_ne_true

lemma negative_eq_nil :
    d.negative = [] ↔ ∀ a ∈ d.accounts.rows, a.type = .user → 0 ≤ a.balanceMinor := by
  simp [negative, List.filter_eq_nil_iff]

lemma stranded_eq_nil : d.stranded now = [] ↔ ∀ r ∈ d.idempotencyKeys.rows,
    r.state = .inProgress → now ≤ r.createdAt + microsPerMinute := by
  simp [stranded, List.filter_eq_nil_iff]

/-- What the report checks. -/
lemma pass_reconciled : (d.reconciled now).pass = true ↔
    d.Sound now ∧ ∀ t ∈ d.transfers.rows, Doubled t.amountMinor (d.groupEntries t) := by
  have hnet : (if d.net = 0 then [] else [Violation.net d.net]) = [] ↔ d.net = 0 := by
    split_ifs with h
    · simp [h]
    · simp [h]
  rw [net_eq] at hnet
  simp only [reconciled, report, conservationOfMoney, balancesMatchLedger, doubleEntryComplete,
    noOrphans, timed, List.all_cons, List.all_nil, Bool.and_true, Bool.and_eq_true,
    List.isEmpty_iff, hnet, List.append_eq_nil_iff, drifted_eq_nil, unbalanced_eq_nil,
    orphans_eq_nil, negative_eq_nil, stranded_eq_nil, net_eq]
  constructor
  · rintro ⟨hnet, hdrift, hbalanced, ⟨hcovered, hnegative⟩, hstranded⟩
    exact ⟨⟨hnet, hdrift, hcovered, hnegative, hstranded⟩, hbalanced⟩
  · rintro ⟨⟨hnet, hdrift, hcovered, hnegative, hstranded⟩, hbalanced⟩
    exact ⟨hnet, hdrift, hbalanced, ⟨hcovered, hnegative⟩, hstranded⟩

/-! ### Groups of several rows -/

/-- A row on its own is its group. -/
lemma Distinct.groupEntries (h : d.Distinct) {t : Transfer} (ht : t ∈ d.transfers.rows) :
    d.groupEntries t = d.entriesOf t := by
  unfold Relations.groupEntries
  rw [Sql.filter_eq_singleton h ht, List.flatMap_singleton]

/-- If the rows of a group are complete one by one then together they are not. -/
lemma exists_not_doubled (h : ¬ d.Distinct)
    (hcomplete : ∀ t ∈ d.transfers.rows, Doubled t.amountMinor (d.entriesOf t)) :
    ∃ t ∈ d.transfers.rows, ¬ Doubled t.amountMinor (d.groupEntries t) := by
  obtain ⟨t, ht, hlength⟩ := Sql.exists_two_le_length h
  refine ⟨t, ht, fun hdoubled => ?_⟩
  have htwo : (d.groupEntries t).length = 2 := hdoubled.length
  -- Each row of the group contributes two entries.
  have heach : ∀ u ∈ d.transfers.rows.filter fun u =>
      (u.id, u.amountMinor) = (t.id, t.amountMinor), (d.entriesOf u).length = 2 :=
    fun u hu => (hcomplete u (List.mem_of_mem_filter hu)).length
  unfold groupEntries at htwo
  rw [List.length_flatMap, List.map_congr_left heach, List.map_const',
    List.sum_replicate_nat] at htwo
  omega

/-- Rows of one group that are all complete fail the report. -/
lemma Exact.not_pass (h : d.Exact now) (hshared : ¬ d.Distinct) :
    (d.reconciled now).pass ≠ true := by
  intro hpass
  obtain ⟨t, ht, hnot⟩ := exists_not_doubled hshared h.2
  exact hnot ((pass_reconciled.mp hpass).2 t ht)

/-- A report that passes rows of one group misses that one of them is not complete. -/
lemma not_doubled_of_pass (h : (d.reconciled now).pass = true) (hshared : ¬ d.Distinct) :
    ∃ t ∈ d.transfers.rows, ¬ Doubled t.amountMinor (d.entriesOf t) := by
  by_contra hcomplete
  simp only [not_exists, not_and, not_not] at hcomplete
  exact Exact.not_pass ⟨(pass_reconciled.mp h).1, hcomplete⟩ hshared h

end Relations

/-- The value of the program. -/
lemma evalAt_reconcile (now : Timestamp) (d : Relations) :
    reconcile.evalAt now () d = some (d.reconciled now) := rfl

/-- Reconciliation passes exactly the states it is to pass, where no two rows of `transfers` share
an identifier and an amount. -/
theorem reconcile_exact {d : Relations} (h : d.Distinct) (now : Timestamp) :
    (reconcile.evalAt now () d).map Report.pass = some true ↔ d.Exact now := by
  rw [evalAt_reconcile, Option.map_some, Option.some_inj, Relations.pass_reconciled]
  refine and_congr_right fun _ => forall₂_congr fun t ht => ?_
  rw [h.groupEntries ht]

/-- A transfer of one taka. -/
def oneTransfer : Relations where
  accounts := ⟨[⟨1, none, .system, .active, -100, 1⟩, ⟨2, some 7, .user, .active, 100, 1⟩],
    by decide⟩
  transfers := ⟨[⟨3, "TF", 1, 2, 100, .mint, .completed, none, none, none, 1000⟩], by decide⟩
  ledgerEntries := ⟨[⟨1, 3, 1, .debit, 100, -100, 1000⟩, ⟨2, 3, 2, .credit, 100, 100, 1000⟩],
    by decide⟩

theorem reconcile_exact_oneTransfer :
    (reconcile.evalAt 5000 () oneTransfer).map Report.pass = some true ∧
      ((reconcile.evalAt 5000 () oneTransfer).map Report.pass = some true ↔
        oneTransfer.Exact 5000) :=
  ⟨by decide +kernel, reconcile_exact (by decide : List.Nodup _) 5000⟩

/-- A transfer of one taka, and another without entries under the same identifier. -/
def lostEntries : Relations where
  accounts := ⟨[⟨1, none, .system, .active, -100, 1⟩, ⟨2, some 7, .user, .active, 100, 1⟩],
    by decide⟩
  transfers := ⟨[⟨3, "TF", 1, 2, 100, .mint, .completed, none, none, none, 1000⟩,
    ⟨3, "TF", 1, 2, 100, .mint, .completed, none, none, none, 2000⟩], by decide⟩
  ledgerEntries := ⟨[⟨1, 3, 1, .debit, 100, -100, 1000⟩, ⟨2, 3, 2, .credit, 100, 100, 1000⟩],
    by decide⟩

/-- The report passes although one of the transfers has no entries. -/
theorem lostEntries_pass :
    (reconcile.evalAt 5000 () lostEntries).map Report.pass = some true ∧
      ¬ lostEntries.Exact 5000 := by
  refine ⟨by decide +kernel, fun h => ?_⟩
  have hentries := h.2 ⟨3, "TF", 1, 2, 100, .mint, .completed, none, none, none, 2000⟩
    (by decide)
  exact absurd hentries.length (by decide)

/-! ### One snapshot -/

/-- Every report is that of one committed state. -/
def OneSnapshot (d₀ : Relations) (s : AuditState) : Prop :=
  ∀ r ∈ s.history, r.call = .reconcile →
    ∃ d ∈ s.states d₀, r.reply = some (d.reconciled r.now)

/-- The program of the report only reads. -/
lemma reads_reconcile : (auditBody .reconcile).Reads .reading := by
  have hreconcile : reconcile.Reads .reading := by
    simp only [reconcile, ask, Program.bind_eq]
    refine .bind .exec fun totals => .bind .exec fun net => .bind .exec fun drifted => ?_
    refine .bind .exec fun unbalanced => .bind .exec fun orphans => ?_
    exact .bind .exec fun negative => .bind .exec fun stranded => .ret _
  exact .bind hreconcile fun r => .ret _

/-- The value of the call. -/
lemma evalAt_auditBody (now : Timestamp) (x : Unit) (d : Relations) :
    (auditBody .reconcile).evalAt now x d = some (some (d.reconciled now)) := rfl

/-- If no commit that changes a row lands between the seven statements, the report is one of a
committed state. -/
theorem reports_hold {d₀ : Relations} {t : Timestamp} {s : AuditState}
    (h : Reaches auditBody (fun s e => s.Undisturbed .reading e) (Sys.start d₀ t) s) :
    OneSnapshot d₀ s := by
  intro r hr hcall
  have hconsistent := h.consistent fun _ _ hok => hok
  obtain ⟨d, hd, hresult⟩ := hconsistent.commits r hr (hcall ▸ reads_reconcile)
  refine ⟨d, hd, ?_⟩
  have hreply := hresult ()
  rw [hcall, evalAt_auditBody] at hreply
  exact (Option.some.inj hreply).symm

/-- No commit lands while another session is reading. -/
def quiet (s : AuditState) : Event DriverError Unit AuditCall → Bool
  | .finish i => (List.range s.sessions.length).all fun j =>
    j = i || (s.sessions[j]?.all fun x => !x.ctx.tokens.contains .reading)
  | _ => true

lemma undisturbed_of_quiet {s : AuditState} {e : Event DriverError Unit AuditCall}
    (h : quiet s e = true) : s.Undisturbed .reading e := by
  cases e with
  | finish i =>
    intro j x hj hx _ hmark
    have hlt := (List.getElem?_eq_some_iff.mp hx).1
    have hall := List.all_eq_true.mp h j (List.mem_range.mpr hlt)
    simp [hj, hx, hmark] at hall
  | _ => trivial

/-- A treasury and a user without money. -/
def unfunded : Relations where
  accounts := ⟨[⟨1, none, .system, .active, 0, 0⟩, ⟨2, some 7, .user, .active, 0, 0⟩], by decide⟩

/-- The user has a taka from nowhere. -/
def misprinted : Relations where
  accounts := ⟨[⟨1, none, .system, .active, 0, 0⟩, ⟨2, some 7, .user, .active, 100, 0⟩],
    by decide⟩

/-- The misprint is written, and waits to be committed until the reports that have begun are
done. -/
def auditRun : List (Event DriverError Unit AuditCall) :=
  [.begin .reconcile, .begin (.other fun _ => misprinted), .step 1 (), .step 0 (), .step 0 ()] ++
    [.finish 1] ++ List.replicate 5 (.step 0 ()) ++ [.finish 0, .finish 1, .begin .reconcile] ++
    List.replicate 7 (.step 2 ()) ++ [.finish 2]

/-- Where that run leads, with some steps left out. -/
def AuditState.after (allowed : AuditState → Event DriverError Unit AuditCall → Bool) :
    AuditState :=
  (Sys.start unfunded 0).play auditBody allowed auditRun

theorem reports_hold_auditRun :
    (AuditState.after quiet).history.map (fun r => r.reply.map Report.pass) =
        [some true, none, some false] ∧
      OneSnapshot unfunded (AuditState.after quiet) :=
  ⟨by decide +kernel, reports_hold (.play (fun _ _ h => undisturbed_of_quiet h) _ .refl)⟩

/-- Does the record report what no committed state of the run gives? -/
def misreported (d₀ : Relations) (s : AuditState) (r : Commit Relations Empty (Option Report)
    AuditCall) : Bool :=
  (match r.call with
    | .reconcile => true
    | .other _ => false) &&
    (s.states d₀).all fun d => r.reply ≠ some (d.reconciled r.now)

/-- The misprint is committed between the second statement and the third. The report has a net of
nothing and a drift. -/
theorem reports_disagree : ∃ s : AuditState,
    Reaches auditBody (fun _ _ => True) (Sys.start unfunded 0) s ∧ ¬ OneSnapshot unfunded s := by
  refine ⟨AuditState.after fun _ _ => true, .play (fun _ _ _ => trivial) _ .refl, fun h => ?_⟩
  have hbad : ((AuditState.after fun _ _ => true).history.any
      (misreported unfunded (AuditState.after fun _ _ => true))) = true := by decide +kernel
  obtain ⟨r, hr, hmis⟩ := List.any_eq_true.mp hbad
  obtain ⟨hcall, hall⟩ := Bool.and_eq_true_iff.mp hmis
  have hreconcile : r.call = .reconcile := by
    cases hc : r.call with
    | reconcile => rfl
    | other write => simp [hc] at hcall
  obtain ⟨d, hd, hreply⟩ := h r hr hreconcile
  have hne := List.all_eq_true.mp hall d hd
  exact absurd hreply (of_decide_eq_true hne)

end TakaFlow
