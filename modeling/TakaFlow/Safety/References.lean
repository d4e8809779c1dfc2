import TakaFlow.Calendar
import TakaFlow.History
import TakaFlow.Safety.Books

/-!
# Finding a transfer by its reference

A reference carries the UTC day of the clock it was generated by, and every lookup is confined to
that day. The transfer itself is dated by the beginning of its transaction.
-/

namespace TakaFlow

open Txn

/-! ### The day of a reference -/

/-- The UTC day of an instant. -/
def utcDay (t : Timestamp) : ℕ := toMillis t / msPerDay

/-- The instants whose year two digits can tell. -/
def InCentury (t : Timestamp) : Prop :=
  2000 ≤ (civilOfDays (utcDay t)).year ∧ (civilOfDays (utcDay t)).year ≤ 2099

lemma toList_padNat : ∀ n < 100, ∃ a ∈ ['0', '1', '2', '3', '4', '5', '6', '7', '8', '9'],
    ∃ b ∈ ['0', '1', '2', '3', '4', '5', '6', '7', '8', '9'],
      (padNat 2 n).toList = [a, b] ∧ twoDigits a b = some n := by
  have hall : ∀ n < 100, (['0', '1', '2', '3', '4', '5', '6', '7', '8', '9'].any fun a =>
      ['0', '1', '2', '3', '4', '5', '6', '7', '8', '9'].any fun b =>
        decide ((padNat 2 n).toList = [a, b] ∧ twoDigits a b = some n)) = true := by
    decide +kernel
  intro n hn
  simpa only [List.any_eq_true, decide_eq_true_eq] using hall n hn

lemma suffixChar_upper (bytes : ℕ → Fin 256) (i : ℕ) :
    ((suffixChar bytes i).isDigit || (suffixChar bytes i).isUpper) = true := by
  have hall : ∀ j < 32, ((base32.getD j '0').isDigit || (base32.getD j '0').isUpper) = true := by
    decide +kernel
  exact hall _ (Nat.mod_lt _ (by decide))

/-- The day a date names. -/
lemma utcDays_civilOfDays {days : ℕ} (h : 2000 ≤ (civilOfDays days).year) :
    utcDays (civilOfDays days).year (civilOfDays days).month (civilOfDays days).day = days := by
  have hvalid := valid_civilOfDays days
  have hback := daysOfCivil_civilOfDays days
  obtain ⟨era, yoe, mp, d, hyoe, hmp, hcivil, -⟩ := hvalid.marchDate (by omega)
  generalize civilOfDays days = c at *
  obtain ⟨⟨hone, htwelve⟩, -⟩ := hvalid
  have hyear : (c.year * 12 + c.month - 1) / 12 = c.year := by omega
  have hmonth : (c.year * 12 + c.month - 1) % 12 + 1 = c.month := by omega
  have hfirst : (⟨c.year, c.month, 1⟩ : Civil) = marchDate era yoe mp 0 := by
    rw [hcivil]
    rfl
  have hday : c.day = d + 1 := by
    rw [hcivil]
    rfl
  have hsince : 719468 ≤ era * 146097 + (yearStart yoe + monthStart mp) := by
    rw [hcivil] at h
    unfold marchDate at h
    unfold yearStart monthStart
    simp only at h
    split at h <;> omega
  change daysOfCivil ⟨(c.year * 12 + c.month - 1) / 12, (c.year * 12 + c.month - 1) % 12 + 1, 1⟩ +
    c.day - 1 = days
  rw [hyear, hmonth, hfirst, daysOfCivil_marchDate era yoe mp 0 hyoe hmp, hday, ← hback, hcivil,
    daysOfCivil_marchDate era yoe mp d hyoe hmp]
  generalize 719468 = offset at hsince ⊢
  omega

/-- What is read of a reference. -/
lemma referenceDateRange_of_toList {reference : String} {y₁ y₂ m₁ m₂ d₁ d₂ : Char}
    {suffix : List Char} {yy mm dd : ℕ}
    (htext : reference.toList = 'T' :: 'F' :: y₁ :: y₂ :: m₁ :: m₂ :: d₁ :: d₂ :: suffix)
    (hy : twoDigits y₁ y₂ = some yy) (hm : twoDigits m₁ m₂ = some mm)
    (hd : twoDigits d₁ d₂ = some dd)
    (hsuffix : suffix.length = 8 ∧ suffix.all (fun c => c.isDigit || c.isUpper) = true) :
    referenceDateRange reference = some (ofMillis (utcDays (2000 + yy) mm dd * msPerDay),
      ofMillis (utcDays (2000 + yy) mm dd * msPerDay + msPerDay)) := by
  unfold referenceDateRange
  rw [htext]
  simp only [hy, hm, hd, Option.bind_eq_bind, Option.bind_some]
  rw [if_pos hsuffix]

/-- The range of a reference is the day it was generated on. -/
lemma referenceDateRange_generate {now : Millis} {bytes : ℕ → Fin 256}
    (h : 2000 ≤ (civilOfDays (now / msPerDay)).year ∧ (civilOfDays (now / msPerDay)).year ≤ 2099) :
    referenceDateRange (generateReference now bytes) =
      some (ofMillis (now / msPerDay * msPerDay),
        ofMillis (now / msPerDay * msPerDay + msPerDay)) := by
  have hdays := utcDays_civilOfDays h.1
  obtain ⟨⟨-, hmonth⟩, -, hday⟩ := valid_civilOfDays (now / msPerDay)
  unfold generateReference
  generalize civilOfDays (now / msPerDay) = c at *
  have hlength : daysInMonth c.year c.month ≤ 31 := by
    unfold daysInMonth
    split_ifs <;> decide
  obtain ⟨y₁, -, y₂, -, hy, hyy⟩ := toList_padNat (c.year % 100) (by omega)
  obtain ⟨m₁, -, m₂, -, hm, hmm⟩ := toList_padNat c.month (by omega)
  obtain ⟨d₁, -, d₂, -, hd, hdd⟩ := toList_padNat c.day (by omega)
  have htext : ("TF" ++ padNat 2 (c.year % 100) ++ padNat 2 c.month ++ padNat 2 c.day ++
      String.ofList ((List.range 8).map (suffixChar bytes))).toList =
        'T' :: 'F' :: y₁ :: y₂ :: m₁ :: m₂ :: d₁ :: d₂ ::
          (List.range 8).map (suffixChar bytes) := by
    simp [String.toList_append, hy, hm, hd]
  have hsuffix : ((List.range 8).map (suffixChar bytes)).length = 8 ∧
      ((List.range 8).map (suffixChar bytes)).all (fun c => c.isDigit || c.isUpper) = true := by
    refine ⟨by simp, ?_⟩
    rw [List.all_map, List.all_eq_true]
    exact fun i _ => suffixChar_upper bytes i
  have hcentury : 2000 + c.year % 100 = c.year := by omega
  rw [referenceDateRange_of_toList htext hyy hmm hdd hsuffix, hcentury, hdays]

/-- An instant is in the range iff it is on that day. -/
lemma inRange_iff {t now : Timestamp} :
    (ofMillis (utcDay now * msPerDay) ≤ t ∧ t < ofMillis (utcDay now * msPerDay + msPerDay)) ↔
      utcDay t = utcDay now := by
  have hday : ∀ t day : ℕ, day * 86400000 * 1000 ≤ t ∧ t < (day * 86400000 + 86400000) * 1000 ↔
      t / 1000 / 86400000 = day := by
    intro t day
    omega
  exact hday t (utcDay now)

/-! ### What the lookups return -/

/-- Is the account one of the two sides? -/
def Transfer.Touches (t : Transfer) (accountId : Uuid) : Prop :=
  accountId = t.fromAccountId ∨ accountId = t.toAccountId

/-- No other transfer has its reference. -/
def Database.Sole (d : Database) (t : Transfer) : Prop :=
  ∀ t' ∈ d.transfers, t'.reference = t.reference → t' = t

/-- Both parties find the transfer, and its sender can reverse it. -/
structure FoundByReference (d : Database) (t : Transfer) : Prop where
  inRange : inReferenceRange t.reference t = true
  /-- `LIMIT 1` may return another one where two transfers share a reference. -/
  receipt : ∀ userId x account, x.accountOf userId = some account → t.Touches account.id →
    (∃ row ∈ d.receiptRows account.id t.reference, row.transfer = t) ∧
      ∃ row ∈ d.receiptRows account.id t.reference,
        getReceipt userId t.reference x d = .ok (historyItemDTO (mapEntry row)) ∧
          (d.Sole t → row.transfer = t)
  original : ∃ o, d.originalTransfer t.reference = some o ∧ o.transfer.reference = t.reference ∧
    (d.Sole t → o.transfer = t ∧
      ∀ a ∈ d.accounts, a.id = t.fromAccountId → o.senderUserId = a.userId)

section

variable {d : Database} {t : Transfer}

lemma Books.sides (h : Books d) (ht : t ∈ d.transfers) {accountId : Uuid}
    (hside : t.Touches accountId) : ∃ e ∈ d.ledgerEntries, e.transferId = t.id ∧
      e.createdAt = t.createdAt ∧ e.accountId = accountId ∧
        t.Touches (counterpartyAccountId e t) := by
  obtain ⟨i, j, b, b', hentries⟩ := h.entered t ht
  have hmem : ∀ e ∈ [t.debit i b, t.credit j b'], e ∈ d.ledgerEntries ∧ e.transferId = t.id := by
    intro e he
    rw [← hentries, Database.entriesOf, List.mem_filter, decide_eq_true_eq] at he
    exact he
  rcases hside with rfl | rfl
  · obtain ⟨he, hid⟩ := hmem (t.debit i b) (by simp)
    exact ⟨_, he, hid, rfl, rfl, .inr rfl⟩
  · obtain ⟨he, hid⟩ := hmem (t.credit j b') (by simp)
    exact ⟨_, he, hid, rfl, rfl, .inl rfl⟩

/-- Both accounts of a transfer are there. -/
lemma Books.has_account (h : Books d) (ht : t ∈ d.transfers) {accountId : Uuid}
    (hside : t.Touches accountId) : ∃ a ∈ d.accounts, a.id = accountId := by
  obtain ⟨e, he, -, -, rfl, -⟩ := h.sides ht hside
  obtain ⟨a, ha⟩ := Option.isSome_iff_exists.mp (h.accounts e he)
  exact ⟨a, Table.mem_of_get? ha, Table.key_of_get? ha⟩

/-- Each side of a transfer is a row of its account's history. -/
lemma Books.historyRow (h : Books d) (ht : t ∈ d.transfers) {accountId : Uuid}
    (hside : t.Touches accountId) : ∃ row ∈ d.historyRows, row.entry.accountId = accountId ∧
      row.transfer = t ∧ row.entry.createdAt = t.createdAt := by
  obtain ⟨e, he, hid, hcreated, haccount, hother⟩ := h.sides ht hside
  obtain ⟨ca, hca, hcaid⟩ := h.has_account ht hother
  have hrow : ((e, t), ca) ∈ d.historyRows.map Prod.fst := by
    refine Sql.mem_fst_leftJoin.mpr (Sql.mem_join.mpr ⟨Sql.mem_join.mpr ⟨he, ht, ?_⟩, hca, ?_⟩)
    · rw [decide_eq_true_eq]
      exact ⟨hid.symm, hcreated.symm⟩
    · rw [decide_eq_true_eq]
      exact hcaid
  obtain ⟨row, hmem, hfst⟩ := List.mem_map.mp hrow
  refine ⟨row, hmem, ?_, ?_, ?_⟩
  · rw [HistoryRow.entry, hfst]
    exact haccount
  · rw [HistoryRow.transfer, hfst]
  · rw [HistoryRow.entry, hfst]
    exact hcreated

/-- A row of the history is one of its account, about one of the transfers. -/
lemma Database.mem_historyRows {row : HistoryRow} (h : row ∈ d.historyRows) :
    row.entry ∈ d.ledgerEntries ∧ row.transfer ∈ d.transfers ∧
      row.transfer.id = row.entry.transferId ∧ row.transfer.createdAt = row.entry.createdAt := by
  have hjoin := Sql.mem_fst_leftJoin.mp (List.mem_map_of_mem h)
  obtain ⟨hpair, -, -⟩ := Sql.mem_join.mp hjoin
  obtain ⟨he, ht, hon⟩ := Sql.mem_join.mp hpair
  rw [decide_eq_true_eq] at hon
  exact ⟨he, ht, hon.1, hon.2⟩

lemma mem_receiptRows {accountId : Uuid} {reference : String} {row : HistoryRow} :
    row ∈ d.receiptRows accountId reference ↔ row ∈ d.historyRows ∧
      row.entry.accountId = accountId ∧ row.transfer.reference = reference ∧
        inReferenceRange reference row.transfer = true := by
  unfold Database.receiptRows
  rw [List.mem_filter, Bool.and_eq_true, decide_eq_true_eq, and_assoc]
  refine and_congr_right fun hrow => ?_
  have hcreated := (Database.mem_historyRows hrow).2.2.2
  unfold inReferenceRange
  exact hcreated ▸ Iff.rfl

/-- A transfer in the range of its reference is found. -/
lemma Books.found (h : Books d) (ht : t ∈ d.transfers)
    (hrange : inReferenceRange t.reference t = true) : FoundByReference d t := by
  refine ⟨hrange, fun userId x account haccount hside => ?_, ?_⟩
  · obtain ⟨row, hrow, hentry, htransfer, hcreated⟩ := h.historyRow ht hside
    have hmem : row ∈ d.receiptRows account.id t.reference := by
      refine mem_receiptRows.mpr ⟨hrow, hentry, ?_⟩
      rw [htransfer]
      exact ⟨rfl, hrange⟩
    refine ⟨⟨row, hmem, htransfer⟩, ?_⟩
    cases hrows : d.receiptRows account.id t.reference with
    | nil =>
      rw [hrows] at hmem
      cases hmem
    | cons first rows =>
      have hfirst : first ∈ d.receiptRows account.id t.reference := by
        rw [hrows]
        exact List.mem_cons_self
      obtain ⟨hhistory, -, hreference, -⟩ := mem_receiptRows.mp hfirst
      refine ⟨first, List.mem_cons_self, ?_, fun hsole => ?_⟩
      · have hfind : findByReference account.id t.reference d = some (mapEntry first) := by
          rw [findByReference, hrows]
          rfl
        unfold getReceipt
        rw [haccount]
        simp only [hfind]
      · exact hsole _ (Database.mem_historyRows hhistory).2.1 hreference
  · obtain ⟨sa, hsa, hsaid⟩ := h.has_account ht (.inl rfl)
    obtain ⟨ra, hra, hraid⟩ := h.has_account ht (.inr rfl)
    have hget : d.accounts.get? t.fromAccountId = some sa := hsaid ▸ Table.get?_of_mem hsa
    have hget' : d.accounts.get? t.toAccountId = some ra := hraid ▸ Table.get?_of_mem hra
    have hsome : (d.originalTransfer t.reference).isSome = true := by
      unfold Database.originalTransfer
      rw [List.findSome?_isSome_iff]
      refine ⟨t, List.mem_filter.mpr ⟨ht, by simp [hrange]⟩, ?_⟩
      rw [hget, hget']
      rfl
    obtain ⟨o, ho⟩ := Option.isSome_iff_exists.mp hsome
    obtain ⟨u, hu, hou⟩ := List.exists_of_findSome?_eq_some ho
    simp only [Option.bind_eq_bind, Option.bind_eq_some_iff, Option.pure_def,
      Option.some.injEq] at hou
    obtain ⟨sa', hsa', ra', -, rfl⟩ := hou
    obtain ⟨hmem, hp⟩ := List.mem_filter.mp hu
    rw [decide_eq_true_eq] at hp
    refine ⟨_, ho, hp.1, fun hsole => ⟨hsole u hmem hp.1, fun a ha haid => ?_⟩⟩
    have hu' := hsole u hmem hp.1
    rw [hu', ← haid, Table.get?_of_mem ha] at hsa'
    rw [Option.some.inj hsa']

/-! ### References of a run -/

/-- The reference was generated in the transaction of the transfer. -/
def Transfer.Referenced (t : Transfer) : Prop :=
  ∃ τ bytes, t.createdAt ≤ τ ∧ t.reference = generateReference (toMillis τ) bytes

lemma Transfer.Referenced.of_core {t' : Transfer} (h : t.Referenced) (hcore : t'.core = t.core) :
    t'.Referenced := by
  obtain ⟨τ, bytes, hle, href⟩ := h
  refine ⟨τ, bytes, ?_, ?_⟩
  · exact (congrArg Transfer.createdAt hcore).le.trans hle
  · exact (congrArg Transfer.reference hcore).trans href

lemma Movement.Executes.referenced {m : Movement} {command : PostDoubleEntryCommand}
    {now : Timestamp} (h : m.Executes command now) : m.transfer.Referenced := by
  obtain ⟨τ, bytes, hle, href⟩ := h.reference
  exact ⟨τ, bytes, h.createdAt.le.trans hle, href⟩

variable {P : Platform} {watched : Token → Prop} {may : ℕ → Database → Token → Prop}
  {now : Timestamp} {call : Call} {x y z : Database}

lemma Movement.Enabled.referenced {m : Movement} (h : m.Enabled x)
    (hx : ∀ t ∈ x.transfers, t.Referenced) (hm : m.transfer.Referenced) :
    ∀ t ∈ (m.apply x).transfers, t.Referenced := by
  intro t ht
  rcases (Movement.mem_transfers h).mp ht with ht | rfl
  · exact hx t ht
  · exact hm

/-- The step lemma. -/
lemma Effect.referenced {contents : List Content} (h : Effect P watched may now call x z contents)
    (hx : ∀ t ∈ x.transfers, t.Referenced) : ∀ t ∈ z.transfers, t.Referenced := by
  cases h with
  | @registered user account m _ _ _ enabled _ executes =>
    have henabled : m.Enabled ((x.insertUser user).insertAccount account) :=
      enabled.congr rfl rfl rfl
    exact henabled.referenced hx executes.referenced
  | @sent m _ enabled _ _ createdAt _ _ _ _ reference =>
    obtain ⟨τ, bytes, hle, href⟩ := reference
    exact enabled.referenced hx ⟨τ, bytes, createdAt.le.trans hle, href⟩
  | @reversed _ _ _ _ _ original m _ found _ _ _ _ enabled executes =>
    obtain ⟨note, keyId, executes⟩ := executes
    refine enabled.referenced (fun t ht => ?_) executes.referenced
    rcases (Database.mem_setTransfer_reversed found).mp ht with rfl | ⟨ht, -⟩
    · exact (hx original found).of_core rfl
    · exact hx t ht
  | accepted _ _ _ _ _ _ _ enabled executes =>
    obtain ⟨keyId, executes⟩ := executes
    exact enabled.referenced hx executes.referenced
  | paid _ _ upserted _ _ _ enabled executes =>
    rw [upserted.rest]
    exact enabled.referenced hx executes.referenced
  | requested =>
    rw [Database.insertRequests_rest]
    exact hx
  | expired =>
    rw [Database.expire_rest]
    exact hx
  | deferred _ _ upserted =>
    rw [upserted.rest]
    exact hx
  | settled _ _ upserted =>
    rw [upserted.rest]
    exact hx
  | _ => exact hx

end

/-! ### The guarantee -/

/-- The reference was generated after the transaction began. Whenever that was, it finds the
transfer iff it was still the same day. -/
structure FoundSameDay (d : Database) (t : Transfer) : Prop where
  referenced : t.Referenced
  found : ∀ τ bytes, t.createdAt ≤ τ → t.reference = generateReference (toMillis τ) bytes →
    InCentury τ → (FoundByReference d t ↔ utcDay t.createdAt = utcDay τ)

/-- A transfer is found by its reference iff that was generated on the UTC day on which the
transaction began. -/
theorem references_found {P : Platform} {s : State} (h : Reachable P s) :
    ∀ t ∈ s.db.transfers, FoundSameDay s.db t := by
  intro t ht
  have hbooks : Books s.db := h.sound.invariant .seed fun _ _ _ _ => .step
  have hreferenced : ∀ t ∈ s.db.transfers, t.Referenced := by
    refine h.sound.invariant (I := fun d => ∀ t ∈ d.transfers, t.Referenced) nofun ?_
    intro now call x y hstep hx
    obtain ⟨z, contents, heffect, hcore, -⟩ := hstep.performs
    have htransfers : y.transfers = z.transfers := (congrArg Database.transfers hcore :)
    rw [htransfers]
    exact heffect.referenced hx
  refine ⟨hreferenced t ht, fun τ bytes _ href hcentury => ?_⟩
  have hrange : inReferenceRange t.reference t = true ↔ utcDay t.createdAt = utcDay τ := by
    unfold inReferenceRange
    rw [href, referenceDateRange_generate hcentury, ← inRange_iff]
    exact decide_eq_true_iff
  rw [← hrange]
  exact ⟨FoundByReference.inRange, hbooks.found ht⟩

/-- Asha pays Babu just before midnight, and the reference is generated just after it. -/
def midnightRun : List Step :=
  session 0 100 asha ++ session 1 200 babu ++ .tick (57599 * microsPerSecond) ::
    .begin (.sendMoney 100 "k" ⟨"01722222222", 2500, none⟩ .null {}) :: advance 2 6 300 ++
      .tick (2 * microsPerSecond) :: advance 2 34 306 ++ [.finish 2]

theorem references_found_midnightRun :
    (State.after sample midnightRun).db.transfers.rows.map Transfer.amountMinor =
        [10000000, 10000000, 2500] ∧
      ∀ t ∈ (State.after sample midnightRun).db.transfers,
        FoundSameDay (State.after sample midnightRun).db t :=
  ⟨by decide +kernel, references_found (reachable_after sample midnightRun)⟩

/-- Neither side finds the payment. -/
theorem reference_lost : ∃ s, Reachable sample s ∧ ∃ t ∈ s.db.transfers, t.type = .p2p ∧
    (∀ account ∈ s.db.accounts, findByReference account.id t.reference s.db = none) ∧
      (s.db.originalTransfer t.reference).isNone ∧ ¬ FoundByReference s.db t := by
  have hlost : ((State.after sample midnightRun).db.transfers.rows.any fun t =>
      t.type = .p2p && (State.after sample midnightRun).db.accounts.rows.all (fun account =>
        (findByReference account.id t.reference (State.after sample midnightRun).db).isNone) &&
          ((State.after sample midnightRun).db.originalTransfer t.reference).isNone) = true := by
    decide +kernel
  simp only [List.any_eq_true, Bool.and_eq_true, decide_eq_true_eq, List.all_eq_true,
    Option.isNone_iff_eq_none] at hlost
  obtain ⟨t, ht, ⟨htype, hreceipts⟩, horiginal⟩ := hlost
  refine ⟨_, reachable_after sample midnightRun, t, ht, htype, hreceipts, ?_, fun h => ?_⟩
  · rw [horiginal]
    rfl
  · obtain ⟨o, ho, -⟩ := h.original
    rw [horiginal] at ho
    cases ho

end TakaFlow
