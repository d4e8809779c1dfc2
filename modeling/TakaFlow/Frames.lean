import TakaFlow.Discipline

/-!
# Frames

For each write: the tokens under which it happens, the identifiers it uses up, and that it undoes
nothing.
-/

namespace TakaFlow

open Txn

/-! ### Tokens and tables -/

/-- The tables a token is about are the same. -/
def Token.Same : Token → Database → Database → Prop
  | .idempotencyKey _ _, d, d' => d'.idempotencyKeys = d.idempotencyKeys
  | .phone _, d, d' => d'.users = d.users
  | .fresh table id, d, d' => d'.has table id = d.has table id
  | .advisory _, _, _ => True
  | .request _, d, d' => d'.moneyRequests = d.moneyRequests
  | .schedule _, d, d' => d'.schedules = d.schedules ∧ d'.occurrences = d.occurrences
  | .transfer _, d, d' => d'.transfers = d.transfers
  | .occurrence _, _, _ => True
  | .account _, d, d' => d'.accounts = d.accounts
  | .spend _, d, d' => d'.transfers = d.transfers
  | .pace _, d, d' => d'.transfers = d.transfers
  | .settle _, _, _ => True

lemma Agree.of_same {l : Token} {d d' : Database} (h : l.Same d d') : Agree l d d' := by
  cases l with
  | schedule id =>
    obtain ⟨hs, ho⟩ := h
    refine ⟨?_, fun due => by rw [Database.occurrenceAt, ho]; rfl⟩
    rw [hs]
    exact Table.Keeps.refl
  | spend id =>
    intro hu
    refine ⟨fun t ht => hu t ?_, fun since => ?_⟩
    · rwa [← show d'.transfers = d.transfers from h]
    · simp only [Database.outboundTotal, show d'.transfers = d.transfers from h, le_refl]
  | pace id =>
    intro since
    simp only [Database.countedTransfers, show d'.transfers = d.transfers from h, le_refl]
  | advisory n => trivial
  | occurrence k => trivial
  | settle id => trivial
  | request id =>
    change d.moneyRequests.Keeps d'.moneyRequests id
    rw [show d'.moneyRequests = d.moneyRequests from h]
    exact Table.Keeps.refl
  | transfer id =>
    change d.transfers.Keeps d'.transfers id
    rw [show d'.transfers = d.transfers from h]
    exact Table.Keeps.refl
  | account id =>
    change d.accounts.Keeps d'.accounts id
    rw [show d'.accounts = d.accounts from h]
    exact Table.Keeps.refl
  | idempotencyKey u k =>
    intro hn
    rwa [Database.findKey, show d'.idempotencyKeys = d.idempotencyKeys from h]
  | phone p =>
    intro hn
    rwa [Database.userByPhone, show d'.users = d.users from h]
  | fresh t i =>
    intro hn
    rwa [show d'.has t i = d.has t i from h]

/-! ### Identifiers in use -/

/-- Whether the write uses up an identifier does not depend on the database. -/
def Adds (w : Database → Database) : Prop :=
  ∀ table id, (∀ d, (w d).has table id = d.has table id) ∨ ∀ d, (w d).has table id = true

namespace Adds

variable {w w' : Database → Database}

lemma id : Adds id := fun _ _ => .inl fun _ => rfl

lemma comp (h' : Adds w') (h : Adds w) : Adds (w' ∘ w) := by
  intro t i
  rcases h' t i with h' | h'
  · rcases h t i with h | h
    · exact .inl fun d => (h' (w d)).trans (h d)
    · exact .inr fun d => (h' (w d)).trans (h d)
  · exact .inr fun d => h' (w d)

/-- An insert uses up one identifier of one table. -/
lemma of_insert {table : TableName} {id : ℕ}
    (h : ∀ d t i, (w d).has t i = (d.has t i || decide (t = table ∧ id = i))) : Adds w := by
  intro t i
  by_cases hc : t = table ∧ id = i
  · exact .inr fun d => by simp [h, hc]
  · exact .inl fun d => by simp [h, hc]

lemma of_same (h : ∀ d t i, (w d).has t i = d.has t i) : Adds w := fun t i => .inl fun d => h d t i

end Adds

namespace Database

variable (d : Database) (t : TableName) (i : ℕ)

@[simp] lemma has_insertUser (r : User) :
    (d.insertUser r).has t i = (d.has t i || decide (t = .users ∧ r.id = i)) := by
  cases t <;> simp [has, insertUser, Table.has_insert]

@[simp] lemma has_insertAccount (r : Account) :
    (d.insertAccount r).has t i = (d.has t i || decide (t = .accounts ∧ r.id = i)) := by
  cases t <;> simp [has, insertAccount, Table.has_insert]

@[simp] lemma has_insertKey (r : IdempotencyKey) :
    (d.insertKey r).has t i = (d.has t i || decide (t = .idempotencyKeys ∧ r.id = i)) := by
  cases t <;> simp [has, insertKey, Table.has_insert]

@[simp] lemma has_insertRequest (r : MoneyRequest) :
    (d.insertRequest r).has t i = (d.has t i || decide (t = .moneyRequests ∧ r.id = i)) := by
  cases t <;> simp [has, insertRequest, Table.has_insert]

@[simp] lemma has_insertSplit (r : BillSplit) :
    (d.insertSplit r).has t i = (d.has t i || decide (t = .billSplits ∧ r.id = i)) := by
  cases t <;> simp [has, insertSplit, Table.has_insert]

@[simp] lemma has_insertSchedule (r : Schedule) :
    (d.insertSchedule r).has t i = (d.has t i || decide (t = .schedules ∧ r.id = i)) := by
  cases t <;> simp [has, insertSchedule, Table.has_insert]

@[simp] lemma has_insertEvent (r : OutboxEvent) :
    (d.insertEvent r).has t i = (d.has t i || decide (t = .outboxEvents ∧ r.id = i)) := by
  cases t <;> simp [has, insertEvent, Table.has_insert]

@[simp] lemma has_insertAudit (r : AuditLog) :
    (d.insertAudit r).has t i = (d.has t i || decide (t = .auditLogs ∧ r.id = i)) := by
  cases t <;> simp [has, insertAudit, Table.has_insert]

@[simp] lemma has_insertToken (r : RefreshToken) :
    (d.insertToken r).has t i = (d.has t i || decide (t = .refreshTokens ∧ r.id = i)) := by
  cases t <;> simp [has, insertToken, Table.has_insert]

@[simp] lemma has_insertTransfer (r : Transfer) (a b : LedgerEntry) :
    (d.insertTransfer r a b).has t i = (d.has t i || decide (t = .transfers ∧ r.id = i) ||
      decide (t = .ledgerEntries ∧ (a.id = i ∨ b.id = i))) := by
  cases t <;> simp [has, insertTransfer, Table.has_insert, Bool.or_assoc]

@[simp] lemma has_setAccount (r : Account) : (d.setAccount r).has t i = d.has t i := by
  cases t <;> simp [has, setAccount, Table.has_modify]

@[simp] lemma has_setKey (r : IdempotencyKey) : (d.setKey r).has t i = d.has t i := by
  cases t <;> simp [has, setKey, Table.has_modify]

@[simp] lemma has_setTransfer (r : Transfer) : (d.setTransfer r).has t i = d.has t i := by
  cases t <;> simp [has, setTransfer, Table.has_modify]

@[simp] lemma has_setRequest (r : MoneyRequest) : (d.setRequest r).has t i = d.has t i := by
  cases t <;> simp [has, setRequest, Table.has_modify]

@[simp] lemma has_setSchedule (r : Schedule) : (d.setSchedule r).has t i = d.has t i := by
  cases t <;> simp [has, setSchedule, Table.has_modify]

@[simp] lemma has_insertOccurrence (r : Occurrence) :
    (d.insertOccurrence r).has t i = (d.has t i || decide (t = .occurrences ∧ r.id = i)) := by
  cases t <;> simp [has, insertOccurrence, Table.has_insert]

@[simp] lemma has_setOccurrence (r : Occurrence) : (d.setOccurrence r).has t i = d.has t i := by
  cases t <;> simp [has, setOccurrence, Table.has_modify]

end Database

/-! ### Growth -/

namespace Later

variable {d d' : Database}

/-- Nothing that `Later` speaks about has changed. -/
lemma of_same (hu : d'.users = d.users) (ha : d'.accounts = d.accounts)
    (hk : d'.idempotencyKeys = d.idempotencyKeys) (ht : d'.transfers = d.transfers) :
    Later d d' where
  users _ h := hu ▸ h
  accounts a h := ⟨a, ha ▸ h, rfl, rfl, rfl⟩
  keys _ h _ := hk ▸ h
  transfers t h := ⟨t, ht ▸ h, rfl⟩

/-- Completing a key that was not there in the earlier state. -/
lemma setKey {r : IdempotencyKey} (h : Later d d') (hr : d.idempotencyKeys.get? r.id = none) :
    Later d (d'.setKey r) where
  users := h.users
  accounts := h.accounts
  keys q hq hs := by
    have hne : q.id ≠ r.id := (Table.get?_eq_none _ _).mp hr q hq
    simp only [Database.setKey]
    exact Table.mem_modify.mpr ⟨q, h.keys q hq hs, by simp [hne]⟩
  transfers := h.transfers

end Later

/-- A write that undoes nothing and uses up the same identifiers everywhere. -/
structure Grows (w : Database → Database) : Prop where
  adds : Adds w
  later : ∀ d, Later d (w d)

namespace Grows

variable {w w' : Database → Database}

lemma id : Grows id := ⟨.id, .refl⟩

lemma comp (h' : Grows w') (h : Grows w) : Grows (w' ∘ w) :=
  ⟨h'.adds.comp h.adds, fun d => (h.later d).trans (h'.later (w d))⟩

end Grows

lemma grows_insertUser (r : User) : Grows fun d => d.insertUser r where
  adds := .of_insert fun d t i => d.has_insertUser t i r
  later _ := { Later.refl _ with users := fun _ hu => Table.mem_insert_of_mem hu }

lemma grows_insertAccount (r : Account) : Grows fun d => d.insertAccount r where
  adds := .of_insert fun d t i => d.has_insertAccount t i r
  later _ := { Later.refl _ with
    accounts := fun a ha => ⟨a, Table.mem_insert_of_mem ha, rfl, rfl, rfl⟩ }

lemma grows_insertKey (r : IdempotencyKey) : Grows fun d => d.insertKey r where
  adds := .of_insert fun d t i => d.has_insertKey t i r
  later _ := { Later.refl _ with keys := fun _ hk _ => Table.mem_insert_of_mem hk }

lemma grows_insertRequest (r : MoneyRequest) : Grows fun d => d.insertRequest r :=
  ⟨.of_insert fun d t i => d.has_insertRequest t i r, fun _ => .of_same rfl rfl rfl rfl⟩

lemma grows_insertSplit (r : BillSplit) : Grows fun d => d.insertSplit r :=
  ⟨.of_insert fun d t i => d.has_insertSplit t i r, fun _ => .of_same rfl rfl rfl rfl⟩

lemma grows_insertSchedule (r : Schedule) : Grows fun d => d.insertSchedule r :=
  ⟨.of_insert fun d t i => d.has_insertSchedule t i r, fun _ => .of_same rfl rfl rfl rfl⟩

lemma grows_insertOccurrence (r : Occurrence) : Grows fun d => d.insertOccurrence r :=
  ⟨.of_insert fun d t i => d.has_insertOccurrence t i r, fun _ => .of_same rfl rfl rfl rfl⟩

lemma grows_insertEvent (r : OutboxEvent) : Grows fun d => d.insertEvent r :=
  ⟨.of_insert fun d t i => d.has_insertEvent t i r, fun _ => .of_same rfl rfl rfl rfl⟩

lemma grows_insertAudit (r : AuditLog) : Grows fun d => d.insertAudit r :=
  ⟨.of_insert fun d t i => d.has_insertAudit t i r, fun _ => .of_same rfl rfl rfl rfl⟩

lemma grows_insertToken (r : RefreshToken) : Grows fun d => d.insertToken r :=
  ⟨.of_insert fun d t i => d.has_insertToken t i r, fun _ => .of_same rfl rfl rfl rfl⟩

lemma grows_insertTransfer (r : Transfer) (a b : LedgerEntry) :
    Grows fun d => d.insertTransfer r a b where
  adds t i := by
    by_cases hc : (t = .transfers ∧ r.id = i) ∨ (t = .ledgerEntries ∧ (a.id = i ∨ b.id = i))
    · refine .inr fun d => ?_
      rcases hc with hc | hc <;> simp [hc]
    · refine .inl fun d => ?_
      rw [not_or] at hc
      simp [hc]
  later _ := { Later.refl _ with
    transfers := fun t ht => ⟨t, Table.mem_insert_of_mem ht, rfl⟩ }

lemma grows_setAccount (r : Account) : Grows fun d => d.setAccount r where
  adds := .of_same fun d t i => d.has_setAccount t i r
  later d := { Later.refl d with
    accounts := fun a ha => by
      simp only [Database.setAccount]
      refine ⟨_, Table.mem_modify.mpr ⟨a, ha, rfl⟩, ?_⟩
      split <;> exact ⟨rfl, rfl, rfl⟩ }

lemma grows_setTransfer (r : Transfer) : Grows fun d => d.setTransfer r where
  adds := .of_same fun d t i => d.has_setTransfer t i r
  later d := { Later.refl d with
    transfers := fun t ht => by
      simp only [Database.setTransfer]
      refine ⟨_, Table.mem_modify.mpr ⟨t, ht, rfl⟩, ?_⟩
      split <;> rfl }

lemma grows_setRequest (r : MoneyRequest) : Grows fun d => d.setRequest r :=
  ⟨.of_same fun d t i => d.has_setRequest t i r, fun _ => .of_same rfl rfl rfl rfl⟩

lemma grows_setSchedule (r : Schedule) : Grows fun d => d.setSchedule r :=
  ⟨.of_same fun d t i => d.has_setSchedule t i r, fun _ => .of_same rfl rfl rfl rfl⟩

lemma grows_setOccurrence (r : Occurrence) : Grows fun d => d.setOccurrence r :=
  ⟨.of_same fun d t i => d.has_setOccurrence t i r, fun _ => .of_same rfl rfl rfl rfl⟩

/-! ### Frames -/

variable {watched : Token → Prop} {may : ℕ → Database → Token → Prop} {held : List Token}

lemma framed_of {w : Database → Database} (h : ∀ l, l ∉ held → ∀ d, Agree l d (w d)) :
    (discipline watched may).Framed held w := fun l _ hl d => h l hl d

/-- The part of a frame about identifiers, for an insert. -/
lemma agree_fresh {w : Database → Database} {table : TableName} {id : ℕ}
    (hw : ∀ d t i, (w d).has t i = (d.has t i || decide (t = table ∧ id = i)))
    (hid : .fresh table id ∈ held) {t : TableName} {i : ℕ} (hl : Token.fresh t i ∉ held)
    (d : Database) : Agree (.fresh t i) d (w d) := by
  intro hn
  rw [hw, hn, Bool.false_or, decide_eq_false_iff_not]
  rintro ⟨rfl, rfl⟩
  exact hl hid

lemma framed_insertEvent {r : OutboxEvent} (hid : .fresh .outboxEvents r.id ∈ held) :
    (discipline watched may).Framed held fun d => d.insertEvent r := by
  refine framed_of fun l hl d => ?_
  cases l with
  | fresh t i => exact agree_fresh (fun d t i => d.has_insertEvent t i r) hid hl d
  | _ => exact .of_same (by simp [Token.Same, Database.insertEvent])

lemma framed_insertAudit {r : AuditLog} (hid : .fresh .auditLogs r.id ∈ held) :
    (discipline watched may).Framed held fun d => d.insertAudit r := by
  refine framed_of fun l hl d => ?_
  cases l with
  | fresh t i => exact agree_fresh (fun d t i => d.has_insertAudit t i r) hid hl d
  | _ => exact .of_same (by simp [Token.Same, Database.insertAudit])

lemma framed_insertToken {r : RefreshToken} (hid : .fresh .refreshTokens r.id ∈ held) :
    (discipline watched may).Framed held fun d => d.insertToken r := by
  refine framed_of fun l hl d => ?_
  cases l with
  | fresh t i => exact agree_fresh (fun d t i => d.has_insertToken t i r) hid hl d
  | _ => exact .of_same (by simp [Token.Same, Database.insertToken])

lemma framed_insertSplit {r : BillSplit} (hid : .fresh .billSplits r.id ∈ held) :
    (discipline watched may).Framed held fun d => d.insertSplit r := by
  refine framed_of fun l hl d => ?_
  cases l with
  | fresh t i => exact agree_fresh (fun d t i => d.has_insertSplit t i r) hid hl d
  | _ => exact .of_same (by simp [Token.Same, Database.insertSplit])

lemma framed_insertUser {r : User} (hid : .fresh .users r.id ∈ held)
    (hphone : .phone r.phone ∈ held) :
    (discipline watched may).Framed held fun d => d.insertUser r := by
  refine framed_of fun l hl d => ?_
  cases l with
  | fresh t i => exact agree_fresh (fun d t i => d.has_insertUser t i r) hid hl d
  | phone p =>
    intro hn
    refine Table.find?_insert_none hn ?_
    rw [decide_eq_false_iff_not]
    rintro rfl
    exact hl hphone
  | _ => exact .of_same (by simp [Token.Same, Database.insertUser])

lemma framed_insertAccount {r : Account} (hid : .fresh .accounts r.id ∈ held) :
    (discipline watched may).Framed held fun d => d.insertAccount r := by
  refine framed_of fun l hl d => ?_
  cases l with
  | fresh t i => exact agree_fresh (fun d t i => d.has_insertAccount t i r) hid hl d
  | account id => exact Table.keeps_insert
  | _ => exact .of_same (by simp [Token.Same, Database.insertAccount])

lemma framed_insertKey {r : IdempotencyKey} (hid : .fresh .idempotencyKeys r.id ∈ held)
    (hkey : .idempotencyKey r.userId r.key ∈ held) :
    (discipline watched may).Framed held fun d => d.insertKey r := by
  refine framed_of fun l hl d => ?_
  cases l with
  | fresh t i => exact agree_fresh (fun d t i => d.has_insertKey t i r) hid hl d
  | idempotencyKey u k =>
    intro hn
    refine Table.find?_insert_none hn ?_
    rw [decide_eq_false_iff_not]
    rintro ⟨rfl, rfl⟩
    exact hl hkey
  | _ => exact .of_same (by simp [Token.Same, Database.insertKey])

lemma framed_insertRequest {r : MoneyRequest} (hid : .fresh .moneyRequests r.id ∈ held) :
    (discipline watched may).Framed held fun d => d.insertRequest r := by
  refine framed_of fun l hl d => ?_
  cases l with
  | fresh t i => exact agree_fresh (fun d t i => d.has_insertRequest t i r) hid hl d
  | request id => exact Table.keeps_insert
  | _ => exact .of_same (by simp [Token.Same, Database.insertRequest])

lemma framed_insertSchedule {r : Schedule} (hid : .fresh .schedules r.id ∈ held) :
    (discipline watched may).Framed held fun d => d.insertSchedule r := by
  refine framed_of fun l hl d => ?_
  cases l with
  | fresh t i => exact agree_fresh (fun d t i => d.has_insertSchedule t i r) hid hl d
  | schedule id => exact ⟨Table.keeps_insert, fun _ => rfl⟩
  | _ => exact .of_same (by simp [Token.Same, Database.insertSchedule])

lemma framed_insertOccurrence {r : Occurrence} (hid : .fresh .occurrences r.id ∈ held)
    (hs : .schedule r.scheduleId ∈ held) :
    (discipline watched may).Framed held fun d => d.insertOccurrence r := by
  refine framed_of fun l hl d => ?_
  cases l with
  | fresh t i => exact agree_fresh (fun d t i => d.has_insertOccurrence t i r) hid hl d
  | schedule id =>
    refine ⟨Table.Keeps.refl, fun due => Table.find?_insert_of_not ?_⟩
    rw [decide_eq_false_iff_not]
    intro hk
    cases congrArg Prod.fst hk
    exact hl hs
  | _ => exact .of_same (by simp [Token.Same, Database.insertOccurrence])

lemma framed_setAccount {r : Account} (ha : .account r.id ∈ held) :
    (discipline watched may).Framed held fun d => d.setAccount r := by
  refine framed_of fun l hl d => ?_
  cases l with
  | account id =>
    simp only [Agree, Database.setAccount]
    exact Table.keeps_modify fun he => hl (he ▸ ha)
  | fresh t i => exact .of_same (d.has_setAccount t i r)
  | _ => exact .of_same (by simp [Token.Same, Database.setAccount])

lemma framed_setKey {r : IdempotencyKey} :
    (discipline watched may).Framed held fun d => d.setKey r := by
  refine framed_of fun l hl d => ?_
  cases l with
  | idempotencyKey u k =>
    simp only [Agree, Database.findKey, Database.setKey]
    exact fun hn => Table.find?_modify_none hn fun _ => rfl
  | fresh t i => exact .of_same (d.has_setKey t i r)
  | _ => exact .of_same (by simp [Token.Same, Database.setKey])

lemma framed_setRequest {r : MoneyRequest} (hr : .request r.id ∈ held) :
    (discipline watched may).Framed held fun d => d.setRequest r := by
  refine framed_of fun l hl d => ?_
  cases l with
  | request id =>
    simp only [Agree, Database.setRequest]
    exact Table.keeps_modify fun he => hl (he ▸ hr)
  | fresh t i => exact .of_same (d.has_setRequest t i r)
  | _ => exact .of_same (by simp [Token.Same, Database.setRequest])

lemma framed_setSchedule {r : Schedule} (hr : .schedule r.id ∈ held) :
    (discipline watched may).Framed held fun d => d.setSchedule r := by
  refine framed_of fun l hl d => ?_
  cases l with
  | schedule id =>
    simp only [Agree, Database.setSchedule]
    exact ⟨Table.keeps_modify fun he => hl (he ▸ hr), fun _ => rfl⟩
  | fresh t i => exact .of_same (d.has_setSchedule t i r)
  | _ => exact .of_same (by simp [Token.Same, Database.setSchedule])

lemma occurrenceAt_setOccurrence_of_ne (d : Database) (r : Occurrence) {key : OccurrenceKey}
    (h : key ≠ r.key) : (d.setOccurrence r).occurrenceAt key = d.occurrenceAt key := by
  simp only [Database.occurrenceAt, Database.setOccurrence]
  refine Table.find?_modify_of_not (fun o => ?_) (fun o ho => ?_)
  · split <;> rfl
  · rw [decide_eq_true_eq] at ho
    rw [if_neg (ho ▸ h)]

lemma framed_setOccurrence {r : Occurrence} (hs : .schedule r.scheduleId ∈ held) :
    (discipline watched may).Framed held fun d => d.setOccurrence r := by
  refine framed_of fun l hl d => ?_
  cases l with
  | schedule id =>
    refine ⟨Table.Keeps.refl, fun due => occurrenceAt_setOccurrence_of_ne d r ?_⟩
    intro hk
    cases congrArg Prod.fst hk
    exact hl hs
  | fresh t i => exact .of_same (d.has_setOccurrence t i r)
  | _ => exact .of_same (by simp [Token.Same, Database.setOccurrence])

/-! ### Frames of transfers -/

/-- Does a transfer of this type use up the daily limit? -/
def TransferType.isOutbound : TransferType → Prop
  | .p2p => True
  | .requestSettlement => True
  | .scheduled => True
  | _ => False

/-- Does a transfer of this type count against the velocity limit? -/
def TransferType.isCounted : TransferType → Prop
  | .p2p => True
  | .requestSettlement => True
  | _ => False

lemma isOutbound_type {accountId : Uuid} {since : ℤ} {t : Transfer}
    (h : Database.isOutbound accountId since t = true) :
    t.fromAccountId = accountId ∧ t.type.isOutbound := by
  simp only [Database.isOutbound, decide_eq_true_eq] at h
  refine ⟨h.1, ?_⟩
  rcases h.2.1 with ht | ht | ht <;> simp [ht, TransferType.isOutbound]

lemma isCounted_type {accountId : Uuid} {since : ℤ} {t : Transfer}
    (h : Database.isCounted accountId since t = true) :
    t.fromAccountId = accountId ∧ t.type.isCounted := by
  simp only [Database.isCounted, decide_eq_true_eq] at h
  refine ⟨h.1, ?_⟩
  rcases h.2.1 with ht | ht <;> simp [ht, TransferType.isCounted]

lemma framed_insertTransfer {t : Transfer} {a b : LedgerEntry} (hamount : 0 ≤ t.amountMinor)
    (hid : .fresh .transfers t.id ∈ held) (ha : .fresh .ledgerEntries a.id ∈ held)
    (hb : .fresh .ledgerEntries b.id ∈ held)
    (hspend : t.type.isOutbound → .spend t.fromAccountId ∈ held)
    (hpace : t.type.isCounted → .pace t.fromAccountId ∈ held) :
    (discipline watched may).Framed held fun d => d.insertTransfer t a b := by
  refine framed_of fun l hl d => ?_
  cases l with
  | fresh tn i =>
    intro hn
    rw [d.has_insertTransfer tn i t a b, hn, Bool.false_or, Bool.or_eq_false_iff,
      decide_eq_false_iff_not, decide_eq_false_iff_not]
    refine ⟨?_, ?_⟩
    · rintro ⟨rfl, rfl⟩
      exact hl hid
    · rintro ⟨rfl, rfl | rfl⟩
      · exact hl ha
      · exact hl hb
  | transfer id => exact Table.keeps_insert
  | spend id =>
    intro hu
    refine ⟨fun x hx => ?_, fun since => le_of_eq ?_⟩
    · rcases Table.mem_insert_or hx with hx | rfl
      · exact hu x hx
      · exact hamount
    · have hnot : Database.isOutbound id since t = false := by
        rw [Bool.eq_false_iff]
        intro h
        obtain ⟨rfl, ht⟩ := isOutbound_type h
        exact hl (hspend ht)
      simp only [Database.outboundTotal, Database.insertTransfer, Table.filter_insert_of_not hnot]
  | pace id =>
    refine fun since => le_of_eq ?_
    have hnot : Database.isCounted id since t = false := by
      rw [Bool.eq_false_iff]
      intro h
      obtain ⟨rfl, ht⟩ := isCounted_type h
      exact hl (hpace ht)
    simp only [Database.countedTransfers, Database.insertTransfer, Table.filter_insert_of_not hnot]
  | _ => exact .of_same (by simp [Token.Same, Database.insertTransfer])

/-- Reversing a transfer only lowers the totals. -/
lemma framed_setTransfer {t : Transfer} (ht : .transfer t.id ∈ held)
    (hs : t.status = .reversed) :
    (discipline watched may).Framed held fun d => d.setTransfer t := by
  refine framed_of fun l hl d => ?_
  cases l with
  | transfer id =>
    simp only [Agree, Database.setTransfer]
    exact Table.keeps_modify fun he => hl (he ▸ ht)
  | fresh tn i => exact .of_same (d.has_setTransfer tn i t)
  | spend id =>
    intro hu
    refine ⟨fun x hx => ?_, fun since => ?_⟩
    · simp only [Database.setTransfer] at hx
      obtain ⟨y, hy, rfl⟩ := Table.mem_modify.mp hx
      split
      · exact hu y hy
      · exact hu y hy
    · simp only [Database.outboundTotal, Database.setTransfer]
      refine Table.sum_filter_modify_le hu (fun x => ?_) (fun _ => rfl)
      simp [Database.isOutbound, hs]
  | pace id =>
    simp only [Agree, Database.countedTransfers, Database.setTransfer]
    exact fun since => le_of_eq (Table.length_filter_modify fun _ => rfl)
  | _ => exact .of_same (by simp [Token.Same, Database.setTransfer])

end TakaFlow
