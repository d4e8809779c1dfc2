import TakaFlow.Rules

/-!
# Movements of money

What `postDoubleEntry` writes when it returns, as one value that carries the checks made under the
locks of both accounts.
-/

namespace TakaFlow

open Txn

/-- Both accounts as they were locked, the transfer and the identifiers of its entries. -/
structure Movement where
  sender : Account
  receiver : Account
  transfer : Transfer
  debitId : ℕ
  creditId : ℕ
  source : transfer.fromAccountId = sender.id
  destination : transfer.toAccountId = receiver.id
  apart : sender.id ≠ receiver.id
  positive : 0 < transfer.amountMinor
  active : sender.status = .active
  notClosed : receiver.status ≠ .closed
  funds : sender.type = .system ∨ transfer.amountMinor ≤ sender.balanceMinor
  standing : transfer.status = .completed
  serials : debitId ≠ creditId

namespace Movement

variable (m : Movement) {d : Database}

def debit : LedgerEntry :=
  m.transfer.debit m.debitId (m.sender.balanceMinor - m.transfer.amountMinor)

def credit : LedgerEntry :=
  m.transfer.credit m.creditId (m.receiver.balanceMinor + m.transfer.amountMinor)

/-- Its writes: two balances, the transfer and two entries. -/
def apply (d : Database) : Database :=
  ((d.setAccount (m.sender.addBalance (-m.transfer.amountMinor))).setAccount
    (m.receiver.addBalance m.transfer.amountMinor)).insertTransfer m.transfer m.debit m.credit

/-- Both accounts are as they were locked and the identifiers are not in use. -/
structure Enabled (d : Database) : Prop where
  sender : d.accounts.get? m.sender.id = some m.sender
  receiver : d.accounts.get? m.receiver.id = some m.receiver
  transfer : d.transfers.has m.transfer.id = false
  debit : d.ledgerEntries.has m.debitId = false
  credit : d.ledgerEntries.has m.creditId = false

/-- The movement is the one the command asks for, in a transaction that began at `now`. -/
structure Executes (command : PostDoubleEntryCommand) (now : Timestamp) : Prop where
  sender : m.sender.id = command.fromAccountId
  receiver : m.receiver.id = command.toAccountId
  amountMinor : m.transfer.amountMinor = command.amountMinor
  type : m.transfer.type = command.type
  note : m.transfer.note = command.note
  idempotencyKeyId : m.transfer.idempotencyKeyId = command.idempotencyKeyId
  reversalOf : m.transfer.reversalOf = command.reversalOf
  createdAt : m.transfer.createdAt = now
  reference : ∃ t bytes, now ≤ t ∧ m.transfer.reference = generateReference (toMillis t) bytes

def posted : PostedTransfer :=
  { id := m.transfer.id
    reference := m.transfer.reference
    fromAccountId := m.sender.id
    toAccountId := m.receiver.id
    amountMinor := m.transfer.amountMinor
    type := m.transfer.type
    note := m.transfer.note
    createdAt := m.transfer.createdAt
    senderBalanceAfter := m.sender.balanceMinor - m.transfer.amountMinor
    receiverBalanceAfter := m.receiver.balanceMinor + m.transfer.amountMinor }

/-- The balances that are written to the cache after the commit. -/
def hook : Hook :=
  .writeBalances
    [(m.sender.id, m.sender.balanceMinor - m.transfer.amountMinor, m.sender.version + 1),
      (m.receiver.id, m.receiver.balanceMinor + m.transfer.amountMinor, m.receiver.version + 1)]

lemma grows : Grows m.apply :=
  (grows_insertTransfer _ _ _).comp ((grows_setAccount _).comp (grows_setAccount _))

end Movement

/-! ### What hooks publish -/

/-- Every balance the hooks publish is that of its account, at its version. -/
def Published (hs : List Hook) (d : Database) : Prop :=
  ∀ values, .writeBalances values ∈ hs → ∀ value ∈ values,
    ∃ a, d.accounts.get? value.1 = some a ∧ a.balanceMinor = value.2.1 ∧ a.version = value.2.2

/-- The second hooks publish no other balances than the first. -/
def PublishOnly (hs hs' : List Hook) : Prop :=
  ∀ values, .writeBalances values ∈ hs' → .writeBalances values ∈ hs

namespace PublishOnly

variable {hs hs' hs'' : List Hook}

lemma refl (hs : List Hook) : PublishOnly hs hs := fun _ h => h

lemma append (h : PublishOnly hs hs') (hother : ∀ x ∈ hs'', ∀ values, x ≠ .writeBalances values) :
    PublishOnly hs (hs' ++ hs'') := by
  intro values hm
  rcases List.mem_append.mp hm with hm | hm
  · exact h values hm
  · exact absurd rfl (hother _ hm values)

lemma prepend (h : PublishOnly hs hs') (hs₀ : List Hook) :
    PublishOnly (hs₀ ++ hs) (hs₀ ++ hs') := by
  intro values hm
  rcases List.mem_append.mp hm with hm | hm
  · exact List.mem_append_left _ hm
  · exact List.mem_append_right _ (h values hm)

end PublishOnly

namespace Published

variable {hs hs' : List Hook} {d d' : Database}

lemma nil (d : Database) : Published [] d := nofun

lemma only (h : Published hs d) (hh : PublishOnly hs hs') : Published hs' d :=
  fun values hm => h values (hh values hm)

lemma congr (h : Published hs d) (ha : d'.accounts = d.accounts) : Published hs d' := by
  intro values hm value hv
  rw [ha]
  exact h values hm value hv

end Published

namespace Account

variable (a : Account) (delta : ℤ)

@[simp] lemma addBalance_id : (a.addBalance delta).id = a.id := rfl
@[simp] lemma addBalance_type : (a.addBalance delta).type = a.type := rfl
@[simp] lemma addBalance_status : (a.addBalance delta).status = a.status := rfl
@[simp] lemma addBalance_balanceMinor :
    (a.addBalance delta).balanceMinor = a.balanceMinor + delta := rfl

end Account

namespace Database

/-- The row an `UPDATE` of an account leaves. -/
lemma account_setAccount (d : Database) (r : Account) (id : Uuid) :
    (d.setAccount r).accounts.get? id = if id = r.id then (d.accounts.get? id).map fun a =>
        { a with status := r.status, balanceMinor := r.balanceMinor, version := r.version }
      else d.accounts.get? id := by
  unfold setAccount
  by_cases h : id = r.id
  · rw [if_pos h, h, Table.get?_modify_self]
  · rw [if_neg h, Table.get?_modify_of_ne h]

end Database

namespace Movement

variable {m : Movement} {d : Database}

/-- The rows of both accounts afterwards. -/
lemma get?_sender (h : m.Enabled d) : (m.apply d).accounts.get? m.sender.id =
    some (m.sender.addBalance (-m.transfer.amountMinor)) := by
  change ((d.setAccount _).setAccount (m.receiver.addBalance _)).accounts.get? m.sender.id = _
  rw [Database.account_setAccount, Account.addBalance_id, if_neg m.apart,
    Database.account_setAccount, Account.addBalance_id, if_pos rfl, h.sender]
  rfl

lemma get?_receiver (h : m.Enabled d) : (m.apply d).accounts.get? m.receiver.id =
    some (m.receiver.addBalance m.transfer.amountMinor) := by
  change ((d.setAccount _).setAccount (m.receiver.addBalance _)).accounts.get? m.receiver.id = _
  rw [Database.account_setAccount, Account.addBalance_id, if_pos rfl,
    Database.account_setAccount, Account.addBalance_id, if_neg m.apart.symm, h.receiver]
  rfl

/-- A movement publishes what it writes. -/
lemma published (h : m.Enabled d) : Published [m.hook] (m.apply d) := by
  intro values hm value hv
  cases List.mem_singleton.mp hm
  rcases List.mem_cons.mp hv with rfl | hv
  · exact ⟨_, get?_sender h, (sub_eq_add_neg _ _).symm, rfl⟩
  · cases List.mem_singleton.mp hv
    exact ⟨_, get?_receiver h, rfl, rfl⟩

end Movement

/-! ### The rule of `postDoubleEntry` -/

variable {watched : Token → Prop} {may : ℕ → Database → Token → Prop} {held : List Token}
  {v : Database → Database}

/-- Locked account rows stay as they are in the view of the session. -/
def Shields (watched : Token → Prop) (may : ℕ → Database → Token → Prop) (held : List Token)
    (v : Database → Database) : Prop :=
  ∀ id a, (discipline watched may).Stable (.account id :: held)
    fun d => (v d).accounts.get? id = some a

/-- A session that has not written to accounts. -/
lemma shields_of_same (h : ∀ d, (v d).accounts = d.accounts) : Shields watched may held v := by
  intro id a
  refine stable_agree (l := .account id) (by simp) rfl fun d d' ha hd => ?_
  rw [h] at hd ⊢
  exact ha a hd

lemma Shields.anti {held' : List Token} (hsub : held ⊆ held') (h : Shields watched may held v) :
    Shields watched may held' v :=
  fun id a => (h id a).anti (List.cons_subset_cons _ hsub)

section rules

variable {c₀ c : Ctx Database Token Hook} {P₀ P : Database → Prop} {d : Database}
  {l : List Token} {w : Database → Database} {hs : List Hook}
  {R : Error → Ctx Database Token Hook → Database → Prop}

lemma wp_lockAccount {id : Uuid}
    {Q : Option Account → Ctx Database Token Hook → Database → Prop}
    (hR : Throws R c₀ P₀) (h : Doing watched may c₀ P₀ c d l w hs P)
    (hwait : MayWait (l ++ c₀.tokens) (.account id))
    (hview : Shields watched may (l ++ c₀.tokens) fun d => w (c₀.write d))
    (hnone : ∀ d, Doing watched may c₀ P₀ c d l w hs P → Q none c d)
    (hsome : ∀ c d a, Doing watched may c₀ P₀ c d (.account id :: l) w hs
      (fun d => P d ∧ (w (c₀.write d)).accounts.get? id = some a) → Q (some a) c d) :
    wp (discipline watched may) (lockAccount id) Q R c d := by
  refine wp_lock hR h (fun d r _ hf => .inr ?_) (fun d hd _ => hnone d hd)
    fun c d a hd hf => ?_
  · rwa [Table.key_of_get? hf]
  · rw [Table.key_of_get? hf] at hd
    exact hsome c d a (hd.learn (hview id a) hf)

/-- Both rows, and that neither changes any more. -/
lemma wp_lockAccountPair {from_ to_ : Uuid}
    {Q : LockedPair → Ctx Database Token Hook → Database → Prop}
    (hR : Throws R c₀ P₀) (h : Doing watched may c₀ P₀ c d l w hs P)
    (hbelow : Below 4 (l ++ c₀.tokens))
    (hview : Shields watched may (l ++ c₀.tokens) fun d => w (c₀.write d))
    (hk : ∀ c d pair, from_ ≠ to_ →
      Doing watched may c₀ P₀ c d (.account (max from_ to_) :: .account (min from_ to_) :: l) w hs
        (fun d => P d ∧ (w (c₀.write d)).accounts.get? from_ = some pair.sender ∧
          (w (c₀.write d)).accounts.get? to_ = some pair.receiver) → Q pair c d) :
    wp (discipline watched may) (lockAccountPair from_ to_) Q R c d := by
  simp only [lockAccountPair, Program.bind_eq, Program.pure_eq, wp_bind]
  refine wp_require hR h fun hne => ?_
  have hlt : min from_ to_ < max from_ to_ := min_lt_max.mpr hne
  refine wp_lockAccount hR h ((hbelow.mono (Nat.le_add_right 4 _)).mayWait rfl) hview
    (fun d hd => wp_orFail hR hd (by rintro _ ⟨⟩)) fun c d first hd => ?_
  refine wp_orFail hR hd fun _ he => ?_
  cases he
  have hbelow' : Below (4 + max from_ to_) ((.account (min from_ to_) :: l) ++ c₀.tokens) := by
    refine below_cons.mpr ⟨fun m hm => ?_, hbelow.mono (Nat.le_add_right 4 _)⟩
    cases hm
    exact Nat.add_lt_add_left hlt 4
  refine wp_lockAccount hR hd (hbelow'.mayWait rfl) (hview.anti (by simp))
    (fun d hd => wp_orFail hR hd (by rintro _ ⟨⟩)) fun c d second hd => ?_
  refine wp_orFail hR hd fun _ he => ?_
  cases he
  rw [wp_ret]
  -- The rows come in the order of their identifiers.
  rcases Nat.lt_or_gt_of_ne hne with hlt | hgt
  · simp only [min_eq_left hlt.le, max_eq_right hlt.le, if_true] at hd ⊢
    refine hk c d ⟨first, second⟩ hne ?_
    simpa only [min_eq_left hlt.le, max_eq_right hlt.le, and_assoc] using hd
  · have hif : (to_ = from_) = False := by simpa using hgt.ne
    simp only [min_eq_right hgt.le, max_eq_left hgt.le, hif, if_false] at hd ⊢
    refine hk c d ⟨second, first⟩ hne ?_
    simpa only [min_eq_right hgt.le, max_eq_left hgt.le, and_assoc,
      and_comm (a := (w (c₀.write _)).accounts.get? to_ = some first)] using hd

/-- A balance is changed relative to the locked row. -/
lemma wp_updateBalance {a : Account} {delta : ℤ}
    {Q : Option Account → Ctx Database Token Hook → Database → Prop}
    (hR : Throws R c₀ P₀) (h : Doing watched may c₀ P₀ c d l w hs P)
    (hP : ∀ d, P d → (w (c₀.write d)).accounts.get? a.id = some a) (hl : .account a.id ∈ l)
    (hk : ∀ c d, Doing watched may c₀ P₀ c d (.account a.id :: l)
      ((fun d => d.setAccount (a.addBalance delta)) ∘ w) hs P → Q (some (a.addBalance delta)) c d) :
    wp (discipline watched may) (query (updateBalance a.id delta)) Q R c d := by
  refine wp_updateRow hR h (fun d r hp hf => ?_) (fun d r hp hf => ?_) (fun r => grows_setAccount r)
    (fun d hd hf => ?_) fun c d r hd hf => ?_
  · rw [hP d hp] at hf
    cases hf
    exact .inl ⟨List.mem_append_left _ hl, rfl⟩
  · exact framed_setAccount List.mem_cons_self
  · rw [hP d hd.holds] at hf
    cases hf
  · rw [hP d hd.holds] at hf
    cases hf
    exact hk c d hd

/-- Both balances; a refusal by the database is translated. -/
lemma wp_updateBalances {pair : LockedPair} {amountMinor : ℤ}
    {Q : Unit → Ctx Database Token Hook → Database → Prop}
    (hR : Throws R c₀ P₀) (h : Doing watched may c₀ P₀ c d l w hs P)
    (hne : pair.sender.id ≠ pair.receiver.id)
    (hs_ : ∀ d, P d → (w (c₀.write d)).accounts.get? pair.sender.id = some pair.sender)
    (hr_ : ∀ d, P d → (w (c₀.write d)).accounts.get? pair.receiver.id = some pair.receiver)
    (hls : .account pair.sender.id ∈ l) (hlr : .account pair.receiver.id ∈ l)
    (hk : ∀ c d, Doing watched may c₀ P₀ c d
      (.account pair.receiver.id :: .account pair.sender.id :: l)
      ((fun d => d.setAccount (pair.receiver.addBalance amountMinor)) ∘
        (fun d => d.setAccount (pair.sender.addBalance (-amountMinor))) ∘ w) hs P → Q () c d) :
    wp (discipline watched may) (updateBalances pair amountMinor) Q R c d := by
  simp only [updateBalances, wp_tryCatch, wp_throw, Program.bind_eq, Program.pure_eq, wp_bind]
  have hR' := hR.map fun e => translateCheck e pair.sender.balanceMinor amountMinor
  refine wp_updateBalance hR' h hs_ hls fun c d hd => ?_
  refine wp_updateBalance hR' hd (fun d hp => ?_) (List.mem_cons_of_mem _ hlr)
    fun c d hd => hk c d hd
  simp only [Function.comp_apply, Database.setAccount, Account.addBalance]
  rw [Table.get?_modify_of_ne hne.symm]
  exact hr_ d hp

/-- The transfer and its entries under identifiers that are not in use. -/
lemma wp_insertTransferRow {n : NewTransfer}
    {Q : Transfer → Ctx Database Token Hook → Database → Prop}
    (hamount : 0 ≤ n.amountMinor)
    (hspend : n.type.isOutbound → .spend n.fromAccountId ∈ l ++ c₀.tokens)
    (hpace : n.type = .p2p → .pace n.fromAccountId ∈ l ++ c₀.tokens)
    (hR : Throws R c₀ P₀) (h : Doing watched may c₀ P₀ c d l w hs P)
    (hk : ∀ c d x l', x.serial ≠ x.nextSerial →
      Doing watched may c₀ P₀ c d (l' ++ l)
        ((fun d => d.insertTransfer (n.row c₀.now x)
          ((n.row c₀.now x).debit x.serial n.senderBalanceAfter)
          ((n.row c₀.now x).credit x.nextSerial n.receiverBalanceAfter)) ∘ w) hs
        (fun d => P d ∧ ((w (c₀.write d)).transfers.has x.uuid = false ∧
          (w (c₀.write d)).ledgerEntries.has x.serial = false ∧
          (w (c₀.write d)).ledgerEntries.has x.nextSerial = false) ∧
          (n.type = .requestSettlement → Settles watched may c₀.now n.fromAccountId d)) →
      Q (n.row c₀.now x) c d) :
    wp (discipline watched may) (query (insertTransferRow n)) Q R c d := by
  refine wp_insert (fun m hm => ?_) hR h.toProgress (fun x => ?_) fun c d x hp hu hmay => ?_
  · split at hm
    · rcases List.mem_cons.mp hm with rfl | hm
      · exact Bool.false_ne_true
      · cases List.mem_singleton.mp hm
        exact Bool.false_ne_true
    · cases hm
  · refine framed_insertTransfer hamount (by simp [NewTransfer.row])
      (by simp [Transfer.debit]) (by simp [Transfer.credit]) (fun ht => ?_) (fun ht => ?_)
    · exact List.mem_append_right _ (hspend ht)
    · by_cases hset : n.type = .requestSettlement
      · simp [hset, NewTransfer.row]
      · refine List.mem_append_right _ (hpace ?_)
        change n.type.isCounted at ht
        cases htype : n.type <;> simp_all [TransferType.isCounted]
  · simp only [Bool.and_eq_true, Bool.not_eq_true', decide_eq_true_eq] at hu
    obtain ⟨⟨⟨ht, hdeb⟩, hcred⟩, hserial⟩ := hu
    have hd : Doing watched may c₀ P₀ c d _ _ hs P :=
      ⟨hp, h.began, (grows_insertTransfer _ _ _).comp h.grows⟩
    have hadds := (h.grows.comp h.began).adds
    have h₁ := hd.learn (stable_unused hadds (t := .transfers) (i := x.uuid) (by simp)) ht
    have h₂ := h₁.learn (stable_unused hadds (t := .ledgerEntries) (i := x.serial) (by simp)) hdeb
    have h₃ := h₂.learn
      (stable_unused hadds (t := .ledgerEntries) (i := x.nextSerial) (by simp)) hcred
    have h₄ := h₃.learn (F := fun d => n.type = .requestSettlement →
      Settles watched may c₀.now n.fromAccountId d) ?_ ?_
    · refine hk c d x _ hserial (h₄.congr fun d => ?_)
      simp only [and_assoc]
      rfl
    · by_cases hset : n.type = .requestSettlement
      · exact Discipline.Stable.imp _ (stable_settles (by simp [hset]))
      · exact fun _ _ _ _ hn => absurd hn hset
    · intro hset _
      refine ⟨d, hmay _ ?_, fun _ => Nat.le_refl _⟩
      simp [hset]

/-- What `postDoubleEntry` does when it returns. -/
lemma wp_postDoubleEntry {command : PostDoubleEntryCommand}
    {Q : PostedTransfer → Ctx Database Token Hook → Database → Prop}
    (hR : Throws R c₀ P₀) (h : Doing watched may c₀ P₀ c d l w hs P)
    (hbelow : Below 4 (l ++ c₀.tokens))
    (hview : Shields watched may (l ++ c₀.tokens) fun d => w (c₀.write d))
    (hspend : command.type.isOutbound → .spend command.fromAccountId ∈ l ++ c₀.tokens)
    (hpace : command.type = .p2p → .pace command.fromAccountId ∈ l ++ c₀.tokens)
    (hk : ∀ c d (m : Movement) l', m.Executes command c₀.now →
      Doing watched may c₀ P₀ c d (l' ++ l) (m.apply ∘ w) (hs ++ [m.hook])
        (fun d => P d ∧ m.Enabled (w (c₀.write d)) ∧ (command.type = .requestSettlement →
          Settles watched may c₀.now command.fromAccountId d)) →
      Q m.posted c d) :
    wp (discipline watched may) (postDoubleEntry command) Q R c d := by
  simp only [postDoubleEntry, Program.bind_eq, wp_bind]
  refine wp_require hR h fun hpos => ?_
  refine wp_lockAccountPair hR h hbelow hview fun c d pair hne hd => ?_
  have hsid : pair.sender.id = command.fromAccountId := Table.key_of_get? hd.holds.2.1
  have hrid : pair.receiver.id = command.toAccountId := Table.key_of_get? hd.holds.2.2
  refine wp_require hR hd fun hactive => ?_
  refine wp_require hR hd fun hclosed => ?_
  refine wp_require hR hd fun hfunds => ?_
  have hlocks : ∀ id, id = command.fromAccountId ∨ id = command.toAccountId →
      Token.account id ∈ .account (max command.fromAccountId command.toAccountId) ::
        .account (min command.fromAccountId command.toAccountId) :: l := by
    intro id hid
    rcases Nat.lt_or_gt_of_ne hne with hlt | hgt
    · rw [max_eq_right hlt.le, min_eq_left hlt.le]
      rcases hid with rfl | rfl <;> simp
    · rw [max_eq_left hgt.le, min_eq_right hgt.le]
      rcases hid with rfl | rfl <;> simp
  have hne' : pair.sender.id ≠ pair.receiver.id := by rwa [hsid, hrid]
  refine wp_updateBalances hR hd hne' (fun d hp => hsid ▸ hp.2.1) (fun d hp => hrid ▸ hp.2.2)
    (hlocks _ (.inl hsid)) (hlocks _ (.inr hrid)) fun c d hd => ?_
  refine wp_dateNow hd fun t x ht => ?_
  have hsub : l ++ c₀.tokens ⊆ (.account pair.receiver.id :: .account pair.sender.id ::
      .account (max command.fromAccountId command.toAccountId) ::
        .account (min command.fromAccountId command.toAccountId) :: l) ++ c₀.tokens := by
    intro y hy
    simp only [List.cons_append, List.mem_cons]
    exact .inr (.inr (.inr (.inr hy)))
  refine wp_insertTransferRow (n := command.newTransfer pair _) hpos.le
    (fun ht => hsid ▸ hsub (hspend ht)) (fun ht => hsid ▸ hsub (hpace ht)) hR hd
    fun c d y l' hserial hd => ?_
  rw [wp_afterCommit, wp_ret]
  let m : Movement :=
    { sender := pair.sender
      receiver := pair.receiver
      transfer := (command.newTransfer pair (generateReference (toMillis t) x.bytes)).row c₀.now y
      debitId := y.serial
      creditId := y.nextSerial
      source := rfl
      destination := rfl
      apart := hne'
      positive := hpos
      active := hactive
      notClosed := hclosed
      funds := hfunds
      standing := rfl
      serials := hserial }
  refine hk _ d m (l' ++ [.account pair.receiver.id, .account pair.sender.id,
    .account (max command.fromAccountId command.toAccountId),
    .account (min command.fromAccountId command.toAccountId)])
    ⟨hsid, hrid, rfl, rfl, rfl, rfl, rfl, rfl, t, x.bytes, ht, rfl⟩ ?_
  simp only [List.append_assoc, List.cons_append, List.nil_append]
  refine (hd.hook m.hook).congr fun d => ⟨?_, ?_⟩
  · rintro ⟨⟨hp, hs, hr⟩, ⟨ht, hdeb, hcred⟩, hset⟩
    refine ⟨hp, ⟨?_, ?_, ht, hdeb, hcred⟩, fun h => hsid ▸ hset h⟩
    · exact (congrArg _ hsid).trans hs
    · exact (congrArg _ hrid).trans hr
  · rintro ⟨hp, ⟨hs, hr, ht, hdeb, hcred⟩, hset⟩
    refine ⟨⟨hp, ?_, ?_⟩, ⟨ht, hdeb, hcred⟩, fun h => ?_⟩
    · exact (congrArg _ hsid.symm).trans hs
    · exact (congrArg _ hrid.symm).trans hr
    · change Settles watched may c₀.now pair.sender.id d
      exact hsid.symm ▸ hset h

end rules

end TakaFlow
