import TakaFlow.Spec.Bank

/-!
# A bank behind an interface

The backend refines a bank that serves orders one at a time, in the order of the commits. What users
hold together is what their registrations have minted.
-/

namespace TakaFlow

open Txn Banking

/-! ### Holders -/

/-- What of an account never changes. -/
structure Holder where
  id : Uuid
  userId : Option Uuid
  type : AccountType
  deriving DecidableEq

def Account.holder (a : Account) : Holder := { id := a.id, userId := a.userId, type := a.type }

def Database.holders (d : Database) : List Holder := d.accounts.rows.map Account.holder

/-- This account belongs to a user. -/
def Database.Personal (d : Database) (accountId : Uuid) : Prop :=
  ∃ userId, ⟨accountId, some userId, .user⟩ ∈ d.holders

/-- Who has which account, and between whom money moves. -/
structure Holders (d : Database) : Prop where
  kinds : ∀ h ∈ d.holders, h.type = .user ↔ h.userId.isSome = true
  stripes : ∀ id ∈ treasuryAccountIds, ⟨id, none, .system⟩ ∈ d.holders
  users : d.holders.filterMap Holder.userId = d.users.rows.map User.id
  phones : (d.users.rows.map User.phone).Nodup
  people : ∀ t ∈ d.transfers, t.type ≠ .mint →
    d.Personal t.fromAccountId ∧ d.Personal t.toAccountId

section

variable {P : Platform} {x y z d : Database} {m : Movement} {a : Account}

@[simp] lemma Account.holder_addBalance (a : Account) (n : ℤ) :
    (a.addBalance n).holder = a.holder := rfl

lemma Database.holders_setAccount (d : Database) (a : Account) :
    (d.setAccount a).holders = d.holders := by
  unfold holders setAccount Table.modify
  rw [List.map_map]
  refine List.map_congr_left fun b _ => ?_
  rw [Function.comp_apply]
  split <;> rfl

lemma Movement.holders_apply (m : Movement) (d : Database) : (m.apply d).holders = d.holders := by
  change ((d.setAccount _).setAccount _).holders = d.holders
  rw [Database.holders_setAccount, Database.holders_setAccount]

lemma Database.holders_insertAccount (h : d.accounts.has a.id = false) :
    (d.insertAccount a).holders = d.holders ++ [a.holder] := by
  unfold holders insertAccount
  rw [Table.rows_insert ((Table.has_eq_false _ _).mp h), List.map_append]
  rfl

lemma Database.holders_of_books (h : y.books = x.books) : y.holders = x.holders := by
  unfold holders
  rw [(Database.tables_of_books h).1]

lemma Database.mem_holders {h : Holder} : h ∈ d.holders ↔ ∃ a ∈ d.accounts, a.holder = h :=
  List.mem_map

/-- Of one identifier there is one holder. -/
lemma Database.holder_of_get? {h : Holder} (hh : h ∈ d.holders)
    (ha : d.accounts.get? h.id = some a) : a.holder = h := by
  obtain ⟨b, hb, rfl⟩ := Database.mem_holders.mp hh
  have hget : d.accounts.get? b.id = some b := Table.get?_of_mem hb
  rw [show b.holder.id = b.id from rfl, hget] at ha
  cases ha
  rfl

lemma Owns.personal {userId accountId : Uuid} (h : Owns userId accountId d) (hd : Holders d) :
    d.Personal accountId := by
  obtain ⟨a, ha, rfl, hu⟩ := h
  have hmem : a.holder ∈ d.holders := Database.mem_holders.mpr ⟨a, ha, rfl⟩
  have htype : a.type = .user := by
    refine (hd.kinds _ hmem).mpr ?_
    rw [show a.holder.userId = _ from hu]
    rfl
  refine ⟨userId, ?_⟩
  rw [← hu, ← htype]
  exact hmem

lemma Database.Personal.of_holders {accountId : Uuid} (h : x.Personal accountId)
    (hs : x.holders ⊆ y.holders) : y.Personal accountId := by
  obtain ⟨userId, hmem⟩ := h
  exact ⟨userId, hs hmem⟩

namespace Holders

lemma seed : Holders seed where
  kinds := by decide
  stripes := by decide
  users := rfl
  phones := List.nodup_nil
  people t ht := absurd ht List.not_mem_nil

/-- Transfers between the same holders. -/
lemma transfers (h : Holders x) (hs : y.holders = x.holders) (hu : y.users = x.users)
    (hpeople : ∀ t ∈ y.transfers, t.type ≠ .mint →
      x.Personal t.fromAccountId ∧ x.Personal t.toAccountId) : Holders y where
  kinds := hs ▸ h.kinds
  stripes := hs ▸ h.stripes
  users := by rw [hs, hu, h.users]
  phones := hu ▸ h.phones
  people t ht hm := by
    obtain ⟨hfrom, hto⟩ := hpeople t ht hm
    exact ⟨hfrom.of_holders (hs ▸ List.Subset.refl _), hto.of_holders (hs ▸ List.Subset.refl _)⟩

end Holders

/-- Both sides of an order to pay belong to users. -/
lemma Orders.personal {call : Call} {reply : Reply} {payer payee : Uuid} {amount : ℤ}
    (h : Orders P x call reply (some (.pay payer payee amount))) (hd : Holders x) :
    x.Personal payer ∧ x.Personal payee := by
  cases h with
  | sends sender recipient => exact ⟨sender.personal hd, recipient.personal hd⟩
  | accepts found pending payerUser sender recipient =>
    exact ⟨sender.personal hd, recipient.personal hd⟩
  | reverses found named standing type sender =>
    obtain ⟨hfrom, hto⟩ := hd.people _ found type.1
    exact ⟨hto, hfrom⟩
  | runs found active sender recipient => exact ⟨sender.personal hd, recipient.personal hd⟩

/-- The step lemma. -/
lemma Holders.step {call : Call} {reply : Reply} {order : Option BankOrder} (h : Holders x)
    (ho : Orders P x call reply order) (ht : Turns P x y order) : Holders y := by
  cases ht with
  | rest users books =>
    refine h.transfers (Database.holders_of_books books) users ?_
    rw [(Database.tables_of_books books).2.1]
    exact h.people
  | set found legal users books =>
    refine h.transfers ?_ users ?_
    · rw [Database.holders_of_books books, Database.holders_setAccount]
    · rw [(Database.tables_of_books books).2.1]
      exact h.people
  | @pay m z accounts entries transfers type enabled users books =>
    have hz : z.holders = x.holders := by
      unfold Database.holders
      rw [accounts]
    refine h.transfers ?_ users fun t ht hm => ?_
    · rw [Database.holders_of_books books, Movement.holders_apply, hz]
    · rw [(Database.tables_of_books books).2.1] at ht
      obtain ht | rfl := (Movement.mem_transfers enabled).mp ht
      · obtain ⟨t', ht', hcore⟩ := transfers t ht
        have htype : t'.core.type = t.core.type := congrArg Transfer.type hcore
        have hfrom : t'.core.fromAccountId = t.core.fromAccountId :=
          congrArg Transfer.fromAccountId hcore
        have hto : t'.core.toAccountId = t.core.toAccountId := congrArg Transfer.toAccountId hcore
        have hpeople := h.people t' ht' (htype ▸ hm)
        exact ⟨hfrom ▸ hpeople.1, hto ▸ hpeople.2⟩
      · rw [m.source, m.destination]
        exact ho.personal h
  | @enrol user account m userUnused phone unused row enabled stripe receiver type amount users
      books =>
    have hholders : y.holders = x.holders ++ [account.holder] := by
      rw [Database.holders_of_books books, Movement.holders_apply,
        Database.holders_insertAccount unused]
    have hholder : account.holder = ⟨account.id, some user.id, .user⟩ := by
      rw [row]
      rfl
    have hrows := Table.rows_insert ((Table.has_eq_false _ _).mp userUnused)
    have hsub : x.holders ⊆ y.holders := hholders ▸ List.subset_append_left _ _
    constructor
    · intro q hq
      rw [hholders] at hq
      obtain hq | hq := List.mem_append.mp hq
      · exact h.kinds q hq
      · rw [List.mem_singleton.mp hq, hholder]
        exact iff_of_true rfl rfl
    · exact fun id hid => hsub (h.stripes id hid)
    · rw [hholders, hholder, users, hrows, List.filterMap_append, h.users, List.map_append]
      rfl
    · rw [users, hrows, List.map_append]
      refine h.phones.append (List.nodup_singleton _) ?_
      intro p hp hnew
      rw [List.map_singleton, List.mem_singleton] at hnew
      obtain ⟨u, hu, rfl⟩ := List.mem_map.mp hp
      exact List.find?_eq_none.mp phone u hu (by simpa using hnew)
    · intro t ht hm
      rw [(Database.tables_of_books books).2.1] at ht
      obtain ht | rfl := (Movement.mem_transfers enabled).mp ht
      · obtain ⟨hfrom, hto⟩ := h.people t ht hm
        exact ⟨hfrom.of_holders hsub, hto.of_holders hsub⟩
      · exact absurd type hm

/-! ### Serving -/

lemma Database.bank_of_books (h : y.books = x.books) : y.bank = x.bank := by
  unfold bank
  rw [(Database.tables_of_books h).1]

lemma Database.bank_insertAccount (h : d.accounts.has a.id = false) :
    (d.insertAccount a).bank = Function.update d.bank a.id (some a.purse) := by
  have hnone := (Table.has_eq_false _ _).mp h
  funext id
  change ((d.accounts.insert a).get? id).map Account.purse = _
  by_cases hid : id = a.id
  · rw [hid, Table.get?_insert_self hnone, Function.update_self]
    rfl
  · rw [Table.get?_insert_of_ne (Ne.symm hid), Function.update_of_ne hid]
    rfl

lemma Movement.bank_apply (h : m.Enabled d) : (m.apply d).bank =
    Function.update (Function.update d.bank m.sender.id
        (some (m.sender.purse.add (-m.transfer.amountMinor))))
      m.receiver.id (some (m.receiver.purse.add m.transfer.amountMinor)) := by
  funext id
  unfold Database.bank
  rw [Movement.account_apply h]
  by_cases hs : id = m.sender.id
  · rw [if_pos hs, hs, Function.update_of_ne m.apart, Function.update_self]
    rfl
  · rw [if_neg hs]
    by_cases hr : id = m.receiver.id
    · rw [if_pos hr, hr, Function.update_self]
      rfl
    · rw [if_neg hr, Function.update_of_ne hr, Function.update_of_ne hs]

lemma Database.bank_setStatus {status : AccountStatus} {version : ℕ}
    (h : d.accounts.get? a.id = some a) : (d.setAccount { a with status, version }).bank =
      Function.update d.bank a.id (some { a.purse with status }) := by
  funext id
  unfold Database.bank
  rw [Database.account_setAccount]
  by_cases hid : id = a.id
  · rw [if_pos hid, hid, h, Function.update_self]
    rfl
  · rw [if_neg hid, Function.update_of_ne hid]

lemma Database.bank_of_get? (h : d.accounts.get? a.id = some a) : d.bank a.id = some a.purse := by
  unfold bank
  rw [h]
  rfl

/-- The account of a user has an owner, and is not one of the treasury's. -/
lemma Database.Personal.account (h : d.Personal a.id) (ha : d.accounts.get? a.id = some a) :
    a.userId.isSome = true ∧ a.type = .user := by
  obtain ⟨userId, hmem⟩ := h
  have hholder := Database.holder_of_get? hmem ha
  have hu : a.userId = some userId := congrArg Holder.userId hholder
  exact ⟨by rw [hu]; rfl, congrArg Holder.type hholder⟩

/-- An order that a commit serves is one that the bank serves, with the same outcome. -/
lemma Turns.served {call : Call} {reply : Reply} {order : BankOrder} (h : Holders x)
    (ho : Orders P x call reply (some order)) (ht : Turns P x y (some order)) :
    Served accountRules x.bank order y.bank := by
  cases ht with
  | @set a status version found legal users books =>
    rw [Database.bank_of_books books, Database.bank_setStatus found]
    exact .set (Database.bank_of_get? found) (decide_eq_true legal)
  | @pay m z accounts entries transfers type enabled users books =>
    obtain ⟨hpayer, hpayee⟩ := ho.personal h
    have hbank : z.bank = x.bank := by
      unfold Database.bank
      rw [accounts]
    have hsender : x.accounts.get? m.sender.id = some m.sender := accounts ▸ enabled.sender
    have hreceiver : x.accounts.get? m.receiver.id = some m.receiver := accounts ▸ enabled.receiver
    obtain ⟨howner, huser⟩ := hpayer.account hsender
    rw [Database.bank_of_books books, Movement.bank_apply enabled, hbank]
    refine .pay (Database.bank_of_get? hsender) (Database.bank_of_get? hreceiver) m.apart howner
      (hpayee.account hreceiver).1 m.positive (m.funds.resolve_left ?_) (decide_eq_true m.active)
      (decide_eq_true m.notClosed)
    rw [huser]
    exact AccountType.noConfusion
  | @enrol user account m userUnused phone unused row enabled stripe receiver type amount users
      books =>
    have hne : m.sender.id ≠ account.id := receiver ▸ m.apart
    have hnone : x.accounts.get? account.id = none := (Table.has_eq_false _ _).mp unused
    have hsender : x.accounts.get? m.sender.id = some m.sender := by
      rw [← enabled.sender]
      exact (Table.get?_insert_of_ne (Ne.symm hne)).symm
    have hholder := Database.holder_of_get? (h.stripes _ stripe) hsender
    have hreceiver : m.receiver = account := by
      have hget : (x.insertAccount account).accounts.get? account.id = some m.receiver :=
        receiver ▸ enabled.receiver
      rw [show (x.insertAccount account).accounts = x.accounts.insert account from rfl,
        Table.get?_insert_self hnone] at hget
      exact (Option.some.inj hget).symm
    have hpurse : account.purse.add P.config.signupBonusMinor =
        { owner := some user.id, status := accountRules.opening
          balance := (P.config.signupBonusMinor : ℤ) } := by
      rw [row]
      simp [Account.purse, newAccount, Purse.add, accountRules]
    have hbank : y.bank = Function.update (Function.update x.bank m.sender.id
          (some (m.sender.purse.add (-(P.config.signupBonusMinor : ℤ))))) account.id
        (some { owner := some user.id, status := accountRules.opening
                balance := (P.config.signupBonusMinor : ℤ) }) := by
      rw [Database.bank_of_books books, Movement.bank_apply enabled,
        Database.bank_insertAccount unused, hreceiver, amount, hpurse,
        Function.update_comm hne.symm, Function.update_idem]
    rw [hbank]
    refine .enrol (Database.bank_of_get? hsender) ?_ (congrArg Holder.userId hholder)
      (amount ▸ m.positive) (decide_eq_true m.active)
    unfold Database.bank
    rw [hnone]
    rfl

/-! ### The refinement -/

/-- Each commit has given an order or none, and the bank has served them in the order of the
commits, from the seeded treasury to the accounts as they are now. -/
def Refines (P : Platform) (s : State) : Prop :=
  ∃ orders : List (Option BankOrder),
    List.Forall₂ (fun r order => Orders P r.before r.call r.reply order) s.history orders ∧
      accountRules.serveAll TakaFlow.seed.bank orders.reduceOption = some s.db.bank

/-- Users, their accounts and their money. -/
structure Supplied (P : Platform) (d : Database) : Prop where
  users : ((d.accounts.rows.filter fun a => a.type = .user).map Account.balanceMinor).sum =
    P.config.signupBonusMinor * d.users.rows.length
  treasury : ((d.accounts.rows.filter fun a => ¬ a.type = .user).map Account.balanceMinor).sum =
    -(P.config.signupBonusMinor * d.users.rows.length)
  accounts : d.accounts.rows.filterMap Account.userId = d.users.rows.map User.id
  phones : (d.users.rows.map User.phone).Nodup
  people : ∀ t ∈ d.transfers, t.type ≠ .mint →
    ∀ id ∈ [t.fromAccountId, t.toAccountId], ∃ a ∈ d.accounts, a.id = id ∧ a.type = .user

/-- The orders that some commits have given, and what they have minted. -/
structure Serving (P : Platform) (done : List Record) (d : Database) : Prop where
  holders : Holders d
  served : ∃ orders : List (Option BankOrder),
    List.Forall₂ (fun r order => Orders P r.before r.call r.reply order) done orders ∧
      accountRules.serveAll TakaFlow.seed.bank orders.reduceOption = some d.bank ∧
      (orders.reduceOption.map Order.minted).sum = P.config.signupBonusMinor * d.users.rows.length

/-- What is minted is the bonus of each new user. -/
lemma Turns.minted {order : BankOrder} (h : Turns P x y (some order)) :
    (P.config.signupBonusMinor : ℤ) * y.users.rows.length =
      P.config.signupBonusMinor * x.users.rows.length + order.minted := by
  cases h with
  | set found legal users books =>
    rw [users]
    exact (add_zero _).symm
  | pay accounts entries transfers type enabled users books =>
    rw [users]
    exact (add_zero _).symm
  | enrol userUnused phone unused row enabled stripe receiver type amount users books =>
    rw [users, Table.rows_insert ((Table.has_eq_false _ _).mp userUnused), List.length_append,
      List.length_singleton, Nat.cast_add, Nat.cast_one, mul_add, mul_one]
    rfl

lemma Serving.step {done : List Record} {r : Record} (h : Serving P done r.before)
    (hspec : CommitSpec P (fun _ => False) (fun _ _ _ => True) r.now r.call r.reply r.before
      r.after) : Serving P (done ++ [r]) r.after := by
  obtain ⟨order, ho, ht⟩ := hspec.turns
  refine ⟨h.holders.step ho ht, ?_⟩
  obtain ⟨orders, hgiven, hserved, hminted⟩ := h.served
  refine ⟨orders ++ [order], List.rel_append hgiven (.cons ho .nil), ?_⟩
  rw [List.reduceOption_append]
  cases order with
  | none =>
    cases ht with
    | rest users books =>
      rw [List.reduceOption_cons_of_none, List.reduceOption_nil, List.append_nil,
        Database.bank_of_books books, users]
      exact ⟨hserved, hminted⟩
  | some order =>
    rw [List.reduceOption_cons_of_some, List.reduceOption_nil]
    refine ⟨serveAll_concat hserved (served_iff.mp (ht.served h.holders ho)), ?_⟩
    rw [List.map_append, List.sum_append, hminted, List.map_singleton, List.sum_singleton,
      ht.minted]

lemma serving {s : State} (h : Reachable P s) : Serving P s.history s.db := by
  have hsound := h.sound
  refine hsound.linked.accumulate (I := Serving P) ?_ fun done r hr hserving =>
    hserving.step (hsound.commits r hr).1
  exact ⟨.seed, [], .nil, rfl, by simp [TakaFlow.seed]⟩

/-- Every run serves the orders of its calls one at a time, in the order of the commits: a call that
replies with a receipt has been served, one that repeats an answer has given no order, and nothing
else touches an account. -/
theorem bank_refined {s : State} (h : Reachable P s) : Refines P s := by
  obtain ⟨orders, hgiven, hserved, -⟩ := (serving h).served
  exact ⟨orders, hgiven, hserved⟩

/-! ### Money supply -/

/-- The identifiers in use. -/
def Database.accountIds (d : Database) : Finset Uuid := (d.accounts.rows.map Account.id).toFinset

lemma Database.mem_accountIds {id : Uuid} (h : d.bank id ≠ none) : id ∈ d.accountIds := by
  cases hget : d.accounts.get? id with
  | none => exact absurd (by unfold bank; rw [hget]; rfl) h
  | some a =>
    refine List.mem_toFinset.mpr (List.mem_map.mpr ⟨a, Table.mem_of_get? hget, ?_⟩)
    exact Table.key_of_get? hget

/-- A sum over purses is a sum over rows. -/
lemma Database.totalOf_bank (g : Purse Uuid AccountStatus → ℤ) :
    totalOf g d.accountIds d.bank = (d.accounts.rows.map fun a => g a.purse).sum := by
  unfold totalOf accountIds
  rw [List.sum_toFinset _ d.accounts.nodup, List.map_map]
  refine congrArg List.sum (List.map_congr_left fun a ha => ?_)
  have hget : d.accounts.get? a.id = some a := Table.get?_of_mem ha
  rw [Function.comp_apply, Database.bank_of_get? hget, Option.elim_some]

lemma Holders.totalOf_owned (h : Holders d) :
    totalOf Purse.owned d.accountIds d.bank =
        ((d.accounts.rows.filter fun a => a.type = .user).map Account.balanceMinor).sum ∧
      totalOf Purse.unowned d.accountIds d.bank =
        ((d.accounts.rows.filter fun a => ¬ a.type = .user).map Account.balanceMinor).sum := by
  have hkind : ∀ a ∈ d.accounts.rows, a.userId.isSome = true ↔ a.type = .user := fun a ha =>
    (h.kinds _ (Database.mem_holders.mpr ⟨a, ha, rfl⟩)).symm
  rw [Database.totalOf_bank, Database.totalOf_bank]
  constructor
  · have hsplit := List.sum_map_ite (fun a : Account => a.type = .user) Account.balanceMinor
      (fun _ => 0) d.accounts.rows
    rw [List.map_const', List.sum_replicate, nsmul_zero, add_zero] at hsplit
    rw [← hsplit]
    refine congrArg List.sum (List.map_congr_left fun a ha => ?_)
    exact if_congr (hkind a ha) rfl rfl
  · have hsplit := List.sum_map_ite (fun a : Account => a.type = .user) (fun _ => 0)
      Account.balanceMinor d.accounts.rows
    rw [List.map_const', List.sum_replicate, nsmul_zero, zero_add] at hsplit
    rw [← hsplit]
    refine congrArg List.sum (List.map_congr_left fun a ha => ?_)
    exact if_congr (hkind a ha) rfl rfl

/-- The treasury starts with empty purses. -/
lemma totalOf_seed (ids : Finset Uuid) : totalOf Purse.owned ids TakaFlow.seed.bank = 0 ∧
    totalOf Purse.unowned ids TakaFlow.seed.bank = 0 := by
  have hempty : ∀ id, ∀ p ∈ TakaFlow.seed.bank id, p.balance = 0 := by
    intro id p hp
    obtain ⟨a, ha, rfl⟩ := Option.map_eq_some_iff.mp hp
    have hmem := Table.mem_of_get? ha
    obtain ⟨stripe, -, rfl⟩ := List.mem_map.mp hmem
    rfl
  constructor
  · refine Finset.sum_eq_zero fun id _ => ?_
    cases hp : TakaFlow.seed.bank id with
    | none => rfl
    | some p =>
      rw [Option.elim_some, Purse.owned, hempty id p hp]
      exact ite_self 0
  · refine Finset.sum_eq_zero fun id _ => ?_
    cases hp : TakaFlow.seed.bank id with
    | none => rfl
    | some p =>
      rw [Option.elim_some, Purse.unowned, hempty id p hp]
      exact ite_self 0

lemma Serving.supplied {done : List Record} (h : Serving P done d) : Supplied P d := by
  obtain ⟨orders, -, hserved, hminted⟩ := h.served
  obtain ⟨hsupply, htreasury⟩ := supply hserved fun id hid => Database.mem_accountIds hid
  obtain ⟨howned, hunowned⟩ := h.holders.totalOf_owned
  obtain ⟨hseed, hseed'⟩ := totalOf_seed d.accountIds
  have husers := h.holders.users
  unfold Database.holders at husers
  rw [List.filterMap_map] at husers
  constructor
  · rw [← howned, hsupply, hseed, zero_add, hminted]
  · rw [← hunowned, htreasury, hseed', zero_sub, hminted]
  · exact husers
  · exact h.holders.phones
  · intro t ht hm id hid
    obtain ⟨hfrom, hto⟩ := h.holders.people t ht hm
    have hpersonal : d.Personal id := by
      obtain rfl | hid := List.mem_cons.mp hid
      · exact hfrom
      · rw [List.mem_singleton.mp hid]
        exact hto
    obtain ⟨userId, hmem⟩ := hpersonal
    obtain ⟨a, ha, hholder⟩ := Database.mem_holders.mp hmem
    exact ⟨a, ha, congrArg Holder.id hholder, congrArg Holder.type hholder⟩

/-- In every reachable state users hold the bonuses of their registrations, no more and no less,
whatever they have sent, settled, scheduled and reversed; the treasury owes the same amount; every
user has one account and no two share a phone. -/
theorem money_supply {s : State} (h : Reachable P s) : Supplied P s.db := (serving h).supplied

end

/-- Asha and Babu after a payment. -/
theorem bank_refined_sampleRun :
    (State.after sample sampleRun).history.length = 3 ∧
      Refines sample (State.after sample sampleRun) :=
  ⟨by decide +kernel, bank_refined (reachable_after sample sampleRun)⟩

theorem money_supply_sampleRun :
    (State.after sample sampleRun).db.users.rows.length = 2 ∧
      Supplied sample (State.after sample sampleRun).db :=
  ⟨by decide +kernel, money_supply (reachable_after sample sampleRun)⟩

end TakaFlow
