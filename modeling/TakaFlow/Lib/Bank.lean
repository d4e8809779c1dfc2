import Mathlib.Algebra.BigOperators.Group.Finset.Basic
import Mathlib.Algebra.Order.Group.Int
import Mathlib.Data.Finset.Basic
import Mathlib.Tactic.Ring

/-!
# Banks

Purses with an owner, who opened them with a bonus, and purses without one, which the bonuses come
from. Owners pay one another what they have.
-/

namespace Banking

/-- What a status lets its purse do, and which status may follow it. -/
structure Rules (σ : Type) where
  opening : σ
  pays : σ → Bool
  receives : σ → Bool
  follows : σ → σ → Bool

structure Purse (υ σ : Type) where
  owner : Option υ
  status : σ
  balance : ℤ
  deriving DecidableEq

/-- The purses that are open. -/
abbrev Bank (κ υ σ : Type) : Type := κ → Option (Purse υ σ)

inductive Order (κ υ σ : Type) where
  | enrol (owner : υ) (purse stripe : κ) (bonus : ℤ)
  | pay (payer payee : κ) (amount : ℤ)
  | set (purse : κ) (status : σ)

variable {κ υ σ : Type} [DecidableEq κ]

def Purse.add (p : Purse υ σ) (n : ℤ) : Purse υ σ := { p with balance := p.balance + n }

namespace Rules

variable (rules : Rules σ)

/-- An order is served or refused. -/
def serve (b : Bank κ υ σ) : Order κ υ σ → Option (Bank κ υ σ)
  | .enrol owner purse stripe bonus => do
    let source ← b stripe
    if b purse = none ∧ source.owner = none ∧ 0 < bonus ∧ rules.pays source.status then
      some (Function.update (Function.update b stripe (source.add (-bonus))) purse
        (some { owner, status := rules.opening, balance := bonus }))
    else none
  | .pay payer payee amount => do
    let source ← b payer
    let target ← b payee
    if payer ≠ payee ∧ source.owner.isSome ∧ target.owner.isSome ∧ 0 < amount ∧
        amount ≤ source.balance ∧ rules.pays source.status ∧ rules.receives target.status then
      some (Function.update (Function.update b payer (source.add (-amount))) payee
        (target.add amount))
    else none
  | .set purse status => do
    let p ← b purse
    if rules.follows p.status status then some (Function.update b purse (some { p with status }))
    else none

/-- Orders are served one after the other. -/
def serveAll (b : Bank κ υ σ) : List (Order κ υ σ) → Option (Bank κ υ σ)
  | [] => some b
  | order :: orders => do
    let b ← rules.serve b order
    serveAll b orders

end Rules

/-- What an order brings into circulation. -/
def Order.minted : Order κ υ σ → ℤ
  | .enrol _ _ _ bonus => bonus
  | .pay _ _ _ => 0
  | .set _ _ => 0

/-! ### Serving -/

section

variable {rules : Rules σ} {b b' b'' : Bank κ υ σ} {order : Order κ υ σ}
  {orders orders' : List (Order κ υ σ)}

lemma serveAll_append : rules.serveAll b (orders ++ orders') =
    (rules.serveAll b orders).bind fun b' => rules.serveAll b' orders' := by
  induction orders generalizing b with
  | nil => rfl
  | cons order orders ih =>
    change (rules.serve b order).bind _ = ((rules.serve b order).bind _).bind _
    rw [Option.bind_assoc]
    exact Option.bind_congr fun b' _ => ih

lemma serveAll_concat (h : rules.serveAll b orders = some b')
    (hs : rules.serve b' order = some b'') : rules.serveAll b (orders ++ [order]) = some b'' := by
  rw [serveAll_append, h, Option.bind_some]
  change (rules.serve b' order).bind some = _
  rw [hs, Option.bind_some]

/-- What a served order has done. -/
inductive Served (rules : Rules σ) (b : Bank κ υ σ) : Order κ υ σ → Bank κ υ σ → Prop where
  | enrol {owner : υ} {purse stripe : κ} {bonus : ℤ} {source : Purse υ σ}
      (found : b stripe = some source) (unused : b purse = none) (treasury : source.owner = none)
      (positive : 0 < bonus) (pays : rules.pays source.status = true) :
      Served rules b (.enrol owner purse stripe bonus)
        (Function.update (Function.update b stripe (source.add (-bonus))) purse
          (some { owner, status := rules.opening, balance := bonus }))
  | pay {payer payee : κ} {amount : ℤ} {source target : Purse υ σ}
      (payerFound : b payer = some source) (payeeFound : b payee = some target)
      (apart : payer ≠ payee) (payerOwned : source.owner.isSome = true)
      (payeeOwned : target.owner.isSome = true) (positive : 0 < amount)
      (funds : amount ≤ source.balance) (pays : rules.pays source.status = true)
      (receives : rules.receives target.status = true) :
      Served rules b (.pay payer payee amount)
        (Function.update (Function.update b payer (source.add (-amount))) payee
          (target.add amount))
  | set {purse : κ} {status : σ} {p : Purse υ σ} (found : b purse = some p)
      (follows : rules.follows p.status status = true) :
      Served rules b (.set purse status) (Function.update b purse (some { p with status }))

lemma served_iff : Served rules b order b' ↔ rules.serve b order = some b' := by
  constructor
  · intro h
    cases h with
    | enrol found unused treasury positive pays =>
      simp [Rules.serve, found, unused, treasury, positive, pays]
    | pay payerFound payeeFound apart payerOwned payeeOwned positive funds pays receives =>
      simp [Rules.serve, payerFound, payeeFound, apart, payerOwned, payeeOwned, positive, funds,
        pays, receives]
    | set found follows => simp [Rules.serve, found, follows]
  · intro h
    cases order with
    | enrol owner purse stripe bonus =>
      obtain ⟨source, hsource, h⟩ := Option.bind_eq_some_iff.mp h
      split at h
      · rename_i hc
        obtain ⟨hunused, htreasury, hpositive, hpays⟩ := hc
        cases h
        exact .enrol hsource hunused htreasury hpositive hpays
      · cases h
    | pay payer payee amount =>
      obtain ⟨source, hsource, h⟩ := Option.bind_eq_some_iff.mp h
      obtain ⟨target, htarget, h⟩ := Option.bind_eq_some_iff.mp h
      split at h
      · rename_i hc
        obtain ⟨hapart, hpayer, hpayee, hpositive, hfunds, hpays, hreceives⟩ := hc
        cases h
        exact .pay hsource htarget hapart hpayer hpayee hpositive hfunds hpays hreceives
      · cases h
    | set purse status =>
      obtain ⟨p, hp, h⟩ := Option.bind_eq_some_iff.mp h
      split at h
      · rename_i hc
        cases h
        exact .set hp hc
      · cases h

/-! ### Sums over purses -/

/-- What a weight adds up to over some identifiers. -/
def totalOf (g : Purse υ σ → ℤ) (ids : Finset κ) (b : Bank κ υ σ) : ℤ :=
  ∑ k ∈ ids, (b k).elim 0 g

/-- What is in the purses that have an owner. -/
def Purse.owned (p : Purse υ σ) : ℤ := if p.owner.isSome then p.balance else 0

/-- What is in the purses that have none. -/
def Purse.unowned (p : Purse υ σ) : ℤ := if p.owner.isSome then 0 else p.balance

variable {g : Purse υ σ → ℤ} {ids : Finset κ}

lemma totalOf_update {k : κ} (hk : k ∈ ids) (p : Purse υ σ) :
    totalOf g ids (Function.update b k (some p)) = totalOf g ids b + (g p - (b k).elim 0 g) := by
  unfold totalOf
  rw [← Finset.add_sum_erase _ _ hk, ← Finset.add_sum_erase ids (fun k => (b k).elim 0 g) hk]
  have hrest : ∑ j ∈ ids.erase k, (Function.update b k (some p) j).elim 0 g =
      ∑ j ∈ ids.erase k, (b j).elim 0 g := by
    refine Finset.sum_congr rfl fun j hj => ?_
    rw [Function.update_of_ne (Finset.ne_of_mem_erase hj)]
  rw [hrest, Function.update_self]
  simp only [Option.elim_some]
  ring

/-- The purses with an owner get what is minted, and the others give it. -/
lemma Served.totalOf_owned (h : Served rules b order b') (hids : ∀ k, b' k ≠ none → k ∈ ids) :
    totalOf Purse.owned ids b' = totalOf Purse.owned ids b + order.minted ∧
      totalOf Purse.unowned ids b' = totalOf Purse.unowned ids b - order.minted := by
  cases h with
  | @enrol owner purse stripe bonus source found unused treasury positive pays =>
    have hne : purse ≠ stripe := by
      rintro rfl
      rw [unused] at found
      cases found
    have hpurse : purse ∈ ids := by
      refine hids purse ?_
      rw [Function.update_self]
      exact Option.some_ne_none _
    have hstripe : stripe ∈ ids := by
      refine hids stripe ?_
      rw [Function.update_of_ne hne.symm, Function.update_self]
      exact Option.some_ne_none _
    have hnone : Function.update b stripe (some (source.add (-bonus))) purse = none := by
      rw [Function.update_of_ne hne, unused]
    constructor
    · rw [totalOf_update hpurse, totalOf_update hstripe, hnone, found]
      simp [Purse.owned, Purse.add, treasury, Order.minted]
    · rw [totalOf_update hpurse, totalOf_update hstripe, hnone, found]
      simp [Purse.unowned, Purse.add, treasury, Order.minted]
      ring
  | @pay payer payee amount source target payerFound payeeFound apart payerOwned payeeOwned =>
    have hpayee : payee ∈ ids := by
      refine hids payee ?_
      rw [Function.update_self]
      exact Option.some_ne_none _
    have hpayer : payer ∈ ids := by
      refine hids payer ?_
      rw [Function.update_of_ne apart, Function.update_self]
      exact Option.some_ne_none _
    have htarget : Function.update b payer (some (source.add (-amount))) payee = some target := by
      rw [Function.update_of_ne apart.symm, payeeFound]
    constructor
    · rw [totalOf_update hpayee, totalOf_update hpayer, htarget, payerFound]
      simp [Purse.owned, Purse.add, payerOwned, payeeOwned, Order.minted]
    · rw [totalOf_update hpayee, totalOf_update hpayer, htarget, payerFound]
      simp [Purse.unowned, Purse.add, payerOwned, payeeOwned, Order.minted]
  | @set purse status p found follows =>
    have hpurse : purse ∈ ids := by
      refine hids purse ?_
      rw [Function.update_self]
      exact Option.some_ne_none _
    constructor
    · rw [totalOf_update hpurse, found]
      simp [Purse.owned, Order.minted]
    · rw [totalOf_update hpurse, found]
      simp [Purse.unowned, Order.minted]

/-- No purse is ever removed. -/
lemma Served.keeps (h : Served rules b order b') {k : κ} (hk : b k ≠ none) : b' k ≠ none := by
  have hupdate : ∀ {b : Bank κ υ σ} {j : κ} {p : Purse υ σ}, b k ≠ none →
      Function.update b j (some p) k ≠ none := by
    intro b j p hb
    by_cases hj : k = j
    · rw [hj, Function.update_self]
      exact Option.some_ne_none _
    · rwa [Function.update_of_ne hj]
  cases h with
  | enrol => exact hupdate (hupdate hk)
  | pay => exact hupdate (hupdate hk)
  | set => exact hupdate hk

/-- Money supply: after any orders the owners hold what they held at first and all that has been
minted, and the treasury is short of the same amount. -/
theorem supply (h : rules.serveAll b orders = some b') (hids : ∀ k, b' k ≠ none → k ∈ ids) :
    totalOf Purse.owned ids b' = totalOf Purse.owned ids b + (orders.map Order.minted).sum ∧
      totalOf Purse.unowned ids b' =
        totalOf Purse.unowned ids b - (orders.map Order.minted).sum := by
  have hkeeps : ∀ {orders : List (Order κ υ σ)} {b : Bank κ υ σ},
      rules.serveAll b orders = some b' → ∀ k, b k ≠ none → k ∈ ids := by
    intro orders
    induction orders with
    | nil =>
      intro b h k hk
      cases h
      exact hids k hk
    | cons order orders ih =>
      intro b h k hk
      obtain ⟨z, hz, h⟩ := Option.bind_eq_some_iff.mp h
      exact ih h k ((served_iff.mpr hz).keeps hk)
  induction orders generalizing b with
  | nil =>
    cases h
    simp
  | cons order orders ih =>
    obtain ⟨z, hz, h⟩ := Option.bind_eq_some_iff.mp h
    obtain ⟨howned, hunowned⟩ := (served_iff.mpr hz).totalOf_owned (hkeeps h)
    obtain ⟨hsupply, htreasury⟩ := ih h
    rw [List.map_cons, List.sum_cons]
    constructor
    · rw [hsupply, howned]
      ring
    · rw [htreasury, hunowned]
      ring

end

end Banking
