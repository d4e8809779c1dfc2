import TakaFlow.System

/-!
# What tokens protect

The discipline every transaction follows: what each token protects of the database, what never
changes back, and in which order locks are waited for.
-/

namespace TakaFlow

open Txn

/-! ### The order of locks -/

/-- The rank of a lock that can be waited for. Rows just inserted are not visible to anyone who
could wait for them, and nothing waits for a mark. -/
def Token.rank : Token → Option ℕ
  | .idempotencyKey _ _ => some 0
  | .phone _ => some 0
  | .advisory _ => some 1
  | .request _ => some 2
  | .schedule _ => some 2
  | .transfer _ => some 2
  | .occurrence _ => some 3
  | .account id => some (4 + id)
  | .fresh _ _ => none
  | .spend _ => none
  | .pace _ => none
  | .settle _ => none

/-- A session may wait for a lock above all the locks it holds. -/
def MayWait (held : List Token) (l : Token) : Prop :=
  ∃ n, l.rank = some n ∧ ∀ x ∈ held, ∀ m, x.rank = some m → m < n

/-- All locks held are below `n`. -/
def Below (n : ℕ) (held : List Token) : Prop := ∀ x ∈ held, ∀ m, x.rank = some m → m < n

lemma Below.mayWait {n : ℕ} {held : List Token} {l : Token} (h : Below n held)
    (hl : l.rank = some n) : MayWait held l := ⟨n, hl, h⟩

@[simp] lemma below_nil (n : ℕ) : Below n [] := fun _ h => nomatch h

@[simp] lemma below_cons {n : ℕ} {held : List Token} {l : Token} :
    Below n (l :: held) ↔ (∀ m, l.rank = some m → m < n) ∧ Below n held := by
  simp only [Below, List.mem_cons, forall_eq_or_imp]

@[simp] lemma below_append {n : ℕ} {held held' : List Token} :
    Below n (held ++ held') ↔ Below n held ∧ Below n held' := by
  simp only [Below, List.mem_append, or_imp, forall_and]

lemma Below.mono {n m : ℕ} {held : List Token} (hnm : n ≤ m) (h : Below n held) : Below m held :=
  fun x hx k hk => Nat.lt_of_lt_of_le (h x hx k hk) hnm

/-! ### What never changes back -/

/-- Only the status of a transfer ever changes. -/
def Transfer.core (t : Transfer) : Transfer := { t with status := .completed }

/-- A later committed state: users stay as they are, accounts keep their owner and type, a
completed key keeps its response, and a transfer all but its status. -/
structure Later (d d' : Database) : Prop where
  users : ∀ u ∈ d.users, u ∈ d'.users
  accounts : ∀ a ∈ d.accounts, ∃ a' ∈ d'.accounts,
    a'.id = a.id ∧ a'.userId = a.userId ∧ a'.type = a.type
  keys : ∀ r ∈ d.idempotencyKeys, r.state = .completed → r ∈ d'.idempotencyKeys
  transfers : ∀ t ∈ d.transfers, ∃ t' ∈ d'.transfers, t'.core = t.core

namespace Later

variable {d d' d'' : Database}

lemma refl (d : Database) : Later d d :=
  ⟨fun _ h => h, fun a h => ⟨a, h, rfl, rfl, rfl⟩, fun _ h _ => h, fun t h => ⟨t, h, rfl⟩⟩

lemma trans (h : Later d d') (h' : Later d' d'') : Later d d'' where
  users u hu := h'.users u (h.users u hu)
  accounts a ha := by
    obtain ⟨b, hb, h₁, h₂, h₃⟩ := h.accounts a ha
    obtain ⟨c, hc, h₄, h₅, h₆⟩ := h'.accounts b hb
    exact ⟨c, hc, h₄.trans h₁, h₅.trans h₂, h₆.trans h₃⟩
  keys r hr hs := h'.keys r (h.keys r hr hs) hs
  transfers t ht := by
    obtain ⟨u, hu, h₁⟩ := h.transfers t ht
    obtain ⟨v, hv, h₂⟩ := h'.transfers u hu
    exact ⟨v, hv, h₂.trans h₁⟩

end Later

/-! ### What each token protects -/

/-- No transfer has a negative amount. -/
def Unsigned (d : Database) : Prop := ∀ t ∈ d.transfers, 0 ≤ t.amountMinor

/-- The two states do not differ in what the token protects. -/
def Agree : Token → Database → Database → Prop
  | .idempotencyKey userId key, d, d' => d.findKey userId key = none → d'.findKey userId key = none
  | .phone phone, d, d' => d.userByPhone phone = none → d'.userByPhone phone = none
  | .fresh table id, d, d' => d.has table id = false → d'.has table id = false
  | .advisory _, _, _ => True
  | .request id, d, d' => d.moneyRequests.Keeps d'.moneyRequests id
  | .schedule id, d, d' => d.schedules.Keeps d'.schedules id ∧
      ∀ dueAt, d'.occurrenceAt (id, dueAt) = d.occurrenceAt (id, dueAt)
  | .transfer id, d, d' => d.transfers.Keeps d'.transfers id
  | .occurrence _, _, _ => True
  | .account id, d, d' => d.accounts.Keeps d'.accounts id
  | .spend accountId, d, d' => Unsigned d → Unsigned d' ∧
      ∀ since, d'.outboundTotal accountId since ≤ d.outboundTotal accountId since
  | .pace accountId, d, d' => ∀ since,
      (d'.countedTransfers accountId since).length ≤ (d.countedTransfers accountId since).length
  | .settle _, _, _ => True

lemma Agree.refl (l : Token) (d : Database) : Agree l d d := by
  cases l with
  | schedule id => exact ⟨Table.Keeps.refl, fun _ => rfl⟩
  | spend id => exact fun h => ⟨h, fun _ => le_refl _⟩
  | pace id => exact fun _ => Nat.le_refl _
  | advisory n => trivial
  | occurrence k => trivial
  | settle id => trivial
  | request id => exact Table.Keeps.refl
  | transfer id => exact Table.Keeps.refl
  | account id => exact Table.Keeps.refl
  | idempotencyKey u k => exact fun h => h
  | phone p => exact fun h => h
  | fresh t i => exact fun h => h

lemma Agree.trans (l : Token) (d d' d'' : Database) (h : Agree l d d') (h' : Agree l d' d'') :
    Agree l d d'' := by
  cases l with
  | schedule id => exact ⟨h.1.trans h'.1, fun due => (h'.2 due).trans (h.2 due)⟩
  | spend id =>
    intro hu
    obtain ⟨hu', hle⟩ := h hu
    obtain ⟨hu'', hle'⟩ := h' hu'
    exact ⟨hu'', fun since => (hle' since).trans (hle since)⟩
  | pace id => exact fun since => (h' since).trans (h since)
  | advisory n => trivial
  | occurrence k => trivial
  | settle id => trivial
  | request id => exact Table.Keeps.trans h h'
  | transfer id => exact Table.Keeps.trans h h'
  | account id => exact Table.Keeps.trans h h'
  | idempotencyKey u k => exact fun hn => h' (h hn)
  | phone p => exact fun hn => h' (h hn)
  | fresh t i => exact fun hn => h' (h hn)

/-- The discipline of the backend. `watched` marks and `may` are conditions on the runs
considered; without them every run is considered. -/
def discipline (watched : Token → Prop) (may : ℕ → Database → Token → Prop) :
    Discipline Database Token where
  lock l := l.isLock = true
  watched := watched
  may := may
  agree := Agree
  mono := Later
  mayWait := MayWait
  agree_refl := Agree.refl
  agree_trans := Agree.trans
  mono_refl := Later.refl
  mono_trans _ _ _ := Later.trans

end TakaFlow
