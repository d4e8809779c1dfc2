import TakaFlow.Spec.Pace

/-!
# What a later state still has

No row of the ledger is ever changed or removed, requests and schedules keep what they are listed
by, and users keep their accounts.
-/

namespace TakaFlow

open Txn

/-- The same request: its status may have changed, and what came of it. -/
def MoneyRequest.Continues (r r' : MoneyRequest) : Prop :=
  r'.id = r.id ∧ r'.createdAt = r.createdAt ∧ r'.payerUserId = r.payerUserId ∧
    r'.requesterUserId = r.requesterUserId

/-- Every user who has an account has the same one. -/
def AccountsStay (x y : Database) : Prop :=
  ∀ userId a, x.accountOf userId = some a → ∃ a', y.accountOf userId = some a' ∧ a'.id = a.id

/-- All that is listed in the first state is there in the second. -/
structure Endures (x y : Database) : Prop where
  later : Later x y
  entries : ∀ e ∈ x.ledgerEntries, e ∈ y.ledgerEntries
  requests : ∀ r ∈ x.moneyRequests, ∃ r' ∈ y.moneyRequests, r.Continues r'
  schedules : ∀ s ∈ x.schedules, ∃ s' ∈ y.schedules, s.Reassigns s'
  accounts : AccountsStay x y

/-! ### Accounts -/

namespace AccountsStay

variable {x y z : Database}

lemma of_same (h : y.accounts = x.accounts) : AccountsStay x y := by
  intro userId a ha
  rw [Database.accountOf, h]
  exact ⟨a, ha, rfl⟩

lemma trans (h : AccountsStay x y) (h' : AccountsStay y z) : AccountsStay x z := by
  intro userId a ha
  obtain ⟨b, hb, hba⟩ := h userId a ha
  obtain ⟨c, hc, hcb⟩ := h' userId b hb
  exact ⟨c, hc, hcb.trans hba⟩

lemma setAccount (d : Database) (r : Account) : AccountsStay d (d.setAccount r) := by
  intro userId a ha
  unfold Database.accountOf Database.setAccount
  rw [Table.find?_modify_of_some ha]
  · refine ⟨_, rfl, ?_⟩
    split <;> rfl
  · exact fun _ => rfl

lemma insertAccount (d : Database) (r : Account) : AccountsStay d (d.insertAccount r) :=
  fun _ a ha => ⟨a, Table.find?_insert_of_some ha, rfl⟩

lemma apply (d : Database) (m : Movement) : AccountsStay d (m.apply d) :=
  ((setAccount d _).trans (setAccount _ _)).trans (of_same rfl)

end AccountsStay

/-! ### One commit -/

section

variable {P : Platform} {watched : Token → Prop} {may : ℕ → Database → Token → Prop}
  {now : Timestamp} {call : Call} {x y : Database}

lemma Moves.accountsStay (h : Moves P watched may now call x y) : AccountsStay x y := by
  cases h with
  | still books => exact .of_same (Database.tables_of_books books).1
  | @status a status version found legal books =>
    exact (AccountsStay.setAccount x _).trans (.of_same (Database.tables_of_books books).1)
  | pays enabled createdAt reversalOf authorized capped books =>
    exact (AccountsStay.apply x _).trans (.of_same (Database.tables_of_books books).1)
  | mints unused row enabled type reversalOf createdAt books =>
    exact ((AccountsStay.insertAccount x _).trans (.apply _ _)).trans
      (.of_same (Database.tables_of_books books).1)
  | @reverses _ _ _ _ _ original m called found standing type sender window enabled executes
      books =>
    have hset : AccountsStay x (x.setTransfer original.reversed) := .of_same rfl
    exact (hset.trans (.apply _ m)).trans (.of_same (Database.tables_of_books books).1)

lemma Movement.entries_prefix {m : Movement} (h : m.Enabled x) :
    x.ledgerEntries.rows <+: (m.apply x).ledgerEntries.rows := by
  rw [entries_apply h]
  exact List.prefix_append _ _

/-- The ledger grows at its end. -/
lemma Moves.entries_prefix (h : Moves P watched may now call x y) :
    x.ledgerEntries.rows <+: y.ledgerEntries.rows := by
  have happly : ∀ {m : Movement} {z : Database}, m.Enabled z → z.ledgerEntries = x.ledgerEntries →
      y.books = (m.apply z).books → x.ledgerEntries.rows <+: y.ledgerEntries.rows := by
    intro m z hm hz hbooks
    rw [(Database.tables_of_books hbooks).2.2, ← hz]
    exact Movement.entries_prefix hm
  cases h with
  | still books => exact (Database.tables_of_books books).2.2 ▸ List.prefix_refl _
  | status found legal books => exact (Database.tables_of_books books).2.2 ▸ List.prefix_refl _
  | pays enabled createdAt reversalOf authorized capped books => exact happly enabled rfl books
  | mints unused row enabled type reversalOf createdAt books => exact happly enabled rfl books
  | reverses called found standing type sender window enabled executes books =>
    exact happly enabled rfl books

lemma Performs.continues (h : Performs P watched may now call x y) {r : MoneyRequest}
    (hr : r ∈ x.moneyRequests) : ∃ r' ∈ y.moneyRequests, r.Continues r' := by
  have hturn := h.turn r.id
  rw [Table.get?_of_mem hr] at hturn
  generalize hafter : y.moneyRequests.get? r.id = after at hturn
  cases hturn with
  | same => exact ⟨r, Table.mem_of_get? hafter, rfl, rfl, rfl, rfl⟩
  | ended justified pending unpaid => exact ⟨_, Table.mem_of_get? hafter, rfl, rfl, rfl, rfl⟩
  | accepted justified pending settles => exact ⟨_, Table.mem_of_get? hafter, rfl, rfl, rfl, rfl⟩

lemma Performs.reassigns (h : Performs P watched may now call x y) {s : Schedule}
    (hs : s ∈ x.schedules) : ∃ s' ∈ y.schedules, s.Reassigns s' := by
  obtain ⟨ended, hpace, -⟩ := h.pace s.id
  rw [Table.get?_of_mem hs] at hpace
  generalize hafter : y.schedules.get? s.id = after at hpace
  cases hpace with
  | same => exact ⟨s, Table.mem_of_get? hafter, rfl⟩
  | changes changes => exact ⟨_, Table.mem_of_get? hafter, changes.reassigns⟩
  | deferred active => exact ⟨_, Table.mem_of_get? hafter, rfl⟩
  | settled active outcome =>
    exact ⟨_, Table.mem_of_get? hafter, s.reassigns_advance P false now⟩
  | paid active => exact ⟨_, Table.mem_of_get? hafter, s.reassigns_advance P true now⟩

/-- The step lemma. -/
theorem Advances.endures (h : Advances P watched may now call x y) : Endures x y where
  later := h.later
  entries _ he := h.performs.moves.entries_prefix.subset he
  requests _ hr := h.performs.continues hr
  schedules _ hs := h.performs.reassigns hs
  accounts := h.performs.moves.accountsStay

end

/-! ### Runs -/

namespace Endures

variable {x y z : Database}

lemma refl (d : Database) : Endures d d where
  later := .refl d
  entries _ he := he
  requests r hr := ⟨r, hr, rfl, rfl, rfl, rfl⟩
  schedules s hs := ⟨s, hs, rfl⟩
  accounts := .of_same rfl

lemma trans (h : Endures x y) (h' : Endures y z) : Endures x z where
  later := h.later.trans h'.later
  entries e he := h'.entries e (h.entries e he)
  requests r hr := by
    obtain ⟨r', hr', hid, hcreated, hpayer, hrequester⟩ := h.requests r hr
    obtain ⟨r'', hr'', hid', hcreated', hpayer', hrequester'⟩ := h'.requests r' hr'
    exact ⟨r'', hr'', hid'.trans hid, hcreated'.trans hcreated, hpayer'.trans hpayer,
      hrequester'.trans hrequester⟩
  schedules s hs := by
    obtain ⟨s', hs', heq⟩ := h.schedules s hs
    obtain ⟨s'', hs'', heq'⟩ := h'.schedules s' hs'
    refine ⟨s'', hs'', ?_⟩
    rw [Schedule.Reassigns, heq', heq]
  accounts := h.accounts.trans h'.accounts

end Endures

/-- A state that the run comes to after this one. -/
def Leads (P : Platform) (s s' : State) : Prop := Reaches (body P) (fun _ _ => True) s s'

variable {P : Platform} {s s' : State}

lemma Leads.reachable (h : Leads P s s') (hs : Reachable P s) : Reachable P s' := by
  obtain ⟨t, hs⟩ := hs
  refine ⟨t, ?_⟩
  induction h with
  | refl => exact hs
  | step _ _ hstep ih => exact ih.step trivial hstep

/-- The run lemma. -/
theorem Leads.endures (h : Leads P s s') (hs : Reachable P s) : Endures s.db s'.db := by
  induction h with
  | refl => exact .refl s.db
  | @step u u' e h _ hstep ih =>
    have hu : Reachable P u' := Leads.reachable (h.step trivial hstep) hs
    obtain ⟨hdb, -⟩ | ⟨r, hhistory, hbefore, hafter⟩ := Sys.db_of_step hstep
    · rwa [hdb]
    · have hr : r ∈ u'.history := by simp [hhistory]
      have hstep := (hu.sound.advances hr).endures
      rw [hbefore, hafter] at hstep
      exact ih.trans hstep

end TakaFlow
