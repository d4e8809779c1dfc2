import TakaFlow.Frames
import TakaFlow.Lib.Rules

/-!
# Rules for the statements of the backend

`Doing` is `Progress` under the discipline, for writes that only grow the database. Each rule takes
it from before a function to after it, together with what the function found out.
-/

namespace TakaFlow

open Txn

variable {watched : Token → Prop} {may : ℕ → Database → Token → Prop} {held : List Token}

/-! ### Stable facts -/

lemma excl_of_lock {l : Token} (h : l.isLock = true) : (discipline watched may).excl l := .inl h

/-- A fact that later states keep. -/
lemma stable_of_later {P : Database → Prop} (h : ∀ d d', Later d d' → P d → P d') :
    (discipline watched may).Stable held P := fun d d' hr => h d d' hr.1

lemma stable_agree {l : Token} {P : Database → Prop} (hl : l ∈ held) (hlock : l.isLock = true)
    (h : ∀ d d', Agree l d d' → P d → P d') : (discipline watched may).Stable held P :=
  fun d d' hr => h d d' (hr.2 l hl (excl_of_lock hlock))

lemma stable_unused {w : Database → Database} (hw : Adds w) {t : TableName} {i : ℕ}
    (hl : .fresh t i ∈ held) :
    (discipline watched may).Stable held fun d => (w d).has t i = false := by
  refine stable_agree hl rfl fun d d' ha h => ?_
  rcases hw t i with hw | hw
  · rw [hw] at h ⊢
    exact ha h
  · rw [hw] at h
    cases h

/-- The account of a user. -/
def Owns (userId accountId : Uuid) (d : Database) : Prop :=
  ∃ a ∈ d.accounts, a.id = accountId ∧ a.userId = some userId

lemma Owns.later {userId accountId : Uuid} {d d' : Database} (h : Owns userId accountId d)
    (hl : Later d d') : Owns userId accountId d' := by
  obtain ⟨a, ha, hid, hu⟩ := h
  obtain ⟨b, hb, h₁, h₂, -⟩ := hl.accounts a ha
  exact ⟨b, hb, h₁.trans hid, h₂.trans hu⟩

lemma stable_owns (userId accountId : Uuid) :
    (discipline watched may).Stable held (Owns userId accountId) :=
  stable_of_later fun _ _ hl h => h.later hl

lemma owns_of_accountOf {d : Database} {userId : Uuid} {a : Account}
    (h : d.accountOf userId = some a) : Owns userId a.id d :=
  ⟨a, List.mem_of_find?_eq_some h, rfl, by simpa using List.find?_some h⟩

lemma Later.unsigned {d d' : Database} (h : Later d d') (hu : Unsigned d') : Unsigned d := by
  intro t ht
  obtain ⟨t', ht', hc⟩ := h.transfers t ht
  have : t'.core.amountMinor = t.core.amountMinor := congrArg Transfer.amountMinor hc
  exact (this : t'.amountMinor = t.amountMinor) ▸ hu t' ht'

/-- The daily total of the account leaves room for this amount, as long as nobody else's total is
in flight. -/
def Capped (watched : Token → Prop) (limit : ℤ) (accountId : Uuid) (since amountMinor : ℤ)
    (d : Database) : Prop :=
  watched (.spend accountId) → Unsigned d → d.outboundTotal accountId since + amountMinor ≤ limit

lemma stable_capped {limit since amountMinor : ℤ} {accountId : Uuid}
    (hl : .spend accountId ∈ held) :
    (discipline watched may).Stable held (Capped watched limit accountId since amountMinor) := by
  intro d d' hr h hw hu
  have hud := Later.unsigned hr.1 hu
  have hle := (hr.2 _ hl (.inr hw) hud).2 since
  have := h hw hud
  linarith

/-- Fewer than `n` recent payments of the account, as long as nobody else's are in flight. -/
def Paced (watched : Token → Prop) (accountId : Uuid) (since : ℤ) (n : ℕ) (d : Database) : Prop :=
  watched (.pace accountId) → (d.countedTransfers accountId since).length < n

lemma stable_paced {accountId : Uuid} {since : ℤ} {n : ℕ} (hl : .pace accountId ∈ held) :
    (discipline watched may).Stable held (Paced watched accountId since n) :=
  fun _ _ hr h hw => Nat.lt_of_le_of_lt (hr.2 _ hl (.inr hw) since) (h hw)

/-- What the run promised when a settlement was inserted still bounds the recent payments. -/
def Settles (watched : Token → Prop) (may : ℕ → Database → Token → Prop) (now : ℕ)
    (accountId : Uuid) (d : Database) : Prop :=
  watched (.pace accountId) → ∃ d₀, may now d₀ (.settle accountId) ∧ ∀ since,
    (d.countedTransfers accountId since).length ≤ (d₀.countedTransfers accountId since).length

lemma stable_settles {now : ℕ} {accountId : Uuid} (hl : .pace accountId ∈ held) :
    (discipline watched may).Stable held (Settles watched may now accountId) := by
  intro d d' hr h hw
  obtain ⟨d₀, hm, hle⟩ := h hw
  exact ⟨d₀, hm, fun since => (hr.2 _ hl (.inr hw) since).trans (hle since)⟩

/-! ### Where a session is -/

/-- `Progress` under the discipline of the backend, with writes that only grow the database. -/
structure Doing (watched : Token → Prop) (may : ℕ → Database → Token → Prop)
    (c₀ : Ctx Database Token Hook) (P₀ : Database → Prop) (c : Ctx Database Token Hook)
    (d : Database) (l : List Token) (w : Database → Database) (hs : List Hook)
    (P : Database → Prop) : Prop
    extends Progress (discipline watched may) c₀ P₀ c d l w hs P where
  began : Grows c₀.write
  grows : Grows w

section rules

variable {c₀ c : Ctx Database Token Hook} {P₀ P P' : Database → Prop} {d : Database}
  {l : List Token} {w : Database → Database} {hs : List Hook} {α ρ : Type}
  {R : Error → Ctx Database Token Hook → Database → Prop}

namespace Doing

lemma start (hc : Grows c.write) (hP : (discipline watched may).Stable c.tokens P) (h : P d) :
    Doing watched may c P c d [] id [] P := ⟨.start hP h, hc, .id⟩

/-- A transaction begins. -/
lemma begin (watched : Token → Prop) (may : ℕ → Database → Token → Prop) (now : ℕ)
    (d : Database) :
    Doing watched may (Ctx.start now) (fun _ => True) (Ctx.start now) d [] id [] (fun _ => True) :=
  .start .id (Discipline.Stable.const _) trivial

lemma learn {F : Database → Prop} (h : Doing watched may c₀ P₀ c d l w hs P)
    (hF : (discipline watched may).Stable (l ++ c₀.tokens) F) (hp : F d) :
    Doing watched may c₀ P₀ c d l w hs fun d => P d ∧ F d :=
  ⟨h.toProgress.learn hF hp, h.began, h.grows⟩

/-- An identifier found unused in the view stays unused. -/
lemma learnUnused (h : Doing watched may c₀ P₀ c d l w hs P) {w' : Database → Database}
    (hw' : Grows w') {t : TableName} {i : ℕ} (hl : .fresh t i ∈ l)
    (hu : (w' (c₀.write d)).has t i = false) :
    Doing watched may c₀ P₀ c d l w hs fun d => P d ∧ (w' (c₀.write d)).has t i = false :=
  h.learn (stable_unused (hw'.comp h.began).adds (List.mem_append_left _ hl)) hu

lemma done (h : Doing watched may c₀ P₀ c d l w hs P) {w' : Database → Database}
    (hw' : Grows w') (acq : List Token) :
    Doing watched may c₀ P₀ (c.done w' acq) d (acq ++ l) (w' ∘ w) hs P :=
  ⟨h.toProgress.done, h.began, hw'.comp h.grows⟩

lemma hook (h : Doing watched may c₀ P₀ c d l w hs P) (x : Hook) :
    Doing watched may c₀ P₀ (c.hook x) d l w (hs ++ [x]) P :=
  ⟨h.toProgress.hook x, h.began, h.grows⟩

/-- Say what is known in other words. -/
lemma congr (h : Doing watched may c₀ P₀ c d l w hs P) (hp : ∀ d, P d ↔ P' d) :
    Doing watched may c₀ P₀ c d l w hs P' := by
  rwa [← show P = P' from funext fun d => propext (hp d)]

end Doing

lemma wp_require {p : Prop} [Decidable p] {e : DomainError}
    {Q : Unit → Ctx Database Token Hook → Database → Prop} (hR : Throws R c₀ P₀)
    (h : Doing watched may c₀ P₀ c d l w hs P) (hk : p → Q () c d) :
    wp (discipline watched may) (require p e) Q R c d := by
  unfold require
  split
  · exact hk ‹p›
  · exact h.throw hR _

lemma wp_orFail {o : Option α} {e : DomainError}
    {Q : α → Ctx Database Token Hook → Database → Prop} (hR : Throws R c₀ P₀)
    (h : Doing watched may c₀ P₀ c d l w hs P) (hk : ∀ a, o = some a → Q a c d) :
    wp (discipline watched may) (orFail o e) Q R c d := by
  cases o with
  | some a => exact hk a rfl
  | none => exact h.throw hR _

lemma wp_fail {e : DomainError} {Q : α → Ctx Database Token Hook → Database → Prop}
    (hR : Throws R c₀ P₀) (h : Doing watched may c₀ P₀ c d l w hs P) :
    wp (discipline watched may) (fail e) Q R c d := h.throw hR _

/-- The clock never runs backwards. -/
lemma wp_dateNow {Q : Millis × Env → Ctx Database Token Hook → Database → Prop}
    (h : Doing watched may c₀ P₀ c d l w hs P)
    (hk : ∀ t x, c₀.now ≤ t → Q (toMillis t, x) c d) :
    wp (discipline watched may) dateNow Q R c d := fun t x ht => hk t x (h.now ▸ ht)

lemma wp_read {f : ℕ → Database → ρ} {Q : ρ → Ctx Database Token Hook → Database → Prop}
    (hR : Throws R c₀ P₀) (h : Doing watched may c₀ P₀ c d l w hs P)
    (hk : ∀ d, Doing watched may c₀ P₀ c d l w hs P → Q (f c₀.now (w (c₀.write d))) c d) :
    wp (discipline watched may) (query (Stmt.select f)) Q R c d :=
  wp_select hR h.toProgress fun d hp => hk d ⟨hp, h.began, h.grows⟩

lemma wp_mark {f : ℕ → Database → ρ} {m : Token} (hm : m.isLock = false)
    {Q : ρ → Ctx Database Token Hook → Database → Prop}
    (hR : Throws R c₀ P₀) (h : Doing watched may c₀ P₀ c d l w hs P)
    (hk : ∀ c d, Doing watched may c₀ P₀ c d (m :: l) w hs P → may c₀.now d m →
      Q (f c₀.now (w (c₀.write d))) c d) :
    wp (discipline watched may) (query (Stmt.selectMarking f m)) Q R c d :=
  wp_selectMarking (by simp [discipline, hm]) hR h.toProgress
    fun c d hp hmay => hk c d ⟨hp, h.began, h.grows⟩ hmay

/-- A lock that may be waited for, or is held already. -/
def Grants (held : List Token) (y : Token) : Prop :=
  (y ∈ held ∧ y.isLock = true) ∨ MayWait held y

lemma Grants.waits {y : Token} (h : Grants held y) : Waits (discipline watched may) held y :=
  h.imp_left fun ⟨hm, hl⟩ => ⟨hm, excl_of_lock hl⟩

lemma wp_lock {find : ℕ → Database → Option ρ} {lock : ρ → Token}
    {Q : Option ρ → Ctx Database Token Hook → Database → Prop}
    (hR : Throws R c₀ P₀) (h : Doing watched may c₀ P₀ c d l w hs P)
    (hwait : ∀ d r, P d → find c₀.now (w (c₀.write d)) = some r →
      Grants (l ++ c₀.tokens) (lock r))
    (hnone : ∀ d, Doing watched may c₀ P₀ c d l w hs P → find c₀.now (w (c₀.write d)) = none →
      Q none c d)
    (hsome : ∀ c d r, Doing watched may c₀ P₀ c d (lock r :: l) w hs P →
      find c₀.now (w (c₀.write d)) = some r → Q (some r) c d) :
    wp (discipline watched may) (query (Stmt.selectForUpdate find lock)) Q R c d :=
  wp_selectForUpdate hR h.toProgress (fun d r hp hf => (hwait d r hp hf).waits)
    (fun d hp hf => hnone d ⟨hp, h.began, h.grows⟩ hf)
    fun c d r hp hf => hsome c d r ⟨hp, h.began, h.grows⟩ hf

lemma wp_updateRow {find : Timestamp → Database → Option α} {lock : α → Token}
    {assign : Timestamp → α → α} {put : α → Database → Database}
    {Q : Option α → Ctx Database Token Hook → Database → Prop}
    (hR : Throws R c₀ P₀) (h : Doing watched may c₀ P₀ c d l w hs P)
    (hwait : ∀ d r, P d → find c₀.now (w (c₀.write d)) = some r →
      Grants (l ++ c₀.tokens) (lock (assign c₀.now r)))
    (hframe : ∀ d r, P d → find c₀.now (w (c₀.write d)) = some r →
      (discipline watched may).Framed (lock (assign c₀.now r) :: (l ++ c₀.tokens))
        (put (assign c₀.now r)))
    (hput : ∀ r, Grows (put r))
    (hnone : ∀ d, Doing watched may c₀ P₀ c d l w hs P → find c₀.now (w (c₀.write d)) = none →
      Q none c d)
    (hsome : ∀ c d r, Doing watched may c₀ P₀ c d (lock (assign c₀.now r) :: l)
        (put (assign c₀.now r) ∘ w) hs P →
      find c₀.now (w (c₀.write d)) = some r → Q (some (assign c₀.now r)) c d) :
    wp (discipline watched may) (query (updateRow find lock assign put)) Q R c d := by
  refine wp_update hR h.toProgress (fun d r hp hf => ?_) (fun d r hp hf => ?_)
    (fun d hp hf => ?_) (fun c d r hp hf => ?_)
  · obtain ⟨r, hr, rfl⟩ := Option.map_eq_some_iff.mp hf
    exact (hwait d r hp hr).waits
  · obtain ⟨r, hr, rfl⟩ := Option.map_eq_some_iff.mp hf
    exact hframe d r hp hr
  · exact hnone d ⟨hp, h.began, h.grows⟩ (Option.map_eq_none_iff.mp hf)
  · obtain ⟨r, hr, rfl⟩ := Option.map_eq_some_iff.mp hf
    exact hsome c d r ⟨hp, h.began, (hput _).comp h.grows⟩ hr

/-- An inserted row, and that its identifier is unused. -/
lemma wp_insertRow {table : TableName} {id : Env → ℕ} {put : α → Database → Database}
    {row : Timestamp → Env → α} {Q : α → Ctx Database Token Hook → Database → Prop}
    (hput : ∀ r, Grows (put r))
    (hframe : ∀ x, (discipline watched may).Framed (.fresh table (id x) :: (l ++ c₀.tokens))
      (put (row c₀.now x)))
    (hR : Throws R c₀ P₀) (h : Doing watched may c₀ P₀ c d l w hs P)
    (hk : ∀ c d x, Doing watched may c₀ P₀ c d (.fresh table (id x) :: l)
        (put (row c₀.now x) ∘ w) hs
        (fun d => P d ∧ (w (c₀.write d)).has table (id x) = false) →
      Q (row c₀.now x) c d) :
    wp (discipline watched may) (query (insertRow table id put row)) Q R c d := by
  refine wp_insert (by simp) hR h.toProgress (fun x => by simpa using hframe x)
    fun c d x hp hu _ => ?_
  have hd : Doing watched may c₀ P₀ c d (.fresh table (id x) :: l) (put (row c₀.now x) ∘ w) hs P :=
    ⟨by simpa using hp, h.began, (hput _).comp h.grows⟩
  exact hk c d x (hd.learnUnused h.grows (by simp) (by simpa using hu))

/-! ### Events, audit rows, tracking -/

lemma wp_enqueueEvent {eventType : EventType} {aggregateType : String} {aggregateId : Uuid}
    {payload : Fields} {Q : OutboxEvent → Ctx Database Token Hook → Database → Prop}
    (hR : Throws R c₀ P₀) (h : Doing watched may c₀ P₀ c d l w hs P)
    (hk : ∀ c d e, (e.eventType = eventType ∧ e.aggregateType = aggregateType ∧
        e.aggregateId = aggregateId ∧ e.payload = payload) → e.createdAt = c₀.now →
      Doing watched may c₀ P₀ c d (.fresh .outboxEvents e.id :: l)
        ((fun d => d.insertEvent e) ∘ w) hs
        (fun d => P d ∧ (w (c₀.write d)).has .outboxEvents e.id = false) → Q e c d) :
    wp (discipline watched may) (enqueueEvent eventType aggregateType aggregateId payload)
      Q R c d :=
  wp_insertRow grows_insertEvent (fun _ => framed_insertEvent (by simp)) hR h
    fun c d _ hd => hk c d _ ⟨rfl, rfl, rfl, rfl⟩ rfl hd

lemma wp_insertAuditLog {actorUserId : Option Uuid} {action entityType : String}
    {entityId : Option Uuid} {metadata : Fields} {context : RequestContext}
    {Q : AuditLog → Ctx Database Token Hook → Database → Prop}
    (hR : Throws R c₀ P₀) (h : Doing watched may c₀ P₀ c d l w hs P)
    (hk : ∀ c d r, Doing watched may c₀ P₀ c d (.fresh .auditLogs r.id :: l)
        ((fun d => d.insertAudit r) ∘ w) hs
        (fun d => P d ∧ (w (c₀.write d)).has .auditLogs r.id = false) → Q r c d) :
    wp (discipline watched may)
      (insertAuditLog actorUserId action entityType entityId metadata context) Q R c d :=
  wp_insertRow grows_insertAudit (fun _ => framed_insertAudit (by simp)) hR h
    fun c d _ hd => hk c d _ hd

/-- Write tracking only registers a hook. -/
lemma wp_trackWrite {P' : Platform} {userIds : List (Option Uuid)}
    {Q : Unit → Ctx Database Token Hook → Database → Prop}
    (hR : Throws R c₀ P₀) (h : Doing watched may c₀ P₀ c d l w hs P)
    (hk : ∀ c d hs', (∀ x ∈ hs', ∀ values, x ≠ .writeBalances values) →
      Doing watched may c₀ P₀ c d l w (hs ++ hs') P → Q () c d) :
    wp (discipline watched may) (trackWrite P' userIds) Q R c d := by
  unfold trackWrite
  split
  · rw [Program.bind_eq, wp_bind]
    refine wp_exec hR h.toProgress fun d x taken hp _ _ _ => ⟨by simp, Discipline.framed_id, ?_⟩
    have hd : Doing watched may c₀ P₀ c d l w hs P := ⟨hp, h.began, h.grows⟩
    split
    · exact hk c d [] nofun (by simpa using hd)
    · exact hk _ d [_] (by simp) (hd.hook _)
  · exact hk c d [] nofun (by simpa using h)

lemma wp_findUserById {id : Uuid} {Q : Option User → Ctx Database Token Hook → Database → Prop}
    (hR : Throws R c₀ P₀) (h : Doing watched may c₀ P₀ c d l w hs P)
    (hk : ∀ d, Doing watched may c₀ P₀ c d l w hs P → Q ((w (c₀.write d)).users.get? id) c d) :
    wp (discipline watched may) (findUserById id) Q R c d := wp_read hR h hk

end rules

end TakaFlow
