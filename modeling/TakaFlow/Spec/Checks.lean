import TakaFlow.Spec.Movement
import TakaFlow.Transfers

/-!
# Rules of the shared checks

What a transaction knows after the lookups and the limits that several services share, and the
rows it leaves in the outbox and the audit log.
-/

namespace TakaFlow

open Txn

variable {watched : Token → Prop} {may : ℕ → Database → Token → Prop} {held : List Token}

section rules

variable {c₀ c : Ctx Database Token Hook} {P₀ P : Database → Prop} {d : Database}
  {l : List Token} {w : Database → Database} {hs : List Hook}
  {R : Error → Ctx Database Token Hook → Database → Prop}

/-! ### Lookups -/

lemma wp_selectAccountIdForUser {userId : Uuid}
    {Q : Option Uuid → Ctx Database Token Hook → Database → Prop}
    (hsame : ∀ d, (w (c₀.write d)).accounts = d.accounts)
    (hR : Throws R c₀ P₀) (h : Doing watched may c₀ P₀ c d l w hs P)
    (hk : ∀ d o, Doing watched may c₀ P₀ c d l w hs
      (fun d => P d ∧ ∀ id, o = some id → Owns userId id d) → Q o c d) :
    wp (discipline watched may) (query (selectAccountIdForUser userId)) Q R c d := by
  refine wp_read hR h fun d hd => hk d _ (hd.learn ?_ ?_)
  · exact fun d d' hr hp id ho => stable_owns userId id d d' hr (hp id ho)
  · intro id ho
    obtain ⟨a, ha, rfl⟩ := Option.map_eq_some_iff.mp ho
    rw [Database.accountOf, hsame] at ha
    exact owns_of_accountOf ha

/-- The payee is active and the account is theirs. -/
lemma wp_requirePayee {phone what : String}
    {Q : PayeeAccount → Ctx Database Token Hook → Database → Prop}
    (hsame : ∀ d, (w (c₀.write d)).accounts = d.accounts)
    (hR : Throws R c₀ P₀) (h : Doing watched may c₀ P₀ c d l w hs P)
    (hk : ∀ d payee, payee.userStatus = .active → Doing watched may c₀ P₀ c d l w hs
      (fun d => P d ∧ Owns payee.userId payee.accountId d) → Q payee c d) :
    wp (discipline watched may) (requirePayee phone what) Q R c d := by
  simp only [requirePayee, Program.bind_eq, Program.pure_eq, wp_bind]
  refine wp_read hR h fun d hd => ?_
  refine wp_orFail hR hd fun payee hpayee => ?_
  refine wp_require hR hd fun hactive => hk d payee hactive (hd.learn (stable_owns _ _) ?_)
  simp only [Option.bind_eq_bind, Option.bind_eq_some_iff, Option.pure_def,
    Option.some.injEq] at hpayee
  obtain ⟨u, -, a, ha, rfl⟩ := hpayee
  rw [Database.accountOf, hsame] at ha
  exact owns_of_accountOf ha

/-! ### Limits -/

/-- The count is taken under the advisory lock of the account. -/
lemma wp_enforceVelocity {P' : Platform} {accountId : Uuid}
    {Q : Unit → Ctx Database Token Hook → Database → Prop}
    (hbelow : Below 1 (l ++ c₀.tokens))
    (hsame : ∀ d, (w (c₀.write d)).transfers = d.transfers)
    (hR : Throws R c₀ P₀) (h : Doing watched may c₀ P₀ c d l w hs P)
    (hk : ∀ c d, Doing watched may c₀ P₀ c d
      (.pace accountId :: .advisory (P'.hashtext (uuidText accountId)) :: l) w hs
      (fun d => P d ∧ Paced watched accountId (windowStart c₀.now P'.policy.windowSeconds)
        P'.policy.maxTransfers d) → Q () c d) :
    wp (discipline watched may) (enforceVelocity P' accountId) Q R c d := by
  simp only [enforceVelocity, Program.bind_eq, Program.pure_eq, wp_bind]
  refine wp_lock hR h (fun d r _ hr => .inr ?_) (by rintro _ _ ⟨⟩) fun c d r hd hr => ?_
  · cases hr
    exact hbelow.mayWait rfl
  · cases hr
    refine wp_mark rfl hR hd fun c d hd _ => ?_
    split
    · rename_i hlt
      refine hk c d (hd.learn (stable_paced List.mem_cons_self) fun _ => ?_)
      simpa only [Database.countedTransfers, hsame] using hlt
    · rw [wp_bind]
      exact wp_dateNow hd fun t x _ => wp_fail hR hd

/-- The total leaves room for the amount. -/
lemma wp_requireDailyLimit {P' : Platform} {accountId : Uuid} {amountMinor : ℤ}
    {refuse : ℤ → DomainError} {Q : Unit → Ctx Database Token Hook → Database → Prop}
    (hsame : ∀ d, (w (c₀.write d)).transfers = d.transfers)
    (hR : Throws R c₀ P₀) (h : Doing watched may c₀ P₀ c d l w hs P)
    (hk : ∀ c d, Doing watched may c₀ P₀ c d (.spend accountId :: l) w hs
      (fun d => P d ∧ Capped watched P'.config.dailyTransferLimitMinor accountId
        (windowStart c₀.now secondsPerDay) amountMinor d) → Q () c d) :
    wp (discipline watched may) (requireDailyLimit P' accountId amountMinor refuse) Q R c d := by
  simp only [requireDailyLimit, Program.bind_eq, wp_bind]
  refine wp_mark rfl hR h fun c d hd _ => ?_
  refine wp_require hR hd fun hle => ?_
  refine hk c d (hd.learn (stable_capped List.mem_cons_self) fun _ _ => ?_)
  simpa only [Database.outboundTotal, hsame] using hle

end rules

/-! ### Events -/

/-- What an event is about, and the amount its payload names. -/
structure Content where
  eventType : EventType
  aggregateType : String
  aggregateId : Uuid
  amount : Option Json

def amountText (amountMinor : ℤ) : Option Json := some (.str (toString amountMinor))

def amountIn (payload : Fields) : Option Json :=
  payload.lookup "amountMinor" <|> payload.lookup "bonusMinor"

def OutboxEvent.content (e : OutboxEvent) : Content :=
  ⟨e.eventType, e.aggregateType, e.aggregateId, amountIn e.payload⟩

/-- An event about a transfer, a request or a schedule. -/
def Transfer.event (t : Transfer) (eventType : EventType) : Content :=
  ⟨eventType, "transfer", t.id, amountText t.amountMinor⟩

def MoneyRequest.event (r : MoneyRequest) (eventType : EventType) : Content :=
  ⟨eventType, "money_request", r.id, amountText r.amountMinor⟩

def Schedule.event (s : Schedule) (eventType : EventType) : Content :=
  ⟨eventType, "scheduled_transfer", s.id, amountText s.amountMinor⟩

/-- `y` is `x` with these events, created at `now`, and some audit rows added. -/
structure Notes (now : Timestamp) (contents : List Content) (x y : Database) : Prop where
  rest : y = { x with outboxEvents := y.outboxEvents, auditLogs := y.auditLogs }
  events : ∃ rows : List OutboxEvent, y.outboxEvents.rows = x.outboxEvents.rows ++ rows ∧
    rows.map OutboxEvent.content = contents ∧ ∀ e ∈ rows, e.createdAt = now

namespace Notes

variable {now : Timestamp} {contents contents' : List Content} {x y z : Database}

lemma refl : Notes now [] x x := ⟨rfl, [], by simp⟩

lemma event {e : OutboxEvent} {k : Content} (hk : e.content = k) (he : e.createdAt = now)
    (hu : x.outboxEvents.has e.id = false) : Notes now [k] x (x.insertEvent e) where
  rest := rfl
  events := ⟨[e], Table.rows_insert ((Table.has_eq_false _ _).mp hu), by simp [hk],
    by simpa using he⟩

lemma audit {r : AuditLog} : Notes now [] x (x.insertAudit r) where
  rest := rfl
  events := ⟨[], by simp [Database.insertAudit]⟩

lemma trans (h : Notes now contents x y) (h' : Notes now contents' y z) :
    Notes now (contents ++ contents') x z where
  rest := by
    have h₁ := h.rest
    have h₂ := h'.rest
    rw [h₁] at h₂
    exact h₂
  events := by
    obtain ⟨rows, hr, hc, ht⟩ := h.events
    obtain ⟨rows', hr', hc', ht'⟩ := h'.events
    refine ⟨rows ++ rows', ?_, ?_, fun e he => ?_⟩
    · rw [hr', hr, List.append_assoc]
    · rw [List.map_append, hc, hc']
    · exact (List.mem_append.mp he).elim (ht e) (ht' e)

/-- Nothing but the outbox and the audit log has changed. -/
lemma proj {α : Sort*} (h : Notes now contents x y) (f : Database → α)
    (hf : ∀ o a, f { x with outboxEvents := o, auditLogs := a } = f x) : f y = f x := by
  rw [h.rest, hf]

lemma users (h : Notes now contents x y) : y.users = x.users :=
  h.proj _ fun _ _ => rfl

lemma accounts (h : Notes now contents x y) : y.accounts = x.accounts :=
  h.proj _ fun _ _ => rfl

lemma idempotencyKeys (h : Notes now contents x y) : y.idempotencyKeys = x.idempotencyKeys :=
  h.proj _ fun _ _ => rfl

lemma transfers (h : Notes now contents x y) : y.transfers = x.transfers :=
  h.proj _ fun _ _ => rfl

lemma ledgerEntries (h : Notes now contents x y) : y.ledgerEntries = x.ledgerEntries :=
  h.proj _ fun _ _ => rfl

lemma moneyRequests (h : Notes now contents x y) : y.moneyRequests = x.moneyRequests :=
  h.proj _ fun _ _ => rfl

lemma schedules (h : Notes now contents x y) : y.schedules = x.schedules :=
  h.proj _ fun _ _ => rfl

lemma occurrences (h : Notes now contents x y) : y.occurrences = x.occurrences :=
  h.proj _ fun _ _ => rfl

end Notes

/-! ### Adding notes -/

/-- The session knew `P`, had written `w` and registered `hs`, and has added nothing but notes and
hooks that publish no balance since. -/
def Noting (watched : Token → Prop) (may : ℕ → Database → Token → Prop)
    (c₀ : Ctx Database Token Hook) (P₀ : Database → Prop) (contents : List Content)
    (w : Database → Database) (hs : List Hook) (P : Database → Prop) (c : Ctx Database Token Hook)
    (d : Database) : Prop :=
  ∃ l w' hs' P', Doing watched may c₀ P₀ c d l w' hs' P' ∧ PublishOnly hs hs' ∧
    ∀ d, P' d → P d ∧ Notes c₀.now contents (w (c₀.write d)) (w' (c₀.write d))

section noting

variable {c₀ c : Ctx Database Token Hook} {P₀ P : Database → Prop} {d : Database}
  {l : List Token} {w : Database → Database} {hs : List Hook} {contents : List Content}
  {R : Error → Ctx Database Token Hook → Database → Prop}

lemma Doing.noting (h : Doing watched may c₀ P₀ c d l w hs P) :
    Noting watched may c₀ P₀ [] w hs P c d :=
  ⟨l, w, hs, P, h, .refl hs, fun _ hp => ⟨hp, .refl⟩⟩

namespace Noting

lemma enqueueEvent {eventType : EventType} {aggregateType : String} {aggregateId : Uuid}
    {payload : Fields} {Q : OutboxEvent → Ctx Database Token Hook → Database → Prop}
    (hR : Throws R c₀ P₀) (h : Noting watched may c₀ P₀ contents w hs P c d)
    (hk : ∀ c d e, Noting watched may c₀ P₀
      (contents ++ [⟨eventType, aggregateType, aggregateId, amountIn payload⟩]) w hs P c d →
        Q e c d) :
    wp (discipline watched may)
      (TakaFlow.enqueueEvent eventType aggregateType aggregateId payload) Q R c d := by
  obtain ⟨l, w', hs', P', hd, honly, hP'⟩ := h
  refine wp_enqueueEvent hR hd fun c d e he ht hd => hk c d e ⟨_, _, _, _, hd, honly, ?_⟩
  rintro d ⟨hp, hu⟩
  obtain ⟨hp, hn⟩ := hP' d hp
  have hc : e.content = ⟨eventType, aggregateType, aggregateId, amountIn payload⟩ := by
    rw [OutboxEvent.content, he.1, he.2.1, he.2.2.1, he.2.2.2]
  exact ⟨hp, hn.trans (.event hc ht hu)⟩

lemma insertAuditLog {actorUserId : Option Uuid} {action entityType : String}
    {entityId : Option Uuid} {metadata : Fields} {context : RequestContext}
    {Q : AuditLog → Ctx Database Token Hook → Database → Prop}
    (hR : Throws R c₀ P₀) (h : Noting watched may c₀ P₀ contents w hs P c d)
    (hk : ∀ c d r, Noting watched may c₀ P₀ contents w hs P c d → Q r c d) :
    wp (discipline watched may)
      (TakaFlow.insertAuditLog actorUserId action entityType entityId metadata context)
      Q R c d := by
  obtain ⟨l, w', hs', P', hd, honly, hP'⟩ := h
  refine wp_insertAuditLog hR hd fun c d r hd => hk c d r ⟨_, _, _, _, hd, honly, ?_⟩
  rintro d ⟨hp, -⟩
  obtain ⟨hp, hn⟩ := hP' d hp
  exact ⟨hp, by simpa using hn.trans .audit⟩

lemma trackWrite {P' : Platform} {userIds : List (Option Uuid)}
    {Q : Unit → Ctx Database Token Hook → Database → Prop}
    (hR : Throws R c₀ P₀) (h : Noting watched may c₀ P₀ contents w hs P c d)
    (hk : ∀ c d, Noting watched may c₀ P₀ contents w hs P c d → Q () c d) :
    wp (discipline watched may) (TakaFlow.trackWrite P' userIds) Q R c d := by
  obtain ⟨l, w', hs', P', hd, honly, hP'⟩ := h
  exact wp_trackWrite hR hd fun c d hs'' hother hd =>
    hk c d ⟨_, _, _, _, hd, honly.append hother, hP'⟩

lemma findUserById {id : Uuid} {Q : Option User → Ctx Database Token Hook → Database → Prop}
    (hR : Throws R c₀ P₀) (h : Noting watched may c₀ P₀ contents w hs P c d)
    (hk : ∀ d u, Noting watched may c₀ P₀ contents w hs P c d → Q u c d) :
    wp (discipline watched may) (TakaFlow.findUserById id) Q R c d := by
  obtain ⟨l, w', hs', P', hd, honly, hP'⟩ := h
  exact wp_findUserById hR hd fun d hd => hk d _ ⟨_, _, _, _, hd, honly, hP'⟩

lemma hook (h : Noting watched may c₀ P₀ contents w hs P c d) {x : Hook}
    (hx : ∀ values, x ≠ .writeBalances values) :
    Noting watched may c₀ P₀ contents w hs P (c.hook x) d := by
  obtain ⟨l, w', hs', P', hd, honly, hP'⟩ := h
  exact ⟨_, _, _, _, hd.hook x, honly.append (by simpa using hx), hP'⟩

/-- What a transaction commits to. -/
lemma commits {α : Type} {post : α → List Hook → Database → Database → Prop} {a : α}
    (h : Noting watched may c₀ P₀ contents w hs P c d) (ha : c₀.aborted = false)
    (hpost : ∀ d y hs', PublishOnly (c₀.hooks ++ hs) hs' → P d →
      Notes c₀.now contents (w (c₀.write d)) y → post a hs' d y) :
    Commits (discipline watched may) post a c d := by
  obtain ⟨l, w', hs', P', hd, honly, hP'⟩ := h
  refine hd.toProgress.commits ha fun d hp => ?_
  obtain ⟨hp, hn⟩ := hP' d hp
  exact ⟨hpost d _ _ (honly.prepend _) hp hn, (hd.began.later d).trans (hd.grows.later _)⟩

end Noting

end noting

end TakaFlow
