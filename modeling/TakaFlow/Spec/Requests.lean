import TakaFlow.Requests
import TakaFlow.Spec.Transfers

/-!
# What the operations on money requests commit
-/

namespace TakaFlow

open Txn

variable {watched : Token → Prop} {may : ℕ → Database → Token → Prop}

section rules

variable {c₀ c : Ctx Database Token Hook} {P₀ P : Database → Prop} {d : Database}
  {l : List Token} {w : Database → Database} {hs : List Hook} {contents : List Content}
  {R : Error → Ctx Database Token Hook → Database → Prop}

/-- Both bounds of a single amount. -/
lemma wp_requireLimits {P' : Platform} {what : String} {maxDetails : Fields} {amountMinor : ℤ}
    {Q : Unit → Ctx Database Token Hook → Database → Prop}
    (hR : Throws R c₀ P₀) (h : Doing watched may c₀ P₀ c d l w hs P)
    (hk : (P'.config.minTransferMinor : ℤ) ≤ amountMinor →
      amountMinor ≤ P'.config.maxTransferMinor → Q () c d) :
    wp (discipline watched may) (requireLimits P' what maxDetails amountMinor) Q R c d := by
  simp only [requireLimits, Program.bind_eq, wp_bind]
  exact wp_require hR h fun hmin => wp_require hR h fun hmax => hk hmin hmax

/-- A loop keeps what each round keeps. -/
lemma wp_forEach {α β : Type} {f : α → Tx β} (list : List α)
    {I : List α → List β → Ctx Database Token Hook → Database → Prop}
    (hstep : ∀ as bs a c d, I as bs c d →
      wp (discipline watched may) (f a) (fun b => I (as ++ [a]) (bs ++ [b])) R c d)
    (h : I [] [] c d) : wp (discipline watched may) (forEach list f) (I list) R c d := by
  -- What is done already is what the induction generalises over.
  have hloop : ∀ rest as bs c d, I as bs c d →
      wp (discipline watched may) (forEach rest f) (fun bs' => I (as ++ rest) (bs ++ bs'))
        R c d := by
    intro rest
    induction rest with
    | nil => exact fun as bs c d h => by simpa [forEach] using h
    | cons a rest ih =>
      intro as bs c d h
      simp only [forEach, Program.bind_eq, Program.pure_eq, wp_bind]
      refine wp_mono (fun b c d hb => ?_) (fun _ _ _ h => h) (hstep as bs a c d h)
      refine wp_mono (fun bs' c d hbs => ?_) (fun _ _ _ h => h) (ih _ _ c d hb)
      simpa using hbs
  simpa using hloop list [] [] c d h

end rules

/-! ### Creating -/

/-- The row of a request as it is created. -/
def newRequest (id requesterUserId payerUserId : Uuid) (amountMinor : ℤ) (note : Option String)
    (expiresAt now : Timestamp) (splitId : Option Uuid) : MoneyRequest :=
  { id, requesterUserId, payerUserId, amountMinor, note, expiresAt, splitId, createdAt := now,
    updatedAt := now }

/-- The commit of a `createRequest` of its own key. -/
structure Requested (now : Timestamp) (requesterUserId : Uuid) (input : CreateRequestInput)
    (payer : PayeeAccount) (created : MoneyRequest) (x y : Database) : Prop where
  other : payer.userId ≠ requesterUserId
  unused : x.moneyRequests.has created.id = false
  row : ∃ t, now ≤ t ∧ created = newRequest created.id requesterUserId payer.userId
    input.amountMinor input.note (expiryAfter (toMillis t) input.expiresInDays) now none
  notes : Notes now [created.event .requestCreated] (x.insertRequest created) y

lemma wp_createRequestWork {requesterUserId : Uuid} {input : CreateRequestInput}
    {context : RequestContext} {now : Timestamp} {r : IdempotencyKey} {d : Database}
    (h : Claiming watched may now r d) :
    wp (discipline watched may) (createRequestWork requesterUserId input context)
      (Worked watched may now r fun result x y => ∃ payer created,
        result = (201, .obj [("request",
          requestDTO created requesterUserId ⟨payer.name, payer.phone⟩ none)]) ∧
          Requested now requesterUserId input payer created x y)
      (fun _ _ _ => True) (claimed now r) d := by
  have hR := Throws.of_true (ε := Error) (claimed now r) (Unclaimed r)
  simp only [createRequestWork, Program.bind_eq, Program.pure_eq, wp_bind]
  refine wp_requirePayee (fun _ => rfl) hR h fun d payer _ hd => ?_
  refine wp_require hR hd fun hother => ?_
  refine wp_findUserById hR hd fun d hd => ?_
  refine wp_orFail hR hd fun requester _ => ?_
  refine wp_dateNow hd fun t x ht => ?_
  refine wp_insertRow grows_insertRequest (fun _ => framed_insertRequest (by simp)) hR hd
    fun c d y hd => ?_
  refine hd.noting.enqueueEvent hR fun c d e hn => ?_
  refine hn.insertAuditLog hR fun c d a hn => ?_
  refine hn.worked (fun _ => rfl) (fun _ _ => .nil _) fun d z hp hnotes => ⟨payer, _, rfl, ?_⟩
  exact
    { other := hother
      unused := hp.2
      row := ⟨t, ht, rfl⟩
      notes := hnotes }

/-! ### Accepting -/

/-- The commit of an `acceptRequest` of its own key. -/
structure Settled (P : Platform) (watched : Token → Prop) (may : ℕ → Database → Token → Prop)
    (now : Timestamp) (payerUserId requestId keyId : Uuid) (request : MoneyRequest) (m : Movement)
    (x y : Database) : Prop where
  found : x.moneyRequests.get? requestId = some request
  payer : request.payerUserId = payerUserId
  pending : request.status = .pending
  unexpired : now < request.expiresAt
  sender : Owns payerUserId m.sender.id x
  recipient : Owns request.requesterUserId m.receiver.id x
  capped : Capped watched P.config.dailyTransferLimitMinor m.sender.id
    (windowStart now secondsPerDay) request.amountMinor x
  settles : Settles watched may now m.sender.id x
  enabled : m.Enabled x
  executes : m.Executes
    { fromAccountId := m.sender.id
      toAccountId := m.receiver.id
      amountMinor := request.amountMinor
      type := .requestSettlement
      note := request.note
      idempotencyKeyId := some keyId } now
  notes : Notes now [request.event .requestAccepted]
    ((m.apply x).setRequest (request.accept m.transfer.id now)) y

lemma wp_acceptRequestWork {P : Platform} {payerUserId requestId : Uuid}
    {context : RequestContext} {now : Timestamp} {r : IdempotencyKey} {d : Database}
    (h : Claiming watched may now r d) :
    wp (discipline watched may) (acceptRequestWork P payerUserId requestId context r.id)
      (Worked watched may now r fun result x y => ∃ request m requester,
        result = (200, acceptResult request payerUserId requester m.posted) ∧
          Settled P watched may now payerUserId requestId r.id request m x y)
      (fun _ _ _ => True) (claimed now r) d := by
  have hR := Throws.of_true (ε := Error) (claimed now r) (Unclaimed r)
  simp only [acceptRequestWork, Program.bind_eq, wp_bind]
  refine wp_lock hR h (fun d q _ _ => .inr ?_) (fun d hd _ => ?_) fun c d request hd hf => ?_
  · exact Below.mayWait (n := 2) (by simp [claimed, Token.rank]) rfl
  · -- Nothing to settle: whatever the reason, it is an error.
    simp only [explainUnsettleable, Program.bind_eq, wp_bind]
    refine wp_read hR hd fun d hd => wp_orFail hR hd fun q _ => ?_
    exact wp_require hR hd fun _ => wp_require hR hd fun _ => wp_fail hR hd
  obtain ⟨hfound, hp⟩ := Option.filter_eq_some_iff.mp hf
  simp only [decide_eq_true_eq] at hp
  obtain ⟨hpayer, hpending, hunexpired⟩ := hp
  have hid : request.id = requestId := Table.key_of_get? hfound
  have hd := hd.learn (F := fun d => d.moneyRequests.get? requestId = some request)
    (stable_agree (l := .request requestId) (by simp [hid]) rfl fun _ _ ha h => ha _ h) hfound
  simp only [settleRequest, Program.bind_eq, Program.pure_eq, wp_bind]
  refine wp_selectAccountIdForUser (fun _ => rfl) hR hd fun d o hd => ?_
  refine wp_selectAccountIdForUser (fun _ => rfl) hR hd fun d o' hd => ?_
  refine wp_orFail hR hd fun payerAccountId ho => ?_
  refine wp_orFail hR hd fun requesterAccountId ho' => ?_
  subst ho ho'
  refine wp_requireDailyLimit (fun _ => rfl) hR hd fun c d hd => ?_
  refine wp_postDoubleEntry hR hd (by simp [claimed, Token.rank]) (shields_of_same fun _ => rfl)
    (fun _ => by simp) (by rintro ⟨⟩) fun c d m l' hm hd => ?_
  have hsid : m.sender.id = payerAccountId := hm.sender
  have hrid : m.receiver.id = requesterAccountId := hm.receiver
  subst hsid hrid
  have hrow : ∀ d : Database, d.moneyRequests.get? requestId = some request →
      ((m.apply (d.insertKey r)).moneyRequests.get? request.id).filter
        (fun q => q.status = .pending) = some request := by
    intro d hp
    change (d.moneyRequests.get? request.id).filter _ = _
    rw [hid, hp]
    simp [Option.filter, hpending]
  refine wp_updateRow hR hd (fun d q hp hq => .inl ⟨?_, rfl⟩) (fun d q hp hq => ?_)
    grows_setRequest (fun d hd hq => wp_require hR hd (by rintro ⟨⟩)) fun c d q hd hq => ?_
  · cases (hrow d hp.1.1.1.1.2).symm.trans hq
    simp [MoneyRequest.accept]
  · exact framed_setRequest List.mem_cons_self
  cases (hrow d hd.holds.1.1.1.1.2).symm.trans hq
  refine wp_require hR hd fun _ => ?_
  refine hd.noting.findUserById hR fun d requester hn => ?_
  refine hn.enqueueEvent hR fun c d e hn => ?_
  refine hn.trackWrite hR fun c d hn => ?_
  refine hn.insertAuditLog hR fun c d a hn => ?_
  refine hn.worked (fun _ => rfl) (fun d hp => (Movement.published hp.2.1).congr rfl)
    fun d z hp hnotes => ⟨request, m, requester, rfl, ?_⟩
  obtain ⟨⟨⟨⟨⟨-, hfound⟩, hsender⟩, hrecipient⟩, hcapped⟩, henabled, hsettles⟩ := hp
  exact
    { found := hfound
      payer := hpayer
      pending := hpending
      unexpired := hunexpired
      sender := hsender _ rfl
      recipient := hrecipient _ rfl
      capped := hcapped
      settles := hsettles rfl
      enabled := henabled
      executes := hm
      notes := hnotes }

/-! ### Declining and cancelling -/

/-- The commit of a decline or a cancellation. -/
inductive Terminated (now : Timestamp) (actorUserId requestId : Uuid) (target : Termination)
    (reason : Option String) : Reply → Database → Database → Prop where
  | first {x y : Database} {r : MoneyRequest} {other : Option User}
      (found : x.moneyRequests.get? requestId = some r)
      (actor : r.actor target.actorColumn = actorUserId) (pending : r.status = .pending)
      (notes : Notes now [r.event target.eventType]
        (x.setRequest (r.transition target.status reason now)) y) :
      Terminated now actorUserId requestId target reason
        (.dto (requestDTO (r.transition target.status reason now) actorUserId (partyOf other) none))
        x y
  | again {x : Database} {existing : MoneyRequest} {other : Option User}
      (actor : existing.actor target.actorColumn = actorUserId)
      (status : existing.status = target.status) :
      Terminated now actorUserId requestId target reason
        (.dto (requestDTO existing actorUserId (partyOf other) none)) x x

lemma wp_terminate {actorUserId requestId : Uuid} {target : Termination} {reason : Option String}
    {context : RequestContext} {now : ℕ} {d : Database} :
    wp (discipline watched may) (terminate actorUserId requestId target reason context)
      (Commits (discipline watched may) fun reply hs x y =>
        Terminated now actorUserId requestId target reason reply x y ∧ Published hs y)
      (fun _ _ _ => True) (.start now) d := by
  have hR := Throws.of_true (ε := Error) (Ctx.start now : Ctx Database Token Hook) fun _ => True
  simp only [terminate, Program.bind_eq, Program.pure_eq, wp_bind]
  refine wp_updateRow hR (.begin watched may now d) (fun d r _ _ => .inr ?_) (fun d r _ _ => ?_)
    grows_setRequest (fun d hd _ => ?_) fun c d r hd hf => ?_
  · exact Below.mayWait (n := 2) (by simp) rfl
  · exact framed_setRequest List.mem_cons_self
  · -- A repeat: nothing is written.
    simp only [terminateAgain, Program.bind_eq, Program.pure_eq, wp_bind]
    refine wp_read hR hd fun d hd => wp_orFail hR hd fun existing _ => ?_
    refine wp_require hR hd fun hactor => wp_require hR hd fun hstatus => ?_
    refine wp_findUserById hR hd fun d hd => hd.toProgress.commits rfl fun d _ => ?_
    exact ⟨⟨.again hactor hstatus, .nil d⟩, Later.refl d⟩
  · obtain ⟨hfound, hp⟩ := Option.filter_eq_some_iff.mp hf
    simp only [decide_eq_true_eq] at hp
    have hid : r.id = requestId := Table.key_of_get? hfound
    have hd := hd.learn (F := fun d => d.moneyRequests.get? requestId = some r)
      (stable_agree (l := .request requestId) (by simp [MoneyRequest.transition, hid]) rfl
        fun _ _ ha h => ha _ h) hfound
    simp only [wp_bind]
    refine hd.noting.findUserById hR fun d other hn => ?_
    refine hn.enqueueEvent hR fun c d e hn => ?_
    refine hn.insertAuditLog hR fun c d a hn => ?_
    exact hn.commits rfl fun d y _ honly hp' hnotes =>
      ⟨.first hp'.2 hp.1 hp.2 hnotes, (Published.nil y).only honly⟩

/-! ### Expiry -/

/-- The commit of one batch of the expiry worker. -/
structure Expired (now : Timestamp) (rows : List MoneyRequest) (x y : Database) : Prop where
  found : ∀ r ∈ rows, x.moneyRequests.get? r.id = some r
  pending : ∀ r ∈ rows, r.status = .pending
  due : ∀ r ∈ rows, r.expiresAt ≤ now
  apart : (rows.map MoneyRequest.id).Nodup
  notes : Notes now (rows.map fun r => r.event .requestExpired)
    (x.expire now rows) y

/-- No other table changes. -/
lemma Database.expire_rest (now : Timestamp) (rows : List MoneyRequest) (d : Database) :
    d.expire now rows = { d with moneyRequests := (d.expire now rows).moneyRequests } := by
  induction rows generalizing d with
  | nil => rfl
  | cons r rows ih => exact ih (d.setRequest (r.transition .expired none now))

lemma grows_expire (now : Timestamp) (rows : List MoneyRequest) :
    Grows fun d => d.expire now rows := by
  induction rows with
  | nil => exact .id
  | cons r rows ih => exact ih.comp (grows_setRequest _)

lemma framed_expire {held : List Token} {now : Timestamp} {rows : List MoneyRequest}
    (h : ∀ r ∈ rows, .request r.id ∈ held) :
    (discipline watched may).Framed held fun d => d.expire now rows := by
  induction rows with
  | nil => exact Discipline.framed_id
  | cons r rows ih =>
    exact Discipline.Framed.comp
      (framed_setRequest (r := r.transition .expired none now) (h r List.mem_cons_self))
      (ih fun q hq => h q (List.mem_cons_of_mem _ hq))

lemma dueRequests_spec {limit : ℕ} {now : Timestamp} {d : Database} {taken : Token → Bool}
    {r : MoneyRequest} (h : r ∈ dueRequests limit now d taken) :
    r ∈ d.moneyRequests ∧ r.status = .pending ∧ r.expiresAt ≤ now ∧
      taken (.request r.id) = false := by
  have h := List.mem_of_mem_take h
  simp only [List.mem_filter, List.mem_insertionSort, decide_eq_true_eq,
    Bool.not_eq_true'] at h
  exact ⟨h.1.1, h.1.2.1, h.1.2.2, h.2⟩

lemma nodup_dueRequests (limit : ℕ) (now : Timestamp) (d : Database) (taken : Token → Bool) :
    ((dueRequests limit now d taken).map MoneyRequest.id).Nodup := by
  let due := d.moneyRequests.rows.filter fun r => r.status = .pending ∧ r.expiresAt ≤ now
  have hdue : (due.map MoneyRequest.id).Nodup :=
    d.moneyRequests.nodup.sublist (List.filter_sublist.map MoneyRequest.id)
  have hsorted := ((List.perm_insertionSort (fun a b : MoneyRequest =>
    a.expiresAt ≤ b.expiresAt) due).map MoneyRequest.id).nodup_iff.mpr hdue
  exact hsorted.sublist (((List.take_sublist _ _).trans List.filter_sublist).map _)

lemma wp_updateExpired {limit : ℕ} {c₀ c : Ctx Database Token Hook} {P₀ P : Database → Prop}
    {d : Database} {l : List Token} {w : Database → Database} {hs : List Hook}
    {R : Error → Ctx Database Token Hook → Database → Prop}
    {Q : List MoneyRequest → Ctx Database Token Hook → Database → Prop}
    (hsame : ∀ d, (w (c₀.write d)).moneyRequests = d.moneyRequests)
    (hR : Throws R c₀ P₀) (h : Doing watched may c₀ P₀ c d l w hs P)
    (hk : ∀ c d rows, (∀ r ∈ rows, r.status = .pending ∧ r.expiresAt ≤ c₀.now) →
      (rows.map MoneyRequest.id).Nodup →
      Doing watched may c₀ P₀ c d (rows.map (fun r => Token.request r.id) ++ l)
        ((fun d => d.expire c₀.now rows) ∘ w) hs
        (fun d => P d ∧ ∀ r ∈ rows, d.moneyRequests.get? r.id = some r) → Q rows c d) :
    wp (discipline watched may) (query (updateExpired limit)) Q R c d := by
  refine wp_exec hR h.toProgress fun d x taken hd _ _ _ => ⟨?_, ?_, ?_⟩
  · intro y hy _
    obtain ⟨r, hr, rfl⟩ := List.mem_map.mp hy
    exact (dueRequests_spec hr).2.2.2
  · exact framed_expire fun r hr => List.mem_append_left _ (List.mem_map_of_mem hr)
  · refine hk _ d _ (fun r hr => ⟨(dueRequests_spec hr).2.1, (dueRequests_spec hr).2.2.1⟩)
      (nodup_dueRequests _ _ _ _) (Doing.learn ⟨hd.done, h.began, (grows_expire _ _).comp h.grows⟩
        (fun e e' hr hp r hm => ?_) fun r hr => ?_)
    · exact hr.2 (.request r.id) (List.mem_append_left _ (List.mem_append_left _
        (List.mem_map_of_mem hm))) (excl_of_lock rfl) r (hp r hm)
    · exact Table.get?_of_mem (hsame d ▸ (dueRequests_spec hr).1)

lemma wp_expireRequests {batchSize now : ℕ} {d : Database} :
    wp (discipline watched may) (expireRequests batchSize)
      (Commits (discipline watched may) fun reply hs x y => (∃ rows,
        reply = .count rows.length ∧ Expired now rows x y) ∧ Published hs y)
      (fun _ _ _ => True) (.start now) d := by
  have hR := Throws.of_true (ε := Error) (Ctx.start now : Ctx Database Token Hook) fun _ => True
  simp only [expireRequests, Program.bind_eq, Program.pure_eq, wp_bind]
  refine wp_updateExpired (fun _ => rfl) hR (.begin watched may now d)
    fun c d rows hrows hnodup hd => ?_
  have hloop := wp_forEach (f := enqueueExpired) rows
    (I := fun as _ => Noting watched may (Ctx.start now) (fun _ => True)
      (as.map fun r => r.event .requestExpired) _ _ _)
    (fun as bs a c d hn => hn.enqueueEvent hR fun c d e hn => by rw [List.map_append]; exact hn)
    hd.noting
  refine wp_mono (fun bs c d hn => ?_) (fun _ _ _ h => h) hloop
  exact hn.commits rfl fun d y _ honly hp hnotes => ⟨⟨rows, rfl, hp.2, fun r hr => (hrows r hr).1,
    fun r hr => (hrows r hr).2, hnodup, hnotes⟩, (Published.nil y).only honly⟩

end TakaFlow
