import TakaFlow.Spec.Idempotency

/-!
# What sending and reversing commit
-/

namespace TakaFlow

open Txn

variable {watched : Token → Prop} {may : ℕ → Database → Token → Prop}

/-! ### Sending -/

/-- The commit of a `sendMoney` of its own key. -/
structure Sent (P : Platform) (watched : Token → Prop) (now : Timestamp) (senderUserId : Uuid)
    (input : CreateTransferInput) (keyId : Uuid) (m : Movement) (payee : PayeeAccount)
    (x y : Database) : Prop where
  enabled : m.Enabled x
  executes : m.Executes
    { fromAccountId := m.sender.id
      toAccountId := payee.accountId
      amountMinor := input.amountMinor
      type := .p2p
      note := input.note
      idempotencyKeyId := some keyId } now
  sender : Owns senderUserId m.sender.id x
  recipient : Owns payee.userId m.receiver.id x
  other : payee.userId ≠ senderUserId
  paced : Paced watched m.sender.id (windowStart now P.policy.windowSeconds)
    P.policy.maxTransfers x
  capped : Capped watched P.config.dailyTransferLimitMinor m.sender.id
    (windowStart now secondsPerDay) input.amountMinor x
  notes : Notes now (m.transfer.event .moneyReceived ::
    if isAnomalous P m.transfer.amountMinor then [m.transfer.event .securityAlert] else [])
    (m.apply x) y

section flag

variable {c₀ c : Ctx Database Token Hook} {P₀ P : Database → Prop} {d : Database}
  {w : Database → Database} {hs : List Hook} {contents : List Content}
  {R : Error → Ctx Database Token Hook → Database → Prop}

lemma wp_flagAnomaly {P' : Platform} {senderUserId : Uuid} {posted : PostedTransfer}
    {Q : Unit → Ctx Database Token Hook → Database → Prop}
    (hR : Throws R c₀ P₀) (h : Noting watched may c₀ P₀ contents w hs P c d)
    (hk : ∀ c d, Noting watched may c₀ P₀ (contents ++ if isAnomalous P' posted.amountMinor then
      [⟨.securityAlert, "transfer", posted.id, amountText posted.amountMinor⟩] else []) w hs P c d →
      Q () c d) :
    wp (discipline watched may) (flagAnomaly P' senderUserId posted) Q R c d := by
  unfold flagAnomaly
  split
  · rename_i ha
    simp only [Program.bind_eq, wp_bind]
    refine h.enqueueEvent hR fun c d e hn => hk _ d ?_
    rw [if_pos ha]
    exact hn.hook (by rintro _ ⟨⟩)
  · rename_i ha
    refine hk c d ?_
    simpa [ha] using h

end flag

lemma wp_sendMoneyWork {P : Platform} {senderUserId : Uuid} {input : CreateTransferInput}
    {context : RequestContext} {now : Timestamp} {r : IdempotencyKey} {d : Database}
    (h : Claiming watched may now r d) :
    wp (discipline watched may) (sendMoneyWork P senderUserId input context r.id)
      (Worked watched may now r fun result x y => ∃ m payee,
        result = (201, transferReceipt m.posted payee (isAnomalous P input.amountMinor)) ∧
          Sent P watched now senderUserId input r.id m payee x y)
      (fun _ _ _ => True) (claimed now r) d := by
  have hR := Throws.of_true (ε := Error) (claimed now r) (Unclaimed r)
  simp only [sendMoneyWork, Program.bind_eq, Program.pure_eq, wp_bind]
  refine wp_selectAccountIdForUser (fun _ => rfl) hR h fun d o hd => ?_
  refine wp_orFail hR hd fun senderAccountId ho => ?_
  subst ho
  refine wp_enforceVelocity (by simp [claimed, Token.rank]) (fun _ => rfl) hR hd fun c d hd => ?_
  refine wp_requirePayee (fun _ => rfl) hR hd fun d payee _ hd => ?_
  refine wp_require hR hd fun hother => ?_
  refine wp_requireDailyLimit (fun _ => rfl) hR hd fun c d hd => ?_
  refine wp_postDoubleEntry hR hd (by simp [claimed, Token.rank]) (shields_of_same fun _ => rfl)
    (fun _ => by simp) (fun _ => by simp) fun c d m l' hm hd => ?_
  have hamount : m.posted.amountMinor = input.amountMinor := hm.amountMinor
  have hid : m.sender.id = senderAccountId := hm.sender
  subst hid
  refine hd.noting.enqueueEvent hR fun c d e hn => ?_
  refine hn.trackWrite hR fun c d hn => ?_
  refine hn.insertAuditLog hR fun c d a hn => ?_
  refine wp_flagAnomaly hR hn fun c d hn => ?_
  rw [wp_ret]
  refine hn.worked (fun _ => rfl) (fun d hp => Movement.published hp.2.1) fun d y hp hnotes =>
    ⟨m, payee, by rw [hamount], ?_⟩
  obtain ⟨⟨⟨⟨⟨-, howns⟩, hpaced⟩, hpayee⟩, hcapped⟩, henabled, -⟩ := hp
  exact
    { enabled := henabled
      executes := hm
      sender := howns _ rfl
      recipient := hm.receiver ▸ hpayee
      other := hother
      paced := hpaced
      capped := hcapped
      notes := hnotes }

/-! ### Reversing -/

@[simp] lemma Transfer.core_of_completed {t : Transfer} (h : t.status = .completed) :
    t.core = t := by
  cases t
  cases h
  rfl

@[simp] lemma Transfer.core_id (t : Transfer) : t.core.id = t.id := rfl

/-- The transfer as a reversal leaves it. -/
def Transfer.reversed (t : Transfer) : Transfer := { t with status := .reversed }

/-- The commit of a `reverseTransfer` of its own key. -/
structure Reversed (P : Platform) (now : Timestamp) (actorUserId : Uuid) (reference : String)
    (keyId : Uuid) (original : Transfer) (m : Movement) (x y : Database) : Prop where
  found : original ∈ x.transfers
  standing : original.status = .completed
  type : original.type ≠ .mint ∧ original.type ≠ .reversal
  named : original.reference = reference
  sender : Owns actorUserId original.fromAccountId x
  window : ∃ t, now ≤ t ∧
    (toMillis t : ℤ) - toMillis original.createdAt ≤ P.config.reversalWindowSeconds * 1000
  enabled : m.Enabled (x.setTransfer original.reversed)
  executes : m.Executes
    { fromAccountId := original.toAccountId
      toAccountId := original.fromAccountId
      amountMinor := original.amountMinor
      type := .reversal
      note := some ("Reversal of " ++ original.reference)
      idempotencyKeyId := some keyId
      reversalOf := some original.id } now
  notes : Notes now [original.event .transferReversed]
    (m.apply (x.setTransfer original.reversed)) y

/-- A transfer is found by its reference, with the owners of its accounts. -/
lemma originalTransfer_spec {d : Database} {reference : String} {o : OriginalTransfer}
    (h : d.originalTransfer reference = some o) :
    o.transfer ∈ d.transfers ∧ o.transfer.reference = reference ∧
      ∀ userId, o.senderUserId = some userId → Owns userId o.transfer.fromAccountId d := by
  obtain ⟨t, ht, ho⟩ := List.exists_of_findSome?_eq_some h
  simp only [Option.bind_eq_bind, Option.bind_eq_some_iff, Option.pure_def,
    Option.some.injEq] at ho
  obtain ⟨sa, hsa, ra, -, rfl⟩ := ho
  obtain ⟨hmem, hp⟩ := List.mem_filter.mp ht
  simp only [decide_eq_true_eq] at hp
  exact ⟨hmem, hp.1, fun _ hu => ⟨sa, Table.mem_of_get? hsa, Table.key_of_get? hsa, hu⟩⟩

lemma wp_reverseTransferWork {P : Platform} {actorUserId : Uuid} {reference : String}
    {context : RequestContext} {now : Timestamp} {r : IdempotencyKey} {d : Database}
    (h : Claiming watched may now r d) :
    wp (discipline watched may) (reverseTransferWork P actorUserId reference context r.id)
      (Worked watched may now r fun result x y => ∃ original m,
        result = (201, reversalResult original m.posted) ∧
          Reversed P now actorUserId reference r.id original m x y)
      (fun _ _ _ => True) (claimed now r) d := by
  have hR := Throws.of_true (ε := Error) (claimed now r) (Unclaimed r)
  simp only [reverseTransferWork, Program.bind_eq, Program.pure_eq, wp_bind]
  refine wp_read hR h fun d hd => ?_
  refine wp_orFail hR hd fun loaded hloaded => ?_
  obtain ⟨hmem, href, howns⟩ := originalTransfer_spec hloaded
  refine wp_require hR hd fun hactor => ?_
  refine wp_require hR hd fun htype => ?_
  refine wp_require hR hd fun hstatus => ?_
  refine wp_dateNow hd fun t x ht => ?_
  refine wp_require hR hd fun hwindow => ?_
  -- The transfer found is there in every later state, up to its status.
  have hd := hd.learn (F := fun d => ∃ t ∈ d.transfers, t.core = loaded.transfer.core)
    (stable_of_later fun d d' hl h => by
      obtain ⟨t, ht, hc⟩ := h
      exact (hl.transfers t ht).imp fun _ h => ⟨h.1, h.2.trans hc⟩) ⟨_, hmem, rfl⟩
  have hd := hd.learn (stable_owns actorUserId loaded.transfer.fromAccountId) (howns _ hactor)
  have hreversed : ∀ (d : Database) q, (∃ t ∈ d.transfers, t.core = loaded.transfer.core) →
      (d.transfers.get? loaded.transfer.id).filter (fun t =>
        t.createdAt = loaded.transfer.createdAt ∧ t.status = .completed) = some q →
      q = loaded.transfer ∧ q ∈ d.transfers := by
    rintro d q ⟨t, ht, hc⟩ hq
    obtain ⟨hq, hp⟩ := Option.filter_eq_some_iff.mp hq
    simp only [decide_eq_true_eq] at hp
    have hid : t.id = loaded.transfer.id := by simpa using congrArg Transfer.id hc
    have hqt : q = t := by
      rw [← hid, Table.get?_of_mem ht] at hq
      exact (Option.some.inj hq).symm
    subst hqt
    rw [Transfer.core_of_completed hp.2, Transfer.core_of_completed hstatus] at hc
    exact ⟨hc, ht⟩
  refine wp_updateRow hR hd (fun d q hp hq => .inr ?_) (fun d q hp hq => ?_) grows_setTransfer
    (fun d hd hq => wp_require hR hd (by rintro ⟨⟩)) fun c d q hd hq => ?_
  · exact Below.mayWait (n := 2) (by simp [claimed, Token.rank]) rfl
  · exact framed_setTransfer List.mem_cons_self rfl
  obtain ⟨rfl, hq⟩ := hreversed d q hd.holds.1.2 hq
  have hd := hd.learn (F := fun d => d.transfers.get? loaded.transfer.id = some loaded.transfer)
    (stable_agree (l := .transfer loaded.transfer.id) (by simp) rfl fun _ _ ha h => ha _ h)
    (Table.get?_of_mem hq)
  refine wp_require hR hd fun _ => ?_
  refine wp_postDoubleEntry hR hd (by simp [claimed, Token.rank]) (shields_of_same fun _ => rfl)
    (by rintro ⟨⟩) (by rintro ⟨⟩) fun c d m l' hm hd => ?_
  refine hd.noting.trackWrite hR fun c d hn => ?_
  refine hn.enqueueEvent hR fun c d e hn => ?_
  refine hn.insertAuditLog hR fun c d a hn => ?_
  refine hn.worked (fun _ => rfl) (fun d hp => Movement.published hp.2.1) fun d y hp hnotes =>
    ⟨loaded.transfer, m, rfl, ?_⟩
  obtain ⟨⟨⟨⟨-, -⟩, hsender⟩, hfound⟩, henabled, -⟩ := hp
  exact
    { found := Table.mem_of_get? hfound
      standing := hstatus
      type := htype
      named := href
      sender := hsender
      window := ⟨t, ht, hwindow⟩
      enabled := henabled
      executes := hm
      notes := hnotes }

end TakaFlow
