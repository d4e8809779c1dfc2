import TakaFlow.Spec.Money

/-!
# What an account pays in a window of time

The start of its transaction dates a payment, and the check of a payment looks back from there.
So of the payments in any interval the one that commits last has counted all the others, provided
that no other payment of the account was under way when it looked.
-/

namespace TakaFlow

open Txn

/-! ### Weighing transfers -/

/-- The total weight of some of the transfers. -/
def Database.weigh (d : Database) (p : Transfer → Bool) (w : Transfer → ℤ) : ℤ :=
  ((d.transfers.rows.filter p).map w).sum

section weigh

variable {d : Database} {p q : Transfer → Bool} {w : Transfer → ℤ}

lemma Database.weigh_mono (hpq : ∀ t, p t = true → q t = true) (hw : ∀ t ∈ d.transfers, 0 ≤ w t) :
    d.weigh p w ≤ d.weigh q w := by
  change ∀ t ∈ d.transfers.rows, 0 ≤ w t at hw
  unfold weigh
  generalize d.transfers.rows = rows at hw
  induction rows with
  | nil => exact le_refl _
  | cons t rows ih =>
    have ih := ih fun u hu => hw u (List.mem_cons_of_mem _ hu)
    have ht := hw t List.mem_cons_self
    rw [List.filter_cons, List.filter_cons]
    by_cases hp : p t = true
    · rw [if_pos hp, if_pos (hpq t hp)]
      simpa using ih
    · rw [if_neg hp]
      by_cases hq : q t = true
      · rw [if_pos hq, List.map_cons, List.sum_cons]
        linarith
      · rw [if_neg hq]
        exact ih

lemma Database.weigh_apply {m : Movement} (h : m.Enabled d) :
    (m.apply d).weigh p w = d.weigh p w + if p m.transfer then w m.transfer else 0 := by
  unfold weigh
  rw [Movement.transfers_apply h, List.filter_append, List.map_append, List.sum_append]
  congr 1
  by_cases hp : p m.transfer = true <;> simp [hp]

/-- The predicate looks at payments, and those that are reversed may drop out. -/
structure Windowed (p : Transfer → Bool) (w : Transfer → ℤ) : Prop where
  payment : ∀ t, p t = true → t.IsPayment
  reversed : ∀ t : Transfer, p { t with status := .reversed } = true → p t = true
  weight : ∀ t : Transfer, w { t with status := .reversed } = w t

lemma Windowed.weigh_setTransfer {t : Transfer} (h : Windowed p w)
    (hw : ∀ t ∈ d.transfers, 0 ≤ w t) : (d.setTransfer t.reversed).weigh p w ≤ d.weigh p w := by
  simp only [Database.weigh, Database.setTransfer]
  exact Table.sum_filter_modify_le hw h.reversed h.weight

end weigh

/-! ### One commit -/

section

variable {P : Platform} {watched : Token → Prop} {may : ℕ → Database → Token → Prop}
  {now : Timestamp} {call : Call} {x y : Database} {p : Transfer → Bool} {w : Transfer → ℤ}

lemma Moves.unsigned (h : Moves P watched may now call x y) (hx : Unsigned x) : Unsigned y := by
  intro t ht
  have htables : ∀ {z : Database}, y.books = z.books → t ∈ z.transfers :=
    fun hz => (Database.tables_of_books hz).2.1 ▸ ht
  cases h with
  | still books => exact hx t (htables books)
  | @status a status version found legal books =>
    exact hx t (htables (z := x.setAccount { a with status, version }) books)
  | @pays m enabled createdAt reversalOf authorized capped books =>
    rcases (Movement.mem_transfers enabled).mp (htables books) with ht | rfl
    · exact hx t ht
    · exact m.positive.le
  | @mints userId account m unused row enabled type reversalOf createdAt books =>
    rcases (Movement.mem_transfers enabled).mp (htables books) with ht | rfl
    · exact hx t ht
    · exact m.positive.le
  | @reverses _ _ _ _ _ original m _ found standing type sender window enabled executes books =>
    rcases (Movement.mem_transfers enabled).mp (htables books) with ht | rfl
    · rcases (Database.mem_setTransfer_reversed found).mp ht with rfl | ⟨ht, -⟩
      · exact hx original found
      · exact hx t ht
    · exact m.positive.le

/-- Only a payment adds weight. -/
lemma Moves.weigh (h : Moves P watched may now call x y) (hp : Windowed p w)
    (hw : ∀ t ∈ x.transfers, 0 ≤ w t) :
    y.weigh p w ≤ x.weigh p w ∨ ∃ m : Movement, p m.transfer = true ∧
      m.transfer.createdAt = now ∧ Authorized P watched may now x m m.transfer.type ∧
      Capped watched P.config.dailyTransferLimitMinor m.sender.id
        (windowStart now secondsPerDay) m.transfer.amountMinor x ∧
      y.weigh p w = x.weigh p w + w m.transfer := by
  have htables : ∀ {z : Database}, y.books = z.books → y.weigh p w = z.weigh p w := by
    intro z hz
    rw [Database.weigh, (Database.tables_of_books hz).2.1]
    rfl
  have hnot : ∀ t : Transfer, t.type = .mint ∨ t.type = .reversal → p t ≠ true := by
    rintro t (ht | ht) hpt <;> rcases hp.payment t hpt with h | h | h <;> rw [ht] at h <;> cases h
  cases h with
  | still books => exact .inl (htables books).le
  | @status a status version found legal books =>
    exact .inl (htables (z := x.setAccount { a with status, version }) books).le
  | @pays m enabled createdAt reversalOf authorized capped books =>
    have hweigh := (htables books).trans (Database.weigh_apply enabled)
    by_cases ht : p m.transfer = true
    · rw [if_pos ht] at hweigh
      exact .inr ⟨m, ht, createdAt, authorized, capped, hweigh⟩
    · rw [if_neg ht, add_zero] at hweigh
      exact .inl hweigh.le
  | @mints userId account m unused row enabled type reversalOf createdAt books =>
    have hweigh := (htables books).trans (Database.weigh_apply enabled)
    rw [if_neg (hnot _ (.inl type)), add_zero] at hweigh
    exact .inl hweigh.le
  | @reverses _ _ _ _ _ original m _ found standing type sender window enabled executes books =>
    obtain ⟨note, keyId, executes⟩ := executes
    have hweigh := (htables books).trans (Database.weigh_apply enabled)
    rw [if_neg (hnot _ (.inr executes.type)), add_zero] at hweigh
    exact .inl (hweigh.le.trans (hp.weigh_setTransfer hw))

end

/-! ### The daily cap -/

/-- What an account has sent in an interval, less what was reversed. -/
def Database.spentBetween (d : Database) (accountId : Uuid) (a b : ℤ) : ℤ :=
  d.weigh (fun t => Database.isOutbound accountId a t && decide ((t.createdAt : ℤ) ≤ b))
    Transfer.amountMinor

/-- No transaction reads the daily total of an account while another one that has read it is still
open. -/
def SpendsApart (s : State) : Step → Prop
  | .step i x => ∀ accountId, .spend accountId ∈ s.acquires i x →
    s.takenByOthers i (.spend accountId) = false
  | _ => True

/-- The marks that this condition watches. -/
def IsSpend (l : Token) : Prop := ∃ accountId, l = .spend accountId

lemma SpendsApart.admits {s : State} {e : Step} (h : SpendsApart s e) :
    Admits IsSpend (fun _ _ _ => True) s e := by
  cases e with
  | step i x =>
    intro ss _ l hl
    refine ⟨trivial, ?_⟩
    rintro ⟨accountId, rfl⟩
    exact h accountId hl
  | _ => trivial

/-- Non-negative amounts, and no more than the limit in any interval of one day. -/
structure DailyCapped (P : Platform) (d : Database) : Prop where
  unsigned : Unsigned d
  capped : ∀ accountId a, d.spentBetween accountId a (a + secondsPerDay * microsPerSecond) ≤
    P.config.dailyTransferLimitMinor

lemma windowed_spent (accountId : Uuid) (a b : ℤ) :
    Windowed (fun t => Database.isOutbound accountId a t && decide ((t.createdAt : ℤ) ≤ b))
      Transfer.amountMinor where
  payment t h := by
    simp only [Database.isOutbound, Bool.and_eq_true, decide_eq_true_eq] at h
    exact h.1.2.1
  reversed t h := by
    simp [Database.isOutbound] at h
  weight _ := rfl

/-- The step lemma. -/
lemma DailyCapped.step {P : Platform} {now : Timestamp} {call : Call} {x y : Database}
    (h : DailyCapped P x) (hstep : Moves P IsSpend (fun _ _ _ => True) now call x y) :
    DailyCapped P y := by
  refine ⟨hstep.unsigned h.unsigned, fun accountId a => ?_⟩
  rcases hstep.weigh (windowed_spent accountId a (a + secondsPerDay * microsPerSecond)) h.unsigned
    with hle | ⟨m, hm, hnow, -, hcapped, heq⟩
  · exact hle.trans (h.capped accountId a)
  · simp only [Database.isOutbound, Bool.and_eq_true, decide_eq_true_eq] at hm
    obtain ⟨⟨haccount, -, -, hfrom⟩, hto⟩ := hm
    rw [hnow] at hfrom hto
    have hid : m.sender.id = accountId := m.source.symm.trans haccount
    -- Whatever lies in the interval lies in the window that the payment looked at.
    have hseen : x.spentBetween accountId a (a + secondsPerDay * microsPerSecond) ≤
        x.outboundTotal accountId (windowStart now secondsPerDay) := by
      refine Database.weigh_mono (fun t ht => ?_) h.unsigned
      simp only [Database.isOutbound, Bool.and_eq_true, decide_eq_true_eq] at ht ⊢
      obtain ⟨⟨h₁, h₂, h₃, h₄⟩, -⟩ := ht
      refine ⟨h₁, h₂, h₃, ?_⟩
      unfold windowStart
      linarith
    have hlimit := hcapped ⟨_, rfl⟩ h.unsigned
    rw [hid] at hlimit
    change y.spentBetween accountId a _ = _ at heq
    change x.weigh _ _ ≤ _ at hseen
    rw [heq]
    linarith

/-- Where the reads of an account's total never overlap, the cap holds in every state. -/
theorem daily_cap {P : Platform} {s : State} (h : ReachableIf P SpendsApart s) (accountId : Uuid)
    (a : ℤ) : s.db.spentBetween accountId a (a + secondsPerDay * microsPerSecond) ≤
      P.config.dailyTransferLimitMinor := by
  have hsound := h.sound fun _ _ he => SpendsApart.admits he
  have hseed : DailyCapped P seed := ⟨nofun, fun _ _ => Int.natCast_nonneg _⟩
  have hcapped : DailyCapped P s.db :=
    hsound.invariant hseed fun _ _ _ _ hstep hx => hx.step hstep.performs.moves
  exact hcapped.capped accountId a

/-- The condition, as a test. -/
def spendsApart (s : State) : Step → Bool
  | .step i x => (s.acquires i x).all fun
    | .spend accountId => !s.takenByOthers i (.spend accountId)
    | _ => true
  | _ => true

lemma spendsApart_spec (s : State) (e : Step) (h : spendsApart s e = true) : SpendsApart s e := by
  cases e with
  | step i x =>
    intro accountId hl
    have hall := List.all_eq_true.mp h _ hl
    simpa using hall
  | _ => trivial

/-- A platform whose daily limit is 80,000.00. -/
def frugal : Platform := { sample with config := { dailyTransferLimitMinor := 8000000 } }

/-- Asha accepts two requests of 50,000.00, and both transactions read before either commits. -/
def racingRun : List Step :=
  session 0 100 asha ++ session 1 200 babu ++
    session 2 300 (.createRequest 200 "k" ⟨"01711111111", 5000000, none, 7⟩ .null {}) ++
    session 3 400 (.createRequest 200 "l" ⟨"01711111111", 5000000, none, 7⟩ .null {}) ++
    [.begin (.acceptRequest 100 304 "m" .null {}), .begin (.acceptRequest 100 404 "n" .null {})] ++
    advance 4 5 500 ++ advance 5 5 600 ++ advance 4 40 700 ++ [.finish 4] ++ advance 5 40 800 ++
    [.finish 5]

/-- If the second one has to wait with its reading, it is refused. -/
theorem daily_cap_racingRun :
    (State.afterIf frugal spendsApart racingRun).history.map Commit.session = [0, 1, 2, 3, 4] ∧
      (State.afterIf frugal spendsApart racingRun).db.spentBetween 101 1800000000000000
        (1800000000000000 + secondsPerDay * microsPerSecond) ≤
          frugal.config.dailyTransferLimitMinor :=
  ⟨by decide +kernel, daily_cap (reachableIf_afterIf spendsApart_spec frugal racingRun) _ _⟩

/-- As it is, both commit, and the cap is broken. -/
theorem daily_cap_fails : ¬ ∀ s, Reachable frugal s → ∀ accountId a,
    s.db.spentBetween accountId a (a + secondsPerDay * microsPerSecond) ≤
      frugal.config.dailyTransferLimitMinor := by
  intro h
  have hspent := h _ (reachable_after frugal racingRun) 101 1800000000000000
  exact absurd hspent (by decide +kernel)

/-! ### The velocity limit -/

/-- How many counted payments an account has made in an interval. -/
def Database.paymentsBetween (d : Database) (accountId : Uuid) (a b : ℤ) : ℕ :=
  (d.transfers.rows.filter fun t =>
    Database.isCounted accountId a t && decide ((t.createdAt : ℤ) ≤ b)).length

/-- The velocity limit leaves room for one more payment. -/
def HasRoom (P : Platform) (now : Timestamp) (d : Database) (accountId : Uuid) : Prop :=
  (d.countedTransfers accountId (windowStart now P.policy.windowSeconds)).length <
    P.policy.maxTransfers

/-- What `enforceVelocity` would check: a settlement is only inserted where the limit leaves room,
and no transaction counts the payments of an account or adds one to them while another one that
has done so is still open. -/
def SettlesInPace (P : Platform) (s : State) : Step → Prop
  | .step i x => ∀ ss, s.sessions[i]? = some ss → ∀ accountId,
    (.pace accountId ∈ s.acquires i x → s.takenByOthers i (.pace accountId) = false) ∧
      (.settle accountId ∈ s.acquires i x → HasRoom P ss.ctx.now s.db accountId)
  | _ => True

/-- The marks that this condition watches, and what it promises of settlements. -/
def IsPace (l : Token) : Prop := ∃ accountId, l = .pace accountId

def SettlesWithRoom (P : Platform) (now : Timestamp) (d : Database) (l : Token) : Prop :=
  ∀ accountId, l = .settle accountId → HasRoom P now d accountId

lemma SettlesInPace.admits {P : Platform} {s : State} {e : Step} (h : SettlesInPace P s e) :
    Admits IsPace (SettlesWithRoom P) s e := by
  cases e with
  | step i x =>
    intro ss hss l hl
    constructor
    · rintro accountId rfl
      exact (h ss hss accountId).2 hl
    · rintro ⟨accountId, rfl⟩
      exact (h ss hss accountId).1 hl
  | _ => trivial

/-- No more payments than the limit in any interval of the window's length. -/
def Unhurried (P : Platform) (d : Database) : Prop :=
  ∀ accountId a, d.paymentsBetween accountId a
    (a + P.policy.windowSeconds * microsPerSecond) ≤ P.policy.maxTransfers

lemma windowed_counted (accountId : Uuid) (a b : ℤ) :
    Windowed (fun t => Database.isCounted accountId a t && decide ((t.createdAt : ℤ) ≤ b))
      fun _ => 1 where
  payment t h := by
    simp only [Database.isCounted, Bool.and_eq_true, decide_eq_true_eq] at h
    rcases h.1.2.1 with htype | htype
    · exact .inl htype
    · exact .inr (.inl htype)
  reversed t h := h
  weight _ := rfl

lemma weigh_one (d : Database) (p : Transfer → Bool) :
    d.weigh p (fun _ => 1) = (d.transfers.rows.filter p).length := by
  simp [Database.weigh]

/-- A payment that was let pass had room. -/
lemma Authorized.hasRoom {P : Platform} {now : Timestamp} {x : Database} {m : Movement}
    (h : Authorized P IsPace (SettlesWithRoom P) now x m m.transfer.type)
    (htype : m.transfer.type = .p2p ∨ m.transfer.type = .requestSettlement) :
    HasRoom P now x m.sender.id := by
  generalize m.transfer.type = type at h htype
  cases h with
  | sent within paced => exact paced ⟨_, rfl⟩
  | settles found amount settles =>
    obtain ⟨d₀, hroom, hle⟩ := settles ⟨_, rfl⟩
    exact Nat.lt_of_le_of_lt (hle _) (hroom _ rfl)
  | scheduled found amount => simp at htype

/-- The step lemma. -/
lemma Unhurried.step {P : Platform} {now : Timestamp} {call : Call} {x y : Database}
    (h : Unhurried P x) (hstep : Moves P IsPace (SettlesWithRoom P) now call x y) :
    Unhurried P y := by
  intro accountId a
  have hold := h accountId a
  rcases hstep.weigh (windowed_counted accountId a (a + P.policy.windowSeconds * microsPerSecond))
      (fun _ _ => Int.one_nonneg) with hle | ⟨m, hm, hnow, hauthorized, -, heq⟩
  · rw [weigh_one, weigh_one] at hle
    exact (Int.ofNat_le.mp hle).trans hold
  · simp only [Database.isCounted, Bool.and_eq_true, decide_eq_true_eq] at hm
    obtain ⟨⟨haccount, htype, hfrom⟩, hto⟩ := hm
    rw [hnow] at hfrom hto
    have hid : m.sender.id = accountId := m.source.symm.trans haccount
    have hroom := hauthorized.hasRoom htype
    rw [hid, HasRoom] at hroom
    have hseen : x.weigh (fun t => Database.isCounted accountId a t &&
        decide ((t.createdAt : ℤ) ≤ a + P.policy.windowSeconds * microsPerSecond)) (fun _ => 1) ≤
        x.weigh (Database.isCounted accountId (windowStart now P.policy.windowSeconds))
          fun _ => 1 := by
      refine Database.weigh_mono (fun t ht => ?_) fun _ _ => Int.one_nonneg
      simp only [Database.isCounted, Bool.and_eq_true, decide_eq_true_eq] at ht ⊢
      obtain ⟨⟨h₁, h₂, h₃⟩, -⟩ := ht
      refine ⟨h₁, h₂, ?_⟩
      unfold windowStart
      linarith
    rw [weigh_one, weigh_one] at heq
    rw [weigh_one, weigh_one] at hseen
    change (_ : ℤ) ≤ ((x.countedTransfers accountId _).length : ℤ) at hseen
    unfold Database.paymentsBetween
    omega

/-- Where settlements keep the pace, the limit holds in every state. -/
theorem velocity_limit {P : Platform} {s : State} (h : ReachableIf P (SettlesInPace P) s)
    (accountId : Uuid) (a : ℤ) : s.db.paymentsBetween accountId a
      (a + P.policy.windowSeconds * microsPerSecond) ≤ P.policy.maxTransfers := by
  have hsound := h.sound fun _ _ he => SettlesInPace.admits he
  have hseed : Unhurried P seed := fun _ _ => Nat.zero_le _
  have hunhurried : Unhurried P s.db :=
    hsound.invariant hseed fun _ _ _ _ hstep hx => hx.step hstep.performs.moves
  exact hunhurried accountId a

/-- The condition, as a test. -/
def settlesInPace (P : Platform) (s : State) : Step → Bool
  | .step i x => (s.sessions[i]?).all fun ss => (s.acquires i x).all fun
    | .pace accountId => !s.takenByOthers i (.pace accountId)
    | .settle accountId =>
      decide ((s.db.countedTransfers accountId
        (windowStart ss.ctx.now P.policy.windowSeconds)).length < P.policy.maxTransfers)
    | _ => true
  | _ => true

lemma settlesInPace_spec {P : Platform} (s : State) (e : Step) (h : settlesInPace P s e = true) :
    SettlesInPace P s e := by
  cases e with
  | step i x =>
    intro ss hss accountId
    simp only [settlesInPace, hss, Option.all_some, List.all_eq_true] at h
    constructor
    · intro hl
      simpa using h _ hl
    · intro hl
      simpa [HasRoom] using h _ hl
  | _ => trivial

/-- Asha accepts four requests within a minute. -/
def hurriedRun : List Step :=
  session 0 100 asha ++ session 1 200 babu ++
    (List.range 4).flatMap fun j =>
      session (2 * j + 2) (300 + 100 * j)
        (.createRequest 200 (toString j) ⟨"01711111111", 2500, none, 7⟩ .null {}) ++
      session (2 * j + 3) (700 + 100 * j) (.acceptRequest 100 (304 + 100 * j) (toString j) .null {})

/-- If the fourth one has to wait, the limit holds. -/
theorem velocity_limit_hurriedRun :
    (State.afterIf sample (settlesInPace sample) hurriedRun).db.transfers.rows.length = 5 ∧
      (State.afterIf sample (settlesInPace sample) hurriedRun).db.paymentsBetween 101
        1800000000000000 (1800000000000000 + sample.policy.windowSeconds * microsPerSecond) ≤
          sample.policy.maxTransfers :=
  ⟨by decide +kernel, velocity_limit (reachableIf_afterIf settlesInPace_spec sample hurriedRun) _ _⟩

/-- As it is, all four commit, one more than the limit. -/
theorem velocity_limit_fails : ¬ ∀ s, Reachable sample s → ∀ accountId a,
    s.db.paymentsBetween accountId a (a + sample.policy.windowSeconds * microsPerSecond) ≤
      sample.policy.maxTransfers := by
  intro h
  have hpaid := h _ (reachable_after sample hurriedRun) 101 1800000000000000
  exact absurd hpaid (by decide +kernel)

end TakaFlow
