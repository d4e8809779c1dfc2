import TakaFlow.Splits
import TakaFlow.Spec.Requests

/-!
# What creating a split commits
-/

namespace TakaFlow

open Txn

variable {watched : Token → Prop} {may : ℕ → Database → Token → Prop}

/-- Several requests, one after the other. -/
def Database.insertRequests (d : Database) (rows : List MoneyRequest) : Database :=
  rows.foldl Database.insertRequest d

lemma Database.insertRequests_append (d : Database) (rows : List MoneyRequest) (r : MoneyRequest) :
    d.insertRequests (rows ++ [r]) = (d.insertRequests rows).insertRequest r := by
  simp [insertRequests]

lemma Database.has_insertRequests (d : Database) (rows : List MoneyRequest) (i : ℕ) :
    (d.insertRequests rows).moneyRequests.has i =
      (d.moneyRequests.has i || decide (i ∈ rows.map MoneyRequest.id)) := by
  induction rows generalizing d with
  | nil => simp [insertRequests]
  | cons r rows ih =>
    change ((d.insertRequest r).insertRequests rows).moneyRequests.has i = _
    rw [ih, show (d.insertRequest r).moneyRequests.has i = (d.moneyRequests.has i ||
      decide (r.id = i)) from Table.has_insert, Bool.or_assoc]
    simp [eq_comm]

/-- No other table changes. -/
lemma Database.insertRequests_rest (d : Database) (rows : List MoneyRequest) :
    d.insertRequests rows =
      { d with moneyRequests := (d.insertRequests rows).moneyRequests } := by
  induction rows generalizing d with
  | nil => rfl
  | cons r rows ih => exact ih (d.insertRequest r)

/-- Only the requests matter to the requests. -/
lemma Database.insertRequests_congr {x y : Database} (rows : List MoneyRequest)
    (h : x.moneyRequests = y.moneyRequests) :
    (x.insertRequests rows).moneyRequests = (y.insertRequests rows).moneyRequests := by
  induction rows generalizing x y with
  | nil => exact h
  | cons r rows ih => exact ih (congrArg (fun t => t.insert r) h)

lemma Notes.insertRequest {now : Timestamp} {contents : List Content} {x y : Database}
    (h : Notes now contents x y) (r : MoneyRequest) :
    Notes now contents (x.insertRequest r) (y.insertRequest r) where
  rest := by
    rw [h.rest]
    rfl
  events := h.events

/-- Everybody the split asks for money, with what is asked. -/
structure Asked (now : Timestamp) (creatorUserId : Uuid) (split : BillSplit)
    (expiresAt : Timestamp) (legs : List (PayeeAccount × ℤ)) (created : List MoneyRequest) :
    Prop where
  legs : created.map (fun r => (r.payerUserId, r.amountMinor)) =
    legs.map fun leg => (leg.1.userId, leg.2)
  rows : ∀ r ∈ created, r = newRequest r.id creatorUserId r.payerUserId r.amountMinor
    (some split.description) expiresAt now (some split.id)

/-- The row of a split as it is created. -/
def newSplit (id creatorUserId : Uuid) (input : CreateSplitInput) (now : Timestamp) : BillSplit :=
  { id
    creatorUserId
    totalAmountMinor := input.totalAmountMinor
    description := input.description
    participantCount := input.participants.length + if input.includeSelf then 1 else 0
    createdAt := now }

/-- The commit of a `createSplit` of its own key. -/
structure SplitCreated (now : Timestamp) (creatorUserId : Uuid) (input : CreateSplitInput)
    (shares : List ℤ) (payers : List PayeeAccount) (split : BillSplit)
    (created : List MoneyRequest) (x y : Database) : Prop where
  resolved : payers.length = input.participants.length
  known : ∀ p ∈ payers, Owns p.userId p.accountId x
  others : ∀ p ∈ payers, p.userId ≠ creatorUserId
  row : split = newSplit split.id creatorUserId input now
  splitUnused : x.billSplits.has split.id = false
  asked : ∃ t, now ≤ t ∧ Asked now creatorUserId split
    (expiryAfter (toMillis t) input.expiresInDays) (payers.zip shares) created
  unused : ∀ r ∈ created, x.moneyRequests.has r.id = false
  apart : (created.map MoneyRequest.id).Nodup
  notes : Notes now (created.map fun r => r.event .requestCreated)
    ((x.insertSplit split).insertRequests created) y

section rules

variable {c₀ c : Ctx Database Token Hook} {P₀ P : Database → Prop} {d : Database}
  {l : List Token} {w : Database → Database} {hs : List Hook}
  {R : Error → Ctx Database Token Hook → Database → Prop}

/-- Where the loop over the legs is: these requests and their events are inserted. -/
def Asking (watched : Token → Prop) (may : ℕ → Database → Token → Prop)
    (c₀ : Ctx Database Token Hook) (P₀ : Database → Prop) (w : Database → Database)
    (hs : List Hook) (P : Database → Prop) (created : List MoneyRequest)
    (c : Ctx Database Token Hook) (d : Database) : Prop :=
  ∃ l w' P', Doing watched may c₀ P₀ c d l w' hs P' ∧ ∀ d, P' d → P d ∧
    (∀ r ∈ created, (w (c₀.write d)).moneyRequests.has r.id = false) ∧
    (created.map MoneyRequest.id).Nodup ∧
    Notes c₀.now (created.map fun r => r.event .requestCreated)
      ((w (c₀.write d)).insertRequests created) (w' (c₀.write d))

lemma wp_insertLeg {creatorUserId : Uuid} {creator : User} {split : BillSplit}
    {expiresAt : Timestamp} {legs : List (PayeeAccount × ℤ)} {leg : PayeeAccount × ℤ}
    (hR : Throws R c₀ P₀)
    (h : ∃ created, Asked c₀.now creatorUserId split expiresAt legs created ∧
      Asking watched may c₀ P₀ w hs P created c d) :
    wp (discipline watched may) (insertLeg creatorUserId creator split expiresAt leg)
      (fun _ c d => ∃ created,
        Asked c₀.now creatorUserId split expiresAt (legs ++ [leg]) created ∧
          Asking watched may c₀ P₀ w hs P created c d) R c d := by
  obtain ⟨created, hasked, l, w', P', hd, hP'⟩ := h
  simp only [insertLeg, Program.bind_eq, Program.pure_eq, wp_bind]
  refine wp_insertRow grows_insertRequest (fun _ => framed_insertRequest (by simp)) hR hd
    fun c d x hd => ?_
  refine wp_enqueueEvent hR hd fun c d e he ht hd => ?_
  refine ⟨created ++ [newRequest x.uuid creatorUserId leg.1.userId leg.2 (some split.description)
    expiresAt c₀.now (some split.id)], ⟨?_, ?_⟩, _, _, _, hd, ?_⟩
  · simp [hasked.legs, newRequest]
  · intro r hr
    rcases List.mem_append.mp hr with hr | hr
    · exact hasked.rows r hr
    · cases List.mem_singleton.mp hr
      rfl
  · rintro d ⟨⟨hp, hunused⟩, hevent⟩
    obtain ⟨hp, hfresh, hnodup, hnotes⟩ := hP' d hp
    -- The identifier is unused in the view, so it is new among the requests of this split.
    have hnew : (((w (c₀.write d)).insertRequests created).moneyRequests.has x.uuid) = false := by
      rw [← hnotes.moneyRequests]
      exact hunused
    rw [Database.has_insertRequests, Bool.or_eq_false_iff, decide_eq_false_iff_not] at hnew
    refine ⟨hp, fun r hr => ?_, ?_, ?_⟩
    · rcases List.mem_append.mp hr with hr | hr
      · exact hfresh r hr
      · cases List.mem_singleton.mp hr
        exact hnew.1
    · rw [List.map_append, List.nodup_append]
      refine ⟨hnodup, List.pairwise_singleton _ _, fun i hi j hj hij => hnew.2 ?_⟩
      rw [List.map_singleton, List.mem_singleton] at hj
      rwa [hij, hj] at hi
    · rw [List.map_append, Database.insertRequests_append]
      have hc : e.content = ⟨.requestCreated, "money_request", x.uuid, amountText leg.2⟩ := by
        rw [OutboxEvent.content, he.1, he.2.1, he.2.2.1, he.2.2.2]
        rfl
      exact (hnotes.insertRequest _).trans (.event hc ht hevent)

lemma wp_insertLegs {creatorUserId : Uuid} {creator : User} {split : BillSplit}
    {expiresAt : Timestamp} {legs : List (PayeeAccount × ℤ)}
    (hR : Throws R c₀ P₀) (h : Doing watched may c₀ P₀ c d l w hs P) :
    wp (discipline watched may) (forEach legs (insertLeg creatorUserId creator split expiresAt))
      (fun _ c d => ∃ created, Asked c₀.now creatorUserId split expiresAt legs created ∧
        Noting watched may c₀ P₀
          (created.map fun r => r.event .requestCreated)
          (fun x => (w x).insertRequests created) hs
          (fun d => P d ∧ (∀ r ∈ created, (w (c₀.write d)).moneyRequests.has r.id = false) ∧
            (created.map MoneyRequest.id).Nodup) c d) R c d := by
  have hloop := wp_forEach (R := R)
    (f := insertLeg creatorUserId creator split expiresAt) legs
    (I := fun legs _ c d => ∃ created,
      Asked c₀.now creatorUserId split expiresAt legs created ∧
        Asking watched may c₀ P₀ w hs P created c d)
    (fun _ _ _ _ _ hn => wp_insertLeg hR hn)
    ⟨[], ⟨rfl, by simp⟩, l, w, P, h, fun d hp => ⟨hp, by simp, by simp, .refl⟩⟩
  refine wp_mono (fun _ c d hn => ?_) (fun _ _ _ h => h) hloop
  obtain ⟨created, hasked, l, w', P', hd, hP'⟩ := hn
  refine ⟨created, hasked, l, w', hs, P', hd, .refl hs, fun d hp => ?_⟩
  obtain ⟨hp, hfresh, hnodup, hnotes⟩ := hP' d hp
  exact ⟨⟨hp, hfresh, hnodup⟩, hnotes⟩

lemma wp_resolvePayers {creatorUserId : Uuid} {participants : List Participant}
    (hsame : ∀ d, (w (c₀.write d)).accounts = d.accounts)
    (hR : Throws R c₀ P₀) (h : Doing watched may c₀ P₀ c d l w hs P) :
    wp (discipline watched may) (forEach participants (resolvePayer creatorUserId))
      (fun payers c d => payers.length = participants.length ∧
        (∀ p ∈ payers, p.userId ≠ creatorUserId) ∧ Doing watched may c₀ P₀ c d l w hs fun d =>
          P d ∧ ∀ p ∈ payers, Owns p.userId p.accountId d) R c d := by
  refine wp_forEach (R := R) participants (I := fun as (bs : List PayeeAccount) c d =>
      bs.length = as.length ∧ (∀ p ∈ bs, p.userId ≠ creatorUserId) ∧
        Doing watched may c₀ P₀ c d l w hs fun d => P d ∧ ∀ p ∈ bs, Owns p.userId p.accountId d)
    (fun as bs a c d ⟨hlength, hothers, hd⟩ => ?_)
    ⟨rfl, by simp, h.congr fun _ => by simp⟩
  simp only [resolvePayer, Program.bind_eq, Program.pure_eq, wp_bind]
  refine wp_requirePayee hsame hR hd fun d payer _ hd' => ?_
  refine wp_require hR hd' fun hother => ⟨by simp [hlength], fun p hp => ?_, ?_⟩
  · rcases List.mem_append.mp hp with hp | hp
    · exact hothers p hp
    · cases List.mem_singleton.mp hp
      exact hother
  · refine hd'.congr fun d => ?_
    simp only [List.mem_append, List.mem_singleton, or_imp, forall_and, forall_eq, and_assoc]

end rules

lemma wp_createSplitWork {creatorUserId : Uuid} {input : CreateSplitInput} {shares : List ℤ}
    {context : RequestContext} {now : Timestamp} {r : IdempotencyKey} {d : Database}
    (h : Claiming watched may now r d) :
    wp (discipline watched may) (createSplitWork creatorUserId input shares context)
      (Worked watched may now r fun _ x y => ∃ payers split created,
        SplitCreated now creatorUserId input shares payers split created x y)
      (fun _ _ _ => True) (claimed now r) d := by
  have hR := Throws.of_true (ε := Error) (claimed now r) (Unclaimed r)
  simp only [createSplitWork, Program.bind_eq, Program.pure_eq, wp_bind]
  refine wp_findUserById hR h fun d hd => wp_orFail hR hd fun creator _ => ?_
  refine wp_mono (fun payers c d hn => ?_) (fun _ _ _ h => h)
    (wp_resolvePayers (fun _ => rfl) hR hd)
  obtain ⟨hlength, hothers, hd⟩ := hn
  refine wp_insertRow grows_insertSplit (fun _ => framed_insertSplit (by simp)) hR hd
    fun c d x hd => ?_
  refine wp_dateNow hd fun t y ht => ?_
  refine wp_mono (fun legs c d hn => ?_) (fun _ _ _ h => h) (wp_insertLegs hR hd)
  obtain ⟨created, hasked, hn⟩ := hn
  refine hn.insertAuditLog hR fun c d a hn => ?_
  refine hn.worked (fun z => ?_) (fun _ _ => .nil _) fun d z hp hnotes =>
    ⟨payers, newSplit x.uuid creatorUserId input now, created, ?_⟩
  · rw [Database.insertRequests_rest]
    rfl
  obtain ⟨⟨⟨-, hknown⟩, hsplit⟩, hfresh, hnodup⟩ := hp
  exact
    { resolved := hlength
      known := hknown
      others := hothers
      row := rfl
      splitUnused := hsplit
      asked := ⟨t, ht, hasked⟩
      unused := hfresh
      apart := hnodup
      notes := hnotes }

end TakaFlow
