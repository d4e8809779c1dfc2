import TakaFlow.Safety.RequestLife
import TakaFlow.Safety.Reversal
import TakaFlow.SplitViews

/-!
# The progress of a split

Both views of a split report the legs that were accepted. That is the money its creator got back as
long as nobody reverses the settlement of a leg.
-/

namespace TakaFlow

open Txn

/-! ### What was got back -/

namespace Database

variable (d : Database) (splitId : Uuid)

/-- The transfer that settled a request. -/
def settlementOf (r : MoneyRequest) : Option Transfer :=
  r.settledTransferId.bind d.transfers.get?

/-- The transfers that settled legs of the split. -/
def settlementsOf : List Transfer := (d.legsOf splitId).filterMap d.settlementOf

/-- The total of those that still stand. -/
def gotBack : ℤ :=
  (((d.settlementsOf splitId).filter fun t => t.status ≠ .reversed).map Transfer.amountMinor).sum

/-- What was asked for. -/
def askedFor : ℤ := ((d.legsOf splitId).map MoneyRequest.amountMinor).sum

/-- What the legs say was paid. -/
def acceptedTotal : ℤ :=
  (((d.legsOf splitId).filter fun r => r.status = .accepted).map MoneyRequest.amountMinor).sum

/-- Every settlement of a leg stands. -/
def SettlementsStand : Prop :=
  ∀ r ∈ d.moneyRequests, r.splitId.isSome → ∀ t ∈ d.transfers, r.settledTransferId = some t.id →
    t.status = .completed

/-- Accounts belong to users, and legs are to be paid by users. -/
structure Peopled : Prop where
  owners : ∀ a ∈ d.accounts, ∀ userId, a.userId = some userId → d.users.has userId = true
  payers : ∀ r ∈ d.moneyRequests, r.splitId.isSome → d.users.has r.payerUserId = true

end Database

/-- The view reports what was got back, and what of the asked amount was not. -/
structure Shows (d : Database) (splitId : Uuid) (dto : Json) : Prop where
  id : dto.field "id" = some (.uuid splitId)
  collected : dto.field "collected" = some (money (d.gotBack splitId))
  outstanding : dto.field "outstanding" = some (money (d.askedFor splitId - d.gotBack splitId))

/-! ### The two views -/

section

variable {d : Database} {splitId : Uuid}

/-- Each leg is one row of `listLegs`. -/
lemma Database.Peopled.map_legRows (h : d.Peopled) :
    (d.legRows splitId).map (fun row => row.1.1) = d.legsOf splitId := by
  have hjoin : (Sql.join (fun r u => decide (u.id = r.payerUserId)) (d.legsOf splitId)
      d.users.rows).map Prod.fst = d.legsOf splitId := by
    refine Sql.map_fst_join fun r hr => ?_
    obtain ⟨hmem, hsplit⟩ := List.mem_filter.mp hr
    have hsome : r.splitId.isSome := by rw [of_decide_eq_true hsplit]; rfl
    obtain ⟨u, hu⟩ := Option.isSome_iff_exists.mp (h.payers r hmem hsome)
    exact ⟨u, by rw [Table.filter_key, hu]; rfl⟩
  have hleft : (d.legRows splitId).map Prod.fst = Sql.join
      (fun r u => decide (u.id = r.payerUserId)) (d.legsOf splitId) d.users.rows := by
    refine Sql.map_fst_leftJoin fun q _ => ?_
    cases hid : q.1.settledTransferId with
    | none => simp
    | some id =>
      simp only [Option.some.injEq, eq_comm (a := id)]
      rw [Table.filter_key]
      cases d.transfers.get? id <;> simp
  calc (d.legRows splitId).map (fun row => row.1.1)
      = ((d.legRows splitId).map Prod.fst).map Prod.fst := (List.map_map).symm
    _ = d.legsOf splitId := by rw [hleft, hjoin]

/-- The legs tell the amounts and how they ended. -/
lemma Database.Peopled.map_listLegs (h : d.Peopled) (splitId : Uuid)
    (collate : String → String → Bool) :
    ((listLegs collate splitId d).map fun leg => (leg.amountMinor, leg.status)).Perm
      ((d.legsOf splitId).map fun r => (r.amountMinor, r.status)) := by
  rw [← h.map_legRows, listLegs, List.map_map, List.map_map]
  exact (List.perm_insertionSort _ _).map _

lemma Database.Peopled.sum_listLegs (h : d.Peopled) (splitId : Uuid)
    (collate : String → String → Bool) :
    ((listLegs collate splitId d).map SplitLeg.amountMinor).sum = d.askedFor splitId := by
  have hperm := (h.map_listLegs splitId collate).map Prod.fst
  rw [List.map_map, List.map_map] at hperm
  exact hperm.sum_eq

lemma Database.Peopled.sum_accepted (h : d.Peopled) (splitId : Uuid)
    (collate : String → String → Bool) :
    (((listLegs collate splitId d).filter fun leg => leg.status = .accepted).map
      SplitLeg.amountMinor).sum = d.acceptedTotal splitId := by
  have hperm := ((h.map_listLegs splitId collate).filter
    fun q => q.2 = RequestStatus.accepted).map Prod.fst
  rw [List.filter_map, List.filter_map, List.map_map, List.map_map] at hperm
  exact hperm.sum_eq

/-- A summary adds up the legs of its split. -/
lemma summary_of_mem {creatorUserId : Uuid} {limit : ℕ} {row : SplitSummary}
    (h : row ∈ d.splitSummaries creatorUserId limit) :
    row.requestedMinor = d.askedFor row.split.id ∧
      row.collectedMinor = d.acceptedTotal row.split.id ∧
      row.outstandingMinor = row.requestedMinor - row.collectedMinor := by
  have hrow := (List.mem_insertionSort _).mp (List.mem_of_mem_take h)
  obtain ⟨g, hg, rfl⟩ := List.mem_map.mp hrow
  have hgroups : ∀ g ∈ Sql.groupBy Prod.fst (Sql.leftJoin (fun (s : BillSplit) r =>
      r.splitId = some s.id) (d.billSplits.rows.filter fun s => s.creatorUserId = creatorUserId)
      d.moneyRequests.rows), g.2 = Sql.leftJoin (fun (s : BillSplit) r =>
        decide (r.splitId = some s.id)) [g.1] d.moneyRequests.rows := by
    refine (Sql.forall_mem_groupBy _ _ (p := fun s rows => rows = Sql.leftJoin
      (fun (s : BillSplit) r => decide (r.splitId = some s.id)) [s] d.moneyRequests.rows)).mpr ?_
    intro q hq
    have hmem := Sql.mem_fst_leftJoin.mp (List.mem_map_of_mem hq)
    have hnodup : ((d.billSplits.rows.filter fun s =>
        s.creatorUserId = creatorUserId).map id).Nodup := by
      rw [List.map_id]
      exact (List.Nodup.of_map _ d.billSplits.nodup).filter _
    rw [Sql.filter_leftJoin fun s => decide (s = q.1)]
    congr 1
    exact Sql.filter_eq_singleton hnodup hmem
  have hrows := hgroups g hg
  refine ⟨?_, ?_, rfl⟩
  · change Sql.coalesce (Sql.sum (g.2.map fun q => q.2.map MoneyRequest.amountMinor)) 0 = _
    rw [hrows, Sql.coalesce_sum_zero, Sql.reduceOption_leftJoin, List.flatMap_singleton]
    rfl
  · change Sql.coalesce (Sql.sum ((g.2.filter fun q => q.2.any fun r =>
      r.status = .accepted).map fun q => q.2.map MoneyRequest.amountMinor)) 0 = _
    rw [hrows, Sql.coalesce_sum_zero, Sql.filter_snd_leftJoin, List.flatMap_singleton]
    rfl

/-- Where all settlements stand the accepted legs are what was got back. -/
lemma Settlements.acceptedTotal (h : Settlements d) (hstand : d.SettlementsStand) :
    d.acceptedTotal splitId = d.gotBack splitId := by
  have hsub : ∀ r ∈ d.legsOf splitId, r ∈ d.moneyRequests ∧ r.splitId.isSome := by
    intro r hr
    obtain ⟨hmem, hsplit⟩ := List.mem_filter.mp hr
    exact ⟨hmem, by rw [of_decide_eq_true hsplit]; rfl⟩
  unfold Database.acceptedTotal Database.gotBack Database.settlementsOf
  generalize d.legsOf splitId = legs at hsub ⊢
  induction legs with
  | nil => rfl
  | cons r legs ih =>
    specialize ih fun r hr => hsub r (List.mem_cons_of_mem _ hr)
    obtain ⟨hr, hsplit⟩ := hsub r List.mem_cons_self
    cases hid : r.settledTransferId with
    | none =>
      have hstatus : r.status ≠ .accepted := by
        intro hstatus
        have hsome := h.accepted r hr hstatus
        rw [hid] at hsome
        cases hsome
      rw [List.filter_cons_of_neg (by simpa using hstatus),
        List.filterMap_cons_none (f := d.settlementOf) (by rw [Database.settlementOf, hid]; rfl)]
      exact ih
    | some id =>
      obtain ⟨hstatus, t, ht, rfl, hs⟩ := h.settled r hr id hid
      have hstands : t.status ≠ .reversed := by
        rw [hstand r hr hsplit t ht hid]
        nofun
      have hget : d.settlementOf r = some t := by
        rw [Database.settlementOf, hid]
        exact Table.get?_of_mem ht
      rw [List.filter_cons_of_pos (by simpa using hstatus),
        List.filterMap_cons_some hget,
        List.filter_cons_of_pos (by simpa using hstands), List.map_cons, List.map_cons,
        List.sum_cons, List.sum_cons, ih, hs.amountMinor]

/-- What both views show. -/
lemma Database.Peopled.getSplit_shows (h : d.Peopled) (hdb : Settlements d)
    (hstand : d.SettlementsStand) {collate : String → String → Bool} {viewerUserId : Uuid}
    {x : Database} {dto : Json} (hget : getSplit collate viewerUserId splitId x d = .ok dto) :
    Shows d splitId dto := by
  unfold getSplit at hget
  cases hfound : x.billSplits.get? splitId with
  | none =>
    rw [hfound] at hget
    cases hget
  | some split =>
    rw [hfound] at hget
    simp only at hget
    split at hget
    · cases hget
      have hid : split.id = splitId := Table.key_of_get? hfound
      have hcollected := (h.sum_accepted splitId collate).trans
        (hdb.acceptedTotal hstand)
      rw [splitDTO, h.sum_listLegs, hcollected, hid]
      exact ⟨rfl, rfl, rfl⟩
    · cases hget

lemma summaryDTO_shows (hdb : Settlements d) (hstand : d.SettlementsStand) {creatorUserId : Uuid}
    {limit : ℕ} {row : SplitSummary} (h : row ∈ d.splitSummaries creatorUserId limit) :
    Shows d row.split.id (summaryDTO row) := by
  obtain ⟨hrequested, hcollected, houtstanding⟩ := summary_of_mem h
  rw [hdb.acceptedTotal hstand] at hcollected
  rw [hrequested, hcollected] at houtstanding
  rw [summaryDTO, hcollected, houtstanding]
  exact ⟨rfl, rfl, rfl⟩

end

/-! ### What commits preserve -/

section

variable {P : Platform} {watched : Token → Prop} {may : ℕ → Database → Token → Prop}
  {now : Timestamp} {call : Call} {reply : Reply} {x y z : Database}

lemma Movement.owner {m : Movement} (h : m.Enabled x) {a : Account}
    (ha : a ∈ (m.apply x).accounts) : ∃ b ∈ x.accounts, b.userId = a.userId := by
  rcases Movement.account_cases h ha with rfl | rfl | ⟨ha, -⟩
  · exact ⟨m.sender, Table.mem_of_get? h.sender, rfl⟩
  · exact ⟨m.receiver, Table.mem_of_get? h.receiver, rfl⟩
  · exact ⟨a, ha, rfl⟩

/-- An account keeps its owner, and a new one belongs to a user. -/
lemma Effect.owner {contents : List Content} (h : Effect P watched may now call x z contents)
    {a : Account} (ha : a ∈ z.accounts) :
    (∃ b ∈ x.accounts, b.userId = a.userId) ∨
      ∃ userId, a.userId = some userId ∧ z.users.has userId = true := by
  cases h with
  | @registered user account m userUnused unused row enabled =>
    have henabled : m.Enabled ((x.insertUser user).insertAccount account) :=
      enabled.congr rfl rfl rfl
    obtain ⟨b, hb, howner⟩ := Movement.owner henabled ha
    rcases Table.mem_insert_or hb with hb | rfl
    · exact .inl ⟨b, hb, howner⟩
    · refine .inr ⟨user.id, ?_, ?_⟩
      · rw [← howner, row]
        rfl
      · have hhas : (x.users.insert user).has user.id = true := by
          rw [Table.has_insert, decide_eq_true rfl, Bool.or_true]
        exact hhas
  | sent enabled => exact .inl (Movement.owner enabled ha)
  | reversed _ _ _ _ _ _ enabled => exact .inl (Movement.owner enabled ha)
  | accepted _ _ _ _ _ _ _ enabled => exact .inl (Movement.owner enabled ha)
  | paid _ _ upserted _ _ _ enabled =>
    rw [upserted.rest] at ha
    exact .inl (Movement.owner enabled ha)
  | requested =>
    rw [Database.insertRequests_rest] at ha
    exact .inl ⟨a, ha, rfl⟩
  | expired =>
    rw [Database.expire_rest] at ha
    exact .inl ⟨a, ha, rfl⟩
  | deferred _ _ upserted =>
    rw [upserted.rest] at ha
    exact .inl ⟨a, ha, rfl⟩
  | settled _ _ upserted =>
    rw [upserted.rest] at ha
    exact .inl ⟨a, ha, rfl⟩
  | @status b status version =>
    have hget := Table.get?_of_mem ha
    rw [Database.account_setAccount] at hget
    split at hget
    · obtain ⟨c, hc, rfl⟩ := Option.map_eq_some_iff.mp hget
      exact .inl ⟨c, Table.mem_of_get? hc, rfl⟩
    · exact .inl ⟨a, Table.mem_of_get? hget, rfl⟩
  | _ => exact .inl ⟨a, ha, rfl⟩

lemma Later.has_user (h : Later x y) {userId : Uuid} (hx : x.users.has userId = true) :
    y.users.has userId = true := by
  obtain ⟨u, hu⟩ := Option.isSome_iff_exists.mp hx
  have hy := Table.get?_of_mem (h.users u (Table.mem_of_get? hu))
  rw [Table.key_of_get? hu] at hy
  exact Option.isSome_iff_exists.mpr ⟨u, hy⟩

lemma Database.Peopled.step (h : x.Peopled) (hstep : Advances P watched may now call x y) :
    y.Peopled := by
  constructor
  · intro a ha userId howner
    obtain ⟨z, contents, heffect, hcore, -⟩ := hstep.performs
    have haccounts : y.accounts = z.accounts := (congrArg Database.accounts hcore :)
    have husers : y.users = z.users := (congrArg Database.users hcore :)
    rw [haccounts] at ha
    obtain ⟨b, hb, hsame⟩ | ⟨other, hother, huser⟩ := heffect.owner ha
    · exact hstep.later.has_user (h.owners b hb userId (hsame.trans howner))
    · rw [howner] at hother
      cases hother
      rw [husers]
      exact huser
  · intro r hr hsplit
    have hturn := hstep.performs.turn r.id
    rw [Table.get?_of_mem hr] at hturn
    generalize hbefore : x.moneyRequests.get? r.id = before at hturn
    cases hturn with
    | same => exact hstep.later.has_user (h.payers r (Table.mem_of_get? hbefore) hsplit)
    | created pending unsettled bounded payer =>
      obtain ⟨accountId, a, ha, -, howner⟩ := payer hsplit
      exact hstep.later.has_user (h.owners a ha _ howner)
    | @ended r₀ => exact hstep.later.has_user (h.payers r₀ (Table.mem_of_get? hbefore) hsplit)
    | @accepted r₀ => exact hstep.later.has_user (h.payers r₀ (Table.mem_of_get? hbefore) hsplit)

/-- The reference names a standing settlement of a leg. -/
def Database.SettlesLeg (d : Database) (reference : String) : Prop :=
  ∃ t ∈ d.transfers.rows, t.reference = reference ∧ t.status = .completed ∧
    ∃ r ∈ d.moneyRequests.rows, r.splitId.isSome ∧ r.settledTransferId = some t.id

instance (d : Database) (reference : String) : Decidable (d.SettlesLeg reference) :=
  inferInstanceAs (Decidable (∃ t ∈ d.transfers.rows, t.reference = reference ∧
    t.status = .completed ∧ ∃ r ∈ d.moneyRequests.rows, r.splitId.isSome ∧
      r.settledTransferId = some t.id))

/-- The call does not reverse the settlement of a leg. -/
def SparesLegs (call : Call) (_now : Timestamp) (x _y : Database) : Prop :=
  match call with
  | .reverseTransfer _ reference _ _ _ => ¬ x.SettlesLeg reference
  | _ => True

instance (call : Call) (now : Timestamp) (x y : Database) :
    Decidable (SparesLegs call now x y) := by
  unfold SparesLegs
  cases call <;> infer_instance

/-- A commit leaves a transfer as it is, or its call names it for a reversal. -/
lemma CommitSpec.keeps_transfer (h : CommitSpec P watched may now call reply x y) {t : Transfer}
    (ht : t ∈ x.transfers) :
    t ∈ y.transfers ∨ t.status = .completed ∧ ∃ user reference key raw context,
      call = .reverseTransfer user reference key raw context ∧ t.reference = reference := by
  let r : Record := ⟨0, call, now, reply, [], x, y⟩
  have hmoves : Moves P watched may r.now r.call r.before r.after := h.performs.moves
  obtain hkept | ⟨-, u, -, -, -, hreversed⟩ := hmoves.reversedBy ht
  · exact .inl hkept
  · obtain ⟨user, reference, key, raw, context, hcall, -⟩ := hreversed.called
    obtain rfl : call = _ := hcall
    cases h with
    | replay => exact .inl ht
    | fresh hclaim hwork hkeys =>
      obtain ⟨original, m, -, hr⟩ := hwork
      by_cases hid : t.id = original.id
      · obtain rfl := Table.eq_of_mem ht hr.found hid
        exact .inr ⟨hr.standing, user, reference, key, raw, context, rfl, hr.named⟩
      · refine .inl ?_
        rw [hr.notes.rest]
        exact (Movement.mem_transfers hr.enabled).mpr
          (.inl ((Database.mem_setTransfer_reversed hr.found).mpr (.inr ⟨ht, hid⟩)))

lemma Database.SettlementsStand.step (h : x.SettlementsStand) (hdb : Settlements x)
    (hspec : CommitSpec P watched may now call reply x y) (hspares : SparesLegs call now x y) :
    y.SettlementsStand := by
  intro r hr hsplit t ht hid
  cases hdb.origin hspec.performs hr with
  | old found =>
    have hrx := Table.mem_of_get? found
    obtain ⟨-, t₀, ht₀, hid₀, -⟩ := hdb.settled r hrx _ hid
    have hstands := h r hrx hsplit t₀ ht₀ (hid₀.symm ▸ hid)
    obtain hkept | ⟨-, user, reference, key, raw, context, rfl, href⟩ := hspec.keeps_transfer ht₀
    · rw [Table.eq_of_mem ht hkept hid₀.symm]
      exact hstands
    · exact absurd ⟨t₀, ht₀, href, hstands, r, hrx, hsplit, hid₀.symm ▸ hid⟩ hspares
  | unpaid none =>
    rw [none] at hid
    cases hid
  | @paid r₀ m _ settled _ _ _ _ settles =>
    have hmem : m.transfer ∈ y.transfers := by
      rw [settles.transfers]
      exact (Movement.mem_transfers settles.enabled).mpr (.inr rfl)
    rw [settled] at hid
    rw [Table.eq_of_mem ht hmem (Option.some.inj hid).symm]
    exact m.standing

end

/-! ### The guarantee -/

/-- The progress of splits in a state. -/
structure ProgressHolds (s : State) : Prop where
  /-- The split itself may have been read from any other state. -/
  get : ∀ collate viewerUserId splitId x dto,
    getSplit collate viewerUserId splitId x s.db = .ok dto → Shows s.db splitId dto
  list : ∀ creatorUserId limit, ∃ items,
    (listSplits creatorUserId limit s.db).field "items" = some (.arr items) ∧
      List.Forall₂ (fun (row : SplitSummary) => Shows s.db row.split.id)
        (s.db.splitSummaries creatorUserId limit) items

/-- Splits report what was got back as long as no settlement of a leg is reversed. -/
theorem progress_holds {P : Platform} {s : State}
    (h : ReachableIf P (fun s e => s.AtCommit SparesLegs e) s) : ProgressHolds s := by
  have hsound := h.reachable.sound
  obtain ⟨t, hreaches⟩ := h
  have hspares := hreaches.atCommit fun _ _ hok => hok
  have hpeopled : s.db.Peopled := by
    refine hsound.invariant ⟨?_, nofun⟩ fun _ _ _ _ hstep hx => hx.step hstep
    intro a ha userId howner
    obtain ⟨id, -, rfl⟩ := List.mem_map.mp ha
    cases howner
  have hdb : Settlements s.db ∧ s.db.SettlementsStand := by
    refine hsound.linked.invariant (I := fun d => Settlements d ∧ d.SettlementsStand)
      ⟨.seed, nofun⟩ fun r hr hx => ?_
    exact ⟨hx.1.step (hsound.advances hr),
      hx.2.step hx.1 (hsound.commits r hr).1 (hspares r hr)⟩
  constructor
  · intro collate viewerUserId splitId x dto hget
    exact hpeopled.getSplit_shows hdb.1 hdb.2 hget
  · intro creatorUserId limit
    refine ⟨_, rfl, List.forall₂_map_right_iff.mpr (List.forall₂_same.mpr fun row hrow => ?_)⟩
    exact summaryDTO_shows hdb.1 hdb.2 hrow

/-- Babu pays his share of a bill and takes the payment back. -/
def sharedRun : List Step :=
  session 0 100 asha ++ session 1 200 babu ++
    session 2 300 (.createSplit 100 "k"
      { totalAmountMinor := 5000, description := "Lunch",
        participants := [{ phone := "01722222222" }] } .null {}) ++
    .tick (secondsPerDay * microsPerSecond) ::
    session 3 400 (.acceptRequest 200 305 "m" .null {}) ++
    session 4 500 (.reverseTransfer 200 "TF27011600000000" "r" .null {})

/-- The steps that reverse no settlement of a leg. -/
def sparesLegs (s : State) (e : Step) : Bool :=
  s.meetsAtCommit (fun call now x y => decide (SparesLegs call now x y)) e

theorem progress_holds_sharedRun :
    ((State.afterIf sample sparesLegs sharedRun).db.splitSummaries 100 20).map
        (fun row => (row.split.id, row.collectedMinor, row.outstandingMinor)) =
          [(303, 2500, 0)] ∧
      (State.afterIf sample sparesLegs sharedRun).history.map Commit.session = [0, 1, 2, 3] ∧
      ProgressHolds (State.afterIf sample sparesLegs sharedRun) :=
  ⟨by decide +kernel, by decide +kernel, progress_holds (reachableIf_afterIf
    (fun _ _ h => Sys.atCommit_of_meets (fun _ _ _ _ hk => of_decide_eq_true hk) h)
    sample sharedRun)⟩

/-- The share is still shown as collected when the money has gone back. -/
theorem progress_overstated : ∃ s, Reachable sample s ∧
    (∃ row ∈ s.db.splitSummaries 100 20, row.collectedMinor = 2500 ∧
      s.db.gotBack row.split.id = 0) ∧ ¬ ProgressHolds s := by
  have hfound : ((State.after sample sharedRun).db.splitSummaries 100 20).any (fun row =>
      row.collectedMinor = 2500 ∧
        (State.after sample sharedRun).db.gotBack row.split.id = 0) = true := by decide +kernel
  simp only [List.any_eq_true, decide_eq_true_eq] at hfound
  refine ⟨_, reachable_after sample sharedRun, hfound, fun h => ?_⟩
  obtain ⟨row, hrow, hcollected, hgot⟩ := hfound
  obtain ⟨items, hitems, hlist⟩ := h.list 100 20
  obtain rfl := Json.arr.inj (Option.some.inj hitems)
  have hshown := (List.forall₂_same.mp (List.forall₂_map_right_iff.mp hlist) row hrow).collected
  rw [hgot, summaryDTO, hcollected] at hshown
  have hfield : money 2500 = money 0 := Option.some.inj hshown
  have hminor : (money 2500).field "minor" = (money 0).field "minor" := congrArg _ hfield
  have htext : "2500" = "0" := Json.str.inj (Option.some.inj hminor)
  exact absurd htext (by decide)

end TakaFlow
