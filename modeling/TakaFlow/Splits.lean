import TakaFlow.Requests

/-!
# Split bills
-/

namespace TakaFlow

open Txn

/-! ### Allocation -/

/-- `allocateEvenly`: the first shares get the remainder. -/
def allocateEvenly (totalMinor : ℤ) (count : ℕ) : Except String (List ℤ) :=
  if count = 0 then .error "Cannot split between nobody"
  else if totalMinor < 0 then .error "Cannot split a negative amount"
  else
    let base := totalMinor / count
    let remainder := (totalMinor % count).toNat
    .ok ((List.range count).map fun i => if i < remainder then base + 1 else base)

/-- Add one to a share at each of these positions, while anything is left over. -/
def handOut : List ℕ → ℤ → List ℤ → List ℤ
  | [], _, shares => shares
  | i :: rest, leftover, shares =>
    if leftover ≤ 0 then shares
    else handOut rest (leftover - 1) (shares.modify i (· + 1))

/-- `allocateByWeight`: the largest remainders first, ties by position. -/
def allocateByWeight (totalMinor : ℤ) (weights : List ℤ) : Except String (List ℤ) :=
  if weights = [] then .error "Cannot split between nobody"
  else if weights.any (· < 0) then .error "A weight cannot be negative"
  else
    let totalWeight := weights.sum
    if totalWeight = 0 then allocateEvenly totalMinor weights.length
    else
      -- `bigint` division truncates.
      let shares := weights.map fun w => (totalMinor * w).tdiv totalWeight
      let remainders := weights.zipIdx.map fun w => ((totalMinor * w.1).tmod totalWeight, w.2)
      let order := remainders.insertionSort fun a b =>
        if a.1 = b.1 then a.2 ≤ b.2 else b.1 < a.1
      .ok (handOut (order.map Prod.snd) (totalMinor - shares.sum) shares)

/-! ### Create -/

structure Participant where
  phone : String
  weight : Option ℕ := none

structure CreateSplitInput where
  totalAmountMinor : ℤ
  description : String
  participants : List Participant
  includeSelf : Bool := true
  selfWeight : ℕ := 1
  expiresInDays : ℕ := 7

/-- `allocate`: with the creator's own share first, if it is part of the total. -/
def allocate (input : CreateSplitInput) : Except String (List ℤ) :=
  if input.participants.all fun p => p.weight.isSome then
    let weights := input.participants.map fun p => ((p.weight.getD 0 : ℕ) : ℤ)
    allocateByWeight input.totalAmountMinor
      (if input.includeSelf then (input.selfWeight : ℤ) :: weights else weights)
  else
    allocateEvenly input.totalAmountMinor
      (input.participants.length + if input.includeSelf then 1 else 0)

/-- The shares that are requested from the participants. -/
def legShares (input : CreateSplitInput) (shares : List ℤ) : List ℤ :=
  if input.includeSelf then shares.drop 1 else shares

structure SplitLeg where
  requestId : Uuid
  payerUserId : Uuid
  payer : Party
  amountMinor : ℤ
  status : RequestStatus
  settledReference : Option String

def legDTO (leg : SplitLeg) : Json :=
  .obj [("requestId", .uuid leg.requestId), ("payer", leg.payer.json),
    ("amount", money leg.amountMinor), ("status", .str leg.status.text),
    ("settledReference", .ofOption leg.settledReference)]

def splitDTO (split : BillSplit) (legs : List SplitLeg) : Json :=
  let requested := (legs.map SplitLeg.amountMinor).sum
  let collected := ((legs.filter fun leg => leg.status = .accepted).map SplitLeg.amountMinor).sum
  .obj [("id", .uuid split.id), ("description", .str split.description),
    ("total", money split.totalAmountMinor),
    ("yourShare", money (split.totalAmountMinor - requested)), ("requested", money requested),
    ("collected", money collected), ("outstanding", money (requested - collected)),
    ("participantCount", .nat split.participantCount), ("createdAt", .date split.createdAt),
    ("legs", .arr (legs.map legDTO))]

def splitEndpoint : String := "POST /api/v1/splits"

def resolvePayer (creatorUserId : Uuid) (participant : Participant) : Tx PayeeAccount := do
  let payer ← requirePayee participant.phone ("User " ++ participant.phone)
  require (payer.userId ≠ creatorUserId)
    (errors.validation "You cannot request your own share — use includeSelf instead")
  return payer

/-- One leg: an ordinary request, and the event of one. -/
def insertLeg (creatorUserId : Uuid) (creator : User) (split : BillSplit) (expiresAt : Timestamp)
    (leg : PayeeAccount × ℤ) : Tx SplitLeg := do
  let created ← query (insertRequestRow creatorUserId leg.1.userId leg.2 (some split.description)
    expiresAt (some split.id))
  let _ ← enqueueEvent .requestCreated "money_request" created.id
    [("requestId", .uuid created.id), ("requesterUserId", .uuid creatorUserId),
      ("requesterName", .str creator.name), ("payerUserId", .uuid leg.1.userId),
      ("amountMinor", .str (toString leg.2)), ("note", .str split.description),
      ("splitId", .uuid split.id)]
  return { requestId := created.id, payerUserId := leg.1.userId,
           payer := ⟨leg.1.name, leg.1.phone⟩, amountMinor := leg.2, status := .pending,
           settledReference := none }

/-- The work of `createSplit` under its key. -/
def createSplitWork (creatorUserId : Uuid) (input : CreateSplitInput) (shares : List ℤ)
    (context : RequestContext) : Tx (ℕ × Json) := do
  let creator ← findUserById creatorUserId
  let creator ← orFail creator (errors.notFound "User")
  let payers ← forEach input.participants (resolvePayer creatorUserId)
  let split ← query (insertSplitRow creatorUserId input.totalAmountMinor input.description
    (input.participants.length + if input.includeSelf then 1 else 0))
  let drawn ← dateNow
  let legs ← forEach (payers.zip shares)
    (insertLeg creatorUserId creator split (expiryAfter drawn.1 input.expiresInDays))
  let _ ← insertAuditLog (some creatorUserId) "SPLIT_CREATED" "bill_split" (some split.id)
    [("totalAmountMinor", .str (toString input.totalAmountMinor)),
      ("participantCount", .nat split.participantCount)] context
  return (201, .obj [("split", splitDTO split legs)])

/-- What `createSplit` checks of its shares before the transaction. -/
def requireShares (P : Platform) (input : CreateSplitInput) : Tx (List ℤ) := do
  match allocate input with
  | .error message => .throw (.internal message)
  | .ok shares =>
    require (shares.sum = input.totalAmountMinor)
      { code := .internal, message := "Split allocation did not sum to the total" }
    require ((legShares input shares).all fun share => (P.config.minTransferMinor : ℤ) ≤ share)
      (errors.validation ("Each share must be at least " ++ formatTaka P.config.minTransferMinor ++
        " BDT — split a larger amount, or between fewer people"))
    return legShares input shares

def createSplit (P : Platform) (creatorUserId : Uuid) (idempotencyKey : String)
    (input : CreateSplitInput) (rawBody : Json) (context : RequestContext) : Tx Reply := do
  let shares ← requireShares P input
  idempotently creatorUserId idempotencyKey splitEndpoint (hashRequest P splitEndpoint rawBody)
    fun _ => createSplitWork creatorUserId input shares context

end TakaFlow
