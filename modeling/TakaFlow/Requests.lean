import TakaFlow.Transfers

/-!
# Money requests
-/

namespace TakaFlow

open Txn

structure Party where
  name : String
  phone : String

def Party.json (p : Party) : Json := .obj [("name", .str p.name), ("phone", .str p.phone)]

/-- The counterparty shown for a user that may be missing. -/
def partyOf (user : Option User) : Party :=
  { name := (user.map User.name).getD "Unknown", phone := (user.map User.phone).getD "" }

def requestDTO (r : MoneyRequest) (viewerUserId : Uuid) (counterparty : Party)
    (settledReference : Option String) : Json :=
  .obj [("id", .uuid r.id), ("status", .str r.status.text), ("amount", money r.amountMinor),
    ("note", .ofOption r.note),
    ("role", .str (if r.payerUserId = viewerUserId then "incoming" else "outgoing")),
    ("counterparty", counterparty.json), ("expiresAt", .date r.expiresAt),
    ("createdAt", .date r.createdAt), ("settledReference", .ofOption settledReference),
    ("declineReason", .ofOption r.declineReason)]

/-! ### Create -/

structure CreateRequestInput where
  fromPhone : String
  amountMinor : ℤ
  note : Option String := none
  expiresInDays : ℕ := 7

def createRequestEndpoint : String := "POST /api/v1/requests"

def expiryAfter (now : Millis) (days : ℕ) : Timestamp := ofMillis (now + days * msPerDay)

/-- The work of `createRequest` under its key. -/
def createRequestWork (requesterUserId : Uuid) (input : CreateRequestInput)
    (context : RequestContext) : Tx (ℕ × Json) := do
  let payer ← requirePayee input.fromPhone "User"
  require (payer.userId ≠ requesterUserId)
    (errors.validation "You cannot request money from yourself")
  let requester ← findUserById requesterUserId
  let requester ← orFail requester (errors.notFound "User")
  let drawn ← dateNow
  let created ← query (insertRequestRow requesterUserId payer.userId input.amountMinor input.note
    (expiryAfter drawn.1 input.expiresInDays) none)
  let _ ← enqueueEvent .requestCreated "money_request" created.id
    [("requestId", .uuid created.id), ("requesterUserId", .uuid requesterUserId),
      ("requesterName", .str requester.name), ("payerUserId", .uuid payer.userId),
      ("amountMinor", .str (toString created.amountMinor)), ("note", .ofOption created.note)]
  let _ ← insertAuditLog (some requesterUserId) "REQUEST_CREATED" "money_request" (some created.id)
    [("payerUserId", .uuid payer.userId), ("amountMinor", .str (toString created.amountMinor))]
    context
  return (201, .obj [("request",
    requestDTO created requesterUserId ⟨payer.name, payer.phone⟩ none)])

def createRequest (P : Platform) (requesterUserId : Uuid) (idempotencyKey : String)
    (input : CreateRequestInput) (rawBody : Json) (context : RequestContext) : Tx Reply := do
  requireLimits P "request" [] input.amountMinor
  idempotently requesterUserId idempotencyKey createRequestEndpoint
    (hashRequest P createRequestEndpoint rawBody)
    fun _ => createRequestWork requesterUserId input context

/-! ### Accept -/

def acceptEndpoint : String := "POST /api/v1/requests/:id/accept"

/-- Why nothing was settleable. -/
def explainUnsettleable {α : Type} (requestId payerUserId : Uuid) : Tx α := do
  let request ← query (selectRequest requestId)
  let request ← orFail request (errors.notFound "Money request")
  require (request.payerUserId = payerUserId) (errors.notFound "Money request")
  require (request.status = .pending) (errors.invalidState
    ("This request is already " ++ request.status.lower) [("status", .str request.status.text)])
  fail (errors.invalidState "This request has expired" [("status", .str "EXPIRED")])

def acceptResult (request : MoneyRequest) (payerUserId : Uuid) (requester : Option User)
    (posted : PostedTransfer) : Json :=
  .obj [("request", requestDTO { request with
        status := .accepted, settledTransferId := some posted.id } payerUserId
      (partyOf requester) (some posted.reference)),
    ("transfer", .obj [("reference", .str posted.reference), ("amount", money posted.amountMinor),
      ("createdAt", .date posted.createdAt)]),
    ("balance", money posted.senderBalanceAfter)]

/-- The settlement of a locked request: the payment and the state change. -/
def settleRequest (P : Platform) (payerUserId : Uuid) (request : MoneyRequest)
    (context : RequestContext) (keyId : Uuid) : Tx (ℕ × Json) := do
  -- Both accounts are read before either is missed.
  let payerAccountId ← query (selectAccountIdForUser payerUserId)
  let requesterAccountId ← query (selectAccountIdForUser request.requesterUserId)
  let payerAccountId ← orFail payerAccountId (errors.notFound "Account")
  let requesterAccountId ← orFail requesterAccountId (errors.notFound "Account")
  requireDailyLimit P payerAccountId request.amountMinor fun spent =>
    errors.limitExceeded "Settling this request would exceed your daily sending limit"
      [("dailyLimitMinor", .str (toString P.config.dailyTransferLimitMinor)),
        ("alreadySentMinor", .str (toString spent))]
  let posted ← postDoubleEntry
    { fromAccountId := payerAccountId
      toAccountId := requesterAccountId
      amountMinor := request.amountMinor
      type := .requestSettlement
      note := request.note
      idempotencyKeyId := some keyId }
  let accepted ← query (updateAccepted request.id posted.id)
  require (accepted.isSome = true) (errors.invalidState "Request was modified concurrently")
  let requester ← findUserById request.requesterUserId
  let _ ← enqueueEvent .requestAccepted "money_request" request.id
    [("requestId", .uuid request.id), ("requesterUserId", .uuid request.requesterUserId),
      ("payerUserId", .uuid payerUserId), ("amountMinor", .str (toString request.amountMinor)),
      ("transferReference", .str posted.reference)]
  trackWrite P [some payerUserId, some request.requesterUserId]
  let _ ← insertAuditLog (some payerUserId) "REQUEST_ACCEPTED" "money_request" (some request.id)
    [("transferReference", .str posted.reference)] context
  return (200, acceptResult request payerUserId requester posted)

/-- The work of `acceptRequest` under its key. -/
def acceptRequestWork (P : Platform) (payerUserId requestId : Uuid) (context : RequestContext)
    (keyId : Uuid) : Tx (ℕ × Json) := do
  let request ← query (selectSettleableRequest requestId payerUserId)
  match request with
  | none => explainUnsettleable requestId payerUserId
  | some request => settleRequest P payerUserId request context keyId

/-- `acceptRequest`, once the PIN is verified. -/
def acceptRequest (P : Platform) (payerUserId requestId : Uuid) (idempotencyKey : String)
    (rawBody : Json) (context : RequestContext) : Tx Reply :=
  let endpoint := acceptEndpoint ++ ":" ++ uuidText requestId
  idempotently payerUserId idempotencyKey endpoint (hashRequest P endpoint rawBody)
    (acceptRequestWork P payerUserId requestId context)

/-! ### Decline and cancel -/

/-- The two ways a party ends a request. -/
inductive Termination where
  | declined
  | cancelled
  deriving DecidableEq

namespace Termination

def status : Termination → RequestStatus
  | declined => .declined
  | cancelled => .cancelled

def actorColumn : Termination → ActorColumn
  | declined => .payerUserId
  | cancelled => .requesterUserId

/-- The other party of the request. -/
def other (r : MoneyRequest) : Termination → Uuid
  | declined => r.requesterUserId
  | cancelled => r.payerUserId

def eventType : Termination → EventType
  | declined => .requestDeclined
  | cancelled => .requestCancelled

end Termination

/-- Nothing was updated: a repeat is success, anything else an error. -/
def terminateAgain (actorUserId requestId : Uuid) (target : Termination) : Tx Reply := do
  let existing ← query (selectRequest requestId)
  let existing ← orFail existing (errors.notFound "Money request")
  require (existing.actor target.actorColumn = actorUserId) (errors.notFound "Money request")
  require (existing.status = target.status) (errors.invalidState
    ("This request is already " ++ existing.status.lower) [("status", .str existing.status.text)])
  let other ← findUserById (target.other existing)
  return .dto (requestDTO existing actorUserId (partyOf other) none)

def terminate (actorUserId requestId : Uuid) (target : Termination) (reason : Option String)
    (context : RequestContext) : Tx Reply := do
  let updated ← query
    (updateRequestStatus requestId target.status target.actorColumn actorUserId reason)
  match updated with
  | none => terminateAgain actorUserId requestId target
  | some r =>
    let counterparty ← findUserById (target.other r)
    let _ ← enqueueEvent target.eventType "money_request" r.id
      [("requestId", .uuid r.id), ("requesterUserId", .uuid r.requesterUserId),
        ("payerUserId", .uuid r.payerUserId), ("amountMinor", .str (toString r.amountMinor)),
        ("reason", .ofOption reason)]
    let _ ← insertAuditLog (some actorUserId) target.eventType.text "money_request" (some r.id) []
      context
    return .dto (requestDTO r actorUserId (partyOf counterparty) none)

def declineRequest (payerUserId requestId : Uuid) (reason : Option String)
    (context : RequestContext) : Tx Reply :=
  terminate payerUserId requestId .declined reason context

def cancelRequest (requesterUserId requestId : Uuid) (context : RequestContext) : Tx Reply :=
  terminate requesterUserId requestId .cancelled none context

/-! ### Expiry -/

/-- `for (const x of list) ...`, collecting the results. -/
def forEach {α β : Type} (list : List α) (f : α → Tx β) : Tx (List β) :=
  match list with
  | [] => .ret []
  | a :: rest => do
    let b ← f a
    let bs ← forEach rest f
    return b :: bs

def enqueueExpired (r : MoneyRequest) : Tx OutboxEvent :=
  enqueueEvent .requestExpired "money_request" r.id
    [("requestId", .uuid r.id), ("requesterUserId", .uuid r.requesterUserId),
      ("payerUserId", .uuid r.payerUserId), ("amountMinor", .str (toString r.amountMinor))]

/-- `expireRequests` of the worker. -/
def expireRequests (batchSize : ℕ) : Tx Reply := do
  let expired ← query (updateExpired batchSize)
  let _ ← forEach expired enqueueExpired
  return .count expired.length

end TakaFlow
