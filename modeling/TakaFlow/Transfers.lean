import TakaFlow.Idempotency
import TakaFlow.Ledger

/-!
# Sending and reversing
-/

namespace TakaFlow

open Txn

/-! ### Velocity -/

/-- When the oldest payment leaves the window, in whole seconds from now. -/
def retryAfter (P : Platform) (oldest : Option Timestamp) (now : Millis) : ℤ :=
  match oldest with
  | some t =>
    let left : ℤ := P.policy.windowSeconds * 1000 - ((now : ℤ) - toMillis t)
    max 1 (-((-left) / 1000))
  | none => P.policy.windowSeconds

/-- `enforceVelocity`: count under the advisory lock of the sender. -/
def enforceVelocity (P : Platform) (accountId : Uuid) : Tx Unit := do
  let _ ← query (advisoryXactLock P accountId)
  let recent ← query (selectRecentTransfers P accountId)
  if recent.1 < P.policy.maxTransfers then return ()
  else
    let drawn ← dateNow
    fail (errors.rateLimited (retryAfter P recent.2 drawn.1))

/-- `isAnomalous`. -/
def isAnomalous (P : Platform) (amountMinor : ℤ) : Bool :=
  P.policy.alertThresholdMinor ≤ amountMinor

/-! ### Sending -/

/-- Both bounds of a single amount, as each service states them before its transaction. -/
def requireLimits (P : Platform) (what : String) (maxDetails : Fields) (amountMinor : ℤ) :
    Tx Unit := do
  require ((P.config.minTransferMinor : ℤ) ≤ amountMinor) (errors.validation
    ("Minimum " ++ what ++ " is " ++ formatTaka P.config.minTransferMinor ++ " BDT"))
  require (amountMinor ≤ P.config.maxTransferMinor) (errors.limitExceeded
    ("Maximum " ++ what ++ " is " ++ formatTaka P.config.maxTransferMinor ++ " BDT") maxDetails)

/-- The active user behind a phone number. -/
def requirePayee (phone : String) (what : String) : Tx PayeeAccount := do
  let payee ← query (selectPayeeByPhone phone)
  let payee ← orFail payee (errors.notFound what)
  require (payee.userStatus = .active) (errors.notFound what)
  return payee

/-- `outboundInWindow`, checked against the daily limit. -/
def requireDailyLimit (P : Platform) (accountId : Uuid) (amountMinor : ℤ)
    (refuse : ℤ → DomainError) : Tx Unit := do
  let spent ← query (selectOutboundInWindow accountId)
  require (spent + amountMinor ≤ P.config.dailyTransferLimitMinor) (refuse spent)

structure CreateTransferInput where
  toPhone : String
  amountMinor : ℤ
  note : Option String := none

def sendEndpoint : String := "POST /api/v1/transfers"

def transferReceipt (posted : PostedTransfer) (payee : PayeeAccount) (flagged : Bool) : Json :=
  .obj ((if flagged then [("securityAlert", .bool true)] else []) ++
    [("transfer", .obj [("reference", .str posted.reference), ("status", .str "COMPLETED"),
        ("type", .str posted.type.text), ("amount", money posted.amountMinor),
        ("note", .ofOption posted.note), ("createdAt", .date posted.createdAt),
        ("counterparty", .obj [("name", .str payee.name), ("phone", .str payee.phone)]),
        ("direction", .str "OUT")]),
      ("balance", money posted.senderBalanceAfter)])

/-- An unusually large payment is flagged, never refused. -/
def flagAnomaly (P : Platform) (senderUserId : Uuid) (posted : PostedTransfer) : Tx Unit :=
  if isAnomalous P posted.amountMinor then do
    let _ ← enqueueEvent .securityAlert "transfer" posted.id
      [("userId", .uuid senderUserId), ("reference", .str posted.reference),
        ("amountMinor", .str (toString posted.amountMinor))]
    .afterCommit (.sendSecurityAlert senderUserId posted.reference posted.amountMinor) (.ret ())
  else .ret ()

/-- The work of `sendMoney` under its key. -/
def sendMoneyWork (P : Platform) (senderUserId : Uuid) (input : CreateTransferInput)
    (context : RequestContext) (keyId : Uuid) : Tx (ℕ × Json) := do
  let senderAccountId ← query (selectAccountIdForUser senderUserId)
  let senderAccountId ← orFail senderAccountId (errors.notFound "Account")
  enforceVelocity P senderAccountId
  let payee ← requirePayee input.toPhone "Recipient"
  require (payee.userId ≠ senderUserId) errors.selfTransfer
  requireDailyLimit P senderAccountId input.amountMinor fun spent =>
    errors.limitExceeded "This transfer would exceed your daily sending limit"
      [("dailyLimitMinor", .str (toString P.config.dailyTransferLimitMinor)),
        ("alreadySentMinor", .str (toString spent)),
        ("attemptedMinor", .str (toString input.amountMinor))]
  let posted ← postDoubleEntry
    { fromAccountId := senderAccountId
      toAccountId := payee.accountId
      amountMinor := input.amountMinor
      type := .p2p
      note := input.note
      idempotencyKeyId := some keyId }
  let _ ← enqueueEvent .moneyReceived "transfer" posted.id
    [("transferId", .uuid posted.id), ("reference", .str posted.reference),
      ("senderUserId", .uuid senderUserId), ("recipientUserId", .uuid payee.userId),
      ("amountMinor", .str (toString posted.amountMinor)), ("note", .ofOption posted.note)]
  trackWrite P [some senderUserId, some payee.userId]
  let _ ← insertAuditLog (some senderUserId) "TRANSFER_SENT" "transfer" (some posted.id)
    [("reference", .str posted.reference), ("amountMinor", .str (toString posted.amountMinor)),
      ("recipientUserId", .uuid payee.userId)] context
  flagAnomaly P senderUserId posted
  return (201, transferReceipt posted payee (isAnomalous P posted.amountMinor))

/-- `sendMoney`, once the PIN is verified. -/
def sendMoney (P : Platform) (senderUserId : Uuid) (idempotencyKey : String)
    (input : CreateTransferInput) (rawBody : Json) (context : RequestContext) : Tx Reply := do
  requireLimits P "transfer" [("maxMinor", .str (toString P.config.maxTransferMinor))]
    input.amountMinor
  idempotently senderUserId idempotencyKey sendEndpoint (hashRequest P sendEndpoint rawBody)
    (sendMoneyWork P senderUserId input context)

/-! ### Reversing -/

def reverseEndpoint : String := "POST /api/v1/transfers/:reference/reverse"

/-- `Math.round` of milliseconds given in seconds. -/
def roundSeconds (ms : ℤ) : ℤ := (ms + 500) / 1000

def reversalResult (original : Transfer) (compensating : PostedTransfer) : Json :=
  .obj [("reversal", .obj [("reference", .str compensating.reference),
      ("reversalOf", .str original.reference), ("amount", money original.amountMinor),
      ("createdAt", .date compensating.createdAt)]),
    ("balance", money compensating.receiverBalanceAfter)]

/-- The work of `reverseTransfer` under its key. -/
def reverseTransferWork (P : Platform) (actorUserId : Uuid) (reference : String)
    (context : RequestContext) (keyId : Uuid) : Tx (ℕ × Json) := do
  let loaded ← query (selectOriginal reference)
  let loaded ← orFail loaded (errors.notFound "Transfer")
  require (loaded.senderUserId = some actorUserId) (errors.notFound "Transfer")
  let original := loaded.transfer
  require (original.type ≠ .mint ∧ original.type ≠ .reversal) (errors.invalidState
    "This kind of transfer cannot be reversed" [("type", .str original.type.text)])
  require (original.status = .completed) (errors.invalidState
    "This transfer has already been reversed" [("status", .str original.status.text)])
  let drawn ← dateNow
  let age : ℤ := (drawn.1 : ℤ) - toMillis original.createdAt
  require (age ≤ P.config.reversalWindowSeconds * 1000) (errors.invalidState
    ("A transfer can only be reversed within " ++ toString P.config.reversalWindowSeconds ++
      " seconds") [("ageSeconds", .num (roundSeconds age))])
  -- Claims the reversal: of two attempts, one finds the row no longer completed.
  let flipped ← query (updateReversed original.id original.createdAt)
  require (flipped.isSome = true) (errors.invalidState "This transfer has already been reversed")
  let compensating ← postDoubleEntry
    { fromAccountId := original.toAccountId
      toAccountId := original.fromAccountId
      amountMinor := original.amountMinor
      type := .reversal
      note := some ("Reversal of " ++ original.reference)
      idempotencyKeyId := some keyId
      reversalOf := some original.id }
  trackWrite P [some actorUserId, loaded.recipientUserId]
  let _ ← enqueueEvent .transferReversed "transfer" original.id
    [("originalReference", .str original.reference),
      ("reversalReference", .str compensating.reference), ("senderUserId", .uuid actorUserId),
      ("recipientUserId", (loaded.recipientUserId.map Json.uuid).getD .null),
      ("amountMinor", .str (toString original.amountMinor))]
  let _ ← insertAuditLog (some actorUserId) "TRANSFER_REVERSED" "transfer" (some original.id)
    [("originalReference", .str original.reference),
      ("reversalReference", .str compensating.reference),
      ("ageSeconds", .num (roundSeconds age))] context
  return (201, reversalResult original compensating)

/-- `reverseTransfer`, once the PIN is verified. -/
def reverseTransfer (P : Platform) (actorUserId : Uuid) (reference idempotencyKey : String)
    (rawBody : Json) (context : RequestContext) : Tx Reply :=
  let endpoint := reverseEndpoint ++ ":" ++ reference
  idempotently actorUserId idempotencyKey endpoint (hashRequest P endpoint rawBody)
    (reverseTransferWork P actorUserId reference context)

end TakaFlow
