import TakaFlow.Statements

/-!
# The ledger primitive

`postDoubleEntry` is the only code that moves money: both accounts are locked in ascending order
of their identifiers, the checks follow under the locks, and the balances, the transfer and its
two entries are written together.
-/

namespace TakaFlow

open Txn

structure LockedPair where
  sender : Account
  receiver : Account

def lockAccount (accountId : Uuid) : Tx (Option Account) := query (selectAccountForUpdate accountId)

/-- Both sides of a movement, locked in ascending order. -/
def lockAccountPair (fromAccountId toAccountId : Uuid) : Tx LockedPair := do
  require (fromAccountId ≠ toAccountId) errors.selfTransfer
  let firstId := min fromAccountId toAccountId
  let secondId := max fromAccountId toAccountId
  let first ← lockAccount firstId
  let first ← orFail first (errors.notFound "Account")
  let second ← lockAccount secondId
  let second ← orFail second (errors.notFound "Account")
  return if firstId = fromAccountId then ⟨first, second⟩ else ⟨second, first⟩

structure PostDoubleEntryCommand where
  fromAccountId : Uuid
  toAccountId : Uuid
  amountMinor : ℤ
  type : TransferType
  note : Option String := none
  idempotencyKeyId : Option Uuid := none
  reversalOf : Option Uuid := none

structure PostedTransfer where
  id : Uuid
  reference : String
  fromAccountId : Uuid
  toAccountId : Uuid
  amountMinor : ℤ
  type : TransferType
  note : Option String
  createdAt : Timestamp
  senderBalanceAfter : ℤ
  receiverBalanceAfter : ℤ

/-- The check the database makes itself, translated. -/
def translateCheck (e : Error) (balanceMinor amountMinor : ℤ) : Error :=
  if pgErrorCode e = some PgError.checkViolation ∧
      pgConstraint e = some "non_negative_user_balance" then
    .domain (errors.insufficientFunds balanceMinor amountMinor)
  else e

/-- The two relative updates. -/
def updateBalances (pair : LockedPair) (amountMinor : ℤ) : Tx Unit :=
  (do
    let _ ← query (updateBalance pair.sender.id (-amountMinor))
    let _ ← query (updateBalance pair.receiver.id amountMinor)
    return ()).tryCatch
    fun e => .throw (translateCheck e pair.sender.balanceMinor amountMinor)

/-- The transfer a command makes of the locked pair. -/
def PostDoubleEntryCommand.newTransfer (command : PostDoubleEntryCommand) (pair : LockedPair)
    (reference : String) : NewTransfer :=
  { reference
    fromAccountId := pair.sender.id
    toAccountId := pair.receiver.id
    amountMinor := command.amountMinor
    type := command.type
    note := command.note
    idempotencyKeyId := command.idempotencyKeyId
    reversalOf := command.reversalOf
    senderBalanceAfter := pair.sender.balanceMinor - command.amountMinor
    receiverBalanceAfter := pair.receiver.balanceMinor + command.amountMinor }

/-- Move money. -/
def postDoubleEntry (command : PostDoubleEntryCommand) : Tx PostedTransfer := do
  let amountMinor := command.amountMinor
  require (0 < amountMinor) (errors.validation "Transfer amount must be greater than zero")
  let pair ← lockAccountPair command.fromAccountId command.toAccountId
  require (pair.sender.status = .active) (errors.accountFrozen
    (if pair.sender.status = .closed then "Sender account is closed"
      else "Sender account is frozen"))
  require (pair.receiver.status ≠ .closed) (errors.accountFrozen "Recipient account is closed")
  -- The treasury is the source of newly minted money and is expected to go negative.
  require (pair.sender.type = .system ∨ amountMinor ≤ pair.sender.balanceMinor)
    (errors.insufficientFunds pair.sender.balanceMinor amountMinor)
  let senderBalanceAfter := pair.sender.balanceMinor - amountMinor
  let receiverBalanceAfter := pair.receiver.balanceMinor + amountMinor
  updateBalances pair amountMinor
  let drawn ← dateNow
  let reference := generateReference drawn.1 drawn.2.bytes
  let transfer ← query (insertTransferRow (command.newTransfer pair reference))
  .afterCommit (.writeBalances
    [(pair.sender.id, senderBalanceAfter, pair.sender.version + 1),
      (pair.receiver.id, receiverBalanceAfter, pair.receiver.version + 1)]) <| .ret
    { id := transfer.id
      reference
      fromAccountId := pair.sender.id
      toAccountId := pair.receiver.id
      amountMinor
      type := command.type
      note := command.note
      createdAt := transfer.createdAt
      senderBalanceAfter
      receiverBalanceAfter }

end TakaFlow
