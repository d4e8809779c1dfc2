import TakaFlow.Amounts
import TakaFlow.Schema

/-!
# What an event tells whom

The consumers of the outbox: each event that interests anyone becomes one notification.
-/

namespace TakaFlow

/-! ### Payloads -/

/-- `payload[key]`, where it is a string. -/
def str (payload : Fields) (key : String) : Option String :=
  match payload.lookup key with
  | some (.str s) => some s
  | _ => none

/-- `BigInt(s)`. -/
def bigInt (s : String) : Except Error ℤ :=
  match bigInt? s.toList with
  | some n => .ok n
  | none => .error (.internal ("Cannot convert " ++ s ++ " to a BigInt"))

def takaOf (payload : Fields) : Except Error String :=
  match str payload "amountMinor" with
  | none => .ok ""
  | some minor => (bigInt minor).map formatTaka

/-! ### The handlers -/

/-- The row that `notify` is given, but for the event. -/
structure NotifyInput where
  userId : String
  type : String
  payload : Fields

/-- `if (!userId) return 0`, and else the notification. -/
def addressed (userId : Option String) (type : String) (payload : Except Error Fields) :
    Except Error (Option NotifyInput) :=
  match userId.filter (· ≠ "") with
  | none => .ok none
  | some userId => payload.map fun payload => some { userId, type, payload }

def requestUpdate (p : Fields) (body : String) : Fields :=
  [("title", .str "Request update"), ("body", .str body),
    ("requestId", .ofOption (str p "requestId")), ("reason", .ofOption (str p "reason"))]

def scheduledPayment (p : Fields) (body : String) : Fields :=
  [("title", .str "Scheduled payment"), ("body", .str body),
    ("scheduleId", .ofOption (str p "scheduleId")), ("reference", .ofOption (str p "reference"))]

/-- `handleEvent`, up to the statement. -/
def notificationOf (eventType : EventType) (p : Fields) : Except Error (Option NotifyInput) :=
  match eventType with
  | .userRegistered =>
    addressed (str p "userId") "WELCOME" do
      let bonus ← bigInt ((str p "bonusMinor").getD "0")
      return [("title", .str "Welcome to TakaFlow"),
        ("body", .str ("Your account has been funded with BDT " ++ formatTaka bonus ++ ".")),
        ("reference", .ofOption (str p "transferReference"))]
  | .moneyReceived =>
    addressed (str p "recipientUserId") "MONEY_RECEIVED" do
      let taka ← takaOf p
      return [("title", .str "Money received"), ("body", .str ("You received BDT " ++ taka ++ ".")),
        ("reference", .ofOption (str p "reference")), ("note", .ofOption (str p "note"))]
  | .requestCreated =>
    addressed (str p "payerUserId") "REQUEST_RECEIVED" do
      let taka ← takaOf p
      return [("title", .str "Payment requested"),
        ("body", .str ((str p "requesterName").getD "Someone" ++ " requested BDT " ++ taka ++
          " from you.")),
        ("requestId", .ofOption (str p "requestId")), ("note", .ofOption (str p "note"))]
  | .requestAccepted =>
    addressed (str p "requesterUserId") "REQUEST_ACCEPTED" do
      let taka ← takaOf p
      return [("title", .str "Request paid"),
        ("body", .str ("Your request for BDT " ++ taka ++ " was paid.")),
        ("requestId", .ofOption (str p "requestId")),
        ("reference", .ofOption (str p "transferReference"))]
  | .requestDeclined =>
    addressed (str p "requesterUserId") eventType.text do
      let taka ← takaOf p
      return requestUpdate p ("Your request for BDT " ++ taka ++ " was declined.")
  | .requestCancelled =>
    addressed (str p "payerUserId") eventType.text do
      let taka ← takaOf p
      return requestUpdate p ("A request for BDT " ++ taka ++ " was cancelled.")
  | .requestExpired =>
    addressed (str p "requesterUserId") eventType.text do
      let taka ← takaOf p
      return requestUpdate p ("Your request for BDT " ++ taka ++ " expired.")
  | .schedulePaid =>
    addressed (str p "ownerUserId") eventType.text do
      let taka ← takaOf p
      return scheduledPayment p ("Your scheduled payment of BDT " ++ taka ++ " was sent.")
  | .scheduleFailed =>
    addressed (str p "ownerUserId") eventType.text do
      let taka ← takaOf p
      return scheduledPayment p ("Your scheduled payment of BDT " ++ taka ++
        " could not be sent: " ++ (str p "reason").getD "unknown reason")
  | .scheduleSkipped =>
    addressed (str p "ownerUserId") eventType.text do
      let taka ← takaOf p
      return scheduledPayment p ("A scheduled payment of BDT " ++ taka ++
        " was skipped because it was overdue.")
  | .accountFrozen =>
    addressed (str p "userId") eventType.text (.ok
      [("title", .str "Account frozen"),
        ("body", .str "Outgoing payments are blocked until you unfreeze the account.")])
  | .accountUnfrozen =>
    addressed (str p "userId") eventType.text (.ok
      [("title", .str "Account unfrozen"), ("body", .str "Your account can send money again.")])
  | .securityAlert =>
    addressed (str p "userId") "SECURITY_ALERT" do
      let taka ← takaOf p
      return [("title", .str "Security alert"),
        ("body", .str ("Unusual transaction detected: BDT " ++ taka ++
          " sent. If this was not you, freeze your account now.")),
        ("reference", .ofOption (str p "reference"))]
  | .transferReversed => .ok none

end TakaFlow
