import TakaFlow.Errors
import TakaFlow.Lib.Machine

/-!
# The API client

One page of the frontend: its tokens, the calls of `api` that are under way, and the refresh they
share. What runs between two turns of the event loop is one step.
-/

namespace TakaFlow

/-! ### Requests and responses -/

inductive Method where
  | get
  | post
  | patch
  | delete
  deriving DecidableEq

/-- `headers[name] = value`. -/
def setHeader (name value : String) : List (String × String) → List (String × String)
  | [] => [(name, value)]
  | header :: headers =>
    if header.1 = name then (name, value) :: headers else header :: setHeader name value headers

/-- What `fetch` is given. -/
structure HttpRequest where
  path : String
  method : Method
  headers : List (String × String)
  body : Option Json

def HttpRequest.header (request : HttpRequest) (name : String) : Option String :=
  request.headers.lookup name

/-- The strings that are true in a condition. -/
def truthy (s : Option String) : Option String := s.filter (· ≠ "")

/-- What of a response arrives before its body. -/
structure Head where
  status : ℕ
  statusText : String

/-- `response.ok`. -/
def Head.ok (head : Head) : Bool := 200 ≤ head.status ∧ head.status < 300

/-- `value ?? fallback`. -/
def Json.orElse (fallback : Json) : Option Json → Json
  | none => fallback
  | some .null => fallback
  | some value => value

structure ApiError where
  status : ℕ
  code : Json
  message : Json
  details : Json
  requestId : Json

/-- The constructor of `ApiError`. -/
def ApiError.new (status : ℕ) (body : Json) (fallback : String) : ApiError :=
  let member := fun name => (body.field "error").bind (Json.field name)
  { status
    code := Json.orElse (.str "NETWORK_ERROR") (member "code")
    message := Json.orElse (.str fallback) (member "message")
    details := Json.orElse (.obj []) (member "details")
    requestId := Json.orElse .null (member "requestId") }

/-! ### Calls -/

structure RequestOptions where
  method : Method := .get
  body : Option Json := none
  idempotencyKey : Option String := none
  headers : List (String × String) := []

/-- Where a call of `api` is: in `attempt`, the second one or not, or in the pause between both. An
error without a response is `none`. -/
inductive CallPhase where
  | fetching (allowRefresh second : Bool)
  | refreshing (second : Bool) (head : Head)
  | reading (second : Bool) (head : Head)
  | sleeping
  | fulfilled (value : Option Json)
  | rejected (error : Option ApiError)

/-- How a request ended. -/
inductive Answer where
  | broken
  | status (n : ℕ)
  deriving DecidableEq

/-- A call, with the requests it has sent and the answers it has had. -/
structure ApiCall where
  path : String
  options : RequestOptions
  idempotencyKey : Option String
  phase : CallPhase
  sent : List HttpRequest := []
  answers : List Answer := []

namespace ApiCall

variable (call : ApiCall)

/-- The request an attempt sends. -/
def request (accessToken : Option String) : HttpRequest :=
  let headers := call.options.headers
  let headers :=
    if call.options.body.isSome then setHeader "content-type" "application/json" headers
    else headers
  let headers := (truthy accessToken).elim headers fun token =>
    setHeader "authorization" ("Bearer " ++ token) headers
  let headers := (truthy call.idempotencyKey).elim headers fun key =>
    setHeader "idempotency-key" key headers
  { path := call.path, method := call.options.method, headers, body := call.options.body }

/-- `attempt(allowRefresh)`, up to its `fetch`. -/
def attempt (accessToken : Option String) (allowRefresh second : Bool) : ApiCall :=
  { call with
    phase := .fetching allowRefresh second, sent := call.sent ++ [call.request accessToken] }

/-- `retryable`. -/
def retryable : Option ApiError → Bool
  | none => true
  | some error => error.status = 503 ∧ call.idempotencyKey.isSome

/-- An attempt has thrown. -/
def thrown (second : Bool) (answer : Answer) (error : Option ApiError) : ApiCall :=
  { call with
    answers := call.answers ++ [answer]
    phase := if ¬ second ∧ call.retryable error then .sleeping else .rejected error }

/-- An attempt has returned. -/
def returned (status : ℕ) (value : Option Json) : ApiCall :=
  { call with answers := call.answers ++ [Answer.status status], phase := .fulfilled value }

/-- The shared refresh has succeeded: the waiting calls try again, without another refresh. -/
def resume (accessToken : Option String) : ApiCall :=
  match call.phase with
  | .refreshing second head =>
    { call with answers := call.answers ++ [Answer.status head.status] }.attempt accessToken
      false second
  | _ => call

/-- It has failed: the waiting calls read the response they have. -/
def giveUp : ApiCall :=
  match call.phase with
  | .refreshing second head => { call with phase := .reading second head }
  | _ => call

def isWaiting : Bool :=
  match call.phase with
  | .refreshing _ _ => true
  | _ => false

end ApiCall

/-! ### The page -/

structure ClientSession where
  accessToken : String
  refreshToken : String

/-- The variables of the module, what `localStorage` holds, and the refresh tokens that have been
sent to the server. -/
structure Client where
  accessToken : Option String := none
  refreshToken : Option String
  stored : Option String
  refreshInFlight : Option String := none
  calls : List ApiCall := []
  spent : List String := []
  sessionsLost : ℕ := 0

/-- The module as it is loaded. -/
def Client.load (stored : Option String) : Client := { refreshToken := stored, stored }

/-- A turn of the event loop: a call is made, with the key it mints if it has to; the head or the
body of a response arrives; `fetch` or reading the body rejects; the refresh settles; the pause
of a call is over; or the session is set. -/
inductive ClientEvent where
  | api (path : String) (options : RequestOptions) (minted : String)
  | head (i : ℕ) (head : Head)
  | body (i : ℕ) (body : Json)
  | broken (i : ℕ)
  | refreshed (session : Option ClientSession)
  | wake (i : ℕ)
  | setSession (session : Option ClientSession)

namespace Client

variable (c : Client)

def put (i : ℕ) (call : ApiCall) : Client := { c with calls := c.calls.set i call }

def setSession (session : Option ClientSession) : Client :=
  { c with
    accessToken := session.map ClientSession.accessToken
    refreshToken := session.map ClientSession.refreshToken
    stored := session.map ClientSession.refreshToken }

/-- `refreshSession`, where there is a token: who comes first spends it. -/
def refreshSession (token : String) : Client :=
  match c.refreshInFlight with
  | none => { c with refreshInFlight := some token, spent := c.spent ++ [token] }
  | some _ => c

/-- `api`. -/
def api (path : String) (options : RequestOptions) (minted : String) : Client :=
  let idempotencyKey :=
    if options.method = .get then none else some (options.idempotencyKey.getD minted)
  let call : ApiCall := { path, options, idempotencyKey, phase := .sleeping }
  { c with calls := c.calls ++ [call.attempt c.accessToken true false] }

/-- The head of a response has arrived. -/
def received (i : ℕ) (call : ApiCall) (allowRefresh second : Bool) (head : Head) : Client :=
  match if head.status = 401 ∧ allowRefresh then truthy c.refreshToken else none with
  | some token => (c.refreshSession token).put i { call with phase := .refreshing second head }
  | none =>
    if head.status = 204 then c.put i (call.returned head.status none)
    else c.put i { call with phase := .reading second head }

/-- The refresh has settled, and the calls that wait for it go on. -/
def settled : Option ClientSession → Client
  | some session =>
    let c := c.setSession (some session)
    { c with refreshInFlight := none, calls := c.calls.map fun call => call.resume c.accessToken }
  | none =>
    let waiting := (c.calls.filter ApiCall.isWaiting).length
    let c' := if waiting = 0 then c else c.setSession none
    { c' with
      refreshInFlight := none
      calls := c.calls.map ApiCall.giveUp
      sessionsLost := c.sessionsLost + waiting }

def next (c : Client) : ClientEvent → Option Client
  | .api path options minted => some (c.api path options minted)
  | .head i head => do
    let call ← c.calls[i]?
    match call.phase with
    | .fetching allowRefresh second => some (c.received i call allowRefresh second head)
    | _ => none
  | .body i body => do
    let call ← c.calls[i]?
    match call.phase with
    | .reading second head =>
      if head.ok then some (c.put i (call.returned head.status (some body)))
      else some (c.put i (call.thrown second (.status head.status)
        (some (.new head.status body head.statusText))))
    | _ => none
  | .broken i => do
    let call ← c.calls[i]?
    match call.phase with
    | .fetching _ second => some (c.put i (call.thrown second .broken none))
    | .reading second _ => some (c.put i (call.thrown second .broken none))
    | _ => none
  | .refreshed session => if c.refreshInFlight.isSome then some (c.settled session) else none
  | .wake i => do
    let call ← c.calls[i]?
    match call.phase with
    | .sleeping => some (c.put i (call.attempt c.accessToken true true))
    | _ => none
  | .setSession session => some (c.setSession session)

end Client

end TakaFlow
