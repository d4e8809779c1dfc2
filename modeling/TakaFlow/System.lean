import TakaFlow.Accounts
import TakaFlow.Schedules
import TakaFlow.Splits
import TakaFlow.Lib.History

/-!
# The system

Sessions of the modelled functions over one database. A run interleaves their statements; each
retry of `withTransaction`, each retry of a client and each tick of a worker is a session of its
own.
-/

namespace TakaFlow

open Txn

/-- A call of one of the modelled functions. -/
inductive Call where
  | register (input : RegisterInput) (context : RequestContext)
  | sendMoney (senderUserId : Uuid) (idempotencyKey : String) (input : CreateTransferInput)
      (rawBody : Json) (context : RequestContext)
  | reverseTransfer (actorUserId : Uuid) (reference idempotencyKey : String) (rawBody : Json)
      (context : RequestContext)
  | createRequest (requesterUserId : Uuid) (idempotencyKey : String) (input : CreateRequestInput)
      (rawBody : Json) (context : RequestContext)
  | acceptRequest (payerUserId requestId : Uuid) (idempotencyKey : String) (rawBody : Json)
      (context : RequestContext)
  | declineRequest (payerUserId requestId : Uuid) (reason : Option String)
      (context : RequestContext)
  | cancelRequest (requesterUserId requestId : Uuid) (context : RequestContext)
  | expireRequests (batchSize : ℕ)
  | createSplit (creatorUserId : Uuid) (idempotencyKey : String) (input : CreateSplitInput)
      (rawBody : Json) (context : RequestContext)
  | createSchedule (ownerUserId : Uuid) (idempotencyKey : String) (input : CreateScheduleInput)
      (rawBody : Json) (context : RequestContext)
  | pauseSchedule (ownerUserId id : Uuid) (context : RequestContext)
  | resumeSchedule (ownerUserId id : Uuid) (context : RequestContext)
  | cancelSchedule (ownerUserId id : Uuid) (context : RequestContext)
  | makeScheduleDue (id : Uuid)
  | runSchedule (id : Uuid)
  | setOwnFreeze (userId : Uuid) (frozen : Bool) (context : RequestContext)
  | setAccountStatus (userId : Uuid) (status : OperatorStatus) (reason : Option String)
      (actorLabel : String) (context : RequestContext)
  | closeAccount (userId : Uuid)

/-- The transaction of a call. -/
def body (P : Platform) : Call → Tx Reply
  | .register input context => register P input context
  | .sendMoney user key input raw context => sendMoney P user key input raw context
  | .reverseTransfer user reference key raw context =>
    reverseTransfer P user reference key raw context
  | .createRequest user key input raw context => createRequest P user key input raw context
  | .acceptRequest user request key raw context => acceptRequest P user request key raw context
  | .declineRequest user request reason context => declineRequest user request reason context
  | .cancelRequest user request context => cancelRequest user request context
  | .expireRequests batchSize => expireRequests batchSize
  | .createSplit user key input raw context => createSplit P user key input raw context
  | .createSchedule user key input raw context => createSchedule P user key input raw context
  | .pauseSchedule user id context => pauseSchedule user id context
  | .resumeSchedule user id context => resumeSchedule user id context
  | .cancelSchedule user id context => cancelSchedule user id context
  | .makeScheduleDue id => makeScheduleDue id
  | .runSchedule id => runSchedule P id
  | .setOwnFreeze user frozen context => setOwnFreeze user frozen context
  | .setAccountStatus user status reason label context =>
    setAccountStatus user status reason label context
  | .closeAccount user => closeAccount user

/-! ### Runs -/

/-- One stripe of the treasury, as the migrations seed it. -/
def treasuryStripe (id : Uuid) : Account :=
  { id, userId := none, type := .system, status := .active, balanceMinor := 0 }

/-- The database after the migrations. -/
def seed : Database :=
  { accounts := ⟨treasuryAccountIds.map treasuryStripe, by decide⟩ }

abbrev State : Type 1 := Sys Database Token DriverError Env Hook Error Reply Call

abbrev Step : Type := Event DriverError Env Call

abbrev Record : Type := Commit Database Hook Reply Call

/-- The states of the runs that start from the seeded database at some time and whose steps all
meet a condition. -/
def ReachableIf (P : Platform) (ok : State → Step → Prop) (s : State) : Prop :=
  ∃ t, Reaches (body P) ok (Sys.start seed t) s

/-- The states of all runs. -/
def Reachable (P : Platform) (s : State) : Prop := ReachableIf P (fun _ _ => True) s

/-! ### A sample run -/

/-- A platform with the default settings. -/
def sample : Platform :=
  { config := {}
    policy := {}
    sha256 := id
    stringifyString := fun s => "\"" ++ s ++ "\""
    stringifyNumber := fun q => toString q.num
    hashtext := fun s => s.length
    signJwt := fun phone _ _ _ => phone
    base64url := fun _ => ""
    addDay := (· + secondsPerDay * microsPerSecond)
    addWeek := (· + 7 * secondsPerDay * microsPerSecond)
    addMonth := (· + 30 * secondsPerDay * microsPerSecond) }

def drawn (k : ℕ) : Env := { uuid := k, serial := 2 * k, nextSerial := 2 * k + 1 }

/-- `n` steps of session `i`. -/
def advance (i n k : ℕ) : List Step := (List.range n).map fun j => .step i (drawn (k + j))

/-- A call and the whole of its session `i`. -/
def session (i k : ℕ) (call : Call) : List Step :=
  .begin call :: advance i 40 k ++ [.finish i]

def asha : Call := .register ⟨"01711111111", "Asha", "", ""⟩ {}

def babu : Call := .register ⟨"01722222222", "Babu", "", ""⟩ {}

/-- Where a run on a platform leads. -/
def State.after (P : Platform) (events : List Step) : State :=
  (Sys.start seed 1800000000000000).play (body P) (fun _ _ => true) events

lemma reachable_after (P : Platform) (events : List Step) : Reachable P (State.after P events) :=
  ⟨_, .play (fun _ _ _ => trivial) events .refl⟩

lemma reachableIf_after {ok : State → Step → Prop} (P : Platform) (events : List Step)
    (hok : ∀ e ∈ events, ∀ s, ok s e) : ReachableIf P ok (State.after P events) :=
  ⟨_, .playAll events hok .refl⟩

/-- Where a run leads when the steps that break a condition have to wait. -/
def State.afterIf (P : Platform) (allowed : State → Step → Bool) (events : List Step) : State :=
  (Sys.start seed 1800000000000000).play (body P) allowed events

lemma reachableIf_afterIf {ok : State → Step → Prop} {allowed : State → Step → Bool}
    (hok : ∀ s e, allowed s e = true → ok s e) (P : Platform) (events : List Step) :
    ReachableIf P ok (State.afterIf P allowed events) :=
  ⟨_, .play hok events .refl⟩

/-- A condition on the calls of a run, seen on a session. -/
lemma forall_session {ok : State → Step → Prop} {i k : ℕ} {call : Call}
    (hcall : ∀ s, ok s (.begin call)) (hstep : ∀ s j x, ok s (.step j x))
    (hfinish : ∀ s j, ok s (.finish j)) : ∀ e ∈ session i k call, ∀ s, ok s e := by
  intro e he s
  simp only [session, advance, List.cons_append, List.mem_cons, List.mem_append, List.mem_map,
    List.not_mem_nil, or_false] at he
  rcases he with rfl | ⟨j, -, rfl⟩ | rfl
  · exact hcall s
  · exact hstep s _ _
  · exact hfinish s _

/-- Asha and Babu register, and Asha sends Babu money. -/
def sampleRun : List Step :=
  session 0 100 asha ++ session 1 200 babu ++
    session 2 300 (.sendMoney 100 "k" ⟨"01722222222", 2500, none⟩ .null {})

example : ((State.after sample sampleRun).db.accounts.rows.map fun a => (a.id, a.balanceMinor)) =
    [(1, -20000000), (2, 0), (3, 0), (4, 0), (5, 0), (6, 0), (7, 0), (8, 0), (101, 9997500),
      (201, 10002500)] := by decide +kernel

end TakaFlow
