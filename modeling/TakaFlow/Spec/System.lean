import TakaFlow.Spec.Accounts
import TakaFlow.Spec.Schedules
import TakaFlow.Spec.Splits
import TakaFlow.Lib.History
import TakaFlow.System

/-!
# What every run commits

`CommitSpec` says for each call what a transaction of it commits, as one step from the state before
the commit to the state after it. Every run of the interleaved system is a sequence of such steps.
-/

namespace TakaFlow

open Txn

/-- What `requireShares` lets pass. -/
structure Shares (P : Platform) (input : CreateSplitInput) (shares : List ℤ) : Prop where
  allocated : allocate input = .ok shares
  total : shares.sum = input.totalAmountMinor
  min : ∀ share ∈ legShares input shares, (P.config.minTransferMinor : ℤ) ≤ share

/-- The bounds of a single amount. -/
def Within (P : Platform) (amountMinor : ℤ) : Prop :=
  (P.config.minTransferMinor : ℤ) ≤ amountMinor ∧ amountMinor ≤ P.config.maxTransferMinor

section

variable (P : Platform) (watched : Token → Prop) (may : ℕ → Database → Token → Prop)
  (now : Timestamp)

/-! ### The work of each endpoint -/

def SendWork (user : Uuid) (input : CreateTransferInput) (keyId : Uuid) (result : ℕ × Json)
    (x y : Database) : Prop :=
  ∃ m payee, result = (201, transferReceipt m.posted payee (isAnomalous P input.amountMinor)) ∧
    Sent P watched now user input keyId m payee x y

def ReverseWork (user : Uuid) (reference : String) (keyId : Uuid) (result : ℕ × Json)
    (x y : Database) : Prop :=
  ∃ original m, result = (201, reversalResult original m.posted) ∧
    Reversed P now user reference keyId original m x y

def RequestWork (user : Uuid) (input : CreateRequestInput) (_keyId : Uuid) (result : ℕ × Json)
    (x y : Database) : Prop :=
  ∃ payer created, result = (201, .obj [("request",
      requestDTO created user ⟨payer.name, payer.phone⟩ none)]) ∧
    Requested now user input payer created x y

def AcceptWork (user requestId keyId : Uuid) (result : ℕ × Json) (x y : Database) : Prop :=
  ∃ request m requester, result = (200, acceptResult request user requester m.posted) ∧
    Settled P watched may now user requestId keyId request m x y

def SplitWork (user : Uuid) (input : CreateSplitInput) (shares : List ℤ) (_keyId : Uuid)
    (_result : ℕ × Json) (x y : Database) : Prop :=
  ∃ payers split created, SplitCreated now user input shares payers split created x y

def ScheduleWork (user : Uuid) (input : CreateScheduleInput) (_keyId : Uuid) (result : ℕ × Json)
    (x y : Database) : Prop :=
  ∃ payee created,
    result = (201, .obj [("schedule", scheduleDTO created ⟨payee.name, payee.phone⟩)]) ∧
      ScheduleCreated now user input payee created x y

/-! ### The commit of each call -/

/-- What a transaction of this call, begun at `now`, commits. -/
def CommitSpec (call : Call) (reply : Reply) (x y : Database) : Prop :=
  match call with
  | .register input _ => ∃ user account m z, Registered P now input user account m x z y
  | .sendMoney user key input raw _ => Within P input.amountMinor ∧
    Idempotent user key sendEndpoint (hashRequest P sendEndpoint raw)
      (SendWork P watched now user input) now reply x y
  | .reverseTransfer user reference key raw _ =>
    Idempotent user key (reverseEndpoint ++ ":" ++ reference)
      (hashRequest P (reverseEndpoint ++ ":" ++ reference) raw)
      (ReverseWork P now user reference) now reply x y
  | .createRequest user key input raw _ => Within P input.amountMinor ∧
    Idempotent user key createRequestEndpoint (hashRequest P createRequestEndpoint raw)
      (RequestWork now user input) now reply x y
  | .acceptRequest user request key raw _ =>
    Idempotent user key (acceptEndpoint ++ ":" ++ uuidText request)
      (hashRequest P (acceptEndpoint ++ ":" ++ uuidText request) raw)
      (AcceptWork P watched may now user request) now reply x y
  | .declineRequest user request reason _ =>
    Terminated now user request .declined reason reply x y
  | .cancelRequest user request _ => Terminated now user request .cancelled none reply x y
  | .expireRequests _ => ∃ rows, reply = .count rows.length ∧ Expired now rows x y
  | .createSplit user key input raw _ => ∃ shares, Shares P input shares ∧
    Idempotent user key splitEndpoint (hashRequest P splitEndpoint raw)
      (SplitWork now user input (legShares input shares)) now reply x y
  | .createSchedule user key input raw _ => Within P input.amountMinor ∧
    Idempotent user key createScheduleEndpoint (hashRequest P createScheduleEndpoint raw)
      (ScheduleWork now user input) now reply x y
  | .pauseSchedule user id _ => Transitioned now user id .paused reply x y
  | .resumeSchedule user id _ => Transitioned now user id .active reply x y
  | .cancelSchedule user id _ => Transitioned now user id .cancelled reply x y
  | .makeScheduleDue id => ∃ s, MadeDue now id s x y
  | .runSchedule id => ∃ outcome, reply = .run outcome ∧ Ran P watched now id outcome x y
  | .setOwnFreeze user frozen _ => OwnFreeze now user frozen x y
  | .setAccountStatus user status _ _ _ => ∃ account, StatusSet now user status account x y
  | .closeAccount user => Closed user x y

end

variable {P : Platform} {watched : Token → Prop} {may : ℕ → Database → Token → Prop}

/-- A check before the first statement. -/
lemma wp_idempotently_of {userId : Uuid} {key endpoint requestHash : String} {now : Timestamp}
    {d : Database} {work : Uuid → Tx (ℕ × Json)} {p : Prop}
    {spec : Uuid → ℕ × Json → Database → Database → Prop} (hp : p)
    (hwork : ∀ d r, Claiming watched may now r d →
      wp (discipline watched may) (work r.id) (Worked watched may now r (spec r.id))
        (fun _ _ _ => True) (claimed now r) d) :
    wp (discipline watched may) (idempotently userId key endpoint requestHash work)
      (Commits (discipline watched may) fun reply hs x y =>
        (p ∧ Idempotent userId key endpoint requestHash spec now reply x y) ∧ Published hs y)
      (fun _ _ _ => True) (.start now) d :=
  wp_mono (fun _ _ _ => Commits.imp fun _ _ _ h => ⟨⟨hp, h.1⟩, h.2⟩) (fun _ _ _ h => h)
    (wp_idempotently hwork)

/-- The hooks of a commit publish balances it has written, but for a payment that the worker has
rolled back. -/
def Publishes (call : Call) (reply : Reply) (hs : List Hook) (y : Database) : Prop :=
  Published hs y ∨ reply.Refused ∧ ∃ id, call = .runSchedule id

lemma wp_published {p : Tx Reply} {call : Call} {now : ℕ} {d : Database}
    {post : Reply → Database → Database → Prop}
    (h : wp (discipline watched may) p (Commits (discipline watched may) fun reply hs x y =>
      post reply x y ∧ Published hs y) (fun _ _ _ => True) (.start now) d) :
    wp (discipline watched may) p (Commits (discipline watched may) fun reply hs x y =>
      post reply x y ∧ Publishes call reply hs y) (fun _ _ _ => True) (.start now) d :=
  wp_mono (fun _ _ _ => Commits.imp fun _ _ _ h => ⟨h.1, .inl h.2⟩) (fun _ _ _ h => h) h

/-- Every call meets its specification. -/
lemma wp_body (call : Call) (now : ℕ) (d : Database) :
    wp (discipline watched may) (body P call)
      (Commits (discipline watched may) fun reply hs x y =>
        CommitSpec P watched may now call reply x y ∧ Publishes call reply hs y)
      (fun _ _ _ => True) (.start now) d := by
  have hR := Throws.of_true (ε := Error) (Ctx.start now : Ctx Database Token Hook) fun _ => True
  have hbegin := Doing.begin watched may now d
  cases call with
  | register input context => exact wp_published wp_register
  | sendMoney user key input raw context =>
    simp only [body, sendMoney, Program.bind_eq, wp_bind]
    exact wp_requireLimits hR hbegin fun hmin hmax =>
      wp_published (wp_idempotently_of ⟨hmin, hmax⟩ fun d r h => wp_sendMoneyWork h)
  | reverseTransfer user reference key raw context =>
    exact wp_published (wp_idempotently fun d r h => wp_reverseTransferWork h)
  | createRequest user key input raw context =>
    simp only [body, createRequest, Program.bind_eq, wp_bind]
    exact wp_requireLimits hR hbegin fun hmin hmax =>
      wp_published (wp_idempotently_of ⟨hmin, hmax⟩ fun d r h => wp_createRequestWork h)
  | acceptRequest user request key raw context =>
    exact wp_published (wp_idempotently fun d r h => wp_acceptRequestWork h)
  | declineRequest user request reason context => exact wp_published wp_terminate
  | cancelRequest user request context => exact wp_published wp_terminate
  | expireRequests batchSize => exact wp_published wp_expireRequests
  | createSplit user key input raw context =>
    simp only [body, createSplit, requireShares, Program.bind_eq, wp_bind]
    split
    · trivial
    · rename_i shares hshares
      simp only [wp_bind, Program.pure_eq, wp_ret]
      refine wp_require hR hbegin fun hsum => wp_require hR hbegin fun hmin => ?_
      have hok : Shares P input shares := ⟨hshares, hsum, by simpa using hmin⟩
      exact wp_mono (fun _ _ _ => Commits.imp fun _ _ _ h => ⟨⟨shares, hok, h.1⟩, .inl h.2⟩)
        (fun _ _ _ h => h) (wp_idempotently fun d r h => wp_createSplitWork h)
  | createSchedule user key input raw context =>
    simp only [body, createSchedule, Program.bind_eq, wp_bind]
    refine wp_requireLimits hR hbegin fun hmin hmax => ?_
    refine wp_dateNow hbegin fun t x _ => wp_require hR hbegin fun _ => ?_
    exact wp_published (wp_idempotently_of ⟨hmin, hmax⟩ fun d r h => wp_createScheduleWork h)
  | pauseSchedule user id context => exact wp_published wp_transitionSchedule
  | resumeSchedule user id context => exact wp_published wp_transitionSchedule
  | cancelSchedule user id context => exact wp_published wp_transitionSchedule
  | makeScheduleDue id => exact wp_published wp_makeScheduleDue
  | runSchedule id =>
    exact wp_mono (fun _ _ _ => Commits.imp fun _ _ _ h => ⟨h.1, h.2.imp_right (⟨·, id, rfl⟩)⟩)
      (fun _ _ _ h => h) wp_runSchedule
  | setOwnFreeze user frozen context => exact wp_published wp_setOwnFreeze
  | setAccountStatus user status reason label context => exact wp_published wp_setAccountStatus
  | closeAccount user => exact wp_published wp_closeAccount

/-! ### Runs -/

/-- The condition on runs that a discipline speaks about. -/
abbrev Admits (watched : Token → Prop) (may : ℕ → Database → Token → Prop) (s : State)
    (e : Step) : Prop :=
  Sys.Admits (discipline watched may) s e

/-- The invariant of a run. -/
abbrev Sound (P : Platform) (watched : Token → Prop) (may : ℕ → Database → Token → Prop)
    (s : State) : Prop :=
  Sys.Inv (discipline watched may) (fun call now reply _ => CommitSpec P watched may now call reply)
    seed s

/-- The refinement: a run whose steps are admitted commits what the specifications say. -/
theorem ReachableIf.sound {ok : State → Step → Prop} {s : State}
    (hok : ∀ s e, ok s e → Admits watched may s e) (h : ReachableIf P ok s) :
    Sound P watched may s := by
  obtain ⟨t, h⟩ := h
  refine h.inv (fun call now d => ?_) hok
  exact wp_mono (fun _ _ _ => Commits.imp fun _ _ _ h => h.1) (fun _ _ _ h => h)
    (wp_body call now d)

/-- Nothing is asked of the runs: no mark is watched. -/
lemma admits_all (s : State) (e : Step) : Admits (fun _ => False) (fun _ _ _ => True) s e := by
  cases e with
  | step i x => exact fun _ _ _ _ => ⟨trivial, False.elim⟩
  | _ => trivial

theorem Reachable.sound {s : State} (h : Reachable P s) :
    Sound P (fun _ => False) (fun _ _ _ => True) s :=
  ReachableIf.sound (fun s e _ => admits_all s e) h

/-- What the hooks of the commits of a run publish. -/
lemma Reachable.publishes {s : State} (h : Reachable P s) :
    ∀ r ∈ s.history, Publishes r.call r.reply r.hooks r.after := by
  obtain ⟨t, h⟩ := h
  intro r hr
  have hbody : ∀ call now d, wp (discipline (fun _ => False) fun _ _ _ => True) (body P call)
      (Commits (discipline (fun _ => False) fun _ _ _ => True) fun reply hs x y =>
        CommitSpec P (fun _ => False) (fun _ _ _ => True) now call reply x y ∧
          Publishes call reply hs y) (fun _ _ _ => True) (.start now) d :=
    wp_body
  have hinv := h.inv hbody fun s e _ => admits_all s e
  exact (hinv.commits r hr).1.2

lemma Reachable.recorded {s : State} (h : Reachable P s) : s.Recorded := by
  obtain ⟨t, h⟩ := h
  exact h.recorded

/-- How a session ended, and that only a commit leaves something behind. -/
def Ended (s : State) (i : ℕ) (phase : Phase Database Token DriverError Env Hook Error Reply) :
    Prop :=
  match phase with
  | .running _ => True
  | .committed reply => ∃ r ∈ s.history, r.session = i ∧ r.reply = reply
  | .lost _ => False
  | .failed _ => ∀ r ∈ s.history, r.session ≠ i
  | .crashed => ∀ r ∈ s.history, r.session ≠ i

lemma Reachable.ended {s : State} (h : Reachable P s) {i : ℕ}
    {x : Session Database Token DriverError Env Hook Error Reply Call}
    (hx : s.sessions[i]? = some x) : Ended s i x.phase := by
  have hrecorded := h.recorded
  have hinv := (h.sound.sessions i x hx).2
  have hunrecorded : (∀ a, x.phase ≠ .committed a) → ∀ r ∈ s.history, r.session ≠ i := by
    rintro hphase r hr rfl
    obtain ⟨z, hz, -, hp⟩ := hrecorded.sessions r hr
    rw [hx] at hz
    cases hz
    exact hphase _ hp
  cases hp : x.phase with
  | running p => trivial
  | committed reply =>
    obtain ⟨r, hr, hi⟩ := hrecorded.committed i x reply hx hp
    obtain ⟨z, hz, -, hp'⟩ := hrecorded.sessions r hr
    rw [hi, hx] at hz
    cases hz
    rw [hp] at hp'
    cases hp'
    exact ⟨r, hr, hi, rfl⟩
  | lost a =>
    rw [hp] at hinv
    exact hinv
  | failed e => exact hunrecorded fun a ha => by rw [hp] at ha; cases ha
  | crashed => exact hunrecorded fun a ha => by rw [hp] at ha; cases ha

lemma ReachableIf.reachable {ok : State → Step → Prop} {s : State} (h : ReachableIf P ok s) :
    Reachable P s := by
  obtain ⟨t, h⟩ := h
  exact ⟨t, h.mono fun _ _ _ => trivial⟩

/-- What a run asks of the calls it begins holds of every commit. -/
lemma ReachableIf.calls {ok : State → Step → Prop} {s : State} {p : Call → Prop}
    (hok : ∀ s call, ok s (.begin call) → p call) (h : ReachableIf P ok s) :
    ∀ r ∈ s.history, p r.call := by
  intro r hr
  obtain ⟨x, hx, hcall, -⟩ := h.reachable.recorded.sessions r hr
  obtain ⟨t, h⟩ := h
  exact hcall ▸ h.calls hok x (List.mem_of_getElem? hx)

end TakaFlow
