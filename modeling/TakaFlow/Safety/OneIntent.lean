import TakaFlow.Client
import Mathlib.Tactic.SplitIfs

/-!
# One intent, one key

Whatever the network does, all the requests of a call carry its key, each of them after the first
follows an answer that may be tried again, and no refresh token is spent twice.
-/

namespace TakaFlow

/-! ### The statements -/

/-- A session that is set brings a refresh token the page has not spent. -/
def Client.renews (c : Client) : ClientEvent → Bool
  | .refreshed (some session) => session.refreshToken ∉ c.spent
  | .setSession (some session) => session.refreshToken ∉ c.spent
  | _ => true

/-- What holds of the tokens of a page: calls wait exactly while a refresh is under way. -/
structure Client.RefreshesOnce (c : Client) : Prop where
  once : c.spent.Nodup
  shared : c.refreshInFlight.isSome = true ↔ ∃ call ∈ c.calls, call.isWaiting = true
  current : ∀ token, c.refreshToken = some token → token ∈ c.spent → c.refreshInFlight = some token
  persisted : c.stored = c.refreshToken

/-- The request is the call's own, but for the access token. -/
structure ApiCall.Asks (call : ApiCall) (request : HttpRequest) : Prop where
  path : request.path = call.path
  method : request.method = call.options.method
  body : request.body = call.options.body
  header : ∀ name, name ≠ "authorization" → request.header name = (call.request none).header name
  key : ∀ key, call.idempotencyKey = some key → key ≠ "" →
    request.header "idempotency-key" = some key

/-- The answers after which a request is sent again. -/
inductive Answer.Repeats (idempotencyKey : Option String) : Answer → Prop where
  | broken : Repeats idempotencyKey .broken
  | unauthenticated : Repeats idempotencyKey (.status 401)
  | unavailable (key : idempotencyKey.isSome = true) : Repeats idempotencyKey (.status 503)

/-- The outcome of a call is what the last answer says; one that may be tried again has been. -/
inductive ApiCall.Ended (call : ApiCall) : CallPhase → Prop where
  | fulfilled {value : Option Json} (head : Head)
      (last : call.answers.getLast? = some (.status head.status)) (ok : head.ok = true) :
      Ended call (.fulfilled value)
  | refused {error : ApiError} (last : call.answers.getLast? = some (.status error.status))
      (again : call.retryable (some error) = true → 2 ≤ call.sent.length) :
      Ended call (.rejected (some error))
  | broken (last : call.answers.getLast? = some .broken) (again : 2 ≤ call.sent.length) :
      Ended call (.rejected none)

namespace CallPhase

/-- Is an attempt under way? -/
def isOpen : CallPhase → Bool
  | .fetching _ _ => true
  | .refreshing _ _ => true
  | .reading _ _ => true
  | _ => false

def isOver : CallPhase → Bool
  | .fulfilled _ => true
  | .rejected _ => true
  | _ => false

end CallPhase

/-- What holds of a call. -/
structure ApiCall.Intends (call : ApiCall) : Prop where
  alike : ∀ request ∈ call.sent, call.Asks request
  bounded : call.sent.length ≤ 4
  answered : call.answers.length + (if call.phase.isOpen = true then 1 else 0) = call.sent.length
  repeated : ∀ answer ∈ if call.phase.isOver = true then call.answers.dropLast else call.answers,
    answer.Repeats call.idempotencyKey
  ended : call.phase.isOver = true → call.Ended call.phase

/-! ### Requests -/

lemma lookup_setHeader (name value other : String) (headers : List (String × String)) :
    (setHeader name value headers).lookup other =
      if other = name then some value else headers.lookup other := by
  have hcons : ∀ (header : String × String) (headers : List (String × String)),
      (header :: headers).lookup other =
        if other = header.1 then some header.2 else headers.lookup other := by
    intro header headers
    rw [List.lookup_cons]
    by_cases h : other = header.1
    · rw [if_pos h, beq_iff_eq.mpr h]
    · rw [if_neg h, beq_eq_false_iff_ne.mpr h]
  induction headers with
  | nil => exact hcons (name, value) []
  | cons header headers ih =>
    unfold setHeader
    by_cases hname : header.1 = name
    · rw [if_pos hname, hcons, hcons, hname]
      split_ifs <;> rfl
    · rw [if_neg hname, hcons, hcons, ih]
      split_ifs with hheader hother
      · exact absurd (hheader.symm.trans hother) hname
      · rfl
      · rfl
      · rfl

namespace ApiCall

variable {call : ApiCall}

lemma header_request (accessToken : Option String) {name : String} (h : name ≠ "authorization") :
    (call.request accessToken).header name = (call.request none).header name := by
  have hauthorization : ∀ (headers : List (String × String)),
      ((truthy accessToken).elim headers fun token =>
        setHeader "authorization" ("Bearer " ++ token) headers).lookup name =
        headers.lookup name := by
    intro headers
    cases truthy accessToken with
    | none => rfl
    | some token => rw [Option.elim_some, lookup_setHeader, if_neg h]
  unfold HttpRequest.header request
  cases truthy call.idempotencyKey with
  | none =>
    simp only [Option.elim_none, hauthorization]
    rfl
  | some key =>
    simp only [Option.elim_some, lookup_setHeader, hauthorization]
    rfl

lemma asks_request (accessToken : Option String) : call.Asks (call.request accessToken) where
  path := rfl
  method := rfl
  body := rfl
  header _ h := header_request accessToken h
  key key hkey hne := by
    have htruthy : truthy call.idempotencyKey = some key := by
      rw [hkey]
      exact Option.filter_eq_some_iff.mpr ⟨rfl, decide_eq_true hne⟩
    unfold HttpRequest.header request
    rw [htruthy]
    simp only [Option.elim_some, lookup_setHeader, if_true]

end ApiCall

/-! ### One call -/

namespace CallPhase

lemma isOver_of_isOpen {phase : CallPhase} (h : phase.isOpen = true) : phase.isOver = false := by
  cases phase with
  | fulfilled value => cases h
  | rejected error => cases h
  | _ => rfl

/-- The most requests a call has sent in a phase: two for each attempt. -/
def budget : CallPhase → ℕ
  | .fetching allowRefresh second => (if second then 3 else 1) + if allowRefresh then 0 else 1
  | .refreshing second _ => if second then 3 else 1
  | .reading second _ => if second then 4 else 2
  | .sleeping => 2
  | .fulfilled _ => 4
  | .rejected _ => 4

/-- Is this the second attempt? -/
def isSecond : CallPhase → Bool
  | .fetching _ second => second
  | .refreshing second _ => second
  | .reading second _ => second
  | _ => false

/-- The phases in which an attempt can end. -/
inductive Awaits : CallPhase → Bool → Prop where
  | fetching (allowRefresh second : Bool) : Awaits (.fetching allowRefresh second) second
  | reading (second : Bool) (head : Head) : Awaits (.reading second head) second

lemma Awaits.isOpen {phase : CallPhase} {second : Bool} (h : phase.Awaits second) :
    phase.isOpen = true := by
  cases h <;> rfl

lemma Awaits.isSecond {phase : CallPhase} {second : Bool} (h : phase.Awaits second) :
    phase.isSecond = second := by
  cases h <;> rfl

lemma Awaits.budget_le {phase : CallPhase} {second : Bool} (h : phase.Awaits second) :
    phase.budget ≤ if second = true then 4 else 2 := by
  cases h with
  | fetching allowRefresh second => cases allowRefresh <;> cases second <;> decide
  | reading second head => exact Nat.le_refl _

end CallPhase

/-- What `thrown` is given. -/
inductive Answer.Raises : Answer → Option ApiError → Prop where
  | broken : Raises .broken none
  | refused (error : ApiError) : Raises (.status error.status) (some error)

namespace ApiCall

structure Inv (call : ApiCall) : Prop where
  alike : ∀ request ∈ call.sent, call.Asks request
  budget : call.sent.length ≤ call.phase.budget
  answered : call.answers.length + (if call.phase.isOpen = true then 1 else 0) = call.sent.length
  repeated : ∀ answer ∈ if call.phase.isOver = true then call.answers.dropLast else call.answers,
    answer.Repeats call.idempotencyKey
  again : call.phase.isSecond = true → 2 ≤ call.sent.length
  slept : call.phase = .sleeping → 1 ≤ call.sent.length
  refused : ∀ second head, call.phase = .refreshing second head → head.status = 401
  ended : call.phase.isOver = true → call.Ended call.phase

variable {call : ApiCall} {phase : CallPhase} {second : Bool}

lemma Inv.intends (h : call.Inv) : call.Intends where
  alike := h.alike
  bounded := by
    refine Nat.le_trans h.budget ?_
    cases call.phase with
    | fetching allowRefresh second => cases allowRefresh <;> cases second <;> decide
    | refreshing second head => cases second <;> simp [CallPhase.budget]
    | reading second head => cases second <;> simp [CallPhase.budget]
    | sleeping => decide
    | fulfilled value => exact Nat.le_refl 4
    | rejected error => exact Nat.le_refl 4
  answered := h.answered
  repeated := h.repeated
  ended := h.ended

/-- The requests of a call are still its own when only its record changes. -/
lemma Asks.sent {request : HttpRequest} (h : call.Asks request) {answers : List Answer}
    {sent : List HttpRequest} :
    ({ call with phase, sent, answers } : ApiCall).Asks request :=
  ⟨h.path, h.method, h.body, h.header, h.key⟩

/-- An attempt goes on. -/
lemma Inv.goesOn (h : call.Inv) (hopen : call.phase.isOpen = true) (hphase : phase.isOpen = true)
    (hbudget : call.phase.budget ≤ phase.budget) (hsecond : phase.isSecond = call.phase.isSecond)
    (hrefused : ∀ second head, phase = .refreshing second head → head.status = 401) :
    ({ call with phase } : ApiCall).Inv where
  alike request hr := (h.alike request hr).sent
  budget := Nat.le_trans h.budget hbudget
  answered := by
    have hanswered := h.answered
    rw [if_pos hopen] at hanswered
    rw [if_pos hphase]
    exact hanswered
  repeated answer ha := by
    have hrepeated := h.repeated answer
    rw [CallPhase.isOver_of_isOpen hopen] at hrepeated
    rw [CallPhase.isOver_of_isOpen hphase] at ha
    exact hrepeated ha
  again hagain := h.again (hsecond ▸ hagain)
  slept hsleeping := by
    have hsleep : phase = .sleeping := hsleeping
    rw [hsleep] at hphase
    cases hphase
  refused := hrefused
  ended hended := by
    have hend : phase.isOver = true := hended
    rw [CallPhase.isOver_of_isOpen hphase] at hend
    cases hend

/-- A request is sent when all before it have been answered. -/
lemma attempt_inv (accessToken : Option String) (allowRefresh : Bool)
    (halike : ∀ request ∈ call.sent, call.Asks request)
    (hanswered : call.answers.length = call.sent.length)
    (hrepeated : ∀ answer ∈ call.answers, answer.Repeats call.idempotencyKey)
    (hbudget : call.sent.length + 1 ≤ (CallPhase.fetching allowRefresh second).budget)
    (hagain : second = true → 1 ≤ call.sent.length) :
    (call.attempt accessToken allowRefresh second).Inv where
  alike request hr := by
    obtain hr | hr := List.mem_append.mp hr
    · exact (halike request hr).sent
    · rw [List.mem_singleton.mp hr]
      exact (asks_request accessToken).sent
  budget := by
    unfold attempt
    rw [List.length_append]
    exact hbudget
  answered := by
    unfold attempt
    rw [List.length_append, hanswered]
    rfl
  repeated := hrepeated
  again h := by
    unfold attempt
    rw [List.length_append]
    exact Nat.succ_le_succ (hagain h)
  slept h := by cases h
  refused second head h := by cases h
  ended h := by cases h

lemma Inv.length_answers (h : call.Inv) (hopen : call.phase.isOpen = true) (answer : Answer) :
    (call.answers ++ [answer]).length = call.sent.length := by
  have hanswered := h.answered
  rw [if_pos hopen] at hanswered
  rw [List.length_append]
  exact hanswered

lemma Inv.repeats (h : call.Inv) (hopen : call.phase.isOpen = true) :
    ∀ answer ∈ call.answers, answer.Repeats call.idempotencyKey := by
  have hrepeated := h.repeated
  rw [CallPhase.isOver_of_isOpen hopen] at hrepeated
  exact hrepeated

/-- An attempt ends, and the call with it. -/
lemma Inv.ends (h : call.Inv) (hphase : call.phase.Awaits second) {answer : Answer}
    (hover : phase.isOver = true)
    (hended : ({ call with phase, answers := call.answers ++ [answer] } : ApiCall).Ended phase) :
    ({ call with phase, answers := call.answers ++ [answer] } : ApiCall).Inv where
  alike request hr := (h.alike request hr).sent
  budget := by
    have hbudget := Nat.le_trans h.budget hphase.budget_le
    have hover' : phase.budget = 4 := by cases phase <;> first | rfl | cases hover
    change call.sent.length ≤ phase.budget
    rw [hover']
    split_ifs at hbudget <;> omega
  answered := by
    have hclosed : phase.isOpen = false := by cases phase <;> first | rfl | cases hover
    change (call.answers ++ [answer]).length + (if phase.isOpen = true then 1 else 0) = _
    rw [hclosed, h.length_answers hphase.isOpen]
    rfl
  repeated a ha := by
    change a ∈ if phase.isOver = true then (call.answers ++ [answer]).dropLast else _ at ha
    rw [if_pos hover, List.dropLast_concat] at ha
    exact h.repeats hphase.isOpen a ha
  again hsecond := by
    have hagain : phase.isSecond = true := hsecond
    cases phase with
    | fulfilled value => cases hagain
    | rejected error => cases hagain
    | _ => cases hover
  slept hsleeping := by
    have hsleep : phase = .sleeping := hsleeping
    rw [hsleep] at hover
    cases hover
  refused second head hrefreshing := by
    have hrefresh : phase = .refreshing second head := hrefreshing
    rw [hrefresh] at hover
    cases hover
  ended _ := hended

lemma Inv.returned (h : call.Inv) (hphase : call.phase.Awaits second) {head : Head}
    (hok : head.ok = true) (value : Option Json) : (call.returned head.status value).Inv :=
  h.ends hphase rfl (.fulfilled head List.getLast?_concat hok)

lemma Inv.thrown (h : call.Inv) (hphase : call.phase.Awaits second) {answer : Answer}
    {error : Option ApiError} (hraises : answer.Raises error) :
    (call.thrown second answer error).Inv := by
  unfold ApiCall.thrown
  by_cases hagain : ¬second = true ∧ call.retryable error = true
  · obtain ⟨hfirst, hretryable⟩ := hagain
    rw [if_pos ⟨hfirst, hretryable⟩]
    have hlength := h.length_answers hphase.isOpen answer
    constructor
    · exact fun request hr => (h.alike request hr).sent
    · have hbudget := Nat.le_trans h.budget hphase.budget_le
      rw [if_neg hfirst] at hbudget
      exact hbudget
    · exact hlength
    · intro a ha
      obtain ha | ha := List.mem_append.mp ha
      · exact h.repeats hphase.isOpen a ha
      · rw [List.mem_singleton.mp ha]
        cases hraises with
        | broken => exact .broken
        | refused error =>
          obtain ⟨hstatus, hkey⟩ := of_decide_eq_true hretryable
          rw [hstatus]
          exact .unavailable hkey
    · intro hsecond
      cases hsecond
    · intro _
      change 1 ≤ call.sent.length
      rw [← hlength, List.length_append]
      exact Nat.le_add_left 1 _
    · intro second head hrefreshing
      cases hrefreshing
    · intro hover
      cases hover
  · rw [if_neg hagain]
    have htwice : call.retryable error = true → 2 ≤ call.sent.length := by
      intro hretryable
      refine h.again (hphase.isSecond.trans ?_)
      exact not_not.mp fun hfirst => hagain ⟨hfirst, hretryable⟩
    refine h.ends hphase rfl ?_
    cases hraises with
    | broken => exact .broken List.getLast?_concat (htwice rfl)
    | refused error => exact .refused List.getLast?_concat htwice

/-- The refresh has succeeded. -/
lemma Inv.resume (h : call.Inv) (accessToken : Option String) : (call.resume accessToken).Inv := by
  unfold ApiCall.resume
  cases hphase : call.phase with
  | refreshing second head =>
    have hopen : call.phase.isOpen = true := by rw [hphase]; rfl
    refine attempt_inv accessToken false (fun request hr => (h.alike request hr).sent)
      (h.length_answers hopen _) ?_ ?_ ?_
    · intro a ha
      obtain ha | ha := List.mem_append.mp ha
      · exact h.repeats hopen a ha
      · rw [List.mem_singleton.mp ha, h.refused second head hphase]
        exact .unauthenticated
    · have hbudget := h.budget
      rw [hphase] at hbudget
      exact Nat.succ_le_succ hbudget
    · intro hsecond
      refine Nat.le_trans (by decide) (h.again ?_)
      rw [hphase]
      exact hsecond
  | _ => exact h

lemma Inv.giveUp (h : call.Inv) : call.giveUp.Inv := by
  unfold ApiCall.giveUp
  cases hphase : call.phase with
  | refreshing second head =>
    refine h.goesOn ?_ rfl ?_ ?_ fun second head hrefreshing => by cases hrefreshing
    · rw [hphase]
      rfl
    · rw [hphase]
      cases second <;> simp [CallPhase.budget]
    · rw [hphase]
      rfl
  | _ => exact h

/-- The pause is over. -/
lemma Inv.wake (h : call.Inv) (hphase : call.phase = .sleeping) (accessToken : Option String) :
    (call.attempt accessToken true true).Inv := by
  have hanswered := h.answered
  have hbudget := h.budget
  have hrepeated := h.repeated
  rw [hphase] at hanswered hbudget hrepeated
  exact attempt_inv accessToken true h.alike hanswered hrepeated (Nat.succ_le_succ hbudget)
    fun _ => h.slept hphase

/-! ### Calls that wait -/

lemma isWaiting_of_awaits (h : call.phase.Awaits second) : call.isWaiting = false := by
  unfold ApiCall.isWaiting
  generalize call.phase = phase at h
  cases h <;> rfl

lemma isWaiting_thrown (second : Bool) (answer : Answer) (error : Option ApiError) :
    (call.thrown second answer error).isWaiting = false := by
  unfold isWaiting thrown
  by_cases h : ¬second = true ∧ call.retryable error = true
  · simp only [if_pos h]
  · simp only [if_neg h]

lemma isWaiting_resume (accessToken : Option String) :
    (call.resume accessToken).isWaiting = false := by
  unfold resume
  cases hphase : call.phase with
  | refreshing second head => rfl
  | _ =>
    unfold isWaiting
    rw [hphase]

lemma isWaiting_giveUp : call.giveUp.isWaiting = false := by
  unfold giveUp
  cases hphase : call.phase with
  | refreshing second head => rfl
  | _ =>
    unfold isWaiting
    rw [hphase]

end ApiCall

/-! ### The page -/

/-- What a turn of the event loop can do. -/
inductive ClientMove (c : Client) : ClientEvent → Client → Prop where
  | calls (path : String) (options : RequestOptions) (minted : String) :
      ClientMove c (.api path options minted) (c.api path options minted)
  | refuses {e : ClientEvent} {i : ℕ} {call : ApiCall} {second : Bool} {head : Head}
      {token : String} (hi : c.calls[i]? = some call) (hphase : call.phase = .fetching true second)
      (hstatus : head.status = 401) (htoken : c.refreshToken = some token) :
      ClientMove c e ((c.refreshSession token).put i { call with phase := .refreshing second head })
  | reads {e : ClientEvent} {i : ℕ} {call : ApiCall} {allowRefresh second : Bool} {head : Head}
      (hi : c.calls[i]? = some call) (hphase : call.phase = .fetching allowRefresh second) :
      ClientMove c e (c.put i { call with phase := .reading second head })
  | returns {e : ClientEvent} {i : ℕ} {call : ApiCall} {second : Bool} {head : Head}
      {value : Option Json} (hi : c.calls[i]? = some call) (hphase : call.phase.Awaits second)
      (hok : head.ok = true) : ClientMove c e (c.put i (call.returned head.status value))
  | throws {e : ClientEvent} {i : ℕ} {call : ApiCall} {second : Bool} {answer : Answer}
      {error : Option ApiError} (hi : c.calls[i]? = some call) (hphase : call.phase.Awaits second)
      (hraises : answer.Raises error) : ClientMove c e (c.put i (call.thrown second answer error))
  | settles (session : Option ClientSession) (hrefresh : c.refreshInFlight.isSome = true) :
      ClientMove c (.refreshed session) (c.settled session)
  | wakes {e : ClientEvent} {i : ℕ} {call : ApiCall} (hi : c.calls[i]? = some call)
      (hphase : call.phase = .sleeping) :
      ClientMove c e (c.put i (call.attempt c.accessToken true true))
  | sets (session : Option ClientSession) :
      ClientMove c (.setSession session) (c.setSession session)

section

variable {c c' : Client} {e : ClientEvent} {i : ℕ} {call : ApiCall}

lemma clientMove_of_received {allowRefresh second : Bool} {head : Head}
    (hi : c.calls[i]? = some call) (hphase : call.phase = .fetching allowRefresh second) :
    ClientMove c e (c.received i call allowRefresh second head) := by
  have hawaits : call.phase.Awaits second := hphase ▸ .fetching allowRefresh second
  have hdone : ClientMove c e (if head.status = 204 then c.put i (call.returned head.status none)
      else c.put i { call with phase := .reading second head }) := by
    split_ifs with hempty
    · refine .returns hi hawaits ?_
      unfold Head.ok
      rw [hempty]
      rfl
    · exact .reads hi hphase
  unfold Client.received
  by_cases hrefused : head.status = 401 ∧ allowRefresh = true
  · rw [if_pos hrefused]
    cases htoken : truthy c.refreshToken with
    | none => exact hdone
    | some token =>
      obtain ⟨hstatus, rfl⟩ := hrefused
      exact .refuses hi hphase hstatus (Option.filter_eq_some_iff.mp htoken).1
  · rw [if_neg hrefused]
    exact hdone

lemma clientMove_of_next (h : c.next e = some c') : ClientMove c e c' := by
  cases e with
  | api path options minted =>
    cases h
    exact .calls path options minted
  | head i head =>
    obtain ⟨call, hi, h⟩ := Option.bind_eq_some_iff.mp h
    cases hphase : call.phase with
    | fetching allowRefresh second =>
      rw [hphase] at h
      cases h
      exact clientMove_of_received hi hphase
    | _ =>
      rw [hphase] at h
      cases h
  | body i body =>
    obtain ⟨call, hi, h⟩ := Option.bind_eq_some_iff.mp h
    cases hphase : call.phase with
    | reading second head =>
      have hawaits : call.phase.Awaits second := hphase ▸ .reading second head
      rw [hphase] at h
      simp only at h
      split_ifs at h with hok
      · cases h
        exact .returns hi hawaits hok
      · cases h
        exact .throws hi hawaits (.refused (.new head.status body head.statusText))
    | _ =>
      rw [hphase] at h
      cases h
  | broken i =>
    obtain ⟨call, hi, h⟩ := Option.bind_eq_some_iff.mp h
    cases hphase : call.phase with
    | fetching allowRefresh second =>
      rw [hphase] at h
      cases h
      exact .throws hi (hphase ▸ .fetching allowRefresh second) .broken
    | reading second head =>
      rw [hphase] at h
      cases h
      exact .throws hi (hphase ▸ .reading second head) .broken
    | _ =>
      rw [hphase] at h
      cases h
  | refreshed session =>
    unfold Client.next at h
    simp only at h
    split_ifs at h with hrefresh
    cases h
    exact .settles session hrefresh
  | wake i =>
    obtain ⟨call, hi, h⟩ := Option.bind_eq_some_iff.mp h
    cases hphase : call.phase with
    | sleeping =>
      rw [hphase] at h
      cases h
      exact .wakes hi hphase
    | _ =>
      rw [hphase] at h
      cases h
  | setSession session =>
    cases h
    exact .sets session

lemma refreshSession_calls (c : Client) (token : String) :
    (c.refreshSession token).calls = c.calls := by
  unfold Client.refreshSession
  cases c.refreshInFlight <;> rfl

lemma settled_calls (session : Option ClientSession) :
    ∃ f : ApiCall → ApiCall, (c.settled session).calls = c.calls.map f ∧
      ∀ call, (call.Inv → (f call).Inv) ∧ (f call).isWaiting = false := by
  cases session with
  | some session => exact ⟨_, rfl, fun call => ⟨fun h => h.resume _, ApiCall.isWaiting_resume _⟩⟩
  | none =>
    refine ⟨ApiCall.giveUp, ?_, fun call => ⟨fun h => h.giveUp, ApiCall.isWaiting_giveUp⟩⟩
    rfl

/-- The step lemma of the calls. -/
lemma Client.calls_step (h : ∀ call ∈ c.calls, call.Inv) (hmove : ClientMove c e c') :
    ∀ call ∈ c'.calls, call.Inv := by
  have hput : ∀ {i : ℕ} {x : ApiCall}, x.Inv → ∀ call ∈ c.calls.set i x, call.Inv := by
    intro i x hx call hcall
    obtain hcall | rfl := List.mem_or_eq_of_mem_set hcall
    · exact h call hcall
    · exact hx
  cases hmove with
  | calls path options minted =>
    intro call hcall
    obtain hcall | hcall := List.mem_append.mp hcall
    · exact h call hcall
    · rw [List.mem_singleton.mp hcall]
      exact ApiCall.attempt_inv c.accessToken true (fun r hr => absurd hr List.not_mem_nil) rfl
        (fun a ha => absurd ha List.not_mem_nil) (Nat.le_refl 1) fun hsecond => by cases hsecond
  | @refuses _ i call second head token hi hphase hstatus htoken =>
    have hcall := h call (List.mem_of_getElem? hi)
    change ∀ x ∈ (c.refreshSession token).calls.set i _, x.Inv
    rw [refreshSession_calls]
    refine hput (hcall.goesOn ?_ rfl ?_ ?_ ?_)
    · rw [hphase]
      rfl
    · rw [hphase]
      exact Nat.le_refl _
    · rw [hphase]
      rfl
    · intro second' head' hrefreshing
      cases hrefreshing
      exact hstatus
  | @reads _ i call allowRefresh second head hi hphase =>
    have hcall := h call (List.mem_of_getElem? hi)
    refine hput (hcall.goesOn ?_ rfl ?_ ?_ fun second head h => by cases h)
    · rw [hphase]
      rfl
    · rw [hphase]
      cases allowRefresh <;> cases second <;> simp [CallPhase.budget]
    · rw [hphase]
      rfl
  | returns hi hphase hok => exact hput ((h _ (List.mem_of_getElem? hi)).returned hphase hok _)
  | throws hi hphase hraises => exact hput ((h _ (List.mem_of_getElem? hi)).thrown hphase hraises)
  | settles session hrefresh =>
    obtain ⟨f, hcalls, hf⟩ := settled_calls (c := c) session
    intro call hcall
    rw [hcalls] at hcall
    obtain ⟨x, hx, rfl⟩ := List.mem_map.mp hcall
    exact (hf x).1 (h x hx)
  | wakes hi hphase => exact hput ((h _ (List.mem_of_getElem? hi)).wake hphase _)
  | sets session => exact h

/-! ### The tokens -/

/-- Calls that do not wait change. -/
lemma Client.RefreshesOnce.put {x : ApiCall} (h : c.RefreshesOnce) (hi : c.calls[i]? = some call)
    (hcall : call.isWaiting = false) (hx : x.isWaiting = false) : (c.put i x).RefreshesOnce where
  once := h.once
  shared := by
    refine h.shared.trans ⟨?_, ?_⟩
    · rintro ⟨y, hy, hwaiting⟩
      obtain ⟨j, hj⟩ := List.mem_iff_getElem?.mp hy
      have hij : i ≠ j := by
        rintro rfl
        rw [hi] at hj
        cases hj
        rw [hcall] at hwaiting
        cases hwaiting
      refine ⟨y, List.mem_iff_getElem?.mpr ⟨j, ?_⟩, hwaiting⟩
      exact (List.getElem?_set_ne hij).trans hj
    · rintro ⟨y, hy, hwaiting⟩
      obtain hy | rfl := List.mem_or_eq_of_mem_set hy
      · exact ⟨y, hy, hwaiting⟩
      · rw [hx] at hwaiting
        cases hwaiting
  current := h.current
  persisted := h.persisted

/-- A call waits for the refresh, which it starts if none is under way. -/
lemma Client.RefreshesOnce.wait {x : ApiCall} {token : String} (h : c.RefreshesOnce)
    (hi : c.calls[i]? = some call) (hx : x.isWaiting = true)
    (htoken : c.refreshToken = some token) :
    ((c.refreshSession token).put i x).RefreshesOnce := by
  have hmem : ∃ y ∈ c.calls.set i x, y.isWaiting = true := by
    obtain ⟨hlt, -⟩ := List.getElem?_eq_some_iff.mp hi
    exact ⟨x, List.mem_set hlt x, hx⟩
  unfold Client.refreshSession
  cases hrefresh : c.refreshInFlight with
  | none =>
    have hunspent : token ∉ c.spent := by
      intro hspent
      have hcurrent := h.current token htoken hspent
      rw [hrefresh] at hcurrent
      cases hcurrent
    constructor
    · exact List.nodup_append.mpr ⟨h.once, List.pairwise_singleton _ token, fun a ha b hb heq =>
        hunspent (List.mem_singleton.mp hb ▸ heq ▸ ha)⟩
    · exact ⟨fun _ => hmem, fun _ => rfl⟩
    · intro token' htoken' _
      rw [htoken] at htoken'
      exact htoken'
    · exact h.persisted
  | some token' =>
    constructor
    · exact h.once
    · refine ⟨fun _ => hmem, fun _ => ?_⟩
      change c.refreshInFlight.isSome = true
      rw [hrefresh]
      rfl
    · exact h.current
    · exact h.persisted

/-- The refresh settles, and nobody waits any more. -/
lemma Client.RefreshesOnce.settled {session : Option ClientSession} (h : c.RefreshesOnce)
    (hrefresh : c.refreshInFlight.isSome = true) (hok : c.renews (.refreshed session) = true) :
    (c.settled session).RefreshesOnce := by
  obtain ⟨f, hcalls, hf⟩ := settled_calls (c := c) session
  have hnobody : ¬∃ call ∈ (c.settled session).calls, call.isWaiting = true := by
    rw [hcalls]
    rintro ⟨call, hcall, hwaiting⟩
    obtain ⟨x, -, rfl⟩ := List.mem_map.mp hcall
    rw [(hf x).2] at hwaiting
    cases hwaiting
  cases session with
  | some session =>
    refine ⟨h.once, ⟨fun hnone => (by cases hnone), fun hwaits => absurd hwaits hnobody⟩, ?_, rfl⟩
    intro token htoken hspent
    cases htoken
    exact absurd hspent (of_decide_eq_true hok)
  | none =>
    obtain ⟨call, hcall, hwaiting⟩ := h.shared.mp hrefresh
    have hwaits : (c.calls.filter ApiCall.isWaiting).length ≠ 0 := by
      intro hzero
      have hmem := List.mem_filter.mpr ⟨hcall, hwaiting⟩
      rw [List.length_eq_zero_iff.mp hzero] at hmem
      cases hmem
    unfold Client.settled at hnobody ⊢
    simp only [if_neg hwaits] at hnobody ⊢
    refine ⟨h.once, ⟨fun hnone => (by cases hnone), fun hwaits => absurd hwaits hnobody⟩, ?_, rfl⟩
    intro token htoken
    cases htoken

/-- The step lemma of the tokens. -/
lemma Client.RefreshesOnce.step (h : c.RefreshesOnce) (hok : c.renews e = true)
    (hmove : ClientMove c e c') : c'.RefreshesOnce := by
  cases hmove with
  | calls path options minted =>
    refine ⟨h.once, h.shared.trans ⟨?_, ?_⟩, h.current, h.persisted⟩
    · rintro ⟨call, hcall, hwaiting⟩
      exact ⟨call, List.mem_append_left _ hcall, hwaiting⟩
    · rintro ⟨call, hcall, hwaiting⟩
      obtain hcall | hcall := List.mem_append.mp hcall
      · exact ⟨call, hcall, hwaiting⟩
      · rw [List.mem_singleton.mp hcall] at hwaiting
        cases hwaiting
  | refuses hi hphase hstatus htoken => exact h.wait hi rfl htoken
  | @reads _ i call allowRefresh second head hi hphase =>
    have hawaits : call.phase.Awaits second := hphase ▸ .fetching allowRefresh second
    exact h.put hi (ApiCall.isWaiting_of_awaits hawaits) rfl
  | returns hi hphase hok => exact h.put hi (ApiCall.isWaiting_of_awaits hphase) rfl
  | throws hi hphase hraises =>
    exact h.put hi (ApiCall.isWaiting_of_awaits hphase) (ApiCall.isWaiting_thrown _ _ _)
  | settles session hrefresh => exact h.settled hrefresh hok
  | wakes hi hphase =>
    refine h.put hi ?_ rfl
    unfold ApiCall.isWaiting
    rw [hphase]
  | sets session =>
    refine ⟨h.once, h.shared, ?_, rfl⟩
    intro token htoken hspent
    cases session with
    | none => cases htoken
    | some session =>
      cases htoken
      exact absurd hspent (of_decide_eq_true hok)

/-! ### Runs -/

/-- All the requests of a call are alike but for the access token, and carry its key; there are at
most four; each after the first follows a lost request, a 401, or a 503 that the key makes harmless;
and the outcome is what the last answer says. -/
theorem intents_hold {stored : Option String}
    (h : Machine.Reached Client.next (fun _ _ => True) (Client.load stored) c) :
    ∀ call ∈ c.calls, call.Intends := by
  have hinv : ∀ call ∈ c.calls, call.Inv := by
    refine h.invariant (I := fun c => ∀ call ∈ c.calls, call.Inv) ?_ fun c e c' hc _ hnext => ?_
    · intro call hcall
      cases hcall
    · exact Client.calls_step hc (clientMove_of_next hnext)
  exact fun call hcall => (hinv call hcall).intends

end

/-! ### A page -/

/-- A payment and a listing are refused, since the access token is gone, and share a refresh; then
the payment is answered 503 and sent again. -/
def refusedTwice : List ClientEvent :=
  [.api "/transfers" { method := .post, body := some (.obj []), idempotencyKey := some "k" } "m",
    .api "/accounts/me" {} "m", .head 0 ⟨401, "Unauthorized"⟩, .head 1 ⟨401, "Unauthorized"⟩,
    .refreshed (some ⟨"a", "r1"⟩), .head 1 ⟨200, "OK"⟩, .body 1 (.obj []),
    .head 0 ⟨503, "Service Unavailable"⟩, .body 0 .null, .wake 0, .head 0 ⟨201, "Created"⟩]

def refusedPage : Client :=
  Machine.play Client.next Client.renews (Client.load (some "r0")) refusedTwice

theorem intents_hold_refusedPage :
    refusedPage.calls.map (fun call => call.answers) =
        [[.status 401, .status 503], [.status 401, .status 200]] ∧
      ∀ call ∈ refusedPage.calls, call.Intends :=
  ⟨by decide +kernel,
    intents_hold (.play (fun _ _ _ => trivial) refusedTwice .start)⟩

end TakaFlow
