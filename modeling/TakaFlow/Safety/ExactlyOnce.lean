import TakaFlow.Spec.Effects

/-!
# Exactly-once requests

Whatever requests arrive under one idempotency key of one user, one of them at most does its work.
The others get its answer or an error, and an error leaves nothing behind.
-/

namespace TakaFlow

open Txn

/-- What a request writes into the row of its key. -/
structure Claim where
  userId : Uuid
  key : String
  endpoint : String
  requestHash : String

/-- The claim with which a call begins, if it does. -/
def Call.claim? (P : Platform) : Call → Option Claim
  | .sendMoney user key _ raw _ => some ⟨user, key, sendEndpoint, hashRequest P sendEndpoint raw⟩
  | .reverseTransfer user reference key raw _ =>
    some ⟨user, key, reverseEndpoint ++ ":" ++ reference,
      hashRequest P (reverseEndpoint ++ ":" ++ reference) raw⟩
  | .createRequest user key _ raw _ =>
    some ⟨user, key, createRequestEndpoint, hashRequest P createRequestEndpoint raw⟩
  | .acceptRequest user request key raw _ =>
    some ⟨user, key, acceptEndpoint ++ ":" ++ uuidText request,
      hashRequest P (acceptEndpoint ++ ":" ++ uuidText request) raw⟩
  | .createSplit user key _ raw _ =>
    some ⟨user, key, splitEndpoint, hashRequest P splitEndpoint raw⟩
  | .createSchedule user key _ raw _ =>
    some ⟨user, key, createScheduleEndpoint, hashRequest P createScheduleEndpoint raw⟩
  | _ => none

variable {P : Platform} {watched : Token → Prop} {may : ℕ → Database → Token → Prop}
  {now : Timestamp} {call : Call} {reply : Reply} {x y : Database}

/-! ### The table of keys -/

/-- Calls without a key leave the table alone; the others are idempotent. -/
lemma CommitSpec.keys (h : CommitSpec P watched may now call reply x y) :
    match call.claim? P with
    | none => y.idempotencyKeys = x.idempotencyKeys
    | some c => ∃ work, Idempotent c.userId c.key c.endpoint c.requestHash work now reply x y := by
  cases call with
  | register input context =>
    obtain ⟨user, account, m, z, h⟩ := h
    obtain ⟨token, rfl⟩ := h.session
    exact h.notes.idempotencyKeys
  | sendMoney user key input raw context => exact ⟨_, h.2⟩
  | reverseTransfer user reference key raw context => exact ⟨_, h⟩
  | createRequest user key input raw context => exact ⟨_, h.2⟩
  | acceptRequest user id key raw context => exact ⟨_, h⟩
  | createSplit user key input raw context =>
    obtain ⟨shares, -, h⟩ := h
    exact ⟨_, h⟩
  | createSchedule user key input raw context => exact ⟨_, h.2⟩
  | declineRequest user id reason context =>
    cases h with
    | first found actor pending notes => exact notes.idempotencyKeys
    | again => rfl
  | cancelRequest user id context =>
    cases h with
    | first found actor pending notes => exact notes.idempotencyKeys
    | again => rfl
  | expireRequests batchSize =>
    obtain ⟨rows, -, h⟩ := h
    have hkeys := h.notes.idempotencyKeys
    rw [Database.expire_rest] at hkeys
    exact hkeys
  | pauseSchedule user id context =>
    cases h with
    | first found owner legal notes => exact notes.idempotencyKeys
    | again => rfl
  | resumeSchedule user id context =>
    cases h with
    | first found owner legal notes => exact notes.idempotencyKeys
    | again => rfl
  | cancelSchedule user id context =>
    cases h with
    | first found owner legal notes => exact notes.idempotencyKeys
    | again => rfl
  | makeScheduleDue id =>
    obtain ⟨s, h⟩ := h
    rw [h.row]
    rfl
  | runSchedule id =>
    obtain ⟨outcome, -, h⟩ := h
    cases h with
    | notClaimed => rfl
    | duplicate => rfl
    | skipped due upserted late notes =>
      have hkeys := notes.idempotencyKeys
      rw [upserted.rest] at hkeys
      exact hkeys
    | paid due upserted inTime sender recipient capped enabled executes notes =>
      have hkeys := notes.idempotencyKeys
      rw [upserted.rest] at hkeys
      exact hkeys
    | deferred due upserted attempts later =>
      rw [upserted.rest]
      rfl
    | failed due upserted notes =>
      have hkeys := notes.idempotencyKeys
      rw [upserted.rest] at hkeys
      exact hkeys
  | setOwnFreeze user frozen context =>
    cases h with
    | same => rfl
    | set owner found notClosed notes => exact notes.idempotencyKeys
  | setAccountStatus user status reason label context =>
    obtain ⟨account, h⟩ := h
    exact h.notes.idempotencyKeys
  | closeAccount user => cases h <;> rfl

/-- After the work the table has one row more: the completed claim. -/
lemma mem_completed {d e : Database} {r : IdempotencyKey} (status : ℕ) (body : Json)
    (now : Timestamp) (hid : d.idempotencyKeys.has r.id = false)
    (hkeys : e.idempotencyKeys = (d.insertKey r).idempotencyKeys) (row : IdempotencyKey) :
    row ∈ (e.setKey (r.complete status body now)).idempotencyKeys ↔
      row ∈ d.idempotencyKeys ∨ row = r.complete status body now := by
  have hnone := (Table.has_eq_false _ _).mp hid
  have hother : ∀ q ∈ d.idempotencyKeys, q.id ≠ r.id := (Table.get?_eq_none _ _).mp hnone
  simp only [Database.setKey, Table.mem_modify, hkeys, Database.insertKey, Table.mem_insert hnone,
    IdempotencyKey.complete]
  constructor
  · rintro ⟨q, hq | rfl, rfl⟩
    · rw [if_neg (hother q hq)]
      exact .inl hq
    · exact .inr (if_pos rfl)
  · rintro (hq | rfl)
    · exact ⟨row, .inl hq, (if_neg (hother row hq)).symm⟩
    · exact ⟨r, .inr rfl, (if_pos rfl).symm⟩

/-! ### Commits and rows -/

/-- The commit that did the work of a claim. -/
structure Did (P : Platform) (c : Claim) (r : Record) : Prop where
  claim : r.call.claim? P = some c
  reply : ∃ status body, r.reply = .outcome status body false
  work : CommitSpec P (fun _ => False) (fun _ _ _ => True) r.now r.call r.reply r.before r.after

def IdempotencyKey.claim (row : IdempotencyKey) : Claim :=
  ⟨row.userId, row.key, row.endpoint, row.requestHash⟩

/-- The row is the record of this commit: it appeared with it, completed, with its answer. -/
structure Filed (P : Platform) (r : Record) (row : IdempotencyKey) : Prop where
  did : Did P row.claim r
  state : row.state = .completed
  answer : ∃ status body, r.reply = .outcome status body false ∧
    row.responseStatus = some status ∧ row.responseBody = some body
  unused : r.before.idempotencyKeys.has row.id = false
  present : row ∈ r.after.idempotencyKeys

/-- A commit that repeats the answer of another one, and does nothing else. -/
structure Repeats (P : Platform) (c : Claim) (r r' : Record) : Prop where
  idle : r.after = r.before
  did : ∃ c', Did P c' r' ∧ c'.userId = c.userId ∧ c'.key = c.key ∧ c'.requestHash = c.requestHash
  answer : ∃ status body, r.reply = .outcome status body true ∧
    r'.reply = .outcome status body false

/-- The rows of the table and the commits made so far. -/
structure Filing (P : Platform) (done : List Record) (d : Database) : Prop where
  rows : ∀ row ∈ d.idempotencyKeys, ∃ r ∈ done, Filed P r row
  commits : ∀ r ∈ done, ∀ c, Did P c r → ∃ row ∈ d.idempotencyKeys, row.claim = c
  once : ∀ r ∈ done, ∀ r' ∈ done, ∀ c c', Did P c r → Did P c' r' → c.userId = c'.userId →
    c.key = c'.key → r = r'
  others : ∀ r ∈ done, ∀ c, r.call.claim? P = some c → Did P c r ∨ ∃ r' ∈ done, Repeats P c r r'

namespace Filing

variable {done : List Record} {r : Record}

lemma start : Filing P [] seed where
  rows _ h := absurd h List.not_mem_nil
  commits _ h := absurd h List.not_mem_nil
  once _ h := absurd h List.not_mem_nil
  others _ h := absurd h List.not_mem_nil

/-- A commit that does no work under a key. -/
lemma idle (h : Filing P done r.before) (hkeys : r.after.idempotencyKeys = r.before.idempotencyKeys)
    (hdid : ∀ c, ¬ Did P c r)
    (hrepeats : ∀ c, r.call.claim? P = some c → ∃ r' ∈ done, Repeats P c r r') :
    Filing P (done ++ [r]) r.after := by
  constructor
  · intro row hrow
    rw [hkeys] at hrow
    obtain ⟨q, hq, hfiled⟩ := h.rows row hrow
    exact ⟨q, List.mem_append_left _ hq, hfiled⟩
  · intro q hq c hc
    rw [hkeys]
    rcases List.mem_append.mp hq with hq | hq
    · exact h.commits q hq c hc
    · cases List.mem_singleton.mp hq
      exact absurd hc (hdid c)
  · intro q hq q' hq' c c' hc hc' hu hk
    rcases List.mem_append.mp hq with hq | hq
    · rcases List.mem_append.mp hq' with hq' | hq'
      · exact h.once q hq q' hq' c c' hc hc' hu hk
      · cases List.mem_singleton.mp hq'
        exact absurd hc' (hdid c')
    · cases List.mem_singleton.mp hq
      exact absurd hc (hdid c)
  · intro q hq c hc
    rcases List.mem_append.mp hq with hq | hq
    · refine (h.others q hq c hc).imp_right ?_
      rintro ⟨q', hq', hr⟩
      exact ⟨q', List.mem_append_left _ hq', hr⟩
    · cases List.mem_singleton.mp hq
      obtain ⟨q', hq', hr⟩ := hrepeats c hc
      exact .inr ⟨q', List.mem_append_left _ hq', hr⟩

/-- A commit that does the work of its claim: nobody has done it before. -/
lemma work {c : Claim} {row : IdempotencyKey} (h : Filing P done r.before) (hdid : Did P c r)
    (hunclaimed : r.before.findKey c.userId c.key = none)
    (hrow : row.claim = c) (hfiled : Filed P r row)
    (hrows : ∀ q, q ∈ r.after.idempotencyKeys ↔ q ∈ r.before.idempotencyKeys ∨ q = row) :
    Filing P (done ++ [r]) r.after := by
  have hc : ∀ c', Did P c' r → c' = c := fun c' hc' =>
    Option.some.inj (hc'.claim.symm.trans hdid.claim)
  have hnew : ∀ q ∈ done, ∀ c', Did P c' q → c'.userId = c.userId → c'.key ≠ c.key := by
    intro q hq c' hc' hu hk
    obtain ⟨row', hrow', rfl⟩ := h.commits q hq c' hc'
    have := List.find?_eq_none.mp hunclaimed row' hrow'
    simp only [decide_eq_true_eq] at this
    exact this ⟨hu, hk⟩
  constructor
  · intro q hq
    rcases (hrows q).mp hq with hq | rfl
    · obtain ⟨r', hr', hfiled'⟩ := h.rows q hq
      exact ⟨r', List.mem_append_left _ hr', hfiled'⟩
    · exact ⟨r, List.mem_append_right _ (List.mem_singleton_self r), hfiled⟩
  · intro q hq c' hc'
    rcases List.mem_append.mp hq with hq | hq
    · obtain ⟨row', hrow', heq⟩ := h.commits q hq c' hc'
      exact ⟨row', (hrows row').mpr (.inl hrow'), heq⟩
    · cases List.mem_singleton.mp hq
      exact ⟨row, (hrows row).mpr (.inr rfl), hrow.trans (hc c' hc').symm⟩
  · intro q hq q' hq' a b ha hb hu hk
    rcases List.mem_append.mp hq with hq | hq <;> rcases List.mem_append.mp hq' with hq' | hq'
    · exact h.once q hq q' hq' a b ha hb hu hk
    · cases List.mem_singleton.mp hq'
      cases hc b hb
      exact absurd hk (hnew q hq a ha hu)
    · cases List.mem_singleton.mp hq
      cases hc a ha
      exact absurd hk.symm (hnew q' hq' b hb hu.symm)
    · rw [List.mem_singleton.mp hq, List.mem_singleton.mp hq']
  · intro q hq c' hc'
    rcases List.mem_append.mp hq with hq | hq
    · refine (h.others q hq c' hc').imp_right ?_
      rintro ⟨q', hq', hr⟩
      exact ⟨q', List.mem_append_left _ hq', hr⟩
    · cases List.mem_singleton.mp hq
      cases Option.some.inj (hc'.symm.trans hdid.claim)
      exact .inl hdid

/-- The step lemma. -/
lemma step (h : Filing P done r.before)
    (hspec : CommitSpec P (fun _ => False) (fun _ _ _ => True) r.now r.call r.reply r.before
      r.after) : Filing P (done ++ [r]) r.after := by
  have hkeys := hspec.keys
  cases hclaim : r.call.claim? P with
  | none =>
    rw [hclaim] at hkeys
    refine h.idle hkeys (fun c hc => ?_) fun c hc => ?_
    · cases hclaim.symm.trans hc.claim
    · rw [hclaim] at hc
      cases hc
  | some c =>
    rw [hclaim] at hkeys
    obtain ⟨work, hidem⟩ := hkeys
    obtain ⟨session, call, now, reply, hooks, before, after⟩ := r
    simp only at h hspec hclaim hidem ⊢
    cases hidem with
    | @replay _ row status hr huser hkey hhash hstate hstatus =>
      refine h.idle rfl (fun c' hc' => ?_) fun c' hc' => ?_
      · obtain ⟨_, _, hreply⟩ := hc'.reply
        cases hreply
      · cases Option.some.inj (hclaim.symm.trans hc')
        obtain ⟨r', hr', hfiled⟩ := h.rows row hr
        obtain ⟨status', body, hreply, hst, hbody⟩ := hfiled.answer
        cases Option.some.inj (hst.symm.trans hstatus)
        refine ⟨r', hr', rfl, ⟨_, hfiled.did, huser, hkey, hhash⟩, _, body, ?_, hreply⟩
        rw [hbody]
        rfl
    | @fresh _ e id result hunclaimed hdone hkeys =>
      have hdid :
          Did P c ⟨session, call, now, .outcome result.1 result.2 false, hooks, before, _⟩ :=
        ⟨hclaim, ⟨_, _, rfl⟩, hspec⟩
      have hrows := mem_completed result.1 result.2 now hunclaimed.id hkeys
      refine h.work hdid hunclaimed.key rfl ?_ hrows
      exact ⟨hdid, rfl, ⟨_, _, rfl, rfl, rfl⟩, hunclaimed.id, (hrows _).mpr (.inr rfl)⟩

end Filing

/-! ### The guarantee -/

/-- Exactly-once handling of the requests of a run. -/
structure ExactlyOnce (P : Platform) (s : State) : Prop where
  /-- One session at most does the work under a key of a user. -/
  once : ∀ r ∈ s.history, ∀ r' ∈ s.history, ∀ c c', Did P c r → Did P c' r' →
    c.userId = c'.userId → c.key = c'.key → r.session = r'.session
  /-- Any other one that returns repeats the answer to the same request. -/
  others : ∀ r ∈ s.history, ∀ c, r.call.claim? P = some c →
    Did P c r ∨ ∃ r' ∈ s.history, Repeats P c r r'
  /-- All the rest fail, and nothing of them is among the commits. -/
  ended : ∀ i x, s.sessions[i]? = some x → Ended s i x.phase
  /-- Each session commits once, and nothing but these commits has made the state. -/
  commits : (s.history.map Commit.session).Nodup ∧ Linked seed s.history s.db
  /-- Every row is completed, with the answer of the commit that did the work. -/
  keys : ∀ row ∈ s.db.idempotencyKeys, ∃ r ∈ s.history, Filed P r row
  /-- A key whose requests have all failed is as good as new. -/
  usable : ∀ user key, (∀ r ∈ s.history, ∀ c, Did P c r → c.userId = user → c.key ≠ key) →
    s.db.findKey user key = none

/-- Requests are handled exactly once in every run. -/
theorem requests_exactly_once {s : State} (h : Reachable P s) : ExactlyOnce P s := by
  have hsound := h.sound
  have hfiling : Filing P s.history s.db :=
    hsound.linked.accumulate (I := Filing P) .start
      fun done r hr hfiling => hfiling.step (hsound.commits r hr).1
  constructor
  · intro r hr r' hr' c c' hc hc' hu hk
    rw [hfiling.once r hr r' hr' c c' hc hc' hu hk]
  · exact hfiling.others
  · exact fun i x hx => h.ended hx
  · exact ⟨h.recorded.apart, hsound.linked⟩
  · exact hfiling.rows
  · intro user key hnone
    simp only [Database.findKey, List.find?_eq_none, decide_eq_true_eq]
    rintro row hrow ⟨hu, hk⟩
    obtain ⟨r, hr, hfiled⟩ := hfiling.rows row hrow
    exact hnone r hr _ hfiled.did hu hk

/-- The same transfer twice under one key. -/
def repeatedRun : List Step :=
  sampleRun ++ session 3 400 (.sendMoney 100 "k" ⟨"01722222222", 2500, none⟩ .null {})

theorem requests_exactly_once_repeated :
    (State.after sample repeatedRun).history.length = 4 ∧
      (State.after sample repeatedRun).db.idempotencyKeys.rows.length = 1 ∧
      ExactlyOnce sample (State.after sample repeatedRun) :=
  ⟨by decide +kernel, by decide +kernel, requests_exactly_once (reachable_after sample repeatedRun)⟩

end TakaFlow
