import TakaFlow.Pin

/-!
# The lockout

How many wrong PINs are compared before the lock is set, and what happens while it is.
-/

namespace TakaFlow

open Txn

/-! ### Wrong PINs up to a lock -/

/-- The wrong PINs compared since the last accepted one, up to the first lock, and whether the lock
has been set since. -/
def tallyEvent (userId : Uuid) (t : ℕ × Bool) : PinEvent → ℕ × Bool
  | .wrong id => if id = userId ∧ t.2 = false then (t.1 + 1, false) else t
  | .locked id => if id = userId then (t.1, true) else t
  | .cleared _ _ _ => t
  | .accepted id _ _ => if id = userId then (0, false) else t

def tally (userId : Uuid) (log : List PinEvent) : ℕ × Bool :=
  log.foldl (tallyEvent userId) (0, false)

/-- Nothing is accepted or cleared under a lock. -/
def PinEvent.Unlocked : PinEvent → Prop
  | .accepted _ lockedUntil instant => inFuture lockedUntil instant = false
  | .cleared _ lockedUntil instant => inFuture lockedUntil instant = false
  | _ => True

structure LockoutHolds (c : PinConfig) (s : PinState) : Prop where
  bounded : ∀ userId, (tally userId s.log).1 ≤ c.maxPinAttempts
  closed : ∀ e ∈ s.log, e.Unlocked

/-! ### The runs considered -/

/-- Is the call between its comparison and the end of its write? -/
def PinPhase.pending : PinPhase → Bool
  | .failing _ => true
  | .clearing _ => true
  | _ => false

def PinPhase.isFailing : PinPhase → Bool
  | .failing _ => true
  | _ => false

/-- When a call compares its PIN the counter and the lock are as it has read them, and no other
call of the user is between its comparison and the end of its write. A call that has compared a
wrong PIN records it. -/
def OneAtATime (s : PinState) : PinStep → Prop
  | .compare i => ∀ x user, s.calls[i]? = some x → x.phase = .checked user →
      (∃ row ∈ s.users, row.id = x.userId ∧ row.failedPinAttempts = user.failedPinAttempts ∧
        row.pinLockedUntil = user.pinLockedUntil) ∧
      ∀ (j : ℕ) (y : PinCall), s.calls[j]? = some y → y.userId = x.userId →
        y.phase.pending = false
  | .abort i error => error ≠ none → ∀ x, s.calls[i]? = some x → x.phase.isFailing = false
  | .crash i => ∀ x, s.calls[i]? = some x → x.phase.isFailing = false
  | _ => True

/-! ### One step -/

section

variable {c : PinConfig} {verifySecret : (hash plain : String) → Bool} {s s' : PinState}

/-- What a step can be. -/
inductive PinMove (c : PinConfig) (s : PinState) : PinStep → PinState → Prop where
  | register (id : Uuid) (pinHash : String) (unused : s.users.get? id = none) :
      PinMove c s (.register id pinHash) { s with users := s.users.insert { id, pinHash } }
  | tick (n : ℕ) : PinMove c s (.tick n) { s with now := s.now + n }
  | begin (userId : Uuid) (pin : String) :
      PinMove c s (.begin userId pin) { s with calls := s.calls ++ [{ userId, pin }] }
  | read {i : ℕ} {x : PinCall} (hi : s.calls[i]? = some x) (hx : x.phase = .begun) :
      PinMove c s (.read i) (s.put i x (.loaded (s.users.get? x.userId)))
  | rejected {i : ℕ} {x : PinCall} {e : DomainError} (hi : s.calls[i]? = some x)
      (hx : x.phase.pending = false) : PinMove c s (.check i) (s.put i x (.returned (.error e)))
  | checked {i : ℕ} {x : PinCall} {user : PinUser} (hi : s.calls[i]? = some x)
      (hx : x.phase.pending = false) (unlocked : inFuture user.pinLockedUntil s.now = false) :
      PinMove c s (.check i) (s.put i x (.checked user))
  | wrong {i : ℕ} {x : PinCall} {user : PinUser} (hi : s.calls[i]? = some x)
      (hx : x.phase = .checked user) :
      PinMove c s (.compare i) ((s.put i x (.failing none)).note [.wrong x.userId])
  | right {i : ℕ} {x : PinCall} {user : PinUser} (hi : s.calls[i]? = some x)
      (hx : x.phase = .checked user) :
      PinMove c s (.compare i) (s.put i x (.clearing none))
  | accepted {i : ℕ} {x : PinCall} {user : PinUser} (hi : s.calls[i]? = some x)
      (hx : x.phase = .checked user) (hfailed : user.failedPinAttempts = 0)
      (hlock : user.pinLockedUntil = none) :
      PinMove c s (.compare i) ((s.put i x (.returned (.ok ()))).note
        [.accepted x.userId (s.lockedUntil x.userId) s.now])
  | pending {i : ℕ} {x : PinCall} {phase : PinPhase} {e : PinStep} (hi : s.calls[i]? = some x)
      (hx : x.phase.pending = true) (hphase : phase.pending = true)
      (hfailing : phase.isFailing = x.phase.isFailing) : PinMove c s e (s.put i x phase)
  | recorded {i : ℕ} {x : PinCall} {began : Timestamp} {e : DomainError}
      (hi : s.calls[i]? = some x) (hx : x.phase = .failing (some began)) :
      PinMove c s (.commit i) (PinState.note { s.put i x (.returned (.error e)) with
        users := s.users.modify x.userId (recordFailedAttempt c began) }
          (if c.maxPinAttempts ≤ (((s.users.modify x.userId (recordFailedAttempt c began)).get?
            x.userId).map PinUser.failedPinAttempts).getD 0 then [.locked x.userId] else []))
  | cleared {i : ℕ} {x : PinCall} {began : Timestamp} (hi : s.calls[i]? = some x)
      (hx : x.phase = .clearing (some began)) :
      PinMove c s (.commit i) (PinState.note { s.put i x (.returned (.ok ())) with
        users := s.users.modify x.userId clearFailedAttempts }
          [.cleared x.userId (s.lockedUntil x.userId) s.now,
            .accepted x.userId (s.lockedUntil x.userId) s.now])
  | aborted {i : ℕ} {x : PinCall} {e : DomainError} (hi : s.calls[i]? = some x) :
      PinMove c s (.abort i (some e)) (s.put i x (.returned (.error e)))
  | crashed {i : ℕ} {x : PinCall} (hi : s.calls[i]? = some x) :
      PinMove c s (.crash i) (s.put i x .crashed)

lemma inFuture_of_checkPinUser {row : Option PinUser} {now : Timestamp} {user : PinUser}
    (h : checkPinUser row now = .ok user) : inFuture user.pinLockedUntil now = false := by
  unfold checkPinUser at h
  split at h
  · cases h
  · split_ifs at h with _ hlocked
    cases h
    simpa using hlocked

lemma pinMove_of_next {e : PinStep} (h : s.next c verifySecret e = some s') : PinMove c s e s' := by
  cases e with
  | register id pinHash =>
    simp only [PinState.next] at h
    split_ifs at h with hhas
    cases h
    exact .register id pinHash ((Table.has_eq_false _ _).mp (Bool.not_eq_true _ ▸ hhas))
  | tick n => cases h; exact .tick n
  | begin userId pin => cases h; exact .begin userId pin
  | read i =>
    obtain ⟨x, hi, h⟩ := Option.bind_eq_some_iff.mp h
    split at h
    · cases h
      exact .read hi ‹_›
    · cases h
  | check i =>
    obtain ⟨x, hi, h⟩ := Option.bind_eq_some_iff.mp h
    split at h
    · rename_i row hx
      split at h
      · cases h
        exact .rejected hi (by rw [hx]; rfl)
      · rename_i user hcheck
        cases h
        exact .checked hi (by rw [hx]; rfl) (inFuture_of_checkPinUser hcheck)
    · cases h
  | compare i =>
    obtain ⟨x, hi, h⟩ := Option.bind_eq_some_iff.mp h
    split at h
    · rename_i user hx
      split_ifs at h with hok hclear
      · cases h
        exact .right hi hx
      · cases h
        rw [not_or, not_lt, Nat.le_zero, not_not] at hclear
        exact .accepted hi hx hclear.1 hclear.2
      · cases h
        exact .wrong hi hx
    · cases h
  | start i =>
    obtain ⟨x, hi, h⟩ := Option.bind_eq_some_iff.mp h
    split at h
    · cases h
      exact .pending hi (by rw [‹x.phase = _›]; rfl) rfl (by rw [‹x.phase = _›]; rfl)
    · cases h
      exact .pending hi (by rw [‹x.phase = _›]; rfl) rfl (by rw [‹x.phase = _›]; rfl)
    · cases h
  | commit i =>
    obtain ⟨x, hi, h⟩ := Option.bind_eq_some_iff.mp h
    split at h
    · cases h
      exact .recorded hi ‹_›
    · cases h
      exact .cleared hi ‹_›
    · cases h
  | abort i error =>
    obtain ⟨x, hi, h⟩ := Option.bind_eq_some_iff.mp h
    split at h
    · cases error with
      | none =>
        cases h
        exact .pending hi (by rw [‹x.phase = _›]; rfl) rfl (by rw [‹x.phase = _›]; rfl)
      | some e => cases h; exact .aborted hi
    · cases error with
      | none =>
        cases h
        exact .pending hi (by rw [‹x.phase = _›]; rfl) rfl (by rw [‹x.phase = _›]; rfl)
      | some e => cases h; exact .aborted hi
    · cases h
  | crash i =>
    obtain ⟨x, hi, h⟩ := Option.bind_eq_some_iff.mp h
    cases h
    exact .crashed hi

/-! ### The invariant -/

/-- What a call that has checked the lock may still rely on. -/
def PinCall.Ready (users : Table PinUser.id) (now : Timestamp) (x : PinCall) : Prop :=
  match x.phase with
  | .checked user => inFuture user.pinLockedUntil now = false
  | .clearing _ => ∃ row ∈ users, row.id = x.userId ∧ inFuture row.pinLockedUntil now = false
  | _ => True

/-- Until the lock is set the wrong PINs compared are the recorded ones and perhaps one that is
about to be recorded. -/
structure Tallied (c : PinConfig) (calls : List PinCall) (u : PinUser) (t : ℕ × Bool) : Prop where
  below : t.2 = false → u.failedPinAttempts < c.maxPinAttempts
  recorded : t.2 = false → t.1 ≤ u.failedPinAttempts ∨ (t.1 ≤ u.failedPinAttempts + 1 ∧
    ∃ x ∈ calls, x.userId = u.id ∧ x.phase.isFailing = true)

structure LockInv (c : PinConfig) (s : PinState) : Prop where
  bounded : ∀ userId, (tally userId s.log).1 ≤ c.maxPinAttempts
  counted : ∀ u ∈ s.users, Tallied c s.calls u (tally u.id s.log)
  unknown : ∀ userId, s.users.get? userId = none → tally userId s.log = (0, false)
  alone : ∀ (i j : ℕ) (x y : PinCall), s.calls[i]? = some x → s.calls[j]? = some y →
    x.userId = y.userId → x.phase.pending = true → y.phase.pending = true → i = j
  ready : ∀ x ∈ s.calls, x.Ready s.users s.now
  closed : ∀ e ∈ s.log, e.Unlocked

lemma inFuture_mono {lockedUntil : Option Timestamp} {now : Timestamp} (n : ℕ)
    (h : inFuture lockedUntil now = false) : inFuture lockedUntil (now + n) = false := by
  unfold inFuture at h ⊢
  rw [Option.any_eq_false] at h ⊢
  intro t ht
  have hle : ¬ toMillis now < toMillis t := by simpa using h t ht
  have hmono : toMillis now ≤ toMillis (now + n) := Nat.div_le_div_right (Nat.le_add_right _ _)
  rw [decide_eq_false_iff_not]
  exact fun hlt => hle (Nat.lt_of_le_of_lt hmono hlt)

lemma mem_calls_put {i : ℕ} {x y : PinCall} {phase : PinPhase}
    (h : y ∈ (s.put i x phase).calls) : y ∈ s.calls ∨ y = { x with phase } :=
  List.mem_or_eq_of_mem_set h

lemma getElem?_calls_put {i j : ℕ} {x y : PinCall} {phase : PinPhase}
    (h : (s.put i x phase).calls[j]? = some y) :
    (j = i ∧ y = { x with phase }) ∨ (j ≠ i ∧ s.calls[j]? = some y) := by
  simp only [PinState.put, List.getElem?_set] at h
  split_ifs at h with hij hlt
  · cases h
    exact .inl ⟨hij.symm, rfl⟩
  · exact .inr ⟨Ne.symm hij, h⟩

/-- No other call of this user is pending. -/
def Only (s : PinState) (i : ℕ) (x : PinCall) : Prop :=
  ∀ (j : ℕ) (y : PinCall), j ≠ i → s.calls[j]? = some y → y.userId = x.userId →
    y.phase.pending = false

lemma PinPhase.pending_of_isFailing {phase : PinPhase} (h : phase.isFailing = true) :
    phase.pending = true := by
  cases phase <;> first | rfl | cases h

namespace LockInv

variable {i : ℕ} {x : PinCall}

/-- A pending call is the only one of its user. -/
lemma only (h : LockInv c s) (hi : s.calls[i]? = some x) (hx : x.phase.pending = true) :
    Only s i x := by
  intro j y hj hy hu
  by_contra hpending
  exact hj (h.alone j i y x hy hi hu (by simpa using hpending) hx)

/-- At most one call of a user is pending after a call has moved. -/
lemma alone_put (h : LockInv c s) {phase : PinPhase} (honly : phase.pending = true → Only s i x) :
    ∀ (j k : ℕ) (y z : PinCall), (s.put i x phase).calls[j]? = some y →
      (s.put i x phase).calls[k]? = some z → y.userId = z.userId → y.phase.pending = true →
      z.phase.pending = true → j = k := by
  intro j k y z hy hz hu hpy hpz
  rcases getElem?_calls_put hy with ⟨rfl, rfl⟩ | ⟨hj, hy'⟩
  · rcases getElem?_calls_put hz with ⟨rfl, rfl⟩ | ⟨hk, hz'⟩
    · rfl
    · rw [honly hpy k z hk hz' hu.symm] at hpz
      cases hpz
  · rcases getElem?_calls_put hz with ⟨rfl, rfl⟩ | ⟨hk, hz'⟩
    · rw [honly hpz j y hj hy' hu] at hpy
      cases hpy
    · exact h.alone j k y z hy' hz' hu hpy hpz

/-- A failing call is still there after another one has moved. -/
lemma counted_put (h : LockInv c s) (hi : s.calls[i]? = some x) {phase : PinPhase} {u : PinUser}
    (hfailing : x.userId = u.id → x.phase.isFailing = true → phase.isFailing = true)
    (hu : u ∈ s.users) : Tallied c (s.put i x phase).calls u (tally u.id s.log) := by
  obtain ⟨hbelow, hrecorded⟩ := h.counted u hu
  refine ⟨hbelow, fun ht => (hrecorded ht).imp_right ?_⟩
  rintro ⟨hle, y, hy, hyu, hyf⟩
  refine ⟨hle, ?_⟩
  obtain ⟨j, hj⟩ := List.mem_iff_getElem?.mp hy
  by_cases hij : j = i
  · subst hij
    cases hi.symm.trans hj
    refine ⟨{ x with phase }, List.mem_of_getElem? (i := j) ?_, hyu, hfailing hyu hyf⟩
    simp only [PinState.put]
    rw [List.getElem?_set_self (List.getElem?_eq_some_iff.mp hj).1]
  · refine ⟨y, List.mem_of_getElem? (i := j) ?_, hyu, hyf⟩
    simp only [PinState.put]
    rw [List.getElem?_set_ne (Ne.symm hij)]
    exact hj

/-- A call moves and nothing else. -/
lemma put (h : LockInv c s) (hi : s.calls[i]? = some x) {phase : PinPhase}
    (honly : phase.pending = true → Only s i x)
    (hfailing : x.phase.isFailing = true → phase.isFailing = true)
    (hready : PinCall.Ready s.users s.now { x with phase }) : LockInv c (s.put i x phase) where
  bounded := h.bounded
  counted _ hu := h.counted_put hi (fun _ => hfailing) hu
  unknown := h.unknown
  alone := h.alone_put honly
  ready y hy := by
    rcases mem_calls_put hy with hy | rfl
    · exact h.ready y hy
    · exact hready
  closed := h.closed

end LockInv

/-! ### The invariant is preserved -/

section tally

variable {userId id : Uuid} {log : List PinEvent} {e : PinEvent}

lemma tally_append : tally userId (log ++ [e]) = tallyEvent userId (tally userId log) e := by
  rw [tally, List.foldl_append]
  rfl

lemma tallyEvent_wrong (t : ℕ × Bool) (h : t.2 = false) :
    tallyEvent userId t (.wrong userId) = (t.1 + 1, false) := if_pos ⟨rfl, h⟩

lemma tallyEvent_wrong_locked (t : ℕ × Bool) (h : t.2 = true) :
    tallyEvent userId t (.wrong id) = t := if_neg fun hid => by
  rw [hid.2] at h
  cases h

lemma tallyEvent_other {t : ℕ × Bool} (h : id ≠ userId) (lockedUntil : Option Timestamp)
    (instant : Timestamp) :
    tallyEvent userId t (.wrong id) = t ∧ tallyEvent userId t (.locked id) = t ∧
      tallyEvent userId t (.accepted id lockedUntil instant) = t :=
  ⟨if_neg fun hid => h hid.1, if_neg h, if_neg h⟩

end tally

section updates

variable {users : Table PinUser.id} {began : Timestamp} {id key : Uuid}

lemma get?_recordFailedAttempt_self : (users.modify key (recordFailedAttempt c began)).get? key =
    (users.get? key).map (recordFailedAttempt c began) :=
  Table.get?_modify_self

lemma get?_recordFailedAttempt_of_ne (h : id ≠ key) :
    (users.modify key (recordFailedAttempt c began)).get? id = users.get? id :=
  Table.get?_modify_of_ne h

lemma get?_clearFailedAttempts_self : (users.modify key clearFailedAttempts).get? key =
    (users.get? key).map clearFailedAttempts :=
  Table.get?_modify_self

lemma get?_clearFailedAttempts_of_ne (h : id ≠ key) :
    (users.modify key clearFailedAttempts).get? id = users.get? id :=
  Table.get?_modify_of_ne h

end updates

namespace LockInv

variable {i : ℕ} {x : PinCall}

/-- The calls stay ready when one moves. -/
lemma ready_put (h : LockInv c s) {phase : PinPhase}
    (hready : PinCall.Ready s.users s.now { x with phase }) :
    ∀ y ∈ (s.put i x phase).calls, y.Ready s.users s.now := by
  intro y hy
  rcases mem_calls_put hy with hy | rfl
  · exact h.ready y hy
  · exact hready

/-- They stay ready when the row of a user changes who has no other call pending. -/
lemma ready_users (h : LockInv c s) {phase : PinPhase} {users : Table PinUser.id}
    (hready : PinCall.Ready users s.now { x with phase }) (honly : Only s i x)
    (hother : ∀ id, id ≠ x.userId → users.get? id = s.users.get? id) :
    ∀ y ∈ (s.put i x phase).calls, y.Ready users s.now := by
  intro y hy
  obtain ⟨j, hj⟩ := List.mem_iff_getElem?.mp hy
  rcases getElem?_calls_put hj with ⟨-, rfl⟩ | ⟨hne, hy'⟩
  · exact hready
  · have hold := h.ready y (List.mem_of_getElem? hy')
    unfold PinCall.Ready at hold ⊢
    cases hp : y.phase with
    | clearing began =>
      rw [hp] at hold
      obtain ⟨row, hrow, hid, hlock⟩ := hold
      have hu : y.userId ≠ x.userId := by
        intro hu
        have hpending := honly j y hne hy' hu
        rw [hp] at hpending
        cases hpending
      refine ⟨row, ?_, hid, hlock⟩
      have hget := Table.get?_of_mem hrow
      rw [hid, ← hother _ hu] at hget
      exact Table.mem_of_get? hget
    | checked user =>
      rw [hp] at hold
      exact hold
    | _ => trivial

/-- The lock a user has. -/
lemma lockedUntil_eq {row : PinUser} (hrow : row ∈ s.users) :
    s.lockedUntil row.id = row.pinLockedUntil := by
  rw [PinState.lockedUntil, Table.get?_of_mem hrow]
  rfl

/-- A wrong PIN is compared. -/
lemma wrong (h : LockInv c s) (hi : s.calls[i]? = some x) {row : PinUser} (hrow : row ∈ s.users)
    (hid : row.id = x.userId)
    (hnone : ∀ (j : ℕ) (y : PinCall), s.calls[j]? = some y → y.userId = x.userId →
      y.phase.pending = false) :
    LockInv c ((s.put i x (.failing none)).note [.wrong x.userId]) := by
  -- No failing call is left over, so that the wrong PINs so far are all recorded.
  have hall : (tally row.id s.log).2 = false →
      (tally row.id s.log).1 ≤ row.failedPinAttempts ∧
        row.failedPinAttempts < c.maxPinAttempts := by
    intro ht
    obtain ⟨hbelow, hrecorded⟩ := h.counted row hrow
    refine ⟨(hrecorded ht).resolve_right ?_, hbelow ht⟩
    rintro ⟨-, y, hy, hyu, hyf⟩
    obtain ⟨j, hj⟩ := List.mem_iff_getElem?.mp hy
    have hpending := hnone j y hj (hyu.trans hid)
    rw [PinPhase.pending_of_isFailing hyf] at hpending
    cases hpending
  rw [← hid]
  have htally : ∀ userId, userId ≠ row.id →
      tally userId (s.log ++ [.wrong row.id]) = tally userId s.log := by
    intro userId hne
    rw [tally_append, (tallyEvent_other hne.symm none 0).1]
  constructor
  · intro userId
    change (tally userId (s.log ++ [.wrong row.id])).1 ≤ _
    by_cases hu : userId = row.id
    · subst hu
      rw [tally_append]
      cases ht : (tally row.id s.log).2 with
      | false =>
        rw [tallyEvent_wrong _ ht]
        have := hall ht
        change (tally row.id s.log).1 + 1 ≤ _
        omega
      | true =>
        rw [tallyEvent_wrong_locked _ ht]
        exact h.bounded _
    · rw [htally userId hu]
      exact h.bounded userId
  · intro u hu
    change Tallied c _ u (tally u.id (s.log ++ [.wrong row.id]))
    by_cases hur : u.id = row.id
    · have hurow : u = row := Table.eq_of_mem hu hrow hur
      subst hurow
      rw [tally_append]
      cases ht : (tally u.id s.log).2 with
      | false =>
        rw [tallyEvent_wrong _ ht]
        refine ⟨fun _ => (hall ht).2, fun _ => .inr ⟨Nat.succ_le_succ (hall ht).1,
          { x with phase := .failing none }, ?_, hid.symm, rfl⟩⟩
        exact List.mem_of_getElem? (i := i)
          (List.getElem?_set_self (List.getElem?_eq_some_iff.mp hi).1)
      | true =>
        rw [tallyEvent_wrong_locked _ ht]
        have hlocked : (tally u.id s.log).2 ≠ false := by
          rw [ht]
          exact Bool.noConfusion
        exact ⟨fun hf => absurd hf hlocked, fun hf => absurd hf hlocked⟩
    · rw [htally u.id hur]
      exact h.counted_put hi (fun _ _ => rfl) hu
  · intro userId hnone'
    change tally userId (s.log ++ [.wrong row.id]) = _
    change s.users.get? userId = none at hnone'
    have hne : userId ≠ row.id := by
      rintro rfl
      rw [Table.get?_of_mem hrow] at hnone'
      cases hnone'
    rw [htally userId hne]
    exact h.unknown userId hnone'
  · exact h.alone_put fun _ j y _ hy hu => hnone j y hy hu
  · exact h.ready_put trivial
  · intro e he
    rcases List.mem_append.mp he with he | he
    · exact h.closed e he
    · rw [List.mem_singleton.mp he]
      trivial

/-- A PIN is accepted: the user starts again. -/
lemma accepted (h : LockInv c s) (hi : s.calls[i]? = some x) {row : PinUser} (hrow : row ∈ s.users)
    (hid : row.id = x.userId) {users : Table PinUser.id}
    (hget : ∀ id, users.get? id = if id = x.userId then
      some { row with failedPinAttempts := 0, pinLockedUntil := none } else s.users.get? id)
    (hlock : inFuture row.pinLockedUntil s.now = false) (honly : Only s i x) {log : List PinEvent}
    (hlog : log = [] ∨ log = [.cleared x.userId (s.lockedUntil x.userId) s.now]) :
    LockInv c (PinState.note { s.put i x (.returned (.ok ())) with users }
      (log ++ [.accepted x.userId (s.lockedUntil x.userId) s.now])) := by
  have hprefix : ∀ userId, tally userId (s.log ++ log) = tally userId s.log := by
    intro userId
    rcases hlog with rfl | rfl
    · rw [List.append_nil]
    · rw [tally_append]
      rfl
  have hself : tally x.userId (s.log ++ (log ++ [.accepted x.userId (s.lockedUntil x.userId)
      s.now])) = (0, false) := by
    rw [← List.append_assoc, tally_append]
    exact if_pos rfl
  have hother : ∀ userId, userId ≠ x.userId → tally userId (s.log ++ (log ++ [.accepted x.userId
      (s.lockedUntil x.userId) s.now])) = tally userId s.log := by
    intro userId hne
    rw [← List.append_assoc, tally_append, (tallyEvent_other hne.symm _ _).2.2, hprefix]
  constructor
  · intro userId
    change (tally userId (s.log ++ (log ++ _))).1 ≤ _
    by_cases hu : userId = x.userId
    · rw [hu, hself]
      exact Nat.zero_le _
    · rw [hother userId hu]
      exact h.bounded userId
  · intro u hu
    change Tallied c _ u (tally u.id (s.log ++ (log ++ _)))
    have hmem : users.get? u.id = some u := Table.get?_of_mem hu
    rw [hget] at hmem
    split_ifs at hmem with hux
    · rw [hux, hself]
      cases hmem
      exact ⟨fun _ => c.positive.1, fun _ => .inl (Nat.le_refl _)⟩
    · rw [hother u.id hux]
      exact h.counted_put hi (fun he => absurd he.symm hux) (Table.mem_of_get? hmem)
  · intro userId hnone
    change tally userId (s.log ++ (log ++ _)) = _
    change users.get? userId = none at hnone
    rw [hget] at hnone
    split_ifs at hnone with hux
    rw [hother userId hux]
    exact h.unknown userId hnone
  · exact h.alone_put (by rintro ⟨⟩)
  · have hready : PinCall.Ready users s.now { x with phase := .returned (.ok ()) } := trivial
    exact h.ready_users hready honly fun id hne => (hget id).trans (if_neg hne)
  · intro e he
    have hlocked : inFuture (s.lockedUntil x.userId) s.now = false := by
      rw [← hid, lockedUntil_eq hrow]
      exact hlock
    rcases List.mem_append.mp he with he | he
    · exact h.closed e he
    · rcases List.mem_append.mp he with he | he
      · rcases hlog with rfl | rfl
        · cases he
        · rw [List.mem_singleton.mp he]
          exact hlocked
      · rw [List.mem_singleton.mp he]
        exact hlocked

/-- A wrong PIN is recorded. -/
lemma recorded (h : LockInv c s) (hi : s.calls[i]? = some x) {began : Timestamp}
    (hx : x.phase = .failing (some began)) {e : DomainError} :
    LockInv c (PinState.note { s.put i x (.returned (.error e)) with
      users := s.users.modify x.userId (recordFailedAttempt c began) }
        (if c.maxPinAttempts ≤ (((s.users.modify x.userId (recordFailedAttempt c began)).get?
          x.userId).map PinUser.failedPinAttempts).getD 0 then [.locked x.userId] else [])) := by
  have honly : Only s i x := h.only hi (by rw [hx]; rfl)
  generalize husers : s.users.modify x.userId (recordFailedAttempt c began) = users
  have hother : ∀ id, id ≠ x.userId → users.get? id = s.users.get? id := by
    intro id hne
    rw [← husers]
    exact get?_recordFailedAttempt_of_ne hne
  have hself : users.get? x.userId = (s.users.get? x.userId).map (recordFailedAttempt c began) := by
    rw [← husers]
    exact get?_recordFailedAttempt_self
  generalize hlog : (if c.maxPinAttempts ≤ ((users.get? x.userId).map
    PinUser.failedPinAttempts).getD 0 then [PinEvent.locked x.userId] else []) = log
  -- The lock is set if and only if the counter has reached the limit.
  have htally : ∀ userId, tally userId (s.log ++ log) = if userId = x.userId ∧
      c.maxPinAttempts ≤ ((users.get? x.userId).map PinUser.failedPinAttempts).getD 0
      then ((tally userId s.log).1, true) else tally userId s.log := by
    intro userId
    rw [← hlog]
    split_ifs with hmax hu hu
    · rw [tally_append]
      exact if_pos hu.1.symm
    · rw [tally_append]
      exact if_neg fun he => hu ⟨he.symm, hmax⟩
    · exact absurd hu.2 hmax
    · rw [List.append_nil]
  constructor
  · intro userId
    change (tally userId (s.log ++ log)).1 ≤ _
    rw [htally]
    split_ifs
    · exact h.bounded userId
    · exact h.bounded userId
  · intro u hu
    change Tallied c _ u (tally u.id (s.log ++ log))
    have hmem : users.get? u.id = some u := Table.get?_of_mem hu
    rw [htally]
    by_cases hux : u.id = x.userId
    · rw [hux, hself] at hmem
      obtain ⟨row, hrow, rfl⟩ := Option.map_eq_some_iff.mp hmem
      have hcounted := h.counted row (Table.mem_of_get? hrow)
      rw [show row.id = x.userId from hux] at hcounted
      rw [hself, hrow, show (recordFailedAttempt c began row).id = x.userId from hux]
      simp only [Option.map_some, Option.getD_some, true_and, recordFailedAttempt]
      split_ifs with hmax
      · exact ⟨by rintro ⟨⟩, by rintro ⟨⟩⟩
      · refine ⟨fun _ => Nat.lt_of_not_le hmax, fun ht => .inl ?_⟩
        rcases hcounted.recorded ht with hle | ⟨hle, -⟩
        · exact Nat.le_succ_of_le hle
        · exact hle
    · rw [if_neg fun he => hux he.1]
      rw [hother _ hux] at hmem
      exact h.counted_put hi (fun he => absurd he.symm hux) (Table.mem_of_get? hmem)
  · intro userId hnone
    change tally userId (s.log ++ log) = _
    change users.get? userId = none at hnone
    rw [htally]
    by_cases hux : userId = x.userId
    · subst hux
      rw [hnone, if_neg fun he => absurd he.2 (Nat.not_le.mpr c.positive.1)]
      rw [hself, Option.map_eq_none_iff] at hnone
      exact h.unknown _ hnone
    · rw [if_neg fun he => hux he.1]
      rw [hother _ hux] at hnone
      exact h.unknown _ hnone
  · exact h.alone_put (by rintro ⟨⟩)
  · exact h.ready_users trivial honly hother
  · intro e he
    rcases List.mem_append.mp he with he | he
    · exact h.closed e he
    · rw [← hlog] at he
      split_ifs at he
      · rw [List.mem_singleton.mp he]
        trivial
      · cases he

/-- A user registers. -/
lemma register (h : LockInv c s) {id : Uuid} {pinHash : String}
    (unused : s.users.get? id = none) :
    LockInv c { s with users := s.users.insert { id, pinHash } } where
  bounded := h.bounded
  counted u hu := by
    rcases Table.mem_insert_or hu with hu | rfl
    · exact h.counted u hu
    · rw [h.unknown _ unused]
      exact ⟨fun _ => c.positive.1, fun _ => .inl (Nat.le_refl _)⟩
  unknown userId hnone := by
    refine h.unknown userId ?_
    rw [Table.get?_eq_none] at hnone ⊢
    exact fun u hu => hnone u (Table.mem_insert_of_mem hu)
  alone := h.alone
  ready y hy := by
    have hold := h.ready y hy
    unfold PinCall.Ready at hold ⊢
    cases hp : y.phase with
    | clearing began =>
      rw [hp] at hold
      obtain ⟨row, hrow, hrest⟩ := hold
      exact ⟨row, Table.mem_insert_of_mem hrow, hrest⟩
    | checked user =>
      rw [hp] at hold
      exact hold
    | _ => trivial
  closed := h.closed

/-- Time passes. -/
lemma tick (h : LockInv c s) (n : ℕ) : LockInv c { s with now := s.now + n } where
  bounded := h.bounded
  counted := h.counted
  unknown := h.unknown
  alone := h.alone
  ready y hy := by
    have hold := h.ready y hy
    unfold PinCall.Ready at hold ⊢
    cases hp : y.phase with
    | clearing began =>
      rw [hp] at hold
      obtain ⟨row, hrow, hid, hlock⟩ := hold
      exact ⟨row, hrow, hid, inFuture_mono n hlock⟩
    | checked user =>
      rw [hp] at hold
      exact inFuture_mono n hold
    | _ => trivial
  closed := h.closed

/-- A call begins. -/
lemma begin (h : LockInv c s) (userId : Uuid) (pin : String) :
    LockInv c { s with calls := s.calls ++ [{ userId, pin }] } where
  bounded := h.bounded
  counted u hu := by
    obtain ⟨hbelow, hrecorded⟩ := h.counted u hu
    refine ⟨hbelow, fun ht => (hrecorded ht).imp_right ?_⟩
    rintro ⟨hle, y, hy, hrest⟩
    exact ⟨hle, y, List.mem_append_left _ hy, hrest⟩
  unknown := h.unknown
  alone j k y z hy hz hu hpy hpz := by
    have hold : ∀ (j : ℕ) (y : PinCall),
        (s.calls ++ [({ userId, pin } : PinCall)])[j]? = some y →
        y.phase.pending = true → s.calls[j]? = some y := by
      intro j y hy hp
      rw [List.getElem?_append] at hy
      split_ifs at hy with hlt
      · exact hy
      · rw [List.mem_singleton.mp (List.mem_of_getElem? hy)] at hp
        cases hp
    exact h.alone j k y z (hold j y hy hpy) (hold k z hz hpz) hu hpy hpz
  ready y hy := by
    rcases List.mem_append.mp hy with hy | hy
    · exact h.ready y hy
    · rw [List.mem_singleton.mp hy]
      trivial
  closed := h.closed

/-- A call that is pending stays so. -/
lemma pending (h : LockInv c s) (hi : s.calls[i]? = some x) {phase : PinPhase}
    (hx : x.phase.pending = true) (hphase : phase.pending = true)
    (hfailing : phase.isFailing = x.phase.isFailing) : LockInv c (s.put i x phase) := by
  refine h.put hi (fun _ => h.only hi hx) (fun hf => hfailing.trans hf) ?_
  have hold := h.ready x (List.mem_of_getElem? hi)
  unfold PinCall.Ready at hold ⊢
  cases phase with
  | clearing began =>
    cases hp : x.phase with
    | clearing began' =>
      rw [hp] at hold
      exact hold
    | failing began' =>
      rw [hp] at hfailing
      cases hfailing
    | _ =>
      rw [hp] at hx
      cases hx
  | failing began => trivial
  | _ => cases hphase

/-- What the condition on a comparison gives. -/
lemma compare (h : LockInv c s) (hi : s.calls[i]? = some x) {user : PinUser}
    (hx : x.phase = .checked user) (hok : OneAtATime s (.compare i)) :
    (∃ row ∈ s.users, row.id = x.userId ∧ row.failedPinAttempts = user.failedPinAttempts ∧
      row.pinLockedUntil = user.pinLockedUntil ∧ inFuture row.pinLockedUntil s.now = false) ∧
    ∀ (j : ℕ) (y : PinCall), s.calls[j]? = some y → y.userId = x.userId →
      y.phase.pending = false := by
  obtain ⟨⟨row, hrow, hid, hfailed, hlock⟩, hnone⟩ := hok x user hi hx
  have hready := h.ready x (List.mem_of_getElem? hi)
  unfold PinCall.Ready at hready
  rw [hx] at hready
  refine ⟨⟨row, hrow, hid, hfailed, hlock, ?_⟩, hnone⟩
  rw [hlock]
  exact hready

/-- Every step that meets the condition preserves the invariant. -/
lemma step (h : LockInv c s) {e : PinStep} (hok : OneAtATime s e)
    (hs : s.next c verifySecret e = some s') : LockInv c s' := by
  cases pinMove_of_next hs with
  | register id pinHash unused => exact h.register unused
  | tick n => exact h.tick n
  | begin userId pin => exact h.begin userId pin
  | read hi hx =>
    refine h.put hi (by rintro ⟨⟩) (fun hf => ?_) trivial
    rw [hx] at hf
    cases hf
  | rejected hi hx =>
    refine h.put hi (by rintro ⟨⟩) (fun hf => ?_) trivial
    rw [PinPhase.pending_of_isFailing hf] at hx
    cases hx
  | checked hi hx unlocked =>
    refine h.put hi (by rintro ⟨⟩) (fun hf => ?_) unlocked
    rw [PinPhase.pending_of_isFailing hf] at hx
    cases hx
  | wrong hi hx =>
    obtain ⟨⟨row, hrow, hid, -⟩, hnone⟩ := h.compare hi hx hok
    exact h.wrong hi hrow hid hnone
  | right hi hx =>
    obtain ⟨⟨row, hrow, hid, -, -, hfuture⟩, hnone⟩ := h.compare hi hx hok
    refine h.put hi (fun _ j y _ hy hu => hnone j y hy hu) (fun hf => ?_)
      ⟨row, hrow, hid, hfuture⟩
    rw [hx] at hf
    cases hf
  | accepted hi hx hfailed hlock =>
    obtain ⟨⟨row, hrow, hid, hfailed', hlock', hfuture⟩, hnone⟩ := h.compare hi hx hok
    refine h.accepted hi hrow hid (fun id => ?_) hfuture
      (fun j y _ hy hu => hnone j y hy hu) (.inl rfl)
    split_ifs with he
    · rw [he, ← hid, Table.get?_of_mem hrow, ← hfailed, ← hlock, ← hfailed', ← hlock']
    · rfl
  | pending hi hx hphase hfailing => exact h.pending hi hx hphase hfailing
  | recorded hi hx => exact h.recorded hi hx
  | cleared hi hx =>
    have hready := h.ready _ (List.mem_of_getElem? hi)
    unfold PinCall.Ready at hready
    rw [hx] at hready
    obtain ⟨row, hrow, hid, hfuture⟩ := hready
    refine h.accepted hi hrow hid (fun id => ?_) hfuture
      (h.only hi (by rw [hx]; rfl)) (.inr rfl)
    split_ifs with he
    · rw [he, get?_clearFailedAttempts_self, ← hid, Table.get?_of_mem hrow]
      rfl
    · exact get?_clearFailedAttempts_of_ne he
  | aborted hi =>
    refine h.put hi (by rintro ⟨⟩) (fun hf => ?_) trivial
    rw [hok (by rintro ⟨⟩) _ hi] at hf
    cases hf
  | crashed hi =>
    refine h.put hi (by rintro ⟨⟩) (fun hf => ?_) trivial
    rw [hok _ hi] at hf
    cases hf

lemma start (c : PinConfig) : LockInv c {} where
  bounded _ := Nat.zero_le _
  counted _ hu := nomatch hu
  unknown _ _ := rfl
  alone _ _ _ _ hx := nomatch hx
  ready _ hx := nomatch hx
  closed _ he := nomatch he

end LockInv

end

/-- While the calls of each user take turns the lockout holds. -/
theorem lockout_holds {c : PinConfig} {verifySecret : (hash plain : String) → Bool} {s : PinState}
    (h : Machine.Reached (PinState.next c verifySecret) OneAtATime {} s) : LockoutHolds c s := by
  have hinv : LockInv c s :=
    h.invariant (.start c) fun _ _ _ hinv hok hs => hinv.step hok hs
  exact ⟨hinv.bounded, hinv.closed⟩

/-! ### Two runs -/

/-- The condition, as a test. -/
def takesTurn (s : PinState) : PinStep → Bool
  | .compare i => s.calls[i]?.all fun x =>
    match x.phase with
    | .checked user =>
      (s.users.rows.any fun row => row.id = x.userId ∧
        row.failedPinAttempts = user.failedPinAttempts ∧
        row.pinLockedUntil = user.pinLockedUntil) &&
      s.calls.all fun y => y.userId ≠ x.userId || !y.phase.pending
    | _ => true
  | .abort i _ => s.calls[i]?.all fun x => !x.phase.isFailing
  | .crash i => s.calls[i]?.all fun x => !x.phase.isFailing
  | _ => true

lemma of_takesTurn {s : PinState} {e : PinStep} (h : takesTurn s e = true) : OneAtATime s e := by
  cases e with
  | compare i =>
    intro x user hi hx
    have hall := (Option.all_eq_true _ _).mp h x hi
    rw [hx] at hall
    obtain ⟨hrow, hothers⟩ := Bool.and_eq_true_iff.mp hall
    obtain ⟨row, hmem, hrow⟩ := List.any_eq_true.mp hrow
    refine ⟨⟨row, hmem, of_decide_eq_true hrow⟩, fun j y hj hu => ?_⟩
    have hy := List.all_eq_true.mp hothers y (List.mem_of_getElem? hj)
    simpa [hu] using hy
  | abort i error =>
    intro _ x hi
    simpa using (Option.all_eq_true _ _).mp h x hi
  | crash i =>
    intro x hi
    simpa using (Option.all_eq_true _ _).mp h x hi
  | _ => trivial

/-- Where a list of steps leads, without those that are not allowed. -/
def PinState.after (allowed : PinState → PinStep → Bool) : List PinStep → PinState :=
  Machine.play (PinState.next {} fun hash plain => hash == plain) allowed {}

/-- A call of user 1 that compares, without and with the write after it. -/
def compared (i : ℕ) : List PinStep := [.read i, .check i, .compare i]

def completed (i : ℕ) : List PinStep := compared i ++ [.start i, .commit i]

def wrongThenRight : List PinStep :=
  .register 1 "1234" :: (List.replicate 6 (.begin 1 "0000") ++ [.begin 1 "1234", .begin 1 "1234"])

/-- Six wrong PINs, of which the last is not compared any more, and the right one before and after
the lock has ended. -/
def inTurn : List PinStep :=
  wrongThenRight ++ (List.range 7).flatMap completed ++ [.tick (lockoutMicros {})] ++ completed 7

/-- In turn five wrong PINs are compared and only the right one after the lock is accepted. -/
theorem lockout_holds_inTurn :
    tally 1 (PinState.after takesTurn (inTurn.take 45)).log = (5, true) ∧
      ((PinState.after takesTurn inTurn).log.getLast?.any fun e =>
        match e with
        | .accepted 1 (some _) _ => true
        | _ => false) = true ∧
      LockoutHolds {} (PinState.after takesTurn inTurn) :=
  ⟨by decide +kernel, by decide +kernel,
    lockout_holds (.play (fun _ _ h => of_takesTurn h) _ .start)⟩

/-- All calls read the row before the first one writes to it. -/
def atOnce : List PinStep :=
  wrongThenRight ++ (List.range 8).flatMap (fun i => [.read i, .check i]) ++
    (List.range 6).map .compare ++ (List.range 6).flatMap (fun i => [.start i, .commit i]) ++
    [.compare 6]

lemma reached_after (steps : List PinStep) :
    Machine.Reached (PinState.next {} fun hash plain => hash == plain) (fun _ _ => True) {}
      (PinState.after (fun _ _ => true) steps) :=
  .play (fun _ _ _ => trivial) steps .start

/-- Is the event one under a lock? -/
def PinEvent.underLock : PinEvent → Bool
  | .accepted _ lockedUntil instant => inFuture lockedUntil instant
  | .cleared _ lockedUntil instant => inFuture lockedUntil instant
  | _ => false

lemma PinEvent.not_unlocked {e : PinEvent} (h : e.underLock = true) : ¬ e.Unlocked := by
  intro hun
  cases e with
  | accepted _ lockedUntil instant => exact Bool.noConfusion (h.symm.trans hun)
  | cleared _ lockedUntil instant => exact Bool.noConfusion (h.symm.trans hun)
  | _ => cases h

/-- Six wrong PINs are compared before the lock is set, and the right one is accepted under it. -/
theorem lockout_escapes : ∃ s t : PinState,
    Machine.Reached (PinState.next {} fun hash plain => hash == plain) (fun _ _ => True) {} s ∧
    Machine.Reached (PinState.next {} fun hash plain => hash == plain) (fun _ _ => True) {} t ∧
    tally 1 s.log = (6, false) ∧ ¬ LockoutHolds {} s ∧ ¬ LockoutHolds {} t := by
  refine ⟨_, _, reached_after (atOnce.take 31), reached_after atOnce, by decide +kernel,
    fun h => ?_, fun h => ?_⟩
  · have htally : tally 1 (PinState.after (fun _ _ => true) (atOnce.take 31)).log = (6, false) := by
      decide +kernel
    have hbounded := h.bounded 1
    rw [htally] at hbounded
    exact absurd hbounded (by decide)
  · have hbad : (PinState.after (fun _ _ => true) atOnce).log.any PinEvent.underLock = true := by
      decide +kernel
    obtain ⟨e, he, hunder⟩ := List.any_eq_true.mp hbad
    exact PinEvent.not_unlocked hunder (h.closed e he)

end TakaFlow
