import TakaFlow.Transactions

/-!
# All or nothing

What a call of `withTransaction` leaves behind, whatever its callback and the world around it do.
-/

namespace TakaFlow

open Txn

variable {σ τ ι η α : Type}

/-! ### Callbacks -/

/-- A complete run of the callback in a transaction of its own, and what the transaction is then. -/
def Completes (fn : Program σ τ DriverError ι η Error α) (a : α) (c : Ctx σ τ η) : Prop :=
  ∃ deadlineAt now w w', perform deadlineAt fn (.start now) w = (.ok a, c, w')

/-- The callback does not return from a transaction in which a statement has failed, unless it has
gone back to a savepoint. -/
def Propagates (fn : Program σ τ DriverError ι η Error α) : Prop :=
  ∀ a c, Completes fn a c → c.aborted = false

/-- Every error of a statement is thrown on. -/
def LetsErrorsPropagate : Program σ τ DriverError ι η Error α → Prop
  | .ret _ => True
  | .throw _ => True
  | .input k => ∀ t x, LetsErrorsPropagate (k t x)
  | .query _ k =>
    (∀ r, LetsErrorsPropagate (k (.ok r))) ∧ ∀ e, ∃ e', k (.error e) = .throw e'
  | .savepoint _ k => LetsErrorsPropagate (k (.ok ())) ∧ ∀ e, ∃ e', k (.error e) = .throw e'
  | .afterCommit _ k => LetsErrorsPropagate k

section

variable {ρ : Type} {w w' : World σ τ ι η} {deadlineAt : Millis} {c c' : Ctx σ τ η}

/-- A statement that succeeds does so in a transaction that is not aborted. -/
lemma aborted_answer {s : Stmt σ τ DriverError ι ρ} {r : ρ}
    (h : w.query deadlineAt c (w.answer c s) = (.ok r, c')) : c'.aborted = false := by
  unfold World.query World.answer at h
  simp only at h
  split at h
  · cases h
  · split at h
    · cases h
    · split at h
      · cases h
      · rename_i hc
        split at h <;> cases h
        exact Bool.eq_false_iff.mpr hc

lemma aborted_control {cmd : SavepointCmd} {r : Unit}
    (h : w.query deadlineAt c (w.control c cmd) = (.ok r, c')) : c'.aborted = false := by
  unfold World.query World.control at h
  simp only at h
  split at h
  · cases h
  · split at h
    · cases h
    · split at h <;> cases h
      · rfl
      · assumption
      · assumption

end

/-- Such a callback is fine. -/
lemma LetsErrorsPropagate.propagates {fn : Program σ τ DriverError ι η Error α}
    (h : LetsErrorsPropagate fn) : Propagates fn := by
  rintro a c ⟨deadlineAt, now, w, w', hrun⟩
  have hstart : (Ctx.start now : Ctx σ τ η).aborted = false := rfl
  generalize Ctx.start now = c₀ at hrun hstart
  induction fn generalizing c₀ w with
  | ret b =>
    cases hrun
    exact hstart
  | throw e => cases hrun
  | input k ih => exact ih _ _ (h _ _) _ c₀ hrun hstart
  | query s k ih =>
    unfold perform at hrun
    cases hq : w.query deadlineAt c₀ (w.answer c₀ s) with
    | mk answer c₁ =>
      rw [hq] at hrun
      cases answer with
      | ok r => exact ih _ (h.1 r) _ c₁ hrun (aborted_answer hq)
      | error e =>
        obtain ⟨e', he⟩ := h.2 e
        simp only [he] at hrun
        cases hrun
  | savepoint cmd k ih =>
    unfold perform at hrun
    cases hq : w.query deadlineAt c₀ (w.control c₀ cmd) with
    | mk answer c₁ =>
      rw [hq] at hrun
      cases answer with
      | ok r => exact ih _ h.1 _ c₁ hrun (aborted_control hq)
      | error e =>
        obtain ⟨e', he⟩ := h.2 e
        simp only [he] at hrun
        cases hrun
  | afterCommit x k ih => exact ih h _ _ hrun hstart

/-! ### The committed state -/

/-- From one request to another, others have written what they write before each request, and the
call has committed these effects in between. -/
inductive Written (moments : ℕ → Moment σ τ ι) (t : ℕ) (d : σ) : List (σ → σ) → ℕ → σ → Prop where
  | refl : Written moments t d [] t d
  | others {effects : List (σ → σ)} {t' : ℕ} {d' : σ} (h : Written moments t d effects t' d') :
      Written moments t d effects (t' + 1) ((moments t').others d')
  | own {effects : List (σ → σ)} {t' : ℕ} {d' : σ} (h : Written moments t d effects t' d')
      (write : σ → σ) : Written moments t d (effects ++ [write]) t' (write d')

/-- What others make of a state from one request to another. -/
def meanwhileFrom (moments : ℕ → Moment σ τ ι) (t t' : ℕ) (d : σ) : σ :=
  (List.range' t (t' - t)).foldl (fun d i => (moments i).others d) d

namespace Written

variable {moments : ℕ → Moment σ τ ι} {t t' t'' : ℕ} {d d' d'' : σ}
  {effects effects' : List (σ → σ)}

lemma trans (h : Written moments t d effects t' d') (h' : Written moments t' d' effects' t'' d'') :
    Written moments t d (effects ++ effects') t'' d'' := by
  induction h' with
  | refl => rwa [List.append_nil]
  | others _ ih => exact ih.others
  | own _ write ih =>
    rw [← List.append_assoc]
    exact ih.own write

lemma le (h : Written moments t d effects t' d') : t ≤ t' := by
  induction h with
  | refl => exact Nat.le_refl t
  | others _ ih => exact Nat.le_succ_of_le ih
  | own _ _ ih => exact ih

lemma meanwhileFrom_self : meanwhileFrom moments t t d = d := by
  unfold meanwhileFrom
  rw [Nat.sub_self]
  rfl

lemma meanwhileFrom_succ (h : t ≤ t') :
    meanwhileFrom moments t (t' + 1) d = (moments t').others (meanwhileFrom moments t t' d) := by
  obtain ⟨n, rfl⟩ := Nat.exists_eq_add_of_le h
  unfold meanwhileFrom
  rw [Nat.add_assoc, Nat.add_sub_cancel_left, Nat.add_sub_cancel_left, List.range'_1_concat,
    List.foldl_append]
  rfl

/-- Only others have written. -/
lemma eq_meanwhileFrom (h : Written moments t d [] t' d') : d' = meanwhileFrom moments t t' d := by
  generalize hnone : ([] : List (σ → σ)) = effects at h
  induction h with
  | refl => rw [meanwhileFrom_self]
  | others h ih => rw [meanwhileFrom_succ h.le, ih hnone]
  | own h write ih => simp at hnone

/-- The call has written once, between two writes of others. -/
lemma exists_between {write : σ → σ} (h : Written moments t d [write] t' d') :
    ∃ u, t ≤ u ∧ u ≤ t' ∧
      d' = meanwhileFrom moments u t' (write (meanwhileFrom moments t u d)) := by
  generalize hone : [write] = effects at h
  induction h with
  | refl => cases hone
  | others h ih =>
    obtain ⟨u, hle, hle', rfl⟩ := ih hone
    exact ⟨u, hle, Nat.le_succ_of_le hle', (meanwhileFrom_succ hle').symm⟩
  | @own effects t' d' h write' ih =>
    obtain ⟨rfl, hwrite⟩ := List.append_eq_singleton_iff.mp hone.symm |>.resolve_right (by simp)
    cases hwrite
    refine ⟨t', h.le, Nat.le_refl t', ?_⟩
    rw [meanwhileFrom_self, ← h.eq_meanwhileFrom]

end Written

/-- The second world is what comes of the first one, with these effects committed. -/
structure World.Becomes (w w' : World σ τ ι η) (committed : List (σ → σ)) : Prop where
  effects : w'.effects = w.effects ++ committed
  moments : w'.moments = w.moments
  db : Written w.moments w.time w.db committed w'.time w'.db

namespace World

variable {w w' w'' : World σ τ ι η} {effects effects' : List (σ → σ)}

lemma Becomes.trans (h : w.Becomes w' effects) (h' : w'.Becomes w'' effects') :
    w.Becomes w'' (effects ++ effects') := by
  constructor
  · rw [h'.effects, h.effects, List.append_assoc]
  · exact h'.moments.trans h.moments
  · exact h.db.trans (h.moments ▸ h'.db)

/-- Nothing is committed before. -/
lemma Becomes.next (h : w.Becomes w' []) (h' : w'.Becomes w'' effects) : w.Becomes w'' effects :=
  h.trans h'

/-- Nothing is committed after. -/
lemma Becomes.ends (h : w.Becomes w' effects) (h' : w'.Becomes w'' []) : w.Becomes w'' effects := by
  simpa using h.trans h'

lemma becomes_refl (w : World σ τ ι η) : w.Becomes w [] := ⟨(List.append_nil _).symm, rfl, .refl⟩

lemma becomes_tick (w : World σ τ ι η) : w.Becomes w.tick [] :=
  ⟨(List.append_nil _).symm, rfl, .others .refl⟩

lemma becomes_log (w : World σ τ ι η) (actions : List (Action η)) : w.Becomes (w.log actions) [] :=
  ⟨(List.append_nil _).symm, rfl, .refl⟩

lemma becomes_release (w : World σ τ ι η) (client : ℕ) (p : Pooled) :
    w.Becomes (w.release client p) [] :=
  ⟨(List.append_nil _).symm, rfl, .refl⟩

lemma becomes_commit (w : World σ τ ι η) (write : σ → σ) : w.Becomes (w.commit write) [write] :=
  ⟨rfl, rfl, .own .refl write⟩

end World

/-! ### Attempts -/

/-- What one attempt shows of itself, the effects it commits and how it ends. -/
structure TxAttempt (σ η α : Type) where
  actions : List (Action η)
  effects : List (σ → σ)
  outcome : Except Error α

/-- The clients that actions take from the pool. -/
def connections (actions : List (Action η)) : List ℕ :=
  actions.filterMap fun
    | .connected client => some client
    | _ => none

/-- The clients that actions give back. -/
def releases (actions : List (Action η)) : List ℕ :=
  actions.filterMap fun
    | .released client => some client
    | _ => none

/-- The commits that the server has reported. -/
def commits (actions : List (Action η)) : List ℕ :=
  actions.filterMap fun
    | .committed client => some client
    | _ => none

/-- The hooks that have run. -/
def hooksRun (actions : List (Action η)) : List η :=
  actions.filterMap fun
    | .ran h _ => some h
    | _ => none

section

variable (fn : Program σ τ DriverError ι η Error α) (options : TransactionOptions)
  (moments : ℕ → Moment σ τ ι)

/-- What an attempt with a client can throw: the error of a request, that of a client whose
`ROLLBACK` has failed, that of a deadline before the callback, or what the callback throws. -/
inductive AttemptFails : Error → Prop where
  | refused {t : ℕ} {f : Fault} (fault : (moments t).fault = some f) :
    AttemptFails (.driver f.error)
  | broken : AttemptFails (.driver { code := PgError.inFailedSqlTransaction })
  | exhausted : AttemptFails (.domain (errors.unavailable
      "Transaction budget was exhausted before any work began"))
  | callback {deadlineAt : Millis} {now : Timestamp} {w w' : World σ τ ι η} {c : Ctx σ τ η}
    {e : Error} (run : perform deadlineAt fn (.start now) w = (.error e, c, w')) : AttemptFails e

/-- The attempts there can be. -/
inductive Attempted : TxAttempt σ η α → Prop where
  /-- The pool has no client. -/
  | unconnected {t : ℕ} {f : Fault} (fault : (moments t).fault = some f) :
    Attempted ⟨[.failed (.driver f.error)], [], .error (.driver f.error)⟩
  /-- The callback does not come to its end, or its transaction is rolled back. -/
  | failed {client : ℕ} {e : Error} (cause : AttemptFails fn moments e) :
    Attempted ⟨[.connected client, .sent client options.preamble, .failed e, .released client], [],
      .error e⟩
  /-- The answer to the `COMMIT` is lost. -/
  | lost {client : ℕ} {a : α} {c : Ctx σ τ η} {e : Error} (run : Completes fn a c)
    (cause : AttemptFails fn moments e) (final : isRetryable e = false) :
    Attempted ⟨[.connected client, .sent client options.preamble, .failed e, .released client],
      [c.write], .error e⟩
  | committed {client : ℕ} {a : α} {c : Ctx σ τ η} {failures : List Bool} (run : Completes fn a c)
    (all : failures.length = c.hooks.length) :
    Attempted ⟨[.connected client, .sent client options.preamble, .committed client] ++
      List.zipWith .ran c.hooks failures ++ [.released client], [c.write], .ok a⟩

end

/-- What the trace and the committed state of a world become in a list of attempts. -/
structure Leaves (w w' : World σ τ ι η) (made : List (TxAttempt σ η α)) : Prop where
  trace : w'.trace = w.trace ++ made.flatMap TxAttempt.actions
  becomes : w.Becomes w' (made.flatMap TxAttempt.effects)

section

variable {fn : Program σ τ DriverError ι η Error α} {options : TransactionOptions}
  {w w' : World σ τ ι η} {client : ℕ}

lemma World.runHooks_eq (w : World σ τ ι η) (hooks : List η) :
    ∃ failures, failures.length = hooks.length ∧ w.Becomes (w.runHooks hooks) [] ∧
      (w.runHooks hooks).trace = w.trace ++ List.zipWith .ran hooks failures := by
  induction hooks generalizing w with
  | nil => exact ⟨[], rfl, w.becomes_refl, by simp [World.runHooks]⟩
  | cons h hooks ih =>
    obtain ⟨failures, hlength, hbecomes, htrace⟩ := ih (w.tick.log [.ran h w.now.fault.isSome])
    refine ⟨w.now.fault.isSome :: failures, by simp [hlength], ?_, ?_⟩
    · exact (w.becomes_tick.next (w.tick.becomes_log _)).next hbecomes
    · rw [World.runHooks, htrace]
      simp [World.log, World.tick]

/-- How a `COMMIT` ends. -/
lemma World.commitAs_cases {c : Ctx σ τ η} (hclean : c.aborted = false)
    {answer : Except PgError Unit} (h : w.commitAs client c = (answer, w')) :
    (answer = .ok () ∧ w.Becomes w' [c.write] ∧ w'.trace = w.trace ++ [.committed client]) ∨
    (∃ f, w.now.fault = some f ∧ answer = .error f.error ∧ w.Becomes w' [] ∧
      w'.trace = w.trace) ∨
    ∃ f, w.now.fault = some f ∧ answer = .error f.error ∧ isRetryable (.driver f.error) = false ∧
      w.Becomes w' [c.write] ∧ w'.trace = w.trace := by
  have hcommit : w.Becomes (w.tick.commit c.write) [c.write] :=
    w.becomes_tick.next (w.tick.becomes_commit c.write)
  unfold commitAs at h
  simp only [hclean, Bool.false_eq_true, if_false] at h
  split at h
  · cases h
    exact .inl ⟨rfl, hcommit.ends (World.becomes_log _ _), rfl⟩
  · rename_i f hfault
    cases hprocessed : f.processed with
    | false =>
      rw [hprocessed] at h
      cases h
      exact .inr (.inl ⟨f, hfault, rfl, w.becomes_tick, rfl⟩)
    | true =>
      rw [hprocessed] at h
      cases h
      exact .inr (.inr ⟨f, hfault, rfl, f.conflict hprocessed, hcommit, rfl⟩)

/-- A callback commits nothing itself. -/
lemma perform_frame {deadlineAt : Millis} {c c' : Ctx σ τ η} {result : Except Error α}
    (h : perform deadlineAt fn c w = (result, c', w')) :
    w.Becomes w' [] ∧ w'.trace = w.trace := by
  have htick : ∀ {w₁ w₂ : World σ τ ι η}, w₁.tick.Becomes w₂ [] ∧ w₂.trace = w₁.tick.trace →
      w₁.Becomes w₂ [] ∧ w₂.trace = w₁.trace :=
    fun {w₁ _} h => ⟨w₁.becomes_tick.next h.1, h.2⟩
  induction fn generalizing c w with
  | ret a =>
    cases h
    exact ⟨World.becomes_refl _, rfl⟩
  | throw e =>
    cases h
    exact ⟨World.becomes_refl _, rfl⟩
  | input k ih => exact htick (ih _ _ h)
  | query s k ih => exact htick (ih _ h)
  | savepoint cmd k ih => exact htick (ih _ h)
  | afterCommit x k ih => exact ih h

/-- How the body of the `try` ends. -/
lemma tryAttempt_cases (hfn : Propagates fn) {result : Except Error α}
    (h : tryAttempt fn options client w = (result, w')) :
    (∃ e, AttemptFails fn w.moments e ∧ result = .error e ∧ w.Becomes w' [] ∧
      w'.trace = w.trace ++ [.sent client options.preamble]) ∨
    (∃ e a c, Completes fn a c ∧ AttemptFails fn w.moments e ∧ isRetryable e = false ∧
      result = .error e ∧ w.Becomes w' [c.write] ∧
      w'.trace = w.trace ++ [.sent client options.preamble]) ∨
    ∃ a c failures, Completes fn a c ∧ failures.length = c.hooks.length ∧ result = .ok a ∧
      w.Becomes w' [c.write] ∧
      w'.trace = w.trace ++ [.sent client options.preamble, .committed client] ++
        List.zipWith .ran c.hooks failures := by
  unfold tryAttempt at h
  simp only at h
  have hsent : w.Becomes (w.tick.log [.sent client options.preamble]) [] :=
    w.becomes_tick.next (w.tick.becomes_log _)
  have hbegun : w.Becomes (w.tick.log [.sent client options.preamble]).tick [] :=
    hsent.next (World.becomes_tick _)
  have hready : w.Becomes (w.tick.log [.sent client options.preamble]).tick.tick [] :=
    hbegun.next (World.becomes_tick _)
  split at h
  · rename_i e hbegin
    cases h
    refine .inl ⟨_, ?_, rfl, hbegun, rfl⟩
    unfold Moment.begin at hbegin
    split at hbegin <;> cases hbegin
    · rename_i f hfault
      exact .refused hfault
    · exact .broken
  rename_i c₀ hbegin
  split at h
  · cases h
    exact .inl ⟨_, .exhausted, rfl, hready, rfl⟩
  have hstart : c₀ = .start (w.tick.log [.sent client options.preamble]).now.clock := by
    unfold Moment.begin at hbegin
    split at hbegin <;> cases hbegin
    rfl
  split at h
  · rename_i e c w₁ hrun
    obtain ⟨hbecomes, htrace⟩ := perform_frame hrun
    cases h
    exact .inl ⟨_, .callback (hstart ▸ hrun), rfl, hready.next hbecomes, htrace⟩
  rename_i a c w₀ hrun
  obtain ⟨hbecomes, htrace₀⟩ := perform_frame hrun
  have hperformed := hready.next hbecomes
  have hcompletes : Completes fn a c := ⟨_, _, _, _, hstart ▸ hrun⟩
  have hrefused : ∀ f, w₀.now.fault = some f → AttemptFails fn w.moments (.driver f.error) := by
    intro f hfault
    unfold World.now at hfault
    rw [hperformed.moments] at hfault
    exact .refused hfault
  split at h
  · rename_i e w₁ hcommit
    obtain ⟨hok, -⟩ | ⟨f, hfault, he, hnone, htrace⟩ | ⟨f, hfault, he, hfinal, hdone, htrace⟩ :=
      World.commitAs_cases (hfn a c hcompletes) hcommit
    · cases hok
    · cases he
      cases h
      exact .inl ⟨_, hrefused f hfault, rfl, hperformed.next hnone, htrace.trans htrace₀⟩
    · cases he
      cases h
      exact .inr (.inl ⟨_, a, c, hcompletes, hrefused f hfault, hfinal, rfl, hperformed.next hdone,
        htrace.trans htrace₀⟩)
  · rename_i u w₁ hcommit
    obtain ⟨-, hdone, htrace⟩ | ⟨f, -, he, -⟩ | ⟨f, -, he, -⟩ :=
      World.commitAs_cases (hfn a c hcompletes) hcommit
    · obtain ⟨failures, hlength, hsame, hhooks⟩ := w₁.runHooks_eq c.hooks
      cases h
      refine .inr (.inr ⟨a, c, failures, hcompletes, hlength, rfl, ?_, ?_⟩)
      · exact (hperformed.next hdone).ends hsame
      · rw [hhooks, htrace, htrace₀]
        simp [World.log, World.tick]
    · cases he
    · cases he

/-- One attempt with a client. -/
lemma attempt_attempted (hfn : Propagates fn) {result : Except Error α}
    (h : attempt fn options client (w.tick.log [.connected client]) = (result, w')) :
    ∃ t : TxAttempt σ η α, Attempted fn options w.moments t ∧ t.outcome = result ∧
      Leaves w w' [t] := by
  have hconnected : w.Becomes (w.tick.log [.connected client]) [] :=
    w.becomes_tick.next (w.tick.becomes_log _)
  unfold attempt at h
  split at h
  · rename_i a w₁ htry
    obtain ⟨e, -, he, -⟩ | ⟨e, -, -, -, -, -, he, -⟩ |
      ⟨a', c, failures, hrun, hall, he, hdone, htrace⟩ := tryAttempt_cases hfn htry
    · cases he
    · cases he
    · cases he
      cases h
      have hattempted : Attempted fn options w.moments ⟨[.connected client,
          .sent client options.preamble, .committed client] ++
            List.zipWith .ran c.hooks failures ++ [.released client], [c.write], .ok a⟩ :=
        .committed hrun hall
      refine ⟨_, hattempted, rfl, ?_, ?_⟩
      · simp [World.release, htrace, World.log, World.tick]
      · exact (hconnected.next hdone).ends (World.becomes_release _ _ _)
  · rename_i e w₁ htry
    have hfailed : w₁.Becomes ((w₁.tick.log [.failed e]).release client
        (if w₁.now.fault.isSome then .broken else .idle)) [] :=
      (w₁.becomes_tick.next (w₁.tick.becomes_log _)).next (World.becomes_release _ _ _)
    obtain ⟨e', hcause, he, hnone, htrace⟩ | ⟨e', a, c, hrun, hcause, hfinal, he, hdone, htrace⟩ |
      ⟨a', c, failures, -, -, he, -⟩ := tryAttempt_cases hfn htry
    · cases he
      cases h
      have hattempted : Attempted fn options w.moments ⟨[.connected client,
          .sent client options.preamble, .failed e, .released client], [], .error e⟩ :=
        .failed hcause
      refine ⟨_, hattempted, rfl, ?_, ?_⟩
      · simp [World.release, htrace, World.log, World.tick]
      · exact (hconnected.next hnone).next hfailed
    · cases he
      cases h
      have hattempted : Attempted fn options w.moments ⟨[.connected client,
          .sent client options.preamble, .failed e, .released client], [c.write], .error e⟩ :=
        .lost hrun hcause hfinal
      refine ⟨_, hattempted, rfl, ?_, ?_⟩
      · simp [World.release, htrace, World.log, World.tick]
      · exact (hconnected.next hdone).ends hfailed
    · cases he

/-! ### The loop -/

lemma Leaves.trans {w'' : World σ τ ι η} {made made' : List (TxAttempt σ η α)}
    (h : Leaves w w' made) (h' : Leaves w' w'' made') : Leaves w w'' (made ++ made') := by
  constructor
  · rw [h'.trace, h.trace, List.flatMap_append, List.append_assoc]
  · rw [List.flatMap_append]
    exact h.becomes.trans h'.becomes

/-- What a call throws or returns, after its attempts. -/
def ending (lastError : Option Error) (made : List (TxAttempt σ η α)) : Except (Option Error) α :=
  made.getLast?.elim (.error lastError) fun t => t.outcome.mapError some

lemma ending_cons {lastError : Option Error} {t : TxAttempt σ η α} {e : Error}
    (h : t.outcome = .error e) (made : List (TxAttempt σ η α)) :
    ending lastError (t :: made) = ending (some e) made := by
  unfold ending
  rw [List.getLast?_cons]
  cases made.getLast? with
  | none =>
    simp only [Option.getD_none, Option.elim_some, Option.elim_none, h]
    rfl
  | some t' => rfl

/-- The attempts of a call. -/
structure Made (fn : Program σ τ DriverError ι η Error α) (options : TransactionOptions)
    (remaining : ℕ) (w w' : World σ τ ι η) (made : List (TxAttempt σ η α)) : Prop where
  each : ∀ t ∈ made, Attempted fn options w.moments t
  leaves : Leaves w w' made
  bounded : made.length ≤ remaining
  tried : 0 < remaining → made ≠ []
  retried : ∀ t ∈ made.dropLast, ∃ e, t.outcome = .error e ∧ isRetryable e = true

lemma Made.single {remaining : ℕ} {t : TxAttempt σ η α} (ht : Attempted fn options w.moments t)
    (hleaves : Leaves w w' [t]) : Made fn options (remaining + 1) w w' [t] :=
  ⟨by simpa using ht, hleaves, by simp, fun _ => List.cons_ne_nil _ _, nofun⟩

lemma Made.cons {remaining : ℕ} {w'' : World σ τ ι η} {t : TxAttempt σ η α}
    {made : List (TxAttempt σ η α)} {e : Error} (ht : Attempted fn options w.moments t)
    (hleaves : Leaves w w' [t]) (he : t.outcome = .error e) (hretry : isRetryable e = true)
    (h : Made fn options remaining w' w'' made) :
    Made fn options (remaining + 1) w w'' (t :: made) := by
  refine ⟨?_, hleaves.trans h.leaves, by simpa using h.bounded, fun _ => List.cons_ne_nil _ _, ?_⟩
  · intro t' ht'
    obtain rfl | ht' := List.mem_cons.mp ht'
    · exact ht
    · exact hleaves.becomes.moments ▸ h.each t' ht'
  · intro t' ht'
    cases made with
    | nil => cases ht'
    | cons t₁ made =>
      rw [List.dropLast_cons_cons] at ht'
      obtain rfl | ht' := List.mem_cons.mp ht'
      · exact ⟨e, he, hretry⟩
      · exact h.retried t' ht'

/-- The loop makes its attempts, and ends as the last of them does. -/
lemma attempts_made (hfn : Propagates fn) {remaining n : ℕ} {lastError : Option Error}
    {result : Except (Option Error) α}
    (h : attempts fn options remaining n lastError w = (result, w')) :
    ∃ made, Made fn options remaining w w' made ∧ result = ending lastError made := by
  induction remaining generalizing n lastError w with
  | zero =>
    cases h
    have hnone := (List.append_nil w'.trace).symm
    have htried : 0 < 0 → ([] : List (TxAttempt σ η α)) ≠ [] := fun h => absurd h (Nat.lt_irrefl 0)
    exact ⟨[], ⟨nofun, ⟨hnone, w'.becomes_refl⟩, le_rfl, htried, nofun⟩, rfl⟩
  | succ remaining ih =>
    unfold attempts at h
    split at h
    · rename_i f hfault
      cases h
      exact ⟨[_], .single (.unconnected hfault)
        ⟨rfl, w.becomes_tick.next (w.tick.becomes_log _)⟩, rfl⟩
    split at h
    · rename_i a w₁ hattempt
      obtain ⟨t, ht, hok, hleaves⟩ := attempt_attempted hfn hattempt
      cases h
      refine ⟨[t], .single ht hleaves, ?_⟩
      change _ = t.outcome.mapError some
      rw [hok]
      rfl
    · rename_i e w₁ hattempt
      obtain ⟨t, ht, he, hleaves⟩ := attempt_attempted hfn hattempt
      split at h
      · rename_i hretry
        obtain ⟨made, hmade, hresult⟩ := ih h
        exact ⟨t :: made, hmade.cons ht hleaves he hretry.1,
          hresult.trans (ending_cons he made).symm⟩
      · cases h
        refine ⟨[t], .single ht hleaves, ?_⟩
        change _ = t.outcome.mapError some
        rw [he]
        rfl

end

/-! ### What attempts show -/

section

variable {fn : Program σ τ DriverError ι η Error α} {options : TransactionOptions}
  {moments : ℕ → Moment σ τ ι} {w w' : World σ τ ι η} {t : TxAttempt σ η α}
  {made : List (TxAttempt σ η α)} {remaining : ℕ}

lemma commits_append (l l' : List (Action η)) : commits (l ++ l') = commits l ++ commits l' :=
  List.filterMap_append

lemma hooksRun_append (l l' : List (Action η)) : hooksRun (l ++ l') = hooksRun l ++ hooksRun l' :=
  List.filterMap_append

/-- The hooks of a trace are run in its order, whether they fail or not. -/
lemma ran_projections {hooks : List η} {failures : List Bool}
    (h : failures.length = hooks.length) :
    hooksRun (List.zipWith .ran hooks failures) = hooks ∧
      commits (List.zipWith .ran hooks failures) = [] ∧
      connections (List.zipWith .ran hooks failures) = [] ∧
      releases (List.zipWith .ran hooks failures) = [] := by
  induction hooks generalizing failures with
  | nil => exact ⟨rfl, rfl, rfl, rfl⟩
  | cons x hooks ih =>
    cases failures with
    | nil => cases h
    | cons b failures =>
      obtain ⟨hrun, hc, hl, hr⟩ := ih (by simpa using h)
      exact ⟨congrArg (x :: ·) hrun, hc, hl, hr⟩

/-- A failed attempt has committed nothing that the server has reported, and runs no hook. -/
lemma Attempted.of_error {e : Error} (h : Attempted fn options moments t)
    (he : t.outcome = .error e) :
    commits t.actions = [] ∧ hooksRun t.actions = [] ∧
      (t.effects = [] ∨
        isRetryable e = false ∧ ∃ a c, Completes fn a c ∧ t.effects = [c.write]) := by
  cases h with
  | unconnected => exact ⟨rfl, rfl, .inl rfl⟩
  | failed => exact ⟨rfl, rfl, .inl rfl⟩
  | lost run cause final =>
    cases he
    exact ⟨rfl, rfl, .inr ⟨final, _, _, run, rfl⟩⟩
  | committed => cases he

/-- An attempt that ends well commits a run of the callback, and runs its hooks. -/
lemma Attempted.of_ok {a : α} (h : Attempted fn options moments t) (ha : t.outcome = .ok a) :
    commits t.actions ≠ [] ∧ ∃ c, Completes fn a c ∧ t.effects = [c.write] ∧
      hooksRun t.actions = c.hooks := by
  cases h with
  | unconnected => cases ha
  | failed => cases ha
  | lost => cases ha
  | @committed client b c failures run all =>
    cases ha
    refine ⟨nofun, c, run, rfl, ?_⟩
    rw [hooksRun_append, hooksRun_append, (ran_projections all).1]
    exact List.append_nil _

lemma Attempted.released (h : Attempted fn options moments t) :
    (connections t.actions).length ≤ 1 ∧ releases t.actions = connections t.actions := by
  cases h with
  | unconnected => exact ⟨Nat.zero_le 1, rfl⟩
  | failed => exact ⟨le_rfl, rfl⟩
  | lost => exact ⟨le_rfl, rfl⟩
  | @committed client a c failures run all =>
    obtain ⟨-, -, hl, hr⟩ := ran_projections all
    unfold connections releases at *
    simp only [List.filterMap_append, hl, hr]
    exact ⟨le_rfl, rfl⟩

/-- Only the last attempt of a call has effects, commits and hooks. -/
lemma Made.last (h : Made fn options remaining w w' made) (ht : made.getLast? = some t) :
    made.flatMap TxAttempt.effects = t.effects ∧
      commits (made.flatMap TxAttempt.actions) = commits t.actions ∧
      hooksRun (made.flatMap TxAttempt.actions) = hooksRun t.actions := by
  have hquiet : ∀ t' ∈ made.dropLast,
      commits t'.actions = [] ∧ hooksRun t'.actions = [] ∧ t'.effects = [] := by
    intro t' ht'
    obtain ⟨e, he, hretry⟩ := h.retried t' ht'
    obtain ⟨hc, hh, heffects | ⟨hfinal, -⟩⟩ :=
      (h.each t' (List.dropLast_subset made ht')).of_error he
    · exact ⟨hc, hh, heffects⟩
    · rw [hretry] at hfinal
      cases hfinal
  have hsplit : made = made.dropLast ++ [t] :=
    (List.dropLast_append_getLast? t ht).symm
  generalize made.dropLast = before at hquiet hsplit
  subst hsplit
  simp only [List.flatMap_append, List.flatMap_singleton, commits_append, hooksRun_append]
  refine ⟨?_, ?_, ?_⟩
  · rw [List.flatMap_eq_nil_iff.mpr fun t' ht' => (hquiet t' ht').2.2, List.nil_append]
  · unfold commits at *
    rw [List.filterMap_flatMap, List.flatMap_eq_nil_iff.mpr fun t' ht' => (hquiet t' ht').1,
      List.nil_append]
  · unfold hooksRun at *
    rw [List.filterMap_flatMap, List.flatMap_eq_nil_iff.mpr fun t' ht' => (hquiet t' ht').2.1,
      List.nil_append]

end

/-! ### The guarantee -/

/-- What a call guarantees about the attempts it has made. -/
structure AllOrNothing (fn : Program σ τ DriverError ι η Error α) (options : TransactionOptions)
    (w w' : World σ τ ι η) (made : List (TxAttempt σ η α))
    (result : Except (Option Error) α) : Prop where
  each : ∀ t ∈ made, Attempted fn options w.moments t
  /-- The effects are none or those of one complete run of the callback. -/
  effects : made.flatMap TxAttempt.effects = [] ∨
    ∃ a c, Completes fn a c ∧ made.flatMap TxAttempt.effects = [c.write]
  /-- Without effects the committed state is what others have made of it. -/
  unchanged : made.flatMap TxAttempt.effects = [] →
    w'.db = meanwhileFrom w.moments w.time w'.time w.db
  /-- The effects of a run are made at once, between two requests. -/
  changed : ∀ write, made.flatMap TxAttempt.effects = [write] → ∃ t, w.time ≤ t ∧ t ≤ w'.time ∧
    w'.db = meanwhileFrom w.moments t w'.time (write (meanwhileFrom w.moments w.time t w.db))
  /-- The call returns iff a `COMMIT` has succeeded. -/
  returns : (∃ a, result = .ok a) ↔ commits (made.flatMap TxAttempt.actions) ≠ []
  /-- What it returns, commits and runs after the commit comes from one run. -/
  returned : ∀ a, result = .ok a → ∃ c, Completes fn a c ∧
    made.flatMap TxAttempt.effects = [c.write] ∧
    hooksRun (made.flatMap TxAttempt.actions) = c.hooks
  thrown : ∀ e, result = .error e → hooksRun (made.flatMap TxAttempt.actions) = []
  /-- The error thrown is that of the last attempt. Only where none is allowed there is none. -/
  error : ∀ e, result = .error e → e = none ∧ made = [] ∧ options.maxAttempts < 1 ∨
    ∃ t e', made.getLast? = some t ∧ t.outcome = .error e' ∧ e = some e'
  bounded : made.length ≤ ⌊options.maxAttempts⌋₊
  tried : 1 ≤ options.maxAttempts → made ≠ []
  /-- Only a conflict is followed by another attempt. -/
  retried : ∀ t ∈ made.dropLast, ∃ e, t.outcome = .error e ∧ isRetryable e = true
  /-- Every attempt gives back the client it has taken. -/
  released : ∀ t ∈ made, (connections t.actions).length ≤ 1 ∧
    releases t.actions = connections t.actions

section

variable {fn : Program σ τ DriverError ι η Error α} {options : TransactionOptions}
  {w w' : World σ τ ι η} {made : List (TxAttempt σ η α)} {remaining : ℕ}
  {result : Except (Option Error) α}

lemma Leaves.unchanged (h : Leaves w w' made) (hnone : made.flatMap TxAttempt.effects = []) :
    w'.db = meanwhileFrom w.moments w.time w'.time w.db := by
  have hdb := h.becomes.db
  rw [hnone] at hdb
  exact hdb.eq_meanwhileFrom

lemma Leaves.changed (h : Leaves w w' made) (write : σ → σ)
    (hone : made.flatMap TxAttempt.effects = [write]) : ∃ t, w.time ≤ t ∧ t ≤ w'.time ∧
      w'.db = meanwhileFrom w.moments t w'.time (write (meanwhileFrom w.moments w.time t w.db)) := by
  have hdb := h.becomes.db
  rw [hone] at hdb
  exact hdb.exists_between

/-- How a call ends that has made no attempt, one that ends well, and one that does not. -/
inductive CallEnded (fn : Program σ τ DriverError ι η Error α) (made : List (TxAttempt σ η α)) :
    Except (Option Error) α → Prop where
  | untried (empty : made = []) : CallEnded fn made (.error none)
  | returned {a : α} {c : Ctx σ τ η} (run : Completes fn a c)
      (write : made.flatMap TxAttempt.effects = [c.write])
      (commit : commits (made.flatMap TxAttempt.actions) ≠ [])
      (hooks : hooksRun (made.flatMap TxAttempt.actions) = c.hooks) : CallEnded fn made (.ok a)
  | thrown {t : TxAttempt σ η α} {e : Error} (last : made.getLast? = some t)
      (failed : t.outcome = .error e)
      (effects : made.flatMap TxAttempt.effects = [] ∨
        ∃ a c, Completes fn a c ∧ made.flatMap TxAttempt.effects = [c.write])
      (commit : commits (made.flatMap TxAttempt.actions) = [])
      (hooks : hooksRun (made.flatMap TxAttempt.actions) = []) :
      CallEnded fn made (.error (some e))

lemma Made.ended (h : Made fn options remaining w w' made) :
    CallEnded fn made (ending none made) := by
  cases hlast : made.getLast? with
  | none =>
    obtain rfl := List.getLast?_eq_none_iff.mp hlast
    exact .untried rfl
  | some t =>
    have ht := h.each t (List.mem_of_getLast? hlast)
    obtain ⟨heffects, hcommits, hhooks⟩ := h.last hlast
    rw [ending, hlast, Option.elim_some]
    cases houtcome : t.outcome with
    | ok a =>
      obtain ⟨hcommit, c, hrun, hwrite, hran⟩ := ht.of_ok houtcome
      exact .returned hrun (heffects.trans hwrite) (hcommits ▸ hcommit) (hhooks.trans hran)
    | error e =>
      obtain ⟨hcommit, hran, hwrite⟩ := ht.of_error houtcome
      refine .thrown hlast houtcome ?_ (hcommits.trans hcommit) (hhooks.trans hran)
      rw [heffects]
      obtain hwrite | ⟨-, hwrite⟩ := hwrite
      · exact .inl hwrite
      · exact .inr hwrite

end

/-- `withTransaction` is all or nothing, and retries conflicts only. -/
theorem withTransaction_allOrNothing {fn : Program σ τ DriverError ι η Error α}
    (hfn : Propagates fn) (options : TransactionOptions) (w : World σ τ ι η) :
    ∃ made, Leaves w (withTransaction fn options w).2 made ∧
      AllOrNothing fn options w (withTransaction fn options w).2 made
        (withTransaction fn options w).1 := by
  obtain ⟨made, hmade, hresult⟩ : ∃ made, Made fn options ⌊options.maxAttempts⌋₊ w _ made ∧ _ =
      ending none made := attempts_made (n := 1) hfn rfl
  refine ⟨made, hmade.leaves, ?_⟩
  change Made fn options _ w (withTransaction fn options w).2 made at hmade
  change (withTransaction fn options w).1 = _ at hresult
  have hended : CallEnded fn made (withTransaction fn options w).1 := hresult ▸ hmade.ended
  generalize (withTransaction fn options w).1 = result at hended
  have htried : 1 ≤ options.maxAttempts → made ≠ [] := fun h => hmade.tried (Nat.floor_pos.mpr h)
  refine
    { each := hmade.each
      effects := ?_
      unchanged := hmade.leaves.unchanged
      changed := hmade.leaves.changed
      returns := ?_
      returned := ?_
      thrown := ?_
      error := ?_
      bounded := hmade.bounded
      tried := htried
      retried := hmade.retried
      released := fun t ht => (hmade.each t ht).released }
  · cases hended with
    | untried hempty => exact .inl (hempty ▸ rfl)
    | returned run write => exact .inr ⟨_, _, run, write⟩
    | thrown last failed effects => exact effects
  · cases hended with
    | untried hempty => exact ⟨nofun, fun h => absurd (hempty ▸ rfl) h⟩
    | returned run write commit => exact ⟨fun _ => commit, fun _ => ⟨_, rfl⟩⟩
    | thrown last failed effects commit => exact ⟨nofun, fun h => absurd commit h⟩
  · rintro a rfl
    cases hended with
    | returned run write commit hooks => exact ⟨_, run, write, hooks⟩
  · rintro e rfl
    cases hended with
    | untried hempty => exact hempty ▸ rfl
    | thrown last failed effects commit hooks => exact hooks
  · rintro e rfl
    cases hended with
    | untried hempty => exact .inl ⟨rfl, hempty, not_le.mp fun h => htried h hempty⟩
    | thrown last failed => exact .inr ⟨_, _, last, failed, rfl⟩

/-- A credit of one, and two hooks. -/
def credit : Program ℕ Unit DriverError Unit String Error ℕ := do
  let balance ← Program.exec Error.ofDriver fun _ _ balance _ => .done balance (· + 1) []
  Program.afterCommit "publish" (.ret ())
  Program.afterCommit "track" (.ret ())
  return balance

/-- The first `COMMIT` meets a conflict and the `ROLLBACK` after it fails, and so does a hook. -/
def conflicted : World ℕ Unit Unit String where
  moments t :=
    { clock := t
      input := ()
      client := t
      fault :=
        if t = 5 then some { error := { code := "40001" } }
        else if t = 6 ∨ t = 13 then some { error := { code := "57014" } }
        else none }
  db := 41

lemma credit_propagates : Propagates credit :=
  LetsErrorsPropagate.propagates (show LetsErrorsPropagate credit from
    ⟨fun _ => trivial, fun _ => ⟨_, rfl⟩⟩)

/-- The second attempt commits the credit, with both hooks. -/
theorem withTransaction_allOrNothing_conflicted :
    ((withTransaction credit {} conflicted).1.toOption,
        (withTransaction credit {} conflicted).2.db,
        hooksRun (withTransaction credit {} conflicted).2.trace,
        connections (withTransaction credit {} conflicted).2.trace,
        releases (withTransaction credit {} conflicted).2.trace) =
      (some 41, 42, ["publish", "track"], [0, 7], [0, 7]) ∧
    ∃ made, Leaves conflicted (withTransaction credit {} conflicted).2 made ∧
      AllOrNothing credit {} conflicted (withTransaction credit {} conflicted).2 made
        (withTransaction credit {} conflicted).1 :=
  ⟨by decide +kernel, withTransaction_allOrNothing credit_propagates {} conflicted⟩

end TakaFlow
