import TakaFlow.Lib.Wp
import TakaFlow.Transactions

/-!
# A transaction nobody disturbs

In a world in which the clock stands still and no other session commits or holds anything, a call
that returns has committed one run of its callback on the state it began at. Requests may still fail.
-/

namespace TakaFlow

open Txn

variable {σ τ ι η α β ρ : Type}

/-- The world of a call that is alone on the state `d`, with the clock at `now`. -/
structure Alone (now : Timestamp) (d : σ) (w : World σ τ ι η) : Prop where
  db : w.db = d
  clock : ∀ t, (w.moments t).clock = now
  others : ∀ t, (w.moments t).others = id
  view : ∀ t, (w.moments t).view = id
  taken : ∀ t l, (w.moments t).taken l = false

namespace Alone

variable {now : Timestamp} {d : σ} {w : World σ τ ι η}

lemma tick (h : Alone now d w) : Alone now d w.tick := by
  refine { h with db := ?_ }
  change (w.moments w.time).others w.db = d
  rw [h.others, h.db]
  rfl

lemma log (h : Alone now d w) (actions : List (Action η)) : Alone now d (w.log actions) :=
  { h with }

lemma commit (h : Alone now d w) (write : σ → σ) : Alone now (write d) (w.commit write) :=
  { h with db := congrArg write h.db }

lemma release (h : Alone now d w) (client : ℕ) (p : Pooled) :
    Alone now d (w.release client p) :=
  { h with }

lemma runHooks (h : Alone now d w) (hooks : List η) : Alone now d (w.runHooks hooks) := by
  induction hooks generalizing w with
  | nil => exact h
  | cons x hooks ih => exact ih (h.tick.log _)

/-- Without faults a statement is answered on the state itself. -/
lemma answer (h : Alone now d w) (c : Ctx σ τ η) (s : Stmt σ τ DriverError ι ρ)
    (hfault : w.now.fault = none) (hc : c.aborted = false) :
    w.answer c s = match s c.now w.now.input (c.write d) fun _ => false with
      | .done r w acquired => (.ok r, c.done w acquired)
      | .blocked _ => (.error (.pg { code := PgError.lockNotAvailable }),
          c.fail (DriverError.pg { code := PgError.lockNotAvailable }))
      | .failed e => (.error e, c.fail e) := by
  have hview : w.now.view (w.now.others w.db) = d := by
    rw [show w.now.view = id from h.view _, show w.now.others = id from h.others _, h.db]
    rfl
  have htaken : w.now.taken = fun _ => false := funext fun l => h.taken _ l
  cases hresult : s c.now w.now.input (c.write d) fun _ => false with
  | done r write acquired => simp [World.answer, hfault, hc, hview, htaken, hresult]
  | blocked l => simp [World.answer, hfault, hc, hview, htaken, hresult]
  | failed e => simp [World.answer, hfault, hc, hview, htaken, hresult]

end Alone

/-! ### The run of a callback -/

section

variable {deadlineAt : Millis} {c : Ctx σ τ η} {w : World σ τ ι η}

lemma perform_query {s : Stmt σ τ DriverError ι ρ}
    {k : Except DriverError ρ → Program σ τ DriverError ι η Error α} :
    perform deadlineAt (.query s k) c w = perform deadlineAt
      (k (w.query deadlineAt c (w.answer c s)).1) (w.query deadlineAt c (w.answer c s)).2
      w.tick := rfl

lemma perform_savepoint {cmd : SavepointCmd}
    {k : Except DriverError Unit → Program σ τ DriverError ι η Error α} :
    perform deadlineAt (.savepoint cmd k) c w = perform deadlineAt
      (k (w.query deadlineAt c (w.control c cmd)).1) (w.query deadlineAt c (w.control c cmd)).2
      w.tick := rfl

/-- The server knows nothing of a statement that was not sent. -/
lemma fail_deadline (c : Ctx σ τ η) : c.fail DriverError.deadline = c := by
  rw [Ctx.fail, show Driver.aborts DriverError.deadline = false from rfl, Bool.or_false]

end

namespace Alone

variable {now : Timestamp} {d : σ} {w w' : World σ τ ι η} {deadlineAt : Millis}
  {c c' : Ctx σ τ η} {a : α}

lemma perform (h : Alone now d w) (deadlineAt : Millis)
    (p : Program σ τ DriverError ι η Error α) (c : Ctx σ τ η) :
    Alone now d (perform deadlineAt p c w).2.2 := by
  induction p generalizing c w with
  | ret a => exact h
  | throw e => exact h
  | input k ih => exact ih _ _ h.tick _
  | query s k ih => exact ih _ h.tick _
  | savepoint cmd k ih => exact ih _ h.tick _
  | afterCommit x k ih => exact ih h _

/-- A statement of a callback that returns has succeeded, and on the state itself. -/
lemma perform_exec {raise : DriverError → Error} {s : Stmt σ τ DriverError ι ρ}
    {f : ρ → Program σ τ DriverError ι η Error α} (h : Alone now d w)
    (hrun : TakaFlow.perform deadlineAt ((Program.exec raise s).bind f) c w = (.ok a, c', w')) :
    ∃ r write acquired, s c.now w.now.input (c.write d) (fun _ => false) =
        .done r write acquired ∧
      TakaFlow.perform deadlineAt (f r) (c.done write acquired) w.tick = (.ok a, c', w') := by
  -- After an error the callback throws.
  have hraise : ∀ e c₁, TakaFlow.perform deadlineAt
      (Program.throw (raise e) : Program σ τ DriverError ι η Error α) c₁ w.tick ≠
        (.ok a, c', w') := nofun
  rw [Program.exec, Program.bind, perform_query] at hrun
  by_cases hlate : deadlineAt < w.dateNow
  · simp only [World.query, if_pos hlate] at hrun
    exact absurd hrun (hraise _ _)
  simp only [World.query, if_neg hlate] at hrun
  cases hfault : w.now.fault with
  | some f =>
    simp only [World.answer, hfault] at hrun
    exact absurd hrun (hraise _ _)
  | none =>
    cases hc : c.aborted with
    | true =>
      simp only [World.answer, hfault, hc, if_true] at hrun
      exact absurd hrun (hraise _ _)
    | false =>
      rw [h.answer c s hfault hc] at hrun
      cases hs : s c.now w.now.input (c.write d) fun _ => false with
      | done r write acquired =>
        rw [hs] at hrun
        exact ⟨r, write, acquired, rfl, hrun⟩
      | blocked l =>
        rw [hs] at hrun
        exact absurd hrun (hraise _ _)
      | failed e =>
        rw [hs] at hrun
        exact absurd hrun (hraise _ _)

lemma perform_input {k : ℕ → ι → Program σ τ DriverError ι η Error α} (h : Alone now d w) :
    TakaFlow.perform deadlineAt (.input k) c w =
      TakaFlow.perform deadlineAt (k now w.now.input) c w.tick := by
  rw [TakaFlow.perform, show w.now.clock = now from h.clock _]

end Alone

/-- Whatever the answers, the program returns such values only if its clock stands at `now`. -/
def Yields (now : Timestamp) (Q : α → Prop) : Program σ τ DriverError ι η Error α → Prop
  | .ret a => Q a
  | .throw _ => True
  | .input k => ∀ x, Yields now Q (k now x)
  | .query _ k => ∀ r, Yields now Q (k r)
  | .savepoint _ k => ∀ r, Yields now Q (k r)
  | .afterCommit _ k => Yields now Q k

namespace Yields

variable {now : Timestamp} {Q : α → Prop}

lemma bind {p : Program σ τ DriverError ι η Error β} {f : β → Program σ τ DriverError ι η Error α}
    (hf : ∀ b, Yields now Q (f b)) : Yields now Q (p.bind f) := by
  induction p with
  | ret b => exact hf b
  | throw e => trivial
  | input k ih => exact fun x => ih now x
  | query s k ih => exact fun r => ih r
  | savepoint cmd k ih => exact fun r => ih r
  | afterCommit x k ih => exact ih

/-- The values of the first program reach the second one. -/
lemma andThen {p : Program σ τ DriverError ι η Error β} {Q' : β → Prop}
    {f : β → Program σ τ DriverError ι η Error α} (hp : Yields now Q' p)
    (hf : ∀ b, Q' b → Yields now Q (f b)) : Yields now Q (p.bind f) := by
  induction p with
  | ret b => exact hf b hp
  | throw e => trivial
  | input k ih => exact fun x => ih now x (hp x)
  | query s k ih => exact fun r => ih r (hp r)
  | savepoint cmd k ih => exact fun r => ih r (hp r)
  | afterCommit x k ih => exact ih hp

lemma tryCatch {p : Program σ τ DriverError ι η Error α}
    {handle : Error → Program σ τ DriverError ι η Error α} (hp : Yields now Q p)
    (hh : ∀ e, Yields now Q (handle e)) : Yields now Q (p.tryCatch handle) := by
  induction p with
  | ret a => exact hp
  | throw e => exact hh e
  | input k ih => exact fun x => ih now x (hp x)
  | query s k ih => exact fun r => ih r (hp r)
  | savepoint cmd k ih => exact fun r => ih r (hp r)
  | afterCommit x k ih => exact ih hp

lemma perform {p : Program σ τ DriverError ι η Error α} {d : σ} {w w' : World σ τ ι η}
    {deadlineAt : Millis} {c c' : Ctx σ τ η} {a : α} (hp : Yields now Q p) (h : Alone now d w)
    (hrun : TakaFlow.perform deadlineAt p c w = (.ok a, c', w')) : Q a := by
  induction p generalizing c w with
  | ret b =>
    cases hrun
    exact hp
  | throw e => cases hrun
  | input k ih =>
    rw [h.perform_input] at hrun
    exact ih now _ (hp _) h.tick hrun
  | query s k ih => exact ih _ (hp _) h.tick hrun
  | savepoint cmd k ih => exact ih _ (hp _) h.tick hrun
  | afterCommit x k ih => exact ih hp h hrun

end Yields

namespace Alone

variable {now : Timestamp} {d : σ} {w w' : World σ τ ι η} {deadlineAt : Millis}

/-- What is proved of a program under interference holds when there is none. -/
lemma wp {D : Discipline σ τ} {p : Program σ τ DriverError ι η Error α}
    {Q : α → Ctx σ τ η → σ → Prop} {R : Error → Ctx σ τ η → σ → Prop} {c c' : Ctx σ τ η} {a : α}
    (hmay : ∀ n d l, D.may n d l) (h : Alone now d w) (hwp : Txn.wp D p Q R c d)
    (hc : c.now ≤ now)
    (hrun : TakaFlow.perform deadlineAt p c w = (.ok a, c', w')) : Q a c' d := by
  induction p generalizing c w with
  | ret b =>
    cases hrun
    exact hwp
  | throw e => cases hrun
  | input k ih =>
    rw [h.perform_input] at hrun
    exact ih now _ h.tick (hwp now _ hc) hc hrun
  | afterCommit x k ih => exact ih h hwp hc hrun
  | query s k ih =>
    obtain ⟨hfail, hdone⟩ := hwp d Discipline.rely_refl
    rw [perform_query] at hrun
    by_cases hlate : deadlineAt < w.dateNow
    · simp only [World.query, if_pos hlate] at hrun
      exact ih _ h.tick (fail_deadline c ▸ hfail .deadline) hc hrun
    simp only [World.query, if_neg hlate] at hrun
    cases hfault : w.now.fault with
    | some f =>
      simp only [World.answer, hfault] at hrun
      exact ih _ h.tick (hfail _) hc hrun
    | none =>
      cases ha : c.aborted with
      | true =>
        simp only [World.answer, hfault, ha, if_true] at hrun
        exact ih _ h.tick (hfail _) hc hrun
      | false =>
        rw [h.answer c s hfault ha] at hrun
        have hs := hdone ha w.now.input (fun _ => false) fun _ _ _ => rfl
        split at hrun <;> rename_i heq <;> rw [heq] at hs
        · obtain ⟨-, -, hk⟩ := hs (fun l _ => hmay _ _ l) fun _ _ _ => rfl
          exact ih _ h.tick hk hc hrun
        · exact ih _ h.tick (hfail _) hc hrun
        · exact ih _ h.tick (hfail _) hc hrun
  | savepoint cmd k ih =>
    obtain ⟨hfail, hdone⟩ := hwp d Discipline.rely_refl
    rw [perform_savepoint] at hrun
    by_cases hlate : deadlineAt < w.dateNow
    · simp only [World.query, if_pos hlate] at hrun
      exact ih _ h.tick (fail_deadline c ▸ hfail .deadline) hc hrun
    simp only [World.query, if_neg hlate] at hrun
    cases hfault : w.now.fault with
    | some f =>
      simp only [World.control, hfault] at hrun
      exact ih _ h.tick (hfail _) hc hrun
    | none =>
      simp only [World.control, hfault] at hrun
      split at hrun
      · rename_i s rest hsaves
        rw [hsaves] at hdone
        exact ih _ h.tick hdone hc hrun
      · exact ih _ h.tick (hfail _) hc hrun
      · exact ih _ h.tick (hfail _) hc hrun
      · rename_i ha
        exact ih _ h.tick (hdone ha) hc hrun
      · rename_i s rest hsaves ha
        rw [hsaves] at hdone
        exact ih _ h.tick (hdone ha) hc hrun
      · exact ih _ h.tick (hfail _) hc hrun

/-! ### The transaction around it -/

variable {fn : Program σ τ DriverError ι η Error α} {a : α} {post : α → σ → Prop}

/-- What every run of the callback on `d` would commit. -/
def Ensures (now : Timestamp) (d : σ) (fn : Program σ τ DriverError ι η Error α)
    (post : α → σ → Prop) : Prop :=
  ∀ deadlineAt (w w' : World σ τ ι η) a c, Alone now d w →
    TakaFlow.perform deadlineAt fn (.start now) w = (.ok a, c, w') →
      c.aborted = false ∧ post a (c.write d)

/-- An attempt commits a run of the callback. After a conflict nothing has happened. -/
lemma tryAttempt (h : Alone now d w) (hfn : Ensures now d fn post) (options : TransactionOptions)
    (client : ℕ) :
    (∀ a, (tryAttempt fn options client w).1 = .ok a →
      ∃ d', Alone now d' (tryAttempt fn options client w).2 ∧ post a d') ∧
    ∀ e, (tryAttempt fn options client w).1 = .error e → isRetryable e = true →
      Alone now d (tryAttempt fn options client w).2 := by
  have hsent := h.tick.log [.sent client options.preamble]
  unfold TakaFlow.tryAttempt
  simp only
  split
  · exact ⟨nofun, fun e _ _ => hsent.tick⟩
  · rename_i c hbegin
    have hc : c = .start now := by
      unfold Moment.begin at hbegin
      split at hbegin
      · cases hbegin
      · cases hbegin
      · rw [← Except.ok.inj hbegin]
        exact congrArg Ctx.start (hsent.clock _)
    split
    · exact ⟨nofun, fun e _ _ => hsent.tick.tick⟩
    split
    · rename_i e c' w' hrun
      refine ⟨nofun, fun _ _ _ => ?_⟩
      have hw := hsent.tick.tick.perform (w.dateNow + options.deadlineMs) fn c
      rwa [hrun] at hw
    · rename_i a c' w' hrun
      have hw := hsent.tick.tick.perform (w.dateNow + options.deadlineMs) fn c
      rw [hrun] at hw
      rw [hc] at hrun
      obtain ⟨ha, hpost⟩ := hfn _ _ _ _ _ hsent.tick.tick hrun
      have hdone := (hw.tick.commit c'.write).log [.committed client]
      simp only [World.commitAs, ha, Bool.false_eq_true, if_false]
      cases hfault : w'.now.fault with
      | none =>
        refine ⟨?_, nofun⟩
        rintro b ⟨⟩
        exact ⟨c'.write d, hdone.runHooks _, hpost⟩
      | some f =>
        refine ⟨nofun, ?_⟩
        rintro e ⟨⟩ hretry
        have hprocessed : f.processed = false := by
          cases hp : f.processed with
          | false => rfl
          | true => rw [f.conflict hp] at hretry; cases hretry
        simp only [hprocessed, Bool.false_eq_true, if_false]
        exact hw.tick

lemma attempt (h : Alone now d w) (hfn : Ensures now d fn post) (options : TransactionOptions)
    (client : ℕ) :
    (∀ a, (attempt fn options client w).1 = .ok a →
      ∃ d', Alone now d' (attempt fn options client w).2 ∧ post a d') ∧
    ∀ e, (attempt fn options client w).1 = .error e → isRetryable e = true →
      Alone now d (attempt fn options client w).2 := by
  obtain ⟨hok, herror⟩ := h.tryAttempt hfn options client
  unfold TakaFlow.attempt
  split
  · rename_i a w' htry
    rw [htry] at hok
    refine ⟨?_, nofun⟩
    rintro b ⟨⟩
    obtain ⟨d', hd', hpost⟩ := hok a rfl
    exact ⟨d', hd'.release client .idle, hpost⟩
  · rename_i e w' htry
    rw [htry] at herror
    refine ⟨nofun, ?_⟩
    rintro b ⟨⟩ hretry
    exact ((herror e rfl hretry).tick.log _).release client _

lemma attempts {options : TransactionOptions} {remaining n : ℕ} {lastError : Option Error}
    (h : Alone now d w) (hfn : Ensures now d fn post)
    (hrun : attempts fn options remaining n lastError w = (.ok a, w')) :
    ∃ d', Alone now d' w' ∧ post a d' := by
  induction remaining generalizing n lastError w with
  | zero => cases hrun
  | succ remaining ih =>
    unfold TakaFlow.attempts at hrun
    split at hrun
    · cases hrun
    have hconnected := h.tick.log [.connected w.now.client]
    obtain ⟨hok, herror⟩ := hconnected.attempt hfn options w.now.client
    split at hrun
    · rename_i b w₁ hattempt
      rw [hattempt] at hok
      cases hrun
      exact hok _ rfl
    · rename_i e w₁ hattempt
      rw [hattempt] at herror
      split at hrun
      · rename_i hretry
        exact ih (herror e rfl hretry.1) hrun
      · cases hrun

/-- A call that returns has committed what its callback does on the state it began at. -/
theorem withTransaction {options : TransactionOptions} (h : Alone now d w)
    (hfn : Ensures now d fn post)
    (hrun : withTransaction fn options w = (.ok a, w')) : ∃ d', Alone now d' w' ∧ post a d' :=
  h.attempts hfn hrun

end Alone

end TakaFlow
