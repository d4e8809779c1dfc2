import TakaFlow.Lib.History

/-!
# Deadlines

A client that refuses to issue statements once its deadline has passed: of a session that is late
every further statement fails with the same driver error, before it reaches the server.

`Ends` follows a program through all answers its statements can get, with the hooks registered on
the way and whether the deadline has passed. It knows nothing of the committed state.
-/

namespace Txn

variable {σ τ δ ι η ε α β κ : Type}

/-! ### The ends of a program -/

namespace Program

variable (deadline : δ)

/-- However the program ends, `Q` holds of what it returns or `R` of what it throws. -/
def Ends (Q : Bool → List η → α → Prop) (R : Bool → List η → ε → Prop) (late : Bool)
    (hs : List η) : Program σ τ δ ι η ε α → Prop
  | .ret a => Q late hs a
  | .throw e => R late hs e
  | .input k => ∀ t x, (k t x).Ends Q R late hs
  | .query _ k => (late = false → ∀ r, r ≠ .error deadline → (k r).Ends Q R false hs) ∧
    (k (.error deadline)).Ends Q R true hs
  | .savepoint _ k => (late = false → ∀ r, r ≠ .error deadline → (k r).Ends Q R false hs) ∧
    (k (.error deadline)).Ends Q R true hs
  | .afterCommit h k => k.Ends Q R late (hs ++ [h])

section rules

variable {deadline} {Q Q' : Bool → List η → α → Prop} {R R' : Bool → List η → ε → Prop}
  {late : Bool} {hs : List η}

@[simp] lemma ends_ret (a : α) :
    (.ret a : Program σ τ δ ι η ε α).Ends deadline Q R late hs ↔ Q late hs a := Iff.rfl

@[simp] lemma ends_throw (e : ε) :
    (.throw e : Program σ τ δ ι η ε α).Ends deadline Q R late hs ↔ R late hs e := Iff.rfl

@[simp] lemma ends_input (k : ℕ → ι → Program σ τ δ ι η ε α) :
    (Program.input k).Ends deadline Q R late hs ↔ ∀ t x, (k t x).Ends deadline Q R late hs :=
  Iff.rfl

@[simp] lemma ends_afterCommit (h : η) (k : Program σ τ δ ι η ε α) :
    (Program.afterCommit h k).Ends deadline Q R late hs ↔ k.Ends deadline Q R late (hs ++ [h]) :=
  Iff.rfl

lemma Ends.mono {p : Program σ τ δ ι η ε α} (hQ : ∀ b hs a, Q b hs a → Q' b hs a)
    (hR : ∀ b hs e, R b hs e → R' b hs e) (h : p.Ends deadline Q R late hs) :
    p.Ends deadline Q' R' late hs := by
  induction p generalizing late hs with
  | ret a => exact hQ _ _ _ h
  | throw e => exact hR _ _ _ h
  | input k ih => exact fun t x => ih t x (h t x)
  | query s k ih => exact ⟨fun hl r hr => ih r (h.1 hl r hr), ih _ h.2⟩
  | savepoint cmd k ih => exact ⟨fun hl r hr => ih r (h.1 hl r hr), ih _ h.2⟩
  | afterCommit x k ih => exact ih h

@[simp] lemma ends_bind {Q : Bool → List η → β → Prop} (p : Program σ τ δ ι η ε α)
    (f : α → Program σ τ δ ι η ε β) : (p.bind f).Ends deadline Q R late hs ↔
      p.Ends deadline (fun late hs a => (f a).Ends deadline Q R late hs) R late hs := by
  induction p generalizing late hs with
  | ret a => rfl
  | throw e => rfl
  | input k ih => exact forall_congr' fun t => forall_congr' fun x => ih t x
  | query s k ih => simp only [Program.bind, Ends, ih]
  | savepoint cmd k ih => simp only [Program.bind, Ends, ih]
  | afterCommit x k ih => exact ih

@[simp] lemma ends_tryCatch (p : Program σ τ δ ι η ε α) (f : ε → Program σ τ δ ι η ε α) :
    (p.tryCatch f).Ends deadline Q R late hs ↔
      p.Ends deadline Q (fun late hs e => (f e).Ends deadline Q R late hs) late hs := by
  induction p generalizing late hs with
  | ret a => rfl
  | throw e => rfl
  | input k ih => exact forall_congr' fun t => forall_congr' fun x => ih t x
  | query s k ih => simp only [Program.tryCatch, Ends, ih]
  | savepoint cmd k ih => simp only [Program.tryCatch, Ends, ih]
  | afterCommit x k ih => exact ih

/-- What a statement or a savepoint command can lead to: an answer, an error of the server or the
deadline. -/
structure Issued (Q : Bool → List η → α → Prop) (R : Bool → List η → ε → Prop) (raise : δ → ε)
    (deadline : δ) (late : Bool) (hs : List η) : Prop where
  answered : late = false → ∀ a, Q false hs a
  refused : late = false → ∀ e, e ≠ deadline → R false hs (raise e)
  passed : R true hs (raise deadline)

lemma ends_exec {raise : δ → ε} {s : Stmt σ τ δ ι α}
    (h : Issued Q R raise deadline late hs) :
    (exec raise s : Program σ τ δ ι η ε α).Ends deadline Q R late hs := by
  refine ⟨fun hl r hr => ?_, h.passed⟩
  cases r with
  | ok a => exact h.answered hl a
  | error e => exact h.refused hl e fun he => hr (congrArg _ he)

lemma ends_control {raise : δ → ε} {cmd : SavepointCmd} {Q : Bool → List η → Unit → Prop}
    (h : Issued Q R raise deadline late hs) :
    (control raise cmd : Program σ τ δ ι η ε Unit).Ends deadline Q R late hs := by
  refine ⟨fun hl r hr => ?_, h.passed⟩
  cases r with
  | ok a => exact h.answered hl a
  | error e => exact h.refused hl e fun he => hr (congrArg _ he)

lemma Ends.of_forall {p : Program σ τ δ ι η ε α} (hQ : ∀ b hs a, Q b hs a)
    (hR : ∀ b hs e, R b hs e) : p.Ends deadline Q R late hs := by
  induction p generalizing late hs with
  | ret a => exact hQ _ _ _
  | throw e => exact hR _ _ _
  | input k ih => exact fun t x => ih t x
  | query s k ih => exact ⟨fun _ r _ => ih r, ih _⟩
  | savepoint cmd k ih => exact ⟨fun _ r _ => ih r, ih _⟩
  | afterCommit x k ih => exact ih

end rules

/-- The program registers no hooks, and it throws when its deadline passes. -/
def Plain (p : Program σ τ δ ι η ε α) : Prop :=
  ∀ (Q : Bool → List η → α → Prop) (R : Bool → List η → ε → Prop) (hs : List η),
    (∀ a, Q false hs a) → (∀ late e, R late hs e) → p.Ends deadline Q R false hs

namespace Plain

variable {deadline}

lemma ret (a : α) : Plain deadline (.ret a : Program σ τ δ ι η ε α) := fun _ _ _ hQ _ => hQ a

lemma throw (e : ε) : Plain deadline (.throw e : Program σ τ δ ι η ε α) := fun _ _ _ _ hR => hR _ e

lemma input {k : ℕ → ι → Program σ τ δ ι η ε α} (h : ∀ t x, Plain deadline (k t x)) :
    Plain deadline (.input k) := fun _ _ _ hQ hR t x => h t x _ _ _ hQ hR

lemma exec (raise : δ → ε) (s : Stmt σ τ δ ι α) :
    Plain deadline (exec raise s : Program σ τ δ ι η ε α) := fun _ _ _ hQ hR =>
  ends_exec ⟨fun _ => hQ, fun _ _ _ => hR _ _, hR _ _⟩

lemma control (raise : δ → ε) (cmd : SavepointCmd) :
    Plain deadline (control raise cmd : Program σ τ δ ι η ε Unit) := fun _ _ _ hQ hR =>
  ends_control ⟨fun _ => hQ, fun _ _ _ => hR _ _, hR _ _⟩

lemma bind {p : Program σ τ δ ι η ε α} {f : α → Program σ τ δ ι η ε β} (hp : Plain deadline p)
    (hf : ∀ a, Plain deadline (f a)) : Plain deadline (p.bind f) := by
  intro Q R hs hQ hR
  rw [ends_bind]
  exact hp _ _ _ (fun a => hf a _ _ _ hQ hR) hR

/-- An error is thrown again in other words. -/
lemma rethrow {p : Program σ τ δ ι η ε α} (hp : Plain deadline p) (f : ε → ε) :
    Plain deadline (p.tryCatch fun e => .throw (f e)) := by
  intro Q R hs hQ hR
  rw [ends_tryCatch]
  exact hp _ _ _ hQ fun late e => hR late (f e)

lemma ite {c : Prop} [Decidable c] {p q : Program σ τ δ ι η ε α} (hp : Plain deadline p)
    (hq : Plain deadline q) : Plain deadline (if c then p else q) := by
  split
  · exact hp
  · exact hq

end Plain

end Program

/-! ### Runs with deadlines -/

/-- Does the program issue a statement or a savepoint command next? -/
def Program.issues : Program σ τ δ ι η ε α → Bool
  | .query _ _ => true
  | .savepoint _ _ => true
  | _ => false

/-- An action of a session that may act keeps to the ends of its program. -/
lemma Program.Ends.advance [DecidableEq τ] [Driver δ] {deadline : δ}
    (hfailed : Driver.inFailedTransaction ≠ deadline) (hsaves : Driver.noSuchSavepoint ≠ deadline)
    {s : Sys σ τ δ ι η ε α κ} {i : ℕ} {x : ι} {c c' : Ctx σ τ η}
    {p p' : Program σ τ δ ι η ε α} {Q : Bool → List η → α → Prop}
    {R : Bool → List η → ε → Prop} {late : Bool}
    (h : p.Ends deadline Q R late c.hooks) (hlate : p.issues = true → late = false)
    (hreports : ∀ {ρ : Type} (q : Stmt σ τ δ ι ρ) k e, p = .query q k →
      q c.now x (c.write s.db) (s.takenByOthers i) = .failed e → e ≠ deadline)
    (ha : s.advance i x c p = some (c', p')) : p'.Ends deadline Q R late c'.hooks := by
  cases p with
  | ret a => cases ha
  | throw e => cases ha
  | input k =>
    cases ha
    exact h s.clock x
  | afterCommit y k =>
    cases ha
    exact h
  | query q k =>
    have hl := hlate rfl
    subst hl
    simp only [Sys.advance] at ha
    split at ha
    · cases ha
      exact h.1 rfl _ fun he => hfailed (Except.error.inj he)
    · split at ha
      · cases ha
        exact h.1 rfl _ (by rintro ⟨⟩)
      · cases ha
      · cases ha
        exact h.1 rfl _ fun he => hreports q k _ rfl ‹_› (Except.error.inj he)
  | savepoint cmd k =>
    have hl := hlate rfl
    subst hl
    have hok : (k (.ok ())).Ends deadline Q R false c.hooks := h.1 rfl _ (by rintro ⟨⟩)
    have hfail : (k (.error Driver.inFailedTransaction)).Ends deadline Q R false c.hooks :=
      h.1 rfl _ fun he => hfailed (Except.error.inj he)
    have hnone : (k (.error Driver.noSuchSavepoint)).Ends deadline Q R false c.hooks :=
      h.1 rfl _ fun he => hsaves (Except.error.inj he)
    simp only [Sys.advance] at ha
    split at ha <;> cases ha <;> assumption

variable [DecidableEq δ]

/-- The sessions, and those whose deadline has passed. -/
structure Timed (σ τ δ ι η ε α κ : Type) : Type 1 where
  sys : Sys σ τ δ ι η ε α κ
  late : List ℕ := []

/-- Is session `i` about to issue a statement? -/
def Sys.issues (s : Sys σ τ δ ι η ε α κ) (i : ℕ) : Bool :=
  s.sessions[i]?.any fun x =>
    match x.phase with
    | .running p => p.issues
    | _ => false

/-- The error of the next statement of session `i`. -/
def Sys.reports [DecidableEq τ] (s : Sys σ τ δ ι η ε α κ) (i : ℕ) (x : ι) : Option δ :=
  match s.sessions[i]? with
  | some ⟨_, c, .running (.query q _)⟩ =>
    match q c.now x (c.write s.db) (s.takenByOthers i) with
    | .failed e => some e
    | _ => none
  | _ => none

namespace Timed

variable [DecidableEq τ] (deadline : δ)

/-- A late session issues nothing, and the server does not report the deadline. -/
def permits (t : Timed σ τ δ ι η ε α κ) : Event δ ι κ → Bool
  | .step i x => !(decide (i ∈ t.late) && t.sys.issues i) && t.sys.reports i x ≠ some deadline
  | .fault i e => e = deadline || i ∉ t.late
  | _ => true

def lateAfter (t : Timed σ τ δ ι η ε α κ) : Event δ ι κ → List ℕ
  | .fault i e => if e = deadline then i :: t.late else t.late
  | _ => t.late

/-- One step. A step that fails with the deadline makes its session late. -/
def next [Driver δ] (body : κ → Program σ τ δ ι η ε α) (t : Timed σ τ δ ι η ε α κ)
    (e : Event δ ι κ) : Option (Timed σ τ δ ι η ε α κ) :=
  if t.permits deadline e then
    (t.sys.step body e).map fun s => { sys := s, late := t.lateAfter deadline e }
  else none

variable {deadline} [Driver δ] {body : κ → Program σ τ δ ι η ε α}
  {t t' : Timed σ τ δ ι η ε α κ} {e : Event δ ι κ}

lemma next_eq_some (h : t.next deadline body e = some t') :
    t.permits deadline e = true ∧ t.sys.step body e = some t'.sys ∧
      t'.late = t.lateAfter deadline e := by
  unfold next at h
  split_ifs at h with hp
  obtain ⟨s, hs, rfl⟩ := Option.map_eq_some_iff.mp h
  exact ⟨hp, hs, rfl⟩

/-- Every session is on its way to an end that `Q` allows, and every commit has come to one. -/
structure Heading (deadline : δ) (Q : κ → Bool → List η → α → Prop)
    (t : Timed σ τ δ ι η ε α κ) : Prop where
  known : ∀ i ∈ t.late, i < t.sys.sessions.length
  sessions : ∀ (i : ℕ) (x : Session σ τ δ ι η ε α κ) (p : Program σ τ δ ι η ε α),
    t.sys.sessions[i]? = some x → x.phase = .running p →
      p.Ends deadline (Q x.call) (fun _ _ _ => True) (decide (i ∈ t.late)) x.ctx.hooks
  history : ∀ r ∈ t.sys.history, ∃ late, Q r.call late r.hooks r.reply

end Timed

namespace Timed.Heading

variable [DecidableEq τ] [Driver δ] {deadline : δ} {body : κ → Program σ τ δ ι η ε α}
  {t t' : Timed σ τ δ ι η ε α κ} {Q : κ → Bool → List η → α → Prop}

omit [DecidableEq δ] [DecidableEq τ] [Driver δ] in
lemma start (s : Sys σ τ δ ι η ε α κ) (hs : s.sessions = []) (hh : s.history = []) :
    Heading deadline Q { sys := s } where
  known := nofun
  sessions i x p hx := by simp [hs] at hx
  history r hr := by simp [hh] at hr

omit [DecidableEq δ] [DecidableEq τ] [Driver δ] in
/-- A session moves on, or ends. -/
lemma put (h : Heading deadline Q t) {i : ℕ} {x y : Session σ τ δ ι η ε α κ} {late : List ℕ}
    (hi : t.sys.sessions[i]? = some x) (hlate : ∀ j, j ≠ i → (j ∈ late ↔ j ∈ t.late))
    (hy : ∀ p, y.phase = .running p →
      p.Ends deadline (Q y.call) (fun _ _ _ => True) (decide (i ∈ late)) y.ctx.hooks) :
    Heading deadline Q { sys := t.sys.put i y, late } where
  known j hj := by
    have hlt := (List.getElem?_eq_some_iff.mp hi).1
    simp only [Sys.put, List.length_set]
    by_cases hji : j = i
    · rw [hji]
      exact hlt
    · exact h.known j ((hlate j hji).mp hj)
  sessions j z p hz hp := by
    rcases Sys.getElem?_put hz with ⟨rfl, rfl⟩ | ⟨hji, hz⟩
    · exact hy p hp
    · have := h.sessions j z p hz hp
      rwa [decide_eq_decide.mpr (hlate j hji)]
  history := h.history

lemma next (hfailed : Driver.inFailedTransaction ≠ deadline)
    (hsaves : Driver.noSuchSavepoint ≠ deadline)
    (hbody : ∀ call, (body call).Ends deadline (Q call) (fun _ _ _ => True) false [])
    (h : Heading deadline Q t) {e : Event δ ι κ} (hs : t.next deadline body e = some t') :
    Heading deadline Q t' := by
  obtain ⟨hpermits, hstep, hlate⟩ := next_eq_some hs
  obtain ⟨s', late'⟩ := t'
  change late' = _ at hlate
  subst hlate
  cases Sys.step_cases hstep with
  | begin call =>
    refine ⟨fun i hi => ?_, fun i x p hx hp => ?_, h.history⟩
    · simp only [List.length_append]
      exact Nat.lt_add_right _ (h.known i hi)
    · change (t.sys.sessions ++ [_])[i]? = some x at hx
      rw [List.getElem?_append] at hx
      split at hx
      · exact h.sessions i x p hx hp
      · rename_i hlt
        have hfresh : decide (i ∈ t.late) = false :=
          decide_eq_false fun hi => hlt (h.known i hi)
        have hx := List.mem_singleton.mp (List.mem_of_getElem? hx)
        subst hx
        cases hp
        change Program.Ends _ _ _ (decide (i ∈ t.late)) _ _
        rw [hfresh]
        exact hbody call
  | tick n => exact ⟨h.known, h.sessions, h.history⟩
  | @step i x ss p c p' hi hp ha =>
    refine h.put hi (fun _ _ => Iff.rfl) fun q hq => ?_
    cases hq
    simp only [permits, Bool.and_eq_true, Bool.not_eq_true', Bool.and_eq_false_iff,
      decide_eq_true_eq] at hpermits
    refine (h.sessions i ss p hi hp).advance hfailed hsaves (fun hissue => ?_)
      (fun q k e hpq hq he => ?_) ha
    · refine hpermits.1.resolve_right ?_
      simp [Sys.issues, hi, hp, hissue]
    · obtain ⟨call, ctx, phase⟩ := ss
      refine hpermits.2 ?_
      simp only at hp
      subst hp hpq
      simp only [Sys.reports, hi]
      simp only at hq
      rw [hq, he]
  | @fault i e ss p c p' hi hp hf =>
    have hends := h.sessions i ss p hi hp
    have hcases : c = ss.ctx.fail e ∧ (e = deadline → p'.Ends deadline (Q ss.call)
        (fun _ _ _ => True) true ss.ctx.hooks) ∧ (e ≠ deadline → i ∉ t.late →
          p'.Ends deadline (Q ss.call) (fun _ _ _ => True) false ss.ctx.hooks) := by
      cases p with
      | query q k =>
        cases hf
        refine ⟨rfl, fun he => he ▸ hends.2, fun he hl => ?_⟩
        exact hends.1 (decide_eq_false hl) _ fun h => he (Except.error.inj h)
      | savepoint cmd k =>
        cases hf
        refine ⟨rfl, fun he => he ▸ hends.2, fun he hl => ?_⟩
        exact hends.1 (decide_eq_false hl) _ fun h => he (Except.error.inj h)
      | _ => cases hf
    obtain ⟨rfl, hdead, hother⟩ := hcases
    by_cases he : e = deadline
    · refine h.put hi (fun j hj => ?_) fun q hq => ?_
      · simp [lateAfter, he, hj]
      · cases hq
        have hmem : decide (i ∈ t.lateAfter deadline (.fault i e : Event δ ι κ)) = true := by
          simp [lateAfter, he]
        rw [hmem]
        exact hdead he
    · have hl : i ∉ t.late := by simpa [permits, he] using hpermits
      refine h.put hi (fun j hj => ?_) fun q hq => ?_
      · simp [lateAfter, he]
      · cases hq
        have hmem : decide (i ∈ t.lateAfter deadline (.fault i e : Event δ ι κ)) = false := by
          simp [lateAfter, he, hl]
        rw [hmem]
        exact hother he hl
  | crash hi hp => exact h.put hi (fun _ _ => Iff.rfl) (by rintro _ ⟨⟩)
  | rollback hi hp => exact h.put hi (fun _ _ => Iff.rfl) (by rintro _ ⟨⟩)
  | lose hi hp _ => exact h.put hi (fun _ _ => Iff.rfl) (by rintro _ ⟨⟩)
  | @commit i ss a hi hp ha =>
    have hput := h.put (y := Sys.close ss (.committed a)) hi (fun _ _ => Iff.rfl) (by rintro _ ⟨⟩)
    refine ⟨hput.known, hput.sessions, fun r hr => ?_⟩
    rcases List.mem_append.mp hr with hr | hr
    · exact h.history r hr
    · rw [List.mem_singleton.mp hr]
      exact ⟨_, h.sessions i ss _ hi hp⟩

end Timed.Heading

end Txn
