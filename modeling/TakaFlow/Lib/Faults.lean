import TakaFlow.Lib.Soundness

/-!
# Runs whose statements fail only for reasons of their own

A statement can report an error of its own, and in some runs any statement can be hit by a fault
from outside. `wpIf D faulty p Q R c d` covers both kinds of run: where `faulty` does not hold, a
program has to deal with the errors that its statements report, and with no others.
-/

namespace Txn

variable {σ τ δ ι η ε α β ρ κ : Type}

/-- What a savepoint command does, where the server accepts it. -/
def Ctx.control (c : Ctx σ τ η) : SavepointCmd → Option (Ctx σ τ η)
  | .rollback => c.saves.head?.map c.restore
  | .set => if c.aborted then none else some c.save
  | .release => if c.aborted ∨ c.saves = [] then none else some c.release

section wpIf

variable [Driver δ] (D : Discipline σ τ) (faulty : Prop)

/-- Weakest precondition; see the module docstring. Programs that read the clock again are not
told how it moves. -/
def wpIf (p : Program σ τ δ ι η ε α) (Q : α → Ctx σ τ η → σ → Prop)
    (R : ε → Ctx σ τ η → σ → Prop) (c : Ctx σ τ η) (d : σ) : Prop :=
  match p with
  | .ret a => Q a c d
  | .throw e => R e c d
  | .input k => ∀ t x, wpIf (k t x) Q R c d
  | .afterCommit h k => wpIf k Q R (c.hook h) d
  | .query s k => ∀ d', D.rely c.tokens d d' →
    (faulty ∨ c.aborted = true → ∀ e, wpIf (k (.error e)) Q R (c.fail e) d') ∧
    (c.aborted = false → ∀ x taken, (∀ l ∈ c.tokens, D.excl l → taken l = false) →
      match s c.now x (c.write d') taken with
      | .done r w acq =>
        (∀ l ∈ acq, D.excl l → taken l = false) ∧ D.Framed (acq ++ c.tokens) w ∧
          wpIf (k (.ok r)) Q R (c.done w acq) d'
      | .blocked _ => True
      | .failed e => wpIf (k (.error e)) Q R (c.fail e) d')
  | .savepoint cmd k => ∀ d', D.rely c.tokens d d' →
    (faulty ∨ c.control cmd = none → ∀ e, wpIf (k (.error e)) Q R (c.fail e) d') ∧
      ∀ c', c.control cmd = some c' → wpIf (k (.ok ())) Q R c' d'

variable {D faulty} {Q : α → Ctx σ τ η → σ → Prop} {R : ε → Ctx σ τ η → σ → Prop}
  {c : Ctx σ τ η} {d d' : σ}

@[simp] lemma wpIf_ret (a : α) :
    wpIf D faulty (.ret a : Program σ τ δ ι η ε α) Q R c d ↔ Q a c d := Iff.rfl

@[simp] lemma wpIf_throw (e : ε) :
    wpIf D faulty (.throw e : Program σ τ δ ι η ε α) Q R c d ↔ R e c d := Iff.rfl

/-- Consequence. -/
lemma wpIf_mono {p : Program σ τ δ ι η ε α} {Q' : α → Ctx σ τ η → σ → Prop}
    {R' : ε → Ctx σ τ η → σ → Prop} (hQ : ∀ a c d, Q a c d → Q' a c d)
    (hR : ∀ e c d, R e c d → R' e c d) (h : wpIf D faulty p Q R c d) :
    wpIf D faulty p Q' R' c d := by
  induction p generalizing c d with
  | ret a => exact hQ _ _ _ h
  | throw e => exact hR _ _ _ h
  | input k ih => exact fun t x => ih t x (h t x)
  | afterCommit x k ih => exact ih h
  | query s k ih =>
    intro d' hr
    obtain ⟨hfault, hdone⟩ := h d' hr
    refine ⟨fun hf e => ih _ (hfault hf e), fun ha x taken hl => ?_⟩
    have hx := hdone ha x taken hl
    split <;> rename_i heq <;> rw [heq] at hx
    · exact ⟨hx.1, hx.2.1, ih _ hx.2.2⟩
    · trivial
    · exact ih _ hx
  | savepoint cmd k ih =>
    intro d' hr
    obtain ⟨hfault, hk⟩ := h d' hr
    exact ⟨fun hf e => ih _ (hfault hf e), fun c' hc => ih _ (hk c' hc)⟩

/-- Sequencing. -/
@[simp] lemma wpIf_bind {p : Program σ τ δ ι η ε β} {f : β → Program σ τ δ ι η ε α} :
    wpIf D faulty (p.bind f) Q R c d ↔
      wpIf D faulty p (fun b c d => wpIf D faulty (f b) Q R c d) R c d := by
  induction p generalizing c d with
  | ret b => exact Iff.rfl
  | throw e => exact Iff.rfl
  | input k ih => exact forall₂_congr fun t x => ih t x
  | afterCommit x k ih => exact ih
  | query s k ih => simp only [Program.bind, wpIf, ih]
  | savepoint cmd k ih => simp only [Program.bind, wpIf, ih]

/-- Handling. -/
@[simp] lemma wpIf_tryCatch {p : Program σ τ δ ι η ε α} {h : ε → Program σ τ δ ι η ε α} :
    wpIf D faulty (p.tryCatch h) Q R c d ↔
      wpIf D faulty p Q (fun e c d => wpIf D faulty (h e) Q R c d) c d := by
  induction p generalizing c d with
  | ret b => exact Iff.rfl
  | throw e => exact Iff.rfl
  | input k ih => exact forall₂_congr fun t x => ih t x
  | afterCommit x k ih => exact ih
  | query s k ih => simp only [Program.tryCatch, wpIf, ih]
  | savepoint cmd k ih => simp only [Program.tryCatch, wpIf, ih]

/-- A loop over a list keeps what each of its turns keeps. -/
lemma wpIf_forM {l : List β} {f : β → Program σ τ δ ι η ε PUnit} {I : Ctx σ τ η → σ → Prop}
    (hf : ∀ b c d, I c d → wpIf D faulty (f b) (fun _ => I) R c d) (h : I c d) :
    wpIf D faulty (l.forM f) (fun _ => I) R c d := by
  induction l generalizing c d with
  | nil => exact h
  | cons b l ih =>
    change wpIf D faulty ((f b).bind fun _ => l.forM f) (fun _ => I) R c d
    rw [wpIf_bind]
    exact wpIf_mono (fun _ c d h => ih h) (fun _ _ _ h => h) (hf b c d h)

/-- One statement whose errors are raised. -/
lemma wpIf_exec {raise : δ → ε} {s : Stmt σ τ δ ι ρ} {Q : ρ → Ctx σ τ η → σ → Prop} :
    wpIf D faulty (Program.exec raise s) Q R c d ↔ ∀ d', D.rely c.tokens d d' →
      (faulty ∨ c.aborted = true → ∀ e, R (raise e) (c.fail e) d') ∧
      (c.aborted = false → ∀ x taken, (∀ l ∈ c.tokens, D.excl l → taken l = false) →
        match s c.now x (c.write d') taken with
        | .done r w acq =>
          (∀ l ∈ acq, D.excl l → taken l = false) ∧ D.Framed (acq ++ c.tokens) w ∧
            Q r (c.done w acq) d'
        | .blocked _ => True
        | .failed e => R (raise e) (c.fail e) d') := Iff.rfl

/-- One savepoint command. -/
lemma wpIf_control {raise : δ → ε} {cmd : SavepointCmd}
    {Q : Unit → Ctx σ τ η → σ → Prop} :
    wpIf D faulty (Program.control raise cmd : Program σ τ δ ι η ε Unit) Q R c d ↔
      ∀ d', D.rely c.tokens d d' →
        (faulty ∨ c.control cmd = none → ∀ e, R (raise e) (c.fail e) d') ∧
          ∀ c', c.control cmd = some c' → Q () c' d' := Iff.rfl

/-- A weakest precondition survives interference if its postconditions do. -/
lemma wpIf_rely {p : Program σ τ δ ι η ε α}
    (hQ : ∀ a c d d', D.rely c.tokens d d' → Q a c d → Q a c d')
    (hR : ∀ e c d d', D.rely c.tokens d d' → R e c d → R e c d')
    (hr : D.rely c.tokens d d') (h : wpIf D faulty p Q R c d) : wpIf D faulty p Q R c d' := by
  induction p generalizing c with
  | ret a => exact hQ _ _ _ _ hr h
  | throw e => exact hR _ _ _ _ hr h
  | input k ih => exact fun t x => ih t x hr (h t x)
  | afterCommit x k ih => exact ih hr h
  | query s k ih => exact fun d'' hr' => h d'' (Discipline.rely_trans hr hr')
  | savepoint cmd k ih => exact fun d'' hr' => h d'' (Discipline.rely_trans hr hr')

end wpIf

/-! ### The run theorem -/

variable {D : Discipline σ τ} {faulty : Prop} {body : κ → Program σ τ δ ι η ε α}
  {post : κ → ℕ → α → List η → σ → σ → Prop} {fails : κ → Prop}
  {s₀ s s' : Sys σ τ δ ι η ε α κ}

/-- Faults from outside come only where `faulty` holds. -/
def Event.Admitted (faulty : Prop) : Event δ ι κ → Prop
  | .fault _ _ => faulty
  | _ => True

def Event.isFault : Event δ ι κ → Bool
  | .fault _ _ => true
  | _ => false

lemma Event.admitted_of_not {e : Event δ ι κ} (h : (!e.isFault) = true) : e.Admitted faulty := by
  cases e with
  | fault i e => cases h
  | begin call => trivial
  | step i x => trivial
  | finish i => trivial
  | crash i => trivial
  | tick n => trivial

/-- The invariant of one session; only some calls can fail. -/
def Session.Meets [Driver δ] (D : Discipline σ τ) (faulty : Prop)
    (post : κ → ℕ → α → List η → σ → σ → Prop) (fails : κ → Prop) (db : σ)
    (x : Session σ τ δ ι η ε α κ) : Prop :=
  match x.phase with
  | .running p => x.ctx.Sound D ∧ wpIf D faulty p (Commits D (post x.call x.ctx.now))
      (fun _ _ _ => fails x.call) x.ctx db
  | .failed _ => fails x.call ∧ x.ctx.tokens = []
  | .lost _ => False
  | _ => x.ctx.tokens = []

/-- The invariant of the system. -/
structure Sys.Meets [Driver δ] (D : Discipline σ τ) (faulty : Prop)
    (post : κ → ℕ → α → List η → σ → σ → Prop) (fails : κ → Prop) (d₀ : σ)
    (s : Sys σ τ δ ι η ε α κ) : Prop where
  sessions : ∀ (i : ℕ) (x : Session σ τ δ ι η ε α κ), s.sessions[i]? = some x →
    x.Meets D faulty post fails s.db
  apart : ∀ (i j : ℕ) (x y : Session σ τ δ ι η ε α κ), s.sessions[i]? = some x →
    s.sessions[j]? = some y → i ≠ j → ∀ l ∈ x.ctx.tokens, D.excl l → l ∉ y.ctx.tokens
  commits : ∀ r ∈ s.history, post r.call r.now r.reply r.hooks r.before r.after ∧
    D.mono r.before r.after
  linked : Linked d₀ s.history s.db

variable [Driver δ]

lemma Session.Meets.of_rely {x : Session σ τ δ ι η ε α κ} {d d' : σ}
    (hr : D.rely x.ctx.tokens d d') (h : x.Meets D faulty post fails d) :
    x.Meets D faulty post fails d' := by
  obtain ⟨call, c, phase⟩ := x
  cases phase with
  | running p =>
    refine ⟨h.1, wpIf_rely (fun a c d d' hr h => ?_) (fun _ _ _ _ _ h => h) hr h.2⟩
    exact commits_rely _ a c d d' hr h
  | failed e => exact h
  | lost a => exact h
  | committed a => exact h
  | crashed => exact h

/-- What the server makes of a savepoint command. -/
lemma Sys.advance_savepoint [DecidableEq τ] {i : ℕ} {x : ι} {c c' : Ctx σ τ η} {cmd : SavepointCmd}
    {k : Except δ Unit → Program σ τ δ ι η ε α} {p' : Program σ τ δ ι η ε α}
    (h : s.advance i x c (.savepoint cmd k) = some (c', p')) :
    (c.control cmd = some c' ∧ p' = k (.ok ())) ∨
      (c.control cmd = none ∧ ∃ e, c' = c.fail e ∧ p' = k (.error e)) := by
  simp only [Sys.advance] at h
  unfold Ctx.control
  cases cmd with
  | rollback =>
    cases hsaves : c.saves with
    | nil =>
      rw [hsaves] at h
      cases h
      exact .inr ⟨rfl, _, rfl, rfl⟩
    | cons sv rest =>
      rw [hsaves] at h
      cases h
      exact .inl ⟨rfl, rfl⟩
  | set =>
    cases haborted : c.aborted with
    | true =>
      rw [haborted] at h
      cases h
      exact .inr ⟨rfl, _, rfl, rfl⟩
    | false =>
      rw [haborted] at h
      cases h
      exact .inl ⟨rfl, rfl⟩
  | release =>
    cases haborted : c.aborted with
    | true =>
      rw [haborted] at h
      cases h
      exact .inr ⟨if_pos (.inl rfl), _, rfl, rfl⟩
    | false =>
      rw [haborted] at h
      cases hsaves : c.saves with
      | nil =>
        rw [hsaves] at h
        cases h
        exact .inr ⟨if_pos (.inr rfl), _, rfl, rfl⟩
      | cons sv rest =>
        rw [hsaves] at h
        cases h
        exact .inl ⟨if_neg (by simp), rfl⟩

/-- A savepoint command keeps a context sound and acquires nothing. -/
lemma Ctx.Sound.control {c c' : Ctx σ τ η} {cmd : SavepointCmd} (h : c.Sound D)
    (hc : c.control cmd = some c') : c'.Sound D ∧ c'.tokens ⊆ c.tokens ∧ c'.now = c.now := by
  cases cmd with
  | rollback =>
    obtain ⟨sv, hsv, rfl⟩ := Option.map_eq_some_iff.mp hc
    obtain ⟨rest, hrest⟩ := List.head?_eq_some_iff.mp hsv
    obtain ⟨hsound, hsub⟩ := h.restore hrest
    exact ⟨hsound, hsub, rfl⟩
  | set =>
    simp only [Ctx.control, Option.ite_none_left_eq_some] at hc
    obtain ⟨-, hc⟩ := hc
    cases hc
    exact ⟨h.save, List.Subset.refl _, rfl⟩
  | release =>
    simp only [Ctx.control, Option.ite_none_left_eq_some] at hc
    obtain ⟨-, hc⟩ := hc
    cases hc
    exact ⟨h.release, List.Subset.refl _, rfl⟩

/-- One action of a session, seen from its weakest precondition. -/
lemma wpIf_advance [DecidableEq τ] {Q : α → Ctx σ τ η → σ → Prop} {R : ε → Ctx σ τ η → σ → Prop}
    {i : ℕ} {x : ι} {c c' : Ctx σ τ η} {p p' : Program σ τ δ ι η ε α}
    (hown : ∀ l ∈ c.tokens, D.excl l → s.takenByOthers i l = false) (hs : c.Sound D)
    (hwp : wpIf D faulty p Q R c s.db) (h : s.advance i x c p = some (c', p')) :
    c'.Sound D ∧ wpIf D faulty p' Q R c' s.db ∧ c'.now = c.now ∧
      ∀ l ∈ c'.tokens, D.excl l → s.takenByOthers i l = false := by
  cases p with
  | ret a => cases h
  | throw e => cases h
  | input k =>
    cases h
    exact ⟨hs, hwp _ _, rfl, hown⟩
  | afterCommit y k =>
    cases h
    exact ⟨hs.hook y, hwp, rfl, hown⟩
  | query q k =>
    obtain ⟨hfault, hdone⟩ := hwp s.db Discipline.rely_refl
    simp only [Sys.advance] at h
    cases haborted : c.aborted with
    | true =>
      rw [haborted, if_pos rfl] at h
      cases h
      exact ⟨hs.fail _, hfault (.inr haborted) _, rfl, hown⟩
    | false =>
      rw [haborted, if_neg Bool.false_ne_true] at h
      have hx := hdone haborted x (s.takenByOthers i) hown
      split at h <;> rename_i heq
      · cases h
        rw [heq] at hx
        obtain ⟨hfree, hframed, hk⟩ := hx
        refine ⟨hs.done hframed, hk, rfl, fun l hl he => ?_⟩
        obtain hl | hl := List.mem_append.mp hl
        · exact hfree l hl he
        · exact hown l hl he
      · cases h
      · cases h
        rw [heq] at hx
        exact ⟨hs.fail _, hx, rfl, hown⟩
  | savepoint cmd k =>
    obtain ⟨hfault, hk⟩ := hwp s.db Discipline.rely_refl
    obtain ⟨hc, rfl⟩ | ⟨hc, e, rfl, rfl⟩ := Sys.advance_savepoint h
    · obtain ⟨hsound, hsub, hnow⟩ := hs.control hc
      exact ⟨hsound, hk _ hc, hnow, fun l hl => hown l (hsub hl)⟩
    · exact ⟨hs.fail _, hfault (.inr hc) e, rfl, hown⟩

namespace Sys.Meets

variable {d₀ : σ}

/-- A session's tokens are its own. -/
lemma own [DecidableEq τ] (h : s.Meets D faulty post fails d₀) {i : ℕ}
    {x : Session σ τ δ ι η ε α κ} (hi : s.sessions[i]? = some x) :
    ∀ l ∈ x.ctx.tokens, D.excl l → s.takenByOthers i l = false := by
  intro l hl he
  rw [← Bool.not_eq_true, Sys.takenByOthers_iff]
  rintro ⟨j, y, hj, hy, hm⟩
  exact h.apart i j x y hi hy (Ne.symm hj) l hl he hm

/-- Replacing one session by a sound one that holds nothing the others hold. -/
lemma put [DecidableEq τ] (h : s.Meets D faulty post fails d₀) {i : ℕ}
    {x : Session σ τ δ ι η ε α κ} (hx : x.Meets D faulty post fails s.db)
    (hown : ∀ l ∈ x.ctx.tokens, D.excl l → s.takenByOthers i l = false) :
    (s.put i x).Meets D faulty post fails d₀ := by
  have hdis : ∀ (j : ℕ) (y : Session σ τ δ ι η ε α κ), j ≠ i → s.sessions[j]? = some y →
      ∀ l ∈ x.ctx.tokens, D.excl l → l ∉ y.ctx.tokens := by
    intro j y hj hy l hl he hm
    have htaken := Sys.takenByOthers_iff.mpr ⟨j, y, hj, hy, hm⟩
    rw [hown l hl he] at htaken
    cases htaken
  refine ⟨fun j y hy => ?_, fun j k y z hy hz hjk => ?_, h.commits, h.linked⟩
  · obtain ⟨-, rfl⟩ | ⟨-, hy⟩ := Sys.getElem?_put hy
    · exact hx
    · exact h.sessions j y hy
  · obtain ⟨rfl, rfl⟩ | ⟨hj, hy'⟩ := Sys.getElem?_put hy
    · obtain ⟨rfl, rfl⟩ | ⟨hk, hz'⟩ := Sys.getElem?_put hz
      · exact absurd rfl hjk
      · exact hdis k z hk hz'
    · obtain ⟨rfl, rfl⟩ | ⟨hk, hz'⟩ := Sys.getElem?_put hz
      · exact fun l hl he hm => hdis j y hj hy' l hm he hl
      · exact h.apart j k y z hy' hz' hjk

/-- A session ends without a trace. -/
lemma close [DecidableEq τ] (h : s.Meets D faulty post fails d₀) {i : ℕ}
    {x : Session σ τ δ ι η ε α κ} {p : Phase σ τ δ ι η ε α}
    (hp : (Sys.close x p).Meets D faulty post fails s.db) :
    (s.put i (Sys.close x p)).Meets D faulty post fails d₀ :=
  h.put hp fun _ hl => absurd hl List.not_mem_nil

/-- The step lemma. -/
lemma step [DecidableEq τ] (h : s.Meets D faulty post fails d₀)
    (hbody : ∀ call now, wpIf D faulty (body call) (Commits D (post call now))
      (fun _ _ _ => fails call) (.start now) s.db)
    {e : Event δ ι κ} (hok : e.Admitted faulty) (hs : s.step body e = some s') :
    s'.Meets D faulty post fails d₀ := by
  cases Sys.step_cases hs with
  | begin call =>
    have hnew : ∀ (j : ℕ) (y : Session σ τ δ ι η ε α κ),
        (s.sessions ++ [⟨call, .start s.clock, .running (body call)⟩])[j]? = some y →
        s.sessions[j]? = some y ∨ y = ⟨call, .start s.clock, .running (body call)⟩ := by
      intro j y hy
      rw [List.getElem?_append] at hy
      split at hy
      · exact .inl hy
      · exact .inr (List.mem_singleton.mp (List.mem_of_getElem? hy))
    refine ⟨fun j y hy => ?_, fun j k y z hy hz hjk => ?_, h.commits, h.linked⟩
    · obtain hy | rfl := hnew j y hy
      · exact h.sessions j y hy
      · exact ⟨.start _, hbody call s.clock⟩
    · obtain hy | rfl := hnew j y hy
      · obtain hz | rfl := hnew k z hz
        · exact h.apart j k y z hy hz hjk
        · exact fun l _ _ hm => absurd hm List.not_mem_nil
      · exact fun l hm => absurd hm List.not_mem_nil
  | tick n => exact ⟨h.sessions, h.apart, h.commits, h.linked⟩
  | @step i x ss p c p' hi hp ha =>
    have hrun := h.sessions i ss hi
    unfold Session.Meets at hrun
    rw [hp] at hrun
    obtain ⟨hsound, hwp, hnow, hown⟩ := wpIf_advance (h.own hi) hrun.1 hrun.2 ha
    refine h.put ⟨hsound, ?_⟩ hown
    rw [hnow]
    exact hwp
  | @fault i e ss p c p' hi hp ha =>
    have hrun := h.sessions i ss hi
    unfold Session.Meets at hrun
    rw [hp] at hrun
    have hwp : c = ss.ctx.fail e ∧ wpIf D faulty p' (Commits D (post ss.call ss.ctx.now))
        (fun _ _ _ => fails ss.call) (ss.ctx.fail e) s.db := by
      cases p with
      | query q k =>
        cases ha
        exact ⟨rfl, (hrun.2 s.db Discipline.rely_refl).1 (.inl hok) e⟩
      | savepoint cmd k =>
        cases ha
        exact ⟨rfl, (hrun.2 s.db Discipline.rely_refl).1 (.inl hok) e⟩
      | ret a => cases ha
      | throw e => cases ha
      | input k => cases ha
      | afterCommit y k => cases ha
    obtain ⟨rfl, hwp⟩ := hwp
    exact h.put ⟨hrun.1.fail e, hwp⟩ fun l hl => h.own hi l hl
  | crash hi hp => exact h.close rfl
  | @rollback i ss e hi hp =>
    have hrun := h.sessions i ss hi
    unfold Session.Meets at hrun
    rw [hp] at hrun
    exact h.close ⟨hrun.2, rfl⟩
  | @lose i ss a hi hp ha =>
    -- A program that ends normally has noticed every failed statement.
    have hrun := h.sessions i ss hi
    unfold Session.Meets at hrun
    rw [hp] at hrun
    obtain ⟨hnot, -⟩ := hrun.2 s.db Discipline.rely_refl
    rw [ha] at hnot
    cases hnot
  | @commit i ss a hi hp ha =>
    have hrun := h.sessions i ss hi
    unfold Session.Meets at hrun
    rw [hp] at hrun
    obtain ⟨-, hpost, hmono⟩ := hrun.2 s.db Discipline.rely_refl
    have hframed := hrun.1.framed (ss.ctx.write, ss.ctx.tokens) List.mem_cons_self
    have hput := h.close (i := i) (x := ss) (p := .committed a) rfl
    refine ⟨fun j y hy => ?_, hput.apart, ?_, ?_⟩
    · obtain ⟨-, rfl⟩ | ⟨hj, hy⟩ := Sys.getElem?_put hy
      · rfl
      · refine (h.sessions j y hy).of_rely ⟨hmono, fun l hl he => ?_⟩
        exact hframed l he (h.apart j i y ss hy hi hj l hl he) s.db
    · intro r hr
      obtain hr | hr := List.mem_append.mp hr
      · exact h.commits r hr
      · rw [List.mem_singleton.mp hr]
        exact ⟨hpost, hmono⟩
    · exact h.linked.append ⟨rfl, rfl⟩

end Sys.Meets

/-- The run theorem: commits are steps of `post`, one after the other, and only the calls that
can fail do. -/
theorem Reaches.meets [DecidableEq τ] {ok : Sys σ τ δ ι η ε α κ → Event δ ι κ → Prop} {d₀ : σ}
    {t : ℕ}
    (hbody : ∀ call now d, wpIf D faulty (body call) (Commits D (post call now))
      (fun _ _ _ => fails call) (.start now) d)
    (hok : ∀ s e, ok s e → e.Admitted faulty) (h : Reaches body ok (Sys.start d₀ t) s) :
    s.Meets D faulty post fails d₀ := by
  induction h with
  | refl =>
    constructor
    · intro i x hi
      cases hi
    · intro i j x y hi
      cases hi
    · intro r hr
      cases hr
    · rfl
  | step _ he hs ih => exact ih.step (fun call now => hbody call now _) (hok _ _ he) hs

end Txn
