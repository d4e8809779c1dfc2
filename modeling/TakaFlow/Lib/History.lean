import TakaFlow.Lib.Soundness

/-!
# Histories

The history of a run and its sessions tell the same story: the commits are those of the sessions
that committed, one each, and every other session left no trace.
-/

namespace Txn

variable {σ τ δ ι η ε α κ : Type} [DecidableEq τ] [Driver δ]
  {body : κ → Program σ τ δ ι η ε α} {s s' s₀ : Sys σ τ δ ι η ε α κ}
  {ok : Sys σ τ δ ι η ε α κ → Event δ ι κ → Prop}

/-- The history records each committed session once, and nothing else. -/
structure Sys.Recorded (s : Sys σ τ δ ι η ε α κ) : Prop where
  sessions : ∀ r ∈ s.history, ∃ x, s.sessions[r.session]? = some x ∧ x.call = r.call ∧
    x.phase = .committed r.reply
  apart : (s.history.map Commit.session).Nodup
  committed : ∀ i x a, s.sessions[i]? = some x → x.phase = .committed a →
    ∃ r ∈ s.history, r.session = i

namespace Sys.Recorded

omit [DecidableEq τ] [Driver δ] in
/-- A step that neither commits a session nor touches a committed one. -/
lemma put (h : s.Recorded) {i : ℕ} {x y : Session σ τ δ ι η ε α κ}
    (hi : s.sessions[i]? = some x) (hx : ∀ a, x.phase ≠ .committed a)
    (hy : ∀ a, y.phase ≠ .committed a) : (s.put i y).Recorded where
  sessions r hr := by
    obtain ⟨z, hz, hc, hp⟩ := h.sessions r hr
    refine ⟨z, ?_, hc, hp⟩
    have hne : i ≠ r.session := by
      rintro rfl
      rw [hi] at hz
      cases hz
      exact hx _ hp
    simpa only [Sys.put, List.getElem?_set_ne hne] using hz
  apart := h.apart
  committed j z a hz hp := by
    rcases Sys.getElem?_put hz with ⟨-, rfl⟩ | ⟨-, hz⟩
    · exact absurd hp (hy a)
    · exact h.committed j z a hz hp

lemma step (h : s.Recorded) {e : Event δ ι κ} (hs : s.step body e = some s') : s'.Recorded := by
  cases Sys.step_cases hs with
  | begin call =>
    refine ⟨fun r hr => ?_, h.apart, fun i x a hx hp => ?_⟩
    · obtain ⟨z, hz, hc, hp⟩ := h.sessions r hr
      refine ⟨z, ?_, hc, hp⟩
      rw [List.getElem?_append_left (List.getElem?_eq_some_iff.mp hz).1]
      exact hz
    · rw [List.getElem?_append] at hx
      split at hx
      · exact h.committed i x a hx hp
      · have hm := List.mem_of_getElem? hx
        rw [List.mem_singleton] at hm
        rw [hm] at hp
        cases hp
  | tick n => exact ⟨h.sessions, h.apart, h.committed⟩
  | step hi hp _ => exact h.put hi (by simp [hp]) nofun
  | fault hi hp _ => exact h.put hi (by simp [hp]) nofun
  | crash hi hp => exact h.put hi (by simp [hp]) nofun
  | rollback hi hp => exact h.put hi (by simp [hp]) nofun
  | lose hi hp _ => exact h.put hi (by simp [hp]) nofun
  | @commit i ss a hi hp ha =>
    have hnew : ∀ r ∈ s.history, r.session ≠ i := by
      rintro r hr rfl
      obtain ⟨z, hz, -, hp'⟩ := h.sessions r hr
      rw [hi] at hz
      cases hz
      rw [hp] at hp'
      cases hp'
    have hlt := (List.getElem?_eq_some_iff.mp hi).1
    refine ⟨fun r hr => ?_, ?_, fun j z b hz hp' => ?_⟩
    · rcases List.mem_append.mp hr with hr | hr
      · obtain ⟨z, hz, hc, hp'⟩ := h.sessions r hr
        refine ⟨z, ?_, hc, hp'⟩
        simpa only [Sys.put, List.getElem?_set_ne (hnew r hr).symm] using hz
      · cases List.mem_singleton.mp hr
        exact ⟨Sys.close ss (.committed a), by simp [Sys.put, hlt], rfl, rfl⟩
    · rw [List.map_append, List.nodup_append]
      refine ⟨h.apart, List.pairwise_singleton _ _, ?_⟩
      rintro j hj k hk
      obtain ⟨r, hr, rfl⟩ := List.mem_map.mp hj
      rw [List.mem_singleton.mp hk]
      exact hnew r hr
    · rcases Sys.getElem?_put hz with ⟨rfl, -⟩ | ⟨-, hz⟩
      · exact ⟨_, List.mem_append_right _ (List.mem_singleton_self _), rfl⟩
      · obtain ⟨r, hr, hj⟩ := h.committed j z b hz hp'
        exact ⟨r, List.mem_append_left _ hr, hj⟩

end Sys.Recorded

/-- A condition on the steps that commit: on the call, the time it began, the committed state and
the one it leaves. -/
def Sys.AtCommit (p : κ → ℕ → σ → σ → Prop) (s : Sys σ τ δ ι η ε α κ) : Event δ ι κ → Prop
  | .finish i => ∀ x a, s.sessions[i]? = some x → x.phase = .running (.ret a) →
      x.ctx.aborted = false → p x.call x.ctx.now s.db (x.ctx.write s.db)
  | _ => True

/-- The condition, as a test. -/
def Sys.meetsAtCommit (p : κ → ℕ → σ → σ → Bool) (s : Sys σ τ δ ι η ε α κ) : Event δ ι κ → Bool
  | .finish i => (s.sessions[i]?).all fun x =>
      match x.phase with
      | .running (.ret _) => p x.call x.ctx.now s.db (x.ctx.write s.db)
      | _ => true
  | _ => true

omit [DecidableEq τ] [Driver δ] in
lemma Sys.atCommit_of_meets {p : κ → ℕ → σ → σ → Prop} {q : κ → ℕ → σ → σ → Bool}
    (hq : ∀ call now x y, q call now x y = true → p call now x y) {e : Event δ ι κ}
    (h : s.meetsAtCommit q e = true) : s.AtCommit p e := by
  cases e with
  | finish i =>
    intro x a hi hphase _
    have hall := (Option.all_eq_true _ _).mp h x hi
    rw [hphase] at hall
    exact hq _ _ _ _ hall
  | _ => trivial

namespace Reaches

lemma recorded {d₀ : σ} {t : ℕ} (h : Reaches body ok (Sys.start d₀ t) s) : s.Recorded := by
  induction h with
  | refl => exact ⟨fun _ hr => (nomatch hr), List.nodup_nil, fun _ _ _ hx => (nomatch hx)⟩
  | step _ _ hs ih => exact ih.step hs

/-- What every run's condition asks of the calls it begins holds of every session. -/
lemma calls {p : κ → Prop} (hok : ∀ s call, ok s (.begin call) → p call) {d₀ : σ} {t : ℕ}
    (h : Reaches body ok (Sys.start d₀ t) s) : ∀ x ∈ s.sessions, p x.call := by
  have hput : ∀ {s : Sys σ τ δ ι η ε α κ} {i : ℕ} {x y : Session σ τ δ ι η ε α κ},
      s.sessions[i]? = some x → y.call = x.call → (∀ x ∈ s.sessions, p x.call) →
      ∀ z ∈ (s.put i y).sessions, p z.call := by
    intro s i x y hi hc ih z hz
    rcases List.mem_or_eq_of_mem_set hz with hz | rfl
    · exact ih z hz
    · exact hc ▸ ih x (List.mem_of_getElem? hi)
  induction h with
  | refl => exact fun _ hx => (nomatch hx)
  | @step s s' e _ he hs ih =>
    cases Sys.step_cases hs with
    | begin call =>
      intro x hx
      rcases List.mem_append.mp hx with hx | hx
      · exact ih x hx
      · rw [List.mem_singleton.mp hx]
        exact hok _ _ he
    | tick n => exact ih
    | step hi _ _ => exact hput hi rfl ih
    | fault hi _ _ => exact hput hi rfl ih
    | crash hi _ => exact hput hi rfl ih
    | rollback hi _ => exact hput hi rfl ih
    | lose hi _ _ => exact hput hi rfl ih
    | commit hi _ _ => exact hput hi rfl ih

/-- What every run's condition asks of the steps that commit holds of the commits. -/
lemma atCommit {p : κ → ℕ → σ → σ → Prop} (hok : ∀ s e, ok s e → s.AtCommit p e) {d₀ : σ} {t : ℕ}
    (h : Reaches body ok (Sys.start d₀ t) s) :
    ∀ r ∈ s.history, p r.call r.now r.before r.after := by
  induction h with
  | refl => exact fun _ hr => (nomatch hr)
  | @step s s' e _ he hs ih =>
    have hp := hok _ _ he
    cases Sys.step_cases hs with
    | @commit i ss a hi hphase ha =>
      intro r hr
      rcases List.mem_append.mp hr with hr | hr
      · exact ih r hr
      · rw [List.mem_singleton.mp hr]
        exact hp ss a hi hphase ha
    | _ => exact ih

/-- A list of events leads to a reachable state. -/
lemma play {allowed : Sys σ τ δ ι η ε α κ → Event δ ι κ → Bool}
    (hok : ∀ s e, allowed s e = true → ok s e) (es : List (Event δ ι κ))
    (h : Reaches body ok s₀ s) : Reaches body ok s₀ (s.play body allowed es) := by
  induction es generalizing s with
  | nil => exact h
  | cons e es ih =>
    refine ih ?_
    split
    · cases hs : s.step body e with
      | none => exact h
      | some s' => exact h.step (hok s e ‹_›) hs
    · exact h

/-- A list of events that all meet the condition leads to a reachable state. -/
lemma playAll (es : List (Event δ ι κ)) (hok : ∀ e ∈ es, ∀ s, ok s e)
    (h : Reaches body ok s₀ s) : Reaches body ok s₀ (s.play body (fun _ _ => true) es) := by
  induction es generalizing s with
  | nil => exact h
  | cons e es ih =>
    refine ih (fun e' he' => hok e' (List.mem_cons_of_mem _ he')) ?_
    rw [if_pos rfl]
    cases hs : s.step body e with
    | none => exact h
    | some s' => exact h.step (hok e List.mem_cons_self s) hs

lemma mono {ok' : Sys σ τ δ ι η ε α κ → Event δ ι κ → Prop} (hok : ∀ s e, ok s e → ok' s e)
    (h : Reaches body ok s₀ s) : Reaches body ok' s₀ s := by
  induction h with
  | refl => exact .refl
  | step _ he hs ih => exact .step ih (hok _ _ he) hs

end Reaches

end Txn
