import TakaFlow.Lib.Session

/-!
# Weakest preconditions under interference

`wp D p Q R c d` says: however other sessions interfere as the discipline `D` allows, a session
that runs `p` from transaction state `c` over committed state `d` acquires and waits for tokens as
`D` asks, and ends in `Q` where it returns and in `R` where it throws. The committed state moves
between any two statements; what stays is what the tokens held protect.
-/

namespace Txn

variable {σ τ δ ι η ε α β ρ : Type}

/-- What sessions promise each other. `lock` tokens are exclusive because statements check them,
`watched` tokens because the runs considered never let two sessions carry one; `may` is what
those runs promise of the committed state when a token is acquired. `agree l` relates two
committed states that do not differ in what `l` protects, `mono` two states of which the second
came later. `mayWait` bounds what a session holding some tokens may wait for. -/
structure Discipline (σ τ : Type) where
  lock : τ → Prop
  watched : τ → Prop
  may : ℕ → σ → τ → Prop
  agree : τ → σ → σ → Prop
  mono : σ → σ → Prop
  mayWait : List τ → τ → Prop
  agree_refl : ∀ l d, agree l d d
  agree_trans : ∀ l d₁ d₂ d₃, agree l d₁ d₂ → agree l d₂ d₃ → agree l d₁ d₃
  mono_refl : ∀ d, mono d d
  mono_trans : ∀ d₁ d₂ d₃, mono d₁ d₂ → mono d₂ d₃ → mono d₁ d₃

namespace Discipline

variable (D : Discipline σ τ)

/-- At most one session holds the token. -/
def excl (l : τ) : Prop := D.lock l ∨ D.watched l

/-- How the committed state may move under a session holding these tokens. -/
def rely (held : List τ) (d d' : σ) : Prop :=
  D.mono d d' ∧ ∀ l ∈ held, D.excl l → D.agree l d d'

/-- A fact about the committed state that no other session can undo. -/
def Stable (held : List τ) (P : σ → Prop) : Prop := ∀ d d', D.rely held d d' → P d → P d'

/-- Writes change only what these tokens protect. -/
def Framed (held : List τ) (w : σ → σ) : Prop := ∀ l, D.excl l → l ∉ held → ∀ d, D.agree l d (w d)

variable {D} {held held' : List τ} {d d' d'' : σ} {P P' : σ → Prop}

lemma rely_refl : D.rely held d d := ⟨D.mono_refl d, fun l _ _ => D.agree_refl l d⟩

lemma rely_trans (h : D.rely held d d') (h' : D.rely held d' d'') : D.rely held d d'' :=
  ⟨D.mono_trans _ _ _ h.1 h'.1, fun l hl he => D.agree_trans l _ _ _ (h.2 l hl he) (h'.2 l hl he)⟩

lemma rely_anti (hsub : held ⊆ held') (h : D.rely held' d d') : D.rely held d d' :=
  ⟨h.1, fun l hl he => h.2 l (hsub hl) he⟩

lemma Stable.anti (hsub : held ⊆ held') (h : D.Stable held P) : D.Stable held' P :=
  fun d d' hr => h d d' (rely_anti hsub hr)

lemma Stable.and (h : D.Stable held P) (h' : D.Stable held P') :
    D.Stable held fun d => P d ∧ P' d :=
  fun d d' hr hp => ⟨h d d' hr hp.1, h' d d' hr hp.2⟩

lemma Stable.const (p : Prop) : D.Stable held fun _ => p := fun _ _ _ hp => hp

lemma Stable.imp (p : Prop) (h : D.Stable held P) : D.Stable held fun d => p → P d :=
  fun d d' hr hp hx => h d d' hr (hp hx)

lemma framed_id : D.Framed held id := fun l _ _ d => D.agree_refl l d

lemma Framed.comp {w w' : σ → σ} (h : D.Framed held w) (h' : D.Framed held w') :
    D.Framed held (w' ∘ w) :=
  fun l he hl d => D.agree_trans l _ _ _ (h l he hl d) (h' l he hl (w d))

lemma Framed.anti {w : σ → σ} (hsub : held ⊆ held') (h : D.Framed held w) : D.Framed held' w :=
  fun l he hl d => h l he (fun hm => hl (hsub hm)) d

end Discipline

variable [Driver δ] (D : Discipline σ τ)

/-- The state a transaction commits to satisfies `post`, whenever the commit comes. -/
def Commits (post : α → List η → σ → σ → Prop) (a : α) (c : Ctx σ τ η) (d : σ) : Prop :=
  ∀ d', D.rely c.tokens d d' → c.aborted = false ∧ post a c.hooks d' (c.write d') ∧
    D.mono d' (c.write d')

variable {D} in
lemma Commits.imp {post post' : α → List η → σ → σ → Prop} {a : α} {c : Ctx σ τ η} {d : σ}
    (himp : ∀ hs d d', post a hs d d' → post' a hs d d') (h : Commits D post a c d) :
    Commits D post' a c d :=
  fun d' hr => (h d' hr).imp_right fun hp => hp.imp_left (himp _ _ _)

/-- Weakest precondition; see the module docstring. -/
def wp (p : Program σ τ δ ι η ε α) (Q : α → Ctx σ τ η → σ → Prop) (R : ε → Ctx σ τ η → σ → Prop)
    (c : Ctx σ τ η) (d : σ) : Prop :=
  match p with
  | .ret a => Q a c d
  | .throw e => R e c d
  | .input k => ∀ t x, c.now ≤ t → wp (k t x) Q R c d
  | .afterCommit h k => wp k Q R (c.hook h) d
  | .query s k => ∀ d', D.rely c.tokens d d' →
    (∀ e, wp (k (.error e)) Q R (c.fail e) d') ∧
    (c.aborted = false → ∀ x taken, (∀ l ∈ c.tokens, D.excl l → taken l = false) →
      match s c.now x (c.write d') taken with
      | .done r w acq =>
        (∀ l ∈ acq, D.may c.now d' l) → (∀ l ∈ acq, D.watched l → taken l = false) →
          (∀ l ∈ acq, D.lock l → taken l = false) ∧ D.Framed (acq ++ c.tokens) w ∧
          wp (k (.ok r)) Q R (c.done w acq) d'
      | .blocked l => D.mayWait c.tokens l
      | .failed _ => True)
  | .savepoint cmd k => ∀ d', D.rely c.tokens d d' →
    (∀ e, wp (k (.error e)) Q R (c.fail e) d') ∧
    match cmd, c.saves with
    | .set, _ => c.aborted = false → wp (k (.ok ())) Q R c.save d'
    | .release, _ :: _ => c.aborted = false → wp (k (.ok ())) Q R c.release d'
    | .rollback, sv :: _ => wp (k (.ok ())) Q R (c.restore sv) d'
    | _, [] => True

variable {D} {Q Q' : α → Ctx σ τ η → σ → Prop} {R R' : ε → Ctx σ τ η → σ → Prop}
  {c : Ctx σ τ η} {d d' : σ}

@[simp] lemma wp_ret (a : α) :
    wp D (.ret a : Program σ τ δ ι η ε α) Q R c d ↔ Q a c d := Iff.rfl

@[simp] lemma wp_throw (e : ε) :
    wp D (.throw e : Program σ τ δ ι η ε α) Q R c d ↔ R e c d := Iff.rfl

@[simp] lemma wp_input (k : ℕ → ι → Program σ τ δ ι η ε α) :
    wp D (.input k) Q R c d ↔ ∀ t x, c.now ≤ t → wp D (k t x) Q R c d := Iff.rfl

@[simp] lemma wp_afterCommit (h : η) (k : Program σ τ δ ι η ε α) :
    wp D (.afterCommit h k) Q R c d ↔ wp D k Q R (c.hook h) d := Iff.rfl

/-- Consequence. -/
lemma wp_mono {p : Program σ τ δ ι η ε α} (hQ : ∀ a c d, Q a c d → Q' a c d)
    (hR : ∀ e c d, R e c d → R' e c d) (h : wp D p Q R c d) : wp D p Q' R' c d := by
  induction p generalizing c d with
  | ret a => exact hQ _ _ _ h
  | throw e => exact hR _ _ _ h
  | input k ih => exact fun t x ht => ih t x (h t x ht)
  | afterCommit x k ih => exact ih h
  | query s k ih =>
    intro d' hr
    obtain ⟨hf, hd⟩ := h d' hr
    refine ⟨fun e => ih _ (hf e), fun ha x taken hl => ?_⟩
    have hx := hd ha x taken hl
    split <;> rename_i heq <;> rw [heq] at hx
    · intro hmay hw
      obtain ⟨h₁, h₂, h₃⟩ := hx hmay hw
      exact ⟨h₁, h₂, ih _ h₃⟩
    · exact hx
    · trivial
  | savepoint cmd k ih =>
    intro d' hr
    obtain ⟨hf, hs⟩ := h d' hr
    refine ⟨fun e => ih _ (hf e), ?_⟩
    revert hs
    cases cmd <;> cases c.saves
    · exact fun hs ha => ih _ (hs ha)
    · exact fun hs ha => ih _ (hs ha)
    · exact fun hs => hs
    · exact fun hs ha => ih _ (hs ha)
    · exact fun hs => hs
    · exact fun hs => ih _ hs

/-- Sequencing. -/
@[simp] lemma wp_bind {p : Program σ τ δ ι η ε β} {f : β → Program σ τ δ ι η ε α} :
    wp D (p.bind f) Q R c d ↔ wp D p (fun b c d => wp D (f b) Q R c d) R c d := by
  induction p generalizing c d with
  | ret b => exact Iff.rfl
  | throw e => exact Iff.rfl
  | input k ih => exact forall₂_congr fun t x => imp_congr_right fun _ => ih t x
  | afterCommit x k ih => exact ih
  | query s k ih => simp only [Program.bind, wp, ih]
  | savepoint cmd k ih => simp only [Program.bind, wp, ih]

/-- Handling. -/
@[simp] lemma wp_tryCatch {p : Program σ τ δ ι η ε α} {h : ε → Program σ τ δ ι η ε α} :
    wp D (p.tryCatch h) Q R c d ↔ wp D p Q (fun e c d => wp D (h e) Q R c d) c d := by
  induction p generalizing c d with
  | ret b => exact Iff.rfl
  | throw e => exact Iff.rfl
  | input k ih => exact forall₂_congr fun t x => imp_congr_right fun _ => ih t x
  | afterCommit x k ih => exact ih
  | query s k ih => simp only [Program.tryCatch, wp, ih]
  | savepoint cmd k ih => simp only [Program.tryCatch, wp, ih]

/-- A weakest precondition survives interference if its postconditions do. -/
lemma wp_rely {p : Program σ τ δ ι η ε α}
    (hQ : ∀ a c d d', D.rely c.tokens d d' → Q a c d → Q a c d')
    (hR : ∀ e c d d', D.rely c.tokens d d' → R e c d → R e c d')
    (hr : D.rely c.tokens d d') (h : wp D p Q R c d) : wp D p Q R c d' := by
  induction p generalizing c with
  | ret a => exact hQ _ _ _ _ hr h
  | throw e => exact hR _ _ _ _ hr h
  | input k ih => exact fun t x ht => ih t x hr (h t x ht)
  | afterCommit x k ih => exact ih hr h
  | query s k ih => exact fun d'' hr' => h d'' (Discipline.rely_trans hr hr')
  | savepoint cmd k ih => exact fun d'' hr' => h d'' (Discipline.rely_trans hr hr')

end Txn
