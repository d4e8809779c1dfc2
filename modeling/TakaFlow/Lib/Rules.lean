import TakaFlow.Lib.Wp

/-!
# Rules for the statement forms

A proof about a program follows one session. `Progress` is what the proof carries from statement
to statement: what the session has acquired and written since the piece of code began, and what it
knows of the committed state. The tokens held are what makes that knowledge survive.
-/

namespace Txn

variable {σ τ δ ι η ε ρ : Type} [Driver δ] {D : Discipline σ τ}

/-- A session that began a piece of code at `c₀`, knowing `P₀`, is at `c` over the committed state
`d`. Since then it acquired `l`, wrote `w` and registered `hs`, and it now knows `P`. -/
structure Progress (D : Discipline σ τ) (c₀ : Ctx σ τ η) (P₀ : σ → Prop) (c : Ctx σ τ η) (d : σ)
    (l : List τ) (w : σ → σ) (hs : List η) (P : σ → Prop) : Prop where
  now : c.now = c₀.now
  saves : c.saves = c₀.saves
  aborted : c.aborted = c₀.aborted
  hooks : c.hooks = c₀.hooks ++ hs
  tokens : c.tokens = l ++ c₀.tokens
  write : c.write = w ∘ c₀.write
  base : ∀ d, P d → P₀ d
  stable : D.Stable c.tokens P
  holds : P d

/-- An exception thrown from `c₀` on, at any state where `P₀` holds, is handled. -/
def Throws (R : ε → Ctx σ τ η → σ → Prop) (c₀ : Ctx σ τ η) (P₀ : σ → Prop) : Prop :=
  ∀ e c d, c.now = c₀.now → c.saves = c₀.saves → c₀.tokens ⊆ c.tokens → P₀ d → R e c d

lemma Throws.of_true (c₀ : Ctx σ τ η) (P₀ : σ → Prop) :
    Throws (fun (_ : ε) (_ : Ctx σ τ η) (_ : σ) => True) c₀ P₀ :=
  fun _ _ _ _ _ _ _ => trivial

/-- A handler that throws another exception. -/
lemma Throws.map {ε' : Type} (f : ε' → ε) {R : ε → Ctx σ τ η → σ → Prop} {c₀ : Ctx σ τ η}
    {P₀ : σ → Prop} (h : Throws R c₀ P₀) : Throws (fun e => R (f e)) c₀ P₀ :=
  fun e => h (f e)

/-- A token a statement may find taken: one that is free to wait for, unless it is held already. -/
def Waits (D : Discipline σ τ) (held : List τ) (l : τ) : Prop :=
  (l ∈ held ∧ D.excl l) ∨ D.mayWait held l

namespace Progress

variable {c₀ c : Ctx σ τ η} {P₀ P P' : σ → Prop} {d d' : σ} {l acq : List τ} {w w' : σ → σ}
  {hs : List η} {R : ε → Ctx σ τ η → σ → Prop}

lemma start (hP : D.Stable c.tokens P) (h : P d) : Progress D c P c d [] id [] P :=
  ⟨rfl, rfl, rfl, (List.append_nil _).symm, rfl, rfl, fun _ hp => hp, hP, h⟩

/-- The view of the session. -/
lemma view (h : Progress D c₀ P₀ c d l w hs P) (d' : σ) : c.write d' = w (c₀.write d') := by
  rw [h.write, Function.comp_apply]

lemma rely (h : Progress D c₀ P₀ c d l w hs P) (hr : D.rely c.tokens d d') :
    Progress D c₀ P₀ c d' l w hs P :=
  { h with holds := h.stable d d' hr h.holds }

lemma done (h : Progress D c₀ P₀ c d l w hs P) :
    Progress D c₀ P₀ (c.done w' acq) d (acq ++ l) (w' ∘ w) hs P where
  now := h.now
  saves := h.saves
  aborted := h.aborted
  hooks := h.hooks
  tokens := by rw [Ctx.done_tokens, h.tokens, List.append_assoc]
  write := by rw [Ctx.done_write, h.write]; rfl
  base := h.base
  stable := h.stable.anti (by simp)
  holds := h.holds

lemma read (h : Progress D c₀ P₀ c d l w hs P) :
    Progress D c₀ P₀ (c.done id acq) d (acq ++ l) w hs P := h.done

lemma hook (h : Progress D c₀ P₀ c d l w hs P) (x : η) :
    Progress D c₀ P₀ (c.hook x) d l w (hs ++ [x]) P :=
  { h with hooks := by simp [Ctx.hook, h.hooks] }

/-- Learn a fact. -/
lemma learn (h : Progress D c₀ P₀ c d l w hs P) (hP' : D.Stable (l ++ c₀.tokens) P') (hp : P' d) :
    Progress D c₀ P₀ c d l w hs fun d => P d ∧ P' d :=
  { h with
    base := fun d hp => h.base d hp.1
    stable := h.stable.and (h.tokens ▸ hP')
    holds := ⟨h.holds, hp⟩ }

/-- Learn a fact that needs the ones known to be stable. -/
lemma learn' (h : Progress D c₀ P₀ c d l w hs P)
    (hP' : ∀ d d', D.rely (l ++ c₀.tokens) d d' → P d → P d' → P' d → P' d') (hp : P' d) :
    Progress D c₀ P₀ c d l w hs fun d => P d ∧ P' d :=
  { h with
    base := fun d hp => h.base d hp.1
    stable := fun d d' hr hp => by
      have hp' := h.stable d d' hr hp.1
      exact ⟨hp', hP' d d' (h.tokens ▸ hr) hp.1 hp' hp.2⟩
    holds := ⟨h.holds, hp⟩ }

lemma throw (h : Progress D c₀ P₀ c d l w hs P) (hR : Throws R c₀ P₀) (e : ε) : R e c d :=
  hR e c d h.now h.saves (by rw [h.tokens]; exact List.subset_append_right l _)
    (h.base d h.holds)

lemma fail (h : Progress D c₀ P₀ c d l w hs P) (hR : Throws R c₀ P₀) (e : δ) (x : ε)
    (hr : D.rely c.tokens d d') : R x (c.fail e) d' :=
  hR x (c.fail e) d' h.now h.saves
    (by rw [Ctx.fail_tokens, h.tokens]; exact List.subset_append_right l _)
    (h.base d' (h.stable d d' hr h.holds))

/-- What a session commits to, in terms of what it wrote and knows. -/
lemma commits {α : Type} {post : α → List η → σ → σ → Prop} {a : α}
    (h : Progress D c₀ P₀ c d l w hs P) (ha : c₀.aborted = false)
    (hpost : ∀ d, P d → post a (c₀.hooks ++ hs) d (w (c₀.write d)) ∧
      D.mono d (w (c₀.write d))) : Commits D post a c d := by
  intro d' hr
  have hp := hpost d' (h.stable d d' hr h.holds)
  rw [← h.hooks, ← h.view] at hp
  exact ⟨h.aborted.trans ha, hp⟩

end Progress

section rules

variable {c₀ c : Ctx σ τ η} {P₀ P : σ → Prop} {d : σ} {l : List τ} {w : σ → σ}
  {hs : List η} {R : ε → Ctx σ τ η → σ → Prop} {raise : δ → ε}
  {Q : ρ → Ctx σ τ η → σ → Prop}

/-- The rule all others come from. -/
lemma wp_exec {s : Stmt σ τ δ ι ρ} (hR : Throws R c₀ P₀) (h : Progress D c₀ P₀ c d l w hs P)
    (hdone : ∀ d x taken, Progress D c₀ P₀ c d l w hs P →
      (∀ y ∈ l ++ c₀.tokens, D.excl y → taken y = false) →
      match s c₀.now x (w (c₀.write d)) taken with
      | .done r w' acq =>
        (∀ y ∈ acq, D.may c₀.now d y) → (∀ y ∈ acq, D.watched y → taken y = false) →
          (∀ y ∈ acq, D.lock y → taken y = false) ∧ D.Framed (acq ++ (l ++ c₀.tokens)) w' ∧
          Q r (c.done w' acq) d
      | .blocked y => D.mayWait (l ++ c₀.tokens) y
      | .failed _ => True) :
    wp D (Program.exec raise s : Program σ τ δ ι η ε ρ) Q R c d := by
  intro d' hr
  refine ⟨fun e => h.fail hR e _ hr, fun _ x taken ht => ?_⟩
  have hd := hdone d' x taken (h.rely hr) (h.tokens ▸ ht)
  rw [h.now, h.view, h.tokens]
  exact hd

/-- A read leaves the session where it was. -/
lemma wp_select {f : ℕ → σ → ρ} (hR : Throws R c₀ P₀) (h : Progress D c₀ P₀ c d l w hs P)
    (hk : ∀ d, Progress D c₀ P₀ c d l w hs P → Q (f c₀.now (w (c₀.write d))) c d) :
    wp D (Program.exec raise (Stmt.select f) : Program σ τ δ ι η ε ρ) Q R c d :=
  wp_exec hR h fun d x taken hp _ _ _ => ⟨by simp, Discipline.framed_id, hk d hp⟩

lemma wp_selectMarking {f : ℕ → σ → ρ} {m : τ} (hm : ¬ D.lock m)
    (hR : Throws R c₀ P₀) (h : Progress D c₀ P₀ c d l w hs P)
    (hk : ∀ c d, Progress D c₀ P₀ c d (m :: l) w hs P → D.may c₀.now d m →
      Q (f c₀.now (w (c₀.write d))) c d) :
    wp D (Program.exec raise (Stmt.selectMarking f m) : Program σ τ δ ι η ε ρ) Q R c d := by
  refine wp_exec hR h fun d x taken hp _ hmay _ =>
    ⟨?_, Discipline.framed_id, hk _ d hp.read (hmay m (by simp))⟩
  simpa using fun hl => absurd hl hm

variable {find : ℕ → σ → Option ρ} {lock : ρ → τ}

lemma wp_selectForUpdate {Q : Option ρ → Ctx σ τ η → σ → Prop}
    (hR : Throws R c₀ P₀) (h : Progress D c₀ P₀ c d l w hs P)
    (hwait : ∀ d r, P d → find c₀.now (w (c₀.write d)) = some r →
      Waits D (l ++ c₀.tokens) (lock r))
    (hnone : ∀ d, Progress D c₀ P₀ c d l w hs P → find c₀.now (w (c₀.write d)) = none →
      Q none c d)
    (hsome : ∀ c d r, Progress D c₀ P₀ c d (lock r :: l) w hs P →
      find c₀.now (w (c₀.write d)) = some r → Q (some r) c d) :
    wp D (Program.exec raise (Stmt.selectForUpdate find lock) : Program σ τ δ ι η ε (Option ρ))
      Q R c d := by
  refine wp_exec hR h fun d x taken hp ht => ?_
  unfold Stmt.selectForUpdate
  cases hf : find c₀.now (w (c₀.write d)) with
  | none => exact fun _ _ => ⟨by simp, Discipline.framed_id, hnone d hp hf⟩
  | some r =>
    cases hl : taken (lock r) with
    | false =>
      simp only [hl, Bool.false_eq_true, if_false]
      exact fun _ _ => ⟨by simp [hl], Discipline.framed_id, hsome _ d r hp.read hf⟩
    | true =>
      rcases hwait d r hp.holds hf with ⟨hm, he⟩ | hw
      · exact absurd (ht _ hm he) (by simp [hl])
      · simpa [hl] using hw

lemma wp_update {set : ℕ → ρ → σ → σ} {Q : Option ρ → Ctx σ τ η → σ → Prop}
    (hR : Throws R c₀ P₀) (h : Progress D c₀ P₀ c d l w hs P)
    (hwait : ∀ d r, P d → find c₀.now (w (c₀.write d)) = some r →
      Waits D (l ++ c₀.tokens) (lock r))
    (hframe : ∀ d r, P d → find c₀.now (w (c₀.write d)) = some r →
      D.Framed (lock r :: (l ++ c₀.tokens)) (set c₀.now r))
    (hnone : ∀ d, Progress D c₀ P₀ c d l w hs P → find c₀.now (w (c₀.write d)) = none →
      Q none c d)
    (hsome : ∀ c d r, Progress D c₀ P₀ c d (lock r :: l) (set c₀.now r ∘ w) hs P →
      find c₀.now (w (c₀.write d)) = some r → Q (some r) c d) :
    wp D (Program.exec raise (Stmt.update find lock set) : Program σ τ δ ι η ε (Option ρ))
      Q R c d := by
  refine wp_exec hR h fun d x taken hp ht => ?_
  unfold Stmt.update
  cases hf : find c₀.now (w (c₀.write d)) with
  | none => exact fun _ _ => ⟨by simp, Discipline.framed_id, hnone d hp hf⟩
  | some r =>
    cases hl : taken (lock r) with
    | false =>
      simp only [hl, Bool.false_eq_true, if_false]
      exact fun _ _ => ⟨by simp [hl], hframe d r hp.holds hf, hsome _ d r hp.done hf⟩
    | true =>
      rcases hwait d r hp.holds hf with ⟨hm, he⟩ | hw
      · exact absurd (ht _ hm he) (by simp [hl])
      · simpa [hl] using hw

variable {fresh : ι → List τ} {marks : List τ} {unused : ι → σ → Bool} {dup : δ}
  {set : ℕ → ι → σ → σ} {out : ℕ → ι → ρ}

lemma wp_insert (hmarks : ∀ m ∈ marks, ¬ D.lock m)
    (hR : Throws R c₀ P₀) (h : Progress D c₀ P₀ c d l w hs P)
    (hframe : ∀ x, D.Framed (fresh x ++ marks ++ (l ++ c₀.tokens)) (set c₀.now x))
    (hk : ∀ c d x, Progress D c₀ P₀ c d (fresh x ++ marks ++ l) (set c₀.now x ∘ w) hs P →
      unused x (w (c₀.write d)) = true → (∀ m ∈ marks, D.may c₀.now d m) →
      Q (out c₀.now x) c d) :
    wp D (Program.exec raise (Stmt.insert fresh marks unused dup set out) :
      Program σ τ δ ι η ε ρ) Q R c d := by
  refine wp_exec hR h fun d x taken hp _ => ?_
  unfold Stmt.insert
  cases hu : unused x (w (c₀.write d)) with
  | false => trivial
  | true =>
    cases ht : (fresh x).all fun y => !taken y with
    | false => simp
    | true =>
      simp only [Bool.and_true, if_true]
      intro hmay _
      refine ⟨fun y hy hlock => ?_, hframe x, hk _ d x hp.done hu
        fun m hm => hmay m (List.mem_append_right _ hm)⟩
      rcases List.mem_append.mp hy with hy | hy
      · simpa using List.all_eq_true.mp ht y hy
      · exact absurd hlock (hmarks y hy)

lemma wp_insertUnique {key : τ} {conflict : σ → Bool} {onConflict : Outcome σ τ δ ρ}
    (hR : Throws R c₀ P₀) (h : Progress D c₀ P₀ c d l w hs P)
    (hwait : D.mayWait (l ++ c₀.tokens) key)
    (hframe : ∀ x, D.Framed (fresh x ++ [key] ++ (l ++ c₀.tokens)) (set c₀.now x))
    (hconflict : (∃ e, onConflict = .failed e) ∨ ∃ r, onConflict = .done r id [] ∧
      ∀ d, Progress D c₀ P₀ c d l w hs P → conflict (w (c₀.write d)) = true → Q r c d)
    (hk : ∀ c d x, Progress D c₀ P₀ c d (fresh x ++ [key] ++ l) (set c₀.now x ∘ w) hs P →
      conflict (w (c₀.write d)) = false → unused x (w (c₀.write d)) = true →
      Q (out c₀.now x) c d) :
    wp D (Program.exec raise (Stmt.insertUnique key conflict onConflict fresh unused dup set out) :
      Program σ τ δ ι η ε ρ) Q R c d := by
  refine wp_exec hR h fun d x taken hp _ => ?_
  unfold Stmt.insertUnique Stmt.insert
  cases hx : conflict (w (c₀.write d)) with
  | true =>
    rcases hconflict with ⟨e, hc⟩ | ⟨r, hc, hq⟩
    · simp [hc]
    · simpa [hc] using ⟨Discipline.framed_id, hq d hp hx⟩
  | false =>
    cases hkey : taken key with
    | true => simpa using hwait
    | false =>
      cases hu : unused x (w (c₀.write d)) with
      | false => simp
      | true =>
        cases ht : (fresh x).all fun y => !taken y with
        | false => simp
        | true =>
          simp only [Bool.and_true, if_true, Bool.false_eq_true, if_false]
          refine fun _ _ => ⟨fun y hy _ => ?_, hframe x, hk _ d x hp.done hx hu⟩
          rcases List.mem_append.mp hy with hy | hy
          · simpa using List.all_eq_true.mp ht y hy
          · rw [List.mem_singleton.mp hy, hkey]

/-! ### Savepoints -/

/-- After a savepoint a new piece of code begins. -/
lemma wp_set {Q : Unit → Ctx σ τ η → σ → Prop} (hR : Throws R c₀ P₀)
    (h : Progress D c₀ P₀ c d l w hs P)
    (hk : ∀ d, Progress D c.save P c.save d [] id [] P → Q () c.save d) :
    wp D (Program.control raise .set : Program σ τ δ ι η ε Unit) Q R c d :=
  fun _ hr => ⟨fun e => h.fail hR e _ hr,
    fun _ => hk _ (.start h.stable (h.rely hr).holds)⟩

lemma wp_release {Q : Unit → Ctx σ τ η → σ → Prop} (hR : Throws R c₀ P₀)
    (h : Progress D c₀ P₀ c d l w hs P)
    (hk : ∀ d, Progress D c.release P c.release d [] id [] P → Q () c.release d) :
    wp D (Program.control raise .release : Program σ τ δ ι η ε Unit) Q R c d := by
  refine fun d' hr => ⟨fun e => h.fail hR e _ hr, ?_⟩
  cases hs : c.saves with
  | nil => trivial
  | cons sv rest => exact fun _ => hk d' (.start h.stable (h.rely hr).holds)

/-- What is known after a rollback is what the savepoint's own tokens protect. -/
lemma wp_rollback {Q : Unit → Ctx σ τ η → σ → Prop} {sv : (σ → σ) × List τ} {rest}
    (hs : c.saves = sv :: rest) (hsub : sv.2 ⊆ c.tokens) (hP : D.Stable sv.2 P) (hp : P d)
    (hR : ∀ (e : δ) x d, P d → R x (c.fail e) d)
    (hk : ∀ d, Progress D (c.restore sv) P (c.restore sv) d [] id [] P → Q () (c.restore sv) d) :
    wp D (Program.control raise .rollback : Program σ τ δ ι η ε Unit) Q R c d := by
  intro d' hr
  have hp' : P d' := hP d d' (Discipline.rely_anti hsub hr) hp
  refine ⟨fun e => hR e _ d' hp', ?_⟩
  simp only [hs]
  exact hk d' (.start hP hp')

/-- There is no savepoint to roll back to. -/
lemma wp_rollback_nil {Q : Unit → Ctx σ τ η → σ → Prop} (hs : c.saves = [])
    (hR : ∀ (e : δ) x d, R x (c.fail e) d) :
    wp D (Program.control raise .rollback : Program σ τ δ ι η ε Unit) Q R c d := by
  refine fun d' _ => ⟨fun e => hR e _ d', ?_⟩
  rw [hs]
  trivial

end rules

end Txn
