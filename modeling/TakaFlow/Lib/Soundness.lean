import TakaFlow.Lib.Wp

/-!
# Every commit of a run meets its specification

If each call's program satisfies its weakest precondition from every committed state, then in
every run the commits, taken in commit order, are steps of the relation `post`: the interleaved
system refines one in which each call that commits is a single indivisible step.
-/

namespace Txn

variable {σ τ δ ι η ε α κ : Type}

/-! ### The transition function, case by case -/

namespace Sys

variable {body : κ → Program σ τ δ ι η ε α} {s s' : Sys σ τ δ ι η ε α κ} [DecidableEq τ]

lemma takenByOthers_iff {i : ℕ} {l : τ} :
    s.takenByOthers i l = true ↔
      ∃ j x, j ≠ i ∧ s.sessions[j]? = some x ∧ l ∈ x.ctx.tokens := by
  simp only [takenByOthers, List.any_eq_true, List.mem_range, Bool.and_eq_true, decide_eq_true_eq,
    Option.any_eq_true]
  constructor
  · rintro ⟨j, -, hj, x, hx, hl⟩
    exact ⟨j, x, hj, hx, hl⟩
  · rintro ⟨j, x, hj, hx, hl⟩
    exact ⟨j, (List.getElem?_eq_some_iff.mp hx).1, hj, x, hx, hl⟩

omit [DecidableEq τ] in
lemma getElem?_put {i j : ℕ} {x y : Session σ τ δ ι η ε α κ}
    (h : (s.put i x).sessions[j]? = some y) :
    (j = i ∧ y = x) ∨ (j ≠ i ∧ s.sessions[j]? = some y) := by
  simp only [put, List.getElem?_set] at h
  split at h
  · split at h
    · cases h; exact .inl ⟨Eq.symm ‹_›, rfl⟩
    · cases h
  · exact .inr ⟨Ne.symm ‹_›, h⟩

variable [Driver δ]

/-- What a step of the system can be. -/
inductive StepCase (body : κ → Program σ τ δ ι η ε α) (s : Sys σ τ δ ι η ε α κ) :
    Event δ ι κ → Sys σ τ δ ι η ε α κ → Prop where
  | begin (call) : StepCase body s (.begin call)
      { s with sessions := s.sessions ++ [⟨call, .start s.clock, .running (body call)⟩] }
  | tick (n) : StepCase body s (.tick n) { s with clock := s.clock + n }
  | step {i x ss p c p'} (hi : s.sessions[i]? = some ss) (hp : ss.phase = .running p)
      (h : s.advance i x ss.ctx p = some (c, p')) :
      StepCase body s (.step i x) (s.put i { ss with ctx := c, phase := .running p' })
  | fault {i e ss p c p'} (hi : s.sessions[i]? = some ss) (hp : ss.phase = .running p)
      (h : faulted e ss.ctx p = some (c, p')) :
      StepCase body s (.fault i e) (s.put i { ss with ctx := c, phase := .running p' })
  | crash {i ss p} (hi : s.sessions[i]? = some ss) (hp : ss.phase = .running p) :
      StepCase body s (.crash i) (s.put i (close ss .crashed))
  | rollback {i ss e} (hi : s.sessions[i]? = some ss) (hp : ss.phase = .running (.throw e)) :
      StepCase body s (.finish i) (s.put i (close ss (.failed e)))
  | lose {i ss a} (hi : s.sessions[i]? = some ss) (hp : ss.phase = .running (.ret a))
      (ha : ss.ctx.aborted = true) :
      StepCase body s (.finish i) (s.put i (close ss (.lost a)))
  | commit {i ss a} (hi : s.sessions[i]? = some ss) (hp : ss.phase = .running (.ret a))
      (ha : ss.ctx.aborted = false) :
      StepCase body s (.finish i) { s.put i (close ss (.committed a)) with
        db := ss.ctx.write s.db
        history := s.history ++
          [⟨i, ss.call, ss.ctx.now, a, ss.ctx.hooks, s.db, ss.ctx.write s.db⟩] }

lemma step_cases {e : Event δ ι κ} (h : s.step body e = some s') : StepCase body s e s' := by
  cases e with
  | begin call => cases h; exact .begin call
  | tick n => cases h; exact .tick n
  | step i x =>
    simp only [step, Option.bind_eq_bind, Option.bind_eq_some_iff] at h
    obtain ⟨ss, hi, h⟩ := h
    split at h
    · obtain ⟨⟨c, p'⟩, ha, h⟩ := Option.bind_eq_some_iff.mp h
      cases h
      exact .step hi ‹_› ha
    · cases h
  | fault i e =>
    simp only [step, Option.bind_eq_bind, Option.bind_eq_some_iff] at h
    obtain ⟨ss, hi, h⟩ := h
    split at h
    · obtain ⟨⟨c, p'⟩, ha, h⟩ := Option.bind_eq_some_iff.mp h
      cases h
      exact .fault hi ‹_› ha
    · cases h
  | crash i =>
    simp only [step, Option.bind_eq_bind, Option.bind_eq_some_iff] at h
    obtain ⟨ss, hi, h⟩ := h
    split at h
    · cases h
      exact .crash hi ‹_›
    · cases h
  | finish i =>
    simp only [step, Option.bind_eq_bind, Option.bind_eq_some_iff] at h
    obtain ⟨ss, hi, h⟩ := h
    split at h
    · cases h
      exact .rollback hi ‹_›
    · cases ha : ss.ctx.aborted with
      | true =>
        rw [ha, if_pos rfl] at h
        cases h
        exact .lose hi ‹_› ha
      | false =>
        rw [ha, if_neg Bool.false_ne_true] at h
        cases h
        exact .commit hi ‹_› ha
    · cases h

/-- Only a commit changes the committed state, and every commit is recorded. -/
lemma db_of_step {e : Event δ ι κ} (h : s.step body e = some s') :
    (s'.db = s.db ∧ s'.history = s.history) ∨
      ∃ r, s'.history = s.history ++ [r] ∧ r.before = s.db ∧ r.after = s'.db := by
  cases step_cases h with
  | commit => exact .inr ⟨_, rfl, rfl, rfl⟩
  | _ => exact .inl ⟨rfl, rfl⟩

end Sys

/-! ### Commits in order -/

/-- The commits lead from one committed state to the other, each from where the last one left. -/
def Linked (d : σ) : List (Commit σ η α κ) → σ → Prop
  | [], d' => d = d'
  | r :: rs, d' => r.before = d ∧ Linked r.after rs d'

namespace Linked

variable {d d' d'' : σ} {rs rs' : List (Commit σ η α κ)}

lemma append (h : Linked d rs d') (h' : Linked d' rs' d'') : Linked d (rs ++ rs') d'' := by
  induction rs generalizing d with
  | nil => cases h; exact h'
  | cons r rs ih => exact ⟨h.1, ih h.2⟩

lemma split {d'' : σ} (h : Linked d (rs ++ rs') d'') :
    ∃ d', Linked d rs d' ∧ Linked d' rs' d'' := by
  induction rs generalizing d with
  | nil => exact ⟨d, rfl, h⟩
  | cons r rs ih =>
    obtain ⟨d', h₁, h₂⟩ := ih h.2
    exact ⟨d', ⟨h.1, h₁⟩, h₂⟩

/-- What holds after a commit and after each of the following ones holds before the next. -/
lemma next {I : σ → Prop} {r q : Commit σ η α κ} (h : Linked d (r :: (rs ++ q :: rs')) d')
    (hr : I r.after) (hrs : ∀ p ∈ rs, I p.after) : I q.before := by
  obtain ⟨-, h⟩ := h
  obtain ⟨e, h₁, h₂⟩ := h.split
  rw [h₂.1]
  clear h h₂
  induction rs generalizing r with
  | nil => cases h₁; exact hr
  | cons p rs ih =>
    exact ih (hrs p List.mem_cons_self) (fun p' hp' => hrs p' (List.mem_cons_of_mem _ hp')) h₁.2

/-- What every commit preserves holds at the end. -/
lemma invariant {I : σ → Prop} (h : Linked d rs d') (hd : I d)
    (hs : ∀ r ∈ rs, I r.before → I r.after) : I d' := by
  induction rs generalizing d with
  | nil => cases h; exact hd
  | cons r rs ih =>
    obtain ⟨rfl, h⟩ := h
    exact ih h (hs r (by simp) hd) fun r' hr' => hs r' (by simp [hr'])

/-- What a commit establishes and every commit preserves holds at the end. -/
lemma since {I : σ → Prop} {r : Commit σ η α κ} (h : Linked d rs d') (hr : r ∈ rs)
    (hI : I r.after) (hs : ∀ q ∈ rs, I q.before → I q.after) : I d' := by
  obtain ⟨rs₁, rs₂, rfl⟩ := List.append_of_mem hr
  obtain ⟨d₁, -, h₂⟩ := h.split
  obtain ⟨-, h₂⟩ := h₂
  exact h₂.invariant hI fun q hq => hs q (by simp [hq])

/-- What every commit preserves holds before and after each commit. -/
lemma invariant_mem {I : σ → Prop} (h : Linked d rs d') (hd : I d)
    (hs : ∀ r ∈ rs, I r.before → I r.after) : ∀ r ∈ rs, I r.before ∧ I r.after := by
  intro r hr
  obtain ⟨rs₁, rs₂, rfl⟩ := List.append_of_mem hr
  obtain ⟨d₁, h₁, h₂⟩ := h.split
  have hb : I r.before := by
    rw [h₂.1]
    exact h₁.invariant hd fun r' hr' => hs r' (by simp [hr'])
  exact ⟨hb, hs r hr hb⟩

/-- An induction over the commits made so far and the state they lead to. -/
lemma accumulate {I : List (Commit σ η α κ) → σ → Prop} (h : Linked d rs d') (hd : I [] d)
    (hs : ∀ done, ∀ r ∈ rs, I done r.before → I (done ++ [r]) r.after) : I rs d' := by
  have hloop : ∀ (rest done : List (Commit σ η α κ)) (d : σ), Linked d rest d' → I done d →
      (∀ r ∈ rest, r ∈ rs) → I (done ++ rest) d' := by
    intro rest
    induction rest with
    | nil =>
      intro done d h hd _
      cases h
      simpa using hd
    | cons r rest ih =>
      intro done d h hd hmem
      obtain ⟨rfl, h⟩ := h
      have hnext := hs done r (hmem r (by simp)) hd
      simpa using ih (done ++ [r]) r.after h hnext fun q hq => hmem q (by simp [hq])
  exact hloop rs [] d h hd fun _ h => h

end Linked

/-! ### The invariant of a run -/

variable {D : Discipline σ τ}

/-- What the context of a running session keeps: its writes and those of every savepoint stay
under the tokens held there, and older savepoints hold no more than newer ones. -/
structure Ctx.Sound (D : Discipline σ τ) (c : Ctx σ τ η) : Prop where
  framed : ∀ sv ∈ (c.write, c.tokens) :: c.saves, D.Framed sv.2 sv.1
  nested : ((c.write, c.tokens) :: c.saves).Pairwise fun newer older => older.2 ⊆ newer.2

namespace Ctx.Sound

variable {c : Ctx σ τ η}

lemma start (n : ℕ) : (Ctx.start n : Ctx σ τ η).Sound D :=
  ⟨by simpa using Discipline.framed_id, by simp⟩

lemma fail [Driver δ] (h : c.Sound D) (e : δ) : (c.fail e).Sound D := ⟨h.1, h.2⟩

lemma hook (h : c.Sound D) (x : η) : (c.hook x).Sound D := ⟨h.1, h.2⟩

lemma done (h : c.Sound D) {w : σ → σ} {l : List τ} (hw : D.Framed (l ++ c.tokens) w) :
    (c.done w l).Sound D := by
  obtain ⟨hf, hn⟩ := h
  rw [List.pairwise_cons] at hn
  simp only [List.mem_cons, forall_eq_or_imp] at hf
  refine ⟨?_, List.pairwise_cons.mpr ⟨fun sv hsv => ?_, hn.2⟩⟩
  · simp only [List.mem_cons, forall_eq_or_imp]
    exact ⟨(hf.1.anti (by simp)).comp hw, hf.2⟩
  · exact List.Subset.trans (hn.1 sv hsv) (by simp)

lemma save (h : c.Sound D) : c.save.Sound D := by
  obtain ⟨hf, hn⟩ := h
  refine ⟨?_, List.pairwise_cons.mpr ⟨?_, hn⟩⟩
  · simpa using hf
  · rw [List.pairwise_cons] at hn
    simpa using hn.1

lemma release (h : c.Sound D) : c.release.Sound D := by
  obtain ⟨hf, hn⟩ := h
  refine ⟨fun sv hsv => hf sv ?_, hn.sublist ?_⟩
  · rcases List.mem_cons.mp hsv with rfl | hm
    · simp
    · exact List.mem_cons_of_mem _ (List.mem_of_mem_tail hm)
  · exact (List.tail_sublist c.saves).cons_cons _

lemma restore {sv : (σ → σ) × List τ} {rest} (h : c.Sound D) (hs : c.saves = sv :: rest) :
    (c.restore sv).Sound D ∧ sv.2 ⊆ c.tokens := by
  obtain ⟨hf, hn⟩ := h
  rw [hs] at hf hn
  obtain ⟨h₁, h₂⟩ := List.pairwise_cons.mp hn
  refine ⟨⟨fun x hx => ?_, ?_⟩, h₁ sv (by simp)⟩
  · rw [restore_saves, hs] at hx
    rcases List.mem_cons.mp hx with rfl | hm
    · exact hf sv (by simp)
    · exact hf x (by simp [List.mem_cons.mp hm])
  · rw [restore_saves, hs, restore_write, restore_tokens]
    refine List.pairwise_cons.mpr ⟨fun x hx => ?_, h₂⟩
    rcases List.mem_cons.mp hx with rfl | hm
    · exact fun _ h => h
    · exact (List.pairwise_cons.mp h₂).1 x hm

end Ctx.Sound

/-- The runs a discipline speaks about: tokens are acquired as `may` says, and never a watched
one that another session carries. -/
def Sys.Admits [DecidableEq τ] (D : Discipline σ τ) (s : Sys σ τ δ ι η ε α κ) : Event δ ι κ → Prop
  | .step i x => ∀ ss, s.sessions[i]? = some ss → ∀ l ∈ s.acquires i x,
      D.may ss.ctx.now s.db l ∧ (D.watched l → s.takenByOthers i l = false)
  | _ => True

section run

variable {body : κ → Program σ τ δ ι η ε α} {post : κ → ℕ → α → List η → σ → σ → Prop}
  {s₀ s s' : Sys σ τ δ ι η ε α κ}

/-- The invariant of one session. -/
def Session.Inv [Driver δ] (D : Discipline σ τ) (post : κ → ℕ → α → List η → σ → σ → Prop) (db : σ)
    (clock : ℕ) (x : Session σ τ δ ι η ε α κ) : Prop :=
  x.ctx.now ≤ clock ∧
    match x.phase with
    | .running p => x.ctx.Sound D ∧
        wp D p (Commits D (post x.call x.ctx.now)) (fun _ _ _ => True) x.ctx db
    | .lost _ => False
    | _ => x.ctx.tokens = []

/-- The invariant of the system. -/
structure Sys.Inv [Driver δ] (D : Discipline σ τ) (post : κ → ℕ → α → List η → σ → σ → Prop)
    (d₀ : σ) (s : Sys σ τ δ ι η ε α κ) : Prop where
  sessions : ∀ (i : ℕ) (x : Session σ τ δ ι η ε α κ), s.sessions[i]? = some x →
    x.Inv D post s.db s.clock
  apart : ∀ (i j : ℕ) (x y : Session σ τ δ ι η ε α κ), s.sessions[i]? = some x →
    s.sessions[j]? = some y → i ≠ j → ∀ l ∈ x.ctx.tokens, D.excl l → l ∉ y.ctx.tokens
  commits : ∀ r ∈ s.history, post r.call r.now r.reply r.hooks r.before r.after ∧
    D.mono r.before r.after
  linked : Linked d₀ s.history s.db

variable [Driver δ]

lemma commits_rely (post' : α → List η → σ → σ → Prop) (a : α) (c : Ctx σ τ η) (d d' : σ)
    (hr : D.rely c.tokens d d') (h : Commits D post' a c d) : Commits D post' a c d' :=
  fun d'' hr' => h d'' (Discipline.rely_trans hr hr')

/-- A session's invariant survives the commit of another session. -/
lemma Session.Inv.of_rely {x : Session σ τ δ ι η ε α κ} {d d' : σ} {t t' : ℕ} (ht : t ≤ t')
    (hr : D.rely x.ctx.tokens d d') (h : x.Inv D post d t) : x.Inv D post d' t' := by
  obtain ⟨call, c, ph⟩ := x
  obtain ⟨hn, h⟩ := h
  refine ⟨Nat.le_trans hn ht, ?_⟩
  cases ph with
  | running p =>
    exact ⟨h.1, wp_rely (fun a c d d' hr h => commits_rely _ a c d d' hr h)
      (fun _ _ _ _ _ _ => trivial) hr h.2⟩
  | lost a => exact h
  | _ => exact h

/-- One action of a session, seen from its weakest precondition. -/
lemma wp_advance [DecidableEq τ] {Q : α → Ctx σ τ η → σ → Prop}
    {R : ε → Ctx σ τ η → σ → Prop} {i : ℕ} {x : ι} {c c' : Ctx σ τ η} {p p' : Program σ τ δ ι η ε α}
    (hclock : c.now ≤ s.clock) (hown : ∀ l ∈ c.tokens, D.excl l → s.takenByOthers i l = false)
    (hadm : ∀ ρ (q : Stmt σ τ δ ι ρ) k r w acq, p = .query q k → c.aborted = false →
      q c.now x (c.write s.db) (s.takenByOthers i) = .done r w acq →
      ∀ l ∈ acq, D.may c.now s.db l ∧ (D.watched l → s.takenByOthers i l = false))
    (hs : c.Sound D) (hwp : wp D p Q R c s.db) (h : s.advance i x c p = some (c', p')) :
    c'.Sound D ∧ wp D p' Q R c' s.db ∧ c'.now = c.now ∧
      ∀ l ∈ c'.tokens, D.excl l → s.takenByOthers i l = false := by
  cases p with
  | ret a => cases h
  | throw e => cases h
  | input k => cases h; exact ⟨hs, hwp _ _ hclock, rfl, hown⟩
  | afterCommit y k => cases h; exact ⟨hs.hook y, hwp, rfl, hown⟩
  | query q k =>
    obtain ⟨hf, hd⟩ := hwp s.db Discipline.rely_refl
    simp only [Sys.advance] at h
    cases ha : c.aborted with
    | true =>
      simp only [ha, if_true] at h
      cases h
      exact ⟨hs.fail _, hf _, rfl, hown⟩
    | false =>
      simp only [ha, Bool.false_eq_true, if_false] at h
      have hx := hd ha x (s.takenByOthers i) hown
      split at h <;> rename_i heq
      · cases h
        have hm := hadm _ q k _ _ _ rfl ha heq
        simp only [heq] at hx
        obtain ⟨hl, hfr, hk⟩ := hx (fun l hl => (hm l hl).1) (fun l hl => (hm l hl).2)
        refine ⟨hs.done hfr, hk, rfl, fun l hl' he => ?_⟩
        rcases List.mem_append.mp hl' with hl' | hl'
        · exact he.elim (hl l hl') (hm l hl').2
        · exact hown l hl' he
      · cases h
      · cases h
        exact ⟨hs.fail _, hf _, rfl, hown⟩
  | savepoint cmd k =>
    obtain ⟨hf, hk⟩ := hwp s.db Discipline.rely_refl
    have hfail : ∀ e, (c.fail e).Sound D ∧ wp D (k (.error e)) Q R (c.fail e) s.db ∧
        (c.fail e).now = c.now ∧
        ∀ l ∈ (c.fail e).tokens, D.excl l → s.takenByOthers i l = false :=
      fun e => ⟨hs.fail e, hf e, rfl, hown⟩
    simp only [Sys.advance] at h
    split at h <;> cases h
    · rename_i sv rest hsv
      simp only [hsv] at hk
      obtain ⟨hs', hsub⟩ := hs.restore hsv
      exact ⟨hs', hk, rfl, fun l hl => hown l (hsub hl)⟩
    · exact hfail _
    · exact hfail _
    · rename_i ha
      simp only at hk
      exact ⟨hs.save, hk ha, rfl, hown⟩
    · rename_i hsv ha
      simp only [hsv] at hk
      exact ⟨hs.release, hk ha, rfl, hown⟩
    · exact hfail _

/-- A session's tokens are its own. -/
lemma Sys.Inv.own [DecidableEq τ] {d₀ : σ} (h : s.Inv D post d₀) {i : ℕ}
    {x : Session σ τ δ ι η ε α κ} (hi : s.sessions[i]? = some x) :
    ∀ l ∈ x.ctx.tokens, D.excl l → s.takenByOthers i l = false := by
  intro l hl he
  rw [← Bool.not_eq_true, Sys.takenByOthers_iff]
  rintro ⟨j, y, hj, hy, hm⟩
  exact h.apart i j x y hi hy (Ne.symm hj) l hl he hm

/-- Replacing one session by a sound one that holds nothing the others hold. -/
lemma Sys.Inv.put [DecidableEq τ] {d₀ : σ} (h : s.Inv D post d₀) {i : ℕ}
    {x : Session σ τ δ ι η ε α κ} (hx : x.Inv D post s.db s.clock)
    (hown : ∀ l ∈ x.ctx.tokens, D.excl l → s.takenByOthers i l = false) :
    (s.put i x).Inv D post d₀ := by
  have hdis : ∀ (j : ℕ) (y : Session σ τ δ ι η ε α κ), j ≠ i → s.sessions[j]? = some y →
      ∀ l ∈ x.ctx.tokens, D.excl l → l ∉ y.ctx.tokens := by
    intro j y hj hy l hl he hm
    have := Sys.takenByOthers_iff.mpr ⟨j, y, hj, hy, hm⟩
    rw [hown l hl he] at this
    cases this
  refine ⟨fun j y hy => ?_, fun j k y z hy hz hjk => ?_, h.commits, h.linked⟩
  · rcases Sys.getElem?_put hy with ⟨-, rfl⟩ | ⟨-, hy⟩
    · exact hx
    · exact h.sessions j y hy
  · rcases Sys.getElem?_put hy with ⟨rfl, rfl⟩ | ⟨hj, hy'⟩ <;>
      rcases Sys.getElem?_put hz with ⟨rfl, rfl⟩ | ⟨hk, hz'⟩
    · exact absurd rfl hjk
    · exact hdis k z hk hz'
    · exact fun l hl he hm => hdis j y hj hy' l hm he hl
    · exact h.apart j k y z hy' hz' hjk

lemma Session.Inv.closed {x : Session σ τ δ ι η ε α κ} {d d' : σ} {t : ℕ} (h : x.Inv D post d t)
    {ph : Phase σ τ δ ι η ε α} (hph : ∀ p, ph ≠ .running p) (hlost : ∀ a, ph ≠ .lost a) :
    (Sys.close x ph).Inv D post d' t := by
  refine ⟨h.1, ?_⟩
  cases ph with
  | running p => exact absurd rfl (hph p)
  | lost a => exact absurd rfl (hlost a)
  | _ => rfl

/-- The step lemma. -/
lemma Sys.Inv.step [DecidableEq τ] {d₀ : σ}
    (hbody : ∀ call now, wp D (body call) (Commits D (post call now)) (fun _ _ _ => True)
      (.start now) s.db)
    (h : s.Inv D post d₀) {e : Event δ ι κ} (hadm : s.Admits D e)
    (hs : s.step body e = some s') : s'.Inv D post d₀ := by
  cases Sys.step_cases hs with
  | begin call =>
    have hnew : ∀ (j : ℕ) (y : Session σ τ δ ι η ε α κ),
        (s.sessions ++ [⟨call, .start s.clock, .running (body call)⟩])[j]? = some y →
        s.sessions[j]? = some y ∨ y = ⟨call, .start s.clock, .running (body call)⟩ := by
      intro j y hy
      rw [List.getElem?_append] at hy
      split at hy
      · exact .inl hy
      · have := List.mem_of_getElem? hy
        simp only [List.mem_singleton] at this
        exact .inr this
    refine ⟨fun j y hy => ?_, fun j k y z hy hz hjk => ?_, h.commits, h.linked⟩
    · rcases hnew j y hy with hy | rfl
      · exact h.sessions j y hy
      · exact ⟨Nat.le_refl _, .start _, hbody call s.clock⟩
    · rcases hnew j y hy with hy' | rfl
      · rcases hnew k z hz with hz' | rfl
        · exact h.apart j k y z hy' hz' hjk
        · exact fun l _ _ hm => nomatch hm
      · exact fun l hm => nomatch hm
  | tick n =>
    exact ⟨fun j y hy => (h.sessions j y hy).of_rely (Nat.le_add_right _ _) Discipline.rely_refl,
      h.apart, h.commits, h.linked⟩
  | @step i x ss p c p' hi hp ha =>
    have hinv := h.sessions i ss hi
    have hrun := hinv.2
    simp only [hp] at hrun
    have hacq : ∀ ρ (q : Stmt σ τ δ ι ρ) k r w acq, p = .query q k → ss.ctx.aborted = false →
        q ss.ctx.now x (ss.ctx.write s.db) (s.takenByOthers i) = .done r w acq →
        ∀ l ∈ acq, D.may ss.ctx.now s.db l ∧ (D.watched l → s.takenByOthers i l = false) := by
      intro ρ q k r w acq hpq hab hq l hl
      refine hadm ss hi l ?_
      obtain ⟨call, c', ph⟩ := ss
      simp only at hp hab hq
      subst hp hpq
      simp only [Sys.acquires, hi, hq, hab]
      simpa using hl
    obtain ⟨h₁, h₂, h₃, h₄⟩ := wp_advance hinv.1 (h.own hi) hacq hrun.1 hrun.2 ha
    refine h.put ⟨?_, ?_⟩ h₄
    · rw [h₃]; exact hinv.1
    · rw [h₃]; exact ⟨h₁, h₂⟩
  | @fault i e ss p c p' hi hp ha =>
    have hinv := h.sessions i ss hi
    have hrun := hinv.2
    simp only [hp] at hrun
    have hc : c = ss.ctx.fail e ∧ wp D p' (Commits D (post ss.call ss.ctx.now))
        (fun _ _ _ => True) (ss.ctx.fail e) s.db := by
      cases p with
      | query q k => cases ha; exact ⟨rfl, (hrun.2 s.db Discipline.rely_refl).1 e⟩
      | savepoint cmd k => cases ha; exact ⟨rfl, (hrun.2 s.db Discipline.rely_refl).1 e⟩
      | _ => cases ha
    obtain ⟨rfl, hwp⟩ := hc
    exact h.put ⟨hinv.1, hrun.1.fail e, hwp⟩ (fun l hl => h.own hi l hl)
  | crash hi hp => exact h.put ((h.sessions _ _ hi).closed nofun nofun) (fun l hl => nomatch hl)
  | rollback hi hp => exact h.put ((h.sessions _ _ hi).closed nofun nofun) (fun l hl => nomatch hl)
  | @lose i ss a hi hp ha =>
    -- A program that ends normally has noticed every failed statement.
    have hrun := (h.sessions i ss hi).2
    simp only [hp] at hrun
    obtain ⟨hna, -⟩ := hrun.2 s.db Discipline.rely_refl
    rw [ha] at hna
    cases hna
  | @commit i ss a hi hp ha =>
    have hinv := h.sessions i ss hi
    have hrun := hinv.2
    simp only [hp] at hrun
    obtain ⟨-, hpost, hmono⟩ := hrun.2 s.db Discipline.rely_refl
    have hframed := hrun.1.framed (ss.ctx.write, ss.ctx.tokens) (by simp)
    have hput := h.put (i := i) (x := Sys.close ss (.committed a))
      (hinv.closed nofun nofun) (fun l hl => nomatch hl)
    refine ⟨fun j y hy => ?_, hput.apart, ?_, ?_⟩
    · rcases Sys.getElem?_put hy with ⟨-, rfl⟩ | ⟨hj, hy⟩
      · exact hinv.closed nofun nofun
      · refine (h.sessions j y hy).of_rely (Nat.le_refl _) ⟨hmono, fun l hl he => ?_⟩
        exact hframed l he (h.apart j i y ss hy hi hj l hl he) s.db
    · intro r hr
      rcases List.mem_append.mp hr with hr | hr
      · exact h.commits r hr
      · cases List.mem_singleton.mp hr
        exact ⟨hpost, hmono⟩
    · exact h.linked.append ⟨rfl, rfl⟩

/-- Whatever later states keep holds throughout a run. -/
lemma Sys.Inv.keep {d₀ : σ} {I : σ → Prop} (hI : ∀ d d', D.mono d d' → I d → I d') (h₀ : I d₀)
    (h : s.Inv D post d₀) : I s.db :=
  h.linked.invariant h₀ fun r hr => hI _ _ (h.commits r hr).2

/-- The run theorem: commits are steps of `post`, one after the other. The programs may rely on
whatever holds at first and later states keep. -/
theorem Reaches.inv_of [DecidableEq τ] {ok : Sys σ τ δ ι η ε α κ → Event δ ι κ → Prop} {d₀ : σ}
    {t : ℕ} {I : σ → Prop} (hI : ∀ d d', D.mono d d' → I d → I d') (h₀ : I d₀)
    (hbody : ∀ call now d, I d → wp D (body call) (Commits D (post call now)) (fun _ _ _ => True)
      (.start now) d)
    (hok : ∀ s e, ok s e → Sys.Admits D s e)
    (h : Reaches body ok (Sys.start d₀ t) s) : s.Inv D post d₀ := by
  induction h with
  | refl =>
    exact ⟨fun _ _ hy => (nomatch hy), fun _ _ _ _ hy => (nomatch hy),
      fun _ hr => (nomatch hr), rfl⟩
  | step _ he hs ih =>
    exact ih.step (fun call now => hbody call now _ (ih.keep hI h₀)) (hok _ _ he) hs

theorem Reaches.inv [DecidableEq τ] {ok : Sys σ τ δ ι η ε α κ → Event δ ι κ → Prop} {d₀ : σ}
    {t : ℕ}
    (hbody : ∀ call now d, wp D (body call) (Commits D (post call now)) (fun _ _ _ => True)
      (.start now) d)
    (hok : ∀ s e, ok s e → Sys.Admits D s e)
    (h : Reaches body ok (Sys.start d₀ t) s) : s.Inv D post d₀ :=
  h.inv_of (I := fun _ => True) (fun _ _ _ _ => trivial) trivial
    (fun call now d _ => hbody call now d) hok

end run

end Txn
