import Mathlib.Data.List.Pairwise
import TakaFlow.Lib.History

/-!
# Several reads as one

At READ COMMITTED every statement sees a state of its own. A program that only reads returns what
it would have returned on one committed state if no commit changes the state between its first
statement and its last.
-/

namespace Txn

variable {σ τ δ ι η ε α κ : Type}

namespace Program

/-- A program of reads that leave a mark. It gives up at the first error. -/
inductive Reads (mark : τ) : Program σ τ δ ι η ε α → Prop where
  | ret (a : α) : Reads mark (.ret a)
  | throw (e : ε) : Reads mark (.throw e)
  | query {ρ : Type} {f : ℕ → σ → ρ} {k : Except δ ρ → Program σ τ δ ι η ε α}
      (ok : ∀ r, Reads mark (k (.ok r))) (error : ∀ e, ∃ x, k (.error e) = .throw x) :
      Reads mark (.query (Stmt.selectMarking f mark) k)

lemma Reads.exec {ρ : Type} {mark : τ} {raise : δ → ε} {f : ℕ → σ → ρ} :
    (exec raise (Stmt.selectMarking f mark) : Program σ τ δ ι η ε ρ).Reads mark :=
  .query (fun r => .ret r) fun e => ⟨raise e, rfl⟩

lemma Reads.bind {β : Type} {mark : τ} {p : Program σ τ δ ι η ε α}
    {q : α → Program σ τ δ ι η ε β} (hp : p.Reads mark) (hq : ∀ a, (q a).Reads mark) :
    (p.bind q).Reads mark := by
  induction hp with
  | ret a => exact hq a
  | throw e => exact .throw e
  | query ok error ih =>
    refine .query ih fun e => ?_
    obtain ⟨x, hx⟩ := error e
    exact ⟨x, by rw [hx]; rfl⟩

/-- The result of a program all of whose statements see the same state. -/
def evalAt (now : ℕ) (x : ι) (d : σ) : Program σ τ δ ι η ε α → Option α
  | .ret a => some a
  | .throw _ => none
  | .input _ => none
  | .query s k =>
    match s now x d fun _ => false with
    | .done r _ _ => (k (.ok r)).evalAt now x d
    | _ => none
  | .savepoint _ _ => none
  | .afterCommit _ _ => none

/-- What a program of reads returns or throws, alone on a state and with its clock at `now`. -/
def outcomeAt (now : ℕ) (x : ι) (d : σ) : Program σ τ δ ι η ε α → Option (Except ε α)
  | .ret a => some (.ok a)
  | .throw e => some (.error e)
  | .input k => (k now x).outcomeAt now x d
  | .query s k =>
    match s now x d fun _ => false with
    | .done r _ _ => (k (.ok r)).outcomeAt now x d
    | .failed e => (k (.error e)).outcomeAt now x d
    | .blocked _ => none
  | .savepoint _ _ => none
  | .afterCommit _ _ => none

end Program

variable [DecidableEq τ] [Driver δ] {body : κ → Program σ τ δ ι η ε α} {mark : τ}
  {s s' : Sys σ τ δ ι η ε α κ} {d₀ : σ}

/-- The committed states of a run. -/
def Sys.states (s : Sys σ τ δ ι η ε α κ) (d₀ : σ) : List σ := d₀ :: s.history.map Commit.after

lemma subset_states_append (d₀ : σ) (rs : List (Commit σ η α κ)) (r : Commit σ η α κ) :
    d₀ :: rs.map Commit.after ⊆ d₀ :: (rs ++ [r]).map Commit.after := by
  rw [List.map_append, ← List.cons_append]
  exact List.subset_append_left _ _

lemma mem_states_append (d₀ : σ) (rs : List (Commit σ η α κ)) (r : Commit σ η α κ) :
    r.after ∈ d₀ :: (rs ++ [r]).map Commit.after := by
  simp

namespace Linked

variable {d d' : σ} {rs : List (Commit σ η α κ)}

lemma mem_states (h : Linked d rs d') : d' ∈ d :: rs.map Commit.after := by
  induction rs generalizing d with
  | nil =>
    cases h
    exact List.mem_cons_self
  | cons r rs ih =>
    rw [List.map_cons]
    exact List.mem_cons_of_mem _ (ih h.2)

/-- Of two committed states the later one is related to the earlier one as commits relate them. -/
lemma pairwise_states {R : σ → σ → Prop} (htrans : ∀ d e f, R d e → R e f → R d f)
    (hR : ∀ r ∈ rs, R r.before r.after) (h : Linked d rs d') :
    (d :: rs.map Commit.after).Pairwise R := by
  induction rs generalizing d with
  | nil => exact List.pairwise_singleton _ _
  | cons r rs ih =>
    obtain ⟨rfl, h⟩ := h
    have hr := hR r List.mem_cons_self
    have hrest := ih (fun q hq => hR q (List.mem_cons_of_mem _ hq)) h
    rw [List.map_cons]
    refine List.pairwise_cons.mpr ⟨fun e he => ?_, hrest⟩
    rcases List.mem_cons.mp he with rfl | he
    · exact hr
    · exact htrans _ _ _ hr ((List.pairwise_cons.mp hrest).1 e he)

/-- Two committed states are comparable. -/
lemma comparable {R : σ → σ → Prop} (hrefl : ∀ d, R d d) (htrans : ∀ d e f, R d e → R e f → R d f)
    (hR : ∀ r ∈ rs, R r.before r.after) (h : Linked d rs d') {x y : σ}
    (hx : x ∈ d :: rs.map Commit.after) (hy : y ∈ d :: rs.map Commit.after) : R x y ∨ R y x := by
  have hsymm : Std.Symm fun x y => R x y ∨ R y x := ⟨fun _ _ => Or.symm⟩
  have hpairs : (d :: rs.map Commit.after).Pairwise fun x y => R x y ∨ R y x :=
    (h.pairwise_states htrans hR).imp Or.inl
  exact hpairs.forall_of_forall (fun x _ => .inl (hrefl x)) hx hy

end Linked

/-- A commit that lands between the first and the last marked read of another session leaves the
state as it is. -/
def Sys.Undisturbed (mark : τ) (s : Sys σ τ δ ι η ε α κ) : Event δ ι κ → Prop
  | .finish i => ∀ j x, j ≠ i → s.sessions[j]? = some x →
      (∃ (ρ : Type) (q : Stmt σ τ δ ι ρ) (k : Except δ ρ → Program σ τ δ ι η ε α),
        x.phase = .running (.query q k)) → mark ∈ x.ctx.tokens →
      ∀ y, s.sessions[i]? = some y → y.ctx.write s.db = s.db
  | _ => True

/-! ### The invariant of a reading session -/

/-- Where a reading session stands: before its first read, at its end, or between two reads, all of
which have seen the present state. -/
inductive Stands (body : κ → Program σ τ δ ι η ε α) (mark : τ) (states : List σ) (db : σ)
    (x : Session σ τ δ ι η ε α κ) : Program σ τ δ ι η ε α → Prop where
  | begun : Stands body mark states db x (body x.call)
  | failed (e : ε) : Stands body mark states db x (.throw e)
  | done {a : α} {d : σ} (committed : d ∈ states)
      (result : ∀ y, (body x.call).evalAt x.ctx.now y d = some a) :
      Stands body mark states db x (.ret a)
  | reading {p : Program σ τ δ ι η ε α} (reads : p.Reads mark) (marked : mark ∈ x.ctx.tokens)
      (same : ∀ y, p.evalAt x.ctx.now y db = (body x.call).evalAt x.ctx.now y db) :
      Stands body mark states db x p

/-- The invariant of a session whose program only reads. -/
structure Session.Reading (body : κ → Program σ τ δ ι η ε α) (mark : τ) (states : List σ) (db : σ)
    (x : Session σ τ δ ι η ε α κ) : Prop where
  write : x.ctx.write = id
  stands : ∀ p, x.phase = .running p → Stands body mark states db x p

/-- The invariant of a run. -/
structure Sys.Consistent (body : κ → Program σ τ δ ι η ε α) (mark : τ) (d₀ : σ)
    (s : Sys σ τ δ ι η ε α κ) : Prop where
  current : s.db ∈ s.states d₀
  sessions : ∀ (i : ℕ) (x : Session σ τ δ ι η ε α κ), s.sessions[i]? = some x →
    (body x.call).Reads mark → x.Reading body mark (s.states d₀) s.db
  commits : ∀ r ∈ s.history, (body r.call).Reads mark →
    ∃ d ∈ s.states d₀, ∀ y, (body r.call).evalAt r.now y d = some r.reply

namespace Stands

variable {states states' : List σ} {db db' : σ} {x : Session σ τ δ ι η ε α κ}
  {p : Program σ τ δ ι η ε α}

omit [DecidableEq τ] [Driver δ] in
/-- Another commit. What has been read so far is read again only if there is more to read. -/
lemma commit (h : Stands body mark states db x p) (hdb : db ∈ states) (hsub : states ⊆ states')
    (hsame : (∃ (ρ : Type) (q : Stmt σ τ δ ι ρ) (k : Except δ ρ → Program σ τ δ ι η ε α),
      p = .query q k) → mark ∈ x.ctx.tokens → db' = db) :
    Stands body mark states' db' x p := by
  cases h with
  | begun => exact .begun
  | failed e => exact .failed e
  | done committed result => exact .done (hsub committed) result
  | reading reads marked same =>
    cases reads with
    | ret a => exact .done (hsub hdb) fun y => (same y).symm
    | throw e => exact .failed e
    | query ok error =>
      rw [hsame ⟨_, _, _, rfl⟩ marked]
      exact .reading (.query ok error) marked same

end Stands

namespace Sys.Consistent

omit [DecidableEq τ] [Driver δ] in
/-- A session that moves while nothing is committed. -/
lemma put (h : s.Consistent body mark d₀) {i : ℕ} {x y : Session σ τ δ ι η ε α κ}
    (hi : s.sessions[i]? = some x)
    (hy : (body y.call).Reads mark → x.Reading body mark (s.states d₀) s.db →
      y.Reading body mark (s.states d₀) s.db) (hcall : y.call = x.call) :
    (s.put i y).Consistent body mark d₀ := by
  refine ⟨h.current, ?_, h.commits⟩
  intro j z hz hreads
  rcases Sys.getElem?_put hz with ⟨rfl, rfl⟩ | ⟨-, hz⟩
  · exact hy hreads (h.sessions j x hi (hcall ▸ hreads))
  · exact h.sessions j z hz hreads

omit [DecidableEq τ] [Driver δ] in
/-- A session that is over. -/
lemma close (h : s.Consistent body mark d₀) {i : ℕ} {x : Session σ τ δ ι η ε α κ}
    {ph : Phase σ τ δ ι η ε α} (hi : s.sessions[i]? = some x) (hph : ∀ p, ph ≠ .running p) :
    (s.put i (Sys.close x ph)).Consistent body mark d₀ :=
  h.put hi (fun _ _ => ⟨rfl, fun p hp => absurd hp (hph p)⟩) rfl

/-- One more read. -/
lemma read {i : ℕ} {x : Session σ τ δ ι η ε α κ} {p p' : Program σ τ δ ι η ε α}
    {c : Ctx σ τ η} {states : List σ} {y : ι} (hx : x.Reading body mark states s.db)
    (hp : x.phase = .running p) (hreads : (body x.call).Reads mark)
    (ha : s.advance i y x.ctx p = some (c, p')) :
    Session.Reading body mark states s.db { x with ctx := c, phase := .running p' } := by
  obtain ⟨hp, hsame⟩ : p.Reads mark ∧
      ∀ y, p.evalAt x.ctx.now y s.db = (body x.call).evalAt x.ctx.now y s.db := by
    cases hx.stands p hp with
    | begun => exact ⟨hreads, fun _ => rfl⟩
    | failed e => cases ha
    | done committed result => cases ha
    | reading reads marked same => exact ⟨reads, same⟩
  cases hp with
  | ret a => cases ha
  | throw e => cases ha
  | @query ρ f k ok error =>
    simp only [Sys.advance] at ha
    split at ha
    · cases ha
      obtain ⟨e, he⟩ := error Driver.inFailedTransaction
      refine ⟨hx.write, ?_⟩
      rintro q ⟨⟩
      rw [he]
      exact .failed e
    · cases ha
      refine ⟨congrArg (id ∘ ·) hx.write, ?_⟩
      rintro q ⟨⟩
      refine .reading (ok _) List.mem_cons_self fun y => ?_
      rw [hx.write]
      exact hsame y

/-- The step lemma. -/
lemma step (h : s.Consistent body mark d₀) {e : Event δ ι κ} (hok : s.Undisturbed mark e)
    (hs : s.step body e = some s') : s'.Consistent body mark d₀ := by
  cases Sys.step_cases hs with
  | begin call =>
    refine ⟨h.current, ?_, h.commits⟩
    intro i x hx hreads
    rw [List.getElem?_append] at hx
    split at hx
    · exact h.sessions i x hx hreads
    · have hm := List.mem_of_getElem? hx
      rw [List.mem_singleton.mp hm]
      refine ⟨rfl, ?_⟩
      rintro p ⟨⟩
      exact .begun
  | tick n => exact ⟨h.current, h.sessions, h.commits⟩
  | @step i x ss p c p' hi hp ha =>
    exact h.put hi (fun hreads hx => read hx hp hreads ha) rfl
  | @fault i e ss p c p' hi hp ha =>
    refine h.put hi (fun hreads hx => ?_) rfl
    have hreads : ∀ p, ss.phase = .running p → faulted e ss.ctx p = some (c, p') →
        ∃ x, p' = .throw x ∧ c.write = id := by
      intro p hp ha
      have hp' : p.Reads mark := by
        cases hx.stands p hp with
        | begun => exact hreads
        | failed e => exact .throw e
        | done committed result => exact .ret _
        | reading reads marked same => exact reads
      cases hp' with
      | ret a => cases ha
      | throw e => cases ha
      | query ok error =>
        cases ha
        obtain ⟨x, hx'⟩ := error e
        exact ⟨x, hx', hx.write⟩
    obtain ⟨y, rfl, hwrite⟩ := hreads p hp ha
    refine ⟨hwrite, ?_⟩
    rintro q ⟨⟩
    exact .failed y
  | crash hi hp => exact h.close hi nofun
  | rollback hi hp => exact h.close hi nofun
  | lose hi hp ha => exact h.close hi nofun
  | @commit i ss a hi hp ha =>
    have hsub := subset_states_append d₀ s.history
      ⟨i, ss.call, ss.ctx.now, a, ss.ctx.hooks, s.db, ss.ctx.write s.db⟩
    have hnew := mem_states_append d₀ s.history
      ⟨i, ss.call, ss.ctx.now, a, ss.ctx.hooks, s.db, ss.ctx.write s.db⟩
    refine ⟨hnew, ?_, ?_⟩
    · intro j x hx hreads
      rcases Sys.getElem?_put hx with ⟨-, rfl⟩ | ⟨hj, hx⟩
      · exact ⟨rfl, nofun⟩
      · obtain ⟨hwrite, hstands⟩ := h.sessions j x hx hreads
        refine ⟨hwrite, fun p hp => (hstands p hp).commit h.current hsub ?_⟩
        rintro ⟨ρ, q, k, rfl⟩ hmark
        exact hok j x hj hx ⟨ρ, q, k, hp⟩ hmark ss hi
    · intro r hr hreads
      rcases List.mem_append.mp hr with hr | hr
      · obtain ⟨d, hd, hresult⟩ := h.commits r hr hreads
        exact ⟨d, hsub hd, hresult⟩
      · cases List.mem_singleton.mp hr
        have hstands := (h.sessions i ss hi hreads).stands _ hp
        generalize hq : (.ret a : Program σ τ δ ι η ε α) = q at hstands
        cases hstands with
        | begun => exact ⟨s.db, hsub h.current, fun y => by rw [← hq]; rfl⟩
        | failed e => cases hq
        | done committed result =>
          cases hq
          exact ⟨_, hsub committed, result⟩
        | reading reads marked same =>
          cases hq
          exact ⟨s.db, hsub h.current, fun y => (same y).symm⟩

end Sys.Consistent

/-- Every result of a reading program is its result on one committed state. -/
theorem Reaches.consistent {ok : Sys σ τ δ ι η ε α κ → Event δ ι κ → Prop} {t : ℕ}
    (hok : ∀ s e, ok s e → s.Undisturbed mark e) (h : Reaches body ok (Sys.start d₀ t) s) :
    s.Consistent body mark d₀ := by
  induction h with
  | refl => exact ⟨List.mem_cons_self, nofun, nofun⟩
  | step _ he hs ih => exact ih.step (hok _ _ he) hs

end Txn
