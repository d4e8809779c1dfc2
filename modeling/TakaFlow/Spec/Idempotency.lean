import TakaFlow.Spec.Checks

/-!
# What commits under an idempotency key

A request that claims its key works and completes the key in the transaction that claimed it; one
that finds the key completed for the same request changes nothing.
-/

namespace TakaFlow

open Txn

variable {watched : Token → Prop} {may : ℕ → Database → Token → Prop}

/-- The row a claim inserts. -/
def claimRow (id userId : Uuid) (key endpoint requestHash : String) (now : Timestamp) :
    IdempotencyKey :=
  { id, userId, key, endpoint, requestHash, state := .inProgress, createdAt := now }

/-- A key that nobody has used, under an identifier that nobody uses. -/
structure Unclaimed (r : IdempotencyKey) (d : Database) : Prop where
  key : d.findKey r.userId r.key = none
  id : d.idempotencyKeys.has r.id = false

/-- The transaction right after its claim. -/
def claimed (now : Timestamp) (r : IdempotencyKey) : Ctx Database Token Hook :=
  (Ctx.start now).done (fun d => d.insertKey r)
    [.fresh .idempotencyKeys r.id, .idempotencyKey r.userId r.key]

lemma stable_unclaimed (now : Timestamp) (r : IdempotencyKey) :
    (discipline watched may).Stable (claimed now r).tokens (Unclaimed r) := by
  have hkey : (discipline watched may).Stable (claimed now r).tokens
      fun d => d.findKey r.userId r.key = none :=
    stable_agree (l := .idempotencyKey r.userId r.key) (by simp [claimed]) rfl
      fun _ _ ha h => ha h
  have hid : (discipline watched may).Stable (claimed now r).tokens
      fun d => d.has .idempotencyKeys r.id = false :=
    stable_unused Adds.id (by simp [claimed])
  exact fun d d' hr h => ⟨hkey d d' hr h.key, hid d d' hr h.id⟩

/-- The work under a claimed key begins. -/
def Claiming (watched : Token → Prop) (may : ℕ → Database → Token → Prop) (now : Timestamp)
    (r : IdempotencyKey) (d : Database) : Prop :=
  Doing watched may (claimed now r) (Unclaimed r) (claimed now r) d [] id [] (Unclaimed r)

/-- The work under a claimed key is done, and this is what it did. -/
def Worked (watched : Token → Prop) (may : ℕ → Database → Token → Prop) (now : Timestamp)
    (r : IdempotencyKey) (work : ℕ × Json → Database → Database → Prop) (result : ℕ × Json)
    (c : Ctx Database Token Hook) (d : Database) : Prop :=
  ∃ l w hs P, Doing watched may (claimed now r) (Unclaimed r) c d l w hs P ∧
    ∀ d, P d → (w (d.insertKey r)).idempotencyKeys = (d.insertKey r).idempotencyKeys ∧
      work result (d.insertKey r) (w (d.insertKey r)) ∧ Published hs (w (d.insertKey r))

lemma Noting.worked {now : Timestamp} {r : IdempotencyKey} {contents : List Content}
    {w : Database → Database} {hs : List Hook} {P : Database → Prop} {c : Ctx Database Token Hook}
    {d : Database} {work : ℕ × Json → Database → Database → Prop} {result : ℕ × Json}
    (h : Noting watched may (claimed now r) (Unclaimed r) contents w hs P c d)
    (hkeys : ∀ x, (w x).idempotencyKeys = x.idempotencyKeys)
    (hpublished : ∀ d, P d → Published hs (w (d.insertKey r)))
    (hwork : ∀ d y, P d → Notes now contents (w (d.insertKey r)) y →
      work result (d.insertKey r) y) : Worked watched may now r work result c d := by
  obtain ⟨l, w', hs', P', hd, honly, hP'⟩ := h
  refine ⟨l, w', hs', P', hd, fun d hp => ?_⟩
  obtain ⟨hp, hn⟩ := hP' d hp
  exact ⟨hn.idempotencyKeys.trans (hkeys _), hwork d _ hp hn,
    ((hpublished d hp).only honly).congr hn.accounts⟩

/-- The commits of an idempotent endpoint. -/
inductive Idempotent (userId : Uuid) (key endpoint requestHash : String)
    (work : Uuid → ℕ × Json → Database → Database → Prop) (now : Timestamp) :
    Reply → Database → Database → Prop where
  | replay {d : Database} {r : IdempotencyKey} {status : ℕ} (hr : r ∈ d.idempotencyKeys)
      (huser : r.userId = userId) (hkey : r.key = key) (hhash : r.requestHash = requestHash)
      (hstate : r.state = .completed) (hstatus : r.responseStatus = some status) :
      Idempotent userId key endpoint requestHash work now
        (.outcome status (r.responseBody.getD .null) true) d d
  | fresh {d e : Database} {id : Uuid} {result : ℕ × Json}
      (hclaim : Unclaimed (claimRow id userId key endpoint requestHash now) d)
      (hwork : work id result (d.insertKey (claimRow id userId key endpoint requestHash now)) e)
      (hkeys : e.idempotencyKeys =
        (d.insertKey (claimRow id userId key endpoint requestHash now)).idempotencyKeys) :
      Idempotent userId key endpoint requestHash work now (.outcome result.1 result.2 false) d
        (e.setKey
          ((claimRow id userId key endpoint requestHash now).complete result.1 result.2 now))

section rules

variable {userId : Uuid} {key endpoint requestHash : String} {now : Timestamp} {d : Database}

/-- The claim is the first statement of its transaction. -/
lemma wp_claimIdempotencyKey
    {Q : IdempotencyClaim → Ctx Database Token Hook → Database → Prop}
    (hreplay : ∀ (d : Database) r status, r ∈ d.idempotencyKeys → r.userId = userId →
      r.key = key → r.requestHash = requestHash → r.state = .completed →
      r.responseStatus = some status →
      Q (.replay status (r.responseBody.getD .null)) (.start now) d)
    (hmismatch : ∀ d, Q .mismatch (.start now) d)
    (hclaimed : ∀ d keyId,
      Claiming watched may now (claimRow keyId userId key endpoint requestHash now) d →
      Q (.claimed keyId) (claimed now (claimRow keyId userId key endpoint requestHash now)) d) :
    wp (discipline watched may) (claimIdempotencyKey userId key endpoint requestHash) Q
      (fun _ _ _ => True) (.start now) d := by
  have hbegin := Doing.begin watched may now d
  simp only [claimIdempotencyKey, wp_tryCatch, wp_throw, Program.bind_eq, wp_bind]
  refine wp_insertUnique (Throws.of_true _ _) hbegin.toProgress ((below_nil 0).mayWait rfl)
    (fun x => framed_insertKey (by simp) (by simp)) (.inr ⟨none, rfl, fun d hd _ => ?_⟩)
    fun c d x hd hconf hunused => ?_
  · -- Somebody has used the key: what its row says decides.
    have hd : Doing watched may _ _ _ d [] id [] _ := ⟨hd, .id, .id⟩
    simp only [wp_bind]
    refine wp_read (Throws.of_true _ _) hd fun d hd => ?_
    refine wp_orFail (Throws.of_true _ _) hd fun r hr => ?_
    have hmem : r ∈ d.idempotencyKeys := List.mem_of_find?_eq_some hr
    have hfound := List.find?_some hr
    simp only [decide_eq_true_eq] at hfound
    unfold resolveClaim
    split
    · exact hmismatch d
    · rename_i hhash
      split
      · rename_i hstate hstatus
        exact hreplay d r _ hmem hfound.1 hfound.2 (not_not.mp hhash) hstate hstatus
      · trivial
  · -- The key is ours.
    simp only [Program.pure_eq, wp_ret]
    have hc : c = claimed now (claimRow x.uuid userId key endpoint requestHash now) :=
      Ctx.ext hd.now hd.write hd.tokens hd.saves hd.aborted hd.hooks
    subst hc
    refine hclaimed d x.uuid (.start (grows_insertKey _) (stable_unclaimed _ _) ⟨?_, ?_⟩)
    · simpa [claimRow] using hconf
    · simpa [claimRow, Database.has] using hunused

/-- What an idempotent endpoint commits, from what its work does. -/
lemma wp_idempotently {work : Uuid → Tx (ℕ × Json)}
    {spec : Uuid → ℕ × Json → Database → Database → Prop}
    (hwork : ∀ d r, Claiming watched may now r d →
      wp (discipline watched may) (work r.id) (Worked watched may now r (spec r.id))
        (fun _ _ _ => True) (claimed now r) d) :
    wp (discipline watched may) (idempotently userId key endpoint requestHash work)
      (Commits (discipline watched may) fun reply hs x y =>
        Idempotent userId key endpoint requestHash spec now reply x y ∧ Published hs y)
      (fun _ _ _ => True) (.start now) d := by
  simp only [idempotently, Program.bind_eq, Program.pure_eq, wp_bind]
  refine wp_claimIdempotencyKey (fun d r status hr hu hk hh hs hst => ?_) (fun d => trivial)
    fun d keyId hd => ?_
  · intro d' hrely
    exact ⟨rfl, ⟨.replay (hrely.1.keys r hr hs) hu hk hh hs hst, .nil d'⟩, Later.refl d'⟩
  · simp only [wp_bind]
    refine wp_mono ?_ (fun _ _ _ h => h) (hwork d _ hd)
    rintro result c d ⟨l, w, hs, P, hd, hspec⟩
    simp only [completeIdempotencyKey, Program.bind_eq, Program.pure_eq, wp_bind, wp_ret]
    -- The row of the claim is still there as it was inserted.
    have hrow : ∀ d, P d → ((w (d.insertKey (claimRow keyId userId key endpoint requestHash
        now))).idempotencyKeys.get? keyId).map (fun r => r.complete result.1 result.2 now) =
          some ((claimRow keyId userId key endpoint requestHash now).complete result.1 result.2
            now) := by
      intro d hp
      have hnone := (Table.has_eq_false _ _).mp (hd.base d hp).id
      rw [(hspec d hp).1]
      exact congrArg _ (Table.get?_insert_self hnone)
    refine wp_update (Throws.of_true _ _) hd.toProgress (fun d r' hp hf => .inl ⟨?_, .inl ?_⟩)
      (fun d r' hp hf => framed_setKey) (fun d hd' hf => ?_) fun c d r' hd' hf => ?_
    · cases (hrow d hp).symm.trans hf
      exact List.mem_append_right _ List.mem_cons_self
    · rfl
    · cases (hrow d hd'.holds).symm.trans hf
    · cases (hrow d hd'.holds).symm.trans hf
      refine hd'.commits rfl fun d hp =>
        ⟨⟨.fresh (hd.base d hp) (hspec d hp).2.1 (hspec d hp).1, ?_⟩, ?_⟩
      · exact (hspec d hp).2.2.congr rfl
      refine Later.setKey (((grows_insertKey _).later d).trans (hd.grows.later _)) ?_
      exact (Table.has_eq_false _ _).mp (hd.base d hp).id

end rules

end TakaFlow
