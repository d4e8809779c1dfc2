import TakaFlow.Spec.Sessions

/-!
# The calls of the auth service

Every call commits a step of the tokens. A refresh that detects reuse leaves no live token in the
family, as long as no token it passed over had given way to another.
-/

namespace TakaFlow

open Txn

variable {may : ℕ → AuthStore → AuthToken → Prop} {now : ℕ} {ρ : Type}
  {R : Error → Ctx AuthStore AuthToken Empty → AuthStore → Prop}

/-- Where a call of the auth service is: it acquired `l`, wrote `w` and knows `P`. -/
abbrev Acting (may : ℕ → AuthStore → AuthToken → Prop) (now : ℕ)
    (c : Ctx AuthStore AuthToken Empty) (d : AuthStore) (l : List AuthToken)
    (w : AuthStore → AuthStore) (P : AuthStore → Prop) : Prop :=
  Progress (authDiscipline may) (Ctx.start now) AuthStore.Sound c d l w [] P

variable {c : Ctx AuthStore AuthToken Empty} {d : AuthStore} {l : List AuthToken}
  {w : AuthStore → AuthStore} {P : AuthStore → Prop}

/-! ### Stable facts -/

lemma excl_refreshToken {id : Uuid} : (authDiscipline may).excl (.refreshToken id) := .inl rfl

lemma stable_get? {held : List AuthToken} {id : Uuid} {o : Option RefreshToken}
    (hl : .refreshToken id ∈ held) :
    (authDiscipline may).Stable held fun d => d.refreshTokens.get? id = o := by
  intro d d' hr h
  have hagree : d'.refreshTokens.get? id = d.refreshTokens.get? id :=
    hr.2 _ hl excl_refreshToken
  rw [hagree, h]

lemma stable_family {held : List AuthToken} {id : Uuid} (hl : .family id ∈ held) :
    (authDiscipline may).Stable held fun d => d.families.has id = false :=
  fun _ _ hr h => hr.2 (.family id) hl (.inl rfl) h

lemma stable_sound {held : List AuthToken} :
    (authDiscipline may).Stable held AuthStore.Sound :=
  fun _ _ hr h => (hr.1 h).sound

/-- Learn a fact that later states keep. -/
lemma learn_later (h : Acting may now c d l w P) (P' : AuthStore → Prop)
    (hP' : ∀ d d', d.Evolves d' → P d → P' d → P' d') (hp : P' d) :
    Acting may now c d l w fun d => P d ∧ P' d :=
  h.learn' (fun d d' hr hd _ hp => hP' d d' (hr.1 (h.base d hd)) hd hp) hp

/-! ### Rules -/

section rules

lemma Acting.throws (now : ℕ) :
    Throws (fun (_ : Error) (_ : Ctx AuthStore AuthToken Empty) _ => True)
    (Ctx.start now) AuthStore.Sound := Throws.of_true _ _

variable (hR : Throws R (Ctx.start now) AuthStore.Sound)
include hR

lemma wp_auth_require (h : Acting may now c d l w P) {p : Prop} [Decidable p] {e : DomainError}
    {Q : Unit → Ctx AuthStore AuthToken Empty → AuthStore → Prop} (hk : p → Q () c d) :
    wp (authDiscipline may) (auth.require p e) Q R c d := by
  unfold auth.require
  split
  · exact hk ‹_›
  · exact h.throw hR _

lemma wp_auth_orFail (h : Acting may now c d l w P) {α : Type} {o : Option α} {e : DomainError}
    {Q : α → Ctx AuthStore AuthToken Empty → AuthStore → Prop} (hk : ∀ a, o = some a → Q a c d) :
    wp (authDiscipline may) (auth.orFail o e) Q R c d := by
  cases o with
  | none => exact h.throw hR _
  | some a => exact hk a rfl

omit hR in
lemma wp_auth_dateNow {Q : Millis × Env → Ctx AuthStore AuthToken Empty → AuthStore → Prop}
    (hk : ∀ drawn, Q drawn c d) : wp (authDiscipline may) auth.dateNow Q R c d :=
  fun _ _ _ => hk _

/-- A statement of the other tables. -/
lemma wp_insertAudit (h : Acting may now c d l w P) {actorUserId : Option Uuid}
    {action entityType : String} {entityId : Option Uuid} {metadata : Fields}
    {context : RequestContext}
    {Q : AuditLog → Ctx AuthStore AuthToken Empty → AuthStore → Prop}
    (hk : ∀ r c d l' w', Acting may now c d l' (w' ∘ w) P → l ⊆ l' → Apart w' → Q r c d) :
    wp (authDiscipline may) (auth.query (auth.insertAuditRow actorUserId action entityType entityId
      metadata context)) Q R c d :=
  wp_insert (by simp) hR h (fun _ => framed_apart fun _ => ⟨rfl, rfl⟩) fun _ _ _ h _ _ =>
    hk _ _ _ _ _ h (by simp) fun _ => ⟨rfl, rfl⟩

lemma wp_insertUser (h : Acting may now c d l w P) {input : RegisterInput}
    {Q : User → Ctx AuthStore AuthToken Empty → AuthStore → Prop}
    (hk : ∀ r c d l' w', Acting may now c d l' (w' ∘ w) P → l ⊆ l' → Apart w' → Q r c d) :
    wp (authDiscipline may) (auth.query (auth.insertUserRow input)) Q R c d :=
  wp_insertUnique hR h trivial (fun _ => framed_apart fun _ => ⟨rfl, rfl⟩) (.inl ⟨_, rfl⟩)
    fun _ _ _ h _ _ => hk _ _ _ _ _ h (by simp) fun _ => ⟨rfl, rfl⟩

/-- A family no one else has. -/
lemma wp_randomFamily (h : Acting may now c d l w P) (hw : Apart w)
    {Q : Uuid → Ctx AuthStore AuthToken Empty → AuthStore → Prop}
    (hk : ∀ id c d, Acting may now c d (.family id :: l) ((fun d => d.insertFamily id) ∘ w)
      (fun d => P d ∧ d.families.has id = false) → Q id c d) :
    wp (authDiscipline may) (auth.query auth.randomFamily) Q R c d := by
  refine wp_exec hR h fun d x taken hp _ => ?_
  unfold auth.randomFamily
  cases hu : (w d).families.has x.uuid || taken (.family x.uuid) with
  | true => simp [hu, authDiscipline]
  | false =>
    obtain ⟨hhas, htaken⟩ := Bool.or_eq_false_iff.mp hu
    rw [(hw d).2] at hhas
    simp only [Ctx.start_write, id_eq, hu, Bool.false_eq_true, if_false]
    intro _ _
    refine ⟨?_, framed_insertFamily (by simp), hk _ _ _ ?_⟩
    · intro y hy _
      rw [List.mem_singleton.mp hy]
      exact htaken
    · exact hp.done.learn (stable_family (by simp)) hhas

/-- A token under a new identifier. -/
lemma wp_insertRefreshToken (h : Acting may now c d l w P) {userId familyId : Uuid}
    {tokenHash : String} {expiresAt : Timestamp} {context : RequestContext}
    (hw : ∀ d, (w d).refreshTokens = d.refreshTokens)
    {Q : RefreshToken → Ctx AuthStore AuthToken Empty → AuthStore → Prop}
    (hk : ∀ r c d l', Acting may now c d l' ((fun d => d.insertToken r) ∘ w)
      (fun d => P d ∧ d.refreshTokens.get? r.id = none) → l ⊆ l' → r.familyId = familyId →
      r.revokedAt = none → r.replacedBy = none → Q r c d) :
    wp (authDiscipline may) (auth.query (auth.insertRefreshToken userId familyId tokenHash
      expiresAt context)) Q R c d := by
  refine wp_insertUnique hR h trivial (fun x => framed_insertRefreshToken (by simp)) (.inl ⟨_, rfl⟩)
    fun c d x h _ hunused => ?_
  rw [Ctx.start_write, id_eq, hw] at hunused
  have hnone : d.refreshTokens.get? x.uuid = none := by
    rw [← Table.has_eq_false]
    simpa using hunused
  refine hk _ c d _ (h.learn (stable_get? (by simp)) hnone) (by simp) rfl rfl rfl

lemma wp_issueSession (P' : AuthPlatform) (h : Acting may now c d l w P) {user : User}
    {familyId : Uuid} {context : RequestContext} (hw : ∀ d, (w d).refreshTokens = d.refreshTokens)
    {Q : auth.Issued → Ctx AuthStore AuthToken Empty → AuthStore → Prop}
    (hk : ∀ (r : RefreshToken) s c d l', Acting may now c d l' ((fun d => d.insertToken r) ∘ w)
      (fun d => P d ∧ d.refreshTokens.get? r.id = none) → l ⊆ l' → r.familyId = familyId →
      r.revokedAt = none → r.replacedBy = none → s.tokenId = r.id → Q s c d) :
    wp (authDiscipline may) (auth.issueSession P' user familyId context) Q R c d := by
  simp only [auth.issueSession, Program.bind_eq, Program.pure_eq, wp_bind]
  refine wp_auth_dateNow fun drawn => ?_
  refine wp_insertRefreshToken hR h hw fun r c d l' h hsub hfamily hlive hlast => ?_
  exact hk r _ c d l' h hsub hfamily hlive hlast rfl

end rules

/-! ### Revoking a family -/

/-- The writes that revoke these tokens. -/
def revokeAll (now : Timestamp) : List Uuid → AuthStore → AuthStore
  | [], d => d
  | id :: ids, d => (revokeAll now ids d).revokeToken id now

lemma revokeAll_rows (ids : List Uuid) (d : AuthStore) :
    (revokeAll now ids d).refreshTokens.rows =
      d.refreshTokens.rows.map (RefreshToken.revoke ids now) ∧
    (revokeAll now ids d).families = d.families := by
  induction ids with
  | nil => exact ⟨(List.map_id _).symm, rfl⟩
  | cons id ids ih =>
    refine ⟨?_, ih.2⟩
    change List.map _ (revokeAll now ids d).refreshTokens.rows = _
    rw [ih.1, List.map_map]
    refine List.map_congr_left fun r _ => ?_
    unfold RefreshToken.revoke
    by_cases hid : r.id = id <;> by_cases hin : r.id ∈ ids <;> simp [hid, hin] <;> simp_all

/-- The present version of a token. -/
lemma get?_revokeAll (ids : List Uuid) (d : AuthStore) (id : Uuid) :
    (revokeAll now ids d).refreshTokens.get? id =
      (d.refreshTokens.get? id).map (RefreshToken.revoke ids now) := by
  unfold Table.get?
  rw [(revokeAll_rows ids d).1, List.find?_map]
  congr 2
  funext r
  simp

/-- The tokens an update passes over have no successors. -/
def Prudent (may : ℕ → AuthStore → AuthToken → Prop) : Prop :=
  ∀ now d id, may now d (.passed id) → ∀ r ∈ d.refreshTokens, r.id = id → r.replacedBy = none

/-- The token is one of those revoked here, or was found revoked. -/
def Handled (may : ℕ → AuthStore → AuthToken → Prop) (done : List Uuid) (id : Uuid)
    (d : AuthStore) : Prop :=
  id ∈ done ∨ ∃ q ∈ d.refreshTokens, q.id = id ∧ q.revokedAt ≠ none ∧
    (Prudent may → q.replacedBy = none)

/-- The tokens revoked here were live. -/
def AllLive (ids : List Uuid) (d : AuthStore) : Prop :=
  ∀ r ∈ d.refreshTokens, r.id ∈ ids → r.revokedAt = none

/-- Every live token of the family is one of these, or takes the place of one of these. -/
def Covers (familyId : Uuid) (ids : List Uuid) (d : AuthStore) : Prop :=
  ∀ r ∈ d.refreshTokens, r.familyId = familyId → r.revokedAt = none →
    r.id ∈ ids ∨ ∃ q ∈ d.refreshTokens, q.id ∈ ids ∧ q.replacedBy ≠ none

lemma Covers.evolves {familyId : Uuid} {ids : List Uuid} {e : RefreshToken} {d d' : AuthStore}
    (h : Covers familyId ids d) (hev : d.Evolves d') (hd : d.Sound) (he : e ∈ d.refreshTokens)
    (hfamily : e.familyId = familyId) : Covers familyId ids d' := by
  have hkeep : (∃ q ∈ d.refreshTokens, q.id ∈ ids ∧ q.replacedBy ≠ none) →
      ∃ q ∈ d'.refreshTokens, q.id ∈ ids ∧ q.replacedBy ≠ none := by
    rintro ⟨q, hq, hin, hnext⟩
    exact ⟨q, hev.mem_of_revoked hq (hd.replaced q hq hnext), hin, hnext⟩
  intro r' hr' hf hlive
  cases hr : d.refreshTokens.get? r'.id with
  | some r =>
    have hmem := Table.mem_of_get? hr
    have hid : r'.id = r.id := (Table.key_of_get? hr).symm
    obtain ⟨hrlive, hrfamily⟩ := hev.live_of_live hmem hr' hid hlive
    rw [hid]
    exact (h r hmem (hrfamily.symm.trans hf) hrlive).imp_right hkeep
  | none =>
    obtain ⟨q, hq, hqf, hqlive, q', hq', hqid, hqnext⟩ :=
      hev.grown r' hr' hr e he (hfamily.trans hf.symm)
    rcases h q hq (hqf.trans hf) hqlive with hin | hnext
    · exact .inr ⟨q', hq', hqid ▸ hin, hqnext⟩
    · exact .inr (hkeep hnext)

/-- If all of them are handled no token of the family is live any more. -/
lemma Covers.revoked {familyId : Uuid} {ids done : List Uuid} {d : AuthStore} (hd : d.Sound)
    (h : Covers familyId ids d) (hmay : Prudent may) (hlive : AllLive done d)
    (hhandled : ∀ id ∈ ids, Handled may done id d) :
    ∀ q ∈ (revokeAll now done d).refreshTokens, q.familyId = familyId → q.revokedAt ≠ none := by
  intro q hq hfamily hnone
  rw [Table.mem_def, (revokeAll_rows done d).1] at hq
  obtain ⟨p, hp, rfl⟩ := List.mem_map.mp hq
  rw [RefreshToken.revoke_familyId] at hfamily
  have hnot : p.id ∉ done := by
    intro hin
    rw [RefreshToken.revoke, if_pos hin] at hnone
    cases hnone
  rw [RefreshToken.revoke, if_neg hnot] at hnone
  rcases h p hp hfamily hnone with hin | ⟨r, hr, hin, hnext⟩
  · rcases hhandled p.id hin with hdone | ⟨r, hr, hid, hrevoked, -⟩
    · exact hnot hdone
    · rw [Table.eq_of_mem hr hp hid] at hrevoked
      exact hrevoked hnone
  · rcases hhandled r.id hin with hdone | ⟨r', hr', hid, -, hlast⟩
    · exact hd.replaced r hr hnext (hlive r hr hdone)
    · rw [Table.eq_of_mem hr' hr hid] at hlast
      exact hnext (hlast hmay)

lemma Handled.mono {done done' : List Uuid} {id : Uuid} (h : Handled may done id d)
    (hsub : done ⊆ done') : Handled may done' id d :=
  h.imp_left fun hin => hsub hin

/-- A token that was found revoked stays so. -/
lemma handled_evolves {id : Uuid} {d d' : AuthStore} (hev : d.Evolves d')
    (h : ∃ q ∈ d.refreshTokens, q.id = id ∧ q.revokedAt ≠ none ∧
      (Prudent may → q.replacedBy = none)) :
    ∃ q ∈ d'.refreshTokens, q.id = id ∧ q.revokedAt ≠ none ∧
      (Prudent may → q.replacedBy = none) := by
  obtain ⟨q, hq, hid, hrevoked, hlast⟩ := h
  exact ⟨q, hev.mem_of_revoked hq hrevoked, hid, hrevoked, hlast⟩

section revoke

variable (hR : Throws R (Ctx.start now) AuthStore.Sound) {done : List Uuid}
include hR

/-- One row of the update. -/
lemma wp_revokeRow (h : Acting may now c d l (revokeAll now done) P) {id : Uuid}
    (hmem : ∀ d, P d → ∃ r ∈ d.refreshTokens, r.id = id) (hlive : ∀ d, P d → AllLive done d)
    {Q : ℕ → Ctx AuthStore AuthToken Empty → AuthStore → Prop}
    (hk : ∀ n c d l' done' P', Acting may now c d l' (revokeAll now done') P' → done ⊆ done' →
      (∀ d, P' d → P d ∧ AllLive done' d ∧ Handled may done' id d) → Q n c d) :
    wp (authDiscipline may) (auth.query (auth.revokeRow id)) Q R c d := by
  refine wp_exec hR h fun d x taken hp _ => ?_
  unfold auth.revokeRow
  simp only [Ctx.start_write, id_eq]
  cases hfind : ((revokeAll now done d).refreshTokens.get? id).filter fun r => r.revokedAt = none
    with
  | none =>
    intro hpassed _
    refine ⟨by simp [authDiscipline, AuthToken.isLock], Discipline.framed_id, ?_⟩
    have hpassed : may now d (.passed id) := hpassed _ List.mem_cons_self
    by_cases hin : id ∈ done
    · exact hk 0 _ d _ done P hp.read (List.Subset.refl _) fun d hd => ⟨hd, hlive d hd, .inl hin⟩
    · -- The row is revoked, and not by this session.
      obtain ⟨r, hr, rfl⟩ := hmem d hp.holds
      rw [get?_revokeAll, Table.get?_of_mem hr, Option.map_some, RefreshToken.revoke, if_neg hin,
        Option.filter_eq_none_iff] at hfind
      have hrevoked : r.revokedAt ≠ none := by simpa using hfind
      have hfact : ∃ q ∈ d.refreshTokens, q.id = r.id ∧ q.revokedAt ≠ none ∧
          (Prudent may → q.replacedBy = none) :=
        ⟨r, hr, rfl, hrevoked, fun hmay => hmay now d r.id hpassed r hr rfl⟩
      exact hk 0 _ d _ done _
        (learn_later hp.read _ (fun _ _ hev _ hf => handled_evolves hev hf) hfact)
        (List.Subset.refl _)
        fun d hd => ⟨hd.1, hlive d hd.1, .inr hd.2⟩
  | some r =>
    rw [get?_revokeAll, Option.filter_eq_some_iff] at hfind
    obtain ⟨hget, hnone⟩ := hfind
    obtain ⟨q, hq, hqr⟩ := Option.map_eq_some_iff.mp hget
    have hid : r.id = id := by
      rw [← hqr, RefreshToken.revoke_id]
      exact Table.key_of_get? hq
    subst hid
    have hqlive : q.revokedAt = none := by
      by_contra hrevoked
      rw [← hqr] at hnone
      exact RefreshToken.revokedAt_revoke hrevoked (by simpa using hnone)
    cases htaken : taken (.refreshToken r.id) with
    | true => simp [htaken, authDiscipline]
    | false =>
      simp only [htaken, Bool.false_eq_true, if_false]
      intro _ _
      refine ⟨by simp [htaken], framed_revokeToken (by simp), ?_⟩
      refine hk 1 _ d _ (r.id :: done) _ (hp.done.learn (stable_get? (o := some q) (by simp)) hq)
        (List.subset_cons_self _ _) fun d hd => ⟨hd.1, ?_, .inl List.mem_cons_self⟩
      intro p hp hin
      rcases List.mem_cons.mp hin with hid | hin
      · have hpq : some p = some q := by
          rw [← Table.get?_of_mem hp, hid, hd.2]
        rw [Option.some.inj hpq]
        exact hqlive
      · exact hlive d hd.1 p hp hin

/-- All rows of the update, one after the other. -/
lemma wp_revokeRows {ids : List Uuid} (h : Acting may now c d l (revokeAll now done) P)
    (hmem : ∀ id ∈ ids, ∀ d, P d → ∃ r ∈ d.refreshTokens, r.id = id)
    (hlive : ∀ d, P d → AllLive done d)
    {Q : ℕ → Ctx AuthStore AuthToken Empty → AuthStore → Prop}
    (hk : ∀ n c d l' done' P', Acting may now c d l' (revokeAll now done') P' → done ⊆ done' →
      (∀ d, P' d → P d ∧ AllLive done' d ∧ ∀ id ∈ ids, Handled may done' id d) → Q n c d) :
    wp (authDiscipline may) (auth.revokeRows ids) Q R c d := by
  induction ids generalizing c d l done P Q with
  | nil => exact hk 0 c d l done P h (List.Subset.refl _) fun d hd => ⟨hd, hlive d hd, nofun⟩
  | cons id ids ih =>
    simp only [auth.revokeRows, Program.bind_eq, Program.pure_eq, wp_bind]
    refine wp_revokeRow hR h (hmem id List.mem_cons_self) hlive
      fun n c d l₁ done₁ P₁ h₁ hsub₁ hP₁ => ?_
    refine ih h₁ (fun i hi d hd => hmem i (List.mem_cons_of_mem _ hi) d (hP₁ d hd).1)
      (fun d hd => (hP₁ d hd).2.1) fun m c d l₂ done₂ P₂ h₂ hsub₂ hP₂ => ?_
    refine hk _ c d l₂ done₂ P₂ h₂ (fun i hi => hsub₂ (hsub₁ hi)) fun d hd => ?_
    obtain ⟨hd₁, hall, hrest⟩ := hP₂ d hd
    obtain ⟨hd₀, -, hfirst⟩ := hP₁ d hd₁
    refine ⟨hd₀, hall, fun i hi => ?_⟩
    rcases List.mem_cons.mp hi with rfl | hi
    · exact hfirst.mono hsub₂
    · exact hrest i hi

end revoke

/-! ### The calls -/

/-- No token is live in the family of the token with this hash. -/
def FamilyEnded (hash : String) (x z : AuthStore) : Prop :=
  ∃ e ∈ x.refreshTokens, e.tokenHash = hash ∧
    ∀ q ∈ z.refreshTokens, q.familyId = e.familyId → q.revokedAt ≠ none

/-- The commit of a call. -/
structure AuthCommit (may : ℕ → AuthStore → AuthToken → Prop) (P : AuthPlatform) (call : AuthCall)
    (now : Timestamp) (reply : AuthReply) (x z : AuthStore) : Prop where
  step : TokenStep now x z
  reuse : ∀ refreshTokenPlain context, call = .refresh refreshTokenPlain context →
    reply = .refreshed .reuseDetected → Prudent may → FamilyEnded (P.sha256 refreshTokenPlain) x z

/-- Writes that amount to a step of the tokens. -/
def Steps (now : ℕ) (w : AuthStore → AuthStore) (P : AuthStore → Prop) : Prop :=
  ∀ d, P d → TokenStep now d (w d)

lemma tokenByHash_eq_some {d : AuthStore} {hash : String} {r : RefreshToken}
    (h : d.tokenByHash hash = some r) : r ∈ d.refreshTokens ∧ r.tokenHash = hash :=
  ⟨List.mem_of_find?_eq_some h, by simpa using List.find?_some h⟩

section calls

variable {P' : AuthPlatform} {call : AuthCall}

/-- What a session commits to. -/
lemma commits_of_steps {post : AuthReply → List Empty → AuthStore → AuthStore → Prop}
    {reply : AuthReply} (h : Acting may now c d l w P) (hw : Steps now w P)
    (hpost : ∀ d, P d → post reply [] d (w d)) : Commits (authDiscipline may) post reply c d :=
  Progress.commits h rfl fun d hp => ⟨hpost d hp, fun hd => (hw d hp).evolves hd⟩

/-- A commit that does not detect reuse. -/
lemma commits_step {reply : AuthReply} (h : Acting may now c d l w P) (hw : Steps now w P)
    (hreply : reply ≠ .refreshed .reuseDetected) :
    Commits (authDiscipline may) (fun reply _ x z => AuthCommit may P' call now reply x z) reply
      c d :=
  commits_of_steps h hw fun d hp => ⟨hw d hp, fun _ _ _ heq => absurd heq hreply⟩

lemma acting_start (hd : d.Sound) : Acting may now (Ctx.start now) d [] id AuthStore.Sound :=
  .start stable_sound hd

/-- A session in a new family. -/
lemma wp_newSession (hR : Throws R (Ctx.start now) AuthStore.Sound) (h : Acting may now c d l w P)
    (hw : Apart w) {user : User} {context : RequestContext}
    {Q : auth.Issued → Ctx AuthStore AuthToken Empty → AuthStore → Prop}
    (hk : ∀ s c d l' w' P', Acting may now c d l' w' P' → Steps now w' P' → Q s c d) :
    wp (authDiscipline may) (auth.query auth.randomFamily)
      (fun family c d => wp (authDiscipline may) (auth.issueSession P' user family context) Q R c d)
      R c d := by
  refine wp_randomFamily hR h hw fun id c d h => ?_
  refine wp_issueSession hR P' h (fun d => (hw d).1) fun r s c d l' h _ hfamily hlive hlast _ => ?_
  refine hk s c d l' _ _ h fun d hp => ?_
  obtain ⟨⟨-, hunknown⟩, hunused⟩ := hp
  refine .issued r hunused (hfamily ▸ hunknown) hlive hlast ?_ ?_
  · change ((w d).refreshTokens.insert r).rows = _
    rw [(hw d).1, Table.rows_insert hunused]
  · change (w d).families.insert id = _
    rw [(hw d).2, hfamily]

lemma Steps.comp {w' : AuthStore → AuthStore} (h : Steps now w P) (hw : Apart w') :
    Steps now (w' ∘ w) P :=
  fun d hp => (h d hp).comp hw

lemma wp_auth_register {input : RegisterInput} {account : AccountSummary} {mintReference : String}
    {context : RequestContext} (hd : d.Sound) :
    wp (authDiscipline may)
      (authCall P' (.register input account mintReference context))
      (Commits (authDiscipline may) fun reply _ x z => AuthCommit may P' call now reply x z)
      (fun _ _ _ => True) (.start now) d := by
  have hR := (Acting.throws now).map translateDuplicate
  simp only [authCall, auth.register, Program.bind_eq, Program.pure_eq, wp_bind, wp_tryCatch,
    wp_throw]
  refine wp_insertUser hR (acting_start hd) fun user c d l₁ w₁ h _ hw₁ => ?_
  refine wp_insertAudit hR h fun _ c d l₂ w₂ h _ hw₂ => ?_
  have hw : Apart (w₂ ∘ w₁ ∘ id) := fun d =>
    ⟨((hw₂ _).1).trans (hw₁ d).1, ((hw₂ _).2).trans (hw₁ d).2⟩
  exact wp_newSession hR h hw fun s c d l w P h hsteps => commits_step h hsteps (by rintro ⟨⟩)

lemma wp_auth_login {input : LoginInput} {account : Option AccountSummary}
    {context : RequestContext} (hd : d.Sound) :
    wp (authDiscipline may) (authCall P' (.login input account context))
      (Commits (authDiscipline may) fun reply _ x z => AuthCommit may P' call now reply x z)
      (fun _ _ _ => True) (.start now) d := by
  have hR := Acting.throws now
  simp only [authCall, auth.login, Program.bind_eq, Program.pure_eq, wp_bind]
  refine wp_select hR (acting_start hd) fun d h => ?_
  refine wp_auth_orFail hR h fun user _ => ?_
  refine wp_auth_require hR h fun _ => ?_
  refine wp_auth_require hR h fun _ => ?_
  refine wp_auth_orFail hR h fun account _ => ?_
  refine wp_newSession hR h (fun _ => ⟨rfl, rfl⟩) fun s c d l w P h hsteps => ?_
  refine wp_insertAudit hR h fun _ c d l' w' h _ hw' => ?_
  exact commits_step h (hsteps.comp hw') (by rintro ⟨⟩)

lemma wp_auth_refresh {refreshTokenPlain : String} {context : RequestContext} (hd : d.Sound) :
    wp (authDiscipline may) (authCall P' (.refresh refreshTokenPlain context))
      (Commits (authDiscipline may) fun reply _ x z =>
        AuthCommit may P' (.refresh refreshTokenPlain context) now reply x z)
      (fun _ _ _ => True) (.start now) d := by
  have hR := Acting.throws now
  simp only [authCall, auth.refresh, Program.bind_eq, Program.pure_eq, wp_bind]
  refine wp_selectForUpdate hR (acting_start hd) (fun _ _ _ _ => .inr trivial)
    (fun d h _ => wp_auth_orFail hR h (by rintro _ ⟨⟩)) fun c d existing h hfound => ?_
  obtain ⟨hmem, hhash⟩ := tokenByHash_eq_some hfound
  have h := h.learn (stable_get? (o := some existing) (by simp)) (Table.get?_of_mem hmem)
  simp only [auth.orFail, wp_ret]
  split_ifs with hgone hrevoked <;> simp only [wp_bind, wp_ret]
  · -- Revoked by a logout or with its family.
    exact commits_step h (fun d _ => .same rfl rfl) (by rintro ⟨⟩)
  · -- Presented again after it was rotated.
    simp only [auth.revokeFamily, Program.bind_eq, wp_bind]
    refine wp_select hR h fun d h => ?_
    simp only [id_eq, Ctx.start_write]
    set ids := ((d.tokensOf existing.familyId).filter fun r => r.revokedAt = none).map
      RefreshToken.id with hids
    have hcovers : Covers existing.familyId ids d := by
      intro r hr hfamily hlive
      refine .inl (List.mem_map_of_mem ?_)
      rw [List.mem_filter, AuthStore.tokensOf, List.mem_filter]
      exact ⟨⟨hr, by simpa using hfamily⟩, by simpa using hlive⟩
    have hthere : ∀ id ∈ ids, ∃ r ∈ d.refreshTokens, r.id = id := by
      intro id hid
      obtain ⟨r, hr, rfl⟩ := List.mem_map.mp hid
      exact ⟨r, List.mem_of_mem_filter (List.mem_of_mem_filter hr), rfl⟩
    have h := learn_later h (fun d => Covers existing.familyId ids d ∧
        ∀ id ∈ ids, ∃ r ∈ d.refreshTokens, r.id = id) (fun d d' hev hp hcov =>
      ⟨hcov.1.evolves hev hp.1 (Table.mem_of_get? hp.2) rfl, fun id hid => by
        obtain ⟨r, hr, hrid⟩ := hcov.2 id hid
        obtain ⟨r', hr', hid', -⟩ := hev.kept r hr
        exact ⟨r', hr', hid'.trans hrid⟩⟩) ⟨hcovers, hthere⟩
    have h : Acting may now c d _ (revokeAll now []) _ := h
    refine wp_revokeRows hR h (fun id hid d hp => hp.2.2 id hid)
      (fun d _ r _ hin => absurd hin List.not_mem_nil) fun n c d l done P h _ hP => ?_
    refine wp_insertAudit hR h fun _ c d l' w' h _ hw' => ?_
    have hsteps : Steps now (revokeAll now done) P := fun d hp =>
      .revoked done (hP d hp).2.1 (revokeAll_rows done d).1 (revokeAll_rows done d).2
    refine commits_of_steps h (hsteps.comp hw') fun d hp => ⟨hsteps.comp hw' d hp, ?_⟩
    rintro _ _ ⟨⟩ - hmay
    obtain ⟨⟨⟨hsound, hget⟩, hcov, -⟩, hlive, hhandled⟩ := hP d hp
    refine ⟨existing, Table.mem_of_get? hget, hhash, fun q hq => ?_⟩
    rw [Function.comp_apply, (hw' _).1] at hq
    exact hcov.revoked hsound hmay hlive hhandled q hq
  · -- Rotated now.
    have hlive : existing.revokedAt = none := not_not.mp hrevoked
    refine wp_auth_dateNow fun drawn => ?_
    refine wp_auth_require hR h fun _ => ?_
    refine wp_select hR h fun d h => ?_
    refine wp_auth_orFail hR h fun user _ => ?_
    refine wp_auth_require hR h fun _ => ?_
    refine wp_issueSession hR P' h (fun _ => rfl)
      fun r s c d l h hsub hfamily hrlive hlast hid => ?_
    have hheld : .refreshToken existing.id ∈ l := hsub List.mem_cons_self
    -- Its row is still there, locked.
    have hview : ∀ d : AuthStore, d.refreshTokens.get? existing.id = some existing →
        (d.insertToken r).refreshTokens.get? existing.id = some existing :=
      fun d hget => Table.get?_insert_of_some hget
    rw [hid]
    refine wp_update hR h (fun _ _ _ _ => .inr trivial) (fun d q hp hq => ?_)
      (fun d h hq => ?_) fun c d q h hq => ?_
    · cases (hview d hp.1.2).symm.trans hq
      exact framed_replaceToken (by simp)
    · cases (hview d h.holds.1.2).symm.trans hq
    · cases (hview d h.holds.1.2).symm.trans hq
      refine commits_step h (fun d hp => ?_) (by rintro ⟨⟩)
      obtain ⟨⟨-, hget⟩, hunused⟩ := hp
      have hne : r.id ≠ existing.id := by
        intro he
        rw [he, hget] at hunused
        cases hunused
      refine .rotated existing r (Table.mem_of_get? hget) hlive hunused hfamily hrlive hlast ?_ rfl
      change List.map _ (d.refreshTokens.insert r).rows = _
      rw [Table.rows_insert hunused, List.map_append, List.map_singleton]
      congr 1
      rw [if_neg hne]

lemma wp_auth_logout {refreshTokenPlain : String} (hd : d.Sound) :
    wp (authDiscipline may) (authCall P' (.logout refreshTokenPlain))
      (Commits (authDiscipline may) fun reply _ x z => AuthCommit may P' call now reply x z)
      (fun _ _ _ => True) (.start now) d := by
  have hR := Acting.throws now
  simp only [authCall, auth.logout, Program.bind_eq, Program.pure_eq, wp_bind, wp_ret]
  refine wp_update hR (acting_start hd) (fun _ _ _ _ => .inr trivial)
    (fun d r _ _ => framed_revokeToken (by simp)) (fun d h _ => ?_) fun c d r h hfound => ?_
  · exact commits_step h (fun d _ => .same rfl rfl) (by rintro ⟨⟩)
  · obtain ⟨hhash, hlive⟩ := Option.filter_eq_some_iff.mp hfound
    obtain ⟨hmem, -⟩ := tokenByHash_eq_some hhash
    have h := h.learn (stable_get? (o := some r) (by simp)) (Table.get?_of_mem hmem)
    refine commits_step h (fun d hp => ?_) (by rintro ⟨⟩)
    refine .revoked [r.id] (fun q hq hin => ?_) (revokeAll_rows [r.id] d).1 rfl
    have hqr : some q = some r := by
      rw [← Table.get?_of_mem hq, List.mem_singleton.mp hin, hp.2]
    rw [Option.some.inj hqr]
    simpa using hlive

/-- Every call commits as it should. -/
theorem wp_authCall (hd : d.Sound) :
    wp (authDiscipline may) (authCall P' call)
      (Commits (authDiscipline may) fun reply _ x z => AuthCommit may P' call now reply x z)
      (fun _ _ _ => True) (.start now) d := by
  cases call with
  | register input account mintReference context => exact wp_auth_register hd
  | login input account context => exact wp_auth_login hd
  | refresh refreshTokenPlain context => exact wp_auth_refresh hd
  | logout refreshTokenPlain => exact wp_auth_logout hd

end calls

end TakaFlow
