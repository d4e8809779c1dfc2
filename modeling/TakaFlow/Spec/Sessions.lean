import TakaFlow.Auth
import TakaFlow.Lib.Rules

/-!
# What the auth service commits

What a commit does to the refresh tokens, what later states keep of them, and that every call
commits such a step.
-/

namespace TakaFlow

open Txn

/-! ### Later states -/

/-- Every family is one `randomUUID` has handed out, and a token with a successor is revoked. -/
structure AuthStore.Sound (d : AuthStore) : Prop where
  known : ∀ r ∈ d.refreshTokens, d.families.has r.familyId = true
  replaced : ∀ r ∈ d.refreshTokens, r.replacedBy ≠ none → r.revokedAt ≠ none

/-- How the tokens move: they stay in their family, a revoked one stays as it is, and a new one
in a family that has tokens takes the place of one that was not revoked. -/
structure AuthStore.Evolves (d d' : AuthStore) : Prop where
  sound : d'.Sound
  kept : ∀ r ∈ d.refreshTokens, ∃ r' ∈ d'.refreshTokens, r'.id = r.id ∧
    r'.familyId = r.familyId ∧ (r.revokedAt ≠ none → r' = r)
  grown : ∀ r' ∈ d'.refreshTokens, d.refreshTokens.get? r'.id = none →
    ∀ e ∈ d.refreshTokens, e.familyId = r'.familyId →
      ∃ q ∈ d.refreshTokens, q.familyId = r'.familyId ∧ q.revokedAt = none ∧
        ∃ q' ∈ d'.refreshTokens, q'.id = q.id ∧ q'.replacedBy ≠ none

namespace AuthStore.Evolves

variable {d d' d'' : AuthStore}

lemma refl (h : d.Sound) : d.Evolves d where
  sound := h
  kept r hr := ⟨r, hr, rfl, rfl, fun _ => rfl⟩
  grown r hr hnone := by
    rw [Table.get?_of_mem hr] at hnone
    cases hnone

/-- A revoked token is there for good. -/
lemma mem_of_revoked (h : d.Evolves d') {r : RefreshToken} (hr : r ∈ d.refreshTokens)
    (hrevoked : r.revokedAt ≠ none) : r ∈ d'.refreshTokens := by
  obtain ⟨r', hr', -, -, hsame⟩ := h.kept r hr
  exact hsame hrevoked ▸ hr'

/-- A token that is not revoked was not revoked before. -/
lemma live_of_live (h : d.Evolves d') {r r' : RefreshToken} (hr : r ∈ d.refreshTokens)
    (hr' : r' ∈ d'.refreshTokens) (hid : r'.id = r.id) (hlive : r'.revokedAt = none) :
    r.revokedAt = none ∧ r'.familyId = r.familyId := by
  obtain ⟨q, hq, hqid, hfamily, hsame⟩ := h.kept r hr
  have hqr : q = r' := Table.eq_of_mem hq hr' (hqid.trans hid.symm)
  subst hqr
  refine ⟨?_, hfamily⟩
  by_contra hrevoked
  rw [hsame hrevoked] at hlive
  exact hrevoked hlive

lemma trans (h : d.Evolves d') (h' : d'.Evolves d'') : d.Evolves d'' where
  sound := h'.sound
  kept r hr := by
    obtain ⟨r', hr', hid, hfamily, hsame⟩ := h.kept r hr
    obtain ⟨r'', hr'', hid', hfamily', hsame'⟩ := h'.kept r' hr'
    refine ⟨r'', hr'', hid'.trans hid, hfamily'.trans hfamily, fun hrevoked => ?_⟩
    have hr := hsame hrevoked
    subst hr
    exact hsame' hrevoked
  grown r'' hr'' hnone e he hfamily := by
    -- The one it takes the place of was there before, or took the place of another one.
    have hfirst : ∀ q ∈ d'.refreshTokens, q.familyId = r''.familyId → q.revokedAt = none →
        (∃ q' ∈ d''.refreshTokens, q'.id = q.id ∧ q'.replacedBy ≠ none) →
        ∃ p ∈ d.refreshTokens, p.familyId = r''.familyId ∧ p.revokedAt = none ∧
          ∃ p' ∈ d''.refreshTokens, p'.id = p.id ∧ p'.replacedBy ≠ none := by
      intro q hq hqfamily hqlive hqnext
      cases hqd : d.refreshTokens.get? q.id with
      | some p =>
        have hp := Table.mem_of_get? hqd
        have hid : q.id = p.id := (Table.key_of_get? hqd).symm
        obtain ⟨hlive, hpfamily⟩ := h.live_of_live hp hq hid hqlive
        exact ⟨p, hp, hpfamily.symm.trans hqfamily, hlive, hid ▸ hqnext⟩
      | none =>
        obtain ⟨p, hp, hpfamily, hplive, p', hp', hpid, hpnext⟩ :=
          h.grown q hq hqd e he (hfamily.trans hqfamily.symm)
        have hrevoked := h.sound.replaced p' hp' hpnext
        exact ⟨p, hp, hpfamily.trans hqfamily, hplive, p', h'.mem_of_revoked hp' hrevoked, hpid,
          hpnext⟩
    cases hr' : d'.refreshTokens.get? r''.id with
    | some r' =>
      have hmem := Table.mem_of_get? hr'
      have hid : r'.id = r''.id := Table.key_of_get? hr'
      obtain ⟨q, hq, hqid, hqfamily, -⟩ := h'.kept r' hmem
      have hqr : q = r'' := Table.eq_of_mem hq hr'' (hqid.trans hid)
      subst hqr
      obtain ⟨p, hp, hpfamily, hplive, p', hp', hpid, hpnext⟩ :=
        h.grown r' hmem (hid ▸ hnone) e he (hfamily.trans hqfamily)
      have hrevoked := h.sound.replaced p' hp' hpnext
      exact ⟨p, hp, hpfamily.trans hqfamily.symm, hplive, p', h'.mem_of_revoked hp' hrevoked, hpid,
        hpnext⟩
    | none =>
      obtain ⟨e', he', -, hefamily, -⟩ := h.kept e he
      obtain ⟨q, hq, hqfamily, hqlive, hqnext⟩ :=
        h'.grown r'' hr'' hr' e' he' (hefamily.trans hfamily)
      exact hfirst q hq hqfamily hqlive hqnext

end AuthStore.Evolves

/-! ### Commits -/

/-- A token with `revoked_at` set, if it is one of these. -/
def RefreshToken.revoke (ids : List Uuid) (now : Timestamp) (r : RefreshToken) : RefreshToken :=
  if r.id ∈ ids then { r with revokedAt := some now } else r

/-- A token with its successor, if it is this one. -/
def RefreshToken.replace (id : Uuid) (now : Timestamp) (replacedBy : Uuid) (r : RefreshToken) :
    RefreshToken :=
  if r.id = id then { r with revokedAt := some now, replacedBy := some replacedBy } else r

/-- What a commit does to the refresh tokens. -/
inductive TokenStep (now : Timestamp) (x z : AuthStore) : Prop where
  /-- The first token of a new family. -/
  | issued (r : RefreshToken) (unused : x.refreshTokens.get? r.id = none)
      (family : x.families.has r.familyId = false) (live : r.revokedAt = none)
      (last : r.replacedBy = none) (tokens : z.refreshTokens.rows = x.refreshTokens.rows ++ [r])
      (families : z.families = x.families.insert r.familyId)
  /-- A live token gives way to a new one. -/
  | rotated (e n : RefreshToken) (found : e ∈ x.refreshTokens) (live : e.revokedAt = none)
      (unused : x.refreshTokens.get? n.id = none) (family : n.familyId = e.familyId)
      (fresh : n.revokedAt = none) (last : n.replacedBy = none)
      (tokens : z.refreshTokens.rows =
        x.refreshTokens.rows.map (RefreshToken.replace e.id now n.id) ++ [n])
      (families : z.families = x.families)
  /-- Some live tokens, perhaps none, are revoked. -/
  | revoked (ids : List Uuid)
      (live : ∀ r ∈ x.refreshTokens, r.id ∈ ids → r.revokedAt = none)
      (tokens : z.refreshTokens.rows = x.refreshTokens.rows.map (RefreshToken.revoke ids now))
      (families : z.families = x.families)

section

variable (ids : List Uuid) (id : Uuid) (now : Timestamp) (replacedBy : Uuid) (r : RefreshToken)

@[simp] lemma RefreshToken.revoke_id : (r.revoke ids now).id = r.id := by
  unfold revoke
  split <;> rfl

@[simp] lemma RefreshToken.revoke_familyId : (r.revoke ids now).familyId = r.familyId := by
  unfold revoke
  split <;> rfl

@[simp] lemma RefreshToken.revoke_replacedBy : (r.revoke ids now).replacedBy = r.replacedBy := by
  unfold revoke
  split <;> rfl

lemma RefreshToken.revokedAt_revoke {ids : List Uuid} {now : Timestamp} {r : RefreshToken}
    (h : r.revokedAt ≠ none) : (r.revoke ids now).revokedAt ≠ none := by
  unfold revoke
  split
  · nofun
  · exact h

@[simp] lemma RefreshToken.replace_id : (r.replace id now replacedBy).id = r.id := by
  unfold replace
  split <;> rfl

@[simp] lemma RefreshToken.replace_familyId :
    (r.replace id now replacedBy).familyId = r.familyId := by
  unfold replace
  split <;> rfl

end

namespace TokenStep

variable {now : Timestamp} {x z : AuthStore}

lemma same (ht : z.refreshTokens = x.refreshTokens) (hf : z.families = x.families) :
    TokenStep now x z :=
  .revoked [] nofun (by rw [ht]; exact (List.map_id _).symm) hf

/-- The tokens move as they may. -/
lemma evolves (h : TokenStep now x z) (hx : x.Sound) : x.Evolves z := by
  cases h with
  | issued r unused family live last tokens families =>
    have hmem : ∀ q, q ∈ z.refreshTokens ↔ q ∈ x.refreshTokens ∨ q = r := by
      intro q
      rw [Table.mem_def, tokens, List.mem_append, List.mem_singleton, ← Table.mem_def]
    refine ⟨⟨?_, ?_⟩, ?_, ?_⟩
    · intro q hq
      rw [families, Table.has_insert, Bool.or_eq_true, decide_eq_true_eq]
      rcases (hmem q).mp hq with hq | rfl
      · exact .inl (hx.known q hq)
      · exact .inr rfl
    · intro q hq hnext
      rcases (hmem q).mp hq with hq | rfl
      · exact hx.replaced q hq hnext
      · exact absurd last hnext
    · intro q hq
      exact ⟨q, (hmem q).mpr (.inl hq), rfl, rfl, fun _ => rfl⟩
    · intro q hq hnone e he hfamily
      rcases (hmem q).mp hq with hq | rfl
      · rw [Table.get?_of_mem hq] at hnone
        cases hnone
      · have hknown := hx.known e he
        rw [hfamily, family] at hknown
        cases hknown
  | rotated e n found live unused family fresh last tokens families =>
    have hmem : ∀ q, q ∈ z.refreshTokens ↔
        (∃ p ∈ x.refreshTokens, p.replace e.id now n.id = q) ∨ q = n := by
      intro q
      rw [Table.mem_def, tokens, List.mem_append, List.mem_singleton, List.mem_map]
      rfl
    refine ⟨⟨?_, ?_⟩, ?_, ?_⟩
    · intro q hq
      rw [families]
      rcases (hmem q).mp hq with ⟨p, hp, rfl⟩ | rfl
      · rw [RefreshToken.replace_familyId]
        exact hx.known p hp
      · rw [family]
        exact hx.known e found
    · intro q hq hnext
      rcases (hmem q).mp hq with ⟨p, hp, rfl⟩ | rfl
      · unfold RefreshToken.replace at hnext ⊢
        split at hnext
        · rw [if_pos ‹_›]
          nofun
        · rw [if_neg ‹_›]
          exact hx.replaced p hp hnext
      · exact absurd last hnext
    · intro q hq
      refine ⟨q.replace e.id now n.id, (hmem _).mpr (.inl ⟨q, hq, rfl⟩), q.replace_id _ _ _,
        q.replace_familyId _ _ _, fun hrevoked => ?_⟩
      have hne : q.id ≠ e.id := by
        intro hid
        rw [Table.eq_of_mem hq found hid] at hrevoked
        exact hrevoked live
      exact if_neg hne
    · intro q hq hnone p hp hfamily
      rcases (hmem q).mp hq with ⟨p, hp, rfl⟩ | rfl
      · rw [RefreshToken.replace_id, Table.get?_of_mem hp] at hnone
        cases hnone
      · refine ⟨e, found, family.symm, live, e.replace e.id now q.id,
          (hmem _).mpr (.inl ⟨e, found, rfl⟩), e.replace_id _ _ _, ?_⟩
        unfold RefreshToken.replace
        rw [if_pos rfl]
        nofun
  | revoked ids live tokens families =>
    have hmem : ∀ q, q ∈ z.refreshTokens ↔ ∃ p ∈ x.refreshTokens, p.revoke ids now = q := by
      intro q
      rw [Table.mem_def, tokens, List.mem_map]
      rfl
    refine ⟨⟨?_, ?_⟩, ?_, ?_⟩
    · intro q hq
      obtain ⟨p, hp, rfl⟩ := (hmem q).mp hq
      rw [families, RefreshToken.revoke_familyId]
      exact hx.known p hp
    · intro q hq hnext
      obtain ⟨p, hp, rfl⟩ := (hmem q).mp hq
      rw [RefreshToken.revoke_replacedBy] at hnext
      exact RefreshToken.revokedAt_revoke (hx.replaced p hp hnext)
    · intro q hq
      refine ⟨q.revoke ids now, (hmem _).mpr ⟨q, hq, rfl⟩, q.revoke_id _ _, q.revoke_familyId _ _,
        fun hrevoked => ?_⟩
      have hnot : q.id ∉ ids := fun hin => hrevoked (live q hq hin)
      exact if_neg hnot
    · intro q hq hnone
      obtain ⟨p, hp, rfl⟩ := (hmem q).mp hq
      rw [RefreshToken.revoke_id, Table.get?_of_mem hp] at hnone
      cases hnone

end TokenStep

namespace AuthStore

variable (d : AuthStore) {id id' : Uuid} (hne : id' ≠ id)
include hne

lemma get?_replaceToken {now : Timestamp} {replacedBy : Uuid} :
    (d.replaceToken id now replacedBy).refreshTokens.get? id' = d.refreshTokens.get? id' := by
  unfold replaceToken
  rw [Table.get?_modify_of_ne hne]

lemma get?_revokeToken {now : Timestamp} :
    (d.revokeToken id now).refreshTokens.get? id' = d.refreshTokens.get? id' := by
  unfold revokeToken
  rw [Table.get?_modify_of_ne hne]

end AuthStore

/-! ### The discipline -/

/-- What a token protects. Nothing else is needed of the other locks. -/
def AuthAgree : AuthToken → AuthStore → AuthStore → Prop
  | .refreshToken id, d, d' => d'.refreshTokens.get? id = d.refreshTokens.get? id
  | .family id, d, d' => d.families.has id = false → d'.families.has id = false
  | _, _, _ => True

/-- The discipline of the auth service. `may` is a condition on the runs considered. -/
def authDiscipline (may : ℕ → AuthStore → AuthToken → Prop) : Discipline AuthStore AuthToken where
  lock l := l.isLock = true
  watched _ := False
  may := may
  agree := AuthAgree
  mono d d' := d.Sound → d.Evolves d'
  mayWait _ _ := True
  agree_refl l d := by
    cases l with
    | refreshToken id => rfl
    | family id => exact fun h => h
    | _ => trivial
  agree_trans l d d' d'' h h' := by
    cases l with
    | refreshToken id => exact h'.trans h
    | family id => exact fun hn => h' (h hn)
    | _ => trivial
  mono_refl d := .refl
  mono_trans d d' d'' h h' := fun hd => (h hd).trans (h' (h hd).sound)

/-- The tokens and the families stay as they are. -/
def Apart (w : AuthStore → AuthStore) : Prop :=
  ∀ d, (w d).refreshTokens = d.refreshTokens ∧ (w d).families = d.families

lemma TokenStep.comp {now : Timestamp} {x z : AuthStore} {w : AuthStore → AuthStore}
    (h : TokenStep now x z) (hw : Apart w) : TokenStep now x (w z) := by
  obtain ⟨ht, hf⟩ := hw z
  cases h with
  | issued r unused family live last tokens families =>
    exact .issued r unused family live last (ht ▸ tokens) (hf ▸ families)
  | rotated e n found live unused family fresh last tokens families =>
    exact .rotated e n found live unused family fresh last (ht ▸ tokens) (hf ▸ families)
  | revoked ids live tokens families => exact .revoked ids live (ht ▸ tokens) (hf ▸ families)

section frames

variable {may : ℕ → AuthStore → AuthToken → Prop} {held : List AuthToken}
  {w : AuthStore → AuthStore}

lemma framed_apart (hw : Apart w) : (authDiscipline may).Framed held w := by
  intro l _ _ d
  obtain ⟨ht, hf⟩ := hw d
  cases l with
  | refreshToken id => exact congrArg (Table.get? · id) ht
  | family id =>
    intro h
    rw [hf]
    exact h
  | _ => trivial

lemma framed_insertFamily {id : Uuid} (hid : .family id ∈ held) :
    (authDiscipline may).Framed held fun d => d.insertFamily id := by
  intro l _ hl d
  cases l with
  | refreshToken id => rfl
  | family id' =>
    intro h
    have hne : id ≠ id' := by
      rintro rfl
      exact hl hid
    change (d.families.insert id).has id' = false
    rw [Table.has_insert, h]
    simpa using hne
  | _ => trivial

lemma framed_insertRefreshToken {r : RefreshToken} (hr : .refreshToken r.id ∈ held) :
    (authDiscipline may).Framed held fun d => d.insertToken r := by
  intro l _ hl d
  cases l with
  | refreshToken id =>
    have hne : r.id ≠ id := by
      rintro rfl
      exact hl hr
    exact Table.get?_insert_of_ne hne
  | family id => exact fun h => h
  | _ => trivial

lemma framed_replaceToken {id replacedBy : Uuid} {now : Timestamp}
    (hid : .refreshToken id ∈ held) :
    (authDiscipline may).Framed held fun d => d.replaceToken id now replacedBy := by
  intro l _ hl d
  cases l with
  | refreshToken id' =>
    have hne : id' ≠ id := by
      rintro rfl
      exact hl hid
    exact d.get?_replaceToken hne
  | family id => exact fun h => h
  | _ => trivial

lemma framed_revokeToken {id : Uuid} {now : Timestamp} (hid : .refreshToken id ∈ held) :
    (authDiscipline may).Framed held fun d => d.revokeToken id now := by
  intro l _ hl d
  cases l with
  | refreshToken id' =>
    have hne : id' ≠ id := by
      rintro rfl
      exact hl hid
    exact d.get?_revokeToken hne
  | family id => exact fun h => h
  | _ => trivial

end frames

end TakaFlow
