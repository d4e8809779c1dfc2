import Mathlib.Data.List.Chain
import TakaFlow.Lib.History
import TakaFlow.Spec.Auth
import TakaFlow.System

/-!
# Session families

The tokens of a family are a chain, each one the successor of the one before and only the last
perhaps live.
-/

namespace TakaFlow

open Txn

/-! ### Chains -/

/-- The second token is the successor of the first. -/
def Succeeds (r q : RefreshToken) : Prop := r.revokedAt ≠ none ∧ r.replacedBy = some q.id

/-- The tokens of a family in the order they were issued. -/
structure Chained (rows : List RefreshToken) : Prop where
  links : rows.IsChain Succeeds
  last : ∀ r, rows.getLast? = some r → r.replacedBy = none

/-- Only the last token of a chain can be live. -/
lemma Chained.live {rows : List RefreshToken} (h : rows.IsChain Succeeds) :
    (rows.filter fun r => r.revokedAt = none).length ≤ 1 := by
  induction rows with
  | nil => exact Nat.zero_le _
  | cons r rows ih =>
    cases rows with
    | nil => exact List.length_filter_le _ _
    | cons q rows =>
      obtain ⟨⟨hrevoked, -⟩, hrest⟩ := List.isChain_cons_cons.mp h
      rw [List.filter_cons_of_neg (by simpa using hrevoked)]
      exact ih hrest

/-- A live token of a chain is its last. -/
lemma Chained.eq_append {rows : List RefreshToken} {e : RefreshToken} (h : rows.IsChain Succeeds)
    (he : e ∈ rows) (hlive : e.revokedAt = none) : ∃ rest, rows = rest ++ [e] := by
  obtain ⟨rest, tail, rfl⟩ := List.append_of_mem he
  cases tail with
  | nil => exact ⟨rest, rfl⟩
  | cons q tail =>
    obtain ⟨-, ⟨hrevoked, -⟩, -⟩ := List.isChain_append_cons_cons.mp h
    exact absurd hlive hrevoked

lemma chained_singleton {r : RefreshToken} (h : r.replacedBy = none) : Chained [r] :=
  ⟨.singleton r, fun q hq => by cases hq; exact h⟩

/-- A live last token gives way to a new one. -/
lemma Chained.rotate {rest : List RefreshToken} {e e' n : RefreshToken}
    (h : Chained (rest ++ [e])) (hid : e'.id = e.id) (he : Succeeds e' n)
    (hn : n.replacedBy = none) : Chained (rest ++ [e', n]) := by
  refine ⟨List.isChain_append_cons_cons.mpr ⟨?_, he, .singleton n⟩, ?_⟩
  · have hlinks := h.links
    rw [List.isChain_append] at hlinks ⊢
    refine ⟨hlinks.1, .singleton e', fun r hr q hq => ?_⟩
    cases hq
    obtain ⟨hrevoked, hnext⟩ := hlinks.2.2 r hr e rfl
    exact ⟨hrevoked, hid ▸ hnext⟩
  · intro r hr
    rw [List.getLast?_append_of_ne_nil _ (by simp)] at hr
    cases hr
    exact hn

/-- Revoking tokens leaves the links alone. -/
lemma Chained.revoke {rows : List RefreshToken} (h : Chained rows) (ids : List Uuid)
    (now : Timestamp) : Chained (rows.map (RefreshToken.revoke ids now)) := by
  constructor
  · refine List.isChain_map_of_isChain _ (fun r q hrq => ?_) h.links
    refine ⟨RefreshToken.revokedAt_revoke hrq.1, ?_⟩
    rw [RefreshToken.revoke_replacedBy, RefreshToken.revoke_id, hrq.2]
  · intro r hr
    rw [List.getLast?_map, Option.map_eq_some_iff] at hr
    obtain ⟨q, hq, rfl⟩ := hr
    rw [RefreshToken.revoke_replacedBy]
    exact h.last q hq

/-! ### One commit -/

/-- The tokens of every family are a chain. -/
def AuthStore.Chains (d : AuthStore) : Prop := ∀ familyId, Chained (d.tokensOf familyId)

lemma succeeds_replace {now : Timestamp} (e n : RefreshToken) :
    Succeeds (e.replace e.id now n.id) n := by
  simp [Succeeds, RefreshToken.replace]

lemma filter_map_family {f : RefreshToken → RefreshToken} (hf : ∀ r, (f r).familyId = r.familyId)
    (familyId : Uuid) (rows : List RefreshToken) :
    (rows.map f).filter (fun r => r.familyId = familyId) =
      (rows.filter fun r => r.familyId = familyId).map f := by
  rw [List.filter_map]
  congr 2
  funext r
  rw [Function.comp_apply, hf]

lemma TokenStep.chains {now : Timestamp} {x z : AuthStore} (h : TokenStep now x z) (hx : x.Sound)
    (hc : x.Chains) : z.Chains := by
  intro familyId
  cases h with
  | issued r unused family live last tokens families =>
    rw [AuthStore.tokensOf, tokens, List.filter_append]
    by_cases hf : r.familyId = familyId
    · have hnone : (x.refreshTokens.rows.filter fun q => q.familyId = familyId) = [] := by
        rw [List.filter_eq_nil_iff]
        intro q hq hqf
        have hknown := hx.known q hq
        rw [of_decide_eq_true hqf, ← hf, family] at hknown
        cases hknown
      rw [hnone, List.filter_cons_of_pos (by simpa using hf)]
      exact chained_singleton last
    · rw [List.filter_cons_of_neg (by simpa using hf), List.filter_nil, List.append_nil]
      exact hc familyId
  | rotated e n found live unused family fresh last tokens families =>
    rw [AuthStore.tokensOf, tokens, List.filter_append,
      filter_map_family fun r => r.replace_familyId _ _ _]
    have hchain := hc familyId
    by_cases hf : n.familyId = familyId
    · rw [List.filter_cons_of_pos (by simpa using hf), List.filter_nil]
      have he : e ∈ x.tokensOf familyId :=
        List.mem_filter.mpr ⟨found, by simpa using family ▸ hf⟩
      obtain ⟨rest, hrest⟩ := Chained.eq_append hchain.links he live
      rw [hrest] at hchain
      -- The other tokens of the family have other identifiers.
      have hids : ((rest ++ [e]).map RefreshToken.id).Nodup := by
        rw [← hrest]
        exact x.refreshTokens.nodup.sublist (List.filter_sublist.map _)
      have hsame : rest.map (RefreshToken.replace e.id now n.id) = rest := by
        conv_rhs => rw [← List.map_id rest]
        refine List.map_congr_left fun r hr => ?_
        rw [List.map_append, List.nodup_append] at hids
        exact if_neg (hids.2.2 _ (List.mem_map_of_mem hr) _ (by simp))
      change Chained ((x.tokensOf familyId).map _ ++ [n])
      rw [hrest, List.map_append, hsame, List.append_assoc]
      exact hchain.rotate (e.replace_id _ _ _) (succeeds_replace e n) last
    · rw [List.filter_cons_of_neg (by simpa using hf), List.filter_nil, List.append_nil]
      have hsame : (x.tokensOf familyId).map (RefreshToken.replace e.id now n.id) =
          x.tokensOf familyId := by
        conv_rhs => rw [← List.map_id (x.tokensOf familyId)]
        refine List.map_congr_left fun r hr => if_neg fun hid => hf ?_
        obtain ⟨hr, hrf⟩ := List.mem_filter.mp hr
        rw [family, ← Table.eq_of_mem hr found hid]
        exact of_decide_eq_true hrf
      change Chained ((x.tokensOf familyId).map _)
      rw [hsame]
      exact hchain
  | revoked ids live tokens families =>
    rw [AuthStore.tokensOf, tokens, filter_map_family fun r => r.revoke_familyId _ _]
    exact (hc familyId).revoke ids now

/-! ### Runs -/

/-- The states of the runs of the auth service whose steps all meet a condition. -/
def AuthReachable (P : AuthPlatform) (ok : AuthState → Event DriverError Env AuthCall → Prop)
    (s : AuthState) : Prop :=
  ∃ t, Reaches (authCall P) ok (Sys.start {} t) s

lemma sound_empty : AuthStore.Sound {} := ⟨nofun, nofun⟩

section runs

variable {P : AuthPlatform} {s : AuthState} {may : ℕ → AuthStore → AuthToken → Prop}
  {ok : AuthState → Event DriverError Env AuthCall → Prop}

/-- The invariant of all runs. -/
lemma AuthReachable.inv (hok : ∀ s e, ok s e → s.Admits (authDiscipline may) e)
    (h : AuthReachable P ok s) :
    s.Inv (authDiscipline may) (fun call now reply _ x z => AuthCommit may P call now reply x z)
      {} := by
  obtain ⟨t, h⟩ := h
  exact h.inv_of (I := AuthStore.Sound) (fun d d' hl hd => (hl hd).sound) sound_empty
    (fun call now d hd => wp_authCall hd) hok

lemma AuthReachable.evolves (hok : ∀ s e, ok s e → s.Admits (authDiscipline may) e)
    (h : AuthReachable P ok s) :
    ∀ r ∈ s.history, r.before.Sound ∧ r.before.Evolves r.after := by
  intro r hr
  have hinv := h.inv hok
  have hsound := (hinv.linked.invariant_mem (I := AuthStore.Sound) sound_empty
    (fun q hq hd => ((hinv.commits q hq).2 hd).sound) r hr).1
  exact ⟨hsound, (hinv.commits r hr).2 hsound⟩

end runs

/-! ### Single use -/

/-- The successor recorded for a token. -/
def AuthStore.successor (d : AuthStore) (id : Uuid) : Option Uuid :=
  (d.refreshTokens.get? id).bind RefreshToken.replacedBy

/-- The commit changes the successor of the token. -/
def AuthRotates (id : Uuid) (r : AuthRecord) : Bool :=
  r.after.successor id ≠ r.before.successor id

/-- Sessions are for single use. -/
structure SingleUse (s : AuthState) : Prop where
  live : ∀ familyId,
    ((s.db.tokensOf familyId).filter fun r => r.revokedAt = none).length ≤ 1
  chained : ∀ familyId, Chained (s.db.tokensOf familyId)
  rotated : ∀ id, (s.history.filter (AuthRotates id)).length ≤ 1

/-- A successor is there for good. -/
lemma AuthStore.Evolves.successor {d d' : AuthStore} (h : d.Evolves d') (hd : d.Sound) {id q : Uuid}
    (hq : d.successor id = some q) : d'.successor id = some q := by
  obtain ⟨r, hr, hnext⟩ := Option.bind_eq_some_iff.mp hq
  have hmem := Table.mem_of_get? hr
  have hrevoked := hd.replaced r hmem (by rw [hnext]; nofun)
  have hr' := Table.get?_of_mem (h.mem_of_revoked hmem hrevoked)
  rw [Table.key_of_get? hr] at hr'
  rw [AuthStore.successor, hr']
  exact hnext

/-- In every run sessions are for single use, whatever is concurrent. -/
theorem sessions_hold {P : AuthPlatform} {s : AuthState}
    (h : AuthReachable P (fun _ _ => True) s) : SingleUse s := by
  have hok : ∀ (s : AuthState) (e : Event DriverError Env AuthCall), True →
      s.Admits (authDiscipline fun _ _ _ => True) e := by
    intro s e _
    cases e with
    | step i x => exact fun _ _ _ _ => ⟨trivial, nofun⟩
    | _ => trivial
  have hinv := h.inv hok
  have hchains : ∀ familyId, Chained (s.db.tokensOf familyId) := by
    refine (hinv.linked.invariant (I := fun d => d.Sound ∧ d.Chains)
      ⟨sound_empty, fun _ => ⟨.nil, nofun⟩⟩ fun r hr hd => ?_).2
    obtain ⟨hcommit, hlater⟩ := hinv.commits r hr
    exact ⟨(hlater hd.1).sound, hcommit.step.chains hd.1 hd.2⟩
  refine ⟨fun familyId => Chained.live (hchains familyId).links, hchains, fun id => ?_⟩
  -- The commits that changed the successor are as many as there are successors.
  have hcount : (s.history.filter (AuthRotates id)).length = (s.db.successor id).toList.length := by
    refine hinv.linked.accumulate (I := fun done d =>
      (done.filter (AuthRotates id)).length = (d.successor id).toList.length) rfl
      fun done r hr hdone => ?_
    obtain ⟨hsound, hevolves⟩ := h.evolves hok r hr
    rw [List.filter_append, List.length_append, hdone]
    cases hb : r.before.successor id with
    | some q =>
      have ha := hevolves.successor hsound hb
      have hnot : AuthRotates id r = false := by simp [AuthRotates, ha, hb]
      simp [hnot, ha]
    | none =>
      cases ha : r.after.successor id with
      | none =>
        have hnot : AuthRotates id r = false := by simp [AuthRotates, ha, hb]
        simp [hnot]
      | some q =>
        have hyes : AuthRotates id r = true := by simp [AuthRotates, ha, hb]
        simp [hyes]
  rw [hcount]
  cases s.db.successor id <;> simp

/-! ### Reuse -/

/-- After a refresh that detects reuse the family of its token has no live token any more. -/
def ReuseEndsFamily (P : AuthPlatform) (s : AuthState) : Prop :=
  ∀ (earlier : List AuthRecord) (r : AuthRecord) (later : List AuthRecord),
    s.history = earlier ++ r :: later → ∀ refreshTokenPlain context,
      r.call = .refresh refreshTokenPlain context → r.reply = .refreshed .reuseDetected →
        ∃ e ∈ r.before.refreshTokens, e.tokenHash = P.sha256 refreshTokenPlain ∧
          ∀ d ∈ r.after :: later.map Commit.after, ∀ q ∈ d.refreshTokens,
            q.familyId = e.familyId → q.revokedAt ≠ none

/-- A token that the revoking `UPDATE` found live, and finds revoked now that it gets to it, has
not given way to another one. -/
def NotRotatedMeanwhile (s : AuthState) : Event DriverError Env AuthCall → Prop
  | .step i x => ∀ id, .passed id ∈ s.acquires i x →
      ∀ r ∈ s.db.refreshTokens, r.id = id → r.replacedBy = none
  | _ => True

/-- Of a family of which all tokens are revoked. -/
structure AuthStore.Over (familyId : Uuid) (d : AuthStore) : Prop where
  sound : d.Sound
  begun : ∃ e ∈ d.refreshTokens, e.familyId = familyId
  revoked : ∀ q ∈ d.refreshTokens, q.familyId = familyId → q.revokedAt ≠ none

/-- A family that is over stays so. -/
lemma AuthStore.Over.evolves {familyId : Uuid} {d d' : AuthStore} (h : d.Over familyId)
    (hev : d.Evolves d') : d'.Over familyId := by
  obtain ⟨e, he, hfamily⟩ := h.begun
  refine ⟨hev.sound, ?_, fun q hq hqf hlive => ?_⟩
  · obtain ⟨e', he', -, hf, -⟩ := hev.kept e he
    exact ⟨e', he', hf.trans hfamily⟩
  · cases hp : d.refreshTokens.get? q.id with
    | some p =>
      have hmem := Table.mem_of_get? hp
      obtain ⟨hplive, hpf⟩ := hev.live_of_live hmem hq (Table.key_of_get? hp).symm hlive
      exact h.revoked p hmem (hpf.symm.trans hqf) hplive
    | none =>
      obtain ⟨p, hmem, hpf, hplive, -⟩ := hev.grown q hq hp e he (hfamily.trans hqf.symm)
      exact h.revoked p hmem (hpf.trans hqf) hplive

/-- If no token gives way to another one between the start of a revocation and its turn there,
a detected reuse ends the family for good. -/
theorem reuse_holds {P : AuthPlatform} {s : AuthState} (h : AuthReachable P NotRotatedMeanwhile s) :
    ReuseEndsFamily P s := by
  let may : ℕ → AuthStore → AuthToken → Prop := fun _ d l =>
    ∀ id, l = .passed id → ∀ r ∈ d.refreshTokens, r.id = id → r.replacedBy = none
  have hprudent : Prudent may := fun _ _ id hmay => hmay id rfl
  have hok : ∀ s e, NotRotatedMeanwhile s e → s.Admits (authDiscipline may) e := by
    intro s e hnot
    cases e with
    | step i x =>
      intro ss hss l hl
      refine ⟨?_, nofun⟩
      rintro id rfl
      exact hnot id hl
    | _ => trivial
  have hinv := h.inv hok
  intro earlier r later hhistory refreshTokenPlain context hcall hreply
  have hr : r ∈ s.history := by rw [hhistory]; simp
  obtain ⟨e, he, hhash, hended⟩ :=
    (hinv.commits r hr).1.reuse refreshTokenPlain context hcall hreply hprudent
  refine ⟨e, he, hhash, ?_⟩
  obtain ⟨-, hevolves⟩ := h.evolves hok r hr
  have hover : r.after.Over e.familyId := by
    obtain ⟨e', he', -, hf, -⟩ := hevolves.kept e he
    exact ⟨hevolves.sound, ⟨e', he', hf⟩, hended⟩
  have hlinked := hinv.linked
  rw [hhistory] at hlinked
  obtain ⟨d, -, -, hlater⟩ := hlinked.split
  have hafter := hlater.invariant_mem (I := AuthStore.Over e.familyId) hover fun q hq hd =>
    hd.evolves (h.evolves hok q (by rw [hhistory]; simp [hq])).2
  intro d hd
  rcases List.mem_cons.mp hd with rfl | hd
  · exact hover.revoked
  · obtain ⟨q, hq, rfl⟩ := List.mem_map.mp hd
    exact (hafter q hq).2.revoked

/-! ### Two runs -/

/-- A platform on which a token is a letter. -/
def authSample : AuthPlatform :=
  { sample with
    base64url := fun bytes =>
      String.ofList ((bytes.take 1).map fun b => Char.ofNat (65 + b.val))
    verifySecret := fun hash plain => hash == plain }

/-- `n` steps of session `i`, which draw identifiers from `k` on and the letter `byte`. -/
def authAdvance (i n k : ℕ) (byte : Fin 256) : List (Event DriverError Env AuthCall) :=
  (List.range n).map fun j =>
    .step i { uuid := k + j, serial := k + j, bytes := fun _ => byte }

/-- A registration under token `A`, which is rotated to `B`. -/
def rotatedOnce : List (Event DriverError Env AuthCall) :=
  .begin (.register ⟨"01711111111", "Asha", "", ""⟩ ⟨9, 0⟩ "TF" {}) :: authAdvance 0 5 100 0 ++
    [.finish 0, .begin (.refresh "A" {})] ++ authAdvance 1 6 200 1 ++ [.finish 1]

/-- `B` is rotated to `C` while `A` is presented again: the rotation is committed after the
revocation has looked for the live tokens. -/
def reuseRun : List (Event DriverError Env AuthCall) :=
  rotatedOnce ++ [.begin (.refresh "B" {}), .begin (.refresh "A" {})] ++ authAdvance 2 6 300 2 ++
    authAdvance 3 2 400 3 ++ [.finish 2] ++ authAdvance 3 2 400 3 ++ [.finish 3]

/-- Where that run leads, with some steps left out. -/
def AuthState.after (allowed : AuthState → Event DriverError Env AuthCall → Bool)
    (events : List (Event DriverError Env AuthCall)) : AuthState :=
  (Sys.start {} 1800000000000000).play (authCall authSample) allowed events

/-- The tokens of both runs are in one chain. -/
theorem sessions_hold_reuseRun :
    (AuthState.after (fun _ _ => true) reuseRun).db.refreshTokens.rows.map
        (fun r => (r.id, r.replacedBy)) = [(104, some 204), (204, some 304), (304, none)] ∧
      SingleUse (AuthState.after (fun _ _ => true) reuseRun) :=
  ⟨by decide +kernel, sessions_hold ⟨_, .play (fun _ _ _ => trivial) _ .refl⟩⟩

/-- Does the record detect that the token was used before? -/
def detectsReuse (refreshTokenPlain : String) (r : AuthRecord) : Bool :=
  match r.call, r.reply with
  | .refresh presented _, .refreshed .reuseDetected => presented = refreshTokenPlain
  | _, _ => false

lemma of_detectsReuse {refreshTokenPlain : String} {r : AuthRecord}
    (h : detectsReuse refreshTokenPlain r = true) :
    (∃ context, r.call = .refresh refreshTokenPlain context) ∧
      r.reply = .refreshed .reuseDetected := by
  unfold detectsReuse at h
  split at h
  · rename_i presented context hcall hreply
    rw [of_decide_eq_true h] at hcall
    exact ⟨⟨context, hcall⟩, hreply⟩
  · cases h

/-- `B` gives way to `C` between the start of the revocation and its turn: `C` stays live. -/
theorem reuse_escapes : ∃ s : AuthState,
    AuthReachable authSample (fun _ _ => True) s ∧ ¬ ReuseEndsFamily authSample s := by
  refine ⟨AuthState.after (fun _ _ => true) reuseRun,
    ⟨_, .play (fun _ _ _ => trivial) _ .refl⟩, fun h => ?_⟩
  have hlast : ((AuthState.after (fun _ _ => true) reuseRun).history.getLast?.any fun r =>
      detectsReuse "A" r && r.before.refreshTokens.rows.all fun e =>
        r.after.refreshTokens.rows.any fun q =>
          q.familyId = e.familyId && q.revokedAt = none) = true := by decide +kernel
  obtain ⟨r, hr, hcheck⟩ := (Option.any_eq_true _ _).mp hlast
  obtain ⟨earlier, hhistory⟩ := List.getLast?_eq_some_iff.mp hr
  obtain ⟨hdetects, hall⟩ := Bool.and_eq_true_iff.mp hcheck
  obtain ⟨⟨context, hcall⟩, hreply⟩ := of_detectsReuse hdetects
  obtain ⟨e, he, -, hended⟩ := h earlier r [] hhistory "A" context hcall hreply
  obtain ⟨q, hq, hlive⟩ := List.any_eq_true.mp (List.all_eq_true.mp hall e he)
  obtain ⟨hfamily, hlive⟩ := Bool.and_eq_true_iff.mp hlive
  exact hended r.after List.mem_cons_self q hq (of_decide_eq_true hfamily) (of_decide_eq_true hlive)

/-- Is the step not one that passes over a token with a successor? -/
def notRotatedMeanwhile (s : AuthState) : Event DriverError Env AuthCall → Bool
  | .step i x => (s.acquires i x).all fun
    | .passed id => s.db.refreshTokens.rows.all fun r => r.id ≠ id || r.replacedBy = none
    | _ => true
  | _ => true

lemma of_notRotatedMeanwhile {s : AuthState} {e : Event DriverError Env AuthCall}
    (h : notRotatedMeanwhile s e = true) : NotRotatedMeanwhile s e := by
  cases e with
  | step i x =>
    intro id hid r hr hrid
    have hall := List.all_eq_true.mp (List.all_eq_true.mp h _ hid) r hr
    simpa [hrid] using hall
  | _ => trivial

/-- The revocation that would pass over `B` does not take place, and the next one ends the
family. -/
def heldRun : List (Event DriverError Env AuthCall) :=
  reuseRun ++ [.crash 3, .begin (.refresh "A" {})] ++ authAdvance 4 5 500 4 ++ [.finish 4]

theorem reuse_holds_heldRun :
    (AuthState.after notRotatedMeanwhile heldRun).history.map (detectsReuse "A") =
        [false, false, false, true] ∧
      ReuseEndsFamily authSample (AuthState.after notRotatedMeanwhile heldRun) :=
  ⟨by decide +kernel,
    reuse_holds ⟨_, .play (fun _ _ h => of_notRotatedMeanwhile h) _ .refl⟩⟩

end TakaFlow
