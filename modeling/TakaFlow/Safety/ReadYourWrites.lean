import TakaFlow.ReadRouter

/-!
# Read your writes

A read for a user shows the tracked transactions of that user that had returned, as long as Redis
answers in time and keeps the highest position, and the replica is not asked between the position of
a transaction and its commit record. Without a replica it always does.
-/

namespace TakaFlow

/-- Every answer shows what it has to, and without Redis the primary gives it. -/
structure ReadsOwnWrites (s : RouterState) : Prop where
  shown : ∀ r ∈ s.reads, ∀ servedBy visible, r.phase = .served servedBy visible →
    ∀ j ∈ r.owed, j ∈ visible
  degraded : ∀ r ∈ s.reads, ∀ servedBy visible, r.phase = .served servedBy visible →
    r.userId ≠ none → r.unanswered = true → servedBy = .primary

/-- Redis stored the position for the user not longer ago than positions are kept. -/
def TrackedWrite.IsKept (w : TrackedWrite) (userId : Uuid) (now : Timestamp) : Prop :=
  ∃ p ∈ w.published, p.1 = userId ∧ now < p.2 + writeTrackingTtl

instance (w : TrackedWrite) (userId : Uuid) (now : Timestamp) : Decidable (w.IsKept userId now) :=
  inferInstanceAs (Decidable (∃ p ∈ w.published, _))

/-- Where there is a replica, Redis answers a read for a user after it has stored the positions that
the read has to wait for and before they expire. It loses no position, and none replaces a higher
one. When the replica is asked, its position is not between the one of a transaction that the read
has to show and the commit record. -/
def KeepsTrack (replica : Bool) (s : RouterState) (e : RouterStep) : Prop :=
  replica = true →
    match e with
    | .lose userId => s.get userId = none
    | .publish i userId => ∀ w ∈ s.writes[i]?, ∀ lsn ∈ w.lsn, ∀ stored ∈ s.get userId, stored ≤ lsn
    | .lookup i answered => ∀ r ∈ s.reads[i]?, ∀ u ∈ r.userId, answered = true ∧
        ∀ j ∈ r.owed, ∀ w ∈ s.writes[j]?, w.IsKept u s.now
    | .check i => ∀ r ∈ s.reads[i]?, ∀ j ∈ r.owed, ∀ w ∈ s.writes[j]?, ∀ lsn ∈ w.lsn,
        ∀ record ∈ w.record, ¬ (lsn ≤ s.walReplayLsn ∧ s.walReplayLsn < record)
    | _ => True

/-! ### One step -/

section

variable {replica : Bool} {s s' : RouterState} {e : RouterStep} {i j : ℕ}

/-- What a step can be. -/
inductive RouterMove (replica : Bool) (s : RouterState) : RouterStep → RouterState → Prop where
  | tick (n : ℕ) : RouterMove replica s (.tick n) { s with now := s.now + n }
  | append (n : ℕ) :
      RouterMove replica s (.append n) { s with walInsertLsn := s.walInsertLsn + n }
  | replay (n : ℕ) :
      RouterMove replica s (.replay n) { s with walReplayLsn := s.walReplayLsn + n }
  | lose (userId : Uuid) :
      RouterMove replica s (.lose userId) { s with redis := Function.update s.redis userId none }
  | begin : RouterMove replica s .begin { s with writes := s.writes ++ [{}] }
  | write {e : RouterStep} {i : ℕ} {w w' : TrackedWrite} {lsn : Lsn} (hi : s.writes[i]? = some w)
      (unrecorded : w.record = none) (published : w'.published = w.published)
      (returned : w'.returnedAt = w.returnedAt) :
      RouterMove replica s e { s.putWrite i w' with walInsertLsn := lsn }
  | publish {i : ℕ} {userId : Uuid} {w : TrackedWrite} {lsn : Lsn} (hi : s.writes[i]? = some w)
      (hlsn : w.lsn = some lsn) (recorded : w.record ≠ none) :
      RouterMove replica s (.publish i userId)
        ((s.putWrite i { w with published := (userId, s.now) :: w.published }).set userId lsn)
  | finish {i : ℕ} {w : TrackedWrite} (hi : s.writes[i]? = some w) (recorded : w.record ≠ none) :
      RouterMove replica s (.finish i) (s.putWrite i { w with returnedAt := some s.now })
  | read (userId : Option Uuid) :
      RouterMove replica s (.read userId)
        { s with reads := s.reads ++ [s.beginRead replica userId] }
  | lookup {i : ℕ} {r : RoutedRead} (answered : Bool) (hi : s.reads[i]? = some r)
      (hr : r.phase = .started) :
      RouterMove replica s (.lookup i answered)
        (s.putRead i { r with
          unanswered := !answered
          phase := .looked (s.requiredLsn r.userId answered) })
  | unasked {i : ℕ} {r : RoutedRead} (hi : s.reads[i]? = some r) (hr : r.phase = .looked none) :
      RouterMove replica s (.check i) (s.putRead i { r with phase := .cleared })
  | asked {i : ℕ} {r : RoutedRead} {lsn : Lsn} (hi : s.reads[i]? = some r)
      (hr : r.phase = .looked (some lsn)) (hlsn : lsn ≤ s.walReplayLsn) :
      RouterMove replica s (.check i) (s.putRead i { r with phase := .cleared })
  | fallback {e : RouterStep} {i : ℕ} {r : RoutedRead} (hi : s.reads[i]? = some r) :
      RouterMove replica s e (s.putRead i { r with phase := .fallback })
  | replica {i : ℕ} {r : RoutedRead} (hi : s.reads[i]? = some r) (hr : r.phase = .cleared) :
      RouterMove replica s (.serve i)
        (s.putRead i { r with phase := .served .replica (s.visible .replica) })
  | primary {i : ℕ} {r : RoutedRead} (hi : s.reads[i]? = some r) :
      RouterMove replica s (.serve i)
        (s.putRead i { r with phase := .served .primary (s.visible .primary) })

lemma routerMove_of_next (h : s.next replica e = some s') : RouterMove replica s e s' := by
  cases e with
  | tick n => cases h; exact .tick n
  | append n => cases h; exact .append n
  | lose userId => cases h; exact .lose userId
  | begin => cases h; exact .begin
  | read userId => cases h; exact .read userId
  | replay n =>
    simp only [RouterState.next] at h
    split at h
    · cases h
      exact .replay n
    · cases h
  | track i userIds =>
    simp only [RouterState.next, Option.bind_eq_bind, Option.bind_eq_some_iff] at h
    obtain ⟨w, hi, h⟩ := h
    split at h
    · rename_i hw
      cases h
      exact .write hi hw.1 rfl rfl
    · cases h
  | commit i n =>
    simp only [RouterState.next, Option.bind_eq_bind, Option.bind_eq_some_iff] at h
    obtain ⟨w, hi, h⟩ := h
    split at h
    · rename_i hw
      cases h
      exact .write hi hw rfl rfl
    · cases h
  | publish i userId =>
    simp only [RouterState.next, Option.bind_eq_bind, Option.bind_eq_some_iff] at h
    obtain ⟨w, hi, lsn, hlsn, h⟩ := h
    split at h
    · rename_i hw
      cases h
      exact .publish hi hlsn hw.1
    · cases h
  | finish i =>
    simp only [RouterState.next, Option.bind_eq_bind, Option.bind_eq_some_iff] at h
    obtain ⟨w, hi, h⟩ := h
    split at h
    · rename_i hw
      cases h
      exact .finish hi hw.1
    · cases h
  | lookup i answered =>
    simp only [RouterState.next, Option.bind_eq_some_iff, Option.map_eq_some_iff] at h
    obtain ⟨r, hi, r', hphase, rfl⟩ := h
    unfold RouterState.lookedUp at hphase
    split at hphase
    · cases hphase
      exact .lookup answered hi ‹_›
    · cases hphase
  | check i =>
    simp only [RouterState.next, Option.bind_eq_some_iff, Option.map_eq_some_iff] at h
    obtain ⟨r, hi, r', hphase, rfl⟩ := h
    unfold RouterState.checked at hphase
    split at hphase
    · cases hphase
      exact .unasked hi ‹_›
    · rename_i lsn hr
      cases hlsn : s.replicaHasCaughtUp lsn with
      | true =>
        rw [hlsn, if_pos rfl] at hphase
        cases hphase
        exact .asked hi hr (of_decide_eq_true hlsn)
      | false =>
        rw [hlsn, if_neg Bool.false_ne_true] at hphase
        cases hphase
        exact .fallback hi
    · cases hphase
  | fail i =>
    simp only [RouterState.next, Option.bind_eq_some_iff, Option.map_eq_some_iff] at h
    obtain ⟨r, hi, r', hphase, rfl⟩ := h
    unfold RouterState.failed at hphase
    split at hphase <;> cases hphase <;> exact .fallback hi
  | serve i =>
    simp only [RouterState.next, Option.bind_eq_some_iff, Option.map_eq_some_iff] at h
    obtain ⟨r, hi, r', hphase, rfl⟩ := h
    unfold RouterState.served at hphase
    split at hphase
    · cases hphase
      exact .replica hi ‹_›
    · cases hphase
      exact .primary hi
    · cases hphase

end

/-! ### The invariant -/

section

variable {replica : Bool} {s s' : RouterState} {e : RouterStep} {i : ℕ}

/-- The position of a returned transaction whose commit record is known. -/
def RouterState.Returned (s : RouterState) (j : ℕ) (lsn : Option Lsn) (record : Lsn) : Prop :=
  ∃ w, s.writes[j]? = some w ∧ w.lsn = lsn ∧ w.record = some record

/-- What is known of one transaction that a read has to show. -/
def RoutedPhase.Covers (s : RouterState) (j : ℕ) (lsn : Option Lsn) (record : Lsn) :
    RoutedPhase → Prop
  | .started => True
  | .looked requiredLsn => ∃ stored ∈ requiredLsn, ∃ p ∈ lsn, p ≤ stored
  | .cleared => record ≤ s.walReplayLsn
  | .fallback => True
  | .served _ visible => j ∈ visible

/-- What is known of a read: without a replica it is on the primary from the start. -/
structure RoutedRead.Sound (replica : Bool) (s : RouterState) (r : RoutedRead) : Prop where
  covers : ∀ j ∈ r.owed, ∃ lsn record, s.Returned j lsn record ∧ r.phase.Covers s j lsn record
  owner : r.userId = none → r.owed = []
  answered : r.userId ≠ none → r.unanswered = false
  direct : replica = false → r.phase = .fallback ∨ ∃ visible, r.phase = .served .primary visible

/-- Redis holds a position as high as each one it was given within the tracking time, and for as
long. -/
structure RouterInv (replica : Bool) (s : RouterState) : Prop where
  past : ∀ w ∈ s.writes, ∀ p ∈ w.published, p.2 ≤ s.now
  positioned : ∀ w ∈ s.writes, w.published ≠ [] → w.lsn ≠ none
  stored : replica = true → ∀ w ∈ s.writes, ∀ lsn ∈ w.lsn, ∀ p ∈ w.published,
    s.now < p.2 + writeTrackingTtl →
      ∃ q, s.redis p.1 = some q ∧ lsn ≤ q.lsn ∧ p.2 + writeTrackingTtl ≤ q.expiresAt
  recorded : ∀ w ∈ s.writes, w.published ≠ [] ∨ w.returnedAt ≠ none → w.record ≠ none
  reads : ∀ r ∈ s.reads, r.Sound replica s

lemma RouterState.Returned.put {w w' : TrackedWrite} {j : ℕ} {lsn : Option Lsn} {record : Lsn}
    (h : s.Returned j lsn record) (hi : s.writes[i]? = some w)
    (hsame : w.record ≠ none → w'.lsn = w.lsn ∧ w'.record = w.record) :
    (s.putWrite i w').Returned j lsn record := by
  obtain ⟨x, hx, hlsn, hrecord⟩ := h
  by_cases hj : i = j
  · subst hj
    rw [hi] at hx
    cases hx
    obtain ⟨hl, hr⟩ := hsame (by simp [hrecord])
    refine ⟨w', ?_, hl.trans hlsn, hr.trans hrecord⟩
    simp [RouterState.putWrite, (List.getElem?_eq_some_iff.mp hi).1]
  · refine ⟨x, ?_, hlsn, hrecord⟩
    simpa [RouterState.putWrite, hj] using hx

lemma RouterState.Returned.begin {j : ℕ} {lsn : Option Lsn} {record : Lsn}
    (h : s.Returned j lsn record) :
    ({ s with writes := s.writes ++ [{}] } : RouterState).Returned j lsn record := by
  obtain ⟨x, hx, h⟩ := h
  refine ⟨x, ?_, h⟩
  rw [List.getElem?_append_left (List.getElem?_eq_some_iff.mp hx).1]
  exact hx

/-- The log and the replica only move forward. -/
lemma RoutedRead.Sound.mono {r : RoutedRead} (h : r.Sound replica s)
    (hreturned : ∀ j lsn record, s.Returned j lsn record → s'.Returned j lsn record)
    (hreplay : s.walReplayLsn ≤ s'.walReplayLsn) : r.Sound replica s' := by
  refine { h with covers := fun j hj => ?_ }
  obtain ⟨lsn, record, hw, hcovers⟩ := h.covers j hj
  refine ⟨lsn, record, hreturned j lsn record hw, ?_⟩
  cases hr : r.phase with
  | started => trivial
  | cleared =>
    rw [hr] at hcovers
    exact Nat.le_trans hcovers hreplay
  | looked requiredLsn =>
    rw [hr] at hcovers
    exact hcovers
  | fallback => trivial
  | served servedBy visible =>
    rw [hr] at hcovers
    exact hcovers

/-- Only where there is a replica is a read on its way to one. -/
lemma RoutedRead.Sound.not_direct {r : RoutedRead} (h : r.Sound replica s)
    (hfallback : r.phase ≠ .fallback) (hserved : ∀ visible, r.phase ≠ .served .primary visible) :
    replica ≠ false := by
  intro hnot
  obtain hphase | ⟨visible, hphase⟩ := h.direct hnot
  · exact hfallback hphase
  · exact hserved visible hphase

lemma RouterState.mem_visible {j : ℕ} {lsn : Option Lsn} {record : Lsn}
    (h : s.Returned j lsn record) {servedBy : ServedBy}
    (hreplay : servedBy = .replica → record ≤ s.walReplayLsn) :
    j ∈ s.visible servedBy := by
  obtain ⟨w, hw, -, hrecord⟩ := h
  have hlt : j < s.writes.length := (List.getElem?_eq_some_iff.mp hw).1
  have hmem : ∀ p : Lsn → Bool, p record = true → j ∈ s.recorded p := by
    intro p hp
    simp only [RouterState.recorded, List.mem_filter, List.mem_range, hw, Option.bind_some,
      hrecord, Option.any_some]
    exact ⟨hlt, hp⟩
  cases servedBy with
  | primary => exact hmem _ rfl
  | replica => exact hmem _ (decide_eq_true (hreplay rfl))

namespace RouterInv

/-- The reads stay sound, and the rest is looked after. -/
lemma put (h : RouterInv replica s) {w w' : TrackedWrite} (hi : s.writes[i]? = some w)
    (hsame : w.record ≠ none → w'.lsn = w.lsn ∧ w'.record = w.record)
    (hpast : ∀ p ∈ w'.published, p.2 ≤ s.now) (hpositioned : w'.published ≠ [] → w'.lsn ≠ none)
    (hstored : replica = true → ∀ lsn ∈ w'.lsn, ∀ p ∈ w'.published,
      s.now < p.2 + writeTrackingTtl →
        ∃ q, s.redis p.1 = some q ∧ lsn ≤ q.lsn ∧ p.2 + writeTrackingTtl ≤ q.expiresAt)
    (hrecorded : w'.published ≠ [] ∨ w'.returnedAt ≠ none → w'.record ≠ none) :
    RouterInv replica (s.putWrite i w') := by
  have hmem : ∀ x ∈ (s.putWrite i w').writes, x ∈ s.writes ∨ x = w' :=
    fun x hx => List.mem_or_eq_of_mem_set hx
  constructor
  · intro x hx
    obtain hx | rfl := hmem x hx
    · exact h.past x hx
    · exact hpast
  · intro x hx
    obtain hx | rfl := hmem x hx
    · exact h.positioned x hx
    · exact hpositioned
  · intro hreplica x hx
    obtain hx | rfl := hmem x hx
    · exact h.stored hreplica x hx
    · exact hstored hreplica
  · intro x hx
    obtain hx | rfl := hmem x hx
    · exact h.recorded x hx
    · exact hrecorded
  · intro r hr
    exact (h.reads r hr).mono (fun j lsn record hj => hj.put hi hsame) (Nat.le_refl _)

/-- A read moves on. -/
lemma putRead (h : RouterInv replica s) {r : RoutedRead} (hr : r.Sound replica s) :
    RouterInv replica (s.putRead i r) := by
  refine { h with reads := fun x hx => ?_ }
  obtain hx | rfl := List.mem_or_eq_of_mem_set hx
  · exact (h.reads x hx).mono (fun _ _ _ hj => hj) (Nat.le_refl _)
  · exact hr.mono (fun _ _ _ hj => hj) (Nat.le_refl _)

/-- A read moves on, and what is known of the transactions it has to show. -/
lemma toPhase (h : RouterInv replica s) {r : RoutedRead} {phase : RoutedPhase}
    (hi : s.reads[i]? = some r)
    (hphase : ∀ j ∈ r.owed, ∀ lsn record, s.Returned j lsn record → r.phase.Covers s j lsn record →
      phase.Covers s j lsn record)
    (hdirect : replica = false → phase = .fallback ∨ ∃ visible, phase = .served .primary visible) :
    RouterInv replica (s.putRead i { r with phase }) := by
  have hsound := h.reads r (List.mem_of_getElem? hi)
  refine h.putRead { hsound with covers := fun j hj => ?_, direct := hdirect }
  obtain ⟨lsn, record, hw, hcovers⟩ := hsound.covers j hj
  exact ⟨lsn, record, hw, hphase j hj lsn record hw hcovers⟩

/-- A call that has not looked yet at what it has to wait for. -/
lemma beginRead (h : RouterInv replica s) (userId : Option Uuid) :
    (s.beginRead replica userId).Sound replica s := by
  constructor
  · intro j hj
    obtain ⟨hlt, hany⟩ := List.mem_filter.mp hj
    obtain ⟨u, hu, hany⟩ := (Option.any_eq_true _ _).mp hany
    obtain ⟨w, hw, howed⟩ := (Option.any_eq_true _ _).mp hany
    obtain ⟨-, ⟨t, ht, -⟩, -⟩ := of_decide_eq_true howed
    have hreturned : w.returnedAt ≠ none := Option.ne_none_iff_exists'.mpr ⟨t, ht⟩
    obtain ⟨record, hrecord⟩ := Option.ne_none_iff_exists'.mp
      (h.recorded w (List.mem_of_getElem? hw) (.inr hreturned))
    refine ⟨w.lsn, record, ⟨w, hw, rfl, hrecord⟩, ?_⟩
    cases replica <;> trivial
  · rintro rfl
    simp [RouterState.beginRead, RouterState.owed]
  · exact fun _ => rfl
  · rintro rfl
    exact .inl rfl

/-- Redis has the positions a read has to wait for. -/
lemma lookup (h : RouterInv replica s) {r : RoutedRead} {answered : Bool}
    (hok : KeepsTrack replica s (.lookup i answered)) (hi : s.reads[i]? = some r)
    (hr : r.phase = .started) :
    RouterInv replica (s.putRead i { r with
      unanswered := !answered
      phase := .looked (s.requiredLsn r.userId answered) }) := by
  have hsound := h.reads r (List.mem_of_getElem? hi)
  have hdirect : replica ≠ false := hsound.not_direct (by simp [hr]) (by simp [hr])
  have hreplica : replica = true := Bool.eq_true_of_not_eq_false hdirect
  refine h.putRead ⟨fun j hj => ?_, hsound.owner, fun hne => ?_, fun hnot => absurd hnot hdirect⟩
  · obtain ⟨u, hu⟩ : ∃ u, r.userId = some u := by
      refine Option.ne_none_iff_exists'.mp fun hnone => ?_
      rw [show r.owed = [] from hsound.owner hnone] at hj
      cases hj
    obtain ⟨lsn, record, ⟨w, hw, hlsn, hrecord⟩, -⟩ := hsound.covers j hj
    have hmem : w ∈ s.writes := List.mem_of_getElem? hw
    obtain ⟨rfl, hkept⟩ := hok hreplica r hi u hu
    obtain ⟨p, hp, rfl, hfresh⟩ := hkept j hj w hw
    obtain ⟨position, hposition⟩ := Option.ne_none_iff_exists'.mp
      (h.positioned w hmem (List.ne_nil_of_mem hp))
    obtain ⟨q, hq, hle, hexpires⟩ := h.stored hreplica w hmem position hposition p hp hfresh
    have hrequired : s.requiredLsn r.userId true = some q.lsn := by
      have hlt : s.now < q.expiresAt := Nat.lt_of_lt_of_le hfresh hexpires
      rw [RouterState.requiredLsn, if_pos rfl, hu, Option.bind_some, RouterState.get, hq]
      simp [Option.filter, hlt]
    exact ⟨lsn, record, ⟨w, hw, hlsn, hrecord⟩, q.lsn, hrequired, position, hlsn ▸ hposition, hle⟩
  · obtain ⟨u, hu⟩ := Option.ne_none_iff_exists'.mp hne
    obtain ⟨rfl, -⟩ := hok hreplica r hi u hu
    rfl

/-- A user's key is replaced by one as high. -/
lemma publish (h : RouterInv replica s) {userId : Uuid} {w : TrackedWrite} {lsn : Lsn}
    (hok : KeepsTrack replica s (.publish i userId)) (hi : s.writes[i]? = some w)
    (hlsn : w.lsn = some lsn) (hrecorded : w.record ≠ none) :
    RouterInv replica ((s.putWrite i { w with published := (userId, s.now) :: w.published }).set
      userId lsn) := by
  have hmem : w ∈ s.writes := List.mem_of_getElem? hi
  have hset : RouterInv replica (s.set userId lsn) := by
    refine { h with stored := fun hreplica x hx l hl p hp hlt => ?_, reads := fun r hr => ?_ }
    rotate_left
    · exact (h.reads r hr).mono (fun _ _ _ hj => hj) (Nat.le_refl _)
    obtain ⟨q, hq, hle, hexpires⟩ := h.stored hreplica x hx l hl p hp hlt
    by_cases hu : p.1 = userId
    · subst hu
      have hget : s.get p.1 = some q.lsn := by
        have hnow : s.now < q.expiresAt := Nat.lt_of_lt_of_le hlt hexpires
        simp [RouterState.get, hq, Option.filter, hnow]
      refine ⟨⟨lsn, s.now + writeTrackingTtl⟩, Function.update_self .., ?_, ?_⟩
      · exact Nat.le_trans hle (hok hreplica w hi lsn hlsn q.lsn hget)
      · exact Nat.add_le_add_right (h.past x hx p hp) _
    · refine ⟨q, ?_, hle, hexpires⟩
      exact (Function.update_of_ne hu _ _).trans hq
  refine hset.put (s := s.set userId lsn) hi (fun _ => ⟨rfl, rfl⟩) ?_ ?_ ?_ (fun _ => hrecorded)
  · intro p hp
    obtain rfl | hp := List.mem_cons.mp hp
    · exact Nat.le_refl _
    · exact h.past w hmem p hp
  · intro _ hnone
    rw [show w.lsn = none from hnone] at hlsn
    cases hlsn
  · intro hreplica l hl p hp hlt
    obtain rfl | hp := List.mem_cons.mp hp
    · refine ⟨⟨lsn, s.now + writeTrackingTtl⟩, Function.update_self .., ?_, Nat.le_refl _⟩
      rw [show l = lsn from Option.some.inj (hl.symm.trans hlsn)]
    · exact hset.stored hreplica w hmem l hl p hp hlt

/-- Every step that meets the condition preserves the invariant. -/
lemma step (h : RouterInv replica s) (hok : KeepsTrack replica s e)
    (hs : s.next replica e = some s') : RouterInv replica s' := by
  have hsame : ∀ (j : ℕ) (lsn : Option Lsn) (record : Lsn), s.Returned j lsn record →
      s.Returned j lsn record := fun _ _ _ hj => hj
  cases routerMove_of_next hs with
  | tick n =>
    refine { h with past := fun w hw p hp => ?_, stored := fun hreplica w hw l hl p hp hlt => ?_,
                    reads := fun r hr => (h.reads r hr).mono hsame (Nat.le_refl _) }
    · exact Nat.le_trans (h.past w hw p hp) (Nat.le_add_right _ _)
    · exact h.stored hreplica w hw l hl p hp (Nat.lt_of_le_of_lt (Nat.le_add_right _ _) hlt)
  | append n =>
    exact { h with reads := fun r hr => (h.reads r hr).mono hsame (Nat.le_refl _) }
  | replay n =>
    exact { h with reads := fun r hr => (h.reads r hr).mono hsame (Nat.le_add_right _ _) }
  | lose userId =>
    refine { h with stored := fun hreplica w hw l hl p hp hlt => ?_,
                    reads := fun r hr => (h.reads r hr).mono hsame (Nat.le_refl _) }
    obtain ⟨q, hq, hle, hexpires⟩ := h.stored hreplica w hw l hl p hp hlt
    refine ⟨q, ?_, hle, hexpires⟩
    by_cases hu : p.1 = userId
    · -- What is lost had expired.
      subst hu
      have hnow : s.now < q.expiresAt := Nat.lt_of_lt_of_le hlt hexpires
      have hget : s.get p.1 = none := hok hreplica
      simp [RouterState.get, hq, Option.filter, hnow] at hget
    · exact (Function.update_of_ne hu _ _).trans hq
  | begin =>
    have hmem : ∀ w ∈ s.writes ++ [({} : TrackedWrite)], w ∈ s.writes ∨ w = {} := by
      intro w hw
      rwa [List.mem_append, List.mem_singleton] at hw
    constructor
    · intro w hw
      obtain hw | rfl := hmem w hw
      · exact h.past w hw
      · simp
    · intro w hw
      obtain hw | rfl := hmem w hw
      · exact h.positioned w hw
      · simp
    · intro hreplica w hw
      obtain hw | rfl := hmem w hw
      · exact h.stored hreplica w hw
      · simp
    · intro w hw
      obtain hw | rfl := hmem w hw
      · exact h.recorded w hw
      · simp
    · intro r hr
      exact (h.reads r hr).mono (fun j lsn record hj => hj.begin) (Nat.le_refl _)
  | @write _ i w w' lsn hi unrecorded published returned =>
    -- A transaction without a commit record has published nothing.
    have hnone : w'.published = [] ∧ w'.returnedAt = none := by
      by_contra hsome
      refine h.recorded w (List.mem_of_getElem? hi) ?_ unrecorded
      rw [← published, ← returned]
      exact not_and_or.mp hsome
    have hput : RouterInv replica (s.putWrite i w') := by
      refine h.put hi (fun hne => absurd unrecorded hne) ?_ ?_ ?_ ?_
      · simp [hnone.1]
      · simp [hnone.1]
      · simp [hnone.1]
      · simp [hnone]
    exact { hput with reads := fun r hr => (hput.reads r hr).mono (fun _ _ _ hj => hj)
                                 (Nat.le_refl _) }
  | publish hi hlsn recorded => exact h.publish hok hi hlsn recorded
  | @finish i w hi recorded =>
    have hmem : w ∈ s.writes := List.mem_of_getElem? hi
    exact h.put hi (fun _ => ⟨rfl, rfl⟩) (h.past w hmem) (h.positioned w hmem)
      (fun hreplica => h.stored hreplica w hmem) fun _ => recorded
  | read userId =>
    refine { h with reads := fun r hr => ?_ }
    obtain hr | hr := List.mem_append.mp hr
    · exact (h.reads r hr).mono hsame (Nat.le_refl _)
    · rw [List.mem_singleton.mp hr]
      exact (h.beginRead userId).mono hsame (Nat.le_refl _)
  | lookup answered hi hr => exact h.lookup hok hi hr
  | @unasked i r hi hr =>
    have hdirect := (h.reads r (List.mem_of_getElem? hi)).not_direct (by simp [hr]) (by simp [hr])
    refine h.toPhase hi (fun j _ lsn record _ hcovers => ?_) fun hnot => absurd hnot hdirect
    rw [hr] at hcovers
    obtain ⟨stored, hstored, -⟩ := hcovers
    cases hstored
  | @asked i r required hi hr hrequired =>
    have hdirect := (h.reads r (List.mem_of_getElem? hi)).not_direct (by simp [hr]) (by simp [hr])
    refine h.toPhase hi (fun j hj lsn record hw hcovers => ?_) fun hnot => absurd hnot hdirect
    rw [hr] at hcovers
    obtain ⟨stored, hstored, position, hposition, hle⟩ := hcovers
    cases hstored
    obtain ⟨w, hwj, hlsn, hrecord⟩ := hw
    have hgap := hok (Bool.eq_true_of_not_eq_false hdirect) r hi j hj w hwj position
      (hlsn.trans hposition) record hrecord
    exact Nat.not_lt.mp fun hlt => hgap ⟨Nat.le_trans hle hrequired, hlt⟩
  | fallback hi => exact h.toPhase hi (fun _ _ _ _ _ _ => trivial) fun _ => .inl rfl
  | @replica i r hi hr =>
    have hdirect := (h.reads r (List.mem_of_getElem? hi)).not_direct (by simp [hr]) (by simp [hr])
    refine h.toPhase hi (fun j _ lsn record hw hcovers => ?_) fun hnot => absurd hnot hdirect
    rw [hr] at hcovers
    exact RouterState.mem_visible hw fun _ => hcovers
  | primary hi =>
    refine h.toPhase hi (fun j _ lsn record hw _ => ?_) fun _ => .inr ⟨_, rfl⟩
    exact RouterState.mem_visible hw (by rintro ⟨⟩)

lemma start : RouterInv replica {} := by
  constructor <;> simp

end RouterInv

end

/-- In every run that keeps track, reads show what they have to. -/
theorem reads_own_writes {replica : Bool} {s : RouterState}
    (h : Machine.Reached (RouterState.next replica) (KeepsTrack replica) {} s) :
    ReadsOwnWrites s := by
  have hinv : RouterInv replica s := h.invariant .start fun _ _ _ hinv hok hs => hinv.step hok hs
  constructor
  · intro r hr servedBy visible hphase j hj
    obtain ⟨lsn, record, -, hcovers⟩ := (hinv.reads r hr).covers j hj
    rw [hphase] at hcovers
    exact hcovers
  · intro r hr servedBy visible _ huser hunanswered
    rw [(hinv.reads r hr).answered huser] at hunanswered
    cases hunanswered

/-! ### Sample runs -/

instance (replica : Bool) (s : RouterState) (e : RouterStep) :
    Decidable (KeepsTrack replica s e) :=
  match e with
  | .lose userId => inferInstanceAs (Decidable (replica = true → s.get userId = none))
  | .publish i userId => inferInstanceAs (Decidable (replica = true →
      ∀ w ∈ s.writes[i]?, ∀ lsn ∈ w.lsn, ∀ stored ∈ s.get userId, stored ≤ lsn))
  | .lookup i answered => inferInstanceAs (Decidable (replica = true →
      ∀ r ∈ s.reads[i]?, ∀ u ∈ r.userId, answered = true ∧
        ∀ j ∈ r.owed, ∀ w ∈ s.writes[j]?, w.IsKept u s.now))
  | .check i => inferInstanceAs (Decidable (replica = true → ∀ r ∈ s.reads[i]?, ∀ j ∈ r.owed,
      ∀ w ∈ s.writes[j]?, ∀ lsn ∈ w.lsn, ∀ record ∈ w.record,
        ¬ (lsn ≤ s.walReplayLsn ∧ s.walReplayLsn < record)))
  | .tick _ | .append _ | .replay _ | .begin | .track _ _ | .commit _ _ | .finish _ | .read _
  | .fail _ | .serve _ => inferInstanceAs (Decidable (replica = true → True))

/-- Where a list of steps leads, without those that are not allowed. -/
def RouterState.after (allowed : RouterState → RouterStep → Bool) (steps : List RouterStep) :
    RouterState :=
  Machine.play (RouterState.next true) allowed {} steps

/-- A transaction of user 7. -/
def tracked : List RouterStep := [.begin, .append 10, .track 0 [some 7], .commit 0 3]

/-- A read of user 7, with a pause of some seconds before Redis answers. -/
def routed (i : ℕ) (seconds : ℕ) : List RouterStep :=
  [.read (some 7), .tick (seconds * microsPerSecond), .lookup i true, .check i, .serve i]

/-- The replica is behind at the first read and not at the second one. -/
def trackedRun : List RouterStep :=
  tracked ++ [.publish 0 7, .finish 0, .replay 9] ++ routed 0 1 ++ [.replay 5] ++ routed 1 1

theorem reads_own_writes_trackedRun :
    (RouterState.after (fun s e => decide (KeepsTrack true s e)) trackedRun).reads.map
        (fun r => (r.owed, r.phase)) =
      [([0], .served .primary [0]), ([0], .served .replica [0])] ∧
      ReadsOwnWrites (RouterState.after (fun s e => decide (KeepsTrack true s e)) trackedRun) :=
  ⟨by decide, reads_own_writes (.play (fun _ _ h => of_decide_eq_true h) _ .start)⟩

/-- Redis does not answer; it has not stored the position; the position expires between the start of
the call and the answer; the replica is before the commit record; and a position replaces a higher
one. -/
def staleRuns : List (List RouterStep) :=
  [tracked ++ [.publish 0 7, .finish 0, .read (some 7), .lookup 0 false, .check 0, .serve 0],
    tracked ++ [.finish 0] ++ routed 0 1,
    tracked ++ [.publish 0 7, .finish 0, .tick (29 * microsPerSecond)] ++ routed 0 2,
    tracked ++ [.publish 0 7, .finish 0, .replay 10] ++ routed 0 1,
    tracked ++ [.begin, .append 6, .track 1 [some 7], .commit 1 3, .publish 1 7, .publish 0 7,
      .finish 0, .finish 1, .replay 15] ++ routed 0 1]

/-- Does an answer miss something? -/
def RouterState.stale (s : RouterState) : Bool :=
  s.reads.any fun r =>
    match r.phase with
    | .served _ visible => r.owed.any fun j => decide (j ∉ visible)
    | _ => false

lemma not_readsOwnWrites {s : RouterState} (h : s.stale = true) : ¬ ReadsOwnWrites s := by
  intro hreads
  obtain ⟨r, hr, hany⟩ := List.any_eq_true.mp h
  split at hany
  · rename_i servedBy visible hphase
    obtain ⟨j, hj, hnot⟩ := List.any_eq_true.mp hany
    exact of_decide_eq_true hnot (hreads.shown r hr servedBy visible hphase j hj)
  · cases hany

/-- Each of these runs ends with a read that does not show a write of its user. -/
theorem reads_miss_writes : staleRuns.Forall fun steps =>
    Machine.Reached (RouterState.next true) (fun _ _ => True) {}
      (RouterState.after (fun _ _ => true) steps) ∧
      ¬ ReadsOwnWrites (RouterState.after (fun _ _ => true) steps) := by
  refine List.forall_iff_forall_mem.mpr fun steps hsteps => ?_
  constructor
  · exact .play (fun _ _ _ => trivial) steps .start
  · have hstale : ∀ steps ∈ staleRuns,
        (RouterState.after (fun _ _ => true) steps).stale = true := by decide
    exact not_readsOwnWrites (hstale steps hsteps)

end TakaFlow
