import TakaFlow.Cache
import TakaFlow.Spec.Publishing
import TakaFlow.Lib.Snapshots

/-!
# The cache is coherent

Whatever is stored is the balance of its account at a committed version, and requests are answered
with such balances.
-/

namespace TakaFlow

open Txn

/-! ### What is stored under a key -/

section format

variable (value : CachedBalance)

lemma toList_raw : value.raw.toList =
    Nat.toDigits 10 value.version ++ ':' :: signedDigits value.balanceMinor := by
  rw [CachedBalance.raw, String.toList_append, String.toList_append, toList_toString_int]
  change (value.version.repr.toList ++ _) ++ _ = _
  rw [Nat.toList_repr, List.append_assoc]
  rfl

/-- A string that was stored is read as what was stored. -/
lemma parseBalance_raw : parseBalance value.raw = some value := by
  have hne : ∀ c ∈ Nat.toDigits 10 value.version, decide (c ≠ ':') = true := fun c hc =>
    decide_eq_true (isDigit_ne (Nat.isDigit_of_mem_toDigits (by decide) (by decide) hc) rfl)
  have htake : value.raw.toList.takeWhile (· ≠ ':') = Nat.toDigits 10 value.version := by
    rw [toList_raw, List.takeWhile_append_of_pos hne]
    simp
  have hdrop : value.raw.toList.dropWhile (· ≠ ':') = ':' :: signedDigits value.balanceMinor := by
    rw [toList_raw, List.dropWhile_append_of_pos hne]
    simp
  have hmem : ':' ∈ value.raw.toList := by
    rw [toList_raw]
    exact List.mem_append_right _ List.mem_cons_self
  simp only [parseBalance, if_pos hmem, htake, hdrop, List.drop_succ_cons, List.drop_zero,
    digits?_toDigits, signedDigits?_signedDigits]
  rfl

lemma storedVersion_raw : storedVersion value.raw = some value.version := by
  have hdigits : ∀ c ∈ Nat.toDigits 10 value.version, c.isDigit = true := fun c hc =>
    Nat.isDigit_of_mem_toDigits (by decide) (by decide) hc
  have htake : value.raw.toList.takeWhile Char.isDigit = Nat.toDigits 10 value.version := by
    rw [toList_raw, List.takeWhile_append_of_pos hdigits]
    simp
  have hdrop : value.raw.toList.dropWhile Char.isDigit =
      ':' :: signedDigits value.balanceMinor := by
    rw [toList_raw, List.dropWhile_append_of_pos hdigits]
    simp
  simp only [storedVersion, htake, hdrop, digits?_toDigits]

end format

/-! ### What is stored and answered -/

namespace CacheState

variable (s : CacheState)

/-- The committed states so far. -/
def states : List Database := s.timed.sys.states seed

/-- The account has had this balance at this version. -/
def Held (accountId : Uuid) (value : CachedBalance) : Prop :=
  ∃ d ∈ s.states, ∃ a, d.accounts.get? accountId = some a ∧ a.version = value.version ∧
    a.balanceMinor = value.balanceMinor

/-- The row was the account of the user. -/
def Seen (userId : Uuid) (account : Account) : Prop :=
  ∃ d ∈ s.states, d.accountOf userId = some account

/-- While a key is alive the version under it grows with every write. -/
def Increasing : Prop :=
  ∀ (i j : ℕ) (id : Uuid) (value value' : CachedBalance), i < j →
    s.log[i]? = some (.stored id value) → s.log[j]? = some (.stored id value') →
    (∀ k, i < k → k < j → s.log[k]? ≠ some (.dropped id)) → value.version < value'.version

end CacheState

structure CacheCoherent (s : CacheState) : Prop where
  single : ∀ id value value', s.Held id value → s.Held id value' →
    value.version = value'.version → value.balanceMinor = value'.balanceMinor
  stored : ∀ id value, .stored id value ∈ s.log → s.Held id value
  increasing : s.Increasing
  answers : ∀ r ∈ s.reads, ∀ account cached view, r.phase = .replied account cached view →
    s.Seen r.userId account ∧ ∃ version, account.version ≤ version ∧
      s.Held account.id { version, balanceMinor := view.balanceMinor }

/-! ### The invariant -/

/-- What a request has in hand was true of its account. -/
def BalanceRead.Sound (s : CacheState) (r : BalanceRead) : Prop :=
  match r.phase with
  | .found account => s.Seen r.userId account
  | .consulted account cached => s.Seen r.userId account ∧ ∀ value ∈ cached, s.Held account.id value
  | .replied account cached view => (s.Seen r.userId account ∧
      ∀ value ∈ cached, s.Held account.id value) ∧ ∃ spent, view = accountView account cached spent
  | _ => True

/-- The ends of calls that the deadline allows. -/
def unrefused (call : Call) (_late : Bool) (hs : List Hook) (reply : Reply) : Prop :=
  (∃ id, call = .runSchedule id) → Unhooked hs reply

structure CacheInv (P : Platform) (s : CacheState) : Prop where
  reachable : Reachable P s.timed.sys
  heading : Timed.Heading .deadline unrefused s.timed
  stored : ∀ id value, .stored id value ∈ s.log → s.Held id value
  live : ∀ id raw, s.cache id = some raw → ∃ value : CachedBalance, raw = value.raw ∧
    s.Held id value
  lasting : ∀ (i : ℕ) (id : Uuid) (value : CachedBalance),
    s.log[i]? = some (.stored id value) → (∀ k, i < k → s.log[k]? ≠ some (.dropped id)) →
    ∃ current : CachedBalance, s.cache id = some current.raw ∧ value.version ≤ current.version
  increasing : s.Increasing
  reads : ∀ r ∈ s.reads, r.Sound s

section

variable {P : Platform} {s s' : CacheState} {id : Uuid} {value : CachedBalance}

lemma getElem?_append_singleton {log : List CacheEvent} {i : ℕ} {e e' : CacheEvent}
    (h : (log ++ [e])[i]? = some e') : log[i]? = some e' ∨ i = log.length ∧ e' = e := by
  rw [List.getElem?_append] at h
  split at h
  · exact .inl h
  · have hlen := (List.getElem?_eq_some_iff.mp h).1
    simp only [List.length_singleton] at hlen
    exact .inr ⟨by omega, List.mem_singleton.mp (List.mem_of_getElem? h)⟩

lemma getElem?_append_of_some {log log' : List CacheEvent} {i : ℕ} {e : CacheEvent}
    (h : log[i]? = some e) : (log ++ log')[i]? = some e :=
  (List.getElem?_append_left (List.getElem?_eq_some_iff.mp h).1).trans h

lemma CacheState.Held.mono (hsub : s.states ⊆ s'.states) (h : s.Held id value) :
    s'.Held id value := by
  obtain ⟨d, hd, ha⟩ := h
  exact ⟨d, hsub hd, ha⟩

lemma CacheState.Seen.mono {userId : Uuid} {account : Account} (hsub : s.states ⊆ s'.states)
    (h : s.Seen userId account) : s'.Seen userId account := by
  obtain ⟨d, hd, ha⟩ := h
  exact ⟨d, hsub hd, ha⟩

/-- The row a request has read is a pair it may write back. -/
lemma CacheState.Seen.held {userId : Uuid} {account : Account} (h : s.Seen userId account) :
    s.Held account.id { version := account.version, balanceMinor := account.balanceMinor } := by
  obtain ⟨d, hd, ha⟩ := h
  exact ⟨d, hd, account, Table.get?_of_mem (List.mem_of_find?_eq_some ha), rfl, rfl⟩

lemma BalanceRead.Sound.mono {r : BalanceRead} (hsub : s.states ⊆ s'.states) (h : r.Sound s) :
    r.Sound s' := by
  unfold Sound at h ⊢
  cases hp : r.phase with
  | begun => trivial
  | failed e => trivial
  | found account =>
    rw [hp] at h
    exact h.mono hsub
  | consulted account cached =>
    rw [hp] at h
    exact ⟨h.1.mono hsub, fun value hv => (h.2 value hv).mono hsub⟩
  | replied account cached view =>
    rw [hp] at h
    exact ⟨⟨h.1.1.mono hsub, fun value hv => (h.1.2 value hv).mono hsub⟩, h.2⟩

namespace CacheInv

/-- A step of the transactions. -/
lemma db (h : CacheInv P s) {e : Step} {timed : Timed Database Token DriverError Env Hook Error
    Reply Call} (hs : s.timed.next .deadline (body P) e = some timed) :
    CacheInv P { s with timed } := by
  obtain ⟨-, hstep, -⟩ := Timed.next_eq_some hs
  have hsub : s.states ⊆ CacheState.states { s with timed } := by
    simp only [CacheState.states, Sys.states]
    rcases Sys.db_of_step hstep with ⟨-, hh⟩ | ⟨r, hh, -⟩
    · rw [hh]
      exact List.Subset.refl _
    · rw [hh]
      exact subset_states_append _ _ _
  obtain ⟨t, hreach⟩ := h.reachable
  exact
    { reachable := ⟨t, .step hreach trivial hstep⟩
      heading := h.heading.next (by decide) (by decide) ends_body hs
      stored := fun id value hm => (h.stored id value hm).mono hsub
      live := fun id raw hr => (h.live id raw hr).imp fun _ hv => ⟨hv.1, hv.2.mono hsub⟩
      lasting := h.lasting
      increasing := h.increasing
      reads := fun r hr => (h.reads r hr).mono hsub }

/-- What the hooks of a commit publish was true. -/
lemma published (h : CacheInv P s) {commit hook i : ℕ} {w : Uuid × CachedBalance}
    (hw : s.published commit hook i = some w) : s.Held w.1 w.2 := by
  simp only [CacheState.published, CacheState.history, Option.bind_eq_bind,
    Option.bind_eq_some_iff] at hw
  obtain ⟨r, hr, x, hx, hw⟩ := hw
  split at hw
  · obtain ⟨⟨accountId, balanceMinor, version⟩, hv, hw⟩ := Option.bind_eq_some_iff.mp hw
    cases hw
    have hmem := List.mem_of_getElem? hr
    have hpublished : Published r.hooks r.after := by
      rcases h.reachable.publishes r hmem with hpub | ⟨hrefused, hcall⟩
      · exact hpub
      · obtain ⟨late, hends⟩ := h.heading.history r hmem
        rw [hends hcall hrefused]
        exact .nil _
    obtain ⟨a, ha, hbalance, hversion⟩ := hpublished _ (List.mem_of_getElem? hx) _
      (List.mem_of_getElem? hv)
    refine ⟨r.after, List.mem_cons_of_mem _ (List.mem_map_of_mem hmem), a, ha, hversion, hbalance⟩
  · cases hw

/-- What a request writes back was true. -/
lemma writesBack (h : CacheInv P s) {r : BalanceRead} (hr : r ∈ s.reads) {w : Uuid × CachedBalance}
    (hw : CacheState.writesBack r = some w) : s.Held w.1 w.2 := by
  have hsound := h.reads r hr
  unfold CacheState.writesBack at hw
  unfold BalanceRead.Sound at hsound
  cases hp : r.phase with
  | consulted account cached =>
    simp only [hp] at hw hsound
    split_ifs at hw
    cases hw
    exact hsound.1.held
  | replied account cached view =>
    simp only [hp] at hw hsound
    split_ifs at hw
    cases hw
    exact hsound.1.1.held
  | _ => simp [hp] at hw

/-- A pair that was true is written, unless the script refuses it. -/
lemma writeBalance (h : CacheInv P s) (hheld : s.Held id value) :
    CacheInv P (s.writeBalance id value) := by
  unfold CacheState.writeBalance
  split
  · exact h
  rename_i raw hraw
  -- The script sets the pair itself, and a version below it was there.
  have hset : raw = value.raw ∧ ∀ current : CachedBalance, s.cache id = some current.raw →
      current.version < value.version := by
    unfold casScript at hraw
    split at hraw
    · rename_i stored hstored
      split_ifs at hraw with hle
      cases hraw
      refine ⟨rfl, fun current hcurrent => ?_⟩
      rw [hcurrent, Option.bind_some, storedVersion_raw] at hstored
      cases hstored
      exact Nat.lt_of_not_le hle
    · rename_i hnone
      cases hraw
      refine ⟨rfl, fun current hcurrent => ?_⟩
      rw [hcurrent, Option.bind_some, storedVersion_raw] at hnone
      cases hnone
  obtain ⟨rfl, hbelow⟩ := hset
  exact
    { reachable := h.reachable
      heading := h.heading
      stored := fun id' value' hm => by
        rcases List.mem_append.mp hm with hm | hm
        · exact h.stored id' value' hm
        · cases List.mem_singleton.mp hm
          exact hheld
      live := fun id' raw hr => by
        change Function.update s.cache id (some value.raw) id' = some raw at hr
        by_cases hid : id' = id
        · subst hid
          rw [Function.update_self] at hr
          exact ⟨value, (Option.some.inj hr).symm, hheld⟩
        · rw [Function.update_of_ne hid] at hr
          exact h.live id' raw hr
      lasting := fun i id' value' hi hdropped => by
        rcases getElem?_append_singleton hi with hi | ⟨-, heq⟩
        · obtain ⟨current, hcurrent, hle⟩ := h.lasting i id' value' hi
            fun k hk he => hdropped k hk (getElem?_append_of_some he)
          by_cases hid : id' = id
          · subst hid
            exact ⟨value, Function.update_self .., hle.trans (hbelow current hcurrent).le⟩
          · exact ⟨current, (Function.update_of_ne hid ..).trans hcurrent, hle⟩
        · cases heq
          exact ⟨value, Function.update_self .., Nat.le_refl _⟩
      increasing := fun i j id' value₁ value₂ hij hi hj hdropped => by
        rcases getElem?_append_singleton hi with hi | ⟨rfl, -⟩
        · rcases getElem?_append_singleton hj with hj | ⟨rfl, heq⟩
          · exact h.increasing i j id' value₁ value₂ hij hi hj
              fun k hik hkj he => hdropped k hik hkj (getElem?_append_of_some he)
          · cases heq
            obtain ⟨current, hcurrent, hle⟩ := h.lasting i _ value₁ hi fun k hk he =>
              hdropped k hk (List.getElem?_eq_some_iff.mp he).1 (getElem?_append_of_some he)
            exact Nat.lt_of_le_of_lt hle (hbelow current hcurrent)
        · have hlen := (List.getElem?_eq_some_iff.mp hj).1
          simp only [List.length_append, List.length_singleton] at hlen
          omega
      reads := h.reads }

/-- A key goes. -/
lemma drop (h : CacheInv P s) : CacheInv P { s with
    cache := Function.update s.cache id none
    log := s.log ++ [.dropped id] } := by
  have hlog : ∀ (i : ℕ) (id' : Uuid) (value' : CachedBalance),
      (s.log ++ [.dropped id])[i]? = some (.stored id' value') →
        s.log[i]? = some (.stored id' value') ∧ i < s.log.length := by
    intro i id' value' he
    rcases getElem?_append_singleton he with he | ⟨-, heq⟩
    · exact ⟨he, (List.getElem?_eq_some_iff.mp he).1⟩
    · cases heq
  exact
    { reachable := h.reachable
      heading := h.heading
      stored := fun id' value' hm => by
        rcases List.mem_append.mp hm with hm | hm
        · exact h.stored id' value' hm
        · cases List.mem_singleton.mp hm
      live := fun id' raw hr => by
        change Function.update s.cache id none id' = some raw at hr
        by_cases hid : id' = id
        · subst hid
          rw [Function.update_self] at hr
          cases hr
        · rw [Function.update_of_ne hid] at hr
          exact h.live id' raw hr
      lasting := fun i id' value' hi hdropped => by
        obtain ⟨hi, hlt⟩ := hlog i id' value' hi
        by_cases hid : id' = id
        · subst hid
          refine absurd ?_ (hdropped s.log.length hlt)
          rw [List.getElem?_append_right (Nat.le_refl _), Nat.sub_self]
          rfl
        · obtain ⟨current, hcurrent, hle⟩ := h.lasting i id' value' hi
            fun k hk he => hdropped k hk (getElem?_append_of_some he)
          exact ⟨current, (Function.update_of_ne hid ..).trans hcurrent, hle⟩
      increasing := fun i j id' value₁ value₂ hij hi hj hdropped =>
        h.increasing i j id' value₁ value₂ hij (hlog i id' value₁ hi).1 (hlog j id' value₂ hj).1
          fun k hik hkj he => hdropped k hik hkj (getElem?_append_of_some he)
      reads := h.reads }

/-- A request moves on. -/
lemma put (h : CacheInv P s) {i : ℕ} {r : BalanceRead} {phase : ReadPhase}
    (hphase : BalanceRead.Sound s { r with phase }) : CacheInv P (s.put i r phase) :=
  { h with
    reads := fun q hq => by
      rcases List.mem_or_eq_of_mem_set hq with hq | rfl
      · exact h.reads q hq
      · exact hphase }

lemma load (h : CacheInv P s) {i : ℕ} {r : BalanceRead} {phase : ReadPhase}
    (hload : s.load r = some phase) : CacheInv P (s.put i r phase) := by
  refine h.put ?_
  unfold CacheState.load at hload
  split at hload
  · split at hload
    · cases hload
      trivial
    · rename_i account hfound
      cases hload
      exact ⟨s.db, h.reachable.sound.linked.mem_states, hfound⟩
  · cases hload

lemma consult (h : CacheInv P s) {i : ℕ} {r : BalanceRead} {available : Bool} {phase : ReadPhase}
    (hr : r ∈ s.reads) (hconsult : s.consult r available = some phase) :
    CacheInv P (s.put i r phase) := by
  refine h.put ?_
  have hsound := h.reads r hr
  unfold CacheState.consult at hconsult
  unfold BalanceRead.Sound at hsound
  split at hconsult
  · rename_i account hp
    rw [hp] at hsound
    cases hconsult
    refine ⟨hsound, fun value hv => ?_⟩
    split_ifs at hv
    · obtain ⟨raw, hraw, hparse⟩ := Option.bind_eq_some_iff.mp hv
      obtain ⟨stored, rfl, hheld⟩ := h.live account.id raw hraw
      rw [parseBalance_raw] at hparse
      cases hparse
      exact hheld
    · cases hv
  · cases hconsult

lemma reply (h : CacheInv P s) {i : ℕ} {r : BalanceRead} {phase : ReadPhase} (hr : r ∈ s.reads)
    (hreply : s.reply r = some phase) : CacheInv P (s.put i r phase) := by
  refine h.put ?_
  have hsound := h.reads r hr
  unfold CacheState.reply at hreply
  unfold BalanceRead.Sound at hsound
  split at hreply
  · rename_i account cached hp
    rw [hp] at hsound
    cases hreply
    exact ⟨hsound, _, rfl⟩
  · cases hreply

/-- Every step preserves the invariant. -/
lemma step (h : CacheInv P s) {e : CacheStep} (hs : s.next P e = some s') : CacheInv P s' := by
  cases e with
  | db e =>
    obtain ⟨timed, ht, rfl⟩ := Option.map_eq_some_iff.mp hs
    exact h.db ht
  | publish commit hook i =>
    obtain ⟨w, hw, rfl⟩ := Option.map_eq_some_iff.mp hs
    exact h.writeBalance (h.published hw)
  | drop id =>
    cases hs
    exact h.drop
  | begin userId =>
    cases hs
    exact
      { h with
        reads := fun r hr => by
          rcases List.mem_append.mp hr with hr | hr
          · exact h.reads r hr
          · rw [List.mem_singleton.mp hr]
            trivial }
  | load i =>
    obtain ⟨r, hr, hs⟩ := Option.bind_eq_some_iff.mp hs
    obtain ⟨phase, hphase, rfl⟩ := Option.map_eq_some_iff.mp hs
    exact h.load hphase
  | consult i available =>
    obtain ⟨r, hr, hs⟩ := Option.bind_eq_some_iff.mp hs
    obtain ⟨phase, hphase, rfl⟩ := Option.map_eq_some_iff.mp hs
    exact h.consult (List.mem_of_getElem? hr) hphase
  | writeBack i =>
    obtain ⟨r, hr, hs⟩ := Option.bind_eq_some_iff.mp hs
    obtain ⟨w, hw, rfl⟩ := Option.map_eq_some_iff.mp hs
    exact h.writeBalance (h.writesBack (List.mem_of_getElem? hr) hw)
  | reply i =>
    obtain ⟨r, hr, hs⟩ := Option.bind_eq_some_iff.mp hs
    obtain ⟨phase, hphase, rfl⟩ := Option.map_eq_some_iff.mp hs
    exact h.reply (List.mem_of_getElem? hr) hphase

lemma start (t : Timestamp) : CacheInv P (CacheState.start t) where
  reachable := ⟨t, .refl⟩
  heading := .start _ rfl rfl
  stored := nofun
  live := nofun
  lasting := by
    intro i id value h
    simp [CacheState.start] at h
  increasing := by
    intro i j id value value' _ h
    simp [CacheState.start] at h
  reads := nofun

/-- The versions of an account tell its balances apart. -/
lemma single (h : CacheInv P s) {value' : CachedBalance} (hheld : s.Held id value)
    (hheld' : s.Held id value') (hv : value.version = value'.version) :
    value.balanceMinor = value'.balanceMinor := by
  obtain ⟨d, hd, a, ha, hav, hab⟩ := hheld
  obtain ⟨d', hd', a', ha', hav', hab'⟩ := hheld'
  have hsound := h.reachable.sound
  have hversions : a.version = a'.version := hav.trans (hv.trans hav'.symm)
  have hone : Revises d d' ∨ Revises d' d :=
    hsound.linked.comparable (R := Revises) (fun _ => .of_same rfl) (fun _ _ _ => Revises.trans)
      (fun r hr => (hsound.commits r hr).1.revises) hd hd'
  have hbalances : a.balanceMinor = a'.balanceMinor := by
    rcases hone with hrev | hrev
    · obtain ⟨b, hb, hab⟩ := hrev id a ha
      cases ha'.symm.trans hb
      exact hab.balance hversions.symm
    · obtain ⟨b, hb, hab⟩ := hrev id a' ha'
      cases ha.symm.trans hb
      exact (hab.balance hversions).symm
  exact hab.symm.trans (hbalances.trans hab')

/-- What a request answered. -/
lemma answers (h : CacheInv P s) {r : BalanceRead} {account : Account}
    {cached : Option CachedBalance} {view : AccountView} (hr : r ∈ s.reads)
    (hp : r.phase = .replied account cached view) :
    s.Seen r.userId account ∧ ∃ version, account.version ≤ version ∧
      s.Held account.id { version, balanceMinor := view.balanceMinor } := by
  have hsound := h.reads r hr
  unfold BalanceRead.Sound at hsound
  rw [hp] at hsound
  obtain ⟨⟨hseen, hcached⟩, spent, rfl⟩ := hsound
  refine ⟨hseen, ?_⟩
  cases huse : useCache account cached with
  | false =>
    refine ⟨account.version, Nat.le_refl _, ?_⟩
    simp only [accountView, huse, Bool.false_eq_true, if_false]
    exact hseen.held
  | true =>
    cases cached with
    | none => cases huse
    | some value =>
      have hlt : account.version < value.version := of_decide_eq_true huse
      refine ⟨value.version, hlt.le, ?_⟩
      simp only [accountView, huse, if_true, Option.map_some, Option.getD_some]
      exact hcached value rfl

lemma coherent (h : CacheInv P s) : CacheCoherent s where
  single _ _ _ hheld hheld' hv := h.single hheld hheld' hv
  stored := h.stored
  increasing := h.increasing
  answers _ hr _ _ _ hp := h.answers hr hp

end CacheInv

end

/-- The cache is coherent in every run: whatever the transactions do and however they end, whenever
a hook is run, if it is, whenever a key goes and however the requests interleave with them. -/
theorem balances_coherent {P : Platform} {t : Timestamp} {s : CacheState}
    (h : Machine.Reached (CacheState.next P) (fun _ _ => True) (CacheState.start t) s) :
    CacheCoherent s :=
  (h.invariant (CacheInv.start t) fun _ _ _ hs _ hnext => hs.step hnext).coherent

/-- Two reads of one balance. The first has read the row before money moves, and its write comes
after the one of the hook. The second one is answered from the cache. -/
def cacheRun : List CacheStep :=
  (session 0 100 asha ++ session 1 200 babu).map .db ++ [.begin 100, .load 0] ++
    (session 2 300 (.sendMoney 100 "k" ⟨"01722222222", 2500, none⟩ .null {})).map .db ++
    [.begin 100, .load 1, .publish 2 0 0, .consult 0 true, .reply 0, .writeBack 0, .consult 1 true,
      .reply 1, .writeBack 1, .drop 101, .writeBack 1]

/-- Where it leads. -/
def CacheState.after (events : List CacheStep) : CacheState :=
  Machine.play (CacheState.next sample) (fun _ _ => true) (.start 1800000000000000) events

/-- The answers of a run. -/
def CacheState.balances (s : CacheState) : List (ℤ × Bool) :=
  s.reads.filterMap fun r =>
    match r.phase with
    | .replied _ _ view => some (view.balanceMinor, view.servedFromCache)
    | _ => none

theorem balances_coherent_cacheRun :
    (CacheState.after cacheRun).balances = [(9997500, true), (9997500, false)] ∧
      (CacheState.after cacheRun).log =
        [.stored 101 ⟨2, 9997500⟩, .dropped 101, .stored 101 ⟨2, 9997500⟩] ∧
      CacheCoherent (CacheState.after cacheRun) :=
  ⟨by decide +kernel, by decide +kernel,
    balances_coherent (.play (fun _ _ _ => trivial) cacheRun .start)⟩

end TakaFlow
