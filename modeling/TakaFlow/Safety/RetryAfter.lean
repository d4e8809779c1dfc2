import TakaFlow.Lib.Snapshots
import TakaFlow.System

/-!
# When to try again

A refused sender is told to wait until the oldest payment of the window has left it. The wait is
in whole seconds, the window includes its first instant, and settlements may have filled it beyond
the limit.
-/

namespace TakaFlow

open Txn

section

variable (P : Platform) (accountId : Uuid) (now : Timestamp) (d : Database)

/-- The counted payments of the window. -/
def Database.recentTransfers : List Transfer :=
  d.countedTransfers accountId (windowStart now P.policy.windowSeconds)

/-- The oldest of them. -/
def Database.oldestRecent : Option Timestamp :=
  ((d.recentTransfers P accountId now).map Transfer.createdAt).min?

/-- The whole seconds since a payment on the clock of the application. At least one second of the
window remains to be waited. -/
def wholeSeconds (oldest : Option Timestamp) : ℤ :=
  match oldest with
  | some t => min (((toMillis now : ℤ) - toMillis t) / 1000) (P.policy.windowSeconds - 1)
  | none => 0

/-- The payments of the window older than the whole seconds of the oldest one. -/
def Database.leavingTransfers : List Transfer :=
  (d.recentTransfers P accountId now).filter fun t =>
    (t.createdAt : ℤ) < now - wholeSeconds P now (d.oldestRecent P accountId now) * microsPerSecond

/-- Without them the window is below the limit. -/
def Database.LeavesRoom : Prop :=
  (d.recentTransfers P accountId now).length <
    P.policy.maxTransfers + (d.leavingTransfers P accountId now).length

instance : Decidable (d.LeavesRoom P accountId now) :=
  inferInstanceAs (Decidable (_ < _))

end

section

variable {P : Platform} {accountId : Uuid} {now : Timestamp} {x : Env} {d : Database}

/-- What the check comes to. -/
lemma outcomeAt_enforceVelocity : (enforceVelocity P accountId).outcomeAt now x d =
    if (d.recentTransfers P accountId now).length < P.policy.maxTransfers then some (.ok ())
    else some (.error (.domain (errors.rateLimited
      (retryAfter P (d.oldestRecent P accountId now) (toMillis now))))) := by
  simp only [enforceVelocity, Program.bind_eq, Program.pure_eq, query, Program.exec, Program.bind,
    Program.outcomeAt, advisoryXactLock, Stmt.selectForUpdate, selectRecentTransfers,
    Stmt.selectMarking, Bool.false_eq_true, if_false]
  by_cases h : (d.recentTransfers P accountId now).length < P.policy.maxTransfers
  · rw [if_pos h]
    exact if_pos h ▸ rfl
  · rw [if_neg h]
    exact if_neg h ▸ rfl

lemma countedTransfers_mono {a b : ℤ} (h : a ≤ b) : d.countedTransfers accountId b =
    (d.countedTransfers accountId a).filter fun t => b ≤ t.createdAt := by
  unfold Database.countedTransfers
  rw [List.filter_filter]
  refine List.filter_congr fun t _ => ?_
  rw [Database.isCounted, Database.isCounted, ← Bool.decide_and]
  refine decide_eq_decide.mpr ?_
  constructor
  · rintro ⟨hfrom, htype, hsince⟩
    exact ⟨hsince, hfrom, htype, h.trans hsince⟩
  · rintro ⟨hsince, hfrom, htype, -⟩
    exact ⟨hfrom, htype, hsince⟩

/-- The window after the wait begins when the oldest payment is as old as that. -/
lemma windowStart_retryAfter (oldest : Option Timestamp) :
    windowStart (now + (retryAfter P oldest (toMillis now)).toNat * microsPerSecond)
      P.policy.windowSeconds = now - wholeSeconds P now oldest * microsPerSecond := by
  unfold windowStart microsPerSecond
  cases oldest with
  | none =>
    simp only [retryAfter, wholeSeconds]
    omega
  | some t =>
    simp only [retryAfter, wholeSeconds]
    omega

lemma wholeSeconds_le (oldest : Option Timestamp) :
    wholeSeconds P now oldest ≤ P.policy.windowSeconds := by
  cases oldest with
  | none => exact Int.natCast_nonneg _
  | some t => exact (min_le_right _ _).trans (Int.sub_le_self _ Int.one_nonneg)

/-- What the window holds after the wait. -/
lemma length_recentTransfers (r : ℤ)
    (hr : r = retryAfter P (d.oldestRecent P accountId now) (toMillis now)) {d' : Database}
    (hsame : ∀ since, (d'.countedTransfers accountId since).length =
      (d.countedTransfers accountId since).length) :
    (d'.recentTransfers P accountId (now + r.toNat * microsPerSecond)).length +
      (d.leavingTransfers P accountId now).length = (d.recentTransfers P accountId now).length := by
  have hage : wholeSeconds P now (d.oldestRecent P accountId now) ≤ P.policy.windowSeconds :=
    wholeSeconds_le _
  have hstart : windowStart now P.policy.windowSeconds ≤
      now - wholeSeconds P now (d.oldestRecent P accountId now) * microsPerSecond := by
    unfold windowStart
    exact Int.sub_le_sub_left (Int.mul_le_mul_of_nonneg_right hage (Int.natCast_nonneg _)) _
  rw [Database.recentTransfers, hr, windowStart_retryAfter, hsame, countedTransfers_mono hstart,
    ← Database.recentTransfers, Database.leavingTransfers]
  have hleaving : (fun t : Transfer => decide ((t.createdAt : ℤ) <
        now - wholeSeconds P now (d.oldestRecent P accountId now) * microsPerSecond)) =
      fun t => !decide ((now : ℤ) - wholeSeconds P now (d.oldestRecent P accountId now) *
        microsPerSecond ≤ t.createdAt) := by
    funext t
    rw [← decide_not]
    exact decide_eq_decide.mpr not_le.symm
  rw [hleaving]
  exact (List.length_eq_length_filter_add _).symm

end

/-! ### The guarantee -/

/-- A sender who is refused and pays nothing in the meantime is admitted after the wait iff enough
payments are older than the whole seconds of the oldest one. -/
theorem retry_after {P : Platform} {accountId : Uuid} {now : Timestamp} {d d' : Database} {r : ℤ}
    (x y : Env) (h : (enforceVelocity P accountId).outcomeAt now x d =
      some (.error (.domain (errors.rateLimited r))))
    (hsame : ∀ since, (d'.countedTransfers accountId since).length =
      (d.countedTransfers accountId since).length) :
    (enforceVelocity P accountId).outcomeAt (now + r.toNat * microsPerSecond) y d' =
      some (.ok ()) ↔ d.LeavesRoom P accountId now := by
  rw [outcomeAt_enforceVelocity] at h ⊢
  split at h
  · cases h
  · rename_i hfull
    have hr : r = retryAfter P (d.oldestRecent P accountId now) (toMillis now) := by
      have hrefused := Error.domain.inj (Except.error.inj (Option.some.inj h))
      have hheaders := congrArg DomainError.headers hrefused
      exact toString_int_inj (Prod.mk.inj (List.cons.inj hheaders).1).2.symm
    have hlength := length_recentTransfers r hr hsame
    unfold Database.LeavesRoom
    split
    · rename_i hroom
      refine iff_of_true rfl ?_
      omega
    · rename_i hroom
      refine iff_of_false (fun h => nomatch h) ?_
      omega

/-- Asha pays Babu at once, after four seconds and after nine. -/
def paidThrice : State :=
  State.after sample (session 0 100 asha ++ session 1 200 babu ++
    session 2 300 (.sendMoney 100 "k" ⟨"01722222222", 2500, none⟩ .null {}) ++
    .tick (4 * microsPerSecond) ::
      session 3 400 (.sendMoney 100 "l" ⟨"01722222222", 2500, none⟩ .null {}) ++
    .tick (5 * microsPerSecond) ::
      session 4 500 (.sendMoney 100 "m" ⟨"01722222222", 2500, none⟩ .null {}))

/-- What a sender is told who is refused. -/
lemma outcomeAt_refused {P : Platform} {accountId : Uuid} {now : Timestamp} {d : Database} {r : ℤ}
    (x : Env) (h : ¬ (d.recentTransfers P accountId now).length < P.policy.maxTransfers)
    (hr : retryAfter P (d.oldestRecent P accountId now) (toMillis now) = r) :
    (enforceVelocity P accountId).outcomeAt now x d =
      some (.error (.domain (errors.rateLimited r))) := by
  rw [outcomeAt_enforceVelocity, if_neg h, hr]

/-- The oldest payment is 10.9 seconds old, and 60.9 seconds after it there is room. -/
theorem retry_after_sample :
    (enforceVelocity sample 101).outcomeAt (1800000010900000 + 50 * microsPerSecond) {}
      paidThrice.db = some (.ok ()) := by
  have hrefused : (enforceVelocity sample 101).outcomeAt 1800000010900000 {} paidThrice.db =
      some (.error (.domain (errors.rateLimited 50))) :=
    outcomeAt_refused _ (by decide +kernel) (by decide +kernel)
  exact (retry_after (r := 50) {} {} hrefused fun _ => rfl).mpr (by decide +kernel)

/-- Ten seconds after the oldest payment a sender is told to wait for fifty, and then that payment
is still in the window. -/
theorem retry_after_fails : ¬ ∀ (P : Platform) (accountId : Uuid) (now : Timestamp) (x : Env)
    (d : Database) (r : ℤ), (enforceVelocity P accountId).outcomeAt now x d =
      some (.error (.domain (errors.rateLimited r))) →
    (enforceVelocity P accountId).outcomeAt (now + r.toNat * microsPerSecond) x d =
      some (.ok ()) := by
  intro h
  have hadmitted := h sample 101 1800000010000000 {} paidThrice.db 50
    (outcomeAt_refused _ (by decide +kernel) (by decide +kernel))
  rw [outcomeAt_enforceVelocity, if_neg (by decide +kernel)] at hadmitted
  cases hadmitted

end TakaFlow
