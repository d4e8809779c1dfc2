import TakaFlow.Migrations
import TakaFlow.Safety.RequestText

/-!
# Migrations are applied once and in order

However many runners start at once, and wherever they fail or crash, each migration takes effect
once, together with its record.
-/

namespace TakaFlow

open Txn

/-! ### The statements -/

/-- Does a runner in this phase hold the advisory lock? -/
def RunnerPhase.holds : RunnerPhase → Bool
  | .selecting => true
  | .loading _ => true
  | .looping _ _ _ => true
  | .applying _ _ _ _ _ => true
  | .undoing _ => true
  | _ => false

/-- What a runner has returned, or is about to. -/
def RunnerPhase.outcome? : RunnerPhase → Option (Except String MigrationResult)
  | .unlocking outcome => some outcome
  | .ended outcome => some outcome
  | _ => none

namespace MigrationState

/-- The migrations that a runner has applied. -/
def own (s : MigrationState) (i : ℕ) : List MigrationFile :=
  (s.log.filter fun e => e.1 = i).map Prod.snd

end MigrationState

/-- What holds in every state of a run. -/
structure MigrationsHold (sha256 : String → String) (s : MigrationState) : Prop where
  exclusive : ∀ (i j : ℕ) (r q : Runner), s.runners[i]? = some r → s.runners[j]? = some q →
    r.phase.holds = true → q.phase.holds = true → i = j
  once : (s.log.map fun e => e.2.name).Nodup
  recorded : s.table.rows = s.log.map fun e => e.2.row
  inOrder : ∀ (i : ℕ) (r : Runner), s.runners[i]? = some r →
    (s.own i).Sublist (loadMigrations sha256 r.migrationsDir)
  complete : ∀ (i : ℕ) (r : Runner) (result : MigrationResult), s.runners[i]? = some r →
    r.phase.outcome? = some (.ok result) → result.applied = (s.own i).map MigrationFile.name ∧
      ∀ m ∈ loadMigrations sha256 r.migrationsDir, m.row ∈ s.table
  unchanged : ∀ (i : ℕ) (r : Runner), s.runners[i]? = some r →
    ∀ m ∈ loadMigrations sha256 r.migrationsDir, ∀ row ∈ s.table, row.name = m.name →
      row.checksum ≠ m.checksum → ∀ result, r.phase.outcome? ≠ some (.ok result)

/-- Runners of one build leave a prefix of its migrations, and all of them once one returns. -/
structure MigratedInOrder (files : List MigrationFile) (s : MigrationState) : Prop where
  ordered : s.log.map Prod.snd <+: files
  complete : ∀ r ∈ s.runners, ∀ result, r.phase.outcome? = some (.ok result) →
    s.log.map Prod.snd = files

/-! ### What a step can be -/

section

variable {sha256 : String → String} {s s' : MigrationState} {i : ℕ}

/-- A phase in which a runner has given up. -/
def RunnerPhase.givenUp : RunnerPhase → Bool
  | .undoing _ => true
  | .unlocking (.error _) => true
  | .ended (.error _) => true
  | .crashed => true
  | _ => false

/-- What a move does to the lock. -/
inductive LockMove (held : Option ℕ) (i : ℕ) : Option ℕ → Prop where
  | keep : LockMove held i held
  | free (h : held = some i) : LockMove held i none

inductive MigrationMove (sha256 : String → String) (s : MigrationState) :
    MigrationStep → MigrationState → Prop where
  | start (migrationsDir : Directory) : MigrationMove sha256 s (.start migrationsDir)
      { s with runners := s.runners ++ [{ migrationsDir }] }
  | waits {e : MigrationStep} {i : ℕ} {r : Runner} (hi : s.runners[i]? = some r)
      (hr : r.phase = .creating) : MigrationMove sha256 s e (s.put i r .locking)
  | locks {e : MigrationStep} {i : ℕ} {r : Runner} (hi : s.runners[i]? = some r)
      (hr : r.phase = .locking) (hfree : s.lock = none) :
      MigrationMove sha256 s e ((s.acquire i).put i r .selecting)
  | selects {e : MigrationStep} {i : ℕ} {r : Runner} (hi : s.runners[i]? = some r)
      (hr : r.phase = .selecting) :
      MigrationMove sha256 s e (s.put i r (.loading s.table.rows))
  | loads {e : MigrationStep} {i : ℕ} {r : Runner} {previous : List MigrationRow}
      (hi : s.runners[i]? = some r) (hr : r.phase = .loading previous) :
      MigrationMove sha256 s e
        (s.put i r (.looping previous (loadMigrations sha256 r.migrationsDir) []))
  | skips {e : MigrationStep} {i : ℕ} {r : Runner} {previous : List MigrationRow}
      {m : MigrationFile} {migrations : List MigrationFile} {applied : List String}
      (hi : s.runners[i]? = some r) (hr : r.phase = .looping previous (m :: migrations) applied)
      (hseen : m.row ∈ previous) :
      MigrationMove sha256 s e (s.put i r (.looping previous migrations applied))
  | begins {e : MigrationStep} {i : ℕ} {r : Runner} {previous : List MigrationRow}
      {m : MigrationFile} {migrations : List MigrationFile} {applied : List String}
      (hi : s.runners[i]? = some r) (hr : r.phase = .looping previous (m :: migrations) applied) :
      MigrationMove sha256 s e (s.put i r (.applying previous m migrations applied .begin))
  | applies {e : MigrationStep} {i : ℕ} {r : Runner} {previous : List MigrationRow}
      {m : MigrationFile} {migrations : List MigrationFile} {applied : List String}
      {stmt next : MigrationStmt} (hi : s.runners[i]? = some r)
      (hr : r.phase = .applying previous m migrations applied stmt)
      (hunique : next = .commit → s.table.has m.name = false) :
      MigrationMove sha256 s e (s.put i r (.applying previous m migrations applied next))
  | commits {e : MigrationStep} {i : ℕ} {r : Runner} {previous : List MigrationRow}
      {m : MigrationFile} {migrations : List MigrationFile} {applied : List String}
      (hi : s.runners[i]? = some r)
      (hr : r.phase = .applying previous m migrations applied .commit) :
      MigrationMove sha256 s e
        ((s.commit i m).put i r (.looping previous migrations (applied ++ [m.name])))
  | breaks {e : MigrationStep} {i : ℕ} {r : Runner} {previous : List MigrationRow}
      {m : MigrationFile} {migrations : List MigrationFile} {applied : List String}
      {phase : RunnerPhase} {l : Option ℕ} (hi : s.runners[i]? = some r)
      (hr : r.phase = .applying previous m migrations applied .commit)
      (hphase : phase.givenUp = true) (hlock : LockMove s.lock i l)
      (hholds : phase.holds = true → l = s.lock) :
      MigrationMove sha256 s e { (s.commit i m).put i r phase with lock := l }
  | finishes {e : MigrationStep} {i : ℕ} {r : Runner} {previous : List MigrationRow}
      {applied : List String} (hi : s.runners[i]? = some r)
      (hr : r.phase = .looping previous [] applied) :
      MigrationMove sha256 s e
        (s.put i r (.unlocking (.ok { applied, alreadyApplied := previous.length })))
  | fails {e : MigrationStep} {i : ℕ} {r : Runner} {phase : RunnerPhase} {l : Option ℕ}
      (hi : s.runners[i]? = some r) (hphase : phase.givenUp = true)
      (hlock : LockMove s.lock i l)
      (hholds : phase.holds = true → r.phase.holds = true ∧ l = s.lock) :
      MigrationMove sha256 s e { s.put i r phase with lock := l }
  | ends {e : MigrationStep} {i : ℕ} {r : Runner} {result : MigrationResult}
      {l : Option ℕ} (hi : s.runners[i]? = some r)
      (hr : r.phase = .unlocking (.ok result)) (hlock : LockMove s.lock i l) :
      MigrationMove sha256 s e { s.put i r (.ended (.ok result)) with lock := l }
  | disconnects {e : MigrationStep} {i : ℕ} {r : Runner} (hi : s.runners[i]? = some r)
      (hr : r.phase.holds = false) (hlock : s.lock = some i) :
      MigrationMove sha256 s e { s with lock := none }

lemma release_eq (s : MigrationState) (i : ℕ) :
    ∃ lock, LockMove s.lock i lock ∧ s.release i = { s with lock } := by
  unfold MigrationState.release
  by_cases h : s.lock = some i
  · rw [if_pos h]
    exact ⟨none, .free h, rfl⟩
  · rw [if_neg h]
    exact ⟨s.lock, .keep, rfl⟩

lemma migrationMove_of_advance {e : MigrationStep} {r : Runner} (hi : s.runners[i]? = some r)
    (h : s.advance sha256 i r = some s') : MigrationMove sha256 s e s' := by
  unfold MigrationState.advance at h
  cases hr : r.phase with
  | creating =>
    rw [hr] at h
    cases h
    exact .waits hi hr
  | locking =>
    rw [hr] at h
    simp only at h
    split_ifs at h with hfree
    cases h
    exact .locks hi hr hfree
  | selecting =>
    rw [hr] at h
    cases h
    exact .selects hi hr
  | loading previous =>
    rw [hr] at h
    cases h
    exact .loads hi hr
  | looping previous migrations applied =>
    rw [hr] at h
    cases migrations with
    | nil =>
      cases h
      exact .finishes hi hr
    | cons m migrations =>
      simp only at h
      cases hfind : previous.find? fun row => row.name = m.name with
      | none =>
        rw [hfind] at h
        cases h
        exact .begins hi hr
      | some row =>
        rw [hfind] at h
        simp only at h
        have hname : row.name = m.name := by simpa using List.find?_some hfind
        split_ifs at h with hchanged
        · cases h
          refine .fails (l := s.lock) hi rfl .keep fun hholds => ?_
          cases hholds
        · cases h
          refine .skips hi hr ?_
          have hrow : row = m.row := by
            obtain ⟨name, checksum⟩ := row
            rw [not_not] at hchanged
            cases hname
            cases hchanged
            rfl
          exact hrow ▸ List.mem_of_find?_eq_some hfind
  | applying previous m migrations applied stmt =>
    rw [hr] at h
    cases stmt with
    | begin =>
      cases h
      exact .applies hi hr fun hnext => by cases hnext
    | script =>
      cases h
      exact .applies hi hr fun hnext => by cases hnext
    | insert =>
      simp only at h
      split_ifs at h with hhas
      · cases h
        refine .fails (l := s.lock) hi rfl .keep fun _ => ⟨?_, rfl⟩
        rw [hr]
        rfl
      · cases h
        exact .applies hi hr fun _ => Bool.eq_false_iff.mpr hhas
    | commit =>
      cases h
      exact .commits hi hr
  | undoing error =>
    rw [hr] at h
    cases h
    refine .fails (l := s.lock) hi rfl .keep fun hholds => ?_
    cases hholds
  | unlocking outcome =>
    rw [hr] at h
    cases h
    obtain ⟨lock, hlock, hrelease⟩ := release_eq s i
    rw [hrelease]
    cases outcome with
    | error error =>
      refine .fails (l := lock) hi rfl hlock fun hholds => ?_
      cases hholds
    | ok result => exact .ends hi hr hlock
  | ended outcome =>
    rw [hr] at h
    cases h
  | crashed =>
    rw [hr] at h
    cases h

/-- A commit that goes through though the runner is not told, or none. -/
lemma commitIf_cases (s : MigrationState) (i : ℕ) (phase : RunnerPhase) (done : Bool) :
    s.commitIf i phase done = s ∨ ∃ previous m migrations applied,
      phase = .applying previous m migrations applied .commit ∧
        s.commitIf i phase done = s.commit i m := by
  cases phase with
  | applying previous m migrations applied stmt =>
    cases stmt with
    | commit =>
      cases done with
      | true => exact .inr ⟨previous, m, migrations, applied, rfl, rfl⟩
      | false => exact .inl rfl
    | begin => exact .inl rfl
    | script => exact .inl rfl
    | insert => exact .inl rfl
  | creating => exact .inl rfl
  | locking => exact .inl rfl
  | selecting => exact .inl rfl
  | loading previous => exact .inl rfl
  | looping previous migrations applied => exact .inl rfl
  | undoing error => exact .inl rfl
  | unlocking outcome => exact .inl rfl
  | ended outcome => exact .inl rfl
  | crashed => exact .inl rfl

/-- A runner gives up, and its last commit may have gone through. -/
lemma migrationMove_of_givenUp {e : MigrationStep} {r : Runner} {phase : RunnerPhase}
    {done : Bool} {lock : Option ℕ} (hi : s.runners[i]? = some r) (hphase : phase.givenUp = true)
    (hlock : LockMove s.lock i lock)
    (hholds : phase.holds = true → r.phase.holds = true ∧ lock = s.lock) :
    MigrationMove sha256 s e { (s.commitIf i r.phase done).put i r phase with lock } := by
  obtain hcommit | ⟨previous, m, migrations, applied, hr, hcommit⟩ :=
    commitIf_cases s i r.phase done
  · rw [hcommit]
    exact .fails hi hphase hlock hholds
  · rw [hcommit]
    exact .breaks hi hr hphase hlock fun h => (hholds h).2

lemma lock_commitIf (s : MigrationState) (i : ℕ) (phase : RunnerPhase) (done : Bool) :
    (s.commitIf i phase done).lock = s.lock := by
  obtain hcommit | ⟨previous, m, migrations, applied, -, hcommit⟩ :=
    commitIf_cases s i phase done
  · rw [hcommit]
  · rw [hcommit]
    rfl

lemma migrationMove_of_thrown {e : MigrationStep} {r : Runner} {phase : RunnerPhase}
    {message : String} {done : Bool} (hi : s.runners[i]? = some r)
    (h : MigrationState.thrown message r.phase = some phase) :
    MigrationMove sha256 s e ((s.commitIf i r.phase done).put i r phase) := by
  have hgivenUp : ∀ (phase : RunnerPhase), phase.givenUp = true →
      (phase.holds = true → r.phase.holds = true) →
      MigrationMove sha256 s e ((s.commitIf i r.phase done).put i r phase) := by
    intro phase hphase hholds
    have hmove : MigrationMove sha256 s e
        { (s.commitIf i r.phase done).put i r phase with lock := s.lock } :=
      migrationMove_of_givenUp hi hphase .keep fun h => ⟨hholds h, rfl⟩
    rw [← lock_commitIf s i r.phase done] at hmove
    exact hmove
  cases hr : r.phase with
  | applying previous m migrations applied stmt =>
    rw [hr] at h hgivenUp
    cases h
    exact hgivenUp _ rfl fun _ => rfl
  | unlocking outcome =>
    rw [hr] at h hgivenUp
    cases h
    cases outcome with
    | error error => exact hgivenUp _ rfl fun hholds => by cases hholds
    | ok result => exact .ends (l := s.lock) hi hr .keep
  | creating =>
    rw [hr] at h hgivenUp
    cases h
    exact hgivenUp _ rfl fun hholds => by cases hholds
  | locking =>
    rw [hr] at h hgivenUp
    cases h
    exact hgivenUp _ rfl fun hholds => by cases hholds
  | selecting =>
    rw [hr] at h hgivenUp
    cases h
    exact hgivenUp _ rfl fun hholds => by cases hholds
  | loading previous =>
    rw [hr] at h hgivenUp
    cases h
    exact hgivenUp _ rfl fun hholds => by cases hholds
  | undoing error =>
    rw [hr] at h hgivenUp
    cases h
    exact hgivenUp _ rfl fun hholds => by cases hholds
  | looping previous migrations applied =>
    rw [hr] at h
    cases h
  | ended outcome =>
    rw [hr] at h
    cases h
  | crashed =>
    rw [hr] at h
    cases h

lemma migrationMove_of_next {e : MigrationStep} (h : s.next sha256 e = some s') :
    MigrationMove sha256 s e s' := by
  cases e with
  | start migrationsDir =>
    cases h
    exact .start migrationsDir
  | step i =>
    obtain ⟨r, hi, h⟩ := Option.bind_eq_some_iff.mp h
    exact migrationMove_of_advance hi h
  | fail i message done =>
    obtain ⟨r, hi, h⟩ := Option.bind_eq_some_iff.mp h
    obtain ⟨phase, hphase, h⟩ := Option.bind_eq_some_iff.mp h
    cases h
    exact migrationMove_of_thrown hi hphase
  | crash i done =>
    obtain ⟨r, hi, h⟩ := Option.bind_eq_some_iff.mp h
    split_ifs at h
    cases h
    obtain ⟨lock, hlock, hrelease⟩ := release_eq (s.commitIf i r.phase done) i
    rw [hrelease]
    rw [lock_commitIf] at hlock
    exact migrationMove_of_givenUp hi rfl hlock fun hholds => by cases hholds
  | disconnect i =>
    obtain ⟨r, hi, h⟩ := Option.bind_eq_some_iff.mp h
    split_ifs at h with hover
    cases h
    obtain ⟨hover, hlock⟩ := hover
    have hholds : r.phase.holds = false := by
      cases hr : r.phase with
      | ended outcome => rfl
      | crashed => rfl
      | _ =>
        rw [hr] at hover
        cases hover
    unfold MigrationState.release
    rw [if_pos hlock]
    exact .disconnects hi hholds hlock

/-! ### The invariant -/

/-- A runner has dealt with some files and has others to come. -/
structure Looped (files : List MigrationFile) (s : MigrationState) (i : ℕ)
    (previous : List MigrationRow) (applied : List String) (done todo : List MigrationFile) :
    Prop where
  files : files = done ++ todo
  checked : ∀ m ∈ done, m.row ∈ s.table
  previous : ∀ row ∈ previous, row ∈ s.table
  applied : applied = (s.own i).map MigrationFile.name
  own : (s.own i).Sublist done

/-- What holds of one runner. -/
def Runner.Working (sha256 : String → String) (s : MigrationState) (i : ℕ) (r : Runner) : Prop :=
  match r.phase with
  | .creating => s.own i = []
  | .locking => s.own i = []
  | .selecting => s.own i = []
  | .loading previous => s.own i = [] ∧ ∀ row ∈ previous, row ∈ s.table
  | .looping previous todo applied =>
    ∃ done, Looped (loadMigrations sha256 r.migrationsDir) s i previous applied done todo
  | .applying previous m todo applied stmt =>
    (∃ done, Looped (loadMigrations sha256 r.migrationsDir) s i previous applied done (m :: todo)) ∧
      (stmt = .commit → s.table.has m.name = false)
  | .undoing _ => (s.own i).Sublist (loadMigrations sha256 r.migrationsDir)
  | .crashed => (s.own i).Sublist (loadMigrations sha256 r.migrationsDir)
  | .unlocking outcome => (s.own i).Sublist (loadMigrations sha256 r.migrationsDir) ∧
      ∀ result, outcome = .ok result → result.applied = (s.own i).map MigrationFile.name ∧
        ∀ m ∈ loadMigrations sha256 r.migrationsDir, m.row ∈ s.table
  | .ended outcome => (s.own i).Sublist (loadMigrations sha256 r.migrationsDir) ∧
      ∀ result, outcome = .ok result → result.applied = (s.own i).map MigrationFile.name ∧
        ∀ m ∈ loadMigrations sha256 r.migrationsDir, m.row ∈ s.table

structure MigrationInv (sha256 : String → String) (s : MigrationState) : Prop where
  locked : ∀ (i : ℕ) (r : Runner), s.runners[i]? = some r → r.phase.holds = true →
    s.lock = some i
  working : ∀ (i : ℕ) (r : Runner), s.runners[i]? = some r → r.Working sha256 s i
  recorded : s.table.rows = s.log.map fun e => e.2.row
  owners : ∀ e ∈ s.log, e.1 < s.runners.length

lemma Looped.congr {files : List MigrationFile} {previous : List MigrationRow}
    {applied : List String} {done todo : List MigrationFile}
    (hown : s'.own i = s.own i) (htable : ∀ row ∈ s.table, row ∈ s'.table)
    (h : Looped files s i previous applied done todo) :
    Looped files s' i previous applied done todo := by
  refine ⟨h.files, fun m hm => htable _ (h.checked m hm),
    fun row hrow => htable _ (h.previous row hrow), ?_, ?_⟩
  · rw [hown]
    exact h.applied
  · rw [hown]
    exact h.own

lemma Looped.sublist {files : List MigrationFile} {previous : List MigrationRow}
    {applied : List String} {done todo : List MigrationFile}
    (h : Looped files s i previous applied done todo) : (s.own i).Sublist files := by
  rw [h.files]
  exact h.own.trans (List.sublist_append_left _ _)

/-- What a runner has applied is in the order of its files. -/
lemma Runner.Working.sublist {r : Runner} (h : r.Working sha256 s i) :
    (s.own i).Sublist (loadMigrations sha256 r.migrationsDir) := by
  unfold Runner.Working at h
  cases hr : r.phase with
  | looping previous todo applied =>
    rw [hr] at h
    obtain ⟨done, h⟩ := h
    exact h.sublist
  | applying previous m todo applied stmt =>
    rw [hr] at h
    obtain ⟨⟨done, h⟩, -⟩ := h
    exact h.sublist
  | undoing error =>
    rw [hr] at h
    exact h
  | crashed =>
    rw [hr] at h
    exact h
  | unlocking outcome =>
    rw [hr] at h
    exact h.1
  | ended outcome =>
    rw [hr] at h
    exact h.1
  | loading previous =>
    rw [hr] at h
    rw [h.1]
    exact List.nil_sublist _
  | creating =>
    rw [hr] at h
    simp only at h
    rw [h]
    exact List.nil_sublist _
  | locking =>
    rw [hr] at h
    simp only at h
    rw [h]
    exact List.nil_sublist _
  | selecting =>
    rw [hr] at h
    simp only at h
    rw [h]
    exact List.nil_sublist _

/-- A runner is not concerned by records that others add while it does not hold the lock. -/
lemma Runner.Working.congr {r : Runner} (h : r.Working sha256 s i) (hown : s'.own i = s.own i)
    (htable : ∀ row ∈ s.table, row ∈ s'.table)
    (hquiet : r.phase.holds = true → s'.table = s.table) : r.Working sha256 s' i := by
  unfold Runner.Working at h ⊢
  cases hr : r.phase with
  | looping previous todo applied =>
    rw [hr] at h
    obtain ⟨done, h⟩ := h
    exact ⟨done, h.congr hown htable⟩
  | applying previous m todo applied stmt =>
    rw [hr] at h hquiet
    obtain ⟨⟨done, h⟩, hunique⟩ := h
    refine ⟨⟨done, h.congr hown htable⟩, ?_⟩
    rw [hquiet rfl]
    exact hunique
  | undoing error =>
    rw [hr] at h
    simp only [hown]
    exact h
  | crashed =>
    rw [hr] at h
    simp only [hown]
    exact h
  | unlocking outcome =>
    rw [hr] at h
    simp only [hown]
    refine ⟨h.1, fun result hresult => ?_⟩
    obtain ⟨happlied, hall⟩ := h.2 result hresult
    exact ⟨happlied, fun m hm => htable _ (hall m hm)⟩
  | ended outcome =>
    rw [hr] at h
    simp only [hown]
    refine ⟨h.1, fun result hresult => ?_⟩
    obtain ⟨happlied, hall⟩ := h.2 result hresult
    exact ⟨happlied, fun m hm => htable _ (hall m hm)⟩
  | loading previous =>
    rw [hr] at h
    simp only [hown]
    exact ⟨h.1, fun row hrow => htable _ (h.2 row hrow)⟩
  | creating =>
    rw [hr] at h
    simp only [hown]
    exact h
  | locking =>
    rw [hr] at h
    simp only [hown]
    exact h
  | selecting =>
    rw [hr] at h
    simp only [hown]
    exact h

/-- Where a runner gives up, only what it has applied counts. -/
lemma working_of_givenUp {r : Runner} {phase : RunnerPhase} (hphase : phase.givenUp = true)
    (h : (s.own i).Sublist (loadMigrations sha256 r.migrationsDir)) :
    Runner.Working sha256 s i { r with phase } := by
  cases phase with
  | undoing error => exact h
  | crashed => exact h
  | unlocking outcome =>
    cases outcome with
    | error error =>
      refine ⟨h, fun result hresult => ?_⟩
      cases hresult
    | ok result => cases hphase
  | ended outcome =>
    cases outcome with
    | error error =>
      refine ⟨h, fun result hresult => ?_⟩
      cases hresult
    | ok result => cases hphase
  | creating => cases hphase
  | locking => cases hphase
  | selecting => cases hphase
  | loading previous => cases hphase
  | looping previous todo applied => cases hphase
  | applying previous m todo applied stmt => cases hphase

/-! ### The step lemma -/

lemma runners_put {j : ℕ} {r q : Runner} {phase : RunnerPhase}
    (h : (s.put i r phase).runners[j]? = some q) :
    (j = i ∧ q = { r with phase }) ∨ (j ≠ i ∧ s.runners[j]? = some q) := by
  simp only [MigrationState.put, List.getElem?_set] at h
  split_ifs at h with hij hlt
  · cases h
    exact .inl ⟨hij.symm, rfl⟩
  · exact .inr ⟨Ne.symm hij, h⟩

/-- A runner moves on and nothing is committed. -/
lemma MigrationInv.put {r : Runner} {phase : RunnerPhase} {lock : Option ℕ}
    (h : MigrationInv sha256 s) (hi : s.runners[i]? = some r)
    (hothers : ∀ j, j ≠ i → s.lock = some j → lock = some j)
    (hholds : phase.holds = true → lock = some i)
    (hworking : Runner.Working sha256 s i { r with phase }) :
    MigrationInv sha256 { s.put i r phase with lock } := by
  constructor
  · intro j q hj hq
    obtain ⟨rfl, rfl⟩ | ⟨hne, hj⟩ := runners_put hj
    · exact hholds hq
    · exact hothers j hne (h.locked j q hj hq)
  · intro j q hj
    obtain ⟨rfl, rfl⟩ | ⟨-, hj⟩ := runners_put hj
    · exact hworking.congr rfl (fun _ hrow => hrow) fun _ => rfl
    · exact (h.working j q hj).congr rfl (fun _ hrow => hrow) fun _ => rfl
  · exact h.recorded
  · intro e he
    simp only [MigrationState.put, List.length_set]
    exact h.owners e he

lemma LockMove.others {held lock : Option ℕ} (h : LockMove held i lock) (j : ℕ) (hj : j ≠ i)
    (hheld : held = some j) : lock = some j := by
  cases h with
  | keep => exact hheld
  | free hi =>
    rw [hheld] at hi
    cases hi
    exact absurd rfl hj

lemma own_commit {m : MigrationFile} (j : ℕ) :
    (s.commit i m).own j = s.own j ++ if i = j then [m] else [] := by
  unfold MigrationState.own MigrationState.commit
  rw [List.filter_append, List.map_append]
  by_cases hij : i = j
  · simp [hij]
  · simp [hij]

/-- A runner's migration is committed. -/
lemma MigrationInv.commit {r : Runner} {phase : RunnerPhase} {lock : Option ℕ}
    {previous : List MigrationRow} {m : MigrationFile} {todo : List MigrationFile}
    {applied : List String} (h : MigrationInv sha256 s) (hi : s.runners[i]? = some r)
    (hr : r.phase = .applying previous m todo applied .commit)
    (hlock : LockMove s.lock i lock) (hholds : phase.holds = true → lock = s.lock)
    (hworking : Runner.Working sha256 (s.commit i m) i { r with phase }) :
    MigrationInv sha256 { (s.commit i m).put i r phase with lock } := by
  have hheld : s.lock = some i := by
    refine h.locked i r hi ?_
    rw [hr]
    rfl
  have hunused : s.table.has m.name = false := by
    have hw := h.working i r hi
    unfold Runner.Working at hw
    rw [hr] at hw
    exact hw.2 rfl
  have hrows : (s.commit i m).table.rows = s.table.rows ++ [m.row] :=
    Table.rows_insert ((Table.has_eq_false _ _).mp hunused)
  constructor
  · intro j q hj hq
    obtain ⟨rfl, rfl⟩ | ⟨hne, hj⟩ := runners_put (s := s.commit i m) hj
    · rw [hholds hq]
      exact hheld
    · have hother := h.locked j q hj hq
      rw [hheld] at hother
      cases hother
      exact absurd rfl hne
  · intro j q hj
    obtain ⟨rfl, rfl⟩ | ⟨hne, hj⟩ := runners_put (s := s.commit i m) hj
    · exact hworking.congr rfl (fun _ hrow => hrow) fun _ => rfl
    · refine (h.working j q hj).congr ?_ ?_ ?_
      · refine (own_commit j).trans ?_
        rw [if_neg (Ne.symm hne), List.append_nil]
      · exact fun row hrow => Table.mem_insert_of_mem hrow
      · -- Two runners do not hold the lock at once.
        intro hq
        have hother := h.locked j q hj hq
        rw [hheld] at hother
        cases hother
        exact absurd rfl hne
  · have hlog : (s.log ++ [(i, m)]).map (fun e => e.2.row) =
        s.log.map (fun e => e.2.row) ++ [m.row] := by simp
    rw [← h.recorded, ← hrows] at hlog
    exact hlog.symm
  · intro e he
    simp only [MigrationState.put, List.length_set]
    obtain he | he := List.mem_append.mp he
    · exact h.owners e he
    · rw [List.mem_singleton.mp he]
      exact (List.getElem?_eq_some_iff.mp hi).1

/-- The files of a runner whose migration is committed. -/
lemma Looped.commit {files : List MigrationFile} {previous : List MigrationRow}
    {m : MigrationFile} {applied : List String} {done todo : List MigrationFile}
    (h : Looped files s i previous applied done (m :: todo))
    (hunused : s.table.has m.name = false) :
    Looped files (s.commit i m) i previous (applied ++ [m.name]) (done ++ [m]) todo := by
  have hown : (s.commit i m).own i = s.own i ++ [m] := by
    rw [own_commit, if_pos rfl]
  have hmem : m.row ∈ (s.commit i m).table :=
    (Table.mem_insert ((Table.has_eq_false _ _).mp hunused)).mpr (.inr rfl)
  refine ⟨?_, fun m' hm' => ?_, fun row hrow => Table.mem_insert_of_mem (h.previous row hrow),
    ?_, ?_⟩
  · rw [h.files, List.append_assoc]
    rfl
  · obtain hm' | hm' := List.mem_append.mp hm'
    · exact Table.mem_insert_of_mem (h.checked m' hm')
    · rw [List.mem_singleton.mp hm']
      exact hmem
  · rw [hown, List.map_append, h.applied]
    rfl
  · rw [hown]
    exact h.own.append (List.Sublist.refl _)

/-- A runner that has just started has applied nothing. -/
lemma MigrationInv.start (h : MigrationInv sha256 s) (migrationsDir : Directory) :
    MigrationInv sha256 { s with runners := s.runners ++ [{ migrationsDir }] } := by
  have hnew : ∀ (j : ℕ) (q : Runner),
      (s.runners ++ [({ migrationsDir } : Runner)])[j]? = some q →
      s.runners[j]? = some q ∨ (j = s.runners.length ∧ q = { migrationsDir }) := by
    intro j q hj
    rw [List.getElem?_append] at hj
    split_ifs at hj with hlt
    · exact .inl hj
    · refine .inr ⟨?_, List.mem_singleton.mp (List.mem_of_getElem? hj)⟩
      have hlast := (List.getElem?_eq_some_iff.mp hj).1
      rw [List.length_singleton] at hlast
      omega
  constructor
  · intro j q hj hq
    obtain hj | ⟨-, rfl⟩ := hnew j q hj
    · exact h.locked j q hj hq
    · cases hq
  · intro j q hj
    obtain hj | ⟨rfl, rfl⟩ := hnew j q hj
    · exact (h.working j q hj).congr rfl (fun _ hrow => hrow) fun _ => rfl
    · change MigrationState.own _ _ = []
      unfold MigrationState.own
      rw [List.map_eq_nil_iff, List.filter_eq_nil_iff]
      intro e he heq
      rw [decide_eq_true_eq] at heq
      exact absurd (h.owners e he) (heq ▸ Nat.lt_irrefl _)
  · exact h.recorded
  · intro e he
    rw [List.length_append]
    exact Nat.lt_add_right _ (h.owners e he)

/-- The step lemma, by cases on the move. -/
lemma MigrationInv.step {e : MigrationStep} (h : MigrationInv sha256 s)
    (hs : s.next sha256 e = some s') : MigrationInv sha256 s' := by
  have hkeep : ∀ {i : ℕ} {r : Runner} {phase : RunnerPhase}, s.runners[i]? = some r →
      (phase.holds = true → s.lock = some i) → Runner.Working sha256 s i { r with phase } →
      MigrationInv sha256 (s.put i r phase) := by
    intro i r phase hi hholds hworking
    exact h.put hi (fun _ _ hlock => hlock) hholds hworking
  have hw : ∀ {i : ℕ} {r : Runner} {phase : RunnerPhase}, s.runners[i]? = some r →
      r.phase = phase → Runner.Working sha256 s i { r with phase } := by
    intro i r phase hi hr
    have hworking := h.working i r hi
    obtain ⟨dir, phase'⟩ := r
    cases hr
    exact hworking
  cases migrationMove_of_next hs with
  | start migrationsDir => exact h.start migrationsDir
  | waits hi hr =>
    have hown := hw hi hr
    refine hkeep hi (fun hholds => ?_) hown
    cases hholds
  | locks hi hr hfree =>
    have hown := hw hi hr
    refine h.put hi (fun j _ hlock => ?_) (fun _ => rfl) hown
    rw [hfree] at hlock
    cases hlock
  | selects hi hr =>
    have hlock := h.locked _ _ hi (by rw [hr]; rfl)
    exact hkeep hi (fun _ => hlock) ⟨hw hi hr, fun _ hrow => hrow⟩
  | loads hi hr =>
    have hlock := h.locked _ _ hi (by rw [hr]; rfl)
    obtain ⟨hown, hprevious⟩ := hw hi hr
    refine hkeep hi (fun _ => hlock) ⟨[], rfl, fun m hm => absurd hm List.not_mem_nil, hprevious,
      ?_, ?_⟩
    · rw [hown]
      rfl
    · rw [hown]
  | @skips e i r previous m migrations applied hi hr hseen =>
    have hlock := h.locked _ _ hi (by rw [hr]; rfl)
    obtain ⟨done, hlooped⟩ := hw hi hr
    refine hkeep hi (fun _ => hlock) ⟨done ++ [m], ?_, fun m' hm' => ?_, hlooped.previous,
      hlooped.applied, hlooped.own.trans (List.sublist_append_left _ _)⟩
    · rw [hlooped.files, List.append_assoc]
      rfl
    · obtain hm' | hm' := List.mem_append.mp hm'
      · exact hlooped.checked m' hm'
      · rw [List.mem_singleton.mp hm']
        exact hlooped.previous _ hseen
  | begins hi hr =>
    have hlock := h.locked _ _ hi (by rw [hr]; rfl)
    refine hkeep hi (fun _ => hlock) ⟨hw hi hr, fun hstmt => ?_⟩
    cases hstmt
  | applies hi hr hunique =>
    have hlock := h.locked _ _ hi (by rw [hr]; rfl)
    exact hkeep hi (fun _ => hlock) ⟨(hw hi hr).1, hunique⟩
  | commits hi hr =>
    obtain ⟨⟨done, hlooped⟩, hunique⟩ := hw hi hr
    exact h.commit hi hr .keep (fun _ => rfl) ⟨_, hlooped.commit (hunique rfl)⟩
  | breaks hi hr hphase hlock hholds =>
    obtain ⟨⟨done, hlooped⟩, hunique⟩ := hw hi hr
    have hcommitted := hlooped.commit (hunique rfl)
    exact h.commit hi hr hlock hholds (working_of_givenUp hphase hcommitted.sublist)
  | @finishes e i r previous applied hi hr =>
    obtain ⟨done, hlooped⟩ := hw hi hr
    have hfiles : loadMigrations sha256 r.migrationsDir = done := by
      rw [hlooped.files, List.append_nil]
    refine hkeep hi (fun hholds => ?_) ⟨hlooped.sublist, fun result hresult => ?_⟩
    · cases hholds
    · cases hresult
      refine ⟨hlooped.applied, fun m hm => ?_⟩
      change m ∈ loadMigrations sha256 r.migrationsDir at hm
      rw [hfiles] at hm
      exact hlooped.checked m hm
  | @fails e i r phase lock hi hphase hlock hholds =>
    refine h.put hi hlock.others (fun hq => ?_)
      (working_of_givenUp hphase (h.working _ _ hi).sublist)
    obtain ⟨hr, hkept⟩ := hholds hq
    rw [hkept]
    exact h.locked i r hi hr
  | ends hi hr hlock =>
    have hreturned := hw hi hr
    refine h.put hi hlock.others (fun hholds => ?_) hreturned
    cases hholds
  | @disconnects e i r hi hr hlock =>
    constructor
    · intro j q hj hq
      have hother := h.locked j q hj hq
      rw [hlock] at hother
      cases hother
      rw [hi] at hj
      cases hj
      rw [hr] at hq
      cases hq
    · intro j q hj
      exact (h.working j q hj).congr rfl (fun _ hrow => hrow) fun _ => rfl
    · exact h.recorded
    · exact h.owners

/-! ### Every run -/

/-- Files of one directory have different names. -/
lemma nodup_loadMigrations (sha256 : String → String) (migrationsDir : Directory) :
    ((loadMigrations sha256 migrationsDir).map MigrationFile.name).Nodup := by
  unfold loadMigrations
  rw [List.map_map]
  have hperm := perm_sortMembers
    (migrationsDir.files.filter fun f => ".sql".toList.isSuffixOf f.1.toList)
  refine (hperm.map Prod.fst).nodup_iff.mpr ?_
  exact migrationsDir.nodup.sublist (List.filter_sublist.map _)

variable {ok : MigrationState → MigrationStep → Prop}

lemma migrationInv_of_reached
    (h : Machine.Reached (fun s e => s.next sha256 e) ok {} s) : MigrationInv sha256 s := by
  refine h.invariant ?_ fun s e s' hs _ hnext => hs.step hnext
  refine ⟨fun i r hi => ?_, fun i r hi => ?_, rfl, fun e he => absurd he List.not_mem_nil⟩
  · cases hi
  · cases hi

lemma MigrationInv.names (h : MigrationInv sha256 s) :
    s.table.rows.map MigrationRow.name = s.log.map fun e => e.2.name := by
  rw [h.recorded, List.map_map]
  rfl

lemma MigrationInv.complete {r : Runner} {result : MigrationResult} (h : MigrationInv sha256 s)
    (hi : s.runners[i]? = some r) (hresult : r.phase.outcome? = some (.ok result)) :
    result.applied = (s.own i).map MigrationFile.name ∧
      ∀ m ∈ loadMigrations sha256 r.migrationsDir, m.row ∈ s.table := by
  have hworking := h.working i r hi
  unfold Runner.Working at hworking
  cases hr : r.phase with
  | unlocking outcome =>
    rw [hr] at hworking hresult
    cases hresult
    exact hworking.2 result rfl
  | ended outcome =>
    rw [hr] at hworking hresult
    cases hresult
    exact hworking.2 result rfl
  | _ =>
    rw [hr] at hresult
    cases hresult

/-- In every run of any number of runners, each with the files of its own build, with failures,
crashes and commits whose answer is lost: two runners never hold the lock at once, no migration
takes effect twice, the records are exactly those of the scripts that have taken effect, a runner
applies files in their order, one that returns has reported what it applied and found or recorded
each of its files as it is, and none returns whose file was edited. -/
theorem migrations_hold (h : Machine.Reached (fun s e => s.next sha256 e) ok {} s) :
    MigrationsHold sha256 s := by
  have hinv := migrationInv_of_reached h
  constructor
  · intro i j r q hi hj hr hq
    have hlock := hinv.locked i r hi hr
    rw [hinv.locked j q hj hq] at hlock
    cases hlock
    rfl
  · rw [← hinv.names]
    exact s.table.nodup
  · exact hinv.recorded
  · exact fun i r hi => (hinv.working i r hi).sublist
  · exact fun i r result hi hresult => hinv.complete hi hresult
  · intro i r hi m hm row hrow hname hchanged result hresult
    have hfile := (hinv.complete hi hresult).2 m hm
    have hrow := Table.eq_of_mem hrow hfile hname
    rw [hrow] at hchanged
    exact hchanged rfl

/-! ### Runners of one build -/

/-- All runners start with the same files. -/
def OneBuild (migrationsDir : Directory) (_ : MigrationState) : MigrationStep → Prop
  | .start dir => dir = migrationsDir
  | _ => True

structure OrderInv (sha256 : String → String) (migrationsDir : Directory) (s : MigrationState) :
    Prop where
  inv : MigrationInv sha256 s
  build : ∀ r ∈ s.runners, r.migrationsDir = migrationsDir
  ordered : s.log.map Prod.snd <+: loadMigrations sha256 migrationsDir

variable {migrationsDir : Directory}

/-- What is recorded has been applied as it is. -/
lemma OrderInv.mem_log (h : OrderInv sha256 migrationsDir s) {m : MigrationFile}
    (hm : m ∈ loadMigrations sha256 migrationsDir) (hrow : m.row ∈ s.table) :
    m ∈ s.log.map Prod.snd := by
  rw [Table.mem_def, h.inv.recorded] at hrow
  obtain ⟨e, he, heq⟩ := List.mem_map.mp hrow
  have hmem : e.2 ∈ s.log.map Prod.snd := List.mem_map_of_mem he
  have hname : e.2.name = m.name := congrArg MigrationRow.name heq
  have hsame := List.inj_on_of_nodup_map (nodup_loadMigrations sha256 migrationsDir)
    (h.ordered.subset hmem) hm hname
  exact hsame ▸ hmem

/-- A prefix that has all of the first part and not what follows it is the first part. -/
lemma eq_of_prefix {α : Type} {l done todo : List α} {m : α} (hnodup : (done ++ m :: todo).Nodup)
    (hl : l <+: done ++ m :: todo) (hdone : ∀ x ∈ done, x ∈ l) (hm : m ∉ l) : l = done := by
  obtain h | h := List.prefix_or_prefix_of_prefix hl (List.prefix_append done (m :: todo))
  · refine h.eq_of_length (Nat.le_antisymm h.length_le ?_)
    exact (List.subperm_of_subset (List.nodup_append.mp hnodup).1 hdone).length_le
  · obtain ⟨rest, rfl⟩ := h
    rw [List.prefix_append_right_inj] at hl
    cases rest with
    | nil => exact List.append_nil _
    | cons x rest =>
      obtain ⟨rfl, -⟩ := List.cons_prefix_cons.mp hl
      exact absurd (List.mem_append_right _ List.mem_cons_self) hm

/-- A migration is committed in its turn. -/
lemma OrderInv.next {i : ℕ} {r : Runner} {previous : List MigrationRow} {m : MigrationFile}
    {todo : List MigrationFile} {applied : List String} (h : OrderInv sha256 migrationsDir s)
    (hi : s.runners[i]? = some r) (hr : r.phase = .applying previous m todo applied .commit) :
    (s.log ++ [(i, m)]).map Prod.snd <+: loadMigrations sha256 migrationsDir := by
  have hworking := h.inv.working i r hi
  unfold Runner.Working at hworking
  rw [hr, h.build r (List.mem_of_getElem? hi)] at hworking
  obtain ⟨⟨done, hlooped⟩, hunique⟩ := hworking
  have hnames := nodup_loadMigrations sha256 migrationsDir
  have hlog : s.log.map Prod.snd = done := by
    have hparts : (done ++ m :: todo).Nodup := hlooped.files ▸ hnames.of_map
    refine eq_of_prefix hparts ?_ (fun x hx => ?_) fun hm => ?_
    · rw [← hlooped.files]
      exact h.ordered
    · refine h.mem_log ?_ (hlooped.checked x hx)
      rw [hlooped.files]
      exact List.mem_append_left _ hx
    · -- Its name would be in use.
      obtain ⟨e, he, heq⟩ := List.mem_map.mp hm
      have hrow : m.row ∈ s.table := by
        rw [Table.mem_def, h.inv.recorded, ← heq]
        exact List.mem_map.mpr ⟨e, he, rfl⟩
      have hnone := (Table.has_eq_false _ _).mp (hunique rfl)
      rw [show m.name = MigrationRow.name m.row from rfl, Table.get?_of_mem hrow] at hnone
      cases hnone
  rw [List.map_append, hlog, hlooped.files]
  exact ⟨todo, by simp⟩

lemma OrderInv.step {e : MigrationStep} (h : OrderInv sha256 migrationsDir s)
    (hok : OneBuild migrationsDir s e) (hs : s.next sha256 e = some s') :
    OrderInv sha256 migrationsDir s' := by
  have hinv := h.inv.step hs
  have hbuild : ∀ {i : ℕ} {r : Runner} {phase : RunnerPhase}, s.runners[i]? = some r →
      ∀ q ∈ (s.put i r phase).runners, q.migrationsDir = migrationsDir := by
    intro i r phase hi q hq
    obtain hq | rfl := List.mem_or_eq_of_mem_set hq
    · exact h.build q hq
    · exact h.build r (List.mem_of_getElem? hi)
  cases migrationMove_of_next hs with
  | start dir =>
    refine ⟨hinv, fun q hq => ?_, h.ordered⟩
    obtain hq | hq := List.mem_append.mp hq
    · exact h.build q hq
    · rw [List.mem_singleton.mp hq]
      exact hok
  | commits hi hr => exact ⟨hinv, hbuild hi, h.next hi hr⟩
  | breaks hi hr hphase hlock hholds => exact ⟨hinv, hbuild hi, h.next hi hr⟩
  | waits hi hr => exact ⟨hinv, hbuild hi, h.ordered⟩
  | locks hi hr hfree => exact ⟨hinv, hbuild hi, h.ordered⟩
  | selects hi hr => exact ⟨hinv, hbuild hi, h.ordered⟩
  | loads hi hr => exact ⟨hinv, hbuild hi, h.ordered⟩
  | skips hi hr hseen => exact ⟨hinv, hbuild hi, h.ordered⟩
  | begins hi hr => exact ⟨hinv, hbuild hi, h.ordered⟩
  | applies hi hr hunique => exact ⟨hinv, hbuild hi, h.ordered⟩
  | finishes hi hr => exact ⟨hinv, hbuild hi, h.ordered⟩
  | fails hi hphase hlock hholds => exact ⟨hinv, hbuild hi, h.ordered⟩
  | ends hi hr hlock => exact ⟨hinv, hbuild hi, h.ordered⟩
  | disconnects hi hr hlock => exact ⟨hinv, h.build, h.ordered⟩

/-- Where all runners are of one build, the scripts that have taken effect are at every moment the
first of its files, in order, whatever has failed or crashed; and once a runner returns they are all
of them. -/
theorem migrated_in_order
    (h : Machine.Reached (fun s e => s.next sha256 e) (OneBuild migrationsDir) {} s) :
    MigratedInOrder (loadMigrations sha256 migrationsDir) s := by
  have horder : OrderInv sha256 migrationsDir s := by
    refine h.invariant ?_ fun s e s' hs hok hnext => hs.step hok hnext
    have hstart : Machine.Reached (fun s e => s.next sha256 e) (OneBuild migrationsDir) {} {} :=
      .start
    exact ⟨migrationInv_of_reached hstart, fun r hr => absurd hr List.not_mem_nil, List.nil_prefix⟩
  refine ⟨horder.ordered, fun r hr result hresult => ?_⟩
  obtain ⟨i, hi⟩ := List.mem_iff_getElem?.mp hr
  obtain ⟨-, hall⟩ := horder.inv.complete hi hresult
  rw [horder.build r hr] at hall
  refine horder.ordered.eq_of_length (Nat.le_antisymm horder.ordered.length_le ?_)
  have hnodup := (nodup_loadMigrations sha256 migrationsDir).of_map
  exact (List.subperm_of_subset hnodup fun m hm => horder.mem_log hm (hall m hm)).length_le

end

/-! ### A run -/

/-- Three files, of which one is no migration. -/
def sampleDirectory : Directory where
  files := [("002_support.sql", "CREATE TABLE outbox_events"), ("README.md", ""),
    ("001_init.sql", "CREATE TABLE users")]
  nodup := by decide

/-- Three replicas boot: the first crashes after its first commit has gone through, the second
applies the rest, and the third finds nothing to do. -/
def bootRun : List MigrationStep :=
  [.start sampleDirectory, .start sampleDirectory, .step 0, .step 1, .step 0, .step 1] ++
    List.replicate 6 (.step 0) ++ [.crash 0 true, .start sampleDirectory] ++
    List.replicate 11 (.step 1) ++ List.replicate 8 (.step 2)

def ofSample (_ : MigrationState) : MigrationStep → Bool
  | .start migrationsDir => migrationsDir.files = sampleDirectory.files
  | _ => true

lemma oneBuild_of_ofSample (s : MigrationState) (e : MigrationStep) (h : ofSample s e = true) :
    OneBuild sampleDirectory s e := by
  cases e with
  | start migrationsDir =>
    cases migrationsDir with
    | mk files nodup =>
      have hfiles : files = sampleDirectory.files := of_decide_eq_true h
      subst hfiles
      rfl
  | step i => trivial
  | fail i message done => trivial
  | crash i done => trivial
  | disconnect i => trivial

def bootAfter : MigrationState :=
  Machine.play (fun s e => s.next id e) ofSample {} bootRun

lemma bootAfter_reached :
    Machine.Reached (fun s e => s.next id e) (OneBuild sampleDirectory) {} bootAfter :=
  .play oneBuild_of_ofSample _ .start

theorem migrations_hold_bootRun :
    bootAfter.log.map (fun e => (e.1, e.2.name)) = [(0, "001_init.sql"), (1, "002_support.sql")] ∧
      MigrationsHold id bootAfter :=
  ⟨by decide +kernel, migrations_hold bootAfter_reached⟩

theorem migrated_in_order_bootRun :
    (loadMigrations id sampleDirectory).map MigrationFile.name =
        ["001_init.sql", "002_support.sql"] ∧
      MigratedInOrder (loadMigrations id sampleDirectory) bootAfter :=
  ⟨by decide +kernel, migrated_in_order bootAfter_reached⟩

end TakaFlow
