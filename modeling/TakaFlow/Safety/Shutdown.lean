import TakaFlow.Process
import Mathlib.Data.List.Basic
import Mathlib.Tactic.SplitIfs

/-!
# Workers tick one at a time, and the pools close last

A worker never runs two ticks at once and never dies before it is stopped, and a shutdown closes the
pools when no request and no tick needs them any more.
-/

namespace TakaFlow

/-! ### The statements -/

/-- A worker waits for its next tick, runs one, or has been stopped. -/
inductive WorkerLoop.Works (loop : WorkerLoop) : Prop where
  | waits (timeout : Timeout) (running : loop.stopped = false)
      (timeouts : loop.timeouts = [timeout]) (timer : loop.timer = some timeout.id)
      (ticks : loop.ticks = [])
      (delay : timeout.delay = if loop.outcome = some true then 0 else loop.intervalMs) : Works loop
  | runs (tick : ℕ) (timeouts : loop.timeouts = []) (ticks : loop.ticks = [tick])
      (inFlight : loop.inFlight = some tick) : Works loop
  | rests (stopped : loop.stopped = true) (timeouts : loop.timeouts = [])
      (ticks : loop.ticks = []) : Works loop

/-- What holds of a process: there is one shutdown, `/readyz` fails before the server stops
listening, and the pools are closed in order, when nothing needs them. -/
structure Process.Orderly (p : Process) : Prop where
  workers : ∀ loop ∈ p.workers, loop.Works
  once : p.shutdowns.length ≤ 1
  announced : p.listening = false → p.shuttingDown = true
  drained : p.poolOpen = false →
    p.requests = 0 ∧ ∀ loop ∈ p.workers, loop.timeouts = [] ∧ loop.ticks = []
  replica : p.replicaPoolOpen = false → p.poolOpen = false
  redis : p.redisOpen = false → p.replicaPoolOpen = false
  exits : p.exitCode = some 0 → p.redisOpen = false

/-! ### One worker -/

namespace WorkerLoop

variable {loop : WorkerLoop}

lemma stopped_schedule (delay : ℕ) : (loop.schedule delay).stopped = loop.stopped := by
  unfold schedule
  split_ifs <;> rfl

lemma ticks_schedule (delay : ℕ) : (loop.schedule delay).ticks = loop.ticks := by
  unfold schedule
  split_ifs <;> rfl

/-- A worker with nothing pending goes on waiting, unless it is stopped. -/
lemma works_schedule (htimeouts : loop.timeouts = []) (hticks : loop.ticks = []) :
    (loop.schedule (if loop.outcome = some true then 0 else loop.intervalMs)).Works := by
  unfold schedule
  by_cases hstopped : loop.stopped = true
  · rw [if_pos hstopped]
    exact .rests hstopped htimeouts hticks
  · rw [if_neg hstopped]
    refine .waits ⟨loop.issued, if loop.outcome = some true then 0 else loop.intervalMs⟩
      (Bool.eq_false_iff.mpr hstopped) ?_ rfl hticks rfl
    rw [htimeouts]
    rfl

lemma works_start (intervalMs : ℕ) : (start intervalMs).Works := works_schedule rfl rfl

/-- A stopped worker has no timeout. -/
lemma Works.timeouts_of_stopped (h : loop.Works) (hstopped : loop.stopped = true) :
    loop.timeouts = [] := by
  cases h with
  | waits timeout running timeouts timer ticks delay =>
    rw [hstopped] at running
    cases running
  | runs tick timeouts ticks inFlight => exact timeouts
  | rests stopped timeouts ticks => exact timeouts

lemma Works.tick {timeout : Timeout} (h : loop.Works) (hdue : timeout ∈ loop.timeouts) :
    (loop.tick timeout).Works := by
  cases h with
  | waits timeout' running timeouts timer ticks delay =>
    rw [timeouts] at hdue
    cases List.mem_singleton.mp hdue
    refine .runs loop.issued ?_ ?_ rfl
    · change loop.timeouts.erase timeout = []
      rw [timeouts, List.erase_cons_head]
    · change loop.ticks ++ [loop.issued] = [loop.issued]
      rw [ticks]
      rfl
  | runs tick timeouts ticks inFlight =>
    rw [timeouts] at hdue
    cases hdue
  | rests stopped timeouts ticks =>
    rw [timeouts] at hdue
    cases hdue

lemma Works.ended {tick : ℕ} (h : loop.Works) (htick : tick ∈ loop.ticks)
    (hadWork : Option Bool) : (loop.ended tick hadWork).Works := by
  cases h with
  | waits timeout running timeouts timer ticks delay =>
    rw [ticks] at htick
    cases htick
  | runs tick' timeouts ticks inFlight =>
    rw [ticks] at htick
    cases List.mem_singleton.mp htick
    have hnone : loop.ticks.erase tick = [] := by rw [ticks, List.erase_cons_head]
    exact works_schedule timeouts hnone
  | rests stopped timeouts ticks =>
    rw [ticks] at htick
    cases htick

lemma Works.stop (h : loop.Works) : loop.stop.Works := by
  cases h with
  | waits timeout running timeouts timer ticks delay =>
    refine .rests rfl ?_ ticks
    change loop.timeouts.filter _ = []
    rw [timeouts, timer]
    simp
  | runs tick timeouts ticks inFlight =>
    refine .runs tick ?_ ticks inFlight
    change loop.timeouts.filter _ = []
    rw [timeouts]
    rfl
  | rests stopped timeouts ticks =>
    refine .rests rfl ?_ ticks
    change loop.timeouts.filter _ = []
    rw [timeouts]
    rfl

/-- The promise that `stop` awaits is that of the only tick. -/
lemma Works.settled (h : loop.Works) (hsettled : loop.isSettled = true) : loop.ticks = [] := by
  cases h with
  | waits timeout running timeouts timer ticks delay => exact ticks
  | runs tick timeouts ticks inFlight =>
    unfold isSettled at hsettled
    rw [inFlight, ticks] at hsettled
    exact absurd List.mem_cons_self (of_decide_eq_true hsettled)
  | rests stopped timeouts ticks => exact ticks

end WorkerLoop

/-! ### The process -/

/-- How far a shutdown has come. -/
def ShutdownPhase.rank : ShutdownPhase → ℕ
  | .closeApp => 0
  | .stopWorkers => 1
  | .closePool => 2
  | .closeReplicaPool => 3
  | .closeRedis => 4

namespace Process

/-- What a shutdown has done in a phase. -/
structure Closing (p : Process) (phase : ShutdownPhase) : Prop where
  shutdowns : p.shutdowns = [phase]
  closing : p.closing = true
  listening : p.listening = false
  announced : p.shuttingDown = true
  served : 1 ≤ phase.rank → p.requests = 0
  stopped : 1 ≤ phase.rank → ∀ loop ∈ p.workers, loop.stopped = true
  quiet : 2 ≤ phase.rank → ∀ loop ∈ p.workers, loop.ticks = []
  pool : p.poolOpen = decide (phase.rank < 2)
  replica : p.replicaPoolOpen = decide (phase.rank < 3)
  redis : p.redisOpen = decide (phase.rank < 4)

inductive Stage (p : Process) : Prop where
  | serving (shutdowns : p.shutdowns = []) (listening : p.listening = true)
      (pool : p.poolOpen = true) (replica : p.replicaPoolOpen = true) (redis : p.redisOpen = true) :
      Stage p
  | closing (phase : ShutdownPhase) (h : p.Closing phase) : Stage p

structure Inv (p : Process) : Prop where
  workers : ∀ loop ∈ p.workers, loop.Works
  stage : p.Stage
  exits : p.exitCode = some 0 → p.redisOpen = false

variable {p p' : Process} {i : ℕ} {loop x : WorkerLoop}

lemma Inv.orderly (h : p.Inv) : p.Orderly := by
  cases h.stage with
  | serving shutdowns listening pool replica redis =>
    refine ⟨h.workers, ?_, fun hl => ?_, fun hp => ?_, fun hp => ?_, fun hp => ?_, h.exits⟩
    · rw [shutdowns]
      exact Nat.zero_le 1
    · rw [listening] at hl
      cases hl
    · rw [pool] at hp
      cases hp
    · rw [replica] at hp
      cases hp
    · rw [redis] at hp
      cases hp
  | closing phase hc =>
    refine ⟨h.workers, ?_, fun _ => hc.announced, fun hp => ?_, fun hp => ?_, fun hp => ?_, h.exits⟩
    · rw [hc.shutdowns]
      exact Nat.le_refl 1
    · rw [hc.pool, decide_eq_false_iff_not, Nat.not_lt] at hp
      have hstopped := hc.stopped (Nat.le_of_succ_le hp)
      refine ⟨hc.served (Nat.le_of_succ_le hp), fun loop hloop => ⟨?_, hc.quiet hp loop hloop⟩⟩
      exact (h.workers loop hloop).timeouts_of_stopped (hstopped loop hloop)
    · rw [hc.replica, decide_eq_false_iff_not, Nat.not_lt] at hp
      rw [hc.pool, decide_eq_false_iff_not, Nat.not_lt]
      exact Nat.le_of_succ_le hp
    · rw [hc.redis, decide_eq_false_iff_not, Nat.not_lt] at hp
      rw [hc.replica, decide_eq_false_iff_not, Nat.not_lt]
      exact Nat.le_of_succ_le hp

/-- A worker goes on. -/
lemma Inv.put (h : p.Inv) (hi : p.workers[i]? = some loop) (hx : x.Works)
    (hstopped : loop.stopped = true → x.stopped = true)
    (hquiet : loop.stopped = true → loop.ticks = [] → x.ticks = []) : (p.put i x).Inv := by
  have hmem := List.mem_of_getElem? hi
  refine ⟨fun y hy => ?_, ?_, h.exits⟩
  · obtain hy | rfl := List.mem_or_eq_of_mem_set hy
    · exact h.workers y hy
    · exact hx
  · cases h.stage with
    | serving shutdowns listening pool replica redis =>
      exact .serving shutdowns listening pool replica redis
    | closing phase hc =>
      refine .closing phase
        { hc with stopped := fun hrank y hy => ?_, quiet := fun hrank y hy => ?_ }
      · obtain hy | rfl := List.mem_or_eq_of_mem_set hy
        · exact hc.stopped hrank y hy
        · exact hstopped (hc.stopped hrank loop hmem)
      · obtain hy | rfl := List.mem_or_eq_of_mem_set hy
        · exact hc.quiet hrank y hy
        · refine hquiet (hc.stopped (Nat.le_of_succ_le hrank) loop hmem) (hc.quiet hrank loop hmem)

/-- A shutdown begins, or has begun before. -/
lemma Inv.shutdown (h : p.Inv) : p.shutdown.Inv := by
  unfold Process.shutdown
  by_cases hclosing : p.closing = true
  · rw [if_pos hclosing]
    exact h
  · rw [if_neg hclosing]
    cases h.stage with
    | closing phase hc => exact absurd hc.closing hclosing
    | serving shutdowns listening pool replica redis =>
      refine ⟨h.workers, .closing .closeApp ⟨?_, rfl, rfl, rfl, ?_, ?_, ?_, pool, replica, redis⟩,
        h.exits⟩
      · change p.shutdowns ++ [.closeApp] = [.closeApp]
        rw [shutdowns]
        rfl
      · intro hrank
        cases hrank
      · intro hrank
        cases hrank
      · intro hrank
        cases hrank

/-- A shutdown goes on. -/
lemma Inv.resolved {j : ℕ} {phase : ShutdownPhase} (h : p.Inv) (hrunning : p.exitCode = none)
    (hj : p.shutdowns[j]? = some phase) (hp : p.resolved j phase = some p') : p'.Inv := by
  cases h.stage with
  | serving shutdowns listening pool replica redis =>
    rw [shutdowns] at hj
    cases hj
  | closing phase' hc =>
    have hfirst : j = 0 ∧ phase' = phase := by
      rw [hc.shutdowns] at hj
      cases j with
      | zero => exact ⟨rfl, Option.some.inj hj⟩
      | succ j => cases hj
    obtain ⟨rfl, rfl⟩ := hfirst
    have hset : ∀ next, p.shutdowns.set 0 next = [next] := by
      intro next
      rw [hc.shutdowns]
      rfl
    have hcode : ∀ {redis : Bool}, p.exitCode = some 0 → redis = false := by
      intro redis hzero
      rw [hrunning] at hzero
      cases hzero
    cases phase' with
    | closeApp =>
      unfold Process.resolved at hp
      simp only at hp
      split_ifs at hp with hrequests
      cases hp
      refine ⟨fun y hy => ?_, .closing .stopWorkers ⟨hset _, hc.closing, hc.listening, hc.announced,
        fun _ => hrequests, fun _ y hy => ?_, fun hrank => ?_, hc.pool, hc.replica, hc.redis⟩,
        hcode⟩
      · obtain ⟨loop, hloop, rfl⟩ := List.mem_map.mp hy
        exact (h.workers loop hloop).stop
      · obtain ⟨loop, hloop, rfl⟩ := List.mem_map.mp hy
        rfl
      · exact absurd hrank (by decide)
    | stopWorkers =>
      unfold Process.resolved at hp
      simp only at hp
      split_ifs at hp with hsettled
      cases hp
      refine ⟨h.workers, .closing .closePool ⟨hset _, hc.closing, hc.listening, hc.announced,
        fun _ => hc.served (Nat.le_refl 1), fun _ => hc.stopped (Nat.le_refl 1), fun _ y hy => ?_,
        rfl, hc.replica, hc.redis⟩, hcode⟩
      exact (h.workers y hy).settled (List.all_eq_true.mp hsettled y hy)
    | closePool =>
      cases hp
      exact ⟨h.workers, .closing .closeReplicaPool ⟨hset _, hc.closing, hc.listening, hc.announced,
        fun _ => hc.served (by decide), fun _ => hc.stopped (by decide),
        fun _ => hc.quiet (Nat.le_refl 2), hc.pool, rfl, hc.redis⟩, hcode⟩
    | closeReplicaPool =>
      cases hp
      exact ⟨h.workers, .closing .closeRedis ⟨hset _, hc.closing, hc.listening, hc.announced,
        fun _ => hc.served (by decide), fun _ => hc.stopped (by decide),
        fun _ => hc.quiet (by decide), hc.pool, hc.replica, rfl⟩, fun _ => rfl⟩
    | closeRedis =>
      cases hp
      exact ⟨h.workers, .closing .closeRedis { hc with }, fun _ => hc.redis⟩

/-- The process is killed. -/
lemma Inv.killed (h : p.Inv) : ({ p with exitCode := some 1 } : Process).Inv := by
  refine ⟨h.workers, ?_, fun hzero => by cases hzero⟩
  cases h.stage with
  | serving shutdowns listening pool replica redis =>
    exact .serving shutdowns listening pool replica redis
  | closing phase hc => exact .closing phase { hc with }

/-- A request arrives or is answered. -/
lemma Inv.serve (h : p.Inv) {n : ℕ} (hn : p.listening = false → p.requests = 0 → n = 0) :
    ({ p with requests := n } : Process).Inv := by
  refine ⟨h.workers, ?_, h.exits⟩
  cases h.stage with
  | serving shutdowns listening pool replica redis =>
    exact .serving shutdowns listening pool replica redis
  | closing phase hc =>
    exact .closing phase { hc with served := fun hrank => hn hc.listening (hc.served hrank) }

/-- The step lemma. -/
lemma Inv.step {e : ProcessEvent} (h : p.Inv) (hnext : p.next e = some p') : p'.Inv := by
  unfold Process.next at hnext
  by_cases hexit : p.exitCode.isSome = true
  · rw [if_pos hexit] at hnext
    cases hnext
  rw [if_neg hexit] at hnext
  have hrunning : p.exitCode = none := by
    rw [Bool.not_eq_true, Option.isSome_eq_false_iff, Option.isNone_iff_eq_none] at hexit
    exact hexit
  cases e with
  | request =>
    simp only at hnext
    split_ifs at hnext with hlistening
    cases hnext
    refine h.serve fun hclosed => ?_
    rw [hlistening] at hclosed
    cases hclosed
  | response =>
    simp only at hnext
    split_ifs at hnext with hpositive
    cases hnext
    refine h.serve fun _ hnone => ?_
    rw [hnone]
  | due i timeout =>
    obtain ⟨loop, hi, hnext⟩ := Option.bind_eq_some_iff.mp hnext
    split_ifs at hnext with hdue
    cases hnext
    have hworks := h.workers loop (List.mem_of_getElem? hi)
    refine h.put hi (hworks.tick hdue) (fun hstopped => hstopped) fun hstopped _ => ?_
    rw [hworks.timeouts_of_stopped hstopped] at hdue
    cases hdue
  | ended i tick hadWork =>
    obtain ⟨loop, hi, hnext⟩ := Option.bind_eq_some_iff.mp hnext
    split_ifs at hnext with htick
    cases hnext
    have hworks := h.workers loop (List.mem_of_getElem? hi)
    refine h.put hi (hworks.ended htick hadWork) (fun hstopped => ?_) fun _ hticks => ?_
    · exact (WorkerLoop.stopped_schedule _).trans hstopped
    · rw [hticks] at htick
      cases htick
  | signal =>
    cases hnext
    exact h.shutdown
  | resolved j =>
    obtain ⟨phase, hj, hnext⟩ := Option.bind_eq_some_iff.mp hnext
    exact h.resolved hrunning hj hnext
  | rejected j =>
    simp only at hnext
    split_ifs at hnext
    cases hnext
    exact h.killed
  | timedOut =>
    simp only at hnext
    split_ifs at hnext
    cases hnext
    exact h.killed

/-! ### A way out -/

/-- Some continuation exits with 0. -/
def CanExit (p : Process) : Prop :=
  ∃ es, (Machine.play Process.next (fun _ _ => true) p es).exitCode = some 0

lemma CanExit.of_next {e : ProcessEvent} (h : p'.CanExit) (hnext : p.next e = some p') :
    p.CanExit := by
  obtain ⟨es, hes⟩ := h
  refine ⟨e :: es, ?_⟩
  rw [Machine.play, if_pos rfl, hnext]
  exact hes

lemma next_resolved {phase : ShutdownPhase} (hrunning : p.exitCode = none)
    (hphase : p.shutdowns = [phase]) : p.next (.resolved 0) = p.resolved 0 phase := by
  unfold Process.next
  rw [hrunning, hphase]
  rfl

lemma next_ended {tick : ℕ} (hrunning : p.exitCode = none) (hi : p.workers[i]? = some loop)
    (htick : tick ∈ loop.ticks) :
    p.next (.ended i tick none) = some (p.put i (loop.ended tick none)) := by
  unfold Process.next
  rw [hrunning]
  simp only [hi, Option.isSome_none, Bool.false_eq_true, if_false, Option.bind_eq_bind,
    Option.bind_some, if_pos htick]

lemma next_response {n : ℕ} (hrunning : p.exitCode = none) (hn : p.requests = n + 1) :
    p.next .response = some { p with requests := n } := by
  unfold Process.next
  rw [hrunning]
  simp [hn]

/-- The pools close one after the other. -/
lemma canExit_of_closePool {phase : ShutdownPhase} (hrunning : p.exitCode = none)
    (hphase : p.shutdowns = [phase]) (hrank : 2 ≤ phase.rank) : p.CanExit := by
  have hset : ∀ {q : Process} {phase : ShutdownPhase}, q.shutdowns = [phase] →
      ∀ next, q.shutdowns.set 0 next = [next] := by
    intro q phase hq next
    rw [hq]
    rfl
  have hredis : ∀ {q : Process}, q.exitCode = none → q.shutdowns = [.closeRedis] → q.CanExit := by
    intro q hexit hq
    have hlast : ({ q with exitCode := some 0 } : Process).CanExit := ⟨[], rfl⟩
    exact hlast.of_next (next_resolved hexit hq)
  have hreplica : ∀ {q : Process}, q.exitCode = none → q.shutdowns = [.closeReplicaPool] →
      q.CanExit := by
    intro q hexit hq
    have hlast := hredis (q := { q with redisOpen := false, shutdowns := q.shutdowns.set 0 _ })
      hexit (hset hq .closeRedis)
    exact hlast.of_next (next_resolved hexit hq)
  cases phase with
  | closeApp => exact absurd hrank (by decide)
  | stopWorkers => exact absurd hrank (by decide)
  | closePool =>
    have hlast := hreplica (q := { p with
      replicaPoolOpen := false, shutdowns := p.shutdowns.set 0 _ })
      hrunning (hset hphase .closeReplicaPool)
    exact hlast.of_next (next_resolved hrunning hphase)
  | closeReplicaPool => exact hreplica hrunning hphase
  | closeRedis => exact hredis hrunning hphase

/-- The ticks end one after the other, by induction on how many workers run one. -/
lemma Inv.canExit_of_stopWorkers (n : ℕ) (h : p.Inv) (hrunning : p.exitCode = none)
    (hphase : p.shutdowns = [.stopWorkers])
    (hn : p.workers.countP (fun loop => loop.ticks ≠ []) = n) : p.CanExit := by
  induction n generalizing p with
  | zero =>
    have hsettled : p.workers.all WorkerLoop.isSettled = true := by
      refine List.all_eq_true.mpr fun loop hloop => ?_
      have hnone : loop.ticks = [] := by
        have hidle := List.countP_eq_zero.mp hn loop hloop
        simpa using hidle
      unfold WorkerLoop.isSettled
      rw [hnone]
      cases loop.inFlight <;> simp
    have hresolved := next_resolved hrunning hphase
    unfold Process.resolved at hresolved
    simp only [hsettled, if_true] at hresolved
    have hset : p.shutdowns.set 0 .closePool = [.closePool] := by
      rw [hphase]
      rfl
    refine CanExit.of_next ?_ hresolved
    exact canExit_of_closePool hrunning hset (Nat.le_refl 2)
  | succ n ih =>
    have hpositive : 0 < p.workers.countP fun loop => loop.ticks ≠ [] := by
      rw [hn]
      exact Nat.succ_pos n
    obtain ⟨loop, hloop, hbusy⟩ := List.countP_pos_iff.mp hpositive
    obtain ⟨i, hi⟩ := List.mem_iff_getElem?.mp hloop
    have hstopped : loop.stopped = true := by
      cases h.stage with
      | serving shutdowns listening pool replica redis =>
        rw [hphase] at shutdowns
        cases shutdowns
      | closing phase hc =>
        have hshutdowns := hc.shutdowns
        rw [hphase] at hshutdowns
        cases hshutdowns
        exact hc.stopped (Nat.le_refl 1) loop hloop
    have hworks := h.workers loop hloop
    cases hworks with
    | waits timeout running timeouts timer ticks delay => simp [ticks] at hbusy
    | rests stopped timeouts ticks => simp [ticks] at hbusy
    | runs tick timeouts ticks inFlight =>
      have htick : tick ∈ loop.ticks := ticks ▸ List.mem_cons_self
      have hnext := next_ended hrunning hi htick
      refine (ih (h.step hnext) hrunning hphase ?_).of_next hnext
      have hquiet : (loop.ended tick none).ticks = [] := by
        refine (WorkerLoop.ticks_schedule _).trans ?_
        change loop.ticks.erase tick = []
        rw [ticks, List.erase_cons_head]
      obtain ⟨hlt, hget⟩ := List.getElem?_eq_some_iff.mp hi
      change (p.workers.set i (loop.ended tick none)).countP _ = n
      rw [List.countP_set hlt, hn, hget]
      simp [ticks, hquiet]

/-- The requests are answered one after the other. -/
lemma Inv.canExit (h : p.Inv) (hrunning : p.exitCode = none) {phase : ShutdownPhase}
    (hphase : p.shutdowns = [phase]) : p.CanExit := by
  cases phase with
  | closeApp =>
    generalize hn : p.requests = n
    induction n generalizing p with
    | zero =>
      have hresolved := next_resolved hrunning hphase
      unfold Process.resolved at hresolved
      simp only [hn, if_true] at hresolved
      refine ((h.step hresolved).canExit_of_stopWorkers _ hrunning ?_ rfl).of_next hresolved
      change p.shutdowns.set 0 .stopWorkers = [.stopWorkers]
      rw [hphase]
      rfl
    | succ n ih =>
      have hresponse := next_response hrunning hn
      exact (ih (h.step hresponse) hrunning hphase rfl).of_next hresponse
  | stopWorkers => exact h.canExit_of_stopWorkers _ hrunning hphase rfl
  | closePool => exact canExit_of_closePool hrunning hphase (Nat.le_refl 2)
  | closeReplicaPool => exact canExit_of_closePool hrunning hphase (by decide)
  | closeRedis => exact canExit_of_closePool hrunning hphase (by decide)

end Process

/-! ### Runs -/

lemma inv_of_reached {scheduleTickMs : ℕ} {p : Process}
    (h : Machine.Reached Process.next (fun _ _ => True) (.start scheduleTickMs) p) : p.Inv := by
  refine h.invariant ⟨?_, .serving rfl rfl rfl rfl rfl, fun hzero => by cases hzero⟩
    fun p e p' hp _ hnext => hp.step hnext
  intro loop hloop
  obtain rfl | hloop := List.mem_cons.mp hloop
  · exact WorkerLoop.works_start 500
  · obtain rfl | hloop := List.mem_cons.mp hloop
    · exact WorkerLoop.works_start 60000
    · rw [List.mem_singleton.mp hloop]
      exact WorkerLoop.works_start scheduleTickMs

/-- However requests, ticks, signals, failures and the grace period interleave, every worker waits,
runs one tick or is stopped, and the pools are closed once, in order, and only when no request is
being served and no tick runs or is to come. -/
theorem shutdown_orderly {scheduleTickMs : ℕ} {p : Process}
    (h : Machine.Reached Process.next (fun _ _ => True) (.start scheduleTickMs) p) :
    p.Orderly :=
  (inv_of_reached h).orderly

/-- As long as a shutdown has not ended, there is a way for it to exit with 0: the requests are
answered, the ticks end, and nothing else has to happen. -/
theorem shutdown_completes {scheduleTickMs : ℕ} {p : Process}
    (h : Machine.Reached Process.next (fun _ _ => True) (.start scheduleTickMs) p)
    (hshutdown : p.shutdowns ≠ []) (hrunning : p.exitCode = none) : p.CanExit := by
  have hinv := inv_of_reached h
  cases hinv.stage with
  | serving shutdowns listening pool replica redis => exact absurd shutdowns hshutdown
  | closing phase hc => exact hinv.canExit hrunning hc.shutdowns

/-- Two signals arrive while a request is served and the dispatcher runs a tick. -/
def drainedRun : List ProcessEvent :=
  [.request, .due 0 ⟨0, 500⟩, .ended 0 1 (some true), .due 0 ⟨2, 0⟩, .signal, .signal, .resolved 0,
    .response, .resolved 0, .resolved 0, .ended 0 3 none, .resolved 0, .resolved 0, .resolved 0,
    .resolved 0]

def drained : Process :=
  Machine.play Process.next (fun _ _ => true) (.start 1000) drainedRun

/-- The first half of it. -/
def draining : Process :=
  Machine.play Process.next (fun _ _ => true) (.start 1000) (drainedRun.take 6)

theorem shutdown_completes_draining : draining.requests = 1 ∧ draining.CanExit :=
  ⟨by decide +kernel, shutdown_completes (.play (fun _ _ _ => trivial) _ .start)
    (by decide +kernel) (by decide +kernel)⟩

theorem shutdown_orderly_drained :
    drained.exitCode = some 0 ∧ drained.shutdowns = [.closeRedis] ∧ drained.Orderly :=
  ⟨by decide +kernel, by decide +kernel,
    shutdown_orderly (.play (fun _ _ _ => trivial) drainedRun .start)⟩

end TakaFlow
