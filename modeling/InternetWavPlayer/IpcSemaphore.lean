import InternetWavPlayer.IpcMutex
import Mathlib.Data.Nat.ModEq

/-!
# A semaphore among threads

Any number of threads take units from one semaphore, which is released and
reset by anyone, interleaved in any order.  The units are counted beside it;
the semaphore itself counts them in sixteen bits.
-/

namespace InternetWavPlayer.Ipc

open Contract

variable {Thread : Type} [DecidableEq Thread]

structure SemaphoreWorld (Thread : Type) where
  threads : Threads Thread
  sem : Semaphore Thread
  /-- units that the initial value, releases and resets have put in -/
  supplied : Nat
  /-- units that threads have got -/
  taken : Nat
  /-- units that resets have thrown away -/
  dropped : Nat

inductive SemaphoreInput (Thread : Type) where
  | take (thread : Thread) (time : Int)
  | release
  | reset (value : Nat)
  /-- the timer of a waiting thread expires -/
  | expire (thread : Thread)
  /-- a thread goes on after `rt_schedule` -/
  | back (thread : Thread)
deriving DecidableEq

namespace SemaphoreWorld

def Busy (world : SemaphoreWorld Thread) (thread : Thread) : Prop :=
  thread ∈ world.sem.suspendThread ∨ thread ∈ world.threads.resumed

instance (world : SemaphoreWorld Thread) (thread : Thread) :
    Decidable (world.Busy thread) :=
  inferInstanceAs (Decidable (_ ∨ _))

/-- What the caller of `rt_sem_take` knows. -/
def afterTake (world : SemaphoreWorld Thread) :
    Outcome × Threads Thread × Semaphore Thread → SemaphoreWorld Thread
  | (outcome, threads, sem) =>
      { world with
        threads
        sem
        taken :=
          if outcome = .returned .eok then world.taken + 1
          else world.taken }

/-- `rt_sem_release` has put one unit in. -/
def afterRelease (world : SemaphoreWorld Thread) :
    Threads Thread × Semaphore Thread → SemaphoreWorld Thread
  | (threads, sem) =>
      { world with threads, sem, supplied := world.supplied + 1 }

/-- A reset replaces the units. -/
def afterReset (world : SemaphoreWorld Thread) (value : Nat) :
    Threads Thread × Semaphore Thread → SemaphoreWorld Thread
  | (threads, sem) =>
      { world with
        threads
        sem
        supplied := world.supplied + value
        dropped := world.dropped + world.sem.value }

def step : SemaphoreInput Thread → SemaphoreWorld Thread →
    Except Fault (SemaphoreWorld Thread)
  | .take thread time, world => do
      require (¬ world.Busy thread)
      return world.afterTake
        (rtSemTake world.threads world.sem thread time)
  | .release, world =>
      return world.afterRelease (rtSemRelease world.threads world.sem)
  | .reset value, world =>
      return world.afterReset value
        (rtSemReset world.threads world.sem value)
  | .expire thread, world => do
      require (thread ∈ world.sem.suspendThread ∧
        world.threads.timer thread)
      return { world with
        threads := world.threads.timeout thread
        sem := { world.sem with
          suspendThread := world.sem.suspendThread.erase thread } }
  | .back thread, world => do
      require (thread ∈ world.threads.resumed)
      return { world with
        threads := world.threads.comeBack thread
        taken :=
          if world.threads.error thread = .eok then world.taken + 1
          else world.taken }

/-- Threads that have not yet used the semaphore. -/
def start (threads : Threads Thread) (value : Nat) (flag : IpcFlag) :
    Except Fault (SemaphoreWorld Thread) := do
  let sem ← rtSemInit value flag
  return {
    threads := { threads with resumed := [] }
    sem
    supplied := value
    taken := 0
    dropped := 0 }

/-! ## The invariant -/

/-- Threads which have been resumed with a unit that they have not yet got. -/
def carried (threads : Threads Thread) : Nat :=
  threads.resumed.countP fun thread => threads.error thread = .eok

structure Sound (world : SemaphoreWorld Thread) : Prop where
  distinct :
    (world.sem.suspendThread ++ world.threads.resumed).Nodup
  waiting : ∀ thread ∈ world.sem.suspendThread,
    world.threads.error thread = .eok
  empty : world.sem.suspendThread ≠ [] → world.sem.value = 0
  balance : world.supplied ≡
    world.taken + carried world.threads + world.dropped + world.sem.value
      [MOD 2 ^ 16]

/-! ## Resuming every waiting thread -/

section ResumeAll

variable (list : List Thread) (threads : Threads Thread)

theorem resumeAll_resumed :
    (resumeAll threads list).resumed = threads.resumed ++ list := by
  induction list generalizing threads with
  | nil => exact (List.append_nil _).symm
  | cons thread rest induction =>
      rw [resumeAll, induction]
      exact List.append_assoc _ _ _

theorem resumeAll_error (other : Thread) :
    (resumeAll threads list).error other =
      if other ∈ list then .error else threads.error other := by
  induction list generalizing threads with
  | nil => rfl
  | cons thread rest induction =>
      rw [resumeAll, induction]
      by_cases later : other ∈ rest
      · rw [if_pos later, if_pos (List.mem_cons_of_mem thread later)]
      rw [if_neg later]
      by_cases here : other = thread
      · subst here
        rw [if_pos List.mem_cons_self]
        exact Function.update_self _ _ _
      · rw [if_neg (not_or.mpr ⟨here, later⟩ ∘ List.mem_cons.mp)]
        exact Function.update_of_ne here _ _

end ResumeAll

/-! ## Steps -/

section Steps

variable {world : SemaphoreWorld Thread} {thread : Thread} {time : Int}

omit [DecidableEq Thread] in
theorem Sound.not_resumed (sound : world.Sound)
    (waiting : thread ∈ world.sem.suspendThread) :
    thread ∉ world.threads.resumed := by
  intro resumed
  exact (List.disjoint_of_nodup_append sound.distinct) waiting resumed

omit [DecidableEq Thread] in
/-- Only the errors of resumed threads count. -/
theorem carried_congr {threads second : Threads Thread}
    (resumed : threads.resumed = second.resumed)
    (same : ∀ thread ∈ threads.resumed,
      threads.error thread = second.error thread) :
    carried threads = carried second := by
  rw [carried, carried, ← resumed]
  apply List.countP_congr
  intro thread member
  rw [same thread member]

/-- `rt_sem_take` of a thread that runs. -/
theorem take_sound (sound : world.Sound) (idle : ¬ world.Busy thread) :
    (world.afterTake (rtSemTake world.threads world.sem thread
      time)).Sound := by
  obtain ⟨notWaiting, notResumed⟩ := not_or.mp idle
  have balance := sound.balance
  rw [rtSemTake]
  split
  · rename_i available
    refine ⟨sound.distinct, sound.waiting, ?_, ?_⟩
    · intro waits
      have empty := sound.empty waits
      omega
    · dsimp only [afterTake]
      rw [if_pos rfl]
      have counted : world.taken + 1 + carried world.threads +
          world.dropped + (world.sem.value - 1) =
          world.taken + carried world.threads + world.dropped +
            world.sem.value := by
        omega
      rw [counted]
      exact balance
  · rename_i unavailable
    split
    · exact ⟨sound.distinct, sound.waiting, sound.empty, balance⟩
    · have elsewhere : ∀ other, other ≠ thread →
          (world.threads.setError thread .eok).error other =
            world.threads.error other :=
        fun other different => Function.update_of_ne different _ _
      refine ⟨listSuspend_nodup sound.distinct notWaiting notResumed, ?_,
        ?_, ?_⟩
      · intro other member
        rcases mem_listSuspend.mp member with rfl | waiting
        · exact Function.update_self _ _ _
        · have different : other ≠ thread := by
            rintro rfl
            exact notWaiting waiting
          exact (elsewhere other different).trans
            (sound.waiting other waiting)
      · exact fun _ => Nat.eq_zero_of_not_pos unavailable
      · have same : carried (startTimer
            (world.threads.setError thread .eok) thread time) =
            carried world.threads := by
          refine carried_congr rfl fun other resumed => ?_
          apply elsewhere
          rintro rfl
          exact notResumed resumed
        dsimp only [afterTake]
        rw [same]
        exact balance

/-- `rt_sem_release` while nobody waits. -/
theorem rtSemRelease_nil {threads : Threads Thread} {sem : Semaphore Thread}
    (nobody : sem.suspendThread = []) :
    rtSemRelease threads sem =
      (threads, { sem with value := (sem.value + 1) % 2 ^ 16 }) := by
  rw [rtSemRelease, nobody]

/-- `rt_sem_release` while a thread waits. -/
theorem rtSemRelease_cons {threads : Threads Thread}
    {sem : Semaphore Thread} (next : Thread) (rest : List Thread)
    (waits : sem.suspendThread = next :: rest) :
    rtSemRelease threads sem =
      (threads.resume next, { sem with suspendThread := rest }) := by
  rw [rtSemRelease, waits]

/-- A thread has been resumed with a unit. -/
theorem carried_resume {threads : Threads Thread}
    (noError : threads.error thread = .eok) :
    carried (threads.resume thread) = carried threads + 1 := by
  have shape : (threads.resume thread).resumed =
      threads.resumed ++ [thread] := rfl
  have errors : (threads.resume thread).error = threads.error := rfl
  rw [carried, shape, errors, List.countP_append, List.countP_singleton,
    if_pos (decide_eq_true noError)]
  rfl

/-- `rt_sem_release` -/
theorem release_sound (sound : world.Sound) :
    (world.afterRelease
      (rtSemRelease world.threads world.sem)).Sound := by
  have balance := sound.balance
  by_cases nobody : world.sem.suspendThread = []
  · rw [rtSemRelease_nil nobody]
    refine ⟨sound.distinct, sound.waiting,
      fun waits => absurd nobody waits, ?_⟩
    dsimp only [afterRelease]
    have more := balance.add_right 1
    rw [Nat.add_assoc _ world.sem.value 1] at more
    exact more.trans ((Nat.mod_modEq _ _).symm.add_left _)
  · obtain ⟨next, rest, waits⟩ := List.exists_cons_of_ne_nil nobody
    have nextWaits : next ∈ world.sem.suspendThread := by
      rw [waits]
      exact List.mem_cons_self
    have distinct := sound.distinct
    have empty := sound.empty nobody
    rw [rtSemRelease_cons next rest waits]
    rw [waits, List.cons_append] at distinct
    refine ⟨?_, ?_, fun _ => empty, ?_⟩
    · dsimp only [afterRelease, Threads.resume, Threads.setTimer]
      rw [← List.append_assoc]
      exact ((List.perm_append_singleton next _).nodup_iff).mpr distinct
    · intro other member
      apply sound.waiting
      rw [waits]
      exact List.mem_cons_of_mem next member
    · dsimp only [afterRelease]
      rw [carried_resume (sound.waiting next nextWaits), empty]
      rw [empty] at balance
      have more := balance.add_right 1
      have counted : world.taken + (carried world.threads + 1) +
          world.dropped + 0 =
          world.taken + carried world.threads + world.dropped + 0 + 1 := by
        omega
      rw [counted]
      exact more

/-- `rt_sem_control` resumes every thread with an error. -/
theorem reset_sound (sound : world.Sound) (value : Nat) :
    (world.afterReset value
      (rtSemReset world.threads world.sem value)).Sound := by
  have balance := sound.balance
  have kept : ∀ other ∈ world.threads.resumed,
      (resumeAll world.threads world.sem.suspendThread).error other =
        world.threads.error other := by
    intro other resumed
    rw [resumeAll_error, if_neg]
    exact fun waiting => sound.not_resumed waiting resumed
  have nothing : world.sem.suspendThread.countP (fun thread =>
      (resumeAll world.threads world.sem.suspendThread).error thread =
        .eok) = 0 := by
    rw [List.countP_eq_zero]
    intro other waiting
    rw [resumeAll_error, if_pos waiting]
    decide
  rw [rtSemReset]
  refine ⟨?_, nofun, fun waits => absurd rfl waits, ?_⟩
  · dsimp only [afterReset]
    rw [resumeAll_resumed, List.nil_append]
    exact (List.perm_append_comm.nodup_iff).mpr sound.distinct
  · have same : carried (resumeAll world.threads world.sem.suspendThread) =
        carried world.threads := by
      rw [carried, resumeAll_resumed, List.countP_append, nothing, carried]
      apply List.countP_congr
      intro other resumed
      rw [kept other resumed]
    dsimp only [afterReset]
    rw [same]
    have more := (balance.add_right value).trans
      ((Nat.mod_modEq value (2 ^ 16)).symm.add_left _)
    have counted : world.taken + carried world.threads +
        (world.dropped + world.sem.value) + value % 2 ^ 16 =
        world.taken + carried world.threads + world.dropped +
          world.sem.value + value % 2 ^ 16 := by
      omega
    rw [counted]
    exact more

/-- The timer of a waiting thread expires. -/
theorem expire_sound (sound : world.Sound)
    (waiting : thread ∈ world.sem.suspendThread) :
    Sound { world with
      threads := world.threads.timeout thread
      sem := { world.sem with
        suspendThread := world.sem.suspendThread.erase thread } } := by
  have notResumed := sound.not_resumed waiting
  have elsewhere : ∀ other, other ≠ thread →
      (world.threads.timeout thread).error other =
        world.threads.error other :=
    fun other different => Function.update_of_ne different _ _
  have late : (world.threads.timeout thread).error thread = .etimeout :=
    Function.update_self _ _ _
  refine ⟨?_, ?_, ?_, ?_⟩
  · exact (resumed_perm waiting world.threads.resumed).nodup_iff.mpr
      sound.distinct
  · intro other member
    have distinct := (List.nodup_append.mp sound.distinct).1
    have different : other ≠ thread :=
      (distinct.mem_erase_iff.mp member).1
    exact (elsewhere other different).trans
      (sound.waiting other (List.mem_of_mem_erase member))
  · exact fun _ => sound.empty (List.ne_nil_of_mem waiting)
  · have same : carried (world.threads.timeout thread) =
        carried world.threads := by
      have shape : (world.threads.timeout thread).resumed =
          world.threads.resumed ++ [thread] := rfl
      rw [carried, shape, List.countP_append, List.countP_singleton, late,
        carried]
      apply List.countP_congr
      intro other resumed
      have different : other ≠ thread := by
        rintro rfl
        exact notResumed resumed
      rw [elsewhere other different]
    dsimp only
    rw [same]
    exact sound.balance

/-- A thread goes on after `rt_schedule`. -/
theorem back_sound (sound : world.Sound)
    (resumed : thread ∈ world.threads.resumed) :
    Sound { world with
      threads := world.threads.comeBack thread
      taken :=
        if world.threads.error thread = .eok then world.taken + 1
        else world.taken } := by
  refine ⟨?_, sound.waiting, sound.empty, ?_⟩
  · exact sound.distinct.sublist
      ((List.erase_sublist).append_left _)
  · have balance := sound.balance
    have counted : carried world.threads =
        carried (world.threads.comeBack thread) +
          if world.threads.error thread = .eok then 1 else 0 := by
      rw [carried, (List.perm_cons_erase resumed).countP_eq, List.countP_cons]
      simp only [decide_eq_true_eq]
      rfl
    rw [counted] at balance
    dsimp only
    split
    · rename_i noError
      rw [if_pos noError] at balance
      have moved : world.taken + 1 + carried (world.threads.comeBack thread) +
          world.dropped + world.sem.value =
          world.taken + (carried (world.threads.comeBack thread) + 1) +
            world.dropped + world.sem.value := by
        omega
      rw [moved]
      exact balance
    · rename_i error
      rw [if_neg error] at balance
      exact balance

omit [DecidableEq Thread] in
theorem start_sound (threads : Threads Thread) {value : Nat} {flag : IpcFlag}
    (fits : value < 0x10000) :
    Returns (start threads value flag) Sound := by
  rw [start, rtSemInit, if_pos fits]
  apply returns_ok
  refine ⟨List.nodup_nil, nofun, fun waits => absurd rfl waits, ?_⟩
  have counted : 0 + carried { threads with resumed := [] } + 0 +
      value % 2 ^ 16 = value % 2 ^ 16 := by
    rw [carried]
    exact Nat.zero_add _
  dsimp only
  rw [counted]
  exact (Nat.mod_modEq value (2 ^ 16)).symm

/-- Whatever the threads do, the semaphore is sound, and no call faults. -/
theorem step_sound (sound : world.Sound) (input : SemaphoreInput Thread) :
    step input world = .error .misuse ∨
      Returns (step input world) Sound := by
  cases input with
  | take thread time =>
      rw [step, require]
      split
      · rename_i idle
        exact .inr (returns_ok (take_sound sound idle))
      · exact .inl rfl
  | release => exact .inr (returns_pure (release_sound sound))
  | reset value => exact .inr (returns_pure (reset_sound sound value))
  | expire thread =>
      rw [step, require]
      split
      · rename_i waits
        exact .inr (returns_ok (expire_sound sound waits.1))
      · exact .inl rfl
  | back thread =>
      rw [step, require]
      split
      · rename_i resumed
        exact .inr (returns_ok (back_sound sound resumed))
      · exact .inl rfl

end Steps

/--
However takes, releases, resets, timeouts and the scheduler interleave, no
thread waits while the semaphore has units, and the units that were put in are
those that threads have got or are about to get, that resets have thrown away
and that are left, up to the sixteen bits of the count.
-/
theorem units_conserved (threads : Threads Thread) {value : Nat}
    (flag : IpcFlag) (fits : value < 0x10000)
    (inputs : List (SemaphoreInput Thread)) :
    start threads value flag >>= Run.run step inputs = .error .misuse ∨
      Returns (start threads value flag >>= Run.run step inputs) fun world =>
        (world.sem.suspendThread ≠ [] → world.sem.value = 0) ∧
        world.supplied ≡ world.taken + carried world.threads +
          world.dropped + world.sem.value [MOD 2 ^ 16] := by
  obtain ⟨world, initial, sound⟩ := start_sound threads fits
  have kept := run_returns (fun input _ sound => step_sound sound input)
    inputs sound
  rw [initial]
  exact kept.imp_right fun returns =>
    returns.mono fun _ after => ⟨after.empty, after.balance⟩

/-- One unit goes from the first of two threads to the second. -/
theorem units_conserved_handed_over :
    ∃ world : SemaphoreWorld (Fin 3),
      world.sem.suspendThread = [] ∧ world.taken = 2 ∧
      world.supplied ≡ world.taken + carried world.threads +
        world.dropped + world.sem.value [MOD 2 ^ 16] := by
  have conserved := units_conserved MutexWorld.equals .prio
    (by decide : 1 < 0x10000) [.take 0 0, .take 1 50, .release, .back 1]
  obtain ⟨world, ran, facts⟩ := Run.toOption_map_eq_some_iff.mp
    (by decide +kernel : (start MutexWorld.equals 1 .prio >>=
      Run.run step [.take 0 0, .take 1 50, .release, .back 1]).toOption.map
        (fun world => (world.sem.suspendThread, world.taken)) =
          some ([], 2))
  rw [ran] at conserved
  rcases conserved with mistake | ⟨_, same, -, balance⟩
  · cases mistake
  · cases same
    exact ⟨world, congrArg Prod.fst facts, congrArg Prod.snd facts, balance⟩

end SemaphoreWorld

end InternetWavPlayer.Ipc
