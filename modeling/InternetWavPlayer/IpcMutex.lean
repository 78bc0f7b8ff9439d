import InternetWavPlayer.Contract
import InternetWavPlayer.Ipc
import InternetWavPlayer.Run

/-!
# A mutex among threads

Any number of threads take and release one mutex, waiting with and without a
timeout, and are interleaved in any order.  Beside the mutex stands what its
callers know: how often each of them holds it.
-/

namespace InternetWavPlayer.Ipc

open Contract

variable {Thread : Type}

/-! ## Suspend lists -/

section Lists

variable {priority second : Thread → Nat} {thread other : Thread}
  {list : List Thread} {flag : IpcFlag}

theorem insertByPriority_perm (priority : Thread → Nat) (thread : Thread)
    (list : List Thread) :
    (insertByPriority priority thread list).Perm (thread :: list) := by
  induction list with
  | nil => exact List.Perm.refl _
  | cons sthread rest induction =>
      rw [insertByPriority]
      split
      · exact List.Perm.refl _
      · exact (induction.cons sthread).trans (List.Perm.swap _ _ _)

/-- The thread that is suspended is added to the list. -/
theorem listSuspend_perm (priority : Thread → Nat) (flag : IpcFlag)
    (list : List Thread) (thread : Thread) :
    (listSuspend priority flag list thread).Perm (thread :: list) := by
  cases flag with
  | fifo => exact List.perm_append_singleton thread list
  | prio => exact insertByPriority_perm priority thread list

@[simp]
theorem mem_listSuspend :
    other ∈ listSuspend priority flag list thread ↔
      other = thread ∨ other ∈ list := by
  rw [(listSuspend_perm priority flag list thread).mem_iff, List.mem_cons]

/-- A thread that is not in a list yet may be suspended in it. -/
theorem listSuspend_nodup {resumed : List Thread}
    (distinct : (list ++ resumed).Nodup) (notWaiting : thread ∉ list)
    (notResumed : thread ∉ resumed) :
    (listSuspend priority flag list thread ++ resumed).Nodup := by
  have perm := listSuspend_perm priority flag list thread
  refine ((perm.append_right resumed).nodup_iff).mpr ?_
  rw [List.cons_append, List.nodup_cons]
  refine ⟨?_, distinct⟩
  intro member
  rcases List.mem_append.mp member with waiting | resumed
  · exact notWaiting waiting
  · exact notResumed resumed

/-- A thread that waits is moved to those that have been resumed. -/
theorem resumed_perm [DecidableEq Thread] (waiting : thread ∈ list)
    (resumed : List Thread) :
    (list.erase thread ++ (resumed ++ [thread])).Perm (list ++ resumed) := by
  rw [← List.append_assoc]
  apply (List.perm_append_singleton thread _).trans
  rw [← List.cons_append]
  exact (List.perm_cons_erase waiting).symm.append_right _

theorem insertByPriority_congr
    (own : priority thread = second thread)
    (agree : ∀ other ∈ list, priority other = second other) :
    insertByPriority priority thread list =
      insertByPriority second thread list := by
  induction list with
  | nil => rfl
  | cons sthread rest induction =>
      rw [insertByPriority, insertByPriority, own,
        agree sthread List.mem_cons_self,
        induction fun other member =>
          agree other (List.mem_cons_of_mem sthread member)]

/-- Threads wait by priority. -/
def ByPriority (priority : Thread → Nat) (list : List Thread) : Prop :=
  list.Pairwise fun first second => priority first ≤ priority second

theorem ByPriority.insert (sorted : ByPriority priority list)
    (thread : Thread) :
    ByPriority priority (insertByPriority priority thread list) := by
  induction list with
  | nil => exact List.pairwise_singleton _ _
  | cons sthread rest induction =>
      obtain ⟨first, later⟩ := List.pairwise_cons.mp sorted
      rw [insertByPriority]
      split
      · rename_i higher
        refine List.pairwise_cons.mpr ⟨?_, sorted⟩
        intro other member
        rcases List.mem_cons.mp member with rfl | member
        · exact Nat.le_of_lt higher
        · exact (Nat.le_of_lt higher).trans (first other member)
      · rename_i lower
        refine List.pairwise_cons.mpr ⟨?_, induction later⟩
        intro other member
        rw [(insertByPriority_perm priority thread rest).mem_iff,
          List.mem_cons] at member
        rcases member with rfl | member
        · exact Nat.le_of_not_lt lower
        · exact first other member

end Lists

/-! ## Threads and their mutex -/

variable [DecidableEq Thread]

section Priorities

variable (threads : Threads Thread) (owner thread : Thread) (priority : Nat)

@[simp]
theorem inherit_resumed :
    (inherit threads owner thread).resumed = threads.resumed := by
  rw [inherit]
  split <;> rfl

@[simp]
theorem inherit_error :
    (inherit threads owner thread).error = threads.error := by
  rw [inherit]
  split <;> rfl

@[simp]
theorem restore_resumed :
    (restore threads thread priority).resumed = threads.resumed := by
  rw [restore]
  split <;> rfl

theorem mutexPass_nil {mutex : Mutex Thread}
    (nobody : mutex.suspendThread = []) :
    mutexPass threads mutex thread =
      (restore threads thread mutex.originalPriority,
        { mutex with
          value := (mutex.value + 1) % 2 ^ 16
          owner := none
          originalPriority := 0xff }) := by
  rw [mutexPass, nobody]

theorem mutexPass_cons {mutex : Mutex Thread} (next : Thread)
    (rest : List Thread) (waits : mutex.suspendThread = next :: rest) :
    mutexPass threads mutex thread =
      ((restore threads thread mutex.originalPriority).resume next,
        { mutex.own (restore threads thread mutex.originalPriority) next with
          suspendThread := rest }) := by
  rw [mutexPass, waits]

/-- A thread waits for one that runs at least as urgently. -/
theorem inherit_priority (other : Thread) :
    (inherit threads owner thread).currentPriority other =
      if other = owner then
        min (threads.currentPriority owner) (threads.currentPriority thread)
      else threads.currentPriority other := by
  rw [inherit]
  split
  · rename_i higher
    rw [Threads.setPriority]
    dsimp only
    by_cases same : other = owner
    · rw [if_pos same, same, Function.update_self,
        Nat.min_eq_right (Nat.le_of_lt higher)]
    · rw [if_neg same, Function.update_of_ne same]
  · rename_i lower
    by_cases same : other = owner
    · rw [if_pos same, same, Nat.min_eq_left (Nat.le_of_not_lt lower)]
    · rw [if_neg same]

theorem restore_priority (other : Thread) :
    (restore threads thread priority).currentPriority other =
      if other = thread then priority
      else threads.currentPriority other := by
  rw [restore]
  split
  · rw [Threads.setPriority]
    dsimp only
    by_cases same : other = thread
    · rw [if_pos same, same, Function.update_self]
    · rw [if_neg same, Function.update_of_ne same]
  · rename_i equal
    by_cases same : other = thread
    · rw [if_pos same, same]
      exact (not_not.mp equal).symm
    · rw [if_neg same]

end Priorities

/-- The program may take the step. -/
def require (condition : Prop) [Decidable condition] : Except Fault Unit :=
  if condition then .ok () else .error .misuse

theorem yields_require {condition : Prop} [Decidable condition]
    {Value : Type} {next : Unit → Except Fault Value} {post : Value → Prop}
    (yields : condition → Yields (next ()) post) :
    Yields (require condition >>= next) post := by
  rw [require]
  split
  · exact yields ‹_›
  · exact yields_error _

structure MutexWorld (Thread : Type) where
  threads : Threads Thread
  mutex : Mutex Thread
  /-- how often a thread has taken the mutex and not released it -/
  nest : Thread → Nat
  /-- how often the mutex has been passed on to a waiting thread -/
  passes : Nat

inductive MutexInput (Thread : Type) where
  | take (thread : Thread) (time : Int)
  | release (thread : Thread)
  /-- the timer of a waiting thread expires -/
  | expire (thread : Thread)
  /-- a thread goes on after `rt_schedule` -/
  | back (thread : Thread)
deriving DecidableEq

namespace MutexWorld

def Busy (world : MutexWorld Thread) (thread : Thread) : Prop :=
  thread ∈ world.mutex.suspendThread ∨ thread ∈ world.threads.resumed

instance (world : MutexWorld Thread) (thread : Thread) :
    Decidable (world.Busy thread) :=
  inferInstanceAs (Decidable (_ ∨ _))

/-- What the caller of `rt_mutex_take` knows once it has returned. -/
def taken (world : MutexWorld Thread) (thread : Thread) :
    Outcome × Threads Thread × Mutex Thread → MutexWorld Thread
  | (outcome, threads, mutex) =>
      { world with
        threads
        mutex
        nest :=
          if outcome = .returned .eok then
            Function.update world.nest thread (world.nest thread + 1)
          else world.nest }

/-- What the caller of `rt_mutex_release` knows. -/
def released (world : MutexWorld Thread) (thread : Thread) :
    Err × Threads Thread × Mutex Thread → MutexWorld Thread
  | (err, threads, mutex) =>
      { threads
        mutex
        nest :=
          if err = .eok then
            Function.update world.nest thread (world.nest thread - 1)
          else world.nest
        passes :=
          if mutex.suspendThread.length < world.mutex.suspendThread.length
          then world.passes + 1 else world.passes }

/-- The nesting is kept in eight bits. -/
def holdMax : Nat := 0xff

def step : MutexInput Thread → MutexWorld Thread →
    Except Fault (MutexWorld Thread)
  | .take thread time, world => do
      require (¬ world.Busy thread ∧ world.nest thread < holdMax)
      let result ← rtMutexTake world.threads world.mutex thread time
      return world.taken thread result
  | .release thread, world => do
      require (¬ world.Busy thread)
      return world.released thread
        (rtMutexRelease world.threads world.mutex thread)
  | .expire thread, world => do
      require (thread ∈ world.mutex.suspendThread ∧
        world.threads.timer thread)
      return { world with
        threads := world.threads.timeout thread
        mutex := { world.mutex with
          suspendThread := world.mutex.suspendThread.erase thread } }
  | .back thread, world => do
      require (thread ∈ world.threads.resumed)
      return { world with
        threads := world.threads.comeBack thread
        nest :=
          if world.threads.error thread = .eok then
            Function.update world.nest thread (world.nest thread + 1)
          else world.nest }

/-- Threads that have not yet used the mutex. -/
def start (threads : Threads Thread) (flag : IpcFlag) : MutexWorld Thread where
  threads := { threads with resumed := [] }
  mutex := rtMutexInit flag
  nest := fun _ => 0
  passes := 0

/-! ## The invariant -/

/-- What the mutex says about its owner. -/
structure Owned (world : MutexWorld Thread) (owner : Thread) : Prop where
  value : world.mutex.value = 0
  running : owner ∉ world.mutex.suspendThread
  positive : 0 < world.mutex.hold
  bounded : world.mutex.hold ≤ holdMax
  holds : owner ∉ world.threads.resumed →
    world.mutex.hold = world.nest owner
  granted : owner ∈ world.threads.resumed →
    world.mutex.hold = 1 ∧ world.nest owner = 0 ∧
      world.threads.error owner = .eok

structure Sound (world : MutexWorld Thread) : Prop where
  distinct :
    (world.mutex.suspendThread ++ world.threads.resumed).Nodup
  free : world.mutex.owner = none →
    world.mutex.value = 1 ∧ world.mutex.hold = 0 ∧
      world.mutex.suspendThread = []
  owned : ∀ owner, world.mutex.owner = some owner → world.Owned owner
  others : ∀ thread, world.mutex.owner ≠ some thread →
    world.nest thread = 0 ∧
      (thread ∈ world.threads.resumed →
        world.threads.error thread ≠ .eok)
  waiting : ∀ thread ∈ world.mutex.suspendThread,
    world.threads.error thread = .eok

section Steps

variable {world : MutexWorld Thread} {thread owner : Thread} {time : Int}

omit [DecidableEq Thread] in
/-- A waiting thread has not been resumed. -/
theorem Sound.not_resumed (sound : world.Sound)
    (waiting : thread ∈ world.mutex.suspendThread) :
    thread ∉ world.threads.resumed := by
  intro resumed
  exact (List.disjoint_of_nodup_append sound.distinct) waiting resumed

/-- The error of a thread that runs is its own. -/
theorem Sound.setError (sound : world.Sound) (idle : ¬ world.Busy thread)
    (err : Err) :
    Sound { world with threads := world.threads.setError thread err } := by
  obtain ⟨notWaiting, notResumed⟩ := not_or.mp idle
  have kept : ∀ other ∈ world.mutex.suspendThread ++ world.threads.resumed,
      (world.threads.setError thread err).error other =
        world.threads.error other := by
    intro other member
    apply Function.update_of_ne
    rintro rfl
    rcases List.mem_append.mp member with waiting | resumed
    · exact notWaiting waiting
    · exact notResumed resumed
  refine ⟨sound.distinct, sound.free, ?_, ?_, ?_⟩
  · intro owner owns
    have owned := sound.owned owner owns
    refine ⟨owned.value, owned.running, owned.positive, owned.bounded,
      owned.holds, ?_⟩
    intro resumed
    obtain ⟨hold, nest, granted⟩ := owned.granted resumed
    refine ⟨hold, nest, ?_⟩
    exact (kept owner (List.mem_append_right _ resumed)).trans granted
  · intro other notOwner
    obtain ⟨nest, refused⟩ := sound.others other notOwner
    refine ⟨nest, ?_⟩
    intro resumed
    have same := kept other (List.mem_append_right _ resumed)
    exact fun granted => refused resumed (same.symm.trans granted)
  · intro other waiting
    exact (kept other (List.mem_append_left _ waiting)).trans
      (sound.waiting other waiting)

/-- The priority of a thread does not matter. -/
theorem Sound.setPriority (sound : world.Sound) (thread : Thread)
    (priority : Nat) :
    Sound { world with
      threads := world.threads.setPriority thread priority } :=
  ⟨sound.distinct, sound.free,
    fun owner owns =>
      let owned := sound.owned owner owns
      ⟨owned.value, owned.running, owned.positive, owned.bounded, owned.holds,
        owned.granted⟩,
    sound.others, sound.waiting⟩

theorem Sound.inherit (sound : world.Sound) (owner thread : Thread) :
    Sound { world with
      threads := Ipc.inherit world.threads owner thread } := by
  rw [Ipc.inherit]
  split
  · exact sound.setPriority owner _
  · exact sound

theorem Sound.restore (sound : world.Sound) (thread : Thread)
    (priority : Nat) :
    Sound { world with
      threads := Ipc.restore world.threads thread priority } := by
  rw [Ipc.restore]
  split
  · exact sound.setPriority thread _
  · exact sound

/-- The owner takes the mutex once more. -/
theorem Sound.nested (sound : world.Sound) (idle : ¬ world.Busy thread)
    (owns : world.mutex.owner = some thread)
    (room : world.nest thread < holdMax) :
    Sound { world with
      mutex := { world.mutex with hold := holdMore world.mutex.hold }
      nest := Function.update world.nest thread
        (world.nest thread + 1) } := by
  obtain ⟨-, notResumed⟩ := not_or.mp idle
  have owned := sound.owned thread owns
  have holds := owned.holds notResumed
  have more : holdMore world.mutex.hold = world.mutex.hold + 1 := by
    rw [holdMore, holds]
    dsimp only [holdMax] at room
    omega
  refine ⟨sound.distinct, ?_, ?_, ?_, sound.waiting⟩
  · intro free
    rw [owns] at free
    cases free
  · intro owner isOwner
    obtain rfl : thread = owner := Option.some.inj (owns.symm.trans isOwner)
    refine ⟨owned.value, owned.running, ?_, ?_, ?_, ?_⟩
    · dsimp only
      omega
    · dsimp only
      omega
    · intro _
      dsimp only
      rw [more, holds, Function.update_self]
    · exact fun resumed => absurd resumed notResumed
  · intro other notOwner
    have different : other ≠ thread := by
      rintro rfl
      exact notOwner owns
    obtain ⟨nest, refused⟩ := sound.others other notOwner
    refine ⟨?_, refused⟩
    dsimp only
    rw [Function.update_of_ne different]
    exact nest

/-- A thread takes the mutex while nobody has it. -/
theorem Sound.acquired (sound : world.Sound) (idle : ¬ world.Busy thread)
    (free : world.mutex.owner = none) :
    Sound { world with
      mutex := Mutex.own
        { world.mutex with value := world.mutex.value - 1 } world.threads
        thread
      nest := Function.update world.nest thread
        (world.nest thread + 1) } := by
  obtain ⟨notWaiting, notResumed⟩ := not_or.mp idle
  obtain ⟨value, hold, nobody⟩ := sound.free free
  have fresh : world.nest thread = 0 :=
    (sound.others thread (by rw [free]; nofun)).1
  have one : holdMore world.mutex.hold = 1 := by
    rw [hold]
    rfl
  refine ⟨sound.distinct, nofun, ?_, ?_, sound.waiting⟩
  · rintro owner ⟨⟩
    refine ⟨?_, notWaiting, ?_, ?_, ?_, ?_⟩
    · dsimp only [Mutex.own]
      rw [value]
    · dsimp only [Mutex.own]
      omega
    · dsimp only [Mutex.own, holdMax]
      omega
    · intro _
      dsimp only [Mutex.own]
      rw [one, Function.update_self, fresh]
    · exact fun resumed => absurd resumed notResumed
  · intro other notOwner
    have different : other ≠ thread := by
      rintro rfl
      exact notOwner rfl
    obtain ⟨nest, refused⟩ := sound.others other (by rw [free]; nofun)
    refine ⟨?_, refused⟩
    dsimp only
    rw [Function.update_of_ne different]
    exact nest

/-- A thread waits for a mutex that another one has. -/
theorem Sound.suspended {running : Bool} {priority : Thread → Nat}
    (sound : world.Sound) (idle : ¬ world.Busy thread)
    (noError : world.threads.error thread = .eok)
    (owns : world.mutex.owner = some owner) (other : owner ≠ thread) :
    Sound { world with
      threads := world.threads.setTimer thread running
      mutex := { world.mutex with
        suspendThread := listSuspend priority world.mutex.flag
          world.mutex.suspendThread thread } } := by
  obtain ⟨notWaiting, notResumed⟩ := not_or.mp idle
  refine ⟨listSuspend_nodup sound.distinct notWaiting notResumed, ?_, ?_,
    sound.others, ?_⟩
  · intro free
    rw [owns] at free
    cases free
  · intro second isOwner
    obtain rfl : owner = second := Option.some.inj (owns.symm.trans isOwner)
    have owned := sound.owned owner owns
    refine ⟨owned.value, ?_, owned.positive, owned.bounded, owned.holds,
      owned.granted⟩
    dsimp only
    rw [mem_listSuspend, not_or]
    exact ⟨other, owned.running⟩
  · intro second waiting
    dsimp only at waiting
    rw [mem_listSuspend] at waiting
    rcases waiting with rfl | waiting
    · exact noError
    · exact sound.waiting second waiting

/-- `rt_mutex_take` of a thread that runs. -/
theorem take_sound (sound : world.Sound) (idle : ¬ world.Busy thread)
    (room : world.nest thread < holdMax) :
    Returns (rtMutexTake world.threads world.mutex thread time)
      fun result => (world.taken thread result).Sound := by
  have reset := sound.setError idle .eok
  have stillIdle : ¬ Busy
      { world with threads := world.threads.setError thread .eok }
      thread := idle
  rw [rtMutexTake]
  by_cases owns : world.mutex.owner = some thread
  · rw [if_pos owns]
    apply returns_ok
    exact reset.nested stillIdle owns room
  rw [if_neg owns]
  by_cases available : 0 < world.mutex.value
  · rw [if_pos available]
    apply returns_ok
    have free : world.mutex.owner = none := by
      cases isOwned : world.mutex.owner with
      | none => rfl
      | some owner =>
          have taken := (sound.owned owner isOwned).value
          omega
    exact reset.acquired stillIdle free
  rw [if_neg available]
  by_cases polls : time = 0
  · rw [if_pos polls]
    apply returns_ok
    exact reset.setError stillIdle .etimeout
  rw [if_neg polls]
  cases isOwned : world.mutex.owner with
  | none =>
      have free := (sound.free isOwned).1
      omega
  | some owner =>
      apply returns_ok
      have different : owner ≠ thread := by
        rintro rfl
        exact owns isOwned
      have noError : (world.threads.setError thread .eok).error thread =
          .eok := Function.update_self _ _ _
      have inherited := reset.inherit owner thread
      apply inherited.suspended _ _ isOwned different
      · rw [Busy]
        dsimp only
        rw [inherit_resumed]
        exact stillIdle
      · dsimp only
        rw [inherit_error]
        exact noError

/-- The owner releases the mutex and still holds it. -/
theorem Sound.less (sound : world.Sound) (idle : ¬ world.Busy thread)
    (owns : world.mutex.owner = some thread) {passes : Nat}
    (rest : holdLess world.mutex.hold ≠ 0) :
    Sound
      { threads := world.threads
        mutex := { world.mutex with hold := holdLess world.mutex.hold }
        nest := Function.update world.nest thread (world.nest thread - 1)
        passes } := by
  obtain ⟨-, notResumed⟩ := not_or.mp idle
  have owned := sound.owned thread owns
  have holds := owned.holds notResumed
  have positive := owned.positive
  have bounded := owned.bounded
  have less : holdLess world.mutex.hold = world.mutex.hold - 1 := by
    rw [holdLess]
    dsimp only [holdMax] at bounded
    omega
  refine ⟨sound.distinct, ?_, ?_, ?_, sound.waiting⟩
  · intro free
    rw [owns] at free
    cases free
  · intro owner isOwner
    obtain rfl : thread = owner := Option.some.inj (owns.symm.trans isOwner)
    refine ⟨owned.value, owned.running, Nat.pos_of_ne_zero rest, ?_, ?_, ?_⟩
    · dsimp only
      omega
    · intro _
      dsimp only
      rw [less, holds, Function.update_self]
    · exact fun resumed => absurd resumed notResumed
  · intro other notOwner
    have different : other ≠ thread := by
      rintro rfl
      exact notOwner owns
    obtain ⟨nest, refused⟩ := sound.others other notOwner
    refine ⟨?_, refused⟩
    dsimp only
    rw [Function.update_of_ne different]
    exact nest

/-- The owner gives the mutex up while nobody waits. -/
theorem Sound.freed (sound : world.Sound) (idle : ¬ world.Busy thread)
    (owns : world.mutex.owner = some thread) {passes priority : Nat}
    (last : holdLess world.mutex.hold = 0)
    (nobody : world.mutex.suspendThread = []) :
    Sound
      { threads := world.threads
        mutex := { world.mutex with
          hold := holdLess world.mutex.hold
          value := (world.mutex.value + 1) % 2 ^ 16
          owner := none
          originalPriority := priority }
        nest := Function.update world.nest thread (world.nest thread - 1)
        passes } := by
  obtain ⟨-, notResumed⟩ := not_or.mp idle
  have owned := sound.owned thread owns
  have holds := owned.holds notResumed
  have positive := owned.positive
  have bounded := owned.bounded
  have once : world.mutex.hold = 1 := by
    rw [holdLess] at last
    dsimp only [holdMax] at bounded
    omega
  refine ⟨sound.distinct, ?_, nofun, ?_, sound.waiting⟩
  · intro _
    refine ⟨?_, last, nobody⟩
    dsimp only
    rw [owned.value]
    decide
  · intro other _
    by_cases same : other = thread
    · subst same
      refine ⟨?_, fun resumed => absurd resumed notResumed⟩
      dsimp only
      rw [Function.update_self]
      omega
    · have notOwner : world.mutex.owner ≠ some other := by
        rw [owns]
        exact fun equal => same (Option.some.inj equal).symm
      obtain ⟨nest, refused⟩ := sound.others other notOwner
      refine ⟨?_, refused⟩
      dsimp only
      rw [Function.update_of_ne same]
      exact nest

/-- The mutex is passed on to the first thread that waits. -/
theorem Sound.passed {next : Thread} {rest : List Thread}
    (sound : world.Sound) (idle : ¬ world.Busy thread)
    (owns : world.mutex.owner = some thread) {passes priority : Nat}
    (last : holdLess world.mutex.hold = 0)
    (waits : world.mutex.suspendThread = next :: rest) :
    Sound
      { threads := world.threads.resume next
        mutex := { world.mutex with
          hold := holdMore (holdLess world.mutex.hold)
          owner := some next
          originalPriority := priority
          suspendThread := rest }
        nest := Function.update world.nest thread (world.nest thread - 1)
        passes } := by
  obtain ⟨notWaiting, notResumed⟩ := not_or.mp idle
  have owned := sound.owned thread owns
  have holds := owned.holds notResumed
  have positive := owned.positive
  have bounded := owned.bounded
  have once : world.mutex.hold = 1 := by
    rw [holdLess] at last
    dsimp only [holdMax] at bounded
    omega
  have nextWaits : next ∈ world.mutex.suspendThread := by
    rw [waits]
    exact List.mem_cons_self
  have different : next ≠ thread := by
    rintro rfl
    exact notWaiting nextWaits
  have nextOther : world.mutex.owner ≠ some next := by
    rw [owns]
    exact fun equal => different (Option.some.inj equal).symm
  have fresh := (sound.others next nextOther).1
  have distinct := sound.distinct
  rw [waits, List.cons_append, List.nodup_cons] at distinct
  refine ⟨?_, nofun, ?_, ?_, ?_⟩
  · dsimp only [Threads.resume, Threads.setTimer]
    rw [← List.append_assoc]
    exact ((List.perm_append_singleton next _).nodup_iff).mpr
      (List.nodup_cons.mpr distinct)
  · rintro owner ⟨⟩
    refine ⟨owned.value, ?_, ?_, ?_, ?_, ?_⟩
    · exact fun member => distinct.1 (List.mem_append_left _ member)
    · dsimp only
      rw [last]
      decide
    · dsimp only
      rw [last]
      decide
    · intro notYet
      exact absurd (List.mem_append_right _ List.mem_cons_self) notYet
    · intro _
      dsimp only
      refine ⟨?_, ?_, sound.waiting next nextWaits⟩
      · rw [last]
        rfl
      · rw [Function.update_of_ne different]
        exact fresh
  · intro other notOwner
    have notNext : other ≠ next := by
      rintro rfl
      exact notOwner rfl
    have resumedBefore : other ∈ (world.threads.resume next).resumed →
        other ∈ world.threads.resumed := by
      intro resumed
      rcases List.mem_append.mp resumed with resumed | same
      · exact resumed
      · exact absurd (List.mem_singleton.mp same) notNext
    by_cases same : other = thread
    · subst same
      refine ⟨?_, fun resumed =>
        absurd (resumedBefore resumed) notResumed⟩
      dsimp only
      rw [Function.update_self]
      omega
    · have wasOther : world.mutex.owner ≠ some other := by
        rw [owns]
        exact fun equal => same (Option.some.inj equal).symm
      obtain ⟨nest, refused⟩ := sound.others other wasOther
      refine ⟨?_, fun resumed => refused (resumedBefore resumed)⟩
      dsimp only
      rw [Function.update_of_ne same]
      exact nest
  · intro other waiting
    apply sound.waiting other
    rw [waits]
    exact List.mem_cons_of_mem next waiting

omit [DecidableEq Thread] in
/-- The count of hand-overs is not part of the invariant. -/
theorem Sound.count (sound : world.Sound) (passes : Nat) :
    Sound { world with passes } :=
  ⟨sound.distinct, sound.free,
    fun owner owns =>
      let owned := sound.owned owner owns
      ⟨owned.value, owned.running, owned.positive, owned.bounded, owned.holds,
        owned.granted⟩,
    sound.others, sound.waiting⟩

/-- `rt_mutex_release` of a thread that runs. -/
theorem release_sound (sound : world.Sound) (idle : ¬ world.Busy thread) :
    (world.released thread
      (rtMutexRelease world.threads world.mutex thread)).Sound := by
  rw [rtMutexRelease]
  by_cases owns : world.mutex.owner = some thread
  · rw [if_neg (not_not_intro owns)]
    dsimp only
    split
    · rename_i last
      have restored := sound.restore thread world.mutex.originalPriority
      have stillIdle : ¬ Busy
          { world with
            threads := Ipc.restore world.threads thread
              world.mutex.originalPriority } thread := by
        rw [Busy]
        dsimp only
        rw [restore_resumed]
        exact idle
      by_cases nobody : world.mutex.suspendThread = []
      · rw [mutexPass_nil]
        · exact restored.freed stillIdle owns last nobody
        · exact nobody
      · obtain ⟨next, rest, waits⟩ := List.exists_cons_of_ne_nil nobody
        rw [mutexPass_cons _ _ next rest]
        · exact restored.passed stillIdle owns last waits
        · exact waits
    · rename_i rest
      exact sound.less idle owns rest
  · rw [if_pos owns]
    exact (sound.setError idle .error).count _

/-- The timer of a waiting thread expires. -/
theorem expire_sound (sound : world.Sound)
    (waiting : thread ∈ world.mutex.suspendThread) :
    Sound { world with
      threads := world.threads.timeout thread
      mutex := { world.mutex with
        suspendThread := world.mutex.suspendThread.erase thread } } := by
  have notResumed := sound.not_resumed waiting
  have notOwner : world.mutex.owner ≠ some thread := by
    intro owns
    exact (sound.owned thread owns).running waiting
  have elsewhere : ∀ other, other ≠ thread →
      (world.threads.timeout thread).error other =
        world.threads.error other :=
    fun other different => Function.update_of_ne different _ _
  have resumedBefore : ∀ other, other ≠ thread →
      other ∈ (world.threads.timeout thread).resumed →
        other ∈ world.threads.resumed := by
    intro other different resumed
    rcases List.mem_append.mp resumed with resumed | same
    · exact resumed
    · exact absurd (List.mem_singleton.mp same) different
  refine ⟨?_, ?_, ?_, ?_, ?_⟩
  · exact (resumed_perm waiting world.threads.resumed).nodup_iff.mpr
      sound.distinct
  · intro free
    have nobody := (sound.free free).2.2
    rw [nobody] at waiting
    cases waiting
  · intro owner owns
    have owned := sound.owned owner owns
    have different : owner ≠ thread := by
      rintro rfl
      exact notOwner owns
    refine ⟨owned.value, fun member => owned.running
      (List.mem_of_mem_erase member), owned.positive, owned.bounded, ?_, ?_⟩
    · intro notYet
      exact owned.holds fun resumed =>
        notYet (List.mem_append_left _ resumed)
    · intro resumed
      obtain ⟨hold, nest, granted⟩ :=
        owned.granted (resumedBefore owner different resumed)
      exact ⟨hold, nest, (elsewhere owner different).trans granted⟩
  · intro other otherNotOwner
    obtain ⟨nest, refused⟩ := sound.others other otherNotOwner
    refine ⟨nest, ?_⟩
    intro resumed granted
    by_cases same : other = thread
    · subst same
      have late : (world.threads.timeout other).error other =
          .etimeout := Function.update_self _ _ _
      rw [late] at granted
      cases granted
    · exact refused (resumedBefore other same resumed)
        ((elsewhere other same).symm.trans granted)
  · intro other member
    have distinct := (List.nodup_append.mp sound.distinct).1
    have different : other ≠ thread :=
      (distinct.mem_erase_iff.mp member).1
    exact (elsewhere other different).trans
      (sound.waiting other (List.mem_of_mem_erase member))

/-- A thread goes on after `rt_schedule`. -/
theorem back_sound (sound : world.Sound)
    (resumed : thread ∈ world.threads.resumed) :
    Sound { world with
      threads := world.threads.comeBack thread
      nest :=
        if world.threads.error thread = .eok then
          Function.update world.nest thread (world.nest thread + 1)
        else world.nest } := by
  have distinct := (List.nodup_append.mp sound.distinct).2.1
  have gone : thread ∉ (world.threads.comeBack thread).resumed :=
    fun member => (distinct.mem_erase_iff.mp member).1 rfl
  have still : ∀ other ∈ (world.threads.comeBack thread).resumed,
      other ∈ world.threads.resumed :=
    fun other => List.mem_of_mem_erase
  refine ⟨?_, sound.free, ?_, ?_, sound.waiting⟩
  · exact sound.distinct.sublist
      ((List.erase_sublist).append_left _)
  · intro owner owns
    have owned := sound.owned owner owns
    by_cases same : owner = thread
    · subst same
      obtain ⟨hold, nest, granted⟩ := owned.granted resumed
      refine ⟨owned.value, owned.running, owned.positive, owned.bounded, ?_,
        fun member => absurd member gone⟩
      intro _
      dsimp only
      rw [if_pos granted, Function.update_self, nest, hold]
    · have kept : (if world.threads.error thread = .eok then
          Function.update world.nest thread (world.nest thread + 1)
          else world.nest) owner = world.nest owner := by
        split
        · exact Function.update_of_ne same _ _
        · rfl
      refine ⟨owned.value, owned.running, owned.positive, owned.bounded, ?_,
        ?_⟩
      · intro notYet
        dsimp only
        rw [kept]
        apply owned.holds
        intro member
        exact notYet ((List.mem_erase_of_ne same).mpr member)
      · intro member
        dsimp only
        rw [kept]
        exact owned.granted (still owner member)
  · intro other notOwner
    obtain ⟨nest, refused⟩ := sound.others other notOwner
    refine ⟨?_, fun member => refused (still other member)⟩
    dsimp only
    split
    · rename_i granted
      have different : other ≠ thread := by
        rintro rfl
        exact refused resumed granted
      rw [Function.update_of_ne different]
      exact nest
    · exact nest

omit [DecidableEq Thread] in
theorem start_sound (threads : Threads Thread) (flag : IpcFlag) :
    (start threads flag).Sound :=
  ⟨List.nodup_nil, fun _ => ⟨rfl, rfl, rfl⟩, nofun,
    fun _ _ => ⟨rfl, nofun⟩, nofun⟩

/-- Whatever the threads do, the mutex is sound, and no call faults. -/
theorem step_sound (sound : world.Sound) (input : MutexInput Thread) :
    step input world = .error .misuse ∨
      Returns (step input world) Sound := by
  cases input with
  | take thread time =>
      rw [step, require]
      split
      · rename_i allowed
        right
        apply returns_ok_bind
        apply (take_sound sound allowed.1 allowed.2).bind
        intro result taken
        exact returns_pure taken
      · exact .inl rfl
  | release thread =>
      rw [step, require]
      split
      · rename_i idle
        exact .inr (returns_ok (release_sound sound idle))
      · exact .inl rfl
  | expire thread =>
      rw [step, require]
      split
      · rename_i waits
        exact .inr (returns_ok (expire_sound sound waits.1))
      · exact .inl rfl
  | back thread =>
      rw [step, require]
      split
      · rename_i resumed
        exact .inr (returns_ok (back_sound sound resumed))
      · exact .inl rfl

theorem sound_preserved :
    Run.Preserved step (Sound : MutexWorld Thread → Prop) := by
  intro input world next sound stepped
  rcases step_sound sound input with mistake | ⟨after, same, afterSound⟩
  · rw [mistake] at stepped
    cases stepped
  · rw [same] at stepped
    cases stepped
    exact afterSound

end Steps

/-! ## Priorities -/

/--
Threads run at their own priority, except for the owner, which may run at a
higher one.  If threads wait by priority, none of them is above the owner.
-/
structure Ranked (base priority : Thread → Nat) (mutex : Mutex Thread) :
    Prop where
  owned : ∀ owner, mutex.owner = some owner →
    mutex.originalPriority = base owner ∧ priority owner ≤ base owner
  others : ∀ thread, mutex.owner ≠ some thread →
    priority thread = base thread
  sorted : mutex.flag = .prio → ByPriority base mutex.suspendThread
  inherited : mutex.flag = .prio → ∀ owner, mutex.owner = some owner →
    ∀ thread ∈ mutex.suspendThread, priority owner ≤ base thread

section Ranks

variable {world : MutexWorld Thread} {base : Thread → Nat}
  {thread owner : Thread} {threads : Threads Thread} {mutex : Mutex Thread}
  {time : Int}

omit [DecidableEq Thread] in
/-- A thread takes the mutex while nobody has it. -/
theorem Ranked.acquired (ranked : Ranked base threads.currentPriority mutex)
    (free : mutex.owner = none) (nobody : mutex.suspendThread = [])
    (value : Nat) :
    Ranked base threads.currentPriority
      (Mutex.own { mutex with value } threads thread) := by
  have own := ranked.others thread (by rw [free]; nofun)
  refine ⟨?_, ?_, ranked.sorted, ?_⟩
  · rintro owner ⟨⟩
    exact ⟨own, own.le⟩
  · intro other _
    exact ranked.others other (by rw [free]; nofun)
  · intro _ owner _ other waiting
    dsimp only [Mutex.own] at waiting
    rw [nobody] at waiting
    cases waiting

/-- A thread waits for a mutex that another one has. -/
theorem Ranked.suspended
    (ranked : Ranked base threads.currentPriority mutex)
    (owns : mutex.owner = some owner) (different : owner ≠ thread)
    (running : owner ∉ mutex.suspendThread) :
    Ranked base (inherit threads owner thread).currentPriority
      { mutex with
        suspendThread :=
          listSuspend (inherit threads owner thread).currentPriority
            mutex.flag mutex.suspendThread thread } := by
  have notOwner : ∀ other, other ≠ owner → mutex.owner ≠ some other := by
    intro other otherDifferent equal
    rw [owns] at equal
    exact otherDifferent (Option.some.inj equal).symm
  have own := ranked.others thread (notOwner thread different.symm)
  have kept : ∀ other, other ≠ owner →
      (inherit threads owner thread).currentPriority other = base other := by
    intro other otherDifferent
    rw [inherit_priority, if_neg otherDifferent]
    exact ranked.others other (notOwner other otherDifferent)
  have lifted : (inherit threads owner thread).currentPriority owner =
      min (threads.currentPriority owner) (base thread) := by
    rw [inherit_priority, if_pos rfl, own]
  refine ⟨?_, ?_, ?_, ?_⟩
  · intro second isOwner
    obtain rfl : owner = second := Option.some.inj (owns.symm.trans isOwner)
    obtain ⟨original, below⟩ := ranked.owned owner owns
    refine ⟨original, ?_⟩
    rw [lifted]
    exact (Nat.min_le_left _ _).trans below
  · intro other otherNotOwner
    apply kept
    rintro rfl
    exact otherNotOwner owns
  · intro byPriority
    dsimp only at byPriority ⊢
    rw [byPriority, listSuspend,
      insertByPriority_congr (kept thread different.symm)]
    · exact (ranked.sorted byPriority).insert thread
    · intro other waiting
      apply kept
      rintro rfl
      exact running waiting
  · intro byPriority second isOwner other waiting
    obtain rfl : owner = second := Option.some.inj (owns.symm.trans isOwner)
    dsimp only at waiting
    rw [mem_listSuspend] at waiting
    rw [lifted]
    rcases waiting with rfl | waiting
    · exact Nat.min_le_right _ _
    · exact (Nat.min_le_left _ _).trans
        (ranked.inherited byPriority owner owns other waiting)

/-- The owner is back at its own priority, and the next owner is too. -/
theorem Ranked.passed (ranked : Ranked base threads.currentPriority mutex)
    (owns : mutex.owner = some thread) :
    Ranked base (mutexPass threads mutex thread).1.currentPriority
      (mutexPass threads mutex thread).2 := by
  have restored : ∀ other,
      (restore threads thread mutex.originalPriority).currentPriority
        other = base other := by
    intro other
    rw [restore_priority]
    split
    · rename_i same
      rw [same]
      exact (ranked.owned thread owns).1
    · rename_i different
      apply ranked.others
      rw [owns]
      exact fun equal => different (Option.some.inj equal).symm
  by_cases nobody : mutex.suspendThread = []
  · rw [mutexPass_nil _ _ nobody]
    refine ⟨nofun, fun other _ => restored other, ranked.sorted, ?_⟩
    intro _ owner isOwner
    cases isOwner
  · obtain ⟨next, rest, waits⟩ := List.exists_cons_of_ne_nil nobody
    rw [mutexPass_cons _ _ next rest waits]
    refine ⟨?_, fun other _ => restored other, ?_, ?_⟩
    · rintro owner ⟨⟩
      exact ⟨restored next, (restored next).le⟩
    · intro byPriority
      have sorted := ranked.sorted byPriority
      rw [waits] at sorted
      exact (List.pairwise_cons.mp sorted).2
    · rintro byPriority owner ⟨⟩ other waiting
      have sorted := ranked.sorted byPriority
      rw [waits] at sorted
      exact (restored next).le.trans
        ((List.pairwise_cons.mp sorted).1 other waiting)

theorem take_ranked (sound : world.Sound)
    (ranked : Ranked base world.threads.currentPriority world.mutex) :
    Yields (rtMutexTake world.threads world.mutex thread time)
      fun result => Ranked base result.2.1.currentPriority result.2.2 := by
  have reset : Ranked base
      (world.threads.setError thread .eok).currentPriority world.mutex :=
    ranked
  rw [rtMutexTake]
  by_cases owns : world.mutex.owner = some thread
  · rw [if_pos owns]
    apply yields_ok
    exact ⟨ranked.owned, ranked.others, ranked.sorted, ranked.inherited⟩
  rw [if_neg owns]
  by_cases available : 0 < world.mutex.value
  · rw [if_pos available]
    apply yields_ok
    cases isOwned : world.mutex.owner with
    | none =>
        exact reset.acquired isOwned (sound.free isOwned).2.2 _
    | some owner =>
        have taken := (sound.owned owner isOwned).value
        omega
  rw [if_neg available]
  by_cases polls : time = 0
  · rw [if_pos polls]
    apply yields_ok
    exact ranked
  rw [if_neg polls]
  cases isOwned : world.mutex.owner with
  | none => exact yields_error _
  | some owner =>
      apply yields_ok
      have different : owner ≠ thread := by
        rintro rfl
        exact owns isOwned
      exact reset.suspended isOwned different
        (sound.owned owner isOwned).running

theorem release_ranked
    (ranked : Ranked base world.threads.currentPriority world.mutex) :
    Ranked base
      (rtMutexRelease world.threads world.mutex
        thread).2.1.currentPriority
      (rtMutexRelease world.threads world.mutex thread).2.2 := by
  rw [rtMutexRelease]
  by_cases owns : world.mutex.owner = some thread
  · rw [if_neg (not_not_intro owns)]
    have less : Ranked base world.threads.currentPriority
        { world.mutex with hold := holdLess world.mutex.hold } :=
      ⟨ranked.owned, ranked.others, ranked.sorted, ranked.inherited⟩
    dsimp only
    split
    · exact less.passed owns
    · exact less
  · rw [if_pos owns]
    exact ranked

/-- A thread leaves the list. -/
theorem Ranked.erased {priority : Thread → Nat}
    (ranked : Ranked base priority mutex) (thread : Thread) :
    Ranked base priority
      { mutex with suspendThread := mutex.suspendThread.erase thread } :=
  ⟨ranked.owned, ranked.others,
    fun byPriority => (ranked.sorted byPriority).sublist List.erase_sublist,
    fun byPriority owner owns other waiting =>
      ranked.inherited byPriority owner owns other
        (List.mem_of_mem_erase waiting)⟩

theorem step_ranked (sound : world.Sound)
    (ranked : Ranked base world.threads.currentPriority world.mutex)
    (input : MutexInput Thread) :
    Yields (step input world) fun next =>
      Ranked base next.threads.currentPriority next.mutex := by
  cases input with
  | take thread time =>
      rw [step]
      apply yields_require
      intro _
      refine (take_ranked sound ranked).bind ?_
      intro result taken
      exact yields_pure taken
  | release thread =>
      rw [step]
      apply yields_require
      intro _
      exact yields_pure (release_ranked ranked)
  | expire thread =>
      rw [step]
      apply yields_require
      intro _
      exact yields_pure (ranked.erased thread)
  | back thread =>
      rw [step]
      apply yields_require
      intro _
      exact yields_pure ranked

theorem step_sound_ranked (sound : world.Sound)
    (ranked : Ranked base world.threads.currentPriority world.mutex)
    (input : MutexInput Thread) :
    step input world = .error .misuse ∨
      Returns (step input world) fun next => next.Sound ∧
        Ranked base next.threads.currentPriority next.mutex :=
  (step_sound sound input).imp_right fun returns =>
    returns.and (step_ranked sound ranked input)

end Ranks

/-! ## The list of waiting threads -/

section Waiting

variable {world : MutexWorld Thread} {thread : Thread} {time : Int}

/-- What `rt_mutex_take` does to the list. -/
theorem take_list (thread : Thread) (time : Int) :
    Yields (rtMutexTake world.threads world.mutex thread time)
      fun result => result.2.2.flag = world.mutex.flag ∧
        (result.2.2.suspendThread = world.mutex.suspendThread ∨
          ∃ priority, result.2.2.suspendThread =
            listSuspend priority world.mutex.flag
              world.mutex.suspendThread thread) := by
  rw [rtMutexTake]
  by_cases owns : world.mutex.owner = some thread
  · rw [if_pos owns]
    exact yields_ok ⟨rfl, .inl rfl⟩
  rw [if_neg owns]
  by_cases available : 0 < world.mutex.value
  · rw [if_pos available]
    exact yields_ok ⟨rfl, .inl rfl⟩
  rw [if_neg available]
  by_cases polls : time = 0
  · rw [if_pos polls]
    exact yields_ok ⟨rfl, .inl rfl⟩
  rw [if_neg polls]
  cases world.mutex.owner with
  | none => exact yields_error _
  | some owner => exact yields_ok ⟨rfl, .inr ⟨_, rfl⟩⟩

/-- What `rt_mutex_release` does to the list. -/
theorem release_list (thread : Thread) :
    (rtMutexRelease world.threads world.mutex thread).2.2.flag =
        world.mutex.flag ∧
      ((rtMutexRelease world.threads world.mutex
          thread).2.2.suspendThread = world.mutex.suspendThread ∨
        ∃ next, world.mutex.suspendThread = next ::
          (rtMutexRelease world.threads world.mutex
            thread).2.2.suspendThread) := by
  rw [rtMutexRelease]
  by_cases owns : world.mutex.owner = some thread
  · rw [if_neg (not_not_intro owns)]
    dsimp only
    split
    · by_cases nobody : world.mutex.suspendThread = []
      · rw [mutexPass_nil]
        · exact ⟨rfl, .inl rfl⟩
        · exact nobody
      · obtain ⟨next, rest, waits⟩ := List.exists_cons_of_ne_nil nobody
        rw [mutexPass_cons _ _ next rest]
        · exact ⟨rfl, .inr ⟨next, waits⟩⟩
        · exact waits
    · exact ⟨rfl, .inl rfl⟩
  · rw [if_pos owns]
    exact ⟨rfl, .inl rfl⟩

/-- A thread that leaves the list lets the others move up. -/
theorem idxOf_erase_le {other : Thread} (different : other ≠ thread)
    (list : List Thread) :
    (list.erase other).idxOf thread ≤ list.idxOf thread := by
  induction list with
  | nil => exact Nat.le_refl _
  | cons first rest induction =>
      by_cases leaves : first = other
      · subst leaves
        rw [List.erase_cons_head, List.idxOf_cons_ne _ different]
        exact Nat.le_succ _
      · rw [List.erase_cons_tail (by simpa using leaves)]
        by_cases reached : first = thread
        · subst reached
          rw [List.idxOf_cons_self]
          exact Nat.zero_le _
        · rw [List.idxOf_cons_ne _ reached, List.idxOf_cons_ne _ reached]
          exact Nat.succ_le_succ induction

theorem step_flag (input : MutexInput Thread) :
    Yields (step input world) fun next =>
      next.mutex.flag = world.mutex.flag := by
  cases input with
  | take thread time =>
      rw [step]
      apply yields_require
      intro _
      refine (take_list thread time).bind ?_
      rintro result ⟨flag, -⟩
      exact yields_pure flag
  | release thread =>
      rw [step]
      apply yields_require
      intro _
      exact yields_pure (release_list thread).1
  | expire thread =>
      rw [step]
      apply yields_require
      intro _
      exact yields_pure rfl
  | back thread =>
      rw [step]
      apply yields_require
      intro _
      exact yields_pure rfl

theorem flag_preserved (flag : IpcFlag) :
    Run.Preserved step fun world : MutexWorld Thread =>
      world.mutex.flag = flag := by
  intro input world next before stepped
  exact (step_flag input next stepped).trans before

/--
While a thread waits in a list in the order of arrival, every time that the
mutex is passed on brings it one place forward, and nothing sends it back.
-/
theorem step_position (sound : world.Sound)
    (fifo : world.mutex.flag = .fifo)
    (waits : thread ∈ world.mutex.suspendThread)
    (input : MutexInput Thread) :
    Yields (step input world) fun next =>
      thread ∈ next.mutex.suspendThread →
        next.passes + next.mutex.suspendThread.idxOf thread ≤
          world.passes + world.mutex.suspendThread.idxOf thread := by
  have distinct := (List.nodup_append.mp sound.distinct).1
  cases input with
  | take other time =>
      rw [step]
      apply yields_require
      intro _
      refine (take_list other time).bind ?_
      rintro result ⟨-, shape⟩
      apply yields_pure
      intro _
      dsimp only [taken]
      rcases shape with same | ⟨priority, shape⟩
      · rw [same]
      · rw [shape, fifo, listSuspend, List.idxOf_append_of_mem waits]
  | release other =>
      rw [step]
      apply yields_require
      intro _
      apply yields_pure
      intro still
      obtain ⟨-, same | ⟨next, shape⟩⟩ := @release_list _ _ world other
      · dsimp only [released]
        rw [same, if_neg (Nat.lt_irrefl _)]
      · dsimp only [released] at still ⊢
        rw [shape] at distinct
        have different : next ≠ thread := by
          rintro rfl
          exact (List.nodup_cons.mp distinct).1 still
        have before := congrArg (List.idxOf thread) shape
        have longer := congrArg List.length shape
        rw [List.idxOf_cons_ne _ different] at before
        rw [List.length_cons] at longer
        rw [before, longer, if_pos (Nat.lt_succ_self _)]
        exact Nat.le_of_eq (Nat.add_right_comm _ 1 _)
  | expire other =>
      rw [step]
      apply yields_require
      intro _
      apply yields_pure
      intro still
      have different : other ≠ thread := by
        rintro rfl
        exact (List.Nodup.mem_erase_iff distinct).mp still |>.1 rfl
      exact Nat.add_le_add_left (idxOf_erase_le different _) _
  | back other =>
      rw [step]
      apply yields_require
      intro _
      exact yields_pure fun _ => le_rfl

/-- The position along a run throughout which a thread waits. -/
theorem run_position {before after : MutexWorld Thread}
    {inputs : List (MutexInput Thread)} (sound : before.Sound)
    (fifo : before.mutex.flag = .fifo)
    (waits : Run.Throughout step
      (fun _ world => thread ∈ world.mutex.suspendThread) inputs before)
    (ran : Run.run step inputs before = .ok after)
    (still : thread ∈ after.mutex.suspendThread) :
    after.passes + after.mutex.suspendThread.idxOf thread ≤
      before.passes + before.mutex.suspendThread.idxOf thread := by
  induction inputs generalizing before with
  | nil =>
      cases ran
      exact Nat.le_refl _
  | cons input rest induction =>
      obtain ⟨next, stepped, continued⟩ :=
        (Run.run_cons_eq_ok_iff input rest before after).mp ran
      obtain ⟨waiting, later⟩ := waits
      have nextWaits := later next stepped
      have stillNext : thread ∈ next.mutex.suspendThread := by
        cases rest with
        | nil =>
            cases continued
            exact still
        | cons second rest => exact nextWaits.1
      have moved := step_position sound fifo waiting input next stepped
      have nextFifo := (step_flag input next stepped).trans fifo
      exact (induction (sound_preserved input before next sound stepped)
        nextFifo nextWaits continued).trans (moved stillNext)

end Waiting

/-! ## Runs -/

section Runs

variable {thread : Thread} (threads : Threads Thread) (flag : IpcFlag)

/-- What a run guarantees to those who hold the mutex and who wait for it. -/
structure Exclusive (world : MutexWorld Thread) : Prop where
  alone : ∀ first second, 0 < world.nest first → 0 < world.nest second →
    first = second
  owner : ∀ thread, 0 < world.nest thread →
    world.mutex.owner = some thread ∧
      world.mutex.hold = world.nest thread
  /-- a waiting thread waits for another one that has to release the mutex -/
  awaited : ∀ thread ∈ world.mutex.suspendThread,
    world.nest thread = 0 ∧
      ∃ owner, world.mutex.owner = some owner ∧
        owner ∉ world.mutex.suspendThread ∧
        (0 < world.nest owner ∨ owner ∈ world.threads.resumed ∧
          world.threads.error owner = .eok)
  available : (∀ thread, world.nest thread = 0) →
    world.threads.resumed = [] →
      world.mutex.value = 1 ∧ world.mutex.owner = none ∧
        world.mutex.suspendThread = []

omit [DecidableEq Thread] in
theorem Sound.exclusive {world : MutexWorld Thread} (sound : world.Sound) :
    world.Exclusive := by
  have owns : ∀ thread, 0 < world.nest thread →
      world.mutex.owner = some thread := by
    intro thread held
    by_contra notOwner
    have none_held := (sound.others thread notOwner).1
    omega
  refine ⟨?_, ?_, ?_, ?_⟩
  · intro first second firstHolds secondHolds
    exact Option.some.inj
      ((owns first firstHolds).symm.trans (owns second secondHolds))
  · intro thread held
    refine ⟨owns thread held, ?_⟩
    have owned := sound.owned thread (owns thread held)
    apply owned.holds
    intro resumed
    have fresh := (owned.granted resumed).2.1
    omega
  · intro thread waits
    cases isOwned : world.mutex.owner with
    | none =>
        rw [(sound.free isOwned).2.2] at waits
        cases waits
    | some owner =>
        have owned := sound.owned owner isOwned
        have notOwner : world.mutex.owner ≠ some thread := by
          intro threadOwns
          exact (sound.owned thread threadOwns).running waits
        refine ⟨(sound.others thread notOwner).1, owner, rfl,
          owned.running, ?_⟩
        by_cases resumed : owner ∈ world.threads.resumed
        · exact .inr ⟨resumed, (owned.granted resumed).2.2⟩
        · left
          rw [← owned.holds resumed]
          exact owned.positive
  · intro nobody noneResumed
    cases isOwned : world.mutex.owner with
    | none =>
        obtain ⟨value, -, waiting⟩ := sound.free isOwned
        exact ⟨value, rfl, waiting⟩
    | some owner =>
        have owned := sound.owned owner isOwned
        have holds := owned.holds (by rw [noneResumed]; exact List.not_mem_nil)
        have positive := owned.positive
        have none_held := nobody owner
        omega

/--
However the calls of the threads, their timers and the scheduler interleave,
no call of the mutex faults, at most one thread holds it, as often as the
mutex says, and a thread that waits waits for another one that has it.
-/
theorem mutual_exclusion (inputs : List (MutexInput Thread)) :
    Run.run step inputs (start threads flag) = .error .misuse ∨
      Returns (Run.run step inputs (start threads flag)) Exclusive := by
  have kept := run_returns (fun input _ sound => step_sound sound input)
    inputs (start_sound threads flag)
  exact kept.imp_right fun returns =>
    returns.mono fun _ sound => sound.exclusive

/--
With `RT_IPC_FLAG_FIFO` a thread waits for no more hand-overs than there are
threads before it: as long as it waits, every hand-over moves it one place
forward, and no call, timeout or return of another thread moves it back.
-/
theorem bounded_waiting {past future : List (MutexInput Thread)}
    {before after : MutexWorld Thread}
    (reached : Run.run step past (start threads .fifo) = .ok before)
    (waits : Run.Throughout step
      (fun _ world => thread ∈ world.mutex.suspendThread) future before)
    (ran : Run.run step future before = .ok after)
    (still : thread ∈ after.mutex.suspendThread) :
    after.passes + after.mutex.suspendThread.idxOf thread ≤
      before.passes + before.mutex.suspendThread.idxOf thread := by
  have sound := Run.run_invariant sound_preserved
    (start_sound threads .fifo) reached
  have fifo : before.mutex.flag = .fifo :=
    Run.run_invariant (flag_preserved .fifo) rfl reached
  exact run_position sound fifo waits ran still

/-- Threads of one priority. -/
def equals : Threads (Fin 3) where
  currentPriority := fun _ => 20
  error := fun _ => .eok
  timer := fun _ => false
  eventSet := fun _ => 0
  eventInfo := fun _ => ⟨false, false, false⟩
  resumed := []

/-- One thread takes the mutex and two have to wait for it. -/
def arrivals : List (MutexInput (Fin 3)) :=
  [.take 0 (-1), .take 1 (-1), .take 2 50]

/-- The last of three threads waits while the first gives the mutex up. -/
theorem bounded_waiting_third :
    ∃ before after : MutexWorld (Fin 3),
      before.mutex.suspendThread = [1, 2] ∧
      after.mutex.suspendThread = [2] ∧
      after.passes + after.mutex.suspendThread.idxOf 2 ≤
        before.passes + before.mutex.suspendThread.idxOf 2 := by
  obtain ⟨before, reached, beforeList⟩ :=
    Run.toOption_map_eq_some_iff.mp (by decide +kernel :
      (Run.run step arrivals (start equals .fifo)).toOption.map
        (fun world => world.mutex.suspendThread) = some [1, 2])
  obtain ⟨middle, passed, middleList⟩ :=
    Run.toOption_map_eq_some_iff.mp (by decide +kernel :
      (Run.run step (arrivals ++ [.release 0])
        (start equals .fifo)).toOption.map
          (fun world => world.mutex.suspendThread) = some [2])
  obtain ⟨second, secondRan, released⟩ :=
    (Run.run_append_eq_ok_iff arrivals [.release 0] _ middle).mp passed
  obtain rfl : before = second :=
    Except.ok.inj (reached.symm.trans secondRan)
  refine ⟨before, middle, beforeList, middleList, ?_⟩
  apply bounded_waiting equals reached _ released
  · rw [middleList]
    decide
  · refine ⟨?_, fun _ _ => trivial⟩
    dsimp only
    rw [beforeList]
    decide

/--
Along any run, a thread which does not have the mutex runs at its own
priority, the owner runs at its own or at a higher one, and with
`RT_IPC_FLAG_PRIO` at one that no waiting thread exceeds.
-/
theorem priority_inheritance (inputs : List (MutexInput Thread)) :
    Run.run step inputs (start threads flag) = .error .misuse ∨
      Returns (Run.run step inputs (start threads flag)) fun world =>
        Ranked threads.currentPriority world.threads.currentPriority
          world.mutex := by
  have initial : (start threads flag).Sound ∧
      Ranked threads.currentPriority
        (start threads flag).threads.currentPriority
        (start threads flag).mutex :=
    ⟨start_sound threads flag, nofun, fun _ _ => rfl,
      fun _ => List.Pairwise.nil, nofun⟩
  have kept := run_returns
    (fun input _ before => step_sound_ranked before.1 before.2 input)
    inputs initial
  exact kept.imp_right fun returns => returns.mono fun _ after => after.2

end Runs

end MutexWorld

end InternetWavPlayer.Ipc
