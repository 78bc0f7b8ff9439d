import Mathlib.Logic.Function.Basic
import Mathlib.Tactic

/-!
# Semaphores, mutexes and events of the kernel

The objects of `ipc.c` on which threads wait: `rt_sem_take` and
`rt_sem_release`, `rt_mutex_take` and `rt_mutex_release`, `rt_event_send` and
`rt_event_recv`.  A function that suspends its thread is cut at `rt_schedule`:
the first part leaves the thread in the list of the object, and `comeBack` is
what the function does once the thread runs again.  Between the two, other
threads call the object and the thread's timer may expire.

Each function runs with interrupts disabled, so that a call is one step.
-/

namespace InternetWavPlayer.Ipc

inductive Err where
  | eok
  | error
  | etimeout
deriving DecidableEq, Repr

/-- `RT_IPC_FLAG_FIFO` and `RT_IPC_FLAG_PRIO` -/
inductive IpcFlag where
  | fifo
  | prio
deriving DecidableEq, Repr

inductive Fault where
  /-- `RT_ASSERT(0)` -/
  | assertion
  /-- the owner is read through a null pointer -/
  | nullOwner
  /-- a call that no program can make -/
  | misuse
deriving DecidableEq, Repr

/-- A call returns, or it has suspended its thread. -/
inductive Outcome where
  | returned (err : Err)
  | suspended
deriving DecidableEq, Repr

/-- The bits of the option of `rt_event_recv`. -/
structure EventOption where
  all : Bool
  any : Bool
  clear : Bool
deriving DecidableEq, Repr

variable {Thread : Type} [DecidableEq Thread]

/-! ## Threads -/

/-- The fields of the threads that the objects use. -/
structure Threads (Thread : Type) where
  currentPriority : Thread → Nat
  error : Thread → Err
  /-- the threads whose `thread_timer` runs -/
  timer : Thread → Bool
  eventSet : Thread → BitVec 32
  eventInfo : Thread → EventOption
  /-- threads that have been resumed and are not back from `rt_schedule` -/
  resumed : List Thread

namespace Threads

variable (threads : Threads Thread) (thread : Thread)

def setError (err : Err) : Threads Thread :=
  { threads with error := Function.update threads.error thread err }

def setTimer (running : Bool) : Threads Thread :=
  { threads with timer := Function.update threads.timer thread running }

/-- `rt_thread_control` with `RT_THREAD_CTRL_CHANGE_PRIORITY` -/
def setPriority (priority : Nat) : Threads Thread :=
  { threads with
    currentPriority :=
      Function.update threads.currentPriority thread priority }

def setEventSet (set : BitVec 32) : Threads Thread :=
  { threads with eventSet := Function.update threads.eventSet thread set }

def setEventInfo (option : EventOption) : Threads Thread :=
  { threads with
    eventInfo := Function.update threads.eventInfo thread option }

/-- `rt_thread_resume`, but for the list that the thread waits in. -/
def resume : Threads Thread :=
  { threads.setTimer thread false with
    resumed := threads.resumed ++ [thread] }

/-- `rt_thread_timeout`, but for the list that the thread waits in. -/
def timeout : Threads Thread :=
  { (threads.setError thread .etimeout).setTimer thread false with
    resumed := threads.resumed ++ [thread] }

/-- The thread goes on after `rt_schedule`. -/
def comeBack : Threads Thread :=
  { threads with resumed := threads.resumed.erase thread }

end Threads

/-- The loop of `rt_ipc_list_suspend` for `RT_IPC_FLAG_PRIO`. -/
def insertByPriority (priority : Thread → Nat) (thread : Thread) :
    List Thread → List Thread
  | [] => [thread]
  | sthread :: rest =>
      if priority thread < priority sthread then thread :: sthread :: rest
      else sthread :: insertByPriority priority thread rest

/-- `rt_ipc_list_suspend`: the list with the thread in it. -/
def listSuspend (priority : Thread → Nat) (flag : IpcFlag)
    (list : List Thread) (thread : Thread) : List Thread :=
  match flag with
  | .fifo => list ++ [thread]
  | .prio => insertByPriority priority thread list

/-- The timer of a thread that has just been suspended. -/
def startTimer (threads : Threads Thread) (thread : Thread) (time : Int) :
    Threads Thread :=
  threads.setTimer thread (decide (0 < time))

/-! ## Semaphores -/

structure Semaphore (Thread : Type) where
  flag : IpcFlag
  suspendThread : List Thread
  value : Nat

def rtSemInit (value : Nat) (flag : IpcFlag) :
    Except Fault (Semaphore Thread) :=
  if value < 0x10000 then
    .ok { flag, suspendThread := [], value := value % 2 ^ 16 }
  else .error .assertion

def rtSemTake (threads : Threads Thread) (sem : Semaphore Thread)
    (thread : Thread) (time : Int) :
    Outcome × Threads Thread × Semaphore Thread :=
  if 0 < sem.value then
    (.returned .eok, threads, { sem with value := sem.value - 1 })
  else if time = 0 then (.returned .etimeout, threads, sem)
  else
    let threads := threads.setError thread .eok
    let suspendThread := listSuspend threads.currentPriority sem.flag
      sem.suspendThread thread
    (.suspended, startTimer threads thread time, { sem with suspendThread })

def rtSemRelease (threads : Threads Thread) (sem : Semaphore Thread) :
    Threads Thread × Semaphore Thread :=
  match sem.suspendThread with
  | thread :: suspendThread =>
      (threads.resume thread, { sem with suspendThread })
  | [] => (threads, { sem with value := (sem.value + 1) % 2 ^ 16 })

/-- `rt_ipc_list_resume_all` -/
def resumeAll (threads : Threads Thread) : List Thread → Threads Thread
  | [] => threads
  | thread :: rest =>
      resumeAll ((threads.setError thread .error).resume thread) rest

/-- `rt_sem_control` with `RT_IPC_CMD_RESET` -/
def rtSemReset (threads : Threads Thread) (sem : Semaphore Thread)
    (value : Nat) : Threads Thread × Semaphore Thread :=
  (resumeAll threads sem.suspendThread,
    { sem with suspendThread := [], value := value % 2 ^ 16 })

/-! ## Mutexes -/

structure Mutex (Thread : Type) where
  flag : IpcFlag
  suspendThread : List Thread
  value : Nat
  originalPriority : Nat
  hold : Nat
  owner : Option Thread

def rtMutexInit (flag : IpcFlag) : Mutex Thread where
  flag := flag
  suspendThread := []
  value := 1
  originalPriority := 0xff
  hold := 0
  owner := none

/-- `mutex->hold ++` on `rt_uint8_t` -/
def holdMore (hold : Nat) : Nat :=
  (hold + 1) % 2 ^ 8

/-- `mutex->hold --` on `rt_uint8_t` -/
def holdLess (hold : Nat) : Nat :=
  (hold + (2 ^ 8 - 1)) % 2 ^ 8

/-- The thread becomes the owner. -/
def Mutex.own (mutex : Mutex Thread) (threads : Threads Thread)
    (thread : Thread) : Mutex Thread :=
  { mutex with
    owner := some thread
    originalPriority := threads.currentPriority thread
    hold := holdMore mutex.hold }

/-- The owner does not run below a thread that waits for it. -/
def inherit (threads : Threads Thread) (owner thread : Thread) :
    Threads Thread :=
  if threads.currentPriority thread < threads.currentPriority owner then
    threads.setPriority owner (threads.currentPriority thread)
  else threads

/-- The part of `rt_mutex_take` in which the thread has to wait. -/
def mutexWait (threads : Threads Thread) (mutex : Mutex Thread)
    (thread : Thread) (time : Int) :
    Option Thread → Except Fault (Outcome × Threads Thread × Mutex Thread)
  | none => .error .nullOwner
  | some owner =>
      let threads := inherit threads owner thread
      let suspendThread := listSuspend threads.currentPriority mutex.flag
        mutex.suspendThread thread
      .ok (.suspended, startTimer threads thread time,
        { mutex with suspendThread })

def rtMutexTake (threads : Threads Thread) (mutex : Mutex Thread)
    (thread : Thread) (time : Int) :
    Except Fault (Outcome × Threads Thread × Mutex Thread) :=
  let threads := threads.setError thread .eok
  if mutex.owner = some thread then
    .ok (.returned .eok, threads,
      { mutex with hold := holdMore mutex.hold })
  else if 0 < mutex.value then
    .ok (.returned .eok, threads,
      Mutex.own { mutex with value := mutex.value - 1 } threads thread)
  else if time = 0 then
    .ok (.returned .etimeout, threads.setError thread .etimeout, mutex)
  else mutexWait threads mutex thread time mutex.owner

/-- The owner gets the priority back that it had. -/
def restore (threads : Threads Thread) (thread : Thread) (priority : Nat) :
    Threads Thread :=
  if priority ≠ threads.currentPriority thread then
    threads.setPriority thread priority
  else threads

/-- The part of `rt_mutex_release` once nothing is held any more. -/
def mutexPass (threads : Threads Thread) (mutex : Mutex Thread)
    (thread : Thread) : Threads Thread × Mutex Thread :=
  let threads := restore threads thread mutex.originalPriority
  match mutex.suspendThread with
  | next :: suspendThread =>
      (threads.resume next,
        { mutex.own threads next with suspendThread })
  | [] =>
      (threads,
        { mutex with
          value := (mutex.value + 1) % 2 ^ 16
          owner := none
          originalPriority := 0xff })

def rtMutexRelease (threads : Threads Thread) (mutex : Mutex Thread)
    (thread : Thread) : Err × Threads Thread × Mutex Thread :=
  if mutex.owner ≠ some thread then
    (.error, threads.setError thread .error, mutex)
  else
    let mutex := { mutex with hold := holdLess mutex.hold }
    (.eok,
      if mutex.hold = 0 then mutexPass threads mutex thread
      else (threads, mutex))

/-! ## Events -/

structure Event (Thread : Type) where
  flag : IpcFlag
  suspendThread : List Thread
  set : BitVec 32

def rtEventInit (flag : IpcFlag) : Event Thread where
  flag := flag
  suspendThread := []
  set := 0

/-- What a thread gets from a set that satisfies it, if it does. -/
def received (option : EventOption) (asked set : BitVec 32) :
    Option (BitVec 32) :=
  if option.all then
    if asked &&& set = asked then some asked else none
  else if option.any then
    if asked &&& set ≠ 0 then some (asked &&& set) else none
  else none

/-- The loop of `rt_event_send` over the list of waiting threads. -/
def eventScan (threads : Threads Thread) (set : BitVec 32) :
    List Thread → Threads Thread × BitVec 32 × List Thread
  | [] => (threads, set, [])
  | thread :: rest =>
      match received (threads.eventInfo thread) (threads.eventSet thread)
          set with
      | some eventSet =>
          eventScan ((threads.setEventSet thread eventSet).resume thread)
            (if (threads.eventInfo thread).clear then set &&& ~~~eventSet
              else set)
            rest
      | none =>
          let scanned := eventScan threads set rest
          (scanned.1, scanned.2.1, thread :: scanned.2.2)

def rtEventSend (threads : Threads Thread) (event : Event Thread)
    (set : BitVec 32) : Err × Threads Thread × Event Thread :=
  if set = 0 then (.error, threads, event)
  else
    let scanned := eventScan threads (event.set ||| set)
      event.suspendThread
    (.eok, scanned.1,
      { event with set := scanned.2.1, suspendThread := scanned.2.2 })

/-- `rt_event_recv`, with the set it writes to `recved`. -/
def rtEventRecv (threads : Threads Thread) (event : Event Thread)
    (thread : Thread) (set : BitVec 32) (option : EventOption)
    (timeout : Int) :
    Except Fault
      (Outcome × Option (BitVec 32) × Threads Thread × Event Thread) :=
  if set = 0 then .ok (.returned .error, none, threads, event)
  else if option.all = false ∧ option.any = false then .error .assertion
  else
    let threads := threads.setError thread .eok
    if (received option set event.set).isSome then
      .ok (.returned .eok, some (event.set &&& set), threads,
        { event with
          set := if option.clear then event.set &&& ~~~set else event.set })
    else if timeout = 0 then
      .ok (.returned .etimeout, none,
        threads.setError thread .etimeout, event)
    else
      let threads := (threads.setEventSet thread set).setEventInfo thread option
      let suspendThread := listSuspend threads.currentPriority event.flag
        event.suspendThread thread
      .ok (.suspended, none, startTimer threads thread timeout,
        { event with suspendThread })

end InternetWavPlayer.Ipc
