import InternetWavPlayer.IpcMutex

/-!
# An event among threads

Any number of threads receive from one event and any number of senders send to
it, interleaved in any order.  Beside the event stands what its users know:
which sets have been sent, what each thread has asked for and what it got.
-/

namespace InternetWavPlayer.Ipc

open Contract

/-! ## What a set offers -/

/-- Every bit of the first set is in the second. -/
def Within (part whole : BitVec 32) : Prop :=
  ∀ bit, part.getLsbD bit = true → whole.getLsbD bit = true

theorem within_refl (set : BitVec 32) : Within set set :=
  fun _ present => present

theorem Within.trans {first second third : BitVec 32}
    (left : Within first second) (right : Within second third) :
    Within first third :=
  fun bit present => right bit (left bit present)

theorem and_within_left (first second : BitVec 32) :
    Within (first &&& second) first := by
  intro bit present
  rw [BitVec.getLsbD_and, Bool.and_eq_true] at present
  exact present.1

theorem and_within_right (first second : BitVec 32) :
    Within (first &&& second) second := by
  intro bit present
  rw [BitVec.getLsbD_and, Bool.and_eq_true] at present
  exact present.2

theorem within_iff_and (part whole : BitVec 32) :
    Within part whole ↔ part &&& whole = part := by
  constructor
  · intro within
    apply BitVec.eq_of_getLsbD_eq
    intro bit _
    rw [BitVec.getLsbD_and]
    cases present : part.getLsbD bit with
    | false => rfl
    | true => rw [within bit present]; rfl
  · intro equal
    rw [← equal]
    exact and_within_right part whole

/-- What a receiver is promised. -/
structure Granted (option : EventOption) (asked got : BitVec 32) : Prop where
  within : Within got asked
  nonzero : got ≠ 0
  all : option.all = true → got = asked

variable {option : EventOption} {asked set got : BitVec 32}

theorem received_granted (nonzero : asked ≠ 0)
    (some_received : received option asked set = some got) :
    Granted option asked got ∧ Within got set := by
  rw [received] at some_received
  split at some_received
  · split at some_received
    · rename_i contained
      obtain rfl := Option.some.inj some_received
      exact ⟨⟨within_refl _, nonzero, fun _ => rfl⟩,
        (within_iff_and _ _).mpr contained⟩
    · cases some_received
  · rename_i notAll
    split at some_received
    · split at some_received
      · rename_i overlap
        obtain rfl := Option.some.inj some_received
        exact ⟨⟨and_within_left _ _, overlap, fun all => absurd all notAll⟩,
          and_within_right _ _⟩
      · cases some_received
    · cases some_received

theorem nothing_shrinks {smaller : BitVec 32} (within : Within smaller set)
    (nothing : asked &&& set = 0) : asked &&& smaller = 0 := by
  rw [← (within_iff_and smaller set).mp within, BitVec.and_comm smaller,
    ← BitVec.and_assoc, nothing]
  exact BitVec.zero_and

/-- A set that offers nothing offers nothing when it shrinks. -/
theorem received_shrinks {smaller : BitVec 32} (within : Within smaller set)
    (nothing : received option asked set = none) :
    received option asked smaller = none := by
  rw [received] at nothing ⊢
  split
  · rename_i all
    rw [if_pos all] at nothing
    refine if_neg fun contained => ?_
    rw [if_pos] at nothing
    · cases nothing
    · exact (within_iff_and _ _).mp
        (((within_iff_and _ _).mpr contained).trans within)
  · rename_i notAll
    rw [if_neg notAll] at nothing
    split
    · rename_i any
      rw [if_pos any] at nothing
      refine if_neg fun overlap => ?_
      rw [if_pos] at nothing
      · cases nothing
      · exact fun empty => overlap (nothing_shrinks within empty)
    · rfl

/-- What a receiver that does not wait gets is what a waiting one would get. -/
theorem received_now (some_received : received option asked set = some got) :
    set &&& asked = got := by
  rw [received] at some_received
  split at some_received
  · split at some_received
    · rename_i contained
      obtain rfl := Option.some.inj some_received
      rw [BitVec.and_comm]
      exact contained
    · cases some_received
  · split at some_received
    · split at some_received
      · obtain rfl := Option.some.inj some_received
        exact BitVec.and_comm _ _
      · cases some_received
    · cases some_received

/-! ## The scan of the waiting threads -/

variable {Thread : Type} [DecidableEq Thread]

/-- The bit is taken away from the set by a thread that clears it. -/
def Clears (threads : Threads Thread) (bit : Nat) (thread : Thread) : Bool :=
  (threads.eventInfo thread).clear && (threads.eventSet thread).getLsbD bit

/-- What `eventScan` makes of a list, if it wakes the given threads. -/
structure Scanned (threads : Threads Thread) (set : BitVec 32)
    (list woken : List Thread)
    (result : Threads Thread × BitVec 32 × List Thread) : Prop where
  resumed : result.1.resumed = threads.resumed ++ woken
  divided : (result.2.2 ++ woken).Perm list
  shrinks : Within result.2.1 set
  error : result.1.error = threads.error
  eventInfo : result.1.eventInfo = threads.eventInfo
  eventSet : ∀ thread, thread ∉ woken →
    result.1.eventSet thread = threads.eventSet thread
  waiting : ∀ thread ∈ result.2.2,
    received (threads.eventInfo thread) (threads.eventSet thread)
      result.2.1 = none
  granted : ∀ thread ∈ woken,
    Granted (threads.eventInfo thread) (threads.eventSet thread)
      (result.1.eventSet thread)
  balance : ∀ bit,
    woken.countP (Clears result.1 bit) + (result.2.1.getLsbD bit).toNat =
      (set.getLsbD bit).toNat

section Scan

variable {threads : Threads Thread} {thread : Thread}
  {rest woken : List Thread}
  {result : Threads Thread × BitVec 32 × List Thread}

omit [DecidableEq Thread] in
/-- A thread whose condition is not met is passed over. -/
theorem Scanned.passed_over (scanned : Scanned threads set rest woken result)
    (fresh : thread ∉ rest)
    (nothing : received (threads.eventInfo thread)
      (threads.eventSet thread) set = none) :
    Scanned threads set (thread :: rest) woken
      (result.1, result.2.1, thread :: result.2.2) := by
  refine ⟨scanned.resumed, scanned.divided.cons thread, scanned.shrinks,
    scanned.error, scanned.eventInfo, scanned.eventSet, ?_,
    scanned.granted, scanned.balance⟩
  intro other member
  rcases List.mem_cons.mp member with rfl | member
  · exact received_shrinks scanned.shrinks nothing
  · exact scanned.waiting other member

/-- What is left of a set and what is taken from it make up the set. -/
theorem cleared_balance (clear : Bool) (within : Within got set)
    (bit : Nat) :
    (clear && got.getLsbD bit).toNat +
        ((if clear = true then set &&& ~~~got else set).getLsbD bit).toNat =
      (set.getLsbD bit).toNat := by
  cases clear with
  | false => simp
  | true =>
      rw [if_pos rfl, Bool.true_and, BitVec.getLsbD_and, BitVec.getLsbD_not]
      by_cases small : bit < 32
      · cases present : got.getLsbD bit with
        | false => simp [small]
        | true => rw [within bit present]; simp [small]
      · have beyond : 32 ≤ bit := Nat.le_of_not_lt small
        rw [BitVec.getLsbD_of_ge _ _ beyond, BitVec.getLsbD_of_ge _ _ beyond]
        rfl

/-- A thread whose condition is met is resumed. -/
theorem Scanned.wakes
    (scanned : Scanned ((threads.setEventSet thread got).resume thread)
      (if (threads.eventInfo thread).clear then set &&& ~~~got else set)
      rest woken result)
    (fresh : thread ∉ rest)
    (granted : Granted (threads.eventInfo thread)
      (threads.eventSet thread) got)
    (offered : Within got set) :
    Scanned threads set (thread :: rest) (thread :: woken) result := by
  have unwoken : thread ∉ woken := by
    intro member
    apply fresh
    exact scanned.divided.mem_iff.mp (List.mem_append_right _ member)
  have own : result.1.eventSet thread = got :=
    (scanned.eventSet thread unwoken).trans (Function.update_self _ _ _)
  have elsewhere : ∀ other, other ≠ thread →
      ((threads.setEventSet thread got).resume thread).eventSet other =
        threads.eventSet other :=
    fun other different => Function.update_of_ne different _ _
  have inRest : ∀ other ∈ result.2.2 ++ woken, other ≠ thread := by
    rintro other member rfl
    exact fresh (scanned.divided.mem_iff.mp member)
  refine ⟨?_, ?_, ?_, scanned.error, scanned.eventInfo, ?_, ?_, ?_, ?_⟩
  · rw [scanned.resumed]
    exact List.append_assoc _ _ _
  · exact List.perm_middle.trans (scanned.divided.cons thread)
  · apply scanned.shrinks.trans
    split
    · exact and_within_left _ _
    · exact within_refl _
  · intro other notWoken
    obtain ⟨different, notLater⟩ :=
      not_or.mp (mt List.mem_cons.mpr notWoken)
    exact (scanned.eventSet other notLater).trans
      (elsewhere other different)
  · intro other member
    have different := inRest other (List.mem_append_left _ member)
    rw [← elsewhere other different]
    exact scanned.waiting other member
  · intro other member
    rcases List.mem_cons.mp member with rfl | member
    · rw [own]
      exact granted
    · have different := inRest other (List.mem_append_right _ member)
      rw [← elsewhere other different]
      exact scanned.granted other member
  · intro bit
    have later := scanned.balance bit
    have here := cleared_balance (threads.eventInfo thread).clear offered bit
    have info : result.1.eventInfo thread = threads.eventInfo thread :=
      congrFun scanned.eventInfo thread
    rw [List.countP_cons, Clears, info, own]
    cases taken : (threads.eventInfo thread).clear && got.getLsbD bit with
    | false =>
        rw [taken] at here
        simp only [Bool.toNat_false] at here
        simp only [Bool.false_eq_true, if_false]
        omega
    | true =>
        rw [taken] at here
        simp only [Bool.toNat_true] at here
        simp only [if_true]
        omega

theorem eventScan_scanned (list : List Thread) (distinct : list.Nodup)
    (nonzero : ∀ thread ∈ list, threads.eventSet thread ≠ 0)
    (set : BitVec 32) :
    ∃ woken, Scanned threads set list woken (eventScan threads set list) := by
  induction list generalizing threads set with
  | nil =>
      refine ⟨[], (List.append_nil _).symm, List.Perm.nil, within_refl _, rfl,
        rfl, fun _ _ => rfl, nofun, nofun, ?_⟩
      intro bit
      exact Nat.zero_add _
  | cons thread rest induction =>
      obtain ⟨fresh, distinctRest⟩ := List.nodup_cons.mp distinct
      rw [eventScan]
      cases condition : received (threads.eventInfo thread)
          (threads.eventSet thread) set with
      | some got =>
          obtain ⟨granted, offered⟩ :=
            received_granted (nonzero thread List.mem_cons_self) condition
          have nonzeroRest : ∀ other ∈ rest,
              ((threads.setEventSet thread got).resume thread).eventSet
                other ≠ 0 := by
            intro other member
            have different : other ≠ thread := by
              rintro rfl
              exact fresh member
            have kept : ((threads.setEventSet thread got).resume
                thread).eventSet other = threads.eventSet other :=
              Function.update_of_ne different _ _
            rw [kept]
            exact nonzero other (List.mem_cons_of_mem thread member)
          obtain ⟨woken, scanned⟩ := induction distinctRest nonzeroRest _
          exact ⟨thread :: woken, scanned.wakes fresh granted offered⟩
      | none =>
          obtain ⟨woken, scanned⟩ := induction distinctRest
            (fun other member =>
              nonzero other (List.mem_cons_of_mem thread member)) set
          exact ⟨woken, scanned.passed_over fresh condition⟩

end Scan

/-! ## Threads and their event -/

/-- What a thread has got from the event. -/
structure Delivery (Thread : Type) where
  thread : Thread
  option : EventOption
  asked : BitVec 32
  set : BitVec 32

structure EventWorld (Thread : Type) where
  threads : Threads Thread
  event : Event Thread
  sent : List (BitVec 32)
  /-- how often a bit has been sent while it was set -/
  merged : Nat → Nat
  /-- what a thread has last asked for -/
  asked : Thread → BitVec 32
  delivered : List (Delivery Thread)

inductive EventInput (Thread : Type) where
  | send (set : BitVec 32)
  | recv (thread : Thread) (set : BitVec 32) (option : EventOption)
      (timeout : Int)
  /-- the timer of a waiting thread expires -/
  | expire (thread : Thread)
  /-- a thread goes on after `rt_schedule` -/
  | back (thread : Thread)
deriving DecidableEq

namespace EventWorld

def Busy (world : EventWorld Thread) (thread : Thread) : Prop :=
  thread ∈ world.event.suspendThread ∨ thread ∈ world.threads.resumed

instance (world : EventWorld Thread) (thread : Thread) :
    Decidable (world.Busy thread) :=
  inferInstanceAs (Decidable (_ ∨ _))

/-- What is known once `rt_event_send` has returned. -/
def afterSend (world : EventWorld Thread) (set : BitVec 32) :
    Err × Threads Thread × Event Thread → EventWorld Thread
  | (_, threads, event) =>
      { world with
        threads
        event
        sent := set :: world.sent
        merged := fun bit => world.merged bit +
          (set.getLsbD bit && world.event.set.getLsbD bit).toNat }

/-- What the caller of `rt_event_recv` knows before it waits or returns. -/
def afterRecv (world : EventWorld Thread) (thread : Thread)
    (set : BitVec 32) (option : EventOption) :
    Outcome × Option (BitVec 32) × Threads Thread × Event Thread →
      EventWorld Thread
  | (_, recved, threads, event) =>
      { world with
        threads
        event
        asked := Function.update world.asked thread set
        delivered :=
          (recved.map fun got => ⟨thread, option, set, got⟩).toList ++
            world.delivered }

/-- What the caller of `rt_event_recv` knows once it has waited. -/
def afterWait (world : EventWorld Thread) (thread : Thread) :
    EventWorld Thread :=
  { world with
    threads := world.threads.comeBack thread
    delivered :=
      if world.threads.error thread = .eok then
        ⟨thread, world.threads.eventInfo thread, world.asked thread,
          world.threads.eventSet thread⟩ :: world.delivered
      else world.delivered }

def step : EventInput Thread → EventWorld Thread →
    Except Fault (EventWorld Thread)
  | .send set, world =>
      return world.afterSend set
        (rtEventSend world.threads world.event set)
  | .recv thread set option timeout, world => do
      require (¬ world.Busy thread ∧
        (option.all = true ∨ option.any = true))
      let result ← rtEventRecv world.threads world.event thread set option
        timeout
      return world.afterRecv thread set option result
  | .expire thread, world => do
      require (thread ∈ world.event.suspendThread ∧
        world.threads.timer thread)
      return { world with
        threads := world.threads.timeout thread
        event := { world.event with
          suspendThread := world.event.suspendThread.erase thread } }
  | .back thread, world => do
      require (thread ∈ world.threads.resumed)
      return world.afterWait thread

/-- Threads that have not yet used the event. -/
def start (threads : Threads Thread) (flag : IpcFlag) : EventWorld Thread where
  threads := { threads with resumed := [] }
  event := rtEventInit flag
  sent := []
  merged := fun _ => 0
  asked := fun _ => 0
  delivered := []

/-! ## The invariant -/

/-- A thread is on its way back with the bit, which it has cleared. -/
def Carries (threads : Threads Thread) (bit : Nat) (thread : Thread) : Bool :=
  decide (threads.error thread = .eok) && Clears threads bit thread

/-- A thread has got the bit and cleared it. -/
def Delivery.took (delivery : Delivery Thread) (bit : Nat) : Bool :=
  delivery.option.clear && delivery.set.getLsbD bit

/-- A waiting thread waits for what the set does not offer. -/
structure Waits (world : EventWorld Thread) (thread : Thread) : Prop where
  no_error : world.threads.error thread = .eok
  asks : world.threads.eventSet thread = world.asked thread
  nonzero : world.asked thread ≠ 0
  nothing : received (world.threads.eventInfo thread) (world.asked thread)
    world.event.set = none

structure Sound (world : EventWorld Thread) : Prop where
  distinct :
    (world.event.suspendThread ++ world.threads.resumed).Nodup
  waiting : ∀ thread ∈ world.event.suspendThread, world.Waits thread
  granted : ∀ thread ∈ world.threads.resumed,
    world.threads.error thread = .eok →
      Granted (world.threads.eventInfo thread) (world.asked thread)
        (world.threads.eventSet thread)
  delivered : ∀ delivery ∈ world.delivered,
    Granted delivery.option delivery.asked delivery.set
  balance : ∀ bit,
    world.sent.countP (fun set => set.getLsbD bit) =
      world.delivered.countP (fun delivery => Delivery.took delivery bit) +
        world.threads.resumed.countP (Carries world.threads bit) +
        world.merged bit + (world.event.set.getLsbD bit).toNat

section Steps

variable {world : EventWorld Thread} {thread : Thread}

omit [DecidableEq Thread] in
theorem Sound.not_resumed (sound : world.Sound)
    (waiting : thread ∈ world.event.suspendThread) :
    thread ∉ world.threads.resumed := by
  intro resumed
  exact (List.disjoint_of_nodup_append sound.distinct) waiting resumed

/-- A set that is sent is counted where it is found. -/
theorem sent_balance (set pending : BitVec 32) (bit : Nat) :
    (set.getLsbD bit).toNat + (pending.getLsbD bit).toNat =
      (set.getLsbD bit && pending.getLsbD bit).toNat +
        ((pending ||| set).getLsbD bit).toNat := by
  rw [BitVec.getLsbD_or]
  cases set.getLsbD bit <;> cases pending.getLsbD bit <;> rfl

omit [DecidableEq Thread] in
/-- `rt_event_send` of a set that is not empty. -/
theorem Sound.scanned (sound : world.Sound) (set : BitVec 32)
    {woken : List Thread}
    {result : Threads Thread × BitVec 32 × List Thread}
    (scanned : Scanned world.threads (world.event.set ||| set)
      world.event.suspendThread woken result) :
    (world.afterSend set (.eok, result.1,
      { world.event with
        set := result.2.1
        suspendThread := result.2.2 })).Sound := by
  have wokenWaits : ∀ thread ∈ woken,
      thread ∈ world.event.suspendThread :=
    fun thread member =>
      scanned.divided.mem_iff.mp (List.mem_append_right _ member)
  have resumedKeeps : ∀ thread ∈ world.threads.resumed,
      result.1.eventSet thread = world.threads.eventSet thread := by
    intro thread resumed
    apply scanned.eventSet
    exact fun member => sound.not_resumed (wokenWaits thread member) resumed
  refine ⟨?_, ?_, ?_, sound.delivered, ?_⟩
  · dsimp only [afterSend]
    rw [scanned.resumed]
    have moved : (result.2.2 ++ (world.threads.resumed ++ woken)).Perm
        (world.event.suspendThread ++ world.threads.resumed) := by
      refine (List.perm_append_comm.append_left _).trans ?_
      rw [← List.append_assoc]
      exact scanned.divided.append_right _
    exact moved.nodup_iff.mpr sound.distinct
  · intro thread member
    have member : thread ∈ result.2.2 := member
    have wasWaiting : thread ∈ world.event.suspendThread :=
      scanned.divided.mem_iff.mp (List.mem_append_left _ member)
    have waits := sound.waiting thread wasWaiting
    have unwoken : thread ∉ woken := by
      intro woke
      have parts := scanned.divided.nodup_iff.mpr
        (List.nodup_append.mp sound.distinct).1
      exact (List.disjoint_of_nodup_append parts) member woke
    refine ⟨?_, ?_, waits.nonzero, ?_⟩
    · exact (congrFun scanned.error thread).trans waits.no_error
    · exact (scanned.eventSet thread unwoken).trans waits.asks
    · dsimp only [afterSend]
      rw [scanned.eventInfo, ← waits.asks]
      exact scanned.waiting thread member
  · dsimp only [afterSend]
    rw [scanned.resumed, scanned.eventInfo, scanned.error]
    intro thread member noError
    rcases List.mem_append.mp member with resumed | woke
    · rw [resumedKeeps thread resumed]
      exact sound.granted thread resumed noError
    · have asks := (sound.waiting thread (wokenWaits thread woke)).asks
      rw [← asks]
      exact scanned.granted thread woke
  · intro bit
    have before := sound.balance bit
    have found := sent_balance set world.event.set bit
    have taken := scanned.balance bit
    have carried : world.threads.resumed.countP (Carries result.1 bit) =
        world.threads.resumed.countP (Carries world.threads bit) := by
      apply List.countP_congr
      intro thread resumed
      rw [Carries, Carries, Clears, Clears, scanned.error,
        scanned.eventInfo, resumedKeeps thread resumed]
    have woke : woken.countP (Carries result.1 bit) =
        woken.countP (Clears result.1 bit) := by
      apply List.countP_congr
      intro thread member
      have noError :=
        (sound.waiting thread (wokenWaits thread member)).no_error
      rw [Carries, scanned.error, decide_eq_true noError, Bool.true_and]
    have counted : (set :: world.sent).countP (fun sent =>
        sent.getLsbD bit) =
        world.sent.countP (fun sent => sent.getLsbD bit) +
          (set.getLsbD bit).toNat := by
      rw [List.countP_cons]
      cases set.getLsbD bit <;> rfl
    dsimp only [afterSend]
    rw [scanned.resumed, List.countP_append, carried, woke, counted]
    omega

/-- `rt_event_send` -/
theorem send_sound (sound : world.Sound) (set : BitVec 32) :
    (world.afterSend set
      (rtEventSend world.threads world.event set)).Sound := by
  rw [rtEventSend]
  split
  · rename_i empty
    subst empty
    refine ⟨sound.distinct, ?_, sound.granted, sound.delivered, ?_⟩
    · intro thread member
      obtain ⟨noError, asks, nonzero, nothing⟩ := sound.waiting thread member
      exact ⟨noError, asks, nonzero, nothing⟩
    intro bit
    dsimp only [afterSend]
    have none_sent : (0 : BitVec 32).getLsbD bit = false :=
      BitVec.getLsbD_zero
    rw [List.countP_cons, none_sent, Bool.false_and]
    exact sound.balance bit
  · obtain ⟨woken, scanned⟩ := eventScan_scanned world.event.suspendThread
      (List.nodup_append.mp sound.distinct).1
      (fun thread member => by
        rw [(sound.waiting thread member).asks]
        exact (sound.waiting thread member).nonzero)
      (world.event.set ||| set)
    exact sound.scanned set scanned

omit [DecidableEq Thread] in
/-- What a thread keeps while it runs does not matter. -/
theorem Sound.frame (sound : world.Sound) {threads : Threads Thread}
    {asked : Thread → BitVec 32}
    (resumed : threads.resumed = world.threads.resumed)
    (same : ∀ thread, world.Busy thread →
      threads.error thread = world.threads.error thread ∧
        threads.eventSet thread = world.threads.eventSet thread ∧
        threads.eventInfo thread = world.threads.eventInfo thread ∧
        asked thread = world.asked thread) :
    Sound { world with threads, asked } := by
  refine ⟨?_, ?_, ?_, sound.delivered, ?_⟩
  · dsimp only
    rw [resumed]
    exact sound.distinct
  · intro thread member
    obtain ⟨noError, asks, nonzero, nothing⟩ := sound.waiting thread member
    obtain ⟨error, eventSet, eventInfo, last⟩ := same thread (.inl member)
    refine ⟨error.trans noError, ?_, ?_, ?_⟩
    · dsimp only
      rw [eventSet, last, asks]
    · dsimp only
      rw [last]
      exact nonzero
    · dsimp only
      rw [eventInfo, last]
      exact nothing
  · dsimp only
    rw [resumed]
    intro thread member noError
    obtain ⟨error, eventSet, eventInfo, last⟩ := same thread (.inr member)
    rw [eventSet, eventInfo, last]
    exact sound.granted thread member (error.symm.trans noError)
  · intro bit
    dsimp only
    have carried : threads.resumed.countP (Carries threads bit) =
        world.threads.resumed.countP (Carries world.threads bit) := by
      rw [resumed]
      apply List.countP_congr
      intro thread member
      obtain ⟨error, eventSet, eventInfo, -⟩ := same thread (.inr member)
      rw [Carries, Carries, Clears, Clears, error, eventSet, eventInfo]
    rw [carried]
    exact sound.balance bit

omit [DecidableEq Thread] in
/-- A thread gets what it asks for without waiting. -/
theorem Sound.served (sound : world.Sound) {option : EventOption}
    {asked got : BitVec 32} (granted : Granted option asked got)
    (offered : world.event.set &&& asked = got) :
    Sound { world with
      event := { world.event with
        set := if option.clear = true then world.event.set &&& ~~~asked
          else world.event.set }
      delivered := ⟨thread, option, asked, got⟩ :: world.delivered } := by
  have same : world.event.set &&& ~~~asked = world.event.set &&& ~~~got := by
    rw [← offered]
    apply BitVec.eq_of_getLsbD_eq
    intro bit small
    simp only [BitVec.getLsbD_and, BitVec.getLsbD_not]
    cases world.event.set.getLsbD bit <;> simp [small]
  have within : Within got world.event.set := by
    rw [← offered]
    exact and_within_left _ _
  have shrinks : Within
      (if option.clear = true then world.event.set &&& ~~~asked
        else world.event.set) world.event.set := by
    split
    · exact and_within_left _ _
    · exact within_refl _
  refine ⟨sound.distinct, ?_, sound.granted, ?_, ?_⟩
  · intro other member
    obtain ⟨noError, asks, nonzero, nothing⟩ := sound.waiting other member
    exact ⟨noError, asks, nonzero, received_shrinks shrinks nothing⟩
  · intro delivery member
    rcases List.mem_cons.mp member with rfl | member
    · exact granted
    · exact sound.delivered delivery member
  · intro bit
    have before := sound.balance bit
    have taken := cleared_balance option.clear within bit
    dsimp only
    rw [same, List.countP_cons, Delivery.took]
    cases took : option.clear && got.getLsbD bit with
    | false =>
        rw [took, Bool.toNat_false] at taken
        simp only [Bool.false_eq_true, if_false]
        omega
    | true =>
        rw [took, Bool.toNat_true] at taken
        simp only [if_true]
        omega

omit [DecidableEq Thread] in
/-- A thread waits. -/
theorem Sound.suspended (sound : world.Sound) (idle : ¬ world.Busy thread)
    (waits : world.Waits thread) (priority : Thread → Nat) :
    Sound { world with
      event := { world.event with
        suspendThread := listSuspend priority world.event.flag
          world.event.suspendThread thread } } := by
  obtain ⟨notWaiting, notResumed⟩ := not_or.mp idle
  refine ⟨listSuspend_nodup sound.distinct notWaiting notResumed, ?_,
    sound.granted, sound.delivered, sound.balance⟩
  intro other member
  rcases mem_listSuspend.mp member with rfl | member
  · exact ⟨waits.no_error, waits.asks, waits.nonzero, waits.nothing⟩
  · obtain ⟨noError, asks, nonzero, nothing⟩ := sound.waiting other member
    exact ⟨noError, asks, nonzero, nothing⟩

/-- The error of a thread that runs is its own. -/
theorem Sound.setError (sound : world.Sound) (idle : ¬ world.Busy thread)
    (err : Err) :
    Sound { world with threads := world.threads.setError thread err } := by
  refine sound.frame rfl ?_
  intro other busy
  have different : other ≠ thread := by
    rintro rfl
    exact idle busy
  exact ⟨Function.update_of_ne different _ _, rfl, rfl, rfl⟩

/-- What a thread that runs has asked for does not matter. -/
theorem Sound.asking (sound : world.Sound) (idle : ¬ world.Busy thread)
    (set : BitVec 32) :
    Sound { world with asked := Function.update world.asked thread set } := by
  refine sound.frame rfl ?_
  intro other busy
  have different : other ≠ thread := by
    rintro rfl
    exact idle busy
  exact ⟨rfl, rfl, rfl, Function.update_of_ne different _ _⟩

/-- `rt_event_recv` of a thread that runs. -/
theorem recv_sound (sound : world.Sound) (idle : ¬ world.Busy thread)
    {set : BitVec 32} {option : EventOption} {timeout : Int}
    (usable : option.all = true ∨ option.any = true) :
    Returns (rtEventRecv world.threads world.event thread set option
        timeout)
      fun result => (world.afterRecv thread set option result).Sound := by
  have asking := sound.asking idle set
  rw [rtEventRecv]
  by_cases empty : set = 0
  · rw [if_pos empty]
    exact returns_ok asking
  rw [if_neg empty]
  have noAssertion : ¬ (option.all = false ∧ option.any = false) := by
    rintro ⟨notAll, notAny⟩
    rw [notAll, notAny] at usable
    rcases usable with all | any
    · cases all
    · cases any
  rw [if_neg noAssertion]
  have reset := asking.setError idle .eok
  dsimp only
  cases condition : received option set world.event.set with
  | some got =>
      rw [if_pos Option.isSome_some]
      obtain ⟨granted, -⟩ := received_granted empty condition
      have offered := received_now condition
      rw [offered]
      exact returns_ok (reset.served granted offered)
  | none =>
      rw [if_neg (by decide)]
      by_cases polls : timeout = 0
      · rw [if_pos polls]
        exact returns_ok (reset.setError idle .etimeout)
      rw [if_neg polls]
      apply returns_ok
      have filled : Sound { world with
          threads := startTimer
            (((world.threads.setError thread .eok).setEventSet thread
              set).setEventInfo thread option) thread timeout
          asked := Function.update world.asked thread set } := by
        refine reset.frame rfl ?_
        intro other busy
        have different : other ≠ thread := by
          rintro rfl
          exact idle busy
        exact ⟨rfl, Function.update_of_ne different _ _,
          Function.update_of_ne different _ _, rfl⟩
      have last : Function.update world.asked thread set thread = set :=
        Function.update_self _ _ _
      refine filled.suspended idle ⟨?_, ?_, ?_, ?_⟩ _
      · exact Function.update_self _ _ _
      · have asks : (startTimer
            (((world.threads.setError thread .eok).setEventSet thread
              set).setEventInfo thread option) thread timeout).eventSet
              thread = set := Function.update_self _ _ _
        exact asks.trans last.symm
      · dsimp only
        rw [last]
        exact empty
      · have info : (startTimer
            (((world.threads.setError thread .eok).setEventSet thread
              set).setEventInfo thread option) thread timeout).eventInfo
              thread = option := Function.update_self _ _ _
        dsimp only
        rw [info, last]
        exact condition

/-- The timer of a waiting thread expires. -/
theorem expire_sound (sound : world.Sound)
    (waiting : thread ∈ world.event.suspendThread) :
    Sound { world with
      threads := world.threads.timeout thread
      event := { world.event with
        suspendThread := world.event.suspendThread.erase thread } } := by
  have notResumed := sound.not_resumed waiting
  have elsewhere : ∀ other, other ≠ thread →
      (world.threads.timeout thread).error other =
        world.threads.error other :=
    fun other different => Function.update_of_ne different _ _
  have late : (world.threads.timeout thread).error thread = .etimeout :=
    Function.update_self _ _ _
  have resumedOther : ∀ other ∈ world.threads.resumed, other ≠ thread := by
    rintro other resumed rfl
    exact notResumed resumed
  refine ⟨?_, ?_, ?_, sound.delivered, ?_⟩
  · exact (resumed_perm waiting world.threads.resumed).nodup_iff.mpr
      sound.distinct
  · intro other member
    have distinct := (List.nodup_append.mp sound.distinct).1
    have different : other ≠ thread :=
      (distinct.mem_erase_iff.mp member).1
    obtain ⟨noError, asks, nonzero, nothing⟩ :=
      sound.waiting other (List.mem_of_mem_erase member)
    exact ⟨(elsewhere other different).trans noError, asks, nonzero, nothing⟩
  · intro other member noError
    have member : other ∈ world.threads.resumed ++ [thread] := member
    rcases List.mem_append.mp member with resumed | same
    · have different := resumedOther other resumed
      exact sound.granted other resumed
        ((elsewhere other different).symm.trans noError)
    · obtain rfl := List.mem_singleton.mp same
      rw [late] at noError
      cases noError
  · intro bit
    have carried : world.threads.resumed.countP
        (Carries (world.threads.timeout thread) bit) =
        world.threads.resumed.countP (Carries world.threads bit) := by
      apply List.countP_congr
      intro other resumed
      have different := resumedOther other resumed
      rw [Carries, Carries, elsewhere other different]
      rfl
    have nothing : Carries (world.threads.timeout thread) bit thread =
        false := by
      rw [Carries, late]
      rfl
    have counted : (world.threads.timeout thread).resumed.countP
        (Carries (world.threads.timeout thread) bit) =
        world.threads.resumed.countP (Carries world.threads bit) := by
      have shape : (world.threads.timeout thread).resumed =
          world.threads.resumed ++ [thread] := rfl
      rw [shape, List.countP_append, carried, List.countP_singleton, nothing]
      rfl
    dsimp only
    rw [counted]
    exact sound.balance bit

/-- A thread goes on after `rt_schedule`. -/
theorem back_sound (sound : world.Sound)
    (resumed : thread ∈ world.threads.resumed) :
    (world.afterWait thread).Sound := by
  have still : ∀ other ∈ (world.threads.comeBack thread).resumed,
      other ∈ world.threads.resumed :=
    fun other => List.mem_of_mem_erase
  refine ⟨?_, ?_, ?_, ?_, ?_⟩
  · exact sound.distinct.sublist
      ((List.erase_sublist).append_left _)
  · intro other member
    obtain ⟨noError, asks, nonzero, nothing⟩ := sound.waiting other member
    exact ⟨noError, asks, nonzero, nothing⟩
  · exact fun other member => sound.granted other (still other member)
  · dsimp only [afterWait]
    split
    · rename_i noError
      intro delivery member
      rcases List.mem_cons.mp member with rfl | member
      · exact sound.granted thread resumed noError
      · exact sound.delivered delivery member
    · exact sound.delivered
  · intro bit
    have before := sound.balance bit
    have counted := (List.perm_cons_erase resumed).countP_eq
      (Carries world.threads bit)
    rw [List.countP_cons] at counted
    have carries : Carries (world.threads.comeBack thread) bit =
        Carries world.threads bit := rfl
    have shape : (world.threads.comeBack thread).resumed =
        world.threads.resumed.erase thread := rfl
    dsimp only [afterWait]
    rw [carries, shape]
    split
    · rename_i noError
      have took : Delivery.took
          ⟨thread, world.threads.eventInfo thread, world.asked thread,
            world.threads.eventSet thread⟩ bit =
          Carries world.threads bit thread := by
        rw [Carries, decide_eq_true noError, Bool.true_and]
        rfl
      rw [List.countP_cons, took]
      omega
    · rename_i error
      have nothing : Carries world.threads bit thread = false := by
        rw [Carries, decide_eq_false error, Bool.false_and]
      rw [nothing] at counted
      simp only [Bool.false_eq_true, if_false] at counted
      omega

omit [DecidableEq Thread] in
theorem start_sound (threads : Threads Thread) (flag : IpcFlag) :
    (start threads flag).Sound :=
  ⟨List.nodup_nil, nofun, nofun, nofun, fun _ => by
    simp [start, rtEventInit]⟩

/-- Whatever the threads do, the event is sound, and no call faults. -/
theorem step_sound (sound : world.Sound) (input : EventInput Thread) :
    step input world = .error .misuse ∨
      Returns (step input world) Sound := by
  cases input with
  | send set => exact .inr (returns_pure (send_sound sound set))
  | recv thread set option timeout =>
      rw [step, require]
      split
      · rename_i allowed
        right
        apply returns_ok_bind
        apply (recv_sound sound allowed.1 allowed.2).bind
        intro result received
        exact returns_pure received
      · exact .inl rfl
  | expire thread =>
      rw [step, require]
      split
      · rename_i waits
        exact .inr (returns_ok (expire_sound sound waits.1))
      · exact .inl rfl
  | back thread =>
      rw [step, require]
      split
      · rename_i resumed
        exact .inr (returns_ok (back_sound sound resumed))
      · exact .inl rfl

end Steps

/-! ## Runs -/

section Runs

variable (threads : Threads Thread) (flag : IpcFlag)
  (inputs : List (EventInput Thread))

theorem run_sound :
    Run.run step inputs (start threads flag) = .error .misuse ∨
      Returns (Run.run step inputs (start threads flag)) Sound :=
  run_returns (fun input _ sound => step_sound sound input) inputs
    (start_sound threads flag)

/--
However sends, receives, timeouts and the scheduler interleave, no thread
waits for what the event offers, and whoever gets a set gets a part of what it
asked for that is not empty, with `RT_EVENT_FLAG_AND` all of it.
-/
theorem no_lost_wakeup :
    Run.run step inputs (start threads flag) = .error .misuse ∨
      Returns (Run.run step inputs (start threads flag)) fun world =>
        (∀ thread ∈ world.event.suspendThread,
          world.threads.eventSet thread = world.asked thread ∧
            received (world.threads.eventInfo thread) (world.asked thread)
              world.event.set = none) ∧
        (∀ thread ∈ world.threads.resumed,
          world.threads.error thread = .eok →
            Granted (world.threads.eventInfo thread) (world.asked thread)
              (world.threads.eventSet thread)) ∧
        ∀ delivery ∈ world.delivered,
          Granted delivery.option delivery.asked delivery.set :=
  (run_sound threads flag inputs).imp_right fun returns =>
    returns.mono fun _ sound =>
      ⟨fun thread waits =>
        ⟨(sound.waiting thread waits).asks,
          (sound.waiting thread waits).nothing⟩,
        sound.granted, sound.delivered⟩

/--
A bit that is sent is not lost and not given to two threads that clear it: it
has been taken, it is on its way to a thread that has been resumed, it is
still set, or it was already set when it was sent.
-/
theorem bits_conserved :
    Run.run step inputs (start threads flag) = .error .misuse ∨
      Returns (Run.run step inputs (start threads flag)) fun world =>
        ∀ bit, world.sent.countP (fun set => set.getLsbD bit) =
          world.delivered.countP
              (fun delivery => Delivery.took delivery bit) +
            world.threads.resumed.countP (Carries world.threads bit) +
            world.merged bit + (world.event.set.getLsbD bit).toNat :=
  (run_sound threads flag inputs).imp_right fun returns =>
    returns.mono fun _ sound => sound.balance

end Runs

end EventWorld

end InternetWavPlayer.Ipc
