import InternetWavPlayer.IpcEvent
import InternetWavPlayer.KeyPipeline

/-!
# The event of the display

`lcd_event` is an event of the kernel.  The event thread sends to it for each
message that it processes, and the LCD thread receives from it, without
waiting, at the top of its loop.  The model of the threads keeps one word for
it; here the same calls are made on the event of `ipc.c`, and the word is its
set in every run.
-/

namespace InternetWavPlayer.DisplayEvent

open InternetWavPlayer.Run
open InternetWavPlayer.LcdEvent
open InternetWavPlayer.Pages
open InternetWavPlayer.LcdThread (Pc poll)
open InternetWavPlayer.KeyPipeline
open InternetWavPlayer.Ipc (Event EventInput EventOption EventWorld received)
open InternetWavPlayer.Contract

/-! ## Calls without waiting -/

section Calls

variable {Thread : Type} [DecidableEq Thread]

/-- `RT_EVENT_FLAG_OR | RT_EVENT_FLAG_CLEAR` -/
def orClear : EventOption := ⟨false, true, true⟩

variable {threads : Ipc.Threads Thread} {event : Event Thread}
  {thread : Thread} {set wanted got kept : BitVec 32}

/-- If nobody waits a send adds its bits and resumes nobody. -/
theorem rtEventSend_unawaited
    (nobody : event.suspendThread = []) (nonzero : set ≠ 0) :
    Ipc.rtEventSend threads event set =
      (.eok, threads,
        { event with set := rtEventSend event.set set }) := by
  rw [Ipc.rtEventSend, if_neg nonzero, nobody, rtEventSend]
  rfl

/-- Bits that are there are received without waiting. -/
theorem rtEventRecv_polls
    (nonzero : wanted ≠ 0)
    (gets : rtEventRecv event.set wanted = some (got, kept)) :
    Ipc.rtEventRecv threads event thread wanted orClear 0 =
      .ok (.returned .eok, some got, threads.setError thread .eok,
        { event with set := kept }) := by
  rw [rtEventRecv] at gets
  split at gets
  · rename_i overlap
    cases gets
    have offered : wanted &&& event.set ≠ 0 := by
      rw [BitVec.and_comm]
      exact bne_iff_ne.mp overlap
    have condition : received orClear wanted event.set =
        some (wanted &&& event.set) := by
      rw [received, orClear, if_neg Bool.false_ne_true, if_pos rfl,
        if_pos offered]
    rw [Ipc.rtEventRecv, if_neg nonzero, if_neg (by decide), condition]
    rfl
  · cases gets

theorem rtEventRecv_times_out
    (nonzero : wanted ≠ 0)
    (nothing : rtEventRecv event.set wanted = none) :
    Ipc.rtEventRecv threads event thread wanted orClear 0 =
      .ok (.returned .etimeout, none,
        (threads.setError thread .eok).setError thread .etimeout,
        event) := by
  rw [rtEventRecv] at nothing
  split at nothing
  · cases nothing
  · rename_i disjoint
    have condition : received orClear wanted event.set = none := by
      rw [received, orClear, if_neg Bool.false_ne_true, if_pos rfl,
        BitVec.and_comm]
      exact if_neg fun offered => disjoint (bne_iff_ne.mpr offered)
    rw [Ipc.rtEventRecv, if_neg nonzero, if_neg (by decide), condition]
    rfl

end Calls

/-! ## The calls of the three threads -/

/-- The LCD thread is the only one that receives from `lcd_event`. -/
inductive Receiver where
  | lcdThread
deriving DecidableEq

/-- `~IOTB_LCD_EVENT_NONE` -/
def wanted : EventSet := ~~~IotbLcdEvent.mask .none

/-- The call in `iotb_lcd_event_put`. -/
def putCall (event : IotbLcdEvent) : EventInput Receiver :=
  .send event.mask

/-- The call in `iotb_lcd_event_get`, at the top of the loop. -/
def pollCall : EventInput Receiver :=
  .recv .lcdThread wanted orClear 0

/-- What a step of the threads calls on `lcd_event`. -/
def stepCalls (input : Input) (threads : Threads) :
    List (EventInput Receiver) :=
  match input with
  | .event =>
      match threads.hand with
      | some (_, msg) => (iotbEventProcess msg).toList.map putCall
      | none => []
  | .lcd _ => if threads.lcd.pc = .top then [pollCall] else []
  | _ => []

/-- What a run calls on `lcd_event`, in this order. -/
def runCalls (size : Nat) :
    List Input → Threads → List (EventInput Receiver)
  | [], _ => []
  | input :: rest, threads =>
      stepCalls input threads ++
        match step size input threads with
        | .ok next => runCalls size rest next
        | .error _ => []

/-! ## The word is the set -/

/--
The event has the bits of the word, no thread waits for it, and a dispatch
works with the set that was received last.
-/
structure Keeps (threads : Threads) (world : EventWorld Receiver) :
    Prop where
  set : world.event.set = threads.lcdEvent.set
  unawaited : world.event.suspendThread = []
  unresumed : world.threads.resumed = []
  dispatched : ∀ event, threads.lcd.pc = .dispatch event →
    ∃ older, world.delivered =
      ⟨.lcdThread, orClear, wanted, event⟩ :: older

section Steps

variable {size : Nat} {threads next : Threads}
  {world : EventWorld Receiver}

theorem Keeps.of_same
    (keeps : Keeps threads world) (events : next.lcdEvent = threads.lcdEvent)
    (lcd : next.lcd = threads.lcd) : Keeps next world where
  set := by rw [events, keeps.set]
  unawaited := keeps.unawaited
  unresumed := keeps.unresumed
  dispatched := by
    rw [lcd]
    exact keeps.dispatched

/-- The queue concerns neither the event nor the LCD thread. -/
theorem Keeps.queued
    (keeps : Keeps threads world) {input : EventQueue.Input IotbEventMsg}
    (stepped : queueStep size input threads = .ok next) :
    Keeps next world := by
  obtain ⟨queue, -, rfl⟩ := queueStep_ok_iff.mp stepped
  exact keeps.of_same rfl rfl

theorem mask_ne_zero (event : IotbLcdEvent) : event.mask ≠ 0 := by
  cases event <;> decide

/-- A message that is processed is sent as its bit. -/
theorem Keeps.process
    (keeps : Keeps threads world) (msg : IotbEventMsg) :
    ∃ after,
      run EventWorld.step ((iotbEventProcess msg).toList.map putCall) world =
        .ok after ∧
      Keeps { threads with
        hand := none
        lcdEvent := PostedSet.process msg threads.lcdEvent } after := by
  cases processed : iotbEventProcess msg with
  | none =>
      refine ⟨world, rfl, keeps.of_same ?_ rfl⟩
      show PostedSet.process msg threads.lcdEvent = threads.lcdEvent
      rw [PostedSet.process]
      split
      · rename_i put
        cases processed.symm.trans put
      · rfl
  | some event =>
      have sent : Ipc.rtEventSend world.threads world.event event.mask = _ :=
        rtEventSend_unawaited keeps.unawaited (mask_ne_zero event)
      refine ⟨world.afterSend event.mask _, rfl, ?_, ?_, ?_, ?_⟩
      · show (Ipc.rtEventSend _ _ _).2.2.set =
          (PostedSet.process msg threads.lcdEvent).set
        rw [sent, PostedSet.process]
        split
        · rename_i put
          cases processed.symm.trans put
          exact congrArg (· ||| event.mask) keeps.set
        · rename_i missing
          cases processed.symm.trans missing
      · show (Ipc.rtEventSend _ _ _).2.2.suspendThread = []
        rw [sent]
        exact keeps.unawaited
      · show (Ipc.rtEventSend _ _ _).2.1.resumed = []
        rw [sent]
        exact keeps.unresumed
      · exact keeps.dispatched

/-- A poll receives what the model of the threads hands out. -/
theorem Keeps.poll
    (keeps : Keeps threads world) :
    ∃ after, run EventWorld.step [pollCall] world = .ok after ∧
      Keeps { threads with
        lcd := LcdThread.poll threads.lcdEvent.set threads.lcd
        lcdEvent := PostedSet.polled threads.lcdEvent } after := by
  have free : ¬ world.Busy .lcdThread := by
    rintro (waits | resumed)
    · rw [keeps.unawaited] at waits
      cases waits
    · rw [keeps.unresumed] at resumed
      cases resumed
  have allowed : ¬ world.Busy .lcdThread ∧
      (orClear.all = true ∨ orClear.any = true) := ⟨free, .inr rfl⟩
  have stepped : EventWorld.step pollCall world =
      (Ipc.rtEventRecv world.threads world.event .lcdThread wanted orClear
        0).map (world.afterRecv .lcdThread wanted orClear) := by
    rw [pollCall, EventWorld.step, Ipc.require, if_pos allowed]
    cases Ipc.rtEventRecv world.threads world.event .lcdThread wanted
      orClear 0 <;> rfl
  have nonzero : wanted ≠ 0 := by decide
  cases got : iotbLcdEventGet threads.lcdEvent.set with
  | none =>
      have nothing : rtEventRecv world.event.set wanted = none := by
        rw [keeps.set]
        exact got
      rw [rtEventRecv_times_out nonzero nothing] at stepped
      refine ⟨_, run_singleton stepped, ?_, ?_, ?_, ?_⟩
      · rw [polled_of_none got]
        exact keeps.set
      · exact keeps.unawaited
      · exact keeps.unresumed
      · intro event dispatched
        rw [LcdThread.poll, got] at dispatched
        cases dispatched
  | some sets =>
      obtain ⟨received, kept⟩ := sets
      have gets : rtEventRecv world.event.set wanted =
          some (received, kept) := by
        rw [keeps.set]
        exact got
      rw [rtEventRecv_polls nonzero gets] at stepped
      refine ⟨_, run_singleton stepped, ?_, ?_, ?_, ?_⟩
      · rw [polled_of_some got]
        exact posted_kept threads.lcdEvent.posted got
      · exact keeps.unawaited
      · exact keeps.unresumed
      · intro event dispatched
        rw [LcdThread.poll, got] at dispatched
        cases dispatched
        exact ⟨_, rfl⟩

/-- A step of the LCD thread that is not a poll leads to no dispatch. -/
theorem lcdStep_pc
    {input : LcdThread.Input} {lcd after : LcdThread.Lcd}
    (elsewhere : lcd.pc ≠ .top)
    (stepped : LcdThread.step input lcd = .ok after) (event : EventSet) :
    after.pc ≠ .dispatch event := by
  rw [LcdThread.step, LcdThread.lcdStep] at stepped
  cases pc : lcd.pc with
  | top => exact absurd pc elsewhere
  | delay =>
      rw [pc] at stepped
      cases stepped
      intro dispatched
      cases dispatched
  | _ =>
      rw [pc] at stepped
      obtain ⟨_, -, same⟩ := bind_eq_ok_iff.mp stepped
      cases same
      intro dispatched
      cases dispatched

theorem Keeps.lcd
    (keeps : Keeps threads world) {env : Env}
    (stepped : KeyPipeline.lcdStep env threads = .ok next) :
    ∃ after,
      run EventWorld.step (stepCalls (.lcd env) threads) world = .ok after ∧
      Keeps next after := by
  rw [KeyPipeline.lcdStep] at stepped
  split at stepped
  · rename_i lcd ran
    cases stepped
    by_cases top : threads.lcd.pc = .top
    · rw [stepCalls, if_pos top, if_pos top]
      rw [LcdThread.step, LcdThread.lcdStep, top] at ran
      cases ran
      exact keeps.poll
    · rw [stepCalls, if_neg top, if_neg top]
      exact ⟨world, rfl, keeps.set, keeps.unawaited, keeps.unresumed,
        fun event dispatched =>
          absurd dispatched (lcdStep_pc top ran event)⟩
  · cases stepped

/-- A step makes its calls, which return and keep the word. -/
theorem Keeps.step
    (keeps : Keeps threads world) {input : Input}
    (stepped : KeyPipeline.step size input threads = .ok next) :
    ∃ after,
      run EventWorld.step (stepCalls input threads) world = .ok after ∧
      Keeps next after := by
  cases input with
  | put msg =>
      have queued : queueStep size (.putBegin msg) threads = .ok next :=
        stepped
      exact ⟨world, rfl, keeps.queued queued⟩
  | putEnd call =>
      have queued : queueStep size (.putEnd call) threads = .ok next :=
        stepped
      exact ⟨world, rfl, keeps.queued queued⟩
  | setEnable value =>
      have queued : queueStep size (.setEnable value) threads = .ok next :=
        stepped
      exact ⟨world, rfl, keeps.queued queued⟩
  | lcd env => exact keeps.lcd stepped
  | event =>
      rw [KeyPipeline.step, eventStep] at stepped
      rw [stepCalls]
      cases hand : threads.hand with
      | some held =>
          rw [hand] at stepped
          cases stepped
          exact keeps.process held.2
      | none =>
          rw [hand] at stepped
          dsimp only at stepped
          split at stepped
          · exact ⟨world, rfl, keeps.queued stepped⟩
          · have taken : ∀ hand, Keeps { threads with hand := hand } world :=
              fun _ => keeps.of_same rfl rfl
            exact ⟨world, rfl, (taken _).queued stepped⟩

theorem Keeps.run
    (keeps : Keeps threads world) {inputs : List Input} {finish : Threads}
    (ran : run (KeyPipeline.step size) inputs threads = .ok finish) :
    ∃ after,
      run EventWorld.step (runCalls size inputs threads) world =
        .ok after ∧
      Keeps finish after := by
  induction inputs generalizing threads world with
  | nil =>
      cases ran
      exact ⟨world, rfl, keeps⟩
  | cons input rest induction =>
      obtain ⟨next, stepped, continued⟩ :=
        (run_cons_eq_ok_iff input rest threads finish).mp ran
      obtain ⟨middle, called, kept⟩ := keeps.step stepped
      obtain ⟨after, more, final⟩ := induction kept continued
      refine ⟨after, ?_, final⟩
      rw [runCalls, stepped, run_append_eq_ok_iff]
      exact ⟨middle, called, more⟩

end Steps

/-! ## Runs -/

theorem keeps_initial
    (size : Nat) (card : Webclient.Card) (threads : Ipc.Threads Receiver) :
    Keeps (.initial size card) (.start threads .fifo) where
  set := rfl
  unawaited := rfl
  unresumed := rfl
  dispatched := nofun

/--
In every run of the three threads their calls on `lcd_event` return at once,
the event has the bits of the word that the threads see, and each dispatch
works with the set that was received last.  Every bit that was sent has been
received, was sent while it was set, or is still set.
-/
theorem lcdEvent_kept
    (size : Nat) (card : Webclient.Card) (threads : Ipc.Threads Receiver)
    (inputs : List Input) {finish : Threads}
    (ran : run (step size) inputs (.initial size card) = .ok finish) :
    Returns
      (run EventWorld.step (runCalls size inputs (.initial size card))
        (.start threads .fifo))
      fun world =>
        world.event.set = finish.lcdEvent.set ∧
        world.event.suspendThread = [] ∧
        (∀ event, finish.lcd.pc = .dispatch event →
          ∃ older, world.delivered =
            ⟨.lcdThread, orClear, wanted, event⟩ :: older) ∧
        ∀ bit, world.sent.countP (fun set => set.getLsbD bit) =
          world.delivered.countP (fun got => EventWorld.Delivery.took got bit) +
            world.merged bit + (finish.lcdEvent.set.getLsbD bit).toNat := by
  obtain ⟨world, called, keeps⟩ :=
    (keeps_initial size card threads).run ran
  have sound : world.Sound := by
    rcases EventWorld.run_sound threads .fifo
        (runCalls size inputs (.initial size card)) with misuse | returns
    · rw [called] at misuse
      cases misuse
    · obtain ⟨other, same, sound⟩ := returns
      cases called.symm.trans same
      exact sound
  refine ⟨world, called, keeps.set, keeps.unawaited, keeps.dispatched, ?_⟩
  intro bit
  rw [sound.balance bit, keeps.unresumed, keeps.set]
  rfl

/-- A click of KEY0 is put, taken off the queue, processed and polled. -/
def polledInputs : List Input :=
  [.lcd offline, .put ⟨.key0, .keyClick⟩, .putEnd 0, .event, .event, .event,
    .lcd offline]

/-- The LCD thread as it has used nothing of the kernel. -/
def idleThreads : Ipc.Threads Receiver :=
  ⟨fun _ => 0, fun _ => .eok, fun _ => false, fun _ => 0, fun _ => orClear, []⟩

/-- The click of KEY0 is received and leaves nothing in the event. -/
theorem lcdEvent_kept_click :
    Returns
      (run EventWorld.step
        (runCalls 8 polledInputs (.initial 8 fun _ => some []))
        (.start idleThreads .fifo))
      fun world =>
        world.event.set = 0 ∧
        ∃ older, world.delivered =
          ⟨.lcdThread, orClear, wanted, IotbLcdEvent.mask .musicPlay⟩ ::
            older := by
  have reached : (run (step 8) polledInputs
      (.initial 8 fun _ => some [])).toOption.map
        (fun finish => (finish.lcdEvent.set, finish.lcd.pc)) =
      some (0, .dispatch (IotbLcdEvent.mask .musicPlay)) := by
    decide +kernel
  obtain ⟨finish, ran, seen⟩ := toOption_map_eq_some_iff.mp reached
  obtain ⟨empty, dispatch⟩ := Prod.mk.inj seen
  obtain ⟨world, called, set, -, dispatched, -⟩ :=
    lcdEvent_kept 8 (fun _ => some []) idleThreads polledInputs ran
  exact ⟨world, called, set.trans empty, dispatched _ dispatch⟩

end InternetWavPlayer.DisplayEvent
