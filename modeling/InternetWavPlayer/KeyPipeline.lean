import InternetWavPlayer.Effects
import InternetWavPlayer.EventQueue

/-!
# The way of a key message

Key callbacks put messages on the queue, the event thread takes them off one by
one and turns each into a bit of `lcd_event`, and the LCD thread polls that
set, dispatches and calls handlers.  The three take their steps in any order.

A message is known by its place in the order in which the queue accepted them.
Tags follow the places through the machine: with the bits that were set since
the last poll, with the bits a poll received, with the event left in the active
page, and with the actions that a handler performed.  They decide nothing.
-/

namespace InternetWavPlayer.KeyPipeline

open InternetWavPlayer.Run
open InternetWavPlayer.LcdEvent
open InternetWavPlayer.Webclient
open InternetWavPlayer.Pages
open InternetWavPlayer.LcdThread
open InternetWavPlayer.Dispatch
open InternetWavPlayer.Scene
open InternetWavPlayer.EventQueue (GetsInTurn InTurn QueueInvariant
  inTurn_preserved iotbEventGet iotbEventPut putEnd
  queueInvariant_initial queueInvariant_preserved)
open InternetWavPlayer.MessageQueue (rtMqRecvEnd rtMqSendBegin)

/-! ## The three threads -/

/-- A poll of a set that only messages filled leaves nothing in it. -/
theorem posted_kept
    {set received kept : EventSet} (posted : Posted set)
    (got : iotbLcdEventGet set = some (received, kept)) :
    kept = 0#32 := by
  have without : set.test .none = false := by
    rw [Bool.eq_false_iff]
    exact fun member => not_postable_none (posted.postable member)
  have empty : set &&& IotbLcdEvent.mask .none = 0#32 := by
    simpa [EventSet.test] using without
  rw [iotbLcdEventGet, rtEventRecv] at got
  split at got
  · cases got
    rw [BitVec.not_not]
    exact empty
  · cases got

/-- What is left of a set when it is polled. -/
def PostedSet.polled (events : PostedSet) : PostedSet :=
  match got : iotbLcdEventGet events.set with
  | some (_, kept) =>
      ⟨kept, by rw [posted_kept events.posted got]; exact .empty⟩
  | none => events

theorem polled_of_some
    {events : PostedSet} {received kept : EventSet}
    (got : iotbLcdEventGet events.set = some (received, kept)) :
    (PostedSet.polled events).set = 0#32 := by
  rw [PostedSet.polled]
  split
  · rename_i taken
    exact posted_kept events.posted taken
  · rename_i missing
    rw [missing] at got
    cases got

theorem polled_of_none
    {events : PostedSet} (timeout : iotbLcdEventGet events.set = none) :
    PostedSet.polled events = events := by
  rw [PostedSet.polled]
  split
  · rename_i taken
    rw [taken] at timeout
    cases timeout
  · rfl

/-- `iotb_event_process`. -/
def PostedSet.process (msg : IotbEventMsg) (events : PostedSet) :
    PostedSet :=
  match processed : iotbEventProcess msg with
  | some event =>
      ⟨iotbLcdEventPut events.set event,
        .put events.posted ⟨msg, processed⟩⟩
  | none => events

theorem test_process
    (msg : IotbEventMsg) (events : PostedSet) (bit : IotbLcdEvent) :
    (PostedSet.process msg events).set.test bit =
      (events.set.test bit ||
        decide (iotbEventProcess msg = some bit)) := by
  rw [PostedSet.process]
  split
  · rename_i event processed
    have same : decide (iotbEventProcess msg = some bit) =
        decide (bit = event) := by
      simp [processed, eq_comm]
    rw [same]
    exact test_put events.set event bit
  · rename_i processed
    simp [processed]

/-- A fault of the queue or of the LCD thread. -/
inductive Fault where
  | queue (fault : MessageQueue.Fault)
  | page (fault : Songlist.Fault)
deriving DecidableEq, Repr

/--
The queue with the calls under way, the message that `iotb_event_get` returned
to the event thread, with its place, the set `lcd_event`, and the LCD thread.
-/
structure Threads where
  queue : EventQueue.State IotbEventMsg
  hand : Option (Nat × IotbEventMsg)
  lcdEvent : PostedSet
  lcd : Lcd

/-- The threads at start-up, for messages of `size` bytes. -/
def Threads.initial (size : Nat) (card : Card) : Threads where
  queue := EventQueue.iotbEventInit size
  hand := none
  lcdEvent := ⟨0#32, .empty⟩
  lcd := .initial card

/--
A step of one of the threads: a callback starts `iotb_event_put` or goes on with
a call, somebody sets the flag of `iotb_event_put`, the event thread or the LCD
thread goes on.
-/
inductive Input where
  | put (msg : IotbEventMsg)
  | putEnd (call : Nat)
  | setEnable (value : Bool)
  | event
  | lcd (env : Env)

/-- A step that concerns the queue only. -/
def queueStep (size : Nat) (input : EventQueue.Input IotbEventMsg)
    (threads : Threads) : Except Fault Threads :=
  match EventQueue.step size input threads.queue with
  | .ok queue => .ok { threads with queue := queue }
  | .error fault => .error (.queue fault)

/--
The loop of `iotb_event_handler`: begin to receive, finish the copy, process
the message.
-/
def eventStep (size : Nat) (threads : Threads) : Except Fault Threads :=
  match threads.hand with
  | some (_, msg) =>
      .ok { threads with
        hand := none
        lcdEvent := PostedSet.process msg threads.lcdEvent }
  | none =>
      match threads.queue.getting with
      | [] => queueStep size .getBegin threads
      | (node, place) :: _ =>
          queueStep size (.getEnd 0)
            { threads with
              hand := (rtMqRecvEnd node threads.queue.mq).1.map
                fun msg => (place, msg) }

/-- A step of the LCD thread; at the top of its loop it polls the set. -/
def lcdStep (env : Env) (threads : Threads) : Except Fault Threads :=
  match LcdThread.step ⟨threads.lcdEvent, env⟩ threads.lcd with
  | .ok lcd =>
      .ok { threads with
        lcd := lcd
        lcdEvent :=
          if threads.lcd.pc = .top then PostedSet.polled threads.lcdEvent
          else threads.lcdEvent }
  | .error fault => .error (.page fault)

/-- A step of the three threads. -/
def step (size : Nat) : Input → Threads → Except Fault Threads
  | .put msg, threads => queueStep size (.putBegin msg) threads
  | .putEnd call, threads => queueStep size (.putEnd call) threads
  | .setEnable value, threads => queueStep size (.setEnable value) threads
  | .event, threads => eventStep size threads
  | .lcd env, threads => lcdStep env threads

/-! ## Tags -/

/-- The bit that the else-if chain serves on a page. -/
def servedBit (event : EventSet) (page : Nat) : Option IotbLcdEvent :=
  if event.test .next then some .next
  else if event.test .musicPlay then
    if page = 1 then some .musicPlay else none
  else if event.test .key2Click || event.test .key1Click ||
      event.test .wkupClick then
    if page = 1 ∨ page = 2 then
      if event.test .key2Click then some .key2Click
      else if event.test .key1Click then some .key1Click
      else some .wkupClick
    else none
  else if event.test .key2DoubleClick || event.test .key1DoubleClick ||
      event.test .wkupDoubleClick then
    some (doubleClickEvent event)
  else none

/--
The bits a page reacts to: a page change, play, a song, the volume, play and
stop, pause and resume.
-/
def Reacts (page : Nat) (event : IotbLcdEvent) : Bool :=
  match page, event with
  | _, .next => true
  | 1, .musicPlay => true
  | 1, .key1Click => true
  | 1, .wkupClick => true
  | 2, .key2Click => true
  | 2, .key1Click => true
  | 2, .wkupClick => true
  | 2, .key1DoubleClick => true
  | 2, .wkupDoubleClick => true
  | _, _ => false

/-- The actions in a trace, newest first. -/
def actions (trace : List Observation) : List Action :=
  trace.filterMap fun entry =>
    match entry with
    | .action action => some action
    | _ => none

/-- The actions performed between two statics, newest first. -/
def performed (before after : Statics) : List Action :=
  (actions after.trace).take
    ((actions after.trace).length - (actions before.trace).length)

/-- Where messages are, and what came of them; all lists newest first. -/
structure Tags where
  /-- The messages processed since the last poll, with the bits they set. -/
  bits : List (IotbLcdEvent × Nat)
  /-- The messages whose bits the last poll received, until it is served. -/
  polled : List (IotbLcdEvent × Nat)
  /-- The message that left `current_event` in the active page. -/
  current : Option Nat
  /-- The actions performed, with the messages that caused them. -/
  causes : List (Action × Option Nat)
  /-- The messages that switched the page, or whose event was handled. -/
  applied : List Nat
  /--
  The messages without a bit, with 0, and those received on a page that does
  not react to them, with that page.
  -/
  ignored : List (Nat × Nat)
  /-- The messages answered with `RT_EOK` and not put on the queue. -/
  dropped : List IotbEventMsg

def Tags.initial : Tags := ⟨[], [], none, [], [], [], []⟩

/-- The message of a received bit. -/
def Tags.sender (tags : Tags) (bit : IotbLcdEvent) : Option Nat :=
  (tags.polled.find? fun entry => entry.1 = bit).map Prod.snd

/-- The messages of received bits that a page does not react to. -/
def Tags.unanswered (page : Nat) (tags : Tags) : List (Nat × Nat) :=
  (tags.polled.filter fun entry => !Reacts page entry.1).map
    fun entry => (entry.2, page)

/-- Where the messages of a poll go when it is served. -/
def Tags.serve (event : EventSet) (scene : View) (done : List Action)
    (tags : Tags) : Tags :=
  let place := (servedBit event scene.page).bind tags.sender
  let tags :=
    { tags with
      polled := []
      ignored := tags.unanswered scene.page ++ tags.ignored }
  match served event scene.page with
  | .switch _ =>
      { tags with
        current := place
        causes := done.map (fun action => (action, place)) ++ tags.causes
        applied := place.toList ++ tags.applied }
  | .leave _ => { tags with current := place }
  | .nothing => tags

theorem Tags.serve_switch
    {event : EventSet} {scene : View} {target : Nat}
    (branch : served event scene.page = .switch target)
    (done : List Action) (tags : Tags) :
    tags.serve event scene done =
      { tags with
        polled := []
        current := (servedBit event scene.page).bind tags.sender
        causes := (done.map fun action =>
            (action, (servedBit event scene.page).bind tags.sender)) ++
          tags.causes
        applied := ((servedBit event scene.page).bind
            tags.sender).toList ++ tags.applied
        ignored := tags.unanswered scene.page ++ tags.ignored } := by
  rw [Tags.serve, branch]

theorem Tags.serve_leave
    {event : EventSet} {scene : View} {left : IotbLcdEvent}
    (branch : served event scene.page = .leave left)
    (done : List Action) (tags : Tags) :
    tags.serve event scene done =
      { tags with
        polled := []
        current := (servedBit event scene.page).bind tags.sender
        ignored := tags.unanswered scene.page ++ tags.ignored } := by
  rw [Tags.serve, branch]

theorem Tags.serve_nothing
    {event : EventSet} {scene : View}
    (branch : served event scene.page = .nothing)
    (done : List Action) (tags : Tags) :
    tags.serve event scene done =
      { tags with
        polled := []
        ignored := tags.unanswered scene.page ++ tags.ignored } := by
  rw [Tags.serve, branch]

/-- What becomes of the event in the active page when its handler is called. -/
def Tags.handle (scene : View) (done : List Action) (tags : Tags) : Tags :=
  let tags :=
    { tags with
      causes := done.map (fun action => (action, tags.current)) ++
        tags.causes }
  if Handles scene.page scene.event then
    { tags with
      current := none
      applied := tags.current.toList ++ tags.applied }
  else tags

/-- The tags after a step of the LCD thread. -/
def Tags.lcd (set : EventSet) (before after : View) (tags : Tags) :
    Tags :=
  let done := performed before.statics after.statics
  match before.pc with
  | .start =>
      { tags with
        causes := done.map (fun action => (action, none)) ++ tags.causes }
  | .top =>
      match iotbLcdEventGet set with
      | some _ => { tags with bits := [], polled := tags.bits }
      | none => tags
  | .dispatch event => tags.serve event before done
  | .refresh => if before.Due then tags.handle before done else tags
  | .delay => tags

/-- The tags after the event thread processed a message. -/
def Tags.process (place : Nat) (msg : IotbEventMsg) (tags : Tags) : Tags :=
  match iotbEventProcess msg with
  | some event => { tags with bits := (event, place) :: tags.bits }
  | none => { tags with ignored := (place, 0) :: tags.ignored }

/-- The tags after a call of `iotb_event_put` began. -/
def Tags.put (size : Nat) (msg : IotbEventMsg)
    (queue : EventQueue.State IotbEventMsg) (tags : Tags) : Tags :=
  if EventQueue.iotbEventPutResult size queue = some .eok then
    { tags with dropped := msg :: tags.dropped }
  else tags

/-- The tags after a step. -/
def Tags.next (size : Nat) (input : Input) (before after : Threads)
    (tags : Tags) : Tags :=
  match input with
  | .put msg => tags.put size msg before.queue
  | .event =>
      match before.hand with
      | some (place, msg) => tags.process place msg
      | none => tags
  | .lcd _ =>
      tags.lcd before.lcdEvent.set (view before.lcd) (view after.lcd)
  | _ => tags

/-- The threads with tags. -/
structure Tagged where
  threads : Threads
  tags : Tags

def Tagged.initial (size : Nat) (card : Card) : Tagged :=
  ⟨.initial size card, .initial⟩

/-- A step of the threads, followed by the tags. -/
def taggedStep (size : Nat) (input : Input) (tagged : Tagged) :
    Except Fault Tagged :=
  (step size input tagged.threads).map fun after =>
    ⟨after, tagged.tags.next size input tagged.threads after⟩

/-- The tags decide nothing. -/
theorem taggedStep_simulates (size : Nat) :
    Simulates (taggedStep size) (step size) Tagged.threads
      fun _ => True where
  preserved := fun _ _ _ _ _ => True.intro
  commutes := by
    intro input tagged _
    rw [taggedStep]
    cases step size input tagged.threads <;> rfl

/-! ## What a poll can do -/

/-- The branches of the else-if chain: the bit served and what is done. -/
inductive Chain (event : EventSet) (page : Nat) :
    Option IotbLcdEvent → Served → Prop where
  | next (set : event.test .next = true) :
      Chain event page (some .next) (.switch (nextPage page))
  | play (set : event.test .musicPlay = true) (one : page = 1) :
      Chain event page (some .musicPlay) (.switch 2)
  | download (set : event.test .key2Click = true) (one : page = 1) :
      Chain event page (some .key2Click) (.leave .download)
  | nextsong (set : event.test .key1Click = true) (one : page = 1) :
      Chain event page (some .key1Click) (.leave .nextsong)
  | lastsong (set : event.test .wkupClick = true) (one : page = 1) :
      Chain event page (some .wkupClick) (.leave .lastsong)
  | back (set : event.test .key2Click = true) (two : page = 2) :
      Chain event page (some .key2Click) (.switch 1)
  | volume {bit : IotbLcdEvent} (set : event.test bit = true)
      (two : page = 2) (click : bit = .key1Click ∨ bit = .wkupClick) :
      Chain event page (some bit) (.leave bit)
  | double {bit : IotbLcdEvent} (set : event.test bit = true)
      (click : bit = .key2DoubleClick ∨ bit = .key1DoubleClick ∨
        bit = .wkupDoubleClick) :
      Chain event page (some bit) (.leave bit)
  | nothing : Chain event page none .nothing

/-- A double click of KEY2, KEY1 or WKUP is left in any page. -/
theorem chain_double
    {event : EventSet} {page : Nat}
    (doubled : (event.test .key2DoubleClick ||
      event.test .key1DoubleClick ||
        event.test .wkupDoubleClick) = true) :
    Chain event page (some (doubleClickEvent event))
      (.leave (doubleClickEvent event)) := by
  rw [doubleClickEvent]
  by_cases key2 : event.test .key2DoubleClick = true
  · rw [if_pos key2]
    exact .double key2 (Or.inl rfl)
  · rw [if_neg key2]
    by_cases key1 : event.test .key1DoubleClick = true
    · rw [if_pos key1]
      exact .double key1 (Or.inr (Or.inl rfl))
    · rw [if_neg key1]
      refine .double ?_ (Or.inr (Or.inr rfl))
      simpa [key2, key1] using doubled

/-- A click of KEY2, KEY1 or WKUP. -/
theorem chain_click
    {event : EventSet} {page : Nat}
    (clicked : (event.test .key2Click || event.test .key1Click ||
      event.test .wkupClick) = true) :
    Chain event page
      (if page = 1 ∨ page = 2 then
        if event.test .key2Click then some .key2Click
        else if event.test .key1Click then some .key1Click
        else some .wkupClick
      else none)
      (if page = 1 then .leave (clickEvent1 event)
      else if page = 2 then
        if event.test .key2Click then .switch 1
        else if event.test .key1Click then .leave .key1Click
        else .leave .wkupClick
      else .nothing) := by
  have last : ¬ event.test .key2Click = true →
      ¬ event.test .key1Click = true → event.test .wkupClick = true := by
    intro key2 key1
    simpa [key2, key1] using clicked
  by_cases one : page = 1
  · rw [if_pos (Or.inl one), if_pos one, clickEvent1]
    split_ifs with key2 key1
    · exact .download key2 one
    · exact .nextsong key1 one
    · exact .lastsong (last key2 key1) one
  · rw [if_neg one]
    by_cases two : page = 2
    · rw [if_pos (Or.inr two), if_pos two]
      split_ifs with key2 key1
      · exact .back key2 two
      · exact .volume key1 two (Or.inl rfl)
      · exact .volume (last key2 key1) two (Or.inr rfl)
    · rw [if_neg (not_or.mpr ⟨one, two⟩), if_neg two]
      exact .nothing

theorem chain (event : EventSet) (page : Nat) :
    Chain event page (servedBit event page) (served event page) := by
  rw [servedBit, served]
  by_cases next : event.test .next = true
  · rw [if_pos next, if_pos next]
    exact .next next
  rw [if_neg next, if_neg next]
  by_cases play : event.test .musicPlay = true
  · rw [if_pos play, if_pos play]
    by_cases one : page = 1
    · rw [if_pos one, if_pos one]
      exact .play play one
    · rw [if_neg one, if_neg one]
      exact .nothing
  rw [if_neg play, if_neg play]
  by_cases clicked : (event.test .key2Click || event.test .key1Click ||
      event.test .wkupClick) = true
  · rw [if_pos clicked, if_pos clicked]
    exact chain_click clicked
  rw [if_neg clicked, if_neg clicked]
  by_cases doubled : (event.test .key2DoubleClick ||
      event.test .key1DoubleClick ||
        event.test .wkupDoubleClick) = true
  · rw [if_pos doubled, if_pos doubled]
    exact chain_double doubled
  · rw [if_neg doubled, if_neg doubled]
    exact .nothing

/-! ## What a step can do -/

/--
What holds of the threads in every run: the event thread receives one message at
a time, in order, and what it has in hand was accepted.
-/
structure Base (threads : Threads) : Prop where
  queue : QueueInvariant threads.queue
  inTurn : InTurn threads.queue
  thread : ThreadInvariant threads.lcd
  hand : ∀ place msg, threads.hand = some (place, msg) →
    threads.queue.accepted[place]? = some msg ∧
      place < threads.queue.received.length ∧
      threads.queue.getting = []

theorem base_initial (size : Nat) (card : Card) :
    Base (.initial size card) where
  queue := queueInvariant_initial size
  inTurn := ⟨rfl, Nat.zero_le _⟩
  thread := threadInvariant_initial card
  hand := by
    intro place msg found
    cases found

/-- The steps of the tagged threads. -/
inductive Goes (size : Nat) (before : Tagged) : Input → Tagged → Prop where
  | queue {input : Input} {queue : EventQueue.State IotbEventMsg}
      {dropped : List IotbEventMsg}
      (accepted : ∃ more,
        queue.accepted = before.threads.queue.accepted ++ more)
      (received : queue.received = before.threads.queue.received)
      (drops : ∀ msg ∈ dropped, msg ∈ before.tags.dropped ∨
        input = .put msg ∧ before.threads.queue.putEnable = false) :
      Goes size before input
        ⟨{ before.threads with queue := queue },
          { before.tags with dropped := dropped }⟩
  | receive {queue : EventQueue.State IotbEventMsg} {msg : IotbEventMsg}
      (empty : before.threads.hand = none)
      (accepted : queue.accepted = before.threads.queue.accepted)
      (received : queue.received.length =
        before.threads.queue.received.length + 1)
      (message : queue.accepted[before.threads.queue.received.length]? =
        some msg) :
      Goes size before .event
        ⟨{ before.threads with
            queue := queue
            hand := some (before.threads.queue.received.length, msg) },
          before.tags⟩
  | process {place : Nat} {msg : IotbEventMsg}
      (hand : before.threads.hand = some (place, msg)) :
      Goes size before .event
        ⟨{ before.threads with
            hand := none
            lcdEvent := PostedSet.process msg before.threads.lcdEvent },
          before.tags.process place msg⟩
  | lcd {env : Env} {next : Lcd}
      (stepped : LcdThread.step ⟨before.threads.lcdEvent, env⟩
        before.threads.lcd = .ok next) :
      Goes size before (.lcd env)
        ⟨{ before.threads with
            lcd := next
            lcdEvent :=
              if before.threads.lcd.pc = .top then
                PostedSet.polled before.threads.lcdEvent
              else before.threads.lcdEvent },
          before.tags.lcd before.threads.lcdEvent.set
            (view before.threads.lcd) (view next)⟩

/-- A step of the queue other than the end of a receive. -/
theorem queueStep_grows
    {size : Nat} {input : EventQueue.Input IotbEventMsg}
    {state next : EventQueue.State IotbEventMsg}
    (other : ∀ call, input ≠ .getEnd call)
    (stepped : EventQueue.step size input state = .ok next) :
    (∃ more, next.accepted = state.accepted ++ more) ∧
      next.received = state.received ∧
      (input ≠ .getBegin → next.getting = state.getting) := by
  cases input with
  | putBegin msg =>
      cases stepped
      rw [iotbEventPut]
      split
      · exact ⟨⟨[], (List.append_nil _).symm⟩, rfl, fun _ => rfl⟩
      · cases rtMqSendBegin size state.mq <;>
          exact ⟨⟨[], (List.append_nil _).symm⟩, rfl, fun _ => rfl⟩
  | putEnd call =>
      cases stepped
      rw [putEnd]
      cases state.putting[call]? with
      | none => exact ⟨⟨[], (List.append_nil _).symm⟩, rfl, fun _ => rfl⟩
      | some pair => exact ⟨⟨[pair.2], rfl⟩, rfl, fun _ => rfl⟩
  | getBegin =>
      simp only [EventQueue.step, iotbEventGet, bind_eq_ok_iff] at stepped
      obtain ⟨found, -, returned⟩ := stepped
      cases found <;> cases returned <;>
        exact ⟨⟨[], (List.append_nil _).symm⟩, rfl, fun same =>
          absurd rfl same⟩
  | getEnd call => exact absurd rfl (other call)
  | setEnable value =>
      cases stepped
      exact ⟨⟨[], (List.append_nil _).symm⟩, rfl, fun _ => rfl⟩

/-- A step of the queue alone keeps what holds of the threads. -/
theorem Base.queued
    {size : Nat} {input : EventQueue.Input IotbEventMsg}
    {threads : Threads} {queue : EventQueue.State IotbEventMsg}
    (base : Base threads) (guard : GetsInTurn input threads.queue)
    (other : ∀ call, input ≠ .getEnd call)
    (idle : input = .getBegin → threads.hand = none)
    (stepped : EventQueue.step size input threads.queue = .ok queue) :
    Base { threads with queue := queue } := by
  obtain ⟨⟨more, accepted⟩, received, getting⟩ :=
    queueStep_grows other stepped
  constructor
  · exact queueInvariant_preserved size input _ _ base.queue stepped
  · exact inTurn_preserved size input _ _ base.inTurn guard stepped
  · exact base.thread
  · intro place msg found
    obtain ⟨message, inside, alone⟩ := base.hand place msg found
    refine ⟨?_, ?_, ?_⟩
    · rw [accepted]
      exact (List.getElem?_append_left
        (List.getElem?_eq_some_iff.mp message).1).trans message
    · rw [received]
      exact inside
    · rw [getting fun begins => by
        rw [idle begins] at found
        cases found]
      exact alone

/-- The place of the message that is being received. -/
theorem Base.place
    {threads : Threads} (base : Base threads)
    {node place : Nat} {rest : List (Nat × Nat)}
    (getting : threads.queue.getting = (node, place) :: rest) :
    rest = [] ∧ place = threads.queue.received.length ∧
      ∃ msg, threads.queue.mq.contents node = some msg ∧
        threads.queue.accepted[place]? = some msg := by
  obtain ⟨places, single⟩ := base.inTurn
  rw [getting, List.length_cons] at single
  have alone : rest = [] := List.length_eq_zero_iff.mp (by omega)
  subst alone
  have length := congrArg List.length places
  have last := congrArg List.getLast? places
  rw [getting] at length last
  simp only [List.map_cons, List.map_nil, List.length_append,
    List.length_map, List.length_singleton, List.length_range,
    List.getLast?_append, List.getLast?_singleton] at length last
  rw [← length, List.range_succ, List.getLast?_append] at last
  have member : (node, place) ∈ threads.queue.getting := by
    rw [getting]
    exact List.mem_singleton_self _
  have copied := base.queue.inHand _ member
  rw [List.getElem?_eq_getElem (base.queue.place_inside member)] at copied
  refine ⟨rfl, by simpa using last, _, copied, ?_⟩
  exact List.getElem?_eq_getElem (base.queue.place_inside member)

theorem queueStep_ok_iff
    {size : Nat} {input : EventQueue.Input IotbEventMsg}
    {threads after : Threads} :
    queueStep size input threads = .ok after ↔
      ∃ queue, EventQueue.step size input threads.queue = .ok queue ∧
        { threads with queue := queue } = after := by
  rw [queueStep]
  cases EventQueue.step size input threads.queue with
  | ok queue => simp
  | error fault => simp

/-- Without the flag alone, a call of `iotb_event_put` goes on or fails. -/
theorem putEnable_of_eok
    {size : Nat} {queue : EventQueue.State IotbEventMsg}
    (answered : EventQueue.iotbEventPutResult size queue = some .eok) :
    queue.putEnable = false := by
  rw [EventQueue.iotbEventPutResult] at answered
  by_contra enabled
  rw [if_neg enabled] at answered
  cases began : rtMqSendBegin size queue.mq with
  | error code =>
      rw [began] at answered
      cases answered
      rw [rtMqSendBegin] at began
      split at began
      · cases began
      · split at began <;> cases began
  | ok taken =>
      rw [began] at answered
      cases answered

/-- A callback's step of the queue. -/
theorem goes_queued
    {size : Nat} {input : EventQueue.Input IotbEventMsg} {here : Input}
    {before : Tagged} {threads : Threads}
    (base : Base before.threads)
    (notBegin : input ≠ .getBegin)
    (notEnd : ∀ call, input ≠ .getEnd call)
    (dropped : List IotbEventMsg)
    (drops : ∀ msg ∈ dropped, msg ∈ before.tags.dropped ∨
      here = .put msg ∧ before.threads.queue.putEnable = false)
    (stepped : queueStep size input before.threads = .ok threads) :
    Goes size before here
        ⟨threads, { before.tags with dropped := dropped }⟩ ∧
      Base threads := by
  obtain ⟨queue, moved, rfl⟩ := queueStep_ok_iff.mp stepped
  obtain ⟨accepted, received, -⟩ := queueStep_grows notEnd moved
  refine ⟨.queue accepted received drops, ?_⟩
  exact base.queued (fun same => absurd same notBegin) notEnd
    (fun same => absurd same notBegin) moved

theorem goes_event
    {size : Nat} {before : Tagged} {threads : Threads}
    (base : Base before.threads)
    (stepped : eventStep size before.threads = .ok threads) :
    Goes size before .event
        ⟨threads, before.tags.next size .event before.threads threads⟩ ∧
      Base threads := by
  rw [eventStep] at stepped
  rw [Tags.next]
  cases hand : before.threads.hand with
  | some entry =>
      obtain ⟨place, msg⟩ := entry
      rw [hand] at stepped
      cases stepped
      refine ⟨.process hand, base.queue, base.inTurn, base.thread, ?_⟩
      intro place msg found
      cases found
  | none =>
      rw [hand] at stepped
      dsimp only at stepped ⊢
      cases getting : before.threads.queue.getting with
      | nil =>
          rw [getting] at stepped
          obtain ⟨queue, began, rfl⟩ := queueStep_ok_iff.mp stepped
          have notEnd : ∀ call, (.getBegin : EventQueue.Input
              IotbEventMsg) ≠ .getEnd call := by
            simp
          obtain ⟨accepted, received, -⟩ := queueStep_grows notEnd began
          exact ⟨.queue accepted received (fun _ => Or.inl), base.queued
            (fun _ => getting) notEnd (fun _ => hand) began⟩
      | cons call rest =>
          obtain ⟨node, place⟩ := call
          obtain ⟨rfl, rfl, msg, copied, message⟩ := base.place getting
          rw [getting] at stepped
          have read : (rtMqRecvEnd node before.threads.queue.mq).1 =
              some msg := copied
          obtain ⟨queue, ended, rfl⟩ := queueStep_ok_iff.mp stepped
          have next : EventQueue.getEnd 0 before.threads.queue = queue :=
            Except.ok.inj ended
          have shape : EventQueue.getEnd 0 before.threads.queue =
              { before.threads.queue with
                mq := (rtMqRecvEnd node before.threads.queue.mq).2
                getting := []
                received := before.threads.queue.received ++
                  [(before.threads.queue.received.length,
                    (rtMqRecvEnd node before.threads.queue.mq).1)] } := by
            rw [EventQueue.getEnd, getting]
            rfl
          rw [shape] at next
          rw [read, Option.map_some]
          have kept := queueInvariant_preserved size (.getEnd 0) _ _
            base.queue ended
          have turn := inTurn_preserved size (.getEnd 0) _ _ base.inTurn
            (fun same => absurd same (by simp)) ended
          subst next
          refine ⟨.receive hand rfl List.length_append message, kept, turn,
            base.thread, ?_⟩
          intro place msg found
          cases found
          refine ⟨message, ?_, rfl⟩
          rw [List.length_append]
          exact Nat.lt_succ_self _

theorem goes_lcd
    {size : Nat} {env : Env} {before : Tagged} {threads : Threads}
    (base : Base before.threads)
    (stepped : lcdStep env before.threads = .ok threads) :
    Goes size before (.lcd env)
        ⟨threads,
          before.tags.next size (.lcd env) before.threads threads⟩ ∧
      Base threads := by
  rw [lcdStep] at stepped
  cases moved : LcdThread.step ⟨before.threads.lcdEvent, env⟩
      before.threads.lcd with
  | error fault =>
      rw [moved] at stepped
      cases stepped
  | ok next =>
      rw [moved] at stepped
      cases stepped
      exact ⟨.lcd moved, base.queue, base.inTurn,
        threadInvariant_preserved _ _ _ base.thread moved, base.hand⟩

theorem goes_of_step
    {size : Nat} {input : Input} {before after : Tagged}
    (base : Base before.threads)
    (stepped : taggedStep size input before = .ok after) :
    Goes size before input after ∧ Base after.threads := by
  rw [taggedStep, map_eq_ok_iff] at stepped
  obtain ⟨threads, stepped, rfl⟩ := stepped
  cases input with
  | put msg =>
      have queued : queueStep size (.putBegin msg) before.threads =
          .ok threads := stepped
      rw [Tags.next, Tags.put]
      by_cases answered : EventQueue.iotbEventPutResult size
          before.threads.queue = some .eok
      · rw [if_pos answered]
        have disabled := putEnable_of_eok answered
        refine goes_queued base (by simp) (by simp) _ ?_ queued
        intro other member
        rcases List.mem_cons.mp member with rfl | old
        · exact Or.inr ⟨rfl, disabled⟩
        · exact Or.inl old
      · rw [if_neg answered]
        exact goes_queued base (by simp) (by simp) _ (fun _ => Or.inl)
          queued
  | putEnd call =>
      have queued : queueStep size (.putEnd call) before.threads =
          .ok threads := stepped
      exact goes_queued base (by simp) (by simp) _ (fun _ => Or.inl)
        queued
  | setEnable value =>
      have queued : queueStep size (.setEnable value) before.threads =
          .ok threads := stepped
      exact goes_queued base (by simp) (by simp) _ (fun _ => Or.inl)
        queued
  | event => exact goes_event base stepped
  | lcd env => exact goes_lcd base stepped

end InternetWavPlayer.KeyPipeline
