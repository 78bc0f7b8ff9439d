import InternetWavPlayer.Songlist

/-!
# The playback thread and its control functions

`wavplayer_entry` runs in a thread of its own.  The control functions talk to it
through a message queue and a completion, and hold a mutex meanwhile.  Both
sides are step functions here: one step of the playback thread is one call that
another thread can observe or come between, and a control function is a list of
such calls.

Opening the file and the sound device, reading the file and the allocations at
the start are decided by the outside.  The buffer, the device, the file pointer
and the volume decide nothing here and are left out.
-/

namespace InternetWavPlayer.Wavplayer

open InternetWavPlayer.Songlist

/-- `enum PLAYER_STATE`. -/
inductive PlayerState where
  | stoped
  | playing
  | paused
deriving DecidableEq, Repr

/-- `enum MSG_TYPE`, without `MSG_NONE`, which is never sent. -/
inductive MsgType where
  | start
  | stop
  | pause
  | resume
deriving DecidableEq, Repr

/-- `enum PLAYER_EVENT`. -/
inductive PlayerEvent where
  | none
  | play
  | stop
  | pause
  | resume
deriving DecidableEq, Repr

/-- The event that `wavplayer_event_handler` returns for a message. -/
def MsgType.event : MsgType → PlayerEvent
  | .start => .play
  | .stop => .stop
  | .pause => .pause
  | .resume => .resume

/-- The state that `wavplayer_event_handler` sets for a message. -/
def MsgType.state : MsgType → PlayerState
  | .start => .playing
  | .stop => .stoped
  | .pause => .paused
  | .resume => .playing

/-- The three calls of `wavplayer_event_handler` in `wavplayer_entry`. -/
inductive Site where
  /-- Waiting for a song, forever. -/
  | outer
  /-- Between two blocks of a song, without waiting. -/
  | inner
  /-- In a pause, forever. -/
  | paused
deriving DecidableEq, Repr

/-- Where the playback thread stands. -/
inductive Pc where
  | start
  | waiting
  | polling
  | pausing
  /-- A message has been received. -/
  | handling (type : MsgType) (site : Site)
  /-- The state has been set, `rt_completion_done` comes next. -/
  | acking (type : MsgType) (site : Site)
  | opening
  | reading
  | checking
  | closing
  | ended
deriving DecidableEq, Repr

/-- `struct wavplayer`, and where its thread stands. -/
structure Player where
  pc : Pc
  state : PlayerState
  uri : Option (List UInt8)
  /-- The message queue; it is there whenever the mutex is. -/
  mq : List MsgType
  /-- The mutex and how often it is held, once it has been created. -/
  lock : Option Nat
  /-- The flag of the completion `ack`. -/
  ack : Bool
deriving DecidableEq, Repr

/-- `player` at start-up. -/
def Player.initial : Player where
  pc := .start
  state := .stoped
  uri := none
  mq := []
  lock := none
  ack := false

/-- What the outside decides in one step of the playback thread. -/
structure Outcome where
  /-- The buffer, the queue and the mutex have been allocated. -/
  created : Bool
  /-- `wavplayer_open` succeeds for this file. -/
  opens : Option (List UInt8) → Bool
  /-- `fread` reads a whole block. -/
  reads : Bool

/-- What follows the call of `wavplayer_event_handler` at a site. -/
def afterEvent (event : PlayerEvent) : Site → Pc
  | .outer => if event = .play then .opening else .waiting
  | .inner =>
      if event = .none then .reading
      else if event = .pause then .pausing
      else .checking
  | .paused => .checking

/-- `rt_mq_recv` of `wavplayer_event_handler`, waiting forever. -/
def Player.receive (player : Player) (site : Site) : Player :=
  match player.mq with
  | [] => player
  | type :: rest => { player with mq := rest, pc := .handling type site }

/-- One step of `wavplayer_entry`. -/
def playerStep (outcome : Outcome) (player : Player) : Player :=
  match player.pc with
  | .start =>
      if outcome.created then
        { player with pc := .waiting, lock := some 0 }
      else { player with pc := .ended }
  | .waiting => player.receive .outer
  | .polling =>
      match player.mq with
      | [] => { player with pc := afterEvent .none .inner }
      | type :: rest =>
          { player with mq := rest, pc := .handling type .inner }
  | .pausing => player.receive .paused
  | .handling type site =>
      { player with state := type.state, pc := .acking type site }
  | .acking type site =>
      { player with ack := true, pc := afterEvent type.event site }
  | .opening =>
      if outcome.opens player.uri then { player with pc := .polling }
      else { player with state := .stoped, pc := .waiting }
  | .reading =>
      if outcome.reads then { player with pc := .checking }
      else { player with state := .stoped, pc := .checking }
  | .checking =>
      if player.state = .stoped then { player with pc := .closing }
      else { player with pc := .polling }
  | .closing => { player with pc := .waiting }
  | .ended => player

/-! ## Control functions -/

/-- The calls that the control functions are made of. -/
inductive Control where
  /-- `rt_completion_init(&player.ack)` -/
  | completionInit
  /-- `play_lock()` -/
  | playLock
  /-- `if (player.state != PLAYER_STATE_STOPED) wavplayer_stop();` -/
  | stopUnlessStoped
  /-- `player.uri = rt_strdup(uri)` -/
  | setUri (uri : List UInt8)
  /-- Test the state; if the message is wanted, send it and wait. -/
  | request (type : MsgType)
  /-- `play_msg_send(&player, type, RT_NULL)` -/
  | send (type : MsgType)
  /-- `rt_completion_wait(&player.ack, RT_WAITING_FOREVER)` -/
  | wait
  /-- `play_unlock()` -/
  | playUnlock
deriving DecidableEq, Repr

/-- The test under which a control function sends its message. -/
def MsgType.wanted (state : PlayerState) : MsgType → Bool
  | .start => true
  | .stop => state ≠ .stoped
  | .pause => state = .playing
  | .resume => state = .paused

/-- `wavplayer_play`. -/
def wavplayerPlay (uri : List UInt8) : List Control :=
  [.completionInit, .playLock, .stopUnlessStoped, .setUri uri,
    .send .start, .wait, .playUnlock]

/-- The common form of `wavplayer_stop`, `_pause` and `_resume`. -/
def wavplayerRequest (type : MsgType) : List Control :=
  [.completionInit, .playLock, .request type, .playUnlock]

/-- `wavplayer_stop`. -/
def wavplayerStop : List Control := wavplayerRequest .stop

/-- `wavplayer_pause`. -/
def wavplayerPause : List Control := wavplayerRequest .pause

/-- `wavplayer_resume`. -/
def wavplayerResume : List Control := wavplayerRequest .resume

/--
The number of messages `rt_mq_create("wav_p", 10, sizeof(struct play_msg))`
makes room for: the last argument is the number, not the size.
-/
def wavMqMax : Nat := 8

/-- `rt_mq_send`: without room the message is dropped. -/
def rtMqSend (mq : List MsgType) (type : MsgType) : List MsgType :=
  if mq.length < wavMqMax then mq ++ [type] else mq

/-- A caller of the control functions and the playback thread. -/
structure Playback where
  /-- What the caller has still to do. -/
  code : List Control
  player : Player
deriving DecidableEq, Repr

/--
One step of the caller.  Without the mutex `play_lock` runs into a null
pointer; a wait which is not answered yet stays where it is.
-/
def controlStep (playback : Playback) : Except Fault Playback :=
  let player := playback.player
  match playback.code with
  | [] => .ok playback
  | .completionInit :: rest => .ok ⟨rest, { player with ack := false }⟩
  | .playLock :: rest =>
      match player.lock with
      | none => .error .nullPointer
      | some hold => .ok ⟨rest, { player with lock := some (hold + 1) }⟩
  | .stopUnlessStoped :: rest =>
      if player.state ≠ .stoped then .ok ⟨wavplayerStop ++ rest, player⟩
      else .ok ⟨rest, player⟩
  | .setUri uri :: rest => .ok ⟨rest, { player with uri := some uri }⟩
  | .request type :: rest =>
      if type.wanted player.state then
        .ok ⟨.send type :: .wait :: rest, player⟩
      else .ok ⟨rest, player⟩
  | .send type :: rest =>
      .ok ⟨rest, { player with mq := rtMqSend player.mq type }⟩
  | .wait :: rest =>
      if player.ack then .ok ⟨rest, { player with ack := false }⟩
      else .ok playback
  | .playUnlock :: rest =>
      .ok ⟨rest, { player with lock := player.lock.map (· - 1) }⟩

end InternetWavPlayer.Wavplayer
