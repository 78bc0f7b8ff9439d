import InternetWavPlayer.Effects
import InternetWavPlayer.Handshake

/-!
# The LCD thread and the playback thread together

The LCD thread is the only caller of the control functions.  A pass of it makes
its decisions from its own statics, which the playback thread never touches, so
the pass is one step here and the control functions it calls are carried out
call by call right after it; the playback thread may come in between any two of
these calls.
-/

namespace InternetWavPlayer.Playback

open InternetWavPlayer.Run
open InternetWavPlayer.LcdEvent
open InternetWavPlayer.Songlist
open InternetWavPlayer.Webclient
open InternetWavPlayer.Pages
open InternetWavPlayer.LcdThread
open InternetWavPlayer.Dispatch
open InternetWavPlayer.Scene
open InternetWavPlayer.Effects
open InternetWavPlayer.Wavplayer
open InternetWavPlayer.Handshake

/-! ## The calls of one pass -/

def callOf : Observation → Option PlayerCall
  | .player call => some call
  | _ => none

/-- The control functions called in a part of a trace, oldest first. -/
def calls (entries : List Observation) : List PlayerCall :=
  entries.reverse.filterMap callOf

/-- The control functions called between two traces. -/
def issued (before after : List Observation) : List PlayerCall :=
  calls (after.take (after.length - before.length))

/-- The body of a control function.  Setting the volume sends no message. -/
def controlCode : PlayerCall → List Control
  | .wavplayerPlay uri => wavplayerPlay uri
  | .wavplayerStop => wavplayerStop
  | .wavplayerPause => wavplayerPause
  | .wavplayerResume => wavplayerResume
  | .wavplayerVolumeSet _ => []

/-- The two threads; `code` is what the LCD thread has still to call. -/
structure System where
  lcd : Lcd
  code : List Control
  player : Player

def System.initial (card : Card) : System where
  lcd := .initial card
  code := []
  player := .initial

/-- Which thread takes the next step, and what the outside decides in it. -/
inductive Turn where
  | lcd (input : Input)
  | player (outcome : Outcome)

/-- A step of the LCD thread. -/
def lcdTurn (input : Input) (system : System) : Except Fault System :=
  match system.code with
  | [] => do
      let lcd ← step input system.lcd
      return { system with
        lcd := lcd
        code := (issued system.lcd.statics.trace
          lcd.statics.trace).flatMap controlCode }
  | _ => do
      let playback ← controlStep ⟨system.code, system.player⟩
      return { system with
        code := playback.code
        player := playback.player }

/-- One step of the two threads. -/
def systemStep (turn : Turn) (system : System) : Except Fault System :=
  match turn with
  | .lcd input => lcdTurn input system
  | .player outcome =>
      .ok { system with player := playerStep outcome system.player }

theorem issued_append (entries before : List Observation) :
    issued before (entries ++ before) = calls entries := by
  rw [issued, List.length_append, Nat.add_sub_cancel, List.take_left]

theorem calls_append (newer older : List Observation) :
    calls (newer ++ older) = calls older ++ calls newer := by
  simp [calls]

/-- Browsing calls no control function. -/
theorem calls_browsing
    {entries : List Observation}
    (browsing : ∀ entry ∈ entries, Browsing entry) :
    calls entries = [] := by
  rw [calls, List.filterMap_eq_nil_iff]
  intro entry member
  have kind := browsing entry (List.mem_reverse.mp member)
  cases entry with
  | player call => exact kind.elim
  | _ => rfl

theorem calls_requestEntries (download : Download) (name : List UInt8) :
    calls (requestEntries download name) = [] := by
  rw [requestEntries]
  split <;> rfl

theorem calls_startEntries (card : Card) (name : List UInt8) :
    calls (startEntries card name) = [.wavplayerPlay name] :=
  rfl

theorem orderly_controlCode (calls : List PlayerCall) :
    Orderly (calls.flatMap controlCode) := by
  induction calls with
  | nil => exact .nil
  | cons call rest induction =>
      rw [List.flatMap_cons]
      refine Orderly.append ?_ induction
      cases call with
      | wavplayerPlay uri => exact orderly_play uri
      | wavplayerStop => exact orderly_request .stop
      | wavplayerPause => exact orderly_request .pause
      | wavplayerResume => exact orderly_request .resume
      | wavplayerVolumeSet volume => exact .nil

/-! ## The flags of the music page and the state of the player -/

/--
What the flags say about the state in which the remaining calls end: a page
that counts as stopped ends with a stopped player, and after a resume the
player is not paused.
-/
structure FlagsSettle (statics : Statics) (code : List Control)
    (state : PlayerState) : Prop where
  notPlaying : statics.iotbMusicIsPlay = false →
    Settles (· = .stoped) code state
  resumed : statics.iotbMusicIsResume = true →
    Settles (· ≠ .paused) code state

/-- The flags are all that matters. -/
theorem FlagsSettle.congr
    {statics other : Statics} {code : List Control} {state : PlayerState}
    (settles : FlagsSettle statics code state)
    (isPlay : other.iotbMusicIsPlay = statics.iotbMusicIsPlay)
    (isResume : other.iotbMusicIsResume = statics.iotbMusicIsResume) :
    FlagsSettle other code state := by
  constructor
  · intro stopped
    exact settles.notPlaying (isPlay.symm.trans stopped)
  · intro resumed
    exact settles.resumed (isResume.symm.trans resumed)

/-- Calling `wavplayer_stop` first makes the state before it irrelevant. -/
theorem FlagsSettle.stop
    {statics : Statics} {code : List Control}
    (settles : FlagsSettle statics code .stoped) (state : PlayerState) :
    FlagsSettle statics (wavplayerStop ++ code) state := by
  constructor
  · intro stopped
    have ended := (settles.notPlaying stopped).1
    exact ⟨ends_stop ended _, ends_stop ended _⟩
  · intro resumed
    have ended := (settles.resumed resumed).1
    exact ⟨ends_stop ended _, ends_stop ended _⟩

theorem flagsSettle_stoped (statics : Statics) :
    FlagsSettle statics [] .stoped := by
  constructor
  · intro stopped
    exact ⟨rfl, rfl⟩
  · intro resumed
    exact ⟨by simp [Ends], by simp [Ends]⟩

/-- Calling `wavplayer_play` ends in a song that plays or has ended. -/
theorem flagsSettle_play
    {statics : Statics} (playing : statics.iotbMusicIsPlay = true)
    (uri : List UInt8) (state : PlayerState) :
    FlagsSettle statics (wavplayerPlay uri) state := by
  constructor
  · intro stopped
    rw [playing] at stopped
    cases stopped
  · intro resumed
    have ended : Ends (· ≠ .paused) (wavplayerPlay uri) state :=
      ⟨by simp [Ends, MsgType.state], by simp [Ends]⟩
    exact ⟨ended, ended⟩

/-- A stopped player stays so when it is asked to pause or resume. -/
theorem settles_request_stoped
    {type : MsgType} (unwanted : type.wanted .stoped = false) :
    Settles (· = .stoped) (wavplayerRequest type) .stoped := by
  have ended : Ends (· = .stoped) (wavplayerRequest type) .stoped := by
    show if type.wanted .stoped = true then _ else _
    rw [unwanted]
    rfl
  exact ⟨ended, ended⟩

/-- After `wavplayer_resume` the player is not paused. -/
theorem settles_resume (state : PlayerState) :
    Settles (· ≠ .paused) wavplayerResume state := by
  have ended : ∀ before, Ends (· ≠ .paused) wavplayerResume before := by
    intro before
    cases before with
    | stoped => simp [wavplayerResume, wavplayerRequest, Ends,
        MsgType.wanted]
    | playing => simp [wavplayerResume, wavplayerRequest, Ends,
        MsgType.wanted]
    | paused => simp [wavplayerResume, wavplayerRequest, Ends,
        MsgType.wanted, MsgType.state]
  exact ⟨ended state, ended .stoped⟩

/--
The trace has grown by entries whose calls keep what the flags say, from a
state of the player.
-/
def Passed (older : List Observation) (state : PlayerState)
    (statics : Statics) : Prop :=
  ∃ grown, statics.trace = grown ++ older ∧
    FlagsSettle statics ((calls grown).flatMap controlCode) state

/-- A due music page calls what its flags say. -/
theorem MusicMove.passed
    {event : IotbLcdEvent} {before after : Statics} {state : PlayerState}
    (moves : MusicMove before event after)
    (settles : FlagsSettle before [] state) :
    Passed before.trace state after := by
  cases moves with
  | stop playing =>
      refine ⟨[_, _], rfl, ?_⟩
      exact (flagsSettle_stoped _).stop state
  | @play name stopped read =>
      refine ⟨[_, _], rfl, ?_⟩
      exact flagsSettle_play rfl name state
  | pause resumed =>
      refine ⟨[_, _], rfl, ?_⟩
      constructor
      · intro stopped
        have stoped : state = .stoped := (settles.notPlaying stopped).1
        subst stoped
        exact settles_request_stoped rfl
      · intro later
        cases later
  | resume paused =>
      refine ⟨[_, _], rfl, ?_⟩
      constructor
      · intro stopped
        have stoped : state = .stoped := (settles.notPlaying stopped).1
        subst stoped
        exact settles_request_stoped rfl
      · intro resumed
        exact settles_resume state
  | volume click => exact ⟨[_, _], rfl, settles.congr rfl rfl⟩
  | idle notPlayStop notPauseResume => exact ⟨[], rfl, settles⟩

/-- Browsing calls nothing. -/
theorem Passed.browse
    {older : List Observation} {state : PlayerState}
    {before after : Statics} (passed : Passed older state before)
    (browses : Browses before after) : Passed older state after := by
  obtain ⟨grown, trace, settles⟩ := passed
  obtain ⟨playlist, panel, listing, rfl, browsing⟩ := browses
  refine ⟨listing ++ grown, by rw [trace, List.append_assoc], ?_⟩
  rw [calls_append, calls_browsing browsing, List.append_nil]
  exact settles.congr rfl rfl

/-- A handler call is no control function. -/
theorem Passed.call
    {older : List Observation} {state : PlayerState} {statics : Statics}
    (passed : Passed older state statics)
    (page : Nat) (content : ContentType) (event : IotbLcdEvent) :
    Passed older state (statics.log (.handler page content event)) := by
  obtain ⟨grown, trace, settles⟩ := passed
  refine ⟨[.handler page content event] ++ grown, by
    rw [Statics.log, trace]
    rfl, ?_⟩
  have none : calls [.handler page content event] = [] := rfl
  rw [calls_append, none, List.append_nil]
  exact settles.congr rfl rfl

/-- The page is left: the flag is off, and all calls end stopped. -/
structure Left (older : List Observation) (state : PlayerState)
    (statics : Statics) : Prop where
  isPlay : statics.iotbMusicIsPlay = false
  ended : ∃ grown, statics.trace = grown ++ older ∧
    ((calls grown).flatMap controlCode = wavplayerStop ∨
      (calls grown).flatMap controlCode = [] ∧ state = .stoped)

/-- Then further calls start from a stopped player. -/
theorem Left.passed
    {older entries : List Observation} {state : PlayerState}
    {statics after : Statics} (left : Left older state statics)
    (trace : after.trace = entries ++ statics.trace)
    (settles : FlagsSettle after
      ((calls entries).flatMap controlCode) .stoped) :
    Passed older state after := by
  obtain ⟨grown, same, ended⟩ := left.ended
  refine ⟨entries ++ grown, by
    rw [trace, same, List.append_assoc], ?_⟩
  rw [calls_append, List.flatMap_append]
  rcases ended with stop | ⟨none, rfl⟩
  · rw [stop]
    exact settles.stop state
  · rw [none, List.nil_append]
    exact settles

/-- Entering the music page plays the song, or leaves the player alone. -/
theorem Left.entered
    {older : List Observation} {state : PlayerState} {env : Env}
    {before after : Statics} (left : Left older state before)
    (entered : Entered env before after) :
    Passed older state after := by
  cases entered with
  | @cached name panel read opens =>
      exact left.passed rfl (flagsSettle_play rfl name .stoped)
  | @played name card panel read missing downloaded =>
      refine left.passed rfl ?_
      rw [calls_append, calls_requestEntries, calls_startEntries]
      exact flagsSettle_play rfl name .stoped
  | @failed name card panel result read missing downloaded failure =>
      refine left.passed rfl ?_
      rw [calls_requestEntries]
      exact flagsSettle_stoped _

/-- Leaving any page stops the music. -/
theorem left_stops
    (env : Env) {scene : View} {state : PlayerState}
    (coherent : Coherent scene)
    (off : scene.page ≠ 2 → scene.statics.iotbMusicIsPlay = false)
    (settles : FlagsSettle scene.statics [] state) (target : Nat) :
    Left scene.statics.trace state
      ((scene.left env).log (.handler target .staticContent .enter)) := by
  rcases coherent.range with page | page | page
  · have stopped := off (by rw [page]; decide)
    rw [View.left, page]
    exact ⟨stopped, [_, _, _], rfl, Or.inl rfl⟩
  · rw [View.left, page]
    exact ⟨rfl, [_, _, _], rfl, Or.inl rfl⟩
  · have stopped := off (by rw [page]; decide)
    rw [View.left, page]
    exact ⟨stopped, [_, _], rfl,
      Or.inr ⟨rfl, (settles.notPlaying stopped).1⟩⟩

/-- Outside the music page the flag is off. -/
def OffElsewhere (scene : View) : Prop :=
  scene.page ≠ 2 → scene.statics.iotbMusicIsPlay = false

/-- Leaving a page keeps what the flags say. -/
theorem Left.stopped
    {older : List Observation} {state : PlayerState} {statics : Statics}
    (left : Left older state statics) : Passed older state statics :=
  left.passed (List.nil_append _).symm (flagsSettle_stoped statics)

/-- A switch to any page. -/
theorem switch_settles
    {env : Env} {older : List Observation} {state : PlayerState}
    {target : Nat} {before shown : Statics}
    (left : Left older state before)
    (shows : showStatics env target .enter before = .ok shown) :
    Passed older state shown ∧
      (target ≠ 2 → shown.iotbMusicIsPlay = false) := by
  by_cases music : target = 2
  · subst music
    rw [showStatics] at shows
    have drawn : Left older state
        (before.draw (drawWavPlayer before.volumeValue)) :=
      ⟨left.isPlay, left.ended⟩
    exact ⟨drawn.entered (enterMusic_entered shows),
      fun other => absurd rfl other⟩
  · have browses := showStatics_browses (fun both => music both.1) shows
    refine ⟨left.stopped.browse browses, fun _ => ?_⟩
    obtain ⟨playlist, panel, entries, rfl, -⟩ := browses
    exact left.isPlay

/-- A due page. -/
theorem due_settles
    {env : Env} {page : Nat} {event : IotbLcdEvent}
    {before done : Statics} {state : PlayerState}
    (off : page ≠ 2 → before.iotbMusicIsPlay = false)
    (settles : FlagsSettle before [] state)
    (serves : dueStatics env page event before = .ok done) :
    Passed before.trace state done ∧
      (page ≠ 2 → done.iotbMusicIsPlay = false) := by
  by_cases music : page = 2
  · subst music
    exact ⟨MusicMove.passed (dueStatics_music serves) settles,
      fun other => absurd rfl other⟩
  · have browses := dueStatics_browses music serves
    have still : Passed before.trace state before :=
      ⟨[], rfl, settles⟩
    refine ⟨still.browse browses, fun other => ?_⟩
    obtain ⟨playlist, panel, entries, rfl, -⟩ := browses
    exact off other

/-- What one pass of the LCD thread makes of the flags and the player. -/
theorem pass_settles
    {input : Input} {scene next : View} {state : PlayerState}
    (coherent : Coherent scene) (off : OffElsewhere scene)
    (settles : FlagsSettle scene.statics [] state)
    (stepped : viewStep input scene = .ok next) :
    Passed scene.statics.trace state next.statics ∧
      OffElsewhere next := by
  have still : Passed scene.statics.trace state scene.statics :=
    ⟨[], rfl, settles⟩
  cases move_of_step stepped with
  | @boot shown pc shows =>
      have browses := showStatics_browses (by simp) shows
      refine ⟨(still.call _ _ _).browse browses, fun _ => ?_⟩
      have first := (coherent.fresh pc).1
      obtain ⟨playlist, panel, entries, rfl, -⟩ := browses
      exact off (by rw [first]; decide)
  | @switch event target shown pc branch shows =>
      exact switch_settles
        (left_stops input.env coherent off settles target) shows
  | @due done pc due serves =>
      have logged : FlagsSettle (scene.statics.log
          (.handler scene.page .dynamicContent scene.event)) [] state :=
        settles.congr rfl rfl
      have offLogged : scene.page ≠ 2 → (scene.statics.log
          (.handler scene.page .dynamicContent
            scene.event)).iotbMusicIsPlay = false := off
      obtain ⟨⟨grown, trace, ends⟩, after⟩ :=
        due_settles offLogged logged serves
      refine ⟨⟨grown ++ [_], by rw [trace, List.append_assoc]; rfl, ?_⟩,
        after⟩
      rw [calls_append]
      exact ends
  | poll pc got => exact ⟨still, off⟩
  | timeout pc empty => exact ⟨still, off⟩
  | leave pc branch => exact ⟨still, off⟩
  | ignore pc branch => exact ⟨still, off⟩
  | wait pc notDue => exact ⟨still, off⟩
  | tick pc =>
      rw [View.tick]
      split <;> exact ⟨still, off⟩

/-! ## Along a run -/

/-- What holds of the two threads between any two steps. -/
structure SystemInvariant (system : System) : Prop where
  thread : ThreadInvariant system.lcd
  coherent : Coherent (view system.lcd)
  synchronized : Synchronized ⟨system.code, system.player⟩
  off : OffElsewhere (view system.lcd)
  settles : FlagsSettle system.lcd.statics system.code
    (expected system.player)

theorem systemInvariant_initial (card : Card) :
    SystemInvariant (.initial card) where
  thread := threadInvariant_initial card
  coherent := coherent_initial card
  synchronized := synchronized_initial
  off _ := rfl
  settles := flagsSettle_stoped (.initial card)

theorem FlagsSettle.player
    {statics : Statics} {playback : Playback} {player : Player}
    (settles : FlagsSettle statics playback.code
      (expected playback.player))
    (synchronized : Synchronized playback)
    (moves : PlayerMove playback.player player) :
    FlagsSettle statics playback.code (expected player) where
  notPlaying stopped :=
    (settles.notPlaying stopped).player synchronized moves
  resumed later := (settles.resumed later).player synchronized moves

theorem FlagsSettle.control
    {statics : Statics} {playback next : Playback}
    (settles : FlagsSettle statics playback.code
      (expected playback.player))
    (synchronized : Synchronized playback)
    (stepped : controlStep playback = .ok next) :
    FlagsSettle statics next.code (expected next.player) where
  notPlaying stopped :=
    (settles.notPlaying stopped).control synchronized stepped
  resumed later := (settles.resumed later).control synchronized stepped

/-- Without calls to make, nothing is outstanding. -/
theorem SystemInvariant.idle
    {system : System} (invariant : SystemInvariant system)
    (done : system.code = []) : Idle system.player := by
  rcases invariant.synchronized.exchange with
    ⟨orderly, idle⟩ | ⟨rest, code, orderly, flight⟩
  · exact idle
  · simp only [done] at code
    cases code

theorem SystemInvariant.pass
    {input : Input} {system : System} {lcd : Lcd}
    (invariant : SystemInvariant system) (done : system.code = [])
    (stepped : step input system.lcd = .ok lcd) :
    SystemInvariant
      { system with
        lcd := lcd
        code := (issued system.lcd.statics.trace
          lcd.statics.trace).flatMap controlCode } := by
  have idle := invariant.idle done
  have viewed := step_simulates.viewed invariant.thread stepped
  have settles : FlagsSettle (view system.lcd).statics []
      (expected system.player) := by
    have now := invariant.settles
    rw [done] at now
    exact now
  obtain ⟨⟨grown, trace, ends⟩, off⟩ :=
    pass_settles invariant.coherent invariant.off settles viewed
  have same : issued system.lcd.statics.trace lcd.statics.trace =
      calls grown := by
    rw [← issued_append grown system.lcd.statics.trace]
    exact congrArg (issued system.lcd.statics.trace) trace
  refine ⟨threadInvariant_preserved input system.lcd lcd
      invariant.thread stepped,
    coherent_preserved input _ _ invariant.coherent viewed, ?_, off, ?_⟩
  · exact ⟨Or.inl ⟨orderly_controlCode _, idle⟩,
      invariant.synchronized.active, invariant.synchronized.acking⟩
  · rw [same]
    exact ends

theorem systemInvariant_preserved :
    Preserved systemStep SystemInvariant := by
  intro turn system next invariant stepped
  cases turn with
  | player outcome =>
      cases stepped
      have moves := playerStep_move outcome system.player
      exact ⟨invariant.thread, invariant.coherent,
        invariant.synchronized.player moves, invariant.off,
        invariant.settles.player invariant.synchronized moves⟩
  | lcd input =>
      simp only [systemStep, lcdTurn] at stepped
      split at stepped
      · rename_i done
        rw [bind_eq_ok_iff] at stepped
        obtain ⟨lcd, passed, stepped⟩ := stepped
        cases stepped
        exact invariant.pass done passed
      · rw [bind_eq_ok_iff] at stepped
        obtain ⟨playback, called, stepped⟩ := stepped
        cases stepped
        exact ⟨invariant.thread, invariant.coherent,
          invariant.synchronized.control called, invariant.off,
          invariant.settles.control invariant.synchronized called⟩

/-- `iotb_lcd_show` is at the top of its loop. -/
structure AtTop (system : System) : Prop where
  pc : system.lcd.pc = .top
  code : system.code = []

/-- Nothing plays and nothing will. -/
structure Silent (player : Player) : Prop where
  stoped : player.state = .stoped
  noneQueued : .start ∉ player.mq
  noneHandled : ∀ site, player.pc ≠ .handling .start site
  inactive : Active player.pc = false

/--
Whenever the LCD thread is at the top of its loop with another page than the
music page active, the player is stopped, no song is about to start, and the
page counts as stopped.
-/
theorem silent_elsewhere
    (card : Card) (turns : List Turn) (system : System)
    (ran : run systemStep turns (.initial card) = .ok system)
    (top : AtTop system) (elsewhere : system.lcd.menuIndex ≠ 2) :
    Silent system.player ∧
      system.lcd.statics.iotbMusicIsPlay = false := by
  have invariant := run_invariant systemInvariant_preserved
    (systemInvariant_initial card) ran
  have stopped : system.lcd.statics.iotbMusicIsPlay = false :=
    invariant.off elsewhere
  have idle := invariant.idle top.code
  have settles := invariant.settles.notPlaying stopped
  rw [top.code, idle.expected] at settles
  have stoped : system.player.state = .stoped := settles.1
  refine ⟨⟨stoped, ?_, ?_, ?_⟩, stopped⟩
  · rw [idle.mq]
    simp
  · intro site handling
    have quiet := idle.pc
    rw [handling] at quiet
    cases quiet
  · rw [Bool.eq_false_iff]
    intro active
    exact invariant.synchronized.active active stoped

/-! ## A visit to the music page -/

/-- A pass or a call while nothing arrives from outside. -/
def quietTurn : Turn :=
  .lcd ⟨⟨0#32, .empty⟩, offline⟩

/-- A step of the playback thread for a song that opens and goes on. -/
def playingTurn : Turn :=
  .player ⟨true, fun _ => true, true⟩

/-- A pass that polls the event of one click. -/
def clickTurn (msg : IotbEventMsg) (event : IotbLcdEvent)
    (processed : iotbEventProcess msg = some event) : Turn :=
  .lcd ⟨PostedSet.single msg event processed, offline⟩

/-- A list at start-up, a click of KEY0, and the cached song starts. -/
def visitTurns : List Turn :=
  [playingTurn, .lcd ⟨⟨0#32, .empty⟩, online [some songName]⟩,
    clickTurn ⟨.key0, .keyClick⟩ .musicPlay key0Click_processed,
    .lcd ⟨⟨0#32, .empty⟩, online []⟩] ++
    List.replicate 9 quietTurn ++ List.replicate 5 playingTurn ++
    List.replicate 2 quietTurn

/-- A click of KEY2 then leaves the page while the song plays. -/
def leaveTurns : List Turn :=
  visitTurns ++ List.replicate 2 quietTurn ++
    [clickTurn ⟨.key2, .keyClick⟩ .key2Click key2Click_processed, quietTurn] ++
    List.replicate 4 quietTurn ++ List.replicate 5 playingTurn ++
    List.replicate 4 quietTurn

/-- What the runs below are looked at for. -/
def glance (system : System) :
    LcdThread.Pc × Nat × List Control × PlayerState :=
  (system.lcd.pc, system.lcd.menuIndex, system.code, system.player.state)

example : (run systemStep visitTurns
    (.initial fun _ => some [])).toOption.map glance =
      some (.refresh, 2, [], .playing) := by
  decide +kernel

theorem silent_elsewhere_left :
    ∃ system, run systemStep leaveTurns
        (.initial fun _ => some []) = .ok system ∧
      system.lcd.menuIndex = 1 ∧ Silent system.player ∧
      system.lcd.statics.iotbMusicIsPlay = false := by
  have visited : (run systemStep leaveTurns
      (.initial fun _ => some [])).toOption.map glance =
        some (.top, 1, [], .stoped) := by
    decide +kernel
  obtain ⟨system, ran, seen⟩ := toOption_map_eq_some_iff.mp visited
  simp only [glance, Prod.mk.injEq] at seen
  obtain ⟨pc, page, code, -⟩ := seen
  exact ⟨system, ran, page,
    silent_elsewhere _ leaveTurns system ran ⟨pc, code⟩
      (by rw [page]; decide)⟩

end InternetWavPlayer.Playback
