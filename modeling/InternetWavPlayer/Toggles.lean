import InternetWavPlayer.Playback

/-!
# The two toggles of the music page

The page keeps flags of its own for what the player does.  `is_play` stays on
when a song ends by itself, and `is_resume` stays off when a song is started;
in the other direction the flags are right in every run, so a handled toggle
follows the player exactly where neither of these two has happened.
-/

namespace InternetWavPlayer.Toggles

open InternetWavPlayer.Run
open InternetWavPlayer.LcdEvent
open InternetWavPlayer.Songlist
open InternetWavPlayer.Webclient
open InternetWavPlayer.Pages
open InternetWavPlayer.LcdThread
open InternetWavPlayer.Dispatch
open InternetWavPlayer.Scene
open InternetWavPlayer.Effects
open InternetWavPlayer.Wavplayer
open InternetWavPlayer.Handshake
open InternetWavPlayer.Playback

/-! ## Handled toggles -/

/-- The next step of the LCD thread lets the music page handle this event. -/
structure HandlesNow (system : System) (event : IotbLcdEvent) : Prop where
  code : system.code = []
  pc : system.lcd.pc = .refresh
  due : system.lcd.Due
  page : system.lcd.menuIndex = 2
  event : system.lcd.active.currentEvent = event

theorem handlesNow_iff (system : System) (event : IotbLcdEvent) :
    HandlesNow system event ↔
      system.code = [] ∧ system.lcd.pc = .refresh ∧ system.lcd.Due ∧
        system.lcd.menuIndex = 2 ∧
        system.lcd.active.currentEvent = event := by
  constructor
  · rintro ⟨code, pc, due, page, left⟩
    exact ⟨code, pc, due, page, left⟩
  · rintro ⟨code, pc, due, page, left⟩
    exact ⟨code, pc, due, page, left⟩

instance (system : System) (event : IotbLcdEvent) :
    Decidable (HandlesNow system event) :=
  decidable_of_iff _ (handlesNow_iff system event).symm

/-- The control functions that a step calls. -/
def stepCalls (before after : System) : List PlayerCall :=
  issued before.lcd.statics.trace after.lcd.statics.trace

/-- A handled toggle calls the function that fits the player's state. -/
structure FollowsPlayer (before after : System) : Prop where
  playStop : HandlesNow before .wkupDoubleClick →
    (before.player.state ≠ .stoped →
      stepCalls before after = [.wavplayerStop]) ∧
    (before.player.state = .stoped →
      ∃ name, stepCalls before after = [.wavplayerPlay name])
  pauseResume : HandlesNow before .key1DoubleClick →
    (before.player.state = .playing →
      stepCalls before after = [.wavplayerPause]) ∧
    (before.player.state = .paused →
      stepCalls before after = [.wavplayerResume])

/--
Neither flag is behind the player: a song that counts as playing has not ended,
and one that plays has been resumed once.
-/
structure FlagsCurrent (system : System) : Prop where
  playStop : HandlesNow system .wkupDoubleClick →
    system.lcd.statics.iotbMusicIsPlay = true →
    system.player.state ≠ .stoped
  pauseResume : HandlesNow system .key1DoubleClick →
    system.lcd.statics.iotbMusicIsResume = false →
    system.player.state ≠ .playing

/-- A handled event is one due call of the music page. -/
theorem HandlesNow.step_eq
    {system : System} {event : IotbLcdEvent}
    (handles : HandlesNow system event)
    (invariant : SystemInvariant system) (input : Input) :
    (step input system.lcd).map (fun lcd => lcd.statics) =
      dueStatics input.env 2 event
        (system.lcd.statics.log (.handler 2 .dynamicContent event)) := by
  have menus := invariant.thread.menus (by rw [handles.pc]; decide)
  have page : (view system.lcd).page = 2 := handles.page
  have left : (view system.lcd).event = event := handles.event
  have commutes :=
    step_simulates.commutes input system.lcd invariant.thread
  rw [viewStep_due input handles.pc ((due_view menus).mp handles.due),
    page, left] at commutes
  cases stepped : step input system.lcd with
  | error fault =>
      rw [stepped] at commutes
      exact (map_eq_error_iff.mp commutes.symm).symm
  | ok lcd =>
      rw [stepped] at commutes
      obtain ⟨done, serves, same⟩ := map_eq_ok_iff.mp commutes.symm
      have statics : done = lcd.statics := congrArg View.statics same
      subst statics
      exact serves.symm

/-- A step that handles an event is a move of the music page. -/
theorem HandlesNow.moves
    {system next : System} {event : IotbLcdEvent} {input : Input}
    (handles : HandlesNow system event)
    (invariant : SystemInvariant system)
    (stepped : systemStep (.lcd input) system = .ok next) :
    MusicMove
      (system.lcd.statics.log (.handler 2 .dynamicContent event))
      event next.lcd.statics := by
  have equation := handles.step_eq invariant input
  simp only [systemStep, lcdTurn, handles.code, bind_eq_ok_iff] at stepped
  obtain ⟨lcd, passed, stepped⟩ := stepped
  cases stepped
  rw [passed] at equation
  exact dueStatics_music equation.symm

/-- It is taken wherever the handler does not fault. -/
theorem HandlesNow.enabled
    {system : System} {event : IotbLcdEvent} {input : Input}
    {done : Statics} (handles : HandlesNow system event)
    (invariant : SystemInvariant system)
    (serves : dueStatics input.env 2 event
      (system.lcd.statics.log (.handler 2 .dynamicContent event)) =
        .ok done) :
    ∃ next, systemStep (.lcd input) system = .ok next := by
  have equation := handles.step_eq invariant input
  rw [serves, map_eq_ok_iff] at equation
  obtain ⟨lcd, passed, -⟩ := equation
  simp only [systemStep, lcdTurn, handles.code, bind_eq_ok_iff]
  exact ⟨_, lcd, passed, rfl⟩

/-- The calls of a step whose entries are known. -/
theorem stepCalls_eq
    {before after : System} (entries : List Observation)
    (trace : after.lcd.statics.trace =
      entries ++ before.lcd.statics.trace) :
    stepCalls before after = calls entries := by
  rw [stepCalls, trace, issued_append]

/-- The play and stop toggle looks at `is_play` only. -/
theorem HandlesNow.playStop_calls
    {system next : System} {input : Input}
    (handles : HandlesNow system .wkupDoubleClick)
    (invariant : SystemInvariant system)
    (stepped : systemStep (.lcd input) system = .ok next) :
    (system.lcd.statics.iotbMusicIsPlay = true ∧
      stepCalls system next = [.wavplayerStop]) ∨
    (system.lcd.statics.iotbMusicIsPlay = false ∧
      ∃ name, stepCalls system next = [.wavplayerPlay name]) := by
  have moves := handles.moves invariant stepped
  generalize after : next.lcd.statics = done at moves
  generalize same : IotbLcdEvent.wkupDoubleClick = event at moves
  cases moves with
  | stop playing =>
      left
      refine ⟨playing, ?_⟩
      rw [stepCalls_eq [_, _, _] (congrArg Statics.trace after)]
      rfl
  | @play name stopped read =>
      right
      refine ⟨stopped, name, ?_⟩
      rw [stepCalls_eq [_, _, _] (congrArg Statics.trace after)]
      rfl
  | pause resumed => cases same
  | resume paused => cases same
  | volume click =>
      subst same
      simp at click
  | idle notPlayStop notPauseResume => exact absurd same.symm notPlayStop

/-- The pause and resume toggle looks at `is_resume` only. -/
theorem HandlesNow.pauseResume_calls
    {system next : System} {input : Input}
    (handles : HandlesNow system .key1DoubleClick)
    (invariant : SystemInvariant system)
    (stepped : systemStep (.lcd input) system = .ok next) :
    (system.lcd.statics.iotbMusicIsResume = true ∧
      stepCalls system next = [.wavplayerPause]) ∨
    (system.lcd.statics.iotbMusicIsResume = false ∧
      stepCalls system next = [.wavplayerResume]) := by
  have moves := handles.moves invariant stepped
  generalize after : next.lcd.statics = done at moves
  generalize same : IotbLcdEvent.key1DoubleClick = event at moves
  cases moves with
  | stop playing => cases same
  | play stopped read => cases same
  | pause resumed =>
      left
      refine ⟨resumed, ?_⟩
      rw [stepCalls_eq [_, _, _] (congrArg Statics.trace after)]
      rfl
  | resume paused =>
      right
      refine ⟨paused, ?_⟩
      rw [stepCalls_eq [_, _, _] (congrArg Statics.trace after)]
      rfl
  | volume click =>
      subst same
      simp at click
  | idle notPlayStop notPauseResume =>
      exact absurd same.symm notPauseResume

/-! ## The flags and the player at a handled toggle -/

/-- A page that counts as stopped has a stopped player. -/
theorem HandlesNow.stoped
    {system : System} {event : IotbLcdEvent}
    (handles : HandlesNow system event)
    (invariant : SystemInvariant system)
    (stopped : system.lcd.statics.iotbMusicIsPlay = false) :
    system.player.state = .stoped := by
  have settles := invariant.settles.notPlaying stopped
  rw [handles.code, (invariant.idle handles.code).expected] at settles
  exact settles.1

/-- After a resume the player is not paused. -/
theorem HandlesNow.not_paused
    {system : System} {event : IotbLcdEvent}
    (handles : HandlesNow system event)
    (invariant : SystemInvariant system)
    (resumed : system.lcd.statics.iotbMusicIsResume = true) :
    system.player.state ≠ .paused := by
  have settles := invariant.settles.resumed resumed
  rw [handles.code, (invariant.idle handles.code).expected] at settles
  exact settles.1

/-- With current flags a handled toggle follows the player. -/
theorem follows_of_current
    {system next : System} {input : Input}
    (invariant : SystemInvariant system) (current : FlagsCurrent system)
    (stepped : systemStep (.lcd input) system = .ok next) :
    FollowsPlayer system next := by
  constructor
  · intro handles
    rcases handles.playStop_calls invariant stepped with
      ⟨playing, calls⟩ | ⟨stopped, name, calls⟩
    · have running := current.playStop handles playing
      exact ⟨fun _ => calls, fun stoped => absurd stoped running⟩
    · have stoped := handles.stoped invariant stopped
      exact ⟨fun running => absurd stoped running,
        fun _ => ⟨name, calls⟩⟩
  · intro handles
    rcases handles.pauseResume_calls invariant stepped with
      ⟨resumed, calls⟩ | ⟨paused, calls⟩
    · have notPaused := handles.not_paused invariant resumed
      exact ⟨fun _ => calls, fun paused => absurd paused notPaused⟩
    · have notPlaying := current.pauseResume handles paused
      exact ⟨fun playing => absurd playing notPlaying, fun _ => calls⟩

/-- A toggle that follows the player had current flags. -/
theorem current_of_follows
    {system : System} (input : Input)
    (invariant : SystemInvariant system)
    (follows : ∀ next, systemStep (.lcd input) system = .ok next →
      FollowsPlayer system next) :
    FlagsCurrent system := by
  constructor
  · intro handles playing stoped
    obtain ⟨done, serves⟩ : ∃ done, dueStatics input.env 2
        .wkupDoubleClick (system.lcd.statics.log
          (.handler 2 .dynamicContent .wkupDoubleClick)) = .ok done := by
      rw [dueStatics, playStop, if_pos (by exact playing)]
      exact ⟨_, rfl⟩
    obtain ⟨next, stepped⟩ := handles.enabled invariant serves
    obtain ⟨name, calls⟩ :=
      ((follows next stepped).playStop handles).2 stoped
    rcases handles.playStop_calls invariant stepped with
      ⟨-, stops⟩ | ⟨stopped, -⟩
    · rw [stops] at calls
      cases calls
    · rw [playing] at stopped
      cases stopped
  · intro handles paused playing
    have serves : dueStatics input.env 2 .key1DoubleClick
        (system.lcd.statics.log
          (.handler 2 .dynamicContent .key1DoubleClick)) =
        .ok (pauseResume (system.lcd.statics.log
          (.handler 2 .dynamicContent .key1DoubleClick))) :=
      rfl
    obtain ⟨next, stepped⟩ := handles.enabled invariant serves
    have calls :=
      ((follows next stepped).pauseResume handles).1 playing
    rcases handles.pauseResume_calls invariant stepped with
      ⟨resumed, -⟩ | ⟨-, resumes⟩
    · rw [paused] at resumed
      cases resumed
    · rw [resumes] at calls
      cases calls

/-! ## Runs of the two threads -/

/--
In a run every handled toggle follows the player exactly if no toggle is
handled while its flag is behind.
-/
theorem toggles_follow_iff
    (card : Card) (turns : List Turn) :
    Throughout systemStep
      (fun turn system => ∀ input next, turn = .lcd input →
        systemStep turn system = .ok next → FollowsPlayer system next)
      turns (.initial card) ↔
    Throughout systemStep
      (fun turn system => ∀ input, turn = .lcd input →
        FlagsCurrent system)
      turns (.initial card) := by
  refine throughout_iff_of_invariant systemInvariant_preserved ?_
    (systemInvariant_initial card)
  intro turn system invariant
  constructor
  · rintro follows input rfl
    exact current_of_follows input invariant fun next =>
      follows input next rfl
  · rintro current input next rfl stepped
    exact follows_of_current invariant (current input rfl) stepped

/-- On a fresh visit, a double click of KEY1 while the song plays. -/
def pauseTurns : List Turn :=
  visitTurns ++ List.replicate 2 quietTurn ++
    [clickTurn ⟨.key1, .keyDoubleClick⟩ .key1DoubleClick rfl, quietTurn]

/-- The toggle that should pause the song resumes it. -/
theorem firstPause_resumes :
    ∃ system next,
      run systemStep pauseTurns (.initial fun _ => some []) =
        .ok system ∧
      systemStep quietTurn system = .ok next ∧
      HandlesNow system .key1DoubleClick ∧
      system.player.state = .playing ∧
      stepCalls system next = [.wavplayerResume] ∧
      ¬ FollowsPlayer system next := by
  have seen : (((run systemStep pauseTurns
      (.initial fun _ => some [])).bind fun system =>
        (systemStep quietTurn system).map fun next =>
          (system, next)).toOption.map fun both =>
            (decide (HandlesNow both.1 .key1DoubleClick),
              both.1.player.state, stepCalls both.1 both.2)) =
      some (true, .playing, [.wavplayerResume]) := by
    decide +kernel
  obtain ⟨both, ran, glanced⟩ := toOption_map_eq_some_iff.mp seen
  obtain ⟨system, before, after⟩ := bind_eq_ok_iff.mp ran
  obtain ⟨next, step, same⟩ := map_eq_ok_iff.mp after
  subst same
  simp only [Prod.mk.injEq, decide_eq_true_eq] at glanced
  obtain ⟨handles, state, calls⟩ := glanced
  refine ⟨system, next, before, step, handles, state, calls, ?_⟩
  intro follows
  have pauses := (follows.pauseResume handles).1 state
  rw [calls] at pauses
  cases pauses

end InternetWavPlayer.Toggles
