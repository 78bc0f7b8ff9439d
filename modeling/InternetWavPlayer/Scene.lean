import InternetWavPlayer.Dispatch

/-!
# The thread seen from its active page

The local and the global page index, the four menus and their handlers carry
no more information than one page number, its content type and the event left
in it.  A scene is that view of the thread.  It has a step of its own, and the
thread simulates it in every run; results about the playlist, the screen, the
card and the trace are invariants of scenes.
-/

namespace InternetWavPlayer.Scene

open InternetWavPlayer.Run
open InternetWavPlayer.LcdEvent
open InternetWavPlayer.Songlist
open InternetWavPlayer.Webclient
open InternetWavPlayer.Pages
open InternetWavPlayer.LcdThread
open InternetWavPlayer.Dispatch

/-- The active page of the thread, and what the pages share. -/
structure View where
  pc : Pc
  page : Nat
  content : ContentType
  event : IotbLcdEvent
  cnt : Nat
  statics : Statics

/-- The view of a thread. -/
def view (lcd : Lcd) : View where
  pc := lcd.pc
  page := lcd.menuIndex
  content := lcd.active.contentType
  event := lcd.active.currentEvent
  cnt := lcd.cnt
  statics := lcd.statics

/-- Show a page with static content. -/
def View.enter (env : Env) (page : Nat) (event : IotbLcdEvent)
    (scene : View) : Except Fault View :=
  (showStatics env page event
      (scene.statics.log (.handler page .staticContent event))).map
    fun shown =>
      { scene with
        page := page
        content := .staticContent
        event := shownEvent page event
        statics := shown }

/-- The statics once the active page has been left. -/
def View.left (env : Env) (scene : View) : Statics :=
  exitStatics env scene.page
    (scene.statics.log (.handler scene.page .contentNone .exit))

/-- Leave the active page and enter another. -/
def View.switch (env : Env) (target : Nat) (scene : View) :
    Except Fault View :=
  View.enter env target .enter
    { scene with cnt := menuRefreshTime target, statics := scene.left env }

/-- Serve one event set. -/
def View.serve (env : Env) (event : EventSet) (scene : View) :
    Except Fault View :=
  match served event scene.page with
  | .switch target => scene.switch env target
  | .leave left =>
      .ok { scene with content := .dynamicContent, event := left }
  | .nothing => .ok scene

/-- The active page waits for its periodic call and is due. -/
def View.Due (scene : View) : Prop :=
  scene.content = .dynamicContent ∧
    scene.cnt ≥ menuRefreshTime scene.page

instance (scene : View) : Decidable scene.Due :=
  inferInstanceAs (Decidable (_ ∧ _))

/-- Call a due page. -/
def View.refresh (env : Env) (scene : View) : Except Fault View :=
  if scene.Due then
    (dueStatics env scene.page scene.event
        (scene.statics.log
          (.handler scene.page .dynamicContent scene.event))).map
      fun done =>
        { scene with
          event := dueEvent scene.page scene.event
          cnt := 0
          statics := done }
  else .ok scene

/-- The counter after the delay. -/
def View.tick (scene : View) : View :=
  if scene.content = .dynamicContent then
    { scene with cnt := (scene.cnt + 1) % 65536 }
  else scene

/-- One step of a scene. -/
def viewStep (input : Input) (scene : View) : Except Fault View :=
  match scene.pc with
  | .start =>
      (scene.enter input.env 1 .none).map ({ · with pc := .top })
  | .top =>
      match iotbLcdEventGet input.events.set with
      | some (event, _) => .ok { scene with pc := .dispatch event }
      | none => .ok { scene with pc := .refresh }
  | .dispatch event =>
      (scene.serve input.env event).map ({ · with pc := .refresh })
  | .refresh => (scene.refresh input.env).map ({ · with pc := .delay })
  | .delay => .ok { scene.tick with pc := .top }

/-! ## The thread simulates its view -/

theorem view_boot
    (env : Env) (lcd : Lcd) (index : lcd.menuIndex = 1)
    (instances : lcd.lcdInstance = iotbLcdMenuInit) :
    (boot env lcd).map view = (view lcd).enter env 1 .none := by
  rw [boot_eq env lcd index instances, View.enter]
  simp only [view]
  cases showStatics env 1 .none
      (lcd.statics.log (.handler 1 .staticContent .none)) with
  | error fault => rfl
  | ok shown =>
      simp [Except.map, view, Lcd.setMenu, Lcd.active, index, shownEvent]

theorem view_dispatch
    (env : Env) (event : EventSet) (lcd : Lcd)
    (menus : MenuInvariant lcd) (noExit : event.test .exit = false) :
    (dispatch env event lcd).map view = (view lcd).serve env event := by
  rw [dispatch_eq env event lcd menus noExit, View.serve]
  have page : (view lcd).page = lcd.menuIndex := rfl
  rw [page]
  cases branch : served event lcd.menuIndex with
  | switch target =>
      obtain ⟨range, other, -⟩ := served_switch menus.index_cases branch
      simp only [switchPage_eq env lcd target menus range other,
        View.switch, View.enter, View.left, view]
      cases showStatics env target .enter
          ((exitStatics env lcd.menuIndex
              (lcd.statics.log
                (.handler lcd.menuIndex .contentNone .exit))).log
            (.handler target .staticContent .enter)) with
      | error fault => rfl
      | ok shown => simp [Except.map, view, switched, Lcd.active]
  | leave left =>
      simp [Except.map, view, Lcd.active, Lcd.setMenu]
  | nothing => rfl

/-- A page is due when its view is. -/
theorem due_view {lcd : Lcd} (menus : MenuInvariant lcd) :
    lcd.Due ↔ (view lcd).Due := by
  have range := menus.index_range
  have time : lcd.active.refreshTime = menuRefreshTime lcd.menuIndex :=
    menus.refreshTimes lcd.menuIndex range.1 range.2
  rw [Lcd.Due, time]
  rfl

theorem view_refresh
    (env : Env) (lcd : Lcd) (menus : MenuInvariant lcd) :
    (refresh env lcd).map view = (view lcd).refresh env := by
  have due := due_view menus
  rw [refresh_eq env lcd menus, View.refresh]
  by_cases now : lcd.Due
  · rw [if_pos now, if_pos (due.mp now)]
    simp only [view]
    cases dueStatics env lcd.menuIndex lcd.active.currentEvent
        (lcd.statics.log (.handler lcd.menuIndex .dynamicContent
          lcd.active.currentEvent)) with
    | error fault => rfl
    | ok done =>
        simp only [Except.map, view, Lcd.setMenu, Lcd.active,
          Function.update_self]
        rw [show (lcd.lcdInstance lcd.menuIndex).contentType =
          .dynamicContent from now.1]
  · rw [if_neg now, if_neg fun viewDue => now (due.mpr viewDue)]
    rfl

/-- One step of the thread is one step of its view. -/
theorem step_simulates :
    Simulates step viewStep view ThreadInvariant where
  preserved := threadInvariant_preserved
  commutes := by
    intro input lcd thread
    have here : (view lcd).pc = lcd.pc := rfl
    rw [step, lcdStep, viewStep, here]
    cases pc : lcd.pc with
    | start =>
        obtain ⟨index, -, instances⟩ := thread.fresh pc
        dsimp only
        rw [← view_boot input.env lcd index instances]
        cases boot input.env lcd <;> rfl
    | top =>
        dsimp only
        rw [poll]
        cases iotbLcdEventGet input.events.set <;> rfl
    | dispatch event =>
        dsimp only
        rw [← view_dispatch input.env event lcd
          (thread.menus (by simp [pc])) (thread.noExit pc)]
        cases dispatch input.env event lcd <;> rfl
    | refresh =>
        dsimp only
        rw [← view_refresh input.env lcd (thread.menus (by simp [pc]))]
        cases refresh input.env lcd <;> rfl
    | delay =>
        dsimp only
        have content : (view lcd).content = lcd.active.contentType := rfl
        rw [tick, View.tick, content]
        split <;> rfl

/-- The view of the thread when it is created. -/
def View.initial (card : Card) : View where
  pc := .start
  page := 1
  content := .contentNone
  event := .none
  cnt := 0
  statics := .initial card

theorem view_initial (card : Card) :
    view (.initial card) = .initial card :=
  rfl

/-- A run of the thread is a run of its view. -/
theorem run_view
    {card : Card} {inputs : List Input} {lcd : Lcd}
    (ran : run step inputs (.initial card) = .ok lcd) :
    run viewStep inputs (.initial card) = .ok (view lcd) := by
  rw [← view_initial]
  exact step_simulates.run (threadInvariant_initial card) ran

/-- The step that calls a due page. -/
theorem viewStep_due
    (input : Input) {scene : View} (pc : scene.pc = .refresh)
    (due : scene.Due) :
    viewStep input scene =
      (dueStatics input.env scene.page scene.event
        (scene.statics.log
          (.handler scene.page .dynamicContent scene.event))).map
        fun done =>
          { scene with
            pc := .delay
            event := dueEvent scene.page scene.event
            cnt := 0
            statics := done } := by
  rw [viewStep, pc]
  simp only [View.refresh, if_pos due]
  cases dueStatics input.env scene.page scene.event
      (scene.statics.log
        (.handler scene.page .dynamicContent scene.event)) <;> rfl

/-! ## What one step can do -/

/-- The steps of a scene, each with what it requires. -/
inductive Move (input : Input) (scene : View) : View → Prop where
  | boot {shown : Statics} (pc : scene.pc = .start)
      (shows : showStatics input.env 1 .none
        (scene.statics.log (.handler 1 .staticContent .none)) =
          .ok shown) :
      Move input scene
        { scene with
          pc := .top
          page := 1
          content := .staticContent
          event := .none
          statics := shown }
  | poll {event kept : EventSet} (pc : scene.pc = .top)
      (got : iotbLcdEventGet input.events.set = some (event, kept)) :
      Move input scene { scene with pc := .dispatch event }
  | timeout (pc : scene.pc = .top)
      (empty : iotbLcdEventGet input.events.set = Option.none) :
      Move input scene { scene with pc := .refresh }
  | switch {event : EventSet} {target : Nat} {shown : Statics}
      (pc : scene.pc = .dispatch event)
      (branch : served event scene.page = .switch target)
      (shows : showStatics input.env target .enter
        ((scene.left input.env).log
          (.handler target .staticContent .enter)) = .ok shown) :
      Move input scene
        { pc := .refresh
          page := target
          content := .staticContent
          event := shownEvent target .enter
          cnt := menuRefreshTime target
          statics := shown }
  | leave {event : EventSet} {left : IotbLcdEvent}
      (pc : scene.pc = .dispatch event)
      (branch : served event scene.page = .leave left) :
      Move input scene
        { scene with
          pc := .refresh
          content := .dynamicContent
          event := left }
  | ignore {event : EventSet} (pc : scene.pc = .dispatch event)
      (branch : served event scene.page = .nothing) :
      Move input scene { scene with pc := .refresh }
  | due {done : Statics} (pc : scene.pc = .refresh) (due : scene.Due)
      (serves : dueStatics input.env scene.page scene.event
        (scene.statics.log
          (.handler scene.page .dynamicContent scene.event)) =
          .ok done) :
      Move input scene
        { scene with
          pc := .delay
          event := dueEvent scene.page scene.event
          cnt := 0
          statics := done }
  | wait (pc : scene.pc = .refresh) (notDue : ¬ scene.Due) :
      Move input scene { scene with pc := .delay }
  | tick (pc : scene.pc = .delay) :
      Move input scene { scene.tick with pc := .top }

/-- A step that does not fault is one of the moves. -/
theorem move_of_step
    {input : Input} {scene next : View}
    (stepped : viewStep input scene = .ok next) :
    Move input scene next := by
  rw [viewStep] at stepped
  cases pc : scene.pc with
  | start =>
      rw [pc] at stepped
      simp only [View.enter, map_eq_ok_iff] at stepped
      obtain ⟨between, ⟨shown, shows, rfl⟩, rfl⟩ := stepped
      exact .boot pc shows
  | top =>
      rw [pc] at stepped
      cases got : iotbLcdEventGet input.events.set with
      | none =>
          rw [got] at stepped
          cases stepped
          exact .timeout pc got
      | some polled =>
          rw [got] at stepped
          cases stepped
          exact .poll pc got
  | dispatch event =>
      rw [pc] at stepped
      cases branch : served event scene.page with
      | switch target =>
          simp only [View.serve, branch, View.switch, View.enter,
            map_eq_ok_iff] at stepped
          obtain ⟨between, ⟨shown, shows, rfl⟩, rfl⟩ := stepped
          exact .switch pc branch shows
      | leave left =>
          simp only [View.serve, branch] at stepped
          cases stepped
          exact .leave pc branch
      | nothing =>
          simp only [View.serve, branch] at stepped
          cases stepped
          exact .ignore pc branch
  | refresh =>
      rw [pc] at stepped
      by_cases due : scene.Due
      · simp only [View.refresh, if_pos due, map_eq_ok_iff] at stepped
        obtain ⟨between, ⟨done, serves, rfl⟩, rfl⟩ := stepped
        exact .due pc due serves
      · simp only [View.refresh, if_neg due] at stepped
        cases stepped
        exact .wait pc due
  | delay =>
      rw [pc] at stepped
      cases stepped
      exact .tick pc

/-- The three places where a step can fault. -/
inductive FaultMove (input : Input) (scene : View) (fault : Fault) :
    Prop where
  | boot (pc : scene.pc = .start)
      (shows : showStatics input.env 1 .none
        (scene.statics.log (.handler 1 .staticContent .none)) =
          .error fault)
  | switch {event : EventSet} {target : Nat}
      (pc : scene.pc = .dispatch event)
      (branch : served event scene.page = .switch target)
      (shows : showStatics input.env target .enter
        ((scene.left input.env).log
          (.handler target .staticContent .enter)) = .error fault)
  | due (pc : scene.pc = .refresh) (due : scene.Due)
      (serves : dueStatics input.env scene.page scene.event
        (scene.statics.log
          (.handler scene.page .dynamicContent scene.event)) =
          .error fault)

theorem step_error_iff
    {input : Input} {scene : View} {fault : Fault} :
    viewStep input scene = .error fault ↔
      FaultMove input scene fault := by
  constructor
  · intro stepped
    rw [viewStep] at stepped
    cases pc : scene.pc with
    | start =>
        rw [pc] at stepped
        simp only [View.enter, map_eq_error_iff] at stepped
        exact .boot pc stepped
    | top =>
        rw [pc] at stepped
        cases got : iotbLcdEventGet input.events.set <;>
          rw [got] at stepped <;> cases stepped
    | dispatch event =>
        rw [pc] at stepped
        cases branch : served event scene.page with
        | switch target =>
            simp only [View.serve, branch, View.switch, View.enter,
              map_eq_error_iff] at stepped
            exact .switch pc branch stepped
        | leave left =>
            simp only [View.serve, branch] at stepped
            cases stepped
        | nothing =>
            simp only [View.serve, branch] at stepped
            cases stepped
    | refresh =>
        rw [pc] at stepped
        by_cases due : scene.Due
        · simp only [View.refresh, if_pos due, map_eq_error_iff] at stepped
          exact .due pc due stepped
        · simp only [View.refresh, if_neg due] at stepped
          cases stepped
    | delay =>
        rw [pc] at stepped
        cases stepped
  · intro move
    rw [viewStep]
    cases move with
    | boot pc shows =>
        rw [pc]
        simp only [View.enter, map_eq_error_iff]
        exact shows
    | switch pc branch shows =>
        rw [pc]
        simp only [View.serve, branch, View.switch, View.enter,
          map_eq_error_iff]
        exact shows
    | due pc due serves =>
        rw [pc]
        simp only [View.refresh, if_pos due, map_eq_error_iff]
        exact serves

/-! ## The page and its event along a run -/

/-- What holds of the page, its content and its event between two steps. -/
structure Coherent (scene : View) : Prop where
  range : scene.page = 1 ∨ scene.page = 2 ∨ scene.page = 3
  fresh : scene.pc = .start →
    scene.page = 1 ∧ scene.content = .contentNone
  shown : scene.pc ≠ .start → scene.content ≠ .contentNone
  dynamicEvent : scene.content = .dynamicContent →
    scene.event ≠ .enter ∧ scene.event ≠ .exit

theorem coherent_initial (card : Card) :
    Coherent (.initial card) := by
  constructor <;> simp [View.initial]

theorem coherent_preserved : Preserved viewStep Coherent := by
  intro input scene next coherent stepped
  cases move_of_step stepped with
  | boot pc shows => constructor <;> simp
  | poll pc got =>
      exact ⟨coherent.range, by simp,
        fun _ => coherent.shown (by simp [pc]), coherent.dynamicEvent⟩
  | timeout pc empty =>
      exact ⟨coherent.range, by simp,
        fun _ => coherent.shown (by simp [pc]), coherent.dynamicEvent⟩
  | switch pc branch shows =>
      have target := served_switch coherent.range branch
      exact ⟨target.1, by simp, by simp, by simp⟩
  | leave pc branch =>
      exact ⟨coherent.range, by simp, by simp,
        fun _ => served_leave branch⟩
  | ignore pc branch =>
      exact ⟨coherent.range, by simp,
        fun _ => coherent.shown (by simp [pc]), coherent.dynamicEvent⟩
  | due pc due serves =>
      refine ⟨coherent.range, by simp,
        fun _ => coherent.shown (by simp [pc]), fun _ => ?_⟩
      have kept := coherent.dynamicEvent due.1
      simp only [dueEvent]
      split
      · simp
      · exact kept
  | wait pc notDue =>
      exact ⟨coherent.range, by simp,
        fun _ => coherent.shown (by simp [pc]), coherent.dynamicEvent⟩
  | tick pc =>
      have shown := coherent.shown (by simp [pc])
      rw [View.tick]
      split
      · exact ⟨coherent.range, by simp, fun _ => shown,
          coherent.dynamicEvent⟩
      · exact ⟨coherent.range, by simp, fun _ => shown,
          coherent.dynamicEvent⟩

end InternetWavPlayer.Scene
