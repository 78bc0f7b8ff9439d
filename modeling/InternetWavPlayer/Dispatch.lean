import InternetWavPlayer.LcdThread

/-!
# What one pass of the LCD loop can do

The else-if chain, the hand-copied transition sequences and the periodic call
are brought to one form: a pass serves an event set by switching to a page, by
leaving an event in the active page, or not at all, and a due page gets its
handler called once.  The equations hold wherever the menu invariant does;
every later result about the thread starts from them.
-/

namespace InternetWavPlayer.Dispatch

open InternetWavPlayer.LcdEvent
open InternetWavPlayer.Display
open InternetWavPlayer.Songlist
open InternetWavPlayer.Webclient
open InternetWavPlayer.Pages
open InternetWavPlayer.LcdThread

/-! ## Menus -/

@[simp]
theorem active_setMenu
    (lcd : Lcd) (content : ContentType) (event : IotbLcdEvent) :
    (lcd.setMenu lcd.menuIndex content event).active =
      { lcd.active with contentType := content, currentEvent := event } := by
  simp [Lcd.active, Lcd.setMenu]

/-- Which menu is active, and that the others are at rest. -/
structure MenuInvariant (lcd : Lcd) : Prop where
  index_eq : lcd.menuIndex = lcd.iotbLcdMenuIndex
  index_range : 1 ≤ lcd.menuIndex ∧ lcd.menuIndex ≤ iotbLcdMenuMax
  handles : ∀ index,
    (lcd.lcdInstance index).lcdHandle = iotbLcdHandleArray index
  refreshTimes : ∀ index, 1 ≤ index → index ≤ iotbLcdMenuMax →
    (lcd.lcdInstance index).refreshTime = menuRefreshTime index
  others : ∀ index, index ≠ lcd.menuIndex →
    (lcd.lcdInstance index).contentType = .contentNone
  shown : lcd.active.contentType ≠ .contentNone
  dynamicEvent : lcd.active.contentType = .dynamicContent →
    lcd.active.currentEvent ≠ .enter ∧ lcd.active.currentEvent ≠ .exit

theorem MenuInvariant.index_cases {lcd : Lcd} (menus : MenuInvariant lcd) :
    lcd.menuIndex = 1 ∨ lcd.menuIndex = 2 ∨ lcd.menuIndex = 3 := by
  have range := menus.index_range
  simp only [iotbLcdMenuMax] at range
  omega

/-- The invariant looks only at the menus and the two indices. -/
theorem MenuInvariant.congr
    {lcd other : Lcd} (menus : MenuInvariant lcd)
    (index : other.menuIndex = lcd.menuIndex)
    (globalIndex : other.iotbLcdMenuIndex = lcd.iotbLcdMenuIndex)
    (instances : other.lcdInstance = lcd.lcdInstance) :
    MenuInvariant other := by
  have active : other.active = lcd.active := by
    rw [Lcd.active, Lcd.active, index, instances]
  constructor
  · rw [index, globalIndex]
    exact menus.index_eq
  · rw [index]
    exact menus.index_range
  · rw [instances]
    exact menus.handles
  · rw [instances]
    exact menus.refreshTimes
  · rw [index, instances]
    exact menus.others
  · rw [active]
    exact menus.shown
  · rw [active]
    exact menus.dynamicEvent

/-- Showing an event in the active page keeps the invariant. -/
theorem MenuInvariant.setMenu
    {lcd : Lcd} (menus : MenuInvariant lcd)
    (content : ContentType) (event : IotbLcdEvent)
    (shown : content ≠ .contentNone)
    (dynamicEvent : content = .dynamicContent →
      event ≠ .enter ∧ event ≠ .exit) :
    MenuInvariant (lcd.setMenu lcd.menuIndex content event) := by
  constructor
  · exact menus.index_eq
  · exact menus.index_range
  · intro index
    by_cases same : index = lcd.menuIndex
    · subst index
      simpa [Lcd.setMenu] using menus.handles lcd.menuIndex
    · simpa [Lcd.setMenu, Function.update_of_ne same] using
        menus.handles index
  · intro index low high
    by_cases same : index = lcd.menuIndex
    · subst index
      simpa [Lcd.setMenu] using menus.refreshTimes lcd.menuIndex low high
    · simpa [Lcd.setMenu, Function.update_of_ne same] using
        menus.refreshTimes index low high
  · intro index other
    have different : index ≠ lcd.menuIndex := other
    simpa [Lcd.setMenu, Function.update_of_ne different] using
      menus.others index different
  · rw [active_setMenu]
    exact shown
  · rw [active_setMenu]
    exact dynamicEvent

/-! ## Calling a handler -/

/-- A call through `lcd_handle`, when the page has a handler. -/
theorem callHandle_eq
    (env : Env) (lcd : Lcd) (handle : Handle)
    (known : lcd.active.lcdHandle = some handle) :
    callHandle env lcd =
      (handle.call env lcd.active
          (lcd.statics.log (.handler lcd.menuIndex
            lcd.active.contentType lcd.active.currentEvent))).map
        fun result =>
          { lcd.setMenu lcd.menuIndex lcd.active.contentType result.1 with
            statics := result.2 } := by
  rw [callHandle, known]
  dsimp only
  cases handle.call env lcd.active
      (lcd.statics.log (.handler lcd.menuIndex
        lcd.active.contentType lcd.active.currentEvent)) with
  | error fault => rfl
  | ok result => rfl

/-- What a page does on its exit; it never fails. -/
def exitStatics (env : Env) (page : Nat) (statics : Statics) : Statics :=
  match page with
  | 1 => statics.log (.player .wavplayerStop)
  | 2 => exitMusic statics
  | _ => statics.draw (drawDirectory env.directory)

/-- What a page does when it is shown: at start-up and on entry. -/
def showStatics (env : Env) (page : Nat) (event : IotbLcdEvent)
    (statics : Statics) : Except Fault Statics :=
  match page, event with
  | 1, _ =>
      (fetchPlaylist env.fetch (statics.draw drawWebServer)).map Prod.snd
  | 2, .enter =>
      enterMusic env (statics.draw (drawWavPlayer statics.volumeValue))
  | 2, _ => .ok (statics.draw (drawWavPlayer statics.volumeValue))
  | _, _ => do
      let statics := statics.draw drawFileSystem
      let playlist ← releasePlaylist statics.playlist
      return { statics with playlist := playlist }.draw
        (drawDirectory env.directory)

/-- The event that showing a page leaves in it. -/
def shownEvent (page : Nat) (event : IotbLcdEvent) : IotbLcdEvent :=
  if page = 2 then .none else event

/-- What a page with dynamic content does when it is due. -/
def dueStatics (env : Env) (page : Nat) (event : IotbLcdEvent)
    (statics : Statics) : Except Fault Statics :=
  match page, event with
  | 1, .nextsong => nextsong statics
  | 1, .lastsong => lastsong statics
  | 1, _ => .ok statics
  | 2, .wkupDoubleClick => playStop statics
  | 2, .key1DoubleClick => .ok (pauseResume statics)
  | 2, .key1Click => .ok (volumeDown statics)
  | 2, .wkupClick => .ok (volumeUp statics)
  | 2, _ => .ok statics
  | _, _ => .ok (statics.draw (drawDirectory env.directory))

/-- The events a due page reacts to. -/
def Handles (page : Nat) (event : IotbLcdEvent) : Bool :=
  match page, event with
  | 1, .nextsong => true
  | 1, .lastsong => true
  | 2, .wkupDoubleClick => true
  | 2, .key1DoubleClick => true
  | 2, .key1Click => true
  | 2, .wkupClick => true
  | _, _ => false

/-- The event that a due page leaves. -/
def dueEvent (page : Nat) (event : IotbLcdEvent) : IotbLcdEvent :=
  if Handles page event then .none else event

/-- The handler of page 1, 2 or 3. -/
def pageHandle (page : Nat) : Handle :=
  match page with
  | 1 => .showHttpwebserver
  | 2 => .showMusic
  | _ => .showSdcard

theorem MenuInvariant.active_handle
    {lcd : Lcd} (menus : MenuInvariant lcd) :
    lcd.active.lcdHandle = some (pageHandle lcd.menuIndex) := by
  rw [Lcd.active, menus.handles]
  rcases menus.index_cases with page | page | page <;>
    rw [page] <;> rfl

theorem call_exit
    (env : Env) (menu : Menu) (page : Nat) (statics : Statics)
    (range : page = 1 ∨ page = 2 ∨ page = 3)
    (content : menu.contentType = .contentNone)
    (event : menu.currentEvent = .exit) :
    (pageHandle page).call env menu statics =
      .ok (.exit, exitStatics env page statics) := by
  rcases range with rfl | rfl | rfl
  · simp [pageHandle, Handle.call, iotbLcdShowHttpwebserver,
      httpwebserverEvent, exitStatics, content, event]
  · simp [pageHandle, Handle.call, iotbLcdShowMusic, exitStatics,
      content, event]
  · simp [pageHandle, Handle.call, iotbLcdShowSdcard, exitStatics,
      content, event]
    rfl

theorem call_shown
    (env : Env) (menu : Menu) (page : Nat) (statics : Statics)
    (range : page = 1 ∨ page = 2 ∨ page = 3)
    (content : menu.contentType = .staticContent)
    (event : menu.currentEvent = .enter ∨ menu.currentEvent = .none) :
    (pageHandle page).call env menu statics =
      (showStatics env page menu.currentEvent statics).map fun shown =>
        (shownEvent page menu.currentEvent, shown) := by
  rcases range with rfl | rfl | rfl
  · simp only [pageHandle, Handle.call, iotbLcdShowHttpwebserver, content,
      or_true, ↓reduceIte, showStatics, shownEvent]
    cases fetchPlaylist env.fetch (statics.draw drawWebServer) with
    | error fault => rfl
    | ok fetched =>
        obtain ⟨reached, fetched⟩ := fetched
        cases reached with
        | false => rfl
        | true =>
            rcases event with event | event <;> rw [event] <;> rfl
  · simp only [pageHandle, Handle.call, iotbLcdShowMusic, content,
      ↓reduceIte]
    rcases event with event | event <;> rw [event]
    · simp only [showStatics, shownEvent, ↓reduceIte]
      cases enterMusic env
          (statics.draw (drawWavPlayer statics.volumeValue)) with
      | error fault => rfl
      | ok entered => rfl
    · rfl
  · simp only [pageHandle, Handle.call, iotbLcdShowSdcard, content,
      ↓reduceIte, showStatics, shownEvent]
    cases releasePlaylist (statics.draw drawFileSystem).playlist with
    | error fault => rfl
    | ok playlist => rfl

theorem call_due
    (env : Env) (menu : Menu) (page : Nat) (statics : Statics)
    (range : page = 1 ∨ page = 2 ∨ page = 3)
    (content : menu.contentType = .dynamicContent)
    (event : menu.currentEvent ≠ .enter ∧ menu.currentEvent ≠ .exit) :
    (pageHandle page).call env menu statics =
      (dueStatics env page menu.currentEvent statics).map fun done =>
        (dueEvent page menu.currentEvent, done) := by
  obtain ⟨notEnter, notExit⟩ := event
  rcases range with rfl | rfl | rfl
  · simp only [pageHandle, Handle.call, iotbLcdShowHttpwebserver, content,
      notEnter, reduceCtorEq, or_self, ↓reduceIte]
    cases current : menu.currentEvent with
    | exit => exact absurd current notExit
    | nextsong =>
        simp only [httpwebserverEvent, dueStatics]
        cases nextsong statics <;> rfl
    | lastsong =>
        simp only [httpwebserverEvent, dueStatics]
        cases lastsong statics <;> rfl
    | _ => rfl
  · simp only [pageHandle, Handle.call, iotbLcdShowMusic, content,
      reduceCtorEq, ↓reduceIte]
    cases current : menu.currentEvent with
    | enter => exact absurd current notEnter
    | exit => exact absurd current notExit
    | wkupDoubleClick =>
        simp only [dueStatics]
        cases playStop statics <;> rfl
    | _ => rfl
  · simp only [pageHandle, Handle.call, iotbLcdShowSdcard, content,
      reduceCtorEq, ↓reduceIte]
    cases menu.currentEvent <;> rfl

/-! ## Serving one event set -/

/-- What one pass of the else-if chain does for the active page. -/
inductive Served where
  | switch (target : Nat)
  | leave (event : IotbLcdEvent)
  | nothing
deriving DecidableEq, Repr

/-- The branch that an event set selects on a page. -/
def served (event : EventSet) (page : Nat) : Served :=
  if event.test .next then .switch (nextPage page)
  else if event.test .musicPlay then
    if page = 1 then .switch 2 else .nothing
  else if event.test .key2Click || event.test .key1Click ||
      event.test .wkupClick then
    if page = 1 then .leave (clickEvent1 event)
    else if page = 2 then
      if event.test .key2Click then .switch 1
      else if event.test .key1Click then .leave .key1Click
      else .leave .wkupClick
    else .nothing
  else if event.test .key2DoubleClick || event.test .key1DoubleClick ||
      event.test .wkupDoubleClick then
    .leave (doubleClickEvent event)
  else .nothing

/-- A switch goes to another page; page 2 is entered from page 1 only. -/
theorem served_switch
    {event : EventSet} {page target : Nat}
    (range : page = 1 ∨ page = 2 ∨ page = 3)
    (switched : served event page = .switch target) :
    (target = 1 ∨ target = 2 ∨ target = 3) ∧ target ≠ page ∧
      (target = 2 → page = 1) := by
  simp only [served] at switched
  rcases range with rfl | rfl | rfl <;>
    split_ifs at switched <;>
    simp_all [nextPage, succ8, iotbLcdMenuMax] <;>
    subst target <;> decide

/-- What is left in a page asks for no entry and no exit. -/
theorem served_leave
    {event : EventSet} {page : Nat} {left : IotbLcdEvent}
    (leaving : served event page = .leave left) :
    left ≠ .enter ∧ left ≠ .exit := by
  simp only [served, clickEvent1, doubleClickEvent] at leaving
  split_ifs at leaving <;> cases leaving <;> simp

/-- The common form of the three hand-copied transition sequences. -/
def switchPage (env : Env) (target : Nat) (lcd : Lcd) :
    Except Fault Lcd := do
  let lcd ← exitPage env lcd
  enterPage env target lcd

/-- The menus after a switch. -/
def switched (lcd : Lcd) (target : Nat) (statics : Statics) : Lcd where
  pc := lcd.pc
  menuIndex := target
  cnt := menuRefreshTime target
  iotbLcdMenuIndex := target
  lcdInstance := Function.update
    (Function.update lcd.lcdInstance lcd.menuIndex
      { lcd.active with contentType := .contentNone, currentEvent := .exit })
    target
    { lcd.lcdInstance target with
      contentType := .staticContent
      currentEvent := shownEvent target .enter }
  statics := statics

theorem exitPage_eq
    (env : Env) (lcd : Lcd) (menus : MenuInvariant lcd) :
    exitPage env lcd =
      .ok { lcd.setMenu lcd.menuIndex .contentNone .exit with
        statics := exitStatics env lcd.menuIndex
          (lcd.statics.log
            (.handler lcd.menuIndex .contentNone .exit)) } := by
  have same : ∀ index, index = lcd.menuIndex →
      { lcd with menuIndex := index } = lcd := by
    rintro index rfl
    rfl
  have known :
      (lcd.setMenu lcd.menuIndex .contentNone .exit).active.lcdHandle =
        some (pageHandle lcd.menuIndex) := by
    rw [active_setMenu]
    exact menus.active_handle
  rw [exitPage, same _ menus.index_eq.symm]
  dsimp only
  rw [callHandle_eq _ _ _ known,
    call_exit _ _ _ _ menus.index_cases (by simp) (by simp)]
  simp [Except.map, Lcd.setMenu, Lcd.active]

/-- A switch in one equation. -/
theorem switchPage_eq
    (env : Env) (lcd : Lcd) (target : Nat) (menus : MenuInvariant lcd)
    (range : target = 1 ∨ target = 2 ∨ target = 3)
    (other : target ≠ lcd.menuIndex) :
    switchPage env target lcd =
      (showStatics env target .enter
        ((exitStatics env lcd.menuIndex
            (lcd.statics.log
              (.handler lcd.menuIndex .contentNone .exit))).log
          (.handler target .staticContent .enter))).map
        (switched lcd target) := by
  have time : (lcd.lcdInstance target).refreshTime =
      menuRefreshTime target :=
    menus.refreshTimes target (by omega)
      (by simp only [iotbLcdMenuMax]; omega)
  have handle : iotbLcdHandleArray target = some (pageHandle target) := by
    rcases range with rfl | rfl | rfl <;> rfl
  rw [switchPage, exitPage_eq env lcd menus]
  simp only [enterPage, bind, Except.bind]
  rw [callHandle_eq _ _ (pageHandle target)]
  · rw [call_shown _ _ _ _ range (by simp [Lcd.active, Lcd.setMenu])
      (by simp [Lcd.active, Lcd.setMenu])]
    simp only [Lcd.active, Lcd.setMenu, Function.update_self]
    cases showStatics env target .enter
        ((exitStatics env lcd.menuIndex
            (lcd.statics.log
              (.handler lcd.menuIndex .contentNone .exit))).log
          (.handler target .staticContent .enter)) with
    | error fault => rfl
    | ok shown =>
        simp [Except.map, switched, Lcd.active,
          Function.update_of_ne other, time]
        rfl
  · simp only [Lcd.active, Lcd.setMenu, Function.update_self,
      Function.update_of_ne other]
    rw [menus.handles, handle]

/-- The else-if chain serves one event set in one of three ways. -/
theorem dispatch_eq
    (env : Env) (event : EventSet) (lcd : Lcd) (menus : MenuInvariant lcd)
    (noExit : event.test .exit = false) :
    dispatch env event lcd =
      match served event lcd.menuIndex with
      | .switch target => switchPage env target lcd
      | .leave left => .ok (lcd.setMenu lcd.menuIndex .dynamicContent left)
      | .nothing => .ok lcd := by
  have again : ∀ content before,
      exitPage env (lcd.setMenu lcd.menuIndex content before) =
        exitPage env lcd := by
    intro content before
    simp only [exitPage, Lcd.setMenu, ← menus.index_eq,
      Function.update_idem, Function.update_self]
  have exited := exitPage_eq env lcd menus
  simp only [dispatch, served, noExit, dispatchNext, dispatchMusicPlay,
    dispatchClick]
  rcases menus.index_cases with page | page | page <;>
    simp only [page] at exited again ⊢ <;>
    split_ifs <;>
    simp_all [switchPage, succ8, pred8, bind, Except.bind, Lcd.setMenu]

/-! ## Start-up and the periodic call -/

/-- The start-up call shows page 1. -/
theorem boot_eq
    (env : Env) (lcd : Lcd)
    (index : lcd.menuIndex = 1)
    (instances : lcd.lcdInstance = iotbLcdMenuInit) :
    boot env lcd =
      (showStatics env 1 .none
        (lcd.statics.log (.handler 1 .staticContent .none))).map
        fun shown =>
          { lcd.setMenu 1 .staticContent .none with statics := shown } := by
  have known :
      (lcd.setMenu 1 .staticContent .none).active.lcdHandle =
        some (pageHandle 1) := by
    simp [Lcd.active, Lcd.setMenu, index, instances, iotbLcdMenuInit,
      iotbLcdMenuMax, iotbLcdHandleArray, pageHandle]
  rw [boot, index, callHandle_eq _ _ _ known,
    call_shown _ _ _ _ (Or.inl rfl)
      (by simp [Lcd.active, Lcd.setMenu, index])
      (by simp [Lcd.active, Lcd.setMenu, index])]
  simp only [Lcd.active, Lcd.setMenu, index, Function.update_self]
  cases showStatics env 1 .none
      (lcd.statics.log (.handler 1 .staticContent .none)) with
  | error fault => rfl
  | ok shown => simp [Except.map, shownEvent]

/-- The periodic call serves the event left in the page. -/
theorem refresh_eq
    (env : Env) (lcd : Lcd) (menus : MenuInvariant lcd) :
    refresh env lcd =
      if lcd.Due then
        (dueStatics env lcd.menuIndex lcd.active.currentEvent
          (lcd.statics.log (.handler lcd.menuIndex .dynamicContent
            lcd.active.currentEvent))).map fun done =>
          { lcd.setMenu lcd.menuIndex .dynamicContent
              (dueEvent lcd.menuIndex lcd.active.currentEvent) with
            cnt := 0
            statics := done }
      else .ok lcd := by
  rw [refresh]
  split
  · rename_i due
    have active : ({ lcd with cnt := 0 } : Lcd).active = lcd.active := rfl
    have known : ({ lcd with cnt := 0 } : Lcd).active.lcdHandle =
        some (pageHandle lcd.menuIndex) :=
      menus.active_handle
    rw [callHandle_eq _ _ _ known, active, due.1]
    dsimp only
    rw [call_due _ _ _ _ menus.index_cases due.1
      (menus.dynamicEvent due.1)]
    cases dueStatics env lcd.menuIndex lcd.active.currentEvent
        (lcd.statics.log (.handler lcd.menuIndex .dynamicContent
          lcd.active.currentEvent)) with
    | error fault => rfl
    | ok done => rfl
  · rfl

/-! ## The menus along a run -/

theorem menuInit_handle (page : Nat) :
    (iotbLcdMenuInit page).lcdHandle = iotbLcdHandleArray page := by
  by_cases inside : 1 ≤ page ∧ page < iotbLcdMenuMax + 1
  · rw [iotbLcdMenuInit, if_pos inside]
  · rw [iotbLcdMenuInit, if_neg inside]
    simp only [iotbLcdMenuMax] at inside
    rcases page with _ | _ | _ | _ | page <;> first | rfl | omega

theorem menuInit_content (page : Nat) :
    (iotbLcdMenuInit page).contentType = .contentNone := by
  rw [iotbLcdMenuInit]
  split <;> rfl

theorem menuInit_refreshTime
    {page : Nat} (low : 1 ≤ page) (high : page ≤ iotbLcdMenuMax) :
    (iotbLcdMenuInit page).refreshTime = menuRefreshTime page := by
  rw [iotbLcdMenuInit, if_pos ⟨low, by omega⟩]

theorem menuInvariant_booted
    (lcd : Lcd) (shown : Statics)
    (index : lcd.menuIndex = 1) (globalIndex : lcd.iotbLcdMenuIndex = 1)
    (instances : lcd.lcdInstance = iotbLcdMenuInit) :
    MenuInvariant
      { lcd.setMenu 1 .staticContent .none with statics := shown } := by
  constructor
  · simp [Lcd.setMenu, index, globalIndex]
  · simp [Lcd.setMenu, index, iotbLcdMenuMax]
  · intro page
    by_cases one : page = 1
    · subst page
      simp [Lcd.setMenu, instances, iotbLcdMenuInit, iotbLcdMenuMax]
    · simp only [Lcd.setMenu, Function.update_of_ne one, instances]
      exact menuInit_handle page
  · intro page low high
    by_cases one : page = 1
    · subst page
      simp [Lcd.setMenu, instances, iotbLcdMenuInit, iotbLcdMenuMax]
    · simp only [Lcd.setMenu, Function.update_of_ne one, instances]
      exact menuInit_refreshTime low high
  · intro page other
    have notOne : page ≠ 1 := by
      simpa [Lcd.setMenu, index] using other
    simp only [Lcd.setMenu, Function.update_of_ne notOne, instances]
    exact menuInit_content page
  · simp [Lcd.active, Lcd.setMenu, index]
  · simp [Lcd.active, Lcd.setMenu, index]

theorem MenuInvariant.switched
    {lcd : Lcd} (menus : MenuInvariant lcd) {target : Nat}
    (range : target = 1 ∨ target = 2 ∨ target = 3)
    (statics : Statics) :
    MenuInvariant (switched lcd target statics) := by
  have unchanged : ∀ index,
      ((Dispatch.switched lcd target statics).lcdInstance
          index).lcdHandle = (lcd.lcdInstance index).lcdHandle ∧
        ((Dispatch.switched lcd target statics).lcdInstance
          index).refreshTime = (lcd.lcdInstance index).refreshTime := by
    intro index
    simp only [Dispatch.switched, Function.update_apply]
    split
    · subst index
      exact ⟨rfl, rfl⟩
    · split
      · subst index
        exact ⟨rfl, rfl⟩
      · exact ⟨rfl, rfl⟩
  constructor
  · rfl
  · simp only [Dispatch.switched, iotbLcdMenuMax]
    omega
  · intro index
    rw [(unchanged index).1]
    exact menus.handles index
  · intro index low high
    rw [(unchanged index).2]
    exact menus.refreshTimes index low high
  · intro index other
    simp only [Dispatch.switched] at other ⊢
    rw [Function.update_of_ne other]
    by_cases left : index = lcd.menuIndex
    · subst index
      simp
    · rw [Function.update_of_ne left]
      exact menus.others index left
  · simp [Dispatch.switched, Lcd.active]
  · simp [Dispatch.switched, Lcd.active]

/-- What holds of the thread between any two steps. -/
structure ThreadInvariant (lcd : Lcd) : Prop where
  fresh : lcd.pc = .start →
    lcd.menuIndex = 1 ∧ lcd.iotbLcdMenuIndex = 1 ∧
      lcd.lcdInstance = iotbLcdMenuInit
  menus : lcd.pc ≠ .start → MenuInvariant lcd
  postable : ∀ event, lcd.pc = .dispatch event →
    ∀ bit, event.test bit = true → Postable bit

theorem threadInvariant_initial (card : Card) :
    ThreadInvariant (.initial card) where
  fresh := by simp [Lcd.initial]
  menus := by simp [Lcd.initial]
  postable := by simp [Lcd.initial]

/-- A set polled from messages holds no `EXIT`. -/
theorem ThreadInvariant.noExit
    {lcd : Lcd} (thread : ThreadInvariant lcd) {event : EventSet}
    (dispatching : lcd.pc = .dispatch event) :
    event.test .exit = false := by
  rw [Bool.eq_false_iff]
  intro member
  exact not_postable_exit (thread.postable event dispatching .exit member)

theorem MenuInvariant.dispatched
    {env : Env} {event : EventSet} {lcd next : Lcd}
    (menus : MenuInvariant lcd) (noExit : event.test .exit = false)
    (stepped : dispatch env event lcd = .ok next) :
    MenuInvariant next := by
  rw [dispatch_eq env event lcd menus noExit] at stepped
  cases branch : served event lcd.menuIndex with
  | switch target =>
      obtain ⟨range, other, -⟩ := served_switch menus.index_cases branch
      simp only [branch] at stepped
      rw [switchPage_eq env lcd target menus range other] at stepped
      obtain ⟨statics, -, rfl⟩ := Run.map_eq_ok_iff.mp stepped
      exact menus.switched range statics
  | leave left =>
      simp only [branch] at stepped
      cases stepped
      exact menus.setMenu .dynamicContent left (by simp)
        fun _ => served_leave branch
  | nothing =>
      simp only [branch] at stepped
      cases stepped
      exact menus

theorem MenuInvariant.refreshed
    {env : Env} {lcd next : Lcd} (menus : MenuInvariant lcd)
    (stepped : refresh env lcd = .ok next) :
    MenuInvariant next := by
  rw [refresh_eq env lcd menus] at stepped
  split at stepped
  · rename_i due
    have kept := menus.dynamicEvent due.1
    obtain ⟨done, -, rfl⟩ := Run.map_eq_ok_iff.mp stepped
    refine (menus.setMenu .dynamicContent
      (dueEvent lcd.menuIndex lcd.active.currentEvent) (by simp)
        ?_).congr rfl rfl rfl
    intro _
    rw [dueEvent]
    split
    · simp
    · exact kept
  · cases stepped
    exact menus

theorem threadInvariant_preserved :
    Run.Preserved step ThreadInvariant := by
  intro input lcd next thread stepped
  rw [step, lcdStep] at stepped
  cases pc : lcd.pc with
  | start =>
      obtain ⟨index, globalIndex, instances⟩ := thread.fresh pc
      rw [pc] at stepped
      dsimp only at stepped
      rw [boot_eq input.env lcd index instances] at stepped
      obtain ⟨booted, shown, rfl⟩ := Run.map_eq_ok_iff.mp stepped
      obtain ⟨statics, -, rfl⟩ := Run.map_eq_ok_iff.mp shown
      refine ⟨by simp, fun _ => ?_, by simp⟩
      exact (menuInvariant_booted lcd statics index globalIndex
        instances).congr rfl rfl rfl
  | top =>
      have menus := thread.menus (by simp [pc])
      rw [pc] at stepped
      cases stepped
      rw [poll]
      split
      · rename_i event kept got
        refine ⟨by simp, fun _ => menus.congr rfl rfl rfl, ?_⟩
        intro polled equal bit member
        cases equal
        exact input.events.received_postable got member
      · exact ⟨by simp, fun _ => menus.congr rfl rfl rfl, by simp⟩
  | dispatch event =>
      have menus := thread.menus (by simp [pc])
      have noExit := thread.noExit pc
      rw [pc] at stepped
      dsimp only at stepped
      obtain ⟨done, served, rfl⟩ := Run.map_eq_ok_iff.mp stepped
      exact ⟨by simp,
        fun _ => (menus.dispatched noExit served).congr rfl rfl rfl,
        by simp⟩
  | refresh =>
      have menus := thread.menus (by simp [pc])
      rw [pc] at stepped
      dsimp only at stepped
      obtain ⟨done, called, rfl⟩ := Run.map_eq_ok_iff.mp stepped
      exact ⟨by simp,
        fun _ => (menus.refreshed called).congr rfl rfl rfl,
        by simp⟩
  | delay =>
      have menus := thread.menus (by simp [pc])
      rw [pc] at stepped
      cases stepped
      refine ⟨by simp, fun _ => ?_, by simp⟩
      rw [tick]
      split
      · exact menus.congr rfl rfl rfl
      · exact menus.congr rfl rfl rfl

end InternetWavPlayer.Dispatch
