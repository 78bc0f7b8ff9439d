import InternetWavPlayer.Run
import InternetWavPlayer.Pages

/-!
# The LCD thread

`iotb_lcd_show` shows page 1 once and then loops: poll the event set, dispatch
what it received, call the handler of the active page if its content is dynamic
and due, wait, count.  One step of the machine below is one of these parts; the
other threads act between steps.

The machine is deterministic in its inputs: the event set a poll finds, and
what the outside decides while handlers run.
-/

namespace InternetWavPlayer.LcdThread

open InternetWavPlayer.LcdEvent
open InternetWavPlayer.Songlist
open InternetWavPlayer.Webclient
open InternetWavPlayer.Pages

/-- `IOTB_LCD_MENU_MAX`. -/
def iotbLcdMenuMax : Nat := 3

/-- `menu_refresh_time`; the fourth element has no initializer and is 0. -/
def menuRefreshTime : Nat → Nat
  | 0 => 5
  | 1 => 5
  | 2 => 5
  | _ => 0

/-- `iotb_lcd_handle_array`. -/
def iotbLcdHandleArray : Nat → Option Handle
  | 1 => some .showHttpwebserver
  | 2 => some .showMusic
  | 3 => some .showSdcard
  | _ => none

/--
`lcd_instance` after `iotb_lcd_menu_init`.  Element 0 is zero and is never
used; its zero event is written as `none`.
-/
def iotbLcdMenuInit (index : Nat) : Menu :=
  if 1 ≤ index ∧ index < iotbLcdMenuMax + 1 then
    { menu := index
      refreshTime := menuRefreshTime index
      contentType := .contentNone
      currentEvent := .none
      lcdHandle := iotbLcdHandleArray index }
  else
    { menu := 0
      refreshTime := 0
      contentType := .contentNone
      currentEvent := .none
      lcdHandle := none }

/-- Where the thread stands. -/
inductive Pc where
  | start
  | top
  | dispatch (event : EventSet)
  | refresh
  | delay
deriving DecidableEq, Repr

/-- The locals of `iotb_lcd_show`, the globals of the pages and the statics. -/
structure Lcd where
  pc : Pc
  menuIndex : Nat
  cnt : Nat
  iotbLcdMenuIndex : Nat
  lcdInstance : Nat → Menu
  statics : Statics

/-- The thread when it is created. -/
def Lcd.initial (card : Card) : Lcd where
  pc := .start
  menuIndex := 1
  cnt := 0
  iotbLcdMenuIndex := 1
  lcdInstance := iotbLcdMenuInit
  statics := .initial card

/-- The menu that `lcd_instance[menu_index]` names. -/
def Lcd.active (lcd : Lcd) : Menu :=
  lcd.lcdInstance lcd.menuIndex

/-- Set `content_type` and `current_event` of one page. -/
def Lcd.setMenu (lcd : Lcd) (index : Nat) (content : ContentType)
    (event : IotbLcdEvent) : Lcd :=
  { lcd with
    lcdInstance := Function.update lcd.lcdInstance index
      { lcd.lcdInstance index with
        contentType := content
        currentEvent := event } }

/--
`lcd_instance[menu_index].lcd_handle(&lcd_instance[menu_index])`.  The call is
entered in the trace before it runs.
-/
def callHandle (env : Env) (lcd : Lcd) : Except Fault Lcd :=
  match lcd.active.lcdHandle with
  | none => .error (.nullHandle lcd.menuIndex)
  | some handle => do
      let statics := lcd.statics.log
        (.handler lcd.menuIndex lcd.active.contentType
          lcd.active.currentEvent)
      let (event, statics) ← handle.call env lcd.active statics
      return { lcd.setMenu lcd.menuIndex lcd.active.contentType event with
        statics := statics }

/-- `uint8_t` increment and decrement. -/
def succ8 (index : Nat) : Nat := (index + 1) % 256
def pred8 (index : Nat) : Nat := (index + 255) % 256

/-- Leave the page that the global index names. -/
def exitPage (env : Env) (lcd : Lcd) : Except Fault Lcd :=
  let lcd := { lcd with menuIndex := lcd.iotbLcdMenuIndex }
  callHandle env (lcd.setMenu lcd.menuIndex .contentNone .exit)

/-- Make a page the active one and enter it. -/
def enterPage (env : Env) (menuIndex : Nat) (lcd : Lcd) :
    Except Fault Lcd := do
  let lcd :=
    { lcd with menuIndex := menuIndex, iotbLcdMenuIndex := menuIndex }
  let lcd ←
    callHandle env (lcd.setMenu menuIndex .staticContent .enter)
  return { lcd with cnt := lcd.active.refreshTime }

/-- The page after `index` for `IOTB_LCD_EVENT_NEXT`: page 2 is skipped. -/
def nextPage (index : Nat) : Nat :=
  let index := succ8 index
  let index := if index = 2 then succ8 index else index
  if index > iotbLcdMenuMax then 1 else index

/-- The branch for `IOTB_LCD_EVENT_NEXT`. -/
def dispatchNext (env : Env) (lcd : Lcd) : Except Fault Lcd := do
  let lcd ← exitPage env lcd
  enterPage env (nextPage lcd.menuIndex) lcd

/-- The branch for `IOTB_LCD_EVENT_MUSIC_PLAY`. -/
def dispatchMusicPlay (env : Env) (lcd : Lcd) : Except Fault Lcd :=
  if lcd.menuIndex = 1 then do
    let lcd ← exitPage env lcd
    enterPage env (succ8 lcd.menuIndex) lcd
  else .ok lcd

/-- The branch for `IOTB_LCD_EVENT_EXIT`, which no message asks for. -/
def dispatchExit (env : Env) (lcd : Lcd) : Except Fault Lcd := do
  let lcd ←
    callHandle env (lcd.setMenu lcd.menuIndex .contentNone .exit)
  return { lcd.setMenu lcd.menuIndex lcd.active.contentType .none with
    cnt := 0 }

/-- What a click of KEY2, KEY1 or WKUP leaves in page 1. -/
def clickEvent1 (event : EventSet) : IotbLcdEvent :=
  if event.test .key2Click then .download
  else if event.test .key1Click then .nextsong
  else .lastsong

/-- The branch for the clicks of KEY2, KEY1 and WKUP. -/
def dispatchClick (env : Env) (event : EventSet) (lcd : Lcd) :
    Except Fault Lcd :=
  if lcd.menuIndex = 1 then
    .ok (lcd.setMenu 1 .dynamicContent (clickEvent1 event))
  else if lcd.menuIndex = 2 then
    if event.test .key2Click then do
      let lcd ← exitPage env
        (lcd.setMenu 2 .dynamicContent (lcd.lcdInstance 2).currentEvent)
      enterPage env (pred8 lcd.menuIndex) lcd
    else if event.test .key1Click then
      .ok (lcd.setMenu 2 .dynamicContent .key1Click)
    else
      .ok (lcd.setMenu 2 .dynamicContent .wkupClick)
  else .ok lcd

/-- What a double click of KEY2, KEY1 or WKUP leaves in the active page. -/
def doubleClickEvent (event : EventSet) : IotbLcdEvent :=
  if event.test .key2DoubleClick then .key2DoubleClick
  else if event.test .key1DoubleClick then .key1DoubleClick
  else .wkupDoubleClick

/-- The else-if chain of `iotb_lcd_show`: one branch per poll. -/
def dispatch (env : Env) (event : EventSet) (lcd : Lcd) :
    Except Fault Lcd :=
  if event.test .next then dispatchNext env lcd
  else if event.test .musicPlay then dispatchMusicPlay env lcd
  else if event.test .exit then dispatchExit env lcd
  else if event.test .key2Click || event.test .key1Click ||
      event.test .wkupClick then
    dispatchClick env event lcd
  else if event.test .key2DoubleClick || event.test .key1DoubleClick ||
      event.test .wkupDoubleClick then
    .ok (lcd.setMenu lcd.menuIndex .dynamicContent
      (doubleClickEvent event))
  else .ok lcd

/-- The dynamic content of the active page is due. -/
def Lcd.Due (lcd : Lcd) : Prop :=
  lcd.active.contentType = .dynamicContent ∧
    lcd.cnt ≥ lcd.active.refreshTime

instance (lcd : Lcd) : Decidable lcd.Due :=
  inferInstanceAs (Decidable (_ ∧ _))

/-- The periodic call of the active page's handler. -/
def refresh (env : Env) (lcd : Lcd) : Except Fault Lcd :=
  if lcd.Due then callHandle env { lcd with cnt := 0 } else .ok lcd

/-- The counter after the delay. -/
def tick (lcd : Lcd) : Lcd :=
  if lcd.active.contentType = .dynamicContent then
    { lcd with cnt := (lcd.cnt + 1) % 65536 }
  else lcd

/-- The part of `iotb_lcd_show` before the loop. -/
def boot (env : Env) (lcd : Lcd) : Except Fault Lcd :=
  callHandle env (lcd.setMenu lcd.menuIndex .staticContent .none)

/-- The poll at the top of the loop, on what `lcd_event` holds. -/
def poll (set : EventSet) (lcd : Lcd) : Lcd :=
  match iotbLcdEventGet set with
  | some (event, _) => { lcd with pc := .dispatch event }
  | none => { lcd with pc := .refresh }

/-- One step of the thread. -/
def lcdStep (set : EventSet) (env : Env) (lcd : Lcd) :
    Except Fault Lcd :=
  match lcd.pc with
  | .start => do return { ← boot env lcd with pc := .top }
  | .top => .ok (poll set lcd)
  | .dispatch event => do
      return { ← dispatch env event lcd with pc := .refresh }
  | .refresh => do return { ← refresh env lcd with pc := .delay }
  | .delay => .ok { tick lcd with pc := .top }

/--
The input of a step: the set a poll finds, filled by messages only, and what
the outside decides.
-/
structure Input where
  events : PostedSet
  env : Env

/-- The thread as a machine driven by its inputs. -/
def step (input : Input) (lcd : Lcd) : Except Fault Lcd :=
  lcdStep input.events.set input.env lcd

/-- The set that one message leaves, given the event it is turned into. -/
def PostedSet.single (msg : IotbEventMsg) (event : IotbLcdEvent)
    (processed : iotbEventProcess msg = some event) : PostedSet :=
  ⟨iotbLcdEventPut 0#32 event, .put .empty ⟨msg, processed⟩⟩

end InternetWavPlayer.LcdThread
