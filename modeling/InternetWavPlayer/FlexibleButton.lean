import InternetWavPlayer.LcdEvent
import InternetWavPlayer.Run

/-!
# Scanning a key

`flex_button_scan` samples the level of a key and drives a machine with seven
states, which counts scans in 16 bits and calls the key's callback.  A callback
posts one message for each event but the press itself.  The keys do not share
any of the state kept here, so one key is followed.
-/

namespace InternetWavPlayer.FlexibleButton

open InternetWavPlayer.LcdEvent

/-- `flex_button_event_t`. -/
inductive FlexButtonEvent where
  | pressDown
  | click
  | doubleClick
  | shortStart
  | shortUp
  | longStart
  | longUp
  | longHold
  | longHoldUp
  | none
deriving DecidableEq, Repr

/-- `flex_button_t`, without what `user_button_init` sets once and for all. -/
structure FlexButton where
  event : FlexButtonEvent
  status : Nat
  scanCnt : Nat
  clickCnt : Nat
deriving DecidableEq, Repr

/-! ## What `user_button_init` sets for every key -/

def clickStartTick : Nat := 20
def shortPressStartTick : Nat := 100
def longPressStartTick : Nat := 200
def longHoldStartTick : Nat := 300

/-- `flex_button_register`. -/
def flexButtonRegister : FlexButton := ⟨.none, 0, 0, 0⟩

/-! ## `flex_button_process` -/

/-- The callback is executed for the event that the button now has. -/
abbrev Processed := FlexButton × Option FlexButtonEvent

/-- Set the status and the event, and execute the callback. -/
def FlexButton.execute (button : FlexButton) (status : Nat)
    (event : FlexButtonEvent) : Processed :=
  ({ button with status := status, event := event }, some event)

/-- Set the status only. -/
def FlexButton.goes (button : FlexButton) (status : Nat) : Processed :=
  ({ button with status := status }, Option.none)

/-- `case 0`, is default. -/
def caseDefault (trg : Bool) (target : FlexButton) : Processed :=
  if trg then
    { target with scanCnt := 0, clickCnt := 0 }.execute 1 .pressDown
  else ({ target with event := .none }, Option.none)

/-- `case 1`, is pressed. -/
def casePressed (cont : Bool) (target : FlexButton) : Processed :=
  if cont = false then target.goes 2
  else if target.scanCnt ≥ shortPressStartTick ∧
      target.scanCnt < longPressStartTick then
    target.execute 4 .shortStart
  else (target, Option.none)

/-- `case 2`, is up. -/
def caseUp (target : FlexButton) : Processed :=
  if target.scanCnt < clickStartTick then
    let target := { target with clickCnt := (target.clickCnt + 1) % 65536 }
    if target.clickCnt = 1 then target.goes 3
    else { target with clickCnt := 0 }.execute 0 .doubleClick
  else if target.scanCnt ≥ clickStartTick ∧
      target.scanCnt < shortPressStartTick then
    { target with clickCnt := 0 }.execute 0 .click
  else if target.scanCnt ≥ shortPressStartTick ∧
      target.scanCnt < longPressStartTick then
    { target with clickCnt := 0 }.execute 0 .shortUp
  else if target.scanCnt ≥ longPressStartTick ∧
      target.scanCnt < longHoldStartTick then
    { target with clickCnt := 0 }.execute 0 .longUp
  else if target.scanCnt ≥ longHoldStartTick then
    { target with clickCnt := 0 }.execute 0 .longHoldUp
  else (target, Option.none)

/-- `case 3`, double click check. -/
def caseDoubleClickCheck (trg : Bool) (target : FlexButton) : Processed :=
  if trg then
    { target with
      clickCnt := (target.clickCnt + 1) % 65536
      scanCnt := (target.scanCnt + 65535) % 65536 }.goes 2
  else if target.scanCnt ≥ clickStartTick then target.goes 2
  else (target, Option.none)

/-- `case 4`, is short pressed. -/
def caseShortPressed (cont : Bool) (target : FlexButton) : Processed :=
  if cont = false then target.goes 2
  else if target.scanCnt ≥ longPressStartTick ∧
      target.scanCnt < longHoldStartTick then
    target.execute 5 .longStart
  else (target, Option.none)

/-- `case 5`, is long pressed. -/
def caseLongPressed (cont : Bool) (target : FlexButton) : Processed :=
  if cont = false then target.goes 2
  else if target.scanCnt ≥ longHoldStartTick then
    target.execute 6 .longHold
  else (target, Option.none)

/-- `case 6`, is held. -/
def caseLongHold (cont : Bool) (target : FlexButton) : Processed :=
  if cont = false then target.goes 2
  else (target, Option.none)

/-- The count of scans, which goes on in every state but the first. -/
def FlexButton.count (target : FlexButton) : FlexButton :=
  if target.status > 0 then
    { target with scanCnt := (target.scanCnt + 1) % 65536 }
  else target

/-- `flex_button_process` for one key. -/
def flexButtonProcess (trg cont : Bool) (target : FlexButton) :
    Processed :=
  let target := target.count
  match target.status with
  | 0 => caseDefault trg target
  | 1 => casePressed cont target
  | 2 => caseUp target
  | 3 => caseDoubleClickCheck trg target
  | 4 => caseShortPressed cont target
  | 5 => caseLongPressed cont target
  | 6 => caseLongHold cont target
  | _ => (target, Option.none)

/-! ## The callbacks -/

/-- The message that a callback posts for an event. -/
def eventType : FlexButtonEvent → Option IotbEventType
  | .pressDown => Option.none
  | .click => some .keyClick
  | .doubleClick => some .keyDoubleClick
  | .shortStart => some .keyShortPressed
  | .shortUp => some .keyShortPressedUp
  | .longStart => some .keyLongPressed
  | .longUp => some .keyLongPressedUp
  | .longHold => some .keyLongHold
  | .longHoldUp => some .keyLongHoldUp
  | .none => Option.none

/-- The callback of a key that posts under a source. -/
def btnCb (eventSrc : IotbEventSrc) (event : FlexButtonEvent) :
    Option IotbEventMsg :=
  (eventType event).map fun eventType => ⟨eventSrc, eventType⟩

/-- `btn_0_cb`. -/
def btn0Cb : FlexButtonEvent → Option IotbEventMsg := btnCb .key0

/-- `btn_1_cb`. -/
def btn1Cb : FlexButtonEvent → Option IotbEventMsg := btnCb .key1

/-- `btn_2_cb`. -/
def btn2Cb : FlexButtonEvent → Option IotbEventMsg := btnCb .key2

/-- `btn_wkup_cb`. -/
def btnWkupCb : FlexButtonEvent → Option IotbEventMsg := btnCb .keywkup

/--
A key between two scans: its button, its bit of `cont`, and two logs, of the
messages posted through `iotb_event_put` and of the number of presses begun.
-/
structure Key where
  button : FlexButton
  cont : Bool
  posted : List IotbEventMsg
  begun : Nat

/-- A key that was registered and not scanned yet. -/
def Key.initial : Key := ⟨flexButtonRegister, false, [], 0⟩

/-- The bit of `trg`: the key is pressed and was not at the scan before. -/
def trg (pressed cont : Bool) : Bool :=
  pressed && (pressed ^^ cont)

/-- The rest of a scan, once it is known whether the key is pressed. -/
def processKey (eventSrc : IotbEventSrc) (pressed : Bool) (key : Key) :
    Key :=
  let trg := trg pressed key.cont
  let processed := flexButtonProcess trg pressed key.button
  { button := processed.1
    cont := pressed
    posted := key.posted ++ (processed.2.bind (btnCb eventSrc)).toList
    begun := if trg then key.begun + 1 else key.begun }

end InternetWavPlayer.FlexibleButton
