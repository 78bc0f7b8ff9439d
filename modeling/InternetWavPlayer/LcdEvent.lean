import Mathlib.Tactic

/-!
# Key messages and the event set of the LCD thread

A key callback posts an `iotb_event_msg_t`; `iotb_event_process` turns the
messages it reacts to into one bit of the `rt_event` object `lcd_event`; the
LCD thread receives and clears all bits of that object in one poll.

The set is the 32-bit word of the kernel object.  Every later file talks about
it through `test`, the truth value of `event & IOTB_LCD_EVENT_...`.
-/

namespace InternetWavPlayer.LcdEvent

/-- `iotb_lcd_event_t`. -/
inductive IotbLcdEvent where
  | key2Click
  | key1Click
  | key0Click
  | wkupClick
  | key2DoubleClick
  | key1DoubleClick
  | key0DoubleClick
  | wkupDoubleClick
  | key2ShortPressed
  | key1ShortPressed
  | key0ShortPressed
  | wkupShortPressed
  | key2LongHold
  | key1LongHold
  | key0LongHold
  | wkupLongHold
  | none
  | enter
  | exit
  | next
  | nextsong
  | lastsong
  | download
  | musicPlay
deriving DecidableEq, Repr

/-- The position of the bit which stands for an event. -/
def IotbLcdEvent.bit : IotbLcdEvent → Nat
  | .key2Click => 0
  | .key1Click => 1
  | .key0Click => 2
  | .wkupClick => 3
  | .key2DoubleClick => 4
  | .key1DoubleClick => 5
  | .key0DoubleClick => 6
  | .wkupDoubleClick => 7
  | .key2ShortPressed => 8
  | .key1ShortPressed => 9
  | .key0ShortPressed => 10
  | .wkupShortPressed => 11
  | .key2LongHold => 12
  | .key1LongHold => 13
  | .key0LongHold => 14
  | .wkupLongHold => 15
  | .none => 16
  | .enter => 17
  | .exit => 18
  | .next => 19
  | .nextsong => 20
  | .lastsong => 21
  | .download => 22
  | .musicPlay => 23

theorem IotbLcdEvent.bit_injective :
    Function.Injective IotbLcdEvent.bit := by
  intro left right equal
  cases left <;> cases right <;> first | rfl | cases equal

theorem IotbLcdEvent.bit_lt (event : IotbLcdEvent) : event.bit < 32 := by
  cases event <;> decide

/-- The enumeration's value, `1u << bit`. -/
def IotbLcdEvent.mask (event : IotbLcdEvent) : BitVec 32 :=
  1#32 <<< event.bit

/-- The word kept by an `rt_event` object. -/
abbrev EventSet := BitVec 32

/-- The truth value of `set & event`. -/
def EventSet.test (set : EventSet) (event : IotbLcdEvent) : Bool :=
  set &&& event.mask != 0

theorem EventSet.test_eq_getLsbD (set : EventSet) (event : IotbLcdEvent) :
    EventSet.test set event = set.getLsbD event.bit := by
  have power : event.mask = BitVec.twoPow 32 event.bit := by
    cases event <;> rfl
  have nonzero : BitVec.twoPow 32 event.bit ≠ 0#32 := by
    cases event <;> decide
  rw [EventSet.test, power, BitVec.and_twoPow]
  cases set.getLsbD event.bit <;> simp [nonzero]

/-- `rt_event_send`: the bits are added to the set. -/
def rtEventSend (set bits : EventSet) : EventSet :=
  set ||| bits

/--
`rt_event_recv` with `RT_EVENT_FLAG_OR | RT_EVENT_FLAG_CLEAR` and no waiting:
the wanted bits that are set are handed over and cleared, and a set without
any of them is a timeout.
-/
def rtEventRecv (set wanted : EventSet) : Option (EventSet × EventSet) :=
  if set &&& wanted != 0 then
    some (set &&& wanted, set &&& ~~~wanted)
  else
    Option.none

/-- `iotb_lcd_event_put`. -/
def iotbLcdEventPut (set : EventSet) (event : IotbLcdEvent) : EventSet :=
  rtEventSend set event.mask

/-- The call `iotb_lcd_event_get((~IOTB_LCD_EVENT_NONE), &event, 1, 0)`. -/
def iotbLcdEventGet (set : EventSet) : Option (EventSet × EventSet) :=
  rtEventRecv set (~~~IotbLcdEvent.mask .none)

@[simp]
theorem test_zero (event : IotbLcdEvent) :
    EventSet.test 0#32 event = false := by
  simp [EventSet.test_eq_getLsbD]

theorem mask_getLsbD (event : IotbLcdEvent) (bit : Nat) :
    event.mask.getLsbD bit = decide (bit = event.bit) := by
  have bounded := event.bit_lt
  have power : event.mask = BitVec.twoPow 32 event.bit := by
    cases event <;> rfl
  rw [power, BitVec.getLsbD_twoPow]
  simp [bounded, eq_comm]

@[simp]
theorem test_put (set : EventSet) (added event : IotbLcdEvent) :
    EventSet.test (iotbLcdEventPut set added) event =
      (EventSet.test set event || decide (event = added)) := by
  rw [EventSet.test_eq_getLsbD, EventSet.test_eq_getLsbD,
    iotbLcdEventPut, rtEventSend, BitVec.getLsbD_or, mask_getLsbD]
  simp [IotbLcdEvent.bit_injective.eq_iff]

/-- What a poll hands over: every bit of the set but that of `NONE`. -/
theorem test_of_get
    {set received kept : EventSet}
    (got : iotbLcdEventGet set = some (received, kept))
    (event : IotbLcdEvent) :
    EventSet.test received event =
      (EventSet.test set event && decide (event ≠ .none)) := by
  have bounded := event.bit_lt
  rw [iotbLcdEventGet, rtEventRecv] at got
  split at got
  · obtain ⟨rfl, -⟩ := by simpa using got
    rw [EventSet.test_eq_getLsbD, EventSet.test_eq_getLsbD,
      BitVec.getLsbD_and, BitVec.getLsbD_not, mask_getLsbD]
    simp [bounded, IotbLcdEvent.bit_injective.eq_iff]
  · cases got

/-! ## Messages -/

/-- `iotb_event_src_t`. -/
inductive IotbEventSrc where
  | none
  | key0
  | key1
  | key2
  | keywkup
  | max
deriving DecidableEq, Repr

/-- `iotb_event_type_t`. -/
inductive IotbEventType where
  | none
  | keyClick
  | keyDoubleClick
  | keyShortPressed
  | keyShortPressedUp
  | keyLongPressed
  | keyLongPressedUp
  | keyLongHold
  | keyLongHoldUp
deriving DecidableEq, Repr

/-- `iotb_event_msg_t`, with its one `event` field flattened. -/
structure IotbEventMsg where
  eventSrc : IotbEventSrc
  eventType : IotbEventType
deriving DecidableEq, Repr

/--
The inner switch of `iotb_event_process` for one key: the events put for a
click, a double click, the start of a short press and a long hold.
-/
def keyEvent (click doubleClick shortPressed longHold : IotbLcdEvent) :
    IotbEventType → Option IotbLcdEvent
  | .keyClick => some click
  | .keyDoubleClick => some doubleClick
  | .keyShortPressed => some shortPressed
  | .keyShortPressedUp => Option.none
  | .keyLongPressed => Option.none
  | .keyLongPressedUp => Option.none
  | .keyLongHold => some longHold
  | .keyLongHoldUp => Option.none
  | .none => Option.none

/--
`iotb_event_process`: the event handed to `iotb_lcd_event_put`, if any.  A
click of KEY0 asks for the music page and its double click for the next page.
-/
def iotbEventProcess (msg : IotbEventMsg) : Option IotbLcdEvent :=
  match msg.eventSrc with
  | .key2 =>
      keyEvent .key2Click .key2DoubleClick .key2ShortPressed .key2LongHold
        msg.eventType
  | .key1 =>
      keyEvent .key1Click .key1DoubleClick .key1ShortPressed .key1LongHold
        msg.eventType
  | .key0 =>
      keyEvent .musicPlay .next .key0ShortPressed .key0LongHold
        msg.eventType
  | .keywkup =>
      keyEvent .wkupClick .wkupDoubleClick .wkupShortPressed .wkupLongHold
        msg.eventType
  | .none => Option.none
  | .max => Option.none

/-- The events that some message makes `iotb_event_process` put. -/
def Postable (event : IotbLcdEvent) : Prop :=
  ∃ msg, iotbEventProcess msg = some event

theorem not_postable_exit : ¬ Postable .exit := by
  rintro ⟨⟨source, kind⟩, posted⟩
  cases source <;> cases kind <;> cases posted

theorem not_postable_none : ¬ Postable .none := by
  rintro ⟨⟨source, kind⟩, posted⟩
  cases source <;> cases kind <;> cases posted

/-- The sets that calls of `iotb_event_process` build up between two polls. -/
inductive Posted : EventSet → Prop where
  | empty : Posted 0#32
  | put {set : EventSet} {event : IotbLcdEvent}
      (earlier : Posted set) (postable : Postable event) :
      Posted (iotbLcdEventPut set event)

theorem Posted.postable
    {set : EventSet} (posted : Posted set)
    {event : IotbLcdEvent} (member : EventSet.test set event = true) :
    Postable event := by
  induction posted with
  | empty => simp at member
  | put earlier postable induction =>
      rw [test_put, Bool.or_eq_true, decide_eq_true_eq] at member
      rcases member with older | rfl
      · exact induction older
      · exact postable

theorem key0Click_processed :
    iotbEventProcess ⟨.key0, .keyClick⟩ = some .musicPlay :=
  rfl

theorem key0DoubleClick_processed :
    iotbEventProcess ⟨.key0, .keyDoubleClick⟩ = some .next :=
  rfl

theorem key2Click_processed :
    iotbEventProcess ⟨.key2, .keyClick⟩ = some .key2Click :=
  rfl

/-- An event set together with the proof that only messages filled it. -/
structure PostedSet where
  set : EventSet
  posted : Posted set

theorem PostedSet.received_postable
    (events : PostedSet) {received kept : EventSet}
    (got : iotbLcdEventGet events.set = some (received, kept))
    {event : IotbLcdEvent}
    (member : EventSet.test received event = true) :
    Postable event := by
  rw [test_of_get got, Bool.and_eq_true] at member
  exact events.posted.postable member.1

end InternetWavPlayer.LcdEvent
