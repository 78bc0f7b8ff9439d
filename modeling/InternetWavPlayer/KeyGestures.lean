import InternetWavPlayer.FlexibleButton
import InternetWavPlayer.Gestures

/-!
# The gestures that a key posts

While the machine of a key runs, the event of its button tells which gesture
it has announced, and the count of scans tells how the release will be
classified.  The two agree but for releases at a threshold and for holds that
outlast the counter, and a press in the scan of a classification is not seen.
-/

namespace InternetWavPlayer.KeyGestures

open InternetWavPlayer.Run
open InternetWavPlayer.LcdEvent
open InternetWavPlayer.FlexibleButton
open InternetWavPlayer.Gestures

/-- The types of the messages that a key posted. -/
def messages (key : Key) : List IotbEventType :=
  key.posted.map IotbEventMsg.eventType

/-- The presses that the machine has still to classify. -/
def pending (button : FlexButton) : Nat :=
  (if button.event = .pressDown ∧ button.status ≠ 0 then 1 else 0) +
    if button.status = 2 ∧ button.clickCnt = 2 then 1 else 0

/-- The count of a release fits what was announced for the press. -/
def Fits (button : FlexButton) : Prop :=
  match button.event with
  | .pressDown =>
      button.scanCnt < shortPressStartTick ∧
        (button.clickCnt = 2 → button.scanCnt < clickStartTick)
  | .shortStart =>
      shortPressStartTick ≤ button.scanCnt ∧
        button.scanCnt < longPressStartTick
  | .longStart =>
      longPressStartTick ≤ button.scanCnt ∧
        button.scanCnt < longHoldStartTick
  | .longHold =>
      longHoldStartTick ≤ button.scanCnt ∨
        button.scanCnt < clickStartTick ∧ button.clickCnt = 0
  | _ => True

/--
In a scan that classifies a release no press begins, and the count fits what
was announced.
-/
def Classifies (pressed : Bool) (key : Key) : Prop :=
  key.button.status = 2 →
    trg pressed key.cont = false ∧ Fits key.button.count

/-! ## The states of the machine -/

/-- The gestures during which the machine may look for a second click. -/
inductive Clicking : FlexButtonEvent → Progress → Prop where
  | press : Clicking .pressDown .closed
  /-- The count of a long hold has run over. -/
  | overrun : Clicking .longHold .hold

/-- The button, the bit of `cont` and the open gesture that go together. -/
inductive Matches : FlexButton → Bool → Progress → Prop where
  | default (event : FlexButtonEvent) (scanCnt clickCnt : Nat)
      (cont : Bool) :
      Matches ⟨event, 0, scanCnt, clickCnt⟩ cont .closed
  | pressed {scanCnt : Nat} (short : scanCnt < 100) :
      Matches ⟨.pressDown, 1, scanCnt, 0⟩ true .closed
  | released {scanCnt : Nat} (short : scanCnt ≤ 100) :
      Matches ⟨.pressDown, 2, scanCnt, 0⟩ false .closed
  | check {event : FlexButtonEvent} {progress : Progress}
      (clicking : Clicking event progress) {scanCnt : Nat}
      (short : scanCnt < 20) (cont : Bool) :
      Matches ⟨event, 3, scanCnt, 1⟩ cont progress
  | once {event : FlexButtonEvent} {progress : Progress}
      (clicking : Clicking event progress) (cont : Bool) :
      Matches ⟨event, 2, 20, 1⟩ cont progress
  | twice {event : FlexButtonEvent} {progress : Progress}
      (clicking : Clicking event progress) {scanCnt : Nat}
      (short : scanCnt < 20) :
      Matches ⟨event, 2, scanCnt, 2⟩ true progress
  | shortPressed {scanCnt : Nat}
      (bounds : 100 ≤ scanCnt ∧ scanCnt < 200) :
      Matches ⟨.shortStart, 4, scanCnt, 0⟩ true .short
  | shortReleased {scanCnt : Nat}
      (bounds : 100 ≤ scanCnt ∧ scanCnt ≤ 200) :
      Matches ⟨.shortStart, 2, scanCnt, 0⟩ false .short
  | longPressed {scanCnt : Nat}
      (bounds : 200 ≤ scanCnt ∧ scanCnt < 300) :
      Matches ⟨.longStart, 5, scanCnt, 0⟩ true .long
  | longReleased {scanCnt : Nat}
      (bounds : 200 ≤ scanCnt ∧ scanCnt ≤ 300) :
      Matches ⟨.longStart, 2, scanCnt, 0⟩ false .long
  | held {scanCnt : Nat} (bits : scanCnt < 65536) :
      Matches ⟨.longHold, 6, scanCnt, 0⟩ true .hold
  | holdReleased {scanCnt : Nat} (bits : scanCnt < 65536) :
      Matches ⟨.longHold, 2, scanCnt, 0⟩ false .hold

/--
The messages read to the open gesture, the machine goes with it, and of the
presses begun so many are neither answered nor to be classified.
-/
structure Tracks (key : Key) (progress : Progress) (lost : Nat) :
    Prop where
  read : Progress.closed.read (messages key) = some progress
  button : Matches key.button key.cont progress
  begun : key.begun =
    answered (messages key) + pending key.button + lost

/--
A scan that classifies as announced loses no press.  One that does not loses
one or posts a message that the open gesture cannot take.
-/
def Follows (pressed : Bool) (key after : Key) (lost : Nat) : Prop :=
  (¬ Classifies pressed key ∧
      Progress.closed.read (messages after) = none) ∨
    ∃ progress lostAfter, Tracks after progress lostAfter ∧
      lost ≤ lostAfter ∧ (Classifies pressed key ↔ lostAfter = lost)

theorem messages_processKey
    (eventSrc : IotbEventSrc) (pressed : Bool) (key : Key) :
    messages (processKey eventSrc pressed key) =
      messages key ++
        ((flexButtonProcess (trg pressed key.cont) pressed
          key.button).2.bind eventType).toList := by
  rw [messages, messages, processKey]
  show List.map _ (key.posted ++ _) = _
  rw [List.map_append]
  congr 1
  cases (flexButtonProcess (trg pressed key.cont) pressed
    key.button).2 with
  | none => rfl
  | some event => cases event <;> rfl

section Follows

variable {eventSrc : IotbEventSrc} {pressed : Bool} {key : Key}
  {progress : Progress} {lost : Nat}

/-- A scan that posts nothing. -/
theorem follows_silent
    (tracks : Tracks key progress lost) (button : FlexButton)
    (event : Option FlexButtonEvent)
    (processed : flexButtonProcess (trg pressed key.cont) pressed
      key.button = (button, event))
    (silent : event.bind eventType = none)
    (after : Matches button pressed progress) (loses : Nat)
    (sum : (trg pressed key.cont).toNat + pending key.button =
      pending button + loses)
    (exactly : Classifies pressed key ↔ loses = 0) :
    Follows pressed key (processKey eventSrc pressed key) lost := by
  have same : messages (processKey eventSrc pressed key) =
      messages key := by
    rw [messages_processKey, processed]
    show messages key ++ (event.bind eventType).toList = messages key
    rw [silent]
    exact List.append_nil _
  refine Or.inr ⟨progress, lost + loses, ⟨?_, ?_, ?_⟩,
    Nat.le_add_right _ _, ?_⟩
  · rw [same]
    exact tracks.read
  · show Matches (flexButtonProcess _ pressed key.button).1 pressed
      progress
    rw [processed]
    exact after
  · rw [same]
    show (if trg pressed key.cont then key.begun + 1 else key.begun) =
      answered (messages key) +
        pending (flexButtonProcess _ pressed key.button).1 + (lost + loses)
    rw [processed]
    have begun := tracks.begun
    cases fresh : trg pressed key.cont with
    | false =>
        rw [fresh] at sum
        simp only [Bool.toNat_false, Bool.false_eq_true, if_false]
          at sum ⊢
        omega
    | true =>
        rw [fresh] at sum
        simp only [Bool.toNat_true, if_true] at sum ⊢
        omega
  · rw [exactly]
    omega

/-- A scan that posts a message which the open gesture takes. -/
theorem follows_posted
    (tracks : Tracks key progress lost) (button : FlexButton)
    (event : FlexButtonEvent)
    {message : IotbEventType} {next : Progress}
    (processed : flexButtonProcess (trg pressed key.cont) pressed
      key.button = (button, some event))
    (posts : eventType event = some message)
    (takes : progress.next message = some next)
    (after : Matches button pressed next) (loses : Nat)
    (sum : (trg pressed key.cont).toNat + pending key.button =
      presses message + pending button + loses)
    (exactly : Classifies pressed key ↔ loses = 0) :
    Follows pressed key (processKey eventSrc pressed key) lost := by
  have more : messages (processKey eventSrc pressed key) =
      messages key ++ [message] := by
    rw [messages_processKey, processed]
    show messages key ++ (eventType event).toList = _
    rw [posts]
    rfl
  refine Or.inr ⟨next, lost + loses, ⟨?_, ?_, ?_⟩,
    Nat.le_add_right _ _, ?_⟩
  · rw [more, Progress.read_concat, tracks.read]
    exact takes
  · show Matches (flexButtonProcess _ pressed key.button).1 pressed next
    rw [processed]
    exact after
  · rw [more, answered_append]
    show (if trg pressed key.cont then key.begun + 1 else key.begun) =
      answered (messages key) + (presses message + 0) +
        pending (flexButtonProcess _ pressed key.button).1 + (lost + loses)
    rw [processed]
    have begun := tracks.begun
    cases fresh : trg pressed key.cont with
    | false =>
        rw [fresh] at sum
        simp only [Bool.toNat_false, Bool.false_eq_true, if_false]
          at sum ⊢
        omega
    | true =>
        rw [fresh] at sum
        simp only [Bool.toNat_true, if_true] at sum ⊢
        omega
  · rw [exactly]
    omega

/-- A scan that posts a message which the open gesture does not take. -/
theorem follows_stuck
    (tracks : Tracks key progress lost) (button : FlexButton)
    (event : FlexButtonEvent)
    {message : IotbEventType}
    (processed : flexButtonProcess (trg pressed key.cont) pressed
      key.button = (button, some event))
    (posts : eventType event = some message)
    (refuses : progress.next message = none)
    (misses : ¬ Classifies pressed key) :
    Follows pressed key (processKey eventSrc pressed key) lost := by
  refine Or.inl ⟨misses, ?_⟩
  rw [messages_processKey, processed, Progress.read_append, tracks.read]
  show progress.read (eventType event).toList = none
  rw [posts]
  show (progress.next message).bind _ = none
  rw [refuses]
  rfl

end Follows

/-! ## One scan in each state -/

section Scans

variable {eventSrc : IotbEventSrc} {pressed cont : Bool}
  {posted : List IotbEventMsg} {begun lost : Nat}
  {event : FlexButtonEvent} {progress : Progress}
  {scanCnt clickCnt : Nat}

/-- Nothing is classified outside the state `case 2`. -/
theorem classifies_of_status
    {key : Key} (other : key.button.status ≠ 2) :
    Classifies pressed key :=
  fun classifying => absurd classifying other

theorem trg_eq (pressed cont : Bool) :
    trg pressed cont = (pressed && !cont) := by
  cases pressed <;> cases cont <;> rfl

theorem follows_default
    (tracks : Tracks ⟨⟨event, 0, scanCnt, clickCnt⟩, cont, posted, begun⟩
      .closed lost) :
    Follows pressed ⟨⟨event, 0, scanCnt, clickCnt⟩, cont, posted, begun⟩
      (processKey eventSrc pressed
        ⟨⟨event, 0, scanCnt, clickCnt⟩, cont, posted, begun⟩) lost := by
  have classifies : Classifies pressed
      ⟨⟨event, 0, scanCnt, clickCnt⟩, cont, posted, begun⟩ :=
    classifies_of_status (by simp)
  cases fresh : trg pressed cont with
  | false =>
      apply follows_silent tracks ⟨.none, 0, scanCnt, clickCnt⟩ none
        (by rw [fresh]; rfl) rfl (.default ..) 0
        (by simp [fresh, pending])
      exact iff_of_true classifies rfl
  | true =>
      have down : pressed = true := by
        rw [trg_eq, Bool.and_eq_true] at fresh
        exact fresh.1
      subst down
      apply follows_silent tracks ⟨.pressDown, 1, 0, 0⟩
        (some .pressDown) (by rw [fresh]; rfl) rfl
        (.pressed (by decide)) 0 (by simp [fresh, pending])
      exact iff_of_true classifies rfl

theorem follows_pressed
    (short : scanCnt < 100)
    (tracks : Tracks ⟨⟨.pressDown, 1, scanCnt, 0⟩, true, posted, begun⟩
      .closed lost) :
    Follows pressed ⟨⟨.pressDown, 1, scanCnt, 0⟩, true, posted, begun⟩
      (processKey eventSrc pressed
        ⟨⟨.pressDown, 1, scanCnt, 0⟩, true, posted, begun⟩) lost := by
  have classifies : Classifies pressed
      ⟨⟨.pressDown, 1, scanCnt, 0⟩, true, posted, begun⟩ :=
    classifies_of_status (by simp)
  have count : (scanCnt + 1) % 65536 = scanCnt + 1 := by omega
  cases pressed with
  | false =>
      apply follows_silent tracks ⟨.pressDown, 2, scanCnt + 1, 0⟩ none
        (by simp [flexButtonProcess, FlexButton.count, casePressed,
          FlexButton.goes, count]) rfl (.released short) 0
        (by simp [trg_eq, pending])
      exact iff_of_true classifies rfl
  | true =>
      by_cases starts : scanCnt + 1 = 100
      · apply follows_posted tracks ⟨.shortStart, 4, scanCnt + 1, 0⟩
          .shortStart (by
            simp [flexButtonProcess, FlexButton.count, casePressed,
              FlexButton.execute, shortPressStartTick,
              longPressStartTick, starts]) rfl rfl
          (.shortPressed (by omega)) 0 (by simp [trg_eq, pending, presses])
        exact iff_of_true classifies rfl
      · have early : ¬ 100 ≤ scanCnt + 1 := by omega
        apply follows_silent tracks ⟨.pressDown, 1, scanCnt + 1, 0⟩ none
          (by simp [flexButtonProcess, FlexButton.count, casePressed,
            shortPressStartTick, count, early]) rfl
          (.pressed (by omega)) 0 (by simp [trg_eq, pending])
        exact iff_of_true classifies rfl

theorem follows_shortPressed
    (bounds : 100 ≤ scanCnt ∧ scanCnt < 200)
    (tracks : Tracks ⟨⟨.shortStart, 4, scanCnt, 0⟩, true, posted, begun⟩
      .short lost) :
    Follows pressed ⟨⟨.shortStart, 4, scanCnt, 0⟩, true, posted, begun⟩
      (processKey eventSrc pressed
        ⟨⟨.shortStart, 4, scanCnt, 0⟩, true, posted, begun⟩) lost := by
  have classifies : Classifies pressed
      ⟨⟨.shortStart, 4, scanCnt, 0⟩, true, posted, begun⟩ :=
    classifies_of_status (by simp)
  have count : (scanCnt + 1) % 65536 = scanCnt + 1 := by omega
  cases pressed with
  | false =>
      apply follows_silent tracks ⟨.shortStart, 2, scanCnt + 1, 0⟩ none
        (by simp [flexButtonProcess, FlexButton.count, caseShortPressed,
          FlexButton.goes, count]) rfl (.shortReleased (by omega)) 0
        (by simp [trg_eq, pending])
      exact iff_of_true classifies rfl
  | true =>
      by_cases starts : scanCnt + 1 = 200
      · apply follows_posted tracks ⟨.longStart, 5, scanCnt + 1, 0⟩
          .longStart (by
            simp [flexButtonProcess, FlexButton.count, caseShortPressed,
              FlexButton.execute, longPressStartTick,
              longHoldStartTick, starts]) rfl rfl
          (.longPressed (by omega)) 0 (by simp [trg_eq, pending, presses])
        exact iff_of_true classifies rfl
      · have early : ¬ 200 ≤ scanCnt + 1 := by omega
        apply follows_silent tracks ⟨.shortStart, 4, scanCnt + 1, 0⟩ none
          (by simp [flexButtonProcess, FlexButton.count, caseShortPressed,
            longPressStartTick, count, early]) rfl
          (.shortPressed (by omega)) 0 (by simp [trg_eq, pending])
        exact iff_of_true classifies rfl

theorem follows_longPressed
    (bounds : 200 ≤ scanCnt ∧ scanCnt < 300)
    (tracks : Tracks ⟨⟨.longStart, 5, scanCnt, 0⟩, true, posted, begun⟩
      .long lost) :
    Follows pressed ⟨⟨.longStart, 5, scanCnt, 0⟩, true, posted, begun⟩
      (processKey eventSrc pressed
        ⟨⟨.longStart, 5, scanCnt, 0⟩, true, posted, begun⟩) lost := by
  have classifies : Classifies pressed
      ⟨⟨.longStart, 5, scanCnt, 0⟩, true, posted, begun⟩ :=
    classifies_of_status (by simp)
  have count : (scanCnt + 1) % 65536 = scanCnt + 1 := by omega
  cases pressed with
  | false =>
      apply follows_silent tracks ⟨.longStart, 2, scanCnt + 1, 0⟩ none
        (by simp [flexButtonProcess, FlexButton.count, caseLongPressed,
          FlexButton.goes, count]) rfl (.longReleased (by omega)) 0
        (by simp [trg_eq, pending])
      exact iff_of_true classifies rfl
  | true =>
      by_cases starts : scanCnt + 1 = 300
      · apply follows_posted tracks ⟨.longHold, 6, scanCnt + 1, 0⟩
          .longHold (by
            simp [flexButtonProcess, FlexButton.count, caseLongPressed,
              FlexButton.execute, longHoldStartTick, starts]) rfl rfl
          (.held (by omega)) 0 (by simp [trg_eq, pending, presses])
        exact iff_of_true classifies rfl
      · have early : ¬ 300 ≤ scanCnt + 1 := by omega
        apply follows_silent tracks ⟨.longStart, 5, scanCnt + 1, 0⟩ none
          (by simp [flexButtonProcess, FlexButton.count, caseLongPressed,
            longHoldStartTick, count, early]) rfl
          (.longPressed (by omega)) 0 (by simp [trg_eq, pending])
        exact iff_of_true classifies rfl

theorem follows_held
    (tracks : Tracks ⟨⟨.longHold, 6, scanCnt, 0⟩, true, posted, begun⟩
      .hold lost) :
    Follows pressed ⟨⟨.longHold, 6, scanCnt, 0⟩, true, posted, begun⟩
      (processKey eventSrc pressed
        ⟨⟨.longHold, 6, scanCnt, 0⟩, true, posted, begun⟩) lost := by
  have classifies : Classifies pressed
      ⟨⟨.longHold, 6, scanCnt, 0⟩, true, posted, begun⟩ :=
    classifies_of_status (by simp)
  have bits : (scanCnt + 1) % 65536 < 65536 := Nat.mod_lt _ (by decide)
  cases pressed with
  | false =>
      apply follows_silent tracks
        ⟨.longHold, 2, (scanCnt + 1) % 65536, 0⟩ none rfl rfl
        (.holdReleased bits) 0 (by simp [trg_eq, pending])
      exact iff_of_true classifies rfl
  | true =>
      apply follows_silent tracks
        ⟨.longHold, 6, (scanCnt + 1) % 65536, 0⟩ none rfl rfl
        (.held bits) 0 (by simp [trg_eq, pending])
      exact iff_of_true classifies rfl

theorem follows_check
    (clicking : Clicking event progress) (short : scanCnt < 20)
    (tracks : Tracks ⟨⟨event, 3, scanCnt, 1⟩, cont, posted, begun⟩
      progress lost) :
    Follows pressed ⟨⟨event, 3, scanCnt, 1⟩, cont, posted, begun⟩
      (processKey eventSrc pressed
        ⟨⟨event, 3, scanCnt, 1⟩, cont, posted, begun⟩) lost := by
  have classifies : Classifies pressed
      ⟨⟨event, 3, scanCnt, 1⟩, cont, posted, begun⟩ :=
    classifies_of_status (by simp)
  have count : (scanCnt + 1) % 65536 = scanCnt + 1 := by omega
  have back : (scanCnt + 1 + 65535) % 65536 = scanCnt := by omega
  cases fresh : trg pressed cont with
  | true =>
      have down : pressed = true := by
        rw [trg_eq, Bool.and_eq_true] at fresh
        exact fresh.1
      subst down
      apply follows_silent tracks ⟨event, 2, scanCnt, 2⟩ none
        (by simp [flexButtonProcess, FlexButton.count, fresh,
          caseDoubleClickCheck, FlexButton.goes, count, back]) rfl
        (.twice clicking short) 0
        (by cases clicking <;> simp [fresh, pending])
      exact iff_of_true classifies rfl
  | false =>
      by_cases last : scanCnt + 1 = 20
      · apply follows_silent tracks ⟨event, 2, 20, 1⟩ none
          (by simp [flexButtonProcess, FlexButton.count, fresh,
            caseDoubleClickCheck, FlexButton.goes, clickStartTick,
            last]) rfl
          (.once clicking pressed) 0
          (by cases clicking <;> simp [fresh, pending])
        exact iff_of_true classifies rfl
      · have early : ¬ 20 ≤ scanCnt + 1 := by omega
        apply follows_silent tracks ⟨event, 3, scanCnt + 1, 1⟩ none
          (by simp [flexButtonProcess, FlexButton.count, fresh,
            caseDoubleClickCheck, clickStartTick, count, early]) rfl
          (.check clicking (by omega) pressed) 0
          (by cases clicking <;> simp [fresh, pending])
        exact iff_of_true classifies rfl

/-! ## One scan that classifies a release -/

/-- The event for a release with a count beyond the clicks. -/
def upEvent (scanCnt : Nat) : FlexButtonEvent :=
  if scanCnt < 100 then .click
  else if scanCnt < 200 then .shortUp
  else if scanCnt < 300 then .longUp
  else .longHoldUp

theorem caseUp_late (late : 20 ≤ scanCnt) :
    caseUp ⟨event, 2, scanCnt, clickCnt⟩ =
      (⟨upEvent scanCnt, 0, scanCnt, 0⟩, some (upEvent scanCnt)) := by
  have early : ¬ scanCnt < 20 := by omega
  simp only [caseUp, upEvent, FlexButton.execute, clickStartTick,
    shortPressStartTick, longPressStartTick, longHoldStartTick, early,
    if_false]
  by_cases click : scanCnt < 100
  · simp [click, late]
  · by_cases short : scanCnt < 200
    · have from100 : 100 ≤ scanCnt := by omega
      simp [click, short, from100]
    · by_cases long : scanCnt < 300
      · have from200 : 200 ≤ scanCnt := by omega
        simp [click, short, long, from200]
      · have from300 : 300 ≤ scanCnt := by omega
        simp [click, short, long, from300]

theorem caseUp_first (early : scanCnt < 20) :
    caseUp ⟨event, 2, scanCnt, 0⟩ = (⟨event, 3, scanCnt, 1⟩, none) := by
  simp [caseUp, FlexButton.goes, clickStartTick, early]

theorem caseUp_second (early : scanCnt < 20) :
    caseUp ⟨event, 2, scanCnt, 2⟩ =
      (⟨.doubleClick, 0, scanCnt, 0⟩, some .doubleClick) := by
  simp [caseUp, FlexButton.execute, clickStartTick, early]

variable (pressed cont posted begun event clickCnt) in
/-- What classifies, for a release seen at the scan before. -/
theorem classifies_released
    {counted : Nat} (count : (scanCnt + 1) % 65536 = counted) :
    Classifies pressed
        ⟨⟨event, 2, scanCnt, clickCnt⟩, cont, posted, begun⟩ ↔
      trg pressed cont = false ∧ Fits ⟨event, 2, counted, clickCnt⟩ := by
  rw [Classifies]
  have counts : (⟨event, 2, scanCnt, clickCnt⟩ : FlexButton).count =
      ⟨event, 2, counted, clickCnt⟩ := by
    simp [FlexButton.count, count]
  rw [counts]
  exact forall_prop_of_true rfl

variable (pressed event clickCnt) in
/-- Such a scan runs the classification on the next count. -/
theorem process_released
    (trg : Bool) {counted : Nat}
    (count : (scanCnt + 1) % 65536 = counted) :
    flexButtonProcess trg pressed ⟨event, 2, scanCnt, clickCnt⟩ =
      caseUp ⟨event, 2, counted, clickCnt⟩ := by
  simp [flexButtonProcess, FlexButton.count, count]

/-- The number of presses lost in a scan that classifies. -/
theorem loses_iff {fits : Prop} (holds : fits) (fresh : Bool) :
    fresh = false ∧ fits ↔ fresh.toNat = 0 := by
  cases fresh <;> simp [holds]

/-- A release after few scans waits for a second click. -/
theorem follows_waiting
    {counted : Nat} (count : (scanCnt + 1) % 65536 = counted)
    (first : counted < 20) (clicking : Clicking event progress)
    (tracks : Tracks ⟨⟨event, 2, scanCnt, 0⟩, cont, posted, begun⟩
      progress lost)
    (fits : Fits ⟨event, 2, counted, 0⟩) :
    Follows pressed ⟨⟨event, 2, scanCnt, 0⟩, cont, posted, begun⟩
      (processKey eventSrc pressed
        ⟨⟨event, 2, scanCnt, 0⟩, cont, posted, begun⟩) lost := by
  apply follows_silent tracks ⟨event, 3, counted, 1⟩ none
    (by rw [process_released pressed event 0 _ count, caseUp_first first])
    rfl (.check clicking first pressed) (trg pressed cont).toNat
  · simp [pending, Nat.add_comm]
  · rw [classifies_released pressed cont posted begun event 0 count]
    exact loses_iff fits _

/-- A late release posts the end of what was announced. -/
theorem follows_closing
    {counted : Nat} (count : (scanCnt + 1) % 65536 = counted)
    (late : 20 ≤ counted)
    (tracks : Tracks ⟨⟨event, 2, scanCnt, clickCnt⟩, cont, posted, begun⟩
      progress lost)
    {message : IotbEventType}
    (posts : eventType (upEvent counted) = some message)
    (takes : progress.next message = some .closed)
    (answers : pending ⟨event, 2, scanCnt, clickCnt⟩ = presses message)
    (fits : Fits ⟨event, 2, counted, clickCnt⟩) :
    Follows pressed ⟨⟨event, 2, scanCnt, clickCnt⟩, cont, posted, begun⟩
      (processKey eventSrc pressed
        ⟨⟨event, 2, scanCnt, clickCnt⟩, cont, posted, begun⟩) lost := by
  apply follows_posted tracks ⟨upEvent counted, 0, counted, 0⟩
    (upEvent counted)
    (by rw [process_released pressed event clickCnt _ count,
      caseUp_late late])
    posts takes (.default ..) (trg pressed cont).toNat
  · rw [answers]
    simp [pending, Nat.add_comm]
  · rw [classifies_released pressed cont posted begun event clickCnt count]
    exact loses_iff fits _

/-- A late release posts the end of something that was not announced. -/
theorem follows_unannounced
    {counted : Nat} (count : (scanCnt + 1) % 65536 = counted)
    (late : 20 ≤ counted)
    (tracks : Tracks ⟨⟨event, 2, scanCnt, clickCnt⟩, cont, posted, begun⟩
      progress lost)
    {message : IotbEventType}
    (posts : eventType (upEvent counted) = some message)
    (refuses : progress.next message = none)
    (misfits : ¬ Fits ⟨event, 2, counted, clickCnt⟩) :
    Follows pressed ⟨⟨event, 2, scanCnt, clickCnt⟩, cont, posted, begun⟩
      (processKey eventSrc pressed
        ⟨⟨event, 2, scanCnt, clickCnt⟩, cont, posted, begun⟩) lost := by
  apply follows_stuck tracks ⟨upEvent counted, 0, counted, 0⟩
    (upEvent counted)
    (by rw [process_released pressed event clickCnt _ count,
      caseUp_late late])
    posts refuses
  rw [classifies_released pressed cont posted begun event clickCnt count]
  exact fun both => misfits both.2

theorem follows_released
    (short : scanCnt ≤ 100)
    (tracks : Tracks ⟨⟨.pressDown, 2, scanCnt, 0⟩, false, posted, begun⟩
      .closed lost) :
    Follows pressed ⟨⟨.pressDown, 2, scanCnt, 0⟩, false, posted, begun⟩
      (processKey eventSrc pressed
        ⟨⟨.pressDown, 2, scanCnt, 0⟩, false, posted, begun⟩) lost := by
  have count : (scanCnt + 1) % 65536 = scanCnt + 1 := by omega
  by_cases click : scanCnt + 1 < 100
  · have fits : Fits ⟨.pressDown, 2, scanCnt + 1, 0⟩ :=
      ⟨click, fun two => by cases two⟩
    by_cases first : scanCnt + 1 < 20
    · exact follows_waiting count first .press tracks fits
    · have posts : eventType (upEvent (scanCnt + 1)) = some .keyClick := by
        rw [upEvent, if_pos click]
        rfl
      exact follows_closing count (Nat.le_of_not_lt first) tracks posts rfl
        rfl fits
  · have posts : eventType (upEvent (scanCnt + 1)) =
        some .keyShortPressedUp := by
      rw [upEvent, if_neg click, if_pos (by omega)]
      rfl
    exact follows_unannounced count (by omega) tracks posts rfl
      fun fits => click fits.1

theorem follows_once
    (clicking : Clicking event progress)
    (tracks : Tracks ⟨⟨event, 2, 20, 1⟩, cont, posted, begun⟩
      progress lost) :
    Follows pressed ⟨⟨event, 2, 20, 1⟩, cont, posted, begun⟩
      (processKey eventSrc pressed
        ⟨⟨event, 2, 20, 1⟩, cont, posted, begun⟩) lost := by
  have count : (20 + 1) % 65536 = 21 := rfl
  have posts : eventType (upEvent 21) = some .keyClick := rfl
  cases clicking with
  | press =>
      exact follows_closing count (by decide) tracks posts rfl rfl
        ⟨by decide, fun two => by cases two⟩
  | overrun =>
      refine follows_unannounced count (by decide) tracks posts rfl ?_
      rintro (long | first)
      · exact absurd long (by decide)
      · exact absurd first.2 (by decide)

theorem follows_twice
    (clicking : Clicking event progress) (short : scanCnt < 20)
    (tracks : Tracks ⟨⟨event, 2, scanCnt, 2⟩, true, posted, begun⟩
      progress lost) :
    Follows pressed ⟨⟨event, 2, scanCnt, 2⟩, true, posted, begun⟩
      (processKey eventSrc pressed
        ⟨⟨event, 2, scanCnt, 2⟩, true, posted, begun⟩) lost := by
  have count : (scanCnt + 1) % 65536 = scanCnt + 1 := by omega
  have classifies := classifies_released pressed true posted begun
    event 2 count
  have process := fun trg => process_released pressed event 2 trg count
  have fresh : trg pressed true = false := by
    rw [trg_eq, Bool.not_true, Bool.and_false]
  by_cases second : scanCnt + 1 < 20
  · cases clicking with
    | press =>
        have fits : Fits ⟨.pressDown, 2, scanCnt + 1, 2⟩ :=
          ⟨by show scanCnt + 1 < 100; omega, fun _ => second⟩
        apply follows_posted tracks ⟨.doubleClick, 0, scanCnt + 1, 0⟩
          .doubleClick (by rw [process, caseUp_second second]) rfl rfl
          (.default ..) 0 (by simp [fresh, pending, presses])
        exact iff_of_true (classifies.mpr ⟨fresh, fits⟩) rfl
    | overrun =>
        apply follows_stuck tracks ⟨.doubleClick, 0, scanCnt + 1, 0⟩
          .doubleClick (by rw [process, caseUp_second second]) rfl rfl
        rw [classifies]
        rintro ⟨-, long | first⟩
        · have from300 : 300 ≤ scanCnt + 1 := long
          omega
        · exact absurd first.2 (by simp)
  · have exactly : scanCnt + 1 = 20 := by omega
    cases clicking with
    | press =>
        apply follows_posted tracks ⟨.click, 0, scanCnt + 1, 0⟩ .click
          (by rw [process, caseUp_late (by omega), exactly]; rfl) rfl rfl
          (.default ..) 1 (by simp [fresh, pending, presses])
        rw [classifies]
        apply iff_of_false _ Nat.one_ne_zero
        exact fun both => second (both.2.2 rfl)
    | overrun =>
        apply follows_stuck tracks ⟨.click, 0, scanCnt + 1, 0⟩ .click
          (by rw [process, caseUp_late (by omega), exactly]; rfl) rfl rfl
        rw [classifies]
        rintro ⟨-, long | first⟩
        · have from300 : 300 ≤ scanCnt + 1 := long
          omega
        · exact second first.1

theorem follows_shortReleased
    (bounds : 100 ≤ scanCnt ∧ scanCnt ≤ 200)
    (tracks : Tracks ⟨⟨.shortStart, 2, scanCnt, 0⟩, false, posted, begun⟩
      .short lost) :
    Follows pressed ⟨⟨.shortStart, 2, scanCnt, 0⟩, false, posted, begun⟩
      (processKey eventSrc pressed
        ⟨⟨.shortStart, 2, scanCnt, 0⟩, false, posted, begun⟩) lost := by
  have count : (scanCnt + 1) % 65536 = scanCnt + 1 := by omega
  have beyond : ¬ scanCnt + 1 < 100 := by omega
  by_cases up : scanCnt + 1 < 200
  · have posts : eventType (upEvent (scanCnt + 1)) =
        some .keyShortPressedUp := by
      rw [upEvent, if_neg beyond, if_pos up]
      rfl
    exact follows_closing count (by omega) tracks posts rfl rfl
      ⟨Nat.le_of_not_lt beyond, up⟩
  · have posts : eventType (upEvent (scanCnt + 1)) =
        some .keyLongPressedUp := by
      rw [upEvent, if_neg beyond, if_neg up, if_pos (by omega)]
      rfl
    exact follows_unannounced count (by omega) tracks posts rfl
      fun fits => up fits.2

theorem follows_longReleased
    (bounds : 200 ≤ scanCnt ∧ scanCnt ≤ 300)
    (tracks : Tracks ⟨⟨.longStart, 2, scanCnt, 0⟩, false, posted, begun⟩
      .long lost) :
    Follows pressed ⟨⟨.longStart, 2, scanCnt, 0⟩, false, posted, begun⟩
      (processKey eventSrc pressed
        ⟨⟨.longStart, 2, scanCnt, 0⟩, false, posted, begun⟩) lost := by
  have count : (scanCnt + 1) % 65536 = scanCnt + 1 := by omega
  have beyond : ¬ scanCnt + 1 < 200 := by omega
  by_cases up : scanCnt + 1 < 300
  · have posts : eventType (upEvent (scanCnt + 1)) =
        some .keyLongPressedUp := by
      rw [upEvent, if_neg (by omega), if_neg beyond, if_pos up]
      rfl
    exact follows_closing count (by omega) tracks posts rfl rfl
      ⟨Nat.le_of_not_lt beyond, up⟩
  · have posts : eventType (upEvent (scanCnt + 1)) =
        some .keyLongHoldUp := by
      rw [upEvent, if_neg (by omega), if_neg beyond, if_neg up]
      rfl
    exact follows_unannounced count (by omega) tracks posts rfl
      fun fits => up fits.2

/-- A hold may have run the count over. -/
theorem follows_holdReleased
    (tracks : Tracks ⟨⟨.longHold, 2, scanCnt, 0⟩, false, posted, begun⟩
      .hold lost) :
    Follows pressed ⟨⟨.longHold, 2, scanCnt, 0⟩, false, posted, begun⟩
      (processKey eventSrc pressed
        ⟨⟨.longHold, 2, scanCnt, 0⟩, false, posted, begun⟩) lost := by
  obtain ⟨counted, count⟩ : ∃ counted, (scanCnt + 1) % 65536 = counted :=
    ⟨_, rfl⟩
  by_cases first : counted < 20
  · exact follows_waiting count first .overrun tracks (Or.inr ⟨first, rfl⟩)
  have late : 20 ≤ counted := Nat.le_of_not_lt first
  by_cases up : 300 ≤ counted
  · have posts : eventType (upEvent counted) = some .keyLongHoldUp := by
      rw [upEvent, if_neg (by omega), if_neg (by omega), if_neg (by omega)]
      rfl
    exact follows_closing count late tracks posts rfl rfl (Or.inl up)
  · have misfits : ¬ Fits ⟨.longHold, 2, counted, 0⟩ := by
      rintro (long | early)
      · exact up long
      · exact first early.1
    obtain ⟨message, posts, refuses⟩ : ∃ message,
        eventType (upEvent counted) = some message ∧
          Progress.hold.next message = none := by
      rw [upEvent]
      by_cases click : counted < 100
      · rw [if_pos click]
        exact ⟨.keyClick, rfl, rfl⟩
      · rw [if_neg click]
        by_cases short : counted < 200
        · rw [if_pos short]
          exact ⟨.keyShortPressedUp, rfl, rfl⟩
        · rw [if_neg short, if_pos (Nat.lt_of_not_le up)]
          exact ⟨.keyLongPressedUp, rfl, rfl⟩
    exact follows_unannounced count late tracks posts refuses misfits

end Scans

/-- What one scan makes of a key that is tracked. -/
theorem follows
    {key : Key} {progress : Progress} {lost : Nat}
    (eventSrc : IotbEventSrc) (pressed : Bool)
    (tracks : Tracks key progress lost) :
    Follows pressed key (processKey eventSrc pressed key) lost := by
  obtain ⟨button, cont, posted, begun⟩ := key
  have state : Matches button cont progress := tracks.button
  cases state with
  | default => exact follows_default tracks
  | pressed short => exact follows_pressed short tracks
  | released short => exact follows_released short tracks
  | check clicking short => exact follows_check clicking short tracks
  | once clicking => exact follows_once clicking tracks
  | twice clicking short => exact follows_twice clicking short tracks
  | shortPressed bounds => exact follows_shortPressed bounds tracks
  | shortReleased bounds => exact follows_shortReleased bounds tracks
  | longPressed bounds => exact follows_longPressed bounds tracks
  | longReleased bounds => exact follows_longReleased bounds tracks
  | held => exact follows_held tracks
  | holdReleased => exact follows_holdReleased tracks

/-! ## Runs of scans -/

end InternetWavPlayer.KeyGestures
