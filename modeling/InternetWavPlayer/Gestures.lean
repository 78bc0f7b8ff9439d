import InternetWavPlayer.LcdEvent

/-!
# Gestures of a key

A gesture is a click, a double click, or a press which is announced when it
becomes a short one, a long one and a hold, and ends with the message for its
last announcement.  A list of messages is a sequence of gestures, the last one
possibly open, exactly when a machine with four states reads it.
-/

namespace InternetWavPlayer.Gestures

open InternetWavPlayer.LcdEvent

/-- The messages of every kind of gesture. -/
def gestures : List (List IotbEventType) :=
  [[.keyClick],
    [.keyDoubleClick],
    [.keyShortPressed, .keyShortPressedUp],
    [.keyShortPressed, .keyLongPressed, .keyLongPressedUp],
    [.keyShortPressed, .keyLongPressed, .keyLongHold, .keyLongHoldUp]]

/-- The beginning of a gesture that is not over. -/
def Opened (messages : List IotbEventType) : Prop :=
  ∃ gesture ∈ gestures, messages <+: gesture ∧ messages ≠ gesture

/-- The gesture that is open. -/
inductive Progress where
  | closed
  | short
  | long
  | hold
deriving DecidableEq, Repr

/-- The messages of the open gesture so far. -/
def Progress.messages : Progress → List IotbEventType
  | .closed => []
  | .short => [.keyShortPressed]
  | .long => [.keyShortPressed, .keyLongPressed]
  | .hold => [.keyShortPressed, .keyLongPressed, .keyLongHold]

/-- What one message makes of the open gesture, if it may follow. -/
def Progress.next : Progress → IotbEventType → Option Progress
  | .closed, .keyClick => some .closed
  | .closed, .keyDoubleClick => some .closed
  | .closed, .keyShortPressed => some .short
  | .short, .keyShortPressedUp => some .closed
  | .short, .keyLongPressed => some .long
  | .long, .keyLongPressedUp => some .closed
  | .long, .keyLongHold => some .hold
  | .hold, .keyLongHoldUp => some .closed
  | _, _ => none

/-- Read messages one after the other. -/
def Progress.read : Progress → List IotbEventType → Option Progress
  | progress, [] => some progress
  | progress, message :: rest =>
      (progress.next message).bind fun progress => progress.read rest

theorem Progress.read_append
    (progress : Progress) (first second : List IotbEventType) :
    progress.read (first ++ second) =
      (progress.read first).bind fun progress => progress.read second := by
  induction first generalizing progress with
  | nil => rfl
  | cons message rest induction =>
      rw [List.cons_append, Progress.read, Progress.read]
      cases progress.next message with
      | none => rfl
      | some after => exact induction after

theorem Progress.read_concat
    (progress : Progress) (messages : List IotbEventType)
    (message : IotbEventType) :
    progress.read (messages ++ [message]) =
      (progress.read messages).bind fun progress =>
        progress.next message := by
  rw [Progress.read_append]
  congr 1
  funext after
  simp [Progress.read]

theorem Progress.opened (progress : Progress) :
    Opened progress.messages := by
  cases progress with
  | closed => exact ⟨[.keyClick], by decide⟩
  | short =>
      exact ⟨[.keyShortPressed, .keyShortPressedUp], by decide⟩
  | long =>
      exact ⟨[.keyShortPressed, .keyLongPressed, .keyLongPressedUp],
        by decide⟩
  | hold =>
      exact ⟨[.keyShortPressed, .keyLongPressed, .keyLongHold,
        .keyLongHoldUp], by decide⟩

/-- The presses behind one message: a double click is two of them. -/
def presses : IotbEventType → Nat
  | .keyClick => 1
  | .keyDoubleClick => 2
  | .keyShortPressed => 1
  | _ => 0

/-- The presses that a list of messages answers. -/
def answered (messages : List IotbEventType) : Nat :=
  (messages.map presses).sum

theorem answered_append (first second : List IotbEventType) :
    answered (first ++ second) = answered first + answered second := by
  simp [answered]

end InternetWavPlayer.Gestures
