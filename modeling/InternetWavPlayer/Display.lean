import Mathlib.Tactic

/-!
# Drawing on the panel

The pages draw through `lcd_clear`, `lcd_set_color`, `lcd_show_string` and the
line and image calls.  A panel keeps the global colour pair and the calls made
so far, newest first; the pages read nothing back from the driver.

What the driver does with a string that was kept, where it wraps, clears the
screen or reads an argument that was not passed, is run in `Screen`.
-/

namespace InternetWavPlayer.Display

/-- A 16-bit colour. -/
abbrev Color := BitVec 16

def white : Color := 0xFFFF#16
def black : Color := 0x0000#16
def blue : Color := 0x001F#16
def red : Color := 0xF800#16
def gray240 : Color := 0xF79E#16

/-- The `rt_uint16_t` a coordinate argument is converted to. -/
def u16 (value : Int) : Nat :=
  (value % 65536).toNat

/-- The format of `lcd_show_string`: a literal or bytes from outside. -/
inductive Text where
  | literal (text : String)
  | bytes (bytes : List UInt8)
deriving DecidableEq, Repr

/-- One drawing call, with the colours it used. -/
inductive Draw where
  | clear (color : Color)
  | string (x y size : Nat) (text : Text) (back fore : Color)
  | num (x y : Nat) (value : Int) (size : Nat) (back fore : Color)
  | line (x1 y1 x2 y2 : Nat) (fore : Color)
  | rectangle (x1 y1 x2 y2 : Nat) (fore : Color)
  | image (x y width height : Nat) (name : String)
deriving DecidableEq, Repr

/-- The globals of the panel driver and the calls made, newest first. -/
structure Panel where
  backColor : Color
  foreColor : Color
  draws : List Draw
deriving Repr

def Panel.add (panel : Panel) (draw : Draw) : Panel :=
  { panel with draws := draw :: panel.draws }

/-- `lcd_set_color`. -/
def lcdSetColor (back fore : Color) (panel : Panel) : Panel :=
  { panel with backColor := back, foreColor := fore }

/-- `lcd_clear`. -/
def lcdClear (color : Color) (panel : Panel) : Panel :=
  panel.add (.clear color)

/-- A call of `lcd_show_string`, which `Screen.showString` runs. -/
def lcdShowString (x y : Int) (size : Nat) (text : Text)
    (panel : Panel) : Panel :=
  panel.add
    (.string (u16 x) (u16 y) size text panel.backColor panel.foreColor)

/-- A call of `lcd_show_num`, which `Screen.showNum` runs. -/
def lcdShowNum (x y : Int) (value : Int) (size : Nat)
    (panel : Panel) : Panel :=
  panel.add
    (.num (u16 x) (u16 y) value size panel.backColor panel.foreColor)

/-- `lcd_draw_line`. -/
def lcdDrawLine (x1 y1 x2 y2 : Int) (panel : Panel) : Panel :=
  panel.add (.line (u16 x1) (u16 y1) (u16 x2) (u16 y2) panel.foreColor)

/-- `lcd_draw_rectangle`. -/
def lcdDrawRectangle (x1 y1 x2 y2 : Int) (panel : Panel) : Panel :=
  panel.add
    (.rectangle (u16 x1) (u16 y1) (u16 x2) (u16 y2) panel.foreColor)

/-- `lcd_show_image`. -/
def lcdShowImage (x y width height : Nat) (name : String)
    (panel : Panel) : Panel :=
  panel.add (.image x y width height name)

/-! ## What a text origin shows -/

/-- A string together with the colours it was drawn in. -/
structure Cell where
  text : Text
  back : Color
  fore : Color
deriving DecidableEq, Repr

/-- The last string drawn at an origin since the last clear, if any. -/
def shownAt (x y : Nat) : List Draw → Option Cell
  | [] => none
  | .clear _ :: _ => none
  | .string x' y' _ text back fore :: older =>
      if x' = x ∧ y' = y then some ⟨text, back, fore⟩
      else shownAt x y older
  | _ :: older => shownAt x y older

/-- The vertical origin of a row of the song list. -/
def rowY (row : Int) : Nat :=
  u16 (52 + 31 * row)

/-- No text on the panel stands on the background of the selection. -/
def Unhighlighted (panel : Panel) : Prop :=
  ∀ x y cell, shownAt x y panel.draws = some cell → cell.back ≠ blue

/--
A row shows a text in the colours of the selection, and no other row stands on
their background.
-/
structure Highlighted (panel : Panel) (row : Int) (text : Text) :
    Prop where
  shown : shownAt 8 (rowY row) panel.draws = some ⟨text, blue, white⟩
  only : ∀ x y cell, shownAt x y panel.draws = some cell →
    cell.back = blue → y = rowY row ∧ (x = 0 ∨ x = 8)

theorem unhighlighted_clear (color : Color) (panel : Panel) :
    Unhighlighted (lcdClear color panel) := by
  intro x y cell shown
  cases shown

/-- What an origin shows after a string was drawn. -/
theorem shownAt_string
    (x y : Nat) (atX atY : Int) (size : Nat) (text : Text)
    (panel : Panel) :
    shownAt x y (lcdShowString atX atY size text panel).draws =
      if u16 atX = x ∧ u16 atY = y then
        some ⟨text, panel.backColor, panel.foreColor⟩
      else shownAt x y panel.draws :=
  rfl

/-- A string on another background highlights nothing. -/
theorem Unhighlighted.string
    {panel : Panel} (unhighlighted : Unhighlighted panel)
    (back : panel.backColor ≠ blue) (x y : Int) (size : Nat)
    (text : Text) :
    Unhighlighted (lcdShowString x y size text panel) := by
  intro atX atY cell shown
  rw [shownAt_string] at shown
  split at shown
  · cases shown
    exact back
  · exact unhighlighted atX atY cell shown

theorem Unhighlighted.line
    {panel : Panel} (unhighlighted : Unhighlighted panel)
    (x1 y1 x2 y2 : Int) :
    Unhighlighted (lcdDrawLine x1 y1 x2 y2 panel) :=
  unhighlighted

theorem Unhighlighted.setColor
    {panel : Panel} (unhighlighted : Unhighlighted panel)
    (back fore : Color) :
    Unhighlighted (lcdSetColor back fore panel) :=
  unhighlighted

end InternetWavPlayer.Display
