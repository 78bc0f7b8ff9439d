import InternetWavPlayer.AddressWindow
import InternetWavPlayer.Display

/-!
# The panel driver

The driver sets an address window in the controller of the panel and sends it
colours, two bytes each.  What is kept of the controller is the window, the
number of colours received since it was set, and the pixels painted so far,
oldest first.  The controller has no use for a window whose start lies behind
its end, and ignores what is sent to it.
-/

namespace InternetWavPlayer.DrvLcd

open InternetWavPlayer.AddressWindow
open InternetWavPlayer.Display (Color u16)

/-- One byte on the bus. -/
abbrev Byte := BitVec 8

/-- One painted pixel. -/
structure Pixel where
  cell : Nat × Nat
  color : Color
deriving DecidableEq

/-- The globals of the driver and the state of the controller. -/
structure Lcd where
  backColor : Color
  foreColor : Color
  window : Option Window
  position : Nat
  painted : List Pixel

/-- The driver before the first drawing call. -/
def idleLcd : Lcd := ⟨0xFFFF#16, 0x0000#16, none, 0, []⟩

/-- The driver writes outside one of its buffers. -/
inductive Fault where
  | lineBuf (index : Nat)
deriving DecidableEq, Repr

/-- A difference of 16-bit values in the arithmetic of `rt_uint32_t`. -/
def u32 (value : Int) : Nat :=
  (value % 4294967296).toNat

/-! ## The bus -/

/-- `color >> 8` and `color` as bytes. -/
def colorBytes (color : Color) : List Byte :=
  [(color >>> 8).setWidth 8, color.setWidth 8]

/-- The controller receives one colour. -/
def Lcd.receive (lcd : Lcd) (color : Color) : Lcd :=
  match lcd.window with
  | none => lcd
  | some window =>
      { lcd with
        position := lcd.position + 1
        painted :=
          lcd.painted ++ [⟨window.cell lcd.position, color⟩] }

/-- `rt_spi_send` of colour data: every second byte completes a colour. -/
def rtSpiSend : List Byte → Lcd → Lcd
  | high :: low :: rest, lcd => rtSpiSend rest (lcd.receive (high ++ low))
  | _, lcd => lcd

/-- `lcd_address_set`. -/
def lcdAddressSet (x1 y1 x2 y2 : Nat) (lcd : Lcd) : Lcd :=
  { lcd with
    window :=
      if ordered : x1 ≤ x2 ∧ y1 ≤ y2 then
        some ⟨x1, y1, x2, y2, ordered.1, ordered.2⟩
      else none
    position := 0 }

/-- `lcd_write_half_word`. -/
def lcdWriteHalfWord (da : Color) (lcd : Lcd) : Lcd :=
  rtSpiSend (colorBytes da) lcd

/-- `lcd_draw_point`. -/
def lcdDrawPoint (x y : Nat) (lcd : Lcd) : Lcd :=
  lcdWriteHalfWord lcd.foreColor (lcdAddressSet x y x y lcd)

/-! ## `lcd_fill` -/

/-- `LCD_CLEAR_SEND_NUMBER`. -/
def lcdClearSendNumber : Nat := 5760

/-- The buffer of a filling, once the loop wrote its `size` bytes. -/
def fillBuf (color : Color) (size : Nat) : List Byte :=
  (List.replicate (size / 2) (colorBytes color)).flatten

/-- The loop which sends the buffer until nothing remains. -/
def fastFill (color : Color) (size sizeRemain : Nat) (lcd : Lcd) : Lcd :=
  let lcd := rtSpiSend (fillBuf color size) lcd
  if sizeRemain = 0 then lcd
  else if sizeRemain > lcdClearSendNumber then
    fastFill color size (sizeRemain - lcdClearSendNumber) lcd
  else fastFill color sizeRemain 0 lcd
termination_by sizeRemain
decreasing_by
  all_goals simp only [lcdClearSendNumber] at *
  all_goals omega

/-- The loops which send every colour for itself. -/
def slowFill (xStart yStart xEnd yEnd : Nat) (color : Color)
    (lcd : Lcd) : Lcd :=
  (List.range' yStart (yEnd + 1 - yStart)).foldl
    (fun lcd _ =>
      (List.range' xStart (xEnd + 1 - xStart)).foldl
        (fun lcd _ => lcdWriteHalfWord color lcd) lcd)
    lcd

/--
`lcd_fill`.  `rt_malloc` returns null for a request of no bytes, whether there
is memory or not.
-/
def lcdFill (available : Bool) (xStart yStart xEnd yEnd : Nat)
    (color : Color) (lcd : Lcd) : Lcd :=
  let size := u32 (((xEnd : Int) - xStart) * ((yEnd : Int) - yStart) * 2)
  let sizeRemain :=
    if size > lcdClearSendNumber then size - lcdClearSendNumber else 0
  let size := if size > lcdClearSendNumber then lcdClearSendNumber else size
  let lcd := lcdAddressSet xStart yStart xEnd yEnd lcd
  if size ≠ 0 ∧ available = true then fastFill color size sizeRemain lcd
  else slowFill xStart yStart xEnd yEnd color lcd

/-! ## `lcd_draw_line` -/

/-- The loop which writes `line_buf`, with the number of its passes ahead. -/
def fillLineBuf (fore : Color) :
    Nat → Nat → List Byte → Except Fault (List Byte)
  | 0, _, lineBuf => .ok lineBuf
  | remaining + 1, i, lineBuf =>
      if 2 * i + 1 < lineBuf.length then
        fillLineBuf fore remaining (i + 1)
          ((lineBuf.set (2 * i) ((fore >>> 8).setWidth 8)).set
            (2 * i + 1) (fore.setWidth 8))
      else .error (.lineBuf (2 * i))

/-- The branch of `lcd_draw_line` for `y1 == y2`. -/
def drawTransverseLine (x1 y1 x2 y2 : Nat) (lcd : Lcd) :
    Except Fault Lcd := do
  let lcd := lcdAddressSet x1 y1 x2 y2 lcd
  let lineBuf ← fillLineBuf lcd.foreColor (u32 ((x2 : Int) - x1)) 0
    (List.replicate 480 0)
  return rtSpiSend (lineBuf.take (u32 (((x2 : Int) - x1) * 2))) lcd

/-- `incx` or `incy` for the signed distance of the ends. -/
def increment (delta : Int) : Int :=
  if delta > 0 then 1 else if delta = 0 then 0 else -1

/-- The locals that the loop of `lcd_draw_line` changes. -/
structure Stepper where
  xerr : Int
  yerr : Int
  row : Int
  col : Int

/-- The locals that the loop of `lcd_draw_line` reads. -/
structure Line where
  deltaX : Int
  deltaY : Int
  incx : Int
  incy : Int
  distance : Int

/-- The locals once the signs are split off. -/
def lineBetween (x1 y1 x2 y2 : Nat) : Line :=
  let deltaX := (x2 : Int) - x1
  let deltaY := (y2 : Int) - y1
  let incx := increment deltaX
  let incy := increment deltaY
  let deltaX := if deltaX < 0 then -deltaX else deltaX
  let deltaY := if deltaY < 0 then -deltaY else deltaY
  ⟨deltaX, deltaY, incx, incy,
    if deltaX > deltaY then deltaX else deltaY⟩

/-- What one pass does after it drew its point. -/
def Stepper.step (line : Line) (stepper : Stepper) : Stepper :=
  let xerr := stepper.xerr + line.deltaX
  let yerr := stepper.yerr + line.deltaY
  { xerr := if xerr > line.distance then xerr - line.distance else xerr
    yerr := if yerr > line.distance then yerr - line.distance else yerr
    row :=
      if xerr > line.distance then stepper.row + line.incx
      else stepper.row
    col :=
      if yerr > line.distance then stepper.col + line.incy
      else stepper.col }

/--
The loop of `lcd_draw_line` over the 16-bit counter `t`.  It has no result
where `fuel` passes do not end it.
-/
def stepLine (line : Line) : Nat → Nat → Stepper → Lcd → Option Lcd
  | 0, _, _, _ => none
  | fuel + 1, t, stepper, lcd =>
      if (t : Int) ≤ line.distance + 1 then
        stepLine line fuel (u16 (t + 1)) (stepper.step line)
          (lcdDrawPoint (u16 stepper.row) (u16 stepper.col) lcd)
      else some lcd

/-- The part of `lcd_draw_line` below the fast path. -/
def drawGeneralLine (fuel : Nat) (x1 y1 x2 y2 : Nat) (lcd : Lcd) :
    Option Lcd :=
  stepLine (lineBetween x1 y1 x2 y2) fuel 0 ⟨0, 0, x1, y1⟩ lcd

/-- `lcd_draw_line`. -/
def lcdDrawLine (fuel : Nat) (x1 y1 x2 y2 : Nat) (lcd : Lcd) :
    Option (Except Fault Lcd) :=
  if y1 = y2 then some (drawTransverseLine x1 y1 x2 y2 lcd)
  else (drawGeneralLine fuel x1 y1 x2 y2 lcd).map .ok

/-! ## What is sent is what is painted -/

/-- The pixels of a call, from what was painted before it and after it. -/
def Paints (before after : Lcd) (pixels : List Pixel) : Prop :=
  after.painted = before.painted ++ pixels

theorem colorBytes_append (color : Color) :
    (color >>> 8).setWidth 8 ++ color.setWidth 8 = color := by
  apply BitVec.eq_of_getLsbD_eq
  intro index inside
  rw [BitVec.getLsbD_append]
  by_cases low : index < 8
  · simp [low]
  · have back : 8 + (index - 8) = index := by omega
    have high : index - 8 < 8 := by omega
    simp [low, high, back]

/-- The pixels of equal colours received from now on. -/
def Lcd.coming (lcd : Lcd) (count : Nat) (color : Color) : List Pixel :=
  match lcd.window with
  | none => []
  | some window =>
      (window.cells lcd.position count).map fun cell => ⟨cell, color⟩

/-- The driver once equal colours were received. -/
def Lcd.receives (lcd : Lcd) (count : Nat) (color : Color) : Lcd :=
  { lcd with
    position :=
      if lcd.window.isSome then lcd.position + count else lcd.position
    painted := lcd.painted ++ lcd.coming count color }

theorem receives_zero (lcd : Lcd) (color : Color) :
    lcd.receives 0 color = lcd := by
  rcases lcd with ⟨back, fore, window, position, painted⟩
  cases window <;> simp [Lcd.receives, Lcd.coming, Window.cells]

/-- Receiving some colours and then others is receiving all of them. -/
theorem receives_receives
    (lcd : Lcd) (first second : Nat) (color : Color) :
    (lcd.receives first color).receives second color =
      lcd.receives (first + second) color := by
  rcases lcd with ⟨back, fore, window, position, painted⟩
  cases window with
  | none => simp [Lcd.receives, Lcd.coming]
  | some window =>
      simp only [Lcd.receives, Lcd.coming, Option.isSome_some, if_true,
        List.append_assoc, ← List.map_append, Window.cells_append,
        Nat.add_assoc]

theorem receive_eq (lcd : Lcd) (color : Color) :
    lcd.receive color = lcd.receives 1 color := by
  rcases lcd with ⟨back, fore, window, position, painted⟩
  cases window <;> simp [Lcd.receive, Lcd.receives, Lcd.coming,
    Window.cells]

theorem lcdWriteHalfWord_receive (color : Color) (lcd : Lcd) :
    lcdWriteHalfWord color lcd = lcd.receive color := by
  rw [lcdWriteHalfWord, colorBytes, rtSpiSend, colorBytes_append]
  rfl

theorem lcdWriteHalfWord_eq (color : Color) (lcd : Lcd) :
    lcdWriteHalfWord color lcd = lcd.receives 1 color := by
  rw [lcdWriteHalfWord_receive, receive_eq]

/-- A buffer of equal colours paints as many pixels as it holds colours. -/
theorem rtSpiSend_replicate (count : Nat) (color : Color) (lcd : Lcd) :
    rtSpiSend (List.replicate count (colorBytes color)).flatten lcd =
      lcd.receives count color := by
  induction count generalizing lcd with
  | zero =>
      rw [receives_zero]
      rfl
  | succ count induction =>
      rw [List.replicate_succ, List.flatten_cons, colorBytes,
        List.cons_append, List.cons_append, List.nil_append, rtSpiSend,
        colorBytes_append, ← colorBytes, induction, receive_eq,
        receives_receives, Nat.add_comm]

/-- A loop over single colours does the same. -/
theorem foldl_halfWord {α : Type} (passes : List α) (color : Color)
    (lcd : Lcd) :
    passes.foldl (fun lcd _ => lcdWriteHalfWord color lcd) lcd =
      lcd.receives passes.length color := by
  induction passes generalizing lcd with
  | nil => exact (receives_zero lcd color).symm
  | cons pass rest induction =>
      rw [List.foldl_cons, induction, lcdWriteHalfWord_eq,
        receives_receives, List.length_cons, Nat.add_comm]

/-- A loop whose passes receive equally many equal colours. -/
theorem foldl_receives {α : Type} (passes : List α) (count : Nat)
    (color : Color) (lcd : Lcd) :
    passes.foldl (fun lcd _ => lcd.receives count color) lcd =
      lcd.receives (passes.length * count) color := by
  induction passes generalizing lcd with
  | nil =>
      rw [List.length_nil, Nat.zero_mul, receives_zero]
      rfl
  | cons pass rest induction =>
      rw [List.foldl_cons, induction, receives_receives, List.length_cons,
        Nat.succ_mul, Nat.add_comm]

end InternetWavPlayer.DrvLcd
