import InternetWavPlayer.DrvLcd
import InternetWavPlayer.Vsnprintf

/-!
# Characters and strings on the panel

`lcd_show_char` opens a window for one character and sends the colours of its
glyph, from a buffer or, without memory for one, one by one.
`lcd_show_string` formats its text, and breaks it into lines at the right edge
and into screens at the lower one.

A drawing keeps, beside the controller, which characters were handed on and
where, when the screen was cleared, and what was read from the font tables.
What lies behind a table is memory like any other, so that every read has a
value.
-/

namespace InternetWavPlayer.TextDrawing

open InternetWavPlayer.AddressWindow
open InternetWavPlayer.Display (Color red u16)
open InternetWavPlayer.DrvLcd
open InternetWavPlayer.Vsnprintf

/-- The memory from the start of each font table on. -/
structure Fonts where
  asc21608 : Nat → Byte
  asc22412 : Nat → Byte
  asc23216 : Nat → Byte

/-- How the glyphs of one size lie in their table and in `font_buf`. -/
structure Font where
  size : Nat
  table : Nat → Byte
  /-- The first index of a glyph in the table. -/
  offset : Nat → Nat
  /-- The number of bytes of a glyph. -/
  bytes : Nat
  /-- The number of pixels in a byte of a glyph. -/
  num : Nat → Nat
  /-- Where a pixel goes in `font_buf`, counted in colours. -/
  slot : Nat → Nat → Nat

/-- The branch of `lcd_show_char` for size 16. -/
def font1608 (fonts : Fonts) : Font where
  size := 16
  table := fonts.asc21608
  offset data := data * 16 * (16 / 2) / 8
  bytes := 16 * (16 / 2) / 8
  num _ := 8
  slot pos t := 8 * pos + t

/-- The branch of `lcd_show_char` for size 24; every other byte is half used. -/
def font2412 (fonts : Fonts) : Font where
  size := 24
  table := fonts.asc22412
  offset data := data * (24 * 16) / 8
  bytes := 24 * 16 / 8
  num pos := if pos % 2 = 0 then 8 else 4
  slot pos t :=
    if pos % 2 = 0 then 12 * (pos / 2) + t else 8 + 12 * (pos / 2) + t

/-- The branch of `lcd_show_char` for size 32. -/
def font3216 (fonts : Fonts) : Font where
  size := 32
  table := fonts.asc23216
  offset data := data * 32 * (32 / 2) / 8
  bytes := 32 * (32 / 2) / 8
  num _ := 8
  slot pos t := 8 * pos + t

/-- The branch for a size, if there is one. -/
def fontOf (fonts : Fonts) (size : Nat) : Option Font :=
  if size = 16 then some (font1608 fonts)
  else if size = 24 then some (font2412 fonts)
  else if size = 32 then some (font3216 fonts)
  else none

/-- One read of a font table on behalf of a character. -/
structure FontRead where
  size : Nat
  character : UInt8
  index : Nat
deriving DecidableEq, Repr

/-- What `lcd_show_string` does on the panel. -/
inductive Call where
  | clear
  | showChar (x y : Nat) (character : UInt8)
deriving DecidableEq, Repr

/-- The controller, and what was done so far, oldest first. -/
structure Drawing where
  lcd : Lcd
  calls : List Call
  reads : List FontRead

/-- A drawing about to begin. -/
def Drawing.start (lcd : Lcd) : Drawing := ⟨lcd, [], []⟩

/-! ## `lcd_clear` -/

/-- `lcd_clear`. -/
def lcdClear (available : Bool) (color : Color) (lcd : Lcd) : Lcd :=
  let lcd := lcdAddressSet 0 0 (240 - 1) (240 - 1) lcd
  if available then
    (List.range 20).foldl
      (fun lcd _ => rtSpiSend
        (List.replicate (lcdClearSendNumber / 2) (colorBytes color)).flatten
        lcd)
      lcd
  else
    (List.range 240).foldl
      (fun lcd _ => (List.range 240).foldl
        (fun lcd _ => lcdWriteHalfWord color lcd) lcd)
      lcd

/-! ## `lcd_show_char` -/

/-- The pixels of a glyph in the order of the two loops: byte and bit. -/
def Font.places (font : Font) : List (Nat × Nat) :=
  (List.range font.bytes).flatMap fun pos =>
    (List.range (font.num pos)).map fun t => (pos, t)

/-- `colortemp` for one bit of a glyph, the highest first. -/
def Font.color (font : Font) (data : Nat) (lcd : Lcd)
    (place : Nat × Nat) : Color :=
  let temp := font.table (font.offset data + place.1)
  if (temp <<< place.2) &&& 0x80#8 ≠ 0#8 then lcd.foreColor
  else lcd.backColor

/-- The loops which send every colour for itself. -/
def sendGlyph (font : Font) (data : Nat) (lcd : Lcd) : Lcd :=
  font.places.foldl
    (fun lcd place => lcdWriteHalfWord (font.color data lcd place) lcd) lcd

/-- `font_buf` once the loops wrote it. -/
def fontBuf (font : Font) (data : Nat) (lcd : Lcd) : List Byte :=
  font.places.foldl
    (fun buffer place =>
      let color := font.color data lcd place
      let slot := font.slot place.1 place.2
      (buffer.set (2 * slot) ((color >>> 8).setWidth 8)).set
        (2 * slot + 1) (color.setWidth 8))
    (List.replicate (font.size * font.size) 0)

/-- The reads of one glyph. -/
def Font.readsOf (font : Font) (character : UInt8) (data : Nat) :
    List FontRead :=
  (List.range font.bytes).map fun pos =>
    ⟨font.size, character, font.offset data + pos⟩

/-- `lcd_show_char`. -/
def lcdShowChar (fonts : Fonts) (available : Bool) (x y : Nat)
    (character : UInt8) (size : Nat) (drawing : Drawing) : Drawing :=
  let drawing :=
    { drawing with calls := drawing.calls ++ [.showChar x y character] }
  if x > u32 (240 - (size / 2 : Nat)) ∨ y > u32 (240 - size) then drawing
  else
    let data := (character - ascii ' ').toNat
    match fontOf fonts size with
    | none => drawing
    | some font =>
        let lcd := lcdAddressSet x y (u16 (x + size / 2 - 1))
          (u16 (y + size - 1)) drawing.lcd
        { lcd :=
            if available then rtSpiSend (fontBuf font data lcd) lcd
            else sendGlyph font data lcd
          calls := drawing.calls
          reads := drawing.reads ++ font.readsOf character data }

/-! ## `lcd_show_string` -/

/-- The `y = x = 0; lcd_clear(RED);` of `lcd_show_string`. -/
def overflow (available : Bool) (drawing : Drawing) : Drawing :=
  { drawing with
    lcd := lcdClear available red drawing.lcd
    calls := drawing.calls ++ [.clear] }

/--
The loop over the formatted text.  Whether there is memory may differ from
call to call.
-/
def showLoop (fonts : Fonts) (available : Nat → Bool) (size : Nat) :
    Nat → Nat → List UInt8 → Drawing → Drawing
  | _, _, [], drawing => drawing
  | x, y, character :: rest, drawing =>
      let wraps := x > u32 (240 - (size / 2 : Nat))
      let x := if wraps then 0 else x
      let y := if wraps then u16 (y + size) else y
      if y > u32 (240 - size) then
        let drawing := overflow (available drawing.calls.length) drawing
        showLoop fonts available size (u16 (0 + size / 2)) 0 rest
          (lcdShowChar fonts (available drawing.calls.length) 0 0 character
            size drawing)
      else
        showLoop fonts available size (u16 (x + size / 2)) y rest
          (lcdShowChar fonts (available drawing.calls.length) x y character
            size drawing)

/-- `lcd_show_string`, with the arguments behind the format. -/
def lcdShowString (fonts : Fonts) (available : Nat → Bool)
    (x y size : Nat) (fmt : List UInt8) (args : List Arg)
    (drawing : Drawing) : Except Missing Drawing :=
  if size ≠ 16 ∧ size ≠ 24 ∧ size ≠ 32 then .ok drawing
  else do
    let buf ← rtVsnprintf 100 fmt args
    return showLoop fonts available size x y buf drawing

end InternetWavPlayer.TextDrawing
