import InternetWavPlayer.OutsideText
import InternetWavPlayer.Filling

/-!
# What goes over the bus for a character

A glyph is a table of bits, row by row, each row in whole bytes and the highest
bit first.  The two loops of `lcd_show_char` go through the bytes and the bits,
which is the order of the cells of its window; the buffer has one slot for each
of them, in the same order.  So both ways of sending, and both of `lcd_clear`,
put the same bytes on the bus.
-/

namespace InternetWavPlayer.GlyphStreams

open InternetWavPlayer.AddressWindow
open InternetWavPlayer.Display (Color u16)
open InternetWavPlayer.DrvLcd
open InternetWavPlayer.Vsnprintf
open InternetWavPlayer.TextDrawing
open InternetWavPlayer.TextCells
open InternetWavPlayer.OutsideText (HasGlyph glyphs data_toNat)
open InternetWavPlayer.Filling (Fills)

/-! ## Glyphs as tables of bits -/

/-- The number of columns of a cell. -/
def columnsOf (font : Font) : Nat := font.size / 2

/-- The number of bytes of a row, of which the last may be half used. -/
def rowBytes (font : Font) : Nat := (columnsOf font + 7) / 8

/-- The byte of a glyph and the bit in it, for a row and a column. -/
def bitPlace (font : Font) (place : Nat × Nat) : Nat × Nat :=
  (rowBytes font * place.1 + place.2 / 8, place.2 % 8)

/-- The bit of a glyph for a row and a column. -/
def glyphBit (font : Font) (data : Nat) (place : Nat × Nat) : Bool :=
  (font.table (font.offset data + (bitPlace font place).1)).getMsbD
    (bitPlace font place).2

/-- The colour of a pixel of the cell. -/
def ink (font : Font) (data : Nat) (lcd : Lcd) (place : Nat × Nat) :
    Color :=
  if glyphBit font data place then lcd.foreColor else lcd.backColor

/-- The colours of a cell, row by row. -/
def glyphColors (font : Font) (data : Nat) (lcd : Lcd) : List Color :=
  (grid font.size (columnsOf font)).map (ink font data lcd)

/-- The test for the highest bit after some shifts. -/
theorem highest_bit (temp : Byte) (t : Nat) :
    (temp <<< t) &&& 0x80#8 ≠ 0#8 ↔ temp.getMsbD t = true := by
  have power : 0x80#8 = BitVec.twoPow 8 7 := rfl
  have high : (temp <<< t).getLsbD 7 = temp.getMsbD t := by
    have top := BitVec.msb_shiftLeft (x := temp) (n := t)
    rwa [BitVec.msb_eq_getLsbD_last] at top
  have nonzero : BitVec.twoPow 8 7 ≠ 0#8 := by decide
  rw [power, BitVec.and_twoPow, high]
  cases temp.getMsbD t <;> simp [nonzero]

theorem color_eq_ink
    (font : Font) (data : Nat) (lcd : Lcd) (place : Nat × Nat) :
    font.color data lcd (bitPlace font place) = ink font data lcd place := by
  rw [Font.color, ink, glyphBit]
  simp only [highest_bit]

/-- The loops and the buffer of a font keep the order of the cells. -/
structure Regular (font : Font) : Prop where
  even : 2 * columnsOf font = font.size
  places : font.places =
    (grid font.size (columnsOf font)).map (bitPlace font)
  slots : ∀ place, place.2 < columnsOf font →
    font.slot (bitPlace font place).1 (bitPlace font place).2 =
      columnsOf font * place.1 + place.2

theorem regular_of
    {font : Font} (columns bytes : Nat) (even : 2 * columns = font.size)
    (whole : (columns + 7) / 8 = bytes)
    (places : font.places = (grid font.size columns).map fun place =>
      (bytes * place.1 + place.2 / 8, place.2 % 8))
    (slots : ∀ place : Nat × Nat, place.2 < columns →
      font.slot (bytes * place.1 + place.2 / 8) (place.2 % 8) =
        columns * place.1 + place.2) :
    Regular font := by
  have width : columnsOf font = columns := by
    rw [columnsOf]
    omega
  have place_eq : bitPlace font = fun place =>
      (bytes * place.1 + place.2 / 8, place.2 % 8) := by
    funext place
    rw [bitPlace, rowBytes, width, whole]
  constructor
  · rw [width]
    exact even
  · rw [width, place_eq]
    exact places
  · rw [width, place_eq]
    exact slots

/-- The bits of one whole byte and of some of the next. -/
theorem row_of_two (row bits : Nat) (half : bits ≤ 8) :
    ((List.range 8).map fun t => (2 * row, t)) ++
        (List.range bits).map (fun t => (2 * row + 1, t)) =
      ((List.range (8 + bits)).map fun column => (row, column)).map
        fun place => (2 * place.1 + place.2 / 8, place.2 % 8) := by
  rw [List.map_map, List.range_add, List.map_append, List.map_map]
  congr 1 <;>
    · apply List.map_congr_left
      intro t inside
      rw [List.mem_range] at inside
      exact Prod.ext (by dsimp only [Function.comp_apply]; omega)
        (by dsimp only [Function.comp_apply]; omega)

/-- Size 16: one byte for a row. -/
theorem regular_1608 (fonts : Fonts) : Regular (font1608 fonts) := by
  refine regular_of 8 1 rfl rfl ?_ fun place inside => ?_
  · show ((List.range 16).flatMap fun pos =>
        (List.range 8).map fun t => (pos, t)) =
      (grid 16 8).map fun place => (1 * place.1 + place.2 / 8, place.2 % 8)
    rw [grid, List.map_flatMap]
    apply List.flatMap_congr
    intro row _
    rw [List.map_map]
    apply List.map_congr_left
    intro column inside
    rw [List.mem_range] at inside
    exact Prod.ext (by dsimp only [Function.comp_apply]; omega)
      (by dsimp only [Function.comp_apply]; omega)
  · show 8 * (1 * place.1 + place.2 / 8) + place.2 % 8 =
      8 * place.1 + place.2
    omega

/-- Size 24: a whole and a half byte for a row. -/
theorem regular_2412 (fonts : Fonts) : Regular (font2412 fonts) := by
  refine regular_of 12 2 rfl rfl ?_ fun place inside => ?_
  · have pairs : List.range 48 =
        (List.range 24).flatMap fun row => [2 * row, 2 * row + 1] := by
      decide
    show ((List.range 48).flatMap fun pos =>
        (List.range (if pos % 2 = 0 then 8 else 4)).map fun t =>
          (pos, t)) =
      (grid 24 12).map fun place => (2 * place.1 + place.2 / 8, place.2 % 8)
    rw [grid, List.map_flatMap, pairs, List.flatMap_assoc]
    apply List.flatMap_congr
    intro row _
    have first : 2 * row % 2 = 0 := by omega
    have second : (2 * row + 1) % 2 ≠ 0 := by omega
    rw [List.flatMap_cons, List.flatMap_singleton, if_pos first,
      if_neg second]
    exact row_of_two row 4 (by decide)
  · show (if (2 * place.1 + place.2 / 8) % 2 = 0 then
        12 * ((2 * place.1 + place.2 / 8) / 2) + place.2 % 8
      else 8 + 12 * ((2 * place.1 + place.2 / 8) / 2) + place.2 % 8) =
      12 * place.1 + place.2
    split <;> omega

/-- Size 32: two bytes for a row. -/
theorem regular_3216 (fonts : Fonts) : Regular (font3216 fonts) := by
  refine regular_of 16 2 rfl rfl ?_ fun place inside => ?_
  · have pairs : List.range 64 =
        (List.range 32).flatMap fun row => [2 * row, 2 * row + 1] := by
      decide
    show ((List.range 64).flatMap fun pos =>
        (List.range 8).map fun t => (pos, t)) =
      (grid 32 16).map fun place => (2 * place.1 + place.2 / 8, place.2 % 8)
    rw [grid, List.map_flatMap, pairs, List.flatMap_assoc]
    apply List.flatMap_congr
    intro row _
    rw [List.flatMap_cons, List.flatMap_singleton]
    exact row_of_two row 8 le_rfl
  · show 8 * (2 * place.1 + place.2 / 8) + place.2 % 8 =
      16 * place.1 + place.2
    omega

/-- The three sizes and their fonts. -/
theorem fontOf_cases
    {fonts : Fonts} {size : Nat} {font : Font}
    (found : fontOf fonts size = some font) :
    (size = 16 ∧ font = font1608 fonts) ∨
      (size = 24 ∧ font = font2412 fonts) ∨
        (size = 32 ∧ font = font3216 fonts) := by
  rw [fontOf] at found
  by_cases sixteen : size = 16
  · rw [if_pos sixteen] at found
    cases found
    exact Or.inl ⟨sixteen, rfl⟩
  rw [if_neg sixteen] at found
  by_cases twentyFour : size = 24
  · rw [if_pos twentyFour] at found
    cases found
    exact Or.inr (Or.inl ⟨twentyFour, rfl⟩)
  rw [if_neg twentyFour] at found
  by_cases thirtyTwo : size = 32
  · rw [if_pos thirtyTwo] at found
    cases found
    exact Or.inr (Or.inr ⟨thirtyTwo, rfl⟩)
  · rw [if_neg thirtyTwo] at found
    cases found

/-- Every size has a regular font. -/
theorem regular_of_fontOf
    {fonts : Fonts} {size : Nat} {font : Font}
    (found : fontOf fonts size = some font) :
    Regular font ∧ font.size = size := by
  rcases fontOf_cases found with ⟨rfl, rfl⟩ | ⟨rfl, rfl⟩ | ⟨rfl, rfl⟩
  · exact ⟨regular_1608 fonts, rfl⟩
  · exact ⟨regular_2412 fonts, rfl⟩
  · exact ⟨regular_3216 fonts, rfl⟩

/-! ## Colours in a buffer -/

/-- A write behind the end of an allocated buffer. -/
inductive Overrun where
  | buffer (index : Nat)
deriving DecidableEq, Repr

/-- Write colours into their slots of a buffer, two bytes each. -/
def writeColors :
    List (Nat × Color) → List Byte → Except Overrun (List Byte)
  | [], buffer => .ok buffer
  | (slot, color) :: rest, buffer =>
      if 2 * slot + 1 < buffer.length then
        writeColors rest
          ((buffer.set (2 * slot) ((color >>> 8).setWidth 8)).set
            (2 * slot + 1) (color.setWidth 8))
      else .error (.buffer (2 * slot))

/-- Colours written slot by slot replace what was in the buffer. -/
theorem writeColors_in_order
    (colors : List Color) (start : Nat) (written fresh : List Byte)
    (reached : written.length = 2 * start)
    (room : fresh.length = 2 * colors.length) :
    writeColors ((List.range' start colors.length).zip colors)
        (written ++ fresh) =
      .ok (written ++ colors.flatMap colorBytes) := by
  induction colors generalizing start written fresh with
  | nil =>
      rw [List.length_eq_zero_iff.mp room]
      rfl
  | cons color rest induction =>
      obtain ⟨high, low, tail, rfl⟩ :
          ∃ high low tail, fresh = high :: low :: tail := by
        rw [List.length_cons] at room
        cases fresh with
        | nil =>
            rw [List.length_nil] at room
            omega
        | cons high fresh =>
            cases fresh with
            | nil =>
                rw [List.length_singleton] at room
                omega
            | cons low tail => exact ⟨high, low, tail, rfl⟩
      rw [List.length_cons, List.length_cons, List.length_cons] at room
      have inside : 2 * start + 1 <
          (written ++ high :: low :: tail).length := by
        rw [List.length_append, List.length_cons, List.length_cons]
        omega
      have grown : ((written ++ high :: low :: tail).set (2 * start)
            ((color >>> 8).setWidth 8)).set (2 * start + 1)
              (color.setWidth 8) =
          (written ++ colorBytes color) ++ tail := by
        rw [List.set_append_right _ _ (by omega),
          List.set_append_right _ _ (by omega), List.append_assoc]
        have first : 2 * start - written.length = 0 := by omega
        have second : 2 * start + 1 - written.length = 1 := by omega
        rw [first, second]
        rfl
      rw [List.length_cons, List.range'_succ, List.zip_cons_cons,
        writeColors, if_pos inside, grown, induction (start + 1)
          (written ++ colorBytes color) tail (by
            rw [List.length_append, reached]
            exact (Nat.mul_succ 2 start).symm) (by omega),
        List.append_assoc]
      rfl

/-- The writes of the buffered loop of `lcd_show_char`. -/
def glyphWrites (font : Font) (data : Nat) (lcd : Lcd) :
    List (Nat × Color) :=
  font.places.map fun place =>
    (font.slot place.1 place.2, font.color data lcd place)

theorem length_glyphColors (font : Font) (data : Nat) (lcd : Lcd) :
    (glyphColors font data lcd).length = font.size * columnsOf font := by
  rw [glyphColors, List.length_map, length_grid]

theorem glyphWrites_eq
    {font : Font} (regular : Regular font) (data : Nat) (lcd : Lcd) :
    glyphWrites font data lcd =
      (List.range' 0 (glyphColors font data lcd).length).zip
        (glyphColors font data lcd) := by
  rw [length_glyphColors, ← List.range_eq_range', ← grid_positions,
    glyphColors, List.zip_map', glyphWrites, regular.places, List.map_map]
  apply List.map_congr_left
  rintro place member
  obtain ⟨-, left⟩ := mem_grid.mp member
  rw [Function.comp_apply, regular.slots place left, color_eq_ink]

/-- The glyph fills its buffer, whatever was in it. -/
theorem writeColors_glyph
    {font : Font} (regular : Regular font) (data : Nat) (lcd : Lcd)
    {fresh : List Byte} (sized : fresh.length = font.size * font.size) :
    writeColors (glyphWrites font data lcd) fresh =
      .ok ((glyphColors font data lcd).flatMap colorBytes) := by
  have room : fresh.length = 2 * (glyphColors font data lcd).length := by
    rw [length_glyphColors, sized, ← regular.even]
    ring
  rw [glyphWrites_eq regular]
  exact writeColors_in_order _ 0 [] fresh rfl room

/-- Writes that stay inside are those of the loop. -/
theorem eq_of_writeColors
    {writes : List (Nat × Color)} {buffer written : List Byte}
    (done : writeColors writes buffer = .ok written) :
    written = writes.foldl
      (fun buffer write =>
        (buffer.set (2 * write.1) ((write.2 >>> 8).setWidth 8)).set
          (2 * write.1 + 1) (write.2.setWidth 8)) buffer := by
  induction writes generalizing buffer with
  | nil =>
      cases done
      rfl
  | cons write rest induction =>
      rw [writeColors] at done
      split at done
      · exact induction done
      · cases done

theorem fontBuf_eq
    {font : Font} (regular : Regular font) (data : Nat) (lcd : Lcd) :
    fontBuf font data lcd =
      (glyphColors font data lcd).flatMap colorBytes := by
  have done := writeColors_glyph regular data lcd
    (List.length_replicate (n := font.size * font.size) (a := (0 : Byte)))
  rw [eq_of_writeColors done, glyphWrites, List.foldl_map]
  rfl

/-! ## Transfers on the bus -/

/-- One transfer: a command, or data. -/
inductive Transfer where
  | cmd (byte : Byte)
  | data (bytes : List Byte)
deriving DecidableEq, Repr

/-- The bytes of a transfer, with the level of `LCD_DC_PIN`. -/
def Transfer.wire : Transfer → List (Bool × Byte)
  | .cmd byte => [(false, byte)]
  | .data bytes => bytes.map fun byte => (true, byte)

/-- The byte stream of some transfers. -/
def wire (transfers : List Transfer) : List (Bool × Byte) :=
  transfers.flatMap Transfer.wire

section Rows

variable (color : Color) (passes count : Nat)

end Rows

theorem receive_keeps (color : Color) (lcd : Lcd) :
    (lcd.receive color).foreColor = lcd.foreColor ∧
      (lcd.receive color).backColor = lcd.backColor ∧
      (lcd.receive color).window = lcd.window := by
  rw [receive_eq]
  exact ⟨rfl, rfl, rfl⟩

theorem rtSpiSend_colors (colors : List Color) (lcd : Lcd) :
    rtSpiSend (colors.flatMap colorBytes) lcd =
      colors.foldl Lcd.receive lcd := by
  induction colors generalizing lcd with
  | nil => rfl
  | cons color rest induction =>
      rw [List.flatMap_cons, colorBytes, List.cons_append,
        List.cons_append, List.nil_append, rtSpiSend, colorBytes_append,
        induction, List.foldl_cons]

/-- What is received does not change the colours of the bits to come. -/
theorem foldl_color
    (font : Font) (data : Nat) (places : List (Nat × Nat)) (lcd : Lcd) :
    places.foldl
        (fun lcd place => lcdWriteHalfWord (font.color data lcd place) lcd)
        lcd =
      (places.map (font.color data lcd)).foldl Lcd.receive lcd := by
  have same : ∀ after : Lcd, after.foreColor = lcd.foreColor →
      after.backColor = lcd.backColor →
        places.foldl (fun lcd place =>
            lcdWriteHalfWord (font.color data lcd place) lcd) after =
          (places.map (font.color data lcd)).foldl Lcd.receive after := by
    induction places with
    | nil => exact fun after _ _ => rfl
    | cons place rest induction =>
        intro after fore back
        have color : font.color data after place =
            font.color data lcd place := by
          rw [Font.color, Font.color, fore, back]
        obtain ⟨keptFore, keptBack, -⟩ :=
          receive_keeps (font.color data lcd place) after
        rw [List.foldl_cons, List.map_cons, List.foldl_cons, color,
          lcdWriteHalfWord_receive]
        exact induction _ (keptFore.trans fore) (keptBack.trans back)
  exact same lcd rfl rfl

/-- With or without a buffer, the colours of the cell are received. -/
theorem receive_glyph
    {font : Font} (regular : Regular font) (available : Bool) (data : Nat)
    (lcd : Lcd) :
    (if available then rtSpiSend (fontBuf font data lcd) lcd
      else sendGlyph font data lcd) =
      (glyphColors font data lcd).foldl Lcd.receive lcd := by
  cases available with
  | true =>
      show rtSpiSend (fontBuf font data lcd) lcd = _
      rw [fontBuf_eq regular, rtSpiSend_colors]
  | false =>
      show sendGlyph font data lcd = _
      rw [sendGlyph, foldl_color, regular.places, List.map_map]
      simp only [Function.comp_def, color_eq_ink]
      rfl

/-! ## One character on the panel -/

/-- The window of a cell. -/
def cellWindow (font : Font) (x y : Nat) : Window :=
  ⟨x, y, x + (columnsOf font - 1), y + (font.size - 1),
    Nat.le_add_right _ _, Nat.le_add_right _ _⟩

/-- The pixels of a character, row by row. -/
def glyphPixels (font : Font) (x y data : Nat) (lcd : Lcd) :
    List Pixel :=
  (grid font.size (columnsOf font)).map fun place =>
    ⟨(x + place.2, y + place.1), ink font data lcd place⟩

/-- What calls added to a drawing, and what they did not change. -/
structure Draws (before after : Drawing) (calls : List Call)
    (pixels : List Pixel) : Prop where
  calls : after.calls = before.calls ++ calls
  fore : after.lcd.foreColor = before.lcd.foreColor
  back : after.lcd.backColor = before.lcd.backColor
  paints : Paints before.lcd after.lcd pixels

theorem Draws.trans
    {before between after : Drawing} {calls more : List Call}
    {pixels others : List Pixel}
    (earlier : Draws before between calls pixels)
    (later : Draws between after more others) :
    Draws before after (calls ++ more) (pixels ++ others) := by
  constructor
  · rw [later.calls, earlier.calls, List.append_assoc]
  · exact later.fore.trans earlier.fore
  · exact later.back.trans earlier.back
  · rw [Paints, later.paints, earlier.paints, List.append_assoc]

theorem fontOf_size
    {fonts : Fonts} {size : Nat} {font : Font}
    (found : fontOf fonts size = some font) :
    size = 16 ∨ size = 24 ∨ size = 32 := by
  rcases fontOf_cases found with ⟨sized, -⟩ | ⟨sized, -⟩ | ⟨sized, -⟩
  · exact Or.inl sized
  · exact Or.inr (Or.inl sized)
  · exact Or.inr (Or.inr sized)

section Character

variable {fonts : Fonts} {font : Font} {size x y : Nat}
  (found : fontOf fonts size = some font)

include found

theorem sizes_cellWindow (x y : Nat) :
    (cellWindow font x y).width = columnsOf font ∧
      (cellWindow font x y).height = font.size := by
  obtain ⟨regular, rfl⟩ := regular_of_fontOf found
  have even := regular.even
  have some := fontOf_size found
  constructor
  · show x + (columnsOf font - 1) - x + 1 = columnsOf font
    omega
  · show y + (font.size - 1) - y + 1 = font.size
    omega

/-- The cells of the window, row by row. -/
theorem cells_cellWindow (x y : Nat) :
    (cellWindow font x y).cells 0 (font.size * columnsOf font) =
      (grid font.size (columnsOf font)).map fun place =>
        (x + place.2, y + place.1) := by
  obtain ⟨width, height⟩ := sizes_cellWindow found x y
  have area : (cellWindow font x y).area =
      font.size * columnsOf font := by
    rw [Window.area, width, height, Nat.mul_comm]
  rw [← area, Window.cells_grid, width, height]
  rfl

/-- Through its window a glyph paints its pixels. -/
theorem painted_glyph
    (data : Nat) (lcd : Lcd)
    (opened : lcd.window = some (cellWindow font x y))
    (start : lcd.position = 0) :
    Paints lcd ((glyphColors font data lcd).foldl Lcd.receive lcd)
      (glyphPixels font x y data lcd) := by
  rw [Paints, foldl_receive _ lcd opened, start, length_glyphColors,
    cells_cellWindow found x y, glyphColors, List.zipWith_map,
    List.zipWith_self]
  rfl

/-- The check of `lcd_show_char` passes for a cell on the panel. -/
theorem check_passes
    (column : x + columnsOf font ≤ 240) (row : y + font.size ≤ 240) :
    ¬ (x > u32 (240 - (size / 2 : Nat)) ∨ y > u32 (240 - size)) ∧
      u16 ((x : Int) + size / 2 - 1) = x + (columnsOf font - 1) ∧
      u16 ((y : Int) + size - 1) = y + (font.size - 1) := by
  have width : columnsOf font = font.size / 2 := rfl
  obtain ⟨regular, rfl⟩ := regular_of_fontOf found
  have some := fontOf_size found
  rw [width] at column
  simp only [u32, u16, width]
  omega

/-- A character on the panel paints its pixels and nothing else. -/
theorem lcdShowChar_draws
    (available : Bool) (character : UInt8) (drawing : Drawing)
    (column : x + columnsOf font ≤ 240) (row : y + font.size ≤ 240) :
    Draws drawing (lcdShowChar fonts available x y character size drawing)
      [.showChar x y character]
      (glyphPixels font x y (character - ascii ' ').toNat drawing.lcd) := by
  obtain ⟨passes, right, bottom⟩ := check_passes found column row
  have regular := (regular_of_fontOf found).1
  have opened : (lcdAddressSet x y (x + (columnsOf font - 1))
      (y + (font.size - 1)) drawing.lcd).window =
        some (cellWindow font x y) :=
    dif_pos ⟨Nat.le_add_right _ _, Nat.le_add_right _ _⟩
  have painted := painted_glyph found (character - ascii ' ').toNat _
    opened rfl
  rw [lcdShowChar]
  dsimp only
  rw [if_neg passes, found]
  dsimp only
  rw [right, bottom, receive_glyph regular]
  rw [foldl_receive _ _ opened] at painted ⊢
  exact ⟨rfl, rfl, rfl, painted⟩

end Character

/-! ## Clearing the panel -/

/-- The pixels of the whole panel, in one colour. -/
def panelPixels (color : Color) : List Pixel :=
  ((⟨0, 0, 239, 239, Nat.zero_le _, Nat.zero_le _⟩ : Window).cells 0
    (240 * 240)).map fun cell => ⟨cell, color⟩

theorem lcdClear_panel (available : Bool) (color : Color) (lcd : Lcd) :
    Paints lcd (lcdClear available color lcd) (panelPixels color) := by
  have window : (lcdAddressSet 0 0 239 239 lcd).window =
      some ⟨0, 0, 239, 239, Nat.zero_le _, Nat.zero_le _⟩ := rfl
  rw [lcdClear_eq]
  simp only [Paints, Lcd.receives, Lcd.coming, window]
  rfl

end InternetWavPlayer.GlyphStreams
