import InternetWavPlayer.TextDrawing

/-!
# What characters and strings paint

Whatever its colours are, a character sends as many of them as its window has
cells.  A string hands its characters on one after the other, and no character
is refused: the loop has moved the origin into the panel before.
-/

namespace InternetWavPlayer.TextCells

open InternetWavPlayer.AddressWindow
open InternetWavPlayer.Display (Color red u16)
open InternetWavPlayer.DrvLcd
open InternetWavPlayer.Vsnprintf
open InternetWavPlayer.TextDrawing

/-! ## Receiving any colours -/

/-- The controller received some number of colours. -/
def Receives (count : Nat) (before after : Lcd) : Prop :=
  ∃ colors : List Color, colors.length = count ∧
    after = colors.foldl Lcd.receive before

theorem Receives.none (lcd : Lcd) : Receives 0 lcd lcd :=
  ⟨[], rfl, rfl⟩

theorem Receives.one (color : Color) (lcd : Lcd) :
    Receives 1 lcd (lcd.receive color) :=
  ⟨[color], rfl, rfl⟩

theorem Receives.trans
    {first second : Nat} {before between after : Lcd}
    (earlier : Receives first before between)
    (later : Receives second between after) :
    Receives (first + second) before after := by
  obtain ⟨colors, count, rfl⟩ := earlier
  obtain ⟨others, further, rfl⟩ := later
  refine ⟨colors ++ others, ?_, ?_⟩
  · rw [List.length_append, count, further]
  · rw [List.foldl_append]

/-- A loop whose passes receive one colour each. -/
theorem receives_foldl {α : Type} (passes : List α)
    (pass : Lcd → α → Lcd) (count : Nat)
    (each : ∀ lcd item, Receives count lcd (pass lcd item)) (lcd : Lcd) :
    Receives (passes.length * count) lcd (passes.foldl pass lcd) := by
  induction passes generalizing lcd with
  | nil =>
      rw [List.length_nil, Nat.zero_mul]
      exact .none lcd
  | cons item rest induction =>
      rw [List.length_cons, Nat.succ_mul, Nat.add_comm]
      exact (each lcd item).trans (induction _)

theorem receives_halfWord (color : Color) (lcd : Lcd) :
    Receives 1 lcd (lcdWriteHalfWord color lcd) := by
  rw [lcdWriteHalfWord_receive]
  exact .one color lcd

/-- Two bytes make a colour. -/
theorem receives_rtSpiSend (count : Nat) (bytes : List Byte)
    (even : bytes.length = 2 * count) (lcd : Lcd) :
    Receives count lcd (rtSpiSend bytes lcd) := by
  induction count generalizing bytes lcd with
  | zero =>
      rw [List.length_eq_zero_iff.mp even]
      exact .none lcd
  | succ count induction =>
      match bytes with
      | [] => simp at even
      | [_] =>
          rw [List.length_singleton] at even
          omega
      | high :: low :: rest =>
          rw [List.length_cons, List.length_cons] at even
          rw [rtSpiSend, Nat.add_comm]
          exact (Receives.one _ lcd).trans
            (induction rest (by omega) _)

/-- Through a window colours go to the cells in order. -/
theorem foldl_receive
    {window : Window} (colors : List Color) (lcd : Lcd)
    (opened : lcd.window = some window) :
    colors.foldl Lcd.receive lcd =
      { lcd with
        position := lcd.position + colors.length
        painted := lcd.painted ++
          List.zipWith Pixel.mk
            (window.cells lcd.position colors.length) colors } := by
  induction colors generalizing lcd with
  | nil => simp
  | cons color rest induction =>
      have one : lcd.receive color =
          { lcd with
            position := lcd.position + 1
            painted := lcd.painted ++
              [⟨window.cell lcd.position, color⟩] } := by
        rw [Lcd.receive, opened]
      have cells : window.cells lcd.position (rest.length + 1) =
          window.cell lcd.position ::
            window.cells (lcd.position + 1) rest.length := by
        rw [Window.cells, List.range'_succ]
        rfl
      have position : lcd.position + (rest.length + 1) =
          lcd.position + 1 + rest.length := by
        omega
      rw [List.foldl_cons, induction _ (by rw [one]; exact opened), one,
        List.length_cons, cells, position, List.zipWith_cons_cons]
      simp only [List.append_assoc, List.singleton_append]

/-- The cells that colours went to. -/
theorem Receives.cells
    {count : Nat} {before after : Lcd} {window : Window}
    (receives : Receives count before after)
    (opened : before.window = some window) :
    ∃ pixels, Paints before after pixels ∧
      pixels.map Pixel.cell = window.cells before.position count := by
  obtain ⟨colors, rfl, rfl⟩ := receives
  refine ⟨_, by rw [foldl_receive colors before opened]; rfl, ?_⟩
  have long : (window.cells before.position colors.length).length ≤
      colors.length := (Window.cells_length ..).le
  rw [List.map_zipWith, ← List.map_uncurry_zip_eq_zipWith]
  exact List.map_fst_zip long

/-! ## One glyph -/

theorem length_fontBuf (font : Font) (data : Nat) (lcd : Lcd) :
    (fontBuf font data lcd).length = font.size * font.size := by
  have kept : ∀ (places : List (Nat × Nat)) (buffer : List Byte),
      (places.foldl
        (fun buffer place =>
          let color := font.color data lcd place
          let slot := font.slot place.1 place.2
          (buffer.set (2 * slot) ((color >>> 8).setWidth 8)).set
            (2 * slot + 1) (color.setWidth 8)) buffer).length =
        buffer.length := by
    intro places
    induction places with
    | nil => exact fun _ => rfl
    | cons place rest induction =>
        intro buffer
        rw [List.foldl_cons, induction, List.length_set, List.length_set]
  rw [fontBuf, kept, List.length_replicate]

/-- A font whose glyphs fill their windows. -/
def Full (font : Font) : Prop :=
  2 * font.places.length = font.size * font.size

theorem places_length (font : Font) :
    font.places.length = ((List.range font.bytes).map font.num).sum := by
  simp [Font.places, List.length_flatMap]

theorem full_2412 (fonts : Fonts) : Full (font2412 fonts) := by
  rw [Full, places_length]
  show 2 * ((List.range 48).map fun pos =>
    if pos % 2 = 0 then 8 else 4).sum = 576
  decide

/-- With or without a buffer, a glyph has as many colours as pixels. -/
theorem receives_glyph
    {font : Font} (full : Full font) (available : Bool) (data : Nat)
    (lcd : Lcd) :
    Receives font.places.length lcd
      (if available then rtSpiSend (fontBuf font data lcd) lcd
        else sendGlyph font data lcd) := by
  cases available with
  | true =>
      exact receives_rtSpiSend _ _
        ((length_fontBuf font data lcd).trans full.symm) lcd
  | false =>
      have all := receives_foldl font.places
        (fun lcd place => lcdWriteHalfWord (font.color data lcd place) lcd)
        1 (fun lcd place => receives_halfWord _ lcd) lcd
      rw [Nat.mul_one] at all
      exact all

/-! ## One character -/

/-- The window of a character of size 24. -/
def charWindow (x y : Nat) : Window :=
  ⟨x, y, x + 11, y + 23, Nat.le_add_right _ _, Nat.le_add_right _ _⟩

/-- What a drawing did beyond what it had done. -/
structure Adds (before after : Drawing) (calls : List Call)
    (reads : List FontRead) (pixels : List Pixel) : Prop where
  calls : after.calls = before.calls ++ calls
  reads : after.reads = before.reads ++ reads
  paints : Paints before.lcd after.lcd pixels

theorem Adds.trans
    {before between after : Drawing} {calls more : List Call}
    {reads others : List FontRead} {pixels further : List Pixel}
    (earlier : Adds before between calls reads pixels)
    (later : Adds between after more others further) :
    Adds before after (calls ++ more) (reads ++ others)
      (pixels ++ further) := by
  constructor
  · rw [later.calls, earlier.calls, List.append_assoc]
  · rw [later.reads, earlier.reads, List.append_assoc]
  · rw [Paints, later.paints, earlier.paints, List.append_assoc]

/-- The reads of one character of size 24. -/
def charReads (character : UInt8) : List FontRead :=
  (List.range 48).map fun pos =>
    ⟨24, character, (character - ascii ' ').toNat * 48 + pos⟩

theorem readsOf_2412 (fonts : Fonts) (character : UInt8) :
    (font2412 fonts).readsOf character (character - ascii ' ').toNat =
      charReads character := by
  have offset : ∀ data, (font2412 fonts).offset data = data * 48 := by
    intro data
    show data * (24 * 16) / 8 = data * 48
    omega
  rw [Font.readsOf, charReads, offset]
  rfl

/-- A character inside the panel paints its window. -/
theorem lcdShowChar_adds
    (fonts : Fonts) (available : Bool) {x y : Nat} (character : UInt8)
    (drawing : Drawing) (column : x ≤ 228) (row : y ≤ 216) :
    ∃ pixels,
      Adds drawing (lcdShowChar fonts available x y character 24 drawing)
        [.showChar x y character] (charReads character) pixels ∧
      pixels.map Pixel.cell = (charWindow x y).cells 0 288 := by
  have inside : ¬ (x > u32 (240 - (24 / 2 : Nat)) ∨
      y > u32 (240 - (24 : Nat))) := by
    simp only [u32]
    omega
  have right : u16 ((x : Int) + (24 : Nat) / 2 - 1) = x + 11 := by
    simp only [u16]
    omega
  have bottom : u16 ((y : Int) + (24 : Nat) - 1) = y + 23 := by
    simp only [u16]
    omega
  have opened : (lcdAddressSet x y (x + 11) (y + 23) drawing.lcd).window =
      some (charWindow x y) :=
    dif_pos ⟨Nat.le_add_right _ _, Nat.le_add_right _ _⟩
  obtain ⟨pixels, painted, cells⟩ :=
    (receives_glyph (full_2412 fonts) available
      (character - ascii ' ').toNat
      (lcdAddressSet x y (x + 11) (y + 23) drawing.lcd)).cells opened
  have all : (font2412 fonts).places.length = 288 := by
    have full : 2 * (font2412 fonts).places.length = 24 * 24 :=
      full_2412 fonts
    omega
  rw [all] at cells
  refine ⟨pixels, ?_, cells⟩
  rw [lcdShowChar]
  dsimp only
  have branch : fontOf fonts 24 = some (font2412 fonts) := rfl
  rw [if_neg inside, branch]
  dsimp only
  rw [right, bottom, readsOf_2412]
  exact ⟨rfl, rfl, painted⟩

/-- The first pixel of a character lies at its origin. -/
theorem origin_painted
    {x y : Nat} {pixels : List Pixel}
    (cells : pixels.map Pixel.cell = (charWindow x y).cells 0 288) :
    ∃ pixel ∈ pixels, pixel.cell = (x, y) := by
  have first : (x, y) ∈ (charWindow x y).cells 0 288 := by
    rw [Window.cells]
    exact List.mem_map.mpr ⟨0, by simp, by simp [Window.cell, charWindow]⟩
  rw [← cells] at first
  exact List.mem_map.mp first

/-! ## Strings -/

/-- The characters handed to `lcd_show_char`. -/
def handed (calls : List Call) : List UInt8 :=
  calls.filterMap fun call =>
    match call with
    | .clear => none
    | .showChar _ _ character => some character

theorem handed_append (calls more : List Call) :
    handed (calls ++ more) = handed calls ++ handed more :=
  List.filterMap_append ..

theorem lcdClear_eq (available : Bool) (color : Color) (lcd : Lcd) :
    lcdClear available color lcd =
      (lcdAddressSet 0 0 239 239 lcd).receives (240 * 240) color := by
  rw [lcdClear]
  cases available with
  | true =>
      simp only [rtSpiSend_replicate, if_true]
      rw [foldl_receives, List.length_range]
      rfl
  | false =>
      simp only [foldl_halfWord, List.length_range]
      rw [if_neg Bool.false_ne_true, foldl_receives, List.length_range]

/-- Clearing the screen paints, whatever memory there is. -/
theorem lcdClear_paints (available : Bool) (color : Color) (lcd : Lcd) :
    ∃ pixels, Paints lcd (lcdClear available color lcd) pixels :=
  ⟨_, by rw [lcdClear_eq]; rfl⟩

theorem overflow_adds (available : Bool) (drawing : Drawing) :
    ∃ pixels,
      Adds drawing (overflow available drawing) [.clear] [] pixels := by
  obtain ⟨pixels, painted⟩ := lcdClear_paints available red drawing.lcd
  exact ⟨pixels, rfl, (List.append_nil _).symm, painted⟩

section Loop

variable (fonts : Fonts) (available : Nat → Bool)

/-- A character that fits is shown at the origin. -/
theorem showLoop_fits
    {x y : Nat} (character : UInt8) (rest : List UInt8)
    (drawing : Drawing) (column : x ≤ 228) (row : y ≤ 216) :
    showLoop fonts available 24 x y (character :: rest) drawing =
      showLoop fonts available 24 (x + 12) y rest
        (lcdShowChar fonts (available drawing.calls.length) x y character
          24 drawing) := by
  have right : ¬ x > u32 (240 - (24 / 2 : Nat)) := by
    simp only [u32]
    omega
  have bottom : ¬ y > u32 (240 - (24 : Nat)) := by
    simp only [u32]
    omega
  have next : u16 ((x : Int) + (24 : Nat) / 2) = x + 12 := by
    simp only [u16]
    omega
  rw [showLoop]
  simp only [if_neg right, if_neg bottom, next]

/-- A character at the right edge is shown on the next line. -/
theorem showLoop_wraps
    {x y : Nat} (character : UInt8) (rest : List UInt8)
    (drawing : Drawing) (column : 228 < x)
    (row : u16 ((y : Int) + (24 : Nat)) ≤ 216) :
    showLoop fonts available 24 x y (character :: rest) drawing =
      showLoop fonts available 24 12 (u16 ((y : Int) + (24 : Nat))) rest
        (lcdShowChar fonts (available drawing.calls.length) 0
          (u16 ((y : Int) + (24 : Nat))) character 24 drawing) := by
  have right : x > u32 (240 - (24 / 2 : Nat)) := by
    simp only [u32]
    omega
  have bottom : ¬ u16 ((y : Int) + (24 : Nat)) >
      u32 (240 - (24 : Nat)) := by
    simp only [u32]
    omega
  rw [showLoop]
  simp only [if_pos right, if_neg bottom]
  rfl

/-- A character below the panel is shown on a cleared screen. -/
theorem showLoop_overflows
    {x y : Nat} (character : UInt8) (rest : List UInt8)
    (drawing : Drawing)
    (row : 216 < if 228 < x then u16 ((y : Int) + (24 : Nat)) else y) :
    showLoop fonts available 24 x y (character :: rest) drawing =
      let cleared := overflow (available drawing.calls.length) drawing
      showLoop fonts available 24 12 0 rest
        (lcdShowChar fonts (available cleared.calls.length) 0 0 character
          24 cleared) := by
  have bottom : (if x > u32 (240 - (24 / 2 : Nat)) then
      u16 ((y : Int) + (24 : Nat)) else y) > u32 (240 - (24 : Nat)) := by
    have right : u32 (240 - (24 / 2 : Nat)) = 228 := rfl
    have lower : u32 (240 - (24 : Nat)) = 216 := rfl
    rw [right, lower]
    exact row
  rw [showLoop]
  simp only [if_pos bottom]
  rfl

/-- Any character is shown somewhere inside the panel. -/
theorem showLoop_step
    (x y : Nat) (character : UInt8) (rest : List UInt8)
    (drawing : Drawing) :
    ∃ atX atY after calls pixels,
      Adds drawing after calls (charReads character) pixels ∧
      handed calls = [character] ∧
      showLoop fonts available 24 x y (character :: rest) drawing =
        showLoop fonts available 24 atX atY rest after := by
  by_cases low : 216 < if 228 < x then u16 ((y : Int) + (24 : Nat)) else y
  · obtain ⟨pixels, cleared⟩ :=
      overflow_adds (available drawing.calls.length) drawing
    obtain ⟨others, shown, -⟩ := lcdShowChar_adds fonts
      (available (overflow (available drawing.calls.length)
        drawing).calls.length) character
      (overflow (available drawing.calls.length) drawing)
      (Nat.zero_le 228) (Nat.zero_le 216)
    exact ⟨12, 0, _, _, _, cleared.trans shown, rfl,
      showLoop_overflows fonts available character rest drawing low⟩
  · by_cases right : 228 < x
    · rw [if_pos right, Nat.not_lt] at low
      obtain ⟨pixels, shown, -⟩ := lcdShowChar_adds fonts
        (available drawing.calls.length) character drawing
        (Nat.zero_le 228) low
      exact ⟨12, _, _, _, _, shown, rfl,
        showLoop_wraps fonts available character rest drawing right low⟩
    · rw [if_neg right, Nat.not_lt] at low
      rw [Nat.not_lt] at right
      obtain ⟨pixels, shown, -⟩ := lcdShowChar_adds fonts
        (available drawing.calls.length) character drawing right low
      exact ⟨x + 12, y, _, _, _, shown, rfl,
        showLoop_fits fonts available character rest drawing right low⟩

/-- A string hands on its characters, and reads for each of them. -/
theorem showLoop_adds
    (x y : Nat) (text : List UInt8) (drawing : Drawing) :
    ∃ calls pixels,
      Adds drawing (showLoop fonts available 24 x y text drawing) calls
        (text.flatMap charReads) pixels ∧
      handed calls = text := by
  induction text generalizing x y drawing with
  | nil =>
      exact ⟨[], [], ⟨(List.append_nil _).symm, (List.append_nil _).symm,
        (List.append_nil _).symm⟩, rfl⟩
  | cons character rest induction =>
      obtain ⟨atX, atY, after, calls, pixels, shown, one, same⟩ :=
        showLoop_step fonts available x y character rest drawing
      obtain ⟨more, others, later, all⟩ := induction atX atY after
      refine ⟨calls ++ more, pixels ++ others, ?_, ?_⟩
      · rw [same]
        exact shown.trans later
      · rw [handed_append, one, all]
        rfl

/-- The calls of a string that fits in one line. -/
def rowCalls (y : Nat) : Nat → List UInt8 → List Call
  | _, [] => []
  | x, character :: rest =>
      .showChar x y character :: rowCalls y (x + 12) rest

/-- A string that fits paints its own lines only. -/
theorem showLoop_row
    {x y : Nat} {text : List UInt8} (drawing : Drawing)
    (fits : x + 12 * text.length ≤ 240) (row : y ≤ 216) :
    ∃ pixels,
      Adds drawing (showLoop fonts available 24 x y text drawing)
        (rowCalls y x text) (text.flatMap charReads) pixels ∧
      ∀ pixel ∈ pixels, y ≤ pixel.cell.2 ∧ pixel.cell.2 ≤ y + 23 := by
  induction text generalizing x drawing with
  | nil =>
      refine ⟨[], ⟨(List.append_nil _).symm, (List.append_nil _).symm,
        (List.append_nil _).symm⟩, ?_⟩
      intro pixel member
      cases member
  | cons character rest induction =>
      rw [List.length_cons] at fits
      have column : x ≤ 228 := by omega
      obtain ⟨pixels, shown, cells⟩ := lcdShowChar_adds fonts
        (available drawing.calls.length) character drawing column row
      obtain ⟨others, later, inside⟩ := induction
        (lcdShowChar fonts (available drawing.calls.length) x y character
          24 drawing) (x := x + 12) (by omega)
      refine ⟨pixels ++ others, ?_, ?_⟩
      · rw [showLoop_fits fonts available character rest drawing column row]
        exact shown.trans later
      · intro pixel member
        rcases List.mem_append.mp member with own | other
        · have cell := List.mem_map_of_mem (f := Pixel.cell) own
          rw [cells] at cell
          exact (Window.inside_of_mem cell).2
        · exact inside pixel other

/-- A string that does not fit paints other lines, too. -/
theorem showLoop_escapes
    {x y : Nat} {text : List UInt8} (drawing : Drawing)
    (column : x ≤ 240) (long : 240 < x + 12 * text.length)
    (row : y ≤ 216) (below : 0 < y) :
    ∃ calls pixels,
      Adds drawing (showLoop fonts available 24 x y text drawing) calls
        (text.flatMap charReads) pixels ∧
      ∃ pixel ∈ pixels, ¬ (y ≤ pixel.cell.2 ∧ pixel.cell.2 ≤ y + 23) := by
  induction text generalizing x drawing with
  | nil =>
      rw [List.length_nil] at long
      omega
  | cons character rest induction =>
      rw [List.length_cons] at long
      by_cases right : 228 < x
      · have next : u16 ((y : Int) + (24 : Nat)) = y + 24 := by
          simp only [u16]
          omega
        by_cases last : y + 24 ≤ 216
        · obtain ⟨pixels, shown, cells⟩ := lcdShowChar_adds fonts
            (available drawing.calls.length) character drawing
            (Nat.zero_le 228) last
          obtain ⟨more, others, later, -⟩ := showLoop_adds fonts available
            12 (y + 24) rest (lcdShowChar fonts
              (available drawing.calls.length) 0 (y + 24) character 24
              drawing)
          obtain ⟨pixel, member, origin⟩ := origin_painted cells
          refine ⟨[.showChar 0 (y + 24) character] ++ more,
            pixels ++ others, ?_, pixel,
            List.mem_append_left _ member, ?_⟩
          · rw [showLoop_wraps fonts available character rest drawing right
              (next ▸ last), next]
            exact shown.trans later
          · rw [origin]
            dsimp only
            omega
        · have low : 216 < if 228 < x then u16 ((y : Int) + (24 : Nat))
              else y := by
            rw [if_pos right, next]
            omega
          obtain ⟨earlier, cleared⟩ :=
            overflow_adds (available drawing.calls.length) drawing
          obtain ⟨pixels, shown, cells⟩ := lcdShowChar_adds fonts
            (available (overflow (available drawing.calls.length)
              drawing).calls.length) character
            (overflow (available drawing.calls.length) drawing)
            (Nat.zero_le 228) (Nat.zero_le 216)
          obtain ⟨more, others, later, -⟩ := showLoop_adds fonts available
            12 0 rest (lcdShowChar fonts
              (available (overflow (available drawing.calls.length)
                drawing).calls.length) 0 0 character 24
              (overflow (available drawing.calls.length) drawing))
          obtain ⟨pixel, member, origin⟩ := origin_painted cells
          refine ⟨[.clear] ++ [.showChar 0 0 character] ++ more,
            earlier ++ pixels ++ others, ?_, pixel,
            List.mem_append_left _ (List.mem_append_right _ member), ?_⟩
          · rw [showLoop_overflows fonts available character rest drawing
              low]
            exact (cleared.trans shown).trans later
          · rw [origin]
            dsimp only
            omega
      · rw [Nat.not_lt] at right
        obtain ⟨pixels, shown, -⟩ := lcdShowChar_adds fonts
          (available drawing.calls.length) character drawing right row
        obtain ⟨more, others, later, pixel, member, outside⟩ := induction
          (lcdShowChar fonts (available drawing.calls.length) x y character
            24 drawing) (x := x + 12) (by omega) (by omega)
        refine ⟨[.showChar x y character] ++ more, pixels ++ others, ?_,
          pixel, List.mem_append_right _ member, outside⟩
        rw [showLoop_fits fonts available character rest drawing right row]
        exact shown.trans later

end Loop

end InternetWavPlayer.TextCells
