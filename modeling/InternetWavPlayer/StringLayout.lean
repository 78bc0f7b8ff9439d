import InternetWavPlayer.GlyphStreams

/-!
# Where the characters of a string go

Before each character `lcd_show_string` wraps a full line and clears a full
screen, and so moves the cursor to a cell on the panel.  What was shown since
the last clearing lies behind the cursor: on a line above, or on the line of
the cursor and left of it.  So a character never meets an earlier one, whatever
the start position was.
-/

namespace InternetWavPlayer.StringLayout

open InternetWavPlayer.AddressWindow
open InternetWavPlayer.Display (Color red u16)
open InternetWavPlayer.Songlist (blockText)
open InternetWavPlayer.DrvLcd
open InternetWavPlayer.Vsnprintf
open InternetWavPlayer.TextDrawing
open InternetWavPlayer.TextCells
open InternetWavPlayer.GlyphStreams

/-! ## The layout of a text -/

/-- The column of the next character. -/
def column (size x : Nat) : Nat :=
  if 240 - size / 2 < x then 0 else x

/-- The line of the next character, in 16-bit arithmetic. -/
def line (size x y : Nat) : Nat :=
  if 240 - size / 2 < x then (y + size) % 65536 else y

/-- The calls for a text, from a cursor on. -/
def layout (size : Nat) : Nat → Nat → List UInt8 → List Call
  | _, _, [] => []
  | x, y, character :: rest =>
      if 240 - size < line size x y then
        .clear :: .showChar 0 0 character :: layout size (size / 2) 0 rest
      else
        .showChar (column size x) (line size x y) character ::
          layout size (column size x + size / 2) (line size x y) rest

/-- A pixel belongs to the cell of a call. -/
def Covers (size : Nat) (call : Call) (cell : Nat × Nat) : Prop :=
  ∃ x y character, call = .showChar x y character ∧
    (x ≤ cell.1 ∧ cell.1 < x + size / 2) ∧
      y ≤ cell.2 ∧ cell.2 < y + size

/-- The cells of two calls have no pixel in common. -/
def Apart (size : Nat) (first second : Call) : Prop :=
  ∀ cell, Covers size first cell → ¬ Covers size second cell

/--
All characters of a text are handed on in order, to cells on the panel that are
pairwise disjoint between two clearings.
-/
structure LaidOut (size : Nat) (text : List UInt8) (calls : List Call) :
    Prop where
  handed : handed calls = text
  onPanel : ∀ x y character, .showChar x y character ∈ calls →
    x + size / 2 ≤ 240 ∧ y + size ≤ 240
  apart : ∀ part, part <:+: calls → .clear ∉ part →
    part.Pairwise (Apart size)

section Layout

variable {size : Nat} (small : size ≤ 240)

/-- A cell that was shown before the cursor came where it is. -/
def Behind (size cellX cellY x y : Nat) : Prop :=
  cellY + size ≤ y ∨ cellY = y ∧ cellX + size / 2 ≤ x

/-- From a line of the panel the cursor does not move back. -/
theorem Behind.place
    {cellX cellY x y : Nat} (behind : Behind size cellX cellY x y)
    (cursor : y + size ≤ 240) :
    Behind size cellX cellY (column size x) (line size x y) := by
  rw [Behind] at behind ⊢
  rw [column, line]
  split <;> omega

theorem Behind.apart
    {cellX cellY x y : Nat} (behind : Behind size cellX cellY x y)
    (shown next : UInt8) :
    Apart size (.showChar cellX cellY shown) (.showChar x y next) := by
  rintro cell ⟨_, _, _, first, inside⟩ ⟨_, _, _, second, other⟩
  cases first
  cases second
  rw [Behind] at behind
  omega

/-- A cleared screen is written from its upper left corner. -/
theorem layout_origin (character : UInt8) (rest : List UInt8) :
    layout size 0 0 (character :: rest) =
      .showChar 0 0 character :: layout size (size / 2) 0 rest := by
  have first : column size 0 = 0 := if_neg (Nat.not_lt_zero _)
  have top : line size 0 0 = 0 := if_neg (Nat.not_lt_zero _)
  rw [layout, top, first, if_neg (Nat.not_lt_zero _), Nat.zero_add]

theorem handed_layout (x y : Nat) (text : List UInt8) :
    handed (layout size x y text) = text := by
  induction text generalizing x y with
  | nil => rfl
  | cons character rest induction =>
      rw [layout]
      split
      · exact congrArg (character :: ·) (induction _ _)
      · exact congrArg (character :: ·) (induction _ _)

include small

theorem onPanel_layout
    (x y : Nat) (text : List UInt8) (atX atY : Nat) (character : UInt8)
    (member : .showChar atX atY character ∈ layout size x y text) :
    atX + size / 2 ≤ 240 ∧ atY + size ≤ 240 := by
  induction text generalizing x y with
  | nil => cases member
  | cons next rest induction =>
      rw [layout] at member
      by_cases low : 240 - size < line size x y
      · rw [if_pos low] at member
        rcases List.mem_cons.mp member with same | member
        · cases same
        rcases List.mem_cons.mp member with same | later
        · cases same
          omega
        · exact induction _ _ later
      · rw [if_neg low] at member
        rcases List.mem_cons.mp member with same | later
        · cases same
          have right : column size x + size / 2 ≤ 240 := by
            rw [column]
            split <;> omega
          exact ⟨right, by omega⟩
        · exact induction _ _ later

/-- Up to the next clearing nothing meets what lies behind the cursor. -/
theorem apart_from_cursor
    (x y : Nat) (text : List UInt8) (part : List Call)
    (begins : part <+: layout size x y text) (whole : .clear ∉ part) :
    part.Pairwise (Apart size) ∧
      ∀ cellX cellY shown, Behind size cellX cellY x y →
        y + size ≤ 240 → ∀ call ∈ part,
          Apart size (.showChar cellX cellY shown) call := by
  induction text generalizing x y part with
  | nil =>
      rw [layout, List.prefix_nil] at begins
      subst begins
      exact ⟨.nil, fun _ _ _ _ _ call member => absurd member
        (List.not_mem_nil)⟩
  | cons character rest induction =>
      cases part with
      | nil =>
          exact ⟨.nil, fun _ _ _ _ _ call member => absurd member
            (List.not_mem_nil)⟩
      | cons head tail =>
          rw [layout] at begins
          by_cases low : 240 - size < line size x y
          · rw [if_pos low, List.cons_prefix_cons] at begins
            rw [begins.1] at whole
            exact absurd (List.mem_cons_self ..) whole
          · rw [if_neg low, List.cons_prefix_cons] at begins
            obtain ⟨rfl, begins⟩ := begins
            have cursor : line size x y + size ≤ 240 := by omega
            obtain ⟨pairwise, later⟩ := induction _ _ tail begins
              fun member => whole (List.mem_cons_of_mem _ member)
            refine ⟨List.Pairwise.cons ?_ pairwise, ?_⟩
            · exact later _ _ character (Or.inr ⟨rfl, le_rfl⟩) cursor
            · intro cellX cellY shown behind above call member
              have placed := behind.place above
              rcases List.mem_cons.mp member with rfl | after
              · exact placed.apart shown character
              · refine later cellX cellY shown ?_ cursor call after
                exact placed.imp_right fun same =>
                  ⟨same.1, same.2.trans (Nat.le_add_right _ _)⟩

/-- Between two clearings the cells are pairwise disjoint. -/
theorem apart_of_infix
    (x y : Nat) (text : List UInt8) (part : List Call)
    (among : part <:+: layout size x y text) (whole : .clear ∉ part) :
    part.Pairwise (Apart size) := by
  induction text generalizing x y with
  | nil =>
      rw [layout, List.infix_nil] at among
      subst among
      exact .nil
  | cons character rest induction =>
      by_cases low : 240 - size < line size x y
      · have cleared : layout size x y (character :: rest) =
            .clear :: layout size 0 0 (character :: rest) := by
          rw [layout_origin, layout, if_pos low]
        rw [cleared, List.infix_cons_iff, ← cleared] at among
        rcases among with begins | among
        · exact (apart_from_cursor small x y _ part begins whole).1
        rw [layout_origin, List.infix_cons_iff, ← layout_origin] at among
        rcases among with begins | among
        · exact (apart_from_cursor small 0 0 _ part begins whole).1
        · exact induction _ _ among
      · have shown : layout size x y (character :: rest) =
            .showChar (column size x) (line size x y) character ::
              layout size (column size x + size / 2) (line size x y)
                rest := by
          rw [layout, if_neg low]
        rw [shown, List.infix_cons_iff, ← shown] at among
        rcases among with begins | among
        · exact (apart_from_cursor small x y _ part begins whole).1
        · exact induction _ _ among

theorem laidOut_layout (x y : Nat) (text : List UInt8) :
    LaidOut size text (layout size x y text) where
  handed := handed_layout x y text
  onPanel := onPanel_layout small x y text
  apart := apart_of_infix small x y text

end Layout

/-- The line after the last 16-bit one is a line of the panel. -/
example : layout 16 65535 65535 [65, 66] =
    [.showChar 0 15 65, .showChar 8 15 66] := by
  decide

/-! ## The loop over the buffer -/

/-- One pass of the loop: the next cursor, and the drawing. -/
def showOne (fonts : Fonts) (available : Nat → Bool) (size x y : Nat)
    (character : UInt8) (drawing : Drawing) : Nat × Nat × Drawing :=
  let wraps := x > u32 (240 - (size / 2 : Nat))
  let x := if wraps then 0 else x
  let y := if wraps then u16 (y + size) else y
  if y > u32 (240 - size) then
    let drawing := overflow (available drawing.calls.length) drawing
    (u16 (0 + size / 2), 0,
      lcdShowChar fonts (available drawing.calls.length) 0 0 character
        size drawing)
  else
    (u16 (x + size / 2), y,
      lcdShowChar fonts (available drawing.calls.length) x y character
        size drawing)

/--
The loop as it runs over the buffer, with the pointer.  It has no result where
`fuel` passes do not end it, and where it reads behind the buffer.
-/
def showBuf (fonts : Fonts) (available : Nat → Bool) (size : Nat)
    (buf : List UInt8) : Nat → Nat → Nat → Nat → Drawing → Option Drawing
  | 0, _, _, _, _ => none
  | fuel + 1, p, x, y, drawing =>
      match buf[p]? with
      | none => none
      | some character =>
          if character = 0 then some drawing
          else
            let next := showOne fonts available size x y character drawing
            showBuf fonts available size buf fuel (p + 1) next.1 next.2.1
              next.2.2

section Loop

variable (fonts : Fonts) (available : Nat → Bool) (size : Nat)

theorem showLoop_cons
    (x y : Nat) (character : UInt8) (rest : List UInt8)
    (drawing : Drawing) :
    showLoop fonts available size x y (character :: rest) drawing =
      let next := showOne fonts available size x y character drawing
      showLoop fonts available size next.1 next.2.1 rest next.2.2 := by
  rw [showLoop, showOne]
  dsimp only
  generalize (if x > u32 (240 - (size / 2 : Nat)) then
    u16 ((y : Int) + size) else y) = newY
  split
  · rfl
  · rfl

/-- The loop ends at the end of the text, whatever lies behind it. -/
theorem showBuf_ends
    (before text behind : List UInt8) (solid : ∀ byte ∈ text, byte ≠ 0)
    (fuel x y : Nat) (enough : text.length < fuel) (drawing : Drawing) :
    showBuf fonts available size (before ++ text ++ 0 :: behind) fuel
        before.length x y drawing =
      some (showLoop fonts available size x y text drawing) := by
  induction text generalizing before fuel x y drawing with
  | nil =>
      cases fuel with
      | zero => exact absurd enough (Nat.not_lt_zero _)
      | succ fuel =>
          have read : (before ++ [] ++ 0 :: behind)[before.length]? =
              some (0 : UInt8) := by
            simp
          rw [showBuf, read]
          rfl
  | cons character rest induction =>
      cases fuel with
      | zero => exact absurd enough (Nat.not_lt_zero _)
      | succ fuel =>
          have nonzero : character ≠ 0 := solid _ (List.mem_cons_self ..)
          have step := induction (before ++ [character])
            (fun byte member => solid byte (List.mem_cons_of_mem _ member))
            fuel
          rw [List.length_append, List.length_singleton,
            List.append_assoc before [character] rest] at step
          have read : (before ++ character :: rest ++ 0 :: behind)[
              before.length]? = some character := by
            simp
          rw [showBuf, read]
          dsimp only
          rw [if_neg nonzero, showLoop_cons]
          exact step _ _ (by
            rw [List.length_cons] at enough
            omega) _

end Loop

/-! ## What the calls paint -/

/-- The pixels of a call, in the colours of the driver. -/
def callPixels (font : Font) (lcd : Lcd) : Call → List Pixel
  | .clear => panelPixels red
  | .showChar x y character =>
      glyphPixels font x y (character - ascii ' ').toNat lcd

/-- The pixels of a call depend on the two colours only. -/
theorem callPixels_congr
    (font : Font) {lcd other : Lcd} (fore : lcd.foreColor = other.foreColor)
    (back : lcd.backColor = other.backColor) :
    callPixels font lcd = callPixels font other := by
  funext call
  cases call with
  | clear => rfl
  | showChar x y character =>
      simp only [callPixels, glyphPixels, ink, fore, back]

theorem overflow_draws
    (font : Font) (available : Bool) (drawing : Drawing) :
    Draws drawing (overflow available drawing) [.clear]
      (callPixels font drawing.lcd .clear) := by
  have painted := lcdClear_panel available red drawing.lcd
  constructor
  case calls => rfl
  case fore =>
    show (lcdClear available red drawing.lcd).foreColor = _
    rw [lcdClear_eq]
    rfl
  case back =>
    show (lcdClear available red drawing.lcd).backColor = _
    rw [lcdClear_eq]
    rfl
  case paints => exact painted

/-- The calls that follow see the same colours. -/
theorem draws_followed
    {font : Font} {before between after : Drawing} {calls more : List Call}
    {pixels : List Pixel} (earlier : Draws before between calls pixels)
    (later : Draws between after more
      (more.flatMap (callPixels font between.lcd))) :
    Draws before after (calls ++ more)
      (pixels ++ more.flatMap (callPixels font before.lcd)) := by
  rw [← callPixels_congr font earlier.fore earlier.back]
  exact earlier.trans later

section Painting

variable {fonts : Fonts} {font : Font} {size : Nat}
  (found : fontOf fonts size = some font)

include found

/-- Where the loop shows a character, and where it goes on. -/
theorem showOne_eq
    (available : Nat → Bool) (x y : Nat) (character : UInt8)
    (drawing : Drawing) :
    showOne fonts available size x y character drawing =
      if 240 - size < line size x y then
        let cleared := overflow (available drawing.calls.length) drawing
        (size / 2, 0, lcdShowChar fonts (available cleared.calls.length)
          0 0 character size cleared)
      else
        (column size x + size / 2, line size x y,
          lcdShowChar fonts (available drawing.calls.length)
            (column size x) (line size x y) character size drawing) := by
  have some := fontOf_size found
  have right : u32 (240 - (size / 2 : Nat)) = 240 - size / 2 := by
    simp only [u32]
    omega
  have bottom : u32 (240 - size) = 240 - size := by
    simp only [u32]
    omega
  have first : u16 ((0 : Int) + size / 2) = size / 2 := by
    simp only [u16]
    omega
  have next : u16 ((column size x : Int) + size / 2) =
      column size x + size / 2 := by
    simp only [u16, column]
    split <;> omega
  have wrapped : u16 ((y : Int) + size) = (y + size) % 65536 := by
    simp only [u16]
    omega
  rw [showOne]
  dsimp only
  rw [right, bottom, first, wrapped, ← next]
  rfl

/-- The loop makes the calls of the layout, and they paint their pixels. -/
theorem showLoop_draws
    (available : Nat → Bool) (x y : Nat) (text : List UInt8)
    (drawing : Drawing) :
    Draws drawing (showLoop fonts available size x y text drawing)
      (layout size x y text)
      ((layout size x y text).flatMap (callPixels font drawing.lcd)) := by
  obtain ⟨-, sized⟩ := regular_of_fontOf found
  have some := fontOf_size found
  have width : columnsOf font = size / 2 := by
    rw [columnsOf, sized]
  induction text generalizing x y drawing with
  | nil =>
      exact ⟨(List.append_nil _).symm, rfl, rfl, (List.append_nil _).symm⟩
  | cons character rest induction =>
      rw [showLoop_cons, showOne_eq found, layout]
      by_cases low : 240 - size < line size x y
      · rw [if_pos low, if_pos low]
        have cleared := overflow_draws font
          (available drawing.calls.length) drawing
        have shown := lcdShowChar_draws found
          (available (overflow (available drawing.calls.length)
            drawing).calls.length) character
          (overflow (available drawing.calls.length) drawing)
          (x := 0) (y := 0) (by omega) (by omega)
        exact draws_followed cleared
          (draws_followed shown (induction _ _ _))
      · rw [if_neg low, if_neg low]
        have shown := lcdShowChar_draws found
          (available drawing.calls.length) character drawing
          (x := column size x) (y := line size x y)
          (by rw [width, column]; split <;> omega) (by omega)
        exact draws_followed shown (induction _ _ _)

end Painting

/-! ## What the panel shows -/

/-- The colour of a cell of the panel: the one it was painted with last. -/
def shownAt (painted : List Pixel) (cell : Nat × Nat) : Option Color :=
  (painted.filter fun pixel => pixel.cell = cell).getLast?.map Pixel.color

theorem shownAt_append
    (earlier later : List Pixel) (cell : Nat × Nat) :
    shownAt (earlier ++ later) cell =
      (shownAt later cell).or (shownAt earlier cell) := by
  rw [shownAt, List.filter_append, List.getLast?_append, Option.map_or]
  rfl

/-- Pixels elsewhere do not change what a cell shows. -/
theorem shownAt_append_of_untouched
    {earlier later : List Pixel} {cell : Nat × Nat}
    (untouched : ∀ pixel ∈ later, pixel.cell ≠ cell) :
    shownAt (earlier ++ later) cell = shownAt earlier cell := by
  have none_left : (later.filter fun pixel => pixel.cell = cell) = [] := by
    rw [List.filter_eq_nil_iff]
    exact fun pixel member => by simpa using untouched pixel member
  rw [shownAt_append, shownAt, none_left]
  rfl

/-- A character shows the bits of its glyph. -/
theorem shownAt_glyphPixels
    (font : Font) (x y data : Nat) (lcd : Lcd) (earlier : List Pixel)
    {row column : Nat} (above : row < font.size)
    (left : column < columnsOf font) :
    shownAt (earlier ++ glyphPixels font x y data lcd)
        (x + column, y + row) =
      some (ink font data lcd (row, column)) := by
  have own : (⟨(x + column, y + row), ink font data lcd (row, column)⟩ :
      Pixel) ∈ (glyphPixels font x y data lcd).filter
        fun pixel => pixel.cell = (x + column, y + row) := by
    rw [List.mem_filter]
    exact ⟨List.mem_map.mpr ⟨(row, column), mem_grid.mpr ⟨above, left⟩,
      rfl⟩, decide_eq_true rfl⟩
  rw [shownAt_append, shownAt]
  cases last : ((glyphPixels font x y data lcd).filter
      fun pixel => pixel.cell = (x + column, y + row)).getLast? with
  | none =>
      rw [List.getLast?_eq_none_iff] at last
      rw [last] at own
      cases own
  | some pixel =>
      have member := List.mem_of_getLast? last
      rw [List.mem_filter, decide_eq_true_eq] at member
      obtain ⟨inside, same⟩ := member
      obtain ⟨place, -, rfl⟩ := List.mem_map.mp inside
      have equal : place = (row, column) := by
        dsimp only at same
        rw [Prod.mk.injEq] at same
        exact Prod.ext (by dsimp only; omega) (by dsimp only; omega)
      rw [equal]
      rfl

/-- A painted pixel lies in the cell of its character. -/
theorem covers_of_mem
    {font : Font} {x y : Nat} {character : UInt8} {lcd : Lcd}
    {pixel : Pixel}
    (member : pixel ∈ callPixels font lcd (.showChar x y character)) :
    Covers font.size (.showChar x y character) pixel.cell := by
  obtain ⟨place, inside, rfl⟩ := List.mem_map.mp member
  obtain ⟨above, left⟩ := mem_grid.mp inside
  rw [columnsOf] at left
  exact ⟨x, y, character, rfl, ⟨Nat.le_add_right _ _,
    Nat.add_lt_add_left left x⟩, Nat.le_add_right _ _,
    Nat.add_lt_add_left above y⟩

/-- From its call to the next clearing a character shows its whole glyph. -/
def Kept (font : Font) (lcd : Lcd) (calls : List Call) : Prop :=
  ∀ before x y character later rest,
    calls = before ++ (.showChar x y character :: later ++ rest) →
    .clear ∉ later →
      ∀ row < font.size, ∀ column < columnsOf font,
        shownAt (lcd.painted ++
            (before ++ .showChar x y character :: later).flatMap
              (callPixels font lcd)) (x + column, y + row) =
          some (ink font (character - ascii ' ').toNat lcd (row, column))

/-- Calls that are laid out do not paint over each other. -/
theorem LaidOut.kept
    {font : Font} {text : List UInt8} {calls : List Call}
    (laidOut : LaidOut font.size text calls) (lcd : Lcd) :
    Kept font lcd calls := by
  intro before x y character later rest same whole row above column left
  have apart := laidOut.apart (.showChar x y character :: later)
    ⟨before, rest, by rw [same, List.append_assoc]⟩ (by
      intro member
      rcases List.mem_cons.mp member with equal | among
      · cases equal
      · exact whole among)
  rw [List.pairwise_cons] at apart
  have own : Covers font.size (.showChar x y character)
      (x + column, y + row) :=
    ⟨x, y, character, rfl, ⟨Nat.le_add_right _ _,
      Nat.add_lt_add_left left x⟩, Nat.le_add_right _ _,
      Nat.add_lt_add_left above y⟩
  have untouched : ∀ pixel ∈ later.flatMap (callPixels font lcd),
      pixel.cell ≠ (x + column, y + row) := by
    intro pixel member equal
    obtain ⟨call, among, painted⟩ := List.mem_flatMap.mp member
    cases call with
    | clear => exact whole among
    | showChar atX atY other =>
        have covered := covers_of_mem painted
        rw [equal] at covered
        exact apart.1 _ among _ own covered
  rw [List.flatMap_append, List.flatMap_cons, ← List.append_assoc,
    ← List.append_assoc, shownAt_append_of_untouched untouched]
  exact shownAt_glyphPixels font x y _ lcd _ above left

/--
A text is shown: the loop ends at the NUL, whatever lies behind it in the
buffer, all characters are handed on to cells on the panel and painted there,
and none of them paints over another before the next clearing.
-/
structure ShowsText (fonts : Fonts) (available : Nat → Bool)
    (font : Font) (x y : Nat) (text : List UInt8) (before after : Drawing)
    (calls : List Call) : Prop where
  room : text.length < 100
  ends : ∀ behind fuel, text.length < fuel →
    showBuf fonts available font.size (text ++ 0 :: behind) fuel 0 x y
      before = some after
  made : after.calls = before.calls ++ calls
  laidOut : LaidOut font.size text calls
  paints : Paints before.lcd after.lcd
    (calls.flatMap (callPixels font before.lcd))
  kept : Kept font before.lcd calls

/-- What the formatter leaves in the buffer ends at its first NUL. -/
theorem solid_of_formatted
    {fmt text : List UInt8} {args : List Arg}
    (formatted : rtVsnprintf 100 fmt args = .ok text) :
    text.length < 100 ∧ ∀ byte ∈ text, byte ≠ 0 := by
  rw [rtVsnprintf] at formatted
  cases ran : format fmt args with
  | error missing =>
      rw [ran] at formatted
      cases formatted
  | ok printed =>
      rw [ran] at formatted
      cases formatted
      constructor
      · have kept : (blockText (printed.take 99)).length ≤
            (printed.take 99).length :=
          (List.takeWhile_sublist _).length_le
        have short : (printed.take 99).length ≤ 99 := List.length_take_le ..
        exact Nat.lt_succ_of_le (kept.trans short)
      · intro byte member
        simpa using List.mem_takeWhile_imp member

/--
`lcd_show_string` shows every formatted text in full, in each of its sizes and
from any start position.
-/
theorem string_laid_out
    (fonts : Fonts) (available : Nat → Bool) (x y size : Nat)
    (fmt : List UInt8) (args : List Arg) (text : List UInt8)
    (drawing : Drawing) (sized : size = 16 ∨ size = 24 ∨ size = 32)
    (formatted : rtVsnprintf 100 fmt args = .ok text) :
    ∃ font after calls,
      fontOf fonts size = some font ∧ font.size = size ∧
      lcdShowString fonts available x y size fmt args drawing =
        .ok after ∧
      ShowsText fonts available font x y text drawing after calls := by
  obtain ⟨font, found⟩ : ∃ font, fontOf fonts size = some font := by
    rcases sized with rfl | rfl | rfl <;> exact ⟨_, rfl⟩
  obtain ⟨-, rfl⟩ := regular_of_fontOf found
  obtain ⟨room, solid⟩ := solid_of_formatted formatted
  have draws := showLoop_draws found available x y text drawing
  have laidOut : LaidOut font.size text (layout font.size x y text) :=
    laidOut_layout (by omega) x y text
  refine ⟨font, showLoop fonts available font.size x y text drawing,
    layout font.size x y text, found, rfl, ?_, ?_⟩
  · rw [lcdShowString, if_neg (by omega), formatted]
    rfl
  · exact
      { room
        ends := fun behind fuel enough =>
          showBuf_ends fonts available font.size [] text behind solid fuel
            x y enough drawing
        made := draws.calls
        laidOut
        paints := draws.paints
        kept := laidOut.kept drawing.lcd }

/-- Two letters from the last 16-bit position: the line wraps around, too. -/
theorem string_laid_out_wrapping :
    ∃ font after calls,
      fontOf ⟨fun _ => 0x18#8, fun _ => 0x18#8, fun _ => 0x18#8⟩ 16 =
        some font ∧ font.size = 16 ∧
      lcdShowString ⟨fun _ => 0x18#8, fun _ => 0x18#8, fun _ => 0x18#8⟩
        (fun _ => true) 65535 65535 16 [65, 66] [] (.start idleLcd) =
          .ok after ∧
      ShowsText ⟨fun _ => 0x18#8, fun _ => 0x18#8, fun _ => 0x18#8⟩
        (fun _ => true) font 65535 65535 [65, 66] (.start idleLcd) after
        calls :=
  string_laid_out _ (fun _ => true) 65535 65535 16 [65, 66] [] [65, 66]
    (.start idleLcd) (by decide) rfl

end InternetWavPlayer.StringLayout
