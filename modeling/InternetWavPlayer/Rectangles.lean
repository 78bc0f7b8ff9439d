import InternetWavPlayer.LineDrawing

/-!
# Rectangles on the panel

`lcd_draw_rectangle` draws two rows by the fast path, which leaves out their
right ends, and two columns by the general path, which draws both of theirs.
The right column supplies the two corners that the rows leave out.
-/

namespace InternetWavPlayer.Rectangles

open InternetWavPlayer.AddressWindow
open InternetWavPlayer.DrvLcd
open InternetWavPlayer.LineDrawing

/-! ## `lcd_draw_rectangle` -/

/-- Go on drawing where a line returned. -/
def andThen (drawn : Option (Except Fault Lcd))
    (next : Lcd → Option (Except Fault Lcd)) :
    Option (Except Fault Lcd) :=
  drawn.bind fun outcome =>
    match outcome with
    | .ok lcd => next lcd
    | .error fault => some (.error fault)

/-- `lcd_draw_rectangle`. -/
def lcdDrawRectangle (fuel : Nat) (x1 y1 x2 y2 : Nat) (lcd : Lcd) :
    Option (Except Fault Lcd) :=
  andThen (lcdDrawLine fuel x1 y1 x2 y1 lcd) fun lcd =>
    andThen (lcdDrawLine fuel x1 y1 x1 y2 lcd) fun lcd =>
      andThen (lcdDrawLine fuel x1 y2 x2 y2 lcd) fun lcd =>
        lcdDrawLine fuel x2 y1 x2 y2 lcd

/-! ## Cells drawn in the current colour -/

/-- What was painted are the cells of a region, in the current colour. -/
structure Strokes (before after : Lcd) (region : Nat × Nat → Prop) :
    Prop where
  fore : after.foreColor = before.foreColor
  painted : ∃ pixels, Paints before after pixels ∧
    ∀ pixel, pixel ∈ pixels ↔
      region pixel.cell ∧ pixel.color = before.foreColor

theorem Strokes.trans
    {before between after : Lcd} {first second : Nat × Nat → Prop}
    (earlier : Strokes before between first)
    (later : Strokes between after second) :
    Strokes before after fun cell => first cell ∨ second cell := by
  obtain ⟨pixels, paints, each⟩ := earlier.painted
  obtain ⟨more, goesOn, others⟩ := later.painted
  refine ⟨later.fore.trans earlier.fore, pixels ++ more, ?_, ?_⟩
  · rw [Paints, goesOn, paints, List.append_assoc]
  · intro pixel
    rw [List.mem_append, each, others, earlier.fore]
    exact or_and_right.symm

theorem Strokes.congr
    {before after : Lcd} {region other : Nat × Nat → Prop}
    (strokes : Strokes before after region)
    (same : ∀ cell, region cell ↔ other cell) :
    Strokes before after other := by
  obtain ⟨pixels, paints, each⟩ := strokes.painted
  refine ⟨strokes.fore, pixels, paints, fun pixel => ?_⟩
  rw [each, same]

/-! ## The four sides -/

/-- A row from left to right misses its right end. -/
theorem lcdDrawLine_row
    (fuel : Nat) {x1 x2 y : Nat} (lcd : Lcd)
    (forward : x1 ≤ x2) (final : x2 < 240) :
    ∃ after, lcdDrawLine fuel x1 y x2 y lcd = some (.ok after) ∧
      Strokes lcd after fun cell =>
        cell.2 = y ∧ x1 ≤ cell.1 ∧ cell.1 < x2 := by
  have window : (lcdAddressSet x1 y x2 y lcd).window =
      some ⟨x1, y, x2, y, forward, le_rfl⟩ :=
    dif_pos ⟨forward, le_rfl⟩
  refine ⟨(lcdAddressSet x1 y x2 y lcd).receives (x2 - x1)
    lcd.foreColor, ?_, rfl, ?_⟩
  · rw [lcdDrawLine, if_pos rfl,
      drawTransverseLine_forward lcd forward final]
  · refine ⟨(lcdAddressSet x1 y x2 y lcd).coming (x2 - x1)
      lcd.foreColor, rfl, ?_⟩
    have cell_eq : ∀ position < x2 - x1,
        (⟨x1, y, x2, y, forward, le_rfl⟩ : Window).cell position =
          (x1 + position, y) := by
      intro position inside
      have early : position % (x2 - x1 + 1) = position :=
        Nat.mod_eq_of_lt (by omega)
      have single : position / (x2 - x1 + 1) = 0 :=
        Nat.div_eq_of_lt (by omega)
      simp [Window.cell, Window.width, Window.height, early, single]
    intro pixel
    simp only [Lcd.coming, window, Window.cells, List.map_map,
      List.mem_map, List.mem_range'_1]
    constructor
    · rintro ⟨position, ⟨-, inside⟩, rfl⟩
      have early : position < x2 - x1 := by
        have start : (lcdAddressSet x1 y x2 y lcd).position = 0 := rfl
        omega
      rw [Function.comp_apply, cell_eq position early]
      refine ⟨⟨rfl, Nat.le_add_right _ _, ?_⟩, rfl⟩
      dsimp only
      omega
    · rintro ⟨⟨row, left, right⟩, color⟩
      refine ⟨pixel.cell.1 - x1, ⟨Nat.zero_le _, ?_⟩, ?_⟩
      · have start : (lcdAddressSet x1 y x2 y lcd).position = 0 := rfl
        omega
      · rw [Function.comp_apply, cell_eq _ (by omega), ← color]
        have place : (x1 + (pixel.cell.1 - x1), y) = pixel.cell :=
          Prod.ext (by dsimp only; omega) row.symm
        rw [place]

/-- A column has both of its ends. -/
theorem lcdDrawLine_column
    {fuel x y1 y2 : Nat} (lcd : Lcd) (enough : 300 ≤ fuel)
    (column : x < 240) (downward : y1 < y2) (final : y2 < 240) :
    ∃ after, lcdDrawLine fuel x y1 x y2 lcd = some (.ok after) ∧
      Strokes lcd after fun cell =>
        cell.1 = x ∧ y1 ≤ cell.2 ∧ cell.2 ≤ y2 := by
  have still : span x x = 0 := by
    rw [span]
    omega
  have length : longSpan x y1 x y2 = span y1 y2 := by
    rw [longSpan, still]
    exact Nat.zero_max _
  have long : 0 < span y1 y2 ∧ span y1 y2 < 240 := by
    rw [span]
    omega
  obtain ⟨after, ran, painted⟩ := drawGeneralLine_eq x y1 x y2
    (by omega) fuel (by omega) lcd
  have traces := linePoints_traces
    (show 0 < longSpan x y1 x y2 by omega)
    ⟨by omega, by omega, by omega, by omega⟩
  have cells : ∀ cell, cell ∈ linePoints x y1 x y2 ↔
      cell.1 = x ∧ y1 ≤ cell.2 ∧ cell.2 ≤ y2 := by
    intro cell
    constructor
    · intro member
      obtain ⟨⟨left, right⟩, top, bottom⟩ := traces.within cell member
      rw [min_self] at left
      rw [max_self] at right
      exact ⟨Nat.le_antisymm right left, by omega, by omega⟩
    · rintro ⟨rfl, top, bottom⟩
      obtain ⟨found, ⟨member, row⟩, -⟩ := traces.rows
        (by rw [still]; exact Nat.zero_le _) cell.2 (by omega) (by omega)
      obtain ⟨⟨left, right⟩, -⟩ := traces.within found member
      rw [min_self] at left
      rw [max_self] at right
      have same : found = cell :=
        Prod.ext (Nat.le_antisymm right left) row
      rwa [same] at member
  refine ⟨after, ?_, stepLine_foreColor ran, _, painted, ?_⟩
  · rw [lcdDrawLine, if_neg downward.ne, ran]
    rfl
  · intro pixel
    rw [List.mem_map]
    constructor
    · rintro ⟨cell, member, rfl⟩
      exact ⟨(cells cell).mp member, rfl⟩
    · rintro ⟨inside, color⟩
      exact ⟨pixel.cell, (cells _).mpr inside, by rw [← color]⟩

/-! ## The closed border -/

/-- The border of a rectangle, corners included. -/
def Border (x1 y1 x2 y2 : Nat) (cell : Nat × Nat) : Prop :=
  ((cell.1 = x1 ∨ cell.1 = x2) ∧ y1 ≤ cell.2 ∧ cell.2 ≤ y2) ∨
    (cell.2 = y1 ∨ cell.2 = y2) ∧ x1 ≤ cell.1 ∧ cell.1 ≤ x2

/-- The rows without their right ends and the columns are the border. -/
theorem sides_iff_border
    {x1 y1 x2 y2 : Nat} (columns : x1 < x2) (rows : y1 < y2)
    (cell : Nat × Nat) :
    (((cell.2 = y1 ∧ x1 ≤ cell.1 ∧ cell.1 < x2) ∨
          (cell.1 = x1 ∧ y1 ≤ cell.2 ∧ cell.2 ≤ y2)) ∨
        (cell.2 = y2 ∧ x1 ≤ cell.1 ∧ cell.1 < x2)) ∨
      (cell.1 = x2 ∧ y1 ≤ cell.2 ∧ cell.2 ≤ y2) ↔
        Border x1 y1 x2 y2 cell := by
  rw [Border]
  omega

/-- `lcd_draw_rectangle` paints the closed border and nothing else. -/
theorem lcdDrawRectangle_border
    (x1 y1 x2 y2 : Nat) (lcd : Lcd) (columns : x1 < x2) (rows : y1 < y2)
    (right : x2 < 240) (bottom : y2 < 240) :
    ∃ enough, ∀ fuel ≥ enough, ∃ after,
      lcdDrawRectangle fuel x1 y1 x2 y2 lcd = some (.ok after) ∧
        ∃ pixels, Paints lcd after pixels ∧
          ∀ pixel, pixel ∈ pixels ↔
            Border x1 y1 x2 y2 pixel.cell ∧
              pixel.color = lcd.foreColor := by
  refine ⟨300, fun fuel enough => ?_⟩
  obtain ⟨first, drewTop, top⟩ :=
    lcdDrawLine_row fuel (y := y1) lcd columns.le right
  obtain ⟨second, drewLeft, left⟩ :=
    lcdDrawLine_column first enough (columns.trans right) rows bottom
  obtain ⟨third, drewLower, lower⟩ :=
    lcdDrawLine_row fuel (y := y2) second columns.le right
  obtain ⟨after, drewEnd, last⟩ :=
    lcdDrawLine_column third enough right rows bottom
  have strokes := (((top.trans left).trans lower).trans last).congr
    (sides_iff_border columns rows)
  refine ⟨after, ?_, strokes.painted⟩
  rw [lcdDrawRectangle, drewTop]
  show andThen (lcdDrawLine fuel x1 y1 x1 y2 first) _ = _
  rw [drewLeft]
  show andThen (lcdDrawLine fuel x1 y2 x2 y2 second) _ = _
  rw [drewLower]
  exact drewEnd

/-- The frame of the music page. -/
theorem lcdDrawRectangle_frame :
    ∃ enough, ∀ fuel ≥ enough, ∃ after,
      lcdDrawRectangle fuel 41 52 199 159 idleLcd = some (.ok after) ∧
        ∃ pixels, Paints idleLcd after pixels ∧
          ∀ pixel, pixel ∈ pixels ↔
            Border 41 52 199 159 pixel.cell ∧
              pixel.color = idleLcd.foreColor :=
  lcdDrawRectangle_border 41 52 199 159 idleLcd (by decide) (by decide)
    (by decide) (by decide)

end InternetWavPlayer.Rectangles
