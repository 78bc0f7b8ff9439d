import InternetWavPlayer.DrvLcd
import InternetWavPlayer.ErrorSteps

/-!
# Lines on the panel

The loop of `lcd_draw_line` keeps one error accumulator for each axis, both
against the longer distance.  Pass `t` therefore draws the cell whose place on
the longer axis is `t - 1`, and whose place on the other axis is the rounded
share of it.  The fast path for lines in one row is compared with that.
-/

namespace InternetWavPlayer.LineDrawing

open InternetWavPlayer.Display (Color u16)
open InternetWavPlayer.DrvLcd
open InternetWavPlayer.ErrorSteps

/-! ## The locals of the loop -/

/-- The distance of two coordinates. -/
def span (first second : Nat) : Nat :=
  ((second : Int) - first).natAbs

/-- The distance along the longer axis. -/
def longSpan (x1 y1 x2 y2 : Nat) : Nat :=
  max (span x1 x2) (span y1 y2)

theorem lineBetween_eq (x1 y1 x2 y2 : Nat) :
    lineBetween x1 y1 x2 y2 =
      ⟨span x1 x2, span y1 y2, increment ((x2 : Int) - x1),
        increment ((y2 : Int) - y1), longSpan x1 y1 x2 y2⟩ := by
  have deltaX : (if (x2 : Int) - x1 < 0 then -((x2 : Int) - x1)
      else (x2 : Int) - x1) = span x1 x2 := by
    rw [span]
    split <;> omega
  have deltaY : (if (y2 : Int) - y1 < 0 then -((y2 : Int) - y1)
      else (y2 : Int) - y1) = span y1 y2 := by
    rw [span]
    split <;> omega
  have distance : (if (span x1 x2 : Int) > span y1 y2 then
      (span x1 x2 : Int) else span y1 y2) = longSpan x1 y1 x2 y2 := by
    rw [longSpan]
    split <;> omega
  simp only [lineBetween, deltaX, deltaY, distance]

/-- The place that an axis has reached after some passes. -/
def axisAt (first second limit passes : Nat) : Int :=
  first + increment ((second : Int) - first) *
    steps limit (span first second) passes

/-- The locals after some passes. -/
def stepperAt (x1 y1 x2 y2 passes : Nat) : Stepper where
  xerr := error (longSpan x1 y1 x2 y2) (span x1 x2) passes
  yerr := error (longSpan x1 y1 x2 y2) (span y1 y2) passes
  row := axisAt x1 x2 (longSpan x1 y1 x2 y2) passes
  col := axisAt y1 y2 (longSpan x1 y1 x2 y2) passes

/-- One accumulator of the loop. -/
theorem axis_step
    {first second limit : Nat} (bounded : span first second ≤ limit)
    (passes : Nat) :
    (error limit (span first second) (passes + 1) : Int) =
        (if (error limit (span first second) passes : Int) +
            span first second > limit then
          (error limit (span first second) passes : Int) +
            span first second - limit
        else (error limit (span first second) passes : Int) +
          span first second) ∧
      axisAt first second limit (passes + 1) =
        if (error limit (span first second) passes : Int) +
            span first second > limit then
          axisAt first second limit passes +
            increment ((second : Int) - first)
        else axisAt first second limit passes := by
  have exceeds : (error limit (span first second) passes : Int) +
        span first second > limit ↔
      error limit (span first second) passes + span first second >
        limit := by
    omega
  simp only [axisAt, exceeds, error_succ bounded, steps_succ bounded]
  split
  · constructor
    · omega
    · push_cast
      ring
  · constructor
    · exact Nat.cast_add _ _
    · rfl

theorem stepperAt_succ (x1 y1 x2 y2 passes : Nat) :
    (stepperAt x1 y1 x2 y2 passes).step (lineBetween x1 y1 x2 y2) =
      stepperAt x1 y1 x2 y2 (passes + 1) := by
  have alongX := axis_step
    (show span x1 x2 ≤ longSpan x1 y1 x2 y2 from le_max_left _ _) passes
  have alongY := axis_step
    (show span y1 y2 ≤ longSpan x1 y1 x2 y2 from le_max_right _ _) passes
  rw [lineBetween_eq]
  simp only [Stepper.step, stepperAt, alongX.1, alongX.2, alongY.1,
    alongY.2]
  rfl

theorem stepperAt_zero (x1 y1 x2 y2 : Nat) :
    stepperAt x1 y1 x2 y2 0 = ⟨0, 0, x1, y1⟩ := by
  simp [stepperAt, axisAt, error, steps]

/-! ## The points that the loop draws -/

/-- The cell of the point that a pass draws. -/
def pointAt (x1 y1 x2 y2 passes : Nat) : Nat × Nat :=
  (u16 (stepperAt x1 y1 x2 y2 passes).row,
    u16 (stepperAt x1 y1 x2 y2 passes).col)

/-- The cells of a line, in the order in which they are drawn. -/
def linePoints (x1 y1 x2 y2 : Nat) : List (Nat × Nat) :=
  (List.range (longSpan x1 y1 x2 y2 + 2)).map (pointAt x1 y1 x2 y2)

theorem lcdDrawPoint_painted (x y : Nat) (lcd : Lcd) :
    (lcdDrawPoint x y lcd).painted =
        lcd.painted ++ [⟨(x, y), lcd.foreColor⟩] ∧
      (lcdDrawPoint x y lcd).foreColor = lcd.foreColor := by
  have window : (lcdAddressSet x y x y lcd).window =
      some ⟨x, y, x, y, le_rfl, le_rfl⟩ :=
    dif_pos ⟨le_rfl, le_rfl⟩
  rw [lcdDrawPoint, lcdWriteHalfWord_eq]
  constructor
  · simp only [Lcd.receives, Lcd.coming, window]
    simp [AddressWindow.Window.cells, AddressWindow.Window.cell,
      AddressWindow.Window.width, AddressWindow.Window.height,
      lcdAddressSet]
  · rfl

/-- The loop draws the points of the passes that are ahead. -/
theorem stepLine_eq
    (x1 y1 x2 y2 : Nat) (short : longSpan x1 y1 x2 y2 + 2 < 65536)
    (ahead passes fuel : Nat) (lcd : Lcd)
    (count : passes + ahead = longSpan x1 y1 x2 y2 + 2)
    (enough : ahead < fuel) :
    ∃ after,
      stepLine (lineBetween x1 y1 x2 y2) fuel passes
          (stepperAt x1 y1 x2 y2 passes) lcd = some after ∧
        after.painted = lcd.painted ++
          (List.range' passes ahead).map fun pass =>
            ⟨pointAt x1 y1 x2 y2 pass, lcd.foreColor⟩ := by
  have distance : (lineBetween x1 y1 x2 y2).distance =
      longSpan x1 y1 x2 y2 := by
    rw [lineBetween_eq]
  induction ahead generalizing passes fuel lcd with
  | zero =>
      cases fuel with
      | zero => exact absurd enough (Nat.not_lt_zero _)
      | succ fuel =>
          refine ⟨lcd, ?_, by simp⟩
          rw [stepLine, if_neg (by rw [distance]; omega)]
  | succ ahead induction =>
      cases fuel with
      | zero => exact absurd enough (Nat.not_lt_zero _)
      | succ fuel =>
          have counter : u16 ((passes : Int) + 1) = passes + 1 := by
            rw [u16]
            omega
          obtain ⟨after, ran, painted⟩ := induction (passes + 1) fuel
            (lcdDrawPoint (pointAt x1 y1 x2 y2 passes).1
              (pointAt x1 y1 x2 y2 passes).2 lcd)
            (by omega) (by omega)
          obtain ⟨drawn, fore⟩ := lcdDrawPoint_painted
            (pointAt x1 y1 x2 y2 passes).1
            (pointAt x1 y1 x2 y2 passes).2 lcd
          refine ⟨after, ?_, ?_⟩
          · rw [stepLine, if_pos (by rw [distance]; omega), counter,
              stepperAt_succ]
            exact ran
          · rw [painted, drawn, fore, List.range'_succ, List.map_cons,
              List.append_assoc]
            rfl

/-- More fuel does not change a result. -/
theorem stepLine_more
    {line : Line} {fuel passes : Nat} {stepper : Stepper}
    {lcd after : Lcd} (extra : Nat)
    (ran : stepLine line fuel passes stepper lcd = some after) :
    stepLine line (fuel + extra) passes stepper lcd = some after := by
  induction fuel generalizing passes stepper lcd with
  | zero => cases ran
  | succ fuel induction =>
      rw [Nat.succ_add]
      rw [stepLine] at ran ⊢
      by_cases ahead : (passes : Int) ≤ line.distance + 1
      · rw [if_pos ahead] at ran ⊢
        exact induction ran
      · rwa [if_neg ahead] at ran ⊢

/-- The loop does not change the current colour. -/
theorem stepLine_foreColor
    {line : Line} {fuel passes : Nat} {stepper : Stepper}
    {lcd after : Lcd}
    (ran : stepLine line fuel passes stepper lcd = some after) :
    after.foreColor = lcd.foreColor := by
  induction fuel generalizing passes stepper lcd with
  | zero => cases ran
  | succ fuel induction =>
      rw [stepLine] at ran
      by_cases ahead : (passes : Int) ≤ line.distance + 1
      · rw [if_pos ahead] at ran
        rw [induction ran]
        exact (lcdDrawPoint_painted _ _ lcd).2
      · rw [if_neg ahead] at ran
        cases ran
        rfl

/-- So the general path has at most one result. -/
theorem drawGeneralLine_unique
    {x1 y1 x2 y2 first second : Nat} {lcd firstAfter secondAfter : Lcd}
    (firstRan :
      drawGeneralLine first x1 y1 x2 y2 lcd = some firstAfter)
    (secondRan :
      drawGeneralLine second x1 y1 x2 y2 lcd = some secondAfter) :
    firstAfter = secondAfter := by
  have firstMore := stepLine_more second firstRan
  have secondMore := stepLine_more first secondRan
  rw [Nat.add_comm, secondMore] at firstMore
  exact (Option.some_inj.mp firstMore).symm

/-- The general path draws the points of the line, and ends. -/
theorem drawGeneralLine_eq
    (x1 y1 x2 y2 : Nat) (short : longSpan x1 y1 x2 y2 + 2 < 65536)
    (fuel : Nat) (enough : longSpan x1 y1 x2 y2 + 2 < fuel)
    (lcd : Lcd) :
    ∃ after,
      drawGeneralLine fuel x1 y1 x2 y2 lcd = some after ∧
        after.painted = lcd.painted ++
          (linePoints x1 y1 x2 y2).map fun cell =>
            ⟨cell, lcd.foreColor⟩ := by
  obtain ⟨after, ran, painted⟩ := stepLine_eq x1 y1 x2 y2 short
    (longSpan x1 y1 x2 y2 + 2) 0 fuel lcd (Nat.zero_add _) enough
  refine ⟨after, ?_, ?_⟩
  · rw [stepperAt_zero] at ran
    exact ran
  · rw [painted, linePoints, List.map_map, List.range_eq_range']
    rfl

/-! ## Places on the two axes -/

/-- The coordinate of an axis at a place of the longer one. -/
def coordinate (first second limit place : Nat) : Nat :=
  if first ≤ second then first + offset limit (span first second) place
  else first - offset limit (span first second) place

section Coordinates

variable {first second limit place : Nat}

theorem offset_le_span
    (positive : 0 < limit) (bounded : span first second ≤ limit)
    (inside : place ≤ limit) :
    offset limit (span first second) place ≤ span first second :=
  (offset_mono inside).trans (offset_end positive bounded).le

/-- What the loop computes for an axis is its coordinate. -/
theorem u16_axisAt
    (positive : 0 < limit) (bounded : span first second ≤ limit)
    (firstShort : first < 65536) (secondShort : second < 65536)
    {passes : Nat} (inside : passes - 1 ≤ limit) :
    u16 (axisAt first second limit passes) =
      coordinate first second limit (passes - 1) := by
  have within := offset_le_span positive bounded inside
  rw [axisAt, steps_eq_offset positive bounded, coordinate, increment]
  generalize offset limit (span first second) (passes - 1) = moved
    at within ⊢
  rw [span] at within
  rw [u16]
  by_cases equal : second = first
  · subst equal
    simp only [sub_self, gt_iff_lt, lt_self_iff_false, if_false, if_true,
      le_refl, zero_mul, add_zero] at within ⊢
    omega
  · by_cases forward : first ≤ second
    · rw [if_pos (by omega), if_pos forward, one_mul]
      omega
    · rw [if_neg (by omega), if_neg (by omega), if_neg forward]
      omega

theorem coordinate_zero
    (positive : 0 < limit) (bounded : span first second ≤ limit) :
    coordinate first second limit 0 = first := by
  rw [coordinate, offset_zero positive bounded]
  simp

theorem coordinate_end
    (positive : 0 < limit) (bounded : span first second ≤ limit) :
    coordinate first second limit limit = second := by
  rw [coordinate, offset_end positive bounded, span]
  split <;> omega

/-- The coordinates stay between the ends. -/
theorem coordinate_between
    (positive : 0 < limit) (bounded : span first second ≤ limit)
    (inside : place ≤ limit) :
    min first second ≤ coordinate first second limit place ∧
      coordinate first second limit place ≤ max first second := by
  have within := offset_le_span positive bounded inside
  rw [span] at within
  rw [coordinate, span]
  split <;> omega

/-- From one place to the next a coordinate changes by at most one. -/
theorem coordinate_succ
    (positive : 0 < limit) (bounded : span first second ≤ limit) :
    coordinate first second limit place ≤
        coordinate first second limit (place + 1) + 1 ∧
      coordinate first second limit (place + 1) ≤
        coordinate first second limit place + 1 := by
  have step := offset_succ_le positive bounded place
  have grows : offset limit (span first second) place ≤
      offset limit (span first second) (place + 1) :=
    offset_mono (Nat.le_succ place)
  rw [coordinate, coordinate]
  split <;> omega

/-- The longer axis takes the places one by one. -/
theorem coordinate_long
    (positive : 0 < limit) (long : span first second = limit) :
    coordinate first second limit place =
      if first ≤ second then first + place else first - place := by
  rw [coordinate, long, offset_long positive]

/-- Every coordinate of the longer axis has one place. -/
theorem place_unique
    (positive : 0 < limit) (long : span first second = limit)
    {target : Nat} (low : min first second ≤ target)
    (high : target ≤ max first second) :
    ∃ place ≤ limit, coordinate first second limit place = target ∧
      ∀ other ≤ limit, coordinate first second limit other = target →
        other = place := by
  refine ⟨span first target, ?_, ?_, ?_⟩
  · rw [← long, span, span]
    omega
  · rw [coordinate_long positive long, span]
    split <;> omega
  · intro other inside reached
    rw [coordinate_long positive long] at reached
    rw [← long, span] at inside
    rw [span]
    split at reached <;> omega

/-- A coordinate stays within one of its share of the place. -/
theorem coordinate_near
    (positive : 0 < limit) (bounded : span first second ≤ limit)
    (inside : place ≤ limit) :
    |((coordinate first second limit place : Int) - first) * limit -
        (second - first) * place| < limit := by
  have within := offset_le_span positive bounded inside
  obtain ⟨above, below⟩ := offset_near positive bounded place
  zify at above below
  rw [coordinate, abs_lt]
  by_cases forward : first ≤ second
  · have length : (span first second : Int) = second - first := by
      rw [span]
      omega
    rw [if_pos forward, ← length]
    push_cast
    constructor <;> nlinarith only [above, below]
  · have length : (span first second : Int) = first - second := by
      rw [span]
      omega
    have back : offset limit (span first second) place ≤ first := by
      rw [span] at within ⊢
      omega
    rw [if_neg forward, Nat.cast_sub back,
      ← neg_sub (first : Int) second, ← length]
    constructor <;> nlinarith only [above, below]

end Coordinates

/-! ## The cells of a line -/

/-- The cell of a line at a place of its longer axis. -/
def cellAt (x1 y1 x2 y2 place : Nat) : Nat × Nat :=
  (coordinate x1 x2 (longSpan x1 y1 x2 y2) place,
    coordinate y1 y2 (longSpan x1 y1 x2 y2) place)

/-- Two cells touch, or are the same one. -/
def Adjacent (first second : Nat × Nat) : Prop :=
  (first.1 ≤ second.1 + 1 ∧ second.1 ≤ first.1 + 1) ∧
    first.2 ≤ second.2 + 1 ∧ second.2 ≤ first.2 + 1

/-- The ideal place of a line on the other axis, for a place on one. -/
def ideal (from1 to1 from2 to2 place : Nat) : ℚ :=
  from2 + ((place : ℚ) - from1) * (to2 - from2) / (to1 - from1)

/-- A list of cells traces the line from one end to the other. -/
structure Traces (x1 y1 x2 y2 : Nat) (cells : List (Nat × Nat)) :
    Prop where
  first : cells.head? = some (x1, y1)
  last : cells.getLast? = some (x2, y2)
  adjacent : cells.IsChain Adjacent
  within : ∀ cell ∈ cells,
    (min x1 x2 ≤ cell.1 ∧ cell.1 ≤ max x1 x2) ∧
      min y1 y2 ≤ cell.2 ∧ cell.2 ≤ max y1 y2
  columns : span y1 y2 ≤ span x1 x2 →
    ∀ x, min x1 x2 ≤ x → x ≤ max x1 x2 →
      ∃! cell, cell ∈ cells ∧ cell.1 = x
  rows : span x1 x2 ≤ span y1 y2 →
    ∀ y, min y1 y2 ≤ y → y ≤ max y1 y2 →
      ∃! cell, cell ∈ cells ∧ cell.2 = y
  nearColumns : span y1 y2 ≤ span x1 x2 →
    ∀ cell ∈ cells, |(cell.2 : ℚ) - ideal x1 x2 y1 y2 cell.1| < 1
  nearRows : span x1 x2 ≤ span y1 y2 →
    ∀ cell ∈ cells, |(cell.1 : ℚ) - ideal y1 y2 x1 x2 cell.2| < 1

section Cells

variable {x1 y1 x2 y2 : Nat}

/-- The first two passes draw the first cell, the others one cell each. -/
theorem linePoints_eq
    (positive : 0 < longSpan x1 y1 x2 y2)
    (short : x1 < 65536 ∧ y1 < 65536 ∧ x2 < 65536 ∧ y2 < 65536) :
    linePoints x1 y1 x2 y2 =
      cellAt x1 y1 x2 y2 0 ::
        (List.range (longSpan x1 y1 x2 y2 + 1)).map
          (cellAt x1 y1 x2 y2) := by
  have points : ∀ passes < longSpan x1 y1 x2 y2 + 2,
      pointAt x1 y1 x2 y2 passes = cellAt x1 y1 x2 y2 (passes - 1) := by
    intro passes inside
    apply Prod.ext
    · exact u16_axisAt positive (le_max_left _ _) short.1 short.2.2.1
        (by omega)
    · exact u16_axisAt positive (le_max_right _ _) short.2.1 short.2.2.2
        (by omega)
  rw [linePoints, List.map_congr_left (fun passes member =>
    points passes (List.mem_range.mp member)),
    List.range_succ_eq_map, List.map_cons, List.map_map]
  rfl

theorem mem_linePoints
    (positive : 0 < longSpan x1 y1 x2 y2)
    (short : x1 < 65536 ∧ y1 < 65536 ∧ x2 < 65536 ∧ y2 < 65536)
    (cell : Nat × Nat) :
    cell ∈ linePoints x1 y1 x2 y2 ↔
      ∃ place ≤ longSpan x1 y1 x2 y2,
        cellAt x1 y1 x2 y2 place = cell := by
  rw [linePoints_eq positive short, List.mem_cons, List.mem_map]
  constructor
  · rintro (rfl | ⟨place, member, rfl⟩)
    · exact ⟨0, Nat.zero_le _, rfl⟩
    · exact ⟨place, Nat.lt_succ_iff.mp (List.mem_range.mp member), rfl⟩
  · rintro ⟨place, inside, rfl⟩
    exact Or.inr
      ⟨place, List.mem_range.mpr (Nat.lt_succ_of_le inside), rfl⟩

theorem cellAt_succ
    (positive : 0 < longSpan x1 y1 x2 y2) (place : Nat) :
    Adjacent (cellAt x1 y1 x2 y2 place)
      (cellAt x1 y1 x2 y2 (place + 1)) :=
  ⟨coordinate_succ positive (le_max_left _ _),
    coordinate_succ positive (le_max_right _ _)⟩

theorem adjacent_self (cell : Nat × Nat) : Adjacent cell cell :=
  ⟨⟨Nat.le_succ _, Nat.le_succ _⟩, Nat.le_succ _, Nat.le_succ _⟩

/-- A list of neighbouring places is a chain of adjacent cells. -/
theorem isChain_cells
    (positive : 0 < longSpan x1 y1 x2 y2) (start count : Nat) :
    ((List.range' start count).map (cellAt x1 y1 x2 y2)).IsChain
      Adjacent := by
  induction count generalizing start with
  | zero => exact List.IsChain.nil
  | succ count induction =>
      have rest := induction (start + 1)
      cases count with
      | zero => exact List.IsChain.singleton _
      | succ count =>
          rw [List.range'_succ, List.range'_succ, List.map_cons,
            List.map_cons] at *
          exact List.IsChain.cons_cons (cellAt_succ positive start) rest

/-- The deviation from the ideal line, on the axis of the shorter span. -/
theorem near_ideal
    {from1 to1 from2 to2 limit place : Nat}
    (positive : 0 < limit) (long : span from1 to1 = limit)
    (bounded : span from2 to2 ≤ limit) (inside : place ≤ limit) :
    |(coordinate from2 to2 limit place : ℚ) -
        ideal from1 to1 from2 to2
          (coordinate from1 to1 limit place)| < 1 := by
  have near := coordinate_near positive bounded inside
  have limitPositive : (0 : ℚ) < limit := by exact_mod_cast positive
  have share : ideal from1 to1 from2 to2
        (coordinate from1 to1 limit place) =
      from2 + ((to2 : ℚ) - from2) * place / limit := by
    rw [ideal, coordinate_long positive long]
    by_cases forward : from1 ≤ to1
    · have whole : (to1 : ℚ) - from1 = limit := by
        rw [span] at long
        have ends : (to1 : Int) - from1 = limit := by omega
        exact_mod_cast ends
      rw [if_pos forward, whole]
      push_cast
      ring
    · have whole : (to1 : ℚ) - from1 = -limit := by
        rw [span] at long
        have ends : (to1 : Int) - from1 = -limit := by omega
        exact_mod_cast ends
      have back : place ≤ from1 := by
        rw [span] at long
        omega
      rw [if_neg forward, whole, Nat.cast_sub back]
      field_simp
      ring
  have scaled : ((coordinate from2 to2 limit place : ℚ) -
        (from2 + ((to2 : ℚ) - from2) * place / limit)) * limit =
      ((coordinate from2 to2 limit place : ℚ) - from2) * limit -
        (to2 - from2) * place := by
    field_simp
    ring
  have rational :
      |((coordinate from2 to2 limit place : ℚ) - from2) * limit -
        (to2 - from2) * place| < limit := by
    exact_mod_cast near
  rw [share]
  rw [← scaled, abs_mul, abs_of_pos limitPositive] at rational
  exact lt_of_mul_lt_mul_right (by rwa [one_mul]) limitPositive.le

/-- The points of a line with two different ends trace it. -/
theorem linePoints_traces
    (positive : 0 < longSpan x1 y1 x2 y2)
    (short : x1 < 65536 ∧ y1 < 65536 ∧ x2 < 65536 ∧ y2 < 65536) :
    Traces x1 y1 x2 y2 (linePoints x1 y1 x2 y2) := by
  have boundX : span x1 x2 ≤ longSpan x1 y1 x2 y2 := le_max_left _ _
  have boundY : span y1 y2 ≤ longSpan x1 y1 x2 y2 := le_max_right _ _
  have start : cellAt x1 y1 x2 y2 0 = (x1, y1) :=
    Prod.ext (coordinate_zero positive boundX)
      (coordinate_zero positive boundY)
  have final : cellAt x1 y1 x2 y2 (longSpan x1 y1 x2 y2) = (x2, y2) :=
    Prod.ext (coordinate_end positive boundX)
      (coordinate_end positive boundY)
  have members := mem_linePoints positive short
  constructor
  case first =>
    rw [linePoints_eq positive short, List.head?_cons, start]
  case last =>
    rw [linePoints_eq positive short, List.range_succ, List.map_append,
      ← List.cons_append, List.map_singleton, List.getLast?_concat, final]
  case adjacent =>
    rw [linePoints_eq positive short, List.range_eq_range',
      List.range'_succ, List.map_cons]
    apply List.IsChain.cons_cons (adjacent_self _)
    have rest := isChain_cells positive 0 (longSpan x1 y1 x2 y2 + 1)
    rwa [List.range'_succ, List.map_cons] at rest
  case within =>
    intro cell member
    obtain ⟨place, inside, rfl⟩ := (members cell).mp member
    exact ⟨coordinate_between positive boundX inside,
      coordinate_between positive boundY inside⟩
  case columns =>
    intro longer x low high
    obtain ⟨place, inside, reached, unique⟩ := place_unique positive
      (show span x1 x2 = longSpan x1 y1 x2 y2 from
        (max_eq_left longer).symm) low high
    refine ⟨cellAt x1 y1 x2 y2 place,
      ⟨(members _).mpr ⟨place, inside, rfl⟩, reached⟩, ?_⟩
    rintro cell ⟨member, column⟩
    obtain ⟨other, otherInside, rfl⟩ := (members cell).mp member
    rw [unique other otherInside column]
  case rows =>
    intro longer y low high
    obtain ⟨place, inside, reached, unique⟩ := place_unique positive
      (show span y1 y2 = longSpan x1 y1 x2 y2 from
        (max_eq_right longer).symm) low high
    refine ⟨cellAt x1 y1 x2 y2 place,
      ⟨(members _).mpr ⟨place, inside, rfl⟩, reached⟩, ?_⟩
    rintro cell ⟨member, row⟩
    obtain ⟨other, otherInside, rfl⟩ := (members cell).mp member
    rw [unique other otherInside row]
  case nearColumns =>
    intro longer cell member
    obtain ⟨place, inside, rfl⟩ := (members cell).mp member
    exact near_ideal positive (max_eq_left longer).symm boundY inside
  case nearRows =>
    intro longer cell member
    obtain ⟨place, inside, rfl⟩ := (members cell).mp member
    exact near_ideal positive (max_eq_right longer).symm boundX inside

end Cells

/--
Between two points of the panel in different rows `lcd_draw_line` ends, and
the cells it paints in the current colour trace the line.
-/
theorem lcdDrawLine_traces
    (x1 y1 x2 y2 : Nat) (lcd : Lcd)
    (start : x1 < 240 ∧ y1 < 240) (final : x2 < 240 ∧ y2 < 240)
    (rows : y1 ≠ y2) :
    ∃ fuel after cells,
      lcdDrawLine fuel x1 y1 x2 y2 lcd = some (.ok after) ∧
        Paints lcd after
          (cells.map fun cell => ⟨cell, lcd.foreColor⟩) ∧
        Traces x1 y1 x2 y2 cells := by
  have spanX : span x1 x2 < 240 := by
    rw [span]
    omega
  have spanY : 0 < span y1 y2 ∧ span y1 y2 < 240 := by
    rw [span]
    omega
  have positive : 0 < longSpan x1 y1 x2 y2 :=
    spanY.1.trans_le (le_max_right _ _)
  have short : longSpan x1 y1 x2 y2 < 240 := max_lt spanX spanY.2
  obtain ⟨after, ran, painted⟩ := drawGeneralLine_eq x1 y1 x2 y2
    (by omega) 300 (by omega) lcd
  refine ⟨300, after, linePoints x1 y1 x2 y2, ?_, painted, ?_⟩
  · rw [lcdDrawLine, if_neg rows, ran]
    rfl
  · exact linePoints_traces positive (by omega)

/-- The left edge of the panel is traced. -/
theorem lcdDrawLine_edge :
    ∃ fuel after cells,
      lcdDrawLine fuel 0 0 0 239 idleLcd = some (.ok after) ∧
        Paints idleLcd after
          (cells.map fun cell => ⟨cell, idleLcd.foreColor⟩) ∧
        Traces 0 0 0 239 cells :=
  lcdDrawLine_traces 0 0 0 239 idleLcd (by decide) (by decide) (by decide)

/-! ## Lines in one row -/

/-- The general path paints a line in one row from end to end. -/
theorem drawGeneralLine_row
    (x1 x2 y : Nat) (lcd : Lcd)
    (start : x1 < 240) (final : x2 < 240) (row : y < 240) :
    ∃ fuel after pixels,
      drawGeneralLine fuel x1 y x2 y lcd = some after ∧
        Paints lcd after pixels ∧
        ∀ pixel, pixel ∈ pixels ↔
          (min x1 x2 ≤ pixel.cell.1 ∧ pixel.cell.1 ≤ max x1 x2) ∧
            pixel.cell.2 = y ∧ pixel.color = lcd.foreColor := by
  have still : span y y = 0 := by
    rw [span]
    omega
  have length : longSpan x1 y x2 y = span x1 x2 := by
    rw [longSpan, still]
    exact Nat.max_zero _
  have short : span x1 x2 < 240 := by
    rw [span]
    omega
  obtain ⟨after, ran, painted⟩ := drawGeneralLine_eq x1 y x2 y
    (by omega) 300 (by omega) lcd
  refine ⟨300, after, _, ran, painted, ?_⟩
  have cells : ∀ cell, cell ∈ linePoints x1 y x2 y ↔
      (min x1 x2 ≤ cell.1 ∧ cell.1 ≤ max x1 x2) ∧ cell.2 = y := by
    intro cell
    by_cases point : x1 = x2
    · subst point
      have only : ∀ passes, pointAt x1 y x1 y passes = (x1, y) := by
        intro passes
        simp [pointAt, stepperAt, axisAt, increment, u16]
        omega
      simp only [linePoints, List.mem_map, only, List.mem_range]
      constructor
      · rintro ⟨passes, -, rfl⟩
        simp
      · rintro ⟨⟨low, high⟩, rfl⟩
        refine ⟨0, by omega, Prod.ext ?_ rfl⟩
        show x1 = cell.1
        omega
    · have positive : 0 < longSpan x1 y x2 y := by
        rw [length, span]
        omega
      have traces := linePoints_traces positive (by omega)
      constructor
      · intro member
        obtain ⟨columns, low, high⟩ := traces.within cell member
        rw [min_self] at low
        rw [max_self] at high
        exact ⟨columns, Nat.le_antisymm high low⟩
      · rintro ⟨⟨low, high⟩, rfl⟩
        obtain ⟨found, ⟨member, column⟩, -⟩ := traces.columns
          (by rw [still]; exact Nat.zero_le _) cell.1 low high
        obtain ⟨-, top, bottom⟩ := traces.within found member
        rw [min_self] at top
        rw [max_self] at bottom
        have same : found = cell :=
          Prod.ext column (Nat.le_antisymm bottom top)
        rwa [same] at member
  intro pixel
  constructor
  · intro member
    obtain ⟨cell, inside, rfl⟩ := List.mem_map.mp member
    obtain ⟨columns, row⟩ := (cells cell).mp inside
    exact ⟨columns, row, rfl⟩
  · rintro ⟨columns, row, color⟩
    apply List.mem_map.mpr
    exact ⟨pixel.cell, (cells _).mpr ⟨columns, row⟩, by rw [← color]⟩

/-- The buffer loop writes one colour for each pass while there is room. -/
theorem fillLineBuf_fits
    (fore : Color) (remaining i : Nat) (rest : List Byte)
    (room : rest.length = 480 - 2 * i) (fits : i + remaining ≤ 240) :
    fillLineBuf fore remaining i
        ((List.replicate i (colorBytes fore)).flatten ++ rest) =
      .ok ((List.replicate (i + remaining) (colorBytes fore)).flatten ++
        rest.drop (2 * remaining)) := by
  induction remaining generalizing i rest with
  | zero => simp [fillLineBuf]
  | succ remaining induction =>
      have written : (List.replicate i (colorBytes fore)).flatten.length =
          2 * i := by
        simp [colorBytes, Nat.mul_comm]
      obtain ⟨high, low, tail, rfl⟩ :
          ∃ high low tail, rest = high :: low :: tail := by
        cases rest with
        | nil =>
            rw [List.length_nil] at room
            omega
        | cons high rest =>
            cases rest with
            | nil =>
                rw [List.length_singleton] at room
                omega
            | cons low tail => exact ⟨high, low, tail, rfl⟩
      rw [List.length_cons, List.length_cons] at room
      rw [fillLineBuf, if_pos (by
        rw [List.length_append, written, List.length_cons,
          List.length_cons]
        omega)]
      have grown : (((List.replicate i (colorBytes fore)).flatten ++
            high :: low :: tail).set (2 * i)
              ((fore >>> 8).setWidth 8)).set (2 * i + 1)
                (fore.setWidth 8) =
          (List.replicate (i + 1) (colorBytes fore)).flatten ++
            tail := by
        rw [List.set_append_right _ _ (by omega), written,
          List.set_append_right _ _ (by omega), written,
          List.replicate_succ', List.flatten_append,
          List.append_assoc]
        simp [colorBytes]
      rw [grown, induction (i + 1) tail (by omega) (by omega)]
      congr 2
      · congr 2
        omega

/-- A longer loop leaves the buffer. -/
theorem fillLineBuf_overruns
    (fore : Color) (remaining i : Nat) (lineBuf : List Byte)
    (length : lineBuf.length = 480) (long : 240 < i + remaining)
    (inside : i ≤ 240) :
    fillLineBuf fore remaining i lineBuf = .error (.lineBuf 480) := by
  induction remaining generalizing i lineBuf with
  | zero => omega
  | succ remaining induction =>
      rw [fillLineBuf, length]
      by_cases last : i = 240
      · rw [if_neg (by omega), last]
      · rw [if_pos (by omega)]
        exact induction (i + 1) _ (by simpa using length) (by omega)
          (by omega)

/-- From left to right the fast path paints all cells but the last. -/
theorem drawTransverseLine_forward
    {x1 x2 y : Nat} (lcd : Lcd) (forward : x1 ≤ x2) (final : x2 < 240) :
    drawTransverseLine x1 y x2 y lcd =
      .ok ((lcdAddressSet x1 y x2 y lcd).receives (x2 - x1)
        lcd.foreColor) := by
  have passes : u32 ((x2 : Int) - x1) = x2 - x1 := by
    rw [u32]
    omega
  have bytes : u32 (((x2 : Int) - x1) * 2) = 2 * (x2 - x1) := by
    rw [u32]
    omega
  have filled := fillLineBuf_fits lcd.foreColor (x2 - x1) 0
    (List.replicate 480 0) (by rw [List.length_replicate]) (by omega)
  rw [Nat.zero_add] at filled
  have written : ((List.replicate (x2 - x1)
      (colorBytes lcd.foreColor)).flatten).length = 2 * (x2 - x1) := by
    simp [colorBytes, Nat.mul_comm]
  rw [drawTransverseLine]
  show (fillLineBuf lcd.foreColor (u32 ((x2 : Int) - x1)) 0
    (List.replicate 480 0)).bind _ = _
  rw [passes, bytes]
  have result : fillLineBuf lcd.foreColor (x2 - x1) 0
      (List.replicate 480 0) = .ok _ := filled
  rw [result]
  show Except.ok _ = _
  rw [← written, List.take_left', rtSpiSend_replicate]
  rfl

/-- From right to left it leaves its buffer. -/
theorem drawTransverseLine_backward
    {x1 x2 y : Nat} (lcd : Lcd) (backward : x2 < x1) (start : x1 < 240) :
    drawTransverseLine x1 y x2 y lcd = .error (.lineBuf 480) := by
  have passes : 240 < u32 ((x2 : Int) - x1) := by
    rw [u32]
    omega
  have overruns := fillLineBuf_overruns lcd.foreColor
    (u32 ((x2 : Int) - x1)) 0 (List.replicate 480 0)
    (List.length_replicate ..) (by omega) (by decide)
  rw [drawTransverseLine]
  exact congrArg (Except.bind · _) overruns

/--
The fast path returns without leaving its buffer, and paints the pixels that
the general path would paint.
-/
def FastPathAgrees (x1 x2 y : Nat) (lcd : Lcd) : Prop :=
  ∃ fuel general fast generalPixels fastPixels,
    drawGeneralLine fuel x1 y x2 y lcd = some general ∧
      Paints lcd general generalPixels ∧
      drawTransverseLine x1 y x2 y lcd = .ok fast ∧
      Paints lcd fast fastPixels ∧
      ∀ pixel, pixel ∈ fastPixels ↔ pixel ∈ generalPixels

/-- From left to right the fast path misses the right end. -/
theorem not_agrees_forward
    {x1 x2 y : Nat} (lcd : Lcd) (forward : x1 ≤ x2) (final : x2 < 240)
    (row : y < 240) :
    ¬ FastPathAgrees x1 x2 y lcd := by
  rintro ⟨fuel, general, fast, generalPixels, fastPixels, ran, generally,
    returned, fastly, same⟩
  obtain ⟨otherFuel, other, pixels, otherRan, paints, painted⟩ :=
    drawGeneralLine_row x1 x2 y lcd (by omega) final row
  have equal := drawGeneralLine_unique ran otherRan
  subst equal
  rw [Paints] at generally paints
  have pixelsEq : generalPixels = pixels :=
    List.append_cancel_left (generally.symm.trans paints)
  subst pixelsEq
  have last : (⟨(x2, y), lcd.foreColor⟩ : Pixel) ∈ fastPixels := by
    apply (same _).mpr
    apply (painted _).mpr
    exact ⟨⟨min_le_right _ _, le_max_right _ _⟩, rfl, rfl⟩
  rw [drawTransverseLine_forward lcd forward final] at returned
  cases returned
  have window : (lcdAddressSet x1 y x2 y lcd).window =
      some ⟨x1, y, x2, y, forward, le_rfl⟩ :=
    dif_pos ⟨forward, le_rfl⟩
  simp only [Paints, Lcd.receives, Lcd.coming, window] at fastly
  have sent := List.append_cancel_left fastly
  rw [← sent] at last
  obtain ⟨cell, member, cellEq⟩ := List.mem_map.mp last
  obtain ⟨position, early, reached⟩ := List.mem_map.mp member
  have column := congrArg Prod.fst
    (reached.trans (congrArg Pixel.cell cellEq))
  rw [List.mem_range'_1] at early
  have before : position < x2 - x1 := by
    have start : (lcdAddressSet x1 y x2 y lcd).position = 0 := rfl
    omega
  have small : position % (x2 - x1 + 1) = position :=
    Nat.mod_eq_of_lt (by omega)
  simp only [AddressWindow.Window.cell, AddressWindow.Window.width,
    small] at column
  omega

/-- From right to left it does not return. -/
theorem not_agrees_backward
    {x1 x2 : Nat} (y : Nat) (lcd : Lcd) (backward : x2 < x1)
    (start : x1 < 240) :
    ¬ FastPathAgrees x1 x2 y lcd := by
  rintro ⟨-, -, fast, -, -, -, -, returned, -⟩
  rw [drawTransverseLine_backward lcd backward start] at returned
  cases returned

/-- On no line of the panel does the fast path do what it replaces. -/
theorem fastPath_never_agrees
    (x1 x2 y : Nat) (lcd : Lcd)
    (start : x1 < 240) (final : x2 < 240) (row : y < 240) :
    ¬ FastPathAgrees x1 x2 y lcd := by
  rcases Nat.lt_or_ge x2 x1 with backward | forward
  · exact not_agrees_backward y lcd backward start
  · exact not_agrees_forward lcd forward final row

/-- A single point is not painted at all. -/
theorem fastPath_point : ¬ FastPathAgrees 8 8 79 idleLcd :=
  fastPath_never_agrees 8 8 79 idleLcd (by decide) (by decide)
    (by decide)

/--
The line under the first row of the song list misses its last pixel, and the
same line from right to left writes behind the buffer.
-/
theorem fastPath_listLine :
    ¬ FastPathAgrees 8 232 79 idleLcd ∧
      drawTransverseLine 232 79 8 79 idleLcd = .error (.lineBuf 480) :=
  ⟨not_agrees_forward idleLcd (by decide) (by decide) (by decide),
    drawTransverseLine_backward idleLcd (by decide) (by decide)⟩

end InternetWavPlayer.LineDrawing
