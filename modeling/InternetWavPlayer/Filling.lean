import InternetWavPlayer.DrvLcd

/-!
# Filled rectangles

Both branches of `lcd_fill` send one colour over and over, so what they paint
is a matter of how often.  The buffered branch counts the cells without the
last column and the last row of the window, the other one counts all of them.
-/

namespace InternetWavPlayer.Filling

open InternetWavPlayer.AddressWindow
open InternetWavPlayer.Display (Color)
open InternetWavPlayer.DrvLcd

/-! ## How many colours are sent -/

/-- The chunks of the buffered branch add up to its byte count. -/
theorem fastFill_eq
    (color : Color) (size sizeRemain : Nat) (lcd : Lcd)
    (even : size % 2 = 0) (evenRemain : sizeRemain % 2 = 0)
    (whole : sizeRemain = 0 ∨ size = lcdClearSendNumber) :
    fastFill color size sizeRemain lcd =
      lcd.receives ((size + sizeRemain) / 2) color := by
  induction sizeRemain using Nat.strong_induction_on
    generalizing size lcd with
  | h sizeRemain induction =>
      rw [fastFill]
      simp only [fillBuf, rtSpiSend_replicate]
      by_cases done : sizeRemain = 0
      · rw [if_pos done, done, Nat.add_zero]
      · have chunk : size = lcdClearSendNumber :=
          whole.resolve_left done
        rw [if_neg done]
        by_cases more : sizeRemain > lcdClearSendNumber
        · have smaller : sizeRemain - lcdClearSendNumber < sizeRemain := by
            simp only [lcdClearSendNumber]
            omega
          rw [if_pos more, induction _ smaller _ _ even (by
            simp only [lcdClearSendNumber]
            omega) (Or.inr chunk), receives_receives]
          congr 1
          simp only [lcdClearSendNumber] at *
          omega
        · rw [if_neg more, induction 0 (by omega) _ _ evenRemain rfl
            (Or.inl rfl), receives_receives]
          congr 1
          omega

/-- The other branch sends one colour for every cell of the window. -/
theorem slowFill_eq
    (xStart yStart xEnd yEnd : Nat) (color : Color) (lcd : Lcd) :
    slowFill xStart yStart xEnd yEnd color lcd =
      lcd.receives
        ((xEnd + 1 - xStart) * (yEnd + 1 - yStart)) color := by
  rw [slowFill]
  simp only [foldl_halfWord, List.length_range']
  rw [foldl_receives, List.length_range', Nat.mul_comm]

/-- The byte count of a rectangle on the panel does not overflow. -/
theorem size_eq
    {xStart yStart xEnd yEnd : Nat}
    (columns : xStart ≤ xEnd) (rows : yStart ≤ yEnd)
    (right : xEnd < 240) (bottom : yEnd < 240) :
    u32 (((xEnd : Int) - xStart) * ((yEnd : Int) - yStart) * 2) =
      (xEnd - xStart) * (yEnd - yStart) * 2 := by
  have small : (xEnd - xStart) * (yEnd - yStart) ≤ 239 * 239 :=
    Nat.mul_le_mul (by omega) (by omega)
  have product : ((xEnd : Int) - xStart) * ((yEnd : Int) - yStart) * 2 =
      (((xEnd - xStart) * (yEnd - yStart) * 2 : Nat) : Int) := by
    push_cast [Nat.cast_sub columns, Nat.cast_sub rows]
    rfl
  rw [u32, product]
  omega

/-- What `lcd_fill` sends for a rectangle on the panel. -/
theorem lcdFill_eq
    (available : Bool) {xStart yStart xEnd yEnd : Nat}
    (color : Color) (lcd : Lcd)
    (columns : xStart ≤ xEnd) (rows : yStart ≤ yEnd)
    (right : xEnd < 240) (bottom : yEnd < 240) :
    lcdFill available xStart yStart xEnd yEnd color lcd =
      (lcdAddressSet xStart yStart xEnd yEnd lcd).receives
        (if (xEnd - xStart) * (yEnd - yStart) ≠ 0 ∧ available = true then
          (xEnd - xStart) * (yEnd - yStart)
        else (xEnd + 1 - xStart) * (yEnd + 1 - yStart)) color := by
  rw [lcdFill]
  simp only [size_eq columns rows right bottom]
  by_cases fast :
      (xEnd - xStart) * (yEnd - yStart) ≠ 0 ∧ available = true
  · rw [if_pos fast]
    by_cases long :
        (xEnd - xStart) * (yEnd - yStart) * 2 > lcdClearSendNumber
    · rw [if_pos long, if_pos long, if_pos ⟨by decide, fast.2⟩,
        fastFill_eq _ _ _ _ (by decide) (by
          simp only [lcdClearSendNumber]
          omega) (Or.inr rfl)]
      congr 1
      simp only [lcdClearSendNumber] at *
      omega
    · rw [if_neg long, if_neg long, if_pos ⟨by omega, fast.2⟩,
        fastFill_eq _ _ _ _ (by omega) (by decide) (Or.inl rfl)]
      congr 1
      omega
  · rw [if_neg fast, if_neg, slowFill_eq]
    rintro ⟨nonzero, memory⟩
    apply fast
    refine ⟨fun zero => nonzero ?_, memory⟩
    rw [zero]
    rfl

/-! ## Which cells are painted -/

/--
A call paints the cells of a rectangle, each once, in one colour, and nothing
else.
-/
structure Fills (xStart yStart xEnd yEnd : Nat) (color : Color)
    (painted : List Pixel) : Prop where
  everywhere : ∀ x y, (x, y) ∈ painted.map Pixel.cell ↔
    (xStart ≤ x ∧ x ≤ xEnd) ∧ yStart ≤ y ∧ y ≤ yEnd
  once : (painted.map Pixel.cell).Nodup
  colored : ∀ pixel ∈ painted, pixel.color = color

/-- A window is filled exactly when every cell of it gets one colour. -/
theorem fills_iff
    {xStart yStart xEnd yEnd : Nat} (color : Color) (count : Nat)
    (columns : xStart ≤ xEnd) (rows : yStart ≤ yEnd)
    (fits : count ≤ (xEnd + 1 - xStart) * (yEnd + 1 - yStart)) :
    Fills xStart yStart xEnd yEnd color
        (((⟨xStart, yStart, xEnd, yEnd, columns, rows⟩ : Window).cells
          0 count).map fun cell => ⟨cell, color⟩) ↔
      count = (xEnd + 1 - xStart) * (yEnd + 1 - yStart) := by
  let window : Window := ⟨xStart, yStart, xEnd, yEnd, columns, rows⟩
  have area : window.area = (xEnd + 1 - xStart) * (yEnd + 1 - yStart) := by
    show (xEnd - xStart + 1) * (yEnd - yStart + 1) = _
    rw [Nat.sub_add_comm columns, Nat.sub_add_comm rows]
  have cells : ((window.cells 0 count).map fun cell =>
      (⟨cell, color⟩ : Pixel)).map Pixel.cell = window.cells 0 count := by
    rw [List.map_map]
    exact List.map_id _
  rw [← area] at fits ⊢
  constructor
  · intro fills
    apply Nat.le_antisymm fits
    apply (Window.covers_iff count).mp
    intro cell inside
    rw [← cells]
    exact (fills.everywhere cell.1 cell.2).mpr inside
  · intro full
    constructor
    · intro x y
      rw [cells]
      exact ⟨fun member => Window.inside_of_mem member,
        fun inside =>
          (Window.covers_iff count).mpr full.ge (x, y) inside⟩
    · rw [cells]
      exact Window.cells_nodup fits
    · intro pixel member
      obtain ⟨cell, -, rfl⟩ := List.mem_map.mp member
      rfl

section Panel

variable (available : Bool) {xStart yStart xEnd yEnd : Nat}
  (color : Color) (lcd : Lcd)
  (columns : xStart ≤ xEnd) (rows : yStart ≤ yEnd)
  (right : xEnd < 240) (bottom : yEnd < 240)

include right bottom

/-- The pixels of a filling are as many cells of its window as were sent. -/
theorem paints_iff (pixels : List Pixel) :
    Paints lcd (lcdFill available xStart yStart xEnd yEnd color lcd)
        pixels ↔
      pixels =
        ((⟨xStart, yStart, xEnd, yEnd, columns, rows⟩ : Window).cells 0
          (if (xEnd - xStart) * (yEnd - yStart) ≠ 0 ∧
              available = true then
            (xEnd - xStart) * (yEnd - yStart)
          else (xEnd + 1 - xStart) * (yEnd + 1 - yStart))).map
          fun cell => ⟨cell, color⟩ := by
  have window : (lcdAddressSet xStart yStart xEnd yEnd lcd).window =
      some ⟨xStart, yStart, xEnd, yEnd, columns, rows⟩ :=
    dif_pos ⟨columns, rows⟩
  rw [Paints, lcdFill_eq available color lcd columns rows right bottom]
  simp only [Lcd.receives, Lcd.coming, window]
  constructor
  · intro same
    exact (List.append_cancel_left same).symm
  · rintro rfl
    rfl

/-- With memory, a rectangle of several columns and rows is not filled. -/
theorem not_fills_buffered (wide : xStart < xEnd) (high : yStart < yEnd) :
    ¬ ∃ pixels,
      Paints lcd (lcdFill true xStart yStart xEnd yEnd color lcd)
        pixels ∧
      Fills xStart yStart xEnd yEnd color pixels := by
  rintro ⟨pixels, paints, fills⟩
  have columns : xStart ≤ xEnd := wide.le
  have rows : yStart ≤ yEnd := high.le
  have nonzero : (xEnd - xStart) * (yEnd - yStart) ≠ 0 := by
    apply Nat.mul_ne_zero <;> omega
  have smaller : (xEnd - xStart) * (yEnd - yStart) <
      (xEnd + 1 - xStart) * (yEnd + 1 - yStart) := by
    rw [Nat.sub_add_comm columns, Nat.sub_add_comm rows]
    nlinarith [Nat.zero_le (xEnd - xStart), Nat.zero_le (yEnd - yStart)]
  rw [paints_iff true color lcd columns rows right bottom,
    if_pos ⟨nonzero, rfl⟩] at paints
  subst paints
  have full := (fills_iff color _ columns rows smaller.le).mp fills
  exact smaller.ne full

include columns rows in
/-- A rectangle of one column or one row is filled. -/
theorem fills_narrow (narrow : xStart = xEnd ∨ yStart = yEnd) :
    ∃ pixels,
      Paints lcd (lcdFill available xStart yStart xEnd yEnd color lcd)
        pixels ∧
      Fills xStart yStart xEnd yEnd color pixels := by
  have zero : (xEnd - xStart) * (yEnd - yStart) = 0 := by
    rcases narrow with same | same
    · rw [same, Nat.sub_self, Nat.zero_mul]
    · rw [same, Nat.sub_self, Nat.mul_zero]
  refine ⟨_, (paints_iff available color lcd columns rows right bottom
    _).mpr rfl, ?_⟩
  rw [if_neg (by simp [zero])]
  exact (fills_iff color _ columns rows le_rfl).mpr rfl

end Panel

/--
`lcd_fill` fills its rectangle whether there is memory or not exactly when the
rectangle is one column or one row.
-/
theorem fills_either_way_iff
    (xStart yStart xEnd yEnd : Nat) (color : Color) (lcd : Lcd)
    (columns : xStart ≤ xEnd) (rows : yStart ≤ yEnd)
    (right : xEnd < 240) (bottom : yEnd < 240) :
    (∀ available, ∃ pixels,
      Paints lcd (lcdFill available xStart yStart xEnd yEnd color lcd)
        pixels ∧
      Fills xStart yStart xEnd yEnd color pixels) ↔
      xStart = xEnd ∨ yStart = yEnd := by
  constructor
  · intro either
    by_contra wide
    rw [not_or] at wide
    exact not_fills_buffered color lcd right bottom
      (columns.lt_of_ne wide.1) (rows.lt_of_ne wide.2) (either true)
  · intro narrow available
    exact fills_narrow available color lcd columns rows right bottom narrow

/-- A column of eleven cells is filled, memory or not. -/
theorem fills_column :
    (∃ pixels,
      Paints idleLcd (lcdFill true 5 10 5 20 0xF800#16 idleLcd) pixels ∧
      Fills 5 10 5 20 0xF800#16 pixels) ∧
    ∃ pixels,
      Paints idleLcd (lcdFill false 5 10 5 20 0xF800#16 idleLcd) pixels ∧
      Fills 5 10 5 20 0xF800#16 pixels := by
  have either := (fills_either_way_iff 5 10 5 20 0xF800#16 idleLcd
    (by decide) (by decide) (by decide) (by decide)).mpr (Or.inl rfl)
  exact ⟨either true, either false⟩

/-- A square of four cells is not: with memory only one of them is painted. -/
theorem square_not_filled :
    ¬ ∃ pixels,
      Paints idleLcd (lcdFill true 0 0 1 1 0xF800#16 idleLcd) pixels ∧
      Fills 0 0 1 1 0xF800#16 pixels :=
  not_fills_buffered 0xF800#16 idleLcd (by decide) (by decide)
    (by decide) (by decide)

end InternetWavPlayer.Filling
