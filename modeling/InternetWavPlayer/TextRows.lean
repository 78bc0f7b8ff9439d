import InternetWavPlayer.SavedNames

/-!
# The rows of the song names

A name is drawn as it stands in the document or as it was saved, and is the
format of the call.  A row of page 1 has room for 19 characters; the place of
the title on page 2 is computed from the length of the name, and does not come
out negative for up to 20.
-/

namespace InternetWavPlayer.TextRows

open InternetWavPlayer.Display (u16)
open InternetWavPlayer.Songlist
open InternetWavPlayer.Pages
open InternetWavPlayer.DrawnLists (text_solid)
open InternetWavPlayer.SavedNames
open InternetWavPlayer.DrvLcd
open InternetWavPlayer.Vsnprintf
open InternetWavPlayer.PlainFormats
open InternetWavPlayer.TextDrawing
open InternetWavPlayer.TextCells

/-! ## The texts that are drawn -/

/-- What a reader finds at a saved name, given the memory behind its block. -/
def storedText (name : CString) (behind : List UInt8) : List UInt8 :=
  blockText (rtMemcpy name 30 ++ behind)

theorem storedText_nil (name : CString) :
    storedText name [] = name.text.take 30 := by
  rw [storedText, List.append_nil]
  exact blockText_rtMemcpy name 30

theorem storedText_short
    {name : CString} (short : name.length < 30) (behind : List UInt8) :
    storedText name behind = name.text := by
  have kept : blockText (rtMemcpy name 30) = name.text := by
    rw [blockText_rtMemcpy]
    exact List.take_of_length_le (by rw [text_length]; omega)
  have ended : (blockText (rtMemcpy name 30)).length ≠
      (rtMemcpy name 30).length := by
    rw [kept, text_length, rtMemcpy, List.length_map, List.length_range]
    omega
  rw [storedText, blockText, List.takeWhile_append]
  exact (if_neg ended).trans kept

/-- A long name is cut, and what lies behind its block goes on. -/
theorem storedText_long
    {name : CString} (long : 30 ≤ name.length) (behind : List UInt8) :
    storedText name behind = name.text.take 30 ++ blockText behind := by
  have kept : blockText (rtMemcpy name 30) = name.text.take 30 :=
    blockText_rtMemcpy name 30
  have whole : (blockText (rtMemcpy name 30)).length =
      (rtMemcpy name 30).length := by
    rw [kept, List.length_take, text_length, rtMemcpy, List.length_map,
      List.length_range]
    omega
  have all : blockText (rtMemcpy name 30) = rtMemcpy name 30 :=
    (List.takeWhile_prefix _).eq_of_length whole
  rw [← kept, all, storedText, blockText, List.takeWhile_append]
  exact if_pos whole

theorem blockText_solid
    {text : List UInt8} (solid : ∀ byte ∈ text, byte ≠ 0) :
    blockText text = text :=
  List.takeWhile_eq_self_iff.mpr fun byte member => by
    simpa using solid byte member

/-! ## Staying in a row -/

/-- Fonts without ink. -/
def blankFonts : Fonts :=
  ⟨fun _ => 0, fun _ => 0, fun _ => 0⟩

/--
A string paints nothing outside of some lines, and does not reach the branch
that clears the screen, whatever memory there is and whatever was drawn before.
-/
def StaysAt (x y : Nat) (text : List UInt8) : Prop :=
  ∀ fonts available lcd, ∃ after,
    lcdShowString fonts available x y 24 text [] (.start lcd) =
      .ok after ∧
    .clear ∉ after.calls ∧
    ∃ pixels, Paints lcd after.lcd pixels ∧
      ∀ pixel ∈ pixels, y ≤ pixel.cell.2 ∧ pixel.cell.2 ≤ y + 23

theorem lcdShowString_eq
    (fonts : Fonts) (available : Nat → Bool) (x y : Nat)
    (text : List UInt8) (drawing : Drawing) :
    lcdShowString fonts available x y 24 text [] drawing =
      (format text []).map fun printed =>
        showLoop fonts available 24 x y (blockText (printed.take 99))
          drawing := by
  rw [lcdShowString, if_neg (by decide), rtVsnprintf]
  cases format text [] with
  | error missing => rfl
  | ok printed => rfl

theorem clear_not_mem_rowCalls (y x : Nat) (text : List UInt8) :
    Call.clear ∉ rowCalls y x text := by
  induction text generalizing x with
  | nil => exact List.not_mem_nil
  | cons character rest induction =>
      rw [rowCalls, List.mem_cons, not_or]
      exact ⟨fun same => (nomatch same), induction _⟩

/-- A text with room for what it prints stays in its lines. -/
theorem staysAt_of_fits
    {x y : Nat} {text printed : List UInt8}
    (ran : format text [] = .ok printed)
    (fits : x + 12 * printed.length ≤ 240) (row : y ≤ 216) :
    StaysAt x y text := by
  intro fonts available lcd
  have shorter :
      (blockText (printed.take 99)).length ≤ printed.length :=
    (List.takeWhile_prefix _).length_le.trans (List.length_take_le' ..)
  have room : x + 12 * (blockText (printed.take 99)).length ≤ 240 := by
    omega
  obtain ⟨pixels, adds, inside⟩ :=
    showLoop_row fonts available (.start lcd) room row
  refine ⟨_, ?_, ?_, pixels, adds.paints, inside⟩
  · rw [lcdShowString_eq, ran]
    rfl
  · rw [adds.calls]
    exact clear_not_mem_rowCalls y x _

/-- A text that asks for an argument does not. -/
theorem takesNone_of_staysAt
    {x y : Nat} {text : List UInt8} (stays : StaysAt x y text) :
    TakesNone text := by
  obtain ⟨after, shown, -⟩ :=
    stays blankFonts (fun _ => true) idleLcd
  rw [lcdShowString_eq] at shown
  rw [← format_ok_iff]
  cases ran : format text [] with
  | error missing =>
      rw [ran] at shown
      cases shown
  | ok printed => exact ⟨printed, rfl⟩

/-- A verbatim text without room does not. -/
theorem not_staysAt_of_long
    {x y : Nat} {text : List UInt8} (verbatim : Verbatim text)
    (solid : ∀ byte ∈ text, byte ≠ 0) (short : text.length ≤ 99)
    (column : x ≤ 240) (long : 240 < x + 12 * text.length)
    (row : y ≤ 216) (below : 0 < y) :
    ¬ StaysAt x y text := by
  intro stays
  obtain ⟨after, shown, -, pixels, painted, inside⟩ :=
    stays blankFonts (fun _ => true) idleLcd
  obtain ⟨calls, others, adds, pixel, member, outside⟩ :=
    showLoop_escapes blankFonts (fun _ => true) (.start idleLcd) column
      long row below
  rw [lcdShowString_eq, format_verbatim verbatim] at shown
  have whole : blockText (text.take 99) = text := by
    rw [List.take_of_length_le short, blockText_solid solid]
  cases shown
  dsimp only at painted
  rw [whole] at painted
  have same : pixels = others :=
    List.append_cancel_left (painted.symm.trans adds.paints)
  exact outside (inside pixel (same ▸ member))

/-! ## Names that fit -/

/-- A name that needs no argument and has no more than 19 characters to show. -/
def FitsRow (name : CString) : Prop :=
  TakesNone name.text ∧ name.length ≤ 20 ∧
    ¬ (name.length = 20 ∧ Verbatim name.text)

theorem FitsRow.printed
    {name : CString} (fits : FitsRow name) :
    ∃ printed, format name.text [] = .ok printed ∧ printed.length ≤ 19 ∧
      printed.length ≤ name.length := by
  obtain ⟨none, short, room⟩ := fits
  obtain ⟨printed, ran⟩ := (format_ok_iff name.text).mpr none
  have least := format_length ran
  rw [text_length] at least
  refine ⟨printed, ran, ?_, least⟩
  by_contra more
  have twenty : name.length = 20 := by omega
  exact room ⟨twenty, verbatim_of_length ran
    (by rw [text_length]; omega)⟩

/-- A fitting name stays in any row of page 1. -/
theorem FitsRow.row
    {name : CString} (fits : FitsRow name) {y : Nat} (row : y ≤ 216) :
    StaysAt 8 y name.text := by
  obtain ⟨printed, ran, short, -⟩ := fits.printed
  exact staysAt_of_fits ran (by omega) row

/-- Its title is centred, and stays in its line. -/
theorem FitsRow.title
    {name : CString} (fits : FitsRow name) :
    (u16 (titleX name.length) : Int) = (240 - 12 * name.length) / 2 ∧
      StaysAt (u16 (titleX name.length)) 179 name.text := by
  obtain ⟨printed, ran, -, least⟩ := fits.printed
  have short := fits.2.1
  have column : u16 (titleX name.length) = 120 - 6 * name.length := by
    simp only [u16, titleX]
    omega
  rw [column]
  exact ⟨by omega, staysAt_of_fits ran (by omega) (by decide)⟩

/-- A name that is not too long for the title fits if it stays in its row. -/
theorem fitsRow_of_staysAt
    {name : CString} {y : Nat} (stays : StaysAt 8 y name.text)
    (short : name.length ≤ 20) (row : y ≤ 216) (below : 0 < y) :
    FitsRow name := by
  refine ⟨takesNone_of_staysAt stays, short, ?_⟩
  rintro ⟨twenty, verbatim⟩
  exact not_staysAt_of_long verbatim (text_solid name)
    (by rw [text_length]; omega) (by omega) (by rw [text_length]; omega)
    row below stays

end InternetWavPlayer.TextRows
