import InternetWavPlayer.TextRows

/-!
# Texts from outside on the panel

The names of songs and of the entries of the card are drawn as formats.  What
is handed to `lcd_show_char` is what the formatter prints without arguments,
and each character reads the glyph at its distance from the blank, in a table
that ends with the glyph of `}`.
-/

namespace InternetWavPlayer.OutsideText

open InternetWavPlayer.Display (rowY u16)
open InternetWavPlayer.Songlist
open InternetWavPlayer.Pages
open InternetWavPlayer.DrawnLists (text_solid)
open InternetWavPlayer.SavedNames
open InternetWavPlayer.DrvLcd
open InternetWavPlayer.Vsnprintf
open InternetWavPlayer.PlainFormats
open InternetWavPlayer.TextDrawing
open InternetWavPlayer.TextCells
open InternetWavPlayer.TextRows

/-! ## Glyphs -/

/-- The number of glyphs in the table for size 24. -/
def glyphs : Nat := 94

/-- A character from the blank to the last one of the table. -/
def HasGlyph (character : UInt8) : Prop :=
  32 ≤ character.toNat ∧ character.toNat < 32 + glyphs

instance : DecidablePred HasGlyph := fun character =>
  inferInstanceAs (Decidable
    (32 ≤ character.toNat ∧ character.toNat < 32 + glyphs))

/-- A read inside the table for size 24, and in the character's own glyph. -/
structure InsideGlyph (read : FontRead) : Prop where
  size : read.size = 24
  table : read.index < glyphs * 48
  first : ((read.character.toNat : Int) - 32) * 48 ≤ read.index
  last : (read.index : Int) < ((read.character.toNat : Int) - 32) * 48 + 48

theorem data_toNat (character : UInt8) :
    (character - ascii ' ').toNat = (character.toNat + 224) % 256 := by
  have blank : (ascii ' ').toNat = 32 := rfl
  rw [UInt8.toNat_sub, blank]
  omega

/-- The reads of a character stay in its glyph exactly when it has one. -/
theorem charReads_inside_iff (character : UInt8) :
    (∀ read ∈ charReads character, InsideGlyph read) ↔
      HasGlyph character := by
  have byte := character.toNat_lt
  constructor
  · intro inside
    have start : (⟨24, character, (character - ascii ' ').toNat * 48 + 0⟩ :
        FontRead) ∈ charReads character :=
      List.mem_map.mpr ⟨0, List.mem_range.mpr (by decide), rfl⟩
    obtain ⟨-, table, first, last⟩ := inside _ start
    dsimp only at table first last
    rw [data_toNat] at table first last
    simp only [HasGlyph, glyphs] at table ⊢
    omega
  · rintro ⟨blank, brace⟩ read member
    obtain ⟨pos, small, rfl⟩ := List.mem_map.mp member
    rw [List.mem_range] at small
    rw [glyphs] at brace
    have place : (character - ascii ' ').toNat = character.toNat - 32 := by
      rw [data_toNat]
      omega
    refine ⟨rfl, ?_, ?_, ?_⟩ <;>
      · dsimp only [glyphs]
        rw [place]
        omega

/-! ## Showing a text -/

/--
A call shows a text: it reads no argument, hands exactly the characters of the
text to `lcd_show_char`, and reads only their glyphs.
-/
def Shows (x y : Nat) (fmt text : List UInt8) : Prop :=
  ∀ fonts available lcd, ∃ after,
    lcdShowString fonts available x y 24 fmt [] (.start lcd) =
      .ok after ∧
    handed after.calls = text.take 99 ∧
    ∀ read ∈ after.reads, InsideGlyph read

theorem shows_iff (x y : Nat) (fmt text : List UInt8) :
    Shows x y fmt text ↔
      ∃ printed, format fmt [] = .ok printed ∧
        blockText (printed.take 99) = text.take 99 ∧
        ∀ character ∈ text.take 99, HasGlyph character := by
  constructor
  · intro shows
    obtain ⟨after, shown, characters, inside⟩ :=
      shows blankFonts (fun _ => true) idleLcd
    rw [lcdShowString_eq] at shown
    cases ran : format fmt [] with
    | error missing =>
        rw [ran] at shown
        cases shown
    | ok printed =>
        rw [ran] at shown
        cases shown
        obtain ⟨calls, pixels, adds, all⟩ := showLoop_adds blankFonts
          (fun _ => true) x y (blockText (printed.take 99))
          (.start idleLcd)
        have same : blockText (printed.take 99) = text.take 99 := by
          rw [← all, ← characters, adds.calls]
          rfl
        refine ⟨printed, rfl, same, fun character member => ?_⟩
        rw [← charReads_inside_iff]
        intro read reads
        apply inside
        rw [adds.reads, same]
        exact List.mem_append_right _
          (List.mem_flatMap.mpr ⟨character, member, reads⟩)
  · rintro ⟨printed, ran, same, visible⟩ fonts available lcd
    obtain ⟨calls, pixels, adds, all⟩ := showLoop_adds fonts available x y
      (blockText (printed.take 99)) (.start lcd)
    refine ⟨_, by rw [lcdShowString_eq, ran]; rfl, ?_, ?_⟩
    · rw [adds.calls, ← same]
      exact all
    · intro read member
      rw [adds.reads, same] at member
      obtain ⟨character, among, reads⟩ := List.mem_flatMap.mp member
      exact (charReads_inside_iff character).mpr (visible character among)
        read reads

/-- A text that fits the buffer shows itself. -/
theorem shows_self_iff
    (x y : Nat) {text : List UInt8} (solid : ∀ byte ∈ text, byte ≠ 0)
    (short : text.length ≤ 99) :
    Shows x y text text ↔
      Verbatim text ∧ ∀ character ∈ text, HasGlyph character := by
  rw [shows_iff, List.take_of_length_le short]
  constructor
  · rintro ⟨printed, ran, same, visible⟩
    refine ⟨verbatim_of_length ran ?_, visible⟩
    have most := format_length ran
    have least : text.length ≤ printed.length := by
      rw [← same]
      exact (List.takeWhile_prefix _).length_le.trans
        (List.length_take_le' ..)
    omega
  · rintro ⟨verbatim, visible⟩
    refine ⟨text, format_verbatim verbatim, ?_, visible⟩
    rw [List.take_of_length_le short, blockText_solid solid]

/-! ## Song names -/

/--
A song's name shows itself where pages 1 and 2 draw it: in its row when the
list is parsed, and from the saved bytes in its row and as the title.
-/
def SongShown (row : Nat) (name : CString) : Prop :=
  Shows 8 (rowY row) name.text name.text ∧
    ∀ behind,
      Shows 8 (rowY row) (storedText name behind) name.text ∧
      Shows (u16 (titleX (storedText name behind).length)) 179
        (storedText name behind) name.text

/-- A character that is no part of a directive may be appended. -/
theorem verbatim_append
    {text : List UInt8} (verbatim : Verbatim text) {next : UInt8}
    (plain : next ∉ directiveBytes) : Verbatim (text ++ [next]) := by
  induction text with
  | nil => exact trivial
  | cons character rest induction =>
      cases rest with
      | nil => exact ⟨fun _ => plain, trivial⟩
      | cons other rest => exact ⟨verbatim.1, induction verbatim.2⟩

/-- A name without room for its NUL does not show itself from its block. -/
theorem short_of_shown
    {row : Nat} {name : CString} (shown : SongShown row name) :
    name.length ≤ 29 := by
  obtain ⟨parsed, saved⟩ := shown
  by_contra long
  have cut : ∀ behind, storedText name behind =
      name.text.take 30 ++ blockText behind :=
    storedText_long (by omega)
  have size := text_length name
  have most : name.length ≤ 30 := by
    obtain ⟨printed, ran, same, -⟩ := (shows_iff ..).mp (saved []).1
    have fewer := format_length ran
    have lengths := congrArg List.length same
    have kept : (blockText (printed.take 99)).length ≤ printed.length :=
      (List.takeWhile_prefix _).length_le.trans (List.length_take_le' ..)
    rw [cut, List.length_append, List.length_take] at fewer
    rw [List.length_take] at lengths
    have nothing : (blockText []).length = 0 := rfl
    omega
  have verbatim : Verbatim name.text :=
    ((shows_self_iff 8 _ (text_solid name) (by omega)).mp parsed).1
  -- a letter behind the block is shown, too
  obtain ⟨printed, ran, same, -⟩ :=
    (shows_iff ..).mp (saved [ascii 'a']).1
  have stored : storedText name [ascii 'a'] = name.text ++ [ascii 'a'] := by
    rw [cut, List.take_of_length_le (by omega)]
    rfl
  rw [stored, format_verbatim (verbatim_append verbatim (by decide))] at ran
  cases ran
  have solid : ∀ byte ∈ name.text ++ [ascii 'a'], byte ≠ 0 := by
    intro byte member
    rcases List.mem_append.mp member with own | last
    · exact text_solid name byte own
    · rw [List.mem_singleton.mp last]
      decide
  have lengths := congrArg List.length same
  rw [List.take_of_length_le (by simp; omega), blockText_solid solid,
    List.length_append, List.length_take] at lengths
  have one : [ascii 'a'].length = 1 := rfl
  omega

theorem songShown_iff (row : Nat) (name : CString) :
    SongShown row name ↔
      name.length ≤ 29 ∧ Verbatim name.text ∧
        ∀ character ∈ name.text, HasGlyph character := by
  have itself : name.length ≤ 29 → ∀ x y,
      (Shows x y name.text name.text ↔
        Verbatim name.text ∧
          ∀ character ∈ name.text, HasGlyph character) :=
    fun short x y => shows_self_iff x y (text_solid name)
      (by rw [text_length]; omega)
  constructor
  · intro shown
    have short := short_of_shown shown
    exact ⟨short, (itself short _ _).mp shown.1⟩
  · rintro ⟨short, plain⟩
    have parsed := fun x y => (itself short x y).mpr plain
    refine ⟨parsed _ _, fun behind => ?_⟩
    rw [storedText_short (by omega)]
    exact ⟨parsed _ _, parsed _ _⟩

/-! ## Entries of the card -/

/-- The format of page 3 for a name, `"%-16s"`. -/
def entryFormat : List UInt8 :=
  [ascii '%', ascii '-', ascii '1', ascii '6', ascii 's']

theorem snprintf16_solid
    {name : List UInt8} (solid : ∀ byte ∈ name, byte ≠ 0) :
    ∀ byte ∈ snprintf16 name, byte ≠ 0 := by
  intro byte member
  rcases List.mem_append.mp (List.mem_of_mem_take member) with own | pad
  · exact solid byte own
  · rw [List.eq_of_mem_replicate pad]
    decide

/-- `rt_snprintf` leaves the first 15 characters, padded with blanks. -/
theorem rtVsnprintf_entry
    {name : List UInt8} (solid : ∀ byte ∈ name, byte ≠ 0) :
    rtVsnprintf 16 entryFormat [.text (some name)] =
      .ok (snprintf16 name) := by
  have printed : format entryFormat [.text (some name)] =
      .ok (name ++ List.replicate (16 - name.length) 32) := by
    have ran : format entryFormat [.text (some name)] =
        .ok ((name ++ repeated ((16 : Nat) - name.length) (ascii ' ')) ++
          []) :=
      rfl
    have count : ((16 : Nat) - (name.length : Int)).toNat =
        16 - name.length := by
      omega
    rw [ran, List.append_nil, repeated, count]
    rfl
  rw [rtVsnprintf, printed]
  exact congrArg Except.ok (blockText_solid (snprintf16_solid solid))

/-- An entry's name, cut and padded, shows itself in its line of page 3. -/
def EntryShown (line : Nat) (name : CString) : Prop :=
  ∃ buf, rtVsnprintf 16 entryFormat [.text (some name.text)] = .ok buf ∧
    Shows 8 (rowY line) buf (snprintf16 name.text)

theorem snprintf16_length (name : List UInt8) :
    (snprintf16 name).length = 15 := by
  rw [snprintf16, List.length_take, List.length_append,
    List.length_replicate]
  omega

theorem entryShown_iff (line : Nat) (name : CString) :
    EntryShown line name ↔
      Verbatim (snprintf16 name.text) ∧
        ∀ character ∈ name.text.take 15, HasGlyph character := by
  have printed := rtVsnprintf_entry (text_solid name)
  have solid := snprintf16_solid (text_solid name)
  have visible :
      (∀ character ∈ snprintf16 name.text, HasGlyph character) ↔
        ∀ character ∈ name.text.take 15, HasGlyph character := by
    rw [snprintf16, List.take_append]
    constructor
    · exact fun all character member =>
        all character (List.mem_append_left _ member)
    · intro all character member
      rcases List.mem_append.mp member with own | pad
      · exact all character own
      · rw [List.eq_of_mem_replicate (List.mem_of_mem_take pad)]
        decide
  rw [← visible, ← shows_self_iff 8 (rowY line) solid
    (by rw [snprintf16_length]; decide), EntryShown, printed]
  constructor
  · rintro ⟨buf, same, shows⟩
    cases same
    exact shows
  · exact fun shows => ⟨_, rfl, shows⟩

/-! ## The law for all texts -/

/--
The name of a song shows itself exactly when it leaves room for its NUL, is
printed as it stands and has a glyph for every character; the name of an entry
exactly when its cut and padded form does.
-/
theorem outside_text_shown_iff (row line : Nat) (name : CString) :
    (SongShown row name ↔
      name.length ≤ 29 ∧ Verbatim name.text ∧
        ∀ character ∈ name.text, HasGlyph character) ∧
    (EntryShown line name ↔
      Verbatim (snprintf16 name.text) ∧
        ∀ character ∈ name.text.take 15, HasGlyph character) :=
  ⟨songShown_iff row name, entryShown_iff line name⟩

/-- `100%.wav`, of which the point is lost. -/
def percentName : CString :=
  .ofList ("100%.wav".toList.map fun c => ascii c)
    (solid_of_all rfl)

/-- `%d.wav`, which asks for an argument. -/
def argumentName : CString :=
  .ofList ("%d.wav".toList.map fun c => ascii c)
    (solid_of_all rfl)

/-- `a~b.wav`, with a character behind the end of the table. -/
def tildeName : CString :=
  .ofList ("a~b.wav".toList.map fun c => ascii c)
    (solid_of_all rfl)

/-- Three names that do not show themselves, each for its own reason. -/
theorem names_not_shown :
    ¬ SongShown 0 percentName ∧
      format argumentName.text [] = .error .argument ∧
      ¬ SongShown 0 argumentName ∧
      ¬ SongShown 0 tildeName := by
  refine ⟨?_, rfl, ?_, ?_⟩
  · intro shown
    exact absurd ((songShown_iff _ _).mp shown).2.1 (by decide)
  · intro shown
    exact absurd ((songShown_iff _ _).mp shown).2.1 (by decide)
  · intro shown
    exact absurd (((songShown_iff _ _).mp shown).2.2 (ascii '~')
      (by decide)) (by decide)

end InternetWavPlayer.OutsideText
