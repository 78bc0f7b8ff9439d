import InternetWavPlayer.PlainFormats
import InternetWavPlayer.TextCells

/-!
# The logged strings on the panel

The pages log their calls of `lcd_show_string` and go on.  Here the driver runs
a logged call: it formats the text without arguments, and may wrap lines, clear
the screen, or read an argument that was not passed.  A call whose text takes
no argument returns, and one with room for what it prints hands its characters
on, side by side on its line.
-/

namespace InternetWavPlayer.Screen

open InternetWavPlayer.Display (Color Draw Panel Text u16)
open InternetWavPlayer.Songlist (blockText)
open InternetWavPlayer.DrvLcd
open InternetWavPlayer.Vsnprintf
open InternetWavPlayer.PlainFormats
open InternetWavPlayer.TextDrawing

/-! ## Running a logged call -/

/-- The bytes of a format. -/
def fmt : Text → List UInt8
  | .literal text => text.toList.map ascii
  | .bytes bytes => bytes

section Run

variable (fonts : Fonts) (available : Nat → Bool)

/-- The driver runs a logged call of `lcd_show_string`. -/
def showString (x y size : Nat) (text : Text) (back fore : Color)
    (lcd : Lcd) : Except Missing Drawing :=
  lcdShowString fonts available x y size (fmt text) []
    (.start { lcd with backColor := back, foreColor := fore })

/-- The driver runs a logged call of `lcd_show_num`. -/
def showNum (x y : Nat) (value : Int) (size : Nat) (back fore : Color)
    (lcd : Lcd) : Except Missing Drawing :=
  lcdShowString fonts available x y size (fmt (.literal "%d"))
    [.word (BitVec.ofInt 32 value)]
    (.start { lcd with backColor := back, foreColor := fore })

/-- What a page logs is what the driver does, in the colours of the panel. -/
theorem lcdShowString_logged
    (x y : Int) (size : Nat) (text : Text) {panel : Panel} {lcd : Lcd}
    (back : lcd.backColor = panel.backColor)
    (fore : lcd.foreColor = panel.foreColor) :
    ∃ logBack logFore, Display.lcdShowString x y size text panel =
        panel.add (.string (u16 x) (u16 y) size text logBack logFore) ∧
      showString fonts available (u16 x) (u16 y) size text logBack logFore
          lcd =
        lcdShowString fonts available (u16 x) (u16 y) size (fmt text) []
          (.start lcd) := by
  refine ⟨panel.backColor, panel.foreColor, rfl, ?_⟩
  rw [showString, ← back, ← fore]

/-- A call in a size that has a font returns if its text can be formatted. -/
theorem lcdShowString_ok_iff
    {x y size : Nat} (sized : size = 16 ∨ size = 24 ∨ size = 32)
    (text : List UInt8) (args : List Arg) (drawing : Drawing) :
    (∃ after, lcdShowString fonts available x y size text args drawing =
      .ok after) ↔ ∃ printed, format text args = .ok printed := by
  rw [lcdShowString, if_neg (by omega), rtVsnprintf]
  cases format text args with
  | error missing =>
      exact ⟨fun ⟨_, ran⟩ => (nomatch ran), fun ⟨_, ran⟩ => (nomatch ran)⟩
  | ok printed => exact ⟨fun _ => ⟨printed, rfl⟩, fun _ => ⟨_, rfl⟩⟩

end Run

/-! ## Calls that return -/

/-- The driver returns from a logged call, whatever it meets. -/
def Returns : Draw → Prop
  | .string x y size text back fore => ∀ fonts available lcd, ∃ after,
      showString fonts available x y size text back fore lcd = .ok after
  | .num x y value size back fore => ∀ fonts available lcd, ∃ after,
      showNum fonts available x y value size back fore lcd = .ok after
  | _ => True

/-- A string returns exactly when its text takes no argument. -/
theorem returns_string_iff
    {x y size : Nat} (sized : size = 16 ∨ size = 24 ∨ size = 32)
    (text : Text) (back fore : Color) :
    Returns (.string x y size text back fore) ↔ TakesNone (fmt text) := by
  rw [← format_ok_iff]
  constructor
  · intro returns
    obtain ⟨after, ran⟩ :=
      returns ⟨fun _ => 0, fun _ => 0, fun _ => 0⟩ (fun _ => true) idleLcd
    exact (lcdShowString_ok_iff _ _ sized _ _ _).mp ⟨after, ran⟩
  · intro formatted fonts available lcd
    exact (lcdShowString_ok_iff _ _ sized _ _ _).mpr formatted

theorem returns_num
    (x y : Nat) (value : Int) (back fore : Color) :
    Returns (.num x y value 16 back fore) := by
  intro fonts available lcd
  exact (lcdShowString_ok_iff _ _ (.inl rfl) _ _ _).mpr ⟨_, rfl⟩

/-! ## Calls that stand on their line -/

/-- The calls for a text whose characters stand side by side. -/
def lineCalls (size y : Nat) : Nat → List UInt8 → List Call
  | _, [] => []
  | x, character :: rest =>
      .showChar x y character :: lineCalls size y (x + size / 2) rest

/-- A string stands on its line, with exactly the characters of its text. -/
def Stands : Draw → Prop
  | .string x y size text back fore => ∀ fonts available lcd, ∃ after,
      showString fonts available x y size text back fore lcd =
        .ok after ∧
      after.calls = lineCalls size y x (fmt text)
  | _ => True

theorem lcdShowChar_calls
    (fonts : Fonts) (available : Bool) (x y : Nat) (character : UInt8)
    (size : Nat) (drawing : Drawing) :
    (lcdShowChar fonts available x y character size drawing).calls =
      drawing.calls ++ [.showChar x y character] := by
  rw [lcdShowChar]
  dsimp only
  split
  · rfl
  · split <;> rfl

/-- With room for the text the loop neither wraps nor clears. -/
theorem showLoop_line
    (fonts : Fonts) (available : Nat → Bool) {size x y : Nat}
    (small : 2 ≤ size) (text : List UInt8) (drawing : Drawing)
    (fits : x + size / 2 * text.length ≤ 240) (row : y + size ≤ 240) :
    (showLoop fonts available size x y text drawing).calls =
      drawing.calls ++ lineCalls size y x text := by
  induction text generalizing x drawing with
  | nil => exact (List.append_nil _).symm
  | cons character rest induction =>
      rw [List.length_cons, Nat.mul_succ] at fits
      have right : ¬ x > u32 (240 - (size / 2 : Nat)) := by
        simp only [u32]
        omega
      have bottom : ¬ y > u32 (240 - (size : Nat)) := by
        simp only [u32]
        omega
      have next : u16 ((x : Int) + (size : Nat) / 2) = x + size / 2 := by
        simp only [u16]
        omega
      rw [showLoop]
      simp only [if_neg right, if_neg bottom, next]
      rw [induction _ (by omega), lcdShowChar_calls, lineCalls,
        List.append_assoc, List.singleton_append]

/-- A text that is printed as it stands, with room for it. -/
structure FitsLine (x y size : Nat) (text : List UInt8) : Prop where
  sized : size = 16 ∨ size = 24 ∨ size = 32
  verbatim : Verbatim text
  solid : ∀ byte ∈ text, byte ≠ 0
  right : x + size / 2 * text.length ≤ 240
  bottom : y + size ≤ 240

/-- A string of the program's own with room for it. -/
theorem FitsLine.literal
    {x y size : Nat} {literal : String}
    (sized : size = 16 ∨ size = 24 ∨ size = 32)
    (verbatim : Verbatim (fmt (.literal literal)))
    (solid : (fmt (.literal literal)).all (· != 0) = true)
    (right : x + size / 2 * (fmt (.literal literal)).length ≤ 240)
    (bottom : y + size ≤ 240) : FitsLine x y size (fmt (.literal literal)) where
  sized := sized
  verbatim := verbatim
  solid := fun byte member => by
    simpa using List.all_eq_true.mp solid byte member
  right := right
  bottom := bottom

theorem FitsLine.stands
    {x y size : Nat} {text : Text} (fits : FitsLine x y size (fmt text))
    (back fore : Color) : Stands (.string x y size text back fore) := by
  intro fonts available lcd
  have sized := fits.sized
  have right := fits.right
  have wide : (fmt text).length ≤ 99 := by
    have narrow : 8 * (fmt text).length ≤
        size / 2 * (fmt text).length := by
      apply Nat.mul_le_mul_right
      omega
    omega
  have whole : blockText ((fmt text).take 99) = fmt text := by
    rw [List.take_of_length_le wide]
    exact List.takeWhile_eq_self_iff.mpr fun byte member => by
      simpa using fits.solid byte member
  refine ⟨showLoop fonts available size x y (fmt text)
    (.start { lcd with backColor := back, foreColor := fore }), ?_, ?_⟩
  · rw [showString, lcdShowString, if_neg (by omega), rtVsnprintf,
      format_verbatim fits.verbatim]
    exact congrArg (fun text => Except.ok (showLoop fonts available size x y
      text _)) whole
  · exact showLoop_line fonts available (by omega) (fmt text) _ right
      fits.bottom

/-- Every string drawn since the last clear stands on its line. -/
def Legible : List Draw → Prop
  | [] => True
  | .clear _ :: _ => True
  | draw :: older => Stands draw ∧ Legible older

theorem Legible.cons
    {draw : Draw} {older : List Draw} (legible : Legible older)
    (stands : Stands draw) : Legible (draw :: older) := by
  cases draw with
  | clear color => trivial
  | _ => exact ⟨stands, legible⟩

/-! ## Texts of the program and texts from outside -/

/-- A call whose text, if it has one, stands in the program. -/
def Plain : Draw → Prop
  | .string _ _ size text _ _ => (size = 16 ∨ size = 24 ∨ size = 32) ∧
      (∃ literal, text = .literal literal) ∧ Verbatim (fmt text)
  | .num _ _ _ size _ _ => size = 16
  | _ => True

/-- A call of the program's own, or one that draws a text from outside. -/
inductive TextCall (drawn : Nat → Nat → List UInt8 → Prop) :
    Draw → Prop where
  | plain {draw : Draw} (own : Plain draw) : TextCall drawn draw
  | text {x y : Nat} {text : List UInt8} (outside : drawn x y text)
      (back fore : Color) :
      TextCall drawn (.string x y 24 (.bytes text) back fore)

theorem Plain.returns {draw : Draw} (plain : Plain draw) :
    Returns draw := by
  cases draw with
  | string x y size text back fore =>
      obtain ⟨sized, -, verbatim⟩ := plain
      exact (returns_string_iff sized _ _ _).mpr
        ((format_ok_iff _).mp ⟨_, format_verbatim verbatim⟩)
  | num x y value size back fore =>
      cases plain
      exact returns_num x y value back fore
  | _ => trivial

/-- The calls return if the texts from outside take no argument. -/
theorem TextCall.returns
    {drawn : Nat → Nat → List UInt8 → Prop} {draw : Draw}
    (none : ∀ x y text, drawn x y text → TakesNone text)
    (call : TextCall drawn draw) : Returns draw := by
  cases call with
  | plain own => exact own.returns
  | text outside back fore =>
      exact (returns_string_iff (by decide) _ _ _).mpr (none _ _ _ outside)

theorem TextCall.mono
    {drawn other : Nat → Nat → List UInt8 → Prop} {draw : Draw}
    (call : TextCall drawn draw)
    (weaker : ∀ x y text, drawn x y text → other x y text) :
    TextCall other draw := by
  cases call with
  | plain own => exact .plain own
  | text outside back fore => exact .text (weaker _ _ _ outside) back fore

/-- What is drawn from outside by a call of this kind. -/
theorem TextCall.outside
    {drawn : Nat → Nat → List UInt8 → Prop} {x y size : Nat}
    {text : List UInt8} {back fore : Color}
    (call : TextCall drawn (.string x y size (.bytes text) back fore)) :
    size = 24 ∧ drawn x y text := by
  cases call with
  | plain own =>
      obtain ⟨-, ⟨literal, same⟩, -⟩ := own
      cases same
  | text outside back fore => exact ⟨rfl, outside⟩

/-! ## What was drawn between two panels -/

/-- The calls made from one panel to another are all of a kind. -/
def Drew (kind : Draw → Prop) (before after : Panel) : Prop :=
  ∃ calls, after.draws = calls ++ before.draws ∧
    ∀ draw ∈ calls, kind draw

section Drew

variable {kind : Draw → Prop} {first second third : Panel}

theorem Drew.of_draws_eq (same : second.draws = first.draws) :
    Drew kind first second :=
  ⟨[], same, fun _ member => (nomatch member)⟩

theorem Drew.trans (older : Drew kind first second)
    (newer : Drew kind second third) : Drew kind first third := by
  obtain ⟨early, second_eq, earlyKind⟩ := older
  obtain ⟨late, third_eq, lateKind⟩ := newer
  refine ⟨late ++ early, ?_, ?_⟩
  · rw [third_eq, second_eq, List.append_assoc]
  · exact List.forall_mem_append.mpr ⟨lateKind, earlyKind⟩

theorem Drew.mono {other : Draw → Prop} (drew : Drew kind first second)
    (weaker : ∀ draw, kind draw → other draw) :
    Drew other first second := by
  obtain ⟨calls, made, all⟩ := drew
  exact ⟨calls, made, fun draw member => weaker draw (all draw member)⟩

/-- One more call. -/
theorem Drew.add (drew : Drew kind first second) (draw : Draw)
    (last : kind draw) : Drew kind first (second.add draw) :=
  drew.trans ⟨[draw], rfl, by simpa using last⟩

/-- A call is made from one panel to another. -/
def Made (draw : Draw) (before after : Panel) : Prop :=
  ∃ calls, after.draws = calls ++ before.draws ∧ draw ∈ calls

theorem Made.add (draw : Draw) (panel : Panel) :
    Made draw panel (panel.add draw) :=
  ⟨[draw], rfl, List.mem_singleton_self draw⟩

theorem Made.before {draw : Draw} (older : Drew kind first second)
    (made : Made draw second third) : Made draw first third := by
  obtain ⟨early, second_eq, -⟩ := older
  obtain ⟨late, third_eq, member⟩ := made
  exact ⟨late ++ early, by rw [third_eq, second_eq, List.append_assoc],
    List.mem_append_left early member⟩

theorem Made.after {draw : Draw} (made : Made draw first second)
    (newer : Drew kind second third) : Made draw first third := by
  obtain ⟨early, second_eq, member⟩ := made
  obtain ⟨late, third_eq, -⟩ := newer
  exact ⟨late ++ early, by rw [third_eq, second_eq, List.append_assoc],
    List.mem_append_right late member⟩

/-- What was drawn is known by the panels alone. -/
theorem Drew.made (drew : Drew kind first second) {draw : Draw}
    (made : Made draw first second) : kind draw := by
  obtain ⟨calls, equal, all⟩ := drew
  obtain ⟨others, same, member⟩ := made
  rw [List.append_cancel_right (same.symm.trans equal)] at member
  exact all draw member

/-- If all calls were of a kind they still are. -/
theorem Drew.all (drew : Drew kind first second)
    (older : ∀ draw ∈ first.draws, kind draw) :
    ∀ draw ∈ second.draws, kind draw := by
  obtain ⟨calls, made, all⟩ := drew
  rw [made]
  exact List.forall_mem_append.mpr ⟨all, older⟩

theorem Drew.legible (drew : Drew Stands first second)
    (legible : Legible first.draws) : Legible second.draws := by
  obtain ⟨calls, made, all⟩ := drew
  rw [made]
  clear made
  induction calls with
  | nil => exact legible
  | cons draw older induction =>
      rw [List.forall_mem_cons] at all
      exact (induction all.2).cons all.1

end Drew

end InternetWavPlayer.Screen
