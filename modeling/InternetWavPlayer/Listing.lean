import InternetWavPlayer.Playlists
import InternetWavPlayer.Effects

/-!
# Drawing, moving in and saving the song list

On a sound playlist every part of page 1 either succeeds with a known result or
faults at an element access; which of the two is decided by the statics alone.
-/

namespace InternetWavPlayer.Listing

open InternetWavPlayer.Run
open InternetWavPlayer.LcdEvent
open InternetWavPlayer.Display
open InternetWavPlayer.Songlist
open InternetWavPlayer.Webclient
open InternetWavPlayer.ResponseText
open InternetWavPlayer.Pages
open InternetWavPlayer.Playlists

/-! ## Rows -/

/-- A row drawn over a blank row. -/
def rowDrawing (back fore : Color) (row : Int) (text : List UInt8)
    (panel : Panel) : Panel :=
  lcdShowString 8 (52 + 31 * row) 24 (.bytes text)
    (lcdShowString 0 (52 + 31 * row) 24 blankRow
      (lcdSetColor back fore panel))

theorem drawRow_of_text
    (statics : Statics) {row : Int} {text : List UInt8}
    (back fore : Color)
    (read : songText statics.playlist row = .ok text) :
    drawRow back fore row statics =
      .ok (statics.draw (rowDrawing back fore row text)) := by
  rw [drawRow]
  simp only [Statics.draw, read, bind, Except.bind, pure, Except.pure]
  rfl

theorem drawRow_of_fault
    (statics : Statics) {row : Int} {fault : Fault}
    (back fore : Color)
    (read : songText statics.playlist row = .error fault) :
    drawRow back fore row statics = .error fault := by
  rw [drawRow]
  simp only [Statics.draw, read, bind, Except.bind]

theorem white_ne_blue : white ≠ blue := by decide

/-- A row drawn on white highlights nothing. -/
theorem unhighlighted_row
    {panel : Panel} (unhighlighted : Unhighlighted panel)
    (row : Int) (text : List UInt8) :
    Unhighlighted (rowDrawing white black row text panel) := by
  have blank := (unhighlighted.setColor white black).string
    white_ne_blue 0 (52 + 31 * row) 24 blankRow
  exact blank.string white_ne_blue 8 (52 + 31 * row) 24 (.bytes text)

/-- Redrawing the highlighted row takes the highlight away. -/
theorem unhighlighted_redraw
    {panel : Panel} {row : Int} {text : Text}
    (highlighted : Highlighted panel row text) (name : List UInt8) :
    Unhighlighted (rowDrawing white black row name panel) := by
  have origin : u16 (52 + 31 * row) = rowY row := rfl
  intro x y cell shown back
  simp only [rowDrawing, shownAt_string] at shown
  split at shown
  · cases shown
    cases back
  · rename_i notText
    split at shown
    · cases shown
      cases back
    · rename_i notBlank
      obtain ⟨rfl, column⟩ := highlighted.only x y cell shown back
      rcases column with rfl | rfl
      · exact notBlank ⟨rfl, origin⟩
      · exact notText ⟨rfl, origin⟩

/-- The row drawn in the colours of the selection is the highlighted one. -/
theorem highlighted_select
    {panel : Panel} (unhighlighted : Unhighlighted panel)
    (row : Int) (text : List UInt8) :
    Highlighted (rowDrawing blue white row text panel) row
      (.bytes text) := by
  have origin : u16 (52 + 31 * row) = rowY row := rfl
  constructor
  · simp only [rowDrawing, shownAt_string]
    rw [if_pos ⟨rfl, origin⟩]
    rfl
  · intro x y cell shown back
    simp only [rowDrawing, shownAt_string] at shown
    split at shown
    · rename_i here
      exact ⟨here.2.symm, Or.inr here.1.symm⟩
    · split at shown
      · rename_i here
        exact ⟨here.2.symm, Or.inl here.1.symm⟩
      · exact absurd back (unhighlighted x y cell shown)

/-! ## Moving the selection -/

/-- The statics after a move to a song, with what is drawn by then. -/
def moved (base : Statics) (action : Action) (songlistNum : Int)
    (panel : Panel) : Statics :=
  { base with
    playlist := { base.playlist with songlistNum := songlistNum }
    panel := panel
    trace := .action action :: base.trace }

/-- The drawing of one row of a list. -/
def listRow (playlist : Playlist) (back fore : Color) (row : Int) :
    Panel → Panel :=
  rowDrawing back fore row (textAt playlist row)

section Moves

variable (base : Statics) (action : Action) (panel : Panel)

@[simp]
theorem moved_songlistNum (songlistNum : Int) :
    (moved base action songlistNum panel).playlist.songlistNum =
      songlistNum :=
  rfl

@[simp]
theorem moved_itemNum (songlistNum : Int) :
    (moved base action songlistNum panel).playlist.itemNum =
      base.playlist.itemNum :=
  rfl

@[simp]
theorem moved_setSonglistNum (before after : Int) :
    (moved base action before panel).setSonglistNum after =
      moved base action after panel :=
  rfl

@[simp]
theorem log_setSonglistNum (songlistNum : Int) :
    (base.log (.action action)).setSonglistNum songlistNum =
      moved base action songlistNum base.panel :=
  rfl

@[simp]
theorem log_playlist (entry : Observation) :
    (base.log entry).playlist = base.playlist :=
  rfl

theorem songText_moved (songlistNum index : Int) :
    songText (moved base action songlistNum panel).playlist index =
      songText base.playlist index :=
  rfl

theorem drawRow_moved
    {row : Int} (sound : Sound base.playlist)
    (inside : Inside base.playlist row) (songlistNum : Int)
    (back fore : Color) :
    drawRow back fore row (moved base action songlistNum panel) =
      .ok (moved base action songlistNum
        (listRow base.playlist back fore row panel)) :=
  drawRow_of_text _ back fore
    ((songText_moved _ _ _ _ _).trans (songText_of_inside sound inside))

theorem drawRow_moved_fault
    {row : Int} (sound : Sound base.playlist)
    (outside : ¬ Inside base.playlist row) (songlistNum : Int)
    (back fore : Color) :
    drawRow back fore row (moved base action songlistNum panel) =
      .error (.songlistAccess base.playlist.allocated row) :=
  drawRow_of_fault _ back fore
    ((songText_moved _ _ _ _ _).trans (songText_of_outside sound outside))

theorem showSelected_moved
    {row : Int} (sound : Sound base.playlist)
    (inside : Inside base.playlist row) :
    showSelected (moved base action row panel) =
      .ok (moved base action row
        (listRow base.playlist blue white row panel)) := by
  rw [showSelected, moved_songlistNum, songText_moved,
    songText_of_inside sound inside]
  exact drawRow_moved _ _ _ sound inside row blue white

end Moves

/-- A selection move that succeeds, and what it highlights. -/
structure Moves (action : Action) (before after : Statics) : Prop where
  change : ∃ songlistNum panel,
    after = moved before action songlistNum panel
  inside : Inside before.playlist after.playlist.songlistNum
  highlight : ∀ text,
    Highlighted before.panel before.playlist.songlistNum text →
    Highlighted after.panel after.playlist.songlistNum
      (.bytes (textAt before.playlist after.playlist.songlistNum))

/-- Rows are redrawn in the colours of the rest of the list. -/
def unselect (playlist : Playlist) (rows : List Int) (panel : Panel) :
    Panel :=
  rows.foldl (fun panel row => listRow playlist white black row panel) panel

/--
A move redraws the row selected before, perhaps others, and last the new one
in the colours of the selection.
-/
structure Reselects (action : Action) (target : Int)
    (before after : Statics) : Prop where
  inside : Inside before.playlist target
  redraws : ∃ others, (∀ row ∈ others, Inside before.playlist row) ∧
    after = moved before action target
      (listRow before.playlist blue white target
        (unselect before.playlist
          (before.playlist.songlistNum :: others) before.panel))

theorem unhighlighted_unselect
    {panel : Panel} (unhighlighted : Unhighlighted panel)
    (playlist : Playlist) (rows : List Int) :
    Unhighlighted (unselect playlist rows panel) := by
  induction rows generalizing panel with
  | nil => exact unhighlighted
  | cons row rest induction =>
      exact induction (unhighlighted_row unhighlighted row _)

theorem Reselects.moves
    {action : Action} {target : Int} {before after : Statics}
    (reselects : Reselects action target before after) :
    Moves action before after := by
  obtain ⟨inside, others, -, rfl⟩ := reselects
  refine ⟨⟨_, _, rfl⟩, inside, ?_⟩
  intro text highlighted
  exact highlighted_select (unhighlighted_unselect
    (unhighlighted_redraw highlighted _) _ others) _ _

theorem inside_of_selected
    {playlist : Playlist} {array : SongArray} (sound : Sound playlist)
    (pointer : playlist.songlist = some array) :
    Inside playlist playlist.songlistNum :=
  ⟨array, pointer, sound.selection, (sound.saved array pointer).inside⟩

theorem not_inside_of_null
    {playlist : Playlist} (null : playlist.songlist = none)
    (index : Int) : ¬ Inside playlist index := by
  rintro ⟨array, pointer, -⟩
  rw [null] at pointer
  cases pointer

/-- The row after the selected one, or the first. -/
def nextRow (playlist : Playlist) : Int :=
  if playlist.songlistNum + 1 > playlist.itemNum - 1 then 0
  else playlist.songlistNum + 1

/-- The row before the selected one, or the last. -/
def lastRow (playlist : Playlist) : Int :=
  if playlist.songlistNum - 1 < 0 then playlist.itemNum - 1
  else playlist.songlistNum - 1

theorem nextsong_reselects
    {statics : Statics} {array : SongArray}
    (sound : Sound statics.playlist)
    (pointer : statics.playlist.songlist = some array)
    (count : 1 ≤ statics.playlist.itemNum) :
    ∃ after, nextsong statics = .ok after ∧
      Reselects .nextsong (nextRow statics.playlist) statics after := by
  have saved := sound.saved array pointer
  have selected := saved.inside
  have selection := sound.selection
  have counted : statics.playlist.itemNum = array.entries.length := by
    rcases saved.counted with counted | empty
    · exact counted
    · omega
  have old := inside_of_selected sound pointer
  have step : nextsongStep (statics.log (.action .nextsong)) =
      .ok (moved statics .nextsong (statics.playlist.songlistNum + 1)
        (listRow statics.playlist white black
          statics.playlist.songlistNum statics.panel)) := by
    have within :
        statics.playlist.songlistNum ≤ statics.playlist.itemNum - 1 := by
      omega
    simp only [nextsongStep, log_playlist, within, ↓reduceIte,
      log_setSonglistNum, moved_songlistNum, Int.add_sub_cancel]
    exact drawRow_moved _ _ _ sound old _ white black
  by_cases wraps :
      statics.playlist.songlistNum + 1 > statics.playlist.itemNum - 1
  · have last : Inside statics.playlist (statics.playlist.itemNum - 1) :=
      ⟨array, pointer, by omega, by omega⟩
    have first : Inside statics.playlist 0 :=
      ⟨array, pointer, by omega, by omega⟩
    have wrap : ∀ panel,
        nextsongWrap (moved statics .nextsong
            (statics.playlist.songlistNum + 1) panel) =
          .ok (moved statics .nextsong 0
            (listRow statics.playlist white black
              (statics.playlist.itemNum - 1) panel)) := by
      intro panel
      simp only [nextsongWrap, moved_songlistNum, moved_itemNum,
        moved_setSonglistNum, wraps, ↓reduceIte]
      exact drawRow_moved _ _ _ sound last 0 white black
    have ran : nextsong statics =
        .ok (moved statics .nextsong 0
          (listRow statics.playlist blue white 0
            (listRow statics.playlist white black
              (statics.playlist.itemNum - 1)
              (listRow statics.playlist white black
                statics.playlist.songlistNum statics.panel)))) := by
      rw [nextsong, step]
      simp only [bind, Except.bind, wrap]
      exact showSelected_moved _ _ _ sound first
    rw [nextRow, if_pos wraps]
    exact ⟨_, ran, first, [statics.playlist.itemNum - 1],
      by simpa using last, rfl⟩
  · have next : Inside statics.playlist
        (statics.playlist.songlistNum + 1) :=
      ⟨array, pointer, by omega, by omega⟩
    have stay : ∀ panel,
        nextsongWrap (moved statics .nextsong
            (statics.playlist.songlistNum + 1) panel) =
          .ok (moved statics .nextsong
            (statics.playlist.songlistNum + 1) panel) := by
      intro panel
      simp only [nextsongWrap, moved_songlistNum, moved_itemNum,
        wraps, ↓reduceIte]
    have ran : nextsong statics =
        .ok (moved statics .nextsong (statics.playlist.songlistNum + 1)
          (listRow statics.playlist blue white
            (statics.playlist.songlistNum + 1)
            (listRow statics.playlist white black
              statics.playlist.songlistNum statics.panel))) := by
      rw [nextsong, step]
      simp only [bind, Except.bind, stay]
      exact showSelected_moved _ _ _ sound next
    rw [nextRow, if_neg wraps]
    exact ⟨_, ran, next, [], by simp, rfl⟩

/-- The next song cannot be selected without an array or without a count. -/
theorem nextsong_of_outside
    {statics : Statics} (sound : Sound statics.playlist)
    (outside : statics.playlist.songlist = none ∨
      statics.playlist.itemNum = 0) :
    ∃ allocated index,
      nextsong statics = .error (.songlistAccess allocated index) := by
  have count := sound.count
  have selection := sound.selection
  by_cases within :
      statics.playlist.songlistNum ≤ statics.playlist.itemNum - 1
  · have null : statics.playlist.songlist = none := by
      rcases outside with null | empty
      · exact null
      · omega
    have fault := drawRow_moved_fault statics .nextsong
      statics.panel sound
      (not_inside_of_null null statics.playlist.songlistNum)
      (statics.playlist.songlistNum + 1) white black
    refine ⟨statics.playlist.allocated,
      statics.playlist.songlistNum, ?_⟩
    simp only [nextsong, nextsongStep, log_playlist, within, ↓reduceIte,
      log_setSonglistNum, moved_songlistNum, Int.add_sub_cancel, fault,
      bind, Except.bind]
  · have last : ¬ Inside statics.playlist
        (statics.playlist.itemNum - 1) := by
      rcases outside with null | empty
      · exact not_inside_of_null null _
      · rintro ⟨array, -, low, -⟩
        omega
    have fault := drawRow_moved_fault statics .nextsong
      statics.panel sound last 0
      white black
    have beyond :
        statics.playlist.songlistNum > statics.playlist.itemNum - 1 := by
      omega
    refine ⟨statics.playlist.allocated,
      statics.playlist.itemNum - 1, ?_⟩
    simp only [nextsong, nextsongStep, nextsongWrap, log_playlist,
      within, ↓reduceIte, bind, Except.bind, beyond, log_setSonglistNum,
      moved_itemNum, fault]

/-- The next song is selected, or there is no song to select. -/
theorem nextsong_cases
    {statics : Statics} (sound : Sound statics.playlist) :
    ((statics.playlist.songlist = none ∨ statics.playlist.itemNum = 0) ∧
        ∃ allocated index,
          nextsong statics = .error (.songlistAccess allocated index)) ∨
      ((statics.playlist.songlist ≠ none ∧ statics.playlist.itemNum ≠ 0) ∧
        ∃ after, nextsong statics = .ok after ∧
          Reselects .nextsong (nextRow statics.playlist) statics
            after) := by
  have count := sound.count
  by_cases outside : statics.playlist.songlist = none ∨
      statics.playlist.itemNum = 0
  · exact Or.inl ⟨outside, nextsong_of_outside sound outside⟩
  · rw [not_or] at outside
    obtain ⟨array, pointer⟩ := Option.ne_none_iff_exists'.mp outside.1
    exact Or.inr ⟨outside, nextsong_reselects sound pointer (by omega)⟩

theorem lastsong_reselects
    {statics : Statics} {array : SongArray}
    (sound : Sound statics.playlist)
    (pointer : statics.playlist.songlist = some array)
    (room : 1 ≤ statics.playlist.songlistNum ∨
      1 ≤ statics.playlist.itemNum) :
    ∃ after, lastsong statics = .ok after ∧
      Reselects .lastsong (lastRow statics.playlist) statics after := by
  have saved := sound.saved array pointer
  have selected := saved.inside
  have selection := sound.selection
  have forward : statics.playlist.songlistNum ≥ 0 := selection
  have old := inside_of_selected sound pointer
  have step : lastsongStep (statics.log (.action .lastsong)) =
      .ok (moved statics .lastsong (statics.playlist.songlistNum - 1)
        (listRow statics.playlist white black
          statics.playlist.songlistNum statics.panel)) := by
    simp only [lastsongStep, log_playlist, forward, ↓reduceIte,
      log_setSonglistNum, moved_songlistNum, Int.sub_add_cancel]
    exact drawRow_moved _ _ _ sound old _ white black
  by_cases wraps : statics.playlist.songlistNum - 1 < 0
  · have counted : statics.playlist.itemNum = array.entries.length := by
      rcases saved.counted with counted | empty
      · exact counted
      · omega
    have last : Inside statics.playlist (statics.playlist.itemNum - 1) :=
      ⟨array, pointer, by omega, by omega⟩
    have wrap : ∀ panel,
        lastsongWrap (moved statics .lastsong
            (statics.playlist.songlistNum - 1) panel) =
          .ok (moved statics .lastsong (statics.playlist.itemNum - 1)
            (listRow statics.playlist white black
              (statics.playlist.itemNum - 1) panel)) := by
      intro panel
      simp only [lastsongWrap, moved_songlistNum, moved_itemNum,
        moved_setSonglistNum, wraps, ↓reduceIte]
      exact drawRow_moved _ _ _ sound last _ white black
    have ran : lastsong statics =
        .ok (moved statics .lastsong (statics.playlist.itemNum - 1)
          (listRow statics.playlist blue white
            (statics.playlist.itemNum - 1)
            (listRow statics.playlist white black
              (statics.playlist.itemNum - 1)
              (listRow statics.playlist white black
                statics.playlist.songlistNum statics.panel)))) := by
      rw [lastsong, step]
      simp only [bind, Except.bind, wrap]
      exact showSelected_moved _ _ _ sound last
    rw [lastRow, if_pos wraps]
    exact ⟨_, ran, last, [statics.playlist.itemNum - 1],
      by simpa using last, rfl⟩
  · have previous : Inside statics.playlist
        (statics.playlist.songlistNum - 1) :=
      ⟨array, pointer, by omega, by omega⟩
    have stay : ∀ panel,
        lastsongWrap (moved statics .lastsong
            (statics.playlist.songlistNum - 1) panel) =
          .ok (moved statics .lastsong
            (statics.playlist.songlistNum - 1) panel) := by
      intro panel
      simp only [lastsongWrap, moved_songlistNum, wraps, ↓reduceIte]
    have ran : lastsong statics =
        .ok (moved statics .lastsong (statics.playlist.songlistNum - 1)
          (listRow statics.playlist blue white
            (statics.playlist.songlistNum - 1)
            (listRow statics.playlist white black
              statics.playlist.songlistNum statics.panel))) := by
      rw [lastsong, step]
      simp only [bind, Except.bind, stay]
      exact showSelected_moved _ _ _ sound previous
    rw [lastRow, if_neg wraps]
    exact ⟨_, ran, previous, [], by simp, rfl⟩

/-- The last song cannot be selected without an array or below row 0. -/
theorem lastsong_of_outside
    {statics : Statics} (sound : Sound statics.playlist)
    (outside : statics.playlist.songlist = none ∨
      (statics.playlist.songlistNum = 0 ∧
        statics.playlist.itemNum = 0)) :
    ∃ allocated index,
      lastsong statics = .error (.songlistAccess allocated index) := by
  have selection := sound.selection
  have forward : statics.playlist.songlistNum ≥ 0 := selection
  cases pointer : statics.playlist.songlist with
  | none =>
      have fault := drawRow_moved_fault statics .lastsong
        statics.panel sound
        (not_inside_of_null pointer statics.playlist.songlistNum)
        (statics.playlist.songlistNum - 1) white black
      refine ⟨statics.playlist.allocated,
        statics.playlist.songlistNum, ?_⟩
      simp only [lastsong, lastsongStep, log_playlist, forward, ↓reduceIte,
        log_setSonglistNum, moved_songlistNum, Int.sub_add_cancel, fault,
        bind, Except.bind]
  | some array =>
      obtain ⟨zero, empty⟩ : statics.playlist.songlistNum = 0 ∧
          statics.playlist.itemNum = 0 := by
        rcases outside with null | both
        · rw [pointer] at null
          cases null
        · exact both
      have last : ¬ Inside statics.playlist
          (statics.playlist.itemNum - 1) := by
        rintro ⟨array, -, low, -⟩
        omega
      have step := drawRow_moved statics .lastsong statics.panel
        sound (inside_of_selected sound pointer)
        (statics.playlist.songlistNum - 1) white black
      have fault := drawRow_moved_fault statics .lastsong
        (listRow statics.playlist white black
          statics.playlist.songlistNum statics.panel)
        sound last (statics.playlist.itemNum - 1) white black
      have below : statics.playlist.songlistNum - 1 < 0 := by omega
      refine ⟨statics.playlist.allocated,
        statics.playlist.itemNum - 1, ?_⟩
      simp only [lastsong, lastsongStep, log_playlist, forward, ↓reduceIte,
        log_setSonglistNum, moved_songlistNum, Int.sub_add_cancel, step,
        bind, Except.bind, lastsongWrap, moved_itemNum,
        moved_setSonglistNum, below, fault]

/-- The last song is selected, or there is no song to select. -/
theorem lastsong_cases
    {statics : Statics} (sound : Sound statics.playlist) :
    ((statics.playlist.songlist = none ∨
          statics.playlist.songlistNum = 0 ∧
            statics.playlist.itemNum = 0) ∧
        ∃ allocated index,
          lastsong statics = .error (.songlistAccess allocated index)) ∨
      ((statics.playlist.songlist ≠ none ∧
          (statics.playlist.songlistNum ≠ 0 ∨
            statics.playlist.itemNum ≠ 0)) ∧
        ∃ after, lastsong statics = .ok after ∧
          Reselects .lastsong (lastRow statics.playlist) statics
            after) := by
  have count := sound.count
  have selection := sound.selection
  by_cases outside : statics.playlist.songlist = none ∨
      (statics.playlist.songlistNum = 0 ∧ statics.playlist.itemNum = 0)
  · exact Or.inl ⟨outside, lastsong_of_outside sound outside⟩
  · rw [not_or, not_and_or] at outside
    obtain ⟨array, pointer⟩ := Option.ne_none_iff_exists'.mp outside.1
    exact Or.inr ⟨outside, lastsong_reselects sound pointer (by omega)⟩

end InternetWavPlayer.Listing
