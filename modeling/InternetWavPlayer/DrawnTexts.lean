import InternetWavPlayer.DrawnPages
import InternetWavPlayer.OutsideText
import InternetWavPlayer.PlaylistBounds

/-!
# The texts of a run

Whatever the LCD thread goes through, each text that it draws is its own, the
name of a song from the first six of a list that was fetched, or an entry of
the card.  If all of these are fit to be shown, then in every run each call
returns and each text from outside shows itself.
-/

namespace InternetWavPlayer.DrawnTexts

open InternetWavPlayer.Run
open InternetWavPlayer.LcdEvent
open InternetWavPlayer.Display
open InternetWavPlayer.Songlist
open InternetWavPlayer.Webclient
open InternetWavPlayer.Pages
open InternetWavPlayer.LcdThread
open InternetWavPlayer.Dispatch
open InternetWavPlayer.Scene
open InternetWavPlayer.Effects
open InternetWavPlayer.Playlists
open InternetWavPlayer.Listing
open InternetWavPlayer.Fetching
open InternetWavPlayer.PlaylistBounds
open InternetWavPlayer.PlainFormats
open InternetWavPlayer.Screen
open InternetWavPlayer.DrawnLists
open InternetWavPlayer.DrawnPages
open InternetWavPlayer.SavedNames
open InternetWavPlayer.TextRows
open InternetWavPlayer.OutsideText

/-! ## What the outside gives -/

section Given

variable (listed : Nat → CString → Prop) (entries : List UInt8 → Prop)

/-- The list that a fetch gets, and the entries of the card. -/
structure Gives (env : Env) : Prop where
  names : ∀ array, fetchedArray env.fetch = some array →
    ∀ (row : Nat) name, (array.take 6)[row]? = some (some name) →
      listed row name
  directory : ∀ found, env.directory = some found →
    ∀ entry ∈ found, entries entry.dName

/-- A text from outside, where the pages draw it. -/
inductive Given : Nat → Nat → List UInt8 → Prop where
  | name {row : Nat} {name : CString} (room : row < 6)
      (known : listed row name) : Given 8 (rowY row) name.text
  | saved {row : Nat} {name : CString} (room : row < 6)
      (known : listed row name) : Given 8 (rowY row) (name.text.take 30)
  | title {row : Nat} {name : CString} (known : listed row name) :
      Given (u16 (titleX (name.text.take 30).length)) 179
        (name.text.take 30)
  | entry {line : Nat} {dName : List UInt8} (room : line < 6)
      (known : entries dName) : Given 8 (rowY line) (snprintf16 dName)

/-- The calls of the thread. -/
abbrev Call : Draw → Prop := TextCall (Given listed entries)

/-- What page 1 draws in a row. -/
def RowText (row : Int) (text : List UInt8) : Prop :=
  ∃ name, listed row.toNat name ∧
    (text = name.text ∨ text = name.text.take 30)

/-- The names that the playlist holds were listed. -/
def SavedListed (playlist : Playlist) : Prop :=
  ∀ row, Inside playlist row → ∃ name, listed row.toNat name ∧
    textAt playlist row = name.text.take 30

end Given

variable {listed : Nat → CString → Prop} {entries : List UInt8 → Prop}

theorem call_of_listCall {draw : Draw}
    (call : ListCall (RowText listed) draw) : Call listed entries draw := by
  refine call.text.mono ?_
  rintro x y text ⟨row, ⟨low, high⟩, rfl, rfl, name, known, texts⟩
  obtain ⟨place, rfl⟩ := Int.eq_ofNat_of_zero_le low
  have room : place < 6 := by omega
  rcases texts with rfl | rfl
  · exact .name room known
  · exact .saved room known

section Saved

variable {playlist : Playlist}

theorem SavedListed.rowText
    (saved : SavedListed listed playlist) {row : Int}
    (inside : Inside playlist row) :
    RowText listed row (textAt playlist row) := by
  obtain ⟨name, known, text⟩ := saved row inside
  exact ⟨name, known, .inr text⟩

/-- The selected name, if it can be read, was listed. -/
theorem SavedListed.selected
    (saved : SavedListed listed playlist) (sound : Sound playlist)
    {text : List UInt8}
    (read : songText playlist playlist.songlistNum = .ok text) :
    ∃ name, listed playlist.songlistNum.toNat name ∧
      text = name.text.take 30 := by
  obtain ⟨array, pointer⟩ :=
    Option.ne_none_iff_exists'.mp (songlist_of_text read)
  have inside := inside_of_selected sound pointer
  obtain ⟨name, known, same⟩ := saved _ inside
  rw [songText_of_inside sound inside, same] at read
  cases read
  exact ⟨name, known, rfl⟩

theorem savedListed_of_null (null : playlist.songlist = none) :
    SavedListed listed playlist :=
  fun row inside => absurd inside (not_inside_of_null null row)

/-- A list that is saved holds the names that it listed. -/
theorem savedListed_listed
    {nameAllocated : Nat → Bool} {array : List (Option CString)}
    (savable : Savable nameAllocated 0 (array.take 6))
    (known : ∀ (row : Nat) name,
      (array.take 6)[row]? = some (some name) → listed row name)
    (playlist : Playlist) :
    SavedListed listed (listedPlaylist array playlist) := by
  have strings := strings_of_savable savable
  rintro row ⟨found, pointer, low, high⟩
  cases pointer
  obtain ⟨place, rfl⟩ := Int.eq_ofNat_of_zero_le low
  rw [List.length_map, savedSongs_length _ savable] at high
  have bound : place < (array.take 6).length := by omega
  obtain ⟨name, is⟩ :=
    Option.isSome_iff_exists.mp (strings _ (List.getElem_mem bound))
  have element : (array.take 6)[place]? = some (some name) := by
    rw [List.getElem?_eq_getElem bound, is]
  exact ⟨name, known place name element,
    textAt_listed playlist strings element⟩

end Saved

section Pages

variable {env : Env} {event : IotbLcdEvent} {statics after : Statics}

/-- Showing page 1 draws and saves names of the list that it fetches. -/
theorem showPage1_drew
    (gives : Gives listed entries env) (sound : Sound statics.playlist)
    (saved : SavedListed listed statics.playlist)
    (ran : showStatics env 1 event statics = .ok after) :
    SavedListed listed after.playlist ∧
      Drew (Call listed entries) statics.panel after.panel := by
  have requested : Sound ((statics.draw drawWebServer).log
      (.action .fetch)).playlist := sound
  have cleared : Drew (ListCall (RowText listed)) statics.panel
      (lcdClear white statics.panel) :=
    (Drew.of_draws_eq rfl).add _ (.clear white)
  have titled := cleared.trans (drawWebServer_drew _ statics.panel)
  rw [showStatics_one, fetchPlaylist_eq] at ran
  split at ran
  · cases ran
  split at ran
  · cases ran
    exact ⟨saved, titled.mono fun _ => call_of_listCall⟩
  · cases ran
    exact ⟨saved, (titled.trans (drawNoData_drew _ _)).mono
      fun _ => call_of_listCall⟩
  · rename_i name rest fetched
    rw [listSongs_eq _ _ _ requested (by simp)] at ran
    split_ifs at ran with allocated savable selected
    cases ran
    have known := gives.names _ fetched
    have held := savedListed_listed savable known statics.playlist
    have inside : Inside (listedPlaylist (name :: rest) statics.playlist)
        statics.playlist.songlistNum :=
      inside_of_selected (sound_listed sound savable selected) rfl
    have drew := listedStatics_drew (RowText listed) (name :: rest)
      ((statics.draw drawWebServer).log (.action .fetch))
      (fun row string element => ⟨string, known row string element, .inl rfl⟩)
      (inside.row (sound_listed sound savable selected))
      (SavedListed.rowText held inside)
    exact ⟨held, (titled.trans drew).mono fun _ => call_of_listCall⟩

/-- Entering page 2 draws the name that is selected. -/
theorem showPage2_drew
    (sound : Sound statics.playlist)
    (saved : SavedListed listed statics.playlist)
    (ran : showStatics env 2 event statics = .ok after) :
    after.playlist = statics.playlist ∧
      Drew (Call listed entries) statics.panel after.panel := by
  have player : Drew (Call listed entries) statics.panel
      (drawWavPlayer statics.volumeValue statics.panel) :=
    (drawWavPlayer_drew _ _).mono fun _ => .plain
  rw [showStatics.eq_def] at ran
  split at ran
  · contradiction
  · obtain ⟨same, -⟩ := Entered.playlist (enterMusic_entered ran)
    obtain ⟨text, read, drew⟩ := enterMusic_drew ran
    obtain ⟨name, known, rfl⟩ := saved.selected sound read
    refine ⟨same, player.trans (drew.mono fun draw call => call.mono ?_)⟩
    rintro x y text ⟨rfl, rfl, rfl⟩
    exact .title known
  · cases ran
    exact ⟨rfl, player⟩
  · contradiction

/-- Page 3 draws the entries of the card. -/
theorem directory_drew
    (gives : Gives listed entries env) (panel : Panel) :
    Drew (Call listed entries) panel (drawDirectory env.directory panel) := by
  refine (drawDirectory_drew env.directory panel).mono
    fun draw call => call.mono ?_
  rintro x y text ⟨found, entry, opened, member, line, room, rfl, rfl, rfl⟩
  exact .entry room (gives.directory found opened entry member)

/-- Entering page 3 releases the list. -/
theorem showPage3_drew
    (gives : Gives listed entries env) (sound : Sound statics.playlist)
    (saved : SavedListed listed statics.playlist)
    (ran : showStatics env 3 event statics = .ok after) :
    SavedListed listed after.playlist ∧
      Drew (Call listed entries) statics.panel after.panel := by
  have titled : Drew (Call listed entries) statics.panel
      (drawFileSystem statics.panel) :=
    (drawFileSystem_drew _).mono fun _ => .plain
  simp only [showStatics, bind_eq_ok_iff] at ran
  obtain ⟨playlist, released, ran⟩ := ran
  cases ran
  refine ⟨?_, titled.trans (directory_drew gives _)⟩
  have before : Sound (statics.draw drawFileSystem).playlist := sound
  cases pointer : statics.playlist.songlist with
  | none =>
      rw [releasePlaylist_of_null _ before pointer] at released
      split at released
      · cases released
        exact saved
      · cases released
  | some array =>
      rw [releasePlaylist_of_saved _ before pointer] at released
      cases released
      exact savedListed_of_null rfl

/-- What a page draws when it is left. -/
theorem exit_drew
    (gives : Gives listed entries env) (page : Nat) :
    Drew (Call listed entries) statics.panel
      (exitStatics env page statics).panel := by
  rw [exitStatics.eq_def]
  split
  · exact .of_draws_eq rfl
  · exact .of_draws_eq rfl
  · exact directory_drew gives _

/-- What a page draws when it is due; a move reads the names of the list. -/
theorem due_drew
    (gives : Gives listed entries env) (sound : Sound statics.playlist)
    (saved : SavedListed listed statics.playlist) {page : Nat}
    (ran : dueStatics env page event statics = .ok after) :
    SavedListed listed after.playlist ∧
      Drew (Call listed entries) statics.panel after.panel := by
  have move : ∀ {action target}, Reselects action target statics after →
      SavedListed listed after.playlist ∧
        Drew (Call listed entries) statics.panel after.panel := by
    intro action target reselects
    obtain ⟨array, pointer, -⟩ := reselects.inside
    have drew := reselects_drew (RowText listed) sound
      (inside_of_selected sound pointer) reselects
      fun row inside => saved.rowText inside
    obtain ⟨inside, others, insides, rfl⟩ := reselects
    exact ⟨saved, drew.mono fun _ => call_of_listCall⟩
  rw [dueStatics.eq_def] at ran
  split at ran
  · exact move (nextsong_ran sound ran)
  · exact move (lastsong_ran sound ran)
  · cases ran
    exact ⟨saved, .of_draws_eq rfl⟩
  · rcases playStop_ok ran with ⟨-, rfl⟩ | ⟨name, -, -, rfl⟩
    · exact ⟨saved, .of_draws_eq rfl⟩
    · exact ⟨saved, .of_draws_eq rfl⟩
  · cases ran
    rw [pauseResume]
    split <;> exact ⟨saved, .of_draws_eq rfl⟩
  · cases ran
    refine ⟨?_, (volumeDown_drew statics).mono fun _ => .plain⟩
    rw [volumeDown]
    split <;> exact saved
  · cases ran
    refine ⟨?_, (volumeUp_drew statics).mono fun _ => .plain⟩
    rw [volumeUp]
    split <;> exact saved
  · cases ran
    exact ⟨saved, .of_draws_eq rfl⟩
  · cases ran
    exact ⟨saved, directory_drew gives _⟩

end Pages

/-! ## Along a run -/

/-- All calls so far drew what was given, and so are the names still held. -/
structure DrewGiven (listed : Nat → CString → Prop)
    (entries : List UInt8 → Prop) (scene : View) : Prop where
  lists : ListInvariant scene
  saved : SavedListed listed scene.statics.playlist
  drawn : ∀ draw ∈ scene.statics.panel.draws, Call listed entries draw

theorem drewGiven_initial (card : Card) :
    DrewGiven listed entries (.initial card) where
  lists := listInvariant_initial card
  saved := savedListed_of_null rfl
  drawn _ member := absurd member List.not_mem_nil

theorem drewGiven_preserved
    (input : Input) (scene next : View)
    (drew : DrewGiven listed entries scene)
    (gives : Gives listed entries input.env)
    (stepped : viewStep input scene = .ok next) :
    DrewGiven listed entries next := by
  have lists := drew.lists
  have sound := lists.sound
  have after := listInvariant_preserved input scene next lists stepped
  cases move_of_step stepped with
  | boot pc shows =>
      obtain ⟨saved, page⟩ := showPage1_drew gives (by exact sound)
        (by exact drew.saved) shows
      exact ⟨after, saved, page.all drew.drawn⟩
  | @switch event target shown pc branch shows =>
      obtain ⟨range, -, -⟩ := served_switch lists.coherent.range branch
      have left : Drew (Call listed entries) scene.statics.panel
          (scene.left input.env).panel :=
        exit_drew gives scene.page
      have soundLeft : Sound ((scene.left input.env).log
          (.handler target .staticContent .enter)).playlist := by
        simpa using sound
      have savedLeft : SavedListed listed ((scene.left input.env).log
          (.handler target .staticContent .enter)).playlist := by
        simpa using drew.saved
      rcases range with rfl | rfl | rfl
      · obtain ⟨saved, page⟩ :=
          showPage1_drew gives soundLeft savedLeft shows
        exact ⟨after, saved, (left.trans page).all drew.drawn⟩
      · obtain ⟨same, page⟩ := showPage2_drew soundLeft savedLeft shows
        refine ⟨after, ?_, (left.trans page).all drew.drawn⟩
        dsimp only
        rw [same]
        exact savedLeft
      · obtain ⟨saved, page⟩ :=
          showPage3_drew gives soundLeft savedLeft shows
        exact ⟨after, saved, (left.trans page).all drew.drawn⟩
  | @due done pc due serves =>
      obtain ⟨saved, page⟩ := due_drew gives (by exact sound)
        (by exact drew.saved) serves
      exact ⟨after, saved, page.all drew.drawn⟩
  | poll pc got => exact ⟨after, drew.saved, drew.drawn⟩
  | timeout pc empty => exact ⟨after, drew.saved, drew.drawn⟩
  | leave pc branch => exact ⟨after, drew.saved, drew.drawn⟩
  | ignore pc branch => exact ⟨after, drew.saved, drew.drawn⟩
  | wait pc notDue => exact ⟨after, drew.saved, drew.drawn⟩
  | tick pc =>
      refine ⟨after, ?_, ?_⟩
      · rw [View.tick]
        split <;> exact drew.saved
      · rw [View.tick]
        split <;> exact drew.drawn

/--
Each text that a run draws is the program's own, or a name or an entry that an
input of the run gave.
-/
theorem texts_given
    {card : Card} {inputs : List Input} {lcd : Lcd}
    (gives : ∀ input ∈ inputs, Gives listed entries input.env)
    (ran : run step inputs (.initial card) = .ok lcd) :
    ∀ draw ∈ lcd.statics.panel.draws, Call listed entries draw := by
  have drew : DrewGiven listed entries (view lcd) :=
    Throughout.invariant drewGiven_preserved (drewGiven_initial card)
      (throughout_of_inputs gives _) (run_view ran)
  exact drew.drawn

/-! ## Texts that show themselves -/

/-- An entry of the card that shows itself in any line. -/
def EntryFits (dName : List UInt8) : Prop :=
  ∃ name : CString, name.text = dName ∧ ∀ line, EntryShown line name

/-- A text from outside is handed on as it is, with its own glyphs. -/
def ShowsItself : Draw → Prop
  | .string x y size (.bytes text) _ _ => size = 24 ∧ Shows x y text text
  | _ => True

theorem takesNone_of_shows
    {x y : Nat} {fmt text : List UInt8} (shows : Shows x y fmt text) :
    TakesNone fmt := by
  obtain ⟨printed, ran, -⟩ := (shows_iff ..).mp shows
  exact (format_ok_iff fmt).mp ⟨printed, ran⟩

/-- Names and entries that show themselves do so where they are drawn. -/
theorem Given.shows
    {x y : Nat} {text : List UInt8}
    (given : Given SongShown EntryFits x y text) : Shows x y text text := by
  have whole : ∀ {row name}, SongShown row name →
      name.text.take 30 = name.text := fun shown =>
    List.take_of_length_le (by
      rw [text_length]
      exact (short_of_shown shown).trans (by decide))
  cases given with
  | name room shown => exact shown.1
  | saved room shown =>
      rw [whole shown]
      exact shown.1
  | title shown =>
      have titled := (shown.2 []).2
      rw [storedText_nil, whole shown] at titled
      rw [whole shown]
      exact titled
  | @entry line dName room fits =>
      obtain ⟨name, rfl, shown⟩ := fits
      obtain ⟨buf, printed, shows⟩ := shown line
      rw [rtVsnprintf_entry (text_solid name)] at printed
      cases printed
      exact shows

theorem call_shows {draw : Draw} (call : Call SongShown EntryFits draw) :
    Returns draw ∧ ShowsItself draw := by
  refine ⟨call.returns fun x y text given => takesNone_of_shows given.shows, ?_⟩
  cases draw with
  | string x y size text back fore =>
      cases text with
      | literal text => trivial
      | bytes text =>
          obtain ⟨sized, given⟩ := call.outside
          exact ⟨sized, given.shows⟩
  | _ => trivial

/--
In every run that is given only names and entries which show themselves, each
call returns and each text from outside shows itself.
-/
theorem texts_shown
    (card : Card) (inputs : List Input) (lcd : Lcd)
    (gives : ∀ input ∈ inputs, Gives SongShown EntryFits input.env)
    (ran : run step inputs (.initial card) = .ok lcd) :
    ∀ draw ∈ lcd.statics.panel.draws, Returns draw ∧ ShowsItself draw :=
  fun draw member => call_shows (texts_given gives ran draw member)

/-- A card with the entry `a.wav`. -/
def cardEnv : Env :=
  { offline with directory := some [⟨songName.text, 0⟩] }

/-- A list at start-up, then a double click of KEY0 that enters page 3. -/
def shownInputs : List Input :=
  [⟨⟨0#32, .empty⟩, online [some songName]⟩,
    ⟨PostedSet.single ⟨.key0, .keyDoubleClick⟩ .next
      key0DoubleClick_processed, offline⟩,
    ⟨⟨0#32, .empty⟩, cardEnv⟩]

/-- The name of the list and the entry of the card show themselves. -/
theorem texts_shown_card :
    ∃ lcd, run step shownInputs (.initial fun _ => some []) = .ok lcd ∧
      lcd.menuIndex = 3 ∧
      ∀ draw ∈ lcd.statics.panel.draws, Returns draw ∧ ShowsItself draw := by
  have reached : (run step shownInputs
      (.initial fun _ => some [])).toOption.map
        (fun lcd => lcd.menuIndex) = some 3 := by
    decide +kernel
  obtain ⟨lcd, ran, page⟩ := toOption_map_eq_some_iff.mp reached
  have named : ∀ row, SongShown row songName := fun row =>
    (songShown_iff row songName).mpr (by decide +kernel)
  have entry : EntryFits songName.text :=
    ⟨songName, rfl, fun line =>
      (entryShown_iff line songName).mpr (by decide +kernel)⟩
  have unfetched : fetchedArray offline.fetch = none := rfl
  have fetched : fetchedArray (online [some songName]).fetch =
      some [some songName] := rfl
  refine ⟨lcd, ran, page, texts_shown (fun _ => some []) shownInputs lcd
    ?_ ran⟩
  intro input member
  simp only [shownInputs, List.mem_cons, List.not_mem_nil, or_false] at member
  rcases member with rfl | rfl | rfl
  · refine ⟨fun array found row name element => ?_, fun _ opened => ?_⟩
    · cases fetched.symm.trans found
      cases List.mem_singleton.mp (List.mem_of_getElem? element)
      exact named row
    · cases opened
  · refine ⟨fun array found => ?_, fun _ opened => ?_⟩
    · cases unfetched.symm.trans found
    · cases opened
  · refine ⟨fun array found => ?_, fun _ opened other among => ?_⟩
    · cases unfetched.symm.trans found
    · cases opened
      cases List.mem_singleton.mp among
      exact entry

end InternetWavPlayer.DrawnTexts
