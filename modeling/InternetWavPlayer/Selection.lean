import InternetWavPlayer.DrawnLists
import InternetWavPlayer.PlaylistBounds

/-!
# The song that starts and the song that is highlighted

Whenever page 1 has drawn a list since it was last shown, exactly the row of
`songlist_num` is highlighted, with the text that entering the music page reads.
A list left over from an earlier visit is highlighted nowhere.  The rows can be
read if each name has room in its row and is printed as it stands.
-/

namespace InternetWavPlayer.Selection

open InternetWavPlayer.Run
open InternetWavPlayer.LcdEvent
open InternetWavPlayer.Display
open InternetWavPlayer.Songlist
open InternetWavPlayer.Webclient
open InternetWavPlayer.Pages
open InternetWavPlayer.LcdThread
open InternetWavPlayer.Dispatch
open InternetWavPlayer.Scene
open InternetWavPlayer.Effects
open InternetWavPlayer.Playlists
open InternetWavPlayer.Listing
open InternetWavPlayer.Fetching
open InternetWavPlayer.PlaylistBounds
open InternetWavPlayer.PlainFormats
open InternetWavPlayer.Screen
open InternetWavPlayer.DrawnLists

/-! ## What page 1 shows -/

/-- A list was drawn since page 1 was last shown. -/
def listedSinceShown : List Observation → Bool
  | [] => false
  | .listed _ :: _ => true
  | .handler 1 .staticContent _ :: _ => false
  | _ :: older => listedSinceShown older

/-- The selected song is the highlighted row. -/
def ShowsSelected (statics : Statics) : Prop :=
  Highlighted statics.panel statics.playlist.songlistNum
    (.bytes (textAt statics.playlist statics.playlist.songlistNum))

theorem unhighlighted_drawNames
    (cnt : Nat) (array : List (Option CString)) {panel : Panel}
    (unhighlighted : Unhighlighted panel) :
    Unhighlighted (drawNames cnt array panel) := by
  induction array generalizing cnt panel with
  | nil => exact unhighlighted
  | cons name rest induction =>
      cases name with
      | none => exact induction (cnt + 1) unhighlighted
      | some name =>
          refine induction (cnt + 1) ?_
          have text := (unhighlighted.setColor white black).string
            white_ne_blue 8 (52 + 31 * cnt) 24 (.bytes name.text)
          exact (text.setColor white gray240).line _ _ _ _

theorem unhighlighted_drawList
    (array : List (Option CString)) {panel : Panel}
    (unhighlighted : Unhighlighted panel)
    (back : panel.backColor ≠ blue) :
    Unhighlighted (drawList array panel) :=
  (unhighlighted_drawNames 0 (array.take 6)
    (unhighlighted.string back _ _ _ _)).line _ _ _ _

theorem unhighlighted_drawWebServer (panel : Panel) :
    Unhighlighted (drawWebServer panel) := by
  have cleared := (unhighlighted_clear white panel).setColor white black
  have title := cleared.string white_ne_blue 40 8 32
    (.literal "Web Server")
  exact title.string white_ne_blue 48 80 24 (.literal "Searching...")

/-- Showing page 1 highlights the selected song if it draws a list. -/
theorem showPage1_shows
    {env : Env} {event shown : IotbLcdEvent} {statics after : Statics}
    (sound : Sound statics.playlist)
    (ran : showStatics env 1 event
      (statics.log (.handler 1 .staticContent shown)) = .ok after)
    (listed : listedSinceShown after.trace = true) :
    ShowsSelected after := by
  have requested : Sound (((statics.log
      (.handler 1 .staticContent shown)).draw drawWebServer).log
        (.action .fetch)).playlist := sound
  rw [showStatics_one, fetchPlaylist_eq] at ran
  split at ran
  · cases ran
  split at ran
  · cases ran
    cases listed
  · cases ran
    cases listed
  · rw [listSongs_eq _ _ _ requested (by simp)] at ran
    split_ifs at ran
    cases ran
    exact highlighted_select
      (unhighlighted_drawList _ (unhighlighted_drawWebServer _)
        white_ne_blue) _ _

/-- The names that a playlist holds fit their rows. -/
def NamesFitRows (playlist : Playlist) : Prop :=
  ∀ row, Inside playlist row → FitsName (textAt playlist row)

/-- A list that is drawn from an empty screen can be read if its names fit. -/
theorem legible_listed
    {nameAllocated : Nat → Bool} {array : List (Option CString)}
    {statics : Statics} (sound : Sound statics.playlist)
    (savable : Savable nameAllocated 0 (array.take 6))
    (inside : statics.playlist.songlistNum < (array.take 6).length)
    (legible : Legible statics.panel.draws)
    (fits : NamesFitRows (listedPlaylist array statics.playlist)) :
    Legible (listedStatics array statics).panel.draws := by
  have saved := savedSongs_length (statics.playlist.heap.next + 1) savable
  have low := sound.selection
  have insideRow : ∀ row : Int, 0 ≤ row → row < (array.take 6).length →
      Inside (listedPlaylist array statics.playlist) row :=
    fun row first last => ⟨_, rfl, first, by simpa [saved] using last⟩
  have strings : ∀ element ∈ array.take 6, element.isSome = true :=
    strings_of_savable savable
  have selected := insideRow _ low inside
  refine Drew.legible (Drew.mono (listedStatics_drew
    (fun _ text => FitsName text ∧ ∀ byte ∈ text, byte ≠ 0)
    array statics ?_ (selected.row (sound_listed sound savable inside))
    ⟨fits _ selected, textAt_solid _ _⟩)
    fun draw call => call.stands fun _ _ => id) legible
  intro row name element
  have bound := (List.getElem?_eq_some_iff.mp element).1
  have room := fits row (insideRow row (by omega) (by omega))
  rw [textAt_listed statics.playlist strings element] at room
  have short := room.2
  rw [List.length_take] at short
  rw [List.take_of_length_le (by omega)] at room
  exact ⟨room, text_solid name⟩

/-- Showing page 1 draws a list that can be read if its names fit. -/
theorem showPage1_legible
    {env : Env} {event shown : IotbLcdEvent} {statics after : Statics}
    (sound : Sound statics.playlist)
    (ran : showStatics env 1 event
      (statics.log (.handler 1 .staticContent shown)) = .ok after)
    (listed : listedSinceShown after.trace = true)
    (fits : NamesFitRows after.playlist) :
    Legible after.panel.draws := by
  have requested : Sound (((statics.log
      (.handler 1 .staticContent shown)).draw drawWebServer).log
        (.action .fetch)).playlist := sound
  have cleared : Legible (lcdClear white statics.panel).draws := trivial
  have drawn := (drawWebServer_drew (fun _ _ => False)
    statics.panel).mono fun draw call => call.stands fun _ _ => False.elim
  rw [showStatics_one, fetchPlaylist_eq] at ran
  split at ran
  · cases ran
  split at ran
  · cases ran
    cases listed
  · cases ran
    cases listed
  · rw [listSongs_eq _ _ _ requested (by simp)] at ran
    split_ifs at ran with allocated savable inside
    cases ran
    exact legible_listed requested savable inside (drawn.legible cleared)
      fits

/-- A selection move leaves the rows as readable as they were. -/
theorem reselects_legible
    {action : Action} {target : Int} {before after : Statics}
    (sound : Sound before.playlist)
    (reselects : Reselects action target before after)
    (fits : NamesFitRows before.playlist)
    (legible : Legible before.panel.draws) :
    Legible after.panel.draws := by
  obtain ⟨array, pointer, -⟩ := reselects.inside
  refine Drew.legible (Drew.mono (reselects_drew
    (fun _ text => FitsName text ∧ ∀ byte ∈ text, byte ≠ 0)
    sound (inside_of_selected sound pointer) reselects ?_)
    fun draw call => call.stands fun _ _ => id) legible
  exact fun row inside => ⟨fits row inside, textAt_solid _ _⟩

theorem textAt_moved
    (base : Statics) (action : Action) (songlistNum index : Int)
    (panel : Panel) :
    textAt (moved base action songlistNum panel).playlist index =
      textAt base.playlist index :=
  rfl

/-- A selection move keeps the selected song highlighted. -/
theorem Moves.shows
    {action : Action} {before after : Statics}
    (moves : Moves action before after) (shows : ShowsSelected before) :
    ShowsSelected after := by
  have highlight := moves.highlight _ shows
  obtain ⟨songlistNum, panel, rfl⟩ := moves.change
  rw [ShowsSelected, textAt_moved]
  exact highlight

theorem due_page1
    {env : Env} {event : IotbLcdEvent} {statics after : Statics}
    (sound : Sound statics.playlist)
    (ran : dueStatics env 1 event statics = .ok after) :
    after = statics ∨
      ∃ action target, Reselects action target statics after := by
  rw [dueStatics.eq_def] at ran
  split at ran
  · exact Or.inr ⟨_, _, nextsong_ran sound ran⟩
  · exact Or.inr ⟨_, _, lastsong_ran sound ran⟩
  · cases ran
    exact Or.inl rfl
  all_goals contradiction

theorem Moves.listedSinceShown
    {action : Action} {before after : Statics}
    (moves : Moves action before after) :
    listedSinceShown after.trace = listedSinceShown before.trace := by
  obtain ⟨songlistNum, panel, rfl⟩ := moves.change
  rfl

/-! ## Along a run -/

/--
On page 1 a list drawn by the latest entry shows the selected song, and can be
read if its names fit.
-/
structure SelectionInvariant (scene : View) : Prop where
  lists : ListInvariant scene
  shows : scene.pc ≠ .start → scene.page = 1 →
    listedSinceShown scene.statics.trace = true →
    ShowsSelected scene.statics ∧
      (NamesFitRows scene.statics.playlist →
        Legible scene.statics.panel.draws)

theorem selectionInvariant_initial (card : Card) :
    SelectionInvariant (.initial card) where
  lists := listInvariant_initial card
  shows started := absurd rfl started

theorem selectionInvariant_preserved :
    Preserved viewStep SelectionInvariant := by
  intro input scene next selection stepped
  have lists := selection.lists
  refine ⟨listInvariant_preserved input scene next lists stepped, ?_⟩
  cases move_of_step stepped with
  | boot pc shows =>
      intro _ _ listed
      exact ⟨showPage1_shows lists.sound shows listed,
        showPage1_legible lists.sound shows listed⟩
  | @switch event target shown pc branch shows =>
      intro _ page listed
      have one : target = 1 := page
      subst one
      have sound : Sound (scene.left input.env).playlist := by
        rw [left_playlist]
        exact lists.sound
      exact ⟨showPage1_shows sound shows listed,
        showPage1_legible sound shows listed⟩
  | @due done pc due serves =>
      intro _ page listed
      have one : scene.page = 1 := page
      rw [one] at serves
      have before := selection.shows (by simp [pc]) one
      rcases due_page1 (by exact lists.sound) serves with
        same | ⟨action, target, reselects⟩
      · subst same
        exact before listed
      · have moves := reselects.moves
        simp only [Moves.listedSinceShown moves] at listed
        obtain ⟨shows, legible⟩ := before listed
        refine ⟨Moves.shows moves shows, fun fits => ?_⟩
        obtain ⟨songlistNum, panel, rfl⟩ := moves.change
        exact reselects_legible (by exact lists.sound) reselects fits
          (legible fits)
  | poll pc got => exact fun _ => selection.shows (by simp [pc])
  | timeout pc empty => exact fun _ => selection.shows (by simp [pc])
  | leave pc branch => exact fun _ => selection.shows (by simp [pc])
  | ignore pc branch => exact fun _ => selection.shows (by simp [pc])
  | wait pc notDue => exact fun _ => selection.shows (by simp [pc])
  | tick pc =>
      intro _
      have shows := selection.shows (by simp [pc])
      rw [View.tick]
      split <;> exact shows

/-! ## The song that starts -/

/-- Between two states a song is played or downloaded on entering page 2. -/
def Starts (before after : Statics) (name : List UInt8) : Prop :=
  ∃ entries, after.trace = entries ++ before.trace ∧
    ((∃ content, .action (.startPlayback name content) ∈ entries) ∨
      .requested name ∈ entries)

/-- The entries that stand for starting a song. -/
def StartEntry (name : List UInt8) (entry : Observation) : Prop :=
  (∃ content, entry = .action (.startPlayback name content)) ∨
    entry = .requested name

/-- What was logged in between shows whether a song was started. -/
theorem Starts.entry
    {before after : Statics} {name : List UInt8}
    (starts : Starts before after name) (kind : Observation → Prop)
    (logs : Logs kind before after) :
    ∃ entry, kind entry ∧ StartEntry name entry := by
  obtain ⟨entries, equal, member⟩ := starts
  obtain ⟨logged, same, all⟩ := logs
  have entriesEq : entries = logged :=
    List.append_cancel_right (equal.symm.trans same)
  subst entriesEq
  rcases member with ⟨content, member⟩ | member
  · exact ⟨_, all _ member, Or.inl ⟨content, rfl⟩⟩
  · exact ⟨_, all _ member, Or.inr rfl⟩

/-- An entry that starts no song. -/
def Quiet (entry : Observation) : Prop :=
  ∀ name, ¬ StartEntry name entry

theorem quiet_of_plain {entry : Observation} (plain : Plain entry) :
    Quiet entry := by
  rintro name (⟨content, rfl⟩ | rfl)
  · exact plain
  · exact plain

theorem quiet_handler
    (page : Nat) (content : ContentType) (event : IotbLcdEvent) :
    Quiet (.handler page content event) := by
  rintro name (⟨content, equal⟩ | equal) <;> cases equal

theorem Starts.not_quiet
    {before after : Statics} {name : List UInt8}
    (starts : Starts before after name) :
    ¬ Logs Quiet before after := by
  intro logs
  obtain ⟨entry, quiet, start⟩ := starts.entry Quiet logs
  exact quiet name start

/-- A song started after quiet entries was started behind them. -/
theorem Starts.after
    {kind : Observation → Prop} {first second third : Statics}
    {name : List UInt8} (starts : Starts first third name)
    (quiet : Logs Quiet first second) (grown : Logs kind second third) :
    Starts second third name := by
  obtain ⟨entries, equal, member⟩ := starts
  obtain ⟨older, same, silent⟩ := quiet
  obtain ⟨newer, more, -⟩ := grown
  have split : entries = newer ++ older := by
    have whole : entries ++ first.trace =
        (newer ++ older) ++ first.trace := by
      rw [← equal, more, same, List.append_assoc]
    exact List.append_cancel_right whole
  subst split
  refine ⟨newer, more, ?_⟩
  rcases member with ⟨content, member⟩ | member
  · rcases List.mem_append.mp member with new | old
    · exact Or.inl ⟨content, new⟩
    · exact absurd (Or.inl ⟨content, rfl⟩) (silent _ old name)
  · rcases List.mem_append.mp member with new | old
    · exact Or.inr new
    · exact absurd (Or.inr rfl) (silent _ old name)

/-- Entering page 2 starts the song it reads. -/
theorem starts_of_entered
    {env : Env} {before after : Statics} {name : List UInt8}
    (entered : Entered env before after)
    (starts : Starts before after name) :
    songText before.playlist before.playlist.songlistNum = .ok name := by
  have ofRequest : ∀ {download : Download} {read : List UInt8}
      {entry : Observation}, entry ∈ requestEntries download read →
      StartEntry name entry → read = name := by
    intro download read entry member start
    rw [requestEntries] at member
    rcases start with ⟨content, rfl⟩ | rfl <;>
      split at member <;> simp_all
  have ofStart : ∀ {card : Card} {read : List UInt8}
      {entry : Observation}, entry ∈ startEntries card read →
      StartEntry name entry → read = name := by
    intro card read entry member start
    rw [startEntries] at member
    rcases start with ⟨content, rfl⟩ | rfl <;> simp_all
  cases entered with
  | @cached song panel read opens =>
      obtain ⟨entry, member, start⟩ := starts.entry
        (· ∈ startEntries before.card song)
        ⟨_, rfl, fun _ member => member⟩
      rw [← ofStart member start]
      exact read
  | @played song card panel read missing downloaded =>
      obtain ⟨entry, member, start⟩ := starts.entry
        (· ∈ startEntries card song ++ requestEntries env.download song)
        ⟨_, rfl, fun _ member => member⟩
      rcases List.mem_append.mp member with started | requested
      · rw [← ofStart started start]
        exact read
      · rw [← ofRequest requested start]
        exact read
  | @failed song card panel result read missing downloaded failure =>
      obtain ⟨entry, member, start⟩ := starts.entry
        (· ∈ requestEntries env.download song)
        ⟨_, rfl, fun _ member => member⟩
      rw [← ofRequest member start]
      exact read

/--
The state before the step has page 1 showing a list drawn by its latest entry,
with exactly this song's name in the highlighted row.  Every string that was
drawn since the screen was cleared stands on its own line, as it is.
-/
def Sees (lcd : Lcd) (name : List UInt8) : Prop :=
  lcd.menuIndex = 1 ∧
    listedSinceShown lcd.statics.trace = true ∧
    Highlighted lcd.statics.panel lcd.statics.playlist.songlistNum
      (.bytes name) ∧
    Legible lcd.statics.panel.draws

/--
Where a click of KEY0 enters page 2 with a list, that list was drawn by the
latest entry of page 1, and each of its names fits its row.
-/
def EntersFromList (scene : View) : Prop :=
  ∀ event, scene.pc = .dispatch event →
    served event scene.page = .switch 2 →
    scene.statics.playlist.songlist ≠ none →
    listedSinceShown scene.statics.trace = true ∧
      NamesFitRows scene.statics.playlist

/-- Leaving a page and announcing the next one starts no song. -/
theorem left_quiet
    (env : Env) (scene : View) (target : Nat) :
    Logs Quiet scene.statics
      ((scene.left env).log (.handler target .staticContent .enter)) :=
  ((logs_log _ (quiet_handler _ _ _)).trans
    ((exitStatics_logs env _ _).mono fun _ => quiet_of_plain)).trans
      (logs_log _ (quiet_handler _ _ _))

/-- Only entering page 2 from page 1 starts a song, the one that is read. -/
theorem starts_of_step
    {input : Input} (scene next : View) {name : List UInt8}
    (coherent : Coherent scene)
    (stepped : viewStep input scene = .ok next)
    (starts : Starts scene.statics next.statics name) :
    ∃ event, scene.pc = .dispatch event ∧
      served event scene.page = .switch 2 ∧ scene.page = 1 ∧
      songText scene.statics.playlist
        scene.statics.playlist.songlistNum = .ok name := by
  cases move_of_step stepped with
  | boot pc shows =>
      have plain := showStatics_plain (by simp) shows
      exact absurd ((logs_log _ (quiet_handler _ _ _)).trans
        (plain.mono fun _ => quiet_of_plain)) starts.not_quiet
  | @switch event target shown pc branch shows =>
      obtain ⟨range, -, fromOne⟩ := served_switch coherent.range branch
      by_cases music : target = 2
      · subst music
        have entered := enterMusic_entered shows
        have read := starts_of_entered entered
          (starts.after (left_quiet input.env scene 2) entered.logs)
        refine ⟨event, pc, branch, fromOne rfl, ?_⟩
        have same : (scene.left input.env).playlist =
            scene.statics.playlist :=
          left_playlist input.env scene
        rw [← same]
        exact read
      · have plain := showStatics_plain (fun both => music both.1) shows
        exact absurd ((left_quiet _ _ _).trans
          (plain.mono fun _ => quiet_of_plain)) starts.not_quiet
  | due pc due serves =>
      have plain := dueStatics_logs serves
      exact absurd ((logs_log _ (quiet_handler _ _ _)).trans
        (plain.mono fun _ => quiet_of_plain)) starts.not_quiet
  | poll pc got => exact absurd (.of_trace_eq rfl) starts.not_quiet
  | timeout pc empty => exact absurd (.of_trace_eq rfl) starts.not_quiet
  | leave pc branch => exact absurd (.of_trace_eq rfl) starts.not_quiet
  | ignore pc branch => exact absurd (.of_trace_eq rfl) starts.not_quiet
  | wait pc notDue => exact absurd (.of_trace_eq rfl) starts.not_quiet
  | tick pc =>
      refine absurd (.of_trace_eq ?_) starts.not_quiet
      rw [View.tick]
      split <;> rfl

/-! ## Runs of the thread -/

/--
In a run that enters page 2 only from a list drawn by the latest entry of
page 1, whose names fit their rows, every song that starts is the one the user
sees highlighted.
-/
theorem starts_highlighted
    (card : Card) (inputs : List Input)
    (fromList : Throughout step
      (fun _ lcd => EntersFromList (view lcd))
      inputs (.initial card)) :
    Throughout step
      (fun input lcd => ∀ next name, step input lcd = .ok next →
        Starts lcd.statics next.statics name → Sees lcd name)
      inputs (.initial card) := by
  refine Throughout.imp_of_guarded
    (fun lcd => ThreadInvariant lcd ∧ SelectionInvariant (view lcd)) ?_ ?_
    ⟨threadInvariant_initial card, selectionInvariant_initial card⟩
    fromList
  · rintro input lcd next ⟨thread, selection⟩ - stepped
    exact ⟨threadInvariant_preserved input lcd next thread stepped,
      selectionInvariant_preserved input (view lcd) (view next) selection
        (step_simulates.viewed thread stepped)⟩
  · rintro input lcd ⟨thread, selection⟩ fromList next name stepped starts
    obtain ⟨event, pc, branch, page, read⟩ := starts_of_step
      (view lcd) (view next)
      selection.lists.coherent (step_simulates.viewed thread stepped) starts
    obtain ⟨listed, fits⟩ :=
      fromList event pc branch (songlist_of_text read)
    obtain ⟨shows, legible⟩ :=
      selection.shows (by rw [pc]; simp) page listed
    refine ⟨page, listed, ?_, legible fits⟩
    obtain ⟨array, pointer⟩ :=
      Option.ne_none_iff_exists'.mp (songlist_of_text read)
    have text := songText_of_inside selection.lists.sound
      (inside_of_selected selection.lists.sound pointer)
    have same : textAt lcd.statics.playlist
        lcd.statics.playlist.songlistNum = name :=
      Except.ok.inj (text.symm.trans read)
    rw [← same]
    exact shows

/-- A list at start-up, one click of KEY0, and the song starts. -/
def playInputs : List Input :=
  [⟨⟨0#32, .empty⟩, online [some songName]⟩,
    ⟨PostedSet.single ⟨.key0, .keyClick⟩ .musicPlay key0Click_processed,
      offline⟩,
    ⟨⟨0#32, .empty⟩, online []⟩]

theorem starts_highlighted_play :
    Throughout step
      (fun input lcd => ∀ next name, step input lcd = .ok next →
        Starts lcd.statics next.statics name → Sees lcd name)
      playInputs (.initial fun _ => some []) := by
  refine starts_highlighted _ playInputs ⟨?_, ?_⟩
  · intro event pc
    cases pc
  intro listed stepped
  cases stepped
  refine ⟨?_, ?_⟩
  · intro event pc
    cases pc
  intro polled stepped
  cases stepped
  refine ⟨?_, fun _ _ => True.intro⟩
  intro event pc branch songs
  refine ⟨rfl, fun row inside => ?_⟩
  obtain ⟨array, pointer, low, high⟩ := inside
  cases pointer
  have first : row < 1 := high
  obtain rfl : row = 0 := by omega
  exact ⟨by decide, by decide⟩

/--
A list at start-up, the music page, back to page 1 with a failed request, and
a click of KEY0.
-/
def leftoverInputs : List Input :=
  playInputs ++
    [⟨⟨0#32, .empty⟩, offline⟩,
      ⟨⟨0#32, .empty⟩, offline⟩,
      ⟨PostedSet.single ⟨.key2, .keyClick⟩ .key2Click key2Click_processed,
      offline⟩,
      ⟨⟨0#32, .empty⟩, offline⟩,
      ⟨⟨0#32, .empty⟩, offline⟩,
      ⟨⟨0#32, .empty⟩, offline⟩,
      ⟨PostedSet.single ⟨.key0, .keyClick⟩ .musicPlay key0Click_processed,
      offline⟩]

/-- Page 1 shows no list, and the next step plays the song of the first one. -/
theorem leftover_starts :
    (run step leftoverInputs (.initial fun _ => some [])).toOption.map
        (fun lcd => (lcd.menuIndex, listedSinceShown lcd.statics.trace,
          shownAt 8 (rowY 0) lcd.statics.panel.draws)) =
      some (1, false, none) ∧
    (run step (leftoverInputs ++ [⟨⟨0#32, .empty⟩, online []⟩])
        (.initial fun _ => some [])).toOption.map
        (fun next => next.statics.trace.take 2) =
      some [.player (.wavplayerPlay songName.text),
        .action (.startPlayback songName.text (some []))] := by
  constructor <;> decide +kernel

end InternetWavPlayer.Selection
