import InternetWavPlayer.SavedNames

/-!
# The highlighted row

Page 1 moves the highlight by redrawing rows: the one selected before, for a
move around the end of the list also the last one, and then the new one.  What
every row shows is followed from the parse that drew the list through any
sequence of moves and refreshes.
-/

namespace InternetWavPlayer.Highlighting

open InternetWavPlayer.Run
open InternetWavPlayer.LcdEvent
open InternetWavPlayer.Display
open InternetWavPlayer.Songlist
open InternetWavPlayer.Pages
open InternetWavPlayer.Playlists
open InternetWavPlayer.Listing
open InternetWavPlayer.Fetching
open InternetWavPlayer.PlaylistBounds
open InternetWavPlayer.SavedNames

/-! ## What a row shows -/

/-- The cell of a row: its name, in the colours that go with the selection. -/
def rowCell (selected : Int) (row : Int) (name : List UInt8) : Cell :=
  if row = selected then ⟨.bytes name, blue, white⟩
  else ⟨.bytes name, white, black⟩

/-- Redraws of rows, newest first: each name directly over its blank row. -/
inductive RowRedraws : List Draw → Prop where
  | none : RowRedraws []
  | redraw (row : Int) (text : List UInt8) (back fore : Color)
      {older : List Draw} (before : RowRedraws older) :
      RowRedraws
        (.string 8 (rowY row) 24 (.bytes text) back fore ::
          .string 0 (rowY row) 24 blankRow back fore :: older)

/-- Distinct rows of a list stand at distinct heights. -/
theorem rowY_injective
    {first second : Int} (firstRow : 0 ≤ first ∧ first < 6)
    (secondRow : 0 ≤ second ∧ second < 6)
    (same : rowY first = rowY second) : first = second := by
  simp only [rowY, u16] at same
  omega

theorem listRow_draws
    (playlist : Playlist) (back fore : Color) (row : Int)
    (panel : Panel) :
    (listRow playlist back fore row panel).draws =
      .string 8 (rowY row) 24 (.bytes (textAt playlist row)) back fore ::
        .string 0 (rowY row) 24 blankRow back fore :: panel.draws :=
  rfl

/-- What a row shows once some row was redrawn. -/
theorem shownAt_listRow
    (playlist : Playlist) (back fore : Color) (panel : Panel)
    {row other : Int} (rowRange : 0 ≤ row ∧ row < 6)
    (otherRange : 0 ≤ other ∧ other < 6) :
    shownAt 8 (rowY other) (listRow playlist back fore row panel).draws =
      if other = row then
        some ⟨.bytes (textAt playlist other), back, fore⟩
      else shownAt 8 (rowY other) panel.draws := by
  rw [listRow_draws]
  simp only [shownAt, true_and]
  by_cases same : other = row
  · subst same
    rw [if_pos rfl, if_pos rfl]
  · have apart : rowY row ≠ rowY other := by
      intro equal
      exact same (rowY_injective rowRange otherRange equal).symm
    have blank : ¬ ((0 : Nat) = 8 ∧ rowY row = rowY other) :=
      fun both => absurd both.1 (by decide)
    rw [if_neg apart, if_neg same, if_neg blank]

/-- What a row shows once some rows were redrawn in the plain colours. -/
theorem shownAt_unselect
    (playlist : Playlist) (rows : List Int) (panel : Panel)
    (ranges : ∀ row ∈ rows, 0 ≤ row ∧ row < 6)
    {other : Int} (otherRange : 0 ≤ other ∧ other < 6) :
    shownAt 8 (rowY other) (unselect playlist rows panel).draws =
      if other ∈ rows then
        some ⟨.bytes (textAt playlist other), white, black⟩
      else shownAt 8 (rowY other) panel.draws := by
  induction rows generalizing panel with
  | nil => rfl
  | cons row rest induction =>
      rw [List.forall_mem_cons] at ranges
      show shownAt 8 (rowY other) (unselect playlist rest
        (listRow playlist white black row panel)).draws = _
      rw [induction _ ranges.2,
        shownAt_listRow playlist white black panel ranges.1 otherRange]
      by_cases later : other ∈ rest
      · rw [if_pos later, if_pos (List.mem_cons_of_mem _ later)]
      · rw [if_neg later]
        by_cases same : other = row
        · rw [if_pos same, if_pos (by simp [same])]
        · rw [if_neg same, if_neg (by simp [same, later])]

theorem RowRedraws.append
    {newer older : List Draw} (first : RowRedraws newer)
    (second : RowRedraws older) : RowRedraws (newer ++ older) := by
  induction first with
  | none => exact second
  | redraw row text back fore before induction =>
      exact .redraw row text back fore induction

/-- The redraws of plain rows come over what was drawn before. -/
theorem redraws_unselect
    (playlist : Playlist) (rows : List Int) (panel : Panel) :
    ∃ redrawn, RowRedraws redrawn ∧
      (unselect playlist rows panel).draws = redrawn ++ panel.draws := by
  induction rows generalizing panel with
  | nil => exact ⟨[], .none, rfl⟩
  | cons row rest induction =>
      obtain ⟨redrawn, redraws, drawn⟩ :=
        induction (listRow playlist white black row panel)
      refine ⟨_, redraws.append
        (.redraw row (textAt playlist row) white black .none), ?_⟩
      show (unselect playlist rest
        (listRow playlist white black row panel)).draws = _
      rw [drawn, listRow_draws, List.append_assoc]
      rfl

/-! ## Calls of the handler -/

/-- One call of `iotb_lcd_show_httpwebserver`. -/
def call (input : Env × Menu) (statics : Statics) :
    Except Fault Statics :=
  (iotbLcdShowHttpwebserver input.1 input.2 statics).map Prod.snd

/-- A call with dynamic content that asks for no list. -/
def BrowsingCall (input : Env × Menu) : Prop :=
  input.2.contentType = .dynamicContent ∧ input.2.currentEvent ≠ .enter

/-- How many of the calls carry an event. -/
def calls (event : IotbLcdEvent) (inputs : List (Env × Menu)) : Nat :=
  inputs.countP fun input => input.2.currentEvent = event

/-- How far one call moves the selection. -/
def shift (event : IotbLcdEvent) : Int :=
  if event = .nextsong then 1 else if event = .lastsong then -1 else 0

theorem call_browsing
    {input : Env × Menu} (browsing : BrowsingCall input)
    (statics : Statics) :
    call input statics =
      (httpwebserverEvent input.2.currentEvent statics).map Prod.snd := by
  obtain ⟨content, event⟩ := browsing
  rw [call, iotbLcdShowHttpwebserver]
  simp [content, event]

/-- The statics hold a list of some length, with a song of it selected. -/
structure Listed (count : Nat) (statics : Statics) : Prop where
  sound : Sound statics.playlist
  array : ∃ array, statics.playlist.songlist = some array ∧
    array.entries.length = count
  count : statics.playlist.itemNum = count

/-- The selected row is a row of the list. -/
theorem Listed.selected
    {count : Nat} {statics : Statics} (listed : Listed count statics) :
    0 ≤ statics.playlist.songlistNum ∧
      statics.playlist.songlistNum < count := by
  obtain ⟨array, pointer, length⟩ := listed.array
  have inside := (listed.sound.saved array pointer).inside
  exact ⟨listed.sound.selection, by omega⟩

theorem Listed.inside_iff
    {count : Nat} {statics : Statics} (listed : Listed count statics)
    (row : Int) :
    Inside statics.playlist row ↔ 0 ≤ row ∧ row < count := by
  obtain ⟨array, pointer, length⟩ := listed.array
  constructor
  · rintro ⟨other, found, low, high⟩
    rw [pointer] at found
    cases found
    exact ⟨low, by omega⟩
  · exact fun ⟨low, high⟩ => ⟨array, pointer, low, by omega⟩

theorem Listed.reselects
    {count : Nat} {statics after : Statics}
    (listed : Listed count statics) {action : Action} {target : Int}
    (reselects : Reselects action target statics after) :
    Listed count after ∧
      after.playlist.songlist = statics.playlist.songlist ∧
      after.playlist.songlistNum = target := by
  have sound := Moves.sound reselects.moves listed.sound
  obtain ⟨inside, others, insides, rfl⟩ := reselects
  exact ⟨⟨sound, listed.array, listed.count⟩, rfl, rfl⟩

/-- A call moves the selection around the list, or it draws nothing. -/
theorem call_listed
    {count : Nat} {statics : Statics} (listed : Listed count statics)
    {input : Env × Menu} (browsing : BrowsingCall input) :
    ∃ after, call input statics = .ok after ∧
      after.playlist.songlistNum =
        (statics.playlist.songlistNum + shift input.2.currentEvent) %
          count ∧
      ((∃ action target, Reselects action target statics after) ∨
        after.playlist = statics.playlist ∧
          after.panel = statics.panel) := by
  obtain ⟨low, high⟩ := listed.selected
  obtain ⟨array, pointer, -⟩ := listed.array
  have some : 1 ≤ statics.playlist.itemNum := by
    rw [listed.count]
    omega
  rw [call_browsing browsing]
  by_cases next : input.2.currentEvent = .nextsong
  · obtain ⟨after, ran, reselects⟩ :=
      nextsong_reselects listed.sound pointer some
    refine ⟨after, ?_, ?_, .inl ⟨_, _, reselects⟩⟩
    · rw [next, httpwebserverEvent, ran]
      rfl
    · rw [(listed.reselects reselects).2.2, next, nextRow, listed.count]
      show _ = (statics.playlist.songlistNum + 1) % (count : Int)
      by_cases wraps : statics.playlist.songlistNum + 1 > (count : Int) - 1
      · have around : statics.playlist.songlistNum + 1 = count := by
          omega
        rw [if_pos wraps, around, Int.emod_self]
      · rw [if_neg wraps, Int.emod_eq_of_lt (by omega) (by omega)]
  · by_cases last : input.2.currentEvent = .lastsong
    · obtain ⟨after, ran, reselects⟩ :=
        lastsong_reselects listed.sound pointer (Or.inr some)
      refine ⟨after, ?_, ?_, .inl ⟨_, _, reselects⟩⟩
      · rw [last, httpwebserverEvent, ran]
        rfl
      · rw [(listed.reselects reselects).2.2, last, lastRow, listed.count]
        show _ = (statics.playlist.songlistNum + -1) % (count : Int)
        by_cases wraps : statics.playlist.songlistNum - 1 < 0
        · have first : statics.playlist.songlistNum = 0 := by omega
          rw [if_pos wraps, first, Int.zero_add,
            ← Int.add_emod_right, Int.emod_eq_of_lt (by omega) (by omega)]
          omega
        · rw [if_neg wraps, Int.emod_eq_of_lt (by omega) (by omega)]
          omega
    · have still : shift input.2.currentEvent = 0 := by
        rw [shift, if_neg next, if_neg last]
      rw [still, Int.add_zero, Int.emod_eq_of_lt low high]
      cases event : input.2.currentEvent with
      | nextsong => exact absurd event next
      | lastsong => exact absurd event last
      | exit => exact ⟨_, rfl, rfl, .inr ⟨rfl, rfl⟩⟩
      | _ => exact ⟨statics, rfl, rfl, .inr ⟨rfl, rfl⟩⟩

/-- The calls of a sequence move the selection by what they add up to. -/
theorem calls_move
    {count : Nat} {invariant : Statics → Prop}
    (listed : ∀ statics, invariant statics → Listed count statics)
    (preserved : ∀ input statics after, BrowsingCall input →
      invariant statics → call input statics = .ok after →
      invariant after)
    {statics : Statics} (initial : invariant statics)
    (inputs : List (Env × Menu))
    (browsing : ∀ input ∈ inputs, BrowsingCall input) :
    ∃ after, run call inputs statics = .ok after ∧ invariant after ∧
      after.playlist.songlistNum =
        (statics.playlist.songlistNum + calls .nextsong inputs -
          calls .lastsong inputs) % count := by
  induction inputs generalizing statics with
  | nil =>
      obtain ⟨low, high⟩ := (listed statics initial).selected
      refine ⟨statics, rfl, initial, ?_⟩
      simp only [calls, List.countP_nil, Nat.cast_zero, add_zero, sub_zero]
      exact (Int.emod_eq_of_lt low high).symm
  | cons input rest induction =>
      rw [List.forall_mem_cons] at browsing
      obtain ⟨next, called, moved, -⟩ :=
        call_listed (listed statics initial) browsing.1
      obtain ⟨after, ran, final, selected⟩ := induction
        (preserved input statics next browsing.1 initial called) browsing.2
      refine ⟨after, (run_cons_eq_ok_iff input rest statics after).mpr
        ⟨next, called, ran⟩, final, ?_⟩
      have sum : statics.playlist.songlistNum +
            calls .nextsong (input :: rest) -
            calls .lastsong (input :: rest) =
          statics.playlist.songlistNum + shift input.2.currentEvent +
            (calls .nextsong rest - calls .lastsong rest) := by
        simp only [calls, List.countP_cons, shift]
        cases input.2.currentEvent <;> simp <;> ring
      rw [selected, moved, sum, add_sub_assoc, Int.emod_add_emod]

/-! ## A shown list -/

/--
The panel shows the names of the list, the selected one highlighted, with only
row redraws over what was drawn first.
-/
structure Showing (names : List CString) (drawn : List Draw)
    (statics : Statics) : Prop where
  listed : Listed names.length statics
  texts : ∀ (row : Nat) name, names[row]? = some name →
    textAt statics.playlist row = name.text
  rows : ∀ (row : Nat) name, names[row]? = some name →
    shownAt 8 (rowY row) statics.panel.draws =
      some (rowCell statics.playlist.songlistNum row name.text)
  redrawn : ∃ redrawn, RowRedraws redrawn ∧
    statics.panel.draws = redrawn ++ drawn

section Showing

variable {names : List CString} {drawn : List Draw}
  {statics after : Statics}

/-- A move highlights its target and nothing else. -/
theorem Showing.reselects
    (showing : Showing names drawn statics)
    {action : Action} {target : Int}
    (reselects : Reselects action target statics after) :
    Showing names drawn after := by
  obtain ⟨listed, -, -⟩ := showing.listed.reselects reselects
  have sound := showing.listed.sound
  obtain ⟨inside, others, insides, rfl⟩ := reselects
  have selected : Inside statics.playlist statics.playlist.songlistNum :=
    (showing.listed.inside_iff _).mpr showing.listed.selected
  have ranges : ∀ row ∈ statics.playlist.songlistNum :: others,
      0 ≤ row ∧ row < 6 := by
    rw [List.forall_mem_cons]
    exact ⟨selected.row sound,
      fun row member => (insides row member).row sound⟩
  refine ⟨listed, showing.texts, ?_, ?_⟩
  · intro row name found
    have bound := (List.getElem?_eq_some_iff.mp found).1
    have range : 0 ≤ (row : Int) ∧ (row : Int) < 6 :=
      Inside.row sound ((showing.listed.inside_iff row).mpr
        ⟨by omega, by omega⟩)
    show shownAt 8 (rowY row) (listRow statics.playlist blue white target
      (unselect statics.playlist (statics.playlist.songlistNum :: others)
        statics.panel)).draws = some (rowCell target row name.text)
    rw [shownAt_listRow _ _ _ _ (inside.row sound) range,
      shownAt_unselect _ _ _ ranges range, showing.texts row name found,
      rowCell]
    by_cases here : (row : Int) = target
    · rw [if_pos here, if_pos here]
    · rw [if_neg here, if_neg here]
      by_cases plain :
          (row : Int) ∈ statics.playlist.songlistNum :: others
      · rw [if_pos plain]
      · rw [if_neg plain, showing.rows row name found, rowCell, if_neg]
        rintro same
        exact plain (by simp [same])
  · obtain ⟨redrawn, redraws, drew⟩ := showing.redrawn
    obtain ⟨unselected, plain, under⟩ := redraws_unselect
      statics.playlist (statics.playlist.songlistNum :: others)
      statics.panel
    refine ⟨_, (RowRedraws.redraw target
      (textAt statics.playlist target) blue white plain).append redraws,
      ?_⟩
    show (listRow statics.playlist blue white target (unselect
      statics.playlist _ statics.panel)).draws = _
    rw [listRow_draws, under, drew, List.append_assoc]
    rfl

/-- The calls that browse the list keep it on the panel. -/
theorem Showing.call
    (showing : Showing names drawn statics) {input : Env × Menu}
    (browsing : BrowsingCall input)
    (ran : Highlighting.call input statics = .ok after) :
    Showing names drawn after := by
  obtain ⟨result, called, -, moved⟩ :=
    call_listed showing.listed browsing
  cases ran.symm.trans called
  rcases moved with ⟨action, target, reselects⟩ | ⟨playlist, panel⟩
  · exact showing.reselects reselects
  · refine ⟨⟨?_, ?_, ?_⟩, ?_, ?_, ?_⟩
    · rw [playlist]
      exact showing.listed.sound
    · rw [playlist]
      exact showing.listed.array
    · rw [playlist]
      exact showing.listed.count
    · rw [playlist]
      exact showing.texts
    · rw [playlist, panel]
      exact showing.rows
    · rw [panel]
      exact showing.redrawn

end Showing

/-! ## The list that a parse shows -/

/-- A saved name of at most 29 characters is read back whole. -/
theorem textAt_listed
    {array : List (Option CString)} {names : List CString}
    (listed : array.take 6 = names.map some) (playlist : Playlist)
    {row : Nat} {name : CString} (found : names[row]? = some name)
    (fits : name.length ≤ 29) :
    textAt (listedPlaylist array playlist) row = name.text := by
  have strings : ∀ element ∈ array.take 6, element.isSome = true := by
    rw [listed]
    simp
  have element : (array.take 6)[row]? = some (some name) := by
    rw [listed, List.getElem?_map, found]
    rfl
  rw [DrawnLists.textAt_listed playlist strings element]
  exact List.take_of_length_le (by rw [text_length]; omega)

/-- The menu of page 1 with dynamic content. -/
def browsingMenu (event : IotbLcdEvent) : Menu where
  menu := 1
  refreshTime := 50
  contentType := .dynamicContent
  currentEvent := event
  lcdHandle := some .showHttpwebserver

end InternetWavPlayer.Highlighting
