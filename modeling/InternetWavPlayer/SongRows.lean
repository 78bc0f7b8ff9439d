import InternetWavPlayer.DrawnPages
import InternetWavPlayer.Highlighting
import InternetWavPlayer.TextRows

/-!
# Song names in their lines

A list is parsed on whatever statics the thread has reached; moves redraw its
rows, and entering page 2 draws the selected name as the title.  Every name
that is drawn on the way stays in its own line exactly when the names of the
list fit, and the selection is one of them.
-/

namespace InternetWavPlayer.SongRows

open InternetWavPlayer.Run
open InternetWavPlayer.LcdEvent
open InternetWavPlayer.Display
open InternetWavPlayer.Songlist
open InternetWavPlayer.Webclient
open InternetWavPlayer.Pages
open InternetWavPlayer.Playlists
open InternetWavPlayer.Listing
open InternetWavPlayer.Fetching
open InternetWavPlayer.PlaylistBounds
open InternetWavPlayer.Screen
open InternetWavPlayer.DrawnLists
open InternetWavPlayer.DrawnPages (IsTitle)
open InternetWavPlayer.SavedNames
open InternetWavPlayer.Highlighting
open InternetWavPlayer.DrvLcd (idleLcd)
open InternetWavPlayer.Vsnprintf (ascii)
open InternetWavPlayer.PlainFormats (Verbatim)
open InternetWavPlayer.TextRows

/-! ## The calls that draw a name -/

/-- The name of a row of a list. -/
def Named (array : List (Option CString)) (row : Int) (name : CString) :
    Prop :=
  0 ≤ row ∧ (array.take 6)[row.toNat]? = some (some name)

/--
A call of page 1 that draws a name draws it in its own row, as it stands in
the document or as it was saved, and stays there.
-/
def RowCall (array : List (Option CString)) : Draw → Prop
  | .string x y size (.bytes text) _ _ =>
      size = 24 ∧ ∃ row : Int, y = 52 + 31 * row ∧
        ∃ name, Named array row name ∧
          (text = name.text ∧ StaysAt x y text ∨
            text = name.text.take 30 ∧
              ∀ behind, StaysAt x y (storedText name behind))
  | _ => True

/--
A call of page 2 that draws a name draws the selected one, as it was saved, in
the middle of the line of the title, and stays there.
-/
def TitleCall (array : List (Option CString)) (selected : Int) :
    Draw → Prop
  | .string x y size (.bytes text) _ _ =>
      size = 24 ∧ y = 179 ∧
        ∃ name, Named array selected name ∧ text = name.text.take 30 ∧
          ∀ behind,
            (x : Int) = (240 - 12 * (storedText name behind).length) / 2 ∧
              StaysAt x y (storedText name behind)
  | _ => True

/-- What page 1 draws in a row: its name, as it is or as it was saved. -/
def IsName (array : List (Option CString)) (row : Int)
    (text : List UInt8) : Prop :=
  ∃ name, Named array row name ∧
    (text = name.text ∨ text = name.text.take 30)

/-- Every listed element is a name that fits. -/
def Fitting (array : List (Option CString)) : Prop :=
  ∀ element ∈ array.take 6, ∃ name : CString,
    element = some name ∧ FitsRow name

theorem Fitting.named
    {array : List (Option CString)} (fitting : Fitting array) {row : Int}
    {name : CString} (named : Named array row name) : FitsRow name := by
  obtain ⟨other, same, fits⟩ := fitting _ (List.mem_of_getElem? named.2)
  cases same
  exact fits

theorem rowY_eq {row : Int} (listed : 0 ≤ row ∧ row < 6) :
    (rowY row : Int) = 52 + 31 * row := by
  simp only [rowY, u16]
  omega

/-- Calls of page 1 keep fitting names in their rows. -/
theorem rowCall_of_listCall
    {array : List (Option CString)} (fitting : Fitting array) {draw : Draw}
    (call : ListCall (IsName array) draw) : RowCall array draw := by
  cases call with
  | @name row text listed named back fore =>
      obtain ⟨name, named, texts⟩ := named
      have fits := fitting.named named
      have place := rowY_eq listed
      have stays : StaysAt 8 (rowY row) name.text := fits.row (by omega)
      refine ⟨rfl, _, place, name, named, ?_⟩
      rcases texts with rfl | rfl
      · exact .inl ⟨rfl, stays⟩
      · refine .inr ⟨rfl, fun behind => ?_⟩
        rw [storedText_short (lt_of_le_of_lt fits.2.1 (by decide))]
        exact stays
  | _ => trivial

theorem titleCall_of_textCall
    {array : List (Option CString)} (fitting : Fitting array)
    {selected : Int} {name : CString} (named : Named array selected name)
    {draw : Draw} (call : TextCall (IsTitle (name.text.take 30)) draw) :
    TitleCall array selected draw := by
  have fits := fitting.named named
  have short : name.length < 30 := lt_of_le_of_lt fits.2.1 (by decide)
  have whole : name.text.take 30 = name.text :=
    List.take_of_length_le (by rw [text_length]; omega)
  cases call with
  | plain own =>
      cases draw with
      | string x y size text back fore =>
          obtain ⟨-, ⟨literal, rfl⟩, -⟩ := own
          trivial
      | _ => trivial
  | text outside back fore =>
      obtain ⟨rfl, rfl, rfl⟩ := outside
      refine ⟨rfl, rfl, name, named, rfl, fun behind => ?_⟩
      rw [storedText_short short, whole, text_length]
      exact fits.title

/-! ## A list that is browsed -/

/--
The statics hold the names of a list as it was saved, and only page 1 drew
since its panel was as before.
-/
structure Browsed (array : List (Option CString)) (panel : Panel)
    (statics : Statics) : Prop where
  listed : Listed (array.take 6).length statics
  saved : ∀ row name, Named array row name →
    textAt statics.playlist row = name.text.take 30
  drew : Drew (ListCall (IsName array)) panel statics.panel

/-- Every row of the list has a name. -/
def Strings (array : List (Option CString)) : Prop :=
  ∀ element ∈ array.take 6, element.isSome = true

theorem Strings.named
    {array : List (Option CString)} (strings : Strings array) {row : Int}
    (low : 0 ≤ row) (high : row < (array.take 6).length) :
    ∃ name, Named array row name := by
  have inside : row.toNat < (array.take 6).length := by omega
  obtain ⟨name, is⟩ := Option.isSome_iff_exists.mp
    (strings _ (List.getElem_mem inside))
  exact ⟨name, low, by rw [List.getElem?_eq_getElem inside, is]⟩

section Browsing

variable {array : List (Option CString)} {panel : Panel}
  {statics after : Statics}

theorem Browsed.inside
    (browsed : Browsed array panel statics) {row : Int}
    (inside : Inside statics.playlist row) :
    0 ≤ row ∧ row < (array.take 6).length :=
  (browsed.listed.inside_iff row).mp inside

theorem Browsed.isName
    (browsed : Browsed array panel statics) (strings : Strings array)
    {row : Int} (inside : Inside statics.playlist row) :
    IsName array row (textAt statics.playlist row) := by
  obtain ⟨low, high⟩ := browsed.inside inside
  obtain ⟨name, named⟩ := strings.named low high
  exact ⟨name, named, .inr (browsed.saved row name named)⟩

/-- A call that browses the list draws names of it. -/
theorem Browsed.call
    (browsed : Browsed array panel statics) (strings : Strings array)
    {input : Env × Menu} (browsing : BrowsingCall input)
    (ran : Highlighting.call input statics = .ok after) :
    Browsed array panel after := by
  obtain ⟨result, called, -, moved⟩ := call_listed browsed.listed browsing
  cases ran.symm.trans called
  rcases moved with ⟨action, target, reselects⟩ | ⟨playlist, same⟩
  · have drew := reselects_drew (IsName array) browsed.listed.sound
      ((browsed.listed.inside_iff _).mpr browsed.listed.selected) reselects
      fun row inside => browsed.isName strings inside
    obtain ⟨listed, -, -⟩ := browsed.listed.reselects reselects
    refine ⟨listed, ?_, browsed.drew.trans drew⟩
    obtain ⟨inside, others, insides, rfl⟩ := reselects
    exact browsed.saved
  · refine ⟨⟨?_, ?_, ?_⟩, ?_, ?_⟩
    · rw [playlist]
      exact browsed.listed.sound
    · rw [playlist]
      exact browsed.listed.array
    · rw [playlist]
      exact browsed.listed.count
    · rw [playlist]
      exact browsed.saved
    · rw [same]
      exact browsed.drew

/-- The selected name is read as it was saved. -/
theorem Browsed.selected
    (browsed : Browsed array panel statics) (strings : Strings array) :
    ∃ name, Named array statics.playlist.songlistNum name ∧
      songText statics.playlist statics.playlist.songlistNum =
        .ok (name.text.take 30) := by
  obtain ⟨low, high⟩ := browsed.listed.selected
  obtain ⟨name, named⟩ := strings.named low high
  refine ⟨name, named, ?_⟩
  rw [songText_of_inside browsed.listed.sound
    ((browsed.listed.inside_iff _).mpr ⟨low, high⟩),
    browsed.saved _ _ named]

end Browsing

section Parsing

variable {fetch : Fetch} {data : List UInt8} {statics : Statics}

/-- A parse leaves the list that it drew. -/
theorem browsed_listed
    {array : List (Option CString)} (sound : Sound statics.playlist)
    (strings : Strings array)
    (inside : statics.playlist.songlistNum < (array.take 6).length) :
    Browsed array statics.panel (listedStatics array statics) := by
  have savable : Savable (fun _ => true) 0 (array.take 6) :=
    (savable_iff (fun _ => rfl) 0 _).mpr strings
  have saved : ∀ row name, Named array row name →
      textAt (listedPlaylist array statics.playlist) row =
        name.text.take 30 := by
    rintro row name ⟨low, found⟩
    obtain ⟨place, rfl⟩ := Int.eq_ofNat_of_zero_le low
    exact textAt_listed statics.playlist strings found
  have low := sound.selection
  have short : (array.take 6).length ≤ 6 := List.length_take_le ..
  obtain ⟨selected, named⟩ := strings.named low inside
  refine ⟨⟨sound_listed sound savable inside, ⟨_, rfl, ?_⟩,
    cutItemNum_eq array⟩, saved, ?_⟩
  · rw [List.length_map, savedSongs_length _ savable]
  · refine listedStatics_drew (IsName array) array statics ?_
      ⟨low, by omega⟩ ⟨selected, named, .inr (saved _ _ named)⟩
    intro row name found
    exact ⟨name, ⟨Int.natCast_nonneg row, found⟩, .inl rfl⟩

end Parsing

/-! ## Entering page 2 -/

/-- Entering page 2 draws the selected name as the title, if it draws one. -/
theorem enter_drew
    {env : Env} {menu : Menu} (entering : menu.currentEvent = .enter)
    {statics entered : Statics} {event : IotbLcdEvent}
    (ran : iotbLcdShowMusic env menu statics = .ok (event, entered)) :
    ∃ name, songText statics.playlist statics.playlist.songlistNum =
        .ok name ∧
      Drew (TextCall (IsTitle name)) statics.panel entered.panel := by
  rw [iotbLcdShowMusic, entering] at ran
  simp only [bind_eq_ok_iff] at ran
  obtain ⟨after, ran, same⟩ := ran
  cases same
  obtain ⟨name, read, drew⟩ := DrawnPages.enterMusic_drew ran
  split at read
  · rw [if_pos ‹_›] at drew
    exact ⟨name, read, ((DrawnPages.drawWavPlayer_drew _ _).mono
      fun _ => .plain).trans drew⟩
  · rw [if_neg ‹_›] at drew
    exact ⟨name, read, drew⟩

/-- The song can be downloaded, whatever is on the card. -/
structure Downloadable (env : Env) : Prop where
  url : env.downloadUrlAllocated = true
  arrives : ∀ name card, ∃ later,
    webclientGetFile env.download name card = .ok (0, later)

/-- The call that draws a title. -/
def TitleMade (name : List UInt8) (before after : Panel) : Prop :=
  ∃ back fore, Made (.string (u16 (titleX name.length)) 179 24
    (.bytes name) back fore) before after

theorem drawTitle_made
    (name : List UInt8) {before panel : Panel}
    (drew : Drew (fun _ => True) before panel) :
    TitleMade name before (drawTitle name panel) := by
  have made : Made (.string (u16 (titleX name.length)) 179 24
      (.bytes name) panel.backColor panel.foreColor) panel
        (drawTitle name panel) :=
    Made.add _ panel
  exact ⟨_, _, made.before drew⟩

theorem downloadSong_made
    {env : Env} (downloadable : Downloadable env) {statics : Statics}
    {before : Panel} (drew : Drew (fun _ => True) before statics.panel)
    (name : List UInt8) :
    ∃ entered, downloadSong env name statics = .ok entered ∧
      TitleMade name before entered.panel := by
  obtain ⟨later, got⟩ := downloadable.arrives name statics.card
  have downloaded : webclientGetFile env.download name
      (statics.draw fun panel => lcdShowString 60 179 24
        (.literal "Caching...") (lcdSetColor white black panel)).card =
      .ok (0, later) := got
  rw [downloadSong, if_neg (by rw [downloadable.url]; decide), downloaded]
  refine ⟨_, rfl, drawTitle_made name ?_⟩
  have caching : Drew (fun _ => True) before (lcdShowString 60 179 24
      (.literal "Caching...") (lcdSetColor white black statics.panel)) :=
    (drew.trans (.of_draws_eq rfl)).add _ trivial
  refine (caching.trans (.of_draws_eq ?_)).add _ trivial
  rw [logRequest]
  split <;> rfl

/-- If the song can be downloaded its title is drawn. -/
theorem enterMusic_made
    {env : Env} (downloadable : Downloadable env) {statics : Statics}
    {name : List UInt8}
    (read : songText statics.playlist statics.playlist.songlistNum =
      .ok name) :
    ∃ entered, enterMusic env statics = .ok entered ∧
      TitleMade name statics.panel entered.panel := by
  have album : Drew (fun _ => True) statics.panel
      (drawAlbum name (lcdSetColor white black statics.panel)) :=
    ((Drew.of_draws_eq rfl).trans (DrawnPages.drawAlbum_drew name _)).mono
      fun _ _ => trivial
  rw [enterMusic, read]
  simp only [bind, Except.bind]
  split
  · exact ⟨_, rfl, drawTitle_made name (album.trans (.of_draws_eq rfl))⟩
  · exact downloadSong_made downloadable album name

theorem enter_made
    {env : Env} (downloadable : Downloadable env) {statics : Statics}
    {name : List UInt8}
    (read : songText statics.playlist statics.playlist.songlistNum =
      .ok name) :
    ∃ entered,
      iotbLcdShowMusic env ⟨2, 0, .dynamicContent, .enter, none⟩ statics =
        .ok (.none, entered) ∧
      TitleMade name statics.panel entered.panel := by
  obtain ⟨entered, ran, made⟩ := enterMusic_made downloadable read
  refine ⟨entered, ?_, made⟩
  show (enterMusic env statics >>= fun entered =>
    pure (IotbLcdEvent.none, entered)) = _
  rw [ran]
  rfl

/-! ## The law for all lists -/

/-- The elements that a document lists. -/
def listing (fetch : Fetch) (data : List UInt8) : List (Option CString) :=
  (elements fetch data).getD []

/--
The parse returns, and the names that it draws stay in their rows.  If it
lists names, then any moves from there return, the names that they redraw stay
in their rows, and the title that entering page 2 draws stays in its line.
-/
def NamesStay (fetch : Fetch) (data : List UInt8) (statics : Statics) :
    Prop :=
  ∃ start, webserverDataParse fetch data statics = .ok start ∧
    Drew (RowCall (listing fetch data)) statics.panel start.panel ∧
    (listing fetch data ≠ [] →
      ∀ inputs : List (Env × Menu),
        (∀ input ∈ inputs, BrowsingCall input) →
        ∃ after, run call inputs start = .ok after ∧
          Drew (RowCall (listing fetch data)) statics.panel
            after.panel ∧
          ∀ env menu event entered, menu.currentEvent = .enter →
            iotbLcdShowMusic env menu after = .ok (event, entered) →
            Drew (TitleCall (listing fetch data)
              after.playlist.songlistNum) after.panel entered.panel)

/-- Each listed element is a name that fits, and the selection is one. -/
def ListFits (fetch : Fetch) (data : List UInt8) (statics : Statics) :
    Prop :=
  listing fetch data ≠ [] →
    statics.playlist.songlistNum <
        ((listing fetch data).take 6).length ∧
      Fitting (listing fetch data)

section Law

variable {fetch : Fetch} {data : List UInt8} {statics : Statics}

theorem elements_of_listing (nonempty : listing fetch data ≠ []) :
    elements fetch data = some (listing fetch data) := by
  rw [listing] at nonempty ⊢
  cases document : elements fetch data with
  | none =>
      rw [document] at nonempty
      exact absurd rfl nonempty
  | some array => rfl

/-- Without a list no name is drawn. -/
theorem parse_unlisted
    (statics : Statics) (empty : listing fetch data = []) :
    ∃ start, webserverDataParse fetch data statics = .ok start ∧
      Drew (ListCall (IsName [])) statics.panel start.panel := by
  rw [listing] at empty
  cases document : elements fetch data with
  | none => exact ⟨statics, parse_absent_eq statics document, .of_draws_eq rfl⟩
  | some array =>
      rw [document] at empty
      cases array with
      | cons element rest => cases empty
      | nil => exact ⟨_, parse_empty_eq statics document,
          drawNoData_drew _ statics.panel⟩

/-- What the call returns for a document that lists elements. -/
theorem parse_listing_eq
    (nonempty : listing fetch data ≠ []) (sound : Sound statics.playlist)
    (allocates : Allocates fetch) :
    webserverDataParse fetch data statics =
      if Savable fetch.nameAllocated 0 ((listing fetch data).take 6) then
        if statics.playlist.songlistNum <
            ((listing fetch data).take 6).length then
          .ok (listedStatics (listing fetch data) statics)
        else
          .error (.songlistAccess
            (some ((listing fetch data).take 6).length)
            statics.playlist.songlistNum)
      else .error .nullPointer := by
  have document := elements_of_listing nonempty
  generalize listing fetch data = array at document nonempty ⊢
  cases array with
  | nil => exact absurd rfl nonempty
  | cons name rest => exact parse_list_eq document sound allocates

theorem Fitting.strings
    {array : List (Option CString)} (fitting : Fitting array) :
    Strings array := by
  intro element member
  obtain ⟨name, rfl, -⟩ := fitting element member
  rfl

theorem namesStay_of_fits
    (sound : Sound statics.playlist) (allocates : Allocates fetch)
    (fits : ListFits fetch data statics) : NamesStay fetch data statics := by
  by_cases nonempty : listing fetch data = []
  · obtain ⟨start, parsed, drew⟩ := parse_unlisted statics nonempty
    refine ⟨start, parsed, ?_, fun listed => absurd nonempty listed⟩
    rw [nonempty]
    exact drew.mono fun draw => rowCall_of_listCall
      fun _ member => absurd member List.not_mem_nil
  · obtain ⟨inside, fitting⟩ := fits nonempty
    have strings := fitting.strings
    have browsed := browsed_listed sound strings inside
    have parsed := parse_listing_eq nonempty sound allocates
    rw [if_pos ((savable_iff allocates.names 0 _).mpr strings),
      if_pos inside] at parsed
    refine ⟨_, parsed,
      browsed.drew.mono fun draw => rowCall_of_listCall fitting,
      fun _ inputs browsing => ?_⟩
    obtain ⟨after, ran, final, -⟩ := calls_move
      (fun _ browsed => browsed.listed)
      (fun _ _ _ browsing browsed => browsed.call strings browsing)
      browsed inputs browsing
    refine ⟨after, ran,
      final.drew.mono fun draw => rowCall_of_listCall fitting, ?_⟩
    intro env menu event entered entering entry
    obtain ⟨name, named, read⟩ := final.selected strings
    obtain ⟨other, same, drew⟩ := enter_drew entering entry
    cases read.symm.trans same
    exact drew.mono fun draw => titleCall_of_textCall fitting named

/-- A song server that answers every request for a song. -/
def answering : Env :=
  { offline with
    downloadUrlAllocated := true
    download :=
      { offline.download with
        sessionCreated := true
        get := ⟨200, false⟩
        fileOpened := true
        bufferAllocated := true } }

theorem answering_downloadable : Downloadable answering where
  url := rfl
  arrives := fun _ _ => ⟨_, rfl⟩

/-- Moves to the next song reach every row of a list. -/
theorem moves_reach
    {array : List (Option CString)} (strings : Strings array)
    {panel : Panel} {start : Statics} (browsed : Browsed array panel start)
    {row : Nat} (inside : row < (array.take 6).length) :
    ∃ inputs after, (∀ input ∈ inputs, BrowsingCall input) ∧
      run call inputs start = .ok after ∧ Browsed array panel after ∧
      after.playlist.songlistNum = row := by
  obtain ⟨low, high⟩ := browsed.listed.selected
  obtain ⟨selected, equal⟩ := Int.eq_ofNat_of_zero_le low
  have next : ∀ input ∈ List.replicate
      (row + ((array.take 6).length - selected))
        (offline, browsingMenu .nextsong), BrowsingCall input := by
    intro input member
    rw [List.eq_of_mem_replicate member]
    exact ⟨rfl, by decide⟩
  obtain ⟨after, ran, final, moved⟩ := calls_move
    (fun _ browsed => browsed.listed)
    (fun _ _ _ browsing browsed => browsed.call strings browsing)
    browsed _ next
  refine ⟨_, after, next, ran, final, ?_⟩
  rw [moved, calls, calls, List.countP_replicate, List.countP_replicate,
    equal, if_pos (by decide), if_neg (by decide)]
  have around : (selected : Int) +
      (row + ((array.take 6).length - selected) : Nat) - (0 : Nat) =
      row + (array.take 6).length := by
    omega
  rw [around, Int.add_emod_right, Int.emod_eq_of_lt (by omega) (by omega)]

/-- The row in which a parse draws a name, and the title of the name. -/
theorem fitsRow_of_calls
    {array : List (Option CString)} {row : Nat} {name : CString}
    (listed : row < 6) (named : Named array row name)
    {back fore titleBack titleFore : Color}
    (drawn : RowCall array
      (.string 8 (rowY row) 24 (.bytes name.text) back fore))
    (titled : TitleCall array row
      (.string (u16 (titleX (name.text.take 30).length)) 179 24
        (.bytes (name.text.take 30)) titleBack titleFore)) :
    FitsRow name := by
  have place : (rowY row : Int) = 52 + 31 * row := rowY_eq (by omega)
  have stays : StaysAt 8 (rowY row) name.text := by
    obtain ⟨-, other, -, song, -, own | saved⟩ := drawn
    · exact own.2
    · have stays := saved.2 []
      rwa [storedText_nil, ← saved.1] at stays
  obtain ⟨-, -, song, songNamed, -, centred⟩ := titled
  have same : song = name := by
    have found := songNamed.2.symm.trans named.2
    exact Option.some_inj.mp (Option.some_inj.mp found)
  subst same
  have middle := (centred []).1
  rw [storedText_nil, List.length_take, text_length] at middle
  exact fitsRow_of_staysAt stays (by omega) (by omega) (by omega)

theorem fits_of_namesStay
    (sound : Sound statics.playlist) (allocates : Allocates fetch)
    (stay : NamesStay fetch data statics) : ListFits fetch data statics := by
  intro nonempty
  obtain ⟨start, parsed, drew, moves⟩ := stay
  rw [parse_listing_eq nonempty sound allocates] at parsed
  by_cases savable :
      Savable fetch.nameAllocated 0 ((listing fetch data).take 6)
  · rw [if_pos savable] at parsed
    by_cases inside : statics.playlist.songlistNum <
        ((listing fetch data).take 6).length
    · rw [if_pos inside] at parsed
      cases parsed
      refine ⟨inside, fun element member => ?_⟩
      have strings : Strings (listing fetch data) :=
        (savable_iff allocates.names 0 _).mp savable
      obtain ⟨name, rfl⟩ :=
        Option.isSome_iff_exists.mp (strings element member)
      obtain ⟨row, bound, found⟩ := List.getElem_of_mem member
      have place : ((listing fetch data).take 6)[row]? =
          some (some name) := by
        rw [List.getElem?_eq_getElem bound, found]
      have named : Named (listing fetch data) row name :=
        ⟨Int.natCast_nonneg row, place⟩
      refine ⟨name, rfl, ?_⟩
      -- move to the row of the name, and enter page 2 from there
      obtain ⟨inputs, after, browsing, ran, final, reached⟩ :=
        moves_reach strings (browsed_listed sound strings inside) bound
      obtain ⟨other, returned, -, entries⟩ :=
        moves nonempty inputs browsing
      cases ran.symm.trans returned
      obtain ⟨song, selected, read⟩ := final.selected strings
      have same : song = name := by
        rw [reached] at selected
        have found := selected.2.symm.trans named.2
        exact Option.some_inj.mp (Option.some_inj.mp found)
      subst same
      obtain ⟨entered, ranEntry, back, fore, made⟩ :=
        enter_made answering_downloadable read
      have titled := (entries answering _ .none entered rfl ranEntry).made made
      rw [reached] at titled
      have short : ((listing fetch data).take 6).length ≤ 6 :=
        List.length_take_le ..
      exact fitsRow_of_calls (by omega) named
        (drew.made (listedStatics_made _ statics place)) titled
    · rw [if_neg inside] at parsed
      cases parsed
  · rw [if_neg savable] at parsed
    cases parsed

end Law

/--
Every name that a parse, any moves and entering page 2 draw stays in its own
line exactly if each listed element is a name that fits, and the selection left
from before is a row of the list.
-/
theorem names_stay_iff
    (fetch : Fetch) (data : List UInt8) (statics : Statics)
    (reached : Reached statics.playlist) (allocates : Allocates fetch) :
    NamesStay fetch data statics ↔ ListFits fetch data statics :=
  ⟨fits_of_namesStay reached.sound allocates,
    namesStay_of_fits reached.sound allocates⟩

/-! ## A list that fits, and one that does not -/

/-- The name `a.wav` stays in its lines. -/
theorem names_stay_short :
    NamesStay (online [some songName]).fetch [] freshStatics :=
  (names_stay_iff (online [some songName]).fetch [] freshStatics
    reached_fresh ⟨rfl, fun _ => rfl⟩).mpr (fun _ => by
      refine ⟨by decide, fun element member =>
        ⟨songName, List.mem_singleton.mp member, ?_, by decide, ?_⟩⟩
      · exact (PlainFormats.format_ok_iff _).mp ⟨_, rfl⟩
      · exact fun wide => absurd wide.1 (by decide))

/-- A name of 20 characters, `Moonlight_Sonata.wav`. -/
def wideName : CString :=
  .ofList ("Moonlight_Sonata.wav".toList.map fun c => ascii c)
    (solid_of_all rfl)

/-- A list with the wide name in the last row. -/
def wideList : List (Option CString) :=
  List.replicate 5 (some songName) ++ [some wideName]

/-- In the last row, its last character clears the screen. -/
theorem wideName_clears :
    ¬ NamesStay (online wideList).fetch [] freshStatics ∧
      ∃ after,
        TextDrawing.lcdShowString blankFonts (fun _ => true) 8 (rowY 5) 24
          wideName.text [] (.start idleLcd) = .ok after ∧
        .clear ∈ after.calls := by
  have verbatim : Verbatim wideName.text := by decide
  constructor
  · intro stay
    have fitting := (fits_of_namesStay reached_fresh.sound
      ⟨rfl, fun _ => rfl⟩ stay (by decide)).2
    have last : Named wideList 5 wideName := ⟨by decide, rfl⟩
    exact (fitting.named last).2.2 ⟨rfl, verbatim⟩
  · rw [lcdShowString_eq, PlainFormats.format_verbatim verbatim]
    refine ⟨_, rfl, ?_⟩
    show TextDrawing.Call.clear ∈ (TextDrawing.showLoop blankFonts
      (fun _ => true) 24 8 (rowY 5)
      (blockText (wideName.text.take 99)) (.start idleLcd)).calls
    decide +kernel

end InternetWavPlayer.SongRows
