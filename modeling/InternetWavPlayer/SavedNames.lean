import InternetWavPlayer.DrawnLists
import InternetWavPlayer.PlaylistBounds

/-!
# What `webserver_data_parse` saves

The loop copies 30 bytes of every name into a block of 30 bytes, whatever the
name is.  A name of exactly 29 characters is copied whole with its NUL; a
shorter one is read past its end, a longer one gets no NUL, and an element that
is no string has no text to copy.  Each name is also drawn, as the format of a
call without arguments.
-/

namespace InternetWavPlayer.SavedNames

open InternetWavPlayer.Run
open InternetWavPlayer.Songlist
open InternetWavPlayer.Webclient
open InternetWavPlayer.Pages
open InternetWavPlayer.LcdThread
open InternetWavPlayer.Dispatch
open InternetWavPlayer.Scene
open InternetWavPlayer.Playlists
open InternetWavPlayer.Fetching
open InternetWavPlayer.PlaylistBounds
open InternetWavPlayer.PlainFormats
open InternetWavPlayer.Screen
open InternetWavPlayer.DrawnLists

/-! ## The statics before the call -/

/-- The playlist of a state that the LCD thread reaches. -/
def Reached (playlist : Playlist) : Prop :=
  ∃ card inputs lcd, run step inputs (.initial card) = .ok lcd ∧
    lcd.statics.playlist = playlist

theorem Reached.sound
    {playlist : Playlist} (reached : Reached playlist) :
    Sound playlist := by
  obtain ⟨card, inputs, lcd, ran, rfl⟩ := reached
  have lists := run_invariant listInvariant_preserved
    (listInvariant_initial card) (run_view ran)
  exact lists.sound

/-- Every allocation of the call succeeds. -/
structure Allocates (fetch : Fetch) : Prop where
  songlist : fetch.songlistAllocated = true
  names : ∀ cnt, fetch.nameAllocated cnt = true

/-- The elements of `"internet_radio"` in the document. -/
def elements (fetch : Fetch) (data : List UInt8) :
    Option (List (Option CString)) :=
  (fetch.cjsonParse data).bind CJson.internetRadio

/-! ## One copied name -/

/-- A block holds a text and the NUL behind it. -/
def HoldsString (bytes text : List UInt8) : Prop :=
  ∃ rest, bytes = text ++ 0 :: rest

/-- The bytes that `rt_memcpy` reads are characters of the name or its NUL. -/
def CopiedInside (name : CString) : Prop :=
  ∀ position < 30, position ≤ name.length

theorem text_length (name : CString) : name.text.length = name.length := by
  simp [CString.text]

/-- A name is saved as a string exactly when it has 29 characters. -/
theorem saved_iff (name : CString) :
    CopiedInside name ∧
        HoldsString (rtMemcpy name 30) (name.text.take 29) ↔
      name.length = 29 := by
  constructor
  · rintro ⟨inside, rest, bytes⟩
    have long : 29 ≤ name.length := inside 29 (by decide)
    have last : (rtMemcpy name 30)[29]? = some 0 := by
      rw [bytes, List.getElem?_append_right]
      · simp [text_length, Nat.min_eq_left long]
      · simp
    have zero : name.mem 29 = 0 := by
      simpa [rtMemcpy] using last
    have short : ¬ 29 < name.length := by
      intro longer
      exact name.nonzero 29 longer zero
    omega
  · intro length
    refine ⟨fun position bound => by omega, [], ?_⟩
    have whole : name.text.take 29 = name.text :=
      List.take_of_length_le (by rw [text_length, length])
    have nul : name.mem 29 = 0 := by
      rw [← length]
      exact name.terminated
    rw [whole, rtMemcpy, List.range_succ, List.map_append, CString.text,
      length]
    simp [nul]

/-! ## The saved playlist -/

/--
A playlist is the one of a document's array: it counts at most six elements,
and the new array has for each a string of at most 29 characters of its text,
copied from inside the text.
-/
structure Consistent (array : List (Option CString))
    (before after : Playlist) : Prop where
  count : after.itemNum = min array.length 6
  saved : 0 < after.itemNum → ∃ block entries,
    after.songlist = some ⟨block, entries⟩ ∧
      block ∉ before.heap.live ∧ block ∈ after.heap.live ∧
      entries.length = after.itemNum ∧
      ∀ index < entries.length, ∃ name song,
        array[index]? = some (some name) ∧
        entries[index]? = some (some song) ∧
        CopiedInside name ∧ HoldsString song.bytes (name.text.take 29)

/--
The call returns, and so does the driver from each string that it draws, with
the playlist unchanged or a consistent one.
-/
def ParsesWell (fetch : Fetch) (data : List UInt8) (statics : Statics) :
    Prop :=
  ∃ after, webserverDataParse fetch data statics = .ok after ∧
    Drew Returns statics.panel after.panel ∧
    (after.playlist = statics.playlist ∨
      ∃ array, elements fetch data = some array ∧
        Consistent array statics.playlist after.playlist)

/--
Each of the first six elements is a string of exactly 29 characters that takes
no argument as a format, and the selection is one of them.
-/
def NamesFit (fetch : Fetch) (data : List UInt8) (statics : Statics) :
    Prop :=
  ∀ array, elements fetch data = some array → array ≠ [] →
    statics.playlist.songlistNum < (array.take 6).length ∧
    ∀ element ∈ array.take 6, ∃ name : CString,
      element = some name ∧ name.length = 29 ∧ TakesNone name.text

theorem savable_iff
    {nameAllocated : Nat → Bool}
    (allocated : ∀ cnt, nameAllocated cnt = true) (cnt : Nat)
    (array : List (Option CString)) :
    Savable nameAllocated cnt array ↔
      ∀ element ∈ array, element.isSome = true := by
  induction array generalizing cnt with
  | nil => simp [Savable]
  | cons name rest induction =>
      rw [Savable, induction, List.forall_mem_cons, allocated]
      simp

theorem take_getElem
    {array : List (Option CString)} {index : Nat}
    (inside : index < (array.take 6).length) :
    array[index]? = some ((array.take 6)[index]) := by
  have bound : index < array.length :=
    inside.trans_le (List.length_take_le' 6 array)
  rw [List.getElem?_eq_getElem bound, List.getElem_take]

/-- An array of strings is saved consistently if their lengths fit. -/
theorem consistent_of_lengths
    {array : List (Option CString)} {playlist : Playlist}
    (sound : Sound playlist)
    (lengths : ∀ element ∈ array.take 6, ∃ name : CString,
      element = some name ∧ name.length = 29) :
    Consistent array playlist (listedPlaylist array playlist) := by
  have strings : ∀ element ∈ array.take 6, element.isSome = true := by
    intro element member
    obtain ⟨name, rfl, -⟩ := lengths element member
    rfl
  have saves : Savable (fun _ => true) 0 (array.take 6) :=
    (savable_iff (fun _ => rfl) 0 _).mpr strings
  have count := savedSongs_length (playlist.heap.next + 1) saves
  refine ⟨?_, fun _ => ⟨_, _, rfl, ?_, ?_, ?_, ?_⟩⟩
  · simp only [listedPlaylist, cutItemNum]
    split <;> omega
  · intro live
    exact Nat.lt_irrefl _ (sound.fresh _ live)
  · simp [listedPlaylist]
  · rw [List.length_map, count]
    exact (cutItemNum_eq array).symm
  · intro index inside
    rw [List.length_map, count] at inside
    obtain ⟨name, element, length⟩ :=
      lengths _ (List.getElem_mem inside)
    have found := take_getElem inside
    rw [element] at found
    have taken : (array.take 6)[index]? = some (some name) := by
      rw [List.getElem?_eq_getElem inside, element]
    obtain ⟨copied, holds⟩ := (saved_iff name).mpr length
    refine ⟨name,
      ⟨playlist.heap.next + 1 + index, rtMemcpy name 30⟩,
      found, ?_, copied, holds⟩
    rw [List.getElem?_map,
      savedSongs_getElem (playlist.heap.next + 1) strings taken]
    rfl

/-- And only then. -/
theorem lengths_of_consistent
    {array : List (Option CString)} {playlist : Playlist}
    (strings : ∀ element ∈ array.take 6, element.isSome = true)
    (consistent :
      Consistent array playlist (listedPlaylist array playlist)) :
    ∀ element ∈ array.take 6, ∃ name : CString,
      element = some name ∧ name.length = 29 := by
  intro element member
  obtain ⟨name, rfl⟩ := Option.isSome_iff_exists.mp (strings _ member)
  refine ⟨name, rfl, ?_⟩
  obtain ⟨index, inside, found⟩ := List.getElem_of_mem member
  have positive : 0 < (listedPlaylist array playlist).itemNum := by
    simp only [listedPlaylist, cutItemNum_eq]
    omega
  obtain ⟨block, entries, pointer, -, -, count, saved⟩ :=
    consistent.saved positive
  have entriesEq : entries =
      (savedSongs (playlist.heap.next + 1) (array.take 6)).map some := by
    cases pointer
    rfl
  have taken : (array.take 6)[index]? = some (some name) := by
    rw [List.getElem?_eq_getElem inside, found]
  have within : index < entries.length := by
    have length : (entries.length : Int) = (array.take 6).length := by
      rw [count, listedPlaylist, cutItemNum_eq]
    omega
  obtain ⟨other, song, element, entry, copied, holds⟩ :=
    saved index within
  have same : other = name := by
    rw [take_getElem inside, found] at element
    cases element
    rfl
  subst same
  rw [entriesEq, List.getElem?_map, savedSongs_getElem
    (playlist.heap.next + 1) strings taken] at entry
  cases entry
  exact (saved_iff other).mp ⟨copied, holds⟩

/-- A saved list is another playlist than before. -/
theorem listedPlaylist_ne
    (array : List (Option CString)) (playlist : Playlist) :
    listedPlaylist array playlist ≠ playlist := by
  intro same
  have next := congrArg (fun playlist => playlist.heap.next) same
  simp only [listedPlaylist] at next
  omega

/-- A document without an array of names changes nothing. -/
theorem parse_absent_eq
    {fetch : Fetch} {data : List UInt8} (statics : Statics)
    (document : elements fetch data = none) :
    webserverDataParse fetch data statics = .ok statics := by
  have absent : (fetch.cjsonParse data).bind CJson.internetRadio = none :=
    document
  rw [webserverDataParse_eq, absent]

/-- An empty array empties the count. -/
theorem parse_empty_eq
    {fetch : Fetch} {data : List UInt8} (statics : Statics)
    (document : elements fetch data = some []) :
    webserverDataParse fetch data statics = .ok (emptyStatics statics) := by
  have empty : (fetch.cjsonParse data).bind CJson.internetRadio = some [] :=
    document
  rw [webserverDataParse_eq, empty]

/-- What the call returns for a document that lists elements. -/
theorem parse_list_eq
    {fetch : Fetch} {data : List UInt8} {statics : Statics}
    {name : Option CString} {rest : List (Option CString)}
    (document : elements fetch data = some (name :: rest))
    (sound : Sound statics.playlist) (allocates : Allocates fetch) :
    webserverDataParse fetch data statics =
      if Savable fetch.nameAllocated 0 ((name :: rest).take 6) then
        if statics.playlist.songlistNum <
            ((name :: rest).take 6).length then
          .ok (listedStatics (name :: rest) statics)
        else
          .error (.songlistAccess (some ((name :: rest).take 6).length)
            statics.playlist.songlistNum)
      else .error .nullPointer := by
  have listed : (fetch.cjsonParse data).bind CJson.internetRadio =
      some (name :: rest) := document
  rw [webserverDataParse_eq, listed]
  dsimp only
  rw [listSongs_eq fetch (name :: rest) statics sound (by simp),
    if_pos allocates.songlist]

/-- The case of a document that lists elements. -/
theorem parses_list_iff
    {fetch : Fetch} {data : List UInt8} {statics : Statics}
    {name : Option CString} {rest : List (Option CString)}
    (document : elements fetch data = some (name :: rest))
    (sound : Sound statics.playlist) (allocates : Allocates fetch) :
    ParsesWell fetch data statics ↔ NamesFit fetch data statics := by
  have equation := parse_list_eq document sound allocates
  constructor
  · rintro ⟨after, returned, drawn, saved⟩ array found -
    have same : name :: rest = array :=
      Option.some_inj.mp (document.symm.trans found)
    subst same
    by_cases savable :
        Savable fetch.nameAllocated 0 ((name :: rest).take 6)
    · rw [if_pos savable] at equation
      by_cases inside : statics.playlist.songlistNum <
          ((name :: rest).take 6).length
      · rw [if_pos inside, returned] at equation
        cases equation
        refine ⟨inside, ?_⟩
        rcases saved with unchanged | ⟨array, found, consistent⟩
        · exact absurd unchanged (listedPlaylist_ne _ _)
        · have same : name :: rest = array :=
            Option.some_inj.mp (document.symm.trans found)
          subst same
          have strings := (savable_iff allocates.names 0 _).mp savable
          intro element member
          obtain ⟨name, rfl, length⟩ :=
            lengths_of_consistent strings consistent element member
          refine ⟨name, rfl, length, ?_⟩
          obtain ⟨row, bound, is⟩ := List.getElem_of_mem member
          exact (returns_string_iff (by decide) _ _ _).mp
            (drawn.made (listedStatics_made _ statics
              (List.getElem?_eq_some_iff.mpr ⟨bound, is⟩)))
      · rw [if_neg inside, returned] at equation
        cases equation
    · rw [if_neg savable, returned] at equation
      cases equation
  · intro fits
    obtain ⟨inside, fitting⟩ := fits _ document (by simp)
    have lengths : ∀ element ∈ (name :: rest).take 6, ∃ name : CString,
        element = some name ∧ name.length = 29 := by
      intro element member
      obtain ⟨name, is, length, -⟩ := fitting element member
      exact ⟨name, is, length⟩
    have strings : ∀ element ∈ (name :: rest).take 6,
        element.isSome = true := by
      intro element member
      obtain ⟨name, rfl, -⟩ := lengths element member
      rfl
    rw [if_pos ((savable_iff allocates.names 0 _).mpr strings),
      if_pos inside] at equation
    have takesNone : ∀ (row : Nat) string,
        ((name :: rest).take 6)[row]? = some (some string) →
          TakesNone string.text := by
      intro row string element
      obtain ⟨other, same, -, none⟩ :=
        fitting _ (List.mem_of_getElem? element)
      cases same
      exact none
    have short : ∀ string, ((name :: rest).take 6)[
        statics.playlist.songlistNum.toNat]? = some (some string) →
          string.text.length < 30 := by
      intro string element
      obtain ⟨other, same, length⟩ :=
        lengths _ (List.mem_of_getElem? element)
      cases same
      rw [text_length]
      omega
    exact ⟨_, equation,
      listedStatics_returns sound strings inside takesNone short,
      Or.inr ⟨_, document, consistent_of_lengths sound lengths⟩⟩

/--
The call returns with a consistent playlist, or the one before, exactly for
documents without listed elements and for those whose first six elements are
strings of 29 characters that take no argument, with the selection among them.
-/
theorem parses_well_iff
    (fetch : Fetch) (data : List UInt8) (statics : Statics)
    (reached : Reached statics.playlist) (allocates : Allocates fetch) :
    ParsesWell fetch data statics ↔ NamesFit fetch data statics := by
  cases document : elements fetch data with
  | none =>
      constructor
      · intro parses array found
        rw [document] at found
        cases found
      · intro fits
        exact ⟨statics, parse_absent_eq statics document, .of_draws_eq rfl,
          Or.inl rfl⟩
  | some array =>
      cases array with
      | nil =>
          constructor
          · intro parses array found nonempty
            rw [document] at found
            cases found
            exact absurd rfl nonempty
          · intro fits
            refine ⟨_, parse_empty_eq statics document,
              drawNoData_returns statics.panel,
              Or.inr ⟨[], document, rfl, ?_⟩⟩
            intro positive
            cases positive
      | cons name rest =>
          exact parses_list_iff document reached.sound allocates

/-! ## A name that fits, and one that does not -/

/-- A name of 29 characters. -/
def fittingName : CString :=
  .ofList (List.replicate 29 97)
    (fun character member => by
      rw [List.eq_of_mem_replicate member]
      decide)

/-- The statics at start-up, with no card. -/
def freshStatics : Statics := .initial fun _ => none

theorem reached_fresh : Reached freshStatics.playlist :=
  ⟨fun _ => none, [], .initial fun _ => none, rfl, rfl⟩

/-- A list with one name of 29 characters is saved consistently. -/
theorem parses_well_fitting :
    ParsesWell (online [some fittingName]).fetch [] freshStatics :=
  (parses_well_iff (online [some fittingName]).fetch [] freshStatics
    reached_fresh ⟨rfl, fun _ => rfl⟩).mpr
    (fun array found _ => by
      have listed : [some fittingName] = array := Option.some_inj.mp found
      subst listed
      refine ⟨by decide, fun element member =>
        ⟨fittingName, List.mem_singleton.mp member, rfl, ?_⟩⟩
      exact (format_ok_iff _).mp ⟨_, rfl⟩)

/-- A list with the name `a.wav` is not: 24 bytes behind its NUL are read. -/
theorem shortName_read_past_end :
    ¬ ParsesWell (online [some songName]).fetch [] freshStatics ∧
      ¬ CopiedInside songName := by
  constructor
  · intro parses
    have fits := (parses_list_iff rfl reached_fresh.sound
      ⟨rfl, fun _ => rfl⟩).mp parses
    obtain ⟨name, named, length, -⟩ :=
      (fits [some songName] rfl (by simp)).2 (some songName) (by simp)
    cases named
    exact absurd length (by decide)
  · intro inside
    exact absurd (inside 29 (by decide)) (by decide)

end InternetWavPlayer.SavedNames
