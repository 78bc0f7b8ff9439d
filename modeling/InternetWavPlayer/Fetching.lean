import InternetWavPlayer.Listing

/-!
# Saving and showing a fetched list

What a playlist request leaves, as a function of the array that the document
holds: nothing, an empty list, or a fresh array with a saved name for each of
its first six elements.
-/

namespace InternetWavPlayer.Fetching

open InternetWavPlayer.Run
open InternetWavPlayer.Display
open InternetWavPlayer.Songlist
open InternetWavPlayer.Webclient
open InternetWavPlayer.ResponseText
open InternetWavPlayer.Pages
open InternetWavPlayer.Playlists
open InternetWavPlayer.Listing

/-! ## The saving loop -/

/-- The saved names, in blocks numbered from `next`. -/
def savedSongs : Nat → List (Option CString) → List Song
  | _, [] => []
  | next, none :: rest => savedSongs next rest
  | next, some name :: rest =>
      ⟨next, rtMemcpy name 30⟩ :: savedSongs (next + 1) rest

/-- The rows drawn while the names are saved. -/
def drawNames : Nat → List (Option CString) → Panel → Panel
  | _, [], panel => panel
  | cnt, none :: rest, panel => drawNames (cnt + 1) rest panel
  | cnt, some name :: rest, panel =>
      drawNames (cnt + 1) rest (drawListed cnt name.text panel)

/-- Every element is a string, and a block is found for each. -/
def Savable (nameAllocated : Nat → Bool) :
    Nat → List (Option CString) → Prop
  | _, [] => True
  | cnt, name :: rest =>
      (name.isSome = true ∧ nameAllocated cnt = true) ∧
        Savable nameAllocated (cnt + 1) rest

instance instDecidableSavable (nameAllocated : Nat → Bool) :
    ∀ cnt array, Decidable (Savable nameAllocated cnt array)
  | _, [] => isTrue True.intro
  | cnt, _ :: rest =>
      have := instDecidableSavable nameAllocated (cnt + 1) rest
      inferInstanceAs (Decidable (_ ∧ _))

theorem savedSongs_length
    {nameAllocated : Nat → Bool} {cnt : Nat} (next : Nat)
    {array : List (Option CString)}
    (savable : Savable nameAllocated cnt array) :
    (savedSongs next array).length = array.length := by
  induction array generalizing cnt next with
  | nil => rfl
  | cons name rest induction =>
      cases name with
      | none => simp [Savable] at savable
      | some name =>
          simp only [savedSongs, List.length_cons]
          rw [induction (next + 1) savable.2]

theorem strings_of_savable
    {nameAllocated : Nat → Bool} {cnt : Nat}
    {array : List (Option CString)}
    (savable : Savable nameAllocated cnt array) :
    ∀ element ∈ array, element.isSome = true := by
  induction array generalizing cnt with
  | nil => simp
  | cons name rest induction =>
      exact List.forall_mem_cons.mpr
        ⟨savable.1.1, induction savable.2⟩

/-- The blocks of the saved names are consecutive. -/
theorem savedSongs_blocks
    (next : Nat) (array : List (Option CString)) :
    (savedSongs next array).map Song.block =
      List.range' next (savedSongs next array).length := by
  induction array generalizing next with
  | nil => rfl
  | cons name rest induction =>
      cases name with
      | none => exact induction next
      | some name =>
          simp only [savedSongs, List.map_cons, List.length_cons,
            List.range'_succ]
          rw [induction (next + 1)]

/-- The statics after the loop saved an array from `cnt` on. -/
def savedStatics (cnt block : Nat) (done : List (Option Song))
    (array : List (Option CString)) (statics : Statics) : Statics :=
  { statics with
    playlist :=
      { statics.playlist with
        songlist := some ⟨block, done ++
          (savedSongs statics.playlist.heap.next array).map some⟩
        heap :=
          ⟨statics.playlist.heap.live ∪
            Finset.Ico statics.playlist.heap.next
              (statics.playlist.heap.next + array.length),
            statics.playlist.heap.next + array.length⟩ }
    panel := drawNames cnt array statics.panel }

/-- The playlist once a name was saved behind the elements `done`. -/
def savedOne (block : Nat) (done rest : List (Option Song))
    (name : CString) (playlist : Playlist) : Playlist :=
  { playlist with
    songlist := some ⟨block,
      (done ++ [some ⟨playlist.heap.next, rtMemcpy name 30⟩]) ++ rest⟩
    heap := (rtMalloc playlist.heap).2 }

section SavedOne

variable {block : Nat} {done rest : List (Option Song)}
  {playlist : Playlist}

theorem songlistWrite_savedOne
    (name : CString)
    (pointer : playlist.songlist = some ⟨block, done ++ none :: rest⟩)
    (live : block ∈ playlist.heap.live) :
    songlistWrite { playlist with heap := (rtMalloc playlist.heap).2 }
        done.length
        (some ⟨(rtMalloc playlist.heap).1, rtMemcpy name 30⟩) =
      .ok (savedOne block done rest name playlist) := by
  have element := songlistElement_of_inside
    { playlist with heap := (rtMalloc playlist.heap).2 } done.length
    pointer (Finset.mem_insert_of_mem live) (by simp)
  rw [songlistWrite, element]
  simp [bind, Except.bind, pure, Except.pure, savedOne, rtMalloc]

theorem songText_savedOne
    (name : CString) (live : block ∈ playlist.heap.live) :
    songText (savedOne block done rest name playlist) done.length =
      .ok (blockText (rtMemcpy name 30)) := by
  have element := songlistElement_of_inside
    (savedOne block done rest name playlist) done.length rfl
    (Finset.mem_insert_of_mem live) (by simp)
  rw [songText, songlistRead, element]
  simp [bind, Except.bind, pure, Except.pure, savedOne, rtMalloc]

end SavedOne

/-- Saving a name first and the others after it is saving them all. -/
theorem savedStatics_cons
    (cnt block : Nat) (done : List (Option Song)) (name : CString)
    (rest : List (Option CString)) (statics : Statics) :
    savedStatics (cnt + 1) block
        (done ++ [some ⟨statics.playlist.heap.next, rtMemcpy name 30⟩])
        rest
        { statics with
          playlist := savedOne block done
            (List.replicate rest.length none) name statics.playlist
          panel := drawListed cnt name.text statics.panel } =
      savedStatics cnt block done (some name :: rest) statics := by
  have live : insert statics.playlist.heap.next
        statics.playlist.heap.live ∪
          Finset.Ico (statics.playlist.heap.next + 1)
            (statics.playlist.heap.next + (rest.length + 1)) =
      statics.playlist.heap.live ∪
        Finset.Ico statics.playlist.heap.next
          (statics.playlist.heap.next + (rest.length + 1)) := by
    ext number
    by_cases member : number ∈ statics.playlist.heap.live
    · simp [member]
    · simp only [Finset.mem_union, Finset.mem_insert, Finset.mem_Ico,
        member, or_false, false_or]
      omega
  have next : statics.playlist.heap.next + 1 + rest.length =
      statics.playlist.heap.next + (rest.length + 1) := by
    omega
  simp only [savedStatics, savedOne, rtMalloc, savedSongs, drawNames,
    next, live, List.length_cons, List.map_cons, List.append_assoc,
    List.cons_append, List.nil_append]

/-- The loop saves an array of strings, or stops at a null pointer. -/
theorem saveSongs_eq
    (nameAllocated : Nat → Bool) (array : List (Option CString))
    (done : List (Option Song)) (block : Nat) (statics : Statics)
    (pointer : statics.playlist.songlist =
      some ⟨block, done ++ List.replicate array.length none⟩)
    (live : block ∈ statics.playlist.heap.live) :
    saveSongs nameAllocated done.length array statics =
      if Savable nameAllocated done.length array then
        .ok (savedStatics done.length block done array statics)
      else .error .nullPointer := by
  induction array generalizing done statics with
  | nil =>
      rw [saveSongs, if_pos (show Savable _ _ [] from True.intro)]
      obtain ⟨⟨songlist, itemNum, songlistNum, ⟨liveBlocks, next⟩⟩, _⟩ :=
        statics
      simp_all [savedStatics, savedSongs, drawNames]
  | cons name rest induction =>
      cases name with
      | none =>
          rw [if_neg (by simp [Savable])]
          rfl
      | some name =>
          rw [List.length_cons, List.replicate_succ] at pointer
          rw [saveSongs]
          by_cases allocated : nameAllocated done.length = true
          · have grown : done.length + 1 =
                (done ++ [some (⟨statics.playlist.heap.next,
                  rtMemcpy name 30⟩ : Song)]).length := by
              simp
            simp only [if_pos allocated,
              songlistWrite_savedOne name pointer live,
              songText_savedOne name live, bind, Except.bind]
            rw [grown, induction _ _ rfl (Finset.mem_insert_of_mem live),
              ← grown, savedStatics_cons]
            simp only [Savable, Option.isSome_some, allocated, and_self,
              true_and]
          · rw [if_neg allocated, if_neg (by simp [Savable, allocated]),
              songlistWrite,
              songlistElement_of_inside _ _ pointer live (by simp)]
            rfl

/-! ## Showing a list with elements -/

theorem cutItemNum_toNat (array : List (Option CString)) :
    (cutItemNum array.length).toNat = (array.take 6).length := by
  rw [cutItemNum, List.length_take]
  split <;> omega

theorem cutItemNum_eq (array : List (Option CString)) :
    cutItemNum array.length = ((array.take 6).length : Int) := by
  rw [cutItemNum, List.length_take]
  split <;> omega

/-- The playlist once the first elements of an array are saved. -/
def listedPlaylist (array : List (Option CString))
    (playlist : Playlist) : Playlist where
  songlist := some ⟨playlist.heap.next,
    (savedSongs (playlist.heap.next + 1) (array.take 6)).map some⟩
  itemNum := cutItemNum array.length
  songlistNum := playlist.songlistNum
  heap :=
    ⟨insert playlist.heap.next playlist.heap.live ∪
      Finset.Ico (playlist.heap.next + 1)
        (playlist.heap.next + 1 + (array.take 6).length),
      playlist.heap.next + 1 + (array.take 6).length⟩

/-- The rows of a list before one of them is selected. -/
def drawList (array : List (Option CString)) (panel : Panel) : Panel :=
  lcdDrawLine 8 (52 + 31 * cutItemNum array.length - 4) (240 - 8)
    (52 + 31 * cutItemNum array.length - 4)
    (drawNames 0 (array.take 6)
      (lcdShowString 48 80 24 (.literal "            ") panel))

/-- The statics once a list is saved and shown. -/
def listedStatics (array : List (Option CString)) (statics : Statics) :
    Statics :=
  { statics with
    playlist := listedPlaylist array statics.playlist
    panel := listRow (listedPlaylist array statics.playlist) blue white
      statics.playlist.songlistNum (drawList array statics.panel)
    trace := .listed (array.take 6).length :: statics.trace }

/-- The elements of a listed playlist. -/
theorem listed_songs
    (array : List (Option CString)) (playlist : Playlist) :
    songs ⟨playlist.heap.next,
        (savedSongs (playlist.heap.next + 1) (array.take 6)).map some⟩ =
      savedSongs (playlist.heap.next + 1) (array.take 6) := by
  simp [songs]

theorem sound_listed
    {nameAllocated : Nat → Bool} {array : List (Option CString)}
    {playlist : Playlist} (sound : Sound playlist)
    (savable : Savable nameAllocated 0 (array.take 6))
    (inside : playlist.songlistNum < (array.take 6).length) :
    Sound (listedPlaylist array playlist) := by
  have length := savedSongs_length (playlist.heap.next + 1) savable
  refine ⟨?_, sound.selection, ?_, ?_⟩
  · simp only [listedPlaylist, cutItemNum_eq]
    omega
  · intro block member
    simp only [listedPlaylist, Finset.mem_union, Finset.mem_insert,
      Finset.mem_Ico] at member ⊢
    rcases member with (rfl | older) | ⟨-, high⟩
    · omega
    · have := sound.fresh block older
      omega
    · exact high
  · intro saved pointer
    cases pointer
    have block : blocks ⟨playlist.heap.next,
          (savedSongs (playlist.heap.next + 1) (array.take 6)).map some⟩ =
        List.range' playlist.heap.next ((array.take 6).length + 1) := by
      rw [blocks, listed_songs, savedSongs_blocks, length,
        List.range'_succ]
    constructor
    · rw [listed_songs]
    · intro number member
      rw [block, List.mem_range'_1] at member
      simp only [listedPlaylist, Finset.mem_union, Finset.mem_insert,
        Finset.mem_Ico]
      omega
    · rw [block]
      exact List.nodup_range'
    · simpa [listedPlaylist, length] using inside
    · simp [length]
    · left
      rw [listedPlaylist, cutItemNum_eq]
      simp [length]

/-- A list with elements is shown, or an access on the way has no meaning. -/
theorem listSongs_eq
    (fetch : Fetch) (array : List (Option CString)) (statics : Statics)
    (sound : Sound statics.playlist) (nonempty : array ≠ []) :
    listSongs fetch array (statics.countSongs array.length) =
      if fetch.songlistAllocated = true then
        if Savable fetch.nameAllocated 0 (array.take 6) then
          if statics.playlist.songlistNum < (array.take 6).length then
            .ok (listedStatics array statics)
          else
            .error (.songlistAccess (some (array.take 6).length)
              statics.playlist.songlistNum)
        else .error .nullPointer
      else if array.head?.join.isSome then
        .error (.songlistAccess none 0)
      else .error .nullPointer := by
  have count : (statics.countSongs array.length).playlist.itemNum.toNat =
      (array.take 6).length :=
    cutItemNum_toNat array
  have taken : array.take (array.take 6).length = array.take 6 := by
    rw [List.length_take, List.take_eq_take_iff]
    omega
  rw [listSongs]
  simp only [count, taken, allocateSonglist]
  split
  · have saves := saveSongs_eq fetch.nameAllocated (array.take 6) []
      statics.playlist.heap.next
      { statics.countSongs array.length with
        playlist :=
          { (statics.countSongs array.length).playlist with
            songlist := some ⟨statics.playlist.heap.next,
              List.replicate (array.take 6).length none⟩
            heap := (rtMalloc statics.playlist.heap).2 }
        panel :=
          lcdShowString 48 80 24 (.literal "            ")
            statics.panel }
      rfl (Finset.mem_insert_self _ _)
    rw [List.length_nil] at saves
    simp only [Statics.countSongs, rtMalloc] at saves ⊢
    rw [saves]
    split
    · rename_i savable
      have length := savedSongs_length (statics.playlist.heap.next + 1)
        savable
      by_cases selected :
          statics.playlist.songlistNum < (array.take 6).length
      · rw [if_pos selected]
        have inside : Inside (listedPlaylist array statics.playlist)
            statics.playlist.songlistNum :=
          ⟨_, rfl, sound.selection, by simpa [length] using selected⟩
        have drew := drawRow_of_text
          { statics with
            playlist := listedPlaylist array statics.playlist
            panel := drawList array statics.panel }
          blue white
          (songText_of_inside (sound_listed sound savable selected) inside)
        exact congrArg (Except.map (Statics.log ·
          (.listed (array.take 6).length))) drew
      · rw [if_neg selected]
        have outside : ¬ Inside (listedPlaylist array statics.playlist)
            statics.playlist.songlistNum := by
          rintro ⟨saved, pointer, -, high⟩
          cases pointer
          simp only [List.length_map, length] at high
          exact selected high
        have element := songlistElement_of_outside
          (listedPlaylist array statics.playlist)
          statics.playlist.songlistNum
          (fun saved pointer => by
            cases pointer
            simp [listedPlaylist])
          outside
        have read : songText (listedPlaylist array statics.playlist)
              statics.playlist.songlistNum =
            .error (.songlistAccess (some (array.take 6).length)
              statics.playlist.songlistNum) := by
          rw [songText, songlistRead, element]
          simp [bind, Except.bind, Playlist.allocated, listedPlaylist,
            length]
        have drew := drawRow_of_fault
          { statics with
            playlist := listedPlaylist array statics.playlist
            panel := drawList array statics.panel }
          blue white read
        exact congrArg (Except.map (Statics.log ·
          (.listed (array.take 6).length))) drew
    · rfl
  · cases array with
    | nil => exact absurd rfl nonempty
    | cons name rest =>
        cases name with
        | none => rfl
        | some name =>
            rw [List.take_succ_cons, saveSongs]
            split <;> rfl

/-! ## One playlist request -/

/-- The array `"internet_radio"` of the document, where a request gets one. -/
def fetchedArray (fetch : Fetch) : Option (List (Option CString)) :=
  if fetch.urlAllocated = true ∧ fetch.sessionCreated = true ∧
      fetch.get.status = 200 ∧ fetch.bufferAllocated = true then
    (fetch.cjsonParse (readResponse webclientSource
      fetch.session.contentLength fetch.session)).bind
        CJson.internetRadio
  else none

/-- The request follows a redirect, which closes the caller's session. -/
def Redirected (fetch : Fetch) : Prop :=
  fetch.urlAllocated = true ∧ fetch.sessionCreated = true ∧
    fetch.get.sessionClosed = true

instance (fetch : Fetch) : Decidable (Redirected fetch) :=
  inferInstanceAs (Decidable (_ ∧ _))

/-- The statics when the document holds an empty array. -/
def emptyStatics (statics : Statics) : Statics :=
  (statics.countSongs 0).draw drawNoData

theorem webserverDataParse_eq
    (fetch : Fetch) (data : List UInt8) (statics : Statics) :
    webserverDataParse fetch data statics =
      match (fetch.cjsonParse data).bind CJson.internetRadio with
      | none => .ok statics
      | some [] => .ok (emptyStatics statics)
      | some (name :: rest) =>
          listSongs fetch (name :: rest)
            (statics.countSongs (name :: rest).length) := by
  rw [webserverDataParse]
  cases fetch.cjsonParse data with
  | none => rfl
  | some root =>
      simp only [Option.bind_some]
      cases root.internetRadio with
      | none => rfl
      | some array =>
          cases array with
          | nil => rfl
          | cons name rest =>
              have positive : (statics.countSongs
                  (name :: rest).length).playlist.itemNum > 0 := by
                simp only [Statics.countSongs, cutItemNum_eq]
                simp
              dsimp only
              rw [if_pos positive]

/-- What a playlist request leaves, on statics that already log it. -/
theorem fetchPlaylist_eq (fetch : Fetch) (statics : Statics) :
    (fetchPlaylist fetch statics).map Prod.snd =
      if Redirected fetch then .error .closedSession
      else
        match fetchedArray fetch with
        | none => .ok (statics.log (.action .fetch))
        | some [] => .ok (emptyStatics (statics.log (.action .fetch)))
        | some (name :: rest) =>
            listSongs fetch (name :: rest)
              ((statics.log (.action .fetch)).countSongs
                (name :: rest).length) := by
  rw [fetchPlaylist]
  by_cases url : fetch.urlAllocated = true
  · by_cases session : fetch.sessionCreated = true
    · by_cases closed : fetch.get.sessionClosed = true
      · simp [Redirected, url, session, closed, Except.map]
      · by_cases status : fetch.get.status = 200
        · by_cases buffer : fetch.bufferAllocated = true
          · simp only [Redirected, fetchedArray, url, session, closed,
              status, buffer, and_self, and_false, Bool.true_eq_false,
              ↓reduceIte, ne_eq, not_true_eq_false, Bool.false_eq_true]
            rw [← webserverDataParse_eq]
            cases webserverDataParse fetch
              (readResponse webclientSource fetch.session.contentLength
                fetch.session) (statics.log (.action .fetch)) <;> rfl
          · simp [Redirected, fetchedArray, url, session, closed, status,
              buffer, Except.map]
        · simp [Redirected, fetchedArray, url, session, closed, status,
            Except.map]
    · simp [Redirected, fetchedArray, url, session, Except.map]
  · simp [Redirected, fetchedArray, url, Except.map]

end InternetWavPlayer.Fetching
